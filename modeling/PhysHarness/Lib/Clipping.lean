import Mathlib.Algebra.BigOperators.Group.List.Basic
import Mathlib.Algebra.GroupWithZero.Nat
import Mathlib.Logic.Function.Iterate
import Mathlib.Tactic.Common

/-!
Prefixes that fit.

A list is clipped to a cost, and the longest prefix that passes a test is found by bisection when
every shorter prefix passes too.
-/
namespace Clipping

variable {α : Type} {width : α → Nat}

/-- The cost of a list, each item by its own width. -/
def cost (width : α → Nat) (items : List α) : Nat := (items.map width).sum

@[simp] theorem cost_nil : cost width [] = 0 := rfl

@[simp] theorem cost_cons (item : α) (items : List α) :
    cost width (item :: items) = width item + cost width items := by
  simp [cost]

@[simp] theorem cost_append (first second : List α) :
    cost width (first ++ second) = cost width first + cost width second := by
  simp [cost]

@[simp] theorem cost_replicate (n : Nat) (item : α) :
    cost width (List.replicate n item) = n * width item := by
  simp [cost]

theorem cost_mono {part items : List α} (within : part <+: items) :
    cost width part ≤ cost width items := by
  obtain ⟨rest, rfl⟩ := within
  rw [cost_append]
  exact Nat.le_add_right _ _

/-- The items from the front while they cost at most the limit in all. -/
def clip (width : α → Nat) : Nat → List α → List α
  | _, [] => []
  | limit, item :: items =>
    if width item ≤ limit then item :: clip width (limit - width item) items else []

theorem clip_begins (limit : Nat) (items : List α) : clip width limit items <+: items := by
  induction items generalizing limit with
  | nil => exact List.prefix_rfl
  | cons item items ih =>
    unfold clip
    split
    · exact List.cons_prefix_cons.mpr ⟨rfl, ih _⟩
    · exact List.nil_prefix

theorem cost_clip_le (limit : Nat) (items : List α) : cost width (clip width limit items) ≤ limit := by
  induction items generalizing limit with
  | nil => exact Nat.zero_le _
  | cons item items ih =>
    unfold clip
    split
    next fits =>
      have rest := ih (limit - width item)
      rw [cost_cons]
      omega
    next => exact Nat.zero_le _

/-- Every prefix within the limit is part of the clipped list. -/
theorem begins_clip {limit : Nat} {part items : List α} (within : part <+: items)
    (fits : cost width part ≤ limit) : part <+: clip width limit items := by
  induction items generalizing limit part with
  | nil => exact within
  | cons item items ih =>
    cases part with
    | nil => exact List.nil_prefix
    | cons first part =>
      obtain ⟨rfl, rest⟩ := List.cons_prefix_cons.mp within
      rw [cost_cons] at fits
      have first_fits : width first ≤ limit := by omega
      rw [clip, if_pos first_fits]
      exact List.cons_prefix_cons.mpr ⟨rfl, ih rest (by omega)⟩

theorem clip_eq_self {limit : Nat} {items : List α} (fits : cost width items ≤ limit) :
    clip width limit items = items :=
  (clip_begins limit items).eq_of_length_le (begins_clip List.prefix_rfl fits).length_le

/-- Items of some width do not fit into nothing. -/
theorem clip_zero (wide : ∀ item, 0 < width item) (items : List α) : clip width 0 items = [] := by
  cases items with
  | nil => rfl
  | cons item items => rw [clip, if_neg (Nat.not_le.mpr (wide item))]

@[simp] theorem clip_replicate {item : α} (wide : 0 < width item) (limit n : Nat) :
    clip width limit (List.replicate n item) = List.replicate (min n (limit / width item)) item := by
  induction n generalizing limit with
  | zero => simp [clip]
  | succ n ih =>
    rw [List.replicate_succ, clip]
    split
    next fits =>
      have one : limit / width item = (limit - width item) / width item + 1 :=
        Nat.div_eq_sub_div wide fits
      rw [ih, one, Nat.succ_min_succ, List.replicate_succ]
    next beyond =>
      rw [Nat.div_eq_of_lt (by omega), Nat.min_zero, List.replicate_zero]

/-! ### Bisection -/

/-- The last index of the interval that passes, when the first one does. -/
def bisect (fits : Nat → Bool) (low high : Nat) : Nat :=
  if low < high then
    let middle := (low + high + 1) / 2
    if fits middle then bisect fits middle high else bisect fits low (middle - 1)
  else low
termination_by high - low

/-- The last index that passes: itself in the interval, and nothing of the interval after it. -/
structure Last (fits : Nat → Bool) (low high found : Nat) : Prop where
  lower : low ≤ found
  upper : found ≤ high
  passes : fits low → fits found
  later : ∀ n, found < n → n ≤ high → fits n = false

theorem bisect_last {fits : Nat → Bool} {low high : Nat}
    (falling : ∀ m n, m ≤ n → n ≤ high → fits n → fits m) (ordered : low ≤ high) :
    Last fits low high (bisect fits low high) := by
  -- the induction is over the interval; the half that is left out is decided by its middle
  fun_induction bisect fits low high with
  | case1 low high apart middle passes ih =>
    have center : middle = (low + high + 1) / 2 := rfl
    have found := ih falling (by omega)
    exact ⟨by have := found.lower; omega, found.upper, fun _ => found.passes passes, found.later⟩
  | case2 low high apart middle fails ih =>
    have center : middle = (low + high + 1) / 2 := rfl
    have found := ih (fun m n le within => falling m n le (by omega)) (by omega)
    refine ⟨found.lower, by have := found.upper; omega, found.passes, fun n after within => ?_⟩
    by_cases below : n ≤ middle - 1
    · exact found.later n after below
    · cases passes : fits n with
      | false => rfl
      | true => exact absurd (falling middle n (by omega) within passes) fails
  | case3 low high apart =>
    exact ⟨Nat.le_refl _, ordered, id, fun n after within => absurd within (by omega)⟩

end Clipping
