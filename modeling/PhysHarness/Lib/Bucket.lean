import Mathlib.Algebra.Order.Field.Basic
import Mathlib.Data.List.Chain
import Mathlib.Data.List.Infix
import Mathlib.Tactic.Linarith
import Mathlib.Tactic.Ring

/-!
The ledger of a token bucket.

A bucket's level grows with time up to its capacity. An entry of the ledger takes tokens or gives some
back, and says when, and which level it left. Between two entries the level grows by no more than the
refill, so over any stretch of the ledger what was taken is bounded by the capacity, the refill and
the level that is left.
-/
namespace Bucket

variable {K : Type} [Field K] [LinearOrder K] [IsStrictOrderedRing K]

structure Entry (K : Type) where
  time : K
  change : K
  level : K

/-- The second entry comes after the first, with no more than the refill between them. -/
def Follows (rate : K) (first second : Entry K) : Prop :=
  first.time ≤ second.time ∧
    second.level ≤ first.level + rate * (second.time - first.time) + second.change

/-- What the entries give back in all, less what they take. -/
def net (entries : List (Entry K)) : K := (entries.map Entry.change).sum

variable {rate capacity : K} {first last : Entry K} {entries : List (Entry K)}

omit [LinearOrder K] [IsStrictOrderedRing K] in
@[simp] theorem net_nil : net ([] : List (Entry K)) = 0 := rfl

omit [LinearOrder K] [IsStrictOrderedRing K] in
@[simp] theorem net_cons : net (first :: entries) = first.change + net entries := by
  simp [net]

omit [LinearOrder K] [IsStrictOrderedRing K] in
@[simp] theorem net_append {others : List (Entry K)} :
    net (entries ++ others) = net entries + net others := by
  simp [net]

/-- Along a chain the level grows by no more than the refill and the entries. -/
theorem level_le (chain : List.IsChain (Follows rate) (first :: (entries ++ [last]))) :
    first.time ≤ last.time ∧
      last.level ≤
        first.level + rate * (last.time - first.time) + net entries + last.change := by
  induction entries generalizing first with
  | nil =>
    obtain ⟨later, bound⟩ := (List.isChain_cons_cons.mp chain).1
    exact ⟨later, by rw [net_nil]; linarith⟩
  | cons next entries ih =>
    obtain ⟨⟨later, bound⟩, rest⟩ := List.isChain_cons_cons.mp chain
    obtain ⟨after, limit⟩ := ih rest
    refine ⟨later.trans after, ?_⟩
    have split : rate * (last.time - first.time) =
        rate * (next.time - first.time) + rate * (last.time - next.time) := by ring
    rw [net_cons, split]
    linarith

/-- What a stretch of the ledger takes up to its last entry, when its first entry found no more than
the capacity. -/
theorem taken_le (chain : List.IsChain (Follows rate) (entries ++ [last]))
    (full : ∀ entry ∈ entries ++ [last], entry.level ≤ capacity + entry.change)
    (growing : 0 ≤ rate) {start finish : K}
    (within : ∀ entry ∈ entries ++ [last], start ≤ entry.time ∧ entry.time ≤ finish) :
    -net (entries ++ [last]) ≤ capacity + rate * (finish - start) - last.level := by
  cases entries with
  | nil =>
    have found := full last (by simp)
    have inside := within last (by simp)
    have refill : 0 ≤ rate * (finish - start) := mul_nonneg growing (by linarith)
    simp only [List.nil_append, net_cons, net_nil]
    linarith
  | cons first entries =>
    obtain ⟨-, bound⟩ := level_le chain
    have found := full first (by simp)
    have opens := within first (by simp)
    have closes := within last (by simp)
    have refill : rate * (last.time - first.time) ≤ rate * (finish - start) :=
      mul_le_mul_of_nonneg_left (by linarith) growing
    simp only [List.cons_append, net_cons, net_append, net_nil]
    linarith

omit [IsStrictOrderedRing K] in
/-- The times of a chain never go back. -/
theorem times_sorted (chain : List.IsChain (Follows rate) entries) :
    entries.Pairwise fun first second => first.time ≤ second.time := by
  have ordered : List.IsChain (fun first second : Entry K => first.time ≤ second.time) entries :=
    chain.imp fun _ _ follows => follows.1
  have trans : IsTrans (Entry K) fun first second => first.time ≤ second.time :=
    ⟨fun _ _ _ => le_trans⟩
  exact List.isChain_iff_pairwise.mp ordered

section Interval

variable {α : Type} {time : α → K} {charges : List α}

omit [Field K] [IsStrictOrderedRing K] in
/-- What is in order and within a bound comes first. -/
theorem filter_early_first {finish : K}
    (sorted : charges.Pairwise fun first second => time first ≤ time second) :
    charges.filter (fun charge => time charge ≤ finish) <+: charges := by
  induction sorted with
  | nil => exact List.prefix_refl _
  | @cons charge charges later sorted ih =>
    by_cases early : time charge ≤ finish
    · rw [List.filter_cons_of_pos (by simpa using early)]
      exact (List.prefix_cons_inj charge).mpr ih
    · have none : charges.filter (fun charge => time charge ≤ finish) = [] :=
        List.filter_eq_nil_iff.mpr fun other member inside =>
          early ((later other member).trans (by simpa using inside))
      rw [List.filter_cons_of_neg (by simpa using early), none]
      exact List.nil_prefix

omit [Field K] [IsStrictOrderedRing K] in
/-- What is in order and not before a bound comes last. -/
theorem filter_late_last {start : K}
    (sorted : charges.Pairwise fun first second => time first ≤ time second) :
    charges.filter (fun charge => start ≤ time charge) <:+ charges := by
  induction sorted with
  | nil => exact List.suffix_refl _
  | @cons charge charges later sorted ih =>
    by_cases late : start ≤ time charge
    · have all : charges.filter (fun charge => start ≤ time charge) = charges :=
        List.filter_eq_self.mpr fun other member => by
          simpa using late.trans (later other member)
      rw [List.filter_cons_of_pos (by simpa using late), all]
    · rw [List.filter_cons_of_neg (by simpa using late)]
      exact ih.trans (List.suffix_cons charge charges)

omit [Field K] [IsStrictOrderedRing K] in
/-- What is in order and in an interval stands together. -/
theorem interval_together {start finish : K}
    (sorted : charges.Pairwise fun first second => time first ≤ time second) :
    charges.filter (fun charge => start ≤ time charge ∧ time charge ≤ finish) <:+: charges := by
  have both : charges.filter (fun charge => start ≤ time charge ∧ time charge ≤ finish) =
      (charges.filter fun charge => time charge ≤ finish).filter
        fun charge => start ≤ time charge := by
    rw [List.filter_filter]
    simp only [Bool.decide_and]
  have early : (charges.filter fun charge => time charge ≤ finish).Pairwise
      fun first second => time first ≤ time second := sorted.sublist List.filter_sublist
  rw [both]
  exact (filter_late_last early).isInfix.trans (filter_early_first sorted).isInfix

end Interval

end Bucket
