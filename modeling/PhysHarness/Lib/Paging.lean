import Mathlib.Data.List.Basic
import Mathlib.Tactic.Common

/-!
Reading a long list by pages.

A reader asks for the page at an offset, and the page says where the next one starts. Between two
reads the state that is read from may move on. Main result: when every page is an honest piece of
one whole, any complete reading gives exactly what follows its first offset.
-/
namespace Paging

variable {σ α : Type*}

structure Page (α : Type*) where
  items : List α
  next : Option Nat

/-- The page holds what stands at the offset, names the offset behind it as long as something
follows, and is empty only at the end. -/
structure Honest (whole : List α) (offset : Nat) (page : Page α) : Prop where
  piece : page.items <+: whole.drop offset
  next : page.next =
    if offset + page.items.length < whole.length then some (offset + page.items.length) else none
  progress : offset < whole.length → page.items ≠ []

/-- A complete reading: from an offset, then from each offset that a page names, until one names
none. -/
inductive Reading (later : σ → σ → Prop) (read : σ → Nat → Option (Page α)) :
    σ → Nat → List (Page α) → Prop
  | last {state : σ} {offset : Nat} {page : Page α} : read state offset = some page →
      page.next = none → Reading later read state offset [page]
  | more {state after : σ} {offset next : Nat} {page : Page α} {pages : List (Page α)} :
      read state offset = some page → page.next = some next → later state after →
      Reading later read after next pages → Reading later read state offset (page :: pages)

theorem Honest.split {whole : List α} {offset : Nat} {page : Page α}
    (honest : Honest whole offset page) :
    whole.drop offset = page.items ++ whole.drop (offset + page.items.length) := by
  obtain ⟨rest, split⟩ := honest.piece
  rw [← List.drop_drop, ← split, List.drop_left]

theorem Honest.nothing_follows {whole : List α} {offset : Nat} {page : Page α}
    (honest : Honest whole offset page) (last : page.next = none) :
    whole.drop offset = page.items := by
  have done : ¬ offset + page.items.length < whole.length := by
    intro follows
    simp [honest.next, follows] at last
  rw [honest.split, List.drop_eq_nil_of_le (Nat.le_of_not_lt done), List.append_nil]

theorem Honest.next_eq {whole : List α} {offset next : Nat} {page : Page α}
    (honest : Honest whole offset page) (follows : page.next = some next) :
    next = offset + page.items.length ∧ next < whole.length ∧ offset < next := by
  rw [honest.next] at follows
  split at follows
  next inside =>
    cases follows
    have filled := List.length_pos_of_ne_nil (honest.progress (by omega))
    exact ⟨rfl, inside, by omega⟩
  next => cases follows

section

variable {later : σ → σ → Prop} {read : σ → Nat → Option (Page α)} {good : σ → Prop}
  {whole : List α}

/-- The pages of a complete reading, put end to end, are what stands behind its first offset. -/
theorem Reading.flatten
    (honest : ∀ state offset page, good state → read state offset = some page →
      Honest whole offset page)
    (stays : ∀ state after, good state → later state after → good after)
    {state : σ} {offset : Nat} {pages : List (Page α)} (now : good state)
    (reading : Reading later read state offset pages) :
    (pages.map Page.items).flatten = whole.drop offset := by
  induction reading with
  | @last state offset page found done =>
    rw [(honest state offset page now found).nothing_follows done]
    simp
  | @more state after offset next page pages found follows moved _ ih =>
    have page_honest := honest state offset page now found
    rw [page_honest.split, ← (page_honest.next_eq follows).1, ← ih (stays _ _ now moved)]
    simp

/-- A complete reading takes no more pages than there are items left, and one page at the end. -/
theorem Reading.length_le
    (honest : ∀ state offset page, good state → read state offset = some page →
      Honest whole offset page)
    (stays : ∀ state after, good state → later state after → good after)
    {state : σ} {offset : Nat} {pages : List (Page α)} (now : good state)
    (reading : Reading later read state offset pages) :
    pages.length ≤ whole.length - offset + 1 := by
  induction reading with
  | last => simp
  | @more state after offset next page pages found follows moved _ ih =>
    have advance := (honest state offset page now found).next_eq follows
    have rest := ih (stays _ _ now moved)
    rw [List.length_cons]
    omega

/-- Where every offset has an honest page, reading on in one state ends. -/
theorem Reading.ends {state : σ} (still : later state state)
    (found : ∀ offset, ∃ page, read state offset = some page ∧ Honest whole offset page)
    (offset : Nat) : ∃ pages, Reading later read state offset pages := by
  -- the next offset lies strictly between this one and the end
  induction left : whole.length - offset using Nat.strongRecOn generalizing offset with
  | _ left ih =>
    obtain ⟨page, here, honest⟩ := found offset
    cases named : page.next with
    | none => exact ⟨[page], .last here named⟩
    | some next =>
      have advance := honest.next_eq named
      obtain ⟨pages, rest⟩ := ih (whole.length - next) (by omega) next rfl
      exact ⟨page :: pages, .more here named still rest⟩

end

/-! ### Cutting a list into pages -/

/-- `[items[i : i + size] for i in range(0, len(items), size)]` -/
def cut (size : Nat) : List α → List (List α)
  | [] => []
  | x :: xs => (x :: xs.take (size - 1)) :: cut size (xs.drop (size - 1))
termination_by items => items.length
decreasing_by
  rw [List.length_drop, List.length_cons]
  omega

theorem flatten_cut (size : Nat) (items : List α) : (cut size items).flatten = items := by
  induction items using cut.induct size with
  | case1 => simp [cut]
  | case2 x xs ih => rw [cut, List.flatten_cons, ih, List.cons_append, List.take_append_drop]

theorem length_of_mem_cut {size : Nat} (positive : 0 < size) {items page : List α}
    (member : page ∈ cut size items) : 0 < page.length ∧ page.length ≤ size := by
  induction items using cut.induct size with
  | case1 => rw [cut] at member; cases member
  | case2 x xs ih =>
    rw [cut] at member
    rcases List.mem_cons.mp member with rfl | later
    · rw [List.length_cons, List.length_take]
      omega
    · exact ih later

theorem cut_short {size : Nat} {items : List α} (some : items ≠ []) (short : items.length ≤ size) :
    cut size items = [items] := by
  cases items with
  | nil => exact absurd rfl some
  | cons x xs =>
    rw [List.length_cons] at short
    rw [cut, List.take_of_length_le (by omega), List.drop_eq_nil_of_le (by omega), cut]

/-- All pages but the last are full. -/
theorem length_cut_mul {size : Nat} (positive : 0 < size) (items : List α) :
    (cut size items).length * size ≤ items.length + (size - 1) := by
  induction items using cut.induct size with
  | case1 => simp [cut]
  | case2 x xs ih =>
    rw [cut, List.length_cons, List.length_cons, Nat.succ_mul]
    rw [List.length_drop] at ih
    rcases Nat.lt_or_ge xs.length (size - 1) with short | long
    · have last : xs.drop (size - 1) = [] := List.drop_eq_nil_of_le (Nat.le_of_lt short)
      rw [last, cut, List.length_nil]
      omega
    · omega

/-- Pages of two or more items are about half as many as the items. -/
theorem length_cut_le {size : Nat} (several : 2 ≤ size) (items : List α) :
    2 * (cut size items).length ≤ items.length + 1 := by
  induction items using cut.induct size with
  | case1 => simp [cut]
  | case2 x xs ih =>
    rw [cut, List.length_cons, List.length_cons]
    rw [List.length_drop] at ih
    omega

end Paging
