import Mathlib.Data.List.Basic
import Mathlib.Tactic.Common

/-!
A log that keeps its last entries and folds the older ones.

Each new entry pushes out what the window has no room for. The window and the fold depend only on the
entries, not on when they were pushed out.
-/
namespace Window

variable {α β : Type*} (size : Nat) (fold : β → α → β)

/-- The entries that are kept, and the fold over those that are not. -/
def push (window : List α × β) (entry : α) : List α × β :=
  let entries := window.1 ++ [entry]
  let older := entries.length - size
  (entries.drop older, (entries.take older).foldl fold window.2)

/-- The window over a list of entries. -/
def view (start : β) (entries : List α) : List α × β :=
  let older := entries.length - size
  (entries.drop older, (entries.take older).foldl fold start)

@[simp]
theorem view_nil (start : β) : view size fold start [] = ([], start) := by simp [view]

/-- A push extends the list of entries. -/
theorem push_view (start : β) (entries : List α) (entry : α) :
    push size fold (view size fold start entries) entry = view size fold start (entries ++ [entry]) := by
  -- the entries are those folded before, and then those in the window
  have split : entries ++ [entry] =
      entries.take (entries.length - size) ++ (entries.drop (entries.length - size) ++ [entry]) := by
    rw [← List.append_assoc, List.take_append_drop]
  have folded : (entries.take (entries.length - size)).length = entries.length - size :=
    List.length_take_of_le (Nat.sub_le _ _)
  have more : (entries ++ [entry]).length - size = (entries.take (entries.length - size)).length +
      ((entries.drop (entries.length - size) ++ [entry]).length - size) := by
    rw [folded]
    simp only [List.length_append, List.length_drop, List.length_singleton]
    omega
  simp only [push, view]
  rw [more]
  generalize (entries.drop (entries.length - size) ++ [entry]).length - size = pushed
  rw [split, List.drop_length_add_append, List.take_length_add_append, List.foldl_append]

end Window
