import Mathlib.Data.List.Infix
import Mathlib.Tactic.Common

/-!
Replacing each occurrence of a text by another, from left to right.

A run of one element that the new text does not have is in the result only where it was before; and a
run that is replaced is gone.
-/
namespace Replace

variable {α : Type*} [DecidableEq α]

/-- The loop; `skip` elements belong to an occurrence that has been replaced. -/
def replaceFrom (needle text : List α) : Nat → List α → List α
  | _, [] => []
  | skip + 1, _ :: rest => replaceFrom needle text skip rest
  | 0, a :: rest =>
    if needle <+: a :: rest then text ++ replaceFrom needle text (needle.length - 1) rest
    else a :: replaceFrom needle text 0 rest

/-- `str.replace`, for a needle that is not empty -/
def replace (needle text list : List α) : List α := replaceFrom needle text 0 list

variable {needle text : List α} {a : α}

omit [DecidableEq α] in
/-- A run behind a text without the element is in what follows. -/
theorem run_infix_append {count : Nat} (outside : a ∉ text) (some_ : count ≠ 0) {rest : List α}
    (inside : List.replicate count a <:+: text ++ rest) : List.replicate count a <:+: rest := by
  obtain ⟨count, rfl⟩ := Nat.exists_eq_succ_of_ne_zero some_
  obtain ⟨before, after, same⟩ := inside
  rw [List.append_assoc] at same
  rcases List.append_eq_append_iff.mp same with ⟨more, text_, tail⟩ | ⟨more, before_, tail⟩
  · cases more with
    | nil => exact ⟨[], after, by simpa using tail⟩
    | cons b more =>
      obtain ⟨rfl, -⟩ := List.cons.inj tail
      exact absurd (text_ ▸ List.mem_append_right _ List.mem_cons_self) outside
  · exact ⟨more, after, by rw [tail, List.append_assoc]⟩

theorem replaceFrom_head (outside : a ∉ text) (filled : text ≠ []) {list : List α}
    {skip count : Nat} (begins : List.replicate count a <+: replaceFrom needle text skip list) :
    List.replicate count a <+: list.drop skip := by
  induction list generalizing skip count with
  | nil => simpa [replaceFrom] using begins
  | cons b rest ih =>
    cases skip with
    | succ skip => exact ih begins
    | zero =>
      cases count with
      | zero => exact List.nil_prefix
      | succ count =>
        rw [List.replicate_succ] at begins ⊢
        unfold replaceFrom at begins
        split at begins
        · -- the new text begins with another element
          obtain ⟨c, more, rfl⟩ := List.exists_cons_of_ne_nil filled
          obtain ⟨rfl, -⟩ := List.cons_prefix_cons.mp begins
          exact absurd List.mem_cons_self outside
        · obtain ⟨rfl, later⟩ := List.cons_prefix_cons.mp begins
          exact List.cons_prefix_cons.mpr ⟨rfl, ih later⟩

theorem replaceFrom_infix (outside : a ∉ text) (filled : text ≠ []) {list : List α}
    {skip count : Nat} (some_ : count ≠ 0) (inside : List.replicate count a <:+: replaceFrom needle text skip list) :
    List.replicate count a <:+: list.drop skip := by
  induction list generalizing skip with
  | nil => simpa [replaceFrom] using inside
  | cons b rest ih =>
    cases skip with
    | succ skip => exact ih inside
    | zero =>
      unfold replaceFrom at inside
      split at inside
      · have later := ih (run_infix_append outside some_ inside)
        exact (later.trans (List.drop_suffix _ _).isInfix).trans (List.suffix_cons _ _).isInfix
      · next other =>
        rcases List.infix_cons_iff.mp inside with here | later
        · have same : replaceFrom needle text 0 (b :: rest) = b :: replaceFrom needle text 0 rest := if_neg other
          have head : _ <+: (b :: rest).drop 0 := replaceFrom_head outside filled (same ▸ here)
          exact head.isInfix
        · exact (ih later).trans (List.suffix_cons _ _).isInfix

/-- A run is in the result only where it was before. -/
theorem replace_infix (outside : a ∉ text) (filled : text ≠ []) {list : List α} {count : Nat}
    (some_ : count ≠ 0) (inside : List.replicate count a <:+: replace needle text list) :
    List.replicate count a <:+: list :=
  replaceFrom_infix outside filled some_ inside

theorem replaceFrom_gone (outside : a ∉ text) (filled : text ≠ []) {list : List α} {skip count : Nat}
    (some_ : count ≠ 0) :
    ¬ List.replicate count a <:+: replaceFrom (List.replicate count a) text skip list := by
  induction list generalizing skip with
  | nil => simp [replaceFrom, some_]
  | cons b rest ih =>
    cases skip with
    | succ skip => exact ih
    | zero =>
      intro inside
      unfold replaceFrom at inside
      split at inside
      · exact ih (run_infix_append outside some_ inside)
      · next other =>
        rcases List.infix_cons_iff.mp inside with here | later
        · have same : replaceFrom (List.replicate count a) text 0 (b :: rest) =
              b :: replaceFrom (List.replicate count a) text 0 rest := if_neg other
          have head : _ <+: (b :: rest).drop 0 := replaceFrom_head outside filled (same ▸ here)
          exact other head
        · exact ih later

/-- A run that is replaced is gone. -/
theorem replace_gone (outside : a ∉ text) (filled : text ≠ []) {list : List α} {count : Nat}
    (some_ : count ≠ 0) : ¬ List.replicate count a <:+: replace (List.replicate count a) text list :=
  replaceFrom_gone outside filled some_

/-- A replacement that is not shorter makes the text not shorter. -/
theorem length_le_replace (needle text : List α) (some_ : needle ≠ [])
    (longer : needle.length ≤ text.length) (list : List α) :
    list.length ≤ (replace needle text list).length := by
  suffices every : ∀ skip, list.length ≤ (replaceFrom needle text skip list).length + skip from every 0
  have positive := List.length_pos_iff.mpr some_
  induction list with
  | nil => exact fun skip => Nat.zero_le _
  | cons a rest ih =>
    intro skip
    cases skip with
    | succ skip =>
      have later := ih skip
      simp only [replaceFrom, List.length_cons]
      omega
    | zero =>
      unfold replaceFrom
      split
      · have later := ih (needle.length - 1)
        simp only [List.length_append, List.length_cons]
        omega
      · have later := ih 0
        simp only [List.length_cons]
        omega

end Replace
