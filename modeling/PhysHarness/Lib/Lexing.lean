import Mathlib.Data.List.Basic
import Mathlib.Tactic.Common

/-!
Reading a text piece by piece.

A lexer says of each place, from what stands before it (reversed) and what follows, how long the next
piece is and of which kind. `read` is the loop over a text; `Reads` is its derivation, which says what
a part of a text is read as with what follows it present.
-/
namespace Lexing

variable {α κ : Type*}

abbrev Lexer (α κ : Type*) := List α → List α → Option (κ × Nat)

/-- Each piece takes something, and no more than there is. -/
def Exact (next : Lexer α κ) : Prop :=
  ∀ before text kind length, text ≠ [] → next before text = some (kind, length) →
    0 < length ∧ length ≤ text.length

/-- The loop; `skip` characters belong to the piece before. -/
def read (next : Lexer α κ) : List α → Nat → List α → Option (List (κ × List α))
  | _, _, [] => some []
  | before, skip + 1, a :: rest => read next (a :: before) skip rest
  | before, 0, a :: rest =>
    match next before (a :: rest) with
    | none => none
    | some (kind, length) =>
      (read next (a :: before) (length - 1) rest).map ((kind, (a :: rest).take length) :: ·)

/-- The text is read as these pieces up to `rest`. -/
inductive Reads (next : Lexer α κ) : List α → List α → List (κ × List α) → List α → Prop
  | done (before rest : List α) : Reads next before rest [] rest
  | step {before piece rest last : List α} {kind : κ} {pieces : List (κ × List α)} :
      next before (piece ++ rest) = some (kind, piece.length) → piece ≠ [] →
      Reads next (piece.reverse ++ before) rest pieces last →
      Reads next before (piece ++ rest) ((kind, piece) :: pieces) last

/-- The text of the pieces. -/
def textOf (pieces : List (κ × List α)) : List α := pieces.flatMap Prod.snd

@[simp]
theorem textOf_nil : textOf ([] : List (κ × List α)) = [] := rfl

@[simp]
theorem textOf_cons (piece : κ × List α) (pieces : List (κ × List α)) :
    textOf (piece :: pieces) = piece.2 ++ textOf pieces := rfl

@[simp]
theorem textOf_append (first second : List (κ × List α)) :
    textOf (first ++ second) = textOf first ++ textOf second :=
  List.flatMap_append

/-- A place in the text of the pieces is between two of them, or inside one. -/
theorem textOf_split {list : List (κ × List α)} {before rest : List α}
    (text : textOf list = before ++ rest) :
    (∃ first second, list = first ++ second ∧ textOf first = before ∧ textOf second = rest) ∨
      ∃ first kind inner outer second, list = first ++ (kind, inner ++ outer) :: second ∧
        inner ≠ [] ∧ outer ≠ [] ∧ before = textOf first ++ inner ∧ rest = outer ++ textOf second := by
  induction list generalizing before with
  | nil =>
    obtain ⟨rfl, rfl⟩ := List.append_eq_nil_iff.mp text.symm
    exact .inl ⟨[], [], rfl, rfl, rfl⟩
  | cons piece list ih =>
    obtain ⟨kind, piece⟩ := piece
    rw [textOf_cons] at text
    rcases List.append_eq_append_iff.mp text with ⟨inner, rfl, deeper⟩ | ⟨outer, same, rfl⟩
    · rcases ih deeper with ⟨first, second, rfl, rfl, rfl⟩ |
        ⟨first, kind', inner, outer, second, rfl, filled, some, rfl, rfl⟩
      · exact .inl ⟨(kind, piece) :: first, second, rfl, rfl, rfl⟩
      · exact .inr ⟨(kind, piece) :: first, kind', inner, outer, second, rfl, filled, some, by simp,
          rfl⟩
    · obtain rfl : piece = before ++ outer := same
      by_cases start : before = []
      · subst start
        exact .inl ⟨[], (kind, outer) :: list, rfl, rfl, rfl⟩
      by_cases whole : outer = []
      · subst whole
        exact .inl ⟨[(kind, before)], list, by simp, by simp, rfl⟩
      · exact .inr ⟨[], kind, before, outer, list, rfl, start, whole, rfl, rfl⟩

variable {next : Lexer α κ}

/-! ### The loop and its derivations -/

theorem read_skip (before text : List α) (skip : Nat) :
    read next before skip text = read next ((text.take skip).reverse ++ before) 0 (text.drop skip) := by
  induction text generalizing before skip with
  | nil => simp [read]
  | cons a rest ih =>
    cases skip with
    | zero => rfl
    | succ skip =>
      rw [read, ih]
      simp

theorem read_piece {before piece rest : List α} {kind : κ}
    (found : next before (piece ++ rest) = some (kind, piece.length)) (filled : piece ≠ []) :
    read next before 0 (piece ++ rest) =
      (read next (piece.reverse ++ before) 0 rest).map ((kind, piece) :: ·) := by
  obtain ⟨a, tail, rfl⟩ := List.exists_cons_of_ne_nil filled
  rw [List.cons_append] at found ⊢
  rw [read, found]
  simp only [List.length_cons, Nat.add_one_sub_one]
  rw [read_skip]
  simp

theorem Reads.read {before text : List α} {pieces : List (κ × List α)}
    (reads : Reads next before text pieces []) : read next before 0 text = some pieces := by
  generalize ending : ([] : List α) = last at reads
  induction reads with
  | done before rest =>
    subst ending
    rfl
  | step found filled _ ih => rw [read_piece found filled, ih ending, Option.map_some]

theorem reads_of_read (exact : Exact next) {text : List α} :
    ∀ {before : List α} {pieces : List (κ × List α)}, read next before 0 text = some pieces →
      Reads next before text pieces [] := by
  induction size : text.length using Nat.strongRecOn generalizing text with
  | ind size ih =>
    subst size
    intro before pieces found
    cases text with
    | nil =>
      cases found
      exact .done before []
    | cons a rest =>
      cases here : next before (a :: rest) with
      | none => simp [Lexing.read, here] at found
      | some result =>
        obtain ⟨kind, length⟩ := result
        obtain ⟨positive, inside⟩ := exact before _ kind length (List.cons_ne_nil a rest) here
        obtain ⟨piece, tail, text, rfl⟩ : ∃ piece tail, a :: rest = piece ++ tail ∧
            piece.length = length :=
          ⟨_, _, (List.take_append_drop length _).symm, List.length_take_of_le inside⟩
        have filled : piece ≠ [] := List.length_pos_iff.mp positive
        rw [text] at here found ⊢
        rw [read_piece here filled] at found
        obtain ⟨more, read, rfl⟩ := Option.map_eq_some_iff.mp found
        refine .step here filled (ih tail.length ?_ rfl read)
        rw [text, List.length_append]
        omega

theorem read_iff (exact : Exact next) {before text : List α} {pieces : List (κ × List α)} :
    read next before 0 text = some pieces ↔ Reads next before text pieces [] :=
  ⟨reads_of_read exact, Reads.read⟩

namespace Reads

variable {before text middle rest : List α} {first second pieces : List (κ × List α)}

theorem text_eq (reads : Reads next before text pieces rest) : text = textOf pieces ++ rest := by
  induction reads with
  | done => rfl
  | step _ _ _ ih => rw [textOf_cons, List.append_assoc, ← ih]

theorem append (one : Reads next before text first middle)
    (two : Reads next ((textOf first).reverse ++ before) middle second rest) :
    Reads next before text (first ++ second) rest := by
  induction one with
  | done => simpa using two
  | step found filled _ ih =>
    refine .step found filled (ih ?_)
    simpa [List.append_assoc] using two

theorem split (reads : Reads next before text (first ++ second) rest) :
    ∃ middle, Reads next before text first middle ∧
      Reads next ((textOf first).reverse ++ before) middle second rest := by
  induction first generalizing before text with
  | nil => exact ⟨text, .done _ _, by simpa using reads⟩
  | cons piece first ih =>
    cases reads with
    | step found filled more =>
      obtain ⟨middle, one, two⟩ := ih more
      exact ⟨middle, .step found filled one, by simpa [List.append_assoc] using two⟩

/-- More text behind changes nothing for pieces that are read alike before it. -/
theorem extend {settled : κ → Prop} {added : List α}
    (same : ∀ before piece rest kind, piece ≠ [] → settled kind →
      next before (piece ++ rest) = some (kind, piece.length) →
      next before (piece ++ (rest ++ added)) = some (kind, piece.length))
    (reads : Reads next before text pieces rest) (all : ∀ piece ∈ pieces, settled piece.1) :
    Reads next before (text ++ added) pieces (rest ++ added) := by
  induction reads with
  | done => exact .done _ _
  | step found filled _ ih =>
    rw [List.append_assoc]
    exact .step (same _ _ _ _ filled (all _ List.mem_cons_self) found) filled
      (ih fun piece member => all piece (List.mem_cons_of_mem _ member))

/-- Places whose contexts the lexer cannot tell apart read alike. -/
theorem context {agree : List α → List α → Prop}
    (grows : ∀ a first second, agree first second → agree (a :: first) (a :: second))
    (same : ∀ first second text, agree first second → next first text = next second text)
    {other : List α} (reads : Reads next before text pieces rest) (alike : agree before other) :
    Reads next other text pieces rest := by
  have grown : ∀ (piece first second : List α), agree first second →
      agree (piece.reverse ++ first) (piece.reverse ++ second) := by
    intro piece first second alike
    induction piece generalizing first second with
    | nil => simpa using alike
    | cons a piece ih => simpa [List.append_assoc] using ih _ _ (grows a _ _ alike)
  induction reads generalizing other with
  | done => exact .done _ _
  | step found filled _ ih => exact .step (same _ _ _ alike ▸ found) filled (ih (grown _ _ _ alike))

/-- What stands at the head of a text is its first piece. -/
theorem head {kind : κ} {piece : List α} (reads : Reads next before (piece ++ rest) pieces [])
    (found : next before (piece ++ rest) = some (kind, piece.length)) (filled : piece ≠ []) :
    ∃ more, pieces = (kind, piece) :: more ∧ Reads next (piece.reverse ++ before) rest more [] := by
  generalize whole : piece ++ rest = text at reads found
  cases reads with
  | done => exact absurd (List.append_eq_nil_iff.mp whole).1 filled
  | step there _ more =>
    obtain ⟨rfl, length⟩ := Prod.mk.inj (Option.some.inj (there.symm.trans found))
    obtain ⟨rfl, rfl⟩ := List.append_inj whole length.symm
    exact ⟨_, rfl, more⟩

theorem of_nil (reads : Reads next before [] pieces rest) : pieces = [] := by
  generalize whole : ([] : List α) = text at reads
  cases reads with
  | done => rfl
  | step _ filled => exact absurd (List.append_eq_nil_iff.mp whole.symm).1 filled

theorem single {kind : κ} {piece : List α} (reads : Reads next before text [(kind, piece)] []) :
    text = piece ∧ piece ≠ [] ∧ next before piece = some (kind, piece.length) := by
  have whole := reads.text_eq
  generalize empty : ([] : List α) = last at reads whole
  cases reads with
  | step found filled more =>
    cases more
    subst empty
    rw [List.append_nil] at found ⊢
    exact ⟨rfl, filled, found⟩

theorem not_stuck (reads : Reads next before text pieces []) (filled : text ≠ []) :
    next before text ≠ none := by
  cases reads with
  | done => exact absurd rfl filled
  | step found => simp [found]

/-- Two readings of one text agree as far as both go. -/
theorem comparable {other : List α} (one : Reads next before text first rest)
    (two : Reads next before text second other) :
    (∃ more, second = first ++ more) ∨ ∃ more, first = second ++ more := by
  induction one generalizing second other with
  | done => exact .inl ⟨second, rfl⟩
  | @step before piece tail last kind pieces found filled _ ih =>
    generalize whole : piece ++ tail = text at two found
    cases two with
    | done => exact .inr ⟨(kind, piece) :: pieces, rfl⟩
    | step there _ more =>
      obtain ⟨rfl, length⟩ := Prod.mk.inj (Option.some.inj (there.symm.trans found))
      obtain ⟨rfl, rfl⟩ := List.append_inj whole length.symm
      rcases ih more with ⟨behind, rfl⟩ | ⟨behind, rfl⟩
      · exact .inl ⟨behind, rfl⟩
      · exact .inr ⟨behind, rfl⟩

theorem unique (one : Reads next before text first []) (two : Reads next before text second []) :
    first = second :=
  Option.some.inj (one.read.symm.trans two.read)

end Reads

end Lexing
