import Mathlib.Data.List.Basic
import Mathlib.Data.List.Count
import Mathlib.Tactic.Common

/-!
Lines of a text.

A text is split at its newlines. A place is at the start of a line when it is the start of the text or
behind a newline; as many lines are before it as there are newlines.
-/
namespace Lines

variable {α : Type*} [BEq α] [LawfulBEq α] (newline : α)

/-- The text of the lines. -/
def join (lines : List (List α)) : List α := [newline].intercalate lines

/-- What stands before the start of a line. -/
def Start (before : List α) : Prop := before = [] ∨ ∃ line, before = line ++ [newline]

variable {newline}

theorem join_splitOn (text : List α) : join newline (text.splitOn newline) = text :=
  List.intercalate_splitOn newline

omit [LawfulBEq α] in
theorem length_splitOn (text : List α) :
    (text.splitOn newline).length = text.count newline + 1 := by
  induction text with
  | nil => simp [List.splitOn_nil]
  | cons a text ih =>
    rw [List.splitOn_cons_eq_if_modifyHead, List.count_cons]
    split <;> simp [ih]

theorem splitOn_append_start {before : List α} (start : Start newline before) (text : List α) :
    ∃ lines, lines.length = before.count newline ∧
      (before ++ text).splitOn newline = lines ++ text.splitOn newline ∧
      before.splitOn newline = lines ++ [[]] := by
  rcases start with rfl | ⟨line, rfl⟩
  · exact ⟨[], by simp [List.splitOn_nil]⟩
  · refine ⟨line.splitOn newline, ?_, ?_, ?_⟩
    · rw [length_splitOn, List.count_append, List.count_singleton_self]
    · rw [List.append_assoc, List.singleton_append, List.splitOn_append_cons_self]
    · rw [List.splitOn_append_cons_self, List.splitOn_nil]

theorem drop_splitOn {before : List α} (start : Start newline before) (text : List α) :
    ((before ++ text).splitOn newline).drop (before.count newline) = text.splitOn newline := by
  obtain ⟨lines, length, split, -⟩ := splitOn_append_start start text
  rw [split, ← length, List.drop_left]

theorem take_splitOn {before : List α} (start : Start newline before) (text : List α) :
    ((before ++ text).splitOn newline).take (before.count newline) =
      (before.splitOn newline).take (before.count newline) := by
  obtain ⟨lines, length, split, alone⟩ := splitOn_append_start start text
  rw [split, alone, ← length, List.take_left, List.take_left]

theorem not_mem_line {text line : List α} (member : line ∈ text.splitOn newline) :
    newline ∉ line := by
  induction text generalizing line with
  | nil =>
    rw [List.splitOn_nil, List.mem_singleton] at member
    simp [member]
  | cons a text ih =>
    rw [List.splitOn_cons_eq_if_modifyHead] at member
    split at member
    · rcases List.mem_cons.mp member with rfl | member
      · exact List.not_mem_nil
      · exact ih member
    next other =>
      cases split : text.splitOn newline with
      | nil => exact absurd split (List.splitOn_ne_nil _ _)
      | cons first lines =>
        rw [split, List.modifyHead_cons] at member
        rw [split] at ih
        rcases List.mem_cons.mp member with rfl | member
        · intro found
          rcases List.mem_cons.mp found with rfl | found
          · simp at other
          · exact ih List.mem_cons_self found
        · exact ih (List.mem_cons_of_mem _ member)

/-- The text of ended lines. -/
def ended (newline : α) (lines : List (List α)) : List α := lines.flatMap (· ++ [newline])

omit [BEq α] [LawfulBEq α] in
theorem join_ended (newline : α) (lines : List (List α)) (last : List α) :
    join newline (lines ++ [last]) = ended newline lines ++ last := by
  induction lines with
  | nil => simp [join, ended, List.intercalate]
  | cons line lines ih =>
    cases lines with
    | nil => simp [join, ended, List.intercalate]
    | cons other lines =>
      simp only [join, ended, List.intercalate, List.cons_append, List.intersperse_cons_cons,
        List.flatten_cons, List.flatMap_cons, List.append_assoc] at ih ⊢
      rw [ih]

theorem splitOn_ended {lines : List (List α)} (single : ∀ line ∈ lines, newline ∉ line) :
    (ended newline lines).splitOn newline = lines ++ [[]] := by
  have text := join_ended newline lines []
  rw [List.append_nil] at text
  rw [← text, join]
  refine List.splitOn_intercalate newline (fun line member => ?_) (by simp)
  rcases List.mem_append.mp member with member | member
  · exact single line member
  · rw [List.mem_singleton.mp member]
    exact List.not_mem_nil

theorem Start.eq_ended {before : List α} (start : Start newline before) :
    before = ended newline ((before.splitOn newline).take (before.count newline)) := by
  obtain ⟨lines, length, -, alone⟩ := splitOn_append_start start []
  have text : join newline (before.splitOn newline) = before := join_splitOn before
  rw [alone, join_ended, List.append_nil] at text
  rw [alone, ← length, List.take_left]
  exact text.symm

theorem head_splitOn (text : List α) :
    (text.splitOn newline).head? = some (text.takeWhile (· != newline)) := by
  induction text with
  | nil => simp [List.splitOn_nil]
  | cons a text ih =>
    rw [List.splitOn_cons_eq_if_modifyHead, List.takeWhile_cons]
    split
    next same => simp [eq_of_beq same]
    next other =>
      have unlike : (a != newline) = true := by simpa [bne] using other
      rw [unlike, if_pos rfl]
      cases split : text.splitOn newline with
      | nil => exact absurd split (List.splitOn_ne_nil _ _)
      | cons head tail =>
        rw [split] at ih
        obtain rfl := Option.some.inj ih
        rfl

/-- Each line but those behind the last has a start. -/
theorem exists_start {text : List α} {number : Nat}
    (inside : number < (text.splitOn newline).length) :
    ∃ before rest, text = before ++ rest ∧ Start newline before ∧ before.count newline = number := by
  induction number with
  | zero => exact ⟨[], text, rfl, .inl rfl, rfl⟩
  | succ number ih =>
    obtain ⟨before, rest, rfl, start, count⟩ := ih (Nat.lt_of_succ_lt inside)
    have more : newline ∈ rest := by
      rw [length_splitOn, List.count_append, count] at inside
      exact List.count_pos_iff.mp (by omega)
    obtain ⟨line, behind, rfl, none⟩ := List.eq_append_cons_of_mem more
    refine ⟨before ++ (line ++ [newline]), behind, by simp, .inr ⟨before ++ line, by simp⟩, ?_⟩
    rw [List.count_append, count, List.count_append, List.count_singleton_self,
      List.count_eq_zero_of_not_mem none]

/-- The line that an element other than a newline stands on. -/
theorem exists_line {before behind : List α} {a : α} (other : a ≠ newline) :
    ∃ start middle rest, before = start ++ middle ∧ Start newline start ∧
      ((before ++ a :: behind).splitOn newline)[before.count newline]? =
        some (middle ++ a :: rest) := by
  have inside : before.count newline < (before.splitOn newline).length := by
    rw [length_splitOn]
    exact Nat.lt_succ_self _
  obtain ⟨start, middle, rfl, begins, count⟩ := exists_start inside
  have none : newline ∉ middle := by
    rw [List.count_append] at count
    exact List.count_eq_zero.mp (by omega)
  refine ⟨start, middle, behind.takeWhile (· != newline), rfl, begins, ?_⟩
  have lines := drop_splitOn begins (middle ++ a :: behind)
  rw [← List.append_assoc, count] at lines
  rw [← List.head?_drop, lines, head_splitOn]
  have passed : ∀ b ∈ middle, (b != newline) = true := fun b member => by
    simpa [bne] using fun same : b = newline => none (same ▸ member)
  rw [List.takeWhile_append_of_pos passed, List.takeWhile_cons, if_pos (by simpa using other)]

/-! ### Words -/

/-- The words between separators. -/
def wordsBy (separator : α → Bool) (text : List α) : List (List α) :=
  (text.splitOnP separator).filter fun word => !word.isEmpty

variable {separator : α → Bool}

omit [BEq α] [LawfulBEq α]

/-- An element that begins a word. -/
theorem exists_word {before rest : List α} {a : α} (inside : separator a = false)
    (begins : before = [] ∨ ∃ first last, before = first ++ [last] ∧ separator last = true) :
    ∃ word ∈ wordsBy separator (before ++ a :: rest), word.head? = some a := by
  have alone : ∃ word tail, (a :: rest).splitOnP separator = (a :: word) :: tail := by
    rw [List.splitOnP_cons_eq_if_modifyHead, if_neg (by simp [inside])]
    cases split : rest.splitOnP separator with
    | nil => exact absurd split (List.splitOnP_ne_nil _ _)
    | cons word tail => exact ⟨word, tail, rfl⟩
  obtain ⟨word, tail, split⟩ := alone
  refine ⟨a :: word, ?_, rfl⟩
  rcases begins with rfl | ⟨first, last, rfl, separates⟩
  · simp [wordsBy, split]
  · rw [List.append_assoc, List.singleton_append, wordsBy, List.splitOnP_append_cons _ _ separates,
      split]
    simp

theorem mem_wordsBy {text : List α} {a : α} (member : a ∈ text) (inside : separator a = false) :
    ∃ word ∈ wordsBy separator text, a ∈ word := by
  induction text with
  | nil => cases member
  | cons b text ih =>
    rw [wordsBy, List.splitOnP_cons_eq_if_modifyHead]
    split
    next separates =>
      rcases List.mem_cons.mp member with rfl | member
      · rw [inside] at separates
        cases separates
      · obtain ⟨word, listed, there⟩ := ih member
        exact ⟨word, by simpa [wordsBy] using listed, there⟩
    next =>
      cases split : text.splitOnP separator with
      | nil => exact absurd split (List.splitOnP_ne_nil _ _)
      | cons first words =>
        rcases List.mem_cons.mp member with rfl | member
        · exact ⟨a :: first, by simp, List.mem_cons_self⟩
        · obtain ⟨word, listed, there⟩ := ih member
          rw [wordsBy, split, List.mem_filter] at listed
          rcases List.mem_cons.mp listed.1 with rfl | behind
          · exact ⟨b :: word, by simp, List.mem_cons_of_mem b there⟩
          · refine ⟨word, ?_, there⟩
            simp only [List.modifyHead_cons, List.mem_filter]
            exact ⟨List.mem_cons_of_mem _ behind, listed.2⟩

theorem not_separator {text word : List α} (listed : word ∈ wordsBy separator text) {a : α}
    (member : a ∈ word) : separator a = false := by
  have piece : word ∈ text.splitOnP separator := List.mem_of_mem_filter listed
  clear listed
  induction text generalizing word with
  | nil =>
    rw [List.splitOnP_nil, List.mem_singleton] at piece
    rw [piece] at member
    cases member
  | cons b text ih =>
    rw [List.splitOnP_cons_eq_if_modifyHead] at piece
    split at piece
    · rcases List.mem_cons.mp piece with rfl | later
      · cases member
      · exact ih member later
    next inside =>
      cases split : text.splitOnP separator with
      | nil => exact absurd split (List.splitOnP_ne_nil _ _)
      | cons first words =>
        rw [split] at piece ih
        rcases List.mem_cons.mp piece with rfl | later
        · rcases List.mem_cons.mp member with rfl | there
          · simpa using inside
          · exact ih there (List.mem_cons_self ..)
        · exact ih member (List.mem_cons_of_mem _ later)

omit [BEq α] in
/-- A joined text has the newline and what its lines have. -/
theorem mem_join {newline a : α} {lines : List (List α)} (member : a ∈ join newline lines) :
    a = newline ∨ ∃ line ∈ lines, a ∈ line := by
  induction lines with
  | nil => simp [join] at member
  | cons line lines ih =>
    cases lines with
    | nil =>
      rw [join, List.intercalate_singleton] at member
      exact .inr ⟨line, List.mem_cons_self .., member⟩
    | cons next lines =>
      rw [join, List.intercalate_cons_cons, List.append_assoc] at member
      rcases List.mem_append.mp member with here | later
      · exact .inr ⟨line, List.mem_cons_self .., here⟩
      · rcases List.mem_cons.mp later with rfl | behind
        · exact .inl rfl
        · rcases ih behind with same | ⟨other, listed, there⟩
          · exact .inl same
          · exact .inr ⟨other, List.mem_cons_of_mem _ listed, there⟩

/-! ### Any break -/

/-- `"\r\n"` ends a line once. -/
def crlf : List Char → List Char
  | '\r' :: '\n' :: text => '\n' :: crlf text
  | c :: text => c :: crlf text
  | [] => []

/-- `str.splitlines` by a rule for what breaks a line; a break at the end starts no line. -/
def splitlines (breaks : Char → Bool) (text : List Char) : List (List Char) :=
  let lines := (if breaks '\r' then crlf text else text).splitOnP breaks
  if lines.getLast? = some [] then lines.dropLast else lines

theorem crlf_of_not_mem {text : List Char} (none : '\r' ∉ text) : crlf text = text := by
  induction text with
  | nil => simp [crlf]
  | cons c text ih =>
    have other : c ≠ '\r' := by
      rintro rfl
      exact none (List.mem_cons_self ..)
    have later := ih fun member => none (List.mem_cons_of_mem c member)
    rw [crlf, later]
    rintro _ rfl
    exact absurd rfl other

theorem splitOnP_join {breaks : Char → Bool} (newline : breaks '\n' = true) {lines : List (List Char)}
    (some_ : lines ≠ []) (single : ∀ line ∈ lines, ∀ c ∈ line, breaks c = false) :
    (join '\n' lines).splitOnP breaks = lines := by
  induction lines with
  | nil => exact absurd rfl some_
  | cons line lines ih =>
    have first : line.splitOnP breaks = [line] :=
      List.splitOnP_eq_singleton (single line (List.mem_cons_self ..))
    cases lines with
    | nil => simpa [join] using first
    | cons next lines =>
      have whole : join '\n' (line :: next :: lines) = line ++ '\n' :: join '\n' (next :: lines) := by
        simp [join, List.intercalate]
      have later := ih (List.cons_ne_nil next lines) fun other listed => single other (List.mem_cons_of_mem _ listed)
      rw [whole, List.splitOnP_append_cons _ _ newline, first, later]
      simp

/-- Joined lines are split into themselves when none is empty or holds a break. -/
theorem splitlines_join {breaks : Char → Bool} (newline : breaks '\n' = true) {lines : List (List Char)}
    (some_ : lines ≠ []) (full : ∀ line ∈ lines, line ≠ [])
    (single : ∀ line ∈ lines, ∀ c ∈ line, breaks c = false) :
    splitlines breaks (join '\n' lines) = lines := by
  have text : (if breaks '\r' then crlf (join '\n' lines) else join '\n' lines) = join '\n' lines := by
    by_cases returns : breaks '\r' = true
    · rw [if_pos returns]
      apply crlf_of_not_mem
      intro member
      rcases mem_join member with same | ⟨line, listed, there⟩
      · cases same
      · rw [single line listed _ there] at returns
        cases returns
    · rw [if_neg returns]
  have last : lines.getLast? ≠ some [] := fun empty => full [] (List.mem_of_getLast? empty) rfl
  rw [splitlines, text, splitOnP_join newline some_ single]
  simp [last]

end Lines
