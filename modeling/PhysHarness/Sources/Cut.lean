import PhysHarness.Sources.Imports
import Mathlib.Data.List.Chain

/-!
# Where the imports are cut off

The cut is at the start of a line of the source, the first one behind the imports. No literal begins
before it, so it is between two pieces of the source or inside a block comment, which the lines of the
code do not show.

## Main result

`split_imports_cut_iff`: what is left of the source reads as it does in the whole source, exactly when
that line does not begin inside a block comment.
-/
namespace PhysHarness

namespace Sources

open Lexing

section

variable [Alphanumerics] [LiteralDigest]

/-- What is behind the cut is read as in the whole source, and the imports were read as code. -/
structure CutInCode (limit : Nat) (source : List Char) : Prop where
  /-- The scanner comes to the cut, over no literal, and the import lines are lines of its code. -/
  reads : ∃ list, Reads (nextPiece limit) [] source list (bodyText limit source) ∧
    (∀ piece ∈ list, piece.1.kind ≠ .literal) ∧
    ((linesOf (codeOf list)).take (splitImports limit source).first).map lineWords =
      ((linesOf (headerText limit source)).take (splitImports limit source).first).map lineWords
  /-- The text behind the cut is read alone as it is in the source. -/
  alone : ∀ list pieces, Reads (nextPiece limit) [] source list (bodyText limit source) →
    (Reads (nextPiece limit) (textOf list).reverse (bodyText limit source) pieces [] ↔
      Reads (nextPiece limit) [] (bodyText limit source) pieces [])
  view : leanCode limit (bodyText limit source) =
    Lines.join '\n' ((linesOf (leanCode limit source)).drop (splitImports limit source).first)

/-- The imports end before line `number`: the first line that imports nothing, or the one behind the
last of them when nothing follows it. -/
structure ImportsEnd (lines : List (List Char)) (number : Nat) : Prop where
  inside : number ≤ lines.length
  header : ∀ line ∈ lines.take number, headerLine line
  ends : (∃ line, lines[number]? = some line ∧ ¬ headerLine line) ∨
    (∀ line ∈ lines.drop number, lineWords line = []) ∧
      ∀ line, (lines.take number).getLast? = some line → importsOnly (lineWords line) = true

/-- The line before which the imports end begins inside a block comment of the source. -/
def ImportsEndInBlockComment (limit : Nat) (source : List Char) : Prop :=
  ∃ list ended inner outer rest,
    Reads (nextPiece limit) [] source (list ++ [(⟨.blockComment, ended⟩, inner ++ outer)]) rest ∧
      inner ≠ [] ∧ outer ≠ [] ∧ Lines.Start '\n' (textOf list ++ inner) ∧
      ImportsEnd (linesOf (headerText limit source)) ((textOf list ++ inner).count '\n')

variable {limit : Nat} {source : List Char}

/-! ### The end of the imports -/

section

omit [LiteralDigest]

theorem ImportsEnd.cons {line : List Char} {more : List (List Char)} {number : Nat}
    (found : headerLine line)
    (last : number = 0 → (∀ other ∈ more, lineWords other = []) → importsOnly (lineWords line) = true)
    (ends : ImportsEnd more number) : ImportsEnd (line :: more) (number + 1) where
  inside := Nat.succ_le_succ ends.inside
  header := by
    intro other member
    rw [List.take_succ_cons] at member
    rcases List.mem_cons.mp member with rfl | member
    · exact found
    · exact ends.header other member
  ends := by
    rcases ends.ends with other | ⟨blank, imports⟩
    · exact .inl other
    · refine .inr ⟨blank, fun other ended => ?_⟩
      rw [List.take_succ_cons, List.getLast?_cons] at ended
      cases behind : (more.take number).getLast? with
      | some final =>
        rw [behind] at ended
        exact imports other (behind.trans ended)
      | none =>
        rw [behind] at ended
        obtain rfl := Option.some.inj ended
        obtain rfl : number = 0 := by
          rcases List.take_eq_nil_iff.mp (List.getLast?_eq_none_iff.mp behind) with zero | none
          · exact zero
          · subst none
            exact Nat.le_zero.mp ends.inside
        exact last rfl blank

theorem importLoop_ends (lines : List (List Char)) {more : List (List Char)} :
    ∀ (index stop : Nat) (modules env : List (List Char)),
      (importLoop lines index stop modules env more).first = stop ∧
          (∀ line ∈ more, lineWords line = []) ∨
        ∃ number, (importLoop lines index stop modules env more).first = index + number ∧
          ImportsEnd more number ∧
          (number = 0 → ∃ line, more.head? = some line ∧ ¬ headerLine line) := by
  induction more with
  | nil => exact fun _ _ _ _ => .inl ⟨rfl, fun _ member => absurd member List.not_mem_nil⟩
  | cons line more ih =>
    intro index stop modules env
    simp only [importLoop]
    split
    next blank =>
      rcases ih (index + 1) stop modules env with
        ⟨first, rest⟩ | ⟨number, first, ends, zero⟩
      · exact .inl ⟨first, by simpa [blank] using rest⟩
      · refine .inr ⟨number + 1, by rw [first]; omega, ends.cons (.inl blank) ?_,
          fun none => absurd none (Nat.succ_ne_zero _)⟩
        intro none rest
        obtain ⟨other, head, plain⟩ := zero none
        exact absurd (.inl (rest other (List.mem_of_head? head))) plain
    next filled =>
      split
      next imports =>
        have here : headerLine line := .inr imports
        rcases ih (index + 1) (index + 1) _ _ with ⟨first, rest⟩ | ⟨number, first, ends, -⟩
        · have ends : ImportsEnd more 0 := ⟨Nat.zero_le _, by simp, .inr ⟨rest, by simp⟩⟩
          exact .inr ⟨0 + 1, by rw [first], ends.cons here fun _ _ => imports,
            fun none => absurd none (Nat.succ_ne_zero _)⟩
        · exact .inr ⟨number + 1, by rw [first]; omega, ends.cons here fun _ _ => imports,
            fun none => absurd none (Nat.succ_ne_zero _)⟩
      next plain =>
        have other : ¬ headerLine line := fun header => header.elim filled plain
        exact .inr ⟨0, rfl, ⟨Nat.zero_le _, by simp, .inl ⟨line, rfl, other⟩⟩,
          fun _ => ⟨line, rfl, other⟩⟩

/-- The imports end in one place. -/
theorem ImportsEnd.unique {lines : List (List Char)} {first second : Nat}
    (one : ImportsEnd lines first) (two : ImportsEnd lines second) : first = second := by
  have apart : ∀ {first second : Nat}, ImportsEnd lines first → ImportsEnd lines second →
      ¬ first < second := by
    intro first second one two less
    obtain ⟨line, here⟩ : ∃ line, lines[first]? = some line :=
      ⟨_, List.getElem?_eq_getElem (less.trans_le two.inside)⟩
    have header := two.header line (List.mem_of_getElem? ((List.getElem?_take_of_lt less).trans here))
    rcases one.ends with ⟨other, there, plain⟩ | ⟨blank, -⟩
    · obtain rfl := Option.some.inj (here.symm.trans there)
      exact plain header
    rcases two.ends with ⟨other, there, plain⟩ | ⟨-, imports⟩
    · refine plain (.inl (blank other ?_))
      obtain ⟨behind, rfl⟩ := Nat.exists_eq_add_of_lt less
      have moved : (lines.drop first)[behind + 1]? = some other := by
        rw [List.getElem?_drop, ← there]
        rfl
      exact List.mem_of_getElem? moved
    · -- the line before the second place imports, and is blank
      obtain ⟨behind, rfl⟩ := Nat.exists_eq_add_of_lt less
      obtain ⟨last, final⟩ : ∃ last, lines[first + behind]? = some last :=
        ⟨_, List.getElem?_eq_getElem two.inside⟩
      have ended : (lines.take (first + behind + 1)).getLast? = some last := by
        rw [List.getLast?_eq_getElem?, List.length_take_of_le two.inside, Nat.add_one_sub_one,
          List.getElem?_take_of_lt (Nat.lt_succ_self _), final]
      have moved : (lines.drop first)[behind]? = some last := by rw [List.getElem?_drop, final]
      have words := imports last ended
      rw [blank last (List.mem_of_getElem? moved)] at words
      cases words
  exact Nat.le_antisymm (Nat.not_lt.mp (apart two one)) (Nat.not_lt.mp (apart one two))

end

theorem splitImports_ends (limit : Nat) (source : List Char) :
    ImportsEnd (linesOf (headerText limit source)) (splitImports limit source).first := by
  rcases importLoop_ends (linesOf source) 0 0 [] [] with ⟨first, blank⟩ | ⟨number, first, ends, -⟩
  · rw [splitImports, first]
    exact ⟨Nat.zero_le _, by simp, .inr ⟨blank, by simp⟩⟩
  · rwa [splitImports, first, Nat.zero_add]

/-- The cut is at the start of a line, or behind all lines. -/
theorem cut_place (limit : Nat) (source : List Char) :
    ∃ before, source = before ++ bodyText limit source ∧
      ((Lines.Start '\n' before ∧ before.count '\n' = (splitImports limit source).first) ∨
        (bodyText limit source = [] ∧ (linesOf source).length ≤ (splitImports limit source).first)) := by
  have cut := (splitImports_cut limit source).rest
  rcases Nat.lt_or_ge (splitImports limit source).first (linesOf source).length with inside | behind
  · obtain ⟨before, rest, same, start, count⟩ := Lines.exists_start inside
    have body : bodyText limit source = rest := by
      rw [bodyText, cut, linesOf, ← count, same, Lines.drop_splitOn start, Lines.join_splitOn]
    exact ⟨before, by rw [body, ← same], .inl ⟨start, count⟩⟩
  · have body : bodyText limit source = [] := by
      rw [bodyText, cut, List.drop_eq_nil_of_le behind]
      rfl
    exact ⟨source, by rw [body, List.append_nil], .inr ⟨body, behind⟩⟩

/-! ### The code of the pieces before the cut -/

section

omit [LiteralDigest]

omit [Alphanumerics] in
theorem lineEnd_take {text : List Char} {length : Nat} (found : lineEnd text = .upTo length) :
    '\n' ∉ text.take length := by
  induction text generalizing length with
  | nil => simp
  | cons c rest ih =>
    rw [lineEnd] at found
    split at found
    · obtain rfl := Extent.upTo.inj found
      simp
    next other =>
      obtain ⟨more, inner, rfl⟩ := Extent.shift_eq_upTo.mp found
      simp [Ne.symm other, ih inner]

theorem opening_line {before rest : List Char} {c : Char} (line : opening before c rest = .line) :
    c = '-' ∧ rest.head? = some '-' := by
  by_contra other
  rw [opening, if_neg other] at line
  repeat' split at line
  all_goals cases line

/-- What a piece of the loop holds, by its kind. -/
theorem nextPiece_form {before piece rest : List Char} {form : Form} (filled : piece ≠ [])
    (found : nextPiece limit before (piece ++ rest) = some (form, piece.length)) :
    (form.kind = .symbol → ∃ c, piece = [c] ∧ opening before c rest = .symbol) ∧
      (form.kind = .lineComment → '\n' ∉ piece) := by
  obtain ⟨c, tail, rfl⟩ := List.exists_cons_of_ne_nil filled
  have turned : ∃ extent, token (nestedScan limit) before (c :: (tail ++ rest)) = (form.kind, extent) ∧
      (extent = .upTo (c :: tail).length ∨
        extent = .runsOff ∧ (c :: tail).length = (c :: tail ++ rest).length) := by
    rw [nextPiece, List.cons_append] at found
    split at found
    · cases found
    next off =>
      obtain ⟨rfl, length⟩ := Prod.mk.inj (Option.some.inj found)
      exact ⟨_, off, .inr ⟨rfl, length.symm⟩⟩
    next ends =>
      obtain ⟨rfl, rfl⟩ := Prod.mk.inj (Option.some.inj found)
      exact ⟨_, ends, .inl rfl⟩
  obtain ⟨extent, here, length⟩ := turned
  constructor
  · intro symbol
    have one := token_symbol (nestedScan limit) before
      (List.cons_ne_nil c (tail ++ rest)) (by rw [here, symbol])
    rw [here] at one
    dsimp only at one
    subst one
    have single : tail = [] := by
      rcases length with equal | ⟨off, -⟩
      · exact List.length_eq_zero_iff.mp (Nat.succ.inj (Extent.upTo.inj equal)).symm
      · cases off
    subst single
    refine ⟨c, rfl, ?_⟩
    rw [token, symbol] at here
    cases opens : opening before c rest <;> simp [opens] at here ⊢
  · intro line
    rw [token, line] at here
    have opens : opening before c (tail ++ rest) = .line := by
      cases opens : opening before c (tail ++ rest) <;> simp [opens] at here ⊢
    rw [opens] at here
    have ends : (lineEnd (tail ++ rest)).shift 1 = extent := congrArg Prod.snd here
    have dash : c ≠ '\n' := by
      rw [(opening_line opens).1]
      decide
    have silent : '\n' ∉ tail := by
      rcases length with equal | ⟨off, -⟩
      · rw [equal] at ends
        obtain ⟨more, inner, same⟩ := Extent.shift_eq_upTo.mp ends
        have none := lineEnd_take inner
        obtain rfl : more = tail.length := by simpa using same
        rwa [List.take_left] at none
      · rw [off, Extent.shift_eq_runsOff, lineEnd_eq_runsOff] at ends
        exact fun member => ends (List.mem_append_left _ member)
    simp [dash.symm, silent]

/-- Before any literal the code has the newlines of the text. -/
theorem count_codeOf [LiteralDigest] {before text rest : List Char} {list : List Piece}
    (reads : Reads (nextPiece limit) before text list rest)
    (plain : ∀ piece ∈ list, piece.1.kind ≠ .literal) :
    (codeOf list).count '\n' = (textOf list).count '\n' := by
  induction reads with
  | done => rfl
  | @step before piece rest last form pieces found filled _ ih =>
    have more := ih fun piece member => plain piece (List.mem_cons_of_mem _ member)
    have other : form.kind ≠ .literal := plain _ List.mem_cons_self
    rw [codeOf_cons, textOf_cons, List.count_append, List.count_append, more]
    congr 1
    unfold Piece.code
    cases kind : form.kind with
    | lineComment =>
      simp [List.count_eq_zero_of_not_mem ((nextPiece_form filled found).2 kind)]
    | blockComment => simp [List.count_filter]
    | literal => exact absurd kind other
    | symbol => simp

/-- No line comment begins in the code before any literal. -/
theorem dashless_codeOf [LiteralDigest] {before text rest : List Char} {list : List Piece}
    (reads : Reads (nextPiece limit) before text list rest)
    (plain : ∀ piece ∈ list, piece.1.kind ≠ .literal) :
    (codeOf list).IsChain (fun a b => ¬ (a = '-' ∧ b = '-')) ∧
      ((codeOf list).head? = some '-' → text.head? = some '-') := by
  induction reads with
  | done => exact ⟨.nil, nofun⟩
  | @step before piece rest last form pieces found filled _ ih =>
    obtain ⟨chain, head⟩ := ih fun piece member => plain piece (List.mem_cons_of_mem _ member)
    have other : form.kind ≠ .literal := plain _ List.mem_cons_self
    rw [codeOf_cons]
    -- a comment's code has no dash
    have comment : ∀ code : List Char, '-' ∉ code → code ≠ [] →
        (code ++ codeOf pieces).IsChain (fun a b => ¬ (a = '-' ∧ b = '-')) ∧
          ((code ++ codeOf pieces).head? = some '-' → (piece ++ rest).head? = some '-') := by
      intro code none some
      refine ⟨List.IsChain.append ?_ chain fun a member b _ both => none ?_, fun dash => ?_⟩
      · exact List.isChain_iff_forall_rel_of_append_cons_cons.mpr fun a b _ _ split both =>
          none (by rw [split, both.1]; simp)
      · exact both.1 ▸ List.mem_of_getLast? member
      · obtain ⟨a, code, rfl⟩ := List.exists_cons_of_ne_nil some
        obtain rfl := Option.some.inj dash
        exact absurd List.mem_cons_self none
    cases kind : form.kind with
    | lineComment =>
      simp only [Piece.code, kind]
      exact comment _ (by decide) (by simp)
    | blockComment =>
      simp only [Piece.code, kind]
      exact comment _ (by simp) (by simp)
    | literal => exact absurd kind other
    | symbol =>
      obtain ⟨c, rfl, symbol⟩ := (nextPiece_form filled found).1 kind
      simp only [Piece.code, kind]
      refine ⟨List.IsChain.append (by simp) chain fun a member b first both => ?_, fun dash => dash⟩
      obtain rfl : c = a := by simpa using member
      obtain ⟨rfl, rfl⟩ := both
      have dashes := head first
      rw [opening, if_pos ⟨rfl, dashes⟩] at symbol
      cases symbol

omit [Alphanumerics] in
/-- What stands behind code without dashes is not in a line comment. -/
theorem mem_beforeDashes {before : List Char} (rest : List Char) {c : Char} (other : c ≠ '-')
    (chain : before.IsChain fun a b => ¬ (a = '-' ∧ b = '-')) :
    c ∈ beforeDashes (before ++ c :: rest) := by
  induction before with
  | nil =>
    rw [List.nil_append, beforeDashes, if_neg fun both => other both.1]
    exact List.mem_cons_self
  | cons d before ih =>
    have single : ¬ (d = '-' ∧ (before ++ c :: rest).head? = some '-') := by
      rintro ⟨rfl, second⟩
      cases before with
      | nil => exact other (Option.some.inj second)
      | cons e before =>
        obtain rfl := Option.some.inj second
        exact (List.isChain_cons_cons.mp chain).1 ⟨rfl, rfl⟩
    rw [List.cons_append, beforeDashes, if_neg single]
    exact List.mem_cons_of_mem _ (ih chain.tail)

end

/-- No literal begins before the cut. -/
theorem cut_before_literal {before : List Char} {first second : List Piece} {literal : Piece}
    (reads : Reads (nextPiece limit) [] source (first ++ literal :: second) [])
    (plain : ∀ piece ∈ first, piece.1.kind ≠ .literal) (kind : literal.1.kind = .literal)
    (place : source = before ++ bodyText limit source)
    (starts : (Lines.Start '\n' before ∧ before.count '\n' = (splitImports limit source).first) ∨
      (bodyText limit source = [] ∧
        (linesOf source).length ≤ (splitImports limit source).first)) :
    before.length ≤ (textOf first).length := by
  by_contra short
  have text := reads.text_eq
  rw [List.append_nil, textOf_append] at text
  -- the literal's line of the code is one of the lines before the cut
  have early : (textOf first).count '\n' < (splitImports limit source).first := by
    rcases starts with ⟨start, count⟩ | ⟨-, behind⟩
    · rcases List.append_eq_append_iff.mp (text.symm.trans place) with ⟨added, rfl, -⟩ | ⟨_, same, -⟩
      · have filled : added ≠ [] := by
          rintro rfl
          simp at short
        have newline : '\n' ∈ added := by
          rcases start with empty | ⟨line, ended⟩
          · simp at empty
            exact absurd empty.2 filled
          · have last := congrArg List.getLast? ended
            rw [List.getLast?_append_of_ne_nil _ filled, List.getLast?_concat] at last
            exact List.mem_of_getLast? last
        rw [List.count_append] at count
        have positive := List.count_pos_iff.mpr newline
        omega
      · rw [same, List.length_append] at short
        omega
    · have total := congrArg (List.count '\n') text
      rw [List.count_append] at total
      rw [linesOf, Lines.length_splitOn] at behind
      omega
  have code : leanCode limit source =
      codeOf first ++ '\x00' :: (LiteralDigest.digits literal.2 ++ '\x00' :: codeOf second) := by
    rw [leanCode_of_reads reads, codeOf_append, codeOf_cons, Piece.code, kind]
    simp [opaqueToken]
  obtain ⟨_, one, -⟩ := reads.split
  obtain ⟨start, middle, rest, split, -, line⟩ := @Lines.exists_line _ _ _ '\n'
    (codeOf first) (LiteralDigest.digits literal.2 ++ '\x00' :: codeOf second) '\x00' (by decide)
  rw [count_codeOf one plain, ← code] at line
  have shown : headerText limit source = leanCode limit source := by
    rw [headerText]
    exact if_neg (by simp [code])
  have header : headerLine (middle ++ '\x00' :: rest) := by
    refine (splitImports_cut limit source).header _ ?_
    rw [Nat.sub_zero, shown]
    exact List.mem_of_getElem? ((List.getElem?_take_of_lt early).trans line)
  have chain := (dashless_codeOf one plain).1
  rw [split] at chain
  have shown' : '\x00' ≠ '-' := by decide
  have inside := mem_beforeDashes rest shown' chain.right_of_append
  rcases headerLine_chars header _ inside with space | char
  · exact absurd space (by decide)
  · rw [isModuleChar_small _ (by decide)] at char
    cases char

omit [LiteralDigest] in
theorem forms_of_reads {before text rest : List Char} {list : List Piece}
    (reads : Reads (nextPiece limit) before text list rest) :
    ∀ piece ∈ list, piece.2 ≠ [] ∧ (piece.1.kind = .symbol → ∃ c, piece.2 = [c]) ∧
      (piece.1.kind = .lineComment → '\n' ∉ piece.2) := by
  induction reads with
  | done => exact fun _ member => nomatch member
  | step found filled _ ih =>
    intro piece member
    rcases List.mem_cons.mp member with rfl | member
    · obtain ⟨symbol, line⟩ := nextPiece_form filled found
      exact ⟨filled, fun kind => (symbol kind).imp fun _ both => both.1, line⟩
    · exact ih piece member

omit [Alphanumerics] [LiteralDigest] in
/-- A nonempty text that ends at the start of a line ends in a newline. -/
theorem getLast_of_start {before added : List Char} (start : Lines.Start '\n' (before ++ added))
    (filled : added ≠ []) : added.getLast? = some '\n' := by
  rcases start with empty | ⟨line, ended⟩
  · exact absurd (List.append_eq_nil_iff.mp empty).2 filled
  · have last := congrArg List.getLast? ended
    rwa [List.getLast?_append_of_ne_nil _ filled, List.getLast?_concat] at last

/-- Before a literal, the code begins a line where the text does. -/
theorem start_codeOf {before text rest : List Char} {list : List Piece}
    (reads : Reads (nextPiece limit) before text list rest)
    (plain : ∀ piece ∈ list, piece.1.kind ≠ .literal) (start : Lines.Start '\n' (textOf list)) :
    Lines.Start '\n' (codeOf list) := by
  rcases List.eq_nil_or_concat list with rfl | ⟨first, last, rfl⟩
  · exact .inl rfl
  rw [List.concat_eq_append] at reads plain start ⊢
  obtain ⟨filled, symbol, line⟩ := forms_of_reads reads last (by simp)
  have whole : textOf [last] = last.2 := List.append_nil _
  rw [textOf_append, whole] at start
  have newline := getLast_of_start start filled
  have code : codeOf [last] = last.code := List.append_nil _
  rw [codeOf_append, code]
  have ended : ∀ code : List Char, code.getLast? = some '\n' →
      Lines.Start '\n' (codeOf first ++ code) := by
    intro code last
    obtain ⟨text, rfl⟩ := List.getLast?_eq_some_iff.mp last
    exact .inr ⟨codeOf first ++ text, (List.append_assoc _ _ _).symm⟩
  cases kind : last.1.kind with
  | lineComment => exact absurd (List.mem_of_getLast? newline) (line kind)
  | blockComment =>
    refine ended _ ?_
    have newlines : '\n' ∈ last.2.filter (· = '\n') := by
      simpa using List.mem_of_getLast? newline
    obtain ⟨c, ends⟩ := List.getLast?_isSome.mpr (List.ne_nil_of_mem newlines) |> Option.isSome_iff_exists.mp
    have same : c = '\n' := by simpa using (List.mem_filter.mp (List.mem_of_getLast? ends)).2
    simp only [Piece.code, kind]
    rw [List.getLast?_cons, ends, same]
    rfl
  | literal => exact absurd kind (plain last (by simp))
  | symbol =>
    refine ended _ ?_
    simp only [Piece.code, kind]
    exact newline

/-- A source with code is cut between two pieces, or inside a block comment. -/
theorem cutInCode_of_code {list : List Piece} (whole : Reads (nextPiece limit) [] source list [])
    (outside : ¬ ImportsEndInBlockComment limit source) :
    ∃ first second, list = first ++ second ∧ (∀ piece ∈ first, piece.1.kind ≠ .literal) ∧
      source = textOf first ++ bodyText limit source := by
  obtain ⟨before, place, starts⟩ := cut_place limit source
  have text := whole.text_eq
  rw [List.append_nil] at text
  -- no literal is among pieces that begin before the cut
  have plain : ∀ {first second : List Piece}, list = first ++ second →
      (textOf first).length ≤ before.length → ∀ piece ∈ first, piece.1.kind ≠ .literal := by
    rintro first second rfl inside piece member kind
    have listed : (first.find? fun piece => piece.1.kind = .literal).isSome :=
      List.find?_isSome.mpr ⟨piece, member, decide_eq_true kind⟩
    obtain ⟨literal, found⟩ := Option.isSome_iff_exists.mp listed
    obtain ⟨literally, before', behind, rfl, others⟩ := List.find?_eq_some_iff_append.mp found
    rw [List.append_assoc, List.cons_append] at whole
    have early := cut_before_literal whole (fun other listed => by simpa using others other listed)
      (of_decide_eq_true literally) place starts
    have filled := (forms_of_reads whole literal (by simp)).1
    have positive := List.length_pos_of_ne_nil filled
    rw [textOf_append, textOf_cons, List.length_append, List.length_append] at inside
    omega
  rcases textOf_split (text.symm.trans place) with ⟨first, second, rfl, same, -⟩ |
    ⟨first, form, inner, outer, second, rfl, filled, some, same, behind⟩
  · exact ⟨first, second, rfl, plain rfl (by rw [same]), by rw [same, ← place]⟩
  · exfalso
    have forms := forms_of_reads whole (form, inner ++ outer) (by simp)
    have before_first : ∀ piece ∈ first, piece.1.kind ≠ .literal :=
      plain rfl (by rw [same, List.length_append]; exact Nat.le_add_right _ _)
    -- the cut is behind a newline of the piece
    obtain ⟨start, count⟩ : Lines.Start '\n' (textOf first ++ inner) ∧
        (textOf first ++ inner).count '\n' = (splitImports limit source).first := by
      rcases starts with there | ⟨empty, -⟩
      · rwa [same] at there
      · rw [empty] at behind
        exact absurd (List.append_eq_nil_iff.mp behind.symm).1 some
    have newline : '\n' ∈ inner := List.mem_of_getLast? (getLast_of_start start filled)
    cases kind : form.kind with
    | literal =>
      have early := cut_before_literal whole before_first kind place starts
      have positive := List.length_pos_of_ne_nil filled
      rw [same, List.length_append] at early
      omega
    | symbol =>
      obtain ⟨c, single⟩ := forms.2.1 kind
      have length := congrArg List.length single
      have left := List.length_pos_of_ne_nil filled
      have right := List.length_pos_of_ne_nil some
      simp only [List.length_append, List.length_singleton] at length
      omega
    | lineComment => exact forms.2.2 kind (List.mem_append_left _ newline)
    | blockComment =>
      obtain ⟨form, ended⟩ := form
      obtain rfl : form = .blockComment := kind
      rw [← List.singleton_append, ← List.append_assoc] at whole
      obtain ⟨rest, one, -⟩ := whole.split
      refine outside ⟨first, ended, inner, outer, rest, one, filled, some, start, ?_⟩
      rw [count]
      exact splitImports_ends limit source

/-! ### What is behind the cut -/

omit [LiteralDigest] in
theorem identBefore_start {before : List Char} (start : Lines.Start '\n' before) :
    identBefore before.reverse = false := by
  rcases start with rfl | ⟨line, rfl⟩
  · rfl
  · simp [identBefore, isAlnum_latin, isAlnumLatin]

/-- What stands behind the cut is read there as it is read alone. -/
theorem reads_cut {list pieces : List Piece}
    (reads : Reads (nextPiece limit) [] source list (bodyText limit source)) :
    Reads (nextPiece limit) (textOf list).reverse (bodyText limit source) pieces [] ↔
      Reads (nextPiece limit) [] (bodyText limit source) pieces [] := by
  obtain ⟨before, place, starts⟩ := cut_place limit source
  have same : textOf list = before :=
    List.append_cancel_right (reads.text_eq.symm.trans place)
  rcases starts with ⟨start, -⟩ | ⟨empty, -⟩
  · exact reads_alone (identBefore_start (same ▸ start))
  · rw [empty]
    constructor <;> intro reads <;> obtain rfl := reads.of_nil <;> exact .done _ _

theorem cutInCode_of_reads {list : List Piece} (whole : Reads (nextPiece limit) [] source list [])
    (outside : ¬ ImportsEndInBlockComment limit source) : CutInCode limit source := by
  obtain ⟨first, second, rfl, plain, place⟩ := cutInCode_of_code whole outside
  obtain ⟨middle, one, two⟩ := whole.split
  obtain rfl : bodyText limit source = middle :=
    List.append_cancel_left (place.symm.trans one.text_eq)
  rw [List.append_nil] at two
  have code : leanCode limit source = codeOf first ++ codeOf second := by
    rw [leanCode_of_reads whole, codeOf_append]
  have shown : headerText limit source = leanCode limit source := by
    rw [headerText]
    by_cases empty : leanCode limit source = []
    · have none : first ++ second = [] := by
        by_contra nonempty
        exact codeOf_ne_nil nonempty whole (leanCode_of_reads whole ▸ empty)
      rw [if_pos empty, empty, whole.text_eq, none]
      rfl
    · exact if_neg empty
  have body : leanCode limit (bodyText limit source) = codeOf second :=
    leanCode_of_reads ((reads_cut one).mp two)
  obtain ⟨before, before_place, starts⟩ := cut_place limit source
  have same : textOf first = before := List.append_cancel_right (place.symm.trans before_place)
  subst same
  have counted := count_codeOf one plain
  rcases starts with ⟨start, count⟩ | ⟨empty, behind⟩
  · have start := start_codeOf one plain start
    rw [count] at counted
    refine ⟨⟨first, one, plain, ?_⟩, fun _ _ => reads_cut, ?_⟩
    · rw [shown, code, linesOf, linesOf, ← counted, Lines.take_splitOn start]
    · rw [body, code, linesOf, ← counted, Lines.drop_splitOn start, Lines.join_splitOn]
  · rw [empty] at two
    obtain rfl := two.of_nil
    rw [empty, List.append_nil] at place
    refine ⟨⟨first, one, plain, ?_⟩, fun _ _ => reads_cut, ?_⟩
    · rw [shown, code, show codeOf [] = [] from rfl, List.append_nil]
    · rw [body, code, show codeOf [] = [] from rfl, List.append_nil, List.drop_eq_nil_of_le]
      · rfl
      · rwa [linesOf, Lines.length_splitOn, counted, ← place, ← Lines.length_splitOn]

/-! ### A source without code -/

omit [Alphanumerics] [LiteralDigest] in
theorem beforeDashes_subset (line : List Char) : beforeDashes line ⊆ line := by
  obtain ⟨comment, same, -⟩ := beforeDashes_append line
  intro c member
  rw [same]
  exact List.mem_append_left _ member

omit [Alphanumerics] [LiteralDigest] in
theorem headerCode_single {line : List Char} (single : '\n' ∉ line) : '\n' ∉ headerCode line := by
  rw [headerCode, List.mem_append]
  rintro (member | member)
  · exact single (beforeDashes_subset line member)
  · split at member <;> simp at member

/-- Header lines are read to the end of the last. -/
theorem reads_headerLines (limit : Nat) {lines : List (List Char)} (header : ∀ line ∈ lines, headerLine line)
    (single : ∀ line ∈ lines, '\n' ∉ line) (rest : List Char) :
    ∀ before, ∃ list, Reads (nextPiece limit) before (Lines.ended '\n' lines ++ rest) list rest ∧
      (∀ piece ∈ list, piece.1.kind ≠ .literal) ∧
      codeOf list = Lines.ended '\n' (lines.map headerCode) := by
  induction lines with
  | nil => exact fun before => ⟨[], .done _ _, by simp, rfl⟩
  | cons line lines ih =>
    intro before
    obtain ⟨first, one, plain, code⟩ := @reads_headerLine _ limit before
      (Lines.ended '\n' lines ++ rest) _ (header line List.mem_cons_self)
      (single line List.mem_cons_self)
    obtain ⟨second, two, others, codes⟩ :=
      ih (fun line member => header line (List.mem_cons_of_mem _ member))
        (fun line member => single line (List.mem_cons_of_mem _ member))
        ((textOf first).reverse ++ before)
    refine ⟨first ++ second, ?_, ?_, ?_⟩
    · have whole := one.append two
      simpa [Lines.ended, List.append_assoc] using whole
    · simp only [List.mem_append, or_imp, forall_and]
      exact ⟨plain, others⟩
    · rw [codeOf_append, code, codes]
      simp [Lines.ended]

omit [LiteralDigest] in
/-- A header line that no newline ends is read too. -/
theorem reads_lastLine (limit : Nat) (before : List Char) {line : List Char} (header : headerLine line) (single : '\n' ∉ line) :
    ∃ list, Reads (nextPiece limit) before line list [] := by
  obtain ⟨comment, same, rfl | ⟨more, rfl⟩⟩ := beforeDashes_append line
  · have body : Reads (nextPiece limit) before (beforeDashes line ++ []) _ _ :=
      reads_headerLine_body before header nofun
    rw [← same] at body
    exact ⟨_, body⟩
  · have body : Reads (nextPiece limit) before (beforeDashes line ++ '-' :: '-' :: more) _ _ :=
      reads_headerLine_body before header (by simp)
    rw [← same] at body
    have silent : '\n' ∉ '-' :: more := fun member =>
      single (by rw [same]; exact List.mem_append_right _ (List.mem_cons_of_mem _ member))
    have found : ∀ context, nextPiece limit context ('-' :: '-' :: more ++ []) =
        some (⟨.lineComment, false⟩, ('-' :: '-' :: more).length) := by
      intro context
      have line : opening context '-' ('-' :: more) = .line := by simp [opening]
      rw [List.append_nil, nextPiece, token, line, lineEnd_eq_runsOff.mpr silent]
      rfl
    have last : ∀ context, ∃ list, Reads (nextPiece limit) context ('-' :: '-' :: more) list [] := by
      intro context
      have reads := Reads.step (found context) (List.cons_ne_nil _ _) (.done _ [])
      rw [List.append_nil] at reads
      exact ⟨_, reads⟩
    obtain ⟨list, reads⟩ := last ((textOf (symbols (beforeDashes line))).reverse ++ before)
    exact ⟨_, body.append reads⟩

/-- A source that is nested too deeply is cut behind lines that the scanner reads. -/
theorem cutInCode_of_deep (deep : pieces limit source = none) : CutInCode limit source := by
  have stuck : ∀ list, ¬ Reads (nextPiece limit) [] source list [] := by
    intro list reads
    rw [pieces_iff.mpr reads] at deep
    cases deep
  have empty : leanCode limit source = [] := by
    rw [leanCode, scanned, deep]
    rfl
  have shown : headerText limit source = source := by rw [headerText, if_pos empty]
  have header : ∀ line ∈ (linesOf source).take (splitImports limit source).first,
      headerLine line := by
    have cut := (splitImports_cut limit source).header
    rwa [Nat.sub_zero, shown] at cut
  have single : ∀ line ∈ linesOf source, '\n' ∉ line := fun line => Lines.not_mem_line
  obtain ⟨before, place, ⟨start, count⟩ | ⟨-, behind⟩⟩ := cut_place limit source
  · have taken : (linesOf source).take (splitImports limit source).first =
        (linesOf before).take (splitImports limit source).first := by
      have same := Lines.take_splitOn start (bodyText limit source)
      rwa [← place, count] at same
    have short : ((linesOf before).take (splitImports limit source).first).length =
        (splitImports limit source).first := by
      rw [List.length_take_of_le]
      rw [linesOf, Lines.length_splitOn, count]
      exact Nat.le_succ _
    have text := start.eq_ended
    rw [count] at text
    rw [taken] at header
    obtain ⟨list, reads, plain, code⟩ := reads_headerLines limit header
      (fun line member => Lines.not_mem_line (List.mem_of_mem_take member)) (bodyText limit source) []
    rw [linesOf, ← text, ← place] at reads
    refine ⟨⟨list, reads, plain, ?_⟩, fun _ _ => reads_cut, ?_⟩
    · have lines : linesOf (codeOf list) =
          ((linesOf before).take (splitImports limit source).first).map headerCode ++ [[]] := by
        rw [code, linesOf, Lines.splitOn_ended]
        intro line member
        obtain ⟨line, listed, rfl⟩ := List.mem_map.mp member
        exact headerCode_single (Lines.not_mem_line (List.mem_of_mem_take listed))
      rw [lines, List.take_left' (by rw [List.length_map, short]), shown, taken, List.map_map]
      exact List.map_congr_left fun line _ => lineWords_headerCode line
    · have none : leanCode limit (bodyText limit source) = [] := by
        cases found : pieces limit (bodyText limit source) with
        | none =>
          rw [leanCode, scanned, found]
          rfl
        | some second =>
          have two := (reads_cut reads).mpr (pieces_iff.mp found)
          rw [← List.append_nil (textOf list).reverse] at two
          exact absurd (reads.append two) (stuck _)
      rw [none, empty]
      cases (splitImports limit source).first <;> simp [linesOf, List.splitOn_nil, Lines.join]
  · -- all lines are header lines, so the scanner comes to the end of the source
    exfalso
    rw [List.take_of_length_le behind] at header
    obtain ⟨lines, last, split⟩ := List.eq_nil_or_concat (linesOf source) |>.resolve_left
      (List.splitOn_ne_nil _ _)
    rw [List.concat_eq_append] at split
    have text : source = Lines.ended '\n' lines ++ last := by
      rw [← Lines.join_ended, ← split, linesOf, Lines.join_splitOn]
    have known : ∀ line ∈ lines ++ [last], headerLine line ∧ '\n' ∉ line := by
      rw [← split]
      exact fun line member => ⟨header line member, Lines.not_mem_line member⟩
    simp only [List.mem_append, List.mem_singleton, or_imp, forall_and, forall_eq] at known
    obtain ⟨⟨heads, lastHead⟩, singles, lastSingle⟩ := known
    obtain ⟨list, reads, -⟩ := reads_headerLines limit heads singles last []
    obtain ⟨more, rest⟩ := reads_lastLine limit ((textOf list).reverse ++ [])
      lastHead lastSingle
    rw [← text] at reads
    exact stuck _ (reads.append rest)

/-- A cut in code is not inside a piece. -/
theorem not_cutInBlockComment {list : List Piece}
    (reads : Reads (nextPiece limit) [] source list (bodyText limit source)) :
    ¬ ImportsEndInBlockComment limit source := by
  rintro ⟨first, ended, inner, outer, rest, block, filled, some, start, ends⟩
  have behind : bodyText limit source = outer ++ rest := by
    have text := block.text_eq
    have lines := Lines.drop_splitOn start (outer ++ rest)
    rw [ends.unique (splitImports_ends limit source)] at lines
    have whole : textOf first ++ inner ++ (outer ++ rest) = source := by
      rw [text]
      simp
    rw [whole] at lines
    rw [bodyText, (splitImports_cut limit source).rest, linesOf, lines, Lines.join_splitOn]
  have one := congrArg List.length reads.text_eq
  have two := congrArg List.length block.text_eq
  have body := congrArg List.length behind
  have left := List.length_pos_of_ne_nil filled
  have right := List.length_pos_of_ne_nil some
  simp only [textOf_append, textOf_cons, textOf_nil, List.append_nil, List.length_append] at one two body
  rcases reads.comparable block with ⟨more, same⟩ | ⟨more, same⟩
  · rcases List.eq_nil_or_concat more with rfl | ⟨more, last, rfl⟩
    · have lengths := congrArg (fun list => (textOf list).length) same
      simp only [textOf_append, textOf_cons, textOf_nil, List.append_nil, List.length_append] at lengths
      omega
    · rw [List.concat_eq_append, ← List.append_assoc] at same
      have lengths := congrArg (fun list => (textOf list).length) (List.append_inj_left' same rfl)
      simp only [textOf_append, List.length_append] at lengths
      omega
  · have lengths := congrArg (fun list => (textOf list).length) same
    simp only [textOf_append, textOf_cons, textOf_nil, List.append_nil, List.length_append] at lengths
    omega

/-- The text behind the imports is read as in the published source exactly when the line that it begins
with does not begin inside a block comment. -/
theorem split_imports_cut_iff (limit : Nat) (source : List Char) :
    CutInCode limit source ↔ ¬ ImportsEndInBlockComment limit source := by
  constructor
  · rintro ⟨⟨list, reads, -⟩, -, -⟩
    exact not_cutInBlockComment reads
  · intro outside
    cases found : pieces limit source with
    | none => exact cutInCode_of_deep found
    | some list => exact cutInCode_of_reads (pieces_iff.mp found) outside

end

end Sources

namespace Scenario

open Sources

section

local instance cutLetters : Alphanumerics := latinLetters
local instance cutDigest : LiteralDigest := oneDigest

/-- A comment that opens on the import line hides a command in what is left of the source. -/
def hiddenCommand : List Char := "import Mathlib /-\n\" -/ #eval 1 --\"".toList

theorem hidden_command_cut : ¬ CutInCode 8 hiddenCommand :=
  fun cut => absurd cut.view (by decide)

end

end Scenario

end PhysHarness
