import PhysHarness.Sources.Frame
import Mathlib.Data.Bool.AllAny

/-!
# The imports of a module

`split_imports` reads the lines of the code up to the first one that imports nothing, and cuts the
source there. A line that it takes is a line of names, with a comment behind them at most, and the
scanner reads it to its end.
-/
namespace PhysHarness

namespace Sources

open Lexing

/-- The lines of a text. -/
def linesOf (text : List Char) : List (List Char) := text.splitOn '\n'

/-- `line.split("--", 1)[0]`. -/
def beforeDashes : List Char → List Char
  | [] => []
  | c :: rest => if c = '-' ∧ rest.head? = some '-' then [] else c :: beforeDashes rest

/-- The words of a line of code. -/
def lineWords (line : List Char) : List (List Char) := Lines.wordsBy isSpace (beforeDashes line)

def importWord : List Char := ['i', 'm', 'p', 'o', 'r', 't']

/-- `COMMONS_IMPORT`. -/
def commonsImport (name : List Char) : Bool :=
  let hex := name.drop 9
  "Commons.N".toList.isPrefixOf name && hex.length ∈ [8, 12, 16] &&
    hex.all fun c => ('0' ≤ c && c ≤ '9') || ('a' ≤ c && c ≤ 'f')

/-- What `split_imports` returns. -/
structure ImportSplit where
  modules : List (List Char)
  env : List (List Char)
  rest : List (List Char)
  first : Nat
  deriving DecidableEq

section

variable [Alphanumerics]

/-- `_module_name`. -/
def moduleName (name : List Char) : Bool :=
  (match name with
    | [] => false
    | c :: rest => (c.isAlpha || c = '_') && rest.all fun c => isWord c || c ∈ ['.', '\'']) &&
    !commandWord name

/-- A line that imports modules. -/
def importsOnly (words : List (List Char)) : Bool :=
  match words with
  | [] => false
  | word :: names => word = importWord && !names.isEmpty && names.all moduleName

/-- The loop of `split_imports`: `stop` is behind the last import line. -/
def importLoop (lines : List (List Char)) :
    Nat → Nat → List (List Char) → List (List Char) → List (List Char) → ImportSplit
  | _, stop, modules, env, [] => ⟨modules, env, lines.drop stop, stop⟩
  | index, stop, modules, env, line :: more =>
    let words := lineWords line
    if words = [] then importLoop lines (index + 1) stop modules env more
    else if importsOnly words then
      let names := words.tail
      let found := names.filter fun name => commonsImport name && name ∉ modules
      let others := names.filter fun name => !commonsImport name
      let line := importWord ++ ' ' :: [' '].intercalate others
      importLoop lines (index + 1) (index + 1) (modules ++ found)
        (if others = [] then env else env ++ [line]) more
    else ⟨modules, env, lines.drop index, index⟩

variable [LiteralDigest]

/-- The text whose lines `split_imports` reads: the code, or the source when it has none. -/
def headerText (limit : Nat) (source : List Char) : List Char :=
  let code := leanCode limit source
  if code = [] then source else code

def splitImports (limit : Nat) (source : List Char) : ImportSplit :=
  importLoop (linesOf source) 0 0 [] [] (linesOf (headerText limit source))

/-- The text that is inlined and judged. -/
def bodyText (limit : Nat) (source : List Char) : List Char :=
  Lines.join '\n' (splitImports limit source).rest

/-! ### The loop -/

/-- A line that the cut is behind. -/
def headerLine (line : List Char) : Prop := lineWords line = [] ∨ importsOnly (lineWords line) = true

variable {lines : List (List Char)}

/-- The cut is behind header lines only. -/
structure CutBehind (lines more : List (List Char)) (index stop : Nat) (result : ImportSplit) :
    Prop where
  rest : result.rest = lines.drop result.first
  stop_le : stop ≤ result.first
  first_le : result.first ≤ index + more.length
  header : ∀ line ∈ more.take (result.first - index), headerLine line

omit [LiteralDigest] in
theorem CutBehind.cons {line : List Char} {more : List (List Char)} {index stop before : Nat}
    {result : ImportSplit} (found : headerLine line) (le : before ≤ stop)
    (cut : CutBehind lines more (index + 1) stop result) :
    CutBehind lines (line :: more) index before result where
  rest := cut.rest
  stop_le := le.trans cut.stop_le
  first_le := by
    have bound := cut.first_le
    simp only [List.length_cons]
    omega
  header := by
    intro other member
    rcases Nat.lt_or_ge index result.first with behind | here
    · have one : result.first - index = (result.first - (index + 1)) + 1 := by omega
      rw [one, List.take_succ_cons] at member
      rcases List.mem_cons.mp member with rfl | member
      · exact found
      · exact cut.header other member
    · rw [Nat.sub_eq_zero_of_le here] at member
      cases member

omit [LiteralDigest] in
theorem importLoop_cut {more : List (List Char)} :
    ∀ {index stop : Nat} {modules env : List (List Char)}, stop ≤ index →
      CutBehind lines more index stop (importLoop lines index stop modules env more) := by
  induction more with
  | nil =>
    intro index stop modules env le
    exact ⟨rfl, le_rfl, le, by simp⟩
  | cons line more ih =>
    intro index stop modules env le
    simp only [importLoop]
    split
    next blank => exact (ih (Nat.le_succ_of_le le)).cons (.inl blank) le_rfl
    split
    next imports => exact (ih le_rfl).cons (.inr imports) (Nat.le_succ_of_le le)
    · exact ⟨rfl, le, Nat.le_add_right _ _, by simp⟩

variable {limit : Nat} {source : List Char}

theorem splitImports_cut (limit : Nat) (source : List Char) :
    CutBehind (linesOf source) (linesOf (headerText limit source)) 0 0 (splitImports limit source) :=
  importLoop_cut le_rfl

/-! ### What a header line holds -/

section

omit [LiteralDigest]

/-- A character of a module name. -/
def isModuleChar (c : Char) : Bool := isWord c || c ∈ ['.', '\'']

theorem isModuleChar_small : ∀ c ∈ ['-', '/', '"', '\u00ab', '\u0060', '#', '\x00'],
    isModuleChar c = false := by
  intro c member
  have small : c.toNat ≤ 0xff := by
    revert c
    simp
  have other : isAlnumLatin c = false ∧ c ∉ ['_', '.', '\''] := by
    revert c
    exact List.all_iff_forall_prop.mp (by decide)
  simp only [List.mem_cons, List.not_mem_nil, or_false, not_or] at other
  simp [isModuleChar, isWord, isAlnum_latin small, other]

/-- The words of a header line are names, and none begins with an apostrophe. -/
theorem headerLine_words {line : List Char} (header : headerLine line) :
    ∀ word ∈ lineWords line, (∀ c ∈ word, isModuleChar c = true) ∧ word.head? ≠ some '\'' := by
  have letter : ∀ c : Char, c.isAlpha = true ∨ c = '_' → isModuleChar c = true := by
    rintro c (letter | rfl)
    · have alnum : c.isAlphanum = true := by simp [Char.isAlphanum, letter]
      have small : c.toNat ≤ 0xff := Nat.le_trans (Nat.le_of_lt (isAlphanum_small alnum)) (by decide)
      simp [isModuleChar, isWord, isAlnum_latin small, isAlnumLatin, alnum]
    · simp [isModuleChar, isWord]
  intro word member
  rcases header with blank | imports
  · rw [blank] at member
    cases member
  cases words : lineWords line with
  | nil => rw [words] at member; cases member
  | cons first names =>
    rw [words] at imports member
    simp only [importsOnly, Bool.and_eq_true, decide_eq_true_eq, List.all_eq_true] at imports
    obtain ⟨⟨rfl, -⟩, names⟩ := imports
    rcases List.mem_cons.mp member with rfl | member
    · refine ⟨fun c member => letter c (.inl ?_), by decide⟩
      revert c
      exact List.all_iff_forall_prop.mp (by decide)
    · have name := names word member
      cases word with
      | nil => simp [moduleName] at name
      | cons c rest =>
        simp only [moduleName, Bool.and_eq_true, Bool.or_eq_true, decide_eq_true_eq,
          List.all_eq_true] at name
        obtain ⟨⟨first, rest'⟩, -⟩ := name
        refine ⟨fun d member => ?_, fun apostrophe => ?_⟩
        · rcases List.mem_cons.mp member with rfl | member
          · exact letter d first
          · simpa [isModuleChar] using rest' d member
        · obtain rfl := Option.some.inj apostrophe
          exact absurd first (by decide)

/-- The characters before the comment of a header line. -/
theorem headerLine_chars {line : List Char} (header : headerLine line) :
    ∀ c ∈ beforeDashes line, isSpace c = true ∨ isModuleChar c = true := by
  intro c member
  by_contra other
  obtain ⟨space, char⟩ := not_or.mp other
  obtain ⟨word, listed, inside⟩ := Lines.mem_wordsBy member (Bool.eq_false_iff.mpr space)
  exact char ((headerLine_words header word listed).1 c inside)

/-- An apostrophe of a header line stands behind a character of its name. -/
theorem headerLine_apostrophe {line before rest : List Char} (header : headerLine line)
    (split : beforeDashes line = before ++ '\'' :: rest) :
    ∃ first last, before = first ++ [last] ∧ isModuleChar last = true := by
  have none : ¬ (before = [] ∨ ∃ first last, before = first ++ [last] ∧ isSpace last = true) := by
    intro begins
    obtain ⟨word, listed, head⟩ :=
      @Lines.exists_word _ isSpace before rest '\'' (by decide) begins
    rw [← split] at listed
    exact (headerLine_words header word listed).2 head
  rcases List.eq_nil_or_concat before with rfl | ⟨first, last, rfl⟩
  · exact absurd (.inl rfl) none
  · rw [List.concat_eq_append] at split none ⊢
    refine ⟨first, last, rfl, ?_⟩
    have member : last ∈ beforeDashes line := by simp [split]
    rcases headerLine_chars header last member with space | char
    · exact absurd (.inr ⟨first, last, rfl, space⟩) none
    · exact char

omit [Alphanumerics] in
theorem beforeDashes_append (line : List Char) :
    ∃ comment, line = beforeDashes line ++ comment ∧
      (comment = [] ∨ ∃ more, comment = '-' :: '-' :: more) := by
  induction line with
  | nil => exact ⟨[], rfl, .inl rfl⟩
  | cons c rest ih =>
    rw [beforeDashes]
    split
    next dashes =>
      refine ⟨c :: rest, rfl, .inr ?_⟩
      obtain ⟨rfl, second⟩ := dashes
      cases rest with
      | nil => cases second
      | cons d more =>
        obtain rfl := Option.some.inj second
        exact ⟨more, rfl⟩
    next =>
      obtain ⟨comment, same, dashes⟩ := ih
      exact ⟨comment, by rw [List.cons_append, ← same], dashes⟩

/-- Characters that the scanner takes one by one. -/
theorem reads_symbols {text rest : List Char} :
    ∀ {before : List Char},
      (∀ first c last, text = first ++ c :: last →
        opening (first.reverse ++ before) c (last ++ rest) = .symbol) →
      Reads (nextPiece limit) before (text ++ rest) (symbols text) rest := by
  induction text with
  | nil => exact fun _ => .done _ _
  | cons c text ih =>
    intro before plain
    refine (reads_symbol (plain [] c text rfl)).append (ih fun first d last split => ?_)
    have behind := plain (c :: first) d last (by rw [split, List.cons_append])
    simpa using behind

/-- The part of a header line before its comment is taken one by one. -/
theorem reads_headerLine_body (before : List Char) {line rest : List Char} (header : headerLine line)
    (ends : ∀ d ∈ rest.head?, d ≠ '#' ∧ d ≠ '"') :
    Reads (nextPiece limit) before (beforeDashes line ++ rest) (symbols (beforeDashes line)) rest := by
  have other : ∀ c, isSpace c = true ∨ isModuleChar c = true →
      c ∉ ['-', '/', '"', '\u00ab', '\u0060', '#', '\x00'] := by
    intro c known member
    have none := isModuleChar_small c member
    have spaces : ∀ c ∈ ['-', '/', '"', '\u00ab', '\u0060', '#', '\x00'], isSpace c = false :=
      List.all_iff_forall_prop.mp (by decide)
    simp [none, spaces c member] at known
  refine reads_symbols fun first c last split => ?_
  have chars : ∀ d, d ∈ first ++ c :: last → isSpace d = true ∨ isModuleChar d = true := by
    intro d member
    rw [← split] at member
    exact headerLine_chars header d member
  have plain := other c (chars c (by simp))
  refine opening_symbol ?_ (fun _ d head => ?_) fun apostrophe => ?_
  · simp only [List.mem_cons, List.not_mem_nil, or_false, not_or] at plain ⊢
    tauto
  · cases last with
    | nil => exact ends d head
    | cons e last =>
      obtain rfl := Option.some.inj head
      have next := other e (chars e (by simp))
      simp only [List.mem_cons, List.not_mem_nil, or_false, not_or] at next
      tauto
  · subst apostrophe
    obtain ⟨first, d, rfl, char⟩ := headerLine_apostrophe header split
    simp only [isModuleChar, isWord, Bool.or_eq_true, decide_eq_true_eq, List.mem_cons,
      List.not_mem_nil, or_false] at char
    simp only [identBefore, List.reverse_append, List.reverse_cons, List.reverse_nil, List.nil_append,
      List.cons_append, List.head?_cons, Option.any_some, Bool.or_eq_true, decide_eq_true_eq,
      List.mem_cons, List.not_mem_nil, or_false]
    tauto

/-- The code of a header line. -/
def headerCode (line : List Char) : List Char :=
  beforeDashes line ++ if beforeDashes line = line then [] else [' ']

omit [Alphanumerics] in
theorem beforeDashes_again {added : List Char} (other : added.head? ≠ some '-')
    (plain : beforeDashes added = added) (line : List Char) :
    beforeDashes (beforeDashes line ++ added) = beforeDashes line ++ added := by
  have head : ∀ text, (beforeDashes text ++ added).head? = some '-' → text.head? = some '-' := by
    intro text dash
    cases text with
    | nil => exact absurd dash other
    | cons c rest =>
      rw [beforeDashes] at dash
      split at dash
      · exact absurd dash other
      · exact dash
  induction line with
  | nil => exact plain
  | cons c rest ih =>
    rw [beforeDashes]
    split
    · exact plain
    next single =>
      rw [List.cons_append, beforeDashes, if_neg fun both => single ⟨both.1, head rest both.2⟩, ih]

omit [Alphanumerics] in
/-- The blank that a comment becomes is between no words. -/
theorem lineWords_headerCode (line : List Char) : lineWords (headerCode line) = lineWords line := by
  rw [headerCode, lineWords, lineWords]
  split
  · rw [beforeDashes_again (by simp) rfl, List.append_nil]
  · rw [beforeDashes_again (by decide) (by decide), Lines.wordsBy, List.splitOnP_append_cons _ _ rfl,
      List.splitOnP_nil, List.filter_append, Lines.wordsBy]
    simp

/-- A header line is read to its end, with no literal in it. -/
theorem reads_headerLine (before rest : List Char) {line : List Char} (header : headerLine line)
    (single : '\n' ∉ line) :
    ∃ list, Reads (nextPiece limit) before (line ++ '\n' :: rest) list rest ∧
      (∀ piece ∈ list, piece.1.kind ≠ .literal) ∧
      ∀ [LiteralDigest], codeOf list = headerCode line ++ ['\n'] := by
  have symbolic : ∀ text, ∀ piece ∈ symbols text, piece.1.kind ≠ .literal := by
    intro text piece member
    obtain ⟨c, -, rfl⟩ := List.mem_map.mp member
    intro same
    cases same
  obtain ⟨comment, same, rfl | ⟨more, rfl⟩⟩ := beforeDashes_append line
  · rw [List.append_nil] at same
    have body : Reads (nextPiece limit) before (beforeDashes line ++ '\n' :: rest) _ _ :=
      reads_headerLine_body before header (by simp)
    rw [← same] at body
    refine ⟨symbols line ++ symbols ['\n'], body.append (reads_blank (.inr rfl)), ?_, ?_⟩
    · simp only [List.mem_append, or_imp, forall_and]
      exact ⟨symbolic _, symbolic _⟩
    · intro digest
      rw [codeOf_append, codeOf_symbols, codeOf_symbols, headerCode, if_pos same.symm, ← same,
        List.append_nil]
  · have silent : '\n' ∉ '-' :: '-' :: more := fun member =>
      single (by rw [same]; exact List.mem_append_right _ member)
    have body : Reads (nextPiece limit) before
        (beforeDashes line ++ ('-' :: '-' :: more ++ '\n' :: rest)) _ _ :=
      reads_headerLine_body before header (by simp)
    have comment : ∀ context, nextPiece limit context ('-' :: '-' :: more ++ '\n' :: rest) =
        some (⟨.lineComment, true⟩, ('-' :: '-' :: more).length) := by
      intro context
      have line : opening context '-' ('-' :: more ++ '\n' :: rest) = .line := by simp [opening]
      have off : lineEnd ('-' :: more) = .runsOff :=
        lineEnd_eq_runsOff.mpr fun member => silent (List.mem_cons_of_mem _ member)
      rw [nextPiece, List.cons_append, token, line]
      dsimp only
      rw [lineEnd_newline off]
      rfl
    have longer : beforeDashes line ≠ line := by
      intro equal
      have lengths := congrArg List.length same
      simp [equal] at lengths
    refine ⟨symbols (beforeDashes line) ++ ((⟨.lineComment, true⟩, '-' :: '-' :: more) ::
      symbols ['\n']), ?_, ?_, ?_⟩
    · have whole := body.append (.step (comment _) (List.cons_ne_nil _ _) (reads_blank (.inr rfl)))
      rwa [← List.append_assoc, ← same] at whole
    · simp only [List.mem_append, List.mem_cons, or_imp, forall_and, forall_eq]
      exact ⟨symbolic _, fun same => (by cases same), symbolic _⟩
    · intro digest
      rw [codeOf_append, codeOf_symbols, codeOf_cons, codeOf_symbols, headerCode, if_neg longer]
      simp [Piece.code]

end

end

end Sources

end PhysHarness
