import PhysHarness.Sources.Statement
import Mathlib.Data.Bool.AllAny

/-!
# The frame of a statement

A header and a signature are elaborated in one text, with `:= sorry` behind them. A signature may end
in a line comment, which `_unterminated` ends at a newline that the frame does not have.

## Main result

`frame_code_iff`: for an accepted header, name and signature, the code of the frame is that of its parts
and its first top-level `:=` is the frame's, exactly when the signature does not end inside a line
comment.
-/
namespace PhysHarness

namespace Sources

open Lexing

/-- The value of a declaration whose proof is left out. -/
def sorryText : List Char := [' ', 's', 'o', 'r', 'r', 'y', '\n']

/-- The text that a statement is elaborated in. -/
def frame (header name signature : List Char) : List Char :=
  header ++ '\n' :: '\n' :: ("theorem".toList ++ ' ' :: (name ++ ' ' ::
    (signature ++ ' ' :: ':' :: '=' :: sorryText)))

/-- What is behind `theorem` and the name, split at the first `:=` outside brackets. -/
def splitValue : List Char → List Char → Option (List Char × List Char)
  | _, [] => none
  | stack, c :: rest =>
    match closerOf c with
    | some closer => (splitValue (closer :: stack) rest).map fun (before, value) => (c :: before, value)
    | none =>
      if isCloser c then
        match stack with
        | [] => none
        | top :: stack =>
          if top = c then (splitValue stack rest).map fun (before, value) => (c :: before, value)
          else none
      else if stack.isEmpty && c = ':' && rest.head? = some '=' then some ([], rest.drop 1)
      else (splitValue stack rest).map fun (before, value) => (c :: before, value)

theorem rawHashes_none {rest : List Char} (other : ∀ d ∈ rest.head?, d ≠ '#' ∧ d ≠ '"') :
    rawHashes rest = none := by
  cases rest with
  | nil => rfl
  | cons d rest =>
    obtain ⟨hash, quote⟩ := other d rfl
    simp [rawHashes, hash, quote]

theorem isAlphanum_small {c : Char} (letter : c.isAlphanum = true) : c.toNat < 128 := by
  delta Char.isAlphanum Char.isAlpha Char.isUpper Char.isLower Char.isDigit at letter
  simp only [Bool.or_eq_true, Bool.and_eq_true, decide_eq_true_eq, UInt32.le_iff_toNat_le, ge_iff_le] at letter
  have value : c.toNat = c.val.toNat := rfl
  have bounds : 'Z'.val.toNat = 90 ∧ 'z'.val.toNat = 122 ∧ '9'.val.toNat = 57 := ⟨rfl, rfl, rfl⟩
  omega

section

variable [Alphanumerics]

/-- The last piece of the text is a line comment that no newline ends. -/
def endsInLineComment (limit : Nat) (text : List Char) : Bool :=
  match pieces limit text with
  | none => false
  | some list => list.getLast?.any fun piece => piece.1 = ⟨.lineComment, false⟩

variable [LiteralDigest]

/-- The frame reads as its parts, and declares one theorem of this signature with the value `sorry`. -/
def FramedCode (limit : Nat) (header name signature : List Char) : Prop :=
  let before := leanCode limit header ++ "\n\ntheorem ".toList ++ name
  let declared := ' ' :: (leanCode limit signature ++ [' '])
  scanned limit (frame header name signature) =
      some (before ++ declared ++ ':' :: '=' :: sorryText) ∧
    splitValue [] ((leanCode limit (frame header name signature)).drop before.length) =
      some (declared, sorryText)

/-! ### The pieces of the frame -/

/-- Each character is a symbol of its own. -/
def symbols (text : List Char) : List Piece := text.map fun c => (⟨.symbol, true⟩, [c])

omit [Alphanumerics] in
@[simp]
theorem codeOf_symbols (text : List Char) : codeOf (symbols text) = text := by
  induction text with
  | nil => rfl
  | cons c text ih =>
    rw [symbols, List.map_cons, codeOf_cons, ← symbols, ih]
    rfl

omit [Alphanumerics] [LiteralDigest] in
@[simp]
theorem textOf_symbols (text : List Char) : textOf (symbols text) = text := by
  induction text with
  | nil => rfl
  | cons c text ih =>
    rw [symbols, List.map_cons, textOf_cons, ← symbols, ih]
    rfl

omit [LiteralDigest]

variable {limit : Nat}

theorem reads_symbol {before rest : List Char} {c : Char} (symbol : opening before c rest = .symbol) :
    Reads (nextPiece limit) before (c :: rest) (symbols [c]) rest := by
  have found : nextPiece limit before ([c] ++ rest) = some (⟨.symbol, true⟩, [c].length) := by
    rw [nextPiece, List.singleton_append, token, symbol]
    rfl
  exact .step found (List.cons_ne_nil c []) (.done _ _)

/-- Characters that nothing of the scanner's syntax begins with. -/
theorem opening_symbol {before rest : List Char} {c : Char}
    (plain : c ∉ ['-', '/', '"', '\u00ab', '\u0060'])
    (raw : c = 'r' → ∀ d ∈ rest.head?, d ≠ '#' ∧ d ≠ '"')
    (char : c = '\'' → identBefore before = true) : opening before c rest = .symbol := by
  simp only [List.mem_cons, List.not_mem_nil, or_false, not_or] at plain
  obtain ⟨dash, slash, quote, escaped, tick⟩ := plain
  have noRaw : (if c = 'r' ∧ identBefore before = false then rawHashes rest else none) = none := by
    split
    next here => exact rawHashes_none (raw here.1)
    · rfl
  have noChar : (if c = '\'' ∧ identBefore before = false then charEnd rest else none) = none := by
    split
    next here => simp [char here.1] at here
    · rfl
  rw [opening, if_neg (fun both => dash both.1), if_neg (fun both => slash both.1), if_neg quote,
    noRaw, noChar]
  simp [escaped, tick]

theorem identBefore_name {before : List Char} {c : Char} (name : isNameChar c = true) :
    identBefore (c :: before) = true := by
  simp only [isNameChar, Bool.or_eq_true] at name
  simp only [identBefore, List.head?_cons, Option.any_some, Bool.or_eq_true]
  rcases name with letter | other
  · have small : c.toNat ≤ 0xff := Nat.le_trans (Nat.le_of_lt (isAlphanum_small letter)) (by decide)
    exact .inl ((isAlnum_latin small).trans (by simp [isAlnumLatin, letter]))
  · right
    simp only [List.mem_cons, List.not_mem_nil, or_false, decide_eq_true_eq] at other ⊢
    tauto

/-- A name, with a blank behind it, is read as its characters. -/
theorem reads_name {name rest : List Char}
    (blank : rest.head? = some ' ' ∨ rest.head? = some '\n') :
    ∀ {before : List Char}, (∀ c ∈ name, isNameChar c = true) →
      (name.head? = some '\'' → identBefore before = true) →
      Reads (nextPiece limit) before (name ++ rest) (symbols name) rest := by
  induction name with
  | nil => exact fun _ _ => .done _ _
  | cons c name ih =>
    intro before chars first
    have plain : ∀ d ∈ ['-', '/', '"', '\u00ab', '\u0060'], isNameChar d = false :=
      List.all_iff_forall_prop.mp (by rfl)
    have here : isNameChar c = true := chars c List.mem_cons_self
    have symbol : opening before c (name ++ rest) = .symbol := by
      refine opening_symbol ?_ (fun _ d head => ?_) fun same => first (congrArg some same)
      · intro member
        rw [plain c member] at here
        cases here
      · have quiet : ∀ d, isNameChar d = true ∨ d = ' ' ∨ d = '\n' → d ≠ '#' ∧ d ≠ '"' := by
          rintro d name
          constructor <;> rintro rfl <;> revert name <;> decide
        refine quiet d ?_
        cases name with
        | nil =>
          exact .inr (blank.imp (fun blank => Option.some.inj (head.symm.trans blank))
            fun blank => Option.some.inj (head.symm.trans blank))
        | cons e name =>
          obtain rfl := Option.some.inj head
          exact .inl (chars _ (List.mem_cons_of_mem _ List.mem_cons_self))
    exact (reads_symbol symbol).append (ih (fun d member => chars d (List.mem_cons_of_mem _ member))
      fun _ => identBefore_name here)

/-- A blank of the frame is a symbol. -/
theorem reads_blank {before rest : List Char} {c : Char} (blank : c = ' ' ∨ c = '\n') :
    Reads (nextPiece limit) before (c :: rest) (symbols [c]) rest := by
  refine reads_symbol (opening_symbol ?_ ?_ ?_) <;> rcases blank with rfl | rfl <;> simp

theorem nextPiece_unended {before text : List Char} {kind : Kind} {length : Nat}
    (found : nextPiece limit before text = some (⟨kind, false⟩, length)) :
    token (nestedScan limit) before text = (kind, .runsOff) ∧ length = text.length := by
  unfold nextPiece at found
  split at found
  · cases found
  next off =>
    simp only [Option.some.injEq, Prod.mk.injEq, Form.mk.injEq] at found
    obtain ⟨⟨rfl, -⟩, rfl⟩ := found
    exact ⟨off, rfl⟩
  · simp at found

theorem token_newline {nested : Char → List Char → List Char → Extent} {before text added : List Char}
    (quiet : Quiet ('\n' :: added)) (filled : text ≠ [])
    (line : token nested before text = (.lineComment, .runsOff)) :
    token nested before (text ++ '\n' :: added) = (.lineComment, .upTo text.length) := by
  obtain ⟨c, rest, rfl⟩ := List.exists_cons_of_ne_nil filled
  rw [token] at line
  rw [List.cons_append, token, opening_append quiet]
  cases here : opening before c rest <;> rw [here] at line <;>
    simp only [Prod.mk.injEq, reduceCtorEq, false_and, true_and, Extent.shift_eq_runsOff] at line
  rw [lineEnd_newline line]
  rfl

/-- Only the last piece is left open. -/
theorem Closed.cases {before text : List Char} {list : List Piece}
    (reads : Reads (nextPiece limit) before text list []) (closed : Closed list) :
    (∀ piece ∈ list, piece.1.ended = true) ∨
      ∃ first last, list = first ++ [(⟨.lineComment, false⟩, last)] ∧
        ∀ piece ∈ first, piece.1.ended = true := by
  generalize ending : ([] : List Char) = rest at reads
  induction reads with
  | done => exact .inl fun _ member => absurd member List.not_mem_nil
  | @step before piece rest last form pieces found filled more ih =>
    subst ending
    obtain ⟨kind, ended⟩ := form
    cases ended with
    | true =>
      have all : ∀ {list : List Piece}, (∀ piece ∈ list, piece.1.ended = true) →
          ∀ member ∈ ((⟨kind, true⟩, piece) : Piece) :: list, member.1.ended = true := by
        intro list inner member listed
        rcases List.mem_cons.mp listed with rfl | listed
        · rfl
        · exact inner _ listed
      rcases ih (fun piece member => closed piece (List.mem_cons_of_mem _ member)) rfl with
        inner | ⟨first, last, rfl, inner⟩
      · exact .inl (all inner)
      · exact .inr ⟨_ :: first, last, rfl, all inner⟩
    | false =>
      have whole := (nextPiece_unended found).2
      have empty : rest = [] := by
        rw [List.length_append] at whole
        exact List.length_eq_zero_iff.mp (by omega)
      subst empty
      obtain rfl := more.of_nil
      obtain rfl : kind = .lineComment := by simpa [Closed] using closed
      exact .inr ⟨[], piece, rfl, fun _ member => absurd member List.not_mem_nil⟩

/-- A line comment that a text ends in takes what follows up to the next newline. -/
theorem reads_comment {before text added more : List Char} {first : List Piece} {last : List Char}
    (reads : Reads (nextPiece limit) before text (first ++ [(⟨.lineComment, false⟩, last)]) [])
    (ended : ∀ piece ∈ first, piece.1.ended = true) (quiet : Quiet (added ++ '\n' :: more))
    (line : '\n' ∉ added) :
    Reads (nextPiece limit) before (text ++ (added ++ '\n' :: more))
      (first ++ [(⟨.lineComment, true⟩, last ++ added)]) ('\n' :: more) := by
  obtain ⟨rest, one, two⟩ := reads.split
  obtain ⟨rfl, filled, found⟩ := two.single
  refine (reads_append quiet one ended).append ?_
  rw [← List.append_assoc]
  have off := (nextPiece_unended found).1
  obtain ⟨c, tail, rfl⟩ := List.exists_cons_of_ne_nil filled
  have behind : token (nestedScan limit) ((textOf first).reverse ++ before)
      (c :: tail ++ added ++ '\n' :: more) = (.lineComment, .upTo (c :: tail ++ added).length) := by
    rw [token] at off
    rw [List.append_assoc, List.cons_append, token, opening_append quiet]
    cases here : opening ((textOf first).reverse ++ before) c tail <;> rw [here] at off <;>
      simp only [Prod.mk.injEq, reduceCtorEq, false_and, true_and, Extent.shift_eq_runsOff] at off
    have open' : lineEnd (tail ++ added) = .runsOff := by
      rw [lineEnd_eq_runsOff] at off ⊢
      simp [off, line]
    dsimp only
    rw [← List.append_assoc, lineEnd_newline open']
    rfl
  have found' : nextPiece limit ((textOf first).reverse ++ before)
      (c :: tail ++ added ++ '\n' :: more) =
        some (⟨.lineComment, true⟩, (c :: tail ++ added).length) := by
    rw [nextPiece, behind]
  exact .step found' (by simp) (.done _ _)

/-- A newline ends the line comment that a text may end in. -/
theorem reads_newline {before text added : List Char} {list : List Piece}
    (reads : Reads (nextPiece limit) before text list []) (closed : Closed list)
    (quiet : Quiet ('\n' :: added)) :
    ∃ ended, Reads (nextPiece limit) before (text ++ '\n' :: added) ended ('\n' :: added) ∧
      ∀ [LiteralDigest], codeOf ended = codeOf list := by
  rcases closed.cases reads with ended | ⟨first, last, rfl, ended⟩
  · exact ⟨list, reads_append quiet reads ended, fun {_} => rfl⟩
  · have comment := @reads_comment _ limit before _ [] _ _ _ reads ended quiet List.not_mem_nil
    exact ⟨_, comment, by intro digest; simp only [codeOf_append]; rfl⟩

/-! ### The frame -/

section

variable {header name signature : List Char} [LiteralDigest]

theorem leanCode_of_reads {text : List Char} {list : List Piece}
    (reads : Reads (nextPiece limit) [] text list []) : leanCode limit text = codeOf list := by
  rw [leanCode, scanned, pieces_iff.mpr reads]
  rfl

theorem headerProblem_none (accepted : headerProblem limit (some header) = none) :
    unterminated limit header = false := by
  simp only [headerProblem] at accepted
  split at accepted
  · cases accepted
  · split at accepted
    · cases accepted
    next passes => simpa using passes

theorem signatureProblem_none (accepted : signatureProblem limit signature = none) :
    unterminated limit signature = false ∧
      shape [] false [] (leanCode limit signature) = none := by
  simp only [signatureProblem] at accepted
  split at accepted
  · cases accepted
  split at accepted
  · cases accepted
  next code found =>
    split at accepted
    · cases accepted
    split at accepted
    · cases accepted
    next passes =>
      split at accepted
      · cases accepted
      next plain =>
        rw [leanCode, found]
        exact ⟨by simpa using passes, plain⟩

omit [Alphanumerics] [LiteralDigest] in
theorem leanName_chars (named : leanName name = true) :
    (∀ c ∈ name, isNameChar c = true) ∧ name.head? ≠ some '\'' := by
  cases name with
  | nil => cases named
  | cons c rest =>
    simp only [leanName, Bool.and_eq_true, Bool.or_eq_true, decide_eq_true_eq, List.all_eq_true]
      at named
    obtain ⟨⟨first, others⟩, -⟩ := named
    have letter : isNameChar c = true := by
      rcases first with letter | rfl
      · simp [isNameChar, Char.isAlphanum, letter]
      · rfl
    refine ⟨fun d member => ?_, ?_⟩
    · rcases List.mem_cons.mp member with rfl | member
      · exact letter
      · exact others d member
    · intro apostrophe
      obtain rfl := Option.some.inj apostrophe
      exact absurd first (by decide)

/-- Up to the signature the frame reads as its parts, whatever follows. -/
theorem reads_frame (signature : List Char) (accepted : headerProblem limit (some header) = none)
    (named : leanName name = true) :
    ∃ list, Reads (nextPiece limit) [] (frame header name signature) list
        (signature ++ ' ' :: ':' :: '=' :: sorryText) ∧
      codeOf list = leanCode limit header ++ "\n\ntheorem ".toList ++ name ++ [' '] ∧
      identBefore (textOf list).reverse = false := by
  obtain ⟨pieces, reads, closed⟩ := reads_of_unterminated (headerProblem_none accepted)
  obtain ⟨chars, first⟩ := leanName_chars named
  have quiet : Quiet ('\n' :: '\n' :: ("theorem".toList ++ ' ' ::
      (name ++ ' ' :: (signature ++ ' ' :: ':' :: '=' :: sorryText)))) :=
    ⟨'\n', _, rfl, .inr rfl, by simp⟩
  obtain ⟨ended, header, code⟩ := reads_newline reads closed quiet
  have word : ∀ c ∈ "theorem".toList, isNameChar c = true :=
    List.all_iff_forall_prop.mp (by decide)
  refine ⟨_, header.append ((reads_blank (.inr rfl)).append ((reads_blank (.inr rfl)).append
    ((reads_name (.inl rfl) word fun other => absurd other (by decide)).append
      ((reads_blank (.inl rfl)).append
      ((reads_name (.inl rfl) chars fun apostrophe => absurd apostrophe first).append
        (reads_blank (.inl rfl))))))), ?_, ?_⟩
  · simp [code, leanCode_of_reads reads]
  · simp [identBefore, isAlnum_latin, isAlnumLatin]

omit [LiteralDigest] in
/-- The walk over the code finds the frame's `:=` behind a plain signature. -/
theorem splitValue_shape {code : List Char} (value : List Char) :
    ∀ {stack before : List Char} {bar : Bool}, shape stack bar before code = none →
      splitValue stack (code ++ ' ' :: ':' :: '=' :: value) = some (code ++ [' '], value) := by
  induction code with
  | nil =>
    intro stack before bar plain
    cases stack with
    | nil => rfl
    | cons => simp [shape] at plain
  | cons c rest ih =>
    intro stack before bar plain
    rw [shape.eq_def] at plain
    rw [List.cons_append, splitValue.eq_def]
    dsimp only at plain ⊢
    cases opens : closerOf c with
    | some closer =>
      simp only [opens] at plain ⊢
      rw [ih plain]
      rfl
    | none =>
      simp only [opens] at plain ⊢
      split
      next closes =>
        rw [if_pos closes] at plain
        cases stack with
        | nil => cases plain
        | cons top stack =>
          simp only at plain ⊢
          split
          next same =>
            rw [if_pos same] at plain
            rw [ih plain]
            rfl
          next other =>
            rw [if_neg other] at plain
            cases plain
      next inside =>
        rw [if_neg inside] at plain
        have behind : (rest ++ ' ' :: ':' :: '=' :: value).head? = some '=' ↔ rest.head? = some '=' := by
          cases rest <;> simp
        split
        next assigns =>
          -- the signature has no `:=` outside brackets
          simp only [Bool.and_eq_true, decide_eq_true_eq, behind] at assigns
          obtain ⟨⟨top, colon⟩, equals⟩ := assigns
          simp [top, colon, equals] at plain
        next =>
          have more : ∃ bar, shape stack bar (c :: before) rest = none := by
            split at plain
            · exact ⟨_, plain⟩
            next top =>
              obtain rfl : stack = [] := by simpa using top
              split at plain
              · cases plain
              split at plain
              · exact ⟨_, plain⟩
              split at plain
              · cases plain
              split at plain
              · cases plain
              · exact ⟨_, plain⟩
          obtain ⟨bar, plain⟩ := more
          rw [ih plain]
          rfl

omit [LiteralDigest] in
theorem reads_value {before : List Char} :
    Reads (nextPiece limit) before (' ' :: ':' :: '=' :: sorryText)
      (symbols (' ' :: ':' :: '=' :: sorryText)) [] := by
  have colon : opening (' ' :: before) ':' ('=' :: sorryText) = .symbol :=
    opening_symbol (by decide) (by simp) (by simp)
  have equals : opening (':' :: ' ' :: before) '=' sorryText = .symbol :=
    opening_symbol (by decide) (by simp) (by simp)
  have name : ∀ c ∈ ['s', 'o', 'r', 'r', 'y'], isNameChar c = true :=
    List.all_iff_forall_prop.mp (by decide)
  have word : Reads (nextPiece limit) (' ' :: '=' :: ':' :: ' ' :: before)
      (['s', 'o', 'r', 'r', 'y'] ++ ['\n']) (symbols ['s', 'o', 'r', 'r', 'y']) ['\n'] :=
    reads_name (.inr rfl) name fun other => absurd other (by decide)
  exact (reads_blank (.inl rfl)).append ((reads_symbol colon).append ((reads_symbol equals).append
    ((reads_blank (.inl rfl)).append (word.append (reads_blank (.inr rfl))))))

omit [LiteralDigest] in
theorem endsInLineComment_of_reads {text : List Char} {list : List Piece}
    (reads : Reads (nextPiece limit) [] text list []) :
    endsInLineComment limit text =
      list.getLast?.any fun piece => piece.1 = ⟨.lineComment, false⟩ := by
  rw [endsInLineComment, pieces_iff.mpr reads]

/-- A signature that nothing is open behind is read as it is, and its first top-level `:=` is the frame's. -/
theorem framedCode_of_ended (accepted : headerProblem limit (some header) = none)
    (plain : signatureProblem limit signature = none) (named : leanName name = true)
    (line : endsInLineComment limit signature = false) : FramedCode limit header name signature := by
  obtain ⟨passes, shaped⟩ := signatureProblem_none plain
  obtain ⟨outer, reads, code, clear⟩ := reads_frame signature accepted named
  obtain ⟨pieces, alone, closed⟩ := reads_of_unterminated passes
  have signed : leanCode limit signature = codeOf pieces := leanCode_of_reads alone
  have ended : ∀ piece ∈ pieces, piece.1.ended = true := by
    rcases closed.cases alone with ended | ⟨first, last, rfl, -⟩
    · exact ended
    · rw [endsInLineComment_of_reads alone, List.getLast?_concat] at line
      cases line
  have quiet : Quiet (' ' :: ':' :: '=' :: sorryText) := ⟨' ', _, rfl, .inl rfl, by decide⟩
  have inner := (reads_append quiet alone ended).append reads_value
  have clear' : identBefore ((textOf outer).reverse ++ []) = false := by rwa [List.append_nil]
  have whole := reads.append ((reads_alone clear').mpr inner)
  have framed : scanned limit (frame header name signature) =
      some (leanCode limit header ++ "\n\ntheorem ".toList ++ name ++
        ' ' :: (leanCode limit signature ++ [' ']) ++ ':' :: '=' :: sorryText) := by
    rw [scanned, pieces_iff.mpr whole, signed]
    simp [code]
  refine ⟨framed, ?_⟩
  have code' : leanCode limit (frame header name signature) = _ :=
    congrArg (fun code => code.getD []) framed
  rw [code', Option.getD_some, List.append_assoc (leanCode limit header ++ _ ++ name),
    List.drop_left, List.cons_append, List.append_assoc]
  have first : splitValue [] (' ' :: (leanCode limit signature ++ ' ' :: ':' :: '=' :: sorryText)) =
      (splitValue [] (leanCode limit signature ++ ' ' :: ':' :: '=' :: sorryText)).map
        fun (before, value) => (' ' :: before, value) := rfl
  exact first.trans (by rw [splitValue_shape sorryText shaped]; rfl)

/-- A line comment that the signature ends in takes the value with it. -/
theorem not_framedCode_of_comment (accepted : headerProblem limit (some header) = none)
    (plain : signatureProblem limit signature = none) (named : leanName name = true)
    (line : endsInLineComment limit signature = true) : ¬ FramedCode limit header name signature := by
  rintro ⟨framed, -⟩
  obtain ⟨outer, reads, code, clear⟩ := reads_frame signature accepted named
  obtain ⟨pieces, alone, closed⟩ := reads_of_unterminated (signatureProblem_none plain).1
  rcases closed.cases alone with ended | ⟨first, last, rfl, ended⟩
  · rw [endsInLineComment_of_reads alone] at line
    cases last : pieces.getLast? with
    | none => simp [last] at line
    | some piece =>
      have complete := ended piece (List.mem_of_getLast? last)
      simp only [last, Option.any_some, decide_eq_true_eq] at line
      rw [line] at complete
      cases complete
  · have quiet : Quiet ([' ', ':', '=', ' ', 's', 'o', 'r', 'r', 'y'] ++ ['\n']) :=
      ⟨' ', _, rfl, .inl rfl, by decide⟩
    have inner := (reads_comment alone ended quiet (by decide)).append (reads_blank (.inr rfl))
    have clear' : identBefore ((textOf outer).reverse ++ []) = false := by rwa [List.append_nil]
    have swallowed := pieces_iff.mpr (reads.append ((reads_alone clear').mpr inner))
    rw [scanned, swallowed, leanCode_of_reads alone] at framed
    have lengths := congrArg List.length (Option.some.inj framed)
    have comment : ∀ ended text, (codeOf [((⟨.lineComment, ended⟩, text) : Piece)]).length = 1 :=
      fun _ _ => rfl
    simp only [codeOf_append, codeOf_symbols, code, comment, sorryText, List.length_append,
      List.length_cons, List.length_nil] at lengths
    omega

/-- The code of the frame is that of its parts, with `sorry` as the value of the one declaration, exactly
when the signature does not end inside a line comment. -/
theorem frame_code_iff (limit : Nat) (header name signature : List Char)
    (accepted : headerProblem limit (some header) = none)
    (plain : signatureProblem limit signature = none) (named : leanName name = true) :
    FramedCode limit header name signature ↔ endsInLineComment limit signature = false := by
  constructor
  · intro framed
    by_contra line
    exact not_framedCode_of_comment accepted plain named (by simpa using line) framed
  · exact framedCode_of_ended accepted plain named

end

end

end Sources

namespace Scenario

open Sources

/-- Nothing behind U+00FF is alphanumeric. -/
@[reducible] def latinLetters : Alphanumerics := ⟨isAlnumLatin, fun _ _ => rfl⟩

/-- Every literal has one digest. -/
@[reducible] def oneDigest : LiteralDigest where
  digits _ := List.replicate 16 '0'
  hex _ c member := by
    obtain rfl := List.eq_of_mem_replicate member
    decide
  size _ := List.length_replicate

section

local instance frameLetters : Alphanumerics := latinLetters
local instance frameDigest : LiteralDigest := oneDigest

theorem statement_framed :
    FramedCode 8 "import Mathlib\nopen Real -- the reals".toList "sq_nonneg'".toList
      "(x : ℝ) : s!\"{x}\" = s!\"{x}\" /- printed -/".toList :=
  (frame_code_iff 8 _ _ _ (by decide) (by decide +kernel) (by decide)).mpr
    (by decide +kernel)

/-- The comment at the end of an accepted signature takes the frame's `:= sorry`. -/
theorem comment_takes_value : ¬ ∀ header name signature, headerProblem 8 (some header) = none →
    signatureProblem 8 signature = none → leanName name = true →
      FramedCode 8 header name signature := by
  intro claim
  exact not_framedCode_of_comment (by decide) (by decide) (by decide)
    (by decide)
    (claim [] "t".toList ": True -- trivial".toList (by decide) (by decide)
      (by decide))

end

end Scenario

end PhysHarness
