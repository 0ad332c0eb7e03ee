import PhysHarness.Lib.JsonRead
import Mathlib.Data.Bool.AllAny

/-!
JSON text in ASCII.

`ensure_ascii` writes every character outside printable ASCII as an escape. In the text of a value a
backslash only stands before an escape, so the text is known from its ASCII form.
Main result: `ascii_render_inj`.
-/
namespace Json

def hex4 (n : Nat) : List Char :=
  [n / 4096 % 16, n / 256 % 16, n / 16 % 16, n % 16].map hexDigit

/-- What `ensure_ascii` makes of a character of the text; those past U+FFFF are surrogate pairs. -/
def asciiChar (c : Char) : List Char :=
  if 32 ≤ c.toNat ∧ c.toNat < 127 then [c]
  else if c.toNat < 0x10000 then '\\' :: 'u' :: hex4 c.toNat
  else
    let rest := c.toNat - 0x10000
    '\\' :: 'u' :: hex4 (0xD800 + rest / 0x400) ++ '\\' :: 'u' :: hex4 (0xDC00 + rest % 0x400)

/-- The text before `ensure_ascii`: the escapes of control characters were there already. -/
def unascii : Nat → List Char → List Char
  | 0, _ => []
  | _ + 1, [] => []
  | fuel + 1, first :: rest =>
    if first = '\\' then
      match rest with
      | [] => [first]
      | mark :: rest =>
        if mark = 'u' then
          match readUnicode rest with
          | some (c, after) =>
            if c.toNat < 32 then first :: mark :: unascii fuel rest else c :: unascii fuel after
          | none => []
        else first :: mark :: unascii fuel rest
    else first :: unascii fuel rest

/-- The text is known from its ASCII form, whatever follows. -/
def Known (text : List Char) : Prop :=
  ∃ units, ∀ fuel rest, unascii (fuel + units) (text.flatMap asciiChar ++ rest) =
    text ++ unascii fuel rest

theorem Known.nil : Known [] := ⟨0, fun _ _ => rfl⟩

theorem Known.append {first second : List Char} (one : Known first) (two : Known second) :
    Known (first ++ second) := by
  obtain ⟨before, one⟩ := one
  obtain ⟨after, two⟩ := two
  refine ⟨after + before, fun fuel rest => ?_⟩
  rw [List.flatMap_append, List.append_assoc, ← Nat.add_assoc, one, two, List.append_assoc]

/-! ### Characters -/

theorem hexCode_hex4 {n : Nat} (small : n < 0x10000) (rest : List Char) :
    ∃ a b c d, hex4 n ++ rest = a :: b :: c :: d :: rest ∧ hexCode a b c d = some n := by
  have digit : ∀ k < 16, hexValue (hexDigit k) = some k := by decide
  refine ⟨_, _, _, _, rfl, ?_⟩
  simp only [hexCode, digit _ (Nat.mod_lt _ (show 0 < 16 by decide)), Option.bind_eq_bind,
    Option.bind_some, Option.pure_def, Option.some.injEq]
  omega

theorem readUnicode_single {n : Nat} (scalar : n < 0xD800 ∨ 0xE000 ≤ n) (small : n < 0x10000)
    (rest : List Char) : readUnicode (hex4 n ++ rest) = some (.ofNat n, rest) := by
  obtain ⟨a, b, c, d, shape, code⟩ := hexCode_hex4 small rest
  simp [shape, readUnicode, code, scalar]

theorem readUnicode_pair {high low : Nat} (first : 0xD800 ≤ high ∧ high < 0xDC00)
    (second : 0xDC00 ≤ low ∧ low < 0xE000) (rest : List Char) :
    readUnicode (hex4 high ++ '\\' :: 'u' :: (hex4 low ++ rest)) =
      some (.ofNat (0x10000 + (high - 0xD800) * 0x400 + (low - 0xDC00)), rest) := by
  obtain ⟨a, b, c, d, shape, code⟩ := hexCode_hex4 (show high < 0x10000 by omega)
    ('\\' :: 'u' :: (hex4 low ++ rest))
  obtain ⟨e, f, g, h, more, other⟩ := hexCode_hex4 (show low < 0x10000 by omega) rest
  have surrogate : ¬ (high < 0xD800 ∨ 0xE000 ≤ high) := by omega
  have pair : high < 0xDC00 ∧ 0xDC00 ≤ low ∧ low < 0xE000 := by omega
  rw [shape, more]
  simp only [readUnicode, code, other, Option.bind_eq_bind, Option.bind_some, if_neg surrogate,
    if_pos pair, Option.pure_def]

/-- A character outside ASCII is read from its escape. -/
theorem readUnicode_ascii {c : Char} (outside : ¬ (32 ≤ c.toNat ∧ c.toNat < 127)) (rest : List Char) :
    ∃ code, asciiChar c ++ rest = '\\' :: 'u' :: code ∧ readUnicode code = some (c, rest) := by
  have valid : c.toNat < 0xD800 ∨ (0xDFFF < c.toNat ∧ c.toNat < 0x110000) := c.valid
  unfold asciiChar
  rw [if_neg outside]
  split
  next small =>
    refine ⟨hex4 c.toNat ++ rest, rfl, ?_⟩
    rw [readUnicode_single (by omega) small, Char.ofNat_toNat]
  next large =>
    obtain ⟨more, split⟩ : ∃ more, c.toNat = 0x10000 + more := ⟨c.toNat - 0x10000, by omega⟩
    have rest' : c.toNat - 0x10000 = more := by omega
    have whole : 0x10000 + (0xD800 + more / 0x400 - 0xD800) * 0x400 +
        (0xDC00 + more % 0x400 - 0xDC00) = c.toNat := by omega
    refine ⟨hex4 (0xD800 + more / 0x400) ++ '\\' :: 'u' :: (hex4 (0xDC00 + more % 0x400) ++ rest),
      by simp [rest'], ?_⟩
    rw [readUnicode_pair (by omega) (by omega), whole, Char.ofNat_toNat]

theorem Known.plain {c : Char} (solid : c ≠ '\\') (printed : 32 ≤ c.toNat) : Known [c] := by
  refine ⟨1, fun fuel rest => ?_⟩
  rw [List.flatMap_cons, List.flatMap_nil, List.append_nil]
  by_cases inside : 32 ≤ c.toNat ∧ c.toNat < 127
  · simp only [asciiChar, if_pos inside, List.singleton_append, unascii, if_neg solid]
  · obtain ⟨code, shape, read⟩ := readUnicode_ascii inside rest
    have high : ¬ c.toNat < 32 := by omega
    simp only [shape, unascii, if_true, read, if_neg high, List.singleton_append]

theorem Known.of_plain {text : List Char} (plain : ∀ c ∈ text, c ≠ '\\' ∧ 32 ≤ c.toNat) :
    Known text := by
  induction text with
  | nil => exact .nil
  | cons c text ih =>
    obtain ⟨⟨solid, printed⟩, later⟩ := List.forall_mem_cons.mp plain
    exact (Known.plain solid printed).append (ih later)

/-- A short escape. -/
theorem Known.escape {mark : Char} (other : mark ≠ 'u') (inside : 32 ≤ mark.toNat ∧ mark.toNat < 127) :
    Known ['\\', mark] := by
  refine ⟨1, fun fuel rest => ?_⟩
  have ascii : ['\\', mark].flatMap asciiChar = ['\\', mark] := by
    simp [asciiChar, inside]
  simp [ascii, unascii, other]

theorem hexDigit_ascii : ∀ k < 16, asciiChar (hexDigit k) = [hexDigit k] := by decide

/-- The escape of a control character. -/
theorem Known.control {n : Nat} (low : n < 32) :
    Known ['\\', 'u', '0', '0', hexDigit (n / 16), hexDigit (n % 16)] := by
  -- it is kept, and its digits follow as plain characters
  have digits : Known ['0', '0', hexDigit (n / 16), hexDigit (n % 16)] := by
    refine .of_plain ?_
    have plain : ∀ k < 16, hexDigit k ≠ '\\' ∧ 32 ≤ (hexDigit k).toNat := by decide
    simp [plain (n / 16) (by omega), plain (n % 16) (by omega)]
  obtain ⟨units, kept⟩ := digits
  refine ⟨units + 1, fun fuel tail => ?_⟩
  have high := hexDigit_ascii (n / 16) (by omega)
  have rest := hexDigit_ascii (n % 16) (by omega)
  have zero : asciiChar '0' = ['0'] := by decide
  have slash : asciiChar '\\' = ['\\'] := by decide
  have letter : asciiChar 'u' = ['u'] := by decide
  have ascii : ['0', '0', hexDigit (n / 16), hexDigit (n % 16)].flatMap asciiChar ++ tail =
      '0' :: '0' :: hexDigit (n / 16) :: hexDigit (n % 16) :: tail := by
    simp [high, rest, zero]
  have whole : ['\\', 'u', '0', '0', hexDigit (n / 16), hexDigit (n % 16)].flatMap asciiChar ++ tail =
      '\\' :: 'u' :: '0' :: '0' :: hexDigit (n / 16) :: hexDigit (n % 16) :: tail := by
    simp [high, rest, zero, slash, letter]
  have read : readUnicode ('0' :: '0' :: hexDigit (n / 16) :: hexDigit (n % 16) :: tail) =
      some (.ofNat n, tail) := by
    have scalar : n < 0xD800 := by omega
    simp [readUnicode, hexCode_control n low, scalar]
  have controls : ∀ k < 32, (Char.ofNat k).toNat < 32 := by decide
  have small := controls n low
  have keeps := kept fuel tail
  rw [ascii] at keeps
  rw [whole, ← Nat.add_assoc, unascii]
  simp [read, small, keeps]

/-! ### Values -/

theorem Known.escapeChar (c : Char) : Known (escapeChar c) := by
  unfold Json.escapeChar
  split_ifs with quote slash _ _ _ _ _ low
  all_goals first
    | exact .escape (by decide) (by decide)
    | exact .control low
    | exact .plain slash (Nat.le_of_not_lt low)

theorem Known.quoted (text : String) : Known (quoted text) := by
  have quote : Known ['"'] := .plain (by decide) (by decide)
  have body : ∀ chars : List Char, Known (chars.flatMap Json.escapeChar) := by
    intro chars
    induction chars with
    | nil => exact .nil
    | cons c chars ih => exact (Known.escapeChar c).append ih
  exact quote.append ((body text.toList).append quote)

theorem Known.number {text : List Char} (chars : ∀ c ∈ text, JsonNumber.isNumberChar c = true) :
    Known text := by
  refine .of_plain fun c member => ?_
  have number := chars c member
  rw [JsonNumber.isNumberChar, Bool.or_eq_true, decide_eq_true_iff] at number
  rcases number with digit | mark
  · have range : 48 ≤ c.toNat ∧ c.toNat ≤ 57 := by simpa [Char.isDigit, UInt32.le_iff_toNat_le] using digit
    refine ⟨?_, by omega⟩
    rintro rfl
    exact absurd digit (by decide)
  · have marks : ∀ d ∈ ['.', 'e', 'E', '+', '-'], d ≠ '\\' ∧ 32 ≤ d.toNat := by simp
    exact marks c mark

theorem known_items {items : List Json} (each : ∀ item ∈ items, Known (render compact item)) :
    Known (renderItems compact items) := by
  induction items with
  | nil => exact .plain (by decide) (by decide)
  | cons item items ih =>
    obtain ⟨first, later⟩ := List.forall_mem_cons.mp each
    have comma : Known [','] := .plain (by decide) (by decide)
    exact comma.append (first.append (ih later))

theorem known_field {key : String} {item : Json} {rest : List Char} (value : Known (render compact item))
    (later : Known rest) : Known (quoted key ++ ':' :: (render compact item ++ rest)) := by
  have colon : Known [':'] := .plain (by decide) (by decide)
  exact (Known.quoted key).append (colon.append (value.append later))

theorem known_fields {fields : List (String × Json)}
    (each : ∀ field ∈ fields, Known (render compact field.2)) :
    Known (renderFields compact fields) := by
  induction fields with
  | nil => exact .plain (by decide) (by decide)
  | cons field fields ih =>
    obtain ⟨first, later⟩ := List.forall_mem_cons.mp each
    have comma : Known [','] := .plain (by decide) (by decide)
    exact comma.append (known_field first (ih later))

/-- The compact text of a value is known from its ASCII form. -/
theorem known_render (value : Json) : Known (render compact value) := by
  have plain : ∀ c ∈ ['[', '{', ']', '}'], c ≠ '\\' ∧ 32 ≤ c.toNat := by simp
  -- the induction is over the value, its lists of items and its lists of fields
  refine @Json.rec (fun value => Known (render compact value))
    (fun items => ∀ item ∈ items, Known (render compact item))
    (fun fields => ∀ field ∈ fields, Known (render compact field.2))
    (fun field => Known (render compact field.2))
    ?null ?bool ?int ?float ?str ?arr ?obj ?noItems ?items ?noFields ?fields ?field value
  case null => exact .of_plain (List.all_iff_forall_prop.mp (by decide))
  case bool => rintro (_ | _) <;> exact .of_plain (List.all_iff_forall_prop.mp (by decide))
  case int => exact fun value => .number (renderInt_chars value).1
  case float => exact fun value => .number (float_chars value).1
  case str => exact fun text => .quoted text
  case arr =>
    intro items each
    cases items with
    | nil => exact .of_plain (List.all_iff_forall_prop.mp (by decide))
    | cons item items =>
      obtain ⟨first, later⟩ := List.forall_mem_cons.mp each
      have bracket : Known ['['] := .plain (by decide) (by decide)
      exact bracket.append (first.append (known_items later))
  case obj =>
    intro fields each
    cases fields with
    | nil => exact .of_plain (List.all_iff_forall_prop.mp (by decide))
    | cons field fields =>
      obtain ⟨first, later⟩ := List.forall_mem_cons.mp each
      have brace : Known ['{'] := .plain (by decide) (by decide)
      exact brace.append (known_field first (known_fields later))
  case noItems => exact fun _ member => nomatch member
  case items => exact fun _ _ first later => List.forall_mem_cons.mpr ⟨first, later⟩
  case noFields => exact fun _ member => nomatch member
  case fields => exact fun _ _ first later => List.forall_mem_cons.mpr ⟨first, later⟩
  case field => exact fun _ _ known => known

theorem Known.eq_of_ascii {first second : List Char} (one : Known first) (two : Known second)
    (same : first.flatMap asciiChar = second.flatMap asciiChar) : first = second := by
  obtain ⟨before, one⟩ := one
  obtain ⟨after, two⟩ := two
  have ends : ∀ fuel, unascii fuel [] = [] := by rintro (_ | _) <;> rfl
  have left := one after []
  have right := two before []
  rw [ends, same] at left
  rw [ends, Nat.add_comm before] at right
  rw [left, List.append_nil, List.append_nil] at right
  exact right

/-- Values with one compact ASCII text are one value. -/
theorem ascii_render_inj {first second : Json}
    (same : (render compact first).flatMap asciiChar = (render compact second).flatMap asciiChar) :
    first = second := by
  have texts := (known_render first).eq_of_ascii (known_render second) same
  exact dumps_inj (congrArg String.ofList texts)

/-! ### Reading ASCII text -/

/-- `ensure_ascii` over a whole text. -/
abbrev ascii (text : List Char) : List Char := text.flatMap asciiChar

/-- No control characters, as in the text that the encoder writes. -/
def Printed (text : List Char) : Prop := ∀ c ∈ text, 32 ≤ c.toNat

instance (text : List Char) : Decidable (Printed text) := List.decidableBAll _ _

theorem Printed.tail {c : Char} {text : List Char} (printed : Printed (c :: text)) : Printed text :=
  fun d member => printed d (List.mem_cons_of_mem c member)

theorem Printed.of_suffix {first second : List Char} (printed : Printed second)
    (suffix : first <:+ second) : Printed first := fun c member => printed c (suffix.subset member)

theorem ascii_plain {c : Char} (inside : 32 ≤ c.toNat ∧ c.toNat < 127) (text : List Char) :
    ascii (c :: text) = c :: ascii text := by
  rw [ascii, List.flatMap_cons, asciiChar, if_pos inside]
  rfl

/-- A character outside printable ASCII becomes an escape. -/
theorem ascii_escaped {c : Char} (outside : ¬ (32 ≤ c.toNat ∧ c.toNat < 127)) (text : List Char) :
    ∃ code, ascii (c :: text) = '\\' :: 'u' :: code ∧ readUnicode code = some (c, ascii text) := by
  obtain ⟨code, shape, read⟩ := readUnicode_ascii outside (ascii text)
  exact ⟨code, by rw [ascii, List.flatMap_cons]; exact shape, read⟩

theorem length_ascii (text : List Char) : text.length ≤ (ascii text).length := by
  induction text with
  | nil => exact Nat.le_refl _
  | cons c text ih =>
    have one : 1 ≤ (asciiChar c).length := by
      unfold asciiChar
      split_ifs <;> exact Nat.succ_le_succ (Nat.zero_le _)
    show text.length + 1 ≤ (asciiChar c ++ ascii text).length
    rw [List.length_append]
    omega

/-- What a test of ASCII characters takes off the text, it takes off the ASCII text. -/
theorem dropWhile_ascii {test : Char → Bool} (tests : ∀ c, test c = true → 32 ≤ c.toNat → c.toNat < 127)
    (slash : test '\\' = false) {text : List Char} (printed : Printed text) :
    (ascii text).dropWhile test = ascii (text.dropWhile test) := by
  induction text with
  | nil => rfl
  | cons c text ih =>
    have low : 32 ≤ c.toNat := printed c List.mem_cons_self
    cases passed : test c with
    | true =>
      rw [ascii_plain ⟨low, tests c passed low⟩, List.dropWhile_cons_of_pos passed,
        List.dropWhile_cons_of_pos passed]
      exact ih printed.tail
    | false =>
      rw [List.dropWhile_cons_of_neg (l := text) (by simp [passed])]
      by_cases inside : 32 ≤ c.toNat ∧ c.toNat < 127
      · rw [ascii_plain inside, List.dropWhile_cons_of_neg (by simp [passed])]
      · obtain ⟨code, shape, -⟩ := ascii_escaped inside text
        rw [shape, List.dropWhile_cons_of_neg (by simp [slash])]

theorem takeWhile_ascii {test : Char → Bool} (tests : ∀ c, test c = true → 32 ≤ c.toNat → c.toNat < 127)
    (slash : test '\\' = false) {text : List Char} (printed : Printed text) :
    (ascii text).takeWhile test = text.takeWhile test := by
  induction text with
  | nil => rfl
  | cons c text ih =>
    have low : 32 ≤ c.toNat := printed c List.mem_cons_self
    cases passed : test c with
    | true =>
      rw [ascii_plain ⟨low, tests c passed low⟩, List.takeWhile_cons_of_pos passed,
        List.takeWhile_cons_of_pos passed, ih printed.tail]
    | false =>
      rw [List.takeWhile_cons_of_neg (l := text) (by simp [passed])]
      by_cases inside : 32 ≤ c.toNat ∧ c.toNat < 127
      · rw [ascii_plain inside, List.takeWhile_cons_of_neg (by simp [passed])]
      · obtain ⟨code, shape, -⟩ := ascii_escaped inside text
        rw [shape, List.takeWhile_cons_of_neg (by simp [slash])]

theorem isSpace_ascii (c : Char) (space : isSpace c = true) (_ : 32 ≤ c.toNat) : c.toNat < 127 := by
  have known : ∀ d ∈ [' ', '\t', '\n', '\r'], d.toNat < 127 := by simp
  exact known c (of_decide_eq_true space)

theorem skipSpace_ascii {text : List Char} (printed : Printed text) :
    skipSpace (ascii text) = ascii (skipSpace text) :=
  dropWhile_ascii isSpace_ascii rfl printed

theorem isNumberChar_ascii (c : Char) (number : JsonNumber.isNumberChar c = true) (_ : 32 ≤ c.toNat) :
    c.toNat < 127 := by
  rw [JsonNumber.isNumberChar, Bool.or_eq_true, decide_eq_true_iff] at number
  rcases number with digit | mark
  · have range : 48 ≤ c.toNat ∧ c.toNat ≤ 57 := by
      simpa [Char.isDigit, UInt32.le_iff_toNat_le] using digit
    omega
  · have marks : ∀ d ∈ ['.', 'e', 'E', '+', '-'], d.toNat < 127 := by simp
    exact marks c mark

theorem hexValue_ascii {c : Char} {n : Nat} (value : hexValue c = some n) :
    32 ≤ c.toNat ∧ c.toNat < 127 := by
  unfold hexValue at value
  split at value
  next digit =>
    have range : 48 ≤ c.toNat ∧ c.toNat ≤ 57 := by
      simpa [Char.isDigit, UInt32.le_iff_toNat_le] using digit
    omega
  split at value
  next low =>
    have range : 97 ≤ c.toNat ∧ c.toNat ≤ 102 := by
      simpa [Char.le_def, UInt32.le_iff_toNat_le] using low
    omega
  split at value
  next high =>
    have range : 65 ≤ c.toNat ∧ c.toNat ≤ 70 := by
      simpa [Char.le_def, UInt32.le_iff_toNat_le] using high
    omega
  · exact nomatch value

/-- Four hexadecimal digits stay as they are. -/
theorem hexCode_ascii {a b c d : Char} {n : Nat} (code : hexCode a b c d = some n) (text : List Char) :
    ascii (a :: b :: c :: d :: text) = a :: b :: c :: d :: ascii text := by
  obtain ⟨_, first, code⟩ := Option.bind_eq_some_iff.mp code
  obtain ⟨_, second, code⟩ := Option.bind_eq_some_iff.mp code
  obtain ⟨_, third, code⟩ := Option.bind_eq_some_iff.mp code
  obtain ⟨_, fourth, _⟩ := Option.bind_eq_some_iff.mp code
  rw [ascii_plain (hexValue_ascii first), ascii_plain (hexValue_ascii second),
    ascii_plain (hexValue_ascii third), ascii_plain (hexValue_ascii fourth)]

theorem readUnicode_stays {text rest : List Char} {c : Char} (printed : Printed text)
    (read : readUnicode text = some (c, rest)) :
    readUnicode (ascii text) = some (c, ascii rest) ∧ Printed rest := by
  unfold readUnicode at read
  split at read
  next a b c' d after =>
    obtain ⟨high, code, read⟩ := Option.bind_eq_some_iff.mp read
    have kept : Printed after := printed.of_suffix ⟨[a, b, c', d], rfl⟩
    rw [hexCode_ascii code]
    split at read
    next scalar =>
      obtain ⟨rfl, rfl⟩ := Prod.mk.inj (Option.some.inj read)
      exact ⟨by simp [readUnicode, code, scalar], kept⟩
    next surrogate =>
      split at read
      next e f g h later _ =>
        obtain ⟨low, second, read⟩ := Option.bind_eq_some_iff.mp read
        have inside : Printed later := kept.of_suffix ⟨['\\', 'u', e, f, g, h], rfl⟩
        split at read
        next pair =>
          obtain ⟨rfl, rfl⟩ := Prod.mk.inj (Option.some.inj read)
          rw [ascii_plain (by decide), ascii_plain (by decide), hexCode_ascii second]
          simp only [readUnicode, code, second, Option.bind_eq_bind, Option.bind_some,
            if_neg surrogate, if_pos pair, Option.pure_def]
          exact ⟨trivial, inside⟩
        · cases read
      · cases read
  · cases read

theorem readEscape_stays {text rest : List Char} {c : Char} (printed : Printed text)
    (read : readEscape text = some (c, rest)) :
    readEscape (ascii text) = some (c, ascii rest) ∧ Printed rest := by
  cases text with
  | nil => exact nomatch read
  | cons mark text =>
    have read : (if mark = 'u' then readUnicode text
        else (unescape mark).map fun c => (c, text)) = some (c, rest) := read
    split at read
    next unicode =>
      obtain ⟨code, kept⟩ := readUnicode_stays printed.tail read
      subst unicode
      rw [ascii_plain (by decide), readEscape, if_pos rfl]
      exact ⟨code, kept⟩
    next short =>
      obtain ⟨_, escape, same⟩ := Option.map_eq_some_iff.mp read
      obtain ⟨rfl, rfl⟩ := Prod.mk.inj same
      have marks : 32 ≤ mark.toNat ∧ mark.toNat < 127 := by
        unfold unescape at escape
        split_ifs at escape with plain n t r b f
        · rcases plain with rfl | rfl | rfl <;> decide
        all_goals subst mark; decide
      rw [ascii_plain marks, readEscape, if_neg short, escape]
      exact ⟨rfl, printed.tail⟩

/-- A string reads from its ASCII text, a character for a character. -/
theorem readString_stays {fuel more : Nat} {text chars rest : List Char} (printed : Printed text)
    (enough : fuel ≤ more) (read : readString fuel text = some (chars, rest)) :
    readString more (ascii text) = some (chars, ascii rest) ∧ Printed rest := by
  induction fuel generalizing more text chars rest with
  | zero => cases read
  | succ fuel ih =>
    obtain ⟨more, rfl⟩ := Nat.exists_eq_succ_of_ne_zero (Nat.ne_of_gt (Nat.lt_of_lt_of_le
      (Nat.succ_pos fuel) enough))
    have later : fuel ≤ more := Nat.le_of_succ_le_succ enough
    cases text with
    | nil => cases read
    | cons first text =>
      unfold readString at read
      split at read
      next quote =>
        obtain ⟨rfl, rfl⟩ := Prod.mk.inj (Option.some.inj read)
        subst quote
        rw [ascii_plain (by decide), readString, if_pos rfl]
        exact ⟨rfl, printed.tail⟩
      next solid =>
        split at read
        next slash =>
          split at read
          · cases read
          next c after escape =>
            obtain ⟨tail, string, same⟩ := Option.map_eq_some_iff.mp read
            obtain ⟨rfl, rfl⟩ := Prod.mk.inj same
            obtain ⟨escaped, kept⟩ := readEscape_stays printed.tail escape
            obtain ⟨reads, left⟩ := ih kept later string
            subst slash
            rw [ascii_plain (by decide), readString, if_neg (by decide), if_pos rfl, escaped]
            exact ⟨by simp [reads], left⟩
        next plain =>
          split at read
          · cases read
          next high =>
            obtain ⟨tail, string, same⟩ := Option.map_eq_some_iff.mp read
            obtain ⟨rfl, rfl⟩ := Prod.mk.inj same
            obtain ⟨reads, left⟩ := ih printed.tail later string
            refine ⟨?_, left⟩
            by_cases inside : 32 ≤ first.toNat ∧ first.toNat < 127
            · rw [ascii_plain inside, readString, if_neg solid, if_neg plain, if_neg high, reads]
              rfl
            · obtain ⟨code, shape, unicode⟩ := ascii_escaped inside text
              rw [shape, readString, if_neg (by decide), if_pos rfl, readEscape, if_pos rfl, unicode]
              simp [reads]

theorem Printed.skipSpace {text : List Char} (printed : Printed text) :
    Printed (Json.skipSpace text) := printed.of_suffix (List.dropWhile_suffix _)

/-- An ASCII character at the head of what follows is there in the ASCII text. -/
theorem skipSpace_head {text rest : List Char} {c : Char} (printed : Printed text)
    (inside : 32 ≤ c.toNat ∧ c.toNat < 127) (found : skipSpace text = c :: rest) :
    skipSpace (ascii text) = c :: ascii rest ∧ Printed rest := by
  have kept := printed.skipSpace
  rw [found] at kept
  rw [skipSpace_ascii printed, found, ascii_plain inside]
  exact ⟨rfl, kept.tail⟩

variable [FloatReader]

/-- Each reader finds in the ASCII text what it finds in the text. -/
def StaysTo (fuel : Nat) : Prop :=
  (∀ text value rest, Printed text → read fuel text = some (value, rest) →
    read fuel (ascii text) = some (value, ascii rest) ∧ Printed rest) ∧
  (∀ text items rest, Printed text → readItems fuel text = some (items, rest) →
    readItems fuel (ascii text) = some (items, ascii rest) ∧ Printed rest) ∧
  ∀ text fields rest, Printed text → readFields fuel text = some (fields, rest) →
    readFields fuel (ascii text) = some (fields, ascii rest) ∧ Printed rest

theorem readItems_stays {fuel : Nat} (stays : StaysTo fuel) {text rest : List Char}
    {items : List Json} (printed : Printed text)
    (read : readItems (fuel + 1) text = some (items, rest)) :
    readItems (fuel + 1) (ascii text) = some (items, ascii rest) ∧ Printed rest := by
  unfold readItems at read
  split at read
  · exact nomatch read
  next item after one =>
    obtain ⟨first, kept⟩ := stays.1 text item after printed one
    split at read
    next more comma =>
      obtain ⟨tail, others, same⟩ := Option.map_eq_some_iff.mp read
      obtain ⟨rfl, rfl⟩ := Prod.mk.inj same
      obtain ⟨shown, inside⟩ := skipSpace_head kept (by decide) comma
      obtain ⟨later, left⟩ := stays.2.1 more _ _ inside others
      simp [readItems, first, shown, later, left]
    next more closed =>
      obtain ⟨rfl, rfl⟩ := Prod.mk.inj (Option.some.inj read)
      obtain ⟨shown, inside⟩ := skipSpace_head kept (by decide) closed
      simp [readItems, first, shown, inside]
    · exact nomatch read

theorem readFields_stays {fuel : Nat} (stays : StaysTo fuel) {text rest : List Char}
    {fields : List (String × Json)} (printed : Printed text)
    (read : readFields (fuel + 1) text = some (fields, rest)) :
    readFields (fuel + 1) (ascii text) = some (fields, ascii rest) ∧ Printed rest := by
  unfold readFields at read
  split at read
  next body quote =>
    obtain ⟨opened, inside⟩ := skipSpace_head printed (by decide) quote
    split at read
    · cases read
    next key after string =>
      obtain ⟨name, kept⟩ := readString_stays inside (length_ascii body) string
      split at read
      next body colon =>
        obtain ⟨parted, inside⟩ := skipSpace_head kept (by decide) colon
        split at read
        · cases read
        next item after one =>
          obtain ⟨first, kept⟩ := stays.1 body item after inside one
          split at read
          next more comma =>
            obtain ⟨tail, others, same⟩ := Option.map_eq_some_iff.mp read
            obtain ⟨rfl, rfl⟩ := Prod.mk.inj same
            obtain ⟨shown, inside⟩ := skipSpace_head kept (by decide) comma
            obtain ⟨later, left⟩ := stays.2.2 more _ _ inside others
            simp only [readFields, opened, name, parted, first, shown, later, Option.map_some]
            exact ⟨trivial, left⟩
          next more closed =>
            obtain ⟨rfl, rfl⟩ := Prod.mk.inj (Option.some.inj read)
            obtain ⟨shown, inside⟩ := skipSpace_head kept (by decide) closed
            simp only [readFields, opened, name, parted, first, shown]
            exact ⟨trivial, inside⟩
          · cases read
      · cases read
  · cases read

omit [FloatReader] in
/-- A word of the grammar stays as it is. -/
theorem ascii_word {word text rest : List Char}
    (plain : ∀ c ∈ word, 32 ≤ c.toNat ∧ c.toNat < 127) (found : text = word ++ rest) :
    ascii text = word ++ ascii rest := by
  subst found
  induction word with
  | nil => rfl
  | cons c word ih =>
    obtain ⟨first, later⟩ := List.forall_mem_cons.mp plain
    rw [List.cons_append, ascii_plain first, ih later]
    rfl

omit [FloatReader] in
theorem ascii_head {text rest : List Char} {c : Char} (solid : c ≠ '\\')
    (shape : ascii text = c :: rest) : ∃ later, text = c :: later := by
  cases text with
  | nil => exact nomatch shape
  | cons first text =>
    by_cases inside : 32 ≤ first.toNat ∧ first.toNat < 127
    · rw [ascii_plain inside] at shape
      exact ⟨text, by rw [(List.cons.inj shape).1]⟩
    · obtain ⟨code, escaped, -⟩ := ascii_escaped inside text
      rw [escaped] at shape
      exact absurd (List.cons.inj shape).1.symm solid

omit [FloatReader] in
theorem word_of_take {first : Char} {body word : List Char} {n : Nat}
    (found : (first :: body).take (n + 1) = word) : first :: body = word ++ body.drop n := by
  rw [← found, List.take_succ_cons, List.cons_append, List.take_append_drop]

/-- A number is read off by its characters, which are all ASCII. -/
theorem read_number_stays {fuel : Nat} {text body : List Char} {first : Char} {value : Json}
    (printed : Printed text) (found : skipSpace text = first :: body)
    (number : readNumber ((first :: body).takeWhile JsonNumber.isNumberChar) = some value) :
    Json.read (fuel + 1) (ascii text) =
      some (value, ascii ((first :: body).dropWhile JsonNumber.isNumberChar)) := by
  have kept := printed.skipSpace
  rw [found] at kept
  have numeric : JsonNumber.isNumberChar first = true := by
    by_contra other
    rw [List.takeWhile_cons_of_neg other] at number
    exact nomatch number
  have low : 32 ≤ first.toNat := kept first List.mem_cons_self
  have shown : skipSpace (ascii text) = ascii (first :: body) := by
    rw [skipSpace_ascii printed, found]
  have taken : (ascii (first :: body)).takeWhile JsonNumber.isNumberChar =
      (first :: body).takeWhile JsonNumber.isNumberChar :=
    takeWhile_ascii isNumberChar_ascii rfl kept
  have left : (ascii (first :: body)).dropWhile JsonNumber.isNumberChar =
      ascii ((first :: body).dropWhile JsonNumber.isNumberChar) :=
    dropWhile_ascii isNumberChar_ascii rfl kept
  have other {d : Char} (apart : JsonNumber.isNumberChar d = false) : first ≠ d := by
    rintro rfl
    exact absurd numeric (by simp [apart])
  rw [ascii_plain ⟨low, isNumberChar_ascii first numeric low⟩] at shown taken left
  have noWord {d : Char} {count : Nat} {word : List Char}
      (apart : JsonNumber.isNumberChar d = false) :
      (first :: ascii body).take (count + 1) ≠ d :: word := by
    rw [List.take_succ_cons]
    exact fun same => other apart (List.cons.inj same).1
  simp only [Json.read, shown]
  rw [if_neg (other rfl), if_neg (other rfl), if_neg (other rfl), if_neg (noWord rfl),
    if_neg (noWord rfl), if_neg (noWord rfl), taken, left, number]
  rfl

theorem read_stays {fuel : Nat} (stays : StaysTo fuel) {text rest : List Char} {value : Json}
    (printed : Printed text) (read : read (fuel + 1) text = some (value, rest)) :
    Json.read (fuel + 1) (ascii text) = some (value, ascii rest) ∧ Printed rest := by
  unfold Json.read at read
  split at read
  · exact nomatch read
  next first body found =>
    have shown := skipSpace_ascii printed
    have kept := printed.skipSpace
    rw [found] at shown kept
    split at read
    next quote =>
      subst quote
      obtain ⟨⟨chars, after⟩, string, same⟩ := Option.map_eq_some_iff.mp read
      obtain ⟨rfl, rfl⟩ := Prod.mk.inj same
      obtain ⟨name, left⟩ := readString_stays kept.tail (length_ascii body) string
      rw [ascii_plain (by decide)] at shown
      simp only [Json.read, shown, if_true, name, Option.map_some]
      exact ⟨trivial, left⟩
    next noQuote =>
    split at read
    next bracket =>
      subst bracket
      rw [ascii_plain (by decide)] at shown
      split at read
      next after closed =>
        obtain ⟨rfl, rfl⟩ := Prod.mk.inj (Option.some.inj read)
        obtain ⟨inner, left⟩ := skipSpace_head kept.tail (by decide) closed
        simp only [Json.read, shown, inner]
        exact ⟨rfl, left⟩
      next opened =>
        obtain ⟨⟨items, after⟩, listed, same⟩ := Option.map_eq_some_iff.mp read
        obtain ⟨rfl, rfl⟩ := Prod.mk.inj same
        obtain ⟨reads, left⟩ := stays.2.1 _ _ _ kept.tail.skipSpace listed
        refine ⟨?_, left⟩
        simp only [Json.read, shown, skipSpace_ascii kept.tail]
        rw [if_neg (by decide), if_pos trivial]
        split
        next shut =>
          obtain ⟨later, same⟩ := ascii_head (by decide) shut
          exact absurd same (opened later)
        next => rw [reads]; rfl
    next noBracket =>
    split at read
    next brace =>
      subst brace
      rw [ascii_plain (by decide)] at shown
      split at read
      next after closed =>
        obtain ⟨rfl, rfl⟩ := Prod.mk.inj (Option.some.inj read)
        obtain ⟨inner, left⟩ := skipSpace_head kept.tail (by decide) closed
        simp only [Json.read, shown, inner]
        exact ⟨rfl, left⟩
      next opened =>
        obtain ⟨⟨fields, after⟩, listed, same⟩ := Option.map_eq_some_iff.mp read
        obtain ⟨rfl, rfl⟩ := Prod.mk.inj same
        obtain ⟨reads, left⟩ := stays.2.2 _ _ _ kept.tail.skipSpace listed
        refine ⟨?_, left⟩
        simp only [Json.read, shown, skipSpace_ascii kept.tail]
        rw [if_neg (by decide), if_neg (by decide), if_pos trivial]
        split
        next shut =>
          obtain ⟨later, same⟩ := ascii_head (by decide) shut
          exact absurd same (opened later)
        next => rw [reads]; rfl
    next noBrace =>
    split at read
    next word =>
      obtain ⟨rfl, rfl⟩ := Prod.mk.inj (Option.some.inj read)
      rw [ascii_word (by simp) (word_of_take word)] at shown
      exact ⟨by simp [Json.read, shown], kept.tail.of_suffix (List.drop_suffix _ _)⟩
    split at read
    next word =>
      obtain ⟨rfl, rfl⟩ := Prod.mk.inj (Option.some.inj read)
      rw [ascii_word (by simp) (word_of_take word)] at shown
      exact ⟨by simp [Json.read, shown], kept.tail.of_suffix (List.drop_suffix _ _)⟩
    split at read
    next word =>
      obtain ⟨rfl, rfl⟩ := Prod.mk.inj (Option.some.inj read)
      rw [ascii_word (by simp) (word_of_take word)] at shown
      exact ⟨by simp [Json.read, shown], kept.tail.of_suffix (List.drop_suffix _ _)⟩
    obtain ⟨number, numeric, same⟩ := Option.map_eq_some_iff.mp read
    obtain ⟨rfl, rfl⟩ := Prod.mk.inj same
    exact ⟨read_number_stays printed found numeric, kept.of_suffix (List.dropWhile_suffix _)⟩

theorem staysTo (fuel : Nat) : StaysTo fuel := by
  induction fuel with
  | zero => exact ⟨fun _ _ _ _ => nofun, fun _ _ _ _ => nofun, fun _ _ _ _ => nofun⟩
  | succ fuel ih =>
    exact ⟨fun _ _ _ printed found => read_stays ih printed found,
      fun _ _ _ printed found => readItems_stays ih printed found,
      fun _ _ _ printed found => readFields_stays ih printed found⟩

/-! ### The encoder's text -/

omit [FloatReader]

theorem Printed.append {first second : List Char} (one : Printed first) (two : Printed second) :
    Printed (first ++ second) := fun c member => (List.mem_append.mp member).elim (one c) (two c)

theorem Printed.cons {c : Char} {text : List Char} (first : 32 ≤ c.toNat) (later : Printed text) :
    Printed (c :: text) := List.forall_mem_cons.mpr ⟨first, later⟩

theorem Printed.escapeChar (c : Char) : Printed (escapeChar c) := by
  have digit : ∀ k < 16, 32 ≤ (hexDigit k).toNat := by decide
  unfold Json.escapeChar
  split_ifs with _ _ _ _ _ _ _ low
  any_goals decide
  · have digits : Printed [hexDigit (c.toNat / 16), hexDigit (c.toNat % 16)] :=
      .cons (digit _ (by omega)) (.cons (digit _ (by omega)) nofun)
    have head : Printed ['\\', 'u', '0', '0'] := by decide
    exact head.append digits
  · exact .cons (Nat.le_of_not_lt low) nofun

theorem Printed.quoted (text : String) : Printed (quoted text) := by
  have body : Printed (text.toList.flatMap Json.escapeChar) := by
    intro d member
    obtain ⟨c, _, inside⟩ := List.mem_flatMap.mp member
    exact Printed.escapeChar c d inside
  exact .cons (by decide) (body.append (by decide))

theorem Printed.number {text : List Char} (chars : ∀ c ∈ text, JsonNumber.isNumberChar c = true) :
    Printed text := by
  intro c member
  have number := chars c member
  rw [JsonNumber.isNumberChar, Bool.or_eq_true, decide_eq_true_iff] at number
  rcases number with digit | mark
  · have range : 48 ≤ c.toNat ∧ c.toNat ≤ 57 := by
      simpa [Char.isDigit, UInt32.le_iff_toNat_le] using digit
    omega
  · have marks : ∀ d ∈ ['.', 'e', 'E', '+', '-'], 32 ≤ d.toNat := by simp
    exact marks c mark

theorem printed_items {items : List Json} (each : ∀ item ∈ items, Printed (render compact item)) :
    Printed (renderItems compact items) := by
  induction items with
  | nil => decide
  | cons item items ih =>
    obtain ⟨first, later⟩ := List.forall_mem_cons.mp each
    exact .cons (by decide) (first.append (ih later))

theorem printed_fields {fields : List (String × Json)}
    (each : ∀ field ∈ fields, Printed (render compact field.2)) :
    Printed (renderFields compact fields) := by
  induction fields with
  | nil => decide
  | cons field fields ih =>
    obtain ⟨first, later⟩ := List.forall_mem_cons.mp each
    exact .cons (by decide) ((Printed.quoted field.1).append
      (.cons (by decide) (first.append (ih later))))

theorem printed_render (value : Json) : Printed (render compact value) := by
  -- the induction is over the value, its lists of items and its lists of fields
  refine @Json.rec (fun value => Printed (render compact value))
    (fun items => ∀ item ∈ items, Printed (render compact item))
    (fun fields => ∀ field ∈ fields, Printed (render compact field.2))
    (fun field => Printed (render compact field.2))
    ?null ?bool ?int ?float ?str ?arr ?obj ?noItems ?items ?noFields ?fields ?field value
  case null => decide
  case bool => rintro (_ | _) <;> decide
  case int => exact fun value => .number (renderInt_chars value).1
  case float => exact fun value => .number (float_chars value).1
  case str => exact fun text => .quoted text
  case arr =>
    intro items each
    cases items with
    | nil => decide
    | cons item items =>
      obtain ⟨first, later⟩ := List.forall_mem_cons.mp each
      exact .cons (by decide) (first.append (printed_items later))
  case obj =>
    intro fields each
    cases fields with
    | nil => decide
    | cons field fields =>
      obtain ⟨first, later⟩ := List.forall_mem_cons.mp each
      exact .cons (by decide) ((Printed.quoted field.1).append
        (.cons (by decide) (first.append (printed_fields later))))
  case noItems => exact fun _ member => nomatch member
  case items => exact fun _ _ first later => List.forall_mem_cons.mpr ⟨first, later⟩
  case noFields => exact fun _ member => nomatch member
  case fields => exact fun _ _ first later => List.forall_mem_cons.mpr ⟨first, later⟩
  case field => exact fun _ _ printed => printed

/-- `json.dumps(value, sort_keys=True, separators=(",", ":"), ensure_ascii=True)` -/
def asciiCanonical (value : Json) : String := .ofList (ascii (canonical value).toList)

/-- The ASCII text of a value reads back as the value with sorted keys. -/
theorem loads_asciiCanonical [FloatReader] (value : Json) :
    loads (asciiCanonical value) = some (sortKeys value) := by
  have chars : (canonical value).toList = render compact (sortKeys value) := by
    rw [canonical, dumps, String.toList_ofList]
  have enough := length_ascii (render compact (sortKeys value))
  have back := @read_render _ compact (sortKeys value)
    ((ascii (render compact (sortKeys value))).length + 1) [] (by omega)
    (fun c member => by cases member)
  rw [List.append_nil] at back
  obtain ⟨reads, -⟩ := (staysTo _).1 _ _ _ (printed_render (sortKeys value)) back
  simp only [loads, asciiCanonical, String.length_ofList, String.toList_ofList, chars, reads]
  rfl

end Json
