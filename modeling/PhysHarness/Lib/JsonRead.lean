import Mathlib.Data.List.TakeWhile
import PhysHarness.Lib.Json

/-!
Reading JSON text.

The reader takes one value off a text and returns what follows. A number ends where its characters
end, so what follows a value has to start with another character. The main result is that a rendered
value reads back as itself.
-/

/-- How the text of a float is read; a `repr` reads as its own float. -/
class FloatReader where
  read : List Char → Option FloatText
  read_repr : ∀ value : FloatText, read value.1 = some value

/-- The reader of the texts that are a `repr`. -/
@[reducible] def FloatReader.exact : FloatReader where
  read text := if shape : _ then some ⟨text, shape⟩ else none
  read_repr value := dif_pos value.2

namespace Json

open JsonNumber

def skipSpace (text : List Char) : List Char := text.dropWhile isSpace

/-! ### Strings -/

def hexValue (c : Char) : Option Nat :=
  if c.isDigit then some (c.toNat - '0'.toNat)
  else if 'a' ≤ c ∧ c ≤ 'f' then some (c.toNat - 'a'.toNat + 10)
  else if 'A' ≤ c ∧ c ≤ 'F' then some (c.toNat - 'A'.toNat + 10)
  else none

/-- The number that four hexadecimal digits write. -/
def hexCode (a b c d : Char) : Option Nat := do
  let a ← hexValue a
  let b ← hexValue b
  let c ← hexValue c
  let d ← hexValue d
  return ((a * 16 + b) * 16 + c) * 16 + d

def unescape (c : Char) : Option Char :=
  if c = '"' ∨ c = '\\' ∨ c = '/' then some c
  else if c = 'n' then some '\n'
  else if c = 'r' then some '\r'
  else if c = 't' then some '\t'
  else if c = 'b' then some '\x08'
  else if c = 'f' then some '\x0c'
  else none

/-- The character of the four digits after `\u`. A surrogate is read as half of a pair; a lone one is
no character. -/
def readUnicode : List Char → Option (Char × List Char)
  | a :: b :: c :: d :: rest => do
    let high ← hexCode a b c d
    if high < 0xD800 ∨ 0xE000 ≤ high then return (.ofNat high, rest)
    match rest with
    | '\\' :: 'u' :: a :: b :: c :: d :: rest =>
      let low ← hexCode a b c d
      if high < 0xDC00 ∧ 0xDC00 ≤ low ∧ low < 0xE000 then
        return (.ofNat (0x10000 + (high - 0xD800) * 0x400 + (low - 0xDC00)), rest)
      none
    | _ => none
  | _ => none

/-- The character after a backslash. -/
def readEscape : List Char → Option (Char × List Char)
  | [] => none
  | mark :: rest =>
    if mark = 'u' then readUnicode rest else (unescape mark).map fun c => (c, rest)

/-- The characters up to the closing quote, and what follows it. -/
def readString : Nat → List Char → Option (List Char × List Char)
  | 0, _ => none
  | _ + 1, [] => none
  | fuel + 1, first :: rest =>
    if first = '"' then some ([], rest)
    else if first = '\\' then
      match readEscape rest with
      | none => none
      | some (c, rest) => (readString fuel rest).map fun read => (c :: read.1, read.2)
    else if first.toNat < 32 then none
    else (readString fuel rest).map fun read => (first :: read.1, read.2)

/-! ### Values -/

/-- The value of a number's text. -/
def readNumber [FloatReader] (text : List Char) : Option Json :=
  if isNumber text = false then none
  else if fraction text = [] then
    let value : Int := Nat.ofDigitChars 10 (unsigned text) 0
    some (.int (if text.head? = some '-' then -value else value))
  else (FloatReader.read text).map .float

mutual

/-- One value and what follows it. The text's length is fuel enough. -/
def read [FloatReader] : Nat → List Char → Option (Json × List Char)
  | 0, _ => none
  | fuel + 1, text =>
    match skipSpace text with
    | [] => none
    | first :: rest =>
      if first = '"' then
        (readString rest.length rest).map fun read => (.str (.ofList read.1), read.2)
      else if first = '[' then
        match skipSpace rest with
        | ']' :: rest => some (.arr [], rest)
        | rest => (readItems fuel rest).map fun read => (.arr read.1, read.2)
      else if first = '{' then
        match skipSpace rest with
        | '}' :: rest => some (.obj [], rest)
        | rest => (readFields fuel rest).map fun read => (.obj read.1, read.2)
      else if (first :: rest).take 4 = ['n', 'u', 'l', 'l'] then some (.null, rest.drop 3)
      else if (first :: rest).take 4 = ['t', 'r', 'u', 'e'] then some (.bool true, rest.drop 3)
      else if (first :: rest).take 5 = ['f', 'a', 'l', 's', 'e'] then
        some (.bool false, rest.drop 4)
      else
        (readNumber ((first :: rest).takeWhile isNumberChar)).map fun value =>
          (value, (first :: rest).dropWhile isNumberChar)

/-- The items up to the closing bracket. -/
def readItems [FloatReader] : Nat → List Char → Option (List Json × List Char)
  | 0, _ => none
  | fuel + 1, text =>
    match read fuel text with
    | none => none
    | some (item, rest) =>
      match skipSpace rest with
      | ',' :: rest => (readItems fuel rest).map fun read => (item :: read.1, read.2)
      | ']' :: rest => some ([item], rest)
      | _ => none

/-- The fields up to the closing brace. -/
def readFields [FloatReader] : Nat → List Char → Option (List (String × Json) × List Char)
  | 0, _ => none
  | fuel + 1, text =>
    match skipSpace text with
    | '"' :: rest =>
      match readString rest.length rest with
      | none => none
      | some (key, rest) =>
        match skipSpace rest with
        | ':' :: rest =>
          match read fuel rest with
          | none => none
          | some (item, rest) =>
            match skipSpace rest with
            | ',' :: rest =>
              (readFields fuel rest).map fun read => ((.ofList key, item) :: read.1, read.2)
            | '}' :: rest => some ([(.ofList key, item)], rest)
            | _ => none
        | _ => none
    | _ => none

end

/-- `json.loads(text)` without the merging of equal keys. -/
def loads [FloatReader] (text : String) : Option Json :=
  match read (text.length + 1) text.toList with
  | some (value, rest) => if skipSpace rest = [] then some value else none
  | none => none

/-! ### Reading back -/

theorem skipSpace_gap {gap text : List Char} (spaces : gap.all isSpace = true) :
    skipSpace (gap ++ text) = skipSpace text := by
  induction gap with
  | nil => rfl
  | cons c gap ih =>
    rw [List.all_cons, Bool.and_eq_true] at spaces
    rw [List.cons_append, skipSpace, List.dropWhile_cons_of_pos spaces.1]
    exact ih spaces.2

theorem hexCode_control :
    ∀ n < 32, hexCode '0' '0' (hexDigit (n / 16)) (hexDigit (n % 16)) = some n := by decide

/-- One escaped character reads back. -/
theorem readString_escapeChar (c : Char) (fuel : Nat) (rest : List Char) :
    readString (fuel + 1) (escapeChar c ++ rest) =
      (readString fuel rest).map fun read => (c :: read.1, read.2) := by
  unfold escapeChar
  split
  next same => simp [readString, readEscape, unescape, same]
  split
  next same => simp [readString, readEscape, unescape, same]
  split
  next same => simp [readString, readEscape, unescape, same]
  split
  next same => simp [readString, readEscape, unescape, same]
  split
  next same => simp [readString, readEscape, unescape, same]
  split
  next same => simp [readString, readEscape, unescape, same]
  split
  next same => simp [readString, readEscape, unescape, same]
  split
  next control =>
    have low : c.toNat < 0xD800 := by omega
    simp [readString, readEscape, readUnicode, hexCode_control _ control, low]
  next plain => simp [readString, *]

theorem readString_escape (text rest : List Char) {fuel : Nat} (enough : text.length < fuel) :
    readString fuel (text.flatMap escapeChar ++ '"' :: rest) = some (text, rest) := by
  induction text generalizing fuel with
  | nil =>
    cases fuel with
    | zero => simp at enough
    | succ fuel => simp [readString]
  | cons c text ih =>
    cases fuel with
    | zero => simp at enough
    | succ fuel =>
      rw [List.flatMap_cons, List.append_assoc, readString_escapeChar,
        ih (Nat.lt_of_succ_lt_succ enough)]
      rfl

theorem digits_isDigit {n : Nat} : ∀ c ∈ digits n, c.isDigit = true :=
  fun _ member => Nat.isDigit_of_mem_toDigits (by decide) (by decide) member

/-- A positive number has no leading zero. -/
theorem digits_head {n : Nat} (positive : 0 < n) : (digits n).head? ≠ some '0' := by
  induction n using Nat.strongRecOn with
  | ind n ih =>
    by_cases small : n < 10
    · have single : ∀ n < 10, 0 < n → [Nat.digitChar n].head? ≠ some '0' := by decide
      rw [digits, Nat.toDigits_of_lt_base small]
      exact single n small positive
    · rw [digits, Nat.toDigits_of_base_le (by decide) (Nat.le_of_not_lt small), List.head?_append]
      have rest := ih (n / 10) (by omega) (by omega)
      cases first : (Nat.toDigits 10 (n / 10)).head? with
      | none => exact absurd (List.head?_eq_none_iff.mp first) Nat.toDigits_ne_nil
      | some c => simpa [digits, first] using rest

/-- An unsigned whole number has no fraction. -/
theorem span_digits (n : Nat) :
    (digits n).takeWhile Char.isDigit = digits n ∧ (digits n).dropWhile Char.isDigit = [] :=
  ⟨List.takeWhile_eq_self_iff.mpr digits_isDigit, List.dropWhile_eq_nil_iff.mpr digits_isDigit⟩

/-- A text whose unsigned part is the digits of a number reads as that number. -/
theorem readNumber_digits [FloatReader] {text : List Char} {n : Nat}
    (body : unsigned text = digits n) :
    readNumber text = some (.int (if text.head? = some '-' then -(n : Int) else n)) := by
  have leading : (digits n).head? ≠ some '0' ∨ (digits n).length = 1 := by
    rcases Nat.eq_zero_or_pos n with rfl | positive
    · exact .inr rfl
    · exact .inl (digits_head positive)
  have nonempty : digits n ≠ [] := Nat.toDigits_ne_nil
  have number : isNumber text = true := by
    simp [isNumber, fraction, body, span_digits, isFraction, isExponent, leading, nonempty]
  have whole : fraction text = [] := by rw [fraction, body, (span_digits n).2]
  simp [readNumber, number, whole, body, digits]

theorem readNumber_int [FloatReader] (value : Int) :
    readNumber (renderInt value) = some (.int value) := by
  cases value with
  | ofNat n =>
    have unsignedText : (digits n).head? ≠ some '-' := by
      intro head
      exact absurd (digits_isDigit _ (List.mem_of_mem_head? head)) (by decide)
    rw [renderInt, readNumber_digits (n := n) (by simp [unsigned, unsignedText])]
    simp [unsignedText]
  | negSucc n =>
    rw [renderInt, readNumber_digits (n := n + 1) (by simp [unsigned])]
    simp [Int.negSucc_eq]

theorem readNumber_float [FloatReader] (value : FloatText) :
    readNumber value.1 = some (.float value) := by
  have shape := value.2
  simp only [Bool.and_eq_true, Bool.not_eq_true', List.isEmpty_eq_false_iff] at shape
  simp [readNumber, shape, FloatReader.read_repr]

/-- The text does not go on with a character of a number. -/
def Ends (text : List Char) : Prop := ∀ c ∈ text.head?, isNumberChar c = false

theorem Ends.of_cons {c : Char} {text : List Char} (other : isNumberChar c = false) :
    Ends (c :: text) := by
  intro _ first
  obtain rfl := Option.some.inj first
  exact other

/-- A number's text is its characters up to the first other one. -/
theorem span_number {token rest : List Char} (chars : ∀ c ∈ token, isNumberChar c = true)
    (ends : Ends rest) : (token ++ rest).takeWhile isNumberChar = token ∧
      (token ++ rest).dropWhile isNumberChar = rest := by
  rw [List.takeWhile_append_of_pos chars, List.dropWhile_append_of_pos chars]
  cases rest with
  | nil => simp
  | cons c rest => simp [ends c rfl]

theorem read_number [FloatReader] {fuel : Nat} {token rest : List Char} {value : Json}
    (chars : ∀ c ∈ token, isNumberChar c = true) (nonempty : token ≠ [])
    (number : readNumber token = some value) (ends : Ends rest) :
    read (fuel + 1) (token ++ rest) = some (value, rest) := by
  obtain ⟨taken, left⟩ := span_number chars ends
  cases token with
  | nil => exact absurd rfl nonempty
  | cons c token =>
    have first : isNumberChar c = true := chars c List.mem_cons_self
    have other {d : Char} (apart : isNumberChar d = false) : c ≠ d := by
      rintro rfl
      exact absurd first (by simp [apart])
    have shown : skipSpace (c :: (token ++ rest)) = c :: (token ++ rest) := by
      refine List.dropWhile_cons_of_neg ?_
      simp only [isSpace, List.mem_cons, List.not_mem_nil, or_false, decide_eq_true_eq]
      rintro (rfl | rfl | rfl | rfl) <;> revert first <;> decide
    have noWord {d : Char} {count : Nat} {word : List Char} (apart : isNumberChar d = false) :
        (c :: (token ++ rest)).take (count + 1) ≠ d :: word := by
      rw [List.take_succ_cons]
      exact fun same => other apart (List.cons.inj same).1
    rw [List.cons_append] at taken left ⊢
    simp only [read, shown]
    rw [if_neg (other rfl), if_neg (other rfl), if_neg (other rfl), if_neg (noWord rfl),
      if_neg (noWord rfl), if_neg (noWord rfl), taken, left, number]
    rfl

theorem renderInt_chars (value : Int) :
    (∀ c ∈ renderInt value, isNumberChar c = true) ∧ renderInt value ≠ [] := by
  have plain {n : Nat} : ∀ c ∈ digits n, isNumberChar c = true := by
    intro c member
    simp [isNumberChar, digits_isDigit c member]
  cases value with
  | ofNat n => exact ⟨plain, Nat.toDigits_ne_nil⟩
  | negSucc n =>
    refine ⟨fun c member => ?_, List.cons_ne_nil _ _⟩
    rcases List.mem_cons.mp member with rfl | digit
    · rfl
    · exact plain c digit

theorem float_chars (value : FloatText) :
    (∀ c ∈ value.1, isNumberChar c = true) ∧ value.1 ≠ [] := by
  obtain ⟨text, shape⟩ := value
  simp only [Bool.and_eq_true, List.all_eq_true] at shape
  refine ⟨shape.1.1, ?_⟩
  rintro rfl
  exact absurd shape.2 (by decide)

/-- A value's text opens with a character that is no space and closes no container. -/
theorem render_opens (style : Style) (value : Json) :
    ∃ c text, render style value = c :: text ∧ isSpace c = false ∧ c ≠ ']' := by
  have number {token : List Char} (chars : ∀ c ∈ token, isNumberChar c = true)
      (nonempty : token ≠ []) :
      ∃ c text, token = c :: text ∧ isSpace c = false ∧ c ≠ ']' := by
    cases token with
    | nil => exact absurd rfl nonempty
    | cons c text =>
      have first := chars c List.mem_cons_self
      refine ⟨c, text, rfl, ?_, ?_⟩
      · simp only [isSpace, List.mem_cons, List.not_mem_nil, or_false, decide_eq_false_iff_not]
        rintro (rfl | rfl | rfl | rfl) <;> revert first <;> decide
      · rintro rfl
        exact absurd first (by decide)
  cases value with
  | null => exact ⟨_, _, rfl, by decide, by decide⟩
  | bool value => cases value <;> exact ⟨_, _, rfl, by decide, by decide⟩
  | int value => exact number (renderInt_chars value).1 (renderInt_chars value).2
  | float value => exact number (float_chars value).1 (float_chars value).2
  | str value => exact ⟨_, _, rfl, by decide, by decide⟩
  | arr items => cases items <;> exact ⟨_, _, rfl, by decide, by decide⟩
  | obj items =>
    rcases items with _ | ⟨⟨key, item⟩, items⟩ <;> exact ⟨_, _, rfl, by decide, by decide⟩

theorem skipSpace_solid {c : Char} {text : List Char} (solid : isSpace c = false) :
    skipSpace (c :: text) = c :: text := List.dropWhile_cons_of_neg (by simp [solid])

theorem skipSpace_render (style : Style) (value : Json) (rest : List Char) :
    skipSpace (render style value ++ rest) = render style value ++ rest := by
  obtain ⟨c, text, same, solid, -⟩ := render_opens style value
  rw [same]
  exact skipSpace_solid solid

/-- The reader takes spaces before a value. -/
theorem read_gap [FloatReader] {fuel : Nat} {gap text : List Char}
    (spaces : gap.all isSpace = true) : read fuel (gap ++ text) = read fuel text := by
  cases fuel with
  | zero => simp [read]
  | succ fuel => simp only [read, skipSpace_gap spaces]

/-- The reader of a string takes the quoted text. -/
theorem readString_quoted (text : String) (rest : List Char) :
    readString ((text.toList.flatMap escapeChar ++ '"' :: rest).length)
      (text.toList.flatMap escapeChar ++ '"' :: rest) = some (text.toList, rest) := by
  refine readString_escape _ _ ?_
  have longer : text.toList.length ≤ (text.toList.flatMap escapeChar).length := by
    induction text.toList with
    | nil => simp
    | cons c tail ih =>
      have one : 1 ≤ (escapeChar c).length := by
        unfold escapeChar
        repeat' split
        all_goals simp
      rw [List.flatMap_cons, List.length_append, List.length_cons]
      omega
  rw [List.length_append, List.length_cons]
  omega

theorem quoted_append (text : String) (rest : List Char) :
    quoted text ++ rest = '"' :: (text.toList.flatMap escapeChar ++ '"' :: rest) := by
  simp [quoted]

variable [FloatReader] (style : Style)

theorem read_quoted {fuel : Nat} (text : String) (rest : List Char) :
    read (fuel + 1) (quoted text ++ rest) = some (.str text, rest) := by
  rw [quoted_append]
  simp only [read, skipSpace_solid (show isSpace '"' = false from rfl), if_true, readString_quoted,
    Option.map_some, String.ofList_toList]

theorem readFields_gap {fuel : Nat} {gap text : List Char} (spaces : gap.all isSpace = true) :
    readFields fuel (gap ++ text) = readFields fuel text := by
  cases fuel with
  | zero => simp [readFields]
  | succ fuel => simp only [readFields, skipSpace_gap spaces]

theorem readItems_gap {fuel : Nat} {gap text : List Char} (spaces : gap.all isSpace = true) :
    readItems fuel (gap ++ text) = readItems fuel text := by
  cases fuel with
  | zero => simp [readItems]
  | succ fuel => simp only [readItems, read_gap spaces]

/-- The value reads back from its text wherever a number's text would end. -/
def ReadsBack (value : Json) : Prop :=
  ∀ fuel rest, (render style value).length ≤ fuel → Ends rest →
    read fuel (render style value ++ rest) = some (value, rest)

variable {style}

omit [FloatReader] in
theorem render_pos (value : Json) : 0 < (render style value).length := by
  obtain ⟨c, text, same, -⟩ := render_opens style value
  simp [same]

/-- Items read back up to the closing bracket when each one does. -/
theorem readItems_render {items : List Json} {item : Json} {fuel : Nat} (rest : List Char)
    (each : ∀ value ∈ item :: items, ReadsBack style value)
    (enough : (render style item).length + (renderItems style items).length ≤ fuel) :
    readItems fuel (render style item ++ (renderItems style items ++ rest)) =
      some (item :: items, rest) := by
  have positive : 0 < (render style item).length := render_pos item
  induction items generalizing item fuel with
  | nil =>
    obtain ⟨fuel, rfl⟩ := Nat.exists_eq_succ_of_ne_zero (Nat.ne_of_gt (by omega : 0 < fuel))
    have first := each item List.mem_cons_self fuel (']' :: rest)
      (by simp only [renderItems, List.length_singleton] at enough; omega) (.of_cons rfl)
    simp only [renderItems, List.singleton_append, readItems, first,
      skipSpace_solid (show isSpace ']' = false from rfl)]
  | cons next items ih =>
    obtain ⟨fuel, rfl⟩ := Nat.exists_eq_succ_of_ne_zero (Nat.ne_of_gt (by omega : 0 < fuel))
    simp only [renderItems, List.length_cons, List.length_append] at enough
    have first := each item List.mem_cons_self fuel
      (',' :: (style.itemGap ++ (render style next ++ (renderItems style items ++ rest))))
      (by omega) (.of_cons rfl)
    have later := @ih next fuel (fun value member => each value (List.mem_cons_of_mem _ member))
      (by omega) (render_pos next)
    simp only [renderItems, List.cons_append, List.append_assoc, readItems, first,
      skipSpace_solid (show isSpace ',' = false from rfl), readItems_gap style.itemSpaces, later,
      Option.map_some]

/-- The key and the value of a field are taken off the text, up to what follows the field. -/
theorem readFields_field {key : String} {item : Json} {fuel : Nat} {rest : List Char}
    (back : ReadsBack style item) (enough : (render style item).length ≤ fuel) (ends : Ends rest) :
    readFields (fuel + 1) (quoted key ++ ':' :: (style.keyGap ++ (render style item ++ rest))) =
      match skipSpace rest with
      | ',' :: rest => (readFields fuel rest).map fun read => ((key, item) :: read.1, read.2)
      | '}' :: rest => some ([(key, item)], rest)
      | _ => none := by
  have value := back fuel rest enough ends
  rw [quoted_append]
  simp only [readFields, skipSpace_solid (show isSpace '"' = false from rfl), readString_quoted,
    skipSpace_solid (show isSpace ':' = false from rfl), read_gap style.keySpaces, value,
    String.ofList_toList]

/-- Fields read back up to the closing brace when each value does. -/
theorem readFields_render {items : List (String × Json)} {key : String} {item : Json} {fuel : Nat}
    (rest : List Char) (each : ∀ field ∈ (key, item) :: items, ReadsBack style field.2)
    (enough : (render style item).length + (renderFields style items).length ≤ fuel) :
    readFields fuel (quoted key ++ ':' :: (style.keyGap ++
        (render style item ++ (renderFields style items ++ rest)))) =
      some ((key, item) :: items, rest) := by
  have positive : 0 < (render style item).length := render_pos item
  have first : ReadsBack style item := each (key, item) List.mem_cons_self
  induction items generalizing key item fuel with
  | nil =>
    obtain ⟨fuel, rfl⟩ := Nat.exists_eq_succ_of_ne_zero (Nat.ne_of_gt (by omega : 0 < fuel))
    simp only [renderFields, List.length_singleton] at enough
    rw [renderFields, List.singleton_append,
      readFields_field first (by omega) (.of_cons rfl)]
    rfl
  | cons next items ih =>
    obtain ⟨fuel, rfl⟩ := Nat.exists_eq_succ_of_ne_zero (Nat.ne_of_gt (by omega : 0 < fuel))
    obtain ⟨nextKey, nextItem⟩ := next
    simp only [renderFields, List.length_cons, List.length_append] at enough
    have rest := fun field member => each field (List.mem_cons_of_mem _ member)
    have later := @ih nextKey nextItem fuel rest (by omega) (render_pos nextItem)
      (rest (nextKey, nextItem) List.mem_cons_self)
    simp only [renderFields, List.cons_append, List.append_assoc]
    rw [readFields_field first (by omega) (.of_cons rfl),
      skipSpace_solid (show isSpace ',' = false from rfl)]
    simp only [readFields_gap style.itemSpaces, later, Option.map_some]

theorem readsBack_arr {items : List Json} (each : ∀ value ∈ items, ReadsBack style value) :
    ReadsBack style (.arr items) := by
  intro fuel rest enough ends
  obtain ⟨fuel, rfl⟩ := Nat.exists_eq_succ_of_ne_zero
    (Nat.ne_of_gt (Nat.lt_of_lt_of_le (render_pos _) enough))
  cases items with
  | nil => simp [render, read, skipSpace, isSpace]
  | cons item items =>
    simp only [render, List.length_cons, List.length_append] at enough
    have back := @readItems_render _ _ _ _ fuel rest each (by omega)
    obtain ⟨c, text, opens, solid, more⟩ := render_opens style item
    simp only [render, List.cons_append, List.append_assoc, read,
      skipSpace_solid (show isSpace '[' = false from rfl)]
    rw [if_neg (by decide), if_pos trivial, skipSpace_render]
    split
    next shut =>
      rw [opens] at shut
      exact absurd (List.cons.inj shut).1 more
    · rw [back]
      rfl

theorem readsBack_obj {items : List (String × Json)}
    (each : ∀ field ∈ items, ReadsBack style field.2) : ReadsBack style (.obj items) := by
  intro fuel rest enough ends
  obtain ⟨fuel, rfl⟩ := Nat.exists_eq_succ_of_ne_zero
    (Nat.ne_of_gt (Nat.lt_of_lt_of_le (render_pos _) enough))
  rcases items with _ | ⟨⟨key, item⟩, items⟩
  · simp [render, read, skipSpace, isSpace]
  · simp only [render, List.length_cons, List.length_append] at enough
    have back := @readFields_render _ _ _ key _ fuel rest each (by omega)
    simp only [render, List.cons_append, List.append_assoc, read,
      skipSpace_solid (show isSpace '{' = false from rfl)]
    rw [if_neg (by decide), if_neg (by decide), if_pos trivial]
    rw [quoted_append] at back ⊢
    rw [skipSpace_solid (show isSpace '"' = false from rfl)]
    split
    next shut => exact absurd (List.cons.inj shut).1 (by decide)
    · rw [back]
      rfl

theorem readsBack_number {value : Json} {token : List Char} (rendered : render style value = token)
    (chars : (∀ c ∈ token, isNumberChar c = true) ∧ token ≠ [])
    (number : readNumber token = some value) : ReadsBack style value := by
  intro fuel rest enough ends
  obtain ⟨fuel, rfl⟩ := Nat.exists_eq_succ_of_ne_zero
    (Nat.ne_of_gt (Nat.lt_of_lt_of_le (render_pos _) enough))
  rw [rendered]
  exact read_number chars.1 chars.2 number ends

/-- Every rendered value reads back as itself. -/
theorem read_render : ∀ value : Json, ReadsBack style value := by
  -- the induction is over the value, its lists of items and its lists of fields
  refine @Json.rec (ReadsBack style) (fun items => ∀ item ∈ items, ReadsBack style item)
    (fun items => ∀ field ∈ items, ReadsBack style field.2) (fun field => ReadsBack style field.2)
    ?null ?bool ?int ?float ?str ?arr ?obj ?noItems ?items ?noFields ?fields ?field
  case int => exact fun value => readsBack_number rfl (renderInt_chars value) (readNumber_int value)
  case float => exact fun value => readsBack_number rfl (float_chars value) (readNumber_float value)
  case arr => exact fun _ each => readsBack_arr each
  case obj => exact fun _ each => readsBack_obj each
  case noItems => exact fun _ member => nomatch member
  case items => exact fun _ _ first later => List.forall_mem_cons.mpr ⟨first, later⟩
  case noFields => exact fun _ member => nomatch member
  case fields => exact fun _ _ first later => List.forall_mem_cons.mpr ⟨first, later⟩
  case field => exact fun _ _ back => back
  case str =>
    intro text fuel rest enough ends
    obtain ⟨fuel, rfl⟩ := Nat.exists_eq_succ_of_ne_zero
      (Nat.ne_of_gt (Nat.lt_of_lt_of_le (render_pos _) enough))
    exact read_quoted text rest
  case null =>
    intro fuel rest enough ends
    obtain ⟨fuel, rfl⟩ := Nat.exists_eq_succ_of_ne_zero
      (Nat.ne_of_gt (Nat.lt_of_lt_of_le (render_pos _) enough))
    simp [render, read, skipSpace, isSpace]
  case bool =>
    intro value fuel rest enough ends
    obtain ⟨fuel, rfl⟩ := Nat.exists_eq_succ_of_ne_zero
      (Nat.ne_of_gt (Nat.lt_of_lt_of_le (render_pos _) enough))
    cases value <;> simp [render, read, skipSpace, isSpace]

/-- Loading what was dumped gives the value. -/
theorem loads_dumps (value : Json) : loads (dumps style value) = some value := by
  have back := read_render value ((render style value).length + 1) [] (Nat.le_succ _)
    (fun _ first => nomatch first)
  rw [List.append_nil] at back
  simp [loads, dumps, back, skipSpace]

omit [FloatReader] in
/-- Values with one text are one value. -/
theorem dumps_inj {first second : Json} (same : dumps style first = dumps style second) :
    first = second := by
  let _ := FloatReader.exact
  have back : loads (dumps style first) = some first := loads_dumps first
  rw [same, loads_dumps] at back
  exact (Option.some.inj back).symm

instance : DecidableEq Json := fun first second =>
  decidable_of_iff (dumps compact first = dumps compact second) ⟨dumps_inj, congrArg _⟩

end Json
