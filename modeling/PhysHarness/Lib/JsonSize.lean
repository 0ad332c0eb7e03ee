import PhysHarness.Lib.Bytes
import PhysHarness.Lib.Clipping
import Mathlib.Algebra.Group.Action.Defs
import Mathlib.Algebra.Order.BigOperators.Group.List
import Mathlib.Data.Bool.AllAny

/-!
The bytes of a JSON text.

The size of a container is the sum over its items, each with its separator, so a change of one field
changes the size by the difference of the two values.
-/
namespace Json

open Clipping

/-- The UTF-8 bytes of a text. -/
def bytes (text : List Char) : Nat := cost Char.utf8Size text

/-- The bytes of `json.dumps(value, ensure_ascii=False)`. -/
def size (value : Json) : Nat := bytes (render {} value)

/-- The bytes of a text between its quotes. -/
def escapedBytes (text : List Char) : Nat := bytes (text.flatMap escapeChar)

/-- A field with its colon and its separator. -/
def fieldBytes (field : String × Json) : Nat := bytes (quoted field.1) + size field.2 + 4

theorem bytes_quoted (text : String) : bytes (quoted text) = escapedBytes text.toList + 2 := by
  have quote : Char.utf8Size '"' = 1 := rfl
  simp only [bytes, quoted, escapedBytes, cost_cons, cost_append, cost_nil, quote]
  omega

@[simp] theorem size_str (text : String) : size (.str text) = escapedBytes text.toList + 2 := by
  rw [size, render, bytes_quoted]

@[simp] theorem size_null : size .null = 4 := rfl

@[simp] theorem size_bool (value : Bool) : size (.bool value) = if value then 4 else 5 := by
  cases value <;> rfl

/-- A digit takes one byte. -/
theorem size_int (n : Nat) : size (.int n) = (digits n).length := by
  have ascii : ∀ c ∈ digits n, c.utf8Size = 1 := by
    intro c member
    have digit := digits_isDigit c member
    rw [Char.utf8Size_eq_one_iff]
    simp only [Char.isDigit, Bool.and_eq_true, decide_eq_true_eq] at digit
    exact UInt32.le_trans digit.2 (by decide)
  have ones : (digits n).map Char.utf8Size = List.replicate (digits n).length 1 :=
    List.map_eq_replicate_iff.mpr ascii
  change ((digits n).map Char.utf8Size).sum = _
  simp [ones]

theorem size_int_le {n width : Nat} (some_digit : 0 < width) (small : n < 10 ^ width) :
    size (.int n) ≤ width := by
  rw [size_int]
  exact (Nat.length_toDigits_le_iff (by decide) some_digit).mpr small

theorem bytes_renderFields (fields : List (String × Json)) :
    bytes (renderFields {} fields) = (fields.map fieldBytes).sum + 1 := by
  induction fields with
  | nil => rfl
  | cons field fields ih =>
    obtain ⟨key, value⟩ := field
    have comma : Char.utf8Size ',' = 1 := rfl
    have colon : Char.utf8Size ':' = 1 := rfl
    have space : Char.utf8Size ' ' = 1 := rfl
    have first : cost Char.utf8Size (render {} value) = size value := rfl
    have name : cost Char.utf8Size (quoted key) = bytes (quoted key) := rfl
    have rest : cost Char.utf8Size (renderFields {} fields) = (fields.map fieldBytes).sum + 1 := ih
    rw [bytes]
    simp only [renderFields, cost_cons, cost_append, cost_nil, comma, colon, space, first,
      name, rest, List.map_cons, List.sum_cons, fieldBytes]
    omega

/-- The brackets of an object take the place of one separator. -/
theorem size_obj (field : String × Json) (fields : List (String × Json)) :
    size (.obj (field :: fields)) = ((field :: fields).map fieldBytes).sum := by
  obtain ⟨key, value⟩ := field
  have bracket : Char.utf8Size '{' = 1 := rfl
  have colon : Char.utf8Size ':' = 1 := rfl
  have space : Char.utf8Size ' ' = 1 := rfl
  have first : cost Char.utf8Size (render {} value) = size value := rfl
  have name : cost Char.utf8Size (quoted key) = bytes (quoted key) := rfl
  have rest : cost Char.utf8Size (renderFields {} fields) = (fields.map fieldBytes).sum + 1 :=
    bytes_renderFields fields
  rw [size, bytes]
  simp only [render, cost_cons, cost_append, cost_nil, bracket, colon, space, first, name, rest,
    List.map_cons, List.sum_cons, fieldBytes]
  omega

/-- An array of one item. -/
theorem size_singleton (item : Json) : size (.arr [item]) = size item + 2 := by
  have opening : Char.utf8Size '[' = 1 := rfl
  have closing : Char.utf8Size ']' = 1 := rfl
  simp only [size, bytes, render, renderItems, cost_cons, cost_append, cost_nil, opening, closing]
  omega

/-! ### Escapes -/

@[simp] theorem escapedBytes_nil : escapedBytes [] = 0 := rfl

theorem escapedBytes_append (first second : List Char) :
    escapedBytes (first ++ second) = escapedBytes first + escapedBytes second := by
  simp [escapedBytes, bytes]

theorem escapedBytes_mono {part text : List Char} (within : part <+: text) :
    escapedBytes part ≤ escapedBytes text := by
  obtain ⟨rest, rfl⟩ := within
  rw [escapedBytes_append]
  exact Nat.le_add_right _ _

theorem escapedBytes_replicate (n : Nat) (c : Char) :
    escapedBytes (List.replicate n c) = n * bytes (escapeChar c) := by
  induction n with
  | zero => simp
  | succ n ih =>
    rw [List.replicate_succ, ← List.singleton_append, escapedBytes_append, ih, Nat.succ_mul,
      Nat.add_comm]
    simp [escapedBytes]

theorem bytes_hexDigit {n : Nat} (small : n < 16) : bytes [hexDigit n] = 1 := by
  revert n
  decide

theorem bytes_control {c : Char} (low : c.toNat < 32) :
    bytes ['\\', 'u', '0', '0', hexDigit (c.toNat / 16), hexDigit (c.toNat % 16)] = 6 := by
  have high := bytes_hexDigit (n := c.toNat / 16) (by omega)
  have rest := bytes_hexDigit (n := c.toNat % 16) (by omega)
  have slash : Char.utf8Size '\\' = 1 := rfl
  have letter : Char.utf8Size 'u' = 1 := rfl
  have zero : Char.utf8Size '0' = 1 := rfl
  simp only [bytes, cost_cons, cost_nil, slash, letter, zero] at *
  omega

/-- An escape takes at most six bytes. -/
theorem bytes_escapeChar_le (c : Char) : bytes (escapeChar c) ≤ 6 := by
  have wide := Char.utf8Size_le_four c
  have plain : bytes [c] = c.utf8Size := by simp [bytes]
  have pair : ∀ d ∈ ['"', '\\', 'n', 'r', 't', 'b', 'f'], bytes ['\\', d] ≤ 6 :=
    List.all_iff_forall_prop.mp (by decide)
  unfold escapeChar
  split_ifs with _ _ _ _ _ _ _ low
  all_goals first
    | exact (bytes_control low).le
    | exact pair _ (by decide)
    | omega

theorem escapedBytes_le (text : List Char) : escapedBytes text ≤ 6 * text.length := by
  induction text with
  | nil => exact Nat.le_refl _
  | cons c text ih =>
    have one := bytes_escapeChar_le c
    rw [← List.singleton_append, escapedBytes_append, List.length_append, List.length_singleton]
    have first : escapedBytes [c] = bytes (escapeChar c) := by simp [escapedBytes]
    omega

/-! ### Bounds by the lengths of the texts -/

theorem size_str_le (text : String) : size (.str text) ≤ 6 * text.length + 2 := by
  have escaped := escapedBytes_le text.toList
  rw [String.length_toList] at escaped
  rw [size_str]
  omega

theorem fieldBytes_le (key : String) (value : Json) :
    fieldBytes (key, value) ≤ 6 * key.length + size value + 6 := by
  have name := size_str_le key
  rw [size_str, ← bytes_quoted] at name
  simp only [fieldBytes]
  omega

theorem size_obj_le {fields : List (String × Json)} {limit : Nat}
    (each : ∀ field ∈ fields, fieldBytes field ≤ limit) :
    size (.obj fields) ≤ fields.length * limit + 2 := by
  cases fields with
  | nil => exact Nat.le_add_left _ _
  | cons field fields =>
    rw [size_obj]
    have total := List.sum_le_card_nsmul ((field :: fields).map fieldBytes) limit fun bytes member => by
      obtain ⟨field, inside, rfl⟩ := List.mem_map.mp member
      exact each field inside
    rw [List.length_map, smul_eq_mul] at total
    exact total.trans (Nat.le_add_right _ _)

/-- An object of short texts. -/
theorem size_texts_le {fields : List (String × String)} {limit : Nat}
    (each : ∀ field ∈ fields, 6 * (field.1.length + field.2.length) + 8 ≤ limit) :
    size (.obj (fields.map fun field => (field.1, .str field.2))) ≤ fields.length * limit + 2 := by
  have bound := @size_obj_le (fields.map fun field => (field.1, .str field.2)) limit
  rw [List.length_map] at bound
  refine bound fun field member => ?_
  obtain ⟨item, inside, rfl⟩ := List.mem_map.mp member
  have name := fieldBytes_le item.1 (.str item.2)
  have text := size_str_le item.2
  have room := each item inside
  omega

/-- The bytes of an encoded text. -/
theorem length_utf8_dumps (value : Json) : (Bytes.utf8 (dumps {} value)).length = size value := by
  rw [Bytes.utf8_dumps, size, bytes]
  induction render {} value with
  | nil => rfl
  | cons c text ih => rw [List.flatMap_cons, List.length_append, ih, cost_cons,
      String.length_utf8EncodeChar]

end Json
