import PhysHarness.Lib.Json
import Mathlib.Data.Rat.Defs

/-!
JSON data as Python compares it.

Numbers are compared by their value, whatever their kind, and a truth value is one of the numbers 0 and 1.
Only what is neither a list nor a dictionary can be a key.
-/
namespace Python

abbrev Record := List (String × Json)

/-- `record.get(field)` -/
def lookup (record : Record) (field : String) : Json := (Dict.get record field).getD .null

/-- The number that a float is. -/
class FloatValue where
  value : FloatText → ℚ

/-- What a hashable value is as a key. -/
inductive Key where
  | none
  | number (value : ℚ)
  | text (text : String)
  deriving DecidableEq

variable [FloatValue]

def key : Json → Option Key
  | .null => some .none
  | .bool value => some (.number (if value then 1 else 0))
  | .int value => some (.number value)
  | .float value => some (.number (FloatValue.value value))
  | .str text => some (.text text)
  | .arr _ => none
  | .obj _ => none

mutual

/-- `==` -/
def same : Json → Json → Bool
  | .arr items, other =>
    match other with
    | .arr others => sameItems items others
    | _ => false
  | .obj fields, other =>
    match other with
    | .obj others => decide (fields.length = others.length) && sameFields fields others
    | _ => false
  | value, other => decide (key value = key other)

def sameItems : List Json → List Json → Bool
  | [], others => others.isEmpty
  | item :: items, others =>
    match others with
    | [] => false
    | other :: others => same item other && sameItems items others

def sameFields : List (String × Json) → List (String × Json) → Bool
  | [], _ => true
  | (name, value) :: fields, others =>
    (match Dict.get others name with
      | some other => same value other
      | none => false) && sameFields fields others

end

/-- `bool` -/
def truthy : Json → Bool
  | .null => false
  | .bool value => value
  | .int value => decide (value ≠ 0)
  | .float value => decide (FloatValue.value value ≠ 0)
  | .str text => decide (text ≠ "")
  | .arr items => !items.isEmpty
  | .obj fields => !fields.isEmpty

/-- Hashable values are equal when they are one key. -/
theorem same_iff {value : Json} {own : Key} (hashed : key value = some own) (other : Json) :
    same value other = true ↔ key other = some own := by
  cases value with
  | arr items => cases hashed
  | obj fields => cases hashed
  | _ => rw [same, hashed, decide_eq_true_iff, eq_comm] <;> nofun

theorem same_iff_of_key {other : Json} {own : Key} (hashed : key other = some own) (value : Json) :
    same value other = true ↔ key value = some own := by
  cases value with
  | arr items =>
    cases other with
    | arr others => cases hashed
    | _ => simp [same, key]
  | obj fields =>
    cases other with
    | obj others => cases hashed
    | _ => simp [same, key]
  | _ => rw [same, hashed, decide_eq_true_iff] <;> nofun

/-- Only a text is equal to a text. -/
theorem eq_of_same_str {value : Json} {text : String} (equal : same value (.str text) = true) :
    value = .str text := by
  have hashed : key value = some (.text text) := (same_iff_of_key rfl value).mp equal
  cases value with
  | str own =>
    obtain rfl := Key.text.inj (Option.some.inj hashed)
    rfl
  | _ => cases hashed

theorem sameFields_part {fields others : List (String × Json)} (distinct : (others.map Prod.fst).Nodup)
    (part : ∀ field ∈ fields, field ∈ others) (each : ∀ field ∈ fields, same field.2 field.2 = true) :
    sameFields fields others = true := by
  induction fields with
  | nil => rfl
  | cons field fields ih =>
    obtain ⟨name, value⟩ := field
    have stored : Dict.get others name = some value :=
      (Dict.get_eq_some distinct).mpr (part _ List.mem_cons_self)
    rw [sameFields, stored, Bool.and_eq_true]
    constructor
    · exact each _ List.mem_cons_self
    · exact ih (fun field member => part field (List.mem_cons_of_mem _ member))
        fun field member => each field (List.mem_cons_of_mem _ member)

/-- A value whose objects have each key once is equal to itself. -/
theorem same_self (value : Json) : Json.isDict value = true → same value value = true := by
  -- the induction is over the value, its lists of items and its lists of fields
  refine @Json.rec (fun value => Json.isDict value = true → same value value = true)
    (fun items => Json.areDicts items = true → sameItems items items = true)
    (fun fields => ∀ field ∈ fields, Json.isDict field.2 = true → same field.2 field.2 = true)
    (fun field => Json.isDict field.2 = true → same field.2 field.2 = true)
    ?null ?bool ?int ?float ?str ?arr ?obj ?noItems ?items ?noFields ?fields ?field value
  case null => simp [same]
  case bool => simp [same]
  case int => simp [same]
  case float => simp [same]
  case str => simp [same]
  case arr => exact fun items each dicts => each dicts
  case obj =>
    intro fields each dicts
    rw [Json.isDict, Bool.and_eq_true, decide_eq_true_iff, Json.fieldsAreDicts_iff] at dicts
    rw [same, decide_eq_true rfl, Bool.true_and]
    exact sameFields_part dicts.1 (fun _ member => member) fun field member =>
      each field member (dicts.2 field member)
  case noItems => exact fun _ => rfl
  case items =>
    intro item items first later dicts
    rw [Json.areDicts, Bool.and_eq_true] at dicts
    rw [sameItems, first dicts.1, later dicts.2, Bool.true_and]
  case noFields => exact fun _ member => absurd member List.not_mem_nil
  case fields => exact fun _ _ first later => List.forall_mem_cons.mpr ⟨first, later⟩
  case field => exact fun _ _ same => same

end Python
