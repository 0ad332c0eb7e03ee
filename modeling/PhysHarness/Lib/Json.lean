import Mathlib.Data.List.Nodup
import Mathlib.Data.List.Sort
import Mathlib.Data.String.Basic

/-!
JSON data and its text.

Python's encoder writes the items of a container in order, so a value keeps the order of its keys;
`sorted` is the value that `sort_keys` writes. A finite float is known by its `repr`, which is what
the encoder writes and what the decoder reads back as the same float.
-/

/-! ### Dictionaries, which keep the order of insertion -/

namespace Dict

variable {κ α : Type} [DecidableEq κ]

def get (items : List (κ × α)) (key : κ) : Option α :=
  (items.find? fun item => item.1 = key).map Prod.snd

/-- A key that is there keeps its place. -/
def set (items : List (κ × α)) (key : κ) (value : α) : List (κ × α) :=
  if key ∈ items.map Prod.fst then
    items.map fun item => if item.1 = key then (key, value) else item
  else items ++ [(key, value)]

theorem mem_of_get {items : List (κ × α)} {key : κ} {value : α} (found : get items key = some value) :
    (key, value) ∈ items := by
  obtain ⟨item, here, rfl⟩ := Option.map_eq_some_iff.mp found
  have same := List.find?_some here
  rw [← of_decide_eq_true same]
  exact List.mem_of_find?_eq_some here

theorem mem_set {items : List (κ × α)} {key : κ} {value : α} {item : κ × α} :
    item ∈ set items key value ↔ item = (key, value) ∨ (item ∈ items ∧ item.1 ≠ key) := by
  unfold set
  split
  next known =>
    obtain ⟨old, stored, same⟩ := List.mem_map.mp known
    constructor
    · intro member
      obtain ⟨before, there, changed⟩ := List.mem_map.mp member
      split at changed
      next => exact .inl changed.symm
      next other => exact .inr ⟨changed ▸ there, changed ▸ other⟩
    · rintro (rfl | ⟨there, other⟩)
      · exact List.mem_map.mpr ⟨old, stored, if_pos same⟩
      · exact List.mem_map.mpr ⟨item, there, if_neg other⟩
  next unknown =>
    constructor
    · intro member
      rcases List.mem_append.mp member with there | last
      · exact .inr ⟨there, fun same => unknown (List.mem_map.mpr ⟨item, there, same⟩)⟩
      · exact .inl (List.mem_singleton.mp last)
    · rintro (rfl | ⟨there, _⟩)
      · exact List.mem_append_right _ (List.mem_singleton.mpr rfl)
      · exact List.mem_append_left _ there

theorem get_eq_some {items : List (κ × α)} (distinct : (items.map Prod.fst).Nodup) {key : κ}
    {value : α} : get items key = some value ↔ (key, value) ∈ items := by
  refine ⟨mem_of_get, fun member => ?_⟩
  cases found : items.find? fun item => item.1 = key with
  | none => simpa using List.find?_eq_none.mp found _ member
  | some item =>
    have matched := List.find?_some found
    have same : item = (key, value) := List.inj_on_of_nodup_map distinct
      (List.mem_of_find?_eq_some found) member (of_decide_eq_true matched)
    rw [get, found, same]
    rfl

theorem keys_set {items : List (κ × α)} {key : κ} (known : key ∈ items.map Prod.fst) (value : α) :
    (set items key value).map Prod.fst = items.map Prod.fst := by
  rw [set, if_pos known, List.map_map]
  refine List.map_congr_left fun item _ => ?_
  simp only [Function.comp_apply]
  split
  next same => exact same.symm
  · rfl

theorem nodup_set {items : List (κ × α)} (distinct : (items.map Prod.fst).Nodup) (key : κ) (value : α) :
    ((set items key value).map Prod.fst).Nodup := by
  by_cases known : key ∈ items.map Prod.fst
  · rwa [keys_set known]
  · rw [set, if_neg known, List.map_append, List.nodup_append]
    refine ⟨distinct, List.nodup_singleton _, ?_⟩
    rintro first member last there rfl
    obtain rfl : first = key := List.mem_singleton.mp there
    exact known member

theorem mem_keys_of_get {items : List (κ × α)} {key : κ} {value : α}
    (found : get items key = some value) : key ∈ items.map Prod.fst :=
  List.mem_map_of_mem (mem_of_get found)

theorem get_append_new {items : List (κ × α)} {key : κ} (fresh : key ∉ items.map Prod.fst)
    (value : α) : get (items ++ [(key, value)]) key = some value := by
  have none : (items.find? fun item => item.1 = key) = none := by
    refine List.find?_eq_none.mpr fun item member same => ?_
    exact fresh (List.mem_map.mpr ⟨item, member, of_decide_eq_true same⟩)
  rw [get, List.find?_append, none]
  simp

theorem get_set_ne {key other : κ} (distinct : other ≠ key) (items : List (κ × α)) (value : α) :
    get (set items key value) other = get items other := by
  have absent : decide (key = other) = false := decide_eq_false distinct.symm
  unfold set
  split
  next known =>
    clear known
    unfold get
    induction items with
    | nil => rfl
    | cons item items ih =>
      rw [List.map_cons, List.find?_cons, List.find?_cons]
      by_cases here : item.1 = key
      · rw [if_pos here, here]
        simpa [absent] using ih
      · rw [if_neg here]
        split
        · rfl
        · exact ih
  next => rw [get, List.find?_append, get]; simp [absent]

theorem get_set_self (items : List (κ × α)) (key : κ) (value : α) :
    get (set items key value) key = some value := by
  by_cases known : key ∈ items.map Prod.fst
  · rw [set, if_pos known]
    unfold get
    induction items with
    | nil => exact absurd known (by simp)
    | cons item items ih =>
      rw [List.map_cons, List.find?_cons]
      by_cases here : item.1 = key
      · simp [here]
      · have later : key ∈ items.map Prod.fst := by
          rcases List.mem_cons.mp known with same | later
          · exact absurd same.symm here
          · exact later
        rw [if_neg here]
        simpa [here] using ih later
  · rw [set, if_neg known]
    exact get_append_new known value

theorem get_perm {first second : List (κ × α)} (perm : first.Perm second)
    (distinct : (first.map Prod.fst).Nodup) (key : κ) : get first key = get second key := by
  have others : (second.map Prod.fst).Nodup := (perm.map Prod.fst).nodup_iff.mp distinct
  refine Option.ext fun value => ?_
  rw [get_eq_some distinct, get_eq_some others, perm.mem_iff]

end Dict

namespace JsonNumber

def isNumberChar (c : Char) : Bool := c.isDigit || c ∈ ['.', 'e', 'E', '+', '-']

/-- Without the sign. -/
def unsigned (text : List Char) : List Char := if text.head? = some '-' then text.tail else text

def isExponent : List Char → Bool
  | [] => true
  | mark :: rest =>
    let power := if rest.head? = some '+' || rest.head? = some '-' then rest.tail else rest
    (mark = 'e' || mark = 'E') && !power.isEmpty && power.all Char.isDigit

def isFraction : List Char → Bool
  | '.' :: rest =>
    !(rest.takeWhile Char.isDigit).isEmpty && isExponent (rest.dropWhile Char.isDigit)
  | rest => isExponent rest

/-- What follows the digits of the whole part. -/
def fraction (text : List Char) : List Char := (unsigned text).dropWhile Char.isDigit

/-- The grammar of a number: no leading zeros, then a fraction and an exponent. -/
def isNumber (text : List Char) : Bool :=
  let whole := (unsigned text).takeWhile Char.isDigit
  !whole.isEmpty && (whole.head? ≠ some '0' || whole.length = 1) && isFraction (fraction text)

end JsonNumber

/-- A finite float, known by its `repr`. -/
abbrev FloatText :=
  { text : List Char //
    (text.all JsonNumber.isNumberChar && JsonNumber.isNumber text &&
      !(JsonNumber.fraction text).isEmpty) = true }

inductive Json where
  | null
  | bool (value : Bool)
  | int (value : Int)
  | float (value : FloatText)
  | str (value : String)
  | arr (items : List Json)
  | obj (items : List (String × Json))

namespace Json

/-- A text or `None`. -/
def ofOption : Option String → Json
  | some text => .str text
  | none => .null

/-- What is read of each item of a list. -/
theorem mem_mapM {α β : Type} {read : α → Option β} {items : List α} {values : List β}
    (found : items.mapM read = some values) (value : β) :
    value ∈ values ↔ ∃ item ∈ items, read item = some value := by
  induction items generalizing values with
  | nil =>
    obtain rfl := Option.some.inj found
    simp
  | cons item items ih =>
    rw [List.mapM_cons] at found
    obtain ⟨first, known, found⟩ := Option.bind_eq_some_iff.mp found
    obtain ⟨rest, later, found⟩ := Option.bind_eq_some_iff.mp found
    obtain rfl := Option.some.inj found
    rw [List.mem_cons, ih later, List.exists_mem_cons_iff, known, Option.some.injEq, eq_comm]

def isSpace (c : Char) : Bool := c ∈ [' ', '\t', '\n', '\r']

theorem gap_spaces : [' '].all isSpace = true := by decide

/-- The spaces after the separators of items and of keys. -/
structure Style where
  itemGap : List Char := [' ']
  keyGap : List Char := [' ']
  itemSpaces : itemGap.all isSpace = true := by exact Json.gap_spaces
  keySpaces : keyGap.all isSpace = true := by exact Json.gap_spaces

/-- `separators=(",", ":")` -/
def compact : Style :=
  { itemGap := [], keyGap := [], itemSpaces := List.all_nil, keySpaces := List.all_nil }

def hexDigit (n : Nat) : Char := Nat.digitChar n

/-- One character inside a string, with `ensure_ascii=False`. -/
def escapeChar (c : Char) : List Char :=
  if c = '"' then ['\\', '"']
  else if c = '\\' then ['\\', '\\']
  else if c = '\n' then ['\\', 'n']
  else if c = '\r' then ['\\', 'r']
  else if c = '\t' then ['\\', 't']
  else if c = '\x08' then ['\\', 'b']
  else if c = '\x0c' then ['\\', 'f']
  else if c.toNat < 32 then
    ['\\', 'u', '0', '0', hexDigit (c.toNat / 16), hexDigit (c.toNat % 16)]
  else [c]

def quoted (text : String) : List Char := '"' :: (text.toList.flatMap escapeChar ++ ['"'])

def digits (n : Nat) : List Char := Nat.toDigits 10 n

def renderInt : Int → List Char
  | .ofNat n => digits n
  | .negSucc n => '-' :: digits (n + 1)

mutual

/-- The encoder's text of a value. -/
def render (style : Style) : Json → List Char
  | .null => ['n', 'u', 'l', 'l']
  | .bool true => ['t', 'r', 'u', 'e']
  | .bool false => ['f', 'a', 'l', 's', 'e']
  | .int value => renderInt value
  | .float value => value.1
  | .str value => quoted value
  | .arr [] => ['[', ']']
  | .arr (item :: items) => '[' :: (render style item ++ renderItems style items)
  | .obj [] => ['{', '}']
  | .obj ((key, item) :: items) =>
    '{' :: (quoted key ++ ':' :: (style.keyGap ++ (render style item ++ renderFields style items)))

def renderItems (style : Style) : List Json → List Char
  | [] => [']']
  | item :: items => ',' :: (style.itemGap ++ (render style item ++ renderItems style items))

def renderFields (style : Style) : List (String × Json) → List Char
  | [] => ['}']
  | (key, item) :: items =>
    ',' :: (style.itemGap ++
      (quoted key ++ ':' :: (style.keyGap ++ (render style item ++ renderFields style items))))

end

/-- `json.dumps(value, ensure_ascii=False)` in a style. -/
def dumps (style : Style) (value : Json) : String := .ofList (render style value)

mutual

/-- The value that `sort_keys` writes. -/
def sortKeys : Json → Json
  | .arr items => .arr (sortItems items)
  | .obj items => .obj ((sortFields items).insertionSort fun x y => x.1 ≤ y.1)
  | value => value

def sortItems : List Json → List Json
  | [] => []
  | item :: items => sortKeys item :: sortItems items

def sortFields : List (String × Json) → List (String × Json)
  | [] => []
  | (key, item) :: items => (key, sortKeys item) :: sortFields items

end

/-- `canonical_json`. -/
def canonical (value : Json) : String := dumps compact (sortKeys value)

/-! ### Sorted keys -/

theorem sortFields_eq_map (items : List (String × Json)) :
    sortFields items = items.map fun item => (item.1, sortKeys item.2) := by
  induction items with
  | nil => rfl
  | cons item items ih => obtain ⟨key, value⟩ := item; simp [sortFields, ih]

theorem sortItems_eq_map (items : List Json) : sortItems items = items.map sortKeys := by
  induction items with
  | nil => rfl
  | cons item items ih => simp [sortItems, ih]

/-- The fields in the order of their keys stay as they are. -/
theorem insertionSort_fields (items : List (String × Json)) :
    (items.insertionSort fun x y => x.1 ≤ y.1).insertionSort (fun x y => x.1 ≤ y.1) =
      items.insertionSort fun x y => x.1 ≤ y.1 := by
  have : Std.Total fun x y : String × Json => x.1 ≤ y.1 := ⟨fun x y => le_total x.1 y.1⟩
  have : IsTrans (String × Json) fun x y => x.1 ≤ y.1 := ⟨fun _ _ _ => le_trans⟩
  exact (List.pairwise_insertionSort _ items).insertionSort_eq

/-- Sorting the keys once is enough. -/
theorem sortKeys_sortKeys (value : Json) : sortKeys (sortKeys value) = sortKeys value := by
  -- the induction is over the value, its lists of items and its lists of fields
  refine @Json.rec (fun value => sortKeys (sortKeys value) = sortKeys value)
    (fun items => ∀ item ∈ items, sortKeys (sortKeys item) = sortKeys item)
    (fun items => ∀ field ∈ items, sortKeys (sortKeys field.2) = sortKeys field.2)
    (fun field => sortKeys (sortKeys field.2) = sortKeys field.2)
    ?null ?bool ?int ?float ?str ?arr ?obj ?noItems ?items ?noFields ?fields ?field value
  case null => rfl
  case bool => exact fun _ => rfl
  case int => exact fun _ => rfl
  case float => exact fun _ => rfl
  case str => exact fun _ => rfl
  case arr =>
    intro items each
    simpa [sortKeys, sortItems_eq_map] using each
  case obj =>
    intro items each
    have again : (sortFields items).map (fun item => (item.1, sortKeys item.2)) = sortFields items := by
      simpa [sortFields_eq_map] using each
    simp only [sortKeys]
    congr 1
    have moved := List.map_insertionSort (fun x y : String × Json => x.1 ≤ y.1)
      (fun x y : String × Json => x.1 ≤ y.1) (fun field => (field.1, sortKeys field.2))
      (sortFields items) fun _ _ _ _ => Iff.rfl
    rw [sortFields_eq_map ((sortFields items).insertionSort _), moved, again, insertionSort_fields]
  case noItems => exact fun _ member => nomatch member
  case items => exact fun _ _ first later => List.forall_mem_cons.mpr ⟨first, later⟩
  case noFields => exact fun _ member => nomatch member
  case fields => exact fun _ _ first later => List.forall_mem_cons.mpr ⟨first, later⟩
  case field => exact fun _ _ back => back

/-! ### Values as dictionaries -/

mutual

/-- Every object in the value has each of its keys once. -/
def isDict : Json → Bool
  | .arr items => areDicts items
  | .obj fields => decide (fields.map Prod.fst).Nodup && fieldsAreDicts fields
  | _ => true

def areDicts : List Json → Bool
  | [] => true
  | item :: items => isDict item && areDicts items

def fieldsAreDicts : List (String × Json) → Bool
  | [] => true
  | (_, item) :: items => isDict item && fieldsAreDicts items

end

theorem areDicts_iff {items : List Json} :
    areDicts items = true ↔ ∀ item ∈ items, isDict item = true := by
  induction items with
  | nil => simp [areDicts]
  | cons item items ih => simp [areDicts, ih]

theorem fieldsAreDicts_iff {fields : List (String × Json)} :
    fieldsAreDicts fields = true ↔ ∀ field ∈ fields, isDict field.2 = true := by
  induction fields with
  | nil => simp [fieldsAreDicts]
  | cons field fields ih => obtain ⟨key, item⟩ := field; simp [fieldsAreDicts, ih]

/-- Equality of the values as dictionaries, whatever the order of their keys. -/
def Same (first second : Json) : Prop := sortKeys first = sortKeys second

theorem same_sortKeys (value : Json) : Same (sortKeys value) value := sortKeys_sortKeys value

/-- Sorting by distinct names does not depend on the order before. -/
theorem insertionSort_by {α : Type} {first second : List α} (name : α → String)
    (perm : first.Perm second) (distinct : (first.map name).Nodup) :
    (first.insertionSort fun x y => name x ≤ name y) =
      second.insertionSort fun x y => name x ≤ name y := by
  have : Std.Total fun x y : α => name x ≤ name y := ⟨fun x y => le_total (name x) (name y)⟩
  have : IsTrans α fun x y => name x ≤ name y := ⟨fun _ _ _ => le_trans⟩
  refine List.Perm.eq_of_pairwise (fun a b here there one other => ?_)
    (List.pairwise_insertionSort _ first) (List.pairwise_insertionSort _ second)
    ((List.perm_insertionSort _ first).trans (perm.trans (List.perm_insertionSort _ second).symm))
  have inside := (List.mem_insertionSort _).mp here
  have outside := perm.mem_iff.mpr ((List.mem_insertionSort _).mp there)
  exact List.inj_on_of_nodup_map distinct inside outside (le_antisymm one other)

/-- The order in which an object lists its fields does not matter. -/
theorem insertionSort_congr {α : Type} {first second : List (String × α)} (perm : first.Perm second)
    (distinct : (first.map Prod.fst).Nodup) :
    (first.insertionSort fun x y => x.1 ≤ y.1) = second.insertionSort fun x y => x.1 ≤ y.1 :=
  insertionSort_by Prod.fst perm distinct

theorem same_obj {first second : List (String × Json)}
    (perm : (sortFields first).Perm (sortFields second))
    (distinct : (first.map Prod.fst).Nodup) : Same (.obj first) (.obj second) := by
  have keys : ((sortFields first).map Prod.fst).Nodup := by
    rwa [sortFields_eq_map, List.map_map]
  simp only [Same, sortKeys, insertionSort_congr perm keys]

theorem same_arr {first second : List Json} (each : List.Forall₂ Same first second) :
    Same (.arr first) (.arr second) := by
  have items : sortItems first = sortItems second := by
    induction each with
    | nil => rfl
    | cons one _ ih => rw [sortItems, sortItems, ih, one]
  rw [Same, sortKeys, sortKeys, items]

/-- Objects with equal values, key by key. -/
theorem same_fields {first second : List (String × Json)}
    (each : List.Forall₂ (fun x y => x.1 = y.1 ∧ Same x.2 y.2) first second) :
    Same (.obj first) (.obj second) := by
  have fields : sortFields first = sortFields second := by
    rw [sortFields_eq_map, sortFields_eq_map]
    induction each with
    | nil => rfl
    | cons one _ ih => rw [List.map_cons, List.map_cons, ih, one.1, one.2]
  rw [Same, sortKeys, sortKeys, fields]

theorem get_sortFields (fields : List (String × Json)) (key : String) :
    Dict.get (sortFields fields) key = (Dict.get fields key).map sortKeys := by
  rw [sortFields_eq_map, Dict.get, Dict.get, List.find?_map]
  simp only [Function.comp_def, Option.map_map]

theorem Same.fields_perm {first second : List (String × Json)} (same : Same (.obj first) (.obj second)) :
    (sortFields first).Perm (sortFields second) := by
  have sorted : ((sortFields first).insertionSort fun x y => x.1 ≤ y.1) =
      (sortFields second).insertionSort fun x y => x.1 ≤ y.1 := by
    simpa only [Same, sortKeys, Json.obj.injEq] using same
  refine (List.perm_insertionSort (fun x y : String × Json => x.1 ≤ y.1) _).symm.trans ?_
  rw [sorted]
  exact List.perm_insertionSort _ _

/-- Equal objects have equal values under each key. -/
theorem get_same {first second : List (String × Json)} (same : Same (.obj first) (.obj second))
    (distinct : (second.map Prod.fst).Nodup) (key : String) :
    (Dict.get first key).map sortKeys = (Dict.get second key).map sortKeys := by
  have keys : ((sortFields second).map Prod.fst).Nodup := by
    rwa [sortFields_eq_map, List.map_map]
  rw [← get_sortFields, ← get_sortFields, Dict.get_perm same.fields_perm.symm keys]

/-- What is equal to an object is an object with equal values under the same keys. -/
theorem Same.obj_inv {value : Json} {fields : List (String × Json)} (same : Same value (.obj fields))
    (distinct : (fields.map Prod.fst).Nodup) : ∃ found : List (String × Json), value = .obj found ∧
      (found.map Prod.fst).Perm (fields.map Prod.fst) ∧
      ∀ key, (Dict.get found key).map sortKeys = (Dict.get fields key).map sortKeys := by
  cases value with
  | null | bool | int | float | str => cases same
  | arr items => cases same
  | obj found =>
    refine ⟨found, rfl, ?_, get_same same distinct⟩
    have keys := same.fields_perm.map Prod.fst
    rwa [sortFields_eq_map, sortFields_eq_map, List.map_map, List.map_map] at keys

theorem isDict_sortKeys (value : Json) : isDict (sortKeys value) = isDict value := by
  -- the induction is over the value, its lists of items and its lists of fields
  refine @Json.rec (fun value => isDict (sortKeys value) = isDict value)
    (fun items => ∀ item ∈ items, isDict (sortKeys item) = isDict item)
    (fun items => ∀ field ∈ items, isDict (sortKeys field.2) = isDict field.2)
    (fun field => isDict (sortKeys field.2) = isDict field.2)
    ?null ?bool ?int ?float ?str ?arr ?obj ?noItems ?items ?noFields ?fields ?field value
  case null => rfl
  case bool => exact fun _ => rfl
  case int => exact fun _ => rfl
  case float => exact fun _ => rfl
  case str => exact fun _ => rfl
  case arr =>
    intro items each
    have same : areDicts (sortItems items) = areDicts items := by
      rw [Bool.eq_iff_iff, areDicts_iff, areDicts_iff, sortItems_eq_map]
      simp only [List.forall_mem_map]
      exact forall₂_congr fun item member => by rw [each item member]
    rw [sortKeys, isDict, isDict, same]
  case obj =>
    intro fields each
    have perm := List.perm_insertionSort (fun x y : String × Json => x.1 ≤ y.1) (sortFields fields)
    have keys : (((sortFields fields).insertionSort fun x y => x.1 ≤ y.1).map Prod.fst).Nodup ↔
        (fields.map Prod.fst).Nodup := by
      rw [(perm.map Prod.fst).nodup_iff, sortFields_eq_map, List.map_map]
      rfl
    have values : fieldsAreDicts ((sortFields fields).insertionSort fun x y => x.1 ≤ y.1) =
        fieldsAreDicts fields := by
      rw [Bool.eq_iff_iff, fieldsAreDicts_iff, fieldsAreDicts_iff]
      simp only [List.mem_insertionSort, sortFields_eq_map, List.forall_mem_map]
      exact forall₂_congr fun field member => by rw [each field member]
    rw [sortKeys, isDict, isDict, values, decide_eq_decide.mpr keys]
  case noItems => exact fun _ member => nomatch member
  case items => exact fun _ _ first later => List.forall_mem_cons.mpr ⟨first, later⟩
  case noFields => exact fun _ member => nomatch member
  case fields => exact fun _ _ first later => List.forall_mem_cons.mpr ⟨first, later⟩
  case field => exact fun _ _ same => same

theorem Same.isDict {first second : Json} (same : Same first second)
    (dict : isDict second = true) : Json.isDict first = true := by
  rw [← isDict_sortKeys, same, isDict_sortKeys, dict]

end Json
