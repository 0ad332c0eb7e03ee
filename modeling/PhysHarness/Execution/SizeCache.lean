import PhysHarness.Lib.Bytes
import PhysHarness.Lib.Memo
import PhysHarness.Execution.ChunkSequences

/-!
The sizes that the chunk encoder keeps.

A container is known by its identity, and its size is computed once. The objects that are measured
stay alive for the whole encoding, so an identity stands for one of them. Main result:
`serialized_size_exact`.
-/
namespace PhysHarness
namespace CheckpointChunks

/-- What is no dictionary and no list. -/
def isScalar : Json → Bool
  | .arr _ | .obj _ => false
  | _ => true

/-- A value in memory, whose containers have an identity. -/
inductive Item where
  | scalar (value : { value : Json // isScalar value = true })
  | list (id : Nat) (items : List Item)
  | dict (id : Nat) (fields : List (String × Item))

namespace Item

mutual

/-- The value without the identities. -/
def value : Item → Json
  | .scalar value => value.1
  | .list _ items => .arr (values items)
  | .dict _ fields => .obj (fieldValues fields)

def values : List Item → List Json
  | [] => []
  | item :: items => value item :: values items

def fieldValues : List (String × Item) → List (String × Json)
  | [] => []
  | (key, item) :: fields => (key, value item) :: fieldValues fields

end

/-- `id(item)` of a container -/
def identity : Item → Option Nat
  | .scalar _ => none
  | .list id _ | .dict id _ => some id

mutual

/-- The objects of a value, itself among them. -/
def objects : Item → List Item
  | .scalar value => [.scalar value]
  | .list id items => .list id items :: itemObjects items
  | .dict id fields => .dict id fields :: fieldObjects fields

def itemObjects : List Item → List Item
  | [] => []
  | item :: items => objects item ++ itemObjects items

def fieldObjects : List (String × Item) → List Item
  | [] => []
  | (_, item) :: fields => objects item ++ fieldObjects fields

end

end Item

/-- `sizes`, by identity -/
abbrev Sizes := List (Nat × Nat)

/-- `2 + max(len(parts) - 1, 0) + sum(parts)` -/
def containerSize (parts : List Nat) : Nat := 2 + (parts.length - 1) + parts.sum

mutual

/-- `_serialized_size` with the sizes that are kept -/
def cachedSize (item : Item) (sizes : Sizes) : Nat × Sizes :=
  match item with
  | .scalar value => (canonicalSize value.1, sizes)
  | .list id items =>
    match Dict.get sizes id with
    | some size => (size, sizes)
    | none =>
      let (parts, sizes) := cachedSizes items sizes
      (containerSize parts, Dict.set sizes id (containerSize parts))
  | .dict id fields =>
    match Dict.get sizes id with
    | some size => (size, sizes)
    | none =>
      let (parts, sizes) := cachedFieldSizes fields sizes
      (containerSize parts, Dict.set sizes id (containerSize parts))

/-- One value after the other, each with the sizes that the earlier ones left. -/
def cachedSizes (items : List Item) (sizes : Sizes) : List Nat × Sizes :=
  match items with
  | [] => ([], sizes)
  | item :: items =>
    let (size, sizes) := cachedSize item sizes
    let (parts, sizes) := cachedSizes items sizes
    (size :: parts, sizes)

def cachedFieldSizes (fields : List (String × Item)) (sizes : Sizes) : List Nat × Sizes :=
  match fields with
  | [] => ([], sizes)
  | (key, item) :: fields =>
    let (size, sizes) := cachedSize item sizes
    let (parts, sizes) := cachedFieldSizes fields sizes
    ((canonicalSize (.str key) + 1 + size) :: parts, sizes)

end

theorem cachedSizes_cons (item : Item) (items : List Item) (sizes : Sizes) :
    cachedSizes (item :: items) sizes =
      ((cachedSize item sizes).1 :: (cachedSizes items (cachedSize item sizes).2).1,
        (cachedSizes items (cachedSize item sizes).2).2) := rfl

theorem cachedFieldSizes_cons (key : String) (item : Item) (fields : List (String × Item))
    (sizes : Sizes) :
    cachedFieldSizes ((key, item) :: fields) sizes =
      ((canonicalSize (.str key) + 1 + (cachedSize item sizes).1) ::
          (cachedFieldSizes fields (cachedSize item sizes).2).1,
        (cachedFieldSizes fields (cachedSize item sizes).2).2) := rfl

/-- The sizes that are kept are those of the canonical texts. -/
abbrev RightSizes (objects : List Item) (sizes : Sizes) : Prop :=
  Memo.Right Item.identity (fun item => canonicalSize item.value) objects sizes

theorem Item.self_mem_objects (item : Item) : item ∈ item.objects := by
  cases item <;> simp [Item.objects]

theorem Item.values_eq_map (items : List Item) : Item.values items = items.map Item.value := by
  induction items with
  | nil => rfl
  | cons item items ih => rw [Item.values, ih, List.map_cons]

theorem Item.fieldValues_eq_map (fields : List (String × Item)) :
    Item.fieldValues fields = fields.map fun field => (field.1, field.2.value) := by
  induction fields with
  | nil => rfl
  | cons field fields ih =>
    obtain ⟨key, item⟩ := field
    rw [Item.fieldValues, ih, List.map_cons]

/-- The size of a list by its parts. -/
theorem canonicalSize_list (id : Nat) (items : List Item) :
    containerSize (items.map fun item => canonicalSize item.value) =
      canonicalSize (Item.list id items).value := by
  have parts : (Item.values items).map serializedSize =
      items.map fun item => canonicalSize item.value := by
    rw [Item.values_eq_map, List.map_map]
    exact List.map_congr_left fun item _ => serializedSize_eq item.value
  rw [← serializedSize_eq, Item.value, serializedSize, itemSizes_eq, parts, containerSize,
    List.length_map, Item.values_eq_map, List.length_map]

/-- The size of a dictionary by its parts. -/
theorem canonicalSize_dict (id : Nat) (fields : List (String × Item)) :
    containerSize (fields.map fun field =>
        canonicalSize (.str field.1) + 1 + canonicalSize field.2.value) =
      canonicalSize (Item.dict id fields).value := by
  have parts : (Item.fieldValues fields).map
        (fun field => utf8Size (Json.quoted field.1) + 1 + serializedSize field.2) =
      fields.map fun field => canonicalSize (.str field.1) + 1 + canonicalSize field.2.value := by
    rw [Item.fieldValues_eq_map, List.map_map]
    refine List.map_congr_left fun field _ => ?_
    rw [Function.comp_apply, serializedSize_eq, canonicalSize_eq (.str field.1)]
    rfl
  rw [← serializedSize_eq, Item.value, serializedSize, fieldSizes_eq, parts, containerSize,
    List.length_map, Item.fieldValues_eq_map, List.length_map]

section

variable {all : List Item}

/-- Measuring a value gives the size of its canonical text and keeps right sizes. -/
def Measures (all : List Item) (item : Item) : Prop :=
  item.objects ⊆ all → ∀ sizes, RightSizes all sizes →
    (cachedSize item sizes).1 = canonicalSize item.value ∧ RightSizes all (cachedSize item sizes).2

/-- The same for the items of a list, one after the other. -/
theorem cachedSizes_right {items : List Item} (each : ∀ item ∈ items, Measures all item)
    (inside : Item.itemObjects items ⊆ all) {sizes : Sizes} (right : RightSizes all sizes) :
    (cachedSizes items sizes).1 = items.map (fun item => canonicalSize item.value) ∧
      RightSizes all (cachedSizes items sizes).2 := by
  induction items generalizing sizes with
  | nil => exact ⟨rfl, right⟩
  | cons item items ih =>
    rw [Item.itemObjects, List.append_subset] at inside
    obtain ⟨first, kept⟩ := each item List.mem_cons_self inside.1 sizes right
    obtain ⟨rest, after⟩ := ih (fun item later => each item (List.mem_cons_of_mem _ later)) inside.2 kept
    rw [cachedSizes_cons]
    exact ⟨by rw [first, rest, List.map_cons], after⟩

theorem cachedFieldSizes_right {fields : List (String × Item)}
    (each : ∀ field ∈ fields, Measures all field.2) (inside : Item.fieldObjects fields ⊆ all)
    {sizes : Sizes} (right : RightSizes all sizes) :
    (cachedFieldSizes fields sizes).1 = fields.map (fun field =>
        canonicalSize (.str field.1) + 1 + canonicalSize field.2.value) ∧
      RightSizes all (cachedFieldSizes fields sizes).2 := by
  induction fields generalizing sizes with
  | nil => exact ⟨rfl, right⟩
  | cons field fields ih =>
    obtain ⟨key, item⟩ := field
    rw [Item.fieldObjects, List.append_subset] at inside
    obtain ⟨first, kept⟩ := each (key, item) List.mem_cons_self inside.1 sizes right
    obtain ⟨rest, after⟩ := ih (fun field later => each field (List.mem_cons_of_mem _ later)) inside.2 kept
    rw [cachedFieldSizes_cons]
    exact ⟨by rw [first, rest, List.map_cons], after⟩

/-- Every value is measured right, by induction over it. -/
theorem measures (one : Memo.OneObject Item.identity all) (item : Item) : Measures all item := by
  refine @Item.rec (Measures all) (fun items => ∀ item ∈ items, Measures all item)
    (fun fields => ∀ field ∈ fields, Measures all field.2) (fun field => Measures all field.2)
    ?scalar ?list ?dict ?noItems ?items ?noFields ?fields ?field item
  case scalar => exact fun value _ sizes right => ⟨rfl, right⟩
  case list =>
    intro id items each inside sizes right
    have here : Item.list id items ∈ all := inside (Item.self_mem_objects _)
    rw [Item.objects, List.cons_subset] at inside
    unfold cachedSize
    cases found : Dict.get sizes id with
    | some size => exact ⟨right _ here id size rfl found, right⟩
    | none =>
      obtain ⟨parts, kept⟩ := cachedSizes_right each inside.2 right
      dsimp only
      rw [parts, canonicalSize_list id]
      exact ⟨rfl, kept.set one here rfl⟩
  case dict =>
    intro id fields each inside sizes right
    have here : Item.dict id fields ∈ all := inside (Item.self_mem_objects _)
    rw [Item.objects, List.cons_subset] at inside
    unfold cachedSize
    cases found : Dict.get sizes id with
    | some size => exact ⟨right _ here id size rfl found, right⟩
    | none =>
      obtain ⟨parts, kept⟩ := cachedFieldSizes_right each inside.2 right
      dsimp only
      rw [parts, canonicalSize_dict id]
      exact ⟨rfl, kept.set one here rfl⟩
  case noItems => exact fun _ member => absurd member List.not_mem_nil
  case items => exact fun _ _ first later => List.forall_mem_cons.mpr ⟨first, later⟩
  case noFields => exact fun _ member => absurd member List.not_mem_nil
  case fields => exact fun _ _ first later => List.forall_mem_cons.mpr ⟨first, later⟩
  case field => exact fun _ _ same => same

end

/-- The sizes that are kept are those by which the encoder decides in the model. -/
theorem cachedSizes_eq_serializedSize {items : List Item}
    (one : Memo.OneObject Item.identity (Item.itemObjects items)) :
    (cachedSizes items []).1 = items.map fun item => serializedSize item.value := by
  have right := (cachedSizes_right (fun item _ => measures one item) (List.Subset.refl _)
    Memo.Right.nil).1
  simp only [serializedSize_eq]
  exact right

theorem length_utf8 (text : String) : (Bytes.utf8 text).length = utf8Size text.toList := by
  rw [utf8Size, Bytes.utf8, List.length_flatMap]
  simp only [String.length_utf8EncodeChar]

/-- The sizes of values that are measured one after the other are the UTF-8 lengths of their
canonical texts, also where they share containers or come again. -/
theorem serialized_size_exact {items : List Item}
    (one : Memo.OneObject Item.identity (Item.itemObjects items)) :
    (cachedSizes items []).1 =
      items.map fun item => (Bytes.utf8 (Json.canonical item.value)).length := by
  rw [cachedSizes_eq_serializedSize one]
  refine List.map_congr_left fun item _ => ?_
  rw [serializedSize_eq, canonicalSize, length_utf8]

namespace Scenario

/-- A list that two fields of a dictionary share. -/
def sharedRow : Item := .list 1 [.scalar ⟨.str "é", rfl⟩]

def sharing : Item := .dict 0 [("b", sharedRow), ("a", sharedRow)]

theorem sharing_objects {x : Item} (inside : x ∈ Item.itemObjects [sharing, sharedRow])
    {key : Nat} (named : x.identity = some key) :
    (key = 0 ∧ x = sharing) ∨ (key = 1 ∧ x = sharedRow) := by
  simp only [Item.itemObjects, sharing, sharedRow, Item.objects, Item.fieldObjects,
    List.cons_append, List.nil_append, List.mem_cons, List.not_mem_nil, or_false] at inside
  rcases inside with rfl | rfl | rfl | rfl | rfl | rfl | rfl <;>
    simp_all [Item.identity, sharing, sharedRow]

/-- The shared list is measured within the dictionary and again behind it. -/
theorem sharing_sizes :
    (cachedSizes [sharing, sharedRow] []).1 =
      [sharing, sharedRow].map fun item =>
        (Bytes.utf8 (Json.canonical item.value)).length := by
  refine serialized_size_exact fun x first y second key named same => ?_
  rcases sharing_objects first named with ⟨rfl, rfl⟩ | ⟨rfl, rfl⟩
  · exact ((sharing_objects second same).resolve_right (by simp)).2.symm
  · exact ((sharing_objects second same).resolve_left (by simp)).2.symm

end Scenario

end CheckpointChunks
end PhysHarness
