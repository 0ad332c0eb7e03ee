import Mathlib.Algebra.Order.Monoid.Prod
import Mathlib.Algebra.Order.Ring.Nat
import PhysHarness.Execution.CheckpointChunks

/-!
Chunks and paged sequences are read back.

What the encoder stores under a reference is what the decoder reads there, at the cost that the
encoder has counted. Main result: `paged_costs`.
-/
namespace PhysHarness
namespace CheckpointChunks

open Metering Json

/-! ### Sizes -/

theorem utf8Size_append (first second : List Char) :
    utf8Size (first ++ second) = utf8Size first + utf8Size second := by
  simp [utf8Size]

theorem utf8Size_cons (c : Char) (text : List Char) :
    utf8Size (c :: text) = c.utf8Size + utf8Size text := by
  simp [utf8Size]

/-- The size of the compact text as the value lists its keys. -/
def textSize (value : Json) : Nat := utf8Size (render compact value)

theorem canonicalSize_eq (value : Json) : canonicalSize value = textSize (sortKeys value) := by
  simp [canonicalSize, canonical, dumps, textSize]

theorem renderItems_size (items : List Json) :
    utf8Size (renderItems compact items) = items.length + (items.map textSize).sum + 1 := by
  induction items with
  | nil => rfl
  | cons item items ih =>
    have gap : compact.itemGap = [] := rfl
    have comma : Char.utf8Size ',' = 1 := rfl
    rw [renderItems, utf8Size_cons, utf8Size_append, utf8Size_append, ih, gap, comma,
      List.map_cons, List.sum_cons, List.length_cons]
    have none : utf8Size [] = 0 := rfl
    have first : utf8Size (render compact item) = textSize item := rfl
    omega

theorem textSize_arr (items : List Json) :
    textSize (.arr items) = 2 + (items.length - 1) + (items.map textSize).sum := by
  cases items with
  | nil => rfl
  | cons item items =>
    have bracket : Char.utf8Size '[' = 1 := rfl
    have first : utf8Size (render compact item) = textSize item := rfl
    rw [textSize, render, utf8Size_cons, utf8Size_append, renderItems_size, bracket, first,
      List.map_cons, List.sum_cons, List.length_cons]
    omega

/-- A field's key, colon and value. -/
def fieldSize (field : String × Json) : Nat :=
  utf8Size (quoted field.1) + 1 + textSize field.2

theorem renderFields_size (fields : List (String × Json)) :
    utf8Size (renderFields compact fields) = fields.length + (fields.map fieldSize).sum + 1 := by
  induction fields with
  | nil => rfl
  | cons field fields ih =>
    obtain ⟨key, item⟩ := field
    have itemGap : compact.itemGap = [] := rfl
    have keyGap : compact.keyGap = [] := rfl
    have comma : Char.utf8Size ',' = 1 := rfl
    have colon : Char.utf8Size ':' = 1 := rfl
    have none : utf8Size [] = 0 := rfl
    have first : fieldSize (key, item) =
        utf8Size (quoted key) + 1 + utf8Size (render compact item) := rfl
    rw [renderFields, utf8Size_cons, utf8Size_append, utf8Size_append, utf8Size_cons,
      utf8Size_append, utf8Size_append, ih, itemGap, keyGap, comma, colon, List.map_cons,
      List.sum_cons, List.length_cons, first]
    omega

theorem textSize_obj (fields : List (String × Json)) :
    textSize (.obj fields) = 2 + (fields.length - 1) + (fields.map fieldSize).sum := by
  cases fields with
  | nil => rfl
  | cons field fields =>
    obtain ⟨key, item⟩ := field
    have keyGap : compact.keyGap = [] := rfl
    have brace : Char.utf8Size '{' = 1 := rfl
    have colon : Char.utf8Size ':' = 1 := rfl
    have none : utf8Size [] = 0 := rfl
    have first : fieldSize (key, item) =
        utf8Size (quoted key) + 1 + utf8Size (render compact item) := rfl
    rw [textSize, render, utf8Size_cons, utf8Size_append, utf8Size_cons, utf8Size_append,
      utf8Size_append, renderFields_size, keyGap, brace, colon, List.map_cons, List.sum_cons,
      List.length_cons, first]
    omega

theorem itemSizes_eq (items : List Json) : itemSizes items = (items.map serializedSize).sum := by
  induction items with
  | nil => rfl
  | cons item items ih => rw [itemSizes, ih, List.map_cons, List.sum_cons]

theorem fieldSizes_eq (fields : List (String × Json)) : fieldSizes fields =
    (fields.map fun field => utf8Size (quoted field.1) + 1 + serializedSize field.2).sum := by
  induction fields with
  | nil => rfl
  | cons field fields ih =>
    obtain ⟨key, item⟩ := field
    rw [fieldSizes, ih, List.map_cons, List.sum_cons, canonicalSize_eq]
    rfl

/-- The predicted size is that of the canonical text. -/
theorem serializedSize_eq (value : Json) : serializedSize value = canonicalSize value := by
  -- the induction is over the value, its lists of items and its lists of fields
  refine @Json.rec (fun value => serializedSize value = canonicalSize value)
    (fun items => ∀ item ∈ items, serializedSize item = canonicalSize item)
    (fun items => ∀ field ∈ items, serializedSize field.2 = canonicalSize field.2)
    (fun field => serializedSize field.2 = canonicalSize field.2)
    ?null ?bool ?int ?float ?str ?arr ?obj ?noItems ?items ?noFields ?fields ?field value
  case null => rfl
  case bool => exact fun _ => rfl
  case int => exact fun _ => rfl
  case float => exact fun _ => rfl
  case str => exact fun _ => rfl
  case arr =>
    intro items each
    have sizes : items.map serializedSize = items.map fun item => textSize (sortKeys item) :=
      List.map_congr_left fun item member => by rw [each item member, canonicalSize_eq]
    rw [serializedSize, itemSizes_eq, sizes, canonicalSize_eq, sortKeys, textSize_arr,
      sortItems_eq_map, List.length_map, List.map_map]
    rfl
  case obj =>
    intro fields each
    have perm := List.perm_insertionSort (fun x y : String × Json => x.1 ≤ y.1) (sortFields fields)
    have sizes : (fields.map fun field => utf8Size (quoted field.1) + 1 + serializedSize field.2) =
        (sortFields fields).map fieldSize := by
      rw [sortFields_eq_map, List.map_map]
      exact List.map_congr_left fun field member => by
        rw [each field member, canonicalSize_eq]
        rfl
    have length : (sortFields fields).length = fields.length := by
      rw [sortFields_eq_map, List.length_map]
    rw [serializedSize, fieldSizes_eq, sizes, canonicalSize_eq, sortKeys, textSize_obj,
      (perm.map fieldSize).sum_eq, perm.length_eq, length]
  case noItems => exact fun _ member => absurd member List.not_mem_nil
  case items => exact fun _ _ first later => List.forall_mem_cons.mpr ⟨first, later⟩
  case noFields => exact fun _ member => absurd member List.not_mem_nil
  case fields => exact fun _ _ first later => List.forall_mem_cons.mpr ⟨first, later⟩
  case field => exact fun _ _ same => same

theorem canonicalSize_sortKeys (value : Json) : canonicalSize (sortKeys value) = canonicalSize value := by
  rw [canonicalSize_eq, canonicalSize_eq, sortKeys_sortKeys]

/-! ### One chunk -/

/-- What decoding may use. -/
def limit : Nat × Nat := (maxNodes, maxBytes)

/-- The decoder reads the node under the reference, at any depth that is left. -/
structure Stored [ContentHash] [FloatReader] (read : String → Digest → Option String) (part ref : Json)
    (cost : Nat × Nat) : Prop where
  sorted : sortKeys ref = ref
  reads : ∀ left, 0 < left → Spends limit (node read left ref) (sortKeys part) cost

section

variable [HexHash] [FloatReader] (chunks : ChunkStore)

omit [FloatReader] in
theorem identityOf_put (content : String) : identityOf (reference (chunks.put content)) =
    .ok ((chunks.put content).id, (chunks.put content).sha256) := by
  have hex := HexHash.hex content
  rw [isSha256, Bool.and_eq_true, decide_eq_true_iff] at hex
  rw [← chunks.sha256_put] at hex
  simp [identityOf, reference, named, Dict.get, hex.1]

omit [HexHash] [FloatReader] in
theorem sortKeys_reference (chunk : StoredChunk) : sortKeys (reference chunk) = reference chunk := by
  simp [reference, sortKeys, sortFields]

theorem store_costs (part : Json) :
    Costs (store chunks.put part) fun ref cost => Stored chunks.read part ref cost := by
  intro used ref after done
  unfold store at done
  simp only at done
  split at done
  next => cases done
  next =>
    split at done
    next => cases done
    next fits =>
      cases done
      refine ⟨(1, utf8Size (canonical part).toList), rfl, sortKeys_reference _, fun left inside => ?_⟩
      intro used room
      obtain ⟨nodes, bytes⟩ : used.1 + 1 ≤ maxNodes ∧
          used.2 + utf8Size (canonical part).toList ≤ maxBytes := room
      have loaded : Json.loads (canonical part) = some (sortKeys part) := loads_dumps _
      unfold node
      rw [if_neg (by omega)]
      simp only [identityOf_put, bind, Except.bind, chunks.read_put]
      rw [if_neg fits, if_neg (not_not_intro (chunks.sha256_put _).symm),
        if_neg (Nat.not_lt.mpr bytes), loaded]
      rfl

/-! ### Sequences -/

/-- The decoder reads the items under the reference, through so many index levels. -/
structure Serves (kind : String) (level : Nat) (ref : Json) (items : List Json) (cost : Nat × Nat) :
    Prop where
  sorted : sortKeys ref = ref
  reads : ∀ left, level < left → Spends limit (visit chunks.read kind level left ref) items cost

omit [HexHash] [FloatReader] in
theorem sortItems_refs {related : Json → List Json → Nat × Nat → Prop} {refs : List Json}
    {items : List (List Json)} {cost : Nat × Nat}
    (sorted : ∀ ref items cost, related ref items cost → sortKeys ref = ref)
    (each : Each related refs items cost) : sortItems refs = refs := by
  induction each with
  | nil => rfl
  | cons first _ ih => rw [sortItems, sorted _ _ _ first, ih]

theorem serves_page {kind : String} {items : List Json} {ref : Json} {cost : Nat × Nat}
    (few : items.length ≤ listPage)
    (stored : Stored chunks.read (.obj [("type", .str kind), ("items", .arr items)]) ref cost) :
    Serves chunks kind 0 ref (items.map sortKeys) cost := by
  refine ⟨stored.sorted, fun left inside => ?_⟩
  have page : leafItems kind (sortKeys (.obj [("type", .str kind), ("items", .arr items)])) =
      some (items.map sortKeys) := by
    simp [leafItems, sortKeys, sortFields, sortItems_eq_map, Dict.get, few]
  rw [visit, ← add_zero cost]
  refine (stored.reads left inside).bind ?_
  rw [page]
  exact .pure _

theorem serves_index {kind : String} {level : Nat} {children : List Json}
    {items : List (List Json)} {ref : Json} {cost rest : Nat × Nat}
    (few : 1 ≤ children.length ∧ children.length ≤ indexPage)
    (stored : Stored chunks.read (.obj [("type", .str "index"), ("level", .int level),
      ("children", .arr children)]) ref cost)
    (each : Each (Serves chunks kind level) children items rest) :
    Serves chunks kind (level + 1) ref items.flatten (cost + rest) := by
  refine ⟨stored.sorted, fun left inside => ?_⟩
  have refs : sortItems children = children := sortItems_refs (fun _ _ _ => Serves.sorted) each
  have index : indexChildren level (sortKeys (.obj [("type", .str "index"), ("level", .int level),
      ("children", .arr children)])) = some children := by
    simp [indexChildren, sortKeys, sortFields, refs, Dict.get, few]
  rw [visit]
  refine (stored.reads left (by omega)).bind ?_
  rw [index]
  exact (Spends.mapM (each.mono fun _ _ _ _ serves => serves.reads (left - 1) (by omega))).map _

omit [HexHash] [FloatReader] in
/-- Related lists are cut into related pages. -/
theorem Each.cut {α β M : Type} [AddCommMonoid M] {related : α → β → M → Prop} {size : Nat}
    {xs : List α} {ys : List β} {cost : M} (each : Each related xs ys cost) :
    Each (Each related) (Paging.cut size xs) (Paging.cut size ys) cost := by
  induction xs using Paging.cut.induct size generalizing ys cost with
  | case1 =>
    cases each
    rw [Paging.cut, Paging.cut]
    exact .nil
  | case2 x xs ih =>
    cases each with
    | @cons _ y _ ys cost rest first later =>
      obtain ⟨before, after, total, page, others⟩ := later.split (size - 1)
      rw [Paging.cut, Paging.cut, total, ← add_assoc]
      exact .cons (.cons first page) (ih others)

theorem indexed_costs {kind : String} (fuel : Nat) {leaves : List Json} {level : Nat}
    {items : List (List Json)} {cost : Nat × Nat} (enough : leaves.length ≤ fuel)
    (each : Each (Serves chunks kind level) leaves items cost) :
    Costs (indexed chunks.put fuel leaves level) fun top more =>
      top.1.length ≤ indexPage ∧ ∃ pages : List (List Json), pages.flatten = items.flatten ∧
        Each (Serves chunks kind top.2) top.1 pages (cost + more) := by
  induction fuel generalizing leaves level items cost with
  | zero =>
    rw [indexed]
    refine .pure ⟨Nat.le_trans enough (Nat.zero_le _), items, rfl, ?_⟩
    rwa [add_zero]
  | succ fuel ih =>
    rw [indexed]
    split
    next many =>
      refine (Costs.mapM fun children _ => store_costs chunks _).bind fun refs paid stored => ?_
      have bounded : Each (fun children ref cost => (1 ≤ children.length ∧
          children.length ≤ indexPage) ∧ Stored chunks.read (.obj [("type", .str "index"),
            ("level", .int level), ("children", .arr children)]) ref cost)
          (Paging.cut indexPage leaves) refs paid :=
        stored.mono fun children member _ _ one =>
          ⟨Paging.length_of_mem_cut (by decide) member, one⟩
      have groups : Each (Each (Serves chunks kind level)) (Paging.cut indexPage leaves)
          (Paging.cut indexPage items) cost := Each.cut each
      have served : Each (Serves chunks kind (level + 1)) refs
          ((Paging.cut indexPage items).map List.flatten) (paid + cost) := by
        refine ((bounded.zip groups).mono fun ref _ page total => ?_).map_right
        rintro ⟨children, cost, rest, ⟨few, one⟩, group, rfl⟩
        exact serves_index chunks few one group
      have fewer := Paging.length_cut_le (show 2 ≤ indexPage by decide) leaves
      rw [stored.length] at fewer
      unfold indexPage at many
      refine (ih (by omega) served).mono fun top more => ?_
      rintro ⟨few, pages, same, rest⟩
      refine ⟨few, pages, ?_, ?_⟩
      · rw [same, ← List.flatten_flatten, Paging.flatten_cut]
      · rwa [add_comm paid, add_assoc] at rest
    next few =>
      refine .pure ⟨Nat.le_of_not_lt few, items, rfl, ?_⟩
      rwa [add_zero]

/-- The decoder reads a header of the kind under the reference, and the items of its sequence. -/
structure ReadsSequence (kind : String) (left : Nat) (ref : Json) (items : List Json)
    (cost : Nat × Nat) : Prop where
  sorted : sortKeys ref = ref
  reads : ∃ (part : Json) (header : SequenceHeader) (first rest : Nat × Nat), cost = first + rest ∧
    Spends limit (node chunks.read left ref) part first ∧ headerOf part = some header ∧
    header.kind = kind ∧ Spends limit (sequenceItems chunks.read header left) items rest

omit [HexHash] [FloatReader] in
theorem pages_flatten (entries : List Json) :
    (if entries = [] then [[]] else Paging.cut listPage entries).flatten = entries := by
  split
  next empty => rw [empty]; rfl
  next => exact Paging.flatten_cut listPage entries

omit [HexHash] [FloatReader] in
theorem pages_few {entries page : List Json}
    (member : page ∈ if entries = [] then [[]] else Paging.cut listPage entries) :
    page.length ≤ listPage := by
  split at member
  next => rw [List.mem_singleton.mp member]; decide
  next => exact (Paging.length_of_mem_cut (by decide) member).2

theorem sequenceItems_spends {header : SequenceHeader} {left : Nat} {pages : List (List Json)}
    {cost : Nat × Nat} (deep : header.level + 2 ≤ left)
    (each : Each (Serves chunks header.kind header.level) header.children pages cost)
    (length : pages.flatten.length = header.length) :
    Spends limit (sequenceItems chunks.read header left) pages.flatten cost := by
  rw [sequenceItems, ← add_zero cost]
  refine (Spends.mapM (each.mono fun _ _ _ _ serves =>
    serves.reads (left - 1) (by omega))).bind ?_
  rw [if_pos length]
  exact .pure _

theorem paged_costs {kind : String} (known : kind ∈ ["list", "dict", "text"]) (entries : List Json)
    (left : Nat) : Costs (paged chunks.put kind entries listPage left) fun ref cost =>
      ReadsSequence chunks kind left ref (entries.map sortKeys) cost := by
  unfold paged
  refine (Costs.mapM fun items _ => store_costs chunks _).bind fun leaves cost stored => ?_
  have served : Each (Serves chunks kind 0) leaves
      ((if entries = [] then [[]] else Paging.cut listPage entries).map (List.map sortKeys)) cost :=
    (stored.mono fun page member _ _ one => serves_page chunks (pages_few member) one).swap
  refine (indexed_costs chunks _ (Nat.le_refl _) served).bind fun top more indexed => ?_
  obtain ⟨leaves, level⟩ := top
  obtain ⟨few, pages, same, each⟩ := indexed
  dsimp only at few each ⊢
  have items : pages.flatten = entries.map sortKeys := by
    rw [same, ← List.map_flatten, pages_flatten]
  split
  next => exact .throw
  next deep =>
    refine (store_costs chunks _).mono fun ref rest header => ⟨header.sorted, ?_⟩
    have refs : sortItems leaves = leaves := sortItems_refs (fun _ _ _ => Serves.sorted) each
    refine ⟨_, ⟨kind, level, leaves, entries.length⟩, rest, cost + more, ?_,
      header.reads left (by omega), ?_, rfl, ?_⟩
    · rw [add_comm rest, add_assoc]
    · simp only [List.mem_cons, List.not_mem_nil, or_false] at known
      simp [headerOf, asFields, field, asText, asItems, sortKeys, sortFields, refs, Dict.get, known,
        few]
    · rw [← items]
      exact sequenceItems_spends chunks (Nat.le_of_not_lt deep) each
        (by rw [items, List.length_map])

end

end CheckpointChunks
end PhysHarness
