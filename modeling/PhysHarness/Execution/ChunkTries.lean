import PhysHarness.Execution.ChunkSequences

/-!
Tries of key digests are read back.

The encoder splits the entries by the nibbles of their digests, and says beforehand how deep each
leaf will lie. The decoder puts the leaves together, in another order of the keys.
Main result: `branch_costs`.
-/
namespace PhysHarness
namespace CheckpointChunks

open Metering Json

/-! ### Splitting by nibbles -/

/-- What is split by a key is still there. -/
theorem flatMap_filter_perm {α β : Type} [DecidableEq β] {key : α → Option β} {digits : List β}
    (distinct : digits.Nodup) {group : List α} (covered : ∀ x ∈ group, ∃ d ∈ digits, key x = some d) :
    (digits.flatMap fun d => group.filter fun x => key x = some d).Perm group := by
  induction digits generalizing group with
  | nil =>
    cases group with
    | nil => exact .refl _
    | cons x group =>
      obtain ⟨d, member, _⟩ := covered x List.mem_cons_self
      cases member
  | cons d digits ih =>
    obtain ⟨fresh, distinct⟩ := List.nodup_cons.mp distinct
    let others := group.filter fun x => !decide (key x = some d)
    have left : ∀ x ∈ others, ∃ d ∈ digits, key x = some d := by
      intro x member
      obtain ⟨inside, other⟩ := List.mem_filter.mp member
      obtain ⟨e, known, here⟩ := covered x inside
      rcases List.mem_cons.mp known with rfl | later
      · simp [here] at other
      · exact ⟨e, later, here⟩
    have same : ∀ e ∈ digits, (group.filter fun x => key x = some e) =
        others.filter fun x => key x = some e := by
      intro e member
      rw [List.filter_filter]
      refine List.filter_congr fun x _ => ?_
      by_cases here : key x = some e
      · have other : e ≠ d := fun same => fresh (same ▸ member)
        simp [here, other]
      · simp [here]
    have rest : (digits.flatMap fun e => group.filter fun x => key x = some e) =
        digits.flatMap fun e => others.filter fun x => key x = some e :=
      List.flatMap_congr same
    rw [List.flatMap_cons, rest]
    exact ((ih distinct left).append_left _).trans (List.filter_append_perm _ group)

/-! ### Leaves -/

section

variable [HexHash] [FloatReader] (chunks : ChunkStore)

/-- The decoder reads the value of the entry, and has the levels for it. -/
structure Holds (left : Nat) (entry : TrieEntry) (item : Json) (cost : Nat × Nat) : Prop where
  inside : 0 < left
  reads : Spends limit (decodeValue chunks.read left (sortKeys entry.descriptor)) item cost

/-- The decoder reads the fields under the reference, in some order. -/
structure ReadsMapping (left : Nat) (ref : Json) (fields : List (String × Json)) (cost : Nat × Nat) :
    Prop where
  sorted : sortKeys ref = ref
  reads : ∃ found : List (String × Json), found.Perm fields ∧
    Spends limit (decodeMapping chunks.read left ref) found cost

def leafPair (entry : TrieEntry) : Json := .arr [.str entry.key, sortKeys entry.descriptor]

variable (decoded : TrieEntry → Json) (price : TrieEntry → Nat × Nat)

def fieldOf (entry : TrieEntry) : String × Json := (entry.key, decoded entry)

omit [HexHash] [FloatReader] in
theorem map_fieldOf (group : List TrieEntry) :
    (group.map (fieldOf decoded)).map Prod.fst = group.map TrieEntry.key := by
  rw [List.map_map]
  rfl

theorem pairs_spend {left : Nat} {group : List TrieEntry}
    (holds : ∀ entry ∈ group, Holds chunks left entry (decoded entry) (price entry))
    (result : List (String × Json))
    (distinct : ((result ++ group.map (fieldOf decoded)).map Prod.fst).Nodup) :
    Spends limit ((group.map leafPair).foldlM (decodePair chunks.read left) result)
      (result ++ group.map (fieldOf decoded)) (group.map price).sum := by
  induction group generalizing result with
  | nil =>
    rw [List.map_nil, List.map_nil, List.append_nil]
    exact .pure result
  | cons entry group ih =>
    obtain ⟨first, later⟩ := List.forall_mem_cons.mp holds
    have shift : result ++ (entry :: group).map (fieldOf decoded) =
        (result ++ [fieldOf decoded entry]) ++ group.map (fieldOf decoded) := by simp
    have fresh : entry.key ∉ result.map Prod.fst := by
      rw [List.map_append] at distinct
      have apart := (List.nodup_append.mp distinct).2.2
      exact fun known => apart _ known entry.key (by simp [fieldOf]) rfl
    have pair : Spends limit (decodePair chunks.read left result (leafPair entry))
        (result ++ [fieldOf decoded entry]) (price entry) := by
      rw [leafPair, decodePair, if_neg fresh]
      exact first.reads.map _
    rw [shift] at distinct ⊢
    rw [List.map_cons, List.foldlM_cons, List.map_cons, List.sum_cons]
    exact pair.bind (ih later _ distinct)

omit [HexHash] [FloatReader] in
theorem triePart_leaf {group : List TrieEntry} (few : group.length ≤ listPage) :
    triePart (sortKeys (leafNode group)) =
      .ok (.leaf ((group.insertionSort fun x y => x.key ≤ y.key).map leafPair)) := by
  have pairs : sortItems ((group.insertionSort fun x y => x.key ≤ y.key).map fun entry =>
      .arr [.str entry.key, entry.descriptor]) =
        (group.insertionSort fun x y => x.key ≤ y.key).map leafPair := by
    rw [sortItems_eq_map, List.map_map]
    rfl
  simp only [leafNode, sortKeys, sortFields, pairs]
  have names : ["items", "type"].Perm ["type", "items"] := .swap ..
  simp [triePart, Dict.get, named, few, names]

theorem leaf_costs {left : Nat} {group : List TrieEntry} (few : group.length ≤ listPage)
    (distinct : (group.map TrieEntry.key).Nodup)
    (holds : ∀ entry ∈ group, Holds chunks left entry (decoded entry) (price entry)) :
    Costs (store chunks.put (leafNode group)) fun ref cost =>
      ReadsMapping chunks left ref (group.map (fieldOf decoded)) (cost + (group.map price).sum) := by
  refine (store_costs chunks _).mono fun ref cost stored => ⟨stored.sorted, ?_⟩
  have perm := List.perm_insertionSort (fun x y : TrieEntry => x.key ≤ y.key) group
  refine ⟨_, perm.map (fieldOf decoded), ?_⟩
  rw [decodeMapping]
  refine (stored.reads (left + 1) (Nat.succ_pos left)).bind ?_
  rw [triePart_leaf few, ← (perm.map price).sum_eq]
  have sorted := pairs_spend chunks decoded price
    (fun entry member => holds entry (perm.mem_iff.mp member)) []
    (by rwa [List.nil_append, map_fieldOf, (perm.map TrieEntry.key).nodup_iff])
  exact sorted

/-! ### Branches -/

theorem children_spend {left : Nat} {children : List (String × Json)}
    {parts : List (List (String × Json))} {cost : Nat × Nat}
    (each : Each (fun child part cost => ReadsMapping chunks left child.2 part cost) children parts cost)
    (result : List (String × Json)) (distinct : ((result ++ parts.flatten).map Prod.fst).Nodup) :
    ∃ found : List (String × Json), found.Perm (result ++ parts.flatten) ∧
      Spends limit ((children.map Prod.snd).foldlM (fun result child => do
        let items ← decodeMapping chunks.read left child
        if items.any fun item => item.1 ∈ result.map Prod.fst then
          throw (invalid "Native checkpoint mapping has duplicate keys.")
        else pure (result ++ items)) result) found cost := by
  induction each generalizing result with
  | nil => exact ⟨result, by simp, .pure result⟩
  | @cons child part children parts cost rest first _ ih =>
    obtain ⟨_, fields, perm, reads⟩ := first
    have shift : (result ++ fields ++ parts.flatten).Perm (result ++ (part :: parts).flatten) := by
      rw [List.flatten_cons, ← List.append_assoc]
      exact (perm.append_left result).append_right _
    have apart : ((result ++ fields ++ parts.flatten).map Prod.fst).Nodup :=
      (shift.map Prod.fst).nodup_iff.mpr distinct
    obtain ⟨found, same, later⟩ := ih (result ++ fields) apart
    refine ⟨found, same.trans shift, ?_⟩
    have fresh : (fields.any fun item => item.1 ∈ result.map Prod.fst) = false := by
      rw [List.map_append, List.map_append] at apart
      have disjoint := (List.nodup_append.mp (List.nodup_append.mp apart).1).2.2
      rw [List.any_eq_false]
      intro item member known
      exact disjoint _ (of_decide_eq_true known) _ (List.mem_map_of_mem member) rfl
    rw [List.map_cons, List.foldlM_cons]
    refine Spends.bind ?_ later
    rw [← add_zero cost]
    refine reads.bind ?_
    rw [if_neg (by rw [fresh]; decide)]
    exact .pure _

omit [HexHash] [FloatReader] in
theorem le_leafNibble (rest : Nat) (digests : List Digest) (n : Nat) (digest : Digest) :
    n ≤ leafNibble rest digests n digest := by
  induction rest generalizing digests n with
  | zero => exact Nat.le_refl n
  | succ rest ih =>
    rw [leafNibble]
    split
    next => exact Nat.le_refl n
    next => exact Nat.le_of_succ_le (ih _ (n + 1))

omit [HexHash] [FloatReader] in
/-- The entries that share a digit are split on as the encoder foresees. -/
theorem leafNibble_filter {rest : Nat} {group : List TrieEntry} {n : Nat} {digit : Char}
    {entry : TrieEntry} (many : ¬ group.length ≤ listPage) (here : nibble entry.digest n = some digit) :
    leafNibble (rest + 1) (group.map TrieEntry.digest) n entry.digest =
      leafNibble rest ((group.filter fun other => nibble other.digest n = some digit).map
        TrieEntry.digest) (n + 1) entry.digest := by
  rw [leafNibble, if_neg (by rwa [List.length_map]), List.filter_map, here]
  rfl

omit [HexHash] [FloatReader] in
/-- A hexadecimal digest has a hexadecimal digit at every place. -/
theorem nibble_hex {digest : Digest} (hex : isSha256 digest = true) {n : Nat} (inside : n < 64) :
    ∃ digit ∈ hexDigits, nibble digest n = some digit := by
  rw [isSha256, Bool.and_eq_true, decide_eq_true_iff, List.all_eq_true] at hex
  have length : digest.toList.length = 64 := by rw [String.length_toList, hex.1]
  have there : n < digest.toList.length := by omega
  refine ⟨digest.toList[n], ?_, List.getElem?_eq_getElem there⟩
  exact of_decide_eq_true (hex.2 _ (List.getElem_mem there))

omit [HexHash] [FloatReader] in
theorem singleton_le {c d : Char} (least : c ≤ d) : String.singleton c ≤ String.singleton d := by
  rw [String.le_iff_toList_le, String.toList_singleton, String.toList_singleton]
  rcases lt_or_eq_of_le least with less | rfl
  · exact le_of_lt (List.Lex.rel less)
  · exact le_refl _

omit [HexHash] [FloatReader] in
theorem sortKeys_children {children : List (String × Json)} {digits : List Char}
    (names : children.map Prod.fst = digits.map String.singleton) (ordered : digits.Sublist hexDigits)
    (sorted : ∀ child ∈ children, sortKeys child.2 = child.2) :
    sortKeys (.obj children) = .obj children := by
  have same : sortFields children = children := by
    rw [sortFields_eq_map]
    refine (List.map_congr_left fun child member => ?_).trans (List.map_id children)
    rw [sorted child member]
    rfl
  have ascending : (children.map Prod.fst).Pairwise (· ≤ ·) := by
    have digits : hexDigits.Pairwise (· ≤ ·) := by decide
    have all : (hexDigits.map String.singleton).Pairwise (· ≤ ·) :=
      List.pairwise_map.mpr (digits.imp singleton_le)
    rw [names]
    exact all.sublist (ordered.map _)
  rw [sortKeys, same, (List.pairwise_map.mp ascending).insertionSort_eq]

omit [HexHash] [FloatReader] in
theorem triePart_branch {children : List (String × Json)} {digits : List Char} {n : Nat}
    (inside : n < 64) (names : children.map Prod.fst = digits.map String.singleton)
    (ordered : digits.Sublist hexDigits) (nonempty : digits ≠ [])
    (sorted : ∀ child ∈ children, sortKeys child.2 = child.2) :
    triePart (sortKeys (.obj [("type", .str "dict_branch"), ("nibble", .int n),
      ("children", .obj children)])) = .ok (.branch (children.map Prod.snd)) := by
  have keys := sortKeys_children names ordered sorted
  have length : children.length = digits.length := by
    simpa using congrArg List.length names
  have few : 1 ≤ children.length ∧ children.length ≤ 16 := by
    have most : digits.length ≤ 16 := ordered.length_le
    have least := List.length_pos_of_ne_nil nonempty
    omega
  have known : ∀ child ∈ children, child.1 ∈ hexDigits.map String.singleton := by
    intro child member
    have name : child.1 ∈ children.map Prod.fst := List.mem_map_of_mem member
    rw [names] at name
    exact (ordered.map _).subset name
  have part : sortKeys (.obj [("type", .str "dict_branch"), ("nibble", .int n),
      ("children", .obj children)]) = .obj [("children", .obj children), ("nibble", .int n),
        ("type", .str "dict_branch")] := by
    rw [sortKeys, sortFields, sortFields, sortFields, keys]
    simp [sortKeys, sortFields]
  have fields : named [("children", .obj children), ("nibble", .int n), ("type", .str "dict_branch")]
      ["type", "nibble", "children"] = true :=
    decide_eq_true (List.reverse_perm ["type", "nibble", "children"])
  have range : (0 : Int) ≤ n ∧ (n : Int) < 64 := by omega
  rw [part]
  simp only [triePart, Dict.get]
  simp
  exact ⟨fields, by omega, few.1, few.2, fun name child member => by simpa using known _ member⟩

/-- The entries that have the digit at the place. -/
def sharing (group : List TrieEntry) (n : Nat) (digit : Char) : List TrieEntry :=
  group.filter fun entry => nibble entry.digest n = some digit

/-- The digits that some entry has at the place, in order. -/
def digitsAt (group : List TrieEntry) (n : Nat) : List Char :=
  hexDigits.filter fun digit => group.any fun entry => nibble entry.digest n = some digit

omit [HexHash] [FloatReader] in
theorem sharing_perm {group : List TrieEntry} {n : Nat}
    (hex : ∀ entry ∈ group, isSha256 entry.digest = true) (inside : n < 64) :
    ((digitsAt group n).flatMap (sharing group n)).Perm group := by
  have distinct : (digitsAt group n).Nodup := List.Nodup.filter _ (by decide)
  refine flatMap_filter_perm distinct fun entry member => ?_
  obtain ⟨digit, known, here⟩ := nibble_hex (hex entry member) inside
  refine ⟨digit, List.mem_filter.mpr ⟨known, List.any_eq_true.mpr ⟨entry, member, ?_⟩⟩, here⟩
  exact decide_eq_true here

omit [HexHash] [FloatReader] in
theorem sharing_nonempty {group : List TrieEntry} {n : Nat} {digit : Char}
    (member : digit ∈ digitsAt group n) : sharing group n digit ≠ [] := by
  obtain ⟨entry, there, here⟩ := List.any_eq_true.mp (List.mem_filter.mp member).2
  exact List.ne_nil_of_mem (List.mem_filter.mpr ⟨there, here⟩)

/-- The children of a branch, stored under their digits, are read as the whole group. -/
theorem branch_reads {left : Nat} {group : List TrieEntry} {n : Nat}
    {children : List (String × Json)} {paid : Nat × Nat} (inside : n < 64) (nonempty : group ≠ [])
    (distinct : (group.map TrieEntry.key).Nodup)
    (hex : ∀ entry ∈ group, isSha256 entry.digest = true)
    (each : Each (fun digit child cost => child.1 = String.singleton digit ∧
      ReadsMapping chunks left child.2 ((sharing group n digit).map (fieldOf decoded))
        (cost + ((sharing group n digit).map price).sum)) (digitsAt group n) children paid) :
    Costs (store chunks.put (.obj [("type", .str "dict_branch"), ("nibble", .int n),
      ("children", .obj children)])) fun ref cost =>
        ReadsMapping chunks (left + 1) ref (group.map (fieldOf decoded))
          (paid + cost + (group.map price).sum) := by
  refine (store_costs chunks _).mono fun ref cost stored => ⟨stored.sorted, ?_⟩
  have perm := sharing_perm hex inside
  have names : children.map Prod.fst = (digitsAt group n).map String.singleton :=
    each.map_eq fun _ _ _ one => one.1
  have some : digitsAt group n ≠ [] := by
    intro none
    rw [none, List.flatMap_nil] at perm
    exact nonempty perm.nil_eq.symm
  have sums : ((digitsAt group n).map fun digit => ((sharing group n digit).map price).sum).sum =
      (group.map price).sum := by
    rw [← (perm.map price).sum_eq, List.map_flatMap, List.flatMap_def, List.sum_flatten,
      List.map_map]
    rfl
  have fields : ((digitsAt group n).map fun digit =>
      (sharing group n digit).map (fieldOf decoded)).flatten.Perm (group.map (fieldOf decoded)) := by
    rw [← List.flatMap_def, ← List.map_flatMap]
    exact perm.map _
  have refs : ∀ child ∈ children, sortKeys child.2 = child.2 :=
    each.forall_right fun _ _ _ one => one.2.sorted
  have served : Each (fun child part cost => ReadsMapping chunks left child.2 part cost) children
      ((digitsAt group n).map fun digit => (sharing group n digit).map (fieldOf decoded))
      (paid + (group.map price).sum) := by
    rw [← sums]
    refine Each.swap ((each.more fun digit =>
      ((sharing group n digit).map price).sum).mono fun digit _ child total => ?_)
    rintro ⟨own, rfl, one⟩
    exact one.2
  obtain ⟨found, same, reads⟩ := children_spend chunks served [] (by
    rwa [List.nil_append, (fields.map Prod.fst).nodup_iff, map_fieldOf])
  refine ⟨found, same.trans fields, ?_⟩
  have total : paid + cost + (group.map price).sum = cost + (paid + (group.map price).sum) := by
    rw [add_comm paid, add_assoc]
  rw [decodeMapping, total]
  refine (stored.reads (left + 2) (Nat.succ_pos _)).bind ?_
  rw [triePart_branch inside names (List.filter_sublist) some refs]
  exact reads

theorem branch_costs (rest : Nat) {group : List TrieEntry} {n left : Nat} (whole : n + rest = 64)
    (bound : left + n ≤ maxDepth) (nonempty : group ≠ [])
    (distinct : (group.map TrieEntry.key).Nodup)
    (hex : ∀ entry ∈ group, isSha256 entry.digest = true)
    (holds : ∀ entry ∈ group, Holds chunks
      (left + n - leafNibble rest (group.map TrieEntry.digest) n entry.digest) entry (decoded entry)
      (price entry)) :
    Costs (branch chunks.put rest group n) fun ref cost =>
      ReadsMapping chunks left ref (group.map (fieldOf decoded)) (cost + (group.map price).sum) := by
  induction rest generalizing group n left with
  | zero =>
    unfold maxDepth at bound
    omega
  | succ rest ih =>
    rw [branch]
    split
    next few =>
      refine leaf_costs chunks decoded price few distinct fun entry member => ?_
      have held := holds entry member
      rwa [leafNibble, if_pos (by rwa [List.length_map]), Nat.add_sub_cancel] at held
    next many =>
      have inside : n < 64 := by omega
      have deeper : ∀ digit ∈ digitsAt group n, ∀ entry ∈ sharing group n digit,
          leafNibble (rest + 1) (group.map TrieEntry.digest) n entry.digest =
            leafNibble rest ((sharing group n digit).map TrieEntry.digest) (n + 1) entry.digest :=
        fun digit _ entry member =>
          leafNibble_filter many (of_decide_eq_true (List.mem_filter.mp member).2)
      -- an entry lies in some subtree, so there is a level for it
      obtain ⟨below, rfl⟩ : ∃ below, left = below + 1 := by
        obtain ⟨entry, member⟩ := List.exists_mem_of_ne_nil group nonempty
        obtain ⟨digit, known, there⟩ := List.mem_flatMap.mp
          ((sharing_perm hex inside).mem_iff.mpr member)
        have room := (holds entry member).inside
        have least := le_leafNibble rest ((sharing group n digit).map TrieEntry.digest) (n + 1)
          entry.digest
        rw [deeper digit known entry there] at room
        exact ⟨left - 1, by omega⟩
      have shift : below + 1 + n = below + (n + 1) := by omega
      have subtrees : Costs ((digitsAt group n).mapM fun digit => do
          let child ← branch chunks.put rest (sharing group n digit) (n + 1)
          pure (String.singleton digit, child)) (Each (fun digit child cost =>
            child.1 = String.singleton digit ∧ ReadsMapping chunks below child.2
              ((sharing group n digit).map (fieldOf decoded))
              (cost + ((sharing group n digit).map price).sum)) (digitsAt group n)) := by
        refine Costs.mapM fun digit member => ?_
        have part : (sharing group n digit).Sublist group := List.filter_sublist
        have subtree : Costs (branch chunks.put rest (sharing group n digit) (n + 1)) _ :=
          ih (by omega) (shift ▸ bound) (sharing_nonempty member) (distinct.sublist (part.map _))
            (fun entry there => hex entry (part.subset there)) fun entry there => by
              have held := holds entry (part.subset there)
              rwa [deeper digit member entry there, shift] at held
        refine subtree.bind fun child cost read => .pure ⟨rfl, ?_⟩
        rwa [add_zero]
      refine subtrees.bind fun children paid each => ?_
      exact branch_reads chunks decoded price inside nonempty distinct hex each

end

end CheckpointChunks
end PhysHarness
