import Mathlib.Tactic.Linarith
import PhysHarness.Execution.ChunkTries
import Mathlib.Data.Bool.AllAny

/-!
Checkpoint chunking round-trips.

The induction is over the levels that are left. What comes back lists its keys in another order, so
it is the same value as a dictionary. Main result: `checkpoint_round_trip`.
-/
namespace PhysHarness
namespace CheckpointChunks

open Metering Json

section

variable [HexHash] [FloatReader] (chunks : ChunkStore)

/-! ### Values -/

/-- The decoder reads the descriptor as the value, and has the levels for it. -/
structure ReadsValue (left : Nat) (entry item : Json) (cost : Nat × Nat) : Prop where
  inside : 0 < left
  reads : ∃ found, Same found item ∧
    Spends limit (decodeValue chunks.read left (sortKeys entry)) found cost

theorem inline_reads {left : Nat} {item : Json} (fits : serializedSize item ≤ leafBytes) :
    ReadsValue chunks (left + 1) (.obj [("inline", item)]) item 0 := by
  refine ⟨Nat.succ_pos left, sortKeys item, same_sortKeys item, ?_⟩
  have small : ¬ leafBytes < canonicalSize (sortKeys item) := by
    rw [canonicalSize_sortKeys, ← serializedSize_eq]
    exact Nat.not_lt.mpr fits
  have entry : sortKeys (.obj [("inline", item)]) = .obj [("inline", sortKeys item)] := rfl
  rw [entry, decodeValue, if_pos rfl, if_neg small]
  exact .pure _

theorem atom_costs (left : Nat) {item : Json} (fits : serializedSize item ≤ leafBytes) :
    Costs (store chunks.put (.obj [("type", .str "atom"), ("value", item)])) fun ref cost =>
      ReadsValue chunks (left + 1) (.obj [("atom", ref)]) item cost := by
  refine (store_costs chunks _).mono fun ref cost stored => ?_
  refine ⟨Nat.succ_pos left, sortKeys item, same_sortKeys item, ?_⟩
  have small : ¬ leafBytes < canonicalSize (sortKeys item) := by
    rw [canonicalSize_sortKeys, ← serializedSize_eq]
    exact Nat.not_lt.mpr fits
  have entry : sortKeys (.obj [("atom", ref)]) = .obj [("atom", ref)] := by
    simp [sortKeys, sortFields, stored.sorted]
  have atom : atomValue (sortKeys (.obj [("type", .str "atom"), ("value", item)])) =
      some (sortKeys item) := by
    simp [atomValue, sortKeys, sortFields, Dict.get, named]
  rw [entry, decodeValue, if_neg (by decide), if_pos rfl, ← add_zero cost]
  refine (stored.reads (left + 1) (Nat.succ_pos left)).bind ?_
  rw [atom]
  simp only [if_neg small]
  exact .pure _

/-- A sequence is read through its header. -/
theorem ref_reads {kind : String} {left : Nat} {ref result : Json} {items : List Json}
    {cost more : Nat × Nat} (sequence : ReadsSequence chunks kind (left + 1) ref items cost)
    (then_ : Spends limit (if kind = "list" then do
        let values ← items.mapM fun item => decodeValue chunks.read left item
        pure (.arr values)
      else if kind = "text" then
        match textOf items with
        | some text => pure (.str text)
        | none => throw (invalid "Native checkpoint text page is invalid.")
      else do
        let fields ← items.foldlM (fun result pair => decodePair chunks.read left result pair) []
        pure (.obj fields)) result more) :
    Spends limit (decodeValue chunks.read (left + 1) (sortKeys (.obj [("ref", ref)]))) result
      (cost + more) := by
  have entry : sortKeys (.obj [("ref", ref)]) = .obj [("ref", ref)] := by
    simp [sortKeys, sortFields, sequence.sorted]
  obtain ⟨part, header, first, rest, rfl, node, known, rfl, spends⟩ := sequence.reads
  rw [entry, decodeValue, if_neg (by decide), if_neg (by decide), if_neg (by decide), if_pos rfl,
    add_assoc]
  refine node.bind ?_
  rw [known]
  exact spends.bind then_

theorem list_costs {left : Nat} {items entries : List Json} {paid : Nat × Nat}
    (each : Each (fun item entry cost => ReadsValue chunks left entry item cost) items entries paid) :
    Costs (paged chunks.put "list" entries listPage (left + 1)) fun ref cost =>
      ReadsValue chunks (left + 1) (.obj [("ref", ref)]) (.arr items) (paid + cost) := by
  refine (paged_costs chunks (by decide) entries (left + 1)).mono fun ref cost sequence => ?_
  have reads : Each (fun item entry cost => ∃ found, Same found item ∧
      Spends limit (decodeValue chunks.read left (sortKeys entry)) found cost) items entries paid :=
    each.mono fun _ _ _ _ one => one.reads
  obtain ⟨values, same, spends⟩ := reads.middle
  have sorted : Each (fun entry found cost => Spends limit (decodeValue chunks.read left entry) found
      cost) (entries.map sortKeys) values paid := by
    refine Each.map_left ?_
    exact spends
  refine ⟨Nat.succ_pos left, .arr values, same_arr same.flip, ?_⟩
  rw [add_comm paid]
  refine ref_reads chunks sequence ?_
  rw [if_pos rfl]
  exact (Spends.mapM sorted).map Json.arr

omit [HexHash] [FloatReader] in
/-- The pages of a text are the text. -/
theorem textOf_pages (text : String) :
    textOf (((Paging.cut textPage text.toList).map fun page => Json.str (.ofList page)).map sortKeys) =
      some text := by
  have pages : (((Paging.cut textPage text.toList).map fun page =>
      Json.str (.ofList page)).map sortKeys).mapM asText =
        some ((Paging.cut textPage text.toList).map String.ofList) := by
    rw [List.map_map, List.mapM_map]
    exact List.mapM_pure
  have few : ∀ page ∈ Paging.cut textPage text.toList, page.length ≤ textPage :=
    fun page member => (Paging.length_of_mem_cut (by decide) member).2
  have joined : String.join ((Paging.cut textPage text.toList).map String.ofList) = text := by
    have chars : ((Paging.cut textPage text.toList).map String.ofList).flatMap String.toList =
        (Paging.cut textPage text.toList).flatten := by
      rw [List.flatMap_map]
      simp [List.flatMap_def]
    rw [← String.toList_inj, String.toList_join, chars, Paging.flatten_cut]
  rw [textOf, pages]
  simpa [joined] using few

theorem text_costs (left : Nat) (text : String) :
    Costs (paged chunks.put "text" ((Paging.cut textPage text.toList).map fun page =>
      Json.str (.ofList page)) listPage (left + 1)) fun ref cost =>
        ReadsValue chunks (left + 1) (.obj [("ref", ref)]) (.str text) cost := by
  refine (paged_costs chunks (by decide) _ (left + 1)).mono fun ref cost sequence => ?_
  refine ⟨Nat.succ_pos left, .str text, rfl, ?_⟩
  rw [← add_zero cost]
  refine ref_reads chunks sequence ?_
  rw [if_neg (by decide), if_pos rfl, textOf_pages]
  exact .pure _

/-! ### Mappings -/

/-- The entry of a field, which the decoder reads below the leaf that holds it. -/
def EntryOf (left : Nat) (digests : List Digest) (field : String × Json) (entry : TrieEntry)
    (cost : Nat × Nat) : Prop :=
  entry.key = field.1 ∧ entry.digest = ContentHash.sha256 field.1 ∧ ∃ found, Same found field.2 ∧
    Holds chunks (left - leafNibble 64 digests 0 entry.digest) entry found cost

omit [HexHash] [FloatReader] in
/-- The entries, decoded in any order, are the fields. -/
theorem fields_perm {fields found : List (String × Json)} {entries : List TrieEntry}
    {decoded : TrieEntry → Json} (distinct : (fields.map Prod.fst).Nodup)
    (keys : entries.map TrieEntry.key = fields.map Prod.fst)
    (same : ∀ entry ∈ entries, ∃ field ∈ fields, entry.key = field.1 ∧ Same (decoded entry) field.2)
    (perm : found.Perm (entries.map (fieldOf decoded))) : Same (.obj found) (.obj fields) := by
  have names : (found.map Prod.fst).Nodup := by
    rwa [(perm.map Prod.fst).nodup_iff, map_fieldOf, keys]
  refine same_obj ?_ names
  have first : (sortFields found).Nodup := by
    rw [sortFields_eq_map]
    refine List.Nodup.of_map Prod.fst ?_
    rwa [List.map_map]
  refine (List.subperm_of_subset first fun field member => ?_).perm_of_length_le ?_
  · rw [sortFields_eq_map] at member ⊢
    obtain ⟨field, there, rfl⟩ := List.mem_map.mp member
    obtain ⟨entry, known, rfl⟩ := List.mem_map.mp (perm.mem_iff.mp there)
    obtain ⟨field, inside, key, value⟩ := same entry known
    refine List.mem_map.mpr ⟨field, inside, ?_⟩
    rw [fieldOf, key, value]
  · have length := congrArg List.length keys
    rw [List.length_map, List.length_map] at length
    rw [sortFields_eq_map, sortFields_eq_map, List.length_map, List.length_map, perm.length_eq,
      List.length_map, length]

theorem map_costs {left : Nat} {fields : List (String × Json)} {entries : List TrieEntry}
    {paid : Nat × Nat} (bound : left ≤ maxDepth) (nonempty : fields ≠ [])
    (distinct : (fields.map Prod.fst).Nodup)
    (each : Each (EntryOf chunks left (fields.map fun field => ContentHash.sha256 field.1)) fields
      entries paid) :
    Costs (branch chunks.put 64 entries 0) fun ref cost =>
      ReadsValue chunks (left + 1) (.obj [("map", ref)]) (.obj fields) (paid + cost) := by
  have keys : entries.map TrieEntry.key = fields.map Prod.fst :=
    each.map_eq fun _ _ _ one => one.1
  have digests : entries.map TrieEntry.digest = fields.map fun field => ContentHash.sha256 field.1 :=
    each.map_eq fun _ _ _ one => one.2.1
  have some : entries ≠ [] := by
    intro none
    rw [none, List.map_nil] at keys
    exact nonempty (List.map_eq_nil_iff.mp keys.symm)
  have apart : (entries.map TrieEntry.key).Nodup := by rwa [keys]
  obtain ⟨price, total, all⟩ := each.priced apart
  have reads : ∀ entry ∈ entries, ∃ item, ∃ field ∈ fields, entry.key = field.1 ∧
      entry.digest = ContentHash.sha256 field.1 ∧ Same item field.2 ∧
      Holds chunks (left - leafNibble 64 (entries.map TrieEntry.digest) 0 entry.digest) entry item
        (price entry.key) := by
    intro entry member
    obtain ⟨field, there, key, digest, item, same, held⟩ := all entry member
    exact ⟨item, field, there, key, digest, same, by rwa [digests]⟩
  have : Nonempty Json := ⟨.null⟩
  choose! decoded found using reads
  have hex : ∀ entry ∈ entries, isSha256 entry.digest = true := by
    intro entry member
    obtain ⟨field, _, _, digest, _⟩ := found entry member
    rw [digest]
    exact HexHash.hex field.1
  have trie := branch_costs chunks decoded (fun entry => price entry.key) 64 (Nat.zero_add 64)
    (show left + 0 ≤ maxDepth from bound) some apart hex fun entry member => by
      obtain ⟨_, _, _, _, _, held⟩ := found entry member
      exact held
  refine trie.mono fun ref cost mapping => ?_
  obtain ⟨result, perm, spends⟩ := mapping.reads
  refine ⟨Nat.succ_pos left, .obj result, ?_, ?_⟩
  · refine fields_perm distinct keys (fun entry member => ?_) perm
    obtain ⟨field, there, key, _, same, _⟩ := found entry member
    exact ⟨field, there, key, same⟩
  · have entry : sortKeys (.obj [("map", ref)]) = .obj [("map", ref)] := by
      simp [sortKeys, sortFields, mapping.sorted]
    rw [entry, decodeValue, if_neg (by decide), if_neg (by decide), if_pos rfl, add_comm paid,
      ← total]
    exact spends.map Json.obj

/-- What the encoder makes of a value is decoded as that value. -/
theorem value_costs (left : Nat) {item : Json} {threshold : Nat} (bound : left ≤ maxDepth)
    (dict : isDict item = true) (small : threshold ≤ leafBytes) :
    Costs (value chunks.put left item threshold) fun entry cost =>
      ReadsValue chunks left entry item cost := by
  -- the values inside are encoded with fewer levels left
  induction left using Nat.strongRecOn generalizing item threshold with
  | _ left ih =>
    cases left with
    | zero =>
      rw [value]
      exact .throw
    | succ left =>
      unfold value
      dsimp only
      split
      next fits => exact .pure (inline_reads chunks (Nat.le_trans fits small))
      next =>
        split
        next fits =>
          refine (atom_costs chunks left fits).bind fun ref cost reads => .pure ?_
          rwa [add_zero]
        next large =>
          cases item with
          | null | bool | int | float => exact .throw
          | arr items =>
            have inner := areDicts_iff.mp dict
            refine (Costs.mapM fun item member => ih left (Nat.lt_succ_self left) (by omega)
              (inner item member) (Nat.le_refl leafBytes)).bind fun entries paid each => ?_
            refine (list_costs chunks each).bind fun ref cost reads => .pure ?_
            rwa [add_zero]
          | obj fields =>
            rw [isDict, Bool.and_eq_true, decide_eq_true_iff] at dict
            have inner := fieldsAreDicts_iff.mp dict.2
            have nonempty : fields ≠ [] := by
              rintro rfl
              exact large (by decide)
            have entries : Costs (fields.mapM fun field => do
                let digest := ContentHash.sha256 field.1
                let descriptor ← value chunks.put (left - leafNibble 64
                  (fields.map fun field => ContentHash.sha256 field.1) 0 digest) field.2 1024
                pure (⟨field.1, descriptor, digest⟩ : TrieEntry))
                (Each (EntryOf chunks left (fields.map fun field => ContentHash.sha256 field.1))
                  fields) := by
              refine Costs.mapM fun field member => ?_
              refine (ih (left - _) (by omega) (by omega) (inner field member)
                (show 1024 ≤ leafBytes by decide)).bind fun descriptor cost held => .pure ?_
              obtain ⟨found, same, reads⟩ := held.reads
              refine ⟨rfl, rfl, found, same, held.inside, ?_⟩
              rwa [add_zero]
            refine entries.bind fun entries paid each => ?_
            refine (map_costs chunks (by omega) nonempty dict.1 each).bind fun ref cost reads =>
              .pure ?_
            rwa [add_zero]
          | str text =>
            refine (text_costs chunks left text).bind fun ref cost reads => .pure ?_
            rwa [add_zero]

/-! ### Validation -/

omit [HexHash] [FloatReader] in
/-- A reader that a key order does not mislead reads the same field of equal objects. -/
theorem field_same {α : Type} {read : Json → Option α} {found fields : List (String × Json)}
    {key : String} (insensitive : ∀ value, read (sortKeys value) = read value)
    (same : (Dict.get found key).map sortKeys = (Dict.get fields key).map sortKeys) :
    field found key read = field fields key read := by
  have reads : ∀ value : Option Json, value.bind read = (value.map sortKeys).bind read := by
    rintro (_ | value)
    · rfl
    · exact (insensitive value).symm
  rw [field, field, reads, same, ← reads]

omit [HexHash] [FloatReader] in
theorem asText_sortKeys (value : Json) : asText (sortKeys value) = asText value := by
  cases value <;> rfl

omit [HexHash] [FloatReader] in
theorem asInt_sortKeys (value : Json) : asInt (sortKeys value) = asInt value := by
  cases value <;> rfl

omit [HexHash] [FloatReader] in
theorem asNat_sortKeys (value : Json) : asNat (sortKeys value) = asNat value := by
  cases value <;> rfl

omit [HexHash] [FloatReader] in
theorem asFloat_sortKeys (value : Json) : asFloat (sortKeys value) = asFloat value := by
  cases value <;> rfl

omit [HexHash] [FloatReader] in
theorem asStatus_sortKeys (value : Json) : asStatus (sortKeys value) = asStatus value := by
  rw [asStatus, asText_sortKeys, asStatus]

omit [HexHash] [FloatReader] in
theorem orNull_sortKeys {α : Type} {read : Json → Option α}
    (insensitive : ∀ value, read (sortKeys value) = read value) (value : Json) :
    orNull read (sortKeys value) = orNull read value := by
  have same := insensitive value
  cases value with
  | null => rfl
  | bool | int | float | str | arr | obj => exact congrArg (Option.map some) same

omit [HexHash] [FloatReader] in
@[simp] theorem orNull_asNat (value : Option Nat) : orNull asNat (optional value) = some value := by
  cases value <;> rfl

omit [HexHash] [FloatReader] in
@[simp] theorem orNull_asText (value : Option String) :
    orNull asText (ofOption value) = some value := by
  cases value <;> rfl

omit [HexHash] [FloatReader] in
@[simp] theorem asStatus_text (status : SessionStatus) : asStatus (.str status.text) = some status := by
  cases status <;> rfl

omit [HexHash] [FloatReader] in
/-- The limits come back from any value that is equal to their dump. -/
theorem limits_validate {value : Json} {limits : RuntimeLimits} (same : Same value limits.dump) :
    RuntimeLimits.validate value = some limits := by
  obtain ⟨found, rfl, keys, get⟩ := Same.obj_inv same (by simp)
  have names : named found ["max_turns", "max_output_tokens", "max_total_tokens",
      "max_context_tokens", "timeout_seconds"] = true := decide_eq_true keys
  have turns : field found "max_turns" asNat = some limits.maxTurns :=
    (field_same asNat_sortKeys (get _)).trans (by simp [field, Dict.get])
  have output : field found "max_output_tokens" asNat = some limits.maxOutputTokens :=
    (field_same asNat_sortKeys (get _)).trans (by simp [field, Dict.get])
  have total : field found "max_total_tokens" (orNull asNat) = some limits.maxTotalTokens :=
    (field_same (orNull_sortKeys asNat_sortKeys) (get _)).trans (by simp [field, Dict.get])
  have context : field found "max_context_tokens" (orNull asNat) = some limits.maxContextTokens :=
    (field_same (orNull_sortKeys asNat_sortKeys) (get _)).trans (by simp [field, Dict.get])
  have timeout : field found "timeout_seconds" asFloat = some limits.timeoutSeconds :=
    (field_same asFloat_sortKeys (get _)).trans (by simp [field, Dict.get, asFloat])
  simp only [RuntimeLimits.validate, asFields, Option.bind_eq_bind, Option.bind_some, names, guard,
    if_true, turns, output, total, context, timeout]
  exact dif_pos limits.bounds

omit [HexHash] [FloatReader] in
/-- A field that holds an object has an equal object in an equal value. -/
theorem field_object {found fields : List (String × Json)} {key : String}
    {inner : Json} (same : (Dict.get found key).map sortKeys = (Dict.get fields key).map sortKeys)
    (there : Dict.get fields key = some inner) :
    ∃ item, Dict.get found key = some item ∧ Same item inner := by
  rw [there] at same
  exact Option.map_eq_some_iff.mp same

omit [HexHash] [FloatReader] in
theorem config_validate {value : Json} {config : ModelConfig} (same : Same value config.dump) :
    ∃ found, ModelConfig.validate value = some found ∧ Same found.dump config.dump := by
  obtain ⟨found, rfl, keys, get⟩ := Same.obj_inv same (by simp)
  have names : named found ["model", "parameters"] = true := decide_eq_true keys
  have model : field found "model" asText = some config.model :=
    (field_same asText_sortKeys (get _)).trans (by simp [field, Dict.get, asText])
  obtain ⟨item, there, equal⟩ := field_object (get "parameters")
    (show _ = some (Json.obj config.parameters) by simp [Dict.get])
  have dict : isDict item = true := Same.isDict equal config.dict
  obtain ⟨parameters, rfl, _⟩ := Same.obj_inv equal (by
    have whole := config.dict
    rw [isDict, Bool.and_eq_true, decide_eq_true_iff] at whole
    exact whole.1)
  have settings : field found "parameters" asFields = some parameters := by
    rw [field, there]
    rfl
  refine ⟨⟨config.model, parameters, config.exact, dict⟩, ?_, ?_⟩
  · simp [ModelConfig.validate, asFields, names, guard, model, settings, config.exact, dict]
  · exact same_fields (.cons ⟨rfl, rfl⟩ (.cons ⟨rfl, equal⟩ .nil))

omit [HexHash] [FloatReader] in
theorem session_validate {value : Json} {session : RuntimeSession} (same : Same value session.dump) :
    ∃ found, RuntimeSession.validate value = some found ∧ Same found.dump session.dump ∧
      found.id = session.id := by
  obtain ⟨found, rfl, keys, get⟩ := Same.obj_inv same (by simp)
  have names : named found ["id", "runtime", "model", "limits", "status", "native_session_id", "turns",
      "input_tokens", "output_tokens"] = true := decide_eq_true keys
  have id : field found "id" asText = some session.id :=
    (field_same asText_sortKeys (get _)).trans (by simp [field, Dict.get, asText])
  have runtime : field found "runtime" asText = some session.runtime :=
    (field_same asText_sortKeys (get _)).trans (by simp [field, Dict.get, asText])
  have status : field found "status" asStatus = some session.status :=
    (field_same asStatus_sortKeys (get _)).trans (by simp [field, Dict.get])
  have native : field found "native_session_id" (orNull asText) = some session.nativeSessionId :=
    (field_same (orNull_sortKeys asText_sortKeys) (get _)).trans (by simp [field, Dict.get])
  have turns : field found "turns" asInt = some session.turns :=
    (field_same asInt_sortKeys (get _)).trans (by simp [field, Dict.get, asInt])
  have input : field found "input_tokens" asInt = some session.inputTokens :=
    (field_same asInt_sortKeys (get _)).trans (by simp [field, Dict.get, asInt])
  have output : field found "output_tokens" asInt = some session.outputTokens :=
    (field_same asInt_sortKeys (get _)).trans (by simp [field, Dict.get, asInt])
  obtain ⟨inner, there, equal⟩ := field_object (get "model")
    (show _ = some session.model.dump by simp [Dict.get])
  obtain ⟨model, valid, dumped⟩ := config_validate equal
  obtain ⟨bounds, here, matched⟩ := field_object (get "limits")
    (show _ = some session.limits.dump by simp [Dict.get])
  have configured : field found "model" ModelConfig.validate = some model := by
    rw [field, there]
    exact valid
  have limited : field found "limits" RuntimeLimits.validate = some session.limits := by
    rw [field, here]
    exact limits_validate matched
  refine ⟨{ session with model := model }, ?_, ?_, rfl⟩
  · simp [RuntimeSession.validate, asFields, names, guard, id, runtime, configured, limited, status,
      native, turns, input, output]
  · exact same_fields (.cons ⟨rfl, rfl⟩ (.cons ⟨rfl, rfl⟩ (.cons ⟨rfl, dumped⟩
      (List.forall₂_same.mpr fun _ _ => ⟨rfl, rfl⟩))))

omit [FloatReader] in
/-- A checkpoint is restored from values that are equal to its own. -/
theorem verified_same {checkpoint : RuntimeCheckpoint} {session native : Json} (reason : String)
    (valid : checkpoint.Valid) (sessions : Same session checkpoint.session.dump)
    (natives : Same native (.obj checkpoint.nativeState)) :
    ∃ found : RuntimeCheckpoint, verified (.obj [("version", .int 1), ("session", session),
        ("native_state", native), ("state_digest", .str checkpoint.stateDigest)]) reason = .ok found ∧
      found.Equal checkpoint ∧ found.session.id = checkpoint.session.id := by
  obtain ⟨inner, read, dumped, id⟩ := session_validate sessions
  have dict : isDict native = true := Same.isDict natives checkpoint.dict
  obtain ⟨state, rfl, _⟩ := Same.obj_inv natives (by
    have whole := checkpoint.dict
    rw [isDict, Bool.and_eq_true, decide_eq_true_iff] at whole
    exact whole.1)
  let found : RuntimeCheckpoint := ⟨inner, state, checkpoint.stateDigest, dict⟩
  have names : named [("version", .int 1), ("session", session), ("native_state", .obj state),
      ("state_digest", .str checkpoint.stateDigest)]
        ["session", "native_state", "state_digest", "version"] = true :=
    decide_eq_true
      (@List.perm_append_comm _ ["version"] ["session", "native_state", "state_digest"])
  have restored : RuntimeCheckpoint.validate (.obj [("version", .int 1), ("session", session),
      ("native_state", .obj state), ("state_digest", .str checkpoint.stateDigest)]) = some found := by
    simp [RuntimeCheckpoint.validate, asFields, names, guard, field, Dict.get, read, asText, dict, found]
  have intact : found.Valid := by
    have content : found.expected = checkpoint.expected :=
      digest_same (same_fields (.cons ⟨rfl, dumped⟩ (.cons ⟨rfl, natives⟩ .nil)))
    rw [RuntimeCheckpoint.Valid, content]
    exact valid
  refine ⟨found, ?_, ?_, id⟩
  · rw [verified, restored]
    exact if_pos intact
  · exact same_fields (.cons ⟨rfl, dumped⟩ (.cons ⟨rfl, natives⟩
      (List.forall₂_same.mpr fun _ _ => ⟨rfl, rfl⟩)))

/-! ### The root -/

/-- The decoder reads the values of the checkpoint under the root. -/
structure ReadsRoot (ref : Json) (checkpoint : RuntimeCheckpoint) (cost : Nat × Nat) : Prop where
  sorted : sortKeys ref = ref
  reads : ∃ session native, Same session checkpoint.session.dump ∧
    Same native (.obj checkpoint.nativeState) ∧
    Spends limit (decodeRoot chunks.read ref) (session, native) cost

omit [HexHash] [FloatReader] in
theorem isDict_dump (session : RuntimeSession) : isDict session.dump = true := by
  have model : isDict session.model.dump = true := by
    simp [ModelConfig.dump, isDict.eq_def (.obj [_, _]), fieldsAreDicts, session.model.dict,
      isDict.eq_def (.str _)]
  have number : ∀ value, isDict (optional value) = true := by rintro (_ | _) <;> rfl
  have native : ∀ value, isDict (ofOption value) = true := by rintro (_ | _) <;> rfl
  have limits : isDict session.limits.dump = true := by
    simp [RuntimeLimits.dump, isDict, fieldsAreDicts, number]
  simp [RuntimeSession.dump, isDict, fieldsAreDicts, model, limits, native]

theorem encodeRoot_costs (checkpoint : RuntimeCheckpoint) :
    Costs (encodeRoot chunks.put checkpoint) fun ref cost => ReadsRoot chunks ref checkpoint cost := by
  unfold encodeRoot
  refine (value_costs chunks maxDepth (Nat.le_refl _) (isDict_dump checkpoint.session)
    (Nat.le_refl _)).bind fun session first sessionRead => ?_
  refine (value_costs chunks maxDepth (Nat.le_refl _) checkpoint.dict
    (Nat.le_refl _)).bind fun native second nativeRead => ?_
  refine (store_costs chunks _).mono fun ref cost stored => ⟨stored.sorted, ?_⟩
  obtain ⟨restored, same, reads⟩ := sessionRead.reads
  obtain ⟨state, equal, spends⟩ := nativeRead.reads
  refine ⟨restored, state, same, equal, ?_⟩
  have total : first + (second + cost) = cost + (first + (second + 0)) := by
    rw [add_zero, ← add_assoc, add_comm cost]
  have part : sortKeys (.obj [("type", .str "checkpoint"), ("session", session),
      ("native_state", native)]) = .obj [("native_state", sortKeys native),
        ("session", sortKeys session), ("type", .str "checkpoint")] := by
    simp [sortKeys, sortFields]
  have names : named [("native_state", sortKeys native), ("session", sortKeys session),
      ("type", .str "checkpoint")] ["type", "session", "native_state"] = true :=
    decide_eq_true (List.reverse_perm ["type", "session", "native_state"])
  have known : Dict.get [("native_state", sortKeys native), ("session", sortKeys session),
      ("type", .str "checkpoint")] "session" = some (sortKeys session) := by simp [Dict.get]
  have here : Dict.get [("native_state", sortKeys native), ("session", sortKeys session),
      ("type", .str "checkpoint")] "native_state" = some (sortKeys native) := by simp [Dict.get]
  rw [decodeRoot, total]
  refine (stored.reads (maxDepth + 1) (Nat.succ_pos _)).bind ?_
  rw [part]
  simp only [known, here]
  rw [if_pos ⟨names, by simp [Dict.get]⟩]
  exact reads.bind (spends.bind (.pure _))

omit [HexHash] [FloatReader] in
/-- The root is stored last, so all the nodes are counted. -/
theorem encodeRoot_nodes [ContentHash] {put : String → StoredChunk} {checkpoint : RuntimeCheckpoint}
    {used after : Nat × Nat} {ref : Json} (done : encodeRoot put checkpoint used = .ok (ref, after)) :
    after.1 ≤ maxNodes := by
  unfold encodeRoot at done
  change (value put maxDepth checkpoint.session.dump leafBytes used >>= _) = _ at done
  cases first : value put maxDepth checkpoint.session.dump leafBytes used with
  | error error => rw [first] at done; cases done
  | ok sessionStep =>
    rw [first] at done
    change (value put maxDepth (.obj checkpoint.nativeState) leafBytes sessionStep.2 >>= _) = _ at done
    cases second : value put maxDepth (.obj checkpoint.nativeState) leafBytes sessionStep.2 with
    | error error => rw [second] at done; cases done
    | ok nativeStep =>
      rw [second] at done
      change store put _ nativeStep.2 = _ at done
      unfold store at done
      simp only at done
      split at done
      next => cases done
      next inside =>
        split at done
        next => cases done
        next =>
          cases done
          exact Nat.le_of_not_lt inside

/-- The manifest with its keys in order. -/
def manifestFields (checkpoint : RuntimeCheckpoint) (root : Json) : List (String × Json) :=
  [("format", .str format), ("root", root), ("session_id", .str checkpoint.session.id),
    ("state_digest", .str checkpoint.stateDigest), ("version", .int 2)]

omit [HexHash] [FloatReader] in
theorem sortKeys_manifest (checkpoint : RuntimeCheckpoint) {root : Json} (sorted : sortKeys root = root) :
    sortKeys (manifestOf checkpoint root) = .obj (manifestFields checkpoint root) := by
  simp [manifestOf, manifestFields, sortKeys, sortFields, sorted]

theorem decodeManifest_reads {checkpoint : RuntimeCheckpoint} (valid : checkpoint.Valid) {root : Json}
    {cost : Nat × Nat} {size : Nat} (reads : ReadsRoot chunks root checkpoint cost)
    (nodes : cost.1 ≤ maxNodes) (bytes : size + cost.2 ≤ maxBytes) :
    ∃ found, decodeManifest chunks.read (manifestFields checkpoint root) size = .ok found ∧
      found.Equal checkpoint := by
  obtain ⟨session, native, sessions, natives, spends⟩ := reads.reads
  have room : (0, size) + cost ≤ limit := by
    refine ⟨?_, bytes⟩
    rw [Prod.fst_add, Nat.zero_add]
    exact nodes
  have run := spends (0, size) room
  obtain ⟨found, restored, equal, id⟩ := verified_same "Native checkpoint reconstruction failed." valid
    sessions natives
  refine ⟨found, ?_, equal⟩
  have names : named (manifestFields checkpoint root)
      ["format", "version", "session_id", "state_digest", "root"] = true := by
    have perm : ["format", "root", "session_id", "state_digest", "version"].Perm
        ["format", "version", "session_id", "state_digest", "root"] := by decide
    exact decide_eq_true perm
  have rootField : Dict.get (manifestFields checkpoint root) "root" = some root := by
    simp [manifestFields, Dict.get]
  have digestField : Dict.get (manifestFields checkpoint root) "state_digest" =
      some (.str checkpoint.stateDigest) := by simp [manifestFields, Dict.get]
  have idField : Dict.get (manifestFields checkpoint root) "session_id" =
      some (.str checkpoint.session.id) := by simp [manifestFields, Dict.get]
  have version : Dict.get (manifestFields checkpoint root) "version" = some (.int 2) := by
    simp [manifestFields, Dict.get]
  rw [decodeManifest]
  simp only [rootField, digestField, idField]
  rw [if_pos ⟨names, version⟩, run]
  simp only [bind, Except.bind, restored, id, if_true]

/-- What the encoder publishes, the decoder restores. -/
theorem decode_encode {checkpoint : RuntimeCheckpoint} (valid : checkpoint.Valid) {manifest : Json}
    (published : encode chunks.put checkpoint = .ok manifest) :
    ∃ found, decode chunks.read (canonical manifest) = .ok found ∧ found.Equal checkpoint := by
  unfold encode at published
  split at published
  next => cases published
  next =>
    cases run : encodeRoot chunks.put checkpoint (0, 0) with
    | error error => rw [run] at published; cases published
    | ok step =>
      obtain ⟨root, used⟩ := step
      rw [run] at published
      change (if _ then _ else _) = _ at published
      split at published
      next => cases published
      next fits =>
        cases published
        obtain ⟨cost, total, reads⟩ := encodeRoot_costs chunks checkpoint (0, 0) root used run
        have nodes := encodeRoot_nodes run
        have same : used = cost := total.trans (zero_add cost)
        subst same
        have bytes : canonicalSize (manifestOf checkpoint root) + used.2 ≤ maxBytes :=
          Nat.le_of_not_lt fits
        have loaded : Json.loads (canonical (manifestOf checkpoint root)) =
            some (.obj (manifestFields checkpoint root)) := by
          rw [← sortKeys_manifest checkpoint reads.sorted]
          exact loads_dumps _
        have marked : Dict.get (manifestFields checkpoint root) "format" = some (.str format) := by
          simp [manifestFields, Dict.get]
        have small : ¬ maxBytes < utf8Size (canonical (manifestOf checkpoint root)).toList :=
          Nat.not_lt.mpr (Nat.le_trans (Nat.le_add_right _ _) bytes)
        rw [decode]
        simp only [if_neg small, loaded, if_pos marked]
        exact decodeManifest_reads chunks valid reads nodes bytes

/-- A checkpoint whose encoding is published is restored from the text of its manifest, whatever the
store makes of the chunks, as long as it gives them back. -/
theorem checkpoint_round_trip (checkpoint : RuntimeCheckpoint) (valid : checkpoint.Valid)
    (manifest : Json) (published : encode chunks.put checkpoint = .ok manifest) :
    ∃ found, decode chunks.read (canonical manifest) = .ok found ∧ found.Equal checkpoint :=
  decode_encode chunks valid published

end

end CheckpointChunks

/-! ### A small checkpoint -/

namespace Scenario

open CheckpointChunks Json

def seconds : FloatText := ⟨['6', '0', '0', '.', '0'], by decide⟩

def sampleSession : RuntimeSession where
  id := "session"
  runtime := "openai_responses"
  model := ⟨"gpt", [], by decide, rfl⟩
  limits := ⟨4, 100, none, none, seconds, by simp⟩
  status := .ready
  nativeSessionId := none
  turns := 0
  inputTokens := 0
  outputTokens := 0

def sampleState : List (String × Json) := [("input", .arr [.str "prompt"])]

def sampleContent : Json :=
  .obj [("session", sampleSession.dump), ("native_state", .obj sampleState)]

/-- The root of a checkpoint whose values are kept inline. -/
def inlineRoot (session : RuntimeSession) (state : List (String × Json)) : Json :=
  .obj [("type", .str "checkpoint"), ("session", .obj [("inline", session.dump)]),
    ("native_state", .obj [("inline", .obj state)])]

def sampleRoot : Json := inlineRoot sampleSession sampleState

def sampleDigest : Digest := "86d272fc7a651a2132ad76646603b7ca8c3a261cf3275aff9c3f94bfe22af717"

def sampleRootDigest : Digest := "90c05f8b78b3ac65a4693376c20d93d23b90f83eabf7f775a8195e811a9f12f1"

def noDigest : Digest := "0000000000000000000000000000000000000000000000000000000000000000"

/-- The digests of the two texts of the sample. -/
def sampleSha256 (content : String) : Digest :=
  if content = .ofList ((Json.canonical sampleContent).toList.flatMap asciiChar) then sampleDigest
  else if content = Json.canonical sampleRoot then sampleRootDigest
  else noDigest

theorem sampleSha256_hex (content : String) : isSha256 (sampleSha256 content) = true := by
  unfold sampleSha256
  split
  · decide
  · split <;> decide

local instance sampleHash : HexHash where
  sha256 := sampleSha256
  hex := sampleSha256_hex

local instance sampleReader : FloatReader := .exact

def sampleCheckpoint : RuntimeCheckpoint :=
  ⟨sampleSession, sampleState, digest sampleContent, by decide⟩

theorem sampleCheckpoint_valid : sampleCheckpoint.Valid := rfl

/-- A store that names each chunk by its content. -/
def sampleStore : ChunkStore where
  put content := ⟨content, sampleSha256 content⟩
  read id _ := some id
  sha256_put _ := rfl
  read_put _ := rfl

theorem sampleSession_small : serializedSize sampleSession.dump ≤ leafBytes := by
  rw [serializedSize_eq, canonicalSize_eq]
  decide +kernel

theorem sampleState_small : serializedSize (.obj sampleState) ≤ leafBytes := by
  rw [serializedSize_eq, canonicalSize_eq]
  decide

theorem sampleRoot_small : canonicalSize sampleRoot ≤ 1000 := by
  rw [canonicalSize_eq]
  decide +kernel

theorem canonicalSize_text (text : String) :
    canonicalSize (.str text) = 2 + utf8Size (text.toList.flatMap Json.escapeChar) := by
  have quote : Char.utf8Size '"' = 1 := rfl
  have none : utf8Size [] = 0 := rfl
  have quoted : canonicalSize (.str text) = utf8Size (Json.quoted text) := canonicalSize_eq _
  rw [quoted, Json.quoted, utf8Size_cons, utf8Size_append, utf8Size_cons, quote, none]
  omega

theorem canonicalSize_digest {text : String} (hex : isSha256 text = true) :
    canonicalSize (.str text) = 66 := by
  rw [isSha256, Bool.and_eq_true, decide_eq_true_iff, List.all_eq_true] at hex
  have plain : ∀ c ∈ hexDigits, utf8Size (Json.escapeChar c) = 1 := 
    List.all_iff_forall_prop.mp (by decide)
  have digits : ∀ chars : List Char, (∀ c ∈ chars, isHexDigit c = true) →
      utf8Size (chars.flatMap Json.escapeChar) = chars.length := by
    intro chars all
    induction chars with
    | nil => rfl
    | cons c chars ih =>
      obtain ⟨first, later⟩ := List.forall_mem_cons.mp all
      rw [List.flatMap_cons, utf8Size_append, ih later, plain c (of_decide_eq_true first),
        List.length_cons, Nat.add_comm]
  have size : utf8Size (text.toList.flatMap Json.escapeChar) = 64 := by
    rw [digits _ hex.2, String.length_toList, hex.1]
  rw [canonicalSize_text, size]

theorem escape_size (c : Char) : utf8Size (Json.escapeChar c) ≤ 6 * c.utf8Size := by
  have least := Char.utf8Size_pos c
  have digit : ∀ n < 16, utf8Size [Json.hexDigit n] = 1 := by decide
  have plain : utf8Size [c] = c.utf8Size := by simp [utf8Size]
  have control : c.toNat < 32 →
      utf8Size ['\\', 'u', '0', '0', Json.hexDigit (c.toNat / 16), Json.hexDigit (c.toNat % 16)] = 6 := by
    intro low
    have high := digit (c.toNat / 16) (by omega)
    have rest := digit (c.toNat % 16) (by omega)
    have split : ∀ x y : Char, utf8Size ['\\', 'u', '0', '0', x, y] =
        4 + utf8Size [x] + utf8Size [y] := by
      intro x y
      have slash : Char.utf8Size '\\' = 1 := rfl
      have letter : Char.utf8Size 'u' = 1 := rfl
      have zero : Char.utf8Size '0' = 1 := rfl
      simp only [utf8Size, List.map_cons, List.map_nil, List.sum_cons, List.sum_nil, slash, letter,
        zero]
      omega
    rw [split, high, rest]
  have pair : ∀ d ∈ ['"', '\\', 'n', 'r', 't', 'b', 'f'], utf8Size ['\\', d] = 2 :=
    List.all_iff_forall_prop.mp (by decide)
  unfold Json.escapeChar
  split_ifs with _ _ _ _ _ _ _ low
  all_goals first
    | rw [control low]; omega
    | rw [plain]; omega
    | rw [pair _ (by decide)]; omega

theorem canonicalSize_str (text : String) :
    canonicalSize (.str text) ≤ 2 + 6 * utf8Size text.toList := by
  have chars : ∀ chars : List Char,
      utf8Size (chars.flatMap Json.escapeChar) ≤ 6 * utf8Size chars := by
    intro chars
    induction chars with
    | nil => exact Nat.le_refl _
    | cons c chars ih =>
      have first := escape_size c
      rw [List.flatMap_cons, utf8Size_append, utf8Size_cons]
      omega
  have size := chars text.toList
  rw [canonicalSize_text]
  omega

theorem canonicalSize_canonical (value : Json) :
    canonicalSize (.str (Json.canonical value)) ≤ 2 + 6 * canonicalSize value :=
  canonicalSize_str _

theorem store_small {put : String → StoredChunk} {part : Json} {used : Nat × Nat}
    (few : used.1 < maxNodes) (small : canonicalSize part ≤ maxChunkBytes) :
    store put part used =
      .ok (reference (put (Json.canonical part)), (used.1 + 1, used.2 + canonicalSize part)) := by
  have bytes : ¬ maxChunkBytes < utf8Size (Json.canonical part).toList := Nat.not_lt.mpr small
  rw [store]
  simp only [if_neg (Nat.not_lt.mpr few), if_neg bytes]
  rfl

theorem value_inline [ContentHash] {put : String → StoredChunk} {left : Nat} {item : Json}
    {threshold : Nat} (fits : serializedSize item ≤ threshold) :
    value put (left + 1) item threshold = pure (.obj [("inline", item)]) := by
  unfold value
  exact if_pos fits

theorem encodeRoot_inline [ContentHash] {put : String → StoredChunk} {checkpoint : RuntimeCheckpoint}
    (session : serializedSize checkpoint.session.dump ≤ leafBytes)
    (state : serializedSize (.obj checkpoint.nativeState) ≤ leafBytes)
    (small : canonicalSize (inlineRoot checkpoint.session checkpoint.nativeState) ≤ maxChunkBytes) :
    encodeRoot put checkpoint (0, 0) = .ok
      (reference (put (Json.canonical (inlineRoot checkpoint.session checkpoint.nativeState))),
        (1, canonicalSize (inlineRoot checkpoint.session checkpoint.nativeState))) := by
  have first : value put maxDepth checkpoint.session.dump leafBytes =
      pure (.obj [("inline", checkpoint.session.dump)]) := value_inline session
  have second : value put maxDepth (.obj checkpoint.nativeState) leafBytes =
      pure (.obj [("inline", .obj checkpoint.nativeState)]) := value_inline state
  have few : ((0, 0) : Nat × Nat).1 < maxNodes := by decide
  have stored := @store_small put (inlineRoot checkpoint.session checkpoint.nativeState) (0, 0) few
    small
  simp only [Nat.zero_add] at stored
  rw [encodeRoot, first, second, pure_bind, pure_bind]
  exact stored

theorem sampleRoot_encoded : encodeRoot sampleStore.put sampleCheckpoint (0, 0) =
    .ok (reference (sampleStore.put (Json.canonical sampleRoot)), (1, canonicalSize sampleRoot)) :=
  encodeRoot_inline sampleSession_small sampleState_small
    (Nat.le_trans sampleRoot_small (by decide))

theorem digest_hex (content : Json) : isSha256 (digest content) = true := by
  rw [digest]
  exact HexHash.hex _

theorem dump_size (checkpoint : RuntimeCheckpoint) : serializedSize checkpoint.dump = 2 + 3 +
    (canonicalSize (.str "session") + 1 + serializedSize checkpoint.session.dump +
      (canonicalSize (.str "native_state") + 1 + serializedSize (.obj checkpoint.nativeState) +
        (canonicalSize (.str "state_digest") + 1 + canonicalSize (.str checkpoint.stateDigest) +
          (canonicalSize (.str "version") + 1 + canonicalSize (.int 1) + 0)))) := rfl

theorem sampleDump_small : serializedSize sampleCheckpoint.dump ≤ maxBytes := by
  have session : serializedSize sampleCheckpoint.session.dump ≤ 16384 := sampleSession_small
  have state : serializedSize (.obj sampleCheckpoint.nativeState) ≤ 16384 := sampleState_small
  have known : canonicalSize (.str sampleCheckpoint.stateDigest) = 66 :=
    canonicalSize_digest (digest_hex sampleContent)
  have keys : canonicalSize (.str "session") + canonicalSize (.str "native_state") +
      canonicalSize (.str "state_digest") + canonicalSize (.str "version") +
        canonicalSize (.int 1) ≤ 100 := by
    simp only [canonicalSize_eq]
    decide
  rw [dump_size, known]
  unfold maxBytes
  omega

theorem manifest_size (checkpoint : RuntimeCheckpoint) (chunk : StoredChunk) :
    serializedSize (manifestOf checkpoint (reference chunk)) = 2 + 4 +
      (canonicalSize (.str "format") + 1 + canonicalSize (.str format) +
        (canonicalSize (.str "version") + 1 + canonicalSize (.int 2) +
          (canonicalSize (.str "session_id") + 1 + canonicalSize (.str checkpoint.session.id) +
            (canonicalSize (.str "state_digest") + 1 + canonicalSize (.str checkpoint.stateDigest) +
              (canonicalSize (.str "root") + 1 + (2 + 1 +
                (canonicalSize (.str "artifact_id") + 1 + canonicalSize (.str chunk.id) +
                  (canonicalSize (.str "sha256") + 1 + canonicalSize (.str chunk.sha256) + 0))) +
                    0))))) := rfl

theorem put_hex [HexHash] (chunks : ChunkStore) (content : String) :
    isSha256 (chunks.put content).sha256 = true := by
  rw [chunks.sha256_put]
  exact HexHash.hex content

theorem manifest_small [HexHash] (chunks : ChunkStore) {checkpoint : RuntimeCheckpoint}
    {content : String} (intact : isSha256 checkpoint.stateDigest = true)
    (named : canonicalSize (.str checkpoint.session.id) ≤ 10)
    (short : canonicalSize (.str (chunks.put content).id) ≤ 6002) :
    canonicalSize (manifestOf checkpoint (reference (chunks.put content))) ≤ 7000 := by
  have keys : canonicalSize (.str "format") + canonicalSize (.str format) +
      canonicalSize (.str "version") + canonicalSize (.int 2) + canonicalSize (.str "session_id") +
        canonicalSize (.str "state_digest") + canonicalSize (.str "root") +
          canonicalSize (.str "artifact_id") + canonicalSize (.str "sha256") ≤ 200 := by
    simp only [canonicalSize_eq]
    decide
  rw [← serializedSize_eq, manifest_size, canonicalSize_digest intact,
    canonicalSize_digest (put_hex chunks content)]
  linarith

theorem sampleStore_id (content : String) : (sampleStore.put content).id = content := rfl

theorem sampleManifest_small : canonicalSize (manifestOf sampleCheckpoint
    (reference (sampleStore.put (Json.canonical sampleRoot)))) ≤ 7000 := by
  have root := sampleRoot_small
  have short : canonicalSize (.str (Json.canonical sampleRoot)) ≤ 6002 :=
    Nat.le_trans (canonicalSize_canonical sampleRoot) (by omega)
  refine manifest_small sampleStore (digest_hex sampleContent) ?_ ?_
  · rw [canonicalSize_eq]
    decide
  · rw [sampleStore_id]
    exact short

theorem encode_small [ContentHash] {put : String → StoredChunk} {checkpoint : RuntimeCheckpoint}
    {root : Json} {nodes size : Nat} (small : serializedSize checkpoint.dump ≤ maxBytes)
    (encoded : encodeRoot put checkpoint (0, 0) = .ok (root, (nodes, size)))
    (bytes : canonicalSize (manifestOf checkpoint root) + size ≤ maxBytes) :
    encode put checkpoint = .ok (manifestOf checkpoint root) := by
  rw [encode, if_neg (Nat.not_lt.mpr small), encoded]
  exact if_neg (Nat.not_lt.mpr bytes)

theorem sample_published : encode sampleStore.put sampleCheckpoint =
    .ok (manifestOf sampleCheckpoint (reference (sampleStore.put (Json.canonical sampleRoot)))) := by
  have root := sampleRoot_small
  have manifest := sampleManifest_small
  have bytes : canonicalSize (manifestOf sampleCheckpoint (reference (sampleStore.put
      (Json.canonical sampleRoot)))) + canonicalSize sampleRoot ≤ maxBytes := by
    unfold maxBytes
    omega
  exact encode_small sampleDump_small sampleRoot_encoded bytes

/-- The checkpoint of a fresh session is restored. -/
theorem sampleCheckpoint_restored : ∃ found, decode sampleStore.read (Json.canonical
    (manifestOf sampleCheckpoint (reference (sampleStore.put (Json.canonical sampleRoot))))) =
      .ok found ∧ found.Equal sampleCheckpoint :=
  checkpoint_round_trip sampleStore sampleCheckpoint sampleCheckpoint_valid _ sample_published

end Scenario
end PhysHarness
