import PhysHarness.Lib.Metering
import PhysHarness.Lib.Paging
import PhysHarness.Execution.Checkpoint

/-!
The chunk graph of a native checkpoint.

A value is kept inline, as an atom, as a paged list or text, or as a trie of key digests. Depth is
counted by the levels that are left: depth `d` leaves `maxDepth + 1 - d`. The state of both
directions is the number of nodes and their bytes.
-/
namespace PhysHarness

/-- SHA-256 in hexadecimal. -/
class HexHash extends ContentHash where
  hex : ∀ content, isSha256 (sha256 content) = true

structure StoredChunk where
  id : String
  sha256 : Digest

/-- A content-addressed store: what is put is read back under its reference. -/
structure ChunkStore [ContentHash] where
  put : String → StoredChunk
  read : String → Digest → Option String
  sha256_put : ∀ content, (put content).sha256 = ContentHash.sha256 content
  read_put : ∀ content, read (put content).id (put content).sha256 = some content

namespace CheckpointChunks

def format : String := "physharness.native_checkpoint.v2"
def leafBytes : Nat := 16384
def listPage : Nat := 8
def indexPage : Nat := 32
def textPage : Nat := 2048
def maxDepth : Nat := 32
def maxNodes : Nat := 200000
def maxBytes : Nat := 256000000
def maxChunkBytes : Nat := 5000000

/-- Nodes and bytes so far. -/
abbrev Graph (α : Type) := Metering.Metered (Nat × Nat) Failure α

def invalid (reason : String) : Failure := .refuse "NATIVE_CHECKPOINT_INVALID" reason 500

/-- `len(text.encode("utf-8"))` -/
def utf8Size (text : List Char) : Nat := (text.map Char.utf8Size).sum

def canonicalSize (value : Json) : Nat := utf8Size (Json.canonical value).toList

mutual

/-- `_serialized_size` -/
def serializedSize : Json → Nat
  | .arr items => 2 + (items.length - 1) + itemSizes items
  | .obj fields => 2 + (fields.length - 1) + fieldSizes fields
  | value => canonicalSize value

def itemSizes : List Json → Nat
  | [] => 0
  | item :: items => serializedSize item + itemSizes items

def fieldSizes : List (String × Json) → Nat
  | [] => 0
  | (key, item) :: fields =>
    canonicalSize (.str key) + 1 + serializedSize item + fieldSizes fields

end

/-! ### Encoding -/

def reference (chunk : StoredChunk) : Json :=
  .obj [("artifact_id", .str chunk.id), ("sha256", .str chunk.sha256)]

section

variable (put : String → StoredChunk)

def store (node : Json) : Graph Json := fun used =>
  let content := Json.canonical node
  let size := utf8Size content.toList
  if maxNodes < used.1 + 1 then
    .error (invalid "Native checkpoint graph exceeds the node bound.")
  else if maxChunkBytes < size then
    .error (invalid "Native checkpoint chunk exceeds the artifact bound.")
  else .ok (reference (put content), (used.1 + 1, used.2 + size))

/-- Index levels over the pages until few enough are left. Each level has fewer nodes, so their
number is fuel enough. -/
def indexed : Nat → List Json → Nat → Graph (List Json × Nat)
  | 0, leaves, level => pure (leaves, level)
  | fuel + 1, leaves, level =>
    if indexPage < leaves.length then do
      let leaves ← (Paging.cut indexPage leaves).mapM fun children =>
        store put (.obj [("type", .str "index"), ("level", .int level), ("children", .arr children)])
      indexed fuel leaves (level + 1)
    else pure (leaves, level)

def paged (kind : String) (entries : List Json) (pageSize left : Nat) : Graph Json := do
  let pages := if entries = [] then [[]] else Paging.cut pageSize entries
  let leaves ← pages.mapM fun items =>
    store put (.obj [("type", .str kind), ("items", .arr items)])
  let (leaves, level) ← indexed put leaves.length leaves 0
  -- the pages are read one level below the header, and one more for each index level
  if left < level + 2 then throw (invalid "Native checkpoint index is too deep.")
  else store put (.obj [("type", .str "sequence"), ("kind", .str kind), ("level", .int level),
    ("children", .arr leaves), ("length", .int entries.length)])

def nibble (digest : Digest) (n : Nat) : Option Char := digest.toList[n]?

/-- The nibble of the leaf that holds a key digest, with the nibbles that are left. -/
def leafNibble : Nat → List Digest → Nat → Digest → Nat
  | 0, _, n, _ => n
  | rest + 1, digests, n, digest =>
    if digests.length ≤ listPage then n
    else leafNibble rest (digests.filter fun other => nibble other n = nibble digest n) (n + 1) digest

/-- A key, its descriptor and its digest. -/
structure TrieEntry where
  key : String
  descriptor : Json
  digest : Digest

def hexDigits : List Char := "0123456789abcdef".toList

def leafNode (group : List TrieEntry) : Json :=
  let sorted := group.insertionSort fun x y => x.key ≤ y.key
  .obj [("type", .str "dict_leaf"),
    ("items", .arr (sorted.map fun entry => .arr [.str entry.key, entry.descriptor]))]

def branch : Nat → List TrieEntry → Nat → Graph Json
  | 0, group, _ => store put (leafNode group)
  | rest + 1, group, n =>
    if group.length ≤ listPage then store put (leafNode group)
    else do
      let digits := hexDigits.filter fun digit => group.any fun entry =>
        nibble entry.digest n = some digit
      let children ← digits.mapM fun digit => do
        let subgroup := group.filter fun entry => nibble entry.digest n = some digit
        let child ← branch rest subgroup (n + 1)
        pure (String.singleton digit, child)
      store put (.obj [("type", .str "dict_branch"), ("nibble", .int n), ("children", .obj children)])

variable [ContentHash]

def value (left : Nat) (item : Json) (atomThreshold : Nat) : Graph Json :=
  match left with
  | 0 => throw (invalid "Native checkpoint structure is too deep.")
  | left + 1 =>
    let size := serializedSize item
    if size ≤ atomThreshold then pure (.obj [("inline", item)])
    else if size ≤ leafBytes then do
      let chunk ← store put (.obj [("type", .str "atom"), ("value", item)])
      pure (.obj [("atom", chunk)])
    else match item with
      | .arr items => do
        let entries ← items.mapM fun entry => value left entry leafBytes
        let chunk ← paged put "list" entries listPage (left + 1)
        pure (.obj [("ref", chunk)])
      | .obj fields => do
        let digests := fields.map fun field => ContentHash.sha256 field.1
        let entries ← fields.mapM fun field => do
          let digest := ContentHash.sha256 field.1
          -- read one level below its leaf, and each branch adds a level
          let descriptor ← value (left - leafNibble 64 digests 0 digest) field.2 1024
          pure (⟨field.1, descriptor, digest⟩ : TrieEntry)
        let chunk ← branch put 64 entries 0
        pure (.obj [("map", chunk)])
      | .str text => do
        let pages := (Paging.cut textPage text.toList).map fun page => Json.str (.ofList page)
        let chunk ← paged put "text" pages listPage (left + 1)
        pure (.obj [("ref", chunk)])
      | _ => throw (invalid "Unsupported large native checkpoint value.")
termination_by left

def manifestOf (checkpoint : RuntimeCheckpoint) (root : Json) : Json :=
  .obj [("format", .str format), ("version", .int 2), ("session_id", .str checkpoint.session.id),
    ("state_digest", .str checkpoint.stateDigest), ("root", root)]

/-- The root node and what it refers to. -/
def encodeRoot (checkpoint : RuntimeCheckpoint) : Graph Json := do
  let session ← value put maxDepth checkpoint.session.dump leafBytes
  let nativeState ← value put maxDepth (.obj checkpoint.nativeState) leafBytes
  store put (.obj [("type", .str "checkpoint"), ("session", session), ("native_state", nativeState)])

def encode (checkpoint : RuntimeCheckpoint) : Except Failure Json := do
  if maxBytes < serializedSize checkpoint.dump then
    throw (invalid "Native checkpoint exceeds the write bound.")
  else
    let (root, used) ← encodeRoot put checkpoint (0, 0)
    let manifest := manifestOf checkpoint root
    if maxBytes < canonicalSize manifest + used.2 then
      throw (invalid "Native checkpoint graph exceeds the byte bound.")
    else pure manifest

end

/-! ### Decoding -/

/-- The identity in a reference. -/
def identityOf (ref : Json) : Except Failure (String × Digest) :=
  match ref with
  | .obj fields =>
    if named fields ["artifact_id", "sha256"] then
      match Dict.get fields "artifact_id", Dict.get fields "sha256" with
      | some (.str id), some (.str sha256) =>
        if sha256.length = 64 then .ok (id, sha256)
        else .error (invalid "Native checkpoint reference identity is invalid.")
      | _, _ => .error (invalid "Native checkpoint reference identity is invalid.")
    else .error (invalid "Native checkpoint reference is malformed.")
  | _ => .error (invalid "Native checkpoint reference is malformed.")

section

variable [ContentHash] [FloatReader] (read : String → Digest → Option String)

def node (left : Nat) (ref : Json) : Graph Json := fun used =>
  if left = 0 ∨ maxNodes ≤ used.1 then
    .error (invalid "Native checkpoint graph exceeds read bounds.")
  else do
    let (id, sha256) ← identityOf ref
    match read id sha256 with
    | none => .error (invalid "Native checkpoint chunk is unavailable.")
    | some content =>
      let size := utf8Size content.toList
      if maxChunkBytes < size then
        .error (invalid "Native checkpoint chunk exceeds the read bound.")
      else if ContentHash.sha256 content ≠ sha256 then
        .error (invalid "Native checkpoint chunk digest mismatch.")
      else if maxBytes < used.2 + size then
        .error (invalid "Native checkpoint graph exceeds the byte bound.")
      else match Json.loads content with
        | none => .error (invalid "Native checkpoint chunk JSON is invalid.")
        | some part => .ok (part, (used.1 + 1, used.2 + size))

/-- The items of a page. -/
def leafItems (kind : String) (part : Json) : Option (List Json) :=
  match part with
  | .obj fields =>
    match Dict.get fields "type", Dict.get fields "items" with
    | some (.str type), some (.arr items) =>
      if type = kind ∧ items.length ≤ listPage then some items else none
    | _, _ => none
  | _ => none

/-- The children of an index node of the level. -/
def indexChildren (level : Nat) (part : Json) : Option (List Json) :=
  match part with
  | .obj fields =>
    match Dict.get fields "type", Dict.get fields "level", Dict.get fields "children" with
    | some (.str "index"), some (.int found), some (.arr children) =>
      if found = level ∧ 1 ≤ children.length ∧ children.length ≤ indexPage then some children
      else none
    | _, _, _ => none
  | _ => none

def visit (kind : String) : Nat → Nat → Json → Graph (List Json)
  | 0, left, ref => do
    let part ← node read left ref
    match leafItems kind part with
    | some items => pure items
    | none => throw (invalid "Native checkpoint leaf is invalid.")
  | level + 1, left, ref => do
    let part ← node read left ref
    match indexChildren level part with
    | some children => do
      let items ← children.mapM (visit kind level (left - 1))
      pure items.flatten
    | none => throw (invalid "Native checkpoint index is invalid.")

structure SequenceHeader where
  kind : String
  level : Nat
  children : List Json
  length : Nat

def headerOf (part : Json) : Option SequenceHeader := do
  let fields ← asFields part
  guard (Dict.get fields "type" = some (.str "sequence"))
  let kind ← field fields "kind" asText
  let level ← field fields "level" asNat
  let children ← field fields "children" asItems
  let length ← field fields "length" asNat
  guard (kind ∈ ["list", "dict", "text"] ∧ children.length ≤ indexPage)
  return ⟨kind, level, children, length⟩

/-- The pages of a sequence, one after another. -/
def sequenceItems (header : SequenceHeader) (left : Nat) : Graph (List Json) := do
  let pages ← header.children.mapM (visit read header.kind header.level (left - 1))
  if pages.flatten.length = header.length then pure pages.flatten
  else throw (invalid "Native checkpoint sequence count is invalid.")

def atomValue (part : Json) : Option Json :=
  match part with
  | .obj fields =>
    if named fields ["type", "value"] ∧ Dict.get fields "type" = some (.str "atom") then
      Dict.get fields "value"
    else none
  | _ => none

def textOf (items : List Json) : Option String := do
  let pages ← items.mapM asText
  if pages.all fun page => page.length ≤ textPage then some (String.join pages) else none

/-- A part of a trie: the pairs of a leaf or the children of a branch. -/
inductive TriePart where
  | leaf (pairs : List Json)
  | branch (children : List Json)

def triePart (part : Json) : Except Failure TriePart :=
  match part with
  | .obj fields =>
    if Dict.get fields "type" = some (.str "dict_leaf") then
      match Dict.get fields "items" with
      | some (.arr pairs) =>
        if named fields ["type", "items"] ∧ pairs.length ≤ listPage then .ok (.leaf pairs)
        else .error (invalid "Native checkpoint mapping leaf is invalid.")
      | _ => .error (invalid "Native checkpoint mapping leaf is invalid.")
    else
      match Dict.get fields "type", Dict.get fields "nibble", Dict.get fields "children" with
      | some (.str "dict_branch"), some (.int n), some (.obj children) =>
        if named fields ["type", "nibble", "children"] ∧ (0 ≤ n ∧ n < 64) ∧
            (1 ≤ children.length ∧ children.length ≤ 16) ∧
            children.all fun child => child.1 ∈ hexDigits.map String.singleton then
          .ok (.branch (children.map Prod.snd))
        else .error (invalid "Native checkpoint mapping branch is invalid.")
      | _, _, _ => .error (invalid "Native checkpoint mapping branch is invalid.")
  | _ => .error (invalid "Native checkpoint mapping is invalid.")

mutual

def decodeValue (left : Nat) (entry : Json) : Graph Json :=
  match left, entry with
  | left + 1, .obj [(kind, content)] =>
    if kind = "inline" then
      if leafBytes < canonicalSize content then
        throw (invalid "Native checkpoint inline value exceeds its bound.")
      else pure content
    else if kind = "atom" then do
      let part ← node read (left + 1) content
      match atomValue part with
      | some item =>
        if leafBytes < canonicalSize item then throw (invalid "Native checkpoint atom is invalid.")
        else pure item
      | none => throw (invalid "Native checkpoint atom is invalid.")
    else if kind = "map" then do
      let fields ← decodeMapping left content
      pure (.obj fields)
    else if kind = "ref" then do
      let part ← node read (left + 1) content
      match headerOf part with
      | none => throw (invalid "Native checkpoint value sequence is invalid.")
      | some header => do
        let items ← sequenceItems read header (left + 1)
        if header.kind = "list" then do
          let values ← items.mapM fun item => decodeValue left item
          pure (.arr values)
        else if header.kind = "text" then
          match textOf items with
          | some text => pure (.str text)
          | none => throw (invalid "Native checkpoint text page is invalid.")
        else do
          let fields ← items.foldlM (fun result pair => decodePair left result pair) []
          pure (.obj fields)
    else throw (invalid "Native checkpoint value reference is invalid.")
  | _, _ => throw (invalid "Native checkpoint value is invalid.")
termination_by 3 * left

/-- One pair of a leaf, after those before it. -/
def decodePair (left : Nat) (result : List (String × Json)) (pair : Json) :
    Graph (List (String × Json)) :=
  match pair with
  | .arr [.str key, entry] =>
    if key ∈ result.map Prod.fst then throw (invalid "Native checkpoint mapping entry is invalid.")
    else do
      let item ← decodeValue left entry
      pure (result ++ [(key, item)])
  | _ => throw (invalid "Native checkpoint mapping entry is invalid.")
termination_by 3 * left + 1

/-- A trie whose root is read with one level more than its values. -/
def decodeMapping (left : Nat) (ref : Json) : Graph (List (String × Json)) := do
  let part ← node read (left + 1) ref
  match triePart part with
  | .error error => throw error
  | .ok (.leaf pairs) => pairs.foldlM (fun result pair => decodePair left result pair) []
  | .ok (.branch children) =>
    children.foldlM (fun result child => do
      let items ← match left with
        | 0 => throw (invalid "Native checkpoint graph exceeds read bounds.")
        | below + 1 => decodeMapping below child
      if items.any fun item => item.1 ∈ result.map Prod.fst then
        throw (invalid "Native checkpoint mapping has duplicate keys.")
      else pure (result ++ items)) []
termination_by 3 * left + 2

end

/-- The root node and the values that it refers to. -/
def decodeRoot (ref : Json) : Graph (Json × Json) := do
  let root ← node read (maxDepth + 1) ref
  match root with
  | .obj fields =>
    match Dict.get fields "session", Dict.get fields "native_state" with
    | some session, some nativeState =>
      if named fields ["type", "session", "native_state"] ∧
          Dict.get fields "type" = some (.str "checkpoint") then do
        let session ← decodeValue read maxDepth session
        let nativeState ← decodeValue read maxDepth nativeState
        pure (session, nativeState)
      else throw (invalid "Native checkpoint root is invalid.")
    | _, _ => throw (invalid "Native checkpoint root is invalid.")
  | _ => throw (invalid "Native checkpoint root is invalid.")

/-- `model_validate`, then `verify`. -/
def verified (data : Json) (reason : String) : Except Failure RuntimeCheckpoint :=
  match RuntimeCheckpoint.validate data with
  | none => .error (invalid reason)
  | some checkpoint =>
    if checkpoint.Valid then .ok checkpoint
    else .error (.refuse "CHECKPOINT_MISMATCH" "Checkpoint integrity or runtime identity mismatch")

def decodeManifest (data : List (String × Json)) (size : Nat) : Except Failure RuntimeCheckpoint :=
  match Dict.get data "root", Dict.get data "state_digest", Dict.get data "session_id" with
  | some root, some stateDigest, some sessionId =>
    if named data ["format", "version", "session_id", "state_digest", "root"] ∧
        Dict.get data "version" = some (.int 2) then do
      let ((session, nativeState), _) ← decodeRoot read root (0, size)
      let checkpoint ← verified (.obj [("version", .int 1), ("session", session),
        ("native_state", nativeState), ("state_digest", stateDigest)])
        "Native checkpoint reconstruction failed."
      if Json.str checkpoint.session.id = sessionId then .ok checkpoint
      else .error (invalid "Native checkpoint session identity changed.")
    else .error (invalid "Native checkpoint manifest version or fields are invalid.")
  | _, _, _ => .error (invalid "Native checkpoint manifest version or fields are invalid.")

/-- Old full JSON or a graph, checked edge by edge and against the state digest. -/
def decode (raw : String) : Except Failure RuntimeCheckpoint :=
  let size := utf8Size raw.toList
  if maxBytes < size then .error (invalid "Native checkpoint exceeds the read bound.")
  else match Json.loads raw with
    | none => .error (invalid "Native checkpoint JSON is invalid.")
    | some (.obj data) =>
      if Dict.get data "format" = some (.str format) then decodeManifest read data size
      else verified (.obj data) "Historical native checkpoint is invalid."
    | some data => verified data "Historical native checkpoint is invalid."

end

end CheckpointChunks
end PhysHarness
