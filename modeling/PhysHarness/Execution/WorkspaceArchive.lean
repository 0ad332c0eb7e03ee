import Mathlib.Algebra.Order.BigOperators.Group.List
import Mathlib.Data.List.Dedup
import PhysHarness.Execution.LegacyArchive
import PhysHarness.Lib.Paging

/-!
# Workspace archives

The bytes of an archive are a mark, the length of a canonical manifest, the manifest, and then each
distinct chunk of the files once, in the order of the digests. A reader checks everything that it
meets and builds the archive again at the end.

## Main result

`build_ok`: what the build accepts, and the bytes it writes.
-/
namespace PhysHarness

open Outcome Json

structure WorkspaceArchive where
  data : Bytes

namespace WorkspaceArchive

def defaultQuota : Nat := 256 * 1024 * 1024

def chunkSize : Nat := 1024 * 1024

def magic : Bytes := [0x50, 0x48, 0x57, 0x32]

def format : String := "physharness.workspace.v2"

def excludedNames : List String :=
  [".git", ".ssh", ".aws", ".config", "__pycache__", ".cache", "node_modules"]

def canonicalSegment (segment : String) : Bool :=
  segment ∉ ["", ".", ".."] && '\\' ∉ segment.toList && '\x00' ∉ segment.toList &&
    (Bytes.utf8 segment).length ≤ 255

def excludedSegment (segment : String) : Bool :=
  segment ∈ excludedNames || ".env".toList.isPrefixOf segment.toList ||
    ".pyc".toList.isSuffixOf segment.toList

/-- `checked_path` -/
def checkedPath (path : String) : Except ExecutionError Unit := do
  let size := (Bytes.utf8 path).length
  require (0 < size ∧ size ≤ 1024) (.unsafePath "Workspace path must be a bounded relative path")
  require ((pathSegments path).all canonicalSegment = true)
    (.unsafePath "Workspace path is not canonical")
  require ((pathSegments path).any excludedSegment = false)
    { code := "WORKSPACE_EXCLUDED", message := "Secrets and generated caches cannot be archived" }

/-- Contents under their digests. -/
abbrev Chunks := List (Digest × Bytes)

def parts (content : Bytes) : List Bytes := Paging.cut chunkSize content

/-- `sorted(set(excluded_paths or []))` -/
def exclusionList (excluded : List String) : List String := excluded.dedup.insertionSort (· ≤ ·)

/-! ### Building -/

section

variable [ByteHash]

/-- The chunks of one more file. -/
def addFile (chunks : Chunks) (file : String × Bytes) : Chunks :=
  (parts file.2).foldl (fun chunks part => Dict.set chunks (ByteHash.sha256 part) part) chunks

def fileEntry (file : String × Bytes) : Json :=
  .obj [("path", .str file.1), ("size", .int file.2.length),
    ("chunks", .arr ((parts file.2).map fun part => .str (ByteHash.sha256 part)))]

def chunkEntry (chunk : Digest × Bytes) : Json :=
  .obj [("sha256", .str chunk.1), ("size", .int chunk.2.length)]

def manifest (entries : List Json) (chunks : Chunks) (exclusions : List String) : Json :=
  .obj [("format", .str format), ("files", .arr entries), ("chunks", .arr (chunks.map chunkEntry)),
    ("excluded_paths", .arr (exclusions.map .str))]

/-- `_MAGIC`, the length, the manifest and the chunks. -/
def frame (manifest body : Bytes) : Bytes :=
  magic ++ (Bytes.bigEndian 8 manifest.length ++ (manifest ++ body))

structure Packed where
  entries : List Json
  chunks : Chunks

/-- The loop over the files: `total` bytes and the chunks so far, of `count` files. -/
def packFiles (quota count : Nat) :
    List (String × Bytes) → Nat → Packed → Except ExecutionError Packed
  | [], _, packed => .ok packed
  | file :: files, total, packed => do
    checkedPath file.1
    require (total + file.2.length ≤ quota ∧ count ≤ 10000)
      (.workspaceLimit "Workspace checkpoint exceeds quota")
    packFiles quota count files (total + file.2.length)
      ⟨packed.entries ++ [fileEntry file], addFile packed.chunks file⟩

/-- The part of `build` that reads the files. -/
def pack (files : FileMap) (quota : Nat) : Except ExecutionError Packed := do
  require (1 ≤ quota ∧ quota ≤ defaultQuota) (.workspaceLimit "Invalid workspace byte quota")
  let packed ← packFiles quota files.items.length files.sorted.items 0 ⟨[], []⟩
  require (∀ path ∈ files.paths, ∀ parent ∈ parents path, parent ∉ files.paths)
    (.unsafePath "File shadows workspace directory")
  return packed

def sortedChunks (chunks : Chunks) : Chunks := chunks.insertionSort fun x y => x.1 ≤ y.1

/-- The part of `build` that reads the exclusions and writes the bytes. -/
def write (packed : Packed) (excluded : List String) : Except ExecutionError WorkspaceArchive := do
  let exclusions := exclusionList excluded
  require (exclusions.length ≤ 10000 ∧ ∀ path ∈ exclusions, (Bytes.utf8 path).length ≤ 1024)
    (.workspaceLimit "Invalid exclusion manifest")
  let chunks := sortedChunks packed.chunks
  let encoded := jsonBytes (manifest packed.entries chunks exclusions)
  require (encoded.length ≤ 4000000) (.workspaceLimit "Workspace manifest exceeds quota")
  return ⟨frame encoded (chunks.flatMap Prod.snd)⟩

def build (files : FileMap) (quota : Nat := defaultQuota) (excluded : List String := []) :
    Except ExecutionError WorkspaceArchive := do
  let packed ← pack files quota
  write packed excluded

/-! ### Reading -/

def invalid : ExecutionError := .invalidArchive "Invalid workspace checkpoint"

def manifestLength (data : Bytes) : Nat := Bytes.ofBigEndian ((data.drop 4).take 8)

/-- The text of the manifest. -/
def rawManifest (data : Bytes) : Bytes := (data.drop 12).take (manifestLength data)

/-- The chunks behind the manifest. -/
def body (data : Bytes) : Bytes := data.drop (12 + manifestLength data)

/-- The loop over the chunk entries, on the bytes that are left. -/
def readChunks : List Json → Bytes → Chunks → Except ExecutionError Chunks
  | [], rest, chunks => do
    require (rest = []) invalid
    return chunks
  | entry :: entries, rest, chunks => do
    let fields ← orThrow (asFields entry) invalid
    require (named fields ["sha256", "size"] = true) invalid
    let digest ← orThrow (field fields "sha256" asText) invalid
    require (isSha256 digest = true) invalid
    let size ← orThrow (field fields "size" asNat) invalid
    require ((0 < size ∧ size ≤ chunkSize) ∧ digest ∉ chunks.map Prod.fst) invalid
    let chunk := rest.take size
    require (chunk.length = size ∧ ByteHash.sha256 chunk = digest) invalid
    readChunks entries (rest.drop size) (chunks ++ [(digest, chunk)])

/-- `entry["path"]`, which has to be hashable and new, and then a text. -/
def readPath (files : FileMap) : Option Json → Except ExecutionError String
  | some (.str path) => do
    require (path ∉ files.paths) invalid
    return path
  | some (.arr _) | some (.obj _) | none => .error invalid
  | some _ => .error (.unsafePath "Workspace path must be a bounded relative path")

/-- The loop over the file entries; the files so far have `total` bytes. -/
def readFiles (quota : Nat) (chunks : Chunks) :
    List Json → Nat → FileMap → Except ExecutionError FileMap
  | [], _, files => .ok files
  | entry :: entries, total, files => do
    let fields ← orThrow (asFields entry) invalid
    require (named fields ["path", "size", "chunks"] = true) invalid
    let path ← readPath files (Dict.get fields "path")
    checkedPath path
    let size ← orThrow (field fields "size" asNat)
      (.workspaceLimit "Workspace file exceeds quota")
    require (size ≤ quota) (.workspaceLimit "Workspace file exceeds quota")
    let refs ← orThrow (field fields "chunks" asItems)
      (.workspaceLimit "Workspace file has too many chunks")
    require (refs.length ≤ (quota + chunkSize - 1) / chunkSize)
      (.workspaceLimit "Workspace file has too many chunks")
    let found ← orThrow (refs.mapM fun ref => (asText ref).bind (Dict.get chunks)) invalid
    require (found.flatten.length = size) invalid
    require (total + size ≤ quota) (.workspaceLimit "Workspace quota exceeded")
    readFiles quota chunks entries (total + size) (files.insert path found.flatten)

def isZero (number : FloatText) : Bool :=
  (number.1.takeWhile fun c => c ≠ 'e' && c ≠ 'E').all fun c => !c.isDigit || c = '0'

def truthy : Json → Bool
  | .null => false
  | .bool value => value
  | .int value => value ≠ 0
  | .float value => !isZero value
  | .str value => value ≠ ""
  | .arr items => !items.isEmpty
  | .obj fields => !fields.isEmpty

def isNumber : Json → Bool
  | .bool _ | .int _ | .float _ => true
  | _ => false

def isNull : Json → Bool
  | .null => true
  | _ => false

/-- The exclusions that the build gets from a manifest. Entries of one kind that is no text are
sorted before they are refused. -/
def readExclusions (value : Json) : Except ExecutionError (List String) :=
  if truthy value = false then .ok []
  else match elements value with
    | none => .error invalid
    | some items => match items.mapM asText with
      | some paths => .ok paths
      | none =>
        if items.all isNumber || items.all isNull then
          .error (.workspaceLimit "Invalid exclusion manifest")
        else .error invalid

variable [FloatReader]

/-- `_v2_files` -/
def v2Files (data : Bytes) (quota : Nat) : Except ExecutionError FileMap := do
  require (12 ≤ data.length ∧ data.length ≤ quota + 4000012)
    (.workspaceLimit "Workspace archive exceeds quota")
  require (manifestLength data ≤ 4000000 ∧ 12 + manifestLength data ≤ data.length)
    (.invalidArchive "Invalid workspace manifest length")
  let value ← orThrow ((rawManifest data).text.bind loads) invalid
  require (rawManifest data = jsonBytes value) invalid
  let fields ← orThrow (asFields value) invalid
  require (named fields ["format", "files", "chunks"] = true ∨
    named fields ["format", "files", "chunks", "excluded_paths"] = true) invalid
  require (field fields "format" asText = some format) invalid
  let entries ← orThrow (field fields "chunks" elements) invalid
  let chunks ← readChunks entries (body data) []
  let entries ← orThrow (field fields "files" elements) invalid
  require (entries.length ≤ 10000) (.workspaceLimit "Too many workspace files")
  let files ← readFiles quota chunks entries 0 .empty
  let packed ← pack files quota
  let excluded ← readExclusions ((Dict.get fields "excluded_paths").getD (.arr []))
  let again ← write packed excluded
  require (again.data = data) invalid
  return files

/-- `excluded_paths`; `none` is an error of the JSON reader. -/
def excludedPaths (archive : WorkspaceArchive) : Option Json :=
  if magic.isPrefixOf archive.data then do
    let value ← (rawManifest archive.data).text.bind loads
    let fields ← asFields value
    return (Dict.get fields "excluded_paths").getD (.arr [])
  else some (.arr [])

end

section

variable [HexByteHash] [FloatReader]

def fromBytes (data : Bytes) (sha256 : Digest) (quota : Nat := defaultQuota) :
    Except ExecutionError WorkspaceArchive := do
  require (isSha256 sha256 = true ∧ ByteHash.sha256 data = sha256) .mismatch
  if magic.isPrefixOf data then
    let _ ← v2Files data quota
    return ⟨data⟩
  else
    let legacy ← LegacyArchive.fromBytes data sha256
    let files ← legacy.files
    forEach checkedPath files.paths
    return ⟨legacy.data⟩

def files (archive : WorkspaceArchive) (quota : Nat := defaultQuota) :
    Except ExecutionError FileMap :=
  if magic.isPrefixOf archive.data then v2Files archive.data quota
  else do
    let legacy ← LegacyArchive.fromBytes archive.data (ByteHash.sha256 archive.data)
    legacy.files

end

/-! ### What is built -/

section

variable [ByteHash]

/-- What the reader of the files accepts. -/
structure Packs (files : FileMap) (quota : Nat) : Prop where
  bounds : 1 ≤ quota ∧ quota ≤ defaultQuota
  paths : ∀ path ∈ files.paths, checkedPath path = .ok ()
  total : (files.items.map fun file => file.2.length).sum ≤ quota
  count : files.items.length ≤ 10000
  clear : ∀ path ∈ files.paths, ∀ parent ∈ parents path, parent ∉ files.paths

/-- The entries and the chunks of the files in the order of their paths. -/
def contents (files : FileMap) : Packed :=
  ⟨files.sorted.items.map fileEntry, files.sorted.items.foldl addFile []⟩

theorem packFiles_ok {quota count : Nat} {items : List (String × Bytes)} {total : Nat}
    {packed result : Packed} : packFiles quota count items total packed = .ok result ↔
      (∀ file ∈ items, checkedPath file.1 = .ok ()) ∧
      (items = [] ∨ (total + (items.map fun file => file.2.length).sum ≤ quota ∧ count ≤ 10000)) ∧
      ⟨packed.entries ++ items.map fileEntry, items.foldl addFile packed.chunks⟩ = result := by
  induction items generalizing total packed with
  | nil => simp [packFiles]
  | cons file items ih =>
    simp only [packFiles, bind_ok, require_ok, ih, List.forall_mem_cons, List.map_cons, List.sum_cons,
      List.foldl_cons, List.append_assoc, List.singleton_append, reduceCtorEq, false_or]
    constructor
    · rintro ⟨_, path, -, ⟨fits, count⟩, later, room, same⟩
      refine ⟨⟨path, later⟩, ⟨?_, count⟩, same⟩
      rcases room with rfl | ⟨room, -⟩
      · simpa using fits
      · omega
    · rintro ⟨⟨path, later⟩, ⟨room, count⟩, same⟩
      exact ⟨(), path, (), ⟨by omega, count⟩, later, .inr ⟨by omega, count⟩, same⟩

omit [ByteHash] in
theorem sum_sorted (files : FileMap) : (files.sorted.items.map fun file => file.2.length).sum =
    (files.items.map fun file => file.2.length).sum :=
  (files.sorted_equal.map _).sum_eq

theorem pack_ok {files : FileMap} {quota : Nat} {packed : Packed} :
    pack files quota = .ok packed ↔ Packs files quota ∧ contents files = packed := by
  have paths : (∀ file ∈ files.sorted.items, checkedPath file.1 = .ok ()) ↔
      ∀ path ∈ files.paths, checkedPath path = .ok () := by
    simp only [FileMap.paths, List.forall_mem_map]
    exact forall_congr' fun file => by rw [files.sorted_equal.mem_iff]
  simp only [pack, bind_ok, require_ok, pure_ok, packFiles_ok, paths, Nat.zero_add, sum_sorted,
    List.nil_append]
  constructor
  · rintro ⟨-, quota, found, ⟨paths, room, rfl⟩, -, clear, rfl⟩
    refine ⟨⟨quota, paths, ?_, ?_, clear⟩, rfl⟩
    all_goals
      rcases room with none | ⟨total, count⟩
      · have empty : files.items = [] := by
          have perm := files.sorted_equal
          rw [FileMap.Equal, none] at perm
          exact perm.nil_eq.symm
        simp [empty]
      · assumption
  · rintro ⟨packs, rfl⟩
    exact ⟨(), packs.bounds, _, ⟨packs.paths, .inr ⟨packs.total, packs.count⟩, rfl⟩, (), packs.clear, rfl⟩

/-- What the writer accepts. -/
structure Writes (packed : Packed) (excluded : List String) : Prop where
  count : (exclusionList excluded).length ≤ 10000
  bounded : ∀ path ∈ exclusionList excluded, (Bytes.utf8 path).length ≤ 1024
  small : (jsonBytes (manifest packed.entries (sortedChunks packed.chunks)
    (exclusionList excluded))).length ≤ 4000000

def written (packed : Packed) (excluded : List String) : Bytes :=
  frame (jsonBytes (manifest packed.entries (sortedChunks packed.chunks) (exclusionList excluded)))
    ((sortedChunks packed.chunks).flatMap Prod.snd)

omit [ByteHash] in
theorem write_ok {packed : Packed} {excluded : List String} {archive : WorkspaceArchive} :
    write packed excluded = .ok archive ↔
      Writes packed excluded ∧ ⟨written packed excluded⟩ = archive := by
  simp only [write, bind_ok, require_ok, pure_ok]
  constructor
  · rintro ⟨-, ⟨count, bounded⟩, -, small, same⟩
    exact ⟨⟨count, bounded, small⟩, same⟩
  · rintro ⟨writes, same⟩
    exact ⟨(), ⟨writes.count, writes.bounded⟩, (), writes.small, same⟩

/-- The bytes of the files with their exclusions. -/
def encode (files : FileMap) (excluded : List String) : Bytes := written (contents files) excluded

theorem build_ok {files : FileMap} {quota : Nat} {excluded : List String}
    {archive : WorkspaceArchive} : build files quota excluded = .ok archive ↔
      Packs files quota ∧ Writes (contents files) excluded ∧ ⟨encode files excluded⟩ = archive := by
  simp only [build, bind_ok, pack_ok, write_ok, encode]
  constructor
  · rintro ⟨_, ⟨packs, rfl⟩, writes⟩
    exact ⟨packs, writes⟩
  · rintro ⟨packs, writes⟩
    exact ⟨_, ⟨packs, rfl⟩, writes⟩

omit [ByteHash] in
theorem Packs.congr {first second : FileMap} {quota : Nat} (packs : Packs first quota)
    (equal : first.Equal second) : Packs second quota where
  bounds := packs.bounds
  paths path member := packs.paths path ((equal.mem_paths path).mpr member)
  total := ((equal.map fun file => file.2.length).sum_eq).symm.trans_le packs.total
  count := equal.length_eq.symm.trans_le packs.count
  clear path member parent above := mt (equal.mem_paths parent).mpr
    (packs.clear path ((equal.mem_paths path).mpr member) parent above)

omit [ByteHash] in
theorem Packs.mono {files : FileMap} {quota more : Nat} (packs : Packs files quota)
    (room : quota ≤ more) (bounded : more ≤ defaultQuota) : Packs files more :=
  { packs with
    bounds := ⟨packs.bounds.1.trans room, bounded⟩
    total := packs.total.trans room }

theorem contents_congr {first second : FileMap} (equal : first.Equal second) :
    contents first = contents second := by
  rw [contents, contents, equal.sorted_eq]

omit [ByteHash] in
theorem exclusionList_idem (excluded : List String) :
    exclusionList (exclusionList excluded) = exclusionList excluded := by
  have distinct : (exclusionList excluded).Nodup :=
    (List.perm_insertionSort _ _).nodup_iff.mpr (List.nodup_dedup excluded)
  have again : exclusionList (exclusionList excluded) =
      (exclusionList excluded).dedup.insertionSort (· ≤ ·) := rfl
  rw [again, distinct.dedup]
  exact (List.pairwise_insertionSort _ _).insertionSort_eq

/-- Equal files with the same exclusions build the same archive. -/
theorem build_congr {first second : FileMap} {quota more : Nat} {excluded : List String}
    {archive : WorkspaceArchive} (equal : first.Equal second) (room : quota ≤ more)
    (bounded : more ≤ defaultQuota) (built : build first quota excluded = .ok archive) :
    build second more (exclusionList excluded) = .ok archive := by
  obtain ⟨packs, writes, same⟩ := build_ok.mp built
  refine build_ok.mpr ⟨(packs.congr equal).mono room bounded, ?_, ?_⟩
  · rw [← contents_congr equal]
    exact ⟨by rw [exclusionList_idem]; exact writes.count, by rw [exclusionList_idem]; exact writes.bounded,
      by rw [exclusionList_idem]; exact writes.small⟩
  · rw [encode, ← contents_congr equal, written, exclusionList_idem]
    exact same

end

end WorkspaceArchive

end PhysHarness
