import PhysHarness.Execution.Checkpoint
import PhysHarness.Execution.Context
import PhysHarness.Lib.Base64

/-!
# File maps, and the v1 envelope

A workspace is archived as its regular files. The old envelope is one canonical JSON text that holds
each file in Base64; it is still read.

## Main result

`LegacyArchive.round_trip`: an envelope that is built reads back as the files it was built from.
-/
namespace PhysHarness

open Outcome Json

/-! ### Files -/

/-- `dict[str, bytes]` -/
@[ext] structure FileMap where
  items : List (String × Bytes)
  distinct : (items.map Prod.fst).Nodup

namespace FileMap

def empty : FileMap := ⟨[], .nil⟩

def paths (files : FileMap) : List String := files.items.map Prod.fst

/-- `files[path] = content` -/
def insert (files : FileMap) (path : String) (content : Bytes) : FileMap :=
  ⟨Dict.set files.items path content, Dict.nodup_set files.distinct path content⟩

/-- `sorted(files.items())` -/
def sorted (files : FileMap) : FileMap :=
  ⟨files.items.insertionSort fun x y => x.1 ≤ y.1,
    ((List.perm_insertionSort _ files.items).map Prod.fst).nodup_iff.mpr files.distinct⟩

/-- Equality as dictionaries. -/
def Equal (first second : FileMap) : Prop := first.items.Perm second.items

end FileMap

/-! Dictionary facts -/

theorem FileMap.Equal.mem_paths {first second : FileMap} (equal : first.Equal second) (path : String) :
    path ∈ first.paths ↔ path ∈ second.paths := (equal.map Prod.fst).mem_iff

theorem FileMap.Equal.sorted_eq {first second : FileMap} (equal : first.Equal second) :
    first.sorted = second.sorted :=
  FileMap.ext (insertionSort_congr equal first.distinct)

theorem FileMap.sorted_equal (files : FileMap) : files.sorted.Equal files :=
  List.perm_insertionSort _ files.items

/-- A new path is appended. -/
theorem FileMap.insert_items {files : FileMap} {path : String} (fresh : path ∉ files.paths)
    (content : Bytes) : (files.insert path content).items = files.items ++ [(path, content)] :=
  if_neg fresh

/-- `path.split("/")` -/
def pathSegments (path : String) : List String := (path.toList.splitOn '/').map .ofList

/-- `"/".join(segments)` -/
def joinSegments (segments : List String) : String :=
  .ofList (['/'].intercalate (segments.map String.toList))

/-- The proper prefixes of a path, segment by segment. -/
def parents (path : String) : List String :=
  (List.range' 1 ((pathSegments path).length - 1)).map fun i =>
    joinSegments ((pathSegments path).take i)

/-- `json.dumps(value, sort_keys=True, separators=(",", ":"), ensure_ascii=True).encode()` -/
def jsonBytes (value : Json) : Bytes := Bytes.utf8 (asciiCanonical value)

namespace ExecutionError

def unsafePath (message : String) : ExecutionError := { code := "UNSAFE_PATH", message }

def workspaceLimit (message : String) : ExecutionError := { code := "WORKSPACE_LIMIT", message }

def invalidArchive (message : String) : ExecutionError := { code := "INVALID_ARCHIVE", message }

def mismatch : ExecutionError :=
  { code := "CHECKPOINT_MISMATCH", message := "Workspace archive checksum mismatch" }

end ExecutionError

/-- A hash whose digests are SHA-256 texts. -/
class HexByteHash extends ByteHash where
  hex : ∀ data, isSha256 (sha256 data) = true

/-! ### The envelope -/

/-- `e2b.WorkspaceArchive` -/
structure LegacyArchive where
  data : Bytes

namespace LegacyArchive

def archiveLimit : Nat := 65536

def fileLimit : Nat := 32768

def fileCountLimit : Nat := 64

def format : String := "physharness.workspace.v1"

def canonicalSegment (segment : String) : Bool :=
  segment ∉ ["", ".", ".."] && (Bytes.utf8 segment).length ≤ 255

/-- `_path` -/
def checkPath (path : String) : Except ExecutionError Unit :=
  let size := (Bytes.utf8 path).length
  require (0 < size ∧ size ≤ 256 ∧ '\\' ∉ path.toList ∧ '\x00' ∉ path.toList ∧
      (pathSegments path).all canonicalSegment = true)
    (.unsafePath "Workspace path must be a canonical relative file path")

section

variable [ByteHash]

def entry (file : String × Bytes) : Json :=
  .obj [("path", .str file.1), ("data", .str (.ofList (Base64.encode file.2))),
    ("sha256", .str (ByteHash.sha256 file.2))]

def envelope (files : List (String × Bytes)) : Json :=
  .obj [("format", .str format), ("files", .arr (files.map entry))]

/-- One turn of the loop over the files. -/
def checkFile (files : FileMap) (file : String × Bytes) : Except ExecutionError Unit := do
  checkPath file.1
  require (file.2.length ≤ fileLimit) (.workspaceLimit "Workspace file exceeds byte limit")
  require (∀ parent ∈ parents file.1, parent ∉ files.paths)
    (.unsafePath "File shadows a workspace directory")

def build (files : FileMap) : Except ExecutionError LegacyArchive := do
  require (files.items.length ≤ fileCountLimit) (.workspaceLimit "Workspace has too many files")
  forEach (checkFile files) files.sorted.items
  let encoded := jsonBytes (envelope files.sorted.items)
  require (encoded.length ≤ archiveLimit)
    (.workspaceLimit "Canonical workspace archive exceeds byte limit")
  return ⟨encoded⟩

def invalid : ExecutionError := .invalidArchive "Invalid canonical workspace archive"

end

variable [HexByteHash] [FloatReader]

/-- The loop over the entries. A path that is no text is refused here, in the source by the build. -/
def readEntries : List Json → FileMap → Except ExecutionError FileMap
  | [], files => .ok files
  | entry :: entries, files => do
    let fields ← orThrow (asFields entry) invalid
    require (named fields ["path", "data", "sha256"] = true) invalid
    let path ← orThrow (field fields "path" asText) invalid
    require (path ∉ files.paths) invalid
    let text ← orThrow (field fields "data" asText) invalid
    let content ← orThrow (Base64.decode text.toList) invalid
    require (field fields "sha256" asText = some (ByteHash.sha256 content)) invalid
    readEntries entries (files.insert path content)

/-- The files of an envelope, as its text lists them. -/
def decode (data : Bytes) : Except ExecutionError FileMap := do
  let value ← orThrow (data.text.bind loads) invalid
  let fields ← orThrow (asFields value) invalid
  require (named fields ["format", "files"] = true) invalid
  require (field fields "format" asText = some format) invalid
  let entries ← orThrow (field fields "files" elements) invalid
  readEntries entries .empty

def fromBytes (data : Bytes) (sha256 : Digest) : Except ExecutionError LegacyArchive := do
  require (data.length ≤ archiveLimit) (.workspaceLimit "Workspace archive exceeds byte limit")
  require (ByteHash.sha256 data = sha256) .mismatch
  let files ← decode data
  let archive ← build files
  require (archive.data = data) invalid
  return archive

/-- The entries are read again, after the whole envelope has been checked. -/
def files (archive : LegacyArchive) : Except ExecutionError FileMap := do
  let checked ← fromBytes archive.data (ByteHash.sha256 archive.data)
  decode checked.data

/-! ### Round trip -/

omit [FloatReader] in
theorem build_ok {files : FileMap} {archive : LegacyArchive} : build files = .ok archive ↔
    files.items.length ≤ fileCountLimit ∧
      (∀ file ∈ files.sorted.items, checkFile files file = .ok ()) ∧
      (jsonBytes (envelope files.sorted.items)).length ≤ archiveLimit ∧
      ⟨jsonBytes (envelope files.sorted.items)⟩ = archive := by
  simp only [build, bind_ok, require_ok, forEach_ok, pure_ok, exists_const]

omit [HexByteHash] [FloatReader] in
theorem checkFile_ok {files : FileMap} {file : String × Bytes} : checkFile files file = .ok () ↔
    checkPath file.1 = .ok () ∧ file.2.length ≤ fileLimit ∧
      ∀ parent ∈ parents file.1, parent ∉ files.paths := by
  simp only [checkFile, bind_ok, require_ok, exists_const]
  exact ⟨fun ⟨_, checked⟩ => checked, fun checked => ⟨(), checked⟩⟩

omit [FloatReader] in
/-- The order of the files does not matter. -/
theorem build_congr {first second : FileMap} {archive : LegacyArchive} (equal : first.Equal second)
    (built : build first = .ok archive) : build second = .ok archive := by
  obtain ⟨count, checked, small, same⟩ := build_ok.mp built
  rw [equal.sorted_eq] at checked small same
  refine build_ok.mpr ⟨equal.length_eq ▸ count, fun file member => ?_, small, same⟩
  obtain ⟨path, size, clear⟩ := checkFile_ok.mp (checked file member)
  exact checkFile_ok.mpr ⟨path, size, fun parent above =>
    mt (equal.mem_paths parent).mpr (clear parent above)⟩

omit [FloatReader] in
theorem sortKeys_entry (file : String × Bytes) : sortKeys (entry file) =
    .obj [("data", .str (.ofList (Base64.encode file.2))), ("path", .str file.1),
      ("sha256", .str (ByteHash.sha256 file.2))] := by
  simp [entry, sortKeys, sortFields]

omit [FloatReader] in
theorem sortKeys_envelope (files : List (String × Bytes)) : sortKeys (envelope files) =
    .obj [("files", .arr (files.map fun file => sortKeys (entry file))), ("format", .str format)] := by
  simp [envelope, sortKeys, sortFields, sortItems_eq_map]

omit [FloatReader] in
/-- The entries of new files are read after the files that are there. -/
theorem readEntries_entries {items : List (String × Bytes)} {files whole : FileMap}
    (listed : whole.items = files.items ++ items) :
    readEntries (items.map fun file => sortKeys (entry file)) files = .ok whole := by
  induction items generalizing files with
  | nil =>
    rw [List.append_nil] at listed
    rw [List.map_nil, readEntries, FileMap.ext listed]
  | cons file items ih =>
    have distinct := whole.distinct
    rw [listed, List.map_append, List.nodup_append] at distinct
    have fresh : file.1 ∉ files.paths := fun known =>
      distinct.2.2 file.1 known file.1 (List.mem_cons_self ..) rfl
    have next : readEntries _ (files.insert file.1 file.2) = .ok whole := ih (by
      rw [listed, FileMap.insert_items fresh, List.append_assoc]
      rfl)
    have names : named [("data", Json.str (.ofList (Base64.encode file.2))), ("path", .str file.1),
        ("sha256", .str (ByteHash.sha256 file.2))] ["path", "data", "sha256"] = true := by
      have perm : ["data", "path", "sha256"].Perm ["path", "data", "sha256"] := by decide
      exact decide_eq_true perm
    rw [List.map_cons, sortKeys_entry, readEntries]
    simp [asFields, orThrow, names, require, field, Dict.get, asText, fresh,
      Base64.decode_encode, next, bind, Except.bind]

/-- An envelope lists the files in their order. -/
theorem decode_envelope (files : FileMap) : decode (jsonBytes (envelope files.items)) = .ok files := by
  have loaded : (jsonBytes (envelope files.items)).text.bind loads =
      some (sortKeys (envelope files.items)) := by
    rw [jsonBytes, Bytes.text_utf8, Option.bind_some, loads_asciiCanonical]
  have names : named [("files", Json.arr (files.items.map fun file => sortKeys (entry file))),
      ("format", .str format)] ["format", "files"] = true := by
    have perm : ["files", "format"].Perm ["format", "files"] := by decide
    exact decide_eq_true perm
  have reads : readEntries _ .empty = .ok files := readEntries_entries (List.nil_append files.items).symm
  rw [decode, loaded, sortKeys_envelope]
  simp [asFields, orThrow, names, require, field, Dict.get, asText, elements, reads, bind, Except.bind]

theorem fromBytes_built {data : Bytes} {files : FileMap} (small : data.length ≤ archiveLimit)
    (decoded : decode data = .ok files) (built : build files = .ok ⟨data⟩) :
    fromBytes data (ByteHash.sha256 data) = .ok ⟨data⟩ := by
  rw [fromBytes, bind_ok]
  refine ⟨(), require_ok.mpr small, bind_ok.mpr ⟨(), require_ok.mpr rfl, ?_⟩⟩
  exact bind_ok.mpr ⟨files, decoded, bind_ok.mpr ⟨⟨data⟩, built,
    bind_ok.mpr ⟨(), require_ok.mpr rfl, rfl⟩⟩⟩

/-- An envelope that is built is accepted, and reads back as the files it was built from. -/
theorem round_trip {files : FileMap} {archive : LegacyArchive} (built : build files = .ok archive) :
    fromBytes archive.data (ByteHash.sha256 archive.data) = .ok archive ∧
      ∃ found, archive.files = .ok found ∧ found.Equal files := by
  obtain ⟨data⟩ := archive
  obtain ⟨-, -, small, same⟩ := build_ok.mp built
  have decoded : decode data = .ok files.sorted := by
    rw [← LegacyArchive.mk.inj same]
    exact decode_envelope files.sorted
  rw [LegacyArchive.mk.inj same] at small
  have accepted := fromBytes_built small decoded (build_congr files.sorted_equal.symm built)
  exact ⟨accepted, files.sorted, bind_ok.mpr ⟨_, accepted, decoded⟩, files.sorted_equal⟩

end LegacyArchive

end PhysHarness
