import PhysHarness.Lib.Lines
import PhysHarness.Verification.Bundles

/-!
# Bundles as they are written and as they are read

What `create_bundle` writes is read back byte for byte, so its acceptance hangs on the names and the sizes
alone. The reader compares names as texts; a name with `.` components or repeated slashes is another text
for the same path.

## Main result

`bundles_iff`: which written bundles are accepted, and which accepted bundles stage a reserved path.
-/
namespace PhysHarness

open Outcome

/-! ### Paths and their spellings -/

/-- A part of a path: not empty, not `.`, and without a slash. -/
def IsPart (part : String) : Prop := part ≠ "" ∧ part ≠ "." ∧ '/' ∉ part.toList

theorem isPart_of_mem {name part : String} (member : part ∈ pathParts name) : IsPart part := by
  obtain ⟨listed, kept⟩ := List.mem_filter.mp member
  obtain ⟨piece, split, rfl⟩ := List.mem_map.mp listed
  refine ⟨(of_decide_eq_true kept).1, (of_decide_eq_true kept).2, ?_⟩
  rw [String.toList_ofList]
  exact Lines.not_mem_line split

theorem pathSegments_join {parts : List String} (some : parts ≠ [])
    (each : ∀ part ∈ parts, '/' ∉ part.toList) : pathSegments (joinSegments parts) = parts := by
  rw [pathSegments, joinSegments, String.toList_ofList, List.splitOn_intercalate]
  · simp [Function.comp_def]
  · intro piece member
    obtain ⟨part, listed, rfl⟩ := List.mem_map.mp member
    exact each part listed
  · simpa using some

theorem pathParts_eq (name : String) :
    pathParts name = (pathSegments name).filter fun part => part ≠ "" ∧ part ≠ "." := rfl

theorem segments_asPosix {name : String} (some : pathParts name ≠ []) :
    pathSegments (asPosix name) = pathParts name := by
  rw [asPosix, if_neg some]
  exact pathSegments_join some fun part member => (isPart_of_mem member).2.2

/-- Every spelling of a path has the same normal form, which names the same path. -/
theorem pathParts_asPosix {name : String} (some : pathParts name ≠ []) :
    pathParts (asPosix name) = pathParts name := by
  rw [pathParts_eq, segments_asPosix some, List.filter_eq_self]
  intro part member
  have part := isPart_of_mem member
  exact decide_eq_true ⟨part.1, part.2.1⟩

theorem asPosix_single {name part : String} (parts : pathParts name = [part]) : asPosix name = part := by
  rw [asPosix, if_neg (by simp [parts]), parts, joinSegments, List.map_singleton,
    List.intercalate_singleton, String.ofList_toList]

/-- The files of the container's trusted directory that are not project files. -/
def reservedNames : List String :=
  ["Challenge.lean", "environment.json", "manifest.json", "Solution.lean", "request.json", "config.json",
    "seccomp.json", "resources.json"]

theorem reservedNames_parts : ∀ name ∈ reservedNames, pathParts name = [name] := by decide +kernel

/-- The three files that `_bundle` has read before the project files. -/
def fixedNames : List String := ["Challenge.lean", "environment.json", "manifest.json"]

theorem lakeSlash : ".lake/".toList = ".lake".toList ++ ['/'] := by simp

theorem slash_notMem_lake : '/' ∉ ".lake".toList := by decide

theorem lake_length : ".lake/".toList.length = 6 := by decide

/-- Staged below the trusted directory, the file takes the place of a reserved one or lies in `.lake`. -/
def StagedReserved (trusted : List String) (name : String) : Prop :=
  (∃ reserved ∈ reservedNames, stagedPath trusted name = stagedPath trusted reserved) ∨
    ∃ inner, inner ≠ [] ∧ stagedPath trusted name = trusted ++ ".lake" :: inner

/-- A normal form in `.lake` begins with `.lake/`. -/
theorem inside_lake {name : String} (some : pathParts name ≠ []) :
    (∃ inner, inner ≠ [] ∧ pathParts name = ".lake" :: inner) ↔
      (asPosix name).toList.take 6 = ".lake/".toList := by
  constructor
  · rintro ⟨inner, more, parts⟩
    obtain ⟨next, rest, rfl⟩ := List.exists_cons_of_ne_nil more
    rw [asPosix, if_neg some, parts, joinSegments, String.toList_ofList, List.map_cons, List.map_cons,
      List.intercalate_cons_cons, List.append_assoc, ← List.append_assoc, ← lakeSlash,
      List.take_append_of_le_length (by rw [lake_length]), ← lake_length, List.take_length]
  · intro starts
    have whole : (asPosix name).toList = ".lake/".toList ++ (asPosix name).toList.drop 6 := by
      rw [← starts, List.take_append_drop]
    have parts := segments_asPosix some
    rw [pathSegments, whole, lakeSlash, List.append_assoc, List.singleton_append,
      List.splitOn_append_cons_self_of_not_mem slash_notMem_lake, List.map_cons,
      String.ofList_toList] at parts
    exact ⟨_, by simp, parts.symm⟩

theorem stagedReserved_iff {trusted : List String} {name : String} (some : pathParts name ≠ []) :
    StagedReserved trusted name ↔
      asPosix name ∈ fixedNames ∨ reservedFile (asPosix name) = true := by
  have split : asPosix name ∈ fixedNames ∨ reservedFile (asPosix name) = true ↔
      asPosix name ∈ reservedNames ∨ (asPosix name).toList.take 6 = ".lake/".toList := by
    simp only [fixedNames, reservedFile, reservedNames, List.mem_cons, List.not_mem_nil, or_false,
      Bool.or_eq_true, decide_eq_true_eq, or_assoc]
  rw [split, ← inside_lake some, StagedReserved]
  refine or_congr ⟨?_, fun listed => ?_⟩ ?_
  · rintro ⟨reserved, listed, same⟩
    have parts := List.append_cancel_left same
    rw [reservedNames_parts reserved listed] at parts
    rwa [asPosix_single parts]
  · refine ⟨_, listed, congrArg (trusted ++ ·) ?_⟩
    exact (pathParts_asPosix some).symm
  · simp only [stagedPath, List.append_cancel_left_eq]

/-! ### What the reader accepts -/

section Reading

variable [ByteHash] [Decoders]

/-- All that the reader has checked when it accepts a bundle. -/
structure Accepts (config : ComparatorConfig) (host : HostFiles) (bundle : BundleDirectory)
    (request : RequestPins) (manifest : Manifest) (env : Environment) (files : List (String × Bytes))
    (raw target rawEnv : Bytes) : Prop where
  resources : config.resources.sha256 = config.qualification.resourceProfileSha256 ∧
    config.resourceProfileSourceSha256 = config.qualification.resourceProfileSourceSha256
  policy : host.policyDigest = config.qualification.resourcePolicySha256
  directory : bundle.symlink = false ∧ bundle.directory = true
  readManifest : safeRead bundle "manifest.json" = .ok raw
  manifestDigest : ByteHash.sha256 raw = config.manifestSha256
  manifestValid : (Decoders.read raw).bind Manifest.validate = some manifest
  selected : ∀ theoremName ∈ request.targetTheorem, manifest.theoremNames = [theoremName]
  matching : manifest.problemRevisionId = request.problemRevisionId ∧
    manifest.targetDigest = request.targetDigest ∧
    manifest.challengeSha256 = request.challengeSha256 ∧
    manifest.environmentDigest = request.environmentDigest
  readTarget : safeRead bundle "Challenge.lean" = .ok target
  readEnvironment : safeRead bundle "environment.json" = .ok rawEnv
  digests : ByteHash.sha256 target = request.challengeSha256 ∧
    ByteHash.sha256 rawEnv = request.environmentDigest
  environmentValid : (Decoders.read rawEnv).bind Environment.validate = some env
  image : env.image = config.qualification.imageDigest
  driver : config.qualification.driverSha256 = host.driverDigest
  launcher : config.qualification.launcherSha256 = host.launcherDigest
  seccomp : config.qualification.seccompSha256 = seccompDigest
  versions : pinned env.checkerVersions "lean" = true ∧ pinned env.checkerVersions "comparator" = true
  binaries : ∀ name ∈ checkerBinaries, name ∈ env.binaries.map Prod.fst
  added : addFiles bundle env.files
    [("Challenge.lean", target), ("environment.json", rawEnv), ("manifest.json", raw)] = .ok files
  configured : lakeConfigured (files.map Prod.fst)

variable {config : ComparatorConfig} {host : HostFiles} {bundle : BundleDirectory}
  {request : RequestPins} {manifest : Manifest} {env : Environment} {files : List (String × Bytes)}

theorem bundleFor_ok : bundleFor config host bundle request = .ok (manifest, env, files) ↔
    ∃ raw target rawEnv, Accepts config host bundle request manifest env files raw target rawEnv := by
  simp only [bundleFor, bind_ok, require_ok, orThrow_ok, pure_ok, Prod.mk.injEq]
  constructor
  · rintro ⟨-, resources, -, policy, -, directory, raw, readManifest, -, manifestDigest, _, manifestValid,
      -, selected, -, matching, target, readTarget, rawEnv, readEnvironment, -, digests, _,
      environmentValid, -, image, -, driver, -, launcher, -, seccomp, -, versions, -, binaries, _, added,
      -, configured, rfl, rfl, rfl⟩
    exact ⟨raw, target, rawEnv, resources, policy, directory, readManifest, manifestDigest, manifestValid,
      selected, matching, readTarget, readEnvironment, digests, environmentValid, image, driver, launcher,
      seccomp, versions, binaries, added, configured⟩
  · rintro ⟨raw, target, rawEnv, accepts⟩
    exact ⟨(), accepts.resources, (), accepts.policy, (), accepts.directory, raw, accepts.readManifest, (),
      accepts.manifestDigest, _, accepts.manifestValid, (), accepts.selected, (), accepts.matching, target,
      accepts.readTarget, rawEnv, accepts.readEnvironment, (), accepts.digests, _,
      accepts.environmentValid, (), accepts.image, (), accepts.driver, (), accepts.launcher, (),
      accepts.seccomp, (), accepts.versions, (), accepts.binaries, _, accepts.added, (),
      accepts.configured, rfl, rfl, rfl⟩

omit [Decoders] in
/-- The names the loop lets through, beside the ones it starts with. -/
theorem addFiles_names {pins : List (String × Digest)} {all : List (String × Bytes)}
    (added : addFiles bundle pins files = .ok all) :
    (∀ pin ∈ pins, pin.1 ∉ files.map Prod.fst ∧ reservedFile pin.1 = false) ∧
      all.map Prod.fst = files.map Prod.fst ++ pins.map Prod.fst := by
  induction pins generalizing files with
  | nil =>
    obtain rfl := pure_ok.mp added
    exact ⟨nofun, (List.append_nil _).symm⟩
  | cons pin pins ih =>
    obtain ⟨_, fresh, added⟩ := bind_ok.mp added
    obtain ⟨data, _, added⟩ := bind_ok.mp added
    obtain ⟨_, _, added⟩ := bind_ok.mp added
    obtain ⟨later, names⟩ := ih added
    refine ⟨List.forall_mem_cons.mpr ⟨require_ok.mp fresh, fun other member => ?_⟩, ?_⟩
    · obtain ⟨apart, free⟩ := later other member
      rw [List.map_append, List.mem_append, not_or] at apart
      exact ⟨apart.1, free⟩
    · rw [names, List.map_append, List.append_assoc]
      rfl

omit [Decoders] in
/-- The loop succeeds on fresh names whose files are there. -/
theorem addFiles_of {pins : List (String × Digest)} (distinct : (pins.map Prod.fst).Nodup)
    (fresh : ∀ pin ∈ pins, pin.1 ∉ files.map Prod.fst ∧ reservedFile pin.1 = false)
    (there : ∀ pin ∈ pins, ∃ data, safeRead bundle pin.1 = .ok data ∧ ByteHash.sha256 data = pin.2) :
    ∃ all, addFiles bundle pins files = .ok all := by
  induction pins generalizing files with
  | nil => exact ⟨files, rfl⟩
  | cons pin pins ih =>
    obtain ⟨first, later⟩ := List.nodup_cons.mp distinct
    obtain ⟨own, others⟩ := List.forall_mem_cons.mp fresh
    obtain ⟨⟨data, read, same⟩, rest⟩ := List.forall_mem_cons.mp there
    obtain ⟨all, added⟩ := @ih (files ++ [(pin.1, data)]) later (fun other member => by
      refine ⟨fun inside => ?_, (others other member).2⟩
      rw [List.map_append, List.mem_append, List.map_singleton, List.mem_singleton] at inside
      rcases inside with before | repeated
      · exact (others other member).1 before
      · exact first (repeated ▸ List.mem_map_of_mem member)) rest
    exact ⟨all, bind_ok.mpr ⟨(), require_ok.mpr own, bind_ok.mpr ⟨data, read,
      bind_ok.mpr ⟨(), require_ok.mpr same, added⟩⟩⟩⟩

omit [ByteHash] [Decoders] in
/-- The parts of a name the reader takes. -/
theorem safeRead_parts {name : String} {data : Bytes} (read : safeRead bundle name = .ok data) :
    pathParts name ≠ [] := by
  obtain ⟨_, safe, _⟩ := bind_ok.mp read
  exact (require_ok.mp safe).2.1

/-- Among the files of an accepted bundle, those stage a reserved path whose name is another text than its
normal form and whose normal form the reader would refuse. -/
theorem accepted_reserved (accepted : bundleFor config host bundle request = .ok (manifest, env, files))
    (trusted : List String) :
    (∀ file ∈ env.files, ¬ StagedReserved trusted file.1) ↔
      ∀ file ∈ env.files, asPosix file.1 ≠ file.1 →
        asPosix file.1 ∉ fixedNames ∧ reservedFile (asPosix file.1) = false := by
  obtain ⟨raw, target, rawEnv, accepts⟩ := bundleFor_ok.mp accepted
  refine forall₂_congr fun file member => ?_
  obtain ⟨data, read, -⟩ := addFiles_ok accepts.added file member
  obtain ⟨fresh, free⟩ := (addFiles_names accepts.added).1 file member
  rw [stagedReserved_iff (safeRead_parts read), not_or, Bool.not_eq_true]
  refine ⟨fun clear _ => clear, fun clear => ?_⟩
  by_cases same : asPosix file.1 = file.1
  · rw [same]
    exact ⟨fresh, free⟩
  · exact clear same

end Reading

/-! ### Reading back what was written -/

/-- The items in the order of their keys. -/
def sortedItems {α : Type} (items : List (String × α)) : List (String × α) :=
  items.insertionSort fun x y => x.1 ≤ y.1

theorem sortedItems_perm {α : Type} (items : List (String × α)) : (sortedItems items).Perm items :=
  List.perm_insertionSort _ _

/-- The environment as its sorted text gives it back. -/
def Environment.sorted (env : Environment) : Environment where
  image := env.image
  checkerVersions := sortedItems env.checkerVersions
  files := sortedItems env.files
  binaries := sortedItems env.binaries

theorem sortKeys_obj (fields : List (String × Json)) :
    Json.sortKeys (.obj fields) = .obj (sortedItems (Json.sortFields fields)) := by
  rw [Json.sortKeys, sortedItems]

theorem sortKeys_str (text : String) : Json.sortKeys (.str text) = .str text := by
  simp [Json.sortKeys]

theorem sortKeys_texts (items : List (String × String)) :
    Json.sortKeys (.obj (items.map fun item => (item.1, .str item.2))) =
      .obj ((sortedItems items).map fun item => (item.1, .str item.2)) := by
  rw [sortKeys_obj, Json.sortFields_eq_map, List.map_map, sortedItems, sortedItems,
    List.map_insertionSort (fun x y : String × String => x.1 ≤ y.1) (fun x y => x.1 ≤ y.1)
      (fun item => (item.1, Json.str item.2)) items fun _ _ _ _ => Iff.rfl]
  rfl

theorem named_sorted {fields : List (String × Json)} {names : List String}
    (all : named fields names = true) : named (sortedItems (Json.sortFields fields)) names = true := by
  refine decide_eq_true (((sortedItems_perm _).map Prod.fst).trans ?_)
  rw [Json.sortFields_eq_map, List.map_map]
  exact of_decide_eq_true all

theorem get_sorted {fields : List (String × Json)} (distinct : (fields.map Prod.fst).Nodup)
    (key : String) : Dict.get (sortedItems (Json.sortFields fields)) key =
      (Dict.get fields key).map Json.sortKeys := by
  have keys : ((Json.sortFields fields).map Prod.fst).Nodup := by
    rwa [Json.sortFields_eq_map, List.map_map]
  rw [← Json.get_sortFields, Dict.get_perm (sortedItems_perm _).symm keys]

theorem asSha256_of {digest : Digest} (hex : isSha256 digest = true) :
    asSha256 (.str digest) = some digest := by
  simp [asSha256, asText, hex]

theorem asMap_texts {read : Json → Option String} {items : List (String × String)}
    (reads : ∀ item ∈ items, read (.str item.2) = some item.2) :
    asMap read (.obj (items.map fun item => (item.1, .str item.2))) = some items := by
  show (items.map fun item => (item.1, Json.str item.2)).mapM _ = some items
  induction items with
  | nil => rfl
  | cons item items ih =>
    rw [List.map_cons, List.mapM_cons]
    simp only [reads item List.mem_cons_self,
      ih fun other member => reads other (List.mem_cons_of_mem _ member)]
    rfl

theorem asMap_digests {items : List (String × Digest)} (hex : ∀ item ∈ items, isSha256 item.2 = true) :
    asMap asSha256 (Json.sortKeys (.obj (items.map fun item => (item.1, .str item.2)))) =
      some (sortedItems items) := by
  rw [sortKeys_texts]
  exact asMap_texts fun item member => asSha256_of (hex item ((sortedItems_perm items).mem_iff.mp member))

/-- A written environment is read back in the order of its keys. -/
theorem environment_reads {env : Environment} (valid : env.valid = true) :
    Environment.validate (Json.sortKeys env.dump) = some env.sorted := by
  simp only [Environment.valid, Bool.and_eq_true, List.all_eq_true] at valid
  obtain ⟨⟨image, files⟩, binaries⟩ := valid
  have readImage : asImageDigest (.str env.image) = some env.image := by
    simp [asImageDigest, asText, image]
  have readVersions : asMap asText (Json.sortKeys
      (.obj (env.checkerVersions.map fun item => (item.1, .str item.2)))) =
      some (sortedItems env.checkerVersions) := by
    rw [sortKeys_texts]
    exact asMap_texts fun _ _ => rfl
  have distinct : (["image", "checker_versions", "files", "binaries"] : List String).Nodup := by decide
  rw [Environment.dump, sortKeys_obj]
  simp only [Environment.validate, asFields, field, Option.bind_eq_bind, Option.bind_some]
  rw [named_sorted (by simp [named]), get_sorted, get_sorted, get_sorted, get_sorted]
  · simp [Dict.get, readVersions, asMap_digests files, asMap_digests binaries, sortKeys_str, readImage,
      Environment.sorted, guard]
  all_goals exact distinct

theorem asList_texts (texts : List String) :
    asList asText (Json.sortKeys (.arr (texts.map .str))) = some texts := by
  rw [Json.sortKeys, Json.sortItems_eq_map, List.map_map]
  show (texts.map (Json.sortKeys ∘ Json.str)).mapM asText = some texts
  induction texts with
  | nil => rfl
  | cons text texts ih => simp [asText, Json.sortKeys, ih]

theorem manifest_reads {manifest : Manifest} (valid : manifest.valid = true) :
    Manifest.validate (Json.sortKeys manifest.dump) = some manifest := by
  simp only [Manifest.valid, Bool.and_eq_true, decide_eq_true_eq] at valid
  obtain ⟨⟨⟨⟨target, challenge⟩, environment⟩, least⟩, most⟩ := valid
  have distinct : (["protocol", "problem_revision_id", "target_digest", "challenge_sha256",
    "environment_digest", "theorem_names"] : List String).Nodup := by decide
  rw [Manifest.dump, sortKeys_obj]
  simp only [Manifest.validate, asFields, field, Option.bind_eq_bind, Option.bind_some]
  rw [named_sorted (by simp [named]), get_sorted, get_sorted, get_sorted, get_sorted, get_sorted,
    get_sorted]
  · simp [Dict.get, asList_texts, sortKeys_str, asText, asSha256_of target, asSha256_of challenge,
      asSha256_of environment, least, most, guard]
  all_goals exact distinct

end PhysHarness
