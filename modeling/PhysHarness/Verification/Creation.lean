import PhysHarness.Verification.Comparator
import PhysHarness.Verification.Prepared

/-!
# Which bundles are accepted

A bundle that `create_bundle` writes is refused by its own reader in two ways: a project file is named
`resources.json`, which only the reader reserves, or one of the two files the writer composes has grown past
the size the reader takes. The reader in turn lets a reserved path through in another spelling.

## Main result

`bundles_iff`: both conditions, for every bundle.
-/
namespace PhysHarness

open Outcome

/-! ### Names the writer takes -/

theorem projectPath_ok {name : String} {parts : List String} (taken : projectPath name = .ok parts) :
    parts = pathParts name ∧ name.toList.head? ≠ some '/' ∧ asPosix name = name ∧ ".." ∉ parts ∧
      ∃ first rest, parts = first :: rest ∧ first ∉ reservedRoots := by
  simp only [projectPath, bind_ok, require_ok, orThrow_ok, pure_ok] at taken
  obtain ⟨-, ⟨-, relative, same, -, noParent⟩, first, head, -, free, rfl⟩ := taken
  obtain ⟨rest, split⟩ := List.head?_eq_some_iff.mp head
  exact ⟨rfl, relative, same, noParent, first, rest, split, free⟩

/-- Of the names the reader refuses the writer takes one. -/
theorem project_reserved {name : String} {parts : List String} (taken : projectPath name = .ok parts) :
    name ∉ fixedNames ∧ (reservedFile name = true ↔ name = "resources.json") := by
  obtain ⟨rfl, -, same, -, first, rest, split, free⟩ := projectPath_ok taken
  have some : pathParts name ≠ [] := by rw [split]; exact List.cons_ne_nil _ _
  have root : ∀ reserved ∈ reservedNames, name = reserved → reserved ∉ reservedRoots := by
    rintro reserved listed rfl
    rw [reservedNames_parts name listed] at split
    obtain ⟨rfl, -⟩ := List.cons.inj split
    exact free
  have outside : name.toList.take 6 ≠ ".lake/".toList := by
    intro starts
    rw [← same] at starts
    obtain ⟨inner, -, parts⟩ := (inside_lake some).mpr starts
    obtain ⟨rfl, -⟩ := List.cons.inj (split.symm.trans parts)
    exact free (by decide)
  constructor
  · intro fixed
    have listed : name ∈ reservedNames ∧ name ∈ reservedRoots := by
      simp only [fixedNames, List.mem_cons, List.not_mem_nil, or_false] at fixed
      rcases fixed with rfl | rfl | rfl <;> decide
    exact root name listed.1 rfl listed.2
  · rw [reservedFile, Bool.or_eq_true, decide_eq_true_eq, decide_eq_true_eq]
    constructor
    · rintro (listed | starts)
      · by_contra other
        have both : name ∈ reservedNames ∧ name ∈ reservedRoots := by
          simp only [List.mem_cons, List.not_mem_nil, or_false] at listed
          rcases listed with rfl | rfl | rfl | rfl | rfl <;> first | decide | exact absurd rfl other
        exact root name both.1 rfl both.2
      · exact absurd starts outside
    · rintro rfl
      exact .inl (by decide)

theorem checkProjectFiles_ok {files : List (String × Bytes)} (checked : checkProjectFiles files = .ok ()) :
    ∀ file ∈ files, (∃ parts, projectPath file.1 = .ok parts) ∧ file.2.length ≤ maxFile := by
  induction files with
  | nil => exact nofun
  | cons file files ih =>
    obtain ⟨parts, path, checked⟩ := bind_ok.mp checked
    obtain ⟨_, small, checked⟩ := bind_ok.mp checked
    exact List.forall_mem_cons.mpr ⟨⟨⟨parts, path⟩, require_ok.mp small⟩, ih checked⟩

/-! ### The written directory -/

variable {disk : Disk} {tree : FileTree}

theorem writeFile_ok {parts : List String} {data : Bytes} {after : FileTree}
    (written : writeFile disk tree parts data = .ok after) :
    after = tree ++ [(parts, data)] ∧ parts ∉ tree.map Prod.fst := by
  obtain ⟨_, fresh, written⟩ := bind_ok.mp written
  refine ⟨?_, fun known => ?_⟩
  · split at written
    · cases written
    · exact (pure_ok.mp written).symm
  · obtain ⟨file, listed, rfl⟩ := List.mem_map.mp known
    exact (require_ok.mp fresh file listed).1 (List.prefix_refl _)

/-- Every file lies under the parts of its name, each path once. -/
theorem writeFiles_ok {files : List (String × Bytes)} {after : FileTree}
    (written : writeFiles disk tree files = .ok after) (distinct : (tree.map Prod.fst).Nodup) :
    after = tree ++ files.map (fun file => (pathParts file.1, file.2)) ∧
      (after.map Prod.fst).Nodup := by
  induction files generalizing tree with
  | nil =>
    obtain rfl := pure_ok.mp written
    exact ⟨(List.append_nil _).symm, distinct⟩
  | cons file files ih =>
    obtain ⟨next, one, written⟩ := bind_ok.mp written
    obtain ⟨rfl, fresh⟩ := writeFile_ok one
    obtain ⟨rfl, whole⟩ := ih written (by
      rw [List.map_append, List.nodup_append]
      refine ⟨distinct, List.nodup_singleton _, ?_⟩
      rintro other there last same rfl
      obtain rfl : other = pathParts file.1 := List.mem_singleton.mp same
      exact fresh there)
    exact ⟨by rw [List.append_assoc]; rfl, whole⟩

theorem tree_unlinked (path : List String) : isLink (tree.bundle.entry path) = false := by
  show isLink (tree.entry path) = false
  rw [FileTree.entry]
  split
  · rfl
  · split <;> rfl

/-- Of a written file the reader asks its size. -/
theorem safeRead_tree {name : String} {data other : Bytes}
    (safe : name.toList.head? ≠ some '/' ∧ pathParts name ≠ [] ∧ ".." ∉ pathParts name)
    (found : Dict.get tree (pathParts name) = some data) :
    safeRead tree.bundle name = .ok other ↔ data = other ∧ data.length ≤ maxFile := by
  have entry : tree.bundle.entry (pathParts name) = some (.file data) := by
    show tree.entry (pathParts name) = _
    rw [FileTree.entry, found]
  have unlinked : (pathParts name).inits.all
      (fun path => path = [] ∨ isLink (tree.bundle.entry path) = false) = true :=
    List.all_eq_true.mpr fun path _ => decide_eq_true (.inr (tree_unlinked path))
  rw [safeRead, require_then safe, require_then unlinked, entry]
  constructor
  · intro read
    obtain ⟨_, small, same⟩ := bind_ok.mp read
    exact ⟨pure_ok.mp same, require_ok.mp small⟩
  · rintro ⟨rfl, small⟩
    exact require_then small _

theorem fixed_safe : ∀ name ∈ fixedNames,
    name.toList.head? ≠ some '/' ∧ pathParts name ≠ [] ∧ ".." ∉ pathParts name := by decide

/-! ### Its own pins -/

section

variable [ByteHash] [Decoders]

/-- A configuration and a request that pin the bundle: its digests, its image and its target, beside the
execution identity that is the host's own. -/
structure OwnPins (config : ComparatorConfig) (host : HostFiles) (request : RequestPins)
    (manifest : Manifest) (image manifestSha : Digest) : Prop where
  resources : config.resources.sha256 = config.qualification.resourceProfileSha256 ∧
    config.resourceProfileSourceSha256 = config.qualification.resourceProfileSourceSha256
  policy : host.policyDigest = config.qualification.resourcePolicySha256
  driver : config.qualification.driverSha256 = host.driverDigest
  launcher : config.qualification.launcherSha256 = host.launcherDigest
  seccomp : config.qualification.seccompSha256 = seccompDigest
  image : image = config.qualification.imageDigest
  manifestDigest : manifestSha = config.manifestSha256
  selected : ∀ theoremName ∈ request.targetTheorem, manifest.theoremNames = [theoremName]
  matching : manifest.problemRevisionId = request.problemRevisionId ∧
    manifest.targetDigest = request.targetDigest ∧
    manifest.challengeSha256 = request.challengeSha256 ∧
    manifest.environmentDigest = request.environmentDigest

/-- The values of the two files that a bundle composes: texts, lists of texts and dictionaries of texts. -/
def isRecord : Json → Bool
  | .obj fields => fields.all fun field =>
    match field.2 with
    | .str _ => true
    | .arr items => items.all fun item => (asText item).isSome
    | .obj inner => inner.all fun item => (asText item.2).isSome
    | _ => false
  | _ => false

/-- The JSON reader reads the canonical text of a record as the record with sorted keys. -/
def ReadsRecords : Prop :=
  ∀ value : Json, isRecord value = true → Decoders.read (bundleJson value) = some (Json.sortKeys value)

omit [ByteHash] [Decoders] in
theorem environment_record (env : Environment) : isRecord env.dump = true := by
  simp [isRecord, Environment.dump, asText]

omit [ByteHash] [Decoders] in
theorem manifest_record (manifest : Manifest) : isRecord manifest.dump = true := by
  simp [isRecord, Manifest.dump, asText]

variable {config : ComparatorConfig} {host : HostFiles} {request : RequestPins} {input : BundleInput}
  {sha : Digest}

/-- A directory with the composed files and the project files is accepted under its own pins when the
composed files are small enough and the reader takes every name. -/
theorem tree_accepted (reads : ReadsRecords)
    (pins : OwnPins config host request input.manifest input.imageDigest
      (ByteHash.sha256 input.manifestBytes))
    (valid : input.environment.valid = true ∧ input.manifest.valid = true)
    (configured : lakeConfigured (input.projectFiles.map Prod.fst))
    (binaries : ∀ name ∈ checkerBinaries, name ∈ input.binaries.map Prod.fst)
    (versions : pinned input.checkerVersions "lean" = true ∧
      pinned input.checkerVersions "comparator" = true)
    (fixed : safeRead tree.bundle "Challenge.lean" = .ok input.challenge ∧
      safeRead tree.bundle "environment.json" = .ok input.environmentBytes ∧
      safeRead tree.bundle "manifest.json" = .ok input.manifestBytes)
    (project : ∀ file ∈ input.projectFiles, safeRead tree.bundle file.1 = .ok file.2 ∧
      file.1 ∉ fixedNames ∧ reservedFile file.1 = false) :
    ∃ files, bundleFor config host tree.bundle request =
      .ok (input.manifest, input.environment.sorted, files) := by
  have order := sortedItems_perm input.environment.files
  have names : input.environment.files.map Prod.fst = input.projectFiles.map Prod.fst := by
    simp [BundleInput.environment]
  have each : ∀ pin ∈ sortedItems input.environment.files, ∃ file ∈ input.projectFiles,
      pin = (file.1, ByteHash.sha256 file.2) := by
    intro pin member
    obtain ⟨file, listed, rfl⟩ := List.mem_map.mp (order.mem_iff.mp member)
    exact ⟨file, listed, rfl⟩
  obtain ⟨files, added⟩ := @addFiles_of _ tree.bundle [("Challenge.lean", input.challenge),
      ("environment.json", input.environmentBytes), ("manifest.json", input.manifestBytes)]
    (sortedItems input.environment.files)
    (by rw [(order.map Prod.fst).nodup_iff, names]; exact input.filesDistinct)
    (fun pin member => by
      obtain ⟨file, listed, rfl⟩ := each pin member
      exact (project file listed).2)
    (fun pin member => by
      obtain ⟨file, listed, rfl⟩ := each pin member
      exact ⟨file.2, (project file listed).1, rfl⟩)
  refine ⟨files, bundleFor_ok.mpr ⟨_, _, _, {
    resources := pins.resources
    policy := pins.policy
    directory := ⟨rfl, rfl⟩
    readManifest := fixed.2.2
    manifestDigest := pins.manifestDigest
    manifestValid := by
      rw [BundleInput.manifestBytes, reads _ (manifest_record _), Option.bind_some,
        manifest_reads valid.2]
    selected := pins.selected
    matching := pins.matching
    readTarget := fixed.1
    readEnvironment := fixed.2.1
    digests := ⟨pins.matching.2.2.1, pins.matching.2.2.2⟩
    environmentValid := by
      rw [BundleInput.environmentBytes, reads _ (environment_record _), Option.bind_some,
        environment_reads valid.1]
    image := pins.image
    driver := pins.driver
    launcher := pins.launcher
    seccomp := pins.seccomp
    versions := ?_
    binaries := fun name listed =>
      ((sortedItems_perm input.binaries).map Prod.fst).mem_iff.mpr (binaries name listed)
    added
    configured := ?_ }⟩⟩
  · have same : ∀ name, pinned (sortedItems input.checkerVersions) name =
        pinned input.checkerVersions name := fun name => by
      rw [pinned, pinned, Dict.get_perm (sortedItems_perm _).symm input.versionsDistinct]
    exact ⟨(same _).trans versions.1, (same _).trans versions.2⟩
  · rw [(addFiles_names added).2]
    have there : ∀ name ∈ input.projectFiles.map Prod.fst,
        name ∈ (sortedItems input.environment.files).map Prod.fst := fun name listed =>
      (order.map Prod.fst).mem_iff.mpr (names ▸ listed)
    exact configured.imp (fun toml => List.mem_append_right _ (there _ toml))
      fun lean => List.mem_append_right _ (there _ lean)

/-! ### Bundles of the writer -/

/-- What `create_bundle` has checked and written. -/
structure Created (disk : Disk) (input : BundleInput) (sha : Digest) (tree : FileTree) : Prop where
  project : ∀ file ∈ input.projectFiles,
    (∃ parts, projectPath file.1 = .ok parts) ∧ file.2.length ≤ maxFile
  configured : lakeConfigured (input.projectFiles.map Prod.fst)
  binaries : ∀ name ∈ checkerBinaries, name ∈ input.binaries.map Prod.fst
  versions : pinned input.checkerVersions "lean" = true ∧
    pinned input.checkerVersions "comparator" = true
  challenge : input.challenge.length ≤ maxFile
  valid : input.environment.valid = true ∧ input.manifest.valid = true
  written : writeFiles disk [] input.files = .ok tree
  sha : sha = ByteHash.sha256 input.manifestBytes

omit [Decoders] in
theorem createBundle_ok (created : createBundle disk input = .ok (sha, tree)) :
    Created disk input sha tree := by
  obtain ⟨_, _, created⟩ := bind_ok.mp created
  obtain ⟨_, project, created⟩ := bind_ok.mp created
  obtain ⟨_, configured, created⟩ := bind_ok.mp created
  obtain ⟨_, binaries, created⟩ := bind_ok.mp created
  obtain ⟨_, versions, created⟩ := bind_ok.mp created
  obtain ⟨_, challenge, created⟩ := bind_ok.mp created
  obtain ⟨_, environment, created⟩ := bind_ok.mp created
  obtain ⟨_, manifest, created⟩ := bind_ok.mp created
  split at created
  · cases created
  obtain ⟨tree', written, same⟩ := bind_ok.mp created
  obtain ⟨rfl, rfl⟩ := Prod.mk.inj (pure_ok.mp same)
  exact ⟨checkProjectFiles_ok project, require_ok.mp configured, require_ok.mp binaries,
    require_ok.mp versions, require_ok.mp challenge, ⟨require_ok.mp environment, require_ok.mp manifest⟩,
    written, rfl⟩

omit [Decoders] in
theorem Created.found (created : Created disk input sha tree) {file : String × Bytes}
    (member : file ∈ input.files) : Dict.get tree (pathParts file.1) = some file.2 := by
  obtain ⟨rfl, distinct⟩ := writeFiles_ok created.written List.nodup_nil
  refine (Dict.get_eq_some distinct).mpr ?_
  rw [List.nil_append]
  exact List.mem_map.mpr ⟨file, member, rfl⟩

omit [Decoders] in
/-- A project file is read back. -/
theorem Created.readProject (created : Created disk input sha tree) {file : String × Bytes}
    (member : file ∈ input.projectFiles) : safeRead tree.bundle file.1 = .ok file.2 := by
  obtain ⟨⟨parts, path⟩, small⟩ := created.project file member
  obtain ⟨rfl, relative, -, noParent, first, rest, split, -⟩ := projectPath_ok path
  have some : pathParts file.1 ≠ [] := by rw [split]; exact List.cons_ne_nil _ _
  exact (safeRead_tree ⟨relative, some, noParent⟩
    (created.found (List.mem_append_left _ member))).mpr ⟨rfl, small⟩

omit [Decoders] in
/-- One of the three files beside the project is read back when it is small enough. -/
theorem Created.readFixed (created : Created disk input sha tree) {name : String} {data other : Bytes}
    (fixed : name ∈ fixedNames) (member : (name, data) ∈ input.files) :
    safeRead tree.bundle name = .ok other ↔ data = other ∧ data.length ≤ maxFile := by
  have found := created.found member
  exact safeRead_tree (fixed_safe name fixed) found

omit [Decoders] in
theorem Created.readChallenge (created : Created disk input sha tree) :
    safeRead tree.bundle "Challenge.lean" = .ok input.challenge :=
  (created.readFixed (by decide) (List.mem_append_right _ (by simp))).mpr ⟨rfl, created.challenge⟩

omit [Decoders] in
theorem Created.readEnvironment (created : Created disk input sha tree) {other : Bytes} :
    safeRead tree.bundle "environment.json" = .ok other ↔
      input.environmentBytes = other ∧ input.environmentBytes.length ≤ maxFile :=
  created.readFixed (by decide) (List.mem_append_right _ (by simp))

omit [Decoders] in
theorem Created.readManifest (created : Created disk input sha tree) {other : Bytes} :
    safeRead tree.bundle "manifest.json" = .ok other ↔
      input.manifestBytes = other ∧ input.manifestBytes.length ≤ maxFile :=
  created.readFixed (by decide) (List.mem_append_right _ (by simp))

/-- **A written bundle is accepted under its own pins** exactly when no project file is named
`resources.json` and the composed files are of a size the reader takes. -/
theorem created_accepted (reads : ReadsRecords) (created : Created disk input sha tree)
    (pins : OwnPins config host request input.manifest input.imageDigest sha) :
    (∃ result, bundleFor config host tree.bundle request = .ok result) ↔
      "resources.json" ∉ input.projectFiles.map Prod.fst ∧
        input.environmentBytes.length ≤ maxFile ∧ input.manifestBytes.length ≤ maxFile := by
  constructor
  · rintro ⟨⟨manifest, env, files⟩, accepted⟩
    obtain ⟨raw, target, rawEnv, accepts⟩ := bundleFor_ok.mp accepted
    obtain ⟨rfl, envSmall⟩ := created.readEnvironment.mp accepts.readEnvironment
    obtain ⟨rfl, manifestSmall⟩ := created.readManifest.mp accepts.readManifest
    refine ⟨fun named => ?_, envSmall, manifestSmall⟩
    have valid := accepts.environmentValid
    rw [BundleInput.environmentBytes, reads _ (environment_record _), Option.bind_some,
      environment_reads created.valid.1] at valid
    obtain rfl := Option.some.inj valid
    obtain ⟨file, listed, same⟩ := List.mem_map.mp named
    have pin : (file.1, ByteHash.sha256 file.2) ∈ input.environment.sorted.files :=
      (sortedItems_perm _).mem_iff.mpr (List.mem_map.mpr ⟨file, listed, rfl⟩)
    have free := ((addFiles_names accepts.added).1 _ pin).2
    rw [same] at free
    exact absurd free (by decide)
  · rintro ⟨unnamed, envSmall, manifestSmall⟩
    obtain ⟨files, accepted⟩ := tree_accepted reads (created.sha ▸ pins) created.valid created.configured
      created.binaries created.versions
      ⟨created.readChallenge, created.readEnvironment.mpr ⟨rfl, envSmall⟩,
        created.readManifest.mpr ⟨rfl, manifestSmall⟩⟩
      fun file member => by
        obtain ⟨⟨parts, path⟩, -⟩ := created.project file member
        obtain ⟨fresh, reserved⟩ := project_reserved path
        refine ⟨created.readProject member, fresh, ?_⟩
        rw [← Bool.not_eq_true, reserved]
        rintro same
        exact unnamed (same ▸ List.mem_map_of_mem member)
    exact ⟨_, accepted⟩

/-! ### Bundles of a stored revision -/

omit [ByteHash] [Decoders] in
theorem collectFiles_names {project : BundleDirectory} {names : List String} {total : Nat}
    {files : List (String × Bytes)} (collected : collectFiles project names total = .ok files) :
    files.map Prod.fst = names := by
  induction names generalizing total files with
  | nil =>
    obtain rfl := pure_ok.mp collected
    rfl
  | cons name names ih =>
    obtain ⟨_, _, collected⟩ := bind_ok.mp collected
    obtain ⟨data, _, collected⟩ := bind_ok.mp collected
    obtain ⟨_, _, collected⟩ := bind_ok.mp collected
    obtain ⟨rest, later, same⟩ := bind_ok.mp collected
    obtain rfl := pure_ok.mp same
    rw [List.map_cons, ih later]

/-- The manifest of a revision. -/
def ProblemRevision.manifest (problem : ProblemRevision) : Manifest where
  problemRevisionId := problem.id
  targetDigest := problem.targetDigest
  challengeSha256 := ByteHash.sha256 (Bytes.utf8 problem.formalStatement)
  environmentDigest := problem.environmentDigest
  theoremNames := [problem.targetTheorem]

/-- A bundle that `create_problem_bundle` hands out has been read once: its files have a size the reader
takes. -/
theorem prepared_created {problem : ProblemRevision} {environmentBytes : Bytes}
    {project : BundleDirectory} {env : Environment}
    (reads : (Decoders.read environmentBytes).bind Environment.validate = some env)
    (prepared : createProblemBundle disk problem environmentBytes project = .ok (sha, tree)) :
    ∃ input, Created disk input sha tree ∧ input.projectFiles.map Prod.fst = env.files.map Prod.fst ∧
      input.imageDigest = env.image ∧ input.manifest = problem.manifest ∧
      input.environmentBytes.length ≤ maxFile ∧ input.manifestBytes.length ≤ maxFile := by
  obtain ⟨_, _, prepared⟩ := bind_ok.mp prepared
  obtain ⟨_, _, prepared⟩ := bind_ok.mp prepared
  obtain ⟨_, _, prepared⟩ := bind_ok.mp prepared
  obtain ⟨_, pinnedDigest, prepared⟩ := bind_ok.mp prepared
  obtain ⟨env', decoded, prepared⟩ := bind_ok.mp prepared
  obtain rfl : env' = env := Option.some.inj ((orThrow_ok.mp decoded).symm.trans reads)
  obtain ⟨_, _, prepared⟩ := bind_ok.mp prepared
  obtain ⟨files, collected, prepared⟩ := bind_ok.mp prepared
  obtain ⟨_, _, prepared⟩ := bind_ok.mp prepared
  obtain ⟨input, made, prepared⟩ := bind_ok.mp prepared
  obtain ⟨⟨sha', tree'⟩, written, prepared⟩ := bind_ok.mp prepared
  obtain ⟨_, checked, same⟩ := bind_ok.mp prepared
  obtain ⟨rfl, rfl⟩ := Prod.mk.inj (pure_ok.mp same)
  have created := createBundle_ok written
  have names : files.map Prod.fst = env'.files.map Prod.fst := by
    obtain ⟨_, _, collected⟩ := bind_ok.mp collected
    obtain ⟨_, _, collected⟩ := bind_ok.mp collected
    obtain ⟨result, all, collected⟩ := bind_ok.mp collected
    obtain ⟨_, _, same⟩ := bind_ok.mp collected
    obtain rfl := pure_ok.mp same
    exact collectFiles_names all
  obtain ⟨raw, readManifest, checked⟩ := bind_ok.mp checked
  obtain ⟨_, _, checked⟩ := bind_ok.mp checked
  obtain ⟨environment, readEnvironment, checked⟩ := bind_ok.mp checked
  obtain ⟨_, _, checked⟩ := bind_ok.mp checked
  obtain ⟨_, _, checked⟩ := bind_ok.mp checked
  obtain ⟨-, -, -, -, -, sameBytes, -, -, -⟩ := require_ok.mp checked
  have manifestSmall := (created.readManifest.mp readManifest).2
  obtain ⟨written', envSmall⟩ := created.readEnvironment.mp readEnvironment
  have digest : ByteHash.sha256 input.environmentBytes = problem.environmentDigest := by
    rw [written', sameBytes]
    exact require_ok.mp pinnedDigest
  rw [orThrow_ok, revisionInput] at made
  split at made
  next =>
    obtain rfl := Option.some.inj made
    refine ⟨_, created, names, rfl, ?_, envSmall, manifestSmall⟩
    simp only [BundleInput.manifest, digest, ProblemRevision.manifest, BundleInput.challenge]
  next => cases made

end

/-! ### Two bundles -/

namespace Scenario

/-- A reader of lines: the newline at the end of the text is not read. -/
@[reducible] def lineScanner : Decoders :=
  { scanner with
    read := fun data => data.text.bind fun text =>
      @Json.loads .exact
        (if text.toList.getLast? = some '\n' then .ofList text.toList.dropLast else text) }

attribute [local instance] lengthHash lineScanner ByteHash.content

theorem lines_read : ReadsRecords := by
  intro value _
  show (Bytes.utf8 (Json.asciiCanonical value ++ "\n")).text.bind _ = _
  have ended : (Json.asciiCanonical value ++ "\n").toList =
      (Json.asciiCanonical value).toList ++ ['\n'] := String.toList_append
  rw [Bytes.text_utf8, Option.bind_some, ended, List.getLast?_concat, if_pos rfl, List.dropLast_concat,
    String.ofList_toList, @Json.loads_asciiCanonical .exact]

/-- The bundle of the sample with these project files. -/
def bundleInput (files : List (String × Bytes)) (distinct : (files.map Prod.fst).Nodup) :
    BundleInput where
  problemRevisionId := "problem"
  targetDigest := ByteHash.sha256 challenge
  challengeSource := "theorem identity : True := sorry"
  theoremNames := ["identity"]
  imageDigest := checkerEnvironment.image
  checkerVersions := checkerEnvironment.checkerVersions
  binaries := checkerEnvironment.binaries
  projectFiles := files
  versionsDistinct := by decide
  binariesDistinct := by decide
  filesDistinct := distinct

def bundleConfig (input : BundleInput) : ComparatorConfig :=
  { checkerConfig with manifestSha256 := ByteHash.sha256 input.manifestBytes }

def bundleRequest (input : BundleInput) : RequestPins where
  problemRevisionId := input.manifest.problemRevisionId
  targetDigest := input.manifest.targetDigest
  challengeSha256 := input.manifest.challengeSha256
  environmentDigest := input.manifest.environmentDigest
  targetTheorem := some "identity"

variable {files : List (String × Bytes)} {distinct : (files.map Prod.fst).Nodup}

theorem bundle_pins {input : BundleInput} (same : input = bundleInput files distinct) :
    OwnPins (bundleConfig input) checkerHost (bundleRequest input) input.manifest input.imageDigest
      (ByteHash.sha256 input.manifestBytes) where
  resources := ⟨rfl, rfl⟩
  policy := rfl
  driver := rfl
  launcher := rfl
  seccomp := rfl
  image := by rw [same]; rfl
  manifestDigest := rfl
  selected _ member := by
    rw [← Option.some.inj member, same]
    rfl
  matching := ⟨rfl, rfl, rfl, rfl⟩

theorem bundle_valid : (bundleInput files distinct).environment.valid = true ∧
    (bundleInput files distinct).manifest.valid = true := by
  have image : isImageDigest (bundleInput files distinct).environment.image = true :=
    isImageDigest_hex (lengthHash_hex lakefile)
  constructor
  · simp only [Environment.valid, Bool.and_eq_true, List.all_eq_true]
    refine ⟨⟨image, ?_⟩, ?_⟩
    · intro file member
      obtain ⟨source, -, rfl⟩ := List.mem_map.mp member
      exact lengthHash_hex source.2
    · intro binary member
      obtain ⟨name, -, rfl⟩ := List.mem_map.mp member
      exact lengthHash_hex lakefile
  · simp only [Manifest.valid, Bool.and_eq_true, decide_eq_true_eq]
    exact ⟨⟨⟨⟨lengthHash_hex _, lengthHash_hex _⟩, lengthHash_hex _⟩, Nat.le_refl 1⟩, (Nat.le_add_left 1 127)⟩

/-- A disk without the destination. -/
def freshDisk : Disk where
  taken := false
  refuses _ := none

theorem writeFiles_fresh {tree : FileTree} {files : List (String × Bytes)}
    (apart : (tree.map Prod.fst ++ files.map fun file => pathParts file.1).Pairwise
      fun first second => ¬ first <+: second ∧ ¬ second <+: first) :
    writeFiles freshDisk tree files = .ok (tree ++ files.map fun file => (pathParts file.1, file.2)) := by
  induction files generalizing tree with
  | nil => rw [writeFiles, List.map_nil, List.append_nil]; rfl
  | cons file files ih =>
    have first : writeFile freshDisk tree (pathParts file.1) file.2 =
        .ok (tree ++ [(pathParts file.1, file.2)]) := by
      refine require_then (fun other member => ?_) _
      exact (List.pairwise_append.mp apart).2.2 _ (List.mem_map_of_mem member) _ List.mem_cons_self
    have rest := @ih (tree ++ [(pathParts file.1, file.2)]) (by
      rw [List.map_append, List.append_assoc]
      exact apart)
    rw [List.append_assoc] at rest
    rw [writeFiles, ok_then first, rest]
    rfl

/-- A project with a file that only the reader reserves. -/
def resourceFiles : List (String × Bytes) := [("lakefile.toml", lakefile), ("resources.json", [])]

def resourceInput : BundleInput := bundleInput resourceFiles (by decide)

def resourceTree : FileTree := resourceInput.files.map fun file => (pathParts file.1, file.2)

theorem resource_created : createBundle freshDisk resourceInput =
    .ok (ByteHash.sha256 resourceInput.manifestBytes, resourceTree) := by
  have valid := @bundle_valid resourceFiles (by decide)
  have checked : checkProjectFiles resourceInput.projectFiles = .ok () := by decide
  have paths : (resourceInput.files.map fun file => pathParts file.1) =
      [["lakefile.toml"], ["resources.json"], ["Challenge.lean"], ["environment.json"],
        ["manifest.json"]] := by
    have names : resourceInput.files.map Prod.fst =
        ["lakefile.toml", "resources.json", "Challenge.lean", "environment.json", "manifest.json"] := rfl
    have each : (resourceInput.files.map fun file => pathParts file.1) =
        (resourceInput.files.map Prod.fst).map pathParts := (List.map_map).symm
    rw [each, names]
    decide
  have written : writeFiles freshDisk [] resourceInput.files = .ok resourceTree :=
    writeFiles_fresh (by rw [List.map_nil, List.nil_append, paths]; decide)
  refine bind_ok.mpr ⟨(), require_ok.mpr rfl, ?_⟩
  refine bind_ok.mpr ⟨(), checked, ?_⟩
  refine bind_ok.mpr ⟨(), require_ok.mpr (by decide), ?_⟩
  refine bind_ok.mpr ⟨(), require_ok.mpr (by decide), ?_⟩
  refine bind_ok.mpr ⟨(), require_ok.mpr (by decide), ?_⟩
  refine bind_ok.mpr ⟨(), require_ok.mpr (by decide), ?_⟩
  refine bind_ok.mpr ⟨(), require_ok.mpr valid.1, ?_⟩
  refine bind_ok.mpr ⟨(), require_ok.mpr valid.2, ?_⟩
  exact bind_ok.mpr ⟨resourceTree, written, rfl⟩

theorem resource_refused : ¬ ∃ result, bundleFor (bundleConfig resourceInput) checkerHost
    resourceTree.bundle (bundleRequest resourceInput) = .ok result := by
  intro accepted
  have created := createBundle_ok resource_created
  have pins := bundle_pins (show resourceInput = bundleInput resourceFiles (by decide) from rfl)
  have conditions := (created_accepted lines_read created pins).mp accepted
  exact conditions.1 (List.mem_cons_of_mem _ List.mem_cons_self)

/-- An environment with a reserved file in another spelling. -/
def spelledEnvironment : Environment :=
  { checkerEnvironment with
    files := [("lakefile.toml", ByteHash.sha256 lakefile), ("./Solution.lean", ByteHash.sha256 lakefile)] }

def spelledFile : Bytes := Bytes.utf8 (Json.dumps {} (environmentJson spelledEnvironment))

def spelledManifest : Manifest := { checkerManifest with environmentDigest := ByteHash.sha256 spelledFile }

def spelledManifestFile : Bytes := Bytes.utf8 (Json.dumps {} (manifestJson spelledManifest))

def spelledTree : FileTree :=
  [(["lakefile.toml"], lakefile), (["Solution.lean"], lakefile), (["Challenge.lean"], challenge),
    (["environment.json"], spelledFile), (["manifest.json"], spelledManifestFile)]

def spelledConfig : ComparatorConfig :=
  { checkerConfig with manifestSha256 := ByteHash.sha256 spelledManifestFile }

def spelledRequest : RequestPins :=
  { checkRequest.pins with environmentDigest := ByteHash.sha256 spelledFile }

theorem renderFields_last (fields : List (String × Json)) :
    (Json.renderFields {} fields).getLast? = some '\x7d' := by
  induction fields with
  | nil => rfl
  | cons field fields ih =>
    obtain ⟨key, value⟩ := field
    rw [Json.renderFields]
    simp [List.getLast?_cons, List.getLast?_append, ih]

/-- An object has no newline at its end, so its text is read as it is. -/
theorem line_read (field : String × Json) (fields : List (String × Json)) :
    Decoders.read (Bytes.utf8 (Json.dumps {} (.obj (field :: fields)))) =
      some (.obj (field :: fields)) := by
  obtain ⟨key, item⟩ := field
  have ends : (Json.render {} (.obj ((key, item) :: fields))).getLast? ≠ some '\n' := by
    rw [Json.render]
    simp [List.getLast?_cons, List.getLast?_append, renderFields_last fields]
  show (Bytes.utf8 (Json.dumps {} (.obj ((key, item) :: fields)))).text.bind _ = _
  rw [Bytes.text_utf8, Option.bind_some, if_neg (by rwa [Json.dumps, String.toList_ofList]),
    @Json.loads_dumps .exact]

theorem spelledFile_small : spelledFile.length ≤ maxFile := by
  have names : "lean".length = 4 ∧ "4.28.0".length = 6 ∧ "comparator".length = 10 ∧
      "1".length = 1 ∧ "lakefile.toml".length = 13 ∧ "lake".length = 4 ∧
      "./Solution.lean".length = 15 ∧ "lean4export".length = 11 ∧ "landrun".length = 7 := by
    decide
  have image : spelledEnvironment.image = checkerEnvironment.image := by rw [spelledEnvironment]
  rw [spelledFile]
  apply environmentJson_small (image ▸ checkerImage_length)
  · exact ⟨Nat.le_of_ble_eq_true rfl, Nat.le_of_ble_eq_true rfl, Nat.le_of_ble_eq_true rfl⟩
  · have width := lengthHash_length lakefile
    unfold spelledEnvironment checkerEnvironment
    generalize ByteHash.sha256 lakefile = digest at width
    simp only [List.map_cons, List.map_nil, List.forall_mem_cons, width, names]
    simp

theorem spelledManifest_small : spelledManifestFile.length ≤ maxFile := by
  rw [spelledManifestFile]
  apply manifestJson_small rfl
  simp only [spelledManifest, checkerManifest, checkRequest, List.forall_mem_cons, lengthHash_length]
  decide

theorem spelled_read {name : String} {data : Bytes}
    (safe : name.toList.head? ≠ some '/' ∧ pathParts name ≠ [] ∧ ".." ∉ pathParts name)
    (found : Dict.get spelledTree (pathParts name) = some data) (small : data.length ≤ maxFile) :
    safeRead spelledTree.bundle name = .ok data := (safeRead_tree safe found).mpr ⟨rfl, small⟩

theorem spelled_added : addFiles spelledTree.bundle spelledEnvironment.files
    [("Challenge.lean", challenge), ("environment.json", spelledFile),
      ("manifest.json", spelledManifestFile)] =
    .ok [("Challenge.lean", challenge), ("environment.json", spelledFile),
      ("manifest.json", spelledManifestFile), ("lakefile.toml", lakefile),
      ("./Solution.lean", lakefile)] := by
  have lake : safeRead spelledTree.bundle "lakefile.toml" = .ok lakefile :=
    spelled_read (by decide) rfl (by decide)
  have solution : safeRead spelledTree.bundle "./Solution.lean" = .ok lakefile :=
    spelled_read (by decide) rfl (by decide)
  refine bind_ok.mpr ⟨(), require_ok.mpr ⟨by simp, by decide⟩, ?_⟩
  refine bind_ok.mpr ⟨lakefile, lake, bind_ok.mpr ⟨(), require_ok.mpr rfl, ?_⟩⟩
  refine bind_ok.mpr ⟨(), require_ok.mpr ⟨by simp, by decide⟩, ?_⟩
  exact bind_ok.mpr ⟨lakefile, solution, bind_ok.mpr ⟨(), require_ok.mpr rfl, rfl⟩⟩

theorem spelled_found : Dict.get spelledTree (pathParts "environment.json") = some spelledFile ∧
    Dict.get spelledTree (pathParts "manifest.json") = some spelledManifestFile := by
  rw [reservedNames_parts "environment.json" (by decide), reservedNames_parts "manifest.json" (by decide)]
  simp [Dict.get, spelledTree]

theorem spelled_accepts : Accepts spelledConfig checkerHost spelledTree.bundle spelledRequest
    spelledManifest spelledEnvironment
    [("Challenge.lean", challenge), ("environment.json", spelledFile),
      ("manifest.json", spelledManifestFile), ("lakefile.toml", lakefile), ("./Solution.lean", lakefile)]
    spelledManifestFile challenge spelledFile where
  resources := by simp only [spelledConfig, checkerConfig, and_self]
  policy := rfl
  directory := ⟨rfl, rfl⟩
  readManifest := spelled_read (fixed_safe _ (by decide)) spelled_found.2 spelledManifest_small
  manifestDigest := rfl
  manifestValid := by
    rw [spelledManifestFile, manifestJson, line_read, Option.bind_some]
    exact manifest_valid spelledManifest ⟨lengthHash_hex challenge, lengthHash_hex challenge,
      lengthHash_hex spelledFile⟩ (by decide)
  selected _ member := by
    rw [← Option.some.inj member]
    rfl
  matching := ⟨rfl, rfl, rfl, rfl⟩
  readTarget := spelled_read (fixed_safe _ (by decide)) rfl (by decide)
  readEnvironment := spelled_read (fixed_safe _ (by decide)) spelled_found.1 spelledFile_small
  digests := ⟨rfl, rfl⟩
  environmentValid := by
    rw [spelledFile, environmentJson, line_read, Option.bind_some]
    refine environment_valid spelledEnvironment (isImageDigest_hex (lengthHash_hex lakefile)) ?_ ?_
    · intro item member
      simp only [spelledEnvironment, List.mem_cons, List.not_mem_nil, or_false] at member
      rcases member with rfl | rfl <;> exact lengthHash_hex lakefile
    · intro item member
      obtain ⟨name, _, rfl⟩ := List.mem_map.mp member
      exact lengthHash_hex lakefile
  image := rfl
  driver := rfl
  launcher := rfl
  seccomp := rfl
  versions := by decide
  binaries := by decide
  added := spelled_added
  configured := by decide

/-- A file named `./Solution.lean` takes the place of the candidate. -/
theorem spelled_reserved : StagedReserved [] "./Solution.lean" :=
  .inl ⟨"Solution.lean", by decide, by decide⟩

end Scenario

end PhysHarness
