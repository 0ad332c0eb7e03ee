import PhysHarness.Acceptance
import PhysHarness.Execution.Checkpoint
import PhysHarness.Lib.Bytes

/-!
# The trusted bundle of a checker run

A run is pinned: the operator's configuration holds the digests of the manifest, of the resource
profile and of the execution identity, and the bundle on disk has to agree with all of them before a
container starts.
-/
namespace PhysHarness

open Outcome

/-- An exception of the launcher. -/
inductive Raised where
  /-- `ValueError` or `OSError` -/
  | value (message : String)
  /-- `ExecutionFailure` -/
  | execution (code : String) (diagnostics : List (String × Json))
  /-- `RecursionError` -/
  | recursion

/-! ### Readers of one field -/

def asSha256 (value : Json) : Option Digest := do
  let text ← asText value
  guard (isSha256 text = true)
  return text

/-- `ImageDigest` -/
def isImageDigest (text : String) : Bool :=
  text.toList.take 7 = "sha256:".toList && isSha256 (.ofList (text.toList.drop 7))

def asImageDigest (value : Json) : Option Digest := do
  let text ← asText value
  guard (isImageDigest text = true)
  return text

def asBool : Json → Option Bool
  | .bool value => some value
  | _ => none

def asList {α : Type} (read : Json → Option α) (value : Json) : Option (List α) := do
  (← asItems value).mapM read

def asMap {α : Type} (read : Json → Option α) (value : Json) : Option (List (String × α)) := do
  (← asFields value).mapM fun item => do
    return (item.1, ← read item.2)

/-- `versions.get(name)` as a condition. -/
def pinned (versions : List (String × String)) (name : String) : Bool :=
  (Dict.get versions name).any fun version => version ≠ ""

/-! ### Pins -/

structure ResourceProfile where
  memoryBytes : Nat
  cpus : Nat
  comparatorTimeoutSeconds : Nat
  comparatorOutputLimitBytes : Nat
  checkerSlots : Nat
  bounded : (1024 ^ 3 ≤ memoryBytes ∧ memoryBytes ≤ 16 * 1024 ^ 3) ∧ (1 ≤ cpus ∧ cpus ≤ 8) ∧
    (1 ≤ comparatorTimeoutSeconds ∧ comparatorTimeoutSeconds ≤ 1800) ∧
    (4096 ≤ comparatorOutputLimitBytes ∧ comparatorOutputLimitBytes ≤ 2000000) ∧ checkerSlots = 1

def ResourceProfile.dump (profile : ResourceProfile) : Json :=
  .obj [("protocol", .str "physharness-verifier-resources-v1"),
    ("memory_bytes", .int profile.memoryBytes), ("cpus", .int profile.cpus),
    ("comparator_timeout_seconds", .int profile.comparatorTimeoutSeconds),
    ("comparator_output_limit_bytes", .int profile.comparatorOutputLimitBytes),
    ("checker_slots", .int profile.checkerSlots)]

/-- `ExecutionPins` with the qualification report. -/
structure LinuxQualification where
  imageDigest : Digest
  driverSha256 : Digest
  launcherSha256 : Digest
  seccompSha256 : Digest
  resourceProfileSha256 : Digest
  resourceProfileSourceSha256 : Digest
  resourcePolicySha256 : Digest
  independentKernel : Bool
  qualificationReportSha256 : Digest

structure ComparatorConfig where
  manifestSha256 : Digest
  resources : ResourceProfile
  resourceProfileSourceSha256 : Digest
  qualification : LinuxQualification

/-- The digests of the launcher's own files. -/
structure HostFiles where
  driverDigest : Digest
  launcherDigest : Digest
  policyDigest : Digest

def seccompPolicy : Json :=
  .obj [("defaultAction", .str "SCMP_ACT_ALLOW"),
    ("syscalls", .arr [.obj [
      ("names", .arr (["socket", "socketpair", "io_uring_setup", "io_uring_enter",
        "io_uring_register", "ptrace", "process_vm_writev", "mount", "umount2", "bpf",
        "perf_event_open", "keyctl", "add_key", "request_key", "userfaultfd"].map .str)),
      ("action", .str "SCMP_ACT_ERRNO"), ("errnoRet", .int 1)]])]

def protocol : String := "physharness-comparator-v2"

structure Manifest where
  problemRevisionId : Id
  targetDigest : Digest
  challengeSha256 : Digest
  environmentDigest : Digest
  theoremNames : List String

structure Environment where
  image : Digest
  checkerVersions : List (String × String)
  files : List (String × Digest)
  binaries : List (String × Digest)

def Manifest.validate (value : Json) : Option Manifest := do
  let fields ← asFields value
  guard (named fields ["protocol", "problem_revision_id", "target_digest", "challenge_sha256",
    "environment_digest", "theorem_names"])
  guard (Dict.get fields "protocol" = some (.str protocol))
  let theoremNames ← field fields "theorem_names" (asList asText)
  guard (1 ≤ theoremNames.length ∧ theoremNames.length ≤ 128)
  return {
    problemRevisionId := ← field fields "problem_revision_id" asText
    targetDigest := ← field fields "target_digest" asSha256
    challengeSha256 := ← field fields "challenge_sha256" asSha256
    environmentDigest := ← field fields "environment_digest" asSha256
    theoremNames }

def Environment.validate (value : Json) : Option Environment := do
  let fields ← asFields value
  guard (named fields ["image", "checker_versions", "files", "binaries"])
  return {
    image := ← field fields "image" asImageDigest
    checkerVersions := ← field fields "checker_versions" (asMap asText)
    files := ← field fields "files" (asMap asSha256)
    binaries := ← field fields "binaries" (asMap asSha256) }

/-! ### The bundle on disk -/

inductive BundleEntry where
  | file (data : Bytes)
  | symlink
  | directory
  | unreadable (message : String)

/-- The bundle directory; an entry is found by the parts of its path. -/
structure BundleDirectory where
  symlink : Bool
  directory : Bool
  entry : List String → Option BundleEntry

/-- `PurePosixPath(name).parts` of a relative path. -/
def pathParts (name : String) : List String :=
  ((name.toList.splitOn '/').map String.ofList).filter fun part => part ≠ "" ∧ part ≠ "."

def isLink : Option BundleEntry → Bool
  | some .symlink => true
  | _ => false

/-- `safe_read` -/
def safeRead (bundle : BundleDirectory) (name : String) : Except String Bytes := do
  let parts := pathParts name
  require (name.toList.head? ≠ some '/' ∧ parts ≠ [] ∧ ".." ∉ parts) "unsafe bundle path"
  require (parts.inits.all (fun path => path = [] ∨ isLink (bundle.entry path) = false) = true)
    "symlinks are forbidden in trusted bundles"
  match bundle.entry parts with
  | some (.file data) =>
    require (data.length ≤ 16000000) "bundle file missing or oversized"
    return data
  | some (.unreadable message) => throw message
  | _ => throw "bundle file missing or oversized"

/-- A file of the bundle's root. -/
theorem safeRead_file {bundle : BundleDirectory} {name : String} {data : Bytes}
    (parts : pathParts name = [name])
    (plain : name.toList.head? ≠ some '/' ∧ name ≠ "..")
    (found : bundle.entry [name] = some (.file data)) (small : data.length ≤ 16000000) :
    safeRead bundle name = .ok data := by
  have distinct : ".." ≠ name := fun same => plain.2 same.symm
  simp only [safeRead, parts, found]
  simp [require, plain.1, distinct, found, isLink, small, bind, Except.bind, pure, Except.pure]

section Bundles

variable [ByteHash] [Decoders]

def ResourceProfile.sha256 (profile : ResourceProfile) : Digest :=
  ByteHash.sha256 (Bytes.utf8 (Json.canonical profile.dump ++ "\n"))

def seccompDigest : Digest := ByteHash.sha256 (Bytes.utf8 (Json.canonical seccompPolicy))

/-- Names that the launcher writes itself. -/
def reservedFile (name : String) : Bool :=
  name ∈ ["Solution.lean", "request.json", "config.json", "seccomp.json", "resources.json"] ||
    name.toList.take 6 = ".lake/".toList

/-- The environment's files join the three that are always there. -/
def addFiles (bundle : BundleDirectory) :
    List (String × Digest) → List (String × Bytes) → Except String (List (String × Bytes))
  | [], files => return files
  | (name, expected) :: rest, files => do
    require (name ∉ files.map Prod.fst ∧ reservedFile name = false) "reserved project file"
    let data ← safeRead bundle name
    require (ByteHash.sha256 data = expected) s!"trusted file digest mismatch: {name}"
    addFiles bundle rest (files ++ [(name, data)])

/-- `_bundle` -/
def readBundle (config : ComparatorConfig) (host : HostFiles) (bundle : BundleDirectory)
    (request : VerificationRequest) :
    Except String (Manifest × Environment × List (String × Bytes)) := do
  let pins := config.qualification
  require (config.resources.sha256 = pins.resourceProfileSha256 ∧
      config.resourceProfileSourceSha256 = pins.resourceProfileSourceSha256)
    "Resource profile source differs from qualified execution profile"
  require (host.policyDigest = pins.resourcePolicySha256)
    "Resource policy differs from qualified execution policy"
  require (bundle.symlink = false ∧ bundle.directory = true)
    "trusted bundle directory unavailable"
  let raw ← safeRead bundle "manifest.json"
  require (ByteHash.sha256 raw = config.manifestSha256) "pinned manifest digest mismatch"
  let manifest ← orThrow ((Decoders.read raw).bind Manifest.validate) "ValidationError: Manifest"
  require (manifest.theoremNames = [request.targetTheorem])
    "bundle theorem selection differs from the reviewed target theorem"
  require (manifest.problemRevisionId = request.problemRevisionId ∧
      manifest.targetDigest = request.targetDigest ∧
      manifest.challengeSha256 = request.challengeSha256 ∧
      manifest.environmentDigest = request.environmentDigest)
    "request does not match trusted manifest"
  let target ← safeRead bundle "Challenge.lean"
  let rawEnv ← safeRead bundle "environment.json"
  require (ByteHash.sha256 target = request.challengeSha256 ∧
      ByteHash.sha256 rawEnv = request.environmentDigest)
    "target or environment digest mismatch"
  let env ← orThrow ((Decoders.read rawEnv).bind Environment.validate)
    "ValidationError: Environment"
  require (env.image = pins.imageDigest) "image differs from qualified image"
  require (pins.driverSha256 = host.driverDigest) "qualification predates this driver"
  require (pins.launcherSha256 = host.launcherDigest) "qualification predates this host launcher"
  require (pins.seccompSha256 = seccompDigest)
    "qualification does not match this seccomp policy"
  require (pinned env.checkerVersions "lean" = true ∧ pinned env.checkerVersions "comparator" = true)
    "missing pinned checker versions"
  require (∀ name ∈ ["lean", "lake", "comparator", "lean4export", "landrun"],
      name ∈ env.binaries.map Prod.fst) "missing binary pins"
  let files ← addFiles bundle env.files
    [("Challenge.lean", target), ("environment.json", rawEnv), ("manifest.json", raw)]
  require ("lakefile.toml" ∈ files.map Prod.fst ∨ "lakefile.lean" ∈ files.map Prod.fst)
    "trusted Lake configuration missing"
  return (manifest, env, files)

/-- What a bundle has shown when it is accepted. -/
structure PinnedBundle (config : ComparatorConfig) (host : HostFiles) (bundle : BundleDirectory)
    (request : VerificationRequest) (env : Environment) : Prop where
  resources : config.resources.sha256 = config.qualification.resourceProfileSha256 ∧
    config.resourceProfileSourceSha256 = config.qualification.resourceProfileSourceSha256
  policy : host.policyDigest = config.qualification.resourcePolicySha256
  manifest : ∃ raw manifest, safeRead bundle "manifest.json" = .ok raw ∧
    ByteHash.sha256 raw = config.manifestSha256 ∧
    (Decoders.read raw).bind Manifest.validate = some manifest ∧
    manifest.theoremNames = [request.targetTheorem] ∧
    manifest.problemRevisionId = request.problemRevisionId ∧
    manifest.targetDigest = request.targetDigest ∧
    manifest.challengeSha256 = request.challengeSha256 ∧
    manifest.environmentDigest = request.environmentDigest
  challenge : ∃ target, safeRead bundle "Challenge.lean" = .ok target ∧
    ByteHash.sha256 target = request.challengeSha256
  environment : ∃ raw, safeRead bundle "environment.json" = .ok raw ∧
    ByteHash.sha256 raw = request.environmentDigest ∧
    (Decoders.read raw).bind Environment.validate = some env
  files : ∀ file ∈ env.files, ∃ data, safeRead bundle file.1 = .ok data ∧
    ByteHash.sha256 data = file.2
  image : env.image = config.qualification.imageDigest
  driver : host.driverDigest = config.qualification.driverSha256
  launcher : host.launcherDigest = config.qualification.launcherSha256
  seccomp : seccompDigest = config.qualification.seccompSha256

omit [Decoders] in
theorem addFiles_ok {bundle : BundleDirectory} {pins : List (String × Digest)}
    {files all : List (String × Bytes)} (added : addFiles bundle pins files = .ok all) :
    ∀ file ∈ pins, ∃ data, safeRead bundle file.1 = .ok data ∧ ByteHash.sha256 data = file.2 := by
  induction pins generalizing files with
  | nil => exact nofun
  | cons pin pins ih =>
    obtain ⟨_, _, added⟩ := bind_ok.mp added
    obtain ⟨data, read, added⟩ := bind_ok.mp added
    obtain ⟨_, same, added⟩ := bind_ok.mp added
    exact List.forall_mem_cons.mpr ⟨⟨data, read, require_ok.mp same⟩, ih added⟩

theorem readBundle_ok {config : ComparatorConfig} {host : HostFiles} {bundle : BundleDirectory}
    {request : VerificationRequest} {manifest : Manifest} {env : Environment}
    {files : List (String × Bytes)}
    (accepted : readBundle config host bundle request = .ok (manifest, env, files)) :
    PinnedBundle config host bundle request env := by
  obtain ⟨_, resources, accepted⟩ := bind_ok.mp accepted
  obtain ⟨_, policy, accepted⟩ := bind_ok.mp accepted
  obtain ⟨_, _, accepted⟩ := bind_ok.mp accepted
  obtain ⟨raw, readRaw, accepted⟩ := bind_ok.mp accepted
  obtain ⟨_, sameRaw, accepted⟩ := bind_ok.mp accepted
  obtain ⟨decoded, decodedRaw, accepted⟩ := bind_ok.mp accepted
  obtain ⟨_, selected, accepted⟩ := bind_ok.mp accepted
  obtain ⟨_, matched, accepted⟩ := bind_ok.mp accepted
  obtain ⟨target, readTarget, accepted⟩ := bind_ok.mp accepted
  obtain ⟨rawEnv, readEnv, accepted⟩ := bind_ok.mp accepted
  obtain ⟨_, digests, accepted⟩ := bind_ok.mp accepted
  obtain ⟨environment, decodedEnv, accepted⟩ := bind_ok.mp accepted
  obtain ⟨_, image, accepted⟩ := bind_ok.mp accepted
  obtain ⟨_, driver, accepted⟩ := bind_ok.mp accepted
  obtain ⟨_, launcher, accepted⟩ := bind_ok.mp accepted
  obtain ⟨_, seccomp, accepted⟩ := bind_ok.mp accepted
  obtain ⟨_, _, accepted⟩ := bind_ok.mp accepted
  obtain ⟨_, _, accepted⟩ := bind_ok.mp accepted
  obtain ⟨all, added, accepted⟩ := bind_ok.mp accepted
  obtain ⟨_, _, accepted⟩ := bind_ok.mp accepted
  obtain ⟨rfl, rfl, rfl⟩ : decoded = manifest ∧ environment = env ∧ all = files := by
    simpa using pure_ok.mp accepted
  obtain ⟨sameTarget, sameEnv⟩ := require_ok.mp digests
  exact {
    resources := require_ok.mp resources
    policy := require_ok.mp policy
    manifest := ⟨raw, decoded, readRaw, require_ok.mp sameRaw, orThrow_ok.mp decodedRaw,
      require_ok.mp selected, require_ok.mp matched⟩
    challenge := ⟨target, readTarget, sameTarget⟩
    environment := ⟨rawEnv, readEnv, sameEnv, orThrow_ok.mp decodedEnv⟩
    files := addFiles_ok added
    image := require_ok.mp image
    driver := (require_ok.mp driver).symm
    launcher := (require_ok.mp launcher).symm
    seccomp := (require_ok.mp seccomp).symm }

/-- `_publication_preflight` -/
def publicationPreflight (config : ComparatorConfig) (request : VerificationRequest)
    (env : Environment) : Option OutcomeData :=
  if request.publication = true ∧ (config.qualification.independentKernel = false ∨
      pinned env.checkerVersions "nanoda" = false ∨
      (Dict.get env.binaries "nanoda").all (fun digest => digest = "") = true) then
    some (request.outcome .blocked "independent_kernel_required" "Publication requires nanoda."
      "Qualify and pin the compatible independent kernel image.")
  else none

end Bundles

end PhysHarness
