import PhysHarness.Execution.LegacyArchive
import PhysHarness.Verification.Boundary

/-!
# Preparing a trusted bundle

An operator writes the bundle of a problem revision from the reviewed sources and the pins of an image.
Names of project files are checked when the bundle is written and once more when a check reads it.

## Sources
- verification/bundles.py: `project_path`, `create_bundle`
- verification/preparation.py: `_project_bytes`, `create_problem_bundle`
- verification/boundary.py: `_bundle`, for both kinds of request
-/
namespace PhysHarness

open Outcome

/-! ### Names of project files -/

/-- `PurePosixPath(name).as_posix()` of a relative path. -/
def asPosix (name : String) : String :=
  if pathParts name = [] then "." else joinSegments (pathParts name)

/-- What no project file may be or lie in. -/
def reservedRoots : List String :=
  [".lake", "Challenge.lean", "Solution.lean", "request.json", "config.json", "seccomp.json",
    "manifest.json", "environment.json"]

/-- `project_path` -/
def projectPath (name : String) : Except String (List String) := do
  let parts := pathParts name
  require (name ≠ "" ∧ name.toList.head? ≠ some '/' ∧ asPosix name = name ∧ "." ∉ parts ∧ ".." ∉ parts)
    s!"Unsafe or reserved project file: {name}"
  -- the path `.` passes this far and has no parts
  let first ← orThrow parts.head? "IndexError"
  require (first ∉ reservedRoots) s!"Unsafe or reserved project file: {name}"
  return parts

/-! ### The directory that is written -/

/-- The files written below the destination, by the parts of their paths. -/
abbrev FileTree := List (List String × Bytes)

def FileTree.entry (tree : FileTree) (path : List String) : Option BundleEntry :=
  match Dict.get tree path with
  | some data => some (.file data)
  | none => if tree.any (fun file => path.isPrefixOf file.1) then some .directory else none

def FileTree.bundle (tree : FileTree) : BundleDirectory where
  symlink := false
  directory := true
  entry := tree.entry

/-- Whether the destination is there, and the errors of the operating system for new paths below it. -/
structure Disk where
  taken : Bool
  refuses : List String → Option String

/-- The parents are made, and the file is opened for exclusive creation. -/
def writeFile (disk : Disk) (tree : FileTree) (parts : List String) (data : Bytes) :
    Except String FileTree := do
  require (∀ file ∈ tree, ¬ file.1 <+: parts ∧ ¬ parts <+: file.1) "FileExistsError"
  match disk.refuses parts with
  | some message => throw message
  | none => return tree ++ [(parts, data)]

def writeFiles (disk : Disk) : FileTree → List (String × Bytes) → Except String FileTree
  | tree, [] => return tree
  | tree, (name, data) :: files => do
    writeFiles disk (← writeFile disk tree (pathParts name) data) files

/-! ### Creating a bundle -/

def maxFile : Nat := 16000000

/-- The arguments of `create_bundle`; each dictionary has a key once. -/
structure BundleInput where
  problemRevisionId : String
  targetDigest : Digest
  challengeSource : String
  theoremNames : List String
  imageDigest : Digest
  checkerVersions : List (String × String)
  binaries : List (String × Digest)
  projectFiles : List (String × Bytes)
  versionsDistinct : (checkerVersions.map Prod.fst).Nodup
  binariesDistinct : (binaries.map Prod.fst).Nodup
  filesDistinct : (projectFiles.map Prod.fst).Nodup

/-- The constraints of the fields. -/
def Environment.valid (env : Environment) : Bool :=
  isImageDigest env.image && env.files.all (fun file => isSha256 file.2) &&
    env.binaries.all fun binary => isSha256 binary.2

def Manifest.valid (manifest : Manifest) : Bool :=
  isSha256 manifest.targetDigest && isSha256 manifest.challengeSha256 &&
    isSha256 manifest.environmentDigest && decide (1 ≤ manifest.theoremNames.length) &&
    decide (manifest.theoremNames.length ≤ 128)

/-- `model_dump` -/
def Environment.dump (env : Environment) : Json :=
  .obj [("image", .str env.image),
    ("checker_versions", .obj (env.checkerVersions.map fun item => (item.1, .str item.2))),
    ("files", .obj (env.files.map fun item => (item.1, .str item.2))),
    ("binaries", .obj (env.binaries.map fun item => (item.1, .str item.2)))]

def Manifest.dump (manifest : Manifest) : Json :=
  .obj [("protocol", .str protocol), ("problem_revision_id", .str manifest.problemRevisionId),
    ("target_digest", .str manifest.targetDigest),
    ("challenge_sha256", .str manifest.challengeSha256),
    ("environment_digest", .str manifest.environmentDigest),
    ("theorem_names", .arr (manifest.theoremNames.map .str))]

/-- `canonical_json` of the bundles: a line of ASCII. -/
def bundleJson (value : Json) : Bytes := Bytes.utf8 (Json.asciiCanonical value ++ "\n")

section Creation

variable [ByteHash]

namespace BundleInput

def environment (input : BundleInput) : Environment where
  image := input.imageDigest
  checkerVersions := input.checkerVersions
  files := input.projectFiles.map fun file => (file.1, ByteHash.sha256 file.2)
  binaries := input.binaries

def environmentBytes (input : BundleInput) : Bytes := bundleJson input.environment.dump

def challenge (input : BundleInput) : Bytes := Bytes.utf8 input.challengeSource

def manifest (input : BundleInput) : Manifest where
  problemRevisionId := input.problemRevisionId
  targetDigest := input.targetDigest
  challengeSha256 := ByteHash.sha256 input.challenge
  environmentDigest := ByteHash.sha256 input.environmentBytes
  theoremNames := input.theoremNames

def manifestBytes (input : BundleInput) : Bytes := bundleJson input.manifest.dump

/-- What is written, in this order. -/
def files (input : BundleInput) : List (String × Bytes) :=
  input.projectFiles ++ [("Challenge.lean", input.challenge),
    ("environment.json", input.environmentBytes), ("manifest.json", input.manifestBytes)]

end BundleInput

def checkProjectFiles : List (String × Bytes) → Except String Unit
  | [] => return ()
  | (name, content) :: files => do
    let _ ← projectPath name
    require (content.length ≤ maxFile) "Project files must be bytes of at most 16 MB"
    checkProjectFiles files

def lakeConfigured (names : List String) : Prop := "lakefile.toml" ∈ names ∨ "lakefile.lean" ∈ names

instance (names : List String) : Decidable (lakeConfigured names) :=
  inferInstanceAs (Decidable (_ ∨ _))

def checkerBinaries : List String := ["lean", "lake", "comparator", "lean4export", "landrun"]

/-- `create_bundle`: the digest to pin, and the directory. -/
def createBundle (disk : Disk) (input : BundleInput) : Except String (Digest × FileTree) := do
  require (disk.taken = false) "FileExistsError"
  checkProjectFiles input.projectFiles
  require (lakeConfigured (input.projectFiles.map Prod.fst)) "Trusted Lake configuration is required"
  require (∀ name ∈ checkerBinaries, name ∈ input.binaries.map Prod.fst)
    "Complete checker executable pins are required"
  require (pinned input.checkerVersions "lean" = true ∧ pinned input.checkerVersions "comparator" = true)
    "Pinned checker versions are required"
  require (input.challenge.length ≤ maxFile) "Challenge source exceeds 16 MB"
  require (input.environment.valid = true) "ValidationError: Environment"
  require (input.manifest.valid = true) "ValidationError: Manifest"
  match disk.refuses [] with
  | some message => throw message
  | none =>
    let tree ← writeFiles disk [] input.files
    return (ByteHash.sha256 input.manifestBytes, tree)

/-! ### From a stored revision -/

def collectFiles (project : BundleDirectory) :
    List String → Nat → Except String (List (String × Bytes))
  | [], _ => return []
  | name :: names, total => do
    let _ ← projectPath name
    let data ← safeRead project name
    require (total + data.length ≤ 64000000)
      "Trusted project files exceed the 64 MB preparation limit"
    return (name, data) :: (← collectFiles project names (total + data.length))

/-- `_project_bytes` -/
def projectBytes (project : BundleDirectory) (names : List String) :
    Except String (List (String × Bytes)) := do
  require (project.symlink = false ∧ project.directory = true)
    "Trusted project directory must be a real directory"
  require (names ≠ [] ∧ names.length ≤ 1000 ∧ names.Nodup)
    "Supply 1-1000 unique trusted project file names"
  let result ← collectFiles project names 0
  require (lakeConfigured (result.map Prod.fst)) "Trusted Lake configuration is required"
  return result

inductive Program where
  | quantum
  | classical
  deriving DecidableEq

def Program.value : Program → String
  | .quantum => "quantum"
  | .classical => "classical"

structure ProblemCreate where
  campaignId : String
  title : String
  program : Program
  informalStatement : String
  formalStatement : String
  assumptions : List String
  definitions : List (String × String)
  source : String
  environmentDigest : Digest
  targetTheorem : String
  parentRevisionId : Option String
  definitionHoles : Bool

/-- The constraints of the fields. -/
def ProblemCreate.valid (problem : ProblemCreate) : Bool :=
  decide ((1 ≤ problem.title.length ∧ problem.title.length ≤ 200) ∧
    (1 ≤ problem.informalStatement.length ∧ problem.informalStatement.length ≤ 100000) ∧
    (1 ≤ problem.formalStatement.length ∧ problem.formalStatement.length ≤ 100000) ∧
    problem.assumptions.length ≤ 1000 ∧ problem.source.length ≤ 20000 ∧
    (1 ≤ problem.targetTheorem.length ∧ problem.targetTheorem.length ≤ 500)) &&
    isSha256 problem.environmentDigest

def ProblemCreate.dump (problem : ProblemCreate) : Json :=
  .obj [("campaign_id", .str problem.campaignId), ("title", .str problem.title),
    ("program", .str problem.program.value), ("informal_statement", .str problem.informalStatement),
    ("formal_statement", .str problem.formalStatement),
    ("assumptions", .arr (problem.assumptions.map .str)),
    ("definitions", .obj (problem.definitions.map fun item => (item.1, .str item.2))),
    ("source", .str problem.source), ("environment_digest", .str problem.environmentDigest),
    ("target_theorem", .str problem.targetTheorem),
    ("parent_revision_id", .ofOption problem.parentRevisionId),
    ("definition_holes", .bool problem.definitionHoles)]

/-- A canonical problem revision. -/
structure ProblemRevision extends ProblemCreate where
  id : Id
  targetDigest : Digest

/-- Every file of the environment is in the bundle with its digest. -/
def matchesFiles (bundle : BundleDirectory) : List (String × Digest) → Except String Bool
  | [] => return true
  | (name, expected) :: files => do
    let data ← safeRead bundle name
    if ByteHash.sha256 data = expected then matchesFiles bundle files else return false

variable [Decoders]

/-- The input of `create_bundle` for a revision; a decoded object has each key once. -/
def revisionInput (problem : ProblemRevision) (env : Environment) (files : List (String × Bytes)) :
    Option BundleInput :=
  if distinct : (env.checkerVersions.map Prod.fst).Nodup ∧ (env.binaries.map Prod.fst).Nodup ∧
      (files.map Prod.fst).Nodup then
    some {
      problemRevisionId := problem.id
      targetDigest := problem.targetDigest
      challengeSource := problem.formalStatement
      theoremNames := [problem.targetTheorem]
      imageDigest := env.image
      checkerVersions := env.checkerVersions
      binaries := env.binaries
      projectFiles := files
      versionsDistinct := distinct.1
      binariesDistinct := distinct.2.1
      filesDistinct := distinct.2.2 }
  else none

/-- The bundle is read again before it is handed out; when it differs it is removed. -/
def checkPrepared (problem : ProblemRevision) (environmentBytes : Bytes) (env : Environment)
    (manifestSha : Digest) (bundle : BundleDirectory) : Except String Unit := do
  let manifestRaw ← safeRead bundle "manifest.json"
  let manifest ← orThrow ((Decoders.read manifestRaw).bind Manifest.validate) "ValidationError: Manifest"
  let environment ← safeRead bundle "environment.json"
  let challenge ← safeRead bundle "Challenge.lean"
  let matching ← matchesFiles bundle env.files
  require (ByteHash.sha256 manifestRaw = manifestSha ∧
      manifest.targetDigest = problem.targetDigest ∧
      manifest.problemRevisionId = problem.id ∧
      manifest.challengeSha256 = ByteHash.sha256 (Bytes.utf8 problem.formalStatement) ∧
      manifest.environmentDigest = problem.environmentDigest ∧
      environment = environmentBytes ∧
      ByteHash.sha256 challenge = manifest.challengeSha256 ∧
      manifest.theoremNames = [problem.targetTheorem] ∧ matching = true)
    "Prepared bundle does not match canonical input pins"

/-- `create_problem_bundle` -/
def createProblemBundle (disk : Disk) (problem : ProblemRevision) (environmentBytes : Bytes)
    (project : BundleDirectory) : Except String (Digest × FileTree) := do
  require (problem.valid = true) "ValidationError: ProblemCreate"
  require (ByteHash.sha256 (Bytes.utf8 (Json.canonical problem.dump)) = problem.targetDigest)
    "Canonical problem metadata digest mismatch"
  require (environmentBytes.length ≤ 2000000) "Environment must be at most 2 MB of exact bytes"
  require (ByteHash.sha256 environmentBytes = problem.environmentDigest)
    "Canonical problem environment digest mismatch"
  let env ← orThrow ((Decoders.read environmentBytes).bind Environment.validate)
    "ValidationError: Environment"
  require (bundleJson env.dump = environmentBytes)
    "Environment bytes are not canonical; prepare and review a new revision"
  let files ← projectBytes project (env.files.map Prod.fst)
  require (∀ file ∈ files, Dict.get env.files file.1 = some (ByteHash.sha256 file.2))
    "Trusted project file digest mismatch"
  let input ← orThrow (revisionInput problem env files) "ValidationError: Environment"
  let (manifestSha, tree) ← createBundle disk input
  checkPrepared problem environmentBytes env manifestSha tree.bundle
  return (manifestSha, tree)

/-! ### Reading for either kind of request -/

/-- What `_bundle` reads of a request; only a verification request selects a theorem. -/
structure RequestPins where
  problemRevisionId : Id
  targetDigest : Digest
  challengeSha256 : Digest
  environmentDigest : Digest
  targetTheorem : Option String

def VerificationRequest.pins (request : VerificationRequest) : RequestPins where
  problemRevisionId := request.problemRevisionId
  targetDigest := request.targetDigest
  challengeSha256 := request.challengeSha256
  environmentDigest := request.environmentDigest
  targetTheorem := some request.targetTheorem

/-- `_bundle` -/
def bundleFor (config : ComparatorConfig) (host : HostFiles) (bundle : BundleDirectory)
    (request : RequestPins) : Except String (Manifest × Environment × List (String × Bytes)) := do
  let pins := config.qualification
  require (config.resources.sha256 = pins.resourceProfileSha256 ∧
      config.resourceProfileSourceSha256 = pins.resourceProfileSourceSha256)
    "Resource profile source differs from qualified execution profile"
  require (host.policyDigest = pins.resourcePolicySha256)
    "Resource policy differs from qualified execution policy"
  require (bundle.symlink = false ∧ bundle.directory = true)
    "trusted bundle directory unavailable"
  let raw ← safeRead bundle "manifest.json"
  require (ByteHash.sha256 raw = config.manifestSha256) "pinned manifest digest mismatch"
  let manifest ← orThrow ((Decoders.read raw).bind Manifest.validate) "ValidationError: Manifest"
  require (∀ theoremName ∈ request.targetTheorem, manifest.theoremNames = [theoremName])
    "bundle theorem selection differs from the reviewed target theorem"
  require (manifest.problemRevisionId = request.problemRevisionId ∧
      manifest.targetDigest = request.targetDigest ∧
      manifest.challengeSha256 = request.challengeSha256 ∧
      manifest.environmentDigest = request.environmentDigest)
    "request does not match trusted manifest"
  let target ← safeRead bundle "Challenge.lean"
  let rawEnv ← safeRead bundle "environment.json"
  require (ByteHash.sha256 target = request.challengeSha256 ∧
      ByteHash.sha256 rawEnv = request.environmentDigest)
    "target or environment digest mismatch"
  let env ← orThrow ((Decoders.read rawEnv).bind Environment.validate)
    "ValidationError: Environment"
  require (env.image = pins.imageDigest) "image differs from qualified image"
  require (pins.driverSha256 = host.driverDigest) "qualification predates this driver"
  require (pins.launcherSha256 = host.launcherDigest) "qualification predates this host launcher"
  require (pins.seccompSha256 = seccompDigest)
    "qualification does not match this seccomp policy"
  require (pinned env.checkerVersions "lean" = true ∧ pinned env.checkerVersions "comparator" = true)
    "missing pinned checker versions"
  require (∀ name ∈ checkerBinaries, name ∈ env.binaries.map Prod.fst) "missing binary pins"
  let files ← addFiles bundle env.files
    [("Challenge.lean", target), ("environment.json", rawEnv), ("manifest.json", raw)]
  require (lakeConfigured (files.map Prod.fst)) "trusted Lake configuration missing"
  return (manifest, env, files)

/-- The reader of a verification request is an instance. -/
theorem readBundle_eq (config : ComparatorConfig) (host : HostFiles) (bundle : BundleDirectory)
    (request : VerificationRequest) :
    readBundle config host bundle request = bundleFor config host bundle request.pins := by
  simp only [readBundle, bundleFor, VerificationRequest.pins, Option.mem_def, Option.some.injEq,
    forall_eq', lakeConfigured, checkerBinaries]
  congr!

/-- Where a file of the bundle lies once it is staged below the trusted directory. -/
def stagedPath (trusted : List String) (name : String) : List String := trusted ++ pathParts name

end Creation

end PhysHarness
