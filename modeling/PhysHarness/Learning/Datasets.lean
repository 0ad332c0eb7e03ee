import PhysHarness.Evaluation.Evidence
import PhysHarness.Lib.Assignment
import PhysHarness.Lib.Bytes
import PhysHarness.Lib.Effect

/-!
The export of reviewed records as a dataset.

Each selected problem has a valid receipt, a proof whose bytes are at hand, and a grant to train on
them. A family, a proof and a target stay within one split. The files are written when every check
has passed; a call of the operating system may still fail.
-/
namespace PhysHarness

open Outcome Python

inductive DatasetSplit where
  | train | development | holdout
  deriving DecidableEq

def DatasetSplit.text : DatasetSplit → String
  | .train => "train"
  | .development => "development"
  | .holdout => "holdout"

structure DatasetSelection where
  problemId : String
  receiptId : String
  familyId : String
  split : DatasetSplit
  named : familyId ≠ ""
  deriving DecidableEq

/-- A licensing decision about the proof with this digest. -/
structure LicenseGrant where
  artifactSha256 : Digest
  licenseId : String
  approvedBy : String
  attribution : String
  trainingAllowed : Bool
  digest : isSha256 artifactSha256 = true
  named : licenseId ≠ "" ∧ approvedBy ≠ "" ∧ attribution ≠ ""
  deriving DecidableEq

structure DatasetRecord where
  problemId : String
  targetDigest : Digest
  environmentDigest : Digest
  familyId : String
  split : DatasetSplit
  statement : String
  proof : String
  proofSha256 : Digest
  receiptId : String
  artifactId : String
  reviewId : String
  licenseId : String
  licenseApprovedBy : String
  attribution : String
  checkerVersions : List (String × String)
  assurance : String
  digests : [targetDigest, environmentDigest, proofSha256].all isSha256 = true
  deriving DecidableEq

structure DatasetManifest where
  mode : String
  snapshotId : String
  snapshotDigest : Digest
  recordCount : Nat
  recordsSha256 : Digest
  partitionFamilies : List (DatasetSplit × List String)
  licenseDecisionsDigest : Digest
  selectionDigest : Digest
  deriving DecidableEq

structure DatasetBundle where
  manifest : DatasetManifest
  records : List DatasetRecord
  outputDirectory : String
  deriving DecidableEq

inductive DatasetError where
  /-- `ValueError` -/
  | stated (text : String)
  | invalidReceipt (reason : EvidenceReason)
  | evidence (stop : EvidenceStop)
  | unhashable
  | unicode
  | validation
  /-- `OSError` -/
  | os
  deriving DecidableEq

def DatasetSelection.dump (selection : DatasetSelection) : Json :=
  .obj [("problem_id", .str selection.problemId), ("receipt_id", .str selection.receiptId),
    ("family_id", .str selection.familyId), ("split", .str selection.split.text)]

def LicenseGrant.dump (grant : LicenseGrant) : Json :=
  .obj [("artifact_sha256", .str grant.artifactSha256), ("license_id", .str grant.licenseId),
    ("approved_by", .str grant.approvedBy), ("attribution", .str grant.attribution),
    ("training_allowed", .bool grant.trainingAllowed)]

def DatasetRecord.dump (record : DatasetRecord) : Json :=
  .obj [("problem_id", .str record.problemId), ("target_digest", .str record.targetDigest),
    ("environment_digest", .str record.environmentDigest), ("family_id", .str record.familyId),
    ("split", .str record.split.text), ("statement", .str record.statement),
    ("proof", .str record.proof), ("proof_sha256", .str record.proofSha256),
    ("receipt_id", .str record.receiptId), ("artifact_id", .str record.artifactId),
    ("review_id", .str record.reviewId), ("license_id", .str record.licenseId),
    ("license_approved_by", .str record.licenseApprovedBy), ("attribution", .str record.attribution),
    ("checker_versions",
      .obj (record.checkerVersions.map fun version => (version.1, .str version.2))),
    ("assurance", .str record.assurance)]

namespace Datasets

/-- The lines of `records.jsonl` -/
def recordsText (records : List DatasetRecord) : Bytes :=
  records.flatMap fun record => Bytes.utf8 (Json.dumps {} (Json.sortKeys record.dump) ++ "\n")

def byProblem (records : List DatasetRecord) : List DatasetRecord :=
  records.insertionSort fun first second => first.problemId ≤ second.problemId

/-- `manifest.model_dump_json(indent=2)` -/
class ManifestText where
  bytes : DatasetManifest → Bytes

section

variable [FloatValue] [ContentHash] [ByteHash]

/-- A snapshot with the identity that it was constructed with and the digest of its records. -/
structure DatasetSnapshot where
  evidence : CanonicalEvidence
  snapshotId : String
  snapshotDigest : Digest

/-- `canonical_digest` -/
def canonicalDigest (value : Json) : Digest := ByteHash.sha256 (Bytes.utf8 (Json.canonical value))

/-- The decisions by digest. -/
def grantTable : List LicenseGrant → List (Digest × LicenseGrant) →
    Except DatasetError (List (Digest × LicenseGrant))
  | [], grants => .ok grants
  | grant :: rest, grants => do
    require (grant.artifactSha256 ∉ grants.map Prod.fst) (.stated "duplicate license decision")
    grantTable rest (Dict.set grants grant.artifactSha256 grant)

/-- What the checks of one selection have found. -/
structure Approved where
  checked : EvidenceValidation
  problem : Record
  receipt : Record
  sha256 : Digest
  grant : LicenseGrant
  source : Bytes

def fromEvidence {α : Type} (look : Except EvidenceStop α) : Except DatasetError α :=
  look.mapError .evidence

def checkedReceipt (evidence : CanonicalEvidence) (selection : DatasetSelection) :
    Except DatasetError EvidenceValidation :=
  match evidence.validate selection.problemId selection.receiptId with
  | some (.valid checked) => .ok checked
  | some (.invalid reason) => .error (.invalidReceipt reason)
  | none => .error (.evidence .crashed)

/-- The grant to train on the proof that was checked, with the proof's digest. -/
def trainingGrant (grants : List (Digest × LicenseGrant)) (checked : EvidenceValidation) :
    Option (Digest × LicenseGrant) := do
  let sha256 ← checked.candidateSha256
  let grant ← Dict.get grants sha256
  if grant.trainingAllowed then some (sha256, grant) else none

/-- The checks of one selection by itself; no bytes are found where there is no entry of bytes. -/
def approve (evidence : CanonicalEvidence) (grants : List (Digest × LicenseGrant))
    (artifactBytes : Digest → Option Bytes) (selection : DatasetSelection) :
    Except DatasetError Approved := do
  let checked ← checkedReceipt evidence selection
  let problem ← fromEvidence (evidence.record (.str selection.problemId))
  let receipt ← fromEvidence (evidence.record (.str selection.receiptId))
  let (sha256, grant) ← orThrow (trainingGrant grants checked)
    (.stated "approved training license decision is missing")
  let source ← orThrow (artifactBytes sha256) (.stated "proof content digest mismatch")
  require (ByteHash.sha256 source = sha256) (.stated "proof content digest mismatch")
  return { checked, problem, receipt, sha256, grant, source }

def readVersions (value : Json) : Option (List (String × String)) := do
  let fields ← asFields value
  fields.mapM fun (name, version) => (asText version).map fun text => (name, text)

/-- The texts that constructing a record reads. -/
def validRecord (selection : DatasetSelection) (approved : Approved)
    (targetDigest environmentDigest statement versions assurance : Json) (proof : String) :
    Option DatasetRecord := do
  let targetDigest ← asText targetDigest
  let environmentDigest ← asText environmentDigest
  let statement ← asText statement
  let artifactId ← approved.checked.artifactId
  let reviewId ← approved.checked.reviewId
  let checkerVersions ← readVersions versions
  let assurance ← asText assurance
  if digests : [targetDigest, environmentDigest, approved.sha256].all isSha256 = true then
    some
      { problemId := selection.problemId
        targetDigest
        environmentDigest
        familyId := selection.familyId
        split := selection.split
        statement
        proof
        proofSha256 := approved.sha256
        receiptId := selection.receiptId
        artifactId
        reviewId
        licenseId := approved.grant.licenseId
        licenseApprovedBy := approved.grant.approvedBy
        attribution := approved.grant.attribution
        checkerVersions
        assurance
        digests }
  else none

def datasetRecord (selection : DatasetSelection) (approved : Approved) :
    Except DatasetError DatasetRecord := do
  let targetDigest ← fromEvidence (CanonicalEvidence.item approved.problem "target_digest")
  let environmentDigest ← fromEvidence (CanonicalEvidence.item approved.problem "environment_digest")
  let statement ← fromEvidence (CanonicalEvidence.item approved.problem "formal_statement")
  let proof ← orThrow (Bytes.text approved.source) .unicode
  let versions ← fromEvidence (CanonicalEvidence.item approved.receipt "checker_versions")
  let assurance ← fromEvidence (CanonicalEvidence.item approved.receipt "assurance")
  orThrow
    (validRecord selection approved targetDigest environmentDigest statement versions assurance proof)
    .validation

/-- What the loop over the selections has filled. -/
structure Chosen where
  identifiers : List String := []
  families : List (String × DatasetSplit) := []
  proofs : List (Digest × DatasetSplit) := []
  targets : List (Key × DatasetSplit) := []
  records : List DatasetRecord := []

def crossing : DatasetError :=
  .stated "duplicate target/proof content crosses dataset partitions"

variable (evidence : CanonicalEvidence) (grants : List (Digest × LicenseGrant))
  (artifactBytes : Digest → Option Bytes)

def choose (chosen : Chosen) (selection : DatasetSelection) : Except DatasetError Chosen := do
  require (selection.problemId ∉ chosen.identifiers) (.stated "duplicate dataset target")
  let families ← orThrow (Assignment.assign chosen.families selection.familyId selection.split)
    (.stated "family overlap across dataset partitions")
  let approved ← approve evidence grants artifactBytes selection
  let targetDigest ← fromEvidence (CanonicalEvidence.item approved.problem "target_digest")
  let proofs ← orThrow (Assignment.assign chosen.proofs approved.sha256 selection.split) crossing
  let target ← orThrow (key targetDigest) .unhashable
  let targets ← orThrow (Assignment.assign chosen.targets target selection.split) crossing
  let record ← datasetRecord selection approved
  return {
    identifiers := chosen.identifiers ++ [selection.problemId]
    families
    proofs
    targets
    records := chosen.records ++ [record] }

def chooseAll : List DatasetSelection → Chosen → Except DatasetError Chosen
  | [], chosen => .ok chosen
  | selection :: rest, chosen =>
    choose evidence grants artifactBytes chosen selection >>= chooseAll rest

/-- The families of each split. -/
def partitionFamilies (families : List (String × DatasetSplit)) : List (DatasetSplit × List String) :=
  [.train, .development, .holdout].map fun split =>
    (split, ((families.filter fun family => family.2 = split).map Prod.fst).insertionSort (· ≤ ·))

def licenseDecisionsDigest (grants : List LicenseGrant) : Digest :=
  canonicalDigest (.arr ((grants.insertionSort fun first second =>
    first.artifactSha256 ≤ second.artifactSha256).map LicenseGrant.dump))

def selectionDigest (selections : List DatasetSelection) : Digest :=
  canonicalDigest (.arr ((selections.insertionSort fun first second =>
    first.problemId ≤ second.problemId).map DatasetSelection.dump))

def datasetModes : List String := ["live", "replay", "synthetic", "unqualified"]

/-- Everything up to the look at the output: the manifest and the sorted records. -/
def buildDataset (snapshot : DatasetSnapshot) (selections : List DatasetSelection)
    (licenseGrants : List LicenseGrant) (artifactBytes : Digest → Option Bytes) (mode : String) :
    Except DatasetError (DatasetManifest × List DatasetRecord) := do
  let grants ← grantTable licenseGrants []
  let chosen ← chooseAll snapshot.evidence grants artifactBytes selections {}
  require (chosen.records ≠ []) (.stated "empty dataset selection")
  let records := byProblem chosen.records
  require (mode ∈ datasetModes) .validation
  return (
    { mode
      snapshotId := snapshot.snapshotId
      snapshotDigest := snapshot.snapshotDigest
      recordCount := records.length
      recordsSha256 := ByteHash.sha256 (recordsText records)
      partitionFamilies := partitionFamilies chosen.families
      licenseDecisionsDigest := licenseDecisionsDigest licenseGrants
      selectionDigest := selectionDigest selections }, records)

/-! ### Writing -/

inductive OutputCall where
  | present (name : String)
  | read (name : String)
  | mkdir
  | write (name : String)
  | chmod (name : String)
  | resolve

structure OutputFile where
  content : Bytes
  mode : Nat
  deriving DecidableEq

/-- The files of the output directory by name. -/
abbrev OutputFiles := String → Option OutputFile

/-- The operating system: which calls fail, what a failed write leaves, the mode of a new file, and the
resolved output directory. -/
structure OutputSystem where
  fails : OutputCall → Bool
  torn : String → Option OutputFile
  umasked : Nat
  resolved : String

abbrev Output := EStateM DatasetError OutputFiles

def OutputSystem.call (system : OutputSystem) (call : OutputCall) : Output Unit :=
  if system.fails call then throw .os else pure ()

/-- A file that is there has the content that would be written. -/
def compareOutput (file : String × Bytes) (files : OutputFiles) : Output Unit :=
  if (files file.1).all fun old => old.content = file.2 then pure ()
  else throw (.stated "output already contains a different dataset")

def checkOutput (system : OutputSystem) (file : String × Bytes) : Output Unit := do
  system.call (.present file.1)
  let files ← get
  if (files file.1).isNone then pure ()
  else do
    system.call (.read file.1)
    compareOutput file files

def writeBytes (system : OutputSystem) (file : String × Bytes) : Output Unit := do
  if system.fails (.write file.1) then do
    modify fun files => Function.update files file.1 (system.torn file.1)
    throw .os
  else
    modify fun files => Function.update files file.1
      (some { content := file.2, mode := ((files file.1).map OutputFile.mode).getD system.umasked })

def restrictOutput (system : OutputSystem) (name : String) : Output Unit := do
  system.call (.chmod name)
  modify fun files =>
    Function.update files name ((files name).map fun file => { file with mode := 0o600 })

def writeOutput (system : OutputSystem) (file : String × Bytes) : Output Unit := do
  writeBytes system file
  restrictOutput system file.1

variable [ManifestText]

/-- The two files of a dataset. -/
def datasetFiles (manifest : DatasetManifest) (records : List DatasetRecord) : List (String × Bytes) :=
  [("records.jsonl", recordsText records), ("manifest.json", ManifestText.bytes manifest)]

def publishDataset (system : OutputSystem) (manifest : DatasetManifest) (records : List DatasetRecord) :
    Output DatasetBundle := do
  (datasetFiles manifest records).forM (checkOutput system)
  system.call .mkdir
  (datasetFiles manifest records).forM (writeOutput system)
  system.call .resolve
  return { manifest, records, outputDirectory := system.resolved }

def exportDataset (system : OutputSystem) (snapshot : DatasetSnapshot)
    (selections : List DatasetSelection) (licenseGrants : List LicenseGrant)
    (artifactBytes : Digest → Option Bytes) (mode : String := "unqualified") : Output DatasetBundle :=
  match buildDataset snapshot selections licenseGrants artifactBytes mode with
  | .error error => throw error
  | .ok (manifest, records) => publishDataset system manifest records

end

end Datasets
end PhysHarness
