import PhysHarness.Service

/-!
Accepted evidence, and the scope of an identity over artifacts.
-/
namespace PhysHarness

open Outcome

variable [ContentHash]

namespace Db

/-- A canonical receipt is accepted when it is verified with one of the assurances and bound to the
experiment's exact reviewed target and to the artifact's current bytes. -/
def acceptedReceipt (db : Db) (row : Row Verification) (experimentId : Id)
    (experiment : Experiment) (assurances : List Assurance) : Bool :=
  match db.problems.find experiment.problemId, db.artifacts.find row.payload.artifactId with
  | some target, some artifact =>
    let data := row.payload
    data.status = .verified ∧ data.assurance ∈ assurances ∧ data.experimentId = experimentId ∧
      target.projectId = row.projectId ∧ target.payload.semanticReview = .approved ∧
      data.reviewId = target.payload.reviewId ∧
      data.targetTheorem = target.payload.targetTheorem ∧
      data.challengeSha256 = ContentHash.sha256 target.payload.formalStatement ∧
      data.problemRevisionId = experiment.problemId ∧
      data.targetDigest = target.payload.targetDigest ∧
      target.payload.targetDigest = experiment.targetDigest ∧
      data.environmentDigest = target.payload.environmentDigest ∧
      artifact.projectId = row.projectId ∧
      artifact.payload.experimentId = some experimentId ∧
      data.candidateSha256 = artifact.payload.sha256
  | _, _ => false

/-- An artifact is accepted through some accepted receipt of its project that names it. -/
def acceptedArtifact (db : Db) (id : Id) (row : Row Artifact) (experimentId : Id)
    (experiment : Experiment) (assurances : List Assurance) : Bool :=
  db.verifications.anyRow fun _ receipt =>
    receipt.projectId = row.projectId && receipt.payload.artifactId = id &&
      db.acceptedReceipt receipt experimentId experiment assurances

/-- A claim is accepted through the accepted receipt that links back to it. -/
def acceptedClaim (db : Db) (id : Id) (row : Row Claim) (experimentId : Id)
    (experiment : Experiment) (assurances : List Assurance) : Bool :=
  match db.verifications.find row.payload.verificationId with
  | none => false
  | some receipt =>
    row.payload.proofStatus = .verified && receipt.payload.claimId = some id &&
      db.acceptedReceipt receipt experimentId experiment assurances

end Db

def privateArtifactKinds : List String :=
  ["checkpoint", "checkpoint_chunk", "native_checkpoint", "native_checkpoint_chunk",
    "native_archive", "runtime_event", "execution_failure", "workspace_recovery_observation",
    "masked_reference", "literature_screen"]

namespace Db

/-- What an agent of the experiment may see of an artifact. -/
def artifactVisible (db : Db) (actor : Principal) (id : Id) (row : Row Artifact)
    (experiment : Experiment) : Bool :=
  match row.payload.experimentId with
  | none => false
  | some experimentId =>
    let kind := row.payload.artifactKind
    some experimentId = actor.experimentId &&
      (kind ∉ privateArtifactKinds || kind = "checkpoint") &&
      ((row.payload.branchId.isSome && row.payload.branchId = actor.branchId)
        || (actor.branchId = none && row.payload.originActorId = actor.id)
        || row.payload.trustedInput
        || (kind ≠ "checkpoint" && experiment.sharing ≠ .none && actor.branchId.isSome &&
            ((experiment.sharing = .ideas && row.payload.branchId.isSome)
              || db.acceptedArtifact id row experimentId experiment [.independentKernel])))

def artifactInScope (db : Db) (actor : Principal) (id : Id) (row : Row Artifact) : Bool :=
  db.inScope actor (db.artifactVisible actor id row)

def getArtifact (db : Db) (id : Id) (actor : Principal) : Except Failure (Row Artifact) :=
  getRow db.artifacts (db.artifactInScope actor) id actor

end Db

end PhysHarness
