import PhysHarness.Evidence

/-!
Submission and promotion authority: a candidate is queued with the reviewed target it was checked
against, the independent checker runs outside every transaction, and one transaction turns its
outcome into a receipt and a claim. Public clients never provide verification outcomes.
-/
namespace PhysHarness

open Outcome

def maxCandidateCharacters : Nat := 2000000

def allowedAxioms : List String := ["propext", "Quot.sound", "Classical.choice"]

/-- The fields of a verification outcome, before they are validated. -/
structure OutcomeData where
  status : VerificationStatus
  assurance : Assurance
  code : String
  message : String
  remediation : String
  targetDigest : Digest
  challengeSha256 : Digest
  candidateSha256 : Digest
  environmentDigest : Digest
  axioms : List String := []
  checkerVersions : List (String × String) := []
  deriving DecidableEq

/-- The rules that every constructed outcome has passed. -/
def OutcomeData.Consistent (data : OutcomeData) : Prop :=
  data.status ≠ .queued ∧
  ([data.targetDigest, data.challengeSha256, data.candidateSha256,
    data.environmentDigest].all isSha256 = true) ∧
  (data.status = .verified ↔ data.assurance ≠ .none) ∧
  (data.status = .verified → (∀ name ∈ data.axioms, name ∈ allowedAxioms) ∧
    (data.checkerVersions.lookup "lean").isSome ∧
    (data.checkerVersions.lookup "comparator").isSome ∧
    (data.assurance = .independentKernel →
      ∃ version ∈ data.checkerVersions.lookup "nanoda", version ≠ ""))

instance (data : OutcomeData) : Decidable data.Consistent :=
  inferInstanceAs (Decidable (_ ∧ _))

/-- An outcome is verified exactly with a kernel assurance. -/
abbrev VerificationOutcome := { data : OutcomeData // data.Consistent }

/-- Constructing an outcome validates it. -/
def OutcomeData.validate (data : OutcomeData) : Except Failure VerificationOutcome :=
  if consistent : data.Consistent then .ok ⟨data, consistent⟩
  else .error (.internal "ValidationError: VerificationOutcome")

structure VerificationRequest where
  problemRevisionId : Id
  targetTheorem : String
  targetDigest : Digest
  challengeSha256 : Digest
  environmentDigest : Digest
  candidateSha256 : Digest
  candidateSource : String
  publication : Bool
  semanticReviewed : Bool
  definitionHoles : Bool
  deriving DecidableEq

/-- The bounds that constructing a request checks. -/
def VerificationRequest.valid (request : VerificationRequest) : Bool :=
  0 < request.problemRevisionId.length && request.problemRevisionId.length ≤ 256 &&
    0 < request.targetTheorem.length && request.targetTheorem.length ≤ 500 &&
    [request.targetDigest, request.challengeSha256, request.environmentDigest,
      request.candidateSha256].all isSha256 &&
    request.candidateSource.length ≤ maxCandidateCharacters

/-- An outcome about the request that carries no assurance. -/
def VerificationRequest.outcome (request : VerificationRequest) (status : VerificationStatus)
    (code message remediation : String) : OutcomeData where
  status
  assurance := .none
  code
  message
  remediation
  targetDigest := request.targetDigest
  challengeSha256 := request.challengeSha256
  candidateSha256 := request.candidateSha256
  environmentDigest := request.environmentDigest

section Checking

variable [ContentHash]

def candidatePreflight (request : VerificationRequest) : Option OutcomeData :=
  if ContentHash.sha256 request.candidateSource ≠ request.candidateSha256 then
    some (request.outcome .rejected "candidate_digest_mismatch" "Candidate bytes do not match."
      "Submit the exact UTF-8 source with its SHA256 digest.")
  else none

/-- What needs no checker to refuse. -/
def preflight (request : VerificationRequest) : Option OutcomeData :=
  match candidatePreflight request with
  | some failed => some failed
  | none =>
    if request.semanticReviewed = false then
      some (request.outcome .blocked "semantic_review_required" "Target meaning is unreviewed."
        "Obtain and record expert review of the immutable target revision.")
    else if request.definitionHoles then
      some (request.outcome .blocked "definition_review_required"
        "Definition holes are unsupported."
        "Review the proposed definitions and create a target revision without holes.")
    else none

/-- Preflight never accepts a proof. -/
theorem preflight_unverified {request : VerificationRequest} {failed : OutcomeData}
    (refused : preflight request = some failed) : failed.status ≠ .verified := by
  unfold preflight candidatePreflight at refused
  split at refused
  next found =>
    split at found
    · obtain rfl := Option.some.inj found
      obtain rfl := Option.some.inj refused
      simp [VerificationRequest.outcome]
    · exact nomatch found
  · split at refused
    · obtain rfl := Option.some.inj refused
      simp [VerificationRequest.outcome]
    · split at refused
      · obtain rfl := Option.some.inj refused
        simp [VerificationRequest.outcome]
      · exact nomatch refused

/-- The target that a receipt pins is no longer the problem's reviewed revision. -/
def verificationRevisionChanged (problem : Problem) (receipt : Verification) : Bool :=
  problem.reviewId ≠ receipt.reviewId || problem.targetTheorem ≠ receipt.targetTheorem ||
    problem.targetDigest ≠ receipt.targetDigest ||
    problem.environmentDigest ≠ receipt.environmentDigest ||
    ContentHash.sha256 problem.formalStatement ≠ receipt.challengeSha256

def checkCandidateSize (source : String) : Except Failure Unit :=
  require (source.length ≤ maxCandidateCharacters)
    (.refuse "CANDIDATE_TOO_LARGE" "Candidate exceeds 2,000,000 characters." 422 false
      "Reduce the candidate source and submit a fresh verification.")

/-- The checks of inserting a record that is linked to an artifact: they share the experiment, and
so does the branch the record gets, an agent's own or the artifact's. -/
def checkArtifactRecord (db : Db) (actor : Principal) (experimentId artifactId : Id) :
    Except Failure Unit := do
  let artifact ← db.getArtifact artifactId actor
  require (artifact.payload.experimentId = some experimentId)
    (.refuse "RECORD_SCOPE" "Linked evidence belongs to another experiment.")
  match if actor.role = .agent then actor.branchId else artifact.payload.branchId with
  | none => return ()
  | some branchId =>
    let branch ← db.getBranch branchId actor
    require (branch.payload.experimentId = experimentId)
      (.refuse "BRANCH_AUTHORITY" "Branch belongs to another experiment.")

/-- The receipt that queues a candidate, with the target it pins. -/
def queuedReceipt (experimentId : Id) (experiment : Experiment) (problem : Problem)
    (artifactId : Id) (artifact : Artifact) (publication : Bool) : Verification where
  experimentId
  problemRevisionId := experiment.problemId
  targetDigest := experiment.targetDigest
  challengeSha256 := ContentHash.sha256 problem.formalStatement
  reviewId := problem.reviewId
  targetTheorem := problem.targetTheorem
  artifactId
  candidateSha256 := artifact.sha256
  environmentDigest := problem.environmentDigest
  publication

/-- The reads of `verify_candidate`: the receipt that it is about to insert. -/
def readCandidate (env : Env) (actor : Principal) (experimentId artifactId : Id)
    (publication : Bool) (db : Db) : Except Failure Verification := do
  let experiment ← db.getExperiment experimentId actor
  let problem ← db.getProblem experiment.payload.problemId actor
  let artifact ← db.getArtifact artifactId actor
  require (artifact.payload.experimentId = some experimentId)
    (.refuse "ARTIFACT_EXPERIMENT_MISMATCH" "Candidate belongs to another experiment.")
  require (artifact.payload.artifactKind = "lean_source")
    (.refuse "CANDIDATE_FORMAT" "Submit a Lean source artifact for proof verification." 422)
  require (experiment.payload.targetDigest = problem.payload.targetDigest)
    (.refuse "TARGET_CHANGED" "Experiment target no longer matches its revision.")
  let source ← orThrow (env.content artifact.payload.sha256)
    (.refuse "ARTIFACT_NOT_FOUND" "Artifact bytes are unavailable." 404)
  checkCandidateSize source
  checkArtifactRecord db actor experimentId artifactId
  return queuedReceipt experimentId experiment.payload problem.payload artifactId artifact.payload
    publication

/-- The candidate's exact bytes; every failure to read them is the same refusal. -/
def readSource (env : Env) (actor : Principal) (receipt : Verification) (db : Db) :
    Except Failure String :=
  let unavailable := Failure.refuse "CANDIDATE_UNAVAILABLE"
    "Exact candidate bytes could not be read as UTF-8." 409 false
    "Restore the pinned artifact and submit a fresh verification."
  match db.getArtifact receipt.artifactId actor with
  | .error _ => .error unavailable
  | .ok artifact => orThrow (env.content artifact.payload.sha256) unavailable

/-- The request about the problem as it was read, or the outcome that needs no checker. -/
def prepareRequest (receipt : Verification) (problem : Problem) (source : Except Failure String) :
    Except Failure (VerificationRequest × Option VerificationOutcome) := do
  require (verificationRevisionChanged problem receipt = false)
    (.refuse "REVIEW_CHANGED" "Target review changed; submit a fresh check.")
  let candidateSource ← source
  checkCandidateSize candidateSource
  let request : VerificationRequest :=
    { problemRevisionId := receipt.problemRevisionId
      targetTheorem := problem.targetTheorem
      targetDigest := receipt.targetDigest
      challengeSha256 := receipt.challengeSha256
      environmentDigest := receipt.environmentDigest
      candidateSha256 := receipt.candidateSha256
      candidateSource
      publication := receipt.publication
      semanticReviewed := problem.semanticReview = .approved
      definitionHoles := problem.definitionHoles }
  require (request.valid = true) (.internal "ValidationError: VerificationRequest")
  match preflight request with
  | some failed => do
    let outcome ← failed.validate
    return (request, some outcome)
  | none => return (request, none)

/-- The review record must approve this target before the checker's outcome counts. -/
def checkReview (receipt : Verification) (review : Except Failure (Row Review)) :
    Except Failure Unit := do
  let review ← review
  require (review.payload.problemId = receipt.problemRevisionId ∧
      review.payload.targetDigest = receipt.targetDigest ∧
      review.payload.decision = .approved)
    (.refuse "REVIEW_INVALID" "Review does not approve this target revision.")

/-- The outcome must be about the submitted evidence, and publication needs the independent
kernel. -/
def checkOutcome (receipt : Verification) (outcome : VerificationOutcome) : Except Failure Unit := do
  require (outcome.1.targetDigest = receipt.targetDigest ∧
      outcome.1.challengeSha256 = receipt.challengeSha256 ∧
      outcome.1.environmentDigest = receipt.environmentDigest ∧
      outcome.1.candidateSha256 = receipt.candidateSha256)
    (.refuse "CHECKER_IDENTITY_MISMATCH" "Checker outcome does not match submitted evidence.")
  require (receipt.publication = true → outcome.1.status = .verified →
      outcome.1.assurance = .independentKernel)
    (.refuse "ASSURANCE_DOWNGRADE" "Publication requires successful independent kernel replay.")

/-- Run the checker under the review; `verdict` is what the checker returned or raised. -/
def runChecker (receipt : Verification) (review : Except Failure (Row Review))
    (verdict : Except Failure OutcomeData) : Except Failure VerificationOutcome := do
  checkReview receipt review
  let data ← verdict
  let outcome ← data.validate
  checkOutcome receipt outcome
  return outcome

/-- The blocked outcome of a failure: a boundary error keeps its code and texts. -/
def blockedOutcome (receipt : Verification) (failure : Failure) : OutcomeData :=
  let texts : String × String × String :=
    match failure with
    | .harness error => (error.code.toLower, error.message, error.remediation)
    | .internal _ => ("checker_failed", "The independent checker failed; no proof was accepted.",
        "Inspect acceptance worker logs using the receipt ID.")
  { status := .blocked
    assurance := .none
    code := texts.1
    message := texts.2.1
    remediation := texts.2.2
    targetDigest := receipt.targetDigest
    challengeSha256 := receipt.challengeSha256
    environmentDigest := receipt.environmentDigest
    candidateSha256 := receipt.candidateSha256 }

/-- Whatever a check raised becomes a blocked outcome. -/
def settleOutcome (receipt : Verification) (checked : Except Failure VerificationOutcome) :
    Except Failure VerificationOutcome :=
  match checked with
  | .ok outcome => .ok outcome
  | .error failure => (blockedOutcome receipt failure).validate

/-- The outcome that commits: a changed review blocks it. -/
def commitResult (current : Problem) (receipt : Verification) (outcome : VerificationOutcome) :
    OutcomeData :=
  if verificationRevisionChanged current receipt then
    { outcome.1 with
      status := .blocked
      assurance := .none
      code := "review_changed"
      message := "Target review changed during verification; submit a fresh check."
      remediation := "Review the current revision and submit a fresh verification." }
  else outcome.1

/-- A receipt with the fields of an outcome written over its own. -/
def Verification.resolved (receipt : Verification) (result : OutcomeData) : Verification :=
  { receipt with
    status := result.status
    assurance := result.assurance
    code := result.code
    message := result.message
    remediation := result.remediation
    targetDigest := result.targetDigest
    challengeSha256 := result.challengeSha256
    candidateSha256 := result.candidateSha256
    environmentDigest := result.environmentDigest
    axioms := result.axioms
    checkerVersions := result.checkerVersions }

/-- The claim of an accepted proof. -/
def verifiedClaim (receipt : Verification) (identifier : Id) (assurance : Assurance) : Claim where
  experimentId := receipt.experimentId
  problemRevisionId := receipt.problemRevisionId
  targetDigest := receipt.targetDigest
  challengeSha256 := receipt.challengeSha256
  reviewId := receipt.reviewId
  targetTheorem := receipt.targetTheorem
  proofStatus := .verified
  verificationId := identifier
  artifactId := receipt.artifactId
  assurance

/-- The receipt could not be replaced at the revision it was read at. -/
def revisionConflict : Failure :=
  .refuse "REVISION_CONFLICT" "A concurrent update superseded this command."

/-- Write the outcome: `row` is the receipt as the transaction read it and `current` the problem
under its lock. A receipt that already left the queue stays as it is. -/
def commitOutcome (env : Env) (actor : Principal) (identifier : Id) (receipt : Verification)
    (outcome : VerificationOutcome) (row : Row Verification) (current : Problem) (db : Db) :
    Except Failure Db := do
  let result := commitResult current receipt outcome
  if row.payload.status ≠ .queued then
    return db
  else
    let stored ← orThrow (db.verifications.find identifier) revisionConflict
    require (stored.revision = row.revision) revisionConflict
    let resolved := row.replace (row.payload.resolved result)
    if result.status = .verified then
      checkArtifactRecord db actor receipt.experimentId receipt.artifactId
      let claimId := env.newId 0
      let claims ← insertNew db.claims claimId
        { projectId := actor.projectId
          payload := verifiedClaim receipt identifier result.assurance }
      let verifications := db.verifications.put identifier
        (resolved.replace { resolved.payload with claimId := some claimId })
      return { db with verifications, claims }
    else
      return { db with verifications := db.verifications.put identifier resolved }

/-- The reads of `review_problem`. -/
def readReviewed (actor : Principal) (problemId : Id) (db : Db) : Except Failure (Row Problem) :=
  db.getProblem problemId actor

/-- Record an expert decision about the problem as it was read. -/
def commitReview (env : Env) (actor : Principal) (problemId : Id) (decision : SemanticReview)
    (row : Row Problem) (db : Db) : Except Failure Db := do
  let reviewId := env.newId 0
  let reviews ← insertNew db.reviews reviewId
    { projectId := actor.projectId
      payload :=
        { problemId
          targetDigest := row.payload.targetDigest
          decision
          reviewer := actor.id } }
  let stored ← orThrow (db.problems.find problemId) revisionConflict
  require (stored.revision = row.revision) revisionConflict
  let problems := db.problems.put problemId
    (row.replace { row.payload with semanticReview := decision, reviewId := some reviewId })
  return { db with reviews, problems }

end Checking

end PhysHarness
