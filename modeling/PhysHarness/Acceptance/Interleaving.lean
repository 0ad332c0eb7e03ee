import PhysHarness.Acceptance
import PhysHarness.Lib.Transition

/-!
# Interleaved acceptance

Reviews, submissions and verifications interleave. A review and a submission read in one step and
commit in another; a verification reads the receipt, the problem, the candidate and the review one
after the other, runs the checker, and commits in a transaction that reads the receipt again, locks
the problem and then writes. Any number of calls are in flight, and each may be dropped at any
point.
-/
namespace PhysHarness

open Outcome

/-- How far a call of `process_verification` is, with what it has read. -/
inductive ProcessStage where
  | entered
  | received (receipt : Verification)
  | located (receipt : Verification) (problem : Problem)
  | prepared (receipt : Verification) (request : VerificationRequest)
  | decided (receipt : Verification) (outcome : VerificationOutcome)
  | opened (receipt : Verification) (outcome : VerificationOutcome) (row : Row Verification)
  | locked (receipt : Verification) (outcome : VerificationOutcome) (row : Row Verification)
      (current : Problem)

/-- A call in flight. -/
inductive AcceptanceCall where
  | review (actor : Principal) (problemId : Id) (decision : SemanticReview)
      (row : Option (Row Problem))
  | submit (actor : Principal) (experimentId artifactId : Id) (publication : Bool)
      (receipt : Option Verification)
  | process (actor : Principal) (identifier : Id) (stage : ProcessStage)
  | over

inductive AcceptanceRequest where
  | reviewProblem (actor : Principal) (problemId : Id) (decision : SemanticReview)
      (rationale : String)
  | verifyCandidate (actor : Principal) (experimentId artifactId : Id) (publication : Bool)
  | processVerification (actor : Principal) (identifier : Id)

/-- The guards of a method before its first read. -/
def AcceptanceRequest.begin : AcceptanceRequest → Except Failure AcceptanceCall
  | .reviewProblem actor problemId decision rationale => do
    requireRole actor [.reviewer]
    require (decision ≠ .pending ∧ blank rationale = false)
      (.refuse "INVALID_REVIEW" "A review needs a decision and substantive rationale." 422)
    return .review actor problemId decision none
  | .verifyCandidate actor experimentId artifactId publication => do
    researchRole actor
    return .submit actor experimentId artifactId publication none
  | .processVerification actor identifier => do
    require (actor.role ∈ [Role.operator, .verifier, .admin])
      (.refuse "FORBIDDEN" "Only the acceptance worker can process verification." 403)
    return .process actor identifier .entered

/-- The problem whose row a call has locked. -/
def AcceptanceCall.locks : AcceptanceCall → Option Id
  | .process _ _ (.locked receipt _ _ _) => some receipt.problemRevisionId
  | _ => none

structure AcceptanceSys where
  db : Db := {}
  calls : Table Nat AcceptanceCall := ∅

/-- A step of one call, or a record that another part of the service creates. -/
inductive AcceptanceLabel where
  | begin (id : Nat) (request : AcceptanceRequest)
  | advance (id : Nat) (env : Env) (verifier : VerificationRequest → Except Failure OutcomeData)
  | drop (id : Nat)
  | createProblem (id : Id) (projectId : ProjectId) (problem : Problem)
  | createArtifact (id : Id) (row : Row Artifact)
  | createClaim (id : Id) (row : Row Claim)
  | experiment (id : Id) (row : Row Experiment)

namespace AcceptanceSys

variable [ContentHash] (sys : AcceptanceSys) (env : Env) (id : Nat)

omit [ContentHash] in
/-- No other call has locked the problem. -/
def problemFree (problemId : Id) : Bool :=
  !sys.calls.anyRow fun other call => other ≠ id && call.locks = some problemId

omit [ContentHash] in
def setCall (call : AcceptanceCall) : AcceptanceSys :=
  { sys with calls := sys.calls.put id call }

omit [ContentHash] in
/-- End a call with the database it commits, or unchanged when it refuses. -/
def close (result : Except Failure Db) : AcceptanceSys :=
  match result with
  | .ok db => { sys.setCall id .over with db }
  | .error _ => sys.setCall id .over

/-- The outcome of the checks becomes the outcome to commit. -/
def conclude (actor : Principal) (identifier : Id) (receipt : Verification)
    (checked : Except Failure VerificationOutcome) : AcceptanceSys :=
  match settleOutcome receipt checked with
  | .ok outcome => sys.setCall id (.process actor identifier (.decided receipt outcome))
  | .error _ => sys.setCall id .over

def acceptanceKey (actor : Principal) (identifier : Id) : CommandKey :=
  commandKey actor ("acceptance-result:" ++ identifier)

/-- The next step of a call of `process_verification`. -/
def advanceProcess (verifier : VerificationRequest → Except Failure OutcomeData)
    (actor : Principal) (identifier : Id) (stage : ProcessStage) : AcceptanceSys :=
  match stage with
  | .entered =>
    match sys.db.getUnscoped sys.db.verifications identifier actor with
    | .error _ => sys.setCall id .over
    | .ok row =>
      if row.payload.status ≠ .queued then sys.setCall id .over
      else sys.setCall id (.process actor identifier (.received row.payload))
  | .received receipt =>
    match sys.db.getProblem receipt.problemRevisionId actor with
    | .error _ => sys.setCall id .over
    | .ok row => sys.setCall id (.process actor identifier (.located receipt row.payload))
  | .located receipt problem =>
    match prepareRequest receipt problem (readSource env actor receipt sys.db) with
    | .ok (request, none) =>
      sys.setCall id (.process actor identifier (.prepared receipt request))
    | .ok (_, some outcome) =>
      sys.conclude id actor identifier receipt
        (checkOutcome receipt outcome >>= fun _ => .ok outcome)
    | .error failure => sys.conclude id actor identifier receipt (.error failure)
  | .prepared receipt request =>
    let review := orThrow receipt.reviewId (.notFound "The requested project object was not found.")
      >>= fun reviewId => sys.db.getUnscoped sys.db.reviews reviewId actor
    sys.conclude id actor identifier receipt (runChecker receipt review (verifier request))
  | .decided receipt outcome =>
    -- a recorded outcome is returned again and changes nothing
    match sys.db.commands.find (acceptanceKey actor identifier) with
    | some _ => sys.setCall id .over
    | none =>
      match sys.db.getUnscoped sys.db.verifications identifier actor with
      | .error _ => sys.setCall id .over
      | .ok row => sys.setCall id (.process actor identifier (.opened receipt outcome row))
  | .opened receipt outcome row =>
    match sys.db.getProblem receipt.problemRevisionId actor with
    | .error _ => sys.setCall id .over
    | .ok current =>
      if sys.problemFree id receipt.problemRevisionId then
        sys.setCall id (.process actor identifier (.locked receipt outcome row current.payload))
      else sys
  | .locked receipt outcome row current =>
    if sys.db.commands.find (acceptanceKey actor identifier) = none then
      sys.close id (commitOutcome env actor identifier receipt outcome row current sys.db >>=
        fun db => .ok (db.logged actor ("acceptance-result:" ++ identifier)
          (.processVerification identifier) (.verification identifier outcome.1.status)))
    else sys.setCall id .over

/-- The next step of a call. A review waits for a lock on its problem. -/
def advanceCall (verifier : VerificationRequest → Except Failure OutcomeData) :
    AcceptanceCall → AcceptanceSys
  | .review actor problemId decision none =>
    match readReviewed actor problemId sys.db with
    | .error _ => sys.setCall id .over
    | .ok row => sys.setCall id (.review actor problemId decision (some row))
  | .review actor problemId decision (some row) =>
    if sys.problemFree id problemId then
      sys.close id (commitReview env actor problemId decision row sys.db)
    else sys
  | .submit actor experimentId artifactId publication none =>
    match readCandidate env actor experimentId artifactId publication sys.db with
    | .error _ => sys.setCall id .over
    | .ok receipt =>
      sys.setCall id (.submit actor experimentId artifactId publication (some receipt))
  | .submit actor _ _ _ (some receipt) =>
    sys.close id (insertNew sys.db.verifications (env.newId 0)
        { projectId := actor.projectId, payload := receipt } >>=
      fun verifications => .ok { sys.db with verifications })
  | .process actor identifier stage => sys.advanceProcess env id verifier actor identifier stage
  | .over => sys

/-- Insert a record that another part of the service creates. -/
def create (result : Except Failure Db) : AcceptanceSys :=
  match result with
  | .ok db => { sys with db }
  | .error _ => sys

def step (sys : AcceptanceSys) : AcceptanceLabel → AcceptanceSys
  | .begin id request =>
    match sys.calls.find id, request.begin with
    | none, .ok call => sys.setCall id call
    | _, _ => sys
  | .advance id env verifier =>
    match sys.calls.find id with
    | some call => sys.advanceCall env id verifier call
    | none => sys
  | .drop id => sys.setCall id .over
  | .createProblem id projectId problem =>
    sys.create (insertNew sys.db.problems id
        { projectId, payload := { problem with semanticReview := .pending, reviewId := none } } >>=
      fun problems => .ok { sys.db with problems })
  | .createArtifact id row =>
    sys.create (insertNew sys.db.artifacts id row >>=
      fun artifacts => .ok { sys.db with artifacts })
  | .createClaim id row =>
    sys.create (insertNew sys.db.claims id
        { row with payload := { row.payload with proofStatus := .unproved } } >>=
      fun claims => .ok { sys.db with claims })
  | .experiment id row =>
    { sys with db := { sys.db with experiments := sys.db.experiments.put id row } }

/-- Every state reached from an empty installation. -/
def run (labels : List AcceptanceLabel) : AcceptanceSys := Transition.run step {} labels

end AcceptanceSys

end PhysHarness
