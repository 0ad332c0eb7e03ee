import PhysHarness.Records

/-!
The command log and the database.

A command is fingerprinted by its operation and inputs together with the scope of its actor. The
fingerprint is kept as these values rather than as their digest.
-/
namespace PhysHarness

structure ExperimentRequest where
  campaignId : Id
  problemId : Id
  maxCost : Nat
  maxConcurrency : Nat
  maxTokens : Option Nat
  maxRuntimeSeconds : Nat
  sharing : Sharing := .verified
  deriving DecidableEq

inductive ExperimentAction where
  | start | pause | resume | cancel
  deriving DecidableEq

structure TaskRequest where
  branchId : Id
  objective : String
  dependencyIds : List Id := []
  detached : Bool := false
  deriving DecidableEq

/-- The operation and inputs of each command, as its fingerprint records them. -/
inductive Command where
  | createExperiment (request : ExperimentRequest)
  | transitionExperiment (id : Id) (action : ExperimentAction) (expectedRevision : Nat)
  | reviewProblem (id : Id) (decision : SemanticReview) (rationale : String)
  | reserveResources (experimentId : Id) (amount workers tokens : Nat)
      (modelTaskBinding : Option (Id × String × Nat))
  | settleResources (id : Id) (actual : Option Nat) (uncertain : Bool) (actualTokens : Nat)
  | createTask (request : TaskRequest) (delegatedFromTaskId : Option Id)
  | acquireTask (taskId : Id) (holder : String) (ttlSeconds : Nat)
  | renewTask (taskId : Id) (holder : String) (fence ttlSeconds : Nat)
  | renewTaskForCleanup (taskId : Id) (holder : String) (fence : Nat) (workerSlotId : Option Id)
      (ttlSeconds : Nat)
  | finishTask (taskId : Id) (holder : String) (fence : Nat) (evidenceIds : List Id)
      (status : TaskStatus)
  | retireQueuedAfterVerified (taskId receiptId : Id)
  | amendQueuedTaskObjective (taskId : Id) (expectedRevision : Nat) (objective : String)
  | bindSlot (taskId : Id) (holder : String) (fence : Nat) (slot : Id)
  | requestHandoff (taskId : Id) (reason : String) (waitTaskIds : List Id)
  | issueContinuation (taskId : Id) (holder : String) (fence : Nat) (sourceSessionId : Id)
      (sourceCheckpointDigest : Digest) (reason : String) (recoverExpired : Bool)
      (workspaceTicket : Option WorkspaceTicket)
  | consumeContinuation (taskId : Id) (holder : String) (fence : Nat) (ready : Ready)
      (successorModel : Option Value) (successorRuntimeLimits : Option Value) (mode : String)
  | restoreUnstartedContinuation (taskId : Id)
  | requeueSettledTerminal (taskId : Id) (holder : String) (fence : Nat)
  | retireFailedLocalWorkspace (workspaceId : Id) (expectedRevision : Nat)
      (expectedExecutionId : String) (evidenceArtifactId : Id)
  | reconcileOrphanWorkerSlot (taskId : Id)
  | reconcileModelReservations (taskId : Id)
  | trackModelReservation (taskId : Id) (holder : String) (fence : Nat) (reservationId : Id)
      (active : Bool)
  | runtimeSave (checkpoint : NativeCheckpoint) (manifest : Value)
  | verifyCandidate (experimentId artifactId : Id) (publication : Bool)
  | processVerification (receiptId : Id)
  deriving DecidableEq

/-- What a command returns, and an idempotent replay returns again. -/
inductive Reply where
  | record (id : Id) (revision : Nat)
  | reservation (id : Id) (workers : Nat)
  | settlement (id : Id) (state : ReservationState) (actual : Option Nat) (overrun : Bool)
  | lease (taskId : Id) (holder : String) (fence : Nat) (expiresAt : Time)
  | renewed (taskId : Id) (fence : Nat) (expiresAt : Time)
  | task (taskId : Id) (status : TaskStatus)
  | retirement (retired : Bool) (taskId : Id) (status : Option TaskStatus)
  | issued (taskId : Id) (ready : Ready)
  | slot (taskId : Id) (released : Bool)
  | workspaceRetired (workspaceId taskId : Id) (settled : List Id) (failedSessions : List Id)
  | reconciled (taskId : Id) (reservations : List Id) (pending : Nat)
  | verification (id : Id) (status : VerificationStatus)
  deriving DecidableEq

/-- Idempotency is scoped to the actor of the project. -/
structure CommandKey where
  projectId : ProjectId
  actorId : Id
  key : String
  deriving DecidableEq

structure Fingerprint where
  command : Command
  role : Role
  experimentId : Option Id
  branchId : Option Id
  agentOrchestrator : Bool
  deriving DecidableEq

structure CommandRow where
  fingerprint : Fingerprint
  result : Reply
  deriving DecidableEq

structure Db where
  campaigns : Table Id (Row Unit) := ∅
  experiments : Table Id (Row Experiment) := ∅
  problems : Table Id (Row Problem) := ∅
  reviews : Table Id (Row Review) := ∅
  branches : Table Id (Row Branch) := ∅
  artifacts : Table Id (Row Artifact) := ∅
  checkpoints : Table Id NativeCheckpoint := ∅
  tasks : Table Id (Row Task) := ∅
  messages : Table Id (Row Message) := ∅
  leases : Table Id Lease := ∅
  budgets : Table Id Budget := ∅
  reservations : Table Id Reservation := ∅
  modelReservations : Table Id (Row ModelReservation) := ∅
  sessions : Table Id (Row Session) := ∅
  links : Table Id (Row ContinuationLink) := ∅
  workspaces : Table Id (Row Workspace) := ∅
  operations : Table OperationKey (Row WorkspaceOperation) := ∅
  verifications : Table Id (Row Verification) := ∅
  claims : Table Id (Row Claim) := ∅
  commands : Table CommandKey CommandRow := ∅

/-- What one transaction does: refuse, or return the new state and a reply. -/
abbrev Transacted := Except Failure (Db × Reply)

end PhysHarness
