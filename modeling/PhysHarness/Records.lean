import PhysHarness.Domain
import PhysHarness.Lib.Table

/-!
Canonical records and ledgers.

Every record row has its project, its revision and a payload. The payload keeps the fields that some
modelled command reads or writes. Budgets, reservations and leases are rows of their own tables.
-/
namespace PhysHarness

/-- One row of the records table. -/
structure Row (α : Type) where
  projectId : ProjectId
  revision : Nat := 1
  payload : α
  deriving DecidableEq

inductive ExperimentStatus where
  | created | queued | running | paused | blocked | cancelled
  deriving DecidableEq

inductive Sharing where
  | none | verified | ideas
  deriving DecidableEq

structure Experiment where
  problemId : Id
  targetDigest : Digest
  status : ExperimentStatus := .created
  startedAt : Option Time := none
  maxRuntimeSeconds : Nat
  sharing : Sharing := .verified
  budgetReconciliationRequired : Bool := false
  deriving DecidableEq

inductive SemanticReview where
  | pending | approved | rejected
  deriving DecidableEq

structure Problem where
  campaignId : Id
  targetDigest : Digest
  targetTheorem : String := "target"
  formalStatement : String := ""
  environmentDigest : Digest
  definitionHoles : Bool := false
  semanticReview : SemanticReview := .pending
  reviewId : Option Id := none
  deriving DecidableEq

/-- One recorded expert decision about a problem's target. -/
structure Review where
  problemId : Id
  targetDigest : Digest
  decision : SemanticReview
  reviewer : Id
  deriving DecidableEq

structure Branch where
  experimentId : Id
  parentId : Option Id := none
  originActorId : Id
  referee : Bool := false
  parked : Bool := false
  deriving DecidableEq

/-- The part of an operator observation that workspace retirement reads. -/
structure RecoveryProvenance where
  workspaceId : Option Id := none
  taskId : Option Id := none
  executionId : Option String := none
  destructionConfirmed : Bool := false
  absenceConfirmed : Bool := false
  archiveSha256 : Option Digest := none
  predispatchRejectedPath : Option String := none
  deriving DecidableEq

structure Artifact where
  experimentId : Option Id := none
  branchId : Option Id := none
  taskId : Option Id := none
  originActorId : Id
  artifactKind : String
  sha256 : Digest
  submittedBy : Id
  trustedInput : Bool := false
  contextFormat : Option String := none
  createdAt : Time := 0
  provenance : RecoveryProvenance := {}
  deriving DecidableEq

inductive TaskStatus where
  | queued | running | completed | failed | blocked
  deriving DecidableEq

/-- The statuses that finishing a task gives it. -/
def TaskStatus.terminal : TaskStatus → Bool
  | .completed | .failed | .blocked => true
  | .queued | .running => false

structure WorkspaceTicket where
  artifactId : Id
  archiveSha256 : Digest
  environmentDigest : Digest
  deriving DecidableEq

/-- A recorded request of the running holder to hand its task to a successor session. -/
structure HandoffIntent where
  holder : String
  fence : Nat
  reason : String
  waitTaskIds : List Id := []
  peerWait : Option Value := none
  deriving DecidableEq

/-- The successor that a consumed ticket names. -/
structure SuccessorChoice where
  model : Value
  runtime : String
  runtimeLimits : Value
  mode : String
  deriving DecidableEq

/-- A runnable ticket for the successor of one settled session. A ticket restored after a crash
still carries the successor that was chosen for it. -/
structure Ready where
  sourceSessionId : Id
  sourceCheckpointDigest : Digest
  reason : String
  recoverExpired : Bool
  waitTaskIds : List Id
  peerWait : Option Value
  model : Value
  experimentId : Id
  branchId : Id
  targetDigest : Digest
  reviewId : Option Id
  environmentDigest : Digest
  runtime : String
  runtimeLimits : Value
  stagnationState : Value
  toolDefinitionDigest : Option Digest
  workspacePolicy : Option Value
  portableCheckpoint : Option (Id × Digest)
  workspaceTicket : Option WorkspaceTicket
  ordinal : Nat
  issuedAt : Time
  choice : Option SuccessorChoice := none
  deriving DecidableEq

/-- A ticket in the hands of the holder that consumed it. -/
structure Consumed where
  ready : Ready
  successor : SuccessorChoice
  holder : String
  fence : Nat
  consumedAt : Time
  deriving DecidableEq

/-- What a joined child returns to its parent. -/
structure ReturnResult where
  executionStatus : Option TaskStatus := none
  artifactIds : List Id := []
  summary : Option String := none
  executionFailure : Option (TaskStatus × List Id) := none
  evidenceStatus : String := "unverified"
  deriving DecidableEq

structure Task where
  experimentId : Id
  branchId : Id
  originActorId : Id
  createdBy : Id
  objective : String
  supersededObjectives : List (Nat × String) := []
  supersededDropped : Option (Nat × Digest) := none
  dependencyIds : List Id := []
  detached : Bool := false
  delegatedFromTaskId : Option Id := none
  replyToParentTaskId : Option Id := none
  reviewAssignment : Bool := false
  status : TaskStatus := .queued
  executionStatus : Option TaskStatus := none
  errorCode : Option String := none
  evidenceIds : List Id := []
  returnResult : Option ReturnResult := none
  holder : Option String := none
  fence : Option Nat := none
  cancelRequested : Bool := false
  workerSlotId : Option Id := none
  workspacePolicy : Option Value := none
  progressExhausted : Bool := false
  terminalRecoveryCount : Nat := 0
  terminalRecovery : Option (Id × Digest) := none
  handoffIntent : Option HandoffIntent := none
  workspaceHandoffTicket : Option WorkspaceTicket := none
  readyContinuation : Option Ready := none
  consumedContinuation : Option Consumed := none
  retiredContinuation : Option Ready := none
  continuationCount : Nat := 0
  rootReplansUsed : Nat := 0
  rootReplanLimit : Nat := 0
  rootTargetDigest : Option Digest := none
  stagnationState : Option Value := none
  deliveredChildTaskIds : List Id := []
  supersededByReceiptId : Option Id := none
  recoveryEvidenceArtifactId : Option Id := none
  deriving DecidableEq

/-- A direct message; the notice of a finished joined child carries its returned result. -/
structure Message where
  experimentId : Id
  senderBranchId : Id
  recipientBranchId : Id
  replyToParentTaskId : Option Id := none
  childTaskId : Option Id := none
  artifactIds : List Id := []
  result : Option ReturnResult := none
  deriving DecidableEq

structure Lease where
  holder : String
  fence : Nat
  expiresAt : Time
  deriving DecidableEq

/-- The counters of one experiment. The code never checks their sign, so neither does the type. -/
structure Budget where
  maxCost : Nat
  maxConcurrency : Nat
  maxTokens : Option Nat
  reserved : Int := 0
  spent : Int := 0
  activeWorkers : Int := 0
  tokensReserved : Int := 0
  tokensSpent : Int := 0
  deriving DecidableEq

inductive ReservationState where
  | active | uncertain | settled
  deriving DecidableEq

structure Reservation where
  experimentId : Id
  reserved : Nat
  workers : Nat
  state : ReservationState := .active
  actual : Option Nat := none
  tokensReserved : Nat := 0
  tokensActual : Option Nat := none
  deriving DecidableEq

/-- The binding of a model reservation to the task whose turn it pays for. -/
structure ModelReservation where
  experimentId : Id
  taskId : Id
  reservationId : Id
  holder : String
  fence : Nat
  active : Bool := true
  deriving DecidableEq

inductive SessionStatus where
  | ready | running | completed | interrupted | failed | uncertain | handedOff
  deriving DecidableEq

structure Session where
  experimentId : Id
  taskId : Id
  nativeRecordId : Id
  runtime : String
  model : Value
  status : SessionStatus
  checkpointArtifactId : Id
  inputTokens : Nat
  outputTokens : Nat
  toolDefinitionDigest : Option Digest := none
  createdAt : Time := 0
  errorCode : Option String := none
  recoveryEvidenceArtifactId : Option Id := none
  deriving DecidableEq

inductive LinkStatus where
  | issued | consumed | started | retired
  deriving DecidableEq

/-- One step of a task's session lineage. `readyDigest` is kept as the ticket it digests. -/
structure ContinuationLink where
  experimentId : Id
  taskId : Id
  ordinal : Nat
  status : LinkStatus
  sourceSessionRecordId : Id
  sourceSessionId : Id
  sourceCheckpointArtifactId : Id
  sourceCheckpointDigest : Digest
  sourceModel : Value
  sourceRuntime : String
  sourceRuntimeLimits : Value
  readyDigest : Ready
  issuedAt : Time
  holder : Option String := none
  fence : Option Nat := none
  consumedAt : Option Time := none
  successor : Option SuccessorChoice := none
  successorSessionId : Option Id := none
  successorRecordId : Option Id := none
  startedAt : Option Time := none
  retiredByReceiptId : Option Id := none
  deriving DecidableEq

/-- The `stagnation` entry of a native state, when the key is present. -/
inductive Stagnation where
  | progress (exhausted : Bool) (content : Value)
  | malformed (truthy : Bool)
  deriving DecidableEq

/-- The entries of a native state that controllers read. -/
structure NativeState where
  settledBoundary : Bool := false
  pendingOperation : Bool := false
  pendingToolCall : Bool := false
  terminalResponsePending : Bool := false
  stagnation : Option Stagnation := none
  deriving DecidableEq

/-- A runtime checkpoint as its artifact decodes. -/
structure NativeCheckpoint where
  sessionId : Id
  runtime : String
  model : Value
  limits : Value
  status : SessionStatus
  turns : Nat
  inputTokens : Nat
  outputTokens : Nat
  native : NativeState
  stateDigest : Digest
  deriving DecidableEq

inductive Provider where
  | e2b | localDocker
  deriving DecidableEq

structure ProviderSpec where
  provider : Provider
  templateId : String
  timeoutSeconds : Nat
  deriving DecidableEq

inductive WorkspaceStatus where
  | provisioning | ready | reconciliationRequired | destroyed
  deriving DecidableEq

inductive BillingStatus where
  | reconciled | unreconciled
  deriving DecidableEq

/-- The commands a workspace operation can carry. -/
inductive WorkspaceCommand where
  | provision | run | upload | download | restore | readRange | promoteFile | export | destroy
  deriving DecidableEq

/-- The arguments of a workspace operation that some guard reads back. -/
structure OperationInputs where
  executionId : Option String := none
  path : Option String := none
  offset : Option Int := none
  length : Option Int := none
  actualCostUnits : Option Nat := none
  costBoundUnits : Option Nat := none
  finalCheckpoint : Bool := false
  arguments : Value := ""
  deriving DecidableEq

/-- An operation identity is the digest of its parts, kept as the parts. -/
structure OperationKey where
  projectId : ProjectId
  taskId : Id
  workspaceId : Id
  operationId : String
  deriving DecidableEq

structure Workspace where
  taskId : Id
  experimentId : Id
  branchId : Id
  holder : String
  fence : Nat
  providerSpec : ProviderSpec
  effectiveTimeoutSeconds : Nat
  reservationId : Id
  sharedWorkerSlotId : Option Id
  costBound : Nat
  status : WorkspaceStatus := .provisioning
  executionId : Option String := none
  activeOperation : Option OperationKey := none
  destructionConfirmed : Bool := false
  billingStatus : Option BillingStatus := none
  actualCost : Option Nat := none
  checkpointArtifactId : Option Id := none
  restoredFrom : Option (Id × Digest × String) := none
  destructionEvidenceArtifactId : Option Id := none
  deriving DecidableEq

inductive OperationStatus where
  | pending | completed | rejected | failed | reconciliationRequired
  deriving DecidableEq

/-- What an operation left behind: a completed value, the workspace as the operation left it, or the
code and message of a failure. -/
inductive OperationResult where
  | value (content : Value)
  | workspace (id : Id) (row : Row Workspace)
  | failure (code : String) (message : Option String)
  deriving DecidableEq

def OperationResult.code? : OperationResult → Option String
  | .value _ | .workspace _ _ => none
  | .failure code _ => some code

structure WorkspaceOperation where
  originActorId : Id
  experimentId : Id
  branchId : Id
  taskId : Id
  workspaceId : Id
  command : WorkspaceCommand
  holder : String
  fence : Nat
  providerSpec : ProviderSpec
  workerSlotId : Option Id
  inputs : OperationInputs
  status : OperationStatus := .pending
  result : Option OperationResult := none
  deriving DecidableEq

inductive VerificationStatus where
  | queued | verified | rejected | blocked
  deriving DecidableEq

inductive Assurance where
  | none | kernel | independentKernel
  deriving DecidableEq

/-- A verification receipt and the reviewed target it pins. -/
structure Verification where
  experimentId : Id
  problemRevisionId : Id
  targetDigest : Digest
  challengeSha256 : Digest
  reviewId : Option Id
  targetTheorem : String
  artifactId : Id
  candidateSha256 : Digest
  environmentDigest : Digest
  publication : Bool
  status : VerificationStatus := .queued
  assurance : Assurance := .none
  code : String := ""
  message : String := ""
  remediation : String := ""
  axioms : List String := []
  checkerVersions : List (String × String) := []
  claimId : Option Id := none
  deriving DecidableEq

inductive ProofStatus where
  | unproved | verified
  deriving DecidableEq

structure Claim where
  experimentId : Id
  problemRevisionId : Id
  targetDigest : Digest
  challengeSha256 : Digest
  reviewId : Option Id
  targetTheorem : String
  proofStatus : ProofStatus
  verificationId : Id
  artifactId : Id
  assurance : Assurance
  deriving DecidableEq

end PhysHarness
