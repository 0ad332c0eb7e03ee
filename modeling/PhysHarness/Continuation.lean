import PhysHarness.Evidence
import PhysHarness.Resources
import Mathlib.Data.List.MinMax
import Mathlib.Data.Prod.Lex
import Mathlib.Data.String.Basic
import Mathlib.Order.Interval.Finset.Nat

/-!
Fenced, canonical handoffs between settled native sessions.

A settled source session is turned into one runnable ticket, the ticket is consumed by the holder
of the next lease, and the first save of the successor session starts the link between the two.
-/
namespace PhysHarness

open Outcome

variable {db after : Db} {env : Env} {actor : Principal} {reply : Reply}

def lineageMismatch (message : String) : Failure :=
  .refuse "CONTINUATION_LINEAGE_MISMATCH" message

def recoveryRequired (message : String) : Failure :=
  .refuse "RECOVERY_RECONCILIATION_REQUIRED" message

def controllerRequired (actor : Principal) : Except Failure Unit :=
  controllerOnly actor "Controller authority is required."

namespace Db

variable (db : Db)

/-- The single link of a task with an ordinal. -/
def continuationLink (actor : Principal) (taskId : Id) (ordinal : Nat) :
    Except Failure (Id × Row ContinuationLink) :=
  let found := db.links.select fun _ row =>
    row.projectId = actor.projectId && row.payload.taskId = taskId &&
      row.payload.ordinal = ordinal
  match found with
  | [link] => .ok link
  | _ => .error (lineageMismatch "Exact continuation link is unavailable.")

/-- A model reservation of the task is still open. -/
def pendingModelReservation (actor : Principal) (taskId : Id) : Bool :=
  db.modelReservations.anyRow fun _ row =>
    row.projectId = actor.projectId && row.payload.taskId = taskId && row.payload.active

/-- A workspace of the slot is not destroyed. -/
def slotWorkspaceOpen (actor : Principal) (slotId : Id) : Bool :=
  db.workspaces.anyRow fun _ row =>
    row.projectId = actor.projectId && row.payload.sharedWorkerSlotId = some slotId &&
      row.payload.status ≠ .destroyed

/-- The sessions of a task. -/
def taskSessions (actor : Principal) (taskId : Id) : List (Id × Row Session) :=
  db.sessions.select fun _ row => row.projectId = actor.projectId && row.payload.taskId = taskId

/-- The links of a task. -/
def taskLinks (actor : Principal) (taskId : Id) : List (Id × Row ContinuationLink) :=
  db.links.select fun _ row => row.projectId = actor.projectId && row.payload.taskId = taskId

/-- The session records that carry a native session identity. -/
def nativeSessions (actor : Principal) (nativeId : Id) : List (Id × Row Session) :=
  db.sessions.select fun _ row =>
    row.projectId = actor.projectId && row.payload.nativeRecordId = nativeId

variable [ContentHash]

/-- The checkpoint that a native checkpoint artifact decodes to. -/
def loadNativeCheckpoint (artifactId : Id) (actor : Principal) :
    Except Failure NativeCheckpoint := do
  let artifact ← db.getArtifact artifactId actor
  require (artifact.payload.artifactKind = "native_checkpoint")
    (.refuse "NATIVE_CHECKPOINT_SCOPE" "Artifact is not a native checkpoint.")
  orThrow (db.checkpoints.find artifactId)
    (.refuse "NATIVE_CHECKPOINT_SCOPE" "Native checkpoint owner is missing.")

end Db

/-- Settle an idle worker slot, which costs nothing, and free its worker. -/
def settleSlot (budget : Budget) (slot : Reservation) : Budget × Reservation :=
  ({ budget with activeWorkers := budget.activeWorkers - 1 },
    { slot with state := .settled, actual := some 0, tokensActual := some 0 })

/-- A worker slot is one worker without cost or tokens. -/
def Reservation.isSlotOf (slot : Reservation) (experimentId : Id) : Prop :=
  slot.experimentId = experimentId ∧ slot.workers = 1 ∧ slot.reserved = 0 ∧ slot.tokensReserved = 0

instance (slot : Reservation) (experimentId : Id) : Decidable (slot.isSlotOf experimentId) :=
  inferInstanceAs (Decidable (_ ∧ _))

/-- Settle the shared capacity of the source in the transaction that issues its ticket. -/
def releaseSourceSlot (db : Db) (actor : Principal) (experimentId : Id) (slotId : Option Id) :
    Except Failure (Table Id Budget × Table Id Reservation) :=
  match slotId with
  | none => .ok (db.budgets, db.reservations)
  | some id => do
    let changed := Failure.refuse "WORKER_SLOT_AUTHORITY" "Source slot binding changed."
    let slot ← orThrow (db.reservations.find id) changed
    require (slot.isSlotOf experimentId ∧ slot.state ≠ .uncertain) changed
    require (db.slotWorkspaceOpen actor id = false)
      (recoveryRequired "Source VM is not destroyed.")
    if slot.state = .active then
      let error := Failure.refuse "WORKER_SLOT_AUTHORITY" "Worker capacity accounting changed."
      let budget ← orThrow (db.budgets.find experimentId) error
      require (1 ≤ budget.activeWorkers) error
      let ledger := settleSlot budget slot
      return (db.budgets.put experimentId ledger.1, db.reservations.put id ledger.2)
    else
      return (db.budgets, db.reservations)

/-- Releasing the source slot writes nothing, or settles an active slot of the experiment. -/
theorem releaseSourceSlot_cases {experimentId : Id} {slotId : Option Id}
    {ledger : Table Id Budget × Table Id Reservation}
    (returned : releaseSourceSlot db actor experimentId slotId = .ok ledger) :
    ledger = (db.budgets, db.reservations) ∨ ∃ id slot budget,
      db.reservations.find id = some slot ∧ slot.isSlotOf experimentId ∧ slot.state = .active ∧
      db.budgets.find experimentId = some budget ∧
      ledger = (db.budgets.put experimentId (settleSlot budget slot).1,
        db.reservations.put id (settleSlot budget slot).2) := by
  cases slotId with
  | none =>
    simp only [releaseSourceSlot, Except.ok.injEq] at returned
    exact .inl returned.symm
  | some id =>
    simp only [releaseSourceSlot, bind_ok, require_ok, orThrow_ok, exists_const] at returned
    obtain ⟨slot, found, ⟨bound, -⟩, -, returned⟩ := returned
    split at returned
    next active =>
      simp only [bind_ok, require_ok, orThrow_ok, exists_const, pure_ok] at returned
      obtain ⟨budget, counted, -, rfl⟩ := returned
      exact .inr ⟨id, slot, budget, found, bound, active, counted, rfl⟩
    · simp only [pure_ok] at returned
      exact .inl returned.symm

section Issuing

variable [ContentHash]

/-- The lease that authorises issuing: the live fence, or the expired one of a lost holder. -/
def issuingLease (db : Db) (env : Env) (taskId : Id) (holder : String) (fence : Nat)
    (recoverExpired : Bool) : Except Failure Lease :=
  if recoverExpired then do
    let error := Failure.refuse "STALE_LEASE" "Recovery requires the expired source fence."
    let lease ← orThrow (db.leases.find taskId) error
    require (lease.holder = holder ∧ lease.fence = fence ∧ lease.expiresAt ≤ env.now) error
    return lease
  else db.fenced env.now taskId holder fence

/-- Only a recorded intent, or the automatic context boundary, may hand off. -/
def checkIntent (task : Task) (holder : String) (fence : Nat) (reason : String) :
    Except Failure Unit :=
  match task.handoffIntent with
  | some intent =>
    require (intent.holder = holder ∧ intent.fence = fence ∧ intent.reason = reason)
      (.refuse "HANDOFF_INTENT_MISMATCH" "Handoff intent changed.")
  | none =>
    require (reason = "automatic_context_boundary")
      (.refuse "HANDOFF_INTENT_REQUIRED" "No authorized handoff intent exists.")

/-- The one handed-off session that a ticket continues. -/
def handoffSource (db : Db) (actor : Principal) (taskId sourceSessionId : Id) :
    Except Failure (Id × Session) :=
  match db.nativeSessions actor sourceSessionId with
  | [source] => do
    require (source.2.payload.taskId = taskId)
      (.refuse "HANDOFF_SOURCE_MISMATCH" "Source session is absent or out of scope.")
    require (source.2.payload.status = .handedOff)
      (.refuse "HANDOFF_SOURCE_UNSETTLED" "Source session is not terminal for handoff.")
    return (source.1, source.2.payload)
  | _ => .error (.refuse "HANDOFF_SOURCE_MISMATCH" "Source session is absent or out of scope.")

/-- The source's progress state, which must be an object when it is recorded. -/
def stagnationOf (native : NativeState) : Except Failure Value :=
  match native.stagnation with
  | none => .ok "{}"
  | some (.progress _ content) => .ok content
  | some (.malformed _) =>
    .error (.refuse "CONTINUATION_STALE" "Source progress state is malformed.")

/-- The source checkpoint is the one named, settled, and made progress. -/
def checkSource (source : Session) (checkpoint : NativeCheckpoint) (experimentId : Id)
    (sourceSessionId : Id) (sourceCheckpointDigest : Digest) : Except Failure Unit := do
  require (checkpoint.stateDigest = sourceCheckpointDigest ∧
      checkpoint.sessionId = sourceSessionId ∧ checkpoint.status = .handedOff ∧
      checkpoint.model = source.model ∧ source.experimentId = experimentId)
    (.refuse "HANDOFF_SOURCE_MISMATCH" "Source checkpoint digest changed.")
  require (checkpoint.native.settledBoundary = true ∧
      checkpoint.native.pendingOperation = false ∧ checkpoint.native.pendingToolCall = false)
    (.refuse "HANDOFF_SOURCE_UNSETTLED" "Source has pending native effects.")
  require (1 ≤ checkpoint.turns ∧ 1 ≤ checkpoint.inputTokens)
    (.refuse "HANDOFF_NO_PROGRESS" "Source made no billable progress.")

/-- The holder's VM, when it had one, must survive in a ticket bound to the task. -/
def checkTicket (db : Db) (env : Env) (actor : Principal) (taskId experimentId : Id)
    (holder : String) (fence : Nat) (environmentDigest : Digest)
    (ticket : Option WorkspaceTicket) : Except Failure Unit :=
  match ticket with
  | none =>
    require (db.workspaces.anyRow (fun _ row =>
        row.projectId = actor.projectId && row.payload.taskId = taskId &&
          row.payload.holder = holder && row.payload.fence = fence) = false)
      (.refuse "WORKSPACE_RESTORE_REQUIRED" "Source VM has no durable handoff archive.")
  | some ticket => do
    let artifact ← db.getArtifact ticket.artifactId actor
    require (artifact.payload.experimentId = some experimentId ∧
        artifact.payload.taskId = some taskId ∧
        artifact.payload.sha256 = ticket.archiveSha256 ∧
        ticket.environmentDigest = environmentDigest)
      (.refuse "HANDOFF_WORKSPACE_MISMATCH" "Workspace archive binding changed.")
    let _ ← orThrow (env.content artifact.payload.sha256)
      (.refuse "ARTIFACT_NOT_FOUND" "Artifact bytes are unavailable." 404)

/-- The newest portable checkpoint of the task. -/
def portableCheckpoint (db : Db) (actor : Principal) (taskId experimentId branchId : Id) :
    Option (Id × Digest) :=
  let candidates := db.artifacts.select fun _ row =>
    row.projectId = actor.projectId && row.payload.experimentId = some experimentId &&
      row.payload.branchId = some branchId && row.payload.artifactKind = "checkpoint" &&
      row.payload.contextFormat ∈
        [some "physharness.portable-context.v1", some "physharness.research-notes.v1"] &&
      row.payload.taskId = some taskId
  (candidates.argmax fun row => toLex (row.2.payload.createdAt, row.1)).map fun found =>
    (found.1, found.2.payload.sha256)

/-- The link of the newest ordinal. -/
def headLink (links : List (Id × Row ContinuationLink)) : Option (Id × Row ContinuationLink) :=
  links.argmax fun link => link.2.payload.ordinal

/-- The earlier links of a task are exactly the started ordinals before a new one, and the newest
of them ends in the source. -/
def checkPriorLinks (links : List (Id × Row ContinuationLink)) (ordinal : Nat)
    (sourceSessionId : Id) : Except Failure Unit := do
  require (links.length = ordinal - 1 ∧
      (links.map fun link => link.2.payload.ordinal).toFinset = Finset.Ico 1 ordinal ∧
      ∀ link ∈ links, link.2.payload.status = .started)
    (lineageMismatch "Prior continuation links are unresolved.")
  require (∀ head ∈ headLink links, head.2.payload.successorSessionId = some sourceSessionId)
    (.refuse "HANDOFF_SOURCE_NOT_HEAD"
      "Handoff source is not the latest session in this task's continuation chain.")

/-- The replan policy of an unproved root task. -/
def checkReplan (task : Task) (experiment : Experiment) (reason : String) : Except Failure Unit :=
  require (reason = "root_unproved_replan" →
      task.rootReplansUsed < task.rootReplanLimit ∧
        task.rootTargetDigest = some experiment.targetDigest)
    (.refuse "ROOT_REPLAN_EXHAUSTED" "Root continuation policy is exhausted.")

/-- The ticket that a settled source is turned into. -/
def readyTicket (env : Env) (task : Task) (problem : Problem) (source : Session)
    (checkpoint : NativeCheckpoint) (stagnationState : Value) (reason : String)
    (recoverExpired : Bool) (portable : Option (Id × Digest))
    (ticket : Option WorkspaceTicket) : Ready where
  sourceSessionId := source.nativeRecordId
  sourceCheckpointDigest := checkpoint.stateDigest
  reason
  recoverExpired
  waitTaskIds := (task.handoffIntent.map (·.waitTaskIds)).getD []
  peerWait := task.handoffIntent.bind (·.peerWait)
  model := source.model
  experimentId := task.experimentId
  branchId := task.branchId
  targetDigest := problem.targetDigest
  reviewId := problem.reviewId
  environmentDigest := problem.environmentDigest
  runtime := checkpoint.runtime
  runtimeLimits := checkpoint.limits
  stagnationState
  toolDefinitionDigest := source.toolDefinitionDigest
  workspacePolicy := task.workspacePolicy
  portableCheckpoint := portable
  workspaceTicket := ticket
  ordinal := task.continuationCount + 1
  issuedAt := env.now

/-- The task after its ticket was issued. -/
def issuedTask (task : Task) (ready : Ready) : Task :=
  { task with
    status := .queued
    holder := none
    handoffIntent := none
    workspaceHandoffTicket := none
    readyContinuation := some ready
    continuationCount := ready.ordinal
    rootReplansUsed :=
      task.rootReplansUsed + if ready.reason = "root_unproved_replan" then 1 else 0
    stagnationState := some ready.stagnationState
    deliveredChildTaskIds :=
      (task.deliveredChildTaskIds ++ ready.waitTaskIds).eraseDups.mergeSort (· ≤ ·) }

/-- The link of a new ticket. -/
def issuedLink (task : Task) (taskId sourceRecordId : Id) (source : Session) (ready : Ready) :
    ContinuationLink where
  experimentId := task.experimentId
  taskId
  ordinal := ready.ordinal
  status := .issued
  sourceSessionRecordId := sourceRecordId
  sourceSessionId := ready.sourceSessionId
  sourceCheckpointArtifactId := source.checkpointArtifactId
  sourceCheckpointDigest := ready.sourceCheckpointDigest
  sourceModel := ready.model
  sourceRuntime := ready.runtime
  sourceRuntimeLimits := ready.runtimeLimits
  readyDigest := ready
  issuedAt := ready.issuedAt

def issueAction (env : Env) (actor : Principal) (taskId : Id) (holder : String) (fence : Nat)
    (sourceSessionId : Id) (sourceCheckpointDigest : Digest) (reason : String)
    (recoverExpired : Bool) (workspaceTicket : Option WorkspaceTicket) (db : Db) : Transacted := do
  let task ← db.getTask taskId actor
  let experimentId := task.payload.experimentId
  let _ ← db.active env.now experimentId actor
  let lease ← issuingLease db env taskId holder fence recoverExpired
  checkIntent task.payload holder fence reason
  let experiment ← db.getExperiment experimentId actor
  checkReplan task.payload experiment.payload reason
  let source ← handoffSource db actor taskId sourceSessionId
  let checkpoint ← db.loadNativeCheckpoint source.2.checkpointArtifactId actor
  let stagnationState ← stagnationOf checkpoint.native
  checkSource source.2 checkpoint experimentId sourceSessionId sourceCheckpointDigest
  require (db.pendingModelReservation actor taskId = false)
    (recoveryRequired "Outstanding model reservation blocks handoff.")
  let problem ← db.getProblem experiment.payload.problemId actor
  require (problem.payload.targetDigest = experiment.payload.targetDigest ∧
      problem.payload.semanticReview = .approved)
    (.refuse "TARGET_CHANGED" "Reviewed target changed before handoff.")
  let ticket := workspaceTicket.or task.payload.workspaceHandoffTicket
  checkTicket db env actor taskId experimentId holder fence problem.payload.environmentDigest ticket
  let portable := portableCheckpoint db actor taskId experimentId task.payload.branchId
  let ready := readyTicket env task.payload problem.payload source.2 checkpoint stagnationState
    reason recoverExpired portable ticket
  checkPriorLinks (db.taskLinks actor taskId) ready.ordinal sourceSessionId
  let ledger ← releaseSourceSlot db actor experimentId task.payload.workerSlotId
  let tasks := db.tasks.put taskId (task.replace (issuedTask task.payload ready))
  let _ ← checkTaskRecord db actor experimentId taskId
  let links ← insertNew db.links (env.newId 0)
    { projectId := actor.projectId
      payload := issuedLink task.payload taskId source.1 source.2 ready }
  let leases := db.leases.put taskId { lease with expiresAt := 0 }
  return ({ db with budgets := ledger.1, reservations := ledger.2, tasks, links, leases },
    .issued taskId ready)

theorem issue_cases {taskId : Id} {holder : String} {fence : Nat} {sourceSessionId : Id}
    {digest : Digest} {reason : String} {recoverExpired : Bool} {given : Option WorkspaceTicket}
    (returned : issueAction env actor taskId holder fence sourceSessionId digest reason
      recoverExpired given db = .ok (after, reply)) :
    ∃ task lease source problem checkpoint stagnation portable ticket ledger,
      let ready := readyTicket env task.payload problem source.2 checkpoint stagnation reason
        recoverExpired portable ticket
      db.tasks.find taskId = some task ∧ task.projectId = actor.projectId ∧
      issuingLease db env taskId holder fence recoverExpired = .ok lease ∧
      handoffSource db actor taskId sourceSessionId = .ok source ∧
      checkSource source.2 checkpoint task.payload.experimentId sourceSessionId digest = .ok () ∧
      checkPriorLinks (db.taskLinks actor taskId) ready.ordinal sourceSessionId = .ok () ∧
      releaseSourceSlot db actor task.payload.experimentId task.payload.workerSlotId =
        .ok ledger ∧
      db.links.find (env.newId 0) = none ∧
      after = { db with
        budgets := ledger.1
        reservations := ledger.2
        tasks := db.tasks.put taskId (task.replace (issuedTask task.payload ready))
        links := db.links.put (env.newId 0)
          { projectId := actor.projectId
            payload := issuedLink task.payload taskId source.1 source.2 ready }
        leases := db.leases.put taskId { lease with expiresAt := 0 } } := by
  simp only [issueAction, bind_ok, require_ok, exists_const, insertNew_ok, pure_ok,
    Prod.mk.injEq] at returned
  obtain ⟨task, read, -, -, lease, held, _, -, -, -, _, -, source, selected, checkpoint, -,
    stagnation, -, _, settled, -, problem, -, -, _, -, _, prior, ledger, released, -, -, _,
    ⟨fresh, rfl⟩, rfl, -⟩ := returned
  have found := Db.getRow_ok.mp read
  exact ⟨task, lease, source, problem.payload, checkpoint, stagnation, _, _, ledger, found.1,
    found.2.1, held, selected, settled, prior, released, fresh, rfl⟩

/-- Convert a settled handed-off checkpoint into one runnable successor. -/
def issueContinuation (db : Db) (env : Env) (taskId : Id) (holder : String) (fence : Nat)
    (sourceSessionId : Id) (sourceCheckpointDigest : Digest) (reason : String)
    (recoverExpired : Bool) (workspaceTicket : Option WorkspaceTicket) (actor : Principal)
    (key : String) : Transacted := do
  controllerRequired actor
  execute db env actor key
    (.issueContinuation taskId holder fence sourceSessionId sourceCheckpointDigest reason
      recoverExpired workspaceTicket)
    (issueAction env actor taskId holder fence sourceSessionId sourceCheckpointDigest reason
      recoverExpired workspaceTicket)

end Issuing

/-- The reviewed scope of the ticket is still the current one. -/
def checkTicketScope (ready : Ready) (task : Task) (experimentId : Id) (problem : Problem) :
    Except Failure Unit :=
  require (ready.experimentId = experimentId ∧ ready.branchId = task.branchId ∧
      ready.targetDigest = problem.targetDigest ∧ ready.reviewId = problem.reviewId ∧
      ready.environmentDigest = problem.environmentDigest ∧ problem.semanticReview = .approved)
    (.refuse "CONTINUATION_STALE" "Reviewed successor scope changed.")

/-- The successor that the consuming holder names; the ticket's own model and limits by default. -/
def Ready.successor (ready : Ready) (model runtimeLimits : Option Value) (mode : String) :
    SuccessorChoice where
  model := model.getD ready.model
  runtime := ready.runtime
  runtimeLimits := runtimeLimits.getD ready.runtimeLimits
  mode

/-- The task after its ticket was consumed. -/
def consumedTask (task : Task) (consumed : Consumed) : Task :=
  { task with
    readyContinuation := none
    consumedContinuation := some consumed
    terminalRecovery := none }

/-- The link of a consumed ticket. -/
def consumedLink (link : ContinuationLink) (consumed : Consumed) : ContinuationLink :=
  { link with
    status := .consumed
    holder := some consumed.holder
    fence := some consumed.fence
    consumedAt := some consumed.consumedAt
    successor := some consumed.successor }

def consumeAction (env : Env) (actor : Principal) (taskId : Id) (holder : String) (fence : Nat)
    (ready : Ready) (successorModel successorRuntimeLimits : Option Value) (mode : String)
    (db : Db) : Transacted := do
  let task ← db.getTask taskId actor
  let _ ← db.fenced env.now taskId holder fence
  require (task.payload.readyContinuation = some ready)
    (.refuse "CONTINUATION_STALE" "Continuation was consumed or changed.")
  let link ← db.continuationLink actor taskId ready.ordinal
  require (link.2.payload.status = .issued ∧ link.2.payload.readyDigest = ready ∧
      link.2.payload.sourceSessionId = ready.sourceSessionId ∧
      link.2.payload.sourceCheckpointDigest = ready.sourceCheckpointDigest)
    (lineageMismatch "Issued link changed.")
  let experiment ← db.getExperiment task.payload.experimentId actor
  let problem ← db.getProblem experiment.payload.problemId actor
  checkTicketScope ready task.payload task.payload.experimentId problem.payload
  let consumed : Consumed :=
    { ready
      successor := ready.successor successorModel successorRuntimeLimits mode
      holder, fence
      consumedAt := env.now }
  let replaced := task.replace (consumedTask task.payload consumed)
  let links := db.links.put link.1 (link.2.replace (consumedLink link.2.payload consumed))
  return ({ db with tasks := db.tasks.put taskId replaced, links },
    .record taskId replaced.revision)

theorem consume_cases {taskId : Id} {holder : String} {fence : Nat} {ready : Ready}
    {model limits : Option Value} {mode : String}
    (returned : consumeAction env actor taskId holder fence ready model limits mode db =
      .ok (after, reply)) :
    ∃ task link lease,
      let consumed : Consumed :=
        { ready, successor := ready.successor model limits mode, holder, fence,
          consumedAt := env.now }
      db.tasks.find taskId = some task ∧ task.projectId = actor.projectId ∧
      db.fenced env.now taskId holder fence = .ok lease ∧
      task.payload.readyContinuation = some ready ∧
      db.continuationLink actor taskId ready.ordinal = .ok link ∧
      link.2.payload.status = .issued ∧ link.2.payload.readyDigest = ready ∧
      after = { db with
        tasks := db.tasks.put taskId (task.replace (consumedTask task.payload consumed))
        links := db.links.put link.1 (link.2.replace (consumedLink link.2.payload consumed)) } := by
  simp only [consumeAction, bind_ok, require_ok, exists_const, pure_ok, Prod.mk.injEq] at returned
  obtain ⟨task, read, lease, held, offered, link, linked, ⟨issued, digest, -, -⟩, -, -, -, -, -, -,
    rfl, -⟩ := returned
  have found := Db.getRow_ok.mp read
  exact ⟨task, link, lease, found.1, found.2.1, held, offered, linked, issued, digest, rfl⟩

/-- The holder of the next lease takes the ticket and names the successor it will start. -/
def consumeContinuation (db : Db) (env : Env) (taskId : Id) (holder : String) (fence : Nat)
    (ready : Ready) (successorModel successorRuntimeLimits : Option Value) (mode : String)
    (actor : Principal) (key : String) : Transacted := do
  controllerRequired actor
  execute db env actor key
    (.consumeContinuation taskId holder fence ready successorModel successorRuntimeLimits mode)
    (consumeAction env actor taskId holder fence ready successorModel successorRuntimeLimits mode)

/-- The ticket of a consumed one that was not started: it keeps the successor it had chosen. -/
def Consumed.restored (consumed : Consumed) : Ready :=
  { consumed.ready with choice := some consumed.successor }

/-- The task after its consumed ticket was restored. -/
def restoredTask (task : Task) (ready : Ready) : Task :=
  { task with
    status := .queued
    holder := none
    readyContinuation := some ready
    consumedContinuation := none }

/-- The link of a restored ticket. -/
def restoredLink (link : ContinuationLink) (ready : Ready) : ContinuationLink :=
  { link with
    status := .issued
    readyDigest := ready
    holder := none
    fence := none
    consumedAt := none
    successor := none }

def restoreAction (env : Env) (actor : Principal) (taskId : Id) (db : Db) : Transacted := do
  let task ← db.getTask taskId actor
  let _ ← db.active env.now task.payload.experimentId actor
  let stale := Failure.refuse "CONTINUATION_STALE" "No consumed ticket needs restoration."
  let consumed ← orThrow task.payload.consumedContinuation stale
  require (task.payload.readyContinuation = none) stale
  let link ← db.continuationLink actor taskId consumed.ready.ordinal
  require (link.2.payload.status = .consumed ∧
      link.2.payload.sourceSessionId = consumed.ready.sourceSessionId ∧
      link.2.payload.sourceCheckpointDigest = consumed.ready.sourceCheckpointDigest ∧
      link.2.payload.successorSessionId = none)
    (lineageMismatch "Consumed link cannot be reissued.")
  let held := Failure.refuse "LEASE_HELD" "Current successor lease has not expired."
  let lease ← orThrow (db.leases.find taskId) held
  require (lease.holder = consumed.holder ∧ lease.fence = consumed.fence ∧
    lease.expiresAt ≤ env.now) held
  let rows := db.taskSessions actor taskId
  require (rows.length = consumed.ready.ordinal ∧
      ∃ row ∈ rows, row.2.payload.nativeRecordId = consumed.ready.sourceSessionId ∧
        row.2.payload.status = .handedOff)
    (recoveryRequired "A successor session may already exist.")
  require (db.pendingModelReservation actor taskId = false)
    (recoveryRequired "Model usage is unresolved.")
  let ready := consumed.restored
  let links := db.links.put link.1 (link.2.replace (restoredLink link.2.payload ready))
  let tasks := db.tasks.put taskId (task.replace (restoredTask task.payload ready))
  let leases := db.leases.put taskId { lease with expiresAt := 0 }
  return ({ db with links, tasks, leases }, .task taskId .queued)

theorem restore_cases {taskId : Id}
    (returned : restoreAction env actor taskId db = .ok (after, reply)) :
    ∃ task consumed link lease,
      db.tasks.find taskId = some task ∧ task.projectId = actor.projectId ∧
      task.payload.consumedContinuation = some consumed ∧
      task.payload.readyContinuation = none ∧
      db.continuationLink actor taskId consumed.ready.ordinal = .ok link ∧
      link.2.payload.status = .consumed ∧
      link.2.payload.sourceSessionId = consumed.ready.sourceSessionId ∧
      link.2.payload.successorSessionId = none ∧
      db.leases.find taskId = some lease ∧ lease.holder = consumed.holder ∧
      lease.fence = consumed.fence ∧ lease.expiresAt ≤ env.now ∧
      (db.taskSessions actor taskId).length = consumed.ready.ordinal ∧
      after = { db with
        links := db.links.put link.1
          (link.2.replace (restoredLink link.2.payload consumed.restored))
        tasks := db.tasks.put taskId (task.replace (restoredTask task.payload consumed.restored))
        leases := db.leases.put taskId { lease with expiresAt := 0 } } := by
  simp only [restoreAction, bind_ok, require_ok, orThrow_ok, exists_const, pure_ok,
    Prod.mk.injEq] at returned
  obtain ⟨task, read, -, -, consumed, spent, unready, link, linked, ⟨status, source, -, unstarted⟩,
    lease, held, ⟨holder, fence, expired⟩, ⟨count, -⟩, -, rfl, -⟩ := returned
  have found := Db.getRow_ok.mp read
  exact ⟨task, consumed, link, lease, found.1, found.2.1, spent, unready, linked, status, source,
    unstarted, held, holder, fence, expired, count, rfl⟩

/-- Restore a consumed ticket only if no successor session was ever saved. -/
def restoreUnstartedContinuation (db : Db) (env : Env) (taskId : Id) (actor : Principal)
    (key : String) : Transacted := do
  controllerRequired actor
  execute db env actor key (.restoreUnstartedContinuation taskId)
    (restoreAction env actor taskId)

section Requeueing

variable [ContentHash]

/-- A task whose sessions made no progress is not recovered again. -/
def checkProgress (native : NativeState) : Except Failure Unit :=
  match native.stagnation with
  | some (.progress true _) =>
    .error (.refuse "RESEARCH_STAGNATION_EXHAUSTED" "Recovery did not change research progress.")
  | some (.malformed true) => .error (.internal "AttributeError: stagnation is not an object")
  | _ => .ok ()

/-- The newest session of a task. -/
def newestSession (db : Db) (actor : Principal) (taskId : Id) : Option (Id × Row Session) :=
  (db.taskSessions actor taskId).argmax fun row => row.2.payload.createdAt

/-- The workspaces of the task's slot are all destroyed. -/
def checkSlotClosed (db : Db) (actor : Principal) (slotId : Option Id) : Except Failure Unit :=
  match slotId with
  | none => .ok ()
  | some id => require (db.slotWorkspaceOpen actor id = false)
    (recoveryRequired "Source workspace remains active.")

/-- The task queued again for a decision on its settled terminal response. -/
def requeuedTask (task : Task) (checkpoint : NativeCheckpoint) : Task :=
  { task with
    status := .queued
    holder := none
    terminalRecoveryCount := task.terminalRecoveryCount + 1
    terminalRecovery := some (checkpoint.sessionId, checkpoint.stateDigest) }

def requeueAction (env : Env) (actor : Principal) (taskId : Id) (holder : String) (fence : Nat)
    (db : Db) : Transacted := do
  let task ← db.getTask taskId actor
  let lease ← db.fenced env.now taskId holder fence
  require (db.pendingModelReservation actor taskId = false)
    (recoveryRequired "Model usage is unresolved.")
  require (task.payload.terminalRecoveryCount < 3)
    (.refuse "RECOVERY_LIMIT" "Terminal boundary recovery limit reached.")
  checkSlotClosed db actor task.payload.workerSlotId
  let row ← orThrow (newestSession db actor taskId) (recoveryRequired "No source session exists.")
  let checkpoint ← db.loadNativeCheckpoint row.2.payload.checkpointArtifactId actor
  checkProgress checkpoint.native
  require (checkpoint.sessionId = row.2.payload.nativeRecordId ∧
      checkpoint.status ∈ [SessionStatus.failed, .interrupted, .running] ∧
      checkpoint.native.terminalResponsePending = true ∧
      checkpoint.native.settledBoundary = true ∧ checkpoint.native.pendingOperation = false ∧
      checkpoint.native.pendingToolCall = false)
    (recoveryRequired "Terminal state is not settled.")
  let tasks := db.tasks.put taskId (task.replace (requeuedTask task.payload checkpoint))
  let leases := db.leases.put taskId { lease with expiresAt := 0 }
  return ({ db with tasks, leases }, .task taskId .queued)

theorem requeue_cases {taskId : Id} {holder : String} {fence : Nat}
    (returned : requeueAction env actor taskId holder fence db = .ok (after, reply)) :
    ∃ task lease checkpoint, db.tasks.find taskId = some task ∧
      db.fenced env.now taskId holder fence = .ok lease ∧
      after = { db with
        tasks := db.tasks.put taskId (task.replace (requeuedTask task.payload checkpoint))
        leases := db.leases.put taskId { lease with expiresAt := 0 } } := by
  simp only [requeueAction, bind_ok, require_ok, orThrow_ok, exists_const, pure_ok,
    Prod.mk.injEq] at returned
  obtain ⟨task, read, lease, held, -, -, -, -, -, -, checkpoint, -, -, -, -, rfl, -⟩ := returned
  exact ⟨task, lease, checkpoint, Db.getRow_find read, held, rfl⟩

/-- Retry a failed terminal boundary decision without replaying provider work. -/
def requeueSettledTerminal (db : Db) (env : Env) (taskId : Id) (holder : String) (fence : Nat)
    (actor : Principal) (key : String) : Transacted := do
  controllerRequired actor
  execute db env actor key (.requeueSettledTerminal taskId holder fence)
    (requeueAction env actor taskId holder fence)

end Requeueing

end PhysHarness
