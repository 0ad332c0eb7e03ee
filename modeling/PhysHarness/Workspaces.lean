import PhysHarness.Resources

/-!
The workspace broker: a fenced, budgeted VM lifecycle over the canonical database.

No provider call happens inside a transaction, so each broker command is several transactions with
the provider call between them. Every transaction has its own definition here. A transaction that
refuses leaves the database as it was.
-/
namespace PhysHarness

open Outcome

def minLocalWorkspaceSeconds : Int := 30
def localDeadlineMarginSeconds : Int := 2

/-- A broker is bound to one task holder and to the provider it may use. -/
structure Broker where
  actor : Principal
  taskId : Id
  holder : String
  fence : Nat
  providerSpec : ProviderSpec
  workerSlotId : Option Id := none
  operator : actor.role = .operator ∨ actor.role = .admin := by decide
  positiveTimeout : 0 < providerSpec.timeoutSeconds := by decide

def reconcile (message : String := "VM outcome requires operator reconciliation.") : Failure :=
  .refuse "WORKSPACE_RECONCILIATION_REQUIRED" message 409 false
    ("Reconcile recorded VM identity and provider charges; " ++
      "do not retry allocation or release its reservation automatically.")

namespace Broker

variable {after : Db} (b : Broker) (db : Db) (env : Env)

/-- The shared worker slot still backs the task. -/
def checkWorkerSlot (task : Task) : Except Failure Unit :=
  match b.workerSlotId with
  | none => .ok ()
  | some slotId => do
    let error := Failure.refuse "WORKER_SLOT_AUTHORITY"
      "Shared worker slot requires the task's active controller reservation."
    let slot ← orThrow (db.reservations.find slotId) error
    require (task.workerSlotId = some slotId ∧ slot.state = .active ∧ slot.workers = 1 ∧
      slot.experimentId = task.experimentId) error

/-- The authority of every broker transaction. Cleanup needs the lease and the slot only. -/
def guardTask (cleanup : Bool) : Except Failure (Row Task) := do
  let task ← db.getTask b.taskId b.actor
  if cleanup then
    let _ ← db.getExperiment task.payload.experimentId b.actor
    let _ ← db.fenced env.now b.taskId b.holder b.fence
    b.checkWorkerSlot db task.payload
    return task
  else
    let _ ← db.active env.now task.payload.experimentId b.actor
    require (task.payload.status = .running ∧ task.payload.cancelRequested = false)
      (.refuse "TASK_NOT_RUNNABLE" "Task is cancelled or no longer running.")
    let _ ← db.fenced env.now b.taskId b.holder b.fence
    b.checkWorkerSlot db task.payload
    return task

variable {b db env} in
theorem guardTask_find {cleanup : Bool} {task : Row Task}
    (guarded : b.guardTask db env cleanup = .ok task) : db.tasks.find b.taskId = some task := by
  simp only [guardTask, bind_ok] at guarded
  obtain ⟨row, read, guarded⟩ := guarded
  split at guarded <;> simp only [bind_ok, require_ok, exists_const, pure_ok] at guarded <;>
    grind [Db.getTask, Db.getRow_find]

/-- The same authority over one workspace and its exact VM. -/
def guardWorkspace (cleanup : Bool) (data : Workspace) (executionId : String) :
    Except Failure (Row Task) := do
  let task ← b.guardTask db env cleanup
  require (data.sharedWorkerSlotId = b.workerSlotId)
    (.refuse "WORKER_SLOT_AUTHORITY" "Workspace shared slot binding changed.")
  require (data.holder = b.holder ∧ data.fence = b.fence ∧
      data.experimentId = task.payload.experimentId)
    (.refuse "STALE_LEASE" "Workspace belongs to a different task fence.")
  require (executionId ≠ "" ∧ data.executionId = some executionId)
    (.refuse "WORKSPACE_IDENTITY_MISMATCH" "Exact known VM execution identity required.")
  return task

variable {b db env} in
theorem guardWorkspace_guardTask {cleanup : Bool} {data : Workspace} {executionId : String}
    {task : Row Task} (guarded : b.guardWorkspace db env cleanup data executionId = .ok task) :
    b.guardTask db env cleanup = .ok task := by
  simp only [guardWorkspace, bind_ok, require_ok, exists_const, pure_ok] at guarded
  obtain ⟨_, held, -, -, -, rfl⟩ := guarded
  exact held

def workspace (id : Id) : Except Failure (Row Workspace) := do
  let row ← db.getUnscoped db.workspaces id b.actor
  require (row.payload.taskId = b.taskId)
    (.refuse "WORKSPACE_SCOPE" "Workspace belongs to another task." 403)
  return row

variable {b db} in
theorem workspace_find {id : Id} {row : Row Workspace} (read : b.workspace db id = .ok row) :
    db.workspaces.find id = some row := by
  simp only [workspace, bind_ok, require_ok, exists_const, pure_ok] at read
  obtain ⟨_, found, -, rfl⟩ := read
  exact Db.getRow_find found

def operation (key : OperationKey) : Except Failure (Row WorkspaceOperation) := do
  let error := Failure.notFound "The requested project object was not found."
  let row ← orThrow (db.operations.find key) error
  require (row.projectId = b.actor.projectId) error
  return row

def operationKey (workspaceId : Id) (operationId : String) : Except Failure OperationKey := do
  require (1 ≤ operationId.length ∧ operationId.length ≤ 500)
    (.refuse "INVALID_OPERATION_ID" "Explicit bounded operation ID required." 422)
  return { projectId := b.actor.projectId, taskId := b.taskId, workspaceId, operationId }

/-- The pending record of a dispatch. -/
def pendingOperation (data : Workspace) (workspaceId : Id) (command : WorkspaceCommand)
    (inputs : OperationInputs) : Row WorkspaceOperation where
  projectId := b.actor.projectId
  payload :=
    { originActorId := b.actor.id
      experimentId := data.experimentId
      branchId := data.branchId
      taskId := b.taskId
      workspaceId
      command
      holder := b.holder
      fence := b.fence
      providerSpec := b.providerSpec
      workerSlotId := b.workerSlotId
      inputs }

/-- The result of an operation that was recorded before, if there is one. Its inputs must be the
same, a refused one refuses again, and an unsettled one asks for reconciliation. -/
def prior (key : OperationKey) (command : WorkspaceCommand) (inputs : OperationInputs) :
    Except Failure (Option OperationResult) :=
  match db.operations.find key with
  | none => .ok none
  | some row => do
    let data := row.payload
    require (data.command = command ∧ data.inputs = inputs ∧ data.holder = b.holder ∧
        data.fence = b.fence ∧ data.providerSpec = b.providerSpec ∧
        data.workerSlotId = b.workerSlotId)
      (.refuse "IDEMPOTENCY_CONFLICT" "Operation ID already identifies different inputs.")
    match data.status, data.result with
    | .completed, result => return result
    | .rejected, some (.failure code (some message)) => .error (.refuse code message)
    | .failed, some (.failure code (some message)) => .error (.refuse code message)
    | .rejected, _ => .error (.internal "KeyError: message")
    | .failed, _ => .error (.internal "KeyError: message")
    | _, _ =>
      .error (reconcile "Pending or uncertain VM operation requires reconciliation before retry.")

/-- The VM's lifetime under the experiment's remaining time. A local workbench is shortened to fit,
a remote one must fit as it is. -/
def effectiveTimeout (experiment : Experiment) : Except Failure Nat := do
  let started ← orThrow experiment.startedAt (.internal "KeyError: started_at")
  let remaining : Int := started + experiment.maxRuntimeSeconds * Time.second - env.now
  match b.providerSpec.provider with
  | .localDocker =>
    let timeout := min (b.providerSpec.timeoutSeconds : Int)
      (remaining / Time.second - localDeadlineMarginSeconds)
    require (minLocalWorkspaceSeconds ≤ timeout)
      (.refuse "EXPERIMENT_DEADLINE"
        "Insufficient experiment time remains for a local workbench.")
    return timeout.toNat
  | .e2b =>
    require ((b.providerSpec.timeoutSeconds * Time.second : Int) ≤ remaining)
      (.refuse "EXPERIMENT_DEADLINE" "VM timeout exceeds remaining experiment runtime.")
    return b.providerSpec.timeoutSeconds

/-- Workers a new VM takes: none when it runs in the task's shared slot. -/
def slotWorkers : Nat := if b.workerSlotId.isSome then 0 else 1

/-- The shared slot has another workspace that is not destroyed. -/
def slotInUse : Bool :=
  b.workerSlotId.isSome &&
    db.workspaces.anyRow fun _ row =>
      row.projectId = b.actor.projectId && row.payload.sharedWorkerSlotId = b.workerSlotId &&
        row.payload.status ≠ .destroyed

/-- What the first transaction of `provision` hands to the rest of the call. -/
inductive Provisioning where
  | replayed (workspaceId : Id) (row : Row Workspace)
  | started (workspaceId : Id) (key : OperationKey)

/-- The workspace of a VM that is being provisioned. -/
def provisioned (task : Task) (timeout : Nat) (reservationId : Id) (amount : Nat)
    (key : OperationKey) : Workspace where
  taskId := b.taskId
  experimentId := task.experimentId
  branchId := task.branchId
  holder := b.holder
  fence := b.fence
  providerSpec := b.providerSpec
  effectiveTimeoutSeconds := timeout
  reservationId
  sharedWorkerSlotId := b.workerSlotId
  costBound := amount
  activeOperation := some key

/-- Reserve the VM's cost and worker, and record the workspace and its pending operation. -/
def provisionReserve (amount : Nat) (key : OperationKey) : Except Failure (Db × Provisioning) := do
  let task ← b.guardTask db env false
  let inputs : OperationInputs := { costBoundUnits := some amount }
  let experiment ← db.getExperiment task.payload.experimentId b.actor
  let timeout ← b.effectiveTimeout env experiment.payload
  let experimentId := task.payload.experimentId
  let budget ← orThrow (db.budgets.find experimentId) noLedger
  require (budget.fitsCost amount)
    (.refuse "BUDGET_EXCEEDED" "VM reservation exceeds experiment budget envelope.")
  require (b.slotInUse db = false)
    (.refuse "WORKER_SLOT_IN_USE" "Shared worker slot already has an unresolved workspace.")
  require (budget.fitsWorkers b.slotWorkers)
    (.refuse "CONCURRENCY_EXCEEDED" "No experiment concurrency slot for another VM.")
  let reservationId := env.newId 0
  let reservations ← insertNew db.reservations reservationId
    { experimentId, reserved := amount, workers := b.slotWorkers }
  let _ ← checkTaskRecord db b.actor experimentId b.taskId (some task.payload.branchId)
  let data := b.provisioned task.payload timeout reservationId amount key
  let workspaceId := env.newId 1
  let workspaces ← insertNew db.workspaces workspaceId
    { projectId := b.actor.projectId, payload := data }
  let operations ← insertNew db.operations key
    (b.pendingOperation data workspaceId .provision inputs)
  let budgets := db.budgets.put experimentId
    { budget with
      reserved := budget.reserved + amount
      activeWorkers := budget.activeWorkers + b.slotWorkers }
  return ({ db with reservations, workspaces, operations, budgets },
    .started workspaceId key)

variable {b db env} in
theorem provisionReserve_cases {amount : Nat} {key : OperationKey} {started : Provisioning}
    (returned : b.provisionReserve db env amount key = .ok (after, started)) :
    ∃ task timeout budget operations,
      db.tasks.find b.taskId = some task ∧
      db.budgets.find task.payload.experimentId = some budget ∧
      budget.fitsCost amount ∧ budget.fitsWorkers b.slotWorkers ∧
      db.reservations.find (env.newId 0) = none ∧ db.workspaces.find (env.newId 1) = none ∧
      started = .started (env.newId 1) key ∧
      after = { db with
        operations
        reservations := db.reservations.put (env.newId 0)
          { experimentId := task.payload.experimentId, reserved := amount,
            workers := b.slotWorkers }
        workspaces := db.workspaces.put (env.newId 1)
          { projectId := b.actor.projectId
            payload := b.provisioned task.payload timeout (env.newId 0) amount key }
        budgets := db.budgets.put task.payload.experimentId
          { budget with
            reserved := budget.reserved + amount
            activeWorkers := budget.activeWorkers + b.slotWorkers } } := by
  simp only [provisionReserve, bind_ok, require_ok, orThrow_ok, exists_const, insertNew_ok, pure_ok,
    Prod.mk.injEq] at returned
  obtain ⟨task, guarded, -, -, timeout, -, budget, counted, cost, -, workers, _, ⟨fresh, rfl⟩, -,
    -, _, ⟨unused, rfl⟩, operations, -, rfl, rfl⟩ := returned
  exact ⟨task, timeout, budget, operations, guardTask_find guarded, counted, cost, workers, fresh,
    unused, rfl, rfl⟩

/-- The first transaction of `provision`. -/
def provisionBegin (costBound : Option Int) (operationId : String) :
    Except Failure (Db × Provisioning) := do
  let amount ← moneyUnits costBound
  require (0 < amount ∨ b.providerSpec.provider = .localDocker)
    (.refuse "VM_COST_BOUND_REQUIRED"
      "Supply a positive provider cost bound, except documented local zero charge." 422)
  let key ← b.operationKey "provision" operationId
  let _ ← b.guardTask db env false
  let recorded ← b.prior db key .provision { costBoundUnits := some amount }
  match recorded with
  | some (.workspace workspaceId _) => do
    -- a replay returns the workspace as it is now, not as it was recorded
    let row ← b.workspace db workspaceId
    return (db, .replayed workspaceId row)
  | some _ => .error (.internal "KeyError: id")
  | none => b.provisionReserve db env amount key

variable {b db env} in
theorem provisionBegin_cases {costBound : Option Int} {operationId : String} {workspaceId : Id}
    {key : OperationKey}
    (returned : b.provisionBegin db env costBound operationId =
      .ok (after, .started workspaceId key)) :
    ∃ amount, b.provisionReserve db env amount key = .ok (after, .started workspaceId key) := by
  simp only [provisionBegin, bind_ok, require_ok, exists_const] at returned
  obtain ⟨amount, -, -, named, -, -, -, recorded, -, returned⟩ := returned
  split at returned
  · simp only [bind_ok, pure_ok, Prod.mk.injEq, reduceCtorEq, and_false, exists_false,
      and_false] at returned
  · simp at returned
  · obtain ⟨-, -, -, -, -, -, -, -, -, -, same, -⟩ := provisionReserve_cases returned
    obtain ⟨-, rfl⟩ := Provisioning.started.inj same
    exact ⟨amount, returned⟩

/-- A transaction that writes one workspace and its operation, and no ledger row. -/
def Quiet (db after : Db) : Prop :=
  ∃ workspaceId row data operations artifacts,
    db.workspaces.find workspaceId = some row ∧
    after = { db with
      operations, artifacts
      workspaces := db.workspaces.put workspaceId (row.replace data) } ∧
    data.reservationId = row.payload.reservationId

/-- The VM exists: the workspace becomes ready under its observed identity. -/
def provisionReady (workspaceId : Id) (key : OperationKey) (observed : String) :
    Except Failure Db := do
  let _ ← b.guardTask db env false
  let row ← b.workspace db workspaceId
  let op ← b.operation db key
  let ready := row.replace
    { row.payload with status := .ready, executionId := some observed, activeOperation := none }
  let workspaces := db.workspaces.put workspaceId ready
  let operations := db.operations.put key (op.replace
    { op.payload with status := .completed, result := some (.workspace workspaceId ready) })
  return { db with workspaces, operations }

variable {b db env} in
theorem provisionReady_quiet {workspaceId : Id} {key : OperationKey} {observed : String}
    (returned : b.provisionReady db env workspaceId key observed = .ok after) :
    Quiet db after := by
  simp only [provisionReady, bind_ok, pure_ok] at returned
  obtain ⟨-, -, row, read, -, -, rfl⟩ := returned
  exact ⟨workspaceId, row, _, _, db.artifacts, workspace_find read, rfl, rfl⟩

/-- The local provider refused for capacity before any VM existed: the reservation is released and
the workspace is closed. -/
def provisionCapacity (workspaceId : Id) (key : OperationKey) : Except Failure Db := do
  let _ ← b.guardTask db env false
  let row ← b.workspace db workspaceId
  let reservation ← orThrow (db.reservations.find row.payload.reservationId)
    (.internal "AttributeError: no reservation")
  let budget ← orThrow (db.budgets.find reservation.experimentId) noLedger
  let op ← b.operation db key
  let budgets := db.budgets.put reservation.experimentId
    { budget with
      activeWorkers := budget.activeWorkers - reservation.workers
      reserved := budget.reserved - reservation.reserved }
  let reservations := db.reservations.put row.payload.reservationId
    { reservation with workers := 0, actual := some 0, state := .settled }
  let workspaces := db.workspaces.put workspaceId (row.replace
    { row.payload with
      status := .destroyed
      destructionConfirmed := true
      activeOperation := none
      billingStatus := some .reconciled })
  let operations := db.operations.put key (op.replace
    { op.payload with status := .rejected, result := some (.failure "WORKSPACE_CAPACITY" none) })
  return { db with budgets, reservations, workspaces, operations }

variable {b db env} in
theorem provisionCapacity_cases {workspaceId : Id} {key : OperationKey}
    (returned : b.provisionCapacity db env workspaceId key = .ok after) :
    ∃ task row reservation budget data operations,
      b.guardTask db env false = .ok task ∧
      db.workspaces.find workspaceId = some row ∧
      db.reservations.find row.payload.reservationId = some reservation ∧
      db.budgets.find reservation.experimentId = some budget ∧
      after = { db with
        operations
        budgets := db.budgets.put reservation.experimentId
          { budget with
            activeWorkers := budget.activeWorkers - reservation.workers
            reserved := budget.reserved - reservation.reserved }
        reservations := db.reservations.put row.payload.reservationId
          { reservation with workers := 0, actual := some 0, state := .settled }
        workspaces := db.workspaces.put workspaceId (row.replace data) } ∧
      data.reservationId = row.payload.reservationId := by
  simp only [provisionCapacity, bind_ok, orThrow_ok, pure_ok] at returned
  obtain ⟨task, guarded, row, read, reservation, found, budget, counted, -, -, rfl⟩ := returned
  exact ⟨task, row, reservation, budget, _, _, guarded, workspace_find read, found, counted, rfl,
    rfl⟩

/-- Keep a reservation that was not settled as uncertain. -/
def markUncertain (reservations : Table Id Reservation) (id : Id) (reservation : Reservation) :
    Table Id Reservation :=
  if reservation.state = .settled then reservations
  else reservations.put id { reservation with state := .uncertain }

/-- Observation-only authority: the outcome of an operation is unknown, and nothing is released. -/
def recordUncertainty (workspaceId : Id) (key : OperationKey) (observed : Option String)
    (destructionConfirmed : Bool) : Except Failure Db := do
  let row ← b.workspace db workspaceId
  let op ← b.operation db key
  if op.payload.status = .completed then
    return db
  else
    let reservation ← orThrow (db.reservations.find row.payload.reservationId)
      (.internal "AttributeError: no reservation")
    let workspaces := db.workspaces.put workspaceId (row.replace
      { row.payload with
        status := .reconciliationRequired
        destructionConfirmed
        executionId := (observed.filter (· ≠ "")).or row.payload.executionId })
    let operations := db.operations.put key (op.replace
      { op.payload with status := .reconciliationRequired })
    return { db with
      workspaces, operations
      reservations := markUncertain db.reservations row.payload.reservationId reservation }

variable {b db} in
theorem recordUncertainty_cases {workspaceId : Id} {key : OperationKey} {observed : Option String}
    {confirmed : Bool}
    (returned : b.recordUncertainty db workspaceId key observed confirmed = .ok after) :
    after = db ∨ ∃ row reservation data operations,
      db.workspaces.find workspaceId = some row ∧
      db.reservations.find row.payload.reservationId = some reservation ∧
      after = { db with
        operations
        workspaces := db.workspaces.put workspaceId (row.replace data)
        reservations :=
          markUncertain db.reservations row.payload.reservationId reservation } ∧
      data.reservationId = row.payload.reservationId := by
  simp only [recordUncertainty, bind_ok] at returned
  obtain ⟨row, read, op, -, returned⟩ := returned
  split at returned
  · simp only [pure_ok] at returned
    exact .inl returned.symm
  · simp only [bind_ok, orThrow_ok, pure_ok] at returned
    obtain ⟨reservation, found, rfl⟩ := returned
    exact .inr ⟨row, reservation, _, _, workspace_find read, found, rfl, rfl⟩

/-- The transaction before a dispatch. `attached` is the execution of the provider handle in this
process, and `validated` the provider's pure check of the request. -/
def start (workspaceId : Id) (executionId : String) (key : OperationKey)
    (command : WorkspaceCommand) (inputs : OperationInputs) (cleanup : Bool)
    (attached : Option String) (validated : Except Failure Unit) :
    Except Failure (Db × Option OperationResult) := do
  let row ← b.workspace db workspaceId
  let _ ← b.guardWorkspace db env cleanup row.payload executionId
  let recorded ← b.prior db key command inputs
  match recorded with
  | some result => return (db, some result)
  | none => do
    require (row.payload.status = .ready ∧ row.payload.activeOperation = none)
      (reconcile "Workspace is busy, destroyed or uncertain; reconcile before dispatch.")
    let handle ← orThrow attached (reconcile ("Canonical VM exists without a local handle; " ++
      "reconcile its identity before reconnecting."))
    require (handle = executionId)
      (.refuse "WORKSPACE_IDENTITY_MISMATCH"
        "Attached provider has a different execution identity.")
    validated
    let operations ← insertNew db.operations key
      (b.pendingOperation row.payload workspaceId command inputs)
    let workspaces := db.workspaces.put workspaceId
      (row.replace { row.payload with activeOperation := some key })
    return ({ db with operations, workspaces }, none)

variable {b db env} in
theorem start_quiet {workspaceId : Id} {executionId : String} {key : OperationKey}
    {command : WorkspaceCommand} {inputs : OperationInputs} {cleanup : Bool}
    {attached : Option String} {validated : Except Failure Unit}
    (returned : b.start db env workspaceId executionId key command inputs cleanup attached
      validated = .ok (after, none)) : Quiet db after := by
  simp only [start, bind_ok] at returned
  obtain ⟨row, read, -, -, recorded, -, returned⟩ := returned
  cases recorded with
  | some result => simp at returned
  | none =>
    simp only [bind_ok, require_ok, orThrow_ok, exists_const, pure_ok, Prod.mk.injEq] at returned
    obtain ⟨-, -, -, -, -, -, operations, -, rfl, -⟩ := returned
    exact ⟨workspaceId, row, _, operations, db.artifacts, workspace_find read, rfl, rfl⟩

/-- What a completed provider call leaves to record. -/
inductive Completion where
  | plain (value : Value)
  | promoted (sha256 : Digest) (targetDigest : Digest)
  | archived (sha256 : Digest)
  | restored (artifactId : Id) (archiveSha256 : Digest) (sourceExecutionId : String)

/-- The bytes of a completed call become an artifact of the workspace's task. -/
def insertArtifact (data : Workspace) (sha256 : Digest) (kind : String) :
    Except Failure (Table Id (Row Artifact)) := do
  let _ ← checkTaskRecord db b.actor data.experimentId b.taskId (some data.branchId)
  insertNew db.artifacts (env.newId 0)
    { projectId := b.actor.projectId
      payload :=
        { experimentId := some data.experimentId
          branchId := some data.branchId
          taskId := some b.taskId
          originActorId := b.actor.id
          artifactKind := kind
          sha256
          submittedBy := b.actor.id
          createdAt := env.now
          provenance :=
            { taskId := some b.taskId, executionId := data.executionId } } }

/-- The workspace and the artifacts after a completed call. -/
def completed (data : Workspace) (completion : Completion) :
    Except Failure (Workspace × Table Id (Row Artifact)) :=
  let released := { data with activeOperation := none }
  match completion with
  | .plain _ => .ok (released, db.artifacts)
  | .promoted sha256 targetDigest => do
    let experiment ← db.getExperiment data.experimentId b.actor
    let problem ← db.getProblem experiment.payload.problemId b.actor
    require (experiment.payload.targetDigest = targetDigest ∧
        problem.payload.targetDigest = targetDigest)
      (.refuse "WORKSPACE_TRANSFER_REJECTED" "Current target changed during capture")
    let artifacts ← b.insertArtifact db env data sha256 "lean_source"
    return (released, artifacts)
  | .archived sha256 => do
    let artifacts ← b.insertArtifact db env data sha256 "checkpoint"
    return ({ released with checkpointArtifactId := some (env.newId 0) }, artifacts)
  | .restored artifactId archiveSha256 source =>
    .ok ({ released with restoredFrom := some (artifactId, archiveSha256, source) }, db.artifacts)

variable {b db env} in
theorem completed_reservationId {data written : Workspace} {completion : Completion}
    {artifacts : Table Id (Row Artifact)}
    (returned : b.completed db env data completion = .ok (written, artifacts)) :
    written.reservationId = data.reservationId := by
  cases completion with
  | plain | restored =>
    simp only [completed, Except.ok.injEq, Prod.mk.injEq] at returned
    rw [← returned.1]
  | promoted =>
    simp only [completed, bind_ok, require_ok, exists_const, pure_ok, Prod.mk.injEq] at returned
    obtain ⟨-, -, -, -, -, -, -, rfl, -⟩ := returned
    rfl
  | archived =>
    simp only [completed, bind_ok, pure_ok, Prod.mk.injEq] at returned
    obtain ⟨-, -, rfl, -⟩ := returned
    rfl

def Completion.value : Completion → Value
  | .plain value => value
  | .promoted sha256 _ => sha256
  | .archived sha256 => sha256
  | .restored artifactId _ _ => artifactId

/-- The transaction after a successful call other than destruction. -/
def performComplete (workspaceId : Id) (executionId : String) (key : OperationKey)
    (authority : Bool) (completion : Completion) : Except Failure Db := do
  let row ← b.workspace db workspaceId
  let _ ← b.guardWorkspace db env authority row.payload executionId
  require (row.payload.activeOperation = some key)
    (reconcile "Workspace operation ownership changed during provider call.")
  let written ← b.completed db env row.payload completion
  let op ← b.operation db key
  let workspaces := db.workspaces.put workspaceId (row.replace written.1)
  let operations := db.operations.put key (op.replace
    { op.payload with status := .completed, result := some (.value completion.value) })
  return { db with workspaces, operations, artifacts := written.2 }

variable {b db env} in
theorem performComplete_quiet {workspaceId : Id} {executionId : String} {key : OperationKey}
    {authority : Bool} {completion : Completion}
    (returned : b.performComplete db env workspaceId executionId key authority completion =
      .ok after) : Quiet db after := by
  simp only [performComplete, bind_ok, require_ok, exists_const, pure_ok] at returned
  obtain ⟨row, read, -, -, -, written, completes, -, -, rfl⟩ := returned
  exact ⟨workspaceId, row, written.1, _, written.2, workspace_find read,
    rfl, completed_reservationId completes⟩

/-- The ledger after a confirmed destruction: with an actual cost the reservation is settled, and
without one its worker is released and its cost stays uncertain. -/
def destroyLedger (reservation : Reservation) (budget : Budget) (actual : Option Nat) :
    Budget × Reservation :=
  match actual with
  | none =>
    ({ budget with activeWorkers := budget.activeWorkers - reservation.workers },
      { reservation with workers := 0, state := .uncertain })
  | some cost =>
    ({ budget with
        activeWorkers := budget.activeWorkers - reservation.workers
        reserved := budget.reserved - reservation.reserved
        spent := budget.spent + cost },
      { reservation with actual := some cost, tokensActual := some 0, state := .settled })

/-- The transaction after the provider confirmed the destruction of the VM. -/
def performDestroy (workspaceId : Id) (executionId : String) (key : OperationKey)
    (actual : Option Nat) : Except Failure Db := do
  let row ← b.workspace db workspaceId
  let _ ← b.guardWorkspace db env true row.payload executionId
  require (row.payload.activeOperation = some key)
    (reconcile "Workspace operation ownership changed during provider call.")
  let reservation ← orThrow (db.reservations.find row.payload.reservationId)
    (.internal "AttributeError: no reservation")
  require (reservation.state ≠ .settled)
    (reconcile "Reservation unexpectedly settled before confirmed destruction.")
  let budget ← orThrow (db.budgets.find reservation.experimentId) noLedger
  let op ← b.operation db key
  let ledger := destroyLedger reservation budget actual
  let destroyed := row.replace
    { row.payload with
      activeOperation := none
      status := .destroyed
      destructionConfirmed := true
      actualCost := actual
      billingStatus := some (if actual.isNone then .unreconciled else .reconciled) }
  let workspaces := db.workspaces.put workspaceId destroyed
  let operations := db.operations.put key (op.replace
    { op.payload with status := .completed, result := some (.workspace workspaceId destroyed) })
  return { db with
    workspaces, operations
    budgets := db.budgets.put reservation.experimentId ledger.1
    reservations := db.reservations.put row.payload.reservationId ledger.2 }

variable {b db env} in
theorem performDestroy_cases {workspaceId : Id} {executionId : String} {key : OperationKey}
    {actual : Option Nat}
    (returned : b.performDestroy db env workspaceId executionId key actual = .ok after) :
    ∃ task row reservation budget data operations,
      b.guardTask db env true = .ok task ∧
      db.workspaces.find workspaceId = some row ∧
      db.reservations.find row.payload.reservationId = some reservation ∧
      reservation.state ≠ .settled ∧
      db.budgets.find reservation.experimentId = some budget ∧
      after = { db with
        operations
        workspaces := db.workspaces.put workspaceId (row.replace data)
        budgets := db.budgets.put reservation.experimentId
          (destroyLedger reservation budget actual).1
        reservations := db.reservations.put row.payload.reservationId
          (destroyLedger reservation budget actual).2 } ∧
      data.reservationId = row.payload.reservationId := by
  simp only [performDestroy, bind_ok, require_ok, orThrow_ok, exists_const, pure_ok] at returned
  obtain ⟨row, read, task, guarded, -, reservation, found, unsettled, budget, counted, -, -, rfl⟩ :=
    returned
  exact ⟨task, row, reservation, budget, _, _, guardWorkspace_guardTask guarded,
    workspace_find read, found, unsettled, counted, rfl, rfl⟩

/-- A refusal that provably left the VM unchanged: the operation is rejected and the VM stays. -/
def performRefused (workspaceId : Id) (executionId : String) (key : OperationKey)
    (authority : Bool) (code message : String) : Except Failure Db := do
  let row ← b.workspace db workspaceId
  let _ ← b.guardWorkspace db env authority row.payload executionId
  require (row.payload.activeOperation = some key)
    (reconcile "Workspace ownership changed after helper refusal.")
  let op ← b.operation db key
  let operations := db.operations.put key (op.replace
    { op.payload with
      status := .rejected
      result := some (.failure code (some (message ++ "; VM is available."))) })
  let workspaces := db.workspaces.put workspaceId
    (row.replace { row.payload with activeOperation := none })
  return { db with operations, workspaces }

variable {b db env} in
theorem performRefused_quiet {workspaceId : Id} {executionId : String} {key : OperationKey}
    {authority : Bool} {code message : String}
    (returned : b.performRefused db env workspaceId executionId key authority code message =
      .ok after) : Quiet db after := by
  simp only [performRefused, bind_ok, require_ok, exists_const, pure_ok] at returned
  obtain ⟨row, read, -, -, -, -, -, rfl⟩ := returned
  exact ⟨workspaceId, row, _, _, db.artifacts, workspace_find read, rfl, rfl⟩

/-- The ledger after a failed command whose VM is confirmed destroyed. -/
def failureLedger (provider : Provider) (reservation : Reservation) (budget : Budget) :
    Budget × Reservation :=
  if reservation.state = .settled then (budget, reservation)
  else
    match provider with
    | .localDocker =>
      ({ budget with
          activeWorkers := budget.activeWorkers - reservation.workers
          reserved := budget.reserved - reservation.reserved },
        { reservation with workers := 0, actual := some 0, state := .settled })
    | .e2b =>
      ({ budget with activeWorkers := budget.activeWorkers - reservation.workers },
        { reservation with workers := 0, state := .uncertain })

/-- The transaction after a failed command whose VM is confirmed destroyed. -/
def performDestroyed (workspaceId : Id) (executionId : String) (key : OperationKey) :
    Except Failure Db := do
  let row ← b.workspace db workspaceId
  let _ ← b.guardWorkspace db env true row.payload executionId
  let reservation ← orThrow (db.reservations.find row.payload.reservationId)
    (.internal "AttributeError: no reservation")
  let budget ← orThrow (db.budgets.find reservation.experimentId) noLedger
  let op ← b.operation db key
  let ledger := failureLedger b.providerSpec.provider reservation budget
  let workspaces := db.workspaces.put workspaceId (row.replace
    { row.payload with
      status := .destroyed
      destructionConfirmed := true
      billingStatus := some
        (if b.providerSpec.provider = .localDocker then .reconciled else .unreconciled)
      activeOperation := none })
  let operations := db.operations.put key (op.replace
    { op.payload with
      status := .failed
      result := some
        (.failure "WORKSPACE_COMMAND_FAILED" (some "Command failed; VM destruction confirmed.")) })
  return { db with
    workspaces, operations
    budgets := db.budgets.put reservation.experimentId ledger.1
    reservations := db.reservations.put row.payload.reservationId ledger.2 }

variable {b db env} in
theorem performDestroyed_cases {workspaceId : Id} {executionId : String} {key : OperationKey}
    (returned : b.performDestroyed db env workspaceId executionId key = .ok after) :
    ∃ row reservation budget data operations,
      db.workspaces.find workspaceId = some row ∧
      db.reservations.find row.payload.reservationId = some reservation ∧
      db.budgets.find reservation.experimentId = some budget ∧
      after = { db with
        operations
        workspaces := db.workspaces.put workspaceId (row.replace data)
        budgets := db.budgets.put reservation.experimentId
          (failureLedger b.providerSpec.provider reservation budget).1
        reservations := db.reservations.put row.payload.reservationId
          (failureLedger b.providerSpec.provider reservation budget).2 } ∧
      data.reservationId = row.payload.reservationId := by
  simp only [performDestroyed, bind_ok, orThrow_ok, pure_ok] at returned
  obtain ⟨row, read, -, -, reservation, found, budget, counted, -, -, rfl⟩ := returned
  exact ⟨row, reservation, budget, _, _, workspace_find read, found, counted, rfl, rfl⟩

/-- Keep a VM whose final checkpoint or teardown lost its authority before the dispatch. -/
def retainWithoutAuthority (workspaceId : Id) (executionId : String) (key : OperationKey)
    (command : WorkspaceCommand) (inputs : OperationInputs) (code : String) :
    Except Failure Db := do
  let row ← b.workspace db workspaceId
  let data := row.payload
  if data.status ≠ .ready ∨ data.activeOperation.isSome ∨ data.executionId ≠ some executionId ∨
      data.holder ≠ b.holder ∨ data.fence ≠ b.fence ∨
      data.sharedWorkerSlotId ≠ b.workerSlotId ∨ (db.operations.find key).isSome then
    return db
  else
    let reservation ← orThrow (db.reservations.find data.reservationId)
      (.internal "AttributeError: no reservation")
    let message :=
      (if command = .export then "Final checkpoint was not dispatched"
        else "Teardown was not dispatched after the final checkpoint") ++
      (": cleanup authority was lost. " ++
        "The VM is kept unchanged for operator reconciliation.")
    let pending := b.pendingOperation data workspaceId command inputs
    let operations := db.operations.put key (pending.replace
      { pending.payload with
        status := .reconciliationRequired, result := some (.failure code (some message)) })
    let workspaces := db.workspaces.put workspaceId (row.replace
      { data with
        status := .reconciliationRequired
        destructionConfirmed := false
        activeOperation := some key })
    return { db with
      operations, workspaces
      reservations := markUncertain db.reservations data.reservationId reservation }

variable {b db} in
theorem retain_cases {workspaceId : Id} {executionId : String} {key : OperationKey}
    {command : WorkspaceCommand} {inputs : OperationInputs} {code : String}
    (returned : b.retainWithoutAuthority db workspaceId executionId key command inputs code =
      .ok after) :
    after = db ∨ ∃ row reservation data operations,
      db.workspaces.find workspaceId = some row ∧
      db.reservations.find row.payload.reservationId = some reservation ∧
      after = { db with
        operations
        workspaces := db.workspaces.put workspaceId (row.replace data)
        reservations :=
          markUncertain db.reservations row.payload.reservationId reservation } ∧
      data.reservationId = row.payload.reservationId := by
  simp only [retainWithoutAuthority, bind_ok] at returned
  obtain ⟨row, read, returned⟩ := returned
  split at returned
  · simp only [pure_ok] at returned
    exact .inl returned.symm
  · simp only [bind_ok, orThrow_ok, pure_ok] at returned
    obtain ⟨reservation, found, rfl⟩ := returned
    exact .inr ⟨row, reservation, _, _, workspace_find read, found, rfl, rfl⟩

end Broker

end PhysHarness
