import PhysHarness.Continuation

/-!
Controller recovery: releasing the capacity of lost workers, closing model reservations, and the
operator-attested retirement of a failed local workspace.
-/
namespace PhysHarness

open Outcome

variable {db after : Db} {env : Env} {actor : Principal} {reply : Reply}

def reconcileOrphanAction (env : Env) (actor : Principal) (taskId : Id) (db : Db) :
    Transacted := do
  let task ← db.getTask taskId actor
  let experimentId := task.payload.experimentId
  let _ ← db.active env.now experimentId actor
  match task.payload.workerSlotId with
  | none => return (db, .slot taskId false)
  | some slotId => do
    let held := Failure.refuse "LEASE_HELD" "Source lease has not expired."
    let lease ← orThrow (db.leases.find taskId) held
    require (some lease.holder = task.payload.holder ∧ some lease.fence = task.payload.fence ∧
      lease.expiresAt ≤ env.now) held
    let changed := Failure.refuse "WORKER_SLOT_AUTHORITY" "Source slot binding changed."
    let slot ← orThrow (db.reservations.find slotId) changed
    require (slot.isSlotOf experimentId) changed
    if slot.state = .settled then
      return (db, .slot taskId false)
    else
      require (slot.state = .active ∧ db.pendingModelReservation actor taskId = false)
        (recoveryRequired "Source resource effects remain open.")
      require (db.slotWorkspaceOpen actor slotId = false)
        (recoveryRequired "Source VM is not confirmed destroyed.")
      let error := Failure.refuse "WORKER_SLOT_AUTHORITY" "Worker capacity accounting changed."
      let budget ← orThrow (db.budgets.find experimentId) error
      require (1 ≤ budget.activeWorkers) error
      let ledger := settleSlot budget slot
      return ({ db with
          budgets := db.budgets.put experimentId ledger.1
          reservations := db.reservations.put slotId ledger.2 }, .slot taskId true)

theorem reconcileOrphan_cases {taskId : Id}
    (returned : reconcileOrphanAction env actor taskId db = .ok (after, reply)) :
    after = db ∨ ∃ experimentId id slot budget,
      db.reservations.find id = some slot ∧ slot.isSlotOf experimentId ∧ slot.state = .active ∧
      db.budgets.find experimentId = some budget ∧
      after = { db with
        budgets := db.budgets.put experimentId (settleSlot budget slot).1
        reservations := db.reservations.put id (settleSlot budget slot).2 } := by
  simp only [reconcileOrphanAction, bind_ok] at returned
  obtain ⟨task, -, -, -, returned⟩ := returned
  split at returned
  · simp only [pure_ok, Prod.mk.injEq] at returned
    exact .inl returned.1.symm
  next slotId _ =>
    simp only [bind_ok, require_ok, orThrow_ok, exists_const] at returned
    obtain ⟨-, -, -, slot, found, bound, returned⟩ := returned
    split at returned
    · simp only [pure_ok, Prod.mk.injEq] at returned
      exact .inl returned.1.symm
    · simp only [bind_ok, require_ok, orThrow_ok, exists_const, pure_ok,
        Prod.mk.injEq] at returned
      obtain ⟨⟨active, -⟩, -, budget, counted, -, rfl, -⟩ := returned
      exact .inr ⟨task.payload.experimentId, slotId, slot, budget, found, bound, active, counted,
        rfl⟩

/-- Release an expired source's capacity only after its VM and model effects settle. -/
def reconcileOrphanWorkerSlot (db : Db) (env : Env) (taskId : Id) (actor : Principal)
    (key : String) : Transacted := do
  controllerRequired actor
  execute db env actor key (.reconcileOrphanWorkerSlot taskId)
    (reconcileOrphanAction env actor taskId)

/-- Close the open bindings of a task whose ledger rows are settled. -/
def closeBindings (db : Db) (experimentId : Id) :
    List (Id × Row ModelReservation) → Except Failure (Table Id (Row ModelReservation) × List Id)
  | [] => .ok (db.modelReservations, [])
  | row :: rest => do
    let error := Failure.refuse "RESERVATION_SCOPE" "Model reservation binding changed."
    let reservation ← orThrow (db.reservations.find row.2.payload.reservationId) error
    require (reservation.experimentId = experimentId) error
    let closed ← closeBindings db experimentId rest
    return if reservation.state = .settled then
        (closed.1.put row.1 (row.2.replace { row.2.payload with active := false }),
          row.2.payload.reservationId :: closed.2)
      else closed

def reconcileModelAction (actor : Principal) (taskId : Id) (db : Db) : Transacted := do
  let task ← db.getTask taskId actor
  let rows := db.modelReservations.select fun _ row =>
    row.projectId = actor.projectId && row.payload.taskId = taskId && row.payload.active
  let closed ← closeBindings db task.payload.experimentId rows
  return ({ db with modelReservations := closed.1 },
    .reconciled taskId closed.2 (rows.length - closed.2.length))

theorem reconcileModel_cases {taskId : Id}
    (returned : reconcileModelAction actor taskId db = .ok (after, reply)) :
    ∃ modelReservations, after = { db with modelReservations } := by
  simp only [reconcileModelAction, bind_ok, pure_ok, Prod.mk.injEq] at returned
  obtain ⟨-, -, closed, -, rfl, -⟩ := returned
  exact ⟨closed.1, rfl⟩

/-- Clear only bindings whose authoritative ledger row is settled. -/
def reconcileModelReservations (db : Db) (env : Env) (taskId : Id) (actor : Principal)
    (key : String) : Transacted := do
  controllerRequired actor
  execute db env actor key (.reconcileModelReservations taskId)
    (reconcileModelAction actor taskId)

/-- The binding of a reservation, when there is one. -/
def bindingOf (db : Db) (actor : Principal) (reservationId : Id) :
    Option (Id × Row ModelReservation) :=
  (db.modelReservations.select fun _ row =>
    row.projectId = actor.projectId && row.payload.reservationId = reservationId).head?

/-- Open or close the binding of a model reservation. -/
def trackBinding (db : Db) (env : Env) (actor : Principal) (experimentId taskId : Id)
    (holder : String) (fence : Nat) (reservationId : Id) (active : Bool) :
    Except Failure (Table Id (Row ModelReservation)) :=
  match active, bindingOf db actor reservationId with
  | true, some _ =>
    .error (.refuse "RESERVATION_SCOPE" "Model reservation was already bound.")
  | true, none => do
    let _ ← checkTaskRecord db actor experimentId taskId
    insertNew db.modelReservations (env.newId 0)
      { projectId := actor.projectId
        payload := { experimentId, taskId, reservationId, holder, fence } }
  | false, none =>
    .error (.refuse "RESERVATION_SCOPE" "Model reservation binding is missing.")
  | false, some existing => do
    require (existing.2.payload.taskId = taskId)
      (.refuse "RESERVATION_SCOPE" "Model reservation binding is missing.")
    return db.modelReservations.put existing.1
      (existing.2.replace { existing.2.payload with active := false })

def trackAction (env : Env) (actor : Principal) (taskId : Id) (holder : String) (fence : Nat)
    (reservationId : Id) (active : Bool) (db : Db) : Transacted := do
  let task ← db.getTask taskId actor
  let _ ← db.fenced env.now taskId holder fence
  let error := Failure.refuse "RESERVATION_SCOPE" "Model reservation is out of task scope."
  let reservation ← orThrow (db.reservations.find reservationId) error
  require (reservation.experimentId = task.payload.experimentId ∧ reservation.workers = 0) error
  let modelReservations ← trackBinding db env actor task.payload.experimentId taskId holder
    fence reservationId active
  return ({ db with modelReservations }, .record taskId 0)

theorem track_cases {taskId : Id} {holder : String} {fence : Nat} {reservationId : Id}
    {active : Bool}
    (returned : trackAction env actor taskId holder fence reservationId active db =
      .ok (after, reply)) :
    ∃ modelReservations, after = { db with modelReservations } := by
  simp only [trackAction, bind_ok, pure_ok, Prod.mk.injEq] at returned
  obtain ⟨-, -, -, -, -, -, -, -, modelReservations, -, rfl, -⟩ := returned
  exact ⟨modelReservations, rfl⟩

/-- Bind a model reservation to its task, separate from concurrent siblings. -/
def trackModelReservation (db : Db) (env : Env) (taskId : Id) (holder : String) (fence : Nat)
    (reservationId : Id) (active : Bool) (actor : Principal) (key : String) : Transacted := do
  controllerRequired actor
  execute db env actor key (.trackModelReservation taskId holder fence reservationId active)
    (trackAction env actor taskId holder fence reservationId active)

/-- A path that `checked_path` refuses as unsafe, before it looks for excluded names. -/
def unsafePath (path : String) : Bool :=
  path.utf8ByteSize = 0 || 1024 < path.utf8ByteSize ||
    (path.toList.splitOn '/').any fun part =>
      part = [] || part = ['.'] || part = ['.', '.'] || Char.ofNat 92 ∈ part ||
        Char.ofNat 0 ∈ part || 255 < (String.ofList part).utf8ByteSize

section Retirement

variable [ContentHash]

/-- The workspace is a failed local one whose VM is not known to be gone. -/
def checkFailedLocal (data : Workspace) (expectedExecutionId : String) : Except Failure Unit := do
  require (data.executionId = some expectedExecutionId)
    (.refuse "WORKSPACE_IDENTITY_MISMATCH" "Execution identity changed.")
  require (data.providerSpec.provider = .localDocker)
    (.refuse "RECOVERY_SCOPE" "Only zero-charge local workspaces qualify.")
  require (data.status = .reconciliationRequired ∧ data.destructionConfirmed = false ∧
      data.activeOperation.isSome ∧ data.costBound = 0)
    (.refuse "RECOVERY_SCOPE" "Workspace is outside failed local recovery.")

/-- The attempt is over: its experiment is stopped and its original lease has expired. -/
def checkAbandoned (db : Db) (env : Env) (data : Workspace) (task : Task)
    (experiment : Experiment) : Except Failure Unit := do
  require (experiment.status = .paused ∨ experiment.status = .cancelled)
    (.refuse "RECOVERY_SCOPE" "Pause or cancel the attempt before retirement.")
  require (task.status ∈ [TaskStatus.blocked, .failed, .running])
    (.refuse "RECOVERY_SCOPE" "Only failed or abandoned attempts qualify.")
  require (task.experimentId = data.experimentId ∧ task.branchId = data.branchId ∧
      task.holder = some data.holder ∧ task.fence = some data.fence ∧
      task.workerSlotId = data.sharedWorkerSlotId)
    (.refuse "RECOVERY_SCOPE" "Original task binding changed.")
  let held := Failure.refuse "LEASE_HELD" "Original task lease is live or replaced."
  let lease ← orThrow (db.leases.find data.taskId) held
  require (lease.holder = data.holder ∧ lease.fence = data.fence ∧ lease.expiresAt ≤ env.now) held

/-- Every model charge of the task is settled. -/
def checkModelCharges (db : Db) (actor : Principal) (taskId experimentId : Id) :
    Except Failure Unit := do
  require (db.pendingModelReservation actor taskId = false)
    (recoveryRequired "Model usage remains open.")
  let bindings := db.modelReservations.select fun _ row =>
    row.projectId = actor.projectId && row.payload.taskId = taskId
  forEach (fun binding => do
    let error := recoveryRequired "Model charge remains open."
    let charge ← orThrow (db.reservations.find binding.2.payload.reservationId) error
    require (charge.experimentId = experimentId ∧ charge.state = .settled) error) bindings

/-- The operator's observation names this VM and attests that it is gone. -/
def checkObservation (data : Workspace) (workspaceId : Id) (expectedExecutionId : String)
    (actor : Principal) (evidence : Artifact) : Except Failure Unit :=
  let provenance := evidence.provenance
  require (evidence.artifactKind = "workspace_recovery_observation" ∧
      evidence.experimentId = some data.experimentId ∧ evidence.branchId = none ∧
      evidence.taskId = none ∧ evidence.submittedBy = actor.id ∧ evidence.trustedInput = false ∧
      provenance.workspaceId = some workspaceId ∧ provenance.taskId = none ∧
      provenance.executionId = some expectedExecutionId ∧
      provenance.destructionConfirmed = true ∧ provenance.absenceConfirmed = true ∧
      provenance.archiveSha256.any isSha256 = true)
    (.refuse "RECOVERY_EVIDENCE_INVALID" "Operator observation is out of scope.")

/-- The uncertain operation is one that retirement covers. -/
def checkUncertainOperation (data : Workspace) (workspaceId : Id) (expectedExecutionId : String)
    (evidence : Artifact) (operation : WorkspaceOperation) : Except Failure Unit := do
  let error := Failure.refuse "RECOVERY_SCOPE" "Uncertain operation binding changed."
  let inputs := operation.inputs
  require (operation.workspaceId = workspaceId ∧ operation.taskId = data.taskId ∧
    operation.status = .reconciliationRequired ∧
    operation.command ∈ [WorkspaceCommand.run, .export, .readRange, .destroy]) error
  require (operation.command = .destroy →
    (∃ code ∈ ["STALE_LEASE", "WORKER_SLOT_AUTHORITY"], ∃ result ∈ operation.result,
      result.code? = some code) ∧
    inputs.executionId = some expectedExecutionId ∧ operation.holder = data.holder ∧
    operation.fence = data.fence ∧ inputs.finalCheckpoint = true) error
  require (operation.command = .readRange →
    operation.experimentId = data.experimentId ∧ operation.branchId = data.branchId ∧
    operation.result = none ∧ inputs.executionId = some expectedExecutionId ∧
    inputs.path.any (·.startsWith "/work/") = true ∧ inputs.offset.any (0 ≤ ·) = true ∧
    inputs.length.any (fun length => 1 ≤ length ∧ length ≤ 65536) = true ∧
    evidence.provenance.predispatchRejectedPath = inputs.path ∧
    inputs.path.any unsafePath = true) error

/-- The workspace's reservation and its slot are zero-cost and still held. -/
def retiredResources (db : Db) (experimentId : Id) (data : Workspace) :
    Except Failure (Reservation × Id × Reservation) := do
  let error := recoveryRequired "Zero-cost resource bindings changed."
  let reservation ← orThrow (db.reservations.find data.reservationId) error
  let slotId ← orThrow data.sharedWorkerSlotId error
  let slot ← orThrow (db.reservations.find slotId) error
  require (reservation.experimentId = experimentId ∧ reservation.state ≠ .settled ∧
    reservation.reserved = 0 ∧ reservation.workers = 0 ∧ reservation.tokensReserved = 0 ∧
    slot.isSlotOf experimentId ∧ slot.state ≠ .settled) error
  return (reservation, slotId, slot)

def Reservation.closed (reservation : Reservation) : Reservation :=
  { reservation with state := .settled, actual := some 0, tokensActual := some 0 }

/-- The sessions that retirement fails, and those it leaves as they are. -/
def SessionStatus.retirable : SessionStatus → Bool
  | .handedOff | .running => true
  | _ => false

/-- Fail the open sessions of an aborted attempt. -/
def failSessions (evidenceArtifactId : Id) (sessions : Table Id (Row Session)) :
    List (Id × Row Session) → Table Id (Row Session)
  | [] => sessions
  | native :: rest =>
    let failed := failSessions evidenceArtifactId sessions rest
    if native.2.payload.status.retirable then
      failed.put native.1 (native.2.replace
        { native.2.payload with
          status := .failed
          recoveryEvidenceArtifactId := some evidenceArtifactId
          errorCode := some "WORKSPACE_RECOVERY_ABORTED" })
    else failed

/-- The task of an aborted attempt. -/
def Task.aborted (task : Task) (evidenceArtifactId : Id) : Task :=
  { task with
    status := .failed
    executionStatus := some .failed
    errorCode := some "WORKSPACE_RECOVERY_ABORTED"
    recoveryEvidenceArtifactId := some evidenceArtifactId }

/-- A workspace whose destruction an operator attested. -/
def Workspace.retired (data : Workspace) (evidenceArtifactId : Id) : Workspace :=
  { data with
    status := .destroyed
    destructionConfirmed := true
    destructionEvidenceArtifactId := some evidenceArtifactId
    activeOperation := none
    billingStatus := some .reconciled
    actualCost := some 0 }

def retireAction (env : Env) (actor : Principal) (workspaceId : Id) (expectedRevision : Nat)
    (expectedExecutionId : String) (evidenceArtifactId : Id) (db : Db) : Transacted := do
  let workspace ← db.getUnscoped db.workspaces workspaceId actor
  let data := workspace.payload
  require (workspace.revision = expectedRevision)
    (.refuse "REVISION_CONFLICT" "Workspace changed since observation.")
  checkFailedLocal data expectedExecutionId
  let task ← db.getTask data.taskId actor
  let experiment ← db.getExperiment data.experimentId actor
  checkAbandoned db env data task.payload experiment.payload
  checkModelCharges db actor data.taskId data.experimentId
  let evidence ← db.getArtifact evidenceArtifactId actor
  checkObservation data workspaceId expectedExecutionId actor evidence.payload
  let operationKey ← orThrow data.activeOperation (.internal "no active operation")
  let operation ← orThrow (db.operations.find operationKey)
    (.notFound "The requested project object was not found.")
  checkUncertainOperation data workspaceId expectedExecutionId evidence.payload operation.payload
  let resources ← retiredResources db data.experimentId data
  require (db.workspaces.anyRow (fun id row =>
      row.projectId = actor.projectId && row.payload.sharedWorkerSlotId = some resources.2.1 &&
        id ≠ workspaceId && row.payload.status ≠ .destroyed) = false)
    (recoveryRequired "Another shared VM remains open.")
  let capacity := recoveryRequired "Worker capacity changed."
  let budget ← orThrow (db.budgets.find data.experimentId) capacity
  require (1 ≤ budget.activeWorkers) capacity
  let ledger := settleSlot budget resources.2.2
  let reservations := (db.reservations.put data.reservationId resources.1.closed).put
    resources.2.1 ledger.2
  let operations := db.operations.put operationKey (operation.replace
    { operation.payload with
      status := .failed
      result := some (.failure "WORKSPACE_OPERATOR_RETIRED"
        (some "Operator-attested retirement after uncertain command.")) })
  let workspaces := db.workspaces.put workspaceId
    (workspace.replace (data.retired evidenceArtifactId))
  let natives := db.taskSessions actor data.taskId
  require (∀ native ∈ natives, native.2.payload.status ∈
      [SessionStatus.handedOff, .running, .completed, .failed])
    (recoveryRequired "A native session has unexpected status.")
  let sessions := failSessions evidenceArtifactId db.sessions natives
  let tasks := db.tasks.put data.taskId (task.replace (task.payload.aborted evidenceArtifactId))
  return ({ db with
      budgets := db.budgets.put data.experimentId ledger.1
      reservations, operations, workspaces, sessions, tasks },
    .workspaceRetired workspaceId data.taskId [data.reservationId, resources.2.1]
      ((natives.filter (·.2.payload.status.retirable)).map (·.1)))

theorem retire_cases {workspaceId : Id} {revision : Nat} {executionId : String} {evidenceId : Id}
    (returned : retireAction env actor workspaceId revision executionId evidenceId db =
      .ok (after, reply)) :
    ∃ workspace task reservation slotId slot budget operations,
      db.workspaces.find workspaceId = some workspace ∧
      db.tasks.find workspace.payload.taskId = some task ∧
      task.payload.status ∈ [TaskStatus.blocked, .failed, .running] ∧
      (∃ lease, db.leases.find workspace.payload.taskId = some lease ∧
        lease.expiresAt ≤ env.now) ∧
      retiredResources db workspace.payload.experimentId workspace.payload =
        .ok (reservation, slotId, slot) ∧
      db.budgets.find workspace.payload.experimentId = some budget ∧
      after = { db with
        budgets := db.budgets.put workspace.payload.experimentId (settleSlot budget slot).1
        reservations := (db.reservations.put workspace.payload.reservationId
          reservation.closed).put slotId (settleSlot budget slot).2
        operations
        workspaces := db.workspaces.put workspaceId
          (workspace.replace (workspace.payload.retired evidenceId))
        sessions := failSessions evidenceId db.sessions
          (db.taskSessions actor workspace.payload.taskId)
        tasks := db.tasks.put workspace.payload.taskId
          (task.replace (task.payload.aborted evidenceId)) } := by
  simp only [retireAction, bind_ok, require_ok, orThrow_ok, exists_const, pure_ok,
    Prod.mk.injEq] at returned
  obtain ⟨workspace, read, -, -, -, task, taken, _, -, _, abandoned, -, -, -, -, -, -, -, -, -, -,
    -, -, ⟨reservation, slotId, slot⟩, resources, -, budget, counted, -, -, rfl, -⟩ := returned
  simp only [checkAbandoned, bind_ok, require_ok, orThrow_ok, exists_const] at abandoned
  obtain ⟨-, status, -, lease, held, -, -, expired⟩ := abandoned
  exact ⟨workspace, task, reservation, slotId, slot, budget, _, Db.getRow_find read,
    Db.getRow_find taken, status, ⟨lease, held, expired⟩, resources, counted, rfl⟩

/-- Record an operator-attested local VM retirement after external destruction. A worker's bound
effects and a scoped identity are both refused. -/
def retireFailedLocalWorkspace (db : Db) (env : Env) (workspaceId : Id) (expectedRevision : Nat)
    (expectedExecutionId : String) (evidenceArtifactId : Id) (actor : Principal) (key : String) :
    Transacted := do
  require ((actor.role = .operator ∨ actor.role = .admin) ∧ actor.experimentId = none ∧
      actor.branchId = none ∧ env.effects = none)
    (.refuse "FORBIDDEN" "Unbound controller authority is required." 403)
  require (1 ≤ expectedRevision)
    (.refuse "REVISION_CONFLICT" "Exact workspace revision required.")
  require (expectedExecutionId ≠ "")
    (.refuse "WORKSPACE_IDENTITY_MISMATCH" "Exact execution identity required.")
  execute db env actor key
    (.retireFailedLocalWorkspace workspaceId expectedRevision expectedExecutionId
      evidenceArtifactId)
    (retireAction env actor workspaceId expectedRevision expectedExecutionId evidenceArtifactId)

end Retirement

end PhysHarness
