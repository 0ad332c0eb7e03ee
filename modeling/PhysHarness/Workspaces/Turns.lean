import PhysHarness.System

/-!
What one transaction makes of a workspace and of the operation that it serves.

Every broker transaction after an allocation writes one workspace and one operation of it. The moves
below are all that it can do to the two; the reservation of the workspace is settled only by a move
that closes it.
-/
namespace PhysHarness

open Outcome Broker

/-- The workspace before and after, and the operation before and after. -/
inductive Move (key : OperationKey) (before after : Workspace) :
    Option WorkspaceOperation → WorkspaceOperation → Prop
  | begun {op : WorkspaceOperation} (ready : before.status = .ready)
      (free : before.activeOperation = none) (status : after.status = .ready)
      (active : after.activeOperation = some key) (pending : op.status = .pending) :
      Move key before after none op
  | retained {op : WorkspaceOperation} (ready : before.status = .ready)
      (free : before.activeOperation = none) (status : after.status = .reconciliationRequired)
      (kept : op.status = .reconciliationRequired) : Move key before after none op
  | readied {prior op : WorkspaceOperation} (status : after.status = .ready)
      (released : after.activeOperation = none) (completed : op.status = .completed)
      (recorded : op.result.isSome = true) : Move key before after (some prior) op
  | released {prior op : WorkspaceOperation} (owned : before.activeOperation = some key)
      (status : after.status = before.status) (released : after.activeOperation = none)
      (ended : op.status = .completed ∨ op.status = .rejected)
      (recorded : op.result.isSome = true) : Move key before after (some prior) op
  | closed {prior op : WorkspaceOperation} (status : after.status = .destroyed)
      (confirmed : after.destructionConfirmed = true)
      (ended : op.status = .completed ∨ op.status = .rejected ∨ op.status = .failed)
      (recorded : op.result.isSome = true) : Move key before after (some prior) op
  | doubted {prior op : WorkspaceOperation} (open_ : prior.status ≠ .completed)
      (status : after.status = .reconciliationRequired)
      (doubted : op.status = .reconciliationRequired) : Move key before after (some prior) op

/-- The reservations keep their experiments, and only some of them are newly settled. -/
structure Holds (before after : Table Id Reservation) (settles : Id → Prop) : Prop where
  kept : Table.Keeps Reservation.experimentId before after
  settled : ∀ id reservation, after.find id = some reservation → reservation.state = .settled →
    (∃ earlier, before.find id = some earlier ∧ earlier.state = .settled) ∨ settles id

/-- What stays of a workspace for good. -/
def Workspace.SameBinding (after before : Workspace) : Prop :=
  after.reservationId = before.reservationId ∧ after.experimentId = before.experimentId ∧
    after.sharedWorkerSlotId = before.sharedWorkerSlotId

/-- The workspace is destroyed, confirmed so, and the reservation is its own. -/
def Closed (db : Db) (workspaceId reservationId : Id) : Prop :=
  ∃ row, db.workspaces.find workspaceId = some row ∧ row.payload.reservationId = reservationId ∧
    row.payload.status = .destroyed ∧ row.payload.destructionConfirmed = true

/-- A transaction that serves one operation of one workspace. -/
inductive Turn (settles : Id → Prop) (db after : Db) (workspaceId : Id) (key : OperationKey) : Prop
  | intro {row : Row Workspace} {data : Workspace} {prior : Option (Row WorkspaceOperation)}
      {op : Row WorkspaceOperation}
      (stored : db.workspaces.find workspaceId = some row)
      (found : db.operations.find key = prior)
      (workspaces : after.workspaces = db.workspaces.put workspaceId (row.replace data))
      (operations : after.operations = db.operations.put key op)
      (experiments : after.experiments = db.experiments)
      (move : Move key row.payload data (prior.map Row.payload) op.payload)
      (owner : op.payload.workspaceId =
        (prior.map fun earlier => earlier.payload.workspaceId).getD workspaceId)
      (bound : data.SameBinding row.payload)
      (holds : Holds db.reservations after.reservations settles)

variable {before after : Table Id Reservation} {settles : Id → Prop}

theorem Holds.refl (reservations : Table Id Reservation) : Holds reservations reservations settles where
  kept := .refl _
  settled _ reservation found settled := .inl ⟨reservation, found, settled⟩

/-- A rewritten reservation is settled when it was before, or when it may be. -/
theorem Holds.put {id : Id} {old new : Reservation} (found : before.find id = some old)
    (same : new.experimentId = old.experimentId)
    (settled : new.state = .settled → old.state = .settled ∨ settles id) :
    Holds before (before.put id new) settles where
  kept := .put found same
  settled other reservation here done := by
    rcases Table.find_put_cases here with ⟨rfl, rfl⟩ | ⟨-, earlier⟩
    · exact (settled done).imp (fun was => ⟨old, found, was⟩) id
    · exact .inl ⟨reservation, earlier, done⟩

/-- Uncertainty settles nothing. -/
theorem Holds.markUncertain {id : Id} {reservation : Reservation}
    (found : before.find id = some reservation) :
    Holds before (markUncertain before id reservation) settles := by
  unfold Broker.markUncertain
  split
  · exact .refl before
  · exact .put found rfl (fun settled => nomatch settled)

namespace Broker

variable {b : Broker} {db after : Db} {env : Env} {workspaceId : Id} {key : OperationKey}

theorem operation_find {op : Row WorkspaceOperation} (read : b.operation db key = .ok op) :
    db.operations.find key = some op := by
  simp only [operation, bind_ok, orThrow_ok, require_ok, exists_const, pure_ok] at read
  obtain ⟨_, found, -, rfl⟩ := read
  exact found

theorem provisionReady_turn {observed : String}
    (returned : b.provisionReady db env workspaceId key observed = .ok after) :
    Turn (Closed after workspaceId) db after workspaceId key := by
  simp only [provisionReady, bind_ok, pure_ok] at returned
  obtain ⟨-, -, row, read, op, named, rfl⟩ := returned
  exact .intro (workspace_find read) (operation_find named) rfl rfl rfl
    (.readied rfl rfl rfl rfl) rfl ⟨rfl, rfl, rfl⟩ (.refl _)

theorem provisionCapacity_turn
    (returned : b.provisionCapacity db env workspaceId key = .ok after) :
    Turn (Closed after workspaceId) db after workspaceId key := by
  simp only [provisionCapacity, bind_ok, orThrow_ok, pure_ok] at returned
  obtain ⟨-, -, row, read, reservation, held, budget, -, op, named, rfl⟩ := returned
  exact .intro (workspace_find read) (operation_find named) rfl rfl rfl
    (.closed rfl rfl (.inr (.inl rfl)) rfl) rfl ⟨rfl, rfl, rfl⟩
    (.put held rfl fun _ => .inr ⟨_, Table.find_put_self .., rfl, rfl, rfl⟩)

theorem performDestroy_turn {executionId : String} {actual : Option Nat}
    (returned : b.performDestroy db env workspaceId executionId key actual = .ok after) :
    Turn (Closed after workspaceId) db after workspaceId key := by
  simp only [performDestroy, bind_ok, require_ok, orThrow_ok, exists_const, pure_ok] at returned
  obtain ⟨row, read, -, -, -, reservation, held, -, budget, -, op, named, rfl⟩ := returned
  refine .intro (workspace_find read) (operation_find named) rfl rfl rfl
    (.closed rfl rfl (.inl rfl) rfl) rfl ⟨rfl, rfl, rfl⟩
    (.put held ?_ fun _ => .inr ⟨_, Table.find_put_self .., rfl, rfl, rfl⟩)
  cases actual <;> rfl

theorem performDestroyed_turn {executionId : String}
    (returned : b.performDestroyed db env workspaceId executionId key = .ok after) :
    Turn (Closed after workspaceId) db after workspaceId key := by
  simp only [performDestroyed, bind_ok, orThrow_ok, pure_ok] at returned
  obtain ⟨row, read, -, -, reservation, held, budget, -, op, named, rfl⟩ := returned
  refine .intro (workspace_find read) (operation_find named) rfl rfl rfl
    (.closed rfl rfl (.inr (.inr rfl)) rfl) rfl ⟨rfl, rfl, rfl⟩
    (.put held ?_ fun _ => .inr ⟨_, Table.find_put_self .., rfl, rfl, rfl⟩)
  unfold failureLedger
  split
  · rfl
  · cases b.providerSpec.provider <;> rfl

theorem performRefused_turn {executionId : String} {authority : Bool} {code message : String}
    (returned : b.performRefused db env workspaceId executionId key authority code message =
      .ok after) : Turn (Closed after workspaceId) db after workspaceId key := by
  simp only [performRefused, bind_ok, require_ok, exists_const, pure_ok] at returned
  obtain ⟨row, read, -, -, owned, op, named, rfl⟩ := returned
  exact .intro (workspace_find read) (operation_find named) rfl rfl rfl
    (.released owned rfl rfl (.inr rfl) rfl) rfl ⟨rfl, rfl, rfl⟩ (.refl _)

/-- A completed call frees the workspace and leaves the rest of it. -/
theorem completed_kept {data written : Workspace} {completion : Completion}
    {artifacts : Table Id (Row Artifact)}
    (returned : b.completed db env data completion = .ok (written, artifacts)) :
    written.SameBinding data ∧ written.status = data.status ∧ written.activeOperation = none := by
  cases completion with
  | plain | restored =>
    simp only [completed, Except.ok.injEq, Prod.mk.injEq] at returned
    obtain ⟨rfl, -⟩ := returned
    exact ⟨⟨rfl, rfl, rfl⟩, rfl, rfl⟩
  | promoted =>
    simp only [completed, bind_ok, require_ok, exists_const, pure_ok, Prod.mk.injEq] at returned
    obtain ⟨-, -, -, -, -, -, -, rfl, -⟩ := returned
    exact ⟨⟨rfl, rfl, rfl⟩, rfl, rfl⟩
  | archived =>
    simp only [completed, bind_ok, pure_ok, Prod.mk.injEq] at returned
    obtain ⟨-, -, rfl, -⟩ := returned
    exact ⟨⟨rfl, rfl, rfl⟩, rfl, rfl⟩

theorem performComplete_turn {executionId : String} {authority : Bool} {completion : Completion}
    (returned : b.performComplete db env workspaceId executionId key authority completion =
      .ok after) : Turn (Closed after workspaceId) db after workspaceId key := by
  simp only [performComplete, bind_ok, require_ok, exists_const, pure_ok] at returned
  obtain ⟨row, read, -, -, owned, ⟨written, artifacts⟩, completes, op, named, rfl⟩ := returned
  obtain ⟨bound, status, released⟩ := completed_kept completes
  exact .intro (workspace_find read) (operation_find named) rfl rfl rfl
    (.released owned status released (.inl rfl) rfl) rfl bound (.refl _)

theorem recordUncertainty_turn {observed : Option String} {confirmed : Bool}
    (returned : b.recordUncertainty db workspaceId key observed confirmed = .ok after) :
    after = db ∨ Turn (Closed after workspaceId) db after workspaceId key := by
  simp only [recordUncertainty, bind_ok] at returned
  obtain ⟨row, read, op, named, returned⟩ := returned
  split at returned
  · simp only [pure_ok] at returned
    exact .inl returned.symm
  next unfinished =>
    simp only [bind_ok, orThrow_ok, pure_ok] at returned
    obtain ⟨reservation, held, rfl⟩ := returned
    exact .inr (.intro (workspace_find read) (operation_find named) rfl rfl rfl
      (.doubted unfinished rfl rfl) rfl ⟨rfl, rfl, rfl⟩ (.markUncertain held))

theorem start_turn {executionId : String} {command : WorkspaceCommand} {inputs : OperationInputs}
    {cleanup : Bool} {attached : Option String} {validated : Except Failure Unit}
    (returned : b.start db env workspaceId executionId key command inputs cleanup attached
      validated = .ok (after, none)) :
    Turn (Closed after workspaceId) db after workspaceId key ∧ db.operations.find key = none ∧
      ∃ op, after.operations.find key = some op ∧ op.payload.workspaceId = workspaceId ∧
        op.payload.status = .pending := by
  simp only [start, bind_ok] at returned
  obtain ⟨row, read, -, -, recorded, -, returned⟩ := returned
  cases recorded with
  | some result => simp at returned
  | none =>
    simp only [bind_ok, require_ok, orThrow_ok, exists_const, insertNew_ok, pure_ok, Prod.mk.injEq,
      and_true] at returned
    obtain ⟨⟨ready, free⟩, -, -, -, -, -, operations, ⟨fresh, rfl⟩, rfl⟩ := returned
    exact ⟨.intro (workspace_find read) fresh rfl rfl rfl (.begun ready free ready rfl rfl) rfl
      ⟨rfl, rfl, rfl⟩ (.refl _), fresh, _, Table.find_put_self .., rfl, rfl⟩

theorem retain_turn {executionId code : String} {command : WorkspaceCommand}
    {inputs : OperationInputs}
    (returned : b.retainWithoutAuthority db workspaceId executionId key command inputs code =
      .ok after) :
    after = db ∨ (Turn (Closed after workspaceId) db after workspaceId key ∧ db.operations.find key = none) := by
  simp only [retainWithoutAuthority, bind_ok] at returned
  obtain ⟨row, read, returned⟩ := returned
  split at returned
  · simp only [pure_ok] at returned
    exact .inl returned.symm
  next kept =>
    simp only [not_or, not_not, Bool.not_eq_true, Option.isSome_eq_false_iff,
      Option.isNone_iff_eq_none] at kept
    obtain ⟨ready, free, -, -, -, -, fresh⟩ := kept
    simp only [bind_ok, orThrow_ok, pure_ok] at returned
    obtain ⟨reservation, held, rfl⟩ := returned
    exact .inr ⟨.intro (workspace_find read) fresh rfl rfl rfl (.retained ready free rfl rfl) rfl
      ⟨rfl, rfl, rfl⟩ (.markUncertain held), fresh⟩

/-- A new workspace with its provision and its reservation. Its experiment is the broker's, and so is
its shared slot, where every earlier workspace is destroyed. -/
inductive Allocation (db after : Db) (workspaceId : Id) (key : OperationKey) : Prop
  | intro {row : Row Workspace} {op : Row WorkspaceOperation} {reservation : Reservation}
      (workspaces : after.workspaces = db.workspaces.put workspaceId row)
      (operations : after.operations = db.operations.put key op)
      (reservations : after.reservations =
        db.reservations.put row.payload.reservationId reservation)
      (experiments : after.experiments = db.experiments)
      (unused : db.workspaces.find workspaceId = none)
      (fresh : db.operations.find key = none)
      (unheld : db.reservations.find row.payload.reservationId = none)
      (active : row.payload.activeOperation = some key)
      (status : row.payload.status = .provisioning)
      (pending : op.payload.status = .pending)
      (owner : op.payload.workspaceId = workspaceId)
      (unsettled : reservation.state ≠ .settled)
      (project : ∃ experiment, db.experiments.find row.payload.experimentId = some experiment ∧
        experiment.projectId = row.projectId)
      (slot : ∀ slotId, row.payload.sharedWorkerSlotId = some slotId →
        (∃ held, db.reservations.find slotId = some held ∧
          held.experimentId = row.payload.experimentId) ∧
        ∀ id other, db.workspaces.find id = some other → other.projectId = row.projectId →
          other.payload.sharedWorkerSlotId = some slotId → other.payload.status = .destroyed)

/-- The task of the guard, its experiment and its slot. -/
theorem guardTask_scope {task : Row Task} (guarded : b.guardTask db env false = .ok task) :
    (∃ experiment, db.experiments.find task.payload.experimentId = some experiment ∧
      experiment.projectId = b.actor.projectId) ∧
    ∀ slotId, b.workerSlotId = some slotId → ∃ held, db.reservations.find slotId = some held ∧
      held.experimentId = task.payload.experimentId := by
  simp only [guardTask, Bool.false_eq_true, if_false, bind_ok, require_ok, exists_const,
    pure_ok] at guarded
  obtain ⟨row, -, experiment, active, -, -, -, _, slot, rfl⟩ := guarded
  refine ⟨?_, fun slotId bound => ?_⟩
  · simp only [Db.active, bind_ok, pure_ok] at active
    obtain ⟨found, read, -⟩ := active
    have known := Db.getRow_ok.mp read
    exact ⟨found, known.1, known.2.1⟩
  · simp only [checkWorkerSlot, bound, bind_ok, orThrow_ok, require_ok] at slot
    obtain ⟨held, found, -, -, -, same⟩ := slot
    exact ⟨held, found, same⟩

theorem provisionReserve_allocation {amount : Nat} {started : Provisioning}
    (returned : b.provisionReserve db env amount key = .ok (after, started)) :
    started = .started (env.newId 1) key ∧ Allocation db after (env.newId 1) key := by
  simp only [provisionReserve, bind_ok, require_ok, orThrow_ok, exists_const, insertNew_ok, pure_ok,
    Prod.mk.injEq] at returned
  obtain ⟨task, guarded, -, -, timeout, -, budget, -, -, free, -, _, ⟨unheld, rfl⟩, -, -, _,
    ⟨unused, rfl⟩, _, ⟨fresh, rfl⟩, rfl, rfl⟩ := returned
  obtain ⟨project, slot⟩ := guardTask_scope guarded
  refine ⟨rfl, .intro rfl rfl rfl rfl unused fresh unheld rfl rfl rfl rfl (by simp) project
    fun slotId bound => ⟨slot slotId bound, fun id other stored same shared => ?_⟩⟩
  simp only [provisioned] at bound
  simp only [slotInUse, bound, Option.isSome_some, Bool.true_and, Table.anyRow_eq_false] at free
  have settled := free id other stored
  simpa [same, shared] using settled

end Broker

section Commands

variable [ContentHash] {db after : Db} {env : Env} {actor : Principal} {reply : Reply}

/-- What leaves the workspaces and the operations alone. -/
structure Aside (db after : Db) : Prop where
  workspaces : after.workspaces = db.workspaces
  operations : after.operations = db.operations
  experiments : Table.Keeps Row.projectId db.experiments after.experiments
  reservations : Table.Keeps Reservation.experimentId db.reservations after.reservations

/-- An operator's retirement closes the workspace and its uncertain operation, and settles the
reservations of both it and its slot. -/
theorem retire_turn {workspaceId : Id} {revision : Nat} {executionId : String} {evidenceId : Id}
    (returned : retireAction env actor workspaceId revision executionId evidenceId db =
      .ok (after, reply)) :
    ∃ row key prior, db.workspaces.find workspaceId = some row ∧
      row.payload.status = .reconciliationRequired ∧
      db.operations.find key = some prior ∧ prior.payload.status = .reconciliationRequired ∧
      prior.payload.workspaceId = workspaceId ∧
      Turn (fun id => Closed after workspaceId id ∨ row.payload.sharedWorkerSlotId = some id)
        db after workspaceId key := by
  simp only [retireAction, bind_ok, require_ok, orThrow_ok, exists_const, pure_ok,
    Prod.mk.injEq] at returned
  obtain ⟨row, read, -, _, failed, task, -, _, -, _, -, _, -, evidence, -, _, -, key, active, prior,
    found, _, uncertain, ⟨reservation, slotId, slot⟩, resources, -, budget, -, -, -, rfl, -⟩ :=
    returned
  have stored := Db.getRow_find read
  simp only [checkFailedLocal, bind_ok, require_ok, exists_const] at failed
  obtain ⟨-, -, doubted, -⟩ := failed
  simp only [checkUncertainOperation, bind_ok, require_ok, exists_const] at uncertain
  obtain ⟨⟨owner, -, status, -⟩, -⟩ := uncertain
  simp only [retiredResources, bind_ok, orThrow_ok, require_ok, exists_const, pure_ok,
    Prod.mk.injEq] at resources
  obtain ⟨own, held, slotId', shared, slot', bound, -, rfl, rfl, rfl⟩ := resources
  refine ⟨row, key, prior, stored, doubted, found, status, owner, .intro stored found rfl rfl rfl
    (.closed rfl rfl (.inr (.inr rfl)) rfl) rfl ⟨rfl, rfl, rfl⟩ ?_⟩
  have first : Holds db.reservations
      (db.reservations.put row.payload.reservationId own.closed) fun id =>
        id = row.payload.reservationId := .put held rfl fun _ => .inr rfl
  obtain ⟨still, there, same⟩ := first.kept slotId' slot' bound
  refine ⟨first.kept.trans (.put there same.symm), fun id later here settled => ?_⟩
  rcases Table.find_put_cases here with ⟨rfl, -⟩ | ⟨-, there⟩
  · exact .inr (.inr shared)
  · refine (first.settled id later there settled).imp (fun was => was) fun mine => ?_
    exact .inl ⟨_, Table.find_put_self .., mine.symm, rfl, rfl⟩

/-- Every command leaves the workspaces alone, but for the retirement of one. -/
theorem performs_aside {request : Request} (performs : request.Performs env actor db after reply) :
    Aside db after ∨ ∃ workspaceId revision executionId evidenceId,
      request = .retireFailedLocalWorkspace workspaceId revision executionId evidenceId ∧
      retireAction env actor workspaceId revision executionId evidenceId db =
        .ok (after, reply) := by
  cases request with
  | retireFailedLocalWorkspace workspaceId revision executionId evidenceId =>
    exact .inr ⟨workspaceId, revision, executionId, evidenceId, rfl, performs⟩
  | createExperiment =>
    obtain ⟨_, unused, -, rfl⟩ := createExperiment_cases performs
    exact .inl ⟨rfl, rfl, .put_new unused, .refl _⟩
  | transitionExperiment =>
    obtain ⟨row, _, stored, rfl⟩ := transition_cases performs
    exact .inl ⟨rfl, rfl, .put stored rfl, .refl _⟩
  | reserveResources =>
    obtain ⟨_, performs⟩ := performs
    obtain ⟨_, _, -, -, -, -, fresh, rfl⟩ := reserve_cases performs
    exact .inl ⟨rfl, rfl, .refl _, .put_new fresh⟩
  | settleResources =>
    obtain ⟨_, performs⟩ := performs
    rcases settle_cases performs with rfl | ⟨reservation, stored, -, rfl | settled⟩
    · exact .inl ⟨rfl, rfl, .refl _, .refl _⟩
    · exact .inl ⟨rfl, rfl, .refl _, .put stored rfl⟩
    · obtain ⟨experiment, budget, charge, read, -, rfl⟩ := settled
      refine .inl ⟨rfl, rfl, ?_, .put stored rfl⟩
      dsimp only [settleCharge]
      split
      · exact .put read rfl
      · exact .refl _
  | reconcileOrphanWorkerSlot =>
    rcases reconcileOrphan_cases performs with rfl | ⟨_, _, slot, budget, stored, -, -, -, rfl⟩
    · exact .inl ⟨rfl, rfl, .refl _, .refl _⟩
    · exact .inl ⟨rfl, rfl, .refl _, .put stored rfl⟩
  | issueContinuation =>
    obtain ⟨_, _, _, _, _, _, _, _, ledger, -, -, -, -, -, -, released, -, rfl⟩ :=
      issue_cases performs
    rcases releaseSourceSlot_cases released with rfl | ⟨_, slot, budget, stored, -, -, -, rfl⟩
    · exact .inl ⟨rfl, rfl, .refl _, .refl _⟩
    · exact .inl ⟨rfl, rfl, .refl _, .put stored rfl⟩
  | createTask =>
    obtain ⟨_, -, -, -, -, -, rfl⟩ := createTask_cases performs.2
    exact .inl ⟨rfl, rfl, .refl _, .refl _⟩
  | acquireTask =>
    obtain ⟨_, -, -, -, -, -, rfl⟩ := acquireTask_cases performs
    exact .inl ⟨rfl, rfl, .refl _, .refl _⟩
  | renewTask =>
    obtain ⟨_, -, rfl⟩ := renewTask_cases performs
    exact .inl ⟨rfl, rfl, .refl _, .refl _⟩
  | renewTaskForCleanup =>
    obtain ⟨_, -, rfl⟩ := renewTaskForCleanup_cases performs
    exact .inl ⟨rfl, rfl, .refl _, .refl _⟩
  | finishTask =>
    obtain ⟨_, _, _, _, _, -, -, -, -, rfl⟩ := finishTask_cases performs.2
    exact .inl ⟨rfl, rfl, .refl _, .refl _⟩
  | retireQueuedAfterVerified =>
    rcases retireQueued_cases performs with rfl | ⟨_, _, -, -, -, -, -, rfl⟩
    · exact .inl ⟨rfl, rfl, .refl _, .refl _⟩
    · exact .inl ⟨rfl, rfl, .refl _, .refl _⟩
  | amendQueuedTaskObjective =>
    obtain ⟨_, -, -, rfl⟩ := amendQueued_cases performs
    exact .inl ⟨rfl, rfl, .refl _, .refl _⟩
  | bindSlot =>
    obtain ⟨_, -, rfl⟩ := bindSlot_cases performs
    exact .inl ⟨rfl, rfl, .refl _, .refl _⟩
  | requestHandoff =>
    obtain ⟨_, -, performs⟩ := performs
    obtain ⟨_, -, _, rfl⟩ := requestHandoff_cases performs
    exact .inl ⟨rfl, rfl, .refl _, .refl _⟩
  | consumeContinuation =>
    obtain ⟨_, _, _, -, -, -, -, -, -, -, rfl⟩ := consume_cases performs
    exact .inl ⟨rfl, rfl, .refl _, .refl _⟩
  | restoreUnstartedContinuation =>
    obtain ⟨_, _, _, _, -, -, -, -, -, -, -, -, -, -, -, -, -, rfl⟩ := restore_cases performs
    exact .inl ⟨rfl, rfl, .refl _, .refl _⟩
  | requeueSettledTerminal =>
    obtain ⟨_, _, _, -, -, rfl⟩ := requeue_cases performs
    exact .inl ⟨rfl, rfl, .refl _, .refl _⟩
  | reconcileModelReservations =>
    obtain ⟨_, rfl⟩ := reconcileModel_cases performs
    exact .inl ⟨rfl, rfl, .refl _, .refl _⟩
  | trackModelReservation =>
    obtain ⟨_, rfl⟩ := track_cases performs
    exact .inl ⟨rfl, rfl, .refl _, .refl _⟩
  | runtimeSave =>
    obtain ⟨_, _, _, _, -, -, -, saved⟩ := publish_cases performs
    rcases saved with ⟨_, _, -, -, -, -, -, rfl⟩ | ⟨_, -, -, -, rfl⟩ <;>
      exact .inl ⟨rfl, rfl, .refl _, .refl _⟩

end Commands

end PhysHarness
