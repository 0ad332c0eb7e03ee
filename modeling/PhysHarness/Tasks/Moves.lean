import PhysHarness.System

/-!
What a command does to the tasks and their leases.

Every command leaves the tasks, creates one, renews a lease, or moves one task. A move says under
which lease it was made and what it makes of the status; no move changes what a task depends on or
which parent waits for it.
-/
namespace PhysHarness

open Outcome

/-- The task that a recovery command requeues although nobody holds its lease. -/
def Request.recovers : Request → Option Id
  | .issueContinuation taskId _ _ _ _ _ recoverExpired _ =>
    if recoverExpired then some taskId else none
  | .restoreUnstartedContinuation taskId => some taskId
  | _ => none

/-- The ways a command moves a task, with the leases it leaves. -/
inductive TaskMove (db : Db) (now : Time) (request : Request) (taskId : Id) :
    Row Task → Task → Table Id Lease → Prop
  | rewritten {row after} (status : after.status = row.payload.status) :
      TaskMove db now request taskId row after db.leases
  | leased {row after lease}
      (runnable : row.payload.status = .queued ∨ row.payload.status = .running)
      (free : ∀ held ∈ db.leases.find taskId, held.expiresAt ≤ now)
      (status : after.status = .running) :
      TaskMove db now request taskId row after (db.leases.put taskId lease)
  | finished {row after lease} (held : db.leases.find taskId = some lease)
      (live : now < lease.expiresAt) (status : after.status.terminal = true)
      (joined : after.status = .completed → ∀ childId child, db.tasks.find childId = some child →
        child.projectId = row.projectId → child.payload.replyToParentTaskId = some taskId →
        child.payload.status.terminal = true) :
      TaskMove db now request taskId row after (db.leases.put taskId { lease with expiresAt := 0 })
  | requeued {row after lease} (held : db.leases.find taskId = some lease)
      (live : now < lease.expiresAt) (status : after.status = .queued) :
      TaskMove db now request taskId row after (db.leases.put taskId { lease with expiresAt := 0 })
  | recovered {row after lease} (named : request.recovers = some taskId)
      (held : db.leases.find taskId = some lease) (status : after.status = .queued) :
      TaskMove db now request taskId row after (db.leases.put taskId { lease with expiresAt := 0 })
  | superseded {row after} (queued : row.payload.status = .queued)
      (free : ∀ held ∈ db.leases.find taskId, held.expiresAt ≤ now)
      (status : after.status = .blocked) :
      TaskMove db now request taskId row after db.leases
  | aborted {row after}
      (abandoned : row.payload.status ∈ [TaskStatus.blocked, .failed, .running])
      (free : ∀ held ∈ db.leases.find taskId, held.expiresAt ≤ now)
      (status : after.status = .failed) :
      TaskMove db now request taskId row after db.leases

/-- What a command does to the tasks and the leases. -/
inductive TaskChange (db : Db) (env : Env) (actor : Principal) :
    Request → Table Id (Row Task) → Table Id Lease → Prop
  | kept {request} : TaskChange db env actor request db.tasks db.leases
  | created {request experimentId}
      (bound : db.checkWorkerEffects env.effects env.now actor = .ok ())
      (walked : db.checkAncestors actor experimentId request.dependencyIds
        (db.tasks.rows.length + 1)
        (Db.joinedParent request (Db.delegatedFrom env actor)) = .ok ())
      (known : ∀ identifier ∈ request.dependencyIds, ∃ row, db.tasks.find identifier = some row)
      (fresh : db.tasks.find (env.newId 0) = none) :
      TaskChange db env actor (.createTask request)
        (db.tasks.put (env.newId 0)
          { projectId := actor.projectId
            payload := newTask actor experimentId request (Db.delegatedFrom env actor) })
        db.leases
  | renewed {request taskId lease} {expiresAt : Time} (held : db.leases.find taskId = some lease)
      (live : env.now < lease.expiresAt) :
      TaskChange db env actor request db.tasks (db.leases.put taskId { lease with expiresAt })
  | moved {request taskId row after leases} (stored : db.tasks.find taskId = some row)
      (dependencies : after.dependencyIds = row.payload.dependencyIds)
      (parent : after.replyToParentTaskId = row.payload.replyToParentTaskId)
      (move : TaskMove db env.now request taskId row after leases) :
      TaskChange db env actor request (db.tasks.put taskId (row.replace after)) leases

variable {db after : Db} {env : Env} {actor : Principal} {reply : Reply}

theorem joinedChildPending_none {taskId : Id} {actor : Principal}
    (none : joinedChildPending db actor taskId = false) {childId : Id} {child : Row Task}
    (stored : db.tasks.find childId = some child) (scope : child.projectId = actor.projectId)
    (joined : child.payload.replyToParentTaskId = some taskId) :
    child.payload.status.terminal = true := by
  have settled := Table.anyRow_eq_false.mp none childId child stored
  simpa [scope, joined] using settled

variable [ContentHash]

/-- Every command changes the tasks and the leases in one of the ways above. -/
theorem performs_tasks {request : Request} (performs : request.Performs env actor db after reply) :
    TaskChange db env actor request after.tasks after.leases := by
  cases request with
  | createExperiment =>
    obtain ⟨_, -, -, rfl⟩ := createExperiment_cases performs
    exact .kept
  | transitionExperiment =>
    obtain ⟨_, _, -, rfl⟩ := transition_cases performs
    exact .kept
  | reserveResources =>
    obtain ⟨_, performs⟩ := performs
    obtain ⟨_, _, -, -, -, -, -, rfl⟩ := reserve_cases performs
    exact .kept
  | settleResources =>
    obtain ⟨_, performs⟩ := performs
    rcases settle_cases performs with rfl | ⟨_, -, -, rfl | ⟨_, _, _, -, -, rfl⟩⟩ <;> exact .kept
  | createTask =>
    obtain ⟨bound, performs⟩ := performs
    obtain ⟨_, -, walked, known, fresh, -, rfl⟩ := createTask_cases performs
    exact .created bound walked (fun id member => (known id member).imp fun _ => And.left) fresh
  | acquireTask =>
    obtain ⟨_, stored, runnable, -, free, -, rfl⟩ := acquireTask_cases performs
    exact .moved stored rfl rfl (.leased runnable free rfl)
  | renewTask =>
    obtain ⟨_, live, rfl⟩ := renewTask_cases performs
    have held := Db.fenced_ok.mp live
    exact .renewed held.1 held.2.2.2
  | renewTaskForCleanup =>
    obtain ⟨_, live, rfl⟩ := renewTaskForCleanup_cases performs
    have held := Db.fenced_ok.mp live
    exact .renewed held.1 held.2.2.2
  | finishTask =>
    obtain ⟨terminal, performs⟩ := performs
    obtain ⟨row, _, _, _, _, stored, scope, live, joined, rfl⟩ := finishTask_cases performs
    have held := Db.fenced_ok.mp live
    refine .moved stored rfl rfl (.finished held.1 held.2.2.2 terminal ?_)
    intro completed childId child found same
    exact joinedChildPending_none (joined completed) found (same.trans scope)
  | retireQueuedAfterVerified =>
    rcases retireQueued_cases performs with rfl | ⟨_, _, stored, -, queued, free, -, rfl⟩
    · exact .kept
    · exact .moved stored rfl rfl (.superseded queued free rfl)
  | amendQueuedTaskObjective =>
    obtain ⟨_, stored, -, rfl⟩ := amendQueued_cases performs
    exact .moved stored rfl rfl (.rewritten rfl)
  | bindSlot =>
    obtain ⟨_, stored, rfl⟩ := bindSlot_cases performs
    exact .moved stored rfl rfl (.rewritten rfl)
  | requestHandoff =>
    obtain ⟨_, -, performs⟩ := performs
    obtain ⟨_, stored, _, rfl⟩ := requestHandoff_cases performs
    exact .moved stored rfl rfl (.rewritten rfl)
  | issueContinuation taskId _ _ _ _ _ recoverExpired =>
    obtain ⟨_, lease, _, _, _, _, _, _, _, stored, -, authority, -, -, -, -, -, rfl⟩ :=
      issue_cases performs
    refine .moved stored rfl rfl ?_
    cases recoverExpired with
    | true =>
      simp only [issuingLease, if_true, bind_ok, orThrow_ok, require_ok, exists_const,
        pure_ok] at authority
      obtain ⟨_, held, -, rfl⟩ := authority
      exact .recovered rfl held rfl
    | false =>
      simp only [issuingLease, Bool.false_eq_true, if_false] at authority
      have held := Db.fenced_ok.mp authority
      exact .requeued held.1 held.2.2.2 rfl
  | consumeContinuation =>
    obtain ⟨_, _, _, stored, -, -, -, -, -, -, rfl⟩ := consume_cases performs
    exact .moved stored rfl rfl (.rewritten rfl)
  | restoreUnstartedContinuation =>
    obtain ⟨_, _, _, _, stored, -, -, -, -, -, -, -, held, -, -, -, -, rfl⟩ :=
      restore_cases performs
    exact .moved stored rfl rfl (.recovered rfl held rfl)
  | requeueSettledTerminal =>
    obtain ⟨_, _, _, stored, live, rfl⟩ := requeue_cases performs
    have held := Db.fenced_ok.mp live
    exact .moved stored rfl rfl (.requeued held.1 held.2.2.2 rfl)
  | retireFailedLocalWorkspace =>
    obtain ⟨_, _, _, _, _, _, _, -, stored, abandoned, ⟨_, held, expired⟩, -, -, rfl⟩ :=
      retire_cases performs
    refine .moved stored rfl rfl (.aborted abandoned ?_ rfl)
    intro lease found
    obtain rfl := Option.some.inj (held.symm.trans found)
    exact expired
  | reconcileOrphanWorkerSlot =>
    rcases reconcileOrphan_cases performs with rfl | ⟨_, _, _, _, -, -, -, -, rfl⟩ <;> exact .kept
  | reconcileModelReservations =>
    obtain ⟨_, rfl⟩ := reconcileModel_cases performs
    exact .kept
  | trackModelReservation =>
    obtain ⟨_, rfl⟩ := track_cases performs
    exact .kept
  | runtimeSave =>
    obtain ⟨_, _, _, _, -, -, -, saved⟩ := publish_cases performs
    rcases saved with ⟨_, _, -, -, -, -, -, rfl⟩ | ⟨_, -, -, -, rfl⟩ <;> exact .kept

omit [ContentHash] in
/-- A write of another part of the service keeps every task's status and edges. -/
theorem notedTasks_cases (tasks : Table Id (Row Task)) (notes : Option (Id × TaskNotes)) :
    notedTasks tasks notes = tasks ∨ ∃ id row fields, tasks.find id = some row ∧
      notedTasks tasks notes = tasks.put id (row.replace (row.payload.noted fields)) := by
  unfold notedTasks
  split
  · exact .inl rfl
  · split
    · exact .inl rfl
    next row stored => exact .inr ⟨_, row, _, stored, rfl⟩

omit [ContentHash] in
/-- A broker transaction touches neither the tasks nor their lineage. -/
theorem Sys.Commits.untouched {sys : Sys} {step : BrokerStep}
    (commits : sys.Commits env step after) :
    after.tasks = sys.db.tasks ∧ after.leases = sys.db.leases ∧ after.links = sys.db.links ∧
      after.sessions = sys.db.sessions := by
  have quiet : ∀ {before after : Db}, Broker.Quiet before after → after.tasks = before.tasks ∧
      after.leases = before.leases ∧ after.links = before.links ∧
      after.sessions = before.sessions := by
    rintro before after ⟨_, _, _, _, _, -, rfl, -⟩
    exact ⟨rfl, rfl, rfl, rfl⟩
  cases commits with
  | reserve ran =>
    obtain ⟨_, _, _, _, -, -, -, -, -, -, -, rfl⟩ := Broker.provisionReserve_cases ran
    exact ⟨rfl, rfl, rfl, rfl⟩
  | ready _ ran => exact quiet (Broker.provisionReady_quiet ran)
  | start ran => exact quiet (Broker.start_quiet ran)
  | complete _ ran => exact quiet (Broker.performComplete_quiet ran)
  | refused _ ran => exact quiet (Broker.performRefused_quiet ran)
  | capacity _ _ _ ran =>
    obtain ⟨_, _, _, _, _, _, -, -, -, -, rfl, -⟩ := Broker.provisionCapacity_cases ran
    exact ⟨rfl, rfl, rfl, rfl⟩
  | destroy _ _ _ ran =>
    obtain ⟨_, _, _, _, _, _, -, -, -, -, -, rfl, -⟩ := Broker.performDestroy_cases ran
    exact ⟨rfl, rfl, rfl, rfl⟩
  | destroyed _ ran =>
    obtain ⟨_, _, _, _, _, -, -, -, rfl, -⟩ := Broker.performDestroyed_cases ran
    exact ⟨rfl, rfl, rfl, rfl⟩
  | uncertain _ ran =>
    rcases Broker.recordUncertainty_cases ran with rfl | ⟨_, _, _, _, -, -, rfl, -⟩ <;>
      exact ⟨rfl, rfl, rfl, rfl⟩
  | retain ran =>
    rcases Broker.retain_cases ran with rfl | ⟨_, _, _, _, -, -, rfl, -⟩ <;>
      exact ⟨rfl, rfl, rfl, rfl⟩

end PhysHarness
