import PhysHarness.Evidence
import PhysHarness.Resources

/-!
Delegation and leases: creating, leasing, renewing, amending, finishing and superseding tasks.
-/
namespace PhysHarness

open Outcome

variable {db after : Db} {env : Env} {actor : Principal} {reply : Reply}

def platform : Id := "commons-platform"

def refereeIsolated : Failure :=
  .refuse "REFEREE_ISOLATED" "Referee branches are isolated from other branches." 403 false
    "Discuss the node on its commons thread; the referee reads it there."

namespace Db

/-- A branch the actor may write to; a parent may also delegate into its own child branch. -/
def writableBranch (db : Db) (branchId : Id) (actor : Principal) :
    Except Failure (Row Branch) := do
  let branch ← db.getBranch branchId actor
  require (branch.payload.referee = true → actor.branchId = some branchId) refereeIsolated
  require (actor.role ≠ .agent ∨ actor.agentOrchestrator = true ∨
      actor.branchId = some branchId ∨
      (actor.branchId = none ∧ branch.payload.originActorId = actor.id) ∨
      (actor.branchId.isSome ∧ branch.payload.parentId = actor.branchId))
    (.refuse "BRANCH_AUTHORITY" "The identity cannot write another branch." 403)
  return branch

/-- Walk the joined ancestors of a new child: none of them may be among its dependencies. The walk
follows `reply_to_parent_task_id` for at most `fuel` tasks. -/
def checkAncestors (db : Db) (actor : Principal) (experimentId : Id) (dependencyIds : List Id) :
    (fuel : Nat) → (ancestorId : Option Id) → Except Failure Unit
  | _, none => .ok ()
  | 0, some _ => .error (.internal "the ancestor walk does not end")
  | fuel + 1, some ancestorId => do
    require (ancestorId ∉ dependencyIds)
      (.refuse "JOIN_DEPENDENCY_CYCLE"
        "Joined work cannot depend on an ancestor that waits for it." 422)
    let error := Failure.refuse "TASK_SCOPE" "Delegated task lineage changed."
    let ancestor ← orThrow (db.tasks.find ancestorId) error
    require (ancestor.projectId = actor.projectId ∧
      ancestor.payload.experimentId = experimentId) error
    checkAncestors db actor experimentId dependencyIds fuel
      ancestor.payload.replyToParentTaskId

/-- The task a bound agent delegates from. -/
def delegatedFrom (env : Env) (actor : Principal) : Option Id :=
  if actor.role = .agent then env.effects.map (·.taskId) else none

/-- The parent that a new task reports to and that waits for it. -/
def joinedParent (request : TaskRequest) (delegatedFromTaskId : Option Id) : Option Id :=
  if request.detached then none else delegatedFromTaskId

end Db

/-- A queued task of a branch, with the parent that waits for it. -/
def newTask (actor : Principal) (experimentId : Id) (request : TaskRequest)
    (delegatedFromTaskId : Option Id) : Task where
  experimentId
  branchId := request.branchId
  originActorId := actor.id
  createdBy := actor.id
  objective := request.objective
  dependencyIds := request.dependencyIds
  detached := request.detached
  delegatedFromTaskId
  replyToParentTaskId := Db.joinedParent request delegatedFromTaskId

def createTaskAction (env : Env) (actor : Principal) (request : TaskRequest)
    (delegatedFromTaskId : Option Id) (db : Db) : Transacted := do
  let branch ← db.writableBranch request.branchId actor
  let experimentId := branch.payload.experimentId
  env.admission
  require request.dependencyIds.Nodup
    (.refuse "DUPLICATE_DEPENDENCY" "Task dependencies must be unique." 422)
  db.checkAncestors actor experimentId request.dependencyIds (db.tasks.rows.length + 1)
    (Db.joinedParent request delegatedFromTaskId)
  forEach (fun identifier => do
    let dependency ← db.getTask identifier actor
    require (dependency.payload.experimentId = experimentId)
      (.refuse "DEPENDENCY_SCOPE" "Delegated task dependencies must share an experiment."))
    request.dependencyIds
  let id := env.newId 0
  let tasks ← insertNew db.tasks id
    { projectId := actor.projectId
      payload := newTask actor experimentId request delegatedFromTaskId }
  return ({ db with tasks }, .record id 1)

theorem createTask_cases {request : TaskRequest} {delegated : Option Id}
    (returned : createTaskAction env actor request delegated db = .ok (after, reply)) :
    ∃ branch : Row Branch, db.writableBranch request.branchId actor = .ok branch ∧
      db.checkAncestors actor branch.payload.experimentId request.dependencyIds
        (db.tasks.rows.length + 1) (Db.joinedParent request delegated) = .ok () ∧
      (∀ identifier ∈ request.dependencyIds, ∃ row, db.tasks.find identifier = some row ∧
        row.payload.experimentId = branch.payload.experimentId) ∧
      db.tasks.find (env.newId 0) = none ∧ reply = .record (env.newId 0) 1 ∧
      after = { db with
        tasks := db.tasks.put (env.newId 0)
          { projectId := actor.projectId
            payload := newTask actor branch.payload.experimentId request delegated } } := by
  simp only [createTaskAction, bind_ok, require_ok, exists_const, forEach_ok, insertNew_ok,
    pure_ok, Prod.mk.injEq] at returned
  obtain ⟨branch, writable, -, -, -, _, walked, dependencies, _, ⟨fresh, rfl⟩, rfl, rfl⟩ :=
    returned
  refine ⟨branch, writable, walked, ?_, fresh, rfl, rfl⟩
  intro identifier member
  obtain ⟨row, read, same⟩ := dependencies identifier member
  exact ⟨row, Db.getRow_find read, same⟩

def createTask (db : Db) (env : Env) (request : TaskRequest) (actor : Principal) (key : String) :
    Transacted := do
  researchRole actor
  let delegatedFromTaskId := Db.delegatedFrom env actor
  require (delegatedFromTaskId.isSome ∨ ¬ (request.detached = true ∧ actor.role = .agent))
    (.refuse "DETACHED_SCOPE" "Detached work requires a current parent task.")
  execute db env actor key (.createTask request delegatedFromTaskId)
    (createTaskAction env actor request delegatedFromTaskId)

def invalidLease (message : String := "Lease duration must be 1–300 seconds.") : Failure :=
  .refuse "INVALID_LEASE" message 422

/-- The fence of the next lease of a task. -/
def nextFence (lease : Option Lease) : Nat :=
  match lease with
  | some lease => lease.fence + 1
  | none => 1

/-- A task under a new lease. -/
def Task.leased (task : Task) (holder : String) (fence : Nat) : Task :=
  { task with status := .running, holder := some holder, fence := some fence }

def acquireTaskAction (env : Env) (actor : Principal) (taskId : Id) (holder : String)
    (ttlSeconds : Nat) (db : Db) : Transacted := do
  let task ← db.getTask taskId actor
  let _ ← db.active env.now task.payload.experimentId actor
  require (task.payload.status = .queued ∨ task.payload.status = .running)
    (.refuse "TASK_NOT_RUNNABLE" "Task is not queued or recoverable.")
  forEach (fun identifier => do
    let dependency ← db.getTask identifier actor
    require (dependency.payload.status = .completed)
      (.refuse "DEPENDENCIES_PENDING" "Task prerequisites have not completed." 409 true))
    task.payload.dependencyIds
  let lease := db.leases.find taskId
  require (∀ held ∈ lease, held.expiresAt ≤ env.now)
    (.refuse "LEASE_HELD" "A live worker holds this task." 409 true)
  let fence := nextFence lease
  let expiresAt := env.now + ttlSeconds * Time.second
  let leases := db.leases.put taskId { holder, fence, expiresAt }
  let tasks := db.tasks.put taskId (task.replace (task.payload.leased holder fence))
  return ({ db with leases, tasks }, .lease taskId holder fence expiresAt)

theorem acquireTask_cases {taskId : Id} {holder : String} {ttlSeconds : Nat}
    (returned : acquireTaskAction env actor taskId holder ttlSeconds db = .ok (after, reply)) :
    ∃ task, db.tasks.find taskId = some task ∧
      (task.payload.status = .queued ∨ task.payload.status = .running) ∧
      (∀ identifier ∈ task.payload.dependencyIds, ∃ row, db.tasks.find identifier = some row ∧
        row.payload.status = .completed) ∧
      (∀ held ∈ db.leases.find taskId, held.expiresAt ≤ env.now) ∧
      reply = .lease taskId holder (nextFence (db.leases.find taskId))
        (env.now + ttlSeconds * Time.second) ∧
      after = { db with
        leases := db.leases.put taskId
          { holder
            fence := nextFence (db.leases.find taskId)
            expiresAt := env.now + ttlSeconds * Time.second }
        tasks := db.tasks.put taskId (task.replace
          (task.payload.leased holder (nextFence (db.leases.find taskId)))) } := by
  simp only [acquireTaskAction, bind_ok, require_ok, exists_const, forEach_ok, pure_ok,
    Prod.mk.injEq] at returned
  obtain ⟨task, read, -, -, status, dependencies, free, rfl, rfl⟩ := returned
  refine ⟨task, Db.getRow_find read, status, ?_, free, rfl, rfl⟩
  intro identifier member
  obtain ⟨row, found, completed⟩ := dependencies identifier member
  exact ⟨row, Db.getRow_find found, completed⟩

def acquireTask (db : Db) (env : Env) (taskId : Id) (holder : String) (ttlSeconds : Nat)
    (actor : Principal) (key : String) : Transacted := do
  controllerOnly actor
  require (holder ≠ "" ∧ 1 ≤ ttlSeconds ∧ ttlSeconds ≤ 300)
    (invalidLease "Lease holder and a duration of 1–300 seconds are required.")
  execute db env actor key (.acquireTask taskId holder ttlSeconds)
    (acquireTaskAction env actor taskId holder ttlSeconds)

def renewTaskAction (env : Env) (actor : Principal) (taskId : Id) (holder : String)
    (fence ttlSeconds : Nat) (db : Db) : Transacted := do
  let task ← db.getTask taskId actor
  let _ ← db.active env.now task.payload.experimentId actor
  let lease ← db.fenced env.now taskId holder fence
  let expiresAt := env.now + ttlSeconds * Time.second
  return ({ db with leases := db.leases.put taskId { lease with expiresAt } },
    .renewed taskId fence expiresAt)

theorem renewTask_cases {taskId : Id} {holder : String} {fence ttlSeconds : Nat}
    (returned : renewTaskAction env actor taskId holder fence ttlSeconds db = .ok (after, reply)) :
    ∃ lease, db.fenced env.now taskId holder fence = .ok lease ∧
      after = { db with
        leases := db.leases.put taskId
          { lease with expiresAt := env.now + ttlSeconds * Time.second } } := by
  simp only [renewTaskAction, bind_ok, pure_ok, Prod.mk.injEq] at returned
  obtain ⟨-, -, -, -, lease, held, rfl, -⟩ := returned
  exact ⟨lease, held, rfl⟩

def renewTask (db : Db) (env : Env) (taskId : Id) (holder : String) (fence ttlSeconds : Nat)
    (actor : Principal) (key : String) : Transacted := do
  controllerOnly actor
  require (1 ≤ ttlSeconds ∧ ttlSeconds ≤ 300) invalidLease
  execute db env actor key (.renewTask taskId holder fence ttlSeconds)
    (renewTaskAction env actor taskId holder fence ttlSeconds)

/-- The worker slot a closing holder names is still the task's active controller reservation. -/
def checkCleanupSlot (db : Db) (task : Task) (workerSlotId : Option Id) : Except Failure Unit :=
  match workerSlotId with
  | none => .ok ()
  | some slotId => do
    let error := Failure.refuse "WORKER_SLOT_AUTHORITY"
      "Shared worker slot requires the task's active controller reservation."
    let slot ← orThrow (db.reservations.find slotId) error
    require (task.workerSlotId = some slotId ∧ slot.state = .active ∧ slot.workers = 1 ∧
      slot.experimentId = task.experimentId) error

def renewTaskForCleanupAction (env : Env) (actor : Principal) (taskId : Id) (holder : String)
    (fence : Nat) (workerSlotId : Option Id) (ttlSeconds : Nat) (db : Db) : Transacted := do
  let task ← db.getTask taskId actor
  let _ ← db.getExperiment task.payload.experimentId actor
  let lease ← db.fenced env.now taskId holder fence
  checkCleanupSlot db task.payload workerSlotId
  require (db.workspaces.anyRow (fun _ row =>
      row.projectId = actor.projectId &&
        row.payload.experimentId = task.payload.experimentId &&
        row.payload.taskId = taskId && row.payload.status = .ready &&
        row.payload.holder = holder && row.payload.fence = fence &&
        row.payload.sharedWorkerSlotId = workerSlotId) = true)
    (.refuse "CLEANUP_SCOPE" "This holder has no open workspace left to close.")
  let expiresAt := max lease.expiresAt (env.now + ttlSeconds * Time.second)
  return ({ db with leases := db.leases.put taskId { lease with expiresAt } },
    .renewed taskId fence expiresAt)

theorem renewTaskForCleanup_cases {taskId : Id} {holder : String} {fence ttlSeconds : Nat}
    {slotId : Option Id}
    (returned : renewTaskForCleanupAction env actor taskId holder fence slotId ttlSeconds db =
      .ok (after, reply)) :
    ∃ lease, db.fenced env.now taskId holder fence = .ok lease ∧
      after = { db with
        leases := db.leases.put taskId
          { lease with
            expiresAt := max lease.expiresAt (env.now + ttlSeconds * Time.second) } } := by
  simp only [renewTaskForCleanupAction, bind_ok, require_ok, exists_const, pure_ok,
    Prod.mk.injEq] at returned
  obtain ⟨-, -, -, -, lease, held, -, -, -, rfl, -⟩ := returned
  exact ⟨lease, held, rfl⟩

def renewTaskForCleanup (db : Db) (env : Env) (taskId : Id) (holder : String) (fence : Nat)
    (workerSlotId : Option Id) (ttlSeconds : Nat) (actor : Principal) (key : String) :
    Transacted := do
  controllerOnly actor
  require (1 ≤ ttlSeconds ∧ ttlSeconds ≤ 300) invalidLease
  execute db env actor key (.renewTaskForCleanup taskId holder fence workerSlotId ttlSeconds)
    (renewTaskForCleanupAction env actor taskId holder fence workerSlotId ttlSeconds)

section Finishing

variable [ContentHash]

/-- Read the evidence of a completion in order. The first research output of the task's own branch
supplies the summary. -/
def collectEvidence (env : Env) (actor : Principal) (task : Task) (db : Db) :
    (evidenceIds : List Id) → (summary : Option String) → Except Failure (Option String)
  | [], summary => .ok summary
  | identifier :: rest, summary => do
    let artifact ← db.getArtifact identifier actor
    require (artifact.payload.experimentId = some task.experimentId)
      (.refuse "EVIDENCE_SCOPE" "Completion evidence belongs to another experiment.")
    let content ← orThrow (env.content artifact.payload.sha256)
      (.refuse "ARTIFACT_NOT_FOUND" "Artifact bytes are unavailable." 404)
    let outputs := artifact.payload.artifactKind = "research_output" ∧
      artifact.payload.branchId = some task.branchId
    let found := if summary = none ∧ outputs then some (content.take 4000).toString else summary
    collectEvidence env actor task db rest found

/-- The result a joined child returns; a task without a parent keeps what it had. -/
def returnedResult (task : Task) (status : TaskStatus) (evidenceIds : List Id)
    (summary : Option String) : Option ReturnResult :=
  if task.replyToParentTaskId.isNone then task.returnResult
  else
    let returned := task.returnResult.getD {}
    some
      { returned with
        executionStatus := some status
        artifactIds := (returned.artifactIds ++ evidenceIds).eraseDups
        summary := (returned.summary.filter (· ≠ "")).or summary
        executionFailure :=
          if status = .completed then returned.executionFailure else some (status, evidenceIds) }

/-- The recipient of a parent's notice, as an identity whose scope can be checked. -/
def recipientOf (actor : Principal) (experimentId branchId : Id) : Principal where
  id := "recipient:" ++ branchId
  projectId := actor.projectId
  role := .agent
  experimentId := some experimentId
  branchId := some branchId
  agentScoped := fun _ => rfl
  orchestratorUnscoped := by simp
  branchScoped := fun _ => rfl

/-- The artifacts of a message that its recipient may read. -/
def recipientVisibleArtifacts (db : Db) (experimentId recipientBranchId : Id) (actor : Principal) :
    (artifactIds : List Id) → Except Failure (List Id)
  | [] => .ok []
  | identifier :: rest => do
    let evidence ← db.getArtifact identifier actor
    require (evidence.payload.experimentId = some experimentId)
      (.refuse "EVIDENCE_SCOPE" "Message evidence belongs to another experiment.")
    let visible ← recipientVisibleArtifacts db experimentId recipientBranchId actor rest
    let recipient := recipientOf actor experimentId recipientBranchId
    return if db.artifactInScope recipient identifier evidence then identifier :: visible
      else visible

/-- The notice that a finished joined child sends to its parent's branch under ideas sharing. -/
def notifyParent (env : Env) (actor : Principal) (taskId : Id) (task : Task)
    (returned : Option ReturnResult) (db : Db) : Except Failure (Table Id (Row Message)) :=
  match task.replyToParentTaskId with
  | none => .ok db.messages
  | some parentId => do
    let experiment ← db.getExperiment task.experimentId actor
    if experiment.payload.sharing ≠ .ideas then
      return db.messages
    else
      let error := Failure.refuse "RETURN_RESULT_SCOPE" "Parent task binding changed."
      let parent ← orThrow (db.tasks.find parentId) error
      require (parent.projectId = actor.projectId ∧
        parent.payload.experimentId = task.experimentId) error
      let result := returned.getD {}
      let artifactIds ← recipientVisibleArtifacts db task.experimentId parent.payload.branchId
        actor result.artifactIds
      let executionFailure := result.executionFailure.map fun failure =>
        (failure.1, failure.2.filter (· ∈ artifactIds))
      insertNew db.messages (env.newId 0)
        { projectId := actor.projectId
          payload :=
            { experimentId := task.experimentId
              senderBranchId := task.branchId
              recipientBranchId := parent.payload.branchId
              replyToParentTaskId := some parentId
              childTaskId := some taskId
              artifactIds
              result := some { result with artifactIds, executionFailure } } }

/-- A joined child of the task that is still queued or running. -/
def joinedChildPending (db : Db) (actor : Principal) (taskId : Id) : Bool :=
  db.tasks.anyRow fun _ row =>
    row.projectId = actor.projectId && row.payload.replyToParentTaskId = some taskId &&
      !row.payload.status.terminal

/-- A branch whose research is exhausted is parked with its blocked task. -/
def parkExhausted (db : Db) (actor : Principal) (task : Task) (status : TaskStatus) :
    Except Failure (Table Id (Row Branch)) :=
  if status = .blocked ∧ task.progressExhausted = true then do
    let branch ← db.getBranch task.branchId actor
    return db.branches.put task.branchId
      (branch.replace { branch.payload with parked := true })
  else .ok db.branches

/-- A task with its outcome. -/
def Task.finished (task : Task) (status : TaskStatus) (evidenceIds : List Id)
    (returned : Option ReturnResult) : Task :=
  { task with
    status
    evidenceIds
    executionStatus := some status
    terminalRecovery := none
    errorCode :=
      if status = .blocked ∧ task.progressExhausted = true then
        some "RESEARCH_STAGNATION_EXHAUSTED"
      else task.errorCode
    returnResult := returned }

def finishTaskAction (env : Env) (actor : Principal) (taskId : Id) (holder : String) (fence : Nat)
    (evidenceIds : List Id) (status : TaskStatus) (db : Db) : Transacted := do
  let task ← db.getTask taskId actor
  let _ ← db.active env.now task.payload.experimentId actor
  let lease ← db.fenced env.now taskId holder fence
  require (status = .completed → joinedChildPending db actor taskId = false)
    (.refuse "JOINED_CHILDREN_PENDING" "Joined work must settle before task completion.")
  let summary ← collectEvidence env actor task.payload db evidenceIds none
  let returned := returnedResult task.payload status evidenceIds summary
  let finished := { db with
    tasks := db.tasks.put taskId
      (task.replace (task.payload.finished status evidenceIds returned)) }
  let branches ← parkExhausted finished actor task.payload status
  let messages ← notifyParent env actor taskId task.payload returned { finished with branches }
  let leases := db.leases.put taskId { lease with expiresAt := 0 }
  return ({ finished with branches, messages, leases }, .task taskId status)

theorem finishTask_cases {taskId : Id} {holder : String} {fence : Nat} {evidenceIds : List Id}
    {status : TaskStatus}
    (returned : finishTaskAction env actor taskId holder fence evidenceIds status db =
      .ok (after, reply)) :
    ∃ task lease result branches messages, db.tasks.find taskId = some task ∧
      task.projectId = actor.projectId ∧
      db.fenced env.now taskId holder fence = .ok lease ∧
      (status = .completed → joinedChildPending db actor taskId = false) ∧
      after = { db with
        tasks := db.tasks.put taskId
          (task.replace (task.payload.finished status evidenceIds result))
        branches, messages
        leases := db.leases.put taskId { lease with expiresAt := 0 } } := by
  simp only [finishTaskAction, bind_ok, require_ok, exists_const, pure_ok,
    Prod.mk.injEq] at returned
  obtain ⟨task, read, -, -, lease, held, joined, summary, -, branches, -, messages, -, rfl, -⟩ :=
    returned
  have found := Db.getRow_ok.mp read
  exact ⟨task, lease, _, branches, messages, found.1, found.2.1, held, joined, rfl⟩

def finishTask (db : Db) (env : Env) (taskId : Id) (holder : String) (fence : Nat)
    (evidenceIds : List Id) (status : TaskStatus) (actor : Principal) (key : String) :
    Transacted := do
  controllerOnly actor
  require (status.terminal = true ∧ evidenceIds ≠ [])
    (.refuse "COMPLETION_EVIDENCE_REQUIRED"
      "Completion needs evidence and an explicit outcome." 422)
  execute db env actor key (.finishTask taskId holder fence evidenceIds status)
    (finishTaskAction env actor taskId holder fence evidenceIds status)

/-- Retire the issued link of a queued task's ticket, when it has one. -/
def retireLink (db : Db) (actor : Principal) (taskId receiptId : Id) (ready : Option Ready) :
    Except Failure (Table Id (Row ContinuationLink)) :=
  match ready with
  | none => .ok db.links
  | some ticket => do
    let found := (db.links.select fun _ row =>
      row.projectId = actor.projectId && row.payload.taskId = taskId &&
        row.payload.ordinal = ticket.ordinal).head?
    let error := Failure.refuse "CONTINUATION_LINEAGE_MISMATCH" "Ready link changed."
    let link ← orThrow found error
    require (link.2.payload.status = .issued) error
    return db.links.put link.1 (link.2.replace
      { link.2.payload with status := .retired, retiredByReceiptId := some receiptId })

/-- A queued task whose exact target was accepted elsewhere. -/
def Task.superseded (task : Task) (receiptId : Id) : Task :=
  { task with
    status := .blocked
    errorCode := some "TARGET_ALREADY_VERIFIED"
    supersededByReceiptId := some receiptId
    retiredContinuation := task.readyContinuation
    readyContinuation := none }

def retireQueuedAction (env : Env) (actor : Principal) (taskId receiptId : Id) (db : Db) :
    Transacted := do
  let task ← db.getTask taskId actor
  let experiment ← db.getExperiment task.payload.experimentId actor
  let error := Failure.refuse "TARGET_NOT_VERIFIED" "Exact target has no accepted receipt."
  let receipt ← orThrow (db.verifications.find receiptId) error
  require (receipt.projectId = actor.projectId ∧
    db.acceptedReceipt receipt task.payload.experimentId experiment.payload
      [.independentKernel] = true) error
  if task.payload.status ≠ .queued then
    return (db, .retirement false taskId (some task.payload.status))
  else if ∃ lease ∈ db.leases.find taskId, env.now < lease.expiresAt then
    return (db, .retirement false taskId none)
  else
    let links ← retireLink db actor taskId receiptId task.payload.readyContinuation
    let tasks := db.tasks.put taskId (task.replace (task.payload.superseded receiptId))
    return ({ db with links, tasks }, .retirement true taskId (some .blocked))

theorem retireQueued_cases {taskId receiptId : Id}
    (returned : retireQueuedAction env actor taskId receiptId db = .ok (after, reply)) :
    after = db ∨ ∃ task links, db.tasks.find taskId = some task ∧
      task.projectId = actor.projectId ∧ task.payload.status = .queued ∧
      (∀ lease ∈ db.leases.find taskId, lease.expiresAt ≤ env.now) ∧
      retireLink db actor taskId receiptId task.payload.readyContinuation = .ok links ∧
      after = { db with
        links
        tasks := db.tasks.put taskId (task.replace (task.payload.superseded receiptId)) } := by
  simp only [retireQueuedAction, bind_ok, require_ok, orThrow_ok, exists_const] at returned
  obtain ⟨task, read, -, -, -, -, -, returned⟩ := returned
  have found := Db.getRow_ok.mp read
  split at returned
  · simp only [pure_ok, Prod.mk.injEq] at returned
    exact .inl returned.1.symm
  · split at returned
    · simp only [pure_ok, Prod.mk.injEq] at returned
      exact .inl returned.1.symm
    next queued unleased =>
      simp only [bind_ok, pure_ok, Prod.mk.injEq] at returned
      obtain ⟨links, retired, rfl, -⟩ := returned
      refine .inr ⟨task, links, found.1, found.2.1, not_not.mp queued, ?_, retired, rfl⟩
      intro lease held
      exact Nat.not_lt.mp fun live => unleased ⟨lease, held, live⟩

def retireQueuedAfterVerified (db : Db) (env : Env) (taskId receiptId : Id) (actor : Principal)
    (key : String) : Transacted := do
  controllerOnly actor
  execute db env actor key (.retireQueuedAfterVerified taskId receiptId)
    (retireQueuedAction env actor taskId receiptId)

end Finishing

section Amending

variable [ContentHash]

/-- Objectives kept verbatim by an amendment; older ones survive as a hash chain. -/
def keptObjectives : Nat := 8

/-- The actor is the bound worker that delegated the task. -/
def parentWorker (env : Env) (actor : Principal) (task : Task) : Bool :=
  actor.role = .agent && env.effects.any fun binding =>
    task.delegatedFromTaskId = some binding.taskId

/-- One more entry in the hash chain over those that are not kept. -/
def chained (dropped : Option (Nat × Digest)) (entry : Nat × String) : Option (Nat × Digest) :=
  let last := dropped.elim .null fun (_, digest) => .str digest
  some (dropped.elim 0 Prod.fst + 1,
    digestJson (.arr [last, .obj [("revision", .int entry.1), ("objective", .str entry.2)]]))

/-- A task with a new objective; the last ones stay in its history. -/
def Task.amended (task : Task) (revision : Nat) (objective : String) : Task :=
  let history := task.supersededObjectives ++ [(revision, task.objective)]
  let older := history.length - keptObjectives
  { task with
    objective
    supersededObjectives := history.drop older
    supersededDropped := (history.take older).foldl chained task.supersededDropped }

def amendQueuedAction (env : Env) (actor : Principal) (taskId : Id) (expectedRevision : Nat)
    (objective : String) (db : Db) : Transacted := do
  let error := Failure.notFound "Assignment was not found."
  let task ← orThrow (db.tasks.find taskId) error
  require (task.projectId = actor.projectId) error
  require (task.payload.reviewAssignment = true → actor.id = platform ∧ actor.role = .operator)
    refereeIsolated
  let _ ← db.active env.now task.payload.experimentId actor
  require (actor.role = .operator ∨ actor.role = .admin ∨ task.payload.createdBy = actor.id ∨
      parentWorker env actor task.payload = true)
    (.refuse "TASK_AUTHORITY" "Only the assignment owner may amend it." 403)
  require (parentWorker env actor task.payload = true ∨ db.taskInScope actor taskId task = true)
    (.notFound "The requested project object was not found.")
  require (task.payload.status = .queued ∧ db.leases.find taskId = none)
    (.refuse "TASK_NOT_QUEUED" "Assignment has already started.")
  require (task.revision = expectedRevision)
    (.refuse "REVISION_CONFLICT" "The object changed since it was read." 409 false
      "Reload the object and review the change before retrying.")
  let replaced := task.replace (task.payload.amended task.revision objective)
  return ({ db with tasks := db.tasks.put taskId replaced }, .record taskId replaced.revision)

theorem amendQueued_cases {taskId : Id} {expectedRevision : Nat} {objective : String}
    (returned : amendQueuedAction env actor taskId expectedRevision objective db =
      .ok (after, reply)) :
    ∃ task, db.tasks.find taskId = some task ∧ task.payload.status = .queued ∧
      after = { db with
        tasks := db.tasks.put taskId
          (task.replace (task.payload.amended task.revision objective)) } := by
  simp only [amendQueuedAction, bind_ok, require_ok, orThrow_ok, exists_const, pure_ok,
    Prod.mk.injEq] at returned
  obtain ⟨task, found, -, -, -, -, -, -, queued, -, rfl, -⟩ := returned
  exact ⟨task, found, queued.1, rfl⟩

def amendQueuedTaskObjective (db : Db) (env : Env) (taskId : Id) (expectedRevision : Nat)
    (objective : String) (actor : Principal) (key : String) : Transacted := do
  researchRole actor
  require (blank objective = false ∧ objective.length ≤ 20000)
    (.refuse "INVALID_OBJECTIVE" "Objective must contain 1–20,000 characters.")
  require (1 ≤ expectedRevision)
    (.refuse "REVISION_REQUIRED" "Exact task revision is required.")
  execute db env actor key (.amendQueuedTaskObjective taskId expectedRevision objective)
    (amendQueuedAction env actor taskId expectedRevision objective)

end Amending

def bindSlotAction (env : Env) (actor : Principal) (taskId : Id) (holder : String) (fence : Nat)
    (slot : Id) (db : Db) : Transacted := do
  let _ ← db.fenced env.now taskId holder fence
  let task ← db.getTask taskId actor
  let replaced := task.replace { task.payload with workerSlotId := some slot }
  return ({ db with tasks := db.tasks.put taskId replaced }, .record taskId replaced.revision)

theorem bindSlot_cases {taskId : Id} {holder : String} {fence : Nat} {slot : Id}
    (returned : bindSlotAction env actor taskId holder fence slot db = .ok (after, reply)) :
    ∃ task, db.tasks.find taskId = some task ∧
      after = { db with
        tasks := db.tasks.put taskId
          (task.replace { task.payload with workerSlotId := some slot }) } := by
  simp only [bindSlotAction, bind_ok, pure_ok, Prod.mk.injEq] at returned
  obtain ⟨-, -, task, read, rfl, -⟩ := returned
  exact ⟨task, Db.getRow_find read, rfl⟩

/-- The runner binds its worker slot to the task it leased. -/
def bindSlot (db : Db) (env : Env) (taskId : Id) (holder : String) (fence : Nat) (slot : Id)
    (actor : Principal) (key : String) : Transacted :=
  execute db env actor key (.bindSlot taskId holder fence slot)
    (bindSlotAction env actor taskId holder fence slot)

def requestHandoffAction (env : Env) (actor : Principal) (taskId : Id) (reason : String)
    (waitTaskIds : List Id) (binding : WorkerEffects) (db : Db) : Transacted := do
  let task ← db.getTask taskId actor
  let _ ← db.fenced env.now taskId binding.holder binding.fence
  require (task.payload.status = .running ∧ actor.branchId = some task.payload.branchId)
    (.refuse "HANDOFF_INTENT_INVALID" "Only the current task may request handoff.")
  forEach (fun identifier => do
    let scope := Failure.refuse "HANDOFF_CHILD_SCOPE" "Wait targets must be delegated children."
    let child ← orThrow (db.tasks.find identifier) scope
    require (child.projectId = actor.projectId ∧
      child.payload.experimentId = task.payload.experimentId ∧
      child.payload.delegatedFromTaskId = some taskId) scope) waitTaskIds
  let intent : HandoffIntent :=
    { holder := binding.holder, fence := binding.fence, reason, waitTaskIds }
  let replaced := task.replace { task.payload with handoffIntent := some intent }
  return ({ db with tasks := db.tasks.put taskId replaced }, .record taskId replaced.revision)

theorem requestHandoff_cases {taskId : Id} {reason : String} {waitTaskIds : List Id}
    {binding : WorkerEffects}
    (returned : requestHandoffAction env actor taskId reason waitTaskIds binding db =
      .ok (after, reply)) :
    ∃ task, db.tasks.find taskId = some task ∧ ∃ intent,
      after = { db with
        tasks := db.tasks.put taskId
          (task.replace { task.payload with handoffIntent := some intent }) } := by
  simp only [requestHandoffAction, bind_ok, require_ok, exists_const, pure_ok,
    Prod.mk.injEq] at returned
  obtain ⟨task, read, -, -, -, -, -, rfl, -⟩ := returned
  exact ⟨task, Db.getRow_find read, _, rfl⟩

/-- A bound agent records that it wants to hand its running task to a successor. -/
def requestHandoff (db : Db) (env : Env) (taskId : Id) (reason : String) (waitTaskIds : List Id)
    (actor : Principal) (key : String) : Transacted := do
  researchRole actor
  let error := Failure.refuse "HANDOFF_INTENT_INVALID"
    "A fenced task needs a bounded handoff intent."
  let binding ← orThrow env.effects error
  require (actor.role = .agent ∧ binding.taskId = taskId ∧ blank reason = false ∧
    reason.length ≤ 200 ∧ waitTaskIds.length ≤ 100 ∧ waitTaskIds.Nodup) error
  execute db env actor key (.requestHandoff taskId reason waitTaskIds)
    (requestHandoffAction env actor taskId reason waitTaskIds binding)

end PhysHarness
