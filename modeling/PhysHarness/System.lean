import PhysHarness.Collaboration
import PhysHarness.Recovery
import PhysHarness.Sessions
import PhysHarness.Workspaces
import PhysHarness.Lib.Transition

/-!
The harness as one transition system.

A step is one transaction: a service command, one transaction of a broker call whose provider work
is in flight, or a write of some other part of the service to the records that are its own. A step
that refuses changes nothing. The clock never goes back.
-/
namespace PhysHarness

open Outcome

/-- A service command with the arguments its caller gives. -/
inductive Request where
  | createExperiment (request : ExperimentRequest)
  | transitionExperiment (id : Id) (action : ExperimentAction) (expectedRevision : Nat)
  | reserveResources (experimentId : Id) (cost : Option Int) (workers tokens : Int)
      (binding : Option (Id × String × Nat))
  | settleResources (reservationId : Id) (actualCost : Option (Option Int)) (uncertain : Bool)
      (actualTokens : Int)
  | createTask (request : TaskRequest)
  | acquireTask (taskId : Id) (holder : String) (ttlSeconds : Nat)
  | renewTask (taskId : Id) (holder : String) (fence ttlSeconds : Nat)
  | renewTaskForCleanup (taskId : Id) (holder : String) (fence : Nat) (workerSlotId : Option Id)
      (ttlSeconds : Nat)
  | finishTask (taskId : Id) (holder : String) (fence : Nat) (evidenceIds : List Id)
      (status : TaskStatus)
  | retireQueuedAfterVerified (taskId receiptId : Id)
  | amendQueuedTaskObjective (taskId : Id) (expectedRevision : Nat) (objective : String)
  | bindSlot (taskId : Id) (holder : String) (fence : Nat) (slot : Id)
  | requestHandoff (taskId : Id) (reason : String) (waitTaskIds : List Id)
  | issueContinuation (taskId : Id) (holder : String) (fence : Nat) (sourceSessionId : Id)
      (sourceCheckpointDigest : Digest) (reason : String) (recoverExpired : Bool)
      (workspaceTicket : Option WorkspaceTicket)
  | consumeContinuation (taskId : Id) (holder : String) (fence : Nat) (ready : Ready)
      (successorModel successorRuntimeLimits : Option Value) (mode : String)
  | restoreUnstartedContinuation (taskId : Id)
  | requeueSettledTerminal (taskId : Id) (holder : String) (fence : Nat)
  | retireFailedLocalWorkspace (workspaceId : Id) (expectedRevision : Nat)
      (expectedExecutionId : String) (evidenceArtifactId : Id)
  | reconcileOrphanWorkerSlot (taskId : Id)
  | reconcileModelReservations (taskId : Id)
  | trackModelReservation (taskId : Id) (holder : String) (fence : Nat) (reservationId : Id)
      (active : Bool)
  | runtimeSave (store : RuntimeStore) (checkpoint : NativeCheckpoint) (manifest : Value)

variable [ContentHash]

/-- The method that serves each command. -/
def submit (db : Db) (env : Env) (actor : Principal) (key : String) : Request → Transacted
  | .createExperiment request => createExperiment db env request actor key
  | .transitionExperiment id action revision =>
    transitionExperiment db env id action revision actor key
  | .reserveResources experimentId cost workers tokens binding =>
    reserveResources db env experimentId cost workers tokens binding actor key
  | .settleResources reservationId actualCost uncertain actualTokens =>
    settleResources db env reservationId actualCost uncertain actualTokens actor key
  | .createTask request => createTask db env request actor key
  | .acquireTask taskId holder ttl => acquireTask db env taskId holder ttl actor key
  | .renewTask taskId holder fence ttl => renewTask db env taskId holder fence ttl actor key
  | .renewTaskForCleanup taskId holder fence slot ttl =>
    renewTaskForCleanup db env taskId holder fence slot ttl actor key
  | .finishTask taskId holder fence evidence status =>
    finishTask db env taskId holder fence evidence status actor key
  | .retireQueuedAfterVerified taskId receiptId =>
    retireQueuedAfterVerified db env taskId receiptId actor key
  | .amendQueuedTaskObjective taskId revision objective =>
    amendQueuedTaskObjective db env taskId revision objective actor key
  | .bindSlot taskId holder fence slot => bindSlot db env taskId holder fence slot actor key
  | .requestHandoff taskId reason waits => requestHandoff db env taskId reason waits actor key
  | .issueContinuation taskId holder fence source digest reason expired ticket =>
    issueContinuation db env taskId holder fence source digest reason expired ticket actor key
  | .consumeContinuation taskId holder fence ready model limits mode =>
    consumeContinuation db env taskId holder fence ready model limits mode actor key
  | .restoreUnstartedContinuation taskId => restoreUnstartedContinuation db env taskId actor key
  | .requeueSettledTerminal taskId holder fence =>
    requeueSettledTerminal db env taskId holder fence actor key
  | .retireFailedLocalWorkspace workspaceId revision execution evidence =>
    retireFailedLocalWorkspace db env workspaceId revision execution evidence actor key
  | .reconcileOrphanWorkerSlot taskId => reconcileOrphanWorkerSlot db env taskId actor key
  | .reconcileModelReservations taskId => reconcileModelReservations db env taskId actor key
  | .trackModelReservation taskId holder fence reservationId active =>
    trackModelReservation db env taskId holder fence reservationId active actor key
  | .runtimeSave store checkpoint manifest => runtimeSave db env store checkpoint manifest

/-- The action of a request succeeds, past the guards that only look at the arguments. -/
def Request.Performs (env : Env) (actor : Principal) (db after : Db) (reply : Reply) :
    Request → Prop
  | .createExperiment request =>
    createExperimentAction env actor request db = .ok (after, reply)
  | .transitionExperiment id action revision =>
    transitionAction env actor id action revision db = .ok (after, reply)
  | .reserveResources experimentId _ workers tokens binding =>
    ∃ amount, reserveAction env actor experimentId amount workers.toNat tokens.toNat binding db =
      .ok (after, reply)
  | .settleResources reservationId _ uncertain actualTokens =>
    ∃ actual, settleAction actor reservationId actual uncertain actualTokens.toNat db =
      .ok (after, reply)
  | .createTask request =>
    db.checkWorkerEffects env.effects env.now actor = .ok () ∧
      createTaskAction env actor request (Db.delegatedFrom env actor) db = .ok (after, reply)
  | .acquireTask taskId holder ttl =>
    acquireTaskAction env actor taskId holder ttl db = .ok (after, reply)
  | .renewTask taskId holder fence ttl =>
    renewTaskAction env actor taskId holder fence ttl db = .ok (after, reply)
  | .renewTaskForCleanup taskId holder fence slot ttl =>
    renewTaskForCleanupAction env actor taskId holder fence slot ttl db = .ok (after, reply)
  | .finishTask taskId holder fence evidence status =>
    status.terminal = true ∧
      finishTaskAction env actor taskId holder fence evidence status db = .ok (after, reply)
  | .retireQueuedAfterVerified taskId receiptId =>
    retireQueuedAction env actor taskId receiptId db = .ok (after, reply)
  | .amendQueuedTaskObjective taskId revision objective =>
    amendQueuedAction env actor taskId revision objective db = .ok (after, reply)
  | .bindSlot taskId holder fence slot =>
    bindSlotAction env actor taskId holder fence slot db = .ok (after, reply)
  | .requestHandoff taskId reason waits =>
    ∃ binding ∈ env.effects,
      requestHandoffAction env actor taskId reason waits binding db = .ok (after, reply)
  | .issueContinuation taskId holder fence source digest reason expired ticket =>
    issueAction env actor taskId holder fence source digest reason expired ticket db =
      .ok (after, reply)
  | .consumeContinuation taskId holder fence ready model limits mode =>
    consumeAction env actor taskId holder fence ready model limits mode db = .ok (after, reply)
  | .restoreUnstartedContinuation taskId => restoreAction env actor taskId db = .ok (after, reply)
  | .requeueSettledTerminal taskId holder fence =>
    requeueAction env actor taskId holder fence db = .ok (after, reply)
  | .retireFailedLocalWorkspace workspaceId revision execution evidence =>
    retireAction env actor workspaceId revision execution evidence db = .ok (after, reply)
  | .reconcileOrphanWorkerSlot taskId =>
    reconcileOrphanAction env actor taskId db = .ok (after, reply)
  | .reconcileModelReservations taskId =>
    reconcileModelAction actor taskId db = .ok (after, reply)
  | .trackModelReservation taskId holder fence reservationId active =>
    trackAction env actor taskId holder fence reservationId active db = .ok (after, reply)
  | .runtimeSave store checkpoint manifest =>
    publishAction store { env with effects := some store.effects } checkpoint manifest db =
      .ok (after, reply)

/-- A command that returns either replays an earlier one, or performed its action and was recorded.
-/
theorem submit_cases {db after : Db} {env : Env} {actor : Principal} {key : String}
    {request : Request} {reply : Reply}
    (returned : submit db env actor key request = .ok (after, reply)) :
    after = db ∨ ∃ changed commands, request.Performs env actor db changed reply ∧
      after = { changed with commands } := by
  have executed : ∀ {env actor key command action},
      execute db env actor key command action = .ok (after, reply) →
      after = db ∨ ∃ changed commands, action db = .ok (changed, reply) ∧
        after = { changed with commands } := by
    intro env actor key command action returned
    rcases execute_cases returned with ⟨same, -⟩ | ⟨changed, -, -, ran, -, logged⟩
    · exact .inl same
    · exact .inr ⟨changed, _, ran, logged⟩
  cases request <;>
    simp only [submit, createExperiment, transitionExperiment, reserveResources, settleResources,
      createTask, acquireTask, renewTask, renewTaskForCleanup, finishTask,
      retireQueuedAfterVerified, amendQueuedTaskObjective, bindSlot, requestHandoff,
      issueContinuation, consumeContinuation, restoreUnstartedContinuation,
      requeueSettledTerminal, retireFailedLocalWorkspace, reconcileOrphanWorkerSlot,
      reconcileModelReservations, trackModelReservation, runtimeSave, bind_ok, require_ok,
      orThrow_ok, exists_const] at returned
  case bindSlot => exact executed returned
  case runtimeSave => exact executed returned.2
  case createExperiment | transitionExperiment | retireQueuedAfterVerified | issueContinuation
      | consumeContinuation | restoreUnstartedContinuation | requeueSettledTerminal
      | reconcileOrphanWorkerSlot | reconcileModelReservations | trackModelReservation =>
    obtain ⟨_, _, returned⟩ := returned
    exact executed returned
  case acquireTask | renewTask | renewTaskForCleanup =>
    obtain ⟨_, _, -, returned⟩ := returned
    exact executed returned
  case createTask =>
    obtain ⟨_, _, -, returned⟩ := returned
    rcases execute_cases returned with ⟨same, -⟩ | ⟨changed, -, bound, ran, -, logged⟩
    · exact .inl same
    · exact .inr ⟨changed, _, ⟨bound, ran⟩, logged⟩
  case amendQueuedTaskObjective =>
    obtain ⟨_, _, -, -, returned⟩ := returned
    exact executed returned
  case retireFailedLocalWorkspace =>
    obtain ⟨-, -, -, returned⟩ := returned
    exact executed returned
  case finishTask =>
    obtain ⟨_, _, ⟨terminal, -⟩, returned⟩ := returned
    rcases executed returned with same | ⟨changed, commands, ran, logged⟩
    · exact .inl same
    · exact .inr ⟨changed, commands, ⟨terminal, ran⟩, logged⟩
  case reserveResources =>
    obtain ⟨_, _, amount, -, -, returned⟩ := returned
    rcases executed returned with same | ⟨changed, commands, ran, logged⟩
    · exact .inl same
    · exact .inr ⟨changed, commands, ⟨amount, ran⟩, logged⟩
  case settleResources =>
    obtain ⟨_, _, -, -, actual, -, returned⟩ := returned
    rcases executed returned with same | ⟨changed, commands, ran, logged⟩
    · exact .inl same
    · exact .inr ⟨changed, commands, ⟨actual, ran⟩, logged⟩
  case requestHandoff =>
    obtain ⟨_, _, binding, bound, -, returned⟩ := returned
    rcases executed returned with same | ⟨changed, commands, ran, logged⟩
    · exact .inl same
    · exact .inr ⟨changed, commands, ⟨binding, bound, ran⟩, logged⟩

/-- What a broker call asked its provider for. -/
inductive CallKind where
  | provision
  | perform (executionId : String) (command : WorkspaceCommand) (preserve : Bool)
      (actual : Option Nat)

/-- How far a broker call is: its provider work is in flight; it raised, perhaps after the VM was
confirmed gone; or only an uncertain outcome is left to record. -/
inductive Stage where
  | dispatched
  | failing (confirmed : Bool)
  | unknown
  deriving DecidableEq

/-- A broker call between two of its transactions. -/
structure Call where
  broker : Broker
  workspaceId : Id
  key : OperationKey
  kind : CallKind
  stage : Stage := .dispatched

/-- One transaction of a broker. `call` is the position of the call it continues. -/
inductive BrokerStep where
  | provision (broker : Broker) (costBound : Option Int) (operationId : String)
  | provisionReady (call : Nat) (observed : String)
  | provisionCapacity (call : Nat)
  | perform (broker : Broker) (workspaceId : Id) (executionId : String) (operationId : String)
      (command : WorkspaceCommand) (inputs : OperationInputs) (preserve : Bool)
      (actual : Option Nat) (attached : Option String) (validated : Except Failure Unit)
  | performComplete (call : Nat) (completion : Broker.Completion)
  | performDestroy (call : Nat)
  | performRefused (call : Nat) (code message : String)
  | performDestroyed (call : Nat)
  | uncertain (call : Nat) (observed : Option String) (confirmed : Bool)
  | retain (broker : Broker) (workspaceId : Id) (executionId : String) (operationId : String)
      (command : WorkspaceCommand) (inputs : OperationInputs) (code : String)

/-- The fields of a task that other parts of the service write. -/
structure TaskNotes where
  cancelRequested : Bool := false
  reviewAssignment : Bool := false
  progressExhausted : Bool := false
  workspacePolicy : Option Value := none
  handoffIntent : Option HandoffIntent := none
  workspaceHandoffTicket : Option WorkspaceTicket := none
  rootReplansUsed : Nat := 0
  rootReplanLimit : Nat := 0
  rootTargetDigest : Option Digest := none
  stagnationState : Option Value := none
  returnResult : Option ReturnResult := none

def Task.noted (task : Task) (notes : TaskNotes) : Task :=
  { task with
    cancelRequested := notes.cancelRequested
    reviewAssignment := notes.reviewAssignment
    progressExhausted := notes.progressExhausted
    workspacePolicy := notes.workspacePolicy
    handoffIntent := notes.handoffIntent
    workspaceHandoffTicket := notes.workspaceHandoffTicket
    rootReplansUsed := notes.rootReplansUsed
    rootReplanLimit := notes.rootReplanLimit
    rootTargetDigest := notes.rootTargetDigest
    stagnationState := notes.stagnationState
    returnResult := notes.returnResult }

/-- The records that other parts of the service write: campaigns, reviewed problems, branches,
artifacts, messages and verified results, and their fields of one task. -/
structure Outside where
  campaigns : Table Id (Row Unit) := ∅
  problems : Table Id (Row Problem) := ∅
  reviews : Table Id (Row Review) := ∅
  branches : Table Id (Row Branch) := ∅
  artifacts : Table Id (Row Artifact) := ∅
  messages : Table Id (Row Message) := ∅
  verifications : Table Id (Row Verification) := ∅
  claims : Table Id (Row Claim) := ∅
  notes : Option (Id × TaskNotes) := none

/-- The tasks after another part of the service wrote its fields of one of them. -/
def notedTasks (tasks : Table Id (Row Task)) (notes : Option (Id × TaskNotes)) :
    Table Id (Row Task) :=
  match notes with
  | none => tasks
  | some (taskId, fields) =>
    match tasks.find taskId with
    | none => tasks
    | some task => tasks.put taskId (task.replace (task.payload.noted fields))

/-- A write of another part of the service. -/
def Db.written (db : Db) (outside : Outside) : Db :=
  { db with
    campaigns := outside.campaigns
    problems := outside.problems
    reviews := outside.reviews
    branches := outside.branches
    artifacts := outside.artifacts
    messages := outside.messages
    verifications := outside.verifications
    claims := outside.claims
    tasks := notedTasks db.tasks outside.notes }

inductive Label where
  | command (env : Env) (actor : Principal) (key : String) (request : Request)
  | broker (env : Env) (step : BrokerStep)
  | outside (write : Outside)

structure Sys where
  db : Db := {}
  calls : List Call := []
  now : Time := 0

namespace Sys

/-- Commit a transaction of a call: the call ends, or stays at the stage a refusal leaves it in. -/
def settleCall (sys : Sys) (index : Nat) (call : Call) (onRefusal : Option Stage)
    (result : Except Failure Db) : Sys :=
  match result, onRefusal with
  | .ok db, _ => { sys with db, calls := sys.calls.eraseIdx index }
  | .error _, some stage => { sys with calls := sys.calls.set index { call with stage } }
  | .error _, none => { sys with calls := sys.calls.eraseIdx index }

def readOnlyCommand : WorkspaceCommand → Bool
  | .download | .readRange | .export => true
  | _ => false

def transferRejections : List String :=
  ["WORKSPACE_TRANSFER_REJECTED", "WORKSPACE_LIMIT", "WORKSPACE_CHECKPOINT_DEADLINE"]

/-- Provider failures proven to leave the VM unchanged, so it stays usable. -/
def definiteRefusal (provider : Provider) (command : WorkspaceCommand) (code : String) : Bool :=
  if readOnlyCommand command then code ∈ transferRejections
  else
    code = "WORKSPACE_TRANSFER_REJECTED" &&
      (command = .promoteFile || (command = .upload && provider = .localDocker))

/-- The transaction of a call in flight. A step that does not fit the call's stage changes
nothing. -/
def continueCall (sys : Sys) (env : Env) (index : Nat) (call : Call) (step : BrokerStep) : Sys :=
  let b := call.broker
  match step, call.kind, call.stage with
  | .provisionReady _ observed, .provision, .dispatched =>
    if observed = "" then sys.settleCall index call (some (.failing false)) (.error reconcile)
    else sys.settleCall index call (some (.failing false))
      (b.provisionReady sys.db env call.workspaceId call.key observed)
  | .provisionCapacity _, .provision, .dispatched =>
    if b.providerSpec.provider = .localDocker then
      sys.settleCall index call none (b.provisionCapacity sys.db env call.workspaceId call.key)
    else sys
  | .performComplete _ completion, .perform executionId command preserve _, .dispatched =>
    if command ≠ .destroy then
      sys.settleCall index call (some (.failing false))
        (b.performComplete sys.db env call.workspaceId executionId call.key preserve completion)
    else sys
  | .performDestroy _, .perform executionId .destroy _ actual, .dispatched =>
    sys.settleCall index call (some (.failing true))
      (b.performDestroy sys.db env call.workspaceId executionId call.key actual)
  | .performRefused _ code message, .perform executionId command preserve _, stage =>
    if stage ≠ .unknown ∧ definiteRefusal b.providerSpec.provider command code = true then
      sys.settleCall index call (some .unknown)
        (b.performRefused sys.db env call.workspaceId executionId call.key preserve code message)
    else sys
  | .performDestroyed _, .perform executionId _ _ _, stage =>
    if stage ≠ .unknown then
      sys.settleCall index call (some .unknown)
        (b.performDestroyed sys.db env call.workspaceId executionId call.key)
    else sys
  | .uncertain _ observed confirmed, _, _ =>
    sys.settleCall index call none
      (b.recordUncertainty sys.db call.workspaceId call.key observed confirmed)
  | _, _, _ => sys

/-- Begin `provision`: a new call goes in flight unless the operation was recorded before. -/
def beginProvision (sys : Sys) (env : Env) (b : Broker) (costBound : Option Int)
    (operationId : String) : Sys :=
  match b.provisionBegin sys.db env costBound operationId with
  | .ok (db, .started workspaceId key) =>
    { sys with db, calls := sys.calls ++ [{ broker := b, workspaceId, key, kind := .provision }] }
  | _ => sys

/-- Destruction, and the final read that precedes it, need only the current lease and slot. -/
def cleanupAuthority (command : WorkspaceCommand) (preserve : Bool) : Bool :=
  command = .destroy || preserve

/-- Begin another operation of a workspace. -/
def beginPerform (sys : Sys) (env : Env) (b : Broker) (workspaceId : Id) (executionId : String)
    (operationId : String) (command : WorkspaceCommand) (inputs : OperationInputs)
    (preserve : Bool) (actual : Option Nat) (attached : Option String)
    (validated : Except Failure Unit) : Sys :=
  let recorded := { inputs with executionId := some executionId, actualCostUnits := actual }
  match b.operationKey workspaceId operationId with
  | .error _ => sys
  | .ok key =>
    match b.start sys.db env workspaceId executionId key command recorded
        (cleanupAuthority command preserve) attached validated with
    | .ok (db, none) =>
      { sys with
        db
        calls := sys.calls ++
          [{ broker := b, workspaceId, key, kind := .perform executionId command preserve actual }] }
    | _ => sys

/-- Keep a VM whose teardown lost its authority. -/
def retain (sys : Sys) (b : Broker) (workspaceId : Id) (executionId : String)
    (operationId : String) (command : WorkspaceCommand) (inputs : OperationInputs)
    (code : String) : Sys :=
  match b.operationKey workspaceId operationId with
  | .error _ => sys
  | .ok key =>
    match b.retainWithoutAuthority sys.db workspaceId executionId key command
        { inputs with executionId := some executionId } code with
    | .ok db => { sys with db }
    | .error _ => sys

/-- The call a broker step continues. -/
def callIndex : BrokerStep → Option Nat
  | .provisionReady call _ | .provisionCapacity call | .performComplete call _
  | .performDestroy call | .performRefused call _ _ | .performDestroyed call
  | .uncertain call _ _ => some call
  | .provision .. | .perform .. | .retain .. => none

def brokerStep (sys : Sys) (env : Env) (step : BrokerStep) : Sys :=
  match step with
  | .provision b costBound operationId => sys.beginProvision env b costBound operationId
  | .perform b workspaceId executionId operationId command inputs preserve actual attached
      validated =>
    sys.beginPerform env b workspaceId executionId operationId command inputs preserve actual
      attached validated
  | .retain b workspaceId executionId operationId command inputs code =>
    sys.retain b workspaceId executionId operationId command inputs code
  | step =>
    match (callIndex step).bind fun index => (sys.calls[index]?).map (index, ·) with
    | none => sys
    | some (index, call) => sys.continueCall env index call step

/-- A command that refuses leaves the database as it was. -/
def commandStep (sys : Sys) (env : Env) (actor : Principal) (key : String) (request : Request) :
    Sys :=
  match submit sys.db env actor key request with
  | .ok result => { sys with db := result.1 }
  | .error _ => sys

/-- The clock of a step is not behind the last one. -/
def timely (sys : Sys) (env : Env) : Prop := sys.now ≤ env.now ∧ env.now ≤ env.commitAt

instance (sys : Sys) (env : Env) : Decidable (sys.timely env) :=
  inferInstanceAs (Decidable (_ ∧ _))

def step (sys : Sys) : Label → Sys
  | .command env actor key request =>
    if sys.timely env then { sys.commandStep env actor key request with now := env.commitAt }
    else sys
  | .broker env action =>
    if sys.timely env then { sys.brokerStep env action with now := env.commitAt } else sys
  | .outside write => { sys with db := sys.db.written write }

/-- The transaction that a broker step commits. -/
inductive Commits (sys : Sys) (env : Env) : BrokerStep → Db → Prop
  | reserve {b costBound operationId amount key started after}
      (ran : b.provisionReserve sys.db env amount key = .ok (after, started)) :
      Commits sys env (.provision b costBound operationId) after
  | ready {index call observed after} (flying : sys.calls[index]? = some call)
      (ran : call.broker.provisionReady sys.db env call.workspaceId call.key observed =
        .ok after) :
      Commits sys env (.provisionReady index observed) after
  | capacity {index call after} (flying : sys.calls[index]? = some call)
      (kind : call.kind = .provision) (stage : call.stage = .dispatched)
      (ran : call.broker.provisionCapacity sys.db env call.workspaceId call.key = .ok after) :
      Commits sys env (.provisionCapacity index) after
  | start {b workspaceId executionId operationId command inputs preserve actual attached validated
      key recorded after}
      (ran : b.start sys.db env workspaceId executionId key command recorded
        (cleanupAuthority command preserve) attached validated = .ok (after, none)) :
      Commits sys env (.perform b workspaceId executionId operationId command inputs preserve
        actual attached validated) after
  | complete {index call completion executionId preserve after}
      (flying : sys.calls[index]? = some call)
      (ran : call.broker.performComplete sys.db env call.workspaceId executionId call.key preserve
        completion = .ok after) :
      Commits sys env (.performComplete index completion) after
  | destroy {index call executionId preserve actual after}
      (flying : sys.calls[index]? = some call)
      (kind : call.kind = .perform executionId .destroy preserve actual)
      (stage : call.stage = .dispatched)
      (ran : call.broker.performDestroy sys.db env call.workspaceId executionId call.key actual =
        .ok after) :
      Commits sys env (.performDestroy index) after
  | refused {index call code message executionId preserve after}
      (flying : sys.calls[index]? = some call)
      (ran : call.broker.performRefused sys.db env call.workspaceId executionId call.key preserve
        code message = .ok after) :
      Commits sys env (.performRefused index code message) after
  | destroyed {index call executionId after} (flying : sys.calls[index]? = some call)
      (ran : call.broker.performDestroyed sys.db env call.workspaceId executionId call.key =
        .ok after) :
      Commits sys env (.performDestroyed index) after
  | uncertain {index call observed confirmed after} (flying : sys.calls[index]? = some call)
      (ran : call.broker.recordUncertainty sys.db call.workspaceId call.key observed confirmed =
        .ok after) :
      Commits sys env (.uncertain index observed confirmed) after
  | retain {b workspaceId executionId operationId command inputs code key recorded after}
      (ran : b.retainWithoutAuthority sys.db workspaceId executionId key command recorded code =
        .ok after) :
      Commits sys env (.retain b workspaceId executionId operationId command inputs code) after

omit [ContentHash] in
theorem settleCall_db (sys : Sys) (index : Nat) (call : Call) (onRefusal : Option Stage)
    (result : Except Failure Db) :
    (sys.settleCall index call onRefusal result).db = sys.db ∨
      result = .ok (sys.settleCall index call onRefusal result).db := by
  cases result with
  | ok after => exact .inr rfl
  | error failure => cases onRefusal <;> exact .inl rfl

omit [ContentHash] in
/-- A step of a call in flight. -/
theorem brokerStep_flying {sys : Sys} {env : Env} {step : BrokerStep} {index : Nat}
    (continues : callIndex step = some index) :
    sys.brokerStep env step =
      match sys.calls[index]? with
      | none => sys
      | some call => sys.continueCall env index call step := by
  cases step <;> simp only [callIndex, Option.some.injEq, reduceCtorEq] at continues <;>
    subst continues <;> simp only [brokerStep, callIndex, Option.bind_some] <;>
    cases sys.calls[(_ : Nat)]? <;> rfl

omit [ContentHash] in
/-- A broker step that writes the database commits one of its transactions. -/
theorem brokerStep_cases (sys : Sys) (env : Env) (step : BrokerStep) :
    (sys.brokerStep env step).db = sys.db ∨
      sys.Commits env step (sys.brokerStep env step).db := by
  cases step with
  | provision b costBound operationId =>
    simp only [brokerStep, beginProvision]
    split
    next after workspaceId key begun =>
      obtain ⟨amount, ran⟩ := Broker.provisionBegin_cases begun
      exact .inr (.reserve ran)
    · exact .inl rfl
  | perform b workspaceId executionId operationId command inputs preserve actual attached =>
    simp only [brokerStep, beginPerform]
    split
    · exact .inl rfl
    · split
      next begun => exact .inr (.start begun)
      · exact .inl rfl
  | retain b workspaceId executionId operationId command inputs code =>
    simp only [brokerStep, Sys.retain]
    split
    · exact .inl rfl
    · split
      next kept => exact .inr (.retain kept)
      · exact .inl rfl
  | provisionReady index observed =>
    rw [brokerStep_flying rfl]
    rcases continued : sys.calls[index]? with _ | ⟨b, workspaceId, key, kind, stage⟩
    · exact .inl rfl
    · cases kind <;> cases stage <;> try exact .inl rfl
      simp only [continueCall]
      split
      · exact (settleCall_db ..).imp id nofun
      · exact (settleCall_db ..).imp id (.ready continued)
  | provisionCapacity index =>
    rw [brokerStep_flying rfl]
    rcases continued : sys.calls[index]? with _ | ⟨b, workspaceId, key, kind, stage⟩
    · exact .inl rfl
    · cases kind <;> cases stage <;> try exact .inl rfl
      simp only [continueCall]
      split
      · exact (settleCall_db ..).imp id (.capacity continued rfl rfl)
      · exact .inl rfl
  | performComplete index completion =>
    rw [brokerStep_flying rfl]
    rcases continued : sys.calls[index]? with _ | ⟨b, workspaceId, key, kind, stage⟩
    · exact .inl rfl
    · cases kind <;> cases stage <;> try exact .inl rfl
      simp only [continueCall]
      split
      · exact (settleCall_db ..).imp id (.complete continued)
      · exact .inl rfl
  | performDestroy index =>
    rw [brokerStep_flying rfl]
    rcases continued : sys.calls[index]? with _ | ⟨b, workspaceId, key, kind, stage⟩
    · exact .inl rfl
    · rcases kind with _ | ⟨executionId, command, preserve, actual⟩
      · exact .inl rfl
      · cases command <;> cases stage <;> try exact .inl rfl
        exact (settleCall_db ..).imp id (.destroy continued rfl rfl)
  | performRefused index code message =>
    rw [brokerStep_flying rfl]
    rcases continued : sys.calls[index]? with _ | ⟨b, workspaceId, key, kind, stage⟩
    · exact .inl rfl
    · cases kind
      · exact .inl rfl
      · simp only [continueCall]
        split
        · exact (settleCall_db ..).imp id (.refused continued)
        · exact .inl rfl
  | performDestroyed index =>
    rw [brokerStep_flying rfl]
    rcases continued : sys.calls[index]? with _ | ⟨b, workspaceId, key, kind, stage⟩
    · exact .inl rfl
    · cases kind
      · exact .inl rfl
      · simp only [continueCall]
        split
        · exact (settleCall_db ..).imp id (.destroyed continued)
        · exact .inl rfl
  | uncertain index observed confirmed =>
    rw [brokerStep_flying rfl]
    rcases continued : sys.calls[index]? with _ | call
    · exact .inl rfl
    · exact (settleCall_db ..).imp id (.uncertain continued)

/-- What a step makes of the database: nothing, the outcome of a command, a broker transaction, or a
write of another part of the service. -/
theorem step_preserves {sys : Sys} {label : Label} (holds : Db → Prop) (before : holds sys.db)
    (command : ∀ env actor key request changed commands reply,
      label = .command env actor key request → sys.timely env →
      request.Performs env actor sys.db changed reply → holds { changed with commands })
    (broker : ∀ env step after, label = .broker env step → sys.timely env →
      sys.Commits env step after → holds after)
    (outside : ∀ write, label = .outside write → holds (sys.db.written write)) :
    holds (sys.step label).db := by
  cases label with
  | command env actor key request =>
    simp only [step]
    split
    next timely =>
      simp only [commandStep]
      split
      next result returned =>
        rcases submit_cases returned with same | ⟨changed, commands, performs, logged⟩
        · exact same ▸ before
        · exact logged ▸ command env actor key request changed commands _ rfl timely performs
      · exact before
    · exact before
  | broker env action =>
    simp only [step]
    split
    next timely =>
      rcases sys.brokerStep_cases env action with same | commits
      · exact same ▸ before
      · exact broker env action _ rfl timely commits
    · exact before
  | outside write => exact outside write rfl

/-- The clock of a step that happens. -/
theorem step_command_now {sys : Sys} {env : Env} (timely : sys.timely env) (actor : Principal)
    (key : String) (request : Request) :
    (sys.step (.command env actor key request)).now = env.commitAt := by
  rw [step, if_pos timely]

theorem now_le_step (sys : Sys) (label : Label) : sys.now ≤ (sys.step label).now := by
  cases label with
  | command env | broker env =>
    simp only [step]
    split
    next timely => exact timely.1.trans timely.2
    · exact le_rfl
  | outside => exact le_rfl

/-- Every state reached from an empty installation. -/
def run (labels : List Label) : Sys := Transition.run step {} labels

theorem run_append (first second : List Label) :
    run (first ++ second) = Transition.run step (run first) second :=
  Transition.run_append _ first second

end Sys

/-! A started experiment with one leased task: the beginning of the concrete runs below. -/
namespace Scenario

def controller : Principal := { id := "controller", projectId := "project", role := .operator }

/-- A command at an instant that draws up to two identifiers. -/
def envAt (now : Time) (first : Id := "") (second : Id := "") : Env where
  now
  commitAt := now
  newId index := if index = 0 then first else second

def installed : Outside where
  campaigns := (∅ : Table Id (Row Unit)).put "campaign" { projectId := "project", payload := () }
  problems := (∅ : Table Id (Row Problem)).put "problem"
    { projectId := "project"
      payload :=
        { campaignId := "campaign"
          targetDigest := "target"
          environmentDigest := "environment"
          semanticReview := .approved
          reviewId := some "review" } }
  branches := (∅ : Table Id (Row Branch)).put "branch"
    { projectId := "project"
      payload := { experimentId := "experiment", originActorId := "controller" } }
  artifacts := (∅ : Table Id (Row Artifact)).put "evidence"
    { projectId := "project"
      payload :=
        { experimentId := some "experiment"
          branchId := some "branch"
          taskId := some "task"
          originActorId := "controller"
          artifactKind := "research_output"
          sha256 := "digest"
          submittedBy := "controller" } }

def leasedTask : List Label :=
  [.outside installed,
    .command (envAt 0 "experiment") controller "create"
      (.createExperiment
        { campaignId := "campaign"
          problemId := "problem"
          maxCost := 10
          maxConcurrency := 1
          maxTokens := none
          maxRuntimeSeconds := 3600 }),
    .command (envAt 0) controller "start" (.transitionExperiment "experiment" .start 1),
    .command (envAt 0 "task") controller "delegate"
      (.createTask { branchId := "branch", objective := "Prove the lemma." }),
    .command (envAt 0) controller "lease" (.acquireTask "task" "worker" 300)]

def workbench : Broker where
  actor := controller
  taskId := "task"
  holder := "worker"
  fence := 1
  providerSpec := { provider := .localDocker, templateId := "template", timeoutSeconds := 600 }

def store : RuntimeStore where
  actor := controller
  experimentId := "experiment"
  taskId := "task"
  holder := "worker"
  fence := 1

/-- The checkpoint of a session that handed off after one settled turn. -/
def handedOff : NativeCheckpoint where
  sessionId := "native"
  runtime := "responses"
  model := "model"
  limits := "limits"
  status := .handedOff
  turns := 1
  inputTokens := 1
  outputTokens := 0
  native := { settledBoundary := true }
  stateDigest := "state"

end Scenario

end PhysHarness
