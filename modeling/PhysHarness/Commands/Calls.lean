import PhysHarness.Lib.JsonRead
import PhysHarness.Lib.Transition
import PhysHarness.Outbox.Dispatcher
import PhysHarness.Service

/-!
Any number of `_execute` calls at once.

A call is one transaction. It waits for the command lock of its key, checks the bound worker's
lease, looks the key up, runs its action, checks the lease again and adds the command's row. The
statements of different calls interleave: each reads what is committed and its own writes, and a
transaction that raises leaves nothing. Actions are arbitrary; a step of one is a label.
-/
namespace PhysHarness

def Role.value : Role → String
  | .researcher => "researcher"
  | .reviewer => "reviewer"
  | .operator => "operator"
  | .publisher => "publisher"
  | .verifier => "verifier"
  | .admin => "admin"
  | .agent => "agent"

structure EventRow where
  projectId : ProjectId
  kind : String
  aggregateId : Id
  operationId : Id
  payload : Json
  createdAt : Time

/-- The tables that actions write; the commands of `records` are not theirs. -/
structure ServiceRows where
  records : Db := {}
  events : List EventRow := []
  outbox : Table Id OutboxRow := ∅

/-- A row of the command table. -/
structure StoredCommand where
  projectId : ProjectId
  operationId : Id
  fingerprint : Digest
  result : Json

structure ServiceStore where
  rows : ServiceRows := {}
  commands : Table Digest StoredCommand := ∅

/-- A statement of an action. -/
abbrev RowWrite : Type := ServiceRows → ServiceRows

def writeAll (writes : List RowWrite) (rows : ServiceRows) : ServiceRows :=
  writes.foldl (fun rows write => write rows) rows

/-- The arguments of a call and the worker authority bound around it. -/
structure CommandCall where
  actor : Principal
  key : String
  operation : String
  inputs : Json
  effects : Option WorkerEffects := none
  operationId : Id
  deriving DecidableEq

namespace CommandCall

def keyValid (call : CommandCall) : Bool := 0 < call.key.length && call.key.length ≤ 200

def commandDigest [ContentHash] (call : CommandCall) : Digest :=
  digestJson (.arr [.str call.actor.projectId, .str call.actor.id, .str call.key])

def fingerprint [ContentHash] (call : CommandCall) : Digest :=
  digestJson (.arr [.str call.operation, call.inputs, .str call.actor.role.value,
    .ofOption call.actor.experimentId, .ofOption call.actor.branchId,
    .bool call.actor.agentOrchestrator])

def stored [ContentHash] (call : CommandCall) (result : Json) : StoredCommand where
  projectId := call.actor.projectId
  operationId := call.operationId
  fingerprint := call.fingerprint
  result

/-- The key of the same actor in the same project. -/
def SameKey (first second : CommandCall) : Prop :=
  first.actor.projectId = second.actor.projectId ∧ first.actor.id = second.actor.id ∧
    first.key = second.key

/-- The same operation and inputs in the same scope. -/
def SameCommand (first second : CommandCall) : Prop :=
  first.operation = second.operation ∧ first.inputs.sortKeys = second.inputs.sortKeys ∧
    first.actor.role = second.actor.role ∧
    first.actor.experimentId = second.actor.experimentId ∧
    first.actor.branchId = second.actor.branchId ∧
    first.actor.agentOrchestrator = second.actor.agentOrchestrator

end CommandCall

/-- How a call ends: with the result of its action or of an earlier one, or with an error of its own
checks, of its action or of its surroundings. -/
inductive CallOutcome where
  | executed (result : Json)
  | replayed (result : Json)
  | unkeyed
  | unauthorized (failure : Failure)
  | conflict
  | raised (failure : Failure)
  deriving DecidableEq

def CallOutcome.error : CallOutcome → Option Failure
  | .executed _ | .replayed _ => none
  | .unkeyed =>
    some (.refuse "IDEMPOTENCY_KEY_REQUIRED" "Supply an Idempotency-Key of 1–200 characters." 422)
  | .unauthorized failure | .raised failure => some failure
  | .conflict =>
    some (.refuse "IDEMPOTENCY_CONFLICT" "This key already identifies different inputs." 409 false
      "Reuse the original inputs or issue a new command key.")

/-- Where a call stands in its transaction. -/
inductive CallStage where
  | waiting
  | locked
  | checked
  | acting (writes : List RowWrite)
  | returned (writes : List RowWrite) (result : Json)
  | rechecked (writes : List RowWrite) (result : Json)
  | closed (outcome : CallOutcome)

namespace CallStage

/-- The transaction holds its lock. -/
def inTransaction : CallStage → Bool
  | .waiting | .closed _ => false
  | _ => true

/-- The key was looked up and not found. -/
def pastLookup : CallStage → Bool
  | .acting _ | .returned .. | .rechecked .. => true
  | _ => false

def isClosed : CallStage → Bool
  | .closed _ => true
  | _ => false

def outcome : CallStage → Option CallOutcome
  | .closed outcome => some outcome
  | _ => none

end CallStage

structure CallState where
  call : CommandCall
  stage : CallStage

inductive Dialect where
  | sqlite | postgresql
  deriving DecidableEq

structure CallSys where
  dialect : Dialect
  store : ServiceStore := {}
  calls : Table Nat CallState := ∅

/-- What happens next: a statement of a call, an exception raised in it, or the commit of a
transaction that runs no command. -/
inductive CallLabel where
  | begin (id : Nat) (call : CommandCall)
  | lock (id : Nat)
  | check (id : Nat) (now : Time)
  | look (id : Nat)
  | write (id : Nat) (write : RowWrite)
  | finish (id : Nat) (result : Json)
  | commit (id : Nat)
  | raise (id : Nat) (failure : Failure)
  | outside (write : RowWrite)

/-- The call whose statement it is. -/
def CallLabel.caller : CallLabel → Option Nat
  | .begin id _ | .lock id | .check id _ | .look id | .write id _ | .finish id _ | .commit id
  | .raise id _ => some id
  | .outside _ => none

/-- The first sixteen digits of a digest as a signed word. -/
def lockValue (key : Digest) : Int :=
  let value : Nat := (key.toList.take 16).foldl (fun n c => n * 16 + (Json.hexValue c).getD 0) 0
  if value < 2 ^ 63 then value else value - 2 ^ 64

namespace CallSys

variable [ContentHash] (sys : CallSys) (id : Nat) (state : CallState)

/-- A SQLite transaction begins alone; a PostgreSQL one waits for the advisory lock of its key. -/
def lockFree : Bool :=
  !sys.calls.anyRow fun other held => other ≠ id && held.stage.inTransaction &&
    match sys.dialect with
    | .sqlite => true
    | .postgresql => lockValue held.call.commandDigest = lockValue state.call.commandDigest

def setStage (stage : CallStage) : CallSys :=
  { sys with calls := sys.calls.put id { state with stage } }

def close (outcome : CallOutcome) : CallSys := sys.setStage id state (.closed outcome)

/-- `_check_worker_effects` over the committed rows and the call's own writes. -/
def authority (writes : List RowWrite) (now : Time) : Except Failure Unit :=
  (writeAll writes sys.store.rows).records.checkWorkerEffects state.call.effects now
    state.call.actor

def begin (call : CommandCall) : CallSys :=
  { sys with
    calls := sys.calls.put id
      { call, stage := if call.keyValid then .waiting else .closed .unkeyed } }

def check (now : Time) : CallSys :=
  match state.stage with
  | .locked =>
    match sys.authority state [] now with
    | .ok () => sys.setStage id state .checked
    | .error failure => sys.close id state (.unauthorized failure)
  | .returned writes result =>
    match sys.authority state writes now with
    | .ok () => sys.setStage id state (.rechecked writes result)
    | .error failure => sys.close id state (.unauthorized failure)
  | _ => sys

def look : CallSys :=
  match state.stage with
  | .checked =>
    match sys.store.commands.find state.call.commandDigest with
    | some prior =>
      if prior.fingerprint ≠ state.call.fingerprint then sys.close id state .conflict
      else sys.close id state (.replayed prior.result)
    | none => sys.setStage id state (.acting [])
  | _ => sys

/-- Add the command's row and make the writes visible. -/
def commit : CallSys :=
  match state.stage with
  | .rechecked writes result =>
    match insertNew sys.store.commands state.call.commandDigest (state.call.stored result) with
    | .error failure => sys.close id state (.raised failure)
    | .ok commands =>
      { sys with store := { rows := writeAll writes sys.store.rows, commands } }.close id state
        (.executed result)
  | _ => sys

def act (state : CallState) : CallLabel → CallSys
  | .lock id =>
    match state.stage with
    | .waiting => if sys.lockFree id state then sys.setStage id state .locked else sys
    | _ => sys
  | .check id now => sys.check id state now
  | .look id => sys.look id state
  | .write id write =>
    match state.stage with
    | .acting writes => sys.setStage id state (.acting (writes ++ [write]))
    | _ => sys
  | .finish id result =>
    match state.stage with
    | .acting writes => sys.setStage id state (.returned writes result)
    | _ => sys
  | .commit id => sys.commit id state
  | .raise id failure =>
    if state.stage.isClosed then sys else sys.close id state (.raised failure)
  | .begin .. | .outside _ => sys

def step (sys : CallSys) (label : CallLabel) : CallSys :=
  match label with
  | .outside write => { sys with store := { sys.store with rows := write sys.store.rows } }
  | .begin id call => if sys.calls.find id = none then sys.begin id call else sys
  | .lock id | .check id _ | .look id | .write id _ | .finish id _ | .commit id | .raise id _ =>
    match sys.calls.find id with
    | some state => sys.act state label
    | none => sys

/-- Every state that a new database reaches. -/
def run (dialect : Dialect) (labels : List CallLabel) : CallSys :=
  Transition.run step { dialect } labels

end CallSys

end PhysHarness
