import PhysHarness.Domain
import PhysHarness.Lib.Table
import PhysHarness.Lib.Transition
import Mathlib.Algebra.Order.Ring.Rat
import Mathlib.Data.List.Sort

/-!
The transactional outbox. A dispatcher claims due rows in one transaction, delivers each of them
outside, and reports each outcome in a second transaction. Clocks and leases are rational seconds.
-/
namespace PhysHarness

inductive OutboxState where
  | pending | dispatching | delivered | blocked
  deriving DecidableEq

/-- The values an exception's `code` attribute is known to take. -/
inductive CodeValue where
  | none
  | number (value : Int)
  | text (value : String)
  deriving DecidableEq

/-- Python's truth of a value. -/
def CodeValue.truthy : CodeValue → Bool
  | .none => false
  | .number value => value ≠ 0
  | .text value => value ≠ ""

/-- What a delivery can raise: a boundary error, or any other exception, which may or may not have a
`code` attribute. -/
inductive DeliveryError where
  | harness (code : String) (retryable : Bool)
  | other (typeName : String) (code : Option CodeValue)
  deriving DecidableEq

/-- `getattr(error, "code", type(error).__name__)` -/
def DeliveryError.failure : DeliveryError → CodeValue
  | .harness code _ => .text code
  | .other _ (some code) => code
  | .other typeName none => .text typeName

def DeliveryError.permanent : DeliveryError → Bool
  | .harness _ retryable => !retryable
  | .other _ _ => false

inductive DeliveryOutcome where
  | returned
  | raised (error : DeliveryError)
  deriving DecidableEq

/-- The `failure` that a report is written from; `None` after a delivery that returned. -/
def DeliveryOutcome.failure : DeliveryOutcome → CodeValue
  | .returned => .none
  | .raised error => error.failure

def DeliveryOutcome.permanent : DeliveryOutcome → Bool
  | .returned => false
  | .raised error => error.permanent

structure OutboxRow where
  projectId : ProjectId
  kind : String
  aggregateId : Id
  payload : String
  state : OutboxState := .pending
  attempts : Nat := 0
  leaseUntil : ℚ := 0
  owner : Option String := none
  lastError : CodeValue := .none
  deriving DecidableEq

/-- What a claim hands to the delivery. -/
structure OutboxItem where
  id : Id
  projectId : ProjectId
  kind : String
  aggregateId : Id
  payload : String
  attempt : Nat
  deriving DecidableEq

structure Dispatcher where
  owner : String
  retryBackoffSeconds : ℚ := 2
  deriving DecidableEq

/-- The rows that a claim may take. -/
def OutboxRow.due (row : OutboxRow) (now : ℚ) : Bool :=
  (row.state = .pending && row.leaseUntil ≤ now) ||
    (row.state = .dispatching && row.leaseUntil ≤ now)

def OutboxRow.claimed (row : OutboxRow) (owner : String) (now : ℚ) : OutboxRow :=
  { row with
    state := .dispatching
    owner := some owner
    leaseUntil := now + 60
    attempts := row.attempts + 1 }

def OutboxRow.item (row : OutboxRow) (id : Id) : OutboxItem where
  id
  projectId := row.projectId
  kind := row.kind
  aggregateId := row.aggregateId
  payload := row.payload
  attempt := row.attempts

/-- The identifiers that a claim takes: due rows in order, without those another transaction has
locked. -/
def dueIds (rows : Table Id OutboxRow) (now : ℚ) (limit : Nat) (locked : Id → Bool) : List Id :=
  (((rows.select fun id row => row.due now && !locked id).map Prod.fst).insertionSort
    (· ≤ ·)).take limit

/-- Claim the rows one after the other. -/
def claimRows (dispatcher : Dispatcher) (now : ℚ) :
    List Id → Table Id OutboxRow → Table Id OutboxRow × List OutboxItem
  | [], rows => (rows, [])
  | id :: ids, rows =>
    match rows.find id with
    | none => claimRows dispatcher now ids rows
    | some row =>
      let claimed := row.claimed dispatcher.owner now
      let rest := claimRows dispatcher now ids (rows.put id claimed)
      (rest.1, claimed.item id :: rest.2)

def reportDelay (dispatcher : Dispatcher) (attempt : Nat) : ℚ :=
  min 60 (dispatcher.retryBackoffSeconds * 2 ^ min (attempt - 1) 10)

/-- The `UPDATE` of a report matches the row only for the recorded owner and attempt. -/
def OutboxRow.reportMatches (row : OutboxRow) (dispatcher : Dispatcher) (attempt : Nat) : Bool :=
  row.owner = some dispatcher.owner && row.attempts = attempt && row.state = .dispatching

def OutboxRow.reported (row : OutboxRow) (dispatcher : Dispatcher) (attempt : Nat)
    (outcome : DeliveryOutcome) (now : ℚ) : OutboxRow :=
  { row with
    state := if outcome.permanent then .blocked
      else if outcome.failure.truthy then .pending else .delivered
    leaseUntil := if outcome.failure.truthy then now + reportDelay dispatcher attempt else 0
    lastError := outcome.failure }

/-- The second transaction of `_deliver_one`. -/
def report (rows : Table Id OutboxRow) (dispatcher : Dispatcher) (item : OutboxItem)
    (outcome : DeliveryOutcome) (now : ℚ) : Table Id OutboxRow :=
  match rows.find item.id with
  | none => rows
  | some row =>
    if row.reportMatches dispatcher item.attempt then
      rows.put item.id (row.reported dispatcher item.attempt outcome now)
    else rows

/-! ### Any number of dispatchers -/

/-- A claimed item in the hands of its dispatcher. -/
inductive FlightStage where
  | delivering
  | finished (outcome : DeliveryOutcome)
  | over
  deriving DecidableEq

structure Flight where
  dispatcher : Dispatcher
  item : OutboxItem
  stage : FlightStage := .delivering
  deriving DecidableEq

structure OutboxSys where
  rows : Table Id OutboxRow := ∅
  flights : List Flight := []

/-- A command enqueues a row; a dispatcher claims, a delivery ends, its outcome is reported, or the
dispatcher crashes before one of these. -/
inductive OutboxLabel where
  | enqueue (id : Id) (projectId : ProjectId) (kind : String) (aggregateId : Id) (payload : String)
  | claim (dispatcher : Dispatcher) (now : ℚ) (limit : Nat) (locked : Id → Bool)
  | deliver (flight : Nat) (outcome : DeliveryOutcome)
  | report (flight : Nat) (now : ℚ)
  | crash (flight : Nat)

namespace OutboxSys

/-- The flight with this number moves on. -/
def move (sys : OutboxSys) (index : Nat) (flight : Flight) (stage : FlightStage) : OutboxSys :=
  { sys with flights := sys.flights.set index { flight with stage } }

def step (sys : OutboxSys) : OutboxLabel → OutboxSys
  | .enqueue id projectId kind aggregateId payload =>
    match sys.rows.find id with
    | some _ => sys
    | none => { sys with rows := sys.rows.put id { projectId, kind, aggregateId, payload } }
  | .claim dispatcher now limit locked =>
    let claimed := claimRows dispatcher now (dueIds sys.rows now limit locked) sys.rows
    { rows := claimed.1
      flights := sys.flights ++ claimed.2.map fun item => { dispatcher, item } }
  | .deliver index outcome =>
    match sys.flights[index]? with
    | some ⟨dispatcher, item, .delivering⟩ =>
      sys.move index ⟨dispatcher, item, .delivering⟩ (.finished outcome)
    | _ => sys
  | .report index now =>
    match sys.flights[index]? with
    | some ⟨dispatcher, item, .finished outcome⟩ =>
      { sys.move index ⟨dispatcher, item, .finished outcome⟩ .over with
        rows := report sys.rows dispatcher item outcome now }
    | _ => sys
  | .crash index =>
    match sys.flights[index]? with
    | some flight => sys.move index flight .over
    | none => sys

/-- Every state reached from an empty outbox. -/
def run (labels : List OutboxLabel) : OutboxSys := Transition.run step {} labels

/-- The step is a claim that takes the row. -/
def takes (sys : OutboxSys) (label : OutboxLabel) (id : Id) : Bool :=
  match label with
  | .claim _ now limit locked => id ∈ dueIds sys.rows now limit locked
  | _ => false

end OutboxSys

end PhysHarness
