import PhysHarness.Store
import PhysHarness.Lib.Json
import PhysHarness.Lib.Outcome

/-!
The service core: scoped reads, revisioned writes, and the transaction that every command runs in.

A refused command leaves the database as it was, so only successful commands need a state lemma.
-/
namespace PhysHarness

open Outcome

/-- SHA-256 of a text's UTF-8 bytes. -/
class ContentHash where
  sha256 : String → Digest

def digestJson [ContentHash] (value : Json) : Digest := ContentHash.sha256 (Json.canonical value)

/-- The content hash of the concrete runs. -/
@[reducible] def Scenario.textHash : ContentHash := ⟨fun content => content⟩

namespace Db

/-- The head of the scope check of an agent: its experiment exists, and its branch, when it has
one, belongs to that experiment. -/
def agentExperiment (db : Db) (actor : Principal) : Option (Row Experiment) := do
  let experiment ← db.experiments.find (← actor.experimentId)
  guard (experiment.projectId = actor.projectId)
  match actor.branchId with
  | none => return experiment
  | some branchId =>
    let branch ← db.branches.find branchId
    guard (branch.projectId = actor.projectId ∧
      some branch.payload.experimentId = actor.experimentId)
    return experiment

/-- Scope of an identity over a row, given what an agent of the experiment may see of it. -/
def inScope (db : Db) (actor : Principal) (visible : Experiment → Bool) : Bool :=
  actor.role ≠ .agent ||
    match db.agentExperiment actor with
    | none => false
    | some experiment => visible experiment.payload

def experimentInScope (db : Db) (actor : Principal) (id : Id) (_ : Row Experiment) : Bool :=
  db.inScope actor fun _ => some id = actor.experimentId

def problemInScope (db : Db) (actor : Principal) (id : Id) (_ : Row Problem) : Bool :=
  db.inScope actor fun experiment => id = experiment.problemId

def branchInScope (db : Db) (actor : Principal) (id : Id) (row : Row Branch) : Bool :=
  db.inScope actor fun _ =>
    some row.payload.experimentId = actor.experimentId &&
      (actor.branchId = some id
        || (actor.branchId = none && row.payload.originActorId = actor.id)
        || actor.agentOrchestrator
        || (actor.branchId.isSome && row.payload.parentId = actor.branchId))

def taskInScope (db : Db) (actor : Principal) (_ : Id) (row : Row Task) : Bool :=
  db.inScope actor fun _ =>
    some row.payload.experimentId = actor.experimentId &&
      (actor.branchId = some row.payload.branchId
        || (actor.branchId = none && row.payload.originActorId = actor.id)
        || actor.agentOrchestrator)

/-- Read a row of one kind; an absent row, another project's and one out of scope look the same. -/
def getRow {α : Type} (table : Table Id (Row α)) (visible : Id → Row α → Bool) (id : Id)
    (actor : Principal) : Except Failure (Row α) :=
  match table.find id with
  | none => .error (.notFound "The requested project object was not found.")
  | some row =>
    if row.projectId ≠ actor.projectId ∨ visible id row = false then
      .error (.notFound "The requested project object was not found.")
    else .ok row

/-- Rows that only controllers, reviewers and verifiers read. -/
def getUnscoped {α : Type} (db : Db) (table : Table Id (Row α)) (id : Id) (actor : Principal) :
    Except Failure (Row α) :=
  getRow table (fun _ _ => db.inScope actor fun _ => false) id actor

def getExperiment (db : Db) (id : Id) (actor : Principal) : Except Failure (Row Experiment) :=
  getRow db.experiments (db.experimentInScope actor) id actor

def getProblem (db : Db) (id : Id) (actor : Principal) : Except Failure (Row Problem) :=
  getRow db.problems (db.problemInScope actor) id actor

def getBranch (db : Db) (id : Id) (actor : Principal) : Except Failure (Row Branch) :=
  getRow db.branches (db.branchInScope actor) id actor

def getTask (db : Db) (id : Id) (actor : Principal) : Except Failure (Row Task) :=
  getRow db.tasks (db.taskInScope actor) id actor

theorem getRow_ok {α : Type} {table : Table Id (Row α)} {visible : Id → Row α → Bool} {id : Id}
    {actor : Principal} {row : Row α} :
    getRow table visible id actor = .ok row ↔
      table.find id = some row ∧ row.projectId = actor.projectId ∧ visible id row = true := by
  unfold getRow
  cases found : table.find id with
  | none => simp
  | some stored =>
    simp only [Option.some.injEq]
    split <;> grind

theorem getRow_find {α : Type} {table : Table Id (Row α)} {visible : Id → Row α → Bool} {id : Id}
    {actor : Principal} {row : Row α} (found : getRow table visible id actor = .ok row) :
    table.find id = some row := (getRow_ok.mp found).1

end Db

/-- A revisioned write of a row that was just read. -/
def Row.replace {α : Type} (row : Row α) (payload : α) : Row α :=
  { row with revision := row.revision + 1, payload }

@[simp] theorem Row.replace_payload {α : Type} (row : Row α) (payload : α) :
    (row.replace payload).payload = payload := rfl

@[simp] theorem Row.replace_projectId {α : Type} (row : Row α) (payload : α) :
    (row.replace payload).projectId = row.projectId := rfl

/-- Add a row under a new primary key. -/
def insertNew {κ α : Type} [DecidableEq κ] (table : Table κ α) (key : κ) (row : α) :
    Except Failure (Table κ α) :=
  if table.find key = none then .ok (table.put key row) else .error .integrity

theorem insertNew_ok {κ α : Type} [DecidableEq κ] {table inserted : Table κ α} {key : κ} {row : α} :
    insertNew table key row = .ok inserted ↔
      table.find key = none ∧ inserted = table.put key row := by
  unfold insertNew
  split <;> simp_all [eq_comm]

namespace Db

/-- The experiment may allocate: it is active, its ledger is not flagged and its time has not run
out. -/
def active (db : Db) (now : Time) (id : Id) (actor : Principal) :
    Except Failure (Row Experiment) := do
  let row ← db.getExperiment id actor
  require (row.payload.budgetReconciliationRequired = false)
    (.refuse "BUDGET_RECONCILIATION_REQUIRED"
      "A settled charge exceeded its reservation; reconcile the experiment budget.")
  require (row.payload.status = .queued ∨ row.payload.status = .running)
    (.refuse "EXPERIMENT_NOT_ACTIVE" "Allocation requires an active experiment.")
  let started ← orThrow row.payload.startedAt (.internal "KeyError: started_at")
  require (now < started + row.payload.maxRuntimeSeconds * Time.second)
    (.refuse "EXPERIMENT_DEADLINE" "The experiment runtime envelope is exhausted.")
  return row

def staleLease : Failure :=
  .refuse "STALE_LEASE" "The worker no longer holds the current execution lease." 409 false
    "Discard authoritative updates and let the current worker continue."

/-- The lease of a task, when the holder's exact fence is live. -/
def fenced (db : Db) (now : Time) (taskId : Id) (holder : String) (fence : Nat) :
    Except Failure Lease := do
  let lease ← orThrow (db.leases.find taskId) staleLease
  require (lease.holder = holder ∧ lease.fence = fence ∧ now < lease.expiresAt) staleLease
  return lease

/-- A bound worker may commit only under its own identity, on its own task and current lease. -/
def checkWorkerEffects (db : Db) (effects : Option WorkerEffects) (now : Time)
    (actor : Principal) : Except Failure Unit :=
  match effects with
  | none => .ok ()
  | some binding => do
    require (actor = binding.actor)
      (.refuse "WORKER_EFFECT_SCOPE" "Bound effects cannot change principal.")
    let task ← db.getTask binding.taskId actor
    require (actor.role = .agent → actor.experimentId = some task.payload.experimentId ∧
        actor.branchId = some task.payload.branchId)
      (.refuse "WORKER_EFFECT_SCOPE" "Bound effects belong to another task.")
    if binding.requireActive then
      let _ ← db.active now task.payload.experimentId actor
      let _ ← db.fenced now binding.taskId binding.holder binding.fence
      return ()
    else
      let _ ← db.fenced now binding.taskId binding.holder binding.fence
      return ()

end Db

def fingerprint (actor : Principal) (command : Command) : Fingerprint where
  command
  role := actor.role
  experimentId := actor.experimentId
  branchId := actor.branchId
  agentOrchestrator := actor.agentOrchestrator

def commandKey (actor : Principal) (key : String) : CommandKey where
  projectId := actor.projectId
  actorId := actor.id
  key

/-- Record a finished command for idempotent replay. -/
def Db.logged (db : Db) (actor : Principal) (key : String) (command : Command) (reply : Reply) :
    Db :=
  { db with commands := db.commands.put (commandKey actor key) ⟨fingerprint actor command, reply⟩ }

/-- Run a command in one transaction. The worker binding is checked before and after the action,
and a key that was used before returns its recorded result. -/
def execute (db : Db) (env : Env) (actor : Principal) (key : String) (command : Command)
    (action : Db → Transacted) : Transacted := do
  require (0 < key.length ∧ key.length ≤ 200)
    (.refuse "IDEMPOTENCY_KEY_REQUIRED" "Supply an Idempotency-Key of 1–200 characters." 422)
  db.checkWorkerEffects env.effects env.now actor
  match db.commands.find (commandKey actor key) with
  | some prior =>
    require (prior.fingerprint = fingerprint actor command)
      (.refuse "IDEMPOTENCY_CONFLICT" "This key already identifies different inputs." 409 false
        "Reuse the original inputs or issue a new command key.")
    return (db, prior.result)
  | none =>
    let result ← action db
    result.1.checkWorkerEffects env.effects env.commitAt actor
    return (result.1.logged actor key command result.2, result.2)

section Execution

variable {db after : Db} {env : Env} {actor : Principal} {key : String} {command : Command}
  {action : Db → Transacted} {reply : Reply}

/-- A command that returns either replays an earlier one and changes nothing, or ran its action
under an authority that held at its start and at its commit. -/
theorem execute_cases (returned : execute db env actor key command action = .ok (after, reply)) :
    (after = db ∧ ∃ prior, db.commands.find (commandKey actor key) = some prior ∧
        prior.fingerprint = fingerprint actor command ∧ prior.result = reply) ∨
      (∃ changed, db.commands.find (commandKey actor key) = none ∧
        db.checkWorkerEffects env.effects env.now actor = .ok () ∧
        action db = .ok (changed, reply) ∧
        changed.checkWorkerEffects env.effects env.commitAt actor = .ok () ∧
        after = changed.logged actor key command reply) := by
  simp only [execute, bind_ok, require_ok, exists_const] at returned
  obtain ⟨_, _, checked, returned⟩ := returned
  cases prior : db.commands.find (commandKey actor key) with
  | some row =>
    simp only [prior, bind_ok, require_ok, exists_const, pure_ok, Prod.mk.injEq] at returned
    obtain ⟨same, rfl, rfl⟩ := returned
    exact .inl ⟨rfl, row, rfl, same, rfl⟩
  | none =>
    simp only [prior, bind_ok, pure_ok, Prod.mk.injEq] at returned
    obtain ⟨⟨changed, produced⟩, ran, _, committed, rfl, rfl⟩ := returned
    exact .inr ⟨changed, rfl, checked, ran, committed, rfl⟩

theorem checkWorkerEffects_some {binding : WorkerEffects} {now : Time}
    (checked : db.checkWorkerEffects (some binding) now actor = .ok ()) :
    actor = binding.actor ∧
      ∃ lease, db.fenced now binding.taskId binding.holder binding.fence = .ok lease := by
  simp only [Db.checkWorkerEffects, bind_ok, require_ok, exists_const] at checked
  obtain ⟨same, task, -, -, checked⟩ := checked
  refine ⟨same, ?_⟩
  split at checked
  all_goals
    simp only [bind_ok, pure_ok] at checked
    grind

end Execution

theorem Db.fenced_ok {db : Db} {now : Time} {taskId : Id} {holder : String} {fence : Nat}
    {lease : Lease} :
    db.fenced now taskId holder fence = .ok lease ↔
      db.leases.find taskId = some lease ∧ lease.holder = holder ∧ lease.fence = fence ∧
        now < lease.expiresAt := by
  simp only [Db.fenced, bind_ok, orThrow_ok, require_ok, exists_const, pure_ok]
  grind

theorem Db.active_ok {db : Db} {now : Time} {id : Id} {actor : Principal} {row : Row Experiment}
    (allowed : db.active now id actor = .ok row) :
    db.experiments.find id = some row ∧ row.payload.budgetReconciliationRequired = false ∧
      (row.payload.status = .queued ∨ row.payload.status = .running) := by
  simp only [Db.active, bind_ok, require_ok, exists_const, orThrow_ok, pure_ok] at allowed
  obtain ⟨found, read, clear, status, started, -, -, rfl⟩ := allowed
  exact ⟨Db.getRow_find read, clear, status⟩

end PhysHarness
