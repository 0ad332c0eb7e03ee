import PhysHarness.Service

/-!
Experiments and their resource ledgers: creation, transitions, reservations and settlements.
-/
namespace PhysHarness

open Outcome

variable {db after : Db} {env : Env} {actor : Principal} {reply : Reply}

def invalidAmount (message : String) : Failure := .refuse "INVALID_RESOURCE_AMOUNT" message 422

/-- An amount in micro-USD. The input is the scaled decimal, or nothing when the text was not an
exact amount. -/
def moneyUnits (scaled : Option Int) : Except Failure Nat := do
  let error := invalidAmount "Use a nonnegative USD amount with at most six decimals."
  let units ← orThrow scaled error
  require (0 ≤ units ∧ units ≤ 9000000000000000) error
  return units.toNat

/-- The checks of inserting a record that belongs to a task: the task shares the experiment, and
the record gets the task's branch. -/
def checkTaskRecord (db : Db) (actor : Principal) (experimentId taskId : Id)
    (declared : Option Id := none) : Except Failure Id := do
  let task ← db.getTask taskId actor
  require (task.payload.experimentId = experimentId)
    (.refuse "RECORD_SCOPE" "Linked evidence belongs to another experiment.")
  require (declared.getD task.payload.branchId = task.payload.branchId)
    (.refuse "BRANCH_AUTHORITY" "Linked record branch does not match.")
  let branch ← db.getBranch task.payload.branchId actor
  require (branch.payload.experimentId = experimentId)
    (.refuse "BRANCH_AUTHORITY" "Branch belongs to another experiment.")
  return task.payload.branchId

def createExperimentAction (env : Env) (actor : Principal) (request : ExperimentRequest)
    (db : Db) : Transacted := do
  let problem ← db.getProblem request.problemId actor
  let _ ← db.getUnscoped db.campaigns request.campaignId actor
  require (problem.payload.campaignId = request.campaignId)
    (.refuse "CAMPAIGN_MISMATCH" "The target belongs to another campaign.")
  let id := env.newId 0
  let experiments ← insertNew db.experiments id
    { projectId := actor.projectId
      payload :=
        { problemId := request.problemId
          targetDigest := problem.payload.targetDigest
          maxRuntimeSeconds := request.maxRuntimeSeconds
          sharing := request.sharing } }
  let budgets ← insertNew db.budgets id
    { maxCost := request.maxCost
      maxConcurrency := request.maxConcurrency
      maxTokens := request.maxTokens }
  return ({ db with experiments, budgets }, .record id 1)

theorem createExperiment_cases {request : ExperimentRequest}
    (returned : createExperimentAction env actor request db = .ok (after, reply)) :
    ∃ targetDigest, db.experiments.find (env.newId 0) = none ∧
      db.budgets.find (env.newId 0) = none ∧
      after = { db with
        experiments := db.experiments.put (env.newId 0)
          { projectId := actor.projectId
            payload :=
              { problemId := request.problemId
                targetDigest
                maxRuntimeSeconds := request.maxRuntimeSeconds
                sharing := request.sharing } }
        budgets := db.budgets.put (env.newId 0)
          { maxCost := request.maxCost
            maxConcurrency := request.maxConcurrency
            maxTokens := request.maxTokens } } := by
  simp only [createExperimentAction, bind_ok, require_ok, exists_const, insertNew_ok, pure_ok,
    Prod.mk.injEq] at returned
  obtain ⟨problem, -, -, -, -, _, ⟨unused, rfl⟩, _, ⟨fresh, rfl⟩, rfl, -⟩ := returned
  exact ⟨problem.payload.targetDigest, unused, fresh, rfl⟩

def createExperiment (db : Db) (env : Env) (request : ExperimentRequest) (actor : Principal)
    (key : String) : Transacted := do
  requireRole actor [.researcher, .operator]
  execute db env actor key (.createExperiment request)
    (createExperimentAction env actor request)

/-- The statuses an action applies to, and the status it gives. -/
def ExperimentAction.transition : ExperimentAction → List ExperimentStatus × ExperimentStatus
  | .start => ([.created], .queued)
  | .pause => ([.queued, .running], .paused)
  | .resume => ([.paused, .blocked], .queued)
  | .cancel => ([.created, .queued, .running, .paused, .blocked], .cancelled)

def ExperimentAction.name : ExperimentAction → String
  | .start => "start"
  | .pause => "pause"
  | .resume => "resume"
  | .cancel => "cancel"

/-- Only a reviewed, unchanged target may be worked on. -/
def checkReviewedTarget (db : Db) (experiment : Experiment) (actor : Principal) :
    Except Failure Unit := do
  let problem ← db.getProblem experiment.problemId actor
  require (problem.payload.semanticReview = .approved)
    (.refuse "TARGET_REVIEW_REQUIRED" "The target interpretation needs expert review." 409 false
      "Obtain a recorded target review before starting this experiment.")
  require (problem.payload.targetDigest = experiment.targetDigest)
    (.refuse "TARGET_CHANGED" "The experiment is anchored to a different target.")

/-- Starting and resuming need the reviewed target; stopping does not. -/
def checkStartable (db : Db) (experiment : Experiment) (action : ExperimentAction)
    (actor : Principal) : Except Failure Unit :=
  match action with
  | .start | .resume => checkReviewedTarget db experiment actor
  | .pause | .cancel => .ok ()

def transitionAction (env : Env) (actor : Principal) (identifier : Id) (action : ExperimentAction)
    (expectedRevision : Nat) (db : Db) : Transacted := do
  let row ← db.getExperiment identifier actor
  require (row.revision = expectedRevision)
    (.refuse "REVISION_CONFLICT" "The experiment has a newer revision.")
  require (row.payload.status ∈ action.transition.1)
    (.refuse "INVALID_TRANSITION" ("Cannot " ++ action.name ++ " this experiment."))
  checkStartable db row.payload action actor
  let startedAt := if action = .start then some env.now else row.payload.startedAt
  let replaced := row.replace { row.payload with status := action.transition.2, startedAt }
  return ({ db with experiments := db.experiments.put identifier replaced },
    .record identifier replaced.revision)

theorem transition_cases {identifier : Id} {action : ExperimentAction} {revision : Nat}
    (returned : transitionAction env actor identifier action revision db = .ok (after, reply)) :
    ∃ row startedAt, db.experiments.find identifier = some row ∧
      after = { db with
        experiments := db.experiments.put identifier
          (row.replace { row.payload with status := action.transition.2, startedAt }) } := by
  simp only [transitionAction, bind_ok, require_ok, exists_const, pure_ok,
    Prod.mk.injEq] at returned
  obtain ⟨row, read, -, -, -, -, rfl, -⟩ := returned
  exact ⟨row, _, Db.getRow_find read, rfl⟩

def transitionExperiment (db : Db) (env : Env) (identifier : Id) (action : ExperimentAction)
    (expectedRevision : Nat) (actor : Principal) (key : String) : Transacted := do
  requireRole actor [.researcher, .operator]
  execute db env actor key (.transitionExperiment identifier action expectedRevision)
    (transitionAction env actor identifier action expectedRevision)

/-- A model reservation is bound to a fenced task of its experiment and takes no worker slot. -/
def checkModelBinding (db : Db) (env : Env) (actor : Principal) (experimentId : Id) (workers : Nat)
    (binding : Option (Id × String × Nat)) : Except Failure Unit :=
  match binding with
  | none => .ok ()
  | some (taskId, holder, fence) => do
    let task ← db.getTask taskId actor
    let _ ← db.fenced env.now taskId holder fence
    require (workers = 0 ∧ task.payload.experimentId = experimentId)
      (.refuse "RESERVATION_SCOPE" "Model task binding is out of scope.")

/-- Record the task a model reservation is bound to. -/
def insertModelBinding (db : Db) (actor : Principal) (id experimentId reservationId : Id)
    (binding : Option (Id × String × Nat)) :
    Except Failure (Table Id (Row ModelReservation)) :=
  match binding with
  | none => .ok db.modelReservations
  | some (taskId, holder, fence) => do
    let _ ← checkTaskRecord db actor experimentId taskId
    insertNew db.modelReservations id
      { projectId := actor.projectId
        payload := { experimentId, taskId, reservationId, holder, fence } }

/-- The tokens of a request fit the envelope, when there is one. -/
def Budget.fitsTokens (budget : Budget) (tokens : Int) : Prop :=
  ∀ limit ∈ budget.maxTokens, budget.tokensSpent + budget.tokensReserved + tokens ≤ (limit : Int)

instance (budget : Budget) (tokens : Int) : Decidable (budget.fitsTokens tokens) :=
  inferInstanceAs (Decidable (∀ limit ∈ budget.maxTokens, _))

def Budget.fitsCost (budget : Budget) (amount : Int) : Prop :=
  budget.spent + budget.reserved + amount ≤ budget.maxCost

instance (budget : Budget) (amount : Int) : Decidable (budget.fitsCost amount) :=
  inferInstanceAs (Decidable (_ ≤ _))

def Budget.fitsWorkers (budget : Budget) (workers : Int) : Prop :=
  budget.activeWorkers + workers ≤ budget.maxConcurrency

instance (budget : Budget) (workers : Int) : Decidable (budget.fitsWorkers workers) :=
  inferInstanceAs (Decidable (_ ≤ _))

def noLedger : Failure := .internal "AttributeError: the experiment has no budget row"

def reserveAction (env : Env) (actor : Principal) (experimentId : Id) (amount workers tokens : Nat)
    (binding : Option (Id × String × Nat)) (db : Db) : Transacted := do
  let _ ← db.active env.now experimentId actor
  checkModelBinding db env actor experimentId workers binding
  let budget ← orThrow (db.budgets.find experimentId) noLedger
  require (budget.fitsTokens tokens)
    (.refuse "TOKEN_BUDGET_EXCEEDED" "The experiment token envelope is exhausted.")
  require (budget.fitsCost amount)
    (.refuse "BUDGET_EXCEEDED" "The requested reservation exceeds the experiment envelope." 409
      false "Reconcile outstanding usage or increase the approved experiment envelope.")
  require (budget.fitsWorkers workers)
    (.refuse "CONCURRENCY_EXCEEDED" "The experiment has no free worker slots." 409 true
      "Wait for an existing worker allocation to settle.")
  let id := env.newId 0
  let reservations ← insertNew db.reservations id
    { experimentId, reserved := amount, workers, tokensReserved := tokens }
  let modelReservations ← insertModelBinding db actor (env.newId 1) experimentId id binding
  let budgets := db.budgets.put experimentId
    { budget with
      reserved := budget.reserved + amount
      tokensReserved := budget.tokensReserved + tokens
      activeWorkers := budget.activeWorkers + workers }
  return ({ db with reservations, modelReservations, budgets }, .reservation id workers)

theorem reserve_cases {experimentId : Id} {amount workers tokens : Nat}
    {binding : Option (Id × String × Nat)}
    (returned : reserveAction env actor experimentId amount workers tokens binding db =
      .ok (after, reply)) :
    ∃ budget modelReservations, db.budgets.find experimentId = some budget ∧
      budget.fitsTokens tokens ∧ budget.fitsCost amount ∧ budget.fitsWorkers workers ∧
      db.reservations.find (env.newId 0) = none ∧
      after = { db with
        modelReservations
        reservations := db.reservations.put (env.newId 0)
          { experimentId, reserved := amount, workers, tokensReserved := tokens }
        budgets := db.budgets.put experimentId
          { budget with
            reserved := budget.reserved + amount
            tokensReserved := budget.tokensReserved + tokens
            activeWorkers := budget.activeWorkers + workers } } := by
  simp only [reserveAction, bind_ok, require_ok, orThrow_ok, exists_const, insertNew_ok, pure_ok,
    Prod.mk.injEq] at returned
  obtain ⟨-, -, -, -, budget, counted, tokens, cost, workers, _, ⟨fresh, rfl⟩, modelReservations,
    -, rfl, -⟩ := returned
  exact ⟨budget, modelReservations, counted, tokens, cost, workers, fresh, rfl⟩

def reserveResources (db : Db) (env : Env) (experimentId : Id) (cost : Option Int)
    (workers tokens : Int) (binding : Option (Id × String × Nat)) (actor : Principal)
    (key : String) : Transacted := do
  requireRole actor [.researcher, .operator]
  let amount ← moneyUnits cost
  require (0 ≤ workers ∧ 0 ≤ tokens)
    (invalidAmount "Resource allocations must use nonnegative integer counts.")
  execute db env actor key
    (.reserveResources experimentId amount workers.toNat tokens.toNat binding)
    (reserveAction env actor experimentId amount workers.toNat tokens.toNat binding)

/-- A settlement that costs more than was reserved, or that leaves the envelope exceeded. -/
def overruns (budget : Budget) (reservation : Reservation) (actual actualTokens : Nat) : Prop :=
  reservation.reserved < actual ∨ reservation.tokensReserved < actualTokens ∨
    ¬ budget.fitsCost (actual - reservation.reserved) ∨
    ¬ budget.fitsTokens (actualTokens - reservation.tokensReserved)

instance (budget : Budget) (reservation : Reservation) (actual actualTokens : Nat) :
    Decidable (overruns budget reservation actual actualTokens) :=
  inferInstanceAs (Decidable (_ ∨ _))

/-- Release a reservation against its actual charge. -/
def settleCharge (actual actualTokens : Nat) (db : Db) (id : Id) (reservation : Reservation)
    (experiment : Row Experiment) (budget : Budget) : Db × Reply :=
  let overrun := decide (overruns budget reservation actual actualTokens)
  let flagged := experiment.replace
    { experiment.payload with budgetReconciliationRequired := true }
  ({ db with
      budgets := db.budgets.put reservation.experimentId
        { budget with
          reserved := budget.reserved - reservation.reserved
          tokensReserved := budget.tokensReserved - reservation.tokensReserved
          tokensSpent := budget.tokensSpent + actualTokens
          spent := budget.spent + actual
          activeWorkers := budget.activeWorkers - reservation.workers }
      reservations := db.reservations.put id
        { reservation with
          tokensActual := some actualTokens
          actual := some actual
          state := .settled }
      experiments :=
        if overrun ∧ experiment.payload.budgetReconciliationRequired = false then
          db.experiments.put reservation.experimentId flagged
        else db.experiments },
    .settlement id .settled (some actual) overrun)

def settleAction (actor : Principal) (reservationId : Id) (actual : Option Nat) (uncertain : Bool)
    (actualTokens : Nat) (db : Db) : Transacted := do
  let reservation ← orThrow (db.reservations.find reservationId)
    (.notFound "Reservation not found.")
  let experiment ← db.getExperiment reservation.experimentId actor
  if reservation.state = .settled then
    require (actual = reservation.actual ∧ some actualTokens = reservation.tokensActual ∧
        uncertain = false)
      (.refuse "SETTLEMENT_CONFLICT" "The reservation was already settled differently.")
    return (db, .settlement reservationId .settled reservation.actual
      experiment.payload.budgetReconciliationRequired)
  else if uncertain then
    return ({ db with
        reservations := db.reservations.put reservationId { reservation with state := .uncertain } },
      .settlement reservationId .uncertain reservation.actual false)
  else
    let budget ← orThrow (db.budgets.find reservation.experimentId) noLedger
    let charge ← orThrow actual (.internal "TypeError: no actual cost")
    return settleCharge charge actualTokens db reservationId reservation experiment budget

theorem settle_cases {reservationId : Id} {actual : Option Nat} {uncertain : Bool}
    {actualTokens : Nat}
    (returned : settleAction actor reservationId actual uncertain actualTokens db =
      .ok (after, reply)) :
    after = db ∨ ∃ reservation, db.reservations.find reservationId = some reservation ∧
      reservation.state ≠ .settled ∧
      (after = { db with
          reservations := db.reservations.put reservationId
            { reservation with state := .uncertain } } ∨
        ∃ experiment budget charge,
          db.experiments.find reservation.experimentId = some experiment ∧
          db.budgets.find reservation.experimentId = some budget ∧
          after = (settleCharge charge actualTokens db reservationId reservation experiment
            budget).1) := by
  simp only [settleAction, bind_ok, orThrow_ok] at returned
  obtain ⟨reservation, found, experiment, read, returned⟩ := returned
  split at returned
  · simp only [bind_ok, require_ok, exists_const, pure_ok, Prod.mk.injEq] at returned
    exact .inl returned.2.1.symm
  next unsettled =>
    refine .inr ⟨reservation, found, unsettled, ?_⟩
    split at returned
    · simp only [pure_ok, Prod.mk.injEq] at returned
      exact .inl returned.1.symm
    · simp only [bind_ok, orThrow_ok, pure_ok] at returned
      obtain ⟨budget, counted, charge, -, result⟩ := returned
      exact .inr ⟨experiment, budget, charge, Db.getRow_find read, counted,
        (congrArg Prod.fst result).symm⟩

def invalidSettlement (message : String) : Failure := .refuse "INVALID_SETTLEMENT" message 422

/-- The charge of a settlement, when one was given. -/
def parseActual (actualCost : Option (Option Int)) : Except Failure (Option Nat) :=
  match actualCost with
  | none => .ok none
  | some scaled => do
    let units ← moneyUnits scaled
    return some units

def settleResources (db : Db) (env : Env) (reservationId : Id) (actualCost : Option (Option Int))
    (uncertain : Bool) (actualTokens : Int) (actor : Principal) (key : String) : Transacted := do
  requireRole actor [.operator]
  require (uncertain = actualCost.isNone)
    (invalidSettlement "Supply either actual cost or an uncertain outcome.")
  require (0 ≤ actualTokens)
    (invalidSettlement "Actual tokens must be a nonnegative integer.")
  let actual ← parseActual actualCost
  execute db env actor key
    (.settleResources reservationId actual uncertain actualTokens.toNat)
    (settleAction actor reservationId actual uncertain actualTokens.toNat)

end PhysHarness
