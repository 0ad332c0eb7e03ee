import PhysHarness.Ledger.Balance

/-!
Ledger conservation over whole runs.

Every command and every broker transaction of a safe step keeps the ledger balanced. A step is not
safe when a capacity refusal releases a reservation that was settled under its provider call, or
when a destruction charges an experiment past its envelope: neither is noticed by the code.
-/
namespace PhysHarness

open Broker

section Transactions

variable {db after : Db} {env : Env} {actor : Principal} {reply : Reply}

/-- The ledger after one posting. -/
theorem LedgerInv.post {id : Id} {old new : Reservation} {spent left : Budget}
    (inv : LedgerInv db) (stored : db.reservations.find id = some old)
    (account : db.budgets.find old.experimentId = some spent)
    (posting : Posting spent left old new)
    (fits : ∀ row, db.experiments.find old.experimentId = some row →
      row.payload.budgetReconciliationRequired = false →
      left.fitsCost 0 ∧ left.fitsTokens 0) :
    LedgerInv { db with
      budgets := db.budgets.put old.experimentId left
      reservations := db.reservations.put id new } where
  balanced := inv.balanced.post stored account posting
  enveloped := inv.enveloped.put fits
  backed := inv.backed.rewrite stored posting.tokens

/-- A posting that charges nothing keeps every experiment inside its envelope. -/
theorem LedgerInv.release {id : Id} {old new : Reservation} {spent left : Budget}
    (inv : LedgerInv db) (stored : db.reservations.find id = some old)
    (account : db.budgets.find old.experimentId = some spent)
    (posting : Posting spent left old new)
    (cost : left.spent + left.reserved ≤ spent.spent + spent.reserved)
    (tokens : left.tokensSpent + left.tokensReserved ≤ spent.tokensSpent + spent.tokensReserved) :
    LedgerInv { db with
      budgets := db.budgets.put old.experimentId left
      reservations := db.reservations.put id new } where
  balanced := inv.balanced.post stored account posting
  enveloped := inv.enveloped.ease account posting.limits cost tokens
  backed := inv.backed.rewrite stored posting.tokens

theorem LedgerInv.releaseSlot {experimentId id : Id} {slot : Reservation} {budget : Budget}
    (inv : LedgerInv db) (stored : db.reservations.find id = some slot)
    (bound : slot.isSlotOf experimentId) (unsettled : slot.state ≠ .settled)
    (account : db.budgets.find experimentId = some budget) :
    LedgerInv { db with
      budgets := db.budgets.put experimentId (settleSlot budget slot).1
      reservations := db.reservations.put id (settleSlot budget slot).2 } := by
  obtain rfl := bound.1
  exact inv.release stored account (settleSlot_posting unsettled bound) le_rfl le_rfl

/-- Marking a reservation uncertain moves no counter. -/
theorem LedgerInv.markUncertain {id : Id} {reservation : Reservation} (inv : LedgerInv db)
    (stored : db.reservations.find id = some reservation) :
    LedgerInv { db with reservations := markUncertain db.reservations id reservation } := by
  unfold Broker.markUncertain
  split
  · exact inv
  next unsettled =>
    have weightless : ∀ counter : Counter,
        counter.weight { reservation with state := .uncertain } = counter.weight reservation := by
      intro counter
      rw [Counter.weight_open unsettled, Counter.weight_open (by simp)]
      cases counter <;> rfl
    have unspent := inv.balanced.unspent id _ stored unsettled
    exact ⟨inv.balanced.rewrite stored rfl (fun _ => unspent) weightless, inv.enveloped,
      inv.backed.rewrite stored rfl⟩

/-- A new open reservation of an experiment whose envelope and workers admit it. -/
theorem LedgerInv.enter {id experimentId : Id} {budget : Budget} {amount workers tokens : Nat}
    (inv : LedgerInv db) (fresh : db.reservations.find id = none)
    (account : db.budgets.find experimentId = some budget)
    (cost : budget.fitsCost amount) (staffed : budget.fitsWorkers workers)
    (priced : ∀ row, db.experiments.find experimentId = some row →
      row.payload.budgetReconciliationRequired = false → budget.fitsTokens tokens) :
    LedgerInv { db with
      reservations := db.reservations.put id
        { experimentId, reserved := amount, workers, tokensReserved := tokens }
      budgets := db.budgets.put experimentId
        { budget with
          reserved := budget.reserved + amount
          tokensReserved := budget.tokensReserved + tokens
          activeWorkers := budget.activeWorkers + workers } } where
  balanced := by
    apply @Balanced.enter _ _ id ⟨experimentId, amount, workers, .active, none, tokens, none⟩ _ _
      inv.balanced fresh account rfl
    · intro counter
      rw [Counter.weight_open (by simp)]
      cases counter <;> simp [Counter.read, Counter.held, add_comm]
    · simpa [Budget.fitsWorkers] using staffed
  enveloped := by
    apply inv.enveloped.put
    intro row stored clear
    constructor
    · simpa [Budget.fitsCost, add_assoc] using cost
    · simpa [Budget.fitsTokens, add_assoc] using priced row stored clear
  backed := inv.backed.enter fresh

/-- A settlement that overruns flags its experiment. -/
theorem Enveloped.settle {id : Id} {reservation : Reservation} {experiment : Row Experiment}
    {budget : Budget} {actual tokens : Nat} (enveloped : Enveloped db.experiments db.budgets)
    (read : db.experiments.find reservation.experimentId = some experiment) :
    let settled := (settleCharge actual tokens db id reservation experiment budget).1
    Enveloped settled.experiments settled.budgets := by
  simp only [settleCharge]
  by_cases beyond : overruns budget reservation actual tokens
  · -- the flagged experiment is exempt, and the others keep their budgets
    intro other row left found clear kept
    have flagged : row.payload.budgetReconciliationRequired = true ∨
        (other ≠ reservation.experimentId ∧ db.experiments.find other = some row) := by
      simp only [beyond, decide_true, true_and] at found
      split at found
      · rw [Table.find_put] at found
        split at found
        · obtain rfl := Option.some.inj found
          exact .inl rfl
        next distinct => exact .inr ⟨distinct, found⟩
      next already =>
        by_cases same : other = reservation.experimentId
        · rw [same, read] at found
          obtain rfl := Option.some.inj found
          exact .inl (by simpa using already)
        · exact .inr ⟨same, found⟩
    rcases flagged with flagged | ⟨distinct, unchanged⟩
    · rw [flagged] at clear
      cases clear
    · rw [Table.find_put_ne _ _ distinct] at kept
      exact enveloped other row left unchanged clear kept
  · have fits := beyond
    simp only [overruns, not_or, not_not] at fits
    obtain ⟨-, -, cost, priced⟩ := fits
    simp only [beyond, decide_false, Bool.false_eq_true, false_and, if_false]
    apply enveloped.put
    intro row found clear
    simp only [Budget.fitsCost, Budget.fitsTokens] at cost priced ⊢
    constructor
    · omega
    · intro limit bounded
      have room := priced limit bounded
      omega

/-- A settlement keeps the ledger. -/
theorem LedgerInv.settle {id : Id} {reservation : Reservation} {experiment : Row Experiment}
    {budget : Budget} {actual tokens : Nat} (inv : LedgerInv db)
    (stored : db.reservations.find id = some reservation)
    (unsettled : reservation.state ≠ .settled)
    (read : db.experiments.find reservation.experimentId = some experiment)
    (account : db.budgets.find reservation.experimentId = some budget) :
    LedgerInv (settleCharge actual tokens db id reservation experiment budget).1 := by
  have posting := @settleCharge_posting budget _ unsettled actual tokens
  exact ⟨inv.balanced.post stored account posting, inv.enveloped.settle read,
    inv.backed.rewrite stored rfl⟩

/-- Retiring a workspace closes its empty reservation and releases its slot. -/
theorem LedgerInv.retire {workspaceId slotId : Id} {row : Row Workspace}
    {reservation slot : Reservation} {budget : Budget} (inv : LedgerInv db) (evidenceId : Id)
    (stored : db.workspaces.find workspaceId = some row)
    (resources : retiredResources db row.payload.experimentId row.payload =
      .ok (reservation, slotId, slot))
    (account : db.budgets.find row.payload.experimentId = some budget) :
    LedgerInv { db with
      budgets := db.budgets.put row.payload.experimentId (settleSlot budget slot).1
      reservations := (db.reservations.put row.payload.reservationId reservation.closed).put slotId
        (settleSlot budget slot).2
      workspaces := db.workspaces.put workspaceId
        (row.replace (row.payload.retired evidenceId)) } := by
  simp only [retiredResources, Outcome.bind_ok, Outcome.orThrow_ok, Outcome.require_ok,
    exists_const, Outcome.pure_ok, Prod.mk.injEq] at resources
  obtain ⟨empty, found, held, -, shared, kept, ⟨-, unsettled, cost, workers, tokens, bound, active⟩,
    rfl, rfl, rfl⟩ := resources
  have weightless : ∀ counter : Counter,
      counter.weight empty.closed = counter.weight empty := by
    intro counter
    rw [Counter.weight_open unsettled, Counter.weight_settled rfl]
    cases counter <;>
      simp [Counter.held, Counter.charged, Reservation.closed, cost, workers, tokens]
  have closed : LedgerInv { db with
      reservations := db.reservations.put row.payload.reservationId empty.closed } :=
    ⟨inv.balanced.rewrite found rfl (absurd rfl) weightless, inv.enveloped,
      inv.backed.rewrite found rfl⟩
  -- the slot has a worker and the reservation has none, so closing left the slot as it was
  have distinct : held ≠ row.payload.reservationId := by
    rintro rfl
    obtain rfl := Option.some.inj (kept.symm.trans found)
    rw [bound.2.1] at workers
    exact absurd workers (by decide)
  have still : (db.reservations.put row.payload.reservationId empty.closed).find held =
      some shared := by rw [Table.find_put_ne _ _ distinct, kept]
  have settled := closed.releaseSlot still bound active account
  exact ⟨settled.balanced, settled.enveloped, settled.backed.replace stored rfl⟩

theorem LedgerInv.quiet (inv : LedgerInv db) (quiet : Quiet db after) : LedgerInv after := by
  obtain ⟨_, _, _, _, _, stored, rfl, same⟩ := quiet
  exact ⟨inv.balanced, inv.enveloped, inv.backed.replace stored same⟩

/-- Issuing a ticket settles the source's slot, or leaves the ledger. -/
theorem LedgerInv.released {experimentId : Id} {slotId : Option Id}
    {ledger : Table Id Budget × Table Id Reservation} (inv : LedgerInv db)
    (returned : releaseSourceSlot db actor experimentId slotId = .ok ledger) :
    LedgerInv { db with budgets := ledger.1, reservations := ledger.2 } := by
  rcases releaseSourceSlot_cases returned with
    rfl | ⟨id, slot, budget, stored, bound, active, account, rfl⟩
  · exact inv
  · exact inv.releaseSlot stored bound (by simp [active]) account

variable [ContentHash]

/-- No command unbalances the ledger. -/
theorem LedgerInv.performs {request : Request} (inv : LedgerInv db)
    (performs : request.Performs env actor db after reply) : LedgerInv after := by
  cases request with
  | createExperiment =>
    obtain ⟨_, unused, fresh, rfl⟩ := createExperiment_cases performs
    refine ⟨inv.balanced.create fresh fun counter => by cases counter <;> rfl, ?_, inv.backed⟩
    intro id row budget stored clear account
    rw [Table.find_put] at account stored
    split at account
    · obtain rfl := Option.some.inj account
      simp [Budget.fitsCost, Budget.fitsTokens]
    next distinct =>
      rw [if_neg distinct] at stored
      exact inv.enveloped id row budget stored clear account
  | transitionExperiment =>
    obtain ⟨row, _, stored, rfl⟩ := transition_cases performs
    refine ⟨inv.balanced, inv.enveloped.flags ?_, inv.backed⟩
    intro id other found clear
    rw [Table.find_put] at found
    split at found
    next same =>
      obtain rfl := Option.some.inj found
      exact ⟨row, same ▸ stored, clear⟩
    · exact ⟨other, found, clear⟩
  | reserveResources =>
    obtain ⟨_, performs⟩ := performs
    obtain ⟨_, _, account, priced, cost, staffed, fresh, rfl⟩ := reserve_cases performs
    have entered := inv.enter fresh account cost staffed fun _ _ _ => priced
    exact ⟨entered.balanced, entered.enveloped, entered.backed⟩
  | settleResources =>
    obtain ⟨_, performs⟩ := performs
    rcases settle_cases performs with rfl | ⟨reservation, stored, unsettled, rfl | settled⟩
    · exact inv
    · have marked := inv.markUncertain stored
      rwa [Broker.markUncertain, if_neg unsettled] at marked
    · obtain ⟨_, _, _, read, account, rfl⟩ := settled
      exact inv.settle stored unsettled read account
  | reconcileOrphanWorkerSlot =>
    rcases reconcileOrphan_cases performs with
      rfl | ⟨_, _, _, _, stored, bound, active, account, rfl⟩
    · exact inv
    · exact inv.releaseSlot stored bound (by simp [active]) account
  | issueContinuation =>
    obtain ⟨_, _, _, _, _, _, _, _, _, -, -, -, -, -, -, released, -, rfl⟩ := issue_cases performs
    have settled := inv.released released
    exact ⟨settled.balanced, settled.enveloped, settled.backed⟩
  | retireFailedLocalWorkspace _ _ _ evidenceId =>
    obtain ⟨_, _, _, _, _, _, _, stored, -, -, -, resources, account, rfl⟩ := retire_cases performs
    have retired := inv.retire evidenceId stored resources account
    exact ⟨retired.balanced, retired.enveloped, retired.backed⟩
  | createTask =>
    obtain ⟨_, -, -, -, -, -, rfl⟩ := createTask_cases performs.2
    exact ⟨inv.balanced, inv.enveloped, inv.backed⟩
  | acquireTask =>
    obtain ⟨_, -, -, -, -, -, rfl⟩ := acquireTask_cases performs
    exact ⟨inv.balanced, inv.enveloped, inv.backed⟩
  | renewTask =>
    obtain ⟨_, -, rfl⟩ := renewTask_cases performs
    exact ⟨inv.balanced, inv.enveloped, inv.backed⟩
  | renewTaskForCleanup =>
    obtain ⟨_, -, rfl⟩ := renewTaskForCleanup_cases performs
    exact ⟨inv.balanced, inv.enveloped, inv.backed⟩
  | finishTask =>
    obtain ⟨_, _, _, _, _, -, -, -, -, rfl⟩ := finishTask_cases performs.2
    exact ⟨inv.balanced, inv.enveloped, inv.backed⟩
  | retireQueuedAfterVerified =>
    rcases retireQueued_cases performs with rfl | ⟨_, _, -, -, -, -, -, rfl⟩
    · exact inv
    · exact ⟨inv.balanced, inv.enveloped, inv.backed⟩
  | amendQueuedTaskObjective =>
    obtain ⟨_, -, -, rfl⟩ := amendQueued_cases performs
    exact ⟨inv.balanced, inv.enveloped, inv.backed⟩
  | bindSlot =>
    obtain ⟨_, -, rfl⟩ := bindSlot_cases performs
    exact ⟨inv.balanced, inv.enveloped, inv.backed⟩
  | requestHandoff =>
    obtain ⟨_, -, performs⟩ := performs
    obtain ⟨_, -, _, rfl⟩ := requestHandoff_cases performs
    exact ⟨inv.balanced, inv.enveloped, inv.backed⟩
  | consumeContinuation =>
    obtain ⟨_, _, _, -, -, -, -, -, -, -, rfl⟩ := consume_cases performs
    exact ⟨inv.balanced, inv.enveloped, inv.backed⟩
  | restoreUnstartedContinuation =>
    obtain ⟨_, _, _, _, -, -, -, -, -, -, -, -, -, -, -, -, -, rfl⟩ := restore_cases performs
    exact ⟨inv.balanced, inv.enveloped, inv.backed⟩
  | requeueSettledTerminal =>
    obtain ⟨_, _, _, -, -, rfl⟩ := requeue_cases performs
    exact ⟨inv.balanced, inv.enveloped, inv.backed⟩
  | reconcileModelReservations =>
    obtain ⟨_, rfl⟩ := reconcileModel_cases performs
    exact ⟨inv.balanced, inv.enveloped, inv.backed⟩
  | trackModelReservation =>
    obtain ⟨_, rfl⟩ := track_cases performs
    exact ⟨inv.balanced, inv.enveloped, inv.backed⟩
  | runtimeSave =>
    obtain ⟨_, _, _, _, -, -, -, saved⟩ := publish_cases performs
    rcases saved with ⟨_, _, -, -, -, -, -, rfl⟩ | ⟨_, -, -, -, rfl⟩ <;>
      exact ⟨inv.balanced, inv.enveloped, inv.backed⟩

end Transactions

/-- A capacity refusal may release the reservation of its workspace: it is still open, or nothing
was held or charged under it. -/
def releasable (db : Db) (workspaceId : Id) : Prop :=
  ∀ row ∈ db.workspaces.find workspaceId,
    ∀ reservation ∈ db.reservations.find row.payload.reservationId,
      reservation.state = .settled →
        reservation.reserved = 0 ∧ reservation.workers = 0 ∧ reservation.actual.getD 0 = 0

instance (db : Db) (workspaceId : Id) : Decidable (releasable db workspaceId) :=
  inferInstanceAs (Decidable (∀ row ∈ db.workspaces.find workspaceId, _))

/-- The charge of a destruction stays inside the envelope of an experiment that is not flagged. -/
def chargeable (db : Db) (workspaceId : Id) (charge : Option Nat) : Prop :=
  ∀ cost ∈ charge, ∀ row ∈ db.workspaces.find workspaceId,
    ∀ reservation ∈ db.reservations.find row.payload.reservationId,
      reservation.state ≠ .settled →
        ∀ budget ∈ db.budgets.find reservation.experimentId,
          ∀ experiment ∈ db.experiments.find reservation.experimentId,
            experiment.payload.budgetReconciliationRequired = false →
              budget.fitsCost (cost - reservation.reserved)

instance (db : Db) (workspaceId : Id) (charge : Option Nat) :
    Decidable (chargeable db workspaceId charge) :=
  inferInstanceAs (Decidable (∀ cost ∈ charge, _))

/-- What a provider call reports as the cost of its destroyed VM. -/
def CallKind.charge : CallKind → Option Nat
  | .perform _ .destroy _ actual => actual
  | _ => none

def CallKind.provisions : CallKind → Bool
  | .provision => true
  | .perform .. => false

/-- The step does not release a reservation that was settled under its call, and does not charge an
experiment past its envelope without flagging it. -/
def LedgerSafe (sys : Sys) : Label → Prop
  | .broker env (.provisionCapacity index) =>
    ∀ call ∈ sys.calls[index]?, call.kind.provisions = true → call.stage = .dispatched →
      (call.broker.guardTask sys.db env false).isOk = true → releasable sys.db call.workspaceId
  | .broker env (.performDestroy index) =>
    ∀ call ∈ sys.calls[index]?, call.stage = .dispatched →
      (call.broker.guardTask sys.db env true).isOk = true →
        chargeable sys.db call.workspaceId call.kind.charge
  | _ => True

instance (sys : Sys) (label : Label) : Decidable (LedgerSafe sys label) := by
  unfold LedgerSafe
  split <;> infer_instance

section Broker

variable {db : Db} {id : Id} {row : Row Workspace} {reservation : Reservation} {budget : Budget}

/-- A new VM's reservation and workspace. -/
theorem LedgerInv.provision {b : Broker} {task : Task} {reservationId : Id} {amount : Nat}
    (inv : LedgerInv db) (workspaceId : Id) (timeout : Nat) (key : OperationKey)
    (account : db.budgets.find task.experimentId = some budget) (cost : budget.fitsCost amount)
    (staffed : budget.fitsWorkers b.slotWorkers)
    (fresh : db.reservations.find reservationId = none) :
    LedgerInv { db with
      reservations := db.reservations.put reservationId
        { experimentId := task.experimentId, reserved := amount, workers := b.slotWorkers }
      workspaces := db.workspaces.put workspaceId
        { projectId := b.actor.projectId
          payload := b.provisioned task timeout reservationId amount key }
      budgets := db.budgets.put task.experimentId
        { budget with
          reserved := budget.reserved + amount
          activeWorkers := budget.activeWorkers + b.slotWorkers } } := by
  have priced : ∀ experiment, db.experiments.find task.experimentId = some experiment →
      experiment.payload.budgetReconciliationRequired = false → budget.fitsTokens (0 : Nat) :=
    fun experiment stored clear => (inv.enveloped _ experiment budget stored clear account).2
  have entered := inv.enter fresh account cost staffed priced
  simp only [Nat.cast_zero, add_zero] at entered
  refine ⟨entered.balanced, entered.enveloped, entered.backed.row ?_⟩
  exact ⟨_, Table.find_put_self .., rfl⟩

/-- The reservation of a workspace reserves no tokens. -/
theorem LedgerInv.tokenless (inv : LedgerInv db) (stored : db.workspaces.find id = some row)
    (reserved : db.reservations.find row.payload.reservationId = some reservation) :
    reservation.tokensReserved = 0 := by
  obtain ⟨_, found, tokens⟩ := inv.backed id row stored
  obtain rfl := Option.some.inj (found.symm.trans reserved)
  exact tokens

/-- A capacity refusal releases a reservation that may be released. -/
theorem LedgerInv.capacity {data : Workspace} (inv : LedgerInv db)
    (stored : db.workspaces.find id = some row)
    (reserved : db.reservations.find row.payload.reservationId = some reservation)
    (account : db.budgets.find reservation.experimentId = some budget)
    (same : data.reservationId = row.payload.reservationId) (safe : releasable db id) :
    LedgerInv { db with
      budgets := db.budgets.put reservation.experimentId
        { budget with
          activeWorkers := budget.activeWorkers - reservation.workers
          reserved := budget.reserved - reservation.reserved }
      reservations := db.reservations.put row.payload.reservationId
        { reservation with workers := 0, actual := some 0, state := .settled }
      workspaces := db.workspaces.put id (row.replace data) } := by
  have posting := @release_posting budget _ (inv.tokenless stored reserved)
    (inv.balanced.unspent _ _ reserved) (safe row stored reservation reserved)
  have released := inv.release reserved account posting (by dsimp; omega) le_rfl
  exact ⟨released.balanced, released.enveloped, released.backed.replace stored same⟩

/-- A confirmed destruction settles or frees an open reservation whose charge fits. -/
theorem LedgerInv.destroy {data : Workspace} {actual : Option Nat} (inv : LedgerInv db)
    (stored : db.workspaces.find id = some row)
    (reserved : db.reservations.find row.payload.reservationId = some reservation)
    (unsettled : reservation.state ≠ .settled)
    (account : db.budgets.find reservation.experimentId = some budget)
    (same : data.reservationId = row.payload.reservationId) (safe : chargeable db id actual) :
    LedgerInv { db with
      budgets := db.budgets.put reservation.experimentId
        (destroyLedger reservation budget actual).1
      reservations := db.reservations.put row.payload.reservationId
        (destroyLedger reservation budget actual).2
      workspaces := db.workspaces.put id (row.replace data) } := by
  have posting := @destroyLedger_posting budget _ unsettled (inv.tokenless stored reserved)
    (inv.balanced.unspent _ _ reserved unsettled) actual
  have posted := inv.post reserved account posting (by
    intro experiment found clear
    have fits := inv.enveloped _ experiment budget found clear account
    cases actual with
    | none => exact fits
    | some cost =>
      refine ⟨?_, fits.2⟩
      have charge := safe cost rfl row stored reservation reserved unsettled budget account
        experiment found clear
      simp only [Budget.fitsCost, destroyLedger] at charge ⊢
      omega)
  exact ⟨posted.balanced, posted.enveloped, posted.backed.replace stored same⟩

theorem failureLedger_eases (provider : Provider) (reservation : Reservation) (budget : Budget) :
    let left := (failureLedger provider reservation budget).1
    left.spent + left.reserved ≤ budget.spent + budget.reserved ∧
      left.tokensSpent + left.tokensReserved ≤ budget.tokensSpent + budget.tokensReserved := by
  unfold failureLedger
  split
  · exact ⟨le_rfl, le_rfl⟩
  · cases provider <;> dsimp only <;> omega

/-- A failed command whose VM is gone releases its reservation, or keeps the cost of a remote VM. -/
theorem LedgerInv.failure {data : Workspace} (inv : LedgerInv db) (provider : Provider)
    (stored : db.workspaces.find id = some row)
    (reserved : db.reservations.find row.payload.reservationId = some reservation)
    (account : db.budgets.find reservation.experimentId = some budget)
    (same : data.reservationId = row.payload.reservationId) :
    LedgerInv { db with
      budgets := db.budgets.put reservation.experimentId
        (failureLedger provider reservation budget).1
      reservations := db.reservations.put row.payload.reservationId
        (failureLedger provider reservation budget).2
      workspaces := db.workspaces.put id (row.replace data) } := by
  have posting := @failureLedger_posting budget _ (inv.tokenless stored reserved)
    (inv.balanced.unspent _ _ reserved) provider
  have eased := failureLedger_eases provider reservation budget
  have released := inv.release reserved account posting eased.1 eased.2
  exact ⟨released.balanced, released.enveloped, released.backed.replace stored same⟩

/-- No broker transaction of a safe step unbalances the ledger. -/
theorem LedgerInv.commits {sys : Sys} {env : Env} {step : BrokerStep} {after : Db}
    (inv : LedgerInv sys.db) (safe : LedgerSafe sys (.broker env step))
    (commits : sys.Commits env step after) : LedgerInv after := by
  cases commits with
  | @reserve _ _ _ _ key _ _ ran =>
    obtain ⟨task, timeout, _, _, -, account, cost, staffed, fresh, -, -, rfl⟩ :=
      provisionReserve_cases ran
    have provisioned := inv.provision (env.newId 1) timeout key account cost staffed fresh
    exact ⟨provisioned.balanced, provisioned.enveloped, provisioned.backed⟩
  | ready _ ran => exact inv.quiet (provisionReady_quiet ran)
  | start ran => exact inv.quiet (start_quiet ran)
  | complete _ ran => exact inv.quiet (performComplete_quiet ran)
  | refused _ ran => exact inv.quiet (performRefused_quiet ran)
  | capacity flying kind stage ran =>
    obtain ⟨_, row, _, _, _, _, guarded, stored, reserved, account, rfl, same⟩ :=
      provisionCapacity_cases ran
    have open' := safe _ flying (by rw [kind]; rfl) stage (by rw [guarded]; rfl)
    have released := inv.capacity stored reserved account same open'
    exact ⟨released.balanced, released.enveloped, released.backed⟩
  | destroy flying kind stage ran =>
    obtain ⟨_, row, _, _, _, _, guarded, stored, reserved, unsettled, account, rfl, same⟩ :=
      performDestroy_cases ran
    have fits := safe _ flying stage (by rw [guarded]; rfl)
    rw [kind] at fits
    have settled := inv.destroy stored reserved unsettled account same fits
    exact ⟨settled.balanced, settled.enveloped, settled.backed⟩
  | @destroyed _ call _ _ _ ran =>
    obtain ⟨row, _, _, _, _, stored, reserved, account, rfl, same⟩ := performDestroyed_cases ran
    have released := inv.failure call.broker.providerSpec.provider stored reserved account same
    exact ⟨released.balanced, released.enveloped, released.backed⟩
  | uncertain _ ran =>
    rcases recordUncertainty_cases ran with rfl | ⟨_, _, _, _, stored, reserved, rfl, same⟩
    · exact inv
    · have marked := inv.markUncertain reserved
      exact ⟨marked.balanced, marked.enveloped, marked.backed.replace stored same⟩
  | retain ran =>
    rcases retain_cases ran with rfl | ⟨_, _, _, _, stored, reserved, rfl, same⟩
    · exact inv
    · have marked := inv.markUncertain reserved
      exact ⟨marked.balanced, marked.enveloped, marked.backed.replace stored same⟩

end Broker

section Runs

variable [ContentHash]

theorem LedgerInv.step {sys : Sys} {label : Label} (inv : LedgerInv sys.db)
    (safe : LedgerSafe sys label) : LedgerInv (sys.step label).db := by
  refine sys.step_preserves LedgerInv inv ?_ ?_ ?_
  · intro env actor key request changed commands reply _ _ performs
    have kept := inv.performs performs
    exact ⟨kept.balanced, kept.enveloped, kept.backed⟩
  · rintro env step after rfl - commits
    exact inv.commits safe commits
  · intro write _
    exact ⟨inv.balanced, inv.enveloped, inv.backed⟩

omit [ContentHash] in
theorem ledgerInv_empty : LedgerInv {} where
  balanced :=
    { tracks := fun _ _ found => by simp at found
      budgeted := fun _ _ found => by simp at found
      unspent := fun _ _ found => by simp at found
      staffed := fun _ _ found => by simp at found }
  enveloped _ _ _ found := by simp at found
  backed _ _ found := by simp at found

theorem ledgerInv_run {labels : List Label}
    (safe : Transition.Along Sys.step LedgerSafe {} labels) : LedgerInv (Sys.run labels).db :=
  Transition.run_invariant (fun sys : Sys => LedgerInv sys.db) ledgerInv_empty
    (fun _ _ inv safe => inv.step safe) safe

/-- The sum of an amount over an experiment's reservations that are not settled. -/
def Db.openTotal (db : Db) (experimentId : Id) (amount : Reservation → Nat) : Int :=
  db.reservations.total fun _ reservation =>
    if reservation.experimentId = experimentId ∧ reservation.state ≠ .settled then
      (amount reservation : Int)
    else 0

/-- The sum of a charge over an experiment's settled reservations. -/
def Db.settledTotal (db : Db) (experimentId : Id) (charge : Reservation → Option Nat) : Int :=
  db.reservations.total fun _ reservation =>
    if reservation.experimentId = experimentId ∧ reservation.state = .settled then
      ((charge reservation).getD 0 : Int)
    else 0

/-- Conservation of one experiment's ledger. -/
structure Budget.Conserved (budget : Budget) (db : Db) (experimentId : Id) : Prop where
  reserved : budget.reserved = db.openTotal experimentId (·.reserved)
  tokensReserved : budget.tokensReserved = db.openTotal experimentId (·.tokensReserved)
  activeWorkers : budget.activeWorkers = db.openTotal experimentId (·.workers)
  spent : budget.spent = db.settledTotal experimentId (·.actual)
  tokensSpent : budget.tokensSpent = db.settledTotal experimentId (·.tokensActual)
  nonneg : 0 ≤ budget.reserved ∧ 0 ≤ budget.tokensReserved ∧ 0 ≤ budget.activeWorkers ∧
    0 ≤ budget.spent ∧ 0 ≤ budget.tokensSpent
  staffed : budget.activeWorkers ≤ budget.maxConcurrency
  enveloped : ∀ row, db.experiments.find experimentId = some row →
    row.payload.budgetReconciliationRequired = false →
      budget.spent + budget.reserved ≤ budget.maxCost ∧
        ∀ limit ∈ budget.maxTokens, budget.tokensSpent + budget.tokensReserved ≤ (limit : Int)

/-- Every experiment's ledger is conserved. -/
def LedgerConserved (db : Db) : Prop :=
  ∀ id budget, db.budgets.find id = some budget → budget.Conserved db id

omit [ContentHash] in
theorem LedgerInv.conserved {db : Db} (inv : LedgerInv db) : LedgerConserved db := by
  intro id budget account
  have counted := inv.balanced.tracks id budget account
  have nonneg : ∀ counter : Counter, 0 ≤ counter.read budget := by
    intro counter
    rw [counted counter]
    exact Account.owned_nonneg counter.weight_nonneg
  have heldTotal : ∀ (counter : Counter) (amount : Reservation → Nat),
      (∀ reservation, counter.held reservation = amount reservation) →
      (∀ reservation, counter.charged reservation = 0) →
      counter.read budget = db.openTotal id amount := by
    intro counter amount held charged
    rw [counted counter]
    apply Table.total_congr
    intro key reservation _
    by_cases owned : reservation.experimentId = id <;>
      by_cases settled : reservation.state = .settled <;>
        simp [Counter.weight, owned, settled, held, charged]
  have chargedTotal : ∀ (counter : Counter) (charge : Reservation → Option Nat),
      (∀ reservation, counter.held reservation = 0) →
      (∀ reservation, counter.charged reservation = ((charge reservation).getD 0 : Nat)) →
      counter.read budget = db.settledTotal id charge := by
    intro counter charge held charged
    rw [counted counter]
    apply Table.total_congr
    intro key reservation _
    by_cases owned : reservation.experimentId = id <;>
      by_cases settled : reservation.state = .settled <;>
        simp [Counter.weight, owned, settled, held, charged]
  have staffed := inv.balanced.staffed id budget account
  refine
    { reserved := heldTotal .reserved _ (fun _ => rfl) (fun _ => rfl)
      tokensReserved := heldTotal .tokensReserved _ (fun _ => rfl) (fun _ => rfl)
      activeWorkers := heldTotal .activeWorkers _ (fun _ => rfl) (fun _ => rfl)
      spent := chargedTotal .spent _ (fun _ => rfl) (fun _ => rfl)
      tokensSpent := chargedTotal .tokensSpent _ (fun _ => rfl) (fun _ => rfl)
      nonneg := ⟨nonneg .reserved, nonneg .tokensReserved, nonneg .activeWorkers, nonneg .spent,
        nonneg .tokensSpent⟩
      staffed := by simpa [Budget.fitsWorkers] using staffed
      enveloped := ?_ }
  intro row stored clear
  simpa [Budget.fitsCost, Budget.fitsTokens] using inv.enveloped id row budget stored clear account

/-- The ledger is conserved in every state that a safe run reaches. -/
theorem ledger_conserved {labels : List Label}
    (safe : Transition.Along Sys.step LedgerSafe {} labels) :
    LedgerConserved (Sys.run labels).db :=
  (ledgerInv_run safe).conserved

end Runs

namespace Scenario

def provisioning : List Label :=
  leasedTask ++ [.broker (envAt 0 "reservation" "workspace") (.provision workbench (some 5) "vm")]

theorem provisioning_refused_conserved :
    LedgerConserved
      (@Sys.run textHash (provisioning ++ [.broker (envAt 0) (.provisionCapacity 0)])).db :=
  @ledger_conserved textHash _ (by decide)

/-- An operator settles the reservation while the provider call is in flight, and the capacity
refusal of that call releases it again. -/
theorem provisioning_released_twice :
    ¬ LedgerConserved
      (@Sys.run textHash (provisioning ++
        [.command (envAt 0) controller "settle"
            (.settleResources "reservation" (some (some 0)) false 0),
          .broker (envAt 0) (.provisionCapacity 0)])).db := by
  intro conserved
  have account := conserved "experiment"
    { maxCost := 10, maxConcurrency := 1, maxTokens := none, reserved := -5, activeWorkers := -1 }
    (by decide)
  exact absurd account.nonneg.2.2.1 (by decide)

end Scenario

end PhysHarness
