import PhysHarness.System
import PhysHarness.Lib.Account
import Mathlib.Algebra.Order.Group.Int

/-!
Ledger conservation.

Each experiment's budget row holds counters that service commands, continuation commands and broker
transactions change in place. They are exactly the totals over the experiment's reservations, as
long as no transaction releases a reservation a second time or charges past the envelope unnoticed.
-/
namespace PhysHarness

open Broker

/-- The counters of a budget that follow its reservations. -/
inductive Counter where
  | reserved | tokensReserved | activeWorkers | spent | tokensSpent
  deriving DecidableEq

namespace Counter

def read : Counter → Budget → Int
  | reserved, budget => budget.reserved
  | tokensReserved, budget => budget.tokensReserved
  | activeWorkers, budget => budget.activeWorkers
  | spent, budget => budget.spent
  | tokensSpent, budget => budget.tokensSpent

/-- What a reservation adds to a counter while it is open. -/
def held : Counter → Reservation → Int
  | reserved, reservation => reservation.reserved
  | tokensReserved, reservation => reservation.tokensReserved
  | activeWorkers, reservation => reservation.workers
  | spent, _ | tokensSpent, _ => 0

/-- What a reservation adds to a counter once it is settled. -/
def charged : Counter → Reservation → Int
  | spent, reservation => (reservation.actual.getD 0 : Nat)
  | tokensSpent, reservation => (reservation.tokensActual.getD 0 : Nat)
  | reserved, _ | tokensReserved, _ | activeWorkers, _ => 0

def weight (counter : Counter) (reservation : Reservation) : Int :=
  if reservation.state = .settled then counter.charged reservation else counter.held reservation

theorem weight_nonneg (counter : Counter) (reservation : Reservation) :
    0 ≤ counter.weight reservation := by
  unfold weight
  split <;> cases counter <;> simp [charged, held]

@[simp] theorem weight_settled {counter : Counter} {reservation : Reservation}
    (settled : reservation.state = .settled) :
    counter.weight reservation = counter.charged reservation := if_pos settled

@[simp] theorem weight_open {counter : Counter} {reservation : Reservation}
    (unsettled : reservation.state ≠ .settled) :
    counter.weight reservation = counter.held reservation := if_neg unsettled

end Counter

/-- Budgets and reservations that agree. A reservation has no token charge before it is settled. -/
structure Balanced (budgets : Table Id Budget) (reservations : Table Id Reservation) : Prop where
  tracks : Account.Tracks budgets reservations Reservation.experimentId Counter.read Counter.weight
  budgeted : ∀ id reservation, reservations.find id = some reservation →
    (budgets.find reservation.experimentId).isSome
  unspent : ∀ id reservation, reservations.find id = some reservation →
    reservation.state ≠ .settled → reservation.tokensActual = none
  staffed : ∀ id budget, budgets.find id = some budget → budget.fitsWorkers 0

/-- Every experiment that is not flagged for reconciliation stays inside its envelope. -/
def Enveloped (experiments : Table Id (Row Experiment)) (budgets : Table Id Budget) : Prop :=
  ∀ id row budget, experiments.find id = some row →
    row.payload.budgetReconciliationRequired = false → budgets.find id = some budget →
    budget.fitsCost 0 ∧ budget.fitsTokens 0

/-- The reservation of every workspace exists, and reserves no tokens. -/
def Backed (workspaces : Table Id (Row Workspace)) (reservations : Table Id Reservation) : Prop :=
  ∀ id row, workspaces.find id = some row →
    ∃ reservation, reservations.find row.payload.reservationId = some reservation ∧
      reservation.tokensReserved = 0

/-- The invariant behind ledger conservation. -/
structure LedgerInv (db : Db) : Prop where
  balanced : Balanced db.budgets db.reservations
  enveloped : Enveloped db.experiments db.budgets
  backed : Backed db.workspaces db.reservations

/-- Two budgets of one envelope. -/
def Budget.sameLimits (after before : Budget) : Prop :=
  after.maxCost = before.maxCost ∧ after.maxConcurrency = before.maxConcurrency ∧
    after.maxTokens = before.maxTokens

/-- A rewrite of a reservation with the change that its budget gets. -/
structure Posting (before after : Budget) (old new : Reservation) : Prop where
  owner : new.experimentId = old.experimentId
  tokens : new.tokensReserved = old.tokensReserved
  unspent : new.state ≠ .settled → new.tokensActual = none
  limits : after.sameLimits before
  posted : ∀ counter : Counter,
    counter.read after + counter.weight old = counter.read before + counter.weight new
  fewer : after.activeWorkers ≤ before.activeWorkers

section Writes

variable {budgets : Table Id Budget} {reservations : Table Id Reservation}
  {experiments : Table Id (Row Experiment)} {workspaces : Table Id (Row Workspace)}

theorem Balanced.post {id : Id} {old new : Reservation} {before after : Budget}
    (balanced : Balanced budgets reservations) (stored : reservations.find id = some old)
    (account : budgets.find old.experimentId = some before) (posting : Posting before after old new) :
    Balanced (budgets.put old.experimentId after) (reservations.put id new) where
  tracks := balanced.tracks.post stored posting.owner account posting.posted
  budgeted := by
    intro other reservation found
    rw [Table.find_put] at found ⊢
    split
    · rfl
    · split at found
      next distinct _ =>
        obtain rfl := Option.some.inj found
        exact absurd posting.owner distinct
      · exact balanced.budgeted other reservation found
  unspent := by
    intro other reservation found unsettled
    rw [Table.find_put] at found
    split at found
    · obtain rfl := Option.some.inj found
      exact posting.unspent unsettled
    · exact balanced.unspent other reservation found unsettled
  staffed := by
    intro other budget found
    rw [Table.find_put] at found
    split at found
    · obtain rfl := Option.some.inj found
      have room := balanced.staffed _ before account
      have fewer := posting.fewer
      have limit := posting.limits.2.1
      simp only [Budget.fitsWorkers] at room ⊢
      omega
    · exact balanced.staffed other budget found

/-- A rewritten reservation that weighs the same needs no posting. -/
theorem Balanced.rewrite {id : Id} {old new : Reservation}
    (balanced : Balanced budgets reservations) (stored : reservations.find id = some old)
    (owner : new.experimentId = old.experimentId)
    (unspent : new.state ≠ .settled → new.tokensActual = none)
    (weightless : ∀ counter : Counter, counter.weight new = counter.weight old) :
    Balanced budgets (reservations.put id new) where
  tracks := balanced.tracks.rewrite stored owner weightless
  budgeted := by
    intro other reservation found
    rw [Table.find_put] at found
    split at found
    · obtain rfl := Option.some.inj found
      rw [owner]
      exact balanced.budgeted id old stored
    · exact balanced.budgeted other reservation found
  unspent := by
    intro other reservation found unsettled
    rw [Table.find_put] at found
    split at found
    · obtain rfl := Option.some.inj found
      exact unspent unsettled
    · exact balanced.unspent other reservation found unsettled
  staffed := balanced.staffed

/-- A new open reservation that its budget admits. -/
theorem Balanced.enter {id : Id} {new : Reservation} {before after : Budget}
    (balanced : Balanced budgets reservations) (fresh : reservations.find id = none)
    (account : budgets.find new.experimentId = some before)
    (unspent : new.tokensActual = none)
    (posted : ∀ counter : Counter, counter.read after = counter.weight new + counter.read before)
    (room : after.fitsWorkers 0) :
    Balanced (budgets.put new.experimentId after) (reservations.put id new) where
  tracks := balanced.tracks.enter fresh account posted
  budgeted := by
    intro other reservation found
    rw [Table.find_put] at found ⊢
    split
    · rfl
    · split at found
      next distinct _ =>
        obtain rfl := Option.some.inj found
        exact absurd rfl distinct
      · exact balanced.budgeted other reservation found
  unspent := by
    intro other reservation found unsettled
    rw [Table.find_put] at found
    split at found
    · obtain rfl := Option.some.inj found
      exact unspent
    · exact balanced.unspent other reservation found unsettled
  staffed := by
    intro other budget found
    rw [Table.find_put] at found
    split at found
    · obtain rfl := Option.some.inj found
      exact room
    · exact balanced.staffed other budget found

/-- A new account starts empty, because every reservation already has a budget. -/
theorem Balanced.create {id : Id} {budget : Budget} (balanced : Balanced budgets reservations)
    (fresh : budgets.find id = none) (zero : ∀ counter : Counter, counter.read budget = 0) :
    Balanced (budgets.put id budget) reservations where
  tracks := by
    apply balanced.tracks.create _ zero
    intro key reservation stored owned
    have budgeted := balanced.budgeted key reservation stored
    rw [owned, fresh] at budgeted
    exact absurd budgeted (by simp)
  budgeted := by
    intro other reservation found
    rw [Table.find_put]
    split
    · rfl
    · exact balanced.budgeted other reservation found
  unspent := balanced.unspent
  staffed := by
    intro other account found
    rw [Table.find_put] at found
    split at found
    · obtain rfl := Option.some.inj found
      have idle := zero .activeWorkers
      simp only [Counter.read] at idle
      simp only [Budget.fitsWorkers, idle]
      omega
    · exact balanced.staffed other account found

theorem Enveloped.put {id : Id} {budget : Budget} (enveloped : Enveloped experiments budgets)
    (fits : ∀ row, experiments.find id = some row →
      row.payload.budgetReconciliationRequired = false →
      budget.fitsCost 0 ∧ budget.fitsTokens 0) :
    Enveloped experiments (budgets.put id budget) := by
  intro other row account stored clear found
  rw [Table.find_put] at found
  split at found
  next same =>
    obtain rfl := Option.some.inj found
    exact fits row (same ▸ stored) clear
  · exact enveloped other row account stored clear found

/-- A budget that uses no more of the same envelope still fits. -/
theorem Enveloped.ease {id : Id} {before after : Budget}
    (enveloped : Enveloped experiments budgets) (account : budgets.find id = some before)
    (limits : after.sameLimits before)
    (cost : after.spent + after.reserved ≤ before.spent + before.reserved)
    (tokens : after.tokensSpent + after.tokensReserved ≤
      before.tokensSpent + before.tokensReserved) :
    Enveloped experiments (budgets.put id after) := by
  apply enveloped.put
  intro row stored clear
  obtain ⟨fitsCost, fitsTokens⟩ := enveloped id row before stored clear account
  obtain ⟨maxCost, -, maxTokens⟩ := limits
  simp only [Budget.fitsCost, Budget.fitsTokens, maxCost, maxTokens] at fitsCost fitsTokens ⊢
  constructor
  · omega
  · intro limit bounded
    have fits := fitsTokens limit bounded
    omega

theorem Enveloped.flags {rewritten : Table Id (Row Experiment)}
    (enveloped : Enveloped experiments budgets)
    (flags : ∀ id row, rewritten.find id = some row →
      row.payload.budgetReconciliationRequired = false →
      ∃ old, experiments.find id = some old ∧
        old.payload.budgetReconciliationRequired = false) :
    Enveloped rewritten budgets := by
  intro id row budget stored clear account
  obtain ⟨old, found, unflagged⟩ := flags id row stored clear
  exact enveloped id old budget found unflagged account

theorem Backed.rewrite {id : Id} {old new : Reservation} (backed : Backed workspaces reservations)
    (stored : reservations.find id = some old) (tokens : new.tokensReserved = old.tokensReserved) :
    Backed workspaces (reservations.put id new) := by
  intro key row found
  obtain ⟨reservation, reserved, tokenless⟩ := backed key row found
  rw [Table.find_put]
  split
  next same =>
    rw [same, stored] at reserved
    obtain rfl := Option.some.inj reserved
    exact ⟨new, rfl, tokens.trans tokenless⟩
  · exact ⟨reservation, reserved, tokenless⟩

theorem Backed.enter {id : Id} {new : Reservation} (backed : Backed workspaces reservations)
    (fresh : reservations.find id = none) : Backed workspaces (reservations.put id new) := by
  intro key row found
  obtain ⟨reservation, reserved, tokenless⟩ := backed key row found
  refine ⟨reservation, ?_, tokenless⟩
  rw [Table.find_put_ne _ _ ?_, reserved]
  rintro rfl
  rw [fresh] at reserved
  exact nomatch reserved

theorem Backed.row {id : Id} {row : Row Workspace} (backed : Backed workspaces reservations)
    (reserved : ∃ reservation, reservations.find row.payload.reservationId = some reservation ∧
      reservation.tokensReserved = 0) :
    Backed (workspaces.put id row) reservations := by
  intro key other found
  rw [Table.find_put] at found
  split at found
  · obtain rfl := Option.some.inj found
    exact reserved
  · exact backed key other found

/-- A rewritten workspace keeps its reservation. -/
theorem Backed.replace {id : Id} {row : Row Workspace} {data : Workspace}
    (backed : Backed workspaces reservations) (stored : workspaces.find id = some row)
    (same : data.reservationId = row.payload.reservationId) :
    Backed (workspaces.put id (row.replace data)) reservations := by
  apply backed.row
  rw [Row.replace_payload, same]
  exact backed id row stored

end Writes

section Postings

variable {budget : Budget} {reservation : Reservation}

/-- A settlement releases what was reserved and charges what was used. -/
theorem settleCharge_posting (unsettled : reservation.state ≠ .settled) (actual tokens : Nat) :
    Posting budget
      { budget with
        reserved := budget.reserved - reservation.reserved
        tokensReserved := budget.tokensReserved - reservation.tokensReserved
        tokensSpent := budget.tokensSpent + tokens
        spent := budget.spent + actual
        activeWorkers := budget.activeWorkers - reservation.workers }
      reservation
      { reservation with tokensActual := some tokens, actual := some actual, state := .settled } where
  owner := rfl
  tokens := rfl
  unspent settled := absurd rfl settled
  limits := ⟨rfl, rfl, rfl⟩
  posted counter := by
    rw [Counter.weight_open unsettled, Counter.weight_settled rfl]
    cases counter <;> simp [Counter.read, Counter.held, Counter.charged]
  fewer := Int.sub_le_self _ (Int.natCast_nonneg _)

theorem settleSlot_posting {experimentId : Id} (unsettled : reservation.state ≠ .settled)
    (slot : reservation.isSlotOf experimentId) :
    Posting budget (settleSlot budget reservation).1 reservation
      (settleSlot budget reservation).2 where
  owner := rfl
  tokens := rfl
  unspent settled := absurd rfl settled
  limits := ⟨rfl, rfl, rfl⟩
  posted counter := by
    obtain ⟨-, workers, cost, tokens⟩ := slot
    rw [Counter.weight_open unsettled, Counter.weight_settled rfl]
    cases counter <;>
      simp [settleSlot, Counter.read, Counter.held, Counter.charged, workers, cost, tokens]
  fewer := Int.sub_le_self _ (by decide)

/-- Closing a workspace without a charge releases its worker and its cost. Nothing is left to
release when the reservation was settled before. -/
theorem release_posting (tokens : reservation.tokensReserved = 0)
    (unspent : reservation.state ≠ .settled → reservation.tokensActual = none)
    (releasable : reservation.state = .settled →
      reservation.reserved = 0 ∧ reservation.workers = 0 ∧ reservation.actual.getD 0 = 0) :
    Posting budget
      { budget with
        activeWorkers := budget.activeWorkers - reservation.workers
        reserved := budget.reserved - reservation.reserved }
      reservation { reservation with workers := 0, actual := some 0, state := .settled } where
  owner := rfl
  tokens := rfl
  unspent settled := absurd rfl settled
  limits := ⟨rfl, rfl, rfl⟩
  posted counter := by
    by_cases settled : reservation.state = .settled
    · obtain ⟨cost, workers, charge⟩ := releasable settled
      rw [Counter.weight_settled settled, Counter.weight_settled rfl]
      cases counter <;> simp [Counter.read, Counter.charged, cost, workers, charge]
    · rw [Counter.weight_open settled, Counter.weight_settled rfl]
      cases counter <;> simp [Counter.read, Counter.held, Counter.charged, tokens, unspent settled]
  fewer := Int.sub_le_self _ (Int.natCast_nonneg _)

/-- A confirmed destruction without a charge frees the worker and keeps the cost reserved. -/
theorem keepCost_posting (unsettled : reservation.state ≠ .settled)
    (unspent : reservation.tokensActual = none) :
    Posting budget { budget with activeWorkers := budget.activeWorkers - reservation.workers }
      reservation { reservation with workers := 0, state := .uncertain } where
  owner := rfl
  tokens := rfl
  unspent _ := unspent
  limits := ⟨rfl, rfl, rfl⟩
  posted counter := by
    rw [Counter.weight_open unsettled, Counter.weight_open (by simp)]
    cases counter <;> simp [Counter.read, Counter.held]
  fewer := Int.sub_le_self _ (Int.natCast_nonneg _)

theorem destroyLedger_posting (unsettled : reservation.state ≠ .settled)
    (tokens : reservation.tokensReserved = 0) (unspent : reservation.tokensActual = none)
    (actual : Option Nat) :
    Posting budget (destroyLedger reservation budget actual).1 reservation
      (destroyLedger reservation budget actual).2 := by
  cases actual with
  | none => exact keepCost_posting unsettled unspent
  | some cost =>
    exact {
      owner := rfl
      tokens := rfl
      unspent := fun settled => absurd rfl settled
      limits := ⟨rfl, rfl, rfl⟩
      posted := fun counter => by
        rw [Counter.weight_open unsettled, Counter.weight_settled rfl]
        cases counter <;>
          simp [destroyLedger, Counter.read, Counter.held, Counter.charged, tokens]
      fewer := Int.sub_le_self _ (Int.natCast_nonneg _) }

theorem failureLedger_posting (tokens : reservation.tokensReserved = 0)
    (unspent : reservation.state ≠ .settled → reservation.tokensActual = none)
    (provider : Provider) :
    Posting budget (failureLedger provider reservation budget).1 reservation
      (failureLedger provider reservation budget).2 := by
  by_cases settled : reservation.state = .settled
  · simp only [failureLedger, if_pos settled]
    exact ⟨rfl, rfl, unspent, ⟨rfl, rfl, rfl⟩, fun _ => rfl, le_rfl⟩
  · simp only [failureLedger, if_neg settled]
    cases provider with
    | localDocker => exact release_posting tokens unspent (absurd · settled)
    | e2b => exact keepCost_posting settled (unspent settled)

end Postings

end PhysHarness
