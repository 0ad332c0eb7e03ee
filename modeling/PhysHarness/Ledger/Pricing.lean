import PhysHarness.Ledger.Conservation
import Mathlib.Algebra.Order.Field.Rat
import Mathlib.Data.Rat.Floor
import Mathlib.Tactic.Linarith

/-!
Reservations bound settlements.

A generation is reserved at the most its tokens can settle at, and settled at what they cost. A
settlement flags the budget when it costs more than was reserved or finds the envelope exceeded; in a
run whose destructions stay inside the envelope neither happens to a generation within its reservation.
-/
namespace PhysHarness

open Outcome Broker

/-- Rates in USD for a million tokens. -/
structure ModelPrice where
  inputUsdPerMillion : ℚ
  outputUsdPerMillion : ℚ
  cachedInputUsdPerMillion : Option ℚ := none
  cacheWriteUsdPerMillion : Option ℚ := none
  nonneg : 0 ≤ inputUsdPerMillion ∧ 0 ≤ outputUsdPerMillion ∧
    (∀ rate ∈ cachedInputUsdPerMillion, 0 ≤ rate) ∧ ∀ rate ∈ cacheWriteUsdPerMillion, 0 ≤ rate
  cachedRates : ∀ cached ∈ cachedInputUsdPerMillion, cached ≤ inputUsdPerMillion ∧
    cacheWriteUsdPerMillion.isSome = true

/-- `quantize` to six decimals, up; in micro-USD. -/
def microUsd (value : ℚ) : Int := ⌈value * 1000000⌉

namespace ModelPrice

variable (price : ModelPrice)

/-- The rates of cache hits and cache writes. -/
def rates : ℚ × ℚ :=
  (price.cachedInputUsdPerMillion.getD price.inputUsdPerMillion,
    price.cacheWriteUsdPerMillion.getD price.inputUsdPerMillion)

/-- What the tokens cost, in USD. -/
def charge (inputTokens outputTokens cachedInputTokens cacheWriteTokens : Int) : ℚ :=
  let (cachedRate, writeRate) := price.rates
  let plain := inputTokens - cachedInputTokens - cacheWriteTokens
  (price.inputUsdPerMillion * plain + cachedRate * cachedInputTokens + writeRate * cacheWriteTokens +
    price.outputUsdPerMillion * outputTokens) / 1000000

/-- Every input token at the higher of the input and the cache-write rates, in USD. -/
def bound (inputTokens outputTokens : Int) : ℚ :=
  let rate := max price.inputUsdPerMillion price.rates.2
  (rate * inputTokens + price.outputUsdPerMillion * outputTokens) / 1000000

def negative : Failure := .internal "ValueError: Token counts cannot be negative"

def cost (inputTokens outputTokens cachedInputTokens cacheWriteTokens : Int) :
    Except Failure Int := do
  require (0 ≤ inputTokens ∧ 0 ≤ outputTokens ∧ 0 ≤ cachedInputTokens ∧ 0 ≤ cacheWriteTokens) negative
  require (cachedInputTokens + cacheWriteTokens ≤ inputTokens)
    (.internal "ValueError: Cached and cache-write input tokens cannot exceed input tokens")
  return microUsd (price.charge inputTokens outputTokens cachedInputTokens cacheWriteTokens)

/-- The most the tokens can settle at. -/
def reservationCost (inputTokens outputTokens : Int) : Except Failure Int := do
  require (0 ≤ inputTokens ∧ 0 ≤ outputTokens) negative
  return microUsd (price.bound inputTokens outputTokens)

/-! ### One price -/

variable {price}

theorem cached_le : price.rates.1 ≤ price.inputUsdPerMillion := by
  unfold rates
  cases cached : price.cachedInputUsdPerMillion with
  | none => exact le_rfl
  | some rate => exact (price.cachedRates rate cached).1

theorem microUsd_mono {first second : ℚ} (le : first ≤ second) : microUsd first ≤ microUsd second :=
  Int.ceil_mono (mul_le_mul_of_nonneg_right le (by norm_num))

/-- The token counts of a generation that passed the check of its reservation. -/
structure Within (input output cached written heldInput heldOutput : Int) : Prop where
  nonneg : 0 ≤ input ∧ 0 ≤ output ∧ 0 ≤ cached ∧ 0 ≤ written
  cachedInput : cached + written ≤ input
  input_le : input ≤ heldInput
  output_le : output ≤ heldOutput

variable {input output cached written heldInput heldOutput : Int}

theorem charge_eq : price.charge input output cached written =
    (price.inputUsdPerMillion * (input - cached - written) + price.rates.1 * cached +
      price.rates.2 * written + price.outputUsdPerMillion * output) / 1000000 := by
  simp only [charge, Int.cast_sub]

theorem charge_nonneg (within : Within input output cached written heldInput heldOutput) :
    0 ≤ price.charge input output cached written := by
  obtain ⟨⟨input0, output0, cached0, written0⟩, cachedInput, -, -⟩ := within
  obtain ⟨full, out, hit, write⟩ := price.nonneg
  have hitRate : 0 ≤ price.rates.1 := by
    unfold rates
    cases given : price.cachedInputUsdPerMillion with
    | none => exact full
    | some rate => exact hit rate given
  have writeRate : 0 ≤ price.rates.2 := by
    unfold rates
    cases given : price.cacheWriteUsdPerMillion with
    | none => exact full
    | some rate => exact write rate given
  have plain : (0 : ℚ) ≤ input - cached - written := by
    have room : 0 ≤ input - cached - written := by omega
    exact_mod_cast room
  have tokens : (0 : ℚ) ≤ output ∧ (0 : ℚ) ≤ cached ∧ (0 : ℚ) ≤ written :=
    ⟨Int.cast_nonneg output0, Int.cast_nonneg cached0, Int.cast_nonneg written0⟩
  obtain ⟨output0, cached0, written0⟩ := tokens
  rw [charge_eq]
  positivity

/-- Each input token costs at most the higher rate. -/
theorem charge_le (within : Within input output cached written heldInput heldOutput) :
    price.charge input output cached written ≤ price.bound heldInput heldOutput := by
  obtain ⟨⟨input0, output0, cached0, written0⟩, cachedInput, inputLe, outputLe⟩ := within
  obtain ⟨full, out, -, -⟩ := price.nonneg
  generalize rate : max price.inputUsdPerMillion price.rates.2 = highest
  have inputRate : price.inputUsdPerMillion ≤ highest := rate ▸ le_max_left ..
  have writeRate : price.rates.2 ≤ highest := rate ▸ le_max_right ..
  have cachedRate : price.rates.1 ≤ highest := cached_le.trans inputRate
  have plain : (0 : ℚ) ≤ input - cached - written := by
    have room : 0 ≤ input - cached - written := by omega
    exact_mod_cast room
  have sums : price.inputUsdPerMillion * (input - cached - written) + price.rates.1 * cached +
      price.rates.2 * written + price.outputUsdPerMillion * output ≤
        highest * heldInput + price.outputUsdPerMillion * heldOutput := by
    calc
      _ ≤ highest * (input - cached - written) + highest * cached + highest * written +
            price.outputUsdPerMillion * heldOutput := by gcongr
      _ = highest * input + price.outputUsdPerMillion * heldOutput := by ring
      _ ≤ _ := by
        have highest0 : 0 ≤ highest := full.trans inputRate
        gcongr
  rw [charge_eq, bound, rate]
  gcongr

theorem cost_ok {spent : Int} : price.cost input output cached written = .ok spent ↔
    (0 ≤ input ∧ 0 ≤ output ∧ 0 ≤ cached ∧ 0 ≤ written) ∧ cached + written ≤ input ∧
      microUsd (price.charge input output cached written) = spent := by
  simp only [cost, bind_ok, require_ok, exists_const, pure_ok]

theorem reservationCost_ok {reserved : Int} : price.reservationCost heldInput heldOutput = .ok reserved ↔
    (0 ≤ heldInput ∧ 0 ≤ heldOutput) ∧ microUsd (price.bound heldInput heldOutput) = reserved := by
  simp only [reservationCost, bind_ok, require_ok, exists_const, pure_ok]

/-- What is spent is at most what was reserved. -/
theorem cost_le (within : Within input output cached written heldInput heldOutput) :
    ∃ spent reserved, price.cost input output cached written = .ok spent ∧
      price.reservationCost heldInput heldOutput = .ok reserved ∧ 0 ≤ spent ∧ spent ≤ reserved := by
  have reservable : 0 ≤ heldInput ∧ 0 ≤ heldOutput :=
    ⟨within.nonneg.1.trans within.input_le, within.nonneg.2.1.trans within.output_le⟩
  refine ⟨_, _, cost_ok.mpr ⟨within.nonneg, within.cachedInput, rfl⟩,
    reservationCost_ok.mpr ⟨reservable, rfl⟩, ?_, microUsd_mono (charge_le within)⟩
  exact Int.ceil_nonneg (mul_nonneg (charge_nonneg within) (by norm_num))

end ModelPrice

/-! ### The envelope along a run -/

/-- A destruction charges an experiment that is not flagged inside its envelope. -/
def ChargesWithin (sys : Sys) : Label → Prop
  | .broker env (.performDestroy index) =>
    ∀ call ∈ sys.calls[index]?, call.stage = .dispatched →
      (call.broker.guardTask sys.db env true).isOk = true →
        chargeable sys.db call.workspaceId call.kind.charge
  | _ => True

instance (sys : Sys) : (label : Label) → Decidable (ChargesWithin sys label)
  | .broker env (.performDestroy index) => inferInstanceAs (Decidable (∀ call ∈ sys.calls[index]?,
      call.stage = .dispatched → (call.broker.guardTask sys.db env true).isOk = true →
        chargeable sys.db call.workspaceId call.kind.charge))
  | .broker _ (.provision ..) | .broker _ (.provisionReady ..) | .broker _ (.provisionCapacity _)
  | .broker _ (.perform ..) | .broker _ (.performComplete ..) | .broker _ (.performRefused ..)
  | .broker _ (.performDestroyed _) | .broker _ (.uncertain ..) | .broker _ (.retain ..)
  | .command .. | .outside _ => .isTrue trivial

section Envelope

variable {db after : Db} {env : Env} {actor : Principal} {reply : Reply}

/-- A reservation that its envelope admits. -/
theorem Enveloped.reserve {experimentId : Id} {budget : Budget} {amount tokens : Nat}
    (enveloped : Enveloped db.experiments db.budgets) (workers : Nat) (cost : budget.fitsCost amount)
    (priced : ∀ row, db.experiments.find experimentId = some row →
      row.payload.budgetReconciliationRequired = false → budget.fitsTokens tokens) :
    Enveloped db.experiments (db.budgets.put experimentId
      { budget with
        reserved := budget.reserved + amount
        tokensReserved := budget.tokensReserved + tokens
        activeWorkers := budget.activeWorkers + workers }) := by
  apply enveloped.put
  intro row stored clear
  constructor
  · simpa [Budget.fitsCost, add_assoc] using cost
  · simpa [Budget.fitsTokens, add_assoc] using priced row stored clear

theorem Enveloped.releaseSlot {experimentId : Id} {budget : Budget} {slot : Reservation}
    (enveloped : Enveloped db.experiments db.budgets)
    (account : db.budgets.find experimentId = some budget) :
    Enveloped db.experiments (db.budgets.put experimentId (settleSlot budget slot).1) :=
  enveloped.ease account ⟨rfl, rfl, rfl⟩ le_rfl le_rfl

variable [ContentHash]

/-- Every command keeps the experiments that are not flagged inside their envelopes. -/
theorem Enveloped.performs {request : Request} (enveloped : Enveloped db.experiments db.budgets)
    (performs : request.Performs env actor db after reply) :
    Enveloped after.experiments after.budgets := by
  cases request with
  | createExperiment =>
    obtain ⟨_, -, -, rfl⟩ := createExperiment_cases performs
    intro id row budget stored clear account
    rw [Table.find_put] at account stored
    split at account
    · obtain rfl := Option.some.inj account
      simp [Budget.fitsCost, Budget.fitsTokens]
    next distinct =>
      rw [if_neg distinct] at stored
      exact enveloped id row budget stored clear account
  | transitionExperiment =>
    obtain ⟨row, _, stored, rfl⟩ := transition_cases performs
    apply enveloped.flags
    intro id other found clear
    rw [Table.find_put] at found
    split at found
    next same =>
      obtain rfl := Option.some.inj found
      exact ⟨row, same ▸ stored, clear⟩
    · exact ⟨other, found, clear⟩
  | reserveResources =>
    obtain ⟨_, performs⟩ := performs
    obtain ⟨_, _, -, priced, cost, -, -, rfl⟩ := reserve_cases performs
    exact enveloped.reserve _ cost fun _ _ _ => priced
  | settleResources =>
    obtain ⟨_, performs⟩ := performs
    rcases settle_cases performs with rfl | ⟨_, -, -, rfl | ⟨_, _, _, read, -, rfl⟩⟩
    · exact enveloped
    · exact enveloped
    · exact enveloped.settle read
  | reconcileOrphanWorkerSlot =>
    rcases reconcileOrphan_cases performs with rfl | ⟨_, _, _, _, -, -, -, account, rfl⟩
    · exact enveloped
    · exact enveloped.releaseSlot account
  | issueContinuation =>
    obtain ⟨_, _, _, _, _, _, _, _, _, -, -, -, -, -, -, released, -, rfl⟩ := issue_cases performs
    rcases releaseSourceSlot_cases released with rfl | ⟨_, _, _, -, -, -, account, rfl⟩
    · exact enveloped
    · exact enveloped.releaseSlot account
  | retireFailedLocalWorkspace =>
    obtain ⟨_, _, _, _, _, _, _, -, -, -, -, -, account, rfl⟩ := retire_cases performs
    exact enveloped.releaseSlot account
  | createTask =>
    obtain ⟨_, -, -, -, -, -, rfl⟩ := createTask_cases performs.2
    exact enveloped
  | acquireTask =>
    obtain ⟨_, -, -, -, -, -, rfl⟩ := acquireTask_cases performs
    exact enveloped
  | renewTask =>
    obtain ⟨_, -, rfl⟩ := renewTask_cases performs
    exact enveloped
  | renewTaskForCleanup =>
    obtain ⟨_, -, rfl⟩ := renewTaskForCleanup_cases performs
    exact enveloped
  | finishTask =>
    obtain ⟨_, _, _, _, _, -, -, -, -, rfl⟩ := finishTask_cases performs.2
    exact enveloped
  | retireQueuedAfterVerified =>
    rcases retireQueued_cases performs with rfl | ⟨_, _, -, -, -, -, -, rfl⟩ <;> exact enveloped
  | amendQueuedTaskObjective =>
    obtain ⟨_, -, -, rfl⟩ := amendQueued_cases performs
    exact enveloped
  | bindSlot =>
    obtain ⟨_, -, rfl⟩ := bindSlot_cases performs
    exact enveloped
  | requestHandoff =>
    obtain ⟨_, -, performs⟩ := performs
    obtain ⟨_, -, _, rfl⟩ := requestHandoff_cases performs
    exact enveloped
  | consumeContinuation =>
    obtain ⟨_, _, _, -, -, -, -, -, -, -, rfl⟩ := consume_cases performs
    exact enveloped
  | restoreUnstartedContinuation =>
    obtain ⟨_, _, _, _, -, -, -, -, -, -, -, -, -, -, -, -, -, rfl⟩ := restore_cases performs
    exact enveloped
  | requeueSettledTerminal =>
    obtain ⟨_, _, _, -, -, rfl⟩ := requeue_cases performs
    exact enveloped
  | reconcileModelReservations =>
    obtain ⟨_, rfl⟩ := reconcileModel_cases performs
    exact enveloped
  | trackModelReservation =>
    obtain ⟨_, rfl⟩ := track_cases performs
    exact enveloped
  | runtimeSave =>
    obtain ⟨_, _, _, _, -, -, -, saved⟩ := publish_cases performs
    rcases saved with ⟨_, _, -, -, -, -, -, rfl⟩ | ⟨_, -, -, -, rfl⟩ <;> exact enveloped

omit [ContentHash] in
/-- So does every broker transaction, when a destruction charges inside the envelope. -/
theorem Enveloped.commits {sys : Sys} {step : BrokerStep}
    (enveloped : Enveloped sys.db.experiments sys.db.budgets)
    (within : ChargesWithin sys (.broker env step)) (commits : sys.Commits env step after) :
    Enveloped after.experiments after.budgets := by
  have quiet : ∀ {changed : Db}, Quiet sys.db changed →
      Enveloped changed.experiments changed.budgets := by
    rintro changed ⟨_, _, _, _, _, -, rfl, -⟩
    exact enveloped
  cases commits with
  | @reserve b _ _ _ _ _ _ ran =>
    obtain ⟨task, _, budget, _, -, account, cost, -, -, -, -, rfl⟩ := provisionReserve_cases ran
    have priced : ∀ row, sys.db.experiments.find task.payload.experimentId = some row →
        row.payload.budgetReconciliationRequired = false → budget.fitsTokens (0 : Nat) :=
      fun row stored clear => (enveloped _ row budget stored clear account).2
    simpa using enveloped.reserve b.slotWorkers cost priced
  | ready _ ran => exact quiet (provisionReady_quiet ran)
  | start ran => exact quiet (start_quiet ran)
  | complete _ ran => exact quiet (performComplete_quiet ran)
  | refused _ ran => exact quiet (performRefused_quiet ran)
  | capacity _ _ _ ran =>
    obtain ⟨_, _, _, _, _, _, -, -, -, account, rfl, -⟩ := provisionCapacity_cases ran
    exact enveloped.ease account ⟨rfl, rfl, rfl⟩ (by dsimp; omega) le_rfl
  | @destroy _ _ _ _ actual _ flying kind stage ran =>
    obtain ⟨_, row, reservation, budget, _, _, guarded, stored, reserved, unsettled, account, rfl, -⟩ :=
      performDestroy_cases ran
    have fits := within _ flying stage (by rw [guarded]; rfl)
    rw [kind] at fits
    apply enveloped.put
    intro experiment found clear
    have before := enveloped _ experiment budget found clear account
    cases actual with
    | none => exact before
    | some cost =>
      refine ⟨?_, before.2⟩
      have charge := fits cost rfl row stored reservation reserved unsettled budget account
        experiment found clear
      simp only [Budget.fitsCost, destroyLedger] at charge ⊢
      omega
  | @destroyed _ call _ _ _ ran =>
    obtain ⟨_, reservation, budget, _, _, -, -, account, rfl, -⟩ := performDestroyed_cases ran
    have limits : (failureLedger call.broker.providerSpec.provider reservation budget).1.sameLimits
        budget := by
      unfold failureLedger
      split
      · exact ⟨rfl, rfl, rfl⟩
      · cases call.broker.providerSpec.provider <;> exact ⟨rfl, rfl, rfl⟩
    have eased := failureLedger_eases call.broker.providerSpec.provider reservation budget
    exact enveloped.ease account limits eased.1 eased.2
  | uncertain _ ran =>
    rcases recordUncertainty_cases ran with rfl | ⟨_, _, _, _, -, -, rfl, -⟩ <;> exact enveloped
  | retain ran =>
    rcases retain_cases ran with rfl | ⟨_, _, _, _, -, -, rfl, -⟩ <;> exact enveloped

theorem enveloped_run {labels : List Label}
    (within : Transition.Along Sys.step ChargesWithin {} labels) :
    Enveloped (Sys.run labels).db.experiments (Sys.run labels).db.budgets := by
  refine Transition.run_invariant (fun sys : Sys => Enveloped sys.db.experiments sys.db.budgets)
    (fun _ _ _ found => by simp at found) (fun sys label enveloped safe => ?_) within
  refine sys.step_preserves (fun db => Enveloped db.experiments db.budgets) enveloped ?_ ?_ ?_
  · intro env actor key request changed commands reply _ _ performs
    have kept := enveloped.performs performs
    exact kept
  · rintro env step after rfl - commits
    exact enveloped.commits safe commits
  · intro write _
    exact enveloped

end Envelope

/-! ### Settlements -/

section Settlements

variable [ContentHash]

/-- In every settlement of a generation within its reservation, no experiment gets flagged. -/
def Sys.SettlesWithin (price : ModelPrice) (sys : Sys) : Prop :=
  ∀ env actor key reservationId reservation input output cached written heldInput heldOutput spent
      reserved,
    ModelPrice.Within input output cached written heldInput heldOutput →
    price.cost input output cached written = .ok spent →
    price.reservationCost heldInput heldOutput = .ok reserved →
    sys.db.reservations.find reservationId = some reservation →
    (reservation.reserved : Int) = reserved →
    (reservation.tokensReserved : Int) = heldInput + heldOutput →
    let settled := sys.step (.command env actor key
      (.settleResources reservationId (some (some spent)) false (input + output)))
    ∀ id row, settled.db.experiments.find id = some row →
      row.payload.budgetReconciliationRequired = true →
        ∃ before, sys.db.experiments.find id = some before ∧
          before.payload.budgetReconciliationRequired = true

variable {db after : Db} {env : Env} {actor : Principal} {reply : Reply}

omit [ContentHash] in
/-- A settlement within its reservation finds the envelope kept, or the experiment flagged. -/
theorem settleAction_quiet {reservationId : Id} {reservation : Reservation} {spent tokens : Nat}
    (enveloped : Enveloped db.experiments db.budgets)
    (stored : db.reservations.find reservationId = some reservation)
    (cost : spent ≤ reservation.reserved) (priced : tokens ≤ reservation.tokensReserved)
    (returned : settleAction actor reservationId (some spent) false tokens db = .ok (after, reply)) :
    after.experiments = db.experiments := by
  simp only [settleAction, bind_ok, orThrow_ok, stored, Option.some.injEq] at returned
  obtain ⟨_, rfl, experiment, read, returned⟩ := returned
  split at returned
  · simp only [bind_ok, require_ok, exists_const, pure_ok, Prod.mk.injEq] at returned
    rw [← returned.2.1]
  · simp only [Bool.false_eq_true, if_false, bind_ok, orThrow_ok, pure_ok, Option.some.injEq] at returned
    obtain ⟨budget, account, _, rfl, charged⟩ := returned
    have kept : after = (settleCharge spent tokens db reservationId reservation experiment budget).1 :=
      (congrArg Prod.fst charged).symm
    rw [kept]
    unfold settleCharge
    dsimp only
    rw [if_neg]
    rintro ⟨beyond, clear⟩
    obtain ⟨room, tokensRoom⟩ := enveloped _ experiment budget (Db.getRow_find read) clear account
    have fits : ¬ overruns budget reservation spent tokens := by
      simp only [overruns, Budget.fitsCost, Budget.fitsTokens, not_or, not_not, not_lt] at room tokensRoom ⊢
      refine ⟨cost, priced, by omega, fun limit bounded => ?_⟩
      have below := tokensRoom limit bounded
      omega
    exact fits (of_decide_eq_true beyond)

/-- A settlement command within its reservation flags nothing. -/
theorem step_settle_quiet {sys : Sys} {key : String} {reservationId : Id} {reservation : Reservation}
    {spent tokens : Int} (enveloped : Enveloped sys.db.experiments sys.db.budgets)
    (stored : sys.db.reservations.find reservationId = some reservation)
    (cost : spent ≤ reservation.reserved) (priced : tokens ≤ reservation.tokensReserved) :
    (sys.step (.command env actor key
      (.settleResources reservationId (some (some spent)) false tokens))).db.experiments =
      sys.db.experiments := by
  simp only [Sys.step, Sys.commandStep, submit]
  split
  swap
  · rfl
  cases returned : settleResources sys.db env reservationId (some (some spent)) false tokens actor key with
  | error failure => rfl
  | ok result =>
    obtain ⟨after, reply⟩ := result
    simp only [settleResources, parseActual, moneyUnits, bind_ok, require_ok, orThrow_ok, exists_const,
      pure_ok, Option.some.injEq] at returned
    obtain ⟨-, -, -, positive, actual, ⟨units, ⟨_, rfl, -, rfl⟩, rfl⟩, returned⟩ := returned
    rcases execute_cases returned with ⟨same, -⟩ | ⟨changed, -, -, ran, -, logged⟩
    · exact congrArg Db.experiments same
    · have quiet := settleAction_quiet enveloped stored (by omega) (by omega) ran
      rw [logged]
      exact quiet

/-- **Reservations bound settlements in dollars.** For every price and all token counts within a
reservation, the cost is at most what was reserved; and after every run whose destructions stay inside
their envelopes, settling such a generation flags no experiment. -/
theorem reservation_bounds_settlement (price : ModelPrice) {labels : List Label}
    (within : Transition.Along Sys.step ChargesWithin {} labels) :
    (∀ input output cached written heldInput heldOutput,
      ModelPrice.Within input output cached written heldInput heldOutput →
        ∃ spent reserved, price.cost input output cached written = .ok spent ∧
          price.reservationCost heldInput heldOutput = .ok reserved ∧ 0 ≤ spent ∧ spent ≤ reserved) ∧
      (Sys.run labels).SettlesWithin price := by
  refine ⟨fun _ _ _ _ _ _ => ModelPrice.cost_le, ?_⟩
  intro env actor key reservationId reservation input output cached written heldInput heldOutput spent
    reserved counts costs bounds stored amount tokens settled id row found flagged
  obtain ⟨spent', reserved', costs', bounds', -, below⟩ := @ModelPrice.cost_le price _ _ _ _ _ _ counts
  obtain rfl := Except.ok.inj (costs.symm.trans costs')
  obtain rfl := Except.ok.inj (bounds.symm.trans bounds')
  have inputLe := counts.input_le
  have outputLe := counts.output_le
  have same : settled.db.experiments = (Sys.run labels).db.experiments :=
    step_settle_quiet (enveloped_run within) stored (by omega) (by omega)
  rw [same] at found
  exact ⟨row, found, flagged⟩

end Settlements

namespace Scenario

def dollarPrice : ModelPrice where
  inputUsdPerMillion := 1
  outputUsdPerMillion := 1
  nonneg := by decide +kernel
  cachedRates := by rintro _ ⟨⟩

/-- A generation is reserved beside a provisioned workspace. -/
def generating (actual : Nat) : List Label :=
  leasedTask ++
    [.broker (envAt 0 "reservation" "workspace") (.provision workbench (some 5) "vm"),
      .broker (envAt 0) (.provisionReady 0 "execution"),
      .command (envAt 0 "generation" "binding") controller "reserve"
        (.reserveResources "experiment" (some 3) 0 3 none),
      .broker (envAt 0) (.perform workbench "workspace" "execution" "close" .destroy {} false
        (some actual) (some "execution") (.ok ())),
      .broker (envAt 0) (.performDestroy 0)]

local instance pricingHash : ContentHash := textHash

theorem generating_settles : (Sys.run (generating 0)).SettlesWithin dollarPrice :=
  (@reservation_bounds_settlement _ dollarPrice (generating 0) (by decide)).2

def settling : Label :=
  .command (envAt 0) controller "settle" (.settleResources "generation" (some (some 3)) false 3)

theorem dollarPrice_cost : dollarPrice.cost 1 2 0 0 = .ok 3 := by
  have amount : microUsd (dollarPrice.charge 1 2 0 0) = 3 := by decide +kernel
  rw [ModelPrice.cost_ok, amount]
  decide

theorem dollarPrice_reserved : dollarPrice.reservationCost 1 2 = .ok 3 := by
  have amount : microUsd (dollarPrice.bound 1 2) = 3 := by decide +kernel
  rw [ModelPrice.reservationCost_ok, amount]
  decide

/-- The destruction charges past the envelope, and the next settlement finds it exceeded. -/
theorem generating_flagged : ¬ (Sys.run (generating 20)).SettlesWithin dollarPrice := by
  intro within
  have counts : ModelPrice.Within 1 2 0 0 1 2 := ⟨by decide, by decide, le_rfl, le_rfl⟩
  have reservation : (Sys.run (generating 20)).db.reservations.find "generation" = some
      { experimentId := "experiment", reserved := 3, workers := 0, tokensReserved := 3 } := by decide
  have flagged : (((Sys.run (generating 20)).step settling).db.experiments.find
      "experiment").map (fun row => row.payload.budgetReconciliationRequired) = some true := by decide
  have clear : ((Sys.run (generating 20)).db.experiments.find "experiment").map
      (fun row => row.payload.budgetReconciliationRequired) = some false := by decide
  obtain ⟨row, found, required⟩ := Option.map_eq_some_iff.mp flagged
  obtain ⟨before, stored, required'⟩ := within (envAt 0) controller "settle" "generation" _ 1 2 0 0 1 2 3 3
    counts dollarPrice_cost dollarPrice_reserved reservation rfl rfl "experiment" row found required
  rw [stored, Option.map_some, required'] at clear
  cases clear

end Scenario

end PhysHarness
