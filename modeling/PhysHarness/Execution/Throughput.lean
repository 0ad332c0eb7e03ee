import Mathlib.Algebra.Order.BigOperators.Group.List
import PhysHarness.Execution.Governance

/-!
# What a governor lets through

The charges of an interval stand together in the history, so the ledger of the bucket bounds what
they grant.

## Main results

`token_rate_governed`: what the governor promises, over every run.
-/
namespace PhysHarness

namespace Charge

def time (charge : Charge) : ℚ := charge.entry.time

/-- The tokens that a request was granted. -/
def request? : Charge → Option Nat
  | .grant waiter .. => some waiter.tokens
  | .credit .. => none

def granted : Charge → ℚ
  | .grant waiter .. => waiter.tokens
  | .credit .. => 0

/-- What a credit adds, negative where an underestimate is taken. -/
def credited : Charge → ℚ
  | .grant .. => 0
  | .credit _ tokens .. => tokens

/-- What a credit gives back. -/
def refunded (charge : Charge) : ℚ := max 0 charge.credited

end Charge

def total (amount : Charge → ℚ) (charges : List Charge) : ℚ := (charges.map amount).sum

/-- The excess over the capacity of the last granted request. -/
def excess (capacity : ℚ) (charges : List Charge) : ℚ :=
  match (charges.filterMap Charge.request?).getLast? with
  | some tokens => max 0 (tokens - capacity)
  | none => 0

@[simp] theorem total_nil (amount : Charge → ℚ) : total amount [] = 0 := rfl

@[simp] theorem total_concat (amount : Charge → ℚ) (charges : List Charge) (charge : Charge) :
    total amount (charges ++ [charge]) = total amount charges + amount charge := by
  simp [total]

/-- The ledger's net is what was credited less what was granted. -/
theorem net_entries (charges : List Charge) :
    Bucket.net (charges.map Charge.entry) =
      total Charge.credited charges - total Charge.granted charges := by
  induction charges using List.reverseRecOn with
  | nil => simp
  | append_singleton charges charge ih =>
    rw [List.map_append, Bucket.net_append, ih, total_concat, total_concat]
    cases charge with
    | grant waiter time level queue pausedUntil =>
      simp only [List.map_singleton, Bucket.net_cons, Bucket.net_nil, Charge.entry,
        Charge.credited, Charge.granted]
      ring
    | credit sequence tokens time level =>
      simp only [List.map_singleton, Bucket.net_cons, Bucket.net_nil, Charge.entry,
        Charge.credited, Charge.granted]
      ring

/-- A stretch of the history of a bucket within an interval. -/
structure Stretch (config : GovernorConfig) (start finish : ℚ) (charges : List Charge) : Prop where
  chain : List.IsChain (Bucket.Follows config.perSecond) (charges.map Charge.entry)
  full : ∀ charge ∈ charges, charge.entry.level ≤ config.capacity + charge.entry.change
  floor : ∀ charge ∈ charges, charge.KeepsFloor config.capacity
  within : ∀ charge ∈ charges, start ≤ charge.time ∧ charge.time ≤ finish

section Stretches

variable {config : GovernorConfig} {start finish : ℚ} {charges : List Charge}

theorem GovernorConfig.capacity_nonneg : 0 ≤ config.capacity := by
  unfold capacity
  split <;> positivity

theorem GovernorConfig.perSecond_mul :
    config.perSecond * (finish - start) = config.tokensPerMinute * (finish - start) / 60 := by
  unfold perSecond
  ring

theorem Stretch.part {part : List Charge} (stretch : Stretch config start finish charges)
    (inside : part <:+: charges) : Stretch config start finish part where
  chain := List.IsChain.infix stretch.chain (inside.map _)
  full charge member := stretch.full charge (inside.subset member)
  floor charge member := stretch.floor charge (inside.subset member)
  within charge member := stretch.within charge (inside.subset member)

/-- The level that a grant leaves bounds what the stretch took up to it. -/
theorem Stretch.upTo_grant {waiter : Waiter} {time level pausedUntil : ℚ} {queue : List Waiter}
    (stretch : Stretch config start finish
      (charges ++ [.grant waiter time level queue pausedUntil])) :
    total Charge.granted (charges ++ [.grant waiter time level queue pausedUntil]) -
        total Charge.credited (charges ++ [.grant waiter time level queue pausedUntil]) ≤
      config.capacity + config.tokensPerMinute * (finish - start) / 60 +
        max 0 (waiter.tokens - config.capacity) := by
  obtain ⟨chain, full, floor, within⟩ := stretch
  have left := floor _ (List.mem_append_right _ (List.mem_singleton_self _))
  simp only [Charge.KeepsFloor] at left
  have taken := net_entries (charges ++ [.grant waiter time level queue pausedUntil])
  rw [List.map_append, List.map_singleton] at chain taken
  have listed (entry : Bucket.Entry ℚ) (member : entry ∈ charges.map Charge.entry ++
      [(Charge.grant waiter time level queue pausedUntil).entry]) :
      ∃ charge ∈ charges ++ [.grant waiter time level queue pausedUntil],
        charge.entry = entry := by
    rw [← List.map_singleton, ← List.map_append] at member
    exact List.mem_map.mp member
  have bound : -Bucket.net (charges.map Charge.entry ++
      [(Charge.grant waiter time level queue pausedUntil).entry]) ≤
        config.capacity + config.perSecond * (finish - start) - level := by
    refine Bucket.taken_le chain ?_ config.perSecond_nonneg ?_
    · intro entry member
      obtain ⟨charge, listed, rfl⟩ := listed entry member
      exact full charge listed
    · intro entry member
      obtain ⟨charge, listed, rfl⟩ := listed entry member
      exact within charge listed
  rw [GovernorConfig.perSecond_mul] at bound
  linarith

/-- What comes after the last grant only gives back. -/
theorem Stretch.given_le (ordered : start ≤ finish) (stretch : Stretch config start finish charges) :
    total Charge.granted charges - total Charge.refunded charges ≤
      config.capacity + config.tokensPerMinute * (finish - start) / 60 +
        excess config.capacity charges := by
  induction charges using List.reverseRecOn with
  | nil =>
    have holds := @GovernorConfig.capacity_nonneg config
    have grows : (0 : ℚ) ≤ config.tokensPerMinute * (finish - start) / 60 := by
      have longer : 0 ≤ finish - start := by linarith
      positivity
    simp only [total_nil, excess, List.filterMap_nil, List.getLast?_nil]
    linarith
  | append_singleton charges charge ih =>
    have before := ih (stretch.part (List.prefix_append _ _).isInfix)
    cases charge with
    | grant waiter time level queue pausedUntil =>
      have bound := stretch.upTo_grant
      have given : total Charge.credited charges ≤ total Charge.refunded charges :=
        List.sum_le_sum fun charge _ => le_max_right _ _
      have last : excess config.capacity
          (charges ++ [.grant waiter time level queue pausedUntil]) =
            max 0 (waiter.tokens - config.capacity) := by
        simp [excess, Charge.request?]
      rw [last]
      simp only [total_concat, Charge.granted, Charge.credited, Charge.refunded, max_self] at bound ⊢
      linarith
    | credit sequence tokens time level =>
      have last : excess config.capacity (charges ++ [.credit sequence tokens time level]) =
          excess config.capacity charges := by
        simp [excess, Charge.request?]
      have given : 0 ≤ (Charge.credit sequence tokens time level).refunded := le_max_left _ _
      rw [last]
      simp only [total_concat, Charge.granted]
      linarith

end Stretches

namespace TokenRateGovernor

variable {governor : TokenRateGovernor} {now : ℚ}

/-- What was granted and credited in an interval. -/
def during (governor : TokenRateGovernor) (start finish : ℚ) : List Charge :=
  governor.history.filter fun charge => start ≤ charge.time ∧ charge.time ≤ finish

theorem Levels.during (levels : Levels governor) (start finish : ℚ) :
    Stretch governor.config start finish (governor.during start finish) := by
  have sorted : governor.history.Pairwise fun first second => first.time ≤ second.time := by
    have times := Bucket.times_sorted levels.chain
    rw [List.pairwise_map] at times
    exact times
  have inside : governor.during start finish <:+: governor.history := Bucket.interval_together sorted
  refine ⟨?_, fun charge member => ?_, fun charge member => ?_, fun charge member => ?_⟩
  · exact List.IsChain.infix levels.chain (inside.map _)
  · exact levels.full charge (inside.subset member)
  · exact levels.floor charge (inside.subset member)
  · simpa using List.of_mem_filter member

/-- The bound of an interval. -/
def allowance (config : GovernorConfig) (start finish : ℚ) : ℚ :=
  config.capacity + config.tokensPerMinute * (finish - start) / 60

end TokenRateGovernor

/-- What the governor promises of a state. -/
structure Governed (config : GovernorConfig) (governor : TokenRateGovernor) : Prop where
  level : governor.level ≤ config.capacity
  charged : ∀ id caller, governor.callers.find id = some caller →
    caller.Charged (governor.account id)
  uncharged : ∀ id, governor.callers.find id = none → governor.account id = []
  given : ∀ start finish, start ≤ finish →
    total Charge.granted (governor.during start finish) -
        total Charge.refunded (governor.during start finish) ≤
      TokenRateGovernor.allowance config start finish +
        excess config.capacity (governor.during start finish)
  -- with every credit counted, up to any grant of the interval
  upToGrant : ∀ start finish first waiter time level queue pausedUntil rest,
    governor.during start finish =
        first ++ [.grant waiter time level queue pausedUntil] ++ rest →
      total Charge.granted (first ++ [.grant waiter time level queue pausedUntil]) -
          total Charge.credited (first ++ [.grant waiter time level queue pausedUntil]) ≤
        TokenRateGovernor.allowance config start finish + max 0 (waiter.tokens - config.capacity)
  orderly : ∀ charge ∈ governor.history, charge.InOrder config.agingSeconds
  queued : ∀ id caller, governor.callers.find id = some caller → caller.future = .pending →
    caller.waiter ∈ governor.waiters
  armed : governor.waiters ≠ [] → governor.timer.isSome = true
  refills : ∀ now, 1 ≤ governor.rate now

theorem token_rate_governed (config : GovernorConfig) (start : ℚ) (labels : List GovernorLabel) :
    Governed config (TokenRateGovernor.run config start labels) := by
  obtain ⟨same, positive, inv⟩ := TokenRateGovernor.run_inv config start labels
  generalize TokenRateGovernor.run config start labels = governor at same positive inv
  subst same
  exact
    { level := inv.levels.level
      charged := inv.queue.charged
      uncharged := inv.queue.uncharged
      given := fun start finish ordered => (inv.levels.during start finish).given_le ordered
      upToGrant := fun start finish first waiter time level queue pausedUntil rest parts => by
        have stretch := inv.levels.during start finish
        rw [parts] at stretch
        exact (stretch.part (List.prefix_append _ _).isInfix).upTo_grant
      orderly := inv.orderly
      queued := inv.queue.queued
      armed := inv.armed
      refills := fun _ => TokenRateGovernor.one_le_rate positive }

namespace Scenario

/-- An underestimate is settled at the moment of the grant. -/
def underestimate : TokenRateGovernor :=
  TokenRateGovernor.run { tokensPerMinute := 1000, burstTokens := some 1000 } 0
    [.request "session" 600 1 none 0 0 0, .settle 0 5000 0 0]

/-- What `settle` takes counts against the credits, and exceeds the capacity at once. -/
theorem underestimate_exceeds :
    ¬ (total Charge.granted (underestimate.during 0 0) -
        total Charge.credited (underestimate.during 0 0) ≤
      TokenRateGovernor.allowance underestimate.config 0 0 +
        excess underestimate.config.capacity (underestimate.during 0 0)) := by
  decide +kernel

end Scenario

end PhysHarness
