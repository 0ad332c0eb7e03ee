import PhysHarness.Execution.Admission
import PhysHarness.Lib.Bucket

/-!
# The token-rate governor

The level is a bucket's: it grows by no more than the limit, and the history is its ledger. A waiter
is granted once and credited once, the head of the queue goes first, and whoever stays in the queue
leaves a timer armed.

## Main results

`TokenRateGovernor.run_inv`: all of these, over every run and every clock that does not go back.
-/
namespace PhysHarness

namespace GovernorConfig

variable (config : GovernorConfig)

def perSecond : ℚ := config.tokensPerMinute / 60

theorem perSecond_nonneg : 0 ≤ config.perSecond := by
  unfold perSecond
  positivity

end GovernorConfig

namespace Charge

def sequence : Charge → Nat
  | .grant waiter .. => waiter.sequence
  | .credit sequence .. => sequence

/-- The charge as an entry of the bucket's ledger. -/
def entry : Charge → Bucket.Entry ℚ
  | .grant waiter time level .. => { time, change := -(waiter.tokens : ℚ), level }
  | .credit _ tokens time level => { time, change := tokens, level }

/-- A grant leaves the level no lower than what the request exceeds the bucket by. -/
def KeepsFloor (capacity : ℚ) : Charge → Prop
  | .grant waiter _ level .. => -max 0 (waiter.tokens - capacity) ≤ level
  | .credit .. => True

/-- A grant was made outside a pause, to the head of its queue. -/
def InOrder (aging : ℚ) : Charge → Prop
  | .grant waiter time _ queue pausedUntil => pausedUntil ≤ time ∧ waiter ∈ queue ∧
      ∀ other ∈ queue, waiter.precedes other aging time = true
  | .credit .. => True

end Charge

namespace Waiter

variable {first second third : Waiter} {aging now : ℚ}

theorem precedes_iff : first.precedes second aging now = true ↔
    first.rank aging now < second.rank aging now ∨
      (first.rank aging now = second.rank aging now ∧ first.sequence ≤ second.sequence) := by
  simp [precedes]

theorem precedes_refl : first.precedes first aging now = true :=
  precedes_iff.mpr (.inr ⟨rfl, le_refl _⟩)

theorem precedes_trans (one : first.precedes second aging now = true)
    (two : second.precedes third aging now = true) : first.precedes third aging now = true := by
  rw [precedes_iff] at one two ⊢
  omega

theorem precedes_total (not : ¬ first.precedes second aging now = true) :
    second.precedes first aging now = true := by
  rw [precedes_iff] at not ⊢
  omega

end Waiter

/-- The head is in the queue and precedes everyone there. -/
theorem headOf_first (aging now : ℚ) (first : Waiter) (rest : List Waiter) :
    headOf aging now first rest ∈ first :: rest ∧
      ∀ other ∈ first :: rest, (headOf aging now first rest).precedes other aging now = true := by
  induction rest generalizing first with
  | nil => exact ⟨List.mem_cons_self, by simp [headOf, Waiter.precedes_refl]⟩
  | cons next rest ih =>
    unfold headOf
    by_cases ordered : first.precedes next aging now = true
    · obtain ⟨member, least⟩ := ih first
      rw [if_pos ordered]
      refine ⟨?_, fun other listed => ?_⟩
      · rcases List.mem_cons.mp member with same | later
        · rw [same]
          exact List.mem_cons_self
        · exact List.mem_cons_of_mem _ (List.mem_cons_of_mem _ later)
      · rcases List.mem_cons.mp listed with rfl | listed
        · exact least _ List.mem_cons_self
        · rcases List.mem_cons.mp listed with rfl | later
          · exact Waiter.precedes_trans (least first List.mem_cons_self) ordered
          · exact least other (List.mem_cons_of_mem _ later)
    · obtain ⟨member, least⟩ := ih next
      rw [if_neg ordered]
      refine ⟨List.mem_cons_of_mem _ member, fun other listed => ?_⟩
      rcases List.mem_cons.mp listed with rfl | listed
      · exact Waiter.precedes_trans (least next List.mem_cons_self)
          (Waiter.precedes_total ordered)
      · exact least other listed

/-- The entries are one grant to the waiter. -/
def Waiter.Granted (waiter : Waiter) (entries : List Charge) : Prop :=
  ∃ time level queue paused, entries = [.grant waiter time level queue paused]

/-- The entries are one grant to the waiter and one credit. -/
def Waiter.Settled (waiter : Waiter) (tokens : ℚ) (entries : List Charge) : Prop :=
  ∃ time level queue paused later left, entries =
    [.grant waiter time level queue paused, .credit waiter.sequence tokens later left]

/-- The entries that a call of `admit` has made. -/
def Caller.Charged (caller : Caller) (entries : List Charge) : Prop :=
  match caller.state with
  | .awaiting =>
    if caller.future = .result then caller.waiter.Granted entries else entries = []
  | .admitted admission =>
    if admission.isOpen then caller.waiter.Granted entries
    else ∃ tokens, caller.waiter.Settled tokens entries
  | .cancelled => entries = [] ∨ caller.waiter.Settled caller.waiter.tokens entries

namespace TokenRateGovernor

variable {governor after : TokenRateGovernor} {now later : ℚ}

/-! ### The level -/

/-- The level is a bucket's and the history is its ledger. -/
structure Levels (governor : TokenRateGovernor) : Prop where
  level : governor.level ≤ governor.config.capacity
  chain : List.IsChain (Bucket.Follows governor.config.perSecond)
    (governor.history.map Charge.entry)
  full : ∀ charge ∈ governor.history,
    charge.entry.level ≤ governor.config.capacity + charge.entry.change
  floor : ∀ charge ∈ governor.history, charge.KeepsFloor governor.config.capacity
  current : ∀ last, governor.history.getLast? = some last → ∃ updated,
    governor.updated = some updated ∧ last.entry.time ≤ updated ∧
      governor.level ≤
        last.entry.level + governor.config.perSecond * (updated - last.entry.time)

theorem rate_le : governor.rate now ≤ governor.config.tokensPerMinute := by
  unfold rate
  cases governor.cutAt with
  | none => exact le_refl _
  | some cutAt => exact min_le_left _ _

theorem refill_level (bounded : governor.level ≤ governor.config.capacity) :
    (governor.refill now).level ≤ governor.config.capacity := by
  unfold refill
  cases governor.updated with
  | none => exact bounded
  | some updated =>
    dsimp only
    split
    · exact min_le_left _ _
    · exact bounded

/-- A refill adds no more than the limit allows since the last one. -/
theorem refill_growth {updated : ℚ} (known : governor.updated = some updated)
    (later : updated ≤ now) :
    (governor.refill now).level ≤
      governor.level + governor.config.perSecond * (now - updated) := by
  have limit : (0 : ℚ) ≤ governor.config.tokensPerMinute := by positivity
  have grows := governor.config.perSecond_nonneg
  simp only [refill, known]
  split
  next accrues =>
    refine (min_le_right _ _).trans ?_
    have since : updated ≤ max updated governor.pausedUntil := le_max_left _ _
    have spent : (now - max updated governor.pausedUntil) * governor.rate now ≤
        (now - updated) * governor.config.tokensPerMinute := by
      calc (now - max updated governor.pausedUntil) * governor.rate now
          ≤ (now - max updated governor.pausedUntil) * governor.config.tokensPerMinute :=
            mul_le_mul_of_nonneg_left rate_le (by linarith)
        _ ≤ (now - updated) * governor.config.tokensPerMinute :=
            mul_le_mul_of_nonneg_right (by linarith) limit
    have scaled : governor.config.perSecond * (now - updated) =
        (now - updated) * governor.config.tokensPerMinute / 60 := by
      rw [GovernorConfig.perSecond]
      ring
    rw [scaled]
    linarith
  · exact le_add_of_nonneg_right (mul_nonneg grows (by linarith))

/-- A movement of tokens at the last refill is entered with the level that it leaves. -/
theorem Levels.post {charge : Charge} (levels : Levels governor)
    (filled : governor.updated = some now) (config : after.config = governor.config)
    (updated : after.updated = some now) (history : after.history = governor.history ++ [charge])
    (time : charge.entry.time = now) (level : charge.entry.level = after.level)
    (bounded : after.level ≤ governor.config.capacity)
    (moved : after.level ≤ governor.level + charge.entry.change)
    (floor : charge.KeepsFloor governor.config.capacity) : Levels after := by
  refine ⟨?_, ?_, ?_, ?_, ?_⟩
  · rw [config]
    exact bounded
  · rw [config, history, List.map_append, List.isChain_append]
    refine ⟨levels.chain, List.isChain_singleton _, fun last found first here => ?_⟩
    obtain rfl : charge.entry = first := by simpa using here
    rw [List.getLast?_map, Option.mem_def, Option.map_eq_some_iff] at found
    obtain ⟨charge', found, rfl⟩ := found
    obtain ⟨moment, known, before, bound⟩ := levels.current charge' found
    obtain rfl := Option.some.inj (filled.symm.trans known)
    refine ⟨by rw [time]; exact before, ?_⟩
    rw [time, level]
    linarith
  · intro charge' member
    rw [history] at member
    rw [config]
    rcases List.mem_append.mp member with old | new
    · exact levels.full charge' old
    · obtain rfl := List.mem_singleton.mp new
      rw [level]
      linarith [levels.level]
  · intro charge' member
    rw [history] at member
    rw [config]
    rcases List.mem_append.mp member with old | new
    · exact levels.floor charge' old
    · obtain rfl := List.mem_singleton.mp new
      exact floor
  · intro last found
    rw [history, List.getLast?_append, List.getLast?_singleton] at found
    obtain rfl := Option.some.inj found
    exact ⟨now, updated, time.le, by rw [level, time]; simp⟩

/-- What moves no tokens keeps the level below what the last entry allows. -/
theorem Levels.ease (levels : Levels governor) (config : after.config = governor.config)
    (history : after.history = governor.history)
    (bounded : after.level ≤ governor.config.capacity)
    (current : ∀ before, governor.updated = some before → ∃ updated,
      after.updated = some updated ∧ before ≤ updated ∧
        after.level ≤ governor.level + governor.config.perSecond * (updated - before)) :
    Levels after := by
  refine ⟨by rw [config]; exact bounded, by rw [config, history]; exact levels.chain,
    by rw [config, history]; exact levels.full, by rw [config, history]; exact levels.floor, ?_⟩
  intro last found
  rw [history] at found
  obtain ⟨before, known, early, bound⟩ := levels.current last found
  obtain ⟨updated, stands, late, grown⟩ := current before known
  refine ⟨updated, stands, early.trans late, ?_⟩
  rw [config]
  have split : governor.config.perSecond * (updated - last.entry.time) =
      governor.config.perSecond * (updated - before) +
        governor.config.perSecond * (before - last.entry.time) := by ring
  rw [split]
  linarith

/-- What leaves the bucket alone keeps its levels. -/
theorem Levels.congr (levels : Levels governor) (config : after.config = governor.config)
    (history : after.history = governor.history) (level : after.level = governor.level)
    (updated : after.updated = governor.updated) : Levels after :=
  levels.ease config history (level ▸ levels.level) fun before known =>
    ⟨before, updated.trans known, le_refl _, by rw [level]; simp⟩

/-- The last refill was not after this moment. -/
def UpTo (governor : TokenRateGovernor) (now : ℚ) : Prop :=
  ∀ updated, governor.updated = some updated → updated ≤ now

theorem Levels.refill (levels : Levels governor) (upTo : governor.UpTo now) :
    Levels (governor.refill now) :=
  levels.ease rfl rfl (refill_level levels.level) fun before known =>
    ⟨now, rfl, upTo before known, refill_growth known (upTo before known)⟩

theorem Levels.grant {head : Waiter} {caller : Caller} (levels : Levels governor)
    (filled : governor.updated = some now)
    (enough : min (head.tokens : ℚ) governor.config.capacity ≤ governor.level) :
    Levels (governor.grant now head caller) := by
  have taken : (0 : ℚ) ≤ head.tokens := by positivity
  refine @Levels.post _ _ _ (.grant head now (governor.level - head.tokens) _ _) levels filled rfl
    filled rfl rfl rfl ?_ ?_ ?_
  · change governor.level - head.tokens ≤ _
    linarith [levels.level]
  · change governor.level - head.tokens ≤ governor.level + -(head.tokens : ℚ)
    linarith
  · change -max 0 ((head.tokens : ℚ) - governor.config.capacity) ≤ governor.level - head.tokens
    rcases le_total (head.tokens : ℚ) governor.config.capacity with fits | exceeds
    · rw [min_eq_left fits] at enough
      rw [max_eq_left (by linarith)]
      linarith
    · rw [min_eq_right exceeds] at enough
      rw [max_eq_right (by linarith)]
      linarith

/-! ### The pump -/

/-- What the turns of the pump keep, the pump keeps. -/
theorem pumpLoop_rule (holds : TokenRateGovernor → Prop) {fuel : Nat}
    (schedule : ∀ governor delay, holds governor → holds (governor.schedule now delay))
    (remove : ∀ governor head caller, holds governor → head ∈ governor.waiters →
      governor.callers.find head.sequence = some caller → caller.future ≠ .pending →
      holds (governor.remove head))
    (grant : ∀ governor head caller, holds governor → head ∈ governor.waiters →
      (∀ other ∈ governor.waiters,
        head.precedes other governor.config.agingSeconds now = true) →
      governor.callers.find head.sequence = some caller → caller.future = .pending →
      governor.pausedUntil ≤ now →
      min (head.tokens : ℚ) governor.config.capacity ≤ governor.level →
      holds (governor.grant now head caller))
    (start : holds governor) : holds (pumpLoop now fuel governor) := by
  induction fuel generalizing governor with
  | zero => exact start
  | succ fuel ih =>
    unfold pumpLoop
    split
    · exact start
    next first rest waiters =>
      split
      · exact schedule _ _ start
      next running =>
        obtain ⟨member, least⟩ := headOf_first governor.config.agingSeconds now first rest
        rw [← waiters] at member least
        dsimp only
        split
        · exact start
        next caller found =>
          split
          next ended => exact ih (remove _ _ _ start member found ended)
          next pending =>
            split
            · exact schedule _ _ start
            next enough =>
              exact ih (grant _ _ _ start member least found (not_not.mp pending)
                (not_lt.mp running) (not_lt.mp enough))

theorem Levels.pumpLoop {fuel : Nat} (levels : Levels governor)
    (filled : governor.updated = some now) :
    Levels (pumpLoop now fuel governor) ∧ (pumpLoop now fuel governor).updated = some now := by
  refine pumpLoop_rule (fun governor => Levels governor ∧ governor.updated = some now) ?_ ?_ ?_
    ⟨levels, filled⟩
  · rintro governor delay ⟨levels, filled⟩
    exact ⟨levels.congr rfl rfl rfl rfl, filled⟩
  · rintro governor head caller ⟨levels, filled⟩ - - -
    exact ⟨levels.congr rfl rfl rfl rfl, filled⟩
  · rintro governor head caller ⟨levels, filled⟩ - - - - - enough
    exact ⟨levels.grant filled enough, filled⟩

/-- Every grant was made outside a pause, to the head of its queue. -/
def Orderly (governor : TokenRateGovernor) : Prop :=
  ∀ charge ∈ governor.history, charge.InOrder governor.config.agingSeconds

theorem Orderly.pumpLoop {fuel : Nat} (orderly : Orderly governor) :
    Orderly (pumpLoop now fuel governor) := by
  refine pumpLoop_rule Orderly (fun _ _ orderly => orderly) (fun _ _ _ orderly _ _ _ => orderly) ?_
    orderly
  intro governor head caller orderly member least _ _ running _ charge listed
  rcases List.mem_append.mp listed with old | new
  · exact orderly charge old
  · obtain rfl := List.mem_singleton.mp new
    exact ⟨running, member, least⟩

/-! ### The queue -/

/-- The movements of tokens of one request. -/
def account (governor : TokenRateGovernor) (id : Nat) : List Charge :=
  governor.history.filter fun charge => charge.sequence = id

/-- Each call of `admit` has its number, waits while its future is pending and has made the charges
of its state; who waits was not granted. -/
structure Queue (governor : TokenRateGovernor) : Prop where
  distinct : governor.waiters.Nodup
  waiting : ∀ waiter ∈ governor.waiters, ∃ caller,
    governor.callers.find waiter.sequence = some caller ∧ caller.waiter = waiter ∧
      caller.state = .awaiting ∧ caller.future ≠ .result
  numbered : ∀ id caller, governor.callers.find id = some caller →
    caller.waiter.sequence = id ∧ id < governor.nextSequence
  queued : ∀ id caller, governor.callers.find id = some caller → caller.future = .pending →
    caller.waiter ∈ governor.waiters
  charged : ∀ id caller, governor.callers.find id = some caller →
    caller.Charged (governor.account id)
  uncharged : ∀ id, governor.callers.find id = none → governor.account id = []

theorem account_append {charges : List Charge} {id : Nat}
    (history : after.history = governor.history ++ charges)
    (mine : ∀ charge ∈ charges, charge.sequence = id) (other : Nat) :
    after.account other = governor.account other ++ if other = id then charges else [] := by
  rw [account, account, history, List.filter_append]
  split
  next here =>
    have all : charges.filter (fun charge => charge.sequence = other) = charges :=
      List.filter_eq_self.mpr fun charge member => by
        rw [mine charge member, here, decide_eq_true rfl]
    rw [all]
  next apart =>
    have none : charges.filter (fun charge => charge.sequence = other) = [] :=
      List.filter_eq_nil_iff.mpr fun charge member => by
        rw [mine charge member, decide_eq_true_eq]
        exact fun same => apart same.symm
    rw [none]

/-- A change of one caller, with the charges that it makes; who leaves the queue has its future
done. -/
theorem Queue.change {id : Nat} {caller next : Caller} {charges : List Charge}
    (queue : Queue governor) (found : governor.callers.find id = some caller)
    (callers : ∀ other, after.callers.find other =
      if other = id then some next else governor.callers.find other)
    (history : after.history = governor.history ++ charges)
    (numbers : after.nextSequence = governor.nextSequence)
    (waiter : next.waiter = caller.waiter)
    (mine : ∀ charge ∈ charges, charge.sequence = id)
    (charged : next.Charged (governor.account id ++ charges))
    (waiters : (after.waiters = governor.waiters.erase caller.waiter ∧ next.future ≠ .pending) ∨
      (after.waiters = governor.waiters ∧ (next.future = .pending → caller.future = .pending) ∧
        (caller.waiter ∈ governor.waiters → next.state = .awaiting ∧ next.future ≠ .result))) :
    Queue after := by
  have accounts := account_append history mine
  have inside : ∀ other ∈ after.waiters, other ∈ governor.waiters := by
    rcases waiters with ⟨same, -⟩ | ⟨same, -⟩
    · rw [same]
      exact fun other member => List.mem_of_mem_erase member
    · rw [same]
      exact fun _ member => member
  refine ⟨?_, ?_, ?_, ?_, ?_, ?_⟩
  · rcases waiters with ⟨same, -⟩ | ⟨same, -⟩
    · rw [same]
      exact queue.distinct.erase _
    · rw [same]
      exact queue.distinct
  · intro other member
    obtain ⟨held, here, same, awaiting, ungranted⟩ := queue.waiting other (inside other member)
    rw [callers]
    split
    next mineHere =>
      rw [mineHere, found] at here
      obtain rfl := Option.some.inj here
      rcases waiters with ⟨erased, -⟩ | ⟨-, -, stays⟩
      · rw [erased, ← same] at member
        exact absurd member (queue.distinct.not_mem_erase)
      · obtain ⟨stillAwaiting, stillUngranted⟩ := stays (same ▸ inside other member)
        exact ⟨next, rfl, waiter.trans same, stillAwaiting, stillUngranted⟩
    · exact ⟨held, here, same, awaiting, ungranted⟩
  · intro other held here
    rw [callers] at here
    rw [numbers]
    split at here
    next same =>
      obtain rfl := Option.some.inj here
      rw [waiter, same]
      exact queue.numbered id caller found
    · exact queue.numbered other held here
  · intro other held here pending
    rw [callers] at here
    split at here
    next same =>
      obtain rfl := Option.some.inj here
      rcases waiters with ⟨-, done⟩ | ⟨kept, before, -⟩
      · exact absurd pending done
      · rw [kept, waiter]
        exact queue.queued id caller found (before pending)
    next apart =>
      have member := queue.queued other held here pending
      rcases waiters with ⟨erased, -⟩ | ⟨kept, -⟩
      · rw [erased]
        refine (List.mem_erase_of_ne fun same => apart ?_).mpr member
        rw [← (queue.numbered other held here).1, same, (queue.numbered id caller found).1]
      · rw [kept]
        exact member
  · intro other held here
    rw [callers] at here
    rw [accounts]
    split at here
    next same =>
      obtain rfl := Option.some.inj here
      rw [if_pos same, same]
      exact charged
    next apart =>
      rw [if_neg apart, List.append_nil]
      exact queue.charged other held here
  · intro other absent
    rw [callers] at absent
    rw [accounts]
    split at absent
    · cases absent
    next apart =>
      rw [if_neg apart, List.append_nil]
      exact queue.uncharged other absent

/-- What leaves the callers, the queue and the history alone keeps them. -/
theorem Queue.congr (queue : Queue governor) (waiters : after.waiters = governor.waiters)
    (callers : after.callers = governor.callers) (history : after.history = governor.history)
    (numbers : after.nextSequence = governor.nextSequence) : Queue after := by
  obtain ⟨distinct, waiting, numbered, queued, charged, uncharged⟩ := queue
  unfold account at charged uncharged
  refine ⟨?_, ?_, ?_, ?_, ?_, ?_⟩
  all_goals
    simp only [account, waiters, callers, history, numbers]
    assumption

theorem Queue.remove {head : Waiter} {caller : Caller} (queue : Queue governor)
    (found : governor.callers.find head.sequence = some caller) (member : head ∈ governor.waiters)
    (done : caller.future ≠ .pending) : Queue (governor.remove head) := by
  obtain ⟨held, here, same, -, -⟩ := queue.waiting head member
  obtain rfl := Option.some.inj (found.symm.trans here)
  have kept : caller.Charged (governor.account head.sequence ++ []) := by
    rw [List.append_nil]
    exact queue.charged _ caller found
  refine queue.change found ?_ (List.append_nil _).symm rfl rfl (by simp) kept
    (.inl ⟨by rw [same]; rfl, done⟩)
  intro other
  split
  next here =>
    rw [here]
    exact found
  · rfl

theorem Queue.grant {head : Waiter} {caller : Caller} (queue : Queue governor)
    (found : governor.callers.find head.sequence = some caller) (member : head ∈ governor.waiters)
    (pending : caller.future = .pending) : Queue (governor.grant now head caller) := by
  obtain ⟨held, here, same, awaiting, -⟩ := queue.waiting head member
  obtain rfl := Option.some.inj (found.symm.trans here)
  refine queue.change found (fun other => Table.find_put ..) rfl rfl rfl
    (fun charge listed => ?_) ?_ (.inl ⟨by rw [same]; rfl, fun still => nomatch still⟩)
  · obtain rfl := List.mem_singleton.mp listed
    rfl
  · have none := queue.charged _ caller found
    simp only [Caller.Charged, awaiting, pending] at none ⊢
    rw [if_neg (by decide)] at none
    rw [if_pos trivial, none, same]
    exact ⟨_, _, _, _, rfl⟩

theorem Queue.pumpLoop {fuel : Nat} (queue : Queue governor) :
    Queue (pumpLoop now fuel governor) := by
  refine pumpLoop_rule Queue (fun _ _ queue => queue.congr rfl rfl rfl rfl)
    (fun _ _ _ queue member found done => queue.remove found member done)
    (fun _ _ _ queue member _ found pending _ _ => queue.grant found member pending) queue

/-- Nobody waits without a timer. -/
def Armed (governor : TokenRateGovernor) : Prop :=
  governor.waiters ≠ [] → governor.timer.isSome = true

theorem armed_pumpLoop {fuel : Nat} (queue : Queue governor)
    (enough : governor.waiters.length < fuel) : Armed (TokenRateGovernor.pumpLoop now fuel governor) := by
  induction fuel generalizing governor with
  | zero => exact absurd enough (Nat.not_lt_zero _)
  | succ fuel ih =>
    unfold TokenRateGovernor.pumpLoop
    split
    next none => exact fun waits => absurd none waits
    next first rest waiters =>
      split
      · exact fun _ => rfl
      · obtain ⟨member, -⟩ := headOf_first governor.config.agingSeconds now first rest
        rw [← waiters] at member
        have shorter : (governor.waiters.erase
            (headOf governor.config.agingSeconds now first rest)).length < fuel := by
          have less := List.length_erase_of_mem member
          have positive := List.length_pos_of_mem member
          omega
        dsimp only
        split
        next absent =>
          obtain ⟨_, found, -⟩ := queue.waiting _ member
          exact nomatch absent.symm.trans found
        next caller found =>
          split
          next done => exact ih (queue.remove found member done) shorter
          next pending =>
            split
            · exact fun _ => rfl
            · exact ih (queue.grant found member (not_not.mp pending)) shorter

/-! ### Labels -/

structure Sound (governor : TokenRateGovernor) : Prop where
  levels : Levels governor
  orderly : Orderly governor
  queue : Queue governor

/-- What holds between two labels. -/
structure Inv (governor : TokenRateGovernor) (now : ℚ) : Prop extends Sound governor where
  armed : Armed governor
  upTo : governor.UpTo now

theorem Sound.pump (sound : Sound governor) (upTo : governor.UpTo now) :
    Inv (governor.pump now) now := by
  have cleared : Levels { governor with timer := none } := sound.levels.congr rfl rfl rfl rfl
  have levels : Levels ({ governor with timer := none }.refill now) := cleared.refill upTo
  have queue : Queue ({ governor with timer := none }.refill now) :=
    sound.queue.congr rfl rfl rfl rfl
  have orderly : Orderly ({ governor with timer := none }.refill now) := sound.orderly
  obtain ⟨kept, filled⟩ := levels.pumpLoop rfl
  exact
    { levels := kept
      orderly := orderly.pumpLoop
      queue := queue.pumpLoop
      armed := armed_pumpLoop queue (Nat.lt_succ_self _)
      upTo := fun updated known => (Option.some.inj (filled.symm.trans known)).ge }

/-- A caller outside the queue closes with a credit. -/
theorem Sound.credit {id : Nat} {caller next : Caller} {tokens : ℚ} (sound : Sound governor)
    (upTo : governor.UpTo now) (ordered : now ≤ later)
    (found : governor.callers.find id = some caller) (waiter : next.waiter = caller.waiter)
    (future : next.future = caller.future) (gone : caller.waiter ∉ governor.waiters)
    (charged : ∀ level,
      next.Charged (governor.account id ++ [.credit id tokens now level])) :
    Inv ((governor.setCaller id next).credit now id tokens later) later := by
  have closed : Levels (governor.setCaller id next) := sound.levels.congr rfl rfl rfl rfl
  have filled : Levels ((governor.setCaller id next).refill now) := closed.refill upTo
  let level := min governor.config.capacity
    (((governor.setCaller id next).refill now).level + tokens)
  refine Sound.pump ⟨?_, ?_, ?_⟩ fun updated known => ?_
  · exact @Levels.post _ _ now (.credit id tokens now level) filled rfl rfl rfl rfl rfl rfl
      (min_le_left _ _) (min_le_right _ _) trivial
  · intro charge listed
    rcases List.mem_append.mp listed with old | new
    · exact sound.orderly charge old
    · obtain rfl := List.mem_singleton.mp new
      trivial
  · refine sound.queue.change found (fun other => Table.find_put ..) rfl rfl waiter
      (fun charge listed => ?_) (charged level) (.inr ⟨rfl, fun pending => future ▸ pending,
        fun inside => absurd inside gone⟩)
    obtain rfl := List.mem_singleton.mp listed
    rfl
  · exact Option.some.inj known ▸ ordered

/-- A call of `admit` joins the queue under the next number. -/
theorem Queue.enqueue {waiter : Waiter} (queue : Queue governor)
    (number : waiter.sequence = governor.nextSequence)
    (waiters : after.waiters = governor.waiters ++ [waiter])
    (numbers : after.nextSequence = governor.nextSequence + 1)
    (callers : after.callers = governor.callers.put governor.nextSequence { waiter })
    (history : after.history = governor.history) : Queue after := by
  have fresh : governor.callers.find governor.nextSequence = none := by
    cases found : governor.callers.find governor.nextSequence with
    | none => rfl
    | some caller => exact absurd (queue.numbered _ caller found).2 (Nat.lt_irrefl _)
  have accounts : ∀ id, after.account id = governor.account id := fun id => by
    rw [account, account, history]
  have apart {other : Waiter} (member : other ∈ governor.waiters) :
      other.sequence ≠ governor.nextSequence := by
    intro same
    obtain ⟨_, here, -⟩ := queue.waiting other member
    rw [same, fresh] at here
    cases here
  refine ⟨?_, ?_, ?_, ?_, ?_, ?_⟩
  · rw [waiters, List.nodup_append]
    refine ⟨queue.distinct, List.nodup_singleton _, fun other member _ new => ?_⟩
    obtain rfl := List.mem_singleton.mp new
    rintro rfl
    exact apart member number
  · intro other member
    rw [waiters] at member
    rw [callers]
    rcases List.mem_append.mp member with old | new
    · rw [Table.find_put_ne _ _ (apart old)]
      exact queue.waiting other old
    · obtain rfl := List.mem_singleton.mp new
      rw [number, Table.find_put_self]
      exact ⟨_, rfl, rfl, rfl, fun granted => by cases granted⟩
  · intro id caller found
    rw [callers] at found
    rw [numbers]
    rcases Table.find_put_cases found with ⟨rfl, rfl⟩ | ⟨-, old⟩
    · exact ⟨number, Nat.lt_succ_self _⟩
    · exact ⟨(queue.numbered id caller old).1, Nat.lt_succ_of_lt (queue.numbered id caller old).2⟩
  · intro id caller found pending
    rw [callers] at found
    rw [waiters]
    rcases Table.find_put_cases found with ⟨rfl, rfl⟩ | ⟨-, old⟩
    · exact List.mem_append_right _ (List.mem_singleton_self _)
    · exact List.mem_append_left _ (queue.queued id caller old pending)
  · intro id caller found
    rw [callers] at found
    rw [accounts]
    rcases Table.find_put_cases found with ⟨rfl, rfl⟩ | ⟨-, old⟩
    · exact queue.uncharged _ fresh
    · exact queue.charged id caller old
  · intro id absent
    rw [callers, Table.find_put] at absent
    rw [accounts]
    split at absent
    · cases absent
    · exact queue.uncharged id absent

/-- The pump leaves an awaiting caller awaiting. -/
theorem pump_awaiting {id : Nat}
    (awaiting : ∀ caller, governor.callers.find id = some caller → caller.state = .awaiting) :
    ∀ caller, (governor.pump now).callers.find id = some caller → caller.state = .awaiting := by
  refine pumpLoop_rule
    (fun governor => ∀ caller, governor.callers.find id = some caller → caller.state = .awaiting)
    (fun _ _ kept => kept) (fun _ _ _ kept _ _ _ => kept) ?_ awaiting
  intro governor head held kept _ _ here _ _ _ caller found
  rcases Table.find_put_cases found with ⟨rfl, rfl⟩ | ⟨-, old⟩
  · exact kept held here
  · exact kept caller old

theorem Inv.mono (inv : Inv governor now) (ordered : now ≤ later) : Inv governor later :=
  { inv with upTo := fun updated known => (inv.upTo updated known).trans ordered }

theorem Inv.ticked (inv : Inv governor now) :
    Inv (governor.ticked now) (governor.ticked now).clock where
  levels := inv.levels.congr rfl rfl rfl rfl
  orderly := inv.orderly
  queue := inv.queue.congr rfl rfl rfl rfl
  armed := inv.armed
  upTo updated known := (inv.upTo updated known).trans (le_max_right _ _)

/-- A caller outside the queue changes without a charge. -/
theorem Inv.setCaller {id : Nat} {caller next : Caller} (inv : Inv governor now)
    (found : governor.callers.find id = some caller) (waiter : next.waiter = caller.waiter)
    (pending : next.future = .pending → caller.future = .pending)
    (stays : caller.waiter ∈ governor.waiters → next.state = .awaiting ∧ next.future ≠ .result)
    (charged : next.Charged (governor.account id)) : Inv (governor.setCaller id next) now where
  levels := inv.levels.congr rfl rfl rfl rfl
  orderly := inv.orderly
  queue := by
    have kept : next.Charged (governor.account id ++ []) := by
      rw [List.append_nil]
      exact charged
    exact inv.queue.change found (fun other => Table.find_put ..) (List.append_nil _).symm rfl waiter
      (by simp) kept (.inr ⟨rfl, pending, stays⟩)
  armed := inv.armed
  upTo := inv.upTo

section Callers

variable {id : Nat} {caller : Caller}

/-- A caller that was granted or is no longer awaiting is not in the queue. -/
theorem Queue.outside (queue : Queue governor) (found : governor.callers.find id = some caller)
    (left : caller.future = .result ∨ caller.state ≠ .awaiting) :
    caller.waiter ∉ governor.waiters := by
  intro member
  obtain ⟨held, here, -, awaiting, ungranted⟩ := queue.waiting _ member
  rw [(queue.numbered id caller found).1] at here
  obtain rfl := Option.some.inj (found.symm.trans here)
  exact left.elim ungranted fun other => other awaiting

/-- A granted caller has one grant and no more. -/
theorem Queue.granted (queue : Queue governor) (found : governor.callers.find id = some caller)
    (granted : caller.future = .result) (awaiting : caller.state = .awaiting) :
    caller.waiter.Granted (governor.account id) := by
  have charged := queue.charged id caller found
  simpa only [Caller.Charged, awaiting, granted, if_true] using charged

theorem Queue.ungranted (queue : Queue governor) (found : governor.callers.find id = some caller)
    (ungranted : caller.future ≠ .result) (awaiting : caller.state = .awaiting) :
    governor.account id = [] := by
  have charged := queue.charged id caller found
  simpa only [Caller.Charged, awaiting, ungranted, if_false] using charged

theorem Inv.admitted {last : ℚ} (inv : Inv governor now)
    (found : governor.callers.find id = some caller) (granted : caller.future = .result)
    (awaiting : caller.state = .awaiting) : Inv (governor.admitted last id caller) now := by
  have charged := inv.queue.granted found granted awaiting
  exact inv.setCaller found rfl (fun pending => pending)
    (fun inside => absurd inside (inv.queue.outside found (.inl granted))) charged

theorem Inv.cancel (inv : Inv governor now) (found : governor.callers.find id = some caller)
    (awaiting : caller.state = .awaiting) : Inv (governor.cancel id caller) now := by
  unfold TokenRateGovernor.cancel
  split
  next pending =>
    refine inv.setCaller found rfl (fun still => nomatch still)
      (fun _ => ⟨awaiting, fun granted => nomatch granted⟩) ?_
    have ungranted : caller.future ≠ .result := by rw [pending]; decide
    have none := inv.queue.ungranted found ungranted awaiting
    simpa [Caller.Charged, awaiting] using none
  next granted =>
    refine inv.setCaller found rfl (fun pending => pending)
      (fun inside => absurd inside (inv.queue.outside found (.inl granted))) ?_
    simpa only [Caller.Charged] using inv.queue.charged id caller found
  · exact inv

/-- A cancelled caller leaves the queue, or its tokens are credited when it was just granted. -/
theorem Inv.resume (inv : Inv governor now) (ordered : now ≤ later)
    (found : governor.callers.find id = some caller) (awaiting : caller.state = .awaiting) :
    Inv (governor.resume now later id caller) later := by
  have removed (done : caller.future ≠ .pending) (none : governor.account id = []) :
      Inv (((governor.setCaller id { caller with state := .cancelled }).remove
        caller.waiter).pump now) later := by
    have kept : Caller.Charged { caller with state := .cancelled } (governor.account id ++ []) := by
      rw [List.append_nil]
      exact .inl none
    have sound : Sound ((governor.setCaller id { caller with state := .cancelled }).remove
        caller.waiter) :=
      { levels := inv.levels.congr rfl rfl rfl rfl
        orderly := inv.orderly
        queue := inv.queue.change found (fun other => Table.find_put ..)
          (List.append_nil _).symm rfl rfl (by simp) kept (.inl ⟨rfl, done⟩) }
    exact (sound.pump inv.upTo).mono ordered
  unfold TokenRateGovernor.resume
  split
  next pending => exact inv.mono ordered
  next granted =>
    have outside := inv.queue.outside found (.inl granted)
    split
    · refine inv.toSound.credit inv.upTo ordered found rfl rfl outside fun level => ?_
      obtain ⟨time, left, queue, paused, entries⟩ := inv.queue.granted found granted awaiting
      rw [entries]
      refine .inr ⟨time, left, queue, paused, now, level, ?_⟩
      rw [(inv.queue.numbered id caller found).1]
      rfl
    · exact (inv.admitted found granted awaiting).mono ordered
  next cancelled =>
    have ungranted : caller.future ≠ .result := by rw [cancelled]; decide
    have none := inv.queue.ungranted found ungranted awaiting
    dsimp only
    split
    · exact removed (by rw [cancelled]; decide) none
    next outside =>
      have kept : Caller.Charged { caller with state := .cancelled } (governor.account id) :=
        .inl none
      have left : Inv (governor.setCaller id { caller with state := .cancelled }) now :=
        inv.setCaller found rfl (fun pending => pending) (fun inside => absurd inside outside) kept
      exact left.mono ordered

/-- An open admission is credited and closed; another one is left alone. -/
theorem Inv.close {tokens : Admission → ℚ} (inv : Inv governor now) (ordered : now ≤ later)
    (found : governor.callers.find id = some caller) :
    Inv (governor.close now later id caller tokens) later := by
  unfold TokenRateGovernor.close
  split
  next admission admitted =>
    split
    next opened =>
      have outside := inv.queue.outside found (.inr (by rw [admitted]; exact fun same => nomatch same))
      refine inv.toSound.credit inv.upTo ordered found rfl rfl outside fun level => ?_
      have charged := inv.queue.charged id caller found
      simp only [Caller.Charged, admitted, opened, if_true] at charged
      obtain ⟨time, left, queue, paused, entries⟩ := charged
      rw [entries]
      refine ⟨tokens admission, time, left, queue, paused, now, level, ?_⟩
      rw [(inv.queue.numbered id caller found).1]
      rfl
    · exact inv.mono ordered
  · exact inv.mono ordered

end Callers

theorem Inv.request {key : String} {tokens : Nat} {priority : Int} {enqueued : Option ℚ} {last : ℚ}
    (inv : Inv governor now) (ordered : now ≤ later) (ended : later ≤ last) :
    Inv (governor.request now key tokens priority enqueued later last) last := by
  let waiter : Waiter :=
    { key, tokens, priority, sequence := governor.nextSequence, enqueued := enqueued.getD now }
  let queued : TokenRateGovernor :=
    { governor with
      waiters := governor.waiters ++ [waiter]
      nextSequence := governor.nextSequence + 1
      callers := governor.callers.put governor.nextSequence { waiter } }
  have sound : Sound queued :=
    { levels := inv.levels.congr rfl rfl rfl rfl
      orderly := inv.orderly
      queue := inv.queue.enqueue rfl rfl rfl rfl rfl }
  have pumped : Inv (queued.pump later) later :=
    sound.pump fun updated known => (inv.upTo updated known).trans ordered
  have awaiting := @pump_awaiting queued later governor.nextSequence fun caller found => by
    obtain rfl := Option.some.inj ((Table.find_put_self ..).symm.trans found)
    rfl
  unfold TokenRateGovernor.request
  dsimp only
  split
  next caller found =>
    split
    next granted => exact (pumped.admitted found granted (awaiting caller found)).mono ended
    · exact pumped.mono ended
  · exact pumped.mono ended

theorem Inv.throttled {waitSeconds : ℚ} (inv : Inv governor now) (ordered : now ≤ later) :
    Inv (governor.throttled now later waitSeconds) later := by
  have filled := inv.levels.refill inv.upTo
  refine Sound.pump ⟨?_, inv.orderly, inv.queue.congr rfl rfl rfl rfl⟩ fun updated known => ?_
  · refine filled.ease rfl rfl ((min_le_left _ _).trans filled.level) fun before known => ?_
    exact ⟨before, known, le_refl _, by simp⟩
  · exact Option.some.inj known ▸ ordered

theorem Inv.snapshot (inv : Inv governor now) : Inv (governor.refill now) now where
  levels := inv.levels.refill inv.upTo
  orderly := inv.orderly
  queue := inv.queue.congr rfl rfl rfl rfl
  armed := inv.armed
  upTo _ known := (Option.some.inj known).ge

theorem cancel_clock {id : Nat} {caller : Caller} :
    (governor.cancel id caller).clock = governor.clock := by
  unfold TokenRateGovernor.cancel
  split <;> rfl

/-- Every label keeps all of it. -/
theorem Inv.step (inv : Inv governor governor.clock) (label : GovernorLabel) :
    Inv (governor.step label) (governor.step label).clock := by
  have from' (time : ℚ) : Inv governor (max governor.clock time) := inv.mono (le_max_left _ _)
  cases label with
  | request key tokens priority enqueued now later last =>
    simp only [TokenRateGovernor.step]
    split
    · exact inv
    · exact ((from' now).request (le_max_left _ _) (le_max_left _ _)).ticked
  | cancel id =>
    simp only [TokenRateGovernor.step, onCaller]
    split
    next caller found =>
      split
      next awaiting =>
        have kept := inv.cancel found awaiting
        rw [cancel_clock]
        exact kept
      · exact inv
    · exact inv
  | resume id now later =>
    simp only [TokenRateGovernor.step, onCaller]
    split
    next caller found =>
      split
      next awaiting => exact ((from' now).resume (le_max_left _ _) found awaiting).ticked
      · exact inv
    · exact inv
  | settle id actualTokens now later =>
    simp only [TokenRateGovernor.step, onCaller]
    split
    next caller found => exact ((from' now).close (le_max_left _ _) found).ticked
    · exact inv
  | release id now later =>
    simp only [TokenRateGovernor.step, onCaller]
    split
    next caller found => exact ((from' now).close (le_max_left _ _) found).ticked
    · exact inv
  | throttled waitSeconds now later =>
    exact ((from' now).throttled (le_max_left _ _)).ticked
  | snapshot now => exact (from' now).snapshot.ticked
  | timer now =>
    simp only [TokenRateGovernor.step]
    split
    · exact ((from' now).toSound.pump (from' now).upTo).ticked
    · exact inv

theorem Inv.start (config : GovernorConfig) (clock : ℚ) :
    Inv { config, clock } clock where
  levels :=
    { level := le_refl _
      chain := List.isChain_nil
      full := fun _ listed => nomatch listed
      floor := fun _ listed => nomatch listed
      current := fun _ found => nomatch found }
  orderly := fun _ listed => nomatch listed
  queue :=
    { distinct := List.nodup_nil
      waiting := fun _ member => nomatch member
      numbered := fun _ _ found => nomatch found
      queued := fun _ _ found => nomatch found
      charged := fun _ _ found => nomatch found
      uncharged := fun _ _ => rfl }
  armed := fun waits => absurd rfl waits
  upTo := fun _ known => nomatch known

/-! ### Runs -/

/-- The configuration and the rate of the last cut. -/
def terms (governor : TokenRateGovernor) : GovernorConfig × ℚ :=
  (governor.config, governor.cutRate)

@[simp] theorem pumpLoop_terms {fuel : Nat} : (pumpLoop now fuel governor).terms = governor.terms :=
  pumpLoop_rule (fun other => other.terms = governor.terms) (fun _ _ same => same)
    (fun _ _ _ same _ _ _ => same) (fun _ _ _ same _ _ _ _ _ _ => same) rfl

@[simp] theorem refill_terms : (governor.refill now).terms = governor.terms := rfl

@[simp] theorem pump_terms : (governor.pump now).terms = governor.terms := pumpLoop_terms

@[simp] theorem setCaller_terms {id : Nat} {caller : Caller} :
    (governor.setCaller id caller).terms = governor.terms := rfl

@[simp] theorem remove_terms {waiter : Waiter} :
    (governor.remove waiter).terms = governor.terms := rfl

@[simp] theorem admitted_terms {id : Nat} {caller : Caller} :
    (governor.admitted now id caller).terms = governor.terms := rfl

@[simp] theorem ticked_terms : (governor.ticked now).terms = governor.terms := rfl

@[simp] theorem credit_terms {sequence : Nat} {tokens : ℚ} :
    (governor.credit now sequence tokens later).terms = governor.terms := by
  unfold credit
  rw [pump_terms]
  rfl

@[simp] theorem request_terms {key : String} {tokens : Nat} {priority : Int} {enqueued : Option ℚ}
    {last : ℚ} :
    (governor.request now key tokens priority enqueued later last).terms = governor.terms := by
  let id := governor.nextSequence
  let waiter : Waiter := { key, tokens, priority, sequence := id, enqueued := enqueued.getD now }
  have pumped : (TokenRateGovernor.pump { governor with
      waiters := governor.waiters ++ [waiter]
      nextSequence := id + 1
      callers := governor.callers.put id { waiter } } later).terms = governor.terms := pump_terms
  unfold request
  dsimp only
  split
  · split
    · exact admitted_terms.trans pumped
    · exact pumped
  · exact pumped

@[simp] theorem cancel_terms {id : Nat} {caller : Caller} :
    (governor.cancel id caller).terms = governor.terms := by
  unfold cancel
  split <;> rfl

@[simp] theorem resume_terms {id : Nat} {caller : Caller} :
    (governor.resume now later id caller).terms = governor.terms := by
  unfold resume
  split
  · rfl
  · split
    · dsimp only
      split <;> simp
    · rfl
  · dsimp only
    split <;> simp

@[simp] theorem close_terms {id : Nat} {caller : Caller} {tokens : Admission → ℚ} :
    (governor.close now later id caller tokens).terms = governor.terms := by
  unfold close
  split
  · split <;> simp
  · rfl

/-- A throttle cuts the rate to no less than one token a minute. -/
theorem throttled_terms {waitSeconds : ℚ} :
    (governor.throttled now later waitSeconds).config = governor.config ∧
      (1 ≤ governor.cutRate → 1 ≤ (governor.throttled now later waitSeconds).cutRate) := by
  have kept (other : TokenRateGovernor) : (other.pump later).terms = other.terms := pump_terms
  unfold throttled
  refine ⟨congrArg Prod.fst (kept _), fun positive => ?_⟩
  have cutRate (other : TokenRateGovernor) : (other.pump later).cutRate = other.cutRate :=
    congrArg Prod.snd (kept other)
  rw [cutRate]
  dsimp only
  split
  · exact le_max_left _ _
  · exact positive

/-- Every label keeps the configuration and a positive rate. -/
theorem step_terms (label : GovernorLabel) :
    (governor.step label).config = governor.config ∧
      (1 ≤ governor.cutRate → 1 ≤ (governor.step label).cutRate) := by
  have same (after : TokenRateGovernor) (kept : after.terms = governor.terms) :
      after.config = governor.config ∧ (1 ≤ governor.cutRate → 1 ≤ after.cutRate) := by
    obtain ⟨config, cutRate⟩ := Prod.mk.inj kept
    exact ⟨config, fun positive => by rw [cutRate]; exact positive⟩
  cases label with
  | request key tokens priority enqueued now later last =>
    apply same
    simp only [step]
    split <;> simp
  | cancel id | resume id now later =>
    apply same
    simp only [step, onCaller]
    split
    · split <;> simp
    · rfl
  | settle id actualTokens now later | release id now later =>
    apply same
    simp only [step, onCaller]
    split
    · simp [settle, release]
    · rfl
  | throttled waitSeconds now later => exact throttled_terms
  | snapshot now =>
    apply same
    simp [step]
  | timer now =>
    apply same
    simp only [step]
    split <;> simp

/-- A cut never stops the refill. -/
theorem one_le_rate (positive : 1 ≤ governor.cutRate) : 1 ≤ governor.rate now := by
  have limit : (1 : ℚ) ≤ governor.config.tokensPerMinute :=
    Nat.one_le_cast.mpr governor.config.ratePositive
  unfold rate
  split
  · exact limit
  next cutAt _ =>
    refine le_min limit (positive.trans ?_)
    have recovered : (0 : ℚ) ≤
        1 / 20 * governor.config.tokensPerMinute * max 0 (now - cutAt) / 10 := by positivity
    linarith

theorem run_inv (config : GovernorConfig) (start : ℚ) (labels : List GovernorLabel) :
    (run config start labels).config = config ∧ 1 ≤ (run config start labels).cutRate ∧
      Inv (run config start labels) (run config start labels).clock := by
  refine Transition.run_always (fun governor =>
    governor.config = config ∧ 1 ≤ governor.cutRate ∧ Inv governor governor.clock) labels
    ⟨rfl, Nat.one_le_cast.mpr config.ratePositive, Inv.start config start⟩ ?_
  rintro governor label ⟨same, positive, inv⟩
  obtain ⟨config, cut⟩ := step_terms label
  exact ⟨config.trans same, cut positive, inv.step label⟩

end TokenRateGovernor

end PhysHarness
