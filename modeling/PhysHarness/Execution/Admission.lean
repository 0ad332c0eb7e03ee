import Mathlib.Algebra.Order.Ring.Unbundled.Rat
import Mathlib.Data.Rat.Floor
import PhysHarness.Lib.Table
import PhysHarness.Lib.Transition

/-!
Process-wide admission of provider requests by estimated tokens per minute.

One token bucket for all runtimes of an event loop. Times and levels are exact rationals. Between two
awaits a method runs alone, so a label is one method call, one resumption of a waiting caller or one
firing of the timer, with the readings of a clock that never goes back. The history is what was
granted and credited.
-/
namespace PhysHarness

/-- What the constructor accepts. -/
structure GovernorConfig where
  tokensPerMinute : Nat
  burstTokens : Option Nat := none
  agingSeconds : ℚ := 30
  ratePositive : 1 ≤ tokensPerMinute := by decide
  burstPositive : burstTokens ≠ some 0 := by decide
  agingPositive : 0 < agingSeconds := by decide

/-- The default bucket holds fifteen seconds of tokens. -/
def GovernorConfig.capacity (config : GovernorConfig) : ℚ :=
  match config.burstTokens with
  | some burst => burst
  | none => config.tokensPerMinute * 15 / 60

structure Admission where
  key : String
  tokens : Nat
  waitedSeconds : ℚ
  enqueued : ℚ
  isOpen : Bool := true
  deriving DecidableEq

structure Waiter where
  key : String
  tokens : Nat
  priority : Int
  sequence : Nat
  enqueued : ℚ
  deriving DecidableEq

inductive FutureState where
  | pending | result | cancelled
  deriving DecidableEq

/-- What became of a call of `admit`. -/
inductive CallerState where
  | awaiting
  | admitted (admission : Admission)
  | cancelled
  deriving DecidableEq

/-- One call of `admit`: its waiter, the future that it awaits, and whether its task was cancelled
after the future was done. -/
structure Caller where
  waiter : Waiter
  future : FutureState := .pending
  cancelRequested : Bool := false
  state : CallerState := .awaiting
  deriving DecidableEq

/-- A movement of tokens with the level that it left; a grant with the queue and the pause that it
found. -/
inductive Charge where
  | grant (waiter : Waiter) (time level : ℚ) (queue : List Waiter) (pausedUntil : ℚ)
  | credit (sequence : Nat) (tokens : ℚ) (time level : ℚ)
  deriving DecidableEq

structure TokenRateGovernor where
  config : GovernorConfig
  level : ℚ := config.capacity
  pausedUntil : ℚ := 0
  cutRate : ℚ := config.tokensPerMinute
  cutAt : Option ℚ := none
  updated : Option ℚ := none
  waiters : List Waiter := []
  nextSequence : Nat := 0
  timer : Option ℚ := none
  callers : Table Nat Caller := ∅
  clock : ℚ
  history : List Charge := []

/-- One class per whole aging period waited; the lowest rank goes first. -/
def Waiter.rank (waiter : Waiter) (aging now : ℚ) : Int :=
  waiter.priority - ⌊(now - waiter.enqueued) / aging⌋

/-- The order of the queue. -/
def Waiter.precedes (first second : Waiter) (aging now : ℚ) : Bool :=
  first.rank aging now < second.rank aging now ||
    (first.rank aging now = second.rank aging now && first.sequence ≤ second.sequence)

/-- The first waiter in the order of the queue. -/
def headOf (aging now : ℚ) (first : Waiter) : List Waiter → Waiter
  | [] => first
  | next :: rest => headOf aging now (if first.precedes next aging now then first else next) rest

namespace TokenRateGovernor

variable (governor : TokenRateGovernor) (now : ℚ)

/-- A cut recovers by a twentieth of the limit every ten seconds. -/
def rate : ℚ :=
  let limit : ℚ := governor.config.tokensPerMinute
  match governor.cutAt with
  | none => limit
  | some cutAt => min limit (governor.cutRate + 1 / 20 * limit * max 0 (now - cutAt) / 10)

/-- Nothing accrues during a pause. -/
def refill : TokenRateGovernor :=
  { governor with
    level :=
      match governor.updated with
      | none => governor.level
      | some updated =>
        let start := max updated governor.pausedUntil
        if start < now then
          min governor.config.capacity
            (governor.level + (now - start) * governor.rate now / 60)
        else governor.level
    updated := some now }

def schedule (delay : ℚ) : TokenRateGovernor :=
  { governor with timer := some (now + max delay (1 / 1000)) }

def setCaller (id : Nat) (caller : Caller) : TokenRateGovernor :=
  { governor with callers := governor.callers.put id caller }

/-- Take the waiter off the queue. -/
def remove (waiter : Waiter) : TokenRateGovernor :=
  { governor with waiters := governor.waiters.erase waiter }

/-- `head.future.set_result(None)` for a waiter whose tokens are taken. -/
def grant (head : Waiter) (caller : Caller) : TokenRateGovernor :=
  let level := governor.level - head.tokens
  { (governor.remove head).setCaller head.sequence { caller with future := .result } with
    level
    history := governor.history ++
      [.grant head now level governor.waiters governor.pausedUntil] }

/-- Grant in order while the bucket allows it. Each turn takes a waiter off the queue, so its length
is fuel enough. -/
def pumpLoop (now : ℚ) : Nat → TokenRateGovernor → TokenRateGovernor
  | 0, governor => governor
  | fuel + 1, governor =>
    match governor.waiters with
    | [] => governor
    | first :: rest =>
      if now < governor.pausedUntil then governor.schedule now (governor.pausedUntil - now)
      else
        let head := headOf governor.config.agingSeconds now first rest
        match governor.callers.find head.sequence with
        | none => governor
        | some caller =>
          if caller.future ≠ .pending then pumpLoop now fuel (governor.remove head)
          else
            let need : ℚ := min head.tokens governor.config.capacity
            if governor.level < need then
              governor.schedule now ((need - governor.level) * 60 / governor.rate now)
            else pumpLoop now fuel (governor.grant now head caller)

def pump : TokenRateGovernor :=
  let cleared := { governor with timer := none }.refill now
  pumpLoop now (cleared.waiters.length + 1) cleared

/-- Give tokens back, or take them when the amount is negative; the loop reads the clock again. -/
def credit (sequence : Nat) (tokens : ℚ) (later : ℚ) : TokenRateGovernor :=
  let filled := governor.refill now
  let level := min filled.config.capacity (filled.level + tokens)
  { filled with
    level
    history := filled.history ++ [Charge.credit sequence tokens now level] }.pump later

/-- Return from `await waiter.future` with an admission. -/
def admitted (id : Nat) (caller : Caller) : TokenRateGovernor :=
  governor.setCaller id
    { caller with
      state := .admitted
        { key := caller.waiter.key
          tokens := caller.waiter.tokens
          waitedSeconds := now - caller.waiter.enqueued
          enqueued := caller.waiter.enqueued } }

/-- `admit` up to its first suspension; a granted request does not suspend. -/
def request (key : String) (tokens : Nat) (priority : Int) (enqueued : Option ℚ)
    (later last : ℚ) : TokenRateGovernor :=
  let id := governor.nextSequence
  let waiter : Waiter :=
    { key, tokens, priority, sequence := id, enqueued := enqueued.getD now }
  let queued :=
    { governor with
      waiters := governor.waiters ++ [waiter]
      nextSequence := id + 1
      callers := governor.callers.put id { waiter } }.pump later
  match queued.callers.find id with
  | some caller => if caller.future = .result then queued.admitted last id caller else queued
  | none => queued

/-- Cancel the task of a waiting caller: the future that it awaits, or its next step. -/
def cancel (id : Nat) (caller : Caller) : TokenRateGovernor :=
  match caller.future with
  | .pending => governor.setCaller id { caller with future := .cancelled }
  | .result => governor.setCaller id { caller with cancelRequested := true }
  | .cancelled => governor

/-- The waiting caller runs again: its future is done. -/
def resume (later : ℚ) (id : Nat) (caller : Caller) : TokenRateGovernor :=
  match caller.future with
  | .pending => governor
  | .result =>
    if caller.cancelRequested then
      let gone := governor.setCaller id { caller with state := .cancelled }
      if caller.waiter ∈ governor.waiters then (gone.remove caller.waiter).pump now
      else gone.credit now id caller.waiter.tokens later
    else governor.admitted now id caller
  | .cancelled =>
    let gone := governor.setCaller id { caller with state := .cancelled }
    if caller.waiter ∈ governor.waiters then (gone.remove caller.waiter).pump now else gone

/-- Close an open admission and credit the tokens. -/
def close (later : ℚ) (id : Nat) (caller : Caller) (tokens : Admission → ℚ) : TokenRateGovernor :=
  match caller.state with
  | .admitted admission =>
    if admission.isOpen then
      (governor.setCaller id { caller with
        state := .admitted { admission with isOpen := false } }).credit now id (tokens admission)
          later
    else governor
  | _ => governor

/-- Charge actual use: refund an overestimate or take an underestimate. -/
def settle (later : ℚ) (id : Nat) (caller : Caller) (actualTokens : Int) : TokenRateGovernor :=
  governor.close now later id caller fun admission => admission.tokens - max 0 (actualTokens : ℚ)

/-- Return every admitted token: the request was never sent. -/
def release (later : ℚ) (id : Nat) (caller : Caller) : TokenRateGovernor :=
  governor.close now later id caller fun admission => admission.tokens

/-- A provider 429: pause every admission, cut the rate and spend what the bucket holds. -/
def throttled (later : ℚ) (waitSeconds : ℚ) : TokenRateGovernor :=
  let filled := governor.refill now
  let cut := filled.pausedUntil ≤ now ∧ filled.cutAt.all fun cutAt => 30 ≤ now - cutAt
  { filled with
    cutRate := if cut then max 1 (filled.rate now * (4 / 5)) else filled.cutRate
    cutAt := if cut then some now else filled.cutAt
    level := min filled.level 0
    pausedUntil := max filled.pausedUntil (now + max 0 waitSeconds) }.pump later

end TokenRateGovernor

/-- One method call, resumption or timer firing with what the clock shows, reading after reading. -/
inductive GovernorLabel where
  | request (key : String) (tokens : Int) (priority : Int) (enqueued : Option ℚ)
      (now later last : ℚ)
  | cancel (id : Nat)
  | resume (id : Nat) (now later : ℚ)
  | settle (id : Nat) (actualTokens : Int) (now later : ℚ)
  | release (id : Nat) (now later : ℚ)
  | throttled (waitSeconds : ℚ) (now later : ℚ)
  | snapshot (now : ℚ)
  | timer (now : ℚ)

namespace TokenRateGovernor

/-- The clock shows no less than it did. -/
def ticked (governor : TokenRateGovernor) (time : ℚ) : TokenRateGovernor :=
  { governor with clock := max governor.clock time }

def onCaller (governor : TokenRateGovernor) (id : Nat)
    (method : Caller → TokenRateGovernor) : TokenRateGovernor :=
  match governor.callers.find id with
  | some caller => method caller
  | none => governor

def step (governor : TokenRateGovernor) : GovernorLabel → TokenRateGovernor
  | .request key tokens priority enqueued now later last =>
    if tokens < 0 then governor
    else
      let now := max governor.clock now
      let later := max now later
      let last := max later last
      (governor.request now key tokens.toNat priority enqueued later last).ticked last
  | .cancel id =>
    governor.onCaller id fun caller =>
      if caller.state = .awaiting then governor.cancel id caller else governor
  | .resume id now later =>
    let now := max governor.clock now
    let later := max now later
    governor.onCaller id fun caller =>
      if caller.state = .awaiting then (governor.resume now later id caller).ticked later
      else governor
  | .settle id actualTokens now later =>
    let now := max governor.clock now
    let later := max now later
    governor.onCaller id fun caller => (governor.settle now later id caller actualTokens).ticked later
  | .release id now later =>
    let now := max governor.clock now
    let later := max now later
    governor.onCaller id fun caller => (governor.release now later id caller).ticked later
  | .throttled waitSeconds now later =>
    let now := max governor.clock now
    let later := max now later
    (governor.throttled now later waitSeconds).ticked later
  | .snapshot now =>
    let now := max governor.clock now
    (governor.refill now).ticked now
  | .timer now =>
    let now := max governor.clock now
    if governor.timer.isSome then (governor.pump now).ticked now else governor

/-- Every state that a governor reaches. -/
def run (config : GovernorConfig) (start : ℚ) (labels : List GovernorLabel) : TokenRateGovernor :=
  Transition.run step { config, clock := start } labels

end TokenRateGovernor

end PhysHarness
