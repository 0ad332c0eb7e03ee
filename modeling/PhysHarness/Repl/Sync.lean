import PhysHarness.Repl.Requests

/-!
# Sessions stay in step

Every command that is sent refers only to what its own process gave out, and the response that is read is the
one to it. The process is discarded when a send fails, with what the session kept of it.

Main result: `session_in_step`.
-/
namespace PhysHarness

namespace Repl

open Effect Python

/-! ### What was given out -/

/-- The process returned the environment for this command. -/
def Returned (log : List Exchange) (process : Nat) (command : Command) (env : Json) : Prop :=
  ∃ exchange ∈ log, exchange.process = process ∧ exchange.command = command ∧
    ∃ number response, exchange.reply = some (number, .object response) ∧ lookup response "env" = env

/-- A response has the proof state, as its own or as one of its holes'. -/
def Offers (response : Record) (state : Json) : Prop :=
  lookup response "proofState" = state ∨
    ∃ holes hole, lookup response "sorries" = .arr holes ∧ .obj hole ∈ holes ∧ lookup hole "proofState" = state

/-- The process issued the proof state. -/
def Issued (log : List Exchange) (process : Nat) (state : Json) : Prop :=
  ∃ exchange ∈ log, exchange.process = process ∧
    ∃ number response, exchange.reply = some (number, .object response) ∧ Offers response state

/-- The command that a check sends for the body of its source. -/
inductive BodyCommand (log : List Exchange) (process : Nat) (source : String) : Command → Prop
  | plain (header : (splitHeader source.toList).1 = []) :
      BodyCommand log process source (.cmd (.ofList (splitHeader source.toList).2) none)
  | headed {env : Json} (header : (splitHeader source.toList).1 ≠ [])
      (returned : Returned log process (.cmd (.ofList (splitHeader source.toList).1) none) env) :
      BodyCommand log process source (.cmd (.ofList (splitHeader source.toList).2) (some env))

section

variable [FloatValue]

/-- What a request may send to a process that answered the log. -/
inductive Fits (request : Record) (log : List Exchange) (process : Nat) : Command → Prop
  | header {check : CheckRequest} (own : checkRequest request = some check)
      (some_ : (splitHeader check.source.toList).1 ≠ []) :
      Fits request log process (.cmd (.ofList (splitHeader check.source.toList).1) none)
  | body {check : CheckRequest} {command : Command} (own : checkRequest request = some check)
      (body : BodyCommand log process check.source command) : Fits request log process command
  | report {check : CheckRequest} {command : Command} {env : Json} (own : checkRequest request = some check)
      (body : BodyCommand log process check.source command) (returned : Returned log process command env) :
      Fits request log process
        (.cmd ("\n".intercalate (check.names.map fun name => "#print axioms " ++ name)) (some env))
  | tactic {text : String} {state : Json} (issued : Issued log process state)
      (generation : same (lookup request "op") (.str "tactics") = true → ∀ given,
        Dict.get request "generation" = some given → same given (.int process) = true) :
      Fits request log process (.tactic text state)

/-- An exchange that is in step: the command fits, it is sent to the newest process, and what is read answers
it. -/
structure InStep (request : Record) (log : List Exchange) (exchange : Exchange) : Prop where
  fits : Fits request log exchange.process exchange.command
  newest : ∀ earlier ∈ log, earlier.process ≤ exchange.process
  answers : ∀ number reply, exchange.reply = some (number, reply) → number = exchange.number

/-- Everything that was sent behind a log is in step. -/
def Sends (request : Record) (log sent : List Exchange) : Prop :=
  ∀ earlier exchange later, sent = earlier ++ exchange :: later → InStep request (log ++ earlier) exchange

/-! ### Growing logs -/

omit [FloatValue] in
theorem Returned.mono {log longer : List Exchange} {process : Nat} {command : Command} {env : Json}
    (returned : Returned log process command env) (part : log ⊆ longer) : Returned longer process command env := by
  obtain ⟨exchange, member, rest⟩ := returned
  exact ⟨exchange, part member, rest⟩

omit [FloatValue] in
theorem Issued.mono {log longer : List Exchange} {process : Nat} {state : Json}
    (issued : Issued log process state) (part : log ⊆ longer) : Issued longer process state := by
  obtain ⟨exchange, member, rest⟩ := issued
  exact ⟨exchange, part member, rest⟩

omit [FloatValue] in
theorem BodyCommand.mono {log longer : List Exchange} {process : Nat} {source : String} {command : Command}
    (body : BodyCommand log process source command) (part : log ⊆ longer) :
    BodyCommand longer process source command := by
  cases body with
  | plain header => exact .plain header
  | headed header returned => exact .headed header (returned.mono part)

theorem Sends.nil {request : Record} {log : List Exchange} : Sends request log [] := by
  intro earlier exchange later same
  exact absurd same (by simp)

theorem Sends.snoc {request : Record} {log sent : List Exchange} {exchange : Exchange}
    (sends : Sends request log sent) (next : InStep request (log ++ sent) exchange) :
    Sends request log (sent ++ [exchange]) := by
  intro earlier other later same
  rcases List.append_eq_append_iff.mp same with ⟨more, front, back⟩ | ⟨more, front, back⟩
  · cases more with
    | nil =>
      obtain ⟨rfl, -⟩ := List.cons.inj back
      rw [List.append_nil] at front
      exact front ▸ next
    | cons first more => simp at back
  · cases more with
    | nil =>
      rw [List.append_nil] at front
      obtain ⟨rfl, -⟩ := List.cons.inj (show other :: later = [exchange] from back)
      exact front ▸ next
    | cons first more =>
      obtain ⟨rfl, rfl⟩ := List.cons.inj back
      exact sends earlier other more front

/-! ### Sessions -/

/-- A process whose commands are all answered and read. -/
structure Settled (process : Process) : Prop where
  pending : process.pending = []
  unread : process.unread = []

/-- What a session keeps comes from its process, and that process is in step. -/
structure Kept (machine : Machine) : Prop where
  generation : machine.spawned = machine.session.generation
  live : ∀ process, machine.session.repl = some process → process.id = machine.spawned ∧ Settled process
  envs : ∀ header env messages, (header, env, messages) ∈ machine.session.envs →
    ∃ process, machine.session.repl = some process ∧ Returned machine.log process.id (.cmd header none) env
  states : ∀ state ∈ machine.session.proofStates, isInteger state = true ∧
    ∃ process, machine.session.repl = some process ∧ Issued machine.log process.id state
  past : ∀ exchange ∈ machine.log, exchange.process ≤ machine.spawned

omit [FloatValue] in
theorem kept_start : Kept {} where
  generation := rfl
  live _ none := by cases none
  envs _ _ _ none := by cases none
  states _ none := by cases none
  past _ none := by cases none

/-- Nothing is kept of a process. -/
structure Discarded (machine : Machine) : Prop where
  repl : machine.session.repl = none
  envs : machine.session.envs = []
  proofStates : machine.session.proofStates = []

omit [FloatValue] in
theorem Kept.discarded {machine : Machine} (kept : Kept machine) (none_ : machine.session.repl = none) :
    Discarded machine where
  repl := none_
  envs := by
    apply List.eq_nil_iff_forall_not_mem.mpr
    rintro ⟨header, env, messages⟩ member
    obtain ⟨process, some_, -⟩ := kept.envs header env messages member
    rw [none_] at some_
    cases some_
  proofStates := by
    apply List.eq_nil_iff_forall_not_mem.mpr
    intro state member
    obtain ⟨-, process, some_, -⟩ := kept.states state member
    rw [none_] at some_
    cases some_

omit [FloatValue] in
theorem Kept.reset {machine : Machine} (kept : Kept machine) : Kept machine.reset where
  generation := kept.generation
  live _ none := by cases none
  envs _ _ _ none := by cases none
  states _ none := by cases none
  past := kept.past

/-- A request is served so far: from this log on, everything it sent is in step. -/
structure Serving (request : Record) (log : List Exchange) (machine : Machine) : Prop where
  kept : Kept machine
  sent : ∃ sent, machine.log = log ++ sent ∧ Sends request log sent

/-- The process with this number is in use, and it has answered these exchanges. -/
structure Using (request : Record) (log : List Exchange) (id : Nat) (known : List Exchange) (machine : Machine) :
    Prop where
  serving : Serving request log machine
  process : ∃ process, machine.session.repl = some process ∧ process.id = id
  known : known ⊆ machine.log

/-- A program ends with an error: one of the REPL discards the process, unless the budget was exhausted, which
leaves what is kept. -/
def Fails (request : Record) (log : List Exchange) (keeps : Machine → Prop) (failure : Failure) (machine : Machine) :
    Prop :=
  Serving request log machine ∧ ∀ code detail, failure = .repl code detail →
    (code = .budgetExhausted ∧ keeps machine) ∨ (code ≠ .budgetExhausted ∧ Discarded machine)

omit [FloatValue] in
theorem Kept.congr {machine other : Machine} (kept : Kept machine) (spawned : other.spawned = machine.spawned)
    (generation : other.session.generation = machine.session.generation)
    (repl : other.session.repl = machine.session.repl) (envs : other.session.envs = machine.session.envs)
    (states : other.session.proofStates = machine.session.proofStates) (log : other.log = machine.log) :
    Kept other where
  generation := by rw [spawned, generation, kept.generation]
  live := by rw [repl, spawned]; exact kept.live
  envs := by rw [repl, envs, log]; exact kept.envs
  states := by rw [repl, states, log]; exact kept.states
  past := by rw [log, spawned]; exact kept.past

/-! ### One call -/

/-- One command waits for its response, or the response waits to be read. -/
inductive Awaits (number : Nat) (process : Process) : Prop
  | pending (pending : process.pending = [number]) (unread : process.unread = [])
  | arrived (reply : Reply) (pending : process.pending = []) (unread : process.unread = [(number, reply)])

omit [FloatValue] in
theorem Awaits.arrive {number : Nat} {process : Process} (awaits : Awaits number process) (arrival : Nat × Reply) :
    Awaits number (process.arrive arrival) := by
  cases awaits with
  | pending pending unread =>
    unfold Process.arrive
    rw [pending]
    obtain ⟨position, reply⟩ := arrival
    cases position with
    | zero => exact .arrived reply rfl (by rw [unread]; rfl)
    | succ position => exact .pending pending unread
  | arrived reply pending unread =>
    unfold Process.arrive
    rw [pending]
    exact .arrived reply pending unread

omit [FloatValue] in
theorem Awaits.arriveAll {number : Nat} (arrivals : List (Nat × Reply)) {process : Process}
    (awaits : Awaits number process) : Awaits number (arrivals.foldl Process.arrive process) := by
  induction arrivals generalizing process with
  | nil => exact awaits
  | cons arrival arrivals ih => exact ih (awaits.arrive arrival)

omit [FloatValue] in
theorem arrive_id (arrivals : List (Nat × Reply)) (process : Process) :
    (arrivals.foldl Process.arrive process).id = process.id := by
  induction arrivals generalizing process with
  | nil => rfl
  | cons arrival arrivals ih =>
    rw [List.foldl_cons, ih, Process.arrive]
    split <;> rfl

omit [FloatValue] in
theorem call_id (process : Process) (weather : Weather) : (process.call weather).1.id = process.id := by
  unfold Process.call
  split
  · rfl
  · dsimp only
    split
    · exact arrive_id _ _
    · exact arrive_id _ _

omit [FloatValue] in
/-- The response that a settled process is read for is the one to the command just written. -/
theorem call_settled {process : Process} (settled : Settled process) {weather : Weather} {number : Nat} {reply : Reply}
    (read : (process.call weather).2 = .ok (number, reply)) :
    number = process.written ∧ Settled (process.call weather).1 := by
  have begins : Awaits process.written process.write :=
    .pending (by rw [Process.write, settled.pending]; rfl) settled.unread
  have awaits := begins.arriveAll weather.arrives
  unfold Process.call at read ⊢
  split at read
  · cases read
  · dsimp only at read ⊢
    cases awaits with
    | pending pending unread =>
      rw [unread] at read
      cases read
    | arrived own pending unread =>
      rw [unread] at read ⊢
      obtain ⟨rfl, -⟩ := Prod.mk.inj (Except.ok.inj read)
      exact ⟨rfl, ⟨pending, rfl⟩⟩

/-! ### Sending -/

variable {world : World} {request : Record} {log known : List Exchange}

theorem Serving.congr {machine other : Machine} (serving : Serving request log machine)
    (kept : Kept other) (same : other.log = machine.log) : Serving request log other where
  kept := kept
  sent := same ▸ serving.sent

theorem Serving.reset {machine : Machine} (serving : Serving request log machine) :
    Serving request log machine.reset :=
  serving.congr serving.kept.reset rfl

/-- What a send leaves, in terms of the state before. -/
structure Sent (request : Record) (log : List Exchange) (command : Command) (before : Machine) (response : Record)
    (machine : Machine) : Prop where
  serving : Serving request log machine
  exchange : ∃ process number, machine.session.repl = some process ∧
    (∀ earlier, before.session.repl = some earlier → process.id = earlier.id) ∧
    machine.log = before.log ++ [⟨process.id, number, command, some (number, .object response)⟩]

/-- Nothing of the session changed. -/
def Unchanged (before machine : Machine) : Prop := machine.session = before.session ∧ machine.log = before.log

/-- A command may be sent: whatever process it is sent to, or to the one in use. -/
def Ready (request : Record) (command : Command) (machine : Machine) : Prop :=
  (∀ id, Fits request machine.log id command) ∨
    ∃ process, machine.session.repl = some process ∧ Fits request machine.log process.id command

omit [FloatValue] in
theorem monotonic_ensures {before : Machine → Prop} {raises : Failure → Machine → Prop}
    (steady : ∀ machine ticks, before machine → before { machine with ticks }) :
    Ensures before (monotonic world) (fun _ => before) raises :=
  fun machine met => steady machine _ met

omit [FloatValue] in
theorem lifted_ensures {α : Type} {value : Option α} {before : Machine → Prop} {raises : Failure → Machine → Prop}
    (failed : ∀ machine, before machine → raises .internal machine) :
    Ensures before (lifted value) (fun result machine => value = some result ∧ before machine) raises := by
  intro machine met
  cases value with
  | none => exact failed machine met
  | some result => exact ⟨rfl, met⟩

/-- A process starts in the place of none. -/
def Machine.started (machine : Machine) : Machine :=
  { machine with
    spawned := machine.spawned + 1
    session :=
      { machine.session with
        repl := some { id := machine.spawned + 1 }, generation := machine.session.generation + 1 } }

omit [FloatValue] in
theorem Kept.started {machine : Machine} (kept : Kept machine) (none_ : machine.session.repl = none) :
    Kept machine.started := by
  have discarded := kept.discarded none_
  constructor
  · exact congrArg (· + 1) kept.generation
  · intro process same
    obtain rfl := Option.some.inj same
    exact ⟨rfl, rfl, rfl⟩
  · intro header env messages member
    rw [show machine.started.session.envs = [] from discarded.envs] at member
    cases member
  · intro state member
    rw [show machine.started.session.proofStates = [] from discarded.proofStates] at member
    cases member
  · exact fun exchange member => (kept.past exchange member).trans (Nat.le_succ _)

/-- The process of a send: the one in use, or a new one. -/
theorem start_ensures {weather : Weather} {command : Command} (before : Machine) :
    Ensures (fun machine => Serving request log machine ∧ machine.session = before.session ∧
        machine.log = before.log ∧ Ready request command before)
      (start weather)
      (fun process machine => Serving request log machine ∧ machine.session.repl = some process ∧
        machine.log = before.log ∧
        (∀ earlier, before.session.repl = some earlier → process = earlier) ∧
        Fits request before.log process.id command)
      (Fails request log (Unchanged before)) := by
  unfold start
  refine bind_ensures (fun read machine => read = machine ∧ Serving request log machine ∧
    machine.session = before.session ∧ machine.log = before.log ∧ Ready request command before)
    (get_ensures fun machine met => ⟨rfl, met⟩) fun read => ?_
  cases used : read.session.repl with
  | some process =>
    refine pure_ensures process ?_
    rintro machine ⟨rfl, serving, session, sameLog, ready⟩
    have own : before.session.repl = some process := session ▸ used
    refine ⟨serving, used, sameLog, fun earlier same => ?_, ?_⟩
    · exact Option.some.inj (own.symm.trans same)
    · rcases ready with every | ⟨other, same, fits⟩
      · exact every process.id
      · obtain rfl := Option.some.inj (own.symm.trans same)
        exact fits
  | none =>
    dsimp only
    cases weather.start with
    | some detail =>
      refine throw_ensures _ ?_
      rintro machine ⟨rfl, serving, -⟩
      refine ⟨serving, fun code detail same => .inr ?_⟩
      obtain ⟨rfl, -⟩ := Failure.repl.inj same
      exact ⟨by decide, serving.kept.discarded used⟩
    | none =>
      refine bind_ensures (fun _ machine => ∃ old : Machine, machine = old.started ∧ old.session.repl = none ∧
        old.spawned = read.spawned ∧ Serving request log old ∧ old.session = before.session ∧
        old.log = before.log ∧ Ready request command before)
        (modify_ensures _ ?_) fun _ => pure_ensures _ ?_
      · rintro machine ⟨rfl, met⟩
        exact ⟨read, rfl, used, rfl, met⟩
      · rintro _ ⟨old, rfl, none_, spawned, serving, session, sameLog, ready⟩
        have own : before.session.repl = none := session ▸ none_
        refine ⟨serving.congr (serving.kept.started none_) rfl, ?_, sameLog, ?_, ?_⟩
        · rw [← spawned]
          rfl
        · intro earlier same
          rw [own] at same
          cases same
        · rcases ready with every | ⟨other, same, -⟩
          · exact every _
          · rw [own] at same
            cases same

/-- A call was made, and this is the process afterwards. -/
def Machine.called (machine : Machine) (process : Process) (exchange : Exchange) : Machine :=
  { machine with
    session := { machine.session with repl := some process }
    log := machine.log ++ [exchange] }

omit [FloatValue] in
theorem Kept.called {machine : Machine} (kept : Kept machine) {process process' : Process}
    (used : machine.session.repl = some process) {exchange : Exchange} (own : exchange.process = process.id)
    (same : process'.id = process.id) (settled : Settled process') : Kept (machine.called process' exchange) := by
  obtain ⟨live, -⟩ := kept.live process used
  have part : machine.log ⊆ machine.log ++ [exchange] := List.subset_append_left _ _
  constructor
  · exact kept.generation
  · intro other same'
    obtain rfl := Option.some.inj same'
    exact ⟨same.trans live, settled⟩
  · intro header env messages member
    obtain ⟨other, used', returned⟩ := kept.envs header env messages member
    obtain rfl := Option.some.inj (used.symm.trans used')
    exact ⟨process', rfl, same ▸ returned.mono part⟩
  · intro state member
    obtain ⟨integer, other, used', issued⟩ := kept.states state member
    obtain rfl := Option.some.inj (used.symm.trans used')
    exact ⟨integer, process', rfl, same ▸ issued.mono part⟩
  · intro other member
    rcases List.mem_append.mp member with old | new
    · exact kept.past other old
    · obtain rfl := List.mem_singleton.mp new
      exact (own.trans live).le

omit [FloatValue] in
theorem Kept.calledReset {machine : Machine} (kept : Kept machine) {process process' : Process}
    (used : machine.session.repl = some process) {exchange : Exchange} (own : exchange.process = process.id) :
    Kept (machine.called process' exchange).reset where
  generation := kept.generation
  live _ none := by cases none
  envs _ _ _ none := by cases none
  states _ none := by cases none
  past other member := by
    rcases List.mem_append.mp member with old | new
    · exact kept.past other old
    · obtain rfl := List.mem_singleton.mp new
      exact (own.trans (kept.live process used).1).le

/-- The call is one more exchange that is in step. -/
theorem Serving.sent_called {machine : Machine} (serving : Serving request log machine) {process process' : Process}
    (used : machine.session.repl = some process) {exchange : Exchange} (own : exchange.process = process.id)
    (fits : Fits request machine.log exchange.process exchange.command)
    (answers : ∀ number reply, exchange.reply = some (number, reply) → number = exchange.number) :
    ∃ sent, (machine.called process' exchange).log = log ++ sent ∧ Sends request log sent := by
  obtain ⟨sent, whole, sends⟩ := serving.sent
  refine ⟨sent ++ [exchange], ?_, sends.snoc ?_⟩
  · rw [Machine.called, whole, List.append_assoc]
  · rw [← whole]
    refine ⟨fits, fun earlier member => ?_, answers⟩
    rw [own, (serving.kept.live process used).1]
    exact serving.kept.past earlier member

/-- The call of the process in use. -/
theorem callProcess_ensures {weather : Weather} {command : Command} (process : Process) (before : Machine) :
    Ensures (fun machine => Serving request log machine ∧ machine.session.repl = some process ∧
        machine.log = before.log ∧
        (∀ earlier, before.session.repl = some earlier → process = earlier) ∧
        Fits request before.log process.id command)
      (callProcess weather process command)
      (fun response machine => Sent request log command before response machine)
      (fun failure machine => match failure with
        | .repl code _ => code ≠ .budgetExhausted ∧ Serving request log machine.reset
        | .internal => Serving request log machine) := by
  rintro machine ⟨serving, used, sameLog, own, fits⟩
  rw [← sameLog] at fits
  obtain ⟨-, settled⟩ := serving.kept.live process used
  have id := call_id process weather
  have answered := @call_settled process settled weather
  unfold callProcess
  generalize process.call weather = called at id answered
  obtain ⟨process', read⟩ := called
  have inStep := @Serving.sent_called _ request log machine serving process process' used
    ⟨process.id, process.written, command, read.toOption⟩ rfl fits
  have reset := @Kept.calledReset machine serving.kept process process' used
    ⟨process.id, process.written, command, read.toOption⟩ rfl
  have kept := @Kept.called machine serving.kept process process' used
    ⟨process.id, process.written, command, read.toOption⟩ rfl id
  cases read with
  | error stopped =>
    have serving' : Serving request log (machine.called process' ⟨process.id, process.written, command, none⟩).reset :=
      ⟨reset, inStep fun _ _ none => by cases none⟩
    cases stopped with
    | timeout => exact ⟨by decide, serving'⟩
    | crashed detail => exact ⟨by decide, serving'⟩
    | overflow => exact ⟨by decide, serving'⟩
  | ok response =>
    obtain ⟨number, reply⟩ := response
    obtain ⟨rfl, settled'⟩ := answered rfl
    have sent := inStep fun number reply same => (Prod.mk.inj (Option.some.inj same)).1.symm
    cases reply with
    | object response =>
      refine ⟨⟨kept settled', sent⟩, ⟨process', process.written, rfl, ?_, ?_⟩⟩
      · intro earlier same
        rw [id, own earlier same]
      · rw [← sameLog, id]
        rfl
    | malformed head => exact ⟨by decide, reset, sent⟩
    | tooDeep => exact ⟨kept settled', sent⟩

/-- The ticks of the clock and the number of sends are not the session's. -/
theorem Serving.ticks {machine : Machine} (serving : Serving request log machine) (ticks sends : Nat) :
    Serving request log { machine with ticks, sends } :=
  serving.congr (serving.kept.congr rfl rfl rfl rfl rfl rfl) rfl

theorem send_ensures (world : World) (command : Command) (deadline : ℚ) (before : Machine) :
    Ensures (fun machine => Serving request log machine ∧ machine.session = before.session ∧
        machine.log = before.log ∧ Ready request command before)
      (send world command deadline)
      (fun response machine => Sent request log command before response machine)
      (Fails request log (Unchanged before)) := by
  unfold send
  refine bind_ensures (fun _ machine => Serving request log machine ∧ machine.session = before.session ∧
      machine.log = before.log ∧ Ready request command before)
    (monotonic_ensures ?_) fun now => ?_
  · rintro machine ticks ⟨serving, met⟩
    exact ⟨serving.ticks ticks machine.sends, met⟩
  split
  · refine throw_ensures _ ?_
    rintro machine ⟨serving, session, sameLog, -⟩
    refine ⟨serving, fun code detail same => .inl ⟨?_, session, sameLog⟩⟩
    exact (Failure.repl.inj same).1.symm
  · refine bind_ensures (fun _ machine => Serving request log machine ∧ machine.session = before.session ∧
      machine.log = before.log ∧ Ready request command before) (get_ensures fun machine met => met) fun read => ?_
    refine bind_ensures (fun _ machine => Serving request log machine ∧ machine.session = before.session ∧
      machine.log = before.log ∧ Ready request command before) (modify_ensures _ ?_) fun _ => ?_
    · rintro machine ⟨serving, met⟩
      exact ⟨serving.ticks machine.ticks (machine.sends + 1), met⟩
    refine bind_ensures _ (start_ensures before) fun process => ?_
    refine bind_ensures (fun response machine => Sent request log command before response machine)
      (handle_ensures (callProcess_ensures process before) fun failure => ?_) fun response => ?_
    · cases failure with
      | repl code detail =>
        refine bind_ensures (fun _ machine => code ≠ .budgetExhausted ∧ Serving request log machine ∧
            machine.session.repl = none)
          (modify_ensures _ fun machine met => ⟨met.1, met.2, rfl⟩) fun _ => throw_ensures _ ?_
        rintro machine ⟨other, serving, none_⟩
        refine ⟨serving, fun code detail same => .inr ?_⟩
        obtain ⟨rfl, -⟩ := Failure.repl.inj same
        exact ⟨other, serving.kept.discarded none_⟩
      | internal =>
        refine bind_ensures (fun _ machine => Serving request log machine)
          (pure_ensures () fun machine serving => serving) fun _ => throw_ensures _ ?_
        intro machine serving
        exact ⟨serving, fun _ _ same => by cases same⟩
    · refine bind_ensures (fun _ machine => Sent request log command before response machine)
        (modify_ensures _ ?_) fun _ => pure_ensures response fun machine sent => sent
      rintro machine ⟨serving, exchange⟩
      exact ⟨serving.congr (serving.kept.congr rfl rfl rfl rfl rfl rfl) rfl, exchange⟩

/-! ### Sending to the process in use -/

theorem Fits.mono {longer : List Exchange} {id : Nat} {command : Command} (fits : Fits request known id command)
    (part : known ⊆ longer) : Fits request longer id command := by
  cases fits with
  | header own some_ => exact .header own some_
  | body own body => exact .body own (body.mono part)
  | report own body returned => exact .report own (body.mono part) (returned.mono part)
  | tactic issued generation => exact .tactic (issued.mono part) generation

theorem Using.mono {id : Nat} {less : List Exchange} {machine : Machine} (using_ : Using request log id known machine)
    (part : less ⊆ known) : Using request log id less machine :=
  ⟨using_.serving, using_.process, List.Subset.trans part using_.known⟩

theorem Using.unchanged {id : Nat} {before machine : Machine} (using_ : Using request log id known before)
    (serving : Serving request log machine) (unchanged : Unchanged before machine) :
    Using request log id known machine :=
  ⟨serving, unchanged.1 ▸ using_.process, unchanged.2 ▸ using_.known⟩

/-- What a command and its response add to what a process has answered. -/
def answered (id number : Nat) (command : Command) (response : Record) : Exchange :=
  ⟨id, number, command, some (number, .object response)⟩

/-- A command that fits is sent to the process in use. -/
theorem send_using {command : Command} {deadline : ℚ} {id : Nat} (fits : Fits request known id command) :
    Ensures (Using request log id known) (send world command deadline)
      (fun response machine => ∃ number, Using request log id (known ++ [answered id number command response]) machine)
      (Fails request log (Using request log id known)) := by
  intro machine using_
  obtain ⟨process, used, rfl⟩ := using_.process
  have ready : Ready request command machine := .inr ⟨process, used, fits.mono using_.known⟩
  have spec := send_ensures world command deadline machine machine ⟨using_.serving, rfl, rfl, ready⟩
  cases run : send world command deadline machine with
  | ok response after =>
    rw [run] at spec
    obtain ⟨serving, process', number, used', same, sameLog⟩ := spec
    have id := same process used
    refine ⟨number, serving, ⟨process', used', id⟩, ?_⟩
    rw [sameLog, id]
    exact List.append_subset.mpr
      ⟨List.Subset.trans using_.known (List.subset_append_left _ _), List.subset_append_right _ _⟩
  | error failure after =>
    rw [run] at spec
    obtain ⟨serving, ends⟩ := spec
    refine ⟨serving, fun code detail same => (ends code detail same).imp_left ?_⟩
    exact fun exhausted => ⟨exhausted.1, using_.unchanged serving exhausted.2⟩

/-- A command that fits every process is sent to the one in use or to a new one. -/
theorem send_serving {command : Command} {deadline : ℚ} (fits : ∀ log id, Fits request log id command) :
    Ensures (Serving request log) (send world command deadline)
      (fun response machine => ∃ id number, Using request log id [answered id number command response] machine)
      (Fails request log fun _ => True) := by
  intro machine serving
  have spec := send_ensures world command deadline machine machine
    ⟨serving, rfl, rfl, .inl (fits machine.log)⟩
  cases run : send world command deadline machine with
  | ok response after =>
    rw [run] at spec
    obtain ⟨serving', process', number, used', -, sameLog⟩ := spec
    refine ⟨process'.id, number, serving', ⟨process', used', rfl⟩, ?_⟩
    rw [sameLog]
    exact List.subset_append_right _ _
  | error failure after =>
    rw [run] at spec
    obtain ⟨serving', ends⟩ := spec
    exact ⟨serving', fun code detail same => (ends code detail same).imp_left fun exhausted => ⟨exhausted.1, trivial⟩⟩

/-! ### Tactics -/

/-- What a run of tactics leaves: the process, unless an error discarded it. -/
structure Ran (request : Record) (log : List Exchange) (id : Nat) (known : List Exchange) (failed : Option ReplCode)
    (machine : Machine) : Prop where
  serving : Serving request log machine
  using_ : failed = none ∨ failed = some .budgetExhausted → Using request log id known machine
  discarded : ∀ code, failed = some code → code ≠ .budgetExhausted → Discarded machine

theorem Using.ran {id : Nat} {machine : Machine} (using_ : Using request log id known machine) :
    Ran request log id known none machine where
  serving := using_.serving
  using_ _ := using_
  discarded _ none := by cases none

theorem Using.exhausted {id : Nat} {machine : Machine} (using_ : Using request log id known machine) :
    Ran request log id known (some .budgetExhausted) machine where
  serving := using_.serving
  using_ _ := using_
  discarded _ same other := absurd (Option.some.inj same).symm other

/-- Only what the response offers is issued. -/
theorem Using.issue {id : Nat} {machine : Machine} (using_ : Using request log id known machine) {states : List Json}
    (issued : ∀ state ∈ states, isInteger state = true ∧ Issued known id state) :
    Using request log id known
      { machine with
        session := { machine.session with proofStates := states ++ machine.session.proofStates } } := by
  obtain ⟨process, used, own⟩ := using_.process
  have kept := using_.serving.kept
  refine ⟨using_.serving.congr ⟨kept.generation, kept.live, kept.envs, ?_, kept.past⟩ rfl, ⟨process, used, own⟩,
    using_.known⟩
  intro state member
  rcases List.mem_append.mp member with new | old
  · obtain ⟨integer, given⟩ := issued state new
    exact ⟨integer, process, used, own ▸ given.mono using_.known⟩
  · exact kept.states state old

omit [FloatValue] in
theorem answered_mem {id number : Nat} {command : Command} {response : Record} :
    answered id number command response ∈ known ++ [answered id number command response] :=
  List.mem_append_right _ (List.mem_singleton.mpr rfl)

theorem sendTactic_ensures {run : TacticsRun} {tactic : String} {id : Nat}
    (fits : ∀ text, Fits request known id (.tactic text run.state)) :
    Ensures (Using request log id known) (sendTactic world run tactic)
      (fun result machine => match result with
        | .ok response => ∃ number command,
            Using request log id (known ++ [answered id number command response]) machine
        | .error code => Serving request log machine ∧ (code = .budgetExhausted → Using request log id known machine) ∧
            (code ≠ .budgetExhausted → Discarded machine))
      (Fails request log fun _ => True) := by
  unfold sendTactic
  refine handle_ensures (show Ensures _ _ _ (Fails request log (Using request log id known)) from ?_) fun failure => ?_
  · refine bind_ensures (fun _ => Using request log id known) (monotonic_ensures ?_) fun now => ?_
    · rintro machine ticks ⟨serving, process, part⟩
      exact ⟨serving.ticks ticks machine.sends, process, part⟩
    split
    · refine throw_ensures _ fun machine using_ => ⟨using_.serving, fun code detail same => .inl ⟨?_, using_⟩⟩
      exact (Failure.repl.inj same).1.symm
    · refine bind_ensures _ (send_using (fits _)) fun response => pure_ensures _ ?_
      rintro machine ⟨number, using_⟩
      exact ⟨number, _, using_⟩
  · cases failure with
    | repl code detail =>
      refine pure_ensures _ ?_
      rintro machine ⟨serving, ends⟩
      rcases ends code detail rfl with ⟨exhausted, using_⟩ | ⟨other, discarded⟩
      · exact ⟨serving, fun _ => using_, fun other => absurd exhausted other⟩
      · exact ⟨serving, fun exhausted => absurd exhausted other, fun _ => discarded⟩
    | internal => exact throw_ensures _ fun machine failed => ⟨failed.1, fun _ _ same => by cases same⟩

variable [PythonText]

/-- A run of tactics is stopped by an exhausted budget only. -/
def StoppedByBudget (stopped : Option ReplCode) : Prop := ∀ code, stopped = some code → code = .budgetExhausted

theorem runTactics_ensures {run : TacticsRun} {id : Nat}
    (fits : ∀ text, Fits request known id (.tactic text run.state)) (tactics : List String) {outcome : TacticsOutcome}
    (fresh : outcome.error = none ∧ outcome.stopped = none) :
    Ensures (Using request log id known) (runTactics world run tactics outcome)
      (fun outcome machine => Ran request log id known (outcome.error.or outcome.stopped) machine ∧
        StoppedByBudget outcome.stopped)
      (Fails request log fun _ => True) := by
  have ends : ∀ done : TacticsOutcome, done.error = none ∧ done.stopped = none → ∀ machine,
      Using request log id known machine →
        Ran request log id known (done.error.or done.stopped) machine ∧ StoppedByBudget done.stopped := by
    rintro done ⟨error, stopped⟩ machine using_
    rw [error, stopped]
    exact ⟨using_.ran, fun _ none => by cases none⟩
  induction tactics generalizing outcome with
  | nil => exact pure_ensures _ (ends outcome fresh)
  | cons tactic rest ih =>
    unfold runTactics
    refine bind_ensures _ (sendTactic_ensures fits) fun result => ?_
    cases result with
    | error code =>
      cases code with
      | budgetExhausted =>
        refine pure_ensures _ fun machine met => ?_
        have using_ := met.2.1 rfl
        rw [fresh.1]
        exact ⟨using_.exhausted, fun _ same => (Option.some.inj same).symm⟩
      | _ =>
        refine pure_ensures _ fun machine met => ⟨⟨met.1, fun none => (by simp at none), fun code _ _ => ?_⟩, ?_⟩
        · exact met.2.2 (by decide)
        · intro code same
          rw [show outcome.stopped = none from fresh.2] at same
          cases same
    | ok response =>
      dsimp only
      refine bind_ensures (fun _ => Using request log id known) ?_ fun _ => ?_
      · refine modify_ensures _ ?_
        rintro machine ⟨number, command, using_⟩
        refine (using_.issue fun state member => ?_).mono (List.subset_append_left _ _)
        obtain ⟨inside, integer⟩ := List.mem_filter.mp member
        obtain rfl := List.mem_singleton.mp inside
        exact ⟨integer, _, answered_mem, rfl, number, response, rfl, .inl rfl⟩
      refine bind_ensures _ (lifted_ensures ?_) fun read => given_ensures fun _ => ?_
      · exact fun machine using_ => ⟨using_.serving, fun _ _ same => by cases same⟩
      split
      · split
        · exact pure_ensures _ (ends _ fresh)
        · exact ih fresh
      · split
        · exact ih fresh
        · exact ih fresh

/-! ### The phases of a check -/

/-- A process that knows the proof states of the holes. -/
def Holes (request : Record) (known : List Exchange) (id : Nat) (holes : List HoleResult) : Prop :=
  ∀ hole ∈ holes, isInteger hole.proofState = true →
    ∀ text, Fits request known id (.tactic text hole.proofState)

omit [PythonText] in
theorem Holes.tail {id : Nat} {hole : HoleResult} {holes : List HoleResult}
    (fits : Holes request known id (hole :: holes)) : Holes request known id holes :=
  fun other member => fits other (List.mem_cons_of_mem _ member)

omit [PythonText] in
theorem internal_fails {machine : Machine} (serving : Serving request log machine) :
    Fails request log (fun _ => True) .internal machine :=
  ⟨serving, fun _ _ same => by cases same⟩

omit [PythonText] in
theorem Holes.cons {id : Nat} {hole other : HoleResult} {holes rest : List HoleResult}
    (fits : Holes request known id (hole :: rest)) (same : other.proofState = hole.proofState)
    (later : Holes request known id holes) : Holes request known id (other :: holes) := by
  intro one member
  rcases List.mem_cons.mp member with rfl | member
  · rw [same]
    exact fits hole List.mem_cons_self
  · exact later one member

theorem extractGoals_ensures {id : Nat} {deadline : ℚ} (holes : List HoleResult)
    (fits : Holes request known id holes) :
    Ensures (Using request log id known) (extractGoals world deadline holes)
      (fun result machine => Ran request log id known result.2 machine ∧ Holes request known id result.1)
      (Fails request log fun _ => True) := by
  induction holes with
  | nil => exact pure_ensures _ fun machine using_ => ⟨using_.ran, fits⟩
  | cons hole rest ih =>
    unfold extractGoals
    split
    next integer =>
      refine bind_ensures _ (runTactics_ensures (fits hole List.mem_cons_self integer) _ ⟨rfl, rfl⟩) fun outcome => ?_
      cases failed : outcome.error.or outcome.stopped with
      | some code => exact pure_ensures _ fun machine met => ⟨met.1, fits⟩
      | none =>
        refine bind_ensures _ (lifted_ensures fun machine met => internal_fails met.1.serving) fun extracted =>
          given_ensures fun _ => ?_
        refine bind_ensures _ (ensures_imp (ih fits.tail) (fun machine met => met.1.using_ (.inl rfl))
          (fun _ _ met => met) fun _ _ met => met) fun result => pure_ensures _ ?_
        exact fun machine met => ⟨met.1, fits.cons rfl met.2⟩
    · refine bind_ensures _ (ih fits.tail) fun result => pure_ensures _ ?_
      exact fun machine met => ⟨met.1, fits.cons rfl met.2⟩

theorem automate_ensures {id : Nat} {automation : List String} {sendBy deadline : ℚ} (holes : List HoleResult)
    (fits : Holes request known id holes) :
    Ensures (Using request log id known) (automate world automation sendBy deadline holes)
      (fun result machine => Ran request log id known result.2.1 machine) (Fails request log fun _ => True) := by
  induction holes with
  | nil => exact pure_ensures _ fun machine using_ => using_.ran
  | cons hole rest ih =>
    unfold automate
    split
    next integer =>
      refine bind_ensures _ (runTactics_ensures (fits hole List.mem_cons_self integer) _ ⟨rfl, rfl⟩) fun outcome => ?_
      cases failed : outcome.error with
      | some code => exact pure_ensures _ fun machine met => met.1
      | none =>
        cases stopped : outcome.stopped with
        | some code =>
          refine pure_ensures _ fun machine met => (met.1.using_ (.inr ?_)).ran
          exact congrArg some (met.2 code rfl)
        | none =>
          refine bind_ensures _ (ensures_imp (ih fits.tail) (fun machine met => met.1.using_ (.inl rfl))
            (fun _ _ met => met) fun _ _ met => met) fun result => pure_ensures _ ?_
          exact fun machine met => met
    · refine bind_ensures _ (ih fits.tail) fun result => pure_ensures _ ?_
      exact fun machine met => met

theorem reportAxioms_ensures {id : Nat} {names : List String} {env : Json} {deadline : ℚ}
    (fits : Fits request known id
      (.cmd ("\n".intercalate (names.map fun name => "#print axioms " ++ name)) (some env))) :
    Ensures (Using request log id known) (reportAxioms world names env deadline)
      (fun result machine => match result with
        | .ok _ => Serving request log machine
        | .error code => Ran request log id known (some code) machine)
      (Fails request log fun _ => True) := by
  unfold reportAxioms
  refine bind_ensures (fun result machine => match result with
      | .ok _ => Serving request log machine
      | .error code => Ran request log id known (some code) machine)
    (handle_ensures (show Ensures _ _ _ (Fails request log (Using request log id known)) from ?_)
      fun failure => ?_) fun sent => ?_
  · refine bind_ensures _ (send_using fits) fun response => pure_ensures _ ?_
    rintro machine ⟨number, using_⟩
    exact using_.serving
  · cases failure with
    | repl code detail =>
      refine pure_ensures _ ?_
      rintro machine ⟨serving, ends⟩
      rcases ends code detail rfl with ⟨rfl, using_⟩ | ⟨other, discarded⟩
      · exact using_.exhausted
      · refine ⟨serving, fun same => ?_, fun _ _ _ => discarded⟩
        rcases same with none | same
        · cases none
        · exact absurd (Option.some.inj same) other
    | internal => exact throw_ensures _ fun machine failed => internal_fails failed.1
  · cases sent with
    | error code => exact pure_ensures _ fun machine ran => ran
    | ok printed =>
      refine bind_ensures _ (lifted_ensures fun machine => internal_fails) fun items => given_ensures fun _ => ?_
      refine bind_ensures _ (lifted_ensures fun machine => internal_fails) fun records => given_ensures fun _ => ?_
      exact pure_ensures _ fun machine serving => serving

theorem extractPhase_ensures {own : CheckRequest} {id : Nat} {deadline : ℚ} {holes : List HoleResult}
    (fits : Holes request known id holes) :
    Ensures (Using request log id known) (extractPhase world own deadline holes)
      (fun result machine => Ran request log id known result.2 machine ∧ Holes request known id result.1)
      (Fails request log fun _ => True) := by
  unfold extractPhase
  split
  · exact extractGoals_ensures _ fits
  · exact pure_ensures _ fun machine using_ => ⟨using_.ran, fits⟩

theorem automatePhase_ensures {own : CheckRequest} {id : Nat} {sendBy deadline : ℚ} {holes : List HoleResult}
    (fits : Holes request known id holes) :
    Ensures (Using request log id known) (automatePhase world own sendBy deadline holes)
      (fun result machine => Ran request log id known result.2.1 machine) (Fails request log fun _ => True) := by
  unfold automatePhase
  split
  · exact automate_ensures _ fits
  · exact pure_ensures _ fun machine using_ => using_.ran

/-- What a check leaves when it reports this error. -/
def Checked (request : Record) (log : List Exchange) (failed : Option ReplCode) (machine : Machine) : Prop :=
  Serving request log machine ∧ ∀ code, failed = some code → code ≠ .budgetExhausted → Discarded machine

omit [PythonText] in
theorem Ran.checked {id : Nat} {failed : Option ReplCode} {machine : Machine}
    (ran : Ran request log id known failed machine) : Checked request log failed machine :=
  ⟨ran.serving, ran.discarded⟩

theorem checkPhases_ensures {own : CheckRequest} {id : Nat} {deadline : ℚ} {result : CheckResult}
    (holes : Holes request known id result.sorries)
    (fits : Fits request known id
      (.cmd ("\n".intercalate (own.names.map fun name => "#print axioms " ++ name)) (some result.env))) :
    Ensures (Using request log id known) (checkPhases world own deadline result)
      (fun result => Checked request log result.phaseError) (Fails request log fun _ => True) := by
  unfold checkPhases
  refine bind_ensures _ (extractPhase_ensures holes) fun read => ?_
  obtain ⟨shown, failed⟩ := read
  dsimp only
  split
  · exact pure_ensures _ fun machine met => met.1.checked
  next none_ =>
    have none_ : failed = none := not_not.mp none_
    subst none_
    refine bind_ensures (fun _ machine => Holes request known id shown ∧ Using request log id known machine) ?_
      fun now => given_ensures fun holes => ?_
    · refine ensures_imp (monotonic_ensures ?_) (fun machine met => ⟨met.2, met.1.using_ (.inl rfl)⟩)
        (fun _ _ met => met) fun _ _ met => met
      rintro machine ticks ⟨holes, serving, process, part⟩
      exact ⟨holes, serving.ticks ticks machine.sends, process, part⟩
    refine bind_ensures _ (automatePhase_ensures holes) fun read => ?_
    obtain ⟨shown, failed, stopped⟩ := read
    dsimp only
    split
    · exact pure_ensures _ fun machine ran => ran.checked
    next none_ =>
      have none_ : failed = none := not_not.mp none_
      subst none_
      split
      · refine bind_ensures _ (ensures_imp (reportAxioms_ensures fits) (fun machine ran => ran.using_ (.inl rfl))
          (fun _ _ met => met) fun _ _ met => met) fun result => ?_
        cases result with
        | error code => exact pure_ensures _ fun machine ran => ran.checked
        | ok texts => exact pure_ensures _ fun machine serving => ⟨serving, fun _ none => by cases none⟩
      · exact pure_ensures _ fun machine ran => ran.checked

/-! ### Requests -/

omit [FloatValue] [PythonText] in
theorem lookup_set_ne {record : Record} {field other : String} (distinct : other ≠ field) (value : Json) :
    lookup (Dict.set record field value) other = lookup record other := by
  rw [lookup, Dict.get_set_ne distinct, lookup]

omit [FloatValue] [PythonText] in
/-- A shifted item has the proof state of the item. -/
theorem shift_proofState {offset : Nat} {item : Json} {record : Record} (shifted : shift offset item = some (.obj record)) :
    ∃ fields, item = .obj fields ∧ lookup fields "proofState" = lookup record "proofState" := by
  cases item with
  | obj fields =>
    refine ⟨fields, rfl, ?_⟩
    obtain rfl := Json.obj.inj (Option.some.inj shifted)
    have moved : ∀ (record : Record) (field : String), "proofState" ≠ field →
        lookup (moveLine offset record field) "proofState" = lookup record "proofState" := by
      intro record field distinct
      unfold moveLine
      split
      · split
        · exact lookup_set_ne distinct _
        · exact lookup_set_ne distinct _
        · rfl
      · rfl
    rw [moved _ _ (by decide), moved _ _ (by decide)]
  | _ => cases shifted

omit [PythonText] in
/-- The holes of a check are the response's. -/
theorem offers_shifted {response : Record} {offset : Nat} {items sorries : List Json}
    (read : iterate (orEmpty (lookup response "sorries")) = some items)
    (shifted : items.mapM (shift offset) = some sorries) {hole : Record} (member : .obj hole ∈ sorries) :
    Offers response (lookup hole "proofState") := by
  obtain ⟨item, inside, same⟩ := (Json.mem_mapM shifted _).mp member
  obtain ⟨fields, rfl, state⟩ := shift_proofState same
  right
  refine ⟨items, fields, ?_, inside, state⟩
  rw [orEmpty] at read
  split at read
  · cases value : lookup response "sorries" with
    | arr holes =>
      rw [value] at read
      exact congrArg Json.arr (Option.some.inj read)
    | str text =>
      rw [value] at read
      obtain rfl := Option.some.inj read
      obtain ⟨c, -, none⟩ := List.mem_map.mp inside
      cases none
    | obj entries =>
      rw [value] at read
      obtain rfl := Option.some.inj read
      obtain ⟨entry, -, none⟩ := List.mem_map.mp inside
      cases none
    | _ =>
      rw [value] at read
      cases read
  · obtain rfl := Option.some.inj read
    cases inside

/-- A check before its body is sent: the environment of the header is the process's own. -/
inductive BodyReady (request : Record) (log : List Exchange) (source : String) (env : Option Json)
    (machine : Machine) : Prop
  | plain (header : (splitHeader source.toList).1 = []) (none_ : env = none)
      (serving : Serving request log machine)
  | headed {id : Nat} {known : List Exchange} {own : Json} (header : (splitHeader source.toList).1 ≠ [])
      (some_ : env = some own) (using_ : Using request log id known machine)
      (returned : Returned known id (.cmd (.ofList (splitHeader source.toList).1) none) own)

variable {own : CheckRequest}

omit [PythonText] in
/-- The environment that the process returned for a header is kept. -/
theorem Using.remember {id : Nat} {machine : Machine} (using_ : Using request log id known machine) {header : String}
    {env messages : Json} (returned : Returned known id (.cmd header none) env) :
    Using request log id known
      { machine with
        session :=
          { machine.session with envs := Dict.set machine.session.envs header (env, messages) } } := by
  obtain ⟨process, used, own⟩ := using_.process
  have kept := using_.serving.kept
  refine ⟨using_.serving.congr ⟨kept.generation, kept.live, ?_, kept.states, kept.past⟩ rfl, ⟨process, used, own⟩,
    using_.known⟩
  intro other env' messages' member
  rcases Dict.mem_set.mp member with new | ⟨old, -⟩
  · obtain ⟨rfl, entry⟩ := Prod.mk.inj new
    obtain ⟨rfl, -⟩ := Prod.mk.inj entry
    exact ⟨process, used, own ▸ returned.mono using_.known⟩
  · exact kept.envs other env' messages' old

omit [PythonText] in
/-- The body is sent, and the process that answered it is in use. -/
theorem sendBody_ensures {env : Option Json} {deadline : ℚ} (asked : checkRequest request = some own) :
    Ensures (BodyReady request log own.source env)
      (send world (.cmd (.ofList (splitHeader own.source.toList).2) env) deadline)
      (fun response machine => ∃ id known, (BodyCommand known id own.source
          (.cmd (.ofList (splitHeader own.source.toList).2) env) ∧
          ∃ number, answered id number (.cmd (.ofList (splitHeader own.source.toList).2) env) response ∈ known) ∧
        Using request log id known machine)
      (Fails request log fun _ => True) := by
  rintro machine (⟨header, rfl, serving⟩ | @⟨id, known, env, header, rfl, using_, returned⟩)
  · have fits : ∀ log id, Fits request log id (.cmd (.ofList (splitHeader own.source.toList).2) none) :=
      fun log id => .body asked (.plain header)
    refine ensures_imp (send_serving fits) (fun _ met => met) ?_ (fun _ _ met => met) machine serving
    rintro response after ⟨id, number, using_⟩
    exact ⟨id, _, ⟨.plain header, number, List.mem_singleton.mpr rfl⟩, using_⟩
  · have fits : Fits request known id (.cmd (.ofList (splitHeader own.source.toList).2) (some env)) :=
      .body asked (.headed header returned)
    refine ensures_imp (send_using fits) (fun _ met => met) ?_ ?_ machine using_
    · rintro response after ⟨number, using_⟩
      exact ⟨id, _, ⟨.headed header (returned.mono (List.subset_append_left _ _)), number, answered_mem⟩, using_⟩
    · rintro failure after ⟨serving, ends⟩
      exact ⟨serving, fun code detail same => (ends code detail same).imp_left fun exhausted => ⟨exhausted.1, trivial⟩⟩

omit [PythonText] in
/-- A request has one operation. -/
theorem op_unique {op : Json} {name other : String} (first : same op (.str name) = true)
    (second : same op (.str other) = true) : name = other := by
  have one := (same_iff_of_key (show key (.str name) = some (.text name) from rfl) op).mp first
  have two := (same_iff_of_key (show key (.str other) = some (.text other) from rfl) op).mp second
  exact Key.text.inj (Option.some.inj (one.symm.trans two))

/-- What `readBody` takes from the response. -/
theorem readBody_spec {generation : Nat} {cached : Bool} {response : Record} {messages sorries : List Json}
    {result : CheckResult} (read : readBody generation cached response messages sorries = some result) :
    result.env = lookup response "env" ∧ result.phaseError = none ∧
      ∀ hole ∈ result.sorries, ∃ fields, .obj fields ∈ sorries ∧ hole.proofState = lookup fields "proofState" := by
  unfold readBody at read
  obtain ⟨records, -, read⟩ := Option.bind_eq_some_iff.mp read
  obtain ⟨holes, all, read⟩ := Option.bind_eq_some_iff.mp read
  obtain ⟨kept, -, read⟩ := Option.bind_eq_some_iff.mp read
  obtain rfl := Option.some.inj read
  refine ⟨rfl, rfl, fun hole member => ?_⟩
  obtain ⟨fields, inside, rfl⟩ := List.mem_map.mp member
  obtain ⟨item, listed, same⟩ := (Json.mem_mapM all fields).mp (List.mem_of_mem_take inside)
  cases item with
  | obj entries =>
    obtain rfl := Option.some.inj same
    exact ⟨entries, listed, rfl⟩
  | _ => cases same

theorem checkBody_ensures {cached : Bool} {offset : Nat} {env : Option Json} {headerMessages : Json} {deadline : ℚ}
    (asked : checkRequest request = some own) (op : same (lookup request "op") (.str "check") = true) :
    Ensures (BodyReady request log own.source env)
      (checkBody world own deadline cached offset env headerMessages)
      (fun answer => Checked request log answer.replFailure) (Fails request log fun _ => True) := by
  have tactic : ∀ {known : List Exchange} {id : Nat} {state : Json}, Issued known id state →
      ∀ text, Fits request known id (.tactic text state) := by
    intro known id state issued text
    refine .tactic issued fun other => ?_
    exact absurd (op_unique op other) (by decide)
  unfold checkBody
  refine bind_ensures _ (sendBody_ensures asked) fun response => ?_
  refine exists_ensures fun id => exists_ensures fun known => given_ensures fun sent => ?_
  obtain ⟨body, number, listed⟩ := sent
  have internal : ∀ machine, Using request log id known machine → Fails request log (fun _ => True) .internal machine :=
    fun machine using_ => internal_fails using_.serving
  split
  · refine bind_ensures _ (lifted_ensures internal) fun items => given_ensures fun _ => ?_
    refine bind_ensures _ (lifted_ensures internal) fun shifted => given_ensures fun _ => ?_
    refine bind_ensures _ (lifted_ensures internal) fun first => given_ensures fun _ => ?_
    refine bind_ensures _ (lifted_ensures internal) fun items => given_ensures fun read => ?_
    refine bind_ensures _ (lifted_ensures internal) fun sorries => given_ensures fun all => ?_
    have issued : ∀ hole : Record, .obj hole ∈ sorries → Issued known id (lookup hole "proofState") :=
      fun hole member => ⟨_, listed, rfl, number, response, rfl, offers_shifted read all member⟩
    refine bind_ensures (fun _ => Using request log id known) (modify_ensures _ ?_) fun _ => ?_
    · intro machine using_
      refine using_.issue fun state member => ?_
      obtain ⟨listed, integer⟩ := List.mem_filter.mp member
      obtain ⟨hole, inside, rfl⟩ := List.mem_map.mp listed
      obtain ⟨item, inList, same⟩ := List.mem_filterMap.mp inside
      cases item with
      | obj fields =>
        obtain rfl := Option.some.inj same
        exact ⟨integer, issued fields inList⟩
      | _ => cases same
    refine bind_ensures (fun _ => Using request log id known) (get_ensures fun machine using_ => using_) fun read => ?_
    refine bind_ensures _ (lifted_ensures internal) fun result => given_ensures fun known_ => ?_
    obtain ⟨sameEnv, -, holes⟩ := readBody_spec known_
    refine bind_ensures _ (checkPhases_ensures ?_ ?_) fun result => pure_ensures _ fun machine met => met
    · intro hole member _ text
      obtain ⟨fields, inside, same⟩ := holes hole member
      rw [same]
      exact tactic (issued fields inside) text
    · rw [sameEnv]
      exact .report asked body ⟨_, listed, rfl, rfl, number, response, rfl, rfl⟩
  · exact pure_ensures _ fun machine using_ => ⟨using_.serving, fun _ none => by cases none⟩

theorem headerEnv_ensures {deadline : ℚ} (asked : checkRequest request = some own)
    (header : (splitHeader own.source.toList).1 ≠ []) :
    Ensures (Serving request log) (headerEnv world (.ofList (splitHeader own.source.toList).1) deadline)
      (fun result machine => match result with
        | .error answer => Serving request log machine ∧ answer.replFailure = none
        | .ok (_, env, _) => BodyReady request log own.source (some env) machine)
      (Fails request log fun _ => True) := by
  unfold headerEnv
  refine bind_ensures (fun read machine => read = machine ∧ Serving request log machine)
    (get_ensures fun machine serving => ⟨rfl, serving⟩) fun read => ?_
  cases stored : Dict.get read.session.envs (String.ofList (splitHeader own.source.toList).1) with
  | some entry =>
    obtain ⟨env, messages⟩ := entry
    refine pure_ensures _ ?_
    rintro machine ⟨rfl, serving⟩
    obtain ⟨process, used, returned⟩ := serving.kept.envs _ env messages (Dict.mem_of_get stored)
    have using_ : Using request log process.id read.log read := ⟨serving, ⟨process, used, rfl⟩, List.Subset.refl _⟩
    exact .headed header rfl using_ returned
  | none =>
    dsimp only
    have fits : ∀ log id, Fits request log id (.cmd (.ofList (splitHeader own.source.toList).1) none) :=
      fun log id => .header asked header
    refine bind_ensures _ (ensures_imp (send_serving fits) (fun machine met => met.2) (fun _ _ met => met)
      fun _ _ met => met) fun response => ?_
    refine exists_ensures fun id => exists_ensures fun number => ?_
    split
    · refine bind_ensures (fun _ => BodyReady request log own.source (some (lookup response "env")))
        (modify_ensures _ ?_) fun _ => pure_ensures _ fun machine ready => ready
      intro machine using_
      have returned : Returned [answered id number (.cmd (.ofList (splitHeader own.source.toList).1) none) response] id
          (.cmd (.ofList (splitHeader own.source.toList).1) none) (lookup response "env") :=
        ⟨_, List.mem_singleton.mpr rfl, rfl, rfl, number, response, rfl, rfl⟩
      exact .headed header rfl (using_.remember returned) returned
    · exact pure_ensures _ fun machine using_ => ⟨using_.serving, rfl⟩

theorem check_ensures {maxCommands : Nat} {deadline : ℚ} (op : same (lookup request "op") (.str "check") = true) :
    Ensures (Serving request log) (check world maxCommands request deadline)
      (fun answer => Checked request log answer.replFailure) (Fails request log fun _ => True) := by
  unfold check
  cases asked : checkRequest request with
  | none => exact pure_ensures _ fun machine serving => ⟨serving, fun _ none => by cases none⟩
  | some own =>
    refine bind_ensures (fun _ => Serving request log) (modify_ensures _ ?_) fun _ => ?_
    · intro machine serving
      split
      · exact serving.reset
      · exact serving
    dsimp only
    split
    next header =>
      exact ensures_imp (checkBody_ensures asked op) (fun machine serving => .plain header rfl serving)
        (fun _ _ met => met) fun _ _ met => met
    next header =>
      refine bind_ensures _ (headerEnv_ensures asked header) fun result => ?_
      cases result with
      | error answer =>
        refine pure_ensures _ fun machine met => ⟨met.1, fun code same => ?_⟩
        rw [met.2] at same
        cases same
      | ok entry => exact checkBody_ensures asked op

theorem tactics_ensures {deadline : ℚ} :
    Ensures (Serving request log) (tactics world request deadline)
      (fun answer => Checked request log answer.replFailure) (Fails request log fun _ => True) := by
  unfold tactics
  refine bind_ensures (fun read machine => read = machine ∧ Serving request log machine)
    (get_ensures fun machine serving => ⟨rfl, serving⟩) fun read => ?_
  dsimp only
  split
  next tactics integer listed =>
    split
    · exact pure_ensures _ fun machine met => ⟨met.2, fun _ none => by cases none⟩
    next current =>
      rintro machine ⟨rfl, serving⟩
      simp only [not_or, Bool.not_eq_true', Bool.not_eq_false, Bool.not_eq_true, Option.isNone_eq_false_iff] at current
      obtain ⟨live, generation, known⟩ := current
      obtain ⟨process, used⟩ := Option.isSome_iff_exists.mp live
      obtain ⟨own, inside, same_⟩ := List.any_eq_true.mp known
      obtain ⟨ownInteger, process', used', issued⟩ := serving.kept.states own inside
      obtain rfl := Option.some.inj (used.symm.trans used')
      -- two integers that compare equal are one
      have state : own = lookup request "proof_state" := by
        cases value : lookup request "proof_state" with
        | int given =>
          rw [value] at same_
          cases own with
          | int kept =>
            have keys := (same_iff_of_key (show key (.int given) = some (.number given) from rfl) (.int kept)).mp same_
            have numbers : (kept : ℚ) = given := Key.number.inj (Option.some.inj keys)
            rw [Rat.intCast_inj.mp numbers]
          | _ => cases ownInteger
        | _ =>
          rw [value] at integer
          cases integer
      have using_ : Using request log process.id read.log read := ⟨serving, ⟨process, used, rfl⟩, List.Subset.refl _⟩
      have id : process.id = read.session.generation :=
        (serving.kept.live process used).1.trans serving.kept.generation
      have fits : ∀ text, Fits request read.log process.id (.tactic text (lookup request "proof_state")) := by
        refine fun text => .tactic (state ▸ issued) fun _ given explicit => ?_
        rw [lookupOr, explicit] at generation
        rw [id]
        exact generation
      refine bind_ensures _ (runTactics_ensures fits tactics ⟨rfl, rfl⟩) (fun outcome => ?_) read using_
      refine bind_ensures (fun _ machine => Ran request log process.id read.log (outcome.error.or outcome.stopped) machine)
        (get_ensures fun machine met => met.1) fun after => pure_ensures _ fun machine ran => ⟨ran.serving, ?_⟩
      intro code failed other
      refine ran.discarded code ?_ other
      rw [show outcome.error = some code from failed]
      rfl
  next => exact pure_ensures _ fun machine met => ⟨met.2, fun _ none => by cases none⟩

theorem handleRequest_ensures (world : World) (maxCommands : Nat) (deadline : ℚ) :
    Ensures (Serving request log) (handleRequest world maxCommands request deadline)
      (fun answer => Checked request log answer.replFailure) (Fails request log fun _ => True) := by
  unfold handleRequest
  refine handle_ensures (show Ensures _ _ _ (Fails request log fun _ => True) from ?_) fun failure => ?_
  · split
    next op => exact check_ensures op
    split
    · exact tactics_ensures
    split
    · refine bind_ensures (fun _ => Serving request log) (get_ensures fun machine serving => serving) fun read => ?_
      exact pure_ensures _ fun machine serving => ⟨serving, fun _ none => by cases none⟩
    · exact pure_ensures _ fun machine serving => ⟨serving, fun _ none => by cases none⟩
  · cases failure with
    | repl code detail =>
      refine bind_ensures (fun _ machine => Checked request log (some code) machine) (get_ensures ?_) fun read =>
        pure_ensures _ fun machine met => met
      rintro machine ⟨serving, ends⟩
      refine ⟨serving, fun other same notBudget => ?_⟩
      obtain rfl := Option.some.inj same
      rcases ends code detail rfl with ⟨exhausted, -⟩ | ⟨-, discarded⟩
      · exact absurd exhausted notBudget
      · exact discarded
    | internal => exact throw_ensures _ fun machine failed => internal_fails failed.1

/-! ### Runs -/

/-- The states of a session between requests. -/
inductive Reached (world : World) (maxCommands : Nat) : Machine → Prop
  | fresh : Reached world maxCommands {}
  | answer {machine : Machine} (reached : Reached world maxCommands machine) (request : Record) (deadline : ℚ) :
      Reached world maxCommands (answerRequest world maxCommands request deadline machine).2

/-- A request was served: everything it sent is in step, and when a send failed, unless for an exhausted
budget, nothing is kept of the process. -/
structure Served (request : Record) (before after : Machine) (answer : Answer) : Prop where
  sent : ∃ sent, after.log = before.log ++ sent ∧ Sends request before.log sent
  discarded : ∀ code, answer.replFailure = some code → code ≠ .budgetExhausted → Discarded after

theorem answerRequest_serves {maxCommands : Nat} {deadline : ℚ} {machine : Machine} (kept : Kept machine) :
    Kept (answerRequest world maxCommands request deadline machine).2 ∧
      Served request machine (answerRequest world maxCommands request deadline machine).2
        (answerRequest world maxCommands request deadline machine).1 := by
  have serving : Serving request machine.log machine := ⟨kept, [], (List.append_nil _).symm, .nil⟩
  have spec := handleRequest_ensures world maxCommands deadline machine serving
  unfold answerRequest
  cases run : handleRequest world maxCommands request deadline machine with
  | ok answer after =>
    rw [run] at spec
    exact ⟨spec.1.kept, spec.1.sent, spec.2⟩
  | error failure after =>
    rw [run] at spec
    exact ⟨spec.1.kept, spec.1.sent, fun code none => by cases none⟩

theorem Reached.kept {maxCommands : Nat} {machine : Machine} (reached : Reached world maxCommands machine) :
    Kept machine := by
  induction reached with
  | fresh => exact kept_start
  | answer reached request deadline ih => exact (answerRequest_serves ih).1

/-- A session stays in step over every run: each request is served. -/
theorem session_in_step {maxCommands : Nat} {machine : Machine} (reached : Reached world maxCommands machine)
    (request : Record) (deadline : ℚ) :
    Served request machine (answerRequest world maxCommands request deadline machine).2
      (answerRequest world maxCommands request deadline machine).1 :=
  (answerRequest_serves reached.kept).2

end

end Repl

namespace Scenario

open Repl Python

section

local instance replValue : FloatValue := ⟨fun _ => 0⟩

local instance replText : PythonText where
  str value := match value with
    | .str text => text
    | _ => ""
  text _ := rfl

/-- A check of an empty source. -/
def emptyCheck : Record := [("op", .str "check"), ("source", .str "")]

/-- A process that answers its first command like this. -/
def answeringWorld (reply : Reply) : World where
  clock _ := 0
  weather _ := { arrives := [(0, reply)], stops := .timeout }
  alive _ := true

/-- A process that ends while it is asked. -/
def crashingWorld : World where
  clock _ := 0
  weather _ := { arrives := [], stops := .crashed "REPL exited with status 1" }
  alive _ := true

/-- The process goes on when its answer is an error. -/
theorem replError_keeps_process :
    let (answer, after) := answerRequest (answeringWorld (.object [("message", .str "Unknown environment.")])) 200
      emptyCheck 60 {}
    answer.errorText = some "repl_error" ∧ after.session.repl.isSome = true := by decide +kernel

/-- The process that crashed is discarded. -/
theorem crashedCheck_discarded :
    (answerRequest crashingWorld 200 emptyCheck 60 {}).1.replFailure = some .crashed ∧
      Discarded (answerRequest crashingWorld 200 emptyCheck 60 {}).2 := by
  have crashed : (answerRequest crashingWorld 200 emptyCheck 60 {}).1.replFailure = some .crashed := by decide +kernel
  exact ⟨crashed, (session_in_step .fresh emptyCheck 60).discarded .crashed crashed (by decide)⟩

end

end Scenario

end PhysHarness
