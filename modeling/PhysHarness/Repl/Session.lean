import PhysHarness.Repl.Header
import PhysHarness.Lib.Effect
import PhysHarness.Lib.Python

/-!
# A REPL process and its session

A session keeps one process, the environments of the headers and the proof states that this process gave
out. A command is written and then the next response is read; when this fails the process is discarded.
-/
namespace PhysHarness

namespace Repl

open Effect Python

/-! ### The process -/

/-- A command with what it refers to, as the process gave it out. -/
inductive Command where
  | cmd (text : String) (env : Option Json)
  | tactic (text : String) (proofState : Json)

inductive ReplCode where
  | startFailed | crashed | protocolError | timeout | budgetExhausted
  deriving DecidableEq

def ReplCode.text : ReplCode → String
  | .startFailed => "repl_start_failed"
  | .crashed => "repl_crashed"
  | .protocolError => "repl_protocol_error"
  | .timeout => "timeout"
  | .budgetExhausted => "budget_exhausted"

/-- A `ReplError`, or another exception. -/
inductive Failure where
  | repl (code : ReplCode) (detail : String)
  | internal
  deriving DecidableEq

/-- What the process writes for a command: a JSON object, something else, or JSON that is nested too deep to
be read. -/
inductive Reply where
  | object (response : Record)
  | malformed (head : String)
  | tooDeep

/-- What ends a wait when there is no response to read. -/
inductive Break where
  | timeout
  | crashed (detail : String)
  | overflow
  deriving DecidableEq

def Break.failure : Break → Failure
  | .timeout => .repl .timeout "Lean did not answer before the deadline"
  | .crashed detail => .repl .crashed detail
  | .overflow => .repl .protocolError "REPL response exceeds the output bound"

/-- What happens around one command: whether a process starts and the command is written, the responses that
arrive until the read, each to a command that has none so far, and what ends the wait without one. -/
structure Weather where
  start : Option String := none
  write : Option Break := none
  arrives : List (Nat × Reply)
  stops : Break

/-- A process, with the numbers of its commands that have no response so far, and the responses that were
not read. -/
structure Process where
  id : Nat
  written : Nat := 0
  pending : List Nat := []
  unread : List (Nat × Reply) := []

/-- The response to one of the pending commands arrives. -/
def Process.arrive (process : Process) (arrival : Nat × Reply) : Process :=
  match process.pending[arrival.1]? with
  | none => process
  | some number =>
    { process with
      pending := process.pending.eraseIdx arrival.1
      unread := process.unread ++ [(number, arrival.2)] }

/-- The bytes of a command were written. -/
def Process.write (process : Process) : Process :=
  { process with written := process.written + 1, pending := process.pending ++ [process.written] }

/-- `Repl.call`: the process afterwards, and the response that was read with the number of the command it is
for. -/
def Process.call (process : Process) (weather : Weather) : Process × Except Break (Nat × Reply) :=
  match weather.write with
  | some stopped => (process, .error stopped)
  | none =>
    let waited := weather.arrives.foldl Process.arrive process.write
    match waited.unread with
    | [] => (waited, .error weather.stops)
    | first :: rest => ({ waited with unread := rest }, .ok first)

/-! ### The session -/

/-- `Session` -/
structure ReplSession where
  repl : Option Process := none
  generation : Nat := 0
  commands : Nat := 0
  envs : List (String × (Json × Json)) := []
  proofStates : List Json := []

/-- A command that was sent, with the process, its number there and the response that was read. -/
structure Exchange where
  process : Nat
  number : Nat
  command : Command
  reply : Option (Nat × Reply)

/-- The session in its surroundings: how many processes were started, how many readings of the clock and
sends there were, and what was sent. -/
structure Machine where
  session : ReplSession := {}
  spawned : Nat := 0
  ticks : Nat := 0
  sends : Nat := 0
  log : List Exchange := []

/-- What is outside of the session: the clock, the weather of each send, and whether the process lives. -/
structure World where
  clock : Nat → ℚ
  weather : Nat → Weather
  alive : Nat → Bool

abbrev SessionProgram := EStateM Failure Machine

/-- `time.monotonic` -/
def monotonic (world : World) : SessionProgram ℚ := do
  let machine ← get
  modify fun machine => { machine with ticks := machine.ticks + 1 }
  pure (world.clock machine.ticks)

/-- `Session.reset` -/
def ReplSession.reset (session : ReplSession) : ReplSession := { generation := session.generation }

def Machine.reset (machine : Machine) : Machine := { machine with session := machine.session.reset }

/-- `Repl(...)`, when there is no process. -/
def start (weather : Weather) : SessionProgram Process := do
  let machine ← get
  match machine.session.repl with
  | some process => pure process
  | none =>
    match weather.start with
    | some detail => throw (.repl .startFailed detail)
    | none =>
      let process : Process := { id := machine.spawned + 1 }
      modify fun machine =>
        { machine with
          spawned := machine.spawned + 1
          session :=
            { machine.session with repl := some process, generation := machine.session.generation + 1 } }
      pure process

/-- `self.repl.call(command, deadline)` and its record -/
def callProcess (weather : Weather) (process : Process) (command : Command) : SessionProgram Record := do
  let (process', read) := process.call weather
  modify fun machine =>
    { machine with
      session := { machine.session with repl := some process' }
      log := machine.log ++ [⟨process.id, process.written, command, read.toOption⟩] }
  match read with
  | .error stopped => throw stopped.failure
  | .ok (_, .object response) => pure response
  | .ok (_, .malformed head) => throw (.repl .protocolError head)
  | .ok (_, .tooDeep) => throw .internal

/-- `Session.send` -/
def send (world : World) (command : Command) (deadline : ℚ) : SessionProgram Record := do
  let now ← monotonic world
  if deadline - now ≤ 0 then throw (.repl .budgetExhausted "no time was left to send the command")
  else
    let machine ← get
    modify fun machine => { machine with sends := machine.sends + 1 }
    let weather := world.weather machine.sends
    let process ← start weather
    let response ← handle (callProcess weather process command) fun failure => do
      match failure with
      | .repl _ _ => modify Machine.reset
      | .internal => pure ()
      throw failure
    modify fun machine =>
      { machine with session := { machine.session with commands := machine.session.commands + 1 } }
    pure response

end Repl

end PhysHarness
