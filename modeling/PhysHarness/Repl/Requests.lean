import PhysHarness.Repl.Session
import Mathlib.Algebra.Order.Ring.Unbundled.Rat

/-!
# The requests of a session

`check` sends the header, unless its environment is kept, the body in that environment, tactics for its
holes and at last the report of its axioms; `tactics` sends tactics to one proof state.
-/
namespace PhysHarness

namespace Repl

open Effect Python

/-- `str` of JSON data -/
class PythonText where
  str : Json → String
  text : ∀ text, str (.str text) = text

/-! ### Reading responses -/

/-- An exception of the interpreter where there is no value. -/
def lifted {α : Type} (value : Option α) : SessionProgram α :=
  match value with
  | some value => pure value
  | none => throw .internal

/-- `_integer` -/
def isInteger : Json → Bool
  | .int _ => true
  | _ => false

/-- `isinstance(value, int)` -/
def isInt : Json → Bool
  | .int _ => true
  | .bool _ => true
  | _ => false

/-- The items that a loop over the value goes through. -/
def iterate : Json → Option (List Json)
  | .arr items => some items
  | .str text => some (text.toList.map fun c => .str c.toString)
  | .obj fields => some (fields.map fun field => .str field.1)
  | _ => none

/-- Only a dictionary has `get`. -/
def recordOf : Json → Option Record
  | .obj fields => some fields
  | _ => none

def lookupOr (record : Record) (field : String) (default : Json) : Json := (Dict.get record field).getD default

/-- `_strings` -/
def strings (value : Json) (limit : Nat) : Option (List String) :=
  match value with
  | .arr items =>
    if items.length ≤ limit then
      items.mapM fun item =>
        match item with
        | .str text => if 0 < text.length ∧ text.length ≤ 200 then some text else none
        | _ => none
    else none
  | _ => none

def maxMessages : Nat := 50
def maxSorries : Nat := 32
def maxTactics : Nat := 16
def maxTacticItems : Nat := 8
def maxNames : Nat := 32
def tacticHeartbeats : Nat := 200000
def extractReserve : ℚ := 1 / 2

/-- The text after the first occurrence. -/
def afterFirst (needle : List Char) : List Char → Option (List Char)
  | [] => if needle = [] then some [] else none
  | c :: rest => if needle <+: c :: rest then some ((c :: rest).drop needle.length) else afterFirst needle rest

section

variable [FloatValue]

/-- `value or []` -/
def orEmpty (value : Json) : Json := if truthy value then value else .arr []

/-- The rank of a severity; a list or a dictionary has none. -/
def severityRank (message : Record) : Option Nat :=
  let severity := lookup message "severity"
  if (key severity).isNone then none
  else if same severity (.str "error") then some 0
  else if same severity (.str "warning") then some 1
  else some 2

/-- `select_messages` -/
def selectMessages (messages : List Json) (limit : Nat) : Option (List Json) :=
  if messages.length ≤ limit then some messages
  else do
    let records ← messages.mapM recordOf
    let ranks ← records.mapM severityRank
    let order := (List.range messages.length).mergeSort fun i j => decide (ranks.getD i 2 ≤ ranks.getD j 2)
    some (((order.take limit).mergeSort fun i j => decide (i ≤ j)).filterMap fun i => messages[i]?)

/-- A dictionary has a length too, but no items by number. -/
def selectItems (messages : Json) (limit : Nat) : Option (List Json) := do
  let items ← iterate messages
  if items.length ≤ limit then some items
  else
    match messages with
    | .arr items => selectMessages items limit
    | _ => none

/-- `any(m.get("severity") == "error" for m in messages)` -/
def anyError : List Json → Option Bool
  | [] => some false
  | item :: rest => do
    let message ← recordOf item
    if same (lookup message "severity") (.str "error") then some true else anyError rest

variable [PythonText]

open PythonText

/-- `try_this` -/
def tryThis : List Json → Option (Option String)
  | [] => some none
  | item :: rest => do
    let message ← recordOf item
    let data := (str (lookupOr message "data" (.str ""))).toList
    if same (lookupOr message "severity" (.str "info")) (.str "info") then
      match afterFirst "Try this:".toList data with
      | none => tryThis rest
      | some text =>
        let text := Sources.strip text
        let text := if "[apply]".toList <+: text then Sources.strip (text.drop "[apply]".length) else text
        some (if text = [] then none else some (.ofList text))
    else tryThis rest

/-- A position of the record, with its line moved. -/
def moveLine (offset : Nat) (record : Record) (field : String) : Record :=
  match lookup record field with
  | .obj position =>
    match lookup position "line" with
    | .int line => Dict.set record field (.obj (Dict.set position "line" (.int (line + offset))))
    | .bool line => Dict.set record field (.obj (Dict.set position "line" (.int ((if line then 1 else 0) + offset))))
    | _ => record
  | _ => record

/-- `_shift` -/
def shift (offset : Nat) (item : Json) : Option Json := do
  let record ← recordOf item
  some (.obj (moveLine offset (moveLine offset record "pos") "endPos"))

/-- `SORRY_WARNING.match` -/
def sorryWarning (text : List Char) : Bool :=
  let quote := [Char.ofNat 0x27, Char.ofNat 0x60]
  quote.any fun first => quote.any fun last =>
    decide ("declaration uses ".toList ++ first :: "sorry".toList ++ [last] <+: text)

/-! ### Tactics -/

structure TacticResult where
  tactic : String
  closed : Bool
  goals : List Json
  messages : List Json
  error : Json

structure TacticsOutcome where
  closedBy : Option String := none
  suggestion : Option String := none
  tried : List String := []
  results : List TacticResult := []
  stopped : Option ReplCode := none
  error : Option ReplCode := none

/-- What `run_tactics` reads of a response, and the suggestion in it. -/
def readTactic (tactic : String) (response : Record) : Option (TacticResult × Option String) := do
  let messages := orEmpty (lookup response "messages")
  let closed ←
    if same (lookup response "goals") (.arr []) ∧ Dict.get response "message" = none ∧
        same (lookupOr response "proofStatus" (.str "Completed")) (.str "Completed") then do
      let items ← iterate messages
      let error ← anyError items
      some (!error)
    else some false
  let goals := match lookup response "goals" with
    | .arr goals => goals
    | _ => []
  let kept ← selectItems messages maxTacticItems
  let items ← iterate messages
  let suggestion ← tryThis items
  some (⟨tactic, closed, goals.take maxTacticItems, kept, lookup response "message"⟩, suggestion)

/-- The arguments of `run_tactics`. -/
structure TacticsRun where
  state : Json
  stopOnSuccess : Bool
  sendBy : ℚ
  replyBy : Option ℚ := none
  bounded : Bool := false

def TacticsRun.deadline (run : TacticsRun) : ℚ :=
  match run.replyBy with
  | some reply => if reply = 0 then run.sendBy else reply
  | none => run.sendBy

def TacticsRun.text (run : TacticsRun) (tactic : String) : String :=
  if run.bounded ∧ tactic ≠ "exact?" then
    "set_option maxHeartbeats " ++ toString tacticHeartbeats ++ " in " ++ tactic
  else tactic

/-- The `try` of `run_tactics` -/
def sendTactic (world : World) (run : TacticsRun) (tactic : String) : SessionProgram (Except ReplCode Record) :=
  handle
    (do
      let now ← monotonic world
      if run.sendBy - now ≤ 0 then throw (.repl .budgetExhausted "automation budget exhausted")
      else
        let response ← send world (.tactic (run.text tactic) run.state) run.deadline
        pure (.ok response))
    fun failure =>
      match failure with
      | .repl code _ => pure (.error code)
      | .internal => throw .internal

/-- The integers among the proof states are kept. -/
def keepProofStates (states : List Json) : SessionProgram Unit :=
  modify fun machine =>
    { machine with
      session :=
        { machine.session with proofStates := states.filter isInteger ++ machine.session.proofStates } }

/-- `run_tactics` -/
def runTactics (world : World) (run : TacticsRun) : List String → TacticsOutcome → SessionProgram TacticsOutcome
  | [], outcome => pure outcome
  | tactic :: rest, outcome => do
    match ← sendTactic world run tactic with
    | .error .budgetExhausted => pure { outcome with stopped := some .budgetExhausted }
    | .error code => pure { outcome with tried := outcome.tried ++ [tactic], error := some code }
    | .ok response =>
      keepProofStates [lookup response "proofState"]
      let (result, suggestion) ← lifted (readTactic tactic response)
      let outcome :=
        { outcome with tried := outcome.tried ++ [tactic], results := outcome.results ++ [result] }
      if result.closed ∧ outcome.closedBy = none then
        let closed :=
          { outcome with closedBy := some tactic, suggestion := suggestion.or outcome.suggestion }
        if run.stopOnSuccess then pure closed else runTactics world run rest closed
      else if outcome.suggestion = none then runTactics world run rest { outcome with suggestion }
      else runTactics world run rest outcome

/-! ### check -/

structure Counts where
  errors : Nat
  messages : Nat
  sorries : Nat
  sorryWarnings : Nat

structure HoleResult where
  pos : Json
  endPos : Json
  goal : Json
  proofState : Json
  automation : Option TacticsOutcome := none
  extracted : Option String := none

structure CheckResult where
  generation : Nat
  headerCached : Bool
  env : Json
  counts : Counts
  messages : List Json
  sorries : List HoleResult
  /-- the texts that `parse_axioms` reads -/
  axioms : Option (List String) := none
  truncated : Bool
  phaseError : Option ReplCode := none
  automationStopped : Option ReplCode := none

inductive Answer where
  | error (code detail : String) (generation : Option Nat := none)
  | failed (code : ReplCode) (detail : String) (generation : Nat)
  | check (result : CheckResult)
  | tactics (outcome : TacticsOutcome) (generation : Nat)
  | status (generation : Nat) (running : Bool) (commands headersCached proofStates : Nat)

/-- `_repl_error` -/
def replError (response : Record) : Answer :=
  let text := str (lookupOr response "message" (.obj response))
  .error "repl_error" (.ofList (text.toList.take 2000))

/-- The arguments of a check: its source, the automation and the names for the axiom report. -/
structure CheckRequest where
  source : String
  automation : List String
  names : List String
  extractGoals : Bool

/-- What `check` reads of a request. -/
def checkRequest (request : Record) : Option CheckRequest := do
  let automation ← strings (orEmpty (lookup request "automation")) maxTactics
  let names ← strings (orEmpty (lookup request "axiom_names")) maxNames
  match lookup request "source" with
  | .str source => some ⟨source, automation, names, truthy (lookup request "extract_goals")⟩
  | _ => none

/-- The environment of a header with its messages, from the session or from the process. -/
def headerEnv (world : World) (header : String) (deadline : ℚ) :
    SessionProgram (Except Answer (Bool × Json × Json)) := do
  let machine ← get
  match Dict.get machine.session.envs header with
  | some (env, messages) => pure (.ok (true, env, messages))
  | none =>
    let response ← send world (.cmd header none) deadline
    if isInt (lookup response "env") then
      let entry := (lookup response "env", orEmpty (lookup response "messages"))
      modify fun machine =>
        { machine with
          session := { machine.session with envs := Dict.set machine.session.envs header entry } }
      pure (.ok (false, entry))
    else pure (.error (replError response))

/-- The statement of a hole, from what `extract_goal` printed. -/
def extractedText : List Json → Option (Option String)
  | [] => some none
  | item :: rest => do
    let message ← recordOf item
    if "theorem".toList <:+: (str (lookupOr message "data" (.str ""))).toList then
      some (some (str (lookup message "data")))
    else extractedText rest

/-- The phase of `check` that extracts goals; an error ends the request. -/
def extractGoals (world : World) (deadline : ℚ) : List HoleResult → SessionProgram (List HoleResult × Option ReplCode)
  | [] => pure ([], none)
  | hole :: rest => do
    if isInteger hole.proofState then
      let run : TacticsRun :=
        { state := hole.proofState
          stopOnSuccess := false
          sendBy := deadline - extractReserve
          replyBy := some deadline }
      let outcome ← runTactics world run ["extract_goal"] {}
      match outcome.error.or outcome.stopped with
      | some code => pure (hole :: rest, some code)
      | none =>
        let extracted ← lifted (extractedText (outcome.results.flatMap TacticResult.messages))
        let (holes, failed) ← extractGoals world deadline rest
        pure ({ hole with extracted } :: holes, failed)
    else
      let (holes, failed) ← extractGoals world deadline rest
      pure (hole :: holes, failed)

/-- The automation phase of `check`: the holes, an error that ends the request, and what stopped it. -/
def automate (world : World) (automation : List String) (sendBy deadline : ℚ) :
    List HoleResult → SessionProgram (List HoleResult × Option ReplCode × Option ReplCode)
  | [] => pure ([], none, none)
  | hole :: rest => do
    if isInteger hole.proofState then
      let run : TacticsRun :=
        { state := hole.proofState, stopOnSuccess := true, sendBy, replyBy := some deadline, bounded := true }
      let outcome ← runTactics world run automation {}
      let shown : HoleResult :=
        { hole with automation := some { outcome with results := [], stopped := none, error := none } }
      match outcome.error, outcome.stopped with
      | some code, _ => pure (shown :: rest, some code, none)
      | none, some code => pure (shown :: rest, none, some code)
      | none, none =>
        let (holes, failed, stopped) ← automate world automation sendBy deadline rest
        pure (shown :: holes, failed, stopped)
    else
      let (holes, failed, stopped) ← automate world automation sendBy deadline rest
      pure (hole :: holes, failed, stopped)

/-- The report of the axioms, or the error that ends the request. -/
def reportAxioms (world : World) (names : List String) (env : Json) (deadline : ℚ) :
    SessionProgram (Except ReplCode (List String)) := do
  let command := .cmd ("\n".intercalate (names.map fun name => "#print axioms " ++ name)) (some env)
  let sent ← handle (do let response ← send world command deadline; pure (Except.ok response)) fun failure =>
    match failure with
    | .repl code _ => pure (.error code)
    | .internal => throw .internal
  match sent with
  | .error code => pure (.error code)
  | .ok printed =>
    let items ← lifted (iterate (orEmpty (lookup printed "messages")))
    let records ← lifted (items.mapM recordOf)
    pure (.ok (records.map fun message => str (lookupOr message "data" (.str ""))))

/-- What `check` makes of the response to the body, before the other phases. -/
def readBody (generation : Nat) (cached : Bool) (response : Record) (messages sorries : List Json) :
    Option CheckResult := do
  let records ← messages.mapM recordOf
  let holes ← sorries.mapM recordOf
  let severe (severity : String) (message : Record) : Bool := same (lookup message "severity") (.str severity)
  let warned := records.filter fun message =>
    severe "warning" message && sorryWarning (str (lookupOr message "data" (.str ""))).toList
  let kept ← selectMessages messages maxMessages
  some
    { generation
      headerCached := cached
      env := lookup response "env"
      counts := ⟨(records.filter (severe "error")).length, messages.length, sorries.length, warned.length⟩
      messages := kept
      sorries := (holes.take maxSorries).map fun hole =>
        { pos := lookup hole "pos"
          endPos := lookup hole "endPos"
          goal := lookup hole "goal"
          proofState := lookup hole "proofState" }
      truncated := decide (maxMessages < messages.length ∨ maxSorries < sorries.length) }

/-- `for hole in result["sorries"] if request.get("extract_goals") else []` -/
def extractPhase (world : World) (request : CheckRequest) (deadline : ℚ) (holes : List HoleResult) :
    SessionProgram (List HoleResult × Option ReplCode) :=
  if request.extractGoals then extractGoals world deadline holes else pure (holes, none)

/-- `for hole in result["sorries"] if automation else []` -/
def automatePhase (world : World) (request : CheckRequest) (sendBy deadline : ℚ) (holes : List HoleResult) :
    SessionProgram (List HoleResult × Option ReplCode × Option ReplCode) :=
  if request.automation ≠ [] then automate world request.automation sendBy deadline holes
  else pure (holes, none, none)

/-- The phases of `check` behind the body. -/
def checkPhases (world : World) (request : CheckRequest) (deadline : ℚ) (result : CheckResult) :
    SessionProgram CheckResult := do
  let (holes, failed) ← extractPhase world request deadline result.sorries
  let result := { result with sorries := holes, phaseError := failed }
  if failed ≠ none then pure result
  else
    let now ← monotonic world
    let sendBy := deadline - min 20 (max 1 ((deadline - now) / 4))
    let (holes, failed, stopped) ← automatePhase world request sendBy deadline result.sorries
    let result := { result with sorries := holes, phaseError := failed, automationStopped := stopped }
    let counts := result.counts
    if failed ≠ none then pure result
    else if request.names ≠ [] ∧ counts.errors = 0 ∧ counts.sorries = 0 ∧ counts.sorryWarnings = 0 then
      match ← reportAxioms world request.names result.env deadline with
      | .error code => pure { result with phaseError := some code }
      | .ok texts => pure { result with axioms := some texts }
    else pure result

/-- The body of a check and what follows it. -/
def checkBody (world : World) (request : CheckRequest) (deadline : ℚ) (cached : Bool) (offset : Nat)
    (env : Option Json) (headerMessages : Json) : SessionProgram Answer := do
  let body := (splitHeader request.source.toList).2
  let response ← send world (.cmd (.ofList body) env) deadline
  if isInt (lookup response "env") then
    let items ← lifted (iterate (orEmpty (lookup response "messages")))
    let shifted ← lifted (items.mapM (shift offset))
    let first ← lifted (match headerMessages with
      | .arr items => some items
      | _ => none)
    let items ← lifted (iterate (orEmpty (lookup response "sorries")))
    let sorries ← lifted (items.mapM (shift offset))
    let states := (sorries.filterMap recordOf).map fun hole => lookup hole "proofState"
    keepProofStates states
    let machine ← get
    let result ← lifted (readBody machine.session.generation cached response (first ++ shifted) sorries)
    let result ← checkPhases world request deadline result
    pure (.check result)
  else pure (replError response)

/-- A process that answered enough commands is discarded before a check. -/
def resetWhenFull (maxCommands : Nat) : SessionProgram Unit :=
  modify fun machine => if maxCommands ≤ machine.session.commands then machine.reset else machine

/-- `Session.check` -/
def check (world : World) (maxCommands : Nat) (request : Record) (deadline : ℚ) : SessionProgram Answer := do
  match checkRequest request with
  | none => pure (.error "bad_request" "malformed check request")
  | some request =>
    resetWhenFull maxCommands
    let header := (splitHeader request.source.toList).1
    if header = [] then checkBody world request deadline false 0 none (.arr [])
    else
      match ← headerEnv world (.ofList header) deadline with
      | .error answer => pure answer
      | .ok (cached, env, messages) =>
        checkBody world request deadline cached (Sources.linesOf header).length (some env) messages

/-- `Session.tactics` -/
def tactics (world : World) (request : Record) (deadline : ℚ) : SessionProgram Answer := do
  let machine ← get
  let session := machine.session
  let generation := lookupOr request "generation" (.int session.generation)
  let state := lookup request "proof_state"
  match isInteger state, strings (lookup request "tactics") maxTactics with
  | true, some tactics =>
    if session.repl.isNone ∨ !same generation (.int session.generation) ∨
        !session.proofStates.any fun known => same known state then
      pure (.error "proof_state_expired" "")
    else
      let run : TacticsRun :=
        { state
          stopOnSuccess := truthy (lookupOr request "stop_on_success" (.bool true))
          sendBy := deadline }
      let outcome ← runTactics world run tactics {}
      let after ← get
      pure (.tactics outcome after.session.generation)
  | _, _ => pure (.error "bad_request" "malformed tactics request")

/-- `Session.status` -/
def status (world : World) : SessionProgram Answer := do
  let machine ← get
  let session := machine.session
  pure (.status session.generation (session.repl.isSome && world.alive machine.ticks) session.commands
    session.envs.length session.proofStates.length)

/-- `Session.handle` -/
def handleRequest (world : World) (maxCommands : Nat) (request : Record) (deadline : ℚ) : SessionProgram Answer :=
  let op := lookup request "op"
  handle
    (if same op (.str "check") then check world maxCommands request deadline
      else if same op (.str "tactics") then tactics world request deadline
      else if same op (.str "status") then status world
      else pure (.error "bad_request" "unknown or malformed op"))
    fun failure =>
      match failure with
      | .repl code detail => do
        let machine ← get
        pure (.failed code detail machine.session.generation)
      | .internal => throw .internal

/-- `_handle`: another exception is an answer too, and the session goes on. -/
def answerRequest (world : World) (maxCommands : Nat) (request : Record) (deadline : ℚ) (machine : Machine) :
    Answer × Machine :=
  match handleRequest world maxCommands request deadline machine with
  | .ok answer after => (answer, after)
  | .error _ after => (.error "internal_error" "", after)

/-- The `error` of an answer. -/
def Answer.errorText : Answer → Option String
  | .error code _ _ => some code
  | .failed code _ _ => some code.text
  | _ => none

/-- The error of the REPL that an answer reports. -/
def Answer.replFailure : Answer → Option ReplCode
  | .failed code _ _ => some code
  | .check result => result.phaseError
  | .tactics outcome _ => outcome.error
  | _ => none

end

end Repl

end PhysHarness
