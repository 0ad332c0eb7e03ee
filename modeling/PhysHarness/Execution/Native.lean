import PhysHarness.Execution.Checkpoint
import PhysHarness.Execution.Context
import PhysHarness.Lib.Effect
import PhysHarness.Lib.JsonAscii

/-!
The native loop of one session: generations, tool calls, and the checkpoints between them.

A program waits for the outside at each hook, event, store access, provider request and tool; what it gets
is the outside's choice, and it may be an error, a cancellation, or the end of the process. The calls of a
session come one after the other. What the preflight decides is the outside's choice too. The history says
what really happened to each generation and each dispatched call.
-/
namespace PhysHarness.Native

open Effect

/-! ### Sessions and their state -/

structure Usage where
  inputTokens : Nat
  outputTokens : Nat
  deriving DecidableEq

structure Response where
  id : String
  model : String
  status : String
  output : List Produced
  usage : Option Usage
  outputText : String
  deriving DecidableEq

/-- What `pending_operation` names. -/
inductive Operation where
  | generation (number : Nat)
  | tool (key : ToolKey)
  deriving DecidableEq

structure SettledResponse where
  responseId : String
  operation : Operation
  usage : Usage
  reserved : Usage
  deriving DecidableEq

structure CompactionReplay where
  responseId : String
  latestItemId : String
  deriving DecidableEq

/-- The native state of a session. A state without a context budget is not `budgeted`, and elides nothing. -/
structure NativeState where
  context : ContextState
  budgeted : Bool
  responses : List Response := []
  pendingOperation : Option Operation := none
  settledBoundary : Bool := true
  terminalResponsePending : Bool := false
  compactionRecoveryProtocol : Bool := true
  compactionReplayPending : Option CompactionReplay := none
  settledResponse : Option SettledResponse := none
  turnNoteTurns : Option Nat := none
  /-- The ids of the deliveries with the digests of what was received. -/
  networkDeliveries : List (String × Digest) := []
  cumulativeInputOffset : Nat := 0
  cumulativeOutputOffset : Nat := 0

structure NativeSession where
  id : SessionId
  model : String
  limits : RuntimeLimits
  status : SessionStatus := .ready
  nativeSessionId : Option String := none
  turns : Nat := 0
  inputTokens : Nat := 0
  outputTokens : Nat := 0

/-- A checkpoint of the session. -/
structure Saved where
  session : NativeSession
  state : NativeState

/-- The checkpoint as it is loaded. -/
def Saved.loaded (saved : Saved) : Saved :=
  { saved with state := { saved.state with context := saved.state.context.reloaded } }

/-! ### What happens -/

/-- What has become of a generation. -/
inductive Fate where
  /-- Its reservation is announced. -/
  | reserved
  /-- It is in flight, or nobody knows. -/
  | sent
  /-- The provider has done no work. -/
  | refused
  | answered (response : Response)
  /-- Its usage was reported. -/
  | settled (usage : Usage)
  /-- Its reservation was given back. -/
  | released
  deriving DecidableEq

inductive Happened where
  | generation (number : Nat) (fate : Fate)
  /-- A tool was called; it has returned the result. -/
  | dispatched (key : ToolKey) (identity : Identity) (result : Option Fields)
  deriving DecidableEq

/-- What ends a program early. -/
inductive Failure where
  | execution (error : ExecutionError)
  /-- Any other `Exception`, which may be a `TimeoutError`. -/
  | other (timeout : Bool)
  /-- By the caller, or by the expired time limit. -/
  | cancelled (expired : Bool)
  /-- The process is gone, and no handler runs. -/
  | crashed
  deriving DecidableEq

def Failure.isException : Failure → Bool
  | .execution _ | .other _ => true
  | .cancelled _ | .crashed => false

abbrev Reply (α : Type) := Except Failure α

/-- A save that raises may have written the checkpoint. -/
inductive SaveFate where
  | saved
  | raised (written : Bool) (failure : Failure)

/-- A batch of updates that passes its checks, and what is made of it. -/
structure Batch where
  deliveryId : String
  encoded : String

/-- What the preflight of a request decides. -/
inductive Plan where
  | reserve (reserved : Usage)
  /-- The provider rejects the count. -/
  | rejected
  | exhausted
  /-- The request exceeds the context window. -/
  | pressed

/-- How a request ends after its last resend. -/
inductive Answer where
  | response (response : Response)
  /-- Refused for the rate limit, and the next wait would pass the deadline. -/
  | givenUp
  /-- HTTP 400: refused before generating anything. -/
  | rejected
  | raised (failure : Failure)

/-- A request: how the wait after each refusal for the rate limit ends, and the answer after the waits. -/
structure Sending where
  waits : List (Reply Unit)
  answer : Answer

/-- What the boundary hook asks for. -/
inductive Request where
  | complete (reason : String)
  | handOff (reason : String)

/-- What the outside does at each await, by its number. -/
structure Outside where
  /-- The parameters, the tools and the window pass the checks of `_run`. -/
  configured : Bool
  save : Nat → SaveFate
  archive : Nat → Reply Unit
  load : Nat → Reply Unit
  event : Nat → Reply Unit
  guard : Nat → Reply Bool
  updates : Nat → Reply (Option Batch)
  /-- `false` is a `DELIVERY_CHANGED`. -/
  acknowledge : Nat → Reply Bool
  note : Nat → Reply (Option String)
  plan : Nat → Reply Plan
  admission : Nat → Reply Unit
  /-- The clock has passed the deadline. -/
  late : Nat → Bool
  create : Nat → Sending
  tool : Nat → Reply Fields
  signal : Nat → Reply (Option NativeLineage.Signal)
  anchor : Option (Nat → Reply String)
  boundary : Option (Nat → Reply (Option Request))

/-- A tool result that waits for its announcement. -/
structure Announcement where
  key : ToolKey
  signal : Bool

/-- The memory of the process, the store, and the history. -/
structure World where
  session : NativeSession
  state : NativeState
  unannounced : List Announcement := []
  checkpoint : Option Saved := none
  store : List Archive := []
  /-- The responses of the archives. -/
  archived : List (List Response) := []
  history : List Happened := []
  awaits : Nat := 0

def World.memory (world : World) : Saved := ⟨world.session, world.state⟩

/-- The context of a checkpoint over the store. -/
def Saved.lineage (saved : Saved) (store : List Archive) : NativeLineage :=
  { session := saved.session.id, state := saved.state.context, store }

abbrev NativeProgram := EStateM Failure World

structure RuntimeResult where
  outputText : String := ""
  completionReason : Option String := none
  /-- The reason of a handoff. -/
  continuation : Option String := none
  deriving DecidableEq

/-! ### Awaits -/

def ask {α : Type} (replies : Nat → Reply α) : NativeProgram α := fun world =>
  let asked := { world with awaits := world.awaits + 1 }
  match replies world.awaits with
  | .ok value => .ok value asked
  | .error failure => .error failure asked

def raise {α : Type} (code message : String) (operation : Option Operation := none)
    (retryable : Bool := false) : NativeProgram α :=
  throw (.execution ⟨code, message,
    operation.map fun
      | .generation number => toString number
      | .tool key => key.text, retryable⟩)

def lifted {α : Type} : Except ExecutionError α → NativeProgram α
  | .ok value => pure value
  | .error error => throw (.execution error)

def changeState (change : NativeState → NativeState) : NativeProgram Unit :=
  modify fun world => { world with state := change world.state }

def changeSession (change : NativeSession → NativeSession) : NativeProgram Unit :=
  modify fun world => { world with session := change world.session }

def changeContext (change : ContextState → ContextState) : NativeProgram Unit :=
  changeState fun state => { state with context := change state.context }

def setPending (operation : Option Operation) : NativeProgram Unit :=
  changeState fun state => { state with pendingOperation := operation }

def begins (happened : Happened) : NativeProgram Unit :=
  modify fun world => { world with history := world.history ++ [happened] }

/-- The last effect gets on. -/
def becomes (happened : Happened) : NativeProgram Unit :=
  modify fun world => { world with history := world.history.dropLast ++ [happened] }

def textOf (encoded : String) : InputItem :=
  .user (.obj [("role", .str "user"), ("content", .str encoded)])

def append (items : List InputItem) (context : ContextState) : ContextState :=
  { context with input := context.input ++ items }

variable [ContentHash] [FloatReader] (outside : Outside)

/-- `_save` -/
def save : NativeProgram Unit := fun world =>
  let asked := { world with awaits := world.awaits + 1 }
  let written := { asked with checkpoint := some world.memory }
  match outside.save world.awaits with
  | .saved => .ok () written
  | .raised true failure => .error failure written
  | .raised false failure => .error failure asked

/-- `_emit` -/
def emit : NativeProgram Unit := ask outside.event

def emitWhen (wanted : Bool) : NativeProgram Unit := if wanted then emit outside else pure ()

/-- `_emit_telemetry`: an exception of the sink is logged. -/
def emitTelemetry : NativeProgram Unit :=
  handle (emit outside) fun failure => if failure.isException then pure () else throw failure

/-- Handlers and finalizers of a process that is gone do not run. -/
def handleAll {α : Type} (program : NativeProgram α) (handler : Failure → NativeProgram α) :
    NativeProgram α :=
  handle program fun failure => if failure = .crashed then throw failure else handler failure

/-! ### Boundaries -/

/-- `_complete_verified` -/
def completeVerified : NativeProgram RuntimeResult := do
  changeSession fun session => { session with status := .completed }
  changeState fun state => { state with terminalResponsePending := false }
  save outside
  emitTelemetry outside
  pure { completionReason := some "target_verified" }

/-- `COMPLETION_REASONS` -/
def completionReasons : List String :=
  ["target_verified", "result_returned", "scope_proved", "scope_closed"]

/-- What `_maybe_handoff` makes of the request of the hook. -/
def answerRequest (outputText : String) : Option Request → NativeProgram (Option RuntimeResult)
  | none => pure none
  | some (.complete reason) =>
    if reason ∈ completionReasons then do
      changeState fun state => { state with terminalResponsePending := false }
      changeSession fun session => { session with status := .completed }
      save outside
      pure (some { outputText, completionReason := some reason })
    else raise "INVALID_CONTINUATION" "Boundary hook returned invalid reason"
  | some (.handOff reason) =>
    if blank reason || 200 < reason.length then
      raise "INVALID_CONTINUATION" "Boundary hook returned invalid reason"
    else do
      changeSession fun session => { session with status := .handedOff }
      save outside
      pure (some { outputText, continuation := some reason })

/-- `_maybe_handoff` -/
def maybeHandoff (outputText : String) : NativeProgram (Option RuntimeResult) :=
  match outside.boundary with
  | none => pure none
  | some hook => ask hook >>= answerRequest outside outputText

/-- Nothing is open at the boundary. -/
def NativeState.atBoundary (state : NativeState) : Bool :=
  state.settledBoundary && state.pendingOperation.isNone && !state.terminalResponsePending

/-- The deliveries that are remembered are the last ones. -/
def lastDeliveries (deliveries : List (String × Digest)) : List (String × Digest) :=
  deliveries.drop (deliveries.length - 128)

/-- A delivery enters the input once for each text, and is saved before it is acknowledged. -/
def receiveBatch (batch : Batch) : NativeProgram Unit := do
  let world ← get
  let fingerprint := ContentHash.sha256 batch.encoded
  if Dict.get world.state.networkDeliveries batch.deliveryId = some fingerprint then pure ()
  else do
    changeState fun state =>
      { state with
        context := append [textOf batch.encoded] state.context
        networkDeliveries :=
          lastDeliveries (Dict.set state.networkDeliveries batch.deliveryId fingerprint) }
    save outside

/-- `_receive_updates`, with what it does when the delivery has changed. -/
def receive (changed : NativeProgram Unit) : NativeProgram Unit := do
  let world ← get
  if world.state.atBoundary then do
    let batch ← ask outside.updates
    match batch with
    | none => pure ()
    | some batch => do
      receiveBatch outside batch
      let accepted ← ask outside.acknowledge
      if accepted then pure () else changed
  else pure ()

def receiveUpdates : NativeProgram Unit :=
  receive outside (receive outside (raise "DELIVERY_CHANGED" "Delivery changed"))

/-- `MAX_TURN_NOTE_CHARS` -/
def maxTurnNoteChars : Nat := 4000

def noteText (note : String) : String :=
  Json.canonical (.obj [("type", .str "research_runtime_note"),
    ("authority", .str "optional harness guidance"), ("note", .str note)])

/-- `_receive_turn_note` -/
def receiveTurnNote : NativeProgram Unit := do
  let world ← get
  if world.state.atBoundary && world.state.turnNoteTurns != some world.session.turns then do
    let note ← ask outside.note
    match note with
    | none => pure ()
    | some note =>
      if note.isEmpty || maxTurnNoteChars < note.length then
        raise "INVALID_TURN_NOTE" "Turn note must be bounded non-empty text"
      else
        changeState fun state =>
          { state with
            context := append [textOf (noteText note)] state.context
            turnNoteTurns := some world.session.turns }
  else pure ()

/-- `_elide_block` -/
def elide : NativeProgram Unit :=
  changeState fun state =>
    if state.budgeted then { state with context := NativeLineage.elideBlock state.context } else state

/-! ### Requests -/

/-- The preflight of a request, or the end of the run at a boundary that is under pressure. -/
def prepareRequest : NativeProgram (RuntimeResult ⊕ Usage) := do
  let plan ← ask outside.plan
  match plan with
  | .reserve reserved => pure (.inr reserved)
  | .rejected => do
    save outside
    raise "MODEL_REQUEST_INVALID" "Provider rejected the model request before generation"
  | .exhausted => raise "BUDGET_EXHAUSTED" "Token preflight leaves no generation budget"
  | .pressed => do
    let world ← get
    if outside.boundary.isSome && 0 < world.session.turns && world.state.settledBoundary &&
        world.state.pendingOperation.isNone then do
      save outside
      emitTelemetry outside
      let handoff ← maybeHandoff outside ""
      match handoff with
      | some result => pure (.inl result)
      | none => raise "CONTEXT_LIMIT" "Active request exceeds context token limit"
    else raise "CONTEXT_LIMIT" "Active request exceeds context token limit"

/-- `asyncio.get_running_loop().time() >= deadline` -/
def isLate : NativeProgram Bool := fun world =>
  .ok (outside.late world.awaits) { world with awaits := world.awaits + 1 }

def nextSending : NativeProgram Sending := fun world =>
  .ok (outside.create world.awaits) { world with awaits := world.awaits + 1 }

/-- `_abandon_refused`: the operation is cleared only after its reservation was given back. -/
def abandonRefused (number : Nat) : NativeProgram Unit := do
  emit outside
  becomes (.generation number .released)
  setPending none

/-- What `_send` makes of the last answer. -/
def finish (number : Nat) : Answer → NativeProgram Response
  | .response response => do
    becomes (.generation number (.answered response))
    pure response
  | .givenUp => do
    becomes (.generation number .refused)
    abandonRefused outside number
    raise "PROVIDER_RATE_LIMITED" "Provider rate limit refused the request until the wall-clock limit"
      (some (.generation number)) true
  | .rejected => do
    becomes (.generation number .refused)
    abandonRefused outside number
    raise "MODEL_REQUEST_INVALID" "Provider rejected the model request before generation"
      (some (.generation number))
  | .raised failure => throw failure

/-- `_resend_rate_limited` over the refusals of one request. -/
def resend (number : Nat) (answer : Answer) : List (Reply Unit) → NativeProgram Response
  | [] => do
    becomes (.generation number .sent)
    finish outside number answer
  | wait :: waits => do
    becomes (.generation number .sent)
    becomes (.generation number .refused)
    match wait with
    | .ok () => resend number answer waits
    | .error failure =>
      -- nothing is in flight while waiting
      handleAll (throw failure) fun failure => do
        abandonRefused outside number
        throw failure

/-- Announce the reservation. Nothing has been sent when that fails. -/
def reserve (number : Nat) : NativeProgram Unit :=
  handleAll
    (do
      emitTelemetry outside
      emit outside
      begins (.generation number .reserved))
    fun failure => do
      setPending none
      save outside
      throw failure

/-- `_send` after the mark of the generation is saved. -/
def sendMarked (number : Nat) : NativeProgram Response := do
  let late ← isLate outside
  if late then do
    setPending none
    raise "TIMEOUT" "Runtime exceeded wall-clock limit"
  else do
    reserve outside number
    let late ← isLate outside
    if late then do
      abandonRefused outside number
      raise "TIMEOUT" "Runtime exceeded wall-clock limit"
    else do
      let sending ← nextSending outside
      resend outside number sending.answer sending.waits

/-- `_send`: mark the generation, announce its reservation and send it. -/
def send : NativeProgram (RuntimeResult ⊕ Nat × Response) := do
  ask outside.admission
  let verified ← ask outside.guard
  if verified then do
    let result ← completeVerified outside
    pure (.inl result)
  else do
    let world ← get
    setPending (some (.generation world.awaits))
    save outside
    let response ← sendMarked outside world.awaits
    pure (.inr (world.awaits, response))

/-! ### Tool calls -/

/-- `_tool_output_text` -/
def outputText (state : NativeState) (call : FunctionCall) (visible : Fields) : Text :=
  if state.budgeted then toolOutputText state.context.contextBudget call visible
  else (dumped (.obj visible)).flatMap Json.asciiChar

def showOutput (state : NativeState) (call : FunctionCall) (visible : Fields) : NativeState :=
  { state with
    context := append [.toolOutput ⟨call.callId, outputText state call visible⟩] state.context }

/-- The call is answered: it waits for its announcement. -/
def World.answered (world : World) (call : FunctionCall) (signal : Bool) : World :=
  { world with
    state := { world.state with pendingOperation := none }
    unannounced := world.unannounced ++ [⟨⟨world.session.id, call.callId⟩, signal⟩] }

/-- The result of a dispatched call enters the results, and the call is answered. -/
def World.recorded (world : World) (call : FunctionCall) (identity : Identity) (result : Fields)
    (signal : Option NativeLineage.Signal) : World :=
  let visible := NativeLineage.withSignal result signal
  let entry : Entry := {
    identity, result, visibleOutput := signal.map fun _ => visible,
    seq := world.state.context.elision.seq, name := call.name }
  let key : ToolKey := ⟨world.session.id, call.callId⟩
  let context := { world.state.context with toolResults := Dict.set world.state.context.toolResults key entry }
  { world with
    state := showOutput { world.state with context } call visible
    history := world.history.dropLast ++ [Happened.dispatched key identity (some result)] }.answered call
      signal.isSome

/-- `_emit_completed` -/
def announce : List Announcement → NativeProgram Unit
  | [] => pure ()
  | next :: rest => do
    modify fun world => { world with unannounced := rest }
    emit outside
    emitWhen outside next.signal
    announce rest

def emitCompleted : NativeProgram Unit := do
  let world ← get
  announce outside world.unannounced

/-- A call without a committed result is marked before it is dispatched. -/
def dispatch (call : FunctionCall) (identity : Identity) : NativeProgram Unit := do
  let world ← get
  let key : ToolKey := ⟨world.session.id, call.callId⟩
  setPending (some (.tool key))
  save outside
  -- the call has not been made when an earlier announcement fails
  handleAll (emitCompleted outside) fun failure => do
    setPending none
    throw failure
  begins (.dispatched key identity none)
  let result ← ask outside.tool
  let signal ← ask outside.signal
  modify fun world => world.recorded call identity result signal

def replay (call : FunctionCall) (previous : Entry) : NativeProgram Unit :=
  modify fun world => { world with state := showOutput world.state call previous.visible }.answered call false

/-- `_recall`, which makes no mark. -/
def runRecall (call : FunctionCall) (arguments : Fields) : NativeProgram Unit := do
  ask outside.load
  let signal ← ask outside.signal
  let world ← get
  let lineage ← lifted ((world.memory.lineage world.store).runRecall call arguments signal)
  modify fun world =>
    { world with state := { world.state with context := lineage.state } }.answered call signal.isSome

/-- One call of `_run_calls`. -/
def runCall (call : FunctionCall) : NativeProgram Unit :=
  match Json.loads call.arguments with
  | some (.obj arguments) => do
    let identity : Identity := ⟨call.name, Json.sortKeys (.obj arguments)⟩
    let world ← get
    if call.name = recallOutput ∧ world.state.budgeted = true then runRecall outside call arguments
    else do
      ask outside.load
      let world ← get
      let key : ToolKey := ⟨world.session.id, call.callId⟩
      let found ← lifted ((world.memory.lineage world.store).findToolResult fun results =>
        Dict.get results key)
      match found with
      | some previous =>
        if previous.identity = identity then replay call previous
        else raise "COMMAND_MISMATCH" "Reused tool call ID changed its arguments" (some (.tool key))
      | none => dispatch outside call identity
  | _ => raise "INVALID_TOOL_ARGUMENTS" "Provider tool arguments are not a JSON object"

/-! ### Responses -/

def callsOf (output : List Produced) : List FunctionCall :=
  output.filterMap fun
    | .functionCall call => some call
    | _ => none

/-- The compaction items with their contents. -/
def compactionsOf (output : List Produced) : List (String × String) :=
  output.filterMap fun
    | .compaction id content => some (id, content)
    | _ => none

def contextAnchor : NativeProgram (Option String) := do
  match outside.anchor with
  | some hook => do
    let anchor ← ask hook
    pure (some anchor)
  | none => do
    let world ← get
    pure world.state.context.initialAnchor

/-- `_advance_active_input`: the prefix goes to an archive, and the shorter input is saved. -/
def advance (output : List Produced) : NativeProgram Unit :=
  if (compactionsOf output).isEmpty then pure ()
  else do
    let anchor ← contextAnchor outside
    let world ← get
    let lineage ← lifted ((world.memory.lineage world.store).advanceActiveInput output anchor)
    ask outside.archive
    modify fun world =>
      { world with
        state := { world.state with context := lineage.state, responses := [] }
        store := lineage.store
        archived := world.archived ++ [world.state.responses] }
    save outside
    emit outside

/-- The session has used more than `max_total_tokens`. -/
def Saved.exceeded (saved : Saved) : Bool :=
  match saved.session.limits.maxTotalTokens with
  | some total =>
    total < saved.state.cumulativeInputOffset + saved.state.cumulativeOutputOffset +
      saved.session.inputTokens + saved.session.outputTokens
  | none => false

/-- The checks of a response whose usage has been settled. -/
def checkResponse (reserved usage : Usage) (response : Response) : NativeProgram Unit := do
  let world ← get
  let compactions := compactionsOf response.output
  if world.memory.exceeded then
    raise "PROVIDER_LIMIT_VIOLATION" "Provider reported consumption beyond preflight token reservation"
  else if reserved.inputTokens < usage.inputTokens || reserved.outputTokens < usage.outputTokens then
    raise "PROVIDER_LIMIT_VIOLATION" "Provider reported usage beyond reserved request capacity"
  else if response.status ≠ "completed" then
    raise "PROVIDER_INCOMPLETE" ("Provider response status is " ++ response.status)
  else if compactions.any fun item => item.1.isEmpty || item.2.isEmpty then
    raise "INVALID_COMPACTION" "Provider returned malformed compaction item"
  else if ¬ (compactions.map Prod.fst).Nodup then
    raise "INVALID_COMPACTION" "Provider repeated a compaction item ID"
  else pure ()

/-- The response enters the state before its usage is settled. -/
def World.took (world : World) (response : Response) (usage : Usage) : World :=
  { world with
    session := { world.session with
      inputTokens := world.session.inputTokens + usage.inputTokens
      outputTokens := world.session.outputTokens + usage.outputTokens }
    state := { world.state with
      context := { world.state.context with
        elision := { world.state.context.elision with seq := world.state.context.elision.seq + 1 }
        input := world.state.context.input ++ response.output.map .produced } } }

/-- The usage was reported: nothing is pending. -/
def World.settled (world : World) (number : Nat) (reserved usage : Usage) (response : Response) : World :=
  { world with
    state := { world.state with
      pendingOperation := none
      settledResponse := some ⟨response.id, .generation number, usage, reserved⟩
      compactionReplayPending := none }
    history := world.history.dropLast ++ [.generation number (.settled usage)] }

/-- The replay of a compaction is noted before it. -/
def noteCompactions (response : Response) : NativeProgram Unit :=
  match (compactionsOf response.output).getLast? with
  | none => pure ()
  | some latest => do
    changeState fun state =>
      { state with
        compactionReplayPending :=
          if state.compactionRecoveryProtocol then some ⟨response.id, latest.1⟩
          else state.compactionReplayPending }
    save outside
    emit outside

/-- The boundary is settled, and saved so. -/
def settleBoundary : NativeProgram Unit := do
  changeState fun state => { state with settledBoundary := true }
  save outside

/-- A response with text and no calls ends the session. -/
def concludeText (response : Response) : NativeProgram (Option RuntimeResult) := do
  changeState fun state => { state with settledBoundary := true, terminalResponsePending := true }
  save outside
  let handoff ← maybeHandoff outside response.outputText
  match handoff with
  | some result => pure (some result)
  | none => do
    changeState fun state => { state with terminalResponsePending := false }
    changeSession fun session => { session with status := .completed }
    save outside
    emit outside
    pure (some { outputText := response.outputText })

/-- What follows a response that passes its checks. -/
def conclude (response : Response) : NativeProgram (Option RuntimeResult) :=
  match callsOf response.output with
  | [] =>
    if response.outputText.isEmpty then
      if (compactionsOf response.output).isEmpty then
        raise "MODEL_OUTPUT_MISSING" "Provider returned no model text"
      else do
        advance outside response.output
        settleBoundary outside
        maybeHandoff outside ""
    else concludeText outside response
  | calls => do
    calls.forM (runCall outside)
    advance outside response.output
    settleBoundary outside
    emitCompleted outside
    maybeHandoff outside ""

/-- The usage of a response is saved, reported and settled before anything is done about the response. -/
def takeUsage (number : Nat) (reserved usage : Usage) (response : Response) : NativeProgram Unit := do
  modify fun world => world.took response usage
  save outside
  emitTelemetry outside
  emit outside
  modify fun world => world.settled number reserved usage response

/-- What `_loop` makes of a response. -/
def takeResponse (number : Nat) (reserved : Usage) (response : Response) :
    NativeProgram (Option RuntimeResult) := do
  let world ← get
  let mismatch := response.model ≠ world.session.model
  changeState fun state =>
    { state with
      settledBoundary := if mismatch then state.settledBoundary else false
      responses := state.responses ++ [response] }
  changeSession fun session =>
    { session with nativeSessionId := some response.id, turns := session.turns + 1 }
  if mismatch then do
    save outside
    raise "PROVIDER_MODEL_MISMATCH" "Provider response model differs from the requested model"
      (some (.generation number))
  else
    match response.usage with
    | none => do
      save outside
      raise "USAGE_UNAVAILABLE" "Provider omitted token usage; budget reconciliation required"
        (some (.generation number))
    | some usage => do
      takeUsage outside number reserved usage response
      checkResponse reserved usage response
      noteCompactions outside response
      conclude outside response

/-! ### The loop -/

/-- One turn of `_loop`: the result that ends it, or none. -/
def turn : NativeProgram (Option RuntimeResult) := do
  let verified ← ask outside.guard
  if verified then do
    let result ← completeVerified outside
    pure (some result)
  else do
    let world ← get
    if world.session.limits.maxTurns ≤ world.session.turns then
      raise "BUDGET_EXHAUSTED" "Session exhausted provider-turn budget"
    else do
      receiveUpdates outside
      receiveTurnNote outside
      elide
      let prepared ← prepareRequest outside
      match prepared with
      | .inl result => pure (some result)
      | .inr reserved => do
        let sent ← send outside
        match sent with
        | .inl result => pure (some result)
        | .inr (number, response) => takeResponse outside number reserved response

/-- `_loop`: each turn without a result takes a response, so there are no more turns than `max_turns` and
the one that finds them spent. -/
def loop : Nat → NativeProgram RuntimeResult
  | 0 => raise "BUDGET_EXHAUSTED" "Session exhausted provider-turn budget"
  | turns + 1 => do
    let ended ← turn outside
    match ended with
    | some result => pure result
    | none => loop turns

/-- What `_run` reports of a failure. -/
def reported (failure : Failure) (pending : Option Operation) : NativeProgram RuntimeResult :=
  match failure with
  | .cancelled true | .other true => raise "TIMEOUT" "Runtime exceeded wall-clock limit" pending
  | .other false =>
    raise "PROVIDER_FAILED"
      "Provider or persistence hook failed; inspect correlated internal error" pending
  | failure => throw failure

/-- The status that a failure leaves. -/
def failedStatus (failure : Failure) (pending : Option Operation) : SessionStatus :=
  if pending.isSome then .uncertain
  else if failure = .cancelled false then .interrupted
  else .failed

/-- `_save_failure`, with what it announces. -/
def saveFailure : NativeProgram Unit := do
  save outside
  emitTelemetry outside
  let world ← get
  world.unannounced.forM fun announcement => do
    emitTelemetry outside
    if announcement.signal then emitTelemetry outside else pure ()

def failRun (failure : Failure) : NativeProgram RuntimeResult := do
  let world ← get
  let pending := world.state.pendingOperation
  changeSession fun session => { session with status := failedStatus failure pending }
  saveFailure outside
  reported failure pending

/-- `_run`, with a prompt or without. -/
def run (prompt : Option String) : NativeProgram RuntimeResult := do
  let world ← get
  if !outside.configured then
    raise "INVALID_CONFIG" "The request contract or the context window is invalid"
  else if !world.state.settledBoundary || world.state.pendingOperation.isSome then
    raise "OPERATION_UNCERTAIN" "Native response has unsettled tool or context effects"
  else do
    changeSession fun session => { session with status := .running }
    changeContext (append (prompt.toList.map textOf))
    lastly
      (handleAll
        (do
          save outside
          loop outside (world.session.limits.maxTurns - world.session.turns + 1))
        (failRun outside))
      (modify fun world => { world with unannounced := [] })

/-! ### Calls of the runtime -/

/-- The last items of the active input are those of the response. -/
def endsWith (context : ContextState) (output : List Produced) : Bool :=
  context.input.drop (context.input.length - output.length) == output.map .produced

/-- The usage of the response is within what its session has counted. -/
def Saved.counted (saved : Saved) (response : Response) : Bool :=
  response.usage.any fun usage =>
    usage.inputTokens ≤ saved.session.inputTokens && usage.outputTokens ≤ saved.session.outputTokens

/-- `completed_result`: the text of a settled last response. -/
def completedResult (saved : Saved) : Option String :=
  match saved.state.responses.getLast? with
  | some native =>
    if saved.state.settledBoundary && saved.state.pendingOperation.isNone && !native.id.isEmpty &&
        saved.session.nativeSessionId == some native.id && native.model == saved.session.model &&
        native.status == "completed" && !native.output.isEmpty && (callsOf native.output).isEmpty &&
        endsWith saved.state.context native.output && saved.counted native &&
        1 ≤ saved.session.turns && !native.outputText.isEmpty then
      some native.outputText
    else none
  | none => none

/-- A session that a local recovery may settle. -/
def recoverable (status : SessionStatus) : Bool :=
  status ∈ [SessionStatus.failed, .running, .interrupted, .ready]

/-- The latest checkpoint of the session, for a caller that holds a current one or not. -/
def loadCheckpoint (current : Bool) : NativeProgram Saved := do
  ask outside.load
  let world ← get
  match world.checkpoint with
  | none => raise "SESSION_NOT_FOUND" "Runtime session does not exist"
  | some saved =>
    if current then do
      modify fun world => { world with session := saved.loaded.session, state := saved.loaded.state }
      pure saved.loaded
    else raise "CHECKPOINT_MISMATCH" "Recovery requires current state"

/-- `continue_session` -/
def continueSession (prompt : String) : NativeProgram RuntimeResult := do
  let saved ← loadCheckpoint outside true
  if saved.state.terminalResponsePending then
    raise "TERMINAL_SETTLEMENT_REQUIRED"
      "Saved terminal response requires local settlement before continuation"
  else if saved.session.status ∉ [SessionStatus.ready, .completed] then
    raise "SESSION_NOT_READY" "Session requires explicit reconciliation before continuing"
  else run outside (some prompt)

/-- `recover_terminal`: settle a paid response without another request. -/
def recoverTerminal (current : Bool) : NativeProgram RuntimeResult := do
  let saved ← loadCheckpoint outside current
  if !recoverable saved.session.status || !saved.state.terminalResponsePending ||
      !saved.state.settledBoundary || saved.state.pendingOperation.isSome then
    raise "TERMINAL_RECOVERY_INVALID" "No settled terminal response to recover"
  else
    match completedResult saved with
    | none => raise "COMPLETED_RESULT_INVALID" "Completed native response conflicts with session"
    | some text => do
      let handoff ← maybeHandoff outside text
      match handoff with
      | some result => pure result
      | none => do
        changeState fun state => { state with terminalResponsePending := false }
        changeSession fun session => { session with status := .completed }
        save outside
        emit outside
        pure { outputText := text }

/-- `not state.get("responses") and bool(state.get("archives"))` -/
def NativeState.pruned (state : NativeState) : Bool :=
  state.responses.isEmpty && !state.context.archives.isEmpty

/-- The paid response that an interrupted compaction is about: the last one, or the last of the archive when
the input was pruned already. -/
def interrupted (saved : Saved) (archived : List (List Response)) : Option Response :=
  if saved.state.settledBoundary || saved.state.pruned then
    match saved.state.compactionReplayPending, saved.state.context.archives.getLast? with
    | some marker, some id =>
      match (archived[id]?.getD []).getLast?, saved.state.context.input with
      | some native, .produced (.compaction first _) :: _ =>
        if native.id = marker.responseId ∧
            saved.state.context.lastCompactionId = some marker.latestItemId ∧
              first = marker.latestItemId then
          some native
        else none
      | _, _ => none
    | _, _ => none
  else saved.state.responses.getLast?

/-- The response has only compaction items, was paid for, and was settled as the state says. -/
def paidCompaction (saved : Saved) (native : Response) : Bool :=
  let compactions := compactionsOf native.output
  saved.session.nativeSessionId == some native.id && native.model == saved.session.model &&
    native.status == "completed" && !native.output.isEmpty &&
    compactions.length == native.output.length &&
    (compactions.all fun item => !item.1.isEmpty && !item.2.isEmpty) &&
    decide (compactions.map Prod.fst).Nodup && saved.counted native &&
    (saved.state.settledResponse.any fun settlement =>
      settlement.responseId == native.id && some settlement.usage == native.usage &&
        settlement.usage.inputTokens ≤ settlement.reserved.inputTokens &&
        settlement.usage.outputTokens ≤ settlement.reserved.outputTokens) &&
    !saved.exceeded &&
    saved.state.compactionReplayPending.all fun marker =>
      marker.responseId != native.id ||
        (compactions.getLast?.map Prod.fst) == some marker.latestItemId

/-- The marker of the replay, unless it is there. -/
def markReplay (native : Response) : NativeProgram Unit := do
  let world ← get
  if world.state.compactionReplayPending.any fun marker => marker.responseId = native.id then pure ()
  else
    match (compactionsOf native.output).getLast? with
    | none => pure ()
    | some latest => do
      changeState fun state =>
        { state with compactionReplayPending := some ⟨native.id, latest.1⟩ }
      save outside

/-- The input is pruned unless it was before the interruption. -/
def finishPruning (native : Response) : NativeProgram Unit := do
  let world ← get
  if world.state.pruned then pure ()
  else if endsWith world.state.context native.output then do
    markReplay outside native
    advance outside native.output
  else raise "COMPACTION_RECOVERY_INVALID" "Active input changed"

/-- The part of `recover_compaction` that an interruption left undone. -/
def finishCompaction (native : Response) : NativeProgram Unit := do
  let world ← get
  if world.state.settledBoundary then pure ()
  else do
    finishPruning outside native
    settleBoundary outside

/-- `recover_compaction` -/
def recoverCompaction (current : Bool) : NativeProgram RuntimeResult := do
  let saved ← loadCheckpoint outside current
  if !recoverable saved.session.status || !saved.state.compactionRecoveryProtocol ||
      saved.state.pendingOperation.isSome || saved.state.terminalResponsePending then
    raise "COMPACTION_RECOVERY_INVALID" "Compaction has unresolved effects"
  else do
    ask outside.load
    let world ← get
    match interrupted saved world.archived with
    | none => raise "COMPACTION_RECOVERY_INVALID" "No interrupted compaction"
    | some native =>
      if paidCompaction saved native then do
        finishCompaction outside native
        let handoff ← maybeHandoff outside ""
        match handoff with
        | some result => pure result
        | none => run outside none
      else raise "COMPACTION_RECOVERY_INVALID" "Paid response is not compaction-only"

/-- `resume`: a session is opened again at a settled boundary. -/
def resume (current : Bool) : NativeProgram RuntimeResult := do
  let saved ← loadCheckpoint outside current
  if saved.state.terminalResponsePending then
    raise "TERMINAL_SETTLEMENT_REQUIRED"
      "Saved terminal response requires local settlement before resume"
  else if saved.session.status = .handedOff then
    raise "SESSION_HANDED_OFF" "Handed-off source session cannot resume"
  else if saved.state.pendingOperation.isSome || saved.session.status = .uncertain then
    raise "OPERATION_UNCERTAIN" "Checkpoint has an unresolved operation; reconcile before resuming"
  else if !saved.state.settledBoundary then
    raise "OPERATION_UNCERTAIN" "Native response has unsettled tool or context effects"
  else do
    changeSession fun session =>
      { session with
        status :=
          if session.status ∈ [SessionStatus.interrupted, .running, .failed] then .ready
          else session.status }
    save outside
    pure {}

/-- `start` and `start_from_handoff`, after the state of the session is built. -/
def begin (prompt : String) : NativeProgram RuntimeResult := do
  save outside
  run outside (some prompt)

inductive Command where
  | continueSession (prompt : String)
  | recoverTerminal (current : Bool)
  | recoverCompaction (current : Bool)
  | resume (current : Bool)

def Command.program : Command → NativeProgram RuntimeResult
  | .continueSession prompt => Native.continueSession outside prompt
  | .recoverTerminal current => Native.recoverTerminal outside current
  | .recoverCompaction current => Native.recoverCompaction outside current
  | .resume current => Native.resume outside current

/-- The world that a program leaves, whatever it ends with. -/
def World.after (world : World) (program : NativeProgram RuntimeResult) : World :=
  match program world with
  | .ok _ after => after
  | .error _ after => after

/-- One call, with what the outside does during it. -/
structure Call where
  outside : Outside
  command : Command

def World.call (world : World) (call : Call) : World :=
  world.after (call.command.program call.outside)

/-- A session that `start` or `start_from_handoff` opens, and every call after it. -/
def World.life (opened : World) (outside : Outside) (prompt : String) (calls : List Call) : World :=
  Transition.run World.call (opened.after (begin outside prompt)) calls

end PhysHarness.Native
