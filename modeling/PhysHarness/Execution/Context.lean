import PhysHarness.Execution.Rendering
import PhysHarness.Lib.Outcome
import PhysHarness.Lib.Transition

/-!
The active input of a lineage of native sessions under a context budget.

A session keeps the result of each tool call; compaction moves the results to an archive, a handoff
carries results and archive references to the successor, and the input shows each output in one of
its forms. An archive is known by its place in the store, which returns what it was given. The
history of a lineage is the list of the calls that it has made.
-/
namespace PhysHarness

open Outcome

structure ExecutionError where
  code : String
  message : String
  operationId : Option String := none
  retryable : Bool := false
  deriving DecidableEq

/-- An `identifier()`, the text of a UUID. -/
structure SessionId where
  text : String
  plain : ':' ∉ text.toList := by decide
  deriving DecidableEq

/-- The key `{session_id}:{call_id}` of a tool result. -/
structure ToolKey where
  session : SessionId
  callId : String
  deriving DecidableEq

def ToolKey.text (key : ToolKey) : String := key.session.text ++ ":" ++ key.callId

/-- `key.endswith(f":{call_id}")` -/
def ToolKey.endsWith (key : ToolKey) (callId : String) : Bool :=
  (':' :: callId.toList).isSuffixOf key.text.toList

/-- What the identity of a call digests. -/
structure Identity where
  name : String
  arguments : Json
  deriving DecidableEq

/-- A stored tool result. -/
structure Entry where
  identity : Identity
  result : Fields
  visibleOutput : Option Fields := none
  seq : Nat
  name : String

def Entry.visible (entry : Entry) : Fields := entry.visibleOutput.getD entry.result

structure RecallPage where
  seq : Nat
  callId : String
  offset : Nat

structure Elision where
  seq : Nat := 0
  lastBlockSeq : Nat := 0

/-- An item of a provider response. -/
inductive Produced where
  | functionCall (call : FunctionCall)
  | compaction (id encryptedContent : String)
  | other (content : Json)
  deriving DecidableEq

structure ToolOutput where
  callId : String
  output : Text
  deriving DecidableEq

/-- An item of the active input. -/
inductive InputItem where
  | user (content : Json)
  | produced (item : Produced)
  | toolOutput (shown : ToolOutput)
  deriving DecidableEq

abbrev ToolResults := List (ToolKey × Entry)

/-- What context shaping reads and writes of a native state. -/
structure ContextState where
  input : List InputItem := []
  toolResults : ToolResults := []
  archives : List Nat := []
  archiveRefs : List (SessionId × Nat) := []
  contextBudget : ContextBudget
  elision : Elision := {}
  recallPages : List (String × RecallPage) := []
  initialAnchor : Option String
  activeInputEpoch : Nat := 0
  lastCompactionId : Option String := none

structure Archive where
  owner : SessionId
  inputPrefix : List InputItem
  toolResults : ToolResults

/-- A call as the lineage made it: what the model was to see, and the page that a recall read. -/
structure Made where
  key : ToolKey
  name : String
  seq : Nat
  visible : Fields
  page : Option (String × Nat) := none
  stored : Bool

structure NativeLineage where
  session : SessionId
  state : ContextState
  store : List Archive := []
  made : List Made := []

/-! ### Stored data comes back with sorted keys -/

def sortedFields (fields : Fields) : Fields :=
  (Json.sortFields fields).insertionSort fun x y => x.1 ≤ y.1

def Entry.reloaded (entry : Entry) : Entry :=
  { entry with
    result := sortedFields entry.result
    visibleOutput := entry.visibleOutput.map sortedFields }

def ToolResults.reloaded (results : ToolResults) : ToolResults :=
  (results.map fun item => (item.1, item.2.reloaded)).insertionSort fun x y => x.1.text ≤ y.1.text

/-- The state as its checkpoint gives it back. -/
def ContextState.reloaded (state : ContextState) : ContextState :=
  { state with toolResults := state.toolResults.reloaded }

namespace NativeLineage

def loadArchive (lineage : NativeLineage) (ref : SessionId × Nat) : Except ExecutionError ToolResults :=
  match lineage.store[ref.2]? with
  | some archive =>
    if archive.owner = ref.1 then .ok archive.toolResults.reloaded
    else .error ⟨"ARCHIVE_NOT_FOUND", "Native archive is missing", none, false⟩
  | none => .error ⟨"ARCHIVE_NOT_FOUND", "Native archive is missing", none, false⟩

/-- The archives in the order of the search: own ones, then inherited ones, the latest first. -/
def refs (lineage : NativeLineage) : List (SessionId × Nat) :=
  (lineage.state.archives.reverse.map fun id => (lineage.session, id)) ++
    lineage.state.archiveRefs.reverse

def searchArchives (lineage : NativeLineage) (pick : ToolResults → Option Entry) :
    List (SessionId × Nat) → Except ExecutionError (Option Entry)
  | [] => .ok none
  | ref :: refs =>
    -- the keys of an archive read before only save reading it again
    lineage.loadArchive ref >>= fun results =>
      match pick results with
      | some entry => .ok (some entry)
      | none => searchArchives lineage pick refs

/-- `_find_tool_result`: active results, then archives. -/
def findToolResult (lineage : NativeLineage) (pick : ToolResults → Option Entry) :
    Except ExecutionError (Option Entry) :=
  match pick lineage.state.toolResults with
  | some entry => .ok (some entry)
  | none => lineage.searchArchives pick lineage.refs

/-- With `match_suffix`: the latest entry of any session under the call id. -/
def pickSuffix (callId : String) (results : ToolResults) : Option Entry :=
  (results.reverse.find? fun item => item.1.endsWith callId).map Prod.snd

/-- What a recall answers. -/
inductive Recalled where
  | error (code message : String)
  | page (callId : String) (offset : Nat) (nextOffset : Option Nat) (totalChars : Nat) (text : Text)

def Recalled.toFields : Recalled → Fields
  | .error code message =>
    [("error", .obj [("code", .str code), ("message", .str message)])]
  | .page callId offset nextOffset totalChars text =>
    [("call_id", .str callId), ("offset", .int offset),
      ("next_offset", match nextOffset with | some next => .int next | none => .null),
      ("total_chars", .int totalChars), ("text", .str (.ofList text))]

/-- The call id and the offset of a recall, when they pass its check. -/
def recallArguments (arguments : Fields) : Option (String × Nat) :=
  match Dict.get arguments "call_id", Dict.get arguments "offset" with
  | some (.str callId), some (.int offset) =>
    if 0 < callId.length ∧ callId.length ≤ 200 ∧ 0 ≤ offset then some (callId, offset.toNat)
    else none
  | _, _ => none

/-- `_recall`: a page of a stored tool output. -/
def «recall» (lineage : NativeLineage) (arguments : Fields) : Except ExecutionError Recalled :=
  match recallArguments arguments with
  | none => .ok (.error "INVALID_TOOL_ARGUMENTS" "Give call_id and offset >= 0.")
  | some (callId, offset) =>
    lineage.findToolResult (pickSuffix callId) >>= fun
      | none => .ok (.error "RECALL_NOT_FOUND" "No stored output has this call_id.")
      | some entry =>
        let text := storedText entry.visible
        let page := recallPage text offset
        let stop := offset + page.length
        .ok (.page callId offset (if stop < text.length then some stop else none) text.length page)

/-! ### Tool calls -/

/-- The stagnation signal that a call raises. -/
structure Signal where
  kind : String
  message : String

/-- `{**result, "_research_runtime_signal": …}` -/
def withSignal (result : Fields) : Option Signal → Fields
  | none => result
  | some signal =>
    Dict.set result "_research_runtime_signal"
      (.obj [("kind", .str signal.kind), ("message", .str signal.message)])

def appendOutput (state : ContextState) (call : FunctionCall) (visible : Fields) : ContextState :=
  { state with
    input := state.input ++
      [.toolOutput ⟨call.callId, toolOutputText state.contextBudget call visible⟩] }

/-- The call as it enters the history. -/
def record (lineage : NativeLineage) (call : FunctionCall) (visible : Fields)
    (page : Option (String × Nat)) (stored : Bool) : List Made :=
  lineage.made ++ [{
    key := ⟨lineage.session, call.callId⟩, name := call.name, seq := lineage.state.elision.seq,
    visible, page, stored }]

/-- A recall reads stored outputs: it is never stored, and its page is remembered for its stub. -/
def runRecall (lineage : NativeLineage) (call : FunctionCall) (arguments : Fields)
    (signal : Option Signal) : Except ExecutionError NativeLineage := do
  let recalled ← lineage.recall arguments
  let visible := withSignal recalled.toFields signal
  let page := match recalled with
    | .page callId offset _ _ _ => some (callId, offset)
    | .error _ _ => none
  let state := match page with
    | some (callId, offset) =>
      { lineage.state with
        recallPages := Dict.set lineage.state.recallPages call.callId
          ⟨lineage.state.elision.seq, callId, offset⟩ }
    | none => lineage.state
  pure { lineage with
    state := appendOutput state call visible
    made := lineage.record call visible page false }

/-- A dispatched call keeps its result under its key. -/
def runDispatched (lineage : NativeLineage) (call : FunctionCall) (identity : Identity) (result : Fields)
    (signal : Option Signal) : NativeLineage :=
  let visible := withSignal result signal
  let entry : Entry := {
    identity, result, visibleOutput := signal.map fun _ => visible,
    seq := lineage.state.elision.seq, name := call.name }
  let state :=
    { lineage.state with
      toolResults := Dict.set lineage.state.toolResults ⟨lineage.session, call.callId⟩ entry }
  { lineage with
    state := appendOutput state call visible
    made := lineage.record call visible none true }

/-- One call of `_run_calls`. A call that is not answered from a committed result takes what the
dispatcher returns and the signal that it raises. -/
def runCall [FloatReader] (lineage : NativeLineage) (call : FunctionCall)
    (dispatched : Except ExecutionError Fields) (signal : Option Signal) :
    Except ExecutionError NativeLineage := do
  let operation : ToolKey := ⟨lineage.session, call.callId⟩
  match Json.loads call.arguments with
  | some (.obj arguments) =>
    let identity : Identity := ⟨call.name, Json.sortKeys (.obj arguments)⟩
    if call.name = recallOutput then lineage.runRecall call arguments signal
    else
      match ← lineage.findToolResult fun results => Dict.get results operation with
      | some previous =>
        require (previous.identity = identity)
          (⟨"COMMAND_MISMATCH", "Reused tool call ID changed its arguments",
            some operation.text, false⟩ : ExecutionError)
        pure { lineage with state := appendOutput lineage.state call previous.visible }
      | none =>
        let result ← dispatched
        pure (lineage.runDispatched call identity result signal)
  | _ =>
    .error ⟨"INVALID_TOOL_ARGUMENTS", "Provider tool arguments are not a JSON object", none, false⟩

/-! ### Elision -/

section

variable [ContentHash]

/-- When an output was made and by which tool: from the active results, else from the recalled
pages. -/
def elidable (state : ContextState) (callId : String) : Option (Nat × String) :=
  match state.toolResults.reverse.find? fun item => item.1.callId = callId with
  | some (_, entry) => some (entry.seq, entry.name)
  | none => (Dict.get state.recallPages callId).map fun page => (page.seq, recallOutput)

/-- The stub of an output under its call id; a recalled page is rebuilt from its own handle. -/
def stubOf (state : ContextState) (tool : String) (shown : ToolOutput) : Text :=
  match Dict.get state.recallPages shown.callId with
  | none => elisionStub tool shown.callId shown.output none
  | some page => elisionStub recallOutput page.callId shown.output (some page.offset)

def elideOutput (state : ContextState) (shown : ToolOutput) : ToolOutput :=
  match elidable state shown.callId with
  | none => shown
  | some (seq, tool) =>
    if state.elision.seq < seq + state.contextBudget.elideAfterTurns ∨
        shown.output.length ≤ state.contextBudget.elideMinChars ∨
        isElisionStub shown.output = true then shown
    else
      let stub := stubOf state tool shown
      -- elision never lengthens an output
      if shown.output.length ≤ stub.length then shown else { shown with output := stub }

def elideItem (state : ContextState) : InputItem → InputItem
  | .toolOutput shown => .toolOutput (elideOutput state shown)
  | item => item

/-- `_elide_block`: once per block of responses. -/
def elideBlock (state : ContextState) : ContextState :=
  if state.elision.seq < state.elision.lastBlockSeq + state.contextBudget.elideEveryTurns then state
  else
    { state with
      input := state.input.map (elideItem state)
      elision := { state.elision with lastBlockSeq := state.elision.seq } }

end

/-! ### Compaction -/

/-- The last place where the item stands. -/
def lastIndex (active : List InputItem) (item : InputItem) : Option Nat :=
  (List.range active.length).reverse.find? fun i => active[i]? = some item

/-- Where the calls stand whose outputs follow the compaction item. -/
def crossingCalls (active : List InputItem) (index : Nat) : List Nat :=
  let outputsAfter := (active.drop (index + 1)).filterMap fun
    | .toolOutput shown => some shown.callId
    | _ => none
  (List.range index).filter fun i =>
    match active[i]? with
    | some (.produced (.functionCall call)) => call.callId ∈ outputsAfter
    | _ => false

def invalidCompaction (message : String) : ExecutionError :=
  ⟨"INVALID_COMPACTION", message, none, false⟩

/-- From where the input is kept: from the compaction item, or from the start of its response when
a call and its output straddle it. -/
def keepFrom (active : List InputItem) (output : List Produced) (index : Nat) :
    Except ExecutionError Nat :=
  match crossingCalls active index with
  | [] => pure index
  | crossing => do
    let calls := output.countP fun | .functionCall _ => true | _ => false
    let start := active.length - output.length - calls
    require (output.length + calls ≤ active.length ∧
        (active.drop start).take output.length = output.map .produced)
      (invalidCompaction "Provider response group missing from active input")
    pure (crossing.foldl min start)

/-- `_advance_active_input`: what stands before the last compaction item of the response goes to an
archive with the results, and the anchor follows what is kept. -/
def advanceActiveInput (lineage : NativeLineage) (output : List Produced) (anchor : Option String) :
    Except ExecutionError NativeLineage := do
  let compactions := output.filter fun | .compaction _ _ => true | _ => false
  match compactions.getLast? with
  | some (.compaction id content) =>
    let active := lineage.state.input
    let index ← orThrow (lastIndex active (.produced (.compaction id content)))
      (invalidCompaction "Compaction item missing from active input")
    let start ← keepFrom active output index
    let anchor ← orThrow (anchor.filter fun text => !blank text && text.length ≤ 100000)
      (⟨"ANCHOR_UNAVAILABLE", "Authoritative context anchor is invalid", none, false⟩ :
        ExecutionError)
    pure { lineage with
      store := lineage.store ++ [⟨lineage.session, active.take start, lineage.state.toolResults⟩]
      state := { lineage.state with
        archives := lineage.state.archives ++ [lineage.store.length]
        toolResults := []
        input := active.drop start ++ [.user (.obj [("role", .str "user"), ("content", .str anchor)])]
        activeInputEpoch := lineage.state.activeInputEpoch + 1
        lastCompactionId := some id } }
  | _ => pure lineage

/-! ### Handoff -/

/-- `start_from_handoff`: the successor takes over the context, and the archives by reference. -/
def startFromHandoff (lineage : NativeLineage) (session : SessionId) (prompt : String) : NativeLineage :=
  let prior := lineage.state
  { lineage with
    session
    state := {
      input := prior.input ++ [.user (.obj [("role", .str "user"), ("content", .str prompt)])]
      toolResults := prior.toolResults
      archives := []
      archiveRefs := prior.archiveRefs ++ prior.archives.map fun id => (lineage.session, id)
      contextBudget := prior.contextBudget
      elision := prior.elision
      recallPages := prior.recallPages
      initialAnchor := some (prior.initialAnchor.getD prompt)
      activeInputEpoch := prior.activeInputEpoch } }

/-! ### Runs -/

/-- What can happen to the context of a lineage. A refused step leaves it as it is. -/
inductive Step where
  /-- A prompt, an update or a note is added. -/
  | inform (content : Json)
  | elide
  /-- A response arrives. -/
  | respond (output : List Produced)
  | call (call : FunctionCall) (dispatched : Except ExecutionError Fields) (signal : Option Signal)
  /-- With the anchor of the hook, when there is one. -/
  | advance (output : List Produced) (anchor : Option String)
  | handoff (session : SessionId) (prompt : String)
  /-- The state is loaded from its checkpoint. -/
  | reload

section

def attempt (lineage : NativeLineage) (result : Except ExecutionError NativeLineage) :
    NativeLineage :=
  match result with
  | .ok after => after
  | .error _ => lineage

variable [ContentHash] [FloatReader]

def step (lineage : NativeLineage) : Step → NativeLineage
  | .inform content =>
    { lineage with state := { lineage.state with input := lineage.state.input ++ [.user content] } }
  | .elide => { lineage with state := elideBlock lineage.state }
  | .respond output =>
    { lineage with state := { lineage.state with
        elision := { lineage.state.elision with seq := lineage.state.elision.seq + 1 }
        input := lineage.state.input ++ output.map .produced } }
  | .call call dispatched signal => lineage.attempt (lineage.runCall call dispatched signal)
  | .advance output anchor =>
    lineage.attempt (lineage.advanceActiveInput output (anchor <|> lineage.state.initialAnchor))
  | .handoff session prompt => lineage.startFromHandoff session prompt
  | .reload => { lineage with state := lineage.state.reloaded }

end

/-- A session as `start` makes it. -/
def start (session : SessionId) (budget : ContextBudget) (prompt : String) : NativeLineage :=
  { session, state := { contextBudget := budget, initialAnchor := some prompt } }

end NativeLineage
end PhysHarness
