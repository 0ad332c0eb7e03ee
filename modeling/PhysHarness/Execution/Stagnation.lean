import PhysHarness.Execution.CheckpointChunks
import PhysHarness.Lib.Python

/-!
# Signals for repeated reads without new work

An agent that keeps reading what it has read is warned, then asked to hand off once, and in the session
after that handoff told that nothing is left. New work begins this anew.

## Sources
- execution/stagnation.py
-/
namespace PhysHarness
namespace Stagnation

open Python (Record FloatValue Key lookup key same truthy)

def readTools : List String :=
  ["read_scientific_record", "history_page", "index_page", "research_graph_page", "read_artifact",
    "read_artifact_chunk", "restart_brief", "working_context", "mailbox_page", "read_dependency_bundle",
    "search_knowledge", "child_task_status", "inspect_verification", "wait_for_verification",
    "read_workspace_file", "search_library_source", "lookup_library_source",
    "lookup_library_declaration", "check_lean_type", "joined_children", "discussion_page",
    "discussion_posts", "read_discussion_post", "read_research_message", "discussion_updates",
    "research_directory", "research_capacity", "commons_query", "commons_read", "inbox", "read_file",
    "search_library", "read_source", "search_literature", "fetch_source", "verification_status",
    "load_skill", "recall_output", "find_declaration", "commons_fetch"]

def terminalReads : List String := ["tail", "cat", "head", "sed", "rg", "grep", "awk"]

def workCommands : List String :=
  ["lean", "lake", "python", "python3", "pytest", "cargo", "make", "cmake"]

def nonProgressTools : List String :=
  readTools ++ ["checkpoint_context", "checkpoint_research_notes", "restore_context", "wait_for_tasks",
    "request_handoff", "checkpoint_workspace", "subscribe_discussion",
    "acknowledge_discussion_updates", "publish_research_profile", "join_research_team",
    "request_research_capacity", "notebook", "commons_claim", "wait", "library_notes"]

def commandTools : List String := ["run_command", "shell"]

def stateKeys : List String :=
  ["progress_epoch", "read_counts", "seen_work", "warned", "recovery_requested", "recovery_attempted",
    "exhausted", "unavailable_calls", "unavailable_warned"]

def maxFingerprints : Nat := 64

def maxCount : Nat := 1000000

def volatileFields : List String :=
  ["operation_id", "execution_id", "request_id", "created_at", "updated_at", "id", "receipt_id",
    "record_id", "artifact_id"]

mutual

/-- `_scientific` -/
def scientific : Json → Json
  | .obj fields => .obj (scientificFields fields)
  | .arr items => .arr (scientificItems items)
  | value => value

def scientificItems : List Json → List Json
  | [] => []
  | item :: items => scientific item :: scientificItems items

def scientificFields : List (String × Json) → List (String × Json)
  | [] => []
  | (name, value) :: fields =>
    if name ∈ volatileFields then scientificFields fields
    else (name, scientific value) :: scientificFields fields

end

def readTarget (arguments : Record) : Record :=
  arguments.filter fun field => field.1 ∉ ["operation_id", "execution_id", "request_id"]

def hasError (result : Record) : Bool := (Dict.get result "error").isSome

/-- A call outside the profile. -/
def unavailable (result : Record) : Bool :=
  match lookup result "error" with
  | .obj error =>
    match lookup error "code" with
    | .str code => decide (code = "TOOL_UNAVAILABLE")
    | _ => false
  | _ => false

/-- `text.rsplit("/", 1)[-1]` -/
def afterSlash (text : List Char) : String := .ofList (text.reverse.takeWhile (· ≠ '/')).reverse

/-- `text.strip().split(maxsplit=1)`, of which the first part counts. -/
def firstWord (text : String) : List Char :=
  (text.toList.dropWhile isSpace).takeWhile fun c => !isSpace c

section

variable [FloatValue]

/-- `_command_name`; `none` stands for an error of the type. -/
def commandName (arguments : Record) : Option String :=
  match lookup arguments "argv" with
  | .arr (.str first :: rest) =>
    let command := afterSlash first.toList
    match rest with
    | flag :: script :: _ =>
      if command ∈ ["sh", "bash", "zsh"] then do
        if (← key flag) ∈ [.text "-c", .text "-lc"] then
          match script with
          | .str text => return afterSlash (firstWord text)
          | _ => none
        else return command
      else return command
    | _ => return command
  | _ => return ""

/-- `_terminal_read` -/
def terminalRead (name : String) (arguments result : Record) : Option Bool :=
  if name ∈ ["discussion_updates", "inbox"] then
    return truthy (lookup result "items") && !hasError result
  else if name ∈ ["inspect_verification", "wait_for_verification", "verification_status"] then do
    return decide ((← key (lookup result "status")) ∈
      [.text "blocked", .text "rejected", .text "verified", .text "completed", .text "failed"])
  else if name = "joined_children" then
    match lookup result "children", lookup result "pending_ids" with
    | .arr (_ :: _), .arr [] => return !hasError result
    | _, _ => return false
  else if name = "child_task_status" then
    match lookup result "all_terminal" with
    | .bool true => return truthy (lookup result "children") && !hasError result
    | _ => return false
  else if name ∈ commandTools then do
    return decide ((← commandName arguments) ∈ terminalReads) && same (lookup result "exit_code") (.int 0)
  else return decide (name ∈ readTools) && !hasError result

/-- A call that is not a read and can be work. -/
def substantive (name : String) (arguments result : Record) : Option Bool :=
  if name ∉ nonProgressTools ∧ hasError result = false then
    if name ∈ commandTools then do return decide ((← commandName arguments) ∈ workCommands)
    else return true
  else return false

end

section

variable [ContentHash]

/-- `_work_identity` -/
def workIdentity (name : String) (arguments result : Record) : Digest :=
  if name ∈ ["write_workspace_file", "write_file"] then
    digest (.obj [("name", .str name), ("content", lookup arguments "content")])
  else if name = "store_artifact" then
    digest (.obj [("name", .str name), ("content", lookup arguments "content")])
  else if name = "submit_candidate" then
    digest (.obj [("name", .str name), ("source", lookup arguments "source")])
  else if name = "verify_candidate" then
    digest (.obj [("name", .str name), ("artifact_id", lookup arguments "artifact_id")])
  else digest (.obj [("name", .str name), ("arguments", .obj arguments),
    ("result", scientific (.obj result))])

/-- The fingerprint of a read. -/
def fingerprint (name : String) (arguments result : Record) : Digest :=
  digest (.obj [("name", .str name), ("target", .obj (readTarget arguments)),
    ("result", scientific (.obj result))])

end

/-! ### The state -/

/-- The keys of the state that are there. -/
structure State where
  progressEpoch : Option Nat := none
  readCounts : Option (List (Digest × Nat)) := none
  seenWork : Option (List Digest) := none
  warned : Option Bool := none
  recoveryRequested : Option Bool := none
  recoveryAttempted : Option Bool := none
  exhausted : Option Bool := none
  unavailableCalls : Option Nat := none
  unavailableWarned : Option Bool := none

/-- The state as the dictionary that is kept. -/
def State.dump (state : State) : Record :=
  (state.progressEpoch.toList.map fun epoch => ("progress_epoch", .int epoch)) ++
  (state.readCounts.toList.map fun counts =>
    ("read_counts", .obj (counts.map fun count => (count.1, .int count.2)))) ++
  (state.seenWork.toList.map fun seen => ("seen_work", .arr (seen.map .str))) ++
  (state.warned.toList.map fun flag => ("warned", .bool flag)) ++
  (state.recoveryRequested.toList.map fun flag => ("recovery_requested", .bool flag)) ++
  (state.recoveryAttempted.toList.map fun flag => ("recovery_attempted", .bool flag)) ++
  (state.exhausted.toList.map fun flag => ("exhausted", .bool flag)) ++
  (state.unavailableCalls.toList.map fun calls => ("unavailable_calls", .int calls)) ++
  (state.unavailableWarned.toList.map fun flag => ("unavailable_warned", .bool flag))

inductive Invalid where
  | value (message : String)
  /-- an element that cannot be hashed or matched -/
  | type

/-- An `int` from a bound to the greatest count. -/
def countFrom (least : Int) (value : Json) : Bool :=
  match value with
  | .int n => decide (least ≤ n ∧ n ≤ maxCount)
  | _ => false

/-- A missing key has its default. -/
def getOr (record : Record) (field : String) (value : Json) : Json := (Dict.get record field).getD value

def isBool : Json → Bool
  | .bool _ => true
  | _ => false

/-- `validate_state` -/
def validateState [FloatValue] (state : Json) : Except Invalid Record := do
  let record ← Outcome.orThrow (asFields state) (.value "invalid stagnation state")
  Outcome.require (∀ field ∈ record, field.1 ∈ stateKeys) (.value "invalid stagnation state")
  Outcome.require (countFrom 0 (getOr record "progress_epoch" (.int 0)) = true)
    (.value "invalid progress epoch")
  let counts ← Outcome.orThrow (asFields (getOr record "read_counts" (.obj [])))
    (.value "invalid stagnation history")
  Outcome.require (counts.length ≤ maxFingerprints) (.value "invalid stagnation history")
  let seen ← Outcome.orThrow (asItems (getOr record "seen_work" (.arr [])))
    (.value "invalid stagnation history")
  Outcome.require (seen.length ≤ maxFingerprints) (.value "invalid stagnation history")
  let keys ← Outcome.orThrow (seen.mapM key) .type
  Outcome.require keys.Nodup (.value "invalid stagnation history")
  Outcome.require ((∀ count ∈ counts, isSha256 count.1 = true ∧ countFrom 1 count.2 = true) ∧
    ∀ value ∈ seen, (asText value).any isSha256 = true) (.value "invalid stagnation fingerprint")
  Outcome.require (∀ field ∈ ["warned", "recovery_requested", "recovery_attempted", "exhausted",
    "unavailable_warned"], isBool (getOr record field (.bool false)) = true)
    (.value "invalid stagnation flag")
  Outcome.require (countFrom 0 (getOr record "unavailable_calls" (.int 0)) = true)
    (.value "invalid unavailable tool count")
  return record

/-! ### Steps -/

inductive Signal where
  | stagnationWarning
  | recoveryRequested
  | recoveryExhausted
  deriving DecidableEq

/-- Each counter warns under its own flag. -/
inductive Counter where
  | reads
  | unavailable

def State.warnedUnder (state : State) : Counter → Bool
  | .reads => state.warned.getD false
  | .unavailable => state.unavailableWarned.getD false

def State.warn (state : State) : Counter → State
  | .reads => { state with warned := some true }
  | .unavailable => { state with unavailableWarned := some true }

/-- `_escalate`; the recovery flags are shared. -/
def escalate (state : State) (repeats : Nat) (counter : Counter) : State × Option Signal :=
  if state.recoveryAttempted.getD false = true ∧ 8 ≤ repeats then
    if state.exhausted.getD false then (state, none)
    else ({ state with exhausted := some true }, some .recoveryExhausted)
  else if 8 ≤ repeats ∧ state.recoveryRequested.getD false = false ∧
      state.recoveryAttempted.getD false = false then
    ({ state with recoveryRequested := some true }, some .recoveryRequested)
  else if 4 ≤ repeats ∧ state.warnedUnder counter = false then
    (state.warn counter, some .stagnationWarning)
  else (state, none)

section

variable [FloatValue] [ContentHash]

/-- The read is counted under its fingerprint; the oldest one makes room for a new one. -/
def countRead (counts : List (Digest × Nat)) (print : Digest) : List (Digest × Nat) × Nat :=
  let counts :=
    if print ∉ counts.map Prod.fst ∧ counts.length = maxFingerprints then counts.tail else counts
  let repeats := (Dict.get counts print).getD 0 + 1
  (Dict.set counts print repeats, repeats)

/-- New work begins anew. -/
def progressed (state : State) (seen : List Digest) (work : Digest) : State :=
  { state with
    seenWork := some ((seen ++ [work]).drop ((seen ++ [work]).length - maxFingerprints))
    progressEpoch := some (state.progressEpoch.getD 0 + 1)
    readCounts := some []
    warned := some false
    recoveryRequested := some false
    recoveryAttempted := some false
    exhausted := some false }

/-- `observe`; `none` stands for an error before the state has changed. -/
def observe (state : State) (name : String) (arguments result : Record) :
    Option (State × Option Signal) :=
  if unavailable result then
    let calls := state.unavailableCalls.getD 0 + 1
    some (escalate { state with unavailableCalls := some calls } calls .unavailable)
  else do
    if ← terminalRead name arguments result then
      let (counts, repeats) := countRead (state.readCounts.getD []) (fingerprint name arguments result)
      return escalate { state with readCounts := some counts } repeats .reads
    else if ← substantive name arguments result then
      let work := workIdentity name arguments result
      let seen := state.seenWork.getD []
      if work ∈ seen then return ({ state with seenWork := some seen }, none)
      else return (progressed state seen work, none)
    else return (state, none)

/-- `successor_state` -/
def successorState (state : State) : Except Invalid State := do
  let _ ← validateState (.obj state.dump)
  let result := { state with unavailableCalls := none, unavailableWarned := none }
  if result.recoveryRequested.getD false then
    return { result with
      recoveryRequested := some false
      recoveryAttempted := some true
      readCounts := some []
      warned := some false }
  else return result

end

end Stagnation
end PhysHarness
