import PhysHarness.Execution.Checkpoint
import PhysHarness.Lib.Bytes
import PhysHarness.Lib.Python
import Mathlib.Data.Finset.Card

/-!
# The check of settled continuation chains

Tasks, sessions, links and artifacts come as dictionaries of which nothing is known. The check reads them
as the source does, and stops at the first field that is missing or does not fit.

## Sources
- continuation_lineage.py: `validate_terminal_lineage`, `_checkpoint`
-/
namespace PhysHarness
namespace TerminalLineage

open Outcome (require orThrow forEach)
open Python (Record FloatValue Key lookup key same sameItems truthy)

/-- What `datetime.fromisoformat` reads: with a zone or without one, and the microseconds. -/
structure Moment where
  aware : Bool
  instant : Int
  deriving DecidableEq

class IsoFormat where
  read : String → Option Moment

inductive Stop where
  /-- `LineageError` -/
  | lineage (code : String)
  /-- an error that the check turns into one: of a key, a type, a value, an attribute or an execution -/
  | evidence
  | other
  deriving DecidableEq

abbrev Checked (α : Type) := Except Stop α

def check (condition : Prop) [Decidable condition] (code : String) : Checked Unit :=
  require condition (.lineage code)

/-- The `except` clauses of the check. -/
def caught {α : Type} : Checked α → Checked α
  | .error .evidence => .error (.lineage "INVALID_LINEAGE_EVIDENCE")
  | result => result

/-- `record[field]` -/
def index (record : Record) (field : String) : Checked Json := orThrow (Dict.get record field) .evidence

variable [FloatValue]

/-- A value is looked up by its hash. -/
def hashed (value : Json) : Checked Key := orThrow (key value) .evidence

/-- `value or {}`, of which a field is read. -/
def orEmpty (value : Json) : Checked Record :=
  if truthy value then orThrow (asFields value) .evidence else .ok []

def isNull : Json → Bool
  | .null => true
  | _ => false

/-- The evidence that sessions point to. How an artifact is read and a checkpoint decoded is the caller's. -/
structure Evidence where
  artifacts : List (Key × Record)
  artifactContent : Json → Checked Bytes
  decode : Bytes → (Record → Checked Bytes) → Checked RuntimeCheckpoint
  experimentId : Json
  scope : Record

variable [ByteHash] [IsoFormat] (evidence : Evidence)

/-- `value in {None, other}` -/
def noneOr (value other : Json) (code : String) : Checked Unit := do
  let allowed ← hashed other
  let found ← hashed value
  check (found = .none ∨ found = allowed) code

/-- The artifact was written by the session of the task. -/
def writtenBy (artifact task session : Record) (code : String) : Checked Unit := do
  let provenance ← orEmpty (lookup artifact "provenance")
  check (same (lookup provenance "task_id") (← index task "id") = true) code
  let provenance ← orEmpty (lookup artifact "provenance")
  check (same (lookup provenance "session_id") (lookup session "native_record_id") = true) code

/-- `read` of `_checkpoint` -/
def readChunk (session task ref : Record) : Checked Bytes := do
  let code := "CHECKPOINT_CHUNK_SCOPE_MISMATCH"
  let chunk ← orThrow (Dict.get evidence.artifacts (← hashed (← index ref "artifact_id"))) (.lineage code)
  check (same (lookup chunk "artifact_kind") (.str "native_checkpoint_chunk") = true) code
  check (same (lookup chunk "experiment_id") evidence.experimentId = true) code
  writtenBy chunk task session code
  check (same (lookup chunk "sha256") (← index ref "sha256") = true) code
  evidence.artifactContent (← index chunk "id")

/-- `_checkpoint` -/
def checkpoint (session task : Record) : Checked RuntimeCheckpoint := do
  let code := "CHECKPOINT_SCOPE_MISMATCH"
  let name ← hashed (← index session "checkpoint_artifact_id")
  let artifact ← orThrow (Dict.get evidence.artifacts name) .evidence
  let raw ← evidence.artifactContent (← index artifact "id")
  check (same (lookup artifact "artifact_kind") (.str "native_checkpoint") = true) code
  check (same (lookup artifact "experiment_id") evidence.experimentId = true) code
  noneOr (lookup artifact "branch_id") (lookup task "branch_id") code
  writtenBy artifact task session code
  check (same (.str (ByteHash.sha256 raw)) (lookup artifact "sha256") = true) code
  noneOr (lookup session "branch_id") (lookup task "branch_id") code
  let found ← evidence.decode raw (readChunk evidence session task)
  let code := "CHECKPOINT_STATE_MISMATCH"
  check (same (.str found.session.id) (lookup session "native_record_id") = true) code
  check (same (.str found.session.status.text) (lookup session "status") = true) code
  check (asBool (lookup found.nativeState "settled_boundary") = some true) code
  check (truthy (lookup found.nativeState "pending_operation") = false) code
  check (truthy (lookup found.nativeState "pending_tool_call") = false) code
  return found
where
  /-- `is True` -/
  asBool : Json → Option Bool
    | .bool value => some value
    | _ => none

/-- Every field of the records, in order; the first one that cannot be hashed ends the reading. -/
def hashes (read : Record → Checked Json) (records : List Record) : Checked (List Key) :=
  records.mapM fun record => read record >>= hashed

/-- The records whose field is the value. -/
def select (field : String) (value : Json) : List Record → Checked (List Record)
  | [] => .ok []
  | record :: records => do
    let found ← index record field
    let rest ← select field value records
    return if same found value then record :: rest else rest

def ordinal (link : Record) : Option ℚ :=
  match key (lookup link "ordinal") with
  | some (.number value) => some value
  | _ => none

/-- `sorted` by the ordinal. What is not a list of numbers does not pass the comparison with 1, 2, ... that
follows; several texts lookup there, and other values of which there are several cannot be sorted. -/
def sortedByOrdinal (links : List Record) : Checked (List Record) := do
  let ordinals ← links.mapM fun link => index link "ordinal"
  if links.all fun link => (ordinal link).isSome then
    return links.insertionSort fun first second => (ordinal first).getD 0 ≤ (ordinal second).getD 0
  else if links.length ≤ 1 ∨ ordinals.all fun value => (asText value).isSome then return links
  else throw .evidence

/-- The key under which a session is found. -/
def idKey (session : Record) : Option Key := key (lookup session "id")

/-- `session_by_id.get(id)` -/
def sessionById (sessions : List Record) (id : Key) : Option Record :=
  sessions.find? fun session => decide (idKey session = some id)

/-- The link is a started link between two sessions of the task. -/
def linkedSessions (sessions : List Record) (task link : Record) : Checked (Record × Record) := do
  let code := "CONTINUATION_LINK_MISMATCH"
  let own ← index task "id"
  let source := sessionById sessions (← hashed (lookup link "source_session_record_id"))
  let successor := sessionById sessions (← hashed (lookup link "successor_record_id"))
  check (same (lookup link "status") (.str "started") = true) code
  check (same (lookup link "branch_id") (lookup task "branch_id") = true) code
  forEach (fun field => check (same (lookup link field) (lookup evidence.scope field) = true) code)
    ["target_digest", "review_id", "environment_digest"]
  let source ← orThrow source (.lineage code)
  let successor ← orThrow successor (.lineage code)
  check (same (lookup source "task_id") own = true) code
  check (same (lookup successor "task_id") own = true) code
  check (same (lookup source "status") (.str "handed_off") = true) code
  check (same (lookup source "native_record_id") (lookup link "source_session_id") = true) code
  check (same (lookup successor "native_record_id") (lookup link "successor_session_id") = true) code
  check (same (lookup source "checkpoint_artifact_id") (lookup link "source_checkpoint_artifact_id") = true) code
  check (same (← index source "id") (← index successor "id") = false) code
  check ((asText (lookup link "holder")).any fun holder => decide (holder ≠ "")) code
  check ((asInt (lookup link "fence")).any fun fence => decide (0 < fence)) code
  return (source, successor)

/-- The link leads on from the session that the previous one reaches. -/
def follows : Option Record → Record → Checked Unit
  | none, _ => return
  | some before, source => do
    check (same (lookup before "successor_record_id") (← index source "id") = true)
      "DISCONNECTED_CONTINUATION_CHAIN"

/-- The successor goes on with the next link, or ends the chain. -/
def joined (previous : Option Record) (last : Bool) (source successor : Record) : Checked Unit := do
  follows previous source
  let status ← index successor "status"
  if last then
    let status ← hashed status
    check (status ∈ [.text "completed", .text "failed"]) "UNFINISHED_SUCCESSOR"
  else check (same status (.str "handed_off") = true) "DISCONNECTED_CONTINUATION_CHAIN"

/-- `datetime.fromisoformat` of a field. -/
def moment (record : Record) (field : String) : Checked Moment := do
  let text ← orThrow (asText (← index record field)) .evidence
  orThrow (IsoFormat.read text) .evidence

/-- Moments with and without a zone cannot be compared. -/
def earlier (first second : Moment) : Checked Bool :=
  if first.aware = second.aware then .ok (decide (first.instant < second.instant)) else .error .evidence

/-- The link was issued and consumed between the starts of its sessions. -/
def timed (link source successor : Record) : Checked Unit := do
  let code := "CONTINUATION_ORDER_MISMATCH"
  let started ← moment source "created_at"
  let issued ← moment link "issued_at"
  check ((← earlier started issued) = true) code
  let consumed ← moment link "consumed_at"
  check ((← earlier consumed issued) = false) code
  let next ← moment successor "created_at"
  check ((← earlier consumed next) = true) code

/-- The checkpoints of both sessions are those that the link names. -/
def checkpointed (task link source successor : Record) : Checked Unit := do
  let code := "CONTINUATION_CHECKPOINT_MISMATCH"
  let before ← checkpoint evidence source task
  let after ← checkpoint evidence successor task
  check (same (.str before.stateDigest) (lookup link "source_checkpoint_digest") = true) code
  check (same before.session.model.dump (lookup link "source_model") = true) code
  check (same (.str before.session.runtime) (lookup link "source_runtime") = true) code
  check (same before.session.limits.dump (lookup link "source_runtime_limits") = true) code
  check (same after.session.model.dump (lookup link "successor_model") = true) code
  check (same (.str after.session.runtime) (lookup link "successor_runtime") = true) code
  check (same after.session.limits.dump (lookup link "successor_runtime_limits") = true) code

/-- The archive that a link carries is one of the task. -/
def archived (task link : Record) : Checked Unit :=
  if truthy (lookup link "workspace_ticket") then do
    let code := "WORKSPACE_ARCHIVE_MISMATCH"
    let ticket ← orThrow (asFields (lookup link "workspace_ticket")) .evidence
    let archive ← orThrow (Dict.get evidence.artifacts (← hashed (lookup ticket "artifact_id"))) (.lineage code)
    check (same (lookup archive "artifact_kind") (.str "checkpoint") = true) code
    check (same (lookup archive "experiment_id") evidence.experimentId = true) code
    check (same (lookup archive "task_id") (← index task "id") = true) code
    check (same (lookup archive "sha256") (lookup ticket "archive_sha256") = true) code
    check (same (lookup archive "branch_id") (lookup task "branch_id") = true) code
    let content ← evidence.artifactContent (← index archive "id")
    check (same (.str (ByteHash.sha256 content)) (lookup ticket "archive_sha256") = true) code
  else return

/-- The loop over the links; the previous one is at hand, and whether another one follows. -/
def linked (sessions : List Record) (task : Record) : Option Record → List Record → Checked Unit
  | _, [] => return
  | previous, link :: links => do
    let (source, successor) ← linkedSessions evidence sessions task link
    joined previous links.isEmpty source successor
    timed link source successor
    checkpointed evidence task link source successor
    archived evidence task link
    linked sessions task (some link) links

/-- The fields in which the task repeats its last link. -/
def consumedFields : List String :=
  ["ordinal", "source_session_id", "source_checkpoint_digest", "successor_model", "successor_runtime",
    "successor_runtime_limits", "holder", "fence", "consumed_at"]

/-- A task without links. -/
def standalone (task : Record) (taskSessions : List Record) : Checked Unit := do
  check (truthy (lookup task "continuation_link_protocol") = false ∧
    truthy ((Dict.get task "continuation_count").getD (.int 0)) = false) "MISSING_CONTINUATION_LINKS"
  check (∀ session ∈ taskSessions, same (lookup session "status") (.str "handed_off") = false)
    "ORPHAN_HANDOFF"
  forEach (fun session => do
    let _ ← checkpoint evidence session task) taskSessions

/-- A task with links, the last of which is given. -/
def continued (sessions : List Record) (task : Record) (taskSessions taskLinks : List Record)
    (last : Record) : Checked Unit := do
  let code := "INCOMPLETE_CONTINUATION_CHAIN"
  let status ← hashed (lookup task "status")
  check (status ∈ [.text "completed", .text "failed"]) code
  check (isNull (lookup task "ready_continuation") = true) code
  check (same (lookup task "continuation_count") (.int taskLinks.length) = true) code
  check (sameItems (taskLinks.map fun link => lookup link "ordinal")
    ((List.range' 1 taskLinks.length).map fun (n : Nat) => Json.int n) = true) code
  check (taskSessions.length = taskLinks.length + 1) code
  linked evidence sessions task none taskLinks
  let sources ← hashes (fun link => index link "source_session_record_id") taskLinks
  let final ← index last "successor_record_id" >>= hashed
  let ids ← hashes (fun session => index session "id") taskSessions
  check ((sources ++ [final]).toFinset = ids.toFinset) "EXTRA_OR_CYCLIC_SESSION"
  let consumed ← orEmpty (lookup task "consumed_continuation")
  forEach (fun field => check (same (lookup consumed field) (lookup last field) = true)
    "LATEST_CONTINUATION_MISMATCH") consumedFields

def validateTask (sessions links : List Record) (task : Record) : Checked Unit := do
  let own ← index task "id"
  let taskLinks ← sortedByOrdinal (← select "task_id" own links)
  let taskSessions ← select "task_id" own sessions
  match taskLinks.getLast? with
  | none => standalone evidence task taskSessions
  | some last => continued evidence sessions task taskSessions taskLinks last

/-- The record belongs to the experiment and to one of the tasks. -/
def inScope (taskIds : List Key) (code : String) (record : Record) : Checked Unit := do
  check (same (lookup record "experiment_id") evidence.experimentId = true) code
  check ((← hashed (lookup record "task_id")) ∈ taskIds) code

def validateTerminalLineage (tasks sessions links : List Record) : Checked Unit := do
  check (∀ task ∈ tasks, same (lookup task "experiment_id") evidence.experimentId = true)
    "TASK_SCOPE_MISMATCH"
  forEach (fun session => do
    check ((← hashed (lookup session "status")) ∈ [.text "completed", .text "failed", .text "handed_off"])
      "NONTERMINAL_SESSION") sessions
  caught do
    let taskIds ← hashes (fun task => index task "id") tasks
    let sessionIds ← hashes (fun session => index session "id") sessions
    check (taskIds.Nodup ∧ sessionIds.Nodup) "DUPLICATE_LINEAGE_RECORD"
    let natives ← hashes (fun session => .ok (lookup session "native_record_id")) sessions
    check natives.Nodup "DUPLICATE_NATIVE_SESSION"
    forEach (inScope evidence taskIds "SESSION_SCOPE_MISMATCH") sessions
    forEach (inScope evidence taskIds "LINK_SCOPE_MISMATCH") links
    forEach (validateTask evidence sessions links) tasks

end TerminalLineage
end PhysHarness
