import PhysHarness.Lib.JsonAscii
import PhysHarness.Records
import PhysHarness.Service

/-!
Runtime sessions and checkpoints: their dumps, their validation and their digest.

A dump names every field, so validation reads no default. Two checkpoints are equal when their dumps
are equal as dictionaries.
-/
namespace PhysHarness

open Json (Same asciiChar)

/-- A nonempty text that `strip` leaves as it is. -/
def exactNonempty (text : String) : Bool :=
  !blank text && !(text.toList.head?.any isSpace) && !(text.toList.getLast?.any isSpace)

structure ModelConfig where
  model : String
  parameters : List (String × Json)
  exact : exactNonempty model = true
  dict : Json.isDict (.obj parameters) = true

/-- The bounds are those of the fields; those of `timeout_seconds` hold of the float itself. -/
structure RuntimeLimits where
  maxTurns : Nat
  maxOutputTokens : Nat
  maxTotalTokens : Option Nat
  maxContextTokens : Option Nat
  timeoutSeconds : FloatText
  bounds : (1 ≤ maxTurns ∧ maxTurns ≤ 1000) ∧ 1 ≤ maxOutputTokens ∧
    (∀ tokens ∈ maxTotalTokens, 1 ≤ tokens) ∧ ∀ tokens ∈ maxContextTokens, 1 ≤ tokens

def SessionStatus.text : SessionStatus → String
  | .ready => "ready"
  | .running => "running"
  | .completed => "completed"
  | .interrupted => "interrupted"
  | .failed => "failed"
  | .uncertain => "uncertain"
  | .handedOff => "handed_off"

def SessionStatus.all : List SessionStatus :=
  [.ready, .running, .completed, .interrupted, .failed, .uncertain, .handedOff]

structure RuntimeSession where
  id : String
  runtime : String
  model : ModelConfig
  limits : RuntimeLimits
  status : SessionStatus
  nativeSessionId : Option String
  turns : Int
  inputTokens : Int
  outputTokens : Int

structure RuntimeCheckpoint where
  session : RuntimeSession
  nativeState : List (String × Json)
  stateDigest : Digest
  dict : Json.isDict (.obj nativeState) = true

/-! ### Dumps -/

def optional : Option Nat → Json
  | some value => .int value
  | none => .null

def ModelConfig.dump (config : ModelConfig) : Json :=
  .obj [("model", .str config.model), ("parameters", .obj config.parameters)]

def RuntimeLimits.dump (limits : RuntimeLimits) : Json :=
  .obj [("max_turns", .int limits.maxTurns), ("max_output_tokens", .int limits.maxOutputTokens),
    ("max_total_tokens", optional limits.maxTotalTokens),
    ("max_context_tokens", optional limits.maxContextTokens),
    ("timeout_seconds", .float limits.timeoutSeconds)]

def RuntimeSession.dump (session : RuntimeSession) : Json :=
  .obj [("id", .str session.id), ("runtime", .str session.runtime), ("model", session.model.dump),
    ("limits", session.limits.dump), ("status", .str session.status.text),
    ("native_session_id", Json.ofOption session.nativeSessionId), ("turns", .int session.turns),
    ("input_tokens", .int session.inputTokens), ("output_tokens", .int session.outputTokens)]

def RuntimeCheckpoint.dump (checkpoint : RuntimeCheckpoint) : Json :=
  .obj [("session", checkpoint.session.dump), ("native_state", .obj checkpoint.nativeState),
    ("state_digest", .str checkpoint.stateDigest), ("version", .int 1)]

/-- Equality of checkpoints, whatever the order in which their dictionaries list their keys. -/
def RuntimeCheckpoint.Equal (first second : RuntimeCheckpoint) : Prop :=
  Same first.dump second.dump

/-! ### Validation -/

/-- Exactly these keys. -/
def named (fields : List (String × Json)) (names : List String) : Bool :=
  decide ((fields.map Prod.fst).Perm names)

def asText : Json → Option String
  | .str text => some text
  | _ => none

def asInt : Json → Option Int
  | .int value => some value
  | _ => none

def asNat : Json → Option Nat
  | .int (.ofNat value) => some value
  | _ => none

def asFloat : Json → Option FloatText
  | .float value => some value
  | _ => none

def asFields : Json → Option (List (String × Json))
  | .obj fields => some fields
  | _ => none

def asItems : Json → Option (List Json)
  | .arr items => some items
  | _ => none

/-- What a loop over a decoded value runs through; a number, a truth value and `None` are refused. -/
def elements : Json → Option (List Json)
  | .arr items => some items
  | .obj fields => some (fields.map fun item => .str item.1)
  | .str text => some (text.toList.map fun c => .str (.singleton c))
  | _ => none

theorem asFields_obj (fields : List (String × Json)) : asFields (.obj fields) = some fields := rfl

@[simp] theorem asNat_cast (n : Nat) : asNat (.int n) = some n := rfl

/-- `None` or what the reader takes. -/
def orNull {α : Type} (read : Json → Option α) : Json → Option (Option α)
  | .null => some none
  | value => (read value).map some

def field {α : Type} (fields : List (String × Json)) (key : String) (read : Json → Option α) :
    Option α := (Dict.get fields key).bind read

def ModelConfig.validate (value : Json) : Option ModelConfig := do
  let fields ← asFields value
  guard (named fields ["model", "parameters"])
  let model ← field fields "model" asText
  let parameters ← field fields "parameters" asFields
  if valid : exactNonempty model = true ∧ Json.isDict (.obj parameters) = true then
    some ⟨model, parameters, valid.1, valid.2⟩
  else none

def RuntimeLimits.validate (value : Json) : Option RuntimeLimits := do
  let fields ← asFields value
  guard (named fields ["max_turns", "max_output_tokens", "max_total_tokens", "max_context_tokens",
    "timeout_seconds"])
  let maxTurns ← field fields "max_turns" asNat
  let maxOutputTokens ← field fields "max_output_tokens" asNat
  let maxTotalTokens ← field fields "max_total_tokens" (orNull asNat)
  let maxContextTokens ← field fields "max_context_tokens" (orNull asNat)
  let timeoutSeconds ← field fields "timeout_seconds" asFloat
  if valid : (1 ≤ maxTurns ∧ maxTurns ≤ 1000) ∧ 1 ≤ maxOutputTokens ∧
      (∀ tokens ∈ maxTotalTokens, 1 ≤ tokens) ∧ ∀ tokens ∈ maxContextTokens, 1 ≤ tokens then
    some ⟨maxTurns, maxOutputTokens, maxTotalTokens, maxContextTokens, timeoutSeconds, valid⟩
  else none

def asStatus (value : Json) : Option SessionStatus := do
  let text ← asText value
  SessionStatus.all.find? fun status => status.text = text

def RuntimeSession.validate (value : Json) : Option RuntimeSession := do
  let fields ← asFields value
  guard (named fields ["id", "runtime", "model", "limits", "status", "native_session_id", "turns",
    "input_tokens", "output_tokens"])
  return {
    id := ← field fields "id" asText
    runtime := ← field fields "runtime" asText
    model := ← field fields "model" ModelConfig.validate
    limits := ← field fields "limits" RuntimeLimits.validate
    status := ← field fields "status" asStatus
    nativeSessionId := ← field fields "native_session_id" (orNull asText)
    turns := ← field fields "turns" asInt
    inputTokens := ← field fields "input_tokens" asInt
    outputTokens := ← field fields "output_tokens" asInt }

/-- `RuntimeCheckpoint.model_validate` -/
def RuntimeCheckpoint.validate (value : Json) : Option RuntimeCheckpoint := do
  let fields ← asFields value
  guard (named fields ["session", "native_state", "state_digest", "version"])
  let session ← field fields "session" RuntimeSession.validate
  let nativeState ← field fields "native_state" asFields
  let stateDigest ← field fields "state_digest" asText
  guard (Dict.get fields "version" = some (.int 1))
  if dict : Json.isDict (.obj nativeState) = true then
    some ⟨session, nativeState, stateDigest, dict⟩
  else none

/-! ### The digest -/

section

variable [ContentHash]

/-- `digest` of the execution types: of the sorted compact text in ASCII. -/
def digest (value : Json) : Digest :=
  ContentHash.sha256 (.ofList ((Json.canonical value).toList.flatMap asciiChar))

theorem digest_same {first second : Json} (same : Same first second) : digest first = digest second := by
  rw [digest, digest, Json.canonical, Json.canonical, same]

/-- Equal digests are digests of equal values, as long as SHA-256 has no collision. -/
theorem digest_inj (collisionFree : Function.Injective ContentHash.sha256) {first second : Json}
    (same : digest first = digest second) : Same first second := by
  have texts := congrArg String.toList (collisionFree same)
  simp only [String.toList_ofList, Json.canonical, Json.dumps] at texts
  exact Json.ascii_render_inj texts

def RuntimeCheckpoint.expected (checkpoint : RuntimeCheckpoint) : Digest :=
  digest (.obj [("session", checkpoint.session.dump), ("native_state", .obj checkpoint.nativeState)])

/-- `verify`: the digest is that of the content. -/
def RuntimeCheckpoint.Valid (checkpoint : RuntimeCheckpoint) : Prop :=
  checkpoint.expected = checkpoint.stateDigest

instance (checkpoint : RuntimeCheckpoint) : Decidable checkpoint.Valid :=
  inferInstanceAs (Decidable (_ = _))

end

end PhysHarness
