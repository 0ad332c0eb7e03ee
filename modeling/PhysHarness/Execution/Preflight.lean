import PhysHarness.Execution.Context
import PhysHarness.Execution.Checkpoint

/-!
The preflight of a provider request: the bound on its input tokens, the limit checks and the reservation.

A request's elements are the instructions, the tools and the input items, each known by the digest and
the size of its canonical text. Without a compaction in between, the tokens that were billed for the last
request bound those of the next one, so the provider is asked to count only near a limit.
-/
namespace PhysHarness.Preflight

open Outcome

def boundMarginFloor : Nat := 2048

def boundMarginPercent : Nat := 2

def contextMargin : Nat := 8192

/-- What the preflight reads of the model parameters: the instructions, or null, and the
`compact_threshold` of the context management. -/
structure RequestParameters where
  instructions : Json := .null
  compactThreshold : Option Nat := none

/-- A session's last request in the current run. -/
structure LastRequest where
  epoch : Nat
  digests : List Digest
  tokens : Nat

/-- What the preflight reads of a session and its native state. -/
structure TokenState where
  limits : RuntimeLimits
  parameters : RequestParameters
  tools : List Json
  input : List Json := []
  activeInputEpoch : Nat := 0
  cumulativeInputOffset : Nat := 0
  cumulativeOutputOffset : Nat := 0
  inputTokens : Nat := 0
  outputTokens : Nat := 0
  lastRequest : Option LastRequest := none

/-- `lineage_token_usage`, input and output together. -/
def TokenState.used (state : TokenState) : Nat :=
  state.cumulativeInputOffset + state.cumulativeOutputOffset + state.inputTokens + state.outputTokens

/-- The positional elements of a request. -/
def TokenState.elements (state : TokenState) : List Json :=
  state.parameters.instructions :: .arr state.tools :: state.input

def byteSize (element : Json) : Nat := (Json.canonical element).utf8ByteSize

section

variable [ContentHash]

def elementDigest (element : Json) : Digest := ContentHash.sha256 (Json.canonical element)

/-- `_request_elements` -/
def requestElements (elements : List Json) : List (Digest × Nat) :=
  elements.map fun element => (elementDigest element, byteSize element)

end

/-- `_bound_margin` -/
def boundMargin (tokens : Nat) : Nat := max boundMarginFloor ((tokens * boundMarginPercent + 99) / 100)

/-- The margin of a bound is positive. -/
theorem boundMargin_pos (tokens : Nat) : 0 < boundMargin tokens :=
  lt_of_lt_of_le (by decide : 0 < boundMarginFloor) (le_max_left ..)

/-- The sizes of the elements that differ from the one at the same position. -/
def changedSize : List Digest → List (Digest × Nat) → Nat
  | _, [] => 0
  | [], (_, size) :: elements => size + changedSize [] elements
  | old :: digests, (sha, size) :: elements =>
    (if old = sha then 0 else size) + changedSize digests elements

/-- `_input_bound` -/
def inputBound (previous : Option LastRequest) (elements : List (Digest × Nat)) (epoch : Nat) :
    Option Nat :=
  match previous with
  | none => none
  | some previous =>
    if previous.epoch = epoch then
      let raw := previous.tokens + changedSize previous.digests elements
      some (raw + boundMargin raw)
    else none

/-- `_near_limit` -/
def nearLimit (state : TokenState) (tokens : Nat) : Bool :=
  (match state.limits.maxContextTokens with
    | some window => decide (window < tokens + state.limits.maxOutputTokens + contextMargin)
    | none => false) ||
  match state.limits.maxTotalTokens with
    | some total => decide (total < state.used + tokens + state.limits.maxOutputTokens + contextMargin)
    | none => false

structure Prepared where
  inputTokens : Nat
  counted : Bool
  digests : List Digest
  inputBound : Nat
  inputReservation : Nat
  outputReservation : Nat
  remaining : Option Int

variable [ContentHash]

/-- The bound that stands for a count. -/
def uncountedBound (state : TokenState) : Option Nat :=
  (inputBound state.lastRequest (requestElements state.elements) state.activeInputEpoch).filter
    fun bound => !nearLimit state bound

/-- The count or the bound, and whether the provider has counted. -/
def estimate (state : TokenState) (count : Except ExecutionError Nat) :
    Except ExecutionError (Nat × Bool) :=
  match uncountedBound state with
  | some bound => pure (bound, false)
  | none => count >>= fun tokens => pure (tokens, true)

/-- `_prepare_request`, with the answer of the provider in case it is asked to count. Under context pressure
the session may hand off in place of the last error; nothing is sent then either. -/
def prepareRequest (state : TokenState) (count : Except ExecutionError Nat) :
    Except ExecutionError Prepared := do
  let (tokens, counted) ← estimate state count
  let remaining := state.limits.maxTotalTokens.map fun (total : Nat) => (total : Int) - state.used - tokens
  require (∀ left ∈ remaining, 0 < left)
    (⟨"BUDGET_EXHAUSTED", "Token preflight leaves no generation budget", none, false⟩ : ExecutionError)
  require (∀ window ∈ state.limits.maxContextTokens, tokens + state.limits.maxOutputTokens ≤ window)
    (⟨"CONTEXT_LIMIT", "Active request exceeds context token limit", none, false⟩ : ExecutionError)
  -- the count is taken without context management, so it carries the margin of a bound under it
  let inputBound :=
    if state.parameters.compactThreshold.isSome && counted then tokens + boundMargin tokens else tokens
  pure {
    inputTokens := tokens
    counted
    digests := (requestElements state.elements).map Prod.fst
    inputBound
    inputReservation :=
      match state.parameters.compactThreshold with
      | some threshold =>
        if inputBound + contextMargin ≤ threshold then inputBound
        else state.limits.maxContextTokens.getD 0
      | none => inputBound
    outputReservation :=
      match remaining with
      | some left => min state.limits.maxOutputTokens left.toNat
      | none => state.limits.maxOutputTokens
    remaining }

/-- `_run`'s check of the context management against the limits. -/
def configured (limits : RuntimeLimits) (parameters : RequestParameters) : Bool :=
  match parameters.compactThreshold with
  | some threshold => limits.maxContextTokens.any fun window => threshold + limits.maxOutputTokens ≤ window
  | none => true

/-! ### What a preflight has checked -/

/-- What is reserved for the input of a request without the provider's own context management. -/
def marginedEstimate (tokens : Nat) (counted : Bool) : Nat :=
  if counted then tokens + boundMargin tokens else tokens

/-- Under context management the estimate is reserved while compaction cannot fire, else the whole window. -/
def managedReservation (limits : RuntimeLimits) (threshold estimate : Nat) : Nat :=
  if estimate + contextMargin ≤ threshold then estimate else limits.maxContextTokens.getD 0

structure PreparedBy (state : TokenState) (count : Except ExecutionError Nat) (prepared : Prepared) :
    Prop where
  estimated : estimate state count = .ok (prepared.inputTokens, prepared.counted)
  total : ∀ total ∈ state.limits.maxTotalTokens, state.used + prepared.inputTokens < total
  window : ∀ window ∈ state.limits.maxContextTokens,
    prepared.inputTokens + state.limits.maxOutputTokens ≤ window
  digests : prepared.digests = (requestElements state.elements).map Prod.fst
  plain : state.parameters.compactThreshold = none → prepared.inputReservation = prepared.inputTokens
  managed : ∀ threshold ∈ state.parameters.compactThreshold, prepared.inputReservation =
    managedReservation state.limits threshold (marginedEstimate prepared.inputTokens prepared.counted)
  output : ∀ total ∈ state.limits.maxTotalTokens, prepared.outputReservation =
    min state.limits.maxOutputTokens (total - (state.used + prepared.inputTokens))

theorem prepared_by {state : TokenState} {count : Except ExecutionError Nat} {prepared : Prepared}
    (done : prepareRequest state count = .ok prepared) : PreparedBy state count prepared := by
  obtain ⟨⟨tokens, counted⟩, estimated, rest⟩ := bind_ok.mp done
  obtain ⟨_, room, rest⟩ := bind_ok.mp rest
  obtain ⟨_, window, same⟩ := bind_ok.mp rest
  cases same
  have remaining := require_ok.mp room
  refine ⟨estimated, fun total limited => ?_, require_ok.mp window, rfl, fun plain => ?_,
    fun threshold managed => ?_, fun total limited => ?_⟩
  · have left := remaining _ (Option.mem_map_of_mem _ limited)
    show state.used + tokens < total
    omega
  · simp [plain]
  · obtain managed := Option.mem_def.mp managed
    simp [managed, managedReservation, marginedEstimate]
  · obtain limited := Option.mem_def.mp limited
    simp only [limited, Option.map_some]
    congr 1
    omega

/-- An estimate is the bound away from the limits, else the count. -/
theorem estimate_ok {state : TokenState} {count : Except ExecutionError Nat} {tokens : Nat} {counted : Bool}
    (done : estimate state count = .ok (tokens, counted)) :
    (counted = false ∧ uncountedBound state = some tokens) ∨
      (counted = true ∧ uncountedBound state = none ∧ count = .ok tokens) := by
  unfold estimate at done
  split at done
  next bound known =>
    cases done
    exact .inl ⟨rfl, known⟩
  next none =>
    obtain ⟨answer, counts, same⟩ := bind_ok.mp done
    cases same
    exact .inr ⟨rfl, none, counts⟩

/-- A bound stands for a count only with room for the whole output and the margin. -/
theorem uncounted_room {state : TokenState} {bound : Nat} (known : uncountedBound state = some bound) :
    (∀ window ∈ state.limits.maxContextTokens,
      bound + state.limits.maxOutputTokens + contextMargin ≤ window) ∧
        ∀ total ∈ state.limits.maxTotalTokens,
          state.used + bound + state.limits.maxOutputTokens + contextMargin ≤ total := by
  obtain ⟨-, far⟩ := Option.filter_eq_some_iff.mp known
  simp only [nearLimit, Bool.not_or, Bool.and_eq_true, Bool.not_eq_true'] at far
  obtain ⟨window, total⟩ := far
  refine ⟨fun limit limited => ?_, fun limit limited => ?_⟩
  · rw [Option.mem_def.mp limited] at window
    exact Nat.le_of_not_lt (of_decide_eq_false window)
  · rw [Option.mem_def.mp limited] at total
    exact Nat.le_of_not_lt (of_decide_eq_false total)

end PhysHarness.Preflight
