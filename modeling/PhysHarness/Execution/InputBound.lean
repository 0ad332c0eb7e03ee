import PhysHarness.Execution.TokenGuard

/-!
The bound on the input tokens of a request against the tokenizer.

An element that keeps its place adds the same tokens to both requests, and any other one adds at most its
size. What a run remembers of its last request is the digests and the billed tokens of a request of the
history, unless a compaction came after it.
-/
namespace PhysHarness.Preflight

/-- The input tokens of a request are a constant and a count for each element at its position, at most the
size of its canonical text. -/
structure Tokenizer where
  constant : Nat
  count : Nat → String → Nat
  small : ∀ position text, count position text ≤ text.utf8ByteSize

namespace Tokenizer

def tokensFrom (tokenizer : Tokenizer) : Nat → List Json → Nat
  | _, [] => 0
  | position, element :: elements =>
    tokenizer.count position (Json.canonical element) + tokenizer.tokensFrom (position + 1) elements

def tokens (tokenizer : Tokenizer) (elements : List Json) : Nat :=
  tokenizer.constant + tokenizer.tokensFrom 0 elements

end Tokenizer

/-! ### One bound -/

section

variable [ContentHash] (tokenizer : Tokenizer)

/-- Elements after the end of the last request add at most their sizes. -/
theorem tokensFrom_le_size (position : Nat) (elements : List Json) :
    tokenizer.tokensFrom position elements ≤ changedSize [] (requestElements elements) := by
  induction elements generalizing position with
  | nil => exact le_rfl
  | cons element elements ih =>
    rw [Tokenizer.tokensFrom, requestElements, List.map_cons, ← requestElements, changedSize]
    exact Nat.add_le_add (tokenizer.small _ _) (ih _)

theorem tokensFrom_le (collisionFree : Function.Injective ContentHash.sha256) (position : Nat)
    (first second : List Json) :
    tokenizer.tokensFrom position second ≤ tokenizer.tokensFrom position first +
      changedSize ((requestElements first).map Prod.fst) (requestElements second) := by
  induction second generalizing position first with
  | nil => exact Nat.zero_le _
  | cons element second ih =>
    cases first with
    | nil =>
      rw [Tokenizer.tokensFrom, Nat.zero_add]
      exact tokensFrom_le_size tokenizer position (element :: second)
    | cons old first =>
      have rest := ih (position + 1) first
      simp only [requestElements, List.map_cons, changedSize, Tokenizer.tokensFrom] at rest ⊢
      split
      next same =>
        have texts : Json.canonical old = Json.canonical element := collisionFree same
        rw [texts]
        omega
      next =>
        have small : tokenizer.count position (Json.canonical element) ≤ byteSize element :=
          tokenizer.small position (Json.canonical element)
        omega

/-- **The bound is sound**, whatever has changed between the two requests. -/
theorem tokens_le_inputBound (collisionFree : Function.Injective ContentHash.sha256) (epoch : Nat)
    (first second : List Json) {bound : Nat}
    (bounded : inputBound (some ⟨epoch, (requestElements first).map Prod.fst, tokenizer.tokens first⟩)
      (requestElements second) epoch = some bound) : tokenizer.tokens second ≤ bound := by
  have counted := tokensFrom_le tokenizer collisionFree 0 first second
  simp only [inputBound, if_true, Option.some.injEq] at bounded
  rw [← bounded, Tokenizer.tokens, Tokenizer.tokens]
  omega

end

/-! ### Runs -/

section

variable [ContentHash]

/-- What is remembered of the last request is a request of the history that was answered without a
compaction. -/
def Recalls (sent : List Exchange) (state : TokenState) (last : LastRequest) : Prop :=
  ∃ exchange ∈ sent, ∃ response ∈ exchange.response, response.compacts = false ∧
    exchange.before.parameters = state.parameters ∧
      last.digests = (requestElements exchange.before.elements).map Prod.fst ∧
        last.tokens = response.inputTokens

theorem Recalls.later {sent more : List Exchange} {state : TokenState} {last : LastRequest}
    (recalls : Recalls sent state last) : Recalls (sent ++ more) state last := by
  obtain ⟨exchange, member, facts⟩ := recalls
  exact ⟨exchange, List.mem_append_left _ member, facts⟩

structure Remembered (lineage : TokenLineage) : Prop where
  epochs : ∀ last ∈ lineage.state.lastRequest, last.epoch ≤ lineage.state.activeInputEpoch
  recalls : lineage.running = true → lineage.compacting = false → ∀ last ∈ lineage.state.lastRequest,
    last.epoch = lineage.state.activeInputEpoch → Recalls lineage.sent lineage.state last
  history : ∀ earlier exchange later, lineage.sent = earlier ++ exchange :: later →
    ∀ last ∈ exchange.before.lastRequest, last.epoch = exchange.before.activeInputEpoch →
      Recalls earlier exchange.before last

/-- A stopped or fresh session remembers nothing that a next run uses. -/
theorem Remembered.stopped {lineage after : TokenLineage} (remembered : Remembered lineage)
    (stopped : after.running = false) (sent : after.sent = lineage.sent)
    (epochs : ∀ last ∈ after.state.lastRequest, last.epoch ≤ after.state.activeInputEpoch) :
    Remembered after :=
  ⟨epochs, fun running => absurd (running.symm.trans stopped) (by decide), sent ▸ remembered.history⟩

/-- A request joins a history whose state remembers one of its requests. -/
theorem Remembered.sends {lineage : TokenLineage} (remembered : Remembered lineage)
    (running : lineage.running = true) (pruned : lineage.compacting = false) {exchange : Exchange}
    (before : exchange.before = lineage.state) :
    ∀ earlier other later, lineage.sent ++ [exchange] = earlier ++ other :: later →
      ∀ last ∈ other.before.lastRequest, last.epoch = other.before.activeInputEpoch →
        Recalls earlier other.before last := by
  intro earlier other later split
  rcases split_append split with ⟨rfl, rfl⟩ | ⟨init, old⟩
  · rw [before]
    exact remembered.recalls running pruned
  · exact remembered.history earlier other init old

theorem remembered_generate {lineage : TokenLineage} (remembered : Remembered lineage)
    (running : lineage.running = true) (pruned : lineage.compacting = false)
    (count : Except ExecutionError Nat) (sending : Sending) : Remembered (lineage.generate count sending) := by
  unfold TokenLineage.generate
  split
  next => exact remembered.stopped rfl rfl remembered.epochs
  next prepared done =>
    cases sending with
    | refused => exact ⟨remembered.epochs, nofun, remembered.sends running pruned rfl⟩
    | lost => exact ⟨remembered.epochs, nofun, remembered.sends running pruned rfl⟩
    | answered response =>
      have epochs : ∀ last ∈ (lineage.state.answered prepared response).lastRequest,
          last.epoch ≤ (lineage.state.answered prepared response).activeInputEpoch := by
        intro last known
        obtain rfl := Option.some.inj known
        exact le_rfl
      unfold TokenLineage.receive
      dsimp only
      split
      next => exact ⟨epochs, nofun, remembered.sends running pruned rfl⟩
      next =>
        split
        next => exact ⟨epochs, nofun, remembered.sends running pruned rfl⟩
        next =>
          refine ⟨epochs, fun _ plain last known _ => ?_, remembered.sends running pruned rfl⟩
          obtain rfl := Option.some.inj known
          exact ⟨_, List.mem_append_right _ (List.mem_singleton_self _), response, rfl, plain, rfl,
            (prepared_by done).digests, rfl⟩

theorem remembered_step {lineage : TokenLineage} (remembered : Remembered lineage) (label : TokenStep) :
    Remembered (lineage.step label) := by
  cases label with
  | run prompt =>
    rw [TokenLineage.step]
    split
    next => exact remembered
    next =>
      exact ⟨fun _ known => (by cases known), fun _ _ _ known => (by cases known), remembered.history⟩
  | edit tools input =>
    rw [TokenLineage.step]
    split
    next => exact ⟨remembered.epochs, remembered.recalls, remembered.history⟩
    next => exact remembered
  | compact input =>
    rw [TokenLineage.step]
    split
    next =>
      -- the epoch is a new one
      refine ⟨fun last known => Nat.le_succ_of_le (remembered.epochs last known),
        fun _ _ last known same => ?_, remembered.history⟩
      have old := remembered.epochs last known
      exact absurd same (Nat.ne_of_lt (Nat.lt_succ_of_le old))
    next => exact remembered
  | generate count sending =>
    rw [TokenLineage.step]
    split
    next passed =>
      simp only [Bool.and_eq_true, Bool.not_eq_true'] at passed
      exact remembered_generate remembered passed.1 passed.2 count sending
    next => exact remembered
  | stop uncertain => exact remembered.stopped rfl rfl remembered.epochs
  | native =>
    rw [TokenLineage.step]
    split
    next => exact remembered
    next => exact remembered.stopped rfl rfl fun _ known => by cases known
  | portable limits parameters tools =>
    rw [TokenLineage.step]
    split
    next => exact remembered
    next => exact remembered.stopped rfl rfl fun _ known => by cases known

theorem remembered_run (limits : RuntimeLimits) (parameters : RequestParameters) (tools : List Json)
    (labels : List TokenStep) :
    Remembered (Transition.run TokenLineage.step (.start limits parameters tools) labels) :=
  Transition.run_always Remembered labels
    ⟨nofun, nofun, fun _ _ _ split => absurd split (by simp [TokenLineage.start])⟩
    fun _ label remembered => remembered_step remembered label

/-- The provider bills the tokens of the request where it has not compacted. The tokenizer may depend on the
parameters, which a session keeps. -/
def Billed (tokenizer : RequestParameters → Tokenizer) (sent : List Exchange) : Prop :=
  ∀ exchange ∈ sent, ∀ response ∈ exchange.response, response.compacts = false →
    response.inputTokens = (tokenizer exchange.before.parameters).tokens exchange.before.elements

/-- An uncounted request is bounded from a request of the same history. -/
theorem uncounted_tokens_le (collisionFree : Function.Injective ContentHash.sha256)
    {tokenizer : RequestParameters → Tokenizer} {sent : List Exchange} (billed : Billed tokenizer sent)
    {state : TokenState} (recalls : ∀ last ∈ state.lastRequest, last.epoch = state.activeInputEpoch →
      Recalls sent state last) {bound : Nat} (known : uncountedBound state = some bound) :
    (tokenizer state.parameters).tokens state.elements ≤ bound := by
  obtain ⟨bounded, -⟩ := Option.filter_eq_some_iff.mp known
  cases last : state.lastRequest with
  | none => rw [last] at bounded; cases bounded
  | some previous =>
    by_cases current : previous.epoch = state.activeInputEpoch
    · obtain ⟨exchange, member, response, answered, plain, parameters, digests, tokens⟩ :=
        recalls previous last current
      have bill := billed exchange member response answered plain
      have shape : previous = ⟨state.activeInputEpoch,
          (requestElements exchange.before.elements).map Prod.fst,
          (tokenizer state.parameters).tokens exchange.before.elements⟩ := by
        obtain ⟨epoch, stored, count⟩ := previous
        simp only at current digests tokens
        rw [current, digests, tokens, bill, parameters]
      rw [last, shape] at bounded
      exact tokens_le_inputBound _ collisionFree _ _ _ bounded
    · rw [last] at bounded
      simp [inputBound, current] at bounded

/-- **The input bound is sound.** It is at least the tokens of the next request, and a request goes uncounted
only with room for its tokens in the context window and under the token guard. -/
theorem input_bound_sound (collisionFree : Function.Injective ContentHash.sha256) :
    (∀ (tokenizer : Tokenizer) (epoch : Nat) (first second : List Json), ∃ bound,
      inputBound (some ⟨epoch, (requestElements first).map Prod.fst, tokenizer.tokens first⟩)
        (requestElements second) epoch = some bound ∧ tokenizer.tokens second ≤ bound) ∧
      ∀ (tokenizer : RequestParameters → Tokenizer) (limits : RuntimeLimits)
        (parameters : RequestParameters) (tools : List Json) (labels : List TokenStep),
        let lineage := Transition.run TokenLineage.step (.start limits parameters tools) labels
        Billed tokenizer lineage.sent → ∀ earlier exchange later,
          lineage.sent = earlier ++ exchange :: later → exchange.prepared.counted = false →
            let tokens := (tokenizer exchange.before.parameters).tokens exchange.before.elements
            tokens ≤ exchange.prepared.inputTokens ∧
              (∀ window ∈ exchange.before.limits.maxContextTokens,
                tokens + exchange.before.limits.maxOutputTokens ≤ window) ∧
                ∀ total ∈ exchange.before.limits.maxTotalTokens,
                  consumed earlier + tokens + exchange.before.limits.maxOutputTokens ≤ total := by
  constructor
  · intro tokenizer epoch first second
    refine ⟨_, if_pos rfl, ?_⟩
    exact tokens_le_inputBound tokenizer collisionFree epoch first second (if_pos rfl)
  · intro tokenizer limits parameters tools labels lineage billed earlier exchange later split uncounted
    obtain ⟨used, -, done⟩ := (accounted_run limits parameters tools labels).history _ _ _ split
    have recalls := (remembered_run limits parameters tools labels).history _ _ _ split
    have known : uncountedBound exchange.before = some exchange.prepared.inputTokens := by
      rcases estimate_ok (prepared_by done).estimated with ⟨-, bound⟩ | ⟨counted, -⟩
      · exact bound
      · exact absurd (uncounted.symm.trans counted) (by decide)
    have part : Billed tokenizer earlier := fun other member =>
      billed other (split ▸ List.mem_append_left _ member)
    have sound := uncounted_tokens_le collisionFree part recalls known
    obtain ⟨window, total⟩ := uncounted_room known
    refine ⟨sound, fun limit limited => ?_, fun limit limited => ?_⟩
    · have room := window limit limited
      omega
    · have room := total limit limited
      omega

end

namespace Scenario

local instance boundedHash : ContentHash := PhysHarness.Scenario.textHash

/-- One token for each byte. -/
def bytewise : Tokenizer where
  constant := 0
  count _ text := text.utf8ByteSize
  small _ _ := le_rfl

/-- Two requests with the same elements: the first is counted, the second is bounded and refused. -/
def bounded : TokenLineage :=
  Transition.run TokenLineage.step (.start (window 50000 (by decide)) {} [])
    [.run [], .generate (.ok 6) (.answered ⟨6, 5, [], false⟩),
      .generate (.error ⟨"PROVIDER_FAILED", "", none, false⟩) .refused]

theorem bounded_billed : Billed (fun _ => bytewise) bounded.sent := by
  have bills : bounded.sent.all (fun exchange => exchange.response.all fun response =>
      response.inputTokens = bytewise.tokens exchange.before.elements) = true := by decide
  intro exchange member response answered _
  have bill := List.all_eq_true.mp bills exchange member
  rw [Option.mem_def.mp answered] at bill
  exact of_decide_eq_true bill

theorem second_request_bounded : bounded.sent.any (fun exchange => !exchange.prepared.counted) = true ∧
    (∀ exchange ∈ bounded.sent, exchange.prepared.counted = false →
      bytewise.tokens exchange.before.elements ≤ exchange.prepared.inputTokens) ∧
      ∃ bound, inputBound (some ⟨0, (requestElements [.null]).map Prod.fst, bytewise.tokens [.null]⟩)
        (requestElements [.bool true]) 0 = some bound ∧ bytewise.tokens [.bool true] ≤ bound := by
  have sound := input_bound_sound (fun _ _ same => same)
  refine ⟨by decide, fun exchange member uncounted => ?_, sound.1 bytewise 0 [.null] [.bool true]⟩
  obtain ⟨earlier, later, split⟩ := List.append_of_mem member
  exact (sound.2 (fun _ => bytewise) _ _ _ _ bounded_billed earlier exchange later split uncounted).1

end Scenario

end PhysHarness.Preflight
