import PhysHarness.Execution.Preflight
import PhysHarness.Lib.Transition

/-!
The token guard over a lineage of native sessions.

A session's usage is added up response by response and a successor starts from the usage of its whole lineage.
The history keeps every request that was sent with what the lineage had used by then. A request whose outcome
is unknown leaves its session uncertain, and nothing is sent after it.
-/
namespace PhysHarness.Preflight

structure Response where
  inputTokens : Nat
  outputTokens : Nat
  output : List Json := []
  /-- Some item of the output is a compaction. -/
  compacts : Bool := false

/-- A request that was sent, with the state and the count it was prepared from. -/
structure Exchange where
  before : TokenState
  count : Except ExecutionError Nat
  prepared : Prepared
  response : Option Response

/-- What the responses have used. -/
def consumed (sent : List Exchange) : Nat :=
  (sent.map fun exchange =>
    match exchange.response with
    | some response => response.inputTokens + response.outputTokens
    | none => 0).sum

structure TokenLineage where
  state : TokenState
  running : Bool := false
  /-- A pending operation whose outcome is unknown. -/
  uncertain : Bool := false
  /-- The last response has compaction items and the input has not been pruned. -/
  compacting : Bool := false
  sent : List Exchange := []
  /-- A `PROVIDER_LIMIT_VIOLATION` for consumption beyond `max_total_tokens`. -/
  totalViolated : Bool := false

/-- What becomes of a request. -/
inductive Sending where
  /-- The provider has done no work. -/
  | refused
  /-- The request may have been billed: a crash, a cancellation, or a response without usage. -/
  | lost
  | answered (response : Response)

inductive TokenStep where
  /-- `_run` begins, with the prompt when there is one. -/
  | run (prompt : List Json)
  /-- Updates, notes, elision and tool outputs change the input. -/
  | edit (tools input : List Json)
  /-- A compaction rewrites the input. -/
  | compact (input : List Json)
  /-- A request is prepared with the answer of a count, and sent. -/
  | generate (count : Except ExecutionError Nat) (sending : Sending)
  /-- The run ends, with an uncertain tool operation or without. -/
  | stop (uncertain : Bool)
  /-- `start_from_handoff` -/
  | native
  /-- `start` with the handed off checkpoint as the predecessor. -/
  | portable (limits : RuntimeLimits) (parameters : RequestParameters) (tools : List Json)

/-- A successor has used nothing of its own. -/
def TokenState.succeeded (state : TokenState) : TokenState :=
  { state with
    cumulativeInputOffset := state.cumulativeInputOffset + state.inputTokens
    cumulativeOutputOffset := state.cumulativeOutputOffset + state.outputTokens
    inputTokens := 0
    outputTokens := 0
    lastRequest := none }

/-- The usage of a response is added to its session's, and the next bound starts from it. -/
def TokenState.answered (state : TokenState) (prepared : Prepared) (response : Response) : TokenState :=
  { state with
    inputTokens := state.inputTokens + response.inputTokens
    outputTokens := state.outputTokens + response.outputTokens
    lastRequest := some ⟨state.activeInputEpoch, prepared.digests, response.inputTokens⟩
    input := state.input ++ response.output }

/-- The lineage has used more than it may. -/
def TokenState.exceeded (state : TokenState) : Bool :=
  match state.limits.maxTotalTokens with
  | some total => decide (total < state.used)
  | none => false

namespace TokenLineage

def receive (lineage : TokenLineage) (prepared : Prepared) (response : Response) : TokenLineage :=
  let state := lineage.state.answered prepared response
  if state.exceeded then { lineage with state, running := false, totalViolated := true }
  else if prepared.inputReservation < response.inputTokens ∨
      prepared.outputReservation < response.outputTokens then
    -- usage beyond the reservation of the request ends the run
    { lineage with state, running := false }
  else { lineage with state, compacting := response.compacts }

def generate [ContentHash] (lineage : TokenLineage) (count : Except ExecutionError Nat) (sending : Sending) :
    TokenLineage :=
  match prepareRequest lineage.state count with
  | .error _ => { lineage with running := false }
  | .ok prepared =>
    let exchange (response : Option Response) : Exchange := ⟨lineage.state, count, prepared, response⟩
    match sending with
    | .refused => { lineage with running := false, sent := lineage.sent ++ [exchange none] }
    | .lost =>
      { lineage with running := false, uncertain := true, sent := lineage.sent ++ [exchange none] }
    | .answered response =>
      { lineage with sent := lineage.sent ++ [exchange (some response)] }.receive prepared response

def step [ContentHash] (lineage : TokenLineage) : TokenStep → TokenLineage
  | .run prompt =>
    if lineage.running || lineage.uncertain ||
        !configured lineage.state.limits lineage.state.parameters then lineage
    else
      { lineage with
        running := true
        compacting := false
        -- the bound of an earlier run is void
        state := { lineage.state with input := lineage.state.input ++ prompt, lastRequest := none } }
  | .edit tools input =>
    if lineage.running then { lineage with state := { lineage.state with tools, input } } else lineage
  | .compact input =>
    if lineage.running then
      { lineage with
        compacting := false
        state := { lineage.state with
          input, activeInputEpoch := lineage.state.activeInputEpoch + 1 } }
    else lineage
  | .generate count sending =>
    if lineage.running && !lineage.compacting then lineage.generate count sending else lineage
  | .stop uncertain => { lineage with running := false, uncertain := lineage.uncertain || uncertain }
  | .native =>
    if lineage.uncertain then lineage
    else { lineage with running := false, state := lineage.state.succeeded }
  | .portable limits parameters tools =>
    if lineage.uncertain then lineage
    else
      { lineage with
        running := false
        state := { lineage.state.succeeded with
          limits, parameters, tools, input := [], activeInputEpoch := 0 } }

/-- A session without a predecessor. -/
def start (limits : RuntimeLimits) (parameters : RequestParameters) (tools : List Json) : TokenLineage :=
  { state := { limits, parameters, tools } }

end TokenLineage

/-! ### One request -/

section

variable [ContentHash]

/-- Room for the whole output beside the reservation: the request carries no context management, or its
reservation leaves the largest output. -/
def Covered (state : TokenState) (count : Except ExecutionError Nat) (total : Nat) : Prop :=
  ∀ threshold ∈ state.parameters.compactThreshold, ∀ tokens counted,
    estimate state count = .ok (tokens, counted) →
      state.used + managedReservation state.limits threshold (marginedEstimate tokens counted) +
        state.limits.maxOutputTokens ≤ total

/-- **The reservation of a request fits exactly when it is covered.** -/
theorem fits_iff {state : TokenState} {count : Except ExecutionError Nat} {prepared : Prepared} {total : Nat}
    (done : prepareRequest state count = .ok prepared)
    (checked : configured state.limits state.parameters = true)
    (limited : state.limits.maxTotalTokens = some total) :
    state.used + prepared.inputReservation + prepared.outputReservation ≤ total ↔
      Covered state count total := by
  have spec := prepared_by done
  have room := spec.total total limited
  have output := spec.output total limited
  cases managed : state.parameters.compactThreshold with
  | none =>
    have plain := spec.plain managed
    refine ⟨fun _ threshold member => absurd member (by simp [managed]), fun _ => ?_⟩
    omega
  | some threshold =>
    have reserved := spec.managed threshold managed
    have positive := state.limits.bounds.2.1
    -- more than the estimate is reserved, or a bound with room for the whole output
    have wider : prepared.inputTokens < prepared.inputReservation ∨
        state.used + prepared.inputReservation + state.limits.maxOutputTokens ≤ total := by
      rw [reserved, managedReservation]
      split
      next =>
        rw [marginedEstimate]
        split
        next => exact .inl (Nat.lt_add_of_pos_right (boundMargin_pos _))
        next uncounted =>
          rcases estimate_ok spec.estimated with ⟨-, bound⟩ | ⟨counted, -⟩
          · have far := (uncounted_room bound).2 total limited
            exact .inr (by omega)
          · exact absurd counted uncounted
      next =>
        cases known : state.limits.maxContextTokens with
        | none => simp [configured, managed, known] at checked
        | some window =>
          have inside := spec.window window known
          rw [Option.getD_some]
          exact .inl (by omega)
    have covered : Covered state count total ↔
        state.used + prepared.inputReservation + state.limits.maxOutputTokens ≤ total := by
      constructor
      · intro covered
        have sum := covered threshold managed _ _ spec.estimated
        rwa [← reserved] at sum
      · intro sum other known tokens counted estimated
        obtain rfl : threshold = other := Option.some.inj (managed.symm.trans known)
        obtain ⟨rfl, rfl⟩ := Prod.mk.inj (Except.ok.inj (spec.estimated.symm.trans estimated))
        rwa [← reserved]
    rw [covered, output]
    omega

/-! ### Runs -/

omit [ContentHash] in
theorem consumed_append (sent : List Exchange) (exchange : Exchange) :
    consumed (sent ++ [exchange]) = consumed sent + consumed [exchange] := by
  simp [consumed]

omit [ContentHash] in
/-- A request of a longer history is the last one or one of the history before it. -/
theorem split_append {sent earlier later : List Exchange} {last exchange : Exchange}
    (split : sent ++ [last] = earlier ++ exchange :: later) :
    (earlier = sent ∧ exchange = last) ∨ ∃ before, sent = earlier ++ exchange :: before := by
  rcases List.eq_nil_or_concat later with rfl | ⟨before, final, rfl⟩
  · obtain ⟨same, only⟩ := List.append_inj' split rfl
    exact .inl ⟨same.symm, (List.cons.inj only).1.symm⟩
  · rw [List.concat_eq_append, ← List.cons_append, ← List.append_assoc] at split
    exact .inr ⟨before, (List.append_inj' split rfl).1⟩

/-- The state has counted every response, and every request of the history was prepared from such a state. -/
structure Accounted (lineage : TokenLineage) : Prop where
  used : lineage.state.used = consumed lineage.sent
  checked : lineage.running = true → configured lineage.state.limits lineage.state.parameters = true
  history : ∀ earlier exchange later, lineage.sent = earlier ++ exchange :: later →
    exchange.before.used = consumed earlier ∧
      configured exchange.before.limits exchange.before.parameters = true ∧
        prepareRequest exchange.before exchange.count = .ok exchange.prepared
  violated : lineage.totalViolated = true →
    ∃ exchange ∈ lineage.sent, ∃ response ∈ exchange.response,
      ∃ total ∈ exchange.before.limits.maxTotalTokens,
        total < exchange.before.used + response.inputTokens + response.outputTokens

/-- Steps that send nothing keep the account. -/
theorem Accounted.quiet {lineage after : TokenLineage} (accounted : Accounted lineage)
    (sent : after.sent = lineage.sent) (used : after.state.used = lineage.state.used)
    (checked : after.running = true → configured after.state.limits after.state.parameters = true)
    (violated : after.totalViolated = lineage.totalViolated) : Accounted after :=
  ⟨by rw [used, sent, accounted.used], checked, sent ▸ accounted.history,
    by rw [sent, violated]; exact accounted.violated⟩

/-- A request is sent from an accounted state. -/
theorem Accounted.sends {lineage after : TokenLineage} (accounted : Accounted lineage)
    (running : lineage.running = true) {count : Except ExecutionError Nat} {prepared : Prepared}
    (done : prepareRequest lineage.state count = .ok prepared) {response : Option Response}
    (sent : after.sent = lineage.sent ++ [⟨lineage.state, count, prepared, response⟩])
    (used : after.state.used = lineage.state.used + consumed [⟨lineage.state, count, prepared, response⟩])
    (settings : after.state.limits = lineage.state.limits ∧
      after.state.parameters = lineage.state.parameters)
    (violated : after.totalViolated = true → lineage.totalViolated = true ∨ ∃ answer ∈ response,
      ∃ total ∈ lineage.state.limits.maxTotalTokens,
        total < lineage.state.used + answer.inputTokens + answer.outputTokens) : Accounted after := by
  have checked := accounted.checked running
  refine ⟨?_, fun _ => by rw [settings.1, settings.2]; exact checked, ?_, fun violation => ?_⟩
  · rw [used, sent, consumed_append, accounted.used]
  · intro earlier exchange later split
    rw [sent] at split
    rcases split_append split with ⟨rfl, rfl⟩ | ⟨before, old⟩
    · exact ⟨accounted.used, checked, done⟩
    · exact accounted.history earlier exchange before old
  · rw [sent]
    rcases violated violation with old | ⟨answer, known, total, limited, beyond⟩
    · obtain ⟨exchange, member, facts⟩ := accounted.violated old
      exact ⟨exchange, List.mem_append_left _ member, facts⟩
    · exact ⟨_, List.mem_append_right _ (List.mem_singleton_self _), answer, known, total, limited,
        beyond⟩

theorem accounted_receive {lineage : TokenLineage} (accounted : Accounted lineage)
    (running : lineage.running = true) {count : Except ExecutionError Nat} {prepared : Prepared}
    (done : prepareRequest lineage.state count = .ok prepared) (response : Response) :
    Accounted (({ lineage with sent := lineage.sent ++
      [⟨lineage.state, count, prepared, some response⟩] } : TokenLineage).receive prepared response) := by
  have used : (lineage.state.answered prepared response).used =
      lineage.state.used + consumed [⟨lineage.state, count, prepared, some response⟩] := by
    simp only [TokenState.used, TokenState.answered, consumed, List.map_cons, List.map_nil, List.sum_cons,
      List.sum_nil]
    omega
  unfold TokenLineage.receive
  dsimp only
  split
  next exceeded =>
    refine accounted.sends running done rfl used ⟨rfl, rfl⟩ fun _ => .inr ⟨response, rfl, ?_⟩
    simp only [TokenState.exceeded] at exceeded
    split at exceeded
    next total limited =>
      refine ⟨total, limited, ?_⟩
      have beyond := of_decide_eq_true exceeded
      rw [used] at beyond
      simp only [consumed, List.map_cons, List.map_nil, List.sum_cons, List.sum_nil] at beyond
      omega
    next => cases exceeded
  next =>
    split
    next => exact accounted.sends running done rfl used ⟨rfl, rfl⟩ .inl
    next => exact accounted.sends running done rfl used ⟨rfl, rfl⟩ .inl

theorem accounted_generate {lineage : TokenLineage} (accounted : Accounted lineage)
    (running : lineage.running = true) (count : Except ExecutionError Nat) (sending : Sending) :
    Accounted (lineage.generate count sending) := by
  unfold TokenLineage.generate
  split
  next => exact accounted.quiet rfl rfl nofun rfl
  next prepared done =>
    cases sending with
    | refused => exact accounted.sends running done rfl rfl ⟨rfl, rfl⟩ .inl
    | lost => exact accounted.sends running done rfl rfl ⟨rfl, rfl⟩ .inl
    | answered response => exact accounted_receive accounted running done response

theorem accounted_step {lineage : TokenLineage} (accounted : Accounted lineage) (label : TokenStep) :
    Accounted (lineage.step label) := by
  have succeeded : lineage.state.succeeded.used = lineage.state.used := by
    simp only [TokenState.used, TokenState.succeeded]
    omega
  cases label with
  | run prompt =>
    rw [TokenLineage.step]
    split
    next => exact accounted
    next passed =>
      simp only [Bool.or_eq_true, Bool.not_eq_true', not_or, Bool.not_eq_false] at passed
      exact accounted.quiet rfl rfl (fun _ => passed.2) rfl
  | edit tools input =>
    rw [TokenLineage.step]
    split
    next => exact accounted.quiet rfl rfl accounted.checked rfl
    next => exact accounted
  | compact input =>
    rw [TokenLineage.step]
    split
    next => exact accounted.quiet rfl rfl accounted.checked rfl
    next => exact accounted
  | generate count sending =>
    rw [TokenLineage.step]
    split
    next passed =>
      rw [Bool.and_eq_true] at passed
      exact accounted_generate accounted passed.1 count sending
    next => exact accounted
  | stop uncertain => exact accounted.quiet rfl rfl nofun rfl
  | native =>
    rw [TokenLineage.step]
    split
    next => exact accounted
    next => exact accounted.quiet rfl succeeded nofun rfl
  | portable limits parameters tools =>
    rw [TokenLineage.step]
    split
    next => exact accounted
    next => exact accounted.quiet rfl succeeded nofun rfl

theorem accounted_run (limits : RuntimeLimits) (parameters : RequestParameters) (tools : List Json)
    (labels : List TokenStep) :
    Accounted (Transition.run TokenLineage.step (.start limits parameters tools) labels) :=
  Transition.run_always Accounted labels
    ⟨rfl, nofun, fun _ _ _ split => absurd split (by simp [TokenLineage.start]), nofun⟩
    fun _ label accounted => accounted_step accounted label

/-- The responses stay within the reservations of their requests. -/
def WithinReservations (sent : List Exchange) : Prop :=
  ∀ exchange ∈ sent, ∀ response ∈ exchange.response,
    response.inputTokens ≤ exchange.prepared.inputReservation ∧
      response.outputTokens ≤ exchange.prepared.outputReservation

/-- Every request of the history was covered when it was prepared. -/
def AllCovered (sent : List Exchange) : Prop :=
  ∀ exchange ∈ sent, ∀ total ∈ exchange.before.limits.maxTotalTokens,
    Covered exchange.before exchange.count total

/-- **The token guard holds of exactly the covered requests.** In a run of covered requests it holds of every
request, and responses within their reservations never exceed the limit. -/
theorem token_guard_covered (limits : RuntimeLimits) (parameters : RequestParameters) (tools : List Json)
    (labels : List TokenStep) :
    let lineage := Transition.run TokenLineage.step (.start limits parameters tools) labels
    (∀ earlier exchange later total, lineage.sent = earlier ++ exchange :: later →
      exchange.before.limits.maxTotalTokens = some total →
        (consumed earlier + exchange.prepared.inputReservation + exchange.prepared.outputReservation ≤
          total ↔ Covered exchange.before exchange.count total)) ∧
      (AllCovered lineage.sent → WithinReservations lineage.sent → lineage.totalViolated = false) := by
  intro lineage
  have accounted : Accounted lineage := accounted_run limits parameters tools labels
  constructor
  · intro earlier exchange later total split limited
    obtain ⟨used, checked, done⟩ := accounted.history earlier exchange later split
    rw [← used]
    exact fits_iff done checked limited
  · intro covered within
    refine Bool.eq_false_iff.mpr fun violation => ?_
    obtain ⟨exchange, member, response, answered, total, limited, beyond⟩ := accounted.violated violation
    obtain ⟨earlier, later, split⟩ := List.append_of_mem member
    obtain ⟨-, checked, done⟩ := accounted.history earlier exchange later split
    have fits := (fits_iff done checked limited).mpr (covered exchange member total limited)
    have small := within exchange member response answered
    omega

end

namespace Scenario

local instance countedHash : ContentHash := PhysHarness.Scenario.textHash

def window (total : Nat) (positive : 1 ≤ total) : RuntimeLimits where
  maxTurns := 8
  maxOutputTokens := 1000
  maxTotalTokens := some total
  maxContextTokens := some 64000
  timeoutSeconds := ⟨['3', '0', '0', '.', '0'], by decide⟩
  bounds := ⟨by decide, by decide, by simpa using positive, by simp⟩

/-- One request with the count 1000 under a compaction threshold. -/
def counted (total : Nat) (positive : 1 ≤ total) (response : Response) : TokenLineage :=
  Transition.run TokenLineage.step (.start (window total positive) { compactThreshold := some 40000 } [])
    [.run [], .generate (.ok 1000) (.answered response)]

theorem within_of_single {lineage : TokenLineage} {exchange : Exchange} {response : Response}
    (sent : lineage.sent = [exchange]) (answered : exchange.response = some response)
    (input : response.inputTokens ≤ exchange.prepared.inputReservation)
    (output : response.outputTokens ≤ exchange.prepared.outputReservation) :
    WithinReservations lineage.sent := by
  rw [sent]
  intro other member answer known
  obtain rfl := List.mem_singleton.mp member
  obtain rfl := Option.some.inj (answered.symm.trans known)
  exact ⟨input, output⟩

theorem covered_never_exceeded : (counted 8000 (by decide) ⟨2500, 900, [], false⟩).totalViolated = false := by
  refine (token_guard_covered _ _ _ _).2 ?_ (within_of_single rfl rfl (by decide) (by decide))
  intro exchange member total limited threshold managed tokens count estimated
  obtain rfl := List.mem_singleton.mp member
  cases limited
  cases managed
  cases estimated
  decide

/-- The margin of a count is reserved beyond the limit, and a response within its reservation exceeds it. -/
theorem margin_beyond_limit :
    ¬ ∀ (limits : RuntimeLimits) (parameters : RequestParameters) (tools : List Json)
      (labels : List TokenStep),
      let lineage := Transition.run TokenLineage.step (.start limits parameters tools) labels
      (∀ earlier exchange later total, lineage.sent = earlier ++ exchange :: later →
        exchange.before.limits.maxTotalTokens = some total →
          consumed earlier + exchange.prepared.inputReservation + exchange.prepared.outputReservation ≤
            total) ∧
        (WithinReservations lineage.sent → lineage.totalViolated = false) := by
  intro guarded
  have hard := guarded (window 3000 (by decide)) { compactThreshold := some 40000 } []
    [.run [], .generate (.ok 1000) (.answered ⟨2500, 1000, [], false⟩)]
  exact absurd (hard.1 [] _ [] 3000 rfl rfl) (by decide)

end Scenario

end PhysHarness.Preflight
