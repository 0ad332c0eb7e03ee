import PhysHarness.Execution.Shortening

/-!
Pruning of the active input at a compaction.

A turn of the native loop appends the items of a response and one output for each of its calls. After a
compaction the input is kept from the compaction item, or from the start of its response when one of its calls
stands before it. An earlier call with the id of a call of the response moves the cut to itself.
-/
namespace PhysHarness.Compaction

/-- The ids of the calls of a response, in order. -/
def callIds (output : List Produced) : List String :=
  output.filterMap fun
    | .functionCall call => some call.callId
    | _ => none

/-- One output for each call of the response, whatever it shows. -/
def outputs (output : List Produced) (text : Nat → Text) : List InputItem :=
  (callIds output).zipIdx.map fun (id, i) => .toolOutput ⟨id, text i⟩

/-- The active input after the calls of a response. -/
def active (prior : List InputItem) (output : List Produced) (text : Nat → Text) : List InputItem :=
  prior ++ (output.map .produced ++ outputs output text)

def inputCalls (input : List InputItem) : List String :=
  input.filterMap fun
    | .produced (.functionCall call) => some call.callId
    | _ => none

/-- Every output stands after a call with its id. -/
def Paired (input : List InputItem) : Prop :=
  ∀ i shown, input[i]? = some (.toolOutput shown) → shown.callId ∈ inputCalls (input.take i)

/-- The first earlier call that has the id of a call of the response. -/
def reused (prior : List InputItem) (output : List Produced) : Option Nat :=
  prior.findIdx? fun
    | .produced (.functionCall call) => call.callId ∈ callIds output
    | _ => false

def isCompaction : Produced → Bool
  | .compaction _ _ => true
  | _ => false

/-! ### The loop -/

/-- A pruning, with what stood before the response and what has been archived and kept. -/
structure Pruning where
  prior : List InputItem
  output : List Produced
  text : Nat → Text
  archived : List InputItem
  kept : List InputItem

structure Loop where
  lineage : NativeLineage
  /-- A turn that fails leaves its boundary unsettled, and nothing follows it. -/
  settled : Bool := true
  prunings : List Pruning := []

inductive LoopStep where
  /-- A prompt, an update or a note is added. -/
  | inform (content : Json)
  /-- Outputs are shortened. -/
  | elide (text : ToolOutput → Text)
  /-- A response arrives, its calls are answered and the input is advanced with the hook's anchor. -/
  | turn (output : List Produced) (text : Nat → Text) (results : ToolResults) (anchor : Option String)
  | handoff (session : SessionId) (prompt : String)
  | reload

def elided (text : ToolOutput → Text) : InputItem → InputItem
  | .toolOutput shown => .toolOutput { shown with output := text shown }
  | item => item

/-- The lineage after the calls of a response. -/
def called (lineage : NativeLineage) (output : List Produced) (text : Nat → Text) (results : ToolResults) :
    NativeLineage :=
  { lineage with
    state := { lineage.state with
      input := active lineage.state.input output text
      toolResults := results } }

namespace Loop

def turn (loop : Loop) (output : List Produced) (text : Nat → Text) (results : ToolResults)
    (anchor : Option String) : Loop :=
  let lineage := called loop.lineage output text results
  match lineage.advanceActiveInput output (anchor <|> lineage.state.initialAnchor) with
  | .ok after =>
    { loop with
      lineage := after
      prunings :=
        if output.any isCompaction then
          loop.prunings ++ [{
            prior := loop.lineage.state.input, output, text
            archived := (after.store.getLast?.map Archive.inputPrefix).getD []
            kept := after.state.input.dropLast }]
        else loop.prunings }
  | .error _ => { loop with lineage, settled := false }

def step (loop : Loop) (label : LoopStep) : Loop :=
  if loop.settled then
    match label with
    | .inform content =>
      { loop with lineage := { loop.lineage with
          state := { loop.lineage.state with input := loop.lineage.state.input ++ [.user content] } } }
    | .elide text =>
      { loop with lineage := { loop.lineage with
          state := { loop.lineage.state with input := loop.lineage.state.input.map (elided text) } } }
    | .turn output text results anchor => loop.turn output text results anchor
    | .handoff session prompt => { loop with lineage := loop.lineage.startFromHandoff session prompt }
    | .reload => { loop with lineage := { loop.lineage with state := loop.lineage.state.reloaded } }
  else loop

end Loop

/-! ### The calls of a response -/

/-- One answered call is one more output. -/
theorem runCall_appends [FloatReader] {lineage after : NativeLineage} {call : FunctionCall}
    {dispatched : Except ExecutionError Fields} {signal : Option NativeLineage.Signal}
    (done : lineage.runCall call dispatched signal = .ok after) :
    ∃ shown, after.state.input = lineage.state.input ++ [.toolOutput ⟨call.callId, shown⟩] := by
  unfold NativeLineage.runCall at done
  simp only at done
  split at done
  next arguments parsed =>
    split at done
    next =>
      unfold NativeLineage.runRecall at done
      simp only [Outcome.bind_ok, Outcome.pure_ok] at done
      obtain ⟨recalled, -, rfl⟩ := done
      cases recalled <;> exact ⟨_, rfl⟩
    next =>
      simp only [Outcome.bind_ok] at done
      obtain ⟨found, -, done⟩ := done
      cases found with
      | none =>
        simp only [Outcome.bind_ok, Outcome.pure_ok] at done
        obtain ⟨result, -, rfl⟩ := done
        exact ⟨_, rfl⟩
      | some previous =>
        simp only [Outcome.bind_ok, Outcome.pure_ok] at done
        obtain ⟨_, -, rfl⟩ := done
        exact ⟨_, rfl⟩
  next => cases done

/-- `_run_calls` -/
def runCalls [FloatReader] (lineage : NativeLineage) :
    List (FunctionCall × Except ExecutionError Fields × Option NativeLineage.Signal) → Except ExecutionError NativeLineage
  | [] => pure lineage
  | (call, dispatched, signal) :: calls => do
    runCalls (← lineage.runCall call dispatched signal) calls

/-- The calls of a response append one output each, in order. -/
theorem runCalls_appends [FloatReader] {lineage after : NativeLineage}
    {calls : List (FunctionCall × Except ExecutionError Fields × Option NativeLineage.Signal)}
    (done : runCalls lineage calls = .ok after) : ∃ texts : List Text, texts.length = calls.length ∧
      after.state.input = lineage.state.input ++
        List.zipWith (fun call text => InputItem.toolOutput ⟨call.1.callId, text⟩) calls texts := by
  induction calls generalizing lineage with
  | nil =>
    obtain rfl := Outcome.pure_ok.mp done
    exact ⟨[], rfl, (List.append_nil _).symm⟩
  | cons call calls ih =>
    obtain ⟨next, first, rest⟩ := Outcome.bind_ok.mp done
    obtain ⟨shown, one⟩ := runCall_appends first
    obtain ⟨texts, length, others⟩ := ih rest
    refine ⟨shown :: texts, congrArg Nat.succ length, ?_⟩
    rw [others, one, List.zipWith_cons_cons, List.append_assoc, List.singleton_append]

/-- After the calls of a response the input is the active input of its turn. -/
theorem runCalls_active [FloatReader] {lineage after : NativeLineage} {output : List Produced}
    {calls : List (FunctionCall × Except ExecutionError Fields × Option NativeLineage.Signal)}
    (all : calls.map (fun call => call.1.callId) = callIds output) {prior : List InputItem}
    (responded : lineage.state.input = prior ++ output.map .produced)
    (done : runCalls lineage calls = .ok after) : ∃ text, after.state.input = active prior output text := by
  obtain ⟨texts, length, appended⟩ := runCalls_appends done
  refine ⟨fun i => texts.getD i [], ?_⟩
  rw [appended, responded, active, List.append_assoc]
  congr 2
  refine List.ext_getElem ?_ fun i left right => ?_
  · rw [outputs, List.length_zipWith, List.length_map, List.length_zipIdx, length, Nat.min_self, ← all,
      List.length_map]
  · have inside : i < calls.length := by
      rw [List.length_zipWith] at left
      omega
    simp [outputs, ← all, length ▸ inside]

/-! ### Places -/

/-- A search from the end finds the last place. -/
theorem find_reverse_range {n i : Nat} {test : Nat → Bool} :
    (List.range n).reverse.find? test = some i ↔
      (test i = true ∧ i < n) ∧ ∀ k, i < k → k < n → test k = false := by
  induction n with
  | zero => simp
  | succ n ih =>
    rw [List.range_succ, List.reverse_append, List.reverse_singleton, List.singleton_append, List.find?_cons]
    cases last : test n with
    | true =>
      constructor
      · intro same
        obtain rfl := Option.some.inj same
        exact ⟨⟨last, Nat.lt_succ_self _⟩, fun k above below => by omega⟩
      · rintro ⟨⟨here, bound⟩, none⟩
        by_contra other
        have above : i < n := by
          rcases Nat.lt_or_eq_of_le (Nat.le_of_lt_succ bound) with below | rfl
          · exact below
          · exact absurd rfl other
        exact absurd (none n above (Nat.lt_succ_self n)) (by simp [last])
    | false =>
      rw [ih]
      constructor
      · rintro ⟨⟨here, bound⟩, none⟩
        refine ⟨⟨here, Nat.lt_succ_of_lt bound⟩, fun k above below => ?_⟩
        rcases Nat.lt_or_eq_of_le (Nat.le_of_lt_succ below) with inside | rfl
        · exact none k above inside
        · exact last
      · rintro ⟨⟨here, bound⟩, none⟩
        have inside : i < n := by
          rcases Nat.lt_or_eq_of_le (Nat.le_of_lt_succ bound) with below | rfl
          · exact below
          · exact absurd (here.symm.trans last) (by decide)
        exact ⟨⟨here, inside⟩, fun k above below => none k above (Nat.lt_succ_of_lt below)⟩

section

variable {output : List Produced} {text : Nat → Text}

theorem mem_outputs {item : InputItem} (member : item ∈ outputs output text) :
    ∃ shown, item = .toolOutput shown ∧ shown.callId ∈ callIds output := by
  obtain ⟨⟨id, i⟩, listed, rfl⟩ := List.mem_map.mp member
  exact ⟨_, rfl, (List.mem_zipIdx' listed).2 ▸ List.getElem_mem _⟩

theorem length_outputs : (outputs output text).length = (callIds output).length := by
  rw [outputs, List.length_map, List.length_zipIdx]

end

variable (prior : List InputItem) {output : List Produced} (text : Nat → Text)

/-- A response has its last compaction item at one place, and the outputs are none. -/
theorem lastIndex_active {item : Produced} (listed : item ∈ output) :
    ∃ j, NativeLineage.lastIndex (active prior output text) (.produced item) = some (prior.length + j) ∧
      output[j]? = some item := by
  have within : ∀ k, (active prior output text)[k]? = some (.produced item) →
      k < prior.length + output.length := by
    intro k there
    by_contra beyond
    rw [active, List.getElem?_append_right (by omega),
      List.getElem?_append_right (by rw [List.length_map]; omega)] at there
    obtain ⟨shown, same, -⟩ := mem_outputs (List.mem_of_getElem? there)
    cases same
  have place (j : Nat) (inside : j < output.length) :
      (active prior output text)[prior.length + j]? = (output[j]?).map .produced := by
    rw [active, List.getElem?_append_right (Nat.le_add_right ..), Nat.add_sub_cancel_left,
      List.getElem?_append_left (by rwa [List.length_map]), List.getElem?_map]
  obtain ⟨first, bound, here⟩ := List.mem_iff_getElem.mp listed
  have known : output[first]? = some item := List.getElem?_eq_some_iff.mpr ⟨bound, here⟩
  have there : (active prior output text)[prior.length + first]? = some (.produced item) := by
    rw [place first bound, known, Option.map_some]
  cases found : NativeLineage.lastIndex (active prior output text) (.produced item) with
  | none =>
    have absent := List.find?_eq_none.mp found (prior.length + first)
      (List.mem_reverse.mpr (List.mem_range.mpr (List.getElem?_eq_some_iff.mp there).1))
    exact absurd (decide_eq_true there) absent
  | some i =>
    obtain ⟨⟨at_i, _⟩, last⟩ := find_reverse_range.mp found
    have at_i := of_decide_eq_true at_i
    have after : prior.length + first ≤ i := by
      by_contra before
      have missing := last _ (Nat.lt_of_not_le before) (List.getElem?_eq_some_iff.mp there).1
      exact absurd there (of_decide_eq_false missing)
    obtain ⟨j, rfl⟩ := Nat.le.dest (Nat.le_trans (Nat.le_add_right ..) after)
    have inside : j < output.length := by have := within _ at_i; omega
    refine ⟨j, rfl, ?_⟩
    rw [place j inside] at at_i
    obtain ⟨other, stored, same⟩ := Option.map_eq_some_iff.mp at_i
    cases same
    exact stored

/-! ### Crossing calls -/

theorem mem_callIds {id : String} : id ∈ callIds output ↔
    ∃ call, .functionCall call ∈ output ∧ call.callId = id := by
  rw [callIds, List.mem_filterMap]
  constructor
  · rintro ⟨item, member, same⟩
    cases item with
    | functionCall call => exact ⟨call, member, Option.some.inj same⟩
    | _ => cases same
  · rintro ⟨call, member, rfl⟩
    exact ⟨_, member, rfl⟩

def shownIds (input : List InputItem) : List String :=
  input.filterMap fun
    | .toolOutput shown => some shown.callId
    | _ => none

theorem shownIds_outputs : shownIds (outputs output text) = callIds output := by
  rw [shownIds, outputs, List.filterMap_map]
  show (callIds output).zipIdx.filterMap (some ∘ Prod.fst) = _
  rw [List.filterMap_eq_map]
  exact List.zipIdx_map_fst 0 _

theorem shownIds_produced (items : List Produced) : shownIds (items.map .produced) = [] :=
  List.filterMap_eq_nil_iff.mpr fun _ member => by
    obtain ⟨_, _, rfl⟩ := List.mem_map.mp member
    rfl

theorem drop_active (j : Nat) (inside : j ≤ output.length) :
    (active prior output text).drop (prior.length + j) =
      (output.drop j).map .produced ++ outputs output text := by
  rw [active, List.drop_append, List.drop_eq_nil_of_le (Nat.le_add_right ..), Nat.add_sub_cancel_left,
    List.nil_append, List.drop_append_of_le_length (by rwa [List.length_map]), List.map_drop]

theorem shownIds_after {j : Nat} (inside : j < output.length) :
    shownIds ((active prior output text).drop (prior.length + j + 1)) = callIds output := by
  rw [Nat.add_assoc, drop_active _ _ _ inside, shownIds, List.filterMap_append, ← shownIds, ← shownIds,
    shownIds_produced, shownIds_outputs, List.nil_append]

theorem crossingCalls_eq (items : List InputItem) (index : Nat) :
    NativeLineage.crossingCalls items index = (List.range index).filter fun (i : Nat) =>
      match items[i]? with
      | some (.produced (.functionCall call)) => decide (call.callId ∈ shownIds (items.drop (index + 1)))
      | _ => false := rfl

theorem mem_crossing {i j : Nat} (inside : j < output.length) :
    i ∈ NativeLineage.crossingCalls (active prior output text) (prior.length + j) ↔
      i < prior.length + j ∧ ∃ call,
        (active prior output text)[i]? = some (.produced (.functionCall call)) ∧
          call.callId ∈ callIds output := by
  rw [crossingCalls_eq, List.mem_filter, List.mem_range, shownIds_after _ _ inside]
  refine and_congr_right fun _ => ?_
  split
  next call here =>
    rw [decide_eq_true_eq]
    constructor
    · exact fun member => ⟨call, here, member⟩
    · rintro ⟨other, there, member⟩
      cases here.symm.trans there
      exact member
  next other =>
    refine ⟨fun never => absurd never (by decide), ?_⟩
    rintro ⟨call, here, _⟩
    exact absurd here (other call)

theorem foldl_min_spec (start : Nat) (items : List Nat) :
    items.foldl min start ≤ start ∧ (∀ item ∈ items, items.foldl min start ≤ item) ∧
      (items.foldl min start = start ∨ items.foldl min start ∈ items) := by
  induction items generalizing start with
  | nil => exact ⟨le_rfl, nofun, .inl rfl⟩
  | cons item items ih =>
    obtain ⟨below, least, found⟩ := ih (min start item)
    rw [List.foldl_cons]
    refine ⟨below.trans (min_le_left ..), List.forall_mem_cons.mpr ⟨below.trans (min_le_right ..), least⟩, ?_⟩
    rcases found with same | member
    · rcases min_choice start item with first | second
      · exact .inl (same.trans first)
      · exact .inr (List.mem_cons.mpr (.inl (same.trans second)))
    · exact .inr (List.mem_cons_of_mem _ member)

/-- Where the input is kept from: an earlier call that the response repeats, the start of the response, or the
compaction item with no call of the response before it. -/
inductive Cut (prior : List InputItem) (output : List Produced) (j : Nat) : Nat → Prop
  | earlier {p : Nat} (known : reused prior output = some p) : Cut prior output j p
  | response (none : reused prior output = none) : Cut prior output j prior.length
  | compaction (none : reused prior output = none)
      (before : ∀ i < j, ∀ call, output[i]? ≠ some (.functionCall call)) :
      Cut prior output j (prior.length + j)

theorem countP_calls {test : Produced → Bool} (call : ∀ call, test (.functionCall call) = true)
    (compaction : ∀ id content, test (.compaction id content) = false)
    (other : ∀ content, test (.other content) = false) : output.countP test = (callIds output).length := by
  induction output with
  | nil => rfl
  | cons item output ih =>
    cases item with
    | functionCall own =>
      rw [List.countP_cons_of_pos (call own), ih]
      rfl
    | compaction id content =>
      rw [List.countP_cons_of_neg (by simp [compaction]), ih]
      rfl
    | other content =>
      rw [List.countP_cons_of_neg (by simp [other]), ih]
      rfl

theorem keepFrom_active {j : Nat} {id content : String}
    (here : output[j]? = some (.compaction id content)) :
    ∃ keep, NativeLineage.keepFrom (active prior output text) output (prior.length + j) = .ok keep ∧
      Cut prior output j keep := by
  have inside : j < output.length := (List.getElem?_eq_some_iff.mp here).1
  -- an earlier call that is repeated is a crossing one, and so is a call of the response before the item
  have repeated : ∀ p, reused prior output = some p →
      p ∈ NativeLineage.crossingCalls (active prior output text) (prior.length + j) := by
    intro p known
    obtain ⟨bound, test, -⟩ := List.findIdx?_eq_some_iff_getElem.mp known
    refine (mem_crossing _ _ inside).mpr ⟨by omega, ?_⟩
    split at test
    next call stored =>
      refine ⟨call, ?_, of_decide_eq_true test⟩
      rw [active, List.getElem?_append_left bound, List.getElem?_eq_getElem bound, stored]
    next => cases test
  unfold NativeLineage.keepFrom
  split
  next none =>
    refine ⟨_, rfl, .compaction ?_ fun i before call stored => ?_⟩
    · by_contra some
      obtain ⟨p, known⟩ := Option.ne_none_iff_exists'.mp some
      exact absurd (none ▸ repeated p known) List.not_mem_nil
    · have crosses : prior.length + i ∈
          NativeLineage.crossingCalls (active prior output text) (prior.length + j) := by
        refine (mem_crossing _ _ inside).mpr ⟨by omega, call, ?_, mem_callIds.mpr ⟨call, ?_, rfl⟩⟩
        · rw [active, List.getElem?_append_right (Nat.le_add_right ..), Nat.add_sub_cancel_left,
            List.getElem?_append_left (by rw [List.length_map]; omega), List.getElem?_map, stored,
            Option.map_some]
        · exact List.mem_of_getElem? stored
      exact absurd (none ▸ crosses) List.not_mem_nil
  next crossing =>
    have length : (active prior output text).length =
        prior.length + (output.length + (callIds output).length) := by
      simp only [active, List.length_append, List.length_map, length_outputs]
    have start : (active prior output text).length - output.length - (callIds output).length =
        prior.length := by omega
    have group : ((active prior output text).drop prior.length).take output.length =
        output.map .produced := by
      rw [active, List.drop_left]
      exact List.take_left' (List.length_map _)
    obtain ⟨below, least, found⟩ := foldl_min_spec prior.length
      (NativeLineage.crossingCalls (active prior output text) (prior.length + j))
    dsimp only
    rw [countP_calls (fun _ => rfl) (fun _ _ => rfl) fun _ => rfl, start, group,
      Outcome.require_then ⟨by omega, rfl⟩]
    refine ⟨_, rfl, ?_⟩
    -- a crossing call before the response repeats a call of it
    have repeats : ∀ m ∈ NativeLineage.crossingCalls (active prior output text) (prior.length + j),
        m < prior.length → ∃ call, prior[m]? = some (.produced (.functionCall call)) ∧
          call.callId ∈ callIds output := by
      intro m member bound
      obtain ⟨-, call, stored, listed⟩ := (mem_crossing _ _ inside).mp member
      rw [active, List.getElem?_append_left bound] at stored
      exact ⟨call, stored, listed⟩
    cases known : reused prior output with
    | some p =>
      have most := least p (repeated p known)
      obtain ⟨bound, -, first⟩ := List.findIdx?_eq_some_iff_getElem.mp known
      rcases found with same | member
      · omega
      · rcases Nat.lt_or_eq_of_le most with before | same
        · obtain ⟨call, stored, listed⟩ := repeats _ member (by omega)
          have absent := first _ before
          rw [(List.getElem?_eq_some_iff.mp stored).2] at absent
          simp [listed] at absent
        · exact same ▸ .earlier known
    | none =>
      rcases found with same | member
      · rw [same]
        exact .response known
      · rcases Nat.lt_or_eq_of_le below with before | same
        · obtain ⟨call, stored, listed⟩ := repeats _ member before
          have absent := List.findIdx?_eq_none_iff.mp known _ (List.mem_of_getElem? stored)
          simp [listed] at absent
        · rw [same]
          exact .response known

/-! ### What is kept -/

variable {prior : List InputItem} {text : Nat → Text}

theorem inputCalls_produced (items : List Produced) : inputCalls (items.map .produced) = callIds items := by
  induction items with
  | nil => rfl
  | cons item items ih => cases item <;> simp_all [inputCalls, callIds]

theorem paired_of_append {front back : List InputItem} (paired : Paired (front ++ back)) : Paired front := by
  intro i shown here
  have inside := (List.getElem?_eq_some_iff.mp here).1
  have known := paired i shown (by rw [List.getElem?_append_left inside, here])
  rwa [List.take_append_of_le_length (Nat.le_of_lt inside)] at known

/-- Outputs may follow whose calls all stand in front. -/
theorem paired_append {front back : List InputItem} (paired : Paired front)
    (known : ∀ shown, .toolOutput shown ∈ back → shown.callId ∈ inputCalls front) : Paired (front ++ back) := by
  intro i shown here
  rcases Nat.lt_or_ge i front.length with inside | beyond
  · rw [List.getElem?_append_left inside] at here
    rw [List.take_append_of_le_length (Nat.le_of_lt inside)]
    exact paired i shown here
  · rw [List.getElem?_append_right beyond] at here
    rw [List.take_append, List.take_of_length_le beyond, inputCalls, List.filterMap_append]
    exact List.mem_append_left _ (known shown (List.mem_of_getElem? here))

/-- The outputs of a response follow its calls. -/
theorem paired_response {front : List InputItem} (paired : Paired front) {items : List Produced}
    (calls : ∀ id ∈ callIds output, id ∈ callIds items) :
    Paired (front ++ (items.map .produced ++ outputs output text)) := by
  rw [← List.append_assoc]
  refine paired_append (paired_append paired fun shown member => ?_) fun shown member => ?_
  · obtain ⟨_, _, same⟩ := List.mem_map.mp member
    cases same
  · obtain ⟨other, same, listed⟩ := mem_outputs member
    cases same
    rw [inputCalls, List.filterMap_append, ← inputCalls, ← inputCalls, inputCalls_produced]
    exact List.mem_append_right _ (calls _ listed)

theorem Paired.nil : Paired [] := fun _ _ here => by simp at here

/-- What stands from the earlier call on pairs up to the response. -/
def Clear (prior : List InputItem) (output : List Produced) : Prop :=
  ∀ p, reused prior output = some p → Paired (prior.drop p)

/-- What is archived and kept at a pruning. -/
structure Complete (pruning : Pruning) : Prop where
  /-- Nothing is lost. -/
  whole : pruning.archived ++ pruning.kept = active pruning.prior pruning.output pruning.text
  calls : ∀ call, .functionCall call ∈ pruning.output → .produced (.functionCall call) ∈ pruning.kept
  latest : ∀ item, (pruning.output.filter isCompaction).getLast? = some item → .produced item ∈ pruning.kept
  group : (∃ item, (pruning.output.filter isCompaction).getLast? = some item ∧
      pruning.kept.head? = some (.produced item)) ∨
    ∃ more, pruning.kept = more ++ (pruning.output.map .produced ++ outputs pruning.output pruning.text)

theorem kept_complete (text : Nat → Text) {j keep : Nat} {item : Produced} (cut : Cut prior output j keep)
    (last : (output.filter isCompaction).getLast? = some item) (here : output[j]? = some item) :
    Complete ⟨prior, output, text, (active prior output text).take keep,
      (active prior output text).drop keep⟩ ∧
      (Paired ((active prior output text).drop keep) ↔ Clear prior output) := by
  have inside := (List.getElem?_eq_some_iff.mp here).1
  have member : ∀ call, Produced.functionCall call ∈ output →
      InputItem.produced (.functionCall call) ∈ output.map InputItem.produced :=
    fun call listed => List.mem_map_of_mem listed
  have latest : InputItem.produced item ∈ output.map InputItem.produced :=
    List.mem_map_of_mem (List.mem_of_getElem? here)
  cases cut with
  | earlier known =>
    have bound := (List.findIdx?_eq_some_iff_getElem.mp known).1
    have kept : (active prior output text).drop keep =
        prior.drop keep ++ (output.map .produced ++ outputs output text) := by
      rw [active, List.drop_append_of_le_length (Nat.le_of_lt bound)]
    refine ⟨⟨List.take_append_drop _ _, fun call listed => ?_, fun other same => ?_, .inr ⟨_, kept⟩⟩, ?_⟩
    · rw [kept]
      exact List.mem_append_right _ (List.mem_append_left _ (member call listed))
    · cases last.symm.trans same
      rw [kept]
      exact List.mem_append_right _ (List.mem_append_left _ latest)
    · rw [kept]
      constructor
      · intro paired p same
        cases known.symm.trans same
        exact paired_of_append paired
      · exact fun clear => paired_response (clear keep known) fun _ => id
  | response none =>
    have kept : (active prior output text).drop prior.length =
        output.map .produced ++ outputs output text := List.drop_left
    refine ⟨⟨List.take_append_drop _ _, fun call listed => ?_, fun other same => ?_,
      .inr ⟨[], kept⟩⟩, ?_⟩
    · rw [kept]
      exact List.mem_append_left _ (member call listed)
    · cases last.symm.trans same
      rw [kept]
      exact List.mem_append_left _ latest
    · rw [kept]
      exact iff_of_true (paired_response Paired.nil fun _ => id) fun p same => absurd same (by simp [none])
  | compaction none before =>
    have kept := drop_active prior text j (Nat.le_of_lt inside)
    have later : ∀ call, .functionCall call ∈ output → .functionCall call ∈ output.drop j := by
      intro call listed
      obtain ⟨i, bound, stored⟩ := List.mem_iff_getElem.mp listed
      have found : output[i]? = some (.functionCall call) := List.getElem?_eq_some_iff.mpr ⟨bound, stored⟩
      have after : j ≤ i := by
        by_contra early
        exact before i (Nat.lt_of_not_le early) call found
      refine List.mem_of_getElem? (i := i - j) ?_
      rw [List.getElem?_drop, Nat.add_sub_cancel' after, found]
    have head : (output.drop j).head? = some item := by rw [List.head?_drop, here]
    refine ⟨⟨List.take_append_drop _ _, fun call listed => ?_, fun other same => ?_,
      .inl ⟨item, last, ?_⟩⟩, ?_⟩
    · rw [kept]
      exact List.mem_append_left _ (List.mem_map_of_mem (later call listed))
    · cases last.symm.trans same
      rw [kept]
      exact List.mem_append_left _ (List.mem_map_of_mem (List.mem_of_mem_head? head))
    · rw [kept, List.head?_append, List.head?_map, head]
      rfl
    · rw [kept]
      refine iff_of_true (paired_response Paired.nil fun id listed => ?_)
        fun p same => absurd same (by simp [none])
      obtain ⟨call, stored, rfl⟩ := mem_callIds.mp listed
      exact mem_callIds.mpr ⟨call, later call stored, rfl⟩

/-! ### Turns -/

/-- The anchor that a pruning needs. -/
def ValidAnchor (anchor : Option String) : Prop :=
  ∃ text, anchor.filter (fun text => !blank text && text.length ≤ 100000) = some text

/-- A compaction prunes the input of a turn at a cut, unless there is no anchor. -/
theorem advance_called (text : Nat → Text) (lineage : NativeLineage) (results : ToolResults) (anchor : Option String)
    (compacts : output.any isCompaction = true) :
    (∃ keep valid id item j, (called lineage output text results).advanceActiveInput output anchor =
        .ok ((called lineage output text results).pruned keep valid id) ∧
      Cut lineage.state.input output j keep ∧ (output.filter isCompaction).getLast? = some item ∧
        output[j]? = some item) ∨
      (∃ error, (called lineage output text results).advanceActiveInput output anchor = .error error) ∧
        ¬ ValidAnchor anchor := by
  unfold NativeLineage.advanceActiveInput
  dsimp only
  split
  next id content found =>
    have last : (output.filter isCompaction).getLast? = some (.compaction id content) := found
    have listed := List.mem_of_mem_filter (List.mem_of_getLast? last)
    obtain ⟨j, index, here⟩ := lastIndex_active lineage.state.input text listed
    obtain ⟨keep, kept, cut⟩ := keepFrom_active lineage.state.input text here
    have index : NativeLineage.lastIndex (called lineage output text results).state.input
        (.produced (.compaction id content)) = some (lineage.state.input.length + j) := index
    have kept : NativeLineage.keepFrom (called lineage output text results).state.input output
        (lineage.state.input.length + j) = .ok keep := kept
    rw [Outcome.orThrow_then index, kept]
    cases valid : anchor.filter fun text => !blank text && text.length ≤ 100000 with
    | some anchorText => exact .inl ⟨keep, anchorText, id, _, j, rfl, cut, last, here⟩
    | none => exact .inr ⟨⟨_, rfl⟩, fun ⟨_, known⟩ => absurd (valid.symm.trans known) nofun⟩
  next other =>
    -- some compaction item is the last one
    obtain ⟨item, listed, compaction⟩ := List.any_eq_true.mp compacts
    have member : item ∈ output.filter isCompaction := List.mem_filter.mpr ⟨listed, compaction⟩
    cases found : (output.filter isCompaction).getLast? with
    | none => exact absurd (List.getLast?_eq_none_iff.mp found ▸ member) List.not_mem_nil
    | some last =>
      have kind := (List.mem_filter.mp (List.mem_of_getLast? found)).2
      cases last with
      | compaction id content => exact absurd found (other id content)
      | _ => cases kind

theorem advance_plain (lineage : NativeLineage) {anchor : Option String}
    (plain : output.any isCompaction = false) : lineage.advanceActiveInput output anchor = .ok lineage := by
  unfold NativeLineage.advanceActiveInput
  dsimp only
  split
  next id content last =>
    have member := List.mem_of_mem_filter (List.mem_of_getLast? last)
    exact absurd (List.any_eq_false.mp plain _ member) (by simp [isCompaction])
  next => rfl

/-! ### Runs -/

theorem inputCalls_append (front back : List InputItem) :
    inputCalls (front ++ back) = inputCalls front ++ inputCalls back := List.filterMap_append

/-- Shortening an output keeps its id. -/
theorem paired_elided {input : List InputItem} (paired : Paired input) (text : ToolOutput → Text) :
    Paired (input.map (elided text)) := by
  have calls : ∀ items : List InputItem, inputCalls (items.map (elided text)) = inputCalls items := by
    intro items
    rw [inputCalls, List.filterMap_map]
    refine List.filterMap_congr fun item _ => ?_
    cases item <;> rfl
  intro i shown here
  rw [List.getElem?_map] at here
  obtain ⟨item, stored, same⟩ := Option.map_eq_some_iff.mp here
  rw [← List.map_take, calls]
  cases item with
  | toolOutput old =>
    cases same
    exact paired i old stored
  | user content => cases same
  | produced item => cases same

theorem paired_user {input : List InputItem} (paired : Paired input) (content : Json) :
    Paired (input ++ [.user content]) :=
  paired_append paired fun _ member => by cases List.mem_singleton.mp member

/-- Every pruning of the history is complete and pairs exactly when it is clear; as long as all of them are,
the input pairs. -/
structure WellPruned (loop : Loop) : Prop where
  prunings : ∀ pruning ∈ loop.prunings, Complete pruning ∧
    (Paired pruning.kept ↔ Clear pruning.prior pruning.output)
  paired : (∀ pruning ∈ loop.prunings, Clear pruning.prior pruning.output) →
    Paired loop.lineage.state.input

theorem wellPruned_turn {loop : Loop} (well : WellPruned loop) (output : List Produced) (text : Nat → Text)
    (results : ToolResults) (anchor : Option String) :
    WellPruned (loop.turn output text results anchor) := by
  have grown (clear : ∀ pruning ∈ loop.prunings, Clear pruning.prior pruning.output) :
      Paired (active loop.lineage.state.input output text) :=
    paired_response (well.paired clear) fun _ => id
  unfold Loop.turn
  dsimp only
  cases compacts : output.any isCompaction with
  | false =>
    rw [advance_plain _ compacts]
    exact ⟨well.prunings, grown⟩
  | true =>
    rcases advance_called text loop.lineage results
      (anchor <|> (called loop.lineage output text results).state.initialAnchor) compacts with
      ⟨keep, valid, id, item, j, done, cut, last, here⟩ | ⟨⟨error, refused⟩, -⟩
    · rw [done]
      obtain ⟨complete, pairs⟩ := kept_complete text cut last here
      have archived : (((called loop.lineage output text results).pruned keep valid id).store.getLast?.map
          Archive.inputPrefix).getD [] = (active loop.lineage.state.input output text).take keep := by
        simp [NativeLineage.pruned, called]
      have kept : ((called loop.lineage output text results).pruned keep valid id).state.input.dropLast =
          (active loop.lineage.state.input output text).drop keep := by
        simp [NativeLineage.pruned, called]
      dsimp only
      rw [if_pos rfl, archived, kept]
      constructor
      · intro pruning member
        rcases List.mem_append.mp member with old | new
        · exact well.prunings pruning old
        · obtain rfl := List.mem_singleton.mp new
          exact ⟨complete, pairs⟩
      · intro clear
        exact paired_user (pairs.mpr (clear _ (List.mem_append_right _ (List.mem_singleton_self _)))) _
    · rw [refused]
      exact ⟨well.prunings, grown⟩

theorem wellPruned_step {loop : Loop} (well : WellPruned loop) (label : LoopStep) :
    WellPruned (loop.step label) := by
  unfold Loop.step
  split
  next =>
    cases label with
    | inform content => exact ⟨well.prunings, fun clear => paired_user (well.paired clear) content⟩
    | elide text => exact ⟨well.prunings, fun clear => paired_elided (well.paired clear) text⟩
    | turn output text results anchor => exact wellPruned_turn well output text results anchor
    | handoff session prompt => exact ⟨well.prunings, fun clear => paired_user (well.paired clear) _⟩
    | reload => exact ⟨well.prunings, well.paired⟩
  next => exact well

/-- **A pruning loses nothing, and keeps the outputs with their calls exactly when no earlier call that the
response repeats leaves an output behind it.** -/
theorem compaction_pruning (session : SessionId) (budget : ContextBudget) (prompt : String)
    (labels : List LoopStep) :
    let loop := Transition.run Loop.step ⟨.start session budget prompt, true, []⟩ labels
    (∀ pruning ∈ loop.prunings, Complete pruning ∧
      (Paired pruning.kept ↔ Clear pruning.prior pruning.output)) ∧
      ((∀ pruning ∈ loop.prunings, Clear pruning.prior pruning.output) →
        Paired loop.lineage.state.input) := by
  have well : WellPruned (Transition.run Loop.step ⟨.start session budget prompt, true, []⟩ labels) :=
    Transition.run_always WellPruned labels ⟨nofun, fun _ => Paired.nil⟩
      fun _ label well => wellPruned_step well label
  exact ⟨well.prunings, well.paired⟩

/-- With an anchor every turn of the loop settles. -/
theorem turn_settles {loop : Loop} (settled : loop.settled = true) (output : List Produced)
    (text : Nat → Text) (results : ToolResults) {anchor : Option String}
    (valid : ValidAnchor (anchor <|> loop.lineage.state.initialAnchor)) :
    (loop.turn output text results anchor).settled = true := by
  unfold Loop.turn
  dsimp only
  cases compacts : output.any isCompaction with
  | false =>
    rw [advance_plain _ compacts]
    exact settled
  | true =>
    rcases advance_called text loop.lineage results
      (anchor <|> (called loop.lineage output text results).state.initialAnchor) compacts with
      ⟨keep, text, id, item, j, done, -⟩ | ⟨-, invalid⟩
    · rw [done]
      exact settled
    · exact absurd valid invalid

namespace Scenario

def observeCall (callId : String) : Produced := .functionCall ⟨callId, "observe", "{}"⟩

def compactionItem : Produced := .compaction "compact-one" "opaque"

def nativeLoop (labels : List LoopStep) : Loop :=
  Transition.run Loop.step ⟨.start PhysHarness.Scenario.nativeSession PhysHarness.Scenario.defaultBudget "prompt", true, []⟩ labels

/-- A fresh call after the compaction item. -/
def freshCall : List LoopStep :=
  [.turn [observeCall "a"] (fun _ => []) [] none, .turn [compactionItem, observeCall "b"] (fun _ => []) [] none]

/-- The second of two calls is repeated after the compaction item. -/
def repeatedCall : List LoopStep :=
  [.turn [observeCall "a", observeCall "b"] (fun _ => []) [] none,
    .turn [compactionItem, observeCall "b"] (fun _ => []) [] none]

theorem fresh_call_pairs : (nativeLoop freshCall).prunings.length = 1 ∧
    Paired (nativeLoop freshCall).lineage.state.input := by
  have fresh : (nativeLoop freshCall).prunings.all (fun pruning =>
      (reused pruning.prior pruning.output).isNone) = true := by decide
  refine ⟨rfl, (compaction_pruning { text := "session" } {} "prompt" freshCall).2 ?_⟩
  intro pruning member p known
  have none := List.all_eq_true.mp fresh pruning member
  rw [known] at none
  cases none

/-- The output of the first call is kept without its call. -/
theorem repeated_call_orphans :
    ¬ ∀ (session : SessionId) (budget : ContextBudget) (prompt : String) (labels : List LoopStep),
      ∀ pruning ∈ (Transition.run Loop.step ⟨.start session budget prompt, true, []⟩ labels).prunings,
        Complete pruning ∧ Paired pruning.kept := by
  intro pairs
  have orphan := (pairs { text := "session" } {} "prompt" repeatedCall _ (List.mem_singleton_self _)).2 1
    ⟨"a", []⟩ rfl
  exact absurd orphan (by decide)

end Scenario

end PhysHarness.Compaction
