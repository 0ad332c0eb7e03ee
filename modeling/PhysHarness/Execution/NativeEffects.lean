import PhysHarness.Execution.NativePhases

/-!
# Effects of a native session happen at most once

A generation and a tool call are named by the saved checkpoint before they happen. A session that goes on from
a checkpoint that names nothing repeats none of them, and an effect of unknown outcome is the last one.

## Main result

`effects_once`: for every session, every sequence of calls, and whatever the outside does, where each call may
end anywhere.
-/
namespace PhysHarness.Native

open Effect Intents

variable {outside : Outside}

/-! ### Tool calls -/

/-- A key that no search finds is not held. -/
theorem not_held_of_find {lineage : NativeLineage} (loads : lineage.Loads) {key : ToolKey}
    (unknown : lineage.findToolResult (fun results => Dict.get results key) = .ok none) (entry : Entry) :
    ¬ lineage.Held key entry := by
  rintro ⟨results, reached, member⟩
  rw [NativeLineage.findToolResult_ok loads, Except.ok.injEq, List.findSome?_eq_none_iff] at unknown
  have absent := unknown results reached
  rw [Dict.get, Option.map_eq_none_iff, List.find?_eq_none] at absent
  exact absent (key, entry) member (decide_eq_true rfl)

/-- A key without a committed result has not been dispatched. -/
theorem Calm.fresh {world : World} (calm : Calm world) {key : ToolKey}
    (unknown : (world.memory.lineage world.store).findToolResult (fun results => Dict.get results key) =
      .ok none) : key ∉ dispatchedKeys world.history := by
  intro used
  obtain ⟨happened, member, own⟩ := List.mem_filterMap.mp used
  have closed := calm.closed happened member
  cases happened with
  | generation number fate => cases own
  | dispatched other identity result =>
    obtain rfl := Option.some.inj own
    cases result with
    | none => exact closed
    | some result =>
      obtain ⟨entry, held, -⟩ := calm.accounts.kept _ _ _ member
      exact not_held_of_find calm.1.loads unknown entry held

/-- The mark of a call that was never made is saved. -/
def Ready (key : ToolKey) (world : World) : Prop :=
  Marked (.tool key) world ∧ world.session.id = key.session ∧ key ∉ dispatchedKeys world.history

/-- The call is in flight. -/
def Called (key : ToolKey) (identity : Identity) (world : World) : Prop :=
  Kept world ∧ Named (.tool key) world ∧ world.session.id = key.session ∧
    ∃ before, world.history = before ++ [.dispatched key identity none] ∧
      (∀ effect ∈ before, effect.closed) ∧ Accounts world.store world.memory before

theorem announce_ensures {P : World → Prop} {raises : Failure → World → Prop}
    (steady : ∀ world awaits unannounced, P world → P { world with awaits, unannounced })
    (fails : ∀ failure world, P world → raises failure world) (waiting : List Announcement) :
    Ensures P (announce outside waiting) (fun _ => P) raises := by
  have emits : Ensures P (emit outside) (fun _ => P) raises :=
    ask_ensures (fun world awaits met => steady world awaits world.unannounced met) fails
  induction waiting with
  | nil => exact pure_ensures () fun _ => id
  | cons next rest ih =>
    rw [announce]
    apply bind_ensures (fun _ => P)
    · exact modify_ensures _ fun world met => steady world world.awaits rest met
    intro _
    apply bind_ensures (fun _ => P) emits
    intro _
    apply bind_ensures (fun _ => P)
    · unfold emitWhen
      split
      · exact emits
      · exact pure_ensures () fun _ => id
    · exact fun _ => ih

theorem emitCompleted_ensures {P : World → Prop} {raises : Failure → World → Prop}
    (steady : ∀ world awaits unannounced, P world → P { world with awaits, unannounced })
    (fails : ∀ failure world, P world → raises failure world) :
    Ensures P (emitCompleted outside) (fun _ => P) raises := by
  apply read_ensures
  intro read
  apply ensures_imp (announce_ensures steady fails read.unannounced) (fun _ met => met.2)
  · exact fun _ _ => id
  · exact fun _ _ => id

theorem begins_called (key : ToolKey) (identity : Identity) {raises : Failure → World → Prop} :
    Ensures (Ready key) (begins (.dispatched key identity none)) (fun _ => Called key identity) raises := by
  apply modify_ensures
  rintro world ⟨⟨kept, pending, named, closed, accounts⟩, own, fresh⟩
  refine ⟨?_, named, own, world.history, rfl, closed, accounts⟩
  constructor
  · exact Sound.last closed (agrees_of_mark pending) named
  · rw [dispatchedKeys, List.filterMap_append]
    apply List.nodup_append.mpr
    refine ⟨kept.once, List.nodup_singleton key, ?_⟩
    rintro _ used other last rfl
    rw [List.mem_singleton.mp last] at used
    exact fresh used
  · exact kept.loads
  · exact kept.savedLoads

theorem Accounts.dispatched {store : List Archive} {saved changed : Saved} {before : List Happened}
    {key : ToolKey} {identity : Identity} {result : Fields} {entry : Entry}
    (accounts : Accounts store saved before) (fresh : key ∉ dispatchedKeys before)
    (session : changed.session = saved.session)
    (results : changed.state.context.toolResults = Dict.set saved.state.context.toolResults key entry)
    (archives : changed.state.context.archives = saved.state.context.archives)
    (archiveRefs : changed.state.context.archiveRefs = saved.state.context.archiveRefs)
    (answers : Answers entry identity result) :
    Accounts store changed (before ++ [.dispatched key identity (some result)]) := by
  have same : usages (before ++ [.dispatched key identity (some result)]) = usages before := by
    rw [usages, List.filterMap_append, List.filterMap_cons, List.filterMap_nil, List.append_nil]
    rfl
  have held : ∀ {other entry}, (changed.lineage store).Held other entry ↔
      (other, entry) ∈ Dict.set saved.state.context.toolResults key _ ∨ _ :=
    held_of_same (congrArg NativeSession.id session) results archives archiveRefs
  constructor
  · rw [session, same]
    exact accounts.turns
  · rw [session, same]
    exact accounts.inputTokens
  · rw [session, same]
    exact accounts.outputTokens
  · intro other identity' result' member
    rcases List.mem_append.mp member with earlier | last
    · -- an earlier call has another key, so its entry stays
      obtain ⟨old, there, answered⟩ := accounts.kept other identity' result' earlier
      refine ⟨old, held.mpr ?_, answered⟩
      rcases NativeLineage.held_iff.mp there with active | archived
      · refine .inl (Dict.mem_set.mpr (.inr ⟨active, ?_⟩))
        rintro rfl
        exact fresh (List.mem_filterMap.mpr ⟨_, earlier, rfl⟩)
      · exact .inr archived
    · obtain ⟨rfl, rfl, returned⟩ := Happened.dispatched.inj (List.mem_singleton.mp last)
      obtain rfl := Option.some.inj returned
      exact ⟨entry, held.mpr (.inl (Dict.mem_set.mpr (.inl rfl))), answers⟩

/-- The result of the call is recorded, and nothing is pending. -/
theorem recorded_calm {world : World} {call : FunctionCall} {identity : Identity}
    (called : Called ⟨world.session.id, call.callId⟩ identity world) (result : Fields)
    (signal : Option NativeLineage.Signal) : Calm (world.recorded call identity result signal) := by
  obtain ⟨kept, named, -, before, split, closed, accounts⟩ := called
  have shape : (world.recorded call identity result signal).history =
      before ++ [.dispatched ⟨world.session.id, call.callId⟩ identity (some result)] := by
    show world.history.dropLast ++ _ = _
    rw [split, List.dropLast_concat]
  refine ⟨?_, rfl⟩
  rw [Kept, shape]
  rw [Kept, split] at kept
  have fresh : (⟨world.session.id, call.callId⟩ : ToolKey) ∉ dispatchedKeys before := by
    have once := kept.once
    rw [dispatchedKeys, List.filterMap_append] at once
    intro used
    exact (List.nodup_append.mp once).2.2 _ used _ (List.mem_singleton.mpr rfl) rfl
  apply kept.closes closed
  · exact trivial
  · exact named
  · rfl
  · apply accounts.dispatched fresh
    · rfl
    · rfl
    · rfl
    · rfl
    · exact ⟨rfl, rfl⟩
  · exact kept.loads

theorem dispatch_calm (call : FunctionCall) (identity : Identity) :
    Ensures (fun world => Calm world ∧ ⟨world.session.id, call.callId⟩ ∉ dispatchedKeys world.history)
      (dispatch outside call identity) (fun _ => Calm) Fails := by
  unfold dispatch
  apply read_ensures
  intro read
  dsimp only
  let key : ToolKey := ⟨read.session.id, call.callId⟩
  let M (saved : Saved) (store : List Archive) (history : List Happened) : Prop :=
    saved.state.pendingOperation = some (.tool key) ∧ (∀ effect ∈ history, effect.closed) ∧
      Accounts store saved history ∧ saved.session.id = key.session ∧ key ∉ dispatchedKeys history
  apply bind_ensures fun _ world => Kept world ∧ M world.memory world.store world.history
  · rintro world ⟨rfl, calm, fresh⟩
    have marks : Ensures Calm (setPending (some (.tool key))) _ Fails := marks_ensures (.tool key)
    obtain ⟨kept, pending, closed, accounts⟩ := marks world calm
    exact ⟨kept, pending, closed, accounts, rfl, fresh⟩
  intro _
  apply bind_ensures fun _ => Ready key
  · apply ensures_imp (save_ensures (M := M)) fun _ => id
    · rintro _ world ⟨⟨kept, pending, closed, accounts, own, fresh⟩, saved⟩
      refine ⟨⟨kept, pending, fun other member => ?_, closed, accounts⟩, own, fresh⟩
      rw [saved, Option.mem_some] at member
      rw [← member]
      exact pending
    · exact fun _ _ failed => failed.1
  intro _
  apply bind_ensures fun _ => Ready key
  · have announced : Ensures (Ready key) (emitCompleted outside) (fun _ => Ready key) (fun _ => Ready key) :=
      emitCompleted_ensures (fun _ _ _ ready => ready) fun _ _ => id
    apply handleAll_ensures announced
    · exact fun _ ready => ready.1.1
    · intro failure
      apply bind_ensures (fun _ => Calm)
      · exact ensures_imp clears_calm (fun _ ready => ready.1) (fun _ _ => id) fun _ _ => id
      · exact fun _ => throw_ensures _ fun _ calm => calm.1
  intro _
  apply bind_ensures (fun _ => Called key identity) (begins_called key identity)
  intro _
  have waits : ∀ {α : Type} {replies : Nat → Reply α},
      Ensures (Called key identity) (ask replies) (fun _ => Called key identity) Fails :=
    ask_ensures (fun _ _ called => called) fun _ _ called => called.1
  apply bind_ensures (fun _ => Called key identity) waits
  intro result
  apply bind_ensures (fun _ => Called key identity) waits
  intro signal
  apply modify_ensures
  intro world called
  apply recorded_calm
  have own : world.session.id = read.session.id := called.2.2.1
  rw [own]
  exact called

/-- An answered call leaves nothing pending. -/
theorem answered_calm {world : World} {state : NativeState} (calm : Calm world) (call : FunctionCall)
    (signal : Bool) (same : Same world.memory ⟨world.session, { state with pendingOperation := none }⟩) :
    Calm ({ world with state }.answered call signal) :=
  ⟨calm.1.same same, rfl⟩

theorem replay_calm (call : FunctionCall) (previous : Entry) :
    Ensures Calm (replay call previous) (fun _ => Calm) Fails := by
  apply modify_ensures
  intro world calm
  apply answered_calm calm
  exact { pending := calm.2.symm }

/-- A recall changes no results and no archives. -/
theorem runRecall_same {lineage after : NativeLineage} {call : FunctionCall} {arguments : Fields}
    {signal : Option NativeLineage.Signal} (done : lineage.runRecall call arguments signal = .ok after) :
    after.state.toolResults = lineage.state.toolResults ∧ after.state.archives = lineage.state.archives ∧
      after.state.archiveRefs = lineage.state.archiveRefs := by
  unfold NativeLineage.runRecall at done
  obtain ⟨recalled, -, done⟩ := Outcome.bind_ok.mp done
  obtain rfl := Outcome.pure_ok.mp done
  cases recalled with
  | error code message => exact ⟨rfl, rfl, rfl⟩
  | page callId offset next total text => exact ⟨rfl, rfl, rfl⟩

theorem runRecall_calm (call : FunctionCall) (arguments : Fields) :
    Ensures Calm (runRecall outside call arguments) (fun _ => Calm) Fails := by
  unfold runRecall
  apply calm_bind ask_calm
  intro _
  apply calm_bind ask_calm
  intro signal
  apply read_ensures
  intro read
  apply bind_ensures
  · exact lifted_ensures fun _ _ met => met.2.1
  intro lineage
  apply modify_ensures
  rintro world ⟨done, rfl, calm⟩
  obtain ⟨results, archives, refs⟩ := runRecall_same done
  apply answered_calm calm
  exact { pending := calm.2.symm, toolResults := results, archives := archives, archiveRefs := refs }

/-- A precondition may be forgotten. -/
theorem given_ensures_right {α : Type} {P Q : World → Prop} {program : NativeProgram α}
    {returns : α → World → Prop} {raises : Failure → World → Prop} (spec : Ensures Q program returns raises) :
    Ensures (fun world => P world ∧ Q world) program returns raises :=
  fun world met => spec world met.2

theorem runCall_calm [FloatReader] (call : FunctionCall) :
    Ensures Calm (runCall outside call) (fun _ => Calm) Fails := by
  unfold runCall
  split
  next arguments parsed =>
    dsimp only
    apply calm_read
    intro read
    split
    · exact runRecall_calm call arguments
    apply calm_bind ask_calm
    intro _
    apply read_ensures
    intro world
    apply bind_ensures
    · exact lifted_ensures fun _ _ met => met.2.1
    intro found
    cases found with
    | some previous =>
      dsimp only
      apply given_ensures
      intro _
      apply given_ensures_right
      split
      · exact replay_calm call previous
      · exact raise_calm
    | none =>
      apply ensures_imp (dispatch_calm call _)
      · rintro _ ⟨unknown, rfl, calm⟩
        exact ⟨calm, calm.fresh unknown⟩
      · exact fun _ _ => id
      · exact fun _ _ => id
  next => exact raise_calm

/-! ### Compactions and loads -/

theorem sortedFields_sortedFields (fields : Fields) :
    sortedFields (sortedFields fields) = sortedFields fields :=
  Json.obj.inj (Json.sortKeys_sortKeys (.obj fields))

theorem Answers.reloaded {entry : Entry} {identity : Identity} {result : Fields}
    (answers : Answers entry identity result) : Answers entry.reloaded identity result where
  identity := answers.identity
  result := (sortedFields_sortedFields entry.result).trans answers.result

/-- What was held is held, perhaps elsewhere and with its fields sorted. -/
def Carries (before after : NativeLineage) : Prop :=
  ∀ key entry, before.Held key entry → after.Held key entry ∨ after.Held key entry.reloaded

theorem Accounts.carried {store grown : List Archive} {saved changed : Saved} {history : List Happened}
    (accounts : Accounts store saved history) (session : changed.session = saved.session)
    (carries : Carries (saved.lineage store) (changed.lineage grown)) : Accounts grown changed history := by
  constructor
  · rw [session]
    exact accounts.turns
  · rw [session]
    exact accounts.inputTokens
  · rw [session]
    exact accounts.outputTokens
  · intro key identity result member
    obtain ⟨entry, held, answers⟩ := accounts.kept key identity result member
    rcases carries key entry held with there | sorted
    · exact ⟨entry, there, answers⟩
    · exact ⟨entry.reloaded, sorted, answers.reloaded⟩

theorem carries_reload (saved : Saved) (store : List Archive) :
    Carries (saved.lineage store) (saved.loaded.lineage store) := by
  intro key entry held
  rcases NativeLineage.held_iff.mp held with active | archived
  · exact .inr (NativeLineage.held_active (NativeLineage.mem_reloaded.mpr ⟨entry, active, rfl⟩))
  · exact .inl (NativeLineage.held_iff.mpr (.inr archived))

theorem carries_pruned (lineage : NativeLineage) (start : Nat) (anchor id : String) :
    Carries lineage (lineage.pruned start anchor id) := by
  intro key entry held
  rcases NativeLineage.held_iff.mp held with active | ⟨ref, member, results, loaded, there⟩
  · apply Or.inr
    apply NativeLineage.held_iff.mpr
    refine .inr ⟨_, NativeLineage.mem_refs_pruned.mpr (.inl rfl), _,
      NativeLineage.loadArchive_new lineage start anchor id, ?_⟩
    exact NativeLineage.mem_reloaded.mpr ⟨entry, active, rfl⟩
  · apply Or.inl
    apply NativeLineage.held_iff.mpr
    exact .inr ⟨ref, NativeLineage.mem_refs_pruned.mpr (.inr member), results,
      NativeLineage.loadArchive_pruned loaded, there⟩

/-- An archive of a store is one of the longer store. -/
theorem loadArchive_append {saved : Saved} {store : List Archive} {ref : SessionId × Nat}
    {results : ToolResults} (loaded : (saved.lineage store).loadArchive ref = .ok results) (more : List Archive) :
    (saved.lineage (store ++ more)).loadArchive ref = .ok results := by
  unfold NativeLineage.loadArchive at loaded ⊢
  simp only [Saved.lineage] at loaded ⊢
  cases found : store[ref.2]? with
  | none =>
    rw [found] at loaded
    cases loaded
  | some archive =>
    have inside := (List.getElem?_eq_some_iff.mp found).1
    rw [List.getElem?_append_left inside, found]
    rw [found] at loaded
    exact loaded

theorem carries_append (saved : Saved) (store more : List Archive) :
    Carries (saved.lineage store) (saved.lineage (store ++ more)) := by
  intro key entry held
  apply Or.inl
  rcases NativeLineage.held_iff.mp held with active | ⟨ref, member, results, loaded, there⟩
  · exact NativeLineage.held_active active
  · exact NativeLineage.held_iff.mpr (.inr ⟨ref, member, results, loadArchive_append loaded more, there⟩)

theorem loads_append {saved : Saved} {store : List Archive} (loads : (saved.lineage store).Loads)
    (more : List Archive) : (saved.lineage (store ++ more)).Loads := by
  intro ref member
  obtain ⟨results, loaded⟩ := loads ref member
  exact ⟨results, loadArchive_append loaded more⟩

/-- The store grows. -/
theorem Right.grow {memory : Saved} {checkpoint : Option Saved} {store : List Archive}
    {history : List Happened} (right : Right memory checkpoint store history) (more : List Archive) :
    Right memory checkpoint (store ++ more) history where
  sound := by
    apply right.sound.imp
    · rfl
    · rfl
    · rfl
    · intro saved accounts
      exact Accounts.carried accounts rfl (carries_append saved store more)
  once := right.once
  loads := loads_append right.loads more
  savedLoads saved member := loads_append (right.savedLoads saved member) more

/-- The memory is loaded from the checkpoint. -/
theorem Right.load {memory saved : Saved} {checkpoint : Option Saved} {store : List Archive}
    {history : List Happened} (right : Right memory checkpoint store history) (member : saved ∈ checkpoint) :
    Right saved.loaded checkpoint store history where
  sound := by
    have loaded := right.sound.load member
    apply loaded.replace
    constructor
    · intro unmarked
      exact Accounts.carried (loaded.memory.accounted unmarked) rfl (carries_reload saved store)
    · exact loaded.memory.named
  once := right.once
  loads := right.savedLoads saved member
  savedLoads := right.savedLoads

theorem contextAnchor_calm : Ensures Calm (contextAnchor outside) (fun _ => Calm) Fails := by
  unfold contextAnchor
  split
  · exact calm_bind ask_calm fun _ => pure_calm _
  · exact calm_read fun _ => pure_calm _

/-- The context of a lineage that was pruned or not is in memory, and its archives are in the store. -/
theorem advanced_calm {world : World} (calm : Calm world) {lineage : NativeLineage} {output : List Produced}
    {anchor : Option String}
    (done : (world.memory.lineage world.store).advanceActiveInput output anchor = .ok lineage) :
    Calm { world with
      state := { world.state with context := lineage.state, responses := [] }
      store := lineage.store
      archived := world.archived ++ [world.state.responses] } := by
  refine ⟨?_, calm.2⟩
  rcases NativeLineage.advanceActiveInput_cases done with rfl | ⟨start, anchor, id, rfl⟩
  · exact calm.1.same {}
  · -- the records are right over the longer store; the memory is pruned
    have grown := calm.1.grow [⟨world.session.id, world.state.context.input.take start,
      world.state.context.toolResults⟩]
    constructor
    · apply grown.sound.replace
      apply agrees_of_closed calm.closed
      exact fun _ => calm.accounts.carried rfl (carries_pruned (world.memory.lineage world.store) start anchor id)
    · exact grown.once
    · exact (NativeLineage.carried_pruned (world.memory.lineage world.store) start anchor id).loads
        calm.1.loads
    · exact grown.savedLoads

theorem advance_calm (output : List Produced) :
    Ensures Calm (advance outside output) (fun _ => Calm) Fails := by
  unfold advance
  split
  · exact pure_calm ()
  apply calm_bind contextAnchor_calm
  intro anchor
  apply memory_ensures
  intro read
  apply bind_ensures
  · exact lifted_ensures fun _ _ met => met.2.1
  intro lineage
  apply bind_ensures
  · exact ask_ensures (fun _ _ met => met) fun _ _ met => met.2.2.1
  intro _
  apply bind_ensures fun _ => Calm
  · apply modify_ensures
    rintro world ⟨done, ⟨memory, store⟩, calm⟩
    rw [← memory, ← store] at done
    exact advanced_calm calm done
  intro _
  exact calm_bind save_calm fun _ => ask_calm

/-! ### Responses -/

theorem checkResponse_calm (reserved usage : Usage) (response : Response) :
    Ensures Calm (checkResponse reserved usage response) (fun _ => Calm) Fails := by
  unfold checkResponse
  apply calm_read
  intro read
  dsimp only
  repeat' split
  all_goals first | exact raise_calm | exact pure_calm ()

theorem noteCompactions_calm (response : Response) :
    Ensures Calm (noteCompactions outside response) (fun _ => Calm) Fails := by
  unfold noteCompactions
  split
  · exact pure_calm ()
  · apply calm_bind
    · exact changeState_calm fun _ _ => {}
    · exact fun _ => calm_bind save_calm fun _ => ask_calm

theorem settleBoundary_calm : Ensures Calm (settleBoundary outside) (fun _ => Calm) Fails := by
  apply calm_bind
  · exact changeState_calm fun _ _ => {}
  · exact fun _ => save_calm

theorem concludeText_calm (response : Response) :
    Ensures Calm (concludeText outside response) (fun _ => Calm) Fails := by
  unfold concludeText
  apply calm_bind
  · exact changeState_calm fun _ _ => {}
  intro _
  apply calm_bind save_calm
  intro _
  apply calm_bind (maybeHandoff_calm _)
  intro handoff
  cases handoff with
  | some result => exact pure_calm _
  | none =>
    apply calm_bind
    · exact changeState_calm fun _ _ => {}
    intro _
    apply calm_bind
    · exact changeSession_calm fun _ _ => {}
    intro _
    apply calm_bind save_calm
    intro _
    exact calm_bind ask_calm fun _ => pure_calm _

theorem emitCompleted_calm : Ensures Calm (emitCompleted outside) (fun _ => Calm) Fails :=
  emitCompleted_ensures (fun _ _ _ calm => calm) fun _ _ calm => calm.1

theorem conclude_calm [FloatReader] (response : Response) :
    Ensures Calm (conclude outside response) (fun _ => Calm) Fails := by
  unfold conclude
  split
  · split
    · split
      · exact raise_calm
      · apply calm_bind (advance_calm _)
        intro _
        exact calm_bind settleBoundary_calm fun _ => maybeHandoff_calm ""
    · exact concludeText_calm response
  · apply calm_bind (forM_ensures fun call _ => runCall_calm call)
    intro _
    apply calm_bind (advance_calm _)
    intro _
    apply calm_bind settleBoundary_calm
    intro _
    exact calm_bind emitCompleted_calm fun _ => maybeHandoff_calm ""

/-- The memory counts the usage of the last effect, which is not settled yet. -/
def Owes (number : Nat) (usage : Usage) (saved : Saved) (store : List Archive) (history : List Happened) :
    Prop :=
  saved.state.pendingOperation = some (.generation number) ∧
    ∃ before last, history = before ++ [last] ∧ last.operation = .generation number ∧
      (∀ effect ∈ before, effect.closed) ∧
        Accounts store saved (before ++ [.generation number (.settled usage)])

def Due (number : Nat) (usage : Usage) (world : World) : Prop :=
  Kept world ∧ Owes number usage world.memory world.store world.history ∧ Named (.generation number) world

/-- The usage of a response is counted. -/
theorem Accounts.counted {store : List Archive} {saved changed : Saved} {before : List Happened}
    (accounts : Accounts store saved before) (number : Nat) (usage : Usage)
    (id : changed.session.id = saved.session.id)
    (turns : changed.session.turns = saved.session.turns + 1)
    (inputTokens : changed.session.inputTokens = saved.session.inputTokens + usage.inputTokens)
    (outputTokens : changed.session.outputTokens = saved.session.outputTokens + usage.outputTokens)
    (toolResults : changed.state.context.toolResults = saved.state.context.toolResults)
    (archives : changed.state.context.archives = saved.state.context.archives)
    (archiveRefs : changed.state.context.archiveRefs = saved.state.context.archiveRefs) :
    Accounts store changed (before ++ [.generation number (.settled usage)]) := by
  have more : usages (before ++ [.generation number (.settled usage)]) = usages before ++ [usage] := by
    rw [usages, List.filterMap_append]
    rfl
  constructor
  · rw [more, List.length_append, List.length_singleton, turns, accounts.turns]
  · rw [more, List.map_append, List.sum_append, inputTokens, accounts.inputTokens]
    simp
  · rw [more, List.map_append, List.sum_append, outputTokens, accounts.outputTokens]
    simp
  · intro key identity result member
    rcases List.mem_append.mp member with earlier | last
    · obtain ⟨entry, held, answers⟩ := accounts.kept key identity result earlier
      refine ⟨entry, ?_, answers⟩
      rw [held_of_same id toolResults archives archiveRefs]
      exact NativeLineage.held_iff.mp held
    · cases List.mem_singleton.mp last

/-- The response is in memory: its usage is not. -/
def Arrived (number : Nat) (world : World) : Prop :=
  Kept world ∧ world.state.pendingOperation = some (.generation number) ∧
    Named (.generation number) world ∧
      ∃ before last counted, world.history = before ++ [last] ∧ last.operation = .generation number ∧
        (∀ effect ∈ before, effect.closed) ∧ Accounts world.store counted before ∧
          counted.session.id = world.session.id ∧ world.session.turns = counted.session.turns + 1 ∧
            world.session.inputTokens = counted.session.inputTokens ∧
              world.session.outputTokens = counted.session.outputTokens ∧
                counted.state.context = world.state.context

theorem changeState_flying {operation : Operation} {change : NativeState → NativeState}
    {raises : Failure → World → Prop} (same : ∀ session state, Same ⟨session, state⟩ ⟨session, change state⟩) :
    Ensures (Flying operation) (changeState change) (fun _ => Flying operation) raises := by
  apply modify_ensures
  rintro world ⟨kept, pending, named, before, last, split, name, closed, accounts⟩
  have changed := same world.session world.state
  exact ⟨kept.same changed, changed.pending.trans pending, named, before, last, split, name, closed,
    accounts.same changed⟩

/-- The turn is counted with the response. -/
theorem arrives (number : Nat) (id : String) {raises : Failure → World → Prop} :
    Ensures (Flying (.generation number))
      (changeSession fun session =>
        { session with nativeSessionId := some id, turns := session.turns + 1 })
      (fun _ => Arrived number) raises := by
  apply modify_ensures
  rintro world ⟨kept, pending, named, before, last, split, name, closed, accounts⟩
  refine ⟨?_, pending, named, before, last, world.memory, split, name, closed, accounts, rfl, rfl, rfl, rfl,
    rfl⟩
  rw [Kept, split] at kept
  rw [Kept]
  show Right _ world.checkpoint world.store world.history
  rw [split]
  apply kept.flying closed
  · rw [name]
    exact pending
  · rw [name]
    exact named
  · rfl
  · exact kept.loads

theorem took_due (number : Nat) (response : Response) (usage : Usage) {raises : Failure → World → Prop} :
    Ensures (Arrived number) (modify fun world => world.took response usage)
      (fun _ => Due number usage) raises := by
  apply modify_ensures
  rintro world ⟨kept, pending, named, before, last, counted, split, name, closed, accounts, id, turns, input,
    output, context⟩
  refine ⟨?_, ⟨pending, before, last, split, name, closed, ?_⟩, named⟩
  · rw [Kept, split] at kept
    show Right _ world.checkpoint world.store world.history
    rw [split]
    apply kept.flying closed
    · rw [name]
      exact pending
    · rw [name]
      exact named
    · rfl
    · exact kept.loads
  · apply accounts.counted number usage
    · exact id.symm
    · exact turns
    · exact congrArg (· + usage.inputTokens) input
    · exact congrArg (· + usage.outputTokens) output
    · rw [context]
      rfl
    · rw [context]
      rfl
    · rw [context]
      rfl

theorem settled_calm (number : Nat) (reserved usage : Usage) (response : Response)
    {raises : Failure → World → Prop} :
    Ensures (Due number usage) (modify fun world => world.settled number reserved usage response)
      (fun _ => Calm) raises := by
  apply modify_ensures
  rintro world ⟨kept, ⟨pending, before, last, split, name, closed, accounts⟩, named⟩
  refine ⟨?_, rfl⟩
  show Right _ world.checkpoint world.store (world.history.dropLast ++ [_])
  rw [Kept, split] at kept
  rw [split, List.dropLast_concat]
  apply kept.closes closed
  · exact trivial
  · exact named
  · exact keys_of_operation name.symm
  · exact ⟨accounts.turns, accounts.inputTokens, accounts.outputTokens, accounts.kept⟩
  · exact kept.loads

theorem takeUsage_calm (number : Nat) (reserved usage : Usage) (response : Response) :
    Ensures (Arrived number) (takeUsage outside number reserved usage response) (fun _ => Calm) Fails := by
  unfold takeUsage
  apply bind_ensures (fun _ => Due number usage) (took_due number response usage)
  intro _
  apply bind_ensures fun _ => Due number usage
  · apply ensures_imp (save_ensures (M := Owes number usage))
    · exact fun _ due => ⟨due.1, due.2.1⟩
    · rintro _ world ⟨⟨kept, owes⟩, saved⟩
      refine ⟨kept, owes, fun other member => ?_⟩
      rw [saved, Option.mem_some] at member
      rw [← member]
      exact owes.1
    · exact fun _ _ failed => failed.1
  intro _
  apply bind_ensures fun _ => Due number usage
  · exact emitTelemetry_ensures (fun _ _ due => due) fun _ _ due => due.1
  intro _
  apply bind_ensures fun _ => Due number usage
  · exact ask_ensures (fun _ _ due => due) fun _ _ due => due.1
  exact fun _ => settled_calm number reserved usage response

/-- A failure that is saved with its operation. -/
theorem saveRaise_arrived {number : Nat} {code message : String} {operation : Option Operation}
    {returns : Option RuntimeResult → World → Prop} :
    Ensures (Arrived number)
      (do
        save outside
        raise code message operation)
      returns Fails := by
  apply bind_ensures fun _ => Kept
  · apply ensures_imp (save_ensures (M := fun _ _ _ => True))
    · exact fun _ arrived => ⟨arrived.1, trivial⟩
    · exact fun _ _ done => done.1.1
    · exact fun _ _ failed => failed.1
  · exact fun _ => raise_ensures fun _ _ kept => kept

theorem takeResponse_calm [FloatReader] (number : Nat) (reserved : Usage) (response : Response) :
    Ensures (Flying (.generation number)) (takeResponse outside number reserved response)
      (fun _ => Calm) Fails := by
  unfold takeResponse
  apply read_ensures
  intro read
  dsimp only
  apply bind_ensures fun _ => Flying (.generation number)
  · exact given_ensures_right (changeState_flying fun _ _ => {})
  intro _
  apply bind_ensures fun _ => Arrived number
  · exact arrives number response.id
  intro _
  split
  · exact saveRaise_arrived
  split
  next => exact saveRaise_arrived
  next usage _ =>
    apply bind_ensures (fun _ => Calm) (takeUsage_calm number reserved usage response)
    intro _
    apply calm_bind (checkResponse_calm reserved usage response)
    intro _
    apply calm_bind (noteCompactions_calm response)
    exact fun _ => conclude_calm response

/-! ### The loop -/

section

variable [ContentHash] [FloatReader]

theorem turn_calm : Ensures Calm (turn outside) (fun _ => Calm) Fails := by
  unfold turn
  apply calm_bind ask_calm
  intro verified
  split
  · exact calm_bind completeVerified_calm fun _ => pure_calm _
  apply calm_read
  intro read
  split
  · exact raise_calm
  apply calm_bind receiveUpdates_calm
  intro _
  apply calm_bind receiveTurnNote_calm
  intro _
  apply calm_bind elide_calm
  intro _
  apply calm_bind prepareRequest_calm
  intro prepared
  cases prepared with
  | inl result => exact pure_calm _
  | inr reserved =>
    apply bind_ensures Sent send_sent
    intro sent
    cases sent with
    | inl result => exact pure_ensures _ fun _ => id
    | inr answered => exact takeResponse_calm answered.1 reserved answered.2

theorem loop_calm (turns : Nat) : Ensures Calm (loop outside turns) (fun _ => Calm) Fails := by
  induction turns with
  | zero => exact raise_calm
  | succ turns ih =>
    apply calm_bind turn_calm
    intro ended
    cases ended with
    | some result => exact pure_calm result
    | none => exact ih

end

theorem save_kept : Ensures Kept (save outside) (fun _ => Kept) Fails :=
  ensures_imp (save_ensures (M := fun _ _ _ => True)) (fun _ kept => ⟨kept, trivial⟩)
    (fun _ _ done => done.1.1) fun _ _ failed => failed.1

theorem failRun_kept (failure : Failure) : Ensures Kept (failRun outside failure) (fun _ => Kept) Fails := by
  have tells : Ensures Kept (emitTelemetry outside) (fun _ => Kept) Fails :=
    emitTelemetry_ensures (fun _ _ kept => kept) fun _ _ => id
  have saves : Ensures Kept (saveFailure outside) (fun _ => Kept) Fails := by
    apply bind_ensures _ save_kept
    intro _
    apply bind_ensures (fun _ => Kept) tells
    intro _
    apply read_ensures
    intro read
    apply given_ensures_right
    apply forM_ensures
    intro announcement _
    apply bind_ensures (fun _ => Kept) tells
    intro _
    split
    · exact tells
    · exact pure_ensures () fun _ => id
  unfold failRun
  apply read_ensures
  intro read
  apply given_ensures_right
  dsimp only
  apply bind_ensures fun _ => Kept
  · exact modify_ensures _ fun _ kept => kept.same {}
  intro _
  apply bind_ensures _ saves
  intro _
  unfold reported
  split
  · exact raise_ensures fun _ _ => id
  · exact raise_ensures fun _ _ => id
  · exact raise_ensures fun _ _ => id
  · exact throw_ensures _ fun _ => id

/-! ### Calls of the runtime -/

theorem raise_kept {α : Type} {code message : String} {operation : Option Operation} {retryable : Bool}
    {returns : α → World → Prop} :
    Ensures Kept (raise code message operation retryable : NativeProgram α) returns Fails :=
  raise_ensures fun _ _ => id

/-- The memory is the loaded checkpoint. -/
theorem loadCheckpoint_ensures (current : Bool) :
    Ensures Kept (loadCheckpoint outside current) (fun saved world => world.memory = saved ∧ Kept world)
      Fails := by
  unfold loadCheckpoint
  apply bind_ensures fun _ => Kept
  · exact ask_ensures (fun _ _ kept => kept) fun _ _ => id
  intro _
  apply read_ensures
  intro read
  split
  · exact raise_ensures fun _ _ met => met.2
  next saved there =>
    split
    · apply bind_ensures fun _ world => world.memory = saved.loaded ∧ Kept world
      · apply modify_ensures
        rintro world ⟨rfl, kept⟩
        exact ⟨rfl, kept.load there⟩
      · exact fun _ => pure_ensures _ fun _ => id
    · exact raise_ensures fun _ _ met => met.2

/-- A loaded checkpoint that names nothing leaves nothing pending. -/
theorem calm_of_clear {saved : Saved} {α : Type} {program : NativeProgram α}
    (clear : saved.state.pendingOperation = none) (spec : Ensures Calm program (fun _ => Kept) Fails) :
    Ensures (fun world => world.memory = saved ∧ Kept world) program (fun _ => Kept) Fails := by
  apply ensures_imp spec
  · rintro world ⟨rfl, kept⟩
    exact ⟨kept, clear⟩
  · exact fun _ _ => id
  · exact fun _ _ => id

theorem recoverTerminal_kept (current : Bool) :
    Ensures Kept (recoverTerminal outside current) (fun _ => Kept) Fails := by
  unfold recoverTerminal
  apply bind_ensures _ (loadCheckpoint_ensures current)
  intro saved
  split
  · exact given_ensures_right raise_kept
  next settled =>
    have clear : saved.state.pendingOperation = none := by
      simp only [Bool.or_eq_true, not_or, Bool.not_eq_true, Option.isSome_eq_false_iff,
        Option.isNone_iff_eq_none] at settled
      exact settled.2
    apply calm_of_clear clear
    split
    · exact raise_ensures fun _ _ calm => calm.1
    · apply calm_bind (maybeHandoff_calm _)
      intro handoff
      cases handoff with
      | some result => exact pure_ensures _ fun _ calm => calm.1
      | none =>
        apply calm_bind
        · exact changeState_calm fun _ _ => {}
        intro _
        apply calm_bind
        · exact changeSession_calm fun _ _ => {}
        intro _
        apply calm_bind save_calm
        intro _
        exact calm_bind ask_calm fun _ => pure_ensures _ fun _ calm => calm.1

theorem markReplay_calm (native : Response) :
    Ensures Calm (markReplay outside native) (fun _ => Calm) Fails := by
  unfold markReplay
  apply calm_read
  intro read
  split
  · exact pure_calm ()
  split
  · exact pure_calm ()
  · apply calm_bind
    · exact changeState_calm fun _ _ => {}
    · exact fun _ => save_calm

theorem finishCompaction_calm (native : Response) :
    Ensures Calm (finishCompaction outside native) (fun _ => Calm) Fails := by
  have prunes : Ensures Calm (finishPruning outside native) (fun _ => Calm) Fails := by
    unfold finishPruning
    apply calm_read
    intro read
    split
    · exact pure_calm ()
    split
    · exact calm_bind (markReplay_calm native) fun _ => advance_calm _
    · exact raise_calm
  unfold finishCompaction
  apply calm_read
  intro read
  split
  · exact pure_calm ()
  · exact calm_bind prunes fun _ => settleBoundary_calm

theorem resume_kept (current : Bool) : Ensures Kept (resume outside current) (fun _ => Kept) Fails := by
  unfold resume
  apply bind_ensures _ (loadCheckpoint_ensures current)
  intro saved
  apply given_ensures_right
  split
  · exact raise_kept
  split
  · exact raise_kept
  split
  · exact raise_kept
  split
  · exact raise_kept
  · apply bind_ensures fun _ => Kept
    · exact modify_ensures _ fun _ kept => kept.same {}
    intro _
    exact bind_ensures _ save_kept fun _ => pure_ensures _ fun _ => id

section

variable [ContentHash] [FloatReader]

/-- A run goes on only where nothing is pending. -/
theorem run_kept (prompt : Option String) : Ensures Kept (run outside prompt) (fun _ => Kept) Fails := by
  unfold run
  apply read_ensures
  intro read
  split
  · exact raise_ensures fun _ _ met => met.2
  split
  · exact raise_ensures fun _ _ met => met.2
  next open_ =>
    have clear : read.state.pendingOperation = none := by
      simp only [Bool.or_eq_true, not_or, Bool.not_eq_true, Option.isSome_eq_false_iff,
        Option.isNone_iff_eq_none] at open_
      exact open_.2
    apply bind_ensures fun _ => Calm
    · apply ensures_imp (changeSession_calm fun _ _ => {})
      · rintro world ⟨rfl, kept⟩
        exact ⟨kept, clear⟩
      · exact fun _ _ => id
      · exact fun _ _ => id
    intro _
    apply calm_bind
    · exact changeState_calm fun _ _ => {}
    intro _
    have closes : Ensures Kept (modify fun world : World => { world with unannounced := [] })
        (fun _ => Kept) Fails := modify_ensures _ fun _ kept => kept
    have loops : Ensures Calm
        (do
          save outside
          loop outside (read.session.limits.maxTurns - read.session.turns + 1))
        (fun _ => Kept) Fails := by
      apply calm_bind save_calm
      intro _
      exact ensures_imp (loop_calm _) (fun _ => id) (fun _ _ calm => calm.1) fun _ _ => id
    have runs : Ensures Calm
        (handleAll
          (do
            save outside
            loop outside (read.session.limits.maxTurns - read.session.turns + 1))
          (failRun outside))
        (fun _ => Kept) Fails := handleAll_ensures loops (fun _ => id) failRun_kept
    exact lastly_ensures runs (fun _ => closes) fun _ => closes

theorem continueSession_kept (prompt : String) :
    Ensures Kept (continueSession outside prompt) (fun _ => Kept) Fails := by
  unfold continueSession
  apply bind_ensures _ (loadCheckpoint_ensures true)
  intro saved
  apply given_ensures_right
  split
  · exact raise_kept
  split
  · exact raise_kept
  · exact run_kept (some prompt)

theorem recoverCompaction_kept (current : Bool) :
    Ensures Kept (recoverCompaction outside current) (fun _ => Kept) Fails := by
  unfold recoverCompaction
  apply bind_ensures _ (loadCheckpoint_ensures current)
  intro saved
  split
  · exact given_ensures_right raise_kept
  next settled =>
    have clear : saved.state.pendingOperation = none := by
      simp only [Bool.or_eq_true, not_or, Bool.not_eq_true, Option.isSome_eq_false_iff,
        Option.isNone_iff_eq_none] at settled
      exact settled.1.2
    apply calm_of_clear clear
    apply calm_bind ask_calm
    intro _
    apply calm_read
    intro read
    split
    · exact raise_ensures fun _ _ calm => calm.1
    split
    · apply calm_bind (finishCompaction_calm _)
      intro _
      apply calm_bind (maybeHandoff_calm _)
      intro handoff
      cases handoff with
      | some result => exact pure_ensures _ fun _ calm => calm.1
      | none => exact ensures_imp (run_kept none) (fun _ calm => calm.1) (fun _ _ => id) fun _ _ => id
    · exact raise_ensures fun _ _ calm => calm.1

theorem program_kept (command : Command) :
    Ensures Kept (command.program outside) (fun _ => Kept) Fails := by
  cases command with
  | continueSession prompt => exact continueSession_kept prompt
  | recoverTerminal current => exact recoverTerminal_kept current
  | recoverCompaction current => exact recoverCompaction_kept current
  | resume current => exact resume_kept current

theorem begin_kept (prompt : String) : Ensures Kept (begin outside prompt) (fun _ => Kept) Fails :=
  bind_ensures _ save_kept fun _ => run_kept (some prompt)

end

theorem after_of_ensures {P : World → Prop} {program : NativeProgram RuntimeResult} {world : World}
    (spec : Ensures P program (fun _ => P) fun _ => P) (met : P world) : P (world.after program) := by
  have ends := spec world met
  unfold World.after
  split at ends
  next value after done =>
    rw [done]
    exact ends
  next failure after done =>
    rw [done]
    exact ends

/-- A session as it is opened: nothing is saved or has happened, and the archives that it inherits are there.
-/
structure Opened (world : World) : Prop where
  unsaved : world.checkpoint = none
  quiet : world.history = []
  unused : world.session.turns = 0 ∧ world.session.inputTokens = 0 ∧ world.session.outputTokens = 0
  loads : (world.memory.lineage world.store).Loads

theorem Opened.kept {world : World} (opened : Opened world) : Kept world := by
  rw [Kept, opened.unsaved, opened.quiet]
  constructor
  · constructor
    · apply agrees_of_closed
      · exact fun _ member => by cases member
      · intro _
        refine ⟨opened.unused.1, opened.unused.2.1, opened.unused.2.2, ?_⟩
        exact fun _ _ _ member => by cases member
    · exact fun _ member => by cases member
    · exact fun _ member => by cases member
  · exact List.nodup_nil
  · exact opened.loads
  · exact fun _ member => by cases member

/-- What is durable, and what has happened. -/
def Durably (saved : Saved) (store : List Archive) (history : List Happened) (world : World) : Prop :=
  world.checkpoint = some saved ∧ world.store = store ∧ world.history = history

theorem loadCheckpoint_durably {saved : Saved} {store : List Archive} {history : List Happened}
    (current : Bool) :
    Ensures (Durably saved store history) (loadCheckpoint outside current)
      (fun loaded world => loaded = saved.loaded ∧ world.memory = saved.loaded ∧ Durably saved store history world)
      (fun _ => Durably saved store history) := by
  unfold loadCheckpoint
  apply bind_ensures fun _ => Durably saved store history
  · exact ask_ensures (fun _ _ durably => durably) fun _ _ => id
  intro _
  apply read_ensures
  intro read
  split
  · exact raise_ensures fun _ _ met => met.2
  next other there =>
    split
    · apply bind_ensures fun _ world => other = saved ∧ world.memory = other.loaded ∧
        Durably saved store history world
      · apply modify_ensures
        rintro world ⟨rfl, durably⟩
        refine ⟨?_, rfl, durably⟩
        rw [durably.1] at there
        exact (Option.some.inj there).symm
      · intro _
        apply pure_ensures
        rintro world ⟨rfl, memory, durably⟩
        exact ⟨rfl, memory, durably⟩
    · exact raise_ensures fun _ _ met => met.2

section

variable [ContentHash] [FloatReader]

/-- A call on a checkpoint that names an operation is refused. -/
theorem program_durably {saved : Saved} {store : List Archive} {history : List Happened}
    (pending : saved.state.pendingOperation.isSome = true) (command : Command) :
    Ensures (Durably saved store history) (command.program outside) (fun _ => Durably saved store history)
      (fun _ => Durably saved store history) := by
  have marked : saved.loaded.state.pendingOperation.isSome = true := pending
  have refused : ∀ {α : Type} {code message : String} {returns : α → World → Prop},
      Ensures (fun world => world.memory = saved.loaded ∧ Durably saved store history world)
        (raise code message : NativeProgram α) returns (fun _ => Durably saved store history) :=
    raise_ensures fun _ _ met => met.2
  cases command with
  | continueSession prompt =>
    apply bind_ensures _ (loadCheckpoint_durably true)
    intro loaded
    apply given_ensures
    rintro rfl
    split
    · exact refused
    split
    · exact refused
    · unfold run
      apply read_ensures
      intro read
      split
      · exact raise_ensures fun _ _ met => met.2.2
      split
      · exact raise_ensures fun _ _ met => met.2.2
      next open_ =>
        rintro world ⟨rfl, memory, durably⟩
        have same : world.state = saved.loaded.state := congrArg Saved.state memory
        simp [same, marked] at open_
  | recoverTerminal current =>
    apply bind_ensures _ (loadCheckpoint_durably current)
    intro loaded
    apply given_ensures
    rintro rfl
    rw [if_pos (by simp [marked])]
    exact refused
  | recoverCompaction current =>
    apply bind_ensures _ (loadCheckpoint_durably current)
    intro loaded
    apply given_ensures
    rintro rfl
    rw [if_pos (by simp [marked])]
    exact refused
  | resume current =>
    apply bind_ensures _ (loadCheckpoint_durably current)
    intro loaded
    apply given_ensures
    rintro rfl
    split
    · exact refused
    split
    · exact refused
    · rw [if_pos (by simp [marked])]
      exact refused

theorem kept_life {world : World} (opened : Opened world) (outside : Outside) (prompt : String)
    (calls : List Call) : Kept (world.life outside prompt calls) :=
  Transition.run_always Kept calls (after_of_ensures (begin_kept prompt) opened.kept)
    fun _ call kept => after_of_ensures (program_kept call.command) kept

/-- After a checkpoint that names an operation, nothing happens. -/
theorem durably_calls {saved : Saved} {store : List Archive} {history : List Happened}
    (pending : saved.state.pendingOperation.isSome = true) {world : World}
    (durably : Durably saved store history world) (calls : List Call) :
    Durably saved store history (Transition.run World.call world calls) :=
  Transition.run_always (Durably saved store history) calls durably
    fun _ call met => after_of_ensures (program_durably pending call.command) met

/-- **The effects of a session happen at most once.** Whatever the outside does, and wherever each call ends:
no tool call is dispatched twice; an effect of unknown outcome is the last one, and the saved checkpoint names
it; a checkpoint that names nothing has counted every generation and keeps the result of every call; and after
one that names an operation nothing happens. -/
theorem effects_once {world : World} (opened : Opened world) (outside : Outside) (prompt : String)
    (calls : List Call) :
    let after := world.life outside prompt calls
    (dispatchedKeys after.history).Nodup ∧
    (∀ effect ∈ after.history, ¬ effect.closed → after.history.getLast? = some effect ∧
      ∀ saved ∈ after.checkpoint, saved.state.pendingOperation = some effect.operation) ∧
    ∀ saved ∈ after.checkpoint,
      (saved.state.pendingOperation = none → (∀ effect ∈ after.history, effect.closed) ∧
        Accounts after.store saved after.history) ∧
      (saved.state.pendingOperation ≠ none → ∀ more,
        let later := world.life outside prompt (calls ++ more)
        later.checkpoint = some saved ∧ later.history = after.history) := by
  intro after
  have kept : Kept after := kept_life opened outside prompt calls
  refine ⟨kept.once, fun effect member unknown => kept.sound.unknown member unknown, ?_⟩
  intro saved there
  constructor
  · intro unmarked
    have loaded := kept.sound.load there
    exact ⟨loaded.closed unmarked, loaded.memory.accounted unmarked⟩
  · intro marked more
    have durably : Durably saved after.store after.history
        (Transition.run World.call after more) :=
      durably_calls (Option.isSome_iff_ne_none.mpr marked) ⟨there, rfl, rfl⟩ more
    rw [World.life, Transition.run_append]
    exact ⟨durably.1, durably.2.2⟩

end

namespace Scenario

local instance sampleHash : ContentHash := PhysHarness.Scenario.textHash

local instance sampleReader : FloatReader := .exact

theorem toolSession_plain : ':' ∉ "session".toList := by decide

theorem toolLimits_float : (['3', '0', '0', '.', '0'].all JsonNumber.isNumberChar &&
    JsonNumber.isNumber ['3', '0', '0', '.', '0'] &&
      !(JsonNumber.fraction ['3', '0', '0', '.', '0']).isEmpty) = true := by decide

theorem toolLimits_bounds : (1 ≤ 4 ∧ 4 ≤ 1000) ∧ 1 ≤ 100 ∧
    (∀ tokens ∈ (none : Option Nat), 1 ≤ tokens) ∧ ∀ tokens ∈ (none : Option Nat), 1 ≤ tokens := by
  simp

def toolSession : NativeSession where
  id := ⟨"session", toolSession_plain⟩
  model := "model"
  limits :=
    { maxTurns := 4, maxOutputTokens := 100, maxTotalTokens := none, maxContextTokens := none
      timeoutSeconds := ⟨['3', '0', '0', '.', '0'], toolLimits_float⟩, bounds := toolLimits_bounds }

theorem toolBudget_min : 500 ≤ 4000 ∧ 4000 ≤ 1000000 := by decide

theorem toolBudget_turns : 1 ≤ 5 ∧ 5 ≤ 1000 := by decide

theorem toolBudget_every : 1 ≤ 10 ∧ 10 ≤ 1000 := by decide

theorem toolBudget_output : ∀ limit ∈ some 24000, 20000 ≤ limit ∧ limit ≤ 1000000 := by decide

def toolWorld : World where
  session := toolSession
  state :=
    { context :=
        { contextBudget :=
            { elideMinBounds := toolBudget_min, elideAfterBounds := toolBudget_turns
              elideEveryBounds := toolBudget_every, maxOutputBounds := toolBudget_output }
          initialAnchor := some "Prove it." }
      budgeted := false }

/-- The model calls a tool. -/
def toolResponse : Response where
  id := "response"
  model := "model"
  status := "completed"
  output := [.functionCall ⟨"call", "lean_check", "\x7b\x7d"⟩]
  usage := some ⟨900, 40⟩
  outputText := ""

/-- The process dies while the tool runs. -/
def diesInTool : Outside where
  configured := true
  save _ := .saved
  archive _ := .ok ()
  load _ := .ok ()
  event _ := .ok ()
  guard _ := .ok false
  updates _ := .ok none
  acknowledge _ := .ok true
  note _ := .ok none
  plan _ := .ok (.reserve ⟨1000, 100⟩)
  admission _ := .ok ()
  late _ := false
  create _ := ⟨[], .response toolResponse⟩
  tool _ := .error .crashed
  signal _ := .ok none
  anchor := none
  boundary := none

/-- The session, and two calls after the crash. -/
def crashedTool : World :=
  toolWorld.life diesInTool "Prove it." [⟨diesInTool, .resume true⟩, ⟨diesInTool, .continueSession "Go on."⟩]

theorem toolWorld_opened : Opened toolWorld where
  unsaved := rfl
  quiet := rfl
  unused := ⟨rfl, rfl, rfl⟩
  loads := by
    intro ref member
    cases member

/-- Nobody knows what the tool did: the checkpoint names the call, and the later calls do nothing. -/
theorem crashedTool_once : (dispatchedKeys crashedTool.history).Nodup ∧
    ∀ saved ∈ crashedTool.checkpoint,
      saved.state.pendingOperation = some (.tool ⟨toolSession.id, "call"⟩) := by
  have once := effects_once toolWorld_opened diesInTool "Prove it."
    [⟨diesInTool, .resume true⟩, ⟨diesInTool, .continueSession "Go on."⟩]
  have called : Happened.dispatched ⟨toolSession.id, "call"⟩ ⟨"lean_check", .obj []⟩ none ∈
      crashedTool.history := by decide +kernel
  exact ⟨once.1, (once.2.1 _ called id).2⟩

end Scenario

end PhysHarness.Native
