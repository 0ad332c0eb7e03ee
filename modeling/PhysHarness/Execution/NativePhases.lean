import PhysHarness.Execution.Native
import PhysHarness.Execution.Shortening
import PhysHarness.Lib.Intents

/-!
What the checkpoints of a native session account for.

The invariant of a session is that of effects that are named before they happen: a checkpoint that names
nothing has counted every generation and keeps the result of every call. A generation goes through phases:
nothing is pending, its mark is saved, it is in flight. Up to a sent request, each step of the loop leads from
a phase to the next, and whatever is raised leaves the invariant.
-/
namespace PhysHarness.Native

open Effect Intents

/-! ### What a checkpoint accounts for -/

/-- The outcome is known, and the reservation is gone. -/
def Happened.closed : Happened → Prop
  | .generation _ (.settled _) | .generation _ .released | .dispatched _ _ (some _) => True
  | _ => False

def Happened.operation : Happened → Operation
  | .generation number _ => .generation number
  | .dispatched key _ _ => .tool key

/-- The usage of the generations that were settled. -/
def usages (history : List Happened) : List Usage :=
  history.filterMap fun
    | .generation _ (.settled usage) => some usage
    | _ => none

def dispatchedKeys (history : List Happened) : List ToolKey :=
  history.filterMap fun
    | .dispatched key _ _ => some key
    | _ => none

/-- The entry keeps the result of the call; a reload sorts its fields. -/
structure Answers (entry : Entry) (identity : Identity) (result : Fields) : Prop where
  identity : entry.identity = identity
  result : sortedFields entry.result = sortedFields result

/-- Every settled generation is counted, and the result of every call is kept. -/
structure Accounts (store : List Archive) (saved : Saved) (history : List Happened) : Prop where
  turns : saved.session.turns = (usages history).length
  inputTokens : saved.session.inputTokens = ((usages history).map Usage.inputTokens).sum
  outputTokens : saved.session.outputTokens = ((usages history).map Usage.outputTokens).sum
  kept : ∀ key identity result, .dispatched key identity (some result) ∈ history →
    ∃ entry, (saved.lineage store).Held key entry ∧ Answers entry identity result

/-- How the checkpoints of a session are read. -/
def reading (store : List Archive) : Reading Saved Happened Operation where
  mark saved := saved.state.pendingOperation
  accounts := Accounts store
  closed := Happened.closed
  name := Happened.operation

/-- The invariant of a session. -/
structure Right (memory : Saved) (checkpoint : Option Saved) (store : List Archive)
    (history : List Happened) : Prop where
  sound : Sound (reading store) memory checkpoint history
  once : (dispatchedKeys history).Nodup
  loads : (memory.lineage store).Loads
  savedLoads : ∀ saved ∈ checkpoint, (saved.lineage store).Loads

/-- The checkpoints that agree on what is accounted for. -/
structure Same (first second : Saved) : Prop where
  id : second.session.id = first.session.id := by rfl
  turns : second.session.turns = first.session.turns := by rfl
  inputTokens : second.session.inputTokens = first.session.inputTokens := by rfl
  outputTokens : second.session.outputTokens = first.session.outputTokens := by rfl
  pending : second.state.pendingOperation = first.state.pendingOperation := by rfl
  toolResults : second.state.context.toolResults = first.state.context.toolResults := by rfl
  archives : second.state.context.archives = first.state.context.archives := by rfl
  archiveRefs : second.state.context.archiveRefs = first.state.context.archiveRefs := by rfl

section

variable {first second memory : Saved} {checkpoint : Option Saved} {store : List Archive}
  {history : List Happened}

theorem held_of_same {results : ToolResults} {key : ToolKey} {entry : Entry}
    (id : second.session.id = first.session.id)
    (toolResults : second.state.context.toolResults = results)
    (archives : second.state.context.archives = first.state.context.archives)
    (archiveRefs : second.state.context.archiveRefs = first.state.context.archiveRefs) :
    (second.lineage store).Held key entry ↔ (key, entry) ∈ results ∨
      ∃ ref ∈ (first.lineage store).refs, ∃ archived,
        (first.lineage store).loadArchive ref = .ok archived ∧ (key, entry) ∈ archived := by
  have refs : (second.lineage store).refs = (first.lineage store).refs := by
    simp only [NativeLineage.refs, Saved.lineage, archives, archiveRefs, id]
  rw [NativeLineage.held_iff, refs]
  simp only [Saved.lineage, toolResults]
  rfl

theorem loads_of_same (id : second.session.id = first.session.id)
    (archives : second.state.context.archives = first.state.context.archives)
    (archiveRefs : second.state.context.archiveRefs = first.state.context.archiveRefs)
    (loads : (first.lineage store).Loads) : (second.lineage store).Loads := by
  have refs : (second.lineage store).refs = (first.lineage store).refs := by
    simp only [NativeLineage.refs, Saved.lineage, archives, archiveRefs, id]
  intro ref member
  rw [refs] at member
  exact loads ref member

theorem Same.held (same : Same first second) {key : ToolKey} {entry : Entry} :
    (second.lineage store).Held key entry ↔ (first.lineage store).Held key entry := by
  rw [held_of_same same.id same.toolResults same.archives same.archiveRefs, NativeLineage.held_iff]
  rfl

theorem Accounts.same (accounts : Accounts store first history) (same : Same first second) :
    Accounts store second history where
  turns := same.turns.trans accounts.turns
  inputTokens := same.inputTokens.trans accounts.inputTokens
  outputTokens := same.outputTokens.trans accounts.outputTokens
  kept key identity result member := by
    obtain ⟨entry, held, answers⟩ := accounts.kept key identity result member
    exact ⟨entry, same.held.mpr held, answers⟩

theorem Right.same (right : Right first checkpoint store history) (same : Same first second) :
    Right second checkpoint store history where
  sound := by
    apply right.sound.replace
    have agrees := right.sound.memory
    constructor
    · intro unmarked
      exact (agrees.accounted (same.pending.symm.trans unmarked)).same same
    · intro effect last unknown
      exact same.pending.trans (agrees.named effect last unknown)
  once := right.once
  loads := loads_of_same same.id same.archives same.archiveRefs right.loads
  savedLoads := right.savedLoads

theorem Right.saved (right : Right memory checkpoint store history) :
    Right memory (some memory) store history where
  sound := right.sound.save
  once := right.once
  loads := right.loads
  savedLoads saved member := by
    obtain rfl := Option.mem_some.mp member
    exact right.loads

end

/-! ### Phases of the loop -/

/-- The invariant of a world. -/
def Kept (world : World) : Prop := Right world.memory world.checkpoint world.store world.history

/-- Nothing is pending. -/
def Calm (world : World) : Prop := Kept world ∧ world.state.pendingOperation = none

/-- What was saved last names the operation. -/
def Named (operation : Operation) (world : World) : Prop :=
  ∀ saved ∈ world.checkpoint, saved.state.pendingOperation = some operation

/-- The operation is marked, and has not begun. -/
def Marked (operation : Operation) (world : World) : Prop :=
  Kept world ∧ world.state.pendingOperation = some operation ∧ Named operation world ∧
    (∀ effect ∈ world.history, effect.closed) ∧ Accounts world.store world.memory world.history

/-- The operation is the last effect, and all before it is accounted for. -/
def Flying (operation : Operation) (world : World) : Prop :=
  Kept world ∧ world.state.pendingOperation = some operation ∧ Named operation world ∧
    ∃ before last, world.history = before ++ [last] ∧ last.operation = operation ∧
      (∀ effect ∈ before, effect.closed) ∧ Accounts world.store world.memory before

theorem Calm.accounts {world : World} (calm : Calm world) :
    Accounts world.store world.memory world.history :=
  calm.1.sound.memory.accounted calm.2

theorem Calm.closed {world : World} (calm : Calm world) : ∀ effect ∈ world.history, effect.closed :=
  calm.1.sound.closed calm.2

/-- The operation is cleared before it has begun. -/
theorem Marked.cleared {operation : Operation} {world : World} (marked : Marked operation world) :
    Calm { world with state := { world.state with pendingOperation := none } } := by
  obtain ⟨kept, -, -, closed, accounts⟩ := marked
  refine ⟨⟨kept.sound.replace (agrees_of_closed closed fun _ => ?_), kept.once, ?_, kept.savedLoads⟩, rfl⟩
  · exact ⟨accounts.turns, accounts.inputTokens, accounts.outputTokens, accounts.kept⟩
  · exact kept.loads

/-- The memory changes while its operation is the last effect. -/
theorem Right.flying {memory changed : Saved} {checkpoint : Option Saved} {store : List Archive}
    {before : List Happened} {last next : Happened} (right : Right memory checkpoint store (before ++ [last]))
    (closed : ∀ effect ∈ before, effect.closed)
    (pending : changed.state.pendingOperation = some next.operation)
    (named : ∀ saved ∈ checkpoint, saved.state.pendingOperation = some next.operation)
    (keys : dispatchedKeys [next] = dispatchedKeys [last]) (loads : (changed.lineage store).Loads) :
    Right changed checkpoint store (before ++ [next]) where
  sound := Sound.last closed (agrees_of_mark pending) named
  once := by
    have once := right.once
    rw [dispatchedKeys, List.filterMap_append] at once ⊢
    rw [show List.filterMap _ [next] = List.filterMap _ [last] from keys]
    exact once
  loads := loads
  savedLoads := right.savedLoads

/-- The last effect is closed, and nothing is pending. -/
theorem Right.closes {memory changed : Saved} {checkpoint : Option Saved} {store : List Archive}
    {before : List Happened} {last next : Happened} (right : Right memory checkpoint store (before ++ [last]))
    (closed : ∀ effect ∈ before, effect.closed) (closes : next.closed)
    (named : ∀ saved ∈ checkpoint, saved.state.pendingOperation = some next.operation)
    (keys : dispatchedKeys [next] = dispatchedKeys [last])
    (accounts : Accounts store changed (before ++ [next])) (loads : (changed.lineage store).Loads) :
    Right changed checkpoint store (before ++ [next]) where
  sound := by
    apply Sound.last closed _ named
    apply agrees_of_closed _ fun _ => accounts
    intro effect member
    rcases List.mem_append.mp member with earlier | last
    · exact closed effect earlier
    · rw [List.mem_singleton.mp last]
      exact closes
  once := by
    have once := right.once
    rw [dispatchedKeys, List.filterMap_append] at once ⊢
    rw [show List.filterMap _ [next] = List.filterMap _ [last] from keys]
    exact once
  loads := loads
  savedLoads := right.savedLoads

/-! ### Awaits and changes -/

section

variable {α : Type} {P : World → Prop} {raises : Failure → World → Prop}

theorem ask_ensures {replies : Nat → Reply α}
    (steady : ∀ world awaits, P world → P { world with awaits })
    (fails : ∀ failure world, P world → raises failure world) :
    Ensures P (ask replies) (fun _ => P) raises := by
  intro world met
  unfold ask
  cases replies world.awaits with
  | ok value => exact steady world _ met
  | error failure => exact fails failure _ (steady world _ met)

theorem raise_ensures {code message : String} {operation : Option Operation} {retryable : Bool}
    {returns : α → World → Prop} (fails : ∀ failure world, P world → raises failure world) :
    Ensures P (raise code message operation retryable : NativeProgram α) returns raises :=
  throw_ensures _ fun world met => fails _ world met

theorem lifted_ensures {value : Except ExecutionError α}
    (fails : ∀ failure world, P world → raises failure world) :
    Ensures P (lifted value) (fun result world => value = .ok result ∧ P world) raises := by
  intro world met
  cases value with
  | ok result => exact ⟨rfl, met⟩
  | error error => exact fails _ world met

/-- What has just been read is the world. -/
theorem read_ensures {β : Type} {next : World → NativeProgram β} {returns : β → World → Prop}
    (goes : ∀ read, Ensures (fun world => world = read ∧ P world) (next read) returns raises) :
    Ensures P (get >>= next) returns raises := by
  apply bind_ensures (fun read world => world = read ∧ P world)
  · exact get_ensures fun world met => ⟨rfl, met⟩
  · exact goes

/-- What has just been read is the memory and the store, as long as these do not change. -/
theorem memory_ensures {β : Type} {next : World → NativeProgram β} {returns : β → World → Prop}
    (goes : ∀ read, Ensures (fun world => (world.memory = read.memory ∧ world.store = read.store) ∧ P world)
      (next read) returns raises) :
    Ensures P (get >>= next) returns raises := by
  apply read_ensures
  intro read
  apply ensures_imp (goes read)
  · rintro world ⟨rfl, met⟩
    exact ⟨⟨rfl, rfl⟩, met⟩
  · exact fun _ _ => id
  · exact fun _ _ => id

theorem handleAll_ensures {program : NativeProgram α} {handler : Failure → NativeProgram α}
    {returns : α → World → Prop} {fails : Failure → World → Prop}
    (spec : Ensures P program returns fails) (crashes : ∀ world, fails .crashed world → raises .crashed world)
    (handles : ∀ failure, Ensures (fails failure) (handler failure) returns raises) :
    Ensures P (handleAll program handler) returns raises := by
  apply handle_ensures spec
  intro failure
  split
  next gone =>
    subst gone
    exact throw_ensures _ crashes
  next => exact handles failure

end

/-- Whatever is raised leaves the invariant. -/
def Fails : Failure → World → Prop := fun _ => Kept

variable {outside : Outside}

/-- A save keeps what is known of the memory, and on return the memory is what was saved. -/
theorem save_ensures {M : Saved → List Archive → List Happened → Prop} :
    Ensures (fun world => Kept world ∧ M world.memory world.store world.history) (save outside)
      (fun _ world => (Kept world ∧ M world.memory world.store world.history) ∧
        world.checkpoint = some world.memory)
      (fun _ world => Kept world ∧ M world.memory world.store world.history) := by
  rintro world ⟨kept, known⟩
  unfold save
  cases outside.save world.awaits with
  | saved => exact ⟨⟨kept.saved, known⟩, rfl⟩
  | raised written failure =>
    cases written with
    | true => exact ⟨kept.saved, known⟩
    | false => exact ⟨kept, known⟩

theorem save_calm : Ensures Calm (save outside) (fun _ => Calm) Fails :=
  ensures_imp (save_ensures (M := fun saved _ _ => saved.state.pendingOperation = none)) (fun _ => id)
    (fun _ _ done => done.1) fun _ _ failed => failed.1

/-- The mark of an operation is saved before the operation begins. -/
theorem save_marked {operation : Operation} :
    Ensures (fun world => Kept world ∧ world.state.pendingOperation = some operation ∧
        (∀ effect ∈ world.history, effect.closed) ∧ Accounts world.store world.memory world.history)
      (save outside) (fun _ => Marked operation) Fails := by
  apply ensures_imp (save_ensures (M := fun saved store history =>
    saved.state.pendingOperation = some operation ∧ (∀ effect ∈ history, effect.closed) ∧
      Accounts store saved history))
  · exact fun _ met => met
  · rintro _ world ⟨⟨kept, pending, closed, accounts⟩, saved⟩
    refine ⟨kept, pending, fun other member => ?_, closed, accounts⟩
    rw [saved, Option.mem_some] at member
    rw [← member]
    exact pending
  · exact fun _ _ failed => failed.1

/-- A change of what is not accounted for. -/
theorem modify_calm {change : World → World} {raises : Failure → World → Prop}
    (same : ∀ world, Same world.memory (change world).memory)
    (aside : ∀ world, (change world).checkpoint = world.checkpoint ∧ (change world).store = world.store ∧
      (change world).history = world.history) :
    Ensures Calm (modify change : NativeProgram Unit) (fun _ => Calm) raises := by
  apply modify_ensures
  rintro world ⟨kept, clear⟩
  obtain ⟨checkpoint, store, history⟩ := aside world
  refine ⟨?_, (same world).pending.trans clear⟩
  rw [Kept, checkpoint, store, history]
  exact kept.same (same world)

theorem changeState_calm {change : NativeState → NativeState} {raises : Failure → World → Prop}
    (same : ∀ session state, Same ⟨session, state⟩ ⟨session, change state⟩) :
    Ensures Calm (changeState change) (fun _ => Calm) raises :=
  modify_calm (fun _ => same _ _) fun _ => ⟨rfl, rfl, rfl⟩

theorem changeSession_calm {change : NativeSession → NativeSession} {raises : Failure → World → Prop}
    (same : ∀ session state, Same ⟨session, state⟩ ⟨change session, state⟩) :
    Ensures Calm (changeSession change) (fun _ => Calm) raises :=
  modify_calm (fun _ => same _ _) fun _ => ⟨rfl, rfl, rfl⟩

theorem ask_calm {α : Type} {replies : Nat → Reply α} : Ensures Calm (ask replies) (fun _ => Calm) Fails :=
  ask_ensures (fun _ _ calm => calm) fun _ _ calm => calm.1

theorem raise_calm {α : Type} {code message : String} {operation : Option Operation} {retryable : Bool}
    {returns : α → World → Prop} :
    Ensures Calm (raise code message operation retryable : NativeProgram α) returns Fails :=
  raise_ensures fun _ _ calm => calm.1

/-- A telemetry event keeps every phase of the loop. -/
theorem emitTelemetry_ensures {P : World → Prop} {raises : Failure → World → Prop}
    (steady : ∀ world awaits, P world → P { world with awaits })
    (fails : ∀ failure world, P world → raises failure world) :
    Ensures P (emitTelemetry outside) (fun _ => P) raises := by
  apply handle_ensures (ask_ensures steady fun _ _ => id)
  intro failure
  split
  · exact pure_ensures () fun _ => id
  · exact throw_ensures _ fun world met => fails _ world met

theorem emitTelemetry_calm : Ensures Calm (emitTelemetry outside) (fun _ => Calm) Fails :=
  emitTelemetry_ensures (fun _ _ calm => calm) fun _ _ calm => calm.1

/-! ### Boundaries -/

theorem calm_bind {α β : Type} {first : NativeProgram α} {next : α → NativeProgram β}
    {returns : β → World → Prop} (begins : Ensures Calm first (fun _ => Calm) Fails)
    (goes : ∀ value, Ensures Calm (next value) returns Fails) : Ensures Calm (first >>= next) returns Fails :=
  bind_ensures _ begins goes

/-- Reading the world changes nothing. -/
theorem calm_read {α : Type} {next : World → NativeProgram α} {returns : α → World → Prop}
    (goes : ∀ read, Ensures Calm (next read) returns Fails) : Ensures Calm (get >>= next) returns Fails :=
  read_ensures fun read => ensures_imp (goes read) (fun _ met => met.2) (fun _ _ => id) fun _ _ => id

theorem pure_calm {α : Type} (value : α) :
    Ensures Calm (pure value : NativeProgram α) (fun _ => Calm) Fails :=
  pure_ensures value fun _ => id

theorem completeVerified_calm : Ensures Calm (completeVerified outside) (fun _ => Calm) Fails := by
  unfold completeVerified
  apply calm_bind
  · exact changeSession_calm fun _ _ => {}
  intro _
  apply calm_bind
  · exact changeState_calm fun _ _ => {}
  intro _
  apply calm_bind save_calm
  intro _
  exact calm_bind emitTelemetry_calm fun _ => pure_calm _

theorem answerRequest_calm (text : String) (request : Option Request) :
    Ensures Calm (answerRequest outside text request) (fun _ => Calm) Fails := by
  cases request with
  | none => exact pure_calm none
  | some request =>
    cases request with
    | complete reason =>
      rw [answerRequest]
      split
      · apply calm_bind
        · exact changeState_calm fun _ _ => {}
        intro _
        apply calm_bind
        · exact changeSession_calm fun _ _ => {}
        intro _
        exact calm_bind save_calm fun _ => pure_calm _
      · exact raise_calm
    | handOff reason =>
      rw [answerRequest]
      split
      · exact raise_calm
      · apply calm_bind
        · exact changeSession_calm fun _ _ => {}
        intro _
        exact calm_bind save_calm fun _ => pure_calm _

theorem maybeHandoff_calm (text : String) :
    Ensures Calm (maybeHandoff outside text) (fun _ => Calm) Fails := by
  unfold maybeHandoff
  split
  · exact pure_calm none
  · exact calm_bind ask_calm (answerRequest_calm text)

section

variable [ContentHash]

theorem receiveBatch_calm (batch : Batch) :
    Ensures Calm (receiveBatch outside batch) (fun _ => Calm) Fails := by
  unfold receiveBatch
  apply calm_read
  intro read
  dsimp only
  split
  · exact pure_calm ()
  · apply calm_bind
    · exact changeState_calm fun _ _ => {}
    · exact fun _ => save_calm

theorem receive_calm {changed : NativeProgram Unit} (again : Ensures Calm changed (fun _ => Calm) Fails) :
    Ensures Calm (receive outside changed) (fun _ => Calm) Fails := by
  unfold receive
  apply calm_read
  intro read
  split
  · apply calm_bind ask_calm
    intro batch
    cases batch with
    | none => exact pure_calm ()
    | some batch =>
      apply calm_bind (receiveBatch_calm batch)
      intro _
      apply calm_bind ask_calm
      intro accepted
      split
      · exact pure_calm ()
      · exact again
  · exact pure_calm ()

theorem receiveUpdates_calm : Ensures Calm (receiveUpdates outside) (fun _ => Calm) Fails :=
  receive_calm (receive_calm raise_calm)

theorem elide_calm : Ensures Calm elide (fun _ => Calm) Fails := by
  apply changeState_calm
  intro session state
  split
  · unfold NativeLineage.elideBlock
    split
    · exact {}
    · exact {}
  · exact {}

end

theorem receiveTurnNote_calm : Ensures Calm (receiveTurnNote outside) (fun _ => Calm) Fails := by
  unfold receiveTurnNote
  apply calm_read
  intro read
  split
  · apply calm_bind ask_calm
    intro note
    cases note with
    | none => exact pure_calm ()
    | some note =>
      dsimp only
      split
      · exact raise_calm
      · exact changeState_calm fun _ _ => {}
  · exact pure_calm ()

/-! ### Requests -/

theorem prepareRequest_calm : Ensures Calm (prepareRequest outside) (fun _ => Calm) Fails := by
  unfold prepareRequest
  apply calm_bind ask_calm
  intro plan
  cases plan with
  | reserve reserved => exact pure_calm _
  | rejected => exact calm_bind save_calm fun _ => raise_calm
  | exhausted => exact raise_calm
  | pressed =>
    apply calm_read
    intro read
    split
    · apply calm_bind save_calm
      intro _
      apply calm_bind emitTelemetry_calm
      intro _
      apply calm_bind (maybeHandoff_calm "")
      intro handoff
      cases handoff with
      | some result => exact pure_calm _
      | none => exact raise_calm
    · exact raise_calm

theorem keys_of_operation {first second : Happened} (same : first.operation = second.operation) :
    dispatchedKeys [first] = dispatchedKeys [second] := by
  cases first <;> cases second <;> simp_all [Happened.operation, dispatchedKeys]

theorem Accounts.append {store : List Archive} {saved : Saved} {before : List Happened} {next : Happened}
    (accounts : Accounts store saved before) (free : usages [next] = [])
    (unanswered : ∀ key identity result, next ≠ .dispatched key identity (some result)) :
    Accounts store saved (before ++ [next]) := by
  have same : usages (before ++ [next]) = usages before := by
    rw [usages, List.filterMap_append]
    exact (congrArg (usages before ++ ·) free).trans (List.append_nil _)
  constructor
  · rw [same]
    exact accounts.turns
  · rw [same]
    exact accounts.inputTokens
  · rw [same]
    exact accounts.outputTokens
  · intro key identity result member
    rcases List.mem_append.mp member with earlier | last
    · exact accounts.kept key identity result earlier
    · exact absurd (List.mem_singleton.mp last).symm (unanswered key identity result)

/-- The last effect gets on in its operation. -/
theorem becomes_flying {operation : Operation} {happened : Happened} {raises : Failure → World → Prop}
    (own : happened.operation = operation) :
    Ensures (Flying operation) (becomes happened) (fun _ => Flying operation) raises := by
  apply modify_ensures
  rintro world ⟨kept, pending, named, before, last, split, name, closed, accounts⟩
  have right : Right world.memory world.checkpoint world.store (before ++ [happened]) := by
    rw [Kept, split] at kept
    apply kept.flying closed
    · rw [own]
      exact pending
    · rw [own]
      exact named
    · exact keys_of_operation (own.trans name.symm)
    · exact kept.loads
  have shape : world.history.dropLast ++ [happened] = before ++ [happened] := by
    rw [split, List.dropLast_concat]
  refine ⟨?_, pending, named, before, happened, shape, own, closed, accounts⟩
  rw [Kept, shape]
  exact right

/-- The reservation of a generation is given back. -/
theorem releases_calm (number : Nat) {raises : Failure → World → Prop} :
    Ensures (Flying (.generation number))
      (do
        becomes (.generation number .released)
        setPending none)
      (fun _ => Calm) raises := by
  rintro world ⟨kept, pending, named, before, last, split, name, closed, accounts⟩
  have shape : world.history.dropLast ++ [Happened.generation number .released] =
      before ++ [.generation number .released] := by
    rw [split, List.dropLast_concat]
  show Calm { world with
    history := world.history.dropLast ++ [.generation number .released]
    state := { world.state with pendingOperation := none } }
  refine ⟨?_, rfl⟩
  rw [Kept, split] at kept
  rw [Kept, shape]
  apply kept.closes closed
  · exact trivial
  · exact named
  · exact keys_of_operation name.symm
  · apply Accounts.append
    · exact ⟨accounts.turns, accounts.inputTokens, accounts.outputTokens, accounts.kept⟩
    · rfl
    · intro key identity result same
      cases same
  · exact kept.loads

theorem abandonRefused_calm (number : Nat) :
    Ensures (Flying (.generation number)) (abandonRefused outside number) (fun _ => Calm) Fails := by
  unfold abandonRefused
  apply bind_ensures (fun _ => Flying (.generation number))
  · exact ask_ensures (fun _ _ flying => flying) fun _ _ flying => flying.1
  · exact fun _ => releases_calm number

theorem finish_flying (number : Nat) (answer : Answer) :
    Ensures (Flying (.generation number)) (finish outside number answer)
      (fun _ => Flying (.generation number)) Fails := by
  have refused : Ensures (Flying (.generation number))
      (becomes (.generation number .refused)) (fun _ => Flying (.generation number)) Fails :=
    becomes_flying rfl
  cases answer with
  | response response =>
    exact bind_ensures _ (becomes_flying rfl) fun _ => pure_ensures _ fun _ => id
  | givenUp =>
    apply bind_ensures _ refused
    intro _
    exact bind_ensures _ (abandonRefused_calm number) fun _ => raise_calm
  | rejected =>
    apply bind_ensures _ refused
    intro _
    exact bind_ensures _ (abandonRefused_calm number) fun _ => raise_calm
  | raised failure => exact throw_ensures _ fun _ flying => flying.1

theorem resend_flying (number : Nat) (answer : Answer) (waits : List (Reply Unit)) :
    Ensures (Flying (.generation number)) (resend outside number answer waits)
      (fun _ => Flying (.generation number)) Fails := by
  induction waits with
  | nil => exact bind_ensures _ (becomes_flying rfl) fun _ => finish_flying number answer
  | cons wait waits ih =>
    cases wait with
    | ok _ =>
      apply bind_ensures (fun _ => Flying (.generation number)) (becomes_flying rfl)
      intro _
      exact bind_ensures (fun _ => Flying (.generation number)) (becomes_flying rfl) fun _ => ih
    | error failure =>
      apply bind_ensures (fun _ => Flying (.generation number)) (becomes_flying rfl)
      intro _
      apply bind_ensures (fun _ => Flying (.generation number)) (becomes_flying rfl)
      intro _
      have interrupted : Ensures (Flying (.generation number)) (throw failure : NativeProgram Response)
          (fun _ => Flying (.generation number)) (fun _ => Flying (.generation number)) :=
        throw_ensures _ fun _ => id
      apply handleAll_ensures interrupted
      · exact fun _ flying => flying.1
      · intro failure
        apply bind_ensures _ (abandonRefused_calm number)
        exact fun _ => throw_ensures _ fun _ calm => calm.1

/-- The reservation of a marked generation is announced. -/
theorem reserves_flying (number : Nat) {raises : Failure → World → Prop} :
    Ensures (Marked (.generation number)) (begins (.generation number .reserved))
      (fun _ => Flying (.generation number)) raises := by
  apply modify_ensures
  rintro world ⟨kept, pending, named, closed, accounts⟩
  refine ⟨?_, pending, named, world.history, _, rfl, rfl, closed, accounts⟩
  constructor
  · exact Sound.last closed (agrees_of_mark pending) named
  · have once := kept.once
    rwa [dispatchedKeys, List.filterMap_append, List.filterMap_cons, List.filterMap_nil, List.append_nil]
  · exact kept.loads
  · exact kept.savedLoads

theorem clears_calm {operation : Operation} {raises : Failure → World → Prop} :
    Ensures (Marked operation) (setPending none) (fun _ => Calm) raises :=
  modify_ensures _ fun _ marked => marked.cleared

theorem reserve_flying (number : Nat) :
    Ensures (Marked (.generation number)) (reserve outside number)
      (fun _ => Flying (.generation number)) Fails := by
  unfold reserve
  have announced : Ensures (Marked (.generation number))
      (do
        emitTelemetry outside
        emit outside
        begins (.generation number .reserved))
      (fun _ => Flying (.generation number)) (fun _ => Marked (.generation number)) := by
    apply bind_ensures (fun _ => Marked (.generation number))
    · exact emitTelemetry_ensures (fun _ _ marked => marked) fun _ _ => id
    intro _
    apply bind_ensures (fun _ => Marked (.generation number))
    · exact ask_ensures (fun _ _ marked => marked) fun _ _ => id
    exact fun _ => reserves_flying number
  apply handleAll_ensures announced
  · exact fun _ marked => marked.1
  · intro failure
    apply bind_ensures (fun _ => Calm) clears_calm
    intro _
    exact calm_bind save_calm fun _ => throw_ensures _ fun _ calm => calm.1

theorem isLate_ensures {P : World → Prop} {raises : Failure → World → Prop}
    (steady : ∀ world awaits, P world → P { world with awaits }) :
    Ensures P (isLate outside) (fun _ => P) raises :=
  fun world met => steady world _ met

theorem nextSending_ensures {P : World → Prop} {raises : Failure → World → Prop}
    (steady : ∀ world awaits, P world → P { world with awaits }) :
    Ensures P (nextSending outside) (fun _ => P) raises :=
  fun world met => steady world _ met

theorem sendMarked_flying (number : Nat) :
    Ensures (Marked (.generation number)) (sendMarked outside number)
      (fun _ => Flying (.generation number)) Fails := by
  unfold sendMarked
  apply bind_ensures (fun _ => Marked (.generation number)) (isLate_ensures fun _ _ marked => marked)
  intro late
  split
  · exact bind_ensures (fun _ => Calm) clears_calm fun _ => raise_calm
  apply bind_ensures (fun _ => Flying (.generation number)) (reserve_flying number)
  intro _
  apply bind_ensures (fun _ => Flying (.generation number)) (isLate_ensures fun _ _ flying => flying)
  intro late
  split
  · exact bind_ensures (fun _ => Calm) (abandonRefused_calm number) fun _ => raise_calm
  · apply bind_ensures (fun _ => Flying (.generation number)) (nextSending_ensures fun _ _ flying => flying)
    exact fun sending => resend_flying number sending.answer sending.waits

/-- An operation is marked before the mark is saved. -/
theorem marks_ensures (operation : Operation) {raises : Failure → World → Prop} :
    Ensures Calm (setPending (some operation))
      (fun _ world => Kept world ∧ world.state.pendingOperation = some operation ∧
        (∀ effect ∈ world.history, effect.closed) ∧ Accounts world.store world.memory world.history)
      raises := by
  apply modify_ensures
  intro world calm
  have accounts := calm.accounts
  refine ⟨⟨?_, calm.1.once, calm.1.loads, calm.1.savedLoads⟩, rfl, calm.closed, ?_⟩
  · apply calm.1.sound.replace
    apply agrees_of_closed calm.closed
    intro unmarked
    cases unmarked
  · exact ⟨accounts.turns, accounts.inputTokens, accounts.outputTokens, accounts.kept⟩

/-- What a send leaves: the end of the session, or an answered generation. -/
def Sent : RuntimeResult ⊕ Nat × Response → World → Prop
  | .inl _ => Calm
  | .inr (number, _) => Flying (.generation number)

theorem send_sent : Ensures Calm (send outside) Sent Fails := by
  unfold send
  apply calm_bind ask_calm
  intro _
  apply calm_bind ask_calm
  intro verified
  split
  · exact calm_bind completeVerified_calm fun _ => pure_ensures _ fun _ => id
  apply calm_read
  intro read
  apply bind_ensures _ (marks_ensures _)
  intro _
  apply bind_ensures _ save_marked
  intro _
  apply bind_ensures _ (sendMarked_flying read.awaits)
  exact fun response => pure_ensures _ fun _ => id

end PhysHarness.Native
