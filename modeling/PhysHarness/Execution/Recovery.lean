import PhysHarness.Execution.Stagnation
import PhysHarness.Lib.Stages

/-!
# One recovery for each progress

The flags of the state are the stages of one recovery: none, requested, attempted, exhausted. Between two
observations of new work a stage is never left downwards, a recovery is requested only where the second
stage is reached, and exhausted only where the last one is. A handoff alone leads from the one to the other.

## Main result

`recovery_once`: for every run of observations and handoffs that starts with the empty state.
-/
namespace PhysHarness
namespace Stagnation

open Outcome (bind_ok)
open Python (Record FloatValue Key key lookup)
open Transition (run Along)

/-! ### Runs -/

inductive Event where
  | observe (name : String) (arguments result : Record)
  | successor

def Event.isObserve : Event → Bool
  | .observe _ _ _ => true
  | .successor => false

section

variable [FloatValue] [HexHash]

/-- An event that fails leaves the state. -/
def outcome (state : State) : Event → State × Option Signal
  | .observe name arguments result => (observe state name arguments result).getD (state, none)
  | .successor =>
    match successorState state with
    | .ok next => (next, none)
    | .error _ => (state, none)

def step (state : State) (event : Event) : State := (outcome state event).1

def signal (state : State) (event : Event) : Option Signal := (outcome state event).2

/-- The observation counts as new work. -/
def newWork (state : State) : Event → Bool
  | .observe name arguments result =>
    !unavailable result && terminalRead name arguments result = some false &&
      substantive name arguments result = some true &&
      decide (workIdentity name arguments result ∉ state.seenWork.getD [])
  | .successor => false

/-! ### Stages of a recovery -/

/-- Never requested and attempted at once, and exhausted only when attempted. -/
structure Flags (state : State) : Prop where
  apart : ¬ (state.recoveryRequested.getD false = true ∧ state.recoveryAttempted.getD false = true)
  spent : state.exhausted.getD false = true → state.recoveryAttempted.getD false = true

def stage (state : State) : Nat :=
  if state.exhausted.getD false then 3
  else if state.recoveryAttempted.getD false then 2
  else if state.recoveryRequested.getD false then 1
  else 0

/-- What an event other than new work can do to a recovery. -/
inductive Moves (before after : State) : Event → Option Signal → Prop where
  | stays {event : Event} {emitted : Option Signal} : stage after = stage before →
      emitted ≠ some .recoveryRequested → emitted ≠ some .recoveryExhausted →
      Moves before after event emitted
  | requests {name : String} {arguments result : Record} : stage before = 0 → stage after = 1 →
      Moves before after (.observe name arguments result) (some .recoveryRequested)
  | attempts : stage before = 1 → stage after = 2 → Moves before after .successor none
  | exhausts {name : String} {arguments result : Record} : stage before = 2 → stage after = 3 →
      Moves before after (.observe name arguments result) (some .recoveryExhausted)

omit [FloatValue] [HexHash] in
/-- States with the same recovery flags are in one stage. -/
theorem stage_congr {first second : State}
    (requested : second.recoveryRequested = first.recoveryRequested)
    (attempted : second.recoveryAttempted = first.recoveryAttempted)
    (exhausted : second.exhausted = first.exhausted) :
    stage second = stage first ∧ (Flags first → Flags second) := by
  constructor
  · rw [stage, stage, requested, attempted, exhausted]
  · rintro ⟨apart, spent⟩
    exact ⟨by rwa [requested, attempted], by rwa [exhausted, attempted]⟩

omit [FloatValue] [HexHash] in
theorem warn_stage (state : State) (counter : Counter) :
    stage (state.warn counter) = stage state ∧ (Flags state → Flags (state.warn counter)) := by
  cases counter <;> exact stage_congr rfl rfl rfl

omit [FloatValue] [HexHash] in
theorem escalate_moves {state : State} (flags : Flags state) (repeats : Nat) (counter : Counter)
    (name : String) (arguments result : Record) :
    Flags (escalate state repeats counter).1 ∧
      Moves state (escalate state repeats counter).1 (.observe name arguments result)
        (escalate state repeats counter).2 := by
  unfold escalate
  split
  next spent =>
    split
    next => exact ⟨flags, .stays rfl nofun nofun⟩
    next fresh =>
      refine ⟨⟨flags.apart, fun _ => spent.1⟩, .exhausts ?_ rfl⟩
      rw [stage, if_neg fresh, if_pos spent.1]
  split
  next calm =>
    obtain ⟨-, unrequested, unattempted⟩ := calm
    have unspent : ¬ state.exhausted.getD false = true := fun exhausted =>
      Bool.false_ne_true (unattempted.symm.trans (flags.spent exhausted))
    have plain : ¬ state.recoveryAttempted.getD false = true := by rw [unattempted]; exact Bool.false_ne_true
    refine ⟨⟨fun both => plain both.2, flags.spent⟩, .requests ?_ ?_⟩
    · rw [stage, if_neg unspent, if_neg plain, unrequested]
      rfl
    · rw [stage, if_neg unspent, if_neg plain]
      rfl
  split
  · obtain ⟨same, kept⟩ := warn_stage state counter
    exact ⟨kept flags, .stays same nofun nofun⟩
  · exact ⟨flags, .stays rfl nofun nofun⟩

omit [FloatValue] [HexHash] in
/-- The moves depend on the stage alone. -/
theorem Moves.of_stage {before between after : State} {event : Event} {emitted : Option Signal}
    (moves : Moves between after event emitted) (same : stage between = stage before) :
    Moves before after event emitted := by
  cases moves with
  | stays equal calm quiet => exact .stays (equal.trans same) calm quiet
  | requests first second => exact .requests (same ▸ first) second
  | attempts first second => exact .attempts (same ▸ first) second
  | exhausts first second => exact .exhausts (same ▸ first) second

/-- What an observation that does not count as new work does. -/
inductive Observes (state : State) (name : String) (arguments result : Record) :
    Option (State × Option Signal) → Prop where
  | fails : Observes state name arguments result none
  | unavailable : Observes state name arguments result
      (some (escalate { state with unavailableCalls := some (state.unavailableCalls.getD 0 + 1) }
        (state.unavailableCalls.getD 0 + 1) .unavailable))
  | reads : Observes state name arguments result
      (some (escalate
        { state with
          readCounts := some
            (countRead (state.readCounts.getD []) (fingerprint name arguments result)).1 }
        (countRead (state.readCounts.getD []) (fingerprint name arguments result)).2 .reads))
  | repeats : Observes state name arguments result
      (some ({ state with seenWork := some (state.seenWork.getD []) }, none))
  | passes : Observes state name arguments result (some (state, none))

theorem observe_cases (state : State) (name : String) (arguments result : Record) :
    (newWork state (.observe name arguments result) = false ∧
      Observes state name arguments result (observe state name arguments result)) ∨
    (newWork state (.observe name arguments result) = true ∧
      workIdentity name arguments result ∉ state.seenWork.getD [] ∧
      observe state name arguments result = some (progressed state (state.seenWork.getD [])
        (workIdentity name arguments result), none)) := by
  cases unknown : unavailable result with
  | true =>
    refine .inl ⟨by simp [newWork, unknown], ?_⟩
    rw [observe, if_pos unknown]
    exact .unavailable
  | false =>
    rw [observe, if_neg (by simp [unknown])]
    cases read : terminalRead name arguments result with
    | none => exact .inl ⟨by simp [newWork, read], .fails⟩
    | some again =>
      cases again with
      | true => exact .inl ⟨by simp [newWork, read], .reads⟩
      | false =>
        cases other : substantive name arguments result with
        | none => exact .inl ⟨by simp [newWork, other], .fails⟩
        | some work =>
          cases work with
          | false => exact .inl ⟨by simp [newWork, other], .passes⟩
          | true =>
            by_cases known : workIdentity name arguments result ∈ state.seenWork.getD []
            · refine .inl ⟨by simp [newWork, known], ?_⟩
              simp only [Option.bind_eq_bind, Option.bind_some, Bool.false_eq_true, if_false, if_true,
                if_pos known]
              exact .repeats
            · refine .inr ⟨by simp [newWork, unknown, read, other, known], known, ?_⟩
              simp only [Option.bind_eq_bind, Option.bind_some, Bool.false_eq_true, if_false, if_true,
                if_neg known]
              rfl

omit [HexHash] in
/-- A handoff turns a request into an attempt. -/
theorem successorState_moves {state next : State} (flags : Flags state)
    (consumed : successorState state = .ok next) : Flags next ∧ Moves state next .successor none := by
  obtain ⟨_, -, consumed⟩ := bind_ok.mp consumed
  dsimp only at consumed
  split at consumed
  next requested =>
    obtain rfl := Except.ok.inj consumed
    have unattempted : ¬ state.recoveryAttempted.getD false = true := fun attempted =>
      flags.apart ⟨requested, attempted⟩
    have unspent : ¬ state.exhausted.getD false = true := fun spent => unattempted (flags.spent spent)
    refine ⟨⟨nofun, fun _ => rfl⟩, .attempts ?_ ?_⟩
    · rw [stage, if_neg unspent, if_neg unattempted, if_pos requested]
    · rw [stage, if_neg unspent]
      rfl
  next =>
    obtain rfl := Except.ok.inj consumed
    obtain ⟨same, kept⟩ := @stage_congr state
      { state with unavailableCalls := none, unavailableWarned := none } rfl rfl rfl
    exact ⟨kept flags, .stays same nofun nofun⟩

/-- An event that is no new work moves the recovery on by a stage at most. -/
theorem step_moves {state : State} {event : Event} (flags : Flags state)
    (idle : newWork state event = false) :
    Flags (step state event) ∧ Moves state (step state event) event (signal state event) := by
  unfold step signal
  cases event with
  | successor =>
    rw [outcome]
    cases consumed : successorState state with
    | ok next => exact successorState_moves flags consumed
    | error _ => exact ⟨flags, .stays rfl nofun nofun⟩
  | observe name arguments result =>
    rw [outcome]
    rcases observe_cases state name arguments result with ⟨-, observed⟩ | ⟨new, -⟩
    · generalize observe state name arguments result = found at observed
      cases observed with
      | fails => exact ⟨flags, .stays rfl nofun nofun⟩
      | unavailable =>
        obtain ⟨same, kept⟩ := @stage_congr state
          { state with unavailableCalls := some (state.unavailableCalls.getD 0 + 1) } rfl rfl rfl
        obtain ⟨flagged, moves⟩ := escalate_moves (kept flags) _ .unavailable name arguments result
        exact ⟨flagged, moves.of_stage same⟩
      | reads =>
        let counts := (countRead (state.readCounts.getD []) (fingerprint name arguments result)).1
        obtain ⟨same, kept⟩ := @stage_congr state { state with readCounts := some counts } rfl rfl rfl
        obtain ⟨flagged, moves⟩ := escalate_moves (kept flags) _ .reads name arguments result
        exact ⟨flagged, moves.of_stage same⟩
      | repeats =>
        obtain ⟨same, kept⟩ := @stage_congr state
          { state with seenWork := some (state.seenWork.getD []) } rfl rfl rfl
        exact ⟨kept flags, .stays same nofun nofun⟩
      | passes => exact ⟨flags, .stays rfl nofun nofun⟩
    · rw [new] at idle
      cases idle

/-- New work ends a recovery without a signal. -/
theorem step_newWork {state : State} {event : Event} (new : newWork state event = true) :
    Flags (step state event) ∧ stage (step state event) = 0 ∧ signal state event = none := by
  cases event with
  | successor => cases new
  | observe name arguments result =>
    rcases observe_cases state name arguments result with ⟨idle, -⟩ | ⟨-, -, works⟩
    · rw [new] at idle
      cases idle
    · have next : outcome state (.observe name arguments result) = (progressed state
          (state.seenWork.getD []) (workIdentity name arguments result), none) := by
        rw [outcome, works]
        rfl
      rw [step, signal, next]
      exact ⟨⟨nofun, nofun⟩, rfl, rfl⟩

theorem step_flags {state : State} (flags : Flags state) (event : Event) : Flags (step state event) := by
  cases new : newWork state event with
  | true => exact (step_newWork new).1
  | false => exact (step_moves flags new).1

/-! ### Bounds -/

/-- What the state keeps after as many observations. -/
structure Within (n : Nat) (state : State) : Prop where
  epoch : state.progressEpoch.getD 0 ≤ n
  prints : ∀ count ∈ state.readCounts.getD [], isSha256 count.1 = true ∧ 1 ≤ count.2 ∧ count.2 ≤ n
  few : (state.readCounts.getD []).length ≤ maxFingerprints
  distinct : (state.seenWork.getD []).Nodup
  recent : (state.seenWork.getD []).length ≤ maxFingerprints
  works : ∀ work ∈ state.seenWork.getD [], isSha256 work = true
  calls : state.unavailableCalls.getD 0 ≤ n

omit [FloatValue] in
theorem digest_isSha256 (value : Json) : isSha256 (digest value) = true := HexHash.hex _

omit [FloatValue] in
theorem workIdentity_isSha256 (name : String) (arguments result : Record) :
    isSha256 (workIdentity name arguments result) = true := by
  unfold workIdentity
  repeat' split
  all_goals exact digest_isSha256 _

omit [FloatValue] [HexHash] in
/-- Counting a read keeps the table of the reads within its bounds. -/
theorem countRead_within {n : Nat} {counts : List (Digest × Nat)} {print : Digest}
    (hex : isSha256 print = true)
    (prints : ∀ count ∈ counts, isSha256 count.1 = true ∧ 1 ≤ count.2 ∧ count.2 ≤ n)
    (few : counts.length ≤ maxFingerprints) :
    (∀ count ∈ (countRead counts print).1, isSha256 count.1 = true ∧ 1 ≤ count.2 ∧ count.2 ≤ n + 1) ∧
      (countRead counts print).1.length ≤ maxFingerprints := by
  rw [countRead]
  dsimp only
  generalize room : (if print ∉ counts.map Prod.fst ∧ counts.length = maxFingerprints then counts.tail
    else counts) = kept
  have inside : ∀ count ∈ kept, count ∈ counts := by
    intro count member
    rw [← room] at member
    split at member
    · exact List.mem_of_mem_tail member
    · exact member
  constructor
  · intro count member
    rcases Dict.mem_set.mp member with rfl | ⟨old, -⟩
    · refine ⟨hex, Nat.le_add_left _ _, Nat.add_le_add_right ?_ 1⟩
      cases found : Dict.get kept print with
      | none => exact Nat.zero_le _
      | some repeats => exact (prints _ (inside _ (Dict.mem_of_get found))).2.2
    · obtain ⟨own, least, most⟩ := prints count (inside count old)
      exact ⟨own, least, Nat.le_succ_of_le most⟩
  · by_cases known : print ∈ kept.map Prod.fst
    · have length := congrArg List.length (Dict.keys_set known ((Dict.get kept print).getD 0 + 1))
      rw [List.length_map, List.length_map] at length
      rw [length, ← room]
      split
      · rw [List.length_tail]
        omega
      · exact few
    · rw [Dict.set, if_neg known, List.length_append, List.length_singleton, ← room]
      split
      next full =>
        rw [List.length_tail, full.2]
        exact Nat.le_refl _
      next free =>
        have unknown : print ∉ counts.map Prod.fst := by rwa [← room, if_neg free] at known
        have less : counts.length ≠ maxFingerprints := fun full => free ⟨unknown, full⟩
        omega

omit [FloatValue] [HexHash] in
theorem Within.mono {n m : Nat} {state : State} (within : Within n state) (le : n ≤ m) :
    Within m state :=
  ⟨within.epoch.trans le,
    fun count member => (within.prints count member).imp_right (And.imp_right fun most => most.trans le),
    within.few, within.distinct, within.recent, within.works, within.calls.trans le⟩

omit [FloatValue] [HexHash] in
/-- A signal changes flags only. -/
theorem escalate_within {n : Nat} {state : State} (within : Within n state) (repeats : Nat)
    (counter : Counter) : Within n (escalate state repeats counter).1 := by
  obtain ⟨epoch, prints, few, distinct, recent, works, calls⟩ := within
  unfold escalate
  split
  · split <;> exact ⟨epoch, prints, few, distinct, recent, works, calls⟩
  split
  · exact ⟨epoch, prints, few, distinct, recent, works, calls⟩
  split
  · cases counter <;> exact ⟨epoch, prints, few, distinct, recent, works, calls⟩
  · exact ⟨epoch, prints, few, distinct, recent, works, calls⟩

omit [FloatValue] [HexHash] in
/-- The latest pieces of work are kept. -/
theorem progressed_within {n : Nat} {state : State} (within : Within n state) {work : Digest}
    (hex : isSha256 work = true) (new : work ∉ state.seenWork.getD []) :
    Within (n + 1) (progressed state (state.seenWork.getD []) work) := by
  obtain ⟨epoch, prints, few, distinct, recent, works, calls⟩ := within
  have all : (state.seenWork.getD [] ++ [work]).Nodup :=
    List.nodup_append.mpr ⟨distinct, List.nodup_singleton _, by
      rintro old member last there rfl
      exact new (List.mem_singleton.mp there ▸ member)⟩
  refine ⟨Nat.add_le_add_right epoch 1, nofun, Nat.zero_le _, all.sublist (List.drop_sublist _ _), ?_, ?_,
    Nat.le_succ_of_le calls⟩
  · simp only [progressed, Option.getD_some, List.length_drop]
    omega
  · intro kept member
    rcases List.mem_append.mp (List.mem_of_mem_drop member) with old | last
    · exact works kept old
    · exact List.mem_singleton.mp last ▸ hex

theorem step_within {n : Nat} {state : State} (within : Within n state) (event : Event) :
    Within (if event.isObserve then n + 1 else n) (step state event) := by
  unfold step
  cases event with
  | successor =>
    rw [outcome]
    cases consumed : successorState state with
    | error _ => exact within
    | ok next =>
      obtain ⟨epoch, prints, few, distinct, recent, works, calls⟩ := within
      obtain ⟨_, -, consumed⟩ := bind_ok.mp consumed
      dsimp only at consumed
      split at consumed
      · obtain rfl := Except.ok.inj consumed
        exact ⟨epoch, nofun, Nat.zero_le _, distinct, recent, works, Nat.zero_le _⟩
      · obtain rfl := Except.ok.inj consumed
        exact ⟨epoch, prints, few, distinct, recent, works, Nat.zero_le _⟩
  | observe name arguments result =>
    have next := within.mono (Nat.le_succ n)
    rw [outcome]
    rcases observe_cases state name arguments result with ⟨-, observed⟩ | ⟨-, new, works⟩
    · generalize observe state name arguments result = found at observed
      cases observed with
      | fails => exact next
      | unavailable =>
        refine escalate_within ?_ _ _
        exact ⟨next.epoch, next.prints, next.few, next.distinct, next.recent, next.works,
          Nat.add_le_add_right within.calls 1⟩
      | reads =>
        obtain ⟨prints, few⟩ :=
          countRead_within (digest_isSha256 _ : isSha256 (fingerprint name arguments result) = true)
            within.prints within.few
        refine escalate_within ?_ _ _
        exact ⟨next.epoch, prints, few, next.distinct, next.recent, next.works, next.calls⟩
      | repeats => exact ⟨next.epoch, next.prints, next.few, next.distinct, next.recent, next.works,
          next.calls⟩
      | passes => exact next
    · rw [works]
      exact progressed_within within (workIdentity_isSha256 name arguments result) new

/-- A run keeps the flags apart, and counts no more than it observes. -/
theorem run_within {n : Nat} {state : State} (flags : Flags state) (within : Within n state)
    (events : List Event) :
    Flags (run step state events) ∧
      Within (n + (events.filter Event.isObserve).length) (run step state events) := by
  induction events generalizing n state with
  | nil => exact ⟨flags, within⟩
  | cons event events ih =>
    obtain ⟨flagged, bounded⟩ := ih (step_flags flags event) (step_within within event)
    refine ⟨flagged, ?_⟩
    rw [Transition.run_cons, List.filter_cons]
    cases observed : event.isObserve with
    | true =>
      rw [observed, if_pos rfl] at bounded
      rw [if_pos rfl, List.length_cons]
      exact bounded.mono (by omega)
    | false =>
      rw [observed] at bounded
      exact bounded

/-! ### The state passes its check -/

omit [FloatValue] [HexHash] in
theorem get_append {first second : Record} (name : String) :
    Dict.get (first ++ second) name = (Dict.get first name).or (Dict.get second name) := by
  rw [Dict.get, Dict.get, Dict.get, List.find?_append, Option.map_or]

omit [FloatValue] [HexHash] in
theorem get_optional {α : Type} (value : Option α) (name key : String) (write : α → Json) :
    Dict.get (value.toList.map fun a => (name, write a)) key =
      if name = key then value.map write else none := by
  cases value with
  | none => simp [Dict.get]
  | some a => simp only [Dict.get, Option.toList_some, List.map_cons, List.map_nil, List.find?_cons,
      List.find?_nil]; split <;> simp_all

omit [FloatValue] [HexHash] in
/-- What is read of a dumped state. -/
theorem dump_reads (state : State) :
    getOr state.dump "progress_epoch" (.int 0) = .int (state.progressEpoch.getD 0 : Nat) ∧
    getOr state.dump "read_counts" (.obj []) =
      .obj ((state.readCounts.getD []).map fun count => (count.1, .int count.2)) ∧
    getOr state.dump "seen_work" (.arr []) = .arr ((state.seenWork.getD []).map .str) ∧
    getOr state.dump "unavailable_calls" (.int 0) = .int (state.unavailableCalls.getD 0 : Nat) ∧
    ∀ field ∈ ["warned", "recovery_requested", "recovery_attempted", "exhausted", "unavailable_warned"],
      isBool (getOr state.dump field (.bool false)) = true := by
  obtain ⟨epoch, counts, seen, warned, requested, attempted, exhausted, calls, unavailable⟩ := state
  simp only [getOr, State.dump, get_append, get_optional]
  refine ⟨?_, ?_, ?_, ?_, ?_⟩
  · cases epoch <;> simp
  · cases counts <;> simp
  · cases seen <;> simp
  · cases calls <;> simp
  · simp only [List.forall_mem_cons]
    refine ⟨?_, ?_, ?_, ?_, ?_, List.forall_mem_nil _⟩
    · cases warned <;> simp [isBool]
    · cases requested <;> simp [isBool]
    · cases attempted <;> simp [isBool]
    · cases exhausted <;> simp [isBool]
    · cases unavailable <;> simp [isBool]

omit [FloatValue] [HexHash] in
theorem dump_keys (state : State) : ∀ field ∈ state.dump, field.1 ∈ stateKeys := by
  intro field member
  simp only [State.dump, List.mem_append, List.mem_map] at member
  rcases member with (((((((member | member) | member) | member) | member) | member) | member) | member) |
    member <;>
  · obtain ⟨_, -, rfl⟩ := member
    simp [stateKeys]

omit [HexHash] in
theorem mapM_texts (texts : List String) : (texts.map Json.str).mapM key = some (texts.map Key.text) := by
  induction texts with
  | nil => rfl
  | cons text texts ih =>
    rw [List.map_cons, List.mapM_cons, ih]
    rfl

omit [HexHash] in
/-- A state within its bounds passes its check. -/
theorem validates {n : Nat} {state : State} (within : Within n state) (few : n ≤ maxCount) :
    validateState (.obj state.dump) = .ok state.dump := by
  obtain ⟨epoch, prints, fewReads, distinct, recent, works, calls⟩ := within
  obtain ⟨readEpoch, readCounts, readSeen, readCalls, flags⟩ := dump_reads state
  have counted : ∀ {least : Int} {value : Nat}, least ≤ value → value ≤ n →
      countFrom least (.int value) = true :=
    fun above below => decide_eq_true ⟨above, by exact_mod_cast below.trans few⟩
  have hexPrints : ∀ count ∈ (state.readCounts.getD []).map fun count => (count.1, Json.int count.2),
      isSha256 count.1 = true ∧ countFrom 1 count.2 = true := by
    intro count member
    obtain ⟨own, listed, rfl⟩ := List.mem_map.mp member
    obtain ⟨hex, least, most⟩ := prints own listed
    exact ⟨hex, counted (by exact_mod_cast least) most⟩
  have hexWorks : ∀ value ∈ (state.seenWork.getD []).map Json.str,
      (asText value).any isSha256 = true := by
    intro value member
    obtain ⟨work, listed, rfl⟩ := List.mem_map.mp member
    exact works work listed
  have once : ((state.seenWork.getD []).map Key.text).Nodup :=
    distinct.map fun _ _ same => Key.text.inj same
  rw [validateState, asFields_obj, Outcome.orThrow_then rfl, Outcome.require_then (dump_keys state), readEpoch,
    Outcome.require_then (counted (Int.natCast_nonneg _) epoch), readCounts, asFields_obj,
    Outcome.orThrow_then rfl, Outcome.require_then (by rwa [List.length_map]), readSeen,
    Outcome.orThrow_then (show asItems (.arr _) = some _ from rfl),
    Outcome.require_then (by rwa [List.length_map]), mapM_texts, Outcome.orThrow_then rfl,
    Outcome.require_then once, Outcome.require_then ⟨hexPrints, hexWorks⟩, Outcome.require_then flags,
    readCalls, Outcome.require_then (counted (Int.natCast_nonneg _) calls)]
  rfl

/-! ### Main result -/

/-- The event is no new work. -/
def Idle (state : State) (event : Event) : Prop := newWork state event = false

/-- The signals of a run. -/
def signals : State → List Event → List (Option Signal) := Stages.marks step signal

/-- What precedes is nothing, or ends with new work. -/
def Fresh (before : List Event) : Prop :=
  before = [] ∨ ∃ earlier work, before = earlier ++ [work] ∧ newWork (run step {} earlier) work = true

omit [FloatValue] [HexHash] in
theorem flags_empty : Flags {} := ⟨nofun, nofun⟩

omit [FloatValue] [HexHash] in
theorem within_empty : Within 0 {} :=
  ⟨Nat.zero_le _, nofun, Nat.zero_le _, List.nodup_nil, Nat.zero_le _, nofun, Nat.zero_le _⟩

theorem flags_run (events : List Event) : Flags (run step {} events) :=
  Transition.run_always Flags events flags_empty fun _ event flags => step_flags flags event

theorem stage_of_fresh {before : List Event} (fresh : Fresh before) : stage (run step {} before) = 0 := by
  rcases fresh with rfl | ⟨earlier, work, rfl, new⟩
  · rfl
  · rw [Transition.run_append]
    exact (step_newWork new).2.1

omit [FloatValue] [HexHash] in
/-- Without new work no stage is left downwards. -/
theorem Moves.le {before after : State} {event : Event} {emitted : Option Signal}
    (moves : Moves before after event emitted) : stage before ≤ stage after := by
  cases moves <;> omega

/-- A signal that is sent where a stage is reached is sent once. -/
theorem once_in_window {state : State} {window : List Event} (flags : Flags state)
    (idle : Along step Idle state window) {once : Signal}
    (level : Nat) (marked : ∀ before after event emitted, Moves before after event emitted →
      emitted = some once → stage before < level ∧ level ≤ stage after) :
    (signals state window).count (some once) ≤ 1 := by
  have few := @Stages.count_marks _ _ _ step Idle signal Flags stage _ _ (some once) level
    (fun _ event kept _ => step_flags kept event) (fun _ _ kept idle => (step_moves kept idle).2.le)
    (fun _ _ kept idle emitted => marked _ _ _ _ (step_moves kept idle).2 emitted) _ _ flags idle
  exact few.trans (by split <;> omega)

/-- A recovery that is exhausted was requested, and handed off, since the work was new. -/
theorem exhausted_after {state : State} {first : List Event} {event : Event} (flags : Flags state)
    (start : stage state = 0)
    (idle : Along step Idle state (first ++ [event]))
    (sent : signal (run step state first) event = some .recoveryExhausted) :
    ∃ asked request between later, first = asked ++ request :: between ++ .successor :: later ∧
      signal (run step state asked) request = some .recoveryRequested := by
  obtain ⟨alongFirst, here, -⟩ := Transition.along_append.mp idle
  have kept : ∀ state event, Flags state → Idle state event → Flags (step state event) :=
    fun _ event kept _ => step_flags kept event
  have flagsFirst := Transition.run_invariant Flags flags kept alongFirst
  have attempted : stage (run step state first) = 2 := by
    have moves := (step_moves flagsFirst here).2
    rw [sent] at moves
    cases moves with
    | stays _ _ quiet => exact absurd rfl quiet
    | exhausts before _ => exact before
  -- the handoff is where the second stage ends, the request where the first one does
  obtain ⟨toHandoff, handoff, later, same, flagsHandoff, alongHandoff, idleHandoff, below, above⟩ :=
    Stages.reached_at 2 kept flags alongFirst (by omega) (Nat.le_of_eq attempted.symm)
  have isHandoff : handoff = .successor ∧ stage (run step state toHandoff) = 1 := by
    have moves := (step_moves flagsHandoff idleHandoff).2
    generalize signal (run step state toHandoff) handoff = emitted at moves
    cases moves with
    | stays equal _ _ => omega
    | requests _ after => omega
    | attempts before _ => exact ⟨rfl, before⟩
    | exhausts before _ => omega
  obtain ⟨rfl, requested⟩ := isHandoff
  obtain ⟨asked, request, between, split, flagsAsked, -, idleAsked, low, high⟩ :=
    Stages.reached_at 1 kept flags alongHandoff (by omega) (Nat.le_of_eq requested.symm)
  refine ⟨asked, request, between, later, by rw [same, split], ?_⟩
  have moves := (step_moves flagsAsked idleAsked).2
  generalize sentThere : signal (run step state asked) request = emitted at moves
  cases moves with
  | stays equal _ _ => omega
  | requests _ _ => rfl
  | attempts before _ => omega
  | exhausts before _ => omega

/-- **A recovery happens at most once for each progress.** After at most a million observations, with any
handoffs between them, the state passes its check, a recovery is never requested and attempted at once, and
exhausted only when attempted. Wherever no event is new work, at most one recovery is requested and at most
one is exhausted; and one that is exhausted was requested since the last new work, and handed off since. -/
theorem recovery_once (events : List Event) (few : (events.filter Event.isObserve).length ≤ 1000000) :
    validateState (.obj (run step {} events).dump) = .ok (run step {} events).dump ∧
    Flags (run step {} events) ∧
    ∀ before window after, events = before ++ window ++ after → Along step Idle (run step {} before) window →
      (signals (run step {} before) window).count (some .recoveryRequested) ≤ 1 ∧
      (signals (run step {} before) window).count (some .recoveryExhausted) ≤ 1 ∧
      (Fresh before → ∀ first event rest, window = first ++ event :: rest →
        signal (run step {} (before ++ first)) event = some .recoveryExhausted →
          ∃ asked request between later, first = asked ++ request :: between ++ .successor :: later ∧
            signal (run step {} (before ++ asked)) request = some .recoveryRequested) := by
  obtain ⟨flags, within⟩ := run_within flags_empty within_empty events
  rw [Nat.zero_add] at within
  refine ⟨validates within few, flags, fun before window after _ idle => ⟨?_, ?_, ?_⟩⟩
  · refine once_in_window (flags_run before) idle 1 ?_
    rintro _ _ _ _ moves rfl
    cases moves with
    | stays _ calm _ => exact absurd rfl calm
    | requests low high => omega
  · refine once_in_window (flags_run before) idle 3 ?_
    rintro _ _ _ _ moves rfl
    cases moves with
    | stays _ _ quiet => exact absurd rfl quiet
    | exhausts low high => omega
  · rintro fresh first event rest rfl sent
    rw [List.append_cons] at idle
    rw [Transition.run_append] at sent
    obtain ⟨asked, request, between, later, same, requested⟩ := exhausted_after (flags_run before)
      (stage_of_fresh fresh) (Transition.along_append.mp idle).1 sent
    refine ⟨asked, request, between, later, same, ?_⟩
    rw [Transition.run_append]
    exact requested

end

namespace Scenario

local instance sampleValue : FloatValue := ⟨fun _ => 0⟩

local instance sampleHash : HexHash where
  sha256 _ := "0000000000000000000000000000000000000000000000000000000000000000"
  hex _ := by decide

local instance idleDecidable (state : State) (event : Event) : Decidable (Idle state event) :=
  inferInstanceAs (Decidable (_ = false))

/-- A call of a tool outside the profile. -/
def rejected : Event :=
  .observe "no_such_tool" [] [("error", .obj [("code", .str "TOOL_UNAVAILABLE")])]

/-- Eight rejected calls before a handoff, and seven behind it. -/
def twoSessions : List Event := List.replicate 8 rejected ++ .successor :: List.replicate 7 rejected

/-- The eighth call of the second session exhausts what the first session requested. -/
theorem second_session_exhausts : ∃ asked request between later,
    twoSessions = asked ++ request :: between ++ .successor :: later ∧
      signal (run step {} asked) request = some .recoveryRequested := by
  have few : ((twoSessions ++ [rejected]).filter Event.isObserve).length ≤ 1000000 := by decide
  have idle : Along step Idle (run step {} []) (twoSessions ++ [rejected]) := by decide
  have sent : signal (run step {} ([] ++ twoSessions)) rejected = some .recoveryExhausted := by
    decide
  exact ((recovery_once (twoSessions ++ [rejected]) few).2.2 [] _ [] (by simp) idle).2.2 (.inl rfl)
    twoSessions rejected [] rfl sent

end Scenario

end Stagnation
end PhysHarness
