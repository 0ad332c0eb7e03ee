import Mathlib.Data.List.Induction
import PhysHarness.Commands.Calls
import PhysHarness.System

/-!
# Idempotent commands

What calls of one key do to each other and to the store. The command lock keeps at most one
transaction of a key open, and a key that was looked up and not found stays absent until its call
commits; so one call of a key executes, and a later one finds its row.

## Main results

`commands_idempotent`: one action commits for a key, a later call of the key is answered by its row,
and a call that did not commit changed nothing.
-/
namespace PhysHarness

open Outcome

section

variable [ContentHash]

/-! ### One label -/

/-- Why an open call was closed without a commit. -/
def CallSys.Closes (sys : CallSys) (label : CallLabel) (id : Nat) (state : CallState) :
    CallOutcome → Prop
  | .executed _ | .unkeyed => False
  | .replayed result => ∃ prior, sys.store.commands.find state.call.commandDigest = some prior ∧
      prior.fingerprint = state.call.fingerprint ∧ prior.result = result
  | .conflict => ∃ prior, sys.store.commands.find state.call.commandDigest = some prior ∧
      prior.fingerprint ≠ state.call.fingerprint
  | .unauthorized failure => ∃ now, label = .check id now ∧
      ∃ writes, sys.authority state writes now = .error failure ∧
        (state.stage.pastLookup = false → writes = [])
  | .raised failure => label = .raise id failure ∨ state.stage.pastLookup = true

/-- What a statement of an open call may make of its stage. -/
structure CallSys.Moves (sys : CallSys) (label : CallLabel) (id : Nat) (state : CallState)
    (stage : CallStage) : Prop where
  live : state.stage.isClosed = false
  opens : stage.inTransaction = true →
    state.stage.inTransaction = true ∨ sys.lockFree id state = true
  looks : stage.pastLookup = true → state.stage.pastLookup = true ∨
    sys.store.commands.find state.call.commandDigest = none
  closes : ∀ outcome, stage = .closed outcome → sys.Closes label id state outcome

inductive CallStep (sys : CallSys) (label : CallLabel) : CallSys → Prop
  | stay : CallStep sys label sys
  | outside (write : RowWrite) (free : label.caller = none) :
      CallStep sys label { sys with store := { sys.store with rows := write sys.store.rows } }
  | begin {id call} (fresh : sys.calls.find id = none) : CallStep sys label (sys.begin id call)
  | move {id state stage} (found : sys.calls.find id = some state)
      (moves : sys.Moves label id state stage) : CallStep sys label (sys.setStage id state stage)
  | commit {id state writes result} (found : sys.calls.find id = some state)
      (caller : label.caller = some id) (ready : state.stage = .rechecked writes result)
      (absent : sys.store.commands.find state.call.commandDigest = none) :
      CallStep sys label
        ({ sys with
            store :=
              { rows := writeAll writes sys.store.rows
                commands := sys.store.commands.put state.call.commandDigest
                  (state.call.stored result) } }.close id state (.executed result))

variable {sys : CallSys} {label : CallLabel} {id : Nat} {state : CallState}

theorem CallSys.Moves.ends {outcome : CallOutcome} (live : state.stage.isClosed = false)
    (closes : sys.Closes label id state outcome) : sys.Moves label id state (.closed outcome) where
  live
  opens still := nomatch still
  looks past := nomatch past
  closes _ same := CallStage.closed.inj same ▸ closes

/-- An open transaction goes on. -/
theorem CallSys.Moves.goes {stage : CallStage} (begun : state.stage.inTransaction = true)
    (goes : stage.isClosed = false)
    (looks : stage.pastLookup = true → state.stage.pastLookup = true ∨
      sys.store.commands.find state.call.commandDigest = none) :
    sys.Moves label id state stage where
  live := by
    cases same : state.stage with
    | closed outcome =>
      rw [same] at begun
      exact nomatch begun
    | _ => rfl
  opens _ := .inl begun
  looks
  closes outcome same := by
    rw [same] at goes
    exact nomatch goes

theorem check_cases {now : Time} (found : sys.calls.find id = some state) :
    CallStep sys (.check id now) (sys.check id state now) := by
  unfold CallSys.check
  split
  next locked =>
    split
    · exact .move found (.goes (by rw [locked]; rfl) rfl fun past => nomatch past)
    next failure refused =>
      exact .move found (.ends (by rw [locked]; rfl) ⟨now, rfl, [], refused, fun _ => rfl⟩)
  next writes result returned =>
    split
    · exact .move found (.goes (by rw [returned]; rfl) rfl fun _ => .inl (by rw [returned]; rfl))
    next failure refused =>
      refine .move found (.ends (by rw [returned]; rfl) ⟨now, rfl, writes, refused, fun before => ?_⟩)
      rw [returned] at before
      exact nomatch before
  · exact .stay

theorem look_cases (found : sys.calls.find id = some state) :
    CallStep sys (.look id) (sys.look id state) := by
  unfold CallSys.look
  split
  next checked =>
    split
    next prior known =>
      split
      next differs => exact .move found (.ends (by rw [checked]; rfl) ⟨prior, known, differs⟩)
      next equal =>
        exact .move found (.ends (by rw [checked]; rfl) ⟨prior, known, not_not.mp equal, rfl⟩)
    next absent => exact .move found (.goes (by rw [checked]; rfl) rfl fun _ => .inr absent)
  · exact .stay

theorem commit_cases (found : sys.calls.find id = some state) :
    CallStep sys (.commit id) (sys.commit id state) := by
  unfold CallSys.commit
  split
  next writes result ready =>
    split
    · exact .move found (.ends (by rw [ready]; rfl) (.inr (by rw [ready]; rfl)))
    next commands inserted =>
      obtain ⟨absent, rfl⟩ := insertNew_ok.mp inserted
      exact .commit found rfl ready absent
  · exact .stay

/-- Every label is one of these steps. -/
theorem step_cases : CallStep sys label (sys.step label) := by
  cases label with
  | outside write => exact .outside write rfl
  | begin id call =>
    simp only [CallSys.step]
    split
    next fresh => exact .begin fresh
    · exact .stay
  | lock id =>
    simp only [CallSys.step]
    split
    next state found =>
      simp only [CallSys.act]
      split
      next waiting =>
        split
        next free =>
          exact .move found
            { live := by rw [waiting]; rfl
              opens := fun _ => .inr free
              looks := fun past => by cases past
              closes := fun _ same => by cases same }
        · exact .stay
      · exact .stay
    · exact .stay
  | check id now =>
    simp only [CallSys.step]
    split
    next state found => exact check_cases found
    · exact .stay
  | look id =>
    simp only [CallSys.step]
    split
    next state found => exact look_cases found
    · exact .stay
  | write id write =>
    simp only [CallSys.step]
    split
    next state found =>
      simp only [CallSys.act]
      split
      next writes acting =>
        exact .move found (.goes (by rw [acting]; rfl) rfl fun _ => .inl (by rw [acting]; rfl))
      · exact .stay
    · exact .stay
  | finish id result =>
    simp only [CallSys.step]
    split
    next state found =>
      simp only [CallSys.act]
      split
      next writes acting =>
        exact .move found (.goes (by rw [acting]; rfl) rfl fun _ => .inl (by rw [acting]; rfl))
      · exact .stay
    · exact .stay
  | commit id =>
    simp only [CallSys.step]
    split
    next state found => exact commit_cases found
    · exact .stay
  | raise id failure =>
    simp only [CallSys.step]
    split
    next state found =>
      simp only [CallSys.act]
      split
      · exact .stay
      next running => exact .move found (.ends (by simpa using running) (.inl rfl))
    · exact .stay

/-! ### What a run keeps -/

/-- What holds of the calls in every state. -/
structure CallsInv (sys : CallSys) : Prop where
  /-- Open transactions have different keys. -/
  exclusive : ∀ first second a b, sys.calls.find first = some a → sys.calls.find second = some b →
    a.stage.inTransaction = true → b.stage.inTransaction = true →
    a.call.commandDigest = b.call.commandDigest → first = second
  /-- A key that was not found stays absent until its call ends. -/
  absent : ∀ id state, sys.calls.find id = some state → state.stage.pastLookup = true →
    sys.store.commands.find state.call.commandDigest = none
  stored : ∀ id state result, sys.calls.find id = some state →
    state.stage = .closed (.executed result) →
    ∃ prior, sys.store.commands.find state.call.commandDigest = some prior ∧
      prior.fingerprint = state.call.fingerprint ∧ prior.result = result
  unique : ∀ first second a b result other, sys.calls.find first = some a →
    sys.calls.find second = some b → a.stage = .closed (.executed result) →
    b.stage = .closed (.executed other) → a.call.commandDigest = b.call.commandDigest →
    first = second
  keyed : ∀ id state, sys.calls.find id = some state →
    (state.stage = .closed .unkeyed ↔ state.call.keyValid = false)

omit [ContentHash] in
theorem pastLookup_inTransaction {stage : CallStage} (past : stage.pastLookup = true) :
    stage.inTransaction = true := by
  cases stage <;> first | rfl | exact nomatch past

/-- A transaction that gets its lock has a key that no open transaction has. -/
theorem lockFree_apart {other : Nat} {held : CallState} (free : sys.lockFree id state = true)
    (found : sys.calls.find other = some held) (distinct : other ≠ id)
    (inside : held.stage.inTransaction = true) :
    held.call.commandDigest ≠ state.call.commandDigest := by
  intro same
  rw [CallSys.lockFree, Bool.not_eq_true', Table.anyRow_eq_false] at free
  have none := free other held found
  cases dialect : sys.dialect <;> simp [distinct, inside, same, dialect] at none

theorem CallsInv.step_begin {call : CommandCall} (inv : CallsInv sys)
    (fresh : sys.calls.find id = none) : CallsInv (sys.begin id call) := by
  have outside : ∀ {stage : CallStage},
      stage = (if call.keyValid then .waiting else .closed .unkeyed) →
      stage.inTransaction = false ∧ stage.pastLookup = false ∧
        ∀ result, stage ≠ .closed (.executed result) := by
    rintro _ rfl
    split <;> exact ⟨rfl, rfl, fun _ same => nomatch same⟩
  obtain ⟨notInside, notPast, notExecuted⟩ := outside rfl
  refine ⟨?_, ?_, ?_, ?_, ?_⟩
  · intro first second a b one two inside within same
    rcases Table.find_put_cases one with ⟨rfl, rfl⟩ | ⟨-, one⟩
    · exact absurd inside (by simp [notInside])
    · rcases Table.find_put_cases two with ⟨rfl, rfl⟩ | ⟨-, two⟩
      · exact absurd within (by simp [notInside])
      · exact inv.exclusive first second a b one two inside within same
  · intro other seen here past
    rcases Table.find_put_cases here with ⟨rfl, rfl⟩ | ⟨-, here⟩
    · exact absurd past (by simp [notPast])
    · exact inv.absent other seen here past
  · intro other seen result here executed
    rcases Table.find_put_cases here with ⟨rfl, rfl⟩ | ⟨-, here⟩
    · exact absurd executed (notExecuted result)
    · exact inv.stored other seen result here executed
  · intro first second a b result other one two executed ended same
    rcases Table.find_put_cases one with ⟨rfl, rfl⟩ | ⟨-, one⟩
    · exact absurd executed (notExecuted result)
    · rcases Table.find_put_cases two with ⟨rfl, rfl⟩ | ⟨-, two⟩
      · exact absurd ended (notExecuted other)
      · exact inv.unique first second a b result other one two executed ended same
  · intro other seen here
    rcases Table.find_put_cases here with ⟨rfl, rfl⟩ | ⟨-, here⟩
    · cases call.keyValid <;> simp
    · exact inv.keyed other seen here

theorem CallsInv.step_move {stage : CallStage} (inv : CallsInv sys)
    (found : sys.calls.find id = some state) (moves : sys.Moves label id state stage) :
    CallsInv (sys.setStage id state stage) := by
  -- the moved transaction and another open one
  have apart {other : Nat} {held : CallState} (here : sys.calls.find other = some held)
      (distinct : other ≠ id) (inside : held.stage.inTransaction = true)
      (opens : stage.inTransaction = true) :
      held.call.commandDigest ≠ state.call.commandDigest := by
    rcases moves.opens opens with before | free
    · exact fun same => distinct (inv.exclusive other id held state here found inside before same)
    · exact lockFree_apart free here distinct inside
  refine ⟨?_, ?_, ?_, ?_, ?_⟩
  · intro first second a b one two inside within same
    rcases Table.find_put_cases one with ⟨rfl, rfl⟩ | ⟨distinct, kept⟩
    · rcases Table.find_put_cases two with ⟨rfl, -⟩ | ⟨distinct, two⟩
      · rfl
      · exact absurd same.symm (apart two distinct within inside)
    · rcases Table.find_put_cases two with ⟨rfl, rfl⟩ | ⟨-, two⟩
      · exact absurd same (apart kept distinct inside within)
      · exact inv.exclusive first second a b kept two inside within same
  · intro other seen here past
    rcases Table.find_put_cases here with ⟨rfl, rfl⟩ | ⟨-, here⟩
    · exact (moves.looks past).elim (inv.absent other state found) id
    · exact inv.absent other seen here past
  · intro other seen result here executed
    rcases Table.find_put_cases here with ⟨rfl, rfl⟩ | ⟨-, here⟩
    · exact (moves.closes _ executed).elim
    · exact inv.stored other seen result here executed
  · intro first second a b result other one two executed ended same
    rcases Table.find_put_cases one with ⟨rfl, rfl⟩ | ⟨-, one⟩
    · exact (moves.closes _ executed).elim
    · rcases Table.find_put_cases two with ⟨rfl, rfl⟩ | ⟨-, two⟩
      · exact (moves.closes _ ended).elim
      · exact inv.unique first second a b result other one two executed ended same
  · intro other seen here
    rcases Table.find_put_cases here with ⟨rfl, rfl⟩ | ⟨-, here⟩
    · refine ⟨fun unkeyed => (moves.closes _ unkeyed).elim, fun invalid => ?_⟩
      have live := moves.live
      rw [(inv.keyed other state found).mpr invalid] at live
      exact nomatch live
    · exact inv.keyed other seen here

theorem CallsInv.step_commit {writes : List RowWrite} {result : Json} {after : CallSys}
    (inv : CallsInv sys) (found : sys.calls.find id = some state)
    (ready : state.stage = .rechecked writes result)
    (commands : after.store.commands =
      sys.store.commands.put state.call.commandDigest (state.call.stored result))
    (calls : after.calls = sys.calls.put id { state with stage := .closed (.executed result) }) :
    CallsInv after := by
  have inside : state.stage.inTransaction = true := by rw [ready]; rfl
  have missing := inv.absent id state found (by rw [ready]; rfl)
  -- an executed call has another key, as its row is there
  have other {first : Nat} {a : CallState} {stored : Json} (here : sys.calls.find first = some a)
      (executed : a.stage = .closed (.executed stored)) :
      a.call.commandDigest ≠ state.call.commandDigest := by
    intro same
    obtain ⟨prior, present, -⟩ := inv.stored first a stored here executed
    rw [same, missing] at present
    exact nomatch present
  refine ⟨?_, ?_, ?_, ?_, ?_⟩
  · intro first second a b one two within alongside same
    rw [calls] at one two
    rcases Table.find_put_cases one with ⟨rfl, rfl⟩ | ⟨-, one⟩
    · exact nomatch within
    · rcases Table.find_put_cases two with ⟨rfl, rfl⟩ | ⟨-, two⟩
      · exact nomatch alongside
      · exact inv.exclusive first second a b one two within alongside same
  · intro first a here past
    rw [calls] at here
    rw [commands]
    rcases Table.find_put_cases here with ⟨rfl, rfl⟩ | ⟨distinct, here⟩
    · exact nomatch past
    · rw [Table.find_put_ne]
      · exact inv.absent first a here past
      · exact fun same => distinct
          (inv.exclusive first id a state here found (pastLookup_inTransaction past) inside same)
  · intro first a stored here executed
    rw [calls] at here
    rw [commands]
    rcases Table.find_put_cases here with ⟨rfl, rfl⟩ | ⟨-, here⟩
    · obtain rfl := CallOutcome.executed.inj (CallStage.closed.inj executed)
      exact ⟨_, Table.find_put_self .., rfl, rfl⟩
    · rw [Table.find_put_ne _ _ (other here executed)]
      exact inv.stored first a stored here executed
  · intro first second a b stored replayed one two executed ended same
    rw [calls] at one two
    rcases Table.find_put_cases one with ⟨rfl, rfl⟩ | ⟨-, kept⟩
    · rcases Table.find_put_cases two with ⟨rfl, -⟩ | ⟨-, two⟩
      · rfl
      · exact absurd same.symm (other two ended)
    · rcases Table.find_put_cases two with ⟨rfl, rfl⟩ | ⟨-, two⟩
      · exact absurd same (other kept executed)
      · exact inv.unique first second a b stored replayed kept two executed ended same
  · intro first a here
    rw [calls] at here
    rcases Table.find_put_cases here with ⟨rfl, rfl⟩ | ⟨-, here⟩
    · refine ⟨fun unkeyed => (nomatch unkeyed), fun invalid => ?_⟩
      have unkeyed := (inv.keyed first state found).mpr invalid
      rw [ready] at unkeyed
      exact nomatch unkeyed
    · exact inv.keyed first a here

theorem CallsInv.step (inv : CallsInv sys) : CallsInv (sys.step label) := by
  have stepped := @step_cases _ sys label
  generalize sys.step label = after at stepped
  cases stepped with
  | stay => exact inv
  | outside => exact ⟨inv.exclusive, inv.absent, inv.stored, inv.unique, inv.keyed⟩
  | begin fresh => exact inv.step_begin fresh
  | move found moves => exact inv.step_move found moves
  | commit found _ ready _ => exact inv.step_commit found ready rfl rfl

theorem callsInv_run (dialect : Dialect) (labels : List CallLabel) :
    CallsInv (CallSys.run dialect labels) := by
  refine Transition.run_always CallsInv labels ?_ fun _ _ inv => inv.step
  have none {id : Nat} {state : CallState}
      (found : (∅ : Table Nat CallState).find id = some state) : False := nomatch found
  exact ⟨fun _ _ _ _ found => (none found).elim, fun _ _ found => (none found).elim,
    fun _ _ _ found => (none found).elim, fun _ _ _ _ _ _ found => (none found).elim,
    fun _ _ found => (none found).elim⟩

/-! ### Later calls -/

/-- A closed call stays as it is. -/
theorem closed_step (found : sys.calls.find id = some state) (closed : state.stage.isClosed = true) :
    (sys.step label).calls.find id = some state := by
  have stepped := @step_cases _ sys label
  generalize sys.step label = after at stepped
  have keeps {other : Nat} {held next : CallState} (here : sys.calls.find other = some held)
      (live : held.stage.isClosed = false) :
      (sys.calls.put other next).find id = some state := by
    rw [Table.find_put_ne _ _ ?_, found]
    rintro rfl
    obtain rfl := Option.some.inj (found.symm.trans here)
    rw [closed] at live
    exact nomatch live
  cases stepped with
  | stay => exact found
  | outside => exact found
  | @begin other call fresh =>
    change (sys.calls.put other _).find id = _
    rw [Table.find_put_ne _ _ ?_, found]
    rintro rfl
    exact nomatch fresh.symm.trans found
  | move here moves => exact keeps here moves.live
  | commit here _ ready _ => exact keeps here (by rw [ready]; rfl)

theorem closed_run (labels : List CallLabel) (found : sys.calls.find id = some state)
    (closed : state.stage.isClosed = true) :
    (Transition.run CallSys.step sys labels).calls.find id = some state :=
  Transition.run_always (fun sys : CallSys => sys.calls.find id = some state) labels found
    fun _ _ here => closed_step here closed

/-- The row of a command stays. -/
theorem commands_step {key : Digest} {row : StoredCommand}
    (stored : sys.store.commands.find key = some row) :
    (sys.step label).store.commands.find key = some row := by
  have stepped := @step_cases _ sys label
  generalize sys.step label = after at stepped
  cases stepped with
  | commit _ _ _ absent =>
    change (Table.put _ _ _).find key = _
    rw [Table.find_put_ne _ _ ?_, stored]
    rintro rfl
    exact nomatch absent.symm.trans stored
  | _ => exact stored

theorem commands_run (labels : List CallLabel) {key : Digest} {row : StoredCommand}
    (stored : sys.store.commands.find key = some row) :
    (Transition.run CallSys.step sys labels).store.commands.find key = some row :=
  Transition.run_always (fun sys : CallSys => sys.store.commands.find key = some row) labels stored
    fun _ _ here => commands_step here

/-- How a call ends whose key has a row: with the row's result, or refused. Only the check of a bound
lease and an exception from outside `_execute` come before that. -/
def CallSys.Answered (sys : CallSys) (row : StoredCommand) (later : List CallLabel) (id : Nat)
    (call : CommandCall) : CallOutcome → Prop
  | .executed _ | .unkeyed => False
  | .replayed result => row.fingerprint = call.fingerprint ∧ result = row.result
  | .conflict => row.fingerprint ≠ call.fingerprint
  | .unauthorized failure => ∃ now mid rest, later = mid ++ .check id now :: rest ∧
      (Transition.run CallSys.step sys mid).store.rows.records.checkWorkerEffects call.effects now
        call.actor = .error failure
  | .raised failure => .raise id failure ∈ later

theorem CallSys.Answered.append {row : StoredCommand} {later rest : List CallLabel}
    {call : CommandCall} {outcome : CallOutcome} (answered : sys.Answered row later id call outcome) :
    sys.Answered row (later ++ rest) id call outcome := by
  cases outcome with
  | unauthorized failure =>
    obtain ⟨now, mid, tail, rfl, refused⟩ := answered
    exact ⟨now, mid, tail ++ rest, by rw [List.append_assoc, List.cons_append], refused⟩
  | raised failure => exact List.mem_append_left _ answered
  | _ => exact answered

/-- A call that closes before its lookup, while its key has a row. -/
theorem answered_of_closes {current : CallSys} {row : StoredCommand} {later : List CallLabel}
    {outcome : CallOutcome} (here : Transition.run CallSys.step sys later = current)
    (present : current.store.commands.find state.call.commandDigest = some row)
    (early : state.stage.pastLookup = false)
    (closes : current.Closes label id state outcome) :
    sys.Answered row (later ++ [label]) id state.call outcome := by
  cases outcome with
  | executed result => exact closes
  | unkeyed => exact closes
  | replayed result =>
    obtain ⟨prior, found, same, rfl⟩ := closes
    obtain rfl := Option.some.inj (present.symm.trans found)
    exact ⟨same, rfl⟩
  | conflict =>
    obtain ⟨prior, found, differs⟩ := closes
    obtain rfl := Option.some.inj (present.symm.trans found)
    exact differs
  | unauthorized failure =>
    obtain ⟨now, rfl, writes, refused, bare⟩ := closes
    obtain rfl := bare early
    exact ⟨now, later, [], rfl, here ▸ refused⟩
  | raised failure =>
    rcases closes with rfl | past
    · exact List.mem_append_right _ (List.mem_singleton_self _)
    · rw [early] at past
      exact nomatch past

/-- A call of a key whose row is there either waits for its lookup or was answered. -/
theorem later_call {row : StoredCommand} {key : Digest} (later : List CallLabel)
    (stored : sys.store.commands.find key = some row)
    (keyed : ∀ call : CommandCall, call.commandDigest = key → call.keyValid = true)
    (pending : ∀ state, sys.calls.find id = some state → state.call.commandDigest = key →
      state.stage.isClosed = false ∧ state.stage.pastLookup = false) :
    ∀ state, (Transition.run CallSys.step sys later).calls.find id = some state →
      state.call.commandDigest = key →
      (state.stage.isClosed = false ∧ state.stage.pastLookup = false) ∨
        ∃ outcome, state.stage = .closed outcome ∧
          sys.Answered row later id state.call outcome := by
  induction later using List.reverseRecOn with
  | nil => exact fun state found same => .inl (pending state found same)
  | append_singleton later label ih =>
    have present := commands_run later stored
    rw [Transition.run_append]
    generalize now : Transition.run CallSys.step sys later = current at *
    have before {state : CallState} (found : current.calls.find id = some state)
        (same : state.call.commandDigest = key) :
        (state.stage.isClosed = false ∧ state.stage.pastLookup = false) ∨
          ∃ outcome, state.stage = .closed outcome ∧
            sys.Answered row (later ++ [label]) id state.call outcome :=
      (ih state found same).imp_right fun ⟨outcome, closed, answered⟩ =>
        ⟨outcome, closed, answered.append⟩
    have stepped := @step_cases _ current label
    change ∀ state, (current.step label).calls.find id = some state → _
    generalize current.step label = after at stepped
    intro state found same
    cases stepped with
    | stay => exact before found same
    | outside => exact before found same
    | begin fresh =>
      rcases Table.find_put_cases found with ⟨rfl, rfl⟩ | ⟨-, old⟩
      · exact .inl (by simp [keyed _ same, CallStage.isClosed, CallStage.pastLookup])
      · exact before old same
    | @move other held stage here moves =>
      rcases Table.find_put_cases found with ⟨rfl, rfl⟩ | ⟨-, old⟩
      · change held.call.commandDigest = key at same
        rcases ih held here same with ⟨-, early⟩ | ⟨_, closed, -⟩
        · have kept : current.store.commands.find held.call.commandDigest = some row := by
            rw [same, present]
          cases past : stage.pastLookup with
          | true =>
            rcases moves.looks past with late | absent
            · exact nomatch early.symm.trans late
            · exact nomatch absent.symm.trans kept
          | false =>
            cases stage with
            | closed outcome =>
              have answered : sys.Answered row (later ++ [label]) _ held.call outcome :=
                answered_of_closes now kept early (moves.closes outcome rfl)
              exact .inr ⟨outcome, rfl, answered⟩
            | waiting | locked | checked => exact .inl ⟨rfl, rfl⟩
            | acting | returned | rechecked => exact nomatch past
        · have live := moves.live
          rw [closed] at live
          exact nomatch live
      · exact before old same
    | @commit other held writes result here caller ready absent =>
      rcases Table.find_put_cases found with ⟨rfl, rfl⟩ | ⟨-, old⟩
      · change held.call.commandDigest = key at same
        rw [same, present] at absent
        exact nomatch absent
      · exact before old same

/-! ### Digests -/

omit [ContentHash] in
theorem canonical_inj {first second : Json} (same : Json.canonical first = Json.canonical second) :
    first.sortKeys = second.sortKeys := Json.dumps_inj same

/-- Without a collision the command digest is the project, the actor and the key. -/
theorem commandDigest_iff (collisionFree : Function.Injective ContentHash.sha256)
    {first second : CommandCall} :
    first.commandDigest = second.commandDigest ↔ first.SameKey second := by
  constructor
  · intro same
    have values := canonical_inj (collisionFree same)
    simp only [Json.sortKeys, Json.sortItems, Json.arr.injEq, List.cons.injEq, Json.str.injEq,
      and_true] at values
    exact values
  · intro same
    obtain ⟨project, actor, key⟩ := same
    simp only [CommandCall.commandDigest, project, actor, key]

omit [ContentHash] in
theorem Role.value_inj {first second : Role} (same : first.value = second.value) :
    first = second := by
  revert same
  cases first <;> cases second <;> decide

omit [ContentHash] in
theorem ofOption_inj {first second : Option String}
    (same : Json.ofOption first = Json.ofOption second) : first = second := by
  cases first <;> cases second <;> simp_all [Json.ofOption]

omit [ContentHash] in
theorem sortKeys_ofOption (text : Option String) :
    (Json.ofOption text).sortKeys = Json.ofOption text := by
  cases text <;> rfl

/-- Without a collision the fingerprint is the operation, its inputs and the actor's scope. -/
theorem fingerprint_iff (collisionFree : Function.Injective ContentHash.sha256)
    {first second : CommandCall} :
    first.fingerprint = second.fingerprint ↔ first.SameCommand second := by
  constructor
  · intro same
    have values := canonical_inj (collisionFree same)
    simp only [Json.sortKeys, Json.sortItems, Json.arr.injEq, List.cons.injEq, Json.str.injEq,
      Json.bool.injEq, and_true] at values
    obtain ⟨operation, inputs, role, experiment, branch, orchestrator⟩ := values
    rw [sortKeys_ofOption, sortKeys_ofOption] at experiment branch
    exact ⟨operation, inputs, Role.value_inj role, ofOption_inj experiment, ofOption_inj branch,
      orchestrator⟩
  · intro same
    obtain ⟨operation, inputs, role, experiment, branch, orchestrator⟩ := same
    simp only [CommandCall.fingerprint, digestJson, Json.canonical, Json.sortKeys, Json.sortItems,
      operation, inputs, role, experiment, branch, orchestrator]

/-! ### Runs -/

/-- A label of a call that did not commit leaves the store as it was. -/
theorem store_kept {dialect : Dialect} {first rest : List CallLabel} {after : CallState}
    (caller : label.caller = some id)
    (ended : (CallSys.run dialect (first ++ label :: rest)).calls.find id = some after)
    (unexecuted : ∀ result, after.stage ≠ .closed (.executed result)) :
    (CallSys.run dialect (first ++ [label])).store = (CallSys.run dialect first).store := by
  unfold CallSys.run at ended ⊢
  rw [Transition.run_append, Transition.run_cons] at ended
  rw [Transition.run_append, Transition.run_cons, Transition.run_nil]
  generalize Transition.run CallSys.step { dialect } first = sys at ended ⊢
  have stepped := @step_cases _ sys label
  generalize sys.step label = next at stepped ended ⊢
  cases stepped with
  | stay => rfl
  | outside write free => exact nomatch free.symm.trans caller
  | begin => rfl
  | move => rfl
  | @commit other held writes result found who ready absent =>
    obtain rfl := Option.some.inj (who.symm.trans caller)
    let done : CallState := { held with stage := .closed (.executed result) }
    have same : done = after := by
      refine Option.some.inj ((closed_run rest ?_ ?_).symm.trans ended)
      · exact Table.find_put_self sys.calls other done
      · rfl
    exact absurd (same ▸ rfl) (unexecuted result)

/-- How a later call of an executed call's key may end: with the same result for the same command, as
a conflict for another one, or refused by the check of its bound lease or by an exception from
outside `_execute`. -/
def CallSys.LaterOutcome (sys : CallSys) (executed : CommandCall) (result : Json)
    (later : List CallLabel) (id : Nat) (call : CommandCall) : CallOutcome → Prop
  | .executed _ | .unkeyed => False
  | .replayed reply => executed.SameCommand call ∧ reply = result
  | .conflict => ¬ executed.SameCommand call
  | .unauthorized failure => ∃ now mid rest, later = mid ++ .check id now :: rest ∧
      (Transition.run CallSys.step sys mid).store.rows.records.checkWorkerEffects call.effects now
        call.actor = .error failure
  | .raised failure => .raise id failure ∈ later

/-- In every run at most one action commits for a project, actor and key, every later call of the key
is answered by what that one returned, and a call that did not commit changed nothing. -/
theorem commands_idempotent (collisionFree : Function.Injective ContentHash.sha256)
    (dialect : Dialect) (labels : List CallLabel) :
    -- at most one action commits for a key
    (∀ first second a b result other,
      (CallSys.run dialect labels).calls.find first = some a →
      (CallSys.run dialect labels).calls.find second = some b →
      a.stage = .closed (.executed result) → b.stage = .closed (.executed other) →
      a.call.SameKey b.call → first = second) ∧
    -- what a call returns that was open, or did not begin, when one of its key committed
    (∀ first a result later second b outcome,
      (CallSys.run dialect labels).calls.find first = some a →
      a.stage = .closed (.executed result) →
      (∀ state, (CallSys.run dialect labels).calls.find second = some state →
        state.stage.isClosed = false) →
      (CallSys.run dialect (labels ++ later)).calls.find second = some b →
      b.stage = .closed outcome → a.call.SameKey b.call →
      (CallSys.run dialect labels).LaterOutcome a.call result later second b.call outcome) ∧
    -- no statement of a call that did not commit changes the store
    (∀ id state label before after, (CallSys.run dialect labels).calls.find id = some state →
      (∀ result, state.stage ≠ .closed (.executed result)) →
      labels = before ++ label :: after → label.caller = some id →
      (CallSys.run dialect (before ++ [label])).store = (CallSys.run dialect before).store) := by
  have inv := callsInv_run dialect labels
  refine ⟨?_, ?_, ?_⟩
  · intro first second a b result other one two executed ended same
    exact inv.unique first second a b result other one two executed ended
      ((commandDigest_iff collisionFree).mpr same)
  · intro first a result later second b outcome found executed running ended closed same
    obtain ⟨row, stored, fingerprint, rfl⟩ := inv.stored first a result found executed
    have valid : ∀ call : CommandCall, call.commandDigest = a.call.commandDigest →
        call.keyValid = true := by
      intro call equal
      have keys := ((commandDigest_iff collisionFree).mp equal).2.2
      cases valid : call.keyValid with
      | true => rfl
      | false =>
        have unkeyed := (inv.keyed first a found).mpr (by
          rw [CommandCall.keyValid, ← keys]
          exact valid)
        exact nomatch executed.symm.trans unkeyed
    have pending : ∀ state, (CallSys.run dialect labels).calls.find second = some state →
        state.call.commandDigest = a.call.commandDigest →
        state.stage.isClosed = false ∧ state.stage.pastLookup = false := by
      intro state here equal
      refine ⟨running state here, ?_⟩
      cases past : state.stage.pastLookup with
      | false => rfl
      | true =>
        have absent := inv.absent second state here past
        rw [equal, stored] at absent
        exact nomatch absent
    rw [CallSys.run, Transition.run_append] at ended
    rcases later_call later stored valid pending b ended
        ((commandDigest_iff collisionFree).mpr same).symm with ⟨live, -⟩ | ⟨_, here, answered⟩
    · rw [closed] at live
      exact nomatch live
    · obtain rfl := CallStage.closed.inj (closed.symm.trans here)
      cases outcome with
      | executed _ => exact answered
      | unkeyed => exact answered
      | replayed reply =>
        obtain ⟨equal, rfl⟩ := answered
        exact ⟨(fingerprint_iff collisionFree).mp (fingerprint.symm.trans equal), rfl⟩
      | conflict =>
        intro sameCommand
        exact answered (fingerprint.trans ((fingerprint_iff collisionFree).mpr sameCommand))
      | unauthorized failure => exact answered
      | raised failure => exact answered
  · intro id state label before after ended unexecuted split caller
    subst split
    exact store_kept caller ended unexecuted

end

namespace Scenario

/-- A task that one worker leased for ten units of time. -/
def leasedRows : ServiceRows where
  records :=
    { tasks := (∅ : Table Id (Row Task)).put "task"
        { projectId := "project"
          payload :=
            { experimentId := "experiment"
              branchId := "branch"
              originActorId := "controller"
              createdBy := "controller"
              objective := "Prove the lemma." } }
      leases := (∅ : Table Id Lease).put "task" { holder := "worker", fence := 1, expiresAt := 10 } }

/-- A call under the worker's authority. -/
def boundCall : CommandCall where
  actor := controller
  key := "key"
  operation := "record_note"
  inputs := .obj [("text", .str "note")]
  effects := some
    { actor := controller, taskId := "task", holder := "worker", fence := 1, requireActive := false,
      issued := Nat.one_pos }
  operationId := "operation"

/-- One call that commits, and the same call again at another time. -/
def repeated (now : Time) : List CallLabel :=
  [.outside fun _ => leasedRows, .begin 0 boundCall, .lock 0, .check 0 0, .look 0,
    .write 0 fun rows => { rows with events := rows.events ++
      [⟨"project", "note.recorded", "note", "operation", .null, 0⟩] },
    .finish 0 (.str "note"), .check 0 0, .commit 0,
    .begin 1 boundCall, .lock 1, .check 1 now, .look 1]

section
local instance replayHash : ContentHash := textHash

/-- When the lease is over, the same call raises instead of returning the stored result. -/
theorem staleReplay_refused :
    ((CallSys.run .postgresql (repeated 20)).calls.find 0).map
        (fun state => (state.call, state.stage.outcome)) =
      some (boundCall, some (.executed (.str "note"))) ∧
    ((CallSys.run .postgresql (repeated 20)).calls.find 1).map
        (fun state => (state.call, state.stage.outcome)) =
      some (boundCall, some (.unauthorized Db.staleLease)) := by
  decide +kernel

/-- While the lease lasts, the same call returns the stored result, and its lookup writes nothing. -/
theorem repeated_replayed :
    ((CallSys.run .postgresql (repeated 5)).calls.find 1).map (fun state => state.stage.outcome) =
      some (some (.replayed (.str "note"))) ∧
    (CallSys.run .postgresql ((repeated 5).take 12 ++ [.look 1])).store =
      (CallSys.run .postgresql ((repeated 5).take 12)).store := by
  have replayed : ((CallSys.run .postgresql (repeated 5)).calls.find 1).map
      (fun state => state.stage.outcome) = some (some (.replayed (.str "note"))) := by
    rfl
  refine ⟨replayed, ?_⟩
  obtain ⟨state, found, outcome⟩ := Option.map_eq_some_iff.mp replayed
  refine (commands_idempotent (fun _ _ same => same) .postgresql (repeated 5)).2.2 1 state (.look 1)
    ((repeated 5).take 12) [] found (fun result executed => ?_) rfl rfl
  rw [executed] at outcome
  exact nomatch outcome
end

end Scenario

end PhysHarness
