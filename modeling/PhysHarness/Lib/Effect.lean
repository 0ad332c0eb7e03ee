import Mathlib.Tactic.Common

/-!
Programs that change a state and may raise an error, and what they ensure.

An error keeps the state that it was raised in, and a handler and a finalizer start from that state.
-/

/-- From a state with the precondition the program returns a value in a state as `returns` says, or
raises an error in a state as `raises` says. -/
def Ensures {ε σ α : Type} (before : σ → Prop) (program : EStateM ε σ α) (returns : α → σ → Prop)
    (raises : ε → σ → Prop) : Prop :=
  ∀ state, before state →
    match program state with
    | .ok value after => returns value after
    | .error error after => raises error after

namespace Effect

variable {ε σ α β : Type}

/-- `try` with a handler for every error. -/
def handle (program : EStateM ε σ α) (handler : ε → EStateM ε σ α) : EStateM ε σ α := fun state =>
  match program state with
  | .ok value after => .ok value after
  | .error error after => handler error after

/-- `try` with `finally`: an error of the finalizer replaces what the program ended with. -/
def lastly (program : EStateM ε σ α) (finalizer : EStateM ε σ Unit) : EStateM ε σ α := fun state =>
  match program state with
  | .ok value after =>
    match finalizer after with
    | .ok _ done => .ok value done
    | .error error done => .error error done
  | .error error after =>
    match finalizer after with
    | .ok _ done => .error error done
    | .error other done => .error other done

variable {before : σ → Prop} {returns : α → σ → Prop} {raises : ε → σ → Prop}

theorem pure_ensures (value : α) (holds : ∀ state, before state → returns value state) :
    Ensures before (pure value : EStateM ε σ α) returns raises :=
  fun state met => holds state met

theorem throw_ensures (error : ε) (holds : ∀ state, before state → raises error state) :
    Ensures before (throw error : EStateM ε σ α) returns raises :=
  fun state met => holds state met

theorem get_ensures {returns : σ → σ → Prop} (holds : ∀ state, before state → returns state state) :
    Ensures before (get : EStateM ε σ σ) returns raises :=
  fun state met => holds state met

theorem modify_ensures {returns : Unit → σ → Prop} (change : σ → σ)
    (holds : ∀ state, before state → returns () (change state)) :
    Ensures before (modify change : EStateM ε σ Unit) returns raises :=
  fun state met => holds state met

theorem bind_ensures {first : EStateM ε σ α} {next : α → EStateM ε σ β} (middle : α → σ → Prop)
    {returns : β → σ → Prop} (begins : Ensures before first middle raises)
    (goes : ∀ value, Ensures (middle value) (next value) returns raises) :
    Ensures before (first >>= next) returns raises := by
  intro state met
  have met' := begins state met
  show match EStateM.bind first next state with
    | .ok value after => returns value after
    | .error error after => raises error after
  unfold EStateM.bind
  cases run : first state with
  | ok value after =>
    rw [run] at met'
    exact goes value after met'
  | error error after =>
    rw [run] at met'
    exact met'

/-- A stronger precondition and weaker postconditions. -/
theorem ensures_imp {program : EStateM ε σ α} {stronger : σ → Prop} {returns' : α → σ → Prop}
    {raises' : ε → σ → Prop} (spec : Ensures before program returns raises)
    (pre : ∀ state, stronger state → before state)
    (post : ∀ value state, returns value state → returns' value state)
    (failure : ∀ error state, raises error state → raises' error state) :
    Ensures stronger program returns' raises' := by
  intro state met
  have met' := spec state (pre state met)
  cases run : program state with
  | ok value after =>
    rw [run] at met'
    exact post value after met'
  | error error after =>
    rw [run] at met'
    exact failure error after met'

theorem exists_ensures {ι : Sort*} {program : EStateM ε σ α} {each : ι → σ → Prop}
    (spec : ∀ index, Ensures (each index) program returns raises) :
    Ensures (fun state => ∃ index, each index state) program returns raises := by
  rintro state ⟨index, met⟩
  exact spec index state met

theorem given_ensures {fact : Prop} {program : EStateM ε σ α}
    (spec : fact → Ensures before program returns raises) :
    Ensures (fun state => fact ∧ before state) program returns raises :=
  fun state met => spec met.1 state met.2

theorem handle_ensures {program : EStateM ε σ α} {handler : ε → EStateM ε σ α} {raises' : ε → σ → Prop}
    (spec : Ensures before program returns raises)
    (handles : ∀ error, Ensures (raises error) (handler error) returns raises') :
    Ensures before (handle program handler) returns raises' := by
  intro state met
  have met' := spec state met
  unfold handle
  cases run : program state with
  | ok value after =>
    rw [run] at met'
    exact met'
  | error error after =>
    rw [run] at met'
    exact handles error after met'

theorem lastly_ensures {program : EStateM ε σ α} {finalizer : EStateM ε σ Unit}
    {returns' : α → σ → Prop} {raises' : ε → σ → Prop} (spec : Ensures before program returns raises)
    (closes : ∀ value, Ensures (returns value) finalizer (fun _ => returns' value) raises')
    (fails : ∀ error, Ensures (raises error) finalizer (fun _ => raises' error) raises') :
    Ensures before (lastly program finalizer) returns' raises' := by
  intro state met
  have met' := spec state met
  unfold lastly
  cases run : program state with
  | ok value after =>
    rw [run] at met'
    have last := closes value after met'
    dsimp only
    cases closing : finalizer after with
    | ok u done => rw [closing] at last; exact last
    | error error done => rw [closing] at last; exact last
  | error error after =>
    rw [run] at met'
    have last := fails error after met'
    dsimp only
    cases closing : finalizer after with
    | ok u done => rw [closing] at last; exact last
    | error other done => rw [closing] at last; exact last

/-- An invariant of each step of a loop is one of the loop. -/
theorem forM_ensures {γ : Type} {items : List γ} {step : γ → EStateM ε σ Unit} {keeps : σ → Prop}
    (steps : ∀ item ∈ items, Ensures keeps (step item) (fun _ => keeps) raises) :
    Ensures keeps (items.forM step) (fun _ => keeps) raises := by
  induction items with
  | nil => exact pure_ensures () fun _ kept => kept
  | cons item items ih =>
    refine bind_ensures _ (steps item List.mem_cons_self) fun _ => ih ?_
    exact fun later member => steps later (List.mem_cons_of_mem _ member)

end Effect
