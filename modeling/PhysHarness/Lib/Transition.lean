import Mathlib.Data.List.Basic

/-!
Runs of a deterministic system under labels.

All nondeterminism is in the labels, so a run is a fold and can be evaluated. A run meets a
condition when every label meets it in the state it is taken from.
-/
namespace Transition

variable {σ ℓ : Type}

/-- The state after taking the labels in order. -/
def run (step : σ → ℓ → σ) (start : σ) (labels : List ℓ) : σ := labels.foldl step start

/-- Every label of the run meets the condition in the state it is taken from. -/
def Along (step : σ → ℓ → σ) (condition : σ → ℓ → Prop) : σ → List ℓ → Prop
  | _, [] => True
  | state, label :: labels =>
    condition state label ∧ Along step condition (step state label) labels

variable {step : σ → ℓ → σ} {condition : σ → ℓ → Prop}

instance Along.decidable [decided : ∀ state label, Decidable (condition state label)] :
    (state : σ) → (labels : List ℓ) → Decidable (Along step condition state labels)
  | _, [] => .isTrue trivial
  | state, label :: labels =>
    have rest := Along.decidable (step state label) labels
    @instDecidableAnd _ _ (decided state label) rest

@[simp] theorem run_nil (start : σ) : run step start [] = start := rfl

@[simp] theorem run_cons (start : σ) (label : ℓ) (labels : List ℓ) :
    run step start (label :: labels) = run step (step start label) labels := rfl

theorem run_append (start : σ) (first second : List ℓ) :
    run step start (first ++ second) = run step (run step start first) second := by
  simp [run, List.foldl_append]

theorem along_append {start : σ} {first second : List ℓ} :
    Along step condition start (first ++ second) ↔
      Along step condition start first ∧
        Along step condition (run step start first) second := by
  induction first generalizing start with
  | nil => simp [Along]
  | cons label first ih => simp [Along, ih, and_assoc]

/-- What holds at the start and survives every step holds after every run. -/
theorem run_always (holds : σ → Prop) {start : σ} (labels : List ℓ) (initially : holds start)
    (keeps : ∀ state label, holds state → holds (step state label)) :
    holds (run step start labels) := by
  induction labels generalizing start with
  | nil => exact initially
  | cons label labels ih => exact ih (keeps start label initially)

/-- What holds at the start and survives every step that meets the condition holds after every run
that meets it. -/
theorem run_invariant (holds : σ → Prop) {start : σ} {labels : List ℓ} (initially : holds start)
    (keeps : ∀ state label, holds state → condition state label → holds (step state label))
    (along : Along step condition start labels) : holds (run step start labels) := by
  induction labels generalizing start with
  | nil => exact initially
  | cons label labels ih =>
    exact ih (keeps start label initially along.1) along.2

/-- A relation between consecutive states that composes relates the two ends of a run. -/
theorem run_relates (related : σ → σ → Prop) {start : σ} {labels : List ℓ}
    (refl : ∀ state, related state state)
    (trans : ∀ first second third, related first second → related second third →
      related first third)
    (steps : ∀ state label, condition state label → related state (step state label))
    (along : Along step condition start labels) : related start (run step start labels) := by
  induction labels generalizing start with
  | nil => exact refl start
  | cons label labels ih =>
    exact trans _ _ _ (steps start label along.1) (ih along.2)

/-- What does not hold at the start and holds at the end began to hold at some label. -/
theorem run_begins (holds : σ → Prop) {start : σ} {labels : List ℓ} (absent : ¬ holds start)
    (reached : holds (run step start labels)) :
    ∃ first label rest, labels = first ++ label :: rest ∧ ¬ holds (run step start first) ∧
      holds (step (run step start first) label) := by
  induction labels generalizing start with
  | nil => exact absurd reached absent
  | cons label labels ih =>
    by_cases now : holds (step start label)
    · exact ⟨[], label, labels, rfl, absent, now⟩
    · obtain ⟨first, next, rest, same, before, after⟩ := ih now reached
      exact ⟨label :: first, next, rest, by rw [same, List.cons_append], before, after⟩

/-- What the labels of a run report, in order. -/
def trace {ε : Type} (step : σ → ℓ → σ) (report : σ → ℓ → List ε) : σ → List ℓ → List ε
  | _, [] => []
  | state, label :: labels => report state label ++ trace step report (step state label) labels

/-- What ties the start to what was told before, and every step to what its label reports, ties the end
of a run to everything told. -/
theorem trace_always {ε : Type} {report : σ → ℓ → List ε} (holds : σ → List ε → Prop) {start : σ}
    {told : List ε} (labels : List ℓ) (initially : holds start told)
    (keeps : ∀ state told label, holds state told →
      holds (step state label) (told ++ report state label)) :
    holds (run step start labels) (told ++ trace step report start labels) := by
  induction labels generalizing start told with
  | nil => simpa [trace] using initially
  | cons label labels ih =>
    rw [trace, ← List.append_assoc]
    exact ih (keeps start told label initially)

/-- As `trace_always`, over the steps of a run that meets a condition. -/
theorem trace_invariant {ε : Type} {report : σ → ℓ → List ε} (holds : σ → List ε → Prop) {start : σ}
    {told : List ε} {labels : List ℓ} (initially : holds start told)
    (keeps : ∀ state told label, holds state told → condition state label →
      holds (step state label) (told ++ report state label))
    (along : Along step condition start labels) :
    holds (run step start labels) (told ++ trace step report start labels) := by
  induction labels generalizing start told with
  | nil => simpa [trace] using initially
  | cons label labels ih =>
    rw [trace, ← List.append_assoc]
    exact ih (keeps start told label initially along.1) along.2

theorem along_of_forall {safe : ℓ → Prop} {start : σ} {labels : List ℓ}
    (every : ∀ label ∈ labels, safe label) : Along step (fun _ => safe) start labels := by
  induction labels generalizing start with
  | nil => trivial
  | cons label labels ih =>
    exact ⟨every label List.mem_cons_self, ih fun later member =>
      every later (List.mem_cons_of_mem _ member)⟩

end Transition
