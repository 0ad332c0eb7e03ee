import PhysHarness.Lib.Transition

/-!
Runs in which something can happen once.

The states of a run are in stages that are never left downwards. A mark that is put only where a stage is
reached is then put at most once, and what is reached was reached at some label.
-/
namespace Stages

open Transition (run Along)

variable {σ ℓ μ : Type} {step : σ → ℓ → σ} {condition : σ → ℓ → Prop}

/-- The marks of the labels of a run. -/
def marks (step : σ → ℓ → σ) (mark : σ → ℓ → μ) : σ → List ℓ → List μ
  | _, [] => []
  | state, label :: labels => mark state label :: marks step mark (step state label) labels

variable {mark : σ → ℓ → μ} {holds : σ → Prop} {stage : σ → Nat}

/-- A mark that is put only where a stage is reached is put at most once, and not at all when the run starts
in that stage. -/
theorem count_marks [BEq μ] [LawfulBEq μ] (once : μ) (level : Nat)
    (keeps : ∀ state label, holds state → condition state label → holds (step state label))
    (climbs : ∀ state label, holds state → condition state label → stage state ≤ stage (step state label))
    (marked : ∀ state label, holds state → condition state label → mark state label = once →
      stage state < level ∧ level ≤ stage (step state label))
    {start : σ} {labels : List ℓ} (initially : holds start) (along : Along step condition start labels) :
    (marks step mark start labels).count once ≤ if level ≤ stage start then 0 else 1 := by
  induction labels generalizing start with
  | nil => exact Nat.zero_le _
  | cons label labels ih =>
    have rest := ih (keeps start label initially along.1) along.2
    have up := climbs start label initially along.1
    rw [marks, List.count_cons]
    by_cases put : mark start label = once
    · obtain ⟨below, above⟩ := marked start label initially along.1 put
      rw [if_pos above] at rest
      rw [if_neg (Nat.not_le.mpr below)]
      simp only [put, beq_self_eq_true, if_true]
      omega
    · simp only [beq_iff_eq, put, if_false, Nat.add_zero]
      split
      next reached => rwa [if_pos (Nat.le_trans reached up)] at rest
      next => exact Nat.le_trans rest (by split <;> omega)

/-- A stage that was not there at the start was reached at some label of the run. -/
theorem reached_at (level : Nat)
    (keeps : ∀ state label, holds state → condition state label → holds (step state label))
    {start : σ} {labels : List ℓ} (initially : holds start) (along : Along step condition start labels)
    (below : stage start < level) (above : level ≤ stage (run step start labels)) :
    ∃ first label rest, labels = first ++ label :: rest ∧ holds (run step start first) ∧
      Along step condition start first ∧ condition (run step start first) label ∧
      stage (run step start first) < level ∧ level ≤ stage (step (run step start first) label) := by
  obtain ⟨first, label, rest, same, before, after⟩ :=
    Transition.run_begins (fun state => level ≤ stage state) (Nat.not_le.mpr below) above
  rw [same] at along
  obtain ⟨alongFirst, here, -⟩ := Transition.along_append.mp along
  exact ⟨first, label, rest, same, Transition.run_invariant holds initially keeps alongFirst, alongFirst,
    here, Nat.not_le.mp before, after⟩

end Stages
