import Mathlib.Data.Option.Basic

/-!
Rounds of a loop that ends with a round that changes nothing.

The number of rounds is bounded beforehand. The bound is not felt when every round that changes something
uses up something of which there is less than that.
-/
namespace Rounds

variable {σ : Type} {round : σ → Option (σ × Bool)}

/-- Take rounds, at most `fuel` of them, up to one that reports no change. A round can fail. -/
def settle (round : σ → Option (σ × Bool)) : Nat → σ → Option σ
  | 0, state => some state
  | fuel + 1, state => do
    let (next, changed) ← round state
    if changed then settle round fuel next else return next

/-- With enough fuel the last round changed nothing, and what every round keeps held before it. -/
theorem settle_settled {holds : σ → Prop} (left : σ → Nat) {fuel : Nat} {start result : σ}
    (keeps : ∀ state next, holds state → round state = some (next, true) →
      holds next ∧ left next < left state)
    (initially : holds start) (enough : left start < fuel)
    (settled : settle round fuel start = some result) :
    ∃ last, holds last ∧ round last = some (result, false) := by
  induction fuel generalizing start with
  | zero => exact absurd enough (Nat.not_lt_zero _)
  | succ fuel ih =>
    obtain ⟨⟨next, changed⟩, taken, rest⟩ := Option.bind_eq_some_iff.mp settled
    cases changed with
    | false =>
      obtain rfl := Option.some.inj rest
      exact ⟨start, initially, taken⟩
    | true =>
      obtain ⟨kept, less⟩ := keeps start next initially taken
      exact ih kept (by omega) rest

theorem settle_some (never : ∀ state, ∃ result, round state = some result) (fuel : Nat) (start : σ) :
    ∃ result, settle round fuel start = some result := by
  induction fuel generalizing start with
  | zero => exact ⟨start, rfl⟩
  | succ fuel ih =>
    obtain ⟨⟨next, changed⟩, taken⟩ := never start
    rw [settle, taken]
    cases changed with
    | false => exact ⟨next, rfl⟩
    | true => exact ih next

end Rounds
