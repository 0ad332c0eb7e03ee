import Mathlib.Data.Option.Basic
import Mathlib.Tactic.Common

/-!
Guarded computations in `Except`.

A command is a chain of checks that each may refuse, then one result. The two builders here are the
only ways a check is written, and the lemmas turn a successful chain into the facts it has checked.
-/
namespace Outcome

variable {ε α β : Type}

/-- Continue when the condition holds, and refuse with the error otherwise. -/
def require (condition : Prop) [Decidable condition] (error : ε) : Except ε Unit :=
  if condition then .ok () else .error error

/-- Continue with the value when there is one, and refuse with the error otherwise. -/
def orThrow (value : Option α) (error : ε) : Except ε α :=
  match value with
  | some result => .ok result
  | none => .error error

@[simp] theorem require_ok {condition : Prop} [Decidable condition] {error : ε} {u : Unit} :
    require condition error = .ok u ↔ condition := by
  unfold require
  split <;> simp [*]

@[simp] theorem orThrow_ok {value : Option α} {error : ε} {result : α} :
    orThrow value error = .ok result ↔ value = some result := by
  cases value <;> simp [orThrow]

/-- A chain succeeds when its first part does and the rest does with its value. -/
theorem bind_ok {first : Except ε α} {next : α → Except ε β} {result : β} :
    (first >>= next) = .ok result ↔ ∃ value, first = .ok value ∧ next value = .ok result := by
  cases first <;> simp [bind, Except.bind]

@[simp] theorem pure_ok {value result : α} :
    (pure value : Except ε α) = .ok result ↔ value = result := by
  simp [pure, Except.pure]

/-- A chain does not end with an error that none of its parts ends with. -/
theorem bind_ne {first : Except ε α} {next : α → Except ε β} {error : ε} (begins : first ≠ .error error)
    (goes : ∀ value, first = .ok value → next value ≠ .error error) : (first >>= next) ≠ .error error := by
  cases first with
  | error other => simpa [bind, Except.bind] using begins
  | ok value => exact goes value rfl

theorem ok_ne {value : α} {error : ε} : (.ok value : Except ε α) ≠ .error error := by
  simp

theorem require_ne {condition : Prop} [Decidable condition] {refusal error : ε} (other : refusal ≠ error) :
    require condition refusal ≠ .error error := by
  unfold require
  split <;> simp [other]

theorem orThrow_ne {value : Option α} {refusal error : ε} (other : refusal ≠ error) :
    orThrow value refusal ≠ .error error := by
  cases value <;> simp [orThrow, other]

theorem ok_then {first : Except ε α} {value : α} (done : first = .ok value) (next : α → Except ε β) :
    (first >>= next) = next value := by
  rw [done]
  rfl

/-- A check that passes is not seen by the rest. -/
theorem require_then {condition : Prop} [Decidable condition] {error : ε} (holds : condition)
    (next : Unit → Except ε β) : (require condition error >>= next) = next () := by
  rw [require, if_pos holds]
  rfl

theorem orThrow_then {value : Option α} {error : ε} {result : α} (found : value = some result)
    (next : α → Except ε β) : (orThrow value error >>= next) = next result := by
  rw [found]
  rfl

/-- Run a check over each element in order; the first refusal ends the traversal. -/
def forEach (check : α → Except ε Unit) : List α → Except ε Unit
  | [] => .ok ()
  | x :: xs => check x >>= fun _ => forEach check xs

@[simp] theorem forEach_ok {check : α → Except ε Unit} {xs : List α} {u : Unit} :
    forEach check xs = .ok u ↔ ∀ x ∈ xs, check x = .ok () := by
  induction xs with
  | nil => simp [forEach]
  | cons x xs ih =>
    cases checked : check x with
    | error error => simp [forEach, checked, bind, Except.bind]
    | ok u => simp [forEach, checked, bind, Except.bind, ih]

end Outcome
