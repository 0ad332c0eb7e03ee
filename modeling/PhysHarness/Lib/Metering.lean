import Mathlib.Algebra.Order.Monoid.Canonical.Defs
import Mathlib.Data.List.Forall2
import Mathlib.Tactic.Abel
import Mathlib.Tactic.Common

/-!
Computations that use up a budget.

The state is what has been used so far. `Spends` says that a computation gives a result at a cost
wherever the budget has room for it; `Costs` says what every successful run of a computation gives
and at which cost. A producer that is known by `Costs` and a consumer that is known by `Spends` are
matched by their costs, whatever the order in which each of them pays.
-/
namespace Metering

variable {M ε α β γ : Type} [AddCommMonoid M] [PartialOrder M]

abbrev Metered (M ε α : Type) := StateT M (Except ε) α

/-- With room for the cost, the computation gives the result and uses the cost. -/
def Spends (limit : M) (action : Metered M ε α) (result : α) (cost : M) : Prop :=
  ∀ used, used + cost ≤ limit → action used = .ok (result, used + cost)

/-- What a successful run gives, and the cost that it has added. -/
def Costs (action : Metered M ε α) (post : α → M → Prop) : Prop :=
  ∀ used result after, action used = .ok (result, after) →
    ∃ cost, after = used + cost ∧ post result cost

/-- The elements of two lists are related one by one, at a total cost. -/
inductive Each (related : α → β → M → Prop) : List α → List β → M → Prop
  | nil : Each related [] [] 0
  | cons {x : α} {y : β} {xs : List α} {ys : List β} {cost rest : M} : related x y cost →
      Each related xs ys rest → Each related (x :: xs) (y :: ys) (cost + rest)

variable {limit : M}

/-! ### Spending -/

theorem Spends.pure (result : α) : Spends limit (Pure.pure result : Metered M ε α) result 0 := by
  intro used _
  rw [add_zero]
  rfl

section

variable [CanonicallyOrderedAdd M]

theorem Spends.bind {first : Metered M ε α} {next : α → Metered M ε β} {value : α} {result : β}
    {cost rest : M} (begins : Spends limit first value cost)
    (ends : Spends limit (next value) result rest) :
    Spends limit (first >>= next) result (cost + rest) := by
  intro used room
  rw [← add_assoc] at room ⊢
  show (first used >>= fun step => next step.1 step.2) = _
  rw [begins used (le_trans le_self_add room)]
  exact ends (used + cost) room

theorem Spends.map {action : Metered M ε α} {value : α} {cost : M}
    (spends : Spends limit action value cost) (f : α → β) :
    Spends limit (action >>= fun value => Pure.pure (f value)) (f value) cost := by
  have both : Spends limit (action >>= fun value => Pure.pure (f value)) (f value) (cost + 0) :=
    spends.bind (.pure (f value))
  rwa [add_zero] at both

/-- A traversal gives the results one by one and spends all their costs. -/
theorem Spends.mapM {f : α → Metered M ε β} {xs : List α} {ys : List β} {cost : M}
    (each : Each (fun x y cost => Spends limit (f x) y cost) xs ys cost) :
    Spends limit (xs.mapM f) ys cost := by
  induction each with
  | nil => exact .pure []
  | @cons x y xs ys cost rest first _ ih =>
    rw [List.mapM_cons]
    exact first.bind (ih.map fun ys => y :: ys)

end

/-! ### Costs -/

omit [PartialOrder M] in
theorem Costs.pure {value : α} {post : α → M → Prop} (holds : post value 0) :
    Costs (Pure.pure value : Metered M ε α) post := by
  intro used result after done
  cases done
  exact ⟨0, (add_zero used).symm, holds⟩

omit [PartialOrder M] in
theorem Costs.throw {error : ε} {post : α → M → Prop} :
    Costs (throw error : Metered M ε α) post := by
  intro used result after done
  cases done

omit [PartialOrder M] in
theorem Costs.mono {action : Metered M ε α} {post weaker : α → M → Prop} (costs : Costs action post)
    (weaken : ∀ result cost, post result cost → weaker result cost) : Costs action weaker := by
  intro used result after done
  obtain ⟨cost, paid, holds⟩ := costs used result after done
  exact ⟨cost, paid, weaken result cost holds⟩

omit [PartialOrder M] in
theorem Costs.bind {first : Metered M ε α} {next : α → Metered M ε β} {middle : α → M → Prop}
    {post : β → M → Prop} (begins : Costs first middle)
    (ends : ∀ value cost, middle value cost →
      Costs (next value) fun result rest => post result (cost + rest)) :
    Costs (first >>= next) post := by
  intro used result after done
  change (first used >>= fun step => next step.1 step.2) = .ok (result, after) at done
  cases half : first used with
  | error error => rw [half] at done; cases done
  | ok step =>
    obtain ⟨value, between⟩ := step
    rw [half] at done
    obtain ⟨cost, paid, holds⟩ := begins used value between half
    obtain ⟨rest, later, post⟩ := ends value cost holds between result after done
    exact ⟨cost + rest, by rw [later, paid, add_assoc], post⟩

omit [PartialOrder M] in
/-- A traversal relates the elements to their results. -/
theorem Costs.mapM {f : α → Metered M ε β} {xs : List α} {post : α → β → M → Prop}
    (each : ∀ x ∈ xs, Costs (f x) (post x)) : Costs (xs.mapM f) (Each post xs) := by
  induction xs with
  | nil => exact .pure .nil
  | cons x xs ih =>
    rw [List.mapM_cons]
    refine (each x List.mem_cons_self).bind fun y cost first => ?_
    refine (ih fun x member => each x (List.mem_cons_of_mem _ member)).bind fun ys rest others => ?_
    exact .pure (by rw [add_zero]; exact .cons first others)

/-! ### Lists of costs -/

omit [PartialOrder M] in
theorem Each.mono {related weaker : α → β → M → Prop} {xs : List α} {ys : List β} {cost : M}
    (each : Each related xs ys cost)
    (weaken : ∀ x ∈ xs, ∀ y cost, related x y cost → weaker x y cost) : Each weaker xs ys cost := by
  induction each with
  | nil => exact .nil
  | cons first _ ih =>
    exact .cons (weaken _ List.mem_cons_self _ _ first)
      (ih fun x member => weaken x (List.mem_cons_of_mem _ member))

omit [PartialOrder M] in
theorem Each.length {related : α → β → M → Prop} {xs : List α} {ys : List β} {cost : M}
    (each : Each related xs ys cost) : xs.length = ys.length := by
  induction each with
  | nil => rfl
  | cons _ _ ih => rw [List.length_cons, List.length_cons, ih]

omit [PartialOrder M] in
/-- A feature that the relation keeps is the same on both sides. -/
theorem Each.map_eq {related : α → β → M → Prop} {f : α → γ} {g : β → γ} {xs : List α} {ys : List β}
    {cost : M} (each : Each related xs ys cost)
    (same : ∀ x y cost, related x y cost → g y = f x) : ys.map g = xs.map f := by
  induction each with
  | nil => rfl
  | cons first _ ih => rw [List.map_cons, List.map_cons, same _ _ _ first, ih]

omit [PartialOrder M] in
theorem Each.forall_right {related : α → β → M → Prop} {holds : β → Prop} {xs : List α} {ys : List β}
    {cost : M} (each : Each related xs ys cost)
    (one : ∀ x y cost, related x y cost → holds y) : ∀ y ∈ ys, holds y := by
  induction each with
  | nil => exact fun _ member => nomatch member
  | cons first _ ih => exact List.forall_mem_cons.mpr ⟨one _ _ _ first, ih⟩

omit [PartialOrder M] in
theorem Each.map_right {related : α → γ → M → Prop} {f : β → γ} {xs : List α} {ys : List β} {cost : M}
    (each : Each (fun x y cost => related x (f y) cost) xs ys cost) :
    Each related xs (ys.map f) cost := by
  induction each with
  | nil => exact .nil
  | cons first _ ih => exact .cons first ih

omit [PartialOrder M] in
theorem Each.map_left {related : γ → β → M → Prop} {f : α → γ} {xs : List α} {ys : List β} {cost : M}
    (each : Each (fun x y cost => related (f x) y cost) xs ys cost) :
    Each related (xs.map f) ys cost := by
  induction each with
  | nil => exact .nil
  | cons first _ ih => exact .cons first ih

omit [PartialOrder M] in
/-- The intermediate values, as a list between the two. -/
theorem Each.middle {first : α → γ → Prop} {second : β → γ → M → Prop} {xs : List α} {ys : List β}
    {cost : M} (each : Each (fun x y cost => ∃ z, first x z ∧ second y z cost) xs ys cost) :
    ∃ zs, List.Forall₂ first xs zs ∧ Each second ys zs cost := by
  induction each with
  | nil => exact ⟨[], .nil, .nil⟩
  | cons one _ ih =>
    obtain ⟨z, before, after⟩ := one
    obtain ⟨zs, all, rest⟩ := ih
    exact ⟨z :: zs, .cons before all, .cons after rest⟩

omit [PartialOrder M] in
theorem Each.swap {related : β → γ → M → Prop} {f : α → γ} {xs : List α} {ys : List β} {cost : M}
    (each : Each (fun x y cost => related y (f x) cost) xs ys cost) :
    Each related ys (xs.map f) cost := by
  induction each with
  | nil => exact .nil
  | cons first _ ih => exact .cons first ih

omit [PartialOrder M] in
/-- What is related to the same elements is related, at both costs. -/
theorem Each.zip {first : α → β → M → Prop} {second : α → γ → M → Prop} {xs : List α} {ys : List β}
    {zs : List γ} {cost rest : M} (one : Each first xs ys cost) (two : Each second xs zs rest) :
    Each (fun y z total => ∃ x cost rest, first x y cost ∧ second x z rest ∧ total = cost + rest)
      ys zs (cost + rest) := by
  induction one generalizing zs rest with
  | nil =>
    cases two with
    | nil => rw [add_zero]; exact .nil
  | @cons x y xs ys cost more related _ ih =>
    cases two with
    | @cons _ z _ zs rest others also then_ =>
      have here : ∃ x cost' rest', first x y cost' ∧ second x z rest' ∧ cost + rest = cost' + rest' :=
        ⟨x, cost, rest, related, also, rfl⟩
      have both := Each.cons here (ih then_)
      rwa [add_add_add_comm] at both

omit [PartialOrder M] in
theorem Each.split {related : α → β → M → Prop} {xs : List α} {ys : List β} {cost : M}
    (each : Each related xs ys cost) (n : Nat) : ∃ first rest, cost = first + rest ∧
      Each related (xs.take n) (ys.take n) first ∧ Each related (xs.drop n) (ys.drop n) rest := by
  induction each generalizing n with
  | nil => exact ⟨0, 0, (add_zero 0).symm, by simpa using Each.nil, by simpa using Each.nil⟩
  | @cons x y xs ys cost more related also ih =>
    cases n with
    | zero => exact ⟨0, cost + more, (zero_add _).symm, .nil, .cons related also⟩
    | succ n =>
      obtain ⟨first, rest, total, before, after⟩ := ih n
      exact ⟨cost + first, rest, by rw [total, add_assoc], .cons related before, after⟩

omit [PartialOrder M] in
/-- Each element pays something more. -/
theorem Each.more {related : α → β → M → Prop} {xs : List α} {ys : List β} {cost : M} (price : α → M)
    (each : Each related xs ys cost) :
    Each (fun x y total => ∃ own, total = own + price x ∧ related x y own) xs ys
      (cost + (xs.map price).sum) := by
  induction each with
  | nil => rw [List.map_nil, List.sum_nil, add_zero]; exact .nil
  | @cons x y xs ys cost rest first _ ih =>
    rw [List.map_cons, List.sum_cons, add_add_add_comm]
    exact .cons ⟨cost, rfl, first⟩ ih

omit [PartialOrder M] in
/-- Where the results have distinct keys, the key of a result tells its cost. -/
theorem Each.priced {κ : Type} {related : α → β → M → Prop} {key : β → κ} {xs : List α} {ys : List β}
    {cost : M} (each : Each related xs ys cost) (distinct : (ys.map key).Nodup) :
    ∃ price : κ → M, (ys.map fun y => price (key y)).sum = cost ∧
      ∀ y ∈ ys, ∃ x ∈ xs, related x y (price (key y)) := by
  classical
  induction each with
  | nil => exact ⟨fun _ => 0, rfl, fun _ member => nomatch member⟩
  | @cons x y xs ys cost rest first _ ih =>
    obtain ⟨fresh, distinct⟩ := List.nodup_cons.mp distinct
    obtain ⟨price, total, all⟩ := ih distinct
    have other : ∀ z ∈ ys, Function.update price (key y) cost (key z) = price (key z) := by
      intro z member
      refine Function.update_of_ne (fun same : key z = key y => fresh ?_) _ _
      rw [← same]
      exact List.mem_map_of_mem member
    refine ⟨Function.update price (key y) cost, ?_, List.forall_mem_cons.mpr ⟨?_, ?_⟩⟩
    · rw [List.map_cons, List.sum_cons, Function.update_self, List.map_congr_left other, total]
    · exact ⟨x, List.mem_cons_self, by rwa [Function.update_self]⟩
    · intro z member
      obtain ⟨w, there, holds⟩ := all z member
      exact ⟨w, List.mem_cons_of_mem _ there, by rwa [other z member]⟩

/-! ### Results -/

section

variable {S : Type}

/-- What a successful run gives, whatever it uses. -/
def Yields (action : StateT S (Except ε) α) (post : α → Prop) : Prop :=
  ∀ used result after, action used = .ok (result, after) → post result

omit [AddCommMonoid M] [PartialOrder M]

theorem Yields.pure {value : α} {post : α → Prop} (holds : post value) :
    Yields (Pure.pure value : StateT S (Except ε) α) post := by
  intro used result after done
  cases done
  exact holds

theorem Yields.throw {error : ε} {post : α → Prop} :
    Yields (throw error : StateT S (Except ε) α) post := by
  intro used result after done
  cases done

theorem Yields.bind {first : StateT S (Except ε) α} {next : α → StateT S (Except ε) β}
    {middle : α → Prop} {post : β → Prop} (begins : Yields first middle)
    (ends : ∀ value, middle value → Yields (next value) post) : Yields (first >>= next) post := by
  intro used result after done
  change (first used >>= fun step => next step.1 step.2) = .ok (result, after) at done
  cases half : first used with
  | error error => rw [half] at done; cases done
  | ok step =>
    rw [half] at done
    exact ends step.1 (begins used step.1 step.2 half) step.2 result after done

/-- The rest may not depend on what comes first. -/
theorem Yields.after {first : StateT S (Except ε) α} {next : α → StateT S (Except ε) β}
    {post : β → Prop} (ends : ∀ value, Yields (next value) post) : Yields (first >>= next) post :=
  @bind _ _ _ _ _ _ (fun _ => True) _ (fun _ _ _ _ => trivial) fun value _ => ends value

theorem Yields.mono {action : StateT S (Except ε) α} {post weaker : α → Prop}
    (yields : Yields action post) (weaken : ∀ result, post result → weaker result) :
    Yields action weaker :=
  fun used result after done => weaken result (yields used result after done)

end

end Metering
