import Mathlib.Data.List.Nodup
import Mathlib.Data.List.Perm.Subperm
import Mathlib.Logic.Relation

/-!
Roots of a parent map.

A vertex has a parent, or is a root, or is not in the map. Climbing to the parent stops at a root, and
fails when it leaves the map or meets a vertex again. As no vertex is met twice, one more step than the
map has vertices is always enough.
-/
namespace Ancestry

open Relation

variable {α : Type} {parent : α → Option (Option α)}

/-- How a climb ends. -/
inductive Climb (α : Type) where
  | root (vertex : α)
  | failed
  | unfinished

/-- Climb, at most `fuel` steps, from a vertex after those that were visited. -/
def climb [DecidableEq α] (parent : α → Option (Option α)) : Nat → List α → α → Climb α
  | 0, _, _ => .unfinished
  | fuel + 1, visited, current =>
    if current ∈ visited then .failed
    else
      match parent current with
      | none => .failed
      | some none => .root current
      | some (some above) => climb parent fuel (current :: visited) above

/-- One step to the parent. -/
def Above (parent : α → Option (Option α)) (x y : α) : Prop := parent x = some (some y)

/-- The vertex climbs to the root. -/
def RootOf (parent : α → Option (Option α)) (x root : α) : Prop :=
  ReflTransGen (Above parent) x root ∧ parent root = some none

/-- What lies on the climb climbs to the same root. -/
theorem RootOf.ahead {x y root : α} (rooted : RootOf parent x root)
    (path : ReflTransGen (Above parent) x y) : RootOf parent y root := by
  induction path with
  | refl => exact rooted
  | tail _ edge ih =>
    refine ⟨?_, rooted.2⟩
    rcases ReflTransGen.cases_head ih.1 with same | ⟨next, step, rest⟩
    · rw [Above, same, rooted.2] at edge
      cases edge
    · obtain rfl : _ = next := Option.some.inj (Option.some.inj (edge.symm.trans step))
      exact rest

/-- A vertex on its own cycle has no root. -/
theorem not_rootOf_of_cycle {x root : α} (cycle : TransGen (Above parent) x x) :
    ¬ RootOf parent x root := by
  -- along the climb every vertex stays on the cycle
  rintro ⟨path, stop⟩
  have around : ∀ y, ReflTransGen (Above parent) x y → TransGen (Above parent) y y := by
    intro y way
    induction way with
    | refl => exact cycle
    | tail _ edge ih =>
      obtain ⟨next, step, rest⟩ := TransGen.head'_iff.mp ih
      obtain rfl : _ = next := Option.some.inj (Option.some.inj (edge.symm.trans step))
      exact TransGen.tail' rest edge
  obtain ⟨next, step, -⟩ := TransGen.head'_iff.mp (around root path)
  rw [Above, stop] at step
  cases step

variable [DecidableEq α]

theorem climb_root {fuel : Nat} {visited : List α} {current root : α}
    (found : climb parent fuel visited current = .root root) : RootOf parent current root := by
  induction fuel generalizing visited current with
  | zero => cases found
  | succ fuel ih =>
    rw [climb] at found
    split at found
    · cases found
    split at found
    next => cases found
    next stop =>
      obtain rfl := Climb.root.inj found
      exact ⟨.refl, stop⟩
    next above edge =>
      obtain ⟨path, stop⟩ := ih found
      exact ⟨.head edge path, stop⟩

/-- A vertex with a root is found while no visited vertex lies ahead. -/
theorem climb_of_root {fuel : Nat} {visited : List α} {current root : α}
    (rooted : RootOf parent current root)
    (ahead : ∀ vertex ∈ visited, ¬ ReflTransGen (Above parent) current vertex) :
    climb parent fuel visited current = .root root ∨
      climb parent fuel visited current = .unfinished := by
  induction fuel generalizing visited current with
  | zero => exact .inr rfl
  | succ fuel ih =>
    rw [climb, if_neg fun met => ahead current met .refl]
    rcases ReflTransGen.cases_head rooted.1 with same | ⟨next, edge, rest⟩
    · rw [same, rooted.2]
      exact .inl rfl
    · rw [edge]
      refine ih ⟨rest, rooted.2⟩ fun vertex member way => ?_
      rcases List.mem_cons.mp member with rfl | before
      · exact not_rootOf_of_cycle (TransGen.head' edge way) rooted
      · exact ahead vertex before (.head edge way)

/-- With a vertex of the map for every visited one, the climb ends within the map. -/
theorem climb_finished {keys : List α} (covers : ∀ vertex, (parent vertex).isSome → vertex ∈ keys)
    {fuel : Nat} {visited : List α} {current : α} (distinct : visited.Nodup)
    (inside : ∀ vertex ∈ visited, vertex ∈ keys) (enough : keys.length < fuel + visited.length) :
    climb parent fuel visited current ≠ .unfinished := by
  induction fuel generalizing visited current with
  | zero =>
    have fits := (List.subperm_of_subset distinct inside).length_le
    omega
  | succ fuel ih =>
    rw [climb]
    split
    · nofun
    next fresh =>
      split
      next => nofun
      next => nofun
      next above edge =>
        refine ih (List.nodup_cons.mpr ⟨fresh, distinct⟩) ?_ ?_
        · refine List.forall_mem_cons.mpr ⟨covers current ?_, inside⟩
          rw [edge]
          rfl
        · rw [List.length_cons]
          omega

end Ancestry
