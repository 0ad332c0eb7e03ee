import PhysHarness.Lib.Json

/-!
Results that are kept under the names of objects.

A name stands for one object as long as the objects live, so a result that was kept under a name is
the result of every object of that name.
-/
namespace Memo

variable {κ α ν : Type}

/-- One name, one object. -/
def OneObject (name : α → Option κ) (objects : List α) : Prop :=
  ∀ x ∈ objects, ∀ y ∈ objects, ∀ key, name x = some key → name y = some key → x = y

variable [DecidableEq κ]

/-- What is kept under a name is the result of the objects of that name. -/
def Right (name : α → Option κ) (compute : α → ν) (objects : List α) (kept : List (κ × ν)) : Prop :=
  ∀ x ∈ objects, ∀ key result, name x = some key → Dict.get kept key = some result →
    result = compute x

variable {name : α → Option κ} {compute : α → ν} {objects : List α} {kept : List (κ × ν)}

theorem Right.nil : Right name compute objects [] := by
  intro x _ key result _ found
  cases found

/-- A result that is computed is kept under the name of its object. -/
theorem Right.set (right : Right name compute objects kept) (one : OneObject name objects) {x : α}
    {key : κ} (member : x ∈ objects) (named : name x = some key) :
    Right name compute objects (Dict.set kept key (compute x)) := by
  intro y other otherKey result otherNamed found
  by_cases same : otherKey = key
  · subst same
    rw [Dict.get_set_self] at found
    rw [one y other x member otherKey otherNamed named]
    exact (Option.some.inj found).symm
  · rw [Dict.get_set_ne same] at found
    exact right y other otherKey result otherNamed found

end Memo
