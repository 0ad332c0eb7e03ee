import PhysHarness.Lib.Json

/-!
Values that keys are given one after the other, where a key that has a value cannot get another.

The whole sequence is accepted exactly when it gives no key two values, so its order does not matter.
-/
namespace Assignment

variable {κ ν : Type}

/-- No key has two values. -/
def Functional (pairs : List (κ × ν)) : Prop :=
  ∀ key first second, (key, first) ∈ pairs → (key, second) ∈ pairs → first = second

theorem Functional.of_subset {pairs others : List (κ × ν)} (functional : Functional pairs)
    (inside : others ⊆ pairs) : Functional others :=
  fun key first second one other => functional key first second (inside one) (inside other)

/-- What was given is what the pairs say, each key once. -/
structure Tracks (given pairs : List (κ × ν)) : Prop where
  distinct : (given.map Prod.fst).Nodup
  same : ∀ pair, pair ∈ given ↔ pair ∈ pairs

theorem Tracks.nil : Tracks ([] : List (κ × ν)) [] := ⟨List.nodup_nil, fun _ => Iff.rfl⟩

variable [DecidableEq κ]

theorem Tracks.get {given pairs : List (κ × ν)} (tracks : Tracks given pairs) {key : κ} {value : ν} :
    Dict.get given key = some value ↔ (key, value) ∈ pairs := by
  rw [Dict.get_eq_some tracks.distinct, tracks.same]

theorem Tracks.functional {given pairs : List (κ × ν)} (tracks : Tracks given pairs) :
    Functional pairs := by
  intro key first second one other
  exact Option.some.inj ((tracks.get.mpr one).symm.trans (tracks.get.mpr other))

variable [DecidableEq ν]

/-- Give a key its value, unless it has another. -/
def assign (given : List (κ × ν)) (key : κ) (value : ν) : Option (List (κ × ν)) :=
  match Dict.get given key with
  | some old => if old = value then some (Dict.set given key value) else none
  | none => some (Dict.set given key value)

variable {given pairs after : List (κ × ν)} {key : κ} {value : ν}

theorem assign_some :
    assign given key value = some after ↔
      (∀ old, Dict.get given key = some old → old = value) ∧ Dict.set given key value = after := by
  unfold assign
  cases found : Dict.get given key with
  | none => simp
  | some old =>
    dsimp only
    split
    next same => simp [same]
    next other => simp [other]

/-- A value that was given is one of the pairs. -/
theorem Tracks.assign (tracks : Tracks given pairs) (done : assign given key value = some after) :
    Tracks after (pairs ++ [(key, value)]) := by
  obtain ⟨agrees, rfl⟩ := assign_some.mp done
  refine ⟨Dict.nodup_set tracks.distinct key value, fun pair => ?_⟩
  rw [Dict.mem_set, tracks.same, List.mem_append, List.mem_singleton]
  constructor
  · rintro (new | ⟨old, -⟩)
    · exact .inr new
    · exact .inl old
  · rintro (old | new)
    · by_cases here : pair.1 = key
      · left
        have stored : Dict.get given key = some pair.2 := tracks.get.mpr (here ▸ old)
        exact Prod.ext here (agrees pair.2 stored)
      · exact .inr ⟨old, here⟩
    · exact .inl new

/-- A value that contradicts no pair is given. -/
theorem Tracks.assigns (tracks : Tracks given pairs)
    (functional : Functional (pairs ++ [(key, value)])) :
    ∃ after, Assignment.assign given key value = some after := by
  refine ⟨_, assign_some.mpr ⟨fun old stored => ?_, rfl⟩⟩
  have before := List.mem_append_left [(key, value)] (tracks.get.mp stored)
  exact functional key old value before (List.mem_append_right _ (List.mem_singleton.mpr rfl))

end Assignment
