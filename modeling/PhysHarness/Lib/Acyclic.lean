import Mathlib.Order.WellFoundedSet

/-!
Acyclic relations. Some vertex of every finite set has no edge into it, and a relation that changes at
one vertex at a time can stay acyclic.

A new vertex gets edges to some old vertices and edges from some old vertices. The relation stays
acyclic exactly when no target of the new vertex already reached one of its sources. A vertex that
is there may also get other edges: the relation stays acyclic when no new target reached it.
-/
namespace Acyclic

open Relation

variable {α : Type} {r s : α → α → Prop}

/-- No vertex reaches itself. -/
def NoCycle (r : α → α → Prop) : Prop := ∀ x, ¬ TransGen r x x

theorem NoCycle.congr (none : NoCycle r) (same : ∀ x y, s x y → r x y) : NoCycle s :=
  fun x cycle => none x (TransGen.mono same x x cycle)

/-- A finite set of vertices has one without an edge to another of the set. -/
theorem NoCycle.exists_sink (none : NoCycle r) {vertices : Set α} (finite : vertices.Finite)
    (nonempty : vertices.Nonempty) : ∃ x ∈ vertices, ∀ y ∈ vertices, ¬ r x y := by
  -- paths, read backwards, are a strict order, which is well founded on a finite set
  have order : IsStrictOrder α (Function.swap (TransGen r)) :=
    { irrefl := none
      trans := fun _ _ _ first second => second.trans first }
  have founded : vertices.WellFoundedOn (Function.swap (TransGen r)) := finite.wellFoundedOn
  obtain ⟨x, -, least⟩ := WellFounded.has_min founded Set.univ
    ⟨⟨nonempty.some, nonempty.some_mem⟩, trivial⟩
  refine ⟨x.1, x.2, fun y member edge => ?_⟩
  exact least ⟨y, member⟩ trivial (.single edge)

/-- A relation with one more vertex: its edges are the old ones, those from the new vertex to its
targets, and those from its sources to it. -/
structure Extends (r s : α → α → Prop) (vertex : α) (targets sources : α → Prop) : Prop where
  edges : ∀ x y, s x y → r x y ∨ (x = vertex ∧ targets y) ∨ (sources x ∧ y = vertex)
  noOut : ∀ y, ¬ r vertex y
  noIn : ∀ x, ¬ r x vertex
  targetsOld : ¬ targets vertex
  sourcesOld : ¬ sources vertex

variable {vertex : α} {targets sources : α → Prop}

/-- A path that starts where no source is reachable stays among the old vertices. -/
theorem Extends.stays (grows : Extends r s vertex targets sources) {x y : α} (distinct : x ≠ vertex)
    (apart : ∀ source, sources source → ¬ ReflTransGen r x source) (path : ReflTransGen s x y) :
    ReflTransGen r x y ∧ y ≠ vertex := by
  induction path with
  | refl => exact ⟨.refl, distinct⟩
  | tail _ edge ih =>
    obtain ⟨old, here⟩ := ih
    rcases grows.edges _ _ edge with known | ⟨new, -⟩ | ⟨source, -⟩
    · refine ⟨old.tail known, ?_⟩
      rintro rfl
      exact grows.noIn _ known
    · exact absurd new here
    · exact absurd old (apart _ source)

/-- A path either is an old one or passes through the new vertex. -/
theorem Extends.passes (grows : Extends r s vertex targets sources) {x y : α}
    (path : TransGen s x y) :
    TransGen r x y ∨ (ReflTransGen s x vertex ∧ ReflTransGen s vertex y) := by
  induction path with
  | single edge =>
    rcases grows.edges _ _ edge with known | ⟨rfl, -⟩ | ⟨-, rfl⟩
    · exact .inl (.single known)
    · exact .inr ⟨.refl, .single edge⟩
    · exact .inr ⟨.single edge, .refl⟩
  | tail before edge ih =>
    rcases ih with old | ⟨into, out⟩
    · rcases grows.edges _ _ edge with known | ⟨rfl, -⟩ | ⟨-, rfl⟩
      · exact .inl (old.tail known)
      · exact .inr ⟨before.to_reflTransGen, .single edge⟩
      · exact .inr ⟨(before.tail edge).to_reflTransGen, .refl⟩
    · exact .inr ⟨into, out.tail edge⟩

/-- The relation stays acyclic when no target of the new vertex reaches one of its sources. -/
theorem NoCycle.extend (none : NoCycle r) (grows : Extends r s vertex targets sources)
    (apart : ∀ target, targets target → ∀ source, sources source → ¬ ReflTransGen r target source) :
    NoCycle s := by
  intro x cycle
  rcases grows.passes cycle with old | ⟨into, out⟩
  · exact none x old
  · -- the cycle leaves the new vertex through a target and has to come back to it
    have around : TransGen s vertex vertex := .trans_right out (cycle.trans_left into)
    obtain ⟨next, edge, back⟩ := TransGen.head'_iff.mp around
    rcases grows.edges _ _ edge with known | ⟨-, target⟩ | ⟨source, -⟩
    · exact grows.noOut _ known
    · have distinct : next ≠ vertex := by
        rintro rfl
        exact grows.targetsOld target
      exact (grows.stays distinct (apart next target) back).2 rfl
    · exact grows.sourcesOld source

/-- A vertex may get edges to targets that did not reach it. -/
theorem NoCycle.redirect (none : NoCycle r)
    (edges : ∀ x y, s x y → r x y ∨ (x = vertex ∧ targets y))
    (apart : ∀ target, targets target → ¬ ReflTransGen r target vertex) : NoCycle s := by
  -- from a target the changed edges are out of reach
  have stays : ∀ target, targets target → ∀ y, ReflTransGen s target y →
      ReflTransGen r target y := by
    intro target new y path
    induction path with
    | refl => exact .refl
    | tail _ edge ih =>
      rcases edges _ _ edge with known | ⟨rfl, -⟩
      · exact ih.tail known
      · exact absurd ih (apart target new)
  have passes : ∀ x y, TransGen s x y → TransGen r x y ∨
      ∃ target, targets target ∧ ReflTransGen s x vertex ∧ ReflTransGen s target y := by
    intro x y path
    induction path with
    | single edge =>
      rcases edges _ _ edge with known | ⟨rfl, new⟩
      · exact .inl (.single known)
      · exact .inr ⟨_, new, .refl, .refl⟩
    | tail before edge ih =>
      rcases ih with old | ⟨target, new, into, out⟩
      · rcases edges _ _ edge with known | ⟨rfl, new⟩
        · exact .inl (old.tail known)
        · exact .inr ⟨_, new, before.to_reflTransGen, .refl⟩
      · exact .inr ⟨target, new, into, out.tail edge⟩
  intro x cycle
  rcases passes x x cycle with old | ⟨target, new, into, out⟩
  · exact none x old
  · exact apart target new (stays target new vertex (out.trans into))

end Acyclic
