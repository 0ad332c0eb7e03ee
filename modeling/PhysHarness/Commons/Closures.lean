import Mathlib.Data.Fintype.Sets
import PhysHarness.Commons.Sources
import PhysHarness.Lib.Verdict
import Mathlib.Order.CompletePartialOrder

/-!
# Which published sources stand

A source stands on the Lean that its check inlined. One that recorded its whole closure stands while
every node of it holds the source it recorded; one that did not stands while each direct import is
its node's source and stands too. One instance answers many questions from one memo.

## Main result

`closures_order_independent`: every answer is the least fixed point's, whatever was asked before.
-/
namespace PhysHarness

open Relation

/-- The node payloads an instance judges over, by id. -/
structure NodeFamily where
  nodes : List (Id × CommonsNode)
  distinct : (nodes.map Prod.fst).Nodup

namespace NodeFamily

variable (family : NodeFamily)

def ids : List Id := family.nodes.map Prod.fst

def lookup (id : Id) : Option CommonsNode := Dict.get family.nodes id

/-- A node of the family. -/
abbrev Member := { id : Id // id ∈ family.ids }

theorem lookup_isSome (id : family.Member) : (family.lookup id).isSome = true := by
  obtain ⟨item, there, same⟩ := List.mem_map.mp id.2
  have found : family.lookup id = some item.2 :=
    (Dict.get_eq_some family.distinct).mpr (by rw [← same]; exact there)
  rw [found]
  rfl

theorem mem_ids {id : Id} {node : CommonsNode} (found : family.lookup id = some node) :
    id ∈ family.ids := Dict.mem_keys_of_get found

def payload (id : family.Member) : CommonsNode := (family.lookup id).get (family.lookup_isSome id)

theorem lookup_payload (id : family.Member) : family.lookup id = some (family.payload id) :=
  (Option.some_get (family.lookup_isSome id)).symm

end NodeFamily

namespace CommonsNode

/-- What the source's check stood on, and whether it recorded its whole closure. -/
def inlined (node : CommonsNode) : List (Id × Option Digest) × Bool :=
  match node.leanSource with
  | none => ([], false)
  | some source =>
    match source.closure with
    | some entries => (entries, true)
    | none => (source.imports.map fun entry => (entry.nodeId, entry.sha256), false)

def sourceSha256 (node : CommonsNode) : Option Digest := node.leanSource.map LeanSource.sha256

end CommonsNode

namespace Closures

variable (family : NodeFamily)

/-- The node of an entry, while it holds the source that the entry recorded. -/
def holding (entry : Id × Option Digest) : Option family.Member :=
  if known : entry.1 ∈ family.ids then
    if (family.payload ⟨entry.1, known⟩).sourceSha256 = entry.2 then some ⟨entry.1, known⟩ else none
  else none

/-- `_children` -/
def children (node : CommonsNode) : Option (List family.Member) × Bool :=
  (node.inlined.1.mapM (holding family), node.inlined.2)

/-- How a turn of `stands` judges a node without a verdict. -/
def look (id : family.Member) : Verdict.Look family.Member :=
  match children family (family.payload id) with
  | (children, true) => .settled children.isSome
  | (none, false) => .settled false
  | (some children, false) => .through children

/-- `stands`: the memo after the search, and the verdict. -/
def stands (memo : Verdict.Memo family.Member) (id : family.Member) :
    Verdict.Memo family.Member × Bool :=
  let after := Verdict.search (look family) memo [id]
  (after, (after.verdicts id).getD false)

variable [ContentHash]

/-- `source_state`, which asks for a verdict only when the statement alone gives a rank. -/
def sourceState (memo : Verdict.Memo family.Member) (id : family.Member) :
    Verdict.Memo family.Member × SourceState :=
  match statementState (family.payload id) with
  | .ranked rank =>
    let (after, standing) := stands family memo id
    (after, if standing then .ranked rank else .stale)
  | state => (memo, state)

/-- A question to one instance. -/
inductive Query where
  | stands (id : family.Member)
  | sourceState (id : family.Member)

inductive Answer where
  | stands (verdict : Bool)
  | sourceState (state : SourceState)

def ask (memo : Verdict.Memo family.Member) : Query family → Verdict.Memo family.Member × Answer
  | .stands id => ((stands family memo id).1, .stands (stands family memo id).2)
  | .sourceState id => ((sourceState family memo id).1, .sourceState (sourceState family memo id).2)

/-- The answers of one instance, one after the other. -/
def answers (memo : Verdict.Memo family.Member) : List (Query family) → List Answer
  | [] => []
  | query :: queries => (ask family memo query).2 :: answers (ask family memo query).1 queries

end Closures

/-! ### What stands -/

section

variable (family : NodeFamily)

/-- The node currently holds the recorded source, or none where none was recorded. -/
def HoldsSource (entry : Id × Option Digest) : Prop :=
  ∃ node, family.lookup entry.1 = some node ∧ node.sourceSha256 = entry.2

/-- What stands once these do. -/
def StandsOver (standing : Set Id) (node : CommonsNode) : Prop :=
  match node.leanSource with
  | none => True
  | some source =>
    match source.closure with
    | some entries => ∀ entry ∈ entries, HoldsSource family entry
    | none => ∀ entry ∈ source.imports, HoldsSource family (entry.nodeId, entry.sha256) ∧
        entry.nodeId ∈ standing

def standingRound : Set Id →o Set Id where
  toFun standing := {id | ∃ node, family.lookup id = some node ∧ StandsOver family standing node}
  monotone' first second more := by
    rintro id ⟨node, found, stands⟩
    refine ⟨node, found, ?_⟩
    unfold StandsOver at stands ⊢
    split at stands
    · trivial
    · split at stands
      · exact stands
      · exact fun entry listed => ⟨(stands entry listed).1, more (stands entry listed).2⟩

/-- The sources that stand: the least set that a round leaves as it is. -/
def standing : Set Id := OrderHom.lfp (standingRound family)

/-- A source without a recorded closure that imports the other node. -/
def ImportsUnrecorded (x y : Id) : Prop :=
  ∃ node source, family.lookup x = some node ∧ node.leanSource = some source ∧ source.closure = none ∧
    y ∈ source.imports.map SourceImport.nodeId

end

namespace Closures

variable {family : NodeFamily}

theorem holding_iff {entry : Id × Option Digest} {id : family.Member} :
    holding family entry = some id ↔ entry.1 = id ∧ HoldsSource family entry := by
  unfold holding HoldsSource
  constructor
  · intro found
    split at found
    next known =>
      split at found
      next same =>
        cases found
        exact ⟨rfl, _, family.lookup_payload ⟨entry.1, known⟩, same⟩
      · cases found
    · cases found
  · rintro ⟨named, node, found, same⟩
    have known := family.mem_ids found
    have payload : family.payload ⟨entry.1, known⟩ = node :=
      Option.some.inj ((family.lookup_payload ⟨entry.1, known⟩).symm.trans found)
    rw [dif_pos known, if_pos (by rw [payload, same])]
    exact congrArg some (Subtype.ext named)

/-- The children are the nodes of the entries, which all hold. -/
theorem children_some {entries : List (Id × Option Digest)} {children : List family.Member}
    (found : entries.mapM (holding family) = some children) :
    (∀ entry ∈ entries, HoldsSource family entry ∧ ∃ child ∈ children, entry.1 = child.1) ∧
      ∀ child ∈ children, ∃ entry ∈ entries, entry.1 = child.1 := by
  induction entries generalizing children with
  | nil =>
    rw [List.mapM_nil] at found
    cases found
    simp
  | cons entry entries ih =>
    simp only [List.mapM_cons, Option.bind_eq_bind, Option.bind_eq_some_iff, Option.pure_def,
      Option.some.injEq] at found
    obtain ⟨child, held, later, rest, rfl⟩ := found
    obtain ⟨named, holds⟩ := holding_iff.mp held
    obtain ⟨each, back⟩ := ih rest
    constructor
    · refine List.forall_mem_cons.mpr ⟨⟨holds, child, List.mem_cons_self .., named⟩, fun other listed => ?_⟩
      obtain ⟨known, one, member, same⟩ := each other listed
      exact ⟨known, one, List.mem_cons_of_mem _ member, same⟩
    · refine List.forall_mem_cons.mpr ⟨⟨entry, List.mem_cons_self .., named⟩, fun one member => ?_⟩
      obtain ⟨other, listed, same⟩ := back one member
      exact ⟨other, List.mem_cons_of_mem _ listed, same⟩

theorem children_isSome {entries : List (Id × Option Digest)} :
    (entries.mapM (holding family)).isSome = true ↔ ∀ entry ∈ entries, HoldsSource family entry := by
  induction entries with
  | nil => simp
  | cons entry entries ih =>
    have first : (holding family entry).isSome = true ↔ HoldsSource family entry := by
      constructor
      · intro some
        obtain ⟨id, found⟩ := Option.isSome_iff_exists.mp some
        exact (holding_iff.mp found).2
      · intro holds
        obtain ⟨node, found, -⟩ := id holds
        have held : holding family entry = some ⟨entry.1, family.mem_ids found⟩ :=
          holding_iff.mpr ⟨rfl, holds⟩
        rw [held]
        rfl
    rw [List.forall_mem_cons, ← first, ← ih, List.mapM_cons]
    cases holding family entry <;> cases entries.mapM (holding family) <;> simp

/-- The three ways in which a node is judged. -/
theorem look_cases (id : family.Member) :
    (∃ source entries, (family.payload id).leanSource = some source ∧ source.closure = some entries ∧
      look family id = .settled (entries.mapM (holding family)).isSome) ∨
    ((family.payload id).leanSource = none ∧ look family id = .through []) ∨
    (∃ source, (family.payload id).leanSource = some source ∧ source.closure = none ∧
      look family id = match (source.imports.map fun entry => (entry.nodeId, entry.sha256)).mapM
          (holding family) with
        | none => .settled false
        | some children => .through children) := by
  unfold look children CommonsNode.inlined
  cases published : (family.payload id).leanSource with
  | none => exact .inr (.inl ⟨rfl, by simp⟩)
  | some source =>
    cases recorded : source.closure with
    | some entries => exact .inl ⟨source, entries, rfl, recorded, by simp only [recorded]⟩
    | none =>
      refine .inr (.inr ⟨source, rfl, recorded, ?_⟩)
      simp only [recorded]
      cases (source.imports.map fun entry => (entry.nodeId, entry.sha256)).mapM (holding family) <;> rfl

theorem mem_standing {id : Id} : id ∈ standing family ↔
    ∃ node, family.lookup id = some node ∧ StandsOver family (standing family) node := by
  have fixed : standingRound family (standing family) = standing family := OrderHom.map_lfp _
  constructor
  · intro member
    rw [← fixed] at member
    exact member
  · intro stands
    rw [← fixed]
    exact stands

/-- What the search looks for is what stands. -/
theorem stands_iff (id : family.Member) : Verdict.Stands (look family) id ↔ id.1 ∈ standing family := by
  constructor
  · intro stands
    induction stands with
    | @settled id seen =>
      refine mem_standing.mpr ⟨_, family.lookup_payload id, ?_⟩
      unfold StandsOver
      rcases look_cases id with ⟨source, entries, published, recorded, judged⟩ | ⟨published, judged⟩ |
        ⟨source, published, recorded, judged⟩
      · rw [published]
        simp only [recorded]
        rw [judged] at seen
        exact children_isSome.mp (Verdict.Look.settled.inj seen)
      · rw [published]
        trivial
      · rw [judged] at seen
        split at seen <;> cases seen
    | @through id children seen _ ih =>
      refine mem_standing.mpr ⟨_, family.lookup_payload id, ?_⟩
      unfold StandsOver
      rcases look_cases id with ⟨source, entries, published, recorded, judged⟩ | ⟨published, judged⟩ |
        ⟨source, published, recorded, judged⟩
      · rw [judged] at seen
        cases seen
      · rw [published]
        trivial
      · rw [published]
        simp only [recorded]
        rw [judged] at seen
        split at seen
        · cases seen
        next found =>
          cases seen
          intro entry listed
          obtain ⟨holds, child, member, named⟩ :=
            (children_some found).1 _ (List.mem_map.mpr ⟨entry, listed, rfl⟩)
          refine ⟨holds, ?_⟩
          rw [show entry.nodeId = child.1 from named]
          exact ih child member
  · have closed : standingRound family
        {id | ∃ known : id ∈ family.ids, Verdict.Stands (look family) ⟨id, known⟩} ≤
        {id | ∃ known : id ∈ family.ids, Verdict.Stands (look family) ⟨id, known⟩} := by
      rintro id ⟨node, found, stands⟩
      have known := family.mem_ids found
      obtain rfl : family.payload ⟨id, known⟩ = node :=
        Option.some.inj ((family.lookup_payload ⟨id, known⟩).symm.trans found)
      refine ⟨known, ?_⟩
      unfold StandsOver at stands
      rcases look_cases ⟨id, known⟩ with ⟨source, entries, published, recorded, judged⟩ |
        ⟨published, judged⟩ | ⟨source, published, recorded, judged⟩
      · rw [published] at stands
        simp only [recorded] at stands
        rw [children_isSome.mpr stands] at judged
        exact .settled judged
      · exact .through judged (fun _ member => absurd member List.not_mem_nil)
      · rw [published] at stands
        simp only [recorded] at stands
        have held : ∀ entry ∈ source.imports.map fun entry => (entry.nodeId, entry.sha256),
            HoldsSource family entry := List.forall_mem_map.mpr fun entry listed => (stands entry listed).1
        obtain ⟨children, some⟩ := Option.isSome_iff_exists.mp (children_isSome.mpr held)
        rw [some] at judged
        refine .through judged fun child member => ?_
        obtain ⟨pair, listed, named⟩ := (children_some some).2 child member
        obtain ⟨entry, there, rfl⟩ := List.mem_map.mp listed
        obtain ⟨_, stands⟩ := (stands entry there).2
        have same : child = ⟨entry.nodeId, ‹_›⟩ := Subtype.ext named.symm
        rwa [same]
    intro member
    obtain ⟨_, stands⟩ := OrderHom.lfp_le (standingRound family) closed member
    exact stands

/-! ### Cycles of unrecorded sources -/

/-- What stands without a recorded closure stands through its imports. -/
theorem via_of_imports {x y : Id} (stands : x ∈ standing family) (edge : ImportsUnrecorded family x y) :
    y ∈ standing family ∧ ∃ (known : x ∈ family.ids) (there : y ∈ family.ids),
      Verdict.Via (look family) ⟨x, known⟩ ⟨y, there⟩ := by
  obtain ⟨node, source, found, published, recorded, imported⟩ := edge
  obtain ⟨entry, listed, rfl⟩ := List.mem_map.mp imported
  have known := family.mem_ids found
  obtain rfl : family.payload ⟨x, known⟩ = node :=
    Option.some.inj ((family.lookup_payload ⟨x, known⟩).symm.trans found)
  have judged : Verdict.Stands (look family) ⟨x, known⟩ := (stands_iff ⟨x, known⟩).mpr stands
  rcases look_cases ⟨x, known⟩ with ⟨_, entries, other, closed, -⟩ | ⟨other, -⟩ |
    ⟨_, other, -, seen⟩
  · rw [published] at other
    cases other
    rw [recorded] at closed
    cases closed
  · rw [published] at other
    cases other
  · rw [published] at other
    cases other
    split at seen
    · cases judged with
      | settled settled => rw [seen] at settled; cases settled
      | through through _ => rw [seen] at through; cases through
    next children some =>
      obtain ⟨-, child, member, named⟩ :=
        (children_some some).1 _ (List.mem_map.mpr ⟨entry, listed, rfl⟩)
      have via : Verdict.Via (look family) ⟨x, known⟩ child := ⟨children, seen, member⟩
      rw [show entry.nodeId = child.1 from named]
      exact ⟨(stands_iff child).mp (judged.via via), known, child.2, via⟩

theorem via_of_path {x y : Id} (stands : x ∈ standing family)
    (path : TransGen (ImportsUnrecorded family) x y) :
    y ∈ standing family ∧ ∃ (known : x ∈ family.ids) (there : y ∈ family.ids),
      TransGen (Verdict.Via (look family)) ⟨x, known⟩ ⟨y, there⟩ := by
  induction path with
  | single edge =>
    obtain ⟨also, known, there, via⟩ := via_of_imports stands edge
    exact ⟨also, known, there, .single via⟩
  | tail _ edge ih =>
    obtain ⟨middle, known, _, walked⟩ := ih
    obtain ⟨also, _, there, via⟩ := via_of_imports middle edge
    exact ⟨also, known, there, walked.tail via⟩

/-- Nothing on or above a cycle of unrecorded imports stands. -/
theorem cycle_falls {x y : Id} (path : ReflTransGen (ImportsUnrecorded family) x y)
    (cycle : TransGen (ImportsUnrecorded family) y y) : x ∉ standing family := by
  intro stands
  have reached : y ∈ standing family := by
    rcases reflTransGen_iff_eq_or_transGen.mp path with rfl | path
    · exact stands
    · exact (via_of_path stands path).1
  obtain ⟨-, known, there, around⟩ := via_of_path reached cycle
  exact ((stands_iff ⟨y, known⟩).mpr reached).no_cycle around

/-! ### Main result -/

variable [ContentHash]

/-- The least fixed point's answer. -/
def Correct : Query family → Answer → Prop
  | .stands id, .stands verdict => verdict = true ↔ id.1 ∈ standing family
  | .sourceState id, .sourceState state => ∃ verdict : Bool,
      (verdict = true ↔ id.1 ∈ standing family) ∧
        state = PhysHarness.sourceState (family.payload id) verdict
  | _, _ => False

omit [ContentHash] in
theorem stands_spec {memo : Verdict.Memo family.Member} (rested : Verdict.Searching (look family) memo [])
    (id : family.Member) : Verdict.Searching (look family) (stands family memo id).1 [] ∧
      ((stands family memo id).2 = true ↔ id.1 ∈ standing family) := by
  obtain ⟨after, verdict, known, correct⟩ := Verdict.search_verdict rested id
  refine ⟨after, ?_⟩
  simp only [stands, known, Option.getD_some]
  exact correct.trans (stands_iff id)

/-- One question is answered correctly, and leaves the memo ready for the next. -/
theorem ask_spec {memo : Verdict.Memo family.Member} (rested : Verdict.Searching (look family) memo [])
    (query : Query family) : Verdict.Searching (look family) (ask family memo query).1 [] ∧
      Correct query (ask family memo query).2 := by
  cases query with
  | stands id => exact stands_spec rested id
  | sourceState id =>
    obtain ⟨after, correct⟩ := stands_spec rested id
    cases state : statementState (family.payload id) with
    | ranked rank =>
      have asked : sourceState family memo id = ((stands family memo id).1,
          if (stands family memo id).2 then .ranked rank else .stale) := by
        rw [sourceState, state]
      rw [ask, asked]
      exact ⟨after, _, correct, by rw [PhysHarness.sourceState, state]⟩
    | stale | stub | none =>
      have asked : sourceState family memo id = (memo, statementState (family.payload id)) := by
        rw [sourceState, state]
      rw [ask, asked, state]
      exact ⟨rested, _, correct, by rw [PhysHarness.sourceState, state]⟩

theorem answers_spec {memo : Verdict.Memo family.Member}
    (rested : Verdict.Searching (look family) memo []) (queries : List (Query family)) :
    List.Forall₂ Correct queries (answers family memo queries) := by
  induction queries generalizing memo with
  | nil => exact .nil
  | cons query queries ih =>
    obtain ⟨after, correct⟩ := ask_spec rested query
    exact .cons correct (ih after)

end Closures

/-- Every answer of one instance is the least fixed point's, in whatever order the questions come;
and nothing on or above a cycle of unrecorded imports stands. -/
theorem closures_order_independent [ContentHash] (family : NodeFamily)
    (queries : List (Closures.Query family)) :
    List.Forall₂ Closures.Correct queries (Closures.answers family {} queries) ∧
      ∀ x y, ReflTransGen (ImportsUnrecorded family) x y → TransGen (ImportsUnrecorded family) y y →
        x ∉ standing family :=
  ⟨Closures.answers_spec Verdict.Searching.start queries,
    fun _ _ path cycle => Closures.cycle_falls path cycle⟩

end PhysHarness
