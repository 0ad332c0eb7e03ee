import PhysHarness.Commons.Acyclic
import PhysHarness.Commons.Closures

/-!
The long pole: where help on an experiment's goal counts most.

A node is open work while no status closed it and no standing complete source of its current statement
proves it. The long pole is the oldest of the open work that the goal reaches through open work and that
waits on no other open work. Along acyclic dependencies there is such work as soon as the goal reaches any.

## Main result

`longPole_actionable`: the choice is that work and is not empty, and the items are its oldest.
-/
namespace PhysHarness

open Relation Acyclic

/-- A node as the long pole reads it. -/
structure GraphNode where
  id : Id
  title : String
  createdAt : Time
  node : CommonsNode

namespace GraphNode

/-- Creation order; nodes of one moment are in the order of their ids. -/
def Older (x y : GraphNode) : Prop := x.createdAt < y.createdAt ∨ x.createdAt = y.createdAt ∧ x.id ≤ y.id

instance : DecidableRel Older := fun _ _ => inferInstanceAs (Decidable (_ ∨ _ ∧ _))

instance : Std.Total Older where
  total x y := by
    unfold Older
    rcases Nat.lt_trichotomy x.createdAt y.createdAt with earlier | same | later
    · exact .inl (.inl earlier)
    · rcases String.le_total x.id y.id with first | second
      · exact .inl (.inr ⟨same, first⟩)
      · exact .inr (.inr ⟨same.symm, second⟩)
    · exact .inr (.inl later)

instance : IsTrans GraphNode Older where
  trans x y z := by
    unfold Older
    rintro (first | ⟨same, first⟩) (second | ⟨equal, second⟩)
    · exact .inl (first.trans second)
    · exact .inl (equal ▸ first)
    · exact .inl (same ▸ second)
    · exact .inr ⟨same.trans equal, String.le_trans first second⟩

end GraphNode

/-- An experiment's visible nodes, no more than a walk may have, and its dependencies. -/
structure CommonsGraph where
  nodes : List GraphNode
  dependencies : List (Id × Id)
  distinct : (nodes.map GraphNode.id).Nodup
  bounded : nodes.length ≤ maxGraphNodes

/-- A live claim on a node. -/
structure NodeClaim where
  nodeId : Id
  branchId : Id
  route : Option String
  deriving DecidableEq

structure Claimant where
  branchId : Id
  route : Option String
  deriving DecidableEq

structure PoleItem where
  id : Id
  nodeType : NodeType
  title : String
  openMinutes : Nat
  claimants : List Claimant
  deriving DecidableEq

def Time.minute : Time := 60 * Time.second

namespace CommonsGraph

variable (graph : CommonsGraph)

/-- The node payloads by id, which the verdicts on sources read. -/
def family : NodeFamily where
  nodes := graph.nodes.map fun entry => (entry.id, entry.node)
  distinct := by
    rw [List.map_map]
    exact graph.distinct

/-- The family's members in the order of the nodes. -/
def members : List graph.family.Member := graph.family.ids.attach

/-- The goal: the first node of its type. -/
def goal : Option Id :=
  (graph.nodes.find? fun entry => entry.node.nodeType = .goal).map GraphNode.id

section

variable [ContentHash]

/-- `_open_work`: the memo after the question, and the answer. -/
def openWork (memo : Verdict.Memo graph.family.Member) (id : graph.family.Member) :
    Verdict.Memo graph.family.Member × Bool :=
  let node := graph.family.payload id
  let (after, state) := Closures.sourceState graph.family memo id
  let proved := state ∈ [.ranked .complete, .ranked .verified] ∧
    (node.hasElaboratedStatement = true ∨ node.nodeType = .definition)
  (after, isOpen node.status && !decide proved)

/-- The nodes that are open work, asked one after the other. -/
def openAmong (memo : Verdict.Memo graph.family.Member) : List graph.family.Member → List Id
  | [] => []
  | id :: rest =>
    let (after, work) := graph.openWork memo id
    if work then id.1 :: openAmong after rest else openAmong after rest

def openIds : Finset Id := (graph.openAmong {} graph.members).toFinset

/-- The dependencies of open work on open work. -/
def openDependencies : List (Id × Id) :=
  graph.dependencies.filter fun edge => edge.1 ∈ graph.openIds ∧ edge.2 ∈ graph.openIds

/-- The dependencies among open work and the goal: the parts of a proved route are moot. -/
def routes (goal : Id) : List (Id × Id) :=
  let within := insert goal graph.openIds
  graph.dependencies.filter fun edge => edge.1 ∈ within ∧ edge.2 ∈ within

/-- What the goal reaches through open work. -/
def parts : Finset Id :=
  match graph.goal with
  | none => ∅
  | some goal =>
    (Walk.closure (dependencyChildren (graph.routes goal)) goal maxGraphNodes).1.toFinset

/-- The open parts of the goal that wait on no open work. -/
def ready : Finset Id :=
  (graph.parts ∩ graph.openIds) \ (graph.openDependencies.map Prod.fst).toFinset

/-- The open work that the most open work depends on. -/
def mostNeeded : Finset Id :=
  let dependents := (graph.openDependencies.map Prod.snd).filter fun target => some target ≠ graph.goal
  let most := (dependents.map fun id => dependents.count id).foldl max 0
  (dependents.filter fun id => dependents.count id = most).toFinset

def chosen : Finset Id := if graph.ready = ∅ then graph.mostNeeded else graph.ready

end

end CommonsGraph

/-- A node as an item of the long pole. -/
def poleItem (now : Time) (claims : List NodeClaim) (entry : GraphNode) : PoleItem where
  id := entry.id
  nodeType := entry.node.nodeType
  title := entry.title
  openMinutes := (now - entry.createdAt) / Time.minute
  claimants := ((claims.filter fun claim => claim.nodeId = entry.id).map fun claim =>
    ⟨claim.branchId, claim.route⟩).insertionSort fun x y => x.branchId ≤ y.branchId

/-- `_long_pole`: the items and the hint. -/
def longPole [ContentHash] (graph : CommonsGraph) (claims : List NodeClaim) (now : Time)
    (limit : Nat := 3) : List PoleItem × Option String :=
  if graph.chosen = ∅ then
    ([], some "Link depends_on edges from the goal to its parts to show its long pole.")
  else
    let pole := ((graph.nodes.filter fun entry => entry.id ∈ graph.chosen).insertionSort
      GraphNode.Older).take limit
    (pole.map (poleItem now claims), none)

/-- `_goal_long_pole` over the nodes of an experiment: too many of them are refused. -/
def goalLongPole [ContentHash] (nodes : List GraphNode) (distinct : (nodes.map GraphNode.id).Nodup)
    (dependencies : List (Id × Id)) (claims : List NodeClaim) (now : Time) :
    Except Failure (List PoleItem × Option String) :=
  if bounded : nodes.length ≤ maxGraphNodes then
    .ok (longPole { nodes, dependencies, distinct, bounded } claims now)
  else .error graphTooLarge

/-! ### Open work -/

namespace CommonsGraph

variable [ContentHash] (graph : CommonsGraph)

/-- A standing complete source of the node's current statement proves it. -/
def Proved (id : Id) (node : CommonsNode) : Prop :=
  ∃ source, node.leanSource = some source ∧ source.leanStatementSha256 = node.statementDigest ∧
    (source.rank = .complete ∨ source.rank = .verified) ∧ id ∈ standing graph.family ∧
    (node.hasElaboratedStatement = true ∨ node.nodeType = .definition)

/-- Open, and not proved. -/
def OpenWork (id : Id) : Prop :=
  ∃ node, graph.family.lookup id = some node ∧ isOpen node.status = true ∧ ¬ graph.Proved id node

omit [ContentHash] in
def Depends (x y : Id) : Prop := (x, y) ∈ graph.dependencies

/-- Reached from the goal through open work only. -/
def Reached (goal : Id) : Id → Prop :=
  TransGen (fun x y => graph.Depends x y ∧ graph.OpenWork y) goal

/-- Reached open work that waits on no other open work. -/
def Actionable (goal x : Id) : Prop :=
  graph.Reached goal x ∧ ∀ y, graph.Depends x y → ¬ graph.OpenWork y

variable {graph}

/-- A node's source has a complete rank when it proves the current statement and stands. -/
theorem complete_iff {node : CommonsNode} {stands : Bool} :
    sourceState node stands ∈ [SourceState.ranked .complete, .ranked .verified] ↔
      stands = true ∧ ∃ source, node.leanSource = some source ∧
        source.leanStatementSha256 = node.statementDigest ∧
        (source.rank = .complete ∨ source.rank = .verified) := by
  unfold sourceState statementState
  cases published : node.leanSource with
  | none =>
    by_cases stated : node.hasElaboratedStatement <;> simp [stated]
  | some source =>
    by_cases current : source.leanStatementSha256 = node.statementDigest
    · by_cases standing : stands <;> simp [current, standing]
    · simp [current]

/-- One question is answered, and leaves the memo ready for the next. -/
theorem openWork_spec {memo : Verdict.Memo graph.family.Member}
    (rested : Verdict.Searching (Closures.look graph.family) memo []) (id : graph.family.Member) :
    Verdict.Searching (Closures.look graph.family) (graph.openWork memo id).1 [] ∧
      ((graph.openWork memo id).2 = true ↔ graph.OpenWork id.1) := by
  obtain ⟨after, verdict, correct, judged⟩ := Closures.ask_spec rested (.sourceState id)
  constructor
  · exact after
  · have state : (Closures.sourceState graph.family memo id).2 =
        sourceState (graph.family.payload id) verdict := judged
    have proved : (sourceState (graph.family.payload id) verdict ∈
          [SourceState.ranked .complete, .ranked .verified] ∧
        ((graph.family.payload id).hasElaboratedStatement = true ∨
          (graph.family.payload id).nodeType = .definition)) ↔
        graph.Proved id.1 (graph.family.payload id) := by
      rw [complete_iff, correct]
      unfold Proved
      constructor
      · rintro ⟨⟨stands, source, published, current, rank⟩, stated⟩
        exact ⟨source, published, current, rank, stands, stated⟩
      · rintro ⟨source, published, current, rank, stands, stated⟩
        exact ⟨⟨stands, source, published, current, rank⟩, stated⟩
    have here := graph.family.lookup_payload id
    simp only [openWork, state, proved, Bool.and_eq_true, Bool.not_eq_true', decide_eq_false_iff_not,
      OpenWork, here, Option.some.injEq, exists_eq_left']

theorem mem_openAmong {memo : Verdict.Memo graph.family.Member}
    (rested : Verdict.Searching (Closures.look graph.family) memo [])
    {members : List graph.family.Member} {id : Id} :
    id ∈ graph.openAmong memo members ↔ (∃ member ∈ members, member.1 = id) ∧ graph.OpenWork id := by
  induction members generalizing memo with
  | nil => simp [openAmong]
  | cons member members ih =>
    obtain ⟨after, correct⟩ := openWork_spec rested member
    unfold openAmong
    by_cases work : (graph.openWork memo member).2
    · have opened := correct.mp work
      simp only [work, if_true, List.mem_cons, ih after]
      constructor
      · rintro (rfl | ⟨⟨other, listed, rfl⟩, opens⟩)
        · exact ⟨⟨member, .inl rfl, rfl⟩, opened⟩
        · exact ⟨⟨other, .inr listed, rfl⟩, opens⟩
      · rintro ⟨⟨other, rfl | listed, rfl⟩, opens⟩
        · exact .inl rfl
        · exact .inr ⟨⟨other, listed, rfl⟩, opens⟩
    · have closed : ¬ graph.OpenWork member.1 := fun opens => work (correct.mpr opens)
      simp only [work, Bool.false_eq_true, if_false, List.mem_cons, ih after]
      constructor
      · rintro ⟨⟨other, listed, rfl⟩, opens⟩
        exact ⟨⟨other, .inr listed, rfl⟩, opens⟩
      · rintro ⟨⟨other, rfl | listed, rfl⟩, opens⟩
        · exact absurd opens closed
        · exact ⟨⟨other, listed, rfl⟩, opens⟩

theorem mem_openIds {id : Id} : id ∈ graph.openIds ↔ graph.OpenWork id := by
  rw [openIds, List.mem_toFinset, mem_openAmong Verdict.Searching.start]
  constructor
  · exact And.right
  · intro opens
    obtain ⟨node, found, rest⟩ := opens
    exact ⟨⟨⟨id, graph.family.mem_ids found⟩, List.mem_attach .., rfl⟩, node, found, rest⟩

/-! ### The choice -/

theorem openWork_listed {id : Id} (opens : graph.OpenWork id) : id ∈ graph.nodes.map GraphNode.id := by
  obtain ⟨node, found, -⟩ := opens
  have member := graph.family.mem_ids found
  simpa [NodeFamily.ids, family] using member

variable {goal : Id}

theorem reached_open {x : Id} (reached : graph.Reached goal x) : graph.OpenWork x := by
  obtain ⟨_, -, step⟩ := TransGen.tail'_iff.mp reached
  exact step.2

theorem Reached.path {x : Id} (reached : graph.Reached goal x) : TransGen graph.Depends goal x :=
  TransGen.mono (fun _ _ step => step.1) _ _ reached

/-- A step along the routes is a dependency between open work and the goal. -/
theorem child_routes {x y : Id} : Walk.Child (dependencyChildren (graph.routes goal)) x y ↔
    graph.Depends x y ∧ (x = goal ∨ graph.OpenWork x) ∧ (y = goal ∨ graph.OpenWork y) := by
  rw [Walk.Child, dependencyChildren_iff]
  simp [routes, mem_openIds, Depends]

/-- Without a cycle the goal reaches along the routes what it reaches through open work. -/
theorem others_routes (acyclic : NoCycle graph.Depends) :
    Walk.Others (dependencyChildren (graph.routes goal)) goal = {x | graph.Reached goal x} := by
  ext x
  constructor
  · rintro ⟨other, path⟩
    -- the walk leaves the goal and comes back to it nowhere, so what it meets is open
    have inside : ∀ y, ReflTransGen (Walk.Child (dependencyChildren (graph.routes goal))) goal y →
        y = goal ∨ graph.Reached goal y := by
      intro y walked
      induction walked with
      | refl => exact .inl rfl
      | @tail middle _ _ edge ih =>
        obtain ⟨depends, -, within⟩ := child_routes.mp edge
        have before : ReflTransGen graph.Depends goal middle := by
          rcases ih with same | reached
          · rw [same]
          · exact reached.path.to_reflTransGen
        rcases within with same | opens
        · rw [same] at depends
          exact absurd (TransGen.tail' before depends) (acyclic goal)
        · rcases ih with rfl | reached
          · exact .inr (.single ⟨depends, opens⟩)
          · exact .inr (reached.tail ⟨depends, opens⟩)
    exact (inside x path).resolve_left other
  · intro reached
    constructor
    · rintro rfl
      exact acyclic _ reached.path
    · induction reached with
      | single step => exact .single (child_routes.mpr ⟨step.1, .inl rfl, .inr step.2⟩)
      | tail before step ih =>
        exact ih.tail (child_routes.mpr ⟨step.1, .inr (reached_open before), .inr step.2⟩)

/-- The walk has room for every node of the graph. -/
theorem parts_whole (acyclic : NoCycle graph.Depends) :
    (Walk.closure (dependencyChildren (graph.routes goal)) goal maxGraphNodes).2 = false := by
  rw [Bool.eq_false_iff, Ne, Walk.closure_cut_iff, others_routes acyclic, not_lt]
  have listed : {x | graph.Reached goal x} ⊆ {x | x ∈ graph.nodes.map GraphNode.id} :=
    fun x reached => openWork_listed (reached_open reached)
  calc {x | graph.Reached goal x}.encard
      ≤ {x | x ∈ graph.nodes.map GraphNode.id}.encard := Set.encard_le_encard listed
    _ = (graph.nodes.map GraphNode.id).length := Walk.encard_mem graph.distinct
    _ ≤ maxGraphNodes := by
      rw [List.length_map]
      exact_mod_cast graph.bounded

theorem mem_parts (acyclic : NoCycle graph.Depends) (found : graph.goal = some goal) {x : Id} :
    x ∈ graph.parts ↔ graph.Reached goal x := by
  have exactly : {x | x ∈ (Walk.closure (dependencyChildren (graph.routes goal)) goal maxGraphNodes).1} =
      {x | graph.Reached goal x} := (Walk.closure_exact (parts_whole acyclic)).trans (others_routes acyclic)
  simp only [parts, found, List.mem_toFinset]
  exact Set.ext_iff.mp exactly x

theorem mem_ready (acyclic : NoCycle graph.Depends) (found : graph.goal = some goal) {x : Id} :
    x ∈ graph.ready ↔ graph.Actionable goal x := by
  simp only [ready, Finset.mem_sdiff, Finset.mem_inter, mem_parts acyclic found, mem_openIds,
    List.mem_toFinset, openDependencies, List.mem_map, List.mem_filter, Prod.exists,
    exists_and_right, exists_eq_right, decide_eq_true_eq, not_exists, not_and]
  constructor
  · rintro ⟨⟨reached, opens⟩, ready⟩
    exact ⟨reached, fun y depends => ready y depends opens⟩
  · rintro ⟨reached, ready⟩
    exact ⟨⟨reached, reached_open reached⟩, fun y depends _ => ready y depends⟩

/-- Among the open work that the goal reaches, some waits on none. -/
theorem ready_nonempty (acyclic : NoCycle graph.Depends) (found : graph.goal = some goal)
    (reaches : ∃ x, graph.Reached goal x) : graph.ready.Nonempty := by
  have finite : {x | graph.Reached goal x}.Finite := by
    apply (List.finite_toSet (graph.nodes.map GraphNode.id)).subset
    exact fun x reached => openWork_listed (reached_open reached)
  obtain ⟨x, reached, sink⟩ := acyclic.exists_sink finite reaches
  refine ⟨x, (mem_ready acyclic found).mpr ⟨reached, fun y depends opens => ?_⟩⟩
  exact sink y (reached.tail ⟨depends, opens⟩) depends

end CommonsGraph

/-! ### Main result -/

/-- With acyclic dependencies, a goal that reaches open work gets a long pole: the choice is the reached
open work that waits on no other, it is not empty, and the items are its oldest. -/
theorem longPole_actionable [ContentHash] (graph : CommonsGraph) (claims : List NodeClaim) (now : Time)
    (limit : Nat) (acyclic : NoCycle graph.Depends) {goal : Id} (found : graph.goal = some goal)
    (reaches : ∃ x, graph.Reached goal x) :
    graph.chosen.Nonempty ∧ (∀ x, x ∈ graph.chosen ↔ graph.Actionable goal x) ∧
      (longPole graph claims now limit).2 = none ∧
      ∃ ordered : List GraphNode,
        ordered.Perm (graph.nodes.filter fun entry => entry.id ∈ graph.chosen) ∧
        ordered.Pairwise GraphNode.Older ∧
        (longPole graph claims now limit).1 = (ordered.take limit).map (poleItem now claims) := by
  have nonempty := CommonsGraph.ready_nonempty acyclic found reaches
  have chosen : graph.chosen = graph.ready := if_neg nonempty.ne_empty
  have some_ : graph.chosen ≠ ∅ := by
    rw [chosen]
    exact nonempty.ne_empty
  constructor
  · rw [chosen]
    exact nonempty
  constructor
  · intro x
    rw [chosen]
    exact CommonsGraph.mem_ready acyclic found
  constructor
  · simp only [longPole, some_, if_false]
  · refine ⟨_, List.perm_insertionSort GraphNode.Older _, List.pairwise_insertionSort _ _, ?_⟩
    simp only [longPole, some_, if_false]

namespace Scenario

section

local instance poleHash : ContentHash := textHash

def poleNode (id : Id) (nodeType : NodeType) (createdAt : Time) : GraphNode where
  id := id
  title := id
  createdAt := createdAt
  node := { experimentId := "experiment", nodeType }

/-- A goal with a part that waits on another lemma. -/
def goalGraph : CommonsGraph where
  nodes := [poleNode "goal" .goal 0, poleNode "part" .lemmaNode 1, poleNode "leaf" .lemmaNode 2]
  dependencies := [("goal", "part"), ("part", "leaf")]
  distinct := by decide
  bounded := by decide

theorem goalGraph_acyclic : NoCycle goalGraph.Depends := by
  -- each dependency leads to a node that comes earlier here
  have lower : ∀ x y, goalGraph.Depends x y →
      ["leaf", "part", "goal"].idxOf y < ["leaf", "part", "goal"].idxOf x := by
    intro x y depends
    simp only [CommonsGraph.Depends, goalGraph, List.mem_cons, List.not_mem_nil, or_false,
      Prod.mk.injEq] at depends
    rcases depends with ⟨rfl, rfl⟩ | ⟨rfl, rfl⟩ <;> decide
  intro x cycle
  have below : TransGen (· > ·) _ _ := TransGen.lift ["leaf", "part", "goal"].idxOf lower x x cycle
  rw [transGen_eq_self] at below
  exact Nat.lt_irrefl _ below

theorem goalGraph_reached : goalGraph.Reached "goal" "part" := by
  refine .single ⟨List.mem_cons_self .., (poleNode "part" .lemmaNode 1).node, by decide, by decide, ?_⟩
  rintro ⟨_, published, -⟩
  cases published

theorem goalGraph_actionable :
    goalGraph.chosen.Nonempty ∧ (longPole goalGraph [] 3 3).2 = none := by
  obtain ⟨nonempty, -, hint, -⟩ := longPole_actionable goalGraph [] 3 3 goalGraph_acyclic
    (rfl : goalGraph.goal = some "goal") ⟨"part", goalGraph_reached⟩
  exact ⟨nonempty, hint⟩

end

end Scenario

end PhysHarness
