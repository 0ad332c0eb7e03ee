import PhysHarness.Lib.Rounds
import PhysHarness.Scheduling.Order
import PhysHarness.Workforce.Synthesis
import Mathlib.Data.Finset.Card
import Mathlib.Order.Bounds.Defs

/-!
# The tasks that a run takes

A run takes the tasks of its manifest and the syntheses it scheduled, what these delegate, and the syntheses
and reviews of the lineages it owns. A review or a synthesis without a parent branch brings its own lineage,
so that the two sets feed each other.

## Sources
- orchestration/research_worker.py: `_requested_by`, `selected_tasks`

## Main result

`selected_tasks_least`: the selection is the least set closed under these rules.
-/
namespace PhysHarness

open Ancestry (RootOf)
open Rounds (settle settle_settled settle_some)

structure ReviewAssignment where
  requestedBy : Option Id
  deriving DecidableEq

/-- What the selection reads of a task record. -/
structure SelectableTask where
  id : Id
  branchId : Id
  hat : String
  synthesis : Bool
  delegatedFromTaskId : Option Id
  reviewAssignment : Option ReviewAssignment
  deriving DecidableEq

/-- `_requested_by` -/
def requestedBy (task : SelectableTask) : Option Id :=
  if task.hat ≠ refereeHat then none else task.reviewAssignment.bind ReviewAssignment.requestedBy

/-- What the run knows when it selects. -/
structure TeamRun where
  taskIds : Finset Id
  includeDelegated : Bool
  scheduledSynthesisIds : Finset Id
  ownRootLineages : Finset Id
  branchParents : BranchParents

/-- The lineages of the tasks that the manifest names, read when the run starts. -/
def ownRootLineages (roots : List SelectableTask) (branchParents : BranchParents) :
    Option (Finset Id) := do
  return (← roots.mapM fun task => rootLineage task.branchId branchParents).toFinset

/-- A branch of the map whose root is among the lineages. -/
def inLineages (branchParents : BranchParents) (lineages : Finset Id) (branch : Id) : Option Bool :=
  if (Dict.get branchParents branch).isSome then do
    return decide ((← rootLineage branch branchParents) ∈ lineages)
  else return false

def taskIds (tasks : List SelectableTask) : Finset Id := (tasks.map SelectableTask.id).toFinset

/-- The tasks for which the test holds; the test can fail. -/
def sift (test : SelectableTask → Option Bool) : List SelectableTask → Option (List SelectableTask)
  | [] => some []
  | task :: tasks => do
    let holds ← test task
    let rest ← sift test tasks
    return if holds then task :: rest else rest

def synthesesOf (branchParents : BranchParents) (lineages : Finset Id) (task : SelectableTask) :
    Option Bool :=
  if task.synthesis then inLineages branchParents lineages task.branchId else return false

def requestedFrom (branchParents : BranchParents) (lineages : Finset Id) (task : SelectableTask) :
    Option Bool :=
  match requestedBy task with
  | some branch => inLineages branchParents lineages branch
  | none => return false

/-- The tasks delegated from a selected one. -/
def delegatedFrom (tasks : List SelectableTask) (selected : Finset Id) : Finset Id :=
  taskIds (tasks.filter fun task => task.delegatedFromTaskId.any fun origin => origin ∈ selected)

/-- A round of the inner loop. That loop has no bound in the source, and never takes more rounds than there
are tasks and one (`delegated_closes`). -/
def delegatedRound (tasks : List SelectableTask) (selected : Finset Id) : Option (Finset Id × Bool) :=
  let added := delegatedFrom tasks selected
  some (selected ∪ added, decide (¬ added ⊆ selected))

/-- A branch that a selected review or synthesis brings along. -/
def bringsLineage (branchParents : BranchParents) (selected : Finset Id) (task : SelectableTask) : Bool :=
  decide (task.id ∈ selected ∧ Dict.get branchParents task.branchId = some none ∧
    (task.hat = refereeHat ∨ task.synthesis = true))

/-- The sets that grow together. -/
structure Selection where
  selected : Finset Id
  lineages : Finset Id

/-- A round of the outer loop. -/
def selectionRound (branchParents : BranchParents) (tasks : List SelectableTask) (state : Selection) :
    Option (Selection × Bool) := do
  let syntheses ← sift (synthesesOf branchParents state.lineages) tasks
  let referees ← sift (requestedFrom branchParents state.lineages) tasks
  let selected ← settle (delegatedRound tasks) (tasks.length + 1)
    (state.selected ∪ taskIds syntheses ∪ taskIds referees)
  let grown := state.lineages ∪
    ((tasks.filter (bringsLineage branchParents selected)).map SelectableTask.branchId).toFinset
  return ({ selected, lineages := grown }, decide (grown ≠ state.lineages))

def selectedTasks (run : TeamRun) (tasks : List SelectableTask) : Option (List SelectableTask) :=
  let selectedIds := run.taskIds ∪ run.scheduledSynthesisIds
  if run.includeDelegated then do
    let final ← settle (selectionRound run.branchParents tasks) (tasks.length + 1)
      { selected := selectedIds, lineages := run.ownRootLineages }
    return tasks.filter fun task => task.id ∈ final.selected
  else return tasks.filter fun task => task.id ∈ selectedIds

/-! ### What a selection is for -/

/-- Every branch of the map climbs to a root. -/
def Forest (branchParents : BranchParents) : Prop :=
  ∀ branch, (Dict.get branchParents branch).isSome → ∃ root, RootOf (Dict.get branchParents) branch root

/-- The lineages of a run that has selected the tasks: those of its roots, and the parentless branches of
selected reviews and syntheses. -/
def OwnLineage (own : Finset Id) (branchParents : BranchParents) (tasks : List SelectableTask)
    (selected : Set Id) (root : Id) : Prop :=
  root ∈ own ∨ ∃ task ∈ tasks, task.id ∈ selected ∧ task.branchId = root ∧
    Dict.get branchParents root = some none ∧ (task.hat = refereeHat ∨ task.synthesis = true)

/-- The set has what the run starts from, and what it brings along. -/
structure Selects (own : Finset Id) (start : Finset Id) (branchParents : BranchParents)
    (tasks : List SelectableTask) (selected : Set Id) : Prop where
  starts : ∀ id ∈ start, id ∈ selected
  delegated : ∀ task ∈ tasks, ∀ origin, task.delegatedFromTaskId = some origin →
    origin ∈ selected → task.id ∈ selected
  syntheses : ∀ task ∈ tasks, task.synthesis = true → ∀ root,
    RootOf (Dict.get branchParents) task.branchId root →
      OwnLineage own branchParents tasks selected root → task.id ∈ selected
  referees : ∀ task ∈ tasks, ∀ branch, requestedBy task = some branch → ∀ root,
    RootOf (Dict.get branchParents) branch root →
      OwnLineage own branchParents tasks selected root → task.id ∈ selected

/-! ### One round -/

variable {branchParents : BranchParents} {tasks : List SelectableTask}

theorem mem_taskIds {id : Id} : id ∈ taskIds tasks ↔ ∃ task ∈ tasks, task.id = id := by
  rw [taskIds, List.mem_toFinset, List.mem_map]

theorem card_taskIds : (taskIds tasks).card ≤ tasks.length := by
  have few := List.toFinset_card_le (tasks.map SelectableTask.id)
  rwa [List.length_map] at few

/-- A test that never failed was made of every task. -/
theorem mem_sift {test : SelectableTask → Option Bool} {kept : List SelectableTask}
    (found : sift test tasks = some kept) (task : SelectableTask) :
    task ∈ kept ↔ task ∈ tasks ∧ test task = some true := by
  induction tasks generalizing kept with
  | nil =>
    obtain rfl := Option.some.inj found
    simp
  | cons first tasks ih =>
    obtain ⟨holds, read, found⟩ := Option.bind_eq_some_iff.mp found
    obtain ⟨rest, later, found⟩ := Option.bind_eq_some_iff.mp found
    obtain rfl := Option.some.inj found
    cases holds with
    | false => grind
    | true => grind

theorem sift_some {test : SelectableTask → Option Bool} (reads : ∀ task, ∃ holds, test task = some holds) :
    ∃ kept, sift test tasks = some kept := by
  induction tasks with
  | nil => exact ⟨[], rfl⟩
  | cons first tasks ih =>
    obtain ⟨holds, read⟩ := reads first
    obtain ⟨rest, later⟩ := ih
    rw [sift, read, later]
    exact ⟨_, rfl⟩

theorem inLineages_iff {lineages : Finset Id} {branch : Id} :
    inLineages branchParents lineages branch = some true ↔
      ∃ root ∈ lineages, RootOf (Dict.get branchParents) branch root := by
  rw [inLineages]
  split
  next =>
    constructor
    · intro found
      obtain ⟨root, reached, member⟩ := Option.bind_eq_some_iff.mp found
      exact ⟨root, of_decide_eq_true (Option.some.inj member), rootLineage_eq.mp reached⟩
    · rintro ⟨root, member, rooted⟩
      rw [rootLineage_eq.mpr rooted]
      exact congrArg some (decide_eq_true member)
  next absent =>
    refine ⟨fun found => (by cases found), fun rooted => absurd ?_ absent⟩
    obtain ⟨root, -, path, stop⟩ := rooted
    -- a branch outside the map has nothing above it and is no root
    rcases Relation.ReflTransGen.cases_head path with rfl | ⟨next, edge, -⟩
    · rw [stop, Option.isSome_some]
    · rw [show Dict.get branchParents branch = some (some next) from edge, Option.isSome_some]

theorem inLineages_some (forest : Forest branchParents) (lineages : Finset Id) (branch : Id) :
    ∃ inside, inLineages branchParents lineages branch = some inside := by
  rw [inLineages]
  split
  next known =>
    obtain ⟨root, rooted⟩ := forest branch known
    rw [rootLineage_eq.mpr rooted]
    exact ⟨_, rfl⟩
  next => exact ⟨false, rfl⟩

theorem synthesesOf_iff {lineages : Finset Id} {task : SelectableTask} :
    synthesesOf branchParents lineages task = some true ↔ task.synthesis = true ∧
      ∃ root ∈ lineages, RootOf (Dict.get branchParents) task.branchId root := by
  rw [synthesesOf]
  split
  next synthesis => rw [inLineages_iff, and_iff_right synthesis]
  next other => exact ⟨fun found => (by cases found), fun found => absurd found.1 other⟩

theorem synthesesOf_some (forest : Forest branchParents) (lineages : Finset Id) (task : SelectableTask) :
    ∃ holds, synthesesOf branchParents lineages task = some holds := by
  rw [synthesesOf]
  split
  · exact inLineages_some forest lineages task.branchId
  · exact ⟨false, rfl⟩

theorem requestedFrom_iff {lineages : Finset Id} {task : SelectableTask} :
    requestedFrom branchParents lineages task = some true ↔ ∃ branch, requestedBy task = some branch ∧
      ∃ root ∈ lineages, RootOf (Dict.get branchParents) branch root := by
  rw [requestedFrom]
  cases requestedBy task with
  | none => exact ⟨nofun, nofun⟩
  | some branch => simp only [inLineages_iff, Option.some.injEq, exists_eq_left']

theorem requestedFrom_some (forest : Forest branchParents) (lineages : Finset Id)
    (task : SelectableTask) : ∃ holds, requestedFrom branchParents lineages task = some holds := by
  rw [requestedFrom]
  cases requestedBy task with
  | none => exact ⟨false, rfl⟩
  | some branch => exact inLineages_some forest lineages branch

theorem mem_delegatedFrom {selected : Finset Id} {id : Id} :
    id ∈ delegatedFrom tasks selected ↔ ∃ task ∈ tasks, task.id = id ∧
      ∃ origin ∈ selected, task.delegatedFromTaskId = some origin := by
  rw [delegatedFrom, mem_taskIds]
  simp only [List.mem_filter, Option.any_eq_true, decide_eq_true_eq]
  constructor
  · rintro ⟨task, ⟨listed, origin, from_, member⟩, same⟩
    exact ⟨task, listed, same, origin, member, from_⟩
  · rintro ⟨task, listed, same, origin, member, from_⟩
    exact ⟨task, ⟨listed, origin, from_, member⟩, same⟩

theorem delegatedFrom_subset {selected : Finset Id} : delegatedFrom tasks selected ⊆ taskIds tasks := by
  intro id member
  obtain ⟨task, listed, same, -⟩ := mem_delegatedFrom.mp member
  exact mem_taskIds.mpr ⟨task, listed, same⟩

/-- What is missing from a set becomes fewer when it grows by something of the bound. -/
theorem card_sdiff_union_lt {bound before added : Finset Id} (inside : added ⊆ bound)
    (new : ¬ added ⊆ before) : (bound \ (before ∪ added)).card < (bound \ before).card := by
  obtain ⟨id, member, absent⟩ := Finset.not_subset.mp new
  refine Finset.card_lt_card ⟨Finset.sdiff_subset_sdiff (le_refl _) Finset.subset_union_left, ?_⟩
  intro under
  have kept := under (Finset.mem_sdiff.mpr ⟨inside member, absent⟩)
  exact (Finset.mem_sdiff.mp kept).2 (Finset.mem_union_right _ member)

/-- The inner loop ends with the least set above the given one that is closed under delegation. -/
theorem delegated_closes {before after : Finset Id}
    (settled : settle (delegatedRound tasks) (tasks.length + 1) before = some after) :
    before ⊆ after ∧ delegatedFrom tasks after ⊆ after ∧ ∀ closed : Set Id,
      (∀ task ∈ tasks, ∀ origin, task.delegatedFromTaskId = some origin →
        origin ∈ closed → task.id ∈ closed) →
      (∀ id ∈ before, id ∈ closed) → ∀ id ∈ after, id ∈ closed := by
  let within (state : Finset Id) : Prop := before ⊆ state ∧ ∀ closed : Set Id,
    (∀ task ∈ tasks, ∀ origin, task.delegatedFromTaskId = some origin →
      origin ∈ closed → task.id ∈ closed) →
    (∀ id ∈ before, id ∈ closed) → ∀ id ∈ state, id ∈ closed
  have enough : (taskIds tasks \ before).card < tasks.length + 1 :=
    Nat.lt_succ_of_le ((Finset.card_le_card Finset.sdiff_subset).trans card_taskIds)
  have keeps : ∀ state next, within state → delegatedRound tasks state = some (next, true) →
      within next ∧ (taskIds tasks \ next).card < (taskIds tasks \ state).card := by
    intro state next held taken
    obtain ⟨same, new⟩ := Prod.mk.inj (Option.some.inj taken)
    subst same
    refine ⟨⟨held.1.trans Finset.subset_union_left, fun closed delegated start id member => ?_⟩,
      card_sdiff_union_lt delegatedFrom_subset (of_decide_eq_true new)⟩
    rcases Finset.mem_union.mp member with old | added
    · exact held.2 closed delegated start id old
    · obtain ⟨task, listed, same, origin, selected, from_⟩ := mem_delegatedFrom.mp added
      exact same ▸ delegated task listed origin from_ (held.2 closed delegated start origin selected)
  obtain ⟨last, ⟨kept, least⟩, final⟩ := settle_settled _ keeps
    ⟨Finset.Subset.refl _, fun _ _ start => start⟩ enough settled
  obtain ⟨same, unchanged⟩ := Prod.mk.inj (Option.some.inj final)
  have closed : delegatedFrom tasks last ⊆ last := not_not.mp (of_decide_eq_false unchanged)
  rw [Finset.union_eq_left.mpr closed] at same
  subst same
  exact ⟨kept, closed, least⟩

/-- What a round of the outer loop adds. -/
structure RoundAdds (branchParents : BranchParents) (tasks : List SelectableTask)
    (state next : Selection) : Prop where
  kept : state.selected ⊆ next.selected
  delegated : delegatedFrom tasks next.selected ⊆ next.selected
  syntheses : ∀ task ∈ tasks, task.synthesis = true → ∀ root ∈ state.lineages,
    RootOf (Dict.get branchParents) task.branchId root → task.id ∈ next.selected
  referees : ∀ task ∈ tasks, ∀ branch, requestedBy task = some branch → ∀ root ∈ state.lineages,
    RootOf (Dict.get branchParents) branch root → task.id ∈ next.selected
  least : ∀ own start selected, Selects own start branchParents tasks selected →
    (∀ root ∈ state.lineages, OwnLineage own branchParents tasks selected root) →
    (∀ id ∈ state.selected, id ∈ selected) → ∀ id ∈ next.selected, id ∈ selected
  lineages : ∀ root, root ∈ next.lineages ↔ root ∈ state.lineages ∨ ∃ task ∈ tasks,
    task.id ∈ next.selected ∧ task.branchId = root ∧ Dict.get branchParents root = some none ∧
      (task.hat = refereeHat ∨ task.synthesis = true)

theorem selectionRound_adds {state next : Selection} {changed : Bool}
    (taken : selectionRound branchParents tasks state = some (next, changed)) :
    RoundAdds branchParents tasks state next ∧ (changed = true ↔ next.lineages ≠ state.lineages) := by
  obtain ⟨syntheses, sifted, taken⟩ := Option.bind_eq_some_iff.mp taken
  obtain ⟨referees, asked, taken⟩ := Option.bind_eq_some_iff.mp taken
  obtain ⟨selected, settled, taken⟩ := Option.bind_eq_some_iff.mp taken
  obtain ⟨rfl, rfl⟩ := Prod.mk.inj (Option.some.inj taken)
  obtain ⟨kept, delegated, least⟩ := delegated_closes settled
  refine ⟨⟨fun id member => kept (by simp [member]), delegated, ?_, ?_, ?_, fun root => ?_⟩,
    decide_eq_true_iff⟩
  · intro task listed synthesis root owned rooted
    have chosen : task ∈ syntheses :=
      (mem_sift sifted task).mpr ⟨listed, synthesesOf_iff.mpr ⟨synthesis, root, owned, rooted⟩⟩
    refine kept (Finset.mem_union_left _ (Finset.mem_union_right _ ?_))
    exact mem_taskIds.mpr ⟨task, chosen, rfl⟩
  · intro task listed branch requested root owned rooted
    have chosen : task ∈ referees :=
      (mem_sift asked task).mpr ⟨listed, requestedFrom_iff.mpr ⟨branch, requested, root, owned, rooted⟩⟩
    exact kept (Finset.mem_union_right _ (mem_taskIds.mpr ⟨task, chosen, rfl⟩))
  · intro own start closed selects owned above
    refine least closed selects.delegated fun id member => ?_
    rcases Finset.mem_union.mp member with member | member
    · rcases Finset.mem_union.mp member with old | synthesis
      · exact above id old
      · obtain ⟨task, chosen, rfl⟩ := mem_taskIds.mp synthesis
        obtain ⟨listed, passed⟩ := (mem_sift sifted task).mp chosen
        obtain ⟨synthesis, root, inside, rooted⟩ := synthesesOf_iff.mp passed
        exact selects.syntheses task listed synthesis root rooted (owned root inside)
    · obtain ⟨task, chosen, rfl⟩ := mem_taskIds.mp member
      obtain ⟨listed, passed⟩ := (mem_sift asked task).mp chosen
      obtain ⟨branch, requested, root, inside, rooted⟩ := requestedFrom_iff.mp passed
      exact selects.referees task listed branch requested root rooted (owned root inside)
  · simp only [Finset.mem_union, List.mem_toFinset, List.mem_map, List.mem_filter, bringsLineage,
      decide_eq_true_eq]
    refine or_congr_right ⟨?_, ?_⟩
    · rintro ⟨task, ⟨listed, chosen, parentless, kind⟩, rfl⟩
      exact ⟨task, listed, chosen, rfl, parentless, kind⟩
    · rintro ⟨task, listed, chosen, rfl, parentless, kind⟩
      exact ⟨task, ⟨listed, chosen, parentless, kind⟩, rfl⟩

theorem selectionRound_some (forest : Forest branchParents) (state : Selection) :
    ∃ result, selectionRound branchParents tasks state = some result := by
  obtain ⟨syntheses, sifted⟩ := @sift_some tasks _ (synthesesOf_some forest state.lineages)
  obtain ⟨referees, asked⟩ := @sift_some tasks _ (requestedFrom_some forest state.lineages)
  obtain ⟨selected, settled⟩ := @settle_some _ (delegatedRound tasks) (fun _ => ⟨_, rfl⟩)
    (tasks.length + 1) (state.selected ∪ taskIds syntheses ∪ taskIds referees)
  rw [selectionRound, sifted, asked]
  simp only [Option.bind_eq_bind, Option.bind_some, settled]
  exact ⟨_, rfl⟩

/-! ### Main result -/

/-- What every round of the outer loop keeps. -/
structure Grows (own start : Finset Id) (branchParents : BranchParents) (tasks : List SelectableTask)
    (state : Selection) : Prop where
  starts : start ⊆ state.selected
  roots : own ⊆ state.lineages
  owned : ∀ root ∈ state.lineages, OwnLineage own branchParents tasks state.selected root
  least : ∀ selected, Selects own start branchParents tasks selected →
    ∀ id ∈ state.selected, id ∈ selected

theorem OwnLineage.mono {own : Finset Id} {smaller greater : Set Id} {root : Id}
    (owned : OwnLineage own branchParents tasks smaller root) (more : ∀ id ∈ smaller, id ∈ greater) :
    OwnLineage own branchParents tasks greater root := by
  rcases owned with first | ⟨task, listed, chosen, brought⟩
  · exact .inl first
  · exact .inr ⟨task, listed, more _ chosen, brought⟩

theorem Grows.round {own start : Finset Id} {state next : Selection}
    (grows : Grows own start branchParents tasks state)
    (adds : RoundAdds branchParents tasks state next) : Grows own start branchParents tasks next := by
  refine ⟨grows.starts.trans adds.kept, fun root member => ?_, fun root member => ?_, ?_⟩
  · exact (adds.lineages root).mpr (.inl (grows.roots member))
  · rcases (adds.lineages root).mp member with old | brought
    · exact (grows.owned root old).mono fun id member => adds.kept member
    · exact .inr brought
  · intro selected selects
    have below := grows.least selected selects
    exact adds.least own start selected selects (fun root old => (grows.owned root old).mono below) below

/-- A round that grows uses up a branch of the tasks. -/
theorem lineages_left {state next : Selection} (adds : RoundAdds branchParents tasks state next)
    (changed : next.lineages ≠ state.lineages) :
    ((tasks.map SelectableTask.branchId).toFinset \ next.lineages).card <
      ((tasks.map SelectableTask.branchId).toFinset \ state.lineages).card := by
  have old : state.lineages ⊆ next.lineages := fun root member => (adds.lineages root).mpr (.inl member)
  obtain ⟨root, member, new⟩ := Finset.not_subset.mp fun sub => changed (sub.antisymm old)
  have branch : root ∈ (tasks.map SelectableTask.branchId).toFinset := by
    rcases (adds.lineages root).mp member with known | ⟨task, listed, -, rfl, -⟩
    · exact absurd known new
    · exact List.mem_toFinset.mpr (List.mem_map_of_mem listed)
  refine Finset.card_lt_card ⟨Finset.sdiff_subset_sdiff (le_refl _) old, fun under => ?_⟩
  exact (Finset.mem_sdiff.mp (under (Finset.mem_sdiff.mpr ⟨branch, new⟩))).2 member

/-- The state in which a round changes nothing is the least closed set. -/
theorem selects_of_unchanged {own start : Finset Id} {last final : Selection}
    (grows : Grows own start branchParents tasks last)
    (adds : RoundAdds branchParents tasks last final) (unchanged : final.lineages = last.lineages) :
    IsLeast {selected | Selects own start branchParents tasks selected} (final.selected : Set Id) := by
  have after := grows.round adds
  have lineages : ∀ root, OwnLineage own branchParents tasks final.selected root →
      root ∈ last.lineages := by
    intro root owned
    rw [← unchanged]
    rcases owned with first | brought
    · exact after.roots first
    · exact (adds.lineages root).mpr (.inr brought)
  refine ⟨⟨fun id member => after.starts member, fun task listed origin from_ chosen => ?_,
    fun task listed synthesis root rooted owned => ?_,
    fun task listed branch requested root rooted owned => ?_⟩, fun selected selects id member => ?_⟩
  · exact adds.delegated (mem_delegatedFrom.mpr ⟨task, listed, rfl, origin, chosen, from_⟩)
  · exact adds.syntheses task listed synthesis root (lineages root owned) rooted
  · exact adds.referees task listed branch requested root (lineages root owned) rooted
  · exact after.least selected selects id member

/-- The run starts with the root lineages of the tasks that the manifest names. -/
theorem mem_ownRootLineages {roots : List SelectableTask} {own : Finset Id}
    (found : ownRootLineages roots branchParents = some own) (root : Id) :
    root ∈ own ↔ ∃ task ∈ roots, RootOf (Dict.get branchParents) task.branchId root := by
  obtain ⟨lineages, read, same⟩ := Option.bind_eq_some_iff.mp found
  obtain rfl := Option.some.inj same
  rw [List.mem_toFinset, Json.mem_mapM read]
  simp only [rootLineage_eq]

/-- **The selection is a least fixed point.** In a branch forest, a run that includes delegated tasks selects
the tasks of the least set of ids that has those of the manifest and the scheduled syntheses, and with a task
what is delegated from it, the syntheses of the owned lineages and the reviews requested from them. The
rounds that the loop allows are always enough. -/
theorem selected_tasks_least (run : TeamRun) (roots tasks : List SelectableTask)
    (before : BranchParents) (started : ownRootLineages roots before = some run.ownRootLineages)
    (forest : Forest run.branchParents) (included : run.includeDelegated = true) :
    (∀ root, root ∈ run.ownRootLineages ↔
      ∃ task ∈ roots, RootOf (Dict.get before) task.branchId root) ∧
    ∃ selected : Finset Id,
      selectedTasks run tasks = some (tasks.filter fun task => task.id ∈ selected) ∧
      IsLeast {closed | Selects run.ownRootLineages (run.taskIds ∪ run.scheduledSynthesisIds)
        run.branchParents tasks closed} (selected : Set Id) := by
  refine ⟨mem_ownRootLineages started, ?_⟩
  obtain ⟨final, settled⟩ := settle_some (@selectionRound_some _ tasks forest) (tasks.length + 1)
    { selected := run.taskIds ∪ run.scheduledSynthesisIds, lineages := run.ownRootLineages }
  have enough : ((tasks.map SelectableTask.branchId).toFinset \ run.ownRootLineages).card <
      tasks.length + 1 := by
    have few := List.toFinset_card_le (tasks.map SelectableTask.branchId)
    rw [List.length_map] at few
    exact Nat.lt_succ_of_le ((Finset.card_le_card Finset.sdiff_subset).trans few)
  obtain ⟨last, grows, taken⟩ := settle_settled
    (fun state => ((tasks.map SelectableTask.branchId).toFinset \ state.lineages).card)
    (fun state next grows taken =>
      have ⟨adds, changed⟩ := selectionRound_adds taken
      ⟨Grows.round grows adds, lineages_left adds (changed.mp rfl)⟩)
    (⟨Finset.Subset.refl _, Finset.Subset.refl _, fun _ => .inl, fun _ selects => selects.starts⟩ :
      Grows run.ownRootLineages (run.taskIds ∪ run.scheduledSynthesisIds) run.branchParents tasks _)
    enough settled
  obtain ⟨adds, changed⟩ := selectionRound_adds taken
  have unchanged : final.lineages = last.lineages :=
    not_not.mp fun differs => Bool.false_ne_true (changed.mpr differs)
  refine ⟨final.selected, ?_, selects_of_unchanged grows adds unchanged⟩
  rw [selectedTasks, if_pos included, settled]
  rfl

namespace Scenario

/-- A reviewed root, the platform's branches and a synthesis that one of them asked for. -/
def reviewedForest : BranchParents :=
  [("a", none), ("r", none), ("s", none), ("c", some "r"), ("other", none)]

def reviewedTasks : List SelectableTask :=
  [⟨"synthesis", "s", "synthesist", true, none, none⟩,
    ⟨"rebuttal", "other", refereeHat, false, none, some ⟨some "c"⟩⟩,
    ⟨"check", "c", "prover", false, some "review", none⟩,
    ⟨"review", "r", refereeHat, false, none, some ⟨some "a"⟩⟩,
    ⟨"root", "a", "prover", false, none, none⟩]

def reviewedRun : TeamRun := ⟨{"root"}, true, ∅, {"a"}, reviewedForest⟩

/-- The review of the run's root brings its lineage, and with it a review requested there. -/
theorem reviews_selected : ∃ selected : Finset Id,
    selectedTasks reviewedRun reviewedTasks =
      some (reviewedTasks.filter fun task => task.id ∈ selected) ∧ "rebuttal" ∈ selected := by
  have roots : ownRootLineages [⟨"root", "a", "prover", false, none, none⟩] reviewedForest =
      some {"a"} := by decide
  have forest : Forest reviewedForest := by
    intro branch known
    obtain ⟨value, found⟩ := Option.isSome_iff_exists.mp known
    have listed := Dict.mem_keys_of_get found
    have each : ∀ branch ∈ reviewedForest.map Prod.fst,
        (rootLineage branch reviewedForest).isSome = true := by decide
    obtain ⟨root, reached⟩ := Option.isSome_iff_exists.mp (each branch listed)
    exact ⟨root, rootLineage_eq.mp reached⟩
  obtain ⟨-, selected, same, -⟩ := selected_tasks_least reviewedRun _ reviewedTasks
    reviewedForest roots forest rfl
  refine ⟨selected, same, ?_⟩
  have output : selectedTasks reviewedRun reviewedTasks = some (reviewedTasks.drop 1) := by decide
  have kept := Option.some.inj (same.symm.trans output)
  have member : (⟨"rebuttal", "other", refereeHat, false, none, some ⟨some "c"⟩⟩ : SelectableTask) ∈
      reviewedTasks.filter fun task => task.id ∈ selected := by
    rw [kept]
    decide
  exact of_decide_eq_true (List.mem_filter.mp member).2

end Scenario

end PhysHarness
