import PhysHarness.Lib.Ancestry
import PhysHarness.Lib.Json
import PhysHarness.Lib.RoundRobin
import PhysHarness.Records
import Mathlib.Data.Prod.Lex

/-!
# The order in which ready tasks are dispatched

The tasks of a run belong to the root lineages of their branches. Settled tasks lead, blocked ones trail,
and between them the roots take turns, starting behind the root that had the last one.

## Sources
- orchestration/research_network.py: `root_lineage`, `_task_age`, `fair_ready_order`

## Main result

`fair_ready_order_fair`: what the order keeps, for every list of tasks and every map of branches.
-/
namespace PhysHarness

open Ancestry (RootOf Above climb)
open RoundRobin (TakesTurns turns)

/-- What the scheduler reads of a task record. -/
structure ListedTask where
  id : Id
  branchId : Id
  status : TaskStatus
  createdAt : Option String
  dependencyIds : List Id
  deriving DecidableEq

/-- Branches and their parents. -/
abbrev BranchParents := List (Id × Option Id)

/-- `root_lineage`; `none` stands for the error. -/
def rootLineage (branchId : Id) (parents : BranchParents) : Option Id :=
  match climb (Dict.get parents) (parents.length + 1) [] branchId with
  | .root root => some root
  | _ => none

/-- `_task_age` -/
def taskAge (task : ListedTask) : String × String :=
  match task.createdAt with
  | some createdAt => if createdAt = "" then ("", "") else (createdAt, task.id)
  | none => ("", "")

/-- Tuples are compared component by component. -/
def Older (first second : ListedTask) : Prop := toLex (taskAge first) ≤ toLex (taskAge second)

instance (first second : ListedTask) : Decidable (Older first second) :=
  inferInstanceAs (Decidable (toLex (taskAge first) ≤ toLex (taskAge second)))

/-- `states.get(id)`; of two tasks with one id the later one counts. -/
def stateOf (tasks : List ListedTask) (id : Id) : Option TaskStatus :=
  (tasks.reverse.find? fun task => task.id = id).map ListedTask.status

/-- A listed dependency is not completed. -/
def waitsFor (tasks : List ListedTask) (task : ListedTask) : Bool :=
  task.dependencyIds.any fun dependency =>
    (stateOf tasks dependency).any fun status => status ≠ .completed

/-- The lists that the first loop fills. -/
structure SortedOut where
  settled : List ListedTask := []
  blocked : List ListedTask := []
  groups : List (Id × List ListedTask) := []

def sortOut (waits : ListedTask → Bool) (parents : BranchParents) :
    List ListedTask → SortedOut → Option SortedOut
  | [], found => some found
  | task :: tasks, found => do
    let root ← rootLineage task.branchId parents
    let group := (Dict.get found.groups root).getD []
    if task.status.terminal then
      sortOut waits parents tasks
        { found with settled := found.settled ++ [task], groups := Dict.set found.groups root group }
    else if waits task then
      sortOut waits parents tasks
        { found with blocked := found.blocked ++ [task], groups := Dict.set found.groups root group }
    else
      sortOut waits parents tasks { found with groups := Dict.set found.groups root (group ++ [task]) }

/-- The sorted roots, from the one behind the last on. -/
def rotate (lineages : List Id) (lastLineage : Option Id) : List Id :=
  match lastLineage with
  | some last =>
    if last ∈ lineages then
      lineages.drop (lineages.idxOf last + 1) ++ lineages.take (lineages.idxOf last + 1)
    else lineages
  | none => lineages

def fairReadyOrder (tasks : List ListedTask) (parents : BranchParents) (lastLineage : Option Id) :
    Option (List ListedTask) := do
  let found ← sortOut (waitsFor tasks) parents (tasks.insertionSort Older) {}
  let lineages := rotate ((found.groups.map Prod.fst).insertionSort (· ≤ ·)) lastLineage
  let queues := lineages.map fun root => (root, (Dict.get found.groups root).getD [])
  return found.settled ++ turns tasks.length queues ++ found.blocked

/-! ### Roots -/

theorem climb_finished (branchId : Id) (parents : BranchParents) :
    climb (Dict.get parents) (parents.length + 1) [] branchId ≠ .unfinished := by
  have covers : ∀ vertex, (Dict.get parents vertex).isSome → vertex ∈ parents.map Prod.fst := by
    intro vertex found
    obtain ⟨value, found⟩ := Option.isSome_iff_exists.mp found
    exact Dict.mem_keys_of_get found
  refine Ancestry.climb_finished covers List.nodup_nil (List.forall_mem_nil _) ?_
  rw [List.length_map]
  exact Nat.lt_succ_self _

/-- The root is found when there is one. -/
theorem rootLineage_eq {branchId root : Id} {parents : BranchParents} :
    rootLineage branchId parents = some root ↔ RootOf (Dict.get parents) branchId root := by
  rw [rootLineage]
  constructor
  · intro found
    split at found
    next reached => exact Option.some.inj found ▸ Ancestry.climb_root reached
    next => cases found
  · intro rooted
    rcases Ancestry.climb_of_root rooted (List.forall_mem_nil _) with found | unfinished
    · rw [found]
    · exact absurd unfinished (climb_finished branchId parents)

theorem rootLineage_none {branchId : Id} {parents : BranchParents} :
    rootLineage branchId parents = none ↔ ¬ ∃ root, RootOf (Dict.get parents) branchId root := by
  rw [Option.eq_none_iff_forall_ne_some]
  simp only [ne_eq, rootLineage_eq, not_exists]

/-! ### The first loop -/

/-- The root that a task counts for. -/
def taskLineage (parents : BranchParents) (task : ListedTask) : Id :=
  (rootLineage task.branchId parents).getD task.branchId

/-- A task that leads. -/
def isSettled (task : ListedTask) : Bool := task.status.terminal

/-- A task that trails. -/
def isBlocked (waits : ListedTask → Bool) (task : ListedTask) : Bool :=
  !task.status.terminal && waits task

/-- A task that takes a turn. -/
def isReady (waits : ListedTask → Bool) (task : ListedTask) : Bool :=
  !task.status.terminal && !waits task

/-- The group of a root. -/
def SortedOut.group (found : SortedOut) (root : Id) : List ListedTask :=
  (Dict.get found.groups root).getD []

/-- What the loop adds for the tasks it has passed. -/
structure SortsOut (waits : ListedTask → Bool) (parents : BranchParents) (tasks : List ListedTask)
    (before after : SortedOut) : Prop where
  resolved : ∀ task ∈ tasks, ∃ root, rootLineage task.branchId parents = some root
  settled : after.settled = before.settled ++ tasks.filter isSettled
  blocked : after.blocked = before.blocked ++ tasks.filter (isBlocked waits)
  group : ∀ root, after.group root = before.group root ++
    tasks.filter fun task => isReady waits task && decide (taskLineage parents task = root)
  roots : ∀ root, root ∈ after.groups.map Prod.fst ↔
    root ∈ before.groups.map Prod.fst ∨ ∃ task ∈ tasks, taskLineage parents task = root
  distinct : (before.groups.map Prod.fst).Nodup → (after.groups.map Prod.fst).Nodup

variable {waits : ListedTask → Bool} {parents : BranchParents}

theorem mem_keys_set {groups : List (Id × List ListedTask)} {key root : Id} {items : List ListedTask} :
    root ∈ (Dict.set groups key items).map Prod.fst ↔ root ∈ groups.map Prod.fst ∨ key = root := by
  constructor
  · intro member
    obtain ⟨item, listed, rfl⟩ := List.mem_map.mp member
    rcases Dict.mem_set.mp listed with rfl | ⟨old, -⟩
    · exact .inr rfl
    · exact .inl (List.mem_map_of_mem old)
  · rintro (old | rfl)
    · by_cases same : root = key
      · rw [same]
        exact List.mem_map.mpr ⟨(key, items), Dict.mem_set.mpr (.inl rfl), rfl⟩
      · obtain ⟨item, listed, rfl⟩ := List.mem_map.mp old
        exact List.mem_map.mpr ⟨item, Dict.mem_set.mpr (.inr ⟨listed, same⟩), rfl⟩
    · exact List.mem_map.mpr ⟨(key, items), Dict.mem_set.mpr (.inl rfl), rfl⟩

/-- Writing a group changes that group alone. -/
theorem group_set (found : SortedOut) (key root : Id) (items : List ListedTask) :
    (Dict.get (Dict.set found.groups key items) root).getD [] =
      if key = root then items else found.group root := by
  split
  next same => rw [← same, Dict.get_set_self, Option.getD_some]
  next other => rw [Dict.get_set_ne (Ne.symm other), SortedOut.group]

theorem sortOut_sorts {tasks : List ListedTask} {before after : SortedOut}
    (sorted : sortOut waits parents tasks before = some after) :
    SortsOut waits parents tasks before after := by
  induction tasks generalizing before with
  | nil =>
    obtain rfl := Option.some.inj sorted
    exact ⟨nofun, by simp, by simp, by simp, by simp, id⟩
  | cons task tasks ih =>
    rw [sortOut] at sorted
    obtain ⟨root, found, sorted⟩ := Option.bind_eq_some_iff.mp sorted
    have own : taskLineage parents task = root := by rw [taskLineage, found, Option.getD_some]
    have first : ∃ root, rootLineage task.branchId parents = some root := ⟨root, found⟩
    -- the three branches differ in the list that gets the task
    split at sorted
    next terminal =>
      have rest := ih sorted
      refine ⟨List.forall_mem_cons.mpr ⟨first, rest.resolved⟩, ?_, ?_, fun other => ?_, fun other => ?_,
        fun distinct => rest.distinct (Dict.nodup_set distinct _ _)⟩
      · rw [rest.settled, List.filter_cons_of_pos (show isSettled task = true from terminal), List.append_assoc]
        rfl
      · rw [rest.blocked, List.filter_cons_of_neg (by simp [isBlocked, terminal])]
      · rw [rest.group, List.filter_cons_of_neg (by simp [isReady, terminal])]
        congr 1
        rw [SortedOut.group, group_set]
        split
        next same => rw [← same]; rfl
        next => rfl
      · rw [rest.roots, mem_keys_set, List.exists_mem_cons_iff, own, or_assoc]
    split at sorted
    next running waiting =>
      have rest := ih sorted
      refine ⟨List.forall_mem_cons.mpr ⟨first, rest.resolved⟩, ?_, ?_, fun other => ?_, fun other => ?_,
        fun distinct => rest.distinct (Dict.nodup_set distinct _ _)⟩
      · rw [rest.settled, List.filter_cons_of_neg (show ¬ isSettled task = true from running)]
      · rw [rest.blocked, List.filter_cons_of_pos (by simp [isBlocked, running, waiting]), List.append_assoc]
        rfl
      · rw [rest.group, List.filter_cons_of_neg (by simp [isReady, waiting])]
        congr 1
        rw [SortedOut.group, group_set]
        split
        next same => rw [← same]; rfl
        next => rfl
      · rw [rest.roots, mem_keys_set, List.exists_mem_cons_iff, own, or_assoc]
    next running free =>
      have rest := ih sorted
      refine ⟨List.forall_mem_cons.mpr ⟨first, rest.resolved⟩, ?_, ?_, fun other => ?_, fun other => ?_,
        fun distinct => rest.distinct (Dict.nodup_set distinct _ _)⟩
      · rw [rest.settled, List.filter_cons_of_neg (show ¬ isSettled task = true from running)]
      · rw [rest.blocked, List.filter_cons_of_neg (by simp [isBlocked, free])]
      · rw [rest.group, SortedOut.group, group_set]
        split
        next same =>
          rw [List.filter_cons_of_pos (by simp [isReady, running, free, own, same]), List.append_assoc,
            ← same]
          rfl
        next differs =>
          rw [List.filter_cons_of_neg (by simp [own, differs])]
      · rw [rest.roots, mem_keys_set, List.exists_mem_cons_iff, own, or_assoc]

/-- The loop fails only on a task whose ancestry is missing or cyclic. -/
theorem sortOut_some {tasks : List ListedTask} (before : SortedOut)
    (resolved : ∀ task ∈ tasks, ∃ root, rootLineage task.branchId parents = some root) :
    ∃ after, sortOut waits parents tasks before = some after := by
  induction tasks generalizing before with
  | nil => exact ⟨before, rfl⟩
  | cons task tasks ih =>
    obtain ⟨⟨root, found⟩, later⟩ := List.forall_mem_cons.mp resolved
    rw [sortOut, found]
    simp only [Option.bind_eq_bind, Option.bind_some]
    split
    · exact ih _ later
    split
    · exact ih _ later
    · exact ih _ later

/-! ### The rotation -/

/-- In a strictly sorted list the elements behind one are the greater ones. -/
theorem split_sorted {lineages : List Id} (sorted : lineages.Pairwise (· < ·)) {last : Id}
    (member : last ∈ lineages) :
    lineages.drop (lineages.idxOf last + 1) = lineages.filter (fun root => decide (last < root)) ∧
      lineages.take (lineages.idxOf last + 1) = lineages.filter fun root => decide (root ≤ last) := by
  induction lineages with
  | nil => exact absurd member List.not_mem_nil
  | cons first lineages ih =>
    obtain ⟨less, sorted⟩ := List.pairwise_cons.mp sorted
    by_cases same : first = last
    · subst same
      rw [List.idxOf_cons_self]
      constructor
      · rw [List.filter_cons_of_neg (by simp), List.drop_succ_cons, List.drop_zero, eq_comm,
          List.filter_eq_self]
        exact fun root listed => decide_eq_true (less root listed)
      · rw [List.filter_cons_of_pos (by simp), List.take_succ_cons, List.take_zero, eq_comm]
        refine congrArg (first :: ·) (List.filter_eq_nil_iff.mpr fun root listed => ?_)
        simpa using less root listed
    · have later : last ∈ lineages := (List.mem_cons.mp member).resolve_left fun eq => same eq.symm
      obtain ⟨behind, upTo⟩ := ih sorted later
      rw [List.idxOf_cons_ne _ same]
      constructor
      · have before : ¬ decide (last < first) = true := fun after =>
          lt_asymm (of_decide_eq_true after) (less last later)
        rw [List.filter_cons_of_neg (p := fun root => decide (last < root)) before, ← behind]
        rfl
      · rw [List.filter_cons_of_pos (p := fun root => decide (root ≤ last))
          (decide_eq_true (less last later).le), ← upTo]
        rfl

/-- The names behind the last one, and then the others, when the last one is among them. -/
def fromBehind (lineages : List Id) : Option Id → List Id
  | some last =>
    if last ∈ lineages then
      lineages.filter (fun root => decide (last < root)) ++
        lineages.filter fun root => decide (root ≤ last)
    else lineages
  | none => lineages

theorem rotate_eq {lineages : List Id} (sorted : lineages.Pairwise (· < ·)) (lastLineage : Option Id) :
    rotate lineages lastLineage = fromBehind lineages lastLineage := by
  cases lastLineage with
  | none => rfl
  | some last =>
    show (if last ∈ lineages then _ else _) = if last ∈ lineages then _ else _
    split
    next member =>
      obtain ⟨behind, upTo⟩ := split_sorted sorted member
      rw [behind, upTo]
    next => rfl

theorem rotate_perm (lineages : List Id) (lastLineage : Option Id) :
    (rotate lineages lastLineage).Perm lineages := by
  cases lastLineage with
  | none => exact .refl _
  | some last =>
    show (if last ∈ lineages then _ else lineages).Perm lineages
    split
    · refine List.perm_append_comm.trans ?_
      rw [List.take_append_drop]
    · exact .refl _

/-! ### Main result -/

/-- What the order of dispatch keeps. The three lists are the tasks that lead, take turns and trail. -/
structure FairOrder (tasks : List ListedTask) (parents : BranchParents) (lastLineage : Option Id)
    (settled ready blocked : List ListedTask) : Prop where
  whole : (settled ++ ready ++ blocked).Perm tasks
  leads : ∀ task ∈ settled, task.status.terminal = true
  takes : ∀ task ∈ ready, task.status.terminal = false ∧ waitsFor tasks task = false
  trails : ∀ task ∈ blocked, task.status.terminal = false ∧ waitsFor tasks task = true
  /-- the tasks of one root stand in order of age -/
  aged : settled.Pairwise Older ∧ blocked.Pairwise Older ∧
    ∀ root, (ready.filter fun task => taskLineage parents task = root).Pairwise Older
  /-- tasks of one root that came in order of age keep that order -/
  stable : ∀ some : List ListedTask, some.Sublist tasks → some.Pairwise Older →
    ∀ root, (∀ task ∈ some, task ∈ ready ∧ taskLineage parents task = root) → some.Sublist ready
  turns : TakesTurns (taskLineage parents) ready
  /-- the first turns are those of the roots behind the last one, in the order of their names -/
  rotation : ∃ roots : List Id, roots.Pairwise (· < ·) ∧
    (∀ root, root ∈ roots ↔ ∃ task ∈ tasks, taskLineage parents task = root) ∧
    ((fromBehind roots lastLineage).filter fun root =>
      ready.any fun task => taskLineage parents task = root) <+: ready.map (taskLineage parents)

local instance olderTotal : Std.Total Older := ⟨fun first _ => le_total (toLex (taskAge first)) _⟩

local instance olderTrans : IsTrans ListedTask Older := ⟨fun _ _ _ => le_trans⟩

theorem isReady_iff {task : ListedTask} :
    isReady waits task = true ↔ task.status.terminal = false ∧ waits task = false := by
  rw [isReady, Bool.and_eq_true, Bool.not_eq_true', Bool.not_eq_true']

/-- The tasks that lead, take turns and trail are all tasks. -/
theorem sections_perm (tasks : List ListedTask) :
    (tasks.filter isSettled ++ tasks.filter (isReady waits) ++ tasks.filter (isBlocked waits)).Perm
      tasks := by
  have unsettled := List.filter_append_perm (isBlocked waits) (tasks.filter fun task => !isSettled task)
  rw [List.filter_filter, List.filter_filter] at unsettled
  have blocked : (tasks.filter fun task => isBlocked waits task && !isSettled task) =
      tasks.filter (isBlocked waits) := List.filter_congr fun task _ => by
    cases settled : task.status.terminal <;> simp [isBlocked, isSettled, settled]
  have ready : (tasks.filter fun task => !isBlocked waits task && !isSettled task) =
      tasks.filter (isReady waits) := List.filter_congr fun task _ => by
    cases settled : task.status.terminal <;> simp [isBlocked, isReady, isSettled, settled]
  rw [blocked, ready] at unsettled
  rw [List.append_assoc]
  exact ((List.perm_append_comm.trans unsettled).append_left _).trans
    (List.filter_append_perm isSettled tasks)

theorem fairReadyOrder_fair {tasks out : List ListedTask} {lastLineage : Option Id}
    (ordered : fairReadyOrder tasks parents lastLineage = some out) :
    ∃ settled ready blocked, out = settled ++ ready ++ blocked ∧
      FairOrder tasks parents lastLineage settled ready blocked := by
  obtain ⟨found, sorted, same⟩ := Option.bind_eq_some_iff.mp ordered
  have sorts := sortOut_sorts sorted
  generalize age : tasks.insertionSort Older = byAge at sorts
  have perm : byAge.Perm tasks := age ▸ List.perm_insertionSort _ _
  have oldest : byAge.Pairwise Older := age ▸ List.pairwise_insertionSort _ _
  generalize names : (found.groups.map Prod.fst).insertionSort (· ≤ ·) = roots at same
  have rootsPerm : roots.Perm (found.groups.map Prod.fst) := names ▸ List.perm_insertionSort _ _
  have distinct : roots.Nodup := rootsPerm.nodup_iff.mpr (sorts.distinct List.nodup_nil)
  have increasing : roots.Pairwise (· < ·) := by
    have weakly : roots.Pairwise (· ≤ ·) := names ▸ List.pairwise_insertionSort _ _
    exact weakly.imp₂ (fun _ _ le ne => lt_of_le_of_ne le ne) distinct
  have mem_roots : ∀ root, root ∈ roots ↔ ∃ task ∈ tasks, taskLineage parents task = root := by
    intro root
    rw [rootsPerm.mem_iff, sorts.roots]
    simp [perm.mem_iff]
  have settled : found.settled = byAge.filter isSettled := by simpa using sorts.settled
  have blocked : found.blocked = byAge.filter (isBlocked (waitsFor tasks)) := by simpa using sorts.blocked
  have group : ∀ root, (Dict.get found.groups root).getD [] =
      (byAge.filter (isReady (waitsFor tasks))).filter fun task => taskLineage parents task = root := by
    intro root
    have group := sorts.group root
    rw [SortedOut.group, SortedOut.group, show ({} : SortedOut).groups = [] from rfl] at group
    rw [group, List.filter_filter]
    simp [Dict.get, Bool.and_comm]
  -- the queues in their rotation hold the ready tasks, each under its root
  let ready := byAge.filter (isReady (waitsFor tasks))
  have lineages : ∀ task ∈ ready, taskLineage parents task ∈ rotate roots lastLineage := by
    intro task member
    refine (rotate_perm roots lastLineage).mem_iff.mpr ((mem_roots _).mpr ⟨task, ?_, rfl⟩)
    exact perm.mem_iff.mp (List.mem_of_mem_filter member)
  let queues := (rotate roots lastLineage).map fun root =>
    (root, ready.filter fun task => taskLineage parents task = root)
  have keys : queues.map Prod.fst = rotate roots lastLineage := by
    simp only [queues, List.map_map]
    exact List.map_id _
  have keysDistinct : (queues.map Prod.fst).Nodup := by
    rw [keys]
    exact (rotate_perm roots lastLineage).nodup_iff.mpr distinct
  have owned : RoundRobin.Owned (taskLineage parents) queues := by
    intro queue member task inside
    obtain ⟨root, -, rfl⟩ := List.mem_map.mp member
    exact of_decide_eq_true (List.mem_filter.mp inside).2
  have held : (queues.flatMap Prod.snd).Perm ready := by
    have parts := @RoundRobin.flatMap_owners _ _ (taskLineage parents) _ _ (keys ▸ keysDistinct) ready
    rw [List.filter_eq_self.mpr fun task member => decide_eq_true (lineages task member)] at parts
    simpa only [queues, List.flatMap_map] using parts
  have enough : RoundRobin.size queues ≤ tasks.length := by
    have length : RoundRobin.size queues = (queues.flatMap Prod.snd).length :=
      (List.length_flatMap).symm
    rw [length, held.length_eq, ← perm.length_eq]
    exact List.length_filter_le _ _
  have turnsPerm := (RoundRobin.turns_perm enough).trans held
  have own : ∀ root, (turns tasks.length queues).filter (fun task => taskLineage parents task = root) =
      ready.filter fun task => taskLineage parents task = root := by
    intro root
    by_cases listed : root ∈ rotate roots lastLineage
    · have queue : (root, ready.filter fun task => taskLineage parents task = root) ∈ queues :=
        List.mem_map.mpr ⟨root, listed, rfl⟩
      rw [RoundRobin.turns_filter owned (fun key => decide (key = root)) enough,
        RoundRobin.filter_key keysDistinct queue, RoundRobin.turns_single]
      rw [← perm.length_eq]
      exact (List.length_filter_le _ _).trans (List.length_filter_le _ _)
    · have none : ready.filter (fun task => taskLineage parents task = root) = [] :=
        List.filter_eq_nil_iff.mpr fun task member same =>
          listed (of_decide_eq_true same ▸ lineages task member)
      have parts := turnsPerm.filter fun task => decide (taskLineage parents task = root)
      rw [none] at parts ⊢
      exact parts.eq_nil
  have takes : ∀ task ∈ turns tasks.length queues, isReady (waitsFor tasks) task = true :=
    fun task member => (List.mem_filter.mp (turnsPerm.mem_iff.mp member)).2
  refine ⟨found.settled, turns tasks.length queues, found.blocked, ?_, ?_⟩
  · obtain rfl := Option.some.inj same
    simp only [queues, ready, group]
  refine ⟨?_, ?_, fun task member => isReady_iff.mp (takes task member), ?_, ⟨?_, ?_, ?_⟩, ?_, ?_,
    roots, increasing, mem_roots, ?_⟩
  · rw [settled, blocked]
    exact ((turnsPerm.append_left _).append_right _).trans ((sections_perm byAge).trans perm)
  · intro task member
    rw [settled] at member
    exact (List.mem_filter.mp member).2
  · intro task member
    rw [blocked] at member
    simpa [isBlocked] using (List.mem_filter.mp member).2
  · rw [settled]
    exact oldest.filter _
  · rw [blocked]
    exact oldest.filter _
  · intro root
    rw [own root]
    exact (oldest.filter _).filter _
  · intro some listed sorted root each
    have inside : some.Sublist byAge := by
      rw [← age]
      exact List.sublist_insertionSort sorted listed
    have kept := (inside.filter (isReady (waitsFor tasks))).filter fun task =>
      decide (taskLineage parents task = root)
    rw [List.filter_eq_self.mpr fun task member => takes task (each task member).1,
      List.filter_eq_self.mpr fun task member => decide_eq_true (each task member).2] at kept
    exact kept.trans ((own root) ▸ List.filter_sublist)
  · exact RoundRobin.turns_fair owned keysDistinct enough
  · have begins := RoundRobin.turns_begin owned enough
    have heads : (queues.filter fun queue => !queue.2.isEmpty).map Prod.fst =
        (rotate roots lastLineage).filter fun root =>
          (turns tasks.length queues).any fun task => taskLineage parents task = root := by
      have kept : ∀ root, (!(ready.filter fun task => taskLineage parents task = root).isEmpty) =
          (turns tasks.length queues).any fun task => taskLineage parents task = root := by
        intro root
        rw [Bool.eq_iff_iff, Bool.not_eq_true', List.isEmpty_eq_false_iff, ← own root]
        simp [List.filter_eq_nil_iff]
      rw [← funext kept]
      simp only [queues, List.filter_map, List.map_map]
      exact List.map_id _
    rwa [heads, rotate_eq increasing] at begins

namespace Scenario

def younger : ListedTask := ⟨"t1", "a", .queued, some "2026-09-24T10:00:00Z", []⟩

def older : ListedTask := ⟨"t2", "a", .queued, some "2026-09-24T09:00:00Z", []⟩

end Scenario

end PhysHarness
