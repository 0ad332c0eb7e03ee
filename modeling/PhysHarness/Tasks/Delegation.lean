import PhysHarness.Tasks.Moves
import PhysHarness.Lib.Acyclic

/-!
The wait-for graph of delegated tasks.

A task waits for its dependencies before it can be leased, and a parent waits for its joined
children before it can complete. Creating a joined task compares its direct dependencies with the
delegation ancestors only, so a detached task in between can close a cycle.
-/
namespace PhysHarness

open Outcome Acyclic Relation

/-- An edge of the wait-for graph: a dependency, or a joined child. -/
def WaitsFor (tasks : Table Id (Row Task)) (waiting awaited : Id) : Prop :=
  (∃ row, tasks.find waiting = some row ∧ awaited ∈ row.payload.dependencyIds) ∨
    ∃ child, tasks.find awaited = some child ∧
      child.payload.replyToParentTaskId = some waiting

/-- The tasks that a task names exist. -/
def Referenced (tasks : Table Id (Row Task)) : Prop :=
  ∀ id row, tasks.find id = some row →
    (∀ other ∈ row.payload.dependencyIds, (tasks.find other).isSome) ∧
      ∀ parent ∈ row.payload.replyToParentTaskId, (tasks.find parent).isSome

/-- A joined task is only created when none of its dependencies already waits for its parent. -/
def DelegationSafe (sys : Sys) : Label → Prop
  | .command env actor _ (.createTask request) =>
    ∀ parent ∈ Db.joinedParent request (Db.delegatedFrom env actor),
      ∀ dependency ∈ request.dependencyIds,
        ¬ ReflTransGen (WaitsFor sys.db.tasks) dependency parent
  | _ => True

/-- Every named task exists and nothing waits for itself. -/
def DelegationInv (tasks : Table Id (Row Task)) : Prop :=
  Referenced tasks ∧ NoCycle (WaitsFor tasks)

section Steps

variable {tasks : Table Id (Row Task)}

/-- Every task after a rewrite that keeps the names had a row before it that names the same. -/
theorem rewrite_origin {id : Id} {row : Row Task} {after : Task}
    (stored : tasks.find id = some row)
    (dependencies : after.dependencyIds = row.payload.dependencyIds)
    (parent : after.replyToParentTaskId = row.payload.replyToParentTaskId) {other : Id}
    {moved : Row Task} (found : (tasks.put id (row.replace after)).find other = some moved) :
    ∃ old, tasks.find other = some old ∧
      moved.payload.dependencyIds = old.payload.dependencyIds ∧
      moved.payload.replyToParentTaskId = old.payload.replyToParentTaskId := by
  rw [Table.find_put] at found
  split at found
  next same =>
    obtain rfl := Option.some.inj found
    exact ⟨row, same ▸ stored, dependencies, parent⟩
  · exact ⟨moved, found, rfl, rfl⟩

theorem isSome_put {id other : Id} {row : Row Task} (present : (tasks.find other).isSome) :
    ((tasks.put id row).find other).isSome := by
  rw [Table.find_put]
  split
  · rfl
  · exact present

theorem Referenced.rewrite {id : Id} {row : Row Task} {after : Task}
    (references : Referenced tasks) (stored : tasks.find id = some row)
    (dependencies : after.dependencyIds = row.payload.dependencyIds)
    (parent : after.replyToParentTaskId = row.payload.replyToParentTaskId) :
    Referenced (tasks.put id (row.replace after)) := by
  intro other moved found
  obtain ⟨old, before, sameDependencies, sameParent⟩ :=
    rewrite_origin stored dependencies parent found
  have named := references other old before
  rw [sameDependencies, sameParent]
  exact ⟨fun _ member => isSome_put (named.1 _ member), fun _ member => isSome_put (named.2 _ member)⟩

theorem Referenced.create {id : Id} {row : Row Task} (references : Referenced tasks)
    (known : ∀ other ∈ row.payload.dependencyIds, (tasks.find other).isSome)
    (parent : ∀ above ∈ row.payload.replyToParentTaskId, (tasks.find above).isSome) :
    Referenced (tasks.put id row) := by
  intro other found stored
  rw [Table.find_put] at stored
  split at stored
  · obtain rfl := Option.some.inj stored
    exact ⟨fun _ member => isSome_put (known _ member), fun _ member => isSome_put (parent _ member)⟩
  · have named := references other found stored
    exact ⟨fun _ member => isSome_put (named.1 _ member),
      fun _ member => isSome_put (named.2 _ member)⟩

/-- Rewriting a task without changing what it names keeps the graph. -/
theorem DelegationInv.rewrite {id : Id} {row : Row Task} {after : Task}
    (inv : DelegationInv tasks) (stored : tasks.find id = some row)
    (dependencies : after.dependencyIds = row.payload.dependencyIds)
    (parent : after.replyToParentTaskId = row.payload.replyToParentTaskId) :
    DelegationInv (tasks.put id (row.replace after)) := by
  refine ⟨inv.1.rewrite stored dependencies parent, inv.2.congr ?_⟩
  rintro waiting awaited (⟨moved, found, member⟩ | ⟨moved, found, joined⟩)
  · obtain ⟨old, before, sameDependencies, -⟩ := rewrite_origin stored dependencies parent found
    exact .inl ⟨old, before, sameDependencies ▸ member⟩
  · obtain ⟨old, before, -, sameParent⟩ := rewrite_origin stored dependencies parent found
    exact .inr ⟨old, before, sameParent ▸ joined⟩

/-- A new task extends the graph by one vertex. -/
theorem waitsFor_extends {id : Id} {row : Row Task} (references : Referenced tasks)
    (fresh : tasks.find id = none) (known : ∀ other ∈ row.payload.dependencyIds,
      (tasks.find other).isSome)
    (parent : ∀ above ∈ row.payload.replyToParentTaskId, (tasks.find above).isSome) :
    Extends (WaitsFor tasks) (WaitsFor (tasks.put id row)) id (· ∈ row.payload.dependencyIds)
      (fun above => row.payload.replyToParentTaskId = some above) where
  edges := by
    rintro waiting awaited (⟨found, stored, member⟩ | ⟨found, stored, joined⟩)
    · rw [Table.find_put] at stored
      split at stored
      next same =>
        obtain rfl := Option.some.inj stored
        exact .inr (.inl ⟨same, member⟩)
      · exact .inl (.inl ⟨found, stored, member⟩)
    · rw [Table.find_put] at stored
      split at stored
      next same =>
        obtain rfl := Option.some.inj stored
        exact .inr (.inr ⟨joined, same⟩)
      · exact .inl (.inr ⟨found, stored, joined⟩)
  noOut := by
    rintro awaited (⟨found, stored, -⟩ | ⟨found, stored, joined⟩)
    · exact nomatch stored.symm.trans fresh
    · have present := (references awaited found stored).2 id joined
      rw [fresh] at present
      exact nomatch present
  noIn := by
    rintro waiting (⟨found, stored, member⟩ | ⟨found, stored, -⟩)
    · have present := (references waiting found stored).1 id member
      rw [fresh] at present
      exact nomatch present
    · exact nomatch stored.symm.trans fresh
  targetsOld member := by
    have present := known id member
    rw [fresh] at present
    exact nomatch present
  sourcesOld joined := by
    have present := parent id joined
    rw [fresh] at present
    exact nomatch present

/-- The parent that a walk starts from exists. -/
theorem checkAncestors_parent {db : Db} {actor : Principal} {experimentId : Id} {ids : List Id}
    {fuel : Nat} {start : Option Id}
    (walked : db.checkAncestors actor experimentId ids (fuel + 1) start = .ok ()) :
    ∀ parent ∈ start, (db.tasks.find parent).isSome := by
  rintro parent rfl
  simp only [Db.checkAncestors, bind_ok, require_ok, orThrow_ok, exists_const] at walked
  obtain ⟨-, row, stored, -⟩ := walked
  exact stored ▸ rfl

theorem dependencies_known {db : Db} {ids : List Id}
    (known : ∀ id ∈ ids, ∃ row, db.tasks.find id = some row) :
    ∀ id ∈ ids, (db.tasks.find id).isSome := by
  intro id member
  obtain ⟨row, stored⟩ := known id member
  exact stored ▸ rfl

variable {db : Db} {env : Env} {actor : Principal} {request : Request} {leases : Table Id Lease}

/-- A safe command keeps the wait-for graph acyclic. -/
theorem TaskChange.delegates (change : TaskChange db env actor request tasks leases)
    (inv : DelegationInv db.tasks) {sys : Sys} (same : sys.db = db) {key : String}
    (safe : DelegationSafe sys (.command env actor key request)) : DelegationInv tasks := by
  cases change with
  | kept | renewed => exact inv
  | moved stored dependencies parent => exact inv.rewrite stored dependencies parent
  | created _ walked known fresh =>
    have parent := checkAncestors_parent walked
    have named := dependencies_known known
    refine ⟨inv.1.create named parent, ?_⟩
    apply inv.2.extend (waitsFor_extends inv.1 fresh named parent)
    intro dependency member above joins
    exact same ▸ safe above joins dependency member

end Steps

section Runs

variable [ContentHash]

theorem delegates_step {sys : Sys} {label : Label} (inv : DelegationInv sys.db.tasks)
    (safe : DelegationSafe sys label) : DelegationInv (sys.step label).db.tasks := by
  refine sys.step_preserves (fun db => DelegationInv db.tasks) inv ?_ ?_ ?_
  · rintro env actor key request changed commands reply rfl - performs
    exact (performs_tasks performs).delegates inv rfl safe
  · rintro env step after rfl - commits
    rw [commits.untouched.1]
    exact inv
  · rintro write rfl
    rcases notedTasks_cases sys.db.tasks write.notes with same | ⟨_, _, _, stored, same⟩ <;>
      simp only [Db.written, same]
    · exact inv
    · exact inv.rewrite stored rfl rfl

omit [ContentHash] in
theorem delegationInv_empty : DelegationInv (Db.tasks {}) := by
  constructor
  · intro id row stored
    simp at stored
  · intro id cycle
    obtain ⟨_, ⟨_, stored, -⟩ | ⟨_, stored, -⟩, -⟩ := TransGen.head'_iff.mp cycle <;>
      simp at stored

/-- In every state of a run that only creates joined tasks whose dependencies do not wait for their
parent, the wait-for graph has no cycle. -/
theorem delegation_acyclic {labels : List Label}
    (safe : Transition.Along Sys.step DelegationSafe {} labels) :
    ∀ id, ¬ TransGen (WaitsFor (Sys.run labels).db.tasks) id id := by
  have inv := Transition.run_invariant (fun sys : Sys => DelegationInv sys.db.tasks)
    delegationInv_empty (fun _ _ inv safe => delegates_step inv safe) safe
  exact inv.2

end Runs

/-! ### The ancestor walk ends -/

/-- Parents come before their joined children in some enumeration of the tasks. -/
def Ranked (tasks : Table Id (Row Task)) (rank : Id → Nat) : Prop :=
  ∀ id row, tasks.find id = some row → rank id < tasks.rows.length ∧
    ∀ parent ∈ row.payload.replyToParentTaskId, rank parent < rank id

theorem Ranked.rewrite {tasks : Table Id (Row Task)} {rank : Id → Nat} {id : Id} {row : Row Task}
    {after : Task} (ranked : Ranked tasks rank) (stored : tasks.find id = some row)
    (parent : after.replyToParentTaskId = row.payload.replyToParentTaskId) :
    Ranked (tasks.put id (row.replace after)) rank := by
  intro other moved found
  rw [Table.length_rows_put _ stored]
  rw [Table.find_put] at found
  split at found
  next same =>
    obtain rfl := Option.some.inj found
    have before := ranked id row stored
    rw [same, Row.replace_payload, parent]
    exact before
  · exact ranked other moved found

/-- A new task comes last. -/
theorem Ranked.create {tasks : Table Id (Row Task)} {rank : Id → Nat} {id : Id} {row : Row Task}
    (ranked : Ranked tasks rank) (references : Referenced tasks) (fresh : tasks.find id = none)
    (parent : ∀ above ∈ row.payload.replyToParentTaskId, (tasks.find above).isSome) :
    Ranked (tasks.put id row) (fun other => if other = id then tasks.rows.length else rank other) := by
  have old : ∀ other, (tasks.find other).isSome → other ≠ id := by
    rintro other present rfl
    rw [fresh] at present
    exact nomatch present
  intro other moved found
  rw [Table.length_rows_put_new _ fresh]
  rw [Table.find_put] at found
  split at found
  next same =>
    obtain rfl := Option.some.inj found
    refine ⟨by simp [same], fun above joins => ?_⟩
    obtain ⟨ancestor, stored⟩ := Option.isSome_iff_exists.mp (parent above joins)
    have before := (ranked above ancestor stored).1
    simpa [same, old above (parent above joins)] using before
  next distinct =>
    have before := ranked other moved found
    refine ⟨by simpa [distinct] using Nat.lt_succ_of_lt before.1, fun above joins => ?_⟩
    have present := (references other moved found).2 above joins
    simpa [distinct, old above present] using before.2 above joins

/-- A walk with enough fuel for the rank of its start never runs out. -/
theorem checkAncestors_ends {db : Db} {actor : Principal} {experimentId : Id} {ids : List Id}
    {rank : Id → Nat} (ranked : Ranked db.tasks rank) {fuel : Nat} {start : Option Id}
    (enough : ∀ parent ∈ start, ∀ row, db.tasks.find parent = some row → rank parent < fuel)
    (fuelled : 0 < fuel) :
    db.checkAncestors actor experimentId ids fuel start ≠
      .error (.internal "the ancestor walk does not end") := by
  induction fuel generalizing start with
  | zero => exact absurd fuelled (Nat.lt_irrefl 0)
  | succ fuel ih =>
    cases start with
    | none => simp [Db.checkAncestors]
    | some ancestorId =>
      simp only [Db.checkAncestors, require, Failure.refuse]
      by_cases cyclic : ancestorId ∉ ids
      · cases stored : db.tasks.find ancestorId with
        | none => simp [cyclic, orThrow, bind, Except.bind]
        | some ancestor =>
          -- the next ancestor has a smaller rank, so the remaining fuel is still enough
          have bounded := enough ancestorId rfl ancestor stored
          have rest : ∀ parent ∈ ancestor.payload.replyToParentTaskId, rank parent < fuel := by
            intro parent joins
            have smaller := (ranked ancestorId ancestor stored).2 parent joins
            omega
          by_cases scope : ancestor.projectId = actor.projectId ∧
              ancestor.payload.experimentId = experimentId
          · simp only [cyclic, not_false_eq_true, if_true, orThrow, scope, and_self, bind,
              Except.bind]
            cases above : ancestor.payload.replyToParentTaskId with
            | none => simp [Db.checkAncestors]
            | some parent =>
              have left := rest parent above
              exact ih (fun _ same row _ => Option.some.inj same ▸ left) (by omega)
          · simp [cyclic, orThrow, scope, bind, Except.bind]
      · simp [cyclic, bind, Except.bind]

/-- The tasks of a reachable state: what they name exists, and parents come first. -/
def Ordered (tasks : Table Id (Row Task)) : Prop := Referenced tasks ∧ ∃ rank, Ranked tasks rank

theorem Ordered.rewrite {tasks : Table Id (Row Task)} {id : Id} {row : Row Task} {after : Task}
    (ordered : Ordered tasks) (stored : tasks.find id = some row)
    (dependencies : after.dependencyIds = row.payload.dependencyIds)
    (parent : after.replyToParentTaskId = row.payload.replyToParentTaskId) :
    Ordered (tasks.put id (row.replace after)) :=
  ⟨ordered.1.rewrite stored dependencies parent,
    ordered.2.imp fun _ ranked => ranked.rewrite stored parent⟩

theorem TaskChange.ordered {db : Db} {env : Env} {actor : Principal} {request : Request}
    {tasks : Table Id (Row Task)} {leases : Table Id Lease}
    (change : TaskChange db env actor request tasks leases) (ordered : Ordered db.tasks) :
    Ordered tasks := by
  cases change with
  | kept | renewed => exact ordered
  | moved stored dependencies parent => exact ordered.rewrite stored dependencies parent
  | created _ walked known fresh =>
    obtain ⟨references, rank, ranked⟩ := ordered
    have parent := checkAncestors_parent walked
    exact ⟨references.create (dependencies_known known) parent, _,
      ranked.create references fresh parent⟩

section Order

variable [ContentHash]

theorem ordered_step (sys : Sys) (label : Label) (ordered : Ordered sys.db.tasks) :
    Ordered (sys.step label).db.tasks := by
  refine sys.step_preserves (fun db => Ordered db.tasks) ordered ?_ ?_ ?_
  · rintro env actor key request changed commands reply rfl - performs
    exact (performs_tasks performs).ordered ordered
  · rintro env step after rfl - commits
    rw [commits.untouched.1]
    exact ordered
  · rintro write rfl
    rcases notedTasks_cases sys.db.tasks write.notes with same | ⟨_, _, _, stored, same⟩ <;>
      simp only [Db.written, same]
    · exact ordered
    · exact ordered.rewrite stored rfl rfl

theorem ordered_run (labels : List Label) : Ordered (Sys.run labels).db.tasks := by
  have initially : Ordered (Db.tasks {}) := by
    refine ⟨?_, fun _ => 0, ?_⟩ <;> intro id row stored <;> simp at stored
  exact Transition.run_always (fun sys : Sys => Ordered sys.db.tasks) labels initially ordered_step

/-- The ancestor walk that creating a task makes ends in every reachable state. -/
theorem ancestorWalk_ends (labels : List Label) (actor : Principal) (experimentId : Id)
    (dependencyIds : List Id) (start : Option Id) :
    (Sys.run labels).db.checkAncestors actor experimentId dependencyIds
        ((Sys.run labels).db.tasks.rows.length + 1) start ≠
      .error (.internal "the ancestor walk does not end") := by
  obtain ⟨-, rank, ranked⟩ := ordered_run labels
  apply checkAncestors_ends ranked _ (Nat.succ_pos _)
  intro parent _ row stored
  exact Nat.lt_succ_of_lt (ranked parent row stored).1

end Order

/-! ### A joined child behind a detached helper -/

/-- A task without dependencies and children waits for nothing. -/
theorem waitsFor_leaf {tasks : Table Id (Row Task)} {id : Id}
    (free : (tasks.find id).map (·.payload.dependencyIds) = some [])
    (childless : tasks.anyRow (fun _ row => row.payload.replyToParentTaskId = some id) = false)
    (other : Id) : ¬ WaitsFor tasks id other := by
  rintro (⟨row, stored, member⟩ | ⟨child, stored, joined⟩)
  · rw [stored] at free
    have dependencies : row.payload.dependencyIds = [] := Option.some.inj free
    rw [dependencies] at member
    exact List.not_mem_nil member
  · have none := Table.anyRow_eq_false.mp childless other child stored
    simp [joined] at none

theorem waitsFor_dependency {tasks : Table Id (Row Task)} {id other : Id}
    (names : (tasks.find id).map (·.payload.dependencyIds) = some [other]) :
    WaitsFor tasks id other := by
  obtain ⟨row, stored, dependencies⟩ := Option.map_eq_some_iff.mp names
  exact .inl ⟨row, stored, by rw [dependencies]; exact List.mem_singleton_self other⟩

theorem waitsFor_child {tasks : Table Id (Row Task)} {id other : Id}
    (joins : (tasks.find other).map (·.payload.replyToParentTaskId) = some (some id)) :
    WaitsFor tasks id other := by
  obtain ⟨row, stored, parent⟩ := Option.map_eq_some_iff.mp joins
  exact .inr ⟨row, stored, parent⟩

namespace Scenario

/-- The agent that works on the leased task. -/
def worker : Principal where
  id := "agent"
  projectId := "project"
  role := .agent
  experimentId := some "experiment"
  branchId := some "branch"

def bound : WorkerEffects where
  actor := worker
  taskId := "task"
  holder := "worker"
  fence := 1
  issued := Nat.one_pos

/-- The worker of the leased task creates a detached helper and a joined child that needs it. -/
def delegating (dependencyIds : List Id) : List Label :=
  leasedTask ++
    [.command { envAt 0 "helper" with effects := some bound } worker "helper"
        (.createTask
          { branchId := "branch", objective := "Collect data.", dependencyIds, detached := true }),
      .command { envAt 0 "child" with effects := some bound } worker "child"
        (.createTask
          { branchId := "branch", objective := "Use the data.", dependencyIds := ["helper"] })]

theorem delegating_free :
    ¬ TransGen (WaitsFor (@Sys.run textHash (delegating [])).db.tasks) "task" "task" := by
  refine @delegation_acyclic textHash (delegating []) ?_ "task"
  refine ⟨trivial, trivial, trivial, ?_, trivial, ?_, ?_, trivial⟩
  · rintro parent joins
    exact nomatch joins
  · rintro parent joins
    exact nomatch joins
  · rintro parent joins dependency member path
    obtain rfl := List.mem_singleton.mp member
    obtain rfl : "task" = parent := Option.some.inj joins
    rcases path.cases_head with same | ⟨next, edge, -⟩
    · exact absurd same (by decide)
    · exact waitsFor_leaf (by decide) (by decide) next edge

/-- A helper that needs the task itself closes a cycle through the joined child. -/
theorem delegating_deadlocks :
    ¬ ∀ id, ¬ TransGen (WaitsFor (@Sys.run textHash (delegating ["task"])).db.tasks) id id := by
  intro acyclic
  let tasks := (@Sys.run textHash (delegating ["task"])).db.tasks
  have joins : WaitsFor tasks "task" "child" := waitsFor_child (by decide)
  have needs : WaitsFor tasks "child" "helper" := waitsFor_dependency (by decide)
  have closes : WaitsFor tasks "helper" "task" := waitsFor_dependency (by decide)
  exact acyclic "task" (((TransGen.single joins).tail needs).tail closes)

end Scenario

end PhysHarness
