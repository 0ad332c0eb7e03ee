import PhysHarness.Lib.Window
import PhysHarness.Tasks.Moves

/-!
Superseded objectives stay auditable.

An amendment keeps the last objectives verbatim and chains the digests of the older ones. No other
command writes either field, so along a run the two are the window over everything amended so far.
-/
namespace PhysHarness

open Outcome

section

variable [ContentHash]

/-- The digest of the chain over replaced objectives, oldest first. -/
def objectiveChain (replaced : List (Nat × String)) : Json :=
  replaced.foldl (fun digest entry =>
    .str (digestJson (.arr [digest, .obj [("revision", .int entry.1), ("objective", .str entry.2)]])))
    .null

/-- The transaction of an amendment commits rather than being refused or replayed. -/
def Sys.amends (sys : Sys) (env : Env) (actor : Principal) (key : String) (taskId : Id)
    (expectedRevision : Nat) (objective : String) : Bool :=
  decide (sys.timely env) && (sys.db.commands.find (commandKey actor key)).isNone &&
    (amendQueuedTaskObjective sys.db env taskId expectedRevision objective actor key).toBool

/-- The revision and the objective that a step replaces. -/
def Sys.replacedObjective (taskId : Id) (sys : Sys) : Label → List (Nat × String)
  | .command env actor key (.amendQueuedTaskObjective amended expectedRevision objective) =>
    if amended = taskId ∧ sys.amends env actor key amended expectedRevision objective = true then
      (sys.db.tasks.find taskId).toList.map fun task => (task.revision, task.payload.objective)
    else []
  | _ => []

/-- What a run replaces, in order. -/
def replacedObjectives (taskId : Id) (labels : List Label) : List (Nat × String) :=
  Transition.trace Sys.step (Sys.replacedObjective taskId) {} labels

/-! ### One command -/

def Row.objectives (row : Row Task) : List (Nat × String) × Option (Nat × Digest) :=
  (row.payload.supersededObjectives, row.payload.supersededDropped)

omit [ContentHash] in
@[simp]
theorem Row.objectives_replace (row : Row Task) (task : Task) :
    (row.replace task).objectives = (task.supersededObjectives, task.supersededDropped) := rfl

/-- An amendment pushes what it replaces. -/
theorem amended_objectives (row : Row Task) (objective : String) :
    (row.replace (row.payload.amended row.revision objective)).objectives =
      Window.push keptObjectives chained row.objectives (row.revision, row.payload.objective) := rfl

variable {db after : Db} {env : Env} {actor : Principal} {reply : Reply}

/-- The tasks keep their superseded objectives; a new one has none. -/
def Unamended (before after : Table Id (Row Task)) : Prop :=
  ∀ id, (after.find id).map Row.objectives = (before.find id).map Row.objectives ∨
    before.find id = none ∧ (after.find id).map Row.objectives = some ([], none)

omit [ContentHash] in
theorem Unamended.refl (tasks : Table Id (Row Task)) : Unamended tasks tasks := fun _ => .inl rfl

omit [ContentHash] in
theorem Unamended.put {tasks : Table Id (Row Task)} {id : Id} {old row : Row Task}
    (stored : tasks.find id = some old) (same : row.objectives = old.objectives) :
    Unamended tasks (tasks.put id row) :=
  fun other => .inl (Table.map_find_put stored Row.objectives same other)

/-- Only an amendment writes superseded objectives. -/
theorem performs_unamended {request : Request}
    (performs : request.Performs env actor db after reply)
    (other : ∀ taskId revision objective, request ≠ .amendQueuedTaskObjective taskId revision objective) :
    Unamended db.tasks after.tasks := by
  cases request with
  | createExperiment =>
    obtain ⟨_, -, -, rfl⟩ := createExperiment_cases performs
    exact .refl _
  | transitionExperiment =>
    obtain ⟨_, _, -, rfl⟩ := transition_cases performs
    exact .refl _
  | reserveResources =>
    obtain ⟨_, performs⟩ := performs
    obtain ⟨_, _, -, -, -, -, -, rfl⟩ := reserve_cases performs
    exact .refl _
  | settleResources =>
    obtain ⟨_, performs⟩ := performs
    rcases settle_cases performs with rfl | ⟨_, -, -, rfl | ⟨_, _, _, -, -, rfl⟩⟩ <;> exact .refl _
  | createTask =>
    obtain ⟨-, performs⟩ := performs
    obtain ⟨_, -, -, -, fresh, -, rfl⟩ := createTask_cases performs
    intro id
    rw [Table.find_put]
    split
    next here => exact .inr ⟨here ▸ fresh, rfl⟩
    · exact .inl rfl
  | acquireTask =>
    obtain ⟨_, stored, -, -, -, -, rfl⟩ := acquireTask_cases performs
    exact .put stored rfl
  | renewTask =>
    obtain ⟨_, -, rfl⟩ := renewTask_cases performs
    exact .refl _
  | renewTaskForCleanup =>
    obtain ⟨_, -, rfl⟩ := renewTaskForCleanup_cases performs
    exact .refl _
  | finishTask =>
    obtain ⟨-, performs⟩ := performs
    obtain ⟨_, _, _, _, _, stored, -, -, -, rfl⟩ := finishTask_cases performs
    exact .put stored rfl
  | retireQueuedAfterVerified =>
    rcases retireQueued_cases performs with rfl | ⟨_, _, stored, -, -, -, -, rfl⟩
    · exact .refl _
    · exact .put stored rfl
  | amendQueuedTaskObjective => exact absurd rfl (other _ _ _)
  | bindSlot =>
    obtain ⟨_, stored, rfl⟩ := bindSlot_cases performs
    exact .put stored rfl
  | requestHandoff =>
    obtain ⟨_, -, performs⟩ := performs
    obtain ⟨_, stored, _, rfl⟩ := requestHandoff_cases performs
    exact .put stored rfl
  | issueContinuation =>
    obtain ⟨_, _, _, _, _, _, _, _, _, stored, -, -, -, -, -, -, -, rfl⟩ := issue_cases performs
    exact .put stored rfl
  | consumeContinuation =>
    obtain ⟨_, _, _, stored, -, -, -, -, -, -, rfl⟩ := consume_cases performs
    exact .put stored rfl
  | restoreUnstartedContinuation =>
    obtain ⟨_, _, _, _, stored, -, -, -, -, -, -, -, -, -, -, -, -, rfl⟩ := restore_cases performs
    exact .put stored rfl
  | requeueSettledTerminal =>
    obtain ⟨_, _, _, stored, -, rfl⟩ := requeue_cases performs
    exact .put stored rfl
  | retireFailedLocalWorkspace =>
    obtain ⟨_, _, _, _, _, _, _, -, stored, -, -, -, -, rfl⟩ := retire_cases performs
    exact .put stored rfl
  | reconcileOrphanWorkerSlot =>
    rcases reconcileOrphan_cases performs with rfl | ⟨_, _, _, _, -, -, -, -, rfl⟩ <;> exact .refl _
  | reconcileModelReservations =>
    obtain ⟨_, rfl⟩ := reconcileModel_cases performs
    exact .refl _
  | trackModelReservation =>
    obtain ⟨_, rfl⟩ := track_cases performs
    exact .refl _
  | runtimeSave =>
    obtain ⟨_, _, _, _, -, -, -, saved⟩ := publish_cases performs
    rcases saved with ⟨_, _, -, -, -, -, -, rfl⟩ | ⟨_, -, -, -, rfl⟩ <;> exact .refl _

/-- An amendment that returns is a replay, or replaces the objective of its task. -/
theorem amend_cases {key : String} {taskId : Id} {expectedRevision : Nat} {objective : String}
    (returned : amendQueuedTaskObjective db env taskId expectedRevision objective actor key =
      .ok (after, reply)) :
    (after = db ∧ (db.commands.find (commandKey actor key)).isNone = false) ∨
      (db.commands.find (commandKey actor key)).isNone = true ∧ ∃ row,
        db.tasks.find taskId = some row ∧ after.tasks = db.tasks.put taskId
          (row.replace (row.payload.amended row.revision objective)) := by
  simp only [amendQueuedTaskObjective, bind_ok, require_ok, exists_const] at returned
  obtain ⟨-, -, -, -, returned⟩ := returned
  rcases execute_cases returned with ⟨same, prior, held, -⟩ | ⟨changed, fresh, -, ran, -, logged⟩
  · exact .inl ⟨same, by rw [held]; rfl⟩
  · obtain ⟨row, stored, -, rfl⟩ := amendQueued_cases ran
    exact .inr ⟨by rw [fresh]; rfl, row, stored, by rw [logged]; rfl⟩

/-! ### A run -/

/-- What a task tells of the objectives that were replaced so far. -/
def Told (taskId : Id) (sys : Sys) (replaced : List (Nat × String)) : Prop :=
  match sys.db.tasks.find taskId with
  | none => replaced = []
  | some row => row.objectives = Window.view keptObjectives chained none replaced

variable {taskId : Id} {replaced : List (Nat × String)}

theorem Told.unamended {before later : Sys} (told : Told taskId before replaced)
    (same : Unamended before.db.tasks later.db.tasks) : Told taskId later replaced := by
  unfold Told at told ⊢
  rcases same taskId with kept | ⟨absent, empty⟩
  · cases now : later.db.tasks.find taskId with
    | none =>
      rw [now, Option.map_none, eq_comm, Option.map_eq_none_iff] at kept
      rwa [kept] at told
    | some row =>
      rw [now, Option.map_some, eq_comm, Option.map_eq_some_iff] at kept
      obtain ⟨old, stored, equal⟩ := kept
      rw [stored] at told
      exact equal.symm.trans told
  · rw [absent] at told
    obtain rfl := told
    obtain ⟨row, stored, equal⟩ := Option.map_eq_some_iff.mp empty
    rw [stored]
    exact equal.trans (Window.view_nil ..).symm

/-- A step with an amendment: either it commits, or the tasks stay. -/
theorem step_amend (sys : Sys) (env : Env) (actor : Principal) (key : String) (taskId : Id)
    (expectedRevision : Nat) (objective : String) :
    let label := .command env actor key (.amendQueuedTaskObjective taskId expectedRevision objective)
    if sys.amends env actor key taskId expectedRevision objective = true then
      ∃ row, sys.db.tasks.find taskId = some row ∧ (sys.step label).db.tasks =
        sys.db.tasks.put taskId (row.replace (row.payload.amended row.revision objective))
    else (sys.step label).db.tasks = sys.db.tasks := by
  intro label
  simp only [label, Sys.step, Sys.commandStep, Sys.amends, Bool.and_eq_true, decide_eq_true_eq]
  by_cases timely : sys.timely env
  · simp only [timely, if_true, true_and, submit]
    cases returned : amendQueuedTaskObjective sys.db env taskId expectedRevision objective actor key with
    | error failure => simp [Except.toBool]
    | ok result =>
      rcases amend_cases returned with ⟨same, replayed⟩ | ⟨fresh, row, stored, changed⟩
      · simp [replayed, same]
      · simpa [fresh, Except.toBool] using ⟨row, stored, changed⟩
  · simp [timely]

/-- A step tells what it replaces. -/
theorem told_step (sys : Sys) (replaced : List (Nat × String)) (label : Label)
    (told : Told taskId sys replaced) :
    Told taskId (sys.step label) (replaced ++ sys.replacedObjective taskId label) := by
  have quiet : (∀ env actor key id revision objective,
      label ≠ .command env actor key (.amendQueuedTaskObjective id revision objective)) →
      Unamended sys.db.tasks (sys.step label).db.tasks := by
    intro other
    refine Sys.step_preserves (fun db => Unamended sys.db.tasks db.tasks) (.refl _) ?_ ?_ ?_
    · rintro env actor key request changed commands reply rfl - performs
      have unamended : Unamended sys.db.tasks changed.tasks :=
        performs_unamended performs fun id revision objective same =>
          other env actor key id revision objective (same ▸ rfl)
      exact unamended
    · rintro env step after - - commits
      exact commits.untouched.1 ▸ .refl _
    · rintro write -
      rcases notedTasks_cases sys.db.tasks write.notes with same | ⟨id, row, fields, stored, noted⟩
      · exact (show (sys.db.written write).tasks = _ from same) ▸ .refl _
      · exact (show (sys.db.written write).tasks = _ from noted) ▸ .put stored rfl
  by_cases amending : ∃ env actor key id revision objective,
      label = .command env actor key (.amendQueuedTaskObjective id revision objective)
  · obtain ⟨env, actor, key, id, revision, objective, rfl⟩ := amending
    have stepped := step_amend sys env actor key id revision objective
    simp only [Sys.replacedObjective]
    split at stepped
    next commits =>
      obtain ⟨row, stored, changed⟩ := stepped
      by_cases here : id = taskId
      · subst here
        unfold Told at told ⊢
        rw [stored] at told
        rw [changed, Table.find_put_self, if_pos ⟨rfl, commits⟩, stored]
        show (row.replace _).objectives = _
        rw [amended_objectives, told]
        exact Window.push_view ..
      · rw [if_neg fun same => here same.1, List.append_nil]
        unfold Told at told ⊢
        rwa [changed, Table.find_put_ne _ _ (Ne.symm here)]
    next stays =>
      rw [if_neg fun same => stays same.2, List.append_nil]
      exact told.unamended (stepped ▸ .refl _)
  · have nothing : sys.replacedObjective taskId label = [] := by
      unfold Sys.replacedObjective
      split
      · exact absurd ⟨_, _, _, _, _, _, rfl⟩ amending
      · rfl
    rw [nothing, List.append_nil]
    apply told.unamended
    apply quiet
    rintro env actor key id revision objective rfl
    exact amending ⟨_, _, _, _, _, _, rfl⟩

theorem chained_foldl (entries : List (Nat × String)) :
    (entries.foldl chained none).map (fun (count, digest) => (count, Json.str digest)) =
      if entries = [] then none else some (entries.length, objectiveChain entries) := by
  induction entries using List.reverseRecOn with
  | nil => rfl
  | append_singleton entries entry ih =>
    simp only [List.foldl_append, List.foldl_cons, List.foldl_nil, objectiveChain]
    rw [if_neg (List.append_ne_nil_of_right_ne_nil _ (List.cons_ne_nil _ _)), List.length_append]
    cases chain : entries.foldl chained none with
    | none =>
      have empty : entries = [] := by
        by_contra some_
        rw [chain, if_neg some_] at ih
        cases ih
      subst empty
      rfl
    | some last =>
      have some_ : entries ≠ [] := by
        rintro rfl
        cases chain
      rw [chain, if_neg some_, Option.map_some, Option.some.injEq, Prod.mk.injEq] at ih
      obtain ⟨count, digest⟩ := ih
      rw [objectiveChain] at digest
      rw [← digest, ← count]
      rfl

/-- **Superseded objectives stay auditable.** In every run, a task keeps the last eight of the objectives
its amendments replaced, and the count and the digest chain of the older ones. -/
theorem superseded_auditable (labels : List Label) (taskId : Id) (row : Row Task)
    (stored : (Sys.run labels).db.tasks.find taskId = some row) :
    let replaced := replacedObjectives taskId labels
    let older := replaced.length - 8
    row.payload.supersededObjectives = replaced.drop older ∧
      row.payload.supersededObjectives.length = min replaced.length 8 ∧
      row.payload.supersededDropped.map (fun (count, digest) => (count, Json.str digest)) =
        if older = 0 then none else some (older, objectiveChain (replaced.take older)) := by
  intro replaced older
  have initially : Told taskId {} [] := rfl
  have told : Told taskId (Sys.run labels) replaced :=
    Transition.trace_always (Told taskId) labels initially told_step
  unfold Told at told
  rw [stored] at told
  obtain ⟨kept, dropped⟩ := Prod.mk.inj told
  refine ⟨kept, ?_, ?_⟩
  · rw [kept, List.length_drop]
    show replaced.length - (replaced.length - 8) = _
    omega
  · rw [dropped]
    show (List.foldl chained none (replaced.take older)).map _ = _
    have length : (replaced.take older).length = older := List.length_take_of_le (Nat.sub_le _ _)
    rw [chained_foldl, length]
    congr 1
    rw [← List.length_eq_zero_iff, length]

end

namespace Scenario

local instance amendmentHash : ContentHash := textHash

/-- Nine amendments of a queued task. -/
def amendedNine : List Label :=
  leasedTask.take 4 ++ (List.range 9).map fun index =>
    .command (envAt 0) controller ("amend" ++ toString index)
      (.amendQueuedTaskObjective "task" (index + 1) ("objective" ++ toString index))

theorem amendedNine_replaced : (replacedObjectives "task" amendedNine).length = 9 := by
  decide +kernel

theorem amendedNine_stored : ((Sys.run amendedNine).db.tasks.find "task").isSome = true := by
  decide +kernel

/-- The first objective is chained, the other eight are kept. -/
theorem amendedNine_auditable : ∃ row : Row Task,
    (Sys.run amendedNine).db.tasks.find "task" = some row ∧
      row.payload.supersededObjectives = (replacedObjectives "task" amendedNine).drop 1 ∧
      row.payload.supersededDropped.map Prod.fst = some 1 := by
  obtain ⟨row, stored⟩ := Option.isSome_iff_exists.mp amendedNine_stored
  obtain ⟨kept, -, chain⟩ := superseded_auditable amendedNine "task" row stored
  rw [amendedNine_replaced] at kept chain
  refine ⟨row, stored, kept, ?_⟩
  have count := congrArg (Option.map Prod.fst) chain
  simpa using count

end Scenario

end PhysHarness
