import PhysHarness.Tasks.Moves

/-!
Terminal task statuses are absorbing.

Finishing a task leaves its lease with its holder and fence, expired. Commands that need a live
lease therefore cannot touch a terminal task. The two recovery commands look for exactly such an
expired lease and never read the status, so a run is safe when they are given open tasks only.
-/
namespace PhysHarness

/-- A recovery command names a task that is not terminal. -/
def TerminalSafe (sys : Sys) : Label → Prop
  | .command _ _ _ request =>
    ∀ taskId ∈ request.recovers, ∀ row ∈ sys.db.tasks.find taskId,
      row.payload.status.terminal = false
  | _ => True

instance (sys : Sys) (label : Label) : Decidable (TerminalSafe sys label) := by
  unfold TerminalSafe
  split <;> infer_instance

/-- What protects terminal tasks: their leases are expired, joined tasks know a parent of their
project, and a completed parent has no open joined child. -/
structure TasksSettled (tasks : Table Id (Row Task)) (leases : Table Id Lease) (now : Time) :
    Prop where
  expired : ∀ id row, tasks.find id = some row → row.payload.status.terminal = true →
    ∀ lease ∈ leases.find id, lease.expiresAt ≤ now
  parented : ∀ id row, tasks.find id = some row →
    ∀ parentId ∈ row.payload.replyToParentTaskId, ∃ parent, tasks.find parentId = some parent ∧
      parent.projectId = row.projectId
  joined : ∀ id row, tasks.find id = some row →
    ∀ parentId ∈ row.payload.replyToParentTaskId, ∀ parent, tasks.find parentId = some parent →
      parent.payload.status = .completed → row.payload.status.terminal = true

/-- Terminal tasks stay terminal, and completed ones stay completed. -/
def Absorbs (before after : Table Id (Row Task)) : Prop :=
  ∀ id row, before.find id = some row → row.payload.status.terminal = true →
    ∃ later, after.find id = some later ∧ later.payload.status.terminal = true ∧
      (row.payload.status = .completed → later.payload.status = .completed)

theorem Absorbs.refl (tasks : Table Id (Row Task)) : Absorbs tasks tasks :=
  fun _ row stored terminal => ⟨row, stored, terminal, id⟩

theorem Absorbs.trans {first second third : Table Id (Row Task)} (left : Absorbs first second)
    (right : Absorbs second third) : Absorbs first third := by
  intro id row stored terminal
  obtain ⟨between, found, settled, completed⟩ := left id row stored terminal
  obtain ⟨later, kept, still, completed'⟩ := right id between found settled
  exact ⟨later, kept, still, fun done => completed' (completed done)⟩

section Moves

variable {db : Db} {now : Time} {request : Request} {taskId : Id} {row : Row Task} {after : Task}
  {leases : Table Id Lease}

/-- A live lease belongs to an open task. -/
theorem TasksSettled.open_of_live (settled : TasksSettled db.tasks db.leases now)
    (stored : db.tasks.find taskId = some row) {lease : Lease}
    (held : db.leases.find taskId = some lease) {instant : Time} (later : now ≤ instant)
    (live : instant < lease.expiresAt) : row.payload.status.terminal = false := by
  by_contra terminal
  have expired := settled.expired taskId row stored (by simpa using terminal) lease held
  exact absurd live (Nat.not_lt.mpr (expired.trans later))

/-- A move of a terminal task keeps it terminal. -/
theorem TaskMove.absorbs {instant : Time} (move : TaskMove db instant request taskId row after leases)
    (settled : TasksSettled db.tasks db.leases now) (later : now ≤ instant)
    (stored : db.tasks.find taskId = some row)
    (safe : request.recovers = some taskId → row.payload.status.terminal = false)
    (terminal : row.payload.status.terminal = true) :
    after.status.terminal = true ∧ (row.payload.status = .completed → after.status = .completed) := by
  cases move with
  | rewritten status => exact ⟨status ▸ terminal, fun done => status.trans done⟩
  | leased runnable =>
    rcases runnable with status | status <;> rw [status] at terminal <;> exact nomatch terminal
  | finished held live | requeued held live =>
    -- the lease of a terminal task is expired, so nobody can finish or requeue it again
    have isOpen := settled.open_of_live stored held later live
    exact absurd terminal (by simp [isOpen])
  | recovered named => exact absurd terminal (by simp [safe named])
  | superseded queued =>
    rw [queued] at terminal
    exact nomatch terminal
  | aborted abandoned _ status =>
    refine ⟨by rw [status]; rfl, fun done => ?_⟩
    rw [done] at abandoned
    exact absurd abandoned (by decide)

/-- The lease of a task that a move leaves terminal is expired. -/
theorem TaskMove.expired {instant : Time} (move : TaskMove db instant request taskId row after leases)
    (settled : TasksSettled db.tasks db.leases now) (later : now ≤ instant)
    (stored : db.tasks.find taskId = some row) (terminal : after.status.terminal = true) :
    ∀ lease ∈ leases.find taskId, lease.expiresAt ≤ instant := by
  cases move with
  | rewritten status =>
    intro lease held
    exact (settled.expired taskId row stored (status ▸ terminal) lease held).trans later
  | finished =>
    intro lease held
    rw [Table.find_put_self] at held
    obtain rfl := Option.some.inj held
    exact Nat.zero_le _
  | superseded _ free => exact free
  | aborted _ free => exact free
  | leased _ _ status | requeued _ _ status | recovered _ _ status =>
    rw [status] at terminal
    exact nomatch terminal

/-- A move leaves the leases of the other tasks. -/
theorem TaskMove.others {instant : Time} (move : TaskMove db instant request taskId row after leases)
    {other : Id} (distinct : other ≠ taskId) : leases.find other = db.leases.find other := by
  cases move with
  | rewritten | superseded | aborted => rfl
  | leased | finished | requeued | recovered => exact Table.find_put_ne _ _ distinct

/-- A task is completed by finishing it, which needs its joined children terminal. -/
theorem TaskMove.completes {instant : Time} (move : TaskMove db instant request taskId row after leases)
    (done : after.status = .completed) :
    row.payload.status = .completed ∨ ∀ childId child, db.tasks.find childId = some child →
      child.projectId = row.projectId → child.payload.replyToParentTaskId = some taskId →
      child.payload.status.terminal = true := by
  cases move with
  | rewritten status => exact .inl (status.symm.trans done)
  | finished _ _ _ joined => exact .inr (joined done)
  | leased _ _ status | requeued _ _ status | recovered _ _ status | superseded _ _ status
  | aborted _ _ status =>
    rw [status] at done
    exact nomatch done

end Moves

section Changes

variable {db : Db} {env : Env} {actor : Principal} {request : Request}
  {tasks : Table Id (Row Task)} {leases : Table Id Lease} {now : Time}

/-- The parent of a new joined task exists in the actor's project, and its lease is live. -/
theorem joinedParent_live {task : TaskRequest} {experimentId parentId : Id} {fuel : Nat}
    (bound : db.checkWorkerEffects env.effects env.now actor = .ok ())
    (walked : db.checkAncestors actor experimentId task.dependencyIds (fuel + 1)
      (Db.joinedParent task (Db.delegatedFrom env actor)) = .ok ())
    (joins : Db.joinedParent task (Db.delegatedFrom env actor) = some parentId) :
    ∃ parent lease, db.tasks.find parentId = some parent ∧ parent.projectId = actor.projectId ∧
      db.leases.find parentId = some lease ∧ env.now < lease.expiresAt := by
  rw [joins] at walked
  simp only [Db.checkAncestors, Outcome.bind_ok, Outcome.require_ok, Outcome.orThrow_ok,
    exists_const] at walked
  obtain ⟨-, parent, stored, scope, -⟩ := walked
  -- a joined task is delegated by a bound agent, whose binding was just checked
  obtain ⟨binding, attached, rfl⟩ : ∃ binding, env.effects = some binding ∧
      binding.taskId = parentId := by
    unfold Db.joinedParent Db.delegatedFrom at joins
    split at joins
    · cases joins
    · split at joins
      · exact Option.map_eq_some_iff.mp joins
      · cases joins
  rw [attached] at bound
  obtain ⟨-, lease, live⟩ := checkWorkerEffects_some bound
  have held := Db.fenced_ok.mp live
  exact ⟨parent, lease, stored, scope.1, held.1, held.2.2.2⟩

/-- Moving a task keeps what protects terminal tasks. -/
theorem TasksSettled.move {taskId : Id} {row : Row Task} {after : Task} {instant : Time}
    (settled : TasksSettled db.tasks db.leases now) (later : now ≤ instant)
    (stored : db.tasks.find taskId = some row)
    (parent : after.replyToParentTaskId = row.payload.replyToParentTaskId)
    (move : TaskMove db instant request taskId row after leases)
    (absorbs : Absorbs db.tasks (db.tasks.put taskId (row.replace after))) :
    TasksSettled (db.tasks.put taskId (row.replace after)) leases instant := by
  -- every task after the move had a row before it, with the same parent and project
  have origin : ∀ id moved, (db.tasks.put taskId (row.replace after)).find id = some moved →
      ∃ old, db.tasks.find id = some old ∧ moved.projectId = old.projectId ∧
        moved.payload.replyToParentTaskId = old.payload.replyToParentTaskId ∧
        (moved = old ∨ (id = taskId ∧ moved = row.replace after)) := by
    intro id moved found
    rw [Table.find_put] at found
    split at found
    next same =>
      obtain rfl := Option.some.inj found
      exact ⟨row, same ▸ stored, rfl, parent, .inr ⟨same, rfl⟩⟩
    · exact ⟨moved, found, rfl, rfl, .inl rfl⟩
  refine ⟨?_, ?_, ?_⟩
  · intro id moved found terminal lease held
    by_cases same : id = taskId
    · subst same
      rw [Table.find_put_self] at found
      obtain rfl := Option.some.inj found
      exact move.expired settled later stored terminal lease held
    · rw [Table.find_put_ne _ _ same] at found
      rw [move.others same] at held
      exact (settled.expired id moved found terminal lease held).trans later
  · intro id moved found parentId member
    obtain ⟨old, known, project, lineage, -⟩ := origin id moved found
    rw [lineage] at member
    obtain ⟨above, kept, scope⟩ := settled.parented id old known parentId member
    rw [Table.find_put]
    split
    next same =>
      rw [same, stored] at kept
      obtain rfl := Option.some.inj kept
      exact ⟨_, rfl, scope.trans project.symm⟩
    · exact ⟨above, kept, scope.trans project.symm⟩
  · intro id moved found parentId member above kept done
    obtain ⟨old, known, project, lineage, -⟩ := origin id moved found
    rw [lineage] at member
    obtain ⟨oldAbove, knownAbove, -, -, changed⟩ := origin parentId above kept
    -- the child was terminal before the move, and the move keeps it so
    have before : old.payload.status.terminal = true := by
      rcases changed with rfl | ⟨rfl, rfl⟩
      · exact settled.joined id old known parentId member _ knownAbove done
      · obtain rfl := Option.some.inj (stored.symm.trans knownAbove)
        rcases move.completes done with already | joined
        · exact settled.joined id old known parentId member _ knownAbove already
        · obtain ⟨_, found', scope⟩ := settled.parented id old known parentId member
          obtain rfl := Option.some.inj (stored.symm.trans found')
          exact joined id old known scope.symm member
    obtain ⟨_, found', terminal, -⟩ := absorbs id old known before
    obtain rfl := Option.some.inj (found.symm.trans found')
    exact terminal

/-- A command keeps terminal tasks terminal, and what protects them. -/
theorem TaskChange.settles (change : TaskChange db env actor request tasks leases)
    (settled : TasksSettled db.tasks db.leases now) (later : now ≤ env.now)
    (safe : ∀ taskId ∈ request.recovers, ∀ row ∈ db.tasks.find taskId,
      row.payload.status.terminal = false) :
    TasksSettled tasks leases env.now ∧ Absorbs db.tasks tasks := by
  cases change with
  | kept =>
    refine ⟨⟨?_, settled.parented, settled.joined⟩, Absorbs.refl _⟩
    intro id row stored terminal lease held
    exact (settled.expired id row stored terminal lease held).trans later
  | renewed held live =>
    refine ⟨⟨?_, settled.parented, settled.joined⟩, Absorbs.refl _⟩
    intro id row stored terminal other found
    rw [Table.find_put] at found
    split at found
    next same =>
      have isOpen := settled.open_of_live stored (same ▸ held) later live
      exact absurd terminal (by simp [isOpen])
    · exact (settled.expired id row stored terminal other found).trans later
  | @moved _ taskId row after _ stored _ parent move =>
    have absorbs : Absorbs db.tasks (db.tasks.put taskId (row.replace after)) := by
      intro id row found terminal
      rw [Table.find_put]
      split
      next same =>
        obtain rfl := Option.some.inj (stored.symm.trans (same ▸ found))
        have kept := move.absorbs settled later stored
          (fun named => safe _ named _ stored) terminal
        exact ⟨_, rfl, kept⟩
      · exact ⟨row, found, terminal, fun done => done⟩
    exact ⟨settled.move later stored parent move absorbs, absorbs⟩
  | created bound walked known fresh =>
    have absent : ∀ id row, db.tasks.find id = some row → id ≠ env.newId 0 := by
      rintro id row stored rfl
      exact nomatch stored.symm.trans fresh
    have kept : ∀ id row, db.tasks.find id = some row → ∀ added,
        (db.tasks.put (env.newId 0) added).find id = some row :=
      fun id row stored added => (Table.find_put_ne _ _ (absent id row stored)).trans stored
    refine ⟨⟨?_, ?_, ?_⟩, ?_⟩
    · intro id row found terminal lease held
      rw [Table.find_put] at found
      split at found
      · obtain rfl := Option.some.inj found
        exact nomatch terminal
      · exact (settled.expired id row found terminal lease held).trans later
    · intro id row found parentId member
      rw [Table.find_put] at found
      split at found
      · obtain rfl := Option.some.inj found
        obtain ⟨parent, _, stored, scope, -, -⟩ := joinedParent_live bound walked member
        exact ⟨parent, kept _ _ stored _, scope⟩
      · obtain ⟨parent, stored, scope⟩ := settled.parented id row found parentId member
        exact ⟨parent, kept _ _ stored _, scope⟩
    · intro id row found parentId member parent above done
      rw [Table.find_put] at found
      split at found
      · -- a new joined task has a parent whose lease is live, so the parent is not completed
        obtain rfl := Option.some.inj found
        obtain ⟨parent', lease, stored, -, held, live⟩ := joinedParent_live bound walked member
        obtain rfl := Option.some.inj (above.symm.trans (kept _ _ stored _))
        have isOpen := settled.open_of_live stored held later live
        rw [done] at isOpen
        exact nomatch isOpen
      · obtain ⟨parent', stored, -⟩ := settled.parented id row found parentId member
        obtain rfl := Option.some.inj (above.symm.trans (kept _ _ stored _))
        exact settled.joined id row found parentId member parent stored done
    · exact fun id row stored terminal => ⟨row, kept id row stored _, terminal, fun done => done⟩

end Changes

theorem TasksSettled.mono {tasks : Table Id (Row Task)} {leases : Table Id Lease}
    {now later : Time} (settled : TasksSettled tasks leases now) (passes : now ≤ later) :
    TasksSettled tasks leases later where
  expired id row stored terminal lease held :=
    (settled.expired id row stored terminal lease held).trans passes
  parented := settled.parented
  joined := settled.joined

/-- Another part of the service annotates tasks without moving them. -/
theorem TasksSettled.noted {db : Db} {now : Time} (settled : TasksSettled db.tasks db.leases now)
    (notes : Option (Id × TaskNotes)) :
    TasksSettled (notedTasks db.tasks notes) db.leases now ∧
      Absorbs db.tasks (notedTasks db.tasks notes) := by
  rcases notedTasks_cases db.tasks notes with same | ⟨taskId, row, fields, stored, same⟩
  · rw [same]
    exact ⟨settled, Absorbs.refl _⟩
  · have absorbs : Absorbs db.tasks
        (db.tasks.put taskId (row.replace (row.payload.noted fields))) := by
      intro id old found terminal
      rw [Table.find_put]
      split
      next here =>
        obtain rfl := Option.some.inj (stored.symm.trans (here ▸ found))
        exact ⟨_, rfl, terminal, fun done => done⟩
      · exact ⟨old, found, terminal, fun done => done⟩
    rw [same]
    have move : TaskMove db now (.restoreUnstartedContinuation taskId) taskId row
        (row.payload.noted fields) db.leases := .rewritten rfl
    exact ⟨settled.move le_rfl stored rfl move absorbs, absorbs⟩

section Runs

variable [ContentHash]

/-- What protects the terminal tasks of a reachable state. -/
def Sys.TasksSettled (sys : Sys) : Prop := PhysHarness.TasksSettled sys.db.tasks sys.db.leases sys.now

theorem settles_step {sys : Sys} {label : Label} (settled : sys.TasksSettled)
    (safe : TerminalSafe sys label) :
    (sys.step label).TasksSettled ∧ Absorbs sys.db.tasks (sys.step label).db.tasks := by
  have passes := sys.now_le_step label
  unfold Sys.TasksSettled
  refine sys.step_preserves (fun db =>
    TasksSettled db.tasks db.leases (sys.step label).now ∧ Absorbs sys.db.tasks db.tasks)
    ⟨settled.mono passes, Absorbs.refl _⟩ ?_ ?_ ?_
  · rintro env actor key request changed commands reply rfl timely performs
    have change := (performs_tasks performs).settles settled timely.1 safe
    rw [Sys.step_command_now timely]
    exact ⟨change.1.mono timely.2, change.2⟩
  · rintro env step after rfl timely commits
    obtain ⟨tasks, leases, -, -⟩ := commits.untouched
    rw [tasks, leases]
    exact ⟨settled.mono passes, Absorbs.refl _⟩
  · rintro write rfl
    exact settled.noted write.notes

theorem settles_run {sys : Sys} {labels : List Label} (settled : sys.TasksSettled)
    (safe : Transition.Along Sys.step TerminalSafe sys labels) :
    (Transition.run Sys.step sys labels).TasksSettled ∧
      Absorbs sys.db.tasks (Transition.run Sys.step sys labels).db.tasks := by
  induction labels generalizing sys with
  | nil => exact ⟨settled, Absorbs.refl _⟩
  | cons label labels ih =>
    obtain ⟨still, first⟩ := settles_step settled safe.1
    obtain ⟨ended, rest⟩ := ih still safe.2
    exact ⟨ended, first.trans rest⟩

omit [ContentHash] in
theorem tasksSettled_empty : Sys.TasksSettled {} where
  expired _ _ stored := by simp at stored
  parented _ _ stored := by simp at stored
  joined _ _ stored := by simp at stored

/-- In a safe run a terminal task stays terminal, and once a task is completed it stays completed
and all its joined children are terminal. -/
theorem terminal_absorbing {first second : List Label}
    (safe : Transition.Along Sys.step TerminalSafe {} (first ++ second)) :
    ∀ id row, (Sys.run first).db.tasks.find id = some row →
      row.payload.status.terminal = true →
      ∃ later, (Sys.run (first ++ second)).db.tasks.find id = some later ∧
        later.payload.status.terminal = true ∧
        (row.payload.status = .completed → later.payload.status = .completed ∧
          ∀ childId child, (Sys.run (first ++ second)).db.tasks.find childId = some child →
            child.payload.replyToParentTaskId = some id →
              child.payload.status.terminal = true) := by
  intro id row stored terminal
  obtain ⟨before, after⟩ := Transition.along_append.mp safe
  have begun := (settles_run tasksSettled_empty before).1
  have ended := settles_run begun after
  rw [← Transition.run_append] at ended
  obtain ⟨later, found, still, completed⟩ := ended.2 id row stored terminal
  refine ⟨later, found, still, fun done => ⟨completed done, ?_⟩⟩
  intro childId child known joins
  exact ended.1.joined childId child known id joins later found (completed done)

end Runs

namespace Scenario

/-- The worker saves its handed-off session and then finishes its task as failed. -/
def finishedTask : List Label :=
  leasedTask ++
    [.command (envAt 0 "checkpoint" "session") controller "save"
        (.runtimeSave store handedOff "manifest"),
      .command (envAt 0) controller "finish"
        (.finishTask "task" "worker" 1 ["evidence"] .failed)]

theorem finishedTask_stays :
    ∃ row later, (@Sys.run textHash finishedTask).db.tasks.find "task" = some row ∧
      row.payload.status.terminal = true ∧
      (@Sys.run textHash (finishedTask ++
        [.command (envAt 0) controller "again" (.acquireTask "task" "other" 300)])).db.tasks.find
          "task" = some later ∧ later.payload.status.terminal = true := by
  obtain ⟨row, stored, failed⟩ := Option.map_eq_some_iff.mp
    (show ((@Sys.run textHash finishedTask).db.tasks.find "task").map (·.payload.status) =
      some .failed by decide)
  have terminal : row.payload.status.terminal = true := by rw [failed]; rfl
  obtain ⟨later, found, still, -⟩ := @terminal_absorbing textHash finishedTask
    [.command (envAt 0) controller "again" (.acquireTask "task" "other" 300)] (by decide)
    "task" row stored terminal
  exact ⟨row, later, stored, terminal, found, still⟩

/-- Issuing a ticket for the expired fence of a finished task queues the task again. -/
theorem finishedTask_requeued :
    ¬ Absorbs (@Sys.run textHash finishedTask).db.tasks
      (@Sys.run textHash (finishedTask ++
        [.command (envAt 0 "link") controller "recover"
          (.issueContinuation "task" "worker" 1 "native" "state" "automatic_context_boundary" true
            none)])).db.tasks := by
  intro absorbs
  obtain ⟨row, stored, failed⟩ := Option.map_eq_some_iff.mp
    (show ((@Sys.run textHash finishedTask).db.tasks.find "task").map (·.payload.status) =
      some .failed by decide)
  obtain ⟨later, found, terminal, -⟩ := absorbs "task" row stored (by rw [failed]; rfl)
  have queued : some later.payload.status = some .queued := by
    rw [← Option.map_some (f := fun row : Row Task => row.payload.status), ← found]
    decide
  rw [Option.some.inj queued] at terminal
  exact nomatch terminal

end Scenario

end PhysHarness
