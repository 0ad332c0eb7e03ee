import PhysHarness.Lineage.Chain
import PhysHarness.Tasks.Moves

/-!
# Continuation links and native sessions

The lineage of a task is spread over its record, its links and its sessions, and six commands in
three modules write parts of it under different guards. Every transaction is one step of one task's
lineage or leaves them all, so every reachable state keeps each task's sessions on one path.

## Main result

`continuation_lineage`: in every reachable state every task's lineage is sound, each started link
was started from a session that was then handed off, and it keeps its successor for ever.
-/
namespace PhysHarness

open Outcome

/-- The link, when it belongs to the task. -/
def linkOf (taskId : Id) (row : Row ContinuationLink) : Option ContinuationLink :=
  if row.payload.taskId = taskId then some row.payload else none

/-- The native identity of a session, when it belongs to the task. -/
def sessionOf (taskId : Id) (row : Row Session) : Option Id :=
  if row.payload.taskId = taskId then some row.payload.nativeRecordId else none

/-- The lineage of a task, read from the records. -/
def lineageOf (links : Table Id (Row ContinuationLink)) (sessions : Table Id (Row Session))
    (taskId : Id) (task : Task) : Lineage where
  count := task.continuationCount
  ready := task.readyContinuation
  consumed := task.consumedContinuation
  links := links.view (linkOf taskId)
  sessions := sessions.view (sessionOf taskId)

/-- A native session is recorded as handed off in a project. -/
def HandedOff (sessions : Table Id (Row Session)) (projectId : ProjectId) (native : Id) : Prop :=
  ∃ id row, sessions.find id = some row ∧ row.projectId = projectId ∧
    row.payload.nativeRecordId = native ∧ row.payload.status = .handedOff

/-- Links and sessions belong to a task of their project, which has one record for a native
session. -/
structure Owned (tasks : Table Id (Row Task)) (links : Table Id (Row ContinuationLink))
    (sessions : Table Id (Row Session)) : Prop where
  link : ∀ id row, links.find id = some row →
    ∃ task, tasks.find row.payload.taskId = some task ∧ row.projectId = task.projectId
  session : ∀ id row, sessions.find id = some row →
    ∃ task, tasks.find row.payload.taskId = some task ∧ row.projectId = task.projectId
  natives : ∀ first second left right, sessions.find first = some left →
    sessions.find second = some right → left.projectId = right.projectId →
    left.payload.nativeRecordId = right.payload.nativeRecordId → first = second

/-- The part of a task record that belongs to its lineage. -/
def Row.lineage (row : Row Task) : ProjectId × Nat × Option Ready × Option Consumed :=
  (row.projectId, row.payload.continuationCount, row.payload.readyContinuation,
    row.payload.consumedContinuation)

/-- What a save of a session never changes. -/
def Row.identity (row : Row Session) : ProjectId × Id × Id :=
  (row.projectId, row.payload.taskId, row.payload.nativeRecordId)

/-- What a command does to the lineages: nothing, a task of its own, or one step of one task's
lineage. The status of a known session changes with a save of it, or with the retirement of its
workspace. -/
inductive LineageChange (db : Db) : Request → Table Id (Row Task) →
    Table Id (Row ContinuationLink) → Table Id (Row Session) → Prop
  | rewritten {request tasks}
      (tasksKept : ∀ id, (tasks.find id).map Row.lineage = (db.tasks.find id).map Row.lineage) :
      LineageChange db request tasks db.links db.sessions
  | resaved {store checkpoint manifest id row payload} (stored : db.sessions.find id = some row)
      (native : row.payload.nativeRecordId = checkpoint.sessionId)
      (same : (row.replace payload).identity = row.identity) :
      LineageChange db (.runtimeSave store checkpoint manifest) db.tasks db.links
        (db.sessions.put id (row.replace payload))
  | aborted {workspaceId revision executionId evidenceId tasks sessions}
      (tasksKept : ∀ id, (tasks.find id).map Row.lineage = (db.tasks.find id).map Row.lineage)
      (sessionsKept : ∀ id,
        (sessions.find id).map Row.identity = (db.sessions.find id).map Row.identity) :
      LineageChange db (.retireFailedLocalWorkspace workspaceId revision executionId evidenceId)
        tasks db.links sessions
  | created {request id row} (fresh : db.tasks.find id = none)
      (empty : row.lineage = (row.projectId, 0, none, none)) :
      LineageChange db request (db.tasks.put id row) db.links db.sessions
  | relinked {request taskId row after id link} (stored : db.tasks.find taskId = some row)
      (belongs : link.payload.taskId = taskId) (scope : link.projectId = row.projectId)
      (prior : ∀ old, db.links.find id = some old → old.payload.taskId = taskId)
      (pending : link.payload.status ≠ .started)
      (step : (lineageOf db.links db.sessions taskId row.payload).Step
        (HandedOff db.sessions row.projectId)
        { (lineageOf db.links db.sessions taskId row.payload).link id link.payload with
          count := after.continuationCount
          ready := after.readyContinuation
          consumed := after.consumedContinuation }) :
      LineageChange db request (db.tasks.put taskId (row.replace after)) (db.links.put id link)
        db.sessions
  | begun {request row record session} (stored : db.tasks.find session.payload.taskId = some row)
      (scope : session.projectId = row.projectId) (unused : db.sessions.find record = none)
      (fresh : ∀ id other, db.sessions.find id = some other →
        other.projectId = session.projectId →
        other.payload.nativeRecordId ≠ session.payload.nativeRecordId)
      (step : (lineageOf db.links db.sessions session.payload.taskId row.payload).Step
        (HandedOff db.sessions row.projectId)
        ((lineageOf db.links db.sessions session.payload.taskId row.payload).addSession record
          session.payload.nativeRecordId)) :
      LineageChange db request db.tasks db.links (db.sessions.put record session)
  | started {store checkpoint manifest row record session id link}
      (stored : db.tasks.find session.payload.taskId = some row)
      (scope : session.projectId = row.projectId) (unused : db.sessions.find record = none)
      (fresh : ∀ id other, db.sessions.find id = some other →
        other.projectId = session.projectId →
        other.payload.nativeRecordId ≠ session.payload.nativeRecordId)
      (belongs : link.payload.taskId = session.payload.taskId)
      (linkScope : link.projectId = row.projectId)
      (prior : ∀ old, db.links.find id = some old →
        old.payload.taskId = session.payload.taskId)
      (successor : link.payload.successorSessionId = some checkpoint.sessionId)
      (step : (lineageOf db.links db.sessions session.payload.taskId row.payload).Step
        (HandedOff db.sessions row.projectId)
        (((lineageOf db.links db.sessions session.payload.taskId row.payload).link id
          link.payload).addSession record session.payload.nativeRecordId)) :
      LineageChange db (.runtimeSave store checkpoint manifest) db.tasks (db.links.put id link)
        (db.sessions.put record session)

section Reading

variable {links : Table Id (Row ContinuationLink)} {sessions : Table Id (Row Session)}
  {taskId id : Id} {row : Row ContinuationLink} {session : Row Session} {task : Task}

theorem linkOf_some {link : ContinuationLink} :
    linkOf taskId row = some link ↔ row.payload.taskId = taskId ∧ row.payload = link := by
  simp [linkOf]

theorem sessionOf_some {native : Id} :
    sessionOf taskId session = some native ↔
      session.payload.taskId = taskId ∧ session.payload.nativeRecordId = native := by
  simp [sessionOf]

theorem lineageOf_link {written : ContinuationLink} :
    (lineageOf links sessions taskId task).links id = some written ↔
      ∃ row, links.find id = some row ∧ row.payload.taskId = taskId ∧ row.payload = written := by
  simp only [lineageOf, Table.view_eq_some, linkOf_some]

theorem lineageOf_session {native : Id} :
    (lineageOf links sessions taskId task).sessions id = some native ↔
      ∃ row, sessions.find id = some row ∧ row.payload.taskId = taskId ∧
        row.payload.nativeRecordId = native := by
  simp only [lineageOf, Table.view_eq_some, sessionOf_some]

/-- Writing a link of the task writes the link of its lineage. -/
theorem lineageOf_put_link (belongs : row.payload.taskId = taskId) :
    lineageOf (links.put id row) sessions taskId task =
      (lineageOf links sessions taskId task).link id row.payload := by
  have seen : linkOf taskId row = some row.payload := linkOf_some.mpr ⟨belongs, rfl⟩
  simp only [lineageOf, Lineage.link, Table.view_put_seen links id seen]

/-- Writing a session of the task adds it to its lineage. -/
theorem lineageOf_put_session (belongs : session.payload.taskId = taskId) :
    lineageOf links (sessions.put id session) taskId task =
      (lineageOf links sessions taskId task).addSession id session.payload.nativeRecordId := by
  have seen : sessionOf taskId session = some session.payload.nativeRecordId :=
    sessionOf_some.mpr ⟨belongs, rfl⟩
  simp only [lineageOf, Lineage.addSession, Table.view_put_seen sessions id seen]

/-- A link of another task is out of sight. -/
theorem lineageOf_hidden_link (distinct : row.payload.taskId ≠ taskId)
    (prior : ∀ old, links.find id = some old → old.payload.taskId = row.payload.taskId) :
    lineageOf (links.put id row) sessions taskId task = lineageOf links sessions taskId task := by
  have hidden : linkOf taskId row = none := if_neg distinct
  have before : ∀ old, links.find id = some old → linkOf taskId old = none := by
    intro old found
    exact if_neg (prior old found ▸ distinct)
  simp only [lineageOf, Table.view_put_hidden hidden before]

/-- A new session of another task is out of sight. -/
theorem lineageOf_hidden_session (distinct : session.payload.taskId ≠ taskId)
    (unused : sessions.find id = none) :
    lineageOf links (sessions.put id session) taskId task =
      lineageOf links sessions taskId task := by
  have hidden : sessionOf taskId session = none := if_neg distinct
  have before : ∀ old, sessions.find id = some old → sessionOf taskId old = none :=
    fun old found => nomatch unused.symm.trans found
  simp only [lineageOf, Table.view_put_hidden hidden before]

/-- Sessions of the same identities give the same lineage. -/
theorem lineageOf_congr {after : Table Id (Row Session)}
    (kept : ∀ id, (after.find id).map Row.identity = (sessions.find id).map Row.identity) :
    lineageOf links after taskId task = lineageOf links sessions taskId task := by
  have same : after.view (sessionOf taskId) = sessions.view (sessionOf taskId) := by
    refine Table.view_congr Row.identity kept fun left right identity => ?_
    simp only [Row.identity, Prod.mk.injEq] at identity
    simp only [sessionOf, identity]
  simp only [lineageOf, same]

end Reading

section Changes

variable {db : Db} {request : Request} {tasks : Table Id (Row Task)}
  {links : Table Id (Row ContinuationLink)} {sessions : Table Id (Row Session)}

theorem Owned.created {id : Id} {row : Row Task} (owned : Owned db.tasks db.links db.sessions)
    (fresh : db.tasks.find id = none) : Owned (db.tasks.put id row) db.links db.sessions := by
  have kept : ∀ taskId task, db.tasks.find taskId = some task →
      (db.tasks.put id row).find taskId = some task := by
    intro taskId task stored
    rw [Table.find_put_ne, stored]
    rintro rfl
    exact nomatch fresh.symm.trans stored
  refine ⟨?_, ?_, owned.natives⟩
  · intro other link found
    obtain ⟨task, stored, scope⟩ := owned.link other link found
    exact ⟨task, kept _ task stored, scope⟩
  · intro other session found
    obtain ⟨task, stored, scope⟩ := owned.session other session found
    exact ⟨task, kept _ task stored, scope⟩

/-- Ownership reads only the projects of the tasks and the identities of the sessions. -/
theorem Owned.rewritten (owned : Owned db.tasks links db.sessions)
    (tasksKept : ∀ id, (tasks.find id).map Row.lineage = (db.tasks.find id).map Row.lineage)
    (sessionsKept : ∀ id,
      (sessions.find id).map Row.identity = (db.sessions.find id).map Row.identity) :
    Owned tasks links sessions := by
  have task : ∀ id old, db.tasks.find id = some old →
      ∃ now, tasks.find id = some now ∧ now.projectId = old.projectId := by
    intro id old stored
    have here := tasksKept id
    rw [stored, Option.map_some, Option.map_eq_some_iff] at here
    obtain ⟨now, found, same⟩ := here
    exact ⟨now, found, congrArg Prod.fst same⟩
  have session : ∀ id now, sessions.find id = some now → ∃ old, db.sessions.find id = some old ∧
      now.projectId = old.projectId ∧ now.payload.taskId = old.payload.taskId ∧
      now.payload.nativeRecordId = old.payload.nativeRecordId := by
    intro id now stored
    have here := (sessionsKept id).symm
    rw [stored, Option.map_some, Option.map_eq_some_iff] at here
    obtain ⟨old, found, same⟩ := here
    simp only [Row.identity, Prod.mk.injEq] at same
    exact ⟨old, found, same.1.symm, same.2.1.symm, same.2.2.symm⟩
  refine ⟨?_, ?_, ?_⟩
  · intro id link found
    obtain ⟨old, stored, scope⟩ := owned.link id link found
    obtain ⟨now, present, same⟩ := task _ old stored
    exact ⟨now, present, scope.trans same.symm⟩
  · intro id row found
    obtain ⟨before, known, project, belongs, -⟩ := session id row found
    obtain ⟨old, stored, scope⟩ := owned.session id before known
    obtain ⟨now, present, same⟩ := task _ old stored
    exact ⟨now, belongs ▸ present, project.trans (scope.trans same.symm)⟩
  · intro first second left right atFirst atSecond project native
    obtain ⟨before, known, project₁, -, native₁⟩ := session first left atFirst
    obtain ⟨before', known', project₂, -, native₂⟩ := session second right atSecond
    exact owned.natives first second before before' known known'
      (project₁.symm.trans (project.trans project₂)) (native₁.symm.trans (native.trans native₂))

theorem Owned.put_link {id : Id} {link : Row ContinuationLink} {row : Row Task}
    (owned : Owned db.tasks db.links sessions)
    (stored : db.tasks.find link.payload.taskId = some row) (scope : link.projectId = row.projectId) :
    Owned db.tasks (db.links.put id link) sessions := by
  refine ⟨?_, owned.session, owned.natives⟩
  intro other found present
  rw [Table.find_put] at present
  split at present
  · obtain rfl := Option.some.inj present
    exact ⟨row, stored, scope⟩
  · exact owned.link other found present

theorem Owned.put_session {id : Id} {session : Row Session} {row : Row Task}
    (owned : Owned db.tasks links db.sessions)
    (stored : db.tasks.find session.payload.taskId = some row)
    (scope : session.projectId = row.projectId)
    (fresh : ∀ id other, db.sessions.find id = some other →
      other.projectId = session.projectId →
      other.payload.nativeRecordId ≠ session.payload.nativeRecordId) :
    Owned db.tasks links (db.sessions.put id session) := by
  refine ⟨owned.link, ?_, ?_⟩
  · intro other found present
    rw [Table.find_put] at present
    split at present
    · obtain rfl := Option.some.inj present
      exact ⟨row, stored, scope⟩
    · exact owned.session other found present
  · intro first second left right atFirst atSecond project native
    rw [Table.find_put] at atFirst atSecond
    split at atFirst <;> split at atSecond
    next one two => exact one.trans two.symm
    · obtain rfl := Option.some.inj atFirst
      exact absurd native.symm (fresh second right atSecond project.symm)
    · obtain rfl := Option.some.inj atSecond
      exact absurd native (fresh first left atFirst project)
    · exact owned.natives first second left right atFirst atSecond project native

theorem Owned.retag {taskId : Id} {row : Row Task} {after : Task}
    (owned : Owned db.tasks links sessions) (stored : db.tasks.find taskId = some row) :
    Owned (db.tasks.put taskId (row.replace after)) links sessions := by
  have kept : ∀ id task, db.tasks.find id = some task →
      ∃ now, (db.tasks.put taskId (row.replace after)).find id = some now ∧
        task.projectId = now.projectId := by
    intro id task present
    rw [Table.find_put]
    split
    next same =>
      obtain rfl := Option.some.inj (stored.symm.trans (same ▸ present))
      exact ⟨_, rfl, rfl⟩
    · exact ⟨task, present, rfl⟩
  refine ⟨?_, ?_, owned.natives⟩
  · intro id link found
    obtain ⟨task, present, scope⟩ := owned.link id link found
    obtain ⟨now, after, same⟩ := kept _ task present
    exact ⟨now, after, scope.trans same⟩
  · intro id session found
    obtain ⟨task, present, scope⟩ := owned.session id session found
    obtain ⟨now, after, same⟩ := kept _ task present
    exact ⟨now, after, scope.trans same⟩

theorem LineageChange.owned (change : LineageChange db request tasks links sessions)
    (owned : Owned db.tasks db.links db.sessions) : Owned tasks links sessions := by
  cases change with
  | rewritten tasksKept => exact owned.rewritten tasksKept fun _ => rfl
  | resaved stored native same =>
    exact owned.rewritten (fun _ => rfl) (Table.map_find_put stored Row.identity same)
  | aborted tasksKept sessionsKept => exact owned.rewritten tasksKept sessionsKept
  | created fresh => exact owned.created fresh
  | @relinked _ taskId row after id link stored belongs scope =>
    have linked : Owned db.tasks (db.links.put id link) db.sessions :=
      owned.put_link (belongs ▸ stored) scope
    exact linked.retag stored
  | begun stored scope unused fresh => exact owned.put_session stored scope fresh
  | @started _ _ _ row record session id link stored scope unused fresh belongs linkScope =>
    have linked : Owned db.tasks (db.links.put id link) db.sessions :=
      owned.put_link (belongs ▸ stored) linkScope
    exact linked.put_session stored scope fresh

/-- Each task's lineage is new and empty, as it was, or one step further. -/
theorem LineageChange.lineage (change : LineageChange db request tasks links sessions)
    (owned : Owned db.tasks db.links db.sessions) {taskId : Id} {task : Row Task}
    (stored : tasks.find taskId = some task) :
    (db.tasks.find taskId = none ∧ lineageOf links sessions taskId task.payload = {}) ∨
      ∃ before, db.tasks.find taskId = some before ∧ task.projectId = before.projectId ∧
        (lineageOf links sessions taskId task.payload =
            lineageOf db.links db.sessions taskId before.payload ∨
          (lineageOf db.links db.sessions taskId before.payload).Step
            (HandedOff db.sessions before.projectId)
            (lineageOf links sessions taskId task.payload)) := by
  -- a rewrite of tasks and sessions that keeps what the lineages read
  have kept : ∀ {sessions : Table Id (Row Session)},
      (∀ id, (tasks.find id).map Row.lineage = (db.tasks.find id).map Row.lineage) →
      (∀ id, (sessions.find id).map Row.identity = (db.sessions.find id).map Row.identity) →
      ∃ before, db.tasks.find taskId = some before ∧ task.projectId = before.projectId ∧
        lineageOf db.links sessions taskId task.payload =
          lineageOf db.links db.sessions taskId before.payload := by
    intro sessions tasksKept sessionsKept
    have here := (tasksKept taskId).symm
    rw [stored, Option.map_some, Option.map_eq_some_iff] at here
    obtain ⟨before, found, same⟩ := here
    simp only [Row.lineage, Prod.mk.injEq] at same
    refine ⟨before, found, same.1.symm, ?_⟩
    rw [lineageOf_congr sessionsKept]
    simp only [lineageOf, same]
  cases change with
  | rewritten tasksKept =>
    obtain ⟨before, found, scope, same⟩ := kept tasksKept fun _ => rfl
    exact .inr ⟨before, found, scope, .inl same⟩
  | resaved present native same =>
    obtain ⟨before, found, scope, same⟩ :=
      kept (fun _ => rfl) (Table.map_find_put present Row.identity same)
    exact .inr ⟨before, found, scope, .inl same⟩
  | aborted tasksKept sessionsKept =>
    obtain ⟨before, found, scope, same⟩ := kept tasksKept sessionsKept
    exact .inr ⟨before, found, scope, .inl same⟩
  | @created _ id row fresh empty =>
    rw [Table.find_put] at stored
    split at stored
    next same =>
      subst same
      obtain rfl := Option.some.inj stored
      simp only [Row.lineage, Prod.mk.injEq] at empty
      refine .inl ⟨fresh, ?_⟩
      have unlinked : db.links.view (linkOf taskId) = fun _ => none := by
        funext id
        refine Option.bind_eq_none_iff.mpr fun link found => if_neg ?_
        rintro rfl
        obtain ⟨owner, present, -⟩ := owned.link id link found
        cases fresh.symm.trans present
      have unsaved : db.sessions.view (sessionOf taskId) = fun _ => none := by
        funext id
        refine Option.bind_eq_none_iff.mpr fun session found => if_neg ?_
        rintro rfl
        obtain ⟨owner, present, -⟩ := owned.session id session found
        cases fresh.symm.trans present
      simp only [lineageOf, unlinked, unsaved, empty]
    · exact .inr ⟨task, stored, rfl, .inl rfl⟩
  | @relinked _ changed row after id link found belongs scope prior _ step =>
    rw [Table.find_put] at stored
    split at stored
    next same =>
      subst same
      obtain rfl := Option.some.inj stored
      refine .inr ⟨row, found, rfl, .inr ?_⟩
      rw [lineageOf_put_link belongs]
      exact step
    next distinct =>
      refine .inr ⟨task, stored, rfl, .inl ?_⟩
      exact lineageOf_hidden_link (belongs ▸ Ne.symm distinct) (belongs ▸ prior)
  | @begun _ row record session found scope unused fresh step =>
    by_cases same : taskId = session.payload.taskId
    · subst same
      obtain rfl := Option.some.inj (found.symm.trans stored)
      refine .inr ⟨row, stored, rfl, .inr ?_⟩
      rw [lineageOf_put_session rfl]
      exact step
    · exact .inr ⟨task, stored, rfl, .inl (lineageOf_hidden_session (Ne.symm same) unused)⟩
  | @started _ _ _ row record session id link found scope unused fresh belongs linkScope prior _ step =>
    by_cases same : taskId = session.payload.taskId
    · subst same
      obtain rfl := Option.some.inj (found.symm.trans stored)
      refine .inr ⟨row, stored, rfl, .inr ?_⟩
      rw [lineageOf_put_session rfl, lineageOf_put_link belongs]
      exact step
    · refine .inr ⟨task, stored, rfl, .inl ?_⟩
      rw [lineageOf_hidden_session (Ne.symm same) unused,
        lineageOf_hidden_link (belongs ▸ Ne.symm same) (belongs ▸ prior)]

end Changes

section Commands

variable {db after : Db} {env : Env} {actor : Principal} {reply : Reply} {request : Request}

theorem continuationLink_ok {taskId : Id} {ordinal : Nat} {link : Id × Row ContinuationLink}
    (found : db.continuationLink actor taskId ordinal = .ok link) :
    db.links.find link.1 = some link.2 ∧ link.2.projectId = actor.projectId ∧
      link.2.payload.taskId = taskId ∧ link.2.payload.ordinal = ordinal := by
  simp only [Db.continuationLink] at found
  split at found
  next only selected =>
    obtain rfl := Except.ok.inj found
    have member : only ∈ db.links.select _ := selected ▸ List.mem_singleton_self only
    have held := Table.mem_select.mp member
    simpa [and_assoc] using held
  · cases found

theorem handoffSource_ok {taskId sourceSessionId : Id} {source : Id × Session}
    (found : handoffSource db actor taskId sourceSessionId = .ok source) :
    ∃ row, db.sessions.find source.1 = some row ∧ source.2 = row.payload ∧
      row.payload.nativeRecordId = sourceSessionId ∧ row.payload.taskId = taskId := by
  simp only [handoffSource] at found
  split at found
  next row selected =>
    simp only [bind_ok, require_ok, exists_const, pure_ok] at found
    obtain ⟨belongs, -, rfl⟩ := found
    have member : row ∈ db.sessions.select _ := selected ▸ List.mem_singleton_self row
    have held := Table.mem_select.mp member
    simp only [Bool.and_eq_true, decide_eq_true_eq] at held
    exact ⟨row.2, held.1, rfl, held.2.2, belongs⟩
  · exact nomatch found

/-- The links that a command reads are those of the task's lineage. -/
theorem mem_taskLinks (owned : Owned db.tasks db.links db.sessions) {taskId : Id} {task : Row Task}
    (stored : db.tasks.find taskId = some task) (scope : task.projectId = actor.projectId)
    {id : Id} {written : ContinuationLink} :
    (lineageOf db.links db.sessions taskId task.payload).links id = some written ↔
      ∃ row, (id, row) ∈ db.taskLinks actor taskId ∧ row.payload = written := by
  rw [lineageOf_link]
  simp only [Db.taskLinks, Table.mem_select, Bool.and_eq_true, decide_eq_true_eq]
  constructor
  · rintro ⟨row, found, rfl, same⟩
    obtain ⟨owner, present, project⟩ := owned.link id row found
    obtain rfl := Option.some.inj (stored.symm.trans present)
    exact ⟨row, ⟨found, project.trans scope, rfl⟩, same⟩
  · rintro ⟨row, ⟨found, -, belongs⟩, same⟩
    exact ⟨row, found, belongs, same⟩

/-- The sessions that a command reads are those of the task's lineage. -/
theorem mem_taskSessions (owned : Owned db.tasks db.links db.sessions) {taskId : Id}
    {task : Row Task} (stored : db.tasks.find taskId = some task)
    (scope : task.projectId = actor.projectId) {id native : Id} :
    (lineageOf db.links db.sessions taskId task.payload).sessions id = some native ↔
      ∃ row, (id, row) ∈ db.taskSessions actor taskId ∧ row.payload.nativeRecordId = native := by
  rw [lineageOf_session]
  simp only [Db.taskSessions, Table.mem_select, Bool.and_eq_true, decide_eq_true_eq]
  constructor
  · rintro ⟨row, found, rfl, same⟩
    obtain ⟨owner, present, project⟩ := owned.session id row found
    obtain rfl := Option.some.inj (stored.symm.trans present)
    exact ⟨row, ⟨found, project.trans scope, rfl⟩, same⟩
  · rintro ⟨row, ⟨found, -, belongs⟩, same⟩
    exact ⟨row, found, belongs, same⟩

/-- The head of the prior links is the last one, and ends in the source. -/
theorem checkPriorLinks_head {links : List (Id × Row ContinuationLink)} {count : Nat}
    {sourceSessionId : Id} (checked : checkPriorLinks links (count + 1) sourceSessionId = .ok ())
    (positive : 1 ≤ count) :
    ∃ head ∈ links, head.2.payload.ordinal = count ∧
      head.2.payload.successorSessionId = some sourceSessionId := by
  simp only [checkPriorLinks, bind_ok, require_ok, exists_const] at checked
  obtain ⟨⟨-, ordinals, -⟩, successor⟩ := checked
  have known : ∀ ordinal, (∃ link ∈ links, link.2.payload.ordinal = ordinal) ↔
      1 ≤ ordinal ∧ ordinal < count + 1 := by
    intro ordinal
    rw [← Finset.mem_Ico, ← ordinals, List.mem_toFinset, List.mem_map]
  obtain ⟨last, member, ordinal⟩ := (known count).mpr ⟨positive, Nat.lt_succ_self _⟩
  cases selected : headLink links with
  | none =>
    rw [headLink, List.argmax_eq_none] at selected
    exact absurd (selected ▸ member) (List.not_mem_nil)
  | some head =>
    have present : head ∈ links := List.argmax_mem selected
    have largest := List.not_lt_of_mem_argmax member selected
    have bounded := ((known head.2.payload.ordinal).mp ⟨head, present, rfl⟩).2
    exact ⟨head, present, by omega, successor head selected⟩

variable [ContentHash]

theorem issue_lineage (owned : Owned db.tasks db.links db.sessions) {taskId : Id} {holder : String}
    {fence : Nat} {sourceSessionId : Id} {digest : Digest} {reason : String}
    {recoverExpired : Bool} {given : Option WorkspaceTicket}
    (returned : issueAction env actor taskId holder fence sourceSessionId digest reason
      recoverExpired given db = .ok (after, reply)) :
    LineageChange db request after.tasks after.links after.sessions := by
  obtain ⟨task, lease, source, problem, checkpoint, stagnation, portable, ticket, ledger, stored,
    scope, -, selected, -, prior, -, fresh, rfl⟩ := issue_cases returned
  obtain ⟨row, saved, payload, native, belongs⟩ := handoffSource_ok selected
  refine .relinked stored rfl scope.symm (fun old found => nomatch fresh.symm.trans found)
    (by simp [issuedLink]) ?_
  have step := @Lineage.Step.issue (HandedOff db.sessions task.projectId)
    (lineageOf db.links db.sessions taskId task.payload) (env.newId 0)
    (issuedLink task.payload taskId source.1 source.2 (readyTicket env task.payload problem source.2
      checkpoint stagnation reason recoverExpired portable ticket))
  refine step ?_ ?_ ?_ ?_ rfl rfl rfl ⟨rfl, rfl, rfl⟩
  · simp only [lineageOf, Table.view, fresh, Option.bind_none]
  · intro other link found
    obtain ⟨stored', member, rfl⟩ := (mem_taskLinks owned stored scope).mp found
    simp only [checkPriorLinks, bind_ok, require_ok, exists_const] at prior
    exact prior.1.2.2 _ member
  · intro positive
    obtain ⟨head, member, ordinal, successor⟩ := checkPriorLinks_head prior positive
    have found := (mem_taskLinks owned stored scope).mpr ⟨head.2, member, rfl⟩
    refine ⟨head.1, head.2.payload, found, ordinal, successor.trans ?_⟩
    simp only [issuedLink, readyTicket, payload, native]
  · refine ⟨source.1, lineageOf_session.mpr ⟨row, saved, belongs, ?_⟩⟩
    simp only [issuedLink, readyTicket, payload]

omit [ContentHash] in
theorem consume_lineage {taskId : Id} {holder : String} {fence : Nat} {ready : Ready}
    {model limits : Option Value} {mode : String}
    (returned : consumeAction env actor taskId holder fence ready model limits mode db =
      .ok (after, reply)) :
    LineageChange db request after.tasks after.links after.sessions := by
  obtain ⟨task, link, lease, stored, scope, -, -, linked, issued, digest, rfl⟩ :=
    consume_cases returned
  obtain ⟨found, project, belongs, -⟩ := continuationLink_ok linked
  refine .relinked stored belongs (project.trans scope.symm) ?_ (by simp [consumedLink]) ?_
  · intro old present
    obtain rfl := Option.some.inj (found.symm.trans present)
    exact belongs
  · exact .consume (lineageOf_link.mpr ⟨link.2, found, belongs, rfl⟩) issued digest.symm

omit [ContentHash] in
theorem restore_lineage {taskId : Id}
    (returned : restoreAction env actor taskId db = .ok (after, reply)) :
    LineageChange db request after.tasks after.links after.sessions := by
  obtain ⟨task, consumed, link, lease, stored, scope, spent, -, linked, waiting, -, -, -, -, -, -,
    -, rfl⟩ := restore_cases returned
  obtain ⟨found, project, belongs, -⟩ := continuationLink_ok linked
  refine .relinked stored belongs (project.trans scope.symm) ?_ (by simp [restoredLink]) ?_
  · intro old present
    obtain rfl := Option.some.inj (found.symm.trans present)
    exact belongs
  · exact .restore (lineageOf_link.mpr ⟨link.2, found, belongs, rfl⟩) waiting spent

theorem retireQueued_lineage {taskId receiptId : Id}
    (returned : retireQueuedAction env actor taskId receiptId db = .ok (after, reply)) :
    LineageChange db request after.tasks after.links after.sessions := by
  rcases retireQueued_cases returned with rfl | ⟨task, links, stored, scope, -, -, retired, rfl⟩
  · exact .rewritten fun _ => rfl
  · cases offered : task.payload.readyContinuation with
    | none =>
      rw [offered] at retired
      obtain rfl := Except.ok.inj retired
      refine .rewritten (Table.map_find_put stored Row.lineage ?_)
      simp only [Row.lineage, Row.replace_projectId, Row.replace_payload, Task.superseded, offered]
    | some ticket =>
      simp only [offered, retireLink, bind_ok, orThrow_ok, require_ok, exists_const,
        pure_ok] at retired
      obtain ⟨link, selected, issued, rfl⟩ := retired
      have held := Table.mem_select.mp (List.mem_of_head? selected)
      simp only [Bool.and_eq_true, decide_eq_true_eq] at held
      obtain ⟨found, ⟨project, belongs⟩, -⟩ := held
      refine .relinked stored belongs (project.trans scope.symm) ?_ (by simp) ?_
      · intro old present
        obtain rfl := Option.some.inj (found.symm.trans present)
        exact belongs
      · exact .retire (lineageOf_link.mpr ⟨link.2, found, belongs, rfl⟩) issued

omit [ContentHash] in
/-- Failing the open sessions of an attempt keeps their identities. -/
theorem failSessions_identity (evidence : Id) {sessions : Table Id (Row Session)}
    {natives : List (Id × Row Session)}
    (stored : ∀ native ∈ natives, sessions.find native.1 = some native.2) (id : Id) :
    ((failSessions evidence sessions natives).find id).map Row.identity =
      (sessions.find id).map Row.identity := by
  induction natives generalizing id with
  | nil => rfl
  | cons native natives ih =>
    have rest := ih fun other member => stored other (List.mem_cons_of_mem _ member)
    simp only [failSessions]
    split
    · rw [Table.find_put]
      split
      next same =>
        rw [same, stored native List.mem_cons_self]
        rfl
      · exact rest id
    · exact rest id

omit [ContentHash] in
/-- The first session of a task starts no link; a later one starts the consumed link whose source is
handed off. -/
theorem startingLink_cases {store : RuntimeStore} {checkpoint : NativeCheckpoint} {task : Task}
    {link : Option (Id × Row ContinuationLink)}
    (starting : startingLink store db checkpoint task = .ok link) :
    (link = none ∧ db.taskSessions store.actor store.taskId = [] ∧ task.continuationCount = 0) ∨
      ∃ found, link = some found ∧ db.links.find found.1 = some found.2 ∧
        found.2.projectId = store.actor.projectId ∧ found.2.payload.taskId = store.taskId ∧
        found.2.payload.status = .consumed ∧
        HandedOff db.sessions store.actor.projectId found.2.payload.sourceSessionId := by
  simp only [startingLink] at starting
  split at starting
  next first =>
    simp only [bind_ok, require_ok, exists_const, pure_ok] at starting
    exact .inl ⟨starting.2.symm, first, starting.1⟩
  · simp only [checkConsumedTicket, checkConsumedLink, bind_ok, require_ok, orThrow_ok,
      exists_const, pure_ok] at starting
    obtain ⟨ticket, ⟨_, -, ⟨-, -, -, -, prior, member, native, status⟩, rfl⟩, found, linked,
      ⟨waiting, source, -⟩, rfl⟩ := starting
    obtain ⟨held, project, belongs, -⟩ := continuationLink_ok linked
    have known := Table.mem_select.mp member
    simp only [Bool.and_eq_true, decide_eq_true_eq] at known
    exact .inr ⟨found, rfl, held, project, belongs, waiting,
      prior.1, prior.2, known.1, known.2.1, native.trans source.symm, status⟩

theorem publish_lineage (owned : Owned db.tasks db.links db.sessions) {store : RuntimeStore}
    {checkpoint : NativeCheckpoint} {manifest : Value}
    (returned : publishAction store env checkpoint manifest db = .ok (after, reply)) :
    LineageChange db (.runtimeSave store checkpoint manifest) after.tasks after.links
      after.sessions := by
  obtain ⟨artifacts, checkpoints, task, lease, stored, scope, -, saved⟩ := publish_cases returned
  rcases saved with ⟨row, payload, selected, belongs, owner, native, -, rfl⟩ |
      ⟨link, unknown, starting, unused, rfl⟩
  · have held := Table.mem_select.mp (List.mem_of_head? selected)
    simp only [Bool.and_eq_true, decide_eq_true_eq] at held
    refine .resaved held.1 held.2.2 ?_
    simp only [Row.identity, Row.replace_projectId, Row.replace_payload, owner, native, belongs,
      held.2.2]
  · -- no session of the project carries the native identity yet
    have fresh : ∀ id other, db.sessions.find id = some other →
        other.projectId = store.actor.projectId →
        other.payload.nativeRecordId ≠ checkpoint.sessionId := by
      intro id other found project native
      have member : (id, other) ∈ db.nativeSessions store.actor checkpoint.sessionId := by
        simp [Db.nativeSessions, found, project, native]
      rw [unknown] at member
      cases member
    rcases startingLink_cases starting with ⟨rfl, first, unlinked⟩ |
        ⟨link, rfl, found, project, belongs, waiting, handedOff⟩
    · refine .begun stored scope.symm unused fresh (.begin (fun id => ?_) unlinked)
      rw [Option.eq_none_iff_forall_ne_some]
      intro known present
      obtain ⟨row, member, -⟩ := (mem_taskSessions owned stored scope).mp present
      rw [first] at member
      cases member
    · refine .started stored scope.symm unused fresh belongs (project.trans scope.symm) ?_ rfl ?_
      · intro old present
        obtain rfl := Option.some.inj (found.symm.trans present)
        exact belongs
      · refine .start (lineageOf_link.mpr ⟨link.2, found, belongs, rfl⟩) waiting ?_ ?_ ?_
        · simp only [lineageOf, Table.view, unused, Option.bind_none]
        · intro other present
          obtain ⟨row, member, native⟩ := (mem_taskSessions owned stored scope).mp present
          have held := Table.mem_select.mp member
          simp only [Bool.and_eq_true, decide_eq_true_eq] at held
          exact fresh other row held.1 held.2.1 native
        · rw [scope]
          exact handedOff

/-- Every command leaves the lineages as they are, creates a task, or takes one step of one task's
lineage. -/
theorem performs_lineage (owned : Owned db.tasks db.links db.sessions)
    (performs : request.Performs env actor db after reply) :
    LineageChange db request after.tasks after.links after.sessions := by
  cases request with
  | createExperiment =>
    obtain ⟨_, -, -, rfl⟩ := createExperiment_cases performs
    exact .rewritten fun _ => rfl
  | transitionExperiment =>
    obtain ⟨_, _, -, rfl⟩ := transition_cases performs
    exact .rewritten fun _ => rfl
  | reserveResources =>
    obtain ⟨_, performs⟩ := performs
    obtain ⟨_, _, -, -, -, -, -, rfl⟩ := reserve_cases performs
    exact .rewritten fun _ => rfl
  | settleResources =>
    obtain ⟨_, performs⟩ := performs
    rcases settle_cases performs with rfl | ⟨_, -, -, rfl | ⟨_, _, _, -, -, rfl⟩⟩ <;>
      exact .rewritten fun _ => rfl
  | createTask =>
    obtain ⟨-, performs⟩ := performs
    obtain ⟨_, -, -, -, fresh, -, rfl⟩ := createTask_cases performs
    exact .created fresh rfl
  | acquireTask =>
    obtain ⟨_, stored, -, -, -, -, rfl⟩ := acquireTask_cases performs
    exact .rewritten (Table.map_find_put stored Row.lineage rfl)
  | renewTask =>
    obtain ⟨_, -, rfl⟩ := renewTask_cases performs
    exact .rewritten fun _ => rfl
  | renewTaskForCleanup =>
    obtain ⟨_, -, rfl⟩ := renewTaskForCleanup_cases performs
    exact .rewritten fun _ => rfl
  | finishTask =>
    obtain ⟨-, performs⟩ := performs
    obtain ⟨_, _, _, _, _, stored, -, -, -, rfl⟩ := finishTask_cases performs
    exact .rewritten (Table.map_find_put stored Row.lineage rfl)
  | retireQueuedAfterVerified => exact retireQueued_lineage performs
  | amendQueuedTaskObjective =>
    obtain ⟨_, stored, -, rfl⟩ := amendQueued_cases performs
    exact .rewritten (Table.map_find_put stored Row.lineage rfl)
  | bindSlot =>
    obtain ⟨_, stored, rfl⟩ := bindSlot_cases performs
    exact .rewritten (Table.map_find_put stored Row.lineage rfl)
  | requestHandoff =>
    obtain ⟨_, -, performs⟩ := performs
    obtain ⟨_, stored, _, rfl⟩ := requestHandoff_cases performs
    exact .rewritten (Table.map_find_put stored Row.lineage rfl)
  | issueContinuation => exact issue_lineage owned performs
  | consumeContinuation => exact consume_lineage performs
  | restoreUnstartedContinuation => exact restore_lineage performs
  | requeueSettledTerminal =>
    obtain ⟨_, _, _, stored, -, rfl⟩ := requeue_cases performs
    exact .rewritten (Table.map_find_put stored Row.lineage rfl)
  | retireFailedLocalWorkspace =>
    obtain ⟨_, _, _, _, _, _, _, -, stored, -, -, -, -, rfl⟩ := retire_cases performs
    refine .aborted (Table.map_find_put stored Row.lineage rfl) (failSessions_identity _ ?_)
    exact fun native member => (Table.mem_select.mp member).1
  | reconcileOrphanWorkerSlot =>
    rcases reconcileOrphan_cases performs with rfl | ⟨_, _, _, _, -, -, -, -, rfl⟩ <;>
      exact .rewritten fun _ => rfl
  | reconcileModelReservations =>
    obtain ⟨_, rfl⟩ := reconcileModel_cases performs
    exact .rewritten fun _ => rfl
  | trackModelReservation =>
    obtain ⟨_, rfl⟩ := track_cases performs
    exact .rewritten fun _ => rfl
  | runtimeSave => exact publish_lineage owned performs

end Commands

section History

variable {db : Db} {request : Request} {tasks : Table Id (Row Task)}
  {links : Table Id (Row ContinuationLink)} {sessions : Table Id (Row Session)}

/-- The requests that write the record of a known native session. -/
def Request.rewrites (native : Id) : Request → Prop
  | .runtimeSave _ checkpoint _ => checkpoint.sessionId = native
  | .retireFailedLocalWorkspace .. => True
  | _ => False

/-- No task disappears. -/
theorem LineageChange.task (change : LineageChange db request tasks links sessions) {taskId : Id}
    {before : Row Task} (stored : db.tasks.find taskId = some before) :
    ∃ task, tasks.find taskId = some task := by
  have present : ∀ {id : Id} {row : Row Task},
      ∃ task, (db.tasks.put id row).find taskId = some task := by
    intro id row
    rw [Table.find_put]
    split
    · exact ⟨_, rfl⟩
    · exact ⟨before, stored⟩
  have kept : ∀ {tasks : Table Id (Row Task)},
      (∀ id, (tasks.find id).map Row.lineage = (db.tasks.find id).map Row.lineage) →
      ∃ task, tasks.find taskId = some task := by
    intro tasks tasksKept
    have here := tasksKept taskId
    rw [stored, Option.map_some, Option.map_eq_some_iff] at here
    exact here.imp fun _ => And.left
  cases change with
  | rewritten tasksKept => exact kept tasksKept
  | aborted tasksKept => exact kept tasksKept
  | resaved => exact ⟨before, stored⟩
  | created => exact present
  | relinked => exact present
  | begun => exact ⟨before, stored⟩
  | started => exact ⟨before, stored⟩

/-- A started link stays as it is. -/
theorem LineageChange.keeps_started (change : LineageChange db request tasks links sessions)
    (owned : Owned db.tasks db.links db.sessions) {id : Id} {row : Row ContinuationLink}
    (stored : db.links.find id = some row) (started : row.payload.status = .started) :
    ∃ now, links.find id = some now ∧ now.projectId = row.projectId ∧
      now.payload = row.payload := by
  obtain ⟨before, held, scope⟩ := owned.link id row stored
  obtain ⟨task, present⟩ := change.task held
  have linked : (lineageOf db.links db.sessions row.payload.taskId before.payload).links id =
      some row.payload := lineageOf_link.mpr ⟨row, stored, rfl, rfl⟩
  have kept : task.projectId = before.projectId ∧
      (lineageOf links sessions row.payload.taskId task.payload).links id = some row.payload := by
    rcases change.lineage owned present with ⟨fresh, -⟩ | ⟨before', held', project, same | step⟩
    · exact nomatch held.symm.trans fresh
    · obtain rfl := Option.some.inj (held.symm.trans held')
      rw [same]
      exact ⟨project, linked⟩
    · obtain rfl := Option.some.inj (held.symm.trans held')
      exact ⟨project, step.keeps_started linked started⟩
  obtain ⟨now, found, belongs, same⟩ := lineageOf_link.mp kept.2
  obtain ⟨task', present', project⟩ := (change.owned owned).link id now found
  rw [belongs, present] at present'
  obtain rfl := Option.some.inj present'
  exact ⟨now, found, project.trans (kept.1.trans scope.symm), same⟩

/-- A new session record changes no other. -/
theorem HandedOff.put {projectId : ProjectId} {native record : Id} {session : Row Session}
    (handedOff : HandedOff sessions projectId native) (unused : sessions.find record = none) :
    HandedOff (sessions.put record session) projectId native := by
  obtain ⟨id, row, stored, scope, same, status⟩ := handedOff
  refine ⟨id, row, ?_, scope, same, status⟩
  rw [Table.find_put_ne, stored]
  rintro rfl
  exact nomatch unused.symm.trans stored

/-- A link starts with the first save of its successor, from a source that is handed off. -/
theorem LineageChange.started_from (change : LineageChange db request tasks links sessions)
    {id : Id} {now : Row ContinuationLink} (found : links.find id = some now)
    (started : now.payload.status = .started) :
    (∃ row, db.links.find id = some row ∧ row.payload = now.payload) ∨
      ∃ store checkpoint manifest, request = .runtimeSave store checkpoint manifest ∧
        now.payload.successorSessionId = some checkpoint.sessionId ∧
        HandedOff db.sessions now.projectId now.payload.sourceSessionId ∧
        HandedOff sessions now.projectId now.payload.sourceSessionId := by
  cases change with
  | rewritten => exact .inl ⟨now, found, rfl⟩
  | resaved => exact .inl ⟨now, found, rfl⟩
  | aborted => exact .inl ⟨now, found, rfl⟩
  | created => exact .inl ⟨now, found, rfl⟩
  | begun => exact .inl ⟨now, found, rfl⟩
  | relinked _ _ _ _ pending =>
    rw [Table.find_put] at found
    split at found
    · obtain rfl := Option.some.inj found
      exact absurd started pending
    · exact .inl ⟨now, found, rfl⟩
  | @started store checkpoint manifest row record session id' link stored scope unused fresh
      belongs linkScope prior successor step =>
    rw [Table.find_put] at found
    split at found
    next same =>
      subst same
      obtain rfl := Option.some.inj found
      have written : ((lineageOf db.links db.sessions session.payload.taskId row.payload).link id
          link.payload).links id = some link.payload := by rw [Lineage.link_links, if_pos rfl]
      rcases step.started_from written started with before | handedOff
      · obtain ⟨old, known, -, same⟩ := lineageOf_link.mp before
        exact .inl ⟨old, known, same⟩
      · rw [← linkScope] at handedOff
        exact .inr ⟨store, checkpoint, manifest, rfl, successor, handedOff, handedOff.put unused⟩
    · exact .inl ⟨now, found, rfl⟩

/-- A session stays handed off until its record is written again. -/
theorem LineageChange.keeps_handedOff (change : LineageChange db request tasks links sessions)
    {projectId : ProjectId} {native : Id} (handedOff : HandedOff db.sessions projectId native)
    (unwritten : ¬ request.rewrites native) : HandedOff sessions projectId native := by
  cases change with
  | rewritten => exact handedOff
  | created => exact handedOff
  | relinked => exact handedOff
  | aborted => exact absurd trivial unwritten
  | resaved present known =>
    obtain ⟨id, row, stored, scope, same, status⟩ := handedOff
    refine ⟨id, row, ?_, scope, same, status⟩
    rw [Table.find_put_ne, stored]
    rintro rfl
    obtain rfl := Option.some.inj (stored.symm.trans present)
    exact unwritten (known.symm.trans same)
  | begun _ _ unused => exact handedOff.put unused
  | started _ _ unused => exact handedOff.put unused

end History

section Runs

variable [ContentHash]

/-- The labels that write the record of a known native session. -/
def Label.rewrites (native : Id) : Label → Prop
  | .command _ _ _ request => request.rewrites native
  | _ => False

/-- What carries the lineages of a reachable state. -/
structure LineageInv (db : Db) : Prop where
  owned : Owned db.tasks db.links db.sessions
  chains : ∀ taskId task, db.tasks.find taskId = some task →
    ∃ path, (lineageOf db.links db.sessions taskId task.payload).Chain path

/-- A transaction that changes the lineages in one of the known ways, for a request or for none. -/
structure LineageStep (before after : Db) (label : Label) : Prop where
  inv : LineageInv after
  keeps : ∀ id row, before.links.find id = some row → row.payload.status = .started →
    ∃ now, after.links.find id = some now ∧ now.projectId = row.projectId ∧
      now.payload = row.payload
  begins : ∀ id now, after.links.find id = some now → now.payload.status = .started →
    (∃ row, before.links.find id = some row ∧ row.payload = now.payload) ∨
      ∃ env actor key store checkpoint manifest,
        label = .command env actor key (.runtimeSave store checkpoint manifest) ∧
        now.payload.successorSessionId = some checkpoint.sessionId ∧
        HandedOff before.sessions now.projectId now.payload.sourceSessionId ∧
        HandedOff after.sessions now.projectId now.payload.sourceSessionId
  settled : ∀ projectId native, HandedOff before.sessions projectId native →
    ¬ label.rewrites native → HandedOff after.sessions projectId native

omit [ContentHash] in
theorem LineageChange.inv {db after : Db} {request : Request}
    (change : LineageChange db request after.tasks after.links after.sessions)
    (inv : LineageInv db) : LineageInv after where
  owned := change.owned inv.owned
  chains taskId task stored := by
    rcases change.lineage inv.owned stored with ⟨-, empty⟩ | ⟨before, held, -, same | step⟩
    · rw [empty]
      exact ⟨[], Lineage.chain_empty⟩
    · rw [same]
      exact inv.chains taskId before held
    · obtain ⟨path, chain⟩ := inv.chains taskId before held
      exact chain.step step

omit [ContentHash] in
/-- A transaction that leaves the links, the sessions and what the lineages read of the tasks. -/
theorem LineageStep.quiet {before after : Db} (label : Label) (inv : LineageInv before)
    (tasks : ∀ id, (after.tasks.find id).map Row.lineage = (before.tasks.find id).map Row.lineage)
    (links : after.links = before.links) (sessions : after.sessions = before.sessions) :
    LineageStep before after label := by
  have change : LineageChange before (.restoreUnstartedContinuation "") after.tasks after.links
      after.sessions := by
    rw [links, sessions]
    exact .rewritten tasks
  refine ⟨change.inv inv, fun _ _ => change.keeps_started inv.owned, ?_, ?_⟩
  · intro id now found started
    rw [links] at found
    exact .inl ⟨now, found, rfl⟩
  · exact fun _ _ handedOff _ => change.keeps_handedOff handedOff id

theorem lineage_step {sys : Sys} (inv : LineageInv sys.db) (label : Label) :
    LineageStep sys.db (sys.step label).db label := by
  refine sys.step_preserves (fun db => LineageStep sys.db db label)
    (.quiet label inv (fun _ => rfl) rfl rfl) ?_ ?_ ?_
  · rintro env actor key request changed commands reply rfl timely performs
    have change := performs_lineage inv.owned performs
    have reached := change.inv inv
    refine ⟨⟨reached.owned, reached.chains⟩, fun _ _ => change.keeps_started inv.owned, ?_,
      fun _ _ => change.keeps_handedOff⟩
    intro id now found started
    rcases change.started_from found started with before | ⟨store, checkpoint, manifest, rfl, rest⟩
    · exact .inl before
    · exact .inr ⟨env, actor, key, store, checkpoint, manifest, rfl, rest⟩
  · rintro env step after rfl timely commits
    obtain ⟨tasks, -, links, sessions⟩ := commits.untouched
    exact .quiet _ inv (fun _ => by rw [tasks]) links sessions
  · rintro write rfl
    refine .quiet _ inv (fun id => ?_) rfl rfl
    have written : (sys.db.written write).tasks = notedTasks sys.db.tasks write.notes := rfl
    rw [written]
    rcases notedTasks_cases sys.db.tasks write.notes with same | ⟨_, row, fields, stored, same⟩
    · rw [same]
    · have noted : (row.replace (row.payload.noted fields)).lineage = row.lineage := rfl
      rw [same]
      exact Table.map_find_put stored Row.lineage noted id

omit [ContentHash] in
theorem lineageInv_empty : LineageInv {} where
  owned :=
    { link := by simp
      session := by simp
      natives := by simp }
  chains := by simp

theorem lineage_run (labels : List Label) : LineageInv (Sys.run labels).db :=
  Transition.run_always (fun sys : Sys => LineageInv sys.db) labels lineageInv_empty
    fun _ label inv => (lineage_step inv label).inv

/-- The link was started by the first save of its successor, when its source was handed off, and the
source has stayed so unless its own record was written again. -/
def StartedIn (labels : List Label) (projectId : ProjectId) (written : ContinuationLink) : Prop :=
  ∃ before env actor key store checkpoint manifest after,
    labels =
      before ++ .command env actor key (.runtimeSave store checkpoint manifest) :: after ∧
    written.successorSessionId = some checkpoint.sessionId ∧
    HandedOff (Sys.run before).db.sessions projectId written.sourceSessionId ∧
    ((∀ label ∈ after, ¬ label.rewrites written.sourceSessionId) →
      HandedOff (Sys.run labels).db.sessions projectId written.sourceSessionId)

/-- The link stays started as it is through any further labels. -/
theorem started_stays {sys : Sys} (inv : LineageInv sys.db) {id : Id}
    {row : Row ContinuationLink} (stored : sys.db.links.find id = some row)
    (started : row.payload.status = .started) (labels : List Label) :
    ∃ now, (Transition.run Sys.step sys labels).db.links.find id = some now ∧
      now.projectId = row.projectId ∧ now.payload = row.payload := by
  induction labels generalizing sys row with
  | nil => exact ⟨row, stored, rfl, rfl⟩
  | cons label labels ih =>
    have step := lineage_step inv label
    obtain ⟨next, present, scope, same⟩ := step.keeps id row stored started
    obtain ⟨now, found, project, last⟩ := ih step.inv present (same ▸ started)
    exact ⟨now, found, project.trans scope, last.trans same⟩

/-- A handed-off session stays so while no label writes its record. -/
theorem handedOff_stays {sys : Sys} (inv : LineageInv sys.db) {projectId : ProjectId} {native : Id}
    (handedOff : HandedOff sys.db.sessions projectId native) {labels : List Label}
    (unwritten : ∀ label ∈ labels, ¬ label.rewrites native) :
    HandedOff (Transition.run Sys.step sys labels).db.sessions projectId native := by
  have reached := Transition.run_invariant
    (fun sys : Sys => LineageInv sys.db ∧ HandedOff sys.db.sessions projectId native)
    ⟨inv, handedOff⟩
    (fun _ label held safe =>
      ⟨(lineage_step held.1 label).inv, (lineage_step held.1 label).settled _ _ held.2 safe⟩)
    (Transition.along_of_forall unwritten)
  exact reached.2

theorem started_in {labels : List Label} {id : Id} {row : Row ContinuationLink}
    (stored : (Sys.run labels).db.links.find id = some row)
    (started : row.payload.status = .started) : StartedIn labels row.projectId row.payload := by
  -- the label at which the link, as it is at the end, began to be there
  obtain ⟨before, label, after, rfl, absent, now, found, same⟩ :=
    Transition.run_begins
      (fun sys : Sys => ∃ now, sys.db.links.find id = some now ∧ now.payload = row.payload)
      (by simp) ⟨row, stored, rfl⟩
  have reached := lineage_run before
  have step := lineage_step reached label
  have begun : now.payload.status = .started := same ▸ started
  rcases step.begins id now found begun with ⟨old, held, known⟩ |
      ⟨env, actor, key, store, checkpoint, manifest, rfl, successor, source, kept⟩
  · exact absurd ⟨old, held, known.trans same⟩ absent
  · obtain ⟨last, present, scope, -⟩ := started_stays step.inv found begun after
    rw [Sys.run_append] at stored
    obtain rfl := Option.some.inj (stored.symm.trans present)
    rw [same] at successor source kept
    rw [← scope] at source kept
    refine ⟨before, env, actor, key, store, checkpoint, manifest, after, rfl, successor, source, ?_⟩
    intro unwritten
    rw [Sys.run_append]
    exact handedOff_stays step.inv kept unwritten

/-- In every reachable state the lineage of a task is sound. Each of its started links was started
by the first save of its successor from a session handed off at that time, and stays as it is. -/
theorem continuation_lineage (labels later : List Label) {taskId : Id} {task : Row Task}
    (stored : (Sys.run labels).db.tasks.find taskId = some task) :
    (lineageOf (Sys.run labels).db.links (Sys.run labels).db.sessions taskId task.payload).Sound ∧
      ∀ id row, (Sys.run labels).db.links.find id = some row → row.payload.taskId = taskId →
        row.payload.status = .started →
        StartedIn labels task.projectId row.payload ∧
          ∃ now, (Sys.run (labels ++ later)).db.links.find id = some now ∧
            now.payload = row.payload := by
  have inv := lineage_run labels
  obtain ⟨path, chain⟩ := inv.chains taskId task stored
  refine ⟨chain.sound, fun id row found belongs started => ?_⟩
  obtain ⟨owner, present, scope⟩ := inv.owned.link id row found
  rw [belongs, stored] at present
  obtain rfl := Option.some.inj present
  obtain ⟨now, kept, -, same⟩ := started_stays inv found started later
  rw [← Sys.run_append] at kept
  exact ⟨scope ▸ started_in found started, now, kept, same⟩

end Runs

instance (sessions : Table Id (Row Session)) (projectId : ProjectId) (native : Id) :
    Decidable (HandedOff sessions projectId native) :=
  decidable_of_iff
    (sessions.anyRow (fun _ row => row.projectId = projectId &&
      row.payload.nativeRecordId = native && row.payload.status = .handedOff) = true)
    (by simp [HandedOff, and_assoc])

/-- Every started link has a source that is handed off now. -/
def SourcesHandedOff (db : Db) : Prop :=
  ∀ id row, db.links.find id = some row → row.payload.status = .started →
    HandedOff db.sessions row.projectId row.payload.sourceSessionId

namespace Scenario

def ticket : Ready where
  sourceSessionId := "native"
  sourceCheckpointDigest := "state"
  reason := "automatic_context_boundary"
  recoverExpired := false
  waitTaskIds := []
  peerWait := none
  model := "model"
  experimentId := "experiment"
  branchId := "branch"
  targetDigest := "target"
  reviewId := some "review"
  environmentDigest := "environment"
  runtime := "responses"
  runtimeLimits := "limits"
  stagnationState := "{}"
  toolDefinitionDigest := none
  workspacePolicy := none
  portableCheckpoint := none
  workspaceTicket := none
  ordinal := 1
  issuedAt := 0

def successorStore : RuntimeStore where
  actor := controller
  experimentId := "experiment"
  taskId := "task"
  holder := "successor"
  fence := 2
  operator := store.operator

/-- The worker hands its session over, and the next holder saves the successor. -/
def handedOver : List Label :=
  leasedTask ++
    [.command (envAt 0 "checkpoint" "session") controller "save"
        (.runtimeSave store handedOff "manifest"),
      .command (envAt 0 "link") controller "issue"
        (.issueContinuation "task" "worker" 1 "native" "state" "automatic_context_boundary" false
          none),
      .command (envAt 0) controller "next" (.acquireTask "task" "successor" 300),
      .command (envAt 0) controller "consume"
        (.consumeContinuation "task" "successor" 2 ticket none none "native"),
      .command (envAt 0 "checkpoint 2" "session 2") controller "save 2"
        (.runtimeSave successorStore
          { handedOff with sessionId := "second", status := .running, stateDigest := "state 2" }
          "manifest 2")]

theorem handedOver_sound :
    ∃ task row, (@Sys.run textHash handedOver).db.tasks.find "task" = some task ∧
      (@Sys.run textHash handedOver).db.links.find "link" = some row ∧
      (lineageOf (@Sys.run textHash handedOver).db.links (@Sys.run textHash handedOver).db.sessions
        "task" task.payload).Sound ∧
      @StartedIn textHash handedOver task.projectId row.payload := by
  obtain ⟨task, stored, -⟩ := Option.map_eq_some_iff.mp
    (show ((@Sys.run textHash handedOver).db.tasks.find "task").map (·.payload.status) =
      some .running by decide)
  obtain ⟨row, found, same⟩ := Option.map_eq_some_iff.mp
    (show ((@Sys.run textHash handedOver).db.links.find "link").map
      (fun row => (row.payload.taskId, row.payload.status)) = some ("task", .started) by decide)
  obtain ⟨belongs, started⟩ := Prod.mk.inj same
  obtain ⟨sound, history⟩ := @continuation_lineage textHash handedOver [] "task" task stored
  exact ⟨task, row, stored, found, sound, (history "link" row found belongs started).1⟩

/-- The next holder saves the source session again, as failed. -/
def resaved : List Label :=
  handedOver ++
    [.command (envAt 0 "checkpoint 3" "session 3") controller "save 3"
      (.runtimeSave successorStore
        { handedOff with status := .failed, stateDigest := "state 3" } "manifest 3")]

/-- A started link's source is no longer handed off once its own record is saved again. -/
theorem resaved_source : ¬ SourcesHandedOff (@Sys.run textHash resaved).db := by
  intro handedOff
  obtain ⟨row, found, same⟩ := Option.map_eq_some_iff.mp
    (show ((@Sys.run textHash resaved).db.links.find "link").map
      (fun row => (row.projectId, row.payload.sourceSessionId, row.payload.status)) =
        some ("project", "native", .started) by decide)
  simp only [Prod.mk.injEq] at same
  have source := handedOff "link" row found same.2.2
  rw [same.1, same.2.1] at source
  exact absurd source (by decide)

end Scenario

end PhysHarness
