import PhysHarness.Continuation

/-!
Publishing native checkpoints: every saved native state is an immutable artifact, and one
transaction commits it together with the current-session metadata of its task.
-/
namespace PhysHarness

open Outcome

/-- The store of one task holder. Its commands run under a binding that needs the current lease but
not an active experiment. -/
structure RuntimeStore where
  actor : Principal
  experimentId : Id
  taskId : Id
  holder : String
  fence : Nat
  toolDefinitionDigest : Option Digest := none
  operator : actor.role = .operator := by decide
  issued : 1 ≤ fence := by decide

/-- The authority that each save is checked against. -/
def RuntimeStore.effects (store : RuntimeStore) : WorkerEffects where
  actor := store.actor
  taskId := store.taskId
  holder := store.holder
  fence := store.fence
  requireActive := false
  roles := .inl store.operator
  issued := store.issued
  inactive := fun _ => store.operator

/-- The successor a checkpoint's session would be. -/
def NativeCheckpoint.succeeds (checkpoint : NativeCheckpoint) (successor : SuccessorChoice) :
    Prop :=
  checkpoint.model = successor.model ∧ checkpoint.runtime = successor.runtime ∧
    checkpoint.limits = successor.runtimeLimits

instance (checkpoint : NativeCheckpoint) (successor : SuccessorChoice) :
    Decidable (checkpoint.succeeds successor) :=
  inferInstanceAs (Decidable (_ ∧ _))

/-- A new session of a task with earlier sessions needs the ticket this holder consumed. -/
def checkConsumedTicket (store : RuntimeStore) (checkpoint : NativeCheckpoint)
    (consumed : Option Consumed) (previous : List (Id × Row Session)) :
    Except Failure Consumed := do
  let stale := Failure.refuse "CONTINUATION_STALE"
    "New native session lacks a consumed lineage ticket."
  let ticket ← orThrow consumed stale
  require (ticket.holder = store.holder ∧ ticket.fence = store.fence ∧
    previous.length = ticket.ready.ordinal ∧ checkpoint.succeeds ticket.successor ∧
    ∃ prior ∈ previous, prior.2.payload.nativeRecordId = ticket.ready.sourceSessionId ∧
      prior.2.payload.status = .handedOff) stale
  return ticket

/-- The consumed link that a new session starts. -/
def checkConsumedLink (store : RuntimeStore) (checkpoint : NativeCheckpoint) (ticket : Consumed)
    (link : ContinuationLink) : Except Failure Unit :=
  require (link.status = .consumed ∧ link.sourceSessionId = ticket.ready.sourceSessionId ∧
      link.sourceCheckpointDigest = ticket.ready.sourceCheckpointDigest ∧
      link.holder = some store.holder ∧ link.fence = some store.fence ∧
      link.successorSessionId = none ∧
      ∃ successor ∈ link.successor, checkpoint.succeeds successor)
    (lineageMismatch "Successor link changed.")

/-- The link a first save starts: none for the first session of a task. -/
def startingLink (store : RuntimeStore) (db : Db) (checkpoint : NativeCheckpoint) (task : Task) :
    Except Failure (Option (Id × Row ContinuationLink)) :=
  let previous := db.taskSessions store.actor store.taskId
  if previous = [] then do
    require (task.continuationCount = 0)
      (.refuse "CONTINUATION_STALE" "Source session lineage is missing.")
    return none
  else do
    let ticket ← checkConsumedTicket store checkpoint task.consumedContinuation previous
    let link ← db.continuationLink store.actor store.taskId ticket.ready.ordinal
    checkConsumedLink store checkpoint ticket link.2.payload
    return some link

/-- The session metadata of a checkpoint. -/
def sessionRecord (store : RuntimeStore) (checkpoint : NativeCheckpoint) (artifactId : Id)
    (createdAt : Time) : Session where
  experimentId := store.experimentId
  taskId := store.taskId
  nativeRecordId := checkpoint.sessionId
  runtime := checkpoint.runtime
  model := checkpoint.model
  status := checkpoint.status
  checkpointArtifactId := artifactId
  inputTokens := checkpoint.inputTokens
  outputTokens := checkpoint.outputTokens
  toolDefinitionDigest := store.toolDefinitionDigest
  createdAt

/-- The link between its source and the successor that was saved first. -/
def startedLink (link : ContinuationLink) (native recordId : Id) (now : Time) :
    ContinuationLink :=
  { link with
    status := .started
    successorSessionId := some native
    successorRecordId := some recordId
    startedAt := some now }

/-- Start the link between its source and the new session. -/
def startLink (env : Env) (checkpoint : NativeCheckpoint) (recordId : Id)
    (links : Table Id (Row ContinuationLink)) (link : Option (Id × Row ContinuationLink)) :
    Table Id (Row ContinuationLink) :=
  match link with
  | none => links
  | some found => links.put found.1
    (found.2.replace (startedLink found.2.payload checkpoint.sessionId recordId env.now))

variable [ContentHash]

/-- The artifact row that commits with a save: the manifest that the checkpoint was encoded to. -/
def insertCheckpoint (store : RuntimeStore) (env : Env) (checkpoint : NativeCheckpoint)
    (manifest : Value) (db : Db) : Except Failure Db := do
  let _ ← db.getExperiment store.experimentId store.actor
  let branchId ← checkTaskRecord db store.actor store.experimentId store.taskId
  let artifactId := env.newId 0
  let artifacts ← insertNew db.artifacts artifactId
    { projectId := store.actor.projectId
      payload :=
        { experimentId := some store.experimentId
          branchId := some branchId
          originActorId := store.actor.id
          artifactKind := "native_checkpoint"
          sha256 := ContentHash.sha256 manifest
          submittedBy := store.actor.id
          createdAt := env.now
          provenance := { taskId := some store.taskId } } }
  let checkpoints ← insertNew db.checkpoints artifactId checkpoint
  return { db with artifacts, checkpoints }

/-- Replace the session record that carries the native identity. -/
def replaceSession (store : RuntimeStore) (env : Env) (checkpoint : NativeCheckpoint)
    (row : Id × Row Session) (db : Db) : Transacted := do
  require (row.2.payload.taskId = store.taskId ∧ row.2.payload.experimentId = store.experimentId)
    (.refuse "SESSION_SCOPE" "Native session already belongs to another task.")
  let record := sessionRecord store checkpoint (env.newId 0) row.2.payload.createdAt
  let replaced := row.2.replace
    { record with
      errorCode := row.2.payload.errorCode
      recoveryEvidenceArtifactId := row.2.payload.recoveryEvidenceArtifactId }
  return ({ db with sessions := db.sessions.put row.1 replaced },
    .record row.1 replaced.revision)

/-- Insert the first record of a native session and start its link. -/
def insertSession (store : RuntimeStore) (env : Env) (checkpoint : NativeCheckpoint) (task : Task)
    (db : Db) : Transacted := do
  let link ← startingLink store db checkpoint task
  let _ ← checkTaskRecord db store.actor store.experimentId store.taskId
  let recordId := env.newId 1
  let sessions ← insertNew db.sessions recordId
    { projectId := store.actor.projectId
      payload := sessionRecord store checkpoint (env.newId 0) env.now }
  return ({ db with sessions, links := startLink env checkpoint recordId db.links link },
    .record recordId 1)

/-- Write the session record and, for a new session of a continued task, start its link. -/
def publishAction (store : RuntimeStore) (env : Env) (checkpoint : NativeCheckpoint)
    (manifest : Value) (db : Db) : Transacted := do
  let stored ← insertCheckpoint store env checkpoint manifest db
  let _ ← stored.fenced env.now store.taskId store.holder store.fence
  let task ← stored.getTask store.taskId store.actor
  match (stored.nativeSessions store.actor checkpoint.sessionId).head? with
  | some row => replaceSession store env checkpoint row stored
  | none => insertSession store env checkpoint task.payload stored

/-- A save writes its artifact, and either replaces the session that carries the native identity or
inserts its first record and starts the link it was waited for by. -/
theorem publish_cases {db after : Db} {env : Env} {reply : Reply} {store : RuntimeStore}
    {checkpoint : NativeCheckpoint} {manifest : Value}
    (returned : publishAction store env checkpoint manifest db = .ok (after, reply)) :
    ∃ artifacts checkpoints task lease,
      db.tasks.find store.taskId = some task ∧ task.projectId = store.actor.projectId ∧
      db.fenced env.now store.taskId store.holder store.fence = .ok lease ∧
      ((∃ row payload, (db.nativeSessions store.actor checkpoint.sessionId).head? = some row ∧
          row.2.payload.taskId = store.taskId ∧ payload.taskId = store.taskId ∧
          payload.nativeRecordId = checkpoint.sessionId ∧ payload.status = checkpoint.status ∧
          after = { db with
            artifacts, checkpoints, sessions := db.sessions.put row.1 (row.2.replace payload) }) ∨
        ∃ link, db.nativeSessions store.actor checkpoint.sessionId = [] ∧
          startingLink store db checkpoint task.payload = .ok link ∧
          db.sessions.find (env.newId 1) = none ∧
          after = { db with
            artifacts, checkpoints
            sessions := db.sessions.put (env.newId 1)
              { projectId := store.actor.projectId
                payload := sessionRecord store checkpoint (env.newId 0) env.now }
            links := startLink env checkpoint (env.newId 1) db.links link }) := by
  simp only [publishAction, insertCheckpoint, bind_ok, insertNew_ok, pure_ok] at returned
  obtain ⟨_, ⟨-, -, -, -, artifacts, -, checkpoints, -, rfl⟩, lease, held, task, read, returned⟩ :=
    returned
  have found := Db.getRow_ok.mp read
  refine ⟨artifacts, checkpoints, task, lease, found.1, found.2.1, held, ?_⟩
  split at returned
  next row selected =>
    simp only [replaceSession, bind_ok, require_ok, exists_const, pure_ok, Prod.mk.injEq]
      at returned
    obtain ⟨owned, rfl, -⟩ := returned
    exact .inl ⟨row, _, selected, owned.1, rfl, rfl, rfl, rfl⟩
  next unselected =>
    simp only [insertSession, bind_ok, insertNew_ok, pure_ok, Prod.mk.injEq] at returned
    obtain ⟨link, starting, -, -, _, ⟨fresh, rfl⟩, rfl, -⟩ := returned
    exact .inr ⟨link, List.head?_eq_none_iff.mp unselected, starting, fresh, rfl⟩

/-- Save a checkpoint: one command commits the artifact and the session pointer atomically. -/
def runtimeSave (db : Db) (env : Env) (store : RuntimeStore) (checkpoint : NativeCheckpoint)
    (manifest : Value) : Transacted := do
  require (∀ bound ∈ env.effects, bound = store.effects)
    (.refuse "WORKER_EFFECT_SCOPE" "Cannot replace a bound worker's authority.")
  execute db { env with effects := some store.effects } store.actor
    ("runtime-save:" ++ checkpoint.stateDigest) (.runtimeSave checkpoint manifest)
    (publishAction store env checkpoint manifest)

end PhysHarness
