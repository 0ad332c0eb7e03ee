import PhysHarness.Commons.Acyclic
import PhysHarness.Commons.Closures

/-!
# Standing proofs

A publication judges the node's present source through the closures, and compares ranks with it only
while it stands. The new source is stored with the closure that its check inlined; whether that
closure still holds is not asked again.

## Main result

`standing_rank_kept`: a standing source is not downgraded in a run whose publications on the node
record closures that hold; it is replaced at its own rank only by its publisher or the author.
-/
namespace PhysHarness

open Outcome

/-- An event of a publication; the last kind stands for those of claims, threads and posts. -/
inductive CommonsEvent where
  | edgeAdded (sourceId targetId : Id)
  | sourcePublished (nodeId artifactId : Id) (rank : SourceRank) (replaced : Bool)
      (previousRank : Option SourceRank)
  | notice (text : String)
  deriving DecidableEq

/-- The commons with its event log. -/
structure CommonsLog where
  db : CommonsDb := {}
  events : List CommonsEvent := []

section

variable [ContentHash]

/-- `Closures.reading`: the experiment's node rows. -/
def nodeFamily (db : CommonsDb) (experimentId : Id) : NodeFamily where
  nodes := (db.nodes.select fun _ row => row.payload.experimentId = experimentId).map fun item =>
    (item.1, item.2.payload)
  distinct := by
    rw [List.map_map]
    exact Table.nodup_select db.nodes _

/-- The verdict of a new instance on a stored node. -/
def nodeStands (db : CommonsDb) (id : Id) : Bool :=
  match db.nodes.find id with
  | none => false
  | some row =>
    let family := nodeFamily db row.payload.experimentId
    if known : id ∈ family.ids then (Closures.stands family {} ⟨id, known⟩).2 else false

def nodeSourceState (db : CommonsDb) (id : Id) : SourceState :=
  match db.nodes.find id with
  | none => .none
  | some row => sourceState row.payload (nodeStands db id)

/-- The rank of the node's source, while it stands. -/
def standingRank (db : CommonsDb) (id : Id) : Option SourceRank :=
  match nodeSourceState db id with
  | .ranked rank => some rank
  | _ => none

/-- The dependency edges that one commons has more than another, in the order of the imports. -/
def newEdges (before after : CommonsDb) (nodeId : Id) (imports : List SourceImport) :
    List CommonsEvent :=
  ((imports.map SourceImport.nodeId).dedup.filter fun target =>
    (before.edges.find ⟨nodeId, target, .dependsOn⟩).isNone &&
      (after.edges.find ⟨nodeId, target, .dependsOn⟩).isSome).map (.edgeAdded nodeId)

variable [PublicationGate]

/-- A call of `record_lean_source`; `notices` are the events of the parts that are left out. -/
structure Publication where
  env : Env
  nodeId : Id
  artifactId : Id
  record : SourceRecord
  actor : Principal
  notices : List CommonsEvent := []

/-- `record_lean_source` with its events. -/
def publishSource (call : Publication) (log : CommonsLog) :
    Except Failure (CommonsLog × SourceReply) := do
  let (db, reply) ← recordLeanSource call.env (nodeStands log.db call.nodeId) call.nodeId
    call.artifactId call.record call.actor log.db
  match reply with
  | .refused reason => return ({ log with db }, .refused reason)
  | .recorded rank replaced =>
    let previous := if replaced then standingRank log.db call.nodeId else none
    return ({ db
              events := log.events ++ newEdges log.db db call.nodeId call.record.imports ++
                call.notices ++
                [.sourcePublished call.nodeId call.artifactId rank replaced previous] },
      .recorded rank replaced)

/-- One call; a raised error leaves everything as it was. -/
def CommonsLog.step (log : CommonsLog) (call : Publication) : CommonsLog :=
  match publishSource call log with
  | .ok (after, _) => after
  | .error _ => log

def CommonsLog.run (log : CommonsLog) (calls : List Publication) : CommonsLog :=
  Transition.run CommonsLog.step log calls

end

/-! ### The family of an experiment -/

section

variable {db : CommonsDb} {id experimentId : Id}

theorem lookup_nodeFamily {node : CommonsNode} : (nodeFamily db experimentId).lookup id = some node ↔
    ∃ row, db.nodes.find id = some row ∧ row.payload.experimentId = experimentId ∧
      row.payload = node := by
  rw [NodeFamily.lookup, Dict.get_eq_some (nodeFamily db experimentId).distinct]
  simp only [nodeFamily, List.mem_map, Prod.exists, Table.mem_select, decide_eq_true_eq, Prod.mk.injEq]
  constructor
  · rintro ⟨_, row, ⟨stored, same⟩, rfl, payload⟩
    exact ⟨row, stored, same, payload⟩
  · rintro ⟨row, stored, same, payload⟩
    exact ⟨id, row, ⟨stored, same⟩, rfl, payload⟩

theorem nodeStands_iff {row : Row CommonsNode} (stored : db.nodes.find id = some row) :
    nodeStands db id = true ↔ id ∈ standing (nodeFamily db row.payload.experimentId) := by
  have known : id ∈ (nodeFamily db row.payload.experimentId).ids :=
    NodeFamily.mem_ids _ (lookup_nodeFamily.mpr ⟨row, stored, rfl, rfl⟩)
  simp only [nodeStands, stored, dif_pos known]
  exact (Closures.stands_spec Verdict.Searching.start ⟨id, known⟩).2

/-- A source with a recorded closure stands while each of its entries holds. -/
theorem nodeStands_recorded {row : Row CommonsNode} {source : LeanSource}
    {entries : List (Id × Option Digest)} (stored : db.nodes.find id = some row)
    (published : row.payload.leanSource = some source) (recorded : source.closure = some entries) :
    nodeStands db id = true ↔
      ∀ entry ∈ entries, HoldsSource (nodeFamily db row.payload.experimentId) entry := by
  rw [nodeStands_iff stored, Closures.mem_standing]
  constructor
  · rintro ⟨node, found, stands⟩
    obtain ⟨other, same, -, rfl⟩ := lookup_nodeFamily.mp found
    obtain rfl := Option.some.inj (stored.symm.trans same)
    unfold StandsOver at stands
    rw [published] at stands
    simpa only [recorded] using stands
  · intro holds
    refine ⟨row.payload, lookup_nodeFamily.mpr ⟨row, stored, rfl, rfl⟩, ?_⟩
    unfold StandsOver
    rw [published]
    simpa only [recorded] using holds

variable [ContentHash]

/-- What a standing rank says of the stored row. -/
theorem standingRank_some {rank : SourceRank} : standingRank db id = some rank ↔
    ∃ row source, db.nodes.find id = some row ∧ row.payload.leanSource = some source ∧
      source.rank = rank ∧ source.leanStatementSha256 = row.payload.statementDigest ∧
      nodeStands db id = true := by
  unfold standingRank nodeSourceState
  cases stored : db.nodes.find id with
  | none => simp
  | some row =>
    simp only [sourceState, statementState]
    cases published : row.payload.leanSource with
    | none => cases row.payload.hasElaboratedStatement <;> simp [published]
    | some source =>
      by_cases stale : source.leanStatementSha256 = row.payload.statementDigest
      · cases nodeStands db id <;> simp [published, stale]
      · simp [published, stale]

/-! ### One publication -/

variable [PublicationGate]

/-- What a recorded publication has checked and stored. -/
structure RecordedSource (db after : CommonsDb) (stands : Bool) (nodeId : Id) (record : SourceRecord)
    (actor : Principal) (row : Row CommonsNode) (source : LeanSource) : Prop where
  stored : db.nodes.find nodeId = some row
  nodes : after.nodes = db.nodes.put nodeId (row.replace { row.payload with leanSource := some source })
  rank : source.rank = record.rank
  closure : source.closure = record.closure
  statement : source.leanStatementSha256 = record.leanStatementSha256
  publisher : source.branchId = actor.branchId
  judged : row.payload.statementDigest.isSome →
    record.leanStatementSha256 = row.payload.statementDigest
  unblocked : ∃ live, blockingRank row.payload record.rank actor.branchId
    (sourceState row.payload stands) live = none

theorem recordLeanSource_spec {env : Env} {stands : Bool} {nodeId artifactId : Id}
    {record : SourceRecord} {actor : Principal} {after : CommonsDb} {reply : SourceReply}
    (done : recordLeanSource env stands nodeId artifactId record actor db = .ok (after, reply)) :
    (after = db ∧ ∃ reason, reply = .refused reason) ∨
      ∃ row source replaced, RecordedSource db after stands nodeId record actor row source ∧
        reply = .recorded record.rank replaced := by
  simp only [recordLeanSource, bind_ok] at done
  obtain ⟨_, -, row, found, experiment, read, done⟩ := done
  split at done
  · simp only [pure_ok, Prod.mk.injEq] at done
    exact .inl ⟨done.1.symm, _, done.2.symm⟩
  simp only [bind_ok, require_ok, orThrow_ok, exists_const] at done
  obtain ⟨artifact, -, -, content, -, done⟩ := done
  split at done
  · simp only [pure_ok, Prod.mk.injEq] at done
    exact .inl ⟨done.1.symm, _, done.2.symm⟩
  split at done
  · simp only [pure_ok, Prod.mk.injEq] at done
    exact .inl ⟨done.1.symm, _, done.2.symm⟩
  next judged =>
    simp only [bind_ok, require_ok, exists_const] at done
    obtain ⟨-, done⟩ := done
    split at done
    · simp only [pure_ok, Prod.mk.injEq] at done
      exact .inl ⟨done.1.symm, _, done.2.symm⟩
    next unblocked =>
      split at done
      · simp only [pure_ok, Prod.mk.injEq] at done
        exact .inl ⟨done.1.symm, _, done.2.symm⟩
      · simp only [bind_ok, pure_ok, Prod.mk.injEq] at done
        obtain ⟨linked, edges, rfl, rfl⟩ := done
        obtain ⟨stored, -⟩ := Db.getRow_ok.mp found
        exact .inr ⟨row, _, _,
          { stored
            nodes := addImportEdges_nodes edges
            rank := rfl
            closure := rfl
            statement := rfl
            publisher := rfl
            judged := fun has => by
              by_contra other
              exact judged ⟨has, other⟩
            unblocked := ⟨_, by simpa using unblocked⟩ }, rfl⟩

omit [ContentHash] [PublicationGate] in
/-- A source that stands gives way only to its rank or a higher one, and at its own rank a complete
source of an elaborated statement, or a verified one, only to its publisher or the author. -/
theorem blockingRank_none {node : CommonsNode} {current : LeanSource} {rank : SourceRank}
    {branchId : Option Id} {live : Bool} (published : node.leanSource = some current)
    (unblocked : blockingRank node rank branchId (.ranked current.rank) live = none) :
    current.rank.value ≤ rank.value ∧
      (rank = current.rank → current.rank ∈ [SourceRank.complete, .verified] →
        node.hasElaboratedStatement = true → branchId ∈ [current.branchId, node.branchId]) := by
  simp only [blockingRank, published] at unblocked
  split at unblocked
  · cases unblocked
  next above =>
    refine ⟨Nat.le_of_not_lt above, fun same held elaborated => ?_⟩
    by_contra other
    rw [if_pos ⟨same, held, other, .inr (.inl elaborated)⟩] at unblocked
    cases unblocked

theorem publishSource_ok {call : Publication} {log after : CommonsLog} {reply : SourceReply}
    (done : publishSource call log = .ok (after, reply)) :
    (after = log ∧ ∃ reason, reply = .refused reason) ∨
      ∃ row source replaced, RecordedSource log.db after.db (nodeStands log.db call.nodeId) call.nodeId
        call.record call.actor row source ∧ reply = .recorded call.record.rank replaced := by
  obtain ⟨⟨db, made⟩, recorded, done⟩ := bind_ok.mp done
  rcases recordLeanSource_spec recorded with ⟨rfl, reason, rfl⟩ | ⟨row, source, replaced, spec, rfl⟩
  · obtain ⟨rfl, rfl⟩ := Prod.mk.inj (pure_ok.mp done)
    exact .inl ⟨rfl, reason, rfl⟩
  · obtain ⟨rfl, rfl⟩ := Prod.mk.inj (pure_ok.mp done)
    exact .inr ⟨row, source, replaced, spec, rfl⟩

/-! ### Runs of publications -/

/-- The source that a node holds now. -/
def heldSource (db : CommonsDb) (id : Id) : Option (Option Digest) :=
  (db.nodes.find id).map fun row => row.payload.sourceSha256

/-- The call changes neither the node's statement nor the source of a module in the closure that the
node's stored source recorded. -/
def ClosureKept (id : Id) (log : CommonsLog) (call : Publication) : Prop :=
  ((log.step call).db.nodes.find id).map (fun row => row.payload.statementDigest) =
      (log.db.nodes.find id).map (fun row => row.payload.statementDigest) ∧
    ∀ row source entries, log.db.nodes.find id = some row → row.payload.leanSource = some source →
      source.closure = some entries → ∀ entry ∈ entries,
        heldSource (log.step call).db entry.1 = heldSource log.db entry.1

/-- The node's stored source recorded its closure, and a publication on the node records a closure
that holds and leaves the node out, and the node's own statement. -/
def RecordsHold (id : Id) (log : CommonsLog) (call : Publication) : Prop :=
  ∀ row, log.db.nodes.find id = some row →
    (∀ source, row.payload.leanSource = some source → source.closure.isSome = true) ∧
    (call.nodeId = id → call.record.leanStatementSha256 = row.payload.statementDigest ∧
      ∃ entries, call.record.closure = some entries ∧ ∀ entry ∈ entries, entry.1 ≠ id ∧
        HoldsSource (nodeFamily log.db row.payload.experimentId) entry)

omit [ContentHash] [PublicationGate] in
/-- A node that holds the same source in the same experiment still holds the entry. -/
theorem holdsSource_kept {after : CommonsDb} {entry : Id × Option Digest}
    (holds : HoldsSource (nodeFamily db experimentId) entry)
    (same : heldSource after entry.1 = heldSource db entry.1)
    (stays : ∀ row later, db.nodes.find entry.1 = some row → after.nodes.find entry.1 = some later →
      later.payload.experimentId = row.payload.experimentId) :
    HoldsSource (nodeFamily after experimentId) entry := by
  obtain ⟨node, found, held⟩ := holds
  obtain ⟨row, stored, inside, rfl⟩ := lookup_nodeFamily.mp found
  rw [heldSource, heldSource, stored] at same
  obtain ⟨later, there, equal⟩ := Option.map_eq_some_iff.mp same
  exact ⟨later.payload, lookup_nodeFamily.mpr ⟨later, there, (stays row later stored there).trans inside,
    rfl⟩, equal.trans held⟩

/-- One publication does not downgrade the standing source of the node. -/
theorem step_standingRank {log : CommonsLog} {call : Publication} (kept : ClosureKept id log call)
    (hold : RecordsHold id log call) {rank : SourceRank} (stood : standingRank log.db id = some rank) :
    ∃ later, standingRank (log.step call).db id = some later ∧ rank.value ≤ later.value := by
  obtain ⟨row, current, stored, published, rfl, statement, stands⟩ := standingRank_some.mp stood
  obtain ⟨closed, fresh⟩ := hold row stored
  obtain ⟨entries, recorded⟩ := Option.isSome_iff_exists.mp (closed current published)
  have entriesHold := (nodeStands_recorded stored published recorded).mp stands
  have unchanged := kept.2 row current entries stored published recorded
  cases done : publishSource call log with
  | error failure =>
    have same : log.step call = log := by rw [CommonsLog.step, done]
    exact ⟨_, (congrArg (fun log => standingRank log.db id) same).trans stood, le_rfl⟩
  | ok result =>
    obtain ⟨after, reply⟩ := result
    have step : log.step call = after := by rw [CommonsLog.step, done]
    rw [step] at unchanged ⊢
    rcases publishSource_ok done with ⟨same, -⟩ | ⟨row', source, replaced, spec, -⟩
    · exact ⟨_, (congrArg (fun log => standingRank log.db id) same).trans stood, le_rfl⟩
    have experiments : ∀ key old new, log.db.nodes.find key = some old →
        after.db.nodes.find key = some new →
          new.payload.experimentId = old.payload.experimentId := by
      intro key old new before now
      rw [spec.nodes, Table.find_put] at now
      split at now
      next here =>
        rw [here, spec.stored] at before
        obtain rfl := Option.some.inj before
        obtain rfl := Option.some.inj now
        rfl
      next => exact congrArg _ (congrArg _ (Option.some.inj (now.symm.trans before)))
    by_cases mine : call.nodeId = id
    · -- the source is replaced by one whose closure holds
      obtain ⟨digest, closure, inlined, holds⟩ := fresh mine
      subst mine
      obtain rfl := Option.some.inj (stored.symm.trans spec.stored)
      have state : sourceState row.payload (nodeStands log.db call.nodeId) = .ranked current.rank := by
        simp [sourceState, statementState, published, statement, stands]
      obtain ⟨live, unblocked⟩ := spec.unblocked
      rw [state] at unblocked
      have here : after.db.nodes.find call.nodeId =
          some (row.replace { row.payload with leanSource := some source }) := by
        rw [spec.nodes, Table.find_put_self]
      refine ⟨source.rank, standingRank_some.mpr ⟨_, source, here, rfl, rfl, ?_, ?_⟩, ?_⟩
      · exact spec.statement.trans digest
      · refine (nodeStands_recorded here rfl (spec.closure.trans inlined)).mpr fun entry listed => ?_
        obtain ⟨other, held⟩ := holds entry listed
        refine holdsSource_kept held ?_ fun old new => experiments entry.1 old new
        rw [heldSource, heldSource, spec.nodes, Table.find_put_ne _ _ other]
      · rw [spec.rank]
        exact (blockingRank_none published unblocked).1
    · have here : after.db.nodes.find id = some row := by
        rw [spec.nodes, Table.find_put_ne _ _ (Ne.symm mine), stored]
      refine ⟨current.rank, standingRank_some.mpr ⟨row, current, here, published, rfl, statement, ?_⟩,
        le_rfl⟩
      refine (nodeStands_recorded here published recorded).mpr fun entry listed => ?_
      exact holdsSource_kept (entriesHold entry listed) (unchanged entry listed)
        fun old new => experiments entry.1 old new

/-- In a run whose publications on the node record closures that hold, the rank of its standing source
never decreases; a complete or verified source of an elaborated statement is replaced at its own rank
only by its publisher or the author's branch; and a refused call changes nothing. -/
theorem standing_rank_kept (id : Id) :
    (∀ log calls, Transition.Along CommonsLog.step
        (fun log call => ClosureKept id log call ∧ RecordsHold id log call) log calls →
      ∀ rank, standingRank log.db id = some rank →
        ∃ later, standingRank (log.run calls).db id = some later ∧ rank.value ≤ later.value) ∧
    (∀ log call after replaced row current, call.nodeId = id →
      publishSource call log = .ok (after, .recorded current.rank replaced) →
      log.db.nodes.find id = some row → row.payload.leanSource = some current →
      standingRank log.db id = some current.rank →
      current.rank ∈ [SourceRank.complete, .verified] → row.payload.hasElaboratedStatement = true →
      call.actor.branchId ∈ [current.branchId, row.payload.branchId]) ∧
    ∀ log call, (∀ after rank replaced, publishSource call log ≠ .ok (after, .recorded rank replaced)) →
      log.step call = log := by
  refine ⟨fun log calls along => ?_, ?_, ?_⟩
  · refine Transition.run_relates (fun before after => ∀ rank, standingRank before.db id = some rank →
      ∃ later, standingRank after.db id = some later ∧ rank.value ≤ later.value)
      (fun _ rank stood => ⟨rank, stood, le_rfl⟩) ?_ ?_ along
    · intro first second third one two rank stood
      obtain ⟨middle, held, up⟩ := one rank stood
      obtain ⟨last, there, more⟩ := two middle held
      exact ⟨last, there, up.trans more⟩
    · exact fun log call conditions rank => step_standingRank conditions.1 conditions.2
  · rintro log call after replaced row current rfl done stored published stood held elaborated
    rcases publishSource_ok done with ⟨-, reason, other⟩ | ⟨row', source, _, spec, same⟩
    · cases other
    obtain rfl := Option.some.inj (stored.symm.trans spec.stored)
    obtain ⟨_, _, stored', published', -, statement, stands⟩ := standingRank_some.mp stood
    obtain rfl := Option.some.inj (stored.symm.trans stored')
    obtain rfl := Option.some.inj (published.symm.trans published')
    have state : sourceState row.payload (nodeStands log.db call.nodeId) = .ranked current.rank := by
      simp [sourceState, statementState, published, statement, stands]
    obtain ⟨live, unblocked⟩ := spec.unblocked
    rw [state] at unblocked
    have rank : current.rank = call.record.rank := (SourceReply.recorded.inj same).1
    exact (blockingRank_none published unblocked).2 rank.symm held elaborated
  · intro log call refused
    unfold CommonsLog.step
    split
    next after reply done =>
      rcases publishSource_ok done with ⟨same, -⟩ | ⟨_, _, replaced, -, rfl⟩
      · exact same
      · exact absurd done (refused after _ replaced)
    next => rfl

end

/-! ### A publication that a change of its imports overtakes -/

namespace Scenario

section

local instance standingHash : ContentHash := textHash
local instance standingGate : PublicationGate := openGate

def completeSource : LeanSource where
  artifactId := "source"
  sha256 := "text"
  bytes := 4
  branchId := none
  taskId := none
  rank := .complete
  statementCheck := none
  leanStatementSha256 := none
  imports := []
  closure := some []
  recordedAt := 0

def publishedNode : Row CommonsNode where
  projectId := "project"
  payload := { experimentId := "experiment", nodeType := .definition, leanSource := some completeSource }

/-- Two definitions, each with a standing complete source. -/
def publishedLog : CommonsLog where
  db :=
    { core := commonsCore
      societies := ["experiment"]
      nodes := ((∅ : Table Id (Row CommonsNode)).put "11111111" publishedNode).put "22222222" publishedNode }

/-- A publication on the first node with the second one's source inlined as it was when the file was
checked. -/
def republication (rank : SourceRank) (checked : Digest) : Publication where
  env := { envAt 0 with content := some }
  nodeId := "11111111"
  artifactId := "source"
  record :=
    { rank
      bytes := 4
      statementCheck := none
      leanStatementSha256 := none
      imports := [⟨"Commons.N22222222", "22222222", some checked⟩]
      closure := some [("22222222", some checked)] }
  actor := controller

theorem publishedLog_stored :
    publishedLog.db.nodes.find "11111111" = some publishedNode ∧
      publishedLog.db.nodes.find "22222222" = some publishedNode := by
  decide

theorem publishedLog_stands : nodeStands publishedLog.db "11111111" = true :=
  (nodeStands_recorded publishedLog_stored.1 rfl rfl).mpr
    fun _ member => absurd member List.not_mem_nil

theorem publishedLog_rank : standingRank publishedLog.db "11111111" = some .complete :=
  standingRank_some.mpr ⟨publishedNode, completeSource, publishedLog_stored.1, rfl, rfl, rfl,
    publishedLog_stands⟩

/-- The commons after a recorded call. -/
def sourceDb (call : Publication) (stands : Bool) (db : CommonsDb) : Option CommonsDb :=
  match recordLeanSource call.env stands call.nodeId call.artifactId call.record call.actor db with
  | .ok (after, .recorded _ _) => some after
  | _ => none

theorem sourceDb_some {call : Publication} {stands : Bool} {log : CommonsLog} {after : CommonsDb}
    (verdict : nodeStands log.db call.nodeId = stands)
    (recorded : sourceDb call stands log.db = some after) :
    (log.step call).db = after ∧
      ∃ row source, RecordedSource log.db after stands call.nodeId call.record call.actor row source := by
  unfold sourceDb at recorded
  split at recorded
  next db rank replaced done =>
    obtain rfl := Option.some.inj recorded
    have published : ∃ log', publishSource call log = .ok (log', .recorded rank replaced) ∧
        log'.db = db := by
      refine ⟨_, bind_ok.mpr ⟨(db, .recorded rank replaced), ?_, rfl⟩, rfl⟩
      rw [verdict]
      exact done
    obtain ⟨log', published, rfl⟩ := published
    have step : log.step call = log' := by rw [CommonsLog.step, published]
    rcases publishSource_ok published with ⟨-, reason, other⟩ | ⟨row, source, _, spec, -⟩
    · cases other
    · exact ⟨congrArg _ step, row, source, verdict ▸ spec⟩
  · cases recorded

/-- After a recorded publication the first node stands while the second one holds the source that the
publication inlined. -/
theorem republication_stored {rank : SourceRank} {checked : Digest} {stands : Bool} {db after : CommonsDb}
    {old : Row CommonsNode} (first : db.nodes.find "11111111" = some old)
    (inside : old.payload.experimentId = "experiment")
    (second : db.nodes.find "22222222" = some publishedNode)
    (recorded : ∃ row source, RecordedSource db after stands "11111111"
      (republication rank checked).record controller row source) :
    ∃ row source, after.nodes.find "11111111" = some row ∧
      row.payload.statementDigest = old.payload.statementDigest ∧
      row.payload.experimentId = "experiment" ∧ row.payload.leanSource = some source ∧
      source.rank = rank ∧ source.leanStatementSha256 = none ∧
      source.closure = some [("22222222", some checked)] ∧
      after.nodes.find "22222222" = some publishedNode ∧
      (nodeStands after "11111111" = true ↔ checked = "text") := by
  obtain ⟨row, source, spec⟩ := recorded
  obtain rfl := Option.some.inj (first.symm.trans spec.stored)
  have here : after.nodes.find "11111111" =
      some (old.replace { old.payload with leanSource := some source }) := by
    rw [spec.nodes, Table.find_put_self]
  have there : after.nodes.find "22222222" = some publishedNode := by
    rw [spec.nodes, Table.find_put_ne _ _ (by decide), second]
  refine ⟨_, source, here, rfl, inside, rfl, spec.rank, spec.statement, spec.closure, there, ?_⟩
  rw [nodeStands_recorded here rfl spec.closure]
  have inlined : (republication rank checked).record.closure = some [("22222222", some checked)] := rfl
  constructor
  · intro holds
    obtain ⟨node, found, held⟩ := holds ("22222222", some checked) (List.mem_singleton.mpr rfl)
    obtain ⟨other, same, -, rfl⟩ := lookup_nodeFamily.mp found
    obtain rfl := Option.some.inj (there.symm.trans same)
    exact (Option.some.inj held).symm
  · rintro rfl entry listed
    obtain rfl := List.mem_singleton.mp listed
    exact ⟨_, lookup_nodeFamily.mpr ⟨publishedNode, there, inside.symm, rfl⟩, rfl⟩

/-- The publisher replaces its standing source by one of the same rank that is stale at once, so a
partial source takes its place: no source of a module in a stored closure changed meanwhile. -/
theorem republished_source_downgraded : ¬ ∀ id log calls,
    Transition.Along CommonsLog.step (ClosureKept id) log calls →
      ∀ rank later, standingRank log.db id = some rank →
        standingRank (log.run calls).db id = some later → rank.value ≤ later.value := by
  intro claim
  have both : ((sourceDb (republication .complete "old") true publishedLog.db).bind
      (sourceDb (republication .partialRank "text") false)).isSome = true := by decide
  obtain ⟨last, both⟩ := Option.isSome_iff_exists.mp both
  obtain ⟨middle, recorded, again⟩ := Option.bind_eq_some_iff.mp both
  obtain ⟨rfl, stored⟩ := sourceDb_some publishedLog_stands recorded
  obtain ⟨row, source, here, statement, inside, published, rank, digest, closure, there, stands⟩ :=
    republication_stored publishedLog_stored.1 rfl publishedLog_stored.2 stored
  have stale : nodeStands (publishedLog.step (republication .complete "old")).db "11111111" = false :=
    Bool.eq_false_iff.mpr fun stood => absurd (stands.mp stood) (by decide)
  obtain ⟨rfl, stored'⟩ := sourceDb_some stale again
  obtain ⟨row', source', here', statement', -, published', rank', digest', -, there', stands'⟩ :=
    republication_stored here inside there stored'
  have downgraded := claim "11111111" publishedLog
    [republication .complete "old", republication .partialRank "text"] ⟨⟨?_, ?_⟩, ⟨?_, ?_⟩, trivial⟩
    .complete .partialRank publishedLog_rank
    (standingRank_some.mpr ⟨row', source', here', published', rank',
      digest'.trans (statement'.trans statement).symm, stands'.mpr rfl⟩)
  · exact absurd downgraded (by decide)
  · rw [here, publishedLog_stored.1]
    exact congrArg some statement
  · intro old current entries stored published recorded
    obtain rfl := Option.some.inj (publishedLog_stored.1.symm.trans stored)
    obtain rfl := Option.some.inj published
    obtain rfl := Option.some.inj recorded
    exact fun _ member => absurd member List.not_mem_nil
  · rw [here, here']
    exact congrArg some statement'
  · intro old current entries stored same recorded entry listed
    obtain rfl := Option.some.inj (here.symm.trans stored)
    obtain rfl := Option.some.inj (published.symm.trans same)
    obtain rfl := Option.some.inj (closure.symm.trans recorded)
    obtain rfl := List.mem_singleton.mp listed
    rw [heldSource, heldSource, there, there']

/-- A republication whose imports are the nodes' sources keeps its place. -/
theorem republished_source_stands : ∃ later,
    standingRank (publishedLog.run [republication .complete "text"]).db "11111111" = some later ∧
      SourceRank.complete.value ≤ later.value := by
  have current : (sourceDb (republication .complete "text") true publishedLog.db).isSome = true := by
    decide
  obtain ⟨after, recorded⟩ := Option.isSome_iff_exists.mp current
  obtain ⟨rfl, stored⟩ := sourceDb_some publishedLog_stands recorded
  obtain ⟨row, source, here, statement, -⟩ :=
    republication_stored publishedLog_stored.1 rfl publishedLog_stored.2 stored
  refine (standing_rank_kept "11111111").1 publishedLog [republication .complete "text"]
    ⟨⟨⟨?_, ?_⟩, ?_⟩, trivial⟩ .complete publishedLog_rank
  · rw [here, publishedLog_stored.1]
    exact congrArg some statement
  · intro old current entries stored published recorded
    obtain rfl := Option.some.inj (publishedLog_stored.1.symm.trans stored)
    obtain rfl := Option.some.inj published
    obtain rfl := Option.some.inj recorded
    exact fun _ member => absurd member List.not_mem_nil
  · intro old stored
    obtain rfl := Option.some.inj (publishedLog_stored.1.symm.trans stored)
    refine ⟨?_, fun _ => ⟨rfl, _, rfl, ?_⟩⟩
    · intro current published
      obtain rfl := Option.some.inj published
      rfl
    · intro entry listed
      obtain rfl := List.mem_singleton.mp listed
      exact ⟨by decide, _, lookup_nodeFamily.mpr ⟨publishedNode, publishedLog_stored.2, rfl, rfl⟩, rfl⟩

end

end Scenario

end PhysHarness
