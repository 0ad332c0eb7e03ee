import PhysHarness.Commons.Graph
import PhysHarness.Lib.Transition

/-!
Published sources of commons nodes. A publication replaces the node's source with its imports, and
adds a dependency edge for each import that closes no cycle.
-/
namespace PhysHarness

open Outcome

/-- The gate of a published text: what it holds that no published module may, if anything. Its
scanner is left out. -/
class PublicationGate where
  refusedCommand : String → Option String

def standardAxioms : List String := ["propext", "Classical.choice", "Quot.sound"]

/-- An axiom report supports the named theorem only with standard axioms for it. -/
def axiomRefusal (axioms : List (String × List String)) (leanName : Option String) : Bool :=
  match leanName.bind fun name => axioms.lookup name with
  | none => true
  | some entry => !entry.all (· ∈ standardAxioms)

namespace CommonsNode

/-- Why a node takes no published source. -/
def refusal (node : CommonsNode) : Option String :=
  if node.nodeType = .goal then some "goal_node"
  else if isOpen node.status = false then some "node_closed"
  else none

/-- The digest of a node's exact Lean statement. -/
def statementDigest [ContentHash] (node : CommonsNode) : Option Digest :=
  node.leanStatement.map fun statement =>
    ContentHash.sha256 (Json.dumps Json.compact (.arr
      [.str (node.leanHeader.getD ""), (node.leanName.map Json.str).getD .null, .str statement]))

def hasElaboratedStatement (node : CommonsNode) : Bool :=
  node.leanStatement.isSome && node.leanElaborated

def verifiedEvidence (node : CommonsNode) (check : Option StatementCheck) : Bool :=
  match check with
  | none => false
  | some check => check.ok && !axiomRefusal check.axioms node.leanName

end CommonsNode

/-- The state of a node's source. -/
inductive SourceState where
  | ranked (rank : SourceRank)
  | stale | stub | none
  deriving DecidableEq

/-- What the node's source proves of its current statement, judged by the statement alone. -/
def statementState [ContentHash] (node : CommonsNode) : SourceState :=
  match node.leanSource with
  | some source =>
    if source.leanStatementSha256 ≠ node.statementDigest then .stale else .ranked source.rank
  | none => if node.hasElaboratedStatement then .stub else .none

/-- The same, given whether what its check inlined still is the nodes' sources. -/
def sourceState [ContentHash] (node : CommonsNode) (stands : Bool) : SourceState :=
  match statementState node with
  | .ranked rank => if stands then .ranked rank else .stale
  | state => state

/-- A branch is live while it has a task that did not end. -/
def branchLive (db : CommonsDb) (projectId : ProjectId) (branchId : Option Id) : Bool :=
  match branchId with
  | none => false
  | some branchId => db.core.tasks.anyRow fun _ row =>
      row.projectId = projectId && row.payload.branchId = branchId &&
        row.payload.status ∉ [TaskStatus.completed, .failed, .blocked]

def holdersLive (db : CommonsDb) (projectId : ProjectId) (node : CommonsNode) : Bool :=
  branchLive db projectId (node.leanSource.bind LeanSource.branchId) ||
    branchLive db projectId node.branchId

/-- The rank of the node's source when it keeps its place against a new one. -/
def blockingRank (node : CommonsNode) (rank : SourceRank) (branchId : Option Id)
    (state : SourceState) (holdersLive : Bool) : Option SourceRank :=
  match state, node.leanSource with
  | .ranked _, some current =>
    if rank.value < current.rank.value then some current.rank
    else if rank = current.rank ∧ current.rank ∈ [SourceRank.complete, .verified] ∧
        branchId ∉ [current.branchId, node.branchId] ∧
        (current.rank = .verified ∨ node.hasElaboratedStatement = true ∨ holdersLive = true) then
      some current.rank
    else none
  | _, _ => none

def maxCommonsModules : Nat := 200

namespace CommonsDb

/-- The nodes that a record's current source imports. -/
def importsOf (db : CommonsDb) (id : Id) : List Id :=
  match db.nodes.find id with
  | none => []
  | some row =>
    match row.payload.leanSource with
    | none => []
    | some source => source.imports.map SourceImport.nodeId

/-- Whether the node is reachable from the imports along the stored sources' imports. -/
def importsReach (db : CommonsDb) (nodeId : Id) (imports : List SourceImport) : Bool :=
  Walk.search db.importsOf nodeId maxCommonsModules (imports.map SourceImport.nodeId)

/-- The order in which `inline_commons` puts the modules of a text that imports these nodes. -/
def inlineOrder (db : CommonsDb) (imports : List Id) : Except Walk.Stop (List Id) :=
  Walk.expand db.importsOf maxCommonsModules maxCommonsModules [] imports []

/-- Write a record's payload. -/
def replaceNode (db : CommonsDb) (id : Id) (row : Row CommonsNode) (payload : CommonsNode) :
    CommonsDb :=
  { db with nodes := db.nodes.put id (row.replace payload) }

end CommonsDb

/-- The platform evidence of a publication. -/
structure SourceRecord where
  rank : SourceRank
  bytes : Nat
  statementCheck : Option StatementCheck
  leanStatementSha256 : Option Digest
  imports : List SourceImport
  closure : Option (List (Id × Option Digest))
  deriving DecidableEq

/-- What `record_lean_source` returns: recorded, or the reason that it is not. -/
inductive SourceReply where
  | recorded (rank : SourceRank) (replaced : Bool)
  | refused (reason : String)
  deriving DecidableEq

/-- Add the dependency edge of each import; an edge that closes a cycle is dropped. -/
def addImportEdges (projectId : ProjectId) (experimentId nodeId : Id) (actor : Principal) :
    List SourceImport → CommonsDb → Except Failure CommonsDb
  | [], db => .ok db
  | entry :: imports, db =>
    match addEdge db projectId experimentId nodeId .dependsOn entry.nodeId actor with
    | .ok added => addImportEdges projectId experimentId nodeId actor imports added.1
    | .error failure =>
      if failure.code? = some "DEPENDENCY_CYCLE" ∨ failure.code? = some "SELF_EDGE" then
        addImportEdges projectId experimentId nodeId actor imports db
      else .error failure

variable [ContentHash] [PublicationGate]

/-- Publish a checked source by the rank rule; `stands` says whether what the node's present source
inlined still is the nodes' sources. -/
def recordLeanSource (env : Env) (stands : Bool) (nodeId artifactId : Id) (record : SourceRecord)
    (actor : Principal) (db : CommonsDb) : Except Failure (CommonsDb × SourceReply) := do
  researchRole actor
  let row ← db.getNode nodeId actor
  let experiment ← db.commonsExperiment env row.payload.experimentId actor
  let experimentId := row.payload.experimentId
  let node := row.payload
  match node.refusal with
  | some reason => return (db, .refused reason)
  | none =>
    let artifact ← db.core.getArtifact artifactId actor
    require (artifact.payload.artifactKind = "lean_source" ∧
        artifact.payload.experimentId = some experimentId ∧
        artifact.payload.branchId = actor.branchId)
      (.refuse "SOURCE_ARTIFACT_SCOPE"
        "A published source is a lean_source artifact of the publisher's branch in the node's experiment."
        403)
    let content ← orThrow (env.content artifact.payload.sha256)
      (.refuse "ARTIFACT_NOT_FOUND" "Artifact bytes are unavailable." 404)
    if (PublicationGate.refusedCommand content).isSome then
      return (db, .refused "refused_command")
    if node.statementDigest.isSome ∧ record.leanStatementSha256 ≠ node.statementDigest then
      return (db, .refused "statement_changed")
    require (record.rank = .verified → node.verifiedEvidence record.statementCheck = true)
      (.refuse "INVALID_SOURCE_RECORD"
        "A verified rank needs a passing statement check on Lean's standard axioms." 422)
    let state := sourceState node stands
    if (blockingRank node record.rank actor.branchId state
        (holdersLive db experiment.projectId node)).isSome then
      return (db, .refused "lower_rank")
    if db.importsReach nodeId record.imports then
      return (db, .refused "imports_own_module")
    let source : LeanSource :=
      { artifactId
        sha256 := artifact.payload.sha256
        bytes := record.bytes
        branchId := actor.branchId
        taskId := env.effects.map WorkerEffects.taskId
        rank := record.rank
        statementCheck := record.statementCheck
        leanStatementSha256 := record.leanStatementSha256
        imports := record.imports
        closure := record.closure
        recordedAt := env.now }
    let published := db.replaceNode nodeId row { node with leanSource := some source }
    let linked ← addImportEdges experiment.projectId experimentId nodeId actor record.imports
      published
    return (linked, .recorded record.rank node.leanSource.isSome)

/-! ### Runs -/

/-- One transaction over the commons, or a write by another part of the service: the records that
the commons reads, a new node without a source, or a node's other fields. -/
inductive CommonsLabel where
  | createNode (env : Env) (experimentId : Id) (request : NodeRequest) (actor : Principal)
  | linkNodes (env : Env) (experimentId sourceId : Id) (relation : EdgeRelation) (targetId : Id)
      (actor : Principal)
  | recordLeanSource (env : Env) (stands : Bool) (nodeId artifactId : Id) (record : SourceRecord)
      (actor : Principal)
  | outside (core : Db) (societies : List Id)
  | goal (id : Id) (projectId : ProjectId) (experimentId : Id)
  | revise (id : Id) (node : CommonsNode)

namespace CommonsDb

/-- A refused command leaves the commons as it was. -/
def commit (db : CommonsDb) (result : Except Failure CommonsDb) : CommonsDb :=
  match result with
  | .ok after => after
  | .error _ => db

def step (db : CommonsDb) : CommonsLabel → CommonsDb
  | .createNode env experimentId request actor =>
    db.commit (PhysHarness.createNode env experimentId request actor db)
  | .linkNodes env experimentId sourceId relation targetId actor =>
    db.commit (PhysHarness.linkNodes env experimentId sourceId relation targetId actor db)
  | .recordLeanSource env stands nodeId artifactId record actor =>
    db.commit (PhysHarness.recordLeanSource env stands nodeId artifactId record actor db >>=
      fun recorded => .ok recorded.1)
  | .outside core societies => { db with core, societies }
  | .goal id projectId experimentId =>
    db.commit (insertNew db.nodes id { projectId, payload := { experimentId, nodeType := .goal } } >>=
      fun nodes => .ok { db with nodes })
  | .revise id node =>
    match db.nodes.find id with
    | none => db
    | some row =>
      db.replaceNode id row
        { node with experimentId := row.payload.experimentId, leanSource := row.payload.leanSource }

/-- Every state reached from an empty commons. -/
def run (labels : List CommonsLabel) : CommonsDb := Transition.run step {} labels

end CommonsDb

end PhysHarness
