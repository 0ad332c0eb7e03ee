import PhysHarness.Evidence
import PhysHarness.Lib.Json
import PhysHarness.Lib.Walk

/-!
The blueprint commons: attributed research nodes and typed edges. Threads, subscriptions and events
of the commons are left out; they write neither nodes' sources nor edges.
-/
namespace PhysHarness

open Outcome

inductive EdgeRelation where
  | dependsOn | motivatedBy | refutes | generalizes | specializes | duplicates
  deriving DecidableEq

inductive NodeType where
  | goal | lemmaNode | definition | conjecture | approach | tangent | obstacle | counterexample
  | computation
  deriving DecidableEq

/-- The statuses of a node; the last four are ladder values that were stored before and read as
open. -/
inductive NodeStatus where
  | «open» | accepted | refuted | abandoned | informal | refereed | formallyStated | compilesLocally
  deriving DecidableEq

def isOpen (status : NodeStatus) : Bool := status ∉ [.accepted, .refuted, .abandoned]

inductive SourceRank where
  | partialRank | complete | verified
  deriving DecidableEq

/-- A higher rank outranks a lower one. -/
def SourceRank.value : SourceRank → Nat
  | .partialRank => 1
  | .complete => 2
  | .verified => 3

structure StatementCheck where
  ok : Bool
  axioms : List (String × List String)
  deriving DecidableEq

structure SourceImport where
  module : String
  nodeId : Id
  sha256 : Option Digest
  deriving DecidableEq

/-- A node's published source. -/
structure LeanSource where
  artifactId : Id
  sha256 : Digest
  bytes : Nat
  branchId : Option Id
  taskId : Option Id
  rank : SourceRank
  statementCheck : Option StatementCheck
  leanStatementSha256 : Option Digest
  imports : List SourceImport
  closure : Option (List (Id × Option Digest))
  recordedAt : Time
  deriving DecidableEq

structure CommonsNode where
  experimentId : Id
  branchId : Option Id := none
  nodeType : NodeType
  status : NodeStatus := .open
  leanHeader : Option String := none
  leanName : Option String := none
  leanStatement : Option String := none
  leanElaborated : Bool := false
  leanModule : Option String := none
  leanSource : Option LeanSource := none
  deriving DecidableEq

structure EdgeKey where
  sourceId : Id
  targetId : Id
  relation : EdgeRelation
  deriving DecidableEq

/-- The commons beside the records that it reads; `societies` are the experiments with a society
policy. -/
structure CommonsDb where
  core : Db := {}
  societies : List Id := []
  nodes : Table Id (Row CommonsNode) := ∅
  edges : Table EdgeKey ProjectId := ∅

def maxGraphNodes : Nat := 5000
def maxGraphEdges : Nat := 50000

def graphTooLarge : Failure :=
  .refuse "COMMONS_GRAPH_TOO_LARGE" "The commons graph exceeds its bounded traversal." 409 false
    "Narrow the query or consolidate duplicate nodes."

namespace CommonsDb

/-- The commons is a grant to the whole experiment under ideas sharing. -/
def nodeInScope (db : CommonsDb) (actor : Principal) (_ : Id) (row : Row CommonsNode) : Bool :=
  db.core.inScope actor fun experiment =>
    some row.payload.experimentId = actor.experimentId && experiment.sharing = .ideas

def getNode (db : CommonsDb) (id : Id) (actor : Principal) : Except Failure (Row CommonsNode) :=
  Db.getRow db.nodes (db.nodeInScope actor) id actor

/-- The active experiment of a commons mutation; its row is locked until the transaction ends. -/
def commonsExperiment (db : CommonsDb) (env : Env) (experimentId : Id) (actor : Principal) :
    Except Failure (Row Experiment) := do
  let experiment ← db.core.getExperiment experimentId actor
  require (experimentId ∈ db.societies ∧ experiment.payload.sharing = .ideas)
    (.refuse "SOCIETY_DISABLED" "This experiment has no research-society commons." 409 false
      "Create the experiment with a society policy and ideas sharing.")
  let _ ← db.core.active env.now experimentId actor
  return experiment

def commonsNode (db : CommonsDb) (nodeId : Id) (actor : Principal) (experimentId : Id) :
    Except Failure (Row CommonsNode) := do
  let row ← db.getNode nodeId actor
  require (row.payload.experimentId = experimentId)
    (.notFound "The requested project object was not found.")
  return row

/-- The stored dependencies whose source is a node of the experiment. -/
def dependencyEdges (db : CommonsDb) (projectId : ProjectId) (experimentId : Id) :
    List (Id × Id) :=
  ((db.edges.select fun key project => project = projectId && key.relation = .dependsOn &&
      match db.nodes.find key.sourceId with
      | none => false
      | some node => node.projectId = projectId && node.payload.experimentId = experimentId).map
    fun edge => (edge.1.sourceId, edge.1.targetId))

def experimentDependencies (db : CommonsDb) (projectId : ProjectId) (experimentId : Id) :
    Except Failure (List (Id × Id)) := do
  let edges := db.dependencyEdges projectId experimentId
  require (edges.length ≤ maxGraphEdges) graphTooLarge
  return edges

end CommonsDb

/-- The targets of a node in the order of the sorted edges. -/
def dependencyChildren (edges : List (Id × Id)) (id : Id) : List Id :=
  ((edges.filter fun edge => edge.1 = id).map Prod.snd).insertionSort (· ≤ ·)

/-- Insert one validated edge, unless it is there. A source without incoming edges skips the walk. -/
def addEdge (db : CommonsDb) (projectId : ProjectId) (experimentId : Id) (sourceId : Id)
    (relation : EdgeRelation) (targetId : Id) (actor : Principal) (newSource : Bool := false) :
    Except Failure (CommonsDb × Bool) := do
  require (targetId ≠ sourceId)
    (.refuse "SELF_EDGE" "A node cannot relate to itself." 422)
  let _ ← db.commonsNode targetId actor experimentId
  let key : EdgeKey := { sourceId, targetId, relation }
  if (db.edges.find key).isSome then
    return (db, false)
  if relation = .dependsOn ∧ newSource = false then
    let edges ← db.experimentDependencies projectId experimentId
    let walk := Walk.closure (dependencyChildren edges) targetId maxGraphNodes
    require (sourceId ∉ walk.1)
      (.refuse "DEPENDENCY_CYCLE" "The target already depends on the source." 409 false
        "Link the dependency in the other direction or split the node.")
    require (walk.2 = false) graphTooLarge
  return ({ db with edges := db.edges.put key projectId }, true)

structure NodeRequest where
  nodeType : NodeType
  leanHeader : Option String := none
  leanName : Option String := none
  leanStatement : Option String := none
  edges : List (EdgeRelation × Id) := []
  artifactIds : List Id := []
  deriving DecidableEq

/-- An attached artifact is the experiment's own and not private. -/
def nodeEvidence [ContentHash] (db : CommonsDb) (experimentId : Id) (actor : Principal) (identifier : Id) :
    Except Failure Unit := do
  let artifact ← db.core.getArtifact identifier actor
  require (artifact.payload.experimentId = some experimentId ∧
      artifact.payload.artifactKind ∉ privateArtifactKinds)
    (.refuse "EVIDENCE_SCOPE" "A referenced artifact is private or outside the experiment.")

/-- Hexadecimal digits of an identifier. -/
def hexOf (id : Id) : List Char := id.toList.filter (· ≠ '-')

/-- A module name of the first digits that no node of the experiment holds. -/
def newModule (db : CommonsDb) (projectId : ProjectId) (experimentId : Id) (nodeId : Id) :
    Except Failure String :=
  let name (width : Nat) : String := "Commons.N" ++ .ofList ((hexOf nodeId).take width)
  let taken (width : Nat) : Bool := db.nodes.anyRow fun id row =>
    row.projectId = projectId && row.payload.experimentId = experimentId &&
      if width = 8 then id.toList.take 8 = nodeId.toList.take 8
      else row.payload.leanModule = some (name width)
  orThrow (([8, 12, 16].find? fun width => !taken width).map name)
    (.refuse "COMMONS_MODULE_COLLISION" "No unique module name for this node.")

/-- Add the edges of a new node one after the other. -/
def addEdges (projectId : ProjectId) (experimentId sourceId : Id) (actor : Principal) :
    List (EdgeRelation × Id) → CommonsDb → Except Failure CommonsDb
  | [], db => .ok db
  | (relation, targetId) :: edges, db =>
    addEdge db projectId experimentId sourceId relation targetId actor true >>= fun added =>
      addEdges projectId experimentId sourceId actor edges added.1

/-- Insert a node and its edges. -/
def createNode [ContentHash] (env : Env) (experimentId : Id) (request : NodeRequest) (actor : Principal)
    (db : CommonsDb) : Except Failure CommonsDb := do
  researchRole actor
  require (request.nodeType ≠ .goal)
    (.refuse "GOAL_NODE_RESERVED" "Only the platform creates the goal node." 403)
  require (actor.role = .agent → actor.branchId.isSome)
    (.refuse "BRANCH_AUTHORITY" "A branch identity is required to author nodes." 403)
  let experiment ← db.commonsExperiment env experimentId actor
  forEach (nodeEvidence db experimentId actor) request.artifactIds
  let nodeId := env.newId 0
  let leanModule ← newModule db experiment.projectId experimentId nodeId
  let nodes ← insertNew db.nodes nodeId
    { projectId := actor.projectId
      payload :=
        { experimentId
          branchId := actor.branchId
          nodeType := request.nodeType
          leanHeader := request.leanHeader
          leanName := request.leanName
          leanStatement := request.leanStatement
          leanModule := some leanModule } }
  addEdges experiment.projectId experimentId nodeId actor request.edges { db with nodes }

/-- Any agent of the experiment may relate nodes. -/
def linkNodes (env : Env) (experimentId sourceId : Id) (relation : EdgeRelation) (targetId : Id)
    (actor : Principal) (db : CommonsDb) : Except Failure CommonsDb := do
  researchRole actor
  let experiment ← db.commonsExperiment env experimentId actor
  let _ ← db.commonsNode sourceId actor experimentId
  let added ← addEdge db experiment.projectId experimentId sourceId relation targetId actor
  return added.1

end PhysHarness
