import Mathlib.Data.List.Sort
import PhysHarness.Commons.Graph
import PhysHarness.Execution.Rendering

/-!
Scoped discussions: topics, posts, addressed messages, and what an identity may read of them.

A source is checked again at its delivery. One that the identity may no longer read is withdrawn; one
whose records do not belong together is refused.
-/
namespace PhysHarness
namespace Inbox

open Outcome

/-- The target that a discussion is about. -/
structure Pins where
  problemRevisionId : Id
  targetDigest : Digest
  environmentDigest : Digest
  deriving DecidableEq

inductive PostKind where
  | question | finding | objection | help | update | synthesis | attemptFailed
  deriving DecidableEq

def PostKind.text : PostKind → String
  | question => "question"
  | finding => "finding"
  | objection => "objection"
  | help => "help"
  | update => "update"
  | synthesis => "synthesis"
  | attemptFailed => "attempt_failed"

/-- What the platform announces: a status of the node, or the branch whose route compiled. -/
inductive PlatformStatus where
  | moved (status : NodeStatus)
  | compiled (branchId : Option Id)
  deriving DecidableEq

structure Topic where
  experimentId : Id
  branchId : Option Id := none
  pins : Pins
  nodeId : Option Id := none
  deriving DecidableEq

structure Post where
  experimentId : Id
  topicId : Id
  branchId : Option Id := none
  attributedTo : Id
  originActorId : Id
  kind : PostKind
  content : Text
  abstract : Option Text := none
  artifactIds : List Id := []
  referencePostIds : List Id := []
  platformStatus : Option PlatformStatus := none
  pins : Pins
  sequence : Nat
  deriving DecidableEq

/-- A message with its text and its author. -/
structure AddressedMessage extends Message where
  attributedTo : Id
  originActorId : Id
  content : Text

structure ThreadNode extends CommonsNode where
  title : Text

structure NodeClaim where
  experimentId : Id
  nodeId : Id
  branchId : Id
  released : Bool := false
  expiresAt : Time
  deriving DecidableEq

/-- The records of the discussions beside those of the core. -/
structure Board where
  core : Db := {}
  societies : List Id := []
  topics : Table Id (Row Topic) := ∅
  posts : Table Id (Row Post) := ∅
  messages : Table Id (Row AddressedMessage) := ∅
  nodes : Table Id (Row ThreadNode) := ∅
  claims : Table Id (Row NodeClaim) := ∅

/-- The author of what the platform itself posts. -/
def platform : Id := "commons-platform"

def maxLiveClaims : Nat := 1000

def targetChanged (message : String) : Failure := .refuse "TARGET_CHANGED" message

/-- `_discussion_pins` -/
def discussionPins (experiment : Experiment) (target : Problem) : Pins where
  problemRevisionId := experiment.problemId
  targetDigest := experiment.targetDigest
  environmentDigest := target.environmentDigest

namespace Board

/-- The pins are those of the experiment's target. -/
def pinned (board : Board) (experiment : Experiment) (pins : Pins) : Bool :=
  match board.core.problems.find experiment.problemId with
  | none => false
  | some target => pins = discussionPins experiment target.payload

/-- The live claims on a node, by branch. -/
def activeClaims (board : Board) (now : Time) (nodeId : Id) : List NodeClaim :=
  match board.nodes.find nodeId with
  | none => []
  | some node =>
    let live := board.claims.select fun _ row =>
      row.projectId = node.projectId && row.payload.experimentId = node.payload.experimentId &&
        !row.payload.released && decide (now < row.payload.expiresAt) && row.payload.nodeId = nodeId
    (((live.insertionSort fun first second => first.1 ≤ second.1).take maxLiveClaims).map fun row =>
      row.2.payload).insertionSort fun first second => first.branchId ≤ second.branchId

variable [ContentHash]

/-! ### Scope -/

def artifactReadable (board : Board) (actor : Principal) (id : Id) : Bool :=
  match board.core.artifacts.find id with
  | none => false
  | some artifact =>
    artifact.projectId = actor.projectId && board.core.artifactInScope actor id artifact

def topicInScope (board : Board) (actor : Principal) (_ : Id) (row : Row Topic) : Bool :=
  board.core.inScope actor fun experiment =>
    some row.payload.experimentId = actor.experimentId &&
      board.pinned experiment row.payload.pins &&
      (row.payload.branchId = actor.branchId || experiment.sharing = .ideas)

/-- The topic of a post that an agent reads: the agent's own experiment and target. -/
def threadInScope (board : Board) (actor : Principal) (experiment : Experiment) (topicId : Id) : Bool :=
  match board.topics.find topicId with
  | none => false
  | some topic =>
    topic.projectId = actor.projectId && some topic.payload.experimentId = actor.experimentId &&
      board.pinned experiment topic.payload.pins

def referenceInScope (board : Board) (actor : Principal) (experiment : Experiment) (id : Id) : Bool :=
  match board.posts.find id with
  | none => false
  | some reference =>
    reference.projectId = actor.projectId &&
      some reference.payload.experimentId = actor.experimentId &&
      (reference.payload.branchId = actor.branchId || experiment.sharing = .ideas)

def postInScope (board : Board) (actor : Principal) (_ : Id) (row : Row Post) : Bool :=
  board.core.inScope actor fun experiment =>
    some row.payload.experimentId = actor.experimentId &&
      board.pinned experiment row.payload.pins &&
      board.threadInScope actor experiment row.payload.topicId &&
      (row.payload.branchId = actor.branchId || experiment.sharing = .ideas) &&
      row.payload.artifactIds.all (board.artifactReadable actor) &&
      row.payload.referencePostIds.all (board.referenceInScope actor experiment)

def messageInScope (board : Board) (actor : Principal) (_ : Id) (row : Row AddressedMessage) : Bool :=
  board.core.inScope actor fun experiment =>
    let message := row.payload
    let addressed := some message.recipientBranchId = actor.branchId
    some message.experimentId = actor.experimentId &&
      (!addressed || message.artifactIds.all (board.artifactReadable actor)) &&
      (some message.senderBranchId = actor.branchId
        || (actor.branchId = none && message.originActorId = actor.id)
        || (experiment.sharing = .ideas && addressed))

/-! ### Scoped reads -/

/-- `_discussion_experiment` -/
def discussionExperiment (board : Board) (experimentId : Id) (actor : Principal) :
    Except Failure (Row Experiment) := do
  let experiment ← board.core.getExperiment experimentId actor
  let stale := targetChanged "The discussion target revision is stale."
  let target ← orThrow (board.core.problems.find experiment.payload.problemId) stale
  require (target.projectId = actor.projectId ∧
    target.payload.targetDigest = experiment.payload.targetDigest) stale
  return experiment

/-- `_discussion_topic` -/
def discussionTopic (board : Board) (topicId : Id) (actor : Principal) : Except Failure (Row Topic) := do
  let topic ← Db.getRow board.topics (board.topicInScope actor) topicId actor
  let experiment ← board.discussionExperiment topic.payload.experimentId actor
  require (board.pinned experiment.payload topic.payload.pins)
    (targetChanged "The discussion is pinned to a stale target.")
  return topic

/-- `_discussion_post` -/
def discussionPost (board : Board) (postId : Id) (actor : Principal) : Except Failure (Row Post) := do
  let post ← Db.getRow board.posts (board.postInScope actor) postId actor
  let _ ← board.discussionTopic post.payload.topicId actor
  return post

/-- `_discussion_safe_post`: the references are checked again at a delivery. -/
def discussionSafePost (board : Board) (post : Row Post) (actor : Principal) :
    Except Failure Post := do
  forEach (fun identifier => do
    let artifact ← board.core.getArtifact identifier actor
    require (artifact.payload.experimentId = some post.payload.experimentId ∧
        artifact.payload.artifactKind ∉ privateArtifactKinds)
      (.refuse "EVIDENCE_SCOPE" "A referenced artifact is private or outside the experiment."))
    post.payload.artifactIds
  return post.payload

/-- `_research_message` -/
def researchMessage (board : Board) (messageId : Id) (actor : Principal) (experimentId : Id) :
    Except Failure (Row AddressedMessage) := do
  let absent := Failure.notFound "The addressed message was not found."
  let message ← Db.getRow board.messages (board.messageInScope actor) messageId actor
  require (actor.role = .agent → some message.payload.recipientBranchId = actor.branchId) absent
  require (message.payload.experimentId = experimentId) absent
  forEach (fun identifier => do
    let artifact ← board.core.getArtifact identifier actor
    require (artifact.payload.experimentId = some message.payload.experimentId)
      (.refuse "EVIDENCE_SCOPE" "Message evidence is outside the experiment."))
    message.payload.artifactIds
  return message

end Board

/-! ### The sources of deliveries -/

inductive SourceKind where
  | message | discussionPost
  deriving DecidableEq

def sourceMissing : Failure :=
  .refuse "DELIVERY_SOURCE_MISSING" "Delivery source metadata is missing."

def sourceInvalid (message : String) : Failure := .refuse "DELIVERY_SOURCE_INVALID" message

namespace Board

variable [ContentHash]

/-- An attachment is an artifact of the project and of the experiment. -/
def attached (board : Board) (actor : Principal) (experimentId : Id) (identifier : Id) :
    Except Failure Unit := do
  let missing := sourceInvalid "A source attachment is missing."
  let artifact ← orThrow (board.core.artifacts.find identifier) missing
  require (artifact.projectId = actor.projectId ∧
    artifact.payload.experimentId = some experimentId) missing

def referenced (board : Board) (actor : Principal) (experimentId : Id) (identifier : Id) :
    Except Failure Unit := do
  let missing := sourceInvalid "A post reference is missing."
  let reference ← orThrow (board.posts.find identifier) missing
  require (reference.projectId = actor.projectId ∧
    reference.payload.experimentId = experimentId) missing

/-- An attachment of a post that the identity may read; private kinds are never shown. -/
def attachmentShown (board : Board) (actor : Principal) (identifier : Id) : Bool :=
  match board.core.artifacts.find identifier with
  | none => false
  | some artifact =>
    artifact.payload.artifactKind ∉ privateArtifactKinds &&
      board.core.artifactInScope actor identifier artifact

/-- `_source_accessible` of an addressed message. -/
def messageAccessible (board : Board) (sourceId experimentId : Id) (actor : Principal) :
    Except Failure Bool := do
  let source ← orThrow (board.messages.find sourceId) sourceMissing
  require (source.projectId = actor.projectId ∧ source.payload.experimentId = experimentId)
    sourceMissing
  require (some source.payload.recipientBranchId = actor.branchId)
    (sourceInvalid "Addressed recipient changed.")
  forEach (board.attached actor experimentId) source.payload.artifactIds
  return board.messageInScope actor sourceId source &&
    source.payload.artifactIds.all (board.artifactReadable actor)

/-- `_source_accessible` of a post. -/
def postAccessible (board : Board) (sourceId experimentId : Id) (experiment : Experiment)
    (actor : Principal) : Except Failure Bool := do
  let changed := targetChanged "The delivery target pins changed."
  let source ← orThrow (board.posts.find sourceId) sourceMissing
  require (source.projectId = actor.projectId ∧ source.payload.experimentId = experimentId)
    sourceMissing
  let topic ← orThrow (board.topics.find source.payload.topicId) changed
  require (topic.projectId = actor.projectId ∧ topic.payload.experimentId = experimentId ∧
    board.pinned experiment source.payload.pins ∧ board.pinned experiment topic.payload.pins) changed
  forEach (board.referenced actor experimentId) source.payload.referencePostIds
  forEach (board.attached actor experimentId) source.payload.artifactIds
  return board.postInScope actor sourceId source &&
    source.payload.artifactIds.all (board.attachmentShown actor)

/-- `_source_accessible` -/
def sourceAccessible (board : Board) (kind : SourceKind) (sourceId experimentId : Id)
    (experiment : Experiment) (actor : Principal) : Except Failure Bool :=
  match kind with
  | .message => board.messageAccessible sourceId experimentId actor
  | .discussionPost => board.postAccessible sourceId experimentId experiment actor

/-- `_post_urgent` -/
def postUrgent (board : Board) (now : Time) (post : Post) (nodeId : Id) (actor : Principal) : Bool :=
  let readerBranch := if actor.role = .agent then actor.branchId else none
  match post.platformStatus, decide (post.originActorId = platform) with
  | some (.compiled compiler), true =>
    -- urgent only for the node's other live claimants
    readerBranch.isSome && readerBranch ≠ compiler &&
      (board.activeClaims now nodeId).any fun claim => some claim.branchId = readerBranch
  | some (.moved status), true => status ∈ [.accepted, .refuted]
  | _, _ =>
    post.kind = .objection && readerBranch.isSome && post.branchId ≠ readerBranch &&
      match board.nodes.find nodeId with
      | none => false
      | some node => node.payload.branchId = readerBranch

end Board

end Inbox
end PhysHarness
