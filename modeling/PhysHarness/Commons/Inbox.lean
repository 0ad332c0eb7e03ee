import PhysHarness.Commons.Discussion
import PhysHarness.Lib.JsonSize

/-!
The inbox of a reader: bounded items, one pending delivery, and an acknowledged cursor.

A call scans the reader's events after its cursor. Each becomes an item, a notice of withdrawal, or is
skipped; the first batch that fits is delivered until it is acknowledged.
-/
namespace PhysHarness
namespace Inbox

open Outcome Clipping

def excerptBytes : Nat := 1024
def itemBytes : Nat := 2048
def batchBytes : Nat := 12000
def titleChars : Nat := 80
def scanEvents : Nat := 100
def maxSubscriptions : Nat := 100

/-! ### Items -/

/-- What an item of a node's thread has beside those of a topic. -/
structure ThreadPart where
  nodeId : Id
  title : Text
  urgent : Bool

structure PostItem where
  id : Id
  topicId : Id
  sequence : Nat
  kind : PostKind
  attributedTo : Id
  branchId : Option Id
  excerpt : Text := []
  truncated : Bool := false
  thread : Option ThreadPart := none

structure MessageItem where
  id : Id
  sequence : Nat
  attributedTo : Id
  senderBranchId : Id
  recipientBranchId : Id
  excerpt : Text := []
  truncated : Bool := false

inductive Item where
  | post (item : PostItem)
  | message (item : MessageItem)
  | withdrawal (sequence : Nat)

def ThreadPart.fields (thread : ThreadPart) : Fields :=
  [("node_id", .str thread.nodeId), ("node_title", .str (.ofList thread.title)),
    ("urgent", .bool thread.urgent)]

def PostItem.fields (item : PostItem) : Fields :=
  [("id", .str item.id), ("topic_id", .str item.topicId), ("sequence", .int item.sequence),
    ("post_kind", .str item.kind.text), ("attributed_to", .str item.attributedTo),
    ("branch_id", .ofOption item.branchId), ("excerpt", .str (.ofList item.excerpt)),
    ("truncated", .bool item.truncated), ("retrieval_post_id", .str item.id),
    ("retrieval_id", .str item.id), ("source_kind", .str "discussion_post"),
    ("evidence_status", .str "unverified_discussion")] ++
  match item.thread with
  | none => []
  | some thread => thread.fields

def MessageItem.fields (item : MessageItem) : Fields :=
  [("id", .str item.id), ("sequence", .int item.sequence), ("source_kind", .str "message"),
    ("attributed_to", .str item.attributedTo), ("branch_id", .str item.senderBranchId),
    ("recipient_branch_id", .str item.recipientBranchId), ("excerpt", .str (.ofList item.excerpt)),
    ("truncated", .bool item.truncated), ("retrieval_id", .str item.id),
    ("evidence_status", .str "attributed_idea")]

/-- `_withdrawal_notice` -/
def withdrawalNotice (sequence : Nat) : Fields :=
  [("id", .null), ("sequence", .int sequence), ("source_kind", .str "withdrawal"),
    ("excerpt", .str "An addressed update is no longer available to this branch."),
    ("truncated", .bool false), ("retrieval_id", .null), ("reason", .str "access_revoked"),
    ("evidence_status", .str "withdrawn_unreadable")]

def PostItem.json (item : PostItem) : Json := .obj item.fields
def MessageItem.json (item : MessageItem) : Json := .obj item.fields

def Item.json : Item → Json
  | post item => item.json
  | message item => item.json
  | withdrawal sequence => .obj (withdrawalNotice sequence)

def Item.sequence : Item → Nat
  | post item => item.sequence
  | message item => item.sequence
  | withdrawal sequence => sequence

/-- `item.get("urgent", False)` -/
def Item.urgent : Item → Bool
  | post { thread := some thread, .. } => thread.urgent
  | _ => false

/-! ### Excerpts -/

/-- `_bounded_excerpt`: the item with the longest excerpt that fits, by bisection. -/
def boundedExcerpt {ι : Type} (json : ι → Json) (candidate : Text → Bool → ι) (content : Text) :
    Except Failure ι :=
  -- decoding drops a character whose bytes were cut
  let text := clip Char.utf8Size excerptBytes content
  let bounded (length : Nat) : ι := candidate (text.take length) (text.take length ≠ content)
  let fits (length : Nat) : Bool := (json (bounded length)).size ≤ itemBytes
  if fits text.length then .ok (bounded text.length)
  else
    let low := bisect fits 0 (text.length - 1)
    if fits low then .ok (bounded low)
    else .error (.refuse "DELIVERY_BOUNDS" "Delivery metadata exceeds its byte bound.")

def Post.item (post : Post) (id : Id) (excerpt : Text) (truncated : Bool) : PostItem where
  id
  topicId := post.topicId
  sequence := post.sequence
  kind := post.kind
  attributedTo := post.attributedTo
  branchId := post.branchId
  excerpt
  truncated

/-- `_discussion_excerpt` -/
def discussionExcerpt (id : Id) (post : Post) : Except Failure PostItem :=
  boundedExcerpt PostItem.json (post.item id) post.content

def AddressedMessage.item (message : AddressedMessage) (id : Id) (sequence : Nat) (excerpt : Text)
    (truncated : Bool) : MessageItem where
  id
  sequence
  attributedTo := message.attributedTo
  senderBranchId := message.senderBranchId
  recipientBranchId := message.recipientBranchId
  excerpt
  truncated

/-- `_research_message_excerpt` -/
def researchMessageExcerpt (id : Id) (message : AddressedMessage) (sequence : Nat) :
    Except Failure MessageItem :=
  boundedExcerpt MessageItem.json (message.item id sequence) message.content

/-- The item of a thread with the excerpt that some bytes of the text hold. -/
def PostItem.cut (item : PostItem) (text : Text) (more : Bool) (raw : Nat) : PostItem :=
  let excerpt := clip Char.utf8Size raw text
  { item with excerpt, truncated := more || excerpt.length < text.length }

/-- The loop of `_node_thread_item`: cut the bytes to three quarters until the item fits. -/
def shrinkExcerpt (item : PostItem) (text : Text) (more : Bool) (raw : Nat) : Except Failure PostItem :=
  let candidate := item.cut text more raw
  if candidate.json.size ≤ itemBytes then .ok candidate
  else if raw = 0 then
    .error (.refuse "DELIVERY_BOUNDS" "Discussion excerpt exceeds its byte bound.")
  else shrinkExcerpt item text more (raw * 3 / 4)
termination_by raw

/-- What an item of a thread shows: the abstract, unless it is empty. -/
def Post.shown (post : Post) : Text :=
  match post.abstract with
  | none | some [] => post.content
  | some abstract => abstract

/-- There is a text behind the abstract. -/
def Post.more (post : Post) : Bool := post.abstract.isSome && post.abstract ≠ some post.content

variable [ContentHash]

/-- `_node_thread_item` -/
def nodeThreadItem (board : Board) (now : Time) (id : Id) (post : Post) (nodeId : Id)
    (actor : Principal) : Except Failure PostItem := do
  let item ← discussionExcerpt id { post with content := [] }
  let node ← orThrow (board.nodes.find nodeId) (.internal "AttributeError: payload")
  let thread : ThreadPart :=
    { nodeId, title := node.payload.title.take titleChars
      urgent := board.postUrgent now post nodeId actor }
  shrinkExcerpt { item with thread := some thread } post.shown post.more
    (min excerptBytes (Json.bytes post.shown))

/-! ### Events of a reader -/

inductive EventKind where
  | postCreated (experimentId postId : Id)
  | messageCreated (messageId : Id)
  | sourceWithdrawn (experimentId : Id) (eventSequence : Nat)
  | other (kind : String)
  deriving DecidableEq

structure Event where
  sequence : Nat
  projectId : ProjectId
  aggregateId : Id
  kind : EventKind
  deriving DecidableEq

structure Reader where
  ackSequence : Nat := 0
  pendingDeliveryId : Option Id := none
  deriving DecidableEq

structure Subscription where
  experimentId : Id
  readerKey : String
  topicId : Id
  subscribed : Bool
  startSequence : Nat

structure Withdrawn where
  id : Id
  sequence : Nat
  sourceKind : SourceKind

structure Withdrawal where
  experimentId : Id
  readerKey : String
  deliveryId : Id
  withdrawn : Withdrawn

structure Delivery where
  experimentId : Id
  readerKey : String
  startSequence : Nat
  endSequence : Nat
  items : List Item
  acknowledged : Bool := false

/-- The board with the event log and the inboxes of its readers. -/
structure Mail where
  board : Board := {}
  events : List Event := []
  subscriptions : List (Row Subscription) := []
  readers : Table (ProjectId × Id × String) Reader := ∅
  deliveries : Table Id (Row Delivery) := ∅
  withdrawals : Table Id (Row Withdrawal) := ∅

/-- What a call returns. -/
structure Update where
  deliveryId : Option Id
  items : List Item
  nextCursor : Nat
  redelivered : Bool

/-- `_discussion_reader_key` -/
def readerKey (actor : Principal) : Except Failure String :=
  if actor.role = .agent then
    match actor.branchId, actor.agentOrchestrator with
    | some branchId, false => .ok ("branch:" ++ branchId)
    | _, _ =>
      .error (.refuse "BRANCH_AUTHORITY" "A branch identity is required for discussions." 403)
  else .ok ("actor:" ++ actor.id)

/-- One filter of the scan, over the events after a sequence. -/
inductive Clause where
  | topic (experimentId topicId : Id) (after : Nat)
  | branch (branchId : Option Id) (after : Nat)

def Clause.admits : Clause → Event → Bool
  | topic experimentId topicId after, event =>
    event.aggregateId = topicId && decide (after < event.sequence) &&
      match event.kind with
      | .postCreated owner _ => owner = experimentId
      | _ => false
  | branch branchId after, event =>
    some event.aggregateId = branchId && decide (after < event.sequence) &&
      match event.kind with
      | .messageCreated _ => true
      | _ => false

/-- `_delivery_clauses` -/
def deliveryClauses (mail : Mail) (experimentId : Id) (actor : Principal) (key : String) (ack : Nat) :
    Except Failure (List Clause) := do
  let active := mail.subscriptions.filter fun row =>
    row.projectId = actor.projectId && row.payload.experimentId = experimentId &&
      row.payload.readerKey = key && row.payload.subscribed
  require (active.length ≤ maxSubscriptions)
    (.refuse "SUBSCRIPTION_LIMIT" "Reader subscriptions exceed the supported bound.")
  let starts := active.foldl
    (fun starts row => Dict.set starts row.payload.topicId row.payload.startSequence) []
  let topics := starts.map fun start => Clause.topic experimentId start.1 (max ack start.2)
  return topics ++ if actor.role = .agent then [.branch actor.branchId ack] else []

/-- The first events of the log that some clause admits, in their order. -/
def scanned (mail : Mail) (actor : Principal) (clauses : List Clause) : List Event :=
  ((mail.events.filter fun event =>
      event.projectId = actor.projectId && clauses.any fun clause => clause.admits event).insertionSort
    fun first second => first.sequence ≤ second.sequence).take scanEvents

/-! ### Deliveries -/

/-- `_push_skip`: a reader's own posts and statuses that are not urgent. -/
def pushSkip (post : Post) (urgent : Bool) (actor : Principal) : Bool :=
  (actor.branchId.isSome && post.branchId = actor.branchId) ||
    (post.platformStatus.isSome && !urgent)

/-- What the scan makes of an event. -/
inductive Handled where
  | skipped
  | shown (item : Item) (withdrawn : Option Withdrawn := none)

def withdraw (event : Event) (id : Id) (sourceKind : SourceKind) : Handled :=
  .shown (.withdrawal event.sequence) (some { id, sequence := event.sequence, sourceKind })

def handleMessage (board : Board) (experimentId : Id) (actor : Principal) (event : Event)
    (sourceId : Id) : Except Failure Handled := do
  if ← board.messageAccessible sourceId experimentId actor then
    let message ← board.researchMessage sourceId actor experimentId
    let item ← researchMessageExcerpt sourceId message.payload event.sequence
    return .shown (.message item)
  else return withdraw event sourceId .message

def handlePost (board : Board) (now : Time) (experimentId : Id) (experiment : Experiment)
    (actor : Principal) (event : Event) (sourceId : Id) : Except Failure Handled := do
  if ← board.postAccessible sourceId experimentId experiment actor then
    let post ← board.discussionPost sourceId actor
    let safePost ← board.discussionSafePost post actor
    let topic ← orThrow (board.topics.find safePost.topicId) (.internal "AttributeError: payload")
    match topic.payload.nodeId with
    | some nodeId =>
      let item ← nodeThreadItem board now sourceId safePost nodeId actor
      if experimentId ∈ board.societies ∧ pushSkip safePost (Item.post item).urgent actor then
        return .skipped
      else return .shown (.post item)
    | none =>
      let item ← discussionExcerpt sourceId safePost
      return .shown (.post item)
  else return withdraw event sourceId .discussionPost

/-- The body of the loop over the scanned events, up to the batch. -/
def handle (board : Board) (now : Time) (experimentId : Id) (experiment : Experiment)
    (actor : Principal) (event : Event) : Except Failure Handled :=
  match event.kind with
  | .messageCreated sourceId => handleMessage board experimentId actor event sourceId
  | .postCreated _ sourceId => handlePost board now experimentId experiment actor event sourceId
  | _ => .error (.internal "KeyError: post_id")

structure Batch where
  items : List Item := []
  withdrawn : List Withdrawn := []
  processed : Nat

/-- The loop over the scanned events, until the batch is full. -/
def collect (handle : Event → Except Failure Handled) (limit : Int) :
    List Event → Batch → Except Failure Batch
  | [], batch => .ok batch
  | event :: events, batch => do
    match ← handle event with
    | .skipped => collect handle limit events { batch with processed := event.sequence }
    | .shown item withdrawn =>
      let seen := batch.withdrawn ++ withdrawn.toList
      let items := batch.items ++ [item]
      if batchBytes < (Json.arr (items.map Item.json)).size then
        return { batch with withdrawn := seen }
      else if items.length = limit then
        return { items, withdrawn := seen, processed := event.sequence }
      else collect handle limit events { items, withdrawn := seen, processed := event.sequence }

/-- A stable sort with the urgent items first. -/
def urgentFirst (items : List Item) : List Item :=
  items.filter Item.urgent ++ items.filter fun item => !item.urgent

/-- `_record_withdrawal`, under the identifier of its audit record. -/
def recordWithdrawal (actor : Principal) (experimentId : Id) (key : String) (deliveryId : Id)
    (mail : Mail) (audit : Withdrawn × Id) : Mail :=
  { mail with
    withdrawals := mail.withdrawals.put audit.2
      { projectId := actor.projectId
        payload := { experimentId, readerKey := key, deliveryId, withdrawn := audit.1 } }
    events := mail.events ++
      [{ sequence := (mail.events.map Event.sequence).foldr max 0 + 1
         projectId := actor.projectId
         aggregateId := audit.2
         kind := .sourceWithdrawn experimentId audit.1.sequence }] }

/-- Each withdrawal under the next identifier, after the one of the delivery. -/
def recordWithdrawals (env : Env) (actor : Principal) (experimentId : Id) (key : String)
    (deliveryId : Id) (mail : Mail) (withdrawn : List Withdrawn) : Mail :=
  (withdrawn.zipIdx.map fun item => (item.1, env.newId (item.2 + 1))).foldl
    (recordWithdrawal actor experimentId key deliveryId) mail

def setReader (mail : Mail) (actor : Principal) (experimentId : Id) (key : String) (reader : Reader) :
    Mail :=
  { mail with readers := mail.readers.put (actor.projectId, experimentId, key) reader }

/-- `_sanitize_delivery`: the items whose source may still be read, and notices for the others. -/
def sanitizeDelivery (board : Board) (experimentId : Id) (experiment : Experiment)
    (actor : Principal) : List Item → Except Failure (List Item × List Withdrawn)
  | [] => .ok ([], [])
  | item :: items => do
    let source? := match item with
      | .post item => some (SourceKind.discussionPost, item.id)
      | .message item => some (SourceKind.message, item.id)
      | .withdrawal _ => none
    let accessible ← match source? with
      | none => .ok true
      | some (kind, id) => board.sourceAccessible kind id experimentId experiment actor
    let rest ← sanitizeDelivery board experimentId experiment actor items
    match source?, accessible with
    | some (sourceKind, id), false =>
      return (.withdrawal item.sequence :: rest.1,
        { id, sequence := item.sequence, sourceKind } :: rest.2)
    | _, _ => return (item :: rest.1, rest.2)

/-- The pending delivery is shown again. -/
def redeliver (mail : Mail) (env : Env) (experimentId : Id) (experiment : Experiment) (actor : Principal)
    (key : String) (pendingId : Id) : Except Failure (Update × Mail) := do
  let mismatch := Failure.refuse "DELIVERY_MISMATCH" "Pending delivery identity changed."
  let pending ← orThrow (mail.deliveries.find pendingId) mismatch
  require (pending.projectId = actor.projectId ∧ pending.payload.readerKey = key ∧
    pending.payload.experimentId = experimentId) mismatch
  let revised ← sanitizeDelivery mail.board experimentId experiment actor pending.payload.items
  let recorded := recordWithdrawals env actor experimentId key pendingId mail revised.2
  let update : Update :=
    { deliveryId := some pendingId, items := revised.1
      nextCursor := pending.payload.endSequence, redelivered := true }
  if revised.2.isEmpty then return (update, mail)
  else
    let row := pending.replace { pending.payload with items := revised.1 }
    return (update, { recorded with deliveries := recorded.deliveries.put pendingId row })

/-- A new delivery of the scanned events, or an advance past skipped ones. -/
def deliver (mail : Mail) (env : Env) (experimentId : Id) (experiment : Experiment)
    (actor : Principal) (key : String) (reader : Reader) (limit : Int) (events : List Event) :
    Except Failure (Update × Mail) := do
  let batch ← collect (handle mail.board env.now experimentId experiment actor) limit events
    { processed := reader.ackSequence }
  if batch.items.isEmpty then
    let update : Update :=
      { deliveryId := none, items := [], nextCursor := batch.processed, redelivered := false }
    if reader.ackSequence < batch.processed then
      return (update,
        setReader mail actor experimentId key { reader with ackSequence := batch.processed })
    else return (update, mail)
  else
    let items := urgentFirst batch.items
    let deliveryId := env.newId 0
    let deliveries ← insertNew mail.deliveries deliveryId
      { projectId := actor.projectId
        payload := { experimentId, readerKey := key, startSequence := reader.ackSequence
                     endSequence := batch.processed, items } }
    let delivered := { mail with deliveries }
    let handled := batch.withdrawn.filter fun withdrawn => withdrawn.sequence ≤ batch.processed
    let recorded := recordWithdrawals env actor experimentId key deliveryId delivered handled
    return (
      { deliveryId := some deliveryId, items, nextCursor := batch.processed, redelivered := false },
      setReader recorded actor experimentId key { reader with pendingDeliveryId := some deliveryId })

/-- The checks of a call, the reader's key and its row. -/
def openReader (mail : Mail) (env : Env) (experimentId : Id) (actor : Principal) (after : Option Int)
    (limit : Int) : Except Failure (Row Experiment × String × Reader) := do
  researchRole actor
  require (1 ≤ limit ∧ limit ≤ 10)
    (.refuse "INVALID_PAGE_SIZE" "Discussion update size is 1–10." 422)
  require (∀ cursor ∈ after, 0 ≤ cursor)
    (.refuse "INVALID_CURSOR" "Use a nonnegative event sequence cursor." 422)
  let key ← readerKey actor
  let experiment ← mail.board.discussionExperiment experimentId actor
  mail.board.core.checkWorkerEffects env.effects env.now actor
  let reader := (mail.readers.find (actor.projectId, experimentId, key)).getD {}
  require (∀ cursor ∈ after, cursor = reader.ackSequence)
    (.refuse "INVALID_CURSOR" "The update cursor must equal the acknowledged sequence.")
  return (experiment, key, reader)

/-- `discussion_updates` -/
def discussionUpdates (mail : Mail) (env : Env) (experimentId : Id) (actor : Principal)
    (after : Option Int) (limit : Int) : Except Failure (Update × Mail) := do
  let (experiment, key, reader) ← openReader mail env experimentId actor after limit
  -- the reader's row is there from its first call on
  let opened := setReader mail actor experimentId key reader
  match reader.pendingDeliveryId with
  | some pendingId => redeliver opened env experimentId experiment.payload actor key pendingId
  | none =>
    let clauses ← deliveryClauses mail experimentId actor key reader.ackSequence
    if clauses.isEmpty then
      return (
        { deliveryId := none, items := [], nextCursor := reader.ackSequence, redelivered := false },
        opened)
    else
      deliver opened env experimentId experiment.payload actor key reader limit
        (scanned mail actor clauses)

end Inbox
end PhysHarness
