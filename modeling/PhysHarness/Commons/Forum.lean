import PhysHarness.Commons.Inbox
import PhysHarness.Lib.Transition

/-!
The inboxes as a system: readers follow threads, get deliveries and acknowledge them.

A reader follows at most 100 threads. A reader at the cap that is to follow a new thread gives up the
thread of a closed node, or of a node that it neither wrote nor works on. Every step is one transaction,
and the calls of all readers interleave with each other and with the posts of other parts of the service.
-/
namespace PhysHarness
namespace Inbox

open Outcome

/-! ### Subscriptions -/

/-- The project, the experiment and the key of a reader. -/
abbrev ReaderId := ProjectId × Id × String

/-- The inboxes, and the branches that wear the referee's hat. -/
structure Forum extends Mail where
  referees : List Id := []

def Subscription.reader (row : Row Subscription) : ReaderId :=
  (row.projectId, row.payload.experimentId, row.payload.readerKey)

/-- The reader and the topic of a row. -/
def Subscription.slot (row : Row Subscription) : ReaderId × Id :=
  (Subscription.reader row, row.payload.topicId)

/-- `_discussion_max_sequence` -/
def Mail.maxSequence (mail : Mail) : Nat := (mail.events.map Event.sequence).foldr max 0

/-- `_event`, under the next sequence. -/
def Mail.logged (mail : Mail) (projectId : ProjectId) (aggregateId : Id) (kind : EventKind) : Mail :=
  { mail with events := mail.events ++ [⟨mail.maxSequence + 1, projectId, aggregateId, kind⟩] }

def branchKey (branchId : Id) : String := "branch:" ++ branchId

namespace Forum

/-- `is_referee_branch` -/
def isReferee (forum : Forum) (branchId : Option Id) : Bool := branchId.any (· ∈ forum.referees)

/-- The active subscriptions of a reader. -/
def following (forum : Forum) (reader : ReaderId) : List (Row Subscription) :=
  forum.subscriptions.filter fun row => Subscription.reader row = reader && row.payload.subscribed

def prior (forum : Forum) (slot : ReaderId × Id) : Option (Row Subscription) :=
  forum.subscriptions.find? fun row => Subscription.slot row = slot

/-- The row of a slot is replaced, or inserted where there is none. -/
def writeSubscription (forum : Forum) (reader : ReaderId) (topicId : Id) (subscribed : Bool)
    (actor : Principal) : Forum :=
  let start := forum.maxSequence
  let subscriptions := match forum.prior (reader, topicId) with
    | some _ => forum.subscriptions.replaceF fun row =>
      if Subscription.slot row = (reader, topicId) then
        some (row.replace { row.payload with
          subscribed
          startSequence := if subscribed then start else row.payload.startSequence })
      else none
    | none => forum.subscriptions ++
      [{ projectId := actor.projectId
         payload := ⟨reader.2.1, reader.2.2, topicId, subscribed, start⟩ }]
  { forum with
    toMail := { forum.toMail with subscriptions }.logged actor.projectId topicId
      (.other "discussion.subscription_changed") }

/-- The key of a branch's reader, or of the actor's own. -/
def subscriberKey (branchId : Option Id) (actor : Principal) : Except Failure String :=
  match branchId with
  | some id => .ok (branchKey id)
  | none => readerKey actor

/-- `_set_subscription` -/
def setSubscription (forum : Forum) (topicId : Id) (topic : Row Topic) (branchId : Option Id)
    (subscribed : Bool) (actor : Principal) : Except Failure Forum := do
  require (subscribed = true → forum.isReferee (branchId.or actor.branchId) = false)
    (.refuse "REFEREE_ISOLATED" "A referee branch follows no discussion thread." 403 false
      "Read the assigned node's thread with commons_read.")
  let key ← subscriberKey branchId actor
  let reader := (topic.projectId, topic.payload.experimentId, key)
  if (forum.prior (reader, topicId)).map (fun row => row.payload.subscribed) = some subscribed then
    return forum
  else
    require (subscribed = true → (forum.following reader).length < maxSubscriptions)
      (.refuse "SUBSCRIPTION_LIMIT" "A reader may subscribe to at most 100 topics." 422)
    return forum.writeSubscription reader topicId subscribed actor

/-! ### Best-effort subscriptions -/

theorem platform_scoped : Role.operator = .agent → (none : Option Id).isSome = true :=
  fun agent => by cases agent

theorem platform_unscoped : false = true → Role.operator = .agent ∧ (none : Option Id) = none :=
  fun ruled => by cases ruled

theorem platform_branchless : (none : Option Id).isSome = true → (none : Option Id).isSome = true := id

/-- `_platform` -/
def platformPrincipal (projectId : ProjectId) : Principal where
  id := platform
  projectId
  role := .operator
  agentScoped := platform_scoped
  orchestratorUnscoped := platform_unscoped
  branchScoped := platform_branchless

def trySubscribe (forum : Forum) (topicId : Id) (topic : Row Topic) (branchId : Id)
    (writer : Principal) : Except Failure (Bool × Forum) :=
  match forum.setSubscription topicId topic (some branchId) true writer with
  | .ok after => .ok (true, after)
  | .error failure =>
    if failure.code? = some "SUBSCRIPTION_LIMIT" then .ok (false, forum) else .error failure

/-- The nodes that the branch holds live claims on, as `_live_claim_rows` lists them. -/
def claimedNodes (board : Board) (now : Time) (projectId : ProjectId) (experimentId branchId : Id) :
    List Id :=
  let live := board.claims.select fun _ row =>
    row.projectId = projectId && row.payload.experimentId = experimentId &&
      !row.payload.released && decide (now < row.payload.expiresAt) && row.payload.branchId = branchId
  ((live.insertionSort fun first second => first.1 ≤ second.1).take maxLiveClaims).map fun row =>
    row.2.payload.nodeId

/-- The node whose thread a topic of the experiment is. -/
def threadNode (board : Board) (projectId : ProjectId) (experimentId topicId : Id) : Option Id :=
  match board.topics.find topicId with
  | none => none
  | some topic =>
    if topic.projectId = projectId ∧ topic.payload.experimentId = experimentId then
      topic.payload.nodeId
    else none

/-- `rank`: 0 for a closed node, 1 for another branch's unclaimed open node. -/
def rank (board : Board) (projectId : ProjectId) (claimed : List Id) (branchId nodeId : Id) :
    Option Nat :=
  match board.nodes.find nodeId with
  | none => none
  | some node =>
    if node.projectId ≠ projectId then none
    else if isOpen node.payload.status = false then some 0
    else if node.payload.branchId ≠ some branchId ∧ nodeId ∉ claimed then some 1
    else none

/-- The subscriptions that a reader may lose, with their tiers. -/
def candidates (forum : Forum) (now : Time) (projectId : ProjectId) (experimentId branchId : Id) :
    List (Nat × Row Subscription) :=
  let claimed := claimedNodes forum.board now projectId experimentId branchId
  ((forum.following (projectId, experimentId, branchKey branchId)).take (maxSubscriptions + 1)).filterMap
    fun row =>
      match threadNode forum.board projectId experimentId row.payload.topicId with
      | none => none
      | some nodeId =>
        (rank forum.board projectId claimed branchId nodeId).map fun tier => (tier, row)

/-- A lower tier first, and the earlier start first within one. -/
def older (first second : Nat × Row Subscription) : Bool :=
  first.1 < second.1 ||
    (first.1 = second.1 && first.2.payload.startSequence ≤ second.2.payload.startSequence)

/-- `_release_evictable_thread` -/
def releaseEvictableThread (forum : Forum) (now : Time) (experimentId branchId : Id)
    (writer : Principal) : Except Failure (Bool × Forum) :=
  match ((forum.candidates now writer.projectId experimentId branchId).insertionSort
      fun first second => older first second).head? with
  | none => return (false, forum)
  | some oldest => do
    let topicId := oldest.2.payload.topicId
    let topic ← orThrow (forum.board.topics.find topicId) (.internal "KeyError: topic")
    let released ← forum.setSubscription topicId topic (some branchId) false writer
    return (true, released)

/-- The thread of the goal is only read on request. -/
def goalThread (board : Board) (topic : Row Topic) : Bool :=
  (topic.payload.nodeId.bind board.nodes.find).any fun node => node.payload.nodeType = .goal

/-- `_auto_subscribe` -/
def autoSubscribe (forum : Forum) (now : Time) (topicId branchId : Option Id) (actor : Principal) :
    Except Failure (Bool × Forum) :=
  match topicId, branchId with
  | some topicId, some branchId =>
    if forum.isReferee (some branchId) then return (false, forum)
    else
      match forum.board.topics.find topicId with
      | none => return (false, forum)
      | some topic =>
        if goalThread forum.board topic then return (false, forum)
        else do
          let writer :=
            if actor.branchId = some branchId then actor else platformPrincipal topic.projectId
          let (subscribed, tried) ← forum.trySubscribe topicId topic branchId writer
          if subscribed then return (true, tried)
          else
            let (released, freed) ←
              tried.releaseEvictableThread now topic.payload.experimentId branchId writer
            if released then freed.trySubscribe topicId topic branchId writer
            else return (false, freed)
  | _, _ => return (false, forum)

/-- `subscribe_discussion` -/
def subscribeDiscussion [ContentHash] (forum : Forum) (topicId : Id) (subscribed : Bool)
    (actor : Principal) : Except Failure Forum := do
  researchRole actor
  let topic ← forum.board.discussionTopic topicId actor
  let key ← readerKey actor
  let experimentId := topic.payload.experimentId
  let reader := (forum.readers.find (actor.projectId, experimentId, key)).getD {}
  require (reader.pendingDeliveryId = none)
    (.refuse "DELIVERY_PENDING"
      "Acknowledge the outstanding delivery before changing subscriptions.")
  { forum with toMail := setReader forum.toMail actor experimentId key reader }.setSubscription topicId
    topic none subscribed actor

end Forum

/-! ### Acknowledgements -/

def Delivery.reader (row : Row Delivery) : ReaderId :=
  (row.projectId, row.payload.experimentId, row.payload.readerKey)

/-- What the reader of an acknowledged delivery is told. -/
structure Acknowledged where
  nextCursor : Nat
  deliveredCount : Nat
  withdrawnCount : Nat

def Item.isWithdrawal : Item → Bool
  | .withdrawal _ => true
  | _ => false

/-- Items whose source may no longer be read are replaced in the stored delivery. -/
def storeRevised (mail : Mail) (env : Env) (experimentId : Id) (actor : Principal) (key : String)
    (deliveryId : Id) (row : Row Delivery) (revised : List Item × List Withdrawn) : Mail :=
  if revised.2.isEmpty then mail
  else
    let recorded := recordWithdrawals env actor experimentId key deliveryId mail revised.2
    { recorded with
      deliveries := recorded.deliveries.put deliveryId
        (row.replace { row.payload with items := revised.1 }) }

section
variable [ContentHash]

/-- The first transaction of an acknowledgement: whether the pending delivery had to be changed. -/
def sanitizePending (mail : Mail) (env : Env) (experimentId deliveryId : Id) (actor : Principal) :
    Except Failure (Bool × Mail) := do
  researchRole actor
  let experiment ← mail.board.discussionExperiment experimentId actor
  mail.board.core.checkWorkerEffects env.effects env.now actor
  let key ← readerKey actor
  let reader := (actor.projectId, experimentId, key)
  let pendingId := (mail.readers.find reader).bind Reader.pendingDeliveryId
  match (mail.deliveries.find deliveryId).filter fun row =>
      pendingId = some deliveryId && Delivery.reader row = reader with
  | none => return (false, mail)
  | some row => do
    let revised ← sanitizeDelivery mail.board experimentId experiment.payload actor row.payload.items
    return (!revised.2.isEmpty, storeRevised mail env experimentId actor key deliveryId row revised)

/-- The second transaction of an acknowledgement, when the first one changed nothing. -/
def acknowledge (mail : Mail) (experimentId deliveryId : Id) (actor : Principal) :
    Except Failure (Acknowledged × Mail) := do
  let experiment ← mail.board.discussionExperiment experimentId actor
  let key ← readerKey actor
  let current :=
    Failure.refuse "DELIVERY_MISMATCH" "Only the current delivered batch can be acknowledged."
  let reader ← orThrow (mail.readers.find (actor.projectId, experimentId, key)) current
  require (reader.pendingDeliveryId = some deliveryId) current
  let changed := Failure.refuse "DELIVERY_MISMATCH" "Delivery identity or sequence changed."
  let row ← orThrow (mail.deliveries.find deliveryId) changed
  require (Delivery.reader row = (actor.projectId, experimentId, key) ∧
    row.payload.startSequence = reader.ackSequence ∧ row.payload.acknowledged = false) changed
  let revised ← sanitizeDelivery mail.board experimentId experiment.payload actor row.payload.items
  require (revised.2.isEmpty = true)
    (.refuse "DELIVERY_CHANGED"
      "The pending delivery changed. Read and persist it before acknowledgement.")
  let acknowledged := { mail with
    deliveries := mail.deliveries.put deliveryId
      (row.replace { row.payload with acknowledged := true }) }
  let moved := setReader acknowledged actor experimentId key
    { ackSequence := row.payload.endSequence, pendingDeliveryId := none }
  return (
    { nextCursor := row.payload.endSequence
      deliveredCount := revised.1.countP fun item => !item.isWithdrawal
      withdrawnCount := revised.1.countP Item.isWithdrawal },
    moved.logged actor.projectId deliveryId (.other "discussion.delivery_acknowledged"))

end

/-! ### The system -/

/-- A transaction of a reader, or of another part of the service. -/
inductive ForumLabel where
  | updates (env : Env) (experimentId : Id) (actor : Principal) (after : Option Int) (limit : Int)
  | sanitize (env : Env) (experimentId deliveryId : Id) (actor : Principal)
  | acknowledge (experimentId deliveryId : Id) (actor : Principal)
  | subscribe (topicId : Id) (subscribed : Bool) (actor : Principal)
  | autoSubscribe (now : Time) (topicId branchId : Option Id) (actor : Principal)
  | elsewhere (board : Board) (referees : List Id) (events : List Event)

/-- A refused transaction leaves everything as it was. -/
def Forum.step [ContentHash] (forum : Forum) : ForumLabel → Forum
  | .updates env experimentId actor after limit =>
    match discussionUpdates forum.toMail env experimentId actor after limit with
    | .ok (_, mail) => { forum with toMail := mail }
    | .error _ => forum
  | .sanitize env experimentId deliveryId actor =>
    match sanitizePending forum.toMail env experimentId deliveryId actor with
    | .ok (_, mail) => { forum with toMail := mail }
    | .error _ => forum
  | .acknowledge experimentId deliveryId actor =>
    match Inbox.acknowledge forum.toMail experimentId deliveryId actor with
    | .ok (_, mail) => { forum with toMail := mail }
    | .error _ => forum
  | .subscribe topicId subscribed actor =>
    match forum.subscribeDiscussion topicId subscribed actor with
    | .ok after => after
    | .error _ => forum
  | .autoSubscribe now topicId branchId actor =>
    match forum.autoSubscribe now topicId branchId actor with
    | .ok (_, after) => after
    | .error _ => forum
  | .elsewhere board referees events =>
    { forum with board, referees, events := forum.events ++ events }

/-- The events that deliveries are made of. They commit in the order of their sequences. -/
def EventKind.delivered : EventKind → Bool
  | .postCreated .. | .messageCreated _ => true
  | _ => false

/-- The log grows by events under new sequences, and posts and messages come after every event. -/
structure Grows (log later : List Event) : Prop where
  appended : ∃ events, later = log ++ events ∧ ∀ event ∈ events, event.kind.delivered = true →
    ∀ old ∈ log, old.sequence < event.sequence
  numbered : (∀ event ∈ log, 0 < event.sequence) → ∀ event ∈ later, 0 < event.sequence
  distinct : (log.map Event.sequence).Nodup → (later.map Event.sequence).Nodup

/-- The log grows by events of other kinds only. -/
structure Quiet (log later : List Event) : Prop extends Grows log later where
  silent : ∀ event ∈ later, event.kind.delivered = true → event ∈ log

/-- A post carries the sequence of the event that announced it. -/
def Sequenced (board : Board) (events : List Event) : Prop :=
  ∀ event ∈ events, ∀ owner sourceId, event.kind = .postCreated owner sourceId →
    ∀ post, board.posts.find sourceId = some post → post.payload.sequence = event.sequence

/-- What the rest of the service keeps to: a topic is followed within its project, the log only grows,
and a branch wears the referee's hat from its creation on. -/
def ForumLabel.Kept (forum : Forum) : ForumLabel → Prop
  | .autoSubscribe _ topicId _ actor => ∀ id ∈ topicId, ∀ topic, forum.board.topics.find id = some topic →
    topic.projectId = actor.projectId
  | .elsewhere board referees events => Grows forum.events (forum.events ++ events) ∧
    Sequenced board (forum.events ++ events) ∧
    ∀ branchId ∈ referees, branchId ∉ forum.referees →
      ∀ row ∈ forum.subscriptions, row.payload.readerKey ≠ branchKey branchId
  | _ => True

/-- The state after the transactions, from the empty one. -/
def Forum.reached [ContentHash] (labels : List ForumLabel) : Forum :=
  Transition.run Forum.step {} labels

def Forum.Kept [ContentHash] (labels : List ForumLabel) : Prop :=
  Transition.Along Forum.step ForumLabel.Kept ({} : Forum) labels

/-! ### What the transactions of a delivery do -/

section
variable [ContentHash] {mail after : Mail} {env : Env} {experimentId deliveryId : Id} {actor : Principal}
  {cursor : Option Int} {limit : Int} {key : String}

/-- A call shows the pending delivery, or does nothing, or delivers what it scanned. -/
theorem discussionUpdates_ok {update : Update}
    (done : discussionUpdates mail env experimentId actor cursor limit = .ok (update, after)) :
    ∃ experiment key reader,
      openReader mail env experimentId actor cursor limit = .ok (experiment, key, reader) ∧
      ((∃ pendingId row revised, reader.pendingDeliveryId = some pendingId ∧
          mail.deliveries.find pendingId = some row ∧
          Delivery.reader row = (actor.projectId, experimentId, key) ∧
          sanitizeDelivery mail.board experimentId experiment.payload actor row.payload.items =
            .ok revised ∧
          after = storeRevised (setReader mail actor experimentId key reader) env experimentId actor key
            pendingId row revised) ∨
        reader.pendingDeliveryId = none ∧ ∃ clauses,
          deliveryClauses mail experimentId actor key reader.ackSequence = .ok clauses ∧
          deliver (setReader mail actor experimentId key reader) env experimentId experiment.payload
            actor key reader limit (scanned mail actor clauses) = .ok (update, after)) := by
  simp only [discussionUpdates, bind_ok] at done
  obtain ⟨⟨experiment, key, reader⟩, opened, done⟩ := done
  refine ⟨experiment, key, reader, opened, ?_⟩
  dsimp only at done
  split at done
  next pendingId pending =>
    left
    simp only [redeliver, bind_ok, orThrow_ok, require_ok] at done
    obtain ⟨row, found, -, ⟨project, named, owner⟩, revised, sanitized, done⟩ := done
    refine ⟨pendingId, row, revised, pending, found, ?_, sanitized, ?_⟩
    · rw [Delivery.reader, project, named, owner]
    · unfold storeRevised
      split at done
      next unchanged =>
        rw [if_pos unchanged]
        exact (Prod.mk.inj (Except.ok.inj done)).2.symm
      next changed =>
        rw [if_neg changed]
        exact (Prod.mk.inj (Except.ok.inj done)).2.symm
  next idle =>
    right
    refine ⟨idle, ?_⟩
    rw [bind_ok] at done
    obtain ⟨clauses, made, done⟩ := done
    refine ⟨clauses, made, ?_⟩
    split at done
    next empty =>
      -- without a clause nothing is scanned
      obtain rfl := List.isEmpty_iff.mp empty
      rw [← done]
      have nothing : scanned mail actor [] = [] := by simp [scanned]
      rw [nothing, deliver, collect, ok_then rfl]
      simp
    next => exact done

/-- Without items the cursor passes the skipped events; with items there is a new pending delivery. -/
theorem deliver_ok {experiment : Experiment} {reader : Reader} {events : List Event} {update : Update}
    (done : deliver mail env experimentId experiment actor key reader limit events =
      .ok (update, after)) :
    ∃ batch, collect (handle mail.board env.now experimentId experiment actor) limit events
        { processed := reader.ackSequence } = .ok batch ∧ update.nextCursor = batch.processed ∧
      ((batch.items = [] ∧ after = if reader.ackSequence < batch.processed then
          setReader mail actor experimentId key { reader with ackSequence := batch.processed }
        else mail) ∨
      (batch.items ≠ [] ∧ mail.deliveries.find (env.newId 0) = none ∧ ∃ withdrawn,
        after = setReader (recordWithdrawals env actor experimentId key (env.newId 0)
          { mail with
            deliveries := mail.deliveries.put (env.newId 0)
              { projectId := actor.projectId
                payload :=
                  { experimentId, readerKey := key, startSequence := reader.ackSequence
                    endSequence := batch.processed, items := urgentFirst batch.items } } }
          withdrawn) actor experimentId key { reader with pendingDeliveryId := some (env.newId 0) })) := by
  simp only [deliver, bind_ok] at done
  obtain ⟨batch, collected, done⟩ := done
  refine ⟨batch, collected, ?_⟩
  split at done
  next empty =>
    have nothing := List.isEmpty_iff.mp empty
    split at done
    next ahead =>
      obtain ⟨rfl, rfl⟩ := Prod.mk.inj (Except.ok.inj done)
      exact ⟨rfl, .inl ⟨nothing, (if_pos ahead).symm⟩⟩
    next level =>
      obtain ⟨rfl, rfl⟩ := Prod.mk.inj (Except.ok.inj done)
      exact ⟨rfl, .inl ⟨nothing, (if_neg level).symm⟩⟩
  next filled =>
    simp only [bind_ok, insertNew_ok, pure_ok] at done
    obtain ⟨deliveries, ⟨fresh, rfl⟩, done⟩ := done
    obtain ⟨rfl, rfl⟩ := Prod.mk.inj done
    exact ⟨rfl, .inr ⟨fun none => filled (List.isEmpty_iff.mpr none), fresh, _, rfl⟩⟩

/-- The pending delivery of the reader is looked through, or nothing is. -/
theorem sanitizePending_ok {changed : Bool}
    (done : sanitizePending mail env experimentId deliveryId actor = .ok (changed, after)) :
    after = mail ∨ ∃ experiment key row revised,
      mail.deliveries.find deliveryId = some row ∧
      Delivery.reader row = (actor.projectId, experimentId, key) ∧
      sanitizeDelivery mail.board experimentId experiment actor row.payload.items = .ok revised ∧
      after = storeRevised mail env experimentId actor key deliveryId row revised := by
  simp only [sanitizePending, bind_ok] at done
  obtain ⟨-, -, experiment, -, -, -, key, -, done⟩ := done
  split at done
  · exact .inl (Prod.mk.inj (Except.ok.inj done)).2.symm
  next row kept =>
    right
    obtain ⟨found, owned⟩ := Option.filter_eq_some_iff.mp kept
    simp only [Bool.and_eq_true, decide_eq_true_eq] at owned
    simp only [bind_ok, pure_ok] at done
    obtain ⟨revised, sanitized, same⟩ := done
    exact ⟨experiment.payload, key, row, revised, found, owned.2, sanitized,
      (Prod.mk.inj same).2.symm⟩

/-- The current delivery of the reader is acknowledged as it stands. -/
theorem acknowledge_ok {told : Acknowledged}
    (done : acknowledge mail experimentId deliveryId actor = .ok (told, after)) :
    ∃ key reader row,
      readerKey actor = .ok key ∧
      mail.readers.find (actor.projectId, experimentId, key) = some reader ∧
      reader.pendingDeliveryId = some deliveryId ∧ mail.deliveries.find deliveryId = some row ∧
      Delivery.reader row = (actor.projectId, experimentId, key) ∧
      row.payload.startSequence = reader.ackSequence ∧ row.payload.acknowledged = false ∧
      after = (setReader
          { mail with
            deliveries := mail.deliveries.put deliveryId
              (row.replace { row.payload with acknowledged := true }) }
          actor experimentId key
          { ackSequence := row.payload.endSequence, pendingDeliveryId := none }).logged
        actor.projectId deliveryId (.other "discussion.delivery_acknowledged") := by
  simp only [acknowledge, bind_ok, orThrow_ok, require_ok, pure_ok] at done
  obtain ⟨experiment, -, key, named, reader, seen, -, current, row, found, -, ⟨owned, start, open_⟩,
    revised, -, -, -, same⟩ := done
  exact ⟨key, reader, row, named, seen, current, found, owned, start, open_,
    (Prod.mk.inj same).2.symm⟩

end

end Inbox
end PhysHarness
