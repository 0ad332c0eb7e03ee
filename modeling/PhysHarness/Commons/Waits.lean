import Mathlib.Data.List.MinMax
import PhysHarness.Commons.Graph
import PhysHarness.Lib.Outcome
import PhysHarness.Lib.Sequencer

/-!
Event waits of a research society, and the anchor of a request.

A task that waits for events names nodes and branches, ends its session, and is woken by the first news of
them. Event numbers are drawn at insertion and visible at the commit, so a number can become visible
after a later one. News is therefore measured from an anchor, which is read under the lock of the
experiment when the content of a request is captured: what commits later is news to the session even if it
commits before the session registers its wait. A wake note names the event that woke its session, and the
anchor marks that event as seen.

The waiting task is one fixed builder task; the other transactions of the store are any acts of the
journal. What other modules model is read: the lease and the experiment's activity, pending updates, the
delivery of a recruit's scope, and the long pole that a graph head has.
-/
namespace PhysHarness
namespace Waits

open Outcome Sequencer

def maxWatchIds : Nat := 100

/-- Past this many seen events, an anchor moves to the latest named event. -/
def maxSeenEvents : Nat := 20

/-- Debounces a burst of events into one wake. -/
def minSleepSeconds : Nat := 20

/-! ### Events -/

/-- The kinds that a wait reads, of the commons but for the posts of the discussion. -/
inductive EventKind where
  | nodeStatus | nodeClaim | edgeAdded | sourcePublished | nodeCreated | postCreated | leanStatementSet
  | other (kind : String)
  deriving DecidableEq

/-- `NODE_WATCH_KINDS` -/
def nodeWatchKinds : List EventKind := [.nodeStatus, .nodeClaim, .edgeAdded, .sourcePublished]

/-- `BRANCH_WATCH_KINDS` -/
def branchWatchKinds : List EventKind := [.nodeCreated, .nodeClaim, .sourcePublished, .postCreated]

/-- `LONG_POLE_KINDS` -/
def longPoleKinds : List EventKind := [.nodeStatus, .edgeAdded, .sourcePublished, .leanStatementSet]

/-- An event, with the fields of its payload that a wait reads. -/
structure WaitEvent where
  kind : EventKind
  aggregateId : Id
  experimentId : Option Id
  branchId : Option Id := none
  newClaimant : Bool := false
  rank : Option SourceRank := none
  previousRank : Option SourceRank := none
  deriving DecidableEq

namespace WaitEvent

/-- A rank compares as its number, and as 0 when there is none. -/
def rankValue (rank : Option SourceRank) : Nat := (rank.map SourceRank.value).getD 0

/-- Of claims only a new claimant's counts, and of publications only a first one or a rank increase. -/
def counts (event : WaitEvent) : Bool :=
  (event.kind ≠ .nodeClaim || event.newClaimant) &&
    (event.kind ≠ .sourcePublished || rankValue event.previousRank < rankValue event.rank)

/-- An event that a wait of the experiment can watch: on a node, or by a branch. Commands write it under
the lock of the experiment's row. -/
def locked (experimentId : Id) (event : WaitEvent) : Bool :=
  event.experimentId = some experimentId &&
    (event.kind ∈ nodeWatchKinds || event.kind ∈ branchWatchKinds && event.branchId.isSome)

/-- `_graph_events` and `_not_by`: an event by another branch or the platform that can move the long
pole. -/
def movesPole (event : WaitEvent) (experimentId : Id) : Bool :=
  event.experimentId = some experimentId && event.kind ∈ longPoleKinds

def notBy (event : WaitEvent) (branchId : Id) : Bool := event.branchId ≠ some branchId

end WaitEvent

/-- The visible events, in the order of their commits. -/
abbrev EventLog := List (Sequencer.Entry WaitEvent)

/-- The latest visible event that can move the long pole, or 0. -/
def graphHead (log : EventLog) (experimentId : Id) : Nat :=
  highest (log.filter fun entry => entry.item.movesPole experimentId)

/-- Another branch has changed the graph after the number. -/
def graphMoved (log : EventLog) (experimentId branchId : Id) (after : Nat) : Bool :=
  log.any fun entry => entry.item.movesPole experimentId && after < entry.number &&
    entry.item.notBy branchId

/-! ### Tickets and anchors -/

/-- What an agent's request can show. -/
structure RequestAnchor where
  eventSequence : Nat
  longPoleIds : Option (List Id)
  seenSequences : List Nat := []
  deriving DecidableEq

structure EventTicket where
  experimentId : Id
  taskId : Id
  branchId : Id
  watchNodeIds : List Id
  watchBranchIds : List Id
  afterSequence : Nat
  eventAfter : Nat
  seenSequences : List Nat
  longPoleIds : List Id
  requestedAt : Time
  deadlineAt : Time
  minSleepUntil : Time
  deriving DecidableEq

/-- The event is news for the wait once it lies behind the ticket and is not seen. -/
def EventTicket.watches (ticket : EventTicket) (event : WaitEvent) : Bool :=
  event.experimentId = some ticket.experimentId &&
    (event.kind ∈ nodeWatchKinds && event.aggregateId ∈ ticket.watchNodeIds ||
      event.kind ∈ branchWatchKinds && event.branchId.any (· ∈ ticket.watchBranchIds)) &&
    event.notBy ticket.branchId && event.counts

/-- `_watched_event`: the first event on a watched node or by a watched branch since the wait began, other
than the waiter's own. -/
def watchedEvent (ticket : EventTicket) (log : EventLog) : Option (Sequencer.Entry WaitEvent) :=
  (log.filter fun entry => ticket.watches entry.item && ticket.eventAfter < entry.number &&
    entry.number ∉ ticket.seenSequences).argmin Sequencer.Entry.number

/-- `_long_pole_moved`; `poleAt` answers `_long_pole_ids_at`. -/
def longPoleMoved (ticket : EventTicket) (log : EventLog) (poleAt : Nat → Except Failure (List Id)) :
    Except Failure Bool :=
  if graphMoved log ticket.experimentId ticket.branchId ticket.eventAfter = false then .ok false
  else do
    let ids ← poleAt (graphHead log ticket.experimentId)
    return ids.toFinset ≠ ticket.longPoleIds.toFinset

inductive WakeReason where
  | cancelled | targetVerified | scopeDelivered | timeout | minSleep | relevantUpdate | watchedEvent
  | longPoleChanged | waitError | waiting
  deriving DecidableEq

inductive WakeDetail where
  | event (kind : EventKind) (aggregateId : Id)
  | error (code : String)
  deriving DecidableEq

structure WakeStatus where
  ready : Bool
  reason : WakeReason
  detail : Option WakeDetail := none
  /-- The number of the named event. -/
  sequence : Option Nat := none
  deriving DecidableEq

/-- What a check of a wait reads beside the events. -/
structure Poll where
  now : Time
  /-- `_wait_ended` -/
  ended : Bool := false
  /-- The target has a verified receipt. -/
  verified : Bool := false
  /-- `_scope_delivered` -/
  delivered : Bool := false
  /-- `_pending_update` after the ticket's acknowledged position. -/
  pendingUpdate : Except Failure Bool := .ok false
  poleAt : Nat → Except Failure (List Id) := fun _ => .ok []

/-- The wake that names an event. -/
def namedStatus (entry : Sequencer.Entry WaitEvent) : WakeStatus where
  ready := true
  reason := .watchedEvent
  detail := some (.event entry.item.kind entry.item.aggregateId)
  sequence := some entry.number

/-- A check that is neither ended nor early looks for news. -/
def newsStatus (ticket : EventTicket) (log : EventLog) (poll : Poll) : Except Failure WakeStatus := do
  let update ← poll.pendingUpdate
  if update = true then .ok { ready := true, reason := .relevantUpdate }
  else
    match watchedEvent ticket log with
    | some entry => .ok (namedStatus entry)
    | none => do
      let moved ← longPoleMoved ticket log poll.poleAt
      return if moved then { ready := true, reason := .longPoleChanged }
        else { ready := false, reason := .waiting }

/-- A refusal wakes the waiter, which can see it for itself. Any other failure goes on. -/
def orWaitError : Except Failure WakeStatus → Except Failure WakeStatus
  | .error (.harness error) =>
    .ok { ready := true, reason := .waitError, detail := some (.error error.code) }
  | result => result

/-- `_event_wait_status` -/
def eventWaitStatus (ticket : EventTicket) (log : EventLog) (poll : Poll) : Except Failure WakeStatus :=
  if poll.ended then .ok { ready := true, reason := .cancelled }
  else if poll.verified then .ok { ready := true, reason := .targetVerified }
  else if poll.delivered then .ok { ready := true, reason := .scopeDelivered }
  else if ticket.deadlineAt ≤ poll.now then .ok { ready := true, reason := .timeout }
  else if poll.now < ticket.minSleepUntil then .ok { ready := false, reason := .minSleep }
  else orWaitError (newsStatus ticket log poll)

/-! ### Registration -/

/-- The waiting task. -/
structure Builder where
  taskId : Id
  experimentId : Id
  branchId : Id

inductive Watchable where
  | node (experimentId : Id)
  | branch (experimentId : Id) (referee : Bool)

def Watchable.experimentId : Watchable → Id
  | .node experimentId | .branch experimentId _ => experimentId

structure WaitRequest where
  watchIds : List Id
  timeoutSeconds : Int

/-- What the command reads in its transaction beside the events. -/
structure WaitReading where
  now : Time
  /-- The task of the bound worker effects. -/
  bound : Option Id
  status : TaskStatus
  fenced : Except Failure Unit
  /-- `_commons_experiment` -/
  active : Except Failure Unit
  watchable : Id → Option Watchable
  /-- The acknowledged position of the branch's reader, when there is one. -/
  ack : Option Nat
  poleAt : Nat → Except Failure (List Id)

def waitInvalid (message : String) : Failure := .refuse "EVENT_WAIT_INVALID" message

def waitScope : Failure :=
  .refuse "EVENT_WAIT_SCOPE" "Watch only nodes and branches of this experiment."

def refereeIsolated : Failure :=
  .refuse "REFEREE_ISOLATED" "Referee branches are isolated from other branches." 403 false
    "Discuss the node on its commons thread; the referee reads it there."

/-- `_guard_referee_branch`: only a referee watches its own branch. -/
def guardRefereeBranch (builder : Builder) (id : Id) : Watchable → Except Failure Unit
  | .branch _ true => require (id = builder.branchId) refereeIsolated
  | _ => .ok ()

/-- Put a watched record to the nodes or to the branches. -/
def listed (id : Id) (lists : List Id × List Id) : Watchable → List Id × List Id
  | .node _ => (id :: lists.1, lists.2)
  | .branch .. => (lists.1, id :: lists.2)

/-- The watched nodes and branches of the experiment, in the order of the request. -/
def watchLists (builder : Builder) (reading : WaitReading) : List Id → Except Failure (List Id × List Id)
  | [] => .ok ([], [])
  | id :: rest => do
    let found ← orThrow (reading.watchable id) waitScope
    require (found.experimentId = builder.experimentId) waitScope
    guardRefereeBranch builder id found
    let lists ← watchLists builder reading rest
    return listed id lists found

/-- The long pole that a wait compares with: the anchor's once another branch has changed the graph since.
Else any change since is the waiter's own, which is not news. -/
def waitPole (builder : Builder) (anchor : Option RequestAnchor) (log : EventLog) (eventAfter : Nat)
    (current : List Id) : List Id :=
  match anchor.bind RequestAnchor.longPoleIds with
  | some ids =>
    if graphMoved log builder.experimentId builder.branchId eventAfter then ids else current
  | none => current

/-- `request_event_wait`: the ticket of the registered wait. -/
def requestEventWait (builder : Builder) (anchor : Option RequestAnchor) (log : EventLog)
    (actor : Principal) (request : WaitRequest) (reading : WaitReading) : Except Failure EventTicket := do
  researchRole actor
  require (actor.role = .agent ∧ reading.bound = some builder.taskId ∧ 1 ≤ request.timeoutSeconds ∧
      request.timeoutSeconds ≤ 3600 ∧ request.watchIds.length ≤ maxWatchIds)
    (waitInvalid "A fenced task, a timeout of 1–3600 seconds and at most 100 ids are required.")
  reading.fenced
  require (reading.status = .running ∧ actor.branchId = some builder.branchId)
    (waitInvalid "Only the current task can wait.")
  reading.active
  let watched ← watchLists builder reading request.watchIds.reverse.dedup.reverse
  let current ← reading.poleAt (graphHead log builder.experimentId)
  let eventAfter := (anchor.map RequestAnchor.eventSequence).getD (highest log)
  let timeout := request.timeoutSeconds.toNat
  return {
    experimentId := builder.experimentId
    taskId := builder.taskId
    branchId := builder.branchId
    watchNodeIds := watched.1
    watchBranchIds := watched.2
    afterSequence := reading.ack.getD 0
    eventAfter
    seenSequences := (anchor.map RequestAnchor.seenSequences).getD []
    longPoleIds := waitPole builder anchor log eventAfter current
    requestedAt := reading.now
    deadlineAt := reading.now + timeout * Time.second
    minSleepUntil := reading.now + min minSleepSeconds timeout * Time.second }

/-! ### Sessions of the waiting task -/

/-- Why a session hands its task on. -/
inductive Handoff where
  | events (ticket : EventTicket)
  /-- A wait for tasks or for a peer. -/
  | wait
  /-- Any other reason, such as a full context. -/
  | rolls
  deriving DecidableEq

/-- `WAIT_REASONS` -/
def Handoff.waits : Handoff → Bool
  | .events _ | .wait => true
  | .rolls => false

/-- `handoff_intent` of the task. It authorises only the worker that recorded it. -/
structure Intent where
  handoff : Handoff
  current : Bool := true

/-- The anchor of a session whose wake note names an event. A long run of bare waits moves on to it. -/
def anchorOn (sequence : Nat) (seen : List Nat) : Option Nat → RequestAnchor
  | none => { eventSequence := sequence, longPoleIds := none, seenSequences := seen }
  | some named =>
    if maxSeenEvents < (seen ++ [named]).length then
      { eventSequence := named, longPoleIds := none }
    else
      { eventSequence := sequence, longPoleIds := none, seenSequences := seen ++ [named] }

/-- `_session_anchor`: what the first request of a session can show, or nothing when that is read now. A
session that is resumed mid-flight keeps its last request's anchor, and a natively woken wait its own. -/
def sessionAnchor (persisted : Option RequestAnchor) (woken : Option Handoff) (named : Option Nat)
    (recovering : Bool) : Option RequestAnchor :=
  if recovering = true ∧ persisted.isSome = true then persisted
  else
    match woken with
    | some (.events ticket) => some (anchorOn ticket.eventAfter ticket.seenSequences named)
    | some .wait => persisted.map fun anchor => anchorOn anchor.eventSequence anchor.seenSequences named
    | _ => none

/-- `event_anchor`, under the lock of the experiment. -/
def eventAnchor (builder : Builder) (log : EventLog) (poleAt : Nat → Except Failure (List Id)) :
    RequestAnchor where
  eventSequence := highest log
  longPoleIds := (poleAt (graphHead log builder.experimentId)).toOption

/-- For the proofs alone: what the requests of the task have shown to its agent. -/
structure Told where
  /-- What was visible when the content of the last request was captured. -/
  shown : EventLog := []
  /-- The events that wake notes have named. -/
  named : List Nat := []
  /-- How far the anchor was moved past events that no note has named. -/
  passed : Nat := 0

/-- What the next request can show: its anchor, and what is told once it is sent. -/
structure View where
  anchor : RequestAnchor
  told : Told

/-- The store's events and the waiting task. -/
structure Waiter (τ : Type) where
  journal : Journal τ WaitEvent := {}
  /-- `request_anchor` of the task. -/
  anchor : Option RequestAnchor := none
  /-- A session of the task was started. -/
  begun : Bool := false
  /-- A worker executes the session. -/
  live : Bool := false
  /-- The worker's `view`. -/
  view : Option View := none
  intent : Option Intent := none
  /-- The latest continuation ticket. -/
  ticket : Option Handoff := none
  /-- The ticket is the task's `ready_continuation`, and not consumed. -/
  issued : Bool := false
  /-- What a worker's check of the ticket returned, when it was ready. -/
  woken : Option WakeStatus := none
  told : Told := {}

inductive WaitLabel (τ : Type) where
  /-- Any transaction of the store acts. -/
  | act (act : Act τ WaitEvent)
  /-- The first session of the task starts. -/
  | start (poleAt : Nat → Except Failure (List Id))
  /-- A worker checks the ticket. -/
  | check (poll : Poll)
  /-- A worker consumes the ticket and starts its successor, natively or from portable notes. -/
  | resume (native : Bool) (notePole : List Id) (poleAt : Nat → Except Failure (List Id))
  /-- A worker resumes the session of a worker that is gone. -/
  | recover (native : Bool) (poleAt : Nat → Except Failure (List Id))
  /-- The session dispatches a tool call. -/
  | dispatch (poleAt : Nat → Except Failure (List Id))
  /-- The session sends its next request. -/
  | send
  | requestWait (actor : Principal) (request : WaitRequest) (reading : WaitReading)
  /-- The session, or its boundary, asks for a handoff that waits for no events. -/
  | requestHandoff (waits : Bool)
  /-- The session ends at its boundary, and its ticket is issued. -/
  | settle
  /-- The worker is gone. -/
  | crash

namespace Waiter

variable {τ : Type} (waiter : Waiter τ) (builder : Builder)

/-- The content of a request is captured. -/
def captured (poleAt : Nat → Except Failure (List Id)) : View where
  anchor := eventAnchor builder waiter.journal.committed poleAt
  told := { waiter.told with shown := waiter.journal.committed, passed := 0 }

/-- What is told once a wake note has named an event. -/
def toldOf (anchor : RequestAnchor) : Option Nat → Told
  | none => waiter.told
  | some named =>
    { waiter.told with
      named := waiter.told.named ++ [named]
      passed :=
        if named ∈ anchor.seenSequences then waiter.told.passed else max waiter.told.passed named }

/-- The view of a session whose anchor is not read now. -/
def carried (anchor : RequestAnchor) (named : Option Nat) : View where
  anchor := anchor
  told := waiter.toldOf anchor named

/-- `wake_note` shows the long pole to a natively woken wait. -/
def noted (notePole : Option (List Id)) (view : View) : View :=
  match notePole with
  | none => view
  | some ids => { view with anchor := { view.anchor with longPoleIds := some ids } }

/-- A session begins with a view. -/
def begin (view : View) : Waiter τ :=
  { waiter with live := true, begun := true, issued := false, woken := none, view := some view }

/-- A session begins with the view that it carries. Without one it reads its anchor now, and waits for the
lock. -/
def opens (poleAt : Nat → Except Failure (List Id)) (notePole : Option (List Id)) :
    Option View → Waiter τ
  | some view => waiter.begin (noted notePole view)
  | none =>
    if waiter.journal.holder.isNone then waiter.begin (noted notePole (waiter.captured builder poleAt))
    else waiter

/-- The number of the event that the wake names. -/
def wakeNumber : Option Nat := waiter.woken.bind WakeStatus.sequence

/-- The ticket may be consumed: an event wait was found ready. -/
def mayWake : Bool :=
  waiter.issued &&
    match waiter.ticket with
    | none => false
    | some (.events _) => waiter.woken.isSome
    | some _ => true

/-- A session that is run can call tools: its task has an anchor, since a request of it was sent. -/
def calls : Bool := waiter.live && waiter.anchor.isSome

/-- The ticket of a session that ends. An intent of a worker that is gone blocks it. -/
def nextTicket : Option Handoff :=
  match waiter.intent with
  | none => some .rolls
  | some intent => if intent.current then some intent.handoff else none

def check (poll : Poll) : Waiter τ :=
  match waiter.ticket with
  | some (.events ticket) =>
    match eventWaitStatus ticket waiter.journal.committed poll with
    | .ok status => { waiter with woken := if status.ready then some status else none }
    | .error _ => waiter
  | _ => waiter

def resume (native : Bool) (notePole : List Id) (poleAt : Nat → Except Failure (List Id)) : Waiter τ :=
  let woken := if native then waiter.ticket else none
  let anchor := sessionAnchor waiter.anchor woken waiter.wakeNumber false
  waiter.opens builder poleAt (if woken.any Handoff.waits then some notePole else none)
    (anchor.map fun anchor => waiter.carried anchor waiter.wakeNumber)

def recover (native : Bool) (poleAt : Nat → Except Failure (List Id)) : Waiter τ :=
  let woken := if native then waiter.ticket else none
  let anchor := sessionAnchor waiter.anchor woken waiter.wakeNumber true
  waiter.opens builder poleAt none (anchor.map fun anchor => waiter.carried anchor none)

/-- `anchor_request`: without a view nothing new was captured, and the last anchor stays. -/
def send : Waiter τ :=
  match waiter.view with
  | none => waiter
  | some view => { waiter with anchor := some view.anchor, view := none, told := view.told }

def requestWait (actor : Principal) (request : WaitRequest) (reading : WaitReading) : Waiter τ :=
  match requestEventWait builder waiter.anchor waiter.journal.committed actor request reading with
  | .ok ticket => { waiter with intent := some { handoff := .events ticket } }
  | .error _ => waiter

def settle : Waiter τ :=
  match waiter.nextTicket with
  | none => waiter
  | some handoff =>
    { waiter with
      ticket := some handoff
      issued := true
      intent := none
      live := false
      view := none
      woken := none }

/-- The worker is gone, and with it what its intent authorised. -/
def crash : Waiter τ :=
  { waiter with
    live := false
    view := none
    woken := none
    intent := waiter.intent.map fun intent => { intent with current := false } }

def step [DecidableEq τ] : WaitLabel τ → Waiter τ
  | .act act => { waiter with journal := waiter.journal.step (WaitEvent.locked builder.experimentId) act }
  | .start poleAt => if waiter.begun = true then waiter else waiter.opens builder poleAt none none
  | .check poll => if waiter.live = true then waiter else waiter.check poll
  | .resume native notePole poleAt =>
    if waiter.live = false ∧ waiter.mayWake = true then waiter.resume builder native notePole poleAt
    else waiter
  | .recover native poleAt =>
    if waiter.live = false ∧ waiter.begun = true ∧ waiter.issued = false then
      waiter.recover builder native poleAt
    else waiter
  | .dispatch poleAt =>
    -- The first tool call of a response captures what the next request can show.
    if waiter.calls = true ∧ waiter.view.isNone ∧ waiter.journal.holder.isNone then
      { waiter with view := some (waiter.captured builder poleAt) }
    else waiter
  | .send =>
    -- The boundary hands the session off before another request while its intent stands.
    if waiter.live = true ∧ waiter.intent.all (fun intent => !intent.current) then waiter.send else waiter
  | .requestWait actor request reading =>
    if waiter.calls = true ∧ waiter.journal.holder.isNone then
      waiter.requestWait builder actor request reading
    else waiter
  | .requestHandoff waits =>
    if waiter.calls = true then
      { waiter with intent := some { handoff := if waits then .wait else .rolls } }
    else waiter
  | .settle => if waiter.calls = true then waiter.settle else waiter
  | .crash => waiter.crash

end Waiter
end Waits
end PhysHarness
