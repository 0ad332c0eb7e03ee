import PhysHarness.Commons.Excerpts
import PhysHarness.Commons.Modules

/-!
# The inbox makes progress

An event is refused by the checks of its records, whatever its texts are, or it is shown or skipped. A
short item is smaller than a batch, so the first one is always taken, and a call that takes none has
skipped every event that it scanned.

## Main result

`inbox_progress`: a call refuses by the records of an event, or it delivers an item, or it advances the
cursor to the end of the scan; and every item is within its bound.
-/
namespace PhysHarness
namespace Inbox

open Outcome Clipping

/-! ### The checks of an event's records -/

section
variable [ContentHash]

def messageChecks (board : Board) (experimentId : Id) (actor : Principal) (sourceId : Id) :
    Except Failure Unit := do
  if ← board.messageAccessible sourceId experimentId actor then
    let _ ← board.researchMessage sourceId actor experimentId
    return ()
  else return ()

def postChecks (board : Board) (experimentId : Id) (experiment : Experiment) (actor : Principal)
    (sourceId : Id) : Except Failure Unit := do
  if ← board.postAccessible sourceId experimentId experiment actor then
    let post ← board.discussionPost sourceId actor
    let safePost ← board.discussionSafePost post actor
    let topic ← orThrow (board.topics.find safePost.topicId) (.internal "AttributeError: payload")
    match topic.payload.nodeId with
    | some nodeId =>
      let _ ← orThrow (board.nodes.find nodeId) (.internal "AttributeError: payload")
      return ()
    | none => return ()
  else return ()

/-- What an event's records are checked for, apart from its texts. -/
def recordChecks (board : Board) (experimentId : Id) (experiment : Experiment) (actor : Principal)
    (event : Event) : Except Failure Unit :=
  match event.kind with
  | .messageCreated sourceId => messageChecks board experimentId actor sourceId
  | .postCreated _ sourceId => postChecks board experimentId experiment actor sourceId
  | _ => .error (.internal "KeyError: post_id")

/-! ### What an item shows -/

/-- The item of an event: its excerpt is the longest prefix that fits, or the first cut that does. -/
inductive ItemOf (board : Board) (event : Event) : Item → Prop where
  | withdrawal : ItemOf board event (.withdrawal event.sequence)
  | message {sourceId : Id} {message : Row AddressedMessage} {excerpt : Text}
      (kind : event.kind = .messageCreated sourceId)
      (found : board.messages.find sourceId = some message)
      (longest : Longest (Fits MessageItem.json (message.payload.item sourceId event.sequence)
        message.payload.content) message.payload.content excerpt) :
      ItemOf board event (.message (message.payload.item sourceId event.sequence excerpt
        (excerpt ≠ message.payload.content)))
  | post {owner sourceId : Id} {post : Row Post} {excerpt : Text}
      (kind : event.kind = .postCreated owner sourceId)
      (found : board.posts.find sourceId = some post)
      (longest : Longest (Fits PostItem.json (post.payload.item sourceId) post.payload.content)
        post.payload.content excerpt) :
      ItemOf board event (.post (post.payload.item sourceId excerpt
        (excerpt ≠ post.payload.content)))
  | thread {owner sourceId : Id} {post : Row Post} {thread : ThreadPart} {cuts : Nat}
      (kind : event.kind = .postCreated owner sourceId)
      (found : board.posts.find sourceId = some post)
      (cut : FirstCut (post.payload.threadItem sourceId thread) post.payload.shown
        post.payload.more (min excerptBytes (Json.bytes post.payload.shown)) cuts) :
      ItemOf board event (.post ((post.payload.threadItem sourceId thread).cut post.payload.shown
        post.payload.more (quarters (min excerptBytes (Json.bytes post.payload.shown)) cuts)))

/-- The identifiers, authors and sequences of a board and its log are short. -/
structure Mail.ShortAttribution (mail : Mail) : Prop where
  posts : ∀ id row, mail.board.posts.find id = some row → row.payload.ShortAttribution id
  messages : ∀ id row, mail.board.messages.find id = some row → row.payload.ShortAttribution id
  threads : ∀ id row, mail.board.topics.find id = some row →
    ∀ nodeId ∈ row.payload.nodeId, Short identifierBytes nodeId
  events : ∀ event ∈ mail.events, event.sequence < 10 ^ sequenceDigits

variable {mail : Mail} {now : Time} {experimentId : Id} {experiment : Experiment}
  {actor : Principal} {event : Event}

/-- A check of the records decides an event: its failure is the event's, and without one there is an
item or a skip. -/
def Decided (mail : Mail) (event : Event) (checks : Except Failure Unit)
    (handled : Except Failure Handled) : Prop :=
  match checks with
  | .error failure => handled = .error failure
  | .ok _ => handled = .ok .skipped ∨
      ∃ item withdrawn, handled = .ok (.shown item withdrawn) ∧ ItemOf mail.board event item

theorem researchMessage_row {board : Board} {sourceId : Id} {message : Row AddressedMessage}
    (read : board.researchMessage sourceId actor experimentId = .ok message) :
    board.messages.find sourceId = some message := by
  simp only [Board.researchMessage, bind_ok, require_ok, pure_ok] at read
  obtain ⟨row, got, -, -, -, -, -, -, rfl⟩ := read
  exact (Db.getRow_ok.mp got).1

theorem discussionPost_row {board : Board} {sourceId : Id} {post : Row Post}
    (read : board.discussionPost sourceId actor = .ok post) :
    board.posts.find sourceId = some post := by
  simp only [Board.discussionPost, bind_ok, pure_ok] at read
  obtain ⟨row, got, -, -, rfl⟩ := read
  exact (Db.getRow_ok.mp got).1

theorem discussionSafePost_payload {board : Board} {post : Row Post} {safe : Post}
    (read : board.discussionSafePost post actor = .ok safe) : safe = post.payload := by
  simp only [Board.discussionSafePost, bind_ok, pure_ok] at read
  obtain ⟨-, -, rfl⟩ := read
  rfl

theorem handleMessage_decided (short : mail.ShortAttribution) (logged : event ∈ mail.events)
    {sourceId : Id} (kind : event.kind = .messageCreated sourceId) :
    Decided mail event (messageChecks mail.board experimentId actor sourceId)
      (handleMessage mail.board experimentId actor event sourceId) := by
  unfold messageChecks handleMessage
  cases accessible : mail.board.messageAccessible sourceId experimentId actor with
  | error failure => exact rfl
  | ok readable =>
    cases readable with
    | false => exact .inr ⟨_, _, rfl, .withdrawal⟩
    | true =>
      cases read : mail.board.researchMessage sourceId actor experimentId with
      | error failure => simp only [Decided, bind, Except.bind, if_true]
      | ok message =>
        have found := researchMessage_row read
        obtain ⟨excerpt, made, longest⟩ := researchMessageExcerpt_longest
          (short.messages _ _ found) (short.events _ logged)
        simp only [Decided, bind, Except.bind, if_true, made]
        exact .inr ⟨_, _, rfl, .message kind found longest⟩

theorem handlePost_decided (short : mail.ShortAttribution) {owner sourceId : Id}
    (kind : event.kind = .postCreated owner sourceId) :
    Decided mail event (postChecks mail.board experimentId experiment actor sourceId)
      (handlePost mail.board now experimentId experiment actor event sourceId) := by
  unfold postChecks handlePost
  cases accessible : mail.board.postAccessible sourceId experimentId experiment actor with
  | error failure => exact rfl
  | ok readable =>
    cases readable with
    | false => exact .inr ⟨_, _, rfl, .withdrawal⟩
    | true =>
      cases read : mail.board.discussionPost sourceId actor with
      | error failure => simp only [Decided, bind, Except.bind, if_true]
      | ok post =>
        cases safe : mail.board.discussionSafePost post actor with
        | error failure => simp only [Decided, bind, Except.bind, if_true, safe]
        | ok shown =>
          obtain rfl := discussionSafePost_payload safe
          have found := discussionPost_row read
          have brief := short.posts _ _ found
          cases held : mail.board.topics.find post.payload.topicId with
          | none => simp only [Decided, bind, Except.bind, if_true, safe, held, orThrow]
          | some topic =>
            cases place : topic.payload.nodeId with
            | none =>
              obtain ⟨excerpt, made, longest⟩ := discussionExcerpt_longest brief
              simp only [Decided, bind, Except.bind, if_true, safe, held, orThrow, place, made]
              exact .inr ⟨_, _, rfl, .post kind found longest⟩
            | some nodeId =>
              cases stood : mail.board.nodes.find nodeId with
              | none =>
                have refused : nodeThreadItem mail.board now sourceId post.payload nodeId actor =
                    .error (.internal "AttributeError: payload") := by
                  have empty : ({ post.payload with content := [] } : Post).ShortAttribution
                      sourceId := ⟨brief.id, brief.topicId, brief.attributedTo, brief.branchId,
                    brief.sequence⟩
                  obtain ⟨excerpt, made, -⟩ := discussionExcerpt_longest empty
                  rw [nodeThreadItem, ok_then made, stood]
                  rfl
                simp only [Decided, bind, Except.bind, if_true, safe, held, orThrow, place, stood,
                  refused]
              | some node =>
                obtain ⟨thread, cuts, -, -, made, cut⟩ := @nodeThreadItem_first _ mail.board now
                  sourceId nodeId post.payload actor node brief
                  (short.threads _ _ held nodeId place) stood
                simp only [Decided, bind, Except.bind, if_true, safe, held, orThrow, place, stood,
                  made]
                show _ ∨ _
                split
                · exact .inl rfl
                · exact .inr ⟨_, _, rfl, .thread kind found cut⟩

/-- The records of a scanned event decide what the scan makes of it. -/
theorem handle_decided (short : mail.ShortAttribution) (logged : event ∈ mail.events) :
    Decided mail event (recordChecks mail.board experimentId experiment actor event)
      (handle mail.board now experimentId experiment actor event) := by
  unfold recordChecks handle
  cases kind : event.kind with
  | messageCreated => exact handleMessage_decided short logged kind
  | postCreated => exact handlePost_decided short kind
  | sourceWithdrawn => exact rfl
  | other => exact rfl

end

/-! ### The bytes of an item -/

theorem withdrawal_size {sequence : Nat} (small : sequence < 10 ^ sequenceDigits) :
    (Json.obj (withdrawalNotice sequence)).size ≤ itemBytes := by
  have number : Json.size (.int sequence) ≤ 20 := Json.size_int_le (by decide) small
  have texts : "withdrawal".length = 10 ∧
      "An addressed update is no longer available to this branch.".length = 58 ∧
      "access_revoked".length = 14 ∧ "withdrawn_unreadable".length = 20 ∧ "reason".length = 6 := by
    decide
  have kind := Json.size_str_le "withdrawal"
  have notice := Json.size_str_le "An addressed update is no longer available to this branch."
  have reason := Json.size_str_le "access_revoked"
  have status := Json.size_str_le "withdrawn_unreadable"
  have label := Json.fieldBytes_le "reason" (.str "access_revoked")
  obtain ⟨k1, -, k3, -, -, -, -, k8, k9, -, k11, k12, k13, -⟩ := key_bytes
  rw [texts.1] at kind
  rw [texts.2.1] at notice
  rw [texts.2.2.1] at reason
  rw [texts.2.2.2.1] at status
  rw [Json.fieldBytes, texts.2.2.2.2] at label
  simp only [withdrawalNotice, Json.size_obj, Json.fieldBytes, List.map_cons, List.map_nil,
    List.sum_cons, List.sum_nil, Json.size_null, Json.size_bool, k1, k3, k8, k9, k11, k12, k13,
    itemBytes, Bool.false_eq_true, if_false]
  -- the sizes stay closed
  generalize Json.size (.str "withdrawal") = kind at *
  generalize Json.size (.str "An addressed update is no longer available to this branch.") = notice
    at *
  generalize Json.size (.str "access_revoked") = reason at *
  generalize Json.size (.str "withdrawn_unreadable") = status at *
  generalize Json.bytes (Json.quoted "reason") = label at *
  omega

theorem ItemOf.size_le {board : Board} {event : Event} {item : Item} (shows : ItemOf board event item)
    (small : event.sequence < 10 ^ sequenceDigits) : item.json.size ≤ itemBytes := by
  cases shows with
  | withdrawal => exact withdrawal_size small
  | message _ _ longest => exact longest.fits.2
  | post _ _ longest => exact longest.fits.2
  | thread _ _ cut => exact cut.fits

/-! ### The batch -/

/-- What the loop made of the events that it passed: an item of each, or nothing of one that it skipped. -/
inductive Passed (handle : Event → Except Failure Handled) : List Event → List Item → Prop where
  | nil : Passed handle [] []
  | skipped {event : Event} {events : List Event} {items : List Item}
      (made : handle event = .ok .skipped) (rest : Passed handle events items) :
      Passed handle (event :: events) items
  | shown {event : Event} {events : List Event} {item : Item} {withdrawn : Option Withdrawn}
      {items : List Item} (made : handle event = .ok (.shown item withdrawn))
      (rest : Passed handle events items) : Passed handle (event :: events) (item :: items)

theorem Passed.of_item {handle : Event → Except Failure Handled} {events : List Event}
    {items : List Item} (passed : Passed handle events items) {item : Item} (listed : item ∈ items) :
    ∃ event ∈ events, ∃ withdrawn, handle event = .ok (.shown item withdrawn) := by
  induction passed with
  | nil => cases listed
  | skipped made rest ih =>
    obtain ⟨event, inside, shown⟩ := ih listed
    exact ⟨event, List.mem_cons_of_mem _ inside, shown⟩
  | @shown event events first withdrawn items made rest ih =>
    rcases List.mem_cons.mp listed with rfl | later
    · exact ⟨event, List.mem_cons_self, withdrawn, made⟩
    · obtain ⟨other, inside, shown⟩ := ih later
      exact ⟨other, List.mem_cons_of_mem _ inside, shown⟩

theorem Passed.of_event {handle : Event → Except Failure Handled} {events : List Event}
    {items : List Item} (passed : Passed handle events items) {event : Event} (inside : event ∈ events) :
    handle event = .ok .skipped ∨
      ∃ item ∈ items, ∃ withdrawn, handle event = .ok (.shown item withdrawn) := by
  induction passed with
  | nil => cases inside
  | skipped made rest ih =>
    rcases List.mem_cons.mp inside with rfl | later
    · exact .inl made
    · exact ih later
  | @shown first events item withdrawn items made rest ih =>
    rcases List.mem_cons.mp inside with rfl | later
    · exact .inr ⟨item, List.mem_cons_self, withdrawn, made⟩
    · rcases ih later with skipped | ⟨other, listed, shown⟩
      · exact .inl skipped
      · exact .inr ⟨other, List.mem_cons_of_mem _ listed, shown⟩

/-- Some event's item is larger than a batch. -/
def Oversized (handle : Event → Except Failure Handled) (events : List Event) : Prop :=
  ∃ event ∈ events, ∃ item withdrawn, handle event = .ok (.shown item withdrawn) ∧
    batchBytes < (Json.arr [item.json]).size

/-- The loop passes the first of the events, up to the last one that it handled. It leaves events only
when it has items, or when an item alone is larger than a batch. -/
structure Collected (handle : Event → Except Failure Handled) (events : List Event)
    (batch out : Batch) (front rest : List Event) (items : List Item) : Prop where
  split : events = front ++ rest
  passed : Passed handle front items
  items : out.items = batch.items ++ items
  processed : out.processed = (front.getLast?.map Event.sequence).getD batch.processed
  filled : rest ≠ [] → out.items ≠ [] ∨ Oversized handle events

theorem collect_collected {handle : Event → Except Failure Handled} {limit : Int} {events : List Event}
    {batch out : Batch} (done : collect handle limit events batch = .ok out) :
    ∃ front rest items, Collected handle events batch out front rest items := by
  induction events generalizing batch with
  | nil =>
    obtain rfl := Except.ok.inj done
    exact ⟨[], [], [], rfl, .nil, by simp, rfl, fun some_ => absurd rfl some_⟩
  | cons event events ih =>
    have later : Oversized handle events → Oversized handle (event :: events) :=
      fun ⟨other, inside, large⟩ => ⟨other, List.mem_cons_of_mem _ inside, large⟩
    have last : ∀ front : List Event, (front.getLast?.map Event.sequence).getD event.sequence =
        ((event :: front).getLast?.map Event.sequence).getD batch.processed := by
      intro front
      rw [List.getLast?_cons]
      cases front.getLast? <;> rfl
    rw [collect, bind_ok] at done
    obtain ⟨handled, made, done⟩ := done
    cases handled with
    | skipped =>
      obtain ⟨front, rest, items, collected⟩ := ih done
      exact ⟨event :: front, rest, items, by rw [collected.split]; rfl, .skipped made collected.passed,
        collected.items, by rw [collected.processed, ← last],
        fun left => (collected.filled left).imp_right later⟩
    | shown item withdrawn =>
      dsimp only at done
      split at done
      next beyond =>
        -- the batch is full, so this is not the first item unless it is too large alone
        obtain rfl := Except.ok.inj done
        refine ⟨[], event :: events, [], rfl, .nil, by simp, rfl, fun _ => ?_⟩
        by_cases empty : batch.items = []
        · rw [empty, List.nil_append, List.map_singleton] at beyond
          exact .inr ⟨event, List.mem_cons_self, item, withdrawn, made, beyond⟩
        · exact .inl empty
      next =>
        split at done
        next =>
          obtain rfl := Except.ok.inj done
          exact ⟨[event], events, [item], rfl, .shown made .nil, rfl, rfl, fun _ => .inl (by simp)⟩
        next =>
          obtain ⟨front, rest, items, collected⟩ := ih done
          refine ⟨event :: front, rest, item :: items, by rw [collected.split]; rfl,
            .shown made collected.passed, ?_, by rw [collected.processed, ← last],
            fun left => (collected.filled left).imp_right later⟩
          rw [collected.items, List.append_assoc]
          rfl

/-- A loop that fails has come to an event that does. -/
theorem collect_error {handle : Event → Except Failure Handled} {limit : Int} {failure : Failure} :
    ∀ {events : List Event} {batch : Batch}, collect handle limit events batch = .error failure →
      ∃ event ∈ events, handle event = .error failure := by
  intro events
  induction events with
  | nil => exact fun failed => nomatch failed
  | cons event events ih =>
    intro batch failed
    have later : (∃ other ∈ events, handle other = .error failure) →
        ∃ other ∈ event :: events, handle other = .error failure :=
      fun ⟨other, inside, fails⟩ => ⟨other, List.mem_cons_of_mem _ inside, fails⟩
    rw [collect] at failed
    cases made : handle event with
    | error other =>
      rw [made] at failed
      obtain rfl := Except.error.inj failed
      exact ⟨event, List.mem_cons_self, made⟩
    | ok handled =>
      rw [ok_then made] at failed
      cases handled with
      | skipped => exact later (ih failed)
      | shown item withdrawn =>
        dsimp only at failed
        split at failed
        · exact nomatch failed
        · split at failed
          · exact nomatch failed
          · exact later (ih failed)

/-! ### The scan -/

section
variable {mail : Mail} {experimentId : Id} {actor : Principal} {key : String} {ack : Nat}
  {clauses : List Clause}

/-- Every clause of a reader admits events after its cursor only. -/
theorem deliveryClauses_after (made : deliveryClauses mail experimentId actor key ack = .ok clauses)
    {clause : Clause} (listed : clause ∈ clauses) {event : Event} (admits : clause.admits event = true) :
    ack < event.sequence := by
  simp only [deliveryClauses, bind_ok, pure_ok] at made
  obtain ⟨-, -, rfl⟩ := made
  rcases List.mem_append.mp listed with topic | branch
  · obtain ⟨start, -, rfl⟩ := List.mem_map.mp topic
    simp only [Clause.admits, Bool.and_eq_true, decide_eq_true_eq] at admits
    exact (Nat.le_max_left _ _).trans_lt admits.1.2
  · split at branch
    · obtain rfl := List.mem_singleton.mp branch
      simp only [Clause.admits, Bool.and_eq_true, decide_eq_true_eq] at admits
      exact admits.1.2
    · exact absurd branch List.not_mem_nil

theorem scanned_admitted {event : Event} (scan : event ∈ scanned mail actor clauses) :
    event ∈ mail.events ∧ ∃ clause ∈ clauses, clause.admits event = true := by
  have kept := (List.mem_insertionSort _).mp (List.mem_of_mem_take scan)
  rw [List.mem_filter, Bool.and_eq_true, List.any_eq_true] at kept
  exact ⟨kept.1, kept.2.2⟩

/-- The last event of a scan has the greatest sequence. -/
theorem scanned_last {event last : Event} (scan : event ∈ scanned mail actor clauses)
    (ends : (scanned mail actor clauses).getLast? = some last) : event.sequence ≤ last.sequence := by
  have sorted : (scanned mail actor clauses).Pairwise fun first second =>
      first.sequence ≤ second.sequence :=
    (List.pairwise_insertionSort _ _).sublist (List.take_sublist _ _)
  obtain ⟨start, split⟩ := List.getLast?_eq_some_iff.mp ends
  rw [split] at scan sorted
  rcases List.mem_append.mp scan with before | final
  · exact (List.pairwise_append.mp sorted).2.2 event before last (List.mem_singleton_self _)
  · rw [List.mem_singleton.mp final]

end

/-! ### A call -/

section
variable [ContentHash]

/-- What a call without a pending delivery does with the events that it scanned. -/
inductive Progress (board : Board) (experimentId : Id) (experiment : Experiment) (actor : Principal)
    (key : String) (reader : Reader) (events : List Event) : Except Failure (Update × Mail) → Prop
  | refused {event : Event} {failure : Failure} (scan : event ∈ events)
      (checks : recordChecks board experimentId experiment actor event = .error failure) :
      Progress board experimentId experiment actor key reader events (.error failure)
  | idle {update : Update} {after : Mail} (nothing : events = []) (none : update.items = []) :
      Progress board experimentId experiment actor key reader events (.ok (update, after))
  | delivered {update : Update} {after : Mail} (filled : update.items ≠ [])
      (items : ∀ item ∈ update.items, item.json.size ≤ itemBytes ∧
        ∃ event ∈ events, ItemOf board event item)
      (ahead : reader.ackSequence < update.nextCursor)
      (stored : after.readers.find (actor.projectId, experimentId, key) =
        some { reader with pendingDeliveryId := update.deliveryId }) :
      Progress board experimentId experiment actor key reader events (.ok (update, after))
  | advanced {update : Update} {after : Mail} (none : update.items = [])
      (ahead : reader.ackSequence < update.nextCursor)
      (passed : ∀ event ∈ events, event.sequence ≤ update.nextCursor)
      (stored : after.readers.find (actor.projectId, experimentId, key) =
        some { reader with ackSequence := update.nextCursor }) :
      Progress board experimentId experiment actor key reader events (.ok (update, after))

variable {mail : Mail} {env : Env} {experimentId : Id} {experiment : Experiment}
  {actor : Principal} {key : String} {reader : Reader} {limit : Int} {events : List Event}

omit [ContentHash] in
theorem setReader_find {mail : Mail} {reader : Reader} :
    (setReader mail actor experimentId key reader).readers.find
      (actor.projectId, experimentId, key) = some reader := Table.find_put_self ..

omit [ContentHash] in
theorem urgentFirst_perm (items : List Item) : (urgentFirst items).Perm items :=
  List.filter_append_perm _ _

/-- A short item is smaller than a batch. -/
theorem shown_small (short : mail.ShortAttribution) {event : Event} (logged : event ∈ mail.events)
    {item : Item} {withdrawn : Option Withdrawn}
    (made : handle mail.board env.now experimentId experiment actor event =
      .ok (.shown item withdrawn)) :
    ItemOf mail.board event item ∧ item.json.size ≤ itemBytes := by
  have decided := @handle_decided _ mail env.now experimentId experiment actor event short logged
  unfold Decided at decided
  split at decided
  · rw [made] at decided
    exact nomatch decided
  · rcases decided with skipped | ⟨other, again, shown, shows⟩
    · rw [made] at skipped
      exact nomatch skipped
    · rw [made] at shown
      obtain ⟨rfl, -⟩ := Handled.shown.inj (Except.ok.inj shown)
      exact ⟨shows, shows.size_le (short.events _ logged)⟩

theorem deliver_progress (short : mail.ShortAttribution) (logged : ∀ event ∈ events, event ∈ mail.events)
    (later : ∀ event ∈ events, reader.ackSequence < event.sequence)
    (ordered : ∀ last, events.getLast? = some last → ∀ event ∈ events, event.sequence ≤ last.sequence)
    (fresh : mail.deliveries.find (env.newId 0) = none) :
    Progress mail.board experimentId experiment actor key reader events
      (deliver mail env experimentId experiment actor key reader limit events) := by
  have small : ¬ Oversized (handle mail.board env.now experimentId experiment actor) events := by
    rintro ⟨event, scan, item, withdrawn, made, large⟩
    have bound := (shown_small short (logged event scan) made).2
    rw [Json.size_singleton] at large
    have room : itemBytes + 2 ≤ batchBytes := by decide
    omega
  rw [deliver]
  cases done : collect (handle mail.board env.now experimentId experiment actor) limit events
      { processed := reader.ackSequence } with
  | error failure =>
    obtain ⟨event, scan, failed⟩ := collect_error done
    have decided := @handle_decided _ mail env.now experimentId experiment actor event short
      (logged event scan)
    unfold Decided at decided
    split at decided
    next other checks =>
      rw [failed] at decided
      obtain rfl := Except.error.inj decided
      exact .refused scan checks
    · rcases decided with skipped | ⟨item, withdrawn, shown, -⟩
      · rw [failed] at skipped
        exact nomatch skipped
      · rw [failed] at shown
        exact nomatch shown
  | ok batch =>
    obtain ⟨front, rest, items, collected⟩ := collect_collected done
    have own : batch.items = items := by rw [collected.items, List.nil_append]
    have inside : ∀ event ∈ front, event ∈ events := fun event member =>
      collected.split ▸ List.mem_append_left _ member
    rw [ok_then rfl]
    split
    next empty =>
      -- every event was skipped, so the cursor goes to the last one
      have none : batch.items = [] := List.isEmpty_iff.mp empty
      have whole : events = front := by
        have nothing : rest = [] := by
          by_contra left
          rcases collected.filled left with filled | large
          · exact filled none
          · exact small large
        rw [collected.split, nothing, List.append_nil]
      cases ends : events.getLast? with
      | none =>
        have nothing := List.getLast?_eq_none_iff.mp ends
        split <;> exact .idle nothing rfl
      | some last =>
        have reached : batch.processed = last.sequence := by
          rw [collected.processed, ← whole, ends]
          rfl
        have behind : reader.ackSequence < batch.processed :=
          reached ▸ later last (List.mem_of_getLast? ends)
        rw [if_pos behind]
        refine .advanced rfl behind (fun event scan => ?_) setReader_find
        exact reached ▸ ordered last ends event scan
    next some_item =>
      have filled : batch.items ≠ [] := fun none => some_item (List.isEmpty_iff.mpr none)
      obtain ⟨last, ends⟩ : ∃ last, front.getLast? = some last := by
        cases ends : front.getLast? with
        | some last => exact ⟨last, rfl⟩
        | none =>
          obtain rfl := List.getLast?_eq_none_iff.mp ends
          cases collected.passed
          exact absurd own filled
      have reached : batch.processed = last.sequence := by
        rw [collected.processed, ends]
        rfl
      rw [ok_then (insertNew_ok.mpr ⟨fresh, rfl⟩)]
      refine .delivered ?_ (fun item member => ?_) ?_ setReader_find
      · intro none
        have empty : urgentFirst batch.items = [] := none
        have same := urgentFirst_perm batch.items
        rw [empty] at same
        exact filled same.symm.eq_nil
      · have kept := (urgentFirst_perm batch.items).mem_iff.mp member
        rw [own] at kept
        obtain ⟨source, listed, withdrawn, shown⟩ := collected.passed.of_item kept
        obtain ⟨shows, bound⟩ := shown_small short (logged source (inside source listed)) shown
        exact ⟨bound, source, inside source listed, shows⟩
      · exact reached ▸ later last (inside last (List.mem_of_getLast? ends))

/-! ### Main result -/

/-- A call of a reader without a pending delivery refuses by the records of an event, or it delivers some
items, or it has skipped every event that it scanned and moves the cursor past them. -/
theorem inbox_progress {after : Option Int} {experiment : Row Experiment} {clauses : List Clause}
    (short : mail.ShortAttribution) (fresh : mail.deliveries.find (env.newId 0) = none)
    (opened : openReader mail env experimentId actor after limit = .ok (experiment, key, reader))
    (idle : reader.pendingDeliveryId = none)
    (made : deliveryClauses mail experimentId actor key reader.ackSequence = .ok clauses) :
    Progress mail.board experimentId experiment.payload actor key reader (scanned mail actor clauses)
      (discussionUpdates mail env experimentId actor after limit) := by
  rw [discussionUpdates, ok_then opened]
  simp only [idle, made]
  rw [ok_then rfl]
  split
  next empty =>
    obtain rfl := List.isEmpty_iff.mp empty
    exact .idle (by simp [scanned]) rfl
  next =>
    have logged : ∀ event ∈ scanned mail actor clauses, event ∈ mail.events := fun event scan =>
      (scanned_admitted scan).1
    have later : ∀ event ∈ scanned mail actor clauses, reader.ackSequence < event.sequence := by
      intro event scan
      obtain ⟨-, clause, listed, admits⟩ := scanned_admitted scan
      exact deliveryClauses_after made listed admits
    have brief : (setReader mail actor experimentId key reader).ShortAttribution :=
      ⟨short.posts, short.messages, short.threads, short.events⟩
    exact deliver_progress brief logged later (fun last ends event scan => scanned_last scan ends) fresh

end

end Inbox

namespace Scenario

open Inbox

section

local instance inboxHash : ContentHash := textHash

instance (limit : Nat) (text : String) : Decidable (Short limit text) :=
  inferInstanceAs (Decidable (Json.escapedBytes text.toList ≤ limit))

def reviewedPins : Pins := ⟨"problem", "target", "environment"⟩

/-- A topic that the controller follows, with one post that it did not see yet. -/
def postedMail : Mail where
  board :=
    { core := reviewedCore
      topics := (∅ : Table Id (Row Topic)).put "topic"
        { projectId := "project", payload := { experimentId := "experiment", pins := reviewedPins } }
      posts := (∅ : Table Id (Row Post)).put "post"
        { projectId := "project"
          payload :=
            { experimentId := "experiment", topicId := "topic", attributedTo := "author"
              originActorId := "author", kind := .finding, content := "A \"quoted\" finding.".toList
              pins := reviewedPins, sequence := 7 } } }
  events := [⟨7, "project", "topic", .postCreated "experiment" "post"⟩]
  subscriptions := [{ projectId := "project", payload := ⟨"experiment", "actor:controller", "topic", true, 0⟩ }]

theorem postedMail_short : postedMail.ShortAttribution := by
  constructor
  · intro id row found
    obtain ⟨rfl, rfl⟩ | ⟨-, none⟩ := Table.find_put_cases found
    · exact ⟨by decide, by decide, by decide, (fun _ none => by cases none), by decide⟩
    · cases none
  · intro id row found
    cases found
  · intro id row found nodeId placed
    obtain ⟨rfl, rfl⟩ | ⟨-, none⟩ := Table.find_put_cases found
    · cases placed
    · cases none
  · intro event logged
    obtain rfl := List.mem_singleton.mp logged
    decide

/-- The post is the first thing that the controller gets. -/
theorem postedMail_progress : ∃ experiment reader,
    Progress postedMail.board "experiment" experiment controller "actor:controller" reader
      postedMail.events (discussionUpdates postedMail (envAt 0 "delivery") "experiment" controller none 10) := by
  have opens : ((openReader postedMail (envAt 0 "delivery") "experiment" controller none 10).toOption.map
      fun opened => (opened.2.1, opened.2.2)) = some ("actor:controller", {}) := by decide +kernel
  cases opened : openReader postedMail (envAt 0 "delivery") "experiment" controller none 10 with
  | error failure =>
    rw [opened] at opens
    cases opens
  | ok reading =>
    obtain ⟨experiment, key, reader⟩ := reading
    rw [opened] at opens
    obtain ⟨rfl, rfl⟩ := Prod.mk.inj (Option.some.inj opens)
    exact ⟨_, _, inbox_progress postedMail_short rfl opened rfl rfl⟩

end

end Scenario

end PhysHarness
