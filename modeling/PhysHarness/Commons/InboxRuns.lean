import PhysHarness.Commons.InboxProgress
import PhysHarness.Commons.Threads
import PhysHarness.Lib.Cursor

/-!
# Deliveries reach a reader exactly once

A reader's inbox is a consumer of the log with an acknowledged cursor. Its deliveries are the batches of
that consumer: a call takes one or passes skipped events, and an acknowledgement settles it. Withdrawals
leave the sequences of a delivery as they are, and a thread that is followed again is followed from the
end of the log.

## Main result

`inbox_exactly_once`: in every run, what a reader follows and has read was skipped, or it is in exactly
one acknowledged delivery.
-/
namespace PhysHarness
namespace Inbox

open Outcome Clipping

/-! ### What a reader is to get -/

namespace Forum

/-- The reader follows the thread of a post from before it, or the message is to its branch. -/
def due (forum : Forum) (reader : ReaderId) (event : Event) : Bool :=
  event.projectId = reader.1 &&
    match event.kind with
    | .postCreated owner _ => owner = reader.2.1 && (forum.following reader).any fun row =>
      row.payload.topicId = event.aggregateId && decide (row.payload.startSequence < event.sequence)
    | .messageCreated _ => reader.2.2 = branchKey event.aggregateId
    | _ => false

def dueSequences (forum : Forum) (reader : ReaderId) : Set Nat :=
  {n | ∃ event ∈ forum.events, forum.due reader event = true ∧ event.sequence = n}

def readerRow (forum : Forum) (reader : ReaderId) : Reader := (forum.readers.find reader).getD {}

end Forum

def isSkipped : Except Failure Handled → Bool
  | .ok .skipped => true
  | _ => false

section
variable [ContentHash]

/-- The skipped events of a scan, up to the end of what it handled. -/
def skippedOf (board : Board) (now : Time) (experimentId : Id) (experiment : Experiment)
    (actor : Principal) (stop : Nat) (events : List Event) : List Nat :=
  (events.filter fun event => decide (event.sequence ≤ stop) &&
    isSkipped (handle board now experimentId experiment actor event)).map Event.sequence

/-- The events that a transaction skips for a reader. -/
def Forum.skips (reader : ReaderId) (forum : Forum) : ForumLabel → List Nat
  | .updates env experimentId actor cursor limit =>
    match openReader forum.toMail env experimentId actor cursor limit,
        discussionUpdates forum.toMail env experimentId actor cursor limit with
    | .ok (experiment, key, seen), .ok (update, _) =>
      if (actor.projectId, experimentId, key) = reader ∧ seen.pendingDeliveryId = none then
        match deliveryClauses forum.toMail experimentId actor key seen.ackSequence with
        | .ok clauses => skippedOf forum.board env.now experimentId experiment.payload actor
          update.nextCursor (scanned forum.toMail actor clauses)
        | .error _ => []
      else []
    | _, _ => []
  | _ => []

/-- What a run skipped for a reader. -/
def Forum.skipped (reader : ReaderId) (labels : List ForumLabel) : List Nat :=
  Transition.trace Forum.step (Forum.skips reader) ({} : Forum) labels

end

/-! ### The consumer of a reader -/

/-- The reader of a delivery, whether it is acknowledged, its range and the sequences of its items. -/
def Delivery.view (row : Row Delivery) : ReaderId × Bool × Nat × Nat × List Nat :=
  (Delivery.reader row, row.payload.acknowledged, row.payload.startSequence, row.payload.endSequence,
    row.payload.items.map Item.sequence)

/-- The stored delivery is the batch of a reader. -/
def Stores (forum : Forum) (reader : ReaderId) (acknowledged : Bool) (batch : Cursor.Batch Id) : Prop :=
  (forum.deliveries.find batch.name).map Delivery.view =
    some (reader, acknowledged, batch.start, batch.stop, batch.items)

/-- A reader's cursor and deliveries are those of a consumer. -/
structure Represents (forum : Forum) (reader : ReaderId) (consumer : Cursor.Consumer Id) : Prop where
  ack : (forum.readerRow reader).ackSequence = consumer.ack
  pending : (forum.readerRow reader).pendingDeliveryId = consumer.pending.map Cursor.Batch.name
  settled : ∀ batch, batch ∈ consumer.settled ↔ Stores forum reader true batch
  taken : ∀ batch, consumer.pending = some batch ↔ Stores forum reader false batch

variable {forum after : Forum} {reader : ReaderId} {consumer : Cursor.Consumer Id}

/-- Only what a reader's own row and deliveries say counts. -/
theorem Represents.congr (represents : Represents forum reader consumer)
    (row : after.readerRow reader = forum.readerRow reader)
    (stores : ∀ acknowledged batch, Stores after reader acknowledged batch ↔
      Stores forum reader acknowledged batch) : Represents after reader consumer where
  ack := row ▸ represents.ack
  pending := row ▸ represents.pending
  settled := fun batch => (represents.settled batch).trans (stores true batch).symm
  taken := fun batch => (represents.taken batch).trans (stores false batch).symm

/-- The deliveries of a write are those before it, but for the written one. -/
theorem stores_put {id : Id} {row : Row Delivery} (same : after.deliveries = forum.deliveries.put id row)
    {acknowledged : Bool} {batch : Cursor.Batch Id} : Stores after reader acknowledged batch ↔
      if batch.name = id then
        Delivery.view row = (reader, acknowledged, batch.start, batch.stop, batch.items)
      else Stores forum reader acknowledged batch := by
  unfold Stores
  rw [same, Table.find_put]
  split
  · simp
  · rfl

/-! ### Withdrawals -/

section
variable [ContentHash] {experimentId deliveryId : Id} {actor : Principal} {key : String}

/-- A notice of withdrawal stands where its item stood. -/
theorem sanitizeDelivery_sequences {board : Board} {experiment : Experiment} {items : List Item}
    {revised : List Item × List Withdrawn}
    (done : sanitizeDelivery board experimentId experiment actor items = .ok revised) :
    revised.1.map Item.sequence = items.map Item.sequence := by
  induction items generalizing revised with
  | nil =>
    obtain rfl := Except.ok.inj done
    rfl
  | cons item items ih =>
    rw [List.map_cons]
    -- a notice or the item itself, before the rest
    cases item with
    | withdrawal sequence =>
      simp only [sanitizeDelivery, bind_ok, pure_ok] at done
      obtain ⟨-, -, rest, swept, rfl⟩ := done
      rw [← ih swept]
      rfl
    | post item =>
      simp only [sanitizeDelivery, bind_ok] at done
      obtain ⟨accessible, -, rest, swept, done⟩ := done
      rw [← ih swept]
      split at done
      · obtain rfl := Except.ok.inj done
        rfl
      · obtain rfl := Except.ok.inj done
        rfl
    | message item =>
      simp only [sanitizeDelivery, bind_ok] at done
      obtain ⟨accessible, -, rest, swept, done⟩ := done
      rw [← ih swept]
      split at done
      · obtain rfl := Except.ok.inj done
        rfl
      · obtain rfl := Except.ok.inj done
        rfl

omit [ContentHash] in
/-- Looking a delivery through changes no reader's view of it. -/
theorem storeRevised_stores {env : Env} {mail : Mail} {row : Row Delivery}
    {revised : List Item × List Withdrawn} (found : mail.deliveries.find deliveryId = some row)
    (same : revised.1.map Item.sequence = row.payload.items.map Item.sequence) (referees : List Id)
    {acknowledged : Bool} {batch : Cursor.Batch Id} :
    Stores ⟨storeRevised mail env experimentId actor key deliveryId row revised, referees⟩ reader
      acknowledged batch ↔ Stores ⟨mail, referees⟩ reader acknowledged batch := by
  unfold storeRevised
  split
  · rfl
  · have recorded := recordWithdrawals_recorded env actor experimentId key deliveryId mail revised.2
    have written := congrArg (fun deliveries => Table.put deliveries deliveryId
      (row.replace { row.payload with items := revised.1 })) recorded.deliveries
    rw [@stores_put ⟨mail, referees⟩ ⟨_, referees⟩ reader _ _ written]
    split
    next here =>
      unfold Stores
      rw [here, found]
      simp [Delivery.view, Delivery.reader, same]
    next => rfl

omit [ContentHash] in
theorem storeRevised_readers {env : Env} {mail : Mail} {row : Row Delivery}
    {revised : List Item × List Withdrawn} :
    (storeRevised mail env experimentId actor key deliveryId row revised).readers = mail.readers := by
  unfold storeRevised
  split
  · rfl
  · exact (recordWithdrawals_recorded env actor experimentId key deliveryId mail revised.2).readers

end

/-! ### The items of a scan -/

section
variable [ContentHash] {board : Board} {now : Time} {experimentId : Id} {experiment : Experiment}
  {actor : Principal}

omit [ContentHash] in
theorem boundedExcerpt_ok {ι : Type} {json : ι → Json} {candidate : Text → Bool → ι} {content : Text}
    {item : ι} (done : boundedExcerpt json candidate content = .ok item) :
    ∃ excerpt truncated, item = candidate excerpt truncated := by
  unfold boundedExcerpt at done
  dsimp only at done
  split at done
  · exact ⟨_, _, (Except.ok.inj done).symm⟩
  · split at done
    · exact ⟨_, _, (Except.ok.inj done).symm⟩
    · cases done

omit [ContentHash] in
theorem shrinkExcerpt_ok {item made : PostItem} {text : Text} {more : Bool} {raw : Nat}
    (done : shrinkExcerpt item text more raw = .ok made) : made.sequence = item.sequence := by
  induction raw using Nat.strong_induction_on with
  | h raw ih =>
    unfold shrinkExcerpt at done
    dsimp only at done
    split at done
    · obtain rfl := Except.ok.inj done
      rfl
    · split at done
      · cases done
      next some_ => exact ih (raw * 3 / 4) (by omega) done

omit [ContentHash] in
theorem nodeThreadItem_sequence {id nodeId : Id} {post : Post} {item : PostItem}
    (done : nodeThreadItem board now id post nodeId actor = .ok item) :
    item.sequence = post.sequence := by
  simp only [nodeThreadItem, bind_ok] at done
  obtain ⟨first, shown, node, -, done⟩ := done
  obtain ⟨excerpt, truncated, rfl⟩ := boundedExcerpt_ok shown
  exact shrinkExcerpt_ok done

/-- An item carries the sequence of its event. -/
theorem handle_sequence {events : List Event} (sequenced : Sequenced board events) {event : Event}
    (logged : event ∈ events) {item : Item} {withdrawn : Option Withdrawn}
    (made : handle board now experimentId experiment actor event = .ok (.shown item withdrawn)) :
    item.sequence = event.sequence := by
  unfold handle at made
  split at made
  next sourceId kind =>
    simp only [handleMessage, bind_ok] at made
    obtain ⟨accessible, -, made⟩ := made
    split at made
    · simp only [bind_ok, pure_ok] at made
      obtain ⟨message, -, shown, excerpted, same⟩ := made
      obtain ⟨rfl, -⟩ := Handled.shown.inj same
      obtain ⟨excerpt, truncated, rfl⟩ := boundedExcerpt_ok excerpted
      rfl
    · obtain ⟨rfl, -⟩ := Handled.shown.inj (Except.ok.inj made)
      rfl
  next owner sourceId kind =>
    simp only [handlePost, bind_ok] at made
    obtain ⟨accessible, -, made⟩ := made
    split at made
    · simp only [bind_ok] at made
      obtain ⟨post, read, safe, checked, topic, -, made⟩ := made
      obtain rfl := discussionSafePost_payload checked
      have carried := sequenced event logged owner sourceId kind post (discussionPost_row read)
      split at made
      · simp only [bind_ok] at made
        obtain ⟨shown, threaded, made⟩ := made
        split at made
        · cases made
        · obtain ⟨rfl, -⟩ := Handled.shown.inj (Except.ok.inj made)
          exact (nodeThreadItem_sequence threaded).trans carried
      · simp only [bind_ok, pure_ok] at made
        obtain ⟨shown, excerpted, same⟩ := made
        obtain ⟨rfl, -⟩ := Handled.shown.inj same
        obtain ⟨excerpt, truncated, rfl⟩ := boundedExcerpt_ok excerpted
        exact carried
    · obtain ⟨rfl, -⟩ := Handled.shown.inj (Except.ok.inj made)
      rfl
  next => cases made

omit [ContentHash] in
/-- The items of a batch carry the sequences of the events that were not skipped. -/
theorem Passed.sequences {handle : Event → Except Failure Handled} {events : List Event}
    {items : List Item} (passed : Passed handle events items)
    (carried : ∀ event ∈ events, ∀ item withdrawn, handle event = .ok (.shown item withdrawn) →
      item.sequence = event.sequence) :
    items.map Item.sequence =
      (events.filter fun event => !isSkipped (handle event)).map Event.sequence := by
  induction passed with
  | nil => rfl
  | skipped made rest ih =>
    rw [List.filter_cons_of_neg (by simp [made, isSkipped])]
    exact ih fun event inside => carried event (List.mem_cons_of_mem _ inside)
  | shown made rest ih =>
    rw [List.filter_cons_of_pos (by simp [made, isSkipped]), List.map_cons, List.map_cons,
      carried _ List.mem_cons_self _ _ made]
    congr 1
    exact ih fun event inside => carried event (List.mem_cons_of_mem _ inside)

end

/-! ### The scan of a reader -/

/-- Distinct keys are added one after the other. -/
theorem foldl_set {α κ ι : Type} [DecidableEq κ] {key : ι → κ} {value : ι → α} {rows : List ι}
    {start : List (κ × α)} (distinct : (start.map Prod.fst ++ rows.map key).Nodup) :
    rows.foldl (fun items row => Dict.set items (key row) (value row)) start =
      start ++ rows.map fun row => (key row, value row) := by
  induction rows generalizing start with
  | nil => simp
  | cons row rows ih =>
    have fresh : key row ∉ start.map Prod.fst := by
      intro known
      exact (List.nodup_append.mp distinct).2.2 _ known _ List.mem_cons_self rfl
    have added : Dict.set start (key row) (value row) = start ++ [(key row, value row)] := if_neg fresh
    rw [List.foldl_cons, added, ih]
    · simp
    · simpa using distinct

/-- The sequences of the log, and of its posts, are in order. -/
structure Forum.Ordered (forum : Forum) : Prop where
  bounded : forum.Bounded
  numbered : ∀ event ∈ forum.events, 0 < event.sequence
  distinct : (forum.events.map Event.sequence).Nodup
  sequenced : Sequenced forum.board forum.events

section Scan
variable {experimentId : Id} {actor : Principal} {key : String} {ack : Nat} {clauses : List Clause}

/-- The filters of a scan admit what the reader is to get after its cursor. -/
theorem clauses_due (bounded : forum.Bounded) (named : readerKey actor = .ok key)
    (made : deliveryClauses forum.toMail experimentId actor key ack = .ok clauses) {event : Event}
    (own : event.projectId = actor.projectId) :
    (clauses.any fun clause => clause.admits event) = true ↔
      forum.due (actor.projectId, experimentId, key) event = true ∧ ack < event.sequence := by
  have topics := Forum.following_topics bounded (actor.projectId, experimentId, key)
  simp only [deliveryClauses, Forum.active_eq experimentId actor key, bind_ok, pure_ok] at made
  obtain ⟨-, -, rfl⟩ := made
  rw [foldl_set (by simpa using topics), List.nil_append, List.map_map, List.any_append,
    Bool.or_eq_true, List.any_map, Forum.due, own, decide_eq_true rfl, Bool.true_and]
  have branch : ((if actor.role = .agent then [Clause.branch actor.branchId ack] else []).any
      fun clause => clause.admits event) = true ↔
        key = branchKey event.aggregateId ∧ ack < event.sequence ∧
          ∃ messageId, event.kind = .messageCreated messageId := by
    have owner : actor.role = .agent → ∃ id, actor.branchId = some id ∧ key = branchKey id := by
      intro agent
      rw [readerKey, if_pos agent] at named
      split at named
      next id held _ => exact ⟨id, held, (Except.ok.inj named).symm⟩
      next => cases named
    by_cases agent : actor.role = .agent
    · obtain ⟨id, held, rfl⟩ := owner agent
      rw [if_pos agent, held]
      cases kind : event.kind with
      | messageCreated messageId =>
        simp only [List.any_cons, List.any_nil, Clause.admits, kind, Bool.or_false, Bool.and_true,
          Bool.and_eq_true, decide_eq_true_eq, Option.some.injEq, EventKind.messageCreated.injEq,
          exists_eq', and_true]
        exact and_congr_left' ⟨fun same => same ▸ rfl, fun same => (Forum.branchKey_inj same).symm⟩
      | postCreated => simp [Clause.admits, kind]
      | sourceWithdrawn => simp [Clause.admits, kind]
      | other => simp [Clause.admits, kind]
    · rw [if_neg agent]
      constructor
      · exact fun none => by cases none
      · rintro ⟨rfl, -, -⟩
        exact absurd (Forum.readerKey_branch named).1 agent
  rw [branch]
  cases kind : event.kind with
  | postCreated owner sourceId =>
    simp only [Bool.and_eq_true, decide_eq_true_eq, List.any_eq_true, Function.comp_apply, Clause.admits,
      kind, reduceCtorEq, exists_false, and_false, or_false, Nat.max_lt]
    constructor
    · rintro ⟨row, member, ⟨topic, after, start⟩, experiment⟩
      exact ⟨⟨experiment, row, member, topic.symm, start⟩, after⟩
    · rintro ⟨⟨experiment, row, member, topic, start⟩, after⟩
      exact ⟨row, member, ⟨topic.symm, after, start⟩, experiment⟩
  | messageCreated messageId => simp [Clause.admits, kind]
  | sourceWithdrawn => simp [Clause.admits, kind]
  | other => simp [Clause.admits, kind]

theorem Forum.Ordered.event_eq (ordered : forum.Ordered) {first second : Event}
    (one : first ∈ forum.events) (two : second ∈ forum.events)
    (same : first.sequence = second.sequence) : first = second :=
  List.inj_on_of_nodup_map ordered.distinct one two same

/-- What is admitted and not behind the end of the front is in the front. -/
theorem scanned_front (ordered : forum.Ordered) {front rest : List Event} {last event : Event}
    (split : scanned forum.toMail actor clauses = front ++ rest) (ends : front.getLast? = some last)
    (logged : event ∈ forum.events) (own : event.projectId = actor.projectId)
    (admitted : (clauses.any fun clause => clause.admits event) = true)
    (reached : event.sequence ≤ last.sequence) : event ∈ front := by
  let every := forum.events.filter fun event =>
    event.projectId = actor.projectId && clauses.any fun clause => clause.admits event
  let sorted := every.insertionSort fun first second => first.sequence ≤ second.sequence
  have whole : sorted = front ++ (rest ++ sorted.drop scanEvents) := by
    rw [← List.append_assoc, ← split]
    exact (List.take_append_drop scanEvents sorted).symm
  have inside : event ∈ sorted := by
    rw [List.mem_insertionSort, List.mem_filter]
    exact ⟨logged, by simp [own, admitted]⟩
  have ascending : sorted.Pairwise fun first second => first.sequence ≤ second.sequence :=
    List.pairwise_insertionSort _ _
  have closing : last ∈ front := List.mem_of_getLast? ends
  rw [whole] at inside ascending
  rcases List.mem_append.mp inside with before | behind
  · exact before
  · -- the event is not ahead of the last one of the front, so it is that one
    have order := (List.pairwise_append.mp ascending).2.2 last closing event behind
    have stored : last ∈ forum.events :=
      (scanned_admitted (split ▸ List.mem_append_left rest closing)).1
    exact ordered.event_eq stored logged (Nat.le_antisymm order reached) ▸ closing

section
variable [ContentHash] {now : Time} {experiment : Experiment} {limit : Int} {batch : Batch}

/-- A scan splits what is due after the cursor, up to the end of what it handled, into the items of its
batch and the events that it skipped. -/
theorem collect_splits (ordered : forum.Ordered) (named : readerKey actor = .ok key)
    (made : deliveryClauses forum.toMail experimentId actor key ack = .ok clauses)
    (done : collect (handle forum.board now experimentId experiment actor) limit
      (scanned forum.toMail actor clauses) { processed := ack } = .ok batch) :
    ack ≤ batch.processed ∧ (batch.items ≠ [] → ack < batch.processed) ∧
      (ack < batch.processed → batch.processed ≤ forum.maxSequence) ∧
      Cursor.Splits (forum.dueSequences (actor.projectId, experimentId, key)) ack batch.processed
        (batch.items.map Item.sequence)
        (skippedOf forum.board now experimentId experiment actor batch.processed
          (scanned forum.toMail actor clauses)) := by
  obtain ⟨front, rest, items, collected⟩ := collect_collected done
  have own : batch.items = items := by rw [collected.items, List.nil_append]
  have scan : ∀ event ∈ front, event ∈ scanned forum.toMail actor clauses := fun event member =>
    collected.split ▸ List.mem_append_left rest member
  have logged : ∀ event ∈ front, event ∈ forum.events := fun event member =>
    (scanned_admitted (scan event member)).1
  have behind : ∀ event ∈ scanned forum.toMail actor clauses, ack < event.sequence := by
    intro event member
    obtain ⟨-, clause, listed, admits⟩ := scanned_admitted member
    exact deliveryClauses_after made listed admits
  have sequences : batch.items.map Item.sequence = (front.filter fun event =>
      !isSkipped (handle forum.board now experimentId experiment actor event)).map Event.sequence := by
    rw [own]
    exact collected.passed.sequences fun event member item withdrawn made =>
      handle_sequence ordered.sequenced (logged event member) made
  cases ends : front.getLast? with
  | none =>
    obtain rfl := List.getLast?_eq_none_iff.mp ends
    have still : batch.processed = ack := collected.processed
    have nothing : batch.items = [] := by
      rw [own]
      cases collected.passed
      rfl
    rw [still, nothing]
    refine ⟨Nat.le_refl _, fun some_ => absurd rfl some_, fun ahead => absurd ahead (Nat.lt_irrefl _), ?_⟩
    have none_ : skippedOf forum.board now experimentId experiment actor ack
        (scanned forum.toMail actor clauses) = [] := by
      unfold skippedOf
      rw [List.map_eq_nil_iff, List.filter_eq_nil_iff]
      intro event member
      simp [Nat.not_le.mpr (behind event member)]
    rw [none_]
    constructor
    · exact List.nodup_nil
    · simp
    · simp
    · intro n _ above reached
      omega
  | some last =>
    have closing : last ∈ front := List.mem_of_getLast? ends
    have stop : batch.processed = last.sequence := by
      rw [collected.processed, ends]
      rfl
    have ahead : ack < batch.processed := stop ▸ behind last (scan last closing)
    -- the front is what the scan has up to its last event
    have within : ∀ event ∈ front, event.sequence ≤ batch.processed := by
      intro event member
      have ascending : (scanned forum.toMail actor clauses).Pairwise fun first second =>
          first.sequence ≤ second.sequence :=
        (List.pairwise_insertionSort _ _).sublist (List.take_sublist _ _)
      rw [collected.split] at ascending
      obtain ⟨start, same⟩ := List.getLast?_eq_some_iff.mp ends
      have sorted := (List.pairwise_append.mp ascending).1
      rw [same] at sorted member
      rw [stop]
      rcases List.mem_append.mp member with before | final
      · exact (List.pairwise_append.mp sorted).2.2 event before last (List.mem_singleton_self _)
      · rw [List.mem_singleton.mp final]
    have inFront : ∀ event ∈ forum.events, event.projectId = actor.projectId →
        (clauses.any fun clause => clause.admits event) = true →
        event.sequence ≤ batch.processed → event ∈ front := by
      intro event member project admitted reached
      exact scanned_front ordered collected.split ends member project admitted (stop ▸ reached)
    refine ⟨ahead.le, fun _ => ahead, fun _ => ?_, ?_⟩
    · rw [stop]
      exact Mail.sequence_le_max (logged last closing)
    rw [sequences]
    constructor
    · have distinct : ((scanned forum.toMail actor clauses).map Event.sequence).Nodup := by
        have kept := ordered.distinct.sublist ((List.filter_sublist
          (p := fun event => event.projectId = actor.projectId &&
            clauses.any fun clause => clause.admits event)).map Event.sequence)
        have sorted := ((List.perm_insertionSort (fun first second : Event =>
          first.sequence ≤ second.sequence) _).map Event.sequence).nodup_iff.mpr kept
        exact sorted.sublist ((List.take_sublist scanEvents _).map _)
      rw [collected.split, List.map_append] at distinct
      exact (List.nodup_append.mp distinct).1.sublist (List.filter_sublist.map _)
    · intro n member
      obtain ⟨event, kept, rfl⟩ := List.mem_map.mp member
      have inside := (List.mem_filter.mp kept).1
      exact ⟨behind event (scan event inside), within event inside⟩
    · intro n member
      obtain ⟨event, kept, rfl⟩ := List.mem_map.mp member
      obtain ⟨listed, passed⟩ := List.mem_filter.mp kept
      simp only [Bool.and_eq_true, decide_eq_true_eq] at passed
      refine ⟨behind event listed, passed.1, fun item => ?_⟩
      obtain ⟨other, shown, same⟩ := List.mem_map.mp item
      obtain ⟨inside, told⟩ := List.mem_filter.mp shown
      rw [ordered.event_eq (logged other inside) (scanned_admitted listed).1 same, passed.2] at told
      cases told
    · rintro n ⟨event, stored, due, rfl⟩ above reached
      have project : event.projectId = actor.projectId := by
        rw [Forum.due, Bool.and_eq_true, decide_eq_true_eq] at due
        exact due.1
      have inside := inFront event stored project
        ((clauses_due ordered.bounded named made project).mpr ⟨due, above⟩) reached
      by_cases passed : isSkipped (handle forum.board now experimentId experiment actor event) = true
      · right
        apply List.mem_map_of_mem
        rw [List.mem_filter]
        exact ⟨scan event inside, by simp [passed, reached]⟩
      · left
        apply List.mem_map_of_mem
        rw [List.mem_filter]
        exact ⟨inside, by simpa using passed⟩

end

end Scan

/-! ### The transactions as moves of the consumer -/

/-- What a transaction does to the consumer of a reader. -/
structure Follows (forum after : Forum) (reader : ReaderId) (consumer : Cursor.Consumer Id)
    (skipped : List Nat) (next : Cursor.Consumer Id) : Prop where
  represents : Represents after reader next
  passed : next.passed = consumer.passed ++ skipped
  moves : next = consumer ∨ Cursor.Moves (forum.dueSequences reader) consumer next
  reach : next.reach ≤ max consumer.reach forum.maxSequence

theorem Follows.still (represents : Represents after reader consumer) :
    Follows forum after reader consumer [] consumer where
  represents := represents
  passed := (List.append_nil _).symm
  moves := .inl rfl
  reach := Nat.le_max_left _ _

theorem readerRow_put {caller : ReaderId} {row : Reader} {readers : Table ReaderId Reader}
    (same : after.readers = readers.put caller row) : after.readerRow reader =
      if reader = caller then row else (readers.find reader).getD {} := by
  unfold Forum.readerRow
  rw [same, Table.find_put]
  split <;> rfl

section
variable {env : Env} {experimentId deliveryId : Id} {actor : Principal} {cursor : Option Int}
  {limit : Int} {key : String}

theorem openReader_ok {mail : Mail} {experiment : Row Experiment} {seen : Reader}
    (opened : openReader mail env experimentId actor cursor limit = .ok (experiment, key, seen)) :
    readerKey actor = .ok key ∧
      seen = (mail.readers.find (actor.projectId, experimentId, key)).getD {} := by
  simp only [openReader, bind_ok, pure_ok, Prod.mk.injEq] at opened
  obtain ⟨-, -, -, -, -, -, named, read, -, -, -, -, -, -, -, rfl, rfl, rfl⟩ := opened
  exact ⟨read, rfl⟩

/-- A scan without items moves the cursor past what it skipped. -/
theorem deliver_skips (represents : Represents forum reader consumer) {stop : Nat} {skipped : List Nat}
    {seen : Reader} (row : forum.readerRow reader = seen) (idle : seen.pendingDeliveryId = none)
    (ahead : seen.ackSequence ≤ stop) (bounded : seen.ackSequence < stop → stop ≤ forum.maxSequence)
    (splits : Cursor.Splits (forum.dueSequences reader) seen.ackSequence stop [] skipped)
    (deliveries : after.deliveries = forum.deliveries)
    (moved : after.readerRow reader = { seen with ackSequence := stop }) :
    ∃ next, Follows forum after reader consumer skipped next := by
  have ack : consumer.ack = seen.ackSequence := by rw [← represents.ack, row]
  have none_ : consumer.pending = none := by
    have pending := represents.pending
    rw [row, idle] at pending
    exact Option.map_eq_none_iff.mp pending.symm
  refine ⟨{ consumer with ack := stop, passed := consumer.passed ++ skipped }, ?_, rfl,
    .inr (.skip none_ (ack ▸ ahead) (ack ▸ splits)), ?_⟩
  · constructor
    · rw [moved]
    · rw [moved, idle, none_]
      rfl
    · intro batch
      rw [Stores, deliveries]
      exact represents.settled batch
    · intro batch
      rw [Stores, deliveries]
      exact represents.taken batch
  · have reach : Cursor.Consumer.reach
        { consumer with ack := stop, passed := consumer.passed ++ skipped } = stop :=
      Cursor.Consumer.idle_reach none_
    rw [reach, Cursor.Consumer.idle_reach none_, ack]
    rcases ahead.lt_or_eq with later | same
    · exact (bounded later).trans (Nat.le_max_right _ _)
    · exact same ▸ Nat.le_max_left _ _

/-- A scan with items takes them as the next batch. -/
theorem deliver_takes (represents : Represents forum reader consumer) {stop : Nat} {skipped : List Nat}
    {seen : Reader} (row : forum.readerRow reader = seen) (idle : seen.pendingDeliveryId = none)
    (ahead : seen.ackSequence < stop) (bounded : stop ≤ forum.maxSequence) {items : List Nat}
    (splits : Cursor.Splits (forum.dueSequences reader) seen.ackSequence stop items skipped)
    (fresh : forum.deliveries.find deliveryId = none) {delivery : Row Delivery}
    (deliveries : after.deliveries = forum.deliveries.put deliveryId delivery)
    (view : Delivery.view delivery = (reader, false, seen.ackSequence, stop, items))
    (moved : after.readerRow reader = { seen with pendingDeliveryId := some deliveryId }) :
    ∃ next, Follows forum after reader consumer skipped next := by
  have ack : consumer.ack = seen.ackSequence := by rw [← represents.ack, row]
  have none_ : consumer.pending = none := by
    have pending := represents.pending
    rw [row, idle] at pending
    exact Option.map_eq_none_iff.mp pending.symm
  have absent : ∀ acknowledged batch, batch.name = deliveryId →
      ¬ Stores forum reader acknowledged batch := by
    intro acknowledged batch same stores
    rw [Stores, same, fresh] at stores
    cases stores
  let batch : Cursor.Batch Id := ⟨deliveryId, seen.ackSequence, stop, items⟩
  refine ⟨{ consumer with pending := some batch, passed := consumer.passed ++ skipped }, ?_, rfl,
    .inr (.take none_ ?_ ack.symm (ack ▸ ahead) (ack ▸ splits)), ?_⟩
  · constructor
    · rw [moved]
      exact ack.symm
    · rw [moved]
      rfl
    · intro other
      rw [stores_put deliveries, view]
      split
      next same =>
        constructor
        · exact fun settled => absurd ((represents.settled other).mp settled) (absent true other same)
        · exact fun equal => by cases (Prod.mk.inj (Prod.mk.inj equal).2).1
      next => exact represents.settled other
    · intro other
      rw [stores_put deliveries, view]
      split
      next same =>
        obtain ⟨name, start, end_, list⟩ := other
        obtain rfl := same
        simp [batch, eq_comm]
      next apart =>
        constructor
        · intro same
          exact absurd (congrArg Cursor.Batch.name (Option.some.inj same)).symm apart
        · intro stores
          have pending := (represents.taken other).mpr stores
          rw [none_] at pending
          cases pending
  · intro other settled same
    exact absent true other same ((represents.settled other).mp settled)
  · exact bounded.trans (Nat.le_max_right _ _)

/-- An acknowledgement settles the pending batch. -/
theorem acknowledge_settles (represents : Represents forum reader consumer)
    {delivery : Row Delivery} (found : forum.deliveries.find deliveryId = some delivery)
    (own : Delivery.reader delivery = reader) (open_ : delivery.payload.acknowledged = false)
    (deliveries : after.deliveries = forum.deliveries.put deliveryId
      (delivery.replace { delivery.payload with acknowledged := true }))
    (moved : after.readerRow reader = ⟨delivery.payload.endSequence, none⟩) :
    ∃ next, Follows forum after reader consumer [] next := by
  let batch : Cursor.Batch Id := ⟨deliveryId, delivery.payload.startSequence,
    delivery.payload.endSequence, delivery.payload.items.map Item.sequence⟩
  have taken : consumer.pending = some batch := by
    rw [represents.taken batch, Stores, found, Option.map_some, Delivery.view, own, open_]
  have view : Delivery.view (delivery.replace { delivery.payload with acknowledged := true }) =
      (reader, true, batch.start, batch.stop, batch.items) := by
    rw [← own]
    rfl
  refine ⟨{ consumer with ack := batch.stop, pending := none, settled := consumer.settled ++ [batch] },
    ?_, (List.append_nil _).symm, .inr (.settle taken), ?_⟩
  · constructor
    · rw [moved]
    · rw [moved]
      rfl
    · intro other
      rw [stores_put deliveries, view, List.mem_append, List.mem_singleton, represents.settled]
      split
      next same =>
        obtain ⟨name, start, stop, items⟩ := other
        obtain rfl : name = deliveryId := same
        constructor
        · rintro (stores | equal)
          · rw [Stores, found, Option.map_some, Delivery.view, open_] at stores
            cases (Prod.mk.inj (Prod.mk.inj (Option.some.inj stores)).2).1
          · rw [equal]
        · intro equal
          right
          simp only [Prod.mk.injEq, true_and] at equal
          obtain ⟨rfl, rfl, rfl⟩ := equal
          rfl
      next apart =>
        constructor
        · rintro (stores | rfl)
          · exact stores
          · exact absurd rfl apart
        · exact .inl
    · intro other
      rw [stores_put deliveries, view]
      constructor
      · exact fun none => by cases none
      · intro stores
        split at stores
        · cases (Prod.mk.inj (Prod.mk.inj stores).2).1
        next apart =>
          have pending := (represents.taken other).mpr stores
          rw [taken] at pending
          exact absurd (congrArg Cursor.Batch.name (Option.some.inj pending)).symm apart
  · have reach : consumer.reach = batch.stop := by rw [Cursor.Consumer.reach, taken]
    rw [reach]
    exact Nat.le_max_left _ _

/-- A write of one reader's delivery is not one of another's. -/
theorem Represents.apart (represents : Represents forum reader consumer) {caller : ReaderId}
    (other : reader ≠ caller) {id : Id} {delivery : Row Delivery}
    (deliveries : after.deliveries = forum.deliveries.put id delivery)
    (own : Delivery.reader delivery = caller)
    (before : ∀ row, forum.deliveries.find id = some row → Delivery.reader row = caller)
    (row : after.readerRow reader = forum.readerRow reader) : Represents after reader consumer := by
  apply represents.congr row
  intro acknowledged batch
  rw [stores_put deliveries]
  split
  next same =>
    constructor
    · intro view
      exact absurd ((Prod.mk.inj view).1.symm.trans own) other
    · intro stores
      rw [Stores, same] at stores
      obtain ⟨old, found, view⟩ := Option.map_eq_some_iff.mp stores
      exact absurd ((Prod.mk.inj view).1.symm.trans (before old found)) other
  next => rfl

section
variable [ContentHash]

theorem updates_follows (ordered : forum.Ordered) (represents : Represents forum reader consumer)
    {update : Update} {mail : Mail}
    (done : discussionUpdates forum.toMail env experimentId actor cursor limit = .ok (update, mail)) :
    ∃ next, Follows forum { forum with toMail := mail } reader consumer
      (Forum.skips reader forum (.updates env experimentId actor cursor limit)) next := by
  obtain ⟨experiment, key, seen, opened, cases_⟩ := discussionUpdates_ok done
  obtain ⟨named, row⟩ := openReader_ok opened
  have skips : Forum.skips reader forum (.updates env experimentId actor cursor limit) =
      if (actor.projectId, experimentId, key) = reader ∧ seen.pendingDeliveryId = none then
        match deliveryClauses forum.toMail experimentId actor key seen.ackSequence with
        | .ok clauses => skippedOf forum.board env.now experimentId experiment.payload actor
          update.nextCursor (scanned forum.toMail actor clauses)
        | .error _ => []
      else [] := by
    simp only [Forum.skips, opened, done]
  rw [skips]
  rcases cases_ with ⟨pendingId, delivery, revised, pending, found, own, sanitized, rfl⟩ |
    ⟨idle, clauses, made, delivered⟩
  · -- the pending delivery is shown again
    rw [if_neg fun both => by rw [pending] at both; cases both.2]
    refine ⟨consumer, .still (represents.congr ?_ fun acknowledged batch => ?_)⟩
    · rw [@readerRow_put ⟨_, forum.referees⟩ reader _ _ _ storeRevised_readers, row]
      split
      next same =>
        rw [same]
        rfl
      next => rfl
    · have stored : (setReader forum.toMail actor experimentId key seen).deliveries.find pendingId =
          some delivery := found
      exact storeRevised_stores stored (sanitizeDelivery_sequences sanitized) forum.referees
  · obtain ⟨batch, collected, next_, result⟩ := deliver_ok delivered
    obtain ⟨ahead, moves, bounded, splits⟩ := collect_splits ordered named made collected
    -- the row of the caller as the transaction leaves it
    obtain ⟨left, readers, told⟩ : ∃ left, mail.readers =
        (setReader forum.toMail actor experimentId key seen).readers.put
          (actor.projectId, experimentId, key) left ∧
        ((batch.items = [] ∧ left = { seen with ackSequence := batch.processed } ∧
            mail.deliveries = forum.deliveries) ∨
          (batch.items ≠ [] ∧ left = { seen with pendingDeliveryId := some (env.newId 0) } ∧
            forum.deliveries.find (env.newId 0) = none ∧
            mail.deliveries = forum.deliveries.put (env.newId 0)
              { projectId := actor.projectId
                payload :=
                  { experimentId, readerKey := key, startSequence := seen.ackSequence
                    endSequence := batch.processed, items := urgentFirst batch.items } })) := by
      rcases result with ⟨none, same⟩ | ⟨filled, fresh, withdrawn, same⟩
      · refine ⟨{ seen with ackSequence := batch.processed }, ?_, .inl ⟨none, rfl, ?_⟩⟩
        · rw [same]
          split
          · rfl
          next level =>
            have still : batch.processed = seen.ackSequence :=
              Nat.le_antisymm (Nat.le_of_not_lt level) ahead
            rw [still]
            exact (Table.put_put _ _ _ _).symm
        · rw [same]
          split
          · rfl
          · rfl
      · have recorded := recordWithdrawals_recorded env actor experimentId key (env.newId 0)
          { setReader forum.toMail actor experimentId key seen with
            deliveries := forum.deliveries.put (env.newId 0)
              { projectId := actor.projectId
                payload :=
                  { experimentId, readerKey := key, startSequence := seen.ackSequence
                    endSequence := batch.processed, items := urgentFirst batch.items } } } withdrawn
        refine ⟨_, ?_, .inr ⟨filled, rfl, fresh, ?_⟩⟩
        · rw [same]
          exact congrArg (fun readers => Table.put readers _ _) recorded.readers
        · rw [same]
          exact recorded.deliveries
    have moved : ∀ other, ({ forum with toMail := mail } : Forum).readerRow other =
        if other = (actor.projectId, experimentId, key) then left else forum.readerRow other := by
      intro other
      rw [@readerRow_put { forum with toMail := mail } other _ _ _ readers]
      split
      · rfl
      next apart =>
        show Option.getD (Table.find (Table.put _ _ _) _) _ = _
        rw [Table.find_put_ne _ _ apart]
        rfl
    by_cases same : reader = (actor.projectId, experimentId, key)
    · subst same
      have here := moved (actor.projectId, experimentId, key)
      rw [if_pos rfl] at here
      rw [if_pos ⟨rfl, idle⟩, made, next_]
      dsimp only
      rcases told with ⟨none, rfl, deliveries⟩ | ⟨filled, rfl, fresh, deliveries⟩
      · rw [none, List.map_nil] at splits
        exact deliver_skips represents row.symm idle ahead bounded splits deliveries here
      · have later := moves filled
        exact deliver_takes represents row.symm idle later (bounded later)
          (splits.perm ((urgentFirst_perm batch.items).map _)) fresh deliveries rfl here
    · rw [if_neg fun both => same both.1.symm]
      have there := moved reader
      rw [if_neg same] at there
      rcases told with ⟨-, -, deliveries⟩ | ⟨-, -, fresh, deliveries⟩
      · refine ⟨consumer, .still (represents.congr there fun acknowledged batch => ?_)⟩
        rw [Stores, deliveries]
        rfl
      · refine ⟨consumer, .still (represents.apart same deliveries rfl (fun row found => ?_) there)⟩
        rw [fresh] at found
        cases found

theorem sanitize_follows (represents : Represents forum reader consumer) {changed : Bool} {mail : Mail}
    (done : sanitizePending forum.toMail env experimentId deliveryId actor = .ok (changed, mail)) :
    Follows forum { forum with toMail := mail } reader consumer [] consumer := by
  apply Follows.still
  obtain rfl | ⟨experiment, key, row, revised, found, -, sanitized, rfl⟩ := sanitizePending_ok done
  · exact represents
  · apply represents.congr
    · unfold Forum.readerRow
      rw [show (storeRevised forum.toMail env experimentId actor key deliveryId row revised).readers =
        forum.readers from storeRevised_readers]
    · exact fun acknowledged batch =>
        storeRevised_stores found (sanitizeDelivery_sequences sanitized) forum.referees

theorem acknowledge_follows (represents : Represents forum reader consumer) {told : Acknowledged}
    {mail : Mail} (done : acknowledge forum.toMail experimentId deliveryId actor = .ok (told, mail)) :
    ∃ next, Follows forum { forum with toMail := mail } reader consumer [] next := by
  obtain ⟨key, seen, row, -, -, -, found, own, -, open_, rfl⟩ := acknowledge_ok done
  by_cases same : reader = (actor.projectId, experimentId, key)
  · subst same
    apply acknowledge_settles represents found own open_ rfl
    rw [@readerRow_put _ _ (actor.projectId, experimentId, key)
      ⟨row.payload.endSequence, none⟩ forum.readers rfl, if_pos rfl]
  · refine ⟨consumer, .still (represents.apart same rfl own (fun old stored => ?_) ?_)⟩
    · rw [found] at stored
      exact Option.some.inj stored ▸ own
    · rw [@readerRow_put _ _ (actor.projectId, experimentId, key)
        ⟨row.payload.endSequence, none⟩ forum.readers rfl, if_neg same]
      rfl

/-- A transaction of the inboxes is a move of the consumer of each reader, or leaves it. -/
theorem step_follows (ordered : forum.Ordered) {label : ForumLabel} (kept : label.Kept forum)
    (represents : Represents forum reader consumer) :
    ∃ next, Follows forum (forum.step label) reader consumer (Forum.skips reader forum label) next := by
  cases label with
  | updates env experimentId actor cursor limit =>
    rw [Forum.step]
    split
    next update mail done => exact updates_follows ordered represents done
    next failure failed =>
      have none : Forum.skips reader forum (.updates env experimentId actor cursor limit) = [] := by
        simp only [Forum.skips, failed]
        split <;> simp_all
      rw [none]
      exact ⟨consumer, .still represents⟩
  | sanitize env experimentId deliveryId actor =>
    rw [Forum.step]
    split
    next changed mail done => exact ⟨consumer, sanitize_follows represents done⟩
    next => exact ⟨consumer, .still represents⟩
  | acknowledge experimentId deliveryId actor =>
    rw [Forum.step]
    split
    next told mail done => exact acknowledge_follows represents done
    next => exact ⟨consumer, .still represents⟩
  | subscribe topicId subscribed actor =>
    rw [Forum.step]
    split
    next after done =>
      obtain ⟨experimentId, key, change⟩ := Forum.subscribeDiscussion_resubscribed done
      refine ⟨consumer, .still (represents.congr ?_ fun acknowledged batch => ?_)⟩
      · rw [@readerRow_put after reader _ _ _ change.readers]
        split
        next same =>
          rw [same]
          rfl
        next => rfl
      · rw [Stores, change.deliveries]
        rfl
    next => exact ⟨consumer, .still represents⟩
  | autoSubscribe now topicId branchId actor =>
    rw [Forum.step]
    split
    next followed after done =>
      have change := Forum.autoSubscribe_resubscribed ordered.bounded kept done
      refine ⟨consumer, .still (represents.congr ?_ fun acknowledged batch => ?_)⟩
      · unfold Forum.readerRow
        rw [change.readers]
      · rw [Stores, change.deliveries]
        rfl
    next => exact ⟨consumer, .still represents⟩
  | elsewhere board referees events => exact ⟨consumer, .still (represents.congr rfl fun _ _ => Iff.rfl)⟩

end

end

/-! ### The log in a run -/

/-- A transaction of the inboxes leaves the board, logs other kinds of events, and starts a thread that
it follows at the end of the log. -/
structure Unstirred (forum after : Forum) : Prop where
  board : after.board = forum.board
  events : Quiet forum.events after.events
  starts : ∀ row ∈ after.subscriptions, row.payload.subscribed = true →
    row ∈ forum.subscriptions ∨ forum.maxSequence ≤ row.payload.startSequence

theorem Unstirred.refl (forum : Forum) : Unstirred forum forum :=
  ⟨rfl, .refl _, fun _ member _ => .inl member⟩

theorem Mailed.unstirred {mail : Mail} (mailed : Mailed forum.toMail mail) :
    Unstirred forum { forum with toMail := mail } where
  board := mailed.board
  events := mailed.events
  starts := fun _ member _ => .inl (mailed.subscriptions ▸ member)

theorem Forum.Resubscribed.unstirred (change : forum.Resubscribed after) : Unstirred forum after :=
  ⟨change.board, change.events, change.starts⟩

section
variable [ContentHash] {label : ForumLabel}

theorem step_cases (ordered : forum.Ordered) (kept : label.Kept forum) :
    (∃ board referees events, label = .elsewhere board referees events) ∨
      Unstirred forum (forum.step label) := by
  cases label with
  | updates env experimentId actor cursor limit =>
    rw [Forum.step]
    split
    next update mail done => exact .inr (discussionUpdates_mailed done).unstirred
    next => exact .inr (.refl _)
  | sanitize env experimentId deliveryId actor =>
    rw [Forum.step]
    split
    next changed mail done => exact .inr (sanitizePending_mailed done).unstirred
    next => exact .inr (.refl _)
  | acknowledge experimentId deliveryId actor =>
    rw [Forum.step]
    split
    next told mail done => exact .inr (acknowledge_mailed done).unstirred
    next => exact .inr (.refl _)
  | subscribe topicId subscribed actor =>
    rw [Forum.step]
    split
    next after done =>
      obtain ⟨experimentId, key, change⟩ := Forum.subscribeDiscussion_resubscribed done
      exact .inr ⟨change.board, change.events, change.starts⟩
    next => exact .inr (.refl _)
  | autoSubscribe now topicId branchId actor =>
    rw [Forum.step]
    split
    next followed after done =>
      exact .inr (Forum.autoSubscribe_resubscribed ordered.bounded kept done).unstirred
    next => exact .inr (.refl _)
  | elsewhere board referees events => exact .inl ⟨board, referees, events, rfl⟩

theorem Forum.Ordered.step (ordered : forum.Ordered) (kept : label.Kept forum) :
    (forum.step label).Ordered := by
  refine ⟨ordered.bounded.step kept, ?_, ?_, ?_⟩
  · rcases step_cases ordered kept with ⟨board, referees, events, rfl⟩ | unstirred
    · exact kept.1.numbered ordered.numbered
    · exact unstirred.events.numbered ordered.numbered
  · rcases step_cases ordered kept with ⟨board, referees, events, rfl⟩ | unstirred
    · exact kept.1.distinct ordered.distinct
    · exact unstirred.events.distinct ordered.distinct
  · rcases step_cases ordered kept with ⟨board, referees, events, rfl⟩ | unstirred
    · exact kept.2.1
    · intro event member owner sourceId kind post found
      rw [unstirred.board] at found
      have old := unstirred.events.silent event member (by rw [kind]; rfl)
      exact ordered.sequenced event old owner sourceId kind post found

theorem step_grows (ordered : forum.Ordered) (kept : label.Kept forum) :
    Grows forum.events (forum.step label).events ∧
      ∀ row ∈ (forum.step label).subscriptions, row.payload.subscribed = true →
        row ∈ forum.subscriptions ∨ forum.maxSequence ≤ row.payload.startSequence := by
  rcases step_cases ordered kept with ⟨board, referees, events, rfl⟩ | unstirred
  · exact ⟨kept.1, fun _ member _ => .inl member⟩
  · exact ⟨unstirred.events.toGrows, unstirred.starts⟩

/-- What is due in the log as it was, was due before. -/
theorem due_before (ordered : forum.Ordered) (kept : label.Kept forum) {n : Nat}
    (due : n ∈ (forum.step label).dueSequences reader) (old : n ≤ forum.maxSequence) :
    n ∈ forum.dueSequences reader := by
  obtain ⟨event, logged, due, rfl⟩ := due
  obtain ⟨grows, starts⟩ := step_grows ordered kept
  have numbered := (ordered.step kept).numbered
  have delivered : event.kind.delivered = true := by
    cases kind : event.kind with
    | postCreated => rfl
    | messageCreated => rfl
    | sourceWithdrawn => simp [Forum.due, kind] at due
    | other => simp [Forum.due, kind] at due
  rcases grows.delivered numbered logged delivered with before | ahead
  · refine ⟨event, before, ?_, rfl⟩
    unfold Forum.due at due ⊢
    rw [Bool.and_eq_true] at due ⊢
    refine ⟨due.1, ?_⟩
    cases kind : event.kind with
    | messageCreated => simpa [kind] using due.2
    | sourceWithdrawn => simp [kind] at due
    | other => simp [kind] at due
    | postCreated owner sourceId =>
      have followed := due.2
      simp only [kind, Bool.and_eq_true, List.any_eq_true, decide_eq_true_eq] at followed ⊢
      obtain ⟨experiment, row, member, topic, start⟩ := followed
      refine ⟨experiment, row, ?_, topic, start⟩
      obtain ⟨stored, reads, active⟩ := Forum.mem_following.mp member
      rcases starts row stored active with there | late
      · exact Forum.mem_following.mpr ⟨there, reads, active⟩
      · omega
  · omega

end

/-! ### Every run -/

/-- The reader is a consumer that has passed over what was skipped for it. -/
def Faithful (reader : ReaderId) (forum : Forum) (skipped : List Nat) : Prop :=
  forum.Ordered ∧ ∃ consumer, Represents forum reader consumer ∧
    Cursor.Sound (forum.dueSequences reader) consumer ∧ consumer.passed = skipped ∧
    consumer.reach ≤ forum.maxSequence

section
variable [ContentHash] {labels : List ForumLabel}

omit [ContentHash] in
theorem faithful_start (reader : ReaderId) : Faithful reader ({} : Forum) [] := by
  refine ⟨⟨⟨List.nodup_nil, fun _ => Nat.zero_le _, fun _ hat => ?_⟩, ?_, List.nodup_nil, ?_⟩, {}, ?_, ?_,
    rfl, Nat.le_refl _⟩
  · exact absurd hat List.not_mem_nil
  · exact fun _ none => absurd none List.not_mem_nil
  · exact fun _ none => absurd none List.not_mem_nil
  · constructor
    · rfl
    · rfl
    · exact fun batch => ⟨fun none => absurd none List.not_mem_nil, fun stores => by cases stores⟩
    · exact fun batch => ⟨(fun none => by cases none), fun stores => by cases stores⟩
  · apply Cursor.Sound.start
    rintro n ⟨event, none, -⟩
    exact absurd none List.not_mem_nil

theorem Faithful.step {reader : ReaderId} {forum : Forum} {skipped : List Nat} {label : ForumLabel}
    (faithful : Faithful reader forum skipped) (kept : label.Kept forum) :
    Faithful reader (forum.step label) (skipped ++ Forum.skips reader forum label) := by
  obtain ⟨ordered, consumer, represents, sound, passed, reach⟩ := faithful
  obtain ⟨next, follows⟩ := step_follows ordered kept represents
  have within : next.reach ≤ forum.maxSequence := follows.reach.trans (Nat.max_le.mpr ⟨reach, Nat.le_refl _⟩)
  refine ⟨ordered.step kept, next, follows.represents, ?_, by rw [follows.passed, passed], ?_⟩
  · have moved : Cursor.Sound (forum.dueSequences reader) next := by
      rcases follows.moves with rfl | moves
      · exact sound
      · exact moves.sound sound
    exact moved.grows fun n due reached => due_before ordered kept due (reached.trans within)
  · exact within.trans (Mail.max_le_of_grows (step_grows ordered kept).1)

theorem faithful_reached (kept : Forum.Kept labels) (reader : ReaderId) :
    Faithful reader (Forum.reached labels) (Forum.skipped reader labels) := by
  have run := Transition.trace_invariant (Faithful reader) (faithful_start reader)
    (fun _ _ _ faithful => faithful.step) kept
  rwa [List.nil_append] at run

/-- A delivery of the reader that tells of an event. -/
def Tells (forum : Forum) (reader : ReaderId) (acknowledged : Bool) (sequence : Nat) (id : Id) : Prop :=
  ∃ row, forum.deliveries.find id = some row ∧ Delivery.reader row = reader ∧
    row.payload.acknowledged = acknowledged ∧ (row.payload.items.map Item.sequence).count sequence = 1

omit [ContentHash] in
theorem Represents.tells (represents : Represents forum reader consumer) {sequence : Nat} {id : Id} :
    Tells forum reader true sequence id ↔
      ∃ batch ∈ consumer.settled, batch.name = id ∧ batch.items.count sequence = 1 := by
  constructor
  · rintro ⟨row, found, own, told, once⟩
    refine ⟨⟨id, row.payload.startSequence, row.payload.endSequence,
      row.payload.items.map Item.sequence⟩, ?_, rfl, once⟩
    rw [represents.settled, Stores, found, Option.map_some, Delivery.view, own, told]
  · rintro ⟨batch, settled, rfl, once⟩
    obtain ⟨row, found, view⟩ := Option.map_eq_some_iff.mp ((represents.settled batch).mp settled)
    simp only [Delivery.view, Prod.mk.injEq] at view
    obtain ⟨own, told, -, -, items⟩ := view
    exact ⟨row, found, own, told, items ▸ once⟩

omit [ContentHash] in
/-- One batch tells of an event, as one delivery does. -/
theorem Represents.tells_unique (represents : Represents forum reader consumer) {sequence : Nat} :
    (∃! batch, batch ∈ consumer.settled ∧ batch.items.count sequence = 1) ↔
      ∃! id, Tells forum reader true sequence id := by
  constructor
  · rintro ⟨batch, ⟨settled, once⟩, unique⟩
    refine ⟨batch.name, represents.tells.mpr ⟨batch, settled, rfl, once⟩, fun id tells => ?_⟩
    obtain ⟨other, also, rfl, again⟩ := represents.tells.mp tells
    exact congrArg Cursor.Batch.name (unique other ⟨also, again⟩)
  · rintro ⟨id, tells, unique⟩
    obtain ⟨batch, settled, rfl, once⟩ := represents.tells.mp tells
    refine ⟨batch, ⟨settled, once⟩, fun other both => ?_⟩
    have same := unique other.name (represents.tells.mpr ⟨other, both.1, rfl, both.2⟩)
    -- batches of one name are the view of one row
    have first := (represents.settled batch).mp settled
    have second := (represents.settled other).mp both.1
    obtain ⟨name, start, stop, items⟩ := batch
    obtain ⟨name', start', stop', items'⟩ := other
    obtain rfl : name' = name := same
    unfold Stores at first second
    rw [first] at second
    simp only [Option.some.injEq, Prod.mk.injEq, true_and] at second
    obtain ⟨rfl, rfl, rfl⟩ := second
    rfl

/-- In every run, an event that a reader is to get and that its cursor has passed was skipped, or it is
in exactly one acknowledged delivery of the reader, once. No two deliveries of a reader tell of one event,
none tells of one twice, and the one that is not acknowledged is the pending one. -/
theorem inbox_exactly_once (kept : Forum.Kept labels) (reader : ReaderId) :
    (∀ event ∈ (Forum.reached labels).events, (Forum.reached labels).due reader event = true →
      event.sequence ≤ ((Forum.reached labels).readerRow reader).ackSequence →
        Xor (event.sequence ∈ Forum.skipped reader labels)
          (∃! id, Tells (Forum.reached labels) reader true event.sequence id)) ∧
    (∀ id id' row row', (Forum.reached labels).deliveries.find id = some row →
      (Forum.reached labels).deliveries.find id' = some row' → Delivery.reader row = reader →
      Delivery.reader row' = reader → ∀ n ∈ row.payload.items.map Item.sequence,
        n ∈ row'.payload.items.map Item.sequence → id = id') ∧
    ∀ id row, (Forum.reached labels).deliveries.find id = some row → Delivery.reader row = reader →
      (row.payload.items.map Item.sequence).Nodup ∧
      (row.payload.acknowledged = false →
        ((Forum.reached labels).readerRow reader).pendingDeliveryId = some id) := by
  obtain ⟨ordered, consumer, represents, sound, passed, -⟩ := faithful_reached kept reader
  -- a delivery of the reader is a batch of the consumer
  have batch : ∀ id row, (Forum.reached labels).deliveries.find id = some row →
      Delivery.reader row = reader →
        (⟨id, row.payload.startSequence, row.payload.endSequence,
          row.payload.items.map Item.sequence⟩ : Cursor.Batch Id) ∈ consumer.batches := by
    intro id row found own
    cases told : row.payload.acknowledged with
    | true =>
      apply List.mem_append_left
      rw [represents.settled, Stores, found, Option.map_some, Delivery.view, own, told]
    | false =>
      apply List.mem_append_right
      rw [Option.mem_toList, represents.taken, Stores, found, Option.map_some,
        Delivery.view, own, told]
  refine ⟨fun event logged due read => ?_, ?_, ?_⟩
  · have once := sound.exactly_once ⟨event, logged, due, rfl⟩ (represents.ack ▸ read)
    rw [passed] at once
    have same : (∃! batch, batch ∈ consumer.settled ∧ batch.items.count event.sequence = 1) ↔
        ∃! id, Tells (Forum.reached labels) reader true event.sequence id := represents.tells_unique
    rwa [same] at once
  · intro id id' row row' found found' own own' n inside inside'
    exact congrArg Cursor.Batch.name
      (sound.batch_unique (batch id row found own) (batch id' row' found' own') inside inside')
  · intro id row found own
    refine ⟨(sound.items _ (batch id row found own)).1, fun open_ => ?_⟩
    have taken := (represents.taken ⟨id, row.payload.startSequence, row.payload.endSequence,
      row.payload.items.map Item.sequence⟩).mpr (by
        rw [Stores, found, Option.map_some, Delivery.view, own, open_])
    rw [represents.pending, taken]
    rfl

end

end Inbox

namespace Scenario

open Inbox

section

local instance inboxRunsHash : ContentHash := textHash

def postEvent : Inbox.Event := ⟨7, "project", "topic", .postCreated "experiment" "post"⟩

/-- The controller follows a topic, gets the post that comes after it, and acknowledges it. -/
def readingLabels : List ForumLabel :=
  [.elsewhere postedMail.board [] [], .subscribe "topic" true controller,
    .elsewhere postedMail.board [] [postEvent],
    .updates (envAt 0 "delivery") "experiment" controller none 10,
    .acknowledge "experiment" "delivery" controller]

theorem readingLabels_kept : Forum.Kept readingLabels := by
  have first : (ForumLabel.elsewhere postedMail.board [] []).Kept ({} : Forum) :=
    ⟨.refl _, fun _ none => absurd none List.not_mem_nil, fun _ hat => absurd hat List.not_mem_nil⟩
  have second : ∀ forum : Forum, (∀ event ∈ forum.events, event.sequence < 7 ∧ event.kind.delivered = false) →
      (ForumLabel.elsewhere postedMail.board [] [postEvent]).Kept forum := by
    intro forum few
    refine ⟨⟨⟨_, rfl, fun event member _ old logged => ?_⟩, fun positive event member => ?_,
      fun nodup => ?_⟩, ?_, fun _ hat => absurd hat List.not_mem_nil⟩
    · obtain rfl := List.mem_singleton.mp member
      exact (few old logged).1
    · rcases List.mem_append.mp member with old | new
      · exact positive event old
      · obtain rfl := List.mem_singleton.mp new
        decide
    · rw [List.map_append]
      apply List.Nodup.append nodup (List.nodup_singleton _)
      intro n old new
      obtain ⟨event, logged, rfl⟩ := List.mem_map.mp old
      exact absurd (List.mem_singleton.mp new) (few event logged).1.ne
    · intro event member owner sourceId kind post found
      rcases List.mem_append.mp member with old | new
      · have quiet := (few event old).2
        rw [kind] at quiet
        cases quiet
      · obtain rfl := List.mem_singleton.mp new
        obtain ⟨-, rfl⟩ | ⟨-, none⟩ := Table.find_put_cases found
        · rfl
        · cases none
  refine ⟨first, trivial, second _ ?_, trivial, trivial, trivial⟩
  have logged : (Transition.run Forum.step {} (readingLabels.take 2)).events.all (fun event =>
      decide (event.sequence < 7) && !event.kind.delivered) = true := by decide +kernel
  intro event member
  have small := List.all_eq_true.mp logged event member
  simpa using small

/-- The cursor has passed the post, and one delivery told of it. -/
theorem readingLabels_once :
    Xor (7 ∈ Forum.skipped ("project", "experiment", "actor:controller") readingLabels)
      (∃! id, Tells (Forum.reached readingLabels) ("project", "experiment", "actor:controller") true 7 id) :=
  (inbox_exactly_once readingLabels_kept ("project", "experiment", "actor:controller")).1 postEvent
    (by decide +kernel) (by decide +kernel) (by decide +kernel)

end

end Scenario

end PhysHarness
