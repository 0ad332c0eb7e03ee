import PhysHarness.Commons.Forum
import PhysHarness.Commons.Modules

/-!
# Who follows which thread

A write of a subscription replaces the row of its slot or adds one, and the row of an active subscription
starts at the end of the log. So a slot has one row, and a reader that is below the cap stays within it.

## Main results

* `subscriptions_bounded`: in every run no reader follows more than 100 threads, no referee follows one,
  and no scan is refused for the number of its reader's threads.
* `autoSubscribe_spares`: a best-effort subscription is never refused, and it takes from its reader at
  most one thread, which is not one of the reader's own work.
-/
namespace PhysHarness
namespace Inbox

open Outcome

/-! ### The log -/

section Log

variable {log later last : List Event} {mail : Mail}

theorem foldr_max_le {numbers : List Nat} {bound : Nat} :
    numbers.foldr max 0 ≤ bound ↔ ∀ n ∈ numbers, n ≤ bound := by
  induction numbers with
  | nil => simp
  | cons n numbers ih => simp [ih]

theorem Mail.maxSequence_le {bound : Nat} :
    mail.maxSequence ≤ bound ↔ ∀ event ∈ mail.events, event.sequence ≤ bound := by
  rw [Mail.maxSequence, foldr_max_le, List.forall_mem_map]

theorem Mail.sequence_le_max {event : Event} (logged : event ∈ mail.events) :
    event.sequence ≤ mail.maxSequence :=
  Mail.maxSequence_le.mp (Nat.le_refl _) event logged

theorem Grows.refl (log : List Event) : Grows log log where
  appended := ⟨[], by simp, by simp⟩
  numbered := id
  distinct := id

theorem Grows.trans (first : Grows log later) (second : Grows later last) : Grows log last where
  appended := by
    obtain ⟨one, rfl, above⟩ := first.appended
    obtain ⟨two, rfl, beyond⟩ := second.appended
    refine ⟨one ++ two, List.append_assoc .., fun event member kind old logged => ?_⟩
    rcases List.mem_append.mp member with early | late
    · exact above event early kind old logged
    · exact beyond event late kind old (List.mem_append_left _ logged)
  numbered := fun positive => second.numbered (first.numbered positive)
  distinct := fun nodup => second.distinct (first.distinct nodup)

theorem Grows.mem (grows : Grows log later) {event : Event} (logged : event ∈ log) : event ∈ later := by
  obtain ⟨events, rfl, -⟩ := grows.appended
  exact List.mem_append_left _ logged

theorem Quiet.refl (log : List Event) : Quiet log log where
  toGrows := .refl log
  silent := fun _ logged _ => logged

theorem Quiet.trans (first : Quiet log later) (second : Quiet later last) : Quiet log last where
  toGrows := first.toGrows.trans second.toGrows
  silent := fun event logged kind => first.silent event (second.silent event logged kind) kind

/-- The service's own events are of other kinds, under the next sequence. -/
theorem Mail.logged_quiet (mail : Mail) (projectId : ProjectId) (aggregateId : Id) {kind : EventKind}
    (other : kind.delivered = false) :
    Quiet mail.events (mail.logged projectId aggregateId kind).events where
  appended := by
    refine ⟨_, rfl, fun event member delivered => ?_⟩
    obtain rfl := List.mem_singleton.mp member
    rw [other] at delivered
    cases delivered
  numbered := by
    intro positive event member
    rcases List.mem_append.mp member with old | new
    · exact positive event old
    · obtain rfl := List.mem_singleton.mp new
      exact Nat.succ_pos _
  distinct := by
    intro nodup
    simp only [Mail.logged, List.map_append, List.map_singleton]
    apply List.Nodup.append nodup (List.nodup_singleton _)
    intro sequence old new
    obtain ⟨event, logged, rfl⟩ := List.mem_map.mp old
    have below := Mail.sequence_le_max logged
    have above := List.mem_singleton.mp new
    omega
  silent := by
    intro event member delivered
    rcases List.mem_append.mp member with old | new
    · exact old
    · obtain rfl := List.mem_singleton.mp new
      rw [other] at delivered
      cases delivered

theorem Mail.max_le_of_grows {after : Mail} (grows : Grows mail.events after.events) :
    mail.maxSequence ≤ after.maxSequence :=
  Mail.maxSequence_le.mpr fun _ logged => Mail.sequence_le_max (grows.mem logged)

/-- A post or a message of a later log is in the earlier one, or ahead of all of it. -/
theorem Grows.delivered {after : Mail} (grows : Grows mail.events after.events)
    (numbered : ∀ event ∈ after.events, 0 < event.sequence) {event : Event}
    (logged : event ∈ after.events) (kind : event.kind.delivered = true) :
    event ∈ mail.events ∨ mail.maxSequence < event.sequence := by
  obtain ⟨events, same, above⟩ := grows.appended
  have positive := numbered event logged
  rw [same] at logged
  rcases List.mem_append.mp logged with old | new
  · exact .inl old
  · right
    have beyond := above event new kind
    have below : mail.maxSequence ≤ event.sequence - 1 :=
      Mail.maxSequence_le.mpr fun old inside => Nat.le_pred_of_lt (beyond old inside)
    omega

end Log

/-! ### The rows of the subscriptions -/

/-- The first element of which a replacement is given is replaced. -/
theorem replaceF_append {α : Type} {change : α → Option α} {before behind : List α} {old new : α}
    (none_ : ∀ a ∈ before, change a = none) (some_ : change old = some new) :
    (before ++ old :: behind).replaceF change = before ++ new :: behind := by
  induction before with
  | nil => simp [List.replaceF, some_]
  | cons a before ih =>
    have here := none_ a List.mem_cons_self
    simp only [List.cons_append, List.replaceF, here]
    rw [ih fun b member => none_ b (List.mem_cons_of_mem _ member)]

namespace Forum

variable {forum after : Forum} {reader : ReaderId} {topicId : Id} {subscribed : Bool}
  {actor : Principal}

/-- The written row stands in the place of the one before it, or at the end. -/
theorem writeSubscription_rows (own : actor.projectId = reader.1) :
    ∃ before behind written,
      forum.subscriptions = before ++ (forum.prior (reader, topicId)).toList ++ behind ∧
      (forum.writeSubscription reader topicId subscribed actor).subscriptions =
        before ++ written :: behind ∧
      Subscription.slot written = (reader, topicId) ∧ written.payload.subscribed = subscribed ∧
      (subscribed = true → written.payload.startSequence = forum.maxSequence) ∧
      (∀ row ∈ before, Subscription.slot row ≠ (reader, topicId)) ∧
      (forum.prior (reader, topicId) = none → behind = []) := by
  unfold writeSubscription
  cases found : forum.prior (reader, topicId) with
  | none =>
    have others : ∀ row ∈ forum.subscriptions, Subscription.slot row ≠ (reader, topicId) := by
      intro row member same
      have absent := List.find?_eq_none.mp found row member
      simp [same] at absent
    refine ⟨forum.subscriptions, [], _, by simp, rfl, ?_, rfl, fun _ => rfl, others, fun _ => rfl⟩
    obtain ⟨projectId, experimentId, key⟩ := reader
    simp only [Subscription.slot, Subscription.reader]
    rw [own]
  | some old =>
    obtain ⟨same, before, behind, split, none_⟩ := List.find?_eq_some_iff_append.mp found
    have slot : Subscription.slot old = (reader, topicId) := by simpa using same
    have others : ∀ row ∈ before, Subscription.slot row ≠ (reader, topicId) := by
      intro row member equal
      have absent := none_ row member
      simp [equal] at absent
    refine ⟨before, behind, old.replace { old.payload with
      subscribed
      startSequence := if subscribed then forum.maxSequence else old.payload.startSequence },
      by simpa using split, ?_, slot, rfl, ?_, others, by simp⟩
    · show List.replaceF _ forum.subscriptions = _
      rw [split]
      apply replaceF_append
      · intro row member
        rw [if_neg (others row member)]
      · rw [if_pos slot]
    · rintro rfl
      rfl

/-- The reader of the slot gains the written row, and loses the one before it. -/
theorem length_following_write (own : actor.projectId = reader.1) (other : ReaderId) :
    ((forum.writeSubscription reader topicId subscribed actor).following other).length +
        (if other = reader ∧ ∃ row ∈ forum.prior (reader, topicId), row.payload.subscribed = true
          then 1 else 0) =
      (forum.following other).length + if other = reader ∧ subscribed = true then 1 else 0 := by
  obtain ⟨before, behind, written, split, rows, slot, active, -, -, -⟩ :=
    @writeSubscription_rows forum reader topicId subscribed actor own
  have reads : Subscription.reader written = reader := (Prod.mk.inj slot).1
  unfold following
  rw [rows, split]
  cases found : forum.prior (reader, topicId) with
  | none =>
    simp only [Option.toList_none, List.append_nil, List.filter_append, List.filter_cons,
      List.length_append, reads, active]
    by_cases same : other = reader
    · subst same
      cases subscribed <;> simp [Nat.add_assoc]
    · have apart : reader ≠ other := fun equal => same equal.symm
      simp [same, apart]
  | some old =>
    have stored : Subscription.reader old = reader := by
      have slot_ : Subscription.slot old = (reader, topicId) := by simpa using List.find?_some found
      exact (Prod.mk.inj slot_).1
    simp only [Option.toList_some, List.append_assoc, List.singleton_append, List.filter_append,
      List.filter_cons, List.length_append, reads, active, stored]
    by_cases same : other = reader
    · subst same
      cases subscribed <;> cases on : old.payload.subscribed <;> simp [on, Nat.add_assoc]
    · have apart : reader ≠ other := fun equal => same equal.symm
      simp [same, apart]

/-! ### What a change of subscriptions keeps -/

/-- Every slot has one row. -/
def Slots (forum : Forum) : Prop := (forum.subscriptions.map Subscription.slot).Nodup

/-- The cap, and the isolation of referees. -/
structure Bounded (forum : Forum) : Prop where
  slots : forum.Slots
  capped : ∀ reader, (forum.following reader).length ≤ maxSubscriptions
  isolated : ∀ branchId ∈ forum.referees, ∀ row ∈ forum.subscriptions,
    row.payload.readerKey = branchKey branchId → row.payload.subscribed = false

/-- The rest of the inboxes is as it was, and a row that became active starts at the end of the log. -/
structure Resubscribed (forum after : Forum) : Prop where
  board : after.board = forum.board
  readers : after.readers = forum.readers
  deliveries : after.deliveries = forum.deliveries
  referees : after.referees = forum.referees
  events : Quiet forum.events after.events
  starts : ∀ row ∈ after.subscriptions, row.payload.subscribed = true →
    row ∈ forum.subscriptions ∨ forum.maxSequence ≤ row.payload.startSequence
  bounded : forum.Bounded → after.Bounded

theorem Resubscribed.refl (forum : Forum) : Resubscribed forum forum where
  board := rfl
  readers := rfl
  deliveries := rfl
  referees := rfl
  events := .refl _
  starts := fun _ member _ => .inl member
  bounded := id

theorem Resubscribed.trans {last : Forum} (first : Resubscribed forum after)
    (second : Resubscribed after last) : Resubscribed forum last where
  board := second.board.trans first.board
  readers := second.readers.trans first.readers
  deliveries := second.deliveries.trans first.deliveries
  referees := second.referees.trans first.referees
  events := first.events.trans second.events
  starts := by
    intro row member active
    rcases second.starts row member active with old | late
    · exact first.starts row old active
    · exact .inr ((Mail.max_le_of_grows first.events.toGrows).trans late)
  bounded := fun bounded => second.bounded (first.bounded bounded)

theorem writeSubscription_resubscribed (own : actor.projectId = reader.1)
    (room : subscribed = true → (forum.following reader).length < maxSubscriptions)
    (free : subscribed = true → ∀ branchId ∈ forum.referees, reader.2.2 ≠ branchKey branchId) :
    Resubscribed forum (forum.writeSubscription reader topicId subscribed actor) := by
  obtain ⟨before, behind, written, split, rows, slot, active, start, others, none_⟩ :=
    @writeSubscription_rows forum reader topicId subscribed actor own
  have reads : Subscription.reader written = reader := (Prod.mk.inj slot).1
  have old : ∀ row ∈ before ++ behind, row ∈ forum.subscriptions := by
    intro row member
    rw [split]
    rcases List.mem_append.mp member with first | second
    · exact List.mem_append_left _ (List.mem_append_left _ first)
    · exact List.mem_append_right _ second
  constructor
  · rfl
  · rfl
  · rfl
  · rfl
  · exact Mail.logged_quiet _ _ _ rfl
  · intro row member on
    rw [rows] at member
    rcases List.mem_append.mp member with first | second
    · exact .inl (old row (List.mem_append_left _ first))
    · rcases List.mem_cons.mp second with rfl | third
      · exact .inr (start (active ▸ on)).ge
      · exact .inl (old row (List.mem_append_right _ third))
  · intro bounded
    constructor
    · -- the slots are the same ones, or a new one is added
      have nodup := bounded.slots
      unfold Slots at nodup ⊢
      rw [rows]
      rw [split] at nodup
      cases found : forum.prior (reader, topicId) with
      | none =>
        obtain rfl := none_ found
        rw [found, Option.toList_none, List.append_nil, List.append_nil] at nodup
        rw [List.map_append, List.map_singleton]
        apply List.Nodup.append nodup (List.nodup_singleton _)
        intro other member final
        obtain ⟨row, inside, rfl⟩ := List.mem_map.mp member
        exact others row inside ((List.mem_singleton.mp final).trans slot)
      | some row =>
        have same : Subscription.slot row = Subscription.slot written := by
          rw [slot]
          simpa using List.find?_some found
        rw [found, Option.toList_some] at nodup
        simpa [same] using nodup
    · intro other
      have gains := @length_following_write forum reader topicId subscribed actor own other
      have within := bounded.capped other
      by_cases added : other = reader ∧ subscribed = true
      · rw [if_pos added] at gains
        obtain ⟨rfl, on⟩ := added
        have below := room on
        omega
      · rw [if_neg added] at gains
        omega
    · intro branchId hat row member key
      rw [rows] at member
      rcases List.mem_append.mp member with first | second
      · exact bounded.isolated branchId hat row (old row (List.mem_append_left _ first)) key
      · rcases List.mem_cons.mp second with rfl | third
        · rw [active]
          by_contra on
          have readerKey : row.payload.readerKey = reader.2.2 := by rw [← reads]; rfl
          exact free (by simpa using on) branchId hat (readerKey ▸ key)
        · exact bounded.isolated branchId hat row (old row (List.mem_append_right _ third)) key

/-! ### One subscription -/

theorem branchKey_inj {first second : Id} (same : branchKey first = branchKey second) :
    first = second := by
  have texts := congrArg String.toList same
  simp only [branchKey, String.toList_append, List.append_cancel_left_eq] at texts
  exact String.toList_inj.mp texts

/-- The key of a branch is the key of its agents only. -/
theorem readerKey_branch {branchId : Id} (key : readerKey actor = .ok (branchKey branchId)) :
    actor.role = .agent ∧ actor.branchId = some branchId := by
  unfold readerKey at key
  split at key
  next agent =>
    refine ⟨agent, ?_⟩
    split at key
    next own _ held _ =>
      rw [held, branchKey_inj (Except.ok.inj key)]
    next => cases key
  next =>
    have texts := congrArg String.toList (Except.ok.inj key)
    simp [branchKey, String.toList_append] at texts

/-- A subscription that the cap refuses, one that is as asked already, and one that is written. -/
theorem setSubscription_ok {topic : Row Topic} {branchId : Option Id}
    (done : forum.setSubscription topicId topic branchId subscribed actor = .ok after) :
    ∃ key, (subscribed = true → ∀ id ∈ forum.referees, key ≠ branchKey id) ∧
      (after = forum ∨
        (subscribed = true → (forum.following (topic.projectId, topic.payload.experimentId, key)).length <
          maxSubscriptions) ∧
        after = forum.writeSubscription (topic.projectId, topic.payload.experimentId, key) topicId
          subscribed actor) := by
  simp only [setSubscription, bind_ok, require_ok] at done
  obtain ⟨-, free, key, named, done⟩ := done
  refine ⟨key, ?_, ?_⟩
  · intro on id hat same
    have plain := free on
    have reads : branchId.or actor.branchId = some id := by
      cases branchId with
      | some own =>
        rw [branchKey_inj ((Except.ok.inj named).trans same)]
        rfl
      | none => exact (readerKey_branch (same ▸ named)).2
    rw [reads] at plain
    simp [isReferee, hat] at plain
  · split at done
    · exact .inl (Except.ok.inj done).symm
    · simp only [bind_ok, require_ok, pure_ok] at done
      obtain ⟨-, room, rfl⟩ := done
      exact .inr ⟨room, rfl⟩

theorem setSubscription_resubscribed {topic : Row Topic} {branchId : Option Id}
    (own : actor.projectId = topic.projectId)
    (done : forum.setSubscription topicId topic branchId subscribed actor = .ok after) :
    Resubscribed forum after := by
  obtain ⟨key, free, rfl | ⟨room, rfl⟩⟩ := setSubscription_ok done
  · exact .refl _
  · exact writeSubscription_resubscribed own room free

/-! ### Who follows what -/

theorem mem_following {row : Row Subscription} : row ∈ forum.following reader ↔
    row ∈ forum.subscriptions ∧ Subscription.reader row = reader ∧ row.payload.subscribed = true := by
  simp [following]

theorem following_topics (bounded : forum.Bounded) (reader : ReaderId) :
    ((forum.following reader).map fun row => row.payload.topicId).Nodup := by
  -- two rows of one reader and one topic have the same slot
  apply List.Nodup.of_map (fun topicId => (reader, topicId))
  rw [List.map_map]
  have slots : ((forum.following reader).map Subscription.slot).Nodup :=
    List.Nodup.sublist (List.filter_sublist.map _) bounded.slots
  refine (List.map_congr_left fun row member => ?_) ▸ slots
  obtain ⟨-, reads, -⟩ := mem_following.mp member
  simp [Subscription.slot, reads]

/-- The reader gets the posts of the topic. -/
def Follows (forum : Forum) (reader : ReaderId) (topicId : Id) : Prop :=
  ∃ row ∈ forum.following reader, row.payload.topicId = topicId

theorem follows_iff {id : Id} : forum.Follows reader id ↔
    ∃ row ∈ forum.subscriptions, Subscription.slot row = (reader, id) ∧
      row.payload.subscribed = true := by
  simp only [Follows, mem_following, Subscription.slot, Prod.mk.injEq]
  constructor
  · rintro ⟨row, ⟨stored, same, active⟩, topic⟩
    exact ⟨row, stored, ⟨same, topic⟩, active⟩
  · rintro ⟨row, stored, ⟨same, topic⟩, active⟩
    exact ⟨row, ⟨stored, same, active⟩, topic⟩

theorem prior_of_mem (slots : forum.Slots) {row : Row Subscription} (stored : row ∈ forum.subscriptions) :
    forum.prior (Subscription.slot row) = some row := by
  cases found : forum.prior (Subscription.slot row) with
  | none =>
    have absent := List.find?_eq_none.mp found row stored
    simp at absent
  | some other =>
    have same : Subscription.slot other = Subscription.slot row := by
      simpa using List.find?_some found
    rw [List.inj_on_of_nodup_map slots (List.mem_of_find?_eq_some found) stored same]

theorem follows_prior (slots : forum.Slots) {id : Id} : forum.Follows reader id ↔
    (forum.prior (reader, id)).map (fun row => row.payload.subscribed) = some true := by
  rw [follows_iff, Option.map_eq_some_iff]
  constructor
  · rintro ⟨row, stored, slot, active⟩
    exact ⟨row, slot ▸ prior_of_mem slots stored, active⟩
  · rintro ⟨row, found, active⟩
    exact ⟨row, List.mem_of_find?_eq_some found, by simpa using List.find?_some found, active⟩

/-- A written slot is followed as asked, and no other slot is touched. -/
theorem follows_write (slots : forum.Slots) (own : actor.projectId = reader.1) {other : ReaderId} {id : Id} :
    (forum.writeSubscription reader topicId subscribed actor).Follows other id ↔
      if (other, id) = (reader, topicId) then subscribed = true else forum.Follows other id := by
  obtain ⟨before, behind, written, split, rows, slot, active, -, others, none_⟩ :=
    @writeSubscription_rows forum reader topicId subscribed actor own
  have away : ∀ row ∈ behind, Subscription.slot row ≠ (reader, topicId) := by
    intro row member same
    cases found : forum.prior (reader, topicId) with
    | none =>
      rw [none_ found] at member
      cases member
    | some old =>
      have stored : Subscription.slot old = (reader, topicId) := by simpa using List.find?_some found
      have nodup := slots
      rw [Slots, split, found, Option.toList_some, List.append_assoc, List.map_append,
        List.singleton_append, List.map_cons] at nodup
      have apart := (List.nodup_cons.mp (List.nodup_append.mp nodup).2.1).1
      rw [stored, ← same] at apart
      exact apart (List.mem_map_of_mem member)
  rw [follows_iff, rows]
  split
  next same =>
    rw [same]
    constructor
    · rintro ⟨row, member, here, on⟩
      rcases List.mem_append.mp member with first | second
      · exact absurd here (others row first)
      · rcases List.mem_cons.mp second with rfl | third
        · exact active ▸ on
        · exact absurd here (away row third)
    · intro on
      exact ⟨written, List.mem_append_right _ List.mem_cons_self, slot, active.trans on⟩
  next apart =>
    rw [follows_iff, split]
    constructor
    · rintro ⟨row, member, here, on⟩
      refine ⟨row, ?_, here, on⟩
      rcases List.mem_append.mp member with first | second
      · exact List.mem_append_left _ (List.mem_append_left _ first)
      · rcases List.mem_cons.mp second with rfl | third
        · exact absurd (here.symm.trans slot) apart
        · exact List.mem_append_right _ third
    · rintro ⟨row, member, here, on⟩
      refine ⟨row, ?_, here, on⟩
      rcases List.mem_append.mp member with first | second
      · rcases List.mem_append.mp first with third | old
        · exact List.mem_append_left _ third
        · have stored : Subscription.slot row = (reader, topicId) := by
            simpa using List.find?_some (Option.mem_toList.mp old)
          exact absurd (here.symm.trans stored) apart
      · exact List.mem_append_right _ (List.mem_cons_of_mem _ second)

/-! ### Best-effort subscriptions -/

section

variable {topic : Row Topic} {branchId : Id} {writer : Principal}

/-- The reader of a branch in the experiment of a topic. -/
def branchReader (topic : Row Topic) (branchId : Id) : ReaderId :=
  (topic.projectId, topic.payload.experimentId, branchKey branchId)

theorem setSubscription_branch (free : subscribed = true → forum.isReferee (some branchId) = false) :
    forum.setSubscription topicId topic (some branchId) subscribed writer =
      if (forum.prior (branchReader topic branchId, topicId)).map (fun row => row.payload.subscribed) =
        some subscribed then .ok forum
      else if subscribed = true → (forum.following (branchReader topic branchId)).length <
        maxSubscriptions then
        .ok (forum.writeSubscription (branchReader topic branchId) topicId subscribed writer)
      else .error (.refuse "SUBSCRIPTION_LIMIT" "A reader may subscribe to at most 100 topics." 422) := by
  have named : subscriberKey (some branchId) writer = .ok (branchKey branchId) := rfl
  rw [setSubscription, Option.some_or, require_then free, ok_then named]
  show (if _ then _ else _) = _
  congr 1
  by_cases room : subscribed = true →
      (forum.following (branchReader topic branchId)).length < maxSubscriptions
  · rw [if_pos room]
    exact require_then room _
  · rw [if_neg room, require]
    exact if_neg room ▸ rfl

/-- An attempt finds the thread followed, or adds it, or is stopped by the cap. -/
theorem trySubscribe_cases (slots : forum.Slots) (free : forum.isReferee (some branchId) = false) :
    (forum.Follows (branchReader topic branchId) topicId ∧
      forum.trySubscribe topicId topic branchId writer = .ok (true, forum)) ∨
    ((forum.following (branchReader topic branchId)).length < maxSubscriptions ∧
      forum.trySubscribe topicId topic branchId writer = .ok (true,
        forum.writeSubscription (branchReader topic branchId) topicId true writer)) ∨
    (¬ forum.Follows (branchReader topic branchId) topicId ∧
      maxSubscriptions ≤ (forum.following (branchReader topic branchId)).length ∧
      forum.trySubscribe topicId topic branchId writer = .ok (false, forum)) := by
  unfold trySubscribe
  rw [setSubscription_branch fun _ => free, follows_prior slots]
  by_cases same : (forum.prior (branchReader topic branchId, topicId)).map
      (fun row => row.payload.subscribed) = some true
  · rw [if_pos same]
    exact .inl ⟨same, rfl⟩
  · rw [if_neg same]
    by_cases room : (forum.following (branchReader topic branchId)).length < maxSubscriptions
    · rw [if_pos fun _ => room]
      exact .inr (.inl ⟨room, rfl⟩)
    · rw [if_neg fun below => room (below rfl)]
      exact .inr (.inr ⟨same, Nat.le_of_not_lt room, rfl⟩)

/-! ### Giving up a thread -/

/-- The thread of a closed node, or of a node that the branch neither wrote nor works on. -/
inductive Evictable (board : Board) (now : Time) (projectId : ProjectId) (experimentId branchId topicId : Id) :
    Nat → Prop where
  | closed {nodeId : Id} {node : Row ThreadNode}
      (thread : threadNode board projectId experimentId topicId = some nodeId)
      (stored : board.nodes.find nodeId = some node) (shut : isOpen node.payload.status = false) :
      Evictable board now projectId experimentId branchId topicId 0
  | unrelated {nodeId : Id} {node : Row ThreadNode}
      (thread : threadNode board projectId experimentId topicId = some nodeId)
      (stored : board.nodes.find nodeId = some node) (opened : isOpen node.payload.status = true)
      (author : node.payload.branchId ≠ some branchId)
      (idle : nodeId ∉ claimedNodes board now projectId experimentId branchId) :
      Evictable board now projectId experimentId branchId topicId 1

theorem rank_some {board : Board} {projectId : ProjectId} {claimed : List Id} {nodeId : Id} {tier : Nat}
    (ranked : rank board projectId claimed branchId nodeId = some tier) :
    ∃ node, board.nodes.find nodeId = some node ∧
      ((tier = 0 ∧ isOpen node.payload.status = false) ∨
        (tier = 1 ∧ isOpen node.payload.status = true ∧ node.payload.branchId ≠ some branchId ∧
          nodeId ∉ claimed)) := by
  unfold rank at ranked
  split at ranked
  · cases ranked
  next node stored =>
    refine ⟨node, stored, ?_⟩
    split at ranked
    · cases ranked
    · split at ranked
      next shut => exact .inl ⟨(Option.some.inj ranked).symm, shut⟩
      next opened =>
        split at ranked
        next apart =>
          exact .inr ⟨(Option.some.inj ranked).symm, by simpa using opened, apart.1, apart.2⟩
        · cases ranked

theorem mem_candidates {now : Time} {projectId : ProjectId} {experimentId : Id} {tier : Nat}
    {row : Row Subscription} (member : (tier, row) ∈ forum.candidates now projectId experimentId branchId) :
    row ∈ forum.following (projectId, experimentId, branchKey branchId) ∧
      Evictable forum.board now projectId experimentId branchId row.payload.topicId tier := by
  obtain ⟨other, listed, made⟩ := List.mem_filterMap.mp member
  split at made
  · cases made
  next nodeId thread =>
    obtain ⟨found, ranked, same⟩ := Option.map_eq_some_iff.mp made
    obtain ⟨rfl, rfl⟩ := Prod.mk.inj same
    refine ⟨List.mem_of_mem_take listed, ?_⟩
    obtain ⟨node, stored, ⟨rfl, shut⟩ | ⟨rfl, opened, author, idle⟩⟩ := rank_some ranked
    · exact .closed thread stored shut
    · exact .unrelated thread stored opened author idle

theorem Evictable.held {board : Board} {now : Time} {projectId : ProjectId} {experimentId id : Id}
    {tier : Nat} (evictable : Evictable board now projectId experimentId branchId id tier) :
    ∃ topic, board.topics.find id = some topic ∧ topic.projectId = projectId ∧
      topic.payload.experimentId = experimentId := by
  obtain ⟨nodeId, thread⟩ : ∃ nodeId, threadNode board projectId experimentId id = some nodeId := by
    cases evictable with
    | closed thread => exact ⟨_, thread⟩
    | unrelated thread => exact ⟨_, thread⟩
  unfold threadNode at thread
  split at thread
  · cases thread
  next topic found =>
    split at thread
    next same => exact ⟨topic, found, same⟩
    next => cases thread

/-- The first of the candidates by their tiers and their starts. -/
structure Oldest (forum : Forum) (now : Time) (reader : ReaderId) (branchId : Id) (tier : Nat)
    (row : Row Subscription) : Prop where
  followed : row ∈ forum.following reader
  evictable : Evictable forum.board now reader.1 reader.2.1 branchId row.payload.topicId tier
  first : ∀ other ∈ forum.candidates now reader.1 reader.2.1 branchId, older (tier, row) other = true

theorem older_trans (x y z : Nat × Row Subscription) (first : older x y = true) (second : older y z = true) :
    older x z = true := by
  simp only [older, Bool.or_eq_true, Bool.and_eq_true, decide_eq_true_eq] at *
  omega

theorem older_total (x y : Nat × Row Subscription) : older x y = true ∨ older y x = true := by
  simp only [older, Bool.or_eq_true, Bool.and_eq_true, decide_eq_true_eq]
  omega

theorem release_cases (slots : forum.Slots) (now : Time)
    (own : writer.projectId = topic.projectId) :
    (forum.candidates now topic.projectId topic.payload.experimentId branchId = [] ∧
      forum.releaseEvictableThread now topic.payload.experimentId branchId writer = .ok (false, forum)) ∨
    ∃ tier row, Oldest forum now (branchReader topic branchId) branchId tier row ∧
      forum.releaseEvictableThread now topic.payload.experimentId branchId writer = .ok (true,
        forum.writeSubscription (branchReader topic branchId) row.payload.topicId false writer) := by
  unfold releaseEvictableThread
  rw [own]
  cases sorted : (forum.candidates now topic.projectId topic.payload.experimentId branchId).insertionSort
      fun first second => older first second = true with
  | nil =>
    left
    refine ⟨?_, rfl⟩
    have same := List.perm_insertionSort (fun first second => older first second = true)
      (forum.candidates now topic.projectId topic.payload.experimentId branchId)
    rw [sorted] at same
    exact same.symm.eq_nil
  | cons oldest rest =>
    right
    obtain ⟨tier, row⟩ := oldest
    have same := List.perm_insertionSort (fun first second => older first second = true)
      (forum.candidates now topic.projectId topic.payload.experimentId branchId)
    rw [sorted] at same
    obtain ⟨listed, evictable⟩ := mem_candidates (same.mem_iff.mp List.mem_cons_self)
    refine ⟨tier, row, ⟨listed, evictable, fun other member => ?_⟩, ?_⟩
    · have total : Std.Total fun x y => older x y = true := ⟨older_total⟩
      have trans : IsTrans _ fun x y => older x y = true := ⟨older_trans⟩
      have ordered := List.pairwise_insertionSort (fun first second => older first second = true)
        (forum.candidates now topic.projectId topic.payload.experimentId branchId)
      rw [sorted] at ordered
      rcases List.mem_cons.mp (same.mem_iff.mpr member) with rfl | later
      · exact (older_total _ _).elim id id
      · exact (List.pairwise_cons.mp ordered).1 other later
    · obtain ⟨held, found, project, experiment⟩ := evictable.held
      have place : branchReader held branchId = branchReader topic branchId := by
        rw [branchReader, branchReader, project, experiment]
      obtain ⟨stored, reads, active⟩ := mem_following.mp listed
      have slot : Subscription.slot row = (branchReader topic branchId, row.payload.topicId) := by
        rw [Subscription.slot, reads]
        rfl
      simp only [List.head?_cons]
      rw [orThrow_then found, setSubscription_branch (fun on => by cases on), place, ← slot,
        prior_of_mem slots stored]
      simp [active]

/-- What a best-effort subscription of a branch to a topic does. -/
structure Spares (forum after : Forum) (now : Time) (topicId : Id) (topic : Row Topic) (branchId : Id)
    (followed : Bool) : Prop where
  follows : followed = true → after.Follows (branchReader topic branchId) topicId
  declined : followed = false → after = forum ∧
    (forum.isReferee (some branchId) = true ∨ goalThread forum.board topic = true ∨
      (forum.following (branchReader topic branchId)).length = maxSubscriptions ∧
        forum.candidates now topic.projectId topic.payload.experimentId branchId = [])
  others : ∀ reader id, reader ≠ branchReader topic branchId →
    (after.Follows reader id ↔ forum.Follows reader id)
  added : ∀ id, after.Follows (branchReader topic branchId) id →
    forum.Follows (branchReader topic branchId) id ∨ id = topicId
  lost : ∀ id, forum.Follows (branchReader topic branchId) id →
    ¬ after.Follows (branchReader topic branchId) id →
      (forum.following (branchReader topic branchId)).length = maxSubscriptions ∧
      ∃ tier row, Oldest forum now (branchReader topic branchId) branchId tier row ∧
        row.payload.topicId = id
  one : ∀ id id', forum.Follows (branchReader topic branchId) id →
    ¬ after.Follows (branchReader topic branchId) id → forum.Follows (branchReader topic branchId) id' →
    ¬ after.Follows (branchReader topic branchId) id' → id = id'

theorem Spares.unchanged {now : Time} {followed : Bool}
    (follows : followed = true → forum.Follows (branchReader topic branchId) topicId)
    (declined : followed = false → forum.isReferee (some branchId) = true ∨
      goalThread forum.board topic = true ∨
        (forum.following (branchReader topic branchId)).length = maxSubscriptions ∧
          forum.candidates now topic.projectId topic.payload.experimentId branchId = []) :
    Spares forum forum now topicId topic branchId followed where
  follows := follows
  declined := fun no => ⟨rfl, declined no⟩
  others := fun _ _ _ => Iff.rfl
  added := fun _ => .inl
  lost := fun _ here gone => absurd here gone
  one := fun _ _ here gone => absurd here gone

theorem Spares.added_only {now : Time} (slots : forum.Slots) (own : writer.projectId = topic.projectId) :
    Spares forum (forum.writeSubscription (branchReader topic branchId) topicId true writer) now topicId
      topic branchId true := by
  have written : ∀ reader id, (forum.writeSubscription (branchReader topic branchId) topicId true
      writer).Follows reader id ↔
        if (reader, id) = (branchReader topic branchId, topicId) then true = true
        else forum.Follows reader id := fun reader id => follows_write slots own
  have keeps : ∀ id, forum.Follows (branchReader topic branchId) id →
      (forum.writeSubscription (branchReader topic branchId) topicId true writer).Follows
        (branchReader topic branchId) id := by
    intro id here
    rw [written]
    split
    · rfl
    · exact here
  constructor
  · intro _
    rw [written, if_pos rfl]
  · exact fun no => by cases no
  · intro reader id apart
    rw [written, if_neg fun same => apart (Prod.mk.inj same).1]
  · intro id here
    rw [written] at here
    split at here
    next same => exact .inr (Prod.mk.inj same).2
    next => exact .inl here
  · exact fun id here gone => absurd (keeps id here) gone
  · exact fun id _ here gone => absurd (keeps id here) gone

/-- A thread is given up for the new one. -/
theorem Spares.swapped {now : Time} {tier : Nat} {row : Row Subscription} (bounded : forum.Bounded)
    (own : writer.projectId = topic.projectId)
    (full : maxSubscriptions ≤ (forum.following (branchReader topic branchId)).length)
    (oldest : Oldest forum now (branchReader topic branchId) branchId tier row)
    {freed : Forum} (frees : freed =
      forum.writeSubscription (branchReader topic branchId) row.payload.topicId false writer) :
    Spares forum (freed.writeSubscription (branchReader topic branchId) topicId true writer) now topicId
      topic branchId true := by
  have slots : freed.Slots := by
    subst frees
    exact ((writeSubscription_resubscribed own (fun on => by cases on) fun on => by cases on).bounded
      bounded).slots
  have written : ∀ reader id, (freed.writeSubscription (branchReader topic branchId) topicId true
      writer).Follows reader id ↔
        if (reader, id) = (branchReader topic branchId, topicId) then true = true
        else freed.Follows reader id := fun reader id => follows_write slots own
  have unwritten : ∀ reader id, freed.Follows reader id ↔
      if (reader, id) = (branchReader topic branchId, row.payload.topicId) then false = true
      else forum.Follows reader id := by
    subst frees
    exact fun reader id => follows_write bounded.slots own
  have loses : ∀ id, forum.Follows (branchReader topic branchId) id →
      ¬ (freed.writeSubscription (branchReader topic branchId) topicId true writer).Follows
        (branchReader topic branchId) id → row.payload.topicId = id := by
    intro id here gone
    rw [written] at gone
    split at gone
    · exact absurd rfl gone
    next =>
      rw [unwritten] at gone
      split at gone
      next same => exact (Prod.mk.inj same).2.symm
      next => exact absurd here gone
  constructor
  · intro _
    rw [written, if_pos rfl]
  · exact fun no => by cases no
  · intro reader id apart
    rw [written, if_neg fun same => apart (Prod.mk.inj same).1, unwritten,
      if_neg fun same => apart (Prod.mk.inj same).1]
  · intro id here
    rw [written] at here
    split at here
    next same => exact .inr (Prod.mk.inj same).2
    next =>
      rw [unwritten] at here
      split at here
      · cases here
      · exact .inl here
  · exact fun id here gone => ⟨Nat.le_antisymm (bounded.capped _) full, tier, row, oldest, loses id here gone⟩
  · exact fun id id' here gone here' gone' => (loses id here gone).symm.trans (loses id' here' gone')

/-- A best-effort subscription is never refused; where it succeeds the branch follows the thread, and it
takes at most one thread of a full reader, the first one that may be given up. -/
theorem autoSubscribe_spared (bounded : forum.Bounded) (now : Time)
    (found : forum.board.topics.find topicId = some topic) (within : topic.projectId = actor.projectId) :
    ∃ followed after, forum.autoSubscribe now (some topicId) (some branchId) actor = .ok (followed, after) ∧
      Spares forum after now topicId topic branchId followed ∧ Resubscribed forum after := by
  unfold autoSubscribe
  dsimp only
  by_cases referee : forum.isReferee (some branchId) = true
  · rw [if_pos referee]
    exact ⟨false, forum, rfl, .unchanged (fun no => by cases no) fun _ => .inl referee, .refl _⟩
  rw [if_neg referee, found]
  dsimp only
  by_cases goal : goalThread forum.board topic = true
  · rw [if_pos goal]
    exact ⟨false, forum, rfl, .unchanged (fun no => by cases no) fun _ => .inr (.inl goal), .refl _⟩
  rw [if_neg goal]
  -- the writer is of the topic's project in either case
  obtain ⟨writer, writes, own⟩ : ∃ writer : Principal,
      (if actor.branchId = some branchId then actor else platformPrincipal topic.projectId) = writer ∧
        writer.projectId = topic.projectId := by
    refine ⟨_, rfl, ?_⟩
    split
    · exact within.symm
    · rfl
  rw [writes]
  have free : forum.isReferee (some branchId) = false := by simpa using referee
  have isolated : ∀ {start : Forum}, start.referees = forum.referees →
      ∀ id ∈ start.referees, (branchReader topic branchId).2.2 ≠ branchKey id := by
    intro start same id hat key
    rw [same] at hat
    obtain rfl := branchKey_inj key
    simp [isReferee, hat] at free
  rcases @trySubscribe_cases forum topicId topic branchId writer bounded.slots free with
    ⟨here, tried⟩ | ⟨room, tried⟩ | ⟨absent, full, tried⟩
  · rw [ok_then tried]
    exact ⟨true, forum, rfl, .unchanged (fun _ => here) (fun no => by cases no), .refl _⟩
  · rw [ok_then tried]
    exact ⟨true, _, rfl, .added_only bounded.slots own,
      writeSubscription_resubscribed own (fun _ => room) fun _ => isolated rfl⟩
  · rw [ok_then tried]
    dsimp only
    rcases @release_cases forum topic branchId writer bounded.slots now own with
      ⟨none, released⟩ | ⟨tier, row, oldest, released⟩
    · rw [if_neg Bool.false_ne_true, ok_then released]
      exact ⟨false, forum, rfl, .unchanged (fun no => by cases no)
        fun _ => .inr (.inr ⟨Nat.le_antisymm (bounded.capped _) full, none⟩), .refl _⟩
    · rw [if_neg Bool.false_ne_true, ok_then released]
      have freeing : Resubscribed forum
          (forum.writeSubscription (branchReader topic branchId) row.payload.topicId false writer) :=
        writeSubscription_resubscribed own (fun on => by cases on) fun on => by cases on
      have freed := freeing.bounded bounded
      have room : ((forum.writeSubscription (branchReader topic branchId) row.payload.topicId false
          writer).following (branchReader topic branchId)).length < maxSubscriptions := by
        have gains := @length_following_write forum (branchReader topic branchId) row.payload.topicId
          false writer own (branchReader topic branchId)
        obtain ⟨stored, reads, active⟩ := mem_following.mp oldest.followed
        have slot : Subscription.slot row = (branchReader topic branchId, row.payload.topicId) := by
          rw [Subscription.slot, reads]
        rw [if_pos ⟨rfl, row, by rw [← slot]; exact prior_of_mem bounded.slots stored, active⟩,
          if_neg fun both => Bool.false_ne_true both.2] at gains
        have within_ := bounded.capped (branchReader topic branchId)
        omega
      have referees := freeing.referees
      have free_ : (forum.writeSubscription (branchReader topic branchId) row.payload.topicId false
          writer).isReferee (some branchId) = false := by
        unfold isReferee at free ⊢
        rw [referees]
        exact free
      rcases @trySubscribe_cases _ topicId topic branchId writer freed.slots free_ with
        ⟨here, -⟩ | ⟨-, again⟩ | ⟨-, still, -⟩
      · rw [follows_write bounded.slots own] at here
        split at here
        · cases here
        · exact absurd here absent
      · rw [if_pos rfl]
        exact ⟨true, _, again, .swapped bounded own full oldest rfl,
          freeing.trans (writeSubscription_resubscribed own (fun _ => room) fun _ => isolated referees)⟩
      · exact absurd room (Nat.not_lt.mpr still)

end

end Forum

/-! ### The other transactions -/

/-- Withdrawals are recorded and logged, and nothing else changes. -/
structure Recorded (mail after : Mail) : Prop where
  board : after.board = mail.board
  subscriptions : after.subscriptions = mail.subscriptions
  readers : after.readers = mail.readers
  deliveries : after.deliveries = mail.deliveries
  events : Quiet mail.events after.events

theorem recordWithdrawals_recorded (env : Env) (actor : Principal) (experimentId : Id) (key : String)
    (deliveryId : Id) (mail : Mail) (withdrawn : List Withdrawn) :
    Recorded mail (recordWithdrawals env actor experimentId key deliveryId mail withdrawn) := by
  unfold recordWithdrawals
  induction withdrawn.zipIdx.map fun item => (item.1, env.newId (item.2 + 1)) generalizing mail with
  | nil => exact ⟨rfl, rfl, rfl, rfl, .refl _⟩
  | cons audit audits ih =>
    rw [List.foldl_cons]
    have rest := ih (recordWithdrawal actor experimentId key deliveryId mail audit)
    have logged := @Mail.logged_quiet mail actor.projectId audit.2
      (.sourceWithdrawn experimentId audit.1.sequence) rfl
    exact ⟨rest.board, rest.subscriptions, rest.readers, rest.deliveries, logged.trans rest.events⟩

/-- Readers and deliveries change, and withdrawals are logged. -/
structure Mailed (mail after : Mail) : Prop where
  board : after.board = mail.board
  subscriptions : after.subscriptions = mail.subscriptions
  events : Quiet mail.events after.events

theorem Recorded.mailed {mail after : Mail} (recorded : Recorded mail after) : Mailed mail after :=
  ⟨recorded.board, recorded.subscriptions, recorded.events⟩

theorem Mailed.refl (mail : Mail) : Mailed mail mail := ⟨rfl, rfl, .refl _⟩

theorem storeRevised_mailed (mail : Mail) (env : Env) (experimentId : Id) (actor : Principal)
    (key : String) (deliveryId : Id) (row : Row Delivery) (revised : List Item × List Withdrawn) :
    Mailed mail (storeRevised mail env experimentId actor key deliveryId row revised) := by
  unfold storeRevised
  split
  · exact .refl _
  · have recorded := recordWithdrawals_recorded env actor experimentId key deliveryId mail revised.2
    exact ⟨recorded.board, recorded.subscriptions, recorded.events⟩

section
variable [ContentHash] {mail after : Mail} {env : Env} {experimentId deliveryId : Id} {actor : Principal}
  {cursor : Option Int} {limit : Int}

theorem discussionUpdates_mailed {update : Update}
    (done : discussionUpdates mail env experimentId actor cursor limit = .ok (update, after)) :
    Mailed mail after := by
  obtain ⟨experiment, key, reader, -, ⟨pendingId, row, revised, -, -, -, -, rfl⟩ | ⟨-, clauses, -, done⟩⟩ :=
    discussionUpdates_ok done
  · have stored := storeRevised_mailed (setReader mail actor experimentId key reader) env experimentId
      actor key pendingId row revised
    exact ⟨stored.board, stored.subscriptions, stored.events⟩
  · obtain ⟨batch, -, -, ⟨-, rfl⟩ | ⟨-, -, withdrawn, rfl⟩⟩ := deliver_ok done
    · split
      · exact ⟨rfl, rfl, .refl _⟩
      · exact ⟨rfl, rfl, .refl _⟩
    · have recorded := recordWithdrawals_recorded env actor experimentId key (env.newId 0)
        { setReader mail actor experimentId key reader with
          deliveries := mail.deliveries.put (env.newId 0)
            { projectId := actor.projectId
              payload :=
                { experimentId, readerKey := key, startSequence := reader.ackSequence
                  endSequence := batch.processed, items := urgentFirst batch.items } } } withdrawn
      exact ⟨recorded.board, recorded.subscriptions, recorded.events⟩

theorem sanitizePending_mailed {changed : Bool}
    (done : sanitizePending mail env experimentId deliveryId actor = .ok (changed, after)) :
    Mailed mail after := by
  obtain rfl | ⟨experiment, key, row, revised, -, -, -, rfl⟩ := sanitizePending_ok done
  · exact .refl _
  · exact storeRevised_mailed ..

theorem acknowledge_mailed {told : Acknowledged}
    (done : acknowledge mail experimentId deliveryId actor = .ok (told, after)) : Mailed mail after := by
  obtain ⟨key, reader, row, -, -, -, -, -, -, -, rfl⟩ := acknowledge_ok done
  exact ⟨rfl, rfl, Mail.logged_quiet _ _ _ rfl⟩

end

/-! ### Every run -/

namespace Forum

section
variable [ContentHash] {forum : Forum} {label : ForumLabel}

omit [ContentHash] in
theorem Bounded.mailed {mail : Mail} (bounded : forum.Bounded) (mailed : Mailed forum.toMail mail) :
    ({ forum with toMail := mail } : Forum).Bounded := by
  have same : mail.subscriptions = forum.subscriptions := mailed.subscriptions
  constructor
  · unfold Slots
    rw [same]
    exact bounded.slots
  · intro reader
    unfold following
    rw [same]
    exact bounded.capped reader
  · intro branchId hat row member
    rw [same] at member
    exact bounded.isolated branchId hat row member

theorem subscribeDiscussion_resubscribed {topicId : Id} {subscribed : Bool} {actor : Principal}
    {after : Forum} (done : forum.subscribeDiscussion topicId subscribed actor = .ok after) :
    ∃ experimentId key, Resubscribed
      { forum with
        toMail := setReader forum.toMail actor experimentId key
          ((forum.readers.find (actor.projectId, experimentId, key)).getD {}) } after := by
  simp only [subscribeDiscussion, bind_ok, require_ok] at done
  obtain ⟨-, -, topic, read, key, -, -, -, done⟩ := done
  refine ⟨topic.payload.experimentId, key, setSubscription_resubscribed ?_ done⟩
  simp only [Board.discussionTopic, bind_ok, pure_ok] at read
  obtain ⟨row, got, -, -, -, -, rfl⟩ := read
  exact (Db.getRow_ok.mp got).2.1.symm

omit [ContentHash] in
theorem autoSubscribe_resubscribed (bounded : forum.Bounded) {now : Time} {topicId branchId : Option Id}
    {actor : Principal} (kept : (ForumLabel.autoSubscribe now topicId branchId actor).Kept forum)
    {followed : Bool} {after : Forum}
    (done : forum.autoSubscribe now topicId branchId actor = .ok (followed, after)) :
    Resubscribed forum after := by
  have unchanged : (pure (false, forum) : Except Failure (Bool × Forum)) = .ok (followed, after) →
      Resubscribed forum after := by
    intro same
    rw [← (Prod.mk.inj (Except.ok.inj same)).2]
    exact .refl _
  cases topicId with
  | none => exact unchanged done
  | some topicId =>
    cases branchId with
    | none => exact unchanged done
    | some branchId =>
      cases found : forum.board.topics.find topicId with
      | none =>
        unfold autoSubscribe at done
        dsimp only at done
        rw [found] at done
        split at done
        · exact unchanged done
        · exact unchanged done
      | some topic =>
        obtain ⟨other, result, ran, -, change⟩ := @autoSubscribe_spared forum topicId actor topic branchId
          bounded now found (kept topicId rfl topic found)
        rw [ran] at done
        rw [← (Prod.mk.inj (Except.ok.inj done)).2]
        exact change

theorem Bounded.step (bounded : forum.Bounded) (kept : label.Kept forum) : (forum.step label).Bounded := by
  cases label with
  | updates env experimentId actor cursor limit =>
    rw [Forum.step]
    split
    next update mail done => exact bounded.mailed (discussionUpdates_mailed done)
    next => exact bounded
  | sanitize env experimentId deliveryId actor =>
    rw [Forum.step]
    split
    next changed mail done => exact bounded.mailed (sanitizePending_mailed done)
    next => exact bounded
  | acknowledge experimentId deliveryId actor =>
    rw [Forum.step]
    split
    next told mail done => exact bounded.mailed (acknowledge_mailed done)
    next => exact bounded
  | subscribe topicId subscribed actor =>
    rw [Forum.step]
    split
    next after done =>
      obtain ⟨experimentId, key, change⟩ := subscribeDiscussion_resubscribed done
      exact change.bounded (bounded.mailed ⟨rfl, rfl, .refl _⟩)
    next => exact bounded
  | autoSubscribe now topicId branchId actor =>
    rw [Forum.step]
    split
    next followed after done => exact (autoSubscribe_resubscribed bounded kept done).bounded bounded
    next => exact bounded
  | elsewhere board referees events =>
    obtain ⟨-, -, hats⟩ := kept
    constructor
    · exact bounded.slots
    · exact bounded.capped
    · intro branchId hat row member key
      by_cases old : branchId ∈ forum.referees
      · exact bounded.isolated branchId old row member key
      · exact absurd key (hats branchId hat old row member)

theorem bounded_reached {labels : List ForumLabel} (kept : Forum.Kept labels) :
    (Forum.reached labels).Bounded := by
  apply Transition.run_invariant Bounded _ (fun _ _ bounded => bounded.step) kept
  constructor
  · exact List.nodup_nil
  · exact fun reader => Nat.zero_le _
  · exact fun branchId hat => absurd hat List.not_mem_nil

omit [ContentHash] in
theorem active_eq (experimentId : Id) (actor : Principal) (key : String) :
    (forum.subscriptions.filter fun row =>
      row.projectId = actor.projectId && row.payload.experimentId = experimentId &&
        row.payload.readerKey = key && row.payload.subscribed) =
      forum.following (actor.projectId, experimentId, key) := by
  unfold following
  congr 1
  funext row
  simp [Subscription.reader, Prod.mk.injEq, Bool.decide_and, Bool.and_assoc]

end

end Forum

section
variable [ContentHash] {labels : List ForumLabel}

/-- In every run a reader follows at most 100 threads, each under one row, no referee follows any, and
the filters of a scan can always be made. -/
theorem subscriptions_bounded (kept : Forum.Kept labels) :
    (∀ reader, ((Forum.reached labels).following reader).length ≤ maxSubscriptions ∧
      (((Forum.reached labels).following reader).map fun row => row.payload.topicId).Nodup) ∧
    (∀ branchId ∈ (Forum.reached labels).referees, ∀ projectId experimentId topicId,
      ¬ (Forum.reached labels).Follows (projectId, experimentId, branchKey branchId) topicId) ∧
    ∀ experimentId actor key ack, ∃ clauses,
      deliveryClauses (Forum.reached labels).toMail experimentId actor key ack = .ok clauses := by
  have bounded := Forum.bounded_reached kept
  refine ⟨fun reader => ⟨bounded.capped reader, Forum.following_topics bounded reader⟩, ?_, ?_⟩
  · rintro branchId hat projectId experimentId topicId ⟨row, member, -⟩
    obtain ⟨stored, reads, active⟩ := Forum.mem_following.mp member
    have key : row.payload.readerKey = branchKey branchId := congrArg (fun reader => reader.2.2) reads
    rw [bounded.isolated branchId hat row stored key] at active
    cases active
  · intro experimentId actor key ack
    unfold deliveryClauses
    dsimp only
    rw [Forum.active_eq experimentId actor key, require_then (bounded.capped _)]
    exact ⟨_, rfl⟩

/-- In every run a best-effort subscription is never refused. It declines a referee, the goal's thread
and a full reader with nothing to give up; otherwise the branch follows the thread, and the only thread
that it may lose for that is the first of those of closed nodes, and of nodes that it neither wrote nor
works on. -/
theorem autoSubscribe_spares (kept : Forum.Kept labels) (now : Time) (topicId branchId : Id)
    {topic : Row Topic} {actor : Principal}
    (found : (Forum.reached labels).board.topics.find topicId = some topic)
    (within : topic.projectId = actor.projectId) :
    ∃ followed after,
      (Forum.reached labels).autoSubscribe now (some topicId) (some branchId) actor =
        .ok (followed, after) ∧
      Forum.Spares (Forum.reached labels) after now topicId topic branchId followed := by
  obtain ⟨followed, after, ran, spares, -⟩ := Forum.autoSubscribe_spared (Forum.bounded_reached kept)
    now found within
  exact ⟨followed, after, ran, spares⟩

end

end Inbox

namespace Scenario

open Inbox

section

local instance threadsHash : ContentHash := textHash

/-- An open node with its thread. -/
def threadBoard : Board where
  core := reviewedCore
  topics := (∅ : Table Id (Row Topic)).put "topic"
    { projectId := "project"
      payload :=
        { experimentId := "experiment", nodeId := some "node"
          pins := ⟨"problem", "target", "environment"⟩ } }
  nodes := (∅ : Table Id (Row ThreadNode)).put "node"
    { projectId := "project"
      payload :=
        { experimentId := "experiment", nodeType := .lemmaNode, branchId := some "author"
          title := "A lemma.".toList } }

/-- A branch and a referee are both to follow the thread. -/
def threadLabels : List ForumLabel :=
  [.elsewhere threadBoard ["referee"] [⟨7, "project", "topic", .postCreated "experiment" "post"⟩],
    .autoSubscribe 0 (some "topic") (some "branch") controller,
    .autoSubscribe 0 (some "topic") (some "referee") controller]

theorem threadLabels_kept : Forum.Kept threadLabels := by
  have posted : Inbox.Grows [] [⟨7, "project", "topic", .postCreated "experiment" "post"⟩] := by
    constructor
    · exact ⟨_, rfl, fun _ _ _ old none => by cases none⟩
    · intro _ event member
      obtain rfl := List.mem_singleton.mp member
      decide
    · exact fun _ => List.nodup_singleton _
  have project : ∀ id ∈ some "topic", ∀ topic, threadBoard.topics.find id = some topic →
      topic.projectId = controller.projectId := by
    intro id _ topic found
    obtain ⟨-, rfl⟩ | ⟨-, none⟩ := Table.find_put_cases found
    · rfl
    · cases none
  refine ⟨⟨posted, ?_, ?_⟩, ?_, ?_, trivial⟩
  · intro event member owner sourceId kind post found
    cases found
  · exact fun _ _ _ row none => by cases none
  · exact project
  · exact project

/-- The branch follows the thread, and the referee does not. -/
theorem threadLabels_bounded :
    (((Forum.reached threadLabels).following ("project", "experiment", "branch:branch")).length = 1 ∧
      ((Forum.reached threadLabels).following ("project", "experiment", "branch:branch")).length ≤
        maxSubscriptions) ∧
    ¬ (Forum.reached threadLabels).Follows ("project", "experiment", branchKey "referee") "topic" := by
  obtain ⟨capped, isolated, -⟩ := subscriptions_bounded threadLabels_kept
  refine ⟨⟨by decide +kernel, (capped _).1⟩, isolated "referee" (by decide +kernel) _ _ _⟩

/-- A third branch follows the thread that another one follows already. -/
theorem threadLabels_spares : ∃ topic followed after,
    (Forum.reached threadLabels).autoSubscribe 1 (some "topic") (some "third") controller =
      .ok (followed, after) ∧
    Forum.Spares (Forum.reached threadLabels) after 1 "topic" topic "third" followed := by
  cases found : (Forum.reached threadLabels).board.topics.find "topic" with
  | none =>
    have stored : ((Forum.reached threadLabels).board.topics.find "topic").isSome = true := by
      decide +kernel
    rw [found] at stored
    cases stored
  | some topic =>
    have project : ((Forum.reached threadLabels).board.topics.find "topic").map Row.projectId =
        some controller.projectId := by decide +kernel
    rw [found] at project
    exact ⟨topic, autoSubscribe_spares threadLabels_kept 1 "topic" "third" found
      (Option.some.inj project)⟩

end

end Scenario

end PhysHarness
