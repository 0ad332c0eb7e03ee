import PhysHarness.Commons.Waits
import PhysHarness.Tasks.Delegation

/-!
Event waits over runs.

An anchor covers the events that commands write under the lock of the experiment: each of them was visible
when the content of the last request was captured, or the anchor was moved past it, or it is numbered
behind the anchor. Sessions that start fresh, are woken or are recovered keep this, and so do the
transactions of the store.

## Main results

* `wait_keeps_news`: a wait that a check leaves waiting has missed no event that it watches.
* `wait_names_news`: an event that wakes a wait is news, and the first.
-/
namespace PhysHarness
namespace Waits

open Sequencer Waits.Waiter

variable {τ : Type} {builder : Builder}

/-! ### Checks -/

section
variable {ticket : EventTicket} {log : EventLog} {poll : Poll} {entry : Sequencer.Entry WaitEvent}

theorem watchedEvent_some (found : watchedEvent ticket log = some entry) :
    entry ∈ log ∧ ticket.watches entry.item = true ∧ ticket.eventAfter < entry.number ∧
      entry.number ∉ ticket.seenSequences := by
  have member := List.argmin_mem (Option.mem_def.mpr found)
  simp only [List.mem_filter, Bool.and_eq_true, decide_eq_true_eq, and_assoc] at member
  exact member

/-- An event that a check passes over is not behind the ticket, or it is seen, or a later one. -/
theorem watchedEvent_first (found : watchedEvent ticket log = some entry)
    {other : Sequencer.Entry WaitEvent}
    (visible : other ∈ log) (watched : ticket.watches other.item = true)
    (earlier : other.number < entry.number) :
    other.number ≤ ticket.eventAfter ∨ other.number ∈ ticket.seenSequences := by
  by_cases later : ticket.eventAfter < other.number
  · by_cases seen : other.number ∈ ticket.seenSequences
    · exact .inr seen
    · have member : other ∈ log.filter fun entry => ticket.watches entry.item &&
          ticket.eventAfter < entry.number && entry.number ∉ ticket.seenSequences := by
        simp [visible, watched, later, seen]
      have least := List.le_of_mem_argmin member (Option.mem_def.mpr found)
      omega
  · exact .inl (Nat.le_of_not_lt later)

theorem watchedEvent_none (none : watchedEvent ticket log = none) (visible : entry ∈ log)
    (watched : ticket.watches entry.item = true) :
    entry.number ≤ ticket.eventAfter ∨ entry.number ∈ ticket.seenSequences := by
  have empty := List.argmin_eq_none.mp none
  have absent := List.filter_eq_nil_iff.mp empty entry visible
  by_cases later : ticket.eventAfter < entry.number
  · right
    simpa [watched, later] using absent
  · exact .inl (Nat.le_of_not_lt later)

/-- A check of the news finds a watched event or none. -/
theorem newsStatus_ok {status : WakeStatus} (checked : newsStatus ticket log poll = .ok status) :
    (∃ entry, watchedEvent ticket log = some entry ∧ status = namedStatus entry) ∨
      status.sequence = none ∧ (status.reason = .waiting → watchedEvent ticket log = none) := by
  simp only [newsStatus, Outcome.bind_ok] at checked
  obtain ⟨update, -, rest⟩ := checked
  split at rest
  · cases rest
    right
    simp
  · split at rest
    next entry found =>
      cases rest
      exact .inl ⟨entry, found, rfl⟩
    next missing =>
      simp only [Outcome.bind_ok, Outcome.pure_ok] at rest
      obtain ⟨moved, -, rfl⟩ := rest
      right
      split <;> simp [missing]

/-- What a check returns names a watched event, or nothing; it leaves a wait waiting only when there is
none. -/
theorem eventWaitStatus_ok {status : WakeStatus} (checked : eventWaitStatus ticket log poll = .ok status) :
    (∃ entry, watchedEvent ticket log = some entry ∧ status = namedStatus entry) ∨
      status.sequence = none ∧ (status.reason = .waiting → watchedEvent ticket log = none) := by
  unfold eventWaitStatus at checked
  repeat
    split at checked
    · cases checked
      right
      simp
  -- The check is due: neither ended nor early.
  cases news : newsStatus ticket log poll with
  | ok found =>
    rw [news] at checked
    cases checked
    exact newsStatus_ok news
  | error failure =>
    rw [news] at checked
    cases failure with
    | harness error =>
      cases checked
      right
      simp
    | internal reason => cases checked

/-- A watched event is one that commands write under the lock of the experiment. -/
theorem watches_locked (watched : ticket.watches entry.item = true)
    (place : ticket.experimentId = builder.experimentId) :
    entry.item.locked builder.experimentId = true := by
  simp only [EventTicket.watches, WaitEvent.locked, Bool.and_eq_true, Bool.or_eq_true, decide_eq_true_eq,
    place] at watched ⊢
  obtain ⟨⟨⟨same, kind⟩, -⟩, -⟩ := watched
  refine ⟨same, ?_⟩
  rcases kind with ⟨node, -⟩ | ⟨branch, named⟩
  · exact .inl node
  · right
    refine ⟨branch, ?_⟩
    cases writer : entry.item.branchId with
    | none => simp [writer] at named
    | some id => simp

end

/-! ### Anchors -/

/-- What was told covers an anchor: every event under the lock was shown, or passed, or is numbered behind
the anchor, and the seen events are the named ones behind it. -/
structure Anchored (builder : Builder) (journal : Journal τ WaitEvent) (told : Told) (sequence : Nat)
    (seen : List Nat) : Prop where
  covered : Covered (WaitEvent.locked builder.experimentId) journal
    (fun entry => entry ∈ told.shown ∨ entry.number ≤ told.passed) sequence
  shown_below : ∀ entry ∈ told.shown, entry.number ≤ sequence
  seen_named : ∀ number ∈ seen, number ∈ told.named
  named_below : told.passed = 0 → ∀ number ∈ told.named, number ≤ sequence ∨ number ∈ seen
  visible : ∀ number ∈ told.named, number ≤ journal.mark

def View.Anchored (builder : Builder) (journal : Journal τ WaitEvent) (view : View) : Prop :=
  Waits.Anchored builder journal view.told view.anchor.eventSequence view.anchor.seenSequences

/-- The ticket of an event wait is anchored. -/
def Stands (builder : Builder) (journal : Journal τ WaitEvent) (told : Told) : Handoff → Prop
  | .events ticket => ticket.experimentId = builder.experimentId ∧
      Anchored builder journal told ticket.eventAfter ticket.seenSequences
  | _ => True

section
variable {journal : Journal τ WaitEvent} {told : Told} {sequence : Nat} {seen : List Nat}

theorem Anchored.step [DecidableEq τ] (anchored : Anchored builder journal told sequence seen)
    (act : Act τ WaitEvent) :
    Anchored builder (journal.step (WaitEvent.locked builder.experimentId) act) told sequence seen where
  covered := anchored.covered.step act
  shown_below := anchored.shown_below
  seen_named := anchored.seen_named
  named_below := anchored.named_below
  visible number member := Nat.le_trans (anchored.visible number member) mark_step

theorem Stands.step [DecidableEq τ] {handoff : Handoff} (stands : Stands builder journal told handoff)
    (act : Act τ WaitEvent) :
    Stands builder (journal.step (WaitEvent.locked builder.experimentId) act) told handoff := by
  cases handoff with
  | events ticket => exact ⟨stands.1, stands.2.step act⟩
  | wait => trivial
  | rolls => trivial

/-- An anchor that is read under the lock. -/
theorem anchored_mark (sound : Sound (WaitEvent.locked builder.experimentId) journal)
    (free : journal.holder = none) (visible : ∀ number ∈ told.named, number ≤ journal.mark) :
    Anchored builder journal { told with shown := journal.committed, passed := 0 } journal.mark [] where
  covered := (sound.covered free).imp fun _ => Or.inl
  shown_below _ member := le_highest member
  seen_named := by simp
  named_below _ number member := .inl (visible number member)
  visible := visible

end

section
variable {waiter : Waiter τ} {sequence : Nat} {seen : List Nat}

/-- The anchor of a wake note that names an event covers what is told then. -/
theorem anchored_named {named : Nat}
    (sound : Sound (WaitEvent.locked builder.experimentId) waiter.journal)
    (anchored : Anchored builder waiter.journal waiter.told sequence seen) (later : sequence < named)
    (visible : named ≤ waiter.journal.mark) :
    (waiter.carried (anchorOn sequence seen (some named)) (some named)).Anchored builder
      waiter.journal := by
  have shown : ∀ number ∈ waiter.told.named ++ [named], number ≤ waiter.journal.mark := by
    intro number member
    rcases List.mem_append.mp member with old | new
    · exact anchored.visible number old
    · rwa [List.mem_singleton.mp new]
  by_cases full : maxSeenEvents < (seen ++ [named]).length
  · -- The anchor moves on to the named event, forgets the seen ones and passes what lies before it.
    have drawn : named ≤ waiter.journal.issued := Nat.le_trans visible sound.mark_le_issued
    have advanced := anchored.covered.advance drawn
    simp only [View.Anchored, carried, anchorOn, full, if_true, toldOf, List.not_mem_nil, if_false]
    constructor
    · apply advanced.imp
      rintro entry ((told | passed) | ⟨-, below⟩)
      · exact .inl told
      · exact .inr (Nat.le_trans passed (Nat.le_max_left _ _))
      · exact .inr (Nat.le_trans below (Nat.le_max_right _ _))
    · intro entry member
      have below := anchored.shown_below entry member
      omega
    · simp
    · intro unpassed
      have zero : max waiter.told.passed named = 0 := unpassed
      omega
    · exact shown
  · have listed : named ∈ seen ++ [named] := by simp
    simp only [View.Anchored, carried, anchorOn, full, if_false, toldOf, listed, if_true]
    constructor
    · exact anchored.covered
    · exact anchored.shown_below
    · intro number member
      rcases List.mem_append.mp member with old | new
      · exact List.mem_append_left _ (anchored.seen_named number old)
      · exact List.mem_append_right _ new
    · intro unpassed number member
      rcases List.mem_append.mp member with old | new
      · exact (anchored.named_below unpassed number old).imp_right (List.mem_append_left _)
      · exact .inr (List.mem_append_right _ new)
    · exact shown

theorem anchored_on {named : Option Nat}
    (sound : Sound (WaitEvent.locked builder.experimentId) waiter.journal)
    (anchored : Anchored builder waiter.journal waiter.told sequence seen)
    (fresh : ∀ number ∈ named, sequence < number ∧ number ≤ waiter.journal.mark) :
    (waiter.carried (anchorOn sequence seen named) named).Anchored builder waiter.journal := by
  cases named with
  | none => exact anchored
  | some number =>
    obtain ⟨later, visible⟩ := fresh number rfl
    exact anchored_named sound anchored later visible

end

/-! ### The invariant -/

structure Inv (builder : Builder) (waiter : Waiter τ) : Prop where
  sound : Sound (WaitEvent.locked builder.experimentId) waiter.journal
  visible : ∀ number ∈ waiter.told.named, number ≤ waiter.journal.mark
  anchored : ∀ anchor ∈ waiter.anchor,
    Anchored builder waiter.journal waiter.told anchor.eventSequence anchor.seenSequences
  viewed : ∀ view ∈ waiter.view, view.Anchored builder waiter.journal
  /-- An intent that still authorises its worker. -/
  intended : ∀ intent ∈ waiter.intent, intent.current = true →
    Stands builder waiter.journal waiter.told intent.handoff
  parked : waiter.issued = true → ∀ handoff ∈ waiter.ticket,
    Stands builder waiter.journal waiter.told handoff
  /-- A wake names a visible event behind the ticket. -/
  woken : ∀ number ∈ waiter.wakeNumber, ∃ ticket, waiter.ticket = some (.events ticket) ∧
    ticket.eventAfter < number ∧ number ≤ waiter.journal.mark
  asleep : waiter.issued = true → waiter.live = false
  /-- What was handed on follows a sent request. -/
  answered : waiter.intent.isSome = true ∨ waiter.ticket.isSome = true → waiter.anchor.isSome = true

theorem inv_init : Inv builder ({} : Waiter τ) where
  sound := sound_init
  visible := by simp
  anchored := by simp
  viewed := by simp
  intended := by simp
  parked := by simp
  woken := by simp [wakeNumber]
  asleep := by simp
  answered := by simp

@[simp] theorem noted_told (notePole : Option (List Id)) (view : View) :
    (noted notePole view).told = view.told := by
  cases notePole <;> rfl

@[simp] theorem noted_sequence (notePole : Option (List Id)) (view : View) :
    (noted notePole view).anchor.eventSequence = view.anchor.eventSequence := by
  cases notePole <;> rfl

@[simp] theorem noted_seen (notePole : Option (List Id)) (view : View) :
    (noted notePole view).anchor.seenSequences = view.anchor.seenSequences := by
  cases notePole <;> rfl

section
variable {waiter : Waiter τ} {poleAt : Nat → Except Failure (List Id)}

theorem Inv.captured (inv : Inv builder waiter) (free : waiter.journal.holder = none)
    (poleAt : Nat → Except Failure (List Id)) :
    (waiter.captured builder poleAt).Anchored builder waiter.journal :=
  anchored_mark inv.sound free inv.visible

theorem Inv.begin {view : View} (inv : Inv builder waiter)
    (viewed : view.Anchored builder waiter.journal) : Inv builder (waiter.begin view) where
  sound := inv.sound
  visible := inv.visible
  anchored := inv.anchored
  viewed := by
    intro other same
    rw [← Option.some.inj same]
    exact viewed
  intended := inv.intended
  parked issued := by simp [Waiter.begin] at issued
  woken := by simp [Waiter.begin, wakeNumber]
  asleep issued := by simp [Waiter.begin] at issued
  answered := inv.answered

/-- A session opens with a view that is anchored, or reads its anchor under the lock. -/
theorem Inv.opens {carriedView : Option View} (inv : Inv builder waiter) (notePole : Option (List Id))
    (viewed : ∀ view ∈ carriedView, view.Anchored builder waiter.journal) :
    Inv builder (waiter.opens builder poleAt notePole carriedView) := by
  cases carriedView with
  | some view =>
    apply inv.begin
    simpa [View.Anchored] using viewed view rfl
  | none =>
    simp only [Waiter.opens]
    split
    next free =>
      apply inv.begin
      simpa [View.Anchored] using inv.captured (Option.isNone_iff_eq_none.mp free) poleAt
    · exact inv

/-- The anchor that a woken session carries. -/
theorem Inv.resumed {native : Bool} (inv : Inv builder waiter) (issued : waiter.issued = true) :
    ∀ anchor ∈
        sessionAnchor waiter.anchor (if native then waiter.ticket else none) waiter.wakeNumber false,
      (waiter.carried anchor waiter.wakeNumber).Anchored builder waiter.journal := by
  intro anchor carried
  simp only [sessionAnchor, Bool.false_eq_true, false_and, if_false] at carried
  cases native with
  | false => simp at carried
  | true =>
    simp only [if_true] at carried
    cases handed : waiter.ticket with
    | none => simp [handed] at carried
    | some handoff =>
      have stands := inv.parked issued handoff handed
      cases handoff with
      | events ticket =>
        simp only [handed, Option.mem_def, Option.some.injEq] at carried
        subst carried
        apply anchored_on inv.sound stands.2
        intro number named
        obtain ⟨other, same, later, visible⟩ := inv.woken number named
        simp only [handed, Option.some.injEq, Handoff.events.injEq] at same
        subst same
        exact ⟨later, visible⟩
      | wait =>
        simp only [handed, Option.mem_def, Option.map_eq_some_iff] at carried
        obtain ⟨persisted, kept, rfl⟩ := carried
        apply anchored_on inv.sound (inv.anchored persisted kept)
        -- Only an event wait is woken by an event.
        intro number named
        obtain ⟨other, same, -⟩ := inv.woken number named
        simp [handed] at same
      | rolls => simp [handed] at carried

/-- A session that is resumed mid-flight keeps its last request's anchor. -/
theorem Inv.recovered {native : Bool} (inv : Inv builder waiter) :
    ∀ anchor ∈
        sessionAnchor waiter.anchor (if native then waiter.ticket else none) waiter.wakeNumber true,
      (waiter.carried anchor none).Anchored builder waiter.journal := by
  intro anchor carried
  by_cases persisted : waiter.anchor.isSome = true
  · simp only [sessionAnchor, persisted, and_self, if_true] at carried
    exact inv.anchored anchor carried
  · -- Without a sent request nothing was handed on.
    have none : waiter.ticket = none := by
      by_contra handed
      exact persisted (inv.answered (.inr (Option.isSome_iff_ne_none.mpr handed)))
    simp [sessionAnchor, persisted, none] at carried

theorem Inv.check (inv : Inv builder waiter) (poll : Poll) : Inv builder (waiter.check poll) := by
  unfold Waiter.check
  split
  next ticket handed =>
    split
    next status checked =>
      refine { inv with woken := ?_ }
      intro number named
      simp only [wakeNumber, Option.mem_def, Option.bind_eq_some_iff] at named
      obtain ⟨ready, set, names⟩ := named
      have same : ready = status := by
        split at set
        · exact (Option.some.inj set).symm
        · cases set
      subst same
      rcases eventWaitStatus_ok checked with ⟨entry, found, rfl⟩ | ⟨nothing, -⟩
      · obtain ⟨visible, -, later, -⟩ := watchedEvent_some found
        obtain rfl : entry.number = number := Option.some.inj names
        exact ⟨ticket, handed, later, le_highest visible⟩
      · simp [nothing] at names
    · exact inv
  · exact inv

/-- A request goes out while no current intent stands and no ticket is issued. -/
theorem Inv.send (inv : Inv builder waiter) (live : waiter.live = true)
    (free : waiter.intent.all (fun intent => !intent.current) = true) : Inv builder waiter.send := by
  unfold Waiter.send
  split
  · exact inv
  next view shown =>
    have viewed := inv.viewed view shown
    have awake : waiter.issued ≠ true := by
      intro issued
      have asleep := inv.asleep issued
      simp [live] at asleep
    constructor
    · exact inv.sound
    · exact viewed.visible
    · intro anchor same
      rw [← Option.some.inj same]
      exact viewed
    · simp
    -- The intents that were left are stale, so the new view need not cover their tickets.
    · intro intent stands current
      rw [Option.mem_def.mp stands] at free
      simp [current] at free
    · exact fun issued => absurd issued awake
    · exact inv.woken
    · exact inv.asleep
    · simp

theorem requestEventWait_ok {anchor : Option RequestAnchor} {log : EventLog} {actor : Principal}
    {request : WaitRequest} {reading : WaitReading} {ticket : EventTicket}
    (returned : requestEventWait builder anchor log actor request reading = .ok ticket) :
    ticket.experimentId = builder.experimentId ∧
      ticket.eventAfter = (anchor.map RequestAnchor.eventSequence).getD (highest log) ∧
      ticket.seenSequences = (anchor.map RequestAnchor.seenSequences).getD [] := by
  simp only [requestEventWait, Outcome.bind_ok, Outcome.require_ok, exists_const,
    Outcome.pure_ok] at returned
  obtain ⟨-, -, -, -, -, -, -, -, -, -, -, -, rfl⟩ := returned
  simp

theorem Inv.requestWait (inv : Inv builder waiter) (calls : waiter.calls = true) (actor : Principal)
    (request : WaitRequest) (reading : WaitReading) :
    Inv builder (waiter.requestWait builder actor request reading) := by
  unfold Waiter.requestWait
  split
  next ticket returned =>
    obtain ⟨place, after, seen⟩ := requestEventWait_ok returned
    simp only [Waiter.calls, Bool.and_eq_true] at calls
    obtain ⟨anchor, sent⟩ := Option.isSome_iff_exists.mp calls.2
    refine { inv with intended := ?_, answered := fun _ => calls.2 }
    intro intent same _
    rw [← Option.some.inj same]
    -- The ticket takes its anchor from the request that the call answers, not from the log as it is now.
    simp only [sent, Option.map_some, Option.getD_some] at after seen
    refine ⟨place, ?_⟩
    rw [after, seen]
    exact inv.anchored anchor sent
  · exact inv

theorem Inv.settle (inv : Inv builder waiter) (calls : waiter.calls = true) :
    Inv builder waiter.settle := by
  simp only [Waiter.calls, Bool.and_eq_true] at calls
  unfold Waiter.settle
  split
  · exact inv
  next handoff next' =>
    have stands : Stands builder waiter.journal waiter.told handoff := by
      unfold nextTicket at next'
      split at next'
      -- Without an intent the session rolls on, which waits for nothing.
      · cases next'
        trivial
      next intent intended =>
        split at next'
        next current =>
          cases next'
          exact inv.intended intent intended current
        · cases next'
    constructor
    · exact inv.sound
    · exact inv.visible
    · exact inv.anchored
    · simp
    · simp
    · intro _ other same
      rw [← Option.some.inj same]
      exact stands
    · simp [wakeNumber]
    · simp
    · exact fun _ => calls.2

theorem Inv.crash (inv : Inv builder waiter) : Inv builder waiter.crash where
  sound := inv.sound
  visible := inv.visible
  anchored := inv.anchored
  viewed := by simp [Waiter.crash]
  -- A crash leaves the intent behind, but it no longer authorises its worker.
  intended := by
    intro intent stale current
    obtain ⟨old, -, rfl⟩ := Option.map_eq_some_iff.mp stale
    simp at current
  parked := inv.parked
  woken := by simp [Waiter.crash, wakeNumber]
  asleep := by simp [Waiter.crash]
  answered := by simpa [Waiter.crash] using inv.answered

variable [DecidableEq τ]

theorem Inv.act (inv : Inv builder waiter) (act : Act τ WaitEvent) :
    Inv builder { waiter with
      journal := waiter.journal.step (WaitEvent.locked builder.experimentId) act } where
  sound := inv.sound.step act
  visible number member := Nat.le_trans (inv.visible number member) mark_step
  anchored anchor sent := (inv.anchored anchor sent).step act
  viewed view shown := Anchored.step (inv.viewed view shown) act
  intended intent stands current := (inv.intended intent stands current).step act
  parked issued handoff handed := (inv.parked issued handoff handed).step act
  woken number named := by
    obtain ⟨ticket, handed, later, visible⟩ := inv.woken number named
    exact ⟨ticket, handed, later, Nat.le_trans visible mark_step⟩
  asleep := inv.asleep
  answered := inv.answered

theorem Inv.step (inv : Inv builder waiter) (label : WaitLabel τ) :
    Inv builder (waiter.step builder label) := by
  cases label with
  | act act => exact inv.act act
  | start poleAt =>
    simp only [Waiter.step]
    split
    · exact inv
    · exact inv.opens none (by simp)
  | check poll =>
    simp only [Waiter.step]
    split
    · exact inv
    · exact inv.check poll
  | resume native notePole poleAt =>
    simp only [Waiter.step]
    split
    next ready =>
      -- A parked task is woken only while its ticket is issued, so the ticket's anchor stands.
      have issued : waiter.issued = true := by
        have wakes := ready.2
        simp only [mayWake, Bool.and_eq_true] at wakes
        exact wakes.1
      apply inv.opens
      intro view carried
      obtain ⟨anchor, same, rfl⟩ := Option.map_eq_some_iff.mp carried
      exact inv.resumed issued anchor same
    · exact inv
  | recover native poleAt =>
    simp only [Waiter.step]
    split
    · apply inv.opens
      intro view carried
      obtain ⟨anchor, same, rfl⟩ := Option.map_eq_some_iff.mp carried
      exact inv.recovered anchor same
    · exact inv
  | dispatch poleAt =>
    simp only [Waiter.step]
    split
    next ready =>
      refine { inv with viewed := ?_ }
      intro view same
      rw [← Option.some.inj same]
      exact inv.captured (Option.isNone_iff_eq_none.mp ready.2.2) poleAt
    · exact inv
  | send =>
    simp only [Waiter.step]
    split
    next ready => exact inv.send ready.1 ready.2
    · exact inv
  | requestWait actor request reading =>
    simp only [Waiter.step]
    split
    next ready => exact inv.requestWait ready.1 actor request reading
    · exact inv
  | requestHandoff waits =>
    simp only [Waiter.step]
    split
    next calls =>
      have sent := (Bool.and_eq_true _ _).mp calls
      refine { inv with intended := ?_, answered := fun _ => sent.2 }
      intro intent same _
      rw [← Option.some.inj same]
      cases waits <;> trivial
    · exact inv
  | settle =>
    simp only [Waiter.step]
    split
    next calls => exact inv.settle calls
    · exact inv
  | crash => exact inv.crash

/-- The state after some labels, from an empty store. -/
def reached (builder : Builder) (labels : List (WaitLabel τ)) : Waiter τ :=
  Transition.run (fun waiter label => waiter.step builder label) {} labels

theorem inv_reached (labels : List (WaitLabel τ)) : Inv builder (reached builder labels) :=
  Transition.run_always (Inv builder) labels inv_init fun _ label inv => inv.step label

end

/-! ### News -/

namespace Waiter

/-- The event wait that the task is parked on. -/
def parkedWait (waiter : Waiter τ) : Option EventTicket :=
  match waiter.ticket with
  | some (.events ticket) => if waiter.issued then some ticket else none
  | _ => none

end Waiter

/-- The agent knows of the event: its last request could show it, a wake note has named it, or its anchor
was moved past it after a long run of bare waits. -/
def Told.Knows (told : Told) (entry : Sequencer.Entry WaitEvent) : Prop :=
  entry ∈ told.shown ∨ entry.number ∈ told.named ∨ entry.number ≤ told.passed

theorem Inv.parkedWait {waiter : Waiter τ} {ticket : EventTicket} (inv : Inv builder waiter)
    (parked : waiter.parkedWait = some ticket) :
    Stands builder waiter.journal waiter.told (.events ticket) := by
  unfold Waiter.parkedWait at parked
  split at parked
  next other handed =>
    split at parked
    next issued =>
      cases parked
      exact inv.parked issued _ handed
    · cases parked
  · cases parked

/-- A watched event that is not behind the ticket, or is seen, is known. -/
theorem Stands.knows {journal : Journal τ WaitEvent} {told : Told} {ticket : EventTicket}
    {entry : Sequencer.Entry WaitEvent} (stands : Stands builder journal told (.events ticket))
    (visible : entry ∈ journal.committed) (watched : ticket.watches entry.item = true)
    (before : entry.number ≤ ticket.eventAfter ∨ entry.number ∈ ticket.seenSequences) :
    told.Knows entry := by
  obtain ⟨place, anchored⟩ := stands
  rcases before with inside | seen
  · rcases anchored.covered.behind entry (List.mem_append_left _ visible)
        (watches_locked watched place) with (shown | passed) | later
    · exact .inl shown
    · exact .inr (.inr passed)
    · omega
  · exact .inr (.inl (anchored.seen_named _ seen))

variable [DecidableEq τ]

/-- A wait that a check leaves waiting has missed nothing: whatever transactions have done, and whenever
the request was sent, every visible event that it watches is one that the agent knows of. -/
theorem wait_keeps_news (labels : List (WaitLabel τ)) {ticket : EventTicket} {poll : Poll}
    {status : WakeStatus} {entry : Sequencer.Entry WaitEvent}
    (parked : (reached builder labels).parkedWait = some ticket)
    (checked : eventWaitStatus ticket (reached builder labels).journal.committed poll = .ok status)
    (waits : status.reason = .waiting) (visible : entry ∈ (reached builder labels).journal.committed)
    (watched : ticket.watches entry.item = true) : (reached builder labels).told.Knows entry := by
  have stands := (inv_reached labels).parkedWait parked
  apply stands.knows visible watched
  rcases eventWaitStatus_ok checked with ⟨other, -, rfl⟩ | ⟨-, nothing⟩
  · simp [namedStatus] at waits
  · exact watchedEvent_none (nothing waits) visible watched

/-- An event that wakes a wait is news and the first of it: no request has shown it, no wake note has named
it unless the anchor was moved on, and the agent knows of every watched event before it. -/
theorem wait_names_news (labels : List (WaitLabel τ)) {ticket : EventTicket} {poll : Poll}
    {status : WakeStatus} {number : Nat} (parked : (reached builder labels).parkedWait = some ticket)
    (checked : eventWaitStatus ticket (reached builder labels).journal.committed poll = .ok status)
    (names : status.sequence = some number) :
    (∃ entry ∈ (reached builder labels).journal.committed, entry.number = number ∧
      ticket.watches entry.item = true ∧ entry ∉ (reached builder labels).told.shown ∧
      ∀ other ∈ (reached builder labels).journal.committed, other.number = number → other = entry) ∧
    ((reached builder labels).told.passed = 0 → number ∉ (reached builder labels).told.named) ∧
    ∀ earlier ∈ (reached builder labels).journal.committed, ticket.watches earlier.item = true →
      earlier.number < number → (reached builder labels).told.Knows earlier := by
  have inv : Inv builder (reached builder labels) := inv_reached labels
  have stands := inv.parkedWait parked
  rcases eventWaitStatus_ok checked with ⟨entry, found, rfl⟩ | ⟨nothing, -⟩
  · obtain ⟨visible, watched, later, unseen⟩ := watchedEvent_some found
    obtain rfl : entry.number = number := Option.some.inj names
    refine ⟨⟨entry, visible, rfl, watched, ?_, ?_⟩, ?_, ?_⟩
    · intro shown
      have below := stands.2.shown_below entry shown
      omega
    · intro other member same
      exact inv.sound.unique (List.mem_append_left _ member) (List.mem_append_left _ visible) same
    · intro unpassed named
      rcases stands.2.named_below unpassed _ named with below | seen
      · omega
      · exact unseen seen
    · intro earlier member watches before
      exact stands.knows member watches (watchedEvent_first found member watches before)
  · simp [nothing] at names

namespace Scenario

/-- The task of the leased agent. -/
def waitingTask : Builder := { taskId := "task", experimentId := "experiment", branchId := "branch" }

/-- Another branch claims the lemma, and later publishes a source of it. -/
def claimedLemma : WaitEvent where
  kind := .nodeClaim
  aggregateId := "lemma"
  experimentId := some "experiment"
  branchId := some "theirs"
  newClaimant := true

def publishedLemma : WaitEvent where
  kind := .sourcePublished
  aggregateId := "lemma"
  experimentId := some "experiment"
  branchId := some "theirs"
  rank := some .complete

def transaction (txn : Nat) (event : WaitEvent) : List (WaitLabel Nat) :=
  [.act (.lock txn), .act (.write txn event), .act (.commit txn)]

def noPole : Nat → Except Failure (List Id) := fun _ => .ok []

def waitReading : WaitReading where
  now := 0
  bound := some "task"
  status := .running
  fenced := .ok ()
  active := .ok ()
  watchable := fun id => if id = "lemma" then some (.node "experiment") else none
  ack := none
  poleAt := noPole

def waitForLemma : List (WaitLabel Nat) :=
  [.requestWait Scenario.worker { watchIds := ["lemma"], timeoutSeconds := 600 } waitReading, .settle]

/-- The lemma is claimed before the request is sent, and published while it generates. -/
def newsWhileGenerating : List (WaitLabel Nat) :=
  transaction 0 claimedLemma ++ [.start noPole, .send] ++ transaction 1 publishedLemma ++ waitForLemma

/-- The woken session waits on at once. -/
def bareWait : List (WaitLabel Nat) :=
  newsWhileGenerating ++
    [.check { now := 30 * Time.second }, .resume true [] noPole, .send] ++ waitForLemma

/-- The wait of the session, whose anchor has seen some events. -/
def lemmaWait (seen : List Nat) : EventTicket where
  experimentId := "experiment"
  taskId := "task"
  branchId := "branch"
  watchNodeIds := ["lemma"]
  watchBranchIds := []
  afterSequence := 0
  eventAfter := 1
  seenSequences := seen
  longPoleIds := []
  requestedAt := 0
  deadlineAt := 600 * Time.second
  minSleepUntil := 20 * Time.second

/-- The publication wakes the wait, although it committed before the wait was registered. -/
theorem newsWhileGenerating_named :
    (∃ entry ∈ (reached waitingTask newsWhileGenerating).journal.committed, entry.number = 2 ∧
      (lemmaWait []).watches entry.item = true ∧
      entry ∉ (reached waitingTask newsWhileGenerating).told.shown ∧
      ∀ other ∈ (reached waitingTask newsWhileGenerating).journal.committed,
        other.number = 2 → other = entry) ∧
    ((reached waitingTask newsWhileGenerating).told.passed = 0 →
      2 ∉ (reached waitingTask newsWhileGenerating).told.named) ∧
    ∀ earlier ∈ (reached waitingTask newsWhileGenerating).journal.committed,
      (lemmaWait []).watches earlier.item = true → earlier.number < 2 →
      (reached waitingTask newsWhileGenerating).told.Knows earlier := by
  have parked : (reached waitingTask newsWhileGenerating).parkedWait = some (lemmaWait []) := by
    decide +kernel
  have checked : eventWaitStatus (lemmaWait [])
      (reached waitingTask newsWhileGenerating).journal.committed { now := 30 * Time.second } =
        .ok (namedStatus ⟨2, publishedLemma⟩) := by
    decide +kernel
  exact wait_names_news newsWhileGenerating parked checked rfl

/-- The next wait is not woken by it again. -/
theorem bareWait_knows : (reached waitingTask bareWait).told.Knows ⟨2, publishedLemma⟩ := by
  have parked : (reached waitingTask bareWait).parkedWait = some (lemmaWait [2]) := by
    decide +kernel
  have checked : eventWaitStatus (lemmaWait [2]) (reached waitingTask bareWait).journal.committed
      { now := 30 * Time.second } = .ok { ready := false, reason := .waiting } := by
    decide +kernel
  have visible : ⟨2, publishedLemma⟩ ∈ (reached waitingTask bareWait).journal.committed := by
    decide +kernel
  exact wait_keeps_news bareWait parked checked rfl visible (by decide +kernel)

end Scenario

end Waits
end PhysHarness
