import PhysHarness.Sessions
import Mathlib.Logic.Function.Basic
import Mathlib.Data.List.Nodup

/-!
# The lineage of a task

A task's sessions follow one another along its continuation links: a ticket is issued for a settled
session, the holder of the next lease consumes it, and the first save of the successor starts the
link. This module says what a lineage is, which steps it can take, and that every step keeps its
sessions on one simple path.

## Main result

`Chain.step`: a step of a lineage whose links follow a path ends in one whose links do.
-/
namespace PhysHarness

/-- What the records of one task say about its sessions. `links` and `sessions` are indexed by
record, and a session is known by its native identity. -/
@[ext] structure Lineage where
  count : Nat := 0
  ready : Option Ready := none
  consumed : Option Consumed := none
  links : Id → Option ContinuationLink := fun _ => none
  sessions : Id → Option Id := fun _ => none

/-- A ticket is for the link it was issued with. -/
structure Ready.For (ready : Ready) (link : ContinuationLink) : Prop where
  ordinal : ready.ordinal = link.ordinal
  source : ready.sourceSessionId = link.sourceSessionId
  digest : ready.sourceCheckpointDigest = link.sourceCheckpointDigest

namespace Lineage

/-- Write one link. -/
def link (lineage : Lineage) (id : Id) (written : ContinuationLink) : Lineage :=
  { lineage with links := Function.update lineage.links id (some written) }

/-- Add a session record. -/
def addSession (lineage : Lineage) (record native : Id) : Lineage :=
  { lineage with sessions := Function.update lineage.sessions record (some native) }

/-- What can happen to a lineage; `settled` are the sessions that are handed off. -/
inductive Step (settled : Id → Prop) (before : Lineage) : Lineage → Prop
  | issue {id written} (fresh : before.links id = none)
      (resolved : ∀ other prior, before.links other = some prior → prior.status = .started)
      (head : 1 ≤ before.count → ∃ other prior, before.links other = some prior ∧
        prior.ordinal = before.count ∧ prior.successorSessionId = some written.sourceSessionId)
      (source : ∃ record, before.sessions record = some written.sourceSessionId)
      (ordinal : written.ordinal = before.count + 1) (issued : written.status = .issued)
      (unstarted : written.successorSessionId = none)
      (ticket : written.readyDigest.For written) :
      Step settled before
        { before.link id written with
          count := before.count + 1, ready := some written.readyDigest }
  | consume {id prior consumed} (found : before.links id = some prior)
      (issued : prior.status = .issued) (taken : consumed.ready = prior.readyDigest) :
      Step settled before
        { before.link id (consumedLink prior consumed) with
          ready := none, consumed := some consumed }
  | restore {id prior consumed} (found : before.links id = some prior)
      (waiting : prior.status = .consumed) (spent : before.consumed = some consumed) :
      Step settled before
        { before.link id (restoredLink prior consumed.restored) with
          ready := some consumed.restored, consumed := none }
  | retire {id prior receiptId} (found : before.links id = some prior)
      (issued : prior.status = .issued) :
      Step settled before
        { before.link id { prior with status := .retired, retiredByReceiptId := some receiptId } with
          ready := none }
  | begin {record native} (first : ∀ other, before.sessions other = none)
      (unlinked : before.count = 0) :
      Step settled before (before.addSession record native)
  | start {id prior record native startedAt} (found : before.links id = some prior)
      (waiting : prior.status = .consumed) (unused : before.sessions record = none)
      (fresh : ∀ other, before.sessions other ≠ some native)
      (handedOff : settled prior.sourceSessionId) :
      Step settled before
        ((before.link id (startedLink prior native record startedAt)).addSession record native)

/-- A link joins its source to the session after it on the path, if there is one yet. -/
structure Joins (path : List Id) (written : ContinuationLink) : Prop where
  positive : 1 ≤ written.ordinal
  source : path[written.ordinal - 1]? = some written.sourceSessionId
  successor : written.successorSessionId = path[written.ordinal]?
  started : written.status = .started ↔ written.ordinal < path.length
  ticket : written.readyDigest.For written

/-- The links carry the ordinals up to the count, each once. -/
structure Numbered (lineage : Lineage) : Prop where
  bounded : ∀ id written, lineage.links id = some written → written.ordinal ≤ lineage.count
  each : ∀ ordinal, 1 ≤ ordinal → ordinal ≤ lineage.count →
    ∃ id written, lineage.links id = some written ∧ written.ordinal = ordinal
  once : ∀ first second left right, lineage.links first = some left →
    lineage.links second = some right → left.ordinal = right.ordinal → first = second

/-- The links of a lineage are the steps of a path of distinct sessions. -/
structure OnPath (lineage : Lineage) (path : List Id) : Prop where
  simple : path.Nodup
  sessions : ∀ native, native ∈ path ↔ ∃ record, lineage.sessions record = some native
  records : ∀ first second native, lineage.sessions first = some native →
    lineage.sessions second = some native → first = second
  linked : lineage.count ≤ path.length
  unlinked : path.length ≤ lineage.count + 1
  numbered : lineage.Numbered
  joins : ∀ id written, lineage.links id = some written → Joins path written

/-- The tickets on the task are those of its links. -/
structure Ticketed (lineage : Lineage) : Prop where
  ready : ∀ ready, lineage.ready = some ready →
    ∃ id written, lineage.links id = some written ∧ written.status = .issued ∧
      written.readyDigest = ready
  issued : ∀ id written, lineage.links id = some written → written.status = .issued →
    lineage.ready = some written.readyDigest
  consumed : ∀ id written, lineage.links id = some written → written.status = .consumed →
    ∃ consumed, lineage.consumed = some consumed ∧ consumed.ready = written.readyDigest
  spent : ∀ consumed, lineage.consumed = some consumed →
    consumed.ready.ordinal ≤ lineage.count ∧ ∀ id written, lineage.links id = some written →
      written.ordinal = consumed.ready.ordinal →
      written.status = .consumed ∨ written.status = .started

/-- A lineage along a path. -/
structure Chain (lineage : Lineage) (path : List Id) : Prop where
  onPath : lineage.OnPath path
  ticketed : lineage.Ticketed

variable {settled : Id → Prop} {lineage after : Lineage} {path : List Id} {id : Id}
  {prior written : ContinuationLink}

theorem link_links (lineage : Lineage) (id other : Id) (written : ContinuationLink) :
    (lineage.link id written).links other =
      if other = id then some written else lineage.links other := by
  simp [link, Function.update_apply]

theorem addSession_sessions (lineage : Lineage) (record native other : Id) :
    (lineage.addSession record native).sessions other =
      if other = record then some native else lineage.sessions other := by
  simp [addSession, Function.update_apply]

/-! ### The numbers of the links -/

/-- A link is written over by one of the same ordinal. -/
theorem Numbered.rewrite (numbered : lineage.Numbered) (found : lineage.links id = some prior)
    (ordinal : written.ordinal = prior.ordinal) : (lineage.link id written).Numbered where
  bounded other present stored := by
    rw [link_links] at stored
    split at stored
    · obtain rfl := Option.some.inj stored
      rw [ordinal]
      exact numbered.bounded id prior found
    · exact numbered.bounded other present stored
  each position positive bounded := by
    obtain ⟨other, present, stored, same⟩ := numbered.each position positive bounded
    by_cases here : other = id
    · subst here
      obtain rfl := Option.some.inj (found.symm.trans stored)
      exact ⟨other, written, by rw [link_links, if_pos rfl], ordinal.trans same⟩
    · exact ⟨other, present, by rw [link_links, if_neg here, stored], same⟩
  once first second left right atFirst atSecond same := by
    rw [link_links] at atFirst atSecond
    split at atFirst <;> split at atSecond
    next one two => exact one.trans two.symm
    next one _ =>
      obtain rfl := Option.some.inj atFirst
      exact one.trans (numbered.once id second prior right found atSecond (ordinal.symm.trans same))
    next _ two =>
      obtain rfl := Option.some.inj atSecond
      exact (numbered.once first id left prior atFirst found (same.trans ordinal)).trans two.symm
    · exact numbered.once first second left right atFirst atSecond same

/-- A new link is the old ones and itself. -/
theorem link_cases {other : Id} {present : ContinuationLink}
    (stored : (lineage.link id written).links other = some present) :
    (other = id ∧ present = written) ∨ lineage.links other = some present := by
  rw [link_links] at stored
  split at stored
  next same => exact .inl ⟨same, (Option.some.inj stored).symm⟩
  · exact .inr stored

/-- A new link takes the next ordinal. -/
theorem Numbered.extend (numbered : lineage.Numbered) (fresh : lineage.links id = none)
    (ordinal : written.ordinal = lineage.count + 1) (ready : Option Ready) :
    Numbered { lineage.link id written with count := lineage.count + 1, ready } where
  bounded other present stored := by
    rcases link_cases stored with ⟨-, rfl⟩ | stored
    · exact ordinal.le
    · exact (numbered.bounded other present stored).trans (Nat.le_succ _)
  each position positive bounded := by
    rcases Nat.lt_or_ge lineage.count position with beyond | within
    · have last : position = lineage.count + 1 := Nat.le_antisymm bounded beyond
      exact ⟨id, written, by rw [link_links, if_pos rfl], ordinal.trans last.symm⟩
    · obtain ⟨other, present, stored, same⟩ := numbered.each position positive within
      refine ⟨other, present, ?_, same⟩
      rw [link_links, if_neg, stored]
      rintro rfl
      exact nomatch fresh.symm.trans stored
  once first second left right atFirst atSecond same := by
    rcases link_cases atFirst with ⟨one, rfl⟩ | before <;>
      rcases link_cases atSecond with ⟨two, rfl⟩ | before'
    · exact one.trans two.symm
    · have bounded := numbered.bounded second right before'
      omega
    · have bounded := numbered.bounded first left before
      omega
    · exact numbered.once first second left right before before' same

/-! ### The pending link -/

/-- A link that has not started is the last one, and the path ends in its source. -/
theorem OnPath.pending (along : lineage.OnPath path) (found : lineage.links id = some written)
    (unstarted : written.status ≠ .started) :
    written.ordinal = lineage.count ∧ path.length = lineage.count := by
  have joined := along.joins id written found
  have short : path.length ≤ written.ordinal :=
    Nat.not_lt.mp fun longer => unstarted (joined.started.mpr longer)
  have bounded := along.numbered.bounded id written found
  have linked := along.linked
  omega

/-- At most one link has not started. -/
theorem OnPath.pending_unique (along : lineage.OnPath path)
    (found : lineage.links id = some prior) (unstarted : prior.status ≠ .started) {other : Id}
    (found' : lineage.links other = some written) (unstarted' : written.status ≠ .started) :
    other = id := by
  have first := (along.pending found unstarted).1
  have second := (along.pending found' unstarted').1
  exact along.numbered.once other id written prior found' found (second.trans first.symm)

/-- Rewriting the pending link without starting it keeps the path. -/
theorem OnPath.rewrite (along : lineage.OnPath path) (found : lineage.links id = some prior)
    (joins : Joins path written) (ordinal : written.ordinal = prior.ordinal) :
    (lineage.link id written).OnPath path where
  simple := along.simple
  sessions := along.sessions
  records := along.records
  linked := along.linked
  unlinked := along.unlinked
  numbered := along.numbered.rewrite found ordinal
  joins other present stored := by
    rcases link_cases stored with ⟨-, rfl⟩ | stored
    · exact joins
    · exact along.joins other present stored

/-- The path does not depend on the tickets. -/
theorem OnPath.retag (along : lineage.OnPath path) (ready : Option Ready)
    (consumed : Option Consumed) : { lineage with ready, consumed }.OnPath path :=
  ⟨along.simple, along.sessions, along.records, along.linked, along.unlinked,
    { along.numbered with }, along.joins⟩

/-- After a write of the pending link, no other link is pending. -/
theorem OnPath.pending_written (along : lineage.OnPath path)
    (found : lineage.links id = some prior) (unstarted : prior.status ≠ .started) {other : Id}
    {present : ContinuationLink} (stored : (lineage.link id written).links other = some present)
    (pending : present.status ≠ .started) : present = written := by
  rw [link_links] at stored
  split at stored
  · exact (Option.some.inj stored).symm
  next distinct => exact absurd (along.pending_unique found unstarted stored pending) distinct

/-! ### One step -/

theorem Chain.consume (chain : lineage.Chain path) {consumed : Consumed}
    (found : lineage.links id = some prior) (issued : prior.status = .issued)
    (taken : consumed.ready = prior.readyDigest) :
    Chain { lineage.link id (consumedLink prior consumed) with
      ready := none, consumed := some consumed } path := by
  have along := chain.onPath
  have joined := along.joins id prior found
  have unstarted : prior.status ≠ .started := by simp [issued]
  have joins : Joins path (consumedLink prior consumed) :=
    { joined with
      started := by simpa [consumedLink, issued] using joined.started
      ticket := { joined.ticket with } }
  have names : consumed.ready.ordinal = prior.ordinal := by rw [taken, joined.ticket.ordinal]
  refine ⟨(along.rewrite found joins rfl).retag _ _, ?_, ?_, ?_, ?_⟩
  · exact fun ready offered => nomatch offered
  · intro other present stored waiting
    obtain rfl := along.pending_written found unstarted stored (by simp [waiting])
    exact nomatch waiting
  · intro other present stored waiting
    obtain rfl := along.pending_written found unstarted stored (by simp [waiting])
    exact ⟨consumed, rfl, taken⟩
  · intro spent same
    obtain rfl := Option.some.inj same
    rw [names]
    refine ⟨along.numbered.bounded id prior found, fun other present stored ordinal => ?_⟩
    by_cases started : present.status = .started
    · exact .inr started
    · obtain rfl := along.pending_written found unstarted stored started
      exact .inl rfl

theorem Chain.restore (chain : lineage.Chain path) {consumed : Consumed}
    (found : lineage.links id = some prior) (waiting : prior.status = .consumed)
    (spent : lineage.consumed = some consumed) :
    Chain { lineage.link id (restoredLink prior consumed.restored) with
      ready := some consumed.restored, consumed := none } path := by
  have along := chain.onPath
  have joined := along.joins id prior found
  have unstarted : prior.status ≠ .started := by simp [waiting]
  obtain ⟨same, held, taken⟩ := chain.ticketed.consumed id prior found waiting
  obtain rfl := Option.some.inj (spent.symm.trans held)
  -- the restored ticket is the consumed one, with the successor it had chosen
  have ticket : consumed.restored.For (restoredLink prior consumed.restored) := by
    have original := joined.ticket
    rw [← taken] at original
    exact { original with }
  have joins : Joins path (restoredLink prior consumed.restored) :=
    { joined with
      started := by simpa [restoredLink, waiting] using joined.started
      ticket }
  refine ⟨(along.rewrite found joins rfl).retag _ _, ?_, ?_, ?_, ?_⟩
  · intro ready offered
    obtain rfl := Option.some.inj offered
    exact ⟨id, _, by rw [link_links, if_pos rfl], rfl, rfl⟩
  · intro other present stored issued
    obtain rfl := along.pending_written found unstarted stored (by simp [issued])
    rfl
  · intro other present stored consuming
    obtain rfl := along.pending_written found unstarted stored (by simp [consuming])
    exact nomatch consuming
  · exact fun consumed held => nomatch held

theorem Chain.retire (chain : lineage.Chain path) (receiptId : Id)
    (found : lineage.links id = some prior) (issued : prior.status = .issued) :
    Chain { lineage.link id
        { prior with status := .retired, retiredByReceiptId := some receiptId } with
      ready := none } path := by
  have along := chain.onPath
  have joined := along.joins id prior found
  have unstarted : prior.status ≠ .started := by simp [issued]
  have joins : Joins path
      { prior with status := .retired, retiredByReceiptId := some receiptId } :=
    { joined with
      started := by simpa [issued] using joined.started
      ticket := { joined.ticket with } }
  refine ⟨(along.rewrite found joins rfl).retag none _, ?_, ?_, ?_, ?_⟩
  · exact fun ready offered => nomatch offered
  · intro other present stored waiting
    obtain rfl := along.pending_written found unstarted stored (by simp [waiting])
    exact nomatch waiting
  · intro other present stored waiting
    obtain rfl := along.pending_written found unstarted stored (by simp [waiting])
    exact nomatch waiting
  · intro consumed held
    obtain ⟨bounded, resolved⟩ := chain.ticketed.spent consumed held
    refine ⟨bounded, fun other present stored ordinal => ?_⟩
    rw [link_links] at stored
    split at stored
    · -- an issued link is not the one that the consumed ticket names
      obtain rfl := Option.some.inj stored
      rcases resolved id prior found ordinal with consumed | started
      · exact nomatch issued.symm.trans consumed
      · exact nomatch issued.symm.trans started
    · exact resolved other present stored ordinal

/-- Issuing adds the next link after all earlier ones have started. -/
theorem Chain.issue (chain : lineage.Chain path) (fresh : lineage.links id = none)
    (resolved : ∀ other prior, lineage.links other = some prior → prior.status = .started)
    (head : 1 ≤ lineage.count → ∃ other prior, lineage.links other = some prior ∧
      prior.ordinal = lineage.count ∧ prior.successorSessionId = some written.sourceSessionId)
    (source : ∃ record, lineage.sessions record = some written.sourceSessionId)
    (ordinal : written.ordinal = lineage.count + 1) (issued : written.status = .issued)
    (unstarted : written.successorSessionId = none) (ticket : written.readyDigest.For written) :
    Chain { lineage.link id written with
      count := lineage.count + 1, ready := some written.readyDigest } path := by
  have along := chain.onPath
  -- the path ends in the source of the new link
  have ending : path.length = lineage.count + 1 ∧
      path[lineage.count]? = some written.sourceSessionId := by
    rcases Nat.eq_zero_or_pos lineage.count with none | positive
    · have member := (along.sessions _).mpr source
      have bound := along.unlinked
      rw [none] at bound ⊢
      match path, member, bound with
      | [only], member, _ => simpa [eq_comm] using member
    · obtain ⟨other, prior, found, last, names⟩ := head positive
      have joined := along.joins other prior found
      have started := joined.started.mp (resolved other prior found)
      have successor := names.symm.trans joined.successor
      have bound := along.unlinked
      rw [last] at started successor
      exact ⟨by omega, successor.symm⟩
  have joins : Joins path written :=
    ⟨by omega, by rw [ordinal, Nat.add_sub_cancel, ending.2],
      by rw [unstarted, ordinal, List.getElem?_eq_none (by omega)],
      by simp only [issued, ordinal, ending.1, reduceCtorEq, lt_irrefl], ticket⟩
  refine ⟨⟨along.simple, along.sessions, along.records, ending.1.ge,
    ending.1.le.trans (Nat.le_succ _), along.numbered.extend fresh ordinal _, ?_⟩, ⟨?_, ?_, ?_, ?_⟩⟩
  · intro other present stored
    rcases link_cases stored with ⟨-, rfl⟩ | stored
    · exact joins
    · exact along.joins other present stored
  · intro ready offered
    obtain rfl := Option.some.inj offered
    exact ⟨id, written, by rw [link_links, if_pos rfl], issued, rfl⟩
  · intro other present stored waiting
    rcases link_cases stored with ⟨-, rfl⟩ | stored
    · rfl
    · exact nomatch waiting.symm.trans (resolved other present stored)
  · intro other present stored waiting
    rcases link_cases stored with ⟨-, rfl⟩ | stored
    · exact nomatch waiting.symm.trans issued
    · exact nomatch waiting.symm.trans (resolved other present stored)
  · intro consumed held
    obtain ⟨bounded, -⟩ := chain.ticketed.spent consumed held
    refine ⟨bounded.trans (Nat.le_succ _), fun other present stored same => ?_⟩
    rcases link_cases stored with ⟨-, rfl⟩ | stored
    · omega
    · exact .inr (resolved other present stored)

/-- The first session of a task is a path of its own. -/
theorem Chain.begin (chain : lineage.Chain path) {record native : Id}
    (first : ∀ other, lineage.sessions other = none) (unlinked : lineage.count = 0) :
    (lineage.addSession record native).Chain [native] := by
  have along := chain.onPath
  have noLink : ∀ other present, lineage.links other ≠ some present := by
    intro other present found
    have positive := (along.joins other present found).positive
    have bounded := along.numbered.bounded other present found
    omega
  refine ⟨⟨List.nodup_singleton _, ?_, ?_, unlinked.le.trans (Nat.zero_le _), ?_,
    { along.numbered with }, ?_⟩, { chain.ticketed with }⟩
  · intro other
    simp only [List.mem_singleton, addSession_sessions, first]
    constructor
    · rintro rfl
      exact ⟨record, by simp⟩
    · rintro ⟨id, same⟩
      split at same
      · exact (Option.some.inj same).symm
      · exact nomatch same
  · intro one two other here there
    simp only [addSession_sessions, first, Option.ite_none_right_eq_some] at here there
    exact here.1.trans there.1.symm
  · simp
  · exact fun other present found => absurd found (noLink other present)

/-- A joined link stays joined when the path grows, unless it is the pending one. -/
theorem Joins.grow (joined : Joins path written) (started : written.status = .started)
    (native : Id) : Joins (path ++ [native]) written := by
  have short := joined.started.mp started
  refine { joined with source := ?_, successor := ?_, started := ?_ }
  · rw [List.getElem?_append_left (by omega), joined.source]
  · rw [List.getElem?_append_left short, joined.successor]
  · simp only [started, List.length_append, List.length_singleton, true_iff]
    omega

/-- The first save of a successor starts the consumed link and adds the session to the path. -/
theorem Chain.start (chain : lineage.Chain path) {record native : Id} {startedAt : Time}
    (found : lineage.links id = some prior) (waiting : prior.status = .consumed)
    (unused : lineage.sessions record = none)
    (fresh : ∀ other, lineage.sessions other ≠ some native) :
    Chain ((lineage.link id (startedLink prior native record startedAt)).addSession record native)
      (path ++ [native]) := by
  have along := chain.onPath
  have joined := along.joins id prior found
  have unstarted : prior.status ≠ .started := by simp [waiting]
  have ending := along.pending found unstarted
  have absent : native ∉ path := fun member =>
    (along.sessions native).mp member |>.elim fresh
  have positive := joined.positive
  have joins : Joins (path ++ [native]) (startedLink prior native record startedAt) := by
    refine ⟨positive, ?_, ?_, ?_, { joined.ticket with }⟩
    · have earlier : prior.ordinal - 1 < path.length := by omega
      exact (List.getElem?_append_left earlier).trans joined.source
    · simp only [startedLink, ending.1, ← ending.2, List.getElem?_concat_length]
    · simp only [startedLink, List.length_append, List.length_singleton, ending.1,
        ending.2, Nat.lt_succ_self]
  have numbered : (lineage.link id (startedLink prior native record startedAt)).Numbered :=
    along.numbered.rewrite found rfl
  refine ⟨⟨?_, ?_, ?_, ?_, ?_, { numbered with }, ?_⟩, ?_, ?_, ?_, ?_⟩
  · exact List.nodup_append.mpr ⟨along.simple, List.nodup_singleton _, by
      rintro kept member other added rfl
      exact absent (List.mem_singleton.mp added ▸ member)⟩
  · intro other
    rw [List.mem_append, List.mem_singleton, along.sessions]
    simp only [addSession_sessions]
    constructor
    · rintro (⟨kept, same⟩ | rfl)
      · refine ⟨kept, (if_neg ?_).trans same⟩
        rintro rfl
        exact nomatch unused.symm.trans same
      · exact ⟨record, if_pos rfl⟩
    · rintro ⟨kept, same⟩
      split at same
      · exact .inr (Option.some.inj same).symm
      · exact .inl ⟨kept, same⟩
  · intro one two other here there
    rw [addSession_sessions] at here there
    split at here <;> split at there
    next left right => exact left.trans right.symm
    · exact absurd ((Option.some.inj here).symm ▸ there) (fresh two)
    · exact absurd ((Option.some.inj there).symm ▸ here) (fresh one)
    · exact along.records one two other here there
  · rw [List.length_append, ending.2]
    exact Nat.le_succ _
  · rw [List.length_append, ending.2]
    rfl
  · intro other present stored
    by_cases here : present.status = .started
    · rcases link_cases stored with ⟨-, rfl⟩ | stored
      · exact joins
      · exact (along.joins other present stored).grow here native
    · obtain rfl := along.pending_written found unstarted stored here
      exact joins
  · intro ready offered
    obtain ⟨other, present, stored, issued, digest⟩ := chain.ticketed.ready ready offered
    obtain rfl := along.pending_unique found unstarted stored (by simp [issued])
    obtain rfl := Option.some.inj (found.symm.trans stored)
    exact nomatch waiting.symm.trans issued
  · intro other present stored issued
    obtain rfl := along.pending_written found unstarted stored (by simp [issued])
    exact nomatch issued
  · intro other present stored consumed
    obtain rfl := along.pending_written found unstarted stored (by simp [consumed])
    exact nomatch consumed
  · intro consumed held
    obtain ⟨bounded, resolved⟩ := chain.ticketed.spent consumed held
    refine ⟨bounded, fun other present stored ordinal => ?_⟩
    rcases link_cases stored with ⟨-, rfl⟩ | stored
    · exact .inr rfl
    · exact resolved other present stored ordinal

/-! ### Every step -/

/-- Every step leads along a path, which it keeps or extends by one session. -/
theorem Chain.step (chain : lineage.Chain path) (step : lineage.Step settled after) :
    ∃ extended, after.Chain extended := by
  cases step with
  | issue fresh resolved head source ordinal issued unstarted ticket =>
    exact ⟨path, chain.issue fresh resolved head source ordinal issued unstarted ticket⟩
  | consume found issued taken => exact ⟨path, chain.consume found issued taken⟩
  | restore found waiting spent => exact ⟨path, chain.restore found waiting spent⟩
  | retire found issued => exact ⟨path, chain.retire _ found issued⟩
  | begin first unlinked => exact ⟨_, chain.begin first unlinked⟩
  | start found waiting unused fresh => exact ⟨_, chain.start found waiting unused fresh⟩

/-- A started link is never written again. -/
theorem Step.keeps_started (step : lineage.Step settled after)
    (found : lineage.links id = some written) (started : written.status = .started) :
    after.links id = some written := by
  have kept : ∀ {other prior next}, lineage.links other = some prior →
      prior.status ≠ .started → (lineage.link other next).links id = some written := by
    intro other prior next stored pending
    rw [link_links, if_neg, found]
    rintro rfl
    obtain rfl := Option.some.inj (found.symm.trans stored)
    exact pending started
  cases step with
  | issue fresh =>
    refine (link_links ..).trans ((if_neg ?_).trans found)
    rintro rfl
    exact nomatch fresh.symm.trans found
  | consume stored issued => exact kept stored (by simp [issued])
  | restore stored waiting => exact kept stored (by simp [waiting])
  | retire stored issued => exact kept stored (by simp [issued])
  | begin => exact found
  | start stored waiting => exact kept stored (by simp [waiting])

/-- A link starts from a consumed one whose source is handed off. -/
theorem Step.started_from (step : lineage.Step settled after)
    (found : after.links id = some written) (started : written.status = .started) :
    lineage.links id = some written ∨ settled written.sourceSessionId := by
  cases step with
  | issue fresh resolved head source ordinal issued =>
    rcases link_cases found with ⟨-, rfl⟩ | found
    · exact nomatch issued.symm.trans started
    · exact .inl found
  | consume =>
    rcases link_cases found with ⟨-, rfl⟩ | found
    · exact nomatch started
    · exact .inl found
  | restore =>
    rcases link_cases found with ⟨-, rfl⟩ | found
    · exact nomatch started
    · exact .inl found
  | retire =>
    rcases link_cases found with ⟨-, rfl⟩ | found
    · exact nomatch started
    · exact .inl found
  | begin => exact .inl found
  | start stored waiting unused fresh handedOff =>
    rcases link_cases found with ⟨-, rfl⟩ | found
    · exact .inr handedOff
    · exact .inl found

/-- A new task has no sessions and no links. -/
theorem chain_empty : Chain {} [] where
  onPath :=
    { simple := List.nodup_nil
      sessions := by simp
      records := by simp
      linked := le_rfl
      unlinked := Nat.zero_le _
      numbered :=
        { bounded := by simp
          each := fun ordinal positive bounded => absurd (positive.trans bounded) (by simp)
          once := by simp }
      joins := by simp }
  ticketed :=
    { ready := by simp
      issued := by simp
      consumed := by simp
      spent := by simp }

/-! ### What a chain says -/

/-- What the records of a task promise: the links are numbered from one to the count and join the
task's sessions in one simple path; only the last can wait for its successor; the ready ticket is
that of an issued last link, and a consumed last link is named by the consumed ticket. -/
structure Sound (lineage : Lineage) : Prop where
  numbered : lineage.Numbered
  positive : ∀ id written, lineage.links id = some written → 1 ≤ written.ordinal
  resolved : ∀ id written, lineage.links id = some written → written.ordinal < lineage.count →
    written.status = .started
  path : ∃ path : List Id, path.Nodup ∧
    (∀ native, native ∈ path ↔ ∃ record, lineage.sessions record = some native) ∧
    lineage.count ≤ path.length ∧ path.length ≤ lineage.count + 1 ∧
    ∀ id written, lineage.links id = some written →
      path[written.ordinal - 1]? = some written.sourceSessionId ∧
        written.successorSessionId = path[written.ordinal]?
  records : ∀ first second native, lineage.sessions first = some native →
    lineage.sessions second = some native → first = second
  started : ∀ id written, lineage.links id = some written →
    (written.status = .started ↔ written.successorSessionId.isSome)
  ready : ∀ ready, lineage.ready = some ready ↔
    ∃ id written, lineage.links id = some written ∧ written.ordinal = lineage.count ∧
      written.status = .issued ∧ written.readyDigest = ready ∧ ready.For written
  consumed : ∀ id written, lineage.links id = some written → written.ordinal = lineage.count →
    (written.status = .consumed ↔ written.successorSessionId = none ∧
      ∃ consumed, lineage.consumed = some consumed ∧ consumed.ready.For written)

theorem Chain.sound (chain : lineage.Chain path) : lineage.Sound where
  numbered := chain.onPath.numbered
  positive id written found := (chain.onPath.joins id written found).positive
  resolved id written found earlier := by
    by_contra unstarted
    exact absurd (chain.onPath.pending found unstarted).1 earlier.ne
  path := by
    have along := chain.onPath
    refine ⟨path, along.simple, along.sessions, along.linked, along.unlinked, ?_⟩
    exact fun id written found =>
      ⟨(along.joins id written found).source, (along.joins id written found).successor⟩
  records := chain.onPath.records
  started id written found := by
    have joined := chain.onPath.joins id written found
    rw [joined.started, joined.successor, Option.isSome_iff_ne_none, Ne, List.getElem?_eq_none_iff,
      not_le]
  ready ready := by
    constructor
    · intro offered
      obtain ⟨id, written, found, issued, rfl⟩ := chain.ticketed.ready ready offered
      have last := (chain.onPath.pending found (by simp [issued])).1
      exact ⟨id, written, found, last, issued, rfl, (chain.onPath.joins id written found).ticket⟩
    · rintro ⟨id, written, found, -, issued, rfl, -⟩
      exact chain.ticketed.issued id written found issued
  consumed id written found last := by
    have joined := chain.onPath.joins id written found
    constructor
    · intro waiting
      have ending := chain.onPath.pending found (by simp [waiting])
      obtain ⟨consumed, held, taken⟩ := chain.ticketed.consumed id written found waiting
      refine ⟨?_, consumed, held, taken ▸ joined.ticket⟩
      rw [joined.successor, List.getElem?_eq_none (by omega)]
    · rintro ⟨unstarted, consumed, held, names⟩
      obtain ⟨-, resolved⟩ := chain.ticketed.spent consumed held
      rcases resolved id written found names.ordinal.symm with waiting | started
      · exact waiting
      · have longer := joined.started.mp started
        rw [joined.successor, List.getElem?_eq_none_iff] at unstarted
        omega

end Lineage

end PhysHarness
