import PhysHarness.Outbox.Dispatcher

/-!
# Outbox delivery

Claims, deliveries, reports and crashes of any number of dispatchers interleave. The attempt number
identifies one claim of a row, so of all flights of a row only the one with the row's own attempt can
still change it.

## Main result

`outbox_single_owner`: rows are never lost, each claim counts one attempt, settled rows are final,
an outdated report changes nothing, and a row becomes delivered only by the report of its recorded
owner and attempt after a delivery that returned. The last holds while no delivery raises an error
whose `code` is false: such a report is written as a success.
-/
namespace PhysHarness

section Steps

variable {dispatcher : Dispatcher} {now : ℚ} {ids : List Id} {rows : Table Id OutboxRow}

/-! ### Claims -/

theorem dueIds_nodup (rows : Table Id OutboxRow) (now : ℚ) (limit : Nat) (locked : Id → Bool) :
    (dueIds rows now limit locked).Nodup :=
  (((List.perm_insertionSort _ _).nodup_iff).mpr (Table.nodup_select rows _)).sublist
    (List.take_sublist _ _)

theorem dueIds_due {limit : Nat} {locked : Id → Bool} {id : Id}
    (member : id ∈ dueIds rows now limit locked) :
    ∃ row, rows.find id = some row ∧ row.due now = true := by
  have sorted := List.mem_of_mem_take member
  rw [List.mem_insertionSort, List.mem_map] at sorted
  obtain ⟨⟨_, row⟩, selected, rfl⟩ := sorted
  obtain ⟨found, due⟩ := Table.mem_select.mp selected
  exact ⟨row, found, (Bool.and_eq_true_iff.mp due).1⟩

/-- A claim rewrites the rows it takes and no other. -/
theorem claimRows_find (dispatcher : Dispatcher) (now : ℚ) (rows : Table Id OutboxRow)
    (nodup : ids.Nodup) (other : Id) :
    (claimRows dispatcher now ids rows).1.find other =
      if other ∈ ids then (rows.find other).map (·.claimed dispatcher.owner now)
      else rows.find other := by
  induction ids generalizing rows with
  | nil => simp [claimRows]
  | cons id ids ih =>
    obtain ⟨fresh, nodup⟩ := List.nodup_cons.mp nodup
    unfold claimRows
    split
    next absent =>
      rw [ih rows nodup]
      by_cases here : other = id
      · simp [here, fresh, absent]
      · simp [here]
    next row found =>
      rw [ih _ nodup]
      by_cases here : other = id
      · simp [here, fresh, found]
      · simp [here, Table.find_put_ne _ _ here]

/-- Every item of a claim is the claimed form of a row that it takes. -/
theorem claimRows_item (nodup : ids.Nodup) {item : OutboxItem}
    (member : item ∈ (claimRows dispatcher now ids rows).2) :
    ∃ id ∈ ids, ∃ row, rows.find id = some row ∧
      item = (row.claimed dispatcher.owner now).item id := by
  induction ids generalizing rows with
  | nil => simp [claimRows] at member
  | cons id ids ih =>
    obtain ⟨fresh, nodup⟩ := List.nodup_cons.mp nodup
    unfold claimRows at member
    split at member
    · obtain ⟨other, inside, row, found, same⟩ := ih nodup member
      exact ⟨other, List.mem_cons_of_mem _ inside, row, found, same⟩
    next row found =>
      rcases List.mem_cons.mp member with rfl | later
      · exact ⟨id, List.mem_cons_self, row, found, rfl⟩
      · obtain ⟨other, inside, stored, present, same⟩ := ih nodup later
        have distinct : other ≠ id := fun here => fresh (here ▸ inside)
        rw [Table.find_put_ne _ _ distinct] at present
        exact ⟨other, List.mem_cons_of_mem _ inside, stored, present, same⟩

/-- A claim takes each row once. -/
theorem claimRows_ids : ((claimRows dispatcher now ids rows).2.map OutboxItem.id).Sublist ids := by
  induction ids generalizing rows with
  | nil => simp [claimRows]
  | cons id ids ih =>
    unfold claimRows
    split
    · exact ih.cons _
    · exact ih.cons_cons _

/-! ### Reports -/

/-- A report changes one row, and that one only for the recorded owner and attempt. -/
theorem report_find (rows : Table Id OutboxRow) (dispatcher : Dispatcher) (item : OutboxItem)
    (outcome : DeliveryOutcome) (now : ℚ) (other : Id) :
    (report rows dispatcher item outcome now).find other =
      (rows.find other).map fun row =>
        if other = item.id ∧ row.reportMatches dispatcher item.attempt = true then
          row.reported dispatcher item.attempt outcome now
        else row := by
  unfold report
  split
  next absent =>
    by_cases here : other = item.id
    · simp [here, absent]
    · simp [here]
  next row found =>
    split
    next matched =>
      by_cases here : other = item.id
      · simp [here, found, matched]
      · simp [here, Table.find_put_ne _ _ here]
    next unmatched =>
      by_cases here : other = item.id
      · simp [here, found, unmatched]
      · simp [here]

theorem reportMatches_iff {row : OutboxRow} {attempt : Nat} :
    row.reportMatches dispatcher attempt = true ↔
      row.owner = some dispatcher.owner ∧ row.attempts = attempt ∧ row.state = .dispatching := by
  simp [OutboxRow.reportMatches, and_assoc]

/-- The report of a delivery that raised a true failure code does not deliver. -/
theorem reported_delivered {row : OutboxRow} {attempt : Nat} {outcome : DeliveryOutcome}
    (truthy : ∀ error, outcome = .raised error → error.failure.truthy = true)
    (delivered : (row.reported dispatcher attempt outcome now).state = .delivered) :
    outcome = .returned := by
  cases outcome with
  | returned => rfl
  | raised error =>
    have failed := truthy error rfl
    simp only [OutboxRow.reported, DeliveryOutcome.failure, failed, if_true] at delivered
    split at delivered <;> exact nomatch delivered

/-! ### Steps -/

/-- The delivery does not raise an error whose failure code is false. -/
def OutboxLabel.Truthful : OutboxLabel → Prop
  | .deliver _ (.raised error) => error.failure.truthy = true
  | _ => True

/-- What a step may do to a stored row. -/
structure RowSafe (sys : OutboxSys) (label : OutboxLabel) (id : Id) (row now : OutboxRow) : Prop where
  attempts : now.attempts = row.attempts + if sys.takes label id then 1 else 0
  final : row.state = .delivered ∨ row.state = .blocked → now = row
  delivered : now.state = .delivered → row.state = .delivered ∨
    ∃ index time flight, label = .report index time ∧ sys.flights[index]? = some flight ∧
      flight.stage = .finished .returned ∧ flight.item.id = id ∧
      row.owner = some flight.dispatcher.owner ∧ row.attempts = flight.item.attempt ∧
      row.state = .dispatching
  stale : ∀ index time flight, label = .report index time → sys.flights[index]? = some flight →
    flight.item.attempt ≠ row.attempts → now = row

/-- What a flight was claimed with. -/
def Flight.claim (flight : Flight) : Dispatcher × OutboxItem := (flight.dispatcher, flight.item)

/-- Two claims of one row are different attempts. -/
def DistinctAttempts (first second : Dispatcher × OutboxItem) : Prop :=
  first.2.id = second.2.id → first.2.attempt ≠ second.2.attempt

/-- A row was claimed once for each attempt, and the claim of its present attempt is its owner's. -/
structure SingleOwner (sys : OutboxSys) : Prop where
  owned : ∀ claim ∈ sys.flights.map Flight.claim, ∃ row, sys.rows.find claim.2.id = some row ∧
    claim.2.attempt ≤ row.attempts ∧
    (claim.2.attempt = row.attempts → row.owner = some claim.1.owner)
  single : (sys.flights.map Flight.claim).Pairwise DistinctAttempts

/-- Every delivery that failed has a true failure code. -/
def FailuresTrue (sys : OutboxSys) : Prop :=
  ∀ flight ∈ sys.flights, ∀ error, flight.stage = .finished (.raised error) →
    error.failure.truthy = true

variable {sys : OutboxSys} {label : OutboxLabel} {id : Id} {row : OutboxRow}

/-- A step that leaves the row. -/
theorem RowSafe.same (untaken : sys.takes label id = false) : RowSafe sys label id row row where
  attempts := by simp [untaken]
  final _ := rfl
  delivered := .inl
  stale _ _ _ _ _ _ := rfl

theorem OutboxSys.step_row (failures : FailuresTrue sys) (stored : sys.rows.find id = some row) :
    ∃ now, (sys.step label).rows.find id = some now ∧ RowSafe sys label id row now := by
  cases label with
  | enqueue other =>
    refine ⟨row, ?_, .same rfl⟩
    simp only [step]
    split
    · exact stored
    next absent =>
      have distinct : id ≠ other := by
        rintro rfl
        cases absent.symm.trans stored
      exact (Table.find_put_ne _ _ distinct).trans stored
  | claim dispatcher time limit locked =>
    have found : (sys.step (.claim dispatcher time limit locked)).rows.find id = _ :=
      claimRows_find dispatcher time sys.rows (dueIds_nodup sys.rows time limit locked) id
    rw [stored] at found
    by_cases taken : id ∈ dueIds sys.rows time limit locked
    · rw [if_pos taken] at found
      refine ⟨_, found, ?_, fun settled => ?_, fun same => (by cases same),
        fun _ _ _ same => by cases same⟩
      · simp [takes, taken, OutboxRow.claimed]
      · obtain ⟨same, present, due⟩ := dueIds_due taken
        obtain rfl := Option.some.inj (stored.symm.trans present)
        rcases settled with settled | settled <;> simp [OutboxRow.due, settled] at due
    · rw [if_neg taken] at found
      exact ⟨row, found, .same (by simp [takes, taken])⟩
  | deliver index outcome =>
    refine ⟨row, ?_, .same rfl⟩
    simp only [step]
    split <;> exact stored
  | report index time =>
    simp only [step]
    split
    next dispatcher item outcome flying =>
      have found := report_find sys.rows dispatcher item outcome time id
      rw [stored] at found
      by_cases changes : id = item.id ∧ row.reportMatches dispatcher item.attempt = true
      · rw [Option.map_some, if_pos changes] at found
        obtain ⟨rfl, matched⟩ := changes
        obtain ⟨owner, attempt, dispatching⟩ := reportMatches_iff.mp matched
        have truthy : ∀ error, outcome = .raised error → error.failure.truthy = true := by
          rintro error rfl
          exact failures _ (List.mem_of_getElem? flying) error rfl
        refine ⟨_, found, rfl, ?_, fun delivered => .inr ?_, ?_⟩
        · simp [dispatching]
        · obtain rfl := reported_delivered truthy delivered
          exact ⟨index, time, _, rfl, flying, rfl, rfl, owner, attempt, dispatching⟩
        · rintro _ _ flight ⟨⟩ here outdated
          obtain rfl := Option.some.inj (flying.symm.trans here)
          exact absurd attempt.symm outdated
      · rw [Option.map_some, if_neg changes] at found
        exact ⟨row, found, .same rfl⟩
    · exact ⟨row, stored, .same rfl⟩
  | crash index =>
    refine ⟨row, ?_, .same rfl⟩
    simp only [step]
    split <;> exact stored

/-- The same claims over rows that keep their attempt and owner. -/
theorem SingleOwner.congr {after : OutboxSys} (owner : SingleOwner sys)
    (claims : after.flights.map Flight.claim = sys.flights.map Flight.claim)
    (kept : ∀ id row, sys.rows.find id = some row → ∃ now, after.rows.find id = some now ∧
      now.attempts = row.attempts ∧ now.owner = row.owner) : SingleOwner after where
  owned claim member := by
    rw [claims] at member
    obtain ⟨row, stored, attempt, owned⟩ := owner.owned claim member
    obtain ⟨now, found, attempts, owners⟩ := kept _ row stored
    rw [← attempts, ← owners] at owned
    exact ⟨now, found, attempt.trans_eq attempts.symm, owned⟩
  single := claims ▸ owner.single

/-- Moving a flight on keeps every claim. -/
theorem claims_move {index : Nat} {flight : Flight} (flying : sys.flights[index]? = some flight)
    (stage : FlightStage) :
    (sys.move index flight stage).flights.map Flight.claim = sys.flights.map Flight.claim := by
  obtain ⟨inside, rfl⟩ := List.getElem?_eq_some_iff.mp flying
  have kept : ({ sys.flights[index] with stage } : Flight).claim = sys.flights[index].claim := rfl
  unfold OutboxSys.move
  rw [List.map_set, kept, ← List.map_set, List.set_getElem_self]

/-- A claim adds the next attempt of every row that it takes. -/
theorem SingleOwner.take (owner : SingleOwner sys) (nodup : ids.Nodup) :
    SingleOwner
      { rows := (claimRows dispatcher now ids sys.rows).1
        flights := sys.flights ++
          (claimRows dispatcher now ids sys.rows).2.map fun item => { dispatcher, item } } := by
  have claims : (sys.flights ++ (claimRows dispatcher now ids sys.rows).2.map fun item =>
        ({ dispatcher, item } : Flight)).map Flight.claim =
      sys.flights.map Flight.claim ++
        (claimRows dispatcher now ids sys.rows).2.map fun item => (dispatcher, item) := by
    rw [List.map_append, List.map_map]
    rfl
  constructor
  · intro claim member
    rw [claims, List.mem_append] at member
    have found := claimRows_find dispatcher now sys.rows nodup claim.2.id
    rcases member with old | new
    · obtain ⟨row, stored, attempt, owned⟩ := owner.owned claim old
      rw [stored] at found
      split at found
      · refine ⟨_, found, attempt.trans (Nat.le_succ _), fun current => ?_⟩
        have next : claim.2.attempt = row.attempts + 1 := current
        omega
      · exact ⟨row, found, attempt, owned⟩
    · obtain ⟨item, inside, rfl⟩ := List.mem_map.mp new
      obtain ⟨id, taken, row, stored, rfl⟩ := claimRows_item nodup inside
      have claimed : id = ((row.claimed dispatcher.owner now).item id).id := rfl
      rw [← claimed, if_pos taken, stored] at found
      exact ⟨_, found, le_rfl, fun _ => rfl⟩
  · rw [claims, List.pairwise_append]
    refine ⟨owner.single, ?_, fun claim old other new => ?_⟩
    · -- one claim takes each row once
      have apart : ((claimRows dispatcher now ids sys.rows).2.map OutboxItem.id).Nodup :=
        nodup.sublist claimRows_ids
      rw [List.pairwise_map]
      exact (List.pairwise_map.mp apart).imp fun distinct same => absurd same distinct
    · obtain ⟨item, inside, rfl⟩ := List.mem_map.mp new
      obtain ⟨id, taken, row, stored, rfl⟩ := claimRows_item nodup inside
      intro same
      obtain ⟨before, found, attempt, -⟩ := owner.owned claim old
      have here : claim.2.id = id := same
      obtain rfl := Option.some.inj (stored.symm.trans (here ▸ found))
      exact (Nat.lt_succ_of_le attempt).ne

theorem OutboxSys.step_owner (owner : SingleOwner sys) : SingleOwner (sys.step label) := by
  have stays : ∀ id row, sys.rows.find id = some row → ∃ now, sys.rows.find id = some now ∧
      now.attempts = row.attempts ∧ now.owner = row.owner :=
    fun id row stored => ⟨row, stored, rfl, rfl⟩
  cases label with
  | enqueue other =>
    simp only [step]
    split
    · exact owner
    next absent =>
      refine owner.congr rfl fun id row stored => ⟨row, ?_, rfl, rfl⟩
      have distinct : id ≠ other := by
        rintro rfl
        cases absent.symm.trans stored
      exact (Table.find_put_ne _ _ distinct).trans stored
  | claim dispatcher time limit locked =>
    exact owner.take (dueIds_nodup sys.rows time limit locked)
  | deliver index outcome =>
    simp only [step]
    split
    next flying => exact owner.congr (claims_move flying _) stays
    · exact owner
  | report index time =>
    simp only [step]
    split
    next dispatcher item outcome flying =>
      refine owner.congr (claims_move flying _) fun id row stored => ?_
      have found := report_find sys.rows dispatcher item outcome time id
      rw [stored, Option.map_some] at found
      refine ⟨_, found, ?_⟩
      split <;> exact ⟨rfl, rfl⟩
    · exact owner
  | crash index =>
    simp only [step]
    split
    next flying => exact owner.congr (claims_move flying _) stays
    · exact owner

/-- A step records no failure with a false code unless a delivery raises one. -/
theorem OutboxSys.step_failures (failures : FailuresTrue sys) (truthful : label.Truthful) :
    FailuresTrue (sys.step label) := by
  have moved : ∀ index flight stage, sys.flights[index]? = some flight →
      (∀ error, stage = .finished (.raised error) → error.failure.truthy = true) →
      FailuresTrue (sys.move index flight stage) := by
    intro index flight stage flying reports other member error raised
    rcases List.mem_or_eq_of_mem_set member with old | rfl
    · exact failures other old error raised
    · exact reports error raised
  cases label with
  | enqueue other =>
    simp only [step]
    split <;> exact failures
  | claim dispatcher time limit locked =>
    intro flight member error raised
    rcases List.mem_append.mp member with old | new
    · exact failures flight old error raised
    · obtain ⟨item, -, rfl⟩ := List.mem_map.mp new
      cases raised
  | deliver index outcome =>
    simp only [step]
    split
    next flying =>
      refine moved _ _ _ flying fun error raised => ?_
      obtain rfl := FlightStage.finished.inj raised
      exact truthful
    · exact failures
  | report index time =>
    simp only [step]
    split
    next flying => exact moved _ _ _ flying fun _ raised => by cases raised
    · exact failures
  | crash index =>
    simp only [step]
    split
    next flying => exact moved _ _ _ flying fun _ raised => by cases raised
    · exact failures

/-! ### Runs -/

theorem OutboxSys.run_owner (labels : List OutboxLabel) : SingleOwner (OutboxSys.run labels) :=
  Transition.run_always SingleOwner labels ⟨by simp, by simp⟩ fun _ _ owner => step_owner owner

/-- The outbox is at-least-once with a single owner: in every run whose deliveries raise only errors
with a true failure code, every step keeps every row and does to it what its label may do, and one
claim holds each attempt. -/
theorem outbox_single_owner {labels : List OutboxLabel}
    (truthful : Transition.Along OutboxSys.step (fun _ label => label.Truthful) {} labels) :
    (∀ first label rest, labels = first ++ label :: rest → ∀ id row,
      (OutboxSys.run first).rows.find id = some row →
      ∃ now, (OutboxSys.run (first ++ [label])).rows.find id = some now ∧
        RowSafe (OutboxSys.run first) label id row now) ∧
    SingleOwner (OutboxSys.run labels) := by
  refine ⟨?_, OutboxSys.run_owner labels⟩
  rintro first label rest rfl id row stored
  have before := (Transition.along_append.mp truthful).1
  have failures : FailuresTrue (OutboxSys.run first) :=
    Transition.run_invariant FailuresTrue (by simp [FailuresTrue])
      (fun _ _ failures truthful => OutboxSys.step_failures failures truthful) before
  have same : OutboxSys.run (first ++ [label]) = (OutboxSys.run first).step label :=
    Transition.run_append ..
  rw [same]
  exact OutboxSys.step_row failures stored

end Steps

namespace Scenario

def dispatcher : Dispatcher := { owner := "dispatcher-a" }

/-- One command is enqueued, claimed and delivered with this outcome. -/
def deliveredWith (outcome : DeliveryOutcome) : List OutboxLabel :=
  [.enqueue "row" "project" "task.queued" "task" "{}", .claim dispatcher 0 20 fun _ => false,
    .deliver 0 outcome]

/-- A database error without a code of its own. -/
def staleData : DeliveryError := .other "StaleDataError" (some .none)

/-- The delivery raised, and its report marks the row delivered. -/
theorem failedDelivery_delivered :
    ∃ row now, (OutboxSys.run (deliveredWith (.raised staleData))).rows.find "row" = some row ∧
      (OutboxSys.run (deliveredWith (.raised staleData) ++ [.report 0 1])).rows.find "row" =
        some now ∧
      ¬ RowSafe (OutboxSys.run (deliveredWith (.raised staleData))) (.report 0 1) "row" row now := by
  refine ⟨_, _, rfl, rfl, fun safe => ?_⟩
  rcases safe.delivered rfl with settled | ⟨_, _, flight, ⟨⟩, flying, returned, -⟩
  · exact nomatch settled
  · obtain rfl := Option.some.inj flying
    exact nomatch returned

/-- A connection error has no code, so its name is the failure. -/
theorem failedDelivery_retried :
    SingleOwner (OutboxSys.run
      (deliveredWith (.raised (.other "ConnectionError" none)) ++ [.report 0 1])) :=
  have truthful : Transition.Along OutboxSys.step (fun _ label => label.Truthful) {}
      (deliveredWith (.raised (.other "ConnectionError" none)) ++ [.report 0 1]) :=
    ⟨trivial, trivial, rfl, trivial, trivial⟩
  (outbox_single_owner truthful).2

end Scenario

end PhysHarness
