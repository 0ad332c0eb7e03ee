import PhysHarness.Workspaces.Turns

/-!
What the records say of the workspaces in use.

A pending operation occupies its workspace, a doubtful one withdraws it, and one live workspace at most
is bound to a worker slot. An allocation, a transaction that serves one operation, and whatever leaves
the workspaces alone keep all of it.
-/
namespace PhysHarness

open Outcome Broker

/-- A pending operation occupies its workspace and a doubtful one withdraws it; reservations and
slots belong to one workspace. -/
structure WorkspaceInv (db : Db) : Prop where
  owned : ∀ key op, db.operations.find key = some op →
    ∃ row, db.workspaces.find op.payload.workspaceId = some row
  pending : ∀ key op row, db.operations.find key = some op → op.payload.status = .pending →
    db.workspaces.find op.payload.workspaceId = some row →
      row.payload.activeOperation = some key ∧
        (row.payload.status = .provisioning ∨ row.payload.status = .ready)
  doubted : ∀ key op row, db.operations.find key = some op →
    op.payload.status = .reconciliationRequired →
    db.workspaces.find op.payload.workspaceId = some row →
      row.payload.status = .reconciliationRequired ∨ row.payload.status = .destroyed
  recorded : ∀ key op, db.operations.find key = some op → op.payload.status = .completed →
    op.payload.result.isSome = true
  held : ∀ id row, db.workspaces.find id = some row →
    ∃ reservation, db.reservations.find row.payload.reservationId = some reservation
  distinct : ∀ id other row second, db.workspaces.find id = some row →
    db.workspaces.find other = some second →
    row.payload.reservationId = second.payload.reservationId → id = other
  placed : ∀ id row, db.workspaces.find id = some row →
    ∃ experiment, db.experiments.find row.payload.experimentId = some experiment ∧
      experiment.projectId = row.projectId
  slots : ∀ id row slotId, db.workspaces.find id = some row →
    row.payload.sharedWorkerSlotId = some slotId →
      ∃ slot, db.reservations.find slotId = some slot ∧
        slot.experimentId = row.payload.experimentId
  single : ∀ id other row second slotId, db.workspaces.find id = some row →
    db.workspaces.find other = some second →
    row.payload.sharedWorkerSlotId = some slotId → second.payload.sharedWorkerSlotId = some slotId →
    row.payload.status ≠ .destroyed → second.payload.status ≠ .destroyed → id = other

theorem workspaceInv_empty : WorkspaceInv {} where
  owned _ _ found := nomatch found
  pending _ _ _ found := nomatch found
  doubted _ _ _ found := nomatch found
  recorded _ _ found := nomatch found
  held _ _ found := nomatch found
  distinct _ _ _ _ found := nomatch found
  placed _ _ found := nomatch found
  slots _ _ _ found := nomatch found
  single _ _ _ _ _ found := nomatch found

variable {db after : Db} {workspaceId : Id} {key : OperationKey} {settles : Id → Prop}

theorem WorkspaceInv.aside (inv : WorkspaceInv db) (aside : Aside db after) :
    WorkspaceInv after := by
  obtain ⟨workspaces, operations, experiments, reservations⟩ := aside
  refine ⟨?_, ?_, ?_, ?_, ?_, ?_, ?_, ?_, ?_⟩ <;> simp only [workspaces, operations]
  · exact inv.owned
  · exact inv.pending
  · exact inv.doubted
  · exact inv.recorded
  · intro id row stored
    obtain ⟨reservation, found⟩ := inv.held id row stored
    obtain ⟨still, here, -⟩ := reservations _ _ found
    exact ⟨still, here⟩
  · exact inv.distinct
  · intro id row stored
    obtain ⟨experiment, found, same⟩ := inv.placed id row stored
    obtain ⟨still, here, equal⟩ := experiments _ _ found
    exact ⟨still, here, equal.trans same⟩
  · intro id row slotId stored shared
    obtain ⟨slot, found, same⟩ := inv.slots id row slotId stored shared
    obtain ⟨still, here, equal⟩ := reservations _ _ found
    exact ⟨still, here, equal.trans same⟩
  · exact inv.single

/-- A new workspace is under provision, and the only live one of its slot. -/
theorem WorkspaceInv.allocate (inv : WorkspaceInv db) (allocation : Allocation db after workspaceId key) :
    WorkspaceInv after := by
  obtain ⟨workspaces, operations, reservations, experiments, unused, fresh, unheld, active, status,
    pending, owner, unsettled, project, slot⟩ := allocation
  rename_i row op reservation
  have unowned {other : OperationKey} {earlier : Row WorkspaceOperation}
      (found : db.operations.find other = some earlier) :
      earlier.payload.workspaceId ≠ workspaceId := by
    obtain ⟨row, stored⟩ := inv.owned other earlier found
    rintro same
    rw [same, unused] at stored
    exact nomatch stored
  have unshared {id : Id} {other : Row Workspace} (stored : db.workspaces.find id = some other) :
      other.payload.reservationId ≠ row.payload.reservationId := by
    obtain ⟨reservation, found⟩ := inv.held id other stored
    intro same
    rw [same, unheld] at found
    exact nomatch found
  have alone {id : Id} {other : Row Workspace} {slotId : Id}
      (stored : db.workspaces.find id = some other)
      (mine : row.payload.sharedWorkerSlotId = some slotId)
      (shared : other.payload.sharedWorkerSlotId = some slotId) :
      other.payload.status = .destroyed := by
    obtain ⟨⟨held, found, same⟩, free⟩ := slot slotId mine
    obtain ⟨held', found', same'⟩ := inv.slots id other slotId stored shared
    obtain rfl := Option.some.inj (found.symm.trans found')
    obtain ⟨experiment, read, ours⟩ := project
    obtain ⟨experiment', read', theirs⟩ := inv.placed id other stored
    rw [← same', same] at read'
    obtain rfl := Option.some.inj (read.symm.trans read')
    exact free id other stored (theirs.symm.trans ours) shared
  have kept : Table.Keeps Reservation.experimentId db.reservations after.reservations := by
    rw [reservations]
    exact .put_new unheld
  refine ⟨?_, ?_, ?_, ?_, ?_, ?_, ?_, ?_, ?_⟩ <;> simp only [workspaces, operations, experiments]
  · intro other earlier found
    rcases Table.find_put_cases found with ⟨rfl, rfl⟩ | ⟨-, found⟩
    · exact ⟨row, by rw [owner, Table.find_put_self]⟩
    · obtain ⟨stored, here⟩ := inv.owned other earlier found
      exact ⟨stored, (Table.find_put_ne _ _ (unowned found)).trans here⟩
  · intro other earlier held found open_ here
    rcases Table.find_put_cases found with ⟨rfl, rfl⟩ | ⟨-, found⟩
    · rw [owner, Table.find_put_self] at here
      obtain rfl := Option.some.inj here
      exact ⟨active, .inl status⟩
    · rw [Table.find_put_ne _ _ (unowned found)] at here
      exact inv.pending other earlier held found open_ here
  · intro other earlier held found doubtful here
    rcases Table.find_put_cases found with ⟨rfl, rfl⟩ | ⟨-, found⟩
    · exact nomatch pending.symm.trans doubtful
    · rw [Table.find_put_ne _ _ (unowned found)] at here
      exact inv.doubted other earlier held found doubtful here
  · intro other earlier found done
    rcases Table.find_put_cases found with ⟨rfl, rfl⟩ | ⟨-, found⟩
    · exact nomatch pending.symm.trans done
    · exact inv.recorded other earlier found done
  · intro id other stored
    rcases Table.find_put_cases stored with ⟨rfl, rfl⟩ | ⟨-, stored⟩
    · exact ⟨reservation, by rw [reservations, Table.find_put_self]⟩
    · obtain ⟨earlier, found⟩ := inv.held id other stored
      obtain ⟨still, here, -⟩ := kept _ _ found
      exact ⟨still, here⟩
  · intro id other first second stored stored' same
    rcases Table.find_put_cases stored with ⟨rfl, rfl⟩ | ⟨-, old⟩ <;>
      rcases Table.find_put_cases stored' with ⟨rfl, rfl⟩ | ⟨-, old'⟩
    · rfl
    · exact absurd same.symm (unshared old')
    · exact absurd same (unshared old)
    · exact inv.distinct id other first second old old' same
  · intro id other stored
    rcases Table.find_put_cases stored with ⟨rfl, rfl⟩ | ⟨-, stored⟩
    · exact project
    · exact inv.placed id other stored
  · intro id other slotId stored shared
    have earlier : ∃ slot, db.reservations.find slotId = some slot ∧
        slot.experimentId = other.payload.experimentId := by
      rcases Table.find_put_cases stored with ⟨rfl, rfl⟩ | ⟨-, stored⟩
      · exact (slot slotId shared).1
      · exact inv.slots id other slotId stored shared
    obtain ⟨held, found, same⟩ := earlier
    obtain ⟨still, here, equal⟩ := kept _ _ found
    exact ⟨still, here, equal.trans same⟩
  · intro id other first second slotId stored stored' shared shared' live live'
    rcases Table.find_put_cases stored with ⟨rfl, rfl⟩ | ⟨-, old⟩ <;>
      rcases Table.find_put_cases stored' with ⟨rfl, rfl⟩ | ⟨-, old'⟩
    · rfl
    · exact absurd (alone old' shared shared') live'
    · exact absurd (alone old shared' shared) live
    · exact inv.single id other first second slotId old old' shared shared' live live'

/-- A workspace in use by no other operation. -/
def Available (db : Db) (workspaceId : Id) (key : OperationKey) : Prop :=
  ∀ row, db.workspaces.find workspaceId = some row →
    (row.payload.status = .provisioning ∨ row.payload.status = .ready) ∧
      (row.payload.activeOperation = none ∨ row.payload.activeOperation = some key)

/-- A workspace that is closed from doubt. -/
def Retiring (db after : Db) (workspaceId : Id) : Prop :=
  (∀ row, db.workspaces.find workspaceId = some row →
    row.payload.status = .reconciliationRequired) ∧
  ∀ row, after.workspaces.find workspaceId = some row → row.payload.status = .destroyed

section Moves

variable {before data : Workspace} {prior : Option WorkspaceOperation} {op : WorkspaceOperation}

theorem Move.pending (move : Move key before data prior op) (pending : op.status = .pending) :
    data.activeOperation = some key ∧ data.status = .ready := by
  cases move with
  | begun _ _ status active => exact ⟨active, status⟩
  | retained _ _ _ kept => exact nomatch kept.symm.trans pending
  | readied _ _ completed => exact nomatch completed.symm.trans pending
  | released _ _ _ ended => rcases ended with ended | ended <;> exact nomatch ended.symm.trans pending
  | closed _ _ ended =>
    rcases ended with ended | ended | ended <;> exact nomatch ended.symm.trans pending
  | doubted _ _ doubted => exact nomatch doubted.symm.trans pending

theorem Move.doubtful (move : Move key before data prior op)
    (doubtful : op.status = .reconciliationRequired) : data.status = .reconciliationRequired := by
  cases move with
  | begun _ _ _ _ pending => exact nomatch pending.symm.trans doubtful
  | retained _ _ status => exact status
  | readied _ _ completed => exact nomatch completed.symm.trans doubtful
  | released _ _ _ ended => rcases ended with ended | ended <;> exact nomatch ended.symm.trans doubtful
  | closed _ _ ended =>
    rcases ended with ended | ended | ended <;> exact nomatch ended.symm.trans doubtful
  | doubted _ status => exact status

theorem Move.recorded (move : Move key before data prior op) (completed : op.status = .completed) :
    op.result.isSome = true := by
  cases move with
  | begun _ _ _ _ pending => exact nomatch pending.symm.trans completed
  | retained _ _ _ kept => exact nomatch kept.symm.trans completed
  | readied _ _ _ recorded | released _ _ _ _ recorded | closed _ _ _ recorded => exact recorded
  | doubted _ _ doubted => exact nomatch doubted.symm.trans completed

end Moves

/-- A transaction that serves one operation keeps the workspaces and the operations of the others. -/
theorem WorkspaceInv.turn (inv : WorkspaceInv db) (turn : Turn settles db after workspaceId key)
    (served : ∀ prior, db.operations.find key = some prior →
      prior.payload.workspaceId = workspaceId)
    (fits : Available db workspaceId key ∨ Retiring db after workspaceId) : WorkspaceInv after := by
  obtain ⟨stored, found, workspaces, operations, experiments, move, owner, bound, holds⟩ := turn
  rename_i row data prior op
  obtain ⟨sameReservation, sameExperiment, sameSlot⟩ := bound
  have mine : op.payload.workspaceId = workspaceId := by
    cases prior with
    | none => exact owner
    | some prior => exact owner.trans (served prior found)
  have calm {other : OperationKey} {earlier : Row WorkspaceOperation}
      (listed : db.operations.find other = some earlier)
      (doubtful : earlier.payload.status = .reconciliationRequired)
      (ours : earlier.payload.workspaceId = workspaceId) :
      data.status = .reconciliationRequired ∨ data.status = .destroyed := by
    rcases fits with available | ⟨-, closed⟩
    · have doubted := inv.doubted other earlier row listed doubtful (by rw [ours]; exact stored)
      rcases (available row stored).1 with live | live <;> rw [live] at doubted <;>
        exact doubted.elim nofun nofun
    · refine .inr (closed (row.replace data) ?_)
      rw [workspaces, Table.find_put_self]
  have alone {other : OperationKey} {earlier : Row WorkspaceOperation}
      (listed : db.operations.find other = some earlier) (open_ : earlier.payload.status = .pending)
      (ours : earlier.payload.workspaceId = workspaceId) : other = key := by
    obtain ⟨active, status⟩ := inv.pending other earlier row listed open_ (by rw [ours]; exact stored)
    rcases fits with available | ⟨doubtful, -⟩
    · rcases (available row stored).2 with free | taken
      · exact nomatch active.symm.trans free
      · exact Option.some.inj (active.symm.trans taken)
    · rw [doubtful row stored] at status
      exact status.elim nofun nofun
  have alive : row.payload.status ≠ .destroyed := by
    rcases fits with available | ⟨doubtful, -⟩
    · rcases (available row stored).1 with live | live <;> rw [live] <;> decide
    · rw [doubtful row stored]
      decide
  refine ⟨?_, ?_, ?_, ?_, ?_, ?_, ?_, ?_, ?_⟩ <;> simp only [workspaces, operations, experiments]
  · intro other earlier listed
    have owned : ∃ held, db.workspaces.find earlier.payload.workspaceId = some held := by
      rcases Table.find_put_cases listed with ⟨rfl, rfl⟩ | ⟨-, old⟩
      · exact ⟨row, by rw [mine, stored]⟩
      · exact inv.owned other earlier old
    obtain ⟨held, here⟩ := owned
    rw [Table.find_put]
    split
    · exact ⟨_, rfl⟩
    · exact ⟨held, here⟩
  · intro other earlier held listed open_ here
    rcases Table.find_put_cases listed with ⟨rfl, rfl⟩ | ⟨apart, old⟩
    · rw [mine, Table.find_put_self] at here
      obtain rfl := Option.some.inj here
      obtain ⟨active, status⟩ := move.pending open_
      exact ⟨active, .inr status⟩
    · rcases Table.find_put_cases here with ⟨ours, -⟩ | ⟨-, before⟩
      · exact absurd (alone old open_ ours) apart
      · exact inv.pending other earlier held old open_ before
  · intro other earlier held listed doubtful here
    rcases Table.find_put_cases listed with ⟨rfl, rfl⟩ | ⟨apart, old⟩
    · rw [mine, Table.find_put_self] at here
      obtain rfl := Option.some.inj here
      exact .inl (move.doubtful doubtful)
    · rcases Table.find_put_cases here with ⟨ours, rfl⟩ | ⟨-, before⟩
      · exact calm old doubtful ours
      · exact inv.doubted other earlier held old doubtful before
  · intro other earlier listed completed
    rcases Table.find_put_cases listed with ⟨rfl, rfl⟩ | ⟨-, old⟩
    · exact move.recorded completed
    · exact inv.recorded other earlier old completed
  · intro id held listed
    have reserved : ∃ reservation,
        db.reservations.find held.payload.reservationId = some reservation := by
      rcases Table.find_put_cases listed with ⟨rfl, rfl⟩ | ⟨-, old⟩
      · rw [Row.replace_payload, sameReservation]
        exact inv.held id row stored
      · exact inv.held id held old
    obtain ⟨reservation, before⟩ := reserved
    obtain ⟨still, here, -⟩ := holds.kept _ _ before
    exact ⟨still, here⟩
  · intro id other first second listed listed' same
    rcases Table.find_put_cases listed with ⟨rfl, rfl⟩ | ⟨-, old⟩ <;>
      rcases Table.find_put_cases listed' with ⟨rfl, rfl⟩ | ⟨-, old'⟩
    · rfl
    · exact inv.distinct _ _ row second stored old' (sameReservation.symm.trans same)
    · exact inv.distinct _ _ first row old stored (same.trans sameReservation)
    · exact inv.distinct id other first second old old' same
  · intro id held listed
    rcases Table.find_put_cases listed with ⟨rfl, rfl⟩ | ⟨-, old⟩
    · rw [Row.replace_payload, sameExperiment]
      exact inv.placed id row stored
    · exact inv.placed id held old
  · intro id held slotId listed shared
    have backed : ∃ slot, db.reservations.find slotId = some slot ∧
        slot.experimentId = held.payload.experimentId := by
      rcases Table.find_put_cases listed with ⟨rfl, rfl⟩ | ⟨-, old⟩
      · rw [Row.replace_payload, sameExperiment]
        exact inv.slots id row slotId stored (sameSlot.symm.trans shared)
      · exact inv.slots id held slotId old shared
    obtain ⟨slot, before, same⟩ := backed
    obtain ⟨still, here, equal⟩ := holds.kept _ _ before
    exact ⟨still, here, equal.trans same⟩
  · intro id other first second slotId listed listed' shared shared' live live'
    rcases Table.find_put_cases listed with ⟨rfl, rfl⟩ | ⟨-, old⟩ <;>
      rcases Table.find_put_cases listed' with ⟨rfl, rfl⟩ | ⟨-, old'⟩
    · rfl
    · exact inv.single _ _ row second slotId stored old' (sameSlot.symm.trans shared) shared' alive
        live'
    · exact inv.single _ _ first row slotId old stored shared (sameSlot.symm.trans shared') live
        alive
    · exact inv.single id other first second slotId old old' shared shared' live live'

end PhysHarness
