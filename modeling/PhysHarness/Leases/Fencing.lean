import PhysHarness.System

/-!
Lease fencing under interleaved transactions.

The transition system takes every command as one step. Here the commands on one task's lease are
taken apart: a transaction checks its worker binding, runs its action and commits at three instants,
and other transactions run in between. The binding check and `_fenced` lock the lease row until the
transaction ends, acquisitions exclude each other, and a rewrite of the task record is refused when
the record changed since it was read.
-/
namespace PhysHarness

open Outcome

/-- The authority of a task holder. -/
structure Binding where
  holder : String
  fence : Nat
  deriving DecidableEq

/-- The binding holds the live lease. -/
def admits (lease : Option Lease) (binding : Binding) (now : Time) : Bool :=
  lease.any fun held =>
    held.holder = binding.holder && held.fence = binding.fence && now < held.expiresAt

/-- The binding held the lease, which is expired. -/
def lapsed (lease : Option Lease) (binding : Binding) (now : Time) : Bool :=
  lease.any fun held =>
    held.holder = binding.holder && held.fence = binding.fence && held.expiresAt ≤ now

/-- What a command needs of the lease row that its action reads. -/
inductive Authority where
  | nothing
  | free
  | live (binding : Binding)
  | expired (binding : Binding)
  deriving DecidableEq

/-- The commands by what they do to the lease; every command that reads no lease is `other`. -/
inductive LeaseCommand where
  | acquireTask (holder : String) (ttlSeconds : Nat)
  | renewTask (binding : Binding) (ttlSeconds : Nat)
  | renewTaskForCleanup (binding : Binding) (ttlSeconds : Nat)
  | finishTask (binding : Binding)
  | requeueSettledTerminal (binding : Binding)
  | issueContinuation (binding : Binding) (recoverExpired : Bool)
  | consumeContinuation (binding : Binding)
  | restoreUnstartedContinuation (binding : Binding)
  | other (replacesTask : Bool)
  deriving DecidableEq

/-- The write of an action to the lease row. -/
inductive LeaseWrite where
  | keep
  | expire (instant : Time)
  | install (lease : Lease)
  deriving DecidableEq

def LeaseWrite.apply : LeaseWrite → Option Lease → Option Lease
  | keep, lease => lease
  | expire expiresAt, lease => lease.map fun held => { held with expiresAt }
  | install lease, _ => some lease

namespace LeaseCommand

def authority : LeaseCommand → Authority
  | acquireTask .. => .free
  | renewTask binding _ | renewTaskForCleanup binding _ | finishTask binding
  | requeueSettledTerminal binding | issueContinuation binding false
  | consumeContinuation binding => .live binding
  | issueContinuation binding true | restoreUnstartedContinuation binding => .expired binding
  | other _ => .nothing

/-- The command rewrites the task record. -/
def replacesTask : LeaseCommand → Bool
  | renewTask .. | renewTaskForCleanup .. => false
  | other replaces => replaces
  | _ => true

def write (command : LeaseCommand) (lease : Option Lease) (now : Time) : LeaseWrite :=
  match command with
  | acquireTask holder ttl =>
    .install { holder, fence := nextFence lease, expiresAt := now + ttl * Time.second }
  | renewTask _ ttl => .expire (now + ttl * Time.second)
  | renewTaskForCleanup _ ttl =>
    .expire (max ((lease.map (·.expiresAt)).getD 0) (now + ttl * Time.second))
  | finishTask _ | requeueSettledTerminal _ | issueContinuation ..
  | restoreUnstartedContinuation _ => .expire 0
  | consumeContinuation _ | other _ => .keep

/-- The fence that an executed acquisition returns. -/
def acquired (command : LeaseCommand) (lease : Option Lease) : Option Nat :=
  match command with
  | acquireTask .. => lease.map (·.fence)
  | _ => none

end LeaseCommand

/-- How far a transaction is. -/
inductive TxnStage where
  | begun
  | admitted
  | acted (revision : Nat) (write : LeaseWrite)
  | closed
  deriving DecidableEq

/-- A transaction, with the worker binding it runs under. -/
structure Txn where
  key : String
  command : LeaseCommand
  binding : Option Binding
  stage : TxnStage := .begun
  deriving DecidableEq

/-- The fences a transaction is bound to. -/
def Txn.fences (txn : Txn) : List Nat :=
  (txn.binding.map (·.fence)).toList ++
    match txn.command.authority with
    | .live binding | .expired binding => [binding.fence]
    | .nothing | .free => []

/-- What a finished transaction returned to its caller. -/
inductive LeaseEvent where
  | executed (fences : List Nat) (acquired : Option Nat)
  | replayed (acquired : Option Nat)
  deriving DecidableEq

namespace LeaseEvent

/-- The fences that a committed command was bound to. -/
def fences : LeaseEvent → List Nat
  | executed fences _ => fences
  | replayed _ => []

/-- The fence of an executed acquisition. -/
def issued : LeaseEvent → Option Nat
  | executed _ acquired => acquired
  | replayed _ => none

/-- The fence that an acquisition returned. -/
def returned : LeaseEvent → Option Nat
  | executed _ acquired => acquired
  | replayed acquired => acquired

end LeaseEvent

/-- The shared rows of one task, the locks, and the transactions in flight. -/
structure LeaseSys where
  lease : Option Lease := none
  revision : Nat := 0
  log : Table String (LeaseCommand × Option Nat) := ∅
  rowLock : Option Nat := none
  acquireLock : Option Nat := none
  txns : Table Nat Txn := ∅
  now : Time := 0
  history : List LeaseEvent := []

inductive LeaseLabel where
  | tick (time : Time)
  | begin (id : Nat) (key : String) (command : LeaseCommand) (binding : Option Binding)
  | check (id : Nat)
  | act (id : Nat)
  | commit (id : Nat)
  | abort (id : Nat)

namespace LeaseSys

variable (sys : LeaseSys) (id : Nat) (txn : Txn)

/-- The lease row is not locked by another transaction. -/
def rowFree : Bool := sys.rowLock = none || sys.rowLock = some id

def setStage (stage : TxnStage) : LeaseSys :=
  { sys with txns := sys.txns.put id { txn with stage } }

/-- End a transaction and release its locks. -/
def close (events : List LeaseEvent := []) : LeaseSys :=
  { sys.setStage id txn .closed with
    rowLock := if sys.rowLock = some id then none else sys.rowLock
    acquireLock := if sys.acquireLock = some id then none else sys.acquireLock
    history := sys.history ++ events }

/-- After the first check: return what the key recorded, or go on to the action. -/
def enter : LeaseSys :=
  match sys.log.find txn.key with
  | some prior =>
    if prior.1 = txn.command then sys.close id txn [.replayed prior.2] else sys.close id txn
  | none => sys.setStage id txn .admitted

/-- The first binding check; it waits for the row lock and takes it. -/
def firstCheck : LeaseSys :=
  match txn.binding with
  | none => sys.enter id txn
  | some binding =>
    if sys.rowFree id then
      if admits sys.lease binding sys.now then { sys with rowLock := some id }.enter id txn
      else sys.close id txn
    else sys

def ran : LeaseSys :=
  sys.setStage id txn (.acted sys.revision (txn.command.write sys.lease sys.now))

/-- The action. Only `_fenced` locks the lease row; an acquisition excludes other acquisitions. -/
def act : LeaseSys :=
  match txn.command.authority with
  | .nothing => sys.ran id txn
  | .free =>
    if sys.acquireLock = none ∨ sys.acquireLock = some id then
      if sys.lease.any fun held => sys.now < held.expiresAt then sys.close id txn
      else { sys with acquireLock := some id }.ran id txn
    else sys
  | .live binding =>
    if sys.rowFree id then
      if admits sys.lease binding sys.now then { sys with rowLock := some id }.ran id txn
      else sys.close id txn
    else sys
  | .expired binding =>
    if lapsed sys.lease binding sys.now then sys.ran id txn else sys.close id txn

/-- The second binding check, over the transaction's own write. -/
def recheck (write : LeaseWrite) : Bool :=
  txn.binding.all fun binding => admits (write.apply sys.lease) binding sys.now

/-- Commit: the write waits for the row lock, and a task record that changed refuses it. -/
def commit (revision : Nat) (write : LeaseWrite) : LeaseSys :=
  if write ≠ .keep ∧ sys.rowFree id = false then sys
  else if sys.recheck txn write = false then sys.close id txn
  else if txn.command.replacesTask ∧ sys.revision ≠ revision then sys.close id txn
  else
    let lease := write.apply sys.lease
    let acquired := txn.command.acquired lease
    { sys with
      lease
      revision := sys.revision + if txn.command.replacesTask then 1 else 0
      log := sys.log.put txn.key (txn.command, acquired) }.close id txn
        [.executed txn.fences acquired]

/-- A transaction of the key is still in flight, so its command lock is held. -/
def keyLocked (key : String) : Bool :=
  sys.txns.anyRow fun _ txn => txn.key = key && txn.stage ≠ .closed

def step (sys : LeaseSys) : LeaseLabel → LeaseSys
  | .tick time => { sys with now := max sys.now time }
  | .begin id key command binding =>
    if sys.txns.find id = none ∧ sys.keyLocked key = false then
      { sys with txns := sys.txns.put id { key, command, binding } }
    else sys
  | .check id =>
    match sys.txns.find id with
    | some txn => if txn.stage = .begun then sys.firstCheck id txn else sys
    | none => sys
  | .act id =>
    match sys.txns.find id with
    | some txn => if txn.stage = .admitted then sys.act id txn else sys
    | none => sys
  | .commit id =>
    match sys.txns.find id with
    | some txn =>
      match txn.stage with
      | .acted revision write => sys.commit id txn revision write
      | _ => sys
    | none => sys
  | .abort id =>
    match sys.txns.find id with
    | some txn => sys.close id txn
    | none => sys

def run (labels : List LeaseLabel) : LeaseSys := Transition.run step {} labels

/-- The fence of the current lease. -/
def fence : Option Nat := sys.lease.map (·.fence)

end LeaseSys

/-! ### Transactions in flight -/

/-- The first check passed and the transaction is not over. -/
def TxnStage.inside : TxnStage → Prop
  | .admitted | .acted .. => True
  | .begun | .closed => False

/-- What the action of a transaction found and wrote, seen from a later state. -/
def ActedSound (sys : LeaseSys) (id : Nat) (command : LeaseCommand) (revision : Nat)
    (write : LeaseWrite) : Prop :=
  match command.authority with
  | .nothing => write = .keep
  | .free => sys.revision = revision → ∃ lease, write = .install lease ∧
      lease.fence = nextFence sys.lease
  | .live binding => sys.rowLock = some id ∧ sys.fence = some binding.fence ∧
      ∀ lease, write ≠ .install lease
  | .expired binding => (sys.revision = revision → sys.fence = some binding.fence) ∧
      ∀ lease, write ≠ .install lease

/-- A bound transaction inside its action holds the lease row under its own fence. -/
structure TxnSound (sys : LeaseSys) (id : Nat) (txn : Txn) : Prop where
  bound : txn.stage.inside → ∀ binding ∈ txn.binding,
    sys.rowLock = some id ∧ sys.fence = some binding.fence
  acted : ∀ revision write, txn.stage = .acted revision write →
    revision ≤ sys.revision ∧ ActedSound sys id txn.command revision write

/-- The invariant of all interleavings: no event carries a fence past the current one. -/
structure FencingInv (sys : LeaseSys) : Prop where
  txns : ∀ id txn, sys.txns.find id = some txn → TxnSound sys id txn
  bounded : ∀ event ∈ sys.history, (∀ fence ∈ event.fences, fence ≤ sys.fence.getD 0) ∧
    ∀ fence ∈ event.issued, fence ≤ sys.fence.getD 0
  ordered : sys.history.Pairwise fun earlier later =>
    ∀ first ∈ earlier.fences, ∀ second ∈ later.fences, first ≤ second
  increasing : (sys.history.filterMap LeaseEvent.issued).Pairwise (· < ·)

theorem fence_of_admits {sys : LeaseSys} {binding : Binding} {now : Time}
    (live : admits sys.lease binding now = true) : sys.fence = some binding.fence := by
  unfold LeaseSys.fence
  cases held : sys.lease with
  | none => simp [admits, held] at live
  | some lease =>
    simp only [admits, held, Option.any_some, Bool.and_eq_true, decide_eq_true_eq] at live
    simp [live.1.2]

theorem fence_of_lapsed {sys : LeaseSys} {binding : Binding} {now : Time}
    (expired : lapsed sys.lease binding now = true) : sys.fence = some binding.fence := by
  unfold LeaseSys.fence
  cases held : sys.lease with
  | none => simp [lapsed, held] at expired
  | some lease =>
    simp only [lapsed, held, Option.any_some, Bool.and_eq_true, decide_eq_true_eq] at expired
    simp [expired.1.2]

theorem nextFence_eq (sys : LeaseSys) : nextFence sys.lease = sys.fence.getD 0 + 1 := by
  unfold LeaseSys.fence
  cases sys.lease <;> rfl

/-- A write that is no acquisition keeps the fence. -/
theorem LeaseWrite.apply_fence {write : LeaseWrite} {lease : Option Lease}
    (plain : ∀ installed, write ≠ .install installed) :
    (write.apply lease).map (·.fence) = lease.map (·.fence) := by
  cases write with
  | keep => rfl
  | expire => cases lease <;> rfl
  | install installed => exact absurd rfl (plain installed)

section Transfer

variable {before after : LeaseSys} {id : Nat} {txn : Txn}

/-- What a step of another transaction leaves a transaction to rely on. -/
structure Undisturbed (before after : LeaseSys) (id : Nat) : Prop where
  row : before.rowLock = some id → after.rowLock = some id ∧ after.fence = before.fence
  revision : before.revision ≤ after.revision
  fence : after.revision = before.revision → after.fence = before.fence

/-- A transaction stays sound while others step. -/
theorem TxnSound.transfer (sound : TxnSound before id txn) (still : Undisturbed before after id) :
    TxnSound after id txn where
  bound inside binding member := by
    obtain ⟨locked, fence⟩ := sound.bound inside binding member
    obtain ⟨row, same⟩ := still.row locked
    exact ⟨row, same.trans fence⟩
  acted revision write stage := by
    obtain ⟨read, acted⟩ := sound.acted revision write stage
    refine ⟨read.trans still.revision, ?_⟩
    -- an unchanged revision means that nothing replaced the task since the action read it
    have unchanged : after.revision = revision → before.revision = revision ∧
        after.fence = before.fence := by
      intro same
      have revisions := still.revision
      have back : before.revision = revision := by omega
      exact ⟨back, still.fence (same.trans back.symm)⟩
    unfold ActedSound at acted ⊢
    split at acted
    · exact acted
    · intro same
      obtain ⟨back, fence⟩ := unchanged same
      rw [nextFence_eq, fence, ← nextFence_eq]
      exact acted back
    · obtain ⟨locked, held, plain⟩ := acted
      obtain ⟨row, fence⟩ := still.row locked
      exact ⟨row, fence.trans held, plain⟩
    · refine ⟨fun same => ?_, acted.2⟩
      obtain ⟨back, fence⟩ := unchanged same
      exact fence.trans (acted.1 back)

end Transfer

/-! ### Steps -/

section Steps

variable {sys after : LeaseSys} {id : Nat} {txn : Txn}

/-- A step that moves one transaction and appends no event. -/
theorem FencingInv.advance (inv : FencingInv sys) (txns : after.txns = sys.txns.put id txn)
    (still : ∀ other ≠ id, Undisturbed sys after other) (sound : TxnSound after id txn)
    (fence : after.fence = sys.fence) (history : after.history = sys.history) :
    FencingInv after where
  txns other found stored := by
    rw [txns, Table.find_put] at stored
    split at stored
    next same =>
      obtain rfl := Option.some.inj stored
      exact same ▸ sound
    next distinct => exact (inv.txns other found stored).transfer (still other distinct)
  bounded := by
    rw [history, fence]
    exact inv.bounded
  ordered := history ▸ inv.ordered
  increasing := history ▸ inv.increasing

/-- A commit appends one event, whose fences are the current one. -/
theorem FencingInv.record {event : LeaseEvent} (inv : FencingInv sys)
    (txns : after.txns = sys.txns.put id txn)
    (still : ∀ other ≠ id, Undisturbed sys after other) (sound : TxnSound after id txn)
    (grows : sys.fence.getD 0 ≤ after.fence.getD 0)
    (history : after.history = sys.history ++ [event])
    (bound : ∀ fence ∈ event.fences, fence = sys.fence.getD 0)
    (issued : ∀ fence ∈ event.issued, sys.fence.getD 0 < fence ∧ fence ≤ after.fence.getD 0) :
    FencingInv after where
  txns other found stored := by
    rw [txns, Table.find_put] at stored
    split at stored
    next same =>
      obtain rfl := Option.some.inj stored
      exact same ▸ sound
    next distinct => exact (inv.txns other found stored).transfer (still other distinct)
  bounded := by
    intro entry member
    rw [history] at member
    rcases List.mem_append.mp member with old | new
    · have before := inv.bounded entry old
      exact ⟨fun fence named => (before.1 fence named).trans grows,
        fun fence named => (before.2 fence named).trans grows⟩
    · obtain rfl := List.mem_singleton.mp new
      exact ⟨fun fence named => (bound fence named).trans_le grows,
        fun fence named => (issued fence named).2⟩
  ordered := by
    rw [history, List.pairwise_append]
    refine ⟨inv.ordered, List.pairwise_singleton .., ?_⟩
    intro earlier old later new first left second right
    obtain rfl := List.mem_singleton.mp new
    rw [bound second right]
    exact (inv.bounded earlier old).1 first left
  increasing := by
    rw [history, List.filterMap_append, List.pairwise_append]
    refine ⟨inv.increasing, ?_, ?_⟩
    · cases fresh : event.issued <;> simp [fresh]
    · intro first left second right
      obtain ⟨earlier, old, named⟩ := List.mem_filterMap.mp left
      obtain ⟨_, new, fresh⟩ := List.mem_filterMap.mp right
      obtain rfl := List.mem_singleton.mp new
      exact ((inv.bounded earlier old).2 first named).trans_lt (issued second fresh).1

theorem closed_sound : TxnSound after id { txn with stage := .closed } where
  bound inside := inside.elim
  acted _ _ stage := nomatch stage

theorem close_undisturbed {events : List LeaseEvent} {other : Nat} (distinct : other ≠ id) :
    Undisturbed sys (sys.close id txn events) other where
  row locked := by
    refine ⟨?_, rfl⟩
    simpa [LeaseSys.close, locked] using distinct
  revision := le_rfl
  fence _ := rfl

/-- Ending a transaction without a commit. -/
theorem FencingInv.close (inv : FencingInv sys) : FencingInv (sys.close id txn) :=
  inv.advance rfl (fun _ => close_undisturbed) closed_sound rfl (List.append_nil _)

/-- Returning a recorded result. -/
theorem FencingInv.replay (inv : FencingInv sys) (acquired : Option Nat) :
    FencingInv (sys.close id txn [.replayed acquired]) :=
  inv.record rfl (fun _ => close_undisturbed) closed_sound le_rfl rfl nofun nofun

theorem lock_undisturbed {other : Nat} (free : sys.rowFree id = true) (distinct : other ≠ id) :
    Undisturbed sys { sys with rowLock := some id } other where
  row locked := by
    simp only [LeaseSys.rowFree, locked, Bool.or_eq_true, decide_eq_true_eq, reduceCtorEq,
      false_or, Option.some.injEq] at free
    exact absurd free distinct
  revision := le_rfl
  fence _ := rfl

theorem setStage_undisturbed {stage : TxnStage} (other : Nat) :
    Undisturbed sys (sys.setStage id txn stage) other :=
  ⟨fun locked => ⟨locked, rfl⟩, le_rfl, fun _ => rfl⟩

/-- Taking a free row lock disturbs nobody. -/
theorem FencingInv.lock (inv : FencingInv sys) (free : sys.rowFree id = true) :
    FencingInv { sys with rowLock := some id } where
  txns other found stored := by
    apply (inv.txns other found stored).transfer
    by_cases same : other = id
    · exact ⟨fun _ => ⟨congrArg some same.symm, rfl⟩, le_rfl, fun _ => rfl⟩
    · exact lock_undisturbed free same
  bounded := inv.bounded
  ordered := inv.ordered
  increasing := inv.increasing

/-- A transaction moves to its next stage. -/
theorem FencingInv.setStage {stage : TxnStage} (inv : FencingInv sys)
    (sound : TxnSound (sys.setStage id txn stage) id { txn with stage }) :
    FencingInv (sys.setStage id txn stage) :=
  inv.advance rfl (fun other _ => setStage_undisturbed other) sound rfl rfl

theorem FencingInv.enter (inv : FencingInv sys)
    (bound : ∀ binding ∈ txn.binding, sys.rowLock = some id ∧ sys.fence = some binding.fence) :
    FencingInv (sys.enter id txn) := by
  unfold LeaseSys.enter
  split
  · split
    · exact inv.replay _
    · exact inv.close
  · exact inv.setStage ⟨fun _ => bound, nofun⟩

theorem FencingInv.firstCheck (inv : FencingInv sys) : FencingInv (sys.firstCheck id txn) := by
  unfold LeaseSys.firstCheck
  split
  next unbound => exact inv.enter (by simp [unbound])
  next binding bound =>
    split
    next free =>
      split
      next live =>
        refine (inv.lock free).enter ?_
        intro found member
        obtain rfl := Option.some.inj (bound.symm.trans member)
        exact ⟨rfl, fence_of_admits live⟩
      · exact inv.close
    · exact inv

/-- The action of an admitted transaction ran. -/
theorem FencingInv.ran (inv : FencingInv sys) (stored : sys.txns.find id = some txn)
    (stage : txn.stage = .admitted)
    (acted : ActedSound sys id txn.command sys.revision (txn.command.write sys.lease sys.now)) :
    FencingInv (sys.ran id txn) := by
  have admitted := inv.txns id txn stored
  refine inv.setStage ⟨fun _ => admitted.bound (by rw [stage]; trivial), ?_⟩
  intro revision write same
  obtain ⟨rfl, rfl⟩ := TxnStage.acted.inj same
  exact ⟨le_rfl, acted⟩

/-- Only an acquisition installs a lease. -/
theorem LeaseCommand.write_plain {command : LeaseCommand} {lease : Option Lease} {now : Time}
    (fenced : command.authority ≠ .free) :
    ∀ installed, command.write lease now ≠ .install installed := by
  intro installed
  cases command with
  | acquireTask => exact absurd rfl fenced
  | _ => simp [LeaseCommand.write]

theorem LeaseCommand.eq_other {command : LeaseCommand} (authority : command.authority = .nothing) :
    ∃ replaces, command = .other replaces := by
  cases command with
  | other replaces => exact ⟨replaces, rfl⟩
  | issueContinuation _ recoverExpired => cases recoverExpired <;> exact nomatch authority
  | _ => exact nomatch authority

theorem LeaseCommand.eq_acquire {command : LeaseCommand} (authority : command.authority = .free) :
    ∃ holder ttl, command = .acquireTask holder ttl := by
  cases command with
  | acquireTask holder ttl => exact ⟨holder, ttl, rfl⟩
  | issueContinuation _ recoverExpired => cases recoverExpired <;> exact nomatch authority
  | _ => exact nomatch authority

/-- The row that an action reads is the committed one, so it sees the current fence. -/
theorem FencingInv.act (inv : FencingInv sys) (stored : sys.txns.find id = some txn)
    (stage : txn.stage = .admitted) : FencingInv (sys.act id txn) := by
  unfold LeaseSys.act
  split
  next authority =>
    apply inv.ran stored stage
    obtain ⟨replaces, same⟩ := LeaseCommand.eq_other authority
    rw [same]
    rfl
  next authority =>
    split
    · split
      · exact inv.close
      · have locked : FencingInv { sys with acquireLock := some id } :=
          ⟨fun other found known => (inv.txns other found known).transfer
            ⟨fun row => ⟨row, rfl⟩, le_rfl, fun _ => rfl⟩, inv.bounded, inv.ordered, inv.increasing⟩
        apply locked.ran stored stage
        obtain ⟨holder, ttl, same⟩ := LeaseCommand.eq_acquire authority
        rw [same]
        exact fun _ => ⟨_, rfl, rfl⟩
    · exact inv
  next binding authority =>
    split
    next free =>
      split
      next live =>
        apply (inv.lock free).ran stored stage
        unfold ActedSound
        rw [authority]
        exact ⟨rfl, fence_of_admits live, LeaseCommand.write_plain (by simp [authority])⟩
      · exact inv.close
    · exact inv
  next binding authority =>
    split
    next expired =>
      apply inv.ran stored stage
      unfold ActedSound
      rw [authority]
      exact ⟨fun _ => fence_of_lapsed expired, LeaseCommand.write_plain (by simp [authority])⟩
    · exact inv.close

/-- What a committing write does to the fence: an acquisition raises it by one, and every other
write keeps it. -/
theorem TxnSound.commit_fence {revision : Nat} {write : LeaseWrite} (sound : TxnSound sys id txn)
    (stage : txn.stage = .acted revision write)
    (current : txn.command.replacesTask = true → sys.revision = revision) :
    (txn.command.authority = .free ∧ ∃ lease, write = .install lease ∧
        lease.fence = sys.fence.getD 0 + 1) ∨
      (txn.command.acquired (write.apply sys.lease) = none ∧
        (write.apply sys.lease).map (·.fence) = sys.fence) := by
  have acted := (sound.acted revision write stage).2
  unfold ActedSound at acted
  split at acted
  next authority =>
    obtain ⟨replaces, same⟩ := LeaseCommand.eq_other authority
    rw [acted, same]
    exact .inr ⟨rfl, rfl⟩
  next authority =>
    obtain ⟨holder, ttl, same⟩ := LeaseCommand.eq_acquire authority
    obtain ⟨lease, installs, fence⟩ := acted (current (by rw [same]; rfl))
    rw [nextFence_eq] at fence
    exact .inl ⟨authority, lease, installs, fence⟩
  next binding authority =>
    refine .inr ⟨?_, LeaseWrite.apply_fence acted.2.2⟩
    cases command : txn.command <;> simp_all [LeaseCommand.acquired, LeaseCommand.authority]
  next binding authority =>
    refine .inr ⟨?_, LeaseWrite.apply_fence acted.2⟩
    cases command : txn.command <;> simp_all [LeaseCommand.acquired, LeaseCommand.authority]

/-- Every fence of a committing transaction is the current one. -/
theorem TxnSound.commit_bound {revision : Nat} {write : LeaseWrite} (sound : TxnSound sys id txn)
    (stage : txn.stage = .acted revision write)
    (current : txn.command.replacesTask = true → sys.revision = revision) :
    ∀ fence ∈ txn.fences, fence = sys.fence.getD 0 := by
  intro fence member
  rcases List.mem_append.mp member with worker | own
  · -- the binding's fence: the row has been locked since the first check
    obtain ⟨binding, attached, rfl⟩ := Option.map_eq_some_iff.mp (Option.mem_toList.mp worker)
    rw [(sound.bound (by rw [stage]; trivial) binding attached).2]
    rfl
  · -- the command's own fence
    have acted := (sound.acted revision write stage).2
    unfold ActedSound at acted
    split at own
    next binding authority =>
      obtain rfl := List.mem_singleton.mp own
      rw [authority] at acted
      rw [acted.2.1]
      rfl
    next binding authority =>
      obtain rfl := List.mem_singleton.mp own
      rw [authority] at acted
      have replaces : txn.command.replacesTask = true := by
        cases command : txn.command <;> simp_all [LeaseCommand.replacesTask, LeaseCommand.authority]
      rw [acted.1 (current replaces)]
      rfl
    · exact absurd own List.not_mem_nil
    · exact absurd own List.not_mem_nil

theorem FencingInv.commit {revision : Nat} {write : LeaseWrite} (inv : FencingInv sys)
    (stored : sys.txns.find id = some txn) (stage : txn.stage = .acted revision write) :
    FencingInv (sys.commit id txn revision write) := by
  unfold LeaseSys.commit
  split
  · exact inv
  next unblocked =>
    split
    · exact inv.close
    · split
      · exact inv.close
      next fresh =>
        have sound := inv.txns id txn stored
        have current : txn.command.replacesTask = true → sys.revision = revision := by
          intro replaces
          by_contra changed
          exact fresh ⟨replaces, changed⟩
        have moved := sound.commit_fence stage current
        have grows : sys.fence.getD 0 ≤ ((write.apply sys.lease).map (·.fence)).getD 0 := by
          rcases moved with ⟨-, lease, rfl, fence⟩ | ⟨-, same⟩
          · simp only [LeaseWrite.apply, Option.map_some, Option.getD_some, fence]
            exact Nat.le_succ _
          · rw [same]
        refine inv.record rfl ?_ closed_sound grows rfl (sound.commit_bound stage current) ?_
        · -- the others: none of them holds the row lock unless the row is kept
          intro other distinct
          refine ⟨fun locked => ?_, Nat.le_add_right .., fun unchanged => ?_⟩
          · have kept : write = .keep := by
              by_contra writes
              have free : sys.rowFree id = true := by
                by_contra held
                exact unblocked ⟨writes, by simpa using held⟩
              simp only [LeaseSys.rowFree, locked, reduceCtorEq, decide_false, Bool.false_or,
                decide_eq_true_eq, Option.some.injEq] at free
              exact distinct free
            subst kept
            refine ⟨?_, rfl⟩
            simpa [LeaseSys.close, LeaseSys.setStage, locked] using distinct
          · rcases moved with ⟨authority, -⟩ | ⟨-, same⟩
            · obtain ⟨holder, ttl, acquires⟩ := LeaseCommand.eq_acquire authority
              simp [LeaseSys.close, LeaseSys.setStage, acquires,
                LeaseCommand.replacesTask] at unchanged
            · exact same
        · intro fence acquired
          rcases moved with ⟨authority, lease, rfl, raised⟩ | ⟨none, -⟩
          · obtain ⟨holder, ttl, acquires⟩ := LeaseCommand.eq_acquire authority
            simp only [LeaseEvent.issued, acquires, LeaseCommand.acquired, LeaseWrite.apply,
              Option.map_some, Option.mem_def, Option.some.injEq] at acquired
            subst acquired
            exact ⟨by omega, le_rfl⟩
          · simp only [LeaseEvent.issued, none, Option.mem_def, reduceCtorEq] at acquired

/-- Every step of every transaction keeps the invariant. -/
theorem FencingInv.step (sys : LeaseSys) (label : LeaseLabel) (inv : FencingInv sys) :
    FencingInv (sys.step label) := by
  cases label with
  | tick time =>
    exact ⟨fun other found known => (inv.txns other found known).transfer
      ⟨fun row => ⟨row, rfl⟩, le_rfl, fun _ => rfl⟩, inv.bounded, inv.ordered, inv.increasing⟩
  | begin id key command binding =>
    simp only [LeaseSys.step]
    split
    · refine inv.advance rfl ?_ ⟨fun inside => inside.elim, fun _ _ same => by cases same⟩ rfl rfl
      exact fun _ _ => ⟨fun row => ⟨row, rfl⟩, le_rfl, fun _ => rfl⟩
    · exact inv
  | check id =>
    simp only [LeaseSys.step]
    split
    · split
      · exact inv.firstCheck
      · exact inv
    · exact inv
  | act id =>
    simp only [LeaseSys.step]
    split
    next txn stored =>
      split
      next stage => exact inv.act stored stage
      · exact inv
    · exact inv
  | commit id =>
    simp only [LeaseSys.step]
    split
    next txn stored =>
      split
      next revision write stage => exact inv.commit stored stage
      · exact inv
    · exact inv
  | abort id =>
    simp only [LeaseSys.step]
    split
    · exact inv.close
    · exact inv

end Steps

theorem fencingInv_run (labels : List LeaseLabel) : FencingInv (LeaseSys.run labels) := by
  refine Transition.run_always FencingInv labels ?_ FencingInv.step
  exact ⟨fun _ _ stored => by simp at stored, nofun, .nil, .nil⟩

/-- Under every interleaving the executed acquisitions return increasing fences, at most one binding
is admitted at any instant, and no command bound to a fence commits after one bound to a larger. -/
theorem lease_fencing (labels : List LeaseLabel) :
    let sys := LeaseSys.run labels
    (sys.history.filterMap LeaseEvent.issued).Pairwise (· < ·) ∧
      (∀ now first second, admits sys.lease first now = true →
        admits sys.lease second now = true → first = second) ∧
      sys.history.Pairwise fun earlier later =>
        ∀ first ∈ earlier.fences, ∀ second ∈ later.fences, first ≤ second := by
  intro sys
  have inv := fencingInv_run labels
  refine ⟨inv.increasing, ?_, inv.ordered⟩
  intro now first second left right
  cases held : sys.lease with
  | none => simp [admits, held] at left
  | some lease =>
    simp only [admits, held, Option.any_some, Bool.and_eq_true, decide_eq_true_eq] at left right
    obtain ⟨holder, fence⟩ := first
    obtain ⟨holder', fence'⟩ := second
    simp only [Binding.mk.injEq]
    exact ⟨left.1.1.symm.trans right.1.1, left.1.2.symm.trans right.1.2⟩

/-- A second call under the same key returns the recorded fence again. -/
theorem acquire_replayed :
    ¬ ((LeaseSys.run
        [.begin 0 "lease" (.acquireTask "worker" 300) none, .check 0, .act 0, .commit 0,
          .begin 1 "lease" (.acquireTask "worker" 300) none, .check 1]).history.filterMap
      LeaseEvent.returned).Pairwise (· < ·) := by
  decide

/-! ### The commands as single steps -/

/-- The lease that a request works on, and how. -/
def Request.leaseCommand (db : Db) : Request → Option (Id × LeaseCommand)
  | .acquireTask taskId holder ttl => some (taskId, .acquireTask holder ttl)
  | .renewTask taskId holder fence ttl => some (taskId, .renewTask ⟨holder, fence⟩ ttl)
  | .renewTaskForCleanup taskId holder fence _ ttl =>
    some (taskId, .renewTaskForCleanup ⟨holder, fence⟩ ttl)
  | .finishTask taskId holder fence _ _ => some (taskId, .finishTask ⟨holder, fence⟩)
  | .requeueSettledTerminal taskId holder fence =>
    some (taskId, .requeueSettledTerminal ⟨holder, fence⟩)
  | .issueContinuation taskId holder fence _ _ _ recoverExpired _ =>
    some (taskId, .issueContinuation ⟨holder, fence⟩ recoverExpired)
  | .consumeContinuation taskId holder fence _ _ _ _ =>
    some (taskId, .consumeContinuation ⟨holder, fence⟩)
  | .restoreUnstartedContinuation taskId =>
    ((db.tasks.find taskId).bind (·.payload.consumedContinuation)).map fun consumed =>
      (taskId, .restoreUnstartedContinuation ⟨consumed.holder, consumed.fence⟩)
  | _ => none

/-- The lease meets what the command needs of it. -/
def LeaseCommand.allows (command : LeaseCommand) (lease : Option Lease) (now : Time) : Prop :=
  match command.authority with
  | .nothing => True
  | .free => ∀ held ∈ lease, held.expiresAt ≤ now
  | .live binding => admits lease binding now = true
  | .expired binding => lapsed lease binding now = true

/-- One lease changed the way a command writes it. -/
def LeaseCommand.Writes (command : LeaseCommand) (before after : Table Id Lease) (taskId : Id)
    (now : Time) : Prop :=
  command.allows (before.find taskId) now ∧
    after.find taskId =
      (command.write (before.find taskId) now).apply (before.find taskId) ∧
    ∀ other ≠ taskId, after.find other = before.find other

theorem admits_of_fenced {db : Db} {now : Time} {taskId : Id} {holder : String} {fence : Nat}
    {lease : Lease} (held : db.fenced now taskId holder fence = .ok lease) :
    db.leases.find taskId = some lease ∧
      admits (db.leases.find taskId) ⟨holder, fence⟩ now = true := by
  obtain ⟨stored, rfl, rfl, live⟩ := Db.fenced_ok.mp held
  exact ⟨stored, by simp [admits, stored, live]⟩

/-- A fenced command that sets a new expiry. -/
theorem writes_expire {db : Db} {now expiresAt : Time} {taskId : Id} {lease : Lease}
    {command : LeaseCommand} (stored : db.leases.find taskId = some lease)
    (allows : command.allows (db.leases.find taskId) now)
    (write : command.write (db.leases.find taskId) now = .expire expiresAt) :
    command.Writes db.leases (db.leases.put taskId { lease with expiresAt }) taskId now := by
  refine ⟨allows, ?_, fun other distinct => Table.find_put_ne _ _ distinct⟩
  rw [write, Table.find_put_self, stored]
  rfl

section Single

variable [ContentHash] {db after : Db} {env : Env} {actor : Principal} {reply : Reply}

/-- A request that performs in one step does to the lease what its command does. -/
theorem performs_lease {request : Request} (performs : request.Performs env actor db after reply) :
    match request.leaseCommand db with
    | some (taskId, command) => command.Writes db.leases after.leases taskId env.now
    | none => after.leases = db.leases := by
  cases request with
  | acquireTask =>
    obtain ⟨_, -, -, -, free, -, rfl⟩ := acquireTask_cases performs
    exact ⟨free, Table.find_put_self .., fun _ distinct => Table.find_put_ne _ _ distinct⟩
  | renewTask =>
    obtain ⟨_, held, rfl⟩ := renewTask_cases performs
    obtain ⟨stored, admitted⟩ := admits_of_fenced held
    exact writes_expire stored admitted rfl
  | renewTaskForCleanup =>
    obtain ⟨_, held, rfl⟩ := renewTaskForCleanup_cases performs
    obtain ⟨stored, admitted⟩ := admits_of_fenced held
    exact writes_expire stored admitted (by rw [LeaseCommand.write, stored]; rfl)
  | finishTask =>
    obtain ⟨_, _, _, _, _, -, -, held, -, rfl⟩ := finishTask_cases performs.2
    obtain ⟨stored, admitted⟩ := admits_of_fenced held
    exact writes_expire stored admitted rfl
  | requeueSettledTerminal =>
    obtain ⟨_, _, _, -, held, rfl⟩ := requeue_cases performs
    obtain ⟨stored, admitted⟩ := admits_of_fenced held
    exact writes_expire stored admitted rfl
  | issueContinuation taskId holder fence _ _ _ recoverExpired =>
    obtain ⟨_, lease, _, _, _, _, _, _, _, -, -, authority, -, -, -, -, -, rfl⟩ :=
      issue_cases performs
    cases recoverExpired with
    | true =>
      simp only [issuingLease, if_true, bind_ok, orThrow_ok, require_ok, exists_const,
        pure_ok] at authority
      obtain ⟨_, stored, ⟨rfl, rfl, expired⟩, rfl⟩ := authority
      refine writes_expire stored ?_ rfl
      simp [LeaseCommand.allows, LeaseCommand.authority, lapsed, stored, expired]
    | false =>
      simp only [issuingLease, Bool.false_eq_true, if_false] at authority
      obtain ⟨stored, admitted⟩ := admits_of_fenced authority
      exact writes_expire stored admitted rfl
  | consumeContinuation =>
    obtain ⟨_, _, _, -, -, held, -, -, -, -, rfl⟩ := consume_cases performs
    exact ⟨(admits_of_fenced held).2, rfl, fun _ _ => rfl⟩
  | restoreUnstartedContinuation =>
    obtain ⟨_, consumed, _, lease, stored, -, ticket, -, -, -, -, -, held, holder, fence, expired,
      -, rfl⟩ := restore_cases performs
    simp only [Request.leaseCommand, stored, Option.bind_some, ticket, Option.map_some]
    refine writes_expire held ?_ rfl
    simp [LeaseCommand.allows, LeaseCommand.authority, lapsed, held, holder, fence, expired]
  | createExperiment =>
    obtain ⟨_, -, -, rfl⟩ := createExperiment_cases performs
    rfl
  | transitionExperiment =>
    obtain ⟨_, _, -, rfl⟩ := transition_cases performs
    rfl
  | reserveResources =>
    obtain ⟨_, performs⟩ := performs
    obtain ⟨_, _, -, -, -, -, -, rfl⟩ := reserve_cases performs
    rfl
  | settleResources =>
    obtain ⟨_, performs⟩ := performs
    rcases settle_cases performs with rfl | ⟨_, -, -, rfl | ⟨_, _, _, -, -, rfl⟩⟩ <;> rfl
  | createTask =>
    obtain ⟨_, -, -, -, -, -, rfl⟩ := createTask_cases performs.2
    rfl
  | retireQueuedAfterVerified =>
    rcases retireQueued_cases performs with rfl | ⟨_, _, -, -, -, -, -, rfl⟩ <;> rfl
  | amendQueuedTaskObjective =>
    obtain ⟨_, -, -, rfl⟩ := amendQueued_cases performs
    rfl
  | bindSlot =>
    obtain ⟨_, -, rfl⟩ := bindSlot_cases performs
    rfl
  | requestHandoff =>
    obtain ⟨_, -, performs⟩ := performs
    obtain ⟨_, -, _, rfl⟩ := requestHandoff_cases performs
    rfl
  | retireFailedLocalWorkspace =>
    obtain ⟨_, _, _, _, _, _, _, -, -, -, -, -, -, rfl⟩ := retire_cases performs
    rfl
  | reconcileOrphanWorkerSlot =>
    rcases reconcileOrphan_cases performs with rfl | ⟨_, _, _, _, -, -, -, -, rfl⟩ <;> rfl
  | reconcileModelReservations =>
    obtain ⟨_, rfl⟩ := reconcileModel_cases performs
    rfl
  | trackModelReservation =>
    obtain ⟨_, rfl⟩ := track_cases performs
    rfl
  | runtimeSave =>
    obtain ⟨_, _, _, _, -, -, -, saved⟩ := publish_cases performs
    rcases saved with ⟨_, _, -, -, -, -, -, rfl⟩ | ⟨_, -, -, -, rfl⟩ <;> rfl

end Single

end PhysHarness
