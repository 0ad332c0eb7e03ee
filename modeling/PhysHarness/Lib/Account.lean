import PhysHarness.Lib.Table
import Mathlib.Algebra.BigOperators.Group.Finset.Basic
import Mathlib.Algebra.Order.BigOperators.Group.List

/-!
Counters kept beside a table of entries.

Each entry belongs to one owner, and each owner has an account with several counters. The counters
track the entries when every one of them is the sum of its weight over the owner's entries. A
program that keeps such counters in place preserves this exactly when it adds to them what each
write of an entry changes in the sum.
-/
namespace Account

open Table

variable {κ γ ι α β M : Type} [DecidableEq κ] [DecidableEq γ] [AddCommMonoid M]

/-- The sum of a weight over the entries of one owner. -/
def owned (entries : Table κ α) (owner : α → γ) (weight : α → M) (group : γ) : M :=
  entries.total fun _ entry => if owner entry = group then weight entry else 0

variable {entries : Table κ α} {owner : α → γ} {weight : α → M}

theorem owned_put (weight : α → M) (group : γ) {key : κ} {old new : α} (stored : entries.find key = some old)
    (same : owner new = owner old) :
    owned (entries.put key new) owner weight group +
        (if owner old = group then weight old else 0) =
      owned entries owner weight group + (if owner old = group then weight new else 0) := by
  have exchanged := total_put new
    (fun _ entry => if owner entry = group then weight entry else 0) stored
  simpa only [owned, same] using exchanged

theorem owned_put_new {key : κ} {new : α} {group : γ} (fresh : entries.find key = none) :
    owned (entries.put key new) owner weight group =
      (if owner new = group then weight new else 0) + owned entries owner weight group :=
  total_put_new _ fresh

/-- An owner without entries owns nothing. -/
theorem owned_eq_zero {group : γ}
    (unused : ∀ key entry, entries.find key = some entry → owner entry ≠ group) :
    owned entries owner weight group = 0 := by
  have same : owned entries owner weight group = entries.total fun _ _ => (0 : M) :=
    total_congr fun key entry stored => if_neg (unused key entry stored)
  rw [same]
  simp [total]

omit [DecidableEq κ] in
theorem owned_nonneg [PartialOrder M] [IsOrderedAddMonoid M] {group : γ}
    (nonneg : ∀ entry, 0 ≤ weight entry) : 0 ≤ owned entries owner weight group := by
  apply List.sum_nonneg
  intro value member
  obtain ⟨⟨key, entry⟩, -, rfl⟩ := List.mem_map.mp member
  dsimp only
  split
  · exact nonneg entry
  · exact le_rfl

/-- Every counter of every account is the sum of its weight over the owner's entries. -/
def Tracks (accounts : Table γ β) (entries : Table κ α) (owner : α → γ) (counter : ι → β → M)
    (weight : ι → α → M) : Prop :=
  ∀ group account, accounts.find group = some account →
    ∀ c, counter c account = owned entries owner (weight c) group

variable {accounts : Table γ β} {counter : ι → β → M} {weights : ι → α → M}

/-- A new account without entries starts at zero. -/
theorem Tracks.create {group : γ} {account : β}
    (tracks : Tracks accounts entries owner counter weights)
    (unused : ∀ key entry, entries.find key = some entry → owner entry ≠ group)
    (zero : ∀ c, counter c account = 0) :
    Tracks (accounts.put group account) entries owner counter weights := by
  intro other found stored c
  rw [find_put] at stored
  split at stored
  next same =>
    obtain rfl := Option.some.inj stored
    rw [same, zero, owned_eq_zero unused]
  · exact tracks other found stored c

/-- A new entry adds its weights to its owner's counters. -/
theorem Tracks.enter {key : κ} {new : α} {before after : β}
    (tracks : Tracks accounts entries owner counter weights) (fresh : entries.find key = none)
    (account : accounts.find (owner new) = some before)
    (posted : ∀ c, counter c after = weights c new + counter c before) :
    Tracks (accounts.put (owner new) after) (entries.put key new) owner counter weights := by
  intro group found stored c
  rw [find_put] at stored
  rw [owned_put_new fresh]
  split at stored
  next same =>
    obtain rfl := Option.some.inj stored
    rw [same, if_pos rfl, posted, tracks _ before account c]
  next other =>
    rw [if_neg (Ne.symm other), zero_add]
    exact tracks group found stored c

/-- An entry whose weights stay needs no posting. -/
theorem Tracks.rewrite {key : κ} {old new : α}
    (tracks : Tracks accounts entries owner counter weights)
    (stored : entries.find key = some old) (same : owner new = owner old)
    (weightless : ∀ c, weights c new = weights c old) :
    Tracks accounts (entries.put key new) owner counter weights := by
  intro group account found c
  have unchanged : owned (entries.put key new) owner (weights c) group =
      owned entries owner (weights c) group := by
    apply total_put_same _ stored
    rw [same, weightless]
  rw [unchanged]
  exact tracks group account found c

/-- A rewritten entry moves its owner's counters by the change of its weights. -/
theorem Tracks.post [IsRightCancelAdd M] {key : κ} {old new : α} {before after : β}
    (tracks : Tracks accounts entries owner counter weights)
    (stored : entries.find key = some old) (same : owner new = owner old)
    (account : accounts.find (owner old) = some before)
    (posted : ∀ c, counter c after + weights c old = counter c before + weights c new) :
    Tracks (accounts.put (owner old) after) (entries.put key new) owner counter weights := by
  intro group found account' c
  have exchanged := owned_put (weights c) group stored same
  rw [find_put] at account'
  split at account'
  next here =>
    obtain rfl := Option.some.inj account'
    subst here
    rw [if_pos rfl, if_pos rfl] at exchanged
    refine add_right_cancel (Eq.trans ?_ exchanged.symm)
    rw [posted, tracks _ before account c]
  next other =>
    rw [if_neg (Ne.symm other), if_neg (Ne.symm other), add_zero, add_zero] at exchanged
    rw [exchanged]
    exact tracks group found account' c

end Account
