import Mathlib.Data.List.Nodup
import Mathlib.Tactic.Common
import PhysHarness.Lib.Transition

/-!
# Numbers that are drawn before they are committed

A transaction draws the next number for each entry that it writes and publishes its entries when it
commits, so that a number can become visible after a later one. Guarded entries are written only under a
lock, which its holder keeps until it commits or rolls back.

## Main result

`behind_mark`: from a state in which nobody holds the lock, every guarded entry that any run commits was
visible there or has a number above every visible one.
-/
namespace Sequencer

variable {τ ε : Type}

/-- An entry under its number. -/
structure Entry (ε : Type) where
  number : Nat
  item : ε
  deriving DecidableEq

structure Journal (τ ε : Type) where
  /-- The last number that was drawn. A number is not drawn again when its transaction rolls back. -/
  issued : Nat := 0
  /-- What is visible, in the order of the commits. -/
  committed : List (Entry ε) := []
  /-- What open transactions have written. -/
  drawn : List (τ × Entry ε) := []
  /-- The transaction that holds the lock. -/
  holder : Option τ := none

inductive Act (τ ε : Type) where
  | lock (txn : τ)
  | write (txn : τ) (item : ε)
  | commit (txn : τ)
  | rollback (txn : τ)

/-- The highest number of a list, or zero. -/
def highest (entries : List (Entry ε)) : Nat := (entries.map Entry.number).foldr max 0

theorem le_highest {entries : List (Entry ε)} {entry : Entry ε} (member : entry ∈ entries) :
    entry.number ≤ highest entries := by
  induction entries with
  | nil => simp at member
  | cons first rest ih =>
    simp only [highest, List.map_cons, List.foldr_cons] at *
    rcases List.mem_cons.mp member with rfl | later
    · exact Nat.le_max_left _ _
    · exact Nat.le_trans (ih later) (Nat.le_max_right _ _)

theorem highest_le {entries : List (Entry ε)} {bound : Nat}
    (below : ∀ entry ∈ entries, entry.number ≤ bound) : highest entries ≤ bound := by
  induction entries with
  | nil => simp [highest]
  | cons first rest ih =>
    simp only [List.mem_cons, forall_eq_or_imp] at below
    simp only [highest, List.map_cons, List.foldr_cons] at *
    exact Nat.max_le.mpr ⟨below.1, ih below.2⟩

namespace Journal

/-- An entry under the next number. -/
def next (journal : Journal τ ε) (item : ε) : Entry ε := ⟨journal.issued + 1, item⟩

/-- The highest number that a reader sees. -/
def mark (journal : Journal τ ε) : Nat := highest journal.committed

/-- Every entry, visible or not. -/
def entries (journal : Journal τ ε) : List (Entry ε) := journal.committed ++ journal.drawn.map Prod.snd

/-- The journal with one more entry of an open transaction. -/
def write (journal : Journal τ ε) (txn : τ) (item : ε) : Journal τ ε :=
  { journal with
    issued := journal.issued + 1
    drawn := journal.drawn ++ [(txn, journal.next item)] }

variable [DecidableEq τ]

/-- What a transaction has written, in order. -/
def written (journal : Journal τ ε) (txn : τ) : List (Entry ε) :=
  (journal.drawn.filter fun part => part.1 = txn).map Prod.snd

/-- The journal without an open transaction, which loses the lock. -/
def close (journal : Journal τ ε) (txn : τ) : Journal τ ε :=
  { journal with
    drawn := journal.drawn.filter fun part => part.1 ≠ txn
    holder := if journal.holder = some txn then none else journal.holder }

/-- One act of a transaction. It waits while another holds the lock that it needs. -/
def step (guarded : ε → Bool) (journal : Journal τ ε) : Act τ ε → Journal τ ε
  | .lock txn => if journal.holder = none then { journal with holder := some txn } else journal
  | .write txn item =>
    if guarded item = true ∧ journal.holder ≠ some txn then journal else journal.write txn item
  | .commit txn =>
    { journal.close txn with committed := journal.committed ++ journal.written txn }
  | .rollback txn => journal.close txn

end Journal

open Journal

/-- Every number was drawn once, and guarded entries wait under the lock. -/
structure Sound (guarded : ε → Bool) (journal : Journal τ ε) : Prop where
  drawn_once : (journal.entries.map Entry.number).Nodup
  issued : ∀ entry ∈ journal.entries, entry.number ≤ journal.issued
  locked : ∀ part ∈ journal.drawn, guarded part.2.item = true → journal.holder = some part.1

/-- Every guarded entry is known or has a number above the mark, and the mark was drawn. -/
structure Covered (guarded : ε → Bool) (journal : Journal τ ε) (known : Entry ε → Prop)
    (mark : Nat) : Prop where
  past : mark ≤ journal.issued
  behind : ∀ entry ∈ journal.entries, guarded entry.item = true → known entry ∨ mark < entry.number

variable {guarded : ε → Bool} {journal : Journal τ ε} {known : Entry ε → Prop} {mark : Nat}

theorem sound_init : Sound guarded ({} : Journal τ ε) where
  drawn_once := by simp [entries]
  issued := by simp [entries]
  locked := by simp

theorem mem_entries_write {txn : τ} {item : ε} {entry : Entry ε} :
    entry ∈ (journal.write txn item).entries ↔
      entry ∈ journal.entries ∨ entry = journal.next item := by
  simp [Journal.entries, Journal.write, or_assoc]

/-- A number names one entry. -/
theorem Sound.unique (sound : Sound guarded journal) {entry other : Entry ε}
    (member : entry ∈ journal.entries) (second : other ∈ journal.entries)
    (same : entry.number = other.number) : entry = other :=
  List.inj_on_of_nodup_map sound.drawn_once member second same

theorem Sound.mark_le_issued (sound : Sound guarded journal) : journal.mark ≤ journal.issued :=
  highest_le fun entry member => sound.issued entry (List.mem_append_left _ member)

/-- A reader knows what it sees while nobody holds the lock. -/
theorem Sound.covered (sound : Sound guarded journal) (free : journal.holder = none) :
    Covered guarded journal (· ∈ journal.committed) journal.mark where
  past := sound.mark_le_issued
  behind entry member kind := by
    rcases List.mem_append.mp member with visible | waiting
    · exact .inl visible
    · -- An open transaction that wrote the entry would hold the lock.
      obtain ⟨part, open', rfl⟩ := List.mem_map.mp waiting
      have held := sound.locked part open' kind
      simp [free] at held

theorem Covered.imp {more : Entry ε → Prop} (covered : Covered guarded journal known mark)
    (implies : ∀ entry, known entry → more entry) : Covered guarded journal more mark where
  past := covered.past
  behind entry member kind := (covered.behind entry member kind).imp_left (implies entry)

/-- A reader that moves its mark on gives up what it passes. -/
theorem Covered.advance {next : Nat} (covered : Covered guarded journal known mark)
    (past : next ≤ journal.issued) :
    Covered guarded journal
      (fun entry => known entry ∨ mark < entry.number ∧ entry.number ≤ next) next where
  past := past
  behind entry member kind := by
    rcases covered.behind entry member kind with seen | later
    · exact .inl (.inl seen)
    · by_cases passed : entry.number ≤ next
      · exact .inl (.inr ⟨later, passed⟩)
      · exact .inr (Nat.lt_of_not_le passed)

section Steps

variable [DecidableEq τ] {act : Act τ ε}

theorem entries_close (txn : τ) :
    ∀ entry ∈ (journal.close txn).entries, entry ∈ journal.entries := by
  intro entry member
  simp only [Journal.entries, Journal.close, List.mem_append, List.mem_map] at member ⊢
  rcases member with visible | ⟨part, stays, same⟩
  · exact .inl visible
  · exact .inr ⟨part, (List.mem_filter.mp stays).1, same⟩

/-- The entries that a commit publishes and those that stay open are the entries. -/
theorem entries_commit (txn : τ) :
    (journal.step guarded (.commit txn)).entries.Perm journal.entries := by
  have parts := List.filter_append_perm (fun part : τ × Entry ε => decide (part.1 = txn)) journal.drawn
  have rest : (journal.drawn.filter fun part => part.1 ≠ txn) =
      journal.drawn.filter fun part => !decide (part.1 = txn) := by simp
  simp only [Journal.step, Journal.entries, Journal.close, Journal.written, rest, List.append_assoc,
    ← List.map_append]
  exact (parts.map Prod.snd).append_left _

/-- What a step adds to the entries is numbered next. -/
theorem entries_step {entry : Entry ε} (member : entry ∈ (journal.step guarded act).entries) :
    entry ∈ journal.entries ∨ entry.number = journal.issued + 1 := by
  cases act with
  | lock txn =>
    simp only [Journal.step] at member
    split at member
    · exact .inl member
    · exact .inl member
  | write txn item =>
    simp only [Journal.step] at member
    split at member
    · exact .inl member
    · rcases mem_entries_write.mp member with old | rfl
      · exact .inl old
      · exact .inr rfl
  | commit txn => exact .inl ((entries_commit txn).mem_iff.mp member)
  | rollback txn => exact .inl (entries_close txn entry member)

theorem issued_step : journal.issued ≤ (journal.step guarded act).issued := by
  cases act with
  | lock txn => simp only [Journal.step]; split <;> simp
  | write txn item => simp only [Journal.step]; split <;> simp [Journal.write]
  | commit txn => simp [Journal.step, Journal.close]
  | rollback txn => simp [Journal.step, Journal.close]

/-- What is visible stays visible. -/
theorem committed_step {entry : Entry ε} (member : entry ∈ journal.committed) :
    entry ∈ (journal.step guarded act).committed := by
  cases act with
  | lock txn => simp only [Journal.step]; split <;> exact member
  | write txn item => simp only [Journal.step]; split <;> exact member
  | commit txn => exact List.mem_append_left _ member
  | rollback txn => exact member

theorem mark_step : journal.mark ≤ (journal.step guarded act).mark :=
  highest_le fun _ member => le_highest (committed_step member)

/-- A transaction that ends takes what waits under its lock along. -/
theorem Sound.close_locked (sound : Sound guarded journal) (txn : τ) :
    ∀ part ∈ (journal.close txn).drawn, guarded part.2.item = true →
      (journal.close txn).holder = some part.1 := by
  intro part member kind
  obtain ⟨open', other⟩ := List.mem_filter.mp member
  have held := sound.locked part open' kind
  have differs : part.1 ≠ txn := by simpa using other
  simp [Journal.close, held, differs]

theorem Sound.step (sound : Sound guarded journal) (act : Act τ ε) :
    Sound guarded (journal.step guarded act) := by
  cases act with
  | lock txn =>
    simp only [Journal.step]
    split
    next free =>
      refine ⟨sound.drawn_once, sound.issued, ?_⟩
      intro part member kind
      have held := sound.locked part member kind
      simp [free] at held
    · exact sound
  | write txn item =>
    simp only [Journal.step]
    split
    · exact sound
    next allowed =>
      constructor
      · have fresh : journal.issued + 1 ∉ journal.entries.map Entry.number := by
          intro old
          obtain ⟨entry, member, same⟩ := List.mem_map.mp old
          have below := sound.issued entry member
          omega
        have numbers : (journal.entries.map Entry.number ++ [journal.issued + 1]).Nodup :=
          List.nodup_append_comm.mp (List.nodup_cons.mpr ⟨fresh, sound.drawn_once⟩)
        simpa [Journal.entries, Journal.write, Journal.next] using numbers
      · intro entry member
        rcases mem_entries_write.mp member with old | rfl
        · exact Nat.le_succ_of_le (sound.issued entry old)
        · exact Nat.le_refl _
      · intro part member kind
        rcases List.mem_append.mp member with old | fresh
        · exact sound.locked part old kind
        · rw [List.mem_singleton.mp fresh] at kind ⊢
          by_cases held : journal.holder = some txn
          · exact held
          · exact absurd ⟨kind, held⟩ allowed
  | commit txn =>
    have same : (journal.step guarded (.commit txn)).entries.Perm journal.entries := entries_commit txn
    constructor
    · exact (same.map Entry.number).nodup_iff.mpr sound.drawn_once
    · exact fun entry member => sound.issued entry (same.mem_iff.mp member)
    · exact sound.close_locked txn
  | rollback txn =>
    have fewer : (journal.close txn).entries.Sublist journal.entries :=
      (List.filter_sublist.map Prod.snd).append_left _
    constructor
    · exact (fewer.map Entry.number).nodup sound.drawn_once
    · exact fun entry member => sound.issued entry (fewer.mem member)
    · exact sound.close_locked txn

theorem Covered.step (covered : Covered guarded journal known mark) (act : Act τ ε) :
    Covered guarded (journal.step guarded act) known mark where
  past := Nat.le_trans covered.past issued_step
  behind entry member kind := by
    rcases entries_step member with old | next
    · exact covered.behind entry old kind
    · have drawn := covered.past
      exact .inr (by omega)

/-- A mark that was read while nobody held the lock stays below every guarded entry that was not visible
then, whatever transactions do. -/
theorem behind_mark (sound : Sound guarded journal) (free : journal.holder = none)
    (acts : List (Act τ ε)) {entry : Entry ε}
    (visible : entry ∈ (Transition.run (Journal.step guarded) journal acts).committed)
    (kind : guarded entry.item = true) :
    entry ∈ journal.committed ∨ journal.mark < entry.number := by
  have covered : Covered guarded (Transition.run (Journal.step guarded) journal acts)
      (· ∈ journal.committed) journal.mark :=
    Transition.run_always (fun later => Covered guarded later (· ∈ journal.committed) journal.mark)
      acts (sound.covered free) fun _ act holds => holds.step act
  exact covered.behind entry (List.mem_append_left _ visible) kind

end Steps

end Sequencer
