import Mathlib.Data.List.Nodup
import Mathlib.Data.Set.Basic
import Mathlib.Tactic.Common
import Mathlib.Logic.ExistsUnique

/-!
# A consumer with an acknowledged cursor

A consumer reads a numbered log. It takes one batch of a range after its cursor at a time, passes over
entries that it does not want, and moves the cursor to the end of the range when it settles the batch.

## Main result

`Sound.exactly_once`: an entry that is due and not ahead of the cursor was either passed over or stands
in exactly one settled batch, once.
-/
namespace Cursor

variable {ν : Type*}

/-- The entries of a range, without those that were passed over. -/
structure Batch (ν : Type*) where
  name : ν
  start : Nat
  stop : Nat
  items : List Nat

structure Consumer (ν : Type*) where
  ack : Nat := 0
  pending : Option (Batch ν) := none
  settled : List (Batch ν) := []
  passed : List Nat := []

namespace Consumer

def batches (consumer : Consumer ν) : List (Batch ν) := consumer.settled ++ consumer.pending.toList

/-- The end of what the consumer has taken. -/
def reach (consumer : Consumer ν) : Nat :=
  match consumer.pending with
  | none => consumer.ack
  | some batch => batch.stop

end Consumer

/-- The entries of a range are split into items and passed entries. -/
structure Splits (due : Set Nat) (start stop : Nat) (items passed : List Nat) : Prop where
  nodup : items.Nodup
  inside : ∀ n ∈ items, start < n ∧ n ≤ stop
  beside : ∀ n ∈ passed, start < n ∧ n ≤ stop ∧ n ∉ items
  whole : ∀ n ∈ due, start < n → n ≤ stop → n ∈ items ∨ n ∈ passed

theorem Splits.perm {due : Set Nat} {start stop : Nat} {items others passed : List Nat}
    (splits : Splits due start stop items passed) (same : others.Perm items) :
    Splits due start stop others passed where
  nodup := same.nodup_iff.mpr splits.nodup
  inside := fun n member => splits.inside n (same.mem_iff.mp member)
  beside := fun n member =>
    ⟨(splits.beside n member).1, (splits.beside n member).2.1, fun listed =>
      (splits.beside n member).2.2 (same.mem_iff.mp listed)⟩
  whole := fun n member above reached => (splits.whole n member above reached).imp_left same.mem_iff.mpr

/-- One step of a consumer of a log in which some entries are due. -/
inductive Moves (due : Set Nat) : Consumer ν → Consumer ν → Prop where
  | take {consumer : Consumer ν} {batch : Batch ν} {passed : List Nat} (idle : consumer.pending = none)
      (fresh : ∀ other ∈ consumer.settled, other.name ≠ batch.name) (begins : batch.start = consumer.ack)
      (ahead : consumer.ack < batch.stop)
      (splits : Splits due consumer.ack batch.stop batch.items passed) :
      Moves due consumer
        { consumer with pending := some batch, passed := consumer.passed ++ passed }
  | skip {consumer : Consumer ν} {stop : Nat} {passed : List Nat} (idle : consumer.pending = none)
      (ahead : consumer.ack ≤ stop) (splits : Splits due consumer.ack stop [] passed) :
      Moves due consumer { consumer with ack := stop, passed := consumer.passed ++ passed }
  | settle {consumer : Consumer ν} {batch : Batch ν} (open_ : consumer.pending = some batch) :
      Moves due consumer
        { consumer with ack := batch.stop, pending := none, settled := consumer.settled ++ [batch] }

/-- The ranges of the batches follow each other, and every due entry up to the last one is accounted
for. -/
structure Sound (due : Set Nat) (consumer : Consumer ν) : Prop where
  ordered : consumer.batches.Pairwise fun first second => first.stop ≤ second.start
  names : (consumer.batches.map Batch.name).Nodup
  items : ∀ batch ∈ consumer.batches, batch.items.Nodup ∧
    ∀ n ∈ batch.items, batch.start < n ∧ n ≤ batch.stop
  behind : ∀ batch ∈ consumer.settled, batch.stop ≤ consumer.ack
  ahead : ∀ batch, consumer.pending = some batch →
    batch.start = consumer.ack ∧ consumer.ack < batch.stop
  told : ∀ n ∈ due, n ≤ consumer.reach →
    n ∈ consumer.passed ∨ ∃ batch ∈ consumer.batches, n ∈ batch.items
  apart : ∀ n ∈ consumer.passed, n ≤ consumer.reach ∧ ∀ batch ∈ consumer.batches, n ∉ batch.items

variable {due : Set Nat} {consumer after : Consumer ν}

theorem Sound.start (numbered : ∀ n ∈ due, 0 < n) : Sound due ({} : Consumer ν) where
  ordered := by simp [Consumer.batches]
  names := by simp [Consumer.batches]
  items := by simp [Consumer.batches]
  behind := by simp
  ahead := by simp
  told n member reached := absurd (numbered n member) (Nat.not_lt.mpr reached)
  apart := by simp

/-- The log may grow ahead of what the consumer has taken, and entries may cease to be due. -/
theorem Sound.grows {later : Set Nat} (sound : Sound due consumer)
    (old : ∀ n ∈ later, n ≤ consumer.reach → n ∈ due) : Sound later consumer :=
  { sound with told := fun n member reached => sound.told n (old n member reached) reached }

theorem Sound.ack_le_reach (sound : Sound due consumer) : consumer.ack ≤ consumer.reach := by
  unfold Consumer.reach
  split
  · exact Nat.le_refl _
  next batch open_ => exact (sound.ahead batch open_).2.le

theorem Sound.stop_le_reach (sound : Sound due consumer) {batch : Batch ν}
    (listed : batch ∈ consumer.batches) : batch.stop ≤ consumer.reach := by
  rcases List.mem_append.mp listed with settled | open_
  · exact (sound.behind batch settled).trans sound.ack_le_reach
  · have pending := Option.mem_toList.mp open_
    rw [Consumer.reach, pending]

theorem Consumer.idle_batches (idle : consumer.pending = none) :
    consumer.batches = consumer.settled := by
  simp [Consumer.batches, idle]

theorem Consumer.idle_reach (idle : consumer.pending = none) : consumer.reach = consumer.ack := by
  simp [Consumer.reach, idle]

theorem Sound.take {batch : Batch ν} {passed : List Nat} (sound : Sound due consumer)
    (idle : consumer.pending = none) (fresh : ∀ other ∈ consumer.settled, other.name ≠ batch.name)
    (begins : batch.start = consumer.ack) (ahead : consumer.ack < batch.stop)
    (splits : Splits due consumer.ack batch.stop batch.items passed) :
    Sound due { consumer with pending := some batch, passed := consumer.passed ++ passed } := by
  have batches := Consumer.idle_batches idle
  have reach := Consumer.idle_reach idle
  constructor
  · show (consumer.settled ++ [batch]).Pairwise _
    rw [List.pairwise_append]
    refine ⟨batches ▸ sound.ordered, List.pairwise_singleton .., fun first settled last final => ?_⟩
    obtain rfl := List.mem_singleton.mp final
    rw [begins]
    exact sound.behind first settled
  · show ((consumer.settled ++ [batch]).map Batch.name).Nodup
    rw [List.map_append, List.map_singleton]
    refine List.Nodup.append (batches ▸ sound.names) (List.nodup_singleton _) ?_
    intro name settled final
    obtain ⟨other, listed, rfl⟩ := List.mem_map.mp settled
    exact fresh other listed (List.mem_singleton.mp final)
  · intro other listed
    rcases List.mem_append.mp listed with settled | final
    · exact sound.items other (batches ▸ settled)
    · obtain rfl := Option.some.inj (Option.mem_toList.mp final)
      rw [begins]
      exact ⟨splits.nodup, splits.inside⟩
  · exact sound.behind
  · intro other open_
    obtain rfl := Option.some.inj open_
    exact ⟨begins, ahead⟩
  · intro n member reached
    by_cases taken : n ≤ consumer.ack
    · rcases sound.told n member (reach ▸ taken) with gone | ⟨other, listed, inside⟩
      · exact .inl (List.mem_append_left _ gone)
      · exact .inr ⟨other, List.mem_append_left _ (batches ▸ listed), inside⟩
    · rcases splits.whole n member (Nat.lt_of_not_le taken) reached with inside | gone
      · exact .inr ⟨batch, List.mem_append_right _ (by simp), inside⟩
      · exact .inl (List.mem_append_right _ gone)
  · intro n member
    rcases List.mem_append.mp member with old | new
    · obtain ⟨reached, apart⟩ := sound.apart n old
      rw [reach] at reached
      refine ⟨reached.trans ahead.le, fun other listed inside => ?_⟩
      rcases List.mem_append.mp listed with settled | final
      · exact apart other (batches ▸ settled) inside
      · obtain rfl := Option.some.inj (Option.mem_toList.mp final)
        exact absurd (splits.inside n inside).1 (Nat.not_lt.mpr reached)
    · obtain ⟨above, reached, outside⟩ := splits.beside n new
      refine ⟨reached, fun other listed inside => ?_⟩
      rcases List.mem_append.mp listed with settled | final
      · have below := ((sound.items other (batches ▸ settled)).2 n inside).2
        have behind := sound.behind other settled
        omega
      · obtain rfl := Option.some.inj (Option.mem_toList.mp final)
        exact outside inside

theorem Sound.skip {stop : Nat} {passed : List Nat} (sound : Sound due consumer)
    (idle : consumer.pending = none) (ahead : consumer.ack ≤ stop)
    (splits : Splits due consumer.ack stop [] passed) :
    Sound due { consumer with ack := stop, passed := consumer.passed ++ passed } := by
  have batches := Consumer.idle_batches idle
  have reach := Consumer.idle_reach idle
  have reach' : Consumer.reach { consumer with ack := stop, passed := consumer.passed ++ passed } =
      stop := Consumer.idle_reach idle
  constructor
  · exact sound.ordered
  · exact sound.names
  · exact sound.items
  · exact fun batch settled => (sound.behind batch settled).trans ahead
  · intro batch open_
    rw [show consumer.pending = some batch from open_] at idle
    cases idle
  · intro n member reached
    rw [reach'] at reached
    by_cases taken : n ≤ consumer.ack
    · rcases sound.told n member (reach ▸ taken) with gone | told
      · exact .inl (List.mem_append_left _ gone)
      · exact .inr told
    · rcases splits.whole n member (Nat.lt_of_not_le taken) reached with inside | gone
      · cases inside
      · exact .inl (List.mem_append_right _ gone)
  · intro n member
    rw [reach']
    rcases List.mem_append.mp member with old | new
    · obtain ⟨reached, apart⟩ := sound.apart n old
      exact ⟨(reach ▸ reached).trans ahead, apart⟩
    · obtain ⟨above, reached, -⟩ := splits.beside n new
      refine ⟨reached, fun batch listed inside => ?_⟩
      have below := ((sound.items batch listed).2 n inside).2
      have behind := sound.behind batch (batches ▸ listed)
      omega

theorem Sound.settle {batch : Batch ν} (sound : Sound due consumer)
    (open_ : consumer.pending = some batch) :
    Sound due
      { consumer with ack := batch.stop, pending := none, settled := consumer.settled ++ [batch] } := by
  have batches : consumer.batches = consumer.settled ++ [batch] := by simp [Consumer.batches, open_]
  have same : Consumer.batches
      { consumer with ack := batch.stop, pending := none, settled := consumer.settled ++ [batch] } =
        consumer.batches := by simp [Consumer.batches, open_]
  have reach : consumer.reach = batch.stop := by simp [Consumer.reach, open_]
  constructor
  · exact same ▸ sound.ordered
  · exact same ▸ sound.names
  · exact same ▸ sound.items
  · intro other settled
    rw [← batches] at settled
    exact reach ▸ sound.stop_le_reach settled
  · exact fun other none => by cases none
  · rw [same]
    exact fun n member reached => sound.told n member (reach ▸ reached)
  · rw [same]
    exact fun n member => ⟨reach ▸ (sound.apart n member).1, (sound.apart n member).2⟩

theorem Moves.sound (moves : Moves due consumer after) (sound : Sound due consumer) :
    Sound due after := by
  cases moves with
  | take idle fresh begins ahead splits => exact sound.take idle fresh begins ahead splits
  | skip idle ahead splits => exact sound.skip idle ahead splits
  | settle open_ => exact sound.settle open_

/-- Two batches with one entry are the same batch. -/
theorem Sound.batch_unique (sound : Sound due consumer) {first second : Batch ν} {n : Nat}
    (one : first ∈ consumer.batches) (two : second ∈ consumer.batches) (left : n ∈ first.items)
    (right : n ∈ second.items) : first = second := by
  by_contra distinct
  have below := (sound.items first one).2 n left
  have above := (sound.items second two).2 n right
  rcases List.Pairwise.forall_of_forall_of_flip
    (R := fun first second : Batch ν => first = second ∨ first.stop ≤ second.start ∨
      second.stop ≤ first.start) (fun _ _ => .inl rfl)
    (sound.ordered.imp fun before => .inr (.inl before))
    (sound.ordered.imp fun before => .inr (.inr before)) one two with same | before | before
  · exact distinct same
  · omega
  · omega

/-- An entry that is due and not ahead of the cursor was passed over, or stands in exactly one settled
batch, once; and not both. -/
theorem Sound.exactly_once (sound : Sound due consumer) {n : Nat} (member : n ∈ due)
    (read : n ≤ consumer.ack) :
    Xor (n ∈ consumer.passed)
      (∃! batch, batch ∈ consumer.settled ∧ batch.items.count n = 1) := by
  have counted : ∀ batch ∈ consumer.batches, n ∈ batch.items → batch.items.count n = 1 :=
    fun batch listed inside => List.count_eq_one_of_mem (sound.items batch listed).1 inside
  rcases sound.told n member (read.trans sound.ack_le_reach) with gone | ⟨batch, listed, inside⟩
  · refine .inl ⟨gone, ?_⟩
    rintro ⟨batch, ⟨settled, once⟩, -⟩
    have inside : n ∈ batch.items := List.count_pos_iff.mp (by omega)
    exact (sound.apart n gone).2 batch (List.mem_append_left _ settled) inside
  · have settled : batch ∈ consumer.settled := by
      rcases List.mem_append.mp listed with settled | open_
      · exact settled
      · obtain ⟨begins, -⟩ := sound.ahead batch (Option.mem_toList.mp open_)
        have above := ((sound.items batch listed).2 n inside).1
        omega
    refine .inr ⟨⟨batch, ⟨settled, counted batch listed inside⟩, ?_⟩, fun gone =>
      (sound.apart n gone).2 batch listed inside⟩
    rintro other ⟨also, once⟩
    exact sound.batch_unique (List.mem_append_left _ also) listed
      (List.count_pos_iff.mp (by omega)) inside

end Cursor
