import Mathlib.Data.Finset.Lattice.Basic
import Mathlib.Data.Finset.Union
import Mathlib.Logic.Relation

/-!
Tainting by shared keys.

Some elements are hit; an element that shares a key with a tainted one is tainted too. The loop passes
over the elements until a pass changes nothing, and collects the keys of the tainted ones on the way.
What it taints are the elements that a chain of shared keys connects to one that is hit.
-/
namespace Tainting

open Relation

variable {α κ : Type} [DecidableEq κ]

/-- One pass over the elements and their flags. -/
def pass (keys : α → Finset κ) : List (α × Bool) → Finset κ → List (α × Bool) × Finset κ × Bool
  | [], tainted => ([], tainted, false)
  | (a, hit) :: rest, tainted =>
    if hit = false ∧ (keys a ∩ tainted).Nonempty then
      let (rest, tainted, _) := pass keys rest (tainted ∪ keys a)
      ((a, true) :: rest, tainted, true)
    else
      let (rest, tainted, changed) := pass keys rest tainted
      ((a, hit) :: rest, tainted, changed)

/-- Passes until one changes nothing. Each that changes something taints an element, so one more than
there are elements is fuel enough. -/
def settle (keys : α → Finset κ) : Nat → List (α × Bool) → Finset κ → List (α × Bool) × Finset κ
  | 0, entries, tainted => (entries, tainted)
  | fuel + 1, entries, tainted =>
    let (entries, tainted, changed) := pass keys entries tainted
    if changed then settle keys fuel entries tainted else (entries, tainted)

def taint (keys : α → Finset κ) (hit : α → Bool) (items : List α) : List (α × Bool) × Finset κ :=
  settle keys (items.length + 1) (items.map fun a => (a, hit a))
    ((items.filter hit).foldl (fun tainted a => tainted ∪ keys a) ∅)

/-- An element of the list that shares a key. -/
def Linked (keys : α → Finset κ) (items : List α) (a b : α) : Prop :=
  b ∈ items ∧ (keys a ∩ keys b).Nonempty

/-- Connected to an element that is hit. -/
def Tainted (keys : α → Finset κ) (hit : α → Bool) (items : List α) (a : α) : Prop :=
  ∃ root ∈ items, hit root = true ∧ ReflTransGen (Linked keys items) root a

variable {keys : α → Finset κ} {hit : α → Bool} {items : List α}

theorem Tainted.mem {a : α} (tainted : Tainted keys hit items a) : a ∈ items := by
  obtain ⟨root, listed, -, path⟩ := tainted
  cases path with
  | refl => exact listed
  | tail _ edge => exact edge.1

/-- How many elements are not flagged. -/
def openCount (entries : List (α × Bool)) : Nat := entries.countP fun entry => !entry.2

/-! ### One pass -/

/-- What a pass keeps, with `marked` for what may be tainted. -/
structure Passes (keys : α → Finset κ) (entries : List (α × Bool)) (tainted : Finset κ)
    (result : List (α × Bool) × Finset κ × Bool) : Prop where
  elements : result.1.map Prod.fst = entries.map Prod.fst
  grows : tainted ⊆ result.2.1
  flags : ∀ after ∈ result.1, ∃ entry ∈ entries, entry.1 = after.1 ∧
    (entry.2 = true → after.2 = true)
  carried : (∀ entry ∈ entries, entry.2 = true → keys entry.1 ⊆ tainted) →
    ∀ after ∈ result.1, after.2 = true → keys after.1 ⊆ result.2.1
  sound : ∀ marked : α → Prop,
    (∀ entry ∈ entries, (∃ key ∈ keys entry.1, ∃ a, marked a ∧ key ∈ keys a) → marked entry.1) →
    (∀ entry ∈ entries, entry.2 = true → marked entry.1) →
    (∀ key ∈ tainted, ∃ a, marked a ∧ key ∈ keys a) →
      (∀ after ∈ result.1, after.2 = true → marked after.1) ∧
        ∀ key ∈ result.2.1, ∃ a, marked a ∧ key ∈ keys a
  same : result.2.2 = false → result.1 = entries ∧ result.2.1 = tainted ∧
    ∀ entry ∈ entries, entry.2 = false → Disjoint (keys entry.1) tainted
  fewer : openCount result.1 + (if result.2.2 then 1 else 0) ≤ openCount entries

theorem pass_passes (entries : List (α × Bool)) (tainted : Finset κ) :
    Passes keys entries tainted (pass keys entries tainted) := by
  induction entries generalizing tainted with
  | nil =>
    exact ⟨rfl, Finset.Subset.refl _, nofun, fun _ => nofun, fun _ _ _ known => ⟨nofun, known⟩,
      fun _ => ⟨rfl, rfl, nofun⟩, Nat.le_refl _⟩
  | cons entry rest ih =>
    obtain ⟨a, flag⟩ := entry
    rw [pass]
    split
    next shares =>
      obtain ⟨rfl, key, inside⟩ := shares
      obtain ⟨here, there⟩ := Finset.mem_inter.mp inside
      have more := ih (tainted ∪ keys a)
      generalize pass keys rest (tainted ∪ keys a) = result at more ⊢
      refine ⟨congrArg (a :: ·) more.elements, Finset.subset_union_left.trans more.grows, ?_, ?_, ?_,
        nofun, ?_⟩
      · intro after member
        rcases List.mem_cons.mp member with rfl | later
        · exact ⟨_, List.mem_cons_self, rfl, fun _ => rfl⟩
        · obtain ⟨entry, listed, same⟩ := more.flags after later
          exact ⟨entry, List.mem_cons_of_mem _ listed, same⟩
      · intro carried after member flagged
        rcases List.mem_cons.mp member with rfl | later
        · exact Finset.subset_union_right.trans more.grows
        · refine more.carried (fun entry listed set => ?_) after later flagged
          exact (carried entry (List.mem_cons_of_mem _ listed) set).trans Finset.subset_union_left
      · intro marked closed flagged known
        have own : marked a := closed _ List.mem_cons_self ⟨key, here, known key there⟩
        obtain ⟨flags, sources⟩ := more.sound marked
          (fun entry listed => closed entry (List.mem_cons_of_mem _ listed))
          (fun entry listed => flagged entry (List.mem_cons_of_mem _ listed))
          (fun key member => (Finset.mem_union.mp member).elim (known key) fun new => ⟨a, own, new⟩)
        refine ⟨fun after member set => ?_, sources⟩
        rcases List.mem_cons.mp member with rfl | later
        · exact own
        · exact flags after later set
      · have fewer := more.fewer
        simp only [openCount, List.countP_cons, Bool.not_true, Bool.not_false, Bool.false_eq_true,
          if_false, if_true] at fewer ⊢
        omega
    next apart =>
      have more := ih tainted
      generalize pass keys rest tainted = result at more ⊢
      refine ⟨congrArg (a :: ·) more.elements, more.grows, ?_, ?_, ?_, ?_, ?_⟩
      · intro after member
        rcases List.mem_cons.mp member with rfl | later
        · exact ⟨_, List.mem_cons_self, rfl, id⟩
        · obtain ⟨entry, listed, same⟩ := more.flags after later
          exact ⟨entry, List.mem_cons_of_mem _ listed, same⟩
      · intro carried after member flagged
        rcases List.mem_cons.mp member with rfl | later
        · exact (carried _ List.mem_cons_self flagged).trans more.grows
        · exact more.carried (fun entry listed => carried entry (List.mem_cons_of_mem _ listed)) after
            later flagged
      · intro marked closed flagged known
        obtain ⟨flags, sources⟩ := more.sound marked
          (fun entry listed => closed entry (List.mem_cons_of_mem _ listed))
          (fun entry listed => flagged entry (List.mem_cons_of_mem _ listed)) known
        refine ⟨fun after member set => ?_, sources⟩
        rcases List.mem_cons.mp member with rfl | later
        · exact flagged _ List.mem_cons_self set
        · exact flags after later set
      · intro unchanged
        obtain ⟨entries, keys', disjoint⟩ := more.same unchanged
        refine ⟨congrArg ((a, flag) :: ·) entries, keys', fun entry member unset => ?_⟩
        rcases List.mem_cons.mp member with rfl | later
        · rw [Finset.disjoint_iff_inter_eq_empty, ← Finset.not_nonempty_iff_eq_empty]
          exact fun shares => apart ⟨unset, shares⟩
        · exact disjoint entry later unset
      · have fewer := more.fewer
        obtain ⟨_, _, changed⟩ := result
        simp only [openCount, List.countP_cons] at fewer ⊢
        cases changed <;> simp only [Bool.false_eq_true, if_false, if_true] at fewer ⊢ <;> omega

/-! ### The loop -/

/-- What the loop keeps: every flag has a reason, and every reason so far is carried. -/
structure Sound (keys : α → Finset κ) (hit : α → Bool) (items : List α) (entries : List (α × Bool))
    (tainted : Finset κ) : Prop where
  elements : entries.map Prod.fst = items
  own : ∀ entry ∈ entries, hit entry.1 = true → entry.2 = true
  flagged : ∀ entry ∈ entries, entry.2 = true → Tainted keys hit items entry.1
  carried : ∀ entry ∈ entries, entry.2 = true → keys entry.1 ⊆ tainted
  sourced : ∀ key ∈ tainted, ∃ a, Tainted keys hit items a ∧ key ∈ keys a

theorem Sound.pass {entries : List (α × Bool)} {tainted : Finset κ}
    (sound : Sound keys hit items entries tainted) :
    Sound keys hit items (pass keys entries tainted).1 (pass keys entries tainted).2.1 := by
  have passes : Passes keys entries tainted _ := pass_passes entries tainted
  obtain ⟨flagged, sourced⟩ := passes.sound (Tainted keys hit items) (by
    rintro entry listed ⟨key, inside, a, ⟨root, member, struck, path⟩, shared⟩
    refine ⟨root, member, struck, path.tail ⟨?_, key, Finset.mem_inter.mpr ⟨shared, inside⟩⟩⟩
    rw [← sound.elements]
    exact List.mem_map_of_mem listed) sound.flagged sound.sourced
  refine ⟨passes.elements.trans sound.elements, fun after member struck => ?_, flagged,
    passes.carried sound.carried, sourced⟩
  obtain ⟨entry, listed, same, set⟩ := passes.flags after member
  exact set (sound.own entry listed (same ▸ struck))

theorem settle_sound {fuel : Nat} : ∀ {entries : List (α × Bool)} {tainted : Finset κ},
    Sound keys hit items entries tainted → openCount entries < fuel →
      Sound keys hit items (settle keys fuel entries tainted).1 (settle keys fuel entries tainted).2 ∧
        ∀ entry ∈ (settle keys fuel entries tainted).1, entry.2 = false →
          Disjoint (keys entry.1) (settle keys fuel entries tainted).2 := by
  induction fuel with
  | zero => exact fun _ few => absurd few (Nat.not_lt_zero _)
  | succ fuel ih =>
    intro entries tainted sound few
    have passes : Passes keys entries tainted _ := pass_passes entries tainted
    have next := sound.pass
    rw [settle]
    dsimp only
    split
    next changed =>
      refine ih next ?_
      have fewer := passes.fewer
      rw [if_pos changed] at fewer
      omega
    next unchanged =>
      obtain ⟨entries', tainted', disjoint⟩ := passes.same (by simpa using unchanged)
      rw [entries', tainted'] at next ⊢
      exact ⟨next, disjoint⟩

theorem mem_foldl_union {list : List α} {start : Finset κ} {key : κ} :
    key ∈ list.foldl (fun tainted a => tainted ∪ keys a) start ↔
      key ∈ start ∨ ∃ a ∈ list, key ∈ keys a := by
  induction list generalizing start with
  | nil => simp
  | cons a list ih =>
    rw [List.foldl_cons, ih, Finset.mem_union]
    simp [or_assoc]

/-- The loop flags exactly the tainted elements, and collects exactly their keys. -/
theorem taint_iff (keys : α → Finset κ) (hit : α → Bool) (items : List α) :
    (taint keys hit items).1.map Prod.fst = items ∧
      (∀ entry ∈ (taint keys hit items).1, entry.2 = true ↔ Tainted keys hit items entry.1) ∧
      ∀ key, key ∈ (taint keys hit items).2 ↔ ∃ a, Tainted keys hit items a ∧ key ∈ keys a := by
  have start : Sound keys hit items (items.map fun a => (a, hit a))
      ((items.filter hit).foldl (fun tainted a => tainted ∪ keys a) ∅) := by
    have struck : ∀ a ∈ items, hit a = true → Tainted keys hit items a :=
      fun a listed hit => ⟨a, listed, hit, .refl⟩
    refine ⟨by simp [Function.comp_def], ?_, ?_, ?_, ?_⟩
    · intro entry member
      obtain ⟨a, -, rfl⟩ := List.mem_map.mp member
      exact id
    · intro entry member
      obtain ⟨a, listed, rfl⟩ := List.mem_map.mp member
      exact struck a listed
    · intro entry member set key inside
      obtain ⟨a, listed, rfl⟩ := List.mem_map.mp member
      exact mem_foldl_union.mpr (.inr ⟨a, List.mem_filter.mpr ⟨listed, set⟩, inside⟩)
    · intro key inside
      rcases mem_foldl_union.mp inside with none | ⟨a, member, own⟩
      · exact absurd none (Finset.notMem_empty _)
      · obtain ⟨listed, hit⟩ := List.mem_filter.mp member
        exact ⟨a, struck a listed hit, own⟩
  have enough : openCount (items.map fun a => (a, hit a)) < items.length + 1 := by
    refine Nat.lt_succ_of_le (List.countP_le_length.trans ?_)
    rw [List.length_map]
  obtain ⟨sound, disjoint⟩ := settle_sound start enough
  -- what shares a key with a flagged element is flagged
  have complete : ∀ a, Tainted keys hit items a →
      ∀ entry ∈ (taint keys hit items).1, entry.1 = a → entry.2 = true := by
    rintro a ⟨root, listed, struck, path⟩
    induction path with
    | refl =>
      rintro entry member rfl
      exact sound.own entry member struck
    | @tail b c path edge ih =>
      rintro entry member rfl
      obtain ⟨inside, key, shared⟩ := edge
      obtain ⟨one, two⟩ := Finset.mem_inter.mp shared
      have carrier : key ∈ (taint keys hit items).2 := by
        have listed : b ∈ items := Tainted.mem ⟨root, listed, struck, path⟩
        rw [← sound.elements] at listed
        obtain ⟨other, there, rfl⟩ := List.mem_map.mp listed
        exact sound.carried other there (ih other there rfl) one
      by_contra unset
      exact Finset.disjoint_left.mp (disjoint entry member (by simpa using unset)) two carrier
  refine ⟨sound.elements, fun entry member => ⟨sound.flagged entry member, fun tainted =>
    complete _ tainted entry member rfl⟩, fun key => ⟨sound.sourced key, ?_⟩⟩
  rintro ⟨a, tainted, inside⟩
  have listed := tainted.mem
  rw [← sound.elements] at listed
  obtain ⟨entry, member, rfl⟩ := List.mem_map.mp listed
  exact sound.carried entry member (complete _ tainted entry member rfl) inside

/-! ### What is kept -/

/-- The elements that are not tainted. -/
def kept (keys : α → Finset κ) (hit : α → Bool) (items : List α) : List α :=
  ((taint keys hit items).1.filter fun entry => !entry.2).map Prod.fst

open Classical in
theorem kept_eq (keys : α → Finset κ) (hit : α → Bool) (items : List α) :
    kept keys hit items = items.filter fun a => ¬ Tainted keys hit items a := by
  obtain ⟨elements, flags, -⟩ := taint_iff keys hit items
  conv_rhs => rw [← elements]
  rw [kept, List.filter_map]
  congr 1
  refine List.filter_congr fun entry member => ?_
  have flag := flags entry member
  rw [elements, Function.comp_apply]
  cases set : entry.2 with
  | true => simpa [set] using flag
  | false => simpa [set] using flag

theorem mem_kept {a : α} : a ∈ kept keys hit items ↔ a ∈ items ∧ ¬ Tainted keys hit items a := by
  classical
  rw [kept_eq, List.mem_filter, decide_eq_true_eq]

theorem tainted_perm {others : List α} (perm : items.Perm others) (a : α) :
    Tainted keys hit items a ↔ Tainted keys hit others a := by
  have linked : Linked keys items = Linked keys others := by
    funext a b
    rw [Linked, Linked, perm.mem_iff]
  simp only [Tainted, perm.mem_iff, linked]

/-- The order of the elements does not matter. -/
theorem kept_perm {others : List α} (perm : items.Perm others) :
    (kept keys hit items).Perm (kept keys hit others) := by
  classical
  rw [kept_eq, kept_eq]
  simp only [tainted_perm perm]
  exact perm.filter _

theorem taint_perm {others : List α} (perm : items.Perm others) :
    (taint keys hit items).2 = (taint keys hit others).2 := by
  ext key
  rw [(taint_iff keys hit items).2.2, (taint_iff keys hit others).2.2]
  simp only [tainted_perm perm]

end Tainting
