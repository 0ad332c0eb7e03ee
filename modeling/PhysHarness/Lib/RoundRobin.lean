import Mathlib.Algebra.GroupWithZero.Nat
import Mathlib.Data.List.Infix
import Mathlib.Data.List.Perm.Basic
import Mathlib.Data.List.Nodup

/-!
Taking turns.

Queues stand in a rotation. In each round every queue that is not empty gives its first item. What two of
the queues give is an alternation of the two, so between two items of one queue every other queue gives
one, as long as it has any.
-/
namespace RoundRobin

variable {κ α : Type}

/-- One round: what the queues give, and what is left of them. -/
def round : List (κ × List α) → List α × List (κ × List α)
  | [] => ([], [])
  | (key, []) :: queues => ((round queues).1, (key, []) :: (round queues).2)
  | (key, item :: items) :: queues => (item :: (round queues).1, (key, items) :: (round queues).2)

/-- Rounds while a queue is not empty. Each takes an item, so the items are fuel enough. -/
def turns : Nat → List (κ × List α) → List α
  | 0, _ => []
  | fuel + 1, queues =>
    if queues.all fun queue => queue.2.isEmpty then []
    else (round queues).1 ++ turns fuel (round queues).2

/-- How many items stand in the queues. -/
def size (queues : List (κ × List α)) : Nat := (queues.map fun queue => queue.2.length).sum

variable {queues : List (κ × List α)} {fuel : Nat}

theorem size_filter_le (test : κ × List α → Bool) (queues : List (κ × List α)) :
    size (queues.filter test) ≤ size queues := by
  induction queues with
  | nil => exact Nat.le_refl _
  | cons queue queues ih =>
    rw [List.filter_cons]
    split
    · simp only [size, List.map_cons, List.sum_cons] at ih ⊢
      omega
    · exact Nat.le_trans ih (Nat.le_add_left _ _)

theorem round_size (queues : List (κ × List α)) :
    size queues = (round queues).1.length + size (round queues).2 := by
  induction queues with
  | nil => rfl
  | cons queue queues ih =>
    obtain ⟨key, items⟩ := queue
    cases items with
    | nil => simpa [round, size] using ih
    | cons item items =>
      simp only [round, size, List.map_cons, List.sum_cons, List.length_cons] at ih ⊢
      omega

/-- A round takes something while a queue has something. -/
theorem round_pos (some : ¬ (queues.all fun queue => queue.2.isEmpty) = true) :
    0 < (round queues).1.length := by
  induction queues with
  | nil => exact absurd rfl some
  | cons queue queues ih =>
    obtain ⟨key, items⟩ := queue
    cases items with
    | nil => exact ih (by simpa using some)
    | cons item items => exact Nat.succ_pos _

theorem round_perm (queues : List (κ × List α)) :
    ((round queues).1 ++ (round queues).2.flatMap Prod.snd).Perm (queues.flatMap Prod.snd) := by
  induction queues with
  | nil => exact .refl _
  | cons queue queues ih =>
    obtain ⟨key, items⟩ := queue
    cases items with
    | nil => simpa [round] using ih
    | cons item items =>
      simp only [round, List.flatMap_cons, List.cons_append]
      refine .cons item ?_
      refine (List.perm_append_comm_assoc _ _ _).trans ?_
      exact ih.append_left items

theorem flatMap_empty (empty : (queues.all fun queue => queue.2.isEmpty) = true) :
    queues.flatMap Prod.snd = [] := by
  rw [List.flatMap_eq_nil_iff]
  intro queue member
  exact List.isEmpty_iff.mp (List.all_eq_true.mp empty queue member)

/-- Every item gets its turn. -/
theorem turns_perm (enough : size queues ≤ fuel) : (turns fuel queues).Perm (queues.flatMap Prod.snd) := by
  induction fuel generalizing queues with
  | zero =>
    have empty : queues.flatMap Prod.snd = [] := by
      refine List.length_eq_zero_iff.mp ?_
      rw [List.length_flatMap]
      exact Nat.le_zero.mp enough
    rw [empty]
    exact .refl _
  | succ fuel ih =>
    rw [turns]
    split
    next empty =>
      rw [flatMap_empty empty]
    next some =>
      have left : size (round queues).2 ≤ fuel := by
        have taken := round_pos some
        have split := round_size queues
        omega
      exact ((ih left).append_left _).trans (round_perm queues)

/-! ### Some of the queues -/

/-- Each queue holds items of its own key. -/
def Owned (owner : α → κ) (queues : List (κ × List α)) : Prop :=
  ∀ queue ∈ queues, ∀ item ∈ queue.2, owner item = queue.1

variable {owner : α → κ}

theorem Owned.tail {queue : κ × List α} (owned : Owned owner (queue :: queues)) : Owned owner queues :=
  fun other member => owned other (List.mem_cons_of_mem _ member)

theorem Owned.round (owned : Owned owner queues) : Owned owner (round queues).2 := by
  induction queues with
  | nil => exact nofun
  | cons queue queues ih =>
    obtain ⟨key, items⟩ := queue
    have later := ih owned.tail
    have own := owned _ List.mem_cons_self
    cases items with
    | nil => exact List.forall_mem_cons.mpr ⟨own, later⟩
    | cons item items =>
      exact List.forall_mem_cons.mpr ⟨fun other member => own other (List.mem_cons_of_mem _ member), later⟩

/-- A round of some of the queues is that part of the round. -/
theorem round_filter (owned : Owned owner queues) (test : κ → Bool) :
    round (queues.filter fun queue => test queue.1) =
      ((round queues).1.filter fun item => test (owner item),
        (round queues).2.filter fun queue => test queue.1) := by
  induction queues with
  | nil => rfl
  | cons queue queues ih =>
    obtain ⟨key, items⟩ := queue
    have rest := ih owned.tail
    have own := owned _ List.mem_cons_self
    cases items with
    | nil =>
      cases pass : test key with
      | true => simp [round, pass, rest]
      | false => simp [round, pass, rest]
    | cons item items =>
      have same : owner item = key := own item List.mem_cons_self
      cases pass : test key with
      | true => simp [round, pass, same, rest]
      | false => simp [round, pass, same, rest]

theorem round_empty (empty : (queues.all fun queue => queue.2.isEmpty) = true) :
    round queues = ([], queues) := by
  induction queues with
  | nil => rfl
  | cons queue queues ih =>
    obtain ⟨key, items⟩ := queue
    rw [List.all_cons, Bool.and_eq_true] at empty
    obtain rfl := List.isEmpty_iff.mp empty.1
    rw [round, ih empty.2]

theorem turns_empty (empty : (queues.all fun queue => queue.2.isEmpty) = true) :
    turns fuel queues = [] := by
  cases fuel with
  | zero => rfl
  | succ fuel => rw [turns, if_pos empty]

/-- The turns of some of the queues. -/
theorem turns_filter (owned : Owned owner queues) (test : κ → Bool) (enough : size queues ≤ fuel) :
    (turns fuel queues).filter (fun item => test (owner item)) =
      turns fuel (queues.filter fun queue => test queue.1) := by
  induction fuel generalizing queues with
  | zero => rfl
  | succ fuel ih =>
    rw [turns]
    split
    next empty =>
      have some : ((queues.filter fun queue => test queue.1).all fun queue => queue.2.isEmpty) = true := by
        refine List.all_eq_true.mpr fun queue member => ?_
        exact List.all_eq_true.mp empty queue (List.mem_of_mem_filter member)
      rw [turns, if_pos some, List.filter_nil]
    next more =>
      have left : size (round queues).2 ≤ fuel := by
        have taken := round_pos more
        have split := round_size queues
        omega
      have rest := ih owned.round left
      rw [List.filter_append, rest, turns, round_filter owned]
      split
      next empty =>
        -- a round changes nothing among empty queues
        have same := round_empty empty
        rw [round_filter owned, Prod.mk.injEq] at same
        rw [same.1, same.2, turns_empty empty, List.append_nil]
      next => rfl

/-- The turns of one queue are its items in their order. -/
theorem turns_single {key : κ} {items : List α} (enough : items.length ≤ fuel) :
    turns fuel [(key, items)] = items := by
  induction items generalizing fuel with
  | nil => exact turns_empty rfl
  | cons item items ih =>
    obtain ⟨fuel, rfl⟩ : ∃ n, fuel = n + 1 := ⟨fuel - 1, by simp at enough; omega⟩
    rw [turns, if_neg (by simp)]
    simp only [round, List.singleton_append]
    rw [ih (by simpa using enough)]

/-- The first round begins: one item of each queue that has any, in the rotation. -/
theorem turns_begin (owned : Owned owner queues) (enough : size queues ≤ fuel) :
    ((queues.filter fun queue => !queue.2.isEmpty).map Prod.fst) <+: (turns fuel queues).map owner := by
  have heads : (round queues).1.map owner = (queues.filter fun queue => !queue.2.isEmpty).map Prod.fst := by
    clear enough
    induction queues with
    | nil => rfl
    | cons queue queues ih =>
      obtain ⟨key, items⟩ := queue
      have rest := ih owned.tail
      have own := owned _ List.mem_cons_self
      cases items with
      | nil => simpa [round] using rest
      | cons item items => simp [round, rest, own item List.mem_cons_self]
  rw [← heads]
  cases fuel with
  | zero =>
    have taken : (round queues).1.length = 0 := by
      have split := round_size queues
      omega
    rw [List.length_eq_zero_iff.mp taken]
    exact List.nil_prefix
  | succ fuel =>
    rw [turns]
    split
    next empty =>
      rw [round_empty empty]
    next =>
      rw [List.map_append]
      exact List.prefix_append _ _

/-! ### Two of the queues -/

/-- One item of each list in turn, then the rest of the longer one. -/
def alternate : List α → List α → List α
  | [], others => others
  | items, [] => items
  | item :: items, other :: others => item :: other :: alternate items others

theorem turns_pair {first second : κ} {items others : List α}
    (enough : items.length + others.length ≤ fuel) :
    turns fuel [(first, items), (second, others)] = alternate items others := by
  induction fuel generalizing items others with
  | zero =>
    obtain ⟨rfl, rfl⟩ : items = [] ∧ others = [] := by
      constructor <;> refine List.length_eq_zero_iff.mp ?_ <;> omega
    rfl
  | succ fuel ih =>
    cases items with
    | nil =>
      cases others with
      | nil => rfl
      | cons other others =>
        rw [turns, if_neg (by simp)]
        simp only [round, List.singleton_append]
        rw [ih (by simp at enough ⊢; omega)]
        cases others <;> rfl
    | cons item items =>
      cases others with
      | nil =>
        rw [turns, if_neg (by simp)]
        simp only [round, List.singleton_append]
        rw [ih (by simp at enough ⊢; omega)]
        cases items <;> rfl
      | cons other others =>
        rw [turns, if_neg (by simp)]
        simp only [round, List.cons_append, List.nil_append]
        rw [ih (by simp at enough ⊢; omega), alternate]

/-- After an item of the one comes an item of the other. -/
theorem alternate_cons (item : α) (items others : List α) :
    alternate (item :: items) others = item :: alternate others items := by
  induction items generalizing item others with
  | nil => cases others with
    | nil => rfl
    | cons other others => cases others <;> rfl
  | cons next items ih =>
    cases others with
    | nil => rfl
    | cons other others => rw [alternate, alternate, ih]

/-- Between two items of one owner there is one of the other, as long as it has any. -/
theorem alternate_turns {one two : κ} (distinct : one ≠ two) (n : Nat) {items others : List α}
    (size : items.length + others.length = n) (first : ∀ item ∈ items, owner item = one)
    (second : ∀ item ∈ others, owner item = two) {before between after : List α} {x y : α}
    (split : alternate items others = before ++ x :: (between ++ y :: after))
    (same : owner x = owner y) (apart : ∀ z ∈ between, owner z ≠ owner x)
    (more : ∃ z ∈ between ++ after, owner z ≠ owner x) : between.length = 1 := by
  induction n generalizing one two items others before with
  | zero =>
    obtain ⟨rfl, rfl⟩ : items = [] ∧ others = [] := by
      constructor <;> refine List.length_eq_zero_iff.mp ?_ <;> omega
    simp [alternate] at split
  | succ n ih =>
    cases items with
    | nil =>
      -- the other list alone has one owner
      have owned : ∀ z ∈ before ++ x :: (between ++ y :: after), owner z = two := fun z member =>
        second z (by rw [alternate] at split; rwa [split])
      obtain ⟨z, member, differs⟩ := more
      refine absurd ((owned z ?_).trans (owned x (by simp)).symm) differs
      rcases List.mem_append.mp member with inside | inside <;> simp [inside]
    | cons item items =>
      rw [alternate_cons] at split
      cases before with
      | cons start before =>
        obtain ⟨rfl, rest⟩ := List.cons.inj split
        exact ih distinct.symm (by simp at size ⊢; omega) second
          (fun other member => first other (List.mem_cons_of_mem _ member)) rest
      | nil =>
        obtain ⟨rfl, rest⟩ := List.cons.inj split
        have own : owner item = one := first item List.mem_cons_self
        have later : ∀ other ∈ items, owner other = one := fun other member =>
          first other (List.mem_cons_of_mem _ member)
        cases others with
        | nil =>
          have owned : ∀ z ∈ between ++ y :: after, owner z = one := fun z member =>
            later z (by rw [alternate] at rest; rwa [rest])
          obtain ⟨z, member, differs⟩ := more
          refine absurd ((owned z ?_).trans own.symm) differs
          rcases List.mem_append.mp member with inside | inside <;> simp [inside]
        | cons other others =>
          rw [alternate_cons] at rest
          have else' : owner other = two := second other List.mem_cons_self
          cases between with
          | nil =>
            obtain ⟨rfl, -⟩ := List.cons.inj rest
            exact absurd (own.symm.trans (same.trans else')) distinct
          | cons middle between =>
            obtain ⟨rfl, tail⟩ := List.cons.inj rest
            cases items with
            | nil =>
              have owned : ∀ z ∈ between ++ y :: after, owner z = two := fun z member =>
                second z (List.mem_cons_of_mem _ (by rw [alternate] at tail; rw [tail]; exact member))
              exact absurd (own.symm.trans (same.trans (owned y (by simp)))) distinct
            | cons next items =>
              rw [alternate_cons] at tail
              cases between with
              | nil => rfl
              | cons last between =>
                obtain ⟨rfl, -⟩ := List.cons.inj tail
                exact absurd ((later next List.mem_cons_self).trans own.symm)
                  (apart next (by simp))

/-! ### Fairness -/

variable [DecidableEq κ]

/-- The items of some owners, owner by owner. -/
theorem flatMap_owners {keys : List κ} (distinct : keys.Nodup) (items : List α) :
    (keys.flatMap fun key => items.filter fun item => owner item = key).Perm
      (items.filter fun item => owner item ∈ keys) := by
  induction keys with
  | nil => simp
  | cons key keys ih =>
    obtain ⟨fresh, distinct⟩ := List.nodup_cons.mp distinct
    have parts := List.filter_append_perm (fun item => decide (owner item = key))
      (items.filter fun item => owner item ∈ key :: keys)
    rw [List.filter_filter, List.filter_filter] at parts
    have own : (items.filter fun item => decide (owner item = key) && decide (owner item ∈ key :: keys)) =
        items.filter fun item => owner item = key :=
      List.filter_congr fun item _ => by
        by_cases same : owner item = key <;> simp [same]
    have others : (items.filter fun item => !decide (owner item = key) &&
        decide (owner item ∈ key :: keys)) = items.filter fun item => owner item ∈ keys :=
      List.filter_congr fun item _ => by
        by_cases same : owner item = key
        · simp [same, fresh]
        · simp [same]
    rw [own, others] at parts
    exact ((ih distinct).append_left _).trans parts

/-- Between two items of one owner every other owner that has items left gives exactly one. -/
def TakesTurns (owner : α → κ) (out : List α) : Prop :=
  ∀ before x between y after, out = before ++ x :: (between ++ y :: after) → owner x = owner y →
    (∀ z ∈ between, owner z ≠ owner x) →
      ∀ other, other ≠ owner x → (∃ z ∈ between ++ after, owner z = other) →
        (between.filter fun z => owner z = other).length = 1

theorem filter_key (distinct : (queues.map Prod.fst).Nodup) {key : κ} {items : List α}
    (member : (key, items) ∈ queues) : (queues.filter fun queue => queue.1 = key) = [(key, items)] := by
  induction queues with
  | nil => exact absurd member List.not_mem_nil
  | cons queue queues ih =>
    obtain ⟨fresh, distinct⟩ := List.nodup_cons.mp distinct
    rcases List.mem_cons.mp member with rfl | later
    · rw [List.filter_cons_of_pos (by simp), List.filter_eq_nil_iff.mpr]
      intro other listed same
      have again : other.1 ∈ queues.map Prod.fst := List.mem_map_of_mem listed
      rw [of_decide_eq_true same] at again
      exact fresh again
    · have differs : queue.1 ≠ key := fun same => fresh (same ▸ List.mem_map_of_mem later)
      rw [List.filter_cons_of_neg (by simpa using differs), ih distinct later]

/-- The queues of two keys, in one order or the other. -/
theorem filter_keys (distinct : (queues.map Prod.fst).Nodup) {one two : κ} {items others : List α}
    (differ : one ≠ two) (first : (one, items) ∈ queues) (second : (two, others) ∈ queues) :
    (queues.filter fun queue => queue.1 = one ∨ queue.1 = two) = [(one, items), (two, others)] ∨
      (queues.filter fun queue => queue.1 = one ∨ queue.1 = two) = [(two, others), (one, items)] := by
  induction queues with
  | nil => exact absurd first List.not_mem_nil
  | cons queue queues ih =>
    obtain ⟨fresh, distinct⟩ := List.nodup_cons.mp distinct
    -- behind one of the two only the other is left
    have only : ∀ {key other : κ} {rest : List α}, queue.1 = key → (other, rest) ∈ queues →
        (queues.filter fun queue => queue.1 = key ∨ queue.1 = other) = [(other, rest)] := by
      rintro key other rest rfl later
      rw [← filter_key distinct later]
      refine List.filter_congr fun entry listed => ?_
      have apart : entry.1 ≠ queue.1 := fun same => fresh (same ▸ List.mem_map_of_mem listed)
      simp [apart]
    rcases List.mem_cons.mp first with rfl | firstLater
    · rcases List.mem_cons.mp second with same | later
      · exact absurd (congrArg Prod.fst same).symm differ
      · left
        rw [List.filter_cons_of_pos (by simp), only rfl later]
    · rcases List.mem_cons.mp second with rfl | later
      · right
        have swap : ((two, others) :: queues).filter (fun queue => queue.1 = one ∨ queue.1 = two) =
            ((two, others) :: queues).filter fun queue => queue.1 = two ∨ queue.1 = one :=
          List.filter_congr fun queue _ => by simp only [or_comm]
        rw [swap, List.filter_cons_of_pos (by simp), only rfl firstLater]
      · have apart : queue.1 ≠ one ∧ queue.1 ≠ two :=
          ⟨fun same => fresh (same ▸ List.mem_map_of_mem firstLater),
            fun same => fresh (same ▸ List.mem_map_of_mem later)⟩
        rw [List.filter_cons_of_neg (by simp [apart])]
        exact ih distinct firstLater later

/-- Turns are fair. -/
theorem turns_fair (owned : Owned owner queues) (distinct : (queues.map Prod.fst).Nodup)
    (enough : size queues ≤ fuel) : TakesTurns owner (turns fuel queues) := by
  intro before x between y after split same apart other differs more
  have perm := turns_perm enough
  have queueOf : ∀ z ∈ turns fuel queues, ∃ items, (owner z, items) ∈ queues := by
    intro z member
    obtain ⟨queue, listed, inside⟩ := List.mem_flatMap.mp (perm.mem_iff.mp member)
    exact ⟨queue.2, by rwa [owned queue listed z inside]⟩
  obtain ⟨z, inside, rfl⟩ := more
  obtain ⟨items, first⟩ := queueOf x (by rw [split]; simp)
  obtain ⟨others, second⟩ := queueOf z (by
    rw [split]
    rcases List.mem_append.mp inside with inside | inside <;> simp [inside])
  have both := turns_filter owned (fun key => decide (key = owner x ∨ key = owner z)) enough
  have pair := filter_keys distinct differs.symm first second
  -- among the two owners `between` keeps its items of the other
  have kept : (between.filter fun item => decide (owner item = owner x ∨ owner item = owner z)) =
      between.filter fun item => owner item = owner z :=
    List.filter_congr fun item member => by simp [apart item member]
  have whole : (turns fuel queues).filter
      (fun item => decide (owner item = owner x ∨ owner item = owner z)) =
      before.filter (fun item => decide (owner item = owner x ∨ owner item = owner z)) ++
        x :: ((between.filter fun item => owner item = owner z) ++
          y :: after.filter fun item => decide (owner item = owner x ∨ owner item = owner z)) := by
    rw [split, List.filter_append, List.filter_cons_of_pos (by simp), List.filter_append,
      List.filter_cons_of_pos (by simp [same]), kept]
  have more : ∃ item ∈ (between.filter fun item => owner item = owner z) ++
      after.filter (fun item => decide (owner item = owner x ∨ owner item = owner z)),
      owner item ≠ owner x := by
    refine ⟨z, ?_, differs⟩
    rcases List.mem_append.mp inside with inside | inside <;> simp [inside]
  have apart : ∀ item ∈ between.filter (fun item => owner item = owner z), owner item ≠ owner x :=
    fun item member => apart item (List.mem_of_mem_filter member)
  have ownFirst : ∀ item ∈ items, owner item = owner x := owned _ first
  have ownSecond : ∀ item ∈ others, owner item = owner z := owned _ second
  have fits : items.length + others.length ≤ fuel := by
    have small : size (queues.filter fun queue => queue.1 = owner x ∨ queue.1 = owner z) ≤ fuel :=
      Nat.le_trans (size_filter_le _ _) enough
    rcases pair with pair | pair <;>
    · rw [pair] at small
      simp only [size, List.map_cons, List.map_nil, List.sum_cons, List.sum_nil] at small
      omega
  rw [whole] at both
  rcases pair with pair | pair
  · rw [pair, turns_pair fits] at both
    exact alternate_turns differs.symm _ rfl ownFirst ownSecond both.symm same apart more
  · rw [pair, turns_pair (by omega)] at both
    exact alternate_turns differs _ rfl ownSecond ownFirst both.symm same apart more

end RoundRobin
