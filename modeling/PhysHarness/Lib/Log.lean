import Mathlib.Data.List.Basic
import Mathlib.Data.List.Nodup
import Mathlib.Order.Basic
import Mathlib.Tactic.Common

/-!
Reading an ordered log behind a watermark.

The entries of the log have increasing keys. A reader takes a bounded piece of what lies behind its
watermark and moves the watermark to the last entry that it took: nothing is skipped and nothing is
taken twice.
-/
namespace Log

variable {α : Type*} (key : α → Nat)

/-- The keys increase. -/
def Ordered (log : List α) : Prop := log.Pairwise fun x y => key x < key y

/-- What lies up to a mark. -/
def upTo (log : List α) (mark : Nat) : List α := log.filter fun x => key x ≤ mark

/-- What lies behind a mark. -/
def behind (log : List α) (mark : Nat) : List α := log.filter fun x => mark < key x

/-- Where a reader stands that has taken a piece. -/
def through (piece : List α) (mark : Nat) : Nat := (piece.getLast?.map key).getD mark

variable {key} {log : List α} {mark : Nat}

theorem Ordered.split (ordered : Ordered key log) (mark : Nat) :
    log = upTo key log mark ++ behind key log mark := by
  induction log with
  | nil => rfl
  | cons x log ih =>
    obtain ⟨first, later⟩ := List.pairwise_cons.mp ordered
    by_cases inside : key x ≤ mark
    · have outside : ¬ mark < key x := Nat.not_lt.mpr inside
      simp only [upTo, behind, List.filter_cons, inside, outside, decide_true, decide_false, if_true]
      simpa [upTo, behind] using ih later
    · have outside : mark < key x := Nat.lt_of_not_le inside
      have none : upTo key log mark = [] := by
        refine List.filter_eq_nil_iff.mpr fun y member => ?_
        have after := first y member
        simp only [decide_eq_true_eq]
        omega
      have all : behind key log mark = log := by
        refine List.filter_eq_self.mpr fun y member => ?_
        have after := first y member
        simp only [decide_eq_true_eq]
        omega
      simp only [upTo, behind, List.filter_cons, inside, outside, decide_true, decide_false, if_true]
      simp only [upTo, behind] at none all
      simp [none, all]

theorem through_ge (n : Nat) :
    mark ≤ through key ((behind key log mark).take n) mark := by
  unfold through
  cases last : ((behind key log mark).take n).getLast? with
  | none => exact Nat.le_refl mark
  | some x =>
    have member := List.mem_of_mem_take (List.mem_of_getLast? last)
    exact Nat.le_of_lt (of_decide_eq_true (List.mem_filter.mp member).2)

theorem Ordered.le_through (ordered : Ordered key log) {x : α} (member : x ∈ log) (limit : Nat) :
    key x ≤ through key log limit := by
  unfold through
  cases last : log.getLast? with
  | none =>
    rw [List.getLast?_eq_none_iff.mp last] at member
    exact absurd member List.not_mem_nil
  | some y =>
    obtain ⟨first, rfl⟩ := List.getLast?_eq_some_iff.mp last
    rcases List.mem_append.mp member with earlier | same
    · have less := (List.pairwise_append.mp ordered).2.2 x earlier y List.mem_cons_self
      exact Nat.le_of_lt less
    · rw [List.mem_singleton.mp same]
      exact Nat.le_refl _

/-- The reader stays within the log. -/
theorem Ordered.through_le {n limit : Nat} (ordered : Ordered key log)
    (inside : mark ≤ through key log limit) :
    through key ((behind key log mark).take n) mark ≤ through key log limit := by
  rw [through]
  cases taken : ((behind key log mark).take n).getLast? with
  | none => exact inside
  | some x =>
    have member := (List.mem_filter.mp (List.mem_of_mem_take (List.mem_of_getLast? taken))).1
    exact ordered.le_through member limit

theorem upTo_key {first rest : List α} {x : α} (ordered : Ordered key (first ++ x :: rest)) :
    upTo key (first ++ x :: rest) (key x) = first ++ [x] := by
  obtain ⟨_, later, before⟩ := List.pairwise_append.mp ordered
  obtain ⟨after, _⟩ := List.pairwise_cons.mp later
  have all : upTo key first (key x) = first := by
    refine List.filter_eq_self.mpr fun y member => ?_
    have less := before y member x List.mem_cons_self
    exact decide_eq_true (Nat.le_of_lt less)
  have none : upTo key rest (key x) = [] := by
    refine List.filter_eq_nil_iff.mpr fun y member => ?_
    have more := after y member
    simp only [decide_eq_true_eq]
    omega
  simp only [upTo] at all none
  simp [upTo, all, none]

/-- What lies up to the new mark is what lay up to the old one and the piece that was taken. -/
theorem upTo_through (ordered : Ordered key log) (mark n : Nat) :
    upTo key log (through key ((behind key log mark).take n) mark) =
      upTo key log mark ++ (behind key log mark).take n := by
  unfold through
  cases last : ((behind key log mark).take n).getLast? with
  | none =>
    rw [List.getLast?_eq_none_iff.mp last, List.append_nil]
    rfl
  | some x =>
    obtain ⟨first, piece⟩ := List.getLast?_eq_some_iff.mp last
    have whole : log = (upTo key log mark ++ first) ++ x :: (behind key log mark).drop n := by
      have parts := ordered.split mark
      rw [← List.take_append_drop n (behind key log mark), piece] at parts
      simpa using parts
    rw [piece]
    rw [whole] at ordered
    have taken := upTo_key ordered
    rw [← whole] at taken
    rw [Option.map_some, Option.getD_some, taken, List.append_assoc]

/-- Entries behind the mark are not up to it. -/
theorem upTo_append {more : List α} (later : ∀ x ∈ more, mark < key x) :
    upTo key (log ++ more) mark = upTo key log mark := by
  have none : more.filter (fun x => key x ≤ mark) = [] :=
    List.filter_eq_nil_iff.mpr fun x member => by simpa using later x member
  rw [upTo, List.filter_append, none, List.append_nil]
  rfl

end Log
