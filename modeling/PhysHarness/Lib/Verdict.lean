import Mathlib.Data.Fintype.Basic
import Mathlib.Data.Finset.Card
import Mathlib.Logic.Function.Basic
import Mathlib.Logic.Relation
import Mathlib.Order.FixedPoints
import Mathlib.Order.CompletePartialOrder

/-!
Memoised verdicts along a finite graph.

A look at an element either settles its verdict or names the elements through which it stands; it
then stands when all of them do. The verdicts are the least fixed point, so nothing stands on a cycle.
The search keeps an explicit stack, a memo of verdicts and the elements it has opened, both of which
later searches share. Main result: a search agrees with the least fixed point, whatever has been
asked before.
-/
namespace Verdict

variable {κ : Type}

/-- What one look at an element says. -/
inductive Look (κ : Type) where
  | settled (verdict : Bool)
  | through (children : List κ)

/-- The least verdicts. -/
inductive Stands (look : κ → Look κ) : κ → Prop
  | settled {x : κ} : look x = .settled true → Stands look x
  | through {x : κ} {children : List κ} : look x = .through children →
      (∀ y ∈ children, Stands look y) → Stands look x

/-- One round of verdicts. -/
def round (look : κ → Look κ) : Set κ →o Set κ where
  toFun standing := fun x => match look x with
    | .settled verdict => verdict = true
    | .through children => ∀ y ∈ children, y ∈ standing
  monotone' first second more x := by
    show (match look x with
      | .settled verdict => verdict = true
      | .through children => ∀ y ∈ children, y ∈ first) →
      (match look x with
      | .settled verdict => verdict = true
      | .through children => ∀ y ∈ children, y ∈ second)
    cases look x with
    | settled verdict => exact id
    | through children => exact fun stands y child => more (stands y child)

theorem mem_round {look : κ → Look κ} {standing : Set κ} {x : κ} : x ∈ round look standing ↔
    look x = .settled true ∨ ∃ children, look x = .through children ∧ ∀ y ∈ children, y ∈ standing := by
  show (match look x with
    | .settled verdict => verdict = true
    | .through children => ∀ y ∈ children, y ∈ standing) ↔ _
  cases look x <;> simp

/-- The least verdicts are the least fixed point of a round. -/
theorem stands_iff_lfp {look : κ → Look κ} {x : κ} :
    Stands look x ↔ x ∈ OrderHom.lfp (round look) := by
  constructor
  · intro stands
    induction stands with
    | settled seen =>
      rw [← OrderHom.map_lfp]
      exact mem_round.mpr (.inl seen)
    | through seen _ ih =>
      rw [← OrderHom.map_lfp]
      exact mem_round.mpr (.inr ⟨_, seen, ih⟩)
  · have closed : round look {y | Stands look y} ≤ {y | Stands look y} := by
      intro y member
      rcases mem_round.mp member with seen | ⟨children, seen, standing⟩
      · exact .settled seen
      · exact .through seen standing
    exact fun member => OrderHom.lfp_le (round look) closed member

/-! ### Cycles -/

/-- The first stands only if the second does. -/
def Via (look : κ → Look κ) (x y : κ) : Prop := ∃ children, look x = .through children ∧ y ∈ children

theorem Stands.via {look : κ → Look κ} {x y : κ} (stands : Stands look x) (via : Via look x y) :
    Stands look y := by
  obtain ⟨children, seen, child⟩ := via
  cases stands with
  | settled other => rw [seen] at other; cases other
  | through other standing =>
    rw [seen] at other
    cases other
    exact standing y child

/-- Nothing on a cycle stands. -/
theorem Stands.no_cycle {look : κ → Look κ} {x : κ} (stands : Stands look x) :
    ¬ Relation.TransGen (Via look) x x := by
  induction stands with
  | settled seen =>
    intro cycle
    obtain ⟨_, ⟨children, other, -⟩, -⟩ := Relation.TransGen.head'_iff.mp cycle
    rw [seen] at other
    cases other
  | through seen _ ih =>
    intro cycle
    obtain ⟨y, ⟨children, other, child⟩, back⟩ := Relation.TransGen.head'_iff.mp cycle
    rw [seen] at other
    cases other
    -- the same cycle, started one step later
    exact ih y child (.tail' back ⟨_, seen, child⟩)

/-- Nothing above a cycle stands. -/
theorem Stands.above_no_cycle {look : κ → Look κ} {x y : κ} (stands : Stands look x)
    (path : Relation.ReflTransGen (Via look) x y) : ¬ Relation.TransGen (Via look) y y := by
  refine Stands.no_cycle ?_
  induction path with
  | refl => exact stands
  | tail _ via ih => exact ih.via via

/-! ### The search -/

variable [DecidableEq κ]

structure Memo (κ : Type) where
  verdicts : κ → Option Bool := fun _ => none
  visiting : List κ := []

def Memo.settle (memo : Memo κ) (x : κ) (verdict : Bool) : Memo κ :=
  { memo with verdicts := Function.update memo.verdicts x (some verdict) }

def Memo.visit (memo : Memo κ) (x : κ) : Memo κ := { memo with visiting := x :: memo.visiting }

@[simp] theorem Memo.settle_self (memo : Memo κ) (x : κ) (verdict : Bool) :
    (memo.settle x verdict).verdicts x = some verdict := Function.update_self ..

theorem Memo.settle_other (memo : Memo κ) {x y : κ} (other : y ≠ x) (verdict : Bool) :
    (memo.settle x verdict).verdicts y = memo.verdicts y := Function.update_of_ne other ..

omit [DecidableEq κ] in
@[simp] theorem Memo.visit_verdicts (memo : Memo κ) (x : κ) : (memo.visit x).verdicts = memo.verdicts :=
  rfl

omit [DecidableEq κ] in
@[simp] theorem Memo.mem_visit (memo : Memo κ) {x y : κ} :
    y ∈ (memo.visit x).visiting ↔ y = x ∨ y ∈ memo.visiting := List.mem_cons

@[simp] theorem Memo.settle_visiting (memo : Memo κ) (x : κ) (verdict : Bool) :
    (memo.settle x verdict).visiting = memo.visiting := rfl

/-- The children without a verdict. -/
def Memo.waiting (memo : Memo κ) (children : List κ) : List κ :=
  children.filter fun child => memo.verdicts child = none

/-- One turn with the top of the stack, and the stack after it. -/
def turn (look : κ → Look κ) (memo : Memo κ) (x : κ) (rest : List κ) : Memo κ × List κ :=
  if memo.verdicts x ≠ none then (memo, rest)
  else match look x with
    | .settled verdict => (memo.settle x verdict, x :: rest)
    | .through children =>
      if memo.waiting children ≠ [] ∧ x ∉ memo.visiting then
        if ∃ child ∈ memo.waiting children, child ∈ (memo.visit x).visiting then
          ((memo.visit x).settle x false, x :: rest)
        else (memo.visit x, (memo.waiting children).reverse ++ x :: rest)
      else
        (memo.settle x (children.all fun child => (memo.verdicts child).getD false), x :: rest)

section

variable [Fintype κ]

/-- The elements without a verdict, and those that are not opened. -/
def Memo.left (memo : Memo κ) : Nat :=
  (Finset.univ.filter fun x => memo.verdicts x = none).card +
    (Finset.univ.filter fun x => x ∉ memo.visiting).card

theorem left_settle {memo : Memo κ} {x : κ} (unsettled : memo.verdicts x = none) (verdict : Bool) :
    (memo.settle x verdict).left < memo.left := by
  refine Nat.add_lt_add_right (Finset.card_lt_card ?_) _
  refine (Finset.ssubset_iff_of_subset fun y member => ?_).mpr ⟨x, by simpa using unsettled, by simp⟩
  have none := (Finset.mem_filter.mp member).2
  by_cases same : y = x
  · rw [same, Memo.settle_self] at none
    cases none
  · rw [Memo.settle_other memo same] at none
    exact Finset.mem_filter.mpr ⟨Finset.mem_univ y, none⟩

theorem left_visit {memo : Memo κ} {x : κ} (fresh : x ∉ memo.visiting) :
    (memo.visit x).left < memo.left := by
  refine Nat.add_lt_add_left (Finset.card_lt_card ?_) _
  refine (Finset.ssubset_iff_of_subset fun y member => ?_).mpr ⟨x, by simpa using fresh, by simp⟩
  have unopened := (Finset.mem_filter.mp member).2
  rw [Memo.mem_visit, not_or] at unopened
  exact Finset.mem_filter.mpr ⟨Finset.mem_univ y, unopened.2⟩

end

/-- What a turn does: the top is dropped, settled at once, found on a cycle, opened, or settled by
its children. -/
theorem turn_cases {look : κ → Look κ} {memo : Memo κ} {x : κ} {rest : List κ} :
    (memo.verdicts x ≠ none ∧ turn look memo x rest = (memo, rest)) ∨
    (memo.verdicts x = none ∧ ∃ verdict, look x = .settled verdict ∧
      turn look memo x rest = (memo.settle x verdict, x :: rest)) ∨
    (memo.verdicts x = none ∧ ∃ children, look x = .through children ∧ x ∉ memo.visiting ∧
      (∃ child ∈ memo.waiting children, child ∈ (memo.visit x).visiting) ∧
      turn look memo x rest = ((memo.visit x).settle x false, x :: rest)) ∨
    (memo.verdicts x = none ∧ ∃ children, look x = .through children ∧ x ∉ memo.visiting ∧
      (∀ child ∈ memo.waiting children, child ∉ (memo.visit x).visiting) ∧
      turn look memo x rest = (memo.visit x, (memo.waiting children).reverse ++ x :: rest)) ∨
    (memo.verdicts x = none ∧ ∃ children, look x = .through children ∧
      (memo.waiting children = [] ∨ x ∈ memo.visiting) ∧
      turn look memo x rest =
        (memo.settle x (children.all fun child => (memo.verdicts child).getD false), x :: rest)) := by
  unfold turn
  by_cases unsettled : memo.verdicts x = none
  · simp only [unsettled, ne_eq, not_true_eq_false, if_false, false_and, true_and, false_or]
    cases look x with
    | settled verdict => exact .inl ⟨verdict, rfl, rfl⟩
    | through children =>
      right
      by_cases opens : memo.waiting children ≠ [] ∧ x ∉ memo.visiting
      · by_cases cycle : ∃ child ∈ memo.waiting children, child ∈ (memo.visit x).visiting
        · exact .inl ⟨children, rfl, opens.2, cycle, by simp only [if_pos opens, if_pos cycle]⟩
        · refine .inr (.inl ⟨children, rfl, opens.2, ?_, by simp only [if_pos opens, if_neg cycle]⟩)
          exact fun child waits opened => cycle ⟨child, waits, opened⟩
      · refine .inr (.inr ⟨children, rfl, ?_, by simp only [if_neg opens]⟩)
        by_cases none : memo.waiting children = []
        · exact .inl none
        · exact .inr (not_not.mp fun fresh => opens ⟨none, fresh⟩)
  · exact .inl ⟨unsettled, by rw [if_pos unsettled]⟩

/-- A turn leaves less to do, or drops the top. -/
theorem turn_progress [Fintype κ] (look : κ → Look κ) (memo : Memo κ) (x : κ) (rest : List κ) :
    (turn look memo x rest).1.left < memo.left ∨
      (turn look memo x rest).1.left = memo.left ∧
        (turn look memo x rest).2.length < (x :: rest).length := by
  rcases @turn_cases _ _ look memo x rest with ⟨-, same⟩ | ⟨unsettled, verdict, -, same⟩ |
    ⟨unsettled, children, -, fresh, -, same⟩ | ⟨unsettled, children, -, fresh, -, same⟩ |
    ⟨unsettled, children, -, -, same⟩
  all_goals rw [same]
  · exact .inr ⟨rfl, by simp⟩
  · exact .inl (left_settle unsettled verdict)
  · have opened : (memo.visit x).verdicts x = none := unsettled
    exact .inl ((left_settle opened false).trans (left_visit fresh))
  · exact .inl (left_visit fresh)
  · exact .inl (left_settle unsettled _)

/-- The search from a stack. -/
def search [Fintype κ] (look : κ → Look κ) (memo : Memo κ) : List κ → Memo κ
  | [] => memo
  | x :: rest => search look (turn look memo x rest).1 (turn look memo x rest).2
termination_by pending => (memo.left, pending.length)
decreasing_by
  rcases turn_progress look memo x rest with less | ⟨same, less⟩
  · exact .left _ _ less
  · rw [same]
    exact .right _ less

/-! ### Invariant -/

/-- An opened element lies on the stack below what it stands through: everything above it is reached
from it, and its children without a verdict are among them. -/
def Opened (look : κ → Look κ) (memo : Memo κ) (pending : List κ) (v : κ) : Prop :=
  ∃ above below, pending = above ++ v :: below ∧ v ∉ above ∧
    (∀ x ∈ above, Relation.TransGen (Via look) v x) ∧
    ∀ y, Via look v y → memo.verdicts y ≠ none ∨ y ∈ above

structure Searching (look : κ → Look κ) (memo : Memo κ) (pending : List κ) : Prop where
  sound : ∀ x verdict, memo.verdicts x = some verdict → (verdict = true ↔ Stands look x)
  opened : ∀ v ∈ memo.visiting, memo.verdicts v = none → Opened look memo pending v

variable {look : κ → Look κ} {memo : Memo κ} {x : κ} {rest : List κ}

omit [DecidableEq κ] in
theorem Searching.start : Searching look {} [] where
  sound _ _ known := by cases known
  opened _ member := by cases member

omit [DecidableEq κ] in
/-- At rest every opened element has its verdict, so another search can begin. -/
theorem Searching.again (rested : Searching look memo []) (pending : List κ) :
    Searching look memo pending where
  sound := rested.sound
  opened v member unsettled := by
    obtain ⟨above, below, split, -⟩ := rested.opened v member unsettled
    exact absurd split (by simp)

/-- A correct verdict for the top. -/
theorem Searching.settle (searching : Searching look memo (x :: rest)) {verdict : Bool}
    (correct : verdict = true ↔ Stands look x) :
    Searching look (memo.settle x verdict) (x :: rest) where
  sound y found known := by
    by_cases same : y = x
    · subst same
      rw [Memo.settle_self, Option.some.injEq] at known
      rwa [← known]
    · rw [Memo.settle_other memo same] at known
      exact searching.sound y found known
  opened v member unsettled := by
    have other : v ≠ x := by
      rintro rfl
      rw [Memo.settle_self] at unsettled
      cases unsettled
    rw [Memo.settle_other memo other] at unsettled
    obtain ⟨above, below, split, fresh, reached, children⟩ := searching.opened v member unsettled
    refine ⟨above, below, split, fresh, reached, fun y via => ?_⟩
    by_cases same : y = x
    · exact .inl (by simp [same])
    · rw [Memo.settle_other memo same]
      exact children y via

omit [DecidableEq κ] in
/-- The settled top is dropped. -/
theorem Searching.drop (searching : Searching look memo (x :: rest)) (settled : memo.verdicts x ≠ none) :
    Searching look memo rest where
  sound := searching.sound
  opened v member unsettled := by
    obtain ⟨above, below, split, fresh, reached, children⟩ := searching.opened v member unsettled
    cases above with
    | nil =>
      obtain ⟨rfl, -⟩ := List.cons.inj split
      exact absurd unsettled settled
    | cons top above =>
      obtain ⟨rfl, tail⟩ := List.cons.inj split
      refine ⟨above, below, tail, fun inside => fresh (List.mem_cons_of_mem _ inside),
        fun y inside => reached y (List.mem_cons_of_mem _ inside), fun y via => ?_⟩
      rcases children y via with known | inside
      · exact .inl known
      · rcases List.mem_cons.mp inside with rfl | later
        · exact .inl settled
        · exact .inr later

omit [DecidableEq κ] in
/-- The top is reached from every other opened element. -/
theorem Searching.reached (searching : Searching look memo (x :: rest)) {v : κ}
    (member : v ∈ memo.visiting) (unsettled : memo.verdicts v = none) (other : v ≠ x) :
    Relation.TransGen (Via look) v x := by
  obtain ⟨above, below, split, -, reached, -⟩ := searching.opened v member unsettled
  cases above with
  | nil => exact absurd (List.cons.inj split).1.symm other
  | cons top above =>
    obtain ⟨rfl, -⟩ := List.cons.inj split
    exact reached x (List.mem_cons_self ..)

omit [DecidableEq κ] in
/-- The top is opened with its waiting children above it. -/
theorem Searching.opens (searching : Searching look memo (x :: rest)) {children : List κ}
    (seen : look x = .through children) (fresh : x ∉ memo.visiting)
    (unopened : ∀ child ∈ memo.waiting children, child ∉ (memo.visit x).visiting) :
    Searching look (memo.visit x) ((memo.waiting children).reverse ++ x :: rest) where
  sound := searching.sound
  opened v member unsettled := by
    have step : ∀ y ∈ (memo.waiting children).reverse, Via look x y := fun y inside =>
      ⟨children, seen, List.mem_of_mem_filter (List.mem_reverse.mp inside)⟩
    rcases (Memo.mem_visit memo).mp member with rfl | before
    · refine ⟨_, rest, rfl, fun inside => ?_, fun y inside => .single (step y inside), ?_⟩
      · exact unopened v (List.mem_reverse.mp inside) member
      · rintro y ⟨other, seen', child⟩
        rw [seen] at seen'
        cases seen'
        by_cases known : memo.verdicts y = none
        · exact .inr (List.mem_reverse.mpr (List.mem_filter.mpr ⟨child, decide_eq_true known⟩))
        · exact .inl known
    · have other : v ≠ x := fun same => fresh (same ▸ before)
      have top := searching.reached before unsettled other
      obtain ⟨above, below, split, unlisted, reached, named⟩ :=
        searching.opened v before unsettled
      refine ⟨(memo.waiting children).reverse ++ above, below, ?_, ?_, ?_, fun y via => ?_⟩
      · rw [split, List.append_assoc]
      · rw [List.mem_append, not_or]
        exact ⟨fun inside => unopened v (List.mem_reverse.mp inside) member, unlisted⟩
      · intro y inside
        rcases List.mem_append.mp inside with child | listed
        · exact top.tail (step y child)
        · exact reached y listed
      · rcases named y via with known | inside
        · exact .inl known
        · exact .inr (List.mem_append_right _ inside)

omit [DecidableEq κ] in
/-- A child that is opened and has no verdict closes a cycle. -/
theorem Searching.cycle (searching : Searching look memo (x :: rest)) {child : κ}
    (via : Via look x child) (unsettled : memo.verdicts child = none)
    (opened : child = x ∨ child ∈ memo.visiting) : ¬ Stands look x := by
  intro stands
  by_cases same : child = x
  · exact stands.no_cycle (.single (same ▸ via))
  · have member := opened.resolve_left same
    exact stands.no_cycle (.head via (searching.reached member unsettled same))

omit [DecidableEq κ] in
/-- An opened top finds all its children settled. -/
theorem Searching.children_settled (searching : Searching look memo (x :: rest))
    (unsettled : memo.verdicts x = none) (opened : x ∈ memo.visiting) {y : κ} (via : Via look x y) :
    memo.verdicts y ≠ none := by
  obtain ⟨above, below, split, fresh, -, children⟩ := searching.opened x opened unsettled
  cases above with
  | nil => exact (children y via).resolve_right (List.not_mem_nil)
  | cons top above =>
    obtain ⟨rfl, -⟩ := List.cons.inj split
    exact absurd (List.mem_cons_self ..) fresh

omit [DecidableEq κ] in
/-- The verdicts of the children decide the top. -/
theorem Searching.all_children (searching : Searching look memo (x :: rest)) {children : List κ}
    (seen : look x = .through children) (settled : ∀ y ∈ children, memo.verdicts y ≠ none) :
    (children.all fun child => (memo.verdicts child).getD false) = true ↔ Stands look x := by
  have each : ∀ y ∈ children, (memo.verdicts y).getD false = true ↔ Stands look y := by
    intro y child
    obtain ⟨verdict, known⟩ := Option.ne_none_iff_exists'.mp (settled y child)
    rw [known]
    exact searching.sound y verdict known
  rw [List.all_eq_true]
  constructor
  · exact fun all => .through seen fun y child => (each y child).mp (all y child)
  · exact fun stands y child => (each y child).mpr (stands.via ⟨children, seen, child⟩)

theorem Searching.turn (searching : Searching look memo (x :: rest)) :
    Searching look (turn look memo x rest).1 (turn look memo x rest).2 := by
  rcases @turn_cases _ _ look memo x rest with ⟨settled, same⟩ | ⟨-, verdict, seen, same⟩ |
    ⟨unsettled, children, seen, -, ⟨child, waits, opened⟩, same⟩ |
    ⟨-, children, seen, fresh, unopened, same⟩ | ⟨unsettled, children, seen, ready, same⟩
  all_goals rw [same]
  · exact searching.drop settled
  · refine searching.settle ⟨fun holds => .settled (holds ▸ seen), fun stands => ?_⟩
    cases stands with
    | settled other => rw [seen] at other; exact Look.settled.inj other
    | through other => rw [seen] at other; cases other
  · -- the cycle is found before the top is opened for good
    obtain ⟨named, none⟩ := List.mem_filter.mp waits
    have falls := searching.cycle ⟨children, seen, named⟩ (of_decide_eq_true none)
      ((Memo.mem_visit memo).mp opened)
    have settled := searching.settle (iff_of_false Bool.false_ne_true falls)
    refine ⟨settled.sound, fun v member unsettled => ?_⟩
    rcases (Memo.mem_visit memo).mp member with rfl | before
    · exact absurd unsettled (by simp)
    · exact settled.opened v before unsettled
  · exact searching.opens seen fresh unopened
  · refine searching.settle (searching.all_children seen fun y child => ?_)
    rcases ready with none | opened
    · intro unknown
      have waits : y ∈ memo.waiting children := List.mem_filter.mpr ⟨child, decide_eq_true unknown⟩
      rw [none] at waits
      cases waits
    · exact searching.children_settled unsettled opened ⟨children, seen, child⟩

/-- What has a verdict keeps one, and what leaves the stack has one. -/
theorem turn_settles {y : κ} (known : memo.verdicts y ≠ none ∨ y ∈ x :: rest) :
    (turn look memo x rest).1.verdicts y ≠ none ∨ y ∈ (turn look memo x rest).2 := by
  have settles : ∀ memo' : Memo κ, memo'.verdicts = memo.verdicts → ∀ verdict,
      (memo'.settle x verdict).verdicts y ≠ none ∨ y ∈ x :: rest := by
    intro memo' same verdict
    refine known.imp_left fun before => ?_
    by_cases top : y = x
    · simp [top]
    · rwa [Memo.settle_other memo' top, same]
  rcases @turn_cases _ _ look memo x rest with ⟨settled, same⟩ | ⟨-, verdict, -, same⟩ |
    ⟨-, children, -, -, -, same⟩ | ⟨-, children, -, -, -, same⟩ | ⟨-, children, -, -, same⟩
  all_goals rw [same]
  · rcases known with before | inside
    · exact .inl before
    · rcases List.mem_cons.mp inside with rfl | later
      · exact .inl settled
      · exact .inr later
  · exact settles memo rfl verdict
  · exact settles (memo.visit x) rfl false
  · exact known.imp_right (List.mem_append_right _)
  · exact settles memo rfl _

section

variable [Fintype κ]

theorem Searching.search {pending : List κ} (searching : Searching look memo pending) :
    Searching look (search look memo pending) [] := by
  induction memo, pending using Verdict.search.induct look with
  | case1 memo => rwa [Verdict.search]
  | case2 memo x rest ih =>
    rw [Verdict.search]
    exact ih searching.turn

theorem search_settles {pending : List κ} {y : κ} (known : memo.verdicts y ≠ none ∨ y ∈ pending) :
    (search look memo pending).verdicts y ≠ none := by
  induction memo, pending using Verdict.search.induct look with
  | case1 memo =>
    rw [Verdict.search]
    exact known.resolve_right List.not_mem_nil
  | case2 memo x rest ih =>
    rw [Verdict.search]
    exact ih (turn_settles known)

/-- A search from one element gives its least verdict, and leaves the memo ready for the next. -/
theorem search_verdict (rested : Searching look memo []) (x : κ) :
    Searching look (search look memo [x]) [] ∧
      ∃ verdict, (search look memo [x]).verdicts x = some verdict ∧
        (verdict = true ↔ Stands look x) := by
  have done := (rested.again [x]).search
  have settled : (search look memo [x]).verdicts x ≠ none :=
    search_settles (.inr (List.mem_singleton.mpr rfl))
  obtain ⟨verdict, known⟩ := Option.ne_none_iff_exists'.mp settled
  exact ⟨done, verdict, known, done.sound x verdict known⟩

end

end Verdict
