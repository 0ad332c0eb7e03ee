import Mathlib.Data.List.Perm.Subperm
import Mathlib.Data.Set.Card
import Mathlib.Logic.Relation

/-!
Bounded walks over a graph that is given by the children of each vertex.

A breadth-first walk collects what it reaches until a limit; when it reports that nothing was cut
off, it has everything. A search for one vertex expands a limited number of vertices; when the
vertices reachable from its start are no more than that, its negative answer is the truth. A
depth-first expansion puts children before their parents, and without a cycle it meets none.
-/
namespace Walk

open Relation

variable {α : Type} [DecidableEq α]

/-- One step to a child. -/
def Child (children : α → List α) (x y : α) : Prop := y ∈ children x

omit [DecidableEq α] in
/-- A set that contains the children of its members contains all that they reach. -/
theorem closed_reaches {children : α → List α} {x y : α} (inside : α → Prop)
    (closed : ∀ x, inside x → ∀ y ∈ children x, inside y) (start : inside x)
    (path : ReflTransGen (Child children) x y) : inside y := by
  induction path with
  | refl => exact start
  | tail _ edge ih => exact closed _ ih _ edge

/-! ### Collecting -/

/-- Append the unseen targets to what was reached and to the queue; the error is what was reached
when the limit cut the walk off. -/
def visit (start : α) (limit : Nat) : List α → List α → List α → Except (List α) (List α × List α)
  | [], reached, queue => .ok (reached, queue)
  | target :: targets, reached, queue =>
    if target = start ∨ target ∈ reached then visit start limit targets reached queue
    else if limit ≤ reached.length then .error reached
    else visit start limit targets (reached ++ [target]) (queue ++ [target])

/-- Take vertices off the queue. Each one that was queued uses one unit of the limit, so the fuel
`queue.length + (limit - reached.length)` always empties the queue. -/
def collect (children : α → List α) (start : α) (limit : Nat) :
    Nat → List α → List α → List α × Bool
  | 0, reached, _ => (reached, false)
  | _ + 1, reached, [] => (reached, false)
  | fuel + 1, reached, current :: queue =>
    match visit start limit (children current) reached queue with
    | .error reached => (reached, true)
    | .ok (reached, queue) => collect children start limit fuel reached queue

/-- What the vertex reaches, without itself, and whether the limit cut it off. -/
def closure (children : α → List α) (start : α) (limit : Nat) : List α × Bool :=
  collect children start limit (limit + 1) [] [start]

variable {children : α → List α} {start : α} {limit : Nat}

/-- Visiting queues exactly what it adds, and adds every target. -/
theorem visit_ok {targets reached queue : List α} {after : List α × List α}
    (visited : visit start limit targets reached queue = .ok after) (bound : reached.length ≤ limit) :
    ∃ fresh, after = (reached ++ fresh, queue ++ fresh) ∧ (reached ++ fresh).length ≤ limit ∧
      ∀ target ∈ targets, target = start ∨ target ∈ reached ++ fresh := by
  induction targets generalizing reached queue with
  | nil =>
    obtain rfl := Except.ok.inj visited
    exact ⟨[], by simp, by simpa using bound, by simp⟩
  | cons target targets ih =>
    unfold visit at visited
    split at visited
    next seen =>
      obtain ⟨fresh, same, within, all⟩ := ih visited bound
      refine ⟨fresh, same, within, fun other member => ?_⟩
      rcases List.mem_cons.mp member with rfl | later
      · exact seen.imp_right (List.mem_append_left _)
      · exact all other later
    next unseen =>
      split at visited
      · exact nomatch visited
      next room =>
        have longer : (reached ++ [target]).length ≤ limit := by
          rw [List.length_append, List.length_singleton]
          omega
        obtain ⟨fresh, same, within, all⟩ := ih visited longer
        rw [List.append_assoc, List.singleton_append] at same within all
        refine ⟨target :: fresh, by rw [same, List.append_assoc]; rfl, within,
          fun other member => ?_⟩
        rcases List.mem_cons.mp member with rfl | later
        · exact .inr (List.mem_append_right _ List.mem_cons_self)
        · exact all other later

/-- The walk keeps: what was reached and is no longer queued has its children reached. -/
theorem collect_closed {fuel : Nat} {reached queue result : List α}
    (ended : collect children start limit fuel reached queue = (result, false))
    (bound : reached.length ≤ limit) (enough : queue.length + (limit - reached.length) ≤ fuel)
    (settled : ∀ x, x = start ∨ x ∈ reached → x ∉ queue → ∀ y ∈ children x,
      y = start ∨ y ∈ reached) :
    ∀ x, x = start ∨ x ∈ result → ∀ y ∈ children x, y = start ∨ y ∈ result := by
  induction fuel generalizing reached queue with
  | zero =>
    obtain ⟨rfl, -⟩ := Prod.mk.inj ended
    have empty : queue = [] := List.length_eq_zero_iff.mp (by omega)
    exact fun x inside => settled x inside (by simp [empty])
  | succ fuel ih =>
    cases queue with
    | nil =>
      obtain ⟨rfl, -⟩ := Prod.mk.inj ended
      exact fun x inside => settled x inside (by simp)
    | cons current queue =>
      unfold collect at ended
      split at ended
      · exact nomatch (Prod.mk.inj ended).2
      next reached' queue' visited =>
        obtain ⟨fresh, same, within, all⟩ := visit_ok visited bound
        obtain ⟨rfl, rfl⟩ := Prod.mk.inj same
        refine ih ended within ?_ fun x inside unqueued y child => ?_
        · rw [List.length_cons] at enough
          rw [List.length_append] at within ⊢
          rw [List.length_append]
          omega
        · by_cases here : x = current
          · exact all y (here ▸ child)
          · have old : x = start ∨ x ∈ reached := by
              refine inside.imp_right fun member => ?_
              rcases List.mem_append.mp member with old | new
              · exact old
              · exact absurd (List.mem_append_right _ new) unqueued
            have waiting : x ∉ current :: queue := by
              intro member
              rcases List.mem_cons.mp member with same | later
              · exact here same
              · exact unqueued (List.mem_append_left _ later)
            exact (settled x old waiting y child).imp_right (List.mem_append_left _)

/-- A walk that was not cut off has everything the start reaches. -/
theorem closure_complete {result : List α} (ended : closure children start limit = (result, false))
    {x : α} (path : ReflTransGen (Child children) start x) : x = start ∨ x ∈ result := by
  have closed := collect_closed ended (Nat.zero_le _) (by simp; omega) (by simp)
  exact closed_reaches (fun x => x = start ∨ x ∈ result) closed (.inl rfl) path

/-- What a walk has collected: vertices other than the start, each once, that the start reaches. -/
structure Collected (children : α → List α) (start : α) (limit : Nat) (reached : List α) : Prop where
  distinct : reached.Nodup
  others : ∀ x ∈ reached, x ≠ start ∧ ReflTransGen (Child children) start x
  bounded : reached.length ≤ limit

omit [DecidableEq α] in
theorem Collected.concat {reached : List α} {x : α} (collected : Collected children start limit reached)
    (other : x ≠ start) (path : ReflTransGen (Child children) start x) (fresh : x ∉ reached)
    (room : reached.length < limit) : Collected children start limit (reached ++ [x]) where
  distinct := List.nodup_append.mpr ⟨collected.distinct, List.nodup_singleton x, by
    rintro y member z last rfl
    exact fresh (List.mem_singleton.mp last ▸ member)⟩
  others := by
    intro y member
    rcases List.mem_append.mp member with old | new
    · exact collected.others y old
    · exact List.mem_singleton.mp new ▸ ⟨other, path⟩
  bounded := by
    rw [List.length_append, List.length_singleton]
    exact room

/-- The limit is used up, and the start reaches one more vertex. -/
def CutOff (children : α → List α) (start : α) (limit : Nat) (reached : List α) : Prop :=
  reached.length = limit ∧
    ∃ more, more ∉ reached ∧ more ≠ start ∧ ReflTransGen (Child children) start more

/-- Visiting children of what the start reaches keeps what was collected, and is cut off at a vertex
that is one too many. -/
theorem visit_collected {targets reached queue : List α}
    (collected : Collected children start limit reached)
    (found : ∀ x ∈ targets, ReflTransGen (Child children) start x)
    (queued : ∀ x ∈ queue, ReflTransGen (Child children) start x) :
    (∀ after waiting, visit start limit targets reached queue = .ok (after, waiting) →
      Collected children start limit after ∧
        ∀ x ∈ waiting, ReflTransGen (Child children) start x) ∧
    ∀ after, visit start limit targets reached queue = .error after →
      Collected children start limit after ∧ CutOff children start limit after := by
  induction targets generalizing reached queue with
  | nil =>
    constructor
    · intro after waiting visited
      obtain ⟨rfl, rfl⟩ := Prod.mk.inj (Except.ok.inj visited)
      exact ⟨collected, queued⟩
    · intro after visited
      cases visited
  | cons target targets ih =>
    have later : ∀ x ∈ targets, ReflTransGen (Child children) start x := fun x member =>
      found x (List.mem_cons_of_mem _ member)
    have path := found target List.mem_cons_self
    unfold visit
    split
    next seen => exact ih collected later queued
    next unseen =>
      obtain ⟨other, fresh⟩ := not_or.mp unseen
      split
      next full =>
        constructor
        · intro after waiting visited
          cases visited
        · intro after visited
          obtain rfl := Except.error.inj visited
          exact ⟨collected, Nat.le_antisymm collected.bounded full, target, fresh, other, path⟩
      next room =>
        apply ih (collected.concat other path fresh (Nat.not_le.mp room)) later
        intro x member
        rcases List.mem_append.mp member with old | new
        · exact queued x old
        · exact List.mem_singleton.mp new ▸ path

theorem collect_collected {fuel : Nat} {reached queue result : List α} {cut : Bool}
    (collected : Collected children start limit reached)
    (queued : ∀ x ∈ queue, ReflTransGen (Child children) start x)
    (ended : collect children start limit fuel reached queue = (result, cut)) :
    Collected children start limit result ∧
      (cut = true → CutOff children start limit result) := by
  induction fuel generalizing reached queue with
  | zero =>
    obtain ⟨rfl, rfl⟩ := Prod.mk.inj ended
    exact ⟨collected, fun cut => by cases cut⟩
  | succ fuel ih =>
    cases queue with
    | nil =>
      obtain ⟨rfl, rfl⟩ := Prod.mk.inj ended
      exact ⟨collected, fun cut => by cases cut⟩
    | cons current queue =>
      have below : ∀ x ∈ children current, ReflTransGen (Child children) start x := fun x child =>
        (queued current List.mem_cons_self).tail child
      have waiting : ∀ x ∈ queue, ReflTransGen (Child children) start x := fun x member =>
        queued x (List.mem_cons_of_mem _ member)
      obtain ⟨whole, part⟩ := visit_collected collected below waiting
      unfold collect at ended
      split at ended
      next after visited =>
        obtain ⟨rfl, rfl⟩ := Prod.mk.inj ended
        obtain ⟨kept, cutOff⟩ := part _ visited
        exact ⟨kept, fun _ => cutOff⟩
      next after queue' visited =>
        obtain ⟨kept, still⟩ := whole _ _ visited
        exact ih kept still ended

/-- The vertices that the start reaches, without itself. -/
def Others (children : α → List α) (start : α) : Set α :=
  {x | x ≠ start ∧ ReflTransGen (Child children) start x}

variable (children start limit) in
theorem closure_collected :
    Collected children start limit (closure children start limit).1 ∧
      ((closure children start limit).2 = true →
        CutOff children start limit (closure children start limit).1) := by
  have initially : Collected children start limit [] := ⟨List.nodup_nil, by simp, Nat.zero_le _⟩
  apply collect_collected initially
  · intro x member
    exact List.mem_singleton.mp member ▸ .refl
  · exact (rfl : closure children start limit = _)

/-- A walk that was not cut off has what the start reaches, each vertex once. -/
theorem closure_exact (whole : (closure children start limit).2 = false) :
    {x | x ∈ (closure children start limit).1} = Others children start := by
  ext x
  constructor
  · exact (closure_collected children start limit).1.others x
  · rintro ⟨other, path⟩
    exact (closure_complete (Prod.ext rfl whole) path).resolve_left other

omit [DecidableEq α] in
/-- A list without duplicates has as many members as it is long. -/
theorem encard_mem {list : List α} (distinct : list.Nodup) :
    {x | x ∈ list}.encard = list.length := by
  classical
  rw [← List.toFinset_card_of_nodup distinct, ← Set.encard_coe_eq_coe_finsetCard,
    List.coe_toFinset]

variable (children start limit) in
/-- The walk is cut off exactly when the start reaches more vertices than the limit. -/
theorem closure_cut_iff :
    (closure children start limit).2 = true ↔ limit < (Others children start).encard := by
  obtain ⟨collected, cutOff⟩ := closure_collected children start limit
  constructor
  · intro cut
    obtain ⟨full, more, fresh, other, path⟩ := cutOff cut
    have inner : {x | x ∈ more :: (closure children start limit).1} ⊆ Others children start := by
      intro x member
      rcases List.mem_cons.mp member with rfl | old
      · exact ⟨other, path⟩
      · exact collected.others x old
    have many := Set.encard_le_encard inner
    rw [encard_mem (List.nodup_cons.mpr ⟨fresh, collected.distinct⟩), List.length_cons, full] at many
    exact (ENat.natCast_lt_natCast.mpr (Nat.lt_succ_self limit)).trans_le many
  · intro many
    by_contra whole
    have exact_ := closure_exact (Bool.eq_false_iff.mpr whole)
    rw [← exact_, encard_mem collected.distinct] at many
    exact absurd (ENat.natCast_lt_natCast.mp many) (Nat.not_lt.mpr collected.bounded)

/-! ### Searching -/

/-- Take vertices off the queue until one was not expanded, which `next` expands. Once the limit is
used up every vertex is passed over. -/
def scan (vertex : α) (limit : Nat) (seen : List α) (next : α → List α → Bool) : List α → Bool
  | [] => false
  | current :: queue =>
    if current = vertex then true
    else if current ∈ seen ∨ limit ≤ seen.length then scan vertex limit seen next queue
    else next current queue

/-- Whether the search meets the vertex. Each expansion uses one unit of the limit, so the limit is
fuel enough. -/
def searchFrom (children : α → List α) (vertex : α) (limit : Nat) :
    Nat → List α → List α → Bool
  | 0, seen, queue => scan vertex limit seen (fun _ _ => false) queue
  | fuel + 1, seen, queue =>
    scan vertex limit seen (fun current queue =>
      searchFrom children vertex limit fuel (current :: seen) (queue ++ children current)) queue

def search (children : α → List α) (vertex : α) (limit : Nat) (queue : List α) : Bool :=
  searchFrom children vertex limit limit [] queue

variable {vertex : α}

/-- A scan that did not meet the vertex passed over its queue, or over what stands before the vertex
that it expanded. -/
theorem scan_false {seen queue : List α} {next : α → List α → Bool}
    (missed : scan vertex limit seen next queue = false) :
    (∀ x ∈ queue, x ∈ seen ∨ limit ≤ seen.length) ∨
      ∃ passed current rest, queue = passed ++ current :: rest ∧ (∀ x ∈ passed, x ∈ seen) ∧
        current ≠ vertex ∧ current ∉ seen ∧ seen.length < limit ∧ next current rest = false := by
  induction queue with
  | nil => exact .inl fun _ member => nomatch member
  | cons current queue ih =>
    unfold scan at missed
    split at missed
    · exact nomatch missed
    next distinct =>
      split at missed
      next beyond =>
        rcases ih missed with every | ⟨passed, other, rest, rfl, known, apart⟩
        · refine .inl fun x member => ?_
          rcases List.mem_cons.mp member with rfl | later
          · exact beyond
          · exact every x later
        · have old : current ∈ seen := beyond.resolve_right (Nat.not_le.mpr apart.2.2.1)
          refine .inr ⟨current :: passed, other, rest, rfl, ?_, apart⟩
          exact List.forall_mem_cons.mpr ⟨old, known⟩
      next fresh =>
        obtain ⟨unseen, room⟩ := not_or.mp fresh
        exact .inr ⟨[], current, queue, rfl, by simp, distinct, unseen, Nat.not_le.mp room, missed⟩

/-- Some closed set contains the expanded and the queued vertices and not the one looked for. -/
def Apart (children : α → List α) (vertex : α) (seen queue : List α) : Prop :=
  ∃ inside : α → Prop, (∀ x ∈ seen, inside x) ∧ (∀ x ∈ queue, inside x) ∧
    (∀ x, inside x → ∀ y ∈ children x, inside y) ∧ ¬ inside vertex

omit [DecidableEq α] in
/-- A queue that is passed over leaves the expanded vertices: once the limit is used up they are all
the vertices that there are. -/
theorem apart_passed {within seen queue : List α} (few : within.length ≤ limit)
    (distinct : seen.Nodup)
    (expanded : ∀ x ∈ seen, x ∈ within ∧ x ≠ vertex ∧ ∀ y ∈ children x, y ∈ seen ∨ y ∈ queue)
    (queued : ∀ x ∈ queue, x ∈ within) (beyond : ∀ x ∈ queue, x ∈ seen ∨ limit ≤ seen.length) :
    Apart children vertex seen queue := by
  have old : ∀ x ∈ queue, x ∈ seen := by
    intro x member
    rcases beyond x member with old | used
    · exact old
    · have inner : seen.Subperm within := distinct.subperm fun x member => (expanded x member).1
      have all : seen.Perm within := inner.perm_of_length_le (Nat.le_trans few used)
      exact all.mem_iff.mpr (queued x member)
  refine ⟨(· ∈ seen), fun _ => id, old, fun x inside y child => ?_, ?_⟩
  · rcases (expanded x inside).2.2 y child with known | waits
    · exact known
    · exact old y waits
  · exact fun inside => (expanded vertex inside).2.1 rfl

/-- A search that did not meet the vertex, over no more vertices than the limit, kept apart from
it. -/
theorem search_apart {within seen queue : List α} {fuel : Nat}
    (missed : searchFrom children vertex limit fuel seen queue = false)
    (enough : limit ≤ seen.length + fuel) (few : within.length ≤ limit)
    (covers : ∀ x ∈ within, ∀ y ∈ children x, y ∈ within) (distinct : seen.Nodup)
    (expanded : ∀ x ∈ seen, x ∈ within ∧ x ≠ vertex ∧ ∀ y ∈ children x, y ∈ seen ∨ y ∈ queue)
    (queued : ∀ x ∈ queue, x ∈ within) : Apart children vertex seen queue := by
  induction fuel generalizing seen queue with
  | zero =>
    rcases scan_false missed with beyond | ⟨_, _, _, -, -, -, -, room, -⟩
    · exact apart_passed few distinct expanded queued beyond
    · omega
  | succ fuel ih =>
    rcases scan_false missed with beyond | ⟨passed, current, rest, rfl, known, apart, fresh, -, later⟩
    · exact apart_passed few distinct expanded queued beyond
    have here := queued current (List.mem_append_right _ List.mem_cons_self)
    have settled : ∀ x ∈ current :: seen, x ∈ within ∧ x ≠ vertex ∧
        ∀ y ∈ children x, y ∈ current :: seen ∨ y ∈ rest ++ children current := by
      intro x member
      rcases List.mem_cons.mp member with rfl | old
      · exact ⟨here, apart, fun y child => .inr (List.mem_append_right _ child)⟩
      · obtain ⟨inner, other, next⟩ := expanded x old
        refine ⟨inner, other, fun y child => ?_⟩
        rcases next y child with seen | waits
        · exact .inl (List.mem_cons_of_mem _ seen)
        · rcases List.mem_append.mp waits with before | after
          · exact .inl (List.mem_cons_of_mem _ (known y before))
          · rcases List.mem_cons.mp after with rfl | after
            · exact .inl List.mem_cons_self
            · exact .inr (List.mem_append_left _ after)
    have waits : ∀ x ∈ rest ++ children current, x ∈ within := by
      intro x member
      rcases List.mem_append.mp member with later | child
      · exact queued x (List.mem_append_right _ (List.mem_cons_of_mem _ later))
      · exact covers current here x child
    obtain ⟨inside, kept, waiting, closed, absent⟩ :=
      ih later (by rw [List.length_cons]; omega) (List.nodup_cons.mpr ⟨fresh, distinct⟩) settled
        waits
    refine ⟨inside, fun x member => kept x (List.mem_cons_of_mem _ member), fun x member => ?_,
      closed, absent⟩
    rcases List.mem_append.mp member with before | after
    · exact kept x (List.mem_cons_of_mem _ (known x before))
    · rcases List.mem_cons.mp after with rfl | after
      · exact kept _ List.mem_cons_self
      · exact waiting x (List.mem_append_left _ after)

/-- The search is right when the vertices reachable from its start fit the limit. -/
theorem search_complete {within queue : List α}
    (missed : search children vertex limit queue = false) (few : within.length ≤ limit)
    (covers : ∀ x ∈ within, ∀ y ∈ children x, y ∈ within) (queued : ∀ x ∈ queue, x ∈ within)
    {x : α} (start : x ∈ queue) : ¬ ReflTransGen (Child children) x vertex := by
  obtain ⟨inside, -, waiting, closed, absent⟩ :=
    search_apart missed (by simp) few covers List.nodup_nil (by simp) queued
  exact fun path => absent (closed_reaches inside closed (waiting x start) path)

/-! ### Expanding -/

/-- Why an expansion ends early. -/
inductive Stop where
  | cycle | limit
  deriving DecidableEq

/-- Append the vertices with their children first. The active vertices are the path to here; each
level of it uses one unit of the limit, so the limit is fuel enough. -/
def expand (children : α → List α) (limit : Nat) (fuel : Nat) (active : List α) :
    List α → List α → Except Stop (List α)
  | [], finished => .ok finished
  | vertex :: rest, finished =>
    if vertex ∈ finished then expand children limit fuel active rest finished
    else if vertex ∈ active then .error .cycle
    else if limit ≤ finished.length + active.length then .error .limit
    else match fuel with
      | 0 => .error .limit
      | fuel + 1 =>
        match expand children limit fuel (vertex :: active) (children vertex) finished with
        | .error stop => .error stop
        | .ok finished => expand children limit (fuel + 1) active rest (finished ++ [vertex])
  termination_by vertices => (fuel, vertices.length)

/-- Without a cycle below the active path the expansion does not stop at one. -/
theorem expand_acyclic {fuel : Nat} {active vertices finished : List α}
    (acyclic : ∀ x, ¬ TransGen (Child children) x x)
    (below : ∀ above ∈ active, ∀ vertex ∈ vertices, TransGen (Child children) above vertex) :
    expand children limit fuel active vertices finished ≠ .error .cycle := by
  fun_induction expand children limit fuel active vertices finished with
  | case1 fuel active finished => exact fun stop => nomatch stop
  | case2 fuel active vertex rest finished known ih =>
    exact ih fun above member other later => below above member other (List.mem_cons_of_mem _ later)
  | case3 fuel active vertex rest finished fresh inside =>
    exact absurd (below vertex inside vertex List.mem_cons_self) (acyclic vertex)
  | case4 fuel active vertex rest finished fresh outside full => exact fun stop => nomatch stop
  | case5 active vertex rest finished fresh outside room => exact fun stop => nomatch stop
  | case6 active vertex rest finished fresh outside room fuel stop expanded ih =>
    have under : ∀ above ∈ vertex :: active, ∀ child ∈ children vertex,
        TransGen (Child children) above child := by
      intro above member child edge
      rcases List.mem_cons.mp member with rfl | earlier
      · exact .single edge
      · exact (below above earlier vertex List.mem_cons_self).tail edge
    intro stopped
    obtain rfl := Except.error.inj stopped
    exact ih under expanded
  | case7 active vertex rest finished fresh outside room fuel done expanded _ ih =>
    exact ih fun above member other later => below above member other (List.mem_cons_of_mem _ later)

/-- The vertices are expanded one after the other. -/
theorem expand_cons {fuel : Nat} {active rest finished : List α} {vertex : α} :
    expand children limit fuel active (vertex :: rest) finished =
      (expand children limit fuel active [vertex] finished).bind fun finished =>
        expand children limit fuel active rest finished := by
  rw [expand.eq_def, expand.eq_def children limit fuel active [vertex]]
  dsimp only
  split
  · rw [expand]
    rfl
  split
  · rfl
  split
  · rfl
  cases fuel with
  | zero => rfl
  | succ fuel =>
    dsimp only
    split
    · rfl
    · rw [expand]
      rfl

/-- The vertex is finished behind its children. -/
theorem expand_vertex {fuel : Nat} {active finished : List α} {vertex : α} (fresh : vertex ∉ finished)
    (outside : vertex ∉ active) (room : finished.length + active.length < limit) :
    expand children limit (fuel + 1) active [vertex] finished =
      (expand children limit fuel (vertex :: active) (children vertex) finished).map (· ++ [vertex]) := by
  rw [expand.eq_def]
  simp only [if_neg fresh, if_neg outside, if_neg (Nat.not_le.mpr room)]
  split <;> rename_i below <;> rw [below]
  · rfl
  · rw [expand]
    rfl

/-- Each vertex stands behind its children. -/
def ChildrenFirst (children : α → List α) (list : List α) : Prop :=
  ∀ before x after, list = before ++ x :: after → ∀ y ∈ children x, y ∈ before

omit [DecidableEq α] in
theorem ChildrenFirst.concat {list : List α} {x : α} (first : ChildrenFirst children list)
    (known : ∀ y ∈ children x, y ∈ list) : ChildrenFirst children (list ++ [x]) := by
  intro before z after split y child
  rcases List.eq_nil_or_concat after with rfl | ⟨after, last, rfl⟩
  · obtain ⟨rfl, same⟩ := List.append_inj' split rfl
    obtain rfl := List.head_eq_of_cons_eq same
    exact known y child
  · rw [List.concat_eq_append, ← List.cons_append, ← List.append_assoc] at split
    exact first before z after (List.append_inj_left' split rfl) y child

omit [DecidableEq α] in
theorem ChildrenFirst.nil : ChildrenFirst children [] := by
  intro before x after split
  cases before <;> cases split

omit [DecidableEq α] in
/-- Such a list has all that its members reach. -/
theorem ChildrenFirst.reaches {list : List α} (first : ChildrenFirst children list) {x y : α}
    (listed : x ∈ list) (path : ReflTransGen (Child children) x y) : y ∈ list := by
  refine closed_reaches (· ∈ list) (fun x inside y child => ?_) listed path
  obtain ⟨before, after, rfl⟩ := List.append_of_mem inside
  exact List.mem_append_left _ (first before x after rfl y child)

/-- Where children stand first, a path leads forward in the list only. -/
theorem ChildrenFirst.acyclic {list : List α} (first : ChildrenFirst children list) {x : α}
    (listed : x ∈ list) : ¬ TransGen (Child children) x x := by
  have earlier : ∀ x ∈ list, ∀ y ∈ children x, y ∈ list ∧ list.idxOf y < list.idxOf x := by
    intro x listed y child
    obtain ⟨before, after, rfl, fresh⟩ := List.eq_append_cons_of_mem listed
    have there := first before x after rfl y child
    refine ⟨List.mem_append_left _ there, ?_⟩
    rw [List.idxOf_append_of_mem there, List.idxOf_append_of_notMem fresh, List.idxOf_cons_self]
    exact List.idxOf_lt_length_of_mem there
  intro cycle
  have forward : ∀ y, TransGen (Child children) x y → y ∈ list ∧ list.idxOf y < list.idxOf x := by
    intro y path
    induction path with
    | single edge => exact earlier x listed _ edge
    | tail _ edge ih =>
      obtain ⟨inside, less⟩ := earlier _ ih.1 _ edge
      exact ⟨inside, Nat.lt_trans less ih.2⟩
  exact Nat.lt_irrefl _ (forward x cycle).2

/-- What an expansion that ends has put behind what was finished. -/
structure Expands (children : α → List α) (limit : Nat) (active vertices finished result : List α) :
    Prop where
  added : ∃ more, result = finished ++ more ∧
    ∀ x ∈ more, x ∉ active ∧ ∃ vertex ∈ vertices, ReflTransGen (Child children) vertex x
  covers : ∀ vertex ∈ vertices, vertex ∈ result
  distinct : finished.Nodup → result.Nodup
  first : ChildrenFirst children finished → ChildrenFirst children result
  bounded : finished.length + active.length ≤ limit → result.length + active.length ≤ limit

theorem expand_ok {fuel : Nat} {active vertices finished result : List α}
    (expanded : expand children limit fuel active vertices finished = .ok result) :
    Expands children limit active vertices finished result := by
  fun_induction expand children limit fuel active vertices finished generalizing result with
  | case1 fuel active finished =>
    obtain rfl := Except.ok.inj expanded
    exact ⟨⟨[], by simp, nofun⟩, nofun, id, id, id⟩
  | case2 fuel active vertex rest finished known ih =>
    obtain ⟨⟨more, rfl, new⟩, covers, distinct, first, bounded⟩ := ih expanded
    refine ⟨⟨more, rfl, fun x member => ?_⟩, ?_, distinct, first, bounded⟩
    · obtain ⟨outside, root, listed, path⟩ := new x member
      exact ⟨outside, root, List.mem_cons_of_mem _ listed, path⟩
    · exact List.forall_mem_cons.mpr ⟨List.mem_append_left _ known, covers⟩
  | case3 | case4 | case5 | case6 => exact nomatch expanded
  | case7 active vertex rest finished fresh outside room fuel done below ihBelow ih =>
    obtain ⟨⟨inner, rfl, newInner⟩, coversInner, distinctInner, firstInner, boundedInner⟩ :=
      ihBelow below
    obtain ⟨⟨more, rfl, new⟩, covers, distinct, first, bounded⟩ := ih expanded
    have absent : vertex ∉ finished ++ inner := by
      intro member
      rcases List.mem_append.mp member with old | new
      · exact fresh old
      · exact (newInner vertex new).1 List.mem_cons_self
    refine ⟨⟨inner ++ vertex :: more, by simp, fun x member => ?_⟩, ?_, ?_, ?_, ?_⟩
    · rcases List.mem_append.mp member with old | behind
      · obtain ⟨apart, child, edge, path⟩ := newInner x old
        exact ⟨fun inside => apart (List.mem_cons_of_mem _ inside), vertex, List.mem_cons_self,
          .head edge path⟩
      · rcases List.mem_cons.mp behind with rfl | later
        · exact ⟨outside, x, List.mem_cons_self, .refl⟩
        · obtain ⟨apart, root, listed, path⟩ := new x later
          exact ⟨apart, root, List.mem_cons_of_mem _ listed, path⟩
    · exact List.forall_mem_cons.mpr ⟨by simp, covers⟩
    · intro once
      refine distinct (List.nodup_append.mpr ⟨distinctInner once, by simp, ?_⟩)
      rintro x member y last rfl
      exact absent (List.mem_singleton.mp last ▸ member)
    · exact fun before => first ((firstInner before).concat coversInner)
    · intro bound
      refine bounded ?_
      have inside := boundedInner (by rw [List.length_cons]; omega)
      rw [List.length_cons] at inside
      rw [List.length_append, List.length_singleton]
      omega

/-- An expansion that stops at a cycle has come to one. -/
theorem expand_cycle {fuel : Nat} {active vertices finished : List α}
    (stopped : expand children limit fuel active vertices finished = .error .cycle)
    (below : ∀ above ∈ active, ∀ vertex ∈ vertices, TransGen (Child children) above vertex) :
    ∃ vertex ∈ vertices, ∃ x, ReflTransGen (Child children) vertex x ∧
      TransGen (Child children) x x := by
  fun_induction expand children limit fuel active vertices finished with
  | case1 | case4 | case5 => exact nomatch stopped
  | case2 fuel active vertex rest finished known ih =>
    obtain ⟨root, listed, found⟩ :=
      ih stopped fun above member other later => below above member other (List.mem_cons_of_mem _ later)
    exact ⟨root, List.mem_cons_of_mem _ listed, found⟩
  | case3 fuel active vertex rest finished fresh inside =>
    exact ⟨vertex, List.mem_cons_self, vertex, .refl, below vertex inside vertex List.mem_cons_self⟩
  | case6 active vertex rest finished fresh outside room fuel stop expanded ih =>
    obtain rfl := Except.error.inj stopped
    have under : ∀ above ∈ vertex :: active, ∀ child ∈ children vertex,
        TransGen (Child children) above child := by
      intro above member child edge
      rcases List.mem_cons.mp member with rfl | earlier
      · exact .single edge
      · exact (below above earlier vertex List.mem_cons_self).tail edge
    obtain ⟨child, edge, x, path, cycle⟩ := ih expanded under
    exact ⟨vertex, List.mem_cons_self, x, .head edge path, cycle⟩
  | case7 active vertex rest finished fresh outside room fuel done expanded _ ih =>
    obtain ⟨root, listed, found⟩ :=
      ih stopped fun above member other later => below above member other (List.mem_cons_of_mem _ later)
    exact ⟨root, List.mem_cons_of_mem _ listed, found⟩

end Walk
