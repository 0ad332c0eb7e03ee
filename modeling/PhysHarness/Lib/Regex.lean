import Mathlib.Data.List.Basic
import Mathlib.Tactic.Common

/-!
Regular expressions with groups and assertions, matched by backtracking.

The results of an expression at a place are all its matches there, in the order in which a backtracking
matcher tries them, so the match that counts is the first. A repetition goes on only when its body has
consumed something.
-/

inductive Regex where
  | empty
  | set (inside : Char → Bool)
  | seq (first second : Regex)
  | either (first second : Regex)
  /-- greedy -/
  | many (body : Regex)
  | group (number : Nat) (body : Regex)
  | ahead (body : Regex)
  | notAhead (body : Regex)
  | behind (inside : Char → Bool)

namespace Regex

/-- A place in a text: what is before it, backwards, and what is after it; and the groups so far. -/
structure Cursor where
  before : List Char
  rest : List Char
  groups : List (Nat × List Char) := []

/-- The repetitions of a step that consumes something, the longest first. -/
def repeated (step : Cursor → List Cursor) : Nat → Cursor → List Cursor
  | 0, cursor => [cursor]
  | fuel + 1, cursor =>
    ((step cursor).filter fun next => next.rest.length < cursor.rest.length).flatMap (repeated step fuel) ++
      [cursor]

def results : Regex → Cursor → List Cursor
  | empty, cursor => [cursor]
  | set inside, cursor =>
    match cursor.rest with
    | [] => []
    | c :: rest => if inside c then [{ cursor with before := c :: cursor.before, rest }] else []
  | seq first second, cursor => (results first cursor).flatMap (results second)
  | either first second, cursor => results first cursor ++ results second cursor
  | many body, cursor => repeated (results body) cursor.rest.length cursor
  | group number body, cursor =>
    (results body cursor).map fun next =>
      { next with groups := (number, cursor.rest.take (cursor.rest.length - next.rest.length)) :: next.groups }
  | ahead body, cursor => if (results body cursor).isEmpty then [] else [cursor]
  | notAhead body, cursor => if (results body cursor).isEmpty then [cursor] else []
  | behind inside, cursor => if cursor.before.head?.any inside then [cursor] else []

/-- `body?` -/
def maybe (body : Regex) : Regex := either body empty

/-- `body+` -/
def some (body : Regex) : Regex := seq body (many body)

def char (c : Char) : Regex := set (· = c)

def text (word : String) : Regex := word.toList.foldr (fun c rest => seq (char c) rest) empty

/-- One of the words, in this order. -/
def oneOf (words : List String) : Regex :=
  match words with
  | [] => set fun _ => false
  | word :: words => words.foldl (fun found word => either found (text word)) (text word)

/-- The expressions one after the other. -/
def sequence (parts : List Regex) : Regex := parts.foldr seq empty

/-- `match`: what the expression matches at the beginning of the text -/
def matchAt (r : Regex) (text : List Char) : Option Cursor := (results r ⟨[], text, []⟩).head?

/-- Does the expression match anywhere in the text? -/
def searchFrom (r : Regex) (before : List Char) : List Char → Option Cursor
  | [] => (results r ⟨before, [], []⟩).head?
  | c :: rest =>
    match (results r ⟨before, c :: rest, []⟩).head? with
    | .some found => .some found
    | none => searchFrom r (c :: before) rest

def search (r : Regex) (text : List Char) : Option Cursor := searchFrom r [] text

/-- A match with the text between it and the match before. -/
structure Found where
  gap : List Char
  taken : List Char
  groups : List (Nat × List Char)

def Found.group (found : Found) (number : Nat) : Option (List Char) :=
  (found.groups.find? fun entry => entry.1 = number).map Prod.snd

/-- The matches from left to right and the text after the last one; `gap` is what was passed since the
last match, backwards. -/
def matchesFrom (r : Regex) : Nat → List Char → Cursor → List Found × List Char
  | 0, gap, cursor => ([], gap.reverse ++ cursor.rest)
  | fuel + 1, gap, cursor =>
    match (results r { cursor with groups := [] }).head? with
    | .some next =>
      let found := ⟨gap.reverse, cursor.rest.take (cursor.rest.length - next.rest.length), next.groups⟩
      let (more, tail) := matchesFrom r fuel [] next
      (found :: more, tail)
    | none =>
      match cursor.rest with
      | [] => ([], gap.reverse)
      | c :: rest => matchesFrom r fuel (c :: gap) { cursor with before := c :: cursor.before, rest }

/-- `finditer`, for an expression that does not match the empty text -/
def finditer (r : Regex) (text : List Char) : List Found × List Char :=
  matchesFrom r (text.length + 1) [] ⟨[], text, []⟩

/-- `sub`, for an expression that does not match the empty text -/
def sub (r : Regex) (replacement : Found → List Char) (text : List Char) : List Char :=
  let (found, tail) := finditer r text
  (found.flatMap fun found => found.gap ++ replacement found) ++ tail

theorem mem_empty {cursor next : Cursor} : next ∈ results empty cursor ↔ next = cursor := List.mem_singleton

theorem mem_seq {first second : Regex} {cursor next : Cursor} :
    next ∈ results (seq first second) cursor ↔ ∃ middle ∈ results first cursor, next ∈ results second middle :=
  List.mem_flatMap

theorem mem_either {first second : Regex} {cursor next : Cursor} :
    next ∈ results (either first second) cursor ↔ next ∈ results first cursor ∨ next ∈ results second cursor :=
  List.mem_append

theorem mem_behind {inside : Char → Bool} {cursor next : Cursor} : next ∈ results (behind inside) cursor ↔
    (∃ c before, cursor.before = c :: before ∧ inside c = true) ∧ next = cursor := by
  obtain ⟨before, rest, groups⟩ := cursor
  cases before with
  | nil => simp [results]
  | cons c before => by_cases held : inside c = true <;> simp [results, held]

theorem mem_ahead {body : Regex} {cursor next : Cursor} :
    next ∈ results (ahead body) cursor ↔ (∃ found, found ∈ results body cursor) ∧ next = cursor := by
  rw [results]
  cases found : results body cursor <;> simp

/-! ### What a match consumes -/

/-- The two places of a text that has been consumed between them. -/
def Consumes (start : Cursor) (taken : List Char) (finish : Cursor) : Prop :=
  start.rest = taken ++ finish.rest ∧ finish.before = taken.reverse ++ start.before

theorem Consumes.refl (cursor : Cursor) : Consumes cursor [] cursor := ⟨rfl, rfl⟩

theorem Consumes.trans {first second third : Cursor} {one two : List Char} (left : Consumes first one second)
    (right : Consumes second two third) : Consumes first (one ++ two) third := by
  refine ⟨?_, ?_⟩
  · rw [left.1, right.1, List.append_assoc]
  · rw [right.2, left.2, List.reverse_append, List.append_assoc]

theorem repeated_consumes {step : Cursor → List Cursor}
    (steps : ∀ cursor, ∀ next ∈ step cursor, ∃ taken, Consumes cursor taken next) (fuel : Nat)
    (cursor : Cursor) : ∀ next ∈ repeated step fuel cursor, ∃ taken, Consumes cursor taken next := by
  induction fuel generalizing cursor with
  | zero =>
    intro next member
    obtain rfl := List.mem_singleton.mp member
    exact ⟨[], .refl next⟩
  | succ fuel ih =>
    intro next member
    rcases List.mem_append.mp member with more | last
    · obtain ⟨middle, first, later⟩ := List.mem_flatMap.mp more
      obtain ⟨one, left⟩ := steps cursor middle (List.mem_filter.mp first).1
      obtain ⟨two, right⟩ := ih middle next later
      exact ⟨one ++ two, left.trans right⟩
    · obtain rfl := List.mem_singleton.mp last
      exact ⟨[], .refl next⟩

/-- Every match consumes a part of the text. -/
theorem results_consumes (r : Regex) (cursor : Cursor) :
    ∀ next ∈ results r cursor, ∃ taken, Consumes cursor taken next := by
  induction r generalizing cursor with
  | empty =>
    intro next member
    obtain rfl := List.mem_singleton.mp member
    exact ⟨[], .refl next⟩
  | set inside =>
    obtain ⟨before, rest, groups⟩ := cursor
    intro next member
    cases rest with
    | nil => cases member
    | cons c rest =>
      simp only [results] at member
      split at member
      · obtain rfl := List.mem_singleton.mp member
        exact ⟨[c], rfl, rfl⟩
      · cases member
  | seq first second ih ih' =>
    intro next member
    obtain ⟨middle, begins, ends⟩ := List.mem_flatMap.mp member
    obtain ⟨one, left⟩ := ih cursor middle begins
    obtain ⟨two, right⟩ := ih' middle next ends
    exact ⟨one ++ two, left.trans right⟩
  | either first second ih ih' =>
    intro next member
    rcases List.mem_append.mp member with left | right
    · exact ih cursor next left
    · exact ih' cursor next right
  | many body ih => exact repeated_consumes ih _ cursor
  | group number body ih =>
    intro next member
    obtain ⟨inner, found, rfl⟩ := List.mem_map.mp member
    obtain ⟨taken, consumed⟩ := ih cursor inner found
    exact ⟨taken, consumed⟩
  | ahead body ih =>
    intro next member
    simp only [results] at member
    split at member
    · cases member
    · obtain rfl := List.mem_singleton.mp member
      exact ⟨[], .refl next⟩
  | notAhead body ih =>
    intro next member
    simp only [results] at member
    split at member
    · obtain rfl := List.mem_singleton.mp member
      exact ⟨[], .refl next⟩
    · cases member
  | behind inside =>
    intro next member
    simp only [results] at member
    split at member
    · obtain rfl := List.mem_singleton.mp member
      exact ⟨[], .refl next⟩
    · cases member

theorem Consumes.unique {start finish : Cursor} {one two : List Char} (first : Consumes start one finish)
    (second : Consumes start two finish) : one = two :=
  List.append_cancel_right (first.1.symm.trans second.1)

/-- What a repeated class takes is of the class. -/
theorem many_set_consumes {inside : Char → Bool} {cursor next : Cursor}
    (member : next ∈ results (many (set inside)) cursor) :
    ∃ taken, Consumes cursor taken next ∧ ∀ c ∈ taken, inside c = true := by
  suffices every : ∀ fuel cursor, next ∈ repeated (results (set inside)) fuel cursor →
      ∃ taken, Consumes cursor taken next ∧ ∀ c ∈ taken, inside c = true from every _ _ member
  intro fuel
  induction fuel with
  | zero =>
    intro cursor member
    obtain rfl := List.mem_singleton.mp member
    exact ⟨[], .refl next, fun _ none => absurd none List.not_mem_nil⟩
  | succ fuel ih =>
    intro cursor member
    rcases List.mem_append.mp member with more | last
    · obtain ⟨middle, first, later⟩ := List.mem_flatMap.mp more
      obtain ⟨taken, consumed, all⟩ := ih middle later
      obtain ⟨before, rest, groups⟩ := cursor
      cases rest with
      | nil => simp [results] at first
      | cons c rest =>
        have one := (List.mem_filter.mp first).1
        simp only [results] at one
        split at one
        next good =>
          obtain rfl := List.mem_singleton.mp one
          refine ⟨c :: taken, ⟨congrArg _ consumed.1, ?_⟩, List.forall_mem_cons.mpr ⟨good, all⟩⟩
          rw [consumed.2, List.reverse_cons, List.append_assoc]
          rfl
        · cases one
    · obtain rfl := List.mem_singleton.mp last
      exact ⟨[], .refl next, fun _ none => absurd none List.not_mem_nil⟩

theorem some_set_consumes {inside : Char → Bool} {cursor next : Cursor}
    (member : next ∈ results (.some (set inside)) cursor) :
    ∃ taken, Consumes cursor taken next ∧ taken ≠ [] ∧ ∀ c ∈ taken, inside c = true := by
  obtain ⟨middle, first, later⟩ := List.mem_flatMap.mp member
  obtain ⟨taken, consumed, all⟩ := many_set_consumes later
  obtain ⟨before, rest, groups⟩ := cursor
  cases rest with
  | nil => simp [results] at first
  | cons c rest =>
    simp only [results] at first
    split at first
    next good =>
      obtain rfl := List.mem_singleton.mp first
      refine ⟨c :: taken, ⟨congrArg _ consumed.1, ?_⟩, List.cons_ne_nil _ _, List.forall_mem_cons.mpr ⟨good, all⟩⟩
      rw [consumed.2, List.reverse_cons, List.append_assoc]
      rfl
    · cases first

/-- Each match that is found is a result somewhere. -/
theorem mem_matchesFrom {r : Regex} {fuel : Nat} {gap : List Char} {cursor : Cursor} {found : Found}
    (member : found ∈ (matchesFrom r fuel gap cursor).1) :
    ∃ start next, next ∈ results r start ∧ Consumes start found.taken next := by
  induction fuel generalizing gap cursor with
  | zero => cases member
  | succ fuel ih =>
    unfold matchesFrom at member
    split at member
    next next first =>
      rcases List.mem_cons.mp member with rfl | later
      · have result := List.mem_of_head? first
        obtain ⟨taken, consumed⟩ := results_consumes r _ next result
        refine ⟨{ cursor with groups := [] }, next, result, ?_⟩
        have own : cursor.rest.take (cursor.rest.length - next.rest.length) = taken := by
          have rest : cursor.rest = taken ++ next.rest := consumed.1
          rw [rest, List.length_append, Nat.add_sub_cancel, List.take_left]
        dsimp only
        rwa [own]
      · exact ih later
    · split at member
      · cases member
      · exact ih member

theorem mem_finditer {r : Regex} {text : List Char} {found : Found} (member : found ∈ (finditer r text).1) :
    ∃ start next, next ∈ results r start ∧ Consumes start found.taken next :=
  mem_matchesFrom member

/-- A search finds something when there is a result at some place. -/
theorem search_isSome {r : Regex} {text : List Char} : (search r text).isSome = true ↔
    ∃ before rest, text = before ++ rest ∧ results r ⟨before.reverse, rest, []⟩ ≠ [] := by
  suffices every : ∀ rest passed, (searchFrom r passed rest).isSome = true ↔
      ∃ before after, rest = before ++ after ∧ results r ⟨before.reverse ++ passed, after, []⟩ ≠ [] by
    simpa [search] using every text []
  intro rest
  induction rest with
  | nil =>
    intro passed
    rw [searchFrom, List.isSome_head?]
    constructor
    · exact fun found => ⟨[], [], rfl, found⟩
    · rintro ⟨before, after, split, found⟩
      obtain ⟨rfl, rfl⟩ := List.append_eq_nil_iff.mp split.symm
      exact found
  | cons c rest ih =>
    intro passed
    rw [searchFrom]
    split
    next next first =>
      refine iff_of_true rfl ⟨[], c :: rest, rfl, fun none => ?_⟩
      rw [List.reverse_nil, List.nil_append] at none
      rw [none] at first
      cases first
    next none =>
      rw [ih]
      constructor
      · rintro ⟨before, after, rfl, found⟩
        refine ⟨c :: before, after, rfl, ?_⟩
        rwa [List.reverse_cons, List.append_assoc]
      · rintro ⟨before, after, split, found⟩
        cases before with
        | nil =>
          obtain rfl : c :: rest = after := split
          exact absurd (List.head?_eq_none_iff.mp none) found
        | cons d before =>
          obtain ⟨rfl, rfl⟩ := List.cons.inj split
          refine ⟨before, after, rfl, ?_⟩
          rwa [List.reverse_cons, List.append_assoc] at found

theorem search_iff {r : Regex} {text : List Char} : (search r text).isSome = true ↔
    ∃ before rest next, text = before ++ rest ∧ next ∈ results r ⟨before.reverse, rest, []⟩ := by
  rw [search_isSome]
  constructor
  · rintro ⟨before, rest, same, found⟩
    obtain ⟨next, member⟩ := List.exists_mem_of_ne_nil _ found
    exact ⟨before, rest, next, same, member⟩
  · rintro ⟨before, rest, next, same, member⟩
    exact ⟨before, rest, same, List.ne_nil_of_mem member⟩

end Regex
