import Mathlib.Data.List.Basic
import Mathlib.Tactic.Common

/-!
Nested scopes that commands open and close.

An opener pushes a scope for each part of its name, or one without a name; an end pops the scopes that
its own name gives, innermost part last in the name. A run of commands that succeeds on no scopes
touches nothing of what is around it.
-/
namespace Scopes

variable {ν : Type}

inductive Command (ν : Type) where
  | opens (name : List ν)
  | ends (name : List ν)
  deriving DecidableEq

/-- The scopes of a name, innermost first. -/
def frames (name : List ν) : List (Option ν) :=
  if name.isEmpty then [none] else (name.map some).reverse

variable [DecidableEq ν]

def step (stack : List (Option ν)) : Command ν → Option (List (Option ν))
  | .opens name => some (frames name ++ stack)
  | .ends name => if frames name <+: stack then some (stack.drop (frames name).length) else none

/-- The open scopes after the commands, unless an end closes what it does not name. -/
def run (stack : List (Option ν)) : List (Command ν) → Option (List (Option ν))
  | [] => some stack
  | command :: commands => (step stack command).bind fun stack => run stack commands

variable {stack own rest : List (Option ν)} {commands : List (Command ν)} {name : List ν}

theorem step_ends_iff : step stack (.ends name) = some rest ↔ stack = frames name ++ rest := by
  rw [step]
  constructor
  · intro closed
    split at closed
    next named =>
      obtain ⟨tail, rfl⟩ := named
      rw [List.drop_left] at closed
      rw [Option.some.inj closed]
    next => cases closed
  · rintro rfl
    rw [if_pos (List.prefix_append _ _), List.drop_left]

theorem run_append (first second : List (Command ν)) :
    run stack (first ++ second) = (run stack first).bind fun stack => run stack second := by
  induction first generalizing stack with
  | nil => rfl
  | cons command first ih =>
    rw [List.cons_append, run, run, Option.bind_assoc]
    exact Option.bind_congr fun stack _ => ih

/-- What is around the commands stays as it is. -/
theorem step_frame {command : Command ν} (stepped : step stack command = some own)
    (around : List (Option ν)) : step (stack ++ around) command = some (own ++ around) := by
  cases command with
  | opens name =>
    obtain rfl := Option.some.inj stepped
    rw [step, List.append_assoc]
  | ends name =>
    obtain rfl := step_ends_iff.mp stepped
    exact step_ends_iff.mpr (List.append_assoc _ _ _)

theorem run_frame (ran : run stack commands = some own) (around : List (Option ν)) :
    run (stack ++ around) commands = some (own ++ around) := by
  induction commands generalizing stack with
  | nil =>
    obtain rfl := Option.some.inj ran
    rfl
  | cons command commands ih =>
    obtain ⟨next, stepped, more⟩ := Option.bind_eq_some_iff.mp ran
    rw [run, step_frame stepped, Option.bind_some, ih more]

/-- The run comes to every place among its commands. -/
theorem run_prefix {first : List (Command ν)} (ran : run stack commands = some own)
    (before : first <+: commands) : ∃ middle, run stack first = some middle := by
  obtain ⟨second, rfl⟩ := before
  rw [run_append] at ran
  obtain ⟨middle, reached, -⟩ := Option.bind_eq_some_iff.mp ran
  exact ⟨middle, reached⟩

/-- Ends close exactly the scopes of their names. -/
theorem run_ends_iff (names : List (List ν)) :
    run stack (names.map .ends) = some rest ↔ stack = names.flatMap frames ++ rest := by
  induction names generalizing stack with
  | nil => exact ⟨Option.some.inj, congrArg some⟩
  | cons name names ih =>
    rw [List.map_cons, run, List.flatMap_cons, List.append_assoc]
    constructor
    · intro ran
      obtain ⟨next, stepped, more⟩ := Option.bind_eq_some_iff.mp ran
      rw [step_ends_iff.mp stepped, ih.mp more]
    · intro same
      rw [step_ends_iff.mpr same, Option.bind_some, ih.mpr rfl]

/-- Inside a scope of their own, the commands never touch it or what is around it, and leave nothing
open in it. -/
structure Contained (commands : List (Command ν)) : Prop where
  inside : ∀ around, ∀ first, first <+: commands →
    ∃ own, run (none :: around) first = some (own ++ none :: around)
  closed : ∀ around, run (none :: around) commands = some (none :: around)

theorem Contained.of_run (ran : run [] commands = some []) : Contained commands where
  inside around first before := by
    obtain ⟨own, reached⟩ := run_prefix ran before
    exact ⟨own, run_frame reached (none :: around)⟩
  closed around := run_frame ran (none :: around)

/-- Commands with ends behind them are contained exactly when the ends name what they leave open. -/
theorem contained_iff {opened : List (Option ν)} (ran : run [] commands = some opened)
    (names : List (List ν)) :
    Contained (commands ++ names.map .ends) ↔ opened = names.flatMap frames := by
  constructor
  · intro contained
    have closed := contained.closed []
    rw [run_append, show [none] = [] ++ [none] from rfl, run_frame ran, Option.bind_some,
      run_ends_iff] at closed
    exact List.append_cancel_right closed
  · rintro rfl
    refine .of_run ?_
    rw [run_append, ran, Option.bind_some, run_ends_iff, List.append_nil]

end Scopes
