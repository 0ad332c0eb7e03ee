import PhysHarness.Lib.Transition
import PhysHarness.Lib.Table
import PhysHarness.Execution.Checkpoint

/-!
# Command journal

At-most-once dispatch: an operation is reserved before its side effect and completed after it. Each
call is one transaction, so calls of any number of processes interleave one by one; a process may
die before the commit of its call, or after it and before the reply.

## Main result

`journal_at_most_once`: an operation is dispatched at most once; once it is completed, the same
command is answered with that result; before that it is uncertain; another command is refused.
-/
namespace PhysHarness

open Json (Same)

inductive JournalStatus where
  | pending
  | completed
  deriving DecidableEq

/-- What is dispatched under one operation. -/
structure JournalCommand where
  command : String
  arguments : List (String × Json)

/-- A row of `research_commands`; a result is stored with its keys sorted. -/
structure JournalRow where
  identity : Digest
  command : JournalCommand
  status : JournalStatus := .pending
  result : Option Json := none

/-- Rows under program and operation. -/
abbrev CommandJournal := Table (Id × Id) JournalRow

/-- The same command with the same arguments, whatever the order of their keys. -/
def JournalCommand.Same (first second : JournalCommand) : Prop :=
  first.command = second.command ∧ Json.Same (.obj first.arguments) (.obj second.arguments)

def isObject : Json → Bool
  | .obj _ => true
  | _ => false

inductive JournalCall where
  | begin (program operation : Id) (command : JournalCommand)
  | observe (program operation : Id) (observation : Json)
  | complete (program operation : Id) (result : Json)

section

variable [ContentHash]

def JournalCommand.identity (command : JournalCommand) : Digest :=
  digest (.obj [("command", .str command.command), ("arguments", .obj command.arguments)])

namespace CommandJournal

/-- `None` tells the caller to dispatch now; a result is that of the completed operation. -/
def begin (journal : CommandJournal) (key : Id × Id) (command : JournalCommand) :
    Except Failure (Option Json) × CommandJournal :=
  match journal.find key with
  | some row =>
    if row.identity ≠ command.identity then
      (.error (.refuse "COMMAND_MISMATCH" "Replayed operation changed command or arguments"), journal)
    else match row.status, row.result with
      | .pending, _ => (.error (.refuse "OPERATION_UNCERTAIN"
          "Operation has no committed result; reconcile before retry"), journal)
      | .completed, some result => (.ok (some result), journal)
      | .completed, none => (.error (.internal "TypeError"), journal)
  | none => (.ok none, journal.put key { identity := command.identity, command })

/-- The row of a pending operation. -/
def pendingRow (journal : CommandJournal) (key : Id × Id) : Option JournalRow :=
  (journal.find key).filter fun row => row.status = .pending

/-- Recovery evidence, which leaves the operation pending. -/
def observe (journal : CommandJournal) (key : Id × Id) (observation : Json) :
    Except Failure (Option Json) × CommandJournal :=
  if isObject observation = false then
    (.error (.refuse "INVALID_TOOL_RESULT" "Journal observations must be JSON objects"), journal)
  else match journal.pendingRow key with
    | none => (.error (.refuse "OPERATION_CONFLICT"
        "Only a pending operation can receive observations"), journal)
    | some row => (.ok none, journal.put key { row with result := some observation.sortKeys })

def complete (journal : CommandJournal) (key : Id × Id) (result : Json) :
    Except Failure (Option Json) × CommandJournal :=
  if isObject result = false then
    (.error (.refuse "INVALID_TOOL_RESULT" "Journal results must be JSON objects"), journal)
  else match journal.pendingRow key with
    | none => (.error (.refuse "OPERATION_CONFLICT"
        "Only a pending operation can be completed"), journal)
    | some row => (.ok none,
        journal.put key { row with status := .completed, result := some result.sortKeys })

def call (journal : CommandJournal) : JournalCall → Except Failure (Option Json) × CommandJournal
  | .begin program operation command => journal.begin (program, operation) command
  | .observe program operation observation => journal.observe (program, operation) observation
  | .complete program operation result => journal.complete (program, operation) result

end CommandJournal

/-- A call that returns, or whose process dies around the commit. -/
inductive JournalLabel where
  | returns (call : JournalCall)
  | diesBefore (call : JournalCall)
  | diesAfter (call : JournalCall)

/-- The call whose transaction commits. -/
def JournalLabel.committed : JournalLabel → Option JournalCall
  | .returns call => some call
  | .diesBefore _ => none
  | .diesAfter call => some call

/-- The journal, and the replies that the processes got. -/
structure JournalState where
  journal : CommandJournal := ∅
  replies : List (JournalCall × Except Failure (Option Json)) := []

def JournalState.step (state : JournalState) : JournalLabel → JournalState
  | .returns call =>
    let (reply, journal) := state.journal.call call
    ⟨journal, state.replies ++ [(call, reply)]⟩
  | .diesBefore _ => state
  | .diesAfter call => { state with journal := (state.journal.call call).2 }

def JournalState.run (labels : List JournalLabel) : JournalState :=
  Transition.run JournalState.step {} labels

/-! ### One call -/

/-- Commands with one identity are the same command. -/
theorem identity_inj (collisionFree : Function.Injective ContentHash.sha256)
    {first second : JournalCommand} (same : first.identity = second.identity) : first.Same second := by
  have content := digest_inj collisionFree same
  have command := Json.get_same content (by simp) "command"
  have arguments := Json.get_same content (by simp) "arguments"
  simp only [Dict.get, List.find?, Option.map_some, Option.some.injEq, decide_true] at command
  simp [Dict.get] at arguments
  exact ⟨Json.str.inj command, arguments⟩

theorem identity_same {first second : JournalCommand} (same : first.Same second) :
    first.identity = second.identity :=
  digest_same (Json.same_fields
    (.cons ⟨rfl, congrArg (fun text => Json.sortKeys (.str text)) same.1⟩ (.cons ⟨rfl, same.2⟩ .nil)))

namespace CommandJournal

variable {journal : CommandJournal} {key : Id × Id}

omit [ContentHash] in
theorem pendingRow_some {row : JournalRow} :
    journal.pendingRow key = some row ↔ journal.find key = some row ∧ row.status = .pending := by
  simp [pendingRow, Option.filter_eq_some_iff]

/-- What a call makes of the row of one key: nothing, a reservation, new evidence or a result. -/
theorem call_find (journal : CommandJournal) (call : JournalCall) (key : Id × Id) :
    (journal.call call).2.find key = journal.find key ∨
    (∃ command, call = .begin key.1 key.2 command ∧ journal.find key = none ∧
      (journal.call call).2.find key = some { identity := command.identity, command }) ∨
    (∃ observation row, call = .observe key.1 key.2 observation ∧ journal.find key = some row ∧
      row.status = .pending ∧
      (journal.call call).2.find key = some { row with result := some observation.sortKeys }) ∨
    (∃ result row, call = .complete key.1 key.2 result ∧ journal.find key = some row ∧
      row.status = .pending ∧ (journal.call call).1 = .ok none ∧
      (journal.call call).2.find key =
        some { row with status := .completed, result := some result.sortKeys }) := by
  cases call with
  | begin program operation command =>
    simp only [CommandJournal.call, CommandJournal.begin]
    split
    next row found =>
      left
      split
      · rfl
      · split <;> rfl
    next absent =>
      rcases eq_or_ne key (program, operation) with rfl | other
      · exact .inr (.inl ⟨command, rfl, absent, Table.find_put_self _ _ _⟩)
      · exact .inl (Table.find_put_ne _ _ other)
  | observe program operation observation =>
    simp only [CommandJournal.call, CommandJournal.observe]
    split
    next => exact .inl rfl
    next =>
      split
      next => exact .inl rfl
      next row pending =>
        obtain ⟨found, status⟩ := pendingRow_some.mp pending
        rcases eq_or_ne key (program, operation) with rfl | other
        · exact .inr (.inr (.inl ⟨observation, row, rfl, found, status, Table.find_put_self _ _ _⟩))
        · exact .inl (Table.find_put_ne _ _ other)
  | complete program operation result =>
    simp only [CommandJournal.call, CommandJournal.complete]
    split
    next => exact .inl rfl
    next =>
      split
      next => exact .inl rfl
      next row pending =>
        obtain ⟨found, status⟩ := pendingRow_some.mp pending
        rcases eq_or_ne key (program, operation) with rfl | other
        · exact .inr (.inr (.inr ⟨result, row, rfl, found, status, rfl, Table.find_put_self _ _ _⟩))
        · exact .inl (Table.find_put_ne _ _ other)

/-- A reserved operation keeps its identity, and a completed one its row. -/
structure Later (before after : JournalRow) : Prop where
  identity : after.identity = before.identity
  final : before.status = .completed → after = before

omit [ContentHash] in
theorem Later.refl (row : JournalRow) : Later row row := ⟨rfl, fun _ => rfl⟩

omit [ContentHash] in
theorem Later.trans {first second third : JournalRow} (one : Later first second)
    (two : Later second third) : Later first third := by
  refine ⟨two.identity.trans one.identity, fun completed => ?_⟩
  have same := one.final completed
  rw [two.final (same ▸ completed), same]

theorem call_later {row : JournalRow} (call : JournalCall) (found : journal.find key = some row) :
    ∃ after, (journal.call call).2.find key = some after ∧ Later row after := by
  rcases journal.call_find call key with same | ⟨_, _, absent, _⟩ | ⟨_, before, _, here, pending, now⟩ |
    ⟨_, before, _, here, pending, _, now⟩
  · exact ⟨row, same.trans found, .refl row⟩
  · rw [found] at absent
    cases absent
  · obtain rfl : before = row := Option.some.inj (here.symm.trans found)
    exact ⟨_, now, rfl, fun completed => by rw [pending] at completed; cases completed⟩
  · obtain rfl : before = row := Option.some.inj (here.symm.trans found)
    exact ⟨_, now, rfl, fun completed => by rw [pending] at completed; cases completed⟩

/-- The caller is told to dispatch exactly when the operation has no row. -/
theorem begin_dispatches {command : JournalCommand} :
    (journal.begin key command).1 = .ok none ↔ journal.find key = none := by
  unfold CommandJournal.begin
  split
  next row found =>
    rw [found]
    split
    · simp
    · split <;> simp
  next absent => simp [absent]

theorem begin_reserves {command : JournalCommand} (absent : journal.find key = none) :
    (journal.begin key command).2.find key = some { identity := command.identity, command } := by
  simp only [CommandJournal.begin, absent]
  exact Table.find_put_self _ _ _

/-- A begin with another command is refused, also after completion. -/
theorem begin_other (collisionFree : Function.Injective ContentHash.sha256) {row : JournalRow}
    {first command : JournalCommand} (found : journal.find key = some row)
    (identity : row.identity = first.identity) (other : ¬ first.Same command) :
    (journal.begin key command).1 = .error (.refuse "COMMAND_MISMATCH"
      "Replayed operation changed command or arguments") := by
  have distinct : row.identity ≠ command.identity := fun same =>
    other (identity_inj collisionFree (identity.symm.trans same))
  simp [CommandJournal.begin, found, distinct]

theorem begin_pending {row : JournalRow} {command : JournalCommand} (found : journal.find key = some row)
    (identity : row.identity = command.identity) (pending : row.status = .pending) :
    (journal.begin key command).1 = .error (.refuse "OPERATION_UNCERTAIN"
      "Operation has no committed result; reconcile before retry") := by
  simp [CommandJournal.begin, found, identity, pending]

theorem begin_completed {row : JournalRow} {command : JournalCommand} {result : Json}
    (found : journal.find key = some row) (identity : row.identity = command.identity)
    (completed : row.status = .completed) (stored : row.result = some result) :
    (journal.begin key command).1 = .ok (some result) := by
  simp [CommandJournal.begin, found, identity, completed, stored]

/-- The call completes the operation, whether or not the process learns of it. -/
def Completes (journal : CommandJournal) (key : Id × Id) (label : JournalLabel) (result : Json) : Prop :=
  label.committed = some (.complete key.1 key.2 result) ∧ (journal.complete key result).1 = .ok none

omit [ContentHash] in
theorem complete_find {result : Json} (done : (journal.complete key result).1 = .ok none) :
    ∃ row, journal.find key = some row ∧ (journal.complete key result).2.find key =
      some { row with status := .completed, result := some result.sortKeys } := by
  unfold CommandJournal.complete at done ⊢
  split at done
  next => cases done
  next object =>
    split at done
    next => cases done
    next row pending =>
      rw [if_neg object]
      exact ⟨row, (pendingRow_some.mp pending).1, Table.find_put_self _ _ _⟩

end CommandJournal

/-! ### Runs -/

namespace JournalState

open CommandJournal

variable {state : JournalState} {key : Id × Id}

theorem step_journal (state : JournalState) (label : JournalLabel) : (state.step label).journal =
    match label.committed with
    | some call => (state.journal.call call).2
    | none => state.journal := by
  cases label <;> rfl

theorem step_later {row : JournalRow} (label : JournalLabel) (found : state.journal.find key = some row) :
    ∃ after, (state.step label).journal.find key = some after ∧ Later row after := by
  rw [step_journal]
  cases label.committed with
  | none => exact ⟨row, found, .refl row⟩
  | some call => exact call_later call found

/-- A row keeps its identity for good, and a completed one stays as it is. -/
theorem run_later {row : JournalRow} (labels : List JournalLabel)
    (found : state.journal.find key = some row) :
    ∃ after, (Transition.run step state labels).journal.find key = some after ∧ Later row after := by
  refine Transition.run_always (fun state : JournalState => ∃ after, state.journal.find key = some after ∧
    Later row after) labels ⟨row, found, .refl row⟩ fun state label here => ?_
  obtain ⟨between, there, before⟩ := here
  obtain ⟨after, now, later⟩ := step_later label there
  exact ⟨after, now, before.trans later⟩

/-- An operation becomes completed by a completion. -/
theorem step_completes {row after : JournalRow} {label : JournalLabel}
    (found : state.journal.find key = some row) (pending : row.status = .pending)
    (now : (state.step label).journal.find key = some after) (done : after.status = .completed) :
    ∃ result, Completes state.journal key label result := by
  rw [step_journal] at now
  cases committed : label.committed with
  | none =>
    simp only [committed, found, Option.some.injEq] at now
    rw [← now, pending] at done
    cases done
  | some call =>
    simp only [committed] at now
    rcases state.journal.call_find call key with same | ⟨_, _, absent, _⟩ |
      ⟨_, before, _, here, still, evidence⟩ | ⟨result, before, rfl, here, _, reply, _⟩
    · rw [same, found] at now
      cases now
      rw [pending] at done
      cases done
    · rw [found] at absent
      cases absent
    · rw [evidence] at now
      cases now
      rw [still] at done
      cases done
    · exact ⟨result, committed, reply⟩

/-- Some label of the run completes the operation with the result. -/
def CompletedIn (start : JournalState) (labels : List JournalLabel) (key : Id × Id) (result : Json) :
    Prop :=
  ∃ before label after, labels = before ++ label :: after ∧
    Completes (Transition.run step start before).journal key label result

theorem completedIn_find {labels : List JournalLabel} {result : Json}
    (completed : CompletedIn state labels key result) :
    ∃ row, (Transition.run step state labels).journal.find key = some row ∧
      row.status = .completed ∧ row.result = some result.sortKeys := by
  obtain ⟨before, label, after, rfl, committed, done⟩ := completed
  obtain ⟨row, found, now⟩ := complete_find done
  have stepped : ((Transition.run step state before).step label).journal.find key =
      some { row with status := .completed, result := some result.sortKeys } := by
    rw [step_journal, committed]
    exact now
  obtain ⟨last, here, later⟩ := run_later after stepped
  rw [Transition.run_append, Transition.run_cons]
  have final := later.final rfl
  exact ⟨last, here, by rw [final], by rw [final]⟩

/-- Without a completion the operation stays pending. -/
theorem pending_stays {labels : List JournalLabel} {row after : JournalRow}
    (found : state.journal.find key = some row) (pending : row.status = .pending)
    (never : ∀ result, ¬ CompletedIn state labels key result)
    (now : (Transition.run step state labels).journal.find key = some after) :
    after.status = .pending := by
  cases status : after.status with
  | pending => rfl
  | completed =>
    let done (state : JournalState) : Prop :=
      ∃ row, state.journal.find key = some row ∧ row.status = .completed
    have absent : ¬ done state := by
      rintro ⟨other, here, completed⟩
      obtain rfl := Option.some.inj (here.symm.trans found)
      rw [pending] at completed
      cases completed
    obtain ⟨first, label, rest, rfl, before, later, here, completed⟩ :=
      Transition.run_begins done absent ⟨after, now, status⟩
    obtain ⟨between, there, _⟩ := run_later first found
    have waiting : between.status = .pending := by
      cases kind : between.status with
      | pending => rfl
      | completed => exact absurd ⟨between, there, kind⟩ before
    obtain ⟨result, completes⟩ := step_completes there waiting here completed
    exact absurd ⟨first, label, rest, rfl, completes⟩ (never result)

/-! ### Dispatches -/

/-- The reply told its process to dispatch the operation. -/
def dispatches (key : Id × Id) : JournalCall × Except Failure (Option Json) → Bool
  | (.begin program operation _, .ok none) => (program, operation) = key
  | _ => false

def dispatchCount (state : JournalState) (key : Id × Id) : Nat := state.replies.countP (dispatches key)

omit [ContentHash] in
theorem dispatches_iff {entry : JournalCall × Except Failure (Option Json)} :
    dispatches key entry = true ↔ ∃ command, entry = (.begin key.1 key.2 command, .ok none) := by
  obtain ⟨call, reply⟩ := entry
  obtain ⟨program, operation⟩ := key
  cases call with
  | observe | complete => simp [dispatches]
  | begin => rcases reply with error | (_ | value) <;> simp [dispatches]

theorem dispatches_begin {call : JournalCall}
    (told : dispatches key (call, (state.journal.call call).1) = true) :
    state.journal.find key = none ∧ ∃ row, (state.journal.call call).2.find key = some row := by
  obtain ⟨command, same⟩ := dispatches_iff.mp told
  obtain ⟨rfl, reply⟩ := Prod.mk.inj same
  have absent : state.journal.find key = none := begin_dispatches.mp reply
  exact ⟨absent, _, begin_reserves absent⟩

/-- A dispatched operation has a row, which keeps it from being dispatched again. -/
def Once (key : Id × Id) (state : JournalState) : Prop :=
  state.dispatchCount key ≤ 1 ∧
    (state.dispatchCount key = 1 → ∃ row, state.journal.find key = some row)

theorem step_once (label : JournalLabel) (once : Once key state) : Once key (state.step label) := by
  have kept (one : state.dispatchCount key = 1) :
      ∃ row, (state.step label).journal.find key = some row := by
    obtain ⟨row, found⟩ := once.2 one
    obtain ⟨after, now, _⟩ := step_later label found
    exact ⟨after, now⟩
  cases label with
  | diesBefore => exact once
  | diesAfter call => exact ⟨once.1, kept⟩
  | returns call =>
    have count : (state.step (.returns call)).dispatchCount key = state.dispatchCount key +
        if dispatches key (call, (state.journal.call call).1) then 1 else 0 := by
      simp only [dispatchCount, step, List.countP_append, List.countP_singleton]
    rw [Once, count]
    split
    next told =>
      obtain ⟨absent, row, now⟩ := dispatches_begin told
      have none : state.dispatchCount key = 0 := by
        have most := once.1
        have other : state.dispatchCount key ≠ 1 := by
          intro one
          obtain ⟨_, found⟩ := once.2 one
          rw [absent] at found
          cases found
        omega
      exact ⟨by omega, fun _ => ⟨row, now⟩⟩
    next => exact ⟨once.1, kept⟩

theorem run_once (labels : List JournalLabel) (key : Id × Id) : Once key (run labels) :=
  Transition.run_always (Once key) labels ⟨Nat.zero_le 1, fun one => by cases one⟩
    fun _ label once => step_once label once

end JournalState

/-- An operation is dispatched at most once. After its first begin, every begin with another command
is refused; one with the same command is answered with the result once the operation is completed,
and is uncertain before. -/
theorem journal_at_most_once (collisionFree : Function.Injective ContentHash.sha256)
    (labels : List JournalLabel) :
    (∀ key, (JournalState.run labels).dispatchCount key ≤ 1) ∧
    ∀ (before : List JournalLabel) (reserves : JournalLabel) (after : List JournalLabel)
      (program operation : Id) (first : JournalCommand),
      labels = before ++ reserves :: after →
      reserves.committed = some (.begin program operation first) →
      ((JournalState.run before).journal.begin (program, operation) first).1 = .ok none →
      ∀ command : JournalCommand,
        let reply := ((JournalState.run labels).journal.begin (program, operation) command).1
        (¬ first.Same command → reply = .error (.refuse "COMMAND_MISMATCH"
          "Replayed operation changed command or arguments")) ∧
        (first.Same command →
          (∀ result, JournalState.CompletedIn (JournalState.run (before ++ [reserves])) after
              (program, operation) result →
            ∃ stored, reply = .ok (some stored) ∧ Json.Same stored result) ∧
          ((∀ result, ¬ JournalState.CompletedIn (JournalState.run (before ++ [reserves])) after
              (program, operation) result) →
            reply = .error (.refuse "OPERATION_UNCERTAIN"
              "Operation has no committed result; reconcile before retry"))) := by
  refine ⟨fun key => (JournalState.run_once labels key).1, ?_⟩
  rintro before reserves after program operation first rfl committed told command
  have absent := CommandJournal.begin_dispatches.mp told
  have reserved : (JournalState.run (before ++ [reserves])).journal.find (program, operation) =
      some { identity := first.identity, command := first } := by
    rw [JournalState.run, Transition.run_append, Transition.run_cons, Transition.run_nil,
      JournalState.step_journal, committed]
    have here : (Transition.run JournalState.step {} before).journal.find (program, operation) = none :=
      absent
    exact CommandJournal.begin_reserves here
  have whole : JournalState.run (before ++ reserves :: after) =
      Transition.run JournalState.step (JournalState.run (before ++ [reserves])) after := by
    rw [JournalState.run, List.append_cons, Transition.run_append]
    rfl
  obtain ⟨row, found, later⟩ := JournalState.run_later after reserved
  rw [whole]
  refine ⟨fun other => CommandJournal.begin_other collisionFree found later.identity other,
    fun same => ⟨fun result completed => ?_, fun never => ?_⟩⟩
  · obtain ⟨last, here, done, stored⟩ := JournalState.completedIn_find completed
    obtain rfl := Option.some.inj (here.symm.trans found)
    exact ⟨_, CommandJournal.begin_completed here (later.identity.trans (identity_same same)) done stored,
      Json.same_sortKeys result⟩
  · have pending := JournalState.pending_stays reserved rfl never found
    exact CommandJournal.begin_pending found (later.identity.trans (identity_same same)) pending

end

/-! ### A process that dies after completion -/

namespace Scenario

section

local instance journalHash : ContentHash := textHash

def runCheck : JournalCommand := ⟨"run", [("path", .str "check.py")]⟩

def checkResult : Json := .obj [("exit_code", .int 0)]

def journalled : List JournalLabel :=
  [.returns (.begin "program" "operation" runCheck),
    .diesAfter (.complete "program" "operation" checkResult)]

theorem journalled_answered : (JournalState.run journalled).dispatchCount ("program", "operation") ≤ 1 ∧
    ∃ stored, ((JournalState.run journalled).journal.begin ("program", "operation") runCheck).1 =
      .ok (some stored) ∧ Same stored checkResult := by
  have once := journal_at_most_once (fun _ _ same => same) journalled
  have answered := once.2 [] (.returns (.begin "program" "operation" runCheck))
    [.diesAfter (.complete "program" "operation" checkResult)] "program" "operation" runCheck rfl rfl rfl
    runCheck
  exact ⟨once.1 _, (answered.2 ⟨rfl, rfl⟩).1 checkResult ⟨[], _, [], rfl, rfl, rfl⟩⟩

end

end Scenario

end PhysHarness
