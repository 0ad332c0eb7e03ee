import PhysHarness.Workspaces.Occupancy

/-!
# Dispatch to a provider

An operation is recorded before its provider call and leaves the pending state only with that call, so
the records tell which workspace may serve another one.

## Main results

`workspace_dispatch`: at most one dispatch of an operation and at most one open operation of a
workspace, over every run of the system.
-/
namespace PhysHarness

open Outcome Broker

/-! ### Calls in flight -/

/-- The workspace and the operation of a call. -/
def Call.serves (call : Call) : Id × OperationKey := (call.workspaceId, call.key)

/-- What one broker step makes of the database and of the calls. -/
inductive Effect (sys : Sys) (after : Db) (calls : List Call) : Prop
  | idle (same : after = sys.db)
      (fewer : (calls.map Call.serves).Sublist (sys.calls.map Call.serves))
      (shorter : calls.length ≤ sys.calls.length)
  | allocated {call : Call} (allocation : Allocation sys.db after call.workspaceId call.key)
      (grown : calls = sys.calls ++ [call])
  | begun {call : Call} {op : Row WorkspaceOperation}
      (turn : Turn (Closed after call.workspaceId) sys.db after call.workspaceId call.key)
      (fresh : sys.db.operations.find call.key = none)
      (recorded : after.operations.find call.key = some op)
      (owner : op.payload.workspaceId = call.workspaceId)
      (pending : op.payload.status = .pending) (grown : calls = sys.calls ++ [call])
  | retained {workspaceId : Id} {key : OperationKey}
      (turn : Turn (Closed after workspaceId) sys.db after workspaceId key)
      (fresh : sys.db.operations.find key = none) (same : calls = sys.calls)
  | ended {index : Nat} {call : Call} (flying : sys.calls[index]? = some call)
      (turn : Turn (Closed after call.workspaceId) sys.db after call.workspaceId call.key)
      (rest : calls = sys.calls.eraseIdx index)

/-- What one label makes of them. -/
inductive Change [ContentHash] (sys : Sys) : Label → Db → List Call → Prop
  | idle {label : Label} : Change sys label sys.db sys.calls
  | aside {env : Env} {actor : Principal} {key : String} {request : Request} {after : Db}
      (other : ∀ workspaceId revision executionId evidenceId,
        request ≠ .retireFailedLocalWorkspace workspaceId revision executionId evidenceId)
      (aside : Aside sys.db after) : Change sys (.command env actor key request) after sys.calls
  | retired {env : Env} {actor : Principal} {key : String} {workspaceId : Id} {revision : Nat}
      {executionId : String} {evidenceId : Id} {after : Db} {row : Row Workspace}
      {named : OperationKey} {prior : Row WorkspaceOperation}
      (stored : sys.db.workspaces.find workspaceId = some row)
      (doubted : row.payload.status = .reconciliationRequired)
      (found : sys.db.operations.find named = some prior)
      (uncertain : prior.payload.status = .reconciliationRequired)
      (owner : prior.payload.workspaceId = workspaceId)
      (turn : Turn
        (fun id => Closed after workspaceId id ∨ row.payload.sharedWorkerSlotId = some id)
        sys.db after workspaceId named)
      (closed : ∀ later, after.workspaces.find workspaceId = some later →
        later.payload.status = .destroyed ∧ later.payload.destructionConfirmed = true) :
      Change sys (.command env actor key
        (.retireFailedLocalWorkspace workspaceId revision executionId evidenceId)) after sys.calls
  | outside {write : Outside} {after : Db} (aside : Aside sys.db after)
      (reservations : after.reservations = sys.db.reservations) :
      Change sys (.outside write) after sys.calls
  | broker {env : Env} {step : BrokerStep} {after : Db} {calls : List Call}
      (effect : Effect sys after calls) : Change sys (.broker env step) after calls

namespace Sys

variable {sys : Sys} {index : Nat} {call : Call}

theorem eraseIdx_serves (calls : List Call) (index : Nat) :
    ((calls.eraseIdx index).map Call.serves).Sublist (calls.map Call.serves) :=
  (List.eraseIdx_sublist ..).map _

/-- A call keeps its workspace and its operation at every stage. -/
theorem set_serves {calls : List Call} (flying : calls[index]? = some call) (stage : Stage) :
    (calls.set index { call with stage }).map Call.serves = calls.map Call.serves := by
  apply List.ext_getElem?
  intro position
  rw [List.getElem?_map, List.getElem?_map, List.getElem?_set]
  split
  next here =>
    subst here
    obtain ⟨inside, -⟩ := List.getElem?_eq_some_iff.mp flying
    rw [if_pos inside, flying]
    rfl
  · rfl

theorem effect_refl (sys : Sys) : Effect sys sys.db sys.calls := .idle rfl (.refl _) (le_refl _)

/-- A transaction of a call either serves the operation and ends the call, or writes nothing. -/
theorem settleCall_effect {onRefusal : Option Stage} {result : Except Failure Db}
    (flying : sys.calls[index]? = some call)
    (turns : ∀ after, result = .ok after → after = sys.db ∨
      Turn (Closed after call.workspaceId) sys.db after call.workspaceId call.key) :
    Effect sys (sys.settleCall index call onRefusal result).db
      (sys.settleCall index call onRefusal result).calls := by
  have shorter : (sys.calls.eraseIdx index).length ≤ sys.calls.length :=
    (List.eraseIdx_sublist ..).length_le
  cases result with
  | ok after =>
    rcases turns after rfl with rfl | turn
    · exact .idle rfl (eraseIdx_serves ..) shorter
    · exact .ended flying turn rfl
  | error failure =>
    cases onRefusal with
    | none => exact .idle rfl (eraseIdx_serves ..) shorter
    | some stage =>
      refine .idle rfl ?_ (List.length_set).le
      change List.Sublist ((sys.calls.set index { call with stage }).map Call.serves) _
      rw [set_serves flying]

/-- A call in flight goes on with a transaction for its own operation. -/
theorem continueCall_effect (flying : sys.calls[index]? = some call) (env : Env)
    (step : BrokerStep) :
    Effect sys (sys.continueCall env index call step).db
      (sys.continueCall env index call step).calls := by
  unfold continueCall
  dsimp only
  split
  next observed _ _ =>
    split
    · exact settleCall_effect flying fun _ failed => nomatch failed
    · exact settleCall_effect flying fun _ ran => .inr (Broker.provisionReady_turn ran)
  next =>
    split
    · exact settleCall_effect flying fun _ ran => .inr (Broker.provisionCapacity_turn ran)
    · exact effect_refl sys
  next =>
    split
    · exact settleCall_effect flying fun _ ran => .inr (Broker.performComplete_turn ran)
    · exact effect_refl sys
  next => exact settleCall_effect flying fun _ ran => .inr (Broker.performDestroy_turn ran)
  next =>
    split
    · exact settleCall_effect flying fun _ ran => .inr (Broker.performRefused_turn ran)
    · exact effect_refl sys
  next =>
    split
    · exact settleCall_effect flying fun _ ran => .inr (Broker.performDestroyed_turn ran)
    · exact effect_refl sys
  next => exact settleCall_effect flying fun _ ran => Broker.recordUncertainty_turn ran
  next => exact effect_refl sys

theorem brokerStep_effect (sys : Sys) (env : Env) (step : BrokerStep) :
    Effect sys (sys.brokerStep env step).db (sys.brokerStep env step).calls := by
  have flies {step : BrokerStep} {index : Nat} (continues : callIndex step = some index) :
      Effect sys (sys.brokerStep env step).db (sys.brokerStep env step).calls := by
    rw [brokerStep_flying continues]
    split
    · exact effect_refl sys
    next call flying => exact continueCall_effect flying env step
  cases step with
  | provision b costBound operationId =>
    simp only [brokerStep, beginProvision]
    split
    next after workspaceId key begun =>
      obtain ⟨amount, ran⟩ := Broker.provisionBegin_cases begun
      obtain ⟨started, allocation⟩ := Broker.provisionReserve_allocation ran
      obtain ⟨rfl, -⟩ := Broker.Provisioning.started.inj started
      exact .allocated allocation rfl
    · exact effect_refl sys
  | perform b workspaceId executionId operationId command inputs preserve actual attached =>
    simp only [brokerStep, beginPerform]
    split
    · exact effect_refl sys
    · split
      next begun =>
        obtain ⟨turn, fresh, op, recorded, owner, pending⟩ := Broker.start_turn begun
        exact .begun turn fresh recorded owner pending rfl
      · exact effect_refl sys
  | retain b workspaceId executionId operationId command inputs code =>
    simp only [brokerStep, Sys.retain]
    split
    · exact effect_refl sys
    · split
      next kept =>
        rcases Broker.retain_turn kept with rfl | ⟨turn, fresh⟩
        · exact .idle rfl (.refl _) (le_refl _)
        · exact .retained turn fresh rfl
      · exact effect_refl sys
  | provisionReady | provisionCapacity | performComplete | performDestroy | performRefused
      | performDestroyed | uncertain => exact flies rfl

variable [ContentHash]

omit [ContentHash] in
/-- The command log is not looked at. -/
theorem turn_logged {settles : Id → Prop} {db after : Db} {workspaceId : Id} {key : OperationKey}
    (turn : Turn settles db after workspaceId key) (commands : Table CommandKey CommandRow) :
    Turn settles db { after with commands } workspaceId key := by
  obtain ⟨stored, found, workspaces, operations, experiments, move, owner, bound, holds⟩ := turn
  exact .intro stored found workspaces operations experiments move owner bound holds

/-- A retirement destroys the workspace. -/
theorem retire_destroys {db after : Db} {env : Env} {actor : Principal} {reply : Reply}
    {workspaceId : Id} {revision : Nat} {executionId : String} {evidenceId : Id}
    (returned : retireAction env actor workspaceId revision executionId evidenceId db =
      .ok (after, reply)) :
    ∀ later, after.workspaces.find workspaceId = some later →
      later.payload.status = .destroyed ∧ later.payload.destructionConfirmed = true := by
  obtain ⟨row, _, _, _, _, _, _, -, -, -, -, -, -, rfl⟩ := retire_cases returned
  intro later found
  obtain rfl := Option.some.inj ((Table.find_put_self ..).symm.trans found)
  exact ⟨rfl, rfl⟩

theorem step_change (sys : Sys) (label : Label) :
    Change sys label (sys.step label).db (sys.step label).calls := by
  cases label with
  | command env actor key request =>
    simp only [step]
    split
    · simp only [commandStep]
      split
      next result returned =>
        rcases submit_cases returned with same | ⟨changed, commands, performs, logged⟩
        · rw [same]
          exact .idle
        · rw [logged]
          by_cases retires : ∃ workspaceId revision executionId evidenceId,
              request = .retireFailedLocalWorkspace workspaceId revision executionId evidenceId
          · obtain ⟨workspaceId, revision, executionId, evidenceId, rfl⟩ := retires
            have ran : retireAction env actor workspaceId revision executionId evidenceId sys.db =
                .ok (changed, result.2) := performs
            obtain ⟨row, named, prior, stored, doubted, found, uncertain, owner, turn⟩ :=
              retire_turn ran
            exact .retired stored doubted found uncertain owner (turn_logged turn commands)
              fun later here => retire_destroys ran later here
          · rcases performs_aside performs with aside | ⟨_, _, _, _, same, -⟩
            · refine .aside (fun _ _ _ _ same => retires ⟨_, _, _, _, same⟩) ?_
              exact ⟨aside.workspaces, aside.operations, aside.experiments, aside.reservations⟩
            · exact absurd ⟨_, _, _, _, same⟩ retires
      · exact .idle
    · exact .idle
  | broker env action =>
    simp only [step]
    split
    · exact .broker (brokerStep_effect sys env action)
    · exact .idle
  | outside write => exact .outside ⟨rfl, rfl, .refl _, .refl _⟩ rfl

/-! ### The invariant of a run -/

/-- Each call in flight has its own pending operation. -/
structure DispatchInv (sys : Sys) : Prop extends WorkspaceInv sys.db where
  apart : (sys.calls.map Call.key).Nodup
  flying : ∀ call ∈ sys.calls, ∃ op, sys.db.operations.find call.key = some op ∧
    op.payload.workspaceId = call.workspaceId ∧ op.payload.status = .pending

omit [ContentHash] in
theorem turn_operations {settles : Id → Prop} {db after : Db} {workspaceId : Id}
    {key other : OperationKey} (turn : Turn settles db after workspaceId key)
    (distinct : other ≠ key) : after.operations.find other = db.operations.find other := by
  obtain ⟨-, -, -, operations, -, -, -, -, -⟩ := turn
  rw [operations, Table.find_put_ne _ _ distinct]

omit [ContentHash] in
/-- The calls that go on after one of them ended serve other operations. -/
theorem eraseIdx_apart {calls : List Call} {index : Nat} {call other : Call}
    (apart : (calls.map Call.key).Nodup) (flying : calls[index]? = some call)
    (listed : other ∈ calls.eraseIdx index) : other.key ≠ call.key := by
  obtain ⟨inside, rfl⟩ := List.getElem?_eq_some_iff.mp flying
  have order := (List.getElem_cons_eraseIdx_perm inside).map Call.key
  have distinct := order.nodup_iff.mpr apart
  rw [List.map_cons, List.nodup_cons] at distinct
  rintro same
  exact distinct.1 (same ▸ List.mem_map_of_mem listed)

omit [ContentHash] in
theorem apart_append {calls : List Call} {call : Call} (apart : (calls.map Call.key).Nodup)
    (fresh : ∀ other ∈ calls, other.key ≠ call.key) :
    ((calls ++ [call]).map Call.key).Nodup := by
  rw [List.map_append, List.map_singleton, List.nodup_append]
  refine ⟨apart, List.nodup_singleton _, fun key listed other new => ?_⟩
  obtain ⟨flying, member, rfl⟩ := List.mem_map.mp listed
  rw [List.mem_singleton.mp new]
  exact fresh flying member

omit [ContentHash] in
theorem DispatchInv.effect {sys : Sys} {after : Db} {calls : List Call} (inv : DispatchInv sys)
    (effect : Effect sys after calls) (now : Time) : DispatchInv { db := after, calls, now } := by
  have available {call : Call} (listed : call ∈ sys.calls) :
      Available sys.db call.workspaceId call.key := by
    obtain ⟨op, found, owner, pending⟩ := inv.flying call listed
    intro row stored
    obtain ⟨active, status⟩ := inv.pending call.key op row found pending (by rw [owner]; exact stored)
    exact ⟨status, .inr active⟩
  have begins {settles : Id → Prop} {workspaceId : Id} {key : OperationKey}
      (turn : Turn settles sys.db after workspaceId key)
      (fresh : sys.db.operations.find key = none) : WorkspaceInv after := by
    refine inv.toWorkspaceInv.turn turn (fun _ found => nomatch fresh.symm.trans found) (.inl ?_)
    intro row here
    obtain ⟨stored, found, -, -, -, move, -, -, -⟩ := turn
    obtain rfl := Option.some.inj (stored.symm.trans here)
    obtain rfl := found.symm.trans fresh
    cases move with
    | begun ready free | retained ready free => exact ⟨.inr ready, .inl free⟩
  have unused {key : OperationKey} (fresh : sys.db.operations.find key = none) :
      ∀ other ∈ sys.calls, other.key ≠ key := by
    rintro other listed rfl
    obtain ⟨op, found, -⟩ := inv.flying other listed
    exact nomatch fresh.symm.trans found
  cases effect with
  | idle same fewer shorter =>
    subst same
    refine ⟨inv.toWorkspaceInv, ?_, fun call listed => ?_⟩
    · have keys := fewer.map Prod.snd
      rw [List.map_map, List.map_map] at keys
      exact inv.apart.sublist keys
    · have served := fewer.subset (List.mem_map_of_mem listed)
      obtain ⟨earlier, member, same⟩ := List.mem_map.mp served
      obtain ⟨workspace, key⟩ := Prod.mk.inj same
      rw [← workspace, ← key]
      exact inv.flying earlier member
  | @allocated call allocation grown =>
    subst grown
    have wider := inv.toWorkspaceInv.allocate allocation
    obtain ⟨-, operations, -, -, -, fresh, -, -, -, pending, owner, -, -, -⟩ := allocation
    refine ⟨wider, apart_append inv.apart (unused fresh), fun other listed => ?_⟩
    rcases List.mem_append.mp listed with old | new
    · have distinct := unused fresh other old
      change ∃ op, after.operations.find other.key = some op ∧ _
      rw [operations, Table.find_put_ne _ _ distinct]
      exact inv.flying other old
    · obtain rfl := List.mem_singleton.mp new
      change ∃ op, after.operations.find other.key = some op ∧ _
      rw [operations, Table.find_put_self]
      exact ⟨_, rfl, owner, pending⟩
  | @begun call op turn fresh recorded owner pending grown =>
    subst grown
    refine ⟨begins turn fresh, apart_append inv.apart (unused fresh), fun other listed => ?_⟩
    rcases List.mem_append.mp listed with old | new
    · have distinct := unused fresh other old
      obtain ⟨earlier, found, rest⟩ := inv.flying other old
      exact ⟨earlier, (turn_operations turn distinct).trans found, rest⟩
    · obtain rfl := List.mem_singleton.mp new
      exact ⟨op, recorded, owner, pending⟩
  | retained turn fresh same =>
    subst same
    refine ⟨begins turn fresh, inv.apart, fun other listed => ?_⟩
    obtain ⟨earlier, found, rest⟩ := inv.flying other listed
    exact ⟨earlier, (turn_operations turn (unused fresh other listed)).trans found, rest⟩
  | @ended index call flying turn rest =>
    subst rest
    have listed := List.mem_of_getElem? flying
    obtain ⟨op, found, owner, -⟩ := inv.flying call listed
    have kept := inv.toWorkspaceInv.turn turn (fun prior here => by
      obtain rfl := Option.some.inj (found.symm.trans here)
      exact owner) (.inl (available listed))
    refine ⟨kept, ?_, fun other later => ?_⟩
    · exact inv.apart.sublist ((List.eraseIdx_sublist ..).map _)
    · obtain ⟨earlier, here, rest⟩ := inv.flying other (List.mem_of_mem_eraseIdx later)
      exact ⟨earlier, (turn_operations turn (eraseIdx_apart inv.apart flying later)).trans here, rest⟩

theorem DispatchInv.step {sys : Sys} (inv : DispatchInv sys) (label : Label) :
    DispatchInv (sys.step label) := by
  have change := step_change sys label
  have whole (now : Time) (kept : DispatchInv { db := (sys.step label).db, calls := (sys.step label).calls, now }) :
      DispatchInv (sys.step label) := ⟨kept.toWorkspaceInv, kept.apart, kept.flying⟩
  refine whole 0 ?_
  generalize (sys.step label).db = after, (sys.step label).calls = calls at change ⊢
  have still {after : Db} (aside : Aside sys.db after) :
      DispatchInv { db := after, calls := sys.calls, now := 0 } := by
    refine ⟨inv.toWorkspaceInv.aside aside, inv.apart, fun call listed => ?_⟩
    obtain ⟨op, found, rest⟩ := inv.flying call listed
    refine ⟨op, ?_, rest⟩
    change after.operations.find call.key = some op
    rw [aside.operations, found]
  cases change with
  | idle => exact ⟨inv.toWorkspaceInv, inv.apart, inv.flying⟩
  | aside _ aside => exact still aside
  | outside aside => exact still aside
  | @retired _ _ _ workspaceId _ _ _ _ row named prior stored doubted found uncertain owner turn closed =>
    refine ⟨inv.toWorkspaceInv.turn turn (fun earlier here => ?_) (.inr ⟨fun other here => ?_,
        fun later here => (closed later here).1⟩),
      inv.apart, fun call listed => ?_⟩
    · obtain rfl := Option.some.inj (found.symm.trans here)
      exact owner
    · obtain rfl := Option.some.inj (stored.symm.trans here)
      exact doubted
    · obtain ⟨op, here, rest, pending⟩ := inv.flying call listed
      have distinct : call.key ≠ named := by
        rintro same
        rw [same, found] at here
        obtain rfl := Option.some.inj here
        exact nomatch uncertain.symm.trans pending
      exact ⟨op, (turn_operations turn distinct).trans here, rest, pending⟩
  | broker effect => exact inv.effect effect 0

theorem dispatchInv_run (labels : List Label) : DispatchInv (run labels) :=
  Transition.run_always DispatchInv labels
    ⟨workspaceInv_empty, List.nodup_nil, fun _ listed => nomatch listed⟩
    fun _ label inv => inv.step label

/-! ### What a run dispatches -/

/-- The calls that a label puts in flight. -/
def begun (sys : Sys) (label : Label) : List Call := (sys.step label).calls.drop sys.calls.length

/-- The operations whose provider calls a run begins, in order. -/
def dispatched (sys : Sys) : List Label → List OperationKey
  | [] => []
  | label :: labels => (sys.begun label).map Call.key ++ dispatched (sys.step label) labels

/-- No operation of the workspace is pending or uncertain. -/
def Unoccupied (db : Db) (workspaceId : Id) : Prop :=
  ∀ key op, db.operations.find key = some op → op.payload.workspaceId = workspaceId →
    op.payload.status ≠ .pending ∧ op.payload.status ≠ .reconciliationRequired

omit [ContentHash] in
/-- A ready workspace without an active operation has no open one. -/
theorem unoccupied_of_ready {db : Db} {workspaceId : Id} {row : Row Workspace}
    (inv : WorkspaceInv db) (stored : db.workspaces.find workspaceId = some row)
    (ready : row.payload.status = .ready) (free : row.payload.activeOperation = none) :
    Unoccupied db workspaceId := by
  intro key op found owner
  rw [← owner] at stored
  refine ⟨fun pending => ?_, fun doubtful => ?_⟩
  · obtain ⟨active, -⟩ := inv.pending key op row found pending stored
    exact nomatch free.symm.trans active
  · have doubted := inv.doubted key op row found doubtful stored
    rw [ready] at doubted
    exact doubted.elim nofun nofun

/-- A label dispatches one operation at most, which is new, of a workspace with no open one. -/
theorem begun_cases {sys : Sys} (inv : DispatchInv sys) (label : Label) :
    sys.begun label = [] ∨ ∃ call op, sys.begun label = [call] ∧
      sys.db.operations.find call.key = none ∧
      (sys.step label).db.operations.find call.key = some op ∧
      Unoccupied sys.db call.workspaceId := by
  have change := step_change sys label
  unfold begun
  generalize (sys.step label).db = after, (sys.step label).calls = calls at change ⊢
  have appended (call : Call) : (sys.calls ++ [call]).drop sys.calls.length = [call] := by simp
  cases change with
  | idle | aside | retired | outside => exact .inl List.drop_length
  | broker effect =>
    cases effect with
    | idle _ _ shorter => exact .inl (List.drop_eq_nil_of_le shorter)
    | retained _ _ same => exact .inl (by rw [same, List.drop_length])
    | ended _ _ rest =>
      refine .inl (List.drop_eq_nil_of_le ?_)
      rw [rest]
      exact (List.eraseIdx_sublist ..).length_le
    | @allocated call allocation grown =>
      obtain ⟨-, operations, -, -, unused, fresh, -, -, -, -, -, -, -, -⟩ := allocation
      have recorded := congrArg (fun table => table.find call.key) operations
      refine .inr ⟨call, _, by rw [grown, appended], fresh,
        recorded.trans (Table.find_put_self ..), fun key op found owner => ?_⟩
      obtain ⟨row, stored⟩ := inv.owned key op found
      rw [owner, unused] at stored
      exact nomatch stored
    | @begun call op turn fresh recorded _ _ grown =>
      refine .inr ⟨call, op, by rw [grown, appended], fresh, recorded, ?_⟩
      obtain ⟨stored, found, -, -, -, move, -, -, -⟩ := turn
      obtain rfl := found.symm.trans fresh
      cases move with
      | begun ready free | retained ready free =>
        exact unoccupied_of_ready inv.toWorkspaceInv stored ready free

/-- No operation is ever removed. -/
theorem step_known {sys : Sys} (label : Label) {key : OperationKey}
    (absent : (sys.step label).db.operations.find key = none) :
    sys.db.operations.find key = none := by
  have change := step_change sys label
  generalize (sys.step label).db = after, (sys.step label).calls = calls at change absent
  have turned {settles : Id → Prop} {workspaceId : Id} {named : OperationKey}
      (turn : Turn settles sys.db after workspaceId named) : sys.db.operations.find key = none := by
    obtain ⟨-, -, -, operations, -, -, -, -, -⟩ := turn
    rw [operations, Table.find_put] at absent
    split at absent
    · exact nomatch absent
    · exact absent
  cases change with
  | idle => exact absent
  | aside _ aside | outside aside => exact aside.operations ▸ absent
  | retired _ _ _ _ _ turn => exact turned turn
  | broker effect =>
    cases effect with
    | idle same => exact same ▸ absent
    | begun turn | retained turn | ended _ turn => exact turned turn
    | allocated allocation =>
      obtain ⟨-, operations, -, -, -, -, -, -, -, -, -, -, -, -⟩ := allocation
      rw [operations, Table.find_put] at absent
      split at absent
      · exact nomatch absent
      · exact absent

/-- A completed operation stays as it was recorded. -/
theorem step_completed {sys : Sys} (inv : DispatchInv sys) (label : Label) {key : OperationKey}
    {op : Row WorkspaceOperation} (found : sys.db.operations.find key = some op)
    (completed : op.payload.status = .completed) :
    (sys.step label).db.operations.find key = some op := by
  have change := step_change sys label
  generalize (sys.step label).db = after, (sys.step label).calls = calls at change ⊢
  have turned {settles : Id → Prop} {workspaceId : Id} {named : OperationKey}
      (turn : Turn settles sys.db after workspaceId named)
      (open_ : ∀ prior, sys.db.operations.find named = some prior →
        prior.payload.status ≠ .completed) : after.operations.find key = some op := by
    rw [turn_operations turn, found]
    rintro rfl
    exact open_ op found completed
  have unrecorded {named : OperationKey} (fresh : sys.db.operations.find named = none) :
      ∀ prior, sys.db.operations.find named = some prior → prior.payload.status ≠ .completed :=
    fun _ here => nomatch fresh.symm.trans here
  cases change with
  | idle => exact found
  | aside _ aside | outside aside => rw [aside.operations, found]
  | retired _ _ here uncertain _ turn =>
    refine turned turn fun prior there => ?_
    obtain rfl := Option.some.inj (here.symm.trans there)
    rw [uncertain]
    decide
  | broker effect =>
    cases effect with
    | idle same => rw [same, found]
    | begun turn fresh | retained turn fresh => exact turned turn (unrecorded fresh)
    | ended flying turn =>
      refine turned turn fun prior there => ?_
      obtain ⟨op, here, -, pending⟩ := inv.flying _ (List.mem_of_getElem? flying)
      obtain rfl := Option.some.inj (here.symm.trans there)
      rw [pending]
      decide
    | allocated allocation =>
      obtain ⟨-, operations, -, -, -, fresh, -, -, -, -, -, -, -, -⟩ := allocation
      rw [operations, Table.find_put_ne, found]
      rintro rfl
      exact nomatch fresh.symm.trans found

/-- What a run dispatches is not recorded before, and not dispatched twice. -/
theorem dispatched_fresh {sys : Sys} (inv : DispatchInv sys) (labels : List Label) :
    (dispatched sys labels).Nodup ∧
      ∀ key ∈ dispatched sys labels, sys.db.operations.find key = none := by
  induction labels generalizing sys with
  | nil => exact ⟨List.nodup_nil, fun _ listed => nomatch listed⟩
  | cons label labels ih =>
    obtain ⟨distinct, unknown⟩ := ih (inv.step label)
    have later (key : OperationKey) (listed : key ∈ dispatched (sys.step label) labels) :
        sys.db.operations.find key = none := step_known label (unknown key listed)
    rcases begun_cases inv label with none | ⟨call, op, one, fresh, recorded, -⟩
    · simp only [dispatched, none, List.map_nil, List.nil_append]
      exact ⟨distinct, later⟩
    · simp only [dispatched, one, List.map_cons, List.map_nil, List.cons_append, List.nil_append,
        List.nodup_cons, List.mem_cons]
      refine ⟨⟨fun again => ?_, distinct⟩, ?_⟩
      · exact nomatch recorded.symm.trans (unknown call.key again)
      · rintro key (rfl | listed)
        · exact fresh
        · exact later key listed

/-! ### Settlement -/

/-- The reservation of the workspace is settled and its destruction is not confirmed. -/
def SettledOpen (db : Db) (id : Id) : Prop :=
  ∃ row reservation, db.workspaces.find id = some row ∧
    db.reservations.find row.payload.reservationId = some reservation ∧
    reservation.state = .settled ∧
    ¬ (row.payload.status = .destroyed ∧ row.payload.destructionConfirmed = true)

omit [ContentHash] in
/-- A broker transaction settles the reservation of the workspace that it closes, and no other. -/
theorem turn_settles {db after : Db} {workspaceId id : Id} {key : OperationKey}
    (turn : Turn (Closed after workspaceId) db after workspaceId key) (inv : WorkspaceInv after)
    (alive : ∀ row, db.workspaces.find workspaceId = some row → row.payload.status ≠ .destroyed)
    (settled : SettledOpen after id) : SettledOpen db id := by
  obtain ⟨row, reservation, stored, found, state, unconfirmed⟩ := settled
  have earlier : ∃ earlier, db.reservations.find row.payload.reservationId = some earlier ∧
      earlier.state = .settled := by
    obtain ⟨-, -, -, -, -, -, -, -, holds⟩ := turn
    refine (holds.settled _ _ found state).resolve_right ?_
    rintro ⟨closed, here, same, destroyed, confirmed⟩
    obtain rfl := inv.distinct _ _ closed row here stored same
    obtain rfl := Option.some.inj (here.symm.trans stored)
    exact unconfirmed ⟨destroyed, confirmed⟩
  obtain ⟨earlier, before, was⟩ := earlier
  obtain ⟨known, -, workspaces, -, -, -, -, bound, -⟩ := turn
  rw [workspaces] at stored
  rcases Table.find_put_cases stored with ⟨rfl, rfl⟩ | ⟨-, old⟩
  · rw [Row.replace_payload, bound.1] at before
    exact ⟨_, earlier, known, before, was, fun gone => alive _ known gone.1⟩
  · exact ⟨row, earlier, old, before, was, unconfirmed⟩

/-- Only a command that is no retirement of the workspace can settle it early. -/
theorem step_settles {sys : Sys} (inv : DispatchInv sys) (label : Label) {id : Id}
    (before : ¬ SettledOpen sys.db id) (settled : SettledOpen (sys.step label).db id) :
    ∃ env actor key request, label = .command env actor key request ∧
      ∀ revision executionId evidenceId,
        request ≠ .retireFailedLocalWorkspace id revision executionId evidenceId := by
  have change := step_change sys label
  have kept := (inv.step label).toWorkspaceInv
  generalize (sys.step label).db = after, (sys.step label).calls = calls at change settled kept
  have begun {workspaceId : Id} {key : OperationKey}
      (turn : Turn (Closed after workspaceId) sys.db after workspaceId key)
      (fresh : sys.db.operations.find key = none) : SettledOpen sys.db id := by
    refine turn_settles turn kept (fun row here => ?_) settled
    obtain ⟨stored, found, -, -, -, move, -, -, -⟩ := turn
    obtain rfl := Option.some.inj (stored.symm.trans here)
    obtain rfl := found.symm.trans fresh
    cases move with
    | begun ready | retained ready =>
      rw [ready]
      decide
  cases change with
  | idle => exact absurd settled before
  | @aside env actor key request _ other => exact ⟨env, actor, key, request, rfl, other id⟩
  | @retired env actor key workspaceId revision executionId evidenceId _ _ _ _ _ _ _ _ _ _ closed =>
    refine ⟨env, actor, key, _, rfl, fun _ _ _ same => ?_⟩
    obtain ⟨row, _, stored, -, -, unconfirmed⟩ := settled
    obtain ⟨rfl, -⟩ := Request.retireFailedLocalWorkspace.inj same
    exact unconfirmed (closed row stored)
  | outside aside reservations =>
    obtain ⟨row, reservation, stored, found, rest⟩ := settled
    rw [aside.workspaces] at stored
    rw [reservations] at found
    exact absurd ⟨row, reservation, stored, found, rest⟩ before
  | broker effect =>
    cases effect with
    | idle same => exact absurd (same ▸ settled) before
    | begun turn fresh | retained turn fresh => exact absurd (begun turn fresh) before
    | @ended _ call flying turn =>
      obtain ⟨op, found, owner, pending⟩ := inv.flying _ (List.mem_of_getElem? flying)
      refine absurd (turn_settles turn kept (fun row here => ?_) settled) before
      rw [← owner] at here
      rcases (inv.pending call.key op row found pending here).2 with live | live <;> rw [live] <;>
        decide
    | allocated allocation =>
      obtain ⟨workspaces, -, reservations, -, -, -, unheld, -, -, -, -, unsettled, -, -⟩ :=
        allocation
      obtain ⟨row, reservation, stored, found, state, unconfirmed⟩ := settled
      rw [workspaces] at stored
      rw [reservations] at found
      rcases Table.find_put_cases stored with ⟨rfl, rfl⟩ | ⟨-, old⟩
      · rw [Table.find_put_self] at found
        obtain rfl := Option.some.inj found
        exact absurd state unsettled
      · obtain ⟨held, here⟩ := inv.held id row old
        rw [Table.find_put_ne] at found
        · exact absurd ⟨row, reservation, old, found, state, unconfirmed⟩ before
        · intro same
          rw [same, unheld] at here
          exact nomatch here

end Sys

/-! ### Replays -/

/-- The command and the inputs of a repeated call are those of the record. -/
def WorkspaceOperation.Repeats (op : WorkspaceOperation) (b : Broker) (command : WorkspaceCommand)
    (inputs : OperationInputs) : Prop :=
  op.command = command ∧ op.inputs = inputs ∧ op.holder = b.holder ∧ op.fence = b.fence ∧
    op.providerSpec = b.providerSpec ∧ op.workerSlotId = b.workerSlotId

namespace Broker

variable {b : Broker} {db after : Db} {env : Env} {key : OperationKey}
  {op : Row WorkspaceOperation} {result : OperationResult}

theorem prior_completed {command : WorkspaceCommand} {inputs : OperationInputs}
    (found : db.operations.find key = some op) (completed : op.payload.status = .completed)
    (recorded : op.payload.result = some result) (repeats : op.payload.Repeats b command inputs) :
    b.prior db key command inputs = .ok (some result) := by
  simp only [prior, found, bind_ok, require_ok, exists_const, completed, recorded, pure_ok, and_true]
  exact repeats

/-- A repeated call that passes its guard returns the recorded result and writes nothing. -/
theorem start_replay {workspaceId : Id} {executionId : String} {command : WorkspaceCommand}
    {inputs : OperationInputs} {cleanup : Bool} {row : Row Workspace} {task : Row Task}
    (read : b.workspace db workspaceId = .ok row)
    (guarded : b.guardWorkspace db env cleanup row.payload executionId = .ok task)
    (found : db.operations.find key = some op) (completed : op.payload.status = .completed)
    (recorded : op.payload.result = some result) (repeats : op.payload.Repeats b command inputs)
    (attached : Option String) (validated : Except Failure Unit) :
    b.start db env workspaceId executionId key command inputs cleanup attached validated =
      .ok (db, some result) := by
  simp only [start, bind_ok]
  exact ⟨row, read, task, guarded, some result, prior_completed found completed recorded repeats, rfl⟩

/-- A repeated allocation returns the workspace of its record as it is now. -/
theorem provision_replay {costBound : Option Int} {operationId : String}
    {provisioning : Provisioning}
    (returned : b.provisionBegin db env costBound operationId = .ok (after, provisioning))
    (named : b.operationKey "provision" operationId = .ok key)
    (found : db.operations.find key = some op) (completed : op.payload.status = .completed)
    (recorded : op.payload.result = some result) :
    after = db ∧ ∃ workspaceId left current, result = .workspace workspaceId left ∧
      db.workspaces.find workspaceId = some current ∧
      provisioning = .replayed workspaceId current := by
  simp only [provisionBegin, bind_ok, require_ok, exists_const] at returned
  obtain ⟨amount, -, -, key', named', -, -, earlier, known, returned⟩ := returned
  obtain rfl := Except.ok.inj (named.symm.trans named')
  have same : earlier = some result := by
    simp only [prior, found, completed, recorded, bind_ok, require_ok, exists_const,
      pure_ok] at known
    exact known.2.symm
  subst same
  cases result with
  | value | failure => simp at returned
  | workspace workspaceId left =>
    simp only [bind_ok, pure_ok, Prod.mk.injEq] at returned
    obtain ⟨current, read, rfl, rfl⟩ := returned
    exact ⟨rfl, workspaceId, left, current, rfl, workspace_find read, rfl⟩

end Broker

section Runs

variable [ContentHash]

/-- What a run of any broker transactions and any other writes keeps to. -/
structure DispatchDiscipline (labels : List Label) : Prop where
  once : (Sys.dispatched {} labels).Nodup
  exclusive : ∀ label, ∀ call ∈ (Sys.run labels).begun label,
    Sys.Unoccupied (Sys.run labels).db call.workspaceId
  replayed : ∀ key op, (Sys.run labels).db.operations.find key = some op →
    op.payload.status = .completed → ∃ result, op.payload.result = some result ∧
      ∀ later (b : Broker) env db, db = (Sys.run (labels ++ later)).db →
        (∀ workspaceId executionId command inputs cleanup attached validated row task,
          b.workspace db workspaceId = .ok row →
          b.guardWorkspace db env cleanup row.payload executionId = .ok task →
          op.payload.Repeats b command inputs →
            b.start db env workspaceId executionId key command inputs cleanup attached validated =
              .ok (db, some result)) ∧
        ∀ costBound operationId after provisioning,
          b.provisionBegin db env costBound operationId = .ok (after, provisioning) →
          b.operationKey "provision" operationId = .ok key →
            after = db ∧ ∃ workspaceId left current, result = .workspace workspaceId left ∧
              db.workspaces.find workspaceId = some current ∧
              provisioning = .replayed workspaceId current
  -- only a command outside the broker settles a reservation before the destruction is confirmed
  settled : ∀ id, Sys.SettledOpen (Sys.run labels).db id →
    ∃ first env actor key request rest, labels = first ++ .command env actor key request :: rest ∧
      (∀ revision executionId evidenceId,
        request ≠ .retireFailedLocalWorkspace id revision executionId evidenceId) ∧
      ¬ Sys.SettledOpen (Sys.run first).db id ∧
      Sys.SettledOpen ((Sys.run first).step (.command env actor key request)).db id
  slots : ∀ id other row second slotId, (Sys.run labels).db.workspaces.find id = some row →
    (Sys.run labels).db.workspaces.find other = some second →
    row.payload.sharedWorkerSlotId = some slotId → second.payload.sharedWorkerSlotId = some slotId →
    row.payload.status ≠ .destroyed → second.payload.status ≠ .destroyed → id = other

theorem run_completed (labels later : List Label) {key : OperationKey}
    {op : Row WorkspaceOperation} (found : (Sys.run labels).db.operations.find key = some op)
    (completed : op.payload.status = .completed) :
    (Sys.run (labels ++ later)).db.operations.find key = some op := by
  rw [Sys.run_append]
  have kept := @Transition.run_always _ _ Sys.step
    (fun sys => sys.DispatchInv ∧ sys.db.operations.find key = some op) _ later
    ⟨Sys.dispatchInv_run labels, found⟩
    fun sys label inv => ⟨inv.1.step label, Sys.step_completed inv.1 label inv.2 completed⟩
  exact kept.2

theorem workspace_dispatch (labels : List Label) : DispatchDiscipline labels := by
  have inv := Sys.dispatchInv_run labels
  refine ⟨?_, ?_, ?_, ?_, inv.single⟩
  · have start : Sys.DispatchInv {} := Sys.dispatchInv_run []
    exact (Sys.dispatched_fresh start labels).1
  · intro label call listed
    rcases Sys.begun_cases inv label with none | ⟨begun, op, one, -, -, unoccupied⟩
    · rw [none] at listed
      exact nomatch listed
    · rw [one] at listed
      obtain rfl := List.mem_singleton.mp listed
      exact unoccupied
  · intro key op found completed
    obtain ⟨result, recorded⟩ := Option.isSome_iff_exists.mp (inv.recorded key op found completed)
    refine ⟨result, recorded, fun later b env db state => ?_⟩
    have still : db.operations.find key = some op := by
      rw [state]
      exact run_completed labels later found completed
    refine ⟨?_, ?_⟩
    · intro workspaceId executionId command inputs cleanup attached validated row task read guarded
        repeats
      exact Broker.start_replay read guarded still completed recorded repeats attached validated
    · intro costBound operationId after provisioning returned named
      exact Broker.provision_replay returned named still completed recorded
  · intro id settled
    have absent : ¬ Sys.SettledOpen ({} : Sys).db id := by
      rintro ⟨row, _, stored, -⟩
      exact nomatch stored
    obtain ⟨first, label, rest, parts, before, reached⟩ :=
      Transition.run_begins (fun sys : Sys => Sys.SettledOpen sys.db id) absent settled
    obtain ⟨env, actor, key, request, rfl, other⟩ :=
      Sys.step_settles (Sys.dispatchInv_run first) label before reached
    exact ⟨first, env, actor, key, request, rest, parts, other, before, reached⟩

end Runs

namespace Scenario

/-- A workspace is provisioned and destroyed. -/
def provisionedAndDestroyed : List Label :=
  leasedTask ++
    [.broker (envAt 0 "reservation" "workspace") (.provision workbench (some 5) "vm"),
      .broker (envAt 0) (.provisionReady 0 "execution"),
      .broker (envAt 0) (.perform workbench "workspace" "execution" "close" .destroy {} false (some 0)
        (some "execution") (.ok ())),
      .broker (envAt 0) (.performDestroy 0)]

def provisionKey : OperationKey :=
  { projectId := "project", taskId := "task", workspaceId := "provision", operationId := "vm" }

/-- The status of the workspace that the allocation recorded. -/
def recordedStatus (db : Db) : Option WorkspaceStatus :=
  (db.operations.find provisionKey).bind fun op =>
    match op.payload.result with
    | some (.workspace _ row) => some row.payload.status
    | _ => none

/-- The status of the workspace that the repeated allocation returns. -/
def replayedStatus (db : Db) : Option WorkspaceStatus :=
  match workbench.provisionBegin db (envAt 0) (some 5) "vm" with
  | .ok (_, .replayed _ row) => some row.payload.status
  | _ => none

/-- The repeated allocation does not return its recorded result. -/
theorem provision_replays_current :
    recordedStatus (@Sys.run textHash provisionedAndDestroyed).db = some .ready ∧
      replayedStatus (@Sys.run textHash provisionedAndDestroyed).db = some .destroyed := by
  decide

end Scenario

end PhysHarness
