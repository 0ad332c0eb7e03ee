import PhysHarness.Verification.Boundary

/-!
# The container run

The launcher starts the checker, reads its answer, inspects the container before it removes it, and
confirms that it is gone. Inspection and removal stand in a `finally` block: what they raise
replaces what was returned or raised before.
-/
namespace PhysHarness

open Outcome

/-- How one Docker command ends. -/
inductive ProcessReply where
  | exited (code : Int) (output : Bytes)
  /-- A time or output limit, or no client. -/
  | failed (code : String) (diagnostics : List (String × Json))
  | osError (message : String)

/-- How the checker's slot is found. -/
inductive SlotReply where
  | free
  | foreign
  | busy
  | osError (message : String)

/-- What the host and Docker do during one run. -/
structure Docker where
  slot : SlotReply
  /-- `shutil.which("docker")` -/
  executable : Option String
  /-- An error while the run's directory is prepared. -/
  staging : Option String
  run : ProcessReply
  inspect : ProcessReply
  /-- The second inspection, after the first one has raised. -/
  inspectAgain : ProcessReply
  remove : ProcessReply
  list : ProcessReply
  /-- An error while the run's directory is removed. -/
  teardown : Option String
  name : String

/-- The observed state of the container. -/
inductive ContainerState where
  | observed (oomKilled : Bool) (exitCode : Int) (error : String)
  | failed (exitCode : Int) (diagnostic : String)
  | unreadable (error : String)

def ContainerState.dump : ContainerState → Json
  | .observed oomKilled exitCode error =>
    .obj [("status", .str "observed"), ("oom_killed", .bool oomKilled), ("exit_code", .int exitCode),
      ("error", .str error)]
  | .failed exitCode diagnostic =>
    .obj [("status", .str "unavailable"), ("exit_code", .int exitCode),
      ("diagnostic", .str diagnostic)]
  | .unreadable error => .obj [("status", .str "unavailable"), ("error", .str error)]

/-- `state.get("oom_killed") is True` -/
def ContainerState.oomKilled : ContainerState → Bool
  | .observed killed _ _ => killed
  | _ => false

/-- `text[:n]` -/
def clip (n : Nat) (text : String) : String := .ofList (text.toList.take n)

def typeName : Json → String
  | .null => "NoneType"
  | .bool _ => "bool"
  | .int _ => "int"
  | .float _ => "float"
  | .str _ => "str"
  | .arr _ => "list"
  | .obj _ => "dict"

def checkSlot : SlotReply → Except Raised Unit
  | .free => .ok ()
  | .foreign =>
    .error (.execution "checker_slot_invalid" [("operation", .str "resource slot ownership")])
  | .busy => .error (.execution "checker_busy" [("checker_slots", .int 1)])
  | .osError message => .error (.value message)

/-- An `OSError` at this point, if there is one. -/
def osErrors : Option String → Except Raised Unit
  | none => .ok ()
  | some message => .error (.value message)

def ProcessReply.result : ProcessReply → Except Raised (Int × Bytes)
  | .exited code output => .ok (code, output)
  | .failed code diagnostics => .error (.execution code diagnostics)
  | .osError message => .error (.value message)

section Runs

variable [Decoders]

/-- The decoded answer of a run that exited with zero. -/
def checkerAnswer (run : ProcessReply) : Except Raised Json := do
  let (code, output) ← run.result
  if code ≠ 0 then
    .error (.execution "container_failed" [("operation", .str "docker run"),
      ("exit_code", .int code), ("output", .str (Decoders.decode output))])
  else match Decoders.loads output with
    | .value value => .ok value
    | .invalid message => .error (.value message)
    | .tooDeep => .error .recursion

/-- `_container_state`, which turns every error but a `RecursionError` into a state. -/
def containerState : ProcessReply → Except Raised ContainerState
  | .failed code _ => .ok (.unreadable (clip 500 code))
  | .osError message => .ok (.unreadable (clip 500 message))
  | .exited code raw =>
    if code ≠ 0 then .ok (.failed code (clip 2000 (Decoders.decode raw)))
    else match Decoders.loads raw with
      | .tooDeep => .error .recursion
      | .invalid message => .ok (.unreadable (clip 500 message))
      | .value (.obj state) =>
        match Dict.get state "OOMKilled", Dict.get state "ExitCode" with
        | some (.bool killed), some (.int exitCode) =>
          .ok (.observed killed exitCode
            (clip 2000 (Decoders.str ((Dict.get state "Error").getD (.str "")))))
        | _, _ => .ok (.unreadable "Docker state is missing typed OOM/exit observations")
      | .value value =>
        .ok (.unreadable ("'" ++ typeName value ++ "' object has no attribute 'get'"))

/-- What is known of one of the commands that confirm the removal. -/
def commandReport : ProcessReply → List (String × Json)
  | .exited code output => [("exit_code", .int code), ("output", .str (Decoders.decode output))]
  | .failed code diagnostics => ("code", .str code) :: diagnostics
  | .osError _ => []

/-- A successful listing of the exact name without output. -/
def showsAbsence : ProcessReply → Bool
  | .exited 0 output => output.blank
  | _ => false

/-- `_cleanup_container`: the container was removed, or a listing shows that it is absent. -/
def cleanupContainer (docker : Docker) (prior : Option (String × List (String × Json))) :
    Except Raised Json := do
  let removal := commandReport docker.remove
  match docker.remove with
  | .osError message => .error (.value message)
  | .exited 0 _ =>
    return .obj (("status", .str "removed") :: ("container_name", .str docker.name) :: removal)
  | _ =>
    match docker.list with
    | .osError message => .error (.value message)
    | listing =>
      if showsAbsence listing = true then
        return .obj [("status", .str "confirmed_absent"), ("container_name", .str docker.name),
          ("removal", .obj removal), ("absence_check", .obj (commandReport listing))]
      else
        .error (.execution "container_cleanup_failed" [("operation", .str "docker rm --force"),
          ("container_name", .str docker.name), ("cleanup", .obj removal),
          ("absence_check", .obj (commandReport listing)),
          ("prior_failure", match prior with
            | none => .null
            | some (code, diagnostics) =>
              .obj [("code", .str code), ("diagnostics", .obj diagnostics)])])

/-- Change the diagnostics of an answer that has some. -/
def withDiagnostics (change : List (String × Json) → List (String × Json) → List (String × Json)) :
    Json → Json
  | .obj fields =>
    match Dict.get fields "diagnostics" with
    | some (.obj diagnostics) => .obj (change fields diagnostics)
    | _ => .obj fields
  | value => value

/-- The observed state joins the answer, and an observed OOM kill overrules it. -/
def observe (state : ContainerState) : Json → Json :=
  withDiagnostics fun fields diagnostics =>
    let fields := Dict.set fields "diagnostics"
      (.obj (Dict.set diagnostics "container_state" state.dump))
    if state.oomKilled then
      Dict.set (Dict.set (Dict.set (Dict.set fields "status" (.str "blocked")) "code"
        (.str "resource_oom")) "axioms" (.arr [])) "independent_kernel" (.bool false)
    else fields

def recordCleanup (cleanup : Json) : Json → Json :=
  withDiagnostics fun fields diagnostics =>
    Dict.set fields "diagnostics" (.obj (Dict.set diagnostics "container_cleanup" cleanup))

variable [ByteHash]

/-- The failure of a run, once the container has been inspected. -/
def runFailure (config : ComparatorConfig) (state : ContainerState) (code : String)
    (diagnostics : List (String × Json)) : String × List (String × Json) :=
  let diagnostics := Dict.set (Dict.set (Dict.set diagnostics "container_state" state.dump)
    "resource_profile_sha256" (.str config.resources.sha256)) "resource_profile"
    config.resources.dump
  if state.oomKilled then
    ("resource_oom", Dict.set diagnostics "prior_execution_code" (.str code))
  else (code, diagnostics)

/-- The code and diagnostics under which a caught exception is reported. -/
def Raised.failure : Raised → Option (String × List (String × Json))
  | .execution code diagnostics => some (code, diagnostics)
  | .value message => some ("invalid_checker_response", [("error", .str message)])
  | .recursion => none

/-- The `try` block, its handler and its `finally` block. -/
def supervise (config : ComparatorConfig) (docker : Docker) : Except Raised Json :=
  match checkerAnswer docker.run with
  | .ok result => do
    let state ← containerState docker.inspect
    let cleanup ← cleanupContainer docker none
    return recordCleanup cleanup (observe state result)
  | .error raised =>
    match raised.failure with
    | none => do
      -- no handler takes a `RecursionError`
      let _ ← containerState docker.inspect
      let _ ← cleanupContainer docker none
      throw raised
    | some (code, diagnostics) =>
      match containerState docker.inspect with
      | .ok state => do
        let (code, diagnostics) := runFailure config state code diagnostics
        let cleanup ← cleanupContainer docker (some (code, diagnostics))
        throw (.execution code (Dict.set diagnostics "container_cleanup" cleanup))
      | .error again => do
        -- the handler itself has raised, and the `finally` block inspects once more
        let _ ← containerState docker.inspectAgain
        let _ ← cleanupContainer docker none
        throw again

/-- Leaving the run's directory: an error of its removal replaces the result. -/
def leaving (teardown : Option String) (result : Except Raised Json) : Except Raised Json := do
  osErrors teardown
  result

/-- `_run_container` -/
def runContainer (config : ComparatorConfig) (docker : Docker) : Except Raised Json := do
  checkSlot docker.slot
  require (docker.executable.bind (fun path => (pathParts path).getLast?) = some "docker")
    (.execution "launcher_unavailable" [("operation", .str "resolve Docker executable")])
  leaving docker.teardown do
    osErrors docker.staging
    supervise config docker

/-! ### When a run ends without a caught error -/

/-- The command's output nests deeper than the decoder follows. -/
def Overflows (reply : ProcessReply) : Prop :=
  ∃ output, reply = .exited 0 output ∧ Decoders.loads output = .tooDeep

/-- The container was removed, or a listing showed that it is absent. -/
def Gone (docker : Docker) : Prop :=
  (∃ output, docker.remove = .exited 0 output) ∨
    ((∀ message, docker.remove ≠ .osError message) ∧ showsAbsence docker.list = true)

omit [ByteHash] in
theorem containerState_recursion {inspected : ProcessReply} {raised : Raised} :
    containerState inspected = .error raised ↔ Overflows inspected ∧ raised = .recursion := by
  unfold containerState Overflows
  cases inspected with
  | failed code diagnostics => simp
  | osError message => simp
  | exited code raw =>
    by_cases zero : code = 0
    · subst zero
      cases loaded : Decoders.loads raw with
      | tooDeep => simp [loaded, eq_comm]
      | invalid message => simp [loaded]
      | value value =>
        cases value <;> simp [loaded]
        split <;> simp
    · simp [zero]

omit [ByteHash] in
theorem checkerAnswer_recursion {run : ProcessReply} :
    checkerAnswer run = .error .recursion ↔ Overflows run := by
  unfold checkerAnswer Overflows ProcessReply.result
  cases run with
  | failed code diagnostics => simp [bind, Except.bind]
  | osError message => simp [bind, Except.bind]
  | exited code raw =>
    by_cases zero : code = 0
    · subst zero
      cases loaded : Decoders.loads raw <;> simp [bind, Except.bind, loaded]
    · simp [bind, Except.bind, zero]

omit [ByteHash] in
theorem checkerAnswer_ok {run : ProcessReply} {answer : Json} :
    checkerAnswer run = .ok answer ↔
      ∃ output, run = .exited 0 output ∧ Decoders.loads output = .value answer := by
  unfold checkerAnswer ProcessReply.result
  cases run with
  | failed code diagnostics => simp [bind, Except.bind]
  | osError message => simp [bind, Except.bind]
  | exited code raw =>
    by_cases zero : code = 0
    · subst zero
      cases loaded : Decoders.loads raw <;> simp [bind, Except.bind, loaded]
    · simp [bind, Except.bind, zero]

omit [ByteHash] in
theorem cleanup_gone {docker : Docker} {prior : Option (String × List (String × Json))} :
    (∃ cleanup, cleanupContainer docker prior = .ok cleanup) ↔ Gone docker := by
  unfold cleanupContainer Gone
  dsimp only
  split
  next message removed => simp [removed]
  next output removed => simp [removed]
  next other failed =>
    have first : ¬ ∃ output, docker.remove = .exited 0 output := fun ⟨output, same⟩ =>
      failed output same
    have answered : ∀ message, docker.remove ≠ .osError message := other
    split
    next message listed => simp [first, listed, showsAbsence]
    next listed =>
      split
      next absent => simp [absent, answered]
      next present => simp [first, present]

omit [ByteHash] in
/-- The removal never raises a `RecursionError`. -/
theorem cleanup_caught {docker : Docker} {prior : Option (String × List (String × Json))} :
    cleanupContainer docker prior ≠ .error .recursion := by
  unfold cleanupContainer
  dsimp only
  split
  · exact nofun
  · exact nofun
  · split
    · exact nofun
    · split <;> exact nofun

omit [ByteHash] in
theorem containerState_cases (inspected : ProcessReply) :
    (∃ state, containerState inspected = .ok state ∧ ¬ Overflows inspected) ∨
      containerState inspected = .error .recursion ∧ Overflows inspected := by
  cases seen : containerState inspected with
  | ok state =>
    refine .inl ⟨state, rfl, fun deep => ?_⟩
    rw [containerState_recursion.mpr ⟨deep, rfl⟩] at seen
    exact nomatch seen
  | error raised =>
    obtain ⟨deep, rfl⟩ := containerState_recursion.mp seen
    exact .inr ⟨rfl, deep⟩

omit [ByteHash] in
theorem cleanup_cases (docker : Docker) (prior : Option (String × List (String × Json))) :
    (∃ cleanup, cleanupContainer docker prior = .ok cleanup ∧ Gone docker) ∨
      ∃ raised, cleanupContainer docker prior = .error raised ∧ raised ≠ .recursion ∧
        ¬ Gone docker := by
  cases cleaned : cleanupContainer docker prior with
  | ok cleanup => exact .inl ⟨cleanup, rfl, cleanup_gone.mp ⟨cleanup, cleaned⟩⟩
  | error raised =>
    refine .inr ⟨raised, rfl, fun same => cleanup_caught (same ▸ cleaned), fun gone => ?_⟩
    obtain ⟨cleanup, done⟩ := (@cleanup_gone _ docker prior).mpr gone
    rw [cleaned] at done
    exact nomatch done

/-- What the `finally` block leaves of a `RecursionError` that it meets. -/
def Passes (docker : Docker) (inspected : ProcessReply) : Prop :=
  Overflows inspected ∨ Gone docker

/-- A `RecursionError` leaves the run: the answer nests too deep and the `finally` block adds no
other error, or the inspection does, in that block or in the handler. -/
def Escapes (docker : Docker) : Prop :=
  (Overflows docker.run ∧ Passes docker docker.inspect) ∨
    (¬ Overflows docker.run ∧ Overflows docker.inspect ∧
      ((∃ answer, checkerAnswer docker.run = .ok answer) ∨ Passes docker docker.inspectAgain))

omit [ByteHash] in
/-- The `finally` block around a `RecursionError`. -/
theorem finally_recursion (docker : Docker) (inspected : ProcessReply) :
    (containerState inspected >>= fun _ => cleanupContainer docker none >>= fun _ =>
      (throw Raised.recursion : Except Raised Json)) = .error .recursion ↔
      Passes docker inspected := by
  rcases containerState_cases inspected with ⟨state, seen, shallow⟩ | ⟨seen, deep⟩
  · rw [seen]
    rcases cleanup_cases docker none with ⟨cleanup, cleaned, gone⟩ | ⟨raised, cleaned, other, left⟩
    · rw [show (Except.ok state : Except Raised ContainerState) >>= _ = _ from rfl, cleaned]
      simp [Passes, gone, bind, Except.bind, throw, throwThe, MonadExceptOf.throw]
    · rw [show (Except.ok state : Except Raised ContainerState) >>= _ = _ from rfl, cleaned]
      simp [Passes, left, shallow, bind, Except.bind, other]
  · rw [seen]
    simp [Passes, deep, bind, Except.bind]

theorem supervise_recursion {config : ComparatorConfig} {docker : Docker} :
    supervise config docker = .error .recursion ↔ Escapes docker := by
  unfold supervise
  cases answered : checkerAnswer docker.run with
  | ok answer =>
    have shallow : ¬ Overflows docker.run := by
      intro deep
      rw [checkerAnswer_recursion.mpr deep] at answered
      exact nomatch answered
    dsimp only
    rcases containerState_cases docker.inspect with ⟨state, seen, clear⟩ | ⟨seen, deep⟩
    · rw [seen]
      rcases cleanup_cases docker none with ⟨cleanup, cleaned, _⟩ | ⟨raised, cleaned, other, _⟩
      · simp [Escapes, shallow, clear, bind, Except.bind, cleaned]
        exact nofun
      · simp [Escapes, shallow, clear, bind, Except.bind, cleaned, other]
    · rw [seen]
      simp [Escapes, shallow, deep, bind, Except.bind, answered]
  | error raised =>
    cases raised with
    | recursion =>
      have deep := checkerAnswer_recursion.mp answered
      have same := finally_recursion docker docker.inspect
      simpa [Escapes, deep, Raised.failure] using same
    | value message | execution code diagnostics =>
      have shallow : ¬ Overflows docker.run := by
        intro deep
        rw [checkerAnswer_recursion.mpr deep] at answered
        exact nomatch answered
      simp only [Raised.failure]
      rcases containerState_cases docker.inspect with ⟨state, seen, clear⟩ | ⟨seen, deep⟩
      · rw [seen]
        dsimp only
        generalize runFailure config state _ _ = failure
        rcases cleanup_cases docker (some (failure.1, failure.2)) with
          ⟨cleanup, cleaned, _⟩ | ⟨raised, cleaned, other, _⟩
        · simp [Escapes, shallow, clear, bind, Except.bind, cleaned]
          exact nofun
        · simp [Escapes, shallow, clear, bind, Except.bind, cleaned, other]
      · rw [seen]
        have same := finally_recursion docker docker.inspectAgain
        simpa [Escapes, shallow, deep, answered] using same

theorem supervise_ok {config : ComparatorConfig} {docker : Docker} {result : Json}
    (supervised : supervise config docker = .ok result) :
    ∃ answer state cleanup, checkerAnswer docker.run = .ok answer ∧
      containerState docker.inspect = .ok state ∧ Gone docker ∧
      result = recordCleanup cleanup (observe state answer) := by
  unfold supervise at supervised
  split at supervised
  next answer answered =>
    obtain ⟨state, seen, rest⟩ := bind_ok.mp supervised
    obtain ⟨cleanup, cleaned, same⟩ := bind_ok.mp rest
    exact ⟨answer, state, cleanup, answered, seen, cleanup_gone.mp ⟨cleanup, cleaned⟩,
      (pure_ok.mp same).symm⟩
  next raised answered =>
    split at supervised
    · obtain ⟨_, _, rest⟩ := bind_ok.mp supervised
      obtain ⟨_, _, thrown⟩ := bind_ok.mp rest
      exact nomatch thrown
    · split at supervised
      · obtain ⟨_, _, thrown⟩ := bind_ok.mp supervised
        exact nomatch thrown
      · obtain ⟨_, _, rest⟩ := bind_ok.mp supervised
        obtain ⟨_, _, thrown⟩ := bind_ok.mp rest
        exact nomatch thrown

/-- The run is reached: the slot is free, Docker is there, and the run's directory gives no error. -/
def RunReady (docker : Docker) : Prop :=
  checkSlot docker.slot = .ok () ∧
    docker.executable.bind (fun path => (pathParts path).getLast?) = some "docker" ∧
    docker.staging = none ∧ docker.teardown = none

theorem runContainer_recursion {config : ComparatorConfig} {docker : Docker} :
    runContainer config docker = .error .recursion ↔ RunReady docker ∧ Escapes docker := by
  unfold runContainer RunReady
  cases slot : docker.slot with
  | foreign | busy | osError message => simp [checkSlot, bind, Except.bind]
  | free =>
    by_cases found : docker.executable.bind (fun path => (pathParts path).getLast?) = some "docker"
    · cases teardown : docker.teardown with
      | some message =>
        simp [checkSlot, bind, Except.bind, require, found, leaving, osErrors]
      | none =>
        cases staging : docker.staging with
        | some message =>
          simp [checkSlot, bind, Except.bind, require, found, leaving, osErrors]
        | none =>
          have same := @supervise_recursion _ _ config docker
          simpa [checkSlot, bind, Except.bind, require, found, leaving, osErrors] using same
    · simp [checkSlot, bind, Except.bind, require, found]

theorem runContainer_ok {config : ComparatorConfig} {docker : Docker} {result : Json}
    (ran : runContainer config docker = .ok result) : supervise config docker = .ok result := by
  unfold runContainer leaving at ran
  obtain ⟨_, _, ran⟩ := bind_ok.mp ran
  obtain ⟨_, _, ran⟩ := bind_ok.mp ran
  obtain ⟨_, _, ran⟩ := bind_ok.mp ran
  obtain ⟨_, _, ran⟩ := bind_ok.mp ran
  exact ran

end Runs

end PhysHarness
