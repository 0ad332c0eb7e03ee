import PhysHarness.Evaluation.Portfolio

/-!
What an accepted history is, whatever its order: each observation fits its attempt, no attempt is
observed twice and no trace is used twice.
-/
namespace PhysHarness

open Outcome Python

variable {manifest : EvaluationManifest}

/-! ### The table of the attempts -/

theorem mem_planTable {plans : List AttemptPlan} {entry : Digest × AttemptPlan}
    (member : entry ∈ planTable plans) : entry.2 ∈ plans ∧ entry.1 = entry.2.id := by
  suffices every : ∀ table : PlanTable, entry ∈ plans.foldl (fun table plan => Dict.set table plan.id plan) table →
      entry ∈ table ∨ (entry.2 ∈ plans ∧ entry.1 = entry.2.id) from
    (every [] member).resolve_left List.not_mem_nil
  clear member
  induction plans with
  | nil => exact fun table inside => .inl inside
  | cons plan plans ih =>
    intro table inside
    rcases ih _ inside with stored | ⟨later, own⟩
    · rcases Dict.mem_set.mp stored with rfl | ⟨old, -⟩
      · exact .inr ⟨List.mem_cons_self, rfl⟩
      · exact .inl old
    · exact .inr ⟨List.mem_cons_of_mem _ later, own⟩

theorem planTable_get {plans : List AttemptPlan} {id : Digest} {plan : AttemptPlan}
    (found : Dict.get (planTable plans) id = some plan) : plan ∈ plans ∧ plan.id = id := by
  obtain ⟨member, own⟩ := mem_planTable (Dict.mem_of_get found)
  exact ⟨member, own.symm⟩

/-- Attempts with distinct identifiers are all in their table, in order. -/
theorem planTable_nodup {plans : List AttemptPlan} (distinct : (plans.map AttemptPlan.id).Nodup) :
    planTable plans = plans.map fun plan => (plan.id, plan) := by
  suffices every : ∀ table : PlanTable, (table.map Prod.fst ++ plans.map AttemptPlan.id).Nodup →
      plans.foldl (fun table plan => Dict.set table plan.id plan) table =
        table ++ plans.map fun plan => (plan.id, plan) from
    every [] (by simpa using distinct)
  clear distinct
  induction plans with
  | nil => simp
  | cons plan plans ih =>
    intro table distinct
    have fresh : plan.id ∉ table.map Prod.fst := by
      intro known
      rw [List.nodup_append] at distinct
      exact distinct.2.2 _ known _ List.mem_cons_self rfl
    rw [List.foldl_cons, ih, Dict.set, if_neg fresh]
    · simp
    · rw [Dict.set, if_neg fresh]
      simpa using distinct

theorem candidate_attempt [ContentHash] {plan : AttemptPlan} (member : plan ∈ manifest.candidates) :
    ∃ target ∈ manifest.targets, ∃ arm ∈ manifest.arms, ∃ repetition < manifest.repetitions,
      plan = manifest.attempt target arm repetition := by
  simp only [EvaluationManifest.candidates, List.mem_flatMap, List.mem_map, List.mem_range] at member
  obtain ⟨target, listed, repetition, below, arm, known, rfl⟩ := member
  exact ⟨target, listed, arm, known, repetition, below, rfl⟩

theorem plan_ok [ContentHash] {plans : List AttemptPlan} : manifest.plan = .ok plans ↔
    plans = manifest.candidates ∧ (∃ cost, Decimal.times manifest.capacity manifest.attemptCostUsd = some cost ∧
      cost.value ≤ manifest.envelope.maxCostUsd.value) ∧
      manifest.capacity * manifest.attemptTokens ≤ manifest.envelope.maxTokens ∧
      manifest.reservedSeconds ≤ manifest.envelope.maxWallSeconds ∧
      manifest.repetitions * manifest.arms.length * manifest.targets.length ≤ 100000 := by
  simp only [EvaluationManifest.plan, bind_ok, orThrow_ok, require_ok, exists_const, pure_ok,
    Decimal.exceeds_false]
  constructor
  · rintro ⟨cost, product, ⟨within, tokens, seconds⟩, few, rfl⟩
    exact ⟨rfl, ⟨cost, product, within⟩, tokens, seconds, few⟩
  · rintro ⟨rfl, ⟨cost, product, within⟩, tokens, seconds, few⟩
    exact ⟨cost, product, ⟨within, tokens, seconds⟩, few, rfl⟩

/-! ### Distinct attempts -/

section

variable [ContentHash]

/-- Without a collision an identity names its target, its arm and its repetition. -/
theorem identity_target (collisionFree : Function.Injective ContentHash.sha256)
    {target other : TargetSpec} {arm arm' : ArmSpec} {repetition repetition' : Nat}
    (same : manifest.identity target arm repetition = manifest.identity other arm' repetition') :
    target.problemId = other.problemId ∧ arm.id = arm'.id ∧ repetition = repetition' := by
  have values := Json.dumps_inj (collisionFree same)
  simp only [Json.sortKeys, Json.sortItems, Json.arr.injEq, List.cons.injEq, true_and,
    and_true, Json.int.injEq, Nat.cast_inj] at values
  obtain ⟨targets, arms, rfl⟩ := values
  have problem := Json.get_same targets (by simp) "problem_id"
  have id := Json.get_same arms (by simp) "id"
  simp only [Dict.get, List.find?, Option.map_some, Option.some.injEq, decide_true] at problem id
  exact ⟨Json.str.inj problem, Json.str.inj id, rfl⟩

theorem candidates_nodup (collisionFree : Function.Injective ContentHash.sha256) :
    (manifest.candidates.map AttemptPlan.id).Nodup := by
  have ids : manifest.candidates.map AttemptPlan.id = manifest.targets.flatMap fun target =>
      (List.range manifest.repetitions).flatMap fun repetition =>
        manifest.arms.map fun arm => manifest.identity target arm repetition := by
    simp only [EvaluationManifest.candidates, List.map_flatMap, List.map_map]
    rfl
  rw [ids, List.nodup_flatMap]
  refine ⟨fun target _ => List.nodup_flatMap.mpr ⟨fun repetition _ => ?_, ?_⟩, ?_⟩
  · refine List.Nodup.map_on (fun arm listed other listed' same => ?_) manifest.armIds.of_map
    exact List.inj_on_of_nodup_map manifest.armIds listed listed' (identity_target collisionFree same).2.1
  · refine List.Pairwise.imp (fun distinct id one two => ?_) List.nodup_range
    obtain ⟨arm, -, rfl⟩ := List.mem_map.mp one
    obtain ⟨arm', -, same⟩ := List.mem_map.mp two
    exact distinct (identity_target collisionFree same).2.2.symm
  · refine List.Pairwise.imp (fun distinct id one two => ?_) (List.pairwise_map.mp manifest.problemIds)
    simp only [List.mem_flatMap, List.mem_map] at one two
    obtain ⟨repetition, -, arm, -, rfl⟩ := one
    obtain ⟨repetition', -, arm', -, same⟩ := two
    exact distinct (identity_target collisionFree same).1.symm

theorem attempt_equal [FloatValue] (target : TargetSpec) (arm : ArmSpec) (repetition : Nat) :
    (manifest.attempt target arm repetition).equal (manifest.attempt target arm repetition) = true := by
  have parameters := same_self (.obj arm.parameters) arm.dict
  have cost := Decimal.exceeds_false.mpr (le_refl manifest.attemptCostUsd.value)
  simp [AttemptPlan.equal, EvaluationManifest.attempt, parameters, cost]

/-- The planned attempts are accepted as the plans. -/
theorem equalTables_candidates [FloatValue] (collisionFree : Function.Injective ContentHash.sha256) :
    equalTables (planTable manifest.candidates) (planTable manifest.candidates) = true := by
  have distinct : (manifest.candidates.map AttemptPlan.id).Nodup := candidates_nodup collisionFree
  have keys : ((manifest.candidates.map fun plan => (plan.id, plan)).map Prod.fst).Nodup := by
    rwa [List.map_map]
  rw [planTable_nodup distinct, equalTables, decide_eq_true rfl, Bool.true_and, List.all_eq_true]
  intro entry member
  rw [(Dict.get_eq_some keys).mpr member]
  obtain ⟨plan, listed, rfl⟩ := List.mem_map.mp member
  obtain ⟨target, -, arm, -, repetition, -, rfl⟩ := candidate_attempt listed
  exact attempt_equal target arm repetition

/-- Each planned attempt is found under its identifier. -/
theorem candidate_get (collisionFree : Function.Injective ContentHash.sha256) {plan : AttemptPlan}
    (member : plan ∈ manifest.candidates) :
    Dict.get (planTable manifest.candidates) plan.id = some plan := by
  have distinct : (manifest.candidates.map AttemptPlan.id).Nodup := candidates_nodup collisionFree
  rw [planTable_nodup distinct]
  refine (Dict.get_eq_some ?_).mpr (List.mem_map.mpr ⟨plan, member, rfl⟩)
  rwa [List.map_map]

end

/-! ### Observations -/

/-- The observation is of a planned attempt, has its trace and its model, and is within its limits. -/
structure Fits (manifest : EvaluationManifest) (observation : AttemptObservation) (plan : AttemptPlan) :
    Prop where
  traced : manifest.mode = .live → ∃ trace ∈ observation.runtimeTraceDigest, trace ≠ ""
  model : observation.observedModel = plan.model
  cost : observation.costUsd.value ≤ plan.maxCostUsd.value
  tokens : observation.tokens ≤ plan.maxTokens
  seconds : observation.wallSeconds ≤ plan.maxWallSeconds

theorem checkObservation_ok {expected : PlanTable} {seen traces : List Digest}
    {observation : AttemptObservation} :
    manifest.checkObservation expected seen traces observation = .ok () ↔
      observation.attemptId ∉ seen ∧
      (∃ plan, Dict.get expected observation.attemptId = some plan ∧ Fits manifest observation plan) ∧
      ∀ trace ∈ EvaluationManifest.traceOf observation, trace ∉ traces := by
  have trace : (∀ trace ∈ EvaluationManifest.traceOf observation, trace ∉ traces) ↔
      ∀ trace ∈ observation.runtimeTraceDigest, trace ≠ "" → trace ∉ traces := by
    simp [EvaluationManifest.traceOf]
  rw [trace]
  simp only [EvaluationManifest.checkObservation, bind_ok, orThrow_ok, require_ok, exists_const,
    Decimal.exceeds_false]
  constructor
  · rintro ⟨fresh, plan, found, traced, unused, model, cost, tokens, seconds⟩
    exact ⟨fresh, ⟨plan, found, traced, model, cost, tokens, seconds⟩, unused⟩
  · rintro ⟨fresh, ⟨plan, found, fits⟩, unused⟩
    exact ⟨fresh, plan, found, fits.traced, unused, fits.model, fits.cost, fits.tokens, fits.seconds⟩

/-- The attempts and the traces of a history. -/
def attemptIds (history : List AttemptObservation) : List Digest :=
  history.map AttemptObservation.attemptId

def tracesOf (history : List AttemptObservation) : List Digest :=
  history.flatMap EvaluationManifest.traceOf

theorem traceOf_nodup (observation : AttemptObservation) :
    (EvaluationManifest.traceOf observation).Nodup := by
  unfold EvaluationManifest.traceOf
  cases observation.runtimeTraceDigest with
  | none => exact List.nodup_nil
  | some trace => exact (List.nodup_singleton trace).filter _

theorem checkHistory_ok {expected : PlanTable} {seen traces : List Digest}
    {history : List AttemptObservation} (once : seen.Nodup) (apart : traces.Nodup) :
    manifest.checkHistory expected seen traces history = .ok () ↔
      (∀ observation ∈ history, ∃ plan, Dict.get expected observation.attemptId = some plan ∧
        Fits manifest observation plan) ∧
      (seen ++ attemptIds history).Nodup ∧ (traces ++ tracesOf history).Nodup := by
  induction history generalizing seen traces with
  | nil => simp [EvaluationManifest.checkHistory, attemptIds, tracesOf, once, apart]
  | cons observation history ih =>
    have ids : (observation.attemptId :: seen ++ attemptIds history).Perm
        (seen ++ attemptIds (observation :: history)) := List.perm_middle.symm
    have swapped : (EvaluationManifest.traceOf observation ++ traces ++ tracesOf history).Perm
        (traces ++ tracesOf (observation :: history)) := by
      unfold tracesOf
      rw [List.flatMap_cons, ← List.append_assoc]
      exact List.Perm.append_right _ List.perm_append_comm
    rw [EvaluationManifest.checkHistory, List.forall_mem_cons, ← ids.nodup_iff, ← swapped.nodup_iff]
    constructor
    · intro done
      obtain ⟨_, checked, rest⟩ := bind_ok.mp done
      obtain ⟨fresh, known, unused⟩ := checkObservation_ok.mp checked
      have apart' : (EvaluationManifest.traceOf observation ++ traces).Nodup :=
        List.nodup_append'.mpr ⟨traceOf_nodup observation, apart, unused⟩
      obtain ⟨all, distinct, separate⟩ := (ih (List.nodup_cons.mpr ⟨fresh, once⟩) apart').mp rest
      exact ⟨⟨known, all⟩, distinct, separate⟩
    · rintro ⟨⟨known, all⟩, distinct, separate⟩
      have own := List.nodup_append.mp separate |>.1
      have first := List.nodup_append.mp distinct |>.1
      refine bind_ok.mpr ⟨(), checkObservation_ok.mpr ⟨(List.nodup_cons.mp first).1, known, ?_⟩, ?_⟩
      · exact (List.nodup_append'.mp own).2.2
      · exact (ih first own).mpr ⟨all, distinct, separate⟩

section

variable [FloatValue] [ContentHash]

/-- What an accepted history is. -/
theorem validateHistory_ok {plans : List AttemptPlan} {history : List AttemptObservation}
    {expected : PlanTable} : manifest.validateHistory plans history = .ok expected ↔
      (∃ planned, manifest.plan = .ok planned ∧ expected = planTable planned) ∧
      equalTables (planTable plans) expected = true ∧ plans.length = expected.length ∧
      (∀ observation ∈ history, ∃ plan, Dict.get expected observation.attemptId = some plan ∧
        Fits manifest observation plan) ∧
      (attemptIds history).Nodup ∧ (tracesOf history).Nodup ∧ history.length ≤ manifest.capacity := by
  simp only [EvaluationManifest.validateHistory, bind_ok, require_ok, exists_const, pure_ok,
    checkHistory_ok List.nodup_nil List.nodup_nil, List.nil_append]
  constructor
  · rintro ⟨planned, known, ⟨equal, length⟩, ⟨fits, ids, traces⟩, few, rfl⟩
    exact ⟨⟨planned, known, rfl⟩, equal, length, fits, ids, traces, few⟩
  · rintro ⟨⟨planned, known, rfl⟩, equal, length, fits, ids, traces, few⟩
    exact ⟨planned, known, ⟨equal, length⟩, ⟨fits, ids, traces⟩, few, rfl⟩

/-- The order of a history does not matter to its acceptance. -/
theorem validateHistory_perm {plans : List AttemptPlan} {first second : List AttemptObservation}
    (perm : first.Perm second) {expected : PlanTable}
    (accepted : manifest.validateHistory plans first = .ok expected) :
    manifest.validateHistory plans second = .ok expected := by
  obtain ⟨planned, equal, length, fits, ids, traces, few⟩ := validateHistory_ok.mp accepted
  refine validateHistory_ok.mpr ⟨planned, equal, length, ?_, ?_, ?_, ?_⟩
  · exact fun observation member => fits observation (perm.mem_iff.mpr member)
  · exact (perm.map _).nodup_iff.mp ids
  · exact (perm.flatMap_right _).nodup_iff.mp traces
  · exact perm.length_eq ▸ few

end

namespace Scenario

def targetSha256 : Digest := "0123456789abcdef0123456789abcdef0123456789abcdef0123456789abcdef"

def sampleTarget : TargetSpec where
  problemId := "problem"
  targetDigest := targetSha256
  environmentDigest := targetSha256
  familyId := "family"
  split := .development
  nonempty := by decide
  digests := by decide

def sampleArm : ArmSpec where
  id := "arm"
  runtime := "runtime"
  model := "model"
  approach := "approach"
  nonempty := by decide
  exactModel := by decide
  dict := by decide

/-- One attempt, and an envelope of one dollar. -/
def oneAttempt (cost : Decimal) : EvaluationManifest where
  id := "manifest"
  mode := .replay
  seed := 0
  targets := [sampleTarget]
  arms := [sampleArm]
  envelope := ⟨⟨1, 0⟩, 10, 10, 1, by decide⟩
  attemptCostUsd := cost
  attemptTokens := 10
  attemptSeconds := 10
  deepAttemptSeconds := 10
  repeats := 1
  targetBounds := by decide
  armBounds := by decide
  positive := by decide
  repeatBounds := by decide
  depth := by decide
  armIds := by decide
  problemIds := by decide
  families := by simp

end Scenario

end PhysHarness
