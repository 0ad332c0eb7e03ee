import Mathlib.Data.List.MinMax
import Mathlib.Order.WithBot
import PhysHarness.Evaluation.Evidence
import PhysHarness.Lib.Decimal

/-!
Deterministic planning of an evaluation: the manifest, the attempts that it plans, the history that the
planner accepts, and the next attempt that it selects.
-/
namespace PhysHarness

open Outcome Python

structure EvaluationBudget where
  maxCostUsd : Decimal
  maxWallSeconds : Nat
  maxTokens : Nat
  maxConcurrency : Nat
  positive : 0 < maxWallSeconds ∧ 0 < maxTokens ∧ 0 < maxConcurrency

inductive Partition where
  | development | holdout
  deriving DecidableEq

structure TargetSpec where
  problemId : String
  targetDigest : Digest
  environmentDigest : Digest
  familyId : String
  split : Partition
  nonempty : problemId ≠ "" ∧ familyId ≠ ""
  digests : [targetDigest, environmentDigest].all isSha256 = true

/-- `exact_model`: an identifier without white space. -/
structure ArmSpec where
  id : String
  runtime : String
  model : String
  approach : String
  parameters : Record := []
  nonempty : id ≠ "" ∧ runtime ≠ "" ∧ model ≠ "" ∧ approach ≠ ""
  exactModel : model.toList.all (fun c => !isSpace c) = true
  dict : Json.isDict (.obj parameters) = true

inductive EvaluationMode where
  | live | replay | synthetic
  deriving DecidableEq

inductive AllocationPolicy where
  | uniform | adaptive
  deriving DecidableEq

inductive EvaluationSharing where
  | none | verified | attributedIdeas
  deriving DecidableEq

structure EvaluationManifest where
  id : String
  mode : EvaluationMode
  seed : Nat
  targets : List TargetSpec
  arms : List ArmSpec
  envelope : EvaluationBudget
  attemptCostUsd : Decimal
  attemptTokens : Nat
  attemptSeconds : Nat
  deepAttemptSeconds : Nat
  repeats : Nat
  protectedPerArm : Nat := 1
  policy : AllocationPolicy := .uniform
  sharing : EvaluationSharing := .none
  targetBounds : 1 ≤ targets.length ∧ targets.length ≤ 1000
  armBounds : 1 ≤ arms.length ∧ arms.length ≤ 100
  positive : id ≠ "" ∧ 0 < attemptTokens ∧ 0 < attemptSeconds ∧ 0 < deepAttemptSeconds
  repeatBounds : 1 ≤ repeats ∧ repeats ≤ 1000
  depth : protectedPerArm ≤ repeats ∧ attemptSeconds ≤ deepAttemptSeconds
  armIds : (arms.map ArmSpec.id).Nodup
  problemIds : (targets.map TargetSpec.problemId).Nodup
  families : ∀ first ∈ targets, ∀ second ∈ targets,
    first.familyId = second.familyId → first.split = second.split

inductive ContextPolicy where
  | freshIndependent | explicitShared
  deriving DecidableEq

structure AttemptPlan where
  id : Digest
  manifestId : String
  problemId : String
  targetDigest : Digest
  environmentDigest : Digest
  armId : String
  runtime : String
  model : String
  approach : String
  parameters : Record
  repetition : Nat
  seed : Nat
  isProtected : Bool
  maxCostUsd : Decimal
  maxTokens : Nat
  maxWallSeconds : Nat
  contextPolicy : ContextPolicy

inductive AttemptStatus where
  | completed | failed | running
  deriving DecidableEq

/-- `wallSeconds` is the number that the float is. -/
structure AttemptObservation where
  attemptId : Digest
  observedModel : String
  status : AttemptStatus
  costUsd : Decimal
  wallSeconds : ℚ
  tokens : Nat
  experimentId : String
  receiptId : Option String := none
  runtimeTraceDigest : Option Digest := none
  wallBound : 0 ≤ wallSeconds

/-- How the planner ends without a decision: a refusal in its own words, no plan left to select, an
exception of the decimal context, or one of the evidence. -/
inductive PortfolioError where
  | refused (text : String)
  | unavailable
  | overflow
  | crashed
  deriving DecidableEq

/-- The values of the float expressions of the planner, for a number of trials: the share of wins and
the radius for a total of trials. -/
class ArmScores where
  successRate : Nat → Nat → ℚ
  radius : Nat → Nat → ℚ
  sum : ℚ → ℚ → ℚ

structure AllocationDecision where
  attempt : Option AttemptPlan
  reason : String
  observations : Nat := 0
  empiricalSuccessRate : Option ℚ := none
  uncertaintyRadius : Option ℚ := none

/-- `canonical_digest` -/
def canonicalDigest [ContentHash] (value : Json) : Digest := ContentHash.sha256 (Json.canonical value)

namespace TargetSpec

def dump (target : TargetSpec) : Json :=
  .obj [("problem_id", .str target.problemId), ("target_digest", .str target.targetDigest),
    ("environment_digest", .str target.environmentDigest), ("family_id", .str target.familyId),
    ("split", .str (match target.split with | .development => "development" | .holdout => "holdout"))]

end TargetSpec

namespace ArmSpec

def dump (arm : ArmSpec) : Json :=
  .obj [("id", .str arm.id), ("runtime", .str arm.runtime), ("model", .str arm.model),
    ("approach", .str arm.approach), ("parameters", .obj arm.parameters)]

end ArmSpec

namespace EvaluationManifest

variable (manifest : EvaluationManifest)

/-- The number of funded attempts. -/
def capacity : Nat := manifest.targets.length * manifest.arms.length * manifest.repeats

/-- The wall seconds of all funded attempts, the protected ones deep. -/
def reservedSeconds : Nat :=
  let deep := manifest.targets.length * manifest.arms.length * manifest.protectedPerArm
  deep * manifest.deepAttemptSeconds + (manifest.capacity - deep) * manifest.attemptSeconds

/-- The repetitions that are planned for each arm. -/
def repetitions : Nat :=
  match manifest.policy with
  | .uniform => manifest.repeats
  | .adaptive => manifest.repeats * manifest.arms.length

section

variable [ContentHash]

def identity (target : TargetSpec) (arm : ArmSpec) (repetition : Nat) : Digest :=
  canonicalDigest (.arr [.str manifest.id, .int manifest.seed, target.dump, arm.dump, .int repetition])

/-- `int(identity[:16], 16)` -/
def seedOf (identity : Digest) : Nat :=
  (identity.toList.take 16).foldl (fun seed c => 16 * seed + "0123456789abcdef".toList.idxOf c) 0

def attempt (target : TargetSpec) (arm : ArmSpec) (repetition : Nat) : AttemptPlan where
  id := manifest.identity target arm repetition
  manifestId := manifest.id
  problemId := target.problemId
  targetDigest := target.targetDigest
  environmentDigest := target.environmentDigest
  armId := arm.id
  runtime := arm.runtime
  model := arm.model
  approach := arm.approach
  parameters := arm.parameters
  repetition := repetition
  seed := seedOf (manifest.identity target arm repetition)
  isProtected := decide (repetition < manifest.protectedPerArm)
  maxCostUsd := manifest.attemptCostUsd
  maxTokens := manifest.attemptTokens
  maxWallSeconds :=
    if repetition < manifest.protectedPerArm then manifest.deepAttemptSeconds
    else manifest.attemptSeconds
  contextPolicy := if manifest.sharing = .none then .freshIndependent else .explicitShared

/-- The candidates: for each target and repetition one attempt of each arm. -/
def candidates : List AttemptPlan :=
  manifest.targets.flatMap fun target =>
    (List.range manifest.repetitions).flatMap fun repetition =>
      manifest.arms.map fun arm => manifest.attempt target arm repetition

def plan : Except PortfolioError (List AttemptPlan) := do
  let cost ← orThrow (Decimal.times manifest.capacity manifest.attemptCostUsd) .overflow
  require (cost.exceeds manifest.envelope.maxCostUsd = false ∧
      manifest.capacity * manifest.attemptTokens ≤ manifest.envelope.maxTokens ∧
      manifest.reservedSeconds ≤ manifest.envelope.maxWallSeconds)
    (.refused "attempt reservations exceed the explicit experiment envelope")
  require (manifest.repetitions * manifest.arms.length * manifest.targets.length ≤ 100000)
    (.refused "candidate portfolio exceeds offline planning limit")
  return manifest.candidates

end

end EvaluationManifest

/-! ### The history -/

section

variable [FloatValue]

/-- `==` of two plans -/
def AttemptPlan.equal (first second : AttemptPlan) : Bool :=
  first.id = second.id && first.manifestId = second.manifestId && first.problemId = second.problemId &&
    first.targetDigest = second.targetDigest && first.environmentDigest = second.environmentDigest &&
    first.armId = second.armId && first.runtime = second.runtime && first.model = second.model &&
    first.approach = second.approach && same (.obj first.parameters) (.obj second.parameters) &&
    first.repetition = second.repetition && first.seed = second.seed &&
    first.isProtected = second.isProtected && !first.maxCostUsd.exceeds second.maxCostUsd &&
    !second.maxCostUsd.exceeds first.maxCostUsd && first.maxTokens = second.maxTokens &&
    first.maxWallSeconds = second.maxWallSeconds && first.contextPolicy = second.contextPolicy

abbrev PlanTable := List (Digest × AttemptPlan)

/-- `{p.id: p for p in plans}` -/
def planTable (plans : List AttemptPlan) : PlanTable :=
  plans.foldl (fun table plan => Dict.set table plan.id plan) []

/-- `==` of two dictionaries of plans -/
def equalTables (first second : PlanTable) : Bool :=
  decide (first.length = second.length) && first.all fun entry =>
    match Dict.get second entry.1 with
    | some plan => entry.2.equal plan
    | none => false

namespace EvaluationManifest

variable [ContentHash] (manifest : EvaluationManifest)

/-- The checks of one observation against the attempts and the traces that were seen before it. -/
def checkObservation (expected : PlanTable) (seen traces : List Digest)
    (observation : AttemptObservation) : Except PortfolioError Unit := do
  require (observation.attemptId ∉ seen) (.refused "unknown or duplicate attempt observation")
  let plan ← orThrow (Dict.get expected observation.attemptId)
    (.refused "unknown or duplicate attempt observation")
  require (manifest.mode = .live → ∃ trace ∈ observation.runtimeTraceDigest, trace ≠ "")
    (.refused "live evaluation requires canonical runtime trace provenance")
  require (∀ trace ∈ observation.runtimeTraceDigest, trace ≠ "" → trace ∉ traces)
    (.refused "runtime trace reused across attempts")
  require (observation.observedModel = plan.model)
    (.refused "observed model differs from exact requested model")
  require (observation.costUsd.exceeds plan.maxCostUsd = false ∧ observation.tokens ≤ plan.maxTokens ∧
      observation.wallSeconds ≤ plan.maxWallSeconds)
    (.refused "attempt exceeded reserved envelope; comparison is invalid")

/-- The traces that an observation adds. -/
def traceOf (observation : AttemptObservation) : List Digest :=
  observation.runtimeTraceDigest.toList.filter (· ≠ "")

def checkHistory (expected : PlanTable) :
    List Digest → List Digest → List AttemptObservation → Except PortfolioError Unit
  | _, _, [] => .ok ()
  | seen, traces, observation :: history =>
    manifest.checkObservation expected seen traces observation >>= fun _ =>
      checkHistory expected (observation.attemptId :: seen) (traceOf observation ++ traces) history

def validateHistory (plans : List AttemptPlan) (history : List AttemptObservation) :
    Except PortfolioError PlanTable := do
  let planned ← manifest.plan
  let expected := planTable planned
  require (equalTables (planTable plans) expected = true ∧ plans.length = expected.length)
    (.refused "attempt plan differs from the manifest")
  manifest.checkHistory expected [] [] history
  require (history.length ≤ manifest.capacity)
    (.refused "observations exceed funded attempt capacity")
  return expected

/-! ### The selection -/

/-- The trials and the wins of one arm, and the receipts that were credited. -/
structure Tally where
  counts : List (String × (Nat × Nat))
  credited : List String := []

/-- An observation that does not run any more is a trial of its arm, and a win with a fresh valid
receipt. -/
def tally (expected : PlanTable) (evidence : CanonicalEvidence) (tallied : Tally)
    (observation : AttemptObservation) : Except PortfolioError Tally := do
  if observation.status = .running then
    return tallied
  let plan ← orThrow (Dict.get expected observation.attemptId) .unavailable
  let (trials, wins) := (Dict.get tallied.counts plan.armId).getD (0, 0)
  let receiptId := observation.receiptId.getD ""
  if observation.status = .completed ∧ receiptId ≠ "" ∧ receiptId ∉ tallied.credited then
    match evidence.validate plan.problemId receiptId plan.targetDigest plan.environmentDigest
        observation.experimentId with
    | none => .error .crashed
    | some (.valid _) =>
      return { counts := Dict.set tallied.counts plan.armId (trials + 1, wins + 1)
               credited := receiptId :: tallied.credited }
    | some (.invalid _) =>
      return { tallied with counts := Dict.set tallied.counts plan.armId (trials + 1, wins) }
  else
    return { tallied with counts := Dict.set tallied.counts plan.armId (trials + 1, wins) }

/-- `float("inf")` for an arm without trials -/
def priority [ArmScores] (trials wins total : Nat) : WithTop ℚ :=
  if trials = 0 then ⊤
  else (ArmScores.sum (ArmScores.successRate wins trials) (ArmScores.radius (max 2 total) trials) : ℚ)

def adaptiveChoice [ArmScores] (available : List AttemptPlan) (counts : List (String × (Nat × Nat))) :
    Except PortfolioError AllocationDecision := do
  let total := (counts.map fun entry => entry.2.1).sum
  let score (plan : AttemptPlan) : WithTop ℚ :=
    let (trials, wins) := (Dict.get counts plan.armId).getD (0, 0)
    priority trials wins total
  let selected ← orThrow (available.argmax score) .unavailable
  let (trials, wins) := (Dict.get counts selected.armId).getD (0, 0)
  return { attempt := some selected
           reason := "UCB exploration from observed receipt outcomes"
           observations := trials
           empiricalSuccessRate := if trials = 0 then none else some (ArmScores.successRate wins trials)
           uncertaintyRadius := if trials = 0 then none else some (ArmScores.radius (max 2 total) trials) }

def selectNext [ArmScores] (plans : List AttemptPlan) (history : List AttemptObservation)
    (evidence : CanonicalEvidence) : Except PortfolioError AllocationDecision := do
  let expected ← manifest.validateHistory plans history
  if manifest.capacity ≤ history.length then
    return { attempt := none, reason := "funded attempt capacity exhausted" }
  if manifest.envelope.maxConcurrency ≤ history.countP fun observation => observation.status = .running then
    return { attempt := none, reason := "concurrency reservation exhausted" }
  let available := plans.filter fun plan => plan.id ∉ history.map AttemptObservation.attemptId
  match available.find? AttemptPlan.isProtected with
  | some plan => return { attempt := some plan, reason := "reserved protected deep attempt" }
  | none =>
    match manifest.policy with
    | .uniform =>
      let plan ← orThrow available.head? .unavailable
      return { attempt := some plan, reason := "uniform repeated independent baseline" }
    | .adaptive =>
      let start : Tally := { counts := manifest.arms.map fun arm => (arm.id, (0, 0)) }
      let tallied ← history.foldlM (tally expected evidence) start
      adaptiveChoice available tallied.counts

end EvaluationManifest

end

end PhysHarness
