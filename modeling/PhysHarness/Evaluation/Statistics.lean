import PhysHarness.Evaluation.History

/-!
The summary of an evaluation. Each observation that claims a receipt is judged, and a valid receipt is
credited to the first attempt that claims it; since a receipt names the one problem that it is valid for,
the order of the observations decides which attempt is credited, and neither what is solved nor how many
claims are invalid. Costs are summed exactly.

Main result: `summary_credits_once`.
-/
namespace PhysHarness

open Outcome Python

/-- The float expressions of the summary: the sum of the durations over the concurrency, and the
interval for a number of solved targets. -/
class SummaryFloats where
  serial : ℚ → Nat → ℚ
  wilsonInterval : Nat → Nat → ℚ × ℚ

structure EvaluationSummary where
  manifestId : String
  mode : EvaluationMode
  solved : Nat
  totalTargets : Nat
  solvedByTarget : List (String × Bool)
  targetFamilies : List (String × String)
  totalCostUsd : Decimal
  elapsedSeconds : ℚ
  totalTokens : Nat
  interval : ℚ × ℚ
  invalidEvidence : List (Digest × EvidenceReason)
  completedAttempts : Nat
  plannedCapacity : Nat
  deriving DecidableEq

/-- What the observations before have solved, which of them are invalid, and the receipts that were
credited. -/
structure Credits where
  solved : List (String × Bool)
  invalid : List (Digest × EvidenceReason) := []
  credited : List String := []

/-- The receipt that a completed attempt claims. -/
def AttemptObservation.claimed (observation : AttemptObservation) : Option String :=
  if observation.status = .completed then observation.receiptId.filter (· ≠ "") else none

section

variable [FloatValue] [ContentHash]

/-- The judgement of a claim: the receipt is one for the plan's target and the attempt's experiment. -/
def judged (evidence : CanonicalEvidence) (plan : AttemptPlan) (observation : AttemptObservation)
    (receiptId : String) : Option EvidenceVerdict :=
  evidence.validate plan.problemId receiptId plan.targetDigest plan.environmentDigest
    observation.experimentId

def credit (expected : PlanTable) (evidence : CanonicalEvidence) (credits : Credits)
    (observation : AttemptObservation) : Except PortfolioError Credits :=
  match observation.claimed with
  | none => .ok credits
  | some receiptId => do
    let plan ← orThrow (Dict.get expected observation.attemptId) .unavailable
    let verdict ← orThrow (judged evidence plan observation receiptId) .crashed
    match verdict with
    | .valid _ =>
      if receiptId ∈ credits.credited then
        return { credits with invalid := Dict.set credits.invalid observation.attemptId
                                (.stated "receipt reused across attempts") }
      else
        return { credits with solved := Dict.set credits.solved plan.problemId true
                              credited := receiptId :: credits.credited }
    | .invalid reason =>
      return { credits with invalid := Dict.set credits.invalid observation.attemptId reason }

/-- `{target.problem_id: False for target in manifest.targets}` -/
def EvaluationManifest.unsolved (manifest : EvaluationManifest) : List (String × Bool) :=
  manifest.targets.map fun target => (target.problemId, false)

/-- The shortest time that the observations can have taken. -/
def minimumElapsed [SummaryFloats] (manifest : EvaluationManifest)
    (observations : List AttemptObservation) : ℚ :=
  let durations := observations.map AttemptObservation.wallSeconds
  max (durations.foldl max 0) (SummaryFloats.serial durations.sum manifest.envelope.maxConcurrency)

/-- `elapsed` is none when the float is not finite. -/
def summarize [SummaryFloats] (manifest : EvaluationManifest) (plans : List AttemptPlan)
    (observations : List AttemptObservation) (evidence : CanonicalEvidence) (elapsed : Option ℚ) :
    Except PortfolioError EvaluationSummary := do
  let expected ← manifest.validateHistory plans observations
  let seconds ← orThrow (elapsed.filter fun seconds : ℚ =>
      0 ≤ seconds ∧ seconds ≤ manifest.envelope.maxWallSeconds)
    (.refused "wall-clock envelope exceeded or invalid")
  require (minimumElapsed manifest observations ≤ seconds)
    (.refused "elapsed time contradicts attempt durations or concurrency capacity")
  let cost := Decimal.sum (observations.map AttemptObservation.costUsd)
  let tokens := (observations.map AttemptObservation.tokens).sum
  require (cost.exceeds manifest.envelope.maxCostUsd = false ∧ tokens ≤ manifest.envelope.maxTokens)
    (.refused "aggregate experiment envelope exceeded")
  require (∀ observation ∈ observations, observation.status ≠ .running)
    (.refused "cannot finalize evaluation while attempts are running")
  let credits ← observations.foldlM (credit expected evidence) { solved := manifest.unsolved }
  let solved := credits.solved.countP Prod.snd
  return { manifestId := manifest.id
           mode := manifest.mode
           solved
           totalTargets := credits.solved.length
           solvedByTarget := credits.solved
           targetFamilies := manifest.targets.map fun target => (target.problemId, target.familyId)
           totalCostUsd := cost
           elapsedSeconds := seconds
           totalTokens := tokens
           interval := SummaryFloats.wilsonInterval solved credits.solved.length
           invalidEvidence := credits.invalid
           completedAttempts := observations.length
           plannedCapacity := manifest.capacity }

/-! ### Credits -/

variable {expected : PlanTable} {evidence : CanonicalEvidence}

/-- The receipt that an observation claims, when the judge finds it valid, and its problem. -/
def earned (expected : PlanTable) (evidence : CanonicalEvidence) (observation : AttemptObservation) :
    Option (String × String) := do
  let receiptId ← observation.claimed
  let plan ← Dict.get expected observation.attemptId
  match judged evidence plan observation receiptId with
  | some (.valid _) => some (receiptId, plan.problemId)
  | _ => none

theorem earned_eq_some {observation : AttemptObservation} {receiptId problemId : String} :
    earned expected evidence observation = some (receiptId, problemId) ↔
      ∃ plan validation, observation.claimed = some receiptId ∧
        Dict.get expected observation.attemptId = some plan ∧ plan.problemId = problemId ∧
        judged evidence plan observation receiptId = some (.valid validation) := by
  unfold earned
  simp only [Option.bind_eq_bind, Option.bind_eq_some_iff]
  constructor
  · rintro ⟨claim, claims, plan, known, found⟩
    split at found
    next validation judgement =>
      obtain ⟨rfl, rfl⟩ := Prod.mk.inj (Option.some.inj found)
      exact ⟨plan, validation, claims, known, rfl, judgement⟩
    · cases found
  · rintro ⟨plan, validation, claims, known, rfl, judgement⟩
    exact ⟨receiptId, claims, plan, known, by rw [judgement]⟩

/-- A receipt is valid for one problem at most. -/
theorem earned_problem {first second : AttemptObservation} {receiptId problemId other : String}
    (earns : earned expected evidence first = some (receiptId, problemId))
    (also : earned expected evidence second = some (receiptId, other)) : problemId = other := by
  obtain ⟨_, _, -, -, rfl, valid⟩ := earned_eq_some.mp earns
  obtain ⟨_, _, -, -, rfl, valid'⟩ := earned_eq_some.mp also
  exact CanonicalEvidence.validate_problem valid valid'

/-- A claim is judged unless its attempt is unknown or the judge crashes. -/
def Judged (expected : PlanTable) (evidence : CanonicalEvidence) (observation : AttemptObservation) :
    Prop :=
  ∀ receiptId, observation.claimed = some receiptId →
    ∃ plan verdict, Dict.get expected observation.attemptId = some plan ∧
      judged evidence plan observation receiptId = some verdict

/-- The four things that an observation can do. -/
inductive Credited (expected : PlanTable) (evidence : CanonicalEvidence) (credits : Credits)
    (observation : AttemptObservation) : Credits → Prop
  | silent (claims : observation.claimed = none) (nothing : earned expected evidence observation = none) :
      Credited expected evidence credits observation credits
  | first (receiptId problemId : String) (claims : observation.claimed = some receiptId)
      (earns : earned expected evidence observation = some (receiptId, problemId))
      (fresh : receiptId ∉ credits.credited) :
      Credited expected evidence credits observation
        { credits with solved := Dict.set credits.solved problemId true
                       credited := receiptId :: credits.credited }
  | reused (receiptId problemId : String) (claims : observation.claimed = some receiptId)
      (earns : earned expected evidence observation = some (receiptId, problemId))
      (used : receiptId ∈ credits.credited) :
      Credited expected evidence credits observation
        { credits with invalid := Dict.set credits.invalid observation.attemptId
                        (.stated "receipt reused across attempts") }
  | refused (receiptId : String) (reason : EvidenceReason) (claims : observation.claimed = some receiptId)
      (nothing : earned expected evidence observation = none) :
      Credited expected evidence credits observation
        { credits with invalid := Dict.set credits.invalid observation.attemptId reason }

theorem credit_cases {credits after : Credits} {observation : AttemptObservation}
    (done : credit expected evidence credits observation = .ok after) :
    Credited expected evidence credits observation after := by
  unfold credit at done
  split at done
  next silent =>
    obtain rfl := Except.ok.inj done
    exact .silent silent (by simp [earned, silent])
  next receiptId claims =>
    simp only [bind_ok, orThrow_ok] at done
    obtain ⟨plan, known, verdict, judgement, done⟩ := done
    cases verdict with
    | valid validation =>
      have earns : earned expected evidence observation = some (receiptId, plan.problemId) :=
        earned_eq_some.mpr ⟨plan, validation, claims, known, rfl, judgement⟩
      dsimp only at done
      split at done
      next used =>
        obtain rfl := Except.ok.inj done
        exact .reused receiptId _ claims earns used
      next fresh =>
        obtain rfl := Except.ok.inj done
        exact .first receiptId _ claims earns fresh
    | invalid reason =>
      obtain rfl := Except.ok.inj done
      refine .refused receiptId reason claims (Option.eq_none_iff_forall_ne_some.mpr ?_)
      rintro ⟨other, problemId⟩ earns
      obtain ⟨plan', validation, same, found, -, valid⟩ := earned_eq_some.mp earns
      obtain rfl := Option.some.inj (claims.symm.trans same)
      obtain rfl := Option.some.inj (known.symm.trans found)
      cases judgement.symm.trans valid

theorem credit_ok_iff {credits : Credits} {observation : AttemptObservation} :
    (∃ after, credit expected evidence credits observation = .ok after) ↔
      Judged expected evidence observation := by
  unfold credit Judged
  cases observation.claimed with
  | none => simp
  | some receiptId =>
    constructor
    · rintro ⟨after, done⟩ claim same
      obtain rfl := Option.some.inj same
      simp only [bind_ok, orThrow_ok] at done
      obtain ⟨plan, known, verdict, judgement, -⟩ := done
      exact ⟨plan, verdict, known, judgement⟩
    · intro known
      obtain ⟨plan, verdict, found, judgement⟩ := known receiptId rfl
      dsimp only
      rw [orThrow_then found, orThrow_then judgement]
      cases verdict with
      | valid validation =>
        dsimp only
        split <;> exact ⟨_, rfl⟩
      | invalid reason => exact ⟨_, rfl⟩

/-- The credits of some observations, whatever their order. -/
structure CreditsOf (manifest : EvaluationManifest) (expected : PlanTable) (evidence : CanonicalEvidence)
    (observations : List AttemptObservation) (credits : Credits) : Prop where
  solved : credits.solved = manifest.targets.map fun target => (target.problemId,
    observations.any fun observation =>
      (earned expected evidence observation).map Prod.snd = some target.problemId)
  distinct : credits.credited.Nodup
  credited : ∀ receiptId, receiptId ∈ credits.credited ↔
    ∃ observation ∈ observations, (earned expected evidence observation).map Prod.fst = some receiptId
  keys : (credits.invalid.map Prod.fst).Sublist (attemptIds observations)
  once : ∀ first ∈ observations, ∀ second ∈ observations, ∀ receiptId,
    (earned expected evidence first).map Prod.fst = some receiptId →
    (earned expected evidence second).map Prod.fst = some receiptId →
    first.attemptId ∉ credits.invalid.map Prod.fst → second.attemptId ∉ credits.invalid.map Prod.fst →
    first = second
  count : credits.invalid.length + credits.credited.length =
    observations.countP fun observation => observation.claimed.isSome

section Fold

variable {manifest : EvaluationManifest} {before : List AttemptObservation} {credits after : Credits}
  {observation : AttemptObservation}

theorem creditsOf_start :
    CreditsOf manifest expected evidence [] { solved := manifest.unsolved } where
  solved := by simp [EvaluationManifest.unsolved]
  distinct := List.nodup_nil
  credited := by simp
  keys := List.Sublist.refl _
  once := by simp
  count := rfl

/-- An invalid claim is entered at the end. -/
theorem CreditsOf.enter (known : CreditsOf manifest expected evidence before credits)
    (fresh : observation.attemptId ∉ attemptIds before) (reason : EvidenceReason) :
    Dict.set credits.invalid observation.attemptId reason =
      credits.invalid ++ [(observation.attemptId, reason)] :=
  if_neg fun entered => fresh (known.keys.subset entered)

theorem CreditsOf.solved_none (known : CreditsOf manifest expected evidence before credits)
    (nothing : earned expected evidence observation = none) :
    credits.solved = manifest.targets.map fun target => (target.problemId,
      (before ++ [observation]).any fun observation =>
        (earned expected evidence observation).map Prod.snd = some target.problemId) := by
  rw [known.solved]
  refine List.map_congr_left fun target _ => ?_
  simp [nothing]

/-- A receipt that was credited before has solved its problem then. -/
theorem CreditsOf.solved_reused (known : CreditsOf manifest expected evidence before credits)
    {receiptId problemId : String}
    (earns : earned expected evidence observation = some (receiptId, problemId))
    (used : receiptId ∈ credits.credited) :
    credits.solved = manifest.targets.map fun target => (target.problemId,
      (before ++ [observation]).any fun observation =>
        (earned expected evidence observation).map Prod.snd = some target.problemId) := by
  rw [known.solved]
  refine List.map_congr_left fun target _ => Prod.ext rfl ?_
  obtain ⟨first, member, same⟩ := (known.credited receiptId).mp used
  obtain ⟨⟨_, other⟩, also, rfl⟩ := Option.map_eq_some_iff.mp same
  obtain rfl := earned_problem earns also
  simp only [List.any_append, List.any_cons, List.any_nil, earns, Option.map_some, Option.some.injEq,
    Bool.or_false]
  by_cases here : problemId = target.problemId
  · have solved : (before.any fun observation =>
        decide ((earned expected evidence observation).map Prod.snd = some target.problemId)) = true :=
      List.any_eq_true.mpr ⟨first, member, by simp [also, here]⟩
    rw [solved, Bool.true_or]
  · simp [here]

theorem CreditsOf.solved_first (known : CreditsOf manifest expected evidence before credits)
    {receiptId problemId : String}
    (earns : earned expected evidence observation = some (receiptId, problemId))
    (target : problemId ∈ manifest.targets.map TargetSpec.problemId) :
    Dict.set credits.solved problemId true = manifest.targets.map fun target => (target.problemId,
      (before ++ [observation]).any fun observation =>
        (earned expected evidence observation).map Prod.snd = some target.problemId) := by
  have key : problemId ∈ credits.solved.map Prod.fst := by
    rw [known.solved, List.map_map]
    exact target
  rw [Dict.set, if_pos key, known.solved, List.map_map]
  refine List.map_congr_left fun target _ => ?_
  simp only [Function.comp_apply, List.any_append, List.any_cons, List.any_nil, earns, Option.map_some,
    Option.some.injEq, Bool.or_false]
  by_cases here : target.problemId = problemId
  · simp [here]
  · simp [here, Ne.symm here]

/-- An observation that earns nothing new leaves each receipt with the attempt that it has. -/
theorem CreditsOf.once_more (known : CreditsOf manifest expected evidence before credits)
    {invalid : List (Digest × EvidenceReason)}
    (more : ∀ id ∈ credits.invalid.map Prod.fst, id ∈ invalid.map Prod.fst)
    (silent : observation.attemptId ∈ invalid.map Prod.fst ∨
      ∀ receiptId, (earned expected evidence observation).map Prod.fst = some receiptId →
        receiptId ∉ credits.credited) :
    ∀ first ∈ before ++ [observation], ∀ second ∈ before ++ [observation], ∀ receiptId,
      (earned expected evidence first).map Prod.fst = some receiptId →
      (earned expected evidence second).map Prod.fst = some receiptId →
      first.attemptId ∉ invalid.map Prod.fst → second.attemptId ∉ invalid.map Prod.fst →
      first = second := by
  have fresh : ∀ other ∈ before, ∀ receiptId,
      (earned expected evidence other).map Prod.fst = some receiptId →
      (earned expected evidence observation).map Prod.fst = some receiptId →
      observation.attemptId ∈ invalid.map Prod.fst := by
    intro other old receiptId earns also
    rcases silent with entered | unused
    · exact entered
    · exact absurd ((known.credited receiptId).mpr ⟨other, old, earns⟩) (unused receiptId also)
  intro first one second two receiptId earns also valid valid'
  rcases List.mem_append.mp one with old | new <;> rcases List.mem_append.mp two with old' | new'
  · exact known.once first old second old' receiptId earns also (fun entered => valid (more _ entered))
      fun entered => valid' (more _ entered)
  · obtain rfl := List.mem_singleton.mp new'
    exact absurd (fresh first old receiptId earns also) valid'
  · obtain rfl := List.mem_singleton.mp new
    exact absurd (fresh second old' receiptId also earns) valid
  · exact (List.mem_singleton.mp new).trans (List.mem_singleton.mp new').symm

theorem CreditsOf.step (known : CreditsOf manifest expected evidence before credits)
    (fresh : observation.attemptId ∉ attemptIds before)
    (covers : ∀ receiptId problemId, earned expected evidence observation = some (receiptId, problemId) →
      problemId ∈ manifest.targets.map TargetSpec.problemId)
    (done : credit expected evidence credits observation = .ok after) :
    CreditsOf manifest expected evidence (before ++ [observation]) after := by
  have ids : attemptIds (before ++ [observation]) = attemptIds before ++ [observation.attemptId] := by
    simp [attemptIds]
  have entered : ∀ reason, ((credits.invalid ++ [(observation.attemptId, reason)]).map Prod.fst).Sublist
      (attemptIds (before ++ [observation])) := by
    intro reason
    rw [ids, List.map_append]
    exact known.keys.append (List.Sublist.refl _)
  have kept : (credits.invalid.map Prod.fst).Sublist (attemptIds (before ++ [observation])) := by
    rw [ids]
    exact known.keys.trans (List.sublist_append_left _ _)
  have claimed : (before ++ [observation]).countP (fun observation => observation.claimed.isSome) =
      before.countP (fun observation => observation.claimed.isSome) +
        if observation.claimed.isSome then 1 else 0 := by
    simp [List.countP_append, List.countP_cons]
  have more : ∀ reason, ∀ id ∈ credits.invalid.map Prod.fst,
      id ∈ (credits.invalid ++ [(observation.attemptId, reason)]).map Prod.fst := by
    intro reason id inside
    rw [List.map_append]
    exact List.mem_append_left _ inside
  have last : ∀ reason, observation.attemptId ∈
      (credits.invalid ++ [(observation.attemptId, reason)]).map Prod.fst := by simp
  have count := known.count
  rcases credit_cases done with ⟨claims, nothing⟩ | ⟨receiptId, problemId, claims, earns, unused⟩ |
    ⟨receiptId, problemId, claims, earns, used⟩ | ⟨receiptId, reason, claims, nothing⟩
  · refine ⟨known.solved_none nothing, known.distinct, fun receiptId => ?_, kept,
      known.once_more (fun _ inside => inside) (.inr (by simp [nothing])), ?_⟩
    · rw [known.credited]
      simp [nothing, or_and_right, exists_or]
    · rw [claimed, claims]
      exact count
  · refine ⟨known.solved_first earns (covers _ _ earns), known.distinct.cons unused,
      fun other => ?_, kept,
      known.once_more (fun _ inside => inside) (.inr (by simpa [earns] using unused)), ?_⟩
    · rw [List.mem_cons, known.credited]
      simp [earns, or_and_right, exists_or, or_comm, eq_comm]
    · rw [claimed, claims, ← count]
      exact (Nat.add_assoc _ _ _).symm
  · rw [known.enter fresh]
    refine ⟨known.solved_reused earns used, known.distinct, fun other => ?_, entered _,
      known.once_more (more _) (.inl (last _)), ?_⟩
    · constructor
      · intro member
        obtain ⟨first, inside, same⟩ := (known.credited other).mp member
        exact ⟨first, List.mem_append_left _ inside, same⟩
      · rintro ⟨first, inside, same⟩
        rcases List.mem_append.mp inside with old | new
        · exact (known.credited other).mpr ⟨first, old, same⟩
        · obtain rfl := List.mem_singleton.mp new
          rw [earns] at same
          exact Option.some.inj same ▸ used
    · rw [claimed, claims, ← count, List.length_append]
      simp only [List.length_singleton, Option.isSome_some, if_true]
      omega
  · rw [known.enter fresh]
    refine ⟨known.solved_none nothing, known.distinct, fun other => ?_, entered _,
      known.once_more (more _) (.inl (last _)), ?_⟩
    · rw [known.credited]
      simp [nothing, or_and_right, exists_or]
    · rw [claimed, claims, ← count, List.length_append]
      simp only [List.length_singleton, Option.isSome_some, if_true]
      omega

theorem CreditsOf.run {rest : List AttemptObservation}
    (known : CreditsOf manifest expected evidence before credits)
    (once : (attemptIds (before ++ rest)).Nodup)
    (covers : ∀ observation receiptId problemId,
      earned expected evidence observation = some (receiptId, problemId) →
        problemId ∈ manifest.targets.map TargetSpec.problemId)
    (done : rest.foldlM (credit expected evidence) credits = .ok after) :
    CreditsOf manifest expected evidence (before ++ rest) after := by
  induction rest generalizing before credits with
  | nil =>
    obtain rfl := Except.ok.inj done
    simpa using known
  | cons observation rest ih =>
    rw [List.foldlM_cons] at done
    obtain ⟨middle, first, later⟩ := bind_ok.mp done
    rw [List.append_cons] at once ⊢
    have fresh : observation.attemptId ∉ attemptIds before := by
      intro seen
      rw [attemptIds, List.map_append, List.map_append, List.append_assoc, List.nodup_append] at once
      exact once.2.2 _ seen _ (List.mem_append_left _ (by simp)) rfl
    exact ih (known.step fresh (covers observation) first) once later

theorem credits_ok_iff {rest : List AttemptObservation} :
    (∃ after, rest.foldlM (credit expected evidence) credits = .ok after) ↔
      ∀ observation ∈ rest, Judged expected evidence observation := by
  induction rest generalizing credits with
  | nil => exact ⟨fun _ _ inside => absurd inside List.not_mem_nil, fun _ => ⟨credits, rfl⟩⟩
  | cons observation rest ih =>
    rw [List.foldlM_cons, List.forall_mem_cons]
    constructor
    · rintro ⟨after, done⟩
      obtain ⟨middle, first, later⟩ := bind_ok.mp done
      exact ⟨credit_ok_iff.mp ⟨middle, first⟩, ih.mp ⟨after, later⟩⟩
    · rintro ⟨first, others⟩
      obtain ⟨middle, done⟩ := credit_ok_iff.mpr first
      rw [ok_then done]
      exact ih.mpr others

/-- Credits of the same observations in another order. -/
theorem CreditsOf.perm {others : List AttemptObservation} {also : Credits}
    (known : CreditsOf manifest expected evidence before credits)
    (known' : CreditsOf manifest expected evidence others also) (perm : before.Perm others) :
    credits.solved = also.solved ∧ credits.invalid.length = also.invalid.length := by
  constructor
  · rw [known.solved, known'.solved]
    refine List.map_congr_left fun target _ => Prod.ext rfl ?_
    exact perm.any_eq
  · have receipts : credits.credited.Perm also.credited := by
      refine (List.perm_ext_iff_of_nodup known.distinct known'.distinct).mpr fun receiptId => ?_
      rw [known.credited, known'.credited]
      simp only [perm.mem_iff]
    have lengths := receipts.length_eq
    have count := known.count
    have count' := known'.count
    have claims := perm.countP_eq fun observation => observation.claimed.isSome
    omega

end Fold

/-! ### The summary -/

/-- The completed attempt of the target has this receipt, and the judge finds it valid for the target's
digests and the attempt's experiment. -/
def Proves (manifest : EvaluationManifest) (evidence : CanonicalEvidence)
    (observation : AttemptObservation) (receiptId : String) (target : TargetSpec) : Prop :=
  observation.status = .completed ∧ observation.receiptId = some receiptId ∧
    (∃ plan, Dict.get (planTable manifest.candidates) observation.attemptId = some plan ∧
      plan.problemId = target.problemId) ∧
    ∃ validation, evidence.validate target.problemId receiptId target.targetDigest
      target.environmentDigest observation.experimentId = some (.valid validation)

omit [FloatValue] [ContentHash] in
theorem claimed_eq_some {observation : AttemptObservation} {receiptId : String} :
    observation.claimed = some receiptId ↔ observation.status = .completed ∧
      observation.receiptId = some receiptId ∧ receiptId ≠ "" := by
  unfold AttemptObservation.claimed
  split
  next done => simp [done]
  next running => simp [running]

omit [FloatValue] in
/-- A planned attempt has the digests of its target. -/
theorem planned_target {manifest : EvaluationManifest} {id : Digest} {plan : AttemptPlan}
    (found : Dict.get (planTable manifest.candidates) id = some plan) :
    ∃ target ∈ manifest.targets, plan.problemId = target.problemId ∧
      plan.targetDigest = target.targetDigest ∧ plan.environmentDigest = target.environmentDigest := by
  obtain ⟨target, listed, arm, -, repetition, -, rfl⟩ := candidate_attempt (planTable_get found).1
  exact ⟨target, listed, rfl, rfl, rfl⟩

theorem earned_iff {manifest : EvaluationManifest} {observation : AttemptObservation}
    {receiptId : String} {target : TargetSpec} (listed : target ∈ manifest.targets) :
    earned (planTable manifest.candidates) evidence observation = some (receiptId, target.problemId) ↔
      Proves manifest evidence observation receiptId target := by
  have own : ∀ plan, Dict.get (planTable manifest.candidates) observation.attemptId = some plan →
      plan.problemId = target.problemId →
      judged evidence plan observation receiptId = evidence.validate target.problemId receiptId
        target.targetDigest target.environmentDigest observation.experimentId := by
    intro plan found same
    obtain ⟨other, known, problem, digest, environment⟩ := planned_target found
    obtain rfl : other = target := List.inj_on_of_nodup_map manifest.problemIds known listed
      (problem.symm.trans same)
    rw [judged, problem, digest, environment]
  rw [earned_eq_some]
  constructor
  · rintro ⟨plan, validation, claims, found, same, valid⟩
    obtain ⟨done, receipt, -⟩ := claimed_eq_some.mp claims
    exact ⟨done, receipt, ⟨plan, found, same⟩, validation, (own plan found same).symm.trans valid⟩
  · rintro ⟨done, receipt, ⟨plan, found, same⟩, validation, valid⟩
    have nonempty := CanonicalEvidence.valid_nonempty valid
    exact ⟨plan, validation, claimed_eq_some.mpr ⟨done, receipt, nonempty⟩, found, same,
      (own plan found same).trans valid⟩

variable [SummaryFloats] {manifest : EvaluationManifest} {plans : List AttemptPlan}
  {observations : List AttemptObservation} {elapsed : Option ℚ} {summary : EvaluationSummary}

omit [FloatValue] [ContentHash] in
theorem minimumElapsed_perm {others : List AttemptObservation} (perm : observations.Perm others) :
    minimumElapsed manifest observations = minimumElapsed manifest others := by
  have durations := perm.map AttemptObservation.wallSeconds
  have longest : (observations.map AttemptObservation.wallSeconds).foldl max 0 =
      (others.map AttemptObservation.wallSeconds).foldl max 0 :=
    durations.foldl_eq' (fun one _ other _ start => max_right_comm start one other) 0
  rw [minimumElapsed, minimumElapsed, longest, durations.sum_eq]

/-- What an accepted summary has checked and computed. -/
theorem summarize_ok (accepted : summarize manifest plans observations evidence elapsed = .ok summary) :
    ∃ credits, manifest.validateHistory plans observations = .ok (planTable manifest.candidates) ∧
      observations.foldlM (credit (planTable manifest.candidates) evidence)
        { solved := manifest.unsolved } = .ok credits ∧
      summary.solvedByTarget = credits.solved ∧ summary.invalidEvidence = credits.invalid := by
  simp only [summarize, bind_ok, require_ok, exists_const, pure_ok] at accepted
  obtain ⟨expected, history, seconds, -, -, -, -, credits, credited, rfl⟩ := accepted
  obtain ⟨⟨planned, planning, rfl⟩, -⟩ := validateHistory_ok.mp history
  obtain ⟨rfl, -⟩ := plan_ok.mp planning
  exact ⟨credits, history, credited, rfl, rfl⟩

omit [SummaryFloats] in
/-- The earned problems are those of targets. -/
theorem earned_covers (observation : AttemptObservation) (receiptId problemId : String)
    (earns : earned (planTable manifest.candidates) evidence observation = some (receiptId, problemId)) :
    problemId ∈ manifest.targets.map TargetSpec.problemId := by
  obtain ⟨plan, -, -, found, rfl, -⟩ := earned_eq_some.mp earns
  obtain ⟨target, listed, same, -⟩ := planned_target found
  exact List.mem_map.mpr ⟨target, listed, same.symm⟩

theorem summary_credits (accepted : summarize manifest plans observations evidence elapsed = .ok summary) :
    ∃ credits, CreditsOf manifest (planTable manifest.candidates) evidence observations credits ∧
      summary.solvedByTarget = credits.solved ∧ summary.invalidEvidence = credits.invalid := by
  obtain ⟨credits, history, credited, solved, invalid⟩ := summarize_ok accepted
  have once := (validateHistory_ok.mp history).2.2.2.2.1
  exact ⟨credits, creditsOf_start.run once earned_covers credited, solved, invalid⟩

/-- The observations can be summarised in any order. -/
theorem summarize_perm {others : List AttemptObservation} (perm : observations.Perm others)
    (accepted : summarize manifest plans observations evidence elapsed = .ok summary) :
    ∃ other, summarize manifest plans others evidence elapsed = .ok other ∧
      other.solvedByTarget = summary.solvedByTarget ∧ other.solved = summary.solved ∧
      other.totalTargets = summary.totalTargets ∧ other.totalCostUsd = summary.totalCostUsd ∧
      other.totalTokens = summary.totalTokens ∧ other.completedAttempts = summary.completedAttempts ∧
      other.plannedCapacity = summary.plannedCapacity ∧
      other.invalidEvidence.length = summary.invalidEvidence.length := by
  obtain ⟨credits, history, credited, -⟩ := summarize_ok accepted
  have history' := validateHistory_perm perm history
  have judged := credits_ok_iff.mp ⟨credits, credited⟩
  obtain ⟨credits', credited'⟩ : ∃ after, others.foldlM (credit (planTable manifest.candidates) evidence)
      { solved := manifest.unsolved } = .ok after :=
    credits_ok_iff.mpr fun observation member => judged observation (perm.mem_iff.mpr member)
  have once := (validateHistory_ok.mp history).2.2.2.2.1
  have once' := (validateHistory_ok.mp history').2.2.2.2.1
  have same := (creditsOf_start.run once earned_covers credited).perm
    (creditsOf_start.run once' earned_covers credited') perm
  have cost := Decimal.sum_perm (perm.map AttemptObservation.costUsd)
  have tokens := (perm.map AttemptObservation.tokens).sum_eq
  have running : (∀ observation ∈ others, observation.status ≠ .running) ↔
      ∀ observation ∈ observations, observation.status ≠ .running := by
    simp only [perm.mem_iff]
  simp only [summarize, bind_ok, require_ok, exists_const, pure_ok] at accepted
  obtain ⟨expected, known, seconds, within, enough, envelope, finished, found, done, rfl⟩ := accepted
  obtain rfl := Except.ok.inj (known.symm.trans history)
  obtain rfl := Except.ok.inj (done.symm.trans credited)
  simp only [summarize, bind_ok, require_ok, exists_const, pure_ok]
  refine ⟨_, ⟨_, history', seconds, within, ?_, ?_, running.mpr finished, credits', credited', rfl⟩,
    same.1.symm, ?_, ?_, cost.symm, tokens.symm, perm.length_eq.symm, rfl, same.2.symm⟩
  · rwa [← minimumElapsed_perm perm]
  · rwa [← cost, ← tokens]
  · exact congrArg (List.countP Prod.snd) same.1.symm
  · exact congrArg List.length same.1.symm

/-- A summary does not depend on the order of the observations; a target is solved exactly when a
completed attempt of it has a valid receipt; and a receipt solves one target and is credited to one
attempt at most. -/
theorem summary_credits_once
    (accepted : summarize manifest plans observations evidence elapsed = .ok summary) :
    (∀ others, observations.Perm others →
      ∃ other, summarize manifest plans others evidence elapsed = .ok other ∧
        other.solvedByTarget = summary.solvedByTarget ∧ other.solved = summary.solved ∧
        other.totalTargets = summary.totalTargets ∧ other.totalCostUsd = summary.totalCostUsd ∧
        other.totalTokens = summary.totalTokens ∧ other.completedAttempts = summary.completedAttempts ∧
        other.plannedCapacity = summary.plannedCapacity ∧
        other.invalidEvidence.length = summary.invalidEvidence.length) ∧
      (∀ target ∈ manifest.targets, (target.problemId, true) ∈ summary.solvedByTarget ↔
        ∃ observation ∈ observations, ∃ receiptId, Proves manifest evidence observation receiptId target) ∧
      ∀ first ∈ observations, ∀ second ∈ observations, ∀ receiptId, ∀ target ∈ manifest.targets,
        ∀ other ∈ manifest.targets, Proves manifest evidence first receiptId target →
          Proves manifest evidence second receiptId other → target = other ∧
            (first.attemptId ∉ summary.invalidEvidence.map Prod.fst →
              second.attemptId ∉ summary.invalidEvidence.map Prod.fst → first = second) := by
  obtain ⟨credits, known, solved, invalid⟩ := summary_credits accepted
  refine ⟨fun others perm => summarize_perm perm accepted, fun target listed => ?_, ?_⟩
  · have entry : (target.problemId, true) ∈ summary.solvedByTarget ↔
        (observations.any fun observation =>
          (earned (planTable manifest.candidates) evidence observation).map Prod.snd =
            some target.problemId) = true := by
      rw [solved, known.solved, List.mem_map]
      constructor
      · rintro ⟨other, also, same⟩
        obtain rfl := List.inj_on_of_nodup_map manifest.problemIds also listed (congrArg Prod.fst same)
        exact congrArg Prod.snd same
      · exact fun holds => ⟨target, listed, Prod.ext rfl holds⟩
    rw [entry, List.any_eq_true]
    refine exists_congr fun observation => and_congr_right fun _ => ?_
    rw [decide_eq_true_iff, Option.map_eq_some_iff]
    constructor
    · rintro ⟨⟨receiptId, _⟩, earns, rfl⟩
      exact ⟨receiptId, (earned_iff listed).mp earns⟩
    · rintro ⟨receiptId, proves⟩
      exact ⟨_, (earned_iff listed).mpr proves, rfl⟩
  · intro first one second two receiptId target listed other listed' proves proves'
    have earns := (earned_iff listed).mpr proves
    have earns' := (earned_iff listed').mpr proves'
    refine ⟨?_, fun valid valid' => ?_⟩
    · exact List.inj_on_of_nodup_map manifest.problemIds listed listed' (earned_problem earns earns')
    · rw [invalid] at valid valid'
      exact known.once first one second two receiptId (by simp [earns]) (by simp [earns']) valid valid'

end

namespace Scenario

/-- One target, one arm and two repetitions. -/
def sampleManifest : EvaluationManifest :=
  { oneAttempt ⟨1, 0⟩ with
    envelope := ⟨⟨2, 0⟩, 20, 20, 1, by decide⟩
    repeats := 2
    repeatBounds := by decide
    depth := by decide }

def sampleRecords : List Record :=
  [[("id", .str "problem"), ("kind", .str "problem"), ("project_id", .str "project"),
      ("semantic_review", .str "approved"), ("definition_holes", .bool false),
      ("review_id", .str "review"), ("target_digest", .str targetSha256),
      ("environment_digest", .str targetSha256), ("formal_statement", .str targetSha256),
      ("target_theorem", .str "target")],
    [("id", .str "review"), ("kind", .str "review"), ("project_id", .str "project"),
      ("decision", .str "approved"), ("scope", .str "target"), ("problem_id", .str "problem"),
      ("target_digest", .str targetSha256), ("reviewed_by", .str "expert")],
    [("id", .str "artifact"), ("kind", .str "artifact"), ("project_id", .str "project"),
      ("artifact_kind", .str "lean_source"), ("sha256", .str targetSha256),
      ("experiment_id", .str "experiment")],
    [("id", .str "receipt"), ("kind", .str "verification"), ("project_id", .str "project"),
      ("problem_revision_id", .str "problem"), ("review_id", .str "review"),
      ("experiment_id", .str "experiment"), ("artifact_id", .str "artifact"),
      ("target_theorem", .str "target"), ("target_digest", .str targetSha256),
      ("environment_digest", .str targetSha256), ("challenge_sha256", .str targetSha256),
      ("candidate_sha256", .str targetSha256), ("status", .str "verified"),
      ("assurance", .str "kernel"), ("code", .str "verified"), ("message", .str ""),
      ("remediation", .str ""), ("axioms", .arr [.str "propext"]),
      ("checker_versions", .obj [("lean", .str "4"), ("comparator", .str "1")])]]

section

local instance summaryHash : ContentHash := textHash

local instance summaryValue : FloatValue := ⟨fun _ => 0⟩

local instance summaryFloats : SummaryFloats := ⟨fun total number => total / number, fun _ _ => (0, 1)⟩

def sampleEvidence : CanonicalEvidence where
  records := sampleRecords
  named := by decide
  distinct := by decide

/-- An attempt that claims the receipt. -/
def claiming (repetition : Nat) : AttemptObservation where
  attemptId := sampleManifest.identity sampleTarget sampleArm repetition
  observedModel := "model"
  status := .completed
  costUsd := ⟨5, -1⟩
  wallSeconds := 5
  tokens := 5
  experimentId := "experiment"
  receiptId := some "receipt"
  wallBound := by decide

def claimingTwice : List AttemptObservation := [claiming 0, claiming 1]

def claimingSummary : EvaluationSummary where
  manifestId := "manifest"
  mode := .replay
  solved := 1
  totalTargets := 1
  solvedByTarget := [("problem", true)]
  targetFamilies := [("problem", "family")]
  totalCostUsd := ⟨10, -1⟩
  elapsedSeconds := 10
  totalTokens := 10
  interval := (0, 1)
  invalidEvidence := [((claiming 1).attemptId, .stated "receipt reused across attempts")]
  completedAttempts := 2
  plannedCapacity := 2

theorem claiming_planned (repetition : Nat) (funded : repetition < 2) :
    sampleManifest.attempt sampleTarget sampleArm repetition ∈ sampleManifest.candidates := by
  simp only [EvaluationManifest.candidates, List.mem_flatMap, List.mem_map, List.mem_range]
  exact ⟨sampleTarget, List.mem_singleton_self _, repetition, funded, sampleArm,
    List.mem_singleton_self _, Eq.refl _⟩

theorem claiming_get (repetition : Nat) (funded : repetition < 2) :
    Dict.get (planTable sampleManifest.candidates) (claiming repetition).attemptId =
      some (sampleManifest.attempt sampleTarget sampleArm repetition) := by
  have planned := candidate_get (fun _ _ same => same) (claiming_planned repetition funded)
  have names : (claiming repetition).attemptId =
      (sampleManifest.attempt sampleTarget sampleArm repetition).id := by
    simp only [claiming, EvaluationManifest.attempt]
  rw [names]
  exact planned

theorem claiming_ids : (attemptIds claimingTwice).Nodup := by
  have distinct : (claiming 0).attemptId ≠ (claiming 1).attemptId := fun same =>
    absurd (identity_target (fun _ _ same => same) same).2.2 (by decide)
  simpa [attemptIds, claimingTwice] using distinct

theorem claiming_fits (repetition : Nat) : Fits sampleManifest (claiming repetition)
    (sampleManifest.attempt sampleTarget sampleArm repetition) where
  traced live := absurd live (by decide)
  model := rfl
  cost := Decimal.exceeds_false.mp (show Decimal.exceeds ⟨5, -1⟩ ⟨1, 0⟩ = false by decide)
  tokens := show 5 ≤ 10 by decide
  seconds := by
    have limit : (sampleManifest.attempt sampleTarget sampleArm repetition).maxWallSeconds = 10 :=
      ite_self 10
    rw [limit]
    show (5 : ℚ) ≤ (10 : Nat)
    norm_num

theorem claiming_history : sampleManifest.validateHistory sampleManifest.candidates claimingTwice =
    .ok (planTable sampleManifest.candidates) := by
  have planned : sampleManifest.plan = .ok sampleManifest.candidates :=
    plan_ok.mpr ⟨rfl, ⟨⟨2, 0⟩, by decide, le_refl _⟩, by decide, by decide, by decide⟩
  have length : sampleManifest.candidates.length = (planTable sampleManifest.candidates).length := by
    rw [planTable_nodup (candidates_nodup fun _ _ same => same), List.length_map]
  refine validateHistory_ok.mpr ⟨⟨_, planned, rfl⟩, equalTables_candidates (fun _ _ same => same), length, ?_,
    claiming_ids, by decide, by decide⟩
  intro observation member
  rcases List.mem_pair.mp member with rfl | rfl
  · exact ⟨_, claiming_get 0 (by decide), claiming_fits 0⟩
  · exact ⟨_, claiming_get 1 (by decide), claiming_fits 1⟩

theorem claiming_judged (repetition : Nat) : judged sampleEvidence
      (sampleManifest.attempt sampleTarget sampleArm repetition) (claiming repetition) "receipt" =
    some (.valid ⟨some "artifact", some targetSha256, some "review"⟩) := by
  show sampleEvidence.validate "problem" "receipt" targetSha256 targetSha256 "experiment" = _
  decide

theorem claiming_claimed (repetition : Nat) : (claiming repetition).claimed = some "receipt" := by
  show (if AttemptStatus.completed = .completed then Option.filter (· ≠ "") (some "receipt") else none) = _
  decide

theorem claimingTwice_credits : claimingTwice.foldlM
      (credit (planTable sampleManifest.candidates) sampleEvidence) { solved := sampleManifest.unsolved } =
    .ok ⟨[("problem", true)], [((claiming 1).attemptId, .stated "receipt reused across attempts")],
      ["receipt"]⟩ := by
  have first : credit (planTable sampleManifest.candidates) sampleEvidence
        { solved := sampleManifest.unsolved } (claiming 0) =
      .ok ⟨[("problem", true)], [], ["receipt"]⟩ := by
    unfold credit
    rw [claiming_claimed]
    dsimp only
    rw [orThrow_then (claiming_get 0 (by decide)), orThrow_then (claiming_judged 0)]
    rfl
  have second : credit (planTable sampleManifest.candidates) sampleEvidence
        ⟨[("problem", true)], [], ["receipt"]⟩ (claiming 1) =
      .ok ⟨[("problem", true)], [((claiming 1).attemptId, .stated "receipt reused across attempts")],
        ["receipt"]⟩ := by
    unfold credit
    rw [claiming_claimed]
    dsimp only
    rw [orThrow_then (claiming_get 1 (by decide)), orThrow_then (claiming_judged 1)]
    rfl
  rw [claimingTwice, List.foldlM_cons, ok_then first, List.foldlM_cons, ok_then second]
  rfl

theorem claimingTwice_accepted : summarize sampleManifest sampleManifest.candidates claimingTwice
    sampleEvidence (some 10) = .ok claimingSummary := by
  have elapsed : minimumElapsed sampleManifest claimingTwice ≤ 10 := by
    have serial : SummaryFloats.serial 10 1 = 10 := div_one 10
    norm_num [minimumElapsed, claimingTwice, claiming, sampleManifest, oneAttempt, serial]
  unfold summarize
  rw [ok_then claiming_history,
    orThrow_then (show Option.filter (fun seconds : ℚ => 0 ≤ seconds ∧
      seconds ≤ sampleManifest.envelope.maxWallSeconds) (some 10) = some 10 by decide),
    require_then elapsed, require_then (by decide), require_then (by decide), ok_then claimingTwice_credits]
  rfl

/-- Two attempts claim one receipt: the target is solved once, and each of them can come first. -/
theorem claimingTwice_credited : (∃ observation ∈ claimingTwice, ∃ receiptId,
      Proves sampleManifest sampleEvidence observation receiptId sampleTarget) ∧
    ∃ other, summarize sampleManifest sampleManifest.candidates claimingTwice.reverse sampleEvidence
      (some 10) = .ok other ∧ other.invalidEvidence.length = 1 := by
  obtain ⟨permuted, solved, -⟩ := summary_credits_once claimingTwice_accepted
  obtain ⟨other, accepted, -, -, -, -, -, -, -, invalid⟩ :=
    permuted claimingTwice.reverse (List.reverse_perm _).symm
  exact ⟨(solved sampleTarget (List.mem_singleton_self _)).mp (List.mem_singleton_self _), other, accepted,
    invalid⟩

end

end Scenario

end PhysHarness
