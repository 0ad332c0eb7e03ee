import PhysHarness.Evaluation.History
import PhysHarness.Lib.Transition

/-!
A campaign: attempts are selected one after the other, and each gets an observation that is running or
finished. The selection keeps a campaign within the envelope of its manifest as long as the exact cost of
all funded attempts does.

Main result: `campaign_within`.
-/
namespace PhysHarness

open Outcome Python

/-- The attempts that were selected, in order, and their observations. -/
structure Campaign where
  selected : List AttemptPlan := []
  history : List AttemptObservation := []

inductive CampaignLabel [FloatValue] where
  | observe (evidence : CanonicalEvidence) (observation : AttemptObservation)
  | finish (observation : AttemptObservation)

namespace Campaign

section

variable [FloatValue] [ContentHash] [ArmScores]

/-- The next attempt is selected and its first observation appended, or an observation that is running
is replaced by one that is not. -/
def step (manifest : EvaluationManifest) (plans : List AttemptPlan) (campaign : Campaign) :
    CampaignLabel → Campaign
  | .observe evidence observation =>
    match manifest.selectNext plans campaign.history evidence with
    | .error _ => campaign
    | .ok decision =>
      match decision.attempt with
      | none => campaign
      | some plan =>
        if observation.attemptId = plan.id then
          { selected := campaign.selected ++ [plan], history := campaign.history ++ [observation] }
        else campaign
  | .finish observation =>
    { campaign with history := campaign.history.map fun old =>
        if old.attemptId = observation.attemptId ∧ old.status = .running ∧
            observation.status ≠ .running then observation
        else old }

end

def running (campaign : Campaign) : Nat :=
  campaign.history.countP fun observation => observation.status = .running

end Campaign

/-- The cost of all funded attempts, as an exact number, is within the envelope. -/
def EvaluationManifest.ExactlyFunded (manifest : EvaluationManifest) : Prop :=
  manifest.capacity * manifest.attemptCostUsd.value ≤ manifest.envelope.maxCostUsd.value

variable {manifest : EvaluationManifest}

/-- A planned manifest is exactly funded when the cost of all attempts has no more digits than the
context. -/
theorem exactlyFunded_of_few [ContentHash] {plans : List AttemptPlan} (planned : manifest.plan = .ok plans)
    (few : Decimal.digits (manifest.capacity * manifest.attemptCostUsd.coefficient) ≤ Decimal.precision)
    (large : Decimal.tiny ≤ manifest.attemptCostUsd.exponent) : manifest.ExactlyFunded := by
  obtain ⟨-, ⟨cost, product, within⟩, -⟩ := plan_ok.mp planned
  rwa [Decimal.times_exact few large product] at within

/-! ### Counting attempts -/

theorem repeats_le_repetitions : manifest.repeats ≤ manifest.repetitions := by
  unfold EvaluationManifest.repetitions
  cases manifest.policy with
  | uniform => exact le_refl _
  | adaptive => exact Nat.le_mul_of_pos_right _ manifest.armBounds.1

section

variable [ContentHash]

theorem candidates_length : manifest.candidates.length =
    manifest.targets.length * (manifest.repetitions * manifest.arms.length) := by
  simp [EvaluationManifest.candidates, List.length_flatMap]

theorem capacity_le_candidates : manifest.capacity ≤ manifest.candidates.length := by
  rw [candidates_length, EvaluationManifest.capacity, Nat.mul_assoc,
    Nat.mul_comm manifest.arms.length]
  exact Nat.mul_le_mul_left _ (Nat.mul_le_mul_right _ repeats_le_repetitions)

/-- The protected attempts: as many as are planned for each target and each arm. -/
theorem candidates_protected : manifest.candidates.countP AttemptPlan.isProtected =
    manifest.targets.length * manifest.arms.length * manifest.protectedPerArm := by
  have deep : ∀ bound : Nat, ((List.range bound).map fun repetition =>
      if repetition < manifest.protectedPerArm then manifest.arms.length else 0).sum =
        min bound manifest.protectedPerArm * manifest.arms.length := by
    intro bound
    induction bound with
    | zero => simp
    | succ bound ih =>
      rw [List.range_succ, List.map_append, List.sum_append, ih]
      by_cases below : bound < manifest.protectedPerArm
      · rw [Nat.min_eq_left below.le, Nat.min_eq_left (Nat.succ_le_of_lt below)]
        simp [below, Nat.succ_mul]
      · rw [Nat.min_eq_right (Nat.le_of_not_lt below), Nat.min_eq_right (by omega)]
        simp [below]
  have each : ∀ target : TargetSpec, ∀ repetition : Nat,
      (manifest.arms.map fun arm => manifest.attempt target arm repetition).countP AttemptPlan.isProtected =
        if repetition < manifest.protectedPerArm then manifest.arms.length else 0 := by
    intro target repetition
    rw [List.countP_map]
    by_cases below : repetition < manifest.protectedPerArm
    · rw [if_pos below, List.countP_eq_length]
      exact fun arm _ => decide_eq_true below
    · rw [if_neg below, List.countP_eq_zero]
      exact fun arm _ => Bool.not_eq_true _ ▸ decide_eq_false below
  simp only [EvaluationManifest.candidates, List.countP_flatMap, Function.comp_def, each, deep]
  have enough : min manifest.repetitions manifest.protectedPerArm = manifest.protectedPerArm :=
    Nat.min_eq_right (manifest.depth.1.trans repeats_le_repetitions)
  rw [enough, List.map_const', List.sum_replicate, nsmul_eq_mul, Nat.cast_id, Nat.mul_comm manifest.protectedPerArm,
    Nat.mul_assoc]

end

theorem refused_ne {text : String} : PortfolioError.refused text ≠ .unavailable := by
  simp

/-! ### What a selection tells -/

section

variable [FloatValue] [ContentHash]

variable [ArmScores] {plans : List AttemptPlan} {history : List AttemptObservation}
  {evidence : CanonicalEvidence} {decision : AllocationDecision} {plan : AttemptPlan}

omit [FloatValue] [ContentHash] in
theorem adaptiveChoice_mem {available : List AttemptPlan} {counts : List (String × (Nat × Nat))}
    (chosen : EvaluationManifest.adaptiveChoice available counts = .ok decision)
    (selected : decision.attempt = some plan) : plan ∈ available := by
  simp only [EvaluationManifest.adaptiveChoice, bind_ok, orThrow_ok, pure_ok] at chosen
  obtain ⟨best, found, rfl⟩ := chosen
  obtain rfl := Option.some.inj selected
  exact List.argmax_mem found

/-- A selected attempt is funded, can run now, is a new one, and is protected unless all protected
attempts have been selected. -/
theorem selectNext_cases (chosen : manifest.selectNext plans history evidence = .ok decision)
    (selected : decision.attempt = some plan) :
    history.length < manifest.capacity ∧
      history.countP (fun observation => observation.status = .running) < manifest.envelope.maxConcurrency ∧
      plan ∈ plans ∧ plan.id ∉ attemptIds history ∧
      (plan.isProtected = false →
        ∀ other ∈ plans, other.isProtected = true → other.id ∈ attemptIds history) := by
  obtain ⟨expected, accepted, chosen⟩ := bind_ok.mp chosen
  split at chosen
  · obtain rfl := Except.ok.inj chosen
    cases selected
  split at chosen
  · obtain rfl := Except.ok.inj chosen
    cases selected
  next open_ free =>
    refine ⟨Nat.lt_of_not_le open_, Nat.lt_of_not_le free, ?_⟩
    have fresh : ∀ other ∈ plans.filter fun plan => plan.id ∉ history.map AttemptObservation.attemptId,
        other ∈ plans ∧ other.id ∉ attemptIds history := by
      intro other member
      simpa [attemptIds] using List.mem_filter.mp member
    dsimp only at chosen
    split at chosen
    next first found =>
      obtain rfl := Except.ok.inj chosen
      obtain rfl := Option.some.inj selected
      obtain ⟨listed, new⟩ := fresh _ (List.mem_of_find?_eq_some found)
      exact ⟨listed, new, fun deep => absurd (List.find?_some found) (by simp [deep])⟩
    next none_ =>
      have used : ∀ other ∈ plans, other.isProtected = true → other.id ∈ attemptIds history := by
        intro other listed deep
        by_contra new
        exact List.find?_eq_none.mp none_ other
          (List.mem_filter.mpr ⟨listed, by simpa [attemptIds] using new⟩) deep
      have member : plan ∈ plans.filter fun plan => plan.id ∉ history.map AttemptObservation.attemptId := by
        split at chosen
        · simp only [bind_ok, orThrow_ok, pure_ok] at chosen
          obtain ⟨best, found, rfl⟩ := chosen
          obtain rfl := Option.some.inj selected
          exact List.mem_of_head? found
        · obtain ⟨tallied, -, chosen⟩ := bind_ok.mp chosen
          exact adaptiveChoice_mem chosen selected
      exact ⟨(fresh plan member).1, (fresh plan member).2, fun _ => used⟩

/-- As long as an attempt is funded and can run, one is selected. -/
theorem selectNext_selects (chosen : manifest.selectNext plans history evidence = .ok decision)
    (left : history.length < manifest.capacity)
    (free : history.countP (fun observation => observation.status = .running) <
      manifest.envelope.maxConcurrency) : decision.attempt ≠ none := by
  obtain ⟨expected, accepted, chosen⟩ := bind_ok.mp chosen
  rw [if_neg (Nat.not_le_of_lt left), if_neg (Nat.not_le_of_lt free)] at chosen
  dsimp only at chosen
  split at chosen
  · obtain rfl := Except.ok.inj chosen
    exact Option.some_ne_none _
  split at chosen
  · simp only [bind_ok, orThrow_ok, pure_ok] at chosen
    obtain ⟨best, -, rfl⟩ := chosen
    exact Option.some_ne_none _
  · simp only [EvaluationManifest.adaptiveChoice, bind_ok, orThrow_ok, pure_ok] at chosen
    obtain ⟨tallied, -, best, -, rfl⟩ := chosen
    exact Option.some_ne_none _

/-! ### A plan is available -/

omit [FloatValue] [ContentHash] [ArmScores] in
theorem checkObservation_ne {expected : PlanTable} {seen traces : List Digest}
    (observation : AttemptObservation) :
    manifest.checkObservation expected seen traces observation ≠ .error .unavailable := by
  unfold EvaluationManifest.checkObservation
  refine bind_ne (require_ne refused_ne) fun _ _ => bind_ne (orThrow_ne refused_ne) fun plan _ => ?_
  refine bind_ne (require_ne refused_ne) fun _ _ => bind_ne (require_ne refused_ne) fun _ _ => ?_
  exact bind_ne (require_ne refused_ne) fun _ _ => require_ne refused_ne

omit [FloatValue] [ContentHash] [ArmScores] in
theorem checkHistory_ne {expected : PlanTable} {seen traces : List Digest} :
    manifest.checkHistory expected seen traces history ≠ .error .unavailable := by
  induction history generalizing seen traces with
  | nil => exact ok_ne
  | cons observation history ih => exact bind_ne (checkObservation_ne observation) fun _ _ => ih

omit [ArmScores] in
/-- A history is refused in words, or the costs overflow. -/
theorem validateHistory_ne : manifest.validateHistory plans history ≠ .error .unavailable := by
  have planning : manifest.plan ≠ .error .unavailable := by
    unfold EvaluationManifest.plan
    refine bind_ne (orThrow_ne (by decide)) fun _ _ => ?_
    exact bind_ne (require_ne refused_ne) fun _ _ => bind_ne (require_ne refused_ne) fun _ _ =>
      ok_ne
  unfold EvaluationManifest.validateHistory
  refine bind_ne planning fun _ _ => bind_ne (require_ne refused_ne) fun _ _ => ?_
  exact bind_ne checkHistory_ne fun _ _ => bind_ne (require_ne refused_ne) fun _ _ => ok_ne

omit [ArmScores] in
/-- The attempts of an accepted history are known, so each is found when the trials are counted. -/
theorem tally_ne {expected : PlanTable} {tallied : EvaluationManifest.Tally}
    {observation : AttemptObservation} (known : ∃ plan, Dict.get expected observation.attemptId = some plan) :
    EvaluationManifest.tally expected evidence tallied observation ≠ .error .unavailable := by
  obtain ⟨plan, found⟩ := known
  unfold EvaluationManifest.tally
  split
  · exact ok_ne
  rw [orThrow_then found]
  dsimp only
  split
  · split
    · exact fun same => PortfolioError.noConfusion (Except.error.inj same)
    · exact ok_ne
    · exact ok_ne
  · exact ok_ne

omit [ArmScores] in
theorem tallies_ne {expected : PlanTable} {tallied : EvaluationManifest.Tally}
    (known : ∀ observation ∈ history, ∃ plan, Dict.get expected observation.attemptId = some plan) :
    history.foldlM (EvaluationManifest.tally expected evidence) tallied ≠ .error .unavailable := by
  induction history generalizing tallied with
  | nil => exact ok_ne
  | cons observation history ih =>
    rw [List.foldlM_cons]
    refine bind_ne (tally_ne (known observation List.mem_cons_self)) fun _ _ => ih ?_
    exact fun later member => known later (List.mem_cons_of_mem _ member)

omit [FloatValue] [ArmScores] in
/-- Before the funded attempts are exhausted there is one that was not selected. -/
theorem available_ne_nil (distinct : (manifest.candidates.map AttemptPlan.id).Nodup)
    (left : history.length < manifest.capacity) :
    manifest.candidates.filter (fun plan => plan.id ∉ history.map AttemptObservation.attemptId) ≠ [] := by
  intro empty
  have used : manifest.candidates.map AttemptPlan.id ⊆ history.map AttemptObservation.attemptId := by
    intro id member
    obtain ⟨plan, listed, rfl⟩ := List.mem_map.mp member
    simpa using List.filter_eq_nil_iff.mp empty plan listed
  have few := (List.subperm_of_subset distinct used).length_le
  rw [List.length_map, List.length_map] at few
  have enough : manifest.capacity ≤ manifest.candidates.length := capacity_le_candidates
  omega

/-- A plan is always available when one is looked for. -/
theorem selectNext_available (collisionFree : Function.Injective ContentHash.sha256) :
    manifest.selectNext manifest.candidates history evidence ≠ .error .unavailable := by
  refine bind_ne validateHistory_ne fun expected accepted => ?_
  have known := (validateHistory_ok.mp accepted).2.2.2.1
  split
  · exact ok_ne
  next left =>
    obtain ⟨first, rest, available⟩ := List.exists_cons_of_ne_nil
      (available_ne_nil (candidates_nodup collisionFree) (Nat.lt_of_not_le left))
    rw [available]
    split
    · exact ok_ne
    dsimp only
    split
    · exact ok_ne
    split
    · exact ok_ne
    have counting : ∀ observation ∈ history, ∃ plan, Dict.get expected observation.attemptId = some plan := by
      intro observation member
      obtain ⟨plan, found, -⟩ := known observation member
      exact ⟨plan, found⟩
    refine bind_ne (tallies_ne counting) fun tallied _ => ?_
    have best : ∀ score : AttemptPlan → WithTop ℚ, ∃ plan, (first :: rest).argmax score = some plan :=
      fun score => Option.ne_none_iff_exists'.mp (mt List.argmax_eq_none.mp (List.cons_ne_nil _ _))
    obtain ⟨plan, found⟩ := best _
    unfold EvaluationManifest.adaptiveChoice
    rw [orThrow_then found]
    exact ok_ne

end

/-! ### Campaigns -/

namespace Campaign

section

variable [ContentHash]

/-- What every step of a campaign keeps. -/
structure Ordered (manifest : EvaluationManifest) (campaign : Campaign) : Prop where
  observed : attemptIds campaign.history = campaign.selected.map AttemptPlan.id
  planned : ∀ plan ∈ campaign.selected, plan ∈ manifest.candidates
  once : (campaign.selected.map AttemptPlan.id).Nodup
  deepFirst : ∀ before plan after, campaign.selected = before ++ plan :: after → plan.isProtected = false →
    ∀ other ∈ manifest.candidates, other.isProtected = true → other ∈ before
  funded : campaign.selected.length ≤ manifest.capacity
  concurrent : campaign.running ≤ manifest.envelope.maxConcurrency

theorem ordered_start : Ordered manifest {} where
  observed := rfl
  planned plan member := absurd member List.not_mem_nil
  once := List.nodup_nil
  deepFirst before plan after split := absurd split (by simp)
  funded := Nat.zero_le _
  concurrent := Nat.zero_le _

/-- A finished observation takes the place of the one of its attempt. -/
theorem Ordered.finish {campaign : Campaign} (ordered : Ordered manifest campaign)
    (replaced : AttemptObservation → AttemptObservation)
    (same : ∀ observation, (replaced observation).attemptId = observation.attemptId)
    (ends : ∀ observation, (replaced observation).status = .running → observation.status = .running) :
    Ordered manifest { campaign with history := campaign.history.map replaced } where
  observed := by
    have ids : attemptIds (campaign.history.map replaced) = attemptIds campaign.history := by
      unfold attemptIds
      rw [List.map_map]
      exact List.map_congr_left fun observation _ => same observation
    exact ids.trans ordered.observed
  planned := ordered.planned
  once := ordered.once
  deepFirst := ordered.deepFirst
  funded := ordered.funded
  concurrent := by
    refine le_trans ?_ ordered.concurrent
    unfold running
    rw [List.countP_map]
    refine List.countP_mono_left fun observation _ still => ?_
    exact decide_eq_true (ends observation (of_decide_eq_true still))

/-- An attempt that was not selected before is appended, with its observation. -/
theorem Ordered.observe {campaign : Campaign} (ordered : Ordered manifest campaign) {plan : AttemptPlan}
    {observation : AttemptObservation} (distinct : (manifest.candidates.map AttemptPlan.id).Nodup)
    (own : observation.attemptId = plan.id) (left : campaign.history.length < manifest.capacity)
    (free : campaign.running < manifest.envelope.maxConcurrency) (listed : plan ∈ manifest.candidates)
    (fresh : plan.id ∉ attemptIds campaign.history)
    (deep : plan.isProtected = false →
      ∀ other ∈ manifest.candidates, other.isProtected = true → other.id ∈ attemptIds campaign.history) :
    Ordered manifest
      { selected := campaign.selected ++ [plan], history := campaign.history ++ [observation] } where
  observed := by
    have old := ordered.observed
    unfold attemptIds at old ⊢
    rw [List.map_append, List.map_append, old, List.map_singleton, List.map_singleton, own]
  planned := by
    intro other member
    rcases List.mem_append.mp member with old | new
    · exact ordered.planned other old
    · exact List.mem_singleton.mp new ▸ listed
  once := by
    rw [List.map_append, List.map_singleton]
    refine List.nodup_append'.mpr ⟨ordered.once, List.nodup_singleton _, ?_⟩
    rw [List.disjoint_singleton, ← ordered.observed]
    exact fresh
  deepFirst := by
    intro before other after split shallow third known isDeep
    rcases List.eq_nil_or_concat after with rfl | ⟨first, last, rfl⟩
    · -- the new attempt is the shallow one: the observations name the deep ones that were selected
      obtain ⟨rfl, same⟩ := List.append_inj' split (by simp)
      obtain rfl := List.singleton_inj.mp same
      have seen := deep shallow third known isDeep
      rw [ordered.observed] at seen
      obtain ⟨selected, member, same⟩ := List.mem_map.mp seen
      obtain rfl := List.inj_on_of_nodup_map distinct (ordered.planned selected member) known same
      exact member
    · rw [List.concat_eq_append, ← List.cons_append, ← List.append_assoc] at split
      obtain ⟨earlier, -⟩ := List.append_inj' split (by simp)
      exact ordered.deepFirst before other first earlier shallow third known isDeep
  funded := by
    have ids := congrArg List.length ordered.observed
    rw [attemptIds, List.length_map, List.length_map] at ids
    rw [List.length_append, List.length_singleton]
    omega
  concurrent := by
    unfold running at free ⊢
    rw [List.countP_append]
    have one : [observation].countP (fun observation => observation.status = .running) ≤ 1 :=
      List.countP_le_length
    omega

end

section

variable [FloatValue] [ContentHash] [ArmScores]

theorem Ordered.step {campaign : Campaign} (collisionFree : Function.Injective ContentHash.sha256)
    (ordered : Ordered manifest campaign) (label : CampaignLabel) :
    Ordered manifest (campaign.step manifest manifest.candidates label) := by
  cases label with
  | observe evidence observation =>
    simp only [Campaign.step]
    split
    · exact ordered
    next decision chosen =>
      split
      · exact ordered
      next plan selected =>
        split
        next own =>
          obtain ⟨left, free, listed, fresh, deep⟩ := selectNext_cases chosen selected
          exact ordered.observe (candidates_nodup collisionFree) own left free listed fresh deep
        · exact ordered
  | finish observation =>
    refine ordered.finish _ (fun old => ?_) fun old still => ?_
    · split
      next same => exact same.1.symm
      · rfl
    · split at still
      next same => exact same.2.1
      · exact still

theorem step_observe (campaign : Campaign) {plans : List AttemptPlan} {evidence : CanonicalEvidence}
    {observation : AttemptObservation} {decision : AllocationDecision} {plan : AttemptPlan}
    (chosen : manifest.selectNext plans campaign.history evidence = .ok decision)
    (selected : decision.attempt = some plan) (own : observation.attemptId = plan.id) :
    campaign.step manifest plans (.observe evidence observation) =
      { selected := campaign.selected ++ [plan], history := campaign.history ++ [observation] } := by
  simp only [Campaign.step, chosen, selected]
  rw [if_pos own]

/-- Every run of a campaign keeps its order. -/
theorem ordered_run (collisionFree : Function.Injective ContentHash.sha256) (labels : List CampaignLabel) :
    Ordered manifest (Transition.run (step manifest manifest.candidates) {} labels) :=
  Transition.run_always (Ordered manifest) labels ordered_start fun _ label ordered =>
    ordered.step collisionFree label

end

/-! ### The envelope -/

section

variable [ContentHash] {campaign : Campaign}

/-- The deep attempts that were selected. -/
theorem Ordered.deep (ordered : Ordered manifest campaign) :
    campaign.selected.countP AttemptPlan.isProtected ≤
      manifest.targets.length * manifest.arms.length * manifest.protectedPerArm := by
  have sub : campaign.selected.Subperm manifest.candidates :=
    List.subperm_of_subset ordered.once.of_map ordered.planned
  rw [← candidates_protected]
  exact sub.countP_le _

/-- The sum of a limit that all planned attempts share. -/
theorem Ordered.sum_limit {M : Type} [AddCommMonoid M] (ordered : Ordered manifest campaign)
    {limit : AttemptPlan → M} {each : M} (same : ∀ plan ∈ manifest.candidates, limit plan = each) :
    (campaign.selected.map limit).sum = campaign.selected.length • each := by
  have all : campaign.selected.map limit = List.replicate campaign.selected.length each := by
    refine List.eq_replicate_iff.mpr ⟨List.length_map _, fun value member => ?_⟩
    obtain ⟨plan, selected, rfl⟩ := List.mem_map.mp member
    exact same plan (ordered.planned plan selected)
  rw [all, List.sum_replicate]

/-- The deep attempts take the seconds of a shallow one and more. -/
theorem seconds_sum {selected : List AttemptPlan} (planned : ∀ plan ∈ selected, plan ∈ manifest.candidates) :
    (selected.map AttemptPlan.maxWallSeconds).sum =
      selected.length * manifest.attemptSeconds +
        selected.countP AttemptPlan.isProtected * (manifest.deepAttemptSeconds - manifest.attemptSeconds) := by
  induction selected with
  | nil => simp
  | cons plan selected ih =>
    have depth := manifest.depth.2
    have own : plan.maxWallSeconds = manifest.attemptSeconds +
        if plan.isProtected then manifest.deepAttemptSeconds - manifest.attemptSeconds else 0 := by
      obtain ⟨target, -, arm, -, repetition, -, rfl⟩ := candidate_attempt (planned plan List.mem_cons_self)
      simp only [EvaluationManifest.attempt, decide_eq_true_eq]
      split <;> omega
    rw [List.map_cons, List.sum_cons, own, ih fun later member => planned later (List.mem_cons_of_mem _ member),
      List.countP_cons, List.length_cons, Nat.add_mul, Nat.add_mul, Nat.one_mul]
    split
    · rw [Nat.one_mul]
      omega
    · rw [Nat.zero_mul]
      omega

theorem Ordered.seconds (ordered : Ordered manifest campaign) :
    (campaign.selected.map AttemptPlan.maxWallSeconds).sum ≤ manifest.reservedSeconds := by
  obtain ⟨extra, longer⟩ := Nat.exists_eq_add_of_le manifest.depth.2
  have few : manifest.targets.length * manifest.arms.length * manifest.protectedPerArm ≤ manifest.capacity :=
    Nat.mul_le_mul_left _ manifest.depth.1
  have shallow := Nat.mul_le_mul_right manifest.attemptSeconds ordered.funded
  have deep := Nat.mul_le_mul_right extra ordered.deep
  have enough := Nat.mul_le_mul_right manifest.attemptSeconds few
  rw [seconds_sum ordered.planned]
  unfold EvaluationManifest.reservedSeconds
  dsimp only
  rw [longer, Nat.add_sub_cancel_left, Nat.mul_add, Nat.sub_mul]
  omega

end

/-- What a campaign promises. -/
structure Within [FloatValue] [ContentHash] [ArmScores] (manifest : EvaluationManifest)
    (campaign : Campaign) : Prop where
  once : (campaign.selected.map AttemptPlan.id).Nodup
  deepFirst : ∀ before plan after, campaign.selected = before ++ plan :: after → plan.isProtected = false →
    ∀ other ∈ manifest.candidates, other.isProtected = true → other ∈ before
  funded : campaign.selected.length ≤ manifest.capacity
  cost : (campaign.selected.map fun plan => plan.maxCostUsd.value).sum ≤ manifest.envelope.maxCostUsd.value
  tokens : (campaign.selected.map AttemptPlan.maxTokens).sum ≤ manifest.envelope.maxTokens
  seconds : (campaign.selected.map AttemptPlan.maxWallSeconds).sum ≤ manifest.envelope.maxWallSeconds
  concurrent : campaign.running ≤ manifest.envelope.maxConcurrency
  available : ∀ evidence,
    manifest.selectNext manifest.candidates campaign.history evidence ≠ .error .unavailable
  selects : ∀ evidence decision,
    manifest.selectNext manifest.candidates campaign.history evidence = .ok decision →
      campaign.selected.length < manifest.capacity → campaign.running < manifest.envelope.maxConcurrency →
        decision.attempt ≠ none

section

variable [FloatValue] [ContentHash] [ArmScores]

/-- A campaign over the plans of an exactly funded manifest stays within its envelope. -/
theorem campaign_within {plans : List AttemptPlan} (collisionFree : Function.Injective ContentHash.sha256)
    (planned : manifest.plan = .ok plans) (exact_ : manifest.ExactlyFunded) (labels : List CampaignLabel) :
    Within manifest (Transition.run (step manifest plans) {} labels) := by
  obtain ⟨rfl, -, tokens, seconds, -⟩ := plan_ok.mp planned
  have ordered : Ordered manifest (Transition.run (step manifest manifest.candidates) {} labels) :=
    ordered_run collisionFree labels
  have length : (Transition.run (step manifest manifest.candidates) {} labels).history.length =
      (Transition.run (step manifest manifest.candidates) {} labels).selected.length := by
    simpa [attemptIds] using congrArg List.length ordered.observed
  have shared : ∀ plan ∈ manifest.candidates,
      plan.maxCostUsd.value = manifest.attemptCostUsd.value ∧ plan.maxTokens = manifest.attemptTokens := by
    intro plan listed
    obtain ⟨target, -, arm, -, repetition, -, rfl⟩ := candidate_attempt listed
    exact ⟨rfl, rfl⟩
  refine
    { once := ordered.once
      deepFirst := ordered.deepFirst
      funded := ordered.funded
      cost := ?_
      tokens := ?_
      seconds := ordered.seconds.trans seconds
      concurrent := ordered.concurrent
      available := fun evidence => selectNext_available collisionFree
      selects := ?_ }
  · rw [ordered.sum_limit fun plan listed => (shared plan listed).1, nsmul_eq_mul]
    refine le_trans ?_ exact_
    exact mul_le_mul_of_nonneg_right (Nat.cast_le.mpr ordered.funded) (Decimal.value_nonneg _)
  · rw [ordered.sum_limit fun plan listed => (shared plan listed).2, nsmul_eq_mul]
    exact le_trans (Nat.mul_le_mul_right _ ordered.funded) tokens
  · intro evidence decision chosen left free
    exact selectNext_selects chosen (length ▸ left) free

end

end Campaign

namespace Scenario

section

local instance campaignHash : ContentHash := textHash

local instance campaignValue : FloatValue := ⟨fun _ => 0⟩

local instance campaignScores : ArmScores := ⟨fun wins trials => wins / trials, fun _ _ => 0, (· + ·)⟩

def noEvidence : CanonicalEvidence where
  records := []
  named := by simp
  distinct := by simp

def startedAttempt (cost : Decimal) (status : AttemptStatus) : AttemptObservation where
  attemptId := (oneAttempt cost).identity sampleTarget sampleArm 0
  observedModel := "model"
  status := status
  costUsd := ⟨0, 0⟩
  wallSeconds := 0
  tokens := 0
  experimentId := "experiment"
  wallBound := le_refl _

/-- The attempt is selected, and then it is finished. -/
def oneCampaign (cost : Decimal) : Campaign :=
  Transition.run (Campaign.step (oneAttempt cost) (oneAttempt cost).candidates) {}
    [.observe noEvidence (startedAttempt cost .running), .finish (startedAttempt cost .completed)]

theorem oneAttempt_plan (cost product : Decimal) (times : Decimal.times 1 cost = some product)
    (within : product.value ≤ (⟨1, 0⟩ : Decimal).value) :
    (oneAttempt cost).plan = .ok (oneAttempt cost).candidates :=
  plan_ok.mpr ⟨rfl, ⟨product, times, within⟩, Nat.le_refl 10, Nat.le_refl 10,
    Nat.le_of_ble_eq_true rfl⟩

/-- The exact cost of the one attempt is within the envelope. -/
theorem oneCampaign_within : Campaign.Within (oneAttempt ⟨5, -1⟩) (oneCampaign ⟨5, -1⟩) :=
  Campaign.campaign_within (fun _ _ same => same)
    (oneAttempt_plan ⟨5, -1⟩ ⟨5, -1⟩ (by decide) (Decimal.exceeds_false.mp (by decide)))
    (by
      show ((oneAttempt ⟨5, -1⟩).capacity : ℚ) * Decimal.value ⟨5, -1⟩ ≤ Decimal.value ⟨1, 0⟩
      norm_num [EvaluationManifest.capacity, oneAttempt, Decimal.value])
    _

/-- One and one over ten to the twenty-eighth: the context rounds it to one. -/
def dear : Decimal := ⟨10 ^ 28 + 1, -28⟩

theorem dear_plan : (oneAttempt dear).plan = .ok (oneAttempt dear).candidates :=
  oneAttempt_plan dear ⟨10 ^ 27, -27⟩ (by decide) (Decimal.exceeds_false.mp (by decide))

theorem dear_history : (oneAttempt dear).validateHistory (oneAttempt dear).candidates [] =
    .ok (planTable (oneAttempt dear).candidates) := by
  have distinct : ((oneAttempt dear).candidates.map AttemptPlan.id).Nodup :=
    candidates_nodup fun _ _ same => same
  refine validateHistory_ok.mpr ⟨⟨_, dear_plan, rfl⟩, equalTables_candidates fun _ _ same => same, ?_, ?_,
    List.nodup_nil, List.nodup_nil, Nat.zero_le _⟩
  · rw [planTable_nodup distinct, List.length_map]
  · exact fun observation member => absurd member List.not_mem_nil

theorem dear_available : ((oneAttempt dear).candidates.filter fun plan =>
      plan.id ∉ ([] : List AttemptObservation).map AttemptObservation.attemptId) =
    [(oneAttempt dear).attempt sampleTarget sampleArm 0] :=
  List.filter_eq_self.mpr fun _ _ => decide_eq_true List.not_mem_nil

theorem dear_chosen : (oneAttempt dear).selectNext (oneAttempt dear).candidates [] noEvidence =
    .ok { attempt := some ((oneAttempt dear).attempt sampleTarget sampleArm 0)
          reason := "reserved protected deep attempt" } := by
  unfold EvaluationManifest.selectNext
  rw [ok_then dear_history, dear_available, if_neg (by decide), if_neg (by decide)]
  rfl

theorem dear_selected : (Campaign.step (oneAttempt dear) (oneAttempt dear).candidates {}
      (.observe noEvidence (startedAttempt dear .running))).selected =
    [(oneAttempt dear).attempt sampleTarget sampleArm 0] := by
  have own : (startedAttempt dear .running).attemptId =
      ((oneAttempt dear).attempt sampleTarget sampleArm 0).id := by
    simp only [startedAttempt, EvaluationManifest.attempt]
  rw [Campaign.step_observe {} dear_chosen (Eq.refl _) own, List.nil_append]

/-- The context of the product hides that the one attempt costs more than the envelope. -/
theorem dear_overspends : ¬ ∀ (manifest : EvaluationManifest) (plans : List AttemptPlan)
    (labels : List CampaignLabel), Function.Injective (ContentHash.sha256) → manifest.plan = .ok plans →
      Campaign.Within manifest (Transition.run (Campaign.step manifest plans) {} labels) := by
  intro promised
  have spent := (promised _ _ [.observe noEvidence (startedAttempt dear .running)]
    (fun _ _ same => same) dear_plan).cost
  rw [Transition.run_cons, Transition.run_nil, dear_selected, List.map_singleton, List.sum_singleton] at spent
  exact absurd (Decimal.exceeds_false.mpr spent) (by decide)

end

end Scenario

end PhysHarness
