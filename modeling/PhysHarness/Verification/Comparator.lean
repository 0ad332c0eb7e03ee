import PhysHarness.Lib.JsonSize
import PhysHarness.Verification.Container

/-!
# The comparator's verdict

The answer of the container is validated field by field against the request, the pinned resources
and the pinned environment. A verified outcome is the last exit of this chain; every refusal becomes
a blocked or rejected outcome without assurance.

## Main result

`verify_sound_iff`: the verifier answers, soundly, unless a text that nests too deep for the decoder
ends the run.
-/
namespace PhysHarness

open Outcome

structure DriverResult where
  status : VerificationStatus
  code : String
  targetDigest : Digest
  challengeSha256 : Digest
  environmentDigest : Digest
  candidateSha256 : Digest
  resourceProfileSha256 : Digest
  resourcePolicySha256 : Digest
  independentKernel : Bool
  axioms : List String
  checkerVersions : List (String × String)
  diagnostics : List (String × Json)

def asVerdict : Json → Option VerificationStatus
  | .str "verified" => some .verified
  | .str "rejected" => some .rejected
  | .str "blocked" => some .blocked
  | _ => none

def DriverResult.validate (value : Json) : Option DriverResult := do
  let fields ← asFields value
  guard (named fields ["protocol", "status", "code", "target_digest", "challenge_sha256",
    "environment_digest", "candidate_sha256", "resource_profile_sha256", "resource_policy_sha256",
    "independent_kernel", "axioms", "checker_versions", "diagnostics"])
  guard (Dict.get fields "protocol" = some (.str protocol))
  return {
    status := ← field fields "status" asVerdict
    code := ← field fields "code" asText
    targetDigest := ← field fields "target_digest" asSha256
    challengeSha256 := ← field fields "challenge_sha256" asSha256
    environmentDigest := ← field fields "environment_digest" asSha256
    candidateSha256 := ← field fields "candidate_sha256" asSha256
    resourceProfileSha256 := ← field fields "resource_profile_sha256" asSha256
    resourcePolicySha256 := ← field fields "resource_policy_sha256" asSha256
    independentKernel := ← field fields "independent_kernel" asBool
    axioms := ← field fields "axioms" (asList asText)
    checkerVersions := ← field fields "checker_versions" (asMap asText)
    diagnostics := ← field fields "diagnostics" asFields }

/-! ### Reading an annotated answer -/

/-- What validation has read, field by field. -/
structure DriverResult.Reads (fields : List (String × Json)) (result : DriverResult) : Prop where
  names : named fields ["protocol", "status", "code", "target_digest", "challenge_sha256",
    "environment_digest", "candidate_sha256", "resource_profile_sha256", "resource_policy_sha256",
    "independent_kernel", "axioms", "checker_versions", "diagnostics"] = true
  protocol : Dict.get fields "protocol" = some (.str protocol)
  status : field fields "status" asVerdict = some result.status
  code : field fields "code" asText = some result.code
  targetDigest : field fields "target_digest" asSha256 = some result.targetDigest
  challengeSha256 : field fields "challenge_sha256" asSha256 = some result.challengeSha256
  environmentDigest : field fields "environment_digest" asSha256 = some result.environmentDigest
  candidateSha256 : field fields "candidate_sha256" asSha256 = some result.candidateSha256
  resourceProfileSha256 :
    field fields "resource_profile_sha256" asSha256 = some result.resourceProfileSha256
  resourcePolicySha256 :
    field fields "resource_policy_sha256" asSha256 = some result.resourcePolicySha256
  independentKernel : field fields "independent_kernel" asBool = some result.independentKernel
  axioms : field fields "axioms" (asList asText) = some result.axioms
  checkerVersions : field fields "checker_versions" (asMap asText) = some result.checkerVersions
  diagnostics : field fields "diagnostics" asFields = some result.diagnostics

theorem DriverResult.validate_eq_some {fields : List (String × Json)} {result : DriverResult} :
    DriverResult.validate (.obj fields) = some result ↔ result.Reads fields := by
  constructor
  · intro validated
    have guarded : ∀ {p : Prop} [Decidable p] {u : Unit}, (guard p : Option Unit) = some u → p :=
      fun passed => (Option.guard_eq_some' _).mp passed
    obtain ⟨_, names, validated⟩ := Option.bind_eq_some_iff.mp validated
    obtain ⟨_, protocol, validated⟩ := Option.bind_eq_some_iff.mp validated
    obtain ⟨status, atStatus, validated⟩ := Option.bind_eq_some_iff.mp validated
    obtain ⟨code, atCode, validated⟩ := Option.bind_eq_some_iff.mp validated
    obtain ⟨target, atTarget, validated⟩ := Option.bind_eq_some_iff.mp validated
    obtain ⟨challenge, atChallenge, validated⟩ := Option.bind_eq_some_iff.mp validated
    obtain ⟨environment, atEnvironment, validated⟩ := Option.bind_eq_some_iff.mp validated
    obtain ⟨candidate, atCandidate, validated⟩ := Option.bind_eq_some_iff.mp validated
    obtain ⟨profile, atProfile, validated⟩ := Option.bind_eq_some_iff.mp validated
    obtain ⟨policy, atPolicy, validated⟩ := Option.bind_eq_some_iff.mp validated
    obtain ⟨independent, atIndependent, validated⟩ := Option.bind_eq_some_iff.mp validated
    obtain ⟨axioms, atAxioms, validated⟩ := Option.bind_eq_some_iff.mp validated
    obtain ⟨versions, atVersions, validated⟩ := Option.bind_eq_some_iff.mp validated
    obtain ⟨diagnostics, atDiagnostics, validated⟩ := Option.bind_eq_some_iff.mp validated
    obtain rfl := Option.some.inj validated
    exact ⟨guarded names, guarded protocol, atStatus, atCode, atTarget, atChallenge, atEnvironment, atCandidate,
      atProfile, atPolicy, atIndependent, atAxioms, atVersions, atDiagnostics⟩
  · intro reads
    refine Option.bind_eq_some_iff.mpr ⟨(), (Option.guard_eq_some' _).mpr reads.names, ?_⟩
    refine Option.bind_eq_some_iff.mpr ⟨(), (Option.guard_eq_some' _).mpr reads.protocol, ?_⟩
    refine Option.bind_eq_some_iff.mpr ⟨_, reads.status, ?_⟩
    refine Option.bind_eq_some_iff.mpr ⟨_, reads.code, ?_⟩
    refine Option.bind_eq_some_iff.mpr ⟨_, reads.targetDigest, ?_⟩
    refine Option.bind_eq_some_iff.mpr ⟨_, reads.challengeSha256, ?_⟩
    refine Option.bind_eq_some_iff.mpr ⟨_, reads.environmentDigest, ?_⟩
    refine Option.bind_eq_some_iff.mpr ⟨_, reads.candidateSha256, ?_⟩
    refine Option.bind_eq_some_iff.mpr ⟨_, reads.resourceProfileSha256, ?_⟩
    refine Option.bind_eq_some_iff.mpr ⟨_, reads.resourcePolicySha256, ?_⟩
    refine Option.bind_eq_some_iff.mpr ⟨_, reads.independentKernel, ?_⟩
    refine Option.bind_eq_some_iff.mpr ⟨_, reads.axioms, ?_⟩
    refine Option.bind_eq_some_iff.mpr ⟨_, reads.checkerVersions, ?_⟩
    exact Option.bind_eq_some_iff.mpr ⟨_, reads.diagnostics, rfl⟩

theorem field_set_ne {α : Type} {fields : List (String × Json)} {key other : String} {value : Json}
    {read : Json → Option α} (distinct : other ≠ key) :
    field (Dict.set fields key value) other read = field fields other read := by
  rw [field, field, Dict.get_set_ne distinct]

/-- The diagnostics are read last, and nothing else depends on them. -/
theorem DriverResult.Reads.diagnosed {fields : List (String × Json)} {result : DriverResult}
    {annotated : Json} {before : List (String × Json)}
    (reads : result.Reads (Dict.set fields "diagnostics" annotated))
    (known : Dict.get fields "diagnostics" = some (.obj before)) :
    Reads fields { result with diagnostics := before } where
  names := by
    have keys := Dict.keys_set (Dict.mem_keys_of_get known) annotated
    have names := reads.names
    rwa [named, keys] at names
  protocol := (Dict.get_set_ne (by simp) _ _).symm.trans reads.protocol
  status := (field_set_ne (by simp)).symm.trans reads.status
  code := (field_set_ne (by simp)).symm.trans reads.code
  targetDigest := (field_set_ne (by simp)).symm.trans reads.targetDigest
  challengeSha256 := (field_set_ne (by simp)).symm.trans reads.challengeSha256
  environmentDigest := (field_set_ne (by simp)).symm.trans reads.environmentDigest
  candidateSha256 := (field_set_ne (by simp)).symm.trans reads.candidateSha256
  resourceProfileSha256 := (field_set_ne (by simp)).symm.trans reads.resourceProfileSha256
  resourcePolicySha256 := (field_set_ne (by simp)).symm.trans reads.resourcePolicySha256
  independentKernel := (field_set_ne (by simp)).symm.trans reads.independentKernel
  axioms := (field_set_ne (by simp)).symm.trans reads.axioms
  checkerVersions := (field_set_ne (by simp)).symm.trans reads.checkerVersions
  diagnostics := by rw [field, known]; rfl

/-- A validated answer had diagnostics before they were changed. -/
theorem withDiagnostics_validated
    {change : List (String × Json) → List (String × Json) → List (String × Json)} {answer : Json}
    {result : DriverResult}
    (validated : DriverResult.validate (withDiagnostics change answer) = some result) :
    ∃ fields diagnostics, answer = .obj fields ∧
      Dict.get fields "diagnostics" = some (.obj diagnostics) ∧
      result.Reads (change fields diagnostics) := by
  cases answer with
  | obj fields =>
    unfold withDiagnostics at validated
    dsimp only at validated
    split at validated
    next diagnostics known =>
      exact ⟨fields, diagnostics, rfl, known, DriverResult.validate_eq_some.mp validated⟩
    next other =>
      have reads := (DriverResult.validate_eq_some.mp validated).diagnostics
      obtain ⟨value, known, fields⟩ := Option.bind_eq_some_iff.mp reads
      cases value with
      | obj diagnostics => exact absurd known (other diagnostics)
      | null | bool _ | int _ | float _ | str _ | arr _ => cases fields
  | null | bool _ | int _ | float _ | str _ | arr _ => cases validated

/-- An annotated answer that reads as verified was verified before, by a container that no OOM
observation overrules. -/
theorem annotated_verified {state : ContainerState} {cleanup answer : Json} {result : DriverResult}
    (validated : DriverResult.validate (recordCleanup cleanup (observe state answer)) = some result)
    (verified : result.status = .verified) :
    state.oomKilled = false ∧ ∃ diagnostics,
      DriverResult.validate answer = some { result with diagnostics := diagnostics } := by
  obtain ⟨fields, diagnostics, seen, known, reads⟩ := withDiagnostics_validated validated
  have observed := DriverResult.validate_eq_some.mpr (reads.diagnosed known)
  rw [← seen] at observed
  obtain ⟨fields, diagnostics, rfl, known, reads⟩ := withDiagnostics_validated observed
  dsimp only at reads
  split at reads
  next killed =>
    have status := reads.status
    rw [field, Dict.get_set_ne (by simp), Dict.get_set_ne (by simp), Dict.get_set_ne (by simp),
      Dict.get_set_self, verified] at status
    exact nomatch status
  next alive =>
    exact ⟨Bool.eq_false_of_not_eq_true alive, diagnostics,
      DriverResult.validate_eq_some.mpr (reads.diagnosed known)⟩

/-- A request as its constructor accepts it. -/
abbrev CheckedRequest := { request : VerificationRequest // request.valid = true }

/-- A validated outcome with its diagnostics. -/
structure CheckReply where
  outcome : VerificationOutcome
  diagnostics : List (String × Json)

/-- `outcome(...)`: constructing an outcome validates it. -/
def reply (data : OutcomeData) (diagnostics : List (String × Json)) : Except Raised CheckReply :=
  if consistent : data.Consistent then .ok ⟨⟨data, consistent⟩, diagnostics⟩
  else .error (.value "ValidationError: VerificationOutcome")

def blockedReply (request : VerificationRequest) (code message remediation : String)
    (diagnostics : List (String × Json)) : Except Raised CheckReply :=
  reply (request.outcome .blocked code message remediation) diagnostics

section Verdicts

variable [ByteHash] [Decoders]

/-- The hash of a text is the hash of its bytes. -/
@[reducible] def ByteHash.content : ContentHash := ⟨fun text => ByteHash.sha256 (Bytes.utf8 text)⟩

attribute [local instance] ByteHash.content

/-- What the answer has to agree with before its verdict is read. -/
def DriverResult.agrees (config : ComparatorConfig) (host : HostFiles)
    (request : VerificationRequest) (env : Environment) (result : DriverResult) :
    Except Raised Unit := do
  require (result.targetDigest = request.targetDigest)
    (.value "driver returned mismatched target_digest")
  require (result.challengeSha256 = request.challengeSha256)
    (.value "driver returned mismatched challenge_sha256")
  require (result.environmentDigest = request.environmentDigest)
    (.value "driver returned mismatched environment_digest")
  require (result.candidateSha256 = request.candidateSha256)
    (.value "driver returned mismatched candidate_sha256")
  require (result.resourceProfileSha256 = config.resources.sha256 ∧
      result.resourcePolicySha256 = host.policyDigest)
    (.value "Driver resource profile or policy differs from pinned execution")
  -- the versions are compared as dictionaries
  require (result.checkerVersions.Perm env.checkerVersions)
    (.value "checker version provenance differs from pinned environment")

/-- The exits of the chain after the answer agrees. -/
def DriverResult.verdict (config : ComparatorConfig) (request : VerificationRequest)
    (result : DriverResult) : Except Raised CheckReply :=
  let diagnostics := Dict.set (Dict.set result.diagnostics "resource_profile_sha256"
    (.str result.resourceProfileSha256)) "resource_policy_sha256" (.str result.resourcePolicySha256)
  if ¬ ∀ name ∈ result.axioms, name ∈ allowedAxioms then
    reply (request.outcome .rejected "unapproved_axiom" "Checker reported unapproved axioms."
      "Remove the unapproved transitive assumptions and resubmit.") []
  else if result.status ≠ .verified then
    reply { request.outcome result.status result.code "Comparator did not verify the candidate."
        "Inspect checker diagnostics, fix the candidate or qualify the environment." with
      checkerVersions := result.checkerVersions } diagnostics
  else if request.publication = true ∧ result.independentKernel = false then
    blockedReply request "independent_kernel_required" "Independent replay is missing."
      "Run the publication request using a qualified independent kernel." []
  else if result.independentKernel = true ∧ config.qualification.independentKernel = false then
    .error (.value "unqualified independent kernel")
  else
    reply { request.outcome .verified "kernel_checked" "Pinned Comparator accepted the candidate."
        "" with
      assurance := if result.independentKernel then .independentKernel else .kernel
      axioms := result.axioms
      checkerVersions := result.checkerVersions }
      (Dict.set diagnostics "qualification_report_sha256"
        (.str config.qualification.qualificationReportSha256))

/-- The `try` block of `_verify_pinned` after the bundle has been checked. -/
def checkAnswer (config : ComparatorConfig) (host : HostFiles) (docker : Docker)
    (request : VerificationRequest) (env : Environment) : Except Raised CheckReply := do
  let answer ← runContainer config docker
  let result ← orThrow (DriverResult.validate answer) (.value "ValidationError: DriverResult")
  result.agrees config host request env
  result.verdict config request

/-- The two handlers of `_verify_pinned`. -/
def settleRaised (request : VerificationRequest) : Raised → Except Raised CheckReply
  | .execution code diagnostics =>
    blockedReply request code "Verification execution did not complete."
      "Inspect execution diagnostics and repair or qualify the Linux verifier." diagnostics
  | .value message =>
    blockedReply request "invalid_checker_response" "Trusted checker response is invalid."
      "Investigate the verifier transport; do not accept candidate-supplied receipts."
      [("error", .str message)]
  | .recursion => .error .recursion

/-- `_verify_pinned` -/
def verifyPinned (config : Option ComparatorConfig) (host : HostFiles) (bundle : BundleDirectory)
    (docker : Docker) (request : VerificationRequest) : Except Raised CheckReply :=
  match config with
  | none =>
    blockedReply request "verifier_unconfigured" "Comparator is unconfigured."
      "Pin a trusted bundle and qualify the Linux execution image." []
  | some config =>
    match readBundle config host bundle request with
    | .error message =>
      blockedReply request "trusted_bundle_invalid" "Trusted bundle validation failed."
        "Restore the immutable bundle or create and review a new pinned revision."
        [("error", .str message)]
    | .ok (_, env, _) =>
      match publicationPreflight config request env with
      | some failed => reply failed []
      | none =>
        match checkAnswer config host docker request env with
        | .ok checked => .ok checked
        | .error raised => settleRaised request raised

/-- `ComparatorVerifier.verify` -/
def verify (config : Option ComparatorConfig) (host : HostFiles) (bundle : BundleDirectory)
    (docker : Docker) (request : VerificationRequest) : Except Raised CheckReply :=
  match preflight request with
  | some failed => reply failed []
  | none => verifyPinned config host bundle docker request

/-! ### Soundness -/

/-- An outcome that accepts nothing. -/
def Refused (checked : CheckReply) : Prop :=
  (checked.outcome.1.status = .rejected ∨ checked.outcome.1.status = .blocked) ∧
    checked.outcome.1.assurance = .none

/-- All that stands behind a verified outcome. -/
structure Accepted (config : ComparatorConfig) (host : HostFiles) (bundle : BundleDirectory)
    (docker : Docker) (request : VerificationRequest) (checked : CheckReply) : Prop where
  candidate : ByteHash.sha256 (Bytes.utf8 request.candidateSource) = request.candidateSha256
  reviewed : request.semanticReviewed = true ∧ request.definitionHoles = false
  answer : ∃ env output answer result, PinnedBundle config host bundle request env ∧
    docker.run = .exited 0 output ∧ Decoders.loads output = .value answer ∧
    DriverResult.validate answer = some result ∧ result.status = .verified ∧
    (result.targetDigest = request.targetDigest ∧
      result.challengeSha256 = request.challengeSha256 ∧
      result.environmentDigest = request.environmentDigest ∧
      result.candidateSha256 = request.candidateSha256) ∧
    (result.resourceProfileSha256 = config.qualification.resourceProfileSha256 ∧
      result.resourcePolicySha256 = config.qualification.resourcePolicySha256) ∧
    result.checkerVersions.Perm env.checkerVersions ∧
    (∀ name ∈ result.axioms, name ∈ allowedAxioms) ∧
    checked.outcome.1.axioms = result.axioms ∧
    (checked.outcome.1.assurance = .independentKernel ↔ result.independentKernel = true) ∧
    (checked.outcome.1.assurance = .independentKernel →
      config.qualification.independentKernel = true)
  publication : request.publication = true → checked.outcome.1.assurance = .independentKernel
  alive : ∃ state, containerState docker.inspect = .ok state ∧ state.oomKilled = false
  gone : Gone docker

/-- The verifier answers, and only a proof that every pin and observation supports is accepted. -/
def SoundlyAnswers (config : Option ComparatorConfig) (host : HostFiles) (bundle : BundleDirectory)
    (docker : Docker) (request : VerificationRequest) : Prop :=
  ∃ checked, verify config host bundle docker request = .ok checked ∧
    (Refused checked ∨ checked.outcome.1.status = .verified ∧
      ∃ settings, config = some settings ∧ Accepted settings host bundle docker request checked)

/-- The request gets as far as the container. -/
def ReachesRun (config : Option ComparatorConfig) (host : HostFiles) (bundle : BundleDirectory)
    (docker : Docker) (request : VerificationRequest) : Prop :=
  preflight request = none ∧ ∃ settings manifest env files, config = some settings ∧
    readBundle settings host bundle request = .ok (manifest, env, files) ∧
    publicationPreflight settings request env = none ∧ RunReady docker

section Replies

variable (request : CheckedRequest)

omit [ByteHash] [Decoders] in
theorem CheckedRequest.digests :
    [request.1.targetDigest, request.1.challengeSha256, request.1.candidateSha256,
      request.1.environmentDigest].all isSha256 = true := by
  have valid := request.2
  simp only [VerificationRequest.valid, Bool.and_eq_true, List.all_cons, List.all_nil,
    Bool.and_true] at valid
  simp [valid.1.2.1, valid.1.2.2.1, valid.1.2.2.2.1, valid.1.2.2.2.2]

omit [ByteHash] [Decoders] in
/-- An outcome without assurance is always constructed. -/
theorem refused_reply {status : VerificationStatus} (refused : status = .rejected ∨ status = .blocked)
    (code message remediation : String) (versions : List (String × String))
    (diagnostics : List (String × Json)) :
    ∃ checked, reply { request.1.outcome status code message remediation with
      checkerVersions := versions } diagnostics = .ok checked ∧ Refused checked := by
  have consistent : OutcomeData.Consistent { request.1.outcome status code message remediation with
      checkerVersions := versions } := by
    refine ⟨?_, CheckedRequest.digests request, ?_, ?_⟩ <;>
      rcases refused with rfl | rfl <;> simp [VerificationRequest.outcome]
  exact ⟨_, dif_pos consistent, refused, rfl⟩

omit [Decoders] in
theorem preflight_refused {failed : OutcomeData} (refused : preflight request.1 = some failed) :
    ∃ checked, reply failed [] = .ok checked ∧ Refused checked := by
  unfold preflight candidatePreflight at refused
  split at refused
  next found =>
    split at found
    · obtain rfl := Option.some.inj found
      obtain rfl := Option.some.inj refused
      exact refused_reply request (.inl rfl) _ _ _ [] []
    · exact nomatch found
  · split at refused
    · obtain rfl := Option.some.inj refused
      exact refused_reply request (.inr rfl) _ _ _ [] []
    · split at refused
      · obtain rfl := Option.some.inj refused
        exact refused_reply request (.inr rfl) _ _ _ [] []
      · exact nomatch refused

omit [Decoders] in
theorem preflight_passed {request : VerificationRequest} (passed : preflight request = none) :
    ByteHash.sha256 (Bytes.utf8 request.candidateSource) = request.candidateSha256 ∧
      request.semanticReviewed = true ∧ request.definitionHoles = false := by
  unfold preflight candidatePreflight at passed
  split at passed
  · exact nomatch passed
  next same =>
    split at same
    · exact nomatch same
    next matched =>
      split at passed
      · exact nomatch passed
      next reviewed =>
        split at passed
        · exact nomatch passed
        next holes =>
          exact ⟨Decidable.not_not.mp matched, by simpa using reviewed, by simpa using holes⟩

omit [ByteHash] [Decoders] in
theorem settleRaised_refused {raised : Raised} (caught : raised ≠ .recursion) :
    ∃ checked, settleRaised request.1 raised = .ok checked ∧ Refused checked := by
  cases raised with
  | recursion => exact absurd rfl caught
  | value message => exact refused_reply request (.inr rfl) _ _ _ [] _
  | execution code diagnostics => exact refused_reply request (.inr rfl) _ _ _ [] _

end Replies

/-- What raises no `RecursionError`. -/
def Caught {α : Type} (action : Except Raised α) : Prop := action ≠ .error .recursion

omit [ByteHash] [Decoders] in
theorem Caught.bind {α β : Type} {action : Except Raised α} {next : α → Except Raised β}
    (first : Caught action) (later : ∀ value, Caught (next value)) : Caught (action >>= next) := by
  cases action with
  | ok value => exact later value
  | error raised => exact fun same => first (congrArg Except.error (Except.error.inj same))

omit [ByteHash] [Decoders] in
theorem caught_require {condition : Prop} [Decidable condition] (message : String) :
    Caught (require condition (Raised.value message)) := by
  unfold Caught require
  split <;> exact nofun

omit [ByteHash] [Decoders] in
theorem caught_reply (data : OutcomeData) (diagnostics : List (String × Json)) :
    Caught (reply data diagnostics) := by
  unfold Caught reply
  split <;> exact nofun

omit [ByteHash] [Decoders] in
theorem reply_ok {data : OutcomeData} {diagnostics : List (String × Json)} {checked : CheckReply}
    (replied : reply data diagnostics = .ok checked) : checked.outcome.1 = data := by
  unfold reply at replied
  split at replied
  · rw [← Except.ok.inj replied]
  · exact nomatch replied

namespace DriverResult

variable {config : ComparatorConfig} {host : HostFiles} {request : VerificationRequest}
  {env : Environment} {result : DriverResult} {checked : CheckReply}

omit [Decoders] in
theorem agrees_caught : Caught (result.agrees config host request env) :=
  (caught_require _).bind fun _ => (caught_require _).bind fun _ => (caught_require _).bind fun _ =>
    (caught_require _).bind fun _ => (caught_require _).bind fun _ => caught_require _

omit [ByteHash] [Decoders] in
theorem verdict_caught : Caught (result.verdict config request) := by
  unfold verdict
  dsimp only
  split
  · exact caught_reply _ _
  split
  · exact caught_reply _ _
  split
  · exact caught_reply _ _
  split
  · exact nofun
  · exact caught_reply _ _

omit [ByteHash] [Decoders] in
/-- The last exit of the chain is the only one that accepts. -/
theorem verdict_ok (answered : result.verdict config request = .ok checked) :
    Refused checked ∨ checked.outcome.1.status = .verified ∧ result.status = .verified ∧
      (∀ name ∈ result.axioms, name ∈ allowedAxioms) ∧
      checked.outcome.1.axioms = result.axioms ∧
      (checked.outcome.1.assurance = .independentKernel ↔ result.independentKernel = true) ∧
      (request.publication = true → result.independentKernel = true) ∧
      (result.independentKernel = true → config.qualification.independentKernel = true) := by
  unfold verdict at answered
  dsimp only at answered
  split at answered
  · rw [Refused, reply_ok answered]
    exact .inl ⟨.inl rfl, rfl⟩
  next axioms =>
    split at answered
    next unverified =>
      have known := checked.outcome.2.1
      rw [reply_ok answered] at known
      rw [Refused, reply_ok answered]
      refine .inl ⟨?_, rfl⟩
      revert unverified known
      show result.status ≠ .verified → result.status ≠ .queued →
        result.status = .rejected ∨ result.status = .blocked
      cases result.status <;> simp
    next verified =>
      split at answered
      · rw [Refused, reply_ok answered]
        exact .inl ⟨.inr rfl, rfl⟩
      next published =>
        split at answered
        · exact nomatch answered
        next qualified =>
          rw [reply_ok answered]
          refine .inr ⟨rfl, Decidable.not_not.mp verified, Decidable.not_not.mp axioms, rfl, ?_, ?_, ?_⟩
          · cases result.independentKernel <;> simp
          · intro publication
            by_contra absent
            exact published ⟨publication, Bool.eq_false_of_not_eq_true absent⟩
          · intro independent
            by_contra absent
            exact qualified ⟨independent, Bool.eq_false_of_not_eq_true absent⟩

end DriverResult

section Checks

variable {config : ComparatorConfig} {host : HostFiles} {docker : Docker}
  {request : VerificationRequest} {env : Environment}

theorem checkAnswer_recursion :
    checkAnswer config host docker request env = .error .recursion ↔
      RunReady docker ∧ Escapes docker := by
  rw [← @runContainer_recursion _ _ config docker]
  unfold checkAnswer
  cases ran : runContainer config docker with
  | error raised => simp [bind, Except.bind]
  | ok answer =>
    have caught : Caught (orThrow (DriverResult.validate answer)
        (Raised.value "ValidationError: DriverResult") >>= fun result =>
        result.agrees config host request env >>= fun _ => result.verdict config request) := by
      refine Caught.bind ?_ fun result => DriverResult.agrees_caught.bind fun _ =>
        DriverResult.verdict_caught
      unfold Caught orThrow
      split <;> exact nofun
    exact ⟨fun same => absurd same caught, nofun⟩

/-- A verified answer has passed every check of the chain. -/
theorem checkAnswer_ok {bundle : BundleDirectory} {checked : CheckReply}
    (passed : preflight request = none) (pinned : PinnedBundle config host bundle request env)
    (answered : checkAnswer config host docker request env = .ok checked) :
    Refused checked ∨ checked.outcome.1.status = .verified ∧
      Accepted config host bundle docker request checked := by
  obtain ⟨annotated, ran, answered⟩ := bind_ok.mp answered
  obtain ⟨result, validated, answered⟩ := bind_ok.mp answered
  obtain ⟨_, agreed, answered⟩ := bind_ok.mp answered
  rcases DriverResult.verdict_ok answered with refused | ⟨status, verified, axioms, reported,
    independent, publication, qualified⟩
  · exact .inl refused
  obtain ⟨answer, state, cleanup, exited, inspected, gone, rfl⟩ :=
    supervise_ok (runContainer_ok ran)
  obtain ⟨alive, diagnostics, original⟩ := annotated_verified (orThrow_ok.mp validated) verified
  obtain ⟨output, zero, loaded⟩ := checkerAnswer_ok.mp exited
  obtain ⟨candidate, reviewed, holes⟩ := preflight_passed passed
  obtain ⟨_, target, agreed⟩ := bind_ok.mp agreed
  obtain ⟨_, challenge, agreed⟩ := bind_ok.mp agreed
  obtain ⟨_, environment, agreed⟩ := bind_ok.mp agreed
  obtain ⟨_, source, agreed⟩ := bind_ok.mp agreed
  obtain ⟨_, resources, versions⟩ := bind_ok.mp agreed
  obtain ⟨profile, policy⟩ := require_ok.mp resources
  refine .inr ⟨status, candidate, ⟨reviewed, holes⟩, ⟨env, output, answer, _, pinned, zero, loaded,
    original, verified, ⟨require_ok.mp target, require_ok.mp challenge, require_ok.mp environment,
      require_ok.mp source⟩, ⟨profile.trans pinned.resources.1, policy.trans pinned.policy⟩,
    require_ok.mp versions, axioms, reported, independent, fun high => ?_⟩, fun published => ?_,
    ⟨state, inspected, alive⟩, gone⟩
  · exact qualified (independent.mp high)
  · exact independent.mpr (publication published)

end Checks

/-- A text that nests too deep for the decoder is the only thing that the verifier does not turn into
an outcome. -/
theorem verify_escapes {config : Option ComparatorConfig} {host : HostFiles}
    {bundle : BundleDirectory} {docker : Docker} {request : VerificationRequest}
    (reaches : ReachesRun config host bundle docker request) (escapes : Escapes docker) :
    verify config host bundle docker request = .error .recursion := by
  obtain ⟨passed, settings, manifest, env, files, rfl, accepted, published, ready⟩ := reaches
  have raised := (@checkAnswer_recursion _ _ settings host docker request env).mpr ⟨ready, escapes⟩
  simp only [verify, passed, verifyPinned, accepted, published, raised, settleRaised]

/-- The verifier answers every request, and a verified outcome has every pin, digest and observation
behind it, unless a text that nests too deep for the decoder ends the run. -/
theorem verify_sound_iff (config : Option ComparatorConfig) (host : HostFiles)
    (bundle : BundleDirectory) (docker : Docker) (request : CheckedRequest) :
    SoundlyAnswers config host bundle docker request.1 ↔
      ¬ (ReachesRun config host bundle docker request.1 ∧ Escapes docker) := by
  constructor
  · rintro ⟨checked, answered, _⟩ ⟨reaches, escapes⟩
    rw [verify_escapes reaches escapes] at answered
    cases answered
  intro stays
  unfold SoundlyAnswers verify
  split
  next failed refused =>
    obtain ⟨checked, replied, nothing⟩ := preflight_refused request refused
    exact ⟨checked, replied, .inl nothing⟩
  next passed =>
    unfold verifyPinned
    split
    next =>
      obtain ⟨checked, replied, nothing⟩ := refused_reply request (.inr rfl) _ _ _ [] _
      exact ⟨checked, replied, .inl nothing⟩
    next settings =>
      split
      next message invalid =>
        obtain ⟨checked, replied, nothing⟩ := refused_reply request (.inr rfl) _ _ _ [] _
        exact ⟨checked, replied, .inl nothing⟩
      next manifest env files accepted =>
        split
        next failed missing =>
          unfold publicationPreflight at missing
          split at missing
          · obtain rfl := Option.some.inj missing
            obtain ⟨checked, replied, nothing⟩ := refused_reply request (.inr rfl) _ _ _ [] _
            exact ⟨checked, replied, .inl nothing⟩
          · cases missing
        next published =>
          split
          next checked answered =>
            rcases checkAnswer_ok passed (readBundle_ok accepted) answered with nothing | proved
            · exact ⟨checked, rfl, .inl nothing⟩
            · exact ⟨checked, rfl, .inr ⟨proved.1, settings, rfl, proved.2⟩⟩
          next raised failed =>
            have caught : raised ≠ .recursion := by
              rintro rfl
              obtain ⟨ready, escapes⟩ := checkAnswer_recursion.mp failed
              exact stays ⟨⟨passed, settings, manifest, env, files, rfl, accepted, published, ready⟩,
                escapes⟩
            obtain ⟨checked, replied, nothing⟩ := settleRaised_refused request caught
            exact ⟨checked, replied, .inl nothing⟩

end Verdicts

/-! ### A run whose answer nests too deep -/

namespace Scenario

/-- Sixty-four digits that tell the length of the content. -/
@[reducible] def lengthHash : ByteHash :=
  ⟨fun data => .ofList (List.replicate 64 (Nat.digitChar (data.length % 10)))⟩

/-- The recursion limit of the JSON scanner is 10,000. -/
@[reducible] def scanner : Decoders := @Decoders.plain .exact 10000

attribute [local instance] lengthHash scanner ByteHash.content

def lakefile : Bytes := Bytes.utf8 "name = \"Sample\""

def challenge : Bytes := Bytes.utf8 "theorem identity : True := sorry"

def candidate : String := "theorem identity : True := trivial"

/-- The text of an environment. -/
def environmentJson (env : Environment) : Json :=
  .obj [("image", .str env.image),
    ("checker_versions", .obj (env.checkerVersions.map fun item => (item.1, .str item.2))),
    ("files", .obj (env.files.map fun item => (item.1, .str item.2))),
    ("binaries", .obj (env.binaries.map fun item => (item.1, .str item.2)))]

def checkerEnvironment : Environment where
  image := .ofList ("sha256:".toList ++ (ByteHash.sha256 lakefile).toList)
  checkerVersions := [("lean", "4.28.0"), ("comparator", "1")]
  files := [("lakefile.toml", ByteHash.sha256 lakefile)]
  binaries := ["lean", "lake", "comparator", "lean4export", "landrun"].map fun name =>
    (name, ByteHash.sha256 lakefile)

def environmentFile : Bytes := Bytes.utf8 (Json.dumps {} (environmentJson checkerEnvironment))

def checkRequest : VerificationRequest where
  problemRevisionId := "problem"
  targetTheorem := "identity"
  targetDigest := ByteHash.sha256 challenge
  challengeSha256 := ByteHash.sha256 challenge
  environmentDigest := ByteHash.sha256 environmentFile
  candidateSha256 := ByteHash.sha256 (Bytes.utf8 candidate)
  candidateSource := candidate
  publication := false
  semanticReviewed := true
  definitionHoles := false

/-- The text of a manifest. -/
def manifestJson (manifest : Manifest) : Json :=
  .obj [("protocol", .str protocol), ("problem_revision_id", .str manifest.problemRevisionId),
    ("target_digest", .str manifest.targetDigest),
    ("challenge_sha256", .str manifest.challengeSha256),
    ("environment_digest", .str manifest.environmentDigest),
    ("theorem_names", .arr (manifest.theoremNames.map .str))]

def checkerManifest : Manifest where
  problemRevisionId := checkRequest.problemRevisionId
  targetDigest := checkRequest.targetDigest
  challengeSha256 := checkRequest.challengeSha256
  environmentDigest := checkRequest.environmentDigest
  theoremNames := [checkRequest.targetTheorem]

def manifestFile : Bytes := Bytes.utf8 (Json.dumps {} (manifestJson checkerManifest))

def checkerBundle : BundleDirectory where
  symlink := false
  directory := true
  entry path :=
    if path = ["manifest.json"] then some (.file manifestFile)
    else if path = ["Challenge.lean"] then some (.file challenge)
    else if path = ["environment.json"] then some (.file environmentFile)
    else if path = ["lakefile.toml"] then some (.file lakefile)
    else none

def checkerHost : HostFiles where
  driverDigest := ByteHash.sha256 []
  launcherDigest := ByteHash.sha256 []
  policyDigest := ByteHash.sha256 []

def checkerProfile : ResourceProfile where
  memoryBytes := 8 * 1024 ^ 3
  cpus := 4
  comparatorTimeoutSeconds := 600
  comparatorOutputLimitBytes := 256000
  checkerSlots := 1
  bounded := by decide

def checkerConfig : ComparatorConfig where
  manifestSha256 := ByteHash.sha256 manifestFile
  resources := checkerProfile
  resourceProfileSourceSha256 := ByteHash.sha256 []
  qualification := {
    imageDigest := checkerEnvironment.image
    driverSha256 := checkerHost.driverDigest
    launcherSha256 := checkerHost.launcherDigest
    seccompSha256 := seccompDigest
    resourceProfileSha256 := checkerProfile.sha256
    resourceProfileSourceSha256 := ByteHash.sha256 []
    resourcePolicySha256 := checkerHost.policyDigest
    independentKernel := false
    qualificationReportSha256 := ByteHash.sha256 [] }

/-- The container exits with zero and prints a hundred thousand opening brackets. -/
def deepRun : Docker where
  slot := .free
  executable := some "/usr/bin/docker"
  staging := none
  run := .exited 0 (List.replicate 100000 0x5B)
  inspect := .exited 1 []
  inspectAgain := .exited 1 []
  remove := .exited 0 []
  list := .exited 0 []
  teardown := none
  name := "physharness-check"

theorem lengthHash_hex (data : Bytes) : isSha256 (ByteHash.sha256 data) = true := by
  have digit : ∀ n : Fin 10, isHexDigit (Nat.digitChar n) = true := by decide
  have hex := digit ⟨data.length % 10, Nat.mod_lt _ (by decide)⟩
  show isSha256 (.ofList (List.replicate 64 (Nat.digitChar (data.length % 10)))) = true
  simp only [isSha256, String.length_ofList, String.toList_ofList, List.length_replicate,
    Bool.and_eq_true, decide_eq_true_eq, List.all_eq_true, true_and]
  intro c member
  rwa [List.eq_of_mem_replicate member]

theorem isImageDigest_hex {digest : Digest} (hex : isSha256 digest = true) :
    isImageDigest (.ofList ("sha256:".toList ++ digest.toList)) = true := by
  have head : "sha256:".toList = ['s', 'h', 'a', '2', '5', '6', ':'] := by decide
  simp only [isImageDigest, String.toList_ofList, head, List.cons_append, List.nil_append,
    List.take_succ_cons, List.take_zero, List.drop_succ_cons, List.drop_zero, String.ofList_toList,
    hex, decide_true, Bool.and_self]

theorem checkRequest_valid : checkRequest.valid = true := by
  simp only [VerificationRequest.valid, checkRequest, List.all_cons, List.all_nil, lengthHash_hex]
  decide

theorem checkRequest_passes : preflight checkRequest = none := by
  have same : ContentHash.sha256 candidate = ByteHash.sha256 (Bytes.utf8 candidate) := rfl
  simp [preflight, candidatePreflight, checkRequest, same]

theorem asSha256_hex {digest : Digest} (hex : isSha256 digest = true) :
    asSha256 (.str digest) = some digest := by
  simp [asSha256, asText, hex]

theorem asMap_map {read : Json → Option String} {items : List (String × String)}
    (reads : ∀ item ∈ items, read (.str item.2) = some item.2) :
    asMap read (.obj (items.map fun item => (item.1, .str item.2))) = some items := by
  show (items.map fun item => (item.1, Json.str item.2)).mapM _ = some items
  induction items with
  | nil => rfl
  | cons item items ih =>
    rw [List.map_cons, List.mapM_cons]
    simp only [reads item List.mem_cons_self,
      ih fun other member => reads other (List.mem_cons_of_mem _ member)]
    rfl

/-- A manifest reads back from its text. -/
theorem manifest_valid (manifest : Manifest)
    (hex : isSha256 manifest.targetDigest = true ∧ isSha256 manifest.challengeSha256 = true ∧
      isSha256 manifest.environmentDigest = true)
    (count : 1 ≤ manifest.theoremNames.length ∧ manifest.theoremNames.length ≤ 128) :
    Manifest.validate (manifestJson manifest) = some manifest := by
  have theorems : asList asText (.arr (manifest.theoremNames.map .str)) =
      some manifest.theoremNames := by
    show (manifest.theoremNames.map Json.str).mapM asText = _
    induction manifest.theoremNames with
    | nil => rfl
    | cons name names ih => simp [asText, ih]
  simp [Manifest.validate, manifestJson, asFields, named, field, Dict.get, asText, theorems, count,
    asSha256_hex hex.1, asSha256_hex hex.2.1, asSha256_hex hex.2.2, guard]

/-- An environment reads back from its text. -/
theorem environment_valid (env : Environment) (image : isImageDigest env.image = true)
    (files : ∀ item ∈ env.files, isSha256 item.2 = true)
    (binaries : ∀ item ∈ env.binaries, isSha256 item.2 = true) :
    Environment.validate (environmentJson env) = some env := by
  have versions := @asMap_map asText env.checkerVersions fun _ _ => rfl
  have pinnedFiles := @asMap_map asSha256 env.files fun item member =>
    asSha256_hex (files item member)
  have pinnedBinaries := @asMap_map asSha256 env.binaries fun item member =>
    asSha256_hex (binaries item member)
  have digest : asImageDigest (.str env.image) = some env.image := by
    simp [asImageDigest, asText, image]
  simp [Environment.validate, environmentJson, asFields, named, field, Dict.get, versions,
    pinnedFiles, pinnedBinaries, digest]

theorem lengthHash_length (data : Bytes) : (ByteHash.sha256 data).length = 64 := by
  show (String.ofList (List.replicate 64 (Nat.digitChar (data.length % 10)))).length = 64
  rw [String.length_ofList, List.length_replicate]

/-- An environment of a few short names and digests is a small file. -/
theorem environmentJson_small {env : Environment} (image : env.image.length ≤ 80)
    (few : env.checkerVersions.length ≤ 5 ∧ env.files.length ≤ 5 ∧ env.binaries.length ≤ 5)
    (short : ∀ items ∈ [env.checkerVersions, env.files, env.binaries], ∀ item ∈ items,
      item.1.length ≤ 20 ∧ item.2.length ≤ 80) :
    (Bytes.utf8 (Json.dumps {} (environmentJson env))).length ≤ 16000000 := by
  have part : ∀ items ∈ [env.checkerVersions, env.files, env.binaries], items.length ≤ 5 →
      Json.size (.obj (items.map fun item => (item.1, .str item.2))) ≤ 4000 := by
    intro items member count
    have bound := @Json.size_texts_le items 700 fun item inside => by
      have each := short items member item inside
      omega
    omega
  have versions : Json.size (.obj (env.checkerVersions.map fun item => (item.1, .str item.2))) ≤
      4000 := part _ (by simp) few.1
  have files : Json.size (.obj (env.files.map fun item => (item.1, .str item.2))) ≤ 4000 :=
    part _ (by simp) few.2.1
  have binaries : Json.size (.obj (env.binaries.map fun item => (item.1, .str item.2))) ≤ 4000 :=
    part _ (by simp) few.2.2
  have label := Json.size_str_le env.image
  have names : "image".length = 5 ∧ "checker_versions".length = 16 ∧ "files".length = 5 ∧
      "binaries".length = 8 := by decide
  have whole : Json.size (environmentJson env) ≤ 4 * 5000 + 2 := by
    refine Json.size_obj_le fun field member => ?_
    have bound := Json.fieldBytes_le field.1 field.2
    simp only [List.mem_cons, List.not_mem_nil, or_false] at member
    rcases member with rfl | rfl | rfl | rfl <;> simp only at bound ⊢ <;> omega
  rw [Json.length_utf8_dumps]
  exact whole.trans (by decide)

/-- A manifest of short names and digests is a small file. -/
theorem manifestJson_small {manifest : Manifest} {name : String} (one : manifest.theoremNames = [name])
    (short : ∀ text ∈ [manifest.problemRevisionId, manifest.targetDigest, manifest.challengeSha256,
      manifest.environmentDigest, name], text.length ≤ 80) :
    (Bytes.utf8 (Json.dumps {} (manifestJson manifest))).length ≤ 16000000 := by
  simp only [List.forall_mem_cons] at short
  obtain ⟨problem, target, challenge, environment, theoremName, -⟩ := short
  have names : "protocol".length = 8 ∧ "problem_revision_id".length = 19 ∧
      "target_digest".length = 13 ∧ "challenge_sha256".length = 16 ∧
      "environment_digest".length = 18 ∧ "theorem_names".length = 13 ∧ protocol.length ≤ 80 := by
    decide
  have single : Json.size (.arr (manifest.theoremNames.map .str)) ≤ 6 * name.length + 4 := by
    have text := Json.size_str_le name
    rw [one, List.map_singleton, Json.size_singleton]
    omega
  have whole : Json.size (manifestJson manifest) ≤ 6 * 1000 + 2 := by
    refine Json.size_obj_le fun field member => ?_
    have bound := Json.fieldBytes_le field.1 field.2
    have text := fun value => Json.size_str_le value
    simp only [List.mem_cons, List.not_mem_nil, or_false] at member
    rcases member with rfl | rfl | rfl | rfl | rfl | rfl <;> simp only at bound ⊢
    · have := text protocol
      omega
    · have := text manifest.problemRevisionId
      omega
    · have := text manifest.targetDigest
      omega
    · have := text manifest.challengeSha256
      omega
    · have := text manifest.environmentDigest
      omega
    · omega
  rw [Json.length_utf8_dumps]
  exact whole.trans (by decide)

theorem checkerImage_length : checkerEnvironment.image.length ≤ 80 := by
  have head : "sha256:".toList.length = 7 := by decide
  have digits := lengthHash_length lakefile
  rw [← String.length_toList] at digits
  show (String.ofList _).length ≤ 80
  rw [String.length_ofList, List.length_append, head, digits]
  decide

theorem environmentFile_small : environmentFile.length ≤ 16000000 := by
  have names : "lean".length = 4 ∧ "4.28.0".length = 6 ∧ "comparator".length = 10 ∧
      "1".length = 1 ∧ "lakefile.toml".length = 13 ∧ "lake".length = 4 ∧
      "lean4export".length = 11 ∧ "landrun".length = 7 := by decide
  rw [environmentFile]
  apply environmentJson_small checkerImage_length
  · exact ⟨Nat.le_of_ble_eq_true rfl, Nat.le_of_ble_eq_true rfl, Nat.le_of_ble_eq_true rfl⟩
  · have width := lengthHash_length lakefile
    unfold checkerEnvironment
    generalize ByteHash.sha256 lakefile = digest at width
    simp only [List.map_cons, List.map_nil, List.forall_mem_cons, width, names]
    simp

theorem environment_read : safeRead checkerBundle "environment.json" = .ok environmentFile :=
  safeRead_file (by decide) (by decide) (by simp [checkerBundle])
    environmentFile_small

theorem manifest_read : safeRead checkerBundle "manifest.json" = .ok manifestFile := by
  refine safeRead_file (by decide) (by decide) (by simp [checkerBundle])
    (manifestJson_small rfl ?_)
  simp only [checkerManifest, checkRequest, List.forall_mem_cons, lengthHash_length]
  decide

theorem challenge_read : safeRead checkerBundle "Challenge.lean" = .ok challenge :=
  safeRead_file (by decide) (by decide) (by simp [checkerBundle]) (by decide)

theorem lakefile_read : safeRead checkerBundle "lakefile.toml" = .ok lakefile :=
  safeRead_file (by decide) (by decide) (by simp [checkerBundle]) (by decide)

def checkerFiles : List (String × Bytes) :=
  [("Challenge.lean", challenge), ("environment.json", environmentFile),
    ("manifest.json", manifestFile), ("lakefile.toml", lakefile)]

theorem checkerFiles_added : addFiles checkerBundle checkerEnvironment.files
    [("Challenge.lean", challenge), ("environment.json", environmentFile),
      ("manifest.json", manifestFile)] = .ok checkerFiles := by
  have free : reservedFile "lakefile.toml" = false := by decide
  refine bind_ok.mpr ⟨(), require_ok.mpr ⟨by simp, free⟩, ?_⟩
  refine bind_ok.mpr ⟨lakefile, lakefile_read, ?_⟩
  exact bind_ok.mpr ⟨(), require_ok.mpr rfl, rfl⟩

theorem manifest_accepted :
    (Decoders.read manifestFile).bind Manifest.validate = some checkerManifest := by
  have text : Decoders.read manifestFile = some (manifestJson checkerManifest) :=
    @Decoders.plain_read .exact 10000 {} _
  rw [text, Option.bind_some]
  exact manifest_valid checkerManifest
    ⟨lengthHash_hex challenge, lengthHash_hex challenge, lengthHash_hex environmentFile⟩ (by decide)

theorem environment_accepted :
    (Decoders.read environmentFile).bind Environment.validate = some checkerEnvironment := by
  have text : Decoders.read environmentFile = some (environmentJson checkerEnvironment) :=
    @Decoders.plain_read .exact 10000 {} _
  rw [text, Option.bind_some]
  refine environment_valid checkerEnvironment (isImageDigest_hex (lengthHash_hex lakefile)) ?_ ?_
  · intro item member
    rw [List.mem_singleton.mp member]
    exact lengthHash_hex lakefile
  · intro item member
    obtain ⟨name, _, rfl⟩ := List.mem_map.mp member
    exact lengthHash_hex lakefile

theorem bundle_accepted : readBundle checkerConfig checkerHost checkerBundle checkRequest =
    .ok (checkerManifest, checkerEnvironment, checkerFiles) := by
  refine bind_ok.mpr ⟨(), require_ok.mpr (by simp only [checkerConfig, and_self]), ?_⟩
  refine bind_ok.mpr ⟨(), require_ok.mpr rfl, ?_⟩
  refine bind_ok.mpr ⟨(), require_ok.mpr ⟨rfl, rfl⟩, ?_⟩
  refine bind_ok.mpr ⟨_, manifest_read, ?_⟩
  refine bind_ok.mpr ⟨(), require_ok.mpr rfl, ?_⟩
  refine bind_ok.mpr ⟨_, orThrow_ok.mpr manifest_accepted, ?_⟩
  refine bind_ok.mpr ⟨(), require_ok.mpr rfl, ?_⟩
  refine bind_ok.mpr ⟨(), require_ok.mpr ⟨rfl, rfl, rfl, rfl⟩, ?_⟩
  refine bind_ok.mpr ⟨_, challenge_read, ?_⟩
  refine bind_ok.mpr ⟨_, environment_read, ?_⟩
  refine bind_ok.mpr ⟨(), require_ok.mpr ⟨rfl, rfl⟩, ?_⟩
  refine bind_ok.mpr ⟨_, orThrow_ok.mpr environment_accepted, ?_⟩
  refine bind_ok.mpr ⟨(), require_ok.mpr rfl, ?_⟩
  refine bind_ok.mpr ⟨(), require_ok.mpr rfl, ?_⟩
  refine bind_ok.mpr ⟨(), require_ok.mpr rfl, ?_⟩
  refine bind_ok.mpr ⟨(), require_ok.mpr rfl, ?_⟩
  refine bind_ok.mpr ⟨(), require_ok.mpr (by decide), ?_⟩
  refine bind_ok.mpr ⟨(), require_ok.mpr (by decide), ?_⟩
  refine bind_ok.mpr ⟨_, checkerFiles_added, ?_⟩
  exact bind_ok.mpr ⟨(), require_ok.mpr (by decide), rfl⟩

theorem deepRun_escapes : RunReady deepRun ∧ Escapes deepRun := by
  refine ⟨⟨rfl, by decide, rfl, rfl⟩, .inl ⟨⟨_, rfl, ?_⟩, .inr (.inl ⟨[], rfl⟩)⟩⟩
  exact @Decoders.plain_brackets .exact 10000 100000 (by decide)

/-- A `RecursionError` of the JSON scanner leaves the verifier instead of a blocked outcome. -/
theorem deep_answer_unanswered :
    ¬ SoundlyAnswers (some checkerConfig) checkerHost checkerBundle deepRun
      (⟨checkRequest, checkRequest_valid⟩ : CheckedRequest).1 := by
  rintro ⟨checked, answered, _⟩
  rw [verify_escapes ⟨checkRequest_passes, checkerConfig, checkerManifest, checkerEnvironment,
    checkerFiles, rfl, bundle_accepted, rfl, deepRun_escapes.1⟩ deepRun_escapes.2] at answered
  exact nomatch answered

end Scenario

end PhysHarness
