import PhysHarness.Acceptance
import PhysHarness.Execution.Checkpoint
import PhysHarness.Lib.Python

/-!
A read-only snapshot of canonical records, and the judge of a receipt over it. The records are
dictionaries, so each look at a field may fail; the judge turns the failures that it expects into a
refusal. A valid receipt names the problem that it was judged for.
-/
namespace PhysHarness

open Outcome Python

/-- Why a receipt is not valid: the judge's own words, or the exception of a malformed record. -/
inductive EvidenceReason where
  | stated (text : String)
  | missingRecord (identifier : Json)
  | keyError (key : String)
  | typeError
  | validationError
  deriving DecidableEq

/-- How a look at the records ends early; `crashed` is an exception that the judge does not expect. -/
inductive EvidenceStop where
  | refused (reason : EvidenceReason)
  | crashed
  deriving DecidableEq

structure EvidenceValidation where
  artifactId : Option String
  candidateSha256 : Option Digest
  reviewId : Option String
  deriving DecidableEq

inductive EvidenceVerdict where
  | valid (validation : EvidenceValidation)
  | invalid (reason : EvidenceReason)
  deriving DecidableEq

section

variable [FloatValue]

/-- The records by their id: no id is missing, and no two are equal. -/
structure CanonicalEvidence where
  records : List Record
  named : ∀ record ∈ records, truthy (lookup record "id") = true
  distinct : records.Pairwise fun first second =>
    same (lookup first "id") (lookup second "id") = false

namespace CanonicalEvidence

def refusal (text : String) : EvidenceStop := .refused (.stated text)

/-- `record[key]` -/
def item (record : Record) (key : String) : Except EvidenceStop Json :=
  orThrow (Dict.get record key) (.refused (.keyError key))

/-- `if record[key] != value: raise` -/
def agrees (record : Record) (key : String) (value : Json) (text : String) : Except EvidenceStop Unit :=
  item record key >>= fun found => require (same found value = true) (refusal text)

theorem agrees_ok {record : Record} {key text : String} {value : Json} {u : Unit} :
    agrees record key value text = .ok u ↔ ∃ found, Dict.get record key = some found ∧ same found value = true := by
  simp [agrees, item, bind_ok]

def record (evidence : CanonicalEvidence) (identifier : Json) : Except EvidenceStop Record := do
  require (key identifier).isSome (.refused .typeError)
  orThrow (evidence.records.find? fun record => same (lookup record "id") identifier)
    (.refused (.missingRecord identifier))

/-- One of the texts of a `Literal`. -/
def literal {α : Type} (texts : List (String × α)) (value : Json) : Option α :=
  asText value >>= fun text => texts.lookup text

def readStatus : Json → Option VerificationStatus :=
  literal [("verified", .verified), ("rejected", .rejected), ("blocked", .blocked)]

def readAssurance : Json → Option Assurance :=
  literal [("none", .none), ("kernel", .kernel), ("independent_kernel", .independentKernel)]

/-- A field that may be left out. -/
def optionalField {α : Type} (fields : Record) (key : String) (default : α) (read : Json → Option α) :
    Option α :=
  match Dict.get fields key with
  | none => some default
  | some value => read value

/-- `VerificationOutcome.model_validate` of the fields of the model that a receipt has. -/
def readOutcome (receipt : Record) : Option VerificationOutcome := do
  let status ← field receipt "status" readStatus
  let assurance ← field receipt "assurance" readAssurance
  let code ← field receipt "code" asText
  let message ← field receipt "message" asText
  let remediation ← field receipt "remediation" asText
  let targetDigest ← field receipt "target_digest" asText
  let challengeSha256 ← field receipt "challenge_sha256" asText
  let candidateSha256 ← field receipt "candidate_sha256" asText
  let environmentDigest ← field receipt "environment_digest" asText
  let axioms ← optionalField receipt "axioms" [] fun value =>
    asItems value >>= fun items => items.mapM asText
  let checkerVersions ← optionalField receipt "checker_versions" [] fun value =>
    asFields value >>= fun fields => fields.mapM fun (name, version) =>
      (asText version).map fun version => (name, version)
  let _ ← optionalField receipt "diagnostics" [] asFields
  let data : OutcomeData :=
    { status, assurance, code, message, remediation, targetDigest, challengeSha256, candidateSha256,
      environmentDigest, axioms, checkerVersions }
  if consistent : data.Consistent then some ⟨data, consistent⟩ else none

variable [ContentHash]

/-- The semantic review approves the exact target. -/
def checkReview (problem receipt review : Record) (problemId : String) : Except EvidenceStop Unit := do
  let text := "semantic review does not approve the exact target"
  agrees review "kind" (.str "review") text
  agrees review "decision" (.str "approved") text
  agrees review "scope" (.str "target") text
  agrees review "problem_id" (.str problemId) text
  let digest ← item review "target_digest"
  agrees problem "target_digest" digest text
  let id ← item review "id"
  require (same (lookup receipt "review_id") id = true) (refusal text)
  require (truthy (lookup review "reviewed_by") = true) (refusal text)

/-- The receipt checked the source and the theorem of the problem. -/
def checkChallenge (problem receipt : Record) : Except EvidenceStop Unit := do
  let statement ← item problem "formal_statement"
  let source ← orThrow (asText statement) .crashed
  require (same (lookup receipt "challenge_sha256") (.str (ContentHash.sha256 source)) = true)
    (refusal "receipt challenge source mismatch")
  let theoremName ← item problem "target_theorem"
  require (same (lookup receipt "target_theorem") theoremName = true)
    (refusal "receipt selected theorem mismatch")

/-- A pinned digest is the problem's, and the expected one when there is one. -/
def checkPinned (problem receipt : Record) (field : String) (expected : Option Digest) :
    Except EvidenceStop Unit := do
  let text := "receipt " ++ field ++ " mismatch"
  let pinned ← item receipt field
  agrees problem field pinned text
  require (∀ digest ∈ expected, digest ≠ "" → same pinned (.str digest) = true) (refusal text)

def checkArtifact (receipt artifact : Record) : Except EvidenceStop Unit := do
  let text := "receipt artifact identity mismatch"
  agrees artifact "kind" (.str "artifact") text
  require (same (lookup artifact "artifact_kind") (.str "lean_source") = true) (refusal text)
  let sha256 ← item artifact "sha256"
  agrees receipt "candidate_sha256" sha256 text
  let experiment ← item artifact "experiment_id"
  agrees receipt "experiment_id" experiment text

def checkOutcome (receipt : Record) : Except EvidenceStop Unit := do
  let outcome ← orThrow (readOutcome receipt) (.refused .validationError)
  require (outcome.1.status = .verified) (refusal "receipt is not verified")
  require (truthy (lookup receipt "publication") = true → outcome.1.assurance = .independentKernel)
    (refusal "publication receipt lacks independent kernel")

/-- The body of `validate`: the first check that fails ends it. -/
def judge (evidence : CanonicalEvidence) (problemId receiptId : String)
    (targetDigest environmentDigest experimentId : Option String) :
    Except EvidenceStop EvidenceValidation := do
  let problem ← evidence.record (.str problemId)
  let receipt ← evidence.record (.str receiptId)
  agrees problem "kind" (.str "problem") "wrong canonical record kind"
  agrees receipt "kind" (.str "verification") "wrong canonical record kind"
  agrees receipt "problem_revision_id" (.str problemId) "receipt belongs to another target revision"
  require (same (lookup problem "semantic_review") (.str "approved") = true ∧
      truthy ((Dict.get problem "definition_holes").getD (.bool true)) = false)
    (refusal "target meaning/definitions are not approved")
  let reviewId ← item problem "review_id"
  let review ← evidence.record reviewId
  checkReview problem receipt review problemId
  checkChallenge problem receipt
  checkPinned problem receipt "target_digest" targetDigest
  checkPinned problem receipt "environment_digest" environmentDigest
  let artifactId ← item receipt "artifact_id"
  let artifact ← evidence.record artifactId
  checkArtifact receipt artifact
  require (∀ experiment ∈ experimentId, experiment ≠ "" →
      same (lookup receipt "experiment_id") (.str experiment) = true)
    (refusal "receipt belongs to another experiment")
  let project ← item problem "project_id"
  forEach (fun row => agrees row "project_id" project "cross-project evidence is forbidden")
    [receipt, artifact, review]
  checkOutcome receipt
  let artifactId ← orThrow (orNull asText (lookup artifact "id")) (.refused .validationError)
  let candidateSha256 ← orThrow (orNull asText (lookup artifact "sha256")) (.refused .validationError)
  let reviewId ← orThrow (orNull asText (lookup review "id")) (.refused .validationError)
  return { artifactId, candidateSha256, reviewId }

/-- What `validate` returns; none when it raises. -/
def validate (evidence : CanonicalEvidence) (problemId receiptId : String)
    (targetDigest environmentDigest experimentId : Option String := none) : Option EvidenceVerdict :=
  match evidence.judge problemId receiptId targetDigest environmentDigest experimentId with
  | .ok validation => some (.valid validation)
  | .error (.refused reason) => some (.invalid reason)
  | .error .crashed => none

theorem validate_ok {evidence : CanonicalEvidence} {problemId receiptId : String}
    {targetDigest environmentDigest experimentId : Option String} {validation : EvidenceValidation}
    (valid : evidence.validate problemId receiptId targetDigest environmentDigest experimentId =
      some (.valid validation)) :
    evidence.judge problemId receiptId targetDigest environmentDigest experimentId =
      .ok validation := by
  unfold validate at valid
  split at valid
  next found judged =>
    obtain rfl := EvidenceVerdict.valid.inj (Option.some.inj valid)
    exact judged
  · cases Option.some.inj valid
  · cases valid

/-- A valid receipt is stored under its id and names its problem. -/
theorem validate_valid {evidence : CanonicalEvidence} {problemId receiptId : String}
    {targetDigest environmentDigest experimentId : Option String} {validation : EvidenceValidation}
    (valid : evidence.validate problemId receiptId targetDigest environmentDigest experimentId =
      some (.valid validation)) :
    ∃ receipt, evidence.record (.str receiptId) = .ok receipt ∧
      Dict.get receipt "problem_revision_id" = some (.str problemId) := by
  have judged := validate_ok valid
  simp only [judge, bind_ok, agrees_ok, exists_const] at judged
  obtain ⟨_, -, receipt, stored, -, -, ⟨own, named, equal⟩, -⟩ := judged
  obtain rfl := eq_of_same_str equal
  exact ⟨receipt, stored, named⟩

/-- The proof of a valid receipt is the one that the receipt names. -/
theorem validate_candidate {evidence : CanonicalEvidence} {problemId receiptId : String}
    {targetDigest environmentDigest experimentId : Option String} {validation : EvidenceValidation}
    {sha256 : Digest}
    (valid : evidence.validate problemId receiptId targetDigest environmentDigest experimentId =
      some (.valid validation)) (candidate : validation.candidateSha256 = some sha256) :
    ∃ receipt, evidence.record (.str receiptId) = .ok receipt ∧
      Dict.get receipt "candidate_sha256" = some (.str sha256) := by
  have judged := validate_ok valid
  simp only [judge, checkArtifact, item, bind_ok, orThrow_ok, require_ok, agrees_ok, exists_const,
    pure_ok] at judged
  obtain ⟨_, -, receipt, stored, -, -, -, -, _, -, _, -, _, -, _, -, _, -, _, -, _, -, artifact, -,
    ⟨-, -, own, there, ⟨named, pinned, equal⟩, -⟩, -, _, -, _, -, _, -, _, -, _, read, _, -, rfl⟩ :=
    judged
  refine ⟨receipt, stored, ?_⟩
  rw [lookup, there, Option.getD_some] at read
  -- the artifact's digest is a text, so the receipt's equal one is the same text
  obtain rfl : own = .str sha256 := by
    cases own with
    | str text =>
      obtain rfl := Option.some.inj read
      rw [Option.some.inj candidate]
    | null =>
      obtain rfl := Option.some.inj read
      cases candidate
    | _ => cases read
  rw [pinned, eq_of_same_str equal]

/-- No record has an empty id. -/
theorem valid_nonempty {evidence : CanonicalEvidence} {problemId receiptId : String}
    {targetDigest environmentDigest experimentId : Option String} {validation : EvidenceValidation}
    (valid : evidence.validate problemId receiptId targetDigest environmentDigest experimentId =
      some (.valid validation)) : receiptId ≠ "" := by
  rintro rfl
  obtain ⟨receipt, stored, -⟩ := validate_valid valid
  simp only [record, bind_ok, require_ok, orThrow_ok, exists_const] at stored
  have named := evidence.named receipt (List.mem_of_find?_eq_some stored.2)
  have equal : same (lookup receipt "id") (.str "") = true := by simpa using List.find?_some stored.2
  have empty : key (lookup receipt "id") = some (.text "") := (same_iff_of_key rfl _).mp equal
  cases id : lookup receipt "id" with
  | str text =>
    rw [id] at empty named
    obtain rfl := Key.text.inj (Option.some.inj empty)
    simp [truthy] at named
  | _ =>
    rw [id] at empty
    cases empty

/-- No receipt is valid for two problems. -/
theorem validate_problem {evidence : CanonicalEvidence} {first second receiptId : String}
    {target target' environment environment' experiment experiment' : Option String}
    {validation validation' : EvidenceValidation}
    (valid : evidence.validate first receiptId target environment experiment = some (.valid validation))
    (also : evidence.validate second receiptId target' environment' experiment' =
      some (.valid validation')) : first = second := by
  obtain ⟨receipt, stored, named⟩ := validate_valid valid
  obtain ⟨_, again, other⟩ := validate_valid also
  obtain rfl := Except.ok.inj (stored.symm.trans again)
  exact Json.str.inj (Option.some.inj (named.symm.trans other))

end CanonicalEvidence

end

end PhysHarness
