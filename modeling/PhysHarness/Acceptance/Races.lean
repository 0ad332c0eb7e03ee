import PhysHarness.Acceptance.Interleaving
import PhysHarness.System

/-!
# Acceptance under races

Every step of a call writes one change: a new record, a review with the problem it decides, a
queued receipt, or the outcome of a receipt that was still queued. What a call has read stays true
of the database, up to the revision it compares and the problem it locks.

## Main result

`acceptance_race_safe`: a receipt becomes verified only while the problem is approved and still the
revision that the receipt pins; a settled receipt is final; each verified claim and its receipt name
each other; and a later review revokes every receipt that is pinned to an earlier one.
-/
namespace PhysHarness

open Outcome

/-! ### What a transaction writes -/

/-- The reviewed target and the evidence that a receipt pins. -/
def Verification.pins (receipt : Verification) :
    Id × Id × Digest × Digest × Option Id × String × Id × Digest × Digest × Bool :=
  (receipt.experimentId, receipt.problemRevisionId, receipt.targetDigest, receipt.challengeSha256,
    receipt.reviewId, receipt.targetTheorem, receipt.artifactId, receipt.candidateSha256,
    receipt.environmentDigest, receipt.publication)

/-- The stored artifact of a receipt has the pinned bytes. -/
def EvidenceKept (db : Db) (receipt : Verification) : Prop :=
  ∃ artifact, db.artifacts.find receipt.artifactId = some artifact ∧
    artifact.payload.sha256 = receipt.candidateSha256

section Changes

variable [ContentHash]

/-- The problem is approved and still the revision that the receipt pins. -/
def TargetApproved (db : Db) (receipt : Verification) : Prop :=
  ∃ problem, db.problems.find receipt.problemRevisionId = some problem ∧
    problem.payload.semanticReview = .approved ∧
    problem.payload.reviewId = receipt.reviewId ∧
    problem.payload.targetTheorem = receipt.targetTheorem ∧
    problem.payload.targetDigest = receipt.targetDigest ∧
    problem.payload.environmentDigest = receipt.environmentDigest ∧
    ContentHash.sha256 problem.payload.formalStatement = receipt.challengeSha256

/-- What one step writes to the problems, their reviews, the artifacts, the receipts and the
claims. -/
inductive AcceptanceChange (db : Db) : Db → Prop
  | quiet {experiments commands} : AcceptanceChange db { db with experiments, commands }
  | problem {id row} (fresh : db.problems.find id = none)
      (unreviewed : row.payload.reviewId = none) :
      AcceptanceChange db { db with problems := db.problems.put id row }
  | artifact {id row} (fresh : db.artifacts.find id = none) :
      AcceptanceChange db { db with artifacts := db.artifacts.put id row }
  | claim {id row} (fresh : db.claims.find id = none)
      (unproved : row.payload.proofStatus = .unproved) :
      AcceptanceChange db { db with claims := db.claims.put id row }
  | reviewed {problemId row reviewId} (review : Row Review)
      (stored : db.problems.find problemId = some row) (fresh : db.reviews.find reviewId = none)
      (names : review.payload.problemId = problemId) :
      AcceptanceChange db { db with
        reviews := db.reviews.put reviewId review
        problems := db.problems.put problemId (row.replace { row.payload with
          semanticReview := review.payload.decision, reviewId := some reviewId }) }
  | queued {id row} (fresh : db.verifications.find id = none)
      (status : row.payload.status = .queued) (evidence : EvidenceKept db row.payload) :
      AcceptanceChange db { db with verifications := db.verifications.put id row }
  | refused {id row result commands} (stored : db.verifications.find id = some row)
      (queued : row.payload.status = .queued)
      (pins : (row.payload.resolved result).pins = row.payload.pins)
      (settled : result.status ≠ .queued) (unverified : result.status ≠ .verified) :
      AcceptanceChange db { db with
        verifications := db.verifications.put id (row.replace (row.payload.resolved result))
        commands }
  | verified {id row result claimId claim commands} (stored : db.verifications.find id = some row)
      (queued : row.payload.status = .queued)
      (pins : (row.payload.resolved result).pins = row.payload.pins)
      (status : result.status = .verified) (target : TargetApproved db row.payload)
      (fresh : db.claims.find claimId = none) (names : claim.payload.verificationId = id) :
      AcceptanceChange db { db with
        verifications := db.verifications.put id ((row.replace (row.payload.resolved result)).replace
          { row.payload.resolved result with claimId := some claimId })
        claims := db.claims.put claimId claim
        commands }

/-- Each problem's review is the one its record names, receipts have their evidence, and verified
claims are linked both ways. -/
structure AcceptanceInv (db : Db) : Prop where
  reviews : ∀ problemId problem, db.problems.find problemId = some problem →
    ∀ reviewId ∈ problem.payload.reviewId, ∃ review, db.reviews.find reviewId = some review ∧
      review.payload.problemId = problemId ∧
      review.payload.decision = problem.payload.semanticReview
  evidence : ∀ id row, db.verifications.find id = some row → EvidenceKept db row.payload
  claims : ∀ id claim, db.claims.find id = some claim → claim.payload.proofStatus = .verified →
    ∃ receipt, db.verifications.find claim.payload.verificationId = some receipt ∧
      receipt.payload.status = .verified ∧ receipt.payload.claimId = some id

variable {db after : Db}

omit [ContentHash] in
theorem find_put_fresh {α : Type} {table : Table Id α} {id other : Id} {row old : α}
    (fresh : table.find id = none) (stored : table.find other = some old) :
    (table.put id row).find other = some old := by
  rw [Table.find_put_ne, stored]
  rintro rfl
  exact nomatch fresh.symm.trans stored

/-- Reviews and artifacts are never rewritten. -/
theorem AcceptanceChange.review_kept (change : AcceptanceChange db after) {id : Id}
    {review : Row Review} (stored : db.reviews.find id = some review) :
    after.reviews.find id = some review := by
  cases change with
  | reviewed _ _ fresh => exact find_put_fresh fresh stored
  | _ => exact stored

theorem AcceptanceChange.evidence_kept (change : AcceptanceChange db after)
    {receipt : Verification} (kept : EvidenceKept db receipt) : EvidenceKept after receipt := by
  obtain ⟨artifact, stored, same⟩ := kept
  refine ⟨artifact, ?_, same⟩
  cases change with
  | artifact fresh => exact find_put_fresh fresh stored
  | _ => exact stored

/-- A receipt keeps its pins, and its status once it left the queue. -/
theorem AcceptanceChange.receipt_kept (change : AcceptanceChange db after) {id : Id}
    {row : Row Verification} (stored : db.verifications.find id = some row) :
    ∃ now, after.verifications.find id = some now ∧ now.payload.pins = row.payload.pins ∧
      row.revision ≤ now.revision ∧ (row.revision = now.revision → now = row) ∧
      (row.payload.status ≠ .queued → now = row) := by
  cases change with
  | queued fresh => exact ⟨row, find_put_fresh fresh stored, rfl, le_rfl, fun _ => rfl, fun _ => rfl⟩
  | @refused other old _ _ present queued pins =>
    rw [Table.find_put]
    split
    next same =>
      subst same
      obtain rfl := Option.some.inj (present.symm.trans stored)
      refine ⟨_, rfl, pins, Nat.le_succ _, fun same => ?_, fun settled => absurd queued settled⟩
      exact absurd same (Nat.succ_ne_self _).symm
    · exact ⟨row, stored, rfl, le_rfl, fun _ => rfl, fun _ => rfl⟩
  | @verified other old _ _ _ _ present queued pins =>
    rw [Table.find_put]
    split
    next same =>
      subst same
      obtain rfl := Option.some.inj (present.symm.trans stored)
      have later : old.revision < old.revision + 1 + 1 := by omega
      refine ⟨_, rfl, pins, later.le, fun same => ?_, fun settled => absurd queued settled⟩
      exact absurd same later.ne
    · exact ⟨row, stored, rfl, le_rfl, fun _ => rfl, fun _ => rfl⟩
  | _ => exact ⟨row, stored, rfl, le_rfl, fun _ => rfl, fun _ => rfl⟩

/-- A receipt becomes verified only from the queue and over its approved target. -/
theorem AcceptanceChange.becomes_verified (change : AcceptanceChange db after) {id : Id}
    {now : Row Verification} (stored : after.verifications.find id = some now)
    (verified : now.payload.status = .verified) :
    db.verifications.find id = some now ∨
      ∃ row, db.verifications.find id = some row ∧ row.payload.status = .queued ∧
        now.payload.pins = row.payload.pins ∧ TargetApproved db row.payload := by
  cases change with
  | queued fresh status =>
    rw [Table.find_put] at stored
    split at stored
    · obtain rfl := Option.some.inj stored
      cases status.symm.trans verified
    · exact .inl stored
  | refused present queued pins settled unverified =>
    rw [Table.find_put] at stored
    split at stored
    · obtain rfl := Option.some.inj stored
      exact absurd verified unverified
    · exact .inl stored
  | verified present queued pins status target =>
    rw [Table.find_put] at stored
    split at stored
    next same =>
      subst same
      obtain rfl := Option.some.inj stored
      exact .inr ⟨_, present, queued, pins, target⟩
    · exact .inl stored
  | _ => exact .inl stored

theorem AcceptanceInv.change (inv : AcceptanceInv db) (change : AcceptanceChange db after) :
    AcceptanceInv after where
  reviews problemId problem stored reviewId named := by
    -- a review that the record names stays where it was
    have kept : ∀ old, db.problems.find problemId = some old → problem = old →
        ∃ review, after.reviews.find reviewId = some review ∧
          review.payload.problemId = problemId ∧
          review.payload.decision = problem.payload.semanticReview := by
      rintro old found rfl
      obtain ⟨review, present, names, decision⟩ := inv.reviews problemId problem found reviewId named
      exact ⟨review, change.review_kept present, names, decision⟩
    cases change with
    | problem fresh unreviewed =>
      rw [Table.find_put] at stored
      split at stored
      · obtain rfl := Option.some.inj stored
        rw [unreviewed] at named
        cases named
      · exact kept problem stored rfl
    | reviewed _ found fresh names =>
      rw [Table.find_put] at stored
      split at stored
      next same =>
        subst same
        obtain rfl := Option.some.inj stored
        obtain rfl := Option.some.inj named
        exact ⟨_, Table.find_put_self .., names, rfl⟩
      · exact kept problem stored rfl
    | _ => exact kept problem stored rfl
  evidence id row stored := by
    by_cases known : ∃ old, db.verifications.find id = some old
    · obtain ⟨old, present⟩ := known
      obtain ⟨now, found, pins, -⟩ := change.receipt_kept present
      obtain rfl := Option.some.inj (stored.symm.trans found)
      have kept := change.evidence_kept (inv.evidence id old present)
      simp only [Verification.pins, Prod.mk.injEq] at pins
      simpa only [EvidenceKept, pins] using kept
    · cases change with
      | queued fresh status evidence =>
        rw [Table.find_put] at stored
        split at stored
        · obtain rfl := Option.some.inj stored
          exact evidence
        · exact absurd ⟨row, stored⟩ known
      | refused present =>
        rw [Table.find_put] at stored
        split at stored
        next same => exact absurd ⟨_, same ▸ present⟩ known
        · exact absurd ⟨row, stored⟩ known
      | verified present =>
        rw [Table.find_put] at stored
        split at stored
        next same => exact absurd ⟨_, same ▸ present⟩ known
        · exact absurd ⟨row, stored⟩ known
      | _ => exact absurd ⟨row, stored⟩ known
  claims id claim stored proved := by
    -- the receipt of a claim that was there is verified, so it stays as it is
    have kept : db.claims.find id = some claim →
        ∃ receipt, after.verifications.find claim.payload.verificationId = some receipt ∧
          receipt.payload.status = .verified ∧ receipt.payload.claimId = some id := by
      intro found
      obtain ⟨receipt, present, verified, linked⟩ := inv.claims id claim found proved
      obtain ⟨now, still, -, -, -, same⟩ := change.receipt_kept present
      obtain rfl := same (by simp [verified])
      exact ⟨now, still, verified, linked⟩
    cases change with
    | claim fresh unproved =>
      rw [Table.find_put] at stored
      split at stored
      · obtain rfl := Option.some.inj stored
        cases unproved.symm.trans proved
      · exact kept stored
    | verified present queued pins status target fresh names =>
      rw [Table.find_put] at stored
      split at stored
      next same =>
        subst same
        obtain rfl := Option.some.inj stored
        rw [names]
        exact ⟨_, Table.find_put_self .., status, rfl⟩
      · exact kept stored
    | _ => exact kept stored

/-! ### Calls in flight -/

/-- The receipt that a call works with has the pins of the stored one. -/
def Pinned (db : Db) (identifier : Id) (receipt : Verification) : Prop :=
  ∃ row, db.verifications.find identifier = some row ∧ row.payload.pins = receipt.pins

/-- The review that a receipt pins approved its problem. -/
def ReviewApproved (db : Db) (receipt : Verification) : Prop :=
  ∃ reviewId review, receipt.reviewId = some reviewId ∧ db.reviews.find reviewId = some review ∧
    review.payload.problemId = receipt.problemRevisionId ∧ review.payload.decision = .approved

/-- An outcome is about the receipt's evidence, and verified only under an approving review. -/
structure OutcomeSound (db : Db) (receipt : Verification) (outcome : OutcomeData) : Prop where
  settled : outcome.status ≠ .queued
  target : outcome.targetDigest = receipt.targetDigest
  challenge : outcome.challengeSha256 = receipt.challengeSha256
  environment : outcome.environmentDigest = receipt.environmentDigest
  candidate : outcome.candidateSha256 = receipt.candidateSha256
  approved : outcome.status = .verified → ReviewApproved db receipt

/-- A row read earlier is the stored one unless the revision moved on. -/
def ReadAt {α : Type} (table : Table Id (Row α)) (id : Id) (row : Row α) : Prop :=
  ∃ stored, table.find id = some stored ∧ row.revision ≤ stored.revision ∧
    (row.revision = stored.revision → stored = row)

def ProcessSound (db : Db) (identifier : Id) : ProcessStage → Prop
  | .entered => True
  | .received receipt | .located receipt _ | .prepared receipt _ => Pinned db identifier receipt
  | .decided receipt outcome => Pinned db identifier receipt ∧ OutcomeSound db receipt outcome.1
  | .opened receipt outcome row =>
    Pinned db identifier receipt ∧ OutcomeSound db receipt outcome.1 ∧
      ReadAt db.verifications identifier row
  | .locked receipt outcome row current =>
    Pinned db identifier receipt ∧ OutcomeSound db receipt outcome.1 ∧
      ReadAt db.verifications identifier row ∧
      ∃ problem, db.problems.find receipt.problemRevisionId = some problem ∧
        problem.payload = current

/-- What a call in flight knows of the database. -/
def CallSound (db : Db) : AcceptanceCall → Prop
  | .review _ problemId _ (some row) => ReadAt db.problems problemId row
  | .submit _ _ _ _ (some receipt) => receipt.status = .queued ∧ EvidenceKept db receipt
  | .process _ identifier stage => ProcessSound db identifier stage
  | _ => True

theorem Pinned.change {identifier : Id} {receipt : Verification}
    (pinned : Pinned db identifier receipt) (change : AcceptanceChange db after) :
    Pinned after identifier receipt := by
  obtain ⟨row, stored, same⟩ := pinned
  obtain ⟨now, found, pins, -⟩ := change.receipt_kept stored
  exact ⟨now, found, pins.trans same⟩

theorem OutcomeSound.change {receipt : Verification} {outcome : OutcomeData}
    (sound : OutcomeSound db receipt outcome) (change : AcceptanceChange db after) :
    OutcomeSound after receipt outcome :=
  { sound with
    approved := fun verified =>
      let ⟨reviewId, review, named, stored, names, decision⟩ := sound.approved verified
      ⟨reviewId, review, named, change.review_kept stored, names, decision⟩ }

theorem ReadAt.receipt {identifier : Id} {row : Row Verification}
    (read : ReadAt db.verifications identifier row) (change : AcceptanceChange db after) :
    ReadAt after.verifications identifier row := by
  obtain ⟨stored, found, earlier, same⟩ := read
  obtain ⟨now, present, -, later, unchanged, -⟩ := change.receipt_kept found
  refine ⟨now, present, earlier.trans later, fun equal => ?_⟩
  have here : row.revision = stored.revision := Nat.le_antisymm earlier (equal ▸ later)
  exact (unchanged (here.symm.trans equal)).trans (same here)

theorem ReadAt.problem {problemId : Id} {row : Row Problem}
    (read : ReadAt db.problems problemId row) (change : AcceptanceChange db after) :
    ReadAt after.problems problemId row := by
  obtain ⟨stored, found, earlier, same⟩ := read
  cases change with
  | problem fresh => exact ⟨stored, find_put_fresh fresh found, earlier, same⟩
  | @reviewed other old _ _ present =>
    by_cases here : problemId = other
    · subst here
      obtain rfl := Option.some.inj (found.symm.trans present)
      refine ⟨_, Table.find_put_self .., earlier.trans (Nat.le_succ _), fun equal => ?_⟩
      have moved : row.revision = stored.revision + 1 := equal
      omega
    · exact ⟨stored, (Table.find_put_ne _ _ here).trans found, earlier, same⟩
  | _ => exact ⟨stored, found, earlier, same⟩

/-- A call stays sound under what others write, while no one rewrites the problem it has locked. -/
theorem CallSound.change {call : AcceptanceCall} (sound : CallSound db call)
    (change : AcceptanceChange db after)
    (unwritten : ∀ problemId ∈ call.locks,
      after.problems.find problemId = db.problems.find problemId) : CallSound after call := by
  cases call with
  | review actor problemId decision row =>
    cases row with
    | none => trivial
    | some row => exact ReadAt.problem sound change
  | submit actor experimentId artifactId publication receipt =>
    cases receipt with
    | none => trivial
    | some receipt => exact ⟨sound.1, change.evidence_kept sound.2⟩
  | «over» => trivial
  | process actor identifier stage =>
    cases stage with
    | entered => trivial
    | received => exact Pinned.change sound change
    | located => exact Pinned.change sound change
    | prepared => exact Pinned.change sound change
    | decided => exact ⟨sound.1.change change, sound.2.change change⟩
    | opened => exact ⟨sound.1.change change, sound.2.1.change change, sound.2.2.receipt change⟩
    | locked receipt =>
      obtain ⟨pinned, outcome, read, problem, stored, same⟩ := sound
      exact ⟨pinned.change change, outcome.change change, read.receipt change, problem,
        (unwritten receipt.problemRevisionId rfl).trans stored, same⟩

/-! ### Steps -/

/-- A step of call `id`: it writes one change, and every other call that holds a lock finds its
problem unchanged. -/
inductive Advanced (sys : AcceptanceSys) (id : Nat) : AcceptanceSys → Prop
  | wait : Advanced sys id sys
  | moved {after call} (change : AcceptanceChange sys.db after) (sound : CallSound after call)
      (kept : ∀ other held, sys.calls.find other = some held → other ≠ id →
        ∀ problemId ∈ held.locks,
          after.problems.find problemId = sys.db.problems.find problemId) :
      Advanced sys id { db := after, calls := sys.calls.put id call }

variable {sys : AcceptanceSys} {id : Nat} {env : Env}
  {verifier : VerificationRequest → Except Failure OutcomeData}

/-- A step that writes nothing. -/
theorem Advanced.set {call : AcceptanceCall} (sound : CallSound sys.db call) :
    Advanced sys id (sys.setCall id call) :=
  .moved .quiet sound fun _ _ _ _ _ _ => rfl

/-- A commit that leaves the problems alone. -/
theorem Advanced.closed {result : Except Failure Db}
    (commits : ∀ after, result = .ok after →
      AcceptanceChange sys.db after ∧ after.problems = sys.db.problems) :
    Advanced sys id (sys.close id result) := by
  cases result with
  | error failure => exact .set trivial
  | ok after =>
    obtain ⟨change, same⟩ := commits after rfl
    exact .moved change trivial fun _ _ _ _ _ _ => by rw [same]

omit [ContentHash] in
theorem validate_ok {data : OutcomeData} {outcome : VerificationOutcome}
    (valid : data.validate = .ok outcome) : outcome.1 = data := by
  unfold OutcomeData.validate at valid
  split at valid
  · exact (congrArg Subtype.val (Except.ok.inj valid)).symm
  · exact nomatch valid

/-- Concluding a call: what a check raised is a blocked outcome about the same evidence. -/
theorem Advanced.conclude {actor : Principal} {identifier : Id} {receipt : Verification}
    {checked : Except Failure VerificationOutcome} (pinned : Pinned sys.db identifier receipt)
    (sound : ∀ outcome, checked = .ok outcome → OutcomeSound sys.db receipt outcome.1) :
    Advanced sys id (sys.conclude id actor identifier receipt checked) := by
  unfold AcceptanceSys.conclude
  cases checked with
  | ok outcome => exact .set ⟨pinned, sound outcome rfl⟩
  | error failure =>
    simp only [settleOutcome]
    split
    next outcome valid =>
      refine .set ⟨pinned, ?_⟩
      rw [validate_ok valid]
      exact ⟨by simp [blockedOutcome], rfl, rfl, rfl, rfl, by simp [blockedOutcome]⟩
    · exact .set trivial

omit [ContentHash] in
theorem checkOutcome_ok {receipt : Verification} {outcome : VerificationOutcome}
    (checked : checkOutcome receipt outcome = .ok ())
    (approved : outcome.1.status = .verified → ReviewApproved db receipt) :
    OutcomeSound db receipt outcome.1 := by
  simp only [checkOutcome, bind_ok, require_ok, exists_const] at checked
  obtain ⟨⟨target, challenge, environment, candidate⟩, -⟩ := checked
  exact ⟨outcome.2.1, target, challenge, environment, candidate, approved⟩

theorem prepareRequest_some {receipt : Verification} {problem : Problem}
    {source : Except Failure String} {request : VerificationRequest}
    {outcome : VerificationOutcome}
    (prepared : prepareRequest receipt problem source = .ok (request, some outcome)) :
    outcome.1.status ≠ .verified := by
  simp only [prepareRequest, bind_ok, require_ok, exists_const] at prepared
  obtain ⟨-, _, -, -, -, prepared⟩ := prepared
  split at prepared
  next _ failed refused =>
    simp only [bind_ok, pure_ok, Prod.mk.injEq, Option.some.injEq] at prepared
    obtain ⟨-, _, valid, -, rfl⟩ := prepared
    rw [validate_ok valid]
    exact preflight_unverified refused
  · simp only [pure_ok, Prod.mk.injEq, reduceCtorEq, and_false] at prepared

omit [ContentHash] in
theorem runChecker_ok {receipt : Verification} {actor : Principal}
    {verdict : Except Failure OutcomeData} {outcome : VerificationOutcome} {missing : Failure}
    (checked : runChecker receipt (orThrow receipt.reviewId missing >>= fun reviewId =>
      db.getUnscoped db.reviews reviewId actor) verdict = .ok outcome) :
    OutcomeSound db receipt outcome.1 := by
  simp only [runChecker, checkReview, bind_ok, orThrow_ok, require_ok, exists_const,
    pure_ok] at checked
  obtain ⟨⟨review, ⟨reviewId, named, read⟩, names, -, decision⟩, _, -, _, -, _, sound, rfl⟩ :=
    checked
  exact checkOutcome_ok sound fun _ =>
    ⟨reviewId, review, named, Db.getRow_find read, names, decision⟩

/-- An unchanged revision of the problem under its lock has the pinned target. -/
theorem targetApproved_of_unchanged (inv : AcceptanceInv db) {receipt stored : Verification}
    {current : Row Problem} (pins : stored.pins = receipt.pins)
    (found : db.problems.find receipt.problemRevisionId = some current)
    (unchanged : verificationRevisionChanged current.payload receipt = false)
    (approved : ReviewApproved db receipt) : TargetApproved db stored := by
  simp only [verificationRevisionChanged, Bool.or_eq_false_iff, decide_eq_false_iff_not,
    not_not] at unchanged
  obtain ⟨⟨⟨⟨review, theorem'⟩, target⟩, environment⟩, challenge⟩ := unchanged
  obtain ⟨reviewId, row, named, reviewed, -, decision⟩ := approved
  obtain ⟨row', reviewed', -, same⟩ :=
    inv.reviews receipt.problemRevisionId current found reviewId (review.trans named)
  obtain rfl := Option.some.inj (reviewed.symm.trans reviewed')
  simp only [Verification.pins, Prod.mk.injEq] at pins
  obtain ⟨-, problemId, digest, challengeSha256, reviewed, name, -, -, environmentDigest, -⟩ := pins
  exact ⟨current, problemId ▸ found, same.symm.trans decision, review.trans reviewed.symm,
    theorem'.trans name.symm, target.trans digest.symm, environment.trans environmentDigest.symm,
    challenge.trans challengeSha256.symm⟩

theorem commitOutcome_change (inv : AcceptanceInv db) {actor : Principal} {identifier : Id}
    {receipt : Verification} {outcome : VerificationOutcome} {row : Row Verification}
    {current : Problem} {reply : Reply} {key : String} {command : Command}
    (sound : ProcessSound db identifier (.locked receipt outcome row current))
    (committed : commitOutcome env actor identifier receipt outcome row current db = .ok after) :
    AcceptanceChange db (after.logged actor key command reply) ∧
      (after.logged actor key command reply).problems = db.problems := by
  obtain ⟨⟨pinned, known, pins⟩, about, ⟨stored, present, -, same⟩, problem, locked, rfl⟩ := sound
  obtain rfl := Option.some.inj (known.symm.trans present)
  simp only [commitOutcome] at committed
  split at committed
  · simp only [pure_ok] at committed
    subst committed
    exact ⟨.quiet, rfl⟩
  next queued =>
    simp only [bind_ok, orThrow_ok, require_ok, exists_const] at committed
    obtain ⟨_, found, revision, committed⟩ := committed
    obtain rfl := Option.some.inj (known.symm.trans found)
    obtain rfl := same revision.symm
    have isQueued := not_not.mp queued
    -- the outcome is about the pinned evidence, whether or not the revision changed
    have result : ∀ data : OutcomeData, data.targetDigest = outcome.1.targetDigest →
        data.challengeSha256 = outcome.1.challengeSha256 →
        data.environmentDigest = outcome.1.environmentDigest →
        data.candidateSha256 = outcome.1.candidateSha256 →
        (pinned.payload.resolved data).pins = pinned.payload.pins := by
      intro data target challenge environment candidate
      have same := pins
      simp only [Verification.pins, Prod.mk.injEq] at same
      simp only [Verification.pins, Verification.resolved, target, challenge, environment,
        candidate, about.target, about.challenge, about.environment, about.candidate, same]
    by_cases changed : verificationRevisionChanged problem.payload receipt = true
    · simp only [commitResult, changed, if_true, reduceCtorEq, if_false, pure_ok] at committed
      subst committed
      exact ⟨.refused present isQueued (result _ rfl rfl rfl rfl) (by simp) (by simp), rfl⟩
    · have kept : commitResult problem.payload receipt outcome = outcome.1 := if_neg changed
      rw [kept] at committed
      split at committed
      next verified =>
        simp only [bind_ok, insertNew_ok, pure_ok] at committed
        obtain ⟨-, -, _, ⟨fresh, rfl⟩, rfl⟩ := committed
        have target := targetApproved_of_unchanged inv pins locked (Bool.eq_false_iff.mpr changed)
          (about.approved verified)
        exact ⟨.verified present isQueued (result _ rfl rfl rfl rfl) verified target fresh rfl, rfl⟩
      next unverified =>
        simp only [pure_ok] at committed
        subst committed
        exact ⟨.refused present isQueued (result _ rfl rfl rfl rfl) about.settled unverified, rfl⟩

omit [ContentHash] in
/-- Locking finds no other call that holds the problem. -/
theorem AcceptanceSys.problemFree_iff {problemId : Id} :
    sys.problemFree id problemId = true ↔
      ∀ other held, sys.calls.find other = some held → other ≠ id →
        held.locks ≠ some problemId := by
  simp [AcceptanceSys.problemFree]

theorem commitReview_change {actor : Principal} {problemId : Id} {decision : SemanticReview}
    {row : Row Problem} (read : ReadAt db.problems problemId row)
    (committed : commitReview env actor problemId decision row db = .ok after) :
    AcceptanceChange db after ∧
      ∀ other, other ≠ problemId → after.problems.find other = db.problems.find other := by
  simp only [commitReview, bind_ok, insertNew_ok, orThrow_ok, require_ok, exists_const,
    pure_ok] at committed
  obtain ⟨_, ⟨fresh, rfl⟩, stored, found, revision, rfl⟩ := committed
  obtain ⟨_, present, -, same⟩ := read
  obtain rfl := Option.some.inj (found.symm.trans present)
  obtain rfl := same revision.symm
  let review : Review := ⟨problemId, stored.payload.targetDigest, decision, actor.id⟩
  exact ⟨.reviewed ⟨actor.projectId, 1, review⟩ found fresh rfl,
    fun other distinct => Table.find_put_ne _ _ distinct⟩

theorem readCandidate_ok {actor : Principal} {experimentId artifactId : Id} {publication : Bool}
    {receipt : Verification}
    (read : readCandidate env actor experimentId artifactId publication db = .ok receipt) :
    receipt.status = .queued ∧ EvidenceKept db receipt := by
  simp only [readCandidate, bind_ok, require_ok, exists_const, orThrow_ok, pure_ok] at read
  obtain ⟨experiment, -, problem, -, artifact, stored, -, -, -, _, -, _, -, _, -, rfl⟩ := read
  exact ⟨rfl, artifact, Db.getRow_find stored, rfl⟩

theorem Advanced.process {actor : Principal} {identifier : Id} {stage : ProcessStage}
    (inv : AcceptanceInv sys.db) (sound : ProcessSound sys.db identifier stage) :
    Advanced sys id (sys.advanceProcess env id verifier actor identifier stage) := by
  cases stage with
  | entered =>
    simp only [AcceptanceSys.advanceProcess]
    split
    · exact .set trivial
    next row read =>
      split
      · exact .set trivial
      · exact .set ⟨row, Db.getRow_find read, rfl⟩
  | received receipt =>
    simp only [AcceptanceSys.advanceProcess]
    split
    · exact .set trivial
    · refine .set ?_
      exact sound
  | located receipt problem =>
    simp only [AcceptanceSys.advanceProcess]
    split
    · refine .set ?_
      exact sound
    next outcome prepared =>
      refine .conclude sound fun settled checked => ?_
      simp only [bind_ok, Except.ok.injEq] at checked
      obtain ⟨_, accepted, rfl⟩ := checked
      exact checkOutcome_ok accepted fun verified =>
        absurd verified (prepareRequest_some prepared)
    · exact .conclude sound fun _ impossible => nomatch impossible
  | prepared receipt request => exact .conclude sound fun _ checked => runChecker_ok checked
  | decided receipt outcome =>
    simp only [AcceptanceSys.advanceProcess]
    split
    · exact .set trivial
    · split
      · exact .set trivial
      next row read =>
        exact .set ⟨sound.1, sound.2, row, Db.getRow_find read, le_rfl, fun _ => rfl⟩
  | opened receipt outcome row =>
    simp only [AcceptanceSys.advanceProcess]
    split
    · exact .set trivial
    next current read =>
      split
      · exact .set ⟨sound.1, sound.2.1, sound.2.2, current, Db.getRow_find read, rfl⟩
      · exact .wait
  | locked receipt outcome row current =>
    simp only [AcceptanceSys.advanceProcess]
    split
    · refine .closed fun after committed => ?_
      simp only [bind_ok, Except.ok.injEq] at committed
      obtain ⟨written, committed, rfl⟩ := committed
      exact commitOutcome_change inv sound committed
    · exact .set trivial

/-- Every step of a call is one change of the database and leaves the call sound. -/
theorem Advanced.call {call : AcceptanceCall} (inv : AcceptanceInv sys.db)
    (sound : CallSound sys.db call) : Advanced sys id (sys.advanceCall env id verifier call) := by
  cases call with
  | review actor problemId decision row =>
    cases row with
    | none =>
      simp only [AcceptanceSys.advanceCall]
      split
      · exact .set trivial
      next row read =>
        refine .set ?_
        exact ⟨row, Db.getRow_find read, le_rfl, fun _ => rfl⟩
    | some row =>
      simp only [AcceptanceSys.advanceCall]
      split
      next free =>
        cases committed : commitReview env actor problemId decision row sys.db with
        | error failure => exact .set trivial
        | ok after =>
          obtain ⟨change, others⟩ := commitReview_change sound committed
          refine .moved change trivial fun other held found distinct locked here => ?_
          refine others locked fun same => ?_
          exact AcceptanceSys.problemFree_iff.mp free other held found distinct (same ▸ here)
      · exact .wait
  | submit actor experimentId artifactId publication receipt =>
    cases receipt with
    | none =>
      simp only [AcceptanceSys.advanceCall]
      split
      · exact .set trivial
      next receipt read =>
        refine .set ?_
        exact readCandidate_ok read
    | some receipt =>
      refine .closed fun after committed => ?_
      simp only [bind_ok, insertNew_ok, Except.ok.injEq] at committed
      obtain ⟨_, ⟨fresh, rfl⟩, rfl⟩ := committed
      exact ⟨.queued fresh sound.1 sound.2, rfl⟩
  | process actor identifier stage => exact .process inv sound
  | «over» => exact .wait

omit [ContentHash] in
/-- A call that was just accepted has read nothing. -/
theorem begin_sound {request : AcceptanceRequest} {call : AcceptanceCall}
    (begun : request.begin = .ok call) : CallSound db call := by
  cases request with
  | reviewProblem actor problemId decision rationale =>
    simp only [AcceptanceRequest.begin, bind_ok, pure_ok] at begun
    obtain ⟨-, -, -, -, rfl⟩ := begun
    trivial
  | verifyCandidate actor experimentId artifactId publication =>
    simp only [AcceptanceRequest.begin, bind_ok, pure_ok] at begun
    obtain ⟨-, -, rfl⟩ := begun
    trivial
  | processVerification actor identifier =>
    simp only [AcceptanceRequest.begin, bind_ok, pure_ok] at begun
    obtain ⟨-, -, rfl⟩ := begun
    trivial

/-! ### Runs -/

/-- The database keeps its invariant and every call in flight is sound. -/
structure AcceptanceSys.Sound (sys : AcceptanceSys) : Prop where
  db : AcceptanceInv sys.db
  calls : ∀ id call, sys.calls.find id = some call → CallSound sys.db call

/-- A step writes one change and stays sound. -/
def AcceptanceSys.Steps (sys after : AcceptanceSys) : Prop :=
  AcceptanceChange sys.db after.db ∧ after.Sound

omit [ContentHash] in
theorem AcceptanceSys.Sound.empty : AcceptanceSys.Sound {} where
  db := ⟨fun _ _ stored => (nomatch stored), fun _ _ stored => (nomatch stored),
    fun _ _ stored => (nomatch stored)⟩
  calls _ _ stored := nomatch stored

namespace AcceptanceSys.Sound

variable {sys after : AcceptanceSys}

theorem advanced (sound : sys.Sound) (advanced : Advanced sys id after) :
    sys.Steps after := by
  cases advanced with
  | wait => exact ⟨.quiet, sound⟩
  | @moved written call change here kept =>
    refine ⟨change, sound.db.change change, fun other held found => ?_⟩
    change (sys.calls.put id call).find other = some held at found
    rw [Table.find_put] at found
    split at found
    · obtain rfl := Option.some.inj found
      exact here
    next distinct => exact (sound.calls other held found).change change (kept other held found distinct)

/-- Other parts of the service rewrite no problem, so every call that holds one stays sound. -/
theorem created (sound : sys.Sound) {result : Except Failure Db}
    (creates : ∀ db, result = .ok db → AcceptanceChange sys.db db ∧
      ∀ problemId problem, sys.db.problems.find problemId = some problem →
        db.problems.find problemId = some problem) : sys.Steps (sys.create result) := by
  cases result with
  | error failure => exact ⟨.quiet, sound⟩
  | ok db =>
    obtain ⟨change, kept⟩ := creates db rfl
    refine ⟨change, sound.db.change change, fun id call found => ?_⟩
    have before := sound.calls id call found
    cases call with
    | process actor identifier stage =>
      cases stage with
      | locked receipt outcome row current =>
        refine before.change change fun problemId locked => ?_
        obtain rfl := Option.some.inj locked
        obtain ⟨-, -, -, problem, stored, -⟩ := before
        exact (kept _ _ stored).trans stored.symm
      | _ => exact before.change change fun _ locked => nomatch locked
    | _ => exact before.change change fun _ locked => nomatch locked

theorem step (sound : sys.Sound) (label : AcceptanceLabel) : sys.Steps (sys.step label) := by
  cases label with
  | begin id request =>
    simp only [AcceptanceSys.step]
    split
    next call _ begun =>
      have set : Advanced sys id (sys.setCall id call) := .set (begin_sound begun)
      exact sound.advanced set
    · exact ⟨.quiet, sound⟩
  | advance id env verifier =>
    simp only [AcceptanceSys.step]
    split
    next call found => exact sound.advanced (.call sound.db (sound.calls id call found))
    · exact ⟨.quiet, sound⟩
  | drop id => exact sound.advanced (.set trivial)
  | createProblem id projectId problem =>
    refine sound.created fun db made => ?_
    simp only [bind_ok, insertNew_ok, Except.ok.injEq] at made
    obtain ⟨_, ⟨fresh, rfl⟩, rfl⟩ := made
    exact ⟨.problem fresh rfl, fun _ _ stored => find_put_fresh fresh stored⟩
  | createArtifact id row =>
    refine sound.created fun db made => ?_
    simp only [bind_ok, insertNew_ok, Except.ok.injEq] at made
    obtain ⟨_, ⟨fresh, rfl⟩, rfl⟩ := made
    exact ⟨.artifact fresh, fun _ _ stored => stored⟩
  | createClaim id row =>
    refine sound.created fun db made => ?_
    simp only [bind_ok, insertNew_ok, Except.ok.injEq] at made
    obtain ⟨_, ⟨fresh, rfl⟩, rfl⟩ := made
    exact ⟨.claim fresh rfl, fun _ _ stored => stored⟩
  | experiment id row =>
    have created : sys.Steps (sys.create (.ok
        { sys.db with experiments := sys.db.experiments.put id row })) := by
      refine sound.created fun db made => ?_
      obtain rfl := Except.ok.inj made
      exact ⟨.quiet, fun _ _ stored => stored⟩
    exact created

end AcceptanceSys.Sound

theorem AcceptanceSys.run_sound (labels : List AcceptanceLabel) :
    (AcceptanceSys.run labels).Sound :=
  Transition.run_always AcceptanceSys.Sound labels .empty fun _ label sound => (sound.step label).2

theorem AcceptanceSys.run_change (first : List AcceptanceLabel) (label : AcceptanceLabel) :
    AcceptanceChange (AcceptanceSys.run first).db (AcceptanceSys.run (first ++ [label])).db := by
  have same : AcceptanceSys.run (first ++ [label]) = (AcceptanceSys.run first).step label :=
    Transition.run_append ..
  rw [same]
  exact ((AcceptanceSys.run_sound first).step label).1

/-- What every change preserves survives the rest of a run. -/
theorem AcceptanceSys.run_keeps (holds : Db → Prop)
    (keeps : ∀ db after, AcceptanceChange db after → holds db → holds after)
    (first rest : List AcceptanceLabel) (here : holds (AcceptanceSys.run first).db) :
    holds (AcceptanceSys.run (first ++ rest)).db := by
  have both : (AcceptanceSys.run (first ++ rest)).Sound ∧
      holds (AcceptanceSys.run (first ++ rest)).db := by
    rw [AcceptanceSys.run, Transition.run_append]
    refine Transition.run_always (fun sys : AcceptanceSys => sys.Sound ∧ holds sys.db) rest
      ⟨AcceptanceSys.run_sound first, here⟩ ?_
    rintro sys label ⟨sound, now⟩
    obtain ⟨change, next⟩ := sound.step label
    exact ⟨next, keeps _ _ change now⟩
  exact both.2

/-- A receipt is newly verified only from the queue, over its approved target and its stored
bytes. -/
def VerifiedSafely (before after : Db) : Prop :=
  ∀ id now, after.verifications.find id = some now → now.payload.status = .verified →
    before.verifications.find id = some now ∨
      ∃ row, before.verifications.find id = some row ∧ row.payload.status = .queued ∧
        now.payload.pins = row.payload.pins ∧ TargetApproved before row.payload ∧
        EvidenceKept before row.payload

/-- Receipts stay with what they pin, and are final once they left the queue. -/
def ReceiptsKept (before after : Db) : Prop :=
  ∀ id row, before.verifications.find id = some row →
    ∃ now, after.verifications.find id = some now ∧ now.payload.pins = row.payload.pins ∧
      (row.payload.status ≠ .queued → now = row)

/-- A verified claim and its verified receipt name each other, so a receipt has one such claim. -/
def ClaimsLinked (db : Db) : Prop :=
  (∀ id claim, db.claims.find id = some claim → claim.payload.proofStatus = .verified →
    ∃ receipt, db.verifications.find claim.payload.verificationId = some receipt ∧
      receipt.payload.status = .verified ∧ receipt.payload.claimId = some id) ∧
  ∀ id other claim second, db.claims.find id = some claim → db.claims.find other = some second →
    claim.payload.proofStatus = .verified → second.payload.proofStatus = .verified →
    claim.payload.verificationId = second.payload.verificationId → id = other

/-- No receipt that pins this review of the problem is accepted evidence. -/
def ReviewRevoked (db : Db) (problemId : Id) (reviewId : Option Id) : Prop :=
  ∀ id receipt, db.verifications.find id = some receipt →
    receipt.payload.problemRevisionId = problemId → receipt.payload.reviewId = reviewId →
    ∀ experimentId experiment assurances,
      db.acceptedReceipt receipt experimentId experiment assurances = false

omit [ContentHash] in
theorem AcceptanceInv.claimsLinked (inv : AcceptanceInv db) : ClaimsLinked db := by
  refine ⟨inv.claims, fun id other claim second here there proved proved' same => ?_⟩
  obtain ⟨receipt, stored, -, names⟩ := inv.claims id claim here proved
  obtain ⟨receipt', stored', -, names'⟩ := inv.claims other second there proved'
  rw [same] at stored
  obtain rfl := Option.some.inj (stored.symm.trans stored')
  exact Option.some.inj (names.symm.trans names')

/-- The problem has a review, another one than this, which was used before. -/
structure Superseded (db : Db) (problemId : Id) (reviewId : Option Id) : Prop where
  moved : ∃ problem, db.problems.find problemId = some problem ∧ problem.payload.reviewId ≠ reviewId
  used : ∀ earlier ∈ reviewId, ∃ review, db.reviews.find earlier = some review

theorem Superseded.change {problemId : Id} {reviewId : Option Id}
    (superseded : Superseded db problemId reviewId) (change : AcceptanceChange db after) :
    Superseded after problemId reviewId where
  moved := by
    obtain ⟨problem, stored, differs⟩ := superseded.moved
    cases change with
    | problem fresh => exact ⟨problem, find_put_fresh fresh stored, differs⟩
    | @reviewed other _ next _ _ fresh =>
      by_cases same : problemId = other
      · subst same
        refine ⟨_, Table.find_put_self .., fun named => ?_⟩
        -- the new review's id is unused, so it is not the superseded one
        obtain ⟨review, used⟩ := superseded.used next (Option.mem_def.mpr named.symm)
        exact nomatch fresh.symm.trans used
      · exact ⟨problem, (Table.find_put_ne _ _ same).trans stored, differs⟩
    | _ => exact ⟨problem, stored, differs⟩
  used earlier named := by
    obtain ⟨review, stored⟩ := superseded.used earlier named
    exact ⟨review, change.review_kept stored⟩

/-- A new review supersedes every review that was there, and having none. -/
theorem Superseded.of_review (change : AcceptanceChange db after) {id : Id} {review : Row Review}
    (fresh : db.reviews.find id = none) (stored : after.reviews.find id = some review)
    {pinned : Option Id} (earlier : ∀ used ∈ pinned, ∃ old, db.reviews.find used = some old) :
    Superseded after review.payload.problemId pinned where
  moved := by
    cases change with
    | reviewed _ found unused names =>
      rw [Table.find_put] at stored
      split at stored
      next same =>
        subst same
        obtain rfl := Option.some.inj stored
        subst names
        refine ⟨_, Table.find_put_self .., fun named => ?_⟩
        obtain ⟨old, present⟩ := earlier _ (Option.mem_def.mpr named.symm)
        cases fresh.symm.trans present
      · cases fresh.symm.trans stored
    | _ => cases fresh.symm.trans stored
  used other named := by
    obtain ⟨old, present⟩ := earlier other named
    exact ⟨old, change.review_kept present⟩

theorem Superseded.revoked {problemId : Id} {reviewId : Option Id}
    (superseded : Superseded db problemId reviewId) : ReviewRevoked db problemId reviewId := by
  rintro id receipt - rfl rfl experimentId experiment assurances
  obtain ⟨problem, stored, differs⟩ := superseded.moved
  unfold Db.acceptedReceipt
  split
  next target artifact found _ =>
    refine decide_eq_false fun ⟨_, _, _, _, _, sameReview, _, _, sameProblem, _⟩ => ?_
    rw [sameProblem, found] at stored
    obtain rfl := Option.some.inj stored
    exact differs sameReview.symm
  · rfl

/-- Acceptance is race-safe: for every interleaving of reviews, submissions and the phases of any
number of verifications, a receipt becomes verified only over the approved and unchanged target it
pins, a settled receipt is final, verified claims and receipts correspond, and a new review revokes
every receipt that pins an earlier one. -/
theorem acceptance_race_safe (labels : List AcceptanceLabel) :
    (∀ first label rest, labels = first ++ label :: rest →
      VerifiedSafely (AcceptanceSys.run first).db (AcceptanceSys.run (first ++ [label])).db) ∧
    (∀ first rest, labels = first ++ rest →
      ReceiptsKept (AcceptanceSys.run first).db (AcceptanceSys.run labels).db) ∧
    ClaimsLinked (AcceptanceSys.run labels).db ∧
    ∀ first label rest, labels = first ++ label :: rest → ∀ reviewId review,
      (AcceptanceSys.run first).db.reviews.find reviewId = none →
      (AcceptanceSys.run (first ++ [label])).db.reviews.find reviewId = some review →
      ∀ pinned : Option Id,
        (∀ used ∈ pinned, ∃ old, (AcceptanceSys.run first).db.reviews.find used = some old) →
        ReviewRevoked (AcceptanceSys.run labels).db review.payload.problemId pinned := by
  refine ⟨?_, ?_, (AcceptanceSys.run_sound labels).db.claimsLinked, ?_⟩
  · rintro first label rest - id now stored verified
    have change := AcceptanceSys.run_change first label
    obtain same | ⟨row, found, queued, pins, target⟩ := change.becomes_verified stored verified
    · exact .inl same
    · exact .inr ⟨row, found, queued, pins, target,
        (AcceptanceSys.run_sound first).db.evidence id row found⟩
  · rintro first rest rfl id row stored
    refine AcceptanceSys.run_keeps (fun db => ∃ now, db.verifications.find id = some now ∧
      now.payload.pins = row.payload.pins ∧ (row.payload.status ≠ .queued → now = row)) ?_
      first rest ⟨row, stored, rfl, fun _ => rfl⟩
    rintro db after change ⟨now, found, pins, final⟩
    obtain ⟨next, present, pinned, -, -, settled⟩ := change.receipt_kept found
    refine ⟨next, present, pinned.trans pins, fun left => ?_⟩
    obtain rfl := final left
    exact settled left
  · rintro first label rest rfl reviewId review fresh stored pinned earlier
    have superseded := Superseded.of_review (AcceptanceSys.run_change first label) fresh stored
      earlier
    have kept := AcceptanceSys.run_keeps (Superseded · review.payload.problemId pinned)
      (fun _ _ change here => here.change change) (first ++ [label]) rest superseded
    rw [List.append_assoc, List.singleton_append] at kept
    exact kept.revoked

end Changes

namespace Scenario

def sourceDigest : Digest := "0123456789abcdef0123456789abcdef0123456789abcdef0123456789abcdef"

def statementDigest : Digest := "fedcba9876543210fedcba9876543210fedcba9876543210fedcba9876543210"

/-- A checker that accepts what it is asked about. -/
def accepting (request : VerificationRequest) : Except Failure OutcomeData :=
  .ok { request.outcome .verified "verified" "The proof was checked." "" with
    assurance := .kernel
    axioms := ["propext"]
    checkerVersions := [("lean", "4"), ("comparator", "1")] }

/-- One review, one submission and one verification of it. -/
def verifying : List AcceptanceLabel :=
  let source : Digest → Option String := fun digest => some digest
  let step (id : Nat) (fresh : Id) : AcceptanceLabel :=
    .advance id { envAt 0 fresh with content := source } accepting
  [.createProblem "problem" "project"
      { campaignId := "campaign"
        targetDigest := statementDigest
        formalStatement := statementDigest
        environmentDigest := sourceDigest },
    .experiment "experiment"
      { projectId := "project"
        payload :=
          { problemId := "problem", targetDigest := statementDigest, maxRuntimeSeconds := 3600 } },
    .createArtifact "proof"
      { projectId := "project"
        payload :=
          { experimentId := some "experiment"
            originActorId := "controller"
            artifactKind := "lean_source"
            sha256 := sourceDigest
            submittedBy := "controller" } },
    .begin 0 (.reviewProblem
      { id := "expert", projectId := "project", role := .reviewer,
        branchScoped := controller.branchScoped } "problem" .approved "Checked."),
    step 0 "", step 0 "review",
    .begin 1 (.verifyCandidate controller "experiment" "proof" false),
    step 1 "", step 1 "receipt",
    .begin 2 (.processVerification controller "receipt"),
    step 2 "", step 2 "", step 2 "", step 2 "", step 2 "", step 2 "", step 2 "claim"]

end Scenario

-- the run of one candidate through all phases ends verified
example : letI := Scenario.textHash
    ((AcceptanceSys.run Scenario.verifying).db.verifications.find "receipt").map
      (·.payload.status) = some .verified := by decide +kernel

end PhysHarness
