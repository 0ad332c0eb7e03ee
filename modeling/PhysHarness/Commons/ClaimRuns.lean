import PhysHarness.Commons.Claims
import PhysHarness.Tasks.Delegation

/-!
What holds of the claims in every run: a time box ends a claim whatever else happens, and no live claim
is attributed to a finished task.
-/
namespace PhysHarness
namespace WorkClaims

open Outcome

/-! ### Tasks and leases -/

/-- Where a task belongs. -/
def home (row : Row Task) : ProjectId × Id × Id :=
  (row.projectId, row.payload.experimentId, row.payload.branchId)

/-- What a command leaves of the tasks: they stay where they belong, and only a finishing command makes
one terminal. -/
structure TasksKept (ending : Option Id) (before after : Table Id (Row Task)) : Prop where
  homes : Table.Keeps home before after
  ended : ∀ id row, after.find id = some row → row.payload.status.terminal = true → ending ≠ some id →
    ∃ old, before.find id = some old ∧ old.payload.status.terminal = true

theorem TasksKept.refl (ending : Option Id) (tasks : Table Id (Row Task)) :
    TasksKept ending tasks tasks where
  homes := .refl tasks
  ended := fun _ row found terminal _ => ⟨row, found, terminal⟩

theorem TasksKept.put {ending : Option Id} {tasks : Table Id (Row Task)} {id : Id} {old : Row Task}
    {payload : Task} (stored : tasks.find id = some old)
    (placed : (payload.experimentId, payload.branchId) =
      (old.payload.experimentId, old.payload.branchId))
    (ended : payload.status.terminal = true → ending ≠ some id → old.payload.status.terminal = true) :
    TasksKept ending tasks (tasks.put id (old.replace payload)) where
  homes := by
    apply Table.Keeps.put stored
    simpa [home] using placed
  ended := by
    intro other row found terminal names
    rw [Table.find_put] at found
    split at found
    next here =>
      subst here
      obtain rfl := Option.some.inj found
      exact ⟨old, stored, ended terminal names⟩
    · exact ⟨row, found, terminal⟩

section
variable [ContentHash] {db after : Db} {env : Env} {actor : Principal} {request : Request}
  {reply : Reply}

theorem performs_tasksKept (performs : request.Performs env actor db after reply) :
    TasksKept (finishes db request) db.tasks after.tasks := by
  cases request with
  | createExperiment =>
    obtain ⟨_, -, -, rfl⟩ := createExperiment_cases performs
    exact .refl _ _
  | transitionExperiment =>
    obtain ⟨_, _, -, rfl⟩ := transition_cases performs
    exact .refl _ _
  | reserveResources =>
    obtain ⟨_, performs⟩ := performs
    obtain ⟨_, _, -, -, -, -, -, rfl⟩ := reserve_cases performs
    exact .refl _ _
  | settleResources =>
    obtain ⟨_, performs⟩ := performs
    rcases settle_cases performs with rfl | ⟨_, -, -, rfl | ⟨_, _, _, -, -, rfl⟩⟩ <;> exact .refl _ _
  | createTask =>
    obtain ⟨bound, performs⟩ := performs
    obtain ⟨_, -, -, -, fresh, -, rfl⟩ := createTask_cases performs
    refine ⟨.put_new fresh, ?_⟩
    intro id row found terminal _
    dsimp only at found
    rw [Table.find_put] at found
    split at found
    · obtain rfl := Option.some.inj found
      cases terminal
    · exact ⟨row, found, terminal⟩
  | acquireTask =>
    obtain ⟨_, stored, -, -, -, -, rfl⟩ := acquireTask_cases performs
    exact .put stored rfl fun terminal => by cases terminal
  | renewTask =>
    obtain ⟨_, -, rfl⟩ := renewTask_cases performs
    exact .refl _ _
  | renewTaskForCleanup =>
    obtain ⟨_, -, rfl⟩ := renewTaskForCleanup_cases performs
    exact .refl _ _
  | finishTask =>
    obtain ⟨-, performs⟩ := performs
    obtain ⟨_, _, _, _, _, stored, -, -, -, rfl⟩ := finishTask_cases performs
    exact .put stored rfl fun _ other => absurd rfl other
  | retireQueuedAfterVerified =>
    rcases retireQueued_cases performs with rfl | ⟨_, _, stored, -, -, -, -, rfl⟩
    · exact .refl _ _
    · exact .put stored rfl fun _ other => absurd rfl other
  | amendQueuedTaskObjective =>
    obtain ⟨_, stored, -, rfl⟩ := amendQueued_cases performs
    exact .put stored rfl fun terminal _ => terminal
  | bindSlot =>
    obtain ⟨_, stored, rfl⟩ := bindSlot_cases performs
    exact .put stored rfl fun terminal _ => terminal
  | requestHandoff =>
    obtain ⟨_, -, performs⟩ := performs
    obtain ⟨_, stored, _, rfl⟩ := requestHandoff_cases performs
    exact .put stored rfl fun terminal _ => terminal
  | issueContinuation =>
    obtain ⟨_, _, _, _, _, _, _, _, _, stored, -, -, -, -, -, -, -, rfl⟩ := issue_cases performs
    exact .put stored rfl fun terminal => by cases terminal
  | consumeContinuation =>
    obtain ⟨_, _, _, stored, -, -, -, -, -, -, rfl⟩ := consume_cases performs
    exact .put stored rfl fun terminal _ => terminal
  | restoreUnstartedContinuation =>
    obtain ⟨_, _, _, _, stored, -, -, -, -, -, -, -, -, -, -, -, -, rfl⟩ := restore_cases performs
    exact .put stored rfl fun terminal => by cases terminal
  | requeueSettledTerminal =>
    obtain ⟨_, _, _, stored, -, rfl⟩ := requeue_cases performs
    exact .put stored rfl fun terminal => by cases terminal
  | retireFailedLocalWorkspace =>
    obtain ⟨_, _, _, _, _, _, _, owned, stored, -, -, -, -, rfl⟩ := retire_cases performs
    exact .put stored rfl fun _ other => absurd (by rw [finishes, owned]; rfl) other
  | reconcileOrphanWorkerSlot =>
    rcases reconcileOrphan_cases performs with rfl | ⟨_, _, _, _, -, -, -, -, rfl⟩ <;> exact .refl _ _
  | reconcileModelReservations =>
    obtain ⟨_, rfl⟩ := reconcileModel_cases performs
    exact .refl _ _
  | trackModelReservation =>
    obtain ⟨_, rfl⟩ := track_cases performs
    exact .refl _ _
  | runtimeSave =>
    obtain ⟨_, _, _, _, -, -, -, saved⟩ := publish_cases performs
    rcases saved with ⟨_, _, -, -, -, -, -, rfl⟩ | ⟨_, -, -, -, rfl⟩ <;> exact .refl _ _

end

/-- A live lease is that of a running task. -/
def LeasesRun (tasks : Table Id (Row Task)) (leases : Table Id Lease) (now : Time) : Prop :=
  ∀ id lease, leases.find id = some lease → now < lease.expiresAt →
    ∃ row, tasks.find id = some row ∧ row.payload.status = .running

section
variable {tasks : Table Id (Row Task)} {leases : Table Id Lease} {now later : Time} {id : Id}
  {old : Row Task} {lease : Lease}

theorem LeasesRun.mono (runs : LeasesRun tasks leases now) (passes : now ≤ later) :
    LeasesRun tasks leases later :=
  fun id lease held live => runs id lease held (passes.trans_lt live)

/-- A task may be rewritten when its lease is not live afterwards, or it runs. -/
theorem LeasesRun.put {payload : Task} (runs : LeasesRun tasks leases now)
    (fits : ∀ lease, leases.find id = some lease → now < lease.expiresAt →
      payload.status = .running) :
    LeasesRun (tasks.put id (old.replace payload)) leases now := by
  intro other lease held live
  by_cases same : other = id
  · subst same
    exact ⟨_, Table.find_put_self .., fits lease held live⟩
  · obtain ⟨row, found, running⟩ := runs other lease held live
    exact ⟨row, (Table.find_put_ne _ _ same).trans found, running⟩

/-- A lease may be rewritten when it is not live afterwards, or its task runs. -/
theorem LeasesRun.putLease (runs : LeasesRun tasks leases now)
    (fits : now < lease.expiresAt → ∃ row, tasks.find id = some row ∧ row.payload.status = .running) :
    LeasesRun tasks (leases.put id lease) now := by
  intro other found held live
  rcases Table.find_put_cases held with ⟨rfl, rfl⟩ | ⟨-, held⟩
  · exact fits live
  · exact runs other found held live

variable {db : Db} {request : Request} {row : Row Task} {after : Task}

theorem LeasesRun.move (runs : LeasesRun db.tasks db.leases now) (stored : db.tasks.find id = some row)
    (move : TaskMove db now request id row after leases) :
    LeasesRun (db.tasks.put id (row.replace after)) leases now := by
  have ended : ∀ lease : Lease, ¬ now < ({ lease with expiresAt := 0 } : Lease).expiresAt :=
    fun _ => Nat.not_lt_zero now
  cases move with
  | rewritten status =>
    apply runs.put
    intro lease held live
    obtain ⟨same, found, running⟩ := runs id lease held live
    obtain rfl := Option.some.inj (stored.symm.trans found)
    exact status.trans running
  | leased _ free status =>
    apply LeasesRun.putLease
    · apply runs.put
      intro _ _ _
      exact status
    · intro _
      exact ⟨_, Table.find_put_self .., status⟩
  | finished | requeued | recovered =>
    intro other lease held live
    rcases Table.find_put_cases held with ⟨-, rfl⟩ | ⟨distinct, held⟩
    · exact absurd live (ended _)
    · obtain ⟨same, found, running⟩ := runs other lease held live
      exact ⟨same, (Table.find_put_ne _ _ distinct).trans found, running⟩
  | superseded _ free | aborted _ free =>
    apply runs.put
    intro lease held live
    exact absurd live (Nat.not_lt.mpr (free lease held))

variable {env : Env} {actor : Principal}

theorem LeasesRun.change (runs : LeasesRun db.tasks db.leases env.now)
    (change : TaskChange db env actor request tasks leases) : LeasesRun tasks leases env.now := by
  cases change with
  | kept => exact runs
  | created _ _ _ fresh =>
    intro other lease held live
    obtain ⟨row, found, running⟩ := runs other lease held live
    have distinct : other ≠ env.newId 0 := by
      rintro rfl
      simp [fresh] at found
    exact ⟨row, (Table.find_put_ne _ _ distinct).trans found, running⟩
  | renewed held live =>
    apply runs.putLease
    intro _
    exact runs _ _ held live
  | moved stored _ _ move => exact runs.move stored move

end

/-! ### Rows -/

abbrev Claims := Table Id (Row WorkClaim)

/-- Rows are written in place, or added for a slot without a row; a written row is allowed over the one
that it replaces. -/
structure Rewrites (allowed : Option (Row WorkClaim) → Row WorkClaim → Prop) (before after : Claims) :
    Prop where
  kept : Table.Keeps slot before after
  came : ∀ id row, after.find id = some row → before.find id = some row ∨ allowed (before.find id) row
  alone : ∀ id row, after.find id = some row → before.find id = none →
    ∀ other two, after.find other = some two → slot two = slot row → other = id

section
variable {allowed : Option (Row WorkClaim) → Row WorkClaim → Prop} {before after claims : Claims}
  {id : Id} {old : Row WorkClaim}

theorem Rewrites.refl (claims : Claims) : Rewrites allowed claims claims where
  kept := .refl claims
  came := fun _ _ found => .inl found
  alone := by
    intro id row found absent
    simp [absent] at found

theorem Rewrites.replace {new : Row WorkClaim} (stored : claims.find id = some old)
    (placed : slot new = slot old) (fits : allowed (some old) new) :
    Rewrites allowed claims (claims.put id new) where
  kept := .put stored placed
  came := by
    intro other row found
    rcases Table.find_put_cases found with ⟨rfl, rfl⟩ | ⟨-, found⟩
    · rw [stored]
      exact .inr fits
    · exact .inl found
  alone := by
    intro other row found absent
    rcases Table.find_put_cases found with ⟨rfl, -⟩ | ⟨-, found⟩
    · simp [stored] at absent
    · simp [absent] at found

theorem Rewrites.insert {new : Row WorkClaim} (fresh : claims.find id = none)
    (unclaimed : ∀ other row, claims.find other = some row → slot row ≠ slot new)
    (fits : allowed none new) : Rewrites allowed claims (claims.put id new) where
  kept := .put_new fresh
  came := by
    intro other row found
    rcases Table.find_put_cases found with ⟨rfl, rfl⟩ | ⟨-, found⟩
    · rw [fresh]
      exact .inr fits
    · exact .inl found
  alone := by
    intro other row found absent third two there same
    rcases Table.find_put_cases found with ⟨rfl, rfl⟩ | ⟨-, found⟩
    · rcases Table.find_put_cases there with ⟨here, -⟩ | ⟨-, there⟩
      · exact here
      · exact absurd same (unclaimed third two there)
    · simp [absent] at found

/-- No two rows are one branch's claims on one node. -/
def Single (claims : Claims) : Prop :=
  ∀ first second one two, claims.find first = some one → claims.find second = some two →
    slot one = slot two → first = second

theorem Rewrites.single (rewrites : Rewrites allowed before after) (single : Single before) :
    Single after := by
  intro first second one two found there same
  cases old : before.find first with
  | none => exact (rewrites.alone first one found old second two there same.symm).symm
  | some earlier =>
    cases older : before.find second with
    | none => exact rewrites.alone second two there older first one found same
    | some other =>
      obtain ⟨still, here, kept⟩ := rewrites.kept first earlier old
      obtain ⟨also, now, stays⟩ := rewrites.kept second other older
      obtain rfl := Option.some.inj (found.symm.trans here)
      obtain rfl := Option.some.inj (there.symm.trans now)
      exact single first second earlier other old older (kept.symm.trans (same.trans stays))

/-- A property that every allowed row inherits. -/
theorem Rewrites.always {holds : Row WorkClaim → Prop} (rewrites : Rewrites allowed before after)
    (initially : ∀ id row, before.find id = some row → holds row)
    (fits : ∀ prior row, allowed prior row → (∀ old ∈ prior, holds old) → holds row) :
    ∀ id row, after.find id = some row → holds row := by
  intro id row found
  rcases rewrites.came id row found with same | written
  · exact initially id row same
  · exact fits _ row written fun old stored => initially id old stored

end

/-! ### Queries -/

section
variable {desk : Desk} {nodeId branchId id : Id} {node : Row CommonsNode} {row : Row WorkClaim}

theorem claimRow_some (found : desk.claimRow nodeId node branchId = some (id, row)) :
    desk.claims.find id = some row ∧
      slot row = (node.projectId, node.payload.experimentId, nodeId, branchId) := by
  have member := List.mem_of_head? found
  rw [List.mem_insertionSort, Table.mem_select] at member
  exact ⟨member.1, of_decide_eq_true member.2⟩

theorem claimRow_none (absent : desk.claimRow nodeId node branchId = none)
    (found : desk.claims.find id = some row) :
    slot row ≠ (node.projectId, node.payload.experimentId, nodeId, branchId) := by
  intro same
  rw [Desk.claimRow, List.head?_eq_none_iff] at absent
  have member : (id, row) ∈ desk.claims.select fun _ row =>
      slot row = (node.projectId, node.payload.experimentId, nodeId, branchId) := by
    rw [Table.mem_select]
    exact ⟨found, decide_eq_true same⟩
  have listed := (List.mem_insertionSort fun first second : Id × Row WorkClaim =>
    first.1 ≤ second.1).mpr member
  rw [absent] at listed
  cases listed

theorem mem_liveClaimRows {now : Time} {projectId : ProjectId} {experimentId : Id}
    {nodeId branchId : Option Id}
    (listed : (id, row) ∈ desk.liveClaimRows now projectId experimentId nodeId branchId) :
    desk.claims.find id = some row ∧ row.projectId = projectId ∧
      row.payload.experimentId = experimentId ∧ row.payload.live now = true ∧
      (∀ node ∈ nodeId, row.payload.nodeId = node) ∧
      ∀ branch ∈ branchId, row.payload.branchId = branch := by
  have member := List.mem_of_mem_take listed
  rw [List.mem_insertionSort, Table.mem_select] at member
  simpa [Option.all_eq_true, and_assoc] using member

theorem mem_activeClaims {now : Time} {claim : WorkClaim} (listed : claim ∈ desk.activeClaims now nodeId) :
    ∃ node id row, desk.nodes.find nodeId = some node ∧ desk.claims.find id = some row ∧
      row.payload = claim ∧ claim.live now = true ∧
      slot row = (node.projectId, node.payload.experimentId, nodeId, claim.branchId) := by
  unfold Desk.activeClaims at listed
  cases known : desk.nodes.find nodeId with
  | none => simp [known] at listed
  | some node =>
    rw [known, List.mem_insertionSort] at listed
    obtain ⟨⟨id, row⟩, member, rfl⟩ := List.mem_map.mp listed
    obtain ⟨stored, project, experiment, live, placed, -⟩ := mem_liveClaimRows member
    exact ⟨node, id, row, rfl, stored, rfl, live, by simp [slot, project, experiment, placed nodeId rfl]⟩

end


/-! ### Commands -/

section
variable {env : Env} {ttl now : Time} {request : ClaimRequest} {route : Option Text}
  {prior : Option WorkClaim} {held : Bool} {base : WorkClaim}

/-- A claim never outlasts its time box. -/
def Boxed (claim : WorkClaim) : Prop := ∀ box ∈ claim.timeBoxUntil, claim.expiresAt ≤ box

theorem expiry_le (now ttl box : Time) : expiry now ttl (some box) ≤ box := min_le_right _ _

theorem boxed_expiry {claim : WorkClaim} (same : claim.expiresAt = expiry now ttl claim.timeBoxUntil) :
    Boxed claim := by
  intro box boxed
  rw [same, boxed]
  exact expiry_le now ttl box

theorem written_boxed (boxed : Boxed base) :
    Boxed (written env ttl request route prior held base) := by
  unfold written
  split
  · exact boxed
  · exact boxed_expiry rfl
  · exact boxed_expiry rfl

theorem written_place : (written env ttl request route prior held base).experimentId = base.experimentId ∧
    (written env ttl request route prior held base).nodeId = base.nodeId ∧
    (written env ttl request route prior held base).branchId = base.branchId := by
  unfold written
  split <;> exact ⟨rfl, rfl, rfl⟩

/-- The terms of a claim: its route, its start and its time box. -/
def terms (claim : WorkClaim) : Option Text × Option Time × Option Time :=
  (claim.route, claim.claimedAt, claim.timeBoxUntil)

/-- Only the command `claim` sets the terms. -/
theorem written_terms (other : request.action ≠ .claim) :
    terms (written env ttl request route prior held base) = terms base := by
  unfold written
  split
  · rfl
  · rfl
  next claims => exact absurd claims other

end

section
variable {desk : Desk} {env : Env} {actor : Principal} {request : ClaimRequest}
  {followed : Except Failure Bool} {claims : Claims} {reply : ClaimReply}

/-- What a claim command writes: over the branch's stored row, or as its first one. -/
structure Written (desk : Desk) (env : Env) (actor : Principal) (request : ClaimRequest)
    (prior : Option (Row WorkClaim)) (row : Row WorkClaim) : Prop where
  payload : ∃ ttl route base, row.payload = written env ttl request route (prior.map Row.payload)
    (prior.any fun old => old.payload.live env.now) base ∧ (∀ old ∈ prior, base = old.payload) ∧
      (prior = none → Boxed base)
  first : prior = none → request.action = .claim
  held : request.action = .renew → ∃ old ∈ prior, old.payload.live env.now = true
  place : ∀ old ∈ prior, slot row = slot old
  node : row.payload.nodeId = request.nodeId
  owner : row.projectId = actor.projectId ∧ actor.branchId = some row.payload.branchId
  scope : actor.role = .agent → actor.experimentId = some row.payload.experimentId
  society : desk.claimTtlSeconds.find row.payload.experimentId ≠ none

theorem getNode_agent {nodeId : Id} {node : Row CommonsNode}
    (read : desk.commons.getNode nodeId actor = .ok node) :
    desk.nodes.find nodeId = some node ∧ node.projectId = actor.projectId ∧
      (actor.role = .agent → actor.experimentId = some node.payload.experimentId) := by
  obtain ⟨found, project, visible⟩ := Db.getRow_ok.mp read
  refine ⟨found, project, ?_⟩
  intro agent
  simp only [CommonsDb.nodeInScope, Db.inScope, agent, ne_eq, not_true_eq_false, decide_false,
    Bool.false_or] at visible
  split at visible
  · cases visible
  · simp only [Bool.and_eq_true, decide_eq_true_eq] at visible
    exact visible.1.symm

/-- What activity on a node writes: the live claim of the actor's branch, with a new expiry. -/
def Extended (env : Env) (prior : Option (Row WorkClaim)) (row : Row WorkClaim) : Prop :=
  ∃ old ttl, prior = some old ∧ old.payload.live env.now = true ∧
    row = old.replace { old.payload with expiresAt := expiry env.now ttl old.payload.timeBoxUntil }

theorem nodeActivity_rewrites {nodeId : Id} (done : desk.nodeActivity env actor nodeId = .ok claims) :
    Rewrites (Extended env) desk.claims claims := by
  simp only [Desk.nodeActivity, bind_ok] at done
  obtain ⟨_, -, node, -, _, -, after, touched, _, -, same⟩ := done
  obtain rfl := Except.ok.inj same
  unfold Desk.touchNode at touched
  split at touched
  · obtain rfl := Except.ok.inj touched
    exact .refl _
  split at touched
  · obtain rfl := Except.ok.inj touched
    exact .refl _
  split at touched
  · obtain rfl := Except.ok.inj touched
    exact .refl _
  next id row found =>
    split at touched
    · obtain rfl := Except.ok.inj touched
      exact .refl _
    next live =>
      simp only [bind_ok, pure_ok] at touched
      obtain ⟨ttl, -, rfl⟩ := touched
      exact .replace (claimRow_some found).1 rfl ⟨row, ttl, rfl, by simpa using live, rfl⟩

/-- An accepted command writes one row and was authorised at its commit. -/
theorem claimNode_ok (done : desk.claimNode env actor request followed = .ok (claims, reply)) :
    desk.sys.db.checkWorkerEffects env.effects env.commitAt actor = .ok () ∧
      Rewrites (Written desk env actor request) desk.claims claims ∧
      ∃ id row node, claims.find id = some row ∧
        row.payload = reply.claim ∧ Written desk env actor request (desk.claims.find id) row ∧
        desk.nodes.find request.nodeId = some node ∧
        (row.projectId, row.payload.experimentId) = (node.projectId, node.payload.experimentId) := by
  simp only [Desk.claimNode, Desk.claimAction, Desk.ttl, bind_ok, require_ok, exists_const, orThrow_ok,
    pure_ok] at done
  obtain ⟨_, -, route, -, -, branchId, named, _, -, result, ⟨node, read, _, -, -, -, _, -, stored, renewed,
    ttl, ⟨seconds, policy, -⟩, after, wrote, rfl⟩, _, authorised, same⟩ := done
  obtain ⟨rfl, rfl⟩ := Prod.mk.inj same
  obtain ⟨found, project, scope⟩ := getNode_agent read
  have society : desk.claimTtlSeconds.find node.payload.experimentId ≠ none := by simp [policy]
  refine ⟨authorised, ?_⟩
  cases prior : desk.claimRow request.nodeId node branchId with
  | some entry =>
    obtain ⟨id, old⟩ := entry
    obtain ⟨stands, place⟩ := claimRow_some prior
    rw [prior] at wrote stored renewed
    obtain rfl := Except.ok.inj wrote
    simp only [slot, Prod.mk.injEq] at place
    have writes : Written desk env actor request (some old) (old.replace (written env ttl request route
        (some old.payload) (old.payload.live env.now) old.payload)) :=
      { payload := ⟨ttl, route, old.payload, rfl, by simp, by simp⟩
        first := by simp
        held := by simpa using renewed
        place := by simp [slot, written_place]
        node := written_place.2.1.trans place.2.2.1
        owner := ⟨place.1.trans project, by
          rw [Row.replace_payload, written_place.2.2, place.2.2.2, named]⟩
        scope := by
          rw [Row.replace_payload, written_place.1, place.2.1]
          exact scope
        society := by
          rw [Row.replace_payload, written_place.1, place.2.1]
          exact society }
    refine ⟨.replace stands (writes.place old rfl) writes, id, _, node, Table.find_put_self .., rfl, ?_,
      found, ?_⟩
    · rw [stands]
      exact writes
    · simp [written_place, place]
  | none =>
    rw [prior] at wrote stored renewed
    obtain ⟨fresh, rfl⟩ := insertNew_ok.mp wrote
    have first : request.action = .claim := by
      cases action : request.action with
      | claim => rfl
      | renew => exact absurd (renewed action) (by simp)
      | release => exact absurd (stored action) (by simp)
    have writes : Written desk env actor request none
        { projectId := actor.projectId
          payload := written env ttl request route none false
            { experimentId := node.payload.experimentId, nodeId := request.nodeId, branchId
              expiresAt := env.now } } :=
      { payload := ⟨ttl, route, _, rfl, by simp, fun _ box boxed => by cases boxed⟩
        first := fun _ => first
        held := by simp [first]
        place := by simp
        node := written_place.2.1
        owner := ⟨rfl, by simp [written_place, named]⟩
        scope := by simpa [written_place] using scope
        society := by simpa [written_place] using society }
    refine ⟨.insert fresh ?_ writes, _, _, node, Table.find_put_self .., rfl, ?_, found, ?_⟩
    · intro other row stands same
      apply claimRow_none prior stands
      simpa [slot, written_place, project] using same
    · rw [fresh]
      exact writes
    · simp [written_place, project]

end

/-! ### Finished tasks -/

section
variable {desk : Desk} {now : Time} {taskId id : Id} {task : Row Task} {claims : Claims}
  {row : Row WorkClaim}

/-- A claim as the end of the task leaves it. -/
def freed (taskId : Id) (now : Time) (row : Row WorkClaim) : Row WorkClaim :=
  if row.payload.live now = true ∧ (row.payload.taskId = some taskId ∨ row.payload.taskId = none) then
    row.replace { row.payload with released := true }
  else row

theorem freed_cases (taskId : Id) (now : Time) (row : Row WorkClaim) :
    (freed taskId now row = row ∧
        ¬ (row.payload.live now = true ∧
          (row.payload.taskId = some taskId ∨ row.payload.taskId = none))) ∨
      freed taskId now row = row.replace { row.payload with released := true } := by
  unfold freed
  split
  · exact .inr rfl
  next stays => exact .inl ⟨rfl, stays⟩

/-- A claim that is live afterwards was not ended. -/
theorem live_of_freed {later : Time} (live : (freed taskId now row).payload.live later = true) :
    freed taskId now row = row ∧
      ¬ (row.payload.live now = true ∧
        (row.payload.taskId = some taskId ∨ row.payload.taskId = none)) := by
  rcases freed_cases taskId now row with stays | ended
  · exact stays
  · rw [ended] at live
    simp [WorkClaim.live] at live

theorem freed_freed : freed taskId now (freed taskId now row) = freed taskId now row := by
  rcases freed_cases taskId now row with ⟨same, -⟩ | ended
  · rw [same, same]
  · rw [ended]
    simp [freed, WorkClaim.live]

theorem freed_slot : slot (freed taskId now row) = slot row := by
  unfold freed
  split <;> rfl

theorem find_releaseRow (other : Id) : (Desk.releaseRow taskId now claims id).find other =
    if other = id then (claims.find other).map (freed taskId now) else claims.find other := by
  unfold Desk.releaseRow freed
  split
  next absent =>
    split
    next same => simp [same, absent]
    · rfl
  next row stored =>
    by_cases same : other = id
    · subst same
      rw [if_pos rfl, stored]
      split <;> simp_all
    · rw [if_neg same]
      split
      · exact Table.find_put_ne _ _ same
      · rfl

theorem find_releaseRows (ids : List Id) (claims : Claims) (other : Id) :
    (ids.foldl (Desk.releaseRow taskId now) claims).find other =
      if other ∈ ids then (claims.find other).map (freed taskId now) else claims.find other := by
  induction ids generalizing claims with
  | nil => rfl
  | cons id ids ih =>
    rw [List.foldl_cons, ih, find_releaseRow]
    by_cases same : other = id
    · subst same
      cases found : claims.find other <;> simp [freed_freed]
    · simp [same]

/-- What the end of a task writes. -/
def Freed (taskId : Id) (now : Time) (prior : Option (Row WorkClaim)) (row : Row WorkClaim) : Prop :=
  ∃ old, prior = some old ∧ row = freed taskId now old

theorem releaseTaskClaims_rewrites :
    Rewrites (Freed taskId now) desk.claims (desk.releaseTaskClaims now taskId task) := by
  unfold Desk.releaseTaskClaims
  split
  · exact .refl _
  constructor
  · intro id old stored
    rw [find_releaseRows, stored]
    split
    · exact ⟨_, rfl, freed_slot⟩
    · exact ⟨_, rfl, rfl⟩
  · intro id row found
    rw [find_releaseRows] at found
    split at found
    · right
      obtain ⟨old, stored, rfl⟩ := Option.map_eq_some_iff.mp found
      exact ⟨old, stored, rfl⟩
    · exact .inl found
  · intro id row found absent
    rw [find_releaseRows, absent] at found
    split at found <;> simp at found

/-- The live claims of a branch in an experiment. -/
def branchClaims (desk : Desk) (now : Time) (projectId : ProjectId) (experimentId branchId : Id) :
    List (Id × Row WorkClaim) :=
  desk.claims.select fun _ row => row.projectId = projectId && row.payload.experimentId = experimentId &&
    row.payload.live now && row.payload.branchId = branchId

theorem mem_liveClaimRows_branch {projectId : ProjectId} {experimentId branchId : Id}
    (few : (branchClaims desk now projectId experimentId branchId).length ≤ Inbox.maxLiveClaims)
    (stored : (id, row) ∈ branchClaims desk now projectId experimentId branchId) :
    (id, row) ∈ desk.liveClaimRows now projectId experimentId none (some branchId) := by
  unfold Desk.liveClaimRows
  have same : (desk.claims.select fun _ row => row.projectId = projectId &&
      row.payload.experimentId = experimentId && row.payload.live now &&
        (none : Option Id).all (row.payload.nodeId = ·) && (some branchId).all (row.payload.branchId = ·)) =
      branchClaims desk now projectId experimentId branchId := by
    simp [branchClaims]
  rw [same, List.take_of_length_le (by rwa [List.length_insertionSort]), List.mem_insertionSort]
  exact stored

/-- The claims that the end of a task leaves live are another task's. -/
theorem releaseTaskClaims_frees {later : Time}
    (society : desk.claimTtlSeconds.find task.payload.experimentId ≠ none)
    (few : (branchClaims desk now task.projectId task.payload.experimentId
      task.payload.branchId).length ≤ Inbox.maxLiveClaims)
    (passes : now ≤ later)
    (found : (desk.releaseTaskClaims now taskId task).find id = some row)
    (live : row.payload.live later = true)
    (place : (row.projectId, row.payload.experimentId, row.payload.branchId) = home task) :
    ¬ (row.payload.taskId = some taskId ∨ row.payload.taskId = none) := by
  rw [Desk.releaseTaskClaims, if_neg society, find_releaseRows] at found
  have earlier : ∀ old : Row WorkClaim, old.payload.live later = true → old.payload.live now = true := by
    intro old
    simp only [WorkClaim.live, Bool.and_eq_true, decide_eq_true_eq]
    exact And.imp_right passes.trans_lt
  split at found
  next listed =>
    obtain ⟨old, stored, rfl⟩ := Option.map_eq_some_iff.mp found
    obtain ⟨same, stays⟩ := live_of_freed live
    rw [same] at live ⊢
    exact fun owned => stays ⟨earlier old live, owned⟩
  next missed =>
    have member : (id, row) ∈ branchClaims desk now task.projectId task.payload.experimentId
        task.payload.branchId := by
      simp only [home, Prod.mk.injEq] at place
      rw [branchClaims, Table.mem_select]
      exact ⟨found, by simp [place, earlier row live]⟩
    exact absurd (List.mem_map_of_mem (mem_liveClaimRows_branch few member)) missed

end

/-! ### Steps -/

/-- How a step writes a claim over the one that it replaces. -/
def Steps (desk : Desk) (label : DeskLabel) (prior : Option (Row WorkClaim)) (row : Row WorkClaim) :
    Prop :=
  match label with
  | .claim env actor request _ => Written desk env actor request prior row
  | .activity env _ _ => Extended env prior row
  | .service _ | .block .. => ∃ taskId now, Freed taskId now prior row
  | .society .. | .node .. => False

section
variable {desk : Desk} {label : DeskLabel} {env : Env}

theorem Rewrites.imp {first second : Option (Row WorkClaim) → Row WorkClaim → Prop}
    {before after : Claims} (rewrites : Rewrites first before after)
    (implies : ∀ prior row, first prior row → second prior row) : Rewrites second before after where
  kept := rewrites.kept
  came := fun id row found => (rewrites.came id row found).imp_right (implies _ row)
  alone := rewrites.alone

/-- A transaction is refused or comes untimely, or it commits. -/
theorem timed_cases (desk : Desk) (env : Env) (result : Except Failure Desk) :
    desk.timed env result = desk ∨ ∃ done, result = .ok done ∧ desk.sys.timely env ∧
      desk.timed env result = { done with sys := { done.sys with now := env.commitAt } } := by
  unfold Desk.timed
  split
  next timely =>
    cases result with
    | error => exact .inl rfl
    | ok done => exact .inr ⟨done, rfl, timely, rfl⟩
  · exact .inl rfl

/-- As `timed_cases`, of a transaction that makes the state from its result. -/
theorem timed_map {α : Type} (desk : Desk) (env : Env) (result : Except Failure α) (next : α → Desk) :
    desk.timed env (result.map next) = desk ∨ ∃ done, result = .ok done ∧ desk.sys.timely env ∧
      desk.timed env (result.map next) =
        { next done with sys := { (next done).sys with now := env.commitAt } } := by
  rcases timed_cases desk env (result.map next) with same | ⟨done, ran, timely, same⟩
  · exact .inl same
  · cases result with
    | error => simp [Except.map] at ran
    | ok value =>
      obtain rfl := Except.ok.inj ran
      exact .inr ⟨value, rfl, timely, same⟩

/-- A blocked task was queued, and its claims are released. -/
theorem blockTask_ok {actor : Principal} {taskId : Id} {code : String} {after : Desk}
    (done : desk.blockTask env actor taskId code = .ok after) :
    after = desk ∨ ∃ task, desk.sys.db.tasks.find taskId = some task ∧
      task.payload.status = .queued ∧
      after = { desk with
        sys := { desk.sys with db := { desk.sys.db with
          tasks := desk.sys.db.tasks.put taskId (task.replace (dispatchBlocked task.payload code)) } }
        claims := desk.releaseTaskClaims env.now taskId
          (task.replace (dispatchBlocked task.payload code)) } := by
  simp only [Desk.blockTask, bind_ok] at done
  obtain ⟨_, -, task, read, done⟩ := done
  split at done
  · exact .inl (Except.ok.inj done).symm
  next queued =>
    obtain ⟨_, -, same⟩ := bind_ok.mp done
    exact .inr ⟨task, Db.getRow_find read, not_not.mp queued, (Except.ok.inj same).symm⟩

/-- The desk after a task was blocked, whose claims are released. -/
def Desk.blocked (desk : Desk) (env : Env) (taskId : Id) (task : Row Task) : Desk :=
  { desk with
    sys := { desk.sys with db := { desk.sys.db with tasks := desk.sys.db.tasks.put taskId task } }
    claims := desk.releaseTaskClaims env.now taskId task }

/-- A transaction commits, and the clock moves on. -/
def Desk.committed (desk : Desk) (env : Env) : Desk :=
  { desk with sys := { desk.sys with now := env.commitAt } }

/-- What a step does, by its label. A step is still when it is refused or untimely, and in the cases of a
society and of a node when it would change what is given once. -/
inductive Moves [ContentHash] (desk : Desk) : DeskLabel → Desk → Prop
  | still (label : DeskLabel) : Moves desk label desk
  | service (label : Label) : Moves desk (.service label)
      { desk with sys := desk.sys.step label, claims := desk.releasing (desk.finished label) }
  /-- The task was dispatched meanwhile. -/
  | dispatched {env : Env} {actor : Principal} {taskId : Id} {code : String}
      (timely : desk.sys.timely env) : Moves desk (.block env actor taskId code) (desk.committed env)
  | block {env : Env} {actor : Principal} {taskId : Id} {code : String} {task : Row Task}
      (timely : desk.sys.timely env) (stored : desk.sys.db.tasks.find taskId = some task)
      (queued : task.payload.status = .queued) :
      Moves desk (.block env actor taskId code)
        ((desk.blocked env taskId (task.replace (dispatchBlocked task.payload code))).committed env)
  | claim {env : Env} {actor : Principal} {request : ClaimRequest} {followed : Except Failure Bool}
      {done : Claims × ClaimReply} (timely : desk.sys.timely env)
      (accepted : desk.claimNode env actor request followed = .ok done) :
      Moves desk (.claim env actor request followed)
        (Desk.committed { desk with claims := done.1 } env)
  | activity {env : Env} {actor : Principal} {nodeId : Id} {claims : Claims}
      (timely : desk.sys.timely env) (accepted : desk.nodeActivity env actor nodeId = .ok claims) :
      Moves desk (.activity env actor nodeId) (Desk.committed { desk with claims } env)
  | society {experimentId : Id} {seconds : Nat} (absent : desk.claimTtlSeconds.find experimentId = none) :
      Moves desk (.society experimentId seconds)
        { desk with claimTtlSeconds := desk.claimTtlSeconds.put experimentId seconds }
  | node {nodeId : Id} {row : Row CommonsNode}
      (place : ∀ stored ∈ desk.nodes.find nodeId, stored.projectId = row.projectId ∧
        stored.payload.experimentId = row.payload.experimentId) :
      Moves desk (.node nodeId row) { desk with nodes := desk.nodes.put nodeId row }

theorem step_moves [ContentHash] (desk : Desk) (label : DeskLabel) : Moves desk label (desk.step label) := by
  cases label with
  | service label => exact .service label
  | block env actor taskId code =>
    rw [Desk.step]
    rcases timed_cases desk env (desk.blockTask env actor taskId code) with same | ⟨done, ran, timely, same⟩
    · rw [same]
      exact .still _
    · rw [same]
      rcases blockTask_ok ran with rfl | ⟨task, stored, queued, rfl⟩
      · exact .dispatched timely
      · exact .block timely stored queued
  | claim env actor request followed =>
    rw [Desk.step]
    rcases timed_map desk env (desk.claimNode env actor request followed) fun done =>
      { desk with claims := done.1 } with same | ⟨done, accepted, timely, same⟩
    · rw [same]
      exact .still _
    · rw [same]
      exact .claim timely accepted
  | activity env actor nodeId =>
    rw [Desk.step]
    rcases timed_map desk env (desk.nodeActivity env actor nodeId) fun claims =>
      { desk with claims } with same | ⟨done, accepted, timely, same⟩
    · rw [same]
      exact .still _
    · rw [same]
      exact .activity timely accepted
  | society experimentId seconds =>
    rw [Desk.step]
    split
    · exact .still _
    next absent => exact .society absent
  | node nodeId row =>
    rw [Desk.step]
    split
    next stored found =>
      split
      next place =>
        apply Moves.node
        intro other same
        obtain rfl := Option.some.inj (found.symm.trans same)
        exact place
      · exact .still _
    next absent =>
      apply Moves.node
      simp [absent]

theorem Freed.terms {taskId : Id} {now : Time} {old row : Row WorkClaim}
    (freed : Freed taskId now (some old) row) :
    WorkClaims.terms row.payload = WorkClaims.terms old.payload ∧
      row.payload.expiresAt = old.payload.expiresAt ∧
      row.payload.taskId = old.payload.taskId := by
  obtain ⟨_, same, rfl⟩ := freed
  obtain rfl := Option.some.inj same
  rcases freed_cases taskId now old with ⟨stays, -⟩ | ended
  · rw [stays]
    exact ⟨rfl, rfl, rfl⟩
  · rw [ended]
    exact ⟨rfl, rfl, rfl⟩

/-- A claim within its box stays within its box. -/
theorem Steps.boxed {prior : Option (Row WorkClaim)} {row : Row WorkClaim}
    (steps : Steps desk label prior row) (boxed : ∀ old ∈ prior, Boxed old.payload) :
    Boxed row.payload := by
  cases label with
  | claim env actor request followed =>
    obtain ⟨ttl, route, base, same, stored, new⟩ := Written.payload steps
    rw [same]
    apply written_boxed
    cases prior with
    | none => exact new rfl
    | some old => exact stored old rfl ▸ boxed old rfl
  | activity =>
    obtain ⟨old, ttl, -, -, rfl⟩ := steps
    exact boxed_expiry rfl
  | service | block =>
    obtain ⟨taskId, now, old, rfl, freed⟩ := steps
    have kept := Freed.terms ⟨old, rfl, freed⟩
    intro box inside
    rw [kept.2.1]
    apply boxed old rfl
    have same := congrArg (fun terms => terms.2.2) kept.1
    exact same.symm.trans inside
  | society | node => exact steps.elim

/-- A written claim is that of a society. -/
theorem Steps.policied {prior : Option (Row WorkClaim)} {row : Row WorkClaim}
    (steps : Steps desk label prior row)
    (policied : ∀ old ∈ prior, desk.claimTtlSeconds.find old.payload.experimentId ≠ none) :
    desk.claimTtlSeconds.find row.payload.experimentId ≠ none := by
  cases label with
  | claim => exact Written.society steps
  | activity =>
    obtain ⟨old, ttl, rfl, -, rfl⟩ := steps
    exact policied old rfl
  | service | block =>
    obtain ⟨taskId, now, old, rfl, rfl⟩ := steps
    have same : slot (freed taskId now old) = slot old := freed_slot
    simp only [slot, Prod.mk.injEq] at same
    rw [same.2.1]
    exact policied old rfl
  | society | node => exact steps.elim

variable [ContentHash]

theorem step_rewrites (desk : Desk) (label : DeskLabel) :
    Rewrites (Steps desk label) desk.claims (desk.step label).claims := by
  have moves := step_moves desk label
  generalize desk.step label = after at moves
  cases moves with
  | still | dispatched | society | node => exact .refl _
  | service label =>
    dsimp only
    cases desk.finished label with
    | none => exact .refl _
    | some ended => exact releaseTaskClaims_rewrites.imp fun prior row freed => ⟨_, _, freed⟩
  | block => exact releaseTaskClaims_rewrites.imp fun prior row freed => ⟨_, _, freed⟩
  | claim timely accepted => exact (claimNode_ok accepted).2.1
  | activity timely accepted => exact nodeActivity_rewrites accepted

end

/-! ### What every state keeps -/

section
variable [ContentHash] {sys : Sys}

/-- The task that a step of the harness may finish. -/
def ending (sys : Sys) : Label → Option Id
  | .command _ _ _ request => finishes sys.db request
  | _ => none

theorem serve_tasks (label : Label) (runs : LeasesRun sys.db.tasks sys.db.leases sys.now) :
    LeasesRun (sys.step label).db.tasks (sys.step label).db.leases (sys.step label).now ∧
      TasksKept (ending sys label) sys.db.tasks (sys.step label).db.tasks := by
  have passes := sys.now_le_step label
  apply sys.step_preserves fun db => LeasesRun db.tasks db.leases (sys.step label).now ∧
    TasksKept (ending sys label) sys.db.tasks db.tasks
  · exact ⟨runs.mono passes, .refl _ _⟩
  · rintro env actor key request changed commands reply rfl timely performs
    have kept := performs_tasksKept performs
    have changes := (runs.mono timely.1).change (performs_tasks performs)
    rw [Sys.step_command_now timely]
    exact ⟨changes.mono timely.2, kept⟩
  · rintro env step after rfl timely commits
    obtain ⟨tasks, leases, -, -⟩ := commits.untouched
    rw [tasks, leases]
    exact ⟨runs.mono passes, .refl _ _⟩
  · rintro write rfl
    rcases notedTasks_cases sys.db.tasks write.notes with same | ⟨taskId, row, fields, stored, same⟩
    · rw [Db.written, same]
      exact ⟨runs.mono passes, .refl _ _⟩
    · rw [Db.written, same]
      constructor
      · apply (runs.mono passes).put
        intro lease held live
        obtain ⟨old, found, running⟩ := runs taskId lease held (passes.trans_lt live)
        obtain rfl := Option.some.inj (stored.symm.trans found)
        exact running
      · exact .put stored rfl fun terminal _ => terminal

/-- Leases are of running tasks, a branch has one claim on a node, no claim outlasts its box, and claims
are those of societies. -/
structure Tidy (desk : Desk) : Prop where
  runs : LeasesRun desk.sys.db.tasks desk.sys.db.leases desk.sys.now
  single : Single desk.claims
  boxed : ∀ id row, desk.claims.find id = some row → Boxed row.payload
  policied : ∀ id row, desk.claims.find id = some row →
    desk.claimTtlSeconds.find row.payload.experimentId ≠ none

variable {desk : Desk} {label : DeskLabel}

theorem step_runs (runs : LeasesRun desk.sys.db.tasks desk.sys.db.leases desk.sys.now) :
    LeasesRun (desk.step label).sys.db.tasks (desk.step label).sys.db.leases
      (desk.step label).sys.now := by
  have moves := step_moves desk label
  generalize desk.step label = after at moves
  cases moves with
  | still | society | node => exact runs
  | service label => exact (serve_tasks label runs).1
  | dispatched timely | claim timely | activity timely => exact runs.mono (timely.1.trans timely.2)
  | block timely stored queued =>
    have passes := timely.1.trans timely.2
    apply (runs.mono passes).put
    intro lease held live
    -- the lease of a queued task is not live
    obtain ⟨old, found, running⟩ := runs _ lease held (passes.trans_lt live)
    obtain rfl := Option.some.inj (stored.symm.trans found)
    rw [queued] at running
    cases running

/-- The policy of a society stands, and no other label gives one. -/
theorem step_policies {experimentId : Id} (policy : desk.claimTtlSeconds.find experimentId ≠ none) :
    (desk.step label).claimTtlSeconds.find experimentId ≠ none := by
  have moves := step_moves desk label
  generalize desk.step label = after at moves
  cases moves with
  | society =>
    dsimp only
    rw [Table.find_put]
    split
    · simp
    · exact policy
  | still | service | dispatched | block | claim | activity | node => exact policy

theorem Tidy.step (tidy : Tidy desk) (label : DeskLabel) : Tidy (desk.step label) where
  runs := step_runs tidy.runs
  single := (step_rewrites desk label).single tidy.single
  boxed := (step_rewrites desk label).always tidy.boxed fun _ _ => Steps.boxed
  policied := by
    intro id row found
    apply step_policies
    exact (step_rewrites desk label).always tidy.policied (fun _ _ => Steps.policied) id row found

theorem tidy_reached (labels : List DeskLabel) : Tidy (Desk.reached labels) := by
  apply Transition.run_always Tidy labels
  · exact
      { runs := fun _ _ held => by simp at held
        single := fun _ _ _ _ found => by simp at found
        boxed := fun _ _ found => by simp at found
        policied := fun _ _ found => by simp at found }
  · exact fun _ label tidy => tidy.step label

end

/-! ### Time boxes -/

/-- The label claims the node anew for the branch. -/
def DeskLabel.Reclaims (nodeId : Id) (branchId : Option Id) : DeskLabel → Prop
  | .claim _ actor request _ =>
    request.action = .claim ∧ request.nodeId = nodeId ∧ actor.branchId = branchId
  | _ => False

instance (nodeId : Id) (branchId : Option Id) (label : DeskLabel) :
    Decidable (label.Reclaims nodeId branchId) := by
  cases label <;> unfold DeskLabel.Reclaims <;> infer_instance

section
variable [ContentHash] {desk : Desk} {label : DeskLabel} {id nodeId : Id} {branchId : Option Id}
  {row : Row WorkClaim}

/-- Renewals, releases, activity and finished tasks leave the terms of a claim. -/
theorem step_terms (stored : desk.claims.find id = some row)
    (others : ¬ label.Reclaims row.payload.nodeId (some row.payload.branchId)) :
    ∃ still, (desk.step label).claims.find id = some still ∧ slot still = slot row ∧
      terms still.payload = terms row.payload := by
  have rewrites := step_rewrites desk label
  obtain ⟨still, found, place⟩ := rewrites.kept id row stored
  refine ⟨still, found, place, ?_⟩
  rcases rewrites.came id still found with same | steps
  · rw [Option.some.inj (same.symm.trans stored)]
  rw [stored] at steps
  cases label with
  | claim env actor request followed =>
    obtain ⟨ttl, route, base, same, earlier, -⟩ := Written.payload steps
    rw [same, written_terms, earlier row rfl]
    intro claims
    apply others
    simp only [slot, Prod.mk.injEq] at place
    constructor
    · exact claims
    constructor
    · exact (Written.node steps).symm.trans place.2.2.1
    · exact (Written.owner steps).2.trans (congrArg some place.2.2.2)
  | activity =>
    obtain ⟨old, ttl, same, -, rfl⟩ := steps
    obtain rfl := Option.some.inj same
    rfl
  | service | block =>
    obtain ⟨taskId, now, freed⟩ := steps
    exact freed.terms.1
  | society | node => exact steps.elim

theorem run_terms {labels : List DeskLabel} (stored : desk.claims.find id = some row)
    (others : ∀ label ∈ labels, ¬ label.Reclaims row.payload.nodeId (some row.payload.branchId)) :
    ∃ still, (Transition.run Desk.step desk labels).claims.find id = some still ∧
      slot still = slot row ∧ terms still.payload = terms row.payload := by
  induction labels generalizing desk row with
  | nil => exact ⟨row, stored, rfl, rfl⟩
  | cons label labels ih =>
    obtain ⟨next, found, place, same⟩ := step_terms stored (others label List.mem_cons_self)
    have there : next.payload.nodeId = row.payload.nodeId ∧
        next.payload.branchId = row.payload.branchId := by
      simp only [slot, Prod.mk.injEq] at place
      exact place.2.2
    obtain ⟨still, reached, stays, kept⟩ := ih found fun later member => by
      rw [there.1, there.2]
      exact others later (List.mem_cons_of_mem _ member)
    exact ⟨still, reached, stays.trans place, kept.trans same⟩

/-- Where a node is. -/
def nodePlace (node : Row CommonsNode) : ProjectId × Id := (node.projectId, node.payload.experimentId)

theorem step_nodes (desk : Desk) (label : DeskLabel) :
    Table.Keeps nodePlace desk.nodes (desk.step label).nodes := by
  have moves := step_moves desk label
  generalize desk.step label = after at moves
  cases moves with
  | @node nodeId row place =>
    cases found : desk.nodes.find nodeId with
    | none => exact .put_new found
    | some stored =>
      have same := place stored found
      exact .put found (Prod.ext same.1.symm same.2.symm)
  | still | service | dispatched | block | claim | activity | society => exact .refl _

theorem run_nodes (desk : Desk) (labels : List DeskLabel) :
    Table.Keeps nodePlace desk.nodes (Transition.run Desk.step desk labels).nodes := by
  induction labels generalizing desk with
  | nil => exact .refl _
  | cons label labels ih => exact (step_nodes desk label).trans (ih _)

theorem step_claim {env : Env} {actor : Principal} {request : ClaimRequest}
    {followed : Except Failure Bool} {done : Claims × ClaimReply} (timely : desk.sys.timely env)
    (accepted : desk.claimNode env actor request followed = .ok done) :
    desk.step (.claim env actor request followed) =
      { desk with claims := done.1, sys := { desk.sys with now := env.commitAt } } := by
  rw [Desk.step, accepted]
  unfold Desk.timed
  rw [if_pos timely]
  rfl

/-- The end of a time box. -/
def boxEnd (env : Env) (minutes : Int) : Time := env.now + 60 * minutes.toNat * Time.second

/-- A time box ends a claim. Until the branch claims the node again the claim keeps its route and its
box, whatever renews it, and from the end of the box on the branch is no claimant of the node. -/
theorem timeBox_ends {first second : List DeskLabel} {env : Env} {actor : Principal}
    {request : ClaimRequest} {followed : Except Failure Bool} {done : Claims × ClaimReply} {minutes : Int}
    (timely : (Desk.reached first).sys.timely env)
    (accepted : (Desk.reached first).claimNode env actor request followed = .ok done)
    (claims : request.action = .claim) (boxed : request.timeBoxMinutes = some minutes)
    (others : ∀ label ∈ second, ¬ label.Reclaims request.nodeId actor.branchId) :
    (∃ id row, (Desk.reached (first ++ .claim env actor request followed :: second)).claims.find id =
        some row ∧ row.payload.nodeId = request.nodeId ∧ actor.branchId = some row.payload.branchId ∧
        terms row.payload = (done.2.claim.route, some env.now, some (boxEnd env minutes))) ∧
      ∀ now, boxEnd env minutes ≤ now →
        ∀ claim ∈ (Desk.reached (first ++ .claim env actor request followed :: second)).activeClaims now
          request.nodeId, actor.branchId ≠ some claim.branchId := by
  obtain ⟨-, -, id, row, node, stored, told, writes, known, place⟩ := claimNode_ok accepted
  have begun : terms row.payload = (done.2.claim.route, some env.now, some (boxEnd env minutes)) := by
    rw [← told]
    obtain ⟨ttl, route, base, same, -, -⟩ := writes.payload
    rw [same]
    simp [written, claims, boxed, terms, boxEnd]
  have split : Desk.reached (first ++ .claim env actor request followed :: second) =
      Transition.run Desk.step ((Desk.reached first).step (.claim env actor request followed)) second := by
    rw [Desk.reached, Transition.run_append, Transition.run_cons]
    rfl
  have tidy := tidy_reached (first ++ .claim env actor request followed :: second)
  obtain ⟨after, committed, rows, nodes⟩ : ∃ after : Desk,
      (Desk.reached first).step (.claim env actor request followed) = after ∧ after.claims = done.1 ∧
        after.nodes = (Desk.reached first).nodes := ⟨_, step_claim timely accepted, rfl, rfl⟩
  rw [split, committed] at tidy ⊢
  rw [← rows] at stored
  rw [← nodes] at known
  obtain ⟨still, found, slotted, kept⟩ := run_terms stored fun label member => by
    rw [writes.node, ← writes.owner.2]
    exact others label member
  have there : still.payload.nodeId = request.nodeId ∧ actor.branchId = some still.payload.branchId := by
    simp only [slot, Prod.mk.injEq] at slotted
    exact ⟨slotted.2.2.1.trans writes.node, writes.owner.2.trans (congrArg some slotted.2.2.2.symm)⟩
  constructor
  · exact ⟨id, still, found, there.1, there.2, kept.trans begun⟩
  · intro now past claim listed owned
    obtain ⟨node', other, entry, known', stored', rfl, live, slotted'⟩ := mem_activeClaims listed
    obtain ⟨stays, here, placed⟩ := run_nodes _ second request.nodeId node known
    obtain rfl := Option.some.inj (known'.symm.trans here)
    -- the branch has one claim on the node, and it does not outlast its box
    have same : other = id := by
      apply tidy.single other id entry still stored' found
      rw [slotted', slotted]
      simp only [nodePlace, Prod.mk.injEq] at placed place
      simp only [slot, Prod.mk.injEq]
      refine ⟨placed.1.trans place.1.symm, placed.2.trans place.2.symm, writes.node.symm, ?_⟩
      exact Option.some.inj (owned.symm.trans writes.owner.2)
    subst same
    obtain rfl := Option.some.inj (stored'.symm.trans found)
    have ended := tidy.boxed other entry found (boxEnd env minutes)
      (congrArg (fun terms => terms.2.2) (kept.trans begun))
    simp only [WorkClaim.live, Bool.and_eq_true, decide_eq_true_eq] at live
    exact absurd (live.2.trans_le (ended.trans past)) (lt_irrefl now)

end

/-! ### Finished tasks have no live claim -/

/-- A claim names a task of its branch, and a live claim names one that is not finished. -/
structure Attributed (tasks : Table Id (Row Task)) (claims : Claims) (now : Time) : Prop where
  homes : ∀ id row, claims.find id = some row → ∀ taskId ∈ row.payload.taskId,
    ∃ task, tasks.find taskId = some task ∧
      home task = (row.projectId, row.payload.experimentId, row.payload.branchId)
  active : ∀ id row, claims.find id = some row → row.payload.live now = true →
    ∀ taskId ∈ row.payload.taskId, ∀ task, tasks.find taskId = some task →
      task.payload.status.terminal = false

section
variable {before after : Table Id (Row Task)} {claims : Claims} {now later : Time} {row : Row WorkClaim}

theorem live_earlier (live : row.payload.live later = true) (passes : now ≤ later) :
    row.payload.live now = true := by
  simp only [WorkClaim.live, Bool.and_eq_true, decide_eq_true_eq] at live ⊢
  exact ⟨live.1, passes.trans_lt live.2⟩

theorem Attributed.mono (attributed : Attributed before claims now) (passes : now ≤ later) :
    Attributed before claims later where
  homes := attributed.homes
  active := fun id row found live => attributed.active id row found (live_earlier live passes)

/-- A row that takes its place and its task from a stored one names a task of its branch. -/
theorem Attributed.inherited {id : Id} {old : Row WorkClaim} (attributed : Attributed before claims now)
    (stored : claims.find id = some old) (place : slot row = slot old)
    (same : row.payload.taskId = old.payload.taskId) :
    ∀ taskId ∈ row.payload.taskId, ∃ task, before.find taskId = some task ∧
      home task = (row.projectId, row.payload.experimentId, row.payload.branchId) := by
  intro taskId named
  rw [same] at named
  simp only [slot, Prod.mk.injEq] at place
  rw [place.1, place.2.1, place.2.2.2]
  exact attributed.homes id old stored taskId named

/-- Tasks change, and none is finished. -/
theorem Attributed.carry (attributed : Attributed before claims now)
    (homes : Table.Keeps home before after)
    (ended : ∀ id row, after.find id = some row → row.payload.status.terminal = true →
      ∃ old, before.find id = some old ∧ old.payload.status.terminal = true) :
    Attributed after claims now where
  homes := by
    intro id row found taskId named
    obtain ⟨task, stored, place⟩ := attributed.homes id row found taskId named
    obtain ⟨still, here, same⟩ := homes taskId task stored
    exact ⟨still, here, same.trans place⟩
  active := by
    intro id row found live taskId named task stored
    by_contra terminal
    obtain ⟨old, there, past⟩ := ended taskId task stored (by simpa using terminal)
    have runs := attributed.active id row found live taskId named old there
    rw [past] at runs
    cases runs

/-- A task is finished and its claims are released. -/
theorem Attributed.finish {desk : Desk} {taskId : Id} {task : Row Task}
    (attributed : Attributed before desk.claims now)
    (policied : ∀ id row, desk.claims.find id = some row →
      desk.claimTtlSeconds.find row.payload.experimentId ≠ none)
    (kept : TasksKept (some taskId) before after) (finished : after.find taskId = some task)
    (few : (branchClaims desk now task.projectId task.payload.experimentId
      task.payload.branchId).length ≤ Inbox.maxLiveClaims) (passes : now ≤ later) :
    Attributed after (desk.releaseTaskClaims now taskId task) later := by
  have came : ∀ id row, (desk.releaseTaskClaims now taskId task).find id = some row →
      ∃ old, desk.claims.find id = some old ∧ slot row = slot old ∧
        row.payload.taskId = old.payload.taskId ∧
        (row.payload.live later = true → row = old) := by
    intro id row found
    rcases releaseTaskClaims_rewrites.came id row found with same | ⟨old, stored, rfl⟩
    · exact ⟨row, same, rfl, rfl, fun _ => rfl⟩
    · exact ⟨old, stored, freed_slot, (Freed.terms ⟨old, rfl, rfl⟩).2.2, fun live => (live_of_freed live).1⟩
  have homes : ∀ id row, (desk.releaseTaskClaims now taskId task).find id = some row →
      ∀ named ∈ row.payload.taskId, ∃ owner, after.find named = some owner ∧
        home owner = (row.projectId, row.payload.experimentId, row.payload.branchId) := by
    intro id row found named names
    obtain ⟨old, stored, place, same, -⟩ := came id row found
    obtain ⟨owner, known, there⟩ := attributed.inherited stored place same named names
    obtain ⟨still, here, stays⟩ := kept.homes named owner known
    exact ⟨still, here, stays.trans there⟩
  refine ⟨homes, ?_⟩
  intro id row found live named names owner stored
  by_contra terminal
  obtain ⟨old, there, -, -, same⟩ := came id row found
  -- A live row was not released.
  obtain rfl := same live
  by_cases this : named = taskId
  · subst this
    -- The finished task's own claim is among those that were read and released.
    obtain rfl := Option.some.inj (finished.symm.trans stored)
    obtain ⟨_, known, place⟩ := homes id row found named names
    obtain rfl := Option.some.inj (finished.symm.trans known)
    have society : desk.claimTtlSeconds.find task.payload.experimentId ≠ none := by
      have same := congrArg (fun place => place.2.1) place
      dsimp only [home] at same
      rw [same]
      exact policied id row there
    apply releaseTaskClaims_frees society few passes found live place.symm
    exact .inl (Option.mem_def.mp names)
  · obtain ⟨earlier, known, past⟩ := kept.ended named owner stored (by simpa using terminal)
      fun same => this (Option.some.inj same).symm
    have runs := attributed.active id row there (live_earlier live passes) named names earlier known
    rw [past] at runs
    cases runs

end

section
variable {desk : Desk}

/-- A bound claimant's task runs, and it is the task of the claimant's branch. -/
theorem bound_running {env : Env} {actor : Principal} {binding : WorkerEffects}
    (runs : LeasesRun desk.sys.db.tasks desk.sys.db.leases desk.sys.now) (timely : desk.sys.timely env)
    (authorised : desk.sys.db.checkWorkerEffects (some binding) env.commitAt actor = .ok ())
    (agent : actor.role = .agent) :
    ∃ task, desk.sys.db.tasks.find binding.taskId = some task ∧ task.payload.status = .running ∧
      task.projectId = actor.projectId ∧ actor.experimentId = some task.payload.experimentId ∧
      actor.branchId = some task.payload.branchId := by
  obtain ⟨-, lease, held⟩ := checkWorkerEffects_some authorised
  obtain ⟨leased, -, -, live⟩ := Db.fenced_ok.mp held
  simp only [Db.checkWorkerEffects, bind_ok, require_ok, exists_const] at authorised
  obtain ⟨-, task, read, scope, -⟩ := authorised
  obtain ⟨found, project, -⟩ := Db.getRow_ok.mp read
  obtain ⟨row, stored, running⟩ := runs _ lease leased ((timely.1.trans timely.2).trans_lt live)
  obtain rfl := Option.some.inj (found.symm.trans stored)
  exact ⟨task, found, running, project, (scope agent).1, (scope agent).2⟩

/-- The task that a written claim names. -/
theorem Written.names {env : Env} {actor : Principal} {request : ClaimRequest}
    {prior : Option (Row WorkClaim)} {row : Row WorkClaim}
    (writes : Written desk env actor request prior row) :
    (row.payload.released = true ∧ ∃ old ∈ prior, row.payload.taskId = old.payload.taskId) ∨
      (∃ binding, env.effects = some binding ∧ row.payload.taskId = some binding.taskId) ∨
      (∃ old ∈ prior, old.payload.live env.now = true ∧ row.payload.taskId = old.payload.taskId) ∨
      row.payload.taskId = none := by
  obtain ⟨ttl, route, base, same, stored, -⟩ := writes.payload
  by_cases release : request.action = .release
  · cases prior with
    | none => simp [writes.first rfl] at release
    | some old =>
      obtain rfl := stored old rfl
      left
      rw [same]
      simp [written, release]
  · have named : row.payload.taskId = attribution env.effects (prior.map Row.payload)
        (prior.any fun old => old.payload.live env.now) := by
      rw [same]
      unfold written
      split
      next action => exact absurd action release
      · rfl
      · rfl
    right
    rw [named]
    unfold attribution
    cases env.effects with
    | some binding => exact .inl ⟨binding, rfl, rfl⟩
    | none =>
      right
      cases prior with
      | none => exact .inr rfl
      | some old =>
        by_cases held : old.payload.live env.now = true
        · exact .inl ⟨old, rfl, held, by simp [held]⟩
        · exact .inr (by simp [held])

theorem Attributed.claim {env : Env} {actor : Principal} {request : ClaimRequest}
    {followed : Except Failure Bool} {claims : Claims} {reply : ClaimReply}
    (attributed : Attributed desk.sys.db.tasks desk.claims desk.sys.now) (tidy : Tidy desk)
    (agent : env.effects.isSome = true → actor.role = .agent) (timely : desk.sys.timely env)
    (accepted : desk.claimNode env actor request followed = .ok (claims, reply)) :
    Attributed desk.sys.db.tasks claims env.commitAt := by
  obtain ⟨authorised, rewrites, -⟩ := claimNode_ok accepted
  have bound : ∀ binding, env.effects = some binding → ∃ task,
      desk.sys.db.tasks.find binding.taskId = some task ∧ task.payload.status = .running ∧
        task.projectId = actor.projectId ∧ actor.experimentId = some task.payload.experimentId ∧
        actor.branchId = some task.payload.branchId := by
    intro binding bound
    rw [bound] at authorised
    exact bound_running tidy.runs timely authorised (agent (by rw [bound]; rfl))
  have passes := timely.1.trans timely.2
  constructor
  · intro id row found taskId named
    rcases rewrites.came id row found with same | writes
    · exact attributed.homes id row same taskId named
    rcases writes.names with ⟨-, old, stored, same⟩ | ⟨binding, effects, same⟩ |
      ⟨old, stored, -, same⟩ | same
    · exact attributed.inherited stored (writes.place old stored) same taskId named
    · -- A bound claim is scoped to the experiment and the branch of its worker.
      rw [same] at named
      obtain rfl := Option.some.inj named
      obtain ⟨task, known, -, project, experiment, branch⟩ := bound binding effects
      have agents := agent (by rw [effects]; rfl)
      refine ⟨task, known, ?_⟩
      simp only [home, Prod.mk.injEq]
      refine ⟨project.trans writes.owner.1.symm, ?_, ?_⟩
      · exact Option.some.inj (experiment.symm.trans (writes.scope agents))
      · exact Option.some.inj (branch.symm.trans writes.owner.2)
    · exact attributed.inherited stored (writes.place old stored) same taskId named
    · rw [same] at named
      cases named
  · intro id row found live taskId named task known
    rcases rewrites.came id row found with same | writes
    · exact attributed.active id row same (live_earlier live passes) taskId named task known
    rcases writes.names with ⟨released, -⟩ | ⟨binding, effects, same⟩ | ⟨old, stored, held, same⟩ | same
    · simp [WorkClaim.live, released] at live
    · rw [same] at named
      obtain rfl := Option.some.inj named
      obtain ⟨row', stored, running, -⟩ := bound binding effects
      obtain rfl := Option.some.inj (known.symm.trans stored)
      rw [running]
      rfl
    · -- Only a row that is still live hands its task on.
      rw [same] at named
      exact attributed.active id old stored (live_earlier held timely.1) taskId named task known
    · rw [same] at named
      cases named

theorem Attributed.activity {env : Env} {actor : Principal} {nodeId : Id} {claims : Claims}
    (attributed : Attributed desk.sys.db.tasks desk.claims desk.sys.now) (timely : desk.sys.timely env)
    (accepted : desk.nodeActivity env actor nodeId = .ok claims) :
    Attributed desk.sys.db.tasks claims env.commitAt := by
  have rewrites := nodeActivity_rewrites accepted
  have passes := timely.1.trans timely.2
  constructor
  · intro id row found taskId named
    rcases rewrites.came id row found with same | ⟨old, ttl, stored, -, rfl⟩
    · exact attributed.homes id row same taskId named
    · exact attributed.homes id old stored taskId named
  · intro id row found live taskId named task known
    rcases rewrites.came id row found with same | ⟨old, ttl, stored, held, rfl⟩
    · exact attributed.active id row same (live_earlier live passes) taskId named task known
    · exact attributed.active id old stored (live_earlier held timely.1) taskId named task known

end

section
variable [ContentHash] {desk : Desk} {label : DeskLabel}

/-- A step that finishes a task was timely and wrote its row. -/
theorem finished_some {step : Label} {now : Time} {taskId : Id} {task : Row Task}
    (ended : desk.finished step = some (now, taskId, task)) :
    ending desk.sys step = some taskId ∧ (desk.sys.step step).db.tasks.find taskId = some task ∧
      desk.sys.now ≤ now ∧ now ≤ (desk.sys.step step).now := by
  cases step with
  | command env actor key request =>
    unfold Desk.finished at ended
    cases names : finishes desk.sys.db request with
    | none => simp [names] at ended
    | some named =>
      simp only [names] at ended
      split at ended
      · cases ended
      next moved =>
        obtain ⟨row, found, same⟩ := Option.map_eq_some_iff.mp ended
        simp only [Prod.mk.injEq] at same
        obtain ⟨rfl, rfl, rfl⟩ := same
        by_cases timely : desk.sys.timely env
        · rw [Sys.step_command_now timely]
          exact ⟨names, found, timely.1, timely.2⟩
        · exact absurd (by rw [Sys.step, if_neg timely]) moved
  | broker | outside => cases ended

/-- A step that finishes no task leaves the row of the task that it might have finished. -/
theorem finished_none {step : Label} {taskId : Id} {task : Row Task} (idle : desk.finished step = none)
    (names : ending desk.sys step = some taskId)
    (found : (desk.sys.step step).db.tasks.find taskId = some task) :
    desk.sys.db.tasks.find taskId = some task := by
  cases step with
  | command env actor key request =>
    have named : finishes desk.sys.db request = some taskId := names
    simp only [Desk.finished, named] at idle
    split at idle
    next same => exact same.symm.trans found
    · simp [found] at idle
  | broker | outside => cases names

/-- What the callers keep to: a bound claimant is an agent, and a branch whose task is finished holds at
most as many live claims as one scan reads. -/
def DeskLabel.Kept (desk : Desk) : DeskLabel → Prop
  | .claim env actor _ _ => env.effects.isSome = true → actor.role = .agent
  | .service label => ∀ ended ∈ desk.finished label,
    (branchClaims desk ended.1 ended.2.2.projectId ended.2.2.payload.experimentId
      ended.2.2.payload.branchId).length ≤ Inbox.maxLiveClaims
  | .block env _ taskId _ => ∀ task ∈ desk.sys.db.tasks.find taskId,
    (branchClaims desk env.now task.projectId task.payload.experimentId
      task.payload.branchId).length ≤ Inbox.maxLiveClaims
  | _ => True

instance (desk : Desk) (label : DeskLabel) : Decidable (label.Kept desk) := by
  cases label <;> unfold DeskLabel.Kept <;> infer_instance

def Desk.Attributed (desk : Desk) : Prop :=
  WorkClaims.Attributed desk.sys.db.tasks desk.claims desk.sys.now

theorem attributed_step (tidy : Tidy desk) (attributed : desk.Attributed) (kept : label.Kept desk) :
    (desk.step label).Attributed := by
  have moves := step_moves desk label
  generalize desk.step label = after at moves
  cases moves with
  | still | society | node => exact attributed
  | service step =>
    obtain ⟨-, tasks⟩ := serve_tasks step tidy.runs
    unfold Desk.Attributed
    dsimp only
    cases ended : desk.finished step with
    | none =>
      apply (attributed.mono (desk.sys.now_le_step step)).carry tasks.homes
      intro id row found terminal
      by_cases names : ending desk.sys step = some id
      -- A command that is refused or replayed may name a task that was finished before.
      · exact ⟨row, finished_none ended names found, terminal⟩
      · exact tasks.ended id row found terminal names
    | some entry =>
      obtain ⟨now, taskId, task⟩ := entry
      obtain ⟨names, found, earlier, later⟩ := finished_some ended
      rw [names] at tasks
      exact (attributed.mono earlier).finish tidy.policied tasks found (kept _ ended) later
  | dispatched timely => exact attributed.mono (timely.1.trans timely.2)
  | @block env actor taskId code task timely stored queued =>
    have tasks : TasksKept (some taskId) desk.sys.db.tasks (desk.sys.db.tasks.put taskId
        (task.replace (dispatchBlocked task.payload code))) :=
      .put stored rfl fun _ other => absurd rfl other
    exact (attributed.mono timely.1).finish tidy.policied tasks (Table.find_put_self ..)
      (kept task stored) timely.2
  | claim timely accepted => exact attributed.claim tidy kept timely accepted
  | activity timely accepted => exact attributed.activity timely accepted

/-- No live claim is attributed to a finished task: a claim that names a task names one of its own
branch, and while the claim is live the task is not finished. -/
theorem finished_unclaimed {labels : List DeskLabel}
    (kept : Transition.Along Desk.step (fun desk label => label.Kept desk) {} labels) {now : Time}
    (current : (Desk.reached labels).sys.now ≤ now) {id : Id} {row : Row WorkClaim}
    (stored : (Desk.reached labels).claims.find id = some row) (live : row.payload.live now = true)
    {taskId : Id} (named : row.payload.taskId = some taskId) :
    ∃ task, (Desk.reached labels).sys.db.tasks.find taskId = some task ∧
      task.payload.status.terminal = false ∧
      home task = (row.projectId, row.payload.experimentId, row.payload.branchId) := by
  have start : Tidy ({} : Desk) ∧ ({} : Desk).Attributed := by
    refine ⟨tidy_reached [], ?_, ?_⟩
    · intro id row found
      simp at found
    · intro id row found
      simp at found
  have ended := Transition.run_invariant (fun desk : Desk => Tidy desk ∧ desk.Attributed) start
    (fun desk label both keeps => ⟨both.1.step label, attributed_step both.1 both.2 keeps⟩) kept
  obtain ⟨task, found, place⟩ := ended.2.homes id row stored taskId named
  exact ⟨task, found, ended.2.active id row stored (live_earlier live current) taskId named task found,
    place⟩

end

namespace Scenario

open PhysHarness.Scenario

/-- The worker of a leased task is in a society, and there is a lemma to claim. -/
def lemmaSociety : List DeskLabel :=
  [.service (.outside installed),
    .service (.command (envAt 0 "experiment") controller "create"
      (.createExperiment
        { campaignId := "campaign"
          problemId := "problem"
          maxCost := 10
          maxConcurrency := 1
          maxTokens := none
          maxRuntimeSeconds := 3600
          sharing := .ideas })),
    .service (.command (envAt 0) controller "start" (.transitionExperiment "experiment" .start 1)),
    .service (.command (envAt 0 "task") controller "delegate"
      (.createTask { branchId := "branch", objective := "Prove the lemma." })),
    .service (.command (envAt 0) controller "lease" (.acquireTask "task" "worker" 300)),
    .society "experiment" 900,
    .node "node"
      { projectId := "project", payload := { experimentId := "experiment", nodeType := .lemmaNode } }]

def claimEnv : Env := { envAt 0 "claim" with effects := some bound }

/-- A claim of 30 minutes on the lemma. -/
def lemmaClaim : ClaimRequest :=
  { nodeId := "node", action := .claim, route := some "induction".toList, timeBoxMinutes := some 30 }

/-- The claim is renewed after 10 minutes and extended by a post after 24. -/
def renewals : List DeskLabel :=
  [.claim (envAt (600 * Time.second)) worker { nodeId := "node", action := .renew } (.ok false),
    .activity (envAt (1440 * Time.second)) worker "node"]

def claimedLemma : List DeskLabel := lemmaSociety ++ .claim claimEnv worker lemmaClaim (.ok true) :: renewals

local instance claimHash : ContentHash := textHash

theorem lemmaClaim_accepted : ∃ done,
    (Desk.reached lemmaSociety).claimNode claimEnv worker lemmaClaim (.ok true) = .ok done := by
  have accepted : ((Desk.reached lemmaSociety).claimNode claimEnv worker lemmaClaim (.ok true)).isOk =
      true := by decide +kernel
  cases claimed : (Desk.reached lemmaSociety).claimNode claimEnv worker lemmaClaim (.ok true) with
  | ok done => exact ⟨done, rfl⟩
  | error failure => simp [claimed, Except.isOk, Except.toBool] at accepted

/-- Just before the end of its box the claim is live, and then it is not. -/
theorem claimedLemma_ends :
    ((Desk.reached claimedLemma).activeClaims (1799 * Time.second) "node").map WorkClaim.branchId =
        ["branch"] ∧
      ∀ claim ∈ (Desk.reached claimedLemma).activeClaims (1800 * Time.second) "node",
        some "branch" ≠ some claim.branchId := by
  obtain ⟨done, accepted⟩ := lemmaClaim_accepted
  have ends := timeBox_ends (by decide +kernel) accepted rfl rfl
    (show ∀ label ∈ renewals, ¬ label.Reclaims lemmaClaim.nodeId worker.branchId by decide)
  exact ⟨by decide +kernel, ends.2 _ (by decide)⟩

/-- The claim is the running task's. -/
theorem claimedLemma_running :
    ∃ row task, (Desk.reached claimedLemma).claims.find "claim" = some row ∧
      row.payload.live (1500 * Time.second) = true ∧
      (Desk.reached claimedLemma).sys.db.tasks.find "task" = some task ∧
      task.payload.status.terminal = false := by
  have seen : ((Desk.reached claimedLemma).claims.find "claim").map (fun row =>
      (row.payload.live (1500 * Time.second), row.payload.taskId)) = some (true, some "task") := by
    decide +kernel
  obtain ⟨row, stored, same⟩ := Option.map_eq_some_iff.mp seen
  obtain ⟨live, named⟩ := Prod.mk.inj same
  have kept : Transition.Along Desk.step (fun desk label => label.Kept desk) {} claimedLemma := by
    decide +kernel
  obtain ⟨task, found, runs, -⟩ := finished_unclaimed kept (by decide +kernel) stored live named
  exact ⟨row, task, stored, live, found, runs⟩

/-- The end of the task releases its claim. -/
example : ((Desk.reached (lemmaSociety ++
    [.claim claimEnv worker lemmaClaim (.ok true),
      .service (.command (envAt 1) controller "finish"
        (.finishTask "task" "worker" 1 ["evidence"] .failed))])).claims.find "claim").map
          (fun row => row.payload.released) = some true := by
  decide +kernel

end Scenario

end WorkClaims
end PhysHarness
