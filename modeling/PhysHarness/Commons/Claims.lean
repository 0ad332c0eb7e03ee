import Mathlib.Data.List.Sort
import PhysHarness.Commons.Discussion
import PhysHarness.Sources.Statement
import PhysHarness.Tasks.Moves

/-!
Work claims on the nodes of the commons, beside the harness.

A claim is an attention signal and never authority: several branches may hold one node, and a claim
lapses at its expiry, which is compared when it is read. A claim may name its route and a time box that
caps every renewal. Events, and the replay of a command under its key, are left out; neither writes a
claim.
-/
namespace PhysHarness
namespace WorkClaims

open Outcome

inductive ClaimAction where
  | claim | renew | release
  deriving DecidableEq

/-- A branch's claim on a node. Claims stored by the first version have neither route nor time box. -/
structure WorkClaim where
  experimentId : Id
  nodeId : Id
  branchId : Id
  taskId : Option Id := none
  released : Bool := false
  route : Option Text := none
  claimedAt : Option Time := none
  timeBoxUntil : Option Time := none
  expiresAt : Time
  deriving DecidableEq

/-- The arguments of `claim_node`. -/
structure ClaimRequest where
  nodeId : Id
  action : ClaimAction
  route : Option Text := none
  timeBoxMinutes : Option Int := none
  keepRoute : Bool := false

/-- What the claimant is told; the other claimants with their expiry and route. -/
structure ClaimReply where
  claim : WorkClaim
  coClaimants : List (Id × Time × Option Text) := []
  autoSubscribed : Option Bool := none

def maxRoute : Nat := 200

def claimNotHeld : Failure :=
  .refuse "CLAIM_NOT_HELD" "This branch holds no live claim on the node." 409 false
    "Claim the node first; claims lapse after the policy TTL."

def nodeClosed (message : String) : Failure := .refuse "NODE_CLOSED" message

def invalidClaim (message : String) : Failure := .refuse "INVALID_CLAIM" message 422

def goalNotClaimable : Failure :=
  .refuse "GOAL_NOT_CLAIMABLE"
    "The goal takes no work claims: every root works toward it, so a claim says nothing." 409 false
    ("Create an approach or lemma node (motivated_by the goal) and claim that; read the goal's " ++
      "thread with commons_read.")

/-- `_expiry` -/
def expiry (now ttl : Time) (timeBoxUntil : Option Time) : Time :=
  match timeBoxUntil with
  | none => now + ttl
  | some box => min (now + ttl) box

/-- `_claim_live` -/
def WorkClaim.live (claim : WorkClaim) (now : Time) : Bool :=
  !claim.released && decide (now < claim.expiresAt)

/-- The project, the experiment, the node and the branch of a claim. -/
abbrev Slot := ProjectId × Id × Id × Id

def slot (row : Row WorkClaim) : Slot :=
  (row.projectId, row.payload.experimentId, row.payload.nodeId, row.payload.branchId)

/-- The harness with its nodes and claims. -/
structure Desk where
  sys : Sys := {}
  /-- The claim TTL of each society's policy, in seconds. -/
  claimTtlSeconds : Table Id Nat := ∅
  nodes : Table Id (Row CommonsNode) := ∅
  claims : Table Id (Row WorkClaim) := ∅

namespace Desk

def commons (desk : Desk) : CommonsDb where
  core := desk.sys.db
  societies := desk.claimTtlSeconds.rows.map Prod.fst
  nodes := desk.nodes

/-- `_live_claim_rows` -/
def liveClaimRows (desk : Desk) (now : Time) (projectId : ProjectId) (experimentId : Id)
    (nodeId branchId : Option Id) : List (Id × Row WorkClaim) :=
  let live := desk.claims.select fun _ row =>
    row.projectId = projectId && row.payload.experimentId = experimentId && row.payload.live now &&
      nodeId.all (row.payload.nodeId = ·) && branchId.all (row.payload.branchId = ·)
  (live.insertionSort fun first second => first.1 ≤ second.1).take Inbox.maxLiveClaims

/-- `_claim_row` -/
def claimRow (desk : Desk) (nodeId : Id) (node : Row CommonsNode) (branchId : Id) :
    Option (Id × Row WorkClaim) :=
  ((desk.claims.select fun _ row =>
    slot row = (node.projectId, node.payload.experimentId, nodeId, branchId)).insertionSort
      fun first second => first.1 ≤ second.1).head?

/-- `_active_claims` -/
def activeClaims (desk : Desk) (now : Time) (nodeId : Id) : List WorkClaim :=
  match desk.nodes.find nodeId with
  | none => []
  | some node =>
    ((desk.liveClaimRows now node.projectId node.payload.experimentId (some nodeId) none).map
      fun row => row.2.payload).insertionSort fun first second => first.branchId ≤ second.branchId

/-- `claim_ttl_seconds` of the society's policy. -/
def ttl (desk : Desk) (experimentId : Id) : Except Failure Time := do
  let seconds ← orThrow (desk.claimTtlSeconds.find experimentId) (.internal "KeyError: society")
  return seconds * Time.second

end Desk

/-! ### Claiming -/

/-- A declared route, stripped. -/
def declaredRoute (route : Option Text) : Except Failure (Option Text) :=
  match route with
  | none => .ok none
  | some text => do
    let route := Sources.strip text
    require (1 ≤ route.length ∧ route.length ≤ maxRoute)
      (invalidClaim "A route is 1–200 characters of text.")
    return some route

/-- The task a claim is attributed to: the bound worker's, or the one that a live claim names. -/
def attribution (effects : Option WorkerEffects) (prior : Option WorkClaim) (held : Bool) : Option Id :=
  match effects with
  | some binding => some binding.taskId
  | none => if held then prior.bind WorkClaim.taskId else none

/-- The branch's claim after the command. `base` is the stored one, or a new one. -/
def written (env : Env) (ttl : Time) (request : ClaimRequest) (route : Option Text)
    (prior : Option WorkClaim) (held : Bool) (base : WorkClaim) : WorkClaim :=
  match request.action with
  | .release => { base with released := true }
  | .renew =>
    { base with
      taskId := attribution env.effects prior held
      released := false
      expiresAt := expiry env.now ttl base.timeBoxUntil }
  | .claim =>
    let box := request.timeBoxMinutes.map fun minutes => env.now + 60 * minutes.toNat * Time.second
    let kept := if request.keepRoute then prior.bind WorkClaim.route else none
    { base with
      taskId := attribution env.effects prior held
      released := false
      route := route.or kept
      claimedAt := some env.now
      timeBoxUntil := box
      expiresAt := expiry env.now ttl box }

namespace Desk

/-- The outcome of the automatic subscription to the node's thread, which only `claim` tries. -/
def autoSubscribed (request : ClaimRequest) (followed : Except Failure Bool) :
    Except Failure (Option Bool) :=
  if request.action = .claim then followed.map some else .ok none

/-- The claim replaces the stored one, or is inserted as the first. -/
def store (desk : Desk) (env : Env) (actor : Principal) (prior : Option (Id × Row WorkClaim))
    (payload : WorkClaim) : Except Failure (Table Id (Row WorkClaim)) :=
  match prior with
  | some row => .ok (desk.claims.put row.1 (row.2.replace payload))
  | none => insertNew desk.claims (env.newId 0) { projectId := actor.projectId, payload }

/-- The other branches' live claims on the node. -/
def coClaimants (desk : Desk) (now : Time) (nodeId branchId : Id) : List (Id × Time × Option Text) :=
  ((desk.activeClaims now nodeId).filter fun claim => claim.branchId ≠ branchId).map fun claim =>
    (claim.branchId, claim.expiresAt, claim.route)

/-- The transaction of `claim_node`. -/
def claimAction (desk : Desk) (env : Env) (actor : Principal) (branchId : Id) (request : ClaimRequest)
    (route : Option Text) (followed : Except Failure Bool) :
    Except Failure (Table Id (Row WorkClaim) × ClaimReply) := do
  let node ← desk.commons.getNode request.nodeId actor
  let experimentId := node.payload.experimentId
  let _ ← desk.commons.commonsExperiment env experimentId actor
  require (request.action ≠ .release → node.payload.nodeType ≠ .goal) goalNotClaimable
  require (request.action ≠ .release → isOpen node.payload.status = true)
    (nodeClosed "A closed node takes no work claims.")
  let autoSubscribed ← autoSubscribed request followed
  let prior := desk.claimRow request.nodeId node branchId
  let held := prior.any fun row => row.2.payload.live env.now
  require (request.action = .release → prior.isSome = true) claimNotHeld
  require (request.action = .renew → held = true) claimNotHeld
  let ttl ← desk.ttl experimentId
  let claim := written env ttl request route (prior.map (·.2.payload)) held
    ((prior.map (·.2.payload)).getD
      { experimentId, nodeId := request.nodeId, branchId, expiresAt := env.now })
  let claims ← desk.store env actor prior claim
  let after : Desk := { desk with claims }
  let coClaimants :=
    if request.action = .release then [] else after.coClaimants env.now request.nodeId branchId
  return (claims, { claim, coClaimants, autoSubscribed })

/-- `claim_node` -/
def claimNode (desk : Desk) (env : Env) (actor : Principal) (request : ClaimRequest)
    (followed : Except Failure Bool) : Except Failure (Table Id (Row WorkClaim) × ClaimReply) := do
  researchRole actor
  let route ← declaredRoute request.route
  require (∀ minutes ∈ request.timeBoxMinutes, 5 ≤ minutes ∧ minutes ≤ 240)
    (invalidClaim "A time box is a whole number of 5–240 minutes.")
  let branchId ← orThrow actor.branchId
    (.refuse "BRANCH_AUTHORITY" "A branch identity is required to claim work." 403)
  desk.sys.db.checkWorkerEffects env.effects env.now actor
  let done ← desk.claimAction env actor branchId request route followed
  desk.sys.db.checkWorkerEffects env.effects env.commitAt actor
  return done

/-! ### Activity on a node -/

/-- `_touch_node`: the actor's live claim is extended. -/
def touchNode (desk : Desk) (now : Time) (nodeId : Id) (node : Row CommonsNode) (actor : Principal) :
    Except Failure (Table Id (Row WorkClaim)) :=
  match actor.branchId with
  | none => .ok desk.claims
  | some branchId =>
    if isOpen node.payload.status = false then .ok desk.claims
    else
      match desk.claimRow nodeId node branchId with
      | none => .ok desk.claims
      | some (id, row) =>
        if row.payload.live now = false then .ok desk.claims
        else do
          let ttl ← desk.ttl node.payload.experimentId
          return desk.claims.put id
            (row.replace { row.payload with expiresAt := expiry now ttl row.payload.timeBoxUntil })

/-- What `post_on_node`, `submit_review`, `set_lean_statement` and `record_lean_source` do to the
claims. -/
def nodeActivity (desk : Desk) (env : Env) (actor : Principal) (nodeId : Id) :
    Except Failure (Table Id (Row WorkClaim)) := do
  desk.sys.db.checkWorkerEffects env.effects env.now actor
  let node ← desk.commons.getNode nodeId actor
  let _ ← desk.commons.commonsExperiment env node.payload.experimentId actor
  let claims ← desk.touchNode env.now nodeId node actor
  desk.sys.db.checkWorkerEffects env.effects env.commitAt actor
  return claims

/-! ### Finished tasks -/

/-- One row of `_release_task_claims`, read again under its lock. -/
def releaseRow (taskId : Id) (now : Time) (claims : Table Id (Row WorkClaim)) (id : Id) :
    Table Id (Row WorkClaim) :=
  match claims.find id with
  | none => claims
  | some row =>
    if row.payload.live now = true ∧ (row.payload.taskId = some taskId ∨ row.payload.taskId = none) then
      claims.put id (row.replace { row.payload with released := true })
    else claims

/-- `_release_task_claims` -/
def releaseTaskClaims (desk : Desk) (now : Time) (taskId : Id) (task : Row Task) :
    Table Id (Row WorkClaim) :=
  if desk.claimTtlSeconds.find task.payload.experimentId = none then desk.claims
  else
    ((desk.liveClaimRows now task.projectId task.payload.experimentId none
      (some task.payload.branchId)).map Prod.fst).foldl (releaseRow taskId now) desk.claims

end Desk

/-- The task that a command may finish. Each of these methods releases the claims of the task when it
writes its status. -/
def finishes (db : Db) : Request → Option Id
  | .finishTask taskId _ _ _ _ => some taskId
  | .retireQueuedAfterVerified taskId _ => some taskId
  | .retireFailedLocalWorkspace workspaceId _ _ _ =>
    (db.workspaces.find workspaceId).map fun row => row.payload.taskId
  | _ => none

/-- A task whose dispatch was refused. -/
def dispatchBlocked (task : Task) (code : String) : Task :=
  { task with status := .blocked, errorCode := some code }

/-! ### The system -/

/-- A transaction of the harness or of a claimant, or a write of another part of the commons. -/
inductive DeskLabel where
  | service (label : Label)
  /-- The dispatcher gives up a queued task. -/
  | block (env : Env) (actor : Principal) (taskId : Id) (code : String)
  | claim (env : Env) (actor : Principal) (request : ClaimRequest) (followed : Except Failure Bool)
  | activity (env : Env) (actor : Principal) (nodeId : Id)
  | society (experimentId : Id) (claimTtlSeconds : Nat)
  | node (nodeId : Id) (row : Row CommonsNode)

namespace Desk

variable [ContentHash]

/-- The task that a step of the harness finishes, as the step leaves it. -/
def finished (desk : Desk) : Label → Option (Time × Id × Row Task)
  | .command env actor key request =>
    match finishes desk.sys.db request with
    | none => none
    | some taskId =>
      let after := (desk.sys.step (.command env actor key request)).db.tasks.find taskId
      if after = desk.sys.db.tasks.find taskId then none
      else after.map fun task => (env.now, taskId, task)
  | _ => none

def releasing (desk : Desk) : Option (Time × Id × Row Task) → Table Id (Row WorkClaim)
  | none => desk.claims
  | some (now, taskId, task) => desk.releaseTaskClaims now taskId task

/-- `block` of `run_research_task`; a task that was dispatched meanwhile is left alone. -/
def blockTask (desk : Desk) (env : Env) (actor : Principal) (taskId : Id) (code : String) :
    Except Failure Desk := do
  desk.sys.db.checkWorkerEffects env.effects env.now actor
  let task ← desk.sys.db.getTask taskId actor
  if task.payload.status ≠ .queued then return desk
  else
    let blocked := task.replace (dispatchBlocked task.payload code)
    let db := { desk.sys.db with tasks := desk.sys.db.tasks.put taskId blocked }
    db.checkWorkerEffects env.effects env.commitAt actor
    return { desk with
      sys := { desk.sys with db }
      claims := desk.releaseTaskClaims env.now taskId blocked }

def timed (desk : Desk) (env : Env) (after : Except Failure Desk) : Desk :=
  if desk.sys.timely env then
    match after with
    | .ok done => { done with sys := { done.sys with now := env.commitAt } }
    | .error _ => desk
  else desk

/-- A refused transaction leaves everything as it was. The policy of a society is given once, and a node
stays in its experiment. -/
def step (desk : Desk) : DeskLabel → Desk
  | .service label =>
    { desk with sys := desk.sys.step label, claims := desk.releasing (desk.finished label) }
  | .block env actor taskId code => desk.timed env (desk.blockTask env actor taskId code)
  | .claim env actor request followed =>
    desk.timed env
      ((desk.claimNode env actor request followed).map fun done => { desk with claims := done.1 })
  | .activity env actor nodeId =>
    desk.timed env ((desk.nodeActivity env actor nodeId).map fun claims => { desk with claims })
  | .society experimentId seconds =>
    match desk.claimTtlSeconds.find experimentId with
    | some _ => desk
    | none => { desk with claimTtlSeconds := desk.claimTtlSeconds.put experimentId seconds }
  | .node nodeId row =>
    match desk.nodes.find nodeId with
    | some stored =>
      if stored.projectId = row.projectId ∧ stored.payload.experimentId = row.payload.experimentId then
        { desk with nodes := desk.nodes.put nodeId row }
      else desk
    | none => { desk with nodes := desk.nodes.put nodeId row }

/-- The state after the transactions, from an empty installation. -/
def reached (labels : List DeskLabel) : Desk := Transition.run step {} labels

end Desk

end WorkClaims
end PhysHarness
