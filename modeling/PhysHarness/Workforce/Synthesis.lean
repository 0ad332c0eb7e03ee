import Mathlib.Data.List.Dedup
import Mathlib.Data.List.Sort
import PhysHarness.Domain
import PhysHarness.Lib.Log
import PhysHarness.Lib.Outcome
import PhysHarness.Lib.Table
import PhysHarness.Lib.Transition

/-!
# Synthesis scheduling

A controller tick reads the posts behind the watermark, a bounded batch at a time, and keeps a
bounded sample of them until a synthesis task is due. The tick is one transaction under the
experiment's lock: what raises changes nothing.

## Main result

`synthesis_counts_once`: the watermark only moves forward, every eligible post up to it is counted
once, by one synthesis or by the pending count, and every sample is one of the posts it stands for.
-/
namespace PhysHarness

open Outcome

/-- What scheduling reads of the experiment. -/
structure SynthesisScope where
  projectId : Id
  experimentId : Id
  society : Bool
  ideas : Bool
  targetDigest : Digest

structure DiscussionPost where
  experimentId : Id
  topicId : Id
  branchId : Option Id
  targetDigest : Digest
  environmentDigest : Option Digest

/-- A `discussion.post_created` event of the experiment. -/
structure PostEvent where
  sequence : Nat
  postId : Id

structure WorkforcePolicy where
  synthesisIntervalPosts : Nat
  lastSynthesisSequence : Nat := 0
  pendingPostIds : List Id := []
  pendingPostCount : Nat := 0

/-- A task with `synthesis`, and its scope; the sampled posts are its `discussion_refs`. -/
structure SynthesisTask where
  parentBranchId : Option Id
  discussionRefs : List Id
  eligiblePostCount : Nat
  throughSequence : Nat

structure SynthesisState where
  policy : Option WorkforcePolicy := none
  events : List PostEvent := []
  posts : Table Id DiscussionPost := ∅
  tasks : List SynthesisTask := []

/-- A branch that a post names. -/
structure SourceBranch where
  projectId : Id
  experimentId : Id
  hat : Option String
  inScope : Bool

/-- What the rest of the database says when the command runs; the target may be missing. -/
structure SynthesisEnv where
  active : Except Failure Unit := .ok ()
  target : Option (Option Digest) := some none
  outstanding : Option Id := none
  readable : Id → Except Failure Unit := fun _ => .ok ()
  branch : Id → Option SourceBranch := fun _ => none
  admitted : Except Failure Unit := .ok ()
  created : Except Failure Unit := .ok ()

inductive SynthesisReply where
  | notDue (reason : String)
  | waiting (reason : String) (eligiblePosts throughSequence : Nat)
  | scheduled (sourcePostIds sourceTopicIds : List Id) (throughSequence eligiblePostCount : Nat)
      (parentBranchId : Option Id)

def refereeHat : String := "referee"

/-- Events per tick. -/
def synthesisBatch : Nat := 100

/-- Posts per sample. -/
def synthesisSample : Nat := 20

/-! ### The sample -/

/-- What the loop over the posts has gathered. -/
structure Sampling where
  sourceIds : List Id
  sampled : List DiscussionPost
  topics : List Id
  firstTopic : Option Id
  eligibleCount : Nat

def Sampling.start (ids : List Id) (posts : List DiscussionPost) (count : Nat) : Sampling where
  sourceIds := ids
  sampled := posts
  topics := (posts.map DiscussionPost.topicId).dedup
  firstTopic := posts.head?.map DiscussionPost.topicId
  eligibleCount := count

/-- A synthesis is anchored in a research branch, except in a society. -/
def eligible (society : Bool) (post : DiscussionPost) : Bool := post.branchId.isSome || society

def Sampling.add (society : Bool) (acc : Sampling) (id : Id) (post : DiscussionPost) : Sampling :=
  if eligible society post = false then acc
  else if acc.sourceIds.length < synthesisSample then
    { sourceIds := acc.sourceIds ++ [id]
      sampled := acc.sampled ++ [post]
      topics := acc.topics.insert post.topicId
      firstTopic := acc.firstTopic.or (some post.topicId)
      eligibleCount := acc.eligibleCount + 1 }
  else if some post.topicId ≠ acc.firstTopic ∧ acc.topics.length = 1 then
    -- the first nineteen sources stay, and one of a different topic
    { acc with
      sourceIds := acc.sourceIds.dropLast ++ [id]
      sampled := acc.sampled.dropLast ++ [post]
      topics := acc.topics.insert post.topicId
      eligibleCount := acc.eligibleCount + 1 }
  else { acc with eligibleCount := acc.eligibleCount + 1 }

/-! ### The command -/

namespace SynthesisScope

variable (scope : SynthesisScope)

/-- `_get` of a post. -/
def getPost (env : SynthesisEnv) (state : SynthesisState) (id : Id) :
    Except Failure DiscussionPost :=
  match state.posts.find id with
  | none => .error (.notFound "The requested project object was not found.")
  | some post => do
    env.readable id
    return post

/-- The post of an event, still about the experiment's target. -/
def sourcePost (env : SynthesisEnv) (state : SynthesisState) (environment : Option Digest)
    (event : PostEvent) : Except Failure (Id × DiscussionPost) := do
  require (event.postId ≠ "")
    (.refuse "DISCUSSION_EVENT_SCOPE" "Discussion event lacks a post ID.")
  let post ← getPost env state event.postId
  require (post.experimentId = scope.experimentId ∧ post.targetDigest = scope.targetDigest ∧
      post.environmentDigest = environment)
    (.refuse "DISCUSSION_SCOPE" "Discussion source target changed.")
  return (event.postId, post)

/-- `_synthesis_parent`: the first sampled post's branch that is visible and is not a referee. -/
def societyParent (env : SynthesisEnv) (sampled : List DiscussionPost) : Option Id :=
  sampled.findSome? fun post => do
    let id ← post.branchId
    let branch ← env.branch id
    guard (branch.projectId = scope.projectId ∧ branch.experimentId = scope.experimentId ∧
      branch.hat ≠ some refereeHat ∧ branch.inScope = true)
    return id

def parentBranch (env : SynthesisEnv) (sampled : List DiscussionPost) : Option Id :=
  if scope.society then scope.societyParent env sampled
  else sampled.findSome? DiscussionPost.branchId

/-- The batch is counted, and a synthesis is scheduled when enough posts on enough topics wait. -/
def settle (env : SynthesisEnv) (state : SynthesisState) (policy : WorkforcePolicy) (through : Nat)
    (acc : Sampling) : Except Failure (SynthesisReply × SynthesisState) :=
  let topics := acc.topics.insertionSort (· ≤ ·)
  let parent := scope.parentBranch env acc.sampled
  if acc.eligibleCount < policy.synthesisIntervalPosts ∨ topics.length < 2 ∨
      (parent = none ∧ scope.society = false) then
    let reason := if acc.eligibleCount < policy.synthesisIntervalPosts then "insufficient_posts"
      else if topics.length < 2 then "single_topic" else "source_branch_missing"
    return (.waiting reason acc.eligibleCount through, { state with
      policy := some { policy with
        lastSynthesisSequence := through
        pendingPostIds := acc.sourceIds
        pendingPostCount := acc.eligibleCount } })
  else do
    env.admitted
    env.created
    return (.scheduled acc.sourceIds topics through acc.eligibleCount parent, { state with
      policy := some { policy with
        lastSynthesisSequence := through
        pendingPostIds := []
        pendingPostCount := 0 }
      tasks := state.tasks ++ [⟨parent, acc.sourceIds, acc.eligibleCount, through⟩] })

/-- The tick of an enabled policy over the posts behind its watermark. -/
def tick (env : SynthesisEnv) (state : SynthesisState) (policy : WorkforcePolicy) :
    Except Failure (SynthesisReply × SynthesisState) :=
  let batch := (Log.behind PostEvent.sequence state.events policy.lastSynthesisSequence).take
    synthesisBatch
  if batch = [] then return (.notDue "no_new_posts", state)
  else match env.target with
    | none => throw (.refuse "TARGET_SCOPE" "Experiment target is missing.")
    | some environment => do
      let posts ← batch.mapM (scope.sourcePost env state environment)
      let pending ← policy.pendingPostIds.mapM (getPost env state)
      let acc := posts.foldl (fun acc post => acc.add scope.society post.1 post.2)
        (.start policy.pendingPostIds pending policy.pendingPostCount)
      scope.settle env state policy
        (Log.through PostEvent.sequence batch policy.lastSynthesisSequence) acc

/-- `schedule_research_synthesis` -/
def schedule (env : SynthesisEnv) (state : SynthesisState) :
    Except Failure (SynthesisReply × SynthesisState) := do
  env.active
  match state.policy with
  | none => return (.notDue "disabled", state)
  | some policy =>
    if policy.synthesisIntervalPosts = 0 then return (.notDue "disabled", state)
    else if scope.ideas = false then return (.notDue "ideas_sharing_required", state)
    else if env.outstanding.isSome then return (.notDue "outstanding", state)
    else scope.tick env state policy

end SynthesisScope

/-! ### The transition system -/

inductive SynthesisLabel where
  /-- `configure_workforce`: the interval is set, the progress stays. -/
  | configure (interval : Nat)
  /-- A new post, after so many events of other kinds. -/
  | post (between : Nat) (id : Id) (post : DiscussionPost)
  | schedule (env : SynthesisEnv)

def SynthesisState.step (scope : SynthesisScope) (state : SynthesisState) :
    SynthesisLabel → SynthesisState
  | .configure interval =>
    let policy := state.policy.getD { synthesisIntervalPosts := interval }
    { state with policy := some { policy with synthesisIntervalPosts := interval } }
  | .post between id post =>
    if (state.posts.find id).isSome then state
    else
      let sequence := (Log.through PostEvent.sequence state.events 0) + between + 1
      { state with
        events := state.events ++ [⟨sequence, id⟩]
        posts := state.posts.put id post }
  | .schedule env =>
    match scope.schedule env state with
    | .ok (_, after) => after
    | .error _ => state

def SynthesisState.watermark (state : SynthesisState) : Nat :=
  (state.policy.map WorkforcePolicy.lastSynthesisSequence).getD 0

def SynthesisState.pendingIds (state : SynthesisState) : List Id :=
  (state.policy.map WorkforcePolicy.pendingPostIds).getD []

def SynthesisState.pendingCount (state : SynthesisState) : Nat :=
  (state.policy.map WorkforcePolicy.pendingPostCount).getD 0

def SynthesisState.run (scope : SynthesisScope) (labels : List SynthesisLabel) : SynthesisState :=
  Transition.run (SynthesisState.step scope) {} labels

/-! ### Samples -/

/-- The eligible posts of a list of posts. -/
def eligiblePosts (society : Bool) (posts : List (Id × DiscussionPost)) :
    List (Id × DiscussionPost) :=
  posts.filter fun post => eligible society post.2

/-- A sample drawn in order from the posts it stands for: all of them while they are few, and of one
topic only where they are. -/
structure Drawn (seen pairs : List (Id × DiscussionPost)) : Prop where
  inOrder : pairs.Sublist seen
  few : pairs.length ≤ synthesisSample
  whole : pairs.length < synthesisSample → pairs = seen
  spread : (∀ p ∈ pairs, ∀ q ∈ pairs, p.2.topicId = q.2.topicId) →
    ∀ p ∈ seen, ∀ q ∈ seen, p.2.topicId = q.2.topicId

/-- The loop has counted the posts it has seen and holds a sample of them. -/
structure Sampled (seen : List (Id × DiscussionPost)) (acc : Sampling) : Prop where
  count : acc.eligibleCount = seen.length
  topics : acc.topics.Nodup ∧
    ∀ topic, topic ∈ acc.topics ↔ topic ∈ acc.sampled.map DiscussionPost.topicId
  first : acc.firstTopic = acc.sampled.head?.map DiscussionPost.topicId
  drawn : ∃ pairs, acc.sourceIds = pairs.map Prod.fst ∧ acc.sampled = pairs.map Prod.snd ∧
    Drawn seen pairs

theorem Drawn.append {seen pairs : List (Id × DiscussionPost)} (drawn : Drawn seen pairs)
    (room : pairs.length < synthesisSample) (post : Id × DiscussionPost) :
    Drawn (seen ++ [post]) (pairs ++ [post]) := by
  have same := drawn.whole room
  subst same
  refine ⟨List.Sublist.refl _, ?_, fun _ => rfl, fun each => each⟩
  rw [List.length_append, List.length_singleton]
  exact room

/-- In a full sample the last post gives way to one of another topic. -/
theorem Drawn.replace {seen : List (Id × DiscussionPost)} {head : Id × DiscussionPost}
    {rest : List (Id × DiscussionPost)} {last : Id × DiscussionPost}
    (drawn : Drawn seen (head :: rest ++ [last]))
    (full : ¬ (head :: rest ++ [last]).length < synthesisSample) {post : Id × DiscussionPost}
    (other : post.2.topicId ≠ head.2.topicId) :
    Drawn (seen ++ [post]) (head :: rest ++ [post]) := by
  have length : (head :: rest ++ [post]).length = (head :: rest ++ [last]).length := by simp
  refine ⟨?_, length ▸ drawn.few, fun room => absurd (length ▸ room) full, fun each => ?_⟩
  · have kept : (head :: rest).Sublist seen :=
      (List.sublist_append_left (head :: rest) [last]).trans drawn.inOrder
    exact kept.append (List.Sublist.refl [post])
  · exact absurd (each post (by simp) head (by simp)) other

/-- A full sample of one topic stays with posts of that topic; one of several topics stays. -/
theorem Drawn.keep {seen pairs : List (Id × DiscussionPost)} (drawn : Drawn seen pairs)
    (full : ¬ pairs.length < synthesisSample) {post : Id × DiscussionPost}
    (same : (∀ p ∈ pairs, ∀ q ∈ pairs, p.2.topicId = q.2.topicId) →
      ∃ p ∈ pairs, post.2.topicId = p.2.topicId) : Drawn (seen ++ [post]) pairs := by
  refine ⟨drawn.inOrder.trans (List.sublist_append_left seen [post]), drawn.few,
    fun room => absurd room full, fun each => ?_⟩
  obtain ⟨kept, member, topic⟩ := same each
  have all : ∀ p ∈ seen ++ [post], p.2.topicId = kept.2.topicId := by
    intro p inside
    rcases List.mem_append.mp inside with old | new
    · exact drawn.spread each p old kept (drawn.inOrder.subset member)
    · rw [List.mem_singleton.mp new, topic]
  exact fun p left q right => (all p left).trans (all q right).symm

/-- A list of two elements or more has a first one and another last one. -/
theorem ends_of_full {α : Type} {list : List α} (full : ¬ list.length < synthesisSample) :
    ∃ head rest last, list = head :: rest ++ [last] := by
  unfold synthesisSample at full
  cases list with
  | nil => exact absurd (by simp) full
  | cons head tail =>
    have filled : tail ≠ [] := by
      rintro rfl
      exact full (by simp)
    exact ⟨head, tail.dropLast, tail.getLast filled, by
      rw [List.cons_append, List.dropLast_append_getLast filled]⟩

/-- The sample of one topic. -/
theorem Sampled.one_topic {seen : List (Id × DiscussionPost)} {acc : Sampling}
    (sampled : Sampled seen acc) {head : DiscussionPost} {tail : List DiscussionPost}
    (posts : acc.sampled = head :: tail) :
    acc.topics.length = 1 ↔ ∀ post ∈ acc.sampled, post.topicId = head.topicId := by
  obtain ⟨nodup, members⟩ := sampled.topics
  have inside : head.topicId ∈ acc.topics :=
    (members _).mpr (List.mem_map_of_mem (posts ▸ List.mem_cons_self))
  constructor
  · intro single post member
    obtain ⟨topic, only⟩ := List.length_eq_one_iff.mp single
    rw [only] at members inside
    have here := (members post.topicId).mpr (List.mem_map_of_mem member)
    rw [List.mem_singleton.mp here, List.mem_singleton.mp inside]
  · intro same
    have all : ∀ topic ∈ acc.topics, topic = head.topicId := by
      intro topic member
      obtain ⟨post, there, rfl⟩ := List.mem_map.mp ((members topic).mp member)
      exact same post there
    have replicate := List.eq_replicate_of_mem all
    have few : acc.topics.length ≤ 1 := List.nodup_replicate.mp (replicate ▸ nodup)
    have some : 0 < acc.topics.length := List.length_pos_of_mem inside
    exact Nat.le_antisymm few some

/-- The loop keeps a sample of the posts that it counts. -/
theorem Sampled.add {society : Bool} {seen : List (Id × DiscussionPost)} {acc : Sampling}
    (sampled : Sampled seen acc) (post : Id × DiscussionPost) :
    Sampled (seen ++ eligiblePosts society [post]) (acc.add society post.1 post.2) := by
  obtain ⟨pairs, ids, posts, drawn⟩ := sampled.drawn
  have length : acc.sourceIds.length = pairs.length := by rw [ids, List.length_map]
  unfold Sampling.add
  split
  next skipped =>
    have none : eligiblePosts society [post] = [] := by simp [eligiblePosts, skipped]
    rwa [none, List.append_nil]
  next counted =>
    have one : eligiblePosts society [post] = [post] := by
      simp [eligiblePosts, Bool.eq_true_of_not_eq_false counted]
    rw [one]
    split
    next room =>
      refine ⟨by simp [sampled.count], ⟨sampled.topics.1.insert, fun topic => ?_⟩, ?_,
        pairs ++ [post], by simp [ids], by simp [posts], drawn.append (length ▸ room) post⟩
      · simp [List.mem_insert_iff, sampled.topics.2, or_comm]
      · rw [sampled.first]
        cases acc.sampled <;> rfl
    next full =>
      obtain ⟨head, rest, last, whole⟩ := ends_of_full (length ▸ full)
      have listed : acc.sampled = head.2 :: (rest ++ [last]).map Prod.snd := by
        rw [posts, whole]
        rfl
      have first : acc.firstTopic = some head.2.topicId := by
        rw [sampled.first, listed]
        rfl
      split
      next swap =>
        obtain ⟨other, single⟩ := swap
        have same := (sampled.one_topic listed).mp single
        have distinct : post.2.topicId ≠ head.2.topicId := fun topic => other (topic ▸ first.symm)
        subst whole
        have shorter : (head :: rest ++ [last]).dropLast = head :: rest := List.dropLast_concat
        have drop : acc.sampled.dropLast = (head :: rest).map Prod.snd := by
          rw [posts, ← List.map_dropLast, shorter]
        refine ⟨by simp [sampled.count], ⟨sampled.topics.1.insert, fun topic => ?_⟩, ?_,
          head :: rest ++ [post], ?_, ?_, drawn.replace (length ▸ full) distinct⟩
        · obtain ⟨only, alone⟩ := List.length_eq_one_iff.mp single
          have inside : head.2.topicId ∈ acc.topics :=
            (sampled.topics.2 _).mpr (List.mem_map_of_mem (listed ▸ List.mem_cons_self))
          rw [alone, List.mem_singleton] at inside
          have others : ∀ p ∈ rest, p.2.topicId = head.2.topicId := fun p member =>
            same p.2 (by rw [posts]; exact List.mem_map_of_mem (by simp [member]))
          show topic ∈ acc.topics.insert post.2.topicId ↔ _
          rw [drop, alone, ← inside, List.mem_insert_iff, List.mem_singleton]
          simp only [List.map_append, List.map_cons, List.map_map, List.mem_append, List.mem_cons,
            List.mem_map, Function.comp_apply, List.map_nil, List.not_mem_nil, or_false]
          grind
        · show acc.firstTopic = _
          rw [first, drop]
          rfl
        · show acc.sourceIds.dropLast ++ [post.1] = _
          rw [ids, ← List.map_dropLast, shorter, List.map_append, List.map_singleton]
        · show acc.sampled.dropLast ++ [post.2] = _
          rw [drop, List.map_append, List.map_singleton]
      next stay =>
        refine ⟨by simp [sampled.count], sampled.topics, sampled.first, pairs, ids, posts,
          drawn.keep (length ▸ full) fun each => ?_⟩
        have inside : head ∈ pairs := by simp [whole]
        have single : acc.topics.length = 1 := by
          refine (sampled.one_topic listed).mpr fun one member => ?_
          obtain ⟨pair, there, rfl⟩ := List.mem_map.mp (posts ▸ member)
          exact each pair there head inside
        have topic : some post.2.topicId = acc.firstTopic := by
          by_contra other
          exact stay ⟨other, single⟩
        exact ⟨head, inside, Option.some.inj (topic.trans first)⟩

theorem eligiblePosts_append (society : Bool) (first second : List (Id × DiscussionPost)) :
    eligiblePosts society (first ++ second) =
      eligiblePosts society first ++ eligiblePosts society second := List.filter_append ..

theorem Sampled.foldl {society : Bool} (posts : List (Id × DiscussionPost)) :
    ∀ {seen : List (Id × DiscussionPost)} {acc : Sampling}, Sampled seen acc →
      Sampled (seen ++ eligiblePosts society posts)
        (posts.foldl (fun acc post => acc.add society post.1 post.2) acc) := by
  induction posts with
  | nil =>
    intro seen acc sampled
    rwa [show eligiblePosts society [] = [] from rfl, List.append_nil]
  | cons post posts ih =>
    intro seen acc sampled
    have one : Sampled (seen ++ eligiblePosts society [post]) (acc.add society post.1 post.2) :=
      sampled.add post
    have next := ih one
    rw [List.append_assoc, ← eligiblePosts_append] at next
    exact next

/-- The stored sample of the posts that wait. -/
theorem Sampled.start {waiting sample : List (Id × DiscussionPost)} (drawn : Drawn waiting sample) :
    Sampled waiting
      (.start (sample.map Prod.fst) (sample.map Prod.snd) waiting.length) where
  count := rfl
  topics := ⟨List.nodup_dedup _, fun _ => List.mem_dedup⟩
  first := rfl
  drawn := ⟨sample, rfl, rfl, drawn⟩

/-! ### The accounts -/

/-- The stored posts of some events. -/
def SynthesisState.postsOf (state : SynthesisState) (events : List PostEvent) :
    List (Id × DiscussionPost) :=
  events.filterMap fun event => (state.posts.find event.postId).map fun post => (event.postId, post)

/-- The log as posting leaves it. -/
structure WellLogged (state : SynthesisState) : Prop where
  ordered : Log.Ordered PostEvent.sequence state.events
  distinct : (state.events.map PostEvent.postId).Nodup
  stored : ∀ event ∈ state.events, (state.posts.find event.postId).isSome
  seen : state.watermark ≤ Log.through PostEvent.sequence state.events 0

/-- The ids of a sample, without repetition. -/
structure SampleIds (seen : List (Id × DiscussionPost)) (ids : List Id) : Prop where
  distinct : ids.Nodup
  drawn : ∃ sample, ids = sample.map Prod.fst ∧ Drawn seen sample

theorem Drawn.sampleIds {seen sample : List (Id × DiscussionPost)} (drawn : Drawn seen sample)
    (once : (seen.map Prod.fst).Nodup) : SampleIds seen (sample.map Prod.fst) :=
  ⟨once.sublist (drawn.inOrder.map Prod.fst), sample, rfl, drawn⟩

/-- Each eligible post up to the watermark is counted by one synthesis or by the pending count, and
each sample is drawn from the posts that its count stands for. -/
structure Accounted (society : Bool) (state : SynthesisState)
    (parts : List (List (Id × DiscussionPost))) (waiting : List (Id × DiscussionPost)) : Prop where
  counted : eligiblePosts society
    (state.postsOf (Log.upTo PostEvent.sequence state.events state.watermark)) =
      parts.flatten ++ waiting
  once : ((parts.flatten ++ waiting).map Prod.fst).Nodup
  scheduled : List.Forall₂ (fun task part => task.eligiblePostCount = part.length ∧
    SampleIds part task.discussionRefs) state.tasks parts
  pending : state.pendingCount = waiting.length ∧ SampleIds waiting state.pendingIds

namespace SynthesisState

variable {state : SynthesisState}

theorem postsOf_append (first second : List PostEvent) :
    state.postsOf (first ++ second) = state.postsOf first ++ state.postsOf second :=
  List.filterMap_append

theorem mem_postsOf {events : List PostEvent} {post : Id × DiscussionPost}
    (member : post ∈ state.postsOf events) : state.posts.find post.1 = some post.2 := by
  obtain ⟨event, _, found⟩ := List.mem_filterMap.mp member
  obtain ⟨stored, here, rfl⟩ := Option.map_eq_some_iff.mp found
  exact here

theorem postsOf_ids (state : SynthesisState) (events : List PostEvent) :
    ((state.postsOf events).map Prod.fst).Sublist (events.map PostEvent.postId) := by
  induction events with
  | nil => exact List.Sublist.refl _
  | cons event events ih =>
    unfold postsOf at ih ⊢
    rw [List.filterMap_cons]
    cases state.posts.find event.postId with
    | none => exact ih.cons _
    | some post => exact ih.cons_cons _

/-- A new post changes nothing for the events that are there. -/
theorem postsOf_put {events : List PostEvent} {id : Id} {post : DiscussionPost} {more}
    (stored : ∀ event ∈ events, (state.posts.find event.postId).isSome)
    (fresh : state.posts.find id = none) :
    postsOf { state with events := more, posts := state.posts.put id post } events =
      state.postsOf events := by
  refine List.filterMap_congr fun event member => ?_
  have distinct : event.postId ≠ id := by
    intro same
    have found := stored event member
    rw [same, fresh] at found
    exact absurd found (by simp)
  rw [Table.find_put_ne _ _ distinct]

end SynthesisState

/-! ### What a tick does -/

section Ticks

variable {scope : SynthesisScope} {env : SynthesisEnv} {state after : SynthesisState}
  {policy : WorkforcePolicy} {reply : SynthesisReply}

theorem getPosts_ok {sample : List (Id × DiscussionPost)} {posts : List DiscussionPost}
    (stored : ∀ post ∈ sample, state.posts.find post.1 = some post.2)
    (read : (sample.map Prod.fst).mapM (SynthesisScope.getPost env state) = .ok posts) :
    posts = sample.map Prod.snd := by
  induction sample generalizing posts with
  | nil => exact (pure_ok.mp read).symm
  | cons post sample ih =>
    rw [List.map_cons, List.mapM_cons] at read
    obtain ⟨first, one, rest⟩ := bind_ok.mp read
    obtain ⟨others, more, whole⟩ := bind_ok.mp rest
    obtain rfl := pure_ok.mp whole
    rw [SynthesisScope.getPost, stored post List.mem_cons_self] at one
    obtain ⟨_, _, same⟩ := bind_ok.mp one
    rw [List.map_cons, ← pure_ok.mp same,
      ih (fun other member => stored other (List.mem_cons_of_mem _ member)) more]

theorem sourcePost_ok {environment : Option Digest} {event : PostEvent}
    {found : Id × DiscussionPost}
    (read : scope.sourcePost env state environment event = .ok found) :
    (state.posts.find event.postId).map (fun post => (event.postId, post)) = some found := by
  unfold SynthesisScope.sourcePost at read
  obtain ⟨_, _, rest⟩ := bind_ok.mp read
  obtain ⟨post, one, rest⟩ := bind_ok.mp rest
  obtain ⟨_, _, same⟩ := bind_ok.mp rest
  obtain rfl := pure_ok.mp same
  unfold SynthesisScope.getPost at one
  cases stored : state.posts.find event.postId with
  | none => rw [stored] at one; exact nomatch one
  | some post =>
    rw [stored] at one
    obtain ⟨_, _, same⟩ := bind_ok.mp one
    rw [Option.map_some, pure_ok.mp same]

theorem sourcePosts_ok {environment : Option Digest} {batch : List PostEvent}
    {posts : List (Id × DiscussionPost)}
    (read : batch.mapM (scope.sourcePost env state environment) = .ok posts) :
    posts = state.postsOf batch := by
  induction batch generalizing posts with
  | nil => exact (pure_ok.mp read).symm
  | cons event batch ih =>
    rw [List.mapM_cons] at read
    obtain ⟨first, one, rest⟩ := bind_ok.mp read
    obtain ⟨others, more, whole⟩ := bind_ok.mp rest
    obtain rfl := pure_ok.mp whole
    unfold SynthesisState.postsOf at ih ⊢
    simp only [List.filterMap_cons, sourcePost_ok one]
    rw [ih more]

/-- The events that a tick reads. -/
def SynthesisState.batch (state : SynthesisState) : List PostEvent :=
  (Log.behind PostEvent.sequence state.events state.watermark).take synthesisBatch

/-- A call that returns has changed nothing, or has read the posts of a batch and settled it. -/
theorem SynthesisScope.schedule_ok (called : scope.schedule env state = .ok (reply, after)) :
    (∃ reason, reply = .notDue reason ∧ after = state) ∨
      ∃ policy pending, state.policy = some policy ∧
        policy.pendingPostIds.mapM (getPost env state) = .ok pending ∧
        scope.settle env state policy
          (Log.through PostEvent.sequence state.batch state.watermark)
          ((state.postsOf state.batch).foldl
            (fun acc post => acc.add scope.society post.1 post.2)
            (.start policy.pendingPostIds pending policy.pendingPostCount)) =
            .ok (reply, after) := by
  have idle : ∀ {reason}, (pure (SynthesisReply.notDue reason, state) :
      Except Failure (SynthesisReply × SynthesisState)) = .ok (reply, after) →
      ∃ reason, reply = .notDue reason ∧ after = state := by
    intro reason same
    obtain ⟨rfl, rfl⟩ := Prod.mk.inj (pure_ok.mp same)
    exact ⟨reason, rfl, rfl⟩
  unfold schedule at called
  obtain ⟨_, _, called⟩ := bind_ok.mp called
  split at called
  · exact .inl (idle called)
  next policy enabled =>
    split at called
    · exact .inl (idle called)
    split at called
    · exact .inl (idle called)
    split at called
    · exact .inl (idle called)
    unfold tick at called
    have mark : policy.lastSynthesisSequence = state.watermark := by
      rw [SynthesisState.watermark, enabled]
      rfl
    rw [mark] at called
    dsimp only at called
    split at called
    · exact .inl (idle called)
    split at called
    · exact nomatch called
    obtain ⟨posts, read, called⟩ := bind_ok.mp called
    obtain ⟨pending, waiting, called⟩ := bind_ok.mp called
    obtain rfl := sourcePosts_ok read
    exact .inr ⟨policy, pending, enabled, waiting, called⟩

/-- What a call answers is what it has stored. -/
inductive Settled (state : SynthesisState) (through : Nat) (acc : Sampling) :
    SynthesisReply → SynthesisState → Prop
  | waiting {reason : String} {policy : WorkforcePolicy}
      (mark : policy.lastSynthesisSequence = through)
      (ids : policy.pendingPostIds = acc.sourceIds)
      (count : policy.pendingPostCount = acc.eligibleCount) :
      Settled state through acc (.waiting reason acc.eligibleCount through)
        { state with policy := some policy }
  | scheduled {topics : List Id} {parent : Option Id} {policy : WorkforcePolicy}
      (mark : policy.lastSynthesisSequence = through) (ids : policy.pendingPostIds = [])
      (count : policy.pendingPostCount = 0) :
      Settled state through acc (.scheduled acc.sourceIds topics through acc.eligibleCount parent)
        { state with
          policy := some policy
          tasks := state.tasks ++ [⟨parent, acc.sourceIds, acc.eligibleCount, through⟩] }

theorem SynthesisScope.settle_ok {through : Nat} {acc : Sampling}
    (called : scope.settle env state policy through acc = .ok (reply, after)) :
    Settled state through acc reply after := by
  unfold settle at called
  dsimp only at called
  split at called
  · obtain ⟨rfl, rfl⟩ := Prod.mk.inj (pure_ok.mp called)
    exact .waiting rfl rfl rfl
  · obtain ⟨_, _, called⟩ := bind_ok.mp called
    obtain ⟨_, _, called⟩ := bind_ok.mp called
    obtain ⟨rfl, rfl⟩ := Prod.mk.inj (pure_ok.mp called)
    exact .scheduled rfl rfl rfl

theorem Drawn.nil : Drawn [] [] :=
  ⟨List.Sublist.refl _, Nat.zero_le _, fun _ => rfl, fun each => each⟩

variable {parts : List (List (Id × DiscussionPost))} {waiting : List (Id × DiscussionPost)}

theorem WellLogged.schedule (logged : WellLogged state)
    (called : scope.schedule env state = .ok (reply, after)) : WellLogged after := by
  rcases scope.schedule_ok called with ⟨_, rfl, rfl⟩ | ⟨policy, pending, _, _, settled⟩
  · exact logged
  have seen : Log.through PostEvent.sequence state.batch state.watermark ≤
      Log.through PostEvent.sequence state.events 0 := logged.ordered.through_le logged.seen
  cases scope.settle_ok settled with
  | waiting mark _ _ => exact ⟨logged.ordered, logged.distinct, logged.stored, mark.le.trans seen⟩
  | scheduled mark _ _ => exact ⟨logged.ordered, logged.distinct, logged.stored, mark.le.trans seen⟩

/-- The posts of a batch join those that wait, and a synthesis takes all of these. -/
theorem Accounted.schedule (logged : WellLogged state)
    (accounts : Accounted scope.society state parts waiting)
    (called : scope.schedule env state = .ok (reply, after)) :
    ∃ parts waiting, Accounted scope.society after parts waiting := by
  rcases scope.schedule_ok called with ⟨_, rfl, rfl⟩ | ⟨policy, pending, enabled, read, settled⟩
  · exact ⟨parts, waiting, accounts⟩
  obtain ⟨count, _, sample, ids, drawn⟩ := accounts.pending
  have policyIds : policy.pendingPostIds = sample.map Prod.fst := by
    rw [← ids, SynthesisState.pendingIds, enabled]
    rfl
  have policyCount : policy.pendingPostCount = waiting.length := by
    rw [← count, SynthesisState.pendingCount, enabled]
    rfl
  have stored : ∀ post ∈ sample, state.posts.find post.1 = some post.2 := by
    intro post member
    have listed : post ∈ parts.flatten ++ waiting :=
      List.mem_append_right _ (drawn.inOrder.subset member)
    rw [← accounts.counted] at listed
    exact SynthesisState.mem_postsOf (List.mem_filter.mp listed).1
  rw [policyIds] at read settled
  rw [getPosts_ok stored read, policyCount] at settled
  have sampled := @Sampled.foldl scope.society (state.postsOf state.batch) _ _ (.start drawn)
  have counted : eligiblePosts scope.society
      (state.postsOf (Log.upTo PostEvent.sequence state.events
        (Log.through PostEvent.sequence state.batch state.watermark))) =
      parts.flatten ++ (waiting ++ eligiblePosts scope.society (state.postsOf state.batch)) := by
    rw [SynthesisState.batch, Log.upTo_through logged.ordered, SynthesisState.postsOf_append,
      eligiblePosts_append, accounts.counted, List.append_assoc]
  have once : ((parts.flatten ++
      (waiting ++ eligiblePosts scope.society (state.postsOf state.batch))).map
        Prod.fst).Nodup := by
    rw [← counted]
    refine logged.distinct.sublist (((List.filter_sublist.map Prod.fst).trans
      (state.postsOf_ids _)).trans ?_)
    exact List.filter_sublist.map PostEvent.postId
  obtain ⟨sample, sampleIds, _, drawn⟩ := sampled.drawn
  have checked := drawn.sampleIds (List.nodup_append.mp (List.map_append ▸ once)).2.1
  cases scope.settle_ok settled with
  | waiting mark ids count =>
    refine ⟨parts, _, ?_, once, accounts.scheduled, count.trans sampled.count, ?_⟩
    · rw [← counted, ← mark]
      rfl
    · rw [← sampleIds, ← ids] at checked
      exact checked
  | scheduled mark ids count =>
    refine ⟨parts ++ [waiting ++ eligiblePosts scope.society (state.postsOf state.batch)], [],
      ?_, ?_, ?_, count, ?_⟩
    · rw [List.flatten_append, List.flatten_singleton, List.append_nil, ← counted, ← mark]
      rfl
    · rwa [List.flatten_append, List.flatten_singleton, List.append_nil]
    · exact List.rel_append accounts.scheduled
        (.cons ⟨sampled.count, sampleIds ▸ checked⟩ .nil)
    · have empty := Drawn.nil.sampleIds .nil
      rw [List.map_nil, ← ids] at empty
      exact empty

theorem SynthesisScope.watermark_le (called : scope.schedule env state = .ok (reply, after)) :
    state.watermark ≤ after.watermark := by
  rcases scope.schedule_ok called with ⟨_, rfl, rfl⟩ | ⟨policy, pending, _, _, settled⟩
  · exact Nat.le_refl _
  have further : state.watermark ≤ Log.through PostEvent.sequence state.batch state.watermark :=
    Log.through_ge synthesisBatch
  cases scope.settle_ok settled with
  | waiting mark _ _ => exact further.trans mark.ge
  | scheduled mark _ _ => exact further.trans mark.ge

end Ticks

/-! ### Runs -/

section Runs

variable {scope : SynthesisScope} {state : SynthesisState}

/-- What the run keeps. -/
def Tallied (scope : SynthesisScope) (state : SynthesisState) : Prop :=
  WellLogged state ∧ ∃ parts waiting, Accounted scope.society state parts waiting

theorem Tallied.configure (tallied : Tallied scope state) (interval : Nat) :
    Tallied scope (state.step scope (.configure interval)) := by
  obtain ⟨logged, parts, waiting, accounts⟩ := tallied
  cases enabled : state.policy with
  | none | some policy =>
    have mark : (state.step scope (.configure interval)).watermark = state.watermark := by
      simp [SynthesisState.step, SynthesisState.watermark, enabled]
    have ids : (state.step scope (.configure interval)).pendingIds = state.pendingIds := by
      simp [SynthesisState.step, SynthesisState.pendingIds, enabled]
    have count : (state.step scope (.configure interval)).pendingCount = state.pendingCount := by
      simp [SynthesisState.step, SynthesisState.pendingCount, enabled]
    refine ⟨⟨logged.ordered, logged.distinct, logged.stored, mark.le.trans logged.seen⟩, parts,
      waiting, ?_, accounts.once, accounts.scheduled, ?_⟩
    · rw [mark]
      exact accounts.counted
    · rw [count, ids]
      exact accounts.pending

theorem Tallied.post (tallied : Tallied scope state) (between : Nat) (id : Id)
    (post : DiscussionPost) : Tallied scope (state.step scope (.post between id post)) := by
  obtain ⟨logged, parts, waiting, accounts⟩ := tallied
  unfold SynthesisState.step
  dsimp only
  split
  · exact ⟨logged, parts, waiting, accounts⟩
  next absent =>
    have fresh : state.posts.find id = none := by simpa using absent
    have later : state.watermark < Log.through PostEvent.sequence state.events 0 + between + 1 := by
      have seen := logged.seen
      omega
    have unseen : ∀ event ∈ state.events, event.postId ≠ id := by
      intro event member same
      have found := logged.stored event member
      rw [same, fresh] at found
      exact absurd found (by simp)
    refine ⟨⟨?_, ?_, ?_, ?_⟩, parts, waiting, ?_, accounts.once, accounts.scheduled,
      accounts.pending⟩
    · refine List.pairwise_append.mpr ⟨logged.ordered, List.pairwise_singleton _ _, ?_⟩
      intro event member other last
      rw [List.mem_singleton.mp last]
      have bound := logged.ordered.le_through member 0
      dsimp only
      omega
    · rw [List.map_append, List.map_singleton]
      refine List.Nodup.append logged.distinct (List.nodup_singleton _) ?_
      intro other member last
      obtain ⟨event, there, rfl⟩ := List.mem_map.mp member
      exact unseen event there (List.mem_singleton.mp last)
    · intro event member
      dsimp only
      rw [Table.find_put]
      split
      · rfl
      next distinct =>
        rcases List.mem_append.mp member with old | new
        · exact logged.stored event old
        · rw [List.mem_singleton.mp new] at distinct
          exact absurd rfl distinct
    · have seen := logged.seen
      show state.watermark ≤ Log.through PostEvent.sequence (state.events ++ [_]) 0
      rw [Log.through, List.getLast?_concat]
      exact later.le
    · have same : Log.upTo PostEvent.sequence
          (state.events ++ [⟨Log.through PostEvent.sequence state.events 0 + between + 1, id⟩])
          state.watermark = Log.upTo PostEvent.sequence state.events state.watermark :=
        Log.upTo_append fun event member => by rwa [List.mem_singleton.mp member]
      show eligiblePosts _ (SynthesisState.postsOf _ (Log.upTo _ _ state.watermark)) = _
      rw [same, SynthesisState.postsOf_put _ fresh]
      · exact accounts.counted
      · exact fun event member => logged.stored event (List.mem_filter.mp member).1

theorem Tallied.step (tallied : Tallied scope state) (label : SynthesisLabel) :
    Tallied scope (state.step scope label) := by
  cases label with
  | configure interval => exact tallied.configure interval
  | post between id post => exact tallied.post between id post
  | schedule env =>
    unfold SynthesisState.step
    dsimp only
    split
    next reply after called =>
      obtain ⟨logged, parts, waiting, accounts⟩ := tallied
      exact ⟨logged.schedule called, accounts.schedule logged called⟩
    next => exact tallied

theorem watermark_step (state : SynthesisState) (label : SynthesisLabel) :
    state.watermark ≤ (state.step scope label).watermark := by
  cases label with
  | configure interval =>
    cases enabled : state.policy <;> simp [SynthesisState.step, SynthesisState.watermark, enabled]
  | post between id post =>
    unfold SynthesisState.step
    dsimp only
    split <;> exact Nat.le_refl _
  | schedule env =>
    unfold SynthesisState.step
    dsimp only
    split
    next reply after called => exact scope.watermark_le called
    next => exact Nat.le_refl _

theorem tallied_run (scope : SynthesisScope) (labels : List SynthesisLabel) :
    Tallied scope (SynthesisState.run scope labels) :=
  Transition.run_always (Tallied scope) labels
    ⟨⟨.nil, .nil, nofun, Nat.le_refl _⟩, [], [], rfl, .nil, .nil, rfl, Drawn.nil.sampleIds .nil⟩
    fun _ label tallied => tallied.step label

/-- What an answer says of the sample and of the count is what the call leaves in the store. -/
def Recorded (state : SynthesisState) : SynthesisReply → SynthesisState → Prop
  | .notDue _, after => after = state
  | .waiting _ count through, after =>
    after.tasks = state.tasks ∧ after.pendingCount = count ∧ after.watermark = through
  | .scheduled ids _ through count parent, after =>
    after.tasks = state.tasks ++ [⟨parent, ids, count, through⟩] ∧ after.pendingIds = [] ∧
      after.pendingCount = 0 ∧ after.watermark = through

theorem SynthesisScope.recorded {env : SynthesisEnv} {reply : SynthesisReply}
    {after : SynthesisState} (called : scope.schedule env state = .ok (reply, after)) :
    Recorded state reply after := by
  rcases scope.schedule_ok called with ⟨_, rfl, rfl⟩ | ⟨policy, pending, _, _, settled⟩
  · rfl
  cases scope.settle_ok settled with
  | waiting mark _ count => exact ⟨rfl, count, mark⟩
  | scheduled mark ids count => exact ⟨rfl, ids, count, mark⟩

end Runs

end PhysHarness
