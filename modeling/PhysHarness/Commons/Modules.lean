import PhysHarness.Commons.Acyclic
import PhysHarness.Lib.Transition
import Mathlib.Data.List.Sort

/-!
Module names identify nodes.

A node's module is named by the first digits of its identifier that no node of its experiment holds, and
the name leads back to the node by a search over the identifiers with that prefix. The goal node holds no
name, yet the search reads one off its identifier.
-/
namespace PhysHarness

open Outcome

/-! ### Identifiers -/

/-- The text of a UUID: five groups of hexadecimal digits. -/
def IsUuid (id : Id) : Prop :=
  ∃ a b c d e : List Char, (∀ group ∈ [a, b, c, d, e], ∀ digit ∈ group, isHexDigit digit = true) ∧
    [a, b, c, d, e].map List.length = [8, 4, 4, 4, 12] ∧
    id.toList = a ++ '-' :: (b ++ '-' :: (c ++ '-' :: (d ++ '-' :: e)))

/-- The name of a module by some digits. -/
def moduleName (digits : List Char) : String := "Commons.N" ++ .ofList digits

/-- The name of the node's module; a node without one goes by 8 digits of its identifier. -/
def nodeModule (id : Id) (node : CommonsNode) : String :=
  (node.leanModule.filter (· ≠ "")).getD (moduleName (id.toList.take 8))

/-- The dashed prefix of an identifier that a module name encodes. -/
def modulePrefix (module : String) : Option (List Char) :=
  let digits := module.toList.drop 9
  if "Commons.N".toList <+: module.toList ∧ digits.all isHexDigit = true ∧
      digits.length ∈ [8, 12, 16] then
    some (digits.take 8 ++ (List.range ((digits.length - 8) / 4)).flatMap fun index =>
      '-' :: (digits.drop (8 + 4 * index)).take 4)
  else none

def maxPrefixCandidates : Nat := 20

namespace CommonsDb

variable (db : CommonsDb)

/-- `_prefix_candidates` of the nodes -/
def prefixCandidates (start : List Char) (actor : Principal) : List (Id × Row CommonsNode) :=
  let rows := db.nodes.select fun id row => row.projectId = actor.projectId &&
    some row.payload.experimentId = actor.experimentId && start.isPrefixOf id.toList
  ((rows.insertionSort fun x y => x.1 ≤ y.1).take (maxPrefixCandidates + 1)).filter fun entry =>
    db.nodeInScope actor entry.1 entry.2

/-- The experiment's node whose module is the named one. -/
def moduleNode (module : String) (actor : Principal) (experimentId : Id) :
    Except Failure (Id × Row CommonsNode) :=
  let candidates := ((modulePrefix module).map fun start => db.prefixCandidates start actor).getD []
  orThrow (candidates.find? fun entry =>
      entry.2.payload.experimentId = experimentId && nodeModule entry.1 entry.2.payload = module)
    (.refuse "COMMONS_MODULE_NOT_FOUND"
      ("No commons node has the module " ++ .ofList (module.toList.take 100) ++ ".") 404 false
      "Import a module name a node reports (commons_read, commons_query).")

/-- `_goal_row` -/
def goalRow (projectId : ProjectId) (experimentId : Id) : Option (Id × Row CommonsNode) :=
  let rows := db.nodes.select fun _ row => row.projectId = projectId &&
    row.payload.experimentId = experimentId && row.payload.nodeType = .goal
  (rows.insertionSort fun x y => x.1 ≤ y.1).head?

/-- The experiment's target, as long as its review stands. -/
def reviewedTarget (experiment : Row Experiment) : Option (Row Problem) :=
  (db.core.problems.find experiment.payload.problemId).filter fun target =>
    target.projectId = experiment.projectId && target.payload.semanticReview = .approved &&
      target.payload.targetDigest = experiment.payload.targetDigest

end CommonsDb

/-- Create the platform's goal once for an experiment. -/
def ensureGoalNode (env : Env) (experimentId : Id) (actor : Principal) (db : CommonsDb) :
    Except Failure CommonsDb := do
  researchRole actor
  let experiment ← db.core.getExperiment experimentId actor
  require (experimentId ∈ db.societies ∧ experiment.payload.sharing = .ideas)
    (.refuse "SOCIETY_DISABLED" "This experiment has no research-society commons." 409 false
      "Create the experiment with a society policy and ideas sharing.")
  if (db.goalRow experiment.projectId experimentId).isSome then
    return db
  else
    let _ ← orThrow (db.reviewedTarget experiment)
      (.refuse "TARGET_REVIEW_REQUIRED" "The goal node mirrors the current reviewed target." 409 false
        "Obtain a recorded target review before using the commons.")
    let nodes ← insertNew db.nodes (env.newId 0)
      { projectId := experiment.projectId, payload := { experimentId, nodeType := .goal } }
    return { db with nodes }

/-! ### Runs -/

/-- A node is created, or other parts of the service write the records that this reads. -/
inductive NodeLabel where
  | authored (env : Env) (experimentId : Id) (request : NodeRequest) (actor : Principal)
  | goal (env : Env) (experimentId : Id) (actor : Principal)
  | elsewhere (core : Db) (societies : List Id)

/-- New identifiers are UUIDs. -/
def NodeLabel.Uuid : NodeLabel → Prop
  | .authored env _ _ _ | .goal env _ _ => IsUuid (env.newId 0)
  | .elsewhere .. => True

section

variable [ContentHash]

/-- A refused creation leaves the commons as it was. -/
def CommonsDb.createdNode (db : CommonsDb) : NodeLabel → CommonsDb
  | .authored env experimentId request actor =>
    (createNode env experimentId request actor db).toOption.getD db
  | .goal env experimentId actor => (ensureGoalNode env experimentId actor db).toOption.getD db
  | .elsewhere core societies => { db with core, societies }

/-- Every state that node creations reach. -/
def CommonsDb.created (labels : List NodeLabel) : CommonsDb :=
  Transition.run CommonsDb.createdNode {} labels

end

/-! ### Names and prefixes -/

/-- The widths of a module name. -/
def moduleWidths : List Nat := [8, 12, 16]

theorem moduleName_inj {first second : List Char} (same : moduleName first = moduleName second) :
    first = second := by
  have texts := congrArg String.toList same
  simpa [moduleName, String.toList_append, String.toList_ofList] using texts

section Uuids

variable {id : Id}

/-- The digits of an identifier stand at the head of its text, with dashes between. -/
theorem IsUuid.digits (uuid : IsUuid id) : ∃ a b c rest : List Char,
    (∀ digit ∈ a ++ b ++ c, isHexDigit digit = true) ∧ a.length = 8 ∧ b.length = 4 ∧ c.length = 4 ∧
      hexOf id = a ++ b ++ c ++ rest ∧ ∃ tail, id.toList = a ++ '-' :: (b ++ '-' :: (c ++ '-' :: tail)) := by
  obtain ⟨a, b, c, d, e, hex, lengths, text⟩ := uuid
  have plain : ∀ group ∈ [a, b, c, d, e], group.filter (· ≠ '-') = group := by
    intro group member
    rw [List.filter_eq_self]
    intro digit inside
    have digits := hex group member digit inside
    rw [decide_eq_true_iff]
    rintro rfl
    exact absurd digits (by decide)
  simp only [List.map_cons, List.map_nil, List.cons.injEq, and_true] at lengths
  obtain ⟨la, lb, lc, -, -⟩ := lengths
  refine ⟨a, b, c, d ++ e, ?_, la, lb, lc, ?_, _, text⟩
  · intro digit member
    simp only [List.mem_append] at member
    rcases member with (inside | inside) | inside
    · exact hex a (by simp) digit inside
    · exact hex b (by simp) digit inside
    · exact hex c (by simp) digit inside
  · rw [hexOf, text]
    simp only [List.filter_append, List.filter_cons, ne_eq, not_true_eq_false, decide_false,
      Bool.false_eq_true, if_false]
    rw [plain a (by simp), plain b (by simp), plain c (by simp), plain d (by simp), plain e (by simp)]
    simp only [List.append_assoc]

/-- The first 8 digits are those before the first dash. -/
theorem IsUuid.take_eight (uuid : IsUuid id) : (hexOf id).take 8 = id.toList.take 8 := by
  obtain ⟨a, b, c, rest, -, la, -, -, digits, tail, text⟩ := uuid.digits
  rw [digits, text, ← la]
  simp [List.append_assoc]

theorem IsUuid.take_length (uuid : IsUuid id) {width : Nat} (known : width ∈ moduleWidths) :
    ((hexOf id).take width).length = width := by
  obtain ⟨a, b, c, rest, -, la, lb, lc, digits, -⟩ := uuid.digits
  rw [digits]
  simp only [moduleWidths, List.mem_cons, List.not_mem_nil, or_false] at known
  simp only [List.length_take, List.length_append]
  omega

/-- The prefix that a name encodes is one of its node's identifier, and has its first 8 digits. -/
theorem IsUuid.modulePrefix (uuid : IsUuid id) {width : Nat} (known : width ∈ moduleWidths) :
    ∃ start, PhysHarness.modulePrefix (moduleName ((hexOf id).take width)) = some start ∧
      start <+: id.toList ∧ start.take 8 = id.toList.take 8 := by
  obtain ⟨a, b, c, rest, hex, la, lb, lc, digits, tail, text⟩ := uuid.digits
  have encodes : ∀ shown : List Char, (∀ digit ∈ shown, isHexDigit digit = true) →
      shown.length ∈ moduleWidths → PhysHarness.modulePrefix (moduleName shown) =
        some (shown.take 8 ++ (List.range ((shown.length - 8) / 4)).flatMap fun index =>
          '-' :: (shown.drop (8 + 4 * index)).take 4) := by
    intro shown all fits
    have name : (moduleName shown).toList = "Commons.N".toList ++ shown := by
      simp [moduleName, String.toList_append, String.toList_ofList]
    unfold PhysHarness.modulePrefix
    rw [name]
    have dropped : ("Commons.N".toList ++ shown).drop 9 = shown := rfl
    simp only [dropped]
    rw [if_pos ⟨List.prefix_append _ _, List.all_eq_true.mpr all, fits⟩]
  simp only [moduleWidths, List.mem_cons, List.not_mem_nil, or_false] at known
  rcases known with rfl | rfl | rfl
  · have shown : (hexOf id).take 8 = a := by
      rw [digits, ← la]
      simp [List.append_assoc]
    refine ⟨a, ?_, ?_, ?_⟩
    · rw [shown, encodes a (fun d m => hex d (by simp [m])) (by simp [la, moduleWidths])]
      simp [la]
    · exact text ▸ List.prefix_append _ _
    · rw [text, ← la]
      simp
  · have shown : (hexOf id).take 12 = a ++ b := by
      have length : (a ++ b).length = 12 := by simp [la, lb]
      rw [digits, List.append_assoc (a ++ b), List.take_left' length]
    refine ⟨a ++ '-' :: b, ?_, ?_, ?_⟩
    · rw [shown, encodes (a ++ b) (fun d m => hex d (List.mem_append_left _ m))
        (by simp [la, lb, moduleWidths])]
      simp [la, lb, List.range_succ]
    · rw [text]
      exact ⟨'-' :: (c ++ '-' :: tail), by simp⟩
    · rw [text, ← la]
      simp
  · have shown : (hexOf id).take 16 = a ++ b ++ c := by
      have length : (a ++ b ++ c).length = 16 := by simp [la, lb, lc]
      rw [digits, List.take_left' length]
    refine ⟨a ++ '-' :: (b ++ '-' :: c), ?_, ?_, ?_⟩
    · rw [shown, encodes (a ++ b ++ c) hex (by simp [la, lb, lc, moduleWidths])]
      have first : a.drop 8 = [] ∧ a.drop 12 = [] :=
        ⟨List.drop_eq_nil_of_le la.le, List.drop_eq_nil_of_le (by omega)⟩
      have second : b.drop 4 = [] ∧ b.take 4 = b :=
        ⟨List.drop_eq_nil_of_le lb.le, List.take_of_length_le lb.le⟩
      have third : c.take 4 = c := List.take_of_length_le lc.le
      simp [la, lb, lc, List.range_succ, List.drop_append, List.take_append, first, second, third]
    · rw [text]
      exact ⟨'-' :: tail, by simp⟩
    · rw [text, ← la]
      simp

end Uuids

/-! ### The names of a run -/

/-- The row is a node of the experiment. -/
def OfExperiment (projectId : ProjectId) (experimentId : Id) (row : Row CommonsNode) : Prop :=
  row.projectId = projectId ∧ row.payload.experimentId = experimentId

/-- The goal holds no name; the other nodes hold one by their own digits, and no two of one experiment the
same. -/
structure NamesInv (db : CommonsDb) : Prop where
  uuid : ∀ id row, db.nodes.find id = some row → IsUuid id
  unnamed : ∀ id row, db.nodes.find id = some row → row.payload.nodeType = .goal →
    row.payload.leanModule = none
  named : ∀ id row, db.nodes.find id = some row → row.payload.nodeType ≠ .goal →
    ∃ width ∈ moduleWidths, row.payload.leanModule = some (moduleName ((hexOf id).take width))
  distinct : ∀ projectId experimentId first one second two name,
    db.nodes.find first = some one → db.nodes.find second = some two →
    OfExperiment projectId experimentId one → OfExperiment projectId experimentId two →
    one.payload.leanModule = some name → two.payload.leanModule = some name → first = second

variable {db after : CommonsDb}

/-- A new name has a known width, and nothing in the experiment stands against it. -/
theorem newModule_ok {projectId : ProjectId} {experimentId nodeId : Id} {name : String}
    (returned : newModule db projectId experimentId nodeId = .ok name) :
    ∃ width ∈ moduleWidths, name = moduleName ((hexOf nodeId).take width) ∧
      ∀ id row, db.nodes.find id = some row → OfExperiment projectId experimentId row →
        if width = 8 then id.toList.take 8 ≠ nodeId.toList.take 8
        else row.payload.leanModule ≠ some name := by
  simp only [newModule, orThrow_ok, Option.map_eq_some_iff] at returned
  obtain ⟨width, found, rfl⟩ := returned
  refine ⟨width, List.mem_of_find?_eq_some found, rfl, fun id row stored belongs => ?_⟩
  have free := List.find?_some found
  rw [Bool.not_eq_true', Table.anyRow_eq_false] at free
  have apart := free id row stored
  rw [belongs.1, belongs.2] at apart
  split at apart
  · rw [if_pos ‹_›]
    simpa using apart
  · rw [if_neg ‹_›]
    simpa [moduleName] using apart

/-- A new node keeps the names apart. -/
theorem NamesInv.insert {id : Id} {row : Row CommonsNode} (inv : NamesInv db)
    (fresh : db.nodes.find id = none) (uuid : IsUuid id)
    (unnamed : row.payload.nodeType = .goal → row.payload.leanModule = none)
    (named : row.payload.nodeType ≠ .goal →
      ∃ width ∈ moduleWidths, row.payload.leanModule = some (moduleName ((hexOf id).take width)))
    (apart : ∀ other kept name, db.nodes.find other = some kept →
      OfExperiment row.projectId row.payload.experimentId kept →
      row.payload.leanModule = some name → kept.payload.leanModule ≠ some name) :
    NamesInv { db with nodes := db.nodes.put id row } where
  uuid other kept found := by
    rcases Table.find_put_cases found with ⟨rfl, -⟩ | ⟨-, stored⟩
    · exact uuid
    · exact inv.uuid other kept stored
  unnamed other kept found := by
    rcases Table.find_put_cases found with ⟨rfl, rfl⟩ | ⟨-, stored⟩
    · exact unnamed
    · exact inv.unnamed other kept stored
  named other kept found := by
    rcases Table.find_put_cases found with ⟨rfl, rfl⟩ | ⟨-, stored⟩
    · exact named
    · exact inv.named other kept stored
  distinct projectId experimentId first one second two name found found' here here' holds holds' := by
    rcases Table.find_put_cases found with ⟨rfl, rfl⟩ | ⟨-, stored⟩ <;>
      rcases Table.find_put_cases found' with ⟨rfl, rfl⟩ | ⟨-, stored'⟩
    · rfl
    · obtain ⟨rfl, rfl⟩ := here
      exact absurd holds' (apart second two name stored' here' holds)
    · obtain ⟨rfl, rfl⟩ := here'
      exact absurd holds (apart first one name stored here holds')
    · exact inv.distinct projectId experimentId first one second two name stored stored' here here' holds
        holds'

section

variable [ContentHash]

/-- An authored node gets a name of its own. -/
theorem createNode_names {env : Env} {experimentId : Id} {request : NodeRequest} {actor : Principal}
    (inv : NamesInv db) (uuid : IsUuid (env.newId 0))
    (returned : createNode env experimentId request actor db = .ok after) : NamesInv after := by
  simp only [createNode, bind_ok, require_ok, exists_const, insertNew_ok] at returned
  obtain ⟨_, -, authored, -, experiment, read, -, -, name, chosen, nodes, ⟨fresh, rfl⟩, linked⟩ := returned
  have project : experiment.projectId = actor.projectId := by
    simp only [CommonsDb.commonsExperiment, bind_ok, require_ok, exists_const, pure_ok] at read
    obtain ⟨_, found, -, -, -, rfl⟩ := read
    exact (Db.getRow_ok.mp found).2.1
  obtain ⟨width, known, rfl, free⟩ := newModule_ok chosen
  have inserted : NamesInv { db with
      nodes := db.nodes.put (env.newId 0)
        { projectId := actor.projectId
          payload :=
            { experimentId
              branchId := actor.branchId
              nodeType := request.nodeType
              leanHeader := request.leanHeader
              leanName := request.leanName
              leanStatement := request.leanStatement
              leanModule := some (moduleName ((hexOf (env.newId 0)).take width)) } } } := by
    refine inv.insert fresh uuid (fun goal => absurd goal authored) (fun _ => ⟨width, known, rfl⟩) ?_
    rintro other kept name stored here same held
    obtain rfl := Option.some.inj same
    have against := free other kept stored ⟨here.1.trans project.symm, here.2⟩
    by_cases eight : width = 8
    · subst eight
      rw [if_pos rfl] at against
      -- a name of 8 digits is held by a node with these digits only
      have other_ : kept.payload.nodeType ≠ .goal := by
        intro goal
        rw [inv.unnamed other kept stored goal] at held
        cases held
      obtain ⟨width', known', holds⟩ := inv.named other kept stored other_
      have digits := moduleName_inj (Option.some.inj (holds.symm.trans held))
      have widths := congrArg List.length digits
      rw [(inv.uuid other kept stored).take_length known', uuid.take_length known] at widths
      subst widths
      rw [(inv.uuid other kept stored).take_eight, uuid.take_eight] at digits
      exact against digits
    · rw [if_neg eight] at against
      exact against held
  have same := addEdges_nodes linked
  exact ⟨same ▸ inserted.uuid, same ▸ inserted.unnamed, same ▸ inserted.named, same ▸ inserted.distinct⟩

omit [ContentHash] in
/-- The goal gets no name. -/
theorem ensureGoalNode_names {env : Env} {experimentId : Id} {actor : Principal} (inv : NamesInv db)
    (uuid : IsUuid (env.newId 0)) (returned : ensureGoalNode env experimentId actor db = .ok after) :
    NamesInv after := by
  simp only [ensureGoalNode, bind_ok, require_ok, exists_const] at returned
  obtain ⟨_, -, _, -, -, returned⟩ := returned
  split at returned
  · exact Except.ok.inj returned ▸ inv
  · simp only [bind_ok, insertNew_ok, pure_ok] at returned
    obtain ⟨_, -, _, ⟨fresh, rfl⟩, rfl⟩ := returned
    refine inv.insert fresh uuid (fun _ => rfl) (fun authored => absurd rfl authored) ?_
    intro _ _ _ _ _ held
    cases held

theorem createdNode_names {label : NodeLabel} (uuid : label.Uuid) (inv : NamesInv db) :
    NamesInv (db.createdNode label) := by
  cases label with
  | authored env experimentId request actor =>
    cases returned : createNode env experimentId request actor db with
    | error failure => simpa [CommonsDb.createdNode, returned, Except.toOption] using inv
    | ok after =>
      simpa [CommonsDb.createdNode, returned, Except.toOption] using createNode_names inv uuid returned
  | goal env experimentId actor =>
    cases returned : ensureGoalNode env experimentId actor db with
    | error failure => simpa [CommonsDb.createdNode, returned, Except.toOption] using inv
    | ok after =>
      simpa [CommonsDb.createdNode, returned, Except.toOption] using ensureGoalNode_names inv uuid returned
  | elsewhere => exact ⟨inv.uuid, inv.unnamed, inv.named, inv.distinct⟩

theorem created_names {labels : List NodeLabel} (uuids : ∀ label ∈ labels, label.Uuid) :
    NamesInv (CommonsDb.created labels) := by
  have along : Transition.Along CommonsDb.createdNode (fun _ => NodeLabel.Uuid) {} labels :=
    Transition.along_of_forall uuids
  refine Transition.run_invariant NamesInv ?_ (fun db label inv uuid => createdNode_names uuid inv) along
  exact
    { uuid := fun _ _ found => by simp at found
      unnamed := fun _ _ found => by simp at found
      named := fun _ _ found => by simp at found
      distinct := fun _ _ _ _ _ _ _ found => by simp at found }

end

/-! ### Resolution -/

/-- The actor is bound to the experiment and reads its commons. -/
def CommonsDb.Reads (db : CommonsDb) (actor : Principal) (projectId : ProjectId) (experimentId : Id) :
    Prop :=
  actor.projectId = projectId ∧ actor.experimentId = some experimentId ∧
    db.core.inScope actor (fun experiment => experiment.sharing = .ideas) = true

/-- The nodes of the experiment whose identifiers share their first 8 digits. -/
def CommonsDb.sharing (db : CommonsDb) (projectId : ProjectId) (experimentId : Id) (digits : List Char) :
    List (Id × Row CommonsNode) :=
  db.nodes.select fun id row => row.projectId = projectId && row.payload.experimentId = experimentId &&
    id.toList.take 8 = digits

/-- The modules of the authored nodes have distinct names, and a node's name leads to it. -/
def ModulesIdentify (db : CommonsDb) (projectId : ProjectId) (experimentId : Id) : Prop :=
  (∀ first one second two, db.nodes.find first = some one → db.nodes.find second = some two →
    OfExperiment projectId experimentId one → OfExperiment projectId experimentId two →
    one.payload.nodeType ≠ .goal → two.payload.nodeType ≠ .goal →
    nodeModule first one.payload = nodeModule second two.payload → first = second) ∧
  ∀ actor, db.Reads actor projectId experimentId → ∀ id row, db.nodes.find id = some row →
    OfExperiment projectId experimentId row → row.payload.nodeType ≠ .goal →
    db.moduleNode (nodeModule id row.payload) actor experimentId = .ok (id, row)

/-- A goal does not come before the node whose name its own first 8 digits would give. -/
def GoalBehind (db : CommonsDb) (projectId : ProjectId) (experimentId : Id) : Prop :=
  ∀ goalId goal id row, db.nodes.find goalId = some goal → db.nodes.find id = some row →
    OfExperiment projectId experimentId goal → OfExperiment projectId experimentId row →
    goal.payload.nodeType = .goal → row.payload.nodeType ≠ .goal →
    row.payload.leanModule = some (moduleName (goalId.toList.take 8)) → id ≤ goalId

/-- The first match of a sorted list is below the others. -/
theorem find_least {α : Type} {related : α → α → Prop} {items : List α} {condition : α → Bool} {x y : α}
    (sorted : items.Pairwise related) (found : items.find? condition = some x) (member : y ∈ items)
    (holds : condition y = true) : y = x ∨ related x y := by
  obtain ⟨-, before, rest, rfl, none⟩ := List.find?_eq_some_iff_append.mp found
  rcases List.mem_append.mp member with early | late
  · exact absurd holds (by simpa using none y early)
  · rcases List.mem_cons.mp late with same | later
    · exact .inl same
    · exact .inr ((List.pairwise_cons.mp (List.pairwise_append.mp sorted).2.1).1 y later)

section Resolution

variable {projectId : ProjectId} {experimentId : Id} {actor : Principal} {start : List Char}

/-- With few nodes under a prefix all of them are candidates. -/
theorem mem_prefixCandidates (reads : db.Reads actor projectId experimentId) (long : 8 ≤ start.length)
    (few : (db.sharing projectId experimentId (start.take 8)).length ≤ maxPrefixCandidates) {id : Id}
    {row : Row CommonsNode} : (id, row) ∈ db.prefixCandidates start actor ↔
      db.nodes.find id = some row ∧ OfExperiment projectId experimentId row ∧ start <+: id.toList := by
  obtain ⟨project, experiment, sees⟩ := reads
  dsimp only [CommonsDb.prefixCandidates]
  rw [List.take_of_length_le, List.mem_filter, List.mem_insertionSort, Table.mem_select, project, experiment]
  · simp only [Bool.and_eq_true, decide_eq_true_eq, Option.some.injEq, List.isPrefixOf_iff_prefix,
      OfExperiment, and_assoc, CommonsDb.nodeInScope, experiment]
    constructor
    · rintro ⟨stored, here, there, head, -⟩
      exact ⟨stored, here, there, head⟩
    · rintro ⟨stored, here, there, head⟩
      refine ⟨stored, here, there, head, ?_⟩
      simpa [there] using sees
  · rw [List.length_insertionSort]
    refine Nat.le_succ_of_le (Nat.le_trans ?_ few)
    simp only [CommonsDb.sharing, Table.select, ← List.countP_eq_length_filter]
    refine List.countP_mono_left fun entry _ holds => ?_
    simp only [project, experiment, Bool.and_eq_true, decide_eq_true_eq, Option.some.injEq,
      List.isPrefixOf_iff_prefix] at holds ⊢
    refine ⟨holds.1, ?_⟩
    obtain ⟨tail, text⟩ := holds.2
    rw [← text, List.take_append_of_le_length long]

theorem prefixCandidates_sorted :
    (db.prefixCandidates start actor).Pairwise fun x y => x.1 ≤ y.1 := by
  have : Std.Total fun x y : Id × Row CommonsNode => x.1 ≤ y.1 := ⟨fun x y => le_total x.1 y.1⟩
  have : IsTrans (Id × Row CommonsNode) fun x y => x.1 ≤ y.1 := ⟨fun _ _ _ => le_trans⟩
  refine List.Pairwise.filter _ (List.Pairwise.sublist (List.take_sublist _ _) ?_)
  exact List.pairwise_insertionSort _ _

/-- An authored node goes by the name it holds. -/
theorem NamesInv.nodeModule (inv : NamesInv db) {id : Id} {row : Row CommonsNode}
    (stored : db.nodes.find id = some row) (authored : row.payload.nodeType ≠ .goal) :
    row.payload.leanModule = some (nodeModule id row.payload) := by
  obtain ⟨width, -, holds⟩ := inv.named id row stored authored
  have some_ : moduleName ((hexOf id).take width) ≠ "" := by
    intro empty
    have texts := congrArg String.toList empty
    simp [moduleName, String.toList_append] at texts
  rw [PhysHarness.nodeModule, holds, Option.filter_some, if_pos (decide_eq_true some_), Option.getD_some]

/-- The goal goes by its first 8 digits. -/
theorem NamesInv.goalModule (inv : NamesInv db) {id : Id} {row : Row CommonsNode}
    (stored : db.nodes.find id = some row) (goal : row.payload.nodeType = .goal) :
    PhysHarness.nodeModule id row.payload = moduleName (id.toList.take 8) := by
  rw [PhysHarness.nodeModule, inv.unnamed id row stored goal]
  rfl

variable (few : ∀ digits, (db.sharing projectId experimentId digits).length ≤ maxPrefixCandidates)
include few

/-- The candidates for the name of an authored node: itself, and whatever else begins with the prefix. -/
theorem NamesInv.candidates (inv : NamesInv db) (reads : db.Reads actor projectId experimentId) {id : Id}
    {row : Row CommonsNode} (stored : db.nodes.find id = some row)
    (here : OfExperiment projectId experimentId row) (authored : row.payload.nodeType ≠ .goal) :
    ∃ start, PhysHarness.modulePrefix (PhysHarness.nodeModule id row.payload) = some start ∧
      (∀ other kept, (other, kept) ∈ db.prefixCandidates start actor ↔
        db.nodes.find other = some kept ∧ OfExperiment projectId experimentId kept ∧
          start <+: other.toList) ∧
      (id, row) ∈ db.prefixCandidates start actor := by
  obtain ⟨width, known, holds⟩ := inv.named id row stored authored
  have name := Option.some.inj (holds.symm.trans (inv.nodeModule stored authored))
  obtain ⟨start, encodes, head, digits⟩ := (inv.uuid id row stored).modulePrefix known
  have long : 8 ≤ start.length := by
    have eight : (id.toList.take 8).length = 8 := by
      rw [← (inv.uuid id row stored).take_eight]
      exact (inv.uuid id row stored).take_length (by decide)
    rw [← digits, List.length_take] at eight
    omega
  have candidates := fun other kept =>
    @mem_prefixCandidates db projectId experimentId actor start reads long (few _) other kept
  exact ⟨start, name ▸ encodes, candidates, (candidates id row).mpr ⟨stored, here, head⟩⟩

/-- A name leads to its node when no goal with these digits comes before. -/
theorem moduleNode_authored (inv : NamesInv db) (behind : GoalBehind db projectId experimentId)
    (reads : db.Reads actor projectId experimentId) {id : Id} {row : Row CommonsNode}
    (stored : db.nodes.find id = some row) (here : OfExperiment projectId experimentId row)
    (authored : row.payload.nodeType ≠ .goal) :
    db.moduleNode (PhysHarness.nodeModule id row.payload) actor experimentId = .ok (id, row) := by
  obtain ⟨start, encodes, candidates, member⟩ := inv.candidates few reads stored here authored
  have holds := inv.nodeModule stored authored
  rw [CommonsDb.moduleNode, orThrow_ok, encodes, Option.map_some, Option.getD_some]
  cases found : (db.prefixCandidates start actor).find? fun entry =>
      decide (entry.2.payload.experimentId = experimentId) &&
        decide (PhysHarness.nodeModule entry.1 entry.2.payload =
          PhysHarness.nodeModule id row.payload) with
  | none =>
    have unmet := List.find?_eq_none.mp found (id, row) member
    simp [here.2] at unmet
  | some entry =>
    obtain ⟨other, kept⟩ := entry
    have met := List.find?_some found
    simp only [Bool.and_eq_true, decide_eq_true_eq] at met
    obtain ⟨stored', here', -⟩ := (candidates other kept).mp (List.mem_of_find?_eq_some found)
    have least := find_least prefixCandidates_sorted found member (by simp [here.2])
    have same : other = id := by
      by_cases goal : kept.payload.nodeType = .goal
      · -- the goal is found only when it stands first
        have after : id ≤ other := behind other kept id row stored' stored here' here goal authored
          (by rw [holds, ← met.2, inv.goalModule stored' goal])
        rcases least with equal | before
        · exact (congrArg Prod.fst equal).symm
        · exact le_antisymm before after
      · have holds' := inv.nodeModule stored' goal
        rw [met.2] at holds'
        exact inv.distinct projectId experimentId other kept id row _ stored' stored here' here holds' holds
    subst same
    obtain rfl := Option.some.inj (stored'.symm.trans stored)
    rfl

/-- The names of the authored nodes identify them exactly when no goal stands before a node whose name its
digits give. -/
theorem NamesInv.identify (inv : NamesInv db) :
    ModulesIdentify db projectId experimentId ↔ GoalBehind db projectId experimentId := by
  constructor
  · rintro ⟨-, resolves⟩ goalId goal id row storedGoal stored hereGoal here isGoal authored name
    let reader : Principal :=
      { id := "", projectId, role := .operator, experimentId := some experimentId
        agentScoped := fun _ => rfl, branchScoped := fun _ => rfl }
    have reads : db.Reads reader projectId experimentId := ⟨rfl, rfl, rfl⟩
    obtain ⟨start, encodes, candidates, member⟩ := inv.candidates few reads stored here authored
    have holds := inv.nodeModule stored authored
    have same := Option.some.inj (holds.symm.trans name)
    obtain ⟨start', encodes', head, -⟩ := (inv.uuid goalId goal storedGoal).modulePrefix
      (by decide : 8 ∈ moduleWidths)
    rw [(inv.uuid goalId goal storedGoal).take_eight, ← same, encodes, Option.some.injEq] at encodes'
    subst encodes'
    have resolved := resolves reader reads id row stored here authored
    rw [CommonsDb.moduleNode, orThrow_ok, encodes, Option.map_some, Option.getD_some] at resolved
    have least := find_least prefixCandidates_sorted resolved
      ((candidates goalId goal).mpr ⟨storedGoal, hereGoal, head⟩)
      (by simp [hereGoal.2, inv.goalModule storedGoal isGoal, same])
    rcases least with equal | before
    · exact (congrArg Prod.fst equal).symm.le
    · exact before
  · intro behind
    refine ⟨?_, fun actor reads id row stored here authored =>
      moduleNode_authored few inv behind reads stored here authored⟩
    intro first one second two stored stored' here here' authored authored' same
    have holds := inv.nodeModule stored authored
    have holds' := inv.nodeModule stored' authored'
    rw [← same] at holds'
    exact inv.distinct projectId experimentId first one second two _ stored stored' here here' holds holds'

end Resolution

/-- **Module names identify nodes**, in every state that node creations reach with at most 20 nodes sharing
their first 8 digits, exactly when the goal does not stand before the node that holds its 8 digits as a
name. -/
theorem modules_identify [ContentHash] {labels : List NodeLabel} {projectId : ProjectId}
    {experimentId : Id} (uuids : ∀ label ∈ labels, label.Uuid)
    (few : ∀ digits, ((CommonsDb.created labels).sharing projectId experimentId digits).length ≤
      maxPrefixCandidates) :
    ModulesIdentify (CommonsDb.created labels) projectId experimentId ↔
      GoalBehind (CommonsDb.created labels) projectId experimentId :=
  (created_names uuids).identify few

namespace Scenario

/-- The records of an experiment whose target is reviewed. -/
def reviewedCore : Db :=
  { commonsCore with
    problems := (∅ : Table Id (Row Problem)).put "problem"
      { projectId := "project"
        payload :=
          { campaignId := "campaign"
            targetDigest := "target"
            environmentDigest := "environment"
            semanticReview := .approved } } }

def firstNode : Id := "0123abcd-0000-4000-8000-000000000002"

/-- A node, and then the goal under an identifier with the same first 8 digits. -/
def nodeThenGoal (goal : Id) : List NodeLabel :=
  [.elsewhere reviewedCore ["experiment"],
    .authored (envAt 0 firstNode) "experiment" { nodeType := .lemmaNode } controller,
    .goal (envAt 0 goal) "experiment" controller]

local instance modulesHash : ContentHash := textHash

def goalBefore : Id := "0123abcd-0000-4000-8000-000000000001"
def goalAfter : Id := "0123abcd-0000-4000-8000-000000000003"

theorem hexGroups {groups : List (List Char)}
    (checked : groups.all (fun group => group.all isHexDigit) = true) :
    ∀ group ∈ groups, ∀ digit ∈ group, isHexDigit digit = true := by
  simpa only [List.all_eq_true] using checked

theorem uuid_firstNode : IsUuid firstNode :=
  ⟨"0123abcd".toList, "0000".toList, "4000".toList, "8000".toList, "000000000002".toList,
    hexGroups (by decide +kernel), rfl, rfl⟩

theorem uuid_goalAfter : IsUuid goalAfter :=
  ⟨"0123abcd".toList, "0000".toList, "4000".toList, "8000".toList, "000000000003".toList,
    hexGroups (by decide +kernel), rfl, rfl⟩

theorem nodeThenGoal_few (digits : List Char) :
    ((CommonsDb.created (nodeThenGoal goalAfter)).sharing "project" "experiment" digits).length ≤
      maxPrefixCandidates := by
  refine Nat.le_trans (List.length_filter_le ..) ?_
  decide +kernel

theorem nodeThenGoal_behind :
    GoalBehind (CommonsDb.created (nodeThenGoal goalAfter)) "project" "experiment" := by
  have rows : (CommonsDb.created (nodeThenGoal goalAfter)).nodes.rows.map
      (fun entry => (entry.1, decide (entry.2.payload.nodeType = .goal))) =
        [(goalAfter, true), (firstNode, false)] := by decide +kernel
  rintro goalId goal id row storedGoal stored - - isGoal authored -
  have first : (goalId, true) ∈ [(goalAfter, true), (firstNode, false)] :=
    rows ▸ List.mem_map.mpr ⟨_, Table.mem_rows.mpr storedGoal, by simp [isGoal]⟩
  have second : (id, false) ∈ [(goalAfter, true), (firstNode, false)] :=
    rows ▸ List.mem_map.mpr ⟨_, Table.mem_rows.mpr stored, by simp [authored]⟩
  simp only [List.mem_cons, Prod.mk.injEq, and_true, and_false, false_or, List.not_mem_nil, or_false,
    Bool.true_eq_false, Bool.false_eq_true] at first second
  rw [first, second]
  decide +kernel

/-- With the goal behind it the node is found by its name. -/
theorem nodeThenGoal_identified :
    ModulesIdentify (CommonsDb.created (nodeThenGoal goalAfter)) "project" "experiment" := by
  refine (modules_identify ?_ nodeThenGoal_few).mpr nodeThenGoal_behind
  intro label member
  simp only [nodeThenGoal, List.mem_cons, List.not_mem_nil, or_false] at member
  rcases member with rfl | rfl | rfl
  · trivial
  · exact uuid_firstNode
  · exact uuid_goalAfter

theorem operator_scoped : Role.operator = .agent → (some "experiment" : Option Id).isSome = true :=
  fun _ => rfl

theorem operator_unscoped : false = true → Role.operator = .agent ∧ (none : Option Id) = none :=
  fun ruled => by cases ruled

theorem no_branch_scoped : (none : Option Id).isSome = true → (some "experiment" : Option Id).isSome = true :=
  fun _ => rfl

def boundReader : Principal :=
  { id := "reader", projectId := "project", role := .operator, experimentId := some "experiment",
    agentScoped := operator_scoped, orchestratorUnscoped := operator_unscoped
    branchScoped := no_branch_scoped }

/-- A goal before the node is what the node's name leads to. -/
theorem nodeThenGoal_misled :
    ¬ ModulesIdentify (CommonsDb.created (nodeThenGoal goalBefore)) "project" "experiment" := by
  rintro ⟨-, resolves⟩
  have misled : ((CommonsDb.created (nodeThenGoal goalBefore)).moduleNode "Commons.N0123abcd" boundReader
      "experiment").toOption.map Prod.fst = some goalBefore := by decide +kernel
  have present : (((CommonsDb.created (nodeThenGoal goalBefore)).nodes.find firstNode).map fun row =>
      (row.projectId, row.payload.experimentId, row.payload.nodeType, nodeModule firstNode row.payload)) =
        some ("project", "experiment", .lemmaNode, "Commons.N0123abcd") := by decide +kernel
  obtain ⟨row, stored, facts⟩ := Option.map_eq_some_iff.mp present
  simp only [Prod.mk.injEq] at facts
  obtain ⟨project, experiment, kind, name⟩ := facts
  have authored : row.payload.nodeType ≠ .goal := by
    rw [kind]
    decide
  have resolved := resolves boundReader ⟨rfl, rfl, rfl⟩ firstNode row stored ⟨project, experiment⟩ authored
  rw [name] at resolved
  rw [resolved] at misled
  have same : firstNode = goalBefore := Option.some.inj misled
  exact absurd same (by decide)

end Scenario

end PhysHarness
