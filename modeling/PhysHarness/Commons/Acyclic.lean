import PhysHarness.Commons.Sources
import PhysHarness.Lib.Acyclic
import PhysHarness.System

/-!
# The acyclic graphs of the commons

Two graphs over the nodes are kept without cycles: the stored dependencies, and the imports of the
published sources. A link walks the stored dependencies of the experiment and refuses when the walk
is cut off; a new node has no incoming edges, so its edges need no walk. A publication replaces the
imports of one node, after a search from the new imports that did not meet the node.

## Main results

`dependencies_acyclic`: the stored dependencies have no cycle in any run.

`dependency_walk_exact`: a bounded walk over the dependencies has exactly what its start depends on, or
says that it was cut off.

`imports_acyclic`: the published imports have no cycle in a run whose publications each reach no more
nodes than an expansion may inline.
-/
namespace PhysHarness

open Outcome Relation

/-- The stored dependency of one node on another. -/
def DependsOn (db : CommonsDb) (x y : Id) : Prop := (db.edges.find ⟨x, y, .dependsOn⟩).isSome = true

/-- The import of one node by another's published source. -/
def Imports (db : CommonsDb) : Id → Id → Prop := Walk.Child db.importsOf

section Dependencies

variable {db after : CommonsDb} {projectId : ProjectId} {experimentId sourceId targetId : Id}
  {relation : EdgeRelation} {actor : Principal} {env : Env}

/-- A node of the experiment. -/
def InExperiment (db : CommonsDb) (projectId : ProjectId) (experimentId id : Id) : Prop :=
  ∃ row, db.nodes.find id = some row ∧ row.projectId = projectId ∧
    row.payload.experimentId = experimentId

/-- A dependency joins two nodes of one experiment, in whose project it is stored. -/
def EdgesInside (db : CommonsDb) : Prop :=
  ∀ x y projectId, db.edges.find ⟨x, y, .dependsOn⟩ = some projectId →
    ∃ experimentId, InExperiment db projectId experimentId x ∧
      InExperiment db projectId experimentId y

/-- The stored dependencies are inside their experiments and have no cycle. -/
structure DependenciesInv (db : CommonsDb) : Prop where
  inside : EdgesInside db
  acyclic : Acyclic.NoCycle (DependsOn db)

theorem dependencyChildren_iff {edges : List (Id × Id)} {x y : Id} :
    y ∈ dependencyChildren edges x ↔ (x, y) ∈ edges := by
  simp only [dependencyChildren, List.mem_insertionSort, List.mem_map, List.mem_filter,
    decide_eq_true_eq, Prod.exists, exists_eq_right]

/-- The dependencies of the experiment's nodes are among those that a walk reads. -/
theorem dependencyEdges_mem (inside : EdgesInside db) {x y : Id}
    (here : InExperiment db projectId experimentId x) (edge : DependsOn db x y) :
    (x, y) ∈ db.dependencyEdges projectId experimentId ∧
      InExperiment db projectId experimentId y := by
  obtain ⟨project, stored⟩ := Option.isSome_iff_exists.mp edge
  obtain ⟨row, found, rfl, rfl⟩ := here
  obtain ⟨_, ⟨source, present, rfl, rfl⟩, target⟩ := inside x y project stored
  obtain rfl := Option.some.inj (found.symm.trans present)
  refine ⟨List.mem_map.mpr ⟨(⟨x, y, .dependsOn⟩, row.projectId), ?_, rfl⟩, target⟩
  rw [Table.mem_select]
  exact ⟨stored, by simp [found]⟩

/-- What an experiment's node reaches, the walk over the experiment's dependencies reaches. -/
theorem reaches_walk (inside : EdgesInside db) {x y : Id}
    (here : InExperiment db projectId experimentId x) (path : ReflTransGen (DependsOn db) x y) :
    ReflTransGen
        (Walk.Child (dependencyChildren (db.dependencyEdges projectId experimentId))) x y ∧
      InExperiment db projectId experimentId y := by
  induction path with
  | refl => exact ⟨.refl, here⟩
  | tail _ edge ih =>
    obtain ⟨walked, stays⟩ := ih
    obtain ⟨stored, next⟩ := dependencyEdges_mem inside stays edge
    exact ⟨walked.tail (dependencyChildren_iff.mpr stored), next⟩

/-- An edge that was added joins two nodes of the experiment, and its walk was not cut off. -/
theorem addEdge_cases {newSource added : Bool}
    (done : addEdge db projectId experimentId sourceId relation targetId actor newSource =
      .ok (after, added)) :
    after = db ∨
      (targetId ≠ sourceId ∧ InExperiment db actor.projectId experimentId targetId ∧
        after = { db with edges := db.edges.put ⟨sourceId, targetId, relation⟩ projectId } ∧
        (relation = .dependsOn → newSource = false → ∃ reached,
          Walk.closure (dependencyChildren (db.dependencyEdges projectId experimentId)) targetId
            maxGraphNodes = (reached, false) ∧ sourceId ∉ reached)) := by
  simp only [addEdge, bind_ok, require_ok, exists_const] at done
  obtain ⟨distinct, row, read, done⟩ := done
  have target : InExperiment db actor.projectId experimentId targetId := by
    simp only [CommonsDb.commonsNode, bind_ok, require_ok, exists_const, pure_ok] at read
    obtain ⟨_, found, same, rfl⟩ := read
    obtain ⟨stored, project, -⟩ := Db.getRow_ok.mp found
    exact ⟨_, stored, project, same⟩
  split at done
  · simp only [pure_ok, Prod.mk.injEq] at done
    exact .inl done.1.symm
  split at done
  · simp only [CommonsDb.experimentDependencies, bind_ok, require_ok, exists_const, pure_ok,
      Prod.mk.injEq] at done
    obtain ⟨_, ⟨-, rfl⟩, unreached, whole, rfl, -⟩ := done
    exact .inr ⟨distinct, target, rfl, fun _ _ => ⟨_, Prod.ext rfl whole, unreached⟩⟩
  next unchecked =>
    simp only [pure_ok, Prod.mk.injEq] at done
    exact .inr ⟨distinct, target, done.1.symm, fun depends old => absurd ⟨depends, old⟩ unchecked⟩

/-- What no edge points at, nothing else reaches. -/
theorem unreached_of_noIn {x y : Id} (noIn : ∀ z, ¬ DependsOn db z y) (distinct : x ≠ y) :
    ¬ ReflTransGen (DependsOn db) x y := by
  intro path
  rcases ReflTransGen.cases_tail path with same | ⟨_, -, edge⟩
  · exact distinct same.symm
  · exact noIn _ edge

/-- One more edge between two nodes of an experiment keeps the dependencies, unless it is a
dependency whose target reaches its source. -/
theorem DependenciesInv.put (inv : DependenciesInv db)
    (source : InExperiment db projectId experimentId sourceId)
    (target : InExperiment db projectId experimentId targetId)
    (apart : relation = .dependsOn → ¬ ReflTransGen (DependsOn db) targetId sourceId) :
    DependenciesInv
      { db with edges := db.edges.put ⟨sourceId, targetId, relation⟩ projectId } where
  inside x y project stored := by
    change (db.edges.put _ projectId).find _ = _ at stored
    rw [Table.find_put] at stored
    split at stored
    next same =>
      obtain ⟨rfl, rfl, -⟩ := EdgeKey.mk.inj same
      obtain rfl := Option.some.inj stored
      exact ⟨experimentId, source, target⟩
    · exact inv.inside x y project stored
  acyclic := by
    have edges : ∀ x y,
        DependsOn { db with edges := db.edges.put ⟨sourceId, targetId, relation⟩ projectId } x y →
          DependsOn db x y ∨ (x = sourceId ∧ (y = targetId ∧ relation = .dependsOn)) := by
      intro x y edge
      unfold DependsOn at edge
      rw [Table.find_put] at edge
      split at edge
      next same =>
        obtain ⟨rfl, rfl, depends⟩ := EdgeKey.mk.inj same
        exact .inr ⟨rfl, rfl, depends.symm⟩
      · exact .inl edge
    refine inv.acyclic.redirect edges ?_
    rintro _ ⟨rfl, depends⟩
    exact apart depends

theorem addEdge_inv {newSource added : Bool} (inv : DependenciesInv db)
    (project : projectId = actor.projectId)
    (source : InExperiment db projectId experimentId sourceId)
    (fresh : newSource = true → ∀ x, ¬ DependsOn db x sourceId)
    (done : addEdge db projectId experimentId sourceId relation targetId actor newSource =
      .ok (after, added)) : DependenciesInv after := by
  subst project
  rcases addEdge_cases done with rfl | ⟨distinct, target, rfl, walked⟩
  · exact inv
  · refine inv.put source target fun depends => ?_
    cases newSource with
    | true => exact unreached_of_noIn (fresh rfl) distinct
    | false =>
      intro path
      obtain ⟨reached, whole, unreached⟩ := walked depends rfl
      have walk := (reaches_walk inv.inside target path).1
      rcases Walk.closure_complete whole walk with same | member
      · exact distinct same.symm
      · exact unreached member

/-- The nodes that the start depends on along the edges, itself excluded. -/
def dependenciesOf (edges : List (Id × Id)) (start : Id) : Set Id :=
  {id | id ≠ start ∧ ReflTransGen (fun x y => (x, y) ∈ edges) start id}

theorem others_eq_dependenciesOf (edges : List (Id × Id)) (start : Id) :
    Walk.Others (dependencyChildren edges) start = dependenciesOf edges start := by
  have same : Walk.Child (dependencyChildren edges) = fun x y => (x, y) ∈ edges := by
    funext x y
    exact propext dependencyChildren_iff
  unfold Walk.Others dependenciesOf
  rw [same]

/-- A walk that was not cut off and did not meet the source leaves room for an edge from it. -/
theorem acyclic_of_unreached {edges more : List (Id × Id)} {source start : Id} {limit : Nat}
    (grows : ∀ x y, (x, y) ∈ more → (x, y) ∈ edges ∨ (x = source ∧ y = start))
    (distinct : start ≠ source)
    (unreached : source ∉ (Walk.closure (dependencyChildren edges) start limit).1)
    (whole : (Walk.closure (dependencyChildren edges) start limit).2 = false)
    (acyclic : Acyclic.NoCycle fun x y => (x, y) ∈ edges) :
    Acyclic.NoCycle fun x y => (x, y) ∈ more := by
  refine acyclic.redirect grows ?_
  rintro target rfl path
  have met : source ∈ dependenciesOf edges target := ⟨distinct.symm, path⟩
  rw [← others_eq_dependenciesOf, ← Walk.closure_exact whole] at met
  exact unreached met

/-- One more edge is among the dependencies of an experiment only as itself. -/
theorem dependencyEdges_put {key : EdgeKey} {experiment : Id} {x y : Id}
    (listed : (x, y) ∈
      CommonsDb.dependencyEdges { db with edges := db.edges.put key projectId } projectId experiment) :
    (x, y) ∈ db.dependencyEdges projectId experiment ∨
      (x = key.sourceId ∧ y = key.targetId ∧ key.relation = .dependsOn) := by
  obtain ⟨⟨found, project⟩, selected, same⟩ := List.mem_map.mp listed
  obtain ⟨rfl, rfl⟩ := Prod.mk.inj same
  rw [Table.mem_select, Table.find_put] at selected
  obtain ⟨stored, inside⟩ := selected
  split at stored
  next here =>
    simp only [Bool.and_eq_true, decide_eq_true_eq] at inside
    exact .inr ⟨by rw [here], by rw [here], here ▸ inside.1.2⟩
  next =>
    exact .inl (List.mem_map.mpr ⟨(found, project), Table.mem_select.mpr ⟨stored, inside⟩, rfl⟩)

/-- An edge is added only where it closes no cycle: the walk was not cut off and did not meet its
source, or nothing depends on its source. -/
theorem addEdge_acyclic {newSource added : Bool}
    (fresh : newSource = true → ∀ x, (x, sourceId) ∉ db.dependencyEdges projectId experimentId)
    (acyclic : Acyclic.NoCycle fun x y => (x, y) ∈ db.dependencyEdges projectId experimentId)
    (done : addEdge db projectId experimentId sourceId relation targetId actor newSource =
      .ok (after, added)) :
    Acyclic.NoCycle fun x y => (x, y) ∈ after.dependencyEdges projectId experimentId := by
  rcases addEdge_cases done with rfl | ⟨distinct, -, rfl, walked⟩
  · exact acyclic
  by_cases depends : relation = .dependsOn
  · have grows : ∀ x y, (x, y) ∈ CommonsDb.dependencyEdges
          { db with edges := db.edges.put ⟨sourceId, targetId, relation⟩ projectId }
          projectId experimentId →
        (x, y) ∈ db.dependencyEdges projectId experimentId ∨ (x = sourceId ∧ y = targetId) := by
      intro x y listed
      refine (dependencyEdges_put listed).imp_right ?_
      rintro ⟨source, target, -⟩
      exact ⟨source, target⟩
    cases newSource with
    | false =>
      obtain ⟨reached, ended, unreached⟩ := walked depends rfl
      refine acyclic_of_unreached grows distinct ?_ (by rw [ended]) acyclic
      rwa [ended]
    | true =>
      refine acyclic.redirect grows ?_
      rintro target rfl path
      rcases ReflTransGen.cases_tail path with same | ⟨_, -, edge⟩
      · exact distinct same.symm
      · exact fresh rfl _ edge
  · apply acyclic.congr
    intro x y listed
    refine (dependencyEdges_put listed).resolve_right ?_
    rintro ⟨-, -, same⟩
    exact depends same

/-- The walk from a node has exactly the nodes that it depends on when they are no more than the
limit, and is cut off otherwise. So an edge that is added behind a walk that was not cut off and did
not meet its source closes no cycle. -/
theorem dependency_walk_exact :
    (∀ (edges : List (Id × Id)) (start : Id) (limit : Nat),
      ((dependenciesOf edges start).encard ≤ limit →
        (Walk.closure (dependencyChildren edges) start limit).2 = false ∧
          (Walk.closure (dependencyChildren edges) start limit).1.Nodup ∧
          {id | id ∈ (Walk.closure (dependencyChildren edges) start limit).1} =
            dependenciesOf edges start) ∧
      (limit < (dependenciesOf edges start).encard →
        (Walk.closure (dependencyChildren edges) start limit).2 = true) ∧
      ∀ source, start ≠ source →
        source ∉ (Walk.closure (dependencyChildren edges) start limit).1 →
        (Walk.closure (dependencyChildren edges) start limit).2 = false →
        Acyclic.NoCycle (fun x y => (x, y) ∈ edges) →
        Acyclic.NoCycle fun x y => (x, y) ∈ (source, start) :: edges) ∧
    ∀ (db after : CommonsDb) (projectId : ProjectId) (experimentId sourceId targetId : Id)
      (relation : EdgeRelation) (actor : Principal) (newSource added : Bool),
      (newSource = true → ∀ x, (x, sourceId) ∉ db.dependencyEdges projectId experimentId) →
      Acyclic.NoCycle (fun x y => (x, y) ∈ db.dependencyEdges projectId experimentId) →
      addEdge db projectId experimentId sourceId relation targetId actor newSource =
        .ok (after, added) →
      Acyclic.NoCycle fun x y => (x, y) ∈ after.dependencyEdges projectId experimentId := by
  constructor
  · intro edges start limit
    have cut := Walk.closure_cut_iff (dependencyChildren edges) start limit
    rw [others_eq_dependenciesOf] at cut
    refine ⟨fun few => ?_, cut.mpr, fun source distinct unreached whole acyclic => ?_⟩
    · have whole := Bool.eq_false_iff.mpr (mt cut.mp (not_lt.mpr few))
      refine ⟨whole, (Walk.closure_collected ..).1.distinct, ?_⟩
      rw [Walk.closure_exact whole, others_eq_dependenciesOf]
    · refine acyclic_of_unreached (fun x y listed => ?_) distinct unreached whole acyclic
      rcases List.mem_cons.mp listed with same | old
      · exact .inr (Prod.mk.inj same)
      · exact .inl old
  · intro db after projectId experimentId sourceId targetId relation actor newSource added fresh
      acyclic done
    exact addEdge_acyclic fresh acyclic done

/-- A write of nodes that keeps every node in its experiment keeps the dependencies. -/
theorem DependenciesInv.nodes (inv : DependenciesInv db) (edges : after.edges = db.edges)
    (kept : ∀ projectId experimentId id, InExperiment db projectId experimentId id →
      InExperiment after projectId experimentId id) : DependenciesInv after where
  inside x y projectId stored := by
    rw [edges] at stored
    obtain ⟨experimentId, source, target⟩ := inv.inside x y projectId stored
    exact ⟨experimentId, kept _ _ _ source, kept _ _ _ target⟩
  acyclic := inv.acyclic.congr fun x y edge => by
    unfold DependsOn at edge ⊢
    rwa [edges] at edge

/-- Replacing a node's payload inside its experiment keeps every node in its experiment. -/
theorem inExperiment_replace {id : Id} {row : Row CommonsNode} {payload : CommonsNode}
    (stored : db.nodes.find id = some row)
    (same : payload.experimentId = row.payload.experimentId) {other : Id}
    (here : InExperiment db projectId experimentId other) :
    InExperiment (db.replaceNode id row payload) projectId experimentId other := by
  obtain ⟨found, present, project, experiment⟩ := here
  unfold InExperiment CommonsDb.replaceNode
  rw [Table.find_put]
  split
  next here =>
    subst here
    obtain rfl := Option.some.inj (stored.symm.trans present)
    exact ⟨_, rfl, project, same.trans experiment⟩
  · exact ⟨found, present, project, experiment⟩

/-- A new node keeps every node in its experiment. -/
theorem inExperiment_insert {id : Id} {row : Row CommonsNode} (fresh : db.nodes.find id = none)
    {other : Id} (here : InExperiment db projectId experimentId other) :
    InExperiment { db with nodes := db.nodes.put id row } projectId experimentId other := by
  obtain ⟨found, present, rest⟩ := here
  refine ⟨found, ?_, rest⟩
  rw [Table.find_put_ne, present]
  rintro rfl
  exact nomatch fresh.symm.trans present

theorem DependenciesInv.insert {id : Id} {row : Row CommonsNode} (inv : DependenciesInv db)
    (fresh : db.nodes.find id = none) :
    DependenciesInv { db with nodes := db.nodes.put id row } :=
  inv.nodes rfl fun _ _ _ here => inExperiment_insert fresh here

/-- A node that is not stored has no incoming dependency. -/
theorem EdgesInside.noIn (inside : EdgesInside db) {id : Id} (fresh : db.nodes.find id = none)
    (x : Id) : ¬ DependsOn db x id := by
  intro edge
  obtain ⟨project, stored⟩ := Option.isSome_iff_exists.mp edge
  obtain ⟨_, -, row, found, -⟩ := inside x id project stored
  exact nomatch fresh.symm.trans found

/-- The edges of a new node leave it without incoming dependencies. -/
theorem addEdges_inv {edges : List (EdgeRelation × Id)} (inv : DependenciesInv db)
    (project : projectId = actor.projectId)
    (source : InExperiment db projectId experimentId sourceId)
    (fresh : ∀ x, ¬ DependsOn db x sourceId)
    (done : addEdges projectId experimentId sourceId actor edges db = .ok after) :
    DependenciesInv after := by
  induction edges generalizing db with
  | nil =>
    obtain rfl := Except.ok.inj done
    exact inv
  | cons edge edges ih =>
    obtain ⟨relation, targetId⟩ := edge
    simp only [addEdges, bind_ok] at done
    obtain ⟨⟨next, added⟩, first, rest⟩ := done
    have kept := addEdge_inv inv project source (fun _ => fresh) first
    rcases addEdge_cases first with rfl | ⟨distinct, -, rfl, -⟩
    · exact ih inv source fresh rest
    · refine ih kept source (fun x edge => ?_) rest
      unfold DependsOn at edge
      rw [Table.find_put] at edge
      split at edge
      next same => exact distinct (EdgeKey.mk.inj same).2.1.symm
      · exact fresh x edge

theorem addImportEdges_inv {nodeId : Id} {imports : List SourceImport} (inv : DependenciesInv db)
    (project : projectId = actor.projectId)
    (source : InExperiment db projectId experimentId nodeId)
    (done : addImportEdges projectId experimentId nodeId actor imports db = .ok after) :
    DependenciesInv after := by
  induction imports generalizing db with
  | nil =>
    obtain rfl := Except.ok.inj done
    exact inv
  | cons entry imports ih =>
    unfold addImportEdges at done
    split at done
    next added first =>
      have kept := addEdge_inv inv project source (fun new : false = true => nomatch new) first
      rcases addEdge_cases first with same | ⟨-, -, same, -⟩
      · exact ih kept (same ▸ source) done
      · exact ih kept (by rw [same]; exact source) done
    next =>
      split at done
      · exact ih inv source done
      · exact nomatch done

end Dependencies

section Commands

variable [ContentHash] {db after : CommonsDb} {env : Env} {actor : Principal}

omit [ContentHash] in
/-- What an active commons experiment guarantees of its project. -/
theorem commonsExperiment_project {experimentId : Id} {experiment : Row Experiment}
    (read : db.commonsExperiment env experimentId actor = .ok experiment) :
    experiment.projectId = actor.projectId := by
  simp only [CommonsDb.commonsExperiment, bind_ok, require_ok, exists_const, pure_ok] at read
  obtain ⟨_, found, -, _, -, rfl⟩ := read
  exact (Db.getRow_ok.mp found).2.1

theorem createNode_inv {experimentId : Id} {request : NodeRequest} (inv : DependenciesInv db)
    (done : createNode env experimentId request actor db = .ok after) : DependenciesInv after := by
  simp only [createNode, bind_ok, require_ok, exists_const, insertNew_ok] at done
  obtain ⟨_, -, -, -, experiment, read, _, -, leanModule, -, nodes, ⟨fresh, rfl⟩, done⟩ := done
  have project := commonsExperiment_project read
  refine addEdges_inv (inv.insert fresh) project ?_ ?_ done
  · rw [project]
    exact ⟨_, Table.find_put_self .., rfl, rfl⟩
  · exact inv.inside.noIn fresh

omit [ContentHash] in
theorem linkNodes_inv {experimentId sourceId targetId : Id} {relation : EdgeRelation}
    (inv : DependenciesInv db)
    (done : linkNodes env experimentId sourceId relation targetId actor db = .ok after) :
    DependenciesInv after := by
  simp only [linkNodes, bind_ok, pure_ok] at done
  obtain ⟨_, -, experiment, read, source, found, ⟨_, added⟩, linked, rfl⟩ := done
  have project := commonsExperiment_project read
  simp only [CommonsDb.commonsNode, bind_ok, require_ok, exists_const, pure_ok] at found
  obtain ⟨_, row, same, rfl⟩ := found
  obtain ⟨stored, owned, -⟩ := Db.getRow_ok.mp row
  refine addEdge_inv inv project ?_ (fun new : false = true => by cases new) linked
  rw [project]
  exact ⟨_, stored, owned, same⟩

/-- A publication leaves the commons, or replaces the node's source and links its imports. -/
theorem recordLeanSource_cases [PublicationGate] {stands : Bool} {nodeId artifactId : Id}
    {record : SourceRecord} {reply : SourceReply}
    (done : recordLeanSource env stands nodeId artifactId record actor db = .ok (after, reply)) :
    (after = db ∧ ∀ rank replaced, reply ≠ .recorded rank replaced) ∨
      ∃ (row : Row CommonsNode) (experiment : Row Experiment) (source : LeanSource),
        db.nodes.find nodeId = some row ∧
        row.projectId = actor.projectId ∧ experiment.projectId = actor.projectId ∧
        db.importsReach nodeId record.imports = false ∧ source.imports = record.imports ∧
        (∃ replaced, reply = .recorded record.rank replaced) ∧
        addImportEdges experiment.projectId row.payload.experimentId nodeId actor record.imports
          (db.replaceNode nodeId row { row.payload with leanSource := some source }) =
            .ok after := by
  simp only [recordLeanSource, bind_ok] at done
  obtain ⟨_, -, row, found, experiment, read, done⟩ := done
  split at done
  · simp only [pure_ok, Prod.mk.injEq] at done
    exact .inl ⟨done.1.symm, fun _ _ same => by cases done.2.trans same⟩
  simp only [bind_ok, require_ok, orThrow_ok, exists_const] at done
  obtain ⟨artifact, -, -, content, -, done⟩ := done
  split at done
  · simp only [pure_ok, Prod.mk.injEq] at done
    exact .inl ⟨done.1.symm, fun _ _ same => by cases done.2.trans same⟩
  split at done
  · simp only [pure_ok, Prod.mk.injEq] at done
    exact .inl ⟨done.1.symm, fun _ _ same => by cases done.2.trans same⟩
  simp only [bind_ok, require_ok, exists_const] at done
  obtain ⟨-, done⟩ := done
  split at done
  · simp only [pure_ok, Prod.mk.injEq] at done
    exact .inl ⟨done.1.symm, fun _ _ same => by cases done.2.trans same⟩
  split at done
  · simp only [pure_ok, Prod.mk.injEq] at done
    exact .inl ⟨done.1.symm, fun _ _ same => by cases done.2.trans same⟩
  next unreached =>
    simp only [bind_ok, pure_ok, Prod.mk.injEq] at done
    obtain ⟨_, linked, rfl, rfl⟩ := done
    obtain ⟨stored, owned, -⟩ := Db.getRow_ok.mp found
    exact .inr ⟨row, experiment, _, stored, owned, commonsExperiment_project read,
      Bool.eq_false_iff.mpr unreached, rfl, ⟨_, rfl⟩, linked⟩

theorem recordLeanSource_inv [PublicationGate] {stands : Bool} {nodeId artifactId : Id}
    {record : SourceRecord} {reply : SourceReply} (inv : DependenciesInv db)
    (done : recordLeanSource env stands nodeId artifactId record actor db = .ok (after, reply)) :
    DependenciesInv after := by
  rcases recordLeanSource_cases done with
    ⟨rfl, -⟩ | ⟨row, experiment, source, stored, owned, project, -, -, -, linked⟩
  · exact inv
  · have kept : DependenciesInv
        (db.replaceNode nodeId row { row.payload with leanSource := some source }) :=
      inv.nodes rfl fun _ _ _ here => inExperiment_replace stored (by rfl) here
    refine addImportEdges_inv kept project ⟨_, Table.find_put_self .., ?_, rfl⟩ linked
    exact owned.trans project.symm

end Commands

section Runs

variable [ContentHash] [PublicationGate] {db after : CommonsDb}

/-- Every label keeps the dependencies. -/
theorem step_dependencies (label : CommonsLabel) (inv : DependenciesInv db) :
    DependenciesInv (db.step label) := by
  cases label with
  | createNode env experimentId request actor =>
    cases done : createNode env experimentId request actor db with
    | error failure => simpa [CommonsDb.step, CommonsDb.commit, done] using inv
    | ok after => simpa [CommonsDb.step, CommonsDb.commit, done] using createNode_inv inv done
  | linkNodes env experimentId sourceId relation targetId actor =>
    cases done : linkNodes env experimentId sourceId relation targetId actor db with
    | error failure => simpa [CommonsDb.step, CommonsDb.commit, done] using inv
    | ok after => simpa [CommonsDb.step, CommonsDb.commit, done] using linkNodes_inv inv done
  | recordLeanSource env stands nodeId artifactId record actor =>
    cases done : recordLeanSource env stands nodeId artifactId record actor db with
    | error failure =>
      simpa [CommonsDb.step, CommonsDb.commit, done, bind, Except.bind] using inv
    | ok recorded =>
      simpa [CommonsDb.step, CommonsDb.commit, done, bind, Except.bind] using
        recordLeanSource_inv inv done
  | outside core societies => exact inv.nodes rfl fun _ _ _ here => here
  | goal id projectId experimentId =>
    simp only [CommonsDb.step, CommonsDb.commit]
    split
    next done =>
      obtain ⟨_, inserted, same⟩ := bind_ok.mp done
      obtain ⟨fresh, rfl⟩ := insertNew_ok.mp inserted
      exact Except.ok.inj same ▸ inv.insert fresh
    · exact inv
  | revise id node =>
    simp only [CommonsDb.step]
    split
    · exact inv
    next row stored => exact inv.nodes rfl fun _ _ _ here => inExperiment_replace stored (by rfl) here

/-- The stored dependencies have no cycle, in any run of the commons. -/
theorem dependencies_acyclic (labels : List CommonsLabel) :
    Acyclic.NoCycle (DependsOn (CommonsDb.run labels)) := by
  have initially : DependenciesInv {} :=
    { inside := fun _ _ _ stored => nomatch stored
      acyclic := fun x cycle => by
        obtain ⟨_, edge, -⟩ := TransGen.head'_iff.mp cycle
        exact nomatch edge }
  exact (Transition.run_always DependenciesInv labels initially
    fun _ label => step_dependencies label).acyclic

end Runs

section Imports

variable {db after : CommonsDb}

theorem importsOf_congr (same : after.nodes = db.nodes) : after.importsOf = db.importsOf := by
  funext id
  simp only [CommonsDb.importsOf, same]

theorem addEdge_nodes {projectId : ProjectId} {experimentId sourceId targetId : Id}
    {relation : EdgeRelation} {actor : Principal} {newSource added : Bool}
    (done : addEdge db projectId experimentId sourceId relation targetId actor newSource =
      .ok (after, added)) : after.nodes = db.nodes := by
  rcases addEdge_cases done with rfl | ⟨-, -, rfl, -⟩
  · rfl
  · rfl

theorem addEdges_nodes {projectId : ProjectId} {experimentId sourceId : Id} {actor : Principal}
    {edges : List (EdgeRelation × Id)}
    (done : addEdges projectId experimentId sourceId actor edges db = .ok after) :
    after.nodes = db.nodes := by
  induction edges generalizing db with
  | nil => rw [← Except.ok.inj done]
  | cons edge edges ih =>
    simp only [addEdges, bind_ok] at done
    obtain ⟨_, first, rest⟩ := done
    exact (ih rest).trans (addEdge_nodes first)

theorem addImportEdges_nodes {projectId : ProjectId} {experimentId nodeId : Id} {actor : Principal}
    {imports : List SourceImport}
    (done : addImportEdges projectId experimentId nodeId actor imports db = .ok after) :
    after.nodes = db.nodes := by
  induction imports generalizing db with
  | nil => rw [← Except.ok.inj done]
  | cons entry imports ih =>
    unfold addImportEdges at done
    split at done
    next first => exact (ih done).trans (addEdge_nodes first)
    next =>
      split at done
      · exact ih done
      · exact nomatch done

/-- A write of a node changes its own imports only, to those of the source that it writes. -/
theorem imports_replaceNode {id x y : Id} {row : Row CommonsNode} {payload : CommonsNode} :
    Imports (db.replaceNode id row payload) x y ↔
      if x = id then ∃ source, payload.leanSource = some source ∧
        y ∈ source.imports.map SourceImport.nodeId
      else Imports db x y := by
  simp only [Imports, Walk.Child, CommonsDb.importsOf, CommonsDb.replaceNode, Table.find_put]
  by_cases here : x = id
  · simp only [here, if_true, Row.replace]
    cases payload.leanSource <;> simp
  · simp only [here, if_false]

/-- A new node without a source imports nothing. -/
theorem imports_insert {id : Id} {row : Row CommonsNode} (fresh : db.nodes.find id = none)
    (bare : row.payload.leanSource = none) :
    CommonsDb.importsOf { db with nodes := db.nodes.put id row } = db.importsOf := by
  funext x
  simp only [CommonsDb.importsOf, Table.find_put]
  by_cases here : x = id
  · simp only [here, if_true, bare, fresh]
  · simp only [here, if_false]

/-- No more nodes are reachable from a successful publication's imports than an expansion inlines. -/
def CommonsLabel.Bounded [ContentHash] [PublicationGate] (db : CommonsDb) : CommonsLabel → Prop
  | .recordLeanSource env stands nodeId artifactId record actor =>
    (∃ after rank replaced,
      PhysHarness.recordLeanSource env stands nodeId artifactId record actor db =
        .ok (after, .recorded rank replaced)) →
    ∃ nodes : List Id, nodes.length ≤ maxCommonsModules ∧
      ∀ entry ∈ record.imports, ∀ x, ReflTransGen (Imports db) entry.nodeId x → x ∈ nodes
  | _ => True

/-- Within the bound a search that did not meet the node shows that no import reaches it. -/
theorem unreached_of_bounded {nodeId : Id} {imports : List SourceImport} {nodes : List Id}
    (few : nodes.length ≤ maxCommonsModules)
    (covers : ∀ entry ∈ imports, ∀ x, ReflTransGen (Imports db) entry.nodeId x → x ∈ nodes)
    (missed : db.importsReach nodeId imports = false) :
    ∀ target ∈ imports.map SourceImport.nodeId, ¬ ReflTransGen (Imports db) target nodeId := by
  classical
  intro target member
  -- the vertices that the search can see
  let reachable (x : Id) : Prop :=
    ∃ entry ∈ imports, ReflTransGen (Imports db) entry.nodeId x
  have inner : ∀ x, x ∈ nodes.filter reachable ↔ reachable x := by
    intro x
    rw [List.mem_filter, decide_eq_true_iff, and_iff_right_iff_imp]
    rintro ⟨entry, listed, path⟩
    exact covers entry listed x path
  have fits : (nodes.filter reachable).length ≤ maxCommonsModules :=
    Nat.le_trans (List.length_filter_le ..) few
  refine Walk.search_complete missed fits ?_ ?_ member
  · intro x inside y edge
    obtain ⟨entry, listed, path⟩ := (inner x).mp inside
    exact (inner y).mpr ⟨entry, listed, path.tail edge⟩
  · intro x queued
    obtain ⟨entry, listed, rfl⟩ := List.mem_map.mp queued
    exact (inner _).mpr ⟨entry, listed, .refl⟩

variable [ContentHash] [PublicationGate]

/-- A publication within the bound keeps the imports without a cycle. -/
theorem recordLeanSource_imports {env : Env} {stands : Bool} {nodeId artifactId : Id}
    {record : SourceRecord} {actor : Principal} {reply : SourceReply}
    (acyclic : Acyclic.NoCycle (Imports db))
    (bounded : CommonsLabel.Bounded db
      (.recordLeanSource env stands nodeId artifactId record actor))
    (done : recordLeanSource env stands nodeId artifactId record actor db = .ok (after, reply)) :
    Acyclic.NoCycle (Imports after) := by
  rcases recordLeanSource_cases done with
    ⟨rfl, -⟩ | ⟨row, experiment, source, -, -, -, missed, same, ⟨replaced, rfl⟩, linked⟩
  · exact acyclic
  · obtain ⟨nodes, few, covers⟩ := bounded ⟨after, _, replaced, done⟩
    have edges : ∀ x y, Imports after x y → Imports db x y ∨
        (x = nodeId ∧ y ∈ record.imports.map SourceImport.nodeId) := by
      intro x y edge
      rw [Imports, importsOf_congr (addImportEdges_nodes linked)] at edge
      have changed := imports_replaceNode.mp edge
      split at changed
      next here =>
        obtain ⟨_, written, listed⟩ := changed
        obtain rfl := Option.some.inj written
        exact .inr ⟨here, same ▸ listed⟩
      · exact .inl changed
    exact acyclic.redirect edges (unreached_of_bounded few covers missed)

/-- Every label within the bound keeps the imports without a cycle. -/
theorem step_imports (label : CommonsLabel) (acyclic : Acyclic.NoCycle (Imports db))
    (bounded : label.Bounded db) : Acyclic.NoCycle (Imports (db.step label)) := by
  have kept : ∀ {after : CommonsDb}, after.importsOf = db.importsOf →
      Acyclic.NoCycle (Imports after) := fun same => by rwa [Imports, same]
  cases label with
  | createNode env experimentId request actor =>
    simp only [CommonsDb.step, CommonsDb.commit]
    split
    next done =>
      simp only [createNode, bind_ok, require_ok, exists_const, insertNew_ok] at done
      obtain ⟨_, -, -, -, _, -, _, -, _, -, _, ⟨fresh, rfl⟩, linked⟩ := done
      exact kept ((importsOf_congr (addEdges_nodes linked)).trans (imports_insert fresh rfl))
    · exact acyclic
  | linkNodes env experimentId sourceId relation targetId actor =>
    simp only [CommonsDb.step, CommonsDb.commit]
    split
    next done =>
      simp only [linkNodes, bind_ok, pure_ok] at done
      obtain ⟨_, -, _, -, _, -, ⟨_, added⟩, linked, rfl⟩ := done
      exact kept (importsOf_congr (addEdge_nodes linked))
    · exact acyclic
  | recordLeanSource env stands nodeId artifactId record actor =>
    simp only [CommonsDb.step, CommonsDb.commit]
    split
    next done =>
      obtain ⟨_, recorded, same⟩ := bind_ok.mp done
      exact Except.ok.inj same ▸ recordLeanSource_imports acyclic bounded recorded
    · exact acyclic
  | outside core societies => exact acyclic
  | goal id projectId experimentId =>
    simp only [CommonsDb.step, CommonsDb.commit]
    split
    next done =>
      obtain ⟨_, inserted, same⟩ := bind_ok.mp done
      obtain ⟨fresh, rfl⟩ := insertNew_ok.mp inserted
      exact Except.ok.inj same ▸ kept (imports_insert fresh rfl)
    · exact acyclic
  | revise id node =>
    simp only [CommonsDb.step]
    split
    · exact acyclic
    next row stored =>
      refine acyclic.congr fun x y edge => ?_
      have changed := imports_replaceNode.mp edge
      split at changed
      next here =>
        obtain ⟨source, written, listed⟩ := changed
        have current : row.payload.leanSource = some source := written
        simpa [Imports, Walk.Child, CommonsDb.importsOf, here, stored, current] using listed
      · exact changed

end Imports

namespace Scenario

/-- A gate that refuses nothing. -/
@[reducible] def openGate : PublicationGate := ⟨fun _ => none⟩

/-- Records of one running experiment with one source. -/
def commonsCore : Db where
  experiments := (∅ : Table Id (Row Experiment)).put "experiment"
    { projectId := "project"
      payload :=
        { problemId := "problem"
          targetDigest := "target"
          status := .running
          startedAt := some 0
          maxRuntimeSeconds := 3600
          sharing := .ideas } }
  artifacts := (∅ : Table Id (Row Artifact)).put "source"
    { projectId := "project"
      payload :=
        { experimentId := some "experiment"
          originActorId := "controller"
          artifactKind := "lean_source"
          sha256 := "text"
          submittedBy := "controller" } }

/-- One publication that imports these nodes. -/
def publish (nodeId : Id) (imports : List Id) : CommonsLabel :=
  .recordLeanSource { envAt 0 with content := some } true nodeId "source"
    { rank := .complete
      bytes := 4
      statementCheck := none
      leanStatementSha256 := none
      imports := imports.map fun imported => { module := imported, nodeId := imported, sha256 := none }
      closure := none }
    controller

/-- Two nodes: the second one's source imports the first, which then cannot import the second. -/
def importing : List CommonsLabel :=
  let node (id : Id) : CommonsLabel :=
    .createNode (envAt 0 id) "experiment" { nodeType := .lemmaNode } controller
  [.outside commonsCore ["experiment"], node "11111111", node "22222222",
    publish "11111111" [], publish "22222222" ["11111111"], publish "11111111" ["22222222"]]

section
local instance commonsHash : ContentHash := textHash
local instance commonsGate : PublicationGate := openGate

end

/-- Three nodes, each of which depends on the next. -/
def chained : List (Id × Id) := [("a", "b"), ("b", "c")]

/-- What depends on the last two nodes only goes forward. -/
theorem chained_forward {x y : Id} (path : ReflTransGen (fun x y => (x, y) ∈ chained) x y) :
    (x = "b" → y = "b" ∨ y = "c") ∧ (x = "c" → y = "c") := by
  induction path with
  | refl => exact ⟨.inl, id⟩
  | @tail y z _ edge ih =>
    simp only [chained, List.mem_cons, Prod.mk.injEq, List.not_mem_nil, or_false] at edge
    rcases edge with ⟨rfl, rfl⟩ | ⟨rfl, rfl⟩
    · exact ⟨fun first => .inl rfl, fun last => absurd (ih.2 last) (by decide)⟩
    · exact ⟨fun first => .inr rfl, fun last => absurd (ih.2 last) (by decide)⟩

theorem chained_acyclic : Acyclic.NoCycle fun x y => (x, y) ∈ chained := by
  intro x cycle
  obtain ⟨y, edge, back⟩ := TransGen.head'_iff.mp cycle
  simp only [chained, List.mem_cons, Prod.mk.injEq, List.not_mem_nil, or_false] at edge
  rcases edge with ⟨rfl, rfl⟩ | ⟨rfl, rfl⟩
  · exact absurd ((chained_forward back).1 rfl) (by decide)
  · exact absurd ((chained_forward back).2 rfl) (by decide)

/-- The node before the last depends on one node. -/
theorem chained_last : dependenciesOf chained "b" = {"c"} := by
  ext x
  constructor
  · rintro ⟨other, path⟩
    exact ((chained_forward path).1 rfl).resolve_left other
  · rintro rfl
    exact ⟨by decide, .single (by decide)⟩

/-- The first node depends on both others. -/
theorem chained_first : 1 < (dependenciesOf chained "a").encard := by
  have edge : ("a", "b") ∈ chained := by decide
  have both : {"b", "c"} ⊆ dependenciesOf chained "a" := by
    rintro x (rfl | rfl)
    · exact ⟨by decide, .single edge⟩
    · exact ⟨by decide, .tail (.single edge) (by decide)⟩
  refine lt_of_lt_of_le ?_ (Set.encard_le_encard both)
  rw [Set.encard_pair (by decide)]
  decide

section
local instance unlinkedHash : ContentHash := textHash
local instance unlinkedGate : PublicationGate := openGate

/-- Two nodes without edges. -/
def unlinked : CommonsDb := CommonsDb.run (importing.take 3)

/-- Both walks of the chain, an edge that closes no cycle of it, and one that is added to a store. -/
theorem chained_walks :
    ((Walk.closure (dependencyChildren chained) "b" 1).2 = false ∧
        (Walk.closure (dependencyChildren chained) "b" 1).1.Nodup ∧
        {id | id ∈ (Walk.closure (dependencyChildren chained) "b" 1).1} =
          dependenciesOf chained "b") ∧
      (Walk.closure (dependencyChildren chained) "a" 1).2 = true ∧
      Acyclic.NoCycle (fun x y => (x, y) ∈ ("d", "a") :: chained) ∧
      ∃ after,
        addEdge unlinked "project" "experiment" "11111111" .dependsOn "22222222" controller =
          .ok (after, true) ∧
        Acyclic.NoCycle fun x y => (x, y) ∈ after.dependencyEdges "project" "experiment" := by
  have few : (dependenciesOf chained "b").encard ≤ (1 : Nat) := by
    rw [chained_last, Set.encard_singleton]
    rfl
  have bare : unlinked.dependencyEdges "project" "experiment" = [] := by decide
  have acyclic : Acyclic.NoCycle fun x y => (x, y) ∈ unlinked.dependencyEdges "project" "experiment" := by
    rw [bare]
    intro x cycle
    obtain ⟨_, edge, -⟩ := TransGen.head'_iff.mp cycle
    cases edge
  have fresh : false = true → ∀ x, (x, "11111111") ∉ unlinked.dependencyEdges "project" "experiment" :=
    fun new => by cases new
  obtain ⟨walks, adds⟩ := dependency_walk_exact
  refine ⟨(walks chained "b" 1).1 few, (walks chained "a" 1).2.1 chained_first,
    (walks chained "a" 5).2.2 "d" (by decide) (by decide) (by decide) chained_acyclic, _, rfl, ?_⟩
  exact adds unlinked _ "project" "experiment" "11111111" "22222222" .dependsOn controller false true
    fresh acyclic rfl
end

end Scenario

end PhysHarness
