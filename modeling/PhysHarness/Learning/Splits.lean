import PhysHarness.Learning.Datasets

/-!
What an exported dataset guarantees.

The loop over the selections succeeds exactly when each selection has a record by itself, no problem
is selected twice, and no family, proof or target is given two splits. None of this depends on the
order of the selections. Main result: `export_no_leak`.
-/
namespace PhysHarness
namespace Datasets

open Outcome Python

@[simp] theorem fromEvidence_ok {α : Type} {look : Except EvidenceStop α} {value : α} :
    fromEvidence look = .ok value ↔ look = .ok value := by
  cases look <;> simp [fromEvidence, Except.mapError]

/-- The table has the decisions in their order, one for each digest. -/
theorem grantTable_ok {rest : List LicenseGrant} {grants table : List (Digest × LicenseGrant)}
    (distinct : (grants.map Prod.fst).Nodup) :
    grantTable rest grants = .ok table ↔
      (grants.map Prod.fst ++ rest.map LicenseGrant.artifactSha256).Nodup ∧
        table = grants ++ rest.map fun grant => (grant.artifactSha256, grant) := by
  induction rest generalizing grants with
  | nil => simp [grantTable, distinct, eq_comm]
  | cons grant rest ih =>
    simp only [grantTable, bind_ok, require_ok, exists_const]
    constructor
    · rintro ⟨fresh, done⟩
      rw [Dict.set, if_neg fresh] at done
      have more : ((grants ++ [(grant.artifactSha256, grant)]).map Prod.fst).Nodup := by
        rw [List.map_append, List.nodup_append]
        refine ⟨distinct, List.nodup_singleton _, ?_⟩
        rintro digest member other last rfl
        obtain rfl : digest = grant.artifactSha256 := List.mem_singleton.mp last
        exact fresh member
      obtain ⟨all, same⟩ := (ih more).mp done
      constructor
      · simpa using all
      · simpa using same
    · rintro ⟨all, same⟩
      have fresh : grant.artifactSha256 ∉ grants.map Prod.fst := by
        intro member
        exact (List.nodup_append.mp all).2.2 _ member _ List.mem_cons_self rfl
      refine ⟨fresh, ?_⟩
      rw [Dict.set, if_neg fresh]
      have more : ((grants ++ [(grant.artifactSha256, grant)]).map Prod.fst ++
          rest.map LicenseGrant.artifactSha256).Nodup := by simpa using all
      refine (ih (List.nodup_append.mp more).1).mpr ⟨more, ?_⟩
      simpa using same

/-- The records of the selections that have one. -/
def recordsOf (record : DatasetSelection → Except DatasetError DatasetRecord)
    (selections : List DatasetSelection) : List DatasetRecord :=
  selections.filterMap fun selection => (record selection).toOption

section Selecting

variable [FloatValue] [ContentHash] [ByteHash]

variable {evidence : CanonicalEvidence} {grants : List (Digest × LicenseGrant)}
  {artifactBytes : Digest → Option Bytes} {selection : DatasetSelection} {record : DatasetRecord}

/-- The record of a selection by itself. -/
def selectedRecord (evidence : CanonicalEvidence) (grants : List (Digest × LicenseGrant))
    (artifactBytes : Digest → Option Bytes) (selection : DatasetSelection) :
    Except DatasetError DatasetRecord :=
  approve evidence grants artifactBytes selection >>= datasetRecord selection

/-- What a constructed record says of its selection. -/
structure Describes (approved : Approved) (selection : DatasetSelection) (record : DatasetRecord) :
    Prop where
  problemId : record.problemId = selection.problemId
  receiptId : record.receiptId = selection.receiptId
  familyId : record.familyId = selection.familyId
  split : record.split = selection.split
  proofSha256 : record.proofSha256 = approved.sha256
  license : record.licenseId = approved.grant.licenseId ∧
    record.licenseApprovedBy = approved.grant.approvedBy ∧
    record.attribution = approved.grant.attribution
  target : Dict.get approved.problem "target_digest" = some (.str record.targetDigest)
  proof : Bytes.text approved.source = some record.proof

omit [FloatValue] [ContentHash] [ByteHash] in
theorem datasetRecord_ok {approved : Approved}
    (done : datasetRecord selection approved = .ok record) : Describes approved selection record := by
  simp only [datasetRecord, CanonicalEvidence.item, bind_ok, fromEvidence_ok, orThrow_ok] at done
  obtain ⟨target, found, _, -, _, -, proof, decoded, _, -, _, -, built⟩ := done
  simp only [validRecord, Option.bind_eq_bind, Option.bind_eq_some_iff] at built
  obtain ⟨digest, text, _, -, _, -, _, -, _, -, _, -, _, -, built⟩ := built
  split at built
  next digests =>
    obtain rfl := Option.some.inj built
    obtain rfl : target = .str digest := by
      cases target with
      | str own => rw [Option.some.inj text]
      | _ => cases text
    exact ⟨rfl, rfl, rfl, rfl, rfl, ⟨rfl, rfl, rfl⟩, found, decoded⟩
  · cases built

/-- What the checks of one selection have found. -/
structure Supports (evidence : CanonicalEvidence) (grants : List (Digest × LicenseGrant))
    (selection : DatasetSelection) (approved : Approved) : Prop where
  receipt : evidence.validate selection.problemId selection.receiptId =
    some (.valid approved.checked)
  candidate : approved.checked.candidateSha256 = some approved.sha256
  granted : Dict.get grants approved.sha256 = some approved.grant
  allowed : approved.grant.trainingAllowed = true
  hashes : ByteHash.sha256 approved.source = approved.sha256

theorem approve_ok {approved : Approved}
    (done : approve evidence grants artifactBytes selection = .ok approved) :
    Supports evidence grants selection approved := by
  simp only [approve, bind_ok, fromEvidence_ok, orThrow_ok, require_ok, exists_const, pure_ok] at done
  obtain ⟨checked, judged, _, -, _, -, ⟨sha256, grant⟩, trained, source, -, hashes, rfl⟩ := done
  have valid : evidence.validate selection.problemId selection.receiptId = some (.valid checked) := by
    unfold checkedReceipt at judged
    split at judged
    next found =>
      obtain rfl := Except.ok.inj judged
      exact found
    · cases judged
    · cases judged
  simp only [trainingGrant, Option.bind_eq_bind, Option.bind_eq_some_iff] at trained
  obtain ⟨digest, candidate, decision, granted, trained⟩ := trained
  split at trained
  next allowed =>
    obtain ⟨rfl, rfl⟩ := Prod.mk.inj (Option.some.inj trained)
    exact ⟨valid, candidate, granted, allowed, hashes⟩
  · cases trained

theorem selectedRecord_ok (done : selectedRecord evidence grants artifactBytes selection = .ok record) :
    ∃ approved, approve evidence grants artifactBytes selection = .ok approved ∧
      Supports evidence grants selection approved ∧ Describes approved selection record := by
  obtain ⟨approved, supported, built⟩ := bind_ok.mp done
  exact ⟨approved, supported, approve_ok supported, datasetRecord_ok built⟩

/-- The records name the problems of their selections. -/
theorem recordsOf_problems {selections : List DatasetSelection}
    (approved : ∀ selection ∈ selections, ∃ built,
      selectedRecord evidence grants artifactBytes selection = .ok built) :
    (recordsOf (selectedRecord evidence grants artifactBytes) selections).map
        DatasetRecord.problemId = selections.map DatasetSelection.problemId := by
  induction selections with
  | nil => rfl
  | cons selection selections ih =>
    obtain ⟨built, has⟩ := approved selection List.mem_cons_self
    obtain ⟨_, -, -, describes⟩ := selectedRecord_ok has
    have rest := ih fun later member => approved later (List.mem_cons_of_mem _ member)
    have first : (selectedRecord evidence grants artifactBytes selection).toOption = some built := by
      rw [has]
      rfl
    rw [recordsOf] at rest ⊢
    rw [List.filterMap_cons, first]
    dsimp only
    rw [List.map_cons, rest, List.map_cons, describes.problemId]

/-- The decisions count by what the table has for each digest. -/
theorem selectedRecord_congr {others : List (Digest × LicenseGrant)}
    (same : ∀ digest, Dict.get grants digest = Dict.get others digest) :
    selectedRecord evidence grants artifactBytes = selectedRecord evidence others artifactBytes := by
  funext selection
  simp only [selectedRecord, approve, trainingGrant, same]

end Selecting

/-! ### The loop -/

/-- No problem is selected twice, each selection has a record, and what a split is given by has one. -/
structure Sound (record : DatasetSelection → Except DatasetError DatasetRecord)
    (selections : List DatasetSelection) : Prop where
  distinct : (selections.map DatasetSelection.problemId).Nodup
  approved : ∀ selection ∈ selections, ∃ built, record selection = .ok built
  families : Assignment.Functional (selections.map fun selection =>
    (selection.familyId, selection.split))
  proofs : Assignment.Functional ((recordsOf record selections).map fun built =>
    (built.proofSha256, built.split))
  targets : Assignment.Functional ((recordsOf record selections).map fun built =>
    (Key.text built.targetDigest, built.split))

section Looping

variable {record : DatasetSelection → Except DatasetError DatasetRecord}
  {selections done : List DatasetSelection}

theorem mem_recordsOf {built : DatasetRecord} :
    built ∈ recordsOf record selections ↔
      ∃ selection ∈ selections, record selection = .ok built := by
  have found : ∀ selection, (record selection).toOption = some built ↔
      record selection = .ok built := by
    intro selection
    cases record selection <;> simp [Except.toOption]
  simp only [recordsOf, List.mem_filterMap, found]

theorem recordsOf_concat {selection : DatasetSelection} {built : DatasetRecord}
    (has : record selection = .ok built) :
    recordsOf record (done ++ [selection]) = recordsOf record done ++ [built] := by
  have only : recordsOf record [selection] = [built] := by
    simp [recordsOf, has, Except.toOption]
  rw [← only, recordsOf, List.filterMap_append]
  rfl

/-- Fewer selections are as sound. -/
theorem Sound.of_sublist (sound : Sound record selections) (fewer : done.Sublist selections) :
    Sound record done where
  distinct := sound.distinct.sublist (fewer.map _)
  approved selection member := sound.approved selection (fewer.subset member)
  families := sound.families.of_subset (fewer.map _).subset
  proofs := sound.proofs.of_subset ((fewer.filterMap _).map _).subset
  targets := sound.targets.of_subset ((fewer.filterMap _).map _).subset

theorem Sound.perm (sound : Sound record selections) (perm : selections.Perm done) :
    Sound record done where
  distinct := (perm.map _).nodup_iff.mp sound.distinct
  approved selection member := sound.approved selection (perm.mem_iff.mpr member)
  families := sound.families.of_subset (perm.map _).symm.subset
  proofs := sound.proofs.of_subset ((perm.filterMap _).map _).symm.subset
  targets := sound.targets.of_subset ((perm.filterMap _).map _).symm.subset

/-- What the loop has filled says what it has gone through. -/
structure Follows (record : DatasetSelection → Except DatasetError DatasetRecord)
    (done : List DatasetSelection) (chosen : Chosen) : Prop where
  identifiers : chosen.identifiers = done.map DatasetSelection.problemId
  distinct : (done.map DatasetSelection.problemId).Nodup
  approved : ∀ selection ∈ done, ∃ built, record selection = .ok built
  families : Assignment.Tracks chosen.families (done.map fun selection =>
    (selection.familyId, selection.split))
  proofs : Assignment.Tracks chosen.proofs ((recordsOf record done).map fun built =>
    (built.proofSha256, built.split))
  targets : Assignment.Tracks chosen.targets ((recordsOf record done).map fun built =>
    (Key.text built.targetDigest, built.split))
  records : chosen.records = recordsOf record done

theorem Follows.sound {chosen : Chosen} (follows : Follows record done chosen) : Sound record done where
  distinct := follows.distinct
  approved := follows.approved
  families := follows.families.functional
  proofs := follows.proofs.functional
  targets := follows.targets.functional

theorem Follows.nil : Follows record [] {} where
  identifiers := rfl
  distinct := List.nodup_nil
  approved _ member := absurd member List.not_mem_nil
  families := .nil
  proofs := .nil
  targets := .nil
  records := rfl

end Looping

section Running

variable [FloatValue] [ContentHash] [ByteHash]

variable {evidence : CanonicalEvidence} {grants : List (Digest × LicenseGrant)}
  {artifactBytes : Digest → Option Bytes} {done rest : List DatasetSelection}
  {selection : DatasetSelection} {chosen after : Chosen}

/-- One more selection. -/
theorem choose_follows
    (follows : Follows (selectedRecord evidence grants artifactBytes) done chosen)
    (chose : choose evidence grants artifactBytes chosen selection = .ok after) :
    Follows (selectedRecord evidence grants artifactBytes) (done ++ [selection]) after := by
  simp only [choose, CanonicalEvidence.item, bind_ok, require_ok, orThrow_ok, exists_const,
    fromEvidence_ok, pure_ok] at chose
  obtain ⟨fresh, families, family, approved, supported, target, found, proofs, proof, key_, hashed,
    targets, crossed, record, built, rfl⟩ := chose
  have selected : selectedRecord evidence grants artifactBytes selection = .ok record :=
    bind_ok.mpr ⟨approved, supported, built⟩
  have describes := datasetRecord_ok built
  obtain rfl : target = .str record.targetDigest :=
    Option.some.inj (found.symm.trans describes.target)
  obtain rfl : Key.text record.targetDigest = key_ := Option.some.inj hashed
  rw [← describes.proofSha256] at proof
  constructor
  · simp only [follows.identifiers, List.map_append, List.map_cons, List.map_nil]
  · rw [List.map_append, List.nodup_append]
    refine ⟨follows.distinct, List.nodup_singleton _, ?_⟩
    rintro id member _ last rfl
    rw [follows.identifiers] at fresh
    obtain rfl : id = selection.problemId := List.mem_singleton.mp last
    exact fresh member
  · intro other member
    rcases List.mem_append.mp member with old | new
    · exact follows.approved other old
    · obtain rfl := List.mem_singleton.mp new
      exact ⟨record, selected⟩
  · rw [List.map_append]
    exact follows.families.assign family
  · rw [recordsOf_concat selected, List.map_append, List.map_singleton, describes.split]
    exact follows.proofs.assign proof
  · rw [recordsOf_concat selected, List.map_append, List.map_singleton, describes.split]
    exact follows.targets.assign crossed
  · rw [recordsOf_concat selected, follows.records]

/-- A selection that keeps the selections sound is chosen. -/
theorem choose_sound
    (follows : Follows (selectedRecord evidence grants artifactBytes) done chosen)
    (sound : Sound (selectedRecord evidence grants artifactBytes) (done ++ [selection])) :
    ∃ after, choose evidence grants artifactBytes chosen selection = .ok after := by
  obtain ⟨record, selected⟩ := sound.approved selection (by simp)
  obtain ⟨approved, supported, built⟩ := bind_ok.mp selected
  have describes := datasetRecord_ok built
  have fresh : selection.problemId ∉ chosen.identifiers := by
    rw [follows.identifiers]
    have distinct := sound.distinct
    rw [List.map_append, List.nodup_append] at distinct
    intro member
    exact distinct.2.2 _ member _ List.mem_cons_self rfl
  have families := sound.families
  rw [List.map_append] at families
  obtain ⟨families', family⟩ := follows.families.assigns families
  have proofs := sound.proofs
  rw [recordsOf_concat selected, List.map_append, List.map_singleton, describes.split,
    describes.proofSha256] at proofs
  obtain ⟨proofs', proof⟩ := follows.proofs.assigns proofs
  have targets := sound.targets
  rw [recordsOf_concat selected, List.map_append, List.map_singleton, describes.split] at targets
  obtain ⟨targets', target⟩ := follows.targets.assigns targets
  simp only [choose, CanonicalEvidence.item, bind_ok, require_ok, orThrow_ok, exists_const,
    fromEvidence_ok, pure_ok]
  exact ⟨_, fresh, families', family, approved, supported, _, describes.target, proofs', proof, _, rfl,
    targets', target, record, built, rfl⟩

/-- The loop over the selections. -/
theorem chooseAll_follows
    (follows : Follows (selectedRecord evidence grants artifactBytes) done chosen)
    (chose : chooseAll evidence grants artifactBytes rest chosen = .ok after) :
    Follows (selectedRecord evidence grants artifactBytes) (done ++ rest) after := by
  induction rest generalizing done chosen with
  | nil =>
    obtain rfl := Except.ok.inj chose
    rwa [List.append_nil]
  | cons selection rest ih =>
    obtain ⟨next, first, later⟩ := bind_ok.mp chose
    have all := ih (choose_follows follows first) later
    rwa [List.append_assoc, List.singleton_append] at all

theorem chooseAll_sound
    (follows : Follows (selectedRecord evidence grants artifactBytes) done chosen)
    (sound : Sound (selectedRecord evidence grants artifactBytes) (done ++ rest)) :
    ∃ after, chooseAll evidence grants artifactBytes rest chosen = .ok after := by
  induction rest generalizing done chosen with
  | nil => exact ⟨chosen, rfl⟩
  | cons selection rest ih =>
    rw [← List.singleton_append, ← List.append_assoc] at sound
    obtain ⟨next, first⟩ := choose_sound follows (sound.of_sublist (List.sublist_append_left _ _))
    obtain ⟨after, later⟩ := ih (choose_follows follows first) sound
    exact ⟨after, bind_ok.mpr ⟨next, first, later⟩⟩

end Running

/-! ### The order of selections and grants -/

section Order

theorem partitionFamilies_perm {families others : List (String × DatasetSplit)}
    {pairs pairs' : List (String × DatasetSplit)} (tracks : Assignment.Tracks families pairs)
    (tracks' : Assignment.Tracks others pairs') (perm : pairs.Perm pairs') :
    partitionFamilies families = partitionFamilies others := by
  have same : families.Perm others := by
    refine (List.perm_ext_iff_of_nodup tracks.distinct.of_map tracks'.distinct.of_map).mpr fun pair => ?_
    rw [tracks.same, tracks'.same, perm.mem_iff]
  unfold partitionFamilies
  refine List.map_congr_left fun split _ => ?_
  have part := same.filter fun family => family.2 = split
  have distinct : ((families.filter fun family => family.2 = split).map Prod.fst).Nodup :=
    tracks.distinct.sublist (List.filter_sublist.map _)
  exact congrArg (Prod.mk split)
    (Json.insertionSort_by id (part.map Prod.fst) (by rwa [List.map_id]))

variable [ByteHash]

theorem licenseDecisionsDigest_perm {grants others : List LicenseGrant} (perm : grants.Perm others)
    (distinct : (grants.map LicenseGrant.artifactSha256).Nodup) :
    licenseDecisionsDigest grants = licenseDecisionsDigest others := by
  unfold licenseDecisionsDigest
  rw [Json.insertionSort_by LicenseGrant.artifactSha256 perm distinct]

theorem selectionDigest_perm {selections others : List DatasetSelection}
    (perm : selections.Perm others)
    (distinct : (selections.map DatasetSelection.problemId).Nodup) :
    selectionDigest selections = selectionDigest others := by
  unfold selectionDigest
  rw [Json.insertionSort_by DatasetSelection.problemId perm distinct]

variable [FloatValue] [ContentHash]

variable {snapshot : DatasetSnapshot} {selections others : List DatasetSelection}
  {licenseGrants otherGrants : List LicenseGrant} {artifactBytes : Digest → Option Bytes}
  {mode : String} {manifest : DatasetManifest} {records : List DatasetRecord}

/-- The decisions by digest, when there is one for each. -/
def tableOf (licenseGrants : List LicenseGrant) : List (Digest × LicenseGrant) :=
  licenseGrants.map fun grant => (grant.artifactSha256, grant)

/-- The record that a selection has in this export. -/
def recordIn (snapshot : DatasetSnapshot) (licenseGrants : List LicenseGrant)
    (artifactBytes : Digest → Option Bytes) : DatasetSelection → Except DatasetError DatasetRecord :=
  selectedRecord snapshot.evidence (tableOf licenseGrants) artifactBytes

/-- The dataset of selections that the loop went through. -/
structure Built (snapshot : DatasetSnapshot) (selections : List DatasetSelection)
    (licenseGrants : List LicenseGrant) (artifactBytes : Digest → Option Bytes) (mode : String)
    (manifest : DatasetManifest) (records : List DatasetRecord) (chosen : Chosen) : Prop where
  decisions : (licenseGrants.map LicenseGrant.artifactSha256).Nodup
  follows : Follows (recordIn snapshot licenseGrants artifactBytes) selections chosen
  filled : chosen.records ≠ []
  known : mode ∈ datasetModes
  sorted : records = byProblem chosen.records
  manifest : manifest =
    { mode
      snapshotId := snapshot.snapshotId
      snapshotDigest := snapshot.snapshotDigest
      recordCount := records.length
      recordsSha256 := ByteHash.sha256 (recordsText records)
      partitionFamilies := partitionFamilies chosen.families
      licenseDecisionsDigest := licenseDecisionsDigest licenseGrants
      selectionDigest := selectionDigest selections }

theorem buildDataset_ok :
    buildDataset snapshot selections licenseGrants artifactBytes mode = .ok (manifest, records) ↔
      ∃ chosen,
        chooseAll snapshot.evidence (tableOf licenseGrants) artifactBytes selections {} = .ok chosen ∧
        Built snapshot selections licenseGrants artifactBytes mode manifest records chosen := by
  have table : ∀ grants, grantTable licenseGrants [] = .ok grants ↔
      (licenseGrants.map LicenseGrant.artifactSha256).Nodup ∧ grants = tableOf licenseGrants :=
    fun grants => grantTable_ok List.nodup_nil
  simp only [buildDataset, bind_ok, table, require_ok, exists_const, pure_ok, Prod.mk.injEq]
  constructor
  · rintro ⟨_, ⟨decisions, rfl⟩, chosen, chose, filled, known, rfl, rfl⟩
    exact ⟨chosen, chose, decisions, chooseAll_follows .nil chose, filled, known, rfl, rfl⟩
  · rintro ⟨chosen, chose, built⟩
    refine ⟨_, ⟨built.decisions, rfl⟩, chosen, chose, built.filled, built.known, ?_, built.sorted.symm⟩
    rw [built.manifest, built.sorted]

theorem Built.problems {chosen : Chosen}
    (built : Built snapshot selections licenseGrants artifactBytes mode manifest records chosen) :
    chosen.records.map DatasetRecord.problemId = selections.map DatasetSelection.problemId := by
  rw [built.follows.records]
  exact recordsOf_problems built.follows.approved

/-- Another order gives the same dataset. -/
theorem buildDataset_perm (perm : selections.Perm others) (grants : licenseGrants.Perm otherGrants)
    (built : buildDataset snapshot selections licenseGrants artifactBytes mode =
      .ok (manifest, records)) :
    buildDataset snapshot others otherGrants artifactBytes mode = .ok (manifest, records) := by
  obtain ⟨chosen, chose, built⟩ := buildDataset_ok.mp built
  have entries : ((tableOf licenseGrants).map Prod.fst).Nodup := by
    rw [tableOf, List.map_map]
    exact built.decisions
  have table : recordIn snapshot licenseGrants artifactBytes =
      recordIn snapshot otherGrants artifactBytes :=
    selectedRecord_congr (Dict.get_perm (grants.map _) entries)
  have follows := built.follows
  rw [table] at follows
  obtain ⟨chosen', chose'⟩ := chooseAll_sound .nil (follows.sound.perm perm)
  have follows' := chooseAll_follows .nil chose'
  have recordsPerm : chosen.records.Perm chosen'.records := by
    rw [follows.records, follows'.records]
    exact perm.filterMap _
  have sorted : byProblem chosen.records = byProblem chosen'.records := by
    refine Json.insertionSort_by DatasetRecord.problemId recordsPerm ?_
    rw [built.problems]
    exact follows.distinct
  have decisions := (grants.map LicenseGrant.artifactSha256).nodup_iff.mp built.decisions
  refine buildDataset_ok.mpr ⟨chosen', chose', decisions, follows', ?_, built.known,
    built.sorted.trans sorted, ?_⟩
  · intro empty
    exact built.filled (List.Perm.eq_nil (empty ▸ recordsPerm))
  · rw [built.manifest, partitionFamilies_perm follows.families follows'.families (perm.map _),
      licenseDecisionsDigest_perm grants built.decisions, selectionDigest_perm perm follows.distinct]

end Order

/-! ### The files -/

section Writing

open Effect

variable {system : OutputSystem} {files : OutputFiles}

/-- A file that is there has the content that would be written. -/
def Agrees (files : OutputFiles) (wanted : List (String × Bytes)) : Prop :=
  ∀ file ∈ wanted, ∀ old, files file.1 = some old → old.content = file.2

/-- The files with new contents. -/
def written (files : OutputFiles) (wanted : List (String × Bytes)) : OutputFiles :=
  wanted.foldl (fun files file =>
    Function.update files file.1 (some { content := file.2, mode := 0o600 })) files

theorem call_ensures (call : OutputCall) {before : OutputFiles → Prop} :
    Ensures before (system.call call) (fun _ => before)
      (fun error after => error = .os ∧ before after) := by
  unfold OutputSystem.call
  split
  · exact throw_ensures _ fun _ met => ⟨rfl, met⟩
  · exact pure_ensures _ fun _ met => met

theorem checkOutput_ensures (file : String × Bytes) :
    Ensures (· = files) (checkOutput system file)
      (fun _ after => Agrees files [file] ∧ after = files) (fun _ after => after = files) := by
  refine bind_ensures (fun _ after => after = files)
    (ensures_imp (call_ensures _) (fun _ => id) (fun _ _ => id) fun _ _ raised => raised.2) fun _ => ?_
  refine bind_ensures (fun read after => read = files ∧ after = files)
    (get_ensures fun _ same => ⟨same, same⟩) fun read => ?_
  refine given_ensures ?_
  rintro rfl
  split
  next absent =>
    refine pure_ensures _ fun _ same => ⟨?_, same⟩
    intro other member old stored
    obtain rfl := List.mem_singleton.mp member
    rw [stored] at absent
    cases absent
  next =>
    refine bind_ensures (fun _ after => after = read)
      (ensures_imp (call_ensures _) (fun _ => id) (fun _ _ => id) fun _ _ raised => raised.2)
      fun _ => ?_
    unfold compareOutput
    split
    next agrees =>
      refine pure_ensures _ fun _ same => ⟨?_, same⟩
      intro other member old stored
      obtain rfl := List.mem_singleton.mp member
      rw [stored] at agrees
      exact of_decide_eq_true agrees
    · exact throw_ensures _ fun _ same => same

theorem checkAll_ensures (wanted : List (String × Bytes)) :
    Ensures (· = files) (wanted.forM (checkOutput system))
      (fun _ after => Agrees files wanted ∧ after = files) (fun _ after => after = files) := by
  induction wanted with
  | nil => exact pure_ensures _ fun _ same => ⟨fun _ member => absurd member List.not_mem_nil, same⟩
  | cons file wanted ih =>
    refine bind_ensures _ (checkOutput_ensures file) fun _ => given_ensures fun first => ?_
    refine ensures_imp ih (fun _ => id) (fun _ after later => ⟨?_, later.2⟩) fun _ _ => id
    intro other member
    rcases List.mem_cons.mp member with rfl | rest
    · exact first other List.mem_cons_self
    · exact later.1 other rest

theorem writeOutput_ensures (file : String × Bytes) :
    Ensures (· = files) (writeOutput system file)
      (fun _ after => after =
        Function.update files file.1 (some { content := file.2, mode := 0o600 }))
      (fun error _ => error = .os) := by
  refine bind_ensures (fun _ after => ∃ mode,
    after = Function.update files file.1 (some { content := file.2, mode })) ?_ fun _ => ?_
  · unfold writeBytes
    split
    · exact bind_ensures (fun _ _ => True) (modify_ensures _ fun _ _ => trivial)
        fun _ => throw_ensures _ fun _ _ => rfl
    · refine modify_ensures _ fun _ same => ?_
      subst same
      exact ⟨_, rfl⟩
  · refine bind_ensures _
      (ensures_imp (call_ensures _) (fun _ => id) (fun _ _ => id) fun _ _ raised => raised.1)
      fun _ => modify_ensures _ fun _ wrote => ?_
    obtain ⟨mode, rfl⟩ := wrote
    rw [Function.update_self, Function.update_idem]
    rfl

theorem writeAll_ensures (wanted : List (String × Bytes)) :
    Ensures (· = files) (wanted.forM (writeOutput system))
      (fun _ after => after = written files wanted) (fun error _ => error = .os) := by
  induction wanted generalizing files with
  | nil => exact pure_ensures _ fun _ same => same
  | cons file wanted ih => exact bind_ensures _ (writeOutput_ensures file) fun _ => ih

variable [ManifestText]

/-- The files change only when they agree with what would be written, and then only an error of the
operating system stops the writing. -/
theorem publishDataset_ensures (system : OutputSystem) (manifest : DatasetManifest)
    (records : List DatasetRecord) :
    Ensures (· = files) (publishDataset system manifest records)
      (fun bundle after => bundle = { manifest, records, outputDirectory := system.resolved } ∧
        after = written files (datasetFiles manifest records))
      (fun error after => after = files ∨
        (error = .os ∧ Agrees files (datasetFiles manifest records))) := by
  refine bind_ensures _
    (ensures_imp (checkAll_ensures _) (fun _ => id) (fun _ _ => id) fun _ _ => .inl) fun _ =>
    given_ensures fun agrees => ?_
  refine bind_ensures _
    (ensures_imp (call_ensures _) (fun _ => id) (fun _ _ => id) fun _ _ raised => .inl raised.2)
    fun _ => ?_
  refine bind_ensures _
    (ensures_imp (writeAll_ensures _) (fun _ => id) (fun _ _ => id) fun _ _ raised =>
      .inr ⟨raised, agrees⟩) fun _ => ?_
  refine bind_ensures _
    (ensures_imp (call_ensures _) (fun _ => id) (fun _ _ => id) fun _ _ raised =>
      .inr ⟨raised.1, agrees⟩) fun _ => ?_
  exact pure_ensures _ fun _ same => ⟨rfl, same⟩

end Writing

/-! ### What is exported -/

section Exporting

variable [FloatValue] [ContentHash] [ByteHash]

/-- The records of an export: one for each problem, no family, proof or target in two splits, each
proof the one of a valid receipt and granted for training. -/
structure Exported (snapshot : DatasetSnapshot) (selections : List DatasetSelection)
    (licenseGrants : List LicenseGrant) (records : List DatasetRecord) : Prop where
  once : (records.map DatasetRecord.problemId).Nodup
  problems : (records.map DatasetRecord.problemId).Perm
    (selections.map DatasetSelection.problemId)
  selected : ∀ record ∈ records, ∃ selection ∈ selections,
    record.problemId = selection.problemId ∧ record.receiptId = selection.receiptId ∧
      record.familyId = selection.familyId ∧ record.split = selection.split
  apart : ∀ first ∈ records, ∀ second ∈ records,
    first.familyId = second.familyId ∨ first.proofSha256 = second.proofSha256 ∨
        first.targetDigest = second.targetDigest →
      first.split = second.split
  hashes : ∀ record ∈ records, ByteHash.sha256 (Bytes.utf8 record.proof) = record.proofSha256
  receipts : ∀ record ∈ records, ∃ checked receipt,
    snapshot.evidence.validate record.problemId record.receiptId = some (.valid checked) ∧
      snapshot.evidence.record (.str record.receiptId) = .ok receipt ∧
      Dict.get receipt "candidate_sha256" = some (.str record.proofSha256)
  granted : ∀ record ∈ records, ∃ grant ∈ licenseGrants,
    grant.artifactSha256 = record.proofSha256 ∧ grant.trainingAllowed = true

variable {snapshot : DatasetSnapshot} {selections others : List DatasetSelection}
  {licenseGrants otherGrants : List LicenseGrant} {artifactBytes : Digest → Option Bytes}
  {mode : String} {manifest : DatasetManifest} {records : List DatasetRecord}

theorem Built.exported {chosen : Chosen}
    (built : Built snapshot selections licenseGrants artifactBytes mode manifest records chosen) :
    Exported snapshot selections licenseGrants records := by
  have sound := built.follows.sound
  have perm : records.Perm chosen.records := by
    rw [built.sorted]
    exact List.perm_insertionSort _ _
  have names := perm.map DatasetRecord.problemId
  rw [built.problems] at names
  have origin : ∀ record ∈ records, ∃ selection ∈ selections,
      recordIn snapshot licenseGrants artifactBytes selection = .ok record := by
    intro record member
    rw [perm.mem_iff, built.follows.records] at member
    exact mem_recordsOf.mp member
  have entries : ((tableOf licenseGrants).map Prod.fst).Nodup := by
    rw [tableOf, List.map_map]
    exact built.decisions
  constructor
  · exact names.nodup_iff.mpr sound.distinct
  · exact names
  · intro record member
    obtain ⟨selection, listed, has⟩ := origin record member
    obtain ⟨_, -, -, describes⟩ := selectedRecord_ok has
    exact ⟨selection, listed, describes.problemId, describes.receiptId, describes.familyId,
      describes.split⟩
  · intro first inFirst second inSecond shared
    obtain ⟨selection, listed, has⟩ := origin first inFirst
    obtain ⟨selection', listed', has'⟩ := origin second inSecond
    obtain ⟨_, -, -, describes⟩ := selectedRecord_ok has
    obtain ⟨_, -, -, describes'⟩ := selectedRecord_ok has'
    have here := mem_recordsOf.mpr ⟨selection, listed, has⟩
    have there := mem_recordsOf.mpr ⟨selection', listed', has'⟩
    rcases shared with family | proof | target
    · rw [describes.familyId, describes'.familyId] at family
      rw [describes.split, describes'.split]
      exact sound.families _ _ _ (List.mem_map.mpr ⟨selection, listed, rfl⟩)
        (List.mem_map.mpr ⟨selection', listed', by rw [family]⟩)
    · exact sound.proofs _ _ _ (List.mem_map.mpr ⟨first, here, rfl⟩)
        (List.mem_map.mpr ⟨second, there, by rw [proof]⟩)
    · exact sound.targets _ _ _ (List.mem_map.mpr ⟨first, here, rfl⟩)
        (List.mem_map.mpr ⟨second, there, by rw [target]⟩)
  · intro record member
    obtain ⟨_, -, has⟩ := origin record member
    obtain ⟨_, -, supports, describes⟩ := selectedRecord_ok has
    rw [Bytes.utf8_of_text describes.proof, supports.hashes, describes.proofSha256]
  · intro record member
    obtain ⟨_, -, has⟩ := origin record member
    obtain ⟨approved, -, supports, describes⟩ := selectedRecord_ok has
    obtain ⟨receipt, stored, candidate⟩ :=
      CanonicalEvidence.validate_candidate supports.receipt supports.candidate
    rw [describes.problemId, describes.receiptId, describes.proofSha256]
    exact ⟨approved.checked, receipt, supports.receipt, stored, candidate⟩
  · intro record member
    obtain ⟨_, -, has⟩ := origin record member
    obtain ⟨approved, -, supports, describes⟩ := selectedRecord_ok has
    obtain ⟨grant, listed, same⟩ :=
      List.mem_map.mp ((Dict.get_eq_some entries).mp supports.granted)
    obtain ⟨digest, rfl⟩ := Prod.mk.inj same
    exact ⟨_, listed, digest.trans describes.proofSha256.symm, supports.allowed⟩

/-- No selection and no grant comes twice in what is built. -/
theorem Built.nodup {chosen : Chosen}
    (built : Built snapshot selections licenseGrants artifactBytes mode manifest records chosen) :
    selections.Nodup ∧ licenseGrants.Nodup :=
  ⟨built.follows.distinct.of_map, built.decisions.of_map⟩

variable [ManifestText] {system : OutputSystem} {files after : OutputFiles} {bundle : DatasetBundle}

theorem exportDataset_ok
    (done : exportDataset system snapshot selections licenseGrants artifactBytes mode files =
      .ok bundle after) :
    buildDataset snapshot selections licenseGrants artifactBytes mode =
        .ok (bundle.manifest, bundle.records) ∧
      after = written files (datasetFiles bundle.manifest bundle.records) := by
  unfold exportDataset at done
  cases built : buildDataset snapshot selections licenseGrants artifactBytes mode with
  | error error =>
    rw [built] at done
    cases done
  | ok dataset =>
    rw [built] at done
    have published := publishDataset_ensures system dataset.1 dataset.2 files rfl
    rw [show publishDataset system dataset.1 dataset.2 files = .ok bundle after from done]
      at published
    obtain ⟨rfl, wrote⟩ := published
    exact ⟨rfl, wrote⟩

theorem exportDataset_error {error : DatasetError}
    (failed : exportDataset system snapshot selections licenseGrants artifactBytes mode files =
      .error error after) :
    after = files ∨ (error = .os ∧ ∃ manifest records,
      buildDataset snapshot selections licenseGrants artifactBytes mode = .ok (manifest, records) ∧
        Agrees files (datasetFiles manifest records)) := by
  unfold exportDataset at failed
  cases built : buildDataset snapshot selections licenseGrants artifactBytes mode with
  | error stopped =>
    rw [built] at failed
    injection failed with _ same
    exact .inl same.symm
  | ok dataset =>
    rw [built] at failed
    have published := publishDataset_ensures system dataset.1 dataset.2 files rfl
    rw [show publishDataset system dataset.1 dataset.2 files = .error error after from failed]
      at published
    refine published.imp_right ?_
    rintro ⟨stopped, agrees⟩
    exact ⟨stopped, dataset.1, dataset.2, rfl, agrees⟩

/-- Another order gives the same export. -/
theorem exportDataset_perm (perm : selections.Perm others) (grants : licenseGrants.Perm otherGrants)
    (done : exportDataset system snapshot selections licenseGrants artifactBytes mode files =
      .ok bundle after) :
    exportDataset system snapshot others otherGrants artifactBytes mode files = .ok bundle after := by
  have built := (exportDataset_ok done).1
  have again := buildDataset_perm perm grants built
  unfold exportDataset at done ⊢
  rw [built] at done
  rw [again]
  exact done

/-- An export has one record for each problem, and neither a family nor a proof nor a target in two
splits; each proof is that of a valid receipt and granted for training. What is written depends on the
selections and the grants only, not on their order. Where a check fails, no file changes. -/
theorem export_no_leak (system : OutputSystem) (snapshot : DatasetSnapshot)
    (selections : List DatasetSelection) (licenseGrants : List LicenseGrant)
    (artifactBytes : Digest → Option Bytes) (mode : String) (files : OutputFiles) :
    (∀ bundle after,
      exportDataset system snapshot selections licenseGrants artifactBytes mode files =
        .ok bundle after →
      Exported snapshot selections licenseGrants bundle.records ∧
        after = written files (datasetFiles bundle.manifest bundle.records) ∧
        ∀ others otherGrants,
          (selections.Perm others → licenseGrants.Perm otherGrants →
            exportDataset system snapshot others otherGrants artifactBytes mode files =
              .ok bundle after) ∧
          ((∀ selection, selection ∈ selections ↔ selection ∈ others) →
            (∀ grant, grant ∈ licenseGrants ↔ grant ∈ otherGrants) →
            ∀ otherBundle otherAfter,
              exportDataset system snapshot others otherGrants artifactBytes mode files =
                .ok otherBundle otherAfter →
              otherBundle = bundle ∧ otherAfter = after)) ∧
    ∀ error after,
      exportDataset system snapshot selections licenseGrants artifactBytes mode files =
        .error error after →
      after = files ∨ (error = .os ∧ ∃ manifest records,
        buildDataset snapshot selections licenseGrants artifactBytes mode = .ok (manifest, records) ∧
          Agrees files (datasetFiles manifest records)) := by
  constructor
  · intro bundle after done
    obtain ⟨built, wrote⟩ := exportDataset_ok done
    obtain ⟨chosen, -, facts⟩ := buildDataset_ok.mp built
    refine ⟨facts.exported, wrote, fun others otherGrants => ⟨fun perm grants => ?_, ?_⟩⟩
    · exact exportDataset_perm perm grants done
    · intro same sameGrants otherBundle otherAfter otherDone
      obtain ⟨_, -, otherFacts⟩ := buildDataset_ok.mp (exportDataset_ok otherDone).1
      have perm : selections.Perm others :=
        (List.perm_ext_iff_of_nodup facts.nodup.1 otherFacts.nodup.1).mpr same
      have grants : licenseGrants.Perm otherGrants :=
        (List.perm_ext_iff_of_nodup facts.nodup.2 otherFacts.nodup.2).mpr sameGrants
      have both := (exportDataset_perm perm grants done).symm.trans otherDone
      injection both with sameBundle sameAfter
      exact ⟨sameBundle.symm, sameAfter.symm⟩
  · intro error after failed
    exact exportDataset_error failed

end Exporting

namespace Scenario

/-- The digest of the statement. -/
def statementSha256 : Digest := "ef6abe1649fbe18b5d811d553a8d45c8d4103db139a47bbe674ab5eb1dedf754"

/-- The digest of the proof. -/
def proofSha256 : Digest := "c6f74cc5cb7d9534b4065d776dd8c33cc4a3e60df18dd67ad77ffff14bc01157"

theorem statementSha256_known : isSha256 statementSha256 = true := by decide

theorem proofSha256_known : isSha256 proofSha256 = true := by decide

section

local instance datasetFloats : FloatValue := ⟨fun _ => 0⟩
local instance datasetHash : ContentHash := ⟨fun _ => statementSha256⟩
local instance datasetByteHash : ByteHash := ⟨fun _ => proofSha256⟩
local instance datasetManifest : ManifestText := ⟨fun _ => []⟩

def problemRecord : Record :=
  [("id", .str "p"), ("kind", .str "problem"), ("project_id", .str "project"),
    ("semantic_review", .str "approved"), ("definition_holes", .bool false),
    ("review_id", .str "v"), ("formal_statement", .str "theorem one : True"),
    ("target_theorem", .str "one"), ("target_digest", .str statementSha256),
    ("environment_digest", .str statementSha256)]

def reviewRecord : Record :=
  [("id", .str "v"), ("kind", .str "review"), ("project_id", .str "project"),
    ("decision", .str "approved"), ("scope", .str "target"), ("problem_id", .str "p"),
    ("target_digest", .str statementSha256), ("reviewed_by", .str "expert")]

def artifactRecord : Record :=
  [("id", .str "a"), ("kind", .str "artifact"), ("project_id", .str "project"),
    ("artifact_kind", .str "lean_source"), ("sha256", .str proofSha256), ("experiment_id", .str "e")]

def receiptRecord : Record :=
  [("id", .str "r"), ("kind", .str "verification"), ("project_id", .str "project"),
    ("problem_revision_id", .str "p"), ("review_id", .str "v"), ("artifact_id", .str "a"),
    ("experiment_id", .str "e"), ("target_theorem", .str "one"),
    ("target_digest", .str statementSha256), ("environment_digest", .str statementSha256),
    ("challenge_sha256", .str statementSha256), ("candidate_sha256", .str proofSha256),
    ("status", .str "verified"), ("assurance", .str "kernel"), ("code", .str "verified"),
    ("message", .str "ok"), ("remediation", .str "none"),
    ("checker_versions", .obj [("lean", .str "4"), ("comparator", .str "1")])]

def oneReceipt : CanonicalEvidence where
  records := [problemRecord, reviewRecord, artifactRecord, receiptRecord]
  named := by decide
  distinct := by decide

def oneSnapshot : DatasetSnapshot := ⟨oneReceipt, "snapshot", statementSha256⟩

def oneSelection : DatasetSelection := ⟨"p", "r", "family", .train, by decide⟩

def mitGrant (digest : Digest) (known : isSha256 digest = true) : LicenseGrant where
  artifactSha256 := digest
  licenseId := "MIT"
  approvedBy := "curator"
  attribution := "fixture"
  trainingAllowed := true
  digest := known
  named := by decide

/-- A decision about the proof and one about another text. -/
def twoGrants : List LicenseGrant :=
  [mitGrant proofSha256 proofSha256_known, mitGrant statementSha256 statementSha256_known]

def proofText : String := "one := trivial"

def proofBytes (_ : Digest) : Option Bytes := some (Bytes.utf8 proofText)

/-- Every call succeeds. -/
def calmSystem : OutputSystem :=
  { fails := fun _ => false, torn := fun _ => none, umasked := 0o644, resolved := "/dataset" }

def noFiles : OutputFiles := fun _ => none

def oneApproved : Approved where
  checked := { artifactId := some "a", candidateSha256 := some proofSha256, reviewId := some "v" }
  problem := problemRecord
  receipt := receiptRecord
  sha256 := proofSha256
  grant := mitGrant proofSha256 proofSha256_known
  source := Bytes.utf8 proofText

theorem oneReceipt_valid : oneReceipt.validate "p" "r" = some (.valid oneApproved.checked) := by
  decide +kernel

theorem oneSelection_approved :
    approve oneReceipt (tableOf twoGrants) proofBytes oneSelection = .ok oneApproved := by
  have checked : checkedReceipt oneReceipt oneSelection = .ok oneApproved.checked := by
    simp only [checkedReceipt, oneSelection, oneReceipt_valid]
  rw [approve, ok_then checked]
  rfl

theorem oneSelection_record : ∃ record,
    selectedRecord oneReceipt (tableOf twoGrants) proofBytes oneSelection = .ok record := by
  have decoded : Bytes.text oneApproved.source = some proofText := Bytes.text_utf8 _
  rw [selectedRecord, ok_then oneSelection_approved]
  simp only [datasetRecord, decoded]
  exact ⟨_, rfl⟩

/-- One selection with a record is sound. -/
theorem oneSelection_sound :
    Sound (selectedRecord oneReceipt (tableOf twoGrants) proofBytes) [oneSelection] := by
  obtain ⟨record, has⟩ := oneSelection_record
  have only : recordsOf (selectedRecord oneReceipt (tableOf twoGrants) proofBytes)
      ([] ++ [oneSelection]) = [] ++ [record] := recordsOf_concat has
  rw [List.nil_append, List.nil_append] at only
  constructor
  · decide
  · intro selection member
    exact List.mem_singleton.mp member ▸ ⟨record, has⟩
  · exact fun _ _ _ one other => by simp_all
  · rw [only]
    exact fun _ _ _ one other => by simp_all
  · rw [only]
    exact fun _ _ _ one other => by simp_all

theorem oneSelection_exports : ∃ bundle after,
    exportDataset calmSystem oneSnapshot [oneSelection] twoGrants proofBytes "synthetic" noFiles =
      .ok bundle after := by
  obtain ⟨chosen, chose⟩ := chooseAll_sound .nil oneSelection_sound
  have follows : Follows (recordIn oneSnapshot twoGrants proofBytes) [oneSelection] chosen :=
    chooseAll_follows .nil chose
  have filled : chosen.records ≠ [] := by
    intro empty
    have problems : chosen.records.map _ = _ :=
      follows.records ▸ recordsOf_problems follows.approved
    rw [empty] at problems
    cases problems
  have dataset : ∃ manifest records,
      buildDataset oneSnapshot [oneSelection] twoGrants proofBytes "synthetic" =
        .ok (manifest, records) :=
    ⟨_, _, buildDataset_ok.mpr ⟨chosen, chose, by decide, follows, filled, by decide, rfl, rfl⟩⟩
  obtain ⟨manifest, records, dataset⟩ := dataset
  have run : exportDataset calmSystem oneSnapshot [oneSelection] twoGrants proofBytes "synthetic"
      noFiles = publishDataset calmSystem manifest records noFiles := by
    rw [exportDataset, dataset]
  exact ⟨_, _, run.trans rfl⟩

/-- One record of a receipt, exported with the grants in either order; and an export without selections
changes no file. -/
theorem oneSelection_split :
    (∃ bundle after,
      exportDataset calmSystem oneSnapshot [oneSelection] twoGrants.reverse proofBytes "synthetic"
          noFiles = .ok bundle after ∧
        Exported oneSnapshot [oneSelection] twoGrants bundle.records) ∧
      ∃ after, exportDataset calmSystem oneSnapshot [] [] proofBytes "synthetic" noFiles =
        .error (.stated "empty dataset selection") after ∧ after = noFiles := by
  constructor
  · obtain ⟨bundle, after, done⟩ := oneSelection_exports
    obtain ⟨exported, -, orders⟩ :=
      (export_no_leak calmSystem oneSnapshot [oneSelection] twoGrants proofBytes "synthetic"
        noFiles).1 bundle after done
    exact ⟨bundle, after, (orders [oneSelection] twoGrants.reverse).1 (List.Perm.refl _)
      (List.reverse_perm _).symm, exported⟩
  · have failed : exportDataset calmSystem oneSnapshot [] [] proofBytes "synthetic" noFiles =
        .error (.stated "empty dataset selection") noFiles := rfl
    have kept := (export_no_leak calmSystem oneSnapshot [] [] proofBytes "synthetic" noFiles).2 _ _
      failed
    refine ⟨noFiles, failed, kept.resolve_right ?_⟩
    rintro ⟨stopped, -⟩
    cases stopped

end

end Scenario

end Datasets
end PhysHarness
