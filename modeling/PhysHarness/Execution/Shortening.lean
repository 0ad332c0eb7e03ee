import Mathlib.Data.List.Induction
import PhysHarness.Lib.Paging
import PhysHarness.Execution.Context

/-!
Context shortening loses nothing.

Every output in the active input is shown whole, as a truncated view or as a stub, and recalling the
handle of a view or a stub reads the stored text to its end. Main result: `context_shortening`. What
carries it is that the results and archives that a session reaches hold exactly the outputs of the
calls of its lineage.
-/
namespace PhysHarness

/-- The stored text of what the model was to see. -/
def Made.text (made : Made) : Text := storedText made.visible

def Made.callId (made : Made) : String := made.key.callId

namespace NativeLineage

open Outcome

/-- The entry is the one that the call has left under the key. -/
structure Records (made : Made) (key : ToolKey) (entry : Entry) : Prop where
  stored : made.stored = true
  key : made.key = key
  seq : made.seq = entry.seq
  name : made.name = entry.name
  text : made.text = storedText entry.visible

/-- The results that a search goes through. -/
def reached (lineage : NativeLineage) : List ToolResults :=
  lineage.state.toolResults :: lineage.refs.filterMap fun ref => (lineage.loadArchive ref).toOption

def Held (lineage : NativeLineage) (key : ToolKey) (entry : Entry) : Prop :=
  ∃ results ∈ lineage.reached, (key, entry) ∈ results

def Loads (lineage : NativeLineage) : Prop :=
  ∀ ref ∈ lineage.refs, ∃ results, lineage.loadArchive ref = .ok results

/-! ### Lookup -/

theorem searchArchives_ok {lineage : NativeLineage} (pick : ToolResults → Option Entry)
    (refs : List (SessionId × Nat))
    (loads : ∀ ref ∈ refs, ∃ results, lineage.loadArchive ref = .ok results) :
    lineage.searchArchives pick refs =
      .ok ((refs.filterMap fun ref => (lineage.loadArchive ref).toOption).findSome? pick) := by
  induction refs with
  | nil => rfl
  | cons ref refs ih =>
    obtain ⟨results, loaded⟩ := loads ref List.mem_cons_self
    have rest := ih fun other member => loads other (List.mem_cons_of_mem _ member)
    have first : (lineage.loadArchive ref).toOption = some results := by rw [loaded]; rfl
    rw [searchArchives, loaded]
    simp only [List.filterMap_cons, first, List.findSome?_cons]
    cases found : pick results with
    | none => simpa [bind, Except.bind, found] using rest
    | some entry => simp [bind, Except.bind, found]

/-- Where every archive loads, a search finds the first entry picked from what is reached. -/
theorem findToolResult_ok {lineage : NativeLineage} (loads : lineage.Loads)
    (pick : ToolResults → Option Entry) :
    lineage.findToolResult pick = .ok (lineage.reached.findSome? pick) := by
  rw [findToolResult, reached, List.findSome?_cons]
  cases found : pick lineage.state.toolResults with
  | none => exact searchArchives_ok pick _ loads
  | some entry => rfl

theorem pickSuffix_some {callId : String} {results : ToolResults} {entry : Entry}
    (found : pickSuffix callId results = some entry) :
    ∃ key, (key, entry) ∈ results ∧ key.endsWith callId = true := by
  obtain ⟨⟨key, other⟩, here, rfl⟩ := Option.map_eq_some_iff.mp found
  have matched := List.find?_some here
  exact ⟨key, List.mem_reverse.mp (List.mem_of_find?_eq_some here), matched⟩

theorem pickSuffix_isSome {callId : String} {results : ToolResults} {key : ToolKey} {entry : Entry}
    (member : (key, entry) ∈ results) (matched : key.endsWith callId = true) :
    (pickSuffix callId results).isSome = true := by
  simp only [pickSuffix, Option.isSome_map, List.find?_isSome]
  exact ⟨(key, entry), List.mem_reverse.mpr member, matched⟩

theorem endsWith_self (session : SessionId) (callId : String) :
    (ToolKey.mk session callId).endsWith callId = true := by
  rw [ToolKey.endsWith, List.isSuffixOf_iff_suffix]
  exact ⟨session.text.toList, by simp [ToolKey.text]⟩

/-! ### Reloading -/

theorem storedText_sorted (fields : Fields) : storedText (sortedFields fields) = storedText fields := by
  have sorted : Json.sortKeys (.obj fields) = .obj (sortedFields fields) := rfl
  rw [storedText, storedText, ← sorted, Json.sortKeys_sortKeys]

theorem storedText_reloaded (entry : Entry) :
    storedText entry.reloaded.visible = storedText entry.visible := by
  cases shown : entry.visibleOutput with
  | none => simp [Entry.visible, Entry.reloaded, shown, storedText_sorted]
  | some visible => simp [Entry.visible, Entry.reloaded, shown, storedText_sorted]

theorem Records.reloaded {made : Made} {key : ToolKey} {entry : Entry}
    (records : Records made key entry) : Records made key entry.reloaded :=
  ⟨records.stored, records.key, records.seq, records.name,
    records.text.trans (storedText_reloaded entry).symm⟩

theorem mem_reloaded {results : ToolResults} {key : ToolKey} {entry : Entry} :
    (key, entry) ∈ results.reloaded ↔ ∃ old, (key, old) ∈ results ∧ old.reloaded = entry := by
  rw [ToolResults.reloaded, List.mem_insertionSort]
  constructor
  · intro member
    obtain ⟨⟨other, old⟩, there, same⟩ := List.mem_map.mp member
    obtain ⟨rfl, rfl⟩ := Prod.mk.inj same
    exact ⟨old, there, rfl⟩
  · rintro ⟨old, there, rfl⟩
    exact List.mem_map.mpr ⟨(key, old), there, rfl⟩

/-! ### The invariant -/

section

variable [ContentHash]

/-- The forms in which an output stands in the input. A stub names stored text: its own call's, or
for a recalled page the text of which it was a page. -/
inductive Shows (made : Made) : Text → Prop
  | whole : Shows made (dumped (.obj made.visible))
  | truncated {head : Nat} : made.stored = true →
      Shows made (truncatedView made.name made.callId made.text head)
  | elided {tool : String} {cut : Text} : made.stored = true →
      Shows made (elisionStub tool made.callId cut none)
  | elidedPage {callId : String} {offset : Nat} {cut : Text} : made.page = some (callId, offset) →
      Shows made (elisionStub recallOutput callId cut (some offset))

/-- What a lineage whose calls have used the ids keeps. -/
structure Inv (lineage : NativeLineage) (ids : List String) : Prop where
  used : ∀ made ∈ lineage.made, made.callId ∈ ids
  distinct : (lineage.made.map Made.callId).Nodup
  loads : lineage.Loads
  sound : ∀ key entry, lineage.Held key entry → ∃ made ∈ lineage.made, Records made key entry
  complete : ∀ made ∈ lineage.made, made.stored = true → ∃ entry, lineage.Held made.key entry
  pages : ∀ callId page, (callId, page) ∈ lineage.state.recallPages → ∃ made ∈ lineage.made,
    made.callId = callId ∧ made.seq = page.seq ∧ made.page = some (page.callId, page.offset)
  targets : ∀ made ∈ lineage.made, ∀ callId offset, made.page = some (callId, offset) →
    made.stored = false ∧
      ∃ target ∈ lineage.made, target.stored = true ∧ target.key.endsWith callId = true
  shown : ∀ shown, InputItem.toolOutput shown ∈ lineage.state.input → ∃ made ∈ lineage.made,
    made.callId = shown.callId ∧ Shows made shown.output

theorem Inv.same {lineage : NativeLineage} {ids : List String} (inv : lineage.Inv ids)
    {one other : Made} (first : one ∈ lineage.made) (second : other ∈ lineage.made)
    (same : one.callId = other.callId) : one = other :=
  List.inj_on_of_nodup_map inv.distinct first second same

omit [ContentHash] in
theorem held_active {lineage : NativeLineage} {key : ToolKey} {entry : Entry}
    (member : (key, entry) ∈ lineage.state.toolResults) : lineage.Held key entry :=
  ⟨_, List.mem_cons_self, member⟩

omit [ContentHash] in
theorem held_iff {lineage : NativeLineage} {key : ToolKey} {entry : Entry} :
    lineage.Held key entry ↔ (key, entry) ∈ lineage.state.toolResults ∨
      ∃ ref ∈ lineage.refs, ∃ results, lineage.loadArchive ref = .ok results ∧
        (key, entry) ∈ results := by
  unfold Held reached
  simp only [List.mem_cons, exists_eq_or_imp, List.mem_filterMap]
  refine or_congr_right ⟨?_, ?_⟩
  · rintro ⟨results, ⟨ref, member, loaded⟩, there⟩
    cases found : lineage.loadArchive ref with
    | error error => simp [found, Except.toOption] at loaded
    | ok archived =>
      simp only [found, Except.toOption, Option.some.injEq] at loaded
      exact ⟨ref, member, results, by rw [found, loaded], there⟩
  · rintro ⟨ref, member, results, loaded, there⟩
    exact ⟨results, ⟨ref, member, by rw [loaded]; rfl⟩, there⟩

/-- The step makes no call and shows nothing new: what was stored is stored, perhaps elsewhere and
with its keys sorted. -/
structure Carried (before after : NativeLineage) : Prop where
  made : after.made = before.made
  pages : after.state.recallPages = before.state.recallPages
  input : ∀ shown, InputItem.toolOutput shown ∈ after.state.input →
    InputItem.toolOutput shown ∈ before.state.input
  loads : before.Loads → after.Loads
  held : before.Loads → ∀ key entry, after.Held key entry →
    ∃ old, before.Held key old ∧ (entry = old ∨ entry = old.reloaded)
  kept : before.Loads → ∀ key entry, before.Held key entry → ∃ entry, after.Held key entry

theorem Inv.carried {before after : NativeLineage} {ids : List String} (inv : before.Inv ids)
    (carried : Carried before after) : after.Inv ids where
  used := carried.made ▸ inv.used
  distinct := carried.made ▸ inv.distinct
  loads := carried.loads inv.loads
  sound := by
    intro key entry held
    obtain ⟨old, there, same⟩ := carried.held inv.loads key entry held
    obtain ⟨made, member, records⟩ := inv.sound key old there
    refine ⟨made, carried.made ▸ member, ?_⟩
    rcases same with rfl | rfl
    · exact records
    · exact records.reloaded
  complete := by
    intro made member stored
    obtain ⟨entry, held⟩ := inv.complete made (carried.made ▸ member) stored
    exact carried.kept inv.loads _ _ held
  pages := by
    rw [carried.made, carried.pages]
    exact inv.pages
  targets := carried.made ▸ inv.targets
  shown := by
    rw [carried.made]
    exact fun shown member => inv.shown shown (carried.input shown member)

omit [ContentHash] in
theorem carried_refl (lineage : NativeLineage) : Carried lineage lineage :=
  ⟨rfl, rfl, fun _ => id, id, fun _ _ entry held => ⟨entry, held, .inl rfl⟩,
    fun _ _ entry held => ⟨entry, held⟩⟩

omit [ContentHash] in
theorem carried_input (lineage : NativeLineage) (elision : Elision) {input : List InputItem}
    (old : ∀ shown, InputItem.toolOutput shown ∈ input →
      InputItem.toolOutput shown ∈ lineage.state.input) :
    Carried lineage { lineage with state := { lineage.state with input, elision } } :=
  ⟨rfl, rfl, old, id, fun _ _ entry held => ⟨entry, held, .inl rfl⟩,
    fun _ _ entry held => ⟨entry, held⟩⟩

omit [ContentHash] in
theorem carried_reload (lineage : NativeLineage) :
    Carried lineage { lineage with state := lineage.state.reloaded } where
  made := rfl
  pages := rfl
  input := fun _ => id
  loads := id
  held := by
    intro _ key entry held
    rcases held_iff.mp held with active | archived
    · obtain ⟨old, there, rfl⟩ := mem_reloaded.mp active
      exact ⟨old, held_active there, .inr rfl⟩
    · exact ⟨entry, held_iff.mpr (.inr archived), .inl rfl⟩
  kept := by
    intro _ key entry held
    rcases held_iff.mp held with active | archived
    · exact ⟨_, held_active (mem_reloaded.mpr ⟨entry, active, rfl⟩)⟩
    · exact ⟨entry, held_iff.mpr (.inr archived)⟩

omit [ContentHash] in
theorem mem_refs_handoff {lineage : NativeLineage} {session : SessionId} {prompt : String}
    {ref : SessionId × Nat} :
    ref ∈ (lineage.startFromHandoff session prompt).refs ↔ ref ∈ lineage.refs := by
  simp [refs, startFromHandoff, or_comm]

omit [ContentHash] in
theorem carried_handoff (lineage : NativeLineage) (session : SessionId) (prompt : String) :
    Carried lineage (lineage.startFromHandoff session prompt) := by
  have held : ∀ key entry,
      (lineage.startFromHandoff session prompt).Held key entry ↔ lineage.Held key entry := by
    intro key entry
    simp only [held_iff, mem_refs_handoff]
    rfl
  refine ⟨rfl, rfl, fun shown member => ?_,
    fun loads ref member => loads ref (mem_refs_handoff.mp member),
    fun _ key entry there => ⟨entry, (held key entry).mp there, .inl rfl⟩,
    fun _ key entry there => ⟨entry, (held key entry).mpr there⟩⟩
  rcases List.mem_append.mp member with old | prompted
  · exact old
  · cases List.mem_singleton.mp prompted

/-! ### Compaction -/

/-- The context after a compaction: the prefix and the results are in a new archive. -/
def pruned (lineage : NativeLineage) (start : Nat) (anchor id : String) : NativeLineage :=
  { lineage with
    store := lineage.store ++
      [⟨lineage.session, lineage.state.input.take start, lineage.state.toolResults⟩]
    state := { lineage.state with
      archives := lineage.state.archives ++ [lineage.store.length]
      toolResults := []
      input := lineage.state.input.drop start ++
        [.user (.obj [("role", .str "user"), ("content", .str anchor)])]
      activeInputEpoch := lineage.state.activeInputEpoch + 1
      lastCompactionId := some id } }

omit [ContentHash] in
theorem advanceActiveInput_cases {lineage after : NativeLineage} {output : List Produced}
    {anchor : Option String} (done : lineage.advanceActiveInput output anchor = .ok after) :
    after = lineage ∨ ∃ start anchor id, after = lineage.pruned start anchor id := by
  unfold advanceActiveInput at done
  simp only at done
  split at done
  next id content last =>
    simp only [bind_ok, orThrow_ok, pure_ok] at done
    obtain ⟨index, -, start, -, anchor, -, rfl⟩ := done
    exact .inr ⟨start, anchor, id, rfl⟩
  next => exact .inl (pure_ok.mp done).symm

omit [ContentHash] in
theorem loadArchive_pruned {lineage : NativeLineage} {start : Nat} {anchor id : String}
    {ref : SessionId × Nat} {results : ToolResults} (loaded : lineage.loadArchive ref = .ok results) :
    (lineage.pruned start anchor id).loadArchive ref = .ok results := by
  unfold loadArchive at loaded ⊢
  cases found : lineage.store[ref.2]? with
  | none => simp [found] at loaded
  | some archive =>
    have inside := (List.getElem?_eq_some_iff.mp found).1
    have still : (lineage.pruned start anchor id).store[ref.2]? = some archive := by
      rw [pruned, List.getElem?_append_left inside, found]
    rw [found] at loaded
    rw [still]
    exact loaded

omit [ContentHash] in
theorem loadArchive_new (lineage : NativeLineage) (start : Nat) (anchor id : String) :
    (lineage.pruned start anchor id).loadArchive (lineage.session, lineage.store.length) =
      .ok lineage.state.toolResults.reloaded := by
  simp [loadArchive, pruned]

omit [ContentHash] in
theorem mem_refs_pruned {lineage : NativeLineage} {start : Nat} {anchor id : String}
    {ref : SessionId × Nat} :
    ref ∈ (lineage.pruned start anchor id).refs ↔
      ref = (lineage.session, lineage.store.length) ∨ ref ∈ lineage.refs := by
  simp [refs, pruned]

omit [ContentHash] in
theorem carried_pruned (lineage : NativeLineage) (start : Nat) (anchor id : String) :
    Carried lineage (lineage.pruned start anchor id) where
  made := rfl
  pages := rfl
  input := by
    intro shown member
    rcases List.mem_append.mp member with kept | anchored
    · exact List.mem_of_mem_drop kept
    · cases List.mem_singleton.mp anchored
  loads := by
    intro loads ref member
    rcases mem_refs_pruned.mp member with rfl | old
    · exact ⟨_, loadArchive_new lineage start anchor id⟩
    · obtain ⟨results, loaded⟩ := loads ref old
      exact ⟨results, loadArchive_pruned loaded⟩
  held := by
    intro loads key entry held
    rcases held_iff.mp held with active | ⟨ref, member, results, loaded, there⟩
    · cases active
    · rcases mem_refs_pruned.mp member with rfl | old
      · -- the new archive holds what was active
        rw [loadArchive_new, Except.ok.injEq] at loaded
        obtain ⟨old, active, rfl⟩ := mem_reloaded.mp (loaded ▸ there)
        exact ⟨old, held_active active, .inr rfl⟩
      · obtain ⟨before, was⟩ := loads ref old
        have same : results = before := by
          rw [loadArchive_pruned was, Except.ok.injEq] at loaded
          exact loaded.symm
        exact ⟨entry, held_iff.mpr (.inr ⟨ref, old, before, was, same ▸ there⟩), .inl rfl⟩
  kept := by
    intro loads key entry held
    rcases held_iff.mp held with active | ⟨ref, member, results, loaded, there⟩
    · exact ⟨entry.reloaded, held_iff.mpr (.inr ⟨_, mem_refs_pruned.mpr (.inl rfl), _,
        loadArchive_new lineage start anchor id, mem_reloaded.mpr ⟨entry, active, rfl⟩⟩)⟩
    · exact ⟨entry, held_iff.mpr (.inr ⟨ref, mem_refs_pruned.mpr (.inr member), results,
        loadArchive_pruned loaded, there⟩)⟩

/-! ### Calls -/

theorem Inv.weaken {lineage : NativeLineage} {ids more : List String} (inv : lineage.Inv ids) :
    lineage.Inv (ids ++ more) :=
  { inv with used := fun made member => List.mem_append_left _ (inv.used made member) }

/-- A new call enters the history with what it has stored and what is shown of it. -/
theorem Inv.called {before after : NativeLineage} {ids : List String} {made : Made} {id : String}
    (inv : before.Inv ids) (history : after.made = before.made ++ [made])
    (named : made.callId = id) (fresh : id ∉ ids) (loads : before.Loads → after.Loads)
    (held : ∀ key entry, after.Held key entry → before.Held key entry ∨ Records made key entry)
    (kept : ∀ key entry, before.Held key entry → key.callId ≠ made.callId → after.Held key entry)
    (own : made.stored = true → ∃ entry, after.Held made.key entry)
    (pages : ∀ callId page, (callId, page) ∈ after.state.recallPages →
      (callId, page) ∈ before.state.recallPages ∨ (made.callId = callId ∧ made.seq = page.seq ∧
        made.page = some (page.callId, page.offset)))
    (target : ∀ callId offset, made.page = some (callId, offset) → made.stored = false ∧
      ∃ target ∈ before.made, target.stored = true ∧ target.key.endsWith callId = true)
    (input : ∀ shown, InputItem.toolOutput shown ∈ after.state.input →
      InputItem.toolOutput shown ∈ before.state.input ∨
        (made.callId = shown.callId ∧ Shows made shown.output)) :
    after.Inv (ids ++ [id]) := by
  subst named
  have old : ∀ {one : Made}, one ∈ before.made → one ∈ after.made := fun member =>
    history ▸ List.mem_append_left _ member
  have new : made ∈ after.made := history ▸ List.mem_append_right _ (List.mem_singleton.mpr rfl)
  have cases : ∀ one ∈ after.made, one ∈ before.made ∨ one = made := fun one member => by
    simpa [history] using member
  exact {
    used := by
      intro one member
      rcases cases one member with member | rfl
      · exact List.mem_append_left _ (inv.used one member)
      · exact List.mem_append_right _ (List.mem_singleton.mpr rfl)
    distinct := by
      rw [history, List.map_append, List.map_singleton]
      refine List.Nodup.append inv.distinct (List.nodup_singleton _) ?_
      intro callId listed same
      obtain ⟨one, member, rfl⟩ := List.mem_map.mp listed
      exact fresh (List.mem_singleton.mp same ▸ inv.used one member)
    loads := loads inv.loads
    sound := by
      intro key entry there
      rcases held key entry there with before | records
      · obtain ⟨one, member, records⟩ := inv.sound key entry before
        exact ⟨one, old member, records⟩
      · exact ⟨made, new, records⟩
    complete := by
      intro one member stored
      rcases cases one member with member | rfl
      · obtain ⟨entry, there⟩ := inv.complete one member stored
        have other : one.key.callId ≠ made.callId := fun same =>
          fresh (same ▸ inv.used one member)
        exact ⟨entry, kept _ _ there other⟩
      · exact own stored
    pages := by
      intro callId page member
      rcases pages callId page member with before | now
      · obtain ⟨one, member, facts⟩ := inv.pages callId page before
        exact ⟨one, old member, facts⟩
      · exact ⟨made, new, now⟩
    targets := by
      intro one member callId offset read
      rcases cases one member with member | rfl
      · obtain ⟨unstored, goal, there, facts⟩ := inv.targets one member callId offset read
        exact ⟨unstored, goal, old there, facts⟩
      · obtain ⟨unstored, goal, there, facts⟩ := target callId offset read
        exact ⟨unstored, goal, old there, facts⟩
    shown := by
      intro shown member
      rcases input shown member with before | now
      · obtain ⟨one, member, facts⟩ := inv.shown shown before
        exact ⟨one, old member, facts⟩
      · exact ⟨made, new, now⟩ }

/-- What a recall answers with a page for is stored. -/
theorem Inv.recalled {lineage : NativeLineage} {ids : List String} (inv : lineage.Inv ids)
    {arguments : Fields} {callId : String} {offset total : Nat} {next : Option Nat} {text : Text}
    (answered : lineage.recall arguments = .ok (.page callId offset next total text)) :
    ∃ target ∈ lineage.made, target.stored = true ∧ target.key.endsWith callId = true := by
  unfold NativeLineage.recall at answered
  split at answered
  next => cases answered
  next id start checked =>
    rw [findToolResult_ok inv.loads] at answered
    cases found : lineage.reached.findSome? (pickSuffix id) with
    | none => simp [found, bind, Except.bind] at answered
    | some entry =>
      simp only [found, bind, Except.bind, Except.ok.injEq, Recalled.page.injEq] at answered
      obtain ⟨results, member, picked⟩ := List.exists_of_findSome?_eq_some found
      obtain ⟨key, there, matched⟩ := pickSuffix_some picked
      obtain ⟨target, known, records⟩ := inv.sound key entry ⟨results, member, there⟩
      exact ⟨target, known, records.stored, by rw [records.key, ← answered.1, matched]⟩

/-- The output appended for a call shows the call. -/
theorem shown_appended {state : ContextState} {call : FunctionCall} {made : Made} {shown : ToolOutput}
    (name : made.name = call.name) (id : made.callId = call.callId)
    (stored : call.name ≠ recallOutput → made.stored = true)
    (member : InputItem.toolOutput shown ∈ (appendOutput state call made.visible).input) :
    InputItem.toolOutput shown ∈ state.input ∨ (made.callId = shown.callId ∧ Shows made shown.output) := by
  rcases List.mem_append.mp member with before | now
  · exact .inl before
  · cases List.mem_singleton.mp now
    refine .inr ⟨id, ?_⟩
    unfold toolOutputText
    simp only
    split
    next => exact .whole
    next limit =>
      split
      next beyond =>
        rw [← name, ← id]
        exact .truncated (stored beyond.1)
      next => exact .whole

theorem Inv.runRecall {lineage after : NativeLineage} {ids : List String} (inv : lineage.Inv ids)
    {call : FunctionCall} (fresh : call.callId ∉ ids) (asked : call.name = recallOutput)
    {arguments : Fields} {signal : Option Signal}
    (done : lineage.runRecall call arguments signal = .ok after) :
    after.Inv (ids ++ [call.callId]) := by
  unfold NativeLineage.runRecall at done
  simp only [bind_ok, pure_ok] at done
  obtain ⟨recalled, answered, rfl⟩ := done
  cases recalled with
  | error code message =>
    refine inv.called rfl rfl fresh id (fun _ _ => .inl) (fun _ _ held _ => held) (fun stored => ?_)
      (fun _ _ => .inl) (fun _ _ read => ?_) fun shown member => ?_
    · cases stored
    · cases read
    · exact shown_appended rfl rfl (fun other => absurd asked other) member
  | page callId offset next total text =>
    refine inv.called rfl rfl fresh id (fun _ _ => .inl) (fun _ _ held _ => held) (fun stored => ?_)
      (fun id page member => ?_) (fun _ _ read => ?_) fun shown member => ?_
    · cases stored
    · rcases Dict.mem_set.mp member with new | ⟨old, -⟩
      · obtain ⟨rfl, rfl⟩ := Prod.mk.inj new
        exact .inr ⟨rfl, rfl, rfl⟩
      · exact .inl old
    · cases read
      exact ⟨rfl, inv.recalled answered⟩
    · exact shown_appended rfl rfl (fun other => absurd asked other) member

theorem Inv.runDispatched {lineage : NativeLineage} {ids : List String} (inv : lineage.Inv ids)
    {call : FunctionCall} (fresh : call.callId ∉ ids) (identity : Identity) (result : Fields)
    (signal : Option Signal) :
    (lineage.runDispatched call identity result signal).Inv (ids ++ [call.callId]) := by
  refine inv.called rfl rfl fresh id (fun key entry held => ?_) (fun key entry held other => ?_)
    (fun _ => ?_) (fun _ _ => .inl) (fun _ _ read => ?_) (fun shown member => ?_)
  · rcases held_iff.mp held with active | archived
    · rcases Dict.mem_set.mp active with new | ⟨old, -⟩
      · obtain ⟨rfl, rfl⟩ := Prod.mk.inj new
        refine .inr ⟨rfl, rfl, rfl, rfl, ?_⟩
        cases signal <;> rfl
      · exact .inl (held_active old)
    · exact .inl (held_iff.mpr (.inr archived))
  · rcases held_iff.mp held with active | archived
    · refine held_active (Dict.mem_set.mpr (.inr ⟨active, ?_⟩))
      rintro rfl
      exact other rfl
    · exact held_iff.mpr (.inr archived)
  · exact ⟨_, held_active (Dict.mem_set.mpr (.inl rfl))⟩
  · cases read
  · exact shown_appended rfl rfl (fun _ => rfl) member

theorem Inv.runCall [FloatReader] {lineage after : NativeLineage} {ids : List String}
    (inv : lineage.Inv ids) {call : FunctionCall} (fresh : call.callId ∉ ids)
    {dispatched : Except ExecutionError Fields} {signal : Option Signal}
    (done : lineage.runCall call dispatched signal = .ok after) :
    after.Inv (ids ++ [call.callId]) := by
  unfold NativeLineage.runCall at done
  simp only at done
  split at done
  next arguments parsed =>
    split at done
    next asked => exact inv.runRecall fresh asked done
    next =>
      simp only [bind_ok] at done
      obtain ⟨found, searched, done⟩ := done
      rw [findToolResult_ok inv.loads, Except.ok.injEq] at searched
      cases found with
      | none =>
        simp only [bind_ok, pure_ok] at done
        obtain ⟨result, -, rfl⟩ := done
        exact inv.runDispatched fresh _ result signal
      | some previous =>
        -- a committed result under this key is one of an earlier call with the same id
        obtain ⟨results, member, picked⟩ := List.exists_of_findSome?_eq_some searched
        obtain ⟨made, known, records⟩ :=
          inv.sound _ previous ⟨results, member, Dict.mem_of_get picked⟩
        refine absurd (inv.used made known) ?_
        rwa [Made.callId, records.key]
  next => cases done

/-! ### Elision -/

theorem Inv.seq_eq {lineage : NativeLineage} {ids : List String} (inv : lineage.Inv ids) {seq : Nat}
    {tool : String} {callId : String} (found : elidable lineage.state callId = some (seq, tool)) :
    ∃ made ∈ lineage.made, made.callId = callId ∧ made.seq = seq ∧
      (Dict.get lineage.state.recallPages callId = none → made.stored = true) := by
  unfold elidable at found
  split at found
  next key entry here =>
    cases found
    have matched := List.find?_some here
    have same : key.callId = callId := of_decide_eq_true matched
    have there := List.mem_reverse.mp (List.mem_of_find?_eq_some here)
    obtain ⟨made, member, records⟩ := inv.sound key entry (held_active there)
    exact ⟨made, member, by rw [Made.callId, records.key, same], records.seq, fun _ => records.stored⟩
  next =>
    obtain ⟨page, here, read⟩ := Option.map_eq_some_iff.mp found
    cases read
    obtain ⟨made, member, same, seq, -⟩ := inv.pages callId page (Dict.mem_of_get here)
    exact ⟨made, member, same, seq, fun absent => by rw [absent] at here; cases here⟩

/-- What a block does to an output: nothing, or it puts a shorter stub of the call in its place, when
the output is old enough and no stub yet. -/
theorem Inv.elideOutput_cases {lineage : NativeLineage} {ids : List String} (inv : lineage.Inv ids)
    (shown : ToolOutput) :
    elideOutput lineage.state shown = shown ∨ ∃ made ∈ lineage.made, ∃ stub,
      made.callId = shown.callId ∧ Shows made stub ∧
        elideOutput lineage.state shown = { shown with output := stub } ∧
        stub.length < shown.output.length ∧ isElisionStub shown.output = false ∧
        made.seq + lineage.state.contextBudget.elideAfterTurns ≤ lineage.state.elision.seq := by
  cases found : elidable lineage.state shown.callId with
  | none => exact .inl (by rw [elideOutput, found])
  | some entry =>
    obtain ⟨seq, tool⟩ := entry
    by_cases skipped : lineage.state.elision.seq < seq + lineage.state.contextBudget.elideAfterTurns ∨
        shown.output.length ≤ lineage.state.contextBudget.elideMinChars ∨
        isElisionStub shown.output = true
    · exact .inl (by simp [elideOutput, found, skipped])
    by_cases short : shown.output.length ≤ (stubOf lineage.state tool shown).length
    · exact .inl (by simp [elideOutput, found, skipped, short])
    obtain ⟨made, member, same, age, stored⟩ := inv.seq_eq found
    have changed : elideOutput lineage.state shown =
        { shown with output := stubOf lineage.state tool shown } := by
      simp [elideOutput, found, skipped, short]
    simp only [not_or, Nat.not_lt, Nat.not_le, Bool.not_eq_true] at skipped
    refine .inr ⟨made, member, _, same, ?_, changed, Nat.lt_of_not_le short, skipped.2.2,
      age ▸ skipped.1⟩
    unfold stubOf
    cases page : Dict.get lineage.state.recallPages shown.callId with
    | none => exact same ▸ .elided (stored page)
    | some page' =>
      obtain ⟨reader, known, reads, -, handle⟩ := inv.pages _ _ (Dict.mem_of_get page)
      have one : reader = made := inv.same known member (reads.trans same.symm)
      exact .elidedPage (one ▸ handle)

theorem Inv.elideBlock {lineage : NativeLineage} {ids : List String} (inv : lineage.Inv ids) :
    Inv { lineage with state := NativeLineage.elideBlock lineage.state } ids := by
  unfold NativeLineage.elideBlock
  split
  next => exact inv
  next =>
    refine { inv with shown := fun shown member => ?_ }
    obtain ⟨item, there, changed⟩ := List.mem_map.mp member
    cases item with
    | user | produced => cases changed
    | toolOutput before =>
      obtain ⟨made, known, same, shows⟩ := inv.shown before there
      rw [elideItem, InputItem.toolOutput.injEq] at changed
      subst changed
      rcases inv.elideOutput_cases before with kept | ⟨made, known, stub, same, shows, changed, -⟩
      · exact ⟨made, known, by rw [kept, same], by rwa [kept]⟩
      · exact ⟨made, known, by rw [changed, same], by rwa [changed]⟩

/-! ### Runs -/

/-- The ids of the calls that a run makes. -/
def callIds (labels : List Step) : List String :=
  labels.filterMap fun
    | .call call _ _ => some call.callId
    | _ => none

theorem Inv.step [FloatReader] {lineage : NativeLineage} {ids : List String} (inv : lineage.Inv ids)
    (label : Step) (fresh : ∀ id ∈ callIds [label], id ∉ ids) :
    (lineage.step label).Inv (ids ++ callIds [label]) := by
  cases label with
  | inform content =>
    refine (inv.carried (carried_input lineage lineage.state.elision fun shown member => ?_)).weaken
    rcases List.mem_append.mp member with old | new
    · exact old
    · cases List.mem_singleton.mp new
  | elide => exact inv.elideBlock.weaken
  | respond output =>
    refine (inv.carried (carried_input lineage _ fun shown member => ?_)).weaken
    rcases List.mem_append.mp member with old | new
    · exact old
    · obtain ⟨_, -, same⟩ := List.mem_map.mp new
      cases same
  | call call dispatched signal =>
    show (lineage.attempt (lineage.runCall call dispatched signal)).Inv (ids ++ [call.callId])
    cases done : lineage.runCall call dispatched signal with
    | error error => exact inv.weaken
    | ok after => exact inv.runCall (fresh call.callId List.mem_cons_self) done
  | advance output anchor =>
    show (lineage.attempt (lineage.advanceActiveInput output
      (anchor <|> lineage.state.initialAnchor))).Inv (ids ++ [])
    cases done : lineage.advanceActiveInput output (anchor <|> lineage.state.initialAnchor) with
    | error error => exact inv.weaken
    | ok after =>
      rcases advanceActiveInput_cases done with rfl | ⟨start, anchor, id, rfl⟩
      · exact inv.weaken
      · exact (inv.carried (carried_pruned lineage start anchor id)).weaken
  | handoff session prompt => exact (inv.carried (carried_handoff lineage session prompt)).weaken
  | reload => exact (inv.carried (carried_reload lineage)).weaken

theorem Inv.start (session : SessionId) (budget : ContextBudget) (prompt : String) :
    (NativeLineage.start session budget prompt).Inv [] where
  used := fun _ member => nomatch member
  distinct := List.nodup_nil
  loads := fun _ member => nomatch member
  sound := by
    intro key entry held
    rcases held_iff.mp held with active | ⟨ref, member, -⟩
    · cases active
    · cases member
  complete := fun _ member => nomatch member
  pages := fun _ _ member => nomatch member
  targets := fun _ member => nomatch member
  shown := fun _ member => nomatch member

theorem Inv.run [FloatReader] (session : SessionId) (budget : ContextBudget) (prompt : String)
    (labels : List Step) (unique : (callIds labels).Nodup) :
    (Transition.run NativeLineage.step (NativeLineage.start session budget prompt) labels).Inv
      (callIds labels) := by
  -- the induction is from the last label, whose call id is new to the run before it
  induction labels using List.reverseRecOn with
  | nil => exact .start session budget prompt
  | append_singleton labels label ih =>
    have split : callIds (labels ++ [label]) = callIds labels ++ callIds [label] :=
      List.filterMap_append
    rw [split] at unique ⊢
    obtain ⟨before, -, apart⟩ := List.nodup_append.mp unique
    rw [Transition.run_append]
    exact (ih before).step label fun id new used => apart id used id new rfl

/-! ### Recalling -/

/-- The arguments that a handle names; a stub of a whole output names no offset, and a recall starts
at 0. -/
def handleArguments (callId : String) (offset : Nat) : Fields :=
  [("call_id", .str callId), ("offset", .int offset)]

omit [ContentHash] in
def pageAt (lineage : NativeLineage) (callId : String) (offset : Nat) : Option (Paging.Page Char) :=
  match lineage.recall (handleArguments callId offset) with
  | .ok (.page _ _ next _ text) => some ⟨text, next⟩
  | _ => none

/-- The id passes the check of a recall's arguments and names one stored output. -/
structure Recallable (lineage : NativeLineage) (callId : String) : Prop where
  length : 0 < callId.length ∧ callId.length ≤ 200
  unique : ∀ one ∈ lineage.made, ∀ other ∈ lineage.made,
    one.stored = true → one.key.endsWith callId = true →
    other.stored = true → other.key.endsWith callId = true → one = other

omit [ContentHash] in
theorem recallArguments_handle {callId : String} (length : 0 < callId.length ∧ callId.length ≤ 200)
    (offset : Nat) : recallArguments (handleArguments callId offset) = some (callId, offset) := by
  simp [recallArguments, handleArguments, Dict.get, length]

omit [ContentHash] in
theorem recallPage_honest (text : Text) (offset : Nat) :
    Paging.Honest text offset ⟨recallPage text offset,
      if offset + (recallPage text offset).length < text.length then
        some (offset + (recallPage text offset).length) else none⟩ where
  piece := (shrinkPage_begins _).trans (List.take_prefix _ _)
  next := rfl
  progress := by
    intro inside
    refine shrinkPage_ne_nil _ fun empty => ?_
    rcases List.take_eq_nil_iff.mp empty with none | past
    · cases none
    · exact Nat.not_le_of_lt inside (List.drop_eq_nil_iff.mp past)

/-- A recall of a stored output gives an honest page of its text. -/
theorem Inv.pageAt {lineage : NativeLineage} {ids : List String} (inv : lineage.Inv ids)
    {callId : String} (recallable : lineage.Recallable callId) {target : Made}
    (member : target ∈ lineage.made) (stored : target.stored = true)
    (matched : target.key.endsWith callId = true) (offset : Nat) :
    ∃ page, lineage.pageAt callId offset = some page ∧ Paging.Honest target.text offset page := by
  obtain ⟨kept, results, reached, there⟩ := inv.complete target member stored
  obtain ⟨entry, found⟩ := Option.isSome_iff_exists.mp
    (List.findSome?_isSome_iff.mpr ⟨results, reached, pickSuffix_isSome there matched⟩)
  obtain ⟨where_, inside, picked⟩ := List.exists_of_findSome?_eq_some found
  obtain ⟨key, held, ends⟩ := pickSuffix_some picked
  obtain ⟨other, known, records⟩ := inv.sound key entry ⟨where_, inside, held⟩
  have same : other = target := recallable.unique other known target member records.stored
    (records.key ▸ ends) stored matched
  refine ⟨_, ?_, recallPage_honest target.text offset⟩
  rw [NativeLineage.pageAt, NativeLineage.recall, recallArguments_handle recallable.length]
  simp only [findToolResult_ok inv.loads, found, bind, Except.bind, ← same, records.text]


/-! ### The history grows -/

/-- Calls stay in the history, and the budget stays what it is. -/
structure Grows (before after : NativeLineage) : Prop where
  made : before.made ⊆ after.made
  budget : after.state.contextBudget = before.state.contextBudget

omit [ContentHash] in
theorem Grows.refl (lineage : NativeLineage) : Grows lineage lineage := ⟨List.Subset.refl _, rfl⟩

omit [ContentHash] in
theorem runCall_grows [FloatReader] {lineage after : NativeLineage} {call : FunctionCall}
    {dispatched : Except ExecutionError Fields} {signal : Option Signal}
    (done : lineage.runCall call dispatched signal = .ok after) : Grows lineage after := by
  unfold NativeLineage.runCall at done
  simp only at done
  split at done
  next arguments parsed =>
    split at done
    next asked =>
      simp only [runRecall, bind_ok, pure_ok] at done
      obtain ⟨recalled, -, rfl⟩ := done
      cases recalled <;> exact ⟨List.subset_append_left _ _, rfl⟩
    next =>
      simp only [bind_ok] at done
      obtain ⟨found, -, done⟩ := done
      cases found with
      | none =>
        simp only [bind_ok, pure_ok] at done
        obtain ⟨result, -, rfl⟩ := done
        exact ⟨List.subset_append_left _ _, rfl⟩
      | some previous =>
        simp only [bind_ok, pure_ok] at done
        obtain ⟨_, -, rfl⟩ := done
        exact ⟨List.Subset.refl _, rfl⟩
  next => cases done

theorem step_grows [FloatReader] (lineage : NativeLineage) (label : Step) :
    Grows lineage (lineage.step label) := by
  cases label with
  | call call dispatched signal =>
    show Grows lineage (lineage.attempt (lineage.runCall call dispatched signal))
    cases done : lineage.runCall call dispatched signal with
    | error error => exact .refl lineage
    | ok after => exact runCall_grows done
  | advance output anchor =>
    show Grows lineage (lineage.attempt (lineage.advanceActiveInput output
      (anchor <|> lineage.state.initialAnchor)))
    cases done : lineage.advanceActiveInput output (anchor <|> lineage.state.initialAnchor) with
    | error error => exact .refl lineage
    | ok after =>
      rcases advanceActiveInput_cases done with rfl | ⟨start, anchor, id, rfl⟩
      · exact .refl _
      · exact ⟨List.Subset.refl _, rfl⟩
  | elide =>
    refine ⟨List.Subset.refl _, ?_⟩
    show (elideBlock lineage.state).contextBudget = _
    unfold NativeLineage.elideBlock
    split <;> rfl
  | inform | respond | handoff | reload => exact ⟨List.Subset.refl _, rfl⟩

theorem run_grows [FloatReader] (lineage : NativeLineage) (labels : List Step) :
    Grows lineage (Transition.run step lineage labels) :=
  Transition.run_always (Grows lineage) labels (.refl lineage) fun between label grown =>
    ⟨List.Subset.trans grown.made (step_grows between label).made,
      (step_grows between label).budget.trans grown.budget⟩

/-! ### The main result -/

section

variable [FloatReader] (begins : NativeLineage)

/-- The lineage goes on between two reads; its call ids stay unique and the handle recallable. -/
structure Later (callId : String) (labels more : List Step) : Prop where
  extends_ : labels <+: more
  unique : (callIds more).Nodup
  recallable : (Transition.run step begins more).Recallable callId

/-- Recalling with a call id from an offset, then from each `next_offset`, until it is null. -/
def Reads (callId : String) : List Step → Nat → List (Paging.Page Char) → Prop :=
  Paging.Reading (Later begins callId) fun labels =>
    (Transition.run step begins labels).pageAt callId

/-- The recalls from an offset end, and their pages are the rest of the text. -/
structure ReadsRest (labels : List Step) (callId : String) (offset : Nat) (text : Text) : Prop where
  ends : ∃ pages, Reads begins callId labels offset pages
  bounded : ∀ pages, Reads begins callId labels offset pages →
    pages.length ≤ text.length - offset + 1
  rest : ∀ pages, Reads begins callId labels offset pages →
    (pages.map Paging.Page.items).flatten = text.drop offset

end

theorem readsRest [FloatReader] {session : SessionId} {budget : ContextBudget} {prompt : String}
    {labels : List Step} (unique : (callIds labels).Nodup) {callId : String} {target : Made}
    (recallable :
      (Transition.run step (.start session budget prompt) labels).Recallable callId)
    (member : target ∈ (Transition.run step (.start session budget prompt) labels).made)
    (stored : target.stored = true) (matched : target.key.endsWith callId = true) (offset : Nat) :
    ReadsRest (.start session budget prompt) labels callId offset target.text := by
  let good (labels : List Step) : Prop := (callIds labels).Nodup ∧
    (Transition.run step (.start session budget prompt) labels).Recallable callId ∧
    target ∈ (Transition.run step (.start session budget prompt) labels).made
  have now : good labels := ⟨unique, recallable, member⟩
  have found : ∀ labels, good labels → ∀ offset, ∃ page,
      (Transition.run step (.start session budget prompt) labels).pageAt callId offset = some page ∧
        Paging.Honest target.text offset page := fun labels holds =>
    (Inv.run session budget prompt labels holds.1).pageAt holds.2.1 holds.2.2 stored matched
  have honest : ∀ labels offset page, good labels →
      (Transition.run step (.start session budget prompt) labels).pageAt callId offset = some page →
        Paging.Honest target.text offset page := by
    intro labels offset page holds read
    obtain ⟨other, there, facts⟩ := found labels holds offset
    exact Option.some.inj (there.symm.trans read) ▸ facts
  have stays : ∀ labels more, good labels → Later (.start session budget prompt) callId labels more →
      good more := by
    rintro labels more ⟨_, _, known⟩ ⟨⟨between, rfl⟩, still, names⟩
    refine ⟨still, names, ?_⟩
    rw [Transition.run_append]
    exact (run_grows _ between).made known
  refine ⟨?_, ?_, ?_⟩
  · have still : Later (.start session budget prompt) callId labels labels :=
      ⟨List.prefix_rfl, unique, recallable⟩
    exact Paging.Reading.ends still (found labels now) offset
  · exact fun pages reads => reads.length_le honest stays now
  · exact fun pages reads => reads.flatten honest stays now

/-- What the model sees of a call is all of it, or its handle, when it is recallable, reads the rest:
of a truncated view what follows its head, of a stub the text of the call that it names. -/
inductive Recoverable [FloatReader] (begins : NativeLineage) (labels : List Step) (made : Made) :
    Text → Prop
  | whole : Recoverable begins labels made (dumped (.obj made.visible))
  | truncated {head : Nat} :
      ((Transition.run step begins labels).Recallable made.callId →
        ReadsRest begins labels made.callId head made.text ∧
          ∀ pages, Reads begins made.callId labels head pages →
            made.text.take head ++ (pages.map Paging.Page.items).flatten = made.text) →
      Recoverable begins labels made (truncatedView made.name made.callId made.text head)
  | elided {tool callId : String} {cut : Text} {offset : Option Nat} {target : Made} :
      target ∈ (Transition.run step begins labels).made →
      target.stored = true → target.key.endsWith callId = true →
      (made.stored = true → target = made ∧ callId = made.callId ∧ offset = none) →
      ((Transition.run step begins labels).Recallable callId →
        ReadsRest begins labels callId (offset.getD 0) target.text) →
      Recoverable begins labels made (elisionStub tool callId cut offset)

/-- What a block may do to an item: put a shorter stub in the place of an output that is old enough
and no stub. -/
def Shortens (lineage : NativeLineage) (before after : InputItem) : Prop :=
  before = after ∨ ∃ shown stub, before = .toolOutput shown ∧
    after = .toolOutput { shown with output := stub } ∧ stub.length < shown.output.length ∧
    (¬ ∃ tool callId cut offset, shown.output = elisionStub tool callId cut offset) ∧
    ∀ made ∈ lineage.made, made.callId = shown.callId →
      made.seq + lineage.state.contextBudget.elideAfterTurns ≤ lineage.state.elision.seq

/-- Context shortening loses nothing, in every lineage under a budget whose call ids are unique. -/
theorem context_shortening [FloatReader] (session : SessionId) (budget : ContextBudget)
    (prompt : String) (labels : List Step) (unique : (callIds labels).Nodup) :
    let begins := NativeLineage.start session budget prompt
    let lineage := Transition.run step begins labels
    lineage.state.contextBudget = budget ∧
      (∀ shown, InputItem.toolOutput shown ∈ lineage.state.input →
        ∃ made ∈ lineage.made, made.callId = shown.callId ∧
          Recoverable begins labels made shown.output) ∧
      List.Forall₂ lineage.Shortens lineage.state.input
        (NativeLineage.elideBlock lineage.state).input := by
  intro begins lineage
  have inv : lineage.Inv (callIds labels) := Inv.run session budget prompt labels unique
  refine ⟨(run_grows begins labels).budget, ?_, ?_⟩
  · rintro ⟨id, output⟩ member
    obtain ⟨made, known, same, shows⟩ := inv.shown ⟨id, output⟩ member
    refine ⟨made, known, same, ?_⟩
    have own : made.key.endsWith made.callId = true := endsWith_self made.key.session made.callId
    cases shows with
    | whole => exact .whole
    | @truncated head stored =>
      refine .truncated fun recallable => ?_
      have reads := readsRest unique recallable known stored own head
      exact ⟨reads, fun pages read => by rw [reads.rest pages read, List.take_append_drop]⟩
    | elided stored =>
      exact .elided known stored own (fun _ => ⟨rfl, rfl, rfl⟩)
        fun recallable => readsRest unique recallable known stored own 0
    | @elidedPage callId offset cut read =>
      obtain ⟨unstored, target, there, stored, ends⟩ := inv.targets made known callId offset read
      refine .elided there stored ends (fun contra => ?_)
        fun recallable => readsRest unique recallable there stored ends offset
      rw [unstored] at contra
      cases contra
  · unfold NativeLineage.elideBlock
    split
    next => exact List.forall₂_same.mpr fun item _ => .inl rfl
    next =>
      rw [List.forall₂_map_right_iff, List.forall₂_same]
      rintro (content | produced | shown) -
      · exact .inl rfl
      · exact .inl rfl
      · rcases inv.elideOutput_cases shown with kept | ⟨made, known, stub, id, -, changed, rest⟩
        · exact .inl (by rw [elideItem, kept])
        · obtain ⟨shorter, fresh, old⟩ := rest
          refine .inr ⟨shown, stub, rfl, by rw [elideItem, changed], shorter, ?_, ?_⟩
          · rintro ⟨tool, callId, cut, offset, stubbed⟩
            rw [stubbed, isElisionStub_stub] at fresh
            cases fresh
          · intro other there named
            rw [inv.same there known (named.trans id.symm)]
            exact old

end

end NativeLineage

/-! ### A long output and its view -/

namespace Scenario

open NativeLineage

theorem session_plain : ':' ∉ "session".toList := by decide

def nativeSession : SessionId := ⟨"session", session_plain⟩

def defaultBudget : ContextBudget := {}

def times (n : Nat) (c : Char) : String := .ofList (List.replicate n c)

def observed : Fields := [("value", .str (times 24000 'x'))]

def observe (callId : String) : FunctionCall := ⟨callId, "observe", "{}"⟩

/-- A response with one call, whose output is over the cap. -/
def longOutput (callId : String) : List Step :=
  [.respond [.functionCall (observe callId)], .call (observe callId) (.ok observed) none]

def afterOutput (callId : String) : NativeLineage :=
  @Transition.run _ _ (@NativeLineage.step textHash .exact) (.start nativeSession {} "prompt")
    (longOutput callId)

def observedView (callId : String) : Text :=
  truncatedView "observe" callId (storedText observed) 12000

theorem times_length (n : Nat) (c : Char) : (times n c).length = n := by
  simp [times]

theorem dumped_length (n : Nat) : n < (dumped (.obj [("value", .str (times n 'x'))])).length := by
  simp [dumped, Json.render, Json.quoted, Json.renderFields, Json.escapeChar, times,
    List.flatMap_replicate]
  omega

/-- A call that a lineage without stored results dispatches. -/
theorem afterOutput_eq (callId : String) : afterOutput callId =
    (@NativeLineage.step textHash .exact (.start nativeSession {} "prompt")
      (.respond [.functionCall (observe callId)])).runDispatched (observe callId)
        ⟨"observe", .obj []⟩ observed none := by
  have parsed : @Json.loads .exact "{}" = some (.obj []) := rfl
  simp [afterOutput, longOutput, NativeLineage.step, attempt, runCall, observe, parsed, recallOutput,
    Json.sortKeys, Json.sortFields, findToolResult, refs, searchArchives, NativeLineage.start,
    Dict.get, bind, Except.bind, pure, Except.pure]

theorem afterOutput_input (callId : String) : (afterOutput callId).state.input =
    [.produced (.functionCall (observe callId)), .toolOutput ⟨callId, observedView callId⟩] := by
  have view : toolOutputText {} (observe callId) observed = observedView callId := by
    have beyond : 24000 < (dumped (.obj observed)).length := dumped_length 24000
    simp [toolOutputText, observe, recallOutput, observedView, beyond]
  rw [afterOutput_eq, ← view]
  rfl

theorem longOutput_recoverable : ∃ made ∈ (afterOutput "c1").made, made.callId = "c1" ∧
    @Recoverable textHash .exact (.start nativeSession {} "prompt") (longOutput "c1") made
      (observedView "c1") :=
  (@context_shortening textHash .exact nativeSession {} "prompt" (longOutput "c1") (by decide)).2.1
    ⟨"c1", observedView "c1"⟩ (by
      show _ ∈ (afterOutput "c1").state.input
      rw [afterOutput_input]
      exact List.mem_cons_of_mem _ List.mem_cons_self)

/-- An id that the provider may choose and the check of a recall refuses. -/
def longId : String := times 201 'c'

theorem longId_refused (offset : Nat) : (afterOutput longId).pageAt longId offset = none := by
  have long : ¬ longId.length ≤ 200 := by rw [longId, times_length]; decide
  simp [pageAt, NativeLineage.recall, recallArguments, handleArguments, Dict.get, long]

/-- One more call, whose id ends in a colon and the id of the first. -/
def afterSuffix : NativeLineage :=
  @NativeLineage.step textHash .exact (afterOutput "b") (.call (observe "a:b") (.ok []) none)

theorem afterOutput_results : (afterOutput "b").session = nativeSession ∧ (afterOutput "b").refs = [] ∧
    ∃ entry, (afterOutput "b").state.toolResults = [(⟨nativeSession, "b"⟩, entry)] := by
  rw [afterOutput_eq]
  exact ⟨rfl, rfl, _, rfl⟩

theorem afterSuffix_eq : afterSuffix = (afterOutput "b").runDispatched (observe "a:b")
    ⟨"observe", .obj []⟩ [] none := by
  have parsed : @Json.loads .exact "{}" = some (.obj []) := rfl
  obtain ⟨session, refs, entry, results⟩ := afterOutput_results
  simp [afterSuffix, NativeLineage.step, attempt, runCall, observe, parsed, recallOutput,
    Json.sortKeys, Json.sortFields, session, refs, results, findToolResult, searchArchives, Dict.get,
    bind, Except.bind, pure, Except.pure]

theorem suffix_misread : afterSuffix.pageAt "b" 12000 = some ⟨[], none⟩ := by
  obtain ⟨session, -, entry, results⟩ := afterOutput_results
  have ends : (ToolKey.mk nativeSession "a:b").endsWith "b" = true := by decide
  have nothing : recallPage (storedText []) 12000 = [] := List.prefix_nil.mp (shrinkPage_begins _)
  have short : (storedText []).length = 2 := rfl
  have latest : ∃ other, pickSuffix "b" afterSuffix.state.toolResults = some other ∧
      other.visible = [] := by
    refine ⟨⟨⟨"observe", .obj []⟩, [], none, (afterOutput "b").state.elision.seq, "observe"⟩, ?_, rfl⟩
    rw [afterSuffix_eq]
    simp [pickSuffix, runDispatched, appendOutput, observe, session, results, Dict.set, ends,
      withSignal]
  obtain ⟨other, picked, visible⟩ := latest
  rw [pageAt, NativeLineage.recall, recallArguments_handle (by decide)]
  simp [findToolResult, picked, visible, nothing, short, bind, Except.bind]

/-- Two views whose rest cannot be read: each recall of a long id is refused, and the recall of an id
that ends the key of a later call reads that call's output. -/
theorem views_unreadable :
    ((callIds (longOutput longId)).Nodup ∧
      .toolOutput ⟨longId, observedView longId⟩ ∈ (afterOutput longId).state.input ∧
      ¬ ∃ pages, Paging.Reading (fun _ _ => True)
        (fun lineage : NativeLineage => lineage.pageAt longId) (afterOutput longId) 12000 pages) ∧
    (.toolOutput ⟨"b", observedView "b"⟩ ∈ afterSuffix.state.input ∧
      ∃ page, afterSuffix.pageAt "b" 12000 = some page ∧ page.next = none ∧
        page.items ≠ (storedText observed).drop 12000) := by
  refine ⟨⟨List.nodup_singleton _, ?_, ?_⟩, ?_, ⟨_, suffix_misread, rfl, ?_⟩⟩
  · rw [afterOutput_input]
    exact List.mem_cons_of_mem _ List.mem_cons_self
  · rintro ⟨pages, reading⟩
    cases reading with
    | last read => rw [longId_refused] at read; cases read
    | more read => rw [longId_refused] at read; cases read
  · rw [afterSuffix_eq]
    show _ ∈ (afterOutput "b").state.input ++ _
    rw [afterOutput_input]
    exact List.mem_append_left _ (List.mem_cons_of_mem _ List.mem_cons_self)
  · have sorted : storedText observed = dumped (.obj observed) := rfl
    have beyond : 24000 < (storedText observed).length := sorted ▸ dumped_length 24000
    intro nothing
    have empty := List.drop_eq_nil_iff.mp nothing.symm
    omega

end Scenario

end PhysHarness
