import PhysHarness.Sources.Inline
import Mathlib.Data.List.TakeWhile

/-!
# The lines of the flattened file

The flattened file has a line for each string that `inline_commons` puts into it: the hoisted imports,
the blocks of the modules and the rest of the source. The segments say which lines are whose.
-/
namespace PhysHarness

namespace Sources

/-! ### Where the blocks are -/

/-- The first segment that a line is in. -/
def segmentAt (segments : List Segment) (line : Nat) : Option Segment :=
  segments.find? fun segment => segment.first ≤ line ∧ line ≤ segment.last

theorem segmentAt_append {first : List Segment} (second : List Segment) {line : Nat}
    (other : ∀ segment ∈ first, ¬ (segment.first ≤ line ∧ line ≤ segment.last)) :
    segmentAt (first ++ second) line = segmentAt second line := by
  rw [segmentAt, List.find?_append, List.find?_eq_none.mpr (by simpa using other)]
  rfl

theorem layout_lines (out : List (List Char)) (segments : List Segment) (list : List Inlined) :
    (layout out segments list).1 = out ++ list.flatMap moduleBlock := by
  induction list generalizing out segments with
  | nil => simp [layout]
  | cons inlined list ih => rw [layout, ih, List.flatMap_cons, List.append_assoc]

theorem layout_segments (out : List (List Char)) (segments : List Segment) (list : List Inlined) :
    ∃ added, (layout out segments list).2 = segments ++ added ∧
      ∀ segment ∈ added, out.length < segment.first := by
  induction list generalizing out segments with
  | nil => exact ⟨[], by simp [layout]⟩
  | cons inlined list ih =>
    obtain ⟨added, same, behind⟩ := ih (out ++ moduleBlock inlined) _
    refine ⟨_ :: added, by rw [layout, same, List.append_assoc, List.singleton_append], ?_⟩
    intro segment member
    rcases List.mem_cons.mp member with rfl | later
    · exact Nat.lt_succ_self _
    · exact Nat.lt_of_le_of_lt (by simp) (behind segment later)

/-- A line of the blocks is in the segment of its module, and no segment reaches behind the blocks. -/
theorem layout_segmentAt {out : List (List Char)} {segments : List Segment} {list : List Inlined}
    (more : List Segment) {line : Nat} (old : ∀ segment ∈ segments, segment.last ≤ out.length)
    (behind : out.length < line) :
    (line ≤ (layout out segments list).1.length → ∃ before inlined after segment,
        list = before ++ inlined :: after ∧
        (out ++ before.flatMap moduleBlock).length < line ∧
        line ≤ (out ++ (before ++ [inlined]).flatMap moduleBlock).length ∧
        segmentAt ((layout out segments list).2 ++ more) line = some segment ∧
        segment.module = some inlined.found.name) ∧
      ((layout out segments list).1.length < line →
        segmentAt ((layout out segments list).2 ++ more) line = segmentAt more line) := by
  induction list generalizing out segments with
  | nil =>
    refine ⟨fun inside => absurd behind (Nat.not_lt.mpr inside), fun _ => ?_⟩
    exact segmentAt_append more fun segment member both =>
      absurd (both.2.trans (old segment member)) (Nat.not_le.mpr behind)
  | cons inlined list ih =>
    rw [layout]
    have older : ∀ segment ∈ segments ++ [(⟨out.length + 1, out.length + (moduleBlock inlined).length,
        some inlined.found.name, 1⟩ : Segment)], segment.last ≤ (out ++ moduleBlock inlined).length := by
      intro segment member
      rw [List.length_append]
      rcases List.mem_append.mp member with before | last
      · exact (old segment before).trans (Nat.le_add_right _ _)
      · obtain rfl := List.mem_singleton.mp last
        exact le_rfl
    rcases Nat.lt_or_ge (out ++ moduleBlock inlined).length line with further | here
    · obtain ⟨inside, outside⟩ := ih older further
      refine ⟨fun bound => ?_, outside⟩
      obtain ⟨before, other, after, segment, rfl, above, below, found, named⟩ := inside bound
      refine ⟨inlined :: before, other, after, segment, rfl, ?_, ?_, found, named⟩
      · simpa [List.append_assoc] using above
      · simpa [List.append_assoc] using below
    · obtain ⟨added, same, -⟩ := layout_segments (out ++ moduleBlock inlined)
        (segments ++ [⟨out.length + 1, out.length + (moduleBlock inlined).length,
          some inlined.found.name, 1⟩]) list
      constructor
      · intro _
        refine ⟨[], inlined, list, ⟨out.length + 1, out.length + (moduleBlock inlined).length,
          some inlined.found.name, 1⟩, rfl, by simpa using behind, by simpa using here, ?_, rfl⟩
        rw [same, List.append_assoc, List.append_assoc, segmentAt_append _ fun segment member both =>
          absurd (both.2.trans (old segment member)) (Nat.not_le.mpr behind)]
        rw [List.length_append] at here
        exact List.find?_cons_of_pos (by simpa using ⟨behind, here⟩)
      · intro far
        rw [layout_lines, List.length_append] at far
        exact absurd (Nat.le_add_right _ _) (Nat.not_le.mpr (far.trans_le here))

/-! ### Each string is one line -/

section

variable [Alphanumerics]

theorem scopeLabel_line (rest : List Char) : '\n' ∉ scopeLabel rest := by
  have newline : isWord '\n' = false := by
    rw [isWord, isAlnum_latin (by decide)]
    decide
  rw [scopeLabel]
  split
  · intro member
    have inside := List.mem_takeWhile_imp member
    simp [newline] at inside
  · exact List.not_mem_nil

theorem scopeWords_line {code : List Char} {label : List Char} :
    ∀ {before : Option Char}, .opens label ∈ scopeWords before code → '\n' ∉ label := by
  induction code with
  | nil => exact fun member => nomatch member
  | cons c rest ih =>
    intro before member
    rcases List.mem_append.mp member with here | later
    · rw [Option.mem_toList, scopeWord] at here
      split at here
      · cases here
      · obtain ⟨word, -, same⟩ := Option.map_eq_some_iff.mp here
        split at same
        · cases same
        · obtain rfl := ScopeWord.opens.inj same
          split
          · exact List.not_mem_nil
          · exact scopeLabel_line _
    · exact ih later

omit [Alphanumerics] in
theorem openLabels_mem {labels left : List (List Char)} {words : List ScopeWord}
    (open' : openLabels labels words = some left) :
    ∀ label ∈ left, label ∈ labels ∨ .opens label ∈ words := by
  fun_induction openLabels labels words with
  | case1 =>
    obtain rfl := Option.some.inj open'
    exact fun label member => .inl member
  | case2 labels label words ih =>
    intro other member
    rcases ih open' other member with old | later
    · rcases List.mem_cons.mp old with rfl | old
      · exact .inr List.mem_cons_self
      · exact .inl old
    · exact .inr (List.mem_cons_of_mem _ later)
  | case3 => cases open'
  | case4 label labels words ih =>
    intro other member
    exact (ih open' other member).imp (List.mem_cons_of_mem _) (List.mem_cons_of_mem _)

variable [LiteralDigest] {limit : Nat} {source : List Char}

theorem scopeClosers_line {closers : List (List Char)}
    (accepted : scopeClosers limit source = some closers) : ∀ line ∈ closers, '\n' ∉ line := by
  obtain ⟨labels, left, rfl⟩ := Option.map_eq_some_iff.mp accepted
  intro line member
  obtain ⟨label, listed, rfl⟩ := List.mem_map.mp member
  rcases openLabels_mem left label listed with none | word
  · cases none
  · have single := scopeWords_line word
    rw [closerLine]
    split
    · decide
    · rw [List.mem_append]
      rintro (inside | inside)
      · revert inside
        decide
      · rcases List.mem_cons.mp inside with space | inside
        · cases space
        · exact single inside

omit [Alphanumerics] [LiteralDigest] in
/-- Names with blanks between them. -/
theorem spaced_line {names : List (List Char)} (single : ∀ name ∈ names, '\n' ∉ name) :
    '\n' ∉ [' '].intercalate names := by
  induction names with
  | nil => simp
  | cons name names ih =>
    have here := single name List.mem_cons_self
    have later := ih fun other member => single other (List.mem_cons_of_mem _ member)
    cases names with
    | nil => simpa using here
    | cons other names =>
      rw [List.intercalate_cons_cons]
      simp only [List.mem_append, not_or]
      exact ⟨⟨here, by decide⟩, later⟩

omit [LiteralDigest] in
/-- The import lines of the environment hold names. -/
theorem importLoop_env {lines more : List (List Char)} :
    ∀ {index stop : Nat} {modules env : List (List Char)}, (∀ line ∈ env, '\n' ∉ line) →
      ∀ line ∈ (importLoop lines index stop modules env more).env, '\n' ∉ line := by
  induction more with
  | nil => exact fun single => single
  | cons line more ih =>
    intro index stop modules env single
    simp only [importLoop]
    split
    · exact ih single
    split
    next imports =>
      refine ih ?_
      split
      · exact single
      · intro other member
        rcases List.mem_append.mp member with old | new
        · exact single other old
        · obtain rfl := List.mem_singleton.mp new
          have newline : isModuleChar '\n' = false := by
            rw [isModuleChar, isWord, isAlnum_latin (by decide)]
            decide
          have names : ∀ name ∈ (lineWords line).tail.filter fun name => !commonsImport name,
              '\n' ∉ name := by
            intro name listed inside
            have word := List.mem_of_mem_tail (List.mem_of_mem_filter listed)
            have char := (headerLine_words (.inr imports) name word).1 _ inside
            rw [newline] at char
            cases char
          rw [List.mem_append, List.mem_cons]
          rintro (inside | inside | inside)
          · revert inside
            decide
          · cases inside
          · exact spaced_line names inside
    · exact single

theorem splitImports_line :
    (∀ line ∈ (splitImports limit source).env, '\n' ∉ line) ∧
      ∀ line ∈ (splitImports limit source).rest, '\n' ∉ line := by
  refine ⟨importLoop_env nofun, fun line member => ?_⟩
  rw [(splitImports_cut limit source).rest] at member
  exact Lines.not_mem_line (List.mem_of_mem_drop member)

end

/-! ### The hoisted imports -/

theorem mem_hoist {out env : List (List Char)} {line : List Char} :
    line ∈ hoist out env ↔ line ∈ out ∨ line ∈ env := by
  rw [hoist, List.mem_append, List.mem_filter]
  by_cases old : line ∈ out <;> simp [old]

theorem mem_foldl_hoist {envs : List (List (List Char))} {out : List (List Char)} {line : List Char} :
    line ∈ envs.foldl hoist out ↔ line ∈ out ∨ ∃ env ∈ envs, line ∈ env := by
  induction envs generalizing out with
  | nil => simp
  | cons env envs ih =>
    rw [List.foldl_cons, ih, mem_hoist]
    simp [or_assoc]

theorem mem_hoisted {imports : ImportSplit} {ordered : List Inlined} {line : List Char} :
    line ∈ hoisted imports ordered ↔
      line ∈ imports.env ∨ ∃ inlined ∈ ordered, line ∈ inlined.parts.env := by
  rw [hoisted, mem_foldl_hoist]
  simp

theorem rank_line (rank : ModuleRank) : '\n' ∉ rank.text := by
  cases rank with
  | stub => decide
  | published rank => cases rank <;> decide

theorem moduleLabel_line (found : Module) : '\n' ∉ moduleLabel found := by
  have joined : ∀ {first second : List Char}, '\n' ∉ first → '\n' ∉ second → '\n' ∉ first ++ second :=
    fun one two member => (List.mem_append.mp member).elim one two
  rw [moduleLabel]
  refine joined (joined (joined (joined (joined (joined ?_ found.name_line) ?_) found.node_line) ?_)
    (rank_line found.rank)) ?_
  · decide
  · decide
  · decide
  · split <;> decide

section

variable [Alphanumerics] [LiteralDigest] {limit : Nat}

/-- What `visit` keeps of a module. -/
structure Split (limit : Nat) (inlined : Inlined) : Prop where
  parts : inlined.parts = splitImports limit inlined.found.source
  closers : scopeClosers limit inlined.found.source = some inlined.closers

theorem moduleBlock_line {inlined : Inlined} (split : Split limit inlined) :
    ∀ line ∈ moduleBlock inlined, '\n' ∉ line := by
  intro line member
  rcases List.mem_cons.mp member with rfl | member
  · decide
  rcases List.mem_cons.mp member with rfl | member
  · exact moduleLabel_line _
  rcases List.mem_append.mp member with inside | last
  · rcases List.mem_append.mp inside with own | closing
    · rw [split.parts] at own
      exact splitImports_line.2 line own
    · exact scopeClosers_line split.closers line closing
  · obtain rfl := List.mem_singleton.mp last
    decide

/-- The lines of the flattened file. -/
theorem assemble_lines {source : List Char} {ordered : List Inlined} (filled : ordered ≠ [])
    (splits : ∀ inlined ∈ ordered, Split limit inlined) :
    linesOf (assemble (splitImports limit source) ordered).source =
      hoisted (splitImports limit source) ordered ++ ordered.flatMap moduleBlock ++
        (splitImports limit source).rest := by
  have text : (assemble (splitImports limit source) ordered).source =
      Lines.join '\n' (hoisted (splitImports limit source) ordered ++ ordered.flatMap moduleBlock ++
        (splitImports limit source).rest) := by
    rw [← layout_lines _ []]
    rfl
  rw [text, linesOf, Lines.join]
  refine List.splitOn_intercalate '\n' (fun line member => ?_) ?_
  · rcases List.mem_append.mp member with member | rest
    · rcases List.mem_append.mp member with header | block
      · rcases mem_hoisted.mp header with own | ⟨inlined, listed, inside⟩
        · exact splitImports_line.1 line own
        · rw [(splits inlined listed).parts] at inside
          exact splitImports_line.1 line inside
      · obtain ⟨inlined, listed, inside⟩ := List.mem_flatMap.mp block
        exact moduleBlock_line (splits inlined listed) line inside
    · exact splitImports_line.2 line rest
  · obtain ⟨inlined, others, rfl⟩ := List.exists_cons_of_ne_nil filled
    simp [moduleBlock]

end

/-! ### The segments -/

variable {β : Type} {imports : ImportSplit} {ordered : List Inlined}

theorem moved_found {segments : List Segment} (item : CheckItem β) {line : Nat} {segment : Segment}
    (here : item.line = some line) (found : segmentAt segments line = some segment) :
    item.moved segments = match segment.module with
      | none => { item with line := some (segment.origin + line - segment.first) }
      | some module => { item with line := none, module := some module, expandedLine := some line } := by
  rw [segmentAt] at found
  rw [CheckItem.moved, here]
  cases label : segment.module <;> simp only [found, label]

theorem moved_none {segments : List Segment} (item : CheckItem β) {line : Nat}
    (here : item.line = some line) (found : segmentAt segments line = none) :
    item.moved segments = { item with line := none, expandedLine := some line } := by
  rw [segmentAt] at found
  rw [CheckItem.moved, here]
  simp only [found]

/-- A line of the rest goes back to its place in the source. -/
theorem moved_own (item : CheckItem β) {index : Nat} (inside : index < imports.rest.length)
    (line : item.line = some
      ((hoisted imports ordered ++ ordered.flatMap moduleBlock).length + index + 1)) :
    item.moved (assemble imports ordered).segments =
      { item with line := some (imports.first + index + 1) } := by
  rw [← layout_lines _ []] at line
  have behind : (hoisted imports ordered).length <
      (layout (hoisted imports ordered) [] ordered).1.length + index + 1 := by
    rw [layout_lines, List.length_append]
    omega
  have own : segmentAt (assemble imports ordered).segments
      ((layout (hoisted imports ordered) [] ordered).1.length + index + 1) =
      some ⟨(layout (hoisted imports ordered) [] ordered).1.length + 1,
        (layout (hoisted imports ordered) [] ordered).1.length + imports.rest.length, none,
        imports.first + 1⟩ := by
    refine ((layout_segmentAt _ (by simp) behind).2 (by omega)).trans (List.find?_cons_of_pos ?_)
    simp only [decide_eq_true_eq]
    omega
  rw [moved_found item line own]
  simp only [CheckItem.mk.injEq, Option.some.injEq, and_true]
  omega

/-- A line of a module names the module. -/
theorem moved_module (item : CheckItem β) {line : Nat} (here : item.line = some line)
    (above : (hoisted imports ordered).length < line)
    (below : line ≤ (hoisted imports ordered ++ ordered.flatMap moduleBlock).length) :
    ∃ before inlined after, ordered = before ++ inlined :: after ∧
      (hoisted imports ordered ++ before.flatMap moduleBlock).length < line ∧
      line ≤ (hoisted imports ordered ++ (before ++ [inlined]).flatMap moduleBlock).length ∧
      item.moved (assemble imports ordered).segments =
        { item with line := none, module := some inlined.found.name, expandedLine := some line } := by
  rw [← layout_lines _ []] at below
  obtain ⟨before, inlined, after, segment, split, start, last, found, named⟩ :=
    (layout_segmentAt [⟨(layout (hoisted imports ordered) [] ordered).1.length + 1,
      (layout (hoisted imports ordered) [] ordered).1.length + imports.rest.length, none,
      imports.first + 1⟩] (by simp) above).1 below
  refine ⟨before, inlined, after, split, start, last, ?_⟩
  have moved := moved_found item here found
  rw [named] at moved
  exact moved

/-- A hoisted line is nobody's. -/
theorem moved_hoisted (item : CheckItem β) {line : Nat} (here : item.line = some line)
    (inside : line ≤ (hoisted imports ordered).length) :
    item.moved (assemble imports ordered).segments =
      { item with line := none, expandedLine := some line } := by
  refine moved_none item here (List.find?_eq_none.mpr fun segment member both => ?_)
  simp only [decide_eq_true_eq] at both
  rcases List.mem_append.mp member with block | last
  · obtain ⟨added, same, behind⟩ := layout_segments (hoisted imports ordered) [] ordered
    rw [same, List.nil_append] at block
    exact absurd (behind segment block) (Nat.not_lt.mpr (both.1.trans inside))
  · obtain rfl := List.mem_singleton.mp last
    have first := both.1
    rw [layout_lines, List.length_append] at first
    dsimp only at first
    omega

end Sources

end PhysHarness
