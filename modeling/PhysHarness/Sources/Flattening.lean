import PhysHarness.Sources.LineMap
import Mathlib.Algebra.Order.BigOperators.Group.List
import Mathlib.Algebra.Order.Group.Nat

/-!
# The flattened file

The visits of `inline_commons` are the depth-first expansion of the imports, with the bytes of the
modules counted on the way.

## Main result

`inline_commons_flattens`: what a flattened source holds, and what a reachable cycle leads to.
-/
namespace PhysHarness

namespace Sources

open Relation Walk

section

variable [Alphanumerics] [LiteralDigest]

/-- The commons modules that a module imports. -/
def importsOf (library : Library) (limit : Nat) (name : List Char) : List (List Char) :=
  match library.resolve name with
  | .ok found => (splitImports limit found.source).modules
  | .error _ => []

/-- The bytes of a module's own lines. -/
def bodySize (library : Library) (limit : Nat) (name : List Char) : Nat :=
  match library.resolve name with
  | .ok found => utf8Size (bodyText limit found.source)
  | .error _ => 0

variable {library : Library} {limit maxBytes : Nat}

/-! ### What a visit does -/

/-- A module that `enter` lets in. -/
structure Entry (library : Library) (limit : Nat) (name : List Char) (inlined : Inlined) : Prop where
  resolved : library.resolve name = .ok inlined.found
  parts : inlined.parts = splitImports limit inlined.found.source
  closers : scopeClosers limit inlined.found.source = some inlined.closers
  plain : ¬ exitText <:+: inlined.found.source

theorem Entry.named {name : List Char} {inlined : Inlined} (entry : Entry library limit name inlined) :
    inlined.found.name = name :=
  library.named _ _ entry.resolved

theorem Entry.imports {name : List Char} {inlined : Inlined}
    (entry : Entry library limit name inlined) :
    importsOf library limit name = inlined.parts.modules := by
  rw [importsOf, entry.resolved, entry.parts]

theorem enter_ok {floor floor' : Nat} {name : List Char} {inlined : Inlined}
    (entered : enter library limit maxBytes floor name = .ok (inlined, floor')) :
    Entry library limit name inlined ∧ floor' = floor + bodySize library limit name ∧
      floor' ≤ maxBytes := by
  unfold enter at entered
  cases resolved : library.resolve name with
  | error => rw [resolved] at entered; cases entered
  | ok found =>
    rw [resolved] at entered
    replace entered : (if exitText <:+: found.source then _ else _) = _ := entered
    split at entered
    · cases entered
    next plain =>
      dsimp only at entered
      split at entered
      · cases entered
      next closers accepted =>
        split at entered
        · cases entered
        next room =>
          obtain ⟨rfl, rfl⟩ := Prod.mk.inj (Except.ok.inj entered)
          exact ⟨⟨resolved, rfl, accepted, plain⟩, by rw [bodySize, resolved]; rfl,
            Nat.not_lt.mp room⟩

/-- The ways a visit goes. -/
theorem visit_cases {fuel : Nat} {active : List (List Char)} {visited : Visited} {name : List Char}
    {result : Except InlineRefusal Visited}
    (ran : visit library limit maxBytes fuel active visited name = result) :
    name ∈ visited.done ∧ result = .ok visited ∨
    name ∉ visited.done ∧ name ∈ active ∧ result = .error (.cycle (active.reverse ++ [name])) ∨
    name ∉ visited.done ∧ name ∉ active ∧
      (maxCommonsModules ≤ visited.done.length + active.length ∨ fuel = 0) ∧ result = .error .limit ∨
    name ∉ visited.done ∧ name ∉ active ∧
      visited.done.length + active.length < maxCommonsModules ∧ ∃ less, fuel = less + 1 ∧
      ((∃ refusal, enter library limit maxBytes visited.floor name = .error refusal ∧
          result = .error refusal) ∨
        ∃ inlined floor, enter library limit maxBytes visited.floor name = .ok (inlined, floor) ∧
          ((∃ refusal, inlined.parts.modules.foldlM
                (visit library limit maxBytes less (name :: active)) { visited with floor := floor } =
              .error refusal ∧ result = .error refusal) ∨
            ∃ inner, inlined.parts.modules.foldlM
                (visit library limit maxBytes less (name :: active)) { visited with floor := floor } =
              .ok inner ∧
              result = .ok { inner with
                done := inner.done ++ [name], ordered := inner.ordered ++ [inlined] })) := by
  subst ran
  unfold visit
  split
  next known => exact .inl ⟨known, rfl⟩
  next fresh =>
    split
    next inside => exact .inr (.inl ⟨fresh, inside, rfl⟩)
    next outside =>
      split
      next full => exact .inr (.inr (.inl ⟨fresh, outside, .inl full, rfl⟩))
      next room =>
        split
        · exact .inr (.inr (.inl ⟨fresh, outside, .inr rfl, rfl⟩))
        next less =>
          refine .inr (.inr (.inr ⟨fresh, outside, Nat.not_le.mp room, less, rfl, ?_⟩))
          cases entered : enter library limit maxBytes visited.floor name with
          | error refusal => exact .inl ⟨refusal, rfl, rfl⟩
          | ok both =>
            obtain ⟨inlined, floor⟩ := both
            refine .inr ⟨inlined, floor, rfl, ?_⟩
            cases ran : inlined.parts.modules.foldlM
                (visit library limit maxBytes less (name :: active))
                { visited with floor := floor } with
            | error refusal =>
              exact .inl ⟨refusal, rfl, by simp only [bind, Except.bind, ran]⟩
            | ok inner =>
              exact .inr ⟨inner, rfl, by simp only [bind, Except.bind, ran]⟩

/-! ### Visits are the expansion of the imports -/

/-- What a visit that ends has kept of the modules it put behind the others. -/
structure Visits (library : Library) (limit maxBytes : Nat) (visited after : Visited) : Prop where
  added : ∃ more, after.ordered = visited.ordered ++ more ∧
    after.done = visited.done ++ more.map (fun inlined => inlined.found.name) ∧
    (∀ inlined ∈ more, Entry library limit inlined.found.name inlined) ∧
    after.floor = visited.floor +
      (more.map fun inlined => bodySize library limit inlined.found.name).sum
  bytes : after = visited ∨ after.floor ≤ maxBytes

theorem Visits.trans {first second third : Visited} (one : Visits library limit maxBytes first second)
    (two : Visits library limit maxBytes second third) :
    Visits library limit maxBytes first third where
  added := by
    obtain ⟨more, ordered, done, entries, floor⟩ := one.added
    obtain ⟨later, ordered', done', entries', floor'⟩ := two.added
    refine ⟨more ++ later, by rw [ordered', ordered, List.append_assoc],
      by rw [done', done, List.append_assoc, List.map_append], ?_, ?_⟩
    · intro inlined member
      rcases List.mem_append.mp member with old | new
      · exact entries inlined old
      · exact entries' inlined new
    · rw [floor', floor, List.map_append, List.sum_append, Nat.add_assoc]
  bytes := by
    rcases two.bytes with rfl | bound
    · exact one.bytes
    · exact .inr bound

/-- A visit of a module, when those of its imports are done. -/
theorem Visits.entered {visited inner : Visited} {inlined : Inlined} {floor : Nat} {name : List Char}
    (entered : enter library limit maxBytes visited.floor name = .ok (inlined, floor))
    (below : Visits library limit maxBytes { visited with floor := floor } inner) :
    Visits library limit maxBytes visited
      { inner with done := inner.done ++ [name], ordered := inner.ordered ++ [inlined] } where
  added := by
    obtain ⟨entry, rfl, -⟩ := enter_ok entered
    obtain ⟨more, ordered, done, entries, counted⟩ := below.added
    refine ⟨more ++ [inlined], ?_, ?_, ?_, ?_⟩
    · rw [ordered, List.append_assoc]
    · rw [done, List.map_append, List.map_singleton, entry.named, List.append_assoc]
    · intro other member
      rcases List.mem_append.mp member with old | last
      · exact entries other old
      · obtain rfl := List.mem_singleton.mp last
        rwa [entry.named]
    · simp only [counted, List.map_append, List.sum_append, List.map_singleton, List.sum_singleton,
        entry.named]
      omega
  bytes := by
    obtain ⟨-, -, room⟩ := enter_ok entered
    rcases below.bytes with rfl | bound
    · exact .inr room
    · exact .inr bound

/-- Visits that end put the modules in the order of the expansion. -/
theorem visits_expand {fuel : Nat} :
    ∀ {active names : List (List Char)} {visited after : Visited},
      names.foldlM (visit library limit maxBytes fuel active) visited = .ok after →
        Walk.expand (importsOf library limit) maxCommonsModules fuel active names visited.done =
            .ok after.done ∧
          Visits library limit maxBytes visited after := by
  induction fuel using Nat.strongRecOn with
  | ind fuel ih =>
    intro active names
    induction names with
    | nil =>
      intro visited after ran
      obtain rfl := Except.ok.inj ran
      exact ⟨by rw [Walk.expand], ⟨[], by simp⟩, .inl rfl⟩
    | cons name names ihNames =>
      intro visited after ran
      rw [List.foldlM_cons] at ran
      obtain ⟨middle, one, rest⟩ := Outcome.bind_ok.mp ran
      obtain ⟨others, behind⟩ := ihNames rest
      suffices single : Walk.expand (importsOf library limit) maxCommonsModules fuel active [name]
          visited.done = .ok middle.done ∧ Visits library limit maxBytes visited middle by
        exact ⟨by rw [Walk.expand_cons, single.1, Except.bind, others], single.2.trans behind⟩
      rcases visit_cases one with ⟨known, same⟩ | ⟨-, -, stop⟩ | ⟨-, -, -, stop⟩ |
        ⟨fresh, outside, room, less, rfl, ⟨_, -, stop⟩ | ⟨inlined, floor, entered, turn⟩⟩
      · obtain rfl := Except.ok.inj same
        refine ⟨?_, ⟨[], by simp⟩, .inl rfl⟩
        rw [Walk.expand.eq_def]
        simp only [if_pos known]
        rw [Walk.expand]
      · cases stop
      · cases stop
      · cases stop
      · rcases turn with ⟨_, -, stop⟩ | ⟨inner, below, same⟩
        · cases stop
        obtain rfl := Except.ok.inj same
        obtain ⟨deeper, kept⟩ := ih less (Nat.lt_succ_self less) below
        rw [← (enter_ok entered).1.imports] at deeper
        exact ⟨by rw [Walk.expand_vertex fresh outside room, deeper]; rfl, kept.entered entered⟩

/-- What `enter` refuses is no cycle. -/
theorem enter_error {floor : Nat} {name : List Char} {refusal : InlineRefusal}
    (refused : enter library limit maxBytes floor name = .error refusal) :
    (∃ code, refusal = .unresolved code) ∨ refusal = .exitCommand name ∨
      refusal = .unopenedScope name ∨ ∃ bytes, refusal = .tooLarge bytes maxBytes := by
  unfold enter at refused
  cases resolved : library.resolve name with
  | error other =>
    rw [resolved] at refused
    obtain rfl := Except.error.inj refused
    exact .inl (library.unresolved _ _ resolved)
  | ok found =>
    rw [resolved] at refused
    replace refused : (if exitText <:+: found.source then _ else _) = _ := refused
    split at refused
    · exact .inr (.inl (Except.error.inj refused).symm)
    · dsimp only at refused
      split at refused
      · exact .inr (.inr (.inl (Except.error.inj refused).symm))
      · split at refused
        · exact .inr (.inr (.inr ⟨_, (Except.error.inj refused).symm⟩))
        · cases refused

/-- Visits that come to a cycle stop where the expansion does. -/
theorem visits_cycle {fuel : Nat} :
    ∀ {active names : List (List Char)} {visited : Visited} {cycle : List (List Char)},
      names.foldlM (visit library limit maxBytes fuel active) visited = .error (.cycle cycle) →
        Walk.expand (importsOf library limit) maxCommonsModules fuel active names visited.done =
          .error .cycle := by
  induction fuel using Nat.strongRecOn with
  | ind fuel ih =>
    intro active names
    induction names with
    | nil => exact fun stop => nomatch stop
    | cons name names ihNames =>
      intro visited cycle ran
      rw [List.foldlM_cons] at ran
      cases one : visit library limit maxBytes fuel active visited name with
      | ok middle =>
        rw [one] at ran
        have single : [name].foldlM (visit library limit maxBytes fuel active) visited = .ok middle := by
          rw [List.foldlM_cons, one]
          rfl
        rw [Walk.expand_cons, (visits_expand single).1]
        exact ihNames ran
      | error refusal =>
        rw [one] at ran
        obtain rfl := Except.error.inj ran
        suffices single : Walk.expand (importsOf library limit) maxCommonsModules fuel active [name]
            visited.done = .error .cycle by
          rw [Walk.expand_cons, single]
          rfl
        rcases visit_cases one with ⟨-, same⟩ | ⟨fresh, inside, -⟩ | ⟨-, -, -, stop⟩ |
          ⟨fresh, outside, room, less, rfl, ⟨refusal, refused, stop⟩ | ⟨inlined, floor, entered, turn⟩⟩
        · cases same
        · rw [Walk.expand.eq_def]
          simp only [if_neg fresh, if_pos inside]
        · cases stop
        · obtain rfl := Except.error.inj stop
          rcases enter_error refused with ⟨_, other⟩ | other | other | ⟨_, other⟩ <;> cases other
        · rcases turn with ⟨refusal, below, stop⟩ | ⟨_, -, same⟩
          · obtain rfl := Except.error.inj stop
            have deeper := ih less (Nat.lt_succ_self less) below
            rw [← (enter_ok entered).1.imports] at deeper
            rw [Walk.expand_vertex fresh outside room, deeper]
            rfl
          · cases same

/-! ### When nothing but a cycle is refused -/

omit [Alphanumerics] [LiteralDigest] in
/-- The bytes of some of these modules are no more than those of all. -/
theorem sum_le_of_nodup {list within : List (List Char)} (f : List Char → Nat) (distinct : list.Nodup)
    (inside : ∀ name ∈ list, name ∈ within) : (list.map f).sum ≤ (within.map f).sum := by
  obtain ⟨same, perm, sub⟩ := distinct.subperm inside
  rw [← (perm.map f).sum_eq]
  exact (sub.map f).sum_le_sum fun _ _ => Nat.zero_le _

/-- Everything that is imported can be inlined within the limits, cycles aside. -/
structure Acceptable (library : Library) (limit maxBytes base : Nat) (within : List (List Char)) :
    Prop where
  closed : ∀ name ∈ within, ∀ child ∈ importsOf library limit name, child ∈ within
  few : within.length ≤ maxCommonsModules
  entries : ∀ name ∈ within, ∃ inlined, Entry library limit name inlined
  bytes : base + (within.map (bodySize library limit)).sum ≤ maxBytes

/-- The modules that are done or active are some of these, and their bytes are counted. -/
structure Counted (library : Library) (limit base : Nat) (within active : List (List Char))
    (visited : Visited) : Prop where
  distinct : (visited.done ++ active).Nodup
  inside : ∀ name ∈ visited.done ++ active, name ∈ within
  floor : visited.floor = base + ((visited.done ++ active).map (bodySize library limit)).sum

variable {base : Nat} {within active : List (List Char)} {visited : Visited} {name : List Char}

theorem enter_of_entry {floor : Nat} {inlined : Inlined} (entry : Entry library limit name inlined)
    (room : floor + bodySize library limit name ≤ maxBytes) :
    enter library limit maxBytes floor name =
      .ok (inlined, floor + bodySize library limit name) := by
  obtain ⟨found, parts, closers⟩ := inlined
  have resolved : library.resolve name = .ok found := entry.resolved
  obtain rfl : parts = splitImports limit found.source := entry.parts
  have accepted : scopeClosers limit found.source = some closers := entry.closers
  have plain : ¬ exitText <:+: found.source := entry.plain
  rw [bodySize, resolved] at room ⊢
  rw [enter, resolved]
  simp only [bind, Except.bind, if_neg plain, accepted]
  exact if_neg (Nat.not_lt.mpr room)

theorem Counted.enter (acceptable : Acceptable library limit maxBytes base within)
    (counted : Counted library limit base within active visited) (listed : name ∈ within)
    (fresh : name ∉ visited.done) (outside : name ∉ active) :
    ∃ inlined, enter library limit maxBytes visited.floor name =
        .ok (inlined, visited.floor + bodySize library limit name) ∧
      Counted library limit base within (name :: active)
        { visited with floor := visited.floor + bodySize library limit name } := by
  have perm : (visited.done ++ name :: active).Perm (name :: (visited.done ++ active)) :=
    List.perm_middle
  have distinct : (visited.done ++ name :: active).Nodup :=
    perm.nodup_iff.mpr (List.nodup_cons.mpr ⟨by simp [fresh, outside], counted.distinct⟩)
  have inside : ∀ other ∈ visited.done ++ name :: active, other ∈ within := by
    intro other member
    rcases List.mem_cons.mp (perm.mem_iff.mp member) with rfl | old
    · exact listed
    · exact counted.inside other old
  have floor : visited.floor + bodySize library limit name =
      base + ((visited.done ++ name :: active).map (bodySize library limit)).sum := by
    rw [(perm.map _).sum_eq, List.map_cons, List.sum_cons, counted.floor]
    omega
  obtain ⟨inlined, entry⟩ := acceptable.entries name listed
  refine ⟨inlined, enter_of_entry entry ?_, distinct, inside, floor⟩
  have total := sum_le_of_nodup (bodySize library limit) distinct inside
  have bound := acceptable.bytes
  omega

theorem Counted.room (acceptable : Acceptable library limit maxBytes base within)
    (counted : Counted library limit base within active visited) (listed : name ∈ within)
    (fresh : name ∉ visited.done) (outside : name ∉ active) :
    visited.done.length + active.length < maxCommonsModules := by
  have distinct : (name :: (visited.done ++ active)).Nodup :=
    List.nodup_cons.mpr ⟨by simp [fresh, outside], counted.distinct⟩
  have listed_all : name :: (visited.done ++ active) ⊆ within := by
    intro other member
    rcases List.mem_cons.mp member with rfl | old
    · exact listed
    · exact counted.inside other old
  have size := (distinct.subperm listed_all).length_le
  have few := acceptable.few
  simp only [List.length_cons, List.length_append] at size
  omega

/-- What visits that end have added is counted. -/
theorem Counted.after {names : List (List Char)} {after : Visited} {fuel : Nat}
    (acceptable : Acceptable library limit maxBytes base within)
    (counted : Counted library limit base within active visited)
    (listed : ∀ name ∈ names, name ∈ within)
    (ran : names.foldlM (visit library limit maxBytes fuel active) visited = .ok after) :
    Counted library limit base within active after := by
  obtain ⟨expanded, visits⟩ := visits_expand ran
  obtain ⟨more, -, done, -, floor⟩ := visits.added
  have expands := expand_ok expanded
  obtain ⟨new, same, apart⟩ := expands.added
  obtain rfl : new = more.map fun inlined => inlined.found.name :=
    List.append_cancel_left (same.symm.trans done)
  obtain ⟨old, path, disjoint⟩ := List.nodup_append.mp counted.distinct
  refine ⟨List.nodup_append.mpr ⟨expands.distinct old, path, ?_⟩, ?_, ?_⟩
  · intro x member y inside
    rw [done] at member
    rcases List.mem_append.mp member with before | added
    · exact disjoint x before y inside
    · rintro rfl
      exact (apart x added).1 inside
  · intro x member
    rw [done] at member
    rcases List.mem_append.mp member with done | inside
    · rcases List.mem_append.mp done with before | added
      · exact counted.inside x (List.mem_append_left _ before)
      · obtain ⟨-, root, there, path⟩ := apart x added
        exact closed_reaches (· ∈ within) acceptable.closed (listed root there) path
    · exact counted.inside x (List.mem_append_right _ inside)
  · rw [floor, counted.floor, done]
    simp only [List.map_append, List.sum_append, List.map_map, Function.comp_def]
    omega

/-- Then a refusal is a cycle. -/
theorem visits_acceptable (acceptable : Acceptable library limit maxBytes base within) {fuel : Nat} :
    ∀ {active names : List (List Char)} {visited : Visited} {refusal : InlineRefusal},
      Counted library limit base within active visited → (∀ name ∈ names, name ∈ within) →
        maxCommonsModules ≤ fuel + active.length →
        names.foldlM (visit library limit maxBytes fuel active) visited = .error refusal →
          ∃ cycle, refusal = .cycle cycle := by
  induction fuel using Nat.strongRecOn with
  | ind fuel ih =>
    intro active names
    induction names with
    | nil => exact fun _ _ _ stop => nomatch stop
    | cons name names ihNames =>
      intro visited refusal counted listed enough ran
      have here := listed name List.mem_cons_self
      rw [List.foldlM_cons] at ran
      cases one : visit library limit maxBytes fuel active visited name with
      | ok middle =>
        rw [one] at ran
        have single : [name].foldlM (visit library limit maxBytes fuel active) visited = .ok middle := by
          rw [List.foldlM_cons, one]
          rfl
        refine ihNames (counted.after acceptable (by simpa using here) single) ?_ enough ran
        exact fun other member => listed other (List.mem_cons_of_mem _ member)
      | error other =>
        rw [one] at ran
        obtain rfl := Except.error.inj ran
        rcases visit_cases one with ⟨-, same⟩ | ⟨-, -, stop⟩ | ⟨fresh, outside, full, stop⟩ |
          ⟨fresh, outside, room, less, rfl, ⟨_, refused, -⟩ | ⟨inlined, floor, entered, turn⟩⟩
        · cases same
        · exact ⟨_, Except.error.inj stop⟩
        · have room := counted.room acceptable here fresh outside
          rcases full with full | rfl <;> omega
        · obtain ⟨_, entered, -⟩ := counted.enter acceptable here fresh outside
          rw [refused] at entered
          cases entered
        · rcases turn with ⟨refusal, below, stop⟩ | ⟨_, -, same⟩
          · obtain rfl := Except.error.inj stop
            obtain ⟨_, again, deeper⟩ := counted.enter acceptable here fresh outside
            obtain ⟨rfl, rfl⟩ := Prod.mk.inj (Except.ok.inj (entered.symm.trans again))
            refine ih less (Nat.lt_succ_self less) deeper ?_ ?_ below
            · rw [← (enter_ok entered).1.imports]
              exact acceptable.closed name here
            · rw [List.length_cons]
              omega
          · cases same

/-! ### The flattened file -/

/-- A commons module that the source's imports lead to. -/
def Reachable (library : Library) (limit : Nat) (source name : List Char) : Prop :=
  ∃ root ∈ (splitImports limit source).modules,
    ReflTransGen (Child (importsOf library limit)) root name

/-- The lines of the file are the hoisted imports, the blocks of the modules and the rest of the source;
each import line of the environment is hoisted, and the line map knows which lines are the source's. -/
structure LinesMapped (limit : Nat) (source : List Char) (expansion : Expansion) : Prop where
  lines : ∃ header blocks, linesOf expansion.source =
      header ++ blocks ++ (splitImports limit source).rest ∧
    (∀ line ∈ (splitImports limit source).env, line ∈ header) ∧
    (∀ found ∈ expansion.modules, ∀ line ∈ (splitImports limit found.source).env, line ∈ header) ∧
    ∀ {β : Type} (item : CheckItem β),
      (∀ index, index < (splitImports limit source).rest.length →
        item.line = some ((header ++ blocks).length + index + 1) →
          item.moved expansion.segments =
              { item with line := some ((splitImports limit source).first + index + 1) } ∧
            (linesOf source)[(splitImports limit source).first + index]? =
              (splitImports limit source).rest[index]?) ∧
      (∀ line, item.line = some line → header.length < line → line ≤ (header ++ blocks).length →
        ∃ found ∈ expansion.modules, item.moved expansion.segments =
          { item with line := none, module := some found.name, expandedLine := some line }) ∧
      ∀ line, item.line = some line → line ≤ header.length →
        item.moved expansion.segments = { item with line := none, expandedLine := some line }

/-- What a flattened source holds. -/
structure Flattened (library : Library) (limit maxBytes : Nat) (source : List Char)
    (expansion : Expansion) : Prop where
  resolved : ∀ found ∈ expansion.modules, library.resolve found.name = .ok found
  distinct : (expansion.modules.map fun found => found.name).Nodup
  reachable : ∀ name, name ∈ expansion.modules.map (fun found => found.name) ↔
    Reachable library limit source name
  ordered : ChildrenFirst (importsOf library limit) (expansion.modules.map fun found => found.name)
  count : expansion.modules.length ≤ maxCommonsModules
  bytes : ((expansion.modules.map fun found => found.name).map (bodySize library limit)).sum ≤ maxBytes
  whole : expansion.modules ≠ [] → utf8Size expansion.source ≤ maxBytes
  lines : expansion.modules ≠ [] → LinesMapped limit source expansion
  unchanged : expansion.modules = [] → expansion.source = source ∧ ∀ {β : Type}
    (items : List (CheckItem β)), remap expansion items = items

/-- The ways that inlining ends well. -/
theorem inlineCommons_ok {source : List Char} {expansion : Expansion}
    (inlined : inlineCommons library limit maxBytes source = .ok expansion) :
    (splitImports limit source).modules = [] ∧ expansion = { source := source } ∨
      (splitImports limit source).modules ≠ [] ∧ ∃ visited,
        (splitImports limit source).modules.foldlM (visit library limit maxBytes maxCommonsModules [])
          { floor := utf8Size (bodyText limit source) } = .ok visited ∧
        expansion = assemble (splitImports limit source) visited.ordered ∧
        utf8Size expansion.source ≤ maxBytes := by
  unfold inlineCommons at inlined
  dsimp only at inlined
  split at inlined
  next none => exact .inl ⟨none, (Except.ok.inj inlined).symm⟩
  next some =>
    obtain ⟨visited, ran, last⟩ := Outcome.bind_ok.mp inlined
    split at last
    · cases last
    next room =>
      obtain rfl := Except.ok.inj last
      exact .inr ⟨some, visited, ran, rfl, Nat.not_lt.mp room⟩

theorem linesMapped {source : List Char} {visited : Visited} (filled : visited.ordered ≠ [])
    (entries : ∀ inlined ∈ visited.ordered, Entry library limit inlined.found.name inlined) :
    LinesMapped limit source (assemble (splitImports limit source) visited.ordered) := by
  have modules : (assemble (splitImports limit source) visited.ordered).modules =
      visited.ordered.map fun inlined => inlined.found := rfl
  refine ⟨hoisted (splitImports limit source) visited.ordered, visited.ordered.flatMap moduleBlock,
    assemble_lines filled fun inlined member => ⟨(entries inlined member).parts,
      (entries inlined member).closers⟩, fun line own => mem_hoisted.mpr (.inl own), ?_, ?_⟩
  · intro found member line inside
    rw [modules] at member
    obtain ⟨inlined, listed, rfl⟩ := List.mem_map.mp member
    rw [← (entries inlined listed).parts] at inside
    exact mem_hoisted.mpr (.inr ⟨inlined, listed, inside⟩)
  · intro β item
    refine ⟨fun index inside line => ⟨moved_own item inside line, ?_⟩, ?_, ?_⟩
    · rw [(splitImports_cut limit source).rest, List.getElem?_drop]
    · intro line here above below
      obtain ⟨before, inlined, after, split, -, -, moved⟩ := moved_module item here above below
      refine ⟨inlined.found, ?_, moved⟩
      rw [modules, split]
      simp
    · exact fun line here inside => moved_hoisted item here inside

theorem flattened_of_ok {source : List Char} {expansion : Expansion}
    (inlined : inlineCommons library limit maxBytes source = .ok expansion) :
    Flattened library limit maxBytes source expansion := by
  rcases inlineCommons_ok inlined with ⟨none, rfl⟩ | ⟨some, visited, ran, rfl, room⟩
  · refine ⟨nofun, List.nodup_nil, fun name => ?_, ?_, Nat.zero_le _, Nat.zero_le _,
      fun filled => absurd rfl filled, fun filled => absurd rfl filled, fun _ => ⟨rfl, fun _ => rfl⟩⟩
    · constructor
      · exact fun member => nomatch member
      · rintro ⟨root, listed, -⟩
        rw [none] at listed
        cases listed
    · exact .nil
  · obtain ⟨expanded, visits⟩ := visits_expand ran
    have expands := expand_ok expanded
    obtain ⟨more, ordered, done, entries, floor⟩ := visits.added
    obtain rfl : visited.ordered = more := ordered
    rw [List.nil_append] at done
    have names : (assemble (splitImports limit source) visited.ordered).modules.map
        (fun found => found.name) = visited.done := by
      rw [done]
      exact List.map_map
    have filled : visited.ordered ≠ [] := by
      intro empty
      obtain ⟨root, roots, same⟩ := List.exists_cons_of_ne_nil some
      have member := expands.covers root (by simp [same])
      rw [done, empty] at member
      cases member
    refine ⟨?_, ?_, ?_, ?_, ?_, ?_, fun _ => room, fun _ => linesMapped filled entries, ?_⟩
    · intro found member
      obtain ⟨inlined, listed, rfl⟩ := List.mem_map.mp member
      exact (entries inlined listed).resolved
    · rw [names]
      exact expands.distinct List.nodup_nil
    · intro name
      rw [names]
      constructor
      · intro member
        obtain ⟨added, same, new⟩ := expands.added
        rw [List.nil_append] at same
        rw [same] at member
        exact (new name member).2
      · rintro ⟨root, listed, path⟩
        exact (expands.first .nil).reaches (expands.covers root listed) path
    · rw [names]
      exact expands.first .nil
    · have bound := expands.bounded (Nat.zero_le _)
      rw [← names, List.length_map] at bound
      exact bound
    · rw [names, done, List.map_map]
      rcases visits.bytes with rfl | bound
      · exact absurd rfl filled
      · rw [floor] at bound
        exact (Nat.le_add_left _ _).trans bound
    · intro empty
      exact absurd (List.map_eq_nil_iff.mp empty) filled

/-- A cycle among the modules that the source's imports lead to. -/
def ReachableCycle (library : Library) (limit : Nat) (source : List Char) : Prop :=
  ∃ name, Reachable library limit source name ∧
    TransGen (Child (importsOf library limit)) name name

/-- Visits of the source's imports meet no cycle when they end. -/
theorem visits_acyclic {source : List Char} {visited : Visited} {floor : Nat}
    (ran : (splitImports limit source).modules.foldlM
      (visit library limit maxBytes maxCommonsModules []) { floor := floor } = .ok visited) :
    ¬ ReachableCycle library limit source := by
  rintro ⟨name, ⟨root, listed, path⟩, cycle⟩
  have expands := expand_ok (visits_expand ran).1
  have first := expands.first .nil
  exact first.acyclic (first.reaches (expands.covers root listed) path) cycle

/-- The ways that inlining is refused. -/
theorem inlineCommons_error {source : List Char} {refusal : InlineRefusal}
    (refused : inlineCommons library limit maxBytes source = .error refusal) :
    (splitImports limit source).modules.foldlM (visit library limit maxBytes maxCommonsModules [])
        { floor := utf8Size (bodyText limit source) } = .error refusal ∨
      ∃ visited bytes, (splitImports limit source).modules.foldlM
          (visit library limit maxBytes maxCommonsModules [])
          { floor := utf8Size (bodyText limit source) } = .ok visited ∧
        refusal = .tooLarge bytes maxBytes := by
  unfold inlineCommons at refused
  dsimp only at refused
  split at refused
  · cases refused
  next some =>
    cases ran : (splitImports limit source).modules.foldlM
        (visit library limit maxBytes maxCommonsModules [])
        { floor := utf8Size (bodyText limit source) } with
    | error other =>
      rw [bodyText] at ran
      rw [ran] at refused
      exact .inl (congrArg _ (Except.error.inj refused))
    | ok visited =>
      rw [bodyText] at ran
      rw [ran] at refused
      replace refused : (if _ < _ then _ else _) = _ := refused
      split at refused
      · exact .inr ⟨visited, _, rfl, (Except.error.inj refused).symm⟩
      · cases refused

/-- A flattened source has no duplicates, exactly the reachable modules, each behind its imports, within
the limits, with the imports of the environment before them and the lines of the source mapped back. A
cycle is reported only when one is reachable; with one in reach nothing is flattened, and it is reported
when nothing else is to be refused. -/
theorem inline_commons_flattens (library : Library) (limit maxBytes : Nat) (source : List Char) :
    (∀ expansion, inlineCommons library limit maxBytes source = .ok expansion →
      Flattened library limit maxBytes source expansion) ∧
    (∀ cycle, inlineCommons library limit maxBytes source = .error (.cycle cycle) →
      ReachableCycle library limit source) ∧
    (ReachableCycle library limit source →
      (∃ refusal, inlineCommons library limit maxBytes source = .error refusal) ∧
      ((∃ within, (∀ name, Reachable library limit source name → name ∈ within) ∧
          Acceptable library limit maxBytes (utf8Size (bodyText limit source)) within) →
        ∃ cycle, inlineCommons library limit maxBytes source = .error (.cycle cycle))) := by
  refine ⟨fun expansion inlined => flattened_of_ok inlined, fun cycle refused => ?_, fun cyclic => ?_⟩
  · rcases inlineCommons_error refused with stopped | ⟨_, _, -, other⟩
    · obtain ⟨root, listed, name, path, cycle⟩ := expand_cycle (visits_cycle stopped) nofun
      exact ⟨name, ⟨root, listed, path⟩, cycle⟩
    · cases other
  · have refused : ∃ refusal, inlineCommons library limit maxBytes source = .error refusal ∧
        (splitImports limit source).modules.foldlM
          (visit library limit maxBytes maxCommonsModules [])
          { floor := utf8Size (bodyText limit source) } = .error refusal := by
      cases result : inlineCommons library limit maxBytes source with
      | error refusal =>
        rcases inlineCommons_error result with stopped | ⟨_, _, ran, -⟩
        · exact ⟨refusal, rfl, stopped⟩
        · exact absurd cyclic (visits_acyclic ran)
      | ok expansion =>
        rcases inlineCommons_ok result with ⟨none, -⟩ | ⟨-, _, ran, -⟩
        · obtain ⟨name, ⟨root, listed, -⟩, -⟩ := cyclic
          rw [none] at listed
          cases listed
        · exact absurd cyclic (visits_acyclic ran)
    obtain ⟨refusal, here, stopped⟩ := refused
    refine ⟨⟨refusal, here⟩, ?_⟩
    rintro ⟨within, covers, acceptable⟩
    have start : Counted library limit (utf8Size (bodyText limit source)) within []
        { floor := utf8Size (bodyText limit source) } :=
      ⟨List.nodup_nil, nofun, by simp⟩
    obtain ⟨cycle, rfl⟩ := visits_acceptable acceptable start
      (fun name listed => covers name ⟨name, listed, .refl⟩) le_rfl stopped
    exact ⟨cycle, here⟩

end

end Sources

namespace Scenario

open Sources

section

local instance flatLetters : Alphanumerics := latinLetters
local instance flatDigest : LiteralDigest := oneDigest

def loopName : List Char := "Commons.N11111111".toList

/-- A published module that imports itself. -/
def loopModule : Module where
  name := loopName
  nodeId := "loop".toList
  source := importWord ++ ' ' :: loopName
  rank := .published .complete
  stale := false
  name_line := by decide
  node_line := by decide

/-- Only that module is published. -/
def loopLibrary : Library where
  resolve name := if name = loopName then .ok loopModule else .error (.unresolved "COMMONS_MODULE_NOT_FOUND")
  named name found resolved := by
    split at resolved
    next same => rw [← Except.ok.inj resolved, same]; rfl
    next => cases resolved
  unresolved name refusal resolved := by
    split at resolved
    next => cases resolved
    next => exact ⟨_, (Except.error.inj resolved).symm⟩

/-- A module that is not published is refused before the cycle behind it is met. -/
theorem cycle_behind_missing : ¬ ∀ library maxBytes source,
    ReachableCycle library 8 source →
      ∃ cycle, inlineCommons library 8 maxBytes source = .error (.cycle cycle) := by
  intro claim
  have loop : Walk.Child (importsOf loopLibrary 8) loopName loopName := by
    have member : loopName ∈ importsOf loopLibrary 8 loopName := by decide +kernel
    exact member
  have cyclic : ReachableCycle loopLibrary 8 "import Commons.N00000000 Commons.N11111111".toList :=
    ⟨loopName, ⟨loopName, by decide +kernel, .refl⟩, .single loop⟩
  obtain ⟨cycle, reported⟩ := claim loopLibrary 30000 _ cyclic
  have missing : inlineCommons loopLibrary 8 30000
      "import Commons.N00000000 Commons.N11111111".toList =
        .error (.unresolved "COMMONS_MODULE_NOT_FOUND") := by
    decide +kernel
  rw [missing] at reported
  cases reported

end

end Scenario

end PhysHarness
