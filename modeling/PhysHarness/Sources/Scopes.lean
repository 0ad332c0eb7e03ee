import PhysHarness.Lib.Scopes
import PhysHarness.Sources.Imports
import Mathlib.Data.List.Induction

/-!
# The scopes a module leaves open

`scope_closers` pairs each `end` of the code with the scope word before it that has none yet, and closes
what is left by the names that stand behind the words on their lines. Lean opens a scope for each part
of a name, and an `end` closes as many as its own name has.

## Main result

`module_scopes_iff`: the section around a module contains its scopes exactly when the unpaired words
name what Lean leaves open.
-/
namespace PhysHarness

namespace Sources

open Scopes (Command)

/-- A match of `_SCOPE`, with the label of an opener. -/
inductive ScopeWord where
  | opens (label : List Char)
  | ends
  deriving DecidableEq

def scopeKeywords : List (List Char) :=
  ["namespace".toList, "section".toList, "mutual".toList, "end".toList]

def endWord : List Char := ['e', 'n', 'd']

/-- The line that closes a scope of this label. -/
def closerLine (label : List Char) : List Char :=
  if label = [] then endWord else endWord ++ ' ' :: label

section

variable [Alphanumerics]

/-- `_SCOPE_NAME`, behind a scope word. -/
def scopeLabel (rest : List Char) : List Char :=
  if rest.head?.any isBlank then
    (rest.dropWhile isBlank).takeWhile fun c => isWord c || c ∈ ['.', '\'', '!', '?']
  else []

/-- `_SCOPE` at one place; `before` is the character before it. -/
def scopeWord (before : Option Char) (code : List Char) : Option ScopeWord :=
  if before.any fun c => isIdRest c || c ∈ ['.', '!', '?'] then none
  else
    (scopeKeywords.find? fun word => word.isPrefixOf code &&
        !((code.drop word.length).head?.any fun c => isIdRest c || c ∈ ['!', '?'])).map fun word =>
      if word = endWord then .ends
      else .opens (if word = "mutual".toList then [] else scopeLabel (code.drop word.length))

/-- `_SCOPE.finditer`: the letters of a word stand behind one of its own, so no match is in another. -/
def scopeWords : Option Char → List Char → List ScopeWord
  | _, [] => []
  | before, c :: rest => (scopeWord before (c :: rest)).toList ++ scopeWords (some c) rest

omit [Alphanumerics] in
/-- The loop of `scope_closers` over the labels, the last one first. -/
def openLabels : List (List Char) → List ScopeWord → Option (List (List Char))
  | labels, [] => some labels
  | labels, .opens label :: words => openLabels (label :: labels) words
  | [], .ends :: _ => none
  | _ :: labels, .ends :: words => openLabels labels words

variable [LiteralDigest]

/-- `scope_closers`; `none` is its refusal. -/
def scopeClosers (limit : Nat) (source : List Char) : Option (List (List Char)) :=
  (openLabels [] (scopeWords none (leanCode limit source))).map (·.map closerLine)

end

/-- What Lean reads: the scope commands of a text, and the parts of a name. -/
class LeanReading where
  commands : List Char → List (Command (List Char))
  parts : List Char → Option (List (List Char))

section

variable [LeanReading]

/-- The name of a scope whose label is this. -/
def scopeName (label : List Char) : Option (List (List Char)) :=
  if label = [] then some [] else LeanReading.parts label

/-- The `end` of a closing line. -/
def closerCommand (line : List Char) : Option (Command (List Char)) :=
  (scopeName (line.drop (endWord.length + 1))).map .ends

variable [Alphanumerics] [LiteralDigest]

/-- The section that a module is inlined in contains its scopes: with the closing lines behind it, no
`end` reaches the section or what is around it, and no scope is left open in it. -/
def SectionContains (limit : Nat) (source : List Char) : Prop :=
  ∃ closers ends, scopeClosers limit source = some closers ∧ closers.mapM closerCommand = some ends ∧
    Scopes.Contained (LeanReading.commands (bodyText limit source) ++ ends)

/-- The words that no `end` is paired with, the last one first. -/
inductive Unpaired : List ScopeWord → List (List Char) → Prop
  | nil : Unpaired [] []
  | opens {words labels} (label : List Char) :
      Unpaired words labels → Unpaired (words ++ [.opens label]) (label :: labels)
  | ends {words labels} {label : List Char} :
      Unpaired words (label :: labels) → Unpaired (words ++ [.ends]) labels

/-- The words without an `end` name the scopes that Lean leaves open. -/
def UnpairedNamed (limit : Nat) (source : List Char) : Prop :=
  ∃ labels names, Unpaired (scopeWords none (leanCode limit source)) labels ∧
    labels.mapM scopeName = some names ∧
    Scopes.run [] (LeanReading.commands (bodyText limit source)) = some (names.flatMap Scopes.frames)

/-! ### Words without an end -/

section

omit [LeanReading] [Alphanumerics] [LiteralDigest]

theorem openLabels_append {labels : List (List Char)} (first second : List ScopeWord) :
    openLabels labels (first ++ second) =
      (openLabels labels first).bind fun labels => openLabels labels second := by
  fun_induction openLabels labels first with
  | case1 => rfl
  | case2 labels label words ih => exact ih
  | case3 => rfl
  | case4 label labels words ih => exact ih

theorem openLabels_iff {words : List ScopeWord} {labels : List (List Char)} :
    openLabels [] words = some labels ↔ Unpaired words labels := by
  constructor
  · intro left
    induction words using List.reverseRecOn generalizing labels with
    | nil =>
      obtain rfl := Option.some.inj left
      exact .nil
    | append_singleton words word ih =>
      rw [openLabels_append] at left
      obtain ⟨before, reached, last⟩ := Option.bind_eq_some_iff.mp left
      cases word with
      | opens label =>
        obtain rfl := Option.some.inj last
        exact .opens label (ih reached)
      | ends =>
        cases before with
        | nil => cases last
        | cons label before =>
          obtain rfl := Option.some.inj last
          exact .ends (ih reached)
  · intro unpaired
    induction unpaired with
    | nil => rfl
    | opens label _ ih =>
      rw [openLabels_append, ih]
      rfl
    | ends _ ih =>
      rw [openLabels_append, ih]
      rfl

end

section

omit [Alphanumerics] [LiteralDigest]

theorem closerCommand_line (label : List Char) :
    closerCommand (closerLine label) = (scopeName label).map .ends := by
  rw [closerCommand, closerLine]
  split
  next none => rw [none]; rfl
  · rfl

/-- The closing lines of labels are read as the ends of their names. -/
theorem mapM_closerLine (labels : List (List Char)) :
    (labels.map closerLine).mapM closerCommand =
      (labels.mapM scopeName).map fun names => names.map Command.ends := by
  induction labels with
  | nil => rfl
  | cons label labels ih =>
    rw [List.map_cons, List.mapM_cons, List.mapM_cons, closerCommand_line, ih]
    cases scopeName label <;> cases labels.mapM scopeName <;> rfl

end

/-- The section around a published module contains its scopes exactly when the words without an `end`
name what Lean leaves open. -/
theorem module_scopes_iff (limit : Nat) (source : List Char) {closers : List (List Char)}
    {opened : List (Option (List Char))} (accepted : scopeClosers limit source = some closers)
    (compiled : Scopes.run [] (LeanReading.commands (bodyText limit source)) = some opened) :
    SectionContains limit source ↔ UnpairedNamed limit source := by
  obtain ⟨labels, left, rfl⟩ := Option.map_eq_some_iff.mp accepted
  constructor
  · rintro ⟨_, ends, same, read, contained⟩
    obtain rfl := Option.some.inj (accepted.symm.trans same)
    rw [mapM_closerLine] at read
    obtain ⟨names, named, rfl⟩ := Option.map_eq_some_iff.mp read
    refine ⟨labels, names, openLabels_iff.mp left, named, ?_⟩
    rw [compiled, (Scopes.contained_iff compiled names).mp contained]
  · rintro ⟨others, names, unpaired, named, open'⟩
    obtain rfl := Option.some.inj (left.symm.trans (openLabels_iff.mpr unpaired))
    refine ⟨_, names.map .ends, accepted, by rw [mapM_closerLine, named]; rfl, ?_⟩
    exact (Scopes.contained_iff open' names).mpr rfl

/-! ### Modules that close their scopes in turn -/

/-- Each `end` closes what the word paired with it opened, by the name on that word's line. Lean reads a
mutual block as one command. -/
inductive InTurn : List ScopeWord → List (Command (List Char)) → List (List Char) → Prop
  | nil : InTurn [] [] []
  | opens {words commands labels name} (label : List Char) :
      InTurn words commands labels → scopeName label = some name →
      InTurn (words ++ [.opens label]) (commands ++ [.opens name]) (label :: labels)
  | ends {words commands labels name} {label : List Char} :
      InTurn words commands (label :: labels) → scopeName label = some name →
      InTurn (words ++ [.ends]) (commands ++ [.ends name]) labels
  | block {words commands labels} :
      InTurn words commands labels → InTurn (words ++ [.opens [], .ends]) commands labels

section

omit [Alphanumerics] [LiteralDigest]

variable {words : List ScopeWord} {commands : List (Command (List Char))} {labels : List (List Char)}

theorem InTurn.unpaired (inTurn : InTurn words commands labels) : Unpaired words labels := by
  induction inTurn with
  | nil => exact .nil
  | opens label _ _ ih => exact .opens label ih
  | ends _ _ ih => exact .ends ih
  | @block words _ _ _ ih =>
    rw [show words ++ [.opens [], .ends] = words ++ [.opens []] ++ [.ends] by simp]
    exact .ends (.opens [] ih)

theorem InTurn.run (inTurn : InTurn words commands labels) :
    ∃ names, labels.mapM scopeName = some names ∧
      Scopes.run [] commands = some (names.flatMap Scopes.frames) := by
  induction inTurn with
  | nil => exact ⟨[], rfl, rfl⟩
  | opens label _ named ih =>
    obtain ⟨names, inner, ran⟩ := ih
    refine ⟨_ :: names, by rw [List.mapM_cons, named, inner]; rfl, ?_⟩
    rw [Scopes.run_append, ran]
    rfl
  | @ends words commands labels name label _ named ih =>
    obtain ⟨names, outer, ran⟩ := ih
    rw [List.mapM_cons, named] at outer
    obtain ⟨_, first, more⟩ := Option.bind_eq_some_iff.mp outer
    obtain ⟨inner, rest, same⟩ := Option.bind_eq_some_iff.mp more
    obtain rfl := Option.some.inj first
    obtain rfl := Option.some.inj same
    refine ⟨inner, rest, ?_⟩
    rw [Scopes.run_append, ran, Option.bind_some]
    exact (Scopes.run_ends_iff [name]).mpr (by simp)
  | block _ ih => exact ih

end

/-- The section around such a module contains its scopes. -/
theorem sectionContains_of_inTurn {limit : Nat} {source : List Char} {labels : List (List Char)}
    (inTurn : InTurn (scopeWords none (leanCode limit source))
      (LeanReading.commands (bodyText limit source)) labels) : SectionContains limit source := by
  obtain ⟨names, named, ran⟩ := inTurn.run
  have left := openLabels_iff.mpr inTurn.unpaired
  refine ⟨labels.map closerLine, names.map .ends, by rw [scopeClosers, left]; rfl,
    by rw [mapM_closerLine, named]; rfl, ?_⟩
  exact (Scopes.contained_iff ran names).mpr rfl

end

end Sources

namespace Scenario

open Sources Scopes

/-- The scope command of a line that holds nothing else. -/
def lineCommand (line : List Char) : Option (Command (List Char)) :=
  match Lines.wordsBy Sources.isSpace line with
  | [word] =>
    if word = "section".toList then some (.opens [])
    else if word = endWord then some (.ends [])
    else none
  | [word, name] =>
    if word = "namespace".toList ∨ word = "section".toList then some (.opens (name.splitOn '.'))
    else if word = endWord then some (.ends (name.splitOn '.'))
    else none
  | _ => none

/-- What Lean reads in a text with each scope command on a line of its own. -/
@[reducible] def lineReading : LeanReading where
  commands text := (linesOf text).filterMap lineCommand
  parts name := some (name.splitOn '.')

section

local instance scopeLetters : Alphanumerics := latinLetters
local instance scopeDigest : LiteralDigest := oneDigest
local instance scopeReading : LeanReading := lineReading

def openModule : List Char :=
  "import Mathlib\nnamespace A.B\nsection\ndef x := 1 -- end\nend\nsection C\n".toList

/-- The module of the test leaves a section in a dotted namespace open. -/
theorem open_module_contained : SectionContains 8 openModule := by
  have accepted : scopeClosers 8 openModule = some ["end C".toList, "end A.B".toList] := by
    rfl
  have compiled : run [] (LeanReading.commands (bodyText 8 openModule)) =
      some [some ['C'], some ['B'], some ['A']] := by
    decide +kernel
  exact (module_scopes_iff 8 openModule accepted compiled).mpr
    ⟨["C".toList, "A.B".toList], [[['C']], [['A'], ['B']]], openLabels_iff.mp (by decide +kernel),
      by rfl, by decide +kernel⟩

/-- `end B` and `end A` close one dotted namespace, and `X` has no closing line. -/
def dottedModule : List Char := "namespace X\nnamespace A.B\nend B\nend A\n".toList

theorem dotted_scope_leaks : scopeClosers 8 dottedModule = some [] ∧
    run [] (LeanReading.commands (bodyText 8 dottedModule)) = some [some ['X']] ∧
      ¬ SectionContains 8 dottedModule := by
  have accepted : scopeClosers 8 dottedModule = some [] := by decide
  have compiled : run [] (LeanReading.commands (bodyText 8 dottedModule)) = some [some ['X']] := by
    decide
  refine ⟨accepted, compiled, ?_⟩
  rintro ⟨closers, ends, same, read, contained⟩
  obtain rfl := Option.some.inj (accepted.symm.trans same)
  obtain rfl := Option.some.inj read
  exact absurd ((contained_iff compiled []).mp contained) (by decide)

end

end Scenario

end PhysHarness
