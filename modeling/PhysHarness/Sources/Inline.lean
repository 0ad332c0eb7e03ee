import PhysHarness.Lib.Walk
import PhysHarness.Sources.Scopes
import PhysHarness.Commons.Sources
import Mathlib.Data.List.Infix

/-!
# Inlining commons modules

`inline_commons` puts the modules that a source imports before its own lines, each in a section of its
own behind the modules it imports itself. The imports of the environment are hoisted, and `remap` takes
the lines of the flattened file back to the source.
-/
namespace PhysHarness

namespace Sources

/-- `len(text.encode("utf-8"))`. -/
def utf8Size (text : List Char) : Nat := (text.map fun c => c.utf8Size).sum

/-- The rank of an inlined module. -/
inductive ModuleRank where
  | published (rank : SourceRank)
  | stub
  deriving DecidableEq

def ModuleRank.text : ModuleRank → List Char
  | .published .partialRank => "partial".toList
  | .published .complete => "complete".toList
  | .published .verified => "verified".toList
  | .stub => "stub".toList

/-- A resolved module. Its name and its node's id are on one line of the flattened file. -/
structure Module where
  name : List Char
  nodeId : List Char
  source : List Char
  rank : ModuleRank
  stale : Bool
  name_line : '\n' ∉ name
  node_line : '\n' ∉ nodeId
  deriving DecidableEq

/-- Why a source is not flattened. -/
inductive InlineRefusal where
  | unresolved (code : String)
  | cycle (modules : List (List Char))
  | limit
  | exitCommand (module : List Char)
  | unopenedScope (module : List Char)
  | tooLarge (bytes limit : Nat)
  deriving DecidableEq

/-- What resolves a module by its name. -/
structure Library where
  resolve : List Char → Except InlineRefusal Module
  named : ∀ name found, resolve name = .ok found → found.name = name
  unresolved : ∀ name refusal, resolve name = .error refusal → ∃ code, refusal = .unresolved code

/-- A module, what `split_imports` says of it and what closes its scopes. -/
structure Inlined where
  found : Module
  parts : ImportSplit
  closers : List (List Char)
  deriving DecidableEq

/-- What `visit` keeps. -/
structure Visited where
  done : List (List Char) := []
  ordered : List Inlined := []
  floor : Nat
  deriving DecidableEq

/-- Lines of the flattened file: those of a module, or the source's own from `origin` on. -/
structure Segment where
  first : Nat
  last : Nat
  module : Option (List Char)
  origin : Nat
  deriving DecidableEq

structure Expansion where
  source : List Char
  modules : List Module := []
  segments : List Segment := []
  closureComplete : Bool := true
  stubs : List (List Char) := []
  deriving DecidableEq

def exitText : List Char := ['#', 'e', 'x', 'i', 't']

def sectionWord : List Char := ['s', 'e', 'c', 't', 'i', 'o', 'n']

def nodeText : List Char := [':', ' ', 'n', 'o', 'd', 'e', ' ']

def staleText : List Char := [',', ' ', 's', 't', 'a', 'l', 'e']

/-- The comment line of a module. -/
def moduleLabel (found : Module) : List Char :=
  ['-', '-', ' '] ++ found.name ++ nodeText ++ found.nodeId ++ [',', ' '] ++ found.rank.text ++
    if found.stale then staleText else []

/-- The section of a module. -/
def moduleBlock (inlined : Inlined) : List (List Char) :=
  sectionWord :: moduleLabel inlined.found :: (inlined.parts.rest ++ inlined.closers ++ [endWord])

/-- Add the import lines that are not there yet. -/
def hoist (out env : List (List Char)) : List (List Char) :=
  out ++ env.filter fun line => line ∉ out

/-- The blocks behind the hoisted imports, with their segments. -/
def layout : List (List Char) → List Segment → List Inlined → List (List Char) × List Segment
  | out, segments, [] => (out, segments)
  | out, segments, inlined :: more =>
    let block := moduleBlock inlined
    layout (out ++ block)
      (segments ++ [⟨out.length + 1, out.length + block.length, some inlined.found.name, 1⟩]) more

/-- The imports of the source and of the modules, each line once. -/
def hoisted (imports : ImportSplit) (ordered : List Inlined) : List (List Char) :=
  (imports.env :: ordered.map fun inlined => inlined.parts.env).foldl hoist []

/-- The flattened file of a source and its modules. -/
def assemble (imports : ImportSplit) (ordered : List Inlined) : Expansion :=
  let (out, segments) := layout (hoisted imports ordered) [] ordered
  let modules := ordered.map fun inlined => inlined.found
  { source := Lines.join '\n' (out ++ imports.rest)
    modules := modules
    segments := segments ++
      [⟨out.length + 1, out.length + imports.rest.length, none, imports.first + 1⟩]
    closureComplete := modules.all fun found =>
      found.rank = .published .complete ∨ found.rank = .published .verified
    stubs := (modules.filter fun found => found.rank = .stub).map fun found => found.nodeId }

section

variable [Alphanumerics] [LiteralDigest]

/-- The first half of `visit`: resolve a module and check it. -/
def enter (library : Library) (limit maxBytes floor : Nat) (name : List Char) :
    Except InlineRefusal (Inlined × Nat) := do
  let found ← library.resolve name
  if exitText <:+: found.source then .error (.exitCommand name)
  else
    let parts := splitImports limit found.source
    match scopeClosers limit found.source with
    | none => .error (.unopenedScope name)
    | some closers =>
      let floor := floor + utf8Size (Lines.join '\n' parts.rest)
      if maxBytes < floor then .error (.tooLarge floor maxBytes)
      else .ok (⟨found, parts, closers⟩, floor)

/-- `visit`; the active modules are the path to here, the last one first. Each level of it uses one
unit of the limit, so the limit is fuel enough. -/
def visit (library : Library) (limit maxBytes : Nat) :
    Nat → List (List Char) → Visited → List Char → Except InlineRefusal Visited
  | fuel, active, visited, name =>
    if name ∈ visited.done then .ok visited
    else if name ∈ active then .error (.cycle (active.reverse ++ [name]))
    else if maxCommonsModules ≤ visited.done.length + active.length then .error .limit
    else match fuel with
      | 0 => .error .limit
      | fuel + 1 => do
        let (inlined, floor) ← enter library limit maxBytes visited.floor name
        let visited ← inlined.parts.modules.foldlM (visit library limit maxBytes fuel (name :: active))
          { visited with floor := floor }
        .ok { visited with done := visited.done ++ [name], ordered := visited.ordered ++ [inlined] }

/-- `inline_commons`. -/
def inlineCommons (library : Library) (limit maxBytes : Nat) (source : List Char) :
    Except InlineRefusal Expansion := do
  let imports := splitImports limit source
  if imports.modules = [] then .ok { source := source }
  else
    let visited ← imports.modules.foldlM (visit library limit maxBytes maxCommonsModules [])
      { floor := utf8Size (Lines.join '\n' imports.rest) }
    let expansion := assemble imports visited.ordered
    if maxBytes < utf8Size expansion.source then
      .error (.tooLarge (utf8Size expansion.source) maxBytes)
    else .ok expansion

end

/-! ### The line map -/

/-- A message or a hole of a check, on a line of the file or none. -/
structure CheckItem (β : Type) where
  line : Option Nat
  module : Option (List Char) := none
  expandedLine : Option Nat := none
  content : β

/-- `moved` in `remap`. -/
def CheckItem.moved {β : Type} (segments : List Segment) (item : CheckItem β) : CheckItem β :=
  match item.line with
  | none => item
  | some line =>
    match segments.find? fun segment => segment.first ≤ line ∧ line ≤ segment.last with
    | none => { item with line := none, expandedLine := some line }
    | some segment =>
      match segment.module with
      | none => { item with line := some (segment.origin + line - segment.first) }
      | some module => { item with line := none, module := some module, expandedLine := some line }

/-- A check of a flattened file, on the caller's own lines. -/
def remap {β : Type} (expansion : Expansion) (items : List (CheckItem β)) : List (CheckItem β) :=
  if expansion.modules = [] then items else items.map (CheckItem.moved expansion.segments)

end Sources

end PhysHarness
