import PhysHarness.Sources.Imports
import Mathlib.Data.List.Infix

/-!
# The header of a Lean source

`split_header` takes the import, open and set_option lines that a source begins with, so that a session
can keep their environment. Comments are followed line by line, with a flag.
-/
namespace PhysHarness

namespace Repl

open Sources (strip linesOf lineWords)
open scoped Sources

/-- The variables of the loop of `split_header`; `stop` is its `end`. -/
structure HeaderScan where
  stop : Nat := 0
  inComment : Bool := false
  continues : Bool := false
  deriving DecidableEq

def closesComment (text : List Char) : Bool := decide (['-', '/'] <:+: text)

/-- Does the line import modules? -/
def importsModules : List (List Char) → Bool
  | [] => false
  | word :: words =>
    word = "import".toList ||
      (word ∈ ["public".toList, "meta".toList] && "import".toList ∈ words.take 2)

/-- Does the line open namespaces or set an option for what follows? -/
def opensOrSets : List (List Char) → Bool
  | [] => false
  | word :: words => word ∈ ["open".toList, "set_option".toList] && "in".toList ∉ word :: words

/-- One line of the loop; it ends with the first line that is not of the header. -/
def HeaderScan.line (scan : HeaderScan) (index : Nat) (line : List Char) : Option HeaderScan :=
  let stripped := strip line
  let tokens := lineWords stripped
  if scan.inComment then some { scan with inComment := !closesComment stripped }
  else if stripped = [] ∨ ['-', '-'] <+: stripped then
    some { scan with continues := scan.continues && !stripped.isEmpty }
  else if ['/', '-'] <+: stripped ∧ ¬ ['/', '-', '-'] <+: stripped then
    some { scan with inComment := !closesComment (stripped.drop 2) }
  else if scan.continues = true ∧ line.head?.any Sources.isSpace = true then some { scan with stop := index + 1 }
  else if importsModules tokens then some { scan with stop := index + 1, continues := false }
  else if opensOrSets tokens then some { scan with stop := index + 1, continues := true }
  else none

def HeaderScan.lines (scan : HeaderScan) (index : Nat) : List (List Char) → HeaderScan
  | [] => scan
  | line :: lines =>
    match scan.line index line with
    | none => scan
    | some next => next.lines (index + 1) lines

/-- `split_header` -/
def splitHeader (source : List Char) : List Char × List Char :=
  let lines := linesOf source
  let stop := (HeaderScan.lines {} 0 lines).stop
  (Lines.join '\n' (lines.take stop), Lines.join '\n' (lines.drop stop))

end Repl

end PhysHarness
