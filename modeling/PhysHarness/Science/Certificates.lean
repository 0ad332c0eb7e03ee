import PhysHarness.Lib.Sparse
import PhysHarness.Lib.JsonAscii
import PhysHarness.Lib.Metering
import PhysHarness.Lib.Python
import PhysHarness.Execution.Checkpoint

/-!
Bounded exact checks of polynomial identities, with an uncompiled proof candidate.

Expressions are JSON data. An expression is expanded into a dictionary from exponents to coefficients while
its source text is written, and both sides of an identity are compared coefficient by coefficient.
-/
namespace PhysHarness.Certificates

open Metering Python Sparse

structure CertificateError where
  message : String
  code : String := "invalid_certificate"

def limitError (message : String) : CertificateError := ⟨message, "certificate_limit"⟩

structure Budget where
  operations : Nat := 0
  nodes : Nat := 0

abbrev Bounded (α : Type) := StateT Budget (Except CertificateError) α

/-- `if condition: raise error` -/
def raiseIf (condition : Prop) [Decidable condition] (error : CertificateError) : Bounded Unit :=
  if condition then throw error else pure ()

def consume (count : Nat) : Bounded Unit := do
  modify fun budget => { budget with operations := budget.operations + count }
  raiseIf ((← get).operations > 100000) (limitError "Polynomial expansion exceeds 100000 operations.")

/-! ### Coefficients -/

/-- The decimal digits of Unicode, which `\d` matches and `int` reads. -/
class DecimalDigit where
  digit : Char → Option Nat
  ascii : ∀ n < 10, digit (Nat.digitChar n) = some n

section

variable [DecimalDigit]

def isDecimal (c : Char) : Bool := (DecimalDigit.digit c).isSome

def decimal (text : List Char) : Nat :=
  text.foldl (fun n c => 10 * n + (DecimalDigit.digit c).getD 0) 0

/-- `(?:/[1-9]\d*)?`, up to the end. -/
def denominator : List Char → Option Nat
  | [] => some 1
  | '/' :: first :: rest =>
    if ('1' ≤ first && first ≤ '9') && rest.all isDecimal then some (decimal (first :: rest)) else none
  | _ => none

/-- `-?\d+(?:/[1-9]\d*)?`, up to the end. -/
def readRational (text : List Char) : Option ℚ :=
  let body := JsonNumber.unsigned text
  let whole := body.takeWhile isDecimal
  if whole = [] then none else
    (denominator (body.dropWhile isDecimal)).map fun below =>
      (if text.head? = some '-' then -(decimal whole : ℚ) else decimal whole) / below

/-- The number that a coefficient stands for. -/
def coefficient : Json → Option ℚ
  | .int value => some value
  | .str text => readRational text.toList
  | _ => none

def rational (value : Json) : Bounded ℚ :=
  match value with
  | .int number => do
    raiseIf (number.natAbs.size > 4096) (limitError "Integer exceeds 4096 bits.")
    return number
  | .str text => do
    raiseIf (text.length > 1024) { message := "Coefficients must be exact integers or rational strings." }
    let some result := readRational text.toList
      | throw { message := "Use an integer or numerator/positive-denominator string." }
    return result
  | _ => throw { message := "Coefficients must be exact integers or rational strings." }

end

/-- `((numerator : ℚ) / denominator)` -/
def leanRat (value : ℚ) : List Char :=
  '(' :: '(' :: (Json.renderInt value.num ++ [' ', ':', ' ', 'ℚ', ')'] ++ [' ', '/', ' '] ++
    Json.digits value.den ++ [')'])

/-! ### Polynomials -/

def bounded (poly : Sparse.Poly ℚ) : Bounded (Sparse.Poly ℚ) := do
  let poly := prune poly
  raiseIf (poly.length > 4096 || poly.any fun term => term.1.sum > 128)
    (limitError "Polynomial term or degree limit exceeded.")
  raiseIf (poly.any fun term => max term.2.num.natAbs.size term.2.den.size > 8192)
    (limitError "Expanded rational exceeds 8192 bits.")
  return poly

def add (left right : Sparse.Poly ℚ) : Bounded (Sparse.Poly ℚ) := do
  consume right.length
  bounded (merge left right)

def multiply (left right : Sparse.Poly ℚ) : Bounded (Sparse.Poly ℚ) := do
  consume (left.length * right.length)
  bounded (product left right)

/-! ### Expressions -/

/-- `for _ in range(exponent): out = multiply(out, base, budget)` -/
def repeated (base : Sparse.Poly ℚ) : Nat → Sparse.Poly ℚ → Bounded (Sparse.Poly ℚ)
  | 0, out => pure out
  | exponent + 1, out => do repeated base exponent (← multiply out base)

def zero (names : List String) : List Nat := List.replicate names.length 0

def unit (names : List String) (index : Nat) : List Nat :=
  (List.range names.length).map fun i => if i = index then 1 else 0

def join (separator : List Char) (source : List (List Char)) : List Char :=
  '(' :: (separator.intercalate source ++ [')'])

/-- The arguments of a sum or a product, combined in order. -/
def combine (one : Json → Bounded (Sparse.Poly ℚ × List Char))
    (merged : Sparse.Poly ℚ → Sparse.Poly ℚ → Bounded (Sparse.Poly ℚ)) :
    List Json → Sparse.Poly ℚ → Bounded (Sparse.Poly ℚ × List (List Char))
  | [], out => pure (out, [])
  | child :: args, out => do
    let (poly, term) ← one child
    let (out, source) ← combine one merged args (← merged out poly)
    return (out, term :: source)

/-- A depth above 32 leaves no level. -/
def normalize [DecimalDigit] (names : List String) : Nat → Json → Bounded (Sparse.Poly ℚ × List Char)
  | 0, _ => throw (limitError "Expression nesting or node limit exceeded.")
  | levels + 1, node => do
    modify fun budget => { budget with nodes := budget.nodes + 1 }
    raiseIf ((← get).nodes > 512) (limitError "Expression nesting or node limit exceeded.")
    let .obj fields := node | throw { message := "Each expression must be a tagged JSON object." }
    let .str op := lookup fields "op" | throw { message := "Expression operation must be a string tag." }
    if op = "const" && named fields ["op", "value"] then
      let value ← rational (lookup fields "value")
      return (← bounded [(zero names, value)], leanRat value)
    else if op = "var" && named fields ["op", "name"] then
      let .str name := lookup fields "name"
        | throw { message := "Expression contains an undeclared variable." }
      raiseIf (name ∉ names) { message := "Expression contains an undeclared variable." }
      let index := names.idxOf name
      return ([(unit names index, 1)], 'v' :: Json.digits index)
    else if (op = "add" || op = "mul") && named fields ["op", "args"] then
      let .arr args := lookup fields "args"
        | throw { message := "Add/mul requires 1–128 expression arguments." }
      raiseIf (¬ (1 ≤ args.length ∧ args.length ≤ 128))
        { message := "Add/mul requires 1–128 expression arguments." }
      if op = "add" then
        let (out, source) ← combine (normalize names levels) add args []
        return (out, join [' ', '+', ' '] source)
      else
        let (out, source) ← combine (normalize names levels) multiply args [(zero names, 1)]
        return (out, join [' ', '*', ' '] source)
    else if op = "pow" && named fields ["op", "base", "exponent"] then
      let .int (.ofNat exponent) := lookup fields "exponent"
        | throw { message := "Polynomial exponents must be nonnegative integers." }
      raiseIf (exponent > 64) (limitError "Exponent exceeds 64.")
      let (base, term) ← normalize names levels (lookup fields "base")
      let out ← repeated base exponent [(zero names, 1)]
      return (out, '(' :: (term ++ [' ', '^', ' '] ++ Json.digits exponent ++ [')']))
    else throw { message := "Unknown operation or unexpected expression fields." }

/-! ### The check -/

structure LeanObligation where
  source : List Char
  sourceSha256 : Digest
  requiredImports : List String := ["Mathlib"]
  status : String := "uncompiled"
  variableMapping : List (String × List Char)

inductive ComputationStatus where
  | checkedComputation | refuted | blocked
  deriving DecidableEq

structure Diagnostics where
  scope : String
  residual : List (List Nat × List Char)
  operations : Nat

structure ComputationResult where
  status : ComputationStatus
  code : String
  message : String
  remediation : String
  inputSha256 : Option Digest
  proofStatus : String := "not_lean_proof"
  obligation : Option LeanObligation := none
  diagnostics : Option Diagnostics := none

variable [ContentHash]

def inputDigest (value : Json) : Option Digest :=
  let raw := Json.asciiCanonical value
  if raw.length > 1000000 then none else some (ContentHash.sha256 raw)

def obligationSource (statement tactic : List Char) (binders : List (List Char)) : List Char :=
  "import Mathlib\n\n-- Uncompiled candidate; requires independent verification.\n".toList ++
    "theorem certificate ".toList ++
    [' '].intercalate (binders.map fun name => '(' :: (name ++ [' ', ':', ' ', 'ℚ', ')'])) ++
    " :\n    ".toList ++ statement ++ " := by\n  ".toList ++ tactic ++ "\n".toList

def obligation (statement tactic : List Char) (mapping : List (String × List Char)) :
    Bounded LeanObligation := do
  let source := obligationSource statement tactic (mapping.map Prod.snd)
  raiseIf (source.length > 500000) (limitError "Generated obligation exceeds source limit.")
  return { source, sourceSha256 := ContentHash.sha256 (.ofList source), variableMapping := mapping }

def failure (error : CertificateError) (digest : Option Digest) : ComputationResult :=
  { status := .blocked
    code := error.code
    message := error.message
    remediation := "Submit a smaller, well-formed certificate with exact rational values."
    inputSha256 := digest }

/-- `[A-Za-z_][A-Za-z0-9_]{0,31}` -/
def isVariable (text : List Char) : Bool :=
  match text with
  | [] => false
  | first :: rest =>
    (first.isAlpha || first = '_') && rest.all (fun c => c.isAlphanum || c = '_') && rest.length ≤ 31

def declared (variableNames : Json) : Option (List String) := do
  let .arr items := variableNames | none
  let names ← items.mapM asText
  guard (1 ≤ names.length ∧ names.length ≤ 16 ∧ names.all (fun name => isVariable name.toList) ∧
    names.Nodup)
  return names

/-- `str` of a fraction. -/
def fractionText (value : ℚ) : List Char :=
  if value.den = 1 then Json.renderInt value.num
  else Json.renderInt value.num ++ '/' :: Json.digits value.den

/-- `f"v{i}"` for the variable at each place. -/
def variableMapping (names : List String) : List (String × List Char) :=
  names.zipIdx.map fun (name, i) => (name, 'v' :: Json.digits i)

def residualRows (residual : Sparse.Poly ℚ) : List (List Nat × List Char) :=
  (residual.map fun term => (term.1, fractionText term.2)).insertionSort fun x y => x.1 ≤ y.1

/-- `{p: -v for p, v in rhs.items()}` -/
def negated (poly : Sparse.Poly ℚ) : Sparse.Poly ℚ := poly.map fun term => (term.1, -term.2)

def checkIdentity [DecimalDigit] (digest : Option Digest) (variableNames left right : Json) :
    Bounded ComputationResult := do
  raiseIf (digest = none) (limitError "Certificate is not bounded JSON data.")
  let some names := declared variableNames
    | throw { message := "Declare 1–16 distinct simple variable names." }
  let (lhs, leftSource) ← normalize names 33 left
  let (rhs, rightSource) ← normalize names 33 right
  let residual ← add lhs (negated rhs)
  let proof ← obligation (leftSource ++ [' ', '=', ' '] ++ rightSource) "ring".toList
    (variableMapping names)
  return {
    status := if residual = [] then .checkedComputation else .refuted
    code := if residual = [] then "exact_polynomial_identity" else "polynomial_mismatch"
    message := "Exact coefficient comparison completed over the rationals."
    remediation := "Submit the generated candidate to the independent Lean verifier."
    inputSha256 := digest
    obligation := some proof
    diagnostics := some {
      scope := "the submitted rational polynomial identity"
      residual := residualRows residual
      operations := (← get).operations } }

def checkPolynomialIdentity [DecimalDigit] (variableNames left right : Json) : ComputationResult :=
  let digest := inputDigest (.obj [("kind", .str "polynomial_identity"), ("variables", variableNames),
    ("left", left), ("right", right)])
  match checkIdentity digest variableNames left right {} with
  | .ok (result, _) => result
  | .error error => failure error digest

end PhysHarness.Certificates
