import Mathlib.Tactic.Common

/-!
Principals, boundary errors, and the process-local authority of a bound worker.
-/
namespace PhysHarness

abbrev Id := String
abbrev ProjectId := String
abbrev Digest := String

/-- Instants in microseconds, the resolution of `utcnow`. -/
abbrev Time := Nat

def Time.second : Time := 1000000

/-- A JSON value that the code only stores, copies and compares as a whole. -/
abbrev Value := String

inductive Role where
  | researcher | reviewer | operator | publisher | verifier | admin | agent
  deriving DecidableEq

/-- An authenticated identity. The fields are the scope rules the constructor enforces. -/
structure Principal where
  id : Id
  projectId : ProjectId
  role : Role
  experimentId : Option Id := none
  branchId : Option Id := none
  agentOrchestrator : Bool := false
  agentScoped : role = .agent → experimentId.isSome := by decide
  orchestratorUnscoped : agentOrchestrator → role = .agent ∧ branchId = none := by decide
  branchScoped : branchId.isSome → experimentId.isSome := by decide
  deriving DecidableEq

/-- A stable, actionable boundary error. -/
structure HarnessError where
  code : String
  message : String
  status : Nat := 409
  remediation : String := "Inspect the operation and correct its inputs before retrying."
  retryable : Bool := false
  deriving DecidableEq

/-- The characters that `str.strip` removes. -/
def isSpace (c : Char) : Bool :=
  c.val ∈ [0x09, 0x0a, 0x0b, 0x0c, 0x0d, 0x1c, 0x1d, 0x1e, 0x1f, 0x20, 0x85, 0xa0, 0x1680,
    0x2028, 0x2029, 0x202f, 0x205f, 0x3000] || (0x2000 ≤ c.val && c.val ≤ 0x200a)

/-- Nothing is left of the text after stripping it. -/
def blank (text : String) : Bool := text.toList.all isSpace

def isHexDigit (c : Char) : Bool := c ∈ "0123456789abcdef".toList

/-- A lower-case SHA-256 in hexadecimal. -/
def isSha256 (text : String) : Bool := text.length = 64 && text.toList.all isHexDigit

/-- Everything that can end a command: a boundary error, or an exception the boundary does not
name, such as a missing payload key or a violated primary key. -/
inductive Failure where
  | harness (error : HarnessError)
  | internal (reason : String)
  deriving DecidableEq

namespace Failure

def refuse (code message : String) (status : Nat := 409) (retryable : Bool := false)
    (remediation : String :=
      "Inspect the operation and correct its inputs before retrying.") : Failure :=
  .harness { code, message, status, remediation, retryable }

def notFound (message : String) : Failure := refuse "NOT_FOUND" message 404

def integrity : Failure := .internal "IntegrityError: primary key already exists"

/-- The stable code of a boundary error. -/
def code? : Failure → Option String
  | harness error => some error.code
  | internal _ => none

end Failure

/-- Controller-issued task authority that is checked in each transaction of a bound worker. The
last three fields are what `worker_effects` requires of a binding. -/
structure WorkerEffects where
  actor : Principal
  taskId : Id
  holder : String
  fence : Nat
  requireActive : Bool := true
  roles : actor.role = .operator ∨ actor.role = .agent := by decide
  issued : 1 ≤ fence := by decide
  inactive : requireActive = false → actor.role = .operator := by decide
  deriving DecidableEq

/-- What a command reads from outside the database: the clock at its body and at its commit, the
bound worker authority, the identifiers it draws, the workforce admission verdict and the texts
that the content store returns. -/
structure Env where
  now : Time
  commitAt : Time
  effects : Option WorkerEffects := none
  newId : Nat → Id
  admission : Except Failure Unit := .ok ()
  content : Digest → Option String := fun _ => some ""

def requireRole (actor : Principal) (roles : List Role) : Except Failure Unit :=
  if actor.role ∉ roles ∧ actor.role ≠ .admin then
    .error (.refuse "FORBIDDEN" "This identity does not have the required capability." 403 false
      "Use an identity assigned the required project role.")
  else .ok ()

def researchRole (actor : Principal) : Except Failure Unit :=
  requireRole actor [.researcher, .operator, .agent]

/-- The guard of the commands that only a controller may issue. -/
def controllerOnly (actor : Principal)
    (message : String := "This identity does not have the controller capability.") :
    Except Failure Unit :=
  if actor.role ∉ [Role.operator, Role.admin] then
    .error (.refuse "FORBIDDEN" message 403)
  else .ok ()

theorem requireRole_ok {actor : Principal} {roles : List Role} {u : Unit} :
    requireRole actor roles = .ok u ↔ actor.role ∈ roles ∨ actor.role = .admin := by
  unfold requireRole
  split <;> simp <;> grind

theorem controllerOnly_ok {actor : Principal} {message : String} {u : Unit} :
    controllerOnly actor message = .ok u ↔ actor.role = .operator ∨ actor.role = .admin := by
  unfold controllerOnly
  by_cases operator : actor.role = .operator <;> by_cases admin : actor.role = .admin <;>
    simp [operator, admin]

theorem controllerOnly_not_agent {actor : Principal} {message : String} {u : Unit}
    (allowed : controllerOnly actor message = .ok u) : actor.role ≠ .agent := by
  rcases controllerOnly_ok.mp allowed with role | role <;> simp [role]

end PhysHarness
