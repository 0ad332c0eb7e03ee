import PhysHarness.Execution.GuestTree

/-!
The write of the guest helper and what the host makes of its end.

The helper creates missing parents, writes a temporary file beside the target and renames it. When a step
fails it undoes what it has done, and refuses only when everything was undone.
-/
namespace PhysHarness

open Effect

/-! ### System calls -/

/-- The calls that fail, by their number; what reached a file when a write to it was cut short; and the
random name. -/
structure Weather where
  fails : Nat → Bool
  torn : Nat → Bytes
  urandom : String

inductive GuestError where
  | fileExists
  | fileNotFound
  /-- any other `OSError` -/
  | os
  | assertion
  | refused
  deriving DecidableEq

/-- The files and the local variables of `put`: the directory that `fd` is open on, whether it was closed,
the directories that were made, and the temporary file. -/
structure Guest where
  tree : WorkTree
  calls : Nat := 0
  fd : GuestPath := []
  closed : Bool := false
  made : List GuestPath := []
  temp : Option GuestPath := none

abbrev GuestProgram := EStateM GuestError Guest

/-- One call: an effect on the files that may be refused, unless the call fails before. -/
def syscall {α : Type} (weather : Weather) (effect : WorkTree → Except GuestError (α × WorkTree)) :
    GuestProgram α := fun guest =>
  let called := { guest with calls := guest.calls + 1 }
  if weather.fails guest.calls then .error .os called
  else
    match effect guest.tree with
    | .error error => .error error called
    | .ok (value, tree) => .ok value { called with tree }

/-- A call that changes no file: `os.dup`, `os.close`, `os.fsync` and others. -/
def quietCall (weather : Weather) : GuestProgram Unit := syscall weather fun tree => .ok ((), tree)

def mkdir (weather : Weather) (path : GuestPath) : GuestProgram Unit := syscall weather fun tree =>
  if tree.find path.dropLast ≠ some .directory then .error .fileNotFound
  else if tree.find path ≠ none then .error .fileExists
  else .ok ((), tree.add path .directory)

/-- `os.open(part, os.O_RDONLY|os.O_DIRECTORY|os.O_NOFOLLOW, dir_fd=fd)` -/
def openDirectory (weather : Weather) (path : GuestPath) : GuestProgram Unit := syscall weather fun tree =>
  match tree.find path with
  | none => .error .fileNotFound
  | some .directory => .ok ((), tree)
  | some _ => .error .os

/-- `os.stat(name, dir_fd=fd, follow_symlinks=False)` -/
def stat (weather : Weather) (path : GuestPath) : GuestProgram (Node × Nat) := syscall weather fun tree =>
  match tree.find path with
  | none => .error .fileNotFound
  | some (.regular inode) => .ok ((.regular inode, tree.links inode), tree)
  | some node => .ok ((node, 1), tree)

/-- `os.open` with `O_CREAT|O_EXCL`: the inode of the new file. -/
def createFile (weather : Weather) (path : GuestPath) : GuestProgram Nat := syscall weather fun tree =>
  if tree.find path.dropLast ≠ some .directory then .error .fileNotFound
  else if tree.find path ≠ none then .error .fileExists
  else .ok (tree.freshInode, tree.hold path [])

def unlink (weather : Weather) (path : GuestPath) : GuestProgram Unit := syscall weather fun tree =>
  match tree.find path with
  | none => .error .fileNotFound
  | some .directory => .error .os
  | some _ => .ok ((), tree.remove path)

def rmdir (weather : Weather) (path : GuestPath) : GuestProgram Unit := syscall weather fun tree =>
  if tree.find path = some .directory ∧ tree.isEmpty path ∧ path ≠ [] then .ok ((), tree.remove path)
  else .error .os

def replaceFile (weather : Weather) (source target : GuestPath) : GuestProgram Unit :=
  syscall weather fun tree =>
    match tree.find source with
    | none => .error .fileNotFound
    | some node =>
      if node = .directory ∨ tree.find target = some .directory ∨
          tree.find target.dropLast ≠ some .directory then .error .os
      else .ok ((), tree.replace source target node)

/-- A call that leaves any content in the file, whether it fails or not. -/
def tearFile (weather : Weather) (inode : Nat) : GuestProgram Unit := fun guest =>
  let after := { guest with calls := guest.calls + 1, tree := guest.tree.write inode (weather.torn guest.calls) }
  if weather.fails guest.calls then .error .os after else .ok () after

/-- The flush of a buffer. -/
def flushFile (weather : Weather) (inode : Nat) (data : Bytes) : GuestProgram Unit := fun guest =>
  let after := { guest with calls := guest.calls + 1 }
  if weather.fails guest.calls then
    .error .os { after with tree := guest.tree.write inode (weather.torn guest.calls) }
  else .ok () { after with tree := guest.tree.write inode data }

/-! ### The helper -/

/-- `portable` -/
def portable (path : String) : Bool :=
  let size := (Bytes.utf8 path).length
  0 < size && size ≤ 1024 && (pathSegments path).all WorkspaceArchive.canonicalSegment

/-- `checked`, without its assertion error -/
def checkedSegments (path : String) : Option GuestPath :=
  if portable path && !(pathSegments path).any WorkspaceArchive.excludedSegment then some (pathSegments path)
  else none

/-- `os.close(fd)`: a descriptor that was closed is not there any more, and one that fails to close is
closed. -/
def closeDirectory (weather : Weather) : GuestProgram Unit := fun guest =>
  if guest.closed then .error .os { guest with calls := guest.calls + 1 }
  else quietCall weather { guest with closed := true }

/-- One step into the parent of the target. -/
def enter (weather : Weather) (part : String) : GuestProgram Unit := do
  let guest ← get
  let path := guest.fd ++ [part]
  quietCall weather  -- owner=os.dup(fd)
  handle (do
      mkdir weather path
      modify fun guest => { guest with made := guest.made ++ [path] })
    fun error => if error = .fileExists then quietCall weather else throw error
  openDirectory weather path
  closeDirectory weather
  modify fun guest => { guest with fd := path, closed := false }

/-- `with os.fdopen(h,'wb') as f` -/
def fill (weather : Weather) (inode : Nat) (data : Bytes) : GuestProgram Unit := do
  quietCall weather
  handle (do
      tearFile weather inode
      flushFile weather inode data
      quietCall weather)
    fun error => do
      tearFile weather inode
      throw error
  quietCall weather

/-- The target is a regular file with one name, or is not there. -/
def inspect (weather : Weather) (target : GuestPath) : GuestProgram Unit :=
  handle (do
      let (node, links) ← stat weather target
      match node with
      | .regular _ => if links = 1 then pure () else throw .assertion
      | _ => throw .assertion)
    fun error => if error = .fileNotFound then pure () else throw error

/-- The steps of `put` that are undone when one of them fails. -/
def attemptPut (weather : Weather) (parents : List String) (name : String) (data : Bytes) :
    GuestProgram Unit := do
  parents.forM (enter weather)
  let guest ← get
  let target := guest.fd ++ [name]
  inspect weather target
  quietCall weather  -- os.urandom(16)
  let candidate := guest.fd ++ [".physharness-" ++ weather.urandom]
  let inode ← createFile weather candidate
  modify fun guest => { guest with temp := some candidate }
  fill weather inode data
  replaceFile weather candidate target

/-- The temporary file is removed if it is there. -/
def dropTemp (weather : Weather) : Option GuestPath → GuestProgram Unit
  | some temp => handle (unlink weather temp) fun error =>
      if error = .fileNotFound then pure () else throw error
  | none => pure ()

def undo (weather : Weather) : GuestProgram Unit := do
  let guest ← get
  dropTemp weather guest.temp
  guest.made.reverse.forM (rmdir weather)
  throw .refused

/-- The closing of `fd` and of the owners. -/
def closeAll (weather : Weather) : GuestProgram Unit := do
  closeDirectory weather
  let guest ← get
  guest.made.forM fun _ => quietCall weather

def put (weather : Weather) (path : String) (data : Bytes) : GuestProgram Unit := do
  match checkedSegments path with
  | none => throw .refused
  | some parts =>
    quietCall weather  -- the root
    lastly (handle (attemptPut weather parts.dropLast (parts.getLast?.getD "") data) fun _ => undo weather)
      (closeAll weather)

/-! ### The end of the process -/

/-- What the host gets from the process. -/
structure ProcessResult where
  exitCode : Nat
  stdout : Bytes
  stderr : Bytes

def refusedMark : Bytes := Bytes.utf8 "physharness-refused:"

/-- The write action: the end of the process, with its files. An error of another kind prints its
traceback. -/
def guestWrite (weather : Weather) (traceback : Bytes) (path : String) (data : Bytes) (tree : WorkTree) :
    ProcessResult × WorkTree :=
  let action : GuestProgram Unit := do
    quietCall weather  -- reading the input
    put weather path data
    quietCall weather  -- printing the answer
  match action { tree } with
  | .ok _ after => (⟨0, Bytes.utf8 "ok\n", []⟩, after.tree)
  | .error .refused after =>
    -- the hook writes the mark, and leaves with a traceback when it cannot
    if weather.fails after.calls then (⟨1, [], traceback⟩, after.tree)
    else (⟨3, [], Bytes.utf8 "physharness-refused: Refused\n"⟩, after.tree)
  | .error _ after => (⟨1, [], traceback⟩, after.tree)

def guestRefused : Nat := 3

def readOnlyGuestActions : List String := ["read", "slice", "chunk", "capture", "list", "list3"]

/-- `_call`, after the process has ended -/
def callResult [Decoders] (result : ProcessResult) (maxOutput : Nat) (guestAction : Option String) :
    Except ExecutionError Bytes := do
  Outcome.require (¬ (guestAction ≠ none ∧ result.exitCode = guestRefused ∧
      refusedMark.isPrefixOf result.stderr))
    { code := "WORKSPACE_TRANSFER_REJECTED"
      message := "Guest refused a missing, linked, non-regular or unsafe workspace path; /work is unchanged" }
  let text := (Decoders.decode result.stderr).toList.take 1000
  let diagnostic := String.ofList ((text.dropWhile isSpace).reverse.dropWhile isSpace).reverse
  Outcome.require (result.exitCode = 0)
    { code := "PROVIDER_FAILED"
      message := "Dedicated Docker operation failed" ++ (if diagnostic = "" then "" else ": " ++ diagnostic) }
  if maxOutput < result.stdout.length then
    if guestAction.any (· ∈ readOnlyGuestActions) then
      .error { code := "WORKSPACE_TRANSFER_REJECTED"
               message := "Guest response exceeded its bound; /work is unchanged" }
    else .error { code := "OUTPUT_LIMIT", message := "Docker command output exceeded bound" }
  else .ok result.stdout

end PhysHarness
