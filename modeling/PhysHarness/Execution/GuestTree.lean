import PhysHarness.Execution.WorkspaceArchive
import PhysHarness.Lib.Effect
import PhysHarness.Lib.Table

/-!
The files of a guest's workspace and the system calls that a helper makes on them.

A call may fail for any reason of its own; then it has changed nothing, except that a failed write leaves
any content in the file that it wrote to.
-/
namespace PhysHarness

/-- What a path names. The names of one file share its inode. -/
inductive Node where
  | regular (inode : Nat)
  | directory
  | link (target : String)
  | special
  deriving DecidableEq

/-- The segments of a path under the root. -/
abbrev GuestPath := List String

structure WorkTree where
  entries : Table GuestPath Node
  contents : Table Nat Bytes

namespace WorkTree

/-- The root is a directory. -/
def find (tree : WorkTree) (path : GuestPath) : Option Node :=
  if path = [] then some .directory else tree.entries.find path

/-- `st_nlink` -/
def links (tree : WorkTree) (inode : Nat) : Nat :=
  tree.entries.rows.countP fun row => row.2 = .regular inode

def isEmpty (tree : WorkTree) (path : GuestPath) : Bool :=
  tree.entries.rows.all fun row => row.1.dropLast ≠ path

/-- The inode numbers in use. -/
def inodes (tree : WorkTree) : List Nat :=
  tree.contents.rows.map Prod.fst ++ tree.entries.rows.filterMap fun row =>
    match row.2 with
    | .regular inode => some inode
    | _ => none

def freshInode (tree : WorkTree) : Nat := tree.inodes.foldl max 0 + 1

def add (tree : WorkTree) (path : GuestPath) (node : Node) : WorkTree :=
  { tree with entries := tree.entries.put path node }

/-- A new file. -/
def hold (tree : WorkTree) (path : GuestPath) (data : Bytes) : WorkTree :=
  { entries := tree.entries.put path (.regular tree.freshInode)
    contents := tree.contents.put tree.freshInode data }

def write (tree : WorkTree) (inode : Nat) (data : Bytes) : WorkTree :=
  { tree with contents := tree.contents.put inode data }

/-- A content without a name is gone. -/
def release (tree : WorkTree) (inode : Nat) : WorkTree :=
  if tree.links inode = 0 then { tree with contents := tree.contents.erase inode } else tree

def remove (tree : WorkTree) (path : GuestPath) : WorkTree :=
  let rest : WorkTree := { tree with entries := tree.entries.erase path }
  match tree.find path with
  | some (.regular inode) => rest.release inode
  | _ => rest

/-- `os.replace`: the node of `source` takes the place of `target`; two names of one file both stay. -/
def replace (tree : WorkTree) (source target : GuestPath) (node : Node) : WorkTree :=
  if tree.find target = some node then tree
  else
    let rest := tree.remove target
    { rest with entries := (rest.entries.erase source).put target node }

variable {tree : WorkTree} {path other : GuestPath} {node : Node}

theorem find_root : tree.find [] = some .directory := rfl

theorem find_entry (inside : path ≠ []) : tree.find path = tree.entries.find path := if_neg inside

theorem inside_of_none (absent : tree.find path = none) : path ≠ [] := by
  rintro rfl
  cases absent

theorem find_add_self (inside : path ≠ []) (node : Node) : (tree.add path node).find path = some node := by
  rw [find_entry inside]
  exact Table.find_put_self _ _ _

theorem find_add_ne (distinct : other ≠ path) (node : Node) :
    (tree.add path node).find other = tree.find other := by
  unfold find add
  rw [Table.find_put_ne _ _ distinct]

/-! ### Inodes -/

theorem mem_inodes {inode : Nat} (used : (∃ data, tree.contents.find inode = some data) ∨
    ∃ path, tree.entries.find path = some (.regular inode)) : inode ∈ tree.inodes := by
  rcases used with ⟨data, stored⟩ | ⟨path, named⟩
  · exact List.mem_append_left _ (List.mem_map.mpr ⟨(inode, data), Table.mem_rows.mpr stored, rfl⟩)
  · refine List.mem_append_right _ (List.mem_filterMap.mpr ⟨(path, .regular inode), ?_, rfl⟩)
    exact Table.mem_rows.mpr named

theorem lt_freshInode {inode : Nat} (used : inode ∈ tree.inodes) : inode < tree.freshInode := by
  have below : ∀ (inodes : List Nat) (start : Nat), start ≤ inodes.foldl max start ∧
      ∀ inode ∈ inodes, inode ≤ inodes.foldl max start := by
    intro inodes
    induction inodes with
    | nil => exact fun start => ⟨le_refl _, fun inode member => absurd member List.not_mem_nil⟩
    | cons first inodes ih =>
      intro start
      obtain ⟨longer, each⟩ := ih (max start first)
      refine ⟨(le_max_left _ _).trans longer, fun inode member => ?_⟩
      rcases List.mem_cons.mp member with rfl | later
      · exact (le_max_right _ _).trans longer
      · exact each inode later
  exact Nat.lt_succ_of_le ((below tree.inodes 0).2 inode used)

theorem freshInode_contents : tree.contents.find tree.freshInode = none := by
  by_contra stored
  obtain ⟨data, found⟩ := Option.ne_none_iff_exists'.mp stored
  exact lt_irrefl _ (lt_freshInode (mem_inodes (.inl ⟨data, found⟩)))

theorem freshInode_entries : tree.entries.find path ≠ some (.regular tree.freshInode) := fun named =>
  lt_irrefl _ (lt_freshInode (mem_inodes (.inr ⟨path, named⟩)))

theorem links_zero {inode : Nat} : tree.links inode = 0 ↔
    ∀ path, tree.entries.find path ≠ some (.regular inode) := by
  unfold links
  rw [List.countP_eq_zero]
  constructor
  · intro none path named
    exact none (path, .regular inode) (Table.mem_rows.mpr named) (decide_eq_true rfl)
  · rintro none ⟨path, node⟩ member same
    obtain rfl : node = .regular inode := of_decide_eq_true same
    exact none path (Table.mem_rows.mp member)

/-- A file with one link has one name. -/
theorem links_one {inode : Nat} (one : tree.links inode = 1) (first : tree.entries.find path = some (.regular inode))
    (second : tree.entries.find other = some (.regular inode)) : path = other := by
  unfold links at one
  rw [List.countP_eq_length_filter] at one
  obtain ⟨row, rows⟩ := List.length_eq_one_iff.mp one
  have own : ∀ path, tree.entries.find path = some (.regular inode) → (path, Node.regular inode) = row := by
    intro path named
    rw [← List.mem_singleton, ← rows, List.mem_filter]
    exact ⟨Table.mem_rows.mpr named, decide_eq_true (Eq.refl (Node.regular inode))⟩
  exact congrArg Prod.fst ((own path first).trans (own other second).symm)

/-! ### What is undone -/

theorem remove_add (absent : tree.find path = none) : (tree.add path .directory).remove path = tree := by
  have inside := inside_of_none absent
  rw [find_entry inside] at absent
  unfold remove
  rw [find_add_self inside]
  show ({ tree with entries := (tree.entries.put path .directory).erase path } : WorkTree) = tree
  rw [Table.erase_put absent]

theorem remove_entries (tree : WorkTree) (path : GuestPath) :
    (tree.remove path).entries = tree.entries.erase path := by
  unfold remove release
  split
  · dsimp only
    split <;> rfl
  · rfl

/-- A content with another name stays. -/
theorem remove_contents {inode : Nat} (distinct : other ≠ path)
    (named : tree.entries.find other = some (.regular inode)) :
    (tree.remove path).contents.find inode = tree.contents.find inode := by
  unfold remove release
  split
  next released _ =>
    dsimp only
    split
    next none =>
      refine Table.find_erase_ne _ ?_
      rintro rfl
      exact links_zero.mp none other ((Table.find_erase_ne _ distinct).trans named)
    · rfl
  · rfl

theorem write_hold (data other : Bytes) :
    (tree.hold path data).write tree.freshInode other = tree.hold path other := by
  unfold hold write
  rw [Table.put_put]

theorem remove_hold (absent : tree.find path = none) (data : Bytes) : (tree.hold path data).remove path = tree := by
  have inside := inside_of_none absent
  rw [find_entry inside] at absent
  have named : (tree.hold path data).find path = some (.regular tree.freshInode) := by
    rw [find_entry inside]
    exact Table.find_put_self _ _ _
  have rest : ({ tree.hold path data with entries := (tree.hold path data).entries.erase path } : WorkTree) =
      { tree with contents := tree.contents.put tree.freshInode data } := by
    unfold hold
    rw [Table.erase_put absent]
  have last : ({ tree with contents := tree.contents.put tree.freshInode data } : WorkTree).links
      tree.freshInode = 0 := links_zero.mpr fun path =>
    show tree.entries.find path ≠ _ from freshInode_entries
  unfold remove
  rw [named]
  dsimp only
  rw [rest, release, if_pos last]
  dsimp only
  rw [Table.erase_put freshInode_contents]

end WorkTree

end PhysHarness
