import Mathlib.Data.List.AList
import Mathlib.Algebra.BigOperators.Group.List.Basic
import Mathlib.Tactic.Abel

/-!
Finite tables with one row per key.

A table is Mathlib's association list, so a second row under one key cannot be built. The lemmas
below describe a lookup after a write, and how a total over the rows changes with one write. A
counter that is kept beside a table is proved equal to such a total one write at a time.
-/

/-- Rows of one type under distinct keys. -/
abbrev Table (κ α : Type) := AList (fun _ : κ => α)

namespace Table

variable {κ α M : Type}

/-- The stored rows with their keys. -/
def rows (table : Table κ α) : List (κ × α) :=
  table.entries.map fun entry => (entry.1, entry.2)

@[simp] theorem rows_empty : rows (∅ : Table κ α) = [] := rfl

/-- The sum of a weight over the rows. -/
def total [AddCommMonoid M] (table : Table κ α) (weight : κ → α → M) : M :=
  (table.rows.map fun row => weight row.1 row.2).sum

@[simp] theorem total_empty [AddCommMonoid M] (weight : κ → α → M) :
    total (∅ : Table κ α) weight = 0 := rfl

private theorem total_eq [AddCommMonoid M] (table : Table κ α) (weight : κ → α → M) :
    table.total weight = (table.entries.map fun entry => weight entry.1 entry.2).sum := by
  simp [total, rows, List.map_map, Function.comp_def]

variable [DecidableEq κ]

/-- The row stored under a key. -/
def find (table : Table κ α) (key : κ) : Option α := AList.lookup key table

/-- Store a row under a key, replacing the row that was there. -/
def put (table : Table κ α) (key : κ) (row : α) : Table κ α := AList.insert key row table

@[simp] theorem find_empty (key : κ) : find (∅ : Table κ α) key = none := rfl

@[simp] theorem find_put_self (table : Table κ α) (key : κ) (row : α) :
    (table.put key row).find key = some row := AList.lookup_insert table

theorem find_put_ne (table : Table κ α) {key other : κ} (row : α) (distinct : other ≠ key) :
    (table.put key row).find other = table.find other := AList.lookup_insert_ne distinct

theorem find_put (table : Table κ α) (key other : κ) (row : α) :
    (table.put key row).find other = if other = key then some row else table.find other := by
  split
  next same => rw [same, find_put_self]
  next distinct => exact find_put_ne table row distinct

/-- Drop the row under a key. -/
def erase (table : Table κ α) (key : κ) : Table κ α := AList.erase key table

@[simp] theorem find_erase_self (table : Table κ α) (key : κ) : (table.erase key).find key = none :=
  AList.lookup_erase key table

theorem find_erase_ne (table : Table κ α) {key other : κ} (distinct : other ≠ key) :
    (table.erase key).find other = table.find other := AList.lookup_erase_ne distinct

/-- A row under a new key is dropped without a trace. -/
theorem erase_put {table : Table κ α} {key : κ} (fresh : table.find key = none) (row : α) :
    (table.put key row).erase key = table := by
  have absent : key ∉ table := AList.lookup_eq_none.mp fresh
  refine AList.ext ?_
  show List.kerase key (AList.insert key row table).entries = table.entries
  rw [AList.entries_insert_of_notMem absent]
  exact List.kerase_cons_eq (Eq.refl key)

theorem erase_absent {table : Table κ α} {key : κ} (absent : table.find key = none) :
    table.erase key = table :=
  AList.ext (List.kerase_of_notMem_keys (AList.lookup_eq_none.mp absent))

theorem put_put (table : Table κ α) (key : κ) (first second : α) :
    (table.put key first).put key second = table.put key second := AList.insert_insert table

/-- A row after a write is the written one or an old one. -/
theorem find_put_cases {table : Table κ α} {key other : κ} {row seen : α}
    (found : (table.put key row).find other = some seen) :
    (other = key ∧ seen = row) ∨ (other ≠ key ∧ table.find other = some seen) := by
  rw [find_put] at found
  split at found
  next same => exact .inl ⟨same, (Option.some.inj found).symm⟩
  next distinct => exact .inr ⟨distinct, found⟩

theorem mem_rows {table : Table κ α} {key : κ} {row : α} :
    (key, row) ∈ table.rows ↔ table.find key = some row := by
  have stored : table.find key = some row ↔ (⟨key, row⟩ : Sigma fun _ : κ => α) ∈ table.entries :=
    AList.mem_lookup_iff
  rw [stored]
  constructor
  · intro member
    obtain ⟨entry, present, same⟩ := List.mem_map.mp member
    obtain ⟨rfl, rfl⟩ := Prod.mk.inj same
    exact present
  · intro present
    exact List.mem_map.mpr ⟨_, present, rfl⟩

/-- Each key has at most one row. -/
theorem find_unique {table : Table κ α} {key : κ} {first second : α}
    (left : (key, first) ∈ table.rows) (right : (key, second) ∈ table.rows) : first = second := by
  have same : some first = some second := (mem_rows.mp left).symm.trans (mem_rows.mp right)
  exact Option.some.inj same

/-- Some row meets the condition. -/
def anyRow (table : Table κ α) (condition : κ → α → Bool) : Bool :=
  table.rows.any fun row => condition row.1 row.2

@[simp] theorem anyRow_eq_true {table : Table κ α} {condition : κ → α → Bool} :
    table.anyRow condition = true ↔
      ∃ key row, table.find key = some row ∧ condition key row = true := by
  simp only [anyRow, List.any_eq_true, Prod.exists, mem_rows]

@[simp] theorem anyRow_eq_false {table : Table κ α} {condition : κ → α → Bool} :
    table.anyRow condition = false ↔
      ∀ key row, table.find key = some row → condition key row = false := by
  rw [← Bool.not_eq_true, anyRow_eq_true]
  grind

/-- The rows that meet a condition. -/
def select (table : Table κ α) (condition : κ → α → Bool) : List (κ × α) :=
  table.rows.filter fun row => condition row.1 row.2

@[simp] theorem mem_select {table : Table κ α} {condition : κ → α → Bool} {key : κ} {row : α} :
    (key, row) ∈ table.select condition ↔
      table.find key = some row ∧ condition key row = true := by
  simp [select, mem_rows]

omit [DecidableEq κ] in
/-- A selection names each key at most once. -/
theorem nodup_select (table : Table κ α) (condition : κ → α → Bool) :
    ((table.select condition).map Prod.fst).Nodup := by
  have keys : (table.rows.map Prod.fst).Nodup := by
    have same : table.rows.map Prod.fst = table.keys := by
      simp [rows, AList.keys, List.keys, List.map_map, Function.comp_def]
    rw [same]
    exact table.keys_nodup
  exact keys.sublist (List.filter_sublist.map _)

theorem map_find_put {β : Type} {table : Table κ α} {key : κ} {old row : α}
    (stored : table.find key = some old) (value : α → β) (same : value row = value old) (other : κ) :
    ((table.put key row).find other).map value = (table.find other).map value := by
  rw [find_put]
  split
  next here => rw [here, stored, Option.map_some, Option.map_some, same]
  · rfl

/-- What one reader sees of the rows. -/
def view {β : Type} (table : Table κ α) (visible : α → Option β) (key : κ) : Option β :=
  (table.find key).bind visible

section Views

variable {β : Type} {visible : α → Option β}

theorem view_eq_some {table : Table κ α} {key : κ} {seen : β} :
    table.view visible key = some seen ↔
      ∃ row, table.find key = some row ∧ visible row = some seen := by
  simp [view, Option.bind_eq_some_iff]

theorem view_put_seen (table : Table κ α) (key : κ) {row : α} {seen : β}
    (visibly : visible row = some seen) :
    (table.put key row).view visible = Function.update (table.view visible) key (some seen) := by
  funext other
  rw [view, find_put, Function.update_apply]
  split
  · exact visibly
  · rfl

/-- A write out of sight. -/
theorem view_put_hidden {table : Table κ α} {key : κ} {row : α}
    (hidden : visible row = none) (before : ∀ old, table.find key = some old → visible old = none) :
    (table.put key row).view visible = table.view visible := by
  funext other
  rw [view, find_put]
  split
  next here =>
    subst here
    rw [Option.bind_some, hidden, eq_comm, view, Option.bind_eq_none_iff]
    exact before
  · rfl

/-- What a reader sees depends on part of each row only. -/
theorem view_congr {γ : Type} {first second : Table κ α} (part : α → γ)
    (same : ∀ key, (first.find key).map part = (second.find key).map part)
    (sees : ∀ left right, part left = part right → visible left = visible right) :
    first.view visible = second.view visible := by
  funext key
  have here := same key
  unfold view
  cases atFirst : first.find key <;> cases atSecond : second.find key <;>
    simp only [atFirst, atSecond, Option.map_none, Option.map_some, reduceCtorEq,
      Option.some.injEq] at here
  · rfl
  · exact sees _ _ here

end Views

/-- No row is removed, and this part of each stays as it was. -/
def Keeps {β : Type} (part : α → β) (before after : Table κ α) : Prop :=
  ∀ key row, before.find key = some row →
    ∃ still, after.find key = some still ∧ part still = part row

section Keeping

variable {β : Type} {part : α → β} {table : Table κ α} {key : κ} {old new : α}

theorem Keeps.refl (table : Table κ α) : Keeps part table table :=
  fun _ row found => ⟨row, found, rfl⟩

theorem Keeps.trans {first second third : Table κ α} (one : Keeps part first second)
    (two : Keeps part second third) : Keeps part first third := by
  intro key row found
  obtain ⟨middle, there, same⟩ := one key row found
  obtain ⟨still, here, equal⟩ := two key middle there
  exact ⟨still, here, equal.trans same⟩

theorem Keeps.put (stored : table.find key = some old) (same : part new = part old) :
    Keeps part table (table.put key new) := by
  intro other row found
  rw [find_put]
  split
  next here =>
    obtain rfl := Option.some.inj ((here ▸ found).symm.trans stored)
    exact ⟨new, rfl, same⟩
  · exact ⟨row, found, rfl⟩

theorem Keeps.put_new (fresh : table.find key = none) : Keeps part table (table.put key new) := by
  intro other row found
  have distinct : other ≠ key := by
    rintro rfl
    exact nomatch found.symm.trans fresh
  exact ⟨row, (find_put_ne _ _ distinct).trans found, rfl⟩

end Keeping

section Totals

private theorem perm_erase {key : κ} {entries : List (Sigma fun _ : κ => α)} {row : α}
    (stored : List.dlookup key entries = some row) :
    entries.Perm (⟨key, row⟩ :: entries.kerase key) := by
  induction entries with
  | nil => simp at stored
  | cons entry entries ih =>
    by_cases same : key = entry.1
    · obtain ⟨other, value⟩ := entry
      obtain rfl : key = other := same
      obtain rfl : value = row := by simpa using stored
      have erased : List.kerase key (⟨key, value⟩ :: entries) = entries :=
        List.kerase_cons_eq rfl
      rw [erased]
    · rw [List.dlookup_cons_ne _ _ same] at stored
      rw [List.kerase_cons_ne same]
      exact ((ih stored).cons entry).trans (.swap ..)

variable [AddCommMonoid M]

private theorem sum_erase (weight : κ → α → M) {key : κ} {entries : List (Sigma fun _ : κ => α)}
    {row : α} (stored : List.dlookup key entries = some row) :
    (entries.map fun entry => weight entry.1 entry.2).sum =
      weight key row + ((entries.kerase key).map fun entry => weight entry.1 entry.2).sum := by
  rw [((perm_erase stored).map fun entry => weight entry.1 entry.2).sum_eq, List.map_cons,
    List.sum_cons]

/-- A row under a new key adds its weight. -/
theorem total_put_new {table : Table κ α} {key : κ} {row : α} (weight : κ → α → M)
    (fresh : table.find key = none) :
    (table.put key row).total weight = weight key row + table.total weight := by
  have absent : key ∉ table := AList.lookup_eq_none.mp fresh
  rw [total_eq, total_eq, put, AList.entries_insert_of_notMem absent, List.map_cons, List.sum_cons]

/-- A rewritten row exchanges its old weight for its new one. -/
theorem total_put {table : Table κ α} {key : κ} {old : α} (row : α) (weight : κ → α → M)
    (stored : table.find key = some old) :
    (table.put key row).total weight + weight key old =
      table.total weight + weight key row := by
  rw [total_eq, total_eq, put, AList.entries_insert, List.map_cons, List.sum_cons,
    sum_erase weight stored]
  abel

/-- A rewritten row of the same weight leaves the total. -/
theorem total_put_same {table : Table κ α} {key : κ} {old row : α} (weight : κ → α → M)
    (stored : table.find key = some old) (same : weight key row = weight key old) :
    (table.put key row).total weight = table.total weight := by
  have erased := sum_erase weight stored
  rw [total_eq, total_eq, put, AList.entries_insert, List.map_cons, List.sum_cons, same, erased]

theorem total_congr {table : Table κ α} {first second : κ → α → M}
    (agree : ∀ key row, table.find key = some row → first key row = second key row) :
    table.total first = table.total second := by
  unfold total
  congr 1
  apply List.map_congr_left
  rintro ⟨key, row⟩ member
  exact agree key row (mem_rows.mp member)

omit [DecidableEq κ] in
theorem length_rows (table : Table κ α) : table.rows.length = table.total fun _ _ => 1 := by
  simp [total]

theorem length_rows_put_new {table : Table κ α} {key : κ} (row : α)
    (fresh : table.find key = none) :
    (table.put key row).rows.length = table.rows.length + 1 := by
  rw [length_rows, length_rows, total_put_new _ fresh, add_comm]

theorem length_rows_put {table : Table κ α} {key : κ} {old : α} (row : α)
    (stored : table.find key = some old) :
    (table.put key row).rows.length = table.rows.length := by
  rw [length_rows, length_rows]
  exact total_put_same (fun _ _ => 1) stored rfl

end Totals

end Table
