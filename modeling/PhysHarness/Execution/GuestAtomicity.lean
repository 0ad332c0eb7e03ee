import PhysHarness.Execution.GuestWrite

/-!
The guest's write is all or nothing: a refusal has undone every step, and a success has changed the
target and its missing parents only.

Main result: `guestWrite_atomic`.
-/
namespace PhysHarness

open Effect

/-! ### Calls -/

section

variable {weather : Weather} {P : Guest → Prop} {raises : GuestError → Guest → Prop}

theorem syscall_ensures {α : Type} {effect : WorkTree → Except GuestError (α × WorkTree)}
    {returns : α → Guest → Prop}
    (fails : ∀ guest calls, P guest → raises .os { guest with calls })
    (refuses : ∀ guest calls error, P guest → effect guest.tree = .error error →
      raises error { guest with calls })
    (works : ∀ guest calls value tree, P guest → effect guest.tree = .ok (value, tree) →
      returns value { guest with calls, tree }) :
    Ensures P (syscall weather effect) returns raises := by
  intro guest holds
  unfold syscall
  dsimp only
  by_cases failing : weather.fails guest.calls = true
  · rw [if_pos failing]
    exact fails guest _ holds
  rw [if_neg failing]
  cases done : effect guest.tree with
  | error error => exact refuses guest _ error holds done
  | ok result => exact works guest _ result.1 result.2 holds done

/-- What does not depend on the number of calls outlives a quiet call. -/
theorem quietCall_ensures (steady : ∀ guest calls, P guest → P { guest with calls })
    (fails : ∀ guest, P guest → raises .os guest) :
    Ensures P (quietCall weather) (fun _ => P) raises :=
  syscall_ensures (fun guest calls holds => fails _ (steady guest calls holds))
    (fun _ _ _ _ refused => by cases refused) fun guest calls value tree holds done => by
      obtain ⟨-, rfl⟩ := Prod.mk.inj (Except.ok.inj done)
      exact steady guest calls holds

end

/-! ### Undoing -/

/-- The files when everything that `put` has made is removed again. -/
def Guest.restored (guest : Guest) : WorkTree :=
  guest.made.foldr (fun path tree => tree.remove path)
    (match guest.temp with
    | some temp => guest.tree.remove temp
    | none => guest.tree)

theorem WorkTree.remove_absent {tree : WorkTree} {path : GuestPath} (absent : tree.find path = none) :
    tree.remove path = tree := by
  have entries : tree.entries.find path = none := by
    rwa [WorkTree.find_entry (WorkTree.inside_of_none absent)] at absent
  unfold WorkTree.remove
  rw [absent]
  dsimp only
  rw [Table.erase_absent entries]

variable {weather : Weather} {start : WorkTree}

/-- The directories are removed in the reverse order, and none is left when no call fails. -/
theorem rmdirs_ensures (paths : List GuestPath) :
    Ensures (fun guest => paths.foldl (fun tree path => tree.remove path) guest.tree = start)
      (paths.forM (rmdir weather)) (fun _ guest => guest.tree = start) fun error _ => error ≠ .refused := by
  induction paths with
  | nil => exact pure_ensures () fun _ holds => holds
  | cons path paths ih =>
    refine bind_ensures _ ?_ fun _ => ih
    refine syscall_ensures (fun _ _ _ => by decide) (fun _ _ error _ refused => ?_) fun guest calls _ tree holds done => ?_
    · split at refused
      · cases refused
      · obtain rfl := Except.error.inj refused
        decide
    · split at done
      · obtain ⟨-, rfl⟩ := Prod.mk.inj (Except.ok.inj done)
        exact holds
      · cases done

theorem unlinked_ensures {tree : WorkTree} (temp : GuestPath) :
    Ensures (fun guest => guest.tree = tree) (unlink weather temp)
      (fun _ guest => guest.tree = tree.remove temp)
      fun error guest => error = .os ∨ (error = .fileNotFound ∧ guest.tree = tree.remove temp) := by
  refine syscall_ensures (fun _ _ _ => .inl rfl) (fun guest calls error same refused => ?_)
    fun guest calls _ tree' same done => ?_
  · split at refused
    next absent =>
      obtain rfl := Except.error.inj refused
      exact .inr ⟨rfl, by rw [← same, WorkTree.remove_absent absent]⟩
    · exact .inl (Except.error.inj refused).symm
    · cases refused
  · split at done
    · cases done
    · cases done
    · obtain ⟨-, rfl⟩ := Prod.mk.inj (Except.ok.inj done)
      exact same ▸ rfl

/-- The temporary file is removed, or was not there. -/
theorem dropTemp_ensures (guest : Guest) : Ensures (fun state => state = guest) (dropTemp weather guest.temp)
    (fun _ state => guest.made.foldr (fun path tree => tree.remove path) state.tree = guest.restored)
    fun error _ => error ≠ .refused := by
  unfold Guest.restored
  cases guest.temp with
  | none => exact pure_ensures () fun state same => same ▸ rfl
  | some temp =>
    refine handle_ensures (ensures_imp (unlinked_ensures temp) (fun state same => congrArg Guest.tree same)
      (fun _ state gone => by rw [gone]) fun _ _ ended => ended) fun error => ?_
    by_cases missing : error = .fileNotFound
    · rw [if_pos missing]
      refine pure_ensures () fun state ended => ?_
      rcases ended with rfl | ⟨-, gone⟩
      · cases missing
      · rw [gone]
    · rw [if_neg missing]
      refine throw_ensures error fun state ended => ?_
      rcases ended with rfl | ⟨rfl, -⟩
      · decide
      · exact absurd rfl missing

/-- A refusal after undoing has undone everything. -/
theorem undo_ensures : Ensures (fun guest => guest.restored = start) (undo weather) (fun _ _ => False)
    fun error guest => error = .refused → guest.tree = start := by
  refine bind_ensures (fun guest state => guest.restored = start ∧ state = guest)
    (get_ensures fun guest back => ⟨back, rfl⟩) fun guest => given_ensures fun back => ?_
  refine bind_ensures _ (ensures_imp (dropTemp_ensures guest) (fun _ same => same) (fun _ _ left => left)
    fun _ _ other same => absurd same other) fun _ => ?_
  refine bind_ensures (fun _ state => state.tree = start)
    (ensures_imp (rmdirs_ensures guest.made.reverse) (fun state left => ?_) (fun _ _ left => left)
      fun error _ other same => absurd same other) fun _ => throw_ensures _ fun _ left _ => left
  rw [List.foldl_reverse]
  exact left.trans back

/-! ### Closing -/

theorem closeDirectory_ensures {P : Guest → Prop} {raises : GuestError → Guest → Prop}
    (steady : ∀ guest calls closed, P guest → P { guest with calls, closed })
    (fails : ∀ guest, P guest → raises .os guest) :
    Ensures P (closeDirectory weather) (fun _ => P) raises := by
  intro guest holds
  unfold closeDirectory
  by_cases gone : guest.closed = true
  · rw [if_pos gone]
    exact fails _ (steady guest _ guest.closed holds)
  · rw [if_neg gone]
    exact quietCall_ensures (fun guest calls holds => steady guest calls guest.closed holds) fails
      { guest with closed := true } (steady guest guest.calls true holds)

theorem closeAll_ensures {kept : WorkTree → Prop} :
    Ensures (fun guest => kept guest.tree) (closeAll weather) (fun _ guest => kept guest.tree)
      fun error _ => error = .os := by
  refine bind_ensures _ (closeDirectory_ensures (fun _ _ _ holds => holds) fun _ _ => rfl) fun _ => ?_
  refine bind_ensures (fun _ guest => kept guest.tree) (get_ensures fun _ holds => holds) fun guest => ?_
  exact forM_ensures fun _ _ => quietCall_ensures (fun _ _ holds => holds) fun _ _ => rfl

/-! ### The parents -/

/-- The directories that were made on the way to `bound`, and nothing else. -/
structure Grown (start : WorkTree) (bound : GuestPath) (guest : Guest) : Prop where
  temp : guest.temp = none
  back : guest.made.foldr (fun path tree => tree.remove path) guest.tree = start
  contents : guest.tree.contents = start.contents
  entries : ∀ path, guest.tree.find path = if path ∈ guest.made then some .directory else start.find path
  made : ∀ path ∈ guest.made, start.find path = none ∧ path <+: bound

/-- `fd` is open on the directory. -/
structure Opened (directory : GuestPath) (guest : Guest) : Prop where
  fd : guest.fd = directory
  parents : ∀ path, path <+: directory → guest.tree.find path = some .directory

theorem Grown.restored {bound : GuestPath} {guest : Guest} (grown : Grown start bound guest) :
    guest.restored = start := by
  unfold Guest.restored
  rw [grown.temp]
  exact grown.back

theorem Grown.calls {bound : GuestPath} {guest : Guest} (grown : Grown start bound guest) (calls : Nat) :
    Grown start bound { guest with calls } :=
  ⟨grown.temp, grown.back, grown.contents, grown.entries, grown.made⟩

theorem Grown.mono {bound longer : GuestPath} {guest : Guest} (grown : Grown start bound guest)
    (below : bound <+: longer) : Grown start longer guest :=
  { grown with made := fun path member => ⟨(grown.made path member).1, (grown.made path member).2.trans below⟩ }

theorem Opened.calls {directory : GuestPath} {guest : Guest} (opened : Opened directory guest) (calls : Nat) :
    Opened directory { guest with calls } :=
  ⟨opened.fd, opened.parents⟩

/-- A directory that was missing. -/
theorem Grown.mkdir {bound path : GuestPath} {guest : Guest} (grown : Grown start bound guest)
    (absent : guest.tree.find path = none) (below : path <+: bound) :
    Grown start bound { guest with tree := guest.tree.add path .directory, made := guest.made ++ [path] } where
  temp := grown.temp
  back := by
    rw [List.foldr_append, List.foldr_cons, List.foldr_nil]
    dsimp only
    rw [WorkTree.remove_add absent]
    exact grown.back
  contents := grown.contents
  entries := by
    intro other
    simp only [List.mem_append, List.mem_singleton]
    by_cases same : other = path
    · subst same
      rw [if_pos (.inr rfl), WorkTree.find_add_self (WorkTree.inside_of_none absent)]
    · rw [WorkTree.find_add_ne same, grown.entries]
      simp only [same, or_false]
  made := by
    intro other member
    rcases List.mem_append.mp member with old | new
    · exact grown.made other old
    · obtain rfl := List.mem_singleton.mp new
      refine ⟨?_, below⟩
      have before := grown.entries other
      rw [absent] at before
      split at before
      · cases before
      · exact before.symm

theorem Opened.mkdir {directory path : GuestPath} {guest : Guest} (opened : Opened directory guest)
    (absent : guest.tree.find path = none) :
    Opened directory { guest with tree := guest.tree.add path .directory, made := guest.made ++ [path] } where
  fd := opened.fd
  parents other prior := by
    have known := opened.parents other prior
    have distinct : other ≠ path := by
      rintro rfl
      rw [absent] at known
      cases known
    exact (WorkTree.find_add_ne distinct _).trans known

/-- Being on the way to `path`, with its parent's directory open. -/
structure Under (start : WorkTree) (directory path : GuestPath) (guest : Guest) : Prop where
  grown : Grown start path guest
  opened : Opened directory guest

theorem Under.calls {directory path : GuestPath} {guest : Guest} (under : Under start directory path guest)
    (calls : Nat) : Under start directory path { guest with calls } :=
  ⟨under.grown.calls calls, under.opened.calls calls⟩

theorem mkdir_ensures {directory path : GuestPath} :
    Ensures (Under start directory path)
      (handle (do
          mkdir weather path
          modify fun guest => { guest with made := guest.made ++ [path] })
        fun error => if error = .fileExists then quietCall weather else throw error)
      (fun _ => Under start directory path) fun _ guest => guest.restored = start := by
  have made : Ensures (Under start directory path) (do
        mkdir weather path
        modify fun guest => { guest with made := guest.made ++ [path] })
      (fun _ => Under start directory path) fun _ => Under start directory path := by
    refine bind_ensures (fun _ guest => Under start directory path { guest with made := guest.made ++ [path] })
      ?_ fun _ => modify_ensures _ fun _ under => under
    refine syscall_ensures (fun _ calls under => under.calls calls) (fun _ calls _ under _ => under.calls calls)
      fun guest calls _ tree under done => ?_
    split at done
    · cases done
    split at done
    · cases done
    next absent =>
      obtain ⟨-, rfl⟩ := Prod.mk.inj (Except.ok.inj done)
      have missing : guest.tree.find path = none := not_not.mp absent
      have grown := (under.grown.mkdir missing (List.prefix_refl path)).calls calls
      exact ⟨grown, (under.opened.mkdir missing).calls calls⟩
  refine handle_ensures made fun error => ?_
  split
  · exact quietCall_ensures (fun _ calls under => under.calls calls) fun _ under => under.grown.restored
  · exact throw_ensures error fun _ under => under.grown.restored

theorem openDirectory_ensures {directory path : GuestPath} :
    Ensures (Under start directory path) (openDirectory weather path)
      (fun _ guest => guest.tree.find path = some .directory ∧ Under start directory path guest)
      fun _ guest => guest.restored = start := by
  refine syscall_ensures (fun _ calls under => (under.calls calls).grown.restored)
    (fun _ calls _ under _ => (under.calls calls).grown.restored) fun guest calls _ tree under done => ?_
  split at done
  · cases done
  next found =>
    obtain ⟨-, rfl⟩ := Prod.mk.inj (Except.ok.inj done)
    exact ⟨found, under.calls calls⟩
  · cases done

/-- One more segment is open, and its directory was made when it was missing. -/
theorem enter_ensures (directory : GuestPath) (part : String) :
    Ensures (Under start directory directory) (enter weather part)
      (fun _ => Under start (directory ++ [part]) (directory ++ [part])) fun _ guest => guest.restored = start := by
  have below : directory <+: directory ++ [part] := List.prefix_append _ _
  refine bind_ensures (fun guest state => guest.fd = directory ∧ Under start directory (directory ++ [part]) state)
    (get_ensures fun guest under => ⟨under.opened.fd, under.grown.mono below, under.opened⟩)
    fun guest => given_ensures fun fd => ?_
  rw [fd]
  refine bind_ensures _ (quietCall_ensures (fun _ calls under => under.calls calls)
    fun _ under => under.grown.restored) fun _ => ?_
  refine bind_ensures _ mkdir_ensures fun _ => bind_ensures _ openDirectory_ensures fun _ =>
    bind_ensures (fun _ guest => guest.tree.find (directory ++ [part]) = some .directory ∧
      Under start directory (directory ++ [part]) guest) ?_ fun _ => modify_ensures _ ?_
  · refine closeDirectory_ensures (fun guest calls closed met => ⟨met.1, ?_⟩) fun _ met => met.2.grown.restored
    have under := met.2
    exact ⟨⟨under.grown.temp, under.grown.back, under.grown.contents, under.grown.entries, under.grown.made⟩,
      under.opened.fd, under.opened.parents⟩
  · rintro state ⟨found, under⟩
    refine ⟨⟨under.grown.temp, under.grown.back, under.grown.contents, under.grown.entries, under.grown.made⟩, rfl, ?_⟩
    intro path prior
    rcases List.prefix_concat_iff.mp prior with rfl | shorter
    · exact found
    · exact under.opened.parents path shorter

theorem enterAll_ensures (directory : GuestPath) (parts : List String) :
    Ensures (Under start directory directory) (parts.forM (enter weather))
      (fun _ => Under start (directory ++ parts) (directory ++ parts)) fun _ guest => guest.restored = start := by
  induction parts generalizing directory with
  | nil =>
    rw [List.append_nil]
    exact pure_ensures () fun _ under => under
  | cons part parts ih =>
    refine bind_ensures _ (enter_ensures directory part) fun _ => ?_
    have rest := ih (directory ++ [part])
    rwa [List.append_assoc, List.singleton_append] at rest

/-! ### The temporary file -/

/-- The target is not there, or it is a file with one name. -/
def Replaceable (tree : WorkTree) (target : GuestPath) : Prop :=
  tree.find target = none ∨ ∃ inode, tree.find target = some (.regular inode) ∧
    ∀ path, tree.find path = some (.regular inode) → path = target

theorem replaceable_one {tree : WorkTree} {target : GuestPath} {inode : Nat}
    (named : tree.find target = some (.regular inode)) (one : tree.links inode = 1) :
    Replaceable tree target := by
  have entry : ∀ path, tree.find path = some (.regular inode) → tree.entries.find path = some (.regular inode) := by
    intro path found
    have inside : path ≠ [] := by
      rintro rfl
      cases found
    rwa [WorkTree.find_entry inside] at found
  exact .inr ⟨inode, named, fun path found => WorkTree.links_one one (entry path found) (entry target named)⟩

theorem inspect_ensures {directory target : GuestPath} :
    Ensures (Under start directory directory) (inspect weather target)
      (fun _ guest => Replaceable guest.tree target ∧ Under start directory directory guest)
      fun _ guest => guest.restored = start := by
  have looked : Ensures (Under start directory directory) (stat weather target)
      (fun found guest => (∀ inode, found = (.regular inode, 1) → Replaceable guest.tree target) ∧
        Under start directory directory guest)
      fun error guest => (error = .fileNotFound → Replaceable guest.tree target) ∧
        Under start directory directory guest := by
    refine syscall_ensures (fun _ calls under => ⟨fun other => absurd other (by decide), under.calls calls⟩)
      (fun guest calls error under refused => ⟨fun _ => ?_, under.calls calls⟩)
      fun guest calls found tree under done => ?_
    · split at refused
      next absent => exact .inl absent
      · cases refused
      · cases refused
    · split at done
      · cases done
      next inode named =>
        obtain ⟨rfl, rfl⟩ := Prod.mk.inj (Except.ok.inj done)
        refine ⟨fun other same => replaceable_one named ?_, under.calls calls⟩
        exact (Prod.mk.inj same).2
      next node other _ =>
        obtain ⟨rfl, rfl⟩ := Prod.mk.inj (Except.ok.inj done)
        exact ⟨fun inode same => absurd (Prod.mk.inj same).1 (other inode), under.calls calls⟩
  refine handle_ensures (bind_ensures _ looked fun found => ?_) fun error => ?_
  · obtain ⟨node, links⟩ := found
    have refused : Ensures (fun guest => (∀ inode, (node, links) = (Node.regular inode, 1) →
          Replaceable guest.tree target) ∧ Under start directory directory guest)
        (throw .assertion : GuestProgram Unit)
        (fun _ guest => Replaceable guest.tree target ∧ Under start directory directory guest)
        fun error guest => (error = .fileNotFound → Replaceable guest.tree target) ∧
          Under start directory directory guest :=
      throw_ensures _ fun guest met => ⟨fun other => absurd other (by decide), met.2⟩
    dsimp only
    split
    next inode =>
      split
      next one => exact pure_ensures () fun guest met => ⟨met.1 inode (one ▸ rfl), met.2⟩
      · exact refused
    · exact refused
  · split
    next missing => exact pure_ensures () fun guest ended => ⟨ended.1 missing, ended.2⟩
    · exact throw_ensures error fun _ ended => ended.2.grown.restored

/-- The files before the temporary one, which are the first ones but for missing parents. -/
structure ReadyTree (start : WorkTree) (directory target : GuestPath) (base : WorkTree) : Prop where
  contents : base.contents = start.contents
  entries : ∀ path, base.find path = start.find path ∨
    (start.find path = none ∧ path <+: directory ∧ base.find path = some .directory)
  parents : ∀ path, path <+: directory → base.find path = some .directory
  free : Replaceable base target

/-- The temporary file is all that is more than in `base`. -/
structure Held (start base : WorkTree) (candidate : GuestPath) (guest : Guest) : Prop where
  temp : guest.temp = some candidate
  absent : base.find candidate = none
  held : ∃ data, guest.tree = base.hold candidate data
  back : guest.made.foldr (fun path tree => tree.remove path) base = start

theorem Held.calls {base : WorkTree} {candidate : GuestPath} {guest : Guest}
    (held : Held start base candidate guest) (calls : Nat) : Held start base candidate { guest with calls } :=
  ⟨held.temp, held.absent, held.held, held.back⟩

theorem Held.restored {base : WorkTree} {candidate : GuestPath} {guest : Guest}
    (held : Held start base candidate guest) : guest.restored = start := by
  obtain ⟨data, tree⟩ := held.held
  unfold Guest.restored
  rw [held.temp, tree]
  dsimp only
  rw [WorkTree.remove_hold held.absent]
  exact held.back

theorem Held.write {base : WorkTree} {candidate : GuestPath} {guest : Guest}
    (held : Held start base candidate guest) (data : Bytes) (calls : Nat) :
    Held start base candidate { guest with calls, tree := guest.tree.write base.freshInode data } := by
  obtain ⟨old, tree⟩ := held.held
  exact ⟨held.temp, held.absent, ⟨data, by rw [tree, WorkTree.write_hold]⟩, held.back⟩

theorem createFile_ensures {directory target candidate : GuestPath} :
    Ensures (fun guest => Replaceable guest.tree target ∧ Under start directory directory guest)
      (createFile weather candidate)
      (fun inode guest => ∃ base, (ReadyTree start directory target base ∧ inode = base.freshInode) ∧
        Held start base candidate { guest with temp := some candidate })
      fun _ guest => guest.restored = start := by
  refine syscall_ensures (fun _ calls met => (met.2.calls calls).grown.restored)
    (fun _ calls _ met _ => (met.2.calls calls).grown.restored) fun guest calls inode tree met done => ?_
  obtain ⟨free, grown, opened⟩ := met
  split at done
  · cases done
  split at done
  · cases done
  next absent =>
    obtain ⟨rfl, rfl⟩ := Prod.mk.inj (Except.ok.inj done)
    refine ⟨guest.tree, ⟨⟨grown.contents, fun path => ?_, opened.parents, free⟩, rfl⟩,
      rfl, not_not.mp absent, ⟨[], rfl⟩, grown.back⟩
    have entry := grown.entries path
    split at entry
    next member => exact .inr ⟨(grown.made path member).1, (grown.made path member).2, entry⟩
    · exact .inl entry

theorem tearFile_ensures {base : WorkTree} {candidate : GuestPath} {raises : GuestError → Guest → Prop}
    (fails : ∀ guest, Held start base candidate guest → raises .os guest) :
    Ensures (Held start base candidate) (tearFile weather base.freshInode)
      (fun _ => Held start base candidate) raises := by
  intro guest held
  have torn := held.write (weather.torn guest.calls) (guest.calls + 1)
  unfold tearFile
  by_cases failing : weather.fails guest.calls = true
  · rw [if_pos failing]
    exact fails _ torn
  · rw [if_neg failing]
    exact torn

theorem flushFile_ensures {base : WorkTree} {candidate : GuestPath} (data : Bytes) :
    Ensures (Held start base candidate) (flushFile weather base.freshInode data)
      (fun _ guest => guest.tree = base.hold candidate data ∧ Held start base candidate guest)
      fun _ => Held start base candidate := by
  intro guest held
  unfold flushFile
  by_cases failing : weather.fails guest.calls = true
  · rw [if_pos failing]
    exact held.write _ _
  · rw [if_neg failing]
    obtain ⟨old, tree⟩ := held.held
    exact ⟨by rw [tree, WorkTree.write_hold], held.write data _⟩

/-- The temporary file holds the bytes. -/
theorem fill_ensures {base : WorkTree} {candidate : GuestPath} (data : Bytes) :
    Ensures (Held start base candidate) (fill weather base.freshInode data)
      (fun _ guest => guest.tree = base.hold candidate data ∧ Held start base candidate guest)
      fun _ guest => guest.restored = start := by
  refine bind_ensures _ (quietCall_ensures (fun _ calls held => held.calls calls) fun _ held => held.restored)
    fun _ => ?_
  refine bind_ensures _ ?_ fun _ => quietCall_ensures (fun _ calls met => ⟨met.1, met.2.calls calls⟩)
    fun _ met => met.2.restored
  have written : Ensures (Held start base candidate) (do
        tearFile weather base.freshInode
        flushFile weather base.freshInode data
        quietCall weather)
      (fun _ guest => guest.tree = base.hold candidate data ∧ Held start base candidate guest)
      fun _ => Held start base candidate := by
    refine bind_ensures _ (tearFile_ensures fun _ held => held) fun _ =>
      bind_ensures _ (flushFile_ensures data) fun _ => ?_
    exact quietCall_ensures (fun _ calls met => ⟨met.1, met.2.calls calls⟩) fun _ met => met.2
  refine handle_ensures written fun error => ?_
  exact bind_ensures _ (tearFile_ensures fun _ held => held.restored) fun _ =>
    throw_ensures error fun _ held => held.restored

/-- The files after the rename, in terms of those before the temporary file. -/
structure Renamed (base : WorkTree) (candidate target : GuestPath) (data : Bytes) (after : WorkTree) : Prop where
  named : after.find target = some (.regular base.freshInode)
  others : ∀ path, path ≠ target → after.find path = base.find path
  written : after.contents.find base.freshInode = some data
  contents : ∀ path inode, path ≠ target → base.find path = some (.regular inode) →
    after.contents.find inode = base.contents.find inode

theorem find_hold {base : WorkTree} {candidate : GuestPath} (absent : base.find candidate = none)
    (data : Bytes) (path : GuestPath) : (base.hold candidate data).find path =
      if path = candidate then some (.regular base.freshInode) else base.find path := by
  have inside := WorkTree.inside_of_none absent
  by_cases same : path = candidate
  · subst same
    rw [if_pos rfl, WorkTree.find_entry inside]
    exact Table.find_put_self _ _ _
  · rw [if_neg same]
    unfold WorkTree.find WorkTree.hold
    rw [Table.find_put_ne _ _ same]

theorem renamed_replace {base : WorkTree} {candidate target : GuestPath} {data : Bytes} (inside : target ≠ []) (absent : base.find candidate = none) :
    Renamed base candidate target data
      ((base.hold candidate data).replace candidate target (.regular base.freshInode)) := by
  have contents : ∀ inode ≠ base.freshInode,
      (base.hold candidate data).contents.find inode = base.contents.find inode :=
    fun inode distinct => Table.find_put_ne _ _ distinct
  have new : (base.hold candidate data).contents.find base.freshInode = some data := Table.find_put_self _ _ _
  have entry : ∀ path inode, base.find path = some (.regular inode) → inode ≠ base.freshInode := by
    rintro path _ found rfl
    have inner : path ≠ [] := by
      rintro rfl
      cases found
    rw [WorkTree.find_entry inner] at found
    exact WorkTree.freshInode_entries found
  unfold WorkTree.replace
  by_cases same : (base.hold candidate data).find target = some (.regular base.freshInode)
  · rw [if_pos same]
    have own : target = candidate := by
      rw [find_hold absent] at same
      by_contra other
      rw [if_neg other] at same
      exact entry target _ same rfl
    refine ⟨same, fun path other => ?_, new, fun path inode other found => contents inode (entry path inode found)⟩
    rw [find_hold absent, if_neg (own ▸ other)]
  · rw [if_neg same]
    have apart : candidate ≠ target := by
      rintro rfl
      exact same ((find_hold absent data candidate).trans (if_pos rfl))
    have inner := WorkTree.inside_of_none absent
    have held : (base.hold candidate data).entries.find candidate = some (.regular base.freshInode) :=
      Table.find_put_self _ _ _
    refine ⟨?_, fun path other => ?_, (WorkTree.remove_contents apart held).trans new,
      fun path inode other found => ?_⟩
    · rw [WorkTree.find_entry inside]
      exact Table.find_put_self _ _ _
    · by_cases root : path = []
      · rw [root]
        rfl
      rw [WorkTree.find_entry root, Table.find_put_ne _ _ other]
      by_cases own : path = candidate
      · rw [own, Table.find_erase_self, absent]
      · rw [Table.find_erase_ne _ own, WorkTree.remove_entries, Table.find_erase_ne _ other,
          ← WorkTree.find_entry root, find_hold absent, if_neg own]
    · have outer : path ≠ [] := by
        rintro rfl
        cases found
      have distinct : path ≠ candidate := by
        rintro rfl
        rw [absent] at found
        cases found
      have named : (base.hold candidate data).entries.find path = some (.regular inode) := by
        rw [← WorkTree.find_entry outer, find_hold absent, if_neg distinct, found]
      rw [WorkTree.remove_contents other named]
      exact contents inode (entry path inode found)

theorem replaceFile_ensures {base : WorkTree} {candidate target : GuestPath} {data : Bytes}
    (inside : target ≠ []) :
    Ensures (fun guest => guest.tree = base.hold candidate data ∧ Held start base candidate guest)
      (replaceFile weather candidate target)
      (fun _ guest => Renamed base candidate target data guest.tree)
      fun _ guest => guest.restored = start := by
  refine syscall_ensures (fun _ calls met => (met.2.calls calls).restored)
    (fun _ calls _ met _ => (met.2.calls calls).restored) fun guest calls _ tree met done => ?_
  have named : guest.tree.find candidate = some (.regular base.freshInode) := by
    rw [met.1, WorkTree.find_entry (WorkTree.inside_of_none met.2.absent)]
    exact Table.find_put_self _ _ _
  rw [named] at done
  dsimp only at done
  split at done
  · cases done
  · obtain ⟨-, rfl⟩ := Prod.mk.inj (Except.ok.inj done)
    rw [met.1]
    exact renamed_replace inside met.2.absent

/-! ### The whole write -/

/-- Only the target and its missing parents have changed: the target is a new file with the bytes. -/
structure Wrote (start : WorkTree) (target : GuestPath) (data : Bytes) (after : WorkTree) : Prop where
  replaced : Replaceable start target
  written : ∃ inode, after.find target = some (.regular inode) ∧ after.contents.find inode = some data ∧
    ∀ path, after.find path = some (.regular inode) → path = target
  parents : ∀ path, path <+: target → path ≠ target → after.find path = some .directory
  others : ∀ path, path ≠ target → after.find path = start.find path ∨
    (start.find path = none ∧ path <+: target)
  contents : ∀ path inode, path ≠ target → after.find path = some (.regular inode) →
    after.contents.find inode = start.contents.find inode

section

variable {directory candidate : GuestPath} {name : String} {base after : WorkTree} {data : Bytes}

theorem ReadyTree.wrote (ready : ReadyTree start directory (directory ++ [name]) base)
    (renamed : Renamed base candidate (directory ++ [name]) data after) :
    Wrote start (directory ++ [name]) data after where
  replaced := by
    rcases ready.free with absent | ⟨inode, named, one⟩
    · refine .inl ?_
      rcases ready.entries (directory ++ [name]) with same | ⟨none, -⟩
      · exact same.symm.trans absent
      · exact none
    · refine .inr ⟨inode, ?_, fun path found => one path ?_⟩
      · rcases ready.entries (directory ++ [name]) with same | ⟨-, -, other⟩
        · exact same.symm.trans named
        · rw [other] at named
          cases named
      · rcases ready.entries path with same | ⟨none, -⟩
        · exact same.trans found
        · rw [none] at found
          cases found
  written := by
    refine ⟨base.freshInode, renamed.named, renamed.written, fun path found => ?_⟩
    by_contra other
    rw [renamed.others path other] at found
    have inside : path ≠ [] := by
      rintro rfl
      cases found
    rw [WorkTree.find_entry inside] at found
    exact WorkTree.freshInode_entries found
  parents := by
    intro path below other
    rw [renamed.others path other]
    exact ready.parents path ((List.prefix_concat_iff.mp below).resolve_left other)
  others := by
    intro path other
    rw [renamed.others path other]
    rcases ready.entries path with same | ⟨none, below, -⟩
    · exact .inl same
    · exact .inr ⟨none, below.trans (List.prefix_append _ _)⟩
  contents := by
    intro path inode other found
    rw [renamed.others path other] at found
    rw [renamed.contents path inode other found, ready.contents]

end

theorem attemptPut_ensures (parents : List String) (name : String) (data : Bytes) :
    Ensures (Under start [] []) (attemptPut weather parents name data)
      (fun _ guest => Wrote start (parents ++ [name]) data guest.tree) fun _ guest => guest.restored = start := by
  refine bind_ensures _ (enterAll_ensures [] parents) fun _ => ?_
  rw [List.nil_append]
  refine bind_ensures (fun guest state => guest.fd = parents ∧ Under start parents parents state)
    (get_ensures fun guest under => ⟨under.opened.fd, under⟩) fun guest => given_ensures fun fd => ?_
  rw [fd]
  refine bind_ensures _ inspect_ensures fun _ => ?_
  refine bind_ensures _ (quietCall_ensures (fun _ calls met => ⟨met.1, met.2.calls calls⟩)
    fun _ met => met.2.grown.restored) fun _ => ?_
  refine bind_ensures _ createFile_ensures fun inode => exists_ensures fun base => given_ensures fun known => ?_
  obtain ⟨ready, rfl⟩ := known
  refine bind_ensures (fun _ => Held start base _) (modify_ensures _ fun _ held => held) fun _ => ?_
  refine bind_ensures _ (fill_ensures data) fun _ => ?_
  exact ensures_imp (replaceFile_ensures (by simp)) (fun _ met => met) (fun _ _ renamed => ready.wrote renamed)
    fun _ _ back => back

theorem under_start (start : WorkTree) (calls : Nat) : Under start [] [] { tree := start, calls } where
  grown :=
    { temp := rfl
      back := rfl
      contents := rfl
      entries := fun _ => rfl
      made := fun _ member => absurd member List.not_mem_nil }
  opened :=
    { fd := rfl
      parents := fun path below => by
        rw [List.prefix_nil.mp below]
        exact WorkTree.find_root }

theorem checkedSegments_last {path : String} {target : GuestPath} (checked : checkedSegments path = some target) :
    target.dropLast ++ [target.getLast?.getD ""] = target := by
  unfold checkedSegments at checked
  split at checked
  · obtain rfl := Option.some.inj checked
    have some_ : pathSegments path ≠ [] := by
      simp [pathSegments, List.splitOn_ne_nil]
    rw [List.getLast?_eq_some_getLast some_, Option.getD_some, List.dropLast_append_getLast]
  · cases checked

theorem put_ensures (path : String) (data : Bytes) :
    Ensures (fun guest => guest = { tree := start, calls := guest.calls }) (put weather path data)
      (fun _ guest => ∃ target, checkedSegments path = some target ∧ Wrote start target data guest.tree)
      fun error guest => error = .refused → guest.tree = start := by
  unfold put
  split
  · refine throw_ensures _ fun guest same _ => ?_
    rw [same]
  next target checked =>
    refine bind_ensures (fun _ => Under start [] []) (syscall_ensures (fun _ _ _ other => ?_)
      (fun _ _ _ _ refused => by cases refused) fun guest calls _ tree same done => ?_) fun _ => ?_
    · cases other
    · obtain ⟨-, rfl⟩ := Prod.mk.inj (Except.ok.inj done)
      rw [same]
      exact under_start start calls
    · have whole := @attemptPut_ensures weather start target.dropLast (target.getLast?.getD "") data
      rw [checkedSegments_last checked] at whole
      refine lastly_ensures (handle_ensures whole fun _ => ensures_imp undo_ensures (fun _ back => back)
        (fun _ _ never => never.elim) fun _ _ ended => ended) (fun _ => ?_) fun error => ?_
      · exact ensures_imp closeAll_ensures (fun _ wrote => wrote) (fun _ _ wrote => ⟨target, checked, wrote⟩)
          fun _ _ closing other => absurd (closing.symm.trans other) (by decide)
      · refine ensures_imp (@closeAll_ensures weather fun tree => error = .refused → tree = start)
          (fun _ back => back) (fun _ _ back => back)
          fun _ _ closing other => absurd (closing.symm.trans other) (by decide)

/-- What the action ensures, with its reading and its printing. -/
theorem action_ensures (path : String) (data : Bytes) :
    Ensures (fun guest => guest = { tree := start }) (do
        quietCall weather
        put weather path data
        quietCall weather)
      (fun _ guest => ∃ target, checkedSegments path = some target ∧ Wrote start target data guest.tree)
      fun error guest => error = .refused → guest.tree = start := by
  refine bind_ensures (fun _ guest => guest = { tree := start, calls := guest.calls })
    (syscall_ensures (fun _ _ _ other => by cases other) (fun _ _ _ _ refused => by cases refused)
      fun guest calls _ tree same done => ?_) fun _ => bind_ensures _ (put_ensures path data) fun _ => ?_
  · obtain ⟨-, rfl⟩ := Prod.mk.inj (Except.ok.inj done)
    rw [same]
  · exact quietCall_ensures (fun _ _ wrote => wrote) fun _ _ other => by cases other

/-- The three exit codes, and what each of them tells. -/
theorem guestWrite_ends (traceback : Bytes) (path : String) (data : Bytes) :
    ((guestWrite weather traceback path data start).1.exitCode = 0 ∧
      ∃ target, checkedSegments path = some target ∧
        Wrote start target data (guestWrite weather traceback path data start).2) ∨
    ((guestWrite weather traceback path data start).1.exitCode = guestRefused ∧
      (guestWrite weather traceback path data start).2 = start) ∨
    (guestWrite weather traceback path data start).1.exitCode = 1 := by
  have ended := @action_ensures weather start path data { tree := start } rfl
  unfold guestWrite
  dsimp only
  split at ended
  next run =>
    rw [run]
    exact .inl ⟨rfl, ended⟩
  next error after run =>
    rw [run]
    cases error with
    | refused =>
      dsimp only
      split
      · exact .inr (.inr rfl)
      · exact .inr (.inl ⟨rfl, ended rfl⟩)
    | fileExists => exact .inr (.inr rfl)
    | fileNotFound => exact .inr (.inr rfl)
    | os => exact .inr (.inr rfl)
    | assertion => exact .inr (.inr rfl)

/-- The host reports a write as unchanged only when the guest has refused it. -/
theorem callResult_rejected [Decoders] {result : ProcessResult} {maxOutput : Nat} {error : ExecutionError}
    (failed : callResult result maxOutput (some "write") = .error error)
    (rejected : error.code = "WORKSPACE_TRANSFER_REJECTED") : result.exitCode = guestRefused := by
  unfold callResult at failed
  by_cases refused : ¬ (some "write" ≠ none ∧ result.exitCode = guestRefused ∧
      refusedMark.isPrefixOf result.stderr)
  · rw [Outcome.require_then refused] at failed
    dsimp only at failed
    have codes : ("PROVIDER_FAILED" : String) ≠ "WORKSPACE_TRANSFER_REJECTED" ∧
        ("OUTPUT_LIMIT" : String) ≠ "WORKSPACE_TRANSFER_REJECTED" := by decide
    by_cases zero : result.exitCode = 0
    · rw [Outcome.require_then zero] at failed
      split at failed
      · rw [if_neg (by decide)] at failed
        obtain rfl := Except.error.inj failed
        exact absurd rejected codes.2
      · cases failed
    · rw [Outcome.require, if_neg zero] at failed
      obtain rfl := Except.error.inj failed
      exact absurd rejected codes.1
  · exact (not_not.mp refused).2.1

theorem callResult_done [Decoders] {result : ProcessResult} {maxOutput : Nat} {output : Bytes}
    {guestAction : Option String} (done : callResult result maxOutput guestAction = .ok output) :
    result.exitCode = 0 := by
  obtain ⟨_, _, done⟩ := Outcome.bind_ok.mp done
  dsimp only at done
  obtain ⟨_, zero, _⟩ := Outcome.bind_ok.mp done
  exact Outcome.require_ok.mp zero

/-- A refusal has changed nothing, and neither has what the host reports as unchanged; a success has
written the bytes. -/
theorem guestWrite_atomic [Decoders] (weather : Weather) (traceback : Bytes) (path : String) (data : Bytes)
    (start : WorkTree) (maxOutput : Nat) :
    let ended := guestWrite weather traceback path data start
    (ended.1.exitCode = guestRefused → ended.2 = start) ∧
      (∀ error, callResult ended.1 maxOutput (some "write") = .error error →
        error.code = "WORKSPACE_TRANSFER_REJECTED" → ended.2 = start) ∧
      (ended.1.exitCode = 0 →
        ∃ target, checkedSegments path = some target ∧ Wrote start target data ended.2) ∧
      ∀ output, callResult ended.1 maxOutput (some "write") = .ok output →
        ∃ target, checkedSegments path = some target ∧ Wrote start target data ended.2 := by
  intro ended
  have ends : (ended.1.exitCode = 0 ∧ ∃ target, checkedSegments path = some target ∧
      Wrote start target data ended.2) ∨ (ended.1.exitCode = guestRefused ∧ ended.2 = start) ∨
      ended.1.exitCode = 1 := guestWrite_ends traceback path data
  have refused : ended.1.exitCode = guestRefused → ended.2 = start := by
    intro code
    rcases ends with ⟨other, -⟩ | ⟨-, same⟩ | other
    · exact absurd (code.symm.trans other) (by decide)
    · exact same
    · exact absurd (code.symm.trans other) (by decide)
  have wrote : ended.1.exitCode = 0 →
      ∃ target, checkedSegments path = some target ∧ Wrote start target data ended.2 := by
    intro code
    rcases ends with ⟨-, done⟩ | ⟨other, -⟩ | other
    · exact done
    · exact absurd (code.symm.trans other) (by decide)
    · exact absurd (code.symm.trans other) (by decide)
  exact ⟨refused, fun _ failed rejected => refused (callResult_rejected failed rejected), wrote,
    fun _ done => wrote (callResult_done done)⟩

namespace Scenario

/-- A workspace with one file under one directory. -/
def savedTree : WorkTree where
  entries := (Table.put ∅ ["notes", "old"] (Node.regular 1)).put ["notes"] .directory
  contents := Table.put ∅ 1 [7]

/-- The sync of the temporary file fails. -/
def brokenSync : Weather where
  fails call := call = 12
  torn _ := []
  urandom := "0123456789abcdef0123456789abcdef"

def calm : Weather := { brokenSync with fails := fun _ => false }

section

local instance guestDecoders : Decoders where
  loads _ := .tooDeep
  read _ := none
  decode _ := ""
  str _ := ""

/-- The directory and the temporary file were made, and both are gone. -/
theorem brokenSync_unchanged : (guestWrite brokenSync [] "lib/proof" [1, 2] savedTree).2 = savedTree ∧
    ∃ target, checkedSegments "lib/proof" = some target ∧
      Wrote savedTree target [1, 2] (guestWrite calm [] "lib/proof" [1, 2] savedTree).2 :=
  ⟨(guestWrite_atomic brokenSync [] "lib/proof" [1, 2] savedTree 65536).1 (by decide +kernel),
    (guestWrite_atomic calm [] "lib/proof" [1, 2] savedTree 65536).2.2.1 (by decide +kernel)⟩

end

end Scenario

end PhysHarness
