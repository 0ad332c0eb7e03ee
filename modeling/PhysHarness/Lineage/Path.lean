import PhysHarness.Lineage.Terminal

/-!
# A settled chain is a simple path

No check reads the path. The links are taken in the order of their ordinals, and each one is checked against
its two sessions and the link before it, which gives a walk. The walk has as many ids as the task has sessions
and names each of them, so it meets each of them once.

## Main result

`terminal_lineage_sound`: what the check accepts is a simple path for every task that has links.
-/
namespace PhysHarness
namespace TerminalLineage

open Outcome (require orThrow forEach bind_ok require_ok orThrow_ok forEach_ok)
open Python (Record FloatValue Key lookup key same sameItems truthy same_iff same_iff_of_key)

/-! ### Lists told apart by a field -/

/-- Two lists with the same elements and the same length, one of them without repetition. -/
theorem perm_of_toFinset {α : Type} [DecidableEq α] {first second : List α} (distinct : second.Nodup)
    (equal : first.toFinset = second.toFinset) (length : first.length = second.length) :
    first.Perm second := by
  have card : Multiset.card (first : Multiset α).toFinset.val = Multiset.card (first : Multiset α) := by
    rw [Multiset.coe_card, length, ← List.toFinset_card_of_nodup distinct, ← equal]
    rfl
  have once : (first : Multiset α).Nodup := Multiset.toFinset_card_eq_card_iff_nodup.mp card
  exact List.perm_of_nodup_nodup_toFinset_eq (Multiset.coe_nodup.mp once) distinct equal

/-- Lists of elements that are told apart by a field are the same when their fields are. -/
theorem perm_of_map {α β : Type} {field : α → β} {all first second : List α}
    (distinct : (all.map field).Nodup) (firstInside : ∀ a ∈ first, a ∈ all)
    (secondInside : ∀ a ∈ second, a ∈ all) (once : (second.map field).Nodup)
    (perm : (first.map field).Perm (second.map field)) : first.Perm second := by
  have each : ∀ {some other : List α}, (∀ a ∈ some, a ∈ all) → (∀ a ∈ other, a ∈ all) →
      (∀ b ∈ some.map field, b ∈ other.map field) → ∀ a ∈ some, a ∈ other := by
    intro some other someInside otherInside fields a member
    obtain ⟨b, listed, equal⟩ := List.mem_map.mp (fields _ (List.mem_map_of_mem member))
    exact List.inj_on_of_nodup_map distinct (otherInside b listed) (someInside a member) equal ▸ listed
  refine (List.perm_ext_iff_of_nodup (perm.nodup_iff.mpr once).of_map once.of_map).mpr fun a =>
    ⟨each firstInside secondInside (fun b => perm.mem_iff.mp) a,
      each secondInside firstInside (fun b => perm.mem_iff.mpr) a⟩

section

variable [FloatValue]

/-! ### What is accepted -/

/-- The records of a list that name the task. -/
def ofTask (task : Record) (records : List Record) : List Record :=
  records.filter fun record => same (lookup record "task_id") (lookup task "id")

/-- The link was issued and consumed between the starts of the sessions. -/
def Timed [IsoFormat] (link source successor : Record) : Prop :=
  ∃ started issued consumed next, moment source "created_at" = .ok started ∧
    moment link "issued_at" = .ok issued ∧ moment link "consumed_at" = .ok consumed ∧
    moment successor "created_at" = .ok next ∧
    (started.aware = issued.aware ∧ issued.aware = consumed.aware ∧ consumed.aware = next.aware) ∧
    started.instant < issued.instant ∧ issued.instant ≤ consumed.instant ∧
      consumed.instant < next.instant

/-- A link joins two sessions. -/
structure Joins [IsoFormat] (number : Nat) (link source successor : Record) : Prop where
  ordinal : same (lookup link "ordinal") (.int number) = true
  leaves : ∃ id, key (lookup link "source_session_record_id") = some id ∧ idKey source = some id
  reaches : ∃ id, key (lookup link "successor_record_id") = some id ∧ idKey successor = some id
  handedOff : same (lookup source "status") (.str "handed_off") = true
  timed : Timed link source successor

/-- Sessions and the links between them, counted from a number on, up to a session that ended. -/
inductive Path [IsoFormat] : Nat → List Record → List Record → Prop where
  | last {number : Nat} {link source successor : Record} : Joins number link source successor →
      same (lookup successor "status") (.str "completed") = true ∨
        same (lookup successor "status") (.str "failed") = true →
      Path number [link] [source, successor]
  | next {number : Nat} {link source successor : Record} {links sessions : List Record} :
      Joins number link source successor → Path (number + 1) links (successor :: sessions) →
      Path number (link :: links) (source :: successor :: sessions)

/-- The sessions of the task are one simple path along its links. -/
structure OnePath [IsoFormat] (task : Record) (sessions links path chain : List Record) : Prop where
  sessions : path.Perm (ofTask task sessions)
  links : chain.Perm (ofTask task links)
  simple : (path.map idKey).Nodup
  length : path.length = chain.length + 1
  path : Path 1 chain path
  consumed : ∃ consumed, lookup task "consumed_continuation" = .obj consumed ∧
    ∀ last ∈ chain.getLast?, ∀ field ∈ consumedFields, same (lookup consumed field) (lookup last field) = true

/-! ### What the parts of the check have checked -/

omit [FloatValue] in
theorem check_ok {condition : Prop} [Decidable condition] {code : String} {u : Unit} :
    check condition code = .ok u ↔ condition := require_ok

omit [FloatValue] in
theorem index_ok {record : Record} {field : String} {value : Json} :
    index record field = .ok value ↔ Dict.get record field = some value := orThrow_ok

theorem hashed_ok {value : Json} {id : Key} : hashed value = .ok id ↔ key value = some id := orThrow_ok

omit [FloatValue] in
theorem get_of_index {record : Record} {field : String} {value : Json}
    (found : index record field = .ok value) : lookup record field = value := by
  rw [lookup, index_ok.mp found, Option.getD_some]

theorem select_ok {field : String} {value : Json} {records found : List Record}
    (selected : select field value records = .ok found) :
    found = records.filter fun record => same (lookup record field) value := by
  induction records generalizing found with
  | nil => exact (Except.ok.inj selected).symm
  | cons record records ih =>
    obtain ⟨own, read, selected⟩ := bind_ok.mp selected
    obtain ⟨rest, later, selected⟩ := bind_ok.mp selected
    obtain rfl := Except.ok.inj selected
    rw [List.filter_cons, get_of_index read, ih later]

/-- A field that every record has is read as the keys of its values. -/
theorem hashes_index {field : String} {records : List Record} {ids : List Key}
    (found : hashes (fun record => index record field) records = .ok ids) :
    (records.map fun record => key (lookup record field)) = ids.map some := by
  rw [hashes] at found
  induction records generalizing ids with
  | nil =>
    obtain rfl := Except.ok.inj found
    rfl
  | cons record records ih =>
    rw [List.mapM_cons] at found
    obtain ⟨id, first, found⟩ := bind_ok.mp found
    obtain ⟨rest, later, found⟩ := bind_ok.mp found
    obtain rfl := Except.ok.inj found
    obtain ⟨value, read, hash⟩ := bind_ok.mp first
    rw [List.map_cons, List.map_cons, ih later, get_of_index read, hashed_ok.mp hash]

theorem sortedByOrdinal_perm {links sorted : List Record} (found : sortedByOrdinal links = .ok sorted) :
    sorted.Perm links := by
  obtain ⟨ordinals, -, found⟩ := bind_ok.mp found
  split at found
  · obtain rfl := Except.ok.inj found
    exact List.perm_insertionSort _ _
  split at found
  · obtain rfl := Except.ok.inj found
    exact .refl _
  · cases found

theorem sessionById_some {sessions : List Record} {id : Key} {session : Record}
    (found : sessionById sessions id = some session) : session ∈ sessions ∧ idKey session = some id := by
  rw [sessionById] at found
  have same := List.find?_some found
  exact ⟨List.mem_of_find?_eq_some found, of_decide_eq_true same⟩

omit [FloatValue] in
theorem caught_ok {α : Type} {result : Checked α} {value : α} : caught result = .ok value ↔ result = .ok value := by
  cases result with
  | ok found => exact Iff.rfl
  | error stop => cases stop <;> exact ⟨nofun, nofun⟩

variable {evidence : Evidence}

/-- The link leads from a session of the task that was handed off to another one of the task. -/
structure Links (sessions : List Record) (task link source successor : Record) : Prop where
  source_mem : source ∈ ofTask task sessions
  successor_mem : successor ∈ ofTask task sessions
  leaves : ∃ id, key (lookup link "source_session_record_id") = some id ∧ idKey source = some id
  reaches : ∃ id, key (lookup link "successor_record_id") = some id ∧ idKey successor = some id
  handedOff : same (lookup source "status") (.str "handed_off") = true

theorem linkedSessions_ok {sessions : List Record} {task link source successor : Record}
    (passed : linkedSessions evidence sessions task link = .ok (source, successor)) :
    Links sessions task link source successor := by
  obtain ⟨own, task_id, passed⟩ := bind_ok.mp passed
  obtain ⟨sourceId, sourceKey, passed⟩ := bind_ok.mp passed
  obtain ⟨successorId, successorKey, passed⟩ := bind_ok.mp passed
  obtain ⟨_, -, passed⟩ := bind_ok.mp passed
  obtain ⟨_, -, passed⟩ := bind_ok.mp passed
  obtain ⟨_, -, passed⟩ := bind_ok.mp passed
  obtain ⟨first, foundSource, passed⟩ := bind_ok.mp passed
  obtain ⟨second, foundSuccessor, passed⟩ := bind_ok.mp passed
  obtain ⟨_, sourceTask, passed⟩ := bind_ok.mp passed
  obtain ⟨_, successorTask, passed⟩ := bind_ok.mp passed
  obtain ⟨_, status, passed⟩ := bind_ok.mp passed
  -- the other fields do not matter for the path
  simp only [bind_ok] at passed
  obtain ⟨_, -, _, -, _, -, _, -, _, -, _, -, _, -, _, -, passed⟩ := passed
  obtain ⟨rfl, rfl⟩ := Prod.mk.inj (Except.ok.inj passed)
  obtain ⟨sourceMem, sourceFound⟩ := sessionById_some (orThrow_ok.mp foundSource)
  obtain ⟨successorMem, successorFound⟩ := sessionById_some (orThrow_ok.mp foundSuccessor)
  have task_same := get_of_index task_id
  exact ⟨List.mem_filter.mpr ⟨sourceMem, task_same ▸ check_ok.mp sourceTask⟩,
    List.mem_filter.mpr ⟨successorMem, task_same ▸ check_ok.mp successorTask⟩,
    ⟨sourceId, hashed_ok.mp sourceKey, sourceFound⟩,
    ⟨successorId, hashed_ok.mp successorKey, successorFound⟩, check_ok.mp status⟩

omit [FloatValue] in
theorem earlier_ok {first second : Moment} {before : Bool} (compared : earlier first second = .ok before) :
    first.aware = second.aware ∧ before = decide (first.instant < second.instant) := by
  unfold earlier at compared
  split at compared
  next same => exact ⟨same, (Except.ok.inj compared).symm⟩
  next => cases compared

variable [IsoFormat]

omit [FloatValue] in
theorem timed_ok {link source successor : Record} (passed : timed link source successor = .ok ()) :
    Timed link source successor := by
  obtain ⟨started, readStarted, passed⟩ := bind_ok.mp passed
  obtain ⟨issued, readIssued, passed⟩ := bind_ok.mp passed
  obtain ⟨first, comparedFirst, passed⟩ := bind_ok.mp passed
  obtain ⟨_, before, passed⟩ := bind_ok.mp passed
  obtain ⟨consumed, readConsumed, passed⟩ := bind_ok.mp passed
  obtain ⟨second, comparedSecond, passed⟩ := bind_ok.mp passed
  obtain ⟨_, between, passed⟩ := bind_ok.mp passed
  obtain ⟨next, readNext, passed⟩ := bind_ok.mp passed
  obtain ⟨third, comparedThird, after⟩ := bind_ok.mp passed
  obtain ⟨awareFirst, rfl⟩ := earlier_ok comparedFirst
  obtain ⟨awareSecond, rfl⟩ := earlier_ok comparedSecond
  obtain ⟨awareThird, rfl⟩ := earlier_ok comparedThird
  refine ⟨started, issued, consumed, next, readStarted, readIssued, readConsumed, readNext,
    ⟨awareFirst, awareSecond.symm, awareThird⟩, of_decide_eq_true (check_ok.mp before), ?_,
    of_decide_eq_true (check_ok.mp after)⟩
  exact not_lt.mp (of_decide_eq_false (check_ok.mp between))

omit [IsoFormat] in
/-- A status that is looked up among texts is one of them. -/
theorem same_of_status {status : Json} {found : Key} {text : String} (hash : hashed status = .ok found)
    (named : found = .text text) : same status (.str text) = true :=
  (same_iff (hashed_ok.mp hash) _).mpr (by rw [named]; rfl)

omit [IsoFormat] in
theorem joined_ok {previous : Option Record} {last : Bool} {source successor : Record}
    (passed : joined previous last source successor = .ok ()) :
    (∀ before ∈ previous, ∃ id, Dict.get source "id" = some id ∧
      same (lookup before "successor_record_id") id = true) ∧
    (last = true → same (lookup successor "status") (.str "completed") = true ∨
      same (lookup successor "status") (.str "failed") = true) := by
  obtain ⟨_, first, passed⟩ := bind_ok.mp passed
  obtain ⟨status, read, passed⟩ := bind_ok.mp passed
  constructor
  · rintro before ⟨⟩
    obtain ⟨id, found, equal⟩ := bind_ok.mp first
    exact ⟨id, index_ok.mp found, check_ok.mp equal⟩
  · rintro rfl
    obtain ⟨found, hash, named⟩ := bind_ok.mp passed
    rw [get_of_index read]
    rcases List.mem_cons.mp (check_ok.mp named) with completed | failed
    · exact .inl (same_of_status hash completed)
    · exact .inr (same_of_status hash (List.mem_singleton.mp failed))

variable [ByteHash]

/-- The loop over the links walks a path of sessions of the task. -/
theorem linked_path {sessions links : List Record} {task : Record} {previous : Option Record}
    {number : Nat} (distinct : (sessions.map idKey).Nodup)
    (ordinals : sameItems (links.map fun link => lookup link "ordinal")
      ((List.range' number links.length).map fun (n : Nat) => Json.int n) = true)
    (some : links ≠ []) (passed : linked evidence sessions task previous links = .ok ()) :
    ∃ first path, Path number links (first :: path) ∧
      (∀ session ∈ first :: path, session ∈ ofTask task sessions) ∧
      ∀ before ∈ previous, ∃ id, Dict.get first "id" = Option.some id ∧
        same (lookup before "successor_record_id") id = true := by
  induction links generalizing previous number with
  | nil => exact absurd rfl some
  | cons link links ih =>
    obtain ⟨⟨source, successor⟩, sessionsFound, passed⟩ := bind_ok.mp passed
    obtain ⟨_, goesOn, passed⟩ := bind_ok.mp passed
    obtain ⟨_, times, passed⟩ := bind_ok.mp passed
    obtain ⟨_, -, passed⟩ := bind_ok.mp passed
    obtain ⟨_, -, passed⟩ := bind_ok.mp passed
    have two := linkedSessions_ok sessionsFound
    obtain ⟨behind, ends⟩ := joined_ok goesOn
    rw [List.map_cons, List.length_cons, List.range'_succ, List.map_cons, sameItems,
      Bool.and_eq_true] at ordinals
    have joins : Joins number link source successor :=
      ⟨ordinals.1, two.leaves, two.reaches, two.handedOff, timed_ok times⟩
    cases links with
    | nil =>
      refine ⟨source, [successor], .last joins (ends rfl), ?_, behind⟩
      simp only [List.forall_mem_cons]
      exact ⟨two.source_mem, two.successor_mem, List.forall_mem_nil _⟩
    | cons next rest =>
      obtain ⟨first, path, follows, inside, after⟩ := ih ordinals.2 (List.cons_ne_nil _ _) passed
      -- both are found under the id that the link names
      obtain ⟨id, known, reached⟩ := two.reaches
      obtain ⟨value, read, equal⟩ := after link rfl
      have keys : idKey first = idKey successor := by
        rw [reached, idKey, lookup, read, Option.getD_some]
        exact (same_iff known _).mp equal
      have firstMem := List.mem_of_mem_filter (inside first List.mem_cons_self)
      obtain rfl : first = successor := List.inj_on_of_nodup_map distinct firstMem
        (List.mem_of_mem_filter two.successor_mem) keys
      exact ⟨source, first :: path, .next joins follows,
        List.forall_mem_cons.mpr ⟨two.source_mem, inside⟩, behind⟩

omit [ByteHash] in
theorem Path.length_eq {number : Nat} {links path : List Record} (follows : Path number links path) :
    path.length = links.length + 1 := by
  induction follows with
  | last _ _ => rfl
  | next _ _ ih => rw [List.length_cons, ih, List.length_cons]

omit [ByteHash] in
/-- The ids on a path are those from which its links lead, and the one that the last link reaches. -/
theorem Path.ids {number : Nat} {links path : List Record} (follows : Path number links path)
    {last : Record} (ends : links.getLast? = some last) :
    path.map idKey = (links.map fun link => key (lookup link "source_session_record_id")) ++
      [key (lookup last "successor_record_id")] := by
  induction follows with
  | @last _ link _ _ joins _ =>
    obtain rfl : link = last := Option.some.inj ends
    obtain ⟨start, named, found⟩ := joins.leaves
    obtain ⟨goal, reached, next⟩ := joins.reaches
    simp only [List.map_cons, List.map_nil, named, found, reached, next, List.singleton_append]
  | @next _ link _ _ links _ joins follows ih =>
    obtain ⟨start, named, found⟩ := joins.leaves
    have later : links.getLast? = some last := by
      cases links with
      | nil => cases follows
      | cons => exact ends
    rw [List.map_cons, ih later, List.map_cons, List.cons_append, named, found]

omit [ByteHash] in
theorem Path.last_ordinal {number : Nat} {links path : List Record} (follows : Path number links path)
    {last : Record} (ends : links.getLast? = some last) :
    ∃ n : Nat, same (lookup last "ordinal") (.int n) = true := by
  induction follows with
  | @last number link _ _ joins _ =>
    obtain rfl : link = last := Option.some.inj ends
    exact ⟨number, joins.ordinal⟩
  | @next _ _ _ _ links _ _ follows ih =>
    cases links with
    | nil => cases follows
    | cons => exact ih ends

/-! ### Walks that name every session -/

/-- The loop's walk is the path that the claim of the check needs, once it names every session. -/
theorem continued_onePath {sessions links taskLinks : List Record} {task last : Record}
    (distinct : (sessions.map idKey).Nodup) (perm : taskLinks.Perm (ofTask task links))
    (ends : taskLinks.getLast? = some last)
    (passed : continued evidence sessions task (ofTask task sessions) taskLinks last = .ok ()) :
    ∃ path chain, OnePath task sessions links path chain := by
  obtain ⟨_, -, passed⟩ := bind_ok.mp passed
  obtain ⟨_, -, passed⟩ := bind_ok.mp passed
  obtain ⟨_, -, passed⟩ := bind_ok.mp passed
  obtain ⟨_, -, passed⟩ := bind_ok.mp passed
  obtain ⟨_, ordinals, passed⟩ := bind_ok.mp passed
  obtain ⟨_, count, passed⟩ := bind_ok.mp passed
  obtain ⟨_, walked, passed⟩ := bind_ok.mp passed
  obtain ⟨sources, leaving, passed⟩ := bind_ok.mp passed
  obtain ⟨final, reaching, passed⟩ := bind_ok.mp passed
  obtain ⟨ids, known, passed⟩ := bind_ok.mp passed
  obtain ⟨_, named, passed⟩ := bind_ok.mp passed
  obtain ⟨consumed, agreed, passed⟩ := bind_ok.mp passed
  have nonempty : taskLinks ≠ [] := by
    rintro rfl
    cases ends
  obtain ⟨first, path, follows, inside, -⟩ := linked_path distinct (check_ok.mp ordinals) nonempty walked
  have taskIds := hashes_index known
  have once : ((ofTask task sessions).map idKey).Nodup :=
    distinct.sublist (List.filter_sublist.map idKey)
  have idsOnce : ids.Nodup := by
    refine List.Nodup.of_map some ?_
    rw [← taskIds]
    exact once
  -- the ids on the path are those that the check collects
  have onPath : (first :: path).map idKey = (sources ++ [final]).map some := by
    have reached : key (lookup last "successor_record_id") = some final := by
      obtain ⟨value, read, hash⟩ := bind_ok.mp reaching
      rw [get_of_index read]
      exact hashed_ok.mp hash
    rw [follows.ids ends, reached, hashes_index leaving, List.map_append]
    rfl
  have length : (sources ++ [final]).length = ids.length := by
    have pathLength := congrArg List.length onPath
    have idsLength := congrArg List.length taskIds
    rw [List.length_map, List.length_map] at pathLength idsLength
    rw [← pathLength, ← idsLength, follows.length_eq, check_ok.mp count]
  have permIds := (perm_of_toFinset idsOnce (check_ok.mp named) length).map some
  rw [← onPath, ← taskIds] at permIds
  have sessionsPerm := perm_of_map distinct
    (fun session member => List.mem_of_mem_filter (inside session member))
    (fun session member => List.mem_of_mem_filter member) once permIds
  refine ⟨first :: path, taskLinks, sessionsPerm, perm, permIds.nodup_iff.mpr once, follows.length_eq,
    follows, ?_⟩
  have each : ∀ field ∈ consumedFields, same (lookup consumed field) (lookup last field) = true :=
    fun field member => check_ok.mp (forEach_ok.mp passed field member)
  unfold orEmpty at agreed
  split at agreed
  next =>
    have fields := orThrow_ok.mp agreed
    cases found : lookup task "consumed_continuation" with
    | obj others =>
      rw [found] at fields
      obtain rfl := Option.some.inj fields
      refine ⟨others, rfl, fun link member => ?_⟩
      rw [ends] at member
      obtain rfl := Option.some.inj member
      exact each
    | _ => rw [found] at fields; cases fields
  next =>
    -- a task that names no ordinal does not agree with a link
    obtain rfl := Except.ok.inj agreed
    obtain ⟨n, numbered⟩ := follows.last_ordinal ends
    have none := (same_iff (show key .null = some .none from rfl) _).mp (each "ordinal" (by decide))
    have number := (same_iff_of_key (show key (.int n) = some (.number n) from rfl) _).mp numbered
    rw [none] at number
    cases number

omit [IsoFormat] in
/-- What the check of a task without links has found. -/
theorem standalone_ok {task : Record} {taskSessions : List Record}
    (passed : standalone evidence task taskSessions = .ok ()) :
    truthy ((Dict.get task "continuation_count").getD (.int 0)) = false ∧
      ∀ session ∈ taskSessions, same (lookup session "status") (.str "handed_off") = false := by
  obtain ⟨_, unlinked, passed⟩ := bind_ok.mp passed
  obtain ⟨_, settled, -⟩ := bind_ok.mp passed
  exact ⟨(check_ok.mp unlinked).2, check_ok.mp settled⟩

/-- **Accepted evidence is a simple path for each task that has links.** Its sessions, each of them once, are
joined by its links in the order of their ordinals 1, ..., n; all but the last were handed off, and the last
completed or failed; each link was issued and consumed between the starts of its two sessions, and the task
repeats its last link. A task without links has no session that was handed off, and no count. -/
theorem terminal_lineage_sound {tasks sessions links : List Record}
    (passed : validateTerminalLineage evidence tasks sessions links = .ok ()) :
    ∀ task ∈ tasks,
      (ofTask task links ≠ [] → ∃ path chain, OnePath task sessions links path chain) ∧
      (ofTask task links = [] →
        truthy ((Dict.get task "continuation_count").getD (.int 0)) = false ∧
          ∀ session ∈ ofTask task sessions, same (lookup session "status") (.str "handed_off") = false) := by
  intro task member
  obtain ⟨_, -, passed⟩ := bind_ok.mp passed
  obtain ⟨_, -, passed⟩ := bind_ok.mp passed
  obtain ⟨taskIds, -, passed⟩ := bind_ok.mp (caught_ok.mp passed)
  obtain ⟨sessionIds, known, passed⟩ := bind_ok.mp passed
  obtain ⟨_, distinct, passed⟩ := bind_ok.mp passed
  obtain ⟨_, -, passed⟩ := bind_ok.mp passed
  obtain ⟨_, -, passed⟩ := bind_ok.mp passed
  obtain ⟨_, -, passed⟩ := bind_ok.mp passed
  obtain ⟨_, -, passed⟩ := bind_ok.mp passed
  obtain ⟨own, task_id, passed⟩ := bind_ok.mp (forEach_ok.mp passed task member)
  obtain ⟨found, selected, passed⟩ := bind_ok.mp passed
  obtain ⟨taskLinks, sorted, passed⟩ := bind_ok.mp passed
  obtain ⟨taskSessions, listed, passed⟩ := bind_ok.mp passed
  have task_same := get_of_index task_id
  obtain rfl : found = ofTask task links := by rw [select_ok selected, ofTask, task_same]
  obtain rfl : taskSessions = ofTask task sessions := by rw [select_ok listed, ofTask, task_same]
  have perm := sortedByOrdinal_perm sorted
  have once : (sessions.map idKey).Nodup := by
    rw [show sessions.map idKey = sessionIds.map some from hashes_index known]
    exact (check_ok.mp distinct).2.map (Option.some_injective _)
  cases ends : taskLinks.getLast? with
  | none =>
    have empty : taskLinks = [] := List.getLast?_eq_none_iff.mp ends
    rw [ends] at passed
    exact ⟨fun some => absurd (empty ▸ perm).nil_eq.symm some, fun _ => standalone_ok passed⟩
  | some last =>
    rw [ends] at passed
    refine ⟨fun _ => continued_onePath once perm ends passed, fun none => ?_⟩
    rw [none] at perm
    rw [perm.eq_nil] at ends
    cases ends

end

namespace Scenario

def timeoutText : List Char := ['6', '0', '0', '.', '0']

theorem timeout_reads : (timeoutText.all JsonNumber.isNumberChar && JsonNumber.isNumber timeoutText &&
    !(JsonNumber.fraction timeoutText).isEmpty) = true := by decide

def timeout : FloatText := ⟨timeoutText, timeout_reads⟩

local instance sampleValue : FloatValue := ⟨fun _ => 600⟩

local instance sampleFormat : IsoFormat where
  read text :=
    if text = "2026-09-24T10:00:00+00:00" then some ⟨true, 1790244000000000⟩
    else if text = "2026-09-24T11:00:00+00:00" then some ⟨true, 1790247600000000⟩
    else if text = "2026-09-24T11:00:01+00:00" then some ⟨true, 1790247601000000⟩
    else if text = "2026-09-24T12:00:00+00:00" then some ⟨true, 1790251200000000⟩
    else none

theorem model_exact : exactNonempty "gpt" = true := by decide

theorem no_parameters : Json.isDict (.obj []) = true := by decide

theorem limits_bounds : (1 ≤ 4 ∧ 4 ≤ 1000) ∧ 1 ≤ 100 ∧
    (∀ tokens ∈ (none : Option Nat), 1 ≤ tokens) ∧ ∀ tokens ∈ (none : Option Nat), 1 ≤ tokens := by
  simp

def session (id : String) (status : SessionStatus) : RuntimeSession where
  id := id
  runtime := "openai_responses"
  model := ⟨"gpt", [], model_exact, no_parameters⟩
  limits := ⟨4, 100, none, none, timeout, limits_bounds⟩
  status := status
  nativeSessionId := none
  turns := 1
  inputTokens := 0
  outputTokens := 0

/-- A stored checkpoint with the digest of its text. -/
structure Stored where
  checkpoint : RuntimeCheckpoint
  sha256 : Digest

/-- The text of a stored checkpoint. -/
def Stored.content (item : Stored) : Bytes :=
  ["\x7b\"state_digest\":\"", item.checkpoint.stateDigest, "\",\"version\":1,",
    "\"native_state\":\x7b\"settled_boundary\":true\x7d,", "\"session\":\x7b\"id\":\"",
    item.checkpoint.session.id, "\",\"status\":\"", item.checkpoint.session.status.text,
    "\",\"turns\":1,", "\"input_tokens\":0,\"output_tokens\":0,", "\"runtime\":\"openai_responses\",",
    "\"native_session_id\":null,", "\"model\":\x7b\"model\":\"gpt\",\"parameters\":\x7b\x7d\x7d,",
    "\"limits\":\x7b\"max_turns\":4,\"max_output_tokens\":100,",
    "\"max_total_tokens\":null,\"max_context_tokens\":null,",
    "\"timeout_seconds\":600.0\x7d\x7d\x7d"].flatMap Bytes.utf8

def nativeState : List (String × Json) := [("settled_boundary", .bool true)]

def handedOff : Stored where
  checkpoint := ⟨session "native-1" .handedOff, nativeState,
    "835d3f854d87abd46cd4191be4eb7bfd44ec6f4bcef76e882e8b321b22de8da9", by decide⟩
  sha256 := "00dd09b89d6f9f3517834fe515d09c358fd3be018e2a2e3c7b6ed4d44e6ead0c"

def completed : Stored where
  checkpoint := ⟨session "native-2" .completed, nativeState,
    "08d78ffac6d5aee085d998b040d2434826064706a580dcc4b47f640ce4477191", by decide⟩
  sha256 := "8e4bc27b51cd3598726f9f9e4696cc5a064a61baec43cf8d7a4c8036350fca17"

def failed : Stored where
  checkpoint := ⟨session "native-1" .failed, nativeState,
    "bfcbe306b5ce7204d80263f1ab0deb8ca713ff327c03e4b41757ecc1f25e74ac", by decide⟩
  sha256 := "604fb13141a4fa597770fd9b43f608a64ca464b9f2daa72ec285248af8b81aee"

/-- The first bytes, which begin with the state digest, tell the three texts apart. -/
def stored (content : Bytes) : Option Stored :=
  [handedOff, completed, failed].find? fun item => content.take 24 = item.content.take 24

local instance sampleHash : ByteHash := ⟨fun content => ((stored content).map Stored.sha256).getD ""⟩

def artifact (id native : String) (item : Stored) : Key × Record :=
  (.text id, [("id", .str id), ("artifact_kind", .str "native_checkpoint"),
    ("experiment_id", .str "experiment"), ("sha256", .str item.sha256),
    ("provenance", .obj [("task_id", .str "task"), ("session_id", .str native)])])

/-- The artifacts of two sessions. -/
def evidenceOf (first second : Stored) : Evidence where
  artifacts := [artifact "artifact-1" "native-1" first, artifact "artifact-2" "native-2" second]
  artifactContent id :=
    if asText id = some "artifact-1" then .ok first.content
    else if asText id = some "artifact-2" then .ok second.content
    else .error .other
  decode raw _ := orThrow ((stored raw).map Stored.checkpoint) .other
  experimentId := .str "experiment"
  scope := []

def sessionRecord (n created : String) (status : SessionStatus) : Record :=
  [("id", .str ("session-" ++ n)), ("experiment_id", .str "experiment"), ("task_id", .str "task"),
    ("native_record_id", .str ("native-" ++ n)), ("status", .str status.text),
    ("checkpoint_artifact_id", .str ("artifact-" ++ n)), ("created_at", .str created)]

/-- What a task repeats of its last link. -/
def consumedLink : Record :=
  [("ordinal", .int 1), ("source_session_id", .str "native-1"),
    ("source_checkpoint_digest", .str handedOff.checkpoint.stateDigest),
    ("successor_model", handedOff.checkpoint.session.model.dump),
    ("successor_runtime", .str "openai_responses"),
    ("successor_runtime_limits", handedOff.checkpoint.session.limits.dump), ("holder", .str "worker"),
    ("fence", .int 2), ("consumed_at", .str "2026-09-24T11:00:01+00:00")]

def link : Record := consumedLink ++
  [("experiment_id", .str "experiment"), ("task_id", .str "task"), ("status", .str "started"),
    ("source_session_record_id", .str "session-1"), ("successor_record_id", .str "session-2"),
    ("successor_session_id", .str "native-2"), ("source_checkpoint_artifact_id", .str "artifact-1"),
    ("source_model", handedOff.checkpoint.session.model.dump), ("source_runtime", .str "openai_responses"),
    ("source_runtime_limits", handedOff.checkpoint.session.limits.dump),
    ("issued_at", .str "2026-09-24T11:00:00+00:00")]

def task : Record :=
  [("id", .str "task"), ("experiment_id", .str "experiment"), ("status", .str "completed")]

def continuedTask : Record :=
  task ++ [("continuation_count", .int 1), ("consumed_continuation", .obj consumedLink)]

def sessions : List Record :=
  [sessionRecord "2" "2026-09-24T12:00:00+00:00" .completed,
    sessionRecord "1" "2026-09-24T10:00:00+00:00" .handedOff]

/-- One handoff from a session to the one that completed the task. -/
theorem handoff_one_path : ∃ path chain, OnePath continuedTask sessions [link] path chain := by
  have passed : validateTerminalLineage (evidenceOf handedOff completed) [continuedTask] sessions
      [link] = .ok () := by decide +kernel
  have linked : ofTask continuedTask [link] ≠ [] := by decide
  exact (terminal_lineage_sound passed continuedTask List.mem_cons_self).1 linked

/-- A task without links may have had several sessions, which no path joins. -/
theorem standalone_sessions : ¬ ∀ (evidence : Evidence) (tasks sessions links : List Record),
    validateTerminalLineage evidence tasks sessions links = .ok () → ∀ task ∈ tasks,
      (ofTask task sessions).length = (ofTask task links).length + 1 := by
  intro sound
  have passed : validateTerminalLineage (evidenceOf failed completed) [task]
      [sessionRecord "1" "2026-09-24T10:00:00+00:00" .failed,
        sessionRecord "2" "2026-09-24T12:00:00+00:00" .completed] [] = .ok () := by decide
  exact absurd (sound _ _ _ _ passed task List.mem_cons_self) (by decide)

end Scenario

end TerminalLineage
end PhysHarness
