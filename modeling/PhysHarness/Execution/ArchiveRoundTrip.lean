import PhysHarness.Execution.WorkspaceArchive

/-!
# Workspace archives read back

The chunks of an archive are a dictionary from digests to contents. It is enough that no two
different chunks of the same files share a digest; nothing is assumed of other contents.

## Main result

`archives_read_back`: what is built is accepted under its quota and gives the files and the
exclusions back; what is accepted is what its files and exclusions build.
-/
namespace PhysHarness
namespace WorkspaceArchive

open Outcome Json

/-! ### The chunks of the files -/

section

variable [ByteHash]

/-- The dictionary holds exactly the parts that it has been given. -/
structure Holds (given : List Bytes) (chunks : Chunks) : Prop where
  distinct : (chunks.map Prod.fst).Nodup
  digest : ∀ chunk ∈ chunks, ByteHash.sha256 chunk.2 = chunk.1
  used : ∀ chunk ∈ chunks, chunk.2 ∈ given
  covers : ∀ part ∈ given, ByteHash.sha256 part ∈ chunks.map Prod.fst

theorem Holds.set {given : List Bytes} {chunks : Chunks} (holds : Holds given chunks) (part : Bytes) :
    Holds (given ++ [part]) (Dict.set chunks (ByteHash.sha256 part) part) where
  distinct := Dict.nodup_set holds.distinct _ _
  digest chunk member := by
    rcases Dict.mem_set.mp member with rfl | ⟨there, -⟩
    · rfl
    · exact holds.digest chunk there
  used chunk member := by
    rcases Dict.mem_set.mp member with rfl | ⟨there, -⟩
    · exact List.mem_append_right _ (List.mem_singleton.mpr rfl)
    · exact List.mem_append_left _ (holds.used chunk there)
  covers other member := by
    rcases List.mem_append.mp member with before | last
    · by_cases same : ByteHash.sha256 other = ByteHash.sha256 part
      · rw [same]
        exact Dict.mem_keys_of_get (Dict.get_set_self chunks _ part)
      · obtain ⟨chunk, there, named⟩ := List.mem_map.mp (holds.covers other before)
        exact List.mem_map.mpr ⟨chunk, Dict.mem_set.mpr (.inr ⟨there, named ▸ same⟩), named⟩
    · obtain rfl := List.mem_singleton.mp last
      exact Dict.mem_keys_of_get (Dict.get_set_self chunks _ other)

theorem Holds.addFile {given : List Bytes} {chunks : Chunks} (holds : Holds given chunks)
    (file : String × Bytes) : Holds (given ++ parts file.2) (addFile chunks file) := by
  unfold WorkspaceArchive.addFile
  induction parts file.2 generalizing given chunks with
  | nil => rwa [List.append_nil]
  | cons part later ih =>
    have next := ih (holds.set part)
    rwa [List.append_assoc] at next

def allParts (files : List (String × Bytes)) : List Bytes := files.flatMap fun file => parts file.2

theorem Holds.addFiles {given : List Bytes} {chunks : Chunks} (holds : Holds given chunks)
    (files : List (String × Bytes)) :
    Holds (given ++ allParts files) (files.foldl WorkspaceArchive.addFile chunks) := by
  induction files generalizing given chunks with
  | nil => rwa [allParts, List.flatMap_nil, List.append_nil]
  | cons file files ih =>
    have next := ih (holds.addFile file)
    rwa [List.append_assoc] at next

/-- The chunks as the archive lists them. -/
def chunkTable (files : FileMap) : Chunks := sortedChunks (contents files).chunks

theorem Holds.perm {given : List Bytes} {first second : Chunks} (holds : Holds given first)
    (perm : second.Perm first) : Holds given second where
  distinct := (perm.map Prod.fst).nodup_iff.mpr holds.distinct
  digest chunk member := holds.digest chunk (perm.mem_iff.mp member)
  used chunk member := holds.used chunk (perm.mem_iff.mp member)
  covers part member := (perm.map Prod.fst).mem_iff.mpr (holds.covers part member)

theorem chunkTable_holds (files : FileMap) : Holds (allParts files.sorted.items) (chunkTable files) := by
  have none : Holds [] [] :=
    ⟨List.nodup_nil, by simp, by simp, by simp⟩
  exact (none.addFiles files.sorted.items).perm (List.perm_insertionSort _ _)

/-- No two different chunks of the files share a digest. -/
def Distinguishes (files : FileMap) : Prop :=
  ∀ first ∈ allParts files.items, ∀ second ∈ allParts files.items,
    ByteHash.sha256 first = ByteHash.sha256 second → first = second

omit [ByteHash] in
theorem mem_allParts {files : FileMap} {part : Bytes} :
    part ∈ allParts files.sorted.items ↔ part ∈ allParts files.items :=
  (List.Perm.flatMap_right _ files.sorted_equal).mem_iff

theorem chunkTable_get {files : FileMap} (distinguishes : Distinguishes files) {part : Bytes}
    (member : part ∈ allParts files.sorted.items) :
    Dict.get (chunkTable files) (ByteHash.sha256 part) = some part := by
  have holds := chunkTable_holds files
  obtain ⟨⟨digest, content⟩, there, rfl⟩ := List.mem_map.mp (holds.covers part member)
  have same : content = part := distinguishes _ (mem_allParts.mp (holds.used _ there)) _
    (mem_allParts.mp member) (holds.digest _ there)
  have found := (Dict.get_eq_some holds.distinct).mpr there
  rwa [same] at found

/-! ### Sizes -/

omit [ByteHash] in
theorem length_allParts (files : List (String × Bytes)) :
    ((allParts files).map List.length).sum = (files.map fun file => file.2.length).sum := by
  induction files with
  | nil => rfl
  | cons file files ih =>
    have whole : ((parts file.2).map List.length).sum = file.2.length := by
      rw [← List.length_flatten, parts, Paging.flatten_cut]
    have split : allParts (file :: files) = parts file.2 ++ allParts files := rfl
    rw [split, List.map_append, List.sum_append, whole, ih, List.map_cons, List.sum_cons]

/-- Each chunk is listed once, so the chunks take no more room than the files. -/
theorem length_chunkTable (files : FileMap) : ((chunkTable files).flatMap Prod.snd).length ≤
    (files.items.map fun file => file.2.length).sum := by
  have holds := chunkTable_holds files
  have values : ((chunkTable files).map Prod.snd).Nodup := by
    refine List.Nodup.of_map ByteHash.sha256 ?_
    rw [List.map_map, List.map_congr_left (show ∀ chunk ∈ chunkTable files,
      (ByteHash.sha256 ∘ Prod.snd) chunk = Prod.fst chunk from holds.digest)]
    exact holds.distinct
  have inside : (chunkTable files).map Prod.snd ⊆ allParts files.sorted.items := by
    intro part member
    obtain ⟨chunk, there, rfl⟩ := List.mem_map.mp member
    exact holds.used chunk there
  obtain ⟨listed, perm, sub⟩ := List.subperm_of_subset values inside
  calc ((chunkTable files).flatMap Prod.snd).length
      = (((chunkTable files).map Prod.snd).map List.length).sum := by
        rw [List.flatMap_def, List.length_flatten]
    _ = (listed.map List.length).sum := ((perm.map _).sum_eq).symm
    _ ≤ ((allParts files.sorted.items).map List.length).sum :=
        (sub.map _).sum_le_sum fun _ _ => Nat.zero_le _
    _ = (files.items.map fun file => file.2.length).sum := by
        rw [length_allParts, sum_sorted]

omit [ByteHash] in
theorem length_parts {content : Bytes} {quota : Nat} (fits : content.length ≤ quota) :
    (parts content).length ≤ (quota + chunkSize - 1) / chunkSize := by
  have pages := Paging.length_cut_mul (show 0 < chunkSize by decide) content
  rw [Nat.le_div_iff_mul_le (by decide)]
  exact pages.trans (by unfold chunkSize; omega)

/-! ### The frame -/

omit [ByteHash] in
theorem length_frame (manifest body : Bytes) :
    (frame manifest body).length = 12 + manifest.length + body.length := by
  simp only [frame, magic, List.length_append, List.length_cons, List.length_nil,
    Bytes.length_bigEndian]
  omega

omit [ByteHash] in
theorem manifestLength_frame {manifest : Bytes} (fits : manifest.length ≤ 4000000) (body : Bytes) :
    manifestLength (frame manifest body) = manifest.length := by
  have eight : (Bytes.bigEndian 8 manifest.length).length = 8 := Bytes.length_bigEndian 8 _
  have digits : ((frame manifest body).drop 4).take 8 = Bytes.bigEndian 8 manifest.length := by
    show (Bytes.bigEndian 8 manifest.length ++ (manifest ++ body)).take 8 = _
    exact List.take_left' eight
  rw [manifestLength, digits, Bytes.ofBigEndian_bigEndian (by omega)]

omit [ByteHash] in
theorem drop_frame (manifest body : Bytes) : (frame manifest body).drop 12 = manifest ++ body := by
  have header : (magic ++ Bytes.bigEndian 8 manifest.length).length = 12 := by
    rw [List.length_append, Bytes.length_bigEndian]
    rfl
  rw [frame, ← List.append_assoc]
  exact List.drop_left' header

omit [ByteHash] in
theorem rawManifest_frame {manifest : Bytes} (fits : manifest.length ≤ 4000000) (body : Bytes) :
    rawManifest (frame manifest body) = manifest := by
  rw [rawManifest, manifestLength_frame fits, drop_frame, List.take_left]

omit [ByteHash] in
theorem body_frame {manifest : Bytes} (fits : manifest.length ≤ 4000000) (body : Bytes) :
    WorkspaceArchive.body (frame manifest body) = body := by
  rw [WorkspaceArchive.body, manifestLength_frame fits, ← List.drop_drop, drop_frame, List.drop_left]

omit [ByteHash] in
theorem magic_frame (manifest body : Bytes) : magic.isPrefixOf (frame manifest body) = true :=
  List.isPrefixOf_iff_prefix.mpr (List.prefix_append _ _)

/-! ### The manifest as it is loaded -/

theorem sortKeys_fileEntry (file : String × Bytes) : sortKeys (fileEntry file) =
    .obj [("chunks", .arr ((parts file.2).map fun part => .str (ByteHash.sha256 part))),
      ("path", .str file.1), ("size", .int file.2.length)] := by
  simp [fileEntry, sortKeys, sortFields, sortItems_eq_map, Function.comp_def]

omit [ByteHash] in
theorem sortKeys_chunkEntry (chunk : Digest × Bytes) : sortKeys (chunkEntry chunk) = chunkEntry chunk := by
  simp [chunkEntry, sortKeys, sortFields]

/-- The fields of the manifest, in the order of their names. -/
def manifestFields (files : List (String × Bytes)) (chunks : Chunks) (exclusions : List String) :
    List (String × Json) :=
  [("chunks", .arr (chunks.map chunkEntry)), ("excluded_paths", .arr (exclusions.map .str)),
    ("files", .arr (files.map fun file => sortKeys (fileEntry file))), ("format", .str format)]

/-- What the reader finds in the manifest. -/
structure Fields (files : List (String × Bytes)) (chunks : Chunks) (exclusions : List String)
    (fields : List (String × Json)) : Prop where
  format : field fields "format" asText = some format
  chunks : field fields "chunks" elements = some (chunks.map chunkEntry)
  files : field fields "files" elements = some (files.map fun file => sortKeys (fileEntry file))
  excluded : (Dict.get fields "excluded_paths").getD (.arr []) = .arr (exclusions.map .str)

theorem fieldsOf (files : List (String × Bytes)) (chunks : Chunks) (exclusions : List String) :
    Fields files chunks exclusions (manifestFields files chunks exclusions) := by
  constructor <;> simp [manifestFields, field, Dict.get, asText, elements]

theorem sortKeys_manifest (files : List (String × Bytes)) (chunks : Chunks) (exclusions : List String) :
    sortKeys (manifest (files.map fileEntry) chunks exclusions) =
      .obj (manifestFields files chunks exclusions) := by
  simp [manifest, manifestFields, sortKeys, sortFields, sortItems_eq_map, Function.comp_def,
    sortKeys_chunkEntry]

theorem loads_manifest [FloatReader] (files : List (String × Bytes)) (chunks : Chunks)
    (exclusions : List String) :
    (jsonBytes (manifest (files.map fileEntry) chunks exclusions)).text.bind loads =
      some (.obj (manifestFields files chunks exclusions)) := by
  rw [jsonBytes, Bytes.text_utf8, Option.bind_some, loads_asciiCanonical, sortKeys_manifest]

/-- What is loaded is written as the same text. -/
theorem jsonBytes_manifestFields (files : List (String × Bytes)) (chunks : Chunks)
    (exclusions : List String) : jsonBytes (.obj (manifestFields files chunks exclusions)) =
      jsonBytes (manifest (files.map fileEntry) chunks exclusions) := by
  rw [← sortKeys_manifest, jsonBytes, jsonBytes, asciiCanonical, asciiCanonical, canonical, canonical,
    sortKeys_sortKeys]

end

/-! ### Reading what is built -/

section

variable [HexByteHash]

/-- The entries of the chunks that follow are read off the bytes that follow. -/
theorem readChunks_entries {later known : Chunks} (distinct : ((known ++ later).map Prod.fst).Nodup)
    (digest : ∀ chunk ∈ later, ByteHash.sha256 chunk.2 = chunk.1)
    (sizes : ∀ chunk ∈ later, 0 < chunk.2.length ∧ chunk.2.length ≤ chunkSize) :
    readChunks (later.map chunkEntry) (later.flatMap Prod.snd) known = .ok (known ++ later) := by
  induction later generalizing known with
  | nil => simp [readChunks, require, bind, Except.bind, pure, Except.pure]
  | cons chunk later ih =>
    obtain ⟨first, rest⟩ := List.forall_mem_cons.mp digest
    obtain ⟨size, smaller⟩ := List.forall_mem_cons.mp sizes
    have next : readChunks _ _ (known ++ [chunk]) = .ok (known ++ [chunk] ++ later) :=
      ih (by simpa using distinct) rest smaller
    have fresh : chunk.1 ∉ known.map Prod.fst := by
      rw [List.map_append, List.map_cons, List.nodup_append] at distinct
      exact fun known => distinct.2.2 _ known _ (List.mem_cons_self ..) rfl
    have hex : isSha256 chunk.1 = true := first ▸ HexByteHash.hex chunk.2
    have names : named [("sha256", Json.str chunk.1), ("size", .int chunk.2.length)]
        ["sha256", "size"] = true := decide_eq_true (.refl ["sha256", "size"])
    have taken : (chunk.2 ++ later.flatMap Prod.snd).take chunk.2.length = chunk.2 := List.take_left
    have left : (chunk.2 ++ later.flatMap Prod.snd).drop chunk.2.length = later.flatMap Prod.snd :=
      List.drop_left
    rw [List.map_cons, List.flatMap_cons, readChunks, chunkEntry,
      orThrow_then (asFields_obj _), require_then names,
      orThrow_then (show field _ "sha256" asText = some chunk.1 by simp [field, Dict.get, asText]),
      require_then hex,
      orThrow_then (show field _ "size" asNat = some chunk.2.length by simp [field, Dict.get]),
      require_then ⟨size, fresh⟩, taken, require_then ⟨rfl, first⟩, left, next, List.append_assoc]
    rfl

/-- The references of a file are found again. -/
theorem refs_found {chunks : Chunks} {contents : List Bytes}
    (found : ∀ part ∈ contents, Dict.get chunks (ByteHash.sha256 part) = some part) :
    ((contents.map fun part => Json.str (ByteHash.sha256 part)).mapM fun ref =>
      (asText ref).bind (Dict.get chunks)) = some contents := by
  induction contents with
  | nil => rfl
  | cons part later ih =>
    obtain ⟨first, rest⟩ := List.forall_mem_cons.mp found
    rw [List.map_cons, List.mapM_cons, ih rest]
    simp [asText, first]

/-- The entries of new files are read after the files that are there. -/
theorem readFiles_entries {quota total : Nat} {chunks : Chunks} {items : List (String × Bytes)}
    {files whole : FileMap} (listed : whole.items = files.items ++ items)
    (paths : ∀ path ∈ whole.paths, checkedPath path = .ok ())
    (room : total + (items.map fun file => file.2.length).sum ≤ quota)
    (found : ∀ part ∈ allParts items, Dict.get chunks (ByteHash.sha256 part) = some part) :
    readFiles quota chunks (items.map fun file => sortKeys (fileEntry file)) total files =
      .ok whole := by
  induction items generalizing files total with
  | nil =>
    rw [List.append_nil] at listed
    rw [List.map_nil, readFiles, FileMap.ext listed]
  | cons file items ih =>
    rw [List.map_cons, List.sum_cons] at room
    have distinct := whole.distinct
    rw [listed, List.map_append, List.nodup_append] at distinct
    have fresh : file.1 ∉ files.paths := fun known =>
      distinct.2.2 file.1 known file.1 (List.mem_cons_self ..) rfl
    have next : readFiles quota chunks _ (total + file.2.length) (files.insert file.1 file.2) =
        .ok whole := ih
      (by rw [listed, FileMap.insert_items fresh, List.append_assoc]; rfl)
      (by omega) (fun part member => found part (List.mem_append_right _ member))
    have checked : checkedPath file.1 = .ok () := paths file.1 (by
      rw [FileMap.paths, listed, List.map_append]
      exact List.mem_append_right _ (List.mem_cons_self ..))
    have names : named [("chunks", Json.arr ((parts file.2).map fun part => .str (ByteHash.sha256 part))),
        ("path", .str file.1), ("size", .int file.2.length)] ["path", "size", "chunks"] = true := by
      have perm : ["chunks", "path", "size"].Perm ["path", "size", "chunks"] := by decide
      exact decide_eq_true perm
    have path : ∀ fields, Dict.get fields "path" = some (.str file.1) →
        readPath files (Dict.get fields "path") = .ok file.1 := by
      intro fields there
      rw [there, readPath, require_then fresh]
      rfl
    have refs := refs_found fun part member => found part (List.mem_append_left _ member)
    have content : (parts file.2).flatten = file.2 := Paging.flatten_cut chunkSize file.2
    rw [List.map_cons, sortKeys_fileEntry, readFiles, orThrow_then (asFields_obj _), require_then names,
      ok_then (path _ (by simp [Dict.get])), ok_then checked,
      orThrow_then (show field _ "size" asNat = some file.2.length by simp [field, Dict.get]),
      require_then (show file.2.length ≤ quota by omega),
      orThrow_then (show field _ "chunks" asItems = some ((parts file.2).map fun part =>
        .str (ByteHash.sha256 part)) by simp [field, Dict.get, asItems]),
      require_then (by rw [List.length_map]; exact length_parts (by omega)), orThrow_then refs, content,
      require_then rfl, require_then (show total + file.2.length ≤ quota by omega), next]

variable [FloatReader]

omit [HexByteHash] [FloatReader] in
theorem readExclusions_texts (paths : List String) :
    readExclusions (.arr (paths.map .str)) = .ok paths := by
  have texts : (paths.map Json.str).mapM asText = some paths := by
    induction paths with
    | nil => rfl
    | cons path paths ih => rw [List.map_cons, List.mapM_cons, ih]; rfl
  cases paths with
  | nil => rfl
  | cons path paths =>
    have kept : ¬ truthy (.arr ((path :: paths).map .str)) = false := by simp [truthy]
    rw [readExclusions, if_neg kept]
    simp only [elements, texts]

/-- What is built is read under its own quota. -/
theorem v2Files_built {files : FileMap} {quota : Nat} {excluded : List String}
    {archive : WorkspaceArchive} (distinguishes : Distinguishes files)
    (built : build files quota excluded = .ok archive) :
    v2Files archive.data quota = .ok files.sorted := by
  obtain ⟨packs, writes, rfl⟩ := build_ok.mp built
  obtain ⟨packed, again, sealed⟩ := bind_ok.mp
    (build_congr files.sorted_equal.symm le_rfl packs.bounds.2 built)
  have holds := chunkTable_holds files
  have body_length := length_chunkTable files
  have entries := jsonBytes_manifestFields files.sorted.items (chunkTable files)
    (exclusionList excluded)
  have loaded := loads_manifest files.sorted.items (chunkTable files) (exclusionList excluded)
  have framed : encode files excluded = frame (jsonBytes (manifest (files.sorted.items.map fileEntry)
      (chunkTable files) (exclusionList excluded))) ((chunkTable files).flatMap Prod.snd) := rfl
  have small : (jsonBytes (manifest (files.sorted.items.map fileEntry) (chunkTable files)
      (exclusionList excluded))).length ≤ 4000000 := writes.small
  have total := packs.total
  have sizes : ∀ chunk ∈ chunkTable files, 0 < chunk.2.length ∧ chunk.2.length ≤ chunkSize := by
    intro chunk member
    obtain ⟨file, -, part⟩ := List.mem_flatMap.mp (holds.used chunk member)
    exact Paging.length_of_mem_cut (by decide) part
  have chunks : readChunks ((chunkTable files).map chunkEntry) ((chunkTable files).flatMap Prod.snd) [] =
      .ok (chunkTable files) := readChunks_entries holds.distinct holds.digest sizes
  have reads : readFiles quota (chunkTable files) _ 0 .empty = .ok files.sorted :=
    readFiles_entries (List.nil_append files.sorted.items).symm
      (packs.congr files.sorted_equal.symm).paths (by rw [sum_sorted]; omega)
      fun part member => chunkTable_get distinguishes member
  have names : named (manifestFields files.sorted.items (chunkTable files) (exclusionList excluded))
      ["format", "files", "chunks", "excluded_paths"] = true := by
    have perm : ["chunks", "excluded_paths", "files", "format"].Perm
        ["format", "files", "chunks", "excluded_paths"] := by decide
    exact decide_eq_true perm
  have fields := fieldsOf files.sorted.items (chunkTable files) (exclusionList excluded)
  have count : (files.sorted.items.map fun file => sortKeys (fileEntry file)).length ≤ 10000 := by
    rw [List.length_map, files.sorted_equal.length_eq]
    exact packs.count
  show v2Files (encode files excluded) quota = _
  rw [v2Files, framed, manifestLength_frame small, rawManifest_frame small, body_frame small,
    length_frame, require_then (by omega), require_then (by omega), orThrow_then loaded,
    require_then entries.symm, orThrow_then (asFields_obj _), require_then (.inr names),
    require_then fields.format, orThrow_then fields.chunks, ok_then chunks, orThrow_then fields.files,
    require_then count, ok_then reads, ok_then again, fields.excluded, ok_then (readExclusions_texts _),
    ok_then sealed, require_then framed]
  rfl

omit [HexByteHash] [FloatReader] in
theorem readFiles_mono {quota more total : Nat} {chunks : Chunks} {entries : List Json}
    {files result : FileMap} (room : quota ≤ more)
    (read : readFiles quota chunks entries total files = .ok result) :
    readFiles more chunks entries total files = .ok result := by
  induction entries generalizing total files with
  | nil => exact read
  | cons entry entries ih =>
    simp only [readFiles, bind_ok, require_ok, orThrow_ok] at read ⊢
    obtain ⟨fields, object, u, names, path, named, v, checked, size, sized, w, small, refs, listed, x, few,
      found, there, y, whole, z, total, rest⟩ := read
    have more_refs : (quota + chunkSize - 1) / chunkSize ≤ (more + chunkSize - 1) / chunkSize :=
      Nat.div_le_div_right (by omega)
    exact ⟨fields, object, u, names, path, named, v, checked, size, sized, w, small.trans room, refs,
      listed, x, few.trans more_refs, found, there, y, whole, z, total.trans room, ih rest⟩

omit [HexByteHash] in
/-- A reader with a larger quota accepts the same bytes. -/
theorem v2Files_mono [ByteHash] {data : Bytes} {quota more : Nat} {files : FileMap}
    (room : quota ≤ more) (bounded : more ≤ defaultQuota) (read : v2Files data quota = .ok files) :
    v2Files data more = .ok files := by
  simp only [v2Files, bind_ok, require_ok, orThrow_ok, pure_ok, pack_ok] at read ⊢
  obtain ⟨u, ⟨header, size⟩, v, length, value, loaded, w, same, fields, object, x, names, y, format,
    chunkEntries, first, chunks, chunked, entries, second, z, count, found, reads, packed,
    ⟨packs, packing⟩, excluded, exclusions, again, written, t, equal, rfl⟩ := read
  exact ⟨u, ⟨header, by omega⟩, v, length, value, loaded, w, same, fields, object, x, names, y, format,
    chunkEntries, first, chunks, chunked, entries, second, z, count, found, readFiles_mono room reads,
    packed, ⟨packs.mono room bounded, packing⟩, excluded, exclusions, again, written, t, equal, rfl⟩

omit [HexByteHash] in
/-- What a reader accepts is built again from what it has read. -/
theorem v2Files_builds [ByteHash] {data : Bytes} {quota : Nat} {files : FileMap}
    (read : v2Files data quota = .ok files) :
    ∃ excluded, build files quota excluded = .ok ⟨data⟩ := by
  simp only [v2Files, bind_ok, require_ok, orThrow_ok, pure_ok] at read
  obtain ⟨-, -, -, -, value, -, -, -, fields, -, -, -, -, -, chunkEntries, -, chunks, -, entries, -, -, -,
    found, -, packed, packing, excluded, -, again, written, -, equal, rfl⟩ := read
  refine ⟨excluded, bind_ok.mpr ⟨packed, packing, ?_⟩⟩
  rw [written, ← equal]

omit [HexByteHash] in
theorem excludedPaths_built [ByteHash] {files : FileMap} {quota : Nat} {excluded : List String}
    {archive : WorkspaceArchive} (built : build files quota excluded = .ok archive) :
    archive.excludedPaths = some (.arr ((exclusionList excluded).map .str)) := by
  obtain ⟨-, writes, rfl⟩ := build_ok.mp built
  have loaded := loads_manifest files.sorted.items (chunkTable files) (exclusionList excluded)
  have fields := fieldsOf files.sorted.items (chunkTable files) (exclusionList excluded)
  have small : (jsonBytes (manifest (files.sorted.items.map fileEntry) (chunkTable files)
      (exclusionList excluded))).length ≤ 4000000 := writes.small
  have framed : encode files excluded = frame (jsonBytes (manifest (files.sorted.items.map fileEntry)
      (chunkTable files) (exclusionList excluded))) ((chunkTable files).flatMap Prod.snd) := rfl
  rw [excludedPaths, framed, if_pos (magic_frame _ _), rawManifest_frame small, loaded]
  simp [asFields, fields.excluded]

omit [HexByteHash] [FloatReader] in
theorem marked_built [ByteHash] {files : FileMap} {quota : Nat} {excluded : List String}
    {archive : WorkspaceArchive} (built : build files quota excluded = .ok archive) :
    magic.isPrefixOf archive.data = true := by
  obtain ⟨-, -, rfl⟩ := build_ok.mp built
  exact magic_frame _ _

theorem fromBytes_ok {data : Bytes} {digest : Digest} {quota : Nat} {archive : WorkspaceArchive}
    (marked : magic.isPrefixOf data = true) : fromBytes data digest quota = .ok archive ↔
      ByteHash.sha256 data = digest ∧ (∃ files, v2Files data quota = .ok files) ∧ ⟨data⟩ = archive := by
  simp only [fromBytes, bind_ok, require_ok, if_pos marked, pure_ok]
  constructor
  · rintro ⟨-, ⟨-, same⟩, files, read, rfl⟩
    exact ⟨same, ⟨files, read⟩, rfl⟩
  · rintro ⟨rfl, ⟨files, read⟩, rfl⟩
    exact ⟨(), ⟨HexByteHash.hex data, rfl⟩, files, read, rfl⟩

end

/-! ### Safe paths -/

/-- A relative path without empty or parent components, not below another file. -/
structure SafePath (files : FileMap) (path : String) : Prop where
  relative : path.toList.head? ≠ some '/'
  segments : ∀ segment ∈ pathSegments path, segment ≠ "" ∧ segment ≠ ".."
  clear : ∀ other ∈ files.paths, ¬ other.toList ++ ['/'] <+: path.toList

theorem joinSegments_pathSegments (path : String) : joinSegments (pathSegments path) = path := by
  have same : (path.toList.splitOn '/').map (String.toList ∘ String.ofList) =
      path.toList.splitOn '/' := by simp [Function.comp_def]
  rw [joinSegments, pathSegments, List.map_map, same, List.intercalate_splitOn, String.ofList_toList]

/-- A path below another has it among its parents. -/
theorem mem_parents {path other : String} (below : other.toList ++ ['/'] <+: path.toList) :
    other ∈ parents path := by
  obtain ⟨rest, split⟩ := below
  have segments : pathSegments path = pathSegments other ++ (rest.splitOn '/').map .ofList := by
    rw [pathSegments, ← split, List.append_assoc, List.singleton_append,
      List.splitOn_append_cons_self, List.map_append, pathSegments]
  have first : 0 < (pathSegments other).length :=
    List.length_pos_iff.mpr (by simp [pathSegments])
  have last : 0 < ((rest.splitOn '/').map String.ofList).length :=
    List.length_pos_iff.mpr (by simp)
  refine List.mem_map.mpr ⟨(pathSegments other).length, ?_, ?_⟩
  · rw [List.mem_range'_1, segments, List.length_append]
    omega
  · rw [segments, List.take_left, joinSegments_pathSegments]

theorem checkedPath_segments {path segment : String} (checked : checkedPath path = .ok ())
    (member : segment ∈ pathSegments path) : segment ≠ "" ∧ segment ≠ ".." := by
  simp only [checkedPath, bind_ok, require_ok, List.all_eq_true] at checked
  obtain ⟨-, -, -, canonical, -⟩ := checked
  have segment := canonical _ member
  simp only [canonicalSegment, Bool.and_eq_true, decide_eq_true_eq, List.mem_cons, not_or] at segment
  exact ⟨segment.1.1.1.1, segment.1.1.1.2.2.1⟩

theorem Packs.safe {files : FileMap} {quota : Nat} (packs : Packs files quota) {path : String}
    (member : path ∈ files.paths) : SafePath files path where
  segments segment inside := checkedPath_segments (packs.paths path member) inside
  clear other known below := packs.clear path member other (mem_parents below) known
  relative absolute := by
    obtain ⟨rest, split⟩ := List.head?_eq_some_iff.mp absolute
    have empty : "" ∈ pathSegments path := by
      rw [pathSegments, split, ← List.nil_append ('/' :: rest), List.splitOn_append_cons_self]
      simp
    exact (checkedPath_segments (packs.paths path member) empty).1 rfl

/-! ### Main result -/

section

variable [HexByteHash] [FloatReader]

/-- The bytes are accepted as an archive of the files. -/
def Encodes (data : Bytes) (files : FileMap) : Prop :=
  magic.isPrefixOf data = true ∧ (∃ digest quota, fromBytes data digest quota = .ok ⟨data⟩) ∧
    ∃ found, WorkspaceArchive.files ⟨data⟩ = .ok found ∧ found.Equal files

/-- The manifest lists each of the chunks under its digest, and each is a chunk of some file. -/
def ListsChunks (data : Bytes) (files : FileMap) (exclusions : List String) : Prop :=
  ∃ entries chunks, data = frame (jsonBytes (manifest entries chunks exclusions))
      (chunks.flatMap Prod.snd) ∧
    (chunks.map Prod.fst).Nodup ∧
    ∀ chunk ∈ chunks, ByteHash.sha256 chunk.2 = chunk.1 ∧ ∃ file ∈ files.items, chunk.2 ∈ parts file.2

theorem built_reads_back {files : FileMap} {quota : Nat} {excluded : List String}
    {archive : WorkspaceArchive} (distinguishes : Distinguishes files)
    (built : build files quota excluded = .ok archive) :
    fromBytes archive.data (ByteHash.sha256 archive.data) quota = .ok archive ∧
      (∃ found, archive.files = .ok found ∧ found.Equal files) ∧
      archive.excludedPaths = some (.arr ((exclusionList excluded).map .str)) := by
  have marked := marked_built built
  have read := v2Files_built distinguishes built
  obtain ⟨packs, -, -⟩ := build_ok.mp built
  refine ⟨(fromBytes_ok marked).mpr ⟨rfl, ⟨_, read⟩, rfl⟩, ⟨files.sorted, ?_, files.sorted_equal⟩,
    excludedPaths_built built⟩
  rw [WorkspaceArchive.files, if_pos marked]
  exact v2Files_mono packs.bounds.2 le_rfl read

theorem accepted_builds {data : Bytes} {digest : Digest} {quota : Nat} {archive : WorkspaceArchive}
    (accepted : fromBytes data digest quota = .ok archive) (marked : magic.isPrefixOf data = true) :
    ∃ files exclusions, archive.files = .ok files ∧
      archive.excludedPaths = some (.arr (exclusions.map .str)) ∧
      build files quota exclusions = .ok archive ∧ archive.data = data ∧
      (∀ path ∈ files.paths, SafePath files path) ∧ ListsChunks data files exclusions := by
  obtain ⟨-, ⟨files, read⟩, rfl⟩ := (fromBytes_ok marked).mp accepted
  obtain ⟨excluded, built⟩ := v2Files_builds read
  obtain ⟨packs, -, same⟩ := build_ok.mp built
  have holds := chunkTable_holds files
  refine ⟨files, exclusionList excluded, ?_, excludedPaths_built built,
    build_congr (.refl _) le_rfl packs.bounds.2 built, rfl, fun path member => packs.safe member,
    _, chunkTable files, (WorkspaceArchive.mk.inj same).symm, holds.distinct, fun chunk member => ?_⟩
  · rw [WorkspaceArchive.files, if_pos marked]
    exact v2Files_mono packs.bounds.2 le_rfl read
  · obtain ⟨file, there, part⟩ := List.mem_flatMap.mp (mem_allParts.mp (holds.used chunk member))
    exact ⟨holds.digest chunk member, file, there, part⟩

/-- What is built is accepted and gives the files and the sorted distinct exclusions back; what is
accepted is built again from its files and exclusions, whose paths are safe and whose chunks are all
used; and the files with the exclusions determine the bytes. -/
theorem archives_read_back :
    (∀ files quota excluded archive, build files quota excluded = .ok archive → Distinguishes files →
      fromBytes archive.data (ByteHash.sha256 archive.data) quota = .ok archive ∧
        (∃ found, archive.files = .ok found ∧ found.Equal files) ∧
        archive.excludedPaths = some (.arr ((exclusionList excluded).map .str))) ∧
    (∀ data digest quota archive, fromBytes data digest quota = .ok archive →
      magic.isPrefixOf data = true →
      ∃ files exclusions, archive.files = .ok files ∧
        archive.excludedPaths = some (.arr (exclusions.map .str)) ∧
        build files quota exclusions = .ok archive ∧ archive.data = data ∧
        (∀ path ∈ files.paths, SafePath files path) ∧ ListsChunks data files exclusions) ∧
    ∀ first second files, Encodes first files → Encodes second files →
      excludedPaths ⟨first⟩ = excludedPaths ⟨second⟩ → first = second := by
  refine ⟨fun files quota excluded archive built distinguishes => built_reads_back distinguishes built,
    fun data digest quota archive accepted marked => accepted_builds accepted marked, ?_⟩
  rintro first second files ⟨marked, ⟨digest, quota, accepted⟩, found, read, equal⟩
    ⟨marked', ⟨digest', quota', accepted'⟩, found', read', equal'⟩ exclusions
  obtain ⟨one, excluded, reads, paths, built, -⟩ := accepted_builds accepted marked
  obtain ⟨other, excluded', reads', paths', built', -⟩ := accepted_builds accepted' marked'
  obtain rfl : one = found := Except.ok.inj (reads.symm.trans read)
  obtain rfl : other = found' := Except.ok.inj (reads'.symm.trans read')
  -- both are written from equal contents and the same exclusions
  have same : excluded = excluded' := by
    have texts := Option.some.inj ((paths.symm.trans exclusions).trans paths')
    exact List.map_injective_iff.mpr (fun _ _ => Json.str.inj) (Json.arr.inj texts)
  obtain ⟨-, -, bytes⟩ := build_ok.mp built
  obtain ⟨-, -, bytes'⟩ := build_ok.mp built'
  have contents : contents one = contents other := contents_congr (equal.trans equal'.symm)
  rw [← WorkspaceArchive.mk.inj bytes, ← WorkspaceArchive.mk.inj bytes', encode, encode, contents, same]

end

end WorkspaceArchive

/-! ### A small workspace -/

namespace Scenario

open WorkspaceArchive Json Outcome

/-- Sixty-four digits that tell the number of bytes. -/
@[reducible] def sizeHash : HexByteHash where
  sha256 data := .ofList (List.replicate 64 (Nat.digitChar (data.length % 10)))
  hex data := by
    have digit : ∀ n : Fin 10, isHexDigit (Nat.digitChar n) = true := by decide
    have hex := digit ⟨data.length % 10, Nat.mod_lt _ (by decide)⟩
    simp only [isSha256, String.length_ofList, String.toList_ofList, List.length_replicate,
      Bool.and_eq_true, decide_eq_true_eq, List.all_eq_true, true_and]
    intro c member
    rwa [List.eq_of_mem_replicate member]

attribute [local instance] sizeHash

local instance archiveReader : FloatReader := .exact

/-- One file of three bytes. -/
def workspace : FileMap := ⟨[("notes/a.txt", [1, 2, 3])], by decide⟩

theorem workspace_packs : Packs workspace defaultQuota where
  bounds := by decide
  paths := by decide +kernel
  total := by decide
  count := by decide
  clear := by decide +kernel

theorem workspace_parts : parts [1, 2, 3] = [[1, 2, 3]] := Paging.cut_short (by simp) (by decide)

def workspaceDigest : Digest := .ofList (List.replicate 64 '3')

/-- The manifest of the file, as it is loaded. -/
def workspaceManifest (exclusions : List String) : Json :=
  .obj [("chunks", .arr [.obj [("sha256", .str workspaceDigest), ("size", .int 3)]]),
    ("excluded_paths", .arr (exclusions.map .str)),
    ("files", .arr [.obj [("chunks", .arr [.str workspaceDigest]), ("path", .str "notes/a.txt"),
      ("size", .int 3)]]),
    ("format", .str format)]

theorem workspace_contents : contents workspace =
    ⟨[fileEntry ("notes/a.txt", [1, 2, 3])], [(workspaceDigest, [1, 2, 3])]⟩ := by
  have sorted : workspace.sorted.items = [("notes/a.txt", [1, 2, 3])] := rfl
  rw [contents, sorted]
  simp only [List.map_cons, List.map_nil, List.foldl_cons, List.foldl_nil, addFile, workspace_parts]
  rfl

theorem length_jsonBytes (value : Json) :
    (jsonBytes value).length ≤ 4 * (ascii (render compact (sortKeys value))).length := by
  have chars : (asciiCanonical value).toList = ascii (render compact (sortKeys value)) := by
    rw [asciiCanonical, String.toList_ofList, canonical, dumps, String.toList_ofList]
  rw [jsonBytes, Bytes.utf8, chars]
  induction ascii (render compact (sortKeys value)) with
  | nil => rfl
  | cons c text ih =>
    have byte : (String.utf8EncodeChar c).length ≤ 4 := by
      rw [String.length_utf8EncodeChar]
      exact Char.utf8Size_le_four c
    rw [List.flatMap_cons, List.length_append, List.length_cons]
    omega

theorem workspace_manifest (exclusions : List String) :
    sortKeys (manifest (contents workspace).entries (sortedChunks (contents workspace).chunks)
      exclusions) = workspaceManifest exclusions := by
  have entry : fileEntry ("notes/a.txt", [1, 2, 3]) = .obj [("path", .str "notes/a.txt"),
      ("size", .int 3), ("chunks", .arr [.str workspaceDigest])] := by
    rw [fileEntry, workspace_parts]
    rfl
  have chunks : sortedChunks [(workspaceDigest, [1, 2, 3])] = [(workspaceDigest, [1, 2, 3])] := rfl
  rw [workspace_contents]
  simp [chunks, entry, manifest, workspaceManifest, chunkEntry, sortKeys, sortFields,
    sortItems_eq_map, Function.comp_def]

theorem workspace_writes : Writes (contents workspace) ["secret"] where
  count := by decide
  bounded := by decide +kernel
  small := by
    have list : exclusionList ["secret"] = ["secret"] := rfl
    refine (length_jsonBytes _).trans ?_
    rw [list, workspace_manifest]
    decide +kernel

theorem workspace_writes_all : Writes (contents workspace) [] where
  count := by decide
  bounded := by simp [exclusionList]
  small := by
    have list : exclusionList [] = [] := rfl
    refine (length_jsonBytes _).trans ?_
    rw [list, workspace_manifest]
    decide +kernel

theorem workspace_distinguishes : Distinguishes workspace := by
  have only : allParts workspace.items = [[1, 2, 3]] := by
    simp [allParts, workspace, workspace_parts]
  rw [Distinguishes, only]
  simp

/-- The archive of the file without an exclusion. -/
theorem workspace_reads_back : ∃ archive, build workspace defaultQuota ["secret"] = .ok archive ∧
    fromBytes archive.data (ByteHash.sha256 archive.data) defaultQuota = .ok archive ∧
    (∃ found, archive.files = .ok found ∧ found.Equal workspace) ∧
    archive.excludedPaths = some (.arr [.str "secret"]) := by
  have built := build_ok.mpr ⟨workspace_packs, workspace_writes, rfl⟩
  exact ⟨_, built, archives_read_back.1 _ _ _ _ built workspace_distinguishes⟩

/-- One file map with two exclusion lists has two archives. -/
theorem workspace_two_archives : ∃ first second, first ≠ second ∧ Encodes first workspace ∧
    Encodes second workspace := by
  have one := build_ok.mpr ⟨workspace_packs, workspace_writes, rfl⟩
  have two := build_ok.mpr ⟨workspace_packs, workspace_writes_all, rfl⟩
  obtain ⟨accepted, found, excluded⟩ := built_reads_back workspace_distinguishes one
  obtain ⟨accepted', found', excluded'⟩ := built_reads_back workspace_distinguishes two
  refine ⟨_, _, fun same => ?_, ⟨marked_built one, ⟨_, _, accepted⟩, found⟩,
    marked_built two, ⟨_, _, accepted'⟩, found'⟩
  have equal : exclusionList ["secret"] = exclusionList [] := by
    have texts := excluded.symm.trans ((congrArg (fun data => excludedPaths ⟨data⟩) same).trans excluded')
    exact List.map_injective_iff.mpr (fun _ _ => Json.str.inj) (Json.arr.inj (Option.some.inj texts))
  cases equal

end Scenario

end PhysHarness
