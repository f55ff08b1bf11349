import Arclain.ArchiveIndex

namespace Arclain

/-!
# Entry ids over the life of a session

An assigner outlives the indexes built with it, and never gives one id to two keys.  A row
is identified by its kind, its path and the number of files listed before it at the same
path.
-/

open KeyedMap List Option Text ArchivePath EntryIdAssigner

namespace ArchivePath

/-- A path that is refused nowhere and written with forward slashes. -/
def Canonical (path : Str) : Prop := archivePathFault path = none ∧ '\\' ∉ path

theorem eq_of_value {first second : ArchivePath} (same : first.value = second.value) :
    first = second := by
  cases first
  cases second
  cases same
  rfl

theorem value_parseOrRoot {path : Str} (canonical : Canonical path) :
    (parseOrRoot path).value = path := by
  have same := forwardSlashes_eq_self canonical.2
  unfold parseOrRoot parse
  split
  next parsed =>
    split at parsed
    · cases parsed
    · cases parsed
      exact same
  next parsed =>
    split at parsed
    next refused =>
      rw [same, canonical.1] at refused
      cases refused
    · cases parsed

theorem fault_of_parse {raw : Str} {path : ArchivePath} (parsed : parse raw = .ok path) :
    archivePathFault (forwardSlashes raw) = none := by
  unfold parse at parsed
  split at parsed
  · cases parsed
  · assumption

theorem isAbsolute_of_ancestor {parent rest : Str}
    (relative : isAbsoluteArchivePath (parent ++ '/' :: rest) = false) :
    isAbsoluteArchivePath parent = false := by
  match parent with
  | [] => rfl
  | [first] =>
    by_cases slash : first = '/'
    · subst first
      cases relative
    · simp [isAbsoluteArchivePath, slash]
  | first :: second :: later =>
    by_cases slash : first = '/'
    · subst first
      cases relative
    · by_cases colon : second = ':'
      · subst second
        simpa [isAbsoluteArchivePath, slash] using relative
      · simp [isAbsoluteArchivePath, slash, colon]

theorem Canonical.ancestor {path parent : Str} (canonical : Canonical path)
    (mem : parent ∈ entryAncestors path) : Canonical parent := by
  obtain ⟨index, indexMember, rfl⟩ := mem_map.mp mem
  have slash : path[index]? = some '/' := by simpa using (mem_filter.mp indexMember).2
  obtain ⟨_, atIndex⟩ := List.getElem?_eq_some_iff.mp slash
  have split : path.take index ++ '/' :: path.drop (index + 1) = path := by
    rw [← atIndex, cons_getElem_drop_succ, take_append_drop]
  obtain ⟨sound, clean⟩ := canonical
  rw [← split] at sound clean
  simp only [archivePathFault] at sound ⊢
  split at sound
  · cases sound
  next noNul =>
    split at sound
    · cases sound
    next relative =>
      split at sound
      · cases sound
      next noTraversal =>
        rw [splitOn_append_cons_self] at noTraversal
        constructor
        · rw [archivePathFault, if_neg, if_neg, if_neg]
          · intro traversal
            exact noTraversal (mem_append_left _ traversal)
          · rw [isAbsolute_of_ancestor (Bool.eq_false_iff.mpr relative)]
            decide
          · intro nul
            exact noNul (mem_append_left _ nul)
        · intro backslash
          exact clean (mem_append_left _ backslash)

end ArchivePath

namespace EntryIdAssigner

/-- No id above the counter is taken, and no id is taken twice. -/
structure Sound (assigner : EntryIdAssigner) : Prop where
  issued : ∀ {key id}, assigner.assigned.lookup key = some id → id ≤ assigner.next
  single : ∀ {key other id}, assigner.assigned.lookup key = some id →
    assigner.assigned.lookup other = some id → key = other

/-- Every id that was assigned stays assigned to the same key. -/
def Extends (older newer : EntryIdAssigner) : Prop :=
  ∀ {key id}, older.assigned.lookup key = some id → newer.assigned.lookup key = some id

theorem Sound.initially : new.Sound :=
  ⟨fun bound => by simp [new] at bound, fun bound => by simp [new] at bound⟩

theorem assign_spec {assigner : EntryIdAssigner} (sound : assigner.Sound) (key : EntryKey) :
    (assigner.assign key).2.Sound ∧ assigner.Extends (assigner.assign key).2 ∧
      (assigner.assign key).2.assigned.lookup key = some (assigner.assign key).1 := by
  unfold assign
  split
  next bound => exact ⟨sound, id, bound⟩
  next fresh =>
    refine ⟨⟨?_, ?_⟩, ?_, ?_⟩
    · intro other id bound
      rw [lookup_insert_ite] at bound
      split at bound
      · simp only [some.injEq] at bound
        exact bound.symm.le
      · exact (sound.issued bound).trans (Nat.le_succ _)
    · intro _ _ id firstBound secondBound
      rw [lookup_insert_ite] at firstBound secondBound
      split at firstBound
      next firstSame =>
        split at secondBound
        next secondSame => exact firstSame.trans secondSame.symm
        · simp only [some.injEq] at firstBound
          have used : id ≤ assigner.next := sound.issued secondBound
          rw [← firstBound] at used
          exact (Nat.not_succ_le_self _ used).elim
      · split at secondBound
        · simp only [some.injEq] at secondBound
          have used : id ≤ assigner.next := sound.issued firstBound
          rw [← secondBound] at used
          exact (Nat.not_succ_le_self _ used).elim
        · exact sound.single firstBound secondBound
    · intro other id bound
      rw [lookup_insert_ite, if_neg]
      · exact bound
      · rintro rfl
        rw [fresh] at bound
        cases bound
    · rw [lookup_insert_ite, if_pos rfl]

end EntryIdAssigner

section

variable {Item : Type*} [DecidableEq Item] {item : Item} {items : List Item}

theorem countP_takeWhile_lt {test : Item → Bool} (mem : item ∈ items)
    (counted : test item = true) :
    (items.takeWhile (· ≠ item)).countP test < items.countP test := by
  induction items with
  | nil => cases mem
  | cons first rest ih =>
    by_cases same : first = item
    · subst first
      simp [counted]
    · have later : item ∈ rest := by
        rcases mem_cons.mp mem with rfl | later
        · exact (same rfl).elim
        · exact later
      have smaller := ih later
      rw [takeWhile_cons_of_pos (by simpa using same), countP_cons, countP_cons]
      omega

theorem takeWhile_append_of_mem {items more : List Item} (mem : item ∈ items) :
    (items ++ more).takeWhile (· ≠ item) = items.takeWhile (· ≠ item) := by
  induction items with
  | nil => cases mem
  | cons first rest ih =>
    by_cases same : first = item
    · simp [same]
    · have later : item ∈ rest := by
        rcases mem_cons.mp mem with rfl | later
        · exact (same rfl).elim
        · exact later
      have tail := ih later
      rw [cons_append, takeWhile_cons_of_pos (by simpa using same),
        takeWhile_cons_of_pos (by simpa using same), tail]

theorem takeWhile_append_self (absent : item ∉ items) :
    (items ++ [item]).takeWhile (· ≠ item) = items := by
  rw [takeWhile_append_of_pos]
  · simp
  · intro _ mem
    simp only [ne_eq, decide_not, Bool.not_eq_true', decide_eq_false_iff_not]
    rintro rfl
    exact absent mem

end

namespace EntryIndex

def countAt (index : EntryIndex) (path : ArchivePath) (ids : List EntryId) : Nat :=
  ids.countP fun id => (index.byId.lookup id).map ArchiveEntryDto.path = some path

/-- The number of files listed before a row at its path. Only files are listed more than
once. -/
def ordinal (index : EntryIndex) (row : ArchiveEntryDto) : Nat :=
  match row.kind with
  | .file => index.countAt row.path (index.sortedFileIds.takeWhile (· ≠ row.id))
  | .directory | .symlink => 0

def keyOf (index : EntryIndex) (row : ArchiveEntryDto) : EntryKey where
  kind := row.kind
  path := row.path.value
  ordinal := index.ordinal row

/-- Every row carries the id its assigner holds for its key, every listed file
is a row, and no row was overwritten. -/
structure Numbered (index : EntryIndex) (assigner : EntryIdAssigner) : Prop where
  sound : assigner.Sound
  rowId : ∀ {id row}, index.byId.lookup id = some row → row.id = id
  keyed : ∀ {id row}, index.byId.lookup id = some row →
    assigner.assigned.lookup (index.keyOf row) = some id
  listed : ∀ {id}, id ∈ index.sortedFileIds ↔
    ∃ row, index.byId.lookup id = some row ∧ row.kind = .file
  counted : index.byId.entries.length = index.entryCount

namespace Numbered

variable {index next : EntryIndex} {assigner later : EntryIdAssigner}

theorem initially (sound : assigner.Sound) (rows : index.byId = ∅)
    (files : index.sortedFileIds = []) (count : index.entryCount = 0) :
    index.Numbered assigner := by
  refine ⟨sound, ?_, ?_, ?_, ?_⟩
  · intro id row bound
    simp [rows] at bound
  · intro id row bound
    simp [rows] at bound
  · intro id
    simp [rows, files]
  · simp [rows, count]

variable {row : ArchiveEntryDto}

theorem ordinal_lt (numbered : index.Numbered assigner) {id : EntryId}
    (bound : index.byId.lookup id = some row) (file : row.kind = .file) :
    index.ordinal row < index.countAt row.path index.sortedFileIds := by
  have same := numbered.rowId bound
  subst id
  have mem : row.id ∈ index.sortedFileIds := numbered.listed.mpr ⟨row, bound, file⟩
  simp only [ordinal, file]
  exact countP_takeWhile_lt mem (by simp [bound])

theorem countAt_insert (rows : next.byId = index.byId.insert row.id row) (path : ArchivePath)
    {ids : List EntryId} (absent : row.id ∉ ids) :
    next.countAt path ids = index.countAt path ids := by
  apply countP_congr
  intro id mem
  have different : id ≠ row.id := fun same => absent (same ▸ mem)
  rw [rows, lookup_insert_ite, if_neg different]

/-- The index after a fresh row: the row is listed last if it is a file. -/
structure Adds (index : EntryIndex) (row : ArchiveEntryDto) (next : EntryIndex) : Prop where
  fresh : index.byId.lookup row.id = none
  rows : next.byId = index.byId.insert row.id row
  files : next.sortedFileIds = index.sortedFileIds ++ if row.kind = .file then [row.id] else []
  count : next.entryCount = index.entryCount + 1

section

variable (numbered : index.Numbered assigner)
include numbered

theorem notMem_of_adds (adds : Adds index row next) :
    row.id ∉ index.sortedFileIds := by
  intro mem
  obtain ⟨_, bound, _⟩ := numbered.listed.mp mem
  rw [adds.fresh] at bound
  cases bound

theorem ordinal_of_adds (adds : Adds index row next)
    {old : ArchiveEntryDto} {id : EntryId} (bound : index.byId.lookup id = some old) :
    next.ordinal old = index.ordinal old := by
  cases kind : old.kind with
  | directory | symlink => simp [ordinal, kind]
  | file =>
    have same := numbered.rowId bound
    subst id
    have mem : old.id ∈ index.sortedFileIds := numbered.listed.mpr ⟨old, bound, kind⟩
    simp only [ordinal, kind]
    rw [adds.files, takeWhile_append_of_mem mem]
    apply countAt_insert adds.rows
    intro earlier
    exact numbered.notMem_of_adds adds ((takeWhile_sublist _).subset earlier)

theorem ordinal_of_added (adds : Adds index row next)
    (file : row.kind = .file) : next.ordinal row = index.countAt row.path index.sortedFileIds := by
  have absent := numbered.notMem_of_adds adds
  simp only [ordinal, file]
  rw [adds.files, if_pos file, takeWhile_append_self absent]
  exact countAt_insert adds.rows row.path absent

theorem of_adds (sound : later.Sound) (grows : assigner.Extends later) (adds : Adds index row next)
    (keyed : later.assigned.lookup (next.keyOf row) = some row.id) : next.Numbered later := by
  refine ⟨sound, ?_, ?_, ?_, ?_⟩
  · intro id found bound
    rw [adds.rows, lookup_insert_ite] at bound
    split at bound
    next same =>
      cases bound
      exact same.symm
    · exact numbered.rowId bound
  · intro id found bound
    rw [adds.rows, lookup_insert_ite] at bound
    split at bound
    next same =>
      cases bound
      rw [keyed, same]
    · have old := numbered.keyed bound
      rw [keyOf, ← numbered.ordinal_of_adds adds bound] at old
      exact grows old
  · intro id
    rw [adds.files, adds.rows, mem_append, lookup_insert_ite]
    by_cases same : id = row.id
    · subst id
      rw [if_pos rfl]
      constructor
      · rintro (mem | mem)
        · exact (numbered.notMem_of_adds adds mem).elim
        · split at mem
          next file => exact ⟨row, rfl, file⟩
          · cases mem
      · rintro ⟨found, bound, file⟩
        cases bound
        exact .inr (by simp [file])
    · rw [if_neg same, ← numbered.listed]
      constructor
      · rintro (mem | mem)
        · exact mem
        · split at mem
          · exact (same (mem_singleton.mp mem)).elim
          · cases mem
      · exact .inl
  · have notMember : row.id ∉ index.byId := by
      rw [← AList.lookup_eq_none]
      exact adds.fresh
    rw [adds.rows, AList.entries_insert_of_notMem notMember,
      length_cons, numbered.counted, adds.count]

end

end Numbered

section

/-- Every path that was collected is canonical. -/
structure Collected.Clean (collected : Collected) : Prop where
  files : ∀ file ∈ collected.files, ArchivePath.Canonical file.1
  dirs : ∀ {path}, collected.dirs.lookup path ≠ none → ArchivePath.Canonical path

variable {dirs : KeyedMap Str RawEntry}

theorem lookup_orInsert_ne_none {path other : Str} {raw : RawEntry}
    (bound : (orInsert dirs path raw).lookup other ≠ none) :
    dirs.lookup other ≠ none ∨ other = path := by
  unfold orInsert at bound
  split at bound
  · exact .inl bound
  · rw [lookup_insert_ite] at bound
    split at bound
    · exact .inr (by assumption)
    · exact .inl bound

theorem canonical_of_parse {raw : Str} {path : ArchivePath}
    (parsed : parse (normalizeEntryPath raw) = .ok path) :
    ArchivePath.Canonical (normalizeEntryPath raw) := by
  have clean : '\\' ∉ normalizeEntryPath raw := by
    intro mem
    apply backslash_notMem_forwardSlashes raw
    have kept := mem_reverse.mp mem
    exact mem_reverse.mp ((dropWhile_sublist _).subset kept)
  have fault := fault_of_parse parsed
  rw [forwardSlashes_eq_self clean] at fault
  exact ⟨fault, clean⟩

variable {collected : Collected}

theorem Collected.Clean.collectEntry (clean : collected.Clean)
    (entry : ArchiveEntry) : (collectEntry collected entry).Clean := by
  unfold EntryIndex.collectEntry
  simp only
  split
  · exact clean
  next parsed =>
    have canonical := canonical_of_parse parsed
    split
    · exact clean
    · split
      · refine ⟨clean.files, ?_⟩
        intro _ bound
        rcases lookup_orInsert_ne_none bound with old | rfl
        · exact clean.dirs old
        · exact canonical
      · refine ⟨?_, clean.dirs⟩
        intro file mem
        rcases mem_append.mp mem with old | new
        · exact clean.files file old
        · rw [mem_singleton.mp new]
          exact canonical

theorem Collected.Clean.foldl_collectEntry (clean : collected.Clean)
    (entries : List ArchiveEntry) : (entries.foldl EntryIndex.collectEntry collected).Clean := by
  induction entries generalizing collected with
  | nil => exact clean
  | cons entry _ ih => exact ih (clean.collectEntry entry)

theorem lookup_foldl_orInsert_ne_none {implied : List Str} {path : Str}
    (bound : (implied.foldl (fun dirs path => orInsert dirs path RawEntry.implied)
      dirs).lookup path ≠ none) :
    dirs.lookup path ≠ none ∨ path ∈ implied := by
  induction implied generalizing dirs with
  | nil => exact .inl bound
  | cons first _ ih =>
    rcases ih bound with old | later
    · rcases lookup_orInsert_ne_none old with older | same
      · exact .inl older
      · exact .inr (same ▸ mem_cons_self)
    · exact .inr (mem_cons_of_mem first later)

theorem clean_collect (entries : List ArchiveEntry) : (collect entries).Clean := by
  have listed : (entries.foldl EntryIndex.collectEntry { files := [], dirs := ∅ }).Clean := by
    apply Collected.Clean.foldl_collectEntry
    refine ⟨?_, ?_⟩
    · intro file mem
      cases mem
    · intro path bound
      simp at bound
  refine ⟨listed.files, ?_⟩
  intro path bound
  rcases lookup_foldl_orInsert_ne_none bound with old | implied
  · exact listed.dirs old
  · rw [mem_sortedSet, mem_flatMap] at implied
    obtain ⟨_, childMember, ancestor⟩ := implied
    apply ArchivePath.Canonical.ancestor _ ancestor
    rcases mem_append.mp childMember with file | directory
    · obtain ⟨entry, mem, rfl⟩ := mem_map.mp file
      exact listed.files entry mem
    · apply listed.dirs
      intro unbound
      exact notMem_keys_iff.mpr unbound directory

end

section

/-- The index under construction while its files are added. -/
structure FilesNumbered (building : Building) : Prop where
  numbered : building.index.Numbered building.assigner
  ordinals : ∀ path : ArchivePath, (building.ordinals.lookup path.value).getD 0 =
    building.index.countAt path building.index.sortedFileIds
  onlyFiles : ∀ {id row}, building.index.byId.lookup id = some row → row.kind = .file

theorem addFile_row [CharTables] (building : Building) (file : Str × RawEntry) :
    ∃ row : ArchiveEntryDto, row.id = (building.assigner.assign
      { kind := .file
        path := file.1
        ordinal := (building.ordinals.lookup file.1).getD 0 }).1 ∧
        row.path = parseOrRoot file.1 ∧
        row.kind = .file ∧
        (addFile building file).index.byId = building.index.byId.insert row.id row ∧
        (addFile building file).index.sortedFileIds = building.index.sortedFileIds ++ [row.id] ∧
        (addFile building file).index.entryCount = building.index.entryCount + 1 :=
  ⟨_, rfl, rfl, rfl, rfl, rfl, rfl⟩

variable {building : Building}

/-- The id of the next file is fresh: a row that already had it would be a file of
this path with an ordinal that no file of this path has yet. -/
theorem FilesNumbered.fresh (state : FilesNumbered building) (path : Str) :
    building.index.byId.lookup (building.assigner.assign
      { kind := .file
        path := path
        ordinal := (building.ordinals.lookup path).getD 0 }).1 = none := by
  obtain ⟨sound, grows, keyed⟩ :=
    assign_spec state.numbered.sound
      { kind := .file
        path := path
        ordinal := (building.ordinals.lookup path).getD 0 }
  rw [eq_none_iff_forall_ne_some]
  intro old bound
  have below := state.numbered.ordinal_lt bound (state.onlyFiles bound)
  obtain ⟨-, samePath, sameOrdinal⟩ := EntryKey.mk.inj
    (sound.single (grows (state.numbered.keyed bound)) keyed)
  have counted := state.ordinals old.path
  rw [samePath] at counted
  rw [sameOrdinal, counted] at below
  exact lt_irrefl _ below

theorem FilesNumbered.addFile [CharTables] {building : Building} (state : FilesNumbered building)
    {file : Str × RawEntry} (canonical : ArchivePath.Canonical file.1) :
    FilesNumbered (EntryIndex.addFile building file) ∧
      building.assigner.Extends (EntryIndex.addFile building file).assigner := by
  obtain ⟨row, rowId, rowPath, rowKind, rows, files, count⟩ := addFile_row building file
  have rowValue : row.path.value = file.1 := by
    rw [rowPath, value_parseOrRoot canonical]
  obtain ⟨sound, grows, keyed⟩ : (EntryIndex.addFile building file).assigner.Sound ∧
      building.assigner.Extends (EntryIndex.addFile building file).assigner ∧
      (EntryIndex.addFile building file).assigner.assigned.lookup _ = _ :=
    assign_spec state.numbered.sound
      { kind := .file
        path := file.1
        ordinal := (building.ordinals.lookup file.1).getD 0 }
  rw [← rowId] at keyed
  have ordinal : (building.ordinals.lookup file.1).getD 0 =
      building.index.countAt row.path building.index.sortedFileIds := by
    rw [← rowValue]
    exact state.ordinals row.path
  have fresh : building.index.byId.lookup row.id = none := by
    rw [rowId]
    exact state.fresh file.1
  have adds : Numbered.Adds building.index row (EntryIndex.addFile building file).index := by
    refine ⟨fresh, rows, ?_, count⟩
    rw [files, if_pos rowKind]
  refine ⟨⟨state.numbered.of_adds sound grows adds ?_, ?_, ?_⟩, grows⟩
  · rw [keyOf, rowKind, rowValue, state.numbered.ordinal_of_added adds rowKind, ← ordinal]
    exact keyed
  · intro path
    have absent := state.numbered.notMem_of_adds adds
    have counted : (EntryIndex.addFile building file).index.countAt path
        (EntryIndex.addFile building file).index.sortedFileIds =
          building.index.countAt path building.index.sortedFileIds +
            if row.path = path then 1 else 0 := by
      rw [files, countAt, countP_append]
      congr 1
      · exact Numbered.countAt_insert rows path absent
      · simp [rows, countP_cons]
    have stored : ((EntryIndex.addFile building file).ordinals.lookup path.value).getD 0 =
        if path.value = file.1 then (building.ordinals.lookup file.1).getD 0 + 1
        else
          (building.ordinals.lookup path.value).getD 0 := by
      show ((building.ordinals.insert file.1 _).lookup path.value).getD 0 = _
      rw [lookup_insert_ite]
      split <;> rfl
    rw [counted, stored]
    by_cases same : row.path = path
    · subst path
      rw [if_pos rowValue, if_pos rfl, ordinal]
    · have differs : path.value ≠ file.1 := fun equal =>
        same (eq_of_value (rowValue.trans equal.symm))
      rw [if_neg same, if_neg differs, Nat.add_zero]
      exact state.ordinals path
  · intro _ _ bound
    rw [rows, lookup_insert_ite] at bound
    split at bound
    · cases bound
      exact rowKind
    · exact state.onlyFiles bound

theorem FilesNumbered.foldl_addFile [CharTables] {building : Building}
    (state : FilesNumbered building) {files : List (Str × RawEntry)}
    (canonical : ∀ file ∈ files, ArchivePath.Canonical file.1) :
    FilesNumbered (files.foldl EntryIndex.addFile building) ∧ building.assigner.Extends
      (files.foldl EntryIndex.addFile building).assigner := by
  induction files generalizing building with
  | nil => exact ⟨state, id⟩
  | cons file _ ih =>
    obtain ⟨added, grows⟩ := state.addFile (canonical file mem_cons_self)
    obtain ⟨numbered, later⟩ := ih added
      fun other mem => canonical other (mem_cons_of_mem file mem)
    exact ⟨numbered, fun bound => later (grows bound)⟩

/-- The index under construction while its directories are added. -/
structure DirectoriesNumbered (building : Building) (done : List Str) : Prop where
  numbered : building.index.Numbered building.assigner
  directories : ∀ {id row}, building.index.byId.lookup id = some row → row.kind = .directory →
    row.path.value ∈ done

theorem FilesNumbered.toDirectories (state : FilesNumbered building) :
    DirectoriesNumbered building [] := by
  refine ⟨state.numbered, ?_⟩
  intro _ _ bound isDirectory
  rw [state.onlyFiles bound] at isDirectory
  cases isDirectory

theorem addDirectory_row [Crc32] (building : Building) (directory : Str × RawEntry) :
    ∃ row : ArchiveEntryDto, row.id = (building.assigner.assign
      { kind := .directory
        path := directory.1
        ordinal := 0 }).1 ∧
        row.path = parseOrRoot directory.1 ∧
        row.kind = .directory ∧
        (addDirectory building directory).index.byId = building.index.byId.insert row.id row ∧
        (addDirectory building directory).index.sortedFileIds = building.index.sortedFileIds ∧
        (addDirectory building directory).index.entryCount = building.index.entryCount + 1 :=
  ⟨_, rfl, rfl, rfl, rfl, rfl, rfl⟩

variable {done : List Str}

theorem DirectoriesNumbered.fresh (state : DirectoriesNumbered building done)
    {path : Str} (once : path ∉ done) : building.index.byId.lookup (building.assigner.assign
      { kind := .directory
        path := path
        ordinal := 0 }).1 = none := by
  obtain ⟨sound, grows, keyed⟩ :=
    assign_spec state.numbered.sound
      { kind := .directory
        path := path
        ordinal := 0 }
  rw [eq_none_iff_forall_ne_some]
  intro _ bound
  obtain ⟨sameKind, samePath, -⟩ := EntryKey.mk.inj
    (sound.single (grows (state.numbered.keyed bound)) keyed)
  have listed := state.directories bound sameKind
  rw [samePath] at listed
  exact once listed

theorem DirectoriesNumbered.addDirectory [Crc32] {building : Building}
    (state : DirectoriesNumbered building done) {directory : Str × RawEntry}
    (canonical : ArchivePath.Canonical directory.1) (once : directory.1 ∉ done) :
    DirectoriesNumbered (EntryIndex.addDirectory building directory) (directory.1 :: done) ∧
      building.assigner.Extends (EntryIndex.addDirectory building directory).assigner := by
  obtain ⟨row, rowId, rowPath, rowKind, rows, files, count⟩ := addDirectory_row building directory
  have rowValue : row.path.value = directory.1 := by
    rw [rowPath, value_parseOrRoot canonical]
  obtain ⟨sound, grows, keyed⟩ : (EntryIndex.addDirectory building directory).assigner.Sound ∧
      building.assigner.Extends (EntryIndex.addDirectory building directory).assigner ∧
      (EntryIndex.addDirectory building directory).assigner.assigned.lookup
        _ = _ :=
    assign_spec state.numbered.sound
      { kind := .directory
        path := directory.1
        ordinal := 0 }
  rw [← rowId] at keyed
  have fresh : building.index.byId.lookup row.id = none := by
    rw [rowId]
    exact state.fresh once
  have adds : Numbered.Adds building.index row
      (EntryIndex.addDirectory building directory).index := by
    refine ⟨fresh, rows, ?_, count⟩
    rw [files, rowKind, if_neg (by decide), append_nil]
  refine ⟨⟨state.numbered.of_adds sound grows adds ?_, ?_⟩, grows⟩
  · rw [keyOf, ordinal, rowKind, rowValue]
    exact keyed
  · intro _ _ bound isDirectory
    rw [rows, lookup_insert_ite] at bound
    split at bound
    · cases bound
      rw [rowValue]
      exact mem_cons_self
    · exact mem_cons_of_mem _ (state.directories bound isDirectory)

theorem DirectoriesNumbered.foldl_addDirectory [Crc32] {building : Building}
    (state : DirectoriesNumbered building done) {directories : List (Str × RawEntry)}
    (canonical : ∀ entry ∈ directories, ArchivePath.Canonical entry.1)
    (distinct : (directories.map Prod.fst).Nodup) (once : ∀ entry ∈ directories, entry.1 ∉ done) :
    (directories.foldl EntryIndex.addDirectory building).index.Numbered
      (directories.foldl EntryIndex.addDirectory building).assigner ∧
      building.assigner.Extends (directories.foldl EntryIndex.addDirectory building).assigner := by
  induction directories generalizing building done with
  | nil => exact ⟨state.numbered, id⟩
  | cons entry _ ih =>
    obtain ⟨notLater, laterDistinct⟩ := nodup_cons.mp distinct
    obtain ⟨added, grows⟩ :=
      state.addDirectory (canonical entry mem_cons_self) (once entry mem_cons_self)
    obtain ⟨numbered, later⟩ := ih added
      (fun other mem => canonical other (mem_cons_of_mem entry mem))
      laterDistinct
      (by
        intro other mem listed
        rcases mem_cons.mp listed with same | earlier
        · exact notLater (same ▸ mem_map_of_mem mem)
        · exact once other (mem_cons_of_mem entry mem) earlier)
    exact ⟨numbered, fun bound => later (grows bound)⟩

end

variable {assigner : EntryIdAssigner}

theorem Numbered.of_rows {index next : EntryIndex}
    (numbered : index.Numbered assigner) (rows : next.byId = index.byId)
    (files : next.sortedFileIds = index.sortedFileIds)
    (count : next.entryCount = index.entryCount) : next.Numbered assigner := by
  have keys : ∀ row, next.keyOf row = index.keyOf row := by
    intro row
    simp [keyOf, ordinal, countAt, rows, files]
  refine ⟨numbered.sound, ?_, ?_, ?_, ?_⟩
  · intro id row bound
    exact numbered.rowId (rows ▸ bound)
  · intro id row bound
    rw [keys]
    exact numbered.keyed (rows ▸ bound)
  · intro id
    rw [files, rows]
    exact numbered.listed
  · rw [rows, count]
    exact numbered.counted

def orderedFiles (entries : List ArchiveEntry) : List (Str × RawEntry) :=
  (collect entries).files.insertionSort fun first second => first.1 ≤ second.1

def orderedDirs (entries : List ArchiveEntry) : List (Str × RawEntry) :=
  ((collect entries).dirs.entries.map fun entry => (entry.1, entry.2)).insertionSort
    fun first second => first.1 ≤ second.1

def Building.start (assigner : EntryIdAssigner) : Building where
  assigner := assigner
  ordinals := ∅
  folderTotals := ∅
  index :=
    { byId := ∅
      sortedFileIds := []
      children := ∅
      entryCount := 0
      totalUncompressedSize := 0 }

def Building.all [CharTables] [Crc32] (entries : List ArchiveEntry)
    (assigner : EntryIdAssigner) : Building :=
  (orderedDirs entries).foldl EntryIndex.addDirectory
    ((orderedFiles entries).foldl EntryIndex.addFile (.start assigner))

theorem canonical_orderedFiles {entries : List ArchiveEntry} {file : Str × RawEntry}
    (mem : file ∈ orderedFiles entries) : ArchivePath.Canonical file.1 :=
  (clean_collect entries).files file ((mem_insertionSort _).mp mem)

theorem canonical_orderedDirs {entries : List ArchiveEntry} {entry : Str × RawEntry}
    (mem : entry ∈ orderedDirs entries) : ArchivePath.Canonical entry.1 := by
  obtain ⟨_, listedMember, rfl⟩ := mem_map.mp ((mem_insertionSort _).mp mem)
  apply (clean_collect entries).dirs
  rw [lookup_eq_some_iff_mem.mpr listedMember]
  exact some_ne_none _

variable (entries : List ArchiveEntry)

theorem map_fst_orderedDirs :
    ((orderedDirs entries).map Prod.fst).Perm (collect entries).dirs.keys := by
  refine ((perm_insertionSort _ _).map Prod.fst).trans ?_
  rw [List.map_map]
  exact .refl _

theorem nodup_orderedDirs : ((orderedDirs entries).map Prod.fst).Nodup := by
  rw [(map_fst_orderedDirs entries).nodup_iff]
  exact (collect entries).dirs.nodupKeys

theorem FilesNumbered.start (sound : assigner.Sound) : FilesNumbered (.start assigner) := by
  refine ⟨Numbered.initially sound rfl rfl rfl, fun _ => rfl, ?_⟩
  intro _ _ bound
  simp [Building.start] at bound

theorem build_numbered [CharTables] [Crc32] (sound : assigner.Sound) :
    (build entries assigner).1.Numbered (build entries assigner).2 ∧
      assigner.Extends (build entries assigner).2 := by
  obtain ⟨filesNumbered, filesGrow⟩ :=
    (FilesNumbered.start sound).foldl_addFile
      fun _ mem => @canonical_orderedFiles entries _ mem
  obtain ⟨numbered, dirsGrow⟩ :=
    filesNumbered.toDirectories.foldl_addDirectory
      (fun _ mem => @canonical_orderedDirs entries _ mem)
      (nodup_orderedDirs entries) fun _ _ => not_mem_nil
  unfold build
  exact ⟨numbered.of_rows rfl rfl rfl, fun bound => dirsGrow (filesGrow bound)⟩

section

variable {older newer : KeyedMap EntryId ArchiveEntryDto}

theorem lookup_foldl_changed (change : ArchiveEntryDto → ArchiveEntryDto)
    (byId rows : KeyedMap EntryId ArchiveEntryDto) (ids : List EntryId) (id : EntryId) :
    (ids.foldl (fun rows id =>
      match byId.lookup id with
      | some row => rows.insert id (change row)
      | none => rows)
        rows).lookup id =
      if id ∈ ids ∧ byId.lookup id ≠ none then (byId.lookup id).map change
      else
        rows.lookup id := by
  induction ids generalizing rows with
  | nil => simp
  | cons first _ ih =>
    rw [foldl_cons, ih]
    cases bound : byId.lookup first with
    | none =>
      by_cases same : id = first
      · subst id
        simp [bound]
      · simp [same]
    | some row =>
      rw [lookup_insert_ite]
      by_cases same : id = first
      · subst id
        simp [bound]
      · simp [same]

theorem lookup_mapRows (change : ArchiveEntryDto → ArchiveEntryDto)
    (byId : KeyedMap EntryId ArchiveEntryDto) (id : EntryId) :
    (mapRows change byId).lookup id = (byId.lookup id).map change := by
  refine (lookup_foldl_changed change byId byId byId.keys id).trans ?_
  split
  · rfl
  next absent =>
    cases bound : byId.lookup id with
    | none => rfl
    | some =>
      have mem : id ∈ byId.keys := by
        by_contra unlisted
        rw [notMem_keys_iff, bound] at unlisted
        cases unlisted
      exact (absent ⟨mem, by simp [bound]⟩).elim

def identity (row : ArchiveEntryDto) : EntryId × ArchivePath × EntryKind :=
  (row.id, row.path, row.kind)

def SameIdentities (older newer : KeyedMap EntryId ArchiveEntryDto) : Prop :=
  ∀ id, (newer.lookup id).map identity = (older.lookup id).map identity

theorem SameIdentities.symm (same : SameIdentities older newer) : SameIdentities newer older :=
  fun id => (same id).symm

theorem SameIdentities.exists_older (same : SameIdentities older newer) {id : EntryId}
    {row : ArchiveEntryDto} (bound : newer.lookup id = some row) :
    ∃ old, older.lookup id = some old ∧ identity old = identity row := by
  have mapped := same id
  rw [bound, map_some] at mapped
  exact map_eq_some_iff.mp mapped.symm

theorem SameIdentities.mapRows (same : SameIdentities older newer)
    {change : ArchiveEntryDto → ArchiveEntryDto}
    (keeps : ∀ row, identity (change row) = identity row) :
    SameIdentities older (mapRows change newer) := by
  intro id
  rw [lookup_mapRows, ← same id, Option.map_map]
  congr 1
  funext row
  exact keeps row

theorem identity_patchRow (computed : Str × Str) (row : ArchiveEntryDto) :
    identity (patchRow computed row) = identity row := by
  unfold patchRow
  split <;> rfl

theorem sameIdentities_patched (computed : List (Str × Str))
    (state : Nat × KeyedMap EntryId ArchiveEntryDto) (same : SameIdentities older state.2) :
    SameIdentities older (computed.foldl (fun state sum =>
      (state.1 + (state.2.entries.countP fun entry => patchRow sum entry.2 ≠ entry.2),
        mapRows (patchRow sum) state.2)) state).2 := by
  induction computed generalizing state with
  | nil => exact same
  | cons sum _ ih => exact ih _ (same.mapRows (identity_patchRow sum))

variable (index : EntryIndex)

theorem sameIdentities_applyCrc32Backfill [CharTables] [Crc32] (computed : List (Str × Str)) :
    SameIdentities index.byId (index.applyCrc32Backfill computed).2.byId := by
  unfold applyCrc32Backfill
  simp only
  split
  · exact fun _ => rfl
  · apply SameIdentities.mapRows
    · exact sameIdentities_patched computed _ fun _ => rfl
    · intro _
      split <;> rfl

theorem applyCrc32Backfill_listed [CharTables] [Crc32] (computed : List (Str × Str)) :
    (index.applyCrc32Backfill computed).2.sortedFileIds = index.sortedFileIds ∧
      (index.applyCrc32Backfill computed).2.entryCount = index.entryCount := by
  unfold applyCrc32Backfill
  simp only
  split <;> exact ⟨rfl, rfl⟩

theorem SameIdentities.length_entries (same : SameIdentities older newer) :
    newer.entries.length = older.entries.length := by
  have keys : newer.keys.Perm older.keys := by
    refine (perm_ext_iff_of_nodup newer.nodupKeys older.nodupKeys).mpr ?_
    intro id
    have bound := same id
    rw [← not_iff_not]
    constructor
    · intro absent
      have unbound := notMem_keys_iff.mp absent
      apply notMem_keys_iff.mpr
      simpa [unbound] using bound.symm
    · intro absent
      have unbound := notMem_keys_iff.mp absent
      apply notMem_keys_iff.mpr
      simpa [unbound] using bound
  simpa [AList.keys, List.keys] using keys.length_eq

theorem Numbered.applyCrc32Backfill [CharTables] [Crc32] {index : EntryIndex}
    {assigner : EntryIdAssigner} (numbered : index.Numbered assigner)
    (computed : List (Str × Str)) : (index.applyCrc32Backfill computed).2.Numbered assigner := by
  have same := sameIdentities_applyCrc32Backfill index computed
  obtain ⟨files, count⟩ := applyCrc32Backfill_listed index computed
  have paths : ∀ id, ((index.applyCrc32Backfill computed).2.byId.lookup id).map
      ArchiveEntryDto.path = (index.byId.lookup id).map ArchiveEntryDto.path := by
    intro id
    have mapped := congrArg (Option.map fun value => value.2.1) (same id)
    rw [Option.map_map, Option.map_map] at mapped
    exact mapped
  have keys : ∀ {row old}, identity old = identity row →
      (index.applyCrc32Backfill computed).2.keyOf row = index.keyOf old := by
    intro row old sameRow
    obtain ⟨sameId, samePath, sameKind⟩ :
        old.id = row.id ∧ old.path = row.path ∧ old.kind = row.kind := by
      simpa [identity] using sameRow
    simp only [keyOf, ordinal, countAt, files, paths, sameId, samePath, sameKind]
  refine ⟨numbered.sound, ?_, ?_, ?_, ?_⟩
  · intro id row bound
    obtain ⟨old, oldBound, sameRow⟩ := same.exists_older bound
    have sameId : old.id = row.id := congrArg Prod.fst sameRow
    rw [← sameId]
    exact numbered.rowId oldBound
  · intro id row bound
    obtain ⟨old, oldBound, sameRow⟩ := same.exists_older bound
    rw [keys sameRow]
    exact numbered.keyed oldBound
  · intro id
    rw [files, numbered.listed]
    constructor
    · rintro ⟨old, oldBound, file⟩
      obtain ⟨row, bound, sameRow⟩ := same.symm.exists_older oldBound
      have sameKind : row.kind = old.kind := congrArg (·.2.2) sameRow
      exact ⟨row, bound, sameKind.trans file⟩
    · rintro ⟨row, bound, file⟩
      obtain ⟨old, oldBound, sameRow⟩ := same.exists_older bound
      have sameKind : old.kind = row.kind := congrArg (·.2.2) sameRow
      exact ⟨old, oldBound, sameKind.trans file⟩
  · rw [same.length_entries, numbered.counted, count]

end

def reindexes [CharTables] [Crc32] : EntryIdAssigner → List (List ArchiveEntry) → List EntryIndex
  | _, [] => []
  | assigner, entries :: later =>
    (build entries assigner).1 :: reindexes (build entries assigner).2 later

variable {assigner : EntryIdAssigner}

theorem exists_assigner_of_reindexes [CharTables] [Crc32] (listings : List (List ArchiveEntry))
    (sound : assigner.Sound) : ∃ final : EntryIdAssigner, final.Sound ∧ assigner.Extends final ∧
      ∀ index ∈ reindexes assigner listings,
        ∃ older, index.Numbered older ∧ older.Extends final := by
  induction listings generalizing assigner with
  | nil =>
    refine ⟨assigner, sound, id, ?_⟩
    intro index mem
    cases mem
  | cons entries _ ih =>
    obtain ⟨numbered, grows⟩ := build_numbered entries sound
    obtain ⟨final, finalSound, finalGrows, rest⟩ := ih numbered.sound
    refine ⟨final, finalSound, fun bound => finalGrows (grows bound), ?_⟩
    intro index mem
    rcases mem_cons.mp mem with rfl | older
    · exact ⟨_, numbered, finalGrows⟩
    · exact rest index older

variable {index : EntryIndex}

theorem Numbered.map_id
    (numbered : index.Numbered assigner) : index.rows.map ArchiveEntryDto.id = index.byId.keys := by
  rw [rows, List.map_map]
  refine map_congr_left fun entry mem => ?_
  exact numbered.rowId (lookup_eq_some_iff_mem.mpr mem)

theorem Numbered.nodup_ids
    (numbered : index.Numbered assigner) : (index.rows.map ArchiveEntryDto.id).Nodup := by
  rw [numbered.map_id]
  exact index.byId.nodupKeys

theorem Numbered.lookup_of_mem
    (numbered : index.Numbered assigner) {row : ArchiveEntryDto} (mem : row ∈ index.rows) :
    index.byId.lookup row.id = some row := by
  obtain ⟨_, listed, rfl⟩ := mem_map.mp mem
  have bound := lookup_eq_some_iff_mem.mpr listed
  rw [numbered.rowId bound]
  exact bound

/-- Over all listings of a session an id denotes one kind and path, and equal rows have one
id. -/
theorem entry_ids_stable [CharTables] [Crc32] (listings : List (List ArchiveEntry))
    {first second : EntryIndex} (firstIndexed : first ∈ reindexes new listings)
    (secondIndexed : second ∈ reindexes new listings) :
    (∀ {id row other}, first.byId.lookup id = some row → second.byId.lookup id = some other →
      row.kind = other.kind ∧ row.path = other.path ∧ first.ordinal row = second.ordinal other) ∧
    (∀ {row other}, row ∈ first.rows → other ∈ second.rows → row.kind = other.kind →
      row.path = other.path → first.ordinal row = second.ordinal other → row.id = other.id) ∧
    (first.rows.map ArchiveEntryDto.id).Nodup ∧ first.rows.length = first.entryCount := by
  obtain ⟨_, sound, -, numbering⟩ :=
    exists_assigner_of_reindexes listings EntryIdAssigner.Sound.initially
  obtain ⟨_, firstNumbered, firstGrows⟩ := numbering first firstIndexed
  obtain ⟨_, secondNumbered, secondGrows⟩ := numbering second secondIndexed
  refine ⟨?_, ?_, firstNumbered.nodup_ids, ?_⟩
  · intro id row other bound otherBound
    obtain ⟨kind, path, ordinal⟩ := EntryKey.mk.inj
      (sound.single (firstGrows (firstNumbered.keyed bound))
        (secondGrows (secondNumbered.keyed otherBound)))
    exact ⟨kind, eq_of_value path, ordinal⟩
  · intro row other mem otherMember kind path ordinal
    have keyed := firstGrows (firstNumbered.keyed (firstNumbered.lookup_of_mem mem))
    have otherKeyed := secondGrows (secondNumbered.keyed (secondNumbered.lookup_of_mem otherMember))
    have same : first.keyOf row = second.keyOf other := by rw [keyOf, keyOf, kind, path, ordinal]
    rw [same, otherKeyed] at keyed
    exact (some.inj keyed).symm
  · rw [rows, length_map]
    exact firstNumbered.counted

/-- A file is listed, gone, and listed again together with a duplicate. -/
def reappearing : List EntryIndex :=
  @reindexes asciiTables crc32Ieee new
    ([["a.txt", "b.txt"], ["b.txt"], ["b.txt", "a.txt", "a.txt"]].map
      fun paths => paths.map fun path =>
        { path := path.toList
          size := 3
          packedSize := 3
          isDir := false
          encrypted := false
          crc32 := none })

/-- The first id of that session denotes the file before and after. -/
theorem entry_ids_stable_of_reappearing : ∃ row other,
    (reappearing.get ⟨0, by decide⟩).byId.lookup 1 = some row ∧
      (reappearing.get ⟨2, by decide⟩).byId.lookup 1 = some other ∧
      row.path.value = "a.txt".toList ∧ row.path = other.path := by
  have before : ((reappearing.get ⟨0, by decide⟩).byId.lookup 1).isSome = true := by decide
  have after : ((reappearing.get ⟨2, by decide⟩).byId.lookup 1).isSome = true := by decide
  obtain ⟨row, bound⟩ := isSome_iff_exists.mp before
  obtain ⟨other, otherBound⟩ := isSome_iff_exists.mp after
  have named : (((reappearing.get ⟨0, by decide⟩).byId.lookup 1).map
      fun row => row.path.value) = some "a.txt".toList := by
    decide
  rw [bound] at named
  have stable := (@entry_ids_stable asciiTables crc32Ieee _ _ _
    (get_mem reappearing _) (get_mem reappearing _)).1
    bound otherBound
  exact ⟨row, other, bound, otherBound, some.inj named, stable.2.1⟩

end EntryIndex

end Arclain
