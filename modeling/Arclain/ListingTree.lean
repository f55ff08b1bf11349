import Arclain.IndexTree

namespace Arclain

/-!
# The tree that represents a listing

An index holds one row for every file that the listing has, and one for every directory
that is listed or that a path implies.  The rows are accounted for without their ids,
which the assigner chooses.
-/

open KeyedMap List ArchivePath FolderTotals

namespace Forest

variable {Node Place : Type*} {forest : Forest Node Place} {node other : Node} {place : Place}
  {depth : Nat}

theorem mem_subtree (mem : node ∈ forest.nodes place) (deep : forest.Deep depth node)
    (inside : other ∈ forest.subtree depth node) :
    other = node ∨
      forest.OpensTo node (forest.home other) ∧ other ∈ forest.nodes (forest.home other) := by
  classical
  have found : other ∈ (forest.subtree depth node).filter
      fun node => forest.home node = forest.home other :=
    mem_filter.mpr ⟨inside, decide_eq_true rfl⟩
  rw [filter_subtree mem deep] at found
  rcases mem_append.mp found with top | below
  · split at top
    · exact .inl (mem_singleton.mp top)
    · cases top
  · split at below
    next opensTo => exact .inr ⟨opensTo, below⟩
    · cases below

theorem OpensTo.trans (opensTo : forest.OpensTo node (forest.home other))
    (mem : other ∈ forest.nodes (forest.home other)) (inner : forest.OpensTo other place) :
    forest.OpensTo node place := by
  obtain ⟨first, opens, steps, isFirst⟩ := opensTo
  obtain ⟨more, isHome⟩ := inner.reaches mem
  refine ⟨first, opens, steps + more, ?_⟩
  rw [Function.iterate_add_apply, isHome, isFirst]

theorem pairwise_siblings (deep : ∀ node ∈ forest.nodes place, forest.Deep depth node)
    (each : ∀ node ∈ forest.nodes place, (forest.subtree depth node).Pairwise fun first second =>
      ¬ forest.OpensTo second (forest.home first)) :
    ((forest.nodes place).flatMap (forest.subtree depth)).Pairwise fun first second =>
      ¬ forest.OpensTo second (forest.home first) := by
  refine pairwise_flatMap.mpr ⟨each, (forest.nodup place).imp_of_mem ?_⟩
  intro left right leftMember rightMember differs first isFirst second isSecond opensTo
  have rightOpens : forest.OpensTo right (forest.home first) := by
    rcases mem_subtree rightMember (deep right rightMember) isSecond with rfl | ⟨below, mem⟩
    · exact opensTo
    · exact below.trans mem opensTo
  rcases mem_subtree leftMember (deep left leftMember) isFirst with rfl | ⟨below, _⟩
  · have deeper := rightOpens.rank_lt rightMember
    rw [forest.home_of_mem leftMember] at deeper
    exact Nat.lt_irrefl _ deeper
  · exact differs (below.unique leftMember rightMember rightOpens)

theorem pairwise_subtree (mem : node ∈ forest.nodes place) (deep : forest.Deep depth node) :
    (forest.subtree depth node).Pairwise fun first second =>
      ¬ forest.OpensTo second (forest.home first) := by
  induction depth generalizing node place with
  | zero => exact pairwise_singleton _ _
  | succ depth ih =>
    refine pairwise_cons.mpr ⟨fun second isBelow opensTo => ?_, ?_⟩
    · have inside : second ∈ forest.subtree (depth + 1) node := mem_cons_of_mem _ isBelow
      rcases mem_subtree mem deep inside with rfl | ⟨below, secondMember⟩
      · exact Nat.lt_irrefl _ (forest.home_of_mem mem ▸ opensTo.rank_lt mem)
      · have nodeMember := (forest.home_of_mem mem).symm ▸ mem
        exact Nat.lt_asymm (opensTo.rank_lt secondMember) (below.rank_lt nodeMember)
    · unfold below
      split
      · exact List.Pairwise.nil
      next opens =>
        exact pairwise_siblings (fun _ => deep.of_opens opens)
          fun child childMember => ih childMember (deep.of_opens opens childMember)

theorem pairwise_listing :
    forest.listing.Pairwise fun first second => ¬ forest.OpensTo second (forest.home first) :=
  pairwise_siblings (fun node _ => deep_height node)
    fun node mem => pairwise_subtree mem (deep_height node)

end Forest

namespace EntryIndex

open Text

section

/-- The path under which an entry is accepted. -/
def acceptedPath (entry : ArchiveEntry) : Option Str :=
  let canonical := normalizeEntryPath entry.path
  match parse canonical with
  | .error _ => none
  | .ok _ => if canonical = [] then none else some canonical

def rawEntry (entry : ArchiveEntry) : RawEntry where
  uncompressedSize := entry.size
  compressedSize := entry.packedSize
  modified := entry.modified
  encrypted := entry.encrypted
  crc32 := entry.crc32

def listedFiles (entries : List ArchiveEntry) : List (Str × RawEntry) :=
  entries.filterMap fun entry =>
    if entry.isDir then none else (acceptedPath entry).map (·, rawEntry entry)

theorem collectEntry_eq (collected : Collected) (entry : ArchiveEntry) :
    collectEntry collected entry =
      match acceptedPath entry with
      | none => collected
      | some path =>
        if entry.isDir then { collected with dirs := orInsert collected.dirs path (rawEntry entry) }
        else
          { collected with files := collected.files ++ [(path, rawEntry entry)] } := by
  unfold collectEntry acceptedPath
  dsimp only
  cases parse (normalizeEntryPath entry.path) with
  | error => rfl
  | ok => by_cases isRoot : normalizeEntryPath entry.path = [] <;> simp [isRoot, rawEntry]

theorem files_collect (entries : List ArchiveEntry) :
    (collect entries).files = listedFiles entries := by
  have after (collected : Collected) :
      (entries.foldl collectEntry collected).files = collected.files ++ listedFiles entries := by
    induction entries generalizing collected with
    | nil => exact (append_nil _).symm
    | cons entry _ ih =>
      rw [foldl_cons, ih, collectEntry_eq, listedFiles, listedFiles, filterMap_cons]
      cases accepted : acceptedPath entry with
      | none | some => by_cases isDir : entry.isDir <;> simp [isDir]
  exact after _

variable {dirs : KeyedMap Str RawEntry}

theorem mem_keys_orInsert_iff {path other : Str} {raw : RawEntry} :
    other ∈ (orInsert dirs path raw).keys ↔ other ∈ dirs.keys ∨ other = path := by
  refine ⟨fun isKey => ?_, mem_keys_orInsert⟩
  have bound := lookup_orInsert_ne_none fun unbound => notMem_keys_iff.mpr unbound isKey
  exact bound.imp_left fun old => by_contra fun absent => old (notMem_keys_iff.mp absent)

theorem mem_keys_foldl_orInsert_iff {implied : List Str} {path : Str} :
    path ∈ (implied.foldl (fun dirs path => orInsert dirs path RawEntry.implied) dirs).keys ↔
      path ∈ dirs.keys ∨ path ∈ implied := by
  induction implied generalizing dirs with
  | nil => simp
  | cons _ _ ih => rw [foldl_cons, ih, mem_keys_orInsert_iff, mem_cons, or_assoc]

theorem mem_dirs_collect {entries : List ArchiveEntry} {path : Str} :
    path ∈ (collect entries).dirs.keys ↔
      (∃ entry ∈ entries, entry.isDir = true ∧ acceptedPath entry = some path) ∨
        ∃ entry ∈ entries, ∃ below,
          acceptedPath entry = some below ∧ path ∈ entryAncestors below := by
  have listed (collected : Collected) {path : Str} :
      path ∈ (entries.foldl collectEntry collected).dirs.keys ↔ path ∈ collected.dirs.keys ∨
        ∃ entry ∈ entries, entry.isDir = true ∧ acceptedPath entry = some path := by
    induction entries generalizing collected with
    | nil => simp
    | cons entry _ ih =>
      rw [foldl_cons, ih, collectEntry_eq]
      cases accepted : acceptedPath entry with
      | none => simp [accepted]
      | some found =>
        by_cases isDir : entry.isDir
        · simp [accepted, isDir, mem_keys_orInsert_iff, or_assoc, @eq_comm _ path found]
        · simp [isDir]
  have files {path : Str} : path ∈ (entries.foldl collectEntry ⟨[], ∅⟩).files.map Prod.fst ↔
      ∃ entry ∈ entries, entry.isDir = false ∧ acceptedPath entry = some path := by
    rw [show (entries.foldl collectEntry ⟨[], ∅⟩).files = _ from files_collect entries]
    simp only [listedFiles, mem_map, mem_filterMap]
    constructor
    · rintro ⟨_, ⟨entry, mem, isFile⟩, rfl⟩
      split at isFile
      · cases isFile
      next notDir =>
        obtain ⟨found, accepted, rfl⟩ := Option.map_eq_some_iff.mp isFile
        exact ⟨entry, mem, by simpa using notDir, accepted⟩
    · rintro ⟨entry, mem, isFile, accepted⟩
      exact ⟨(path, rawEntry entry), ⟨entry, mem, by simp [isFile, accepted]⟩, rfl⟩
  rw [collect, mem_keys_foldl_orInsert_iff, mem_sortedSet, listed]
  simp only [mem_flatMap, mem_append, files, listed]
  refine or_congr (or_iff_right (by simp)) ⟨?_, ?_⟩
  · rintro ⟨below, ⟨entry, mem, _, accepted⟩ | isKey, above⟩
    · exact ⟨entry, mem, below, accepted, above⟩
    · obtain ⟨entry, mem, _, accepted⟩ := isKey.resolve_left (by simp)
      exact ⟨entry, mem, below, accepted, above⟩
  · rintro ⟨entry, mem, below, accepted, above⟩
    refine ⟨below, ?_, above⟩
    by_cases isDir : entry.isDir
    · exact .inr (.inr ⟨entry, mem, isDir, accepted⟩)
    · exact .inl ⟨entry, mem, by simpa using isDir, accepted⟩

theorem nodup_entryAncestors (path : Str) : (entryAncestors path).Nodup := by
  refine List.Nodup.map_on ?_ (nodup_range.filter _)
  intro _ firstMember _ secondMember same
  have inside {index : Nat} (mem : index ∈ (range path.length).filter
      fun index => path[index]? = some '/') : index < path.length :=
    mem_range.mp (mem_filter.mp mem).1
  have lengths := congrArg length same
  rw [length_take_of_le (inside firstMember).le,
    length_take_of_le (inside secondMember).le] at lengths
  exact lengths

def unnumbered (row : ArchiveEntryDto) : ArchiveEntryDto := { row with id := 0 }

theorem startsWith_iff {path directory : Str} :
    startsWith path (directory ++ ['/']) = true ↔ directory ∈ entryAncestors path := by
  rw [mem_entryAncestors, startsWith, isPrefixOf_iff_prefix]
  refine exists_congr fun rest => ?_
  rw [append_assoc, eq_comm]
  rfl

theorem rows_insert {index next : EntryIndex} {id : EntryId} {row : ArchiveEntryDto}
    (fresh : index.byId.lookup id = none) (isNext : next.byId = index.byId.insert id row) :
    next.rows.map unnumbered = unnumbered row :: index.rows.map unnumbered := by
  unfold rows
  rw [isNext, entries_insert_eq, filter_eq_self.mpr]
  · rfl
  · intro _ mem
    refine decide_eq_true fun same => ?_
    rw [← same, lookup_eq_some_iff_mem.mpr mem] at fresh
    cases fresh

def directoryRow [Crc32] (totals : FolderTotals)
    (directory : Str × RawEntry) : ArchiveEntryDto where
  id := 0
  path := parseOrRoot directory.1
  name := entryBasename directory.1
  kind := .directory
  compressedSize := some totals.compressedSize
  uncompressedSize := totals.uncompressedSize
  modifiedAtUnixMs := directory.2.modified.bind parseModifiedToUnixMs
  encrypted := directory.2.encrypted
  crc32 := totals.finalizeCrc

theorem rows_foldl_addDirectory [Crc32] {directories : List (Str × RawEntry)} {done : List Str}
    {building : Building} (state : DirectoriesNumbered building done)
    (canonical : ∀ directory ∈ directories, ArchivePath.Canonical directory.1)
    (distinct : (directories.map Prod.fst ++ done).Nodup) :
    (directories.foldl addDirectory building).index.rows.map unnumbered =
      (directories.map fun directory => directoryRow
        ((building.folderTotals.lookup directory.1).getD empty) directory).reverse ++
        building.index.rows.map unnumbered := by
  induction directories generalizing building done with
  | nil => rfl
  | cons directory rest ih =>
    obtain ⟨first, others⟩ := forall_mem_cons.mp canonical
    obtain ⟨absent, _⟩ := nodup_cons.mp distinct
    obtain ⟨notLater, once⟩ := not_or.mp (mt mem_append.mpr absent)
    rw [foldl_cons, ih (state.addDirectory first once).1 others
      (perm_middle.nodup_iff.mpr distinct), rows_insert (state.fresh once) rfl]
    have same : ∀ other ∈ rest, directoryRow
        (((addDirectory building directory).folderTotals.lookup other.1).getD
          empty) other =
        directoryRow ((building.folderTotals.lookup other.1).getD empty) other := by
      intro other mem
      have differs : other.1 ≠ directory.1 := fun same =>
        notLater (same ▸ mem_map_of_mem mem)
      rw [addDirectory, lookup_erase_ite, if_neg differs]
    rw [map_congr_left same]
    simp [unnumbered, directoryRow]

theorem filter_kinds {directories files : List ArchiveEntryDto}
    (areDirectories : ∀ row ∈ directories, row.kind = .directory)
    (areFiles : ∀ row ∈ files, row.kind = .file) :
    (directories ++ files).filter (·.kind = .directory) = directories ∧
      (directories ++ files).filter (·.kind = .file) = files := by
  constructor
  · rw [filter_append, filter_eq_self.mpr fun row mem =>
      decide_eq_true (areDirectories row mem), filter_eq_nil_iff.mpr fun row mem => by
        simp [areFiles row mem], append_nil]
  · rw [filter_append, filter_eq_nil_iff.mpr fun row mem => by
      simp [areDirectories row mem], filter_eq_self.mpr fun row mem =>
        decide_eq_true (areFiles row mem), nil_append]

end

section

variable [CharTables]

/-- The row of a file, without an id. -/
def fileRow (file : Str × RawEntry) : ArchiveEntryDto where
  id := 0
  path := parseOrRoot file.1
  name := entryBasename file.1
  kind := .file
  compressedSize := some file.2.compressedSize
  uncompressedSize := file.2.uncompressedSize
  modifiedAtUnixMs := file.2.modified.bind parseModifiedToUnixMs
  encrypted := file.2.encrypted
  crc32 := file.2.crc32

/-- The totals of a directory over the files below it. -/
def totalsOf (directory : Str) (files : List (Str × RawEntry)) : FolderTotals :=
  (files.filter (directory ∈ entryAncestors ·.1)).foldl
    (fun totals file => totals.addFile file.1 file.2) empty

theorem totals_addFile (building : Building) (file : Str × RawEntry) (directory : Str) :
    ((addFile building file).folderTotals.lookup directory).getD empty =
      if directory ∈ entryAncestors file.1 then
        ((building.folderTotals.lookup directory).getD empty).addFile file.1 file.2
      else
        (building.folderTotals.lookup directory).getD empty := by
  have each (ancestors : List Str) (distinct : ancestors.Nodup)
      (totals : KeyedMap Str FolderTotals) :
      ((ancestors.foldl (fun totals ancestor => totals.insert ancestor
        (((totals.lookup ancestor).getD empty).addFile file.1 file.2))
        totals).lookup directory).getD empty =
        if directory ∈ ancestors then
          ((totals.lookup directory).getD empty).addFile file.1 file.2
        else
          (totals.lookup directory).getD empty := by
    induction ancestors generalizing totals with
    | nil => rfl
    | cons first _ ih =>
      obtain ⟨absent, distinctRest⟩ := nodup_cons.mp distinct
      rw [foldl_cons, ih distinctRest, lookup_insert_ite]
      by_cases same : directory = first
      · subst same
        simp [absent]
      · simp [same]
  exact each _ (nodup_entryAncestors file.1) _

theorem totals_foldl_addFile (files : List (Str × RawEntry)) (building : Building)
    (directory : Str) :
    ((files.foldl addFile building).folderTotals.lookup directory).getD empty =
      (files.filter (directory ∈ entryAncestors ·.1)).foldl
        (fun totals file => totals.addFile file.1 file.2)
        ((building.folderTotals.lookup directory).getD empty) := by
  induction files generalizing building with
  | nil => rfl
  | cons file _ ih =>
    rw [foldl_cons, ih, totals_addFile, filter_cons]
    by_cases isAncestor : directory ∈ entryAncestors file.1 <;> simp [isAncestor]

theorem rows_foldl_addFile {files : List (Str × RawEntry)} {building : Building}
    (state : FilesNumbered building) (canonical : ∀ file ∈ files, ArchivePath.Canonical file.1) :
    (files.foldl addFile building).index.rows.map unnumbered =
      (files.map fileRow).reverse ++ building.index.rows.map unnumbered := by
  induction files generalizing building with
  | nil => rfl
  | cons file _ ih =>
    obtain ⟨first, others⟩ := forall_mem_cons.mp canonical
    rw [foldl_cons, ih (state.addFile first).1 others, rows_insert (state.fresh file.1) rfl]
    simp [unnumbered, fileRow]

theorem rows_build [Crc32] (entries : List ArchiveEntry) {assigner : EntryIdAssigner}
    (sound : assigner.Sound) :
    (build entries assigner).1.rows.map unnumbered = ((orderedDirs entries).map fun directory =>
      directoryRow (totalsOf directory.1 (orderedFiles entries)) directory).reverse ++
      ((orderedFiles entries).map fileRow).reverse := by
  have files := FilesNumbered.start sound
  have state := (files.foldl_addFile fun _ => @canonical_orderedFiles entries _).1.toDirectories
  have added := rows_foldl_addDirectory state (fun _ => @canonical_orderedDirs entries _)
    (by simpa using nodup_orderedDirs entries)
  rw [rows_foldl_addFile files fun _ => @canonical_orderedFiles entries _] at added
  simp only [totals_foldl_addFile] at added
  refine added.trans ?_
  simp [Building.start, rows, totalsOf]

theorem sizes_totalsOf (directory : Str) (files : List (Str × RawEntry)) :
    (totalsOf directory files).uncompressedSize = min ((files.filter
      (directory ∈ entryAncestors ·.1)).map (·.2.uncompressedSize)).sum (2 ^ 64 - 1) ∧
      (totalsOf directory files).compressedSize = min ((files.filter
        (directory ∈ entryAncestors ·.1)).map (·.2.compressedSize)).sum (2 ^ 64 - 1) := by
  have after (files : List (Str × RawEntry)) (totals : FolderTotals) (first second : Nat)
      (isFirst : totals.uncompressedSize = min first (2 ^ 64 - 1))
      (isSecond : totals.compressedSize = min second (2 ^ 64 - 1)) :
      (files.foldl (fun totals file => totals.addFile file.1 file.2) totals).uncompressedSize =
        min (first + (files.map (·.2.uncompressedSize)).sum) (2 ^ 64 - 1) ∧
        (files.foldl (fun totals file => totals.addFile file.1 file.2) totals).compressedSize =
          min (second + (files.map (·.2.compressedSize)).sum) (2 ^ 64 - 1) := by
    induction files generalizing totals first second with
    | nil => exact ⟨isFirst, isSecond⟩
    | cons file _ ih =>
      simp only [foldl_cons, map_cons, sum_cons, ← Nat.add_assoc]
      refine ih _ _ _ ?_ ?_
      · change saturatingAdd totals.uncompressedSize _ = _
        rw [saturatingAdd, isFirst]
        omega
      · change saturatingAdd totals.compressedSize _ = _
        rw [saturatingAdd, isSecond]
        omega
  have sizes := after (files.filter (directory ∈ entryAncestors ·.1)) empty 0 0 rfl rfl
  rwa [Nat.zero_add, Nat.zero_add] at sizes

end

def filesBelow (index : EntryIndex) (directory : ArchivePath) : List ArchiveEntryDto :=
  index.rows.filter fun row =>
    row.kind = .file && startsWith row.path.value (directory.value ++ ['/'])

/-- An index that is the tree of a listing. -/
structure RepresentsListing [CharTables] (index : EntryIndex) (entries : List ArchiveEntry) :
    Prop where
  files : ((index.rows.filter (·.kind = .file)).map unnumbered).Perm
    ((listedFiles entries).map fileRow)
  directories : ∀ path, path ∈ (index.rows.filter (·.kind = .directory)).map (·.path.value) ↔
    (∃ entry ∈ entries, entry.isDir = true ∧ acceptedPath entry = some path) ∨
    ∃ entry ∈ entries, ∃ below, acceptedPath entry = some below ∧ path ∈ entryAncestors below
  directoriesOnce : ((index.rows.filter (·.kind = .directory)).map (·.path.value)).Nodup
  kinds : ∀ row ∈ index.rows, row.kind = .file ∨ row.kind = .directory
  sizes : ∀ row ∈ index.rows, row.kind = .directory → row.uncompressedSize =
    min ((index.filesBelow row.path).map (·.uncompressedSize)).sum (2 ^ 64 - 1) ∧
      row.compressedSize =
        some (min ((index.filesBelow row.path).map (·.compressedSize.getD 0)).sum (2 ^ 64 - 1))
  children : ∀ row ∈ index.rows, ∀ directory,
    row.id ∈ index.childrenOf directory ↔ homeOf row = directory
  childrenOnce : ∀ directory, (index.childrenOf directory).Nodup
  entries : index.allEntries.Perm index.rows ∧ index.allEntries.length = index.entryCount ∧
    index.allEntries.Nodup
  parentsFirst : index.allEntries.Pairwise fun first second =>
    ¬ (second.kind = .directory ∧ second.path = homeOf first)
  ends : ∀ steps, index.entryCount ≤ steps →
    index.walkEntries steps (index.childrenOf root) = index.allEntries

variable {index : EntryIndex}

theorem Tree.allEntries_perm [CharTables] (tree : index.Tree)
    {assigner : EntryIdAssigner} (numbered : index.Numbered assigner) :
    index.allEntries.Perm index.rows ∧ index.allEntries.Nodup := by
  have once := @Forest.nodup_listing _ _ tree.forest
  rw [← tree.allEntries_eq] at once
  refine ⟨(perm_ext_iff_of_nodup once (List.Nodup.of_map _ numbered.nodup_ids)).mpr ?_, once⟩
  exact fun row => tree.mem_allEntries.trans ⟨mem_rows_of_lookup, numbered.lookup_of_mem⟩

theorem Tree.walkEntries_ends [CharTables] (tree : index.Tree) {steps : Nat}
    (enough : index.rows.length ≤ steps) :
    index.walkEntries steps (index.childrenOf root) = index.allEntries := by
  have found : ∀ id ∈ index.childrenOf root, ∃ row, index.byId.lookup id = some row :=
    fun id mem => (tree.children.mp mem).imp fun _ bound => bound.1
  rw [tree.allEntries_eq, tree.walkEntries_eq found]
  exact @Forest.walk_root _ _ tree.forest steps index.rows
    (fun _ _ mem => mem_rows_of_lookup (tree.mem_childRows.mp mem).1) enough

section

variable [CharTables] [Crc32] {entries : List ArchiveEntry} {assigner : EntryIdAssigner}

theorem kinds_build (entries : List ArchiveEntry) (sound : assigner.Sound) :
    ((build entries assigner).1.rows.filter (·.kind = .directory)).map unnumbered =
      ((orderedDirs entries).map fun directory =>
        directoryRow (totalsOf directory.1 (orderedFiles entries)) directory).reverse ∧
      ((build entries assigner).1.rows.filter (·.kind = .file)).map unnumbered =
        ((orderedFiles entries).map fileRow).reverse := by
  have rows := rows_build entries sound
  obtain ⟨directories, files⟩ := @filter_kinds ((orderedDirs entries).map fun directory =>
    directoryRow (totalsOf directory.1 (orderedFiles entries)) directory).reverse
    ((orderedFiles entries).map fileRow).reverse
    (by simp only [mem_reverse, mem_map]; rintro row ⟨_, _, rfl⟩; rfl)
    (by simp only [mem_reverse, mem_map]; rintro row ⟨_, _, rfl⟩; rfl)
  rw [← rows, filter_map] at directories files
  exact ⟨directories, files⟩

theorem filesBelow_build (entries : List ArchiveEntry) (sound : assigner.Sound)
    (directory : ArchivePath) : ((build entries assigner).1.filesBelow directory).map unnumbered =
      (((orderedFiles entries).filter
        (directory.value ∈ entryAncestors ·.1)).map fileRow).reverse := by
  have below := congrArg (filter fun row =>
    startsWith row.path.value (directory.value ++ ['/'])) (kinds_build entries sound).2
  rw [filter_map, filter_filter, filter_reverse, filter_map] at below
  refine Eq.trans ?_ (below.trans ?_)
  · unfold filesBelow
    congr 2
    funext row
    exact Bool.and_comm _ _
  · congr 2
    refine filter_congr fun file mem => ?_
    have isPath := value_parseOrRoot (canonical_orderedFiles mem)
    rw [Bool.eq_iff_iff, Function.comp_apply, fileRow, isPath, startsWith_iff, decide_eq_true_iff]

theorem directoryPaths_build (entries : List ArchiveEntry) (sound : assigner.Sound) :
    ((build entries assigner).1.rows.filter (·.kind = .directory)).map (·.path.value) =
      ((orderedDirs entries).map Prod.fst).reverse := by
  have values := congrArg (map (·.path.value)) (kinds_build entries sound).1
  rw [map_map] at values
  refine values.trans ?_
  rw [map_reverse, map_map]
  refine congrArg reverse (map_congr_left fun directory mem => ?_)
  exact value_parseOrRoot (canonical_orderedDirs mem)

variable {row : ArchiveEntryDto}

theorem mem_rows_build (sound : assigner.Sound) (mem : row ∈ (build entries assigner).1.rows) :
    row.kind = .directory ∨ ∃ file ∈ orderedFiles entries, unnumbered row = fileRow file := by
  have account : unnumbered row ∈ (build entries assigner).1.rows.map unnumbered :=
    mem_map_of_mem mem
  rw [rows_build entries sound, mem_append, mem_reverse, mem_reverse] at account
  rcases account with isDirectory | isFile
  · obtain ⟨_, _, same⟩ := mem_map.mp isDirectory
    exact .inl (congrArg ArchiveEntryDto.kind same).symm
  · obtain ⟨file, listed, same⟩ := mem_map.mp isFile
    exact .inr ⟨file, listed, same.symm⟩

theorem sizes_build (sound : assigner.Sound)
    (mem : row ∈ (build entries assigner).1.rows) (isDirectory : row.kind = .directory) :
    row.uncompressedSize = min (((build entries assigner).1.filesBelow row.path).map
      (·.uncompressedSize)).sum (2 ^ 64 - 1) ∧
      row.compressedSize = some (min (((build entries assigner).1.filesBelow row.path).map
        (·.compressedSize.getD 0)).sum (2 ^ 64 - 1)) := by
  have isRow : unnumbered row ∈ ((build entries assigner).1.rows.filter
      (·.kind = .directory)).map unnumbered :=
    mem_map_of_mem (mem_filter.mpr ⟨mem, decide_eq_true isDirectory⟩)
  rw [(kinds_build entries sound).1, mem_reverse] at isRow
  obtain ⟨directory, listed, same⟩ := mem_map.mp isRow
  have isPath : row.path.value = directory.1 :=
    (congrArg (·.path.value) same).symm.trans
      (value_parseOrRoot (canonical_orderedDirs listed))
  obtain ⟨uncompressed, compressed⟩ := sizes_totalsOf directory.1 (orderedFiles entries)
  have below := filesBelow_build entries sound row.path
  have first := congrArg (fun rows => (rows.map (·.uncompressedSize)).sum) below
  have second := congrArg (fun rows => (rows.map (·.compressedSize.getD 0)).sum) below
  simp only [isPath, map_map, map_reverse, sum_reverse] at first second
  have isSize : row.uncompressedSize = _ := (congrArg (·.uncompressedSize) same).symm
  have isCompressed : row.compressedSize = _ := (congrArg (·.compressedSize) same).symm
  rw [isSize, isCompressed, directoryRow, uncompressed, compressed]
  constructor
  · exact congrArg (min · _) first.symm
  · exact congrArg (fun sum => some (min sum _)) second.symm

/-- The tree of a listing is built, whatever the ids. -/
theorem build_represents (sound : assigner.Sound) :
    (build entries assigner).1.RepresentsListing entries := by
  obtain ⟨numbered, _⟩ := build_numbered entries sound
  have tree := tree_build entries sound
  obtain ⟨perm, nodup⟩ := tree.allEntries_perm numbered
  have count : (build entries assigner).1.rows.length = (build entries assigner).1.entryCount :=
    (length_map _).trans numbered.counted
  exact
    { files := by
        rw [(kinds_build entries sound).2, ← files_collect]
        exact (reverse_perm _).trans ((perm_insertionSort _ _).map _)
      directories := fun path => by
        rw [directoryPaths_build entries sound, mem_reverse,
          (map_fst_orderedDirs entries).mem_iff, mem_dirs_collect]
      directoriesOnce := by
        rw [directoryPaths_build entries sound, nodup_reverse]
        exact nodup_orderedDirs entries
      kinds := fun row mem => (mem_rows_build sound mem).symm.imp_left fun ⟨_, _, same⟩ =>
        congrArg ArchiveEntryDto.kind same
      sizes := fun _ => sizes_build sound
      children := fun row mem directory => by
        have bound := numbered.lookup_of_mem mem
        rw [tree.children]
        constructor
        · rintro ⟨_, sameBound, isHome⟩
          obtain rfl := Option.some.inj (bound.symm.trans sameBound)
          exact isHome
        · exact fun isHome => ⟨row, bound, isHome⟩
      childrenOnce := tree.nodup
      entries := ⟨perm, perm.length_eq.trans count, nodup⟩
      parentsFirst := by
        rw [tree.allEntries_eq]
        refine Forest.pairwise_listing.imp fun {first second} notBelow parent => ?_
        exact notBelow ⟨_, if_pos parent.1, parent.2 ▸ Forest.Reaches.refl _⟩
      ends := fun _ enough => tree.walkEntries_ends (count.le.trans enough) }

end

/-- A file that is listed twice, before its directory. -/
def duplicateListing : List ArchiveEntry :=
  [⟨"a/b.txt".toList, 3, 2, none, false, false, none⟩,
    ⟨"a\\b.txt".toList, 4, 2, none, false, false, none⟩,
    ⟨"a/".toList, 0, 0, none, true, false, none⟩]

/-- One path listed twice. -/
theorem duplicateListing_represented :
    @RepresentsListing asciiTables (@build asciiTables crc32Ieee duplicateListing .new).1
      duplicateListing :=
  @build_represents asciiTables crc32Ieee _ _ EntryIdAssigner.Sound.initially

end EntryIndex

end Arclain
