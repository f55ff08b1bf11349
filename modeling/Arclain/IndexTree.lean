import Arclain.ArchiveQueries
import Arclain.Forest
import Mathlib.Algebra.Order.BigOperators.Group.List
import Mathlib.Algebra.Order.Group.Nat

namespace Arclain

/-!
# The tree of an entry index

Every row of an index is a child of the directory that its path is in, and that directory is
a row as well.  The walk of `all_entries` is that of a forest, so it visits every row once.
-/

open KeyedMap List Option Text ArchiveEntryDto ArchivePath

namespace EntryIndex

section

theorem entryParent_cases (path : Str) : ('/' ∉ path ∧ entryParent path = []) ∨
    (path = entryParent path ++ '/' :: entryBasename path ∧ '/' ∉ entryBasename path) := by
  unfold entryParent entryBasename
  cases found : rsplitOnce '/' path with
  | some => exact .inr (rsplitOnce_spec found)
  | none =>
    refine .inl ⟨fun slash => ?_, rfl⟩
    rw [rsplitOnce, if_pos slash] at found
    cases found

variable {path : Str}

theorem length_entryParent_lt (nonempty : path ≠ []) : (entryParent path).length < path.length := by
  rcases entryParent_cases path with ⟨_, isRoot⟩ | ⟨split, _⟩
  · rw [isRoot]
    exact length_pos_iff.mpr nonempty
  · have lengths := congrArg List.length split
    rw [length_append, length_cons] at lengths
    omega

theorem mem_entryAncestors {path ancestor : Str} :
    ancestor ∈ entryAncestors path ↔ ∃ rest, path = ancestor ++ '/' :: rest := by
  unfold entryAncestors
  rw [List.mem_map]
  constructor
  · rintro ⟨index, mem, rfl⟩
    have slash : path[index]? = some '/' := by simpa using (mem_filter.mp mem).2
    obtain ⟨_, atIndex⟩ := List.getElem?_eq_some_iff.mp slash
    refine ⟨path.drop (index + 1), ?_⟩
    rw [← atIndex, cons_getElem_drop_succ, take_append_drop]
  · rintro ⟨rest, rfl⟩
    refine ⟨ancestor.length, ?_, take_left⟩
    simp

theorem entryParent_mem (inner : entryParent path ≠ []) :
    entryParent path ∈ entryAncestors path := by
  rcases entryParent_cases path with ⟨_, isRoot⟩ | ⟨split, _⟩
  · exact absurd isRoot inner
  · exact mem_entryAncestors.mpr ⟨_, split⟩

theorem entryAncestors_trans {path ancestor higher : Str} (mem : ancestor ∈ entryAncestors path)
    (above : higher ∈ entryAncestors ancestor) : higher ∈ entryAncestors path := by
  obtain ⟨rest, rfl⟩ := mem_entryAncestors.mp mem
  obtain ⟨between, rfl⟩ := mem_entryAncestors.mp above
  exact mem_entryAncestors.mpr ⟨between ++ '/' :: rest, by simp⟩

theorem canonical_entryParent (canonical : ArchivePath.Canonical path) :
    ArchivePath.Canonical (entryParent path) := by
  by_cases isRoot : entryParent path = []
  · rw [isRoot]
    exact ⟨rfl, not_mem_nil⟩
  · exact canonical.ancestor (entryParent_mem isRoot)

theorem length_parseOrRoot_le (path : Str) :
    (ArchivePath.parseOrRoot path).value.length ≤ path.length := by
  unfold ArchivePath.parseOrRoot
  split
  next parsed =>
    unfold parse at parsed
    split at parsed
    · cases parsed
    · cases parsed
      simp [forwardSlashes, replaceChar]
  · exact Nat.zero_le _

end

def homeOf (row : ArchiveEntryDto) : ArchivePath :=
  ArchivePath.parseOrRoot (entryParent row.path.value)

def childRows (index : EntryIndex) (directory : ArchivePath) : List ArchiveEntryDto :=
  (index.childrenOf directory).filterMap index.byId.lookup

/-- The rows are the children of their directories, with paths among some and directories
for others. -/
structure Housed (index : EntryIndex) (paths directories : List Str) : Prop where
  children : ∀ {directory id}, id ∈ index.childrenOf directory ↔
    ∃ row, index.byId.lookup id = some row ∧ homeOf row = directory
  nodup : ∀ directory, (index.childrenOf directory).Nodup
  listed : ∀ {id row}, index.byId.lookup id = some row → row.path.value ∈ paths
  filled : ∀ path ∈ directories, ∃ id row, index.byId.lookup id = some row ∧
    row.kind = .directory ∧ row.path.value = path

/-- The index after a fresh row was added below its directory. -/
structure AddsChild (index : EntryIndex) (row : ArchiveEntryDto) (next : EntryIndex) : Prop where
  fresh : index.byId.lookup row.id = none
  rows : next.byId = index.byId.insert row.id row
  children : next.children =
    index.children.insert (homeOf row) (index.childrenOf (homeOf row) ++ [row.id])

section

variable {index next : EntryIndex} {paths directories : List Str} {row : ArchiveEntryDto}

theorem AddsChild.childrenOf_eq (adds : AddsChild index row next) (directory : ArchivePath) :
    next.childrenOf directory =
      if directory = homeOf row then index.childrenOf directory ++ [row.id]
      else
        index.childrenOf directory := by
  unfold childrenOf
  rw [adds.children, lookup_insert_ite]
  split
  next same =>
    rw [same]
    rfl
  · rfl

theorem Housed.add (housed : index.Housed paths directories) (adds : AddsChild index row next)
    (isListed : row.path.value ∈ paths) : next.Housed paths directories := by
  have absent (directory : ArchivePath) : row.id ∉ index.childrenOf directory := by
    intro mem
    obtain ⟨_, bound, _⟩ := housed.children.mp mem
    rw [adds.fresh] at bound
    cases bound
  refine ⟨?_, ?_, ?_, ?_⟩
  · intro directory id
    rw [adds.childrenOf_eq, adds.rows, lookup_insert_ite]
    by_cases isNew : id = row.id
    · subst isNew
      rw [if_pos rfl]
      constructor
      · intro mem
        split at mem
        next same => exact ⟨row, rfl, same.symm⟩
        · exact absurd mem (absent directory)
      · rintro ⟨found, bound, rfl⟩
        cases bound
        rw [if_pos rfl]
        simp
    · rw [if_neg isNew, ← housed.children]
      split
      · simp [isNew]
      · rfl
  · intro directory
    rw [adds.childrenOf_eq]
    split
    · exact nodup_append.mpr ⟨housed.nodup directory, nodup_singleton _,
        fun first firstMember second secondMember same =>
          absent directory (mem_singleton.mp secondMember ▸ same ▸ firstMember)⟩
    · exact housed.nodup directory
  · intro id found bound
    rw [adds.rows, lookup_insert_ite] at bound
    split at bound
    · cases bound
      exact isListed
    · exact housed.listed bound
  · intro path mem
    obtain ⟨id, found, bound, isDirectory, isPath⟩ := housed.filled path mem
    refine ⟨id, found, ?_, isDirectory, isPath⟩
    rw [adds.rows, lookup_insert_ite, if_neg]
    · exact bound
    · rintro rfl
      rw [adds.fresh] at bound
      cases bound

theorem Housed.addDirectory (housed : index.Housed paths directories)
    (adds : AddsChild index row next) (isListed : row.path.value ∈ paths)
    (isDirectory : row.kind = .directory) : next.Housed paths (row.path.value :: directories) := by
  have added := housed.add adds isListed
  refine ⟨added.children, added.nodup, added.listed, ?_⟩
  intro path mem
  rcases mem_cons.mp mem with rfl | before
  · refine ⟨row.id, row, ?_, isDirectory, rfl⟩
    rw [adds.rows, lookup_insert_ite, if_pos rfl]
  · exact added.filled path before

variable {building : Building}

theorem addFile_addsChild [CharTables] (state : FilesNumbered building)
    {file : Str × RawEntry} (canonical : ArchivePath.Canonical file.1) :
    ∃ row : ArchiveEntryDto, row.path.value = file.1 ∧
      AddsChild building.index row (addFile building file).index := by
  refine ⟨_, ArchivePath.value_parseOrRoot canonical, state.fresh file.1, rfl, ?_⟩
  rw [homeOf]
  dsimp only
  rw [ArchivePath.value_parseOrRoot canonical]
  rfl

theorem addDirectory_addsChild [Crc32] {done : List Str}
    (state : DirectoriesNumbered building done) {directory : Str × RawEntry}
    (canonical : ArchivePath.Canonical directory.1) (once : directory.1 ∉ done) :
    ∃ row : ArchiveEntryDto, row.path.value = directory.1 ∧ row.kind = .directory ∧
      AddsChild building.index row (EntryIndex.addDirectory building directory).index := by
  refine ⟨_, ArchivePath.value_parseOrRoot canonical, rfl, state.fresh once, rfl, ?_⟩
  rw [homeOf]
  dsimp only
  rw [ArchivePath.value_parseOrRoot canonical]
  rfl

theorem Housed.foldl_addFile [CharTables] {files : List (Str × RawEntry)}
    (housed : building.index.Housed paths directories) (state : FilesNumbered building)
    (canonical : ∀ file ∈ files, ArchivePath.Canonical file.1)
    (listed : ∀ file ∈ files, file.1 ∈ paths) :
    (files.foldl EntryIndex.addFile building).index.Housed paths directories := by
  induction files generalizing building with
  | nil => exact housed
  | cons file _ ih =>
    obtain ⟨firstCanonical, restCanonical⟩ := forall_mem_cons.mp canonical
    obtain ⟨firstListed, restListed⟩ := forall_mem_cons.mp listed
    obtain ⟨_, isPath, adds⟩ := addFile_addsChild state firstCanonical
    exact ih (housed.add adds (isPath ▸ firstListed))
      (state.addFile firstCanonical).1 restCanonical restListed

theorem Housed.foldl_addDirectory [Crc32] {added : List (Str × RawEntry)}
    (housed : building.index.Housed paths directories)
    (state : DirectoriesNumbered building directories)
    (canonical : ∀ entry ∈ added, ArchivePath.Canonical entry.1)
    (listed : ∀ entry ∈ added, entry.1 ∈ paths) (distinct : (added.map Prod.fst).Nodup)
    (once : ∀ entry ∈ added, entry.1 ∉ directories) :
    (added.foldl EntryIndex.addDirectory building).index.Housed paths
      ((added.map Prod.fst).reverse ++ directories) := by
  induction added generalizing building directories with
  | nil => exact housed
  | cons entry _ ih =>
    obtain ⟨firstCanonical, restCanonical⟩ := forall_mem_cons.mp canonical
    obtain ⟨firstListed, restListed⟩ := forall_mem_cons.mp listed
    obtain ⟨notLater, laterDistinct⟩ := nodup_cons.mp distinct
    obtain ⟨firstOnce, restOnce⟩ := forall_mem_cons.mp once
    obtain ⟨_, isPath, isDirectory, adds⟩ := addDirectory_addsChild state firstCanonical firstOnce
    have next := housed.addDirectory adds (isPath ▸ firstListed) isDirectory
    rw [isPath] at next
    rw [map_cons, reverse_cons, append_assoc, singleton_append]
    refine ih next (state.addDirectory firstCanonical firstOnce).1
      restCanonical restListed laterDistinct ?_
    intro other mem isBefore
    rcases mem_cons.mp isBefore with same | before
    · exact notLater (same ▸ mem_map_of_mem mem)
    · exact restOnce other mem before

end

section

def Collected.paths (collected : Collected) : List Str :=
  collected.files.map Prod.fst ++ collected.dirs.keys

variable {path : Str} {collected : Collected}

theorem Collected.Clean.of_mem_paths (clean : collected.Clean)
    (mem : path ∈ collected.paths) : ArchivePath.Canonical path := by
  rcases mem_append.mp mem with isFile | isDirectory
  · obtain ⟨file, fileMember, rfl⟩ := mem_map.mp isFile
    exact clean.files file fileMember
  · refine clean.dirs fun unbound => ?_
    exact notMem_keys_iff.mpr unbound isDirectory

theorem ne_nil_of_mem_entryAncestors {path ancestor : Str} (canonical : ArchivePath.Canonical path)
    (mem : ancestor ∈ entryAncestors path) : ancestor ≠ [] := by
  rintro rfl
  obtain ⟨_, rfl⟩ := mem_entryAncestors.mp mem
  have sound := canonical.1
  simp only [archivePathFault, nil_append, isAbsoluteArchivePath, if_true] at sound
  split at sound <;> cases sound

variable {dirs : KeyedMap Str RawEntry}

theorem mem_keys_orInsert {path other : Str} {raw : RawEntry}
    (isKey : other ∈ dirs.keys ∨ other = path) : other ∈ (orInsert dirs path raw).keys := by
  by_contra absent
  have unbound := notMem_keys_iff.mp absent
  unfold orInsert at unbound
  split at unbound
  next raw bound =>
    rcases isKey with before | rfl
    · exact notMem_keys_iff.mpr unbound before
    · rw [unbound] at bound
      cases bound
  · rw [lookup_insert_ite] at unbound
    split at unbound
    · cases unbound
    next differs => exact notMem_keys_iff.mpr unbound (isKey.resolve_right differs)

theorem mem_keys_foldl_orInsert {implied : List Str} (isKey : path ∈ dirs.keys ∨ path ∈ implied) :
    path ∈ (implied.foldl (fun dirs path => orInsert dirs path RawEntry.implied) dirs).keys := by
  induction implied generalizing dirs with
  | nil => exact isKey.resolve_right not_mem_nil
  | cons _ _ ih =>
    refine ih ?_
    rcases isKey with before | isImplied
    · exact .inl (mem_keys_orInsert (.inl before))
    · rcases mem_cons.mp isImplied with same | later
      · exact .inl (mem_keys_orInsert (.inr same))
      · exact .inr later

theorem ne_nil_of_mem_paths_foldl
    (inner : ∀ path ∈ collected.paths, path ≠ []) (entries : List ArchiveEntry) :
    ∀ path ∈ (entries.foldl collectEntry collected).paths, path ≠ [] := by
  induction entries generalizing collected with
  | nil => exact inner
  | cons _ _ ih =>
    refine ih ?_
    intro path mem
    unfold collectEntry at mem
    dsimp only at mem
    split at mem
    · exact inner path mem
    · split at mem
      · exact inner path mem
      next isInner =>
        split at mem
        · rcases mem_append.mp mem with isFile | isDirectory
          · exact inner path (mem_append_left _ isFile)
          · have bound := lookup_orInsert_ne_none fun unbound =>
              notMem_keys_iff.mpr unbound isDirectory
            rcases bound with old | rfl
            · refine inner path (mem_append_right _ ?_)
              by_contra absent
              exact old (notMem_keys_iff.mp absent)
            · exact isInner
        · rcases mem_append.mp mem with isFile | isDirectory
          · rw [map_append, mem_append] at isFile
            rcases isFile with old | isNew
            · exact inner path (mem_append_left _ old)
            · rw [map_singleton, mem_singleton] at isNew
              rw [isNew]
              exact isInner
          · exact inner path (mem_append_right _ isDirectory)

theorem closed_collect {entries : List ArchiveEntry} (mem : path ∈ (collect entries).paths) :
    path ≠ [] ∧ ∀ ancestor ∈ entryAncestors path, ancestor ∈ (collect entries).dirs.keys := by
  have nothing : ∀ path, path ∉ (Collected.mk [] (∅ : KeyedMap Str RawEntry)).paths := by
    intro path
    simp [Collected.paths]
  have clean : (entries.foldl collectEntry { files := [], dirs := ∅ }).Clean :=
    Collected.Clean.foldl_collectEntry ⟨by simp, by simp⟩ entries
  -- A path is listed, or an ancestor of one that is.
  have origin : path ∈ (entries.foldl collectEntry { files := [], dirs := ∅ }).paths ∨
      ∃ listed ∈ (entries.foldl collectEntry { files := [], dirs := ∅ }).paths,
        path ∈ entryAncestors listed := by
    rcases mem_append.mp mem with isFile | isDirectory
    · exact .inl (mem_append_left _ isFile)
    · have bound := lookup_foldl_orInsert_ne_none fun unbound =>
        notMem_keys_iff.mpr unbound isDirectory
      rcases bound with old | isImplied
      · refine .inl (mem_append_right _ ?_)
        by_contra absent
        exact old (notMem_keys_iff.mp absent)
      · rw [mem_sortedSet, mem_flatMap] at isImplied
        exact .inr isImplied
  have closes (listed : Str) (listedMember :
      listed ∈ (entries.foldl collectEntry { files := [], dirs := ∅ }).paths)
      (ancestor : Str)
      (above : ancestor ∈ entryAncestors listed) :
      ancestor ∈ (collect entries).dirs.keys := by
    refine mem_keys_foldl_orInsert (.inr ?_)
    rw [mem_sortedSet, mem_flatMap]
    exact ⟨listed, listedMember, above⟩
  rcases origin with isListed | ⟨listed, listedMember, isAncestor⟩
  · refine ⟨ne_nil_of_mem_paths_foldl ?_ entries path isListed, closes path isListed⟩
    exact fun other otherMember => absurd otherMember (nothing other)
  · refine ⟨ne_nil_of_mem_entryAncestors (clean.of_mem_paths listedMember) isAncestor,
      fun ancestor above => ?_⟩
    exact closes listed listedMember ancestor (entryAncestors_trans isAncestor above)

end

section

theorem lookup_foldl_insert {Key Value : Type} [DecidableEq Key] {value : Key → Value}
    {map : KeyedMap Key Value} {keys : List Key} {key : Key} :
    (keys.foldl (fun map key => map.insert key (value key)) map).lookup key =
      if key ∈ keys then some (value key) else map.lookup key := by
  induction keys generalizing map with
  | nil => rfl
  | cons first rest ih =>
    rw [foldl_cons, ih, lookup_insert_ite]
    by_cases later : key ∈ rest
    · rw [if_pos later, if_pos (mem_cons_of_mem _ later)]
    · rw [if_neg later]
      by_cases same : key = first
      · rw [if_pos same, if_pos (by rw [same]; exact mem_cons_self), same]
      · rw [if_neg same, if_neg]
        exact fun mem => (mem_cons.mp mem).elim same later

theorem Housed.permute {index next : EntryIndex} {paths directories : List Str}
    (housed : index.Housed paths directories) (rows : next.byId = index.byId)
    (children : ∀ directory, (next.childrenOf directory).Perm (index.childrenOf directory)) :
    next.Housed paths directories := by
  refine ⟨?_, ?_, ?_, ?_⟩
  · intro directory id
    rw [(children directory).mem_iff, rows]
    exact housed.children
  · intro directory
    exact (children directory).nodup_iff.mpr (housed.nodup directory)
  · intro id _ bound
    exact housed.listed (rows ▸ bound)
  · rw [rows]
    exact housed.filled

variable [CharTables] (entries : List ArchiveEntry) (assigner : EntryIdAssigner)

theorem byId_build [Crc32] :
    (build entries assigner).1.byId = (Building.all entries assigner).index.byId :=
  rfl

theorem entryCount_build [Crc32] : (build entries assigner).1.entryCount =
    (orderedFiles entries).length + (orderedDirs entries).length := by
  have files (added : List (Str × RawEntry)) (building : Building) :
      (added.foldl addFile building).index.entryCount =
        building.index.entryCount + added.length := by
    induction added generalizing building with
    | nil => rfl
    | cons file rest ih =>
      obtain ⟨_, _, _, _, _, _, counted⟩ := addFile_row building file
      rw [foldl_cons, ih, counted, length_cons]
      omega
  have directories (added : List (Str × RawEntry)) (building : Building) :
      (added.foldl addDirectory building).index.entryCount =
        building.index.entryCount + added.length := by
    induction added generalizing building with
    | nil => rfl
    | cons entry rest ih =>
      obtain ⟨_, _, _, _, _, _, counted⟩ := addDirectory_row building entry
      rw [foldl_cons, ih, counted, length_cons]
      omega
  change (Building.all entries assigner).index.entryCount = _
  rw [Building.all, directories, files]
  simp [Building.start]

theorem childrenOf_build [Crc32] (directory : ArchivePath) :
    (build entries assigner).1.childrenOf directory = sortChildren (build entries assigner).1.byId
      ((Building.all entries assigner).index.childrenOf directory) := by
  have sorted := @lookup_foldl_insert _ _ _
    (fun directory => sortChildren (Building.all entries assigner).index.byId
      (((Building.all entries assigner).index.children.lookup directory).getD []))
    (Building.all entries assigner).index.children
    (Building.all entries assigner).index.children.keys directory
  refine (congrArg (Option.getD · []) sorted).trans ?_
  split
  · rfl
  next absent =>
    rw [childrenOf, notMem_keys_iff.mp absent]
    rfl

variable (byId : KeyedMap EntryId ArchiveEntryDto)

theorem pairwise_sortChildren (ids : List EntryId) :
    (sortChildren byId ids).Pairwise fun first second =>
      CharTables.toLowercase (((byId.lookup first).map name).getD []) ≤
        CharTables.toLowercase (((byId.lookup second).map name).getD []) := by
  unfold sortChildren
  have total : Std.Total fun first second : EntryId =>
    CharTables.toLowercase (((byId.lookup first).map name).getD []) ≤
      CharTables.toLowercase (((byId.lookup second).map name).getD []) :=
    ⟨fun _ _ => le_total _ _⟩
  have trans : IsTrans EntryId fun first second =>
    CharTables.toLowercase (((byId.lookup first).map name).getD []) ≤
      CharTables.toLowercase (((byId.lookup second).map name).getD []) :=
    ⟨fun _ _ _ => le_trans⟩
  exact pairwise_insertionSort _ _

def NameOrdered (first second : ArchiveEntryDto) : Prop :=
  CharTables.toLowercase first.name ≤ CharTables.toLowercase second.name

theorem pairwise_rows_sortChildren (ids : List EntryId) :
    ((sortChildren byId ids).filterMap byId.lookup).Pairwise NameOrdered := by
  refine List.Pairwise.filterMap _ ?_ (pairwise_sortChildren byId ids)
  intro _ _ ordered _ firstBound _ secondBound
  rw [mem_def.mp firstBound, mem_def.mp secondBound] at ordered
  exact ordered

/-- Every row is a child of its directory and of no other, that directory is a row, and the
children are sorted by name. -/
structure Tree (index : EntryIndex) : Prop where
  rowId : ∀ {id row}, index.byId.lookup id = some row → row.id = id
  canonical : ∀ {id row}, index.byId.lookup id = some row → ArchivePath.Canonical row.path.value
  inner : ∀ {id row}, index.byId.lookup id = some row → row.path.value ≠ []
  children : ∀ {directory id}, id ∈ index.childrenOf directory ↔
    ∃ row, index.byId.lookup id = some row ∧ homeOf row = directory
  nodup : ∀ directory, (index.childrenOf directory).Nodup
  sorted : ∀ directory, (index.childRows directory).Pairwise NameOrdered
  parents : ∀ {id row}, index.byId.lookup id = some row → entryParent row.path.value ≠ [] →
    ∃ parentId parent, index.byId.lookup parentId = some parent ∧
      parent.kind = .directory ∧ parent.path.value = entryParent row.path.value
  single : ∀ {id row otherId other}, index.byId.lookup id = some row →
    index.byId.lookup otherId = some other → row.kind = .directory →
      other.kind = .directory → row.path = other.path → id = otherId

theorem housed_all [Crc32] {assigner : EntryIdAssigner}
    (sound : assigner.Sound) : (Building.all entries assigner).index.Housed (collect entries).paths
      (((orderedDirs entries).map Prod.fst).reverse ++ []) := by
  have start : (Building.start assigner).index.Housed (collect entries).paths [] := by
    refine ⟨?_, ?_, ?_, ?_⟩
    · intro directory id
      simp [Building.start, childrenOf]
    · intro directory
      simp [Building.start, childrenOf]
    · intro id _ bound
      simp [Building.start] at bound
    · intro _ mem
      cases mem
  have filesListed : ∀ file ∈ orderedFiles entries, file.1 ∈ (collect entries).paths := by
    intro file mem
    exact mem_append_left _ (mem_map_of_mem ((mem_insertionSort _).mp mem))
  have dirsListed : ∀ entry ∈ orderedDirs entries, entry.1 ∈ (collect entries).paths := by
    intro entry mem
    exact mem_append_right _ ((map_fst_orderedDirs entries).subset (mem_map_of_mem mem))
  have state := FilesNumbered.start sound
  have files := start.foldl_addFile state
    (fun _ mem => @canonical_orderedFiles entries _ mem) filesListed
  obtain ⟨filesNumbered, _⟩ := state.foldl_addFile
    fun _ mem => @canonical_orderedFiles entries _ mem
  exact files.foldl_addDirectory filesNumbered.toDirectories
    (fun _ mem => @canonical_orderedDirs entries _ mem) dirsListed
    (nodup_orderedDirs entries) fun _ _ => not_mem_nil

theorem housed_build [Crc32] {assigner : EntryIdAssigner}
    (sound : assigner.Sound) : (build entries assigner).1.Housed (collect entries).paths
      (((orderedDirs entries).map Prod.fst).reverse ++ []) := by
  refine (housed_all entries sound).permute (byId_build entries assigner) ?_
  intro _
  rw [childrenOf_build]
  exact perm_insertionSort _ _

theorem tree_build [Crc32] (entries : List ArchiveEntry) {assigner : EntryIdAssigner}
    (sound : assigner.Sound) : (build entries assigner).1.Tree := by
  obtain ⟨numbered, _⟩ := build_numbered entries sound
  have housed := housed_build entries sound
  have canonical {id : EntryId} {row : ArchiveEntryDto}
      (bound : (build entries assigner).1.byId.lookup id = some row) :
      ArchivePath.Canonical row.path.value :=
    (clean_collect entries).of_mem_paths (housed.listed bound)
  refine
    { rowId := numbered.rowId
      canonical := canonical
      inner := fun bound => (closed_collect (housed.listed bound)).1
      children := housed.children
      nodup := housed.nodup
      sorted := ?_
      parents := ?_
      single := ?_ }
  · intro _
    rw [childRows, childrenOf_build]
    exact pairwise_rows_sortChildren _ _
  · intro id row bound isInner
    have isKey := (closed_collect (housed.listed bound)).2 _ (entryParent_mem isInner)
    refine housed.filled _ ?_
    rw [append_nil, mem_reverse]
    exact (map_fst_orderedDirs entries).symm.subset isKey
  · intro id row _ other bound otherBound isDirectory otherIsDirectory same
    have keyed := numbered.keyed bound
    have otherKeyed := numbered.keyed otherBound
    have sameKey : (build entries assigner).1.keyOf row =
        (build entries assigner).1.keyOf other := by
      simp only [keyOf, ordinal, isDirectory, otherIsDirectory, same]
    rw [sameKey, otherKeyed] at keyed
    exact (some.inj keyed).symm

end

section

variable [CharTables] {index : EntryIndex} {row : ArchiveEntryDto}

theorem Tree.mem_childRows (tree : index.Tree) {directory : ArchivePath} :
    row ∈ index.childRows directory ↔
      index.byId.lookup row.id = some row ∧ homeOf row = directory := by
  rw [childRows, mem_filterMap]
  constructor
  · rintro ⟨_, mem, bound⟩
    obtain ⟨_, sameBound, isHome⟩ := tree.children.mp mem
    obtain rfl := some.inj (bound.symm.trans sameBound)
    rw [tree.rowId bound]
    exact ⟨bound, isHome⟩
  · rintro ⟨bound, isHome⟩
    exact ⟨row.id, tree.children.mpr ⟨row, bound, isHome⟩, bound⟩

theorem Tree.nodup_childRows (tree : index.Tree) (directory : ArchivePath) :
    (index.childRows directory).Nodup := by
  refine List.Nodup.filterMap ?_ (tree.nodup directory)
  intro _ _ _ firstBound secondBound
  rw [← tree.rowId (mem_def.mp firstBound), ← tree.rowId (mem_def.mp secondBound)]

theorem Tree.value_homeOf (tree : index.Tree) {id : EntryId}
    (bound : index.byId.lookup id = some row) : (homeOf row).value = entryParent row.path.value :=
  ArchivePath.value_parseOrRoot (canonical_entryParent (tree.canonical bound))

def opensOf (row : ArchiveEntryDto) : Option ArchivePath :=
  if row.kind = .directory then some row.path else none

def Tree.forest (tree : index.Tree) : Forest ArchiveEntryDto ArchivePath where
  root := root
  nodes := index.childRows
  opens := opensOf
  home := homeOf
  up place := ArchivePath.parseOrRoot (entryParent place.value)
  rank place := place.value.length
  height := (index.rows.map fun row => row.path.value.length).sum
  up_root := rfl
  rank_up := by
    intro place notRoot
    refine Nat.lt_of_le_of_lt (length_parseOrRoot_le _) (length_entryParent_lt ?_)
    exact fun isEmpty => notRoot (eq_of_value isEmpty)
  rank_lt := by
    intro place inhabited
    obtain ⟨row, mem⟩ := exists_mem_of_ne_nil _ inhabited
    obtain ⟨bound, rfl⟩ := tree.mem_childRows.mp mem
    rw [tree.value_homeOf bound]
    refine Nat.lt_of_lt_of_le (length_entryParent_lt (tree.inner bound)) ?_
    exact single_le_sum (fun _ _ => Nat.zero_le _) _
      (List.mem_map_of_mem (mem_rows_of_lookup bound))
  nodup := tree.nodup_childRows
  home_of_mem mem := (tree.mem_childRows.mp mem).2
  up_of_opens := by
    intro place row inner mem opens
    obtain ⟨bound, rfl⟩ := tree.mem_childRows.mp mem
    unfold opensOf at opens
    split at opens
    · cases opens
      refine ⟨rfl, fun isRoot => ?_⟩
      exact tree.inner bound (congrArg value isRoot)
    · cases opens
  single := by
    intro place row other inner mem otherMember opens otherOpens
    obtain ⟨bound, _⟩ := tree.mem_childRows.mp mem
    obtain ⟨otherBound, _⟩ := tree.mem_childRows.mp otherMember
    unfold opensOf at opens otherOpens
    split at opens
    next isDirectory =>
      split at otherOpens
      next otherIsDirectory =>
        have sameId := tree.single bound otherBound isDirectory otherIsDirectory
          ((some.inj opens).trans (some.inj otherOpens).symm)
        rw [← sameId, bound] at otherBound
        exact some.inj otherBound
      · cases otherOpens
    · cases opens
  opened := by
    intro place inhabited notRoot
    obtain ⟨row, mem⟩ := exists_mem_of_ne_nil _ inhabited
    obtain ⟨bound, isHome⟩ := tree.mem_childRows.mp mem
    have isPath : place.value = entryParent row.path.value := by
      rw [← isHome, tree.value_homeOf bound]
    have isInner : entryParent row.path.value ≠ [] := by
      rw [← isPath]
      exact fun isEmpty => notRoot (eq_of_value isEmpty)
    obtain ⟨id, parent, parentBound, isDirectory, isParent⟩ := tree.parents bound isInner
    have samePath : parent.path = place := eq_of_value (isParent.trans isPath.symm)
    refine ⟨parent, tree.mem_childRows.mpr ⟨?_, ?_⟩, ?_⟩
    · rw [tree.rowId parentBound]
      exact parentBound
    · rw [homeOf, samePath]
    · rw [opensOf, if_pos isDirectory, samePath]

variable (tree : index.Tree)

theorem Tree.walkEntries_eq {fuel : Nat} {ids : List EntryId}
    (found : ∀ id ∈ ids, ∃ row, index.byId.lookup id = some row) :
    index.walkEntries fuel ids = tree.forest.walk fuel (ids.filterMap index.byId.lookup) := by
  induction fuel generalizing ids with
  | zero => rfl
  | succ fuel ih =>
    cases ids with
    | nil => rfl
    | cons id =>
      obtain ⟨⟨row, bound⟩, others⟩ := forall_mem_cons.mp found
      rw [walkEntries, filterMap_cons, bound]
      dsimp only
      rw [Forest.walk, Forest.below]
      by_cases isDirectory : row.kind = .directory
      · have opens : tree.forest.opens row = some row.path := if_pos isDirectory
        rw [if_pos isDirectory, opens, ih, filterMap_append]
        · rfl
        · intro other mem
          rcases mem_append.mp mem with isChild | isLater
          · obtain ⟨child, childBound, _⟩ := tree.children.mp isChild
            exact ⟨child, childBound⟩
          · exact others other isLater
      · have opens : tree.forest.opens row = none := if_neg isDirectory
        rw [if_neg isDirectory, opens, ih others]
        rfl

theorem Tree.allEntries_eq : index.allEntries = tree.forest.listing := by
  have found : ∀ id ∈ index.childrenOf root,
      ∃ row, index.byId.lookup id = some row := by
    intro id mem
    obtain ⟨row, bound, _⟩ := tree.children.mp mem
    exact ⟨row, bound⟩
  have listed : ∀ place, tree.forest.nodes place ⊆ index.rows := by
    intro place row mem
    exact mem_rows_of_lookup (tree.mem_childRows.mp mem).1
  have enough : index.rows.length ≤ index.byId.keys.length := by simp [rows, AList.keys, List.keys]
  rw [allEntries, tree.walkEntries_eq found]
  exact Forest.walk_root listed enough

theorem Tree.mem_allEntries (tree : index.Tree) :
    row ∈ index.allEntries ↔ index.byId.lookup row.id = some row := by
  rw [tree.allEntries_eq, Forest.mem_listing]
  exact tree.mem_childRows.trans (and_iff_left rfl)

theorem Tree.filter_allEntries (tree : index.Tree) (directory : ArchivePath) :
    index.allEntries.filter (fun row => homeOf row = directory) = index.childRows directory := by
  rw [tree.allEntries_eq]
  exact @Forest.filter_listing _ _ tree.forest _ directory

end

end EntryIndex

end Arclain
