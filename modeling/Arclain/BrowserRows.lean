import Arclain.IndexTree

namespace Arclain

/-!
# The rows of the browser

A tab keeps the inventory of its archive and shows those of its rows that are in the
directory it browses.  The same rows can be asked of the session.
-/

open List Text ArchivePath EntryIdAssigner RawEntry

/-- `ALL_ENTRIES_IN_ONE_DIRECTORY`, the largest number of 32 bits. -/
def allEntriesInOneDirectory : Nat := 2 ^ 32 - 1

def ListEntriesRequest.wholeDirectory (directory : ArchivePath) : ListEntriesRequest where
  directory := directory
  sortKey := .name
  sortDirection := .ascending
  nameFilter := none
  offset := 0
  limit := allEntriesInOneDirectory

structure FileEntry where
  name : Str
  path : Str
  archivePath : Str
  size : Str
  compressed : Str
  ratio : Str
  modified : Str
  crc32 : Str
  encrypted : Bool
  isFolder : Bool
  deriving DecidableEq

/-- `format_size`, which rounds, and `format_modified_unix_ms`, which asks for the local
zone. -/
structure Display where
  formatSize : Nat → Str
  formatModifiedUnixMs : Option Int → Str

def fileEntryFromDto (display : Display) (row : ArchiveEntryDto) : FileEntry :=
  let compressedSize := row.compressedSize.getD 0
  { name := row.name
    path := row.name
    archivePath := row.path.value
    size := display.formatSize row.uncompressedSize
    compressed := display.formatSize compressedSize
    ratio :=
      if 0 < row.uncompressedSize then
        -- The product wraps at the width of the sizes.
        decimal (compressedSize * 100 % 2 ^ 64 / row.uncompressedSize) ++ ['%']
      else "0%".toList
    modified := display.formatModifiedUnixMs row.modifiedAtUnixMs
    crc32 := row.crc32.getD []
    encrypted := row.encrypted
    isFolder := row.kind = .directory }

/-- The entries that `rows_in_directory` selects. -/
def entriesInDirectory (entries : List ArchiveEntryDto)
    (directory : ArchivePath) : List ArchiveEntryDto :=
  entries.filter fun entry => entryParent entry.path.value = directory.value

def rowsInDirectory (display : Display) (entries : List ArchiveEntryDto)
    (directory : ArchivePath) : List FileEntry :=
  (entriesInDirectory entries directory).map (fileEntryFromDto display)

namespace EntryIndex

/-- A row whose chain of parents in an inventory reaches a directory. -/
inductive Below (entries : List ArchiveEntryDto)
    (directory : ArchiveEntryDto) : ArchiveEntryDto → Prop
  | child {row : ArchiveEntryDto} (inside : entryParent row.path.value = directory.path.value) :
      Below entries directory row
  | deeper {parent row : ArchiveEntryDto} (mem : parent ∈ entries)
      (isDirectory : parent.kind = .directory)
      (inside : entryParent row.path.value = parent.path.value)
      (below : Below entries directory parent) :
      Below entries directory row

theorem Below.split {entries : List ArchiveEntryDto} {directory row : ArchiveEntryDto}
    (inner : directory.path.value ≠ []) (below : Below entries directory row) :
    ∃ rest, row.path.value = directory.path.value ++ '/' :: rest := by
  induction below with
  | @child row inside =>
    rcases entryParent_cases row.path.value with ⟨_, isRoot⟩ | ⟨split, _⟩
    · exact absurd (inside.symm.trans isRoot) inner
    · rw [inside] at split
      exact ⟨_, split⟩
  | @deeper parent row _ _ inside _ ih =>
    obtain ⟨rest, parentSplit⟩ := ih
    rcases entryParent_cases row.path.value with ⟨_, isRoot⟩ | ⟨split, _⟩
    · rw [← inside, isRoot] at parentSplit
      simp at parentSplit
    · rw [inside, parentSplit, append_assoc] at split
      exact ⟨_, split⟩

theorem foldl_known (paths known : List Str) (once : known.Nodup) :
    (paths.foldl (fun known path => if path ∈ known then known else known ++ [path]) known).Nodup ∧
      ∀ path, path ∈ paths.foldl
        (fun known path => if path ∈ known then known else known ++ [path]) known ↔
          path ∈ known ∨ path ∈ paths := by
  induction paths generalizing known with
  | nil => exact ⟨once, by simp⟩
  | cons first _ ih =>
    rw [foldl_cons]
    by_cases isKnown : first ∈ known
    · rw [if_pos isKnown]
      obtain ⟨nodup, members⟩ := ih known once
      refine ⟨nodup, fun path => (members path).trans ?_⟩
      rw [mem_cons]
      constructor
      · rintro (old | later)
        · exact .inl old
        · exact .inr (.inr later)
      · rintro (old | rfl | later)
        · exact .inl old
        · exact .inl isKnown
        · exact .inr later
    · rw [if_neg isKnown]
      have nextOnce : (known ++ [first]).Nodup :=
        nodup_append.mpr ⟨once, nodup_singleton _, fun other otherMember new newMember same =>
          isKnown (mem_singleton.mp newMember ▸ same ▸ otherMember)⟩
      obtain ⟨nodup, members⟩ := ih _ nextOnce
      refine ⟨nodup, fun path => (members path).trans ?_⟩
      rw [mem_append, mem_singleton, mem_cons, or_assoc]

section

variable [CharTables] {index : EntryIndex}

theorem Tree.entriesInDirectory_eq (tree : index.Tree) (directory : ArchivePath) :
    entriesInDirectory index.allEntries directory = index.childRows directory := by
  rw [← tree.filter_allEntries, entriesInDirectory]
  refine filter_congr fun row mem => ?_
  have value := tree.value_homeOf (tree.mem_allEntries.mp mem)
  rw [← value]
  exact decide_eq_decide.mpr ⟨eq_of_value, fun same => by rw [same]⟩

theorem Tree.listEntries_wholeDirectory (tree : index.Tree) (session : ArchiveSessionId)
    (revision : Nat) (directory : ArchivePath) :
    (index.listEntries session revision (.wholeDirectory directory)).entries =
      (index.childRows directory).take allEntriesInOneDirectory := by
  have sorted : (index.childRows directory).insertionSort (fun first second =>
    ArchiveEntryDto.precedes .name first second = true) =
    index.childRows directory := by
    refine List.Pairwise.insertionSort_eq ((tree.sorted directory).imp ?_)
    intro first second ordered
    exact decide_eq_true ordered
  have matching : index.matchingRows (.wholeDirectory directory) = index.childRows directory := by
    refine Eq.trans ?_ sorted
    simp [matchingRows, ListEntriesRequest.wholeDirectory, nameNeedle, childRows]
  rw [listEntries, matching]
  rfl

theorem Tree.below_of_split (tree : index.Tree) {directory row : ArchiveEntryDto} {rest : Str}
    (bound : index.byId.lookup row.id = some row)
    (split : row.path.value = directory.path.value ++ '/' :: rest) :
    Below index.allEntries directory row := by
  induction measured : row.path.value.length using Nat.strongRecOn generalizing row rest with
  | _ _ ih =>
    by_cases inside : entryParent row.path.value = directory.path.value
    · exact .child inside
    · rcases entryParent_cases row.path.value with ⟨noSlash, _⟩ | ⟨own, noSlash⟩
      · rw [split] at noSlash
        simp at noSlash
      · -- The last slash is behind that of the directory.
        have longer : ∃ between, entryParent row.path.value =
            directory.path.value ++ '/' :: between := by
          rcases append_eq_append_iff.mp (own.symm.trans split) with
            ⟨more, longer, same⟩ | ⟨more, longer, same⟩
          · cases more with
            | nil => exact absurd (by simpa using longer.symm) inside
            | cons first more =>
              have slashInside := (cons.inj same).2
              exact absurd (slashInside ▸ by simp) noSlash
          · cases more with
            | nil => exact absurd (by simpa using longer) inside
            | cons first more =>
              obtain ⟨rfl, _⟩ := cons.inj same
              exact ⟨more, longer⟩
        obtain ⟨between, parentSplit⟩ := longer
        have isInner : entryParent row.path.value ≠ [] := by
          rw [parentSplit]
          simp
        obtain ⟨_, _, parentBound, isDirectory, isParent⟩ := tree.parents bound isInner
        rw [← tree.rowId parentBound] at parentBound
        refine .deeper (tree.mem_allEntries.mpr parentBound) isDirectory isParent.symm ?_
        refine ih _ ?_ parentBound (isParent.trans parentSplit) rfl
        rw [← measured, isParent]
        exact length_entryParent_lt (tree.inner bound)

theorem Tree.resolveExtractablePaths_directory (tree : index.Tree) {directory : ArchiveEntryDto}
    (bound : index.byId.lookup directory.id = some directory)
    (isDirectory : directory.kind = .directory) :
    ∃ paths, index.resolveExtractablePaths [directory.id] = .ok paths ∧ paths.Nodup ∧
      ∀ path, path ∈ paths ↔ ∃ file ∈ index.allEntries, file.kind = .file ∧ file.path.value = path ∧
        Below index.allEntries directory file := by
  obtain ⟨nodup, members⟩ := foldl_known (index.extractablePaths directory) [] .nil
  refine ⟨_, ?_, nodup, fun path => (members path).trans ?_⟩
  · unfold resolveExtractablePaths
    rw [foldlM_cons, bound]
    rfl
  · rw [or_iff_right not_mem_nil, extractablePaths, isDirectory, mem_map]
    constructor
    · rintro ⟨file, mem, rfl⟩
      obtain ⟨isRow, passes⟩ := mem_filter.mp mem
      obtain ⟨isFile, isPrefix⟩ := Bool.and_eq_true_iff.mp passes
      obtain ⟨entry, entryMember, rfl⟩ := mem_map.mp isRow
      have entryBound := KeyedMap.lookup_eq_some_iff_mem.mpr entryMember
      rw [← tree.rowId entryBound] at entryBound
      obtain ⟨rest, split⟩ := isPrefixOf_iff_prefix.mp isPrefix
      rw [append_assoc, singleton_append] at split
      exact ⟨entry.2, tree.mem_allEntries.mpr entryBound, of_decide_eq_true isFile, rfl,
        tree.below_of_split entryBound split.symm⟩
    · rintro ⟨file, mem, isFile, rfl, below⟩
      have fileBound := tree.mem_allEntries.mp mem
      obtain ⟨rest, split⟩ := below.split (tree.inner bound)
      refine ⟨file, mem_filter.mpr ⟨mem_rows_of_lookup fileBound, ?_⟩, rfl⟩
      refine Bool.and_eq_true_iff.mpr ⟨decide_eq_true isFile, ?_⟩
      refine isPrefixOf_iff_prefix.mpr ⟨rest, ?_⟩
      rw [split, append_assoc]
      rfl

end

theorem tree_of_reindexes [CharTables] [Crc32] {listings : List (List ArchiveEntry)}
    {assigner : EntryIdAssigner} {index : EntryIndex} (sound : assigner.Sound)
    (indexed : index ∈ reindexes assigner listings) : index.Tree := by
  induction listings generalizing assigner with
  | nil => cases indexed
  | cons entries _ ih =>
    rcases mem_cons.mp indexed with rfl | isLater
    · exact tree_build entries sound
    · exact ih (build_numbered entries sound).1.sound isLater

/-- The rows of a whole directory are the entries that the browser selects from the
inventory, up to the largest page. -/
theorem rows_of_whole_directory [CharTables] [Crc32] (display : Display)
    (listings : List (List ArchiveEntry)) {index : EntryIndex}
    (indexed : index ∈ reindexes new listings) : (∀ session revision directory,
      (index.listEntries session revision (.wholeDirectory directory)).entries =
        (entriesInDirectory index.allEntries directory).take allEntriesInOneDirectory ∧
      (index.listEntries session revision (.wholeDirectory directory)).entries.map
        (fileEntryFromDto display) =
        (rowsInDirectory display index.allEntries directory).take allEntriesInOneDirectory) ∧
    ∀ directory ∈ index.allEntries, directory.kind = .directory →
      ∃ paths, index.resolveExtractablePaths [directory.id] = .ok paths ∧ paths.Nodup ∧
        ∀ path, path ∈ paths ↔
          ∃ file ∈ index.allEntries, file.kind = .file ∧ file.path.value = path ∧
            Below index.allEntries directory file := by
  have tree := tree_of_reindexes .initially indexed
  constructor
  · intro session revision directory
    have listed := tree.listEntries_wholeDirectory session revision directory
    rw [← tree.entriesInDirectory_eq] at listed
    refine ⟨listed, ?_⟩
    rw [listed, rowsInDirectory, map_take]
  · intro directory mem isDirectory
    exact tree.resolveExtractablePaths_directory (tree.mem_allEntries.mp mem) isDirectory

def plainDisplay : Display where
  formatSize size := decimal size
  formatModifiedUnixMs modified := (modified.map fun ms => decimal ms.toNat).getD []

/-- The whole root of an archive with two files. -/
theorem rows_of_two_files : (@listEntries asciiTables (reappearing.get ⟨0, by decide⟩) 1 1
    (.wholeDirectory root)).entries =
      (entriesInDirectory (reappearing.get ⟨0, by decide⟩).allEntries
        root).take allEntriesInOneDirectory :=
  ((@rows_of_whole_directory asciiTables crc32Ieee plainDisplay _ _
    (get_mem reappearing ⟨0, by decide⟩)).1 1 1 root).1

def crowdedEntry : ArchiveEntry where
  path := ['a']
  size := 0
  packedSize := 0
  isDir := false
  encrypted := false
  crc32 := none

theorem collect_replicate (count : Nat) : collect (replicate count crowdedEntry) =
    { files := replicate count (['a'], implied), dirs := ∅ } := by
  have listed (count : Nat) (collected : Collected) :
      (replicate count crowdedEntry).foldl collectEntry collected =
        { collected with
          files := collected.files ++ replicate count (['a'], implied) } := by
    induction count generalizing collected with
    | zero => simp
    | succ count ih =>
      have added : collectEntry collected crowdedEntry =
          { collected with
            files := collected.files ++ [(['a'], implied)] } := rfl
      rw [replicate_succ, foldl_cons, added, ih, replicate_succ, append_assoc, singleton_append]
  have noAncestors : ((replicate count (['a'], implied)).map Prod.fst ++
      (∅ : KeyedMap Str RawEntry).keys).flatMap entryAncestors = [] := by
    rw [flatMap_eq_nil_iff]
    intro path mem
    have isName : count ≠ 0 ∧ path = ['a'] := by simpa using mem
    rw [isName.2]
    rfl
  rw [collect, listed, nil_append, noAncestors]
  rfl

theorem length_childRows_crowded [CharTables] [Crc32] (count : Nat) : count ≤
    ((build (replicate count crowdedEntry) new).1.childRows
      root).length := by
  have tree := tree_build (replicate count crowdedEntry) .initially
  have housed := housed_build (replicate count crowdedEntry) .initially
  obtain ⟨numbered, _⟩ := build_numbered (replicate count crowdedEntry) .initially
  have counted := entryCount_build (replicate count crowdedEntry) new
  rw [orderedFiles, length_insertionSort, collect_replicate, length_replicate] at counted
  have many : count ≤
      (build (replicate count crowdedEntry) new).1.rows.length := by
    rw [rows, length_map, numbered.counted, counted]
    exact Nat.le_add_right _ _
  have distinct := numbered.nodup_ids.of_map
  have inRoot : (build (replicate count crowdedEntry) new).1.rows ⊆
      (build (replicate count crowdedEntry) new).1.childRows
        root := by
    intro row mem
    have bound := numbered.lookup_of_mem mem
    have listed := housed.listed bound
    rw [collect_replicate] at listed
    have isName : count ≠ 0 ∧ row.path.value = ['a'] := by simpa [Collected.paths] using listed
    refine tree.mem_childRows.mpr ⟨bound, ?_⟩
    rw [homeOf, isName.2]
    rfl
  exact Nat.le_trans many (distinct.subperm inRoot).length_le

theorem crowded_differs {count : Nat} (crowded : allEntriesInOneDirectory < count) :
    ¬ ∀ index ∈ @reindexes asciiTables crc32Ieee new
      [replicate count crowdedEntry],
      (@listEntries asciiTables index 1 1 (.wholeDirectory root)).entries =
        entriesInDirectory index.allEntries root := by
  intro claimed
  have tree := @tree_build asciiTables crc32Ieee (replicate count crowdedEntry) _ .initially
  have same := claimed _ mem_cons_self
  rw [@Tree.listEntries_wholeDirectory asciiTables _ tree,
    @Tree.entriesInDirectory_eq asciiTables _ tree] at same
  have lengths := congrArg length same
  rw [length_take] at lengths
  have many := @length_childRows_crowded asciiTables crc32Ieee count
  omega

/-- The largest number of entries that a request can ask for is not enough for all
directories. -/
theorem four_billion_files_differ : ¬ ∀ index ∈ @reindexes asciiTables crc32Ieee new
    [replicate (2 ^ 32) crowdedEntry],
      (@listEntries asciiTables index 1 1 (.wholeDirectory root)).entries =
        entriesInDirectory index.allEntries root :=
  crowded_differs (by decide)

end EntryIndex

end Arclain
