import Arclain.ListingTree

namespace Arclain.EntryIndex

open KeyedMap List Option Text FolderTotals ArchivePath Sigma

/-!
# Backfilled checksums and a fresh index

A backfill patches the rows that need a checksum and folds the checksums of every directory
again, in the order in which the rows are iterated; a fresh index folds them as listed.
Both sort by path alone, so files of one path decide.
-/

/-- The order in which the rows of a hash map are iterated. -/
structure RowOrder where
  arrange : List ArchiveEntryDto → List ArchiveEntryDto
  perm : ∀ rows, (arrange rows).Perm rows

section

variable [CharTables]

def crcPair (row : ArchiveEntryDto) : Option (Str × Str) :=
  row.crc32.map fun crc => (row.path.value, uppercase crc)

/-- The pairs of the files below a directory. -/
def rowPairs (directory : Str) (rows : List ArchiveEntryDto) : List (Str × Str) :=
  (rows.filter fun row =>
    row.kind ≠ .directory && directory ∈ entryAncestors row.path.value).filterMap crcPair

/-- `folderCrc`, over rows in some order. -/
def folderCrcIn [Crc32] (rows : List ArchiveEntryDto) (directory : Str) : Option Str :=
  ({ empty with crcPairs := rowPairs directory rows } : FolderTotals).finalizeCrc

/-- The loop that patches rows, with the number of patches. -/
def patchRows (computed : List (Str × Str)) (byId : KeyedMap EntryId ArchiveEntryDto) :
    Nat × KeyedMap EntryId ArchiveEntryDto :=
  computed.foldl (fun state sum =>
    (state.1 + (state.2.entries.countP fun entry => patchRow sum entry.2 ≠ entry.2),
      mapRows (patchRow sum) state.2)) (0, byId)

def patchedRows (computed : List (Str × Str)) (index : EntryIndex) : List ArchiveEntryDto :=
  (patchRows computed index.byId).2.entries.map snd

/-- `applyCrc32Backfill`, with the rows iterated in some order. -/
def applyCrc32BackfillIn [Crc32] (order : RowOrder) (index : EntryIndex)
    (computed : List (Str × Str)) : EntryIndex :=
  let patched := patchRows computed index.byId
  if patched.1 = 0 then index
  else
    { index with
      byId := mapRows (fun row =>
        if row.kind = .directory then
          { row with
            crc32 := folderCrcIn (order.arrange (patchedRows computed index)) row.path.value }
        else row)
        patched.2 }

theorem applyCrc32Backfill_eq [Crc32] (index : EntryIndex) (computed : List (Str × Str)) :
    (index.applyCrc32Backfill computed).2 =
      index.applyCrc32BackfillIn ⟨id, fun _ => .refl _⟩ computed := by
  have folds (byId : KeyedMap EntryId ArchiveEntryDto) (directory : Str) :
      folderCrc byId directory = folderCrcIn (byId.entries.map snd) directory := by
    unfold folderCrc folderCrcIn rowPairs
    dsimp only
    rw [filterMap_filter, filterMap_map]
    congr 2
    refine filterMap_congr fun entry _ => ?_
    simp only [Function.comp_apply, crcPair]
    cases entry.2.crc32 with
    | none => simp
    | some => rfl
  unfold applyCrc32Backfill applyCrc32BackfillIn patchedRows patchRows
  simp only [folds, id]
  split <;> rfl

end

section

variable (computed : List (Str × Str))

/-- The checksum that a file has after the sums were tried in turn. -/
def backfilled (path : Str) (encrypted : Bool) (crc : Option Str) :
    Option Str :=
  computed.foldl (fun crc sum =>
    if path = sum.1 ∧ encrypted ∧ crc = none then some sum.2 else crc) crc

def patchFile (file : Str × RawEntry) : Str × RawEntry :=
  (file.1, { file.2 with crc32 := backfilled computed file.1 file.2.encrypted file.2.crc32 })

def patchEntry (entry : ArchiveEntry) : ArchiveEntry :=
  match entry.isDir, acceptedPath entry with
  | false, some path => { entry with crc32 := backfilled computed path entry.encrypted entry.crc32 }
  | _, _ => entry

/-- The listing, patched with the computed sums. -/
def patchListing (entries : List ArchiveEntry) : List ArchiveEntry :=
  entries.map (patchEntry computed)

end

section

variable {computed : List (Str × Str)}

theorem patchEntry_spec (entry : ArchiveEntry) : (patchEntry computed entry).isDir = entry.isDir ∧
    acceptedPath (patchEntry computed entry) = acceptedPath entry ∧
    (entry.isDir = true → rawEntry (patchEntry computed entry) = rawEntry entry) ∧
    ∀ path, entry.isDir = false → acceptedPath entry = some path →
      (path, rawEntry (patchEntry computed entry)) = patchFile computed (path, rawEntry entry) := by
  unfold patchEntry
  split
  next path isFile accepted =>
    refine ⟨rfl, rfl, fun isDir => by simp [isFile] at isDir, fun other _ same => ?_⟩
    obtain rfl := Option.some.inj (accepted.symm.trans same)
    rfl
  next other =>
    exact ⟨rfl, rfl, fun _ => rfl, fun path isFile accepted => absurd accepted (other path isFile)⟩

section

variable (entries : List ArchiveEntry)
include entries

theorem listedFiles_patchListing :
    listedFiles (patchListing computed entries) =
      (listedFiles entries).map (patchFile computed) := by
  rw [listedFiles, patchListing, filterMap_map, listedFiles, map_filterMap]
  refine filterMap_congr fun entry _ => ?_
  obtain ⟨sameDir, sameAccepted, _, sameFile⟩ := @patchEntry_spec computed entry
  simp only [Function.comp_apply, sameDir, sameAccepted]
  cases isDir : entry.isDir with
  | true => rfl
  | false =>
    cases accepted : acceptedPath entry with
    | none => rfl
    | some path => exact congrArg some (sameFile path isDir accepted)

theorem dirs_patchListing :
    (collect (patchListing computed entries)).dirs = (collect entries).dirs := by
  have listed (collected other : Collected) (same : other.dirs = collected.dirs) :
      ((patchListing computed entries).foldl collectEntry other).dirs =
        (entries.foldl collectEntry collected).dirs := by
    induction entries generalizing collected other with
    | nil => exact same
    | cons entry _ ih =>
      refine ih _ _ ?_
      obtain ⟨sameDir, sameAccepted, sameRaw, _⟩ := @patchEntry_spec computed entry
      rw [collectEntry_eq, collectEntry_eq, sameAccepted, sameDir]
      cases acceptedPath entry with
      | none => exact same
      | some => by_cases isDir : entry.isDir <;> simp [isDir, same, sameRaw]
  have files : ((patchListing computed entries).foldl collectEntry ⟨[], ∅⟩).files.map Prod.fst =
      (entries.foldl collectEntry ⟨[], ∅⟩).files.map Prod.fst := by
    have first := files_collect (patchListing computed entries)
    have second := files_collect entries
    unfold collect at first second
    dsimp only at first second
    rw [first, second, listedFiles_patchListing, List.map_map]
    rfl
  unfold collect
  dsimp only
  rw [files, listed _ ⟨[], ∅⟩ rfl]

theorem orderedFiles_patchListing :
    orderedFiles (patchListing computed entries) =
      (orderedFiles entries).map (patchFile computed) := by
  rw [orderedFiles, orderedFiles, files_collect, files_collect, listedFiles_patchListing]
  exact (map_insertionSort (r := fun first second : Str × RawEntry => first.1 ≤ second.1)
    (s := fun first second : Str × RawEntry => first.1 ≤ second.1) (patchFile computed) _
    fun _ _ _ _ => Iff.rfl).symm

theorem orderedDirs_patchListing :
    orderedDirs (patchListing computed entries) = orderedDirs entries := by
  rw [orderedDirs, orderedDirs, dirs_patchListing]

end

end

/-! ## The rebuilt index -/

section

variable {computed : List (Str × Str)}

/-- The same building, but for the rows under the ids and for the totals. -/
inductive SameFrame : Building → Building → Prop where
  | intro {building : Building} {totals : KeyedMap Str FolderTotals}
      {rows : KeyedMap EntryId ArchiveEntryDto} (keys : rows.keys = building.index.byId.keys) :
      SameFrame building ⟨building.assigner, building.ordinals, totals,
        { building.index with byId := rows }⟩

variable {first second : Building}

theorem SameFrame.foldl_addFile [CharTables] (same : SameFrame first second)
    (files : List (Str × RawEntry)) :
    SameFrame (files.foldl addFile first)
      ((files.map (patchFile computed)).foldl addFile second) := by
  induction files generalizing first second with
  | nil => exact same
  | cons _ _ ih =>
    obtain ⟨keys⟩ := same
    refine ih (.intro ?_)
    simp only [addFile, addRow, AList.keys_insert, keys]
    rfl

theorem SameFrame.foldl_addDirectory [Crc32] (same : SameFrame first second)
    (directories : List (Str × RawEntry)) :
    SameFrame (directories.foldl addDirectory first) (directories.foldl addDirectory second) := by
  induction directories generalizing first second with
  | nil => exact same
  | cons _ _ ih =>
    obtain ⟨keys⟩ := same
    refine ih (.intro ?_)
    simp only [addDirectory, addRow, AList.keys_insert, keys]
    rfl

theorem SameFrame.index_eq (same : SameFrame first second) :
    second.index.byId.keys = first.index.byId.keys ∧
      second.index = { first.index with byId := second.index.byId } := by
  obtain ⟨keys⟩ := same
  exact ⟨keys, rfl⟩

theorem eq_of_unnumbered {first second : List ArchiveEntryDto}
    (ids : first.map ArchiveEntryDto.id = second.map ArchiveEntryDto.id)
    (rest : first.map unnumbered = second.map unnumbered) : first = second := by
  induction first generalizing second with
  | nil => exact (map_eq_nil_iff.mp rest.symm).symm
  | cons row _ ih =>
    cases second with
    | nil => cases rest
    | cons other =>
      obtain ⟨sameId, sameIds⟩ := cons.inj ids
      obtain ⟨sameRow, sameRows⟩ := cons.inj rest
      have isRow : row = other :=
        congrArg₂ (fun id (row : ArchiveEntryDto) => { row with id := id }) sameId sameRow
      rw [isRow, ih sameIds sameRows]

theorem entries_eq {first second : KeyedMap EntryId ArchiveEntryDto}
    (keys : first.keys = second.keys)
    (values : first.entries.map Sigma.snd = second.entries.map Sigma.snd) : first = second := by
  refine AList.ext ?_
  have pairs := congrArg₂ List.zip keys values
  simp only [AList.keys, List.keys, zip_map'] at pairs
  refine map_injective_iff.mpr ?_ pairs
  rintro ⟨_, _⟩ ⟨_, _⟩ same
  cases same
  rfl

variable [CharTables]

/-- The row that a fresh index has for a row. -/
def rebuiltRow [Crc32] (computed : List (Str × Str)) (entries : List ArchiveEntry)
    (row : ArchiveEntryDto) : ArchiveEntryDto :=
  if row.kind = .directory then
    { row with
      crc32 := (totalsOf row.path.value
        (orderedFiles (patchListing computed entries))).finalizeCrc }
  else { row with crc32 := backfilled computed row.path.value row.encrypted row.crc32 }

theorem rows_patchListing [Crc32] (entries : List ArchiveEntry) {assigner : EntryIdAssigner}
    (sound : assigner.Sound) :
    (build (patchListing computed entries) assigner).1.rows.map unnumbered =
      ((build entries assigner).1.rows.map unnumbered).map (rebuiltRow computed entries) := by
  have files : ∀ file ∈ orderedFiles entries,
      fileRow (patchFile computed file) = rebuiltRow computed entries (fileRow file) := by
    intro file mem
    have isPath := value_parseOrRoot (canonical_orderedFiles mem)
    simp [rebuiltRow, fileRow, patchFile, isPath]
  have directories : ∀ directory ∈ orderedDirs entries,
      directoryRow (totalsOf directory.1 (orderedFiles (patchListing computed entries))) directory =
        rebuiltRow computed entries
          (directoryRow (totalsOf directory.1 (orderedFiles entries)) directory) := by
    intro directory mem
    have isPath := value_parseOrRoot (canonical_orderedDirs mem)
    obtain ⟨uncompressed, compressed⟩ := sizes_totalsOf directory.1 (orderedFiles entries)
    obtain ⟨patchedUncompressed, patchedCompressed⟩ :=
      sizes_totalsOf directory.1 (orderedFiles (patchListing computed entries))
    rw [orderedFiles_patchListing, List.filter_map, List.map_map]
      at patchedUncompressed patchedCompressed
    have sameUncompressed := patchedUncompressed.trans uncompressed.symm
    have sameCompressed := patchedCompressed.trans compressed.symm
    simp only [rebuiltRow, directoryRow, isPath, if_true, orderedFiles_patchListing,
      sameUncompressed, sameCompressed]
  rw [rows_build _ sound, rows_build entries sound, orderedDirs_patchListing,
    map_congr_left directories, orderedFiles_patchListing, List.map_map, map_append,
    map_reverse, map_reverse, List.map_map, List.map_map]
  exact congrArg (_ ++ reverse ·) (map_congr_left files)

theorem rebuiltRow_spec [Crc32] (entries : List ArchiveEntry) (row : ArchiveEntryDto) :
    (rebuiltRow computed entries row).id = row.id ∧
      (rebuiltRow computed entries row).name = row.name ∧
      rebuiltRow computed entries (unnumbered row) =
        unnumbered (rebuiltRow computed entries row) := by
  by_cases isDirectory : row.kind = .directory <;> simp [rebuiltRow, unnumbered, isDirectory]

theorem rebuilt_eq [Crc32] {entries : List ArchiveEntry}
    {old next : KeyedMap EntryId ArchiveEntryDto} (keys : next.keys = old.keys)
    (ids : (old.entries.map snd).map ArchiveEntryDto.id = old.keys)
    (nextIds : (next.entries.map snd).map ArchiveEntryDto.id = next.keys)
    (values : (next.entries.map snd).map unnumbered =
      ((old.entries.map snd).map unnumbered).map (rebuiltRow computed entries)) :
    next = old.mapValues (rebuiltRow computed entries) := by
  have sameKeys : (old.mapValues (rebuiltRow computed entries)).keys = old.keys := by
    simp [AList.keys, List.keys, KeyedMap.mapValues, Function.comp_def]
  refine entries_eq (keys.trans sameKeys.symm) (eq_of_unnumbered ?_ (values.trans ?_))
  · rw [nextIds, keys, ← ids]
    simp only [mapValues, List.map_map]
    exact map_congr_left fun entry _ => (rebuiltRow_spec entries entry.2).1.symm
  · simp only [mapValues, List.map_map]
    exact map_congr_left fun entry _ => (rebuiltRow_spec entries entry.2).2.2

theorem sortChildren_mapValues [Crc32] (entries : List ArchiveEntry)
    (byId : KeyedMap EntryId ArchiveEntryDto) (ids : List EntryId) :
    sortChildren (byId.mapValues (rebuiltRow computed entries)) ids = sortChildren byId ids := by
  have names (id : EntryId) :
      ((byId.mapValues (rebuiltRow computed entries)).lookup id).map ArchiveEntryDto.name =
        (byId.lookup id).map ArchiveEntryDto.name := by
    rw [lookup_mapValues, Option.map_map]
    exact congrArg (Option.map · _) (funext fun row => (rebuiltRow_spec entries row).2.1)
  simp [sortChildren, names]

/-- The last step of `build`. -/
def sortedIndex (index : EntryIndex) : EntryIndex :=
  { index with
    children := index.children.keys.foldl (fun children directory =>
      children.insert directory
        (sortChildren index.byId ((index.children.lookup directory).getD [])))
      index.children }

theorem build_eq_sorted [Crc32] (entries : List ArchiveEntry) (assigner : EntryIdAssigner) :
    (build entries assigner).1 = sortedIndex (Building.all entries assigner).index :=
  rfl

theorem build_patchListing [Crc32] (entries : List ArchiveEntry) {assigner : EntryIdAssigner}
    (sound : assigner.Sound) : (build (patchListing computed entries) assigner).1 =
      { (build entries assigner).1 with
        byId := (build entries assigner).1.byId.mapValues (rebuiltRow computed entries) } := by
  have frame : SameFrame (Building.all entries assigner)
      (Building.all (patchListing computed entries) assigner) := by
    rw [Building.all, Building.all, orderedDirs_patchListing, orderedFiles_patchListing]
    exact ((SameFrame.intro rfl).foldl_addFile _).foldl_addDirectory _
  obtain ⟨keys, isIndex⟩ := frame.index_eq
  obtain ⟨numbered, _⟩ := build_numbered entries sound
  obtain ⟨patchedNumbered, _⟩ := build_numbered (patchListing computed entries) sound
  have ids := numbered.map_id
  have patchedIds := patchedNumbered.map_id
  have values := @rows_patchListing computed _ _ entries _ sound
  unfold EntryIndex.rows at ids patchedIds values
  rw [byId_build] at ids patchedIds
  rw [byId_build, byId_build] at values
  have byId : (Building.all (patchListing computed entries) assigner).index.byId =
      (Building.all entries assigner).index.byId.mapValues (rebuiltRow computed entries) :=
    rebuilt_eq keys ids patchedIds values
  rw [byId] at isIndex
  rw [build_eq_sorted, build_eq_sorted, isIndex]
  simp [sortedIndex, sortChildren_mapValues]

end

/-! ## The patched rows -/

section

variable {computed : List (Str × Str)}

def backfilledRow (computed : List (Str × Str)) (row : ArchiveEntryDto) : ArchiveEntryDto :=
  if row.kind = .directory then row
  else { row with crc32 := backfilled computed row.path.value row.encrypted row.crc32 }

theorem backfilled_some (path : Str) (encrypted : Bool) (crc : Str) :
    backfilled computed path encrypted (some crc) = some crc := by
  induction computed with
  | nil => rfl
  | cons _ _ ih =>
    rw [backfilled, foldl_cons, if_neg (by simp)]
    exact ih

theorem backfilledRow_cons (sum : Str × Str) (row : ArchiveEntryDto) :
    backfilledRow (sum :: computed) row = backfilledRow computed (patchRow sum row) := by
  by_cases isDirectory : row.kind = .directory
  · simp [backfilledRow, patchRow, isDirectory]
  · by_cases patches : row.path.value = sum.1 ∧ row.encrypted = true ∧ row.crc32 = none
    · simp [backfilledRow, patchRow, isDirectory, patches, backfilled]
    · have notPatched : ¬ (row.kind ≠ .directory && row.path.value = sum.1 && row.encrypted &&
          row.crc32.isNone) = true := by
        simpa [isDirectory, and_assoc] using patches
      rw [patchRow, if_neg notPatched, backfilledRow, backfilledRow, if_neg isDirectory,
        if_neg isDirectory, backfilled, foldl_cons, if_neg patches]
      rfl

theorem backfilledRow_cons_eq_self {sum : Str × Str} {row : ArchiveEntryDto} :
    backfilledRow (sum :: computed) row = row ↔
      patchRow sum row = row ∧ backfilledRow computed row = row := by
  rw [backfilledRow_cons]
  refine ⟨fun same => ?_, fun same => by rw [same.1, same.2]⟩
  by_cases patched : patchRow sum row = row
  · exact ⟨patched, by rwa [patched] at same⟩
  · have changed := patched
    unfold patchRow at same changed
    split at same
    next needs =>
      simp only [Bool.and_eq_true, decide_eq_true_eq, isNone_iff_eq_none] at needs
      have crc := congrArg ArchiveEntryDto.crc32 same
      rw [backfilledRow, if_neg needs.1.1.1] at crc
      simp only [backfilled_some, needs.2] at crc
      cases crc
    next notNeeded =>
      rw [if_neg notNeeded] at changed
      exact absurd rfl changed

theorem patchRows_spec (computed : List (Str × Str)) (count : Nat)
    (byId : KeyedMap EntryId ArchiveEntryDto) :
    let patched := computed.foldl (fun (state : Nat × KeyedMap EntryId ArchiveEntryDto) sum =>
      (state.1 + (state.2.entries.countP fun entry => patchRow sum entry.2 ≠ entry.2),
        mapRows (patchRow sum) state.2)) (count, byId)
    (∀ id, patched.2.lookup id = (byId.lookup id).map (backfilledRow computed)) ∧
      ∃ more, patched.1 = count + more ∧
        (more = 0 ↔ ∀ id row, byId.lookup id = some row → backfilledRow computed row = row) := by
  induction computed generalizing count byId with
  | nil =>
    have same (row : ArchiveEntryDto) : backfilledRow [] row = row := by
      unfold backfilledRow
      split <;> rfl
    refine ⟨fun id => ?_, 0, rfl, by simp [same]⟩
    rw [funext same, Option.map_id']
    rfl
  | cons sum _ ih =>
    obtain ⟨lookups, more, isCount, fixed⟩ := ih
      (count + byId.entries.countP fun entry => patchRow sum entry.2 ≠ entry.2)
      (mapRows (patchRow sum) byId)
    refine ⟨fun id => ?_, _ + more, isCount.trans (Nat.add_assoc _ _ _), ?_⟩
    · refine (lookups id).trans ?_
      rw [lookup_mapRows, Option.map_map]
      exact congrArg (Option.map · _) (funext fun row => (backfilledRow_cons sum row).symm)
    · rw [Nat.add_eq_zero_iff, countP_eq_zero, fixed]
      simp only [backfilledRow_cons_eq_self, lookup_mapRows, map_eq_some_iff]
      constructor
      · rintro ⟨unpatched, isFixed⟩ id row bound
        have same : patchRow sum row = row := by
          simpa using unpatched _ (lookup_eq_some_iff_mem.mp bound)
        exact ⟨same, isFixed id row ⟨row, bound, same⟩⟩
      · intro isFixed
        refine ⟨fun entry mem => ?_, ?_⟩
        · simpa using (isFixed _ _ (lookup_eq_some_iff_mem.mpr mem)).1
        · rintro id row ⟨old, bound, rfl⟩
          obtain ⟨same, _⟩ := isFixed id old bound
          rwa [same]

theorem values_perm {old next : KeyedMap EntryId ArchiveEntryDto}
    {change : ArchiveEntryDto → ArchiveEntryDto}
    (lookups : ∀ id, next.lookup id = (old.lookup id).map change) :
    (next.entries.map snd).Perm ((old.entries.map snd).map change) := by
  have same : next.entries.Perm (old.mapValues change).entries := by
    refine lookup_ext next.nodupKeys (old.mapValues change).nodupKeys fun id row => ?_
    have both := (lookups id).trans (lookup_mapValues old change id).symm
    exact iff_of_eq (congrArg (row ∈ ·) both)
  refine (same.map snd).trans (.of_eq ?_)
  simp [mapValues]

end

/-! ## Folded checksums -/

theorem flatMap_lines_perm {first second : List (Str × Str)} (perm : first.Perm second)
    (firstOrdered : first.Pairwise fun left right => left.1 ≤ right.1)
    (secondOrdered : second.Pairwise fun left right => left.1 ≤ right.1)
    (commute : ∀ left ∈ first, ∀ right ∈ first, left.1 = right.1 → crcLine left ++ crcLine right =
      crcLine right ++ crcLine left) :
    first.flatMap crcLine = second.flatMap crcLine := by
  induction first generalizing second with
  | nil => rw [nil_perm.mp perm]
  | cons pair _ ih =>
    obtain ⟨least, restOrdered⟩ := pairwise_cons.mp firstOrdered
    obtain ⟨before, _, rfl⟩ := append_of_mem (perm.subset mem_cons_self)
    have others := (perm.trans perm_middle).cons_inv
    have moved : before.flatMap crcLine ++ crcLine pair =
        crcLine pair ++ before.flatMap crcLine := by
      have each : ∀ other ∈ before, crcLine other ++ crcLine pair =
          crcLine pair ++ crcLine other := by
        intro other mem
        have inRest := others.symm.subset (mem_append_left _ mem)
        have above := (pairwise_append.mp secondOrdered).2.2 other mem pair mem_cons_self
        exact commute other (mem_cons_of_mem _ inRest) pair mem_cons_self
          (le_antisymm above (least other inRest))
      clear perm others secondOrdered
      induction before with
      | nil => simp
      | cons other before ih =>
        obtain ⟨here, later⟩ := forall_mem_cons.mp each
        rw [flatMap_cons, append_assoc, ih later, ← append_assoc, here, append_assoc]
    rw [flatMap_append, flatMap_cons, flatMap_cons, ← append_assoc, moved,
      append_assoc, ← flatMap_append]
    refine congrArg (_ ++ ·) (ih others restOrdered ?_ ?_)
    · exact secondOrdered.sublist ((List.Sublist.refl _).append (sublist_cons_self _ _))
    · exact fun left leftMember right rightMember =>
        commute left (mem_cons_of_mem _ leftMember) right (mem_cons_of_mem _ rightMember)

/-- The lines of the files of one path commute. -/
def LinesCommute (pairs : List (Str × Str)) : Prop :=
  ∀ left ∈ pairs, ∀ right ∈ pairs, left.1 = right.1 → crcLine left ++ crcLine right =
    crcLine right ++ crcLine left

theorem finalizeCrc_perm [Crc32] {totals other : FolderTotals}
    (perm : totals.crcPairs.Perm other.crcPairs) (commute : LinesCommute totals.crcPairs) :
    totals.finalizeCrc = other.finalizeCrc := by
  have total : Std.Total fun first second : Str × Str => first.1 ≤ second.1 :=
    ⟨fun _ _ => le_total _ _⟩
  have trans : IsTrans (Str × Str) fun first second => first.1 ≤ second.1 := ⟨fun _ _ _ => le_trans⟩
  have lines := flatMap_lines_perm
    (((perm_insertionSort (fun first second : Str × Str => first.1 ≤ second.1) _).trans
      perm).trans (perm_insertionSort _ _).symm)
    (pairwise_insertionSort _ _) (pairwise_insertionSort _ _)
    fun left leftMember right rightMember => commute left ((mem_insertionSort _).mp leftMember)
      right ((mem_insertionSort _).mp rightMember)
  have empty : totals.crcPairs = [] ↔ other.crcPairs = [] :=
    ⟨fun none => (none ▸ perm).nil_eq.symm, fun none => (none ▸ perm).eq_nil⟩
  simp [finalizeCrc, empty, lines]

theorem lines_distinguished {left right : Str × Str} {rest : List (Str × Str)}
    (same : left.1 = right.1) (differs : crcLine left ++ crcLine right ≠
      crcLine right ++ crcLine left) :
    ((left :: right :: rest).insertionSort fun first second => first.1 ≤ second.1).flatMap crcLine ≠
      ((right :: left :: rest).insertionSort fun first second => first.1 ≤ second.1).flatMap
        crcLine := by
  have sorted (first second : Str × Str) (same : first.1 = second.1) :
      ((first :: second :: rest).insertionSort fun first second => first.1 ≤ second.1) =
        ((rest.insertionSort fun first second => first.1 ≤ second.1).takeWhile
          fun pair => ¬ second.1 ≤ pair.1) ++ first :: second ::
          (rest.insertionSort fun first second => first.1 ≤ second.1).dropWhile
            fun pair => ¬ second.1 ≤ pair.1 := by
    rw [insertionSort_cons, insertionSort_cons,
      orderedInsert_eq_take_drop _ second, orderedInsert_eq_take_drop]
    generalize rest.insertionSort (fun first second => first.1 ≤ second.1) = ordered
    have before : ∀ pair ∈ ordered.takeWhile fun pair => ¬ second.1 ≤ pair.1,
        decide (¬ first.1 ≤ pair.1) = true := by
      intro pair mem
      rw [same]
      exact mem_takeWhile_imp (p := fun pair : Str × Str => decide (¬ second.1 ≤ pair.1)) mem
    rw [takeWhile_append_of_pos before, dropWhile_append_of_pos before]
    simp [same]
  rw [sorted left right same, sorted right left same.symm, same]
  simp only [flatMap_append, flatMap_cons]
  intro equal
  have tails := append_cancel_left equal
  rw [← append_assoc, ← append_assoc] at tails
  exact differs (append_cancel_right tails)

theorem exists_perm_filterMap {Item Part : Type*} {part : Item → Option Part} {items : List Item}
    {parts : List Part} (perm : (items.filterMap part).Perm parts) :
    ∃ others : List Item, others.Perm items ∧ others.filterMap part = parts := by
  induction parts generalizing items with
  | nil => exact ⟨items, .refl _, perm_nil.mp perm⟩
  | cons _ _ ih =>
    obtain ⟨item, mem, isFirst⟩ := mem_filterMap.mp (perm.symm.subset mem_cons_self)
    obtain ⟨_, _, rfl⟩ := append_of_mem mem
    rw [filterMap_append, filterMap_cons_some isFirst] at perm
    have left := (perm_middle.symm.trans perm).cons_inv
    rw [← filterMap_append] at left
    obtain ⟨others, isPerm, isRest⟩ := ih left
    exact ⟨item :: others, (isPerm.cons item).trans perm_middle.symm,
      by rw [filterMap_cons_some isFirst, isRest]⟩

/-! ## The comparison -/

structure SameIndex (first second : EntryIndex) : Prop where
  rows : ∀ id, first.byId.lookup id = second.byId.lookup id
  sortedFileIds : first.sortedFileIds = second.sortedFileIds
  children : first.children = second.children
  entryCount : first.entryCount = second.entryCount
  totalUncompressedSize : first.totalUncompressedSize = second.totalUncompressedSize

section

variable [CharTables]

def filePair (file : Str × RawEntry) : Option (Str × Str) :=
  file.2.crc32.map fun crc => (file.1, uppercase crc)

/-- The pairs of the files below a directory. -/
def filePairs (directory : Str) (files : List (Str × RawEntry)) : List (Str × Str) :=
  (files.filter (directory ∈ entryAncestors ·.1)).filterMap filePair

/-- Nothing is patched, or the lines of all files of one path below a directory commute. -/
def OrderIrrelevant (computed : List (Str × Str)) (entries : List ArchiveEntry) : Prop :=
  (∀ file ∈ listedFiles entries, patchFile computed file = file) ∨
  ∀ directory, LinesCommute (filePairs directory (listedFiles (patchListing computed entries)))

theorem filePairs_perm (entries : List ArchiveEntry) (directory : Str) :
    (filePairs directory (orderedFiles entries)).Perm (filePairs directory (listedFiles entries)) :=
  ((((perm_insertionSort _ _).trans (.of_eq (files_collect _))).filter _).filterMap _)

theorem crcPairs_totalsOf (directory : Str) (files : List (Str × RawEntry)) :
    (totalsOf directory files).crcPairs = filePairs directory files := by
  have after (files : List (Str × RawEntry)) (totals : FolderTotals) :
      (files.foldl (fun totals file => totals.addFile file.1 file.2) totals).crcPairs =
        totals.crcPairs ++ files.filterMap filePair := by
    induction files generalizing totals with
    | nil => exact (append_nil _).symm
    | cons file _ ih =>
      rw [foldl_cons, ih, filterMap_cons]
      cases crc : file.2.crc32 <;> simp [FolderTotals.addFile, filePair, crc]
  exact after _ _

variable [Crc32] {entries : List ArchiveEntry} {assigner : EntryIdAssigner}
  {computed : List (Str × Str)}

theorem build_unpatched (assigner : EntryIdAssigner)
    (unpatched : ∀ file ∈ orderedFiles entries, patchFile computed file = file) :
    (build (patchListing computed entries) assigner).1 = (build entries assigner).1 := by
  rw [build_eq_sorted, build_eq_sorted, Building.all, Building.all, orderedDirs_patchListing,
    orderedFiles_patchListing, map_congr_left unpatched, List.map_id']

theorem lookup_backfilled (order : RowOrder) {index : EntryIndex}
    (patched : (patchRows computed index.byId).1 ≠ 0) (id : EntryId) :
    (index.applyCrc32BackfillIn order computed).byId.lookup id =
      (index.byId.lookup id).map fun row =>
        if row.kind = .directory then
          { row with
            crc32 := folderCrcIn (order.arrange (patchedRows computed index)) row.path.value }
        else backfilledRow computed row := by
  have rows : (patchRows computed index.byId).2.lookup id =
      (index.byId.lookup id).map (backfilledRow computed) :=
    (patchRows_spec computed 0 index.byId).1 id
  rw [applyCrc32BackfillIn, if_neg patched, lookup_mapRows, rows, Option.map_map]
  refine congrArg (Option.map · _) (funext fun row => ?_)
  by_cases isDirectory : row.kind = .directory <;> simp [backfilledRow, isDirectory]

variable (sound : assigner.Sound)

include sound

theorem pairs_backfilled (directory : Str) :
    (rowPairs directory ((build entries assigner).1.rows.map (backfilledRow computed))).Perm
      (filePairs directory (orderedFiles (patchListing computed entries))) := by
  let pair (row : ArchiveEntryDto) : Option (Str × Str) :=
    if (backfilledRow computed row).kind ≠ .directory &&
      directory ∈ entryAncestors (backfilledRow computed row).path.value then
      crcPair (backfilledRow computed row)
    else none
  have unnumberedPair : pair ∘ unnumbered = pair := by
    funext row
    by_cases isDirectory : row.kind = .directory <;>
      simp [pair, backfilledRow, unnumbered, crcPair, isDirectory]
  have directories : ∀ row ∈ ((orderedDirs entries).map fun directory =>
    directoryRow (totalsOf directory.1 (orderedFiles entries)) directory).reverse,
    pair row = none := by
    intro row mem
    obtain ⟨_, _, rfl⟩ := List.mem_map.mp (mem_reverse.mp mem)
    simp [pair, backfilledRow, directoryRow]
  have files : ∀ file ∈ orderedFiles entries, pair (fileRow file) =
      if directory ∈ entryAncestors file.1 then filePair (patchFile computed file) else none := by
    intro file mem
    have isPath := value_parseOrRoot (canonical_orderedFiles mem)
    simp [pair, backfilledRow, fileRow, isPath, crcPair, filePair, patchFile]
  have all := congrArg (filterMap pair) (rows_build entries sound)
  rw [filterMap_map, unnumberedPair, filterMap_append,
    filterMap_eq_nil_iff.mpr directories, nil_append, filterMap_reverse, filterMap_map] at all
  rw [rowPairs, filePairs, filterMap_filter, filterMap_map, orderedFiles_patchListing,
    filterMap_filter, filterMap_map]
  refine (List.Perm.of_eq ?_).trans ((List.Perm.of_eq all).trans ((reverse_perm _).trans
    (.of_eq (filterMap_congr ?_))))
  · rfl
  · intro file mem
    refine (files file mem).trans ?_
    simp only [Function.comp_apply, decide_eq_true_eq]
    rfl

theorem unpatched_iff :
    (∀ row ∈ (build entries assigner).1.rows, backfilledRow computed row = row) ↔
      ∀ file ∈ orderedFiles entries, patchFile computed file = file := by
  have numbers (row : ArchiveEntryDto) : backfilledRow computed row = row ↔
      backfilledRow computed (unnumbered row) = unnumbered row := by
    by_cases isDirectory : row.kind = .directory <;> cases row <;>
      simp_all [backfilledRow, unnumbered]
  have files : ∀ file ∈ orderedFiles entries,
      (backfilledRow computed (fileRow file) = fileRow file ↔ patchFile computed file = file) := by
    rintro ⟨_, raw⟩ mem
    cases raw
    simp [backfilledRow, fileRow, patchFile,
      value_parseOrRoot (canonical_orderedFiles mem)]
  have all := congrArg (fun rows => ∀ row ∈ rows, backfilledRow computed row = row)
    (rows_build entries sound)
  simp only [List.forall_mem_map, ← numbers, forall_mem_append, mem_reverse] at all
  rw [all, and_iff_right fun directory _ => by simp [backfilledRow, directoryRow]]
  exact forall₂_congr files

theorem patched_eq_zero_iff : (patchRows computed (build entries assigner).1.byId).1 = 0 ↔
    ∀ file ∈ listedFiles entries, patchFile computed file = file := by
  obtain ⟨_, _, isCount, fixed⟩ := patchRows_spec computed 0 (build entries assigner).1.byId
  rw [patchRows, isCount, Nat.zero_add, fixed, ← files_collect]
  refine Iff.trans ⟨fun each row mem => ?_, fun each id row bound => ?_⟩
    ((@unpatched_iff _ _ entries assigner computed sound).trans ?_)
  · exact each _ _ ((build_numbered entries sound).1.lookup_of_mem mem)
  · exact each row (mem_rows_of_lookup bound)
  · exact forall_congr' fun file => imp_congr (mem_insertionSort _) Iff.rfl

theorem pairs_patchedRows (directory : Str) :
    (rowPairs directory (patchedRows computed (build entries assigner).1)).Perm
      (filePairs directory (orderedFiles (patchListing computed entries))) :=
  (((values_perm (patchRows_spec computed 0 _).1).filter _).filterMap _).trans
    (pairs_backfilled sound directory)

theorem applyCrc32Backfill_eq_build (irrelevant : OrderIrrelevant computed entries)
    (order : RowOrder) : SameIndex ((build entries assigner).1.applyCrc32BackfillIn order computed)
      (build (patchListing computed entries) assigner).1 := by
  by_cases unpatched : (patchRows computed (build entries assigner).1.byId).1 = 0
  · have kept := (patched_eq_zero_iff sound).mp unpatched
    rw [build_unpatched assigner fun file mem =>
      kept file (files_collect entries ▸ (mem_insertionSort _).mp mem),
      applyCrc32BackfillIn, if_pos unpatched]
    exact ⟨fun _ => rfl, rfl, rfl, rfl, rfl⟩
  · have commute := irrelevant.resolve_left fun kept =>
      unpatched ((patched_eq_zero_iff sound).mpr kept)
    have folded (directory : Str) :
        folderCrcIn (order.arrange (patchedRows computed (build entries assigner).1)) directory =
          (totalsOf directory (orderedFiles (patchListing computed entries))).finalizeCrc := by
      have pairs := filePairs_perm (patchListing computed entries) directory
      refine (finalizeCrc_perm ?_ ?_).symm <;> rw [crcPairs_totalsOf]
      · exact ((((order.perm _).filter _).filterMap _).trans
          (pairs_patchedRows sound directory)).symm
      · exact fun left leftMember right rightMember =>
          commute directory left (pairs.subset leftMember) right (pairs.subset rightMember)
    rw [build_patchListing entries sound]
    refine ⟨fun id => ?_, ?_, ?_, ?_, ?_⟩
    · rw [lookup_backfilled order unpatched, lookup_mapValues]
      simp only [folded]
      refine congrArg (Option.map · _) (funext fun row => ?_)
      by_cases isDirectory : row.kind = .directory <;> simp [rebuiltRow, backfilledRow, isDirectory]
    all_goals rw [applyCrc32BackfillIn, if_neg unpatched]

theorem exists_order (directory : Str) {pairs : List (Str × Str)}
    (perm : (filePairs directory (orderedFiles (patchListing computed entries))).Perm pairs) :
    ∃ order : RowOrder,
      folderCrcIn (order.arrange (patchedRows computed (build entries assigner).1)) directory =
        ({ empty with crcPairs := pairs } : FolderTotals).finalizeCrc := by
  classical
  have all := @pairs_patchedRows _ _ entries assigner computed sound directory
  generalize patchedRows computed (build entries assigner).1 = rows at all ⊢
  rw [rowPairs, filterMap_filter] at all
  obtain ⟨others, isPerm, isPairs⟩ := exists_perm_filterMap (all.trans perm)
  refine ⟨⟨fun items => if items = rows then others else items, fun items => ?_⟩, ?_⟩
  · split
    next same => exact same ▸ isPerm
    · exact .refl _
  · dsimp only
    rw [if_pos rfl, folderCrcIn, rowPairs, filterMap_filter, isPairs]

end

/-- A backfill gives the index of a fresh listing exactly if the order of files does not
matter. -/
theorem applyCrc32Backfill_eq_build_iff [CharTables]
    (entries : List ArchiveEntry)
    {assigner : EntryIdAssigner}
    (sound : assigner.Sound)
    (computed : List (Str × Str)) :
    (∀ (_ : Crc32) (order : RowOrder),
      SameIndex ((build entries assigner).1.applyCrc32BackfillIn order computed)
        (build (patchListing computed entries) assigner).1) ↔
    OrderIrrelevant computed entries := by
  refine ⟨fun same => or_iff_not_imp_left.mpr fun patches directory left leftMember right
    rightMember samePath => ?_, fun irrelevant _ order =>
      applyCrc32Backfill_eq_build sound irrelevant order⟩
  by_contra differs
  have pairs := filePairs_perm (patchListing computed entries) directory
  have distinct : right ≠ left := fun equal => differs (by rw [equal])
  obtain ⟨rest, isRest⟩ : ∃ rest, (filePairs directory (listedFiles
      (patchListing computed entries))).Perm (left :: right :: rest) := by
    refine ⟨_, (perm_cons_erase leftMember).trans (.cons _ (perm_cons_erase ?_))⟩
    exact (mem_erase_of_ne distinct).mpr rightMember
  let text := ((left :: right :: rest).insertionSort fun first second => first.1 ≤ second.1).flatMap
    crcLine
  -- A checksum that tells the two orders apart.
  let crc : Crc32 := ⟨fun bytes => if bytes = text then 1 else 0⟩
  have unchanged := fun zero => patches ((patched_eq_zero_iff sound).mp zero)
  obtain ⟨first, isFirst⟩ := exists_order sound directory (pairs.trans isRest)
  obtain ⟨second, isSecond⟩ := exists_order sound directory
    (pairs.trans (isRest.trans (.swap _ _ _)))
  obtain ⟨file, isBelow, _⟩ := mem_filterMap.mp leftMember
  obtain ⟨isListed, isAncestor⟩ := mem_filter.mp isBelow
  have inPaths : file.1 ∈ (collect (patchListing computed entries)).paths :=
    mem_append_left _ (List.mem_map_of_mem (files_collect _ ▸ isListed))
  have isDirectory := (closed_collect inPaths).2 directory (of_decide_eq_true isAncestor)
  rw [dirs_patchListing, ← (map_fst_orderedDirs entries).mem_iff, ← mem_reverse,
    ← directoryPaths_build entries sound] at isDirectory
  obtain ⟨row, isRow, isPath⟩ := List.mem_map.mp isDirectory
  obtain ⟨mem, kind⟩ := mem_filter.mp isRow
  have bound := (build_numbered entries sound).1.lookup_of_mem mem
  have both := ((same crc first).rows row.id).trans ((same crc second).rows row.id).symm
  rw [lookup_backfilled first unchanged, lookup_backfilled second unchanged, bound] at both
  have folds := congrArg (fun row : Option ArchiveEntryDto => row.bind (·.crc32)) both
  simp only [map_some, bind_some, of_decide_eq_true kind, if_true, isPath, isFirst,
    isSecond] at folds
  have other := (@lines_distinguished left right rest samePath differs).symm
  simp only [finalizeCrc, reduceCtorEq, if_false] at folds
  rw [show Crc32.hash text = 1 from if_pos rfl, show Crc32.hash _ = 0 from if_neg other] at folds
  revert folds
  decide

/-- Encrypted files of one path below a directory, one of which has a checksum. -/
def encryptedListing (crcs : List (Option Str)) : List ArchiveEntry :=
  crcs.map fun crc => ⟨"d/a".toList, 1, 1, none, false, true, crc⟩

/-- Of two files of one path the second gets the checksum that the first has, and the rows may
come in any order. -/
theorem equal_files_backfilled :
    SameIndex (@applyCrc32BackfillIn asciiTables crc32Ieee ⟨reverse, reverse_perm⟩
      (@build asciiTables crc32Ieee (encryptedListing [some "1".toList, none]) .new).1
      [("d/a".toList, "1".toList)])
      (@build asciiTables crc32Ieee (patchListing [("d/a".toList, "1".toList)]
        (encryptedListing [some "1".toList, none])) .new).1 := by
  refine (@applyCrc32Backfill_eq_build_iff asciiTables _ _ EntryIdAssigner.Sound.initially _).mpr
    (.inr fun directory left leftMember right rightMember _ => ?_) crc32Ieee _
  have files : listedFiles (patchListing [("d/a".toList, "1".toList)]
      (encryptedListing [some "1".toList, none])) =
        .replicate 2 ("d/a".toList, ⟨1, 1, none, true, some "1".toList⟩) := by
    rfl
  have only {pair : Str × Str} (mem : pair ∈ @filePairs asciiTables directory (listedFiles
      (patchListing [("d/a".toList, "1".toList)] (encryptedListing [some "1".toList, none])))) :
      some pair = @filePair asciiTables ("d/a".toList, ⟨1, 1, none, true, some "1".toList⟩) := by
    obtain ⟨_, isBelow, isPair⟩ := mem_filterMap.mp mem
    have listed := (mem_filter.mp isBelow).1
    rw [files] at listed
    rw [← isPair, eq_of_mem_replicate listed]
  rw [Option.some.inj ((only leftMember).trans (only rightMember).symm)]

/-- The folded checksum of two files of one path depends on which row comes first. -/
theorem duplicates_backfilled_in_either_order : ¬ ∀ order : RowOrder,
    SameIndex (@applyCrc32BackfillIn asciiTables crc32Ieee order
      (@build asciiTables crc32Ieee (encryptedListing [some "1".toList, none]) .new).1
      [("d/a".toList, "2".toList)])
      (@build asciiTables crc32Ieee (patchListing [("d/a".toList, "2".toList)]
        (encryptedListing [some "1".toList, none])) .new).1 := by
  intro same
  have both := ((same ⟨id, fun _ => .refl _⟩).rows 3).trans
    ((same ⟨reverse, reverse_perm⟩).rows 3).symm
  revert both
  decide +kernel

end Arclain.EntryIndex
