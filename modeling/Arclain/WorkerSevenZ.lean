import Arclain.Checked
import Arclain.WorkerBackends

namespace Arclain.Import.Worker

open List Appending Fallible

/-!
# 7z archives

The inventory has all files of the archive; the decoder gets those that have a stream, in
the order of their blocks, and the others are emitted when all blocks are.
`for_each_entries` may fail behind any file.
-/

structure SevenZFile where
  name : Str
  hasWindowsAttributes : Bool
  windowsAttributes : Nat
  isAntiItem : Bool
  isDirectory : Bool
  hasStream : Bool
  size : Nat

/-- A block in the metadata of an archive, with the methods of its coders. -/
structure SevenZBlock where
  unpackSize : Nat
  coders : List Bytes

/-- The metadata of an archive, with its stream map. -/
structure SevenZMetadata where
  files : List SevenZFile
  blocks : List SevenZBlock
  packSizes : List Nat
  blockFirstPackStreamIndex : List Nat
  fileBlockIndex : List (Option Nat)

/-- A file as `for_each_entries` hands it over: its size, and its reader. -/
structure Handed where
  size : Nat
  reads : List Read

/-- The library: the metadata, the names of methods, and for each block its entries, what is
handed over, and whether it fails. -/
structure SevenZLibrary where
  metadata : Option SevenZMetadata
  methodName : Bytes → Option Str
  entryCount : Nat → Nat
  handed : Nat → List Handed
  failsBehind : Nat → Bool

/-- An opened archive: the files with a stream, where those of each block start, and their
positions in the inventory. -/
structure SevenZArchive where
  files : List SevenZFile
  blockFirstFileIndex : List Nat
  physicalIndices : List Nat
  inventory : ArchiveInventory

def packedBytes (metadata : SevenZMetadata) (index : Nat) : Except ImportError Nat :=
  let start := metadata.blockFirstPackStreamIndex.getD index 0
  let stop := metadata.blockFirstPackStreamIndex.getD (index + 1) metadata.packSizes.length
  match Checked.get metadata.packSizes start stop with
  | none => .error .corrupt
  | some sizes =>
    sizes.foldlM (fun sum size =>
      if sum + size < 2 ^ 64 then .ok (sum + size) else .error .corrupt) 0

def SevenZFile.attributes (file : SevenZFile) : Option Nat :=
  if file.hasWindowsAttributes then some file.windowsAttributes
  else none

def SevenZFile.mode (file : SevenZFile) : Option Nat :=
  (file.attributes.map (· >>> 16)).filter (· ≠ 0)

def SevenZFile.kind (file : SevenZFile) : ObjectKind :=
  if file.isAntiItem then .special
  else if file.attributes.any (· &&& 0x400 ≠ 0) ∨ file.mode.any (· &&& 0o170000 = 0o120000) then
    .link
  else if file.mode.any isSpecialMode then .special
  else if file.isDirectory then .directory
  else .file

/-- `EncoderMethod::ID_AES256_SHA256`. -/
def aes256Sha256 : Bytes := [0x06, 0xf1, 0x07, 0x01]

def supportedMethods : List Bytes :=
  [[0], [0x21], [3], [3, 1, 1], [3, 3, 1, 3], [3, 3, 1, 0x1b], [3, 3, 2, 5],
    [3, 3, 4, 1], [3, 3, 5, 1], [3, 3, 7, 1], [3, 3, 8, 5], [3, 2], [0xa], [0xb],
    [4, 2, 2], [3, 4, 1], [4, 1, 8]]

def codersOf (metadata : SevenZMetadata) (block : Option Nat) : Except ImportError (List Bytes) :=
  match block with
  | none => .ok []
  | some id =>
    match metadata.blocks[id]? with
    | none => .error .corrupt
    | some found => .ok found.coders

def sevenZEntry (library : SevenZLibrary) (metadata : SevenZMetadata) (file : SevenZFile)
    (index : Nat) : Except ImportError PhysicalEntry := do
  let block :=
    if file.hasStream then metadata.fileBlockIndex.getD index none
    else none
  let coders ← codersOf metadata block
  .ok
    { index := index
      name := .unicode file.name
      kind := file.kind
      size := file.size
      block := block
      encrypted := coders.any (· = aes256Sha256)
      method := ['+'].intercalate
        (coders.map fun coder => (library.methodName coder).getD "unknown".toList)
      methodSupported := coders.all (· ∈ supportedMethods)
      unixMode := file.mode }

/-- The view of the archive that the decoder gets, while it is made. -/
structure Compaction where
  physicalIndices : List Nat
  starts : List (Option Nat)
  compact : List SevenZFile
  previous : Option Nat

/-- A file that has a stream is added to the view, behind those of its block and of
the blocks before. -/
def Compaction.add (metadata : SevenZMetadata) (compaction : Compaction)
    (placed : SevenZFile × Nat) : Except ImportError Compaction :=
  let (file, index) := placed
  if file.hasStream = false then .ok compaction
  else
    match metadata.fileBlockIndex.getD index none with
    | none => .error .corrupt
    | some block =>
      if compaction.previous.any (block < ·) then .error .corrupt
      else
        match compaction.starts[block]? with
        | none => .error .corrupt
        | some start =>
          .ok
            { physicalIndices := compaction.physicalIndices ++ [index]
              starts :=
                if start.isNone then compaction.starts.set block (some compaction.compact.length)
                else compaction.starts
              compact := compaction.compact ++ [file]
              previous := some block }

def sevenZEntries (library : SevenZLibrary)
    (metadata : SevenZMetadata) : Except ImportError (List PhysicalEntry) :=
  metadata.files.zipIdx.mapM fun placed => sevenZEntry library metadata placed.1 placed.2

def compactFiles (metadata : SevenZMetadata) : Except ImportError Compaction :=
  metadata.files.zipIdx.foldlM (Compaction.add metadata)
    ⟨[], replicate metadata.blocks.length none, [], none⟩

/-- Whether every block has as many files in the view as its decoder expects. -/
def countsMatch (library : SevenZLibrary) (starts : List Nat) (files : Nat) : Bool :=
  (range starts.length).all fun block =>
    starts.getD (block + 1) files - starts.getD block 0 = library.entryCount block

/-- `sevenz::Archive::open`. -/
def sevenZOpen (library : SevenZLibrary) (limits : Limits) : Except ImportError SevenZArchive :=
  match library.metadata with
  | none => .error .corrupt
  | some metadata =>
    if limits.maxEntries < metadata.files.length then .error .limit
    else if metadata.files.length < metadata.blocks.length then .error .corrupt
    else if metadata.blockFirstPackStreamIndex.length ≠ metadata.blocks.length ∨
      metadata.fileBlockIndex.length ≠ metadata.files.length then
      .error .corrupt
    else do
      let blocks ← metadata.blocks.zipIdx.mapM fun (block, index) => do
        let packed ← packedBytes metadata index
        .ok (⟨packed, block.unpackSize⟩ : PackedBlock)
      let entries ← sevenZEntries library metadata
      let compaction ← compactFiles metadata
      match compaction.starts.mapM id with
      | none => .error .corrupt
      | some starts =>
        if countsMatch library starts compaction.compact.length then
          .ok
            { files := compaction.compact
              blockFirstFileIndex := starts
              physicalIndices := compaction.physicalIndices
              inventory := ⟨.sevenZ, blocks, entries⟩ }
        else .error .corrupt

/-- The callback of `for_each_entries`, for what is handed over of a block: the
inventory entries that were emitted so far. -/
def sevenZHand (archive : SevenZArchive) (start : Nat) :
    Nat → List Handed → List Bool → Work (List Bool)
  | _, [], seen => pure seen
  | ordinal, handed :: rest, seen =>
    let index := archive.physicalIndices.getD (start + ordinal) (2 ^ 64 - 1)
    if seen.length ≤ index ∨ seen[index]? = some true then throw .corrupt
    else do
      emit index handed.size handed.reads
      sevenZHand archive start (ordinal + 1) rest (seen.set index true)

/-- The loop of `sevenz::Archive::decode` over the blocks. -/
def sevenZBlocks (library : SevenZLibrary) (archive : SevenZArchive) :
    List Nat → List Bool → Work (List Bool)
  | [], seen => pure seen
  | block :: blocks, seen =>
    match archive.blockFirstFileIndex[block]? with
    | none => throw .corrupt
    | some start => do
      let seen ← sevenZHand archive start 0 (library.handed block) seen
      if library.failsBehind block then throw .corrupt
      else sevenZBlocks library archive blocks seen

/-- The loop of `sevenz::Archive::decode` over the entries without a stream. -/
def sevenZRest : List (PhysicalEntry × Nat) → List Bool → Work (List Bool)
  | [], seen => pure seen
  | (entry, index) :: rest, seen =>
    if seen[index]? = some false ∧ entry.block = none then do
      emit index entry.size []
      sevenZRest rest (seen.set index true)
    else sevenZRest rest seen

/-- `sevenz::Archive::decode`. -/
def sevenZDecode (library : SevenZLibrary) (archive : SevenZArchive) : Work Unit := do
  let entries := archive.inventory.entries
  let seen ← sevenZBlocks library archive (range archive.blockFirstFileIndex.length)
    (replicate entries.length false)
  let seen ← sevenZRest entries.zipIdx seen
  if seen.any (! ·) then throw .corrupt
  else pure ()

section

variable {library : SevenZLibrary} {limits : Limits} {archive : SevenZArchive}

theorem sevenZOpen_eq_ok (ran : sevenZOpen library limits = .ok archive) :
    ∃ (metadata : SevenZMetadata) (compaction : Compaction),
      sevenZEntries library metadata = .ok archive.inventory.entries ∧
        compactFiles metadata = .ok compaction ∧ archive.files = compaction.compact ∧
        archive.physicalIndices = compaction.physicalIndices := by
  unfold sevenZOpen at ran
  cases found : library.metadata with
  | none =>
    simp only [found] at ran
    cases ran
  | some metadata =>
    simp only [found, refuse_eq_ok] at ran
    obtain ⟨_, _, _, opens⟩ := ran
    obtain ⟨_, _, lists⟩ := bind_eq_ok.mp opens
    obtain ⟨_, listed, compacts⟩ := bind_eq_ok.mp lists
    obtain ⟨compaction, compacted, returned⟩ := bind_eq_ok.mp compacts
    split at returned
    · cases returned
    · split at returned
      · cases returned
        exact ⟨metadata, compaction, listed, compacted, rfl, rfl⟩
      · cases returned

variable {metadata : SevenZMetadata}

theorem sevenZEntry_eq_ok {file : SevenZFile} {index : Nat}
    {entry : PhysicalEntry} (ran : sevenZEntry library metadata file index = .ok entry) :
    entry.index = index ∧ entry.size = file.size := by
  obtain ⟨_, _, returned⟩ := bind_eq_ok.mp ran
  cases returned
  exact ⟨rfl, rfl⟩

theorem sevenZEntries_eq_ok {entries : List PhysicalEntry}
    (listed : sevenZEntries library metadata = .ok entries) :
    entries.length = metadata.files.length ∧
      ∀ (index : Nat) (file : SevenZFile) (entry : PhysicalEntry),
        metadata.files[index]? = some file → entries[index]? = some entry →
          entry.index = index ∧ entry.size = file.size := by
  have matched := forall₂_of_mapM listed
  have lengths := matched.length_eq
  rw [length_zipIdx] at lengths
  refine ⟨lengths.symm, ?_⟩
  intro index file entry isFile isEntry
  obtain ⟨inFiles, rfl⟩ := List.getElem?_eq_some_iff.mp isFile
  obtain ⟨inEntries, rfl⟩ := List.getElem?_eq_some_iff.mp isEntry
  have made := (forall₂_iff_get.mp matched).2 index (by rw [length_zipIdx]; exact inFiles) inEntries
  simp only [get_eq_getElem, getElem_zipIdx, Nat.zero_add] at made
  exact sevenZEntry_eq_ok made

theorem compactFiles_eq_ok {compaction : Compaction}
    (compacted : compactFiles metadata = .ok compaction) :
    List.Forall₂ (fun index file => metadata.files[index]? = some file)
      compaction.physicalIndices compaction.compact := by
  refine foldlM_preserves (fun compaction =>
    List.Forall₂ (fun index file => metadata.files[index]? = some file)
      compaction.physicalIndices compaction.compact) ?_ .nil compacted
  rintro compaction ⟨file, index⟩ next mem kept added
  simp only [Compaction.add] at added
  split at added
  · cases added
    exact kept
  · split at added
    · cases added
    · simp only [refuse_eq_ok] at added
      obtain ⟨_, added⟩ := added
      split at added
      · cases added
      · cases added
        have here : metadata.files[index]? = some file := mem_zipIdx_iff_getElem?.mp mem
        exact rel_append kept (.cons here .nil)

theorem sevenZOpen_indexed (ran : sevenZOpen library limits = .ok archive) :
    Indexed archive.inventory.entries := by
  obtain ⟨_, _, listed, _⟩ := sevenZOpen_eq_ok ran
  obtain ⟨lengths, placed⟩ := sevenZEntries_eq_ok listed
  intro position entry found
  have inside := (List.getElem?_eq_some_iff.mp found).1
  rw [lengths] at inside
  exact (placed position _ entry (List.getElem?_eq_getElem inside) found).1

theorem sevenZOpen_sizes (ran : sevenZOpen library limits = .ok archive) {place index : Nat}
    (kept : archive.physicalIndices[place]? = some index) :
    ∃ file entry, archive.files[place]? = some file ∧
      archive.inventory.entries[index]? = some entry ∧ entry.size = file.size := by
  obtain ⟨_, compaction, listed, compacted, sameFiles, samePlaces⟩ := sevenZOpen_eq_ok ran
  obtain ⟨lengths, placed⟩ := sevenZEntries_eq_ok listed
  have matched := compactFiles_eq_ok compacted
  rw [samePlaces] at kept
  obtain ⟨inPlaces, rfl⟩ := List.getElem?_eq_some_iff.mp kept
  have inFiles : place < compaction.compact.length := matched.length_eq ▸ inPlaces
  have here := (forall₂_iff_get.mp matched).2 place inPlaces inFiles
  simp only [get_eq_getElem] at here
  have inside := (List.getElem?_eq_some_iff.mp here).1
  rw [← lengths] at inside
  have found := List.getElem?_eq_getElem inside
  rw [sameFiles]
  exact ⟨_, _, List.getElem?_eq_getElem inFiles, found, (placed _ _ _ here found).2⟩

end

/-- A library that hands over the files of the view that it was given, in their
order. -/
def HandsOver (library : SevenZLibrary) (archive : SevenZArchive) : Prop :=
  ∀ (block start ordinal : Nat) (handed : Handed) (file : SevenZFile),
    archive.blockFirstFileIndex[block]? = some start →
    (library.handed block)[ordinal]? = some handed →
    archive.files[start + ordinal]? = some file →
    handed.size = file.size

/-- The entries that were emitted are those that are marked. -/
structure Marks (faithful : Prop) (entries : List PhysicalEntry) (streams : List Stream)
    (seen : List Bool) : Prop where
  length : seen.length = entries.length
  once : (streams.map Stream.index).Nodup
  marked : ∀ index : Nat, seen[index]? = some true ↔ index ∈ streams.map Stream.index
  wellFormed : ∀ stream ∈ streams, stream.WellFormed entries.length
  sizes : faithful → ∀ stream ∈ streams, Sized entries stream

section

variable {faithful : Prop} {entries : List PhysicalEntry} {streams : List Stream} {seen : List Bool}

theorem marks_nil : Marks faithful entries [] (replicate entries.length false) where
  length := length_replicate
  once := nodup_nil
  marked index := by
    rw [List.getElem?_replicate]
    split <;> simp
  wellFormed := by simp
  sizes := by simp

theorem Marks.snoc {index : Nat} {parts : List Bytes} (marks : Marks faithful entries streams seen)
    (inside : index < seen.length) (unmarked : seen[index]? ≠ some true)
    (nonempty : ∀ part ∈ parts, part ≠ []) (sized : faithful → Sized entries ⟨index, parts⟩) :
    Marks faithful entries (streams ++ [⟨index, parts⟩]) (seen.set index true) := by
  have isNew : index ∉ streams.map Stream.index := fun before =>
    unmarked ((marks.marked index).mpr before)
  refine
    { length := by rw [length_set, marks.length]
      once := ?_
      marked := ?_
      wellFormed := ?_
      sizes := ?_ }
  · rw [map_append]
    refine marks.once.append (nodup_singleton _) ?_
    intro other before isLast
    obtain rfl := mem_singleton.mp isLast
    exact isNew before
  · intro other
    rw [List.getElem?_set, map_append, mem_append, ← marks.marked other]
    by_cases same : index = other
    · subst same
      simp [inside]
    · simp [same, Ne.symm same]
  · intro stream mem
    rcases mem_append.mp mem with before | isLast
    · exact marks.wellFormed stream before
    · obtain rfl := mem_singleton.mp isLast
      exact ⟨marks.length ▸ inside, nonempty⟩
  · intro holds stream mem
    rcases mem_append.mp mem with before | isLast
    · exact marks.sizes holds stream before
    · obtain rfl := mem_singleton.mp isLast
      exact sized holds

theorem Marks.emitted (marks : Marks faithful entries streams seen)
    (all : ∀ mark ∈ seen, mark = true) : Emitted faithful entries streams where
  __ := marks
  once := by
    refine (perm_ext_iff_of_nodup marks.once nodup_range).mpr ?_
    intro index
    rw [← marks.marked index, mem_range, ← marks.length]
    constructor
    · intro marked
      exact (List.getElem?_eq_some_iff.mp marked).1
    · intro inside
      rw [List.getElem?_eq_getElem inside, all _ (getElem_mem inside)]

def MarksMore (faithful : Prop) (entries : List PhysicalEntry) (streams : List Stream)
    (seen : List Bool) (added : List Event) : Prop :=
  ∃ more, added = eventsOf more ∧ Marks faithful entries (streams ++ more) seen

theorem MarksMore.trans {first : List Stream} {added : List Event}
    (more : MarksMore faithful entries (streams ++ first) seen added) :
    MarksMore faithful entries streams seen (eventsOf first ++ added) := by
  obtain ⟨others, rfl, marks⟩ := more
  refine ⟨first ++ others, (eventsOf_append _ _).symm, ?_⟩
  rw [← append_assoc]
  exact marks

theorem emit_marking {index declared : Nat} {reads : List Read} {next : Work (List Bool)}
    (marks : Marks faithful entries streams seen) (inside : index < seen.length)
    (unmarked : seen[index]? ≠ some true)
    (sized : faithful → ∃ entry, entries[index]? = some entry ∧ declared = entry.size)
    (goesOn : ∀ parts, Marks faithful entries (streams ++ [⟨index, parts⟩]) (seen.set index true) →
      Appends Output.log next (MarksMore faithful entries (streams ++ [⟨index, parts⟩]))
        (Unfinished entries.length)) :
    Appends Output.log (emit index declared reads >>= fun _ => next)
      (MarksMore faithful entries streams) (Unfinished entries.length) := by
  refine (emit_appends (marks.length ▸ inside)).bind (fun _ => id) ?_
  rintro _ added ⟨parts, rfl, nonempty, size⟩
  have marksNow := marks.snoc inside unmarked nonempty fun holds => by
    obtain ⟨entry, found, same⟩ := sized holds
    exact ⟨entry, found, size.trans same⟩
  refine (goesOn parts marksNow).mono ?_ ?_
  · intro _ more isMore
    exact isMore.trans
  · intro more unfinished
    refine unfinished.append ?_
    intro stream mem
    exact marksNow.wellFormed stream (mem_append_right _ mem)

theorem sevenZHand_appends {archive : SevenZArchive} {start ordinal : Nat} {calls : List Handed}
    (few : entries.length < 2 ^ 64) (marks : Marks faithful entries streams seen)
    (sized : faithful → ∀ (place : Nat) (handed : Handed) (index : Nat),
      calls[place]? = some handed →
      archive.physicalIndices[start + (ordinal + place)]? = some index →
      ∃ entry, entries[index]? = some entry ∧ handed.size = entry.size) :
    Appends Output.log (sevenZHand archive start ordinal calls seen)
      (MarksMore faithful entries streams) (Unfinished entries.length) := by
  induction calls generalizing ordinal streams seen with
  | nil =>
    refine appends_pure ⟨[], rfl, ?_⟩
    rw [append_nil]
    exact marks
  | cons handed calls ih =>
    rw [sevenZHand]
    refine appends_guard unfinished_nil fun plain => ?_
    obtain ⟨outside, unmarked⟩ := not_or.mp plain
    have inside := Nat.lt_of_not_le outside
    refine emit_marking marks inside unmarked ?_ ?_
    · intro holds
      refine sized holds 0 handed _ rfl ?_
      rw [getD_eq_getElem?_getD] at inside ⊢
      cases found : archive.physicalIndices[start + ordinal]? with
      | some index => rfl
      | none =>
        rw [found, marks.length] at inside
        simp only [Option.getD_none] at inside
        omega
    · intro _ marksNow
      refine ih marksNow ?_
      intro holds place other index isCall isPlace
      refine sized holds (place + 1) other index isCall ?_
      rw [← isPlace]
      exact congrArg (archive.physicalIndices[·]?) (by omega)

variable {library : SevenZLibrary} {archive : SevenZArchive}

theorem sevenZBlocks_appends {blocks : List Nat}
    (few : entries.length < 2 ^ 64) (marks : Marks faithful entries streams seen)
    (sized : faithful → ∀ (block start place : Nat) (handed : Handed) (index : Nat),
      archive.blockFirstFileIndex[block]? = some start →
      (library.handed block)[place]? = some handed →
      archive.physicalIndices[start + place]? = some index →
      ∃ entry, entries[index]? = some entry ∧ handed.size = entry.size) :
    Appends Output.log (sevenZBlocks library archive blocks seen)
      (MarksMore faithful entries streams) (Unfinished entries.length) := by
  induction blocks generalizing streams seen with
  | nil =>
    refine appends_pure ⟨[], rfl, ?_⟩
    rw [append_nil]
    exact marks
  | cons block blocks ih =>
    rw [sevenZBlocks]
    cases first : archive.blockFirstFileIndex[block]? with
    | none => exact appends_throw unfinished_nil
    | some start =>
      refine (@sevenZHand_appends faithful entries streams seen archive start 0
        (library.handed block) few marks ?_).bind (fun _ => id) ?_
      · intro holds place handed index isCall isPlace
        rw [Nat.zero_add] at isPlace
        exact sized holds block start place handed index first isCall isPlace
      · rintro seenNow added ⟨more, rfl, marksNow⟩
        have wellFormed : ∀ stream ∈ more, stream.WellFormed entries.length := fun stream mem =>
          marksNow.wellFormed stream (mem_append_right _ mem)
        refine appends_guard (unfinished_nil.append wellFormed) fun _ => ?_
        refine (ih marksNow).mono ?_ ?_
        · intro _ added isMore
          exact isMore.trans
        · intro added unfinished
          exact unfinished.append wellFormed

theorem sevenZRest_appends {rest : List (PhysicalEntry × Nat)}
    (marks : Marks faithful entries streams seen)
    (listed : ∀ (entry : PhysicalEntry) (index : Nat), (entry, index) ∈ rest →
      entries[index]? = some entry) :
    Appends Output.log (sevenZRest rest seen)
      (MarksMore faithful entries streams) (Unfinished entries.length) := by
  induction rest generalizing streams seen with
  | nil =>
    refine appends_pure ⟨[], rfl, ?_⟩
    rw [append_nil]
    exact marks
  | cons placed rest ih =>
    obtain ⟨entry, index⟩ := placed
    have others : ∀ (entry : PhysicalEntry) (index : Nat), (entry, index) ∈ rest →
        entries[index]? = some entry := fun entry index mem =>
      listed entry index (mem_cons_of_mem _ mem)
    rw [sevenZRest]
    split
    next isLeft =>
      have unmarked : seen[index]? ≠ some true := by
        rw [isLeft.1]
        simp
      have inside := (List.getElem?_eq_some_iff.mp isLeft.1).1
      refine emit_marking marks inside unmarked ?_ ?_
      · intro _
        exact ⟨entry, listed entry index mem_cons_self, rfl⟩
      · intro _ marksNow
        exact ih marksNow others
    · exact ih marks others

theorem sevenZDecode_emits {limits : Limits} (opened : sevenZOpen library limits = .ok archive)
    (few : archive.inventory.entries.length < 2 ^ 64) :
    Appends Output.log (sevenZDecode library archive) (fun _ added => ∃ streams,
      added = eventsOf streams ∧
        Emitted (HandsOver library archive) archive.inventory.entries streams)
      (Unfinished archive.inventory.entries.length) := by
  have sized (faithful : HandsOver library archive) (block start place : Nat) (handed : Handed)
      (index : Nat)
      (first : archive.blockFirstFileIndex[block]? = some start)
      (isCall : (library.handed block)[place]? = some handed)
      (isPlace : archive.physicalIndices[start + place]? = some index) :
      ∃ entry, archive.inventory.entries[index]? = some entry ∧ handed.size = entry.size := by
    obtain ⟨file, entry, isFile, found, same⟩ := sevenZOpen_sizes opened isPlace
    exact ⟨entry, found,
      (faithful block start place handed file first isCall isFile).trans same.symm⟩
  refine (sevenZBlocks_appends few marks_nil sized).bind (fun _ => id) ?_
  rintro seen added ⟨streams, rfl, marks⟩
  rw [nil_append] at marks
  refine (sevenZRest_appends marks fun entry index mem =>
    mem_zipIdx_iff_getElem?.mp mem).bind ?_ ?_
  · intro added unfinished
    exact unfinished.append marks.wellFormed
  · rintro seenNow added ⟨more, rfl, marksNow⟩
    simp only [← append_assoc, ← eventsOf_append]
    refine appends_guard ?_ fun all => ?_
    · exact unfinished_nil.append marksNow.wellFormed
    · refine appends_pure ⟨streams ++ more, append_nil _, marksNow.emitted ?_⟩
      intro mark mem
      by_contra unmarked
      refine all (any_eq_true.mpr ⟨mark, mem, ?_⟩)
      simpa using unmarked

end

end Arclain.Import.Worker
