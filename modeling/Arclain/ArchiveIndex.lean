import Arclain.ArchiveListing
import Arclain.ModifiedTime

namespace Arclain

/-!
# The entry index of an archive session

`EntryIndex.build` turns a flat backend listing into rows keyed by entry id, synthesizes the
directories the paths imply and aggregates each over its files.  Ids come from an assigner
that outlives the index.
-/

open Text ArchivePath

/-- The CRC-32 of a byte string, as the hashing library computes it. -/
class Crc32 where
  hash : List UInt8 → Nat

def crc32Byte (crc : UInt32) (byte : UInt8) : UInt32 :=
  (List.range 8).foldl (fun value _ =>
    if value &&& 1 = 1 then (value >>> 1) ^^^ 0xEDB88320 else value >>> 1)
    (crc ^^^ byte.toUInt32)

@[reducible] def crc32Ieee : Crc32 where
  hash bytes := ((bytes.foldl crc32Byte 0xFFFFFFFF) ^^^ 0xFFFFFFFF).toNat

inductive EntryKind where
  | directory
  | file
  | symlink
  deriving DecidableEq

structure ArchiveEntryDto where
  id : EntryId
  path : ArchivePath
  name : Str
  kind : EntryKind
  compressedSize : Option Nat
  uncompressedSize : Nat
  modifiedAtUnixMs : Option Int
  encrypted : Bool
  crc32 : Option Str
  deriving DecidableEq

structure EntryKey where
  kind : EntryKind
  path : Str
  ordinal : Nat
  deriving DecidableEq

structure EntryIdAssigner where
  assigned : KeyedMap EntryKey EntryId
  next : Nat

namespace EntryIdAssigner

def new : EntryIdAssigner where
  assigned := ∅
  next := 0

/-- `assign`: the id a key already has, or a fresh one. -/
def assign (assigner : EntryIdAssigner) (key : EntryKey) : EntryId × EntryIdAssigner :=
  match assigner.assigned.lookup key with
  | some id => (id, assigner)
  | none =>
    (assigner.next + 1,
      { assigned := assigner.assigned.insert key (assigner.next + 1)
        next := assigner.next + 1 })

end EntryIdAssigner

/-- `u64::saturating_add`. -/
def saturatingAdd (first second : Nat) : Nat := min (first + second) (2 ^ 64 - 1)

/-- One entry of the listing before directories are aggregated. -/
structure RawEntry where
  uncompressedSize : Nat
  compressedSize : Nat
  modified : Option Str
  encrypted : Bool
  crc32 : Option Str

/-- A directory that only the paths below it imply. -/
def RawEntry.implied : RawEntry where
  uncompressedSize := 0
  compressedSize := 0
  modified := none
  encrypted := false
  crc32 := none

/-- `normalize`. -/
def normalizeEntryPath (raw : Str) : Str := trimEndMatches (· = '/') (forwardSlashes raw)

/-- `ancestors`: the text before each slash of a path, shallowest first. -/
def entryAncestors (path : Str) : List Str :=
  ((List.range path.length).filter fun index => path[index]? = some '/').map
    fun index => path.take index

/-- `parent_of`. -/
def entryParent (path : Str) : Str :=
  match rsplitOnce '/' path with
  | some (parent, _) => parent
  | none => []

/-- `basename`. -/
def entryBasename (path : Str) : Str :=
  match rsplitOnce '/' path with
  | some (_, name) => name
  | none => path

/-- The aggregate of one directory over the files below it. -/
structure FolderTotals where
  uncompressedSize : Nat
  compressedSize : Nat
  crcPairs : List (Str × Str)

namespace FolderTotals

def empty : FolderTotals where
  uncompressedSize := 0
  compressedSize := 0
  crcPairs := []

/-- The bytes `finalize_crc` hashes for one file. -/
def crcLine (pair : Str × Str) : List UInt8 :=
  (pair.1 ++ [':'] ++ pair.2 ++ ['\n']).flatMap String.utf8EncodeChar

/-- `finalize_crc`: one CRC over the files of the directory in path order. -/
def finalizeCrc [Crc32] (totals : FolderTotals) : Option Str :=
  if totals.crcPairs = [] then none
  else
    let ordered := totals.crcPairs.insertionSort fun first second => first.1 ≤ second.1
    let digits := (Nat.toDigits 16 (Crc32.hash (ordered.flatMap crcLine))).map Char.toUpper
    some (List.replicate (8 - digits.length) '0' ++ digits)

def addFile [CharTables] (totals : FolderTotals) (path : Str) (raw : RawEntry) : FolderTotals where
  uncompressedSize := saturatingAdd totals.uncompressedSize raw.uncompressedSize
  compressedSize := saturatingAdd totals.compressedSize raw.compressedSize
  crcPairs :=
    match raw.crc32 with
    | some crc => totals.crcPairs ++ [(path, uppercase crc)]
    | none => totals.crcPairs

end FolderTotals

def orInsert {Key Value : Type} [DecidableEq Key] (map : KeyedMap Key Value) (key : Key)
    (value : Value) : KeyedMap Key Value :=
  match map.lookup key with
  | some _ => map
  | none => map.insert key value

/-- The rows of an archive, the order of its files, and the children of each directory. -/
structure EntryIndex where
  byId : KeyedMap EntryId ArchiveEntryDto
  sortedFileIds : List EntryId
  children : KeyedMap ArchivePath (List EntryId)
  entryCount : Nat
  totalUncompressedSize : Nat

namespace EntryIndex

/-- The listing, sorted into files and explicit directories. -/
structure Collected where
  files : List (Str × RawEntry)
  dirs : KeyedMap Str RawEntry

/-- One entry of the listing; the root and paths that are refused are
skipped. -/
def collectEntry (collected : Collected) (entry : ArchiveEntry) : Collected :=
  let canonical := normalizeEntryPath entry.path
  let raw : RawEntry :=
    { uncompressedSize := entry.size
      compressedSize := entry.packedSize
      modified := entry.modified
      encrypted := entry.encrypted
      crc32 := entry.crc32 }
  match parse canonical with
  | .error _ => collected
  | .ok _ =>
    if canonical = [] then collected
    else if entry.isDir then { collected with dirs := orInsert collected.dirs canonical raw }
    else { collected with files := collected.files ++ [(canonical, raw)] }

def collect (entries : List ArchiveEntry) : Collected :=
  let listed := entries.foldl collectEntry { files := [], dirs := ∅ }
  let implied := sortedSet ((listed.files.map Prod.fst ++ listed.dirs.keys).flatMap entryAncestors)
  { listed with
    dirs := implied.foldl (fun dirs path => orInsert dirs path RawEntry.implied) listed.dirs }

/-- The index under construction, with what it still has to remember. -/
structure Building where
  assigner : EntryIdAssigner
  ordinals : KeyedMap Str Nat
  folderTotals : KeyedMap Str FolderTotals
  index : EntryIndex

def addRow (index : EntryIndex) (parent : ArchivePath) (row : ArchiveEntryDto) : EntryIndex :=
  { index with
    byId := index.byId.insert row.id row
    children := index.children.insert parent ((index.children.lookup parent).getD [] ++ [row.id])
    entryCount := index.entryCount + 1 }

def addFile [CharTables] (building : Building) (file : Str × RawEntry) : Building :=
  let path := file.1
  let raw := file.2
  let ordinal := (building.ordinals.lookup path).getD 0
  let (id, assigner) := building.assigner.assign { kind := .file, path := path, ordinal := ordinal }
  let row : ArchiveEntryDto :=
    { id := id
      path := parseOrRoot path
      name := entryBasename path
      kind := .file
      compressedSize := some raw.compressedSize
      uncompressedSize := raw.uncompressedSize
      modifiedAtUnixMs := raw.modified.bind parseModifiedToUnixMs
      encrypted := raw.encrypted
      crc32 := raw.crc32 }
  let index := addRow building.index (parseOrRoot (entryParent path)) row
  { assigner := assigner
    ordinals := building.ordinals.insert path (ordinal + 1)
    folderTotals := (entryAncestors path).foldl (fun totals ancestor =>
      totals.insert ancestor (((totals.lookup ancestor).getD FolderTotals.empty).addFile path raw))
      building.folderTotals
    index :=
      { index with
        sortedFileIds := index.sortedFileIds ++ [id]
        totalUncompressedSize := saturatingAdd index.totalUncompressedSize raw.uncompressedSize } }

def addDirectory [Crc32] (building : Building) (directory : Str × RawEntry) : Building :=
  let path := directory.1
  let raw := directory.2
  let totals := (building.folderTotals.lookup path).getD FolderTotals.empty
  let (id, assigner) := building.assigner.assign { kind := .directory, path := path, ordinal := 0 }
  let row : ArchiveEntryDto :=
    { id := id
      path := parseOrRoot path
      name := entryBasename path
      kind := .directory
      compressedSize := some totals.compressedSize
      uncompressedSize := totals.uncompressedSize
      modifiedAtUnixMs := raw.modified.bind parseModifiedToUnixMs
      encrypted := raw.encrypted
      crc32 := totals.finalizeCrc }
  { building with
    assigner := assigner
    folderTotals := building.folderTotals.erase path
    index := addRow building.index (parseOrRoot (entryParent path)) row }

/-- The children of one directory by lower-cased name. -/
def sortChildren [CharTables] (byId : KeyedMap EntryId ArchiveEntryDto)
    (ids : List EntryId) : List EntryId :=
  let key := fun id => CharTables.toLowercase (((byId.lookup id).map ArchiveEntryDto.name).getD [])
  ids.insertionSort fun first second => key first ≤ key second

def build [CharTables] [Crc32] (entries : List ArchiveEntry)
    (assigner : EntryIdAssigner) : EntryIndex × EntryIdAssigner :=
  let collected := collect entries
  let orderedFiles := collected.files.insertionSort fun first second => first.1 ≤ second.1
  let orderedDirs :=
    (collected.dirs.entries.map fun entry => (entry.1, entry.2)).insertionSort
      fun first second => first.1 ≤ second.1
  let start : Building :=
    { assigner := assigner
      ordinals := ∅
      folderTotals := ∅
      index :=
        { byId := ∅
          sortedFileIds := []
          children := ∅
          entryCount := 0
          totalUncompressedSize := 0 } }
  let built := orderedDirs.foldl addDirectory (orderedFiles.foldl addFile start)
  ({ built.index with
    children := built.index.children.keys.foldl (fun children directory =>
      children.insert directory (sortChildren built.index.byId
        ((built.index.children.lookup directory).getD [])))
      built.index.children },
    built.assigner)

def rows (index : EntryIndex) : List ArchiveEntryDto := index.byId.entries.map Sigma.snd

/-- The paths one requested row stands for: its own, or those of the files
below a directory. -/
def extractablePaths (index : EntryIndex) (row : ArchiveEntryDto) : List Str :=
  match row.kind with
  | .file | .symlink => [row.path.value]
  | .directory =>
    (index.rows.filter fun candidate =>
      candidate.kind = .file && startsWith candidate.path.value (row.path.value ++ ['/'])).map
      fun candidate => candidate.path.value

/-- `resolve_extractable_paths`: the files the ids stand for, each once, or an unknown id. -/
def resolveExtractablePaths (index : EntryIndex)
    (entryIds : List EntryId) : Except EntryId (List Str) :=
  entryIds.foldlM (fun paths id =>
    match index.byId.lookup id with
    | none => .error id
    | some row =>
      .ok ((index.extractablePaths row).foldl
        (fun known path => if path ∈ known then known else known ++ [path])
        paths))
    []

/-- `encrypted_crc_backfill_targets`: paths without a checksum, and whether a row is
encrypted. -/
def crcBackfillTargets (index : EntryIndex) (headersEncrypted : Bool) : List Str × Bool :=
  (((index.rows.filter fun row =>
    row.kind ≠ .directory && (row.encrypted || headersEncrypted) &&
      row.crc32.isNone).map fun row => row.path.value).insertionSort (· ≤ ·),
    index.rows.any ArchiveEntryDto.encrypted)

def patchRow (computed : Str × Str) (row : ArchiveEntryDto) : ArchiveEntryDto :=
  if row.kind ≠ .directory && row.path.value = computed.1 && row.encrypted && row.crc32.isNone then
    { row with crc32 := some computed.2 }
  else row

def mapRows (change : ArchiveEntryDto → ArchiveEntryDto) (byId : KeyedMap EntryId ArchiveEntryDto) :
    KeyedMap EntryId ArchiveEntryDto :=
  byId.keys.foldl (fun rows id =>
    match byId.lookup id with
    | some row => rows.insert id (change row)
    | none => rows)
    byId

def folderCrc [CharTables] [Crc32] (byId : KeyedMap EntryId ArchiveEntryDto)
    (directory : Str) : Option Str :=
  let pairs := byId.entries.filterMap fun entry =>
    match entry.2.crc32 with
    | some crc =>
      if entry.2.kind ≠ .directory && directory ∈ entryAncestors entry.2.path.value then
        some (entry.2.path.value, uppercase crc)
      else none
    | none => none
  ({ FolderTotals.empty with crcPairs := pairs } : FolderTotals).finalizeCrc

/-- `apply_crc32_backfill`: patch the rows, count them, and recompute the
checksum of every directory if there were any. -/
def applyCrc32Backfill [CharTables] [Crc32] (index : EntryIndex)
    (computed : List (Str × Str)) : Nat × EntryIndex :=
  let patched := computed.foldl (fun state sum =>
    (state.1 + (state.2.entries.countP fun entry => patchRow sum entry.2 ≠ entry.2),
      mapRows (patchRow sum) state.2))
    (0, index.byId)
  if patched.1 = 0 then (0, index)
  else
    (patched.1,
      { index with
        byId := mapRows (fun row =>
          if row.kind = .directory then { row with crc32 := folderCrc patched.2 row.path.value }
          else row)
          patched.2 })

end EntryIndex

end Arclain
