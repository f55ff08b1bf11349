import Arclain.EntryIdentity

namespace Arclain

/-!
# Queries on the entry index

One page of one directory, the whole tree, and the flat listing the organization rules
consume are functions of the index; the session adds the revision it read.
-/

open List Text CharTables

inductive EntrySortKey where
  | compressed
  | crc32
  | encrypted
  | kind
  | modified
  | name
  | ratio
  | size

inductive SortDirection where
  | ascending
  | descending

structure ListEntriesRequest where
  directory : ArchivePath
  sortKey : EntrySortKey
  sortDirection : SortDirection
  nameFilter : Option Str
  offset : Nat
  limit : Nat

/-- One page of rows, with the revision it was read at. -/
structure EntryPage where
  sessionId : ArchiveSessionId
  revision : Nat
  directory : ArchivePath
  total : Nat
  entries : List ArchiveEntryDto

/-- Every row of a session, with the revision it was read at. -/
structure ArchiveInventory where
  sessionId : ArchiveSessionId
  revision : Nat
  entries : List ArchiveEntryDto

namespace ArchiveEntryDto

variable [CharTables]

def kindSortKey (row : ArchiveEntryDto) : Str :=
  match row.kind with
  | .directory => "directory".toList
  | .file | .symlink =>
    toLowercase (match rsplitOnce '.' row.name with
      | some (_, extension) => extension
      | none => row.name)

def crc32SortKey (row : ArchiveEntryDto) : Str := uppercase (row.crc32.getD [])

def ratioSortKey (row : ArchiveEntryDto) : Nat :=
  if row.uncompressedSize = 0 then 0
  else min (row.compressedSize.getD 0 * 100) (2 ^ 64 - 1) / row.uncompressedSize

/-- The derived order of `Option`: nothing comes first. -/
def optionLe {Key : Type} (le : Key → Key → Bool) : Option Key → Option Key → Bool
  | none, _ => true
  | some _, none => false
  | some first, some second => le first second

/-- The order of the rows of a page by one column. -/
def precedes (key : EntrySortKey) (first second : ArchiveEntryDto) : Bool :=
  match key with
  | .compressed =>
    optionLe (fun first second => first ≤ second) first.compressedSize second.compressedSize
  | .crc32 => first.crc32SortKey ≤ second.crc32SortKey
  | .encrypted => first.encrypted.toNat ≤ second.encrypted.toNat
  | .kind => first.kindSortKey ≤ second.kindSortKey
  | .modified =>
    optionLe (fun first second => first ≤ second) first.modifiedAtUnixMs second.modifiedAtUnixMs
  | .name => toLowercase first.name ≤ toLowercase second.name
  | .ratio => first.ratioSortKey ≤ second.ratioSortKey
  | .size => first.uncompressedSize ≤ second.uncompressedSize

end ArchiveEntryDto

namespace EntryIndex

def childrenOf (index : EntryIndex) (directory : ArchivePath) : List EntryId :=
  (index.children.lookup directory).getD []

section

variable [CharTables]

def nameNeedle (request : ListEntriesRequest) : Option Str :=
  ((request.nameFilter.map trim).filter fun filter => filter ≠ []).map toLowercase

/-- The rows of a directory that pass the filter, in the requested order. -/
def matchingRows (index : EntryIndex) (request : ListEntriesRequest) : List ArchiveEntryDto :=
  let matching :=
    ((index.childrenOf request.directory).filterMap index.byId.lookup).filter fun row =>
      match nameNeedle request with
      | some needle => containsText (toLowercase row.name) needle
      | none => true
  let sorted := matching.insertionSort fun first second =>
    ArchiveEntryDto.precedes request.sortKey first second = true
  match request.sortDirection with
  | .ascending => sorted
  | .descending => sorted.reverse

/-- `list_entries`, for the revision that was read. -/
def listEntries (index : EntryIndex) (session : ArchiveSessionId) (revision : Nat)
    (request : ListEntriesRequest) : EntryPage :=
  let matching := index.matchingRows request
  { sessionId := session
    revision := revision
    directory := request.directory
    total := matching.length
    entries := (matching.drop request.offset).take request.limit }

end

/-- The loop of `all_entries`: the head of the list is the top of the stack, and every
popped id is spent from the fuel. -/
def walkEntries (index : EntryIndex) : Nat → List EntryId → List ArchiveEntryDto
  | 0, _ | _ + 1, [] => []
  | fuel + 1, id :: stack =>
    match index.byId.lookup id with
    | none => index.walkEntries fuel stack
    | some row =>
      if row.kind = .directory then
        row :: index.walkEntries fuel (index.childrenOf row.path ++ stack)
      else row :: index.walkEntries fuel stack

/-- `all_entries`: the rows in depth-first order. No id is below two directories, so as many
steps as rows empty the stack. -/
def allEntries (index : EntryIndex) : List ArchiveEntryDto :=
  index.walkEntries index.byId.keys.length (index.childrenOf ArchivePath.root)

/-- `inventory`, for the revision that was read. -/
def inventory (index : EntryIndex) (session : ArchiveSessionId)
    (revision : Nat) : ArchiveInventory where
  sessionId := session
  revision := revision
  entries := index.allEntries

def organizationEntry (row : ArchiveEntryDto) : ArchiveEntry where
  path := row.path.value
  size := row.uncompressedSize
  packedSize := row.compressedSize.getD 0
  modified := none
  isDir := row.kind = .directory
  encrypted := row.encrypted
  crc32 := row.crc32

/-- `organization_entries`: by path, a file before a directory. -/
def organizationEntries (index : EntryIndex) : List ArchiveEntry :=
  (index.rows.map organizationEntry).insertionSort fun first second =>
    first.path < second.path ∨ first.path = second.path ∧ first.isDir.toNat ≤ second.isDir.toNat

section

variable {index : EntryIndex}

variable {row : ArchiveEntryDto}

theorem mem_rows_of_lookup {id : EntryId}
    (bound : index.byId.lookup id = some row) : row ∈ index.rows :=
  mem_map_of_mem (KeyedMap.lookup_eq_some_iff_mem.mp bound)

theorem mem_rows_of_listEntries [CharTables] {session : ArchiveSessionId} {revision : Nat}
    {request : ListEntriesRequest}
    (mem : row ∈ (index.listEntries session revision request).entries) : row ∈ index.rows := by
  have matching : row ∈ index.matchingRows request :=
    mem_of_mem_drop (mem_of_mem_take mem)
  have kept : row ∈ (index.childrenOf request.directory).filterMap index.byId.lookup := by
    unfold matchingRows at matching
    simp only at matching
    split at matching
    · exact mem_of_mem_filter ((mem_insertionSort _).mp matching)
    · exact mem_of_mem_filter ((mem_insertionSort _).mp (mem_reverse.mp matching))
  obtain ⟨_, _, bound⟩ := mem_filterMap.mp kept
  exact mem_rows_of_lookup bound

theorem mem_rows_of_walkEntries {fuel : Nat} {stack : List EntryId}
    (mem : row ∈ index.walkEntries fuel stack) : row ∈ index.rows := by
  induction fuel generalizing stack with
  | zero => cases mem
  | succ fuel ih =>
    cases stack with
    | nil => cases mem
    | cons =>
      simp only [walkEntries] at mem
      split at mem
      · exact ih mem
      next bound =>
        split at mem
        · rcases mem_cons.mp mem with rfl | later
          · exact mem_rows_of_lookup bound
          · exact ih later
        · rcases mem_cons.mp mem with rfl | later
          · exact mem_rows_of_lookup bound
          · exact ih later

theorem mem_organizationEntries {entry : ArchiveEntry} : entry ∈ index.organizationEntries ↔
    ∃ row ∈ index.rows, organizationEntry row = entry := by
  rw [organizationEntries, mem_insertionSort, mem_map]

end

end EntryIndex

end Arclain
