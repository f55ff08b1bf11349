import Arclain.WorkerOutput
import Mathlib.Data.List.Perm.Basic
import Mathlib.Data.List.Range

namespace Arclain.Import.Worker

open List Appending Fallible

/-!
# What the worker decodes

Each format has a backend: it opens the archive with a library, makes the inventory
of what the library reports, and later emits every entry of it.  What a library
reports and what its readers return is left open.
-/

inductive Container where
  | zip
  | sevenZ
  | rar
  | unknown

inductive ObjectKind where
  | file
  | directory
  | link
  | special
  deriving DecidableEq

inductive EntryName where
  | unicode (name : Str)
  | legacyZip (raw : Bytes)
  deriving DecidableEq

structure PackedBlock where
  packedBytes : Nat
  unpackedBytes : Nat
  deriving DecidableEq

structure PhysicalEntry where
  index : Nat
  name : EntryName
  kind : ObjectKind
  size : Nat
  block : Option Nat
  encrypted : Bool
  method : Str
  methodSupported : Bool
  unixMode : Option Nat
  deriving DecidableEq

abbrev ArchiveInventory := Inventory Container PackedBlock PhysicalEntry

/-- `unboxer::UnboxerError`, of which `limit_or` tells the limits from the others. -/
inductive UnboxerError where
  | tooManyEntries
  | tooLarge
  | archiveTooLarge
  | ratioExceeded
  | declaredSizeExceeded
  | indexTooLarge
  | other

def limitOr (fallback : ImportError) : UnboxerError → ImportError
  | .other => fallback
  | _ => .limit

/-- A mode that is neither of a file nor of a directory. -/
def isSpecialMode (mode : Nat) : Bool :=
  mode &&& 0o170000 ≠ 0 && mode &&& 0o170000 ≠ 0o040000 && mode &&& 0o170000 ≠ 0o100000

def Indexed (entries : List PhysicalEntry) : Prop :=
  ∀ (position : Nat) (entry : PhysicalEntry),
    entries[position]? = some entry → entry.index = position

/-- An entry that was emitted with as many bytes as the inventory declares. -/
def Sized (entries : List PhysicalEntry) (stream : Stream) : Prop :=
  ∃ entry, entries[stream.index]? = some entry ∧ stream.parts.flatten.length = entry.size

/-- Every index once, with as many bytes as its entry declares if the library is faithful. -/
structure Emitted (faithful : Prop) (entries : List PhysicalEntry)
    (streams : List Stream) : Prop where
  once : (streams.map Stream.index).Perm (List.range entries.length)
  wellFormed : ∀ stream ∈ streams, stream.WellFormed entries.length
  sizes : faithful → ∀ stream ∈ streams, Sized entries stream

variable {entries : List PhysicalEntry}

theorem Emitted.mono {faithful other : Prop} {streams : List Stream}
    (emitted : Emitted faithful entries streams) (whenever : other → faithful) :
    Emitted other entries streams where
  __ := emitted
  sizes holds := emitted.sizes (whenever holds)

theorem Indexed.snoc {entry : PhysicalEntry}
    (indexed : Indexed entries) (isLast : entry.index = entries.length) :
    Indexed (entries ++ [entry]) := by
  intro position other found
  rcases Nat.lt_trichotomy position entries.length with before | same | behind
  · rw [List.getElem?_append_left before] at found
    exact indexed position other found
  · rw [same, List.getElem?_concat_length] at found
    cases found
    exact isLast.trans same.symm
  · rw [List.getElem?_eq_none (by simpa using Nat.succ_le_of_lt behind)] at found
    cases found

theorem Indexed.map_index (indexed : Indexed entries) :
    entries.map PhysicalEntry.index = List.range entries.length := by
  refine ext_getElem? fun position => ?_
  rw [List.getElem?_map]
  cases found : entries[position]? with
  | none =>
    have outside := List.getElem?_eq_none_iff.mp found
    rw [List.getElem?_eq_none (by simpa using outside)]
    rfl
  | some entry =>
    have inside := (List.getElem?_eq_some_iff.mp found).1
    rw [List.getElem?_range inside, Option.map_some, indexed position entry found]

section

/-- What `ZipReader` reports of an entry. -/
structure ZipHeader where
  rawName : Bytes
  isLink : Bool
  unixMode : Option Nat
  isDir : Bool
  compressedSize : Nat
  size : Nat
  encrypted : Bool
  method : Str
  methodSupported : Bool

/-- `ZipReader`: the headers, which may be unreadable, and the readers of the
entries. -/
structure ZipReader where
  headers : List (Option ZipHeader)
  entry : Nat → Option (List Read)

def ZipHeader.kind (header : ZipHeader) : ObjectKind :=
  if header.isLink then .link
  else if header.unixMode.any isSpecialMode then .special
  else if header.isDir then .directory
  else .file

/-- An iteration of `zip::Archive::open`. -/
def zipEntry (inventory : ArchiveInventory)
    (header : Option ZipHeader) : Except ImportError ArchiveInventory :=
  match header with
  | none => .error .corrupt
  | some header =>
    let entry : PhysicalEntry :=
      { index := inventory.entries.length
        name := .legacyZip header.rawName
        kind := header.kind
        size := header.size
        block := if header.isDir then none else some inventory.blocks.length
        encrypted := header.encrypted
        method := "ZIP:".toList ++ header.method
        methodSupported := header.methodSupported
        unixMode := header.unixMode }
    .ok { inventory with
      blocks :=
        if header.isDir then inventory.blocks
        else inventory.blocks ++ [⟨header.compressedSize, header.size⟩]
      entries := inventory.entries ++ [entry] }

/-- `zip::Archive::open`. -/
def zipOpen (opened : Except UnboxerError ZipReader) :
    Except ImportError (ZipReader × ArchiveInventory) := do
  let reader ← opened.mapError (limitOr .corrupt)
  let inventory ← reader.headers.foldlM zipEntry ⟨.zip, [], []⟩
  .ok (reader, inventory)

/-- The loop of `zip::Archive::decode`. -/
def zipDecode (reader : ZipReader) : List PhysicalEntry → Work Unit
  | [] => pure ()
  | entry :: entries =>
    match reader.entry entry.index with
    | none => throw .corrupt
    | some reads => do
      emit entry.index entry.size reads
      zipDecode reader entries

variable {reader : ZipReader}

theorem zipOpen_indexed {opened : Except UnboxerError ZipReader}
    {inventory : ArchiveInventory} (ran : zipOpen opened = .ok (reader, inventory)) :
    Indexed inventory.entries := by
  obtain ⟨found, _, ran⟩ := bind_eq_ok.mp ran
  obtain ⟨_, looped, returned⟩ := bind_eq_ok.mp ran
  cases returned
  refine foldlM_preserves (fun inventory => Indexed inventory.entries) ?_ ?_ looped
  · intro inventory header _ _ indexed taken
    cases header with
    | none => cases taken
    | some header =>
      cases taken
      exact indexed.snoc rfl
  · intro _ _ found
    simp at found

theorem zipDecode_appends {entries : List PhysicalEntry} {count : Nat}
    (inInventory : ∀ entry ∈ entries, entry.index < count) :
    Appends Output.log (zipDecode reader entries) (fun _ added => ∃ streams : List Stream,
      added = eventsOf streams ∧ (∀ stream ∈ streams, stream.WellFormed count) ∧
        List.Forall₂ (fun entry stream =>
          Stream.index stream = PhysicalEntry.index entry ∧
            stream.parts.flatten.length = entry.size) entries streams)
      (Unfinished count) := by
  induction entries with
  | nil => exact appends_pure ⟨[], rfl, by simp, .nil⟩
  | cons entry entries ih =>
    obtain ⟨first, others⟩ := forall_mem_cons.mp inInventory
    rw [zipDecode]
    cases reader.entry entry.index with
    | none => exact appends_throw unfinished_nil
    | some =>
      refine (emit_appends first).bind (fun _ => id) ?_
      rintro _ added ⟨parts, rfl, nonempty, size⟩
      have wellFormed : ∀ stream ∈ [(⟨entry.index, parts⟩ : Stream)], stream.WellFormed count := by
        intro stream mem
        obtain rfl := mem_singleton.mp mem
        exact ⟨first, nonempty⟩
      refine (ih others).mono ?_ ?_
      · rintro _ more ⟨streams, rfl, allWellFormed, matched⟩
        refine ⟨⟨entry.index, parts⟩ :: streams, ?_, ?_, .cons ⟨rfl, size⟩ matched⟩
        · rw [← eventsOf_append]
          rfl
        · exact forall_mem_cons.mpr ⟨wellFormed _ mem_cons_self, allWellFormed⟩
      · intro more unfinished
        exact unfinished.append wellFormed

theorem zipDecode_emits {faithful : Prop} {entries : List PhysicalEntry}
    (indexed : Indexed entries) :
    Appends Output.log (zipDecode reader entries) (fun _ added => ∃ streams,
      added = eventsOf streams ∧ Emitted faithful entries streams) (Unfinished entries.length) := by
  have inInventory : ∀ entry ∈ entries, entry.index < entries.length := by
    intro entry mem
    obtain ⟨position, inside, rfl⟩ := getElem_of_mem mem
    rw [indexed position _ (List.getElem?_eq_getElem inside)]
    exact inside
  refine (zipDecode_appends inInventory).mono ?_ fun _ => id
  rintro _ added ⟨streams, rfl, wellFormed, matched⟩
  have sameIndices : entries.map PhysicalEntry.index = streams.map Stream.index := by
    rw [← forall₂_eq_eq_eq, forall₂_map_left_iff, forall₂_map_right_iff]
    exact matched.imp fun _ _ related => related.1.symm
  refine ⟨streams, rfl, ?_, wellFormed, ?_⟩
  · rw [← sameIndices, indexed.map_index]
  · intro _ _ mem
    obtain ⟨entry, entryMember, sameIndex, size⟩ := exists_of_forall₂ matched mem
    obtain ⟨position, inside, rfl⟩ := getElem_of_mem entryMember
    have found := List.getElem?_eq_getElem inside
    refine ⟨entries[position], ?_, size⟩
    rw [sameIndex, indexed position _ found]
    exact found

end

end Arclain.Import.Worker
