import Arclain.RarNames
import Arclain.Tiling
import Mathlib.Algebra.Order.BigOperators.Group.List

namespace Arclain.Import.Rar

open List Checked Option ImportError

/-!
# Attestation of RAR headers

Before the native decoder runs, the worker walks the headers of the file.  Each block is a
header and the data that it declares, and the next block starts behind them.

A file has fewer bytes than half of the words.
-/

structure File where
  bytes : Bytes
  fits : bytes.length < 2 ^ 63

structure Header where
  name : Str
  size : Nat
  packed : Nat
  host : Nat
  attributes : Nat
  directory : Bool
  deriving DecidableEq

inductive Kind where
  | main
  | service
  | entry (header : Header)
  | ending
  deriving DecidableEq

/-- A block of the file: what it is, the bytes of its header and of its data. -/
structure Block where
  kind : Kind
  length : Nat
  packed : Nat

/-- The variables of `attest`, and the blocks that it walked with their starts. -/
structure Walk where
  offset : Nat
  headers : List Header
  total : Nat
  main : Bool
  ended : Bool
  blocks : List (Nat × Block)

/-- `Read::read_exact`. -/
def read (count : Nat) (bytes : Bytes) : Attempt (Bytes × Bytes) :=
  match readExact count bytes with
  | .ok result => .ok result
  | .error error => refuse error

def rar4PackedSize (bytes : Bytes) (flags : UInt16) : Attempt Nat := do
  let packed ← u32At bytes 7
  if flags &&& 0x100 ≠ 0 then do
    let upper ← u32At bytes 32
    .ok (packed.toUInt64 ||| upper.toUInt64 <<< 32).toNat
  else .ok packed.toNat

/-- The size that a file header of the fourth version states, and where its name
starts. -/
def rar4Size (bytes : Bytes) (flags : UInt16) : Attempt (Nat × Nat) := do
  let unpacked ← u32At bytes 11
  if flags &&& 0x100 ≠ 0 then do
    let upper ← u32At bytes 36
    .ok ((unpacked.toUInt64 ||| upper.toUInt64 <<< 32).toNat, 40)
  else .ok (unpacked.toNat, 32)

def rar4Host (raw : UInt8) : Attempt Nat :=
  if raw = 0 ∨ raw = 2 then .ok 2
  else if raw = 3 then .ok 3
  else refuse .unsupported

/-- The extended time record of a file header, if it has one. -/
def rar4Trailing (bytes : Bytes) (flags : UInt16) (nameEnd : Nat) : Attempt Nat :=
  if flags &&& 0x1000 ≠ 0 then do
    let behind ← slice bytes nameEnd bytes.length
    extendedTimeLength behind
  else .ok 0

def rar4Name (libraries : Libraries) (flags : UInt16) (field : Bytes) : Attempt Str :=
  if flags &&& 0x0200 ≠ 0 then unicodeName libraries field
  else originalName libraries field true

/-- The branch of a file header of the fourth version. -/
def rar4Entry (libraries : Libraries) (bytes : Bytes) (flags : UInt16)
    (main : Bool) : Attempt Block := do
  let length := bytes.length
  if flags &&& 0x0004 ≠ 0 then refuse .encrypted
  else if main = false ∨
    flags &&& ~~~(0x8000 ||| 0x0100 ||| 0x0010 ||| 0x00e0 ||| 0x1000 ||| 0x0200) ≠ 0 ∨
    flags &&& 0x8000 = 0 ∨ length < 32 then
    refuse .unsupported
  else do
    let packed ← rar4PackedSize bytes flags
    let (unpacked, start) ← rar4Size bytes flags
    let nameLength ← u16At bytes 26
    let nameEnd ← required .unsupported
      ((checkedPlus word start nameLength.toNat).filter (· ≤ length))
    let trailing ← rar4Trailing bytes flags nameEnd
    let described ← plus word nameEnd trailing
    if described ≠ length then refuse .unsupported
    else do
      let rawHost ← item bytes 15
      let host ← rar4Host rawHost
      let version ← item bytes 24
      if version < 20 then refuse .unsupported
      else do
        let attributes ← u32At bytes 28
        let field ← slice bytes start nameEnd
        let name ← rar4Name libraries flags field
        .ok
          { kind := .entry
              { name := name
                size := unpacked
                packed := packed
                host := host
                attributes := attributes.toNat
                directory := flags &&& 0xe0 = 0xe0 }
            length := length
            packed := packed }

/-- The branches of `attest` for a header of the fourth version. -/
def rar4Block (libraries : Libraries) (bytes : Bytes) (walk : Walk) : Attempt Block := do
  let length := bytes.length
  let flags ← u16At bytes 3
  let kind ← item bytes 2
  if kind = 0x73 then
    if flags &&& 0x0080 ≠ 0 then refuse .encrypted
    else if walk.main ∨ walk.headers ≠ [] ∨
      flags &&& ~~~(0x0004 ||| 0x0008 ||| 0x0040) ≠ 0 ∨ length ≠ 13 then
      refuse .unsupported
    else .ok ⟨.main, length, 0⟩
  else if kind = 0x7a then
    if flags &&& 0x0004 ≠ 0 then refuse .encrypted
    else if walk.main = false ∨ flags &&& 0x8000 = 0 ∨ length < 32 then refuse .unsupported
    else do
      let packed ← rar4PackedSize bytes flags
      .ok ⟨.service, length, packed⟩
  else if kind = 0x74 then rar4Entry libraries bytes flags walk.main
  else if kind = 0x7b then
    let dataCrc := if flags &&& 0x0002 ≠ 0 then 4 else 0
    if walk.main = false ∨ flags &&& ~~~(0x4000 ||| 0x0002) ≠ 0 ∨ length ≠ 7 + dataCrc then
      refuse .unsupported
    else .ok ⟨.ending, length, 0⟩
  else refuse .unsupported

def rar4Header (libraries : Libraries) (limits : Limits) (bytes : Bytes)
    (total : Nat) : Attempt (Bytes × Nat) := do
  let (first, rest) ← read 7 bytes
  let length ← u16At first 5
  if length < 7 then refuse .corrupt
  else do
    let total ← plus word total length.toNat
    if limits.maxIndexBytes < total then refuse .limit
    else do
      let body ← minus length.toNat 7
      let (others, _) ← read body rest
      let bytes := first ++ others
      let hashed ← slice bytes 2 bytes.length
      let stated ← u16At bytes 0
      if (libraries.crc32 hashed).toUInt16 ≠ stated then refuse .corrupt
      else .ok (bytes, total)

/-- The length of a header of the fifth version: up to ten bytes, all but the last
announcing another. -/
def readEncoded : Nat → Bytes → Bytes → Attempt (Bytes × Bytes)
  | 0, encoded, rest => .ok (encoded, rest)
  | count + 1, encoded, rest => do
    let (byte, rest) ← read 1 rest
    let encoded := encoded ++ byte
    if byte.headD 0 &&& 128 = 0 then .ok (encoded, rest)
    else readEncoded count encoded rest

/-- The header of the fifth version at the start of some bytes, the bytes before what it
describes, and those of all headers. -/
def rar5Header (libraries : Libraries) (limits : Limits) (bytes : Bytes)
    (total : Nat) : Attempt (Bytes × Nat × Nat) := do
  let (crc, rest) ← read 4 bytes
  let (encoded, rest) ← readEncoded 10 [] rest
  let (length, cursor) ← var encoded 0
  if cursor ≠ encoded.length ∨ 2 ^ 20 < length.toNat then refuse .limit
  else do
    let withLength ← plus word length.toNat encoded.length
    let whole ← plus word withLength 4
    let total ← required .limit (checkedPlus word total whole)
    if limits.maxIndexBytes < total then refuse .limit
    else do
      let (bytes, _) ← read length.toNat rest
      if libraries.crc32 (encoded ++ bytes) ≠ UInt32.ofNat (LittleEndian.toNat crc) then
        refuse .corrupt
      else do
        let before ← plus word 4 encoded.length
        .ok (bytes, before, total)

def skipField (bytes : Bytes) (flags mask : UInt64) (cursor : Nat) : Attempt Nat :=
  if flags &&& mask ≠ 0 then do
    let _ ← u32At bytes cursor
    plus word cursor 4
  else .ok cursor

def optionalVar (bytes : Bytes) (flags mask : UInt64) (cursor : Nat) : Attempt (UInt64 × Nat) :=
  if flags &&& mask ≠ 0 then var bytes cursor
  else .ok (0, cursor)

def mainRecords : List UInt64 → Attempt Unit
  | [] => .ok ()
  | record :: records =>
    if record = 1 ∨ record = 2 then mainRecords records
    else refuse .unsupported

def entryRecords (isService : Bool) : List UInt64 → Attempt Unit
  | [] => .ok ()
  | record :: records =>
    if record = 1 then refuse .encrypted
    else if isService ∨ record = 2 ∨ record = 3 ∨ record = 6 then entryRecords isService records
    else refuse .unsupported

/-- The branch of a main header of the fifth version. -/
def rar5Main (bytes extraArea : Bytes) (flags : UInt64) (cursor : Nat)
    (main : Bool) : Attempt (Kind × Nat) := do
  let (archiveFlags, cursor) ← var bytes cursor
  if main ∨ flags &&& 2 ≠ 0 ∨ archiveFlags &&& ~~~(4 ||| 8 ||| 16) ≠ 0 then refuse .unsupported
  else do
    let records ← extraRecordTypes extraArea
    mainRecords records
    .ok (.main, cursor)

def rar5Kind (libraries : Libraries) (isService : Bool) (nameBytes : Bytes)
    (size packed host attributes : UInt64) (fileFlags : UInt64) : Attempt Kind :=
  if isService then .ok .service
  else do
    let name ← originalName libraries nameBytes false
    .ok (.entry
      { name := name
        size := size.toNat
        packed := packed.toNat
        host := if host = 0 then 2 else 3
        attributes := attributes.toNat
        directory := fileFlags &&& 1 ≠ 0 })

/-- The branch of a file or a service header of the fifth version. -/
def rar5Entry (libraries : Libraries) (bytes extraArea : Bytes) (isService : Bool) (packed : UInt64)
    (cursor : Nat) (main : Bool) : Attempt (Kind × Nat) :=
  if main = false then refuse .corrupt
  else do
    let (fileFlags, cursor) ← var bytes cursor
    if fileFlags &&& ~~~7 ≠ 0 then refuse .unsupported
    else do
      let (unpacked, cursor) ← var bytes cursor
      let (attributes, cursor) ← var bytes cursor
      if 2 ^ 32 ≤ attributes.toNat then refuse .unsupported
      else do
        let cursor ← skipField bytes fileFlags 2 cursor
        let cursor ← skipField bytes fileFlags 4 cursor
        let (_, cursor) ← var bytes cursor
        let (host, cursor) ← var bytes cursor
        if 1 < host then refuse .unsupported
        else do
          let (nameLength, cursor) ← var bytes cursor
          let last ← required .limit (checkedPlus word cursor nameLength.toNat)
          let nameBytes ← required .corrupt (get bytes cursor last)
          let records ← extraRecordTypes extraArea
          entryRecords isService records
          let kind ← rar5Kind libraries isService nameBytes unpacked packed host attributes
              fileFlags
          .ok (kind, last)

/-- The branch of an end header of the fifth version. -/
def rar5Ending (bytes : Bytes) (flags : UInt64) (cursor : Nat)
    (main : Bool) : Attempt (Kind × Nat) :=
  if main = false ∨ flags &&& 3 ≠ 0 then refuse .unsupported
  else do
    let (endFlags, cursor) ← var bytes cursor
    if endFlags ≠ 0 then refuse .unsupported
    else .ok (.ending, cursor)

/-- The branches of `attest` for a header of the fifth version. -/
def rar5Kinds (libraries : Libraries) (bytes extraArea : Bytes) (kind flags packed : UInt64)
    (cursor : Nat) (main : Bool) : Attempt (Kind × Nat) :=
  if kind = 1 then rar5Main bytes extraArea flags cursor main
  else if kind = 2 ∨ kind = 3 then rar5Entry libraries bytes extraArea (kind = 3) packed cursor main
  else if kind = 4 then refuse .encrypted
  else if kind = 5 then rar5Ending bytes flags cursor main
  else refuse .unsupported

/-- A block of the fifth version, of which some bytes come before its header. -/
def rar5Block (libraries : Libraries) (bytes : Bytes) (before : Nat)
    (main : Bool) : Attempt Block := do
  let (kind, cursor) ← var bytes 0
  let (flags, cursor) ← var bytes cursor
  if flags &&& ~~~7 ≠ 0 then refuse .unsupported
  else do
    let (extra, cursor) ← optionalVar bytes flags 1 cursor
    let (packed, cursor) ← optionalVar bytes flags 2 cursor
    let bodyEnd ← required .corrupt
      (if extra.toNat ≤ bytes.length ∧ cursor ≤ bytes.length - extra.toNat then
        some (bytes.length - extra.toNat)
      else none)
    let extraArea ← slice bytes bodyEnd bytes.length
    let (kind, cursor) ← rar5Kinds libraries bytes extraArea kind flags packed cursor main
    if cursor ≠ bodyEnd then refuse .unsupported
    else do
      let length ← plus word before bytes.length
      .ok ⟨kind, length, packed.toNat⟩

def Block.extent (block : Block) : Nat := block.length + block.packed

def Block.header? (block : Block) : Option Header :=
  match block.kind with
  | .entry header => some header
  | _ => none

/-- What `attest` does with a block that it read: it goes on behind its header and
its data. -/
def Walk.advance (walk : Walk) (limits : Limits) (size total : Nat)
    (block : Block) : Attempt Walk := do
  let offset ← required .corrupt ((checkedPlus word walk.offset block.length).bind fun behind =>
    checkedPlus word behind block.packed)
  let headers := walk.headers ++ block.header?.toList
  let ended := walk.ended || block.kind = .ending
  if limits.maxEntries < headers.length then refuse .limit
  else if size < offset ∨ (ended ∧ offset ≠ size) then refuse .corrupt
  else
    .ok
      { offset := offset
        headers := headers
        total := total
        main := walk.main || block.kind = .main
        ended := ended
        blocks := walk.blocks ++ [(walk.offset, block)] }

inductive Version where
  | four
  | five

def Version.signature : Version → Bytes
  | .four => [0x52, 0x61, 0x72, 0x21, 0x1a, 0x07, 0x00]
  | .five => [0x52, 0x61, 0x72, 0x21, 0x1a, 0x07, 0x01, 0x00]

/-- An iteration of `attest`. -/
def walkBlock (libraries : Libraries) (limits : Limits) (file : File) (version : Version)
    (walk : Walk) : Attempt Walk :=
  match version with
  | .four => do
    let (bytes, total) ← rar4Header libraries limits (file.bytes.drop walk.offset) walk.total
    let block ← rar4Block libraries bytes walk
    walk.advance limits file.bytes.length total block
  | .five => do
    let (bytes, before, total) ←
      rar5Header libraries limits (file.bytes.drop walk.offset) walk.total
    let block ← rar5Block libraries bytes before walk.main
    walk.advance limits file.bytes.length total block

def versionOf (signature : Bytes) : Attempt Version :=
  if signature = Version.five.signature then .ok .five
  else if signature.take 7 = Version.four.signature then .ok .four
  else refuse .unsupported

section

variable (libraries : Libraries) (limits : Limits) (file : File)

/-- The loop of `attest`, from behind the signature. -/
def walkBlocks (version : Version) : Attempt Walk :=
  whileFuel (fun walk => walk.offset < file.bytes.length ∧ walk.ended = false)
    (walkBlock libraries limits file version) file.bytes.length
    ⟨version.signature.length, [], 0, false, false, []⟩

/-- `attest`, with the walk that its headers are from. -/
def attestWalk : Attempt (Version × Walk) := do
  let (signature, _) ← read 8 file.bytes
  let version ← versionOf signature
  let walk ← walkBlocks libraries limits file version
  if walk.ended = false then refuse .corrupt
  else .ok (version, walk)

def attest : Attempt (List Header) := do
  let (_, walk) ← attestWalk libraries limits file
  .ok walk.headers

end

section

variable {libraries : Libraries} {limits : Limits} {bytes : Bytes}

theorem read_meets {count : Nat} : Meets (read count bytes) fun result =>
  bytes = result.1 ++ result.2 ∧ result.1.length = count := by
  unfold read
  split
  next result found => exact readExact_eq_ok.mp found
  · trivial

variable {flags : UInt16}

theorem rar4PackedSize_meets : Meets (rar4PackedSize bytes flags) fun _ => True := by
  refine (u32At_meets (by decide)).bind fun packed _ => ?_
  split
  · exact (u32At_meets (by decide)).bind fun _ _ => meets_ok trivial
  · exact meets_ok trivial

theorem rar4Size_meets : Meets (rar4Size bytes flags) fun result => result.2 ≤ 40 := by
  refine (u32At_meets (by decide)).bind fun unpacked _ => ?_
  split
  · exact (u32At_meets (by decide)).bind fun _ _ => meets_ok le_rfl
  · exact meets_ok (show 32 ≤ 40 by decide)

theorem rar4Trailing_meets {nameEnd : Nat} (inside : nameEnd ≤ bytes.length) :
    Meets (rar4Trailing bytes flags nameEnd) fun trailing => trailing ≤ 30 := by
  rw [rar4Trailing]
  split
  · exact (meets_slice inside le_rfl).bind fun _ _ => extendedTimeLength_meets
  · exact meets_ok (by decide)

theorem rar4Host_meets {raw : UInt8} : Meets (rar4Host raw) fun _ => True := by
  unfold rar4Host
  split
  · trivial
  · split
    · trivial
    · trivial

theorem rar4Name_meets : Meets (rar4Name libraries flags bytes) fun _ => True := by
  rw [rar4Name]
  split
  · exact unicodeName_meets
  · exact originalName_meets

/-- The main header comes before all others, and only once. -/
def Placeable (main : Bool) (length : Nat) (block : Block) : Prop :=
  block.length = length ∧ (block.kind = .main ↔ main = false)

theorem rar4Entry_meets {main : Bool} (fits : bytes.length < 2 ^ 16) :
    Meets (rar4Entry libraries bytes flags main) (Placeable main bytes.length) := by
  unfold rar4Entry
  dsimp only
  refine meets_guard fun _ => meets_guard fun plain => ?_
  obtain ⟨hasMain, _, _, enough⟩ : main = true ∧ _ ∧ _ ∧ 32 ≤ bytes.length := by
    simpa only [not_or, not_lt, Bool.not_eq_false] using plain
  refine rar4PackedSize_meets.bind fun packed _ => ?_
  refine rar4Size_meets.bind ?_
  rintro ⟨_, start⟩ startBound
  refine (u16At_meets (by decide)).bind fun nameLength _ => ?_
  have nameInside : Meets (required unsupported
      ((checkedPlus word start nameLength.toNat).filter (· ≤ bytes.length)))
      fun nameEnd => start ≤ nameEnd ∧ nameEnd ≤ bytes.length :=
    meets_required fun nameEnd found => by
      obtain ⟨isSum, inside⟩ := filter_eq_some_iff.mp found
      obtain ⟨rfl, _⟩ := checkedPlus_eq_some.mp isSum
      exact ⟨Nat.le_add_right _ _, of_decide_eq_true inside⟩
  refine nameInside.bind fun nameEnd ⟨ordered, inside⟩ => ?_
  refine (rar4Trailing_meets inside).bind fun trailing trailingBound => ?_
  refine (meets_plus (by unfold word; omega)).bind ?_
  rintro _ rfl
  refine meets_guard fun _ => ?_
  refine (meets_item (by omega)).bind fun rawHost _ => ?_
  refine rar4Host_meets.bind fun host _ => ?_
  refine (meets_item (by omega)).bind fun version _ => ?_
  refine meets_guard fun _ => ?_
  refine (u32At_meets (by decide)).bind fun attributes _ => ?_
  refine (meets_slice ordered inside).bind fun field _ => ?_
  refine rar4Name_meets.bind fun name _ => ?_
  exact meets_ok ⟨rfl, by simp [hasMain]⟩

theorem rar4Block_meets {walk : Walk} (enough : 7 ≤ bytes.length) (fits : bytes.length < 2 ^ 16) :
    Meets (rar4Block libraries bytes walk) (Placeable walk.main bytes.length) := by
  unfold rar4Block
  dsimp only
  refine (u16At_meets (by decide)).bind fun flags _ => ?_
  refine (meets_item (by omega)).bind fun kind _ => ?_
  split
  · refine meets_guard fun _ => meets_guard fun plain => ?_
    obtain ⟨noMain, _⟩ := not_or.mp plain
    exact meets_ok ⟨rfl, by simpa using noMain⟩
  · split
    · refine meets_guard fun _ => meets_guard fun plain => ?_
      obtain ⟨hasMain, _⟩ := not_or.mp plain
      refine rar4PackedSize_meets.bind fun packed _ => ?_
      exact meets_ok ⟨rfl, by simpa using hasMain⟩
    · split
      · exact rar4Entry_meets fits
      · split
        · refine meets_guard fun plain => ?_
          obtain ⟨hasMain, _⟩ := not_or.mp plain
          exact meets_ok ⟨rfl, by simpa using hasMain⟩
        · trivial

theorem rar4Header_meets {total : Nat} (fits : total + 2 ^ 16 < word) :
    Meets (rar4Header libraries limits bytes total) fun result =>
      7 ≤ result.1.length ∧ result.1.length < 2 ^ 16 ∧
        result.2 = total + result.1.length ∧ result.2 ≤ limits.maxIndexBytes := by
  unfold rar4Header
  refine read_meets.bind ?_
  rintro ⟨first, _⟩ ⟨_, firstLength⟩
  refine (u16At_meets (by decide)).bind fun length _ => ?_
  have small : length.toNat < 2 ^ 16 := length.toNat_lt
  refine meets_guard fun enough => ?_
  have enough : 7 ≤ length.toNat := by simpa [UInt16.lt_iff_toNat_lt] using enough
  refine (meets_plus (by omega)).bind ?_
  rintro _ rfl
  refine meets_guard fun within => ?_
  refine (meets_minus enough).bind ?_
  rintro _ rfl
  refine read_meets.bind ?_
  rintro ⟨others, _⟩ ⟨_, othersLength⟩
  have width : (first ++ others).length = length.toNat := by
    rw [length_append]
    dsimp only at firstLength othersLength
    omega
  dsimp only
  refine (meets_slice (by omega) le_rfl).bind fun hashed _ => ?_
  refine (u16At_meets (by decide)).bind fun stated _ => ?_
  refine meets_guard fun _ => ?_
  refine meets_ok ⟨?_, ?_, ?_, ?_⟩
  · dsimp only
    omega
  · dsimp only
    omega
  · dsimp only
    omega
  · exact Nat.le_of_not_lt within

theorem readEncoded_meets {count : Nat} {encoded rest : Bytes} :
    Meets (readEncoded count encoded rest) fun result =>
      result.1.length ≤ encoded.length + count := by
  induction count generalizing encoded rest with
  | zero => exact meets_ok le_rfl
  | succ count ih =>
    rw [readEncoded]
    refine read_meets.bind ?_
    rintro ⟨byte, _⟩ ⟨_, byteLength⟩
    have width : (encoded ++ byte).length = encoded.length + 1 := by
      rw [length_append]
      exact congrArg (encoded.length + ·) byteLength
    dsimp only
    split
    · refine meets_ok ?_
      dsimp only
      omega
    · exact ih.mono fun result bound => by omega

theorem rar5Header_meets {total : Nat} :
    Meets (rar5Header libraries limits bytes total) fun result =>
      result.1.length ≤ 2 ^ 20 ∧ 0 < result.2.1 ∧ result.2.1 ≤ 14 ∧
        result.2.2 = total + (result.2.1 + result.1.length) ∧
        result.2.2 ≤ limits.maxIndexBytes := by
  unfold rar5Header
  refine read_meets.bind ?_
  rintro ⟨_, _⟩ _
  refine readEncoded_meets.bind ?_
  rintro ⟨encoded, _⟩ encodedBound
  dsimp only [length_nil] at encodedBound
  refine (var_meets (by unfold word; omega)).bind ?_
  rintro ⟨length, _⟩ ⟨moved, within⟩
  refine meets_guard fun plain => ?_
  obtain ⟨_, small⟩ := not_or.mp plain
  dsimp only at moved within small
  refine (meets_plus (by unfold word; omega)).bind ?_
  rintro _ rfl
  refine (meets_plus (by unfold word; omega)).bind ?_
  rintro _ rfl
  have counted : Meets (required limit
      (checkedPlus word total (length.toNat + encoded.length + 4)))
      fun counted => counted = total + (length.toNat + encoded.length + 4) :=
    meets_required fun counted found => (checkedPlus_eq_some.mp found).1
  refine counted.bind ?_
  rintro counted rfl
  refine meets_guard fun atMost => ?_
  refine read_meets.bind ?_
  rintro ⟨_, _⟩ ⟨_, bodyLength⟩
  refine meets_guard fun _ => ?_
  refine (meets_plus (by unfold word; omega)).bind ?_
  rintro _ rfl
  dsimp only at bodyLength
  refine meets_ok ⟨?_, ?_, ?_, ?_, Nat.le_of_not_lt atMost⟩
  · dsimp only
    omega
  · dsimp only
    omega
  · dsimp only
    omega
  · dsimp only
    omega

theorem skipField_meets {flags mask : UInt64} {cursor : Nat} (fits : bytes.length + 4 < word)
    (inside : cursor ≤ bytes.length) :
    Meets (skipField bytes flags mask cursor) fun next => next ≤ bytes.length := by
  rw [skipField]
  split
  · refine (u32At_meets (by omega)).bind fun _ within => ?_
    exact (meets_plus (by omega)).mono fun next same => same ▸ within
  · exact meets_ok inside

theorem optionalVar_meets {flags mask : UInt64} {cursor : Nat} (fits : bytes.length + 4 < word)
    (inside : cursor ≤ bytes.length) :
    Meets (optionalVar bytes flags mask cursor) fun result =>
      result.2 ≤ bytes.length := by
  rw [optionalVar]
  split
  · exact (var_meets (by omega)).mono fun _ moved => moved.2
  · exact meets_ok inside

variable {records : List UInt64}

theorem mainRecords_meets : Meets (mainRecords records) fun _ => True := by
  induction records with
  | nil => trivial
  | cons _ records ih =>
    rw [mainRecords]
    split
    · exact ih
    · trivial

variable {isService : Bool}

theorem entryRecords_meets : Meets (entryRecords isService records) fun _ => True := by
  induction records with
  | nil => trivial
  | cons _ records ih =>
    rw [entryRecords]
    refine meets_guard fun _ => ?_
    split
    · exact ih
    · trivial

theorem rar5Kind_meets {nameBytes : Bytes} {size packed host attributes fileFlags : UInt64} :
    Meets (rar5Kind libraries isService nameBytes size packed host attributes fileFlags)
      fun kind => kind ≠ .main := by
  rw [rar5Kind]
  split
  · exact meets_ok (by simp)
  · exact originalName_meets.bind fun name _ => meets_ok (by simp)

section

variable {extraArea : Bytes} {flags packed : UInt64} {cursor : Nat} {main : Bool}

section

variable (fits : bytes.length + 4 < word)
include fits

theorem rar5Main_meets (extraFits : extraArea.length < word) :
    Meets (rar5Main bytes extraArea flags cursor main) fun result =>
      result.1 = .main ↔ main = false := by
  refine (var_meets (by omega)).bind ?_
  rintro ⟨_, _⟩ _
  refine meets_guard fun plain => ?_
  obtain ⟨noMain, _⟩ := not_or.mp plain
  refine (extraRecordTypes_meets extraFits).bind fun records _ => ?_
  refine mainRecords_meets.bind fun _ _ => ?_
  exact meets_ok (by simpa using noMain)

theorem rar5Entry_meets {isService : Bool} (extraFits : extraArea.length < word) :
    Meets (rar5Entry libraries bytes extraArea isService packed cursor main)
      fun result => result.1 = .main ↔ main = false := by
  refine meets_guard fun hasMain => ?_
  have short : bytes.length < word := by omega
  refine (var_meets short).bind ?_
  rintro ⟨_, cursor⟩ _
  refine meets_guard fun _ => ?_
  refine (var_meets short).bind ?_
  rintro ⟨_, cursor⟩ _
  refine (var_meets short).bind ?_
  rintro ⟨_, cursor⟩ ⟨_, inside⟩
  refine meets_guard fun _ => ?_
  refine (skipField_meets fits inside).bind fun cursor inside => ?_
  refine (skipField_meets fits inside).bind fun cursor _ => ?_
  refine (var_meets short).bind ?_
  rintro ⟨_, cursor⟩ _
  refine (var_meets short).bind ?_
  rintro ⟨_, cursor⟩ _
  refine meets_guard fun _ => ?_
  refine (var_meets short).bind ?_
  rintro ⟨_, cursor⟩ _
  refine (meets_required fun _ _ => trivial).bind fun last (_ : True) => ?_
  refine (meets_required fun _ _ => trivial).bind fun nameBytes (_ : True) => ?_
  refine (extraRecordTypes_meets extraFits).bind fun records _ => ?_
  refine entryRecords_meets.bind fun _ _ => ?_
  refine rar5Kind_meets.bind fun kind notMain => ?_
  exact meets_ok ⟨fun isMain => absurd isMain notMain, fun noMain => absurd noMain hasMain⟩

theorem rar5Ending_meets :
    Meets (rar5Ending bytes flags cursor main) fun result =>
      result.1 = .main ↔ main = false := by
  refine meets_guard fun plain => ?_
  obtain ⟨hasMain, _⟩ := not_or.mp plain
  refine (var_meets (by omega)).bind ?_
  rintro ⟨_, _⟩ _
  refine meets_guard fun _ => ?_
  exact meets_ok (by simpa using hasMain)

theorem rar5Kinds_meets {kind : UInt64} (extraFits : extraArea.length < word) :
    Meets (rar5Kinds libraries bytes extraArea kind flags packed cursor main)
      fun result => result.1 = .main ↔ main = false := by
  unfold rar5Kinds
  split
  · exact rar5Main_meets fits extraFits
  · split
    · exact rar5Entry_meets fits extraFits
    · split
      · trivial
      · split
        · exact rar5Ending_meets fits
        · trivial

end

theorem rar5Block_meets {before : Nat} (fits : before + bytes.length + 4 < word) :
    Meets (rar5Block libraries bytes before main) (Placeable main (before + bytes.length)) := by
  have short : bytes.length < word := by omega
  refine (var_meets short).bind ?_
  rintro ⟨kind, cursor⟩ _
  refine (var_meets short).bind ?_
  rintro ⟨_, cursor⟩ ⟨_, inside⟩
  refine meets_guard fun _ => ?_
  refine (optionalVar_meets (by omega) inside).bind ?_
  rintro ⟨extra, cursor⟩ inside
  refine (optionalVar_meets (by omega) inside).bind ?_
  rintro ⟨_, cursor⟩ _
  have bodyEndThere : Meets (required corrupt
      (if extra.toNat ≤ bytes.length ∧ cursor ≤ bytes.length - extra.toNat then
        some (bytes.length - extra.toNat)
      else
        none)) fun bodyEnd => bodyEnd ≤ bytes.length :=
    meets_required fun bodyEnd found => by
      split at found
      · cases found
        exact Nat.sub_le _ _
      · cases found
  refine bodyEndThere.bind fun bodyEnd within => ?_
  refine (meets_slice within le_rfl).bind fun extraArea width => ?_
  refine (rar5Kinds_meets (by omega) (by omega)).bind ?_
  rintro ⟨kind, cursor⟩ isMain
  refine meets_guard fun _ => ?_
  refine (meets_plus (by omega)).bind ?_
  rintro _ rfl
  exact meets_ok ⟨rfl, isMain⟩

end

/-- The blocks so far tile the file up to the offset, and the counters are about them. -/
structure Sound (limits : Limits) (start size : Nat) (walk : Walk) : Prop where
  tiles : Tiling.Tiles Block.extent start walk.blocks walk.offset
  within : walk.offset ≤ size
  headers : walk.headers = walk.blocks.filterMap fun placed => placed.2.header?
  entries : walk.headers.length ≤ limits.maxEntries
  total : walk.total = (walk.blocks.map fun placed => placed.2.length).sum
  counted : walk.total ≤ limits.maxIndexBytes
  begins : walk.main = false → walk.blocks = []
  main : walk.main = true → ∃ first rest, walk.blocks = first :: rest ∧ first.2.kind = .main ∧
    ∀ other ∈ rest, other.2.kind ≠ .main
  ending : walk.ended = true → walk.offset = size ∧
    ∃ earlier last, walk.blocks = earlier ++ [last] ∧ last.2.kind = .ending

section

variable {start size total : Nat} {walk : Walk} {block : Block}

theorem Sound.total_le (sound : Sound limits start size walk) : walk.total ≤ walk.offset := by
  have stop := sound.tiles.stop_eq
  have shorter : (walk.blocks.map fun placed => placed.2.length).sum ≤
      (walk.blocks.map fun placed => placed.2.extent).sum :=
    sum_le_sum fun _ _ => Nat.le_add_right _ _
  rw [sound.total]
  omega

theorem advance_meets (sound : Sound limits start size walk) (unended : walk.ended = false)
    (placeable : block.kind = .main ↔ walk.main = false) (some : 0 < block.length)
    (isTotal : total = walk.total + block.length) (within : total ≤ limits.maxIndexBytes) :
    Meets (walk.advance limits size total block) fun next =>
      Sound limits start size next ∧ walk.offset < next.offset := by
  have moved : Meets (required corrupt
      ((checkedPlus word walk.offset block.length).bind fun behind =>
        checkedPlus word behind block.packed))
      fun offset => offset = walk.offset + block.extent :=
    meets_required fun offset found => by
      obtain ⟨behind, isBehind, isOffset⟩ := bind_eq_some_iff.mp found
      obtain ⟨rfl, _⟩ := checkedPlus_eq_some.mp isBehind
      obtain ⟨rfl, _⟩ := checkedPlus_eq_some.mp isOffset
      exact Nat.add_assoc _ _ _
  refine moved.bind ?_
  rintro offset rfl
  refine meets_guard fun fewEnough => meets_guard fun inFile => ?_
  obtain ⟨inside, atEnd⟩ := not_or.mp inFile
  refine meets_ok ⟨?_, ?_⟩
  · refine
      { tiles := sound.tiles.snoc block
        within := Nat.le_of_not_lt inside
        headers := ?_
        entries := Nat.le_of_not_lt fewEnough
        total := ?_
        counted := within
        begins := ?_
        main := ?_
        ending := ?_ }
    · rw [filterMap_append, sound.headers]
      cases header : block.header? <;> simp [header]
    · rw [isTotal, sound.total, map_append, sum_append]
      simp
    · intro noMain
      obtain ⟨noMain, notMain⟩ := Bool.or_eq_false_iff.mp noMain
      exact absurd (placeable.mpr noMain) (of_decide_eq_false notMain)
    · intro _
      cases hasMain : walk.main with
      | false =>
        refine ⟨(walk.offset, block), [], ?_, placeable.mpr hasMain, by simp⟩
        rw [sound.begins hasMain]
        rfl
      | true =>
        obtain ⟨first, rest, isFirst, isMain, others⟩ := sound.main hasMain
        refine ⟨first, rest ++ [(walk.offset, block)], ?_, isMain, ?_⟩
        · rw [isFirst]
          rfl
        · intro other mem
          rcases mem_append.mp mem with inRest | isLast
          · exact others other inRest
          · obtain rfl := mem_singleton.mp isLast
            intro again
            have noMain := placeable.mp again
            rw [hasMain] at noMain
            cases noMain
    · intro ended
      refine ⟨not_not.mp fun elsewhere => atEnd ⟨ended, elsewhere⟩,
        walk.blocks, (walk.offset, block), rfl, ?_⟩
      rw [unended, Bool.false_or] at ended
      exact of_decide_eq_true ended
  · dsimp only
    rw [Block.extent]
    omega

variable {file : File} {version : Version}

theorem walkBlock_meets
    (sound : Sound limits start file.bytes.length walk) (unended : walk.ended = false) :
    Meets (walkBlock libraries limits file version walk) fun next =>
      Sound limits start file.bytes.length next ∧ walk.offset < next.offset := by
  have small := file.fits
  have atMost := sound.total_le
  have inFile := sound.within
  cases version with
  | four =>
    refine (rar4Header_meets (by unfold word; omega)).bind ?_
    rintro ⟨bytes, total⟩ ⟨enough, short, isTotal, within⟩
    refine (rar4Block_meets enough short).bind fun block ⟨width, isMain⟩ => ?_
    dsimp only at enough isTotal width
    exact advance_meets sound unended isMain (by omega) (by omega) within
  | five =>
    refine rar5Header_meets.bind ?_
    rintro ⟨bytes, _, total⟩ ⟨short, some, few, isTotal, within⟩
    dsimp only at short some few isTotal
    refine (rar5Block_meets (by unfold word; omega)).bind fun block ⟨width, isMain⟩ => ?_
    exact advance_meets sound unended isMain (by omega) (by omega) within

theorem walkBlocks_meets (signed : version.signature.length ≤ file.bytes.length) :
    Meets (walkBlocks libraries limits file version) fun walk =>
      Sound limits version.signature.length file.bytes.length walk := by
  have initially : Sound limits version.signature.length file.bytes.length
      ⟨version.signature.length, [], 0, false, false, []⟩ :=
    { tiles := rfl
      within := signed
      headers := rfl
      entries := Nat.zero_le _
      total := rfl
      counted := Nat.zero_le _
      begins := fun _ => rfl
      main := nofun
      ending := fun ended => by cases ended }
  refine (meets_whileFuel _ (fun walk => file.bytes.length - walk.offset) ?_ initially
    (Nat.sub_le _ _) ?_).mono fun walk ⟨sound, _⟩ => sound
  · intro walk sound goesOn
    obtain ⟨_, unended⟩ := of_decide_eq_true goesOn
    refine (walkBlock_meets sound unended).mono fun next ⟨stillSound, moved⟩ => ⟨stillSound, ?_⟩
    omega
  · intro walk _ goesOn
    exact Nat.sub_pos_of_lt (of_decide_eq_true goesOn).1

theorem attestWalk_meets : Meets (attestWalk libraries limits file) fun (version, walk) =>
  version.signature <+: file.bytes ∧ walk.ended = true ∧
    Sound limits version.signature.length file.bytes.length walk := by
  refine read_meets.bind ?_
  rintro ⟨signature, rest⟩ ⟨isSplit, _⟩
  have versionThere :
      Meets (versionOf signature) fun version => version.signature <+: signature := by
    unfold versionOf
    split
    next isFive => exact isFive ▸ prefix_rfl
    · split
      next isFour => exact meets_ok (isFour ▸ take_prefix 7 signature)
      · trivial
  refine versionThere.bind fun version isPrefix => ?_
  have signed : version.signature <+: file.bytes :=
    isPrefix.trans (isSplit ▸ prefix_append signature rest)
  refine (walkBlocks_meets signed.length_le).bind fun walk sound => ?_
  refine meets_guard fun unended => ?_
  exact meets_ok ⟨signed, by simpa using unended, sound⟩

end

end

/-- Attesting ends without a panic, and where it succeeds the blocks tile the file from its
signature to its last byte. -/
theorem attest_tiles_file (libraries : Libraries) (limits : Limits) (file : File) :
    (attest libraries limits file ≠ .error .panicked ∧
      attest libraries limits file ≠ .error .unfinished) ∧
    ∀ headers, attest libraries limits file = .ok headers → ∃ version walk,
      attestWalk libraries limits file = .ok (version, walk) ∧ version.signature <+: file.bytes ∧
      Tiling.Tiles Block.extent version.signature.length walk.blocks file.bytes.length ∧
      (∃ first rest, walk.blocks = first :: rest ∧ first.2.kind = .main ∧
        ∀ other ∈ rest, other.2.kind ≠ .main) ∧
      (∃ earlier last, walk.blocks = earlier ++ [last] ∧ last.2.kind = .ending) ∧
      headers = walk.blocks.filterMap (fun placed => placed.2.header?) ∧
      headers.length ≤ limits.maxEntries ∧
      (walk.blocks.map fun placed => placed.2.length).sum ≤ limits.maxIndexBytes ∧
      (walk.blocks.filter fun placed => placed.2.header?.isSome).Pairwise (fun first second =>
        first.1 + first.2.length + first.2.packed ≤ second.1) ∧
      ∀ placed ∈ walk.blocks, placed.1 + placed.2.length + placed.2.packed ≤ file.bytes.length := by
  have meets := @attestWalk_meets libraries limits file
  constructor
  · have answered : Meets (attest libraries limits file) fun _ => True :=
      meets.bind fun _ _ => meets_ok trivial
    exact answered.answers
  · intro headers attested
    obtain ⟨⟨version, walk⟩, walked, returned⟩ := Fallible.bind_eq_ok.mp attested
    obtain ⟨signed, ended, sound⟩ := meets.of_ok walked
    obtain ⟨atEnd, ending⟩ := sound.ending ended
    have hasMain : walk.main = true := by
      cases main : walk.main with
      | true => rfl
      | false =>
        obtain ⟨earlier, last, isLast, _⟩ := ending
        rw [sound.begins main] at isLast
        simp at isLast
    cases returned
    have tiles := sound.tiles
    rw [atEnd] at tiles
    refine ⟨version, walk, walked, signed, tiles, sound.main hasMain, ending,
      sound.headers, sound.entries, sound.total ▸ sound.counted, ?_, ?_⟩
    · refine List.Pairwise.filter _ (tiles.pairwise.imp fun ordered => ?_)
      rw [Block.extent] at ordered
      omega
    · intro placed mem
      have inside := (tiles.inside mem).2
      rw [Block.extent] at inside
      omega

/-- The checksums of the headers of the archive below. -/
def pairLibraries : Libraries where
  crc32 bytes :=
    if bytes.headD 0 = 0x73 then 0x974290cf
    else if bytes.headD 0 = 0x7b then 0x77fb3dc4
    else if bytes.getLast? = some 97 then 0x79385946
    else 0x2b1e4844
  validEntryPath _ := true

/-- An archive of the fourth version: signature, main header, the stored files `a` with the
bytes `hi` and `b` with the byte `x`, and end header. -/
def pairFile : File where
  bytes :=
    [0x52, 0x61, 0x72, 0x21, 0x1a, 0x07, 0x00, 0xcf, 0x90, 0x73, 0, 0, 13, 0, 0, 0, 0, 0, 0, 0,
      0x46, 0x59, 0x74, 0, 0x80, 33, 0, 2, 0, 0, 0, 2, 0, 0, 0, 2, 0, 0, 0, 0, 0, 0, 0, 0, 20,
      0x30, 1, 0, 0x20, 0, 0, 0, 97, 104, 105, 0x44, 0x48, 0x74, 0, 0x80, 33, 0, 1, 0, 0, 0,
      1, 0, 0, 0, 2, 0, 0, 0, 0, 0, 0, 0, 0, 20, 0x30, 1, 0, 0x20, 0, 0, 0, 98, 120,
      0xc4, 0x3d, 0x7b, 0x00, 0x40, 7, 0]
  fits := by decide

set_option maxRecDepth 4000 in
/-- An archive of two files is attested at its exact limits, and tiled by its four blocks. -/
theorem attest_tiles_two_files : ∃ version walk,
    attestWalk pairLibraries ⟨2, 86⟩ pairFile = .ok (version, walk) ∧
      Tiling.Tiles Block.extent version.signature.length walk.blocks 96 ∧
      walk.blocks.filterMap (fun placed => placed.2.header?) =
        [⟨"a".toList, 2, 2, 2, 0x20, false⟩, ⟨"b".toList, 1, 1, 2, 0x20, false⟩] := by
  obtain ⟨version, walk, walked, _, tiles, _, _, headers, _⟩ :=
    (attest_tiles_file pairLibraries ⟨2, 86⟩ pairFile).2 _ rfl
  exact ⟨version, walk, walked, tiles, headers.symm⟩

end Arclain.Import.Rar
