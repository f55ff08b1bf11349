import Arclain.Checked
import Arclain.ImportSession
import Mathlib.Data.FinEnum

namespace Arclain.Import.Rar

open List Checked

/-!
# Fields of RAR headers

Headers hold little-endian words, and those of the fifth version integers of seven bits a
byte.  A name of the fourth version is in the archiver's code page, or that and an encoding
of the Unicode name against it.

Words have 64 bits, and an operation may panic.
-/

abbrev Attempt (Value : Type) := Checked.Attempt ImportError Value

def word : Nat := 2 ^ 64

/-- `crc32fast::hash`, and whether `unboxer::validate_entry_path` accepts a path. -/
structure Libraries where
  crc32 : Bytes → UInt32
  validEntryPath : Str → Bool

def u16At (bytes : Bytes) (index : Nat) : Attempt UInt16 := do
  let last ← plus word index 2
  let found ← required .corrupt (get bytes index last)
  .ok (UInt16.ofNat (LittleEndian.toNat found))

def u32At (bytes : Bytes) (index : Nat) : Attempt UInt32 := do
  let last ← plus word index 4
  let found ← required .corrupt (get bytes index last)
  .ok (UInt32.ofNat (LittleEndian.toNat found))

/-- A shift of a word to the left, which has to be shorter than the word. -/
def shiftLeft (value : UInt64) (shift : Nat) : Attempt UInt64 :=
  if shift < 64 then .ok (value <<< UInt64.ofNat shift)
  else .error .panicked

/-- The loop of `var` over its shifts. -/
def varFrom (bytes : Bytes) : List Nat → UInt64 → Nat → Attempt (UInt64 × Nat)
  | [], _, _ => refuse .corrupt
  | shift :: shifts, value, cursor => do
    let byte ← required .corrupt bytes[cursor]?
    let cursor ← plus word cursor 1
    if shift = 63 ∧ 1 < byte then refuse .corrupt
    else
      let bits ← shiftLeft (byte &&& 127).toUInt64 shift
      let value := value ||| bits
      if byte &&& 128 = 0 then .ok (value, cursor)
      else varFrom bytes shifts value cursor

/-- `var`: the value and the cursor behind it. -/
def var (bytes : Bytes) (cursor : Nat) : Attempt (UInt64 × Nat) :=
  varFrom bytes [0, 7, 14, 21, 28, 35, 42, 49, 56, 63] 0 cursor

/-- `str::from_utf8`. -/
def fromUtf8 (bytes : Bytes) : Option Str := (String.fromUTF8? ⟨bytes.toArray⟩).map String.toList

/-- `String::from_utf16`. -/
def fromUtf16 : List UInt16 → Option Str
  | [] => some []
  | [unit] =>
    if 0xD800 ≤ unit ∧ unit ≤ 0xDFFF then none
    else some [Char.ofNat unit.toNat]
  | unit :: next :: units =>
    if 0xD800 ≤ unit ∧ unit ≤ 0xDFFF then
      if unit ≤ 0xDBFF ∧ 0xDC00 ≤ next ∧ next ≤ 0xDFFF then
        (fromUtf16 units).map fun text =>
          Char.ofNat (0x10000 + (unit.toNat - 0xD800) * 0x400 + (next.toNat - 0xDC00)) :: text
      else none
    else (fromUtf16 (next :: units)).map fun text => Char.ofNat unit.toNat :: text

/-- The separators of the fourth version made those of the importer. -/
def slashed (text : Str) : Str := text.map fun char => if char = '\\' then '/' else char

/-- A name, unless `unboxer` refuses it as a path. -/
def validated (libraries : Libraries) (name : Str) : Attempt Str :=
  if libraries.validEntryPath name then .ok name
  else refuse .unsupported

def originalName (libraries : Libraries) (bytes : Bytes) (ascii : Bool) : Attempt Str :=
  if 4096 < bytes.length ∨ 0 ∈ bytes ∨ (ascii ∧ ¬ ∀ byte ∈ bytes, byte < 128) then
    refuse .unsupported
  else do
    let text ← required .unsupported (fromUtf8 bytes)
    validated libraries (if ascii then slashed text else text)

/-- Where `unicode_name` is: the units so far, the position, the flags that are left and the
number of their bits. -/
structure Decoding where
  units : List UInt16
  position : Nat
  flags : UInt8
  flagBits : Nat

/-- The units of a run: bytes of the name in the code page from the number of units
on, each with a correction or as it is. -/
def run (single : Bytes) (high : UInt16) (correction : Option UInt8) :
    Nat → List UInt16 → Attempt (List UInt16)
  | 0, units => .ok units
  | count + 1, units => do
    let byte ← required .unsupported single[units.length]?
    match correction with
    | some correction =>
      run single high (some correction) count (units ++ [(byte + correction).toUInt16 ||| high])
    | none =>
      if byte < 128 then run single high none count (units ++ [byte.toUInt16])
      else refuse .unsupported

def correctionOf (encoded : Bytes) (length : UInt8)
    (position : Nat) : Attempt (Option UInt8 × Nat) :=
  if length &&& 0x80 ≠ 0 then do
    let position ← plus word position 1
    let before ← minus position 1
    let byte ← required .unsupported encoded[before]?
    .ok (some byte, position)
  else .ok (none, position)

/-- One pair of flag bits: the units with those of the pair, and the position behind
it. -/
def decodePair (single encoded : Bytes) (high : UInt16)
    (decoding : Decoding) : Attempt (List UInt16 × Nat) :=
  let byteAt (position : Nat) : Attempt UInt8 := required .unsupported encoded[position]?
  let units := decoding.units
  let position := decoding.position
  if decoding.flags >>> 6 = 0 then do
    let byte ← byteAt position
    let next ← plus word position 1
    .ok (units ++ [byte.toUInt16], next)
  else if decoding.flags >>> 6 = 1 then do
    let byte ← byteAt position
    let next ← plus word position 1
    .ok (units ++ [byte.toUInt16 ||| high], next)
  else if decoding.flags >>> 6 = 2 then do
    let low ← byteAt position
    let behind ← plus word position 1
    let upper ← byteAt behind
    let next ← plus word position 2
    .ok (units ++ [low.toUInt16 ||| upper.toUInt16 <<< 8], next)
  else do
    let length ← byteAt position
    let position ← plus word position 1
    let (correction, position) ← correctionOf encoded length position
    let count ← plus word (length &&& 0x7f).toNat 2
    let units ← run single high correction count units
    .ok (units, position)

/-- The next eight flag bits, if the last ones are used up. -/
def refill (encoded : Bytes) (decoding : Decoding) : Attempt Decoding :=
  if decoding.flagBits = 0 then do
    let flags ← required .unsupported encoded[decoding.position]?
    let position ← plus word decoding.position 1
    .ok { decoding with position := position, flags := flags, flagBits := 8 }
  else .ok decoding

/-- One iteration of `unicode_name`. -/
def decodeStep (single encoded : Bytes) (high : UInt16) (decoding : Decoding) : Attempt Decoding :=
  if 4096 < decoding.units.length then refuse .unsupported
  else do
    let decoding ← refill encoded decoding
    let (units, position) ← decodePair single encoded high decoding
    let flagBits ← minus decoding.flagBits 2
    .ok
      { units := units
        position := position
        flags := decoding.flags <<< 2
        flagBits := flagBits }

def unicodeName (libraries : Libraries) (field : Bytes) : Attempt Str :=
  if 4096 < field.length then refuse .unsupported
  else do
    let nul ← required .unsupported (field.findIdx? (· = 0))
    let single ← slice field 0 nul
    let behind ← plus word nul 1
    let encoded ← slice field behind field.length
    let first ← required .unsupported encoded[0]?
    let high := first.toUInt16 <<< 8
    let decoding ← whileFuel (fun decoding => decoding.position < encoded.length)
        (decodeStep single encoded high) encoded.length ⟨[], 1, 0, 0⟩
    let text ← required .unsupported (fromUtf16 decoding.units)
    validated libraries (slashed text)

/-- The four bytes of every time but the first, which the header itself has. -/
def wholeTime (time length : Nat) : Attempt Nat :=
  if time ≠ 0 then plus word length 4
  else .ok length

/-- The loop of `extended_time_length` over the times. -/
def extendedTimes (flags : UInt16) : List Nat → Nat → Attempt Nat
  | [], length => .ok length
  | time :: times, length => do
    let left ← minus 3 time
    let mode := flags >>> UInt16.ofNat (left * 4)
    if mode &&& 8 = 0 then extendedTimes flags times length
    else
      let length ← wholeTime time length
      let length ← plus word length (mode &&& 3).toNat
      extendedTimes flags times length

def extendedTimeLength (bytes : Bytes) : Attempt Nat := do
  let flags ← u16At bytes 0
  extendedTimes flags [0, 1, 2, 3] 2

/-- One iteration of `extra_record_types`: the types so far and the cursor. -/
def extraRecord (area : Bytes) (state : List UInt64 × Nat) : Attempt (List UInt64 × Nat) := do
  let (types, cursor) := state
  let (size, cursor) ← var area cursor
  let last ← required .corrupt (checkedPlus word cursor size.toNat)
  let record ← required .corrupt (get area cursor last)
  let (kind, _) ← var record 0
  .ok (types ++ [kind], last)

def extraRecordTypes (area : Bytes) : Attempt (List UInt64) := do
  let (types, _) ← whileFuel (fun state => state.2 < area.length) (extraRecord area) area.length
      ([], 0)
  .ok types

section

variable {libraries : Libraries} {bytes : Bytes} {index cursor : Nat}

theorem u16At_meets (fits : index + 2 < word) :
    Meets (u16At bytes index) fun _ => index + 2 ≤ bytes.length := by
  refine (meets_plus fits).bind ?_
  rintro _ rfl
  refine (meets_required fun found isFound => ?_).bind fun _ => meets_ok
  exact (length_of_get isFound).2.1

theorem u32At_meets (fits : index + 4 < word) :
    Meets (u32At bytes index) fun _ => index + 4 ≤ bytes.length := by
  refine (meets_plus fits).bind ?_
  rintro _ rfl
  refine (meets_required fun found isFound => ?_).bind fun _ => meets_ok
  exact (length_of_get isFound).2.1

theorem varFrom_meets {shifts : List Nat} {value : UInt64} (short : ∀ shift ∈ shifts, shift < 64)
    (fits : bytes.length < word) :
    Meets (varFrom bytes shifts value cursor) fun result =>
      cursor < result.2 ∧ result.2 ≤ bytes.length := by
  induction shifts generalizing value cursor with
  | nil => exact meets_refuse _
  | cons shift shifts ih =>
    have shiftFits := short shift mem_cons_self
    have restShort : ∀ shift ∈ shifts, shift < 64 := fun shift mem =>
      short shift (mem_cons_of_mem _ mem)
    rw [varFrom]
    refine meets_required_getElem?.bind fun byte inside => ?_
    refine (meets_plus (by omega)).bind ?_
    rintro _ rfl
    refine meets_guard fun _ => ?_
    rw [shiftLeft, if_pos shiftFits]
    dsimp only [Bind.bind, Except.bind]
    split
    · exact meets_ok ⟨Nat.lt_succ_self _, inside⟩
    · exact (ih restShort).mono fun result ⟨later, within⟩ => ⟨by omega, within⟩

theorem var_meets (fits : bytes.length < word) : Meets (var bytes cursor) fun result =>
  cursor < result.2 ∧ result.2 ≤ bytes.length :=
  varFrom_meets (by decide) fits

theorem validated_meets (name : Str) : Meets (validated libraries name) fun _ => True := by
  rw [validated]
  split
  · trivial
  · trivial

theorem originalName_meets {ascii : Bool} :
    Meets (originalName libraries bytes ascii) fun _ => True := by
  refine meets_guard fun _ => ?_
  exact (meets_required fun _ _ => trivial).bind fun _ (_ : True) => validated_meets _

theorem run_meets {single : Bytes} {high : UInt16} {correction : Option UInt8} {count : Nat}
    {units : List UInt16} :
    Meets (run single high correction count units) fun _ => True := by
  induction count generalizing units with
  | zero => trivial
  | succ count ih =>
    rw [run]
    refine (meets_required fun _ _ => trivial).bind fun byte (_ : True) => ?_
    cases correction with
    | some correction => exact ih
    | none =>
      dsimp only
      split
      · exact ih
      · trivial

theorem correctionOf_meets {encoded : Bytes} {length : UInt8} {position : Nat}
    (fits : encoded.length + 2 < word) (inside : position < encoded.length) :
    Meets (correctionOf encoded length (position + 1)) fun result =>
      position + 1 ≤ result.2 ∧ result.2 ≤ encoded.length := by
  rw [correctionOf]
  split
  · refine (meets_plus (by omega)).bind ?_
    rintro _ rfl
    refine (meets_minus (by omega)).bind ?_
    rintro _ rfl
    refine meets_required_getElem?.bind fun byte within => ?_
    refine meets_ok ⟨by dsimp only; omega, ?_⟩
    dsimp only
    omega
  · exact meets_ok ⟨le_rfl, inside⟩

variable {decoding : Decoding}

theorem decodePair_meets {single encoded : Bytes} {high : UInt16}
    (fits : encoded.length + 2 < word) :
    Meets (decodePair single encoded high decoding) fun result =>
      decoding.position < result.2 ∧ result.2 ≤ encoded.length := by
  unfold decodePair
  dsimp only
  split
  · refine meets_required_getElem?.bind fun byte inside => ?_
    refine (meets_plus (by omega)).bind ?_
    rintro next rfl
    exact ⟨Nat.lt_succ_self _, inside⟩
  · split
    · refine meets_required_getElem?.bind fun byte inside => ?_
      refine (meets_plus (by omega)).bind ?_
      rintro next rfl
      exact ⟨Nat.lt_succ_self _, inside⟩
    · split
      · refine meets_required_getElem?.bind fun low inside => ?_
        refine (meets_plus (by omega)).bind ?_
        rintro behind rfl
        refine meets_required_getElem?.bind fun upper alsoInside => ?_
        refine (meets_plus (by omega)).bind ?_
        rintro next rfl
        exact ⟨by dsimp only; omega, alsoInside⟩
      · refine meets_required_getElem?.bind fun length inside => ?_
        refine (meets_plus (by omega)).bind ?_
        rintro behind rfl
        refine (correctionOf_meets fits inside).bind ?_
        rintro ⟨_, next⟩ ⟨_, within⟩
        have small : (length &&& 0x7f).toNat < 256 := UInt8.toNat_lt _
        refine (meets_plus (by unfold word; omega)).bind ?_
        rintro _ rfl
        exact run_meets.bind fun units (_ : True) => meets_ok ⟨by omega, within⟩

theorem refill_meets {encoded : Bytes} (fits : encoded.length + 2 < word)
    (paired : decoding.flagBits % 2 = 0) :
    Meets (refill encoded decoding) fun next =>
      next.flagBits % 2 = 0 ∧ 2 ≤ next.flagBits ∧ decoding.position ≤ next.position := by
  rw [refill]
  split
  · refine meets_required_getElem?.bind fun flags inside => ?_
    refine (meets_plus (by omega)).bind ?_
    rintro next rfl
    refine meets_ok ⟨?_, ?_, Nat.le_succ _⟩ <;> simp
  · exact meets_ok ⟨paired, by omega, le_rfl⟩

theorem decodeStep_meets {single encoded : Bytes} {high : UInt16} {decoding : Decoding}
    (fits : encoded.length + 2 < word) (paired : decoding.flagBits % 2 = 0) :
    Meets (decodeStep single encoded high decoding) fun next =>
      next.flagBits % 2 = 0 ∧ decoding.position < next.position ∧
        next.position ≤ encoded.length := by
  refine meets_guard fun _ => ?_
  refine (refill_meets fits paired).bind fun refilled ⟨stillPaired, enough, later⟩ => ?_
  refine (decodePair_meets fits).bind ?_
  rintro ⟨_, _⟩ ⟨moved, within⟩
  refine (meets_minus enough).bind ?_
  rintro _ rfl
  exact meets_ok ⟨by dsimp only; omega, by dsimp only at moved ⊢; omega, within⟩

theorem unicodeName_meets {field : Bytes} : Meets (unicodeName libraries field) fun _ => True := by
  refine meets_guard fun short => ?_
  have small : field.length + 2 < word := by
    unfold word
    omega
  have nulInside : Meets (required ImportError.unsupported (field.findIdx? (· = 0)))
      fun nul => nul < field.length :=
    meets_required fun nul found => (List.findIdx?_eq_some_iff_getElem.mp found).1
  refine nulInside.bind fun nul inside => ?_
  refine (meets_slice (Nat.zero_le _) inside.le).bind fun single _ => ?_
  refine (meets_plus (by omega)).bind ?_
  rintro _ rfl
  refine (meets_slice inside le_rfl).bind fun encoded width => ?_
  refine meets_required_getElem?.bind fun first hasFirst => ?_
  have decoded := meets_whileFuel (fun decoding : Decoding =>
    decoding.flagBits % 2 = 0 ∧ decoding.position ≤ encoded.length)
    (fun decoding => encoded.length - decoding.position)
    (fun decoding ⟨paired, _⟩ goesOn =>
      (@decodeStep_meets single encoded (first.toUInt16 <<< 8) decoding (by omega)
        paired).mono fun next ⟨stillPaired, moved, within⟩ =>
          ⟨⟨stillPaired, within⟩, by
            have position := of_decide_eq_true goesOn
            omega⟩)
    (show (⟨[], 1, 0, 0⟩ : Decoding).flagBits % 2 = 0 ∧ 1 ≤ encoded.length from
      ⟨rfl, hasFirst⟩)
    (Nat.sub_le _ _)
    (fun decoding _ goesOn => Nat.sub_pos_of_lt (of_decide_eq_true goesOn))
  refine decoded.bind fun decoding _ => ?_
  exact (meets_required fun _ _ => trivial).bind fun _ (_ : True) => validated_meets _

theorem extendedTimes_meets {flags : UInt16} {times : List Nat} {length : Nat}
    (short : ∀ time ∈ times, time ≤ 3) (fits : length + 7 * times.length < word) :
    Meets (extendedTimes flags times length) fun total =>
      total ≤ length + 7 * times.length := by
  induction times generalizing length with
  | nil => exact meets_ok le_rfl
  | cons time times ih =>
    have restShort : ∀ time ∈ times, time ≤ 3 := fun time mem =>
      short time (mem_cons_of_mem _ mem)
    rw [length_cons] at fits ⊢
    rw [extendedTimes]
    refine (meets_minus (short time mem_cons_self)).bind ?_
    rintro _ rfl
    dsimp only
    split
    · exact (ih restShort (by omega)).mono fun total bound => by omega
    · have carried : Meets (wholeTime time length) fun longer => longer ≤ length + 4 := by
        rw [wholeTime]
        split
        · exact (meets_plus (by omega)).mono fun _ same => same.le
        · exact meets_ok (Nat.le_add_right _ _)
      refine carried.bind fun longer bound => ?_
      generalize flags >>> UInt16.ofNat ((3 - time) * 4) = mode
      have precision : (mode &&& 3).toNat ≤ 3 := by
        rw [UInt16.toNat_and]
        exact Nat.and_le_right
      refine (meets_plus (by omega)).bind ?_
      rintro _ rfl
      exact (ih restShort (by omega)).mono fun total bound => by omega

theorem extendedTimeLength_meets : Meets (extendedTimeLength bytes) fun length => length ≤ 30 := by
  refine (u16At_meets (by decide)).bind fun flags _ => ?_
  exact extendedTimes_meets (by decide) (by decide)

theorem extraRecord_meets {area : Bytes} {state : List UInt64 × Nat} (fits : area.length < word) :
    Meets (extraRecord area state) fun next =>
      state.2 < next.2 ∧ next.2 ≤ area.length := by
  refine (var_meets fits).bind ?_
  rintro ⟨size, cursor⟩ ⟨moved, _⟩
  have lastThere : Meets (required ImportError.corrupt (checkedPlus word cursor size.toNat))
      fun last => cursor ≤ last :=
    meets_required fun last found => by
      obtain ⟨rfl, _⟩ := checkedPlus_eq_some.mp found
      exact Nat.le_add_right _ _
  refine lastThere.bind fun last later => ?_
  have recordThere : Meets (required ImportError.corrupt (get area cursor last)) fun record =>
    last ≤ area.length ∧ record.length ≤ area.length :=
    meets_required fun record found => by
      obtain ⟨_, within, width⟩ := length_of_get found
      exact ⟨within, by omega⟩
  refine recordThere.bind fun record ⟨within, width⟩ => ?_
  refine (var_meets (by omega)).bind fun _ _ => ?_
  exact meets_ok ⟨by dsimp only at moved ⊢; omega, within⟩

theorem extraRecordTypes_meets {area : Bytes} (fits : area.length < word) :
    Meets (extraRecordTypes area) fun _ => True := by
  have walked := meets_whileFuel (fun state : List UInt64 × Nat => state.2 ≤ area.length)
    (fun state => area.length - state.2)
    (fun state _ goesOn =>
      (@extraRecord_meets area state fits).mono fun next ⟨moved, within⟩ =>
        ⟨within, by
          have position := of_decide_eq_true goesOn
          omega⟩)
    (show (([], 0) : List UInt64 × Nat).2 ≤ area.length from Nat.zero_le _)
    (Nat.sub_le _ _)
    (fun state _ goesOn => Nat.sub_pos_of_lt (of_decide_eq_true goesOn))
  exact walked.bind fun _ _ => meets_ok trivial

end

end Arclain.Import.Rar
