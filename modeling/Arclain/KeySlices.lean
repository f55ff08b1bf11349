import Arclain.CacheKeys

namespace Arclain.Cache

/-!
# Reading keys by byte offsets

A slice of a text that does not begin and end between two characters panics, and the parser
of scoped keys takes its offsets from the key itself.
-/

open List Text TextFormat Option

/-- `str::as_bytes`. -/
def asBytes (text : Str) : List UInt8 := text.flatMap String.utf8EncodeChar

/-- `str::is_char_boundary`. -/
def isCharBoundary (text : Str) (offset : Nat) : Bool := (splitBytes offset text).isSome

/-- `&text[..offset]`, which may panic. -/
def sliceTo (text : Str) (offset : Nat) : Option Str := (splitBytes offset text).map Prod.fst

/-- `&text[offset..]`, which may panic. -/
def sliceFrom (text : Str) (offset : Nat) : Option Str := (splitBytes offset text).map Prod.snd

/-- `str::find` of a character: the offset of the first one. -/
def findChar (char : Char) (text : Str) : Option Nat :=
  if char ∈ text then some (utf8Len (text.takeWhile (· ≠ char)))
  else none

/-- The part of `parse_scoped_key` behind the length of a plugin's id, or a
panic. -/
def slicePluginKey (ownerLen : Nat) (ownerAndKey : Str) : Option (Option (CacheOwner × Str)) :=
  if utf8Len ownerAndKey ≤ ownerLen ∨ (asBytes ownerAndKey)[ownerLen]? ≠ some 0x3A then some none
  else if isCharBoundary ownerAndKey ownerLen = false then some none
  else do
    let owner ← sliceTo ownerAndKey ownerLen
    let rawKey ← sliceFrom ownerAndKey (ownerLen + 1)
    some (if bounded : utf8Len owner < 2 ^ 64 then some (.plugin ⟨owner, bounded⟩, rawKey)
    else none)

/-- The part of `parse_scoped_key` for the key of a plugin, or a panic. -/
def sliceLengthAndKey (encoded : Str) : Option (Option (CacheOwner × Str)) :=
  match findChar ':' encoded with
  | none => some none
  | some lengthEnd => do
    let length ← sliceTo encoded lengthEnd
    match parseUsize length with
    | none => some none
    | some ownerLen => do
      let ownerAndKey ← sliceFrom encoded (lengthEnd + 1)
      slicePluginKey ownerLen ownerAndKey

/-- `parse_scoped_key`, or a panic. -/
def sliceScopedKey (key : Str) : Option (Option (CacheOwner × Str)) :=
  match Format.readLiteral scopedKeyPrefix key with
  | none => some none
  | some encoded =>
    match Format.readLiteral "h:0::".toList encoded with
    | some rawKey => some (some (.host, rawKey))
    | none =>
      match Format.readLiteral "p:".toList encoded with
      | none => some none
      | some encoded => sliceLengthAndKey encoded

@[simp] theorem utf8Len_append (first second : Str) :
    utf8Len (first ++ second) = utf8Len first + utf8Len second := by
  simp [utf8Len]

@[simp] theorem utf8Len_cons (char : Char) (text : Str) :
    utf8Len (char :: text) = char.utf8Size + utf8Len text := by
  simp [utf8Len]

theorem length_asBytes (text : Str) : (asBytes text).length = utf8Len text := by
  simp [asBytes, utf8Len]

theorem eq_append_of_splitBytes {text before after : Str} {offset : Nat}
    (split : splitBytes offset text = some (before, after)) :
    text = before ++ after ∧ utf8Len before = offset := by
  induction text generalizing offset before with
  | nil =>
    cases offset with
    | zero =>
      cases split
      exact ⟨rfl, rfl⟩
    | succ count => cases split
  | cons _ _ ih =>
    cases offset with
    | zero =>
      cases split
      exact ⟨rfl, rfl⟩
    | succ count =>
      rw [splitBytes] at split
      split at split
      next fits =>
        obtain ⟨⟨_, _⟩, tailSplit, same⟩ := map_eq_some_iff.mp split
        cases same
        obtain ⟨parts, length⟩ := ih tailSplit
        refine ⟨by rw [parts, cons_append], ?_⟩
        rw [utf8Len_cons, length]
        omega
      · cases split

theorem mod_of_ofNat_eq_colon {number : Nat} (same : UInt8.ofNat number = 0x3A) :
    number % 256 = 0x3A := by
  have byte := congrArg UInt8.toNat same
  rw [UInt8.toNat_ofNat'] at byte
  exact byte

theorem head_utf8EncodeChar (char : Char) :
    (String.utf8EncodeChar char)[0]? = some 0x3A ↔ char = ':' := by
  constructor
  · intro isColon
    have number : char.val.toNat = 0x3A := by
      unfold String.utf8EncodeChar at isColon
      dsimp only at isColon
      split at isColon
      · have byte := mod_of_ofNat_eq_colon (some.inj isColon)
        omega
      · split at isColon
        · have byte := mod_of_ofNat_eq_colon (some.inj isColon)
          omega
        · split at isColon
          · have byte := mod_of_ofNat_eq_colon (some.inj isColon)
            omega
          · have byte := mod_of_ofNat_eq_colon (some.inj isColon)
            omega
    exact Char.ext (UInt32.toNat_inj.mp number)
  · rintro rfl
    rfl

theorem head_asBytes (text : Str) :
    (asBytes text)[0]? = some 0x3A ↔ ∃ rest, text = ':' :: rest := by
  cases text with
  | nil => simp [asBytes]
  | cons char rest =>
    have nonempty : 0 < (String.utf8EncodeChar char).length := by
      rw [String.length_utf8EncodeChar]
      exact Char.utf8Size_pos char
    have first : (asBytes (char :: rest))[0]? = (String.utf8EncodeChar char)[0]? := by
      rw [asBytes, flatMap_cons, List.getElem?_append_left nonempty]
    rw [first, head_utf8EncodeChar]
    simp

theorem getElem?_asBytes_append (before after : Str) :
    (asBytes (before ++ after))[utf8Len before]? = (asBytes after)[0]? := by
  have length := length_asBytes before
  rw [asBytes, flatMap_append, List.getElem?_append_right (by
    rw [← length]
    exact Nat.le_refl _)]
  rw [← length]
  exact congrArg _ (Nat.sub_self _)

theorem findChar_append {char : Char} {before : Str} (absent : char ∉ before) (after : Str) :
    findChar char (before ++ char :: after) = some (utf8Len before) := by
  have differs : ∀ other ∈ before, decide (other ≠ char) = true := by
    intro other mem
    refine decide_eq_true ?_
    rintro rfl
    exact absent mem
  rw [findChar, if_pos (by simp), takeWhile_append_of_pos differs]
  simp

theorem slicePluginKey_eq (ownerLen : Nat) (ownerAndKey : Str) :
    slicePluginKey ownerLen ownerAndKey = some (do
      let (owner, separatorAndKey) ← splitBytes ownerLen ownerAndKey
      let rawKey ← Format.readLiteral [':'] separatorAndKey
      if bounded : utf8Len owner < 2 ^ 64 then some (.plugin ⟨owner, bounded⟩, rawKey)
      else
        none) := by
  unfold slicePluginKey
  cases split : splitBytes ownerLen ownerAndKey with
  | none => simp [isCharBoundary, split]
  | some parts =>
    obtain ⟨owner, after⟩ := parts
    obtain ⟨rfl, rfl⟩ := eq_append_of_splitBytes split
    by_cases isColon : ∃ rawKey, after = ':' :: rawKey
    · obtain ⟨rawKey, rfl⟩ := isColon
      have byte : (asBytes (owner ++ ':' :: rawKey))[utf8Len owner]? = some 0x3A := by
        rw [getElem?_asBytes_append, head_asBytes]
        exact ⟨rawKey, rfl⟩
      have behind : sliceFrom (owner ++ ':' :: rawKey) (utf8Len owner + 1) = some rawKey := by
        have again := splitBytes_append (owner ++ [':']) rawKey
        rw [append_assoc, utf8Len_append] at again
        exact congrArg (Option.map Prod.snd) again
      have oneByte : (':').utf8Size = 1 := rfl
      rw [if_neg (by simp [byte, oneByte]), if_neg (by simp [isCharBoundary, split])]
      simp [sliceTo, split, behind, Format.readLiteral]
    · have byte : (asBytes (owner ++ after))[utf8Len owner]? ≠ some 0x3A := by
        rw [getElem?_asBytes_append, Ne, head_asBytes]
        exact isColon
      have unread : Format.readLiteral [':'] after = none := by
        cases after with
        | nil => rfl
        | cons _ rest =>
          refine if_neg ?_
          rintro rfl
          exact isColon ⟨rest, rfl⟩
      rw [if_pos (.inr byte)]
      simp [unread]

theorem sliceLengthAndKey_eq (encoded : Str) : sliceLengthAndKey encoded = some (do
  let (length, ownerAndKey) ← splitOnce ':' encoded
  let ownerLen ← parseUsize length
  let (owner, separatorAndKey) ← splitBytes ownerLen ownerAndKey
  let rawKey ← Format.readLiteral [':'] separatorAndKey
  if bounded : utf8Len owner < 2 ^ 64 then some (.plugin ⟨owner, bounded⟩, rawKey)
  else
    none) := by
  by_cases mem : ':' ∈ encoded
  · obtain ⟨length, ownerAndKey, rfl, absent⟩ := eq_append_cons_of_mem mem
    have lengthSlice : sliceTo (length ++ ':' :: ownerAndKey) (utf8Len length) = some length :=
      congrArg (Option.map Prod.fst) (splitBytes_append length _)
    have rest : sliceFrom (length ++ ':' :: ownerAndKey) (utf8Len length + 1) =
        some ownerAndKey := by
      have again := splitBytes_append (length ++ [':']) ownerAndKey
      rw [append_assoc, utf8Len_append] at again
      exact congrArg (Option.map Prod.snd) again
    unfold sliceLengthAndKey
    rw [findChar_append absent, splitOnce_append absent]
    cases number : parseUsize length with
    | none => simp [lengthSlice, number]
    | some ownerLen => simp [lengthSlice, number, rest, slicePluginKey_eq]
  · unfold sliceLengthAndKey
    simp [findChar, splitOnce, mem]

theorem sliceScopedKey_eq (key : Str) : sliceScopedKey key = some (parseScopedKey key) := by
  unfold sliceScopedKey parseScopedKey
  cases Format.readLiteral scopedKeyPrefix key with
  | none => rfl
  | some encoded =>
    simp only [bind_eq_bind, bind_some]
    cases Format.readLiteral "h:0::".toList encoded with
    | some => rfl
    | none =>
      simp only [parsePluginKey]
      cases Format.readLiteral "p:".toList encoded with
      | none => rfl
      | some lengthAndRest => exact sliceLengthAndKey_eq lengthAndRest

/-- A scoped key is read back as its owner and key, so distinct pairs have distinct keys,
without a panic on any text. -/
theorem scoped_keys_read_back : (∀ (owner : CacheOwner) key,
    sliceScopedKey (owner.scopedKey key) = some (some (owner, key))) ∧
    (∀ (owner other : CacheOwner) key otherKey, owner.scopedKey key = other.scopedKey otherKey ↔
      owner = other ∧ key = otherKey) ∧
    (∀ (owner : CacheOwner) key, entryOwner (owner.scopedKey key) = owner) ∧
    ∀ text, sliceScopedKey text ≠ none := by
  refine ⟨?_, ?_, ?_, ?_⟩
  · intro owner key
    rw [sliceScopedKey_eq, parseScopedKey_scopedKey]
  · intro owner other key otherKey
    constructor
    · exact scopedKey_injective
    · rintro ⟨rfl, rfl⟩
      rfl
  · intro owner key
    rw [entryOwner, parseScopedKey_scopedKey]
    rfl
  · intro text panicked
    rw [sliceScopedKey_eq] at panicked
    cases panicked

end Arclain.Cache
