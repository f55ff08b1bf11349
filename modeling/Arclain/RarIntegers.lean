import Arclain.RarNames

namespace Arclain.Import.Rar

open List Checked Nat

/-!
# Integers of seven bits a byte

Such an integer is a field of bytes, of which all but the last have their top bit
set; the other bits are its digits, the lowest first.  `var` reads the fields of at
most ten bytes whose integer is a word, and refuses everything else.
-/

/-- The bytes of a field: only the last one is below 128. -/
def IsField : Bytes → Prop
  | [] => False
  | byte :: rest => if byte < 128 then rest = [] else IsField rest

/-- The integer of a field. -/
def fieldValue : Bytes → Nat
  | [] => 0
  | byte :: rest => byte.toNat % 128 + 128 * fieldValue rest

variable {byte : UInt8}

theorem isField_prefix_cons {field rest : Bytes} :
    IsField field ∧ field <+: byte :: rest ↔ ∃ behind, field = byte :: behind ∧
      if byte < 128 then behind = [] else IsField behind ∧ behind <+: rest := by
  cases field with
  | nil => simp [IsField]
  | cons _ behind =>
    rw [IsField, cons_prefix_cons]
    constructor
    · rintro ⟨isField, rfl, isPrefix⟩
      refine ⟨behind, rfl, ?_⟩
      split at isField
      · rwa [if_pos (by assumption)]
      · rw [if_neg (by assumption)]
        exact ⟨isField, isPrefix⟩
    · rintro ⟨_, ⟨⟩, continued⟩
      split at continued
      · subst continued
        simp [*]
      · simp [*]

/-- The canonical field of an integer. -/
def encodeVar (value : Nat) : Bytes :=
  if value < 128 then [UInt8.ofNat value]
  else UInt8.ofNat (value % 128 + 128) :: encodeVar (value / 128)

theorem encodeVar_spec (value : Nat) :
    IsField (encodeVar value) ∧ fieldValue (encodeVar value) = value ∧
      ∀ digits, value < 128 ^ (digits + 1) → (encodeVar value).length ≤ digits + 1 := by
  induction value using encodeVar.induct with
  | case1 value small =>
    have byte : (UInt8.ofNat value).toNat = value := by
      rw [UInt8.toNat_ofNat']
      omega
    have last : UInt8.ofNat value < 128 := by
      rw [UInt8.lt_iff_toNat_lt, byte]
      exact small
    rw [encodeVar, if_pos small]
    refine ⟨?_, ?_, fun _ _ => Nat.le_add_left _ _⟩
    · rw [IsField, if_pos last]
    · rw [fieldValue, fieldValue, byte]
      omega
  | case2 value large ih =>
    obtain ⟨_, readBack, short⟩ := ih
    have byte : (UInt8.ofNat (value % 128 + 128)).toNat = value % 128 + 128 := by
      rw [UInt8.toNat_ofNat']
      omega
    have continued : ¬ UInt8.ofNat (value % 128 + 128) < 128 := by
      rw [UInt8.lt_iff_toNat_lt, byte]
      exact (Nat.le_add_left 128 _).not_gt
    rw [encodeVar, if_neg large]
    refine ⟨?_, ?_, fun digits bounded => ?_⟩
    · rwa [IsField, if_neg continued]
    · rw [fieldValue, readBack, byte]
      omega
    · cases digits with
      | zero => exact absurd bounded (by omega)
      | succ digits =>
        rw [length_cons]
        refine succ_le_succ (short digits ?_)
        rw [pow_succ] at bounded
        exact Nat.div_lt_of_lt_mul (by omega)

variable {bytes : Bytes} {cursor : Nat} {value : UInt64}

theorem toNat_or_shiftLeft {place : Nat} (below : value.toNat < 2 ^ (7 * place))
    (fits : byte.toNat % 128 * 2 ^ (7 * place) < 2 ^ 64) (inWord : 7 * place < 64) :
    (value ||| (byte &&& 127).toUInt64 <<< UInt64.ofNat (7 * place)).toNat =
      value.toNat + 2 ^ (7 * place) * (byte.toNat % 128) := by
  have digits : (byte &&& 127).toNat = byte.toNat % 128 :=
    (UInt8.toNat_and _ _).trans (and_two_pow_sub_one_eq_mod byte.toNat 7)
  rw [UInt64.toNat_or, UInt64.toNat_shiftLeft, UInt8.toNat_toUInt64, digits,
    UInt64.toNat_ofNat', mod_mod_of_dvd _ (by decide), Nat.mod_eq_of_lt inWord,
    shiftLeft_eq, Nat.mod_eq_of_lt fits, Nat.or_comm, Nat.mul_comm,
    ← two_pow_add_eq_or_of_lt below, Nat.add_comm]

theorem and_eq_zero_iff (byte : UInt8) : byte &&& 128 = 0 ↔ byte < 128 := by
  have all : ∀ number < 256, number &&& 128 = 0 ↔ number < 128 := by decide +kernel
  rw [← UInt8.toNat_inj, UInt8.toNat_and, UInt8.lt_iff_toNat_lt]
  exact all byte.toNat byte.toNat_lt

variable {place left : Nat}

theorem varFrom_cons (fits : bytes.length < word)
    (found : bytes[cursor]? = some byte) (places : place + (left + 1) = 10)
    (below : value.toNat < 2 ^ (7 * place)) :
    varFrom bytes (range' (7 * place) (left + 1) 7) value cursor =
      refuse .corrupt ∧ left = 0 ∧ 1 < byte.toNat ∨
      ∃ longer : UInt64, longer.toNat = value.toNat + 2 ^ (7 * place) * (byte.toNat % 128) ∧
        (left = 0 → byte.toNat ≤ 1) ∧
        varFrom bytes (range' (7 * place) (left + 1) 7) value cursor =
          if byte < 128 then .ok (longer, cursor + 1)
          else
            varFrom bytes (range' (7 * (place + 1)) left 7) longer (cursor + 1) := by
  have inside := (List.getElem?_eq_some_iff.mp found).1
  have next : (plus word cursor 1 : Attempt Nat) = .ok (cursor + 1) := if_pos (by omega)
  have large : 1 < byte ↔ 1 < byte.toNat := UInt8.lt_iff_toNat_lt
  rw [range'_succ, varFrom, found]
  simp only [required, next, Bind.bind, Except.bind]
  by_cases excessive : 7 * place = 63 ∧ 1 < byte
  · rw [if_pos excessive]
    exact .inl ⟨rfl, by omega, large.mp excessive.2⟩
  · have tenth : left = 0 → byte.toNat ≤ 1 := fun last =>
      Nat.not_lt.mp fun more => excessive ⟨by omega, large.mpr more⟩
    have fitsWord : byte.toNat % 128 * 2 ^ (7 * place) < 2 ^ 64 := by
      cases left with
      | zero =>
        obtain rfl : place = 9 := by omega
        have digit := tenth rfl
        omega
      | succ left =>
        have digits : byte.toNat % 128 < 128 := Nat.mod_lt _ (by decide)
        have power : 2 ^ (7 * place) ≤ 2 ^ 56 := Nat.pow_le_pow_right (by decide) (by omega)
        exact (Nat.mul_le_mul digits.le power).trans_lt (by decide)
    rw [if_neg excessive, shiftLeft, if_pos (by omega)]
    refine .inr ⟨_, toNat_or_shiftLeft below fitsWord (by omega), tenth, ?_⟩
    simp only [and_eq_zero_iff]
    rfl

theorem varFrom_exact (fits : bytes.length < word)
    (places : place + left = 10) (below : value.toNat < 2 ^ (7 * place)) :
    (∀ field, IsField field → field <+: bytes.drop cursor → field.length ≤ left →
      value.toNat + 2 ^ (7 * place) * fieldValue field < 2 ^ 64 →
      ∃ read : UInt64, read.toNat = value.toNat + 2 ^ (7 * place) * fieldValue field ∧
        varFrom bytes (range' (7 * place) left 7) value cursor =
          .ok (read, cursor + field.length)) ∧
      ((∀ field, IsField field → field <+: bytes.drop cursor → field.length ≤ left →
        2 ^ 64 ≤ value.toNat + 2 ^ (7 * place) * fieldValue field) →
        varFrom bytes (range' (7 * place) left 7) value cursor = refuse .corrupt) := by
  induction left generalizing value place cursor with
  | zero =>
    refine ⟨fun field isField _ short => ?_, fun _ => rfl⟩
    rw [eq_nil_of_length_eq_zero (le_zero.mp short)] at isField
    exact isField.elim
  | succ left ih =>
    cases found : bytes[cursor]? with
    | none =>
      have atEnd : bytes.drop cursor = [] :=
        drop_eq_nil_of_le (List.getElem?_eq_none_iff.mp found)
      rw [atEnd, range'_succ, varFrom, found]
      refine ⟨fun field isField isPrefix => ?_, fun _ => rfl⟩
      rw [prefix_nil.mp isPrefix] at isField
      exact isField.elim
    | some byte =>
      obtain ⟨inside, isByte⟩ := List.getElem?_eq_some_iff.mp found
      have rest : bytes.drop cursor = byte :: bytes.drop (cursor + 1) := by
        rw [← isByte]
        exact drop_eq_getElem_cons inside
      rw [rest]
      obtain ⟨refused, last, _⟩ | ⟨longer, sum, _, goesOn⟩ :=
        varFrom_cons fits found places below
      · subst last
        obtain rfl : place = 9 := by omega
        refine ⟨fun field isField isPrefix short fitsWord => ?_, fun _ => refused⟩
        obtain ⟨behind, rfl, continued⟩ := isField_prefix_cons.mp ⟨isField, isPrefix⟩
        split at continued
        next small =>
          have digit := UInt8.lt_iff_toNat_lt.mp small
          have digits : byte.toNat % 128 = byte.toNat := Nat.mod_eq_of_lt digit
          rw [fieldValue, digits] at fitsWord
          omega
        · rw [eq_nil_of_length_eq_zero (le_zero.mp (le_of_succ_le_succ short))] at continued
          exact continued.1.elim
      · by_cases ends : byte < 128
        · rw [if_pos ends] at goesOn
          have single : IsField [byte] ∧ [byte] <+: byte :: bytes.drop (cursor + 1) :=
            isField_prefix_cons.mpr ⟨[], rfl, by rw [if_pos ends]⟩
          have value : fieldValue [byte] = byte.toNat % 128 := rfl
          refine ⟨fun field isField isPrefix _ _ => ⟨longer, ?_⟩, fun tooLarge => ?_⟩
          · obtain ⟨behind, rfl, isEnd⟩ := isField_prefix_cons.mp ⟨isField, isPrefix⟩
            rw [if_pos ends] at isEnd
            subst isEnd
            exact ⟨sum, goesOn⟩
          · have exceeds := tooLarge [byte] single.1 single.2 (Nat.le_add_left 1 left)
            rw [value, ← sum] at exceeds
            exact absurd longer.toNat_lt exceeds.not_gt
        · rw [if_neg ends] at goesOn
          have goesUp : 2 ^ (7 * (place + 1)) = 2 ^ (7 * place) * 128 := by
            rw [Nat.mul_add, pow_add]
            rfl
          have stillBelow : longer.toNat < 2 ^ (7 * (place + 1)) := by
            have digits : byte.toNat % 128 ≤ 127 := le_of_lt_succ (Nat.mod_lt _ (by decide))
            have most := Nat.mul_le_mul_left (2 ^ (7 * place)) digits
            omega
          have total (behind : Bytes) :
              value.toNat + 2 ^ (7 * place) * fieldValue (byte :: behind) =
                longer.toNat + 2 ^ (7 * (place + 1)) * fieldValue behind := by
            rw [sum, goesUp, fieldValue]
            ring
          obtain ⟨reads, refuses⟩ := @ih (cursor + 1) longer (place + 1) (by omega) stillBelow
          refine ⟨fun field isField isPrefix short fitsWord => ?_, fun tooLarge => ?_⟩
          · obtain ⟨behind, rfl, continued⟩ := isField_prefix_cons.mp ⟨isField, isPrefix⟩
            rw [if_neg ends] at continued
            rw [total] at fitsWord ⊢
            rw [goesOn, length_cons, Nat.add_comm behind.length, ← Nat.add_assoc]
            exact reads behind continued.1 continued.2 (le_of_succ_le_succ short) fitsWord
          · refine goesOn.trans (refuses fun behind isField isPrefix short => ?_)
            have whole :=
              isField_prefix_cons.mpr ⟨behind, rfl, by
                rw [if_neg ends]
                exact ⟨isField, isPrefix⟩⟩
            exact total behind ▸ tooLarge _ whole.1 whole.2 (succ_le_succ short)

/-- `var` reads every field of at most ten bytes whose integer is a word, and refuses a
header without such a field. -/
theorem var_reads_fields (fits : bytes.length < word) : (∀ (value : UInt64) (rest : Bytes),
    bytes.drop cursor = encodeVar value.toNat ++ rest →
    var bytes cursor = .ok (value, cursor + (encodeVar value.toNat).length)) ∧
      (∀ field, IsField field → field <+: bytes.drop cursor → field.length ≤ 10 →
        fieldValue field < 2 ^ 64 → ∃ value : UInt64, value.toNat = fieldValue field ∧
          var bytes cursor = .ok (value, cursor + field.length)) ∧
      ((∀ field, IsField field → field <+: bytes.drop cursor → field.length ≤ 10 →
        2 ^ 64 ≤ fieldValue field) → var bytes cursor = refuse .corrupt) := by
  obtain ⟨reads, refuses⟩ := @varFrom_exact bytes cursor 0 0 10 fits rfl (by decide)
  simp only [UInt64.toNat_zero, Nat.mul_zero, pow_zero, Nat.one_mul, Nat.zero_add] at reads refuses
  refine ⟨fun value rest found => ?_, reads, refuses⟩
  obtain ⟨isField, readBack, short⟩ := encodeVar_spec value.toNat
  have small : value.toNat < 128 ^ (9 + 1) := value.toNat_lt.trans (by decide)
  obtain ⟨same, isSame, read⟩ :=
    reads _ isField (found ▸ prefix_append _ _) (short 9 small) (readBack.trans_lt value.toNat_lt)
  obtain rfl : same = value := UInt64.toNat_inj.mp (isSame.trans readBack)
  exact read

/-- Three fields, one canonical. -/
theorem var_reads_three_hundred : var [0xAC, 0x02, 0x07] 0 = .ok (300, 2) ∧
    (∃ value : UInt64, value.toNat = 300 ∧ var [0xAC, 0x82, 0x00] 0 = .ok (value, 3)) ∧
    var [0xFF, 0xFF, 0xFF, 0xFF, 0xFF, 0xFF, 0xFF, 0xFF, 0xFF, 0x02] 0 = refuse .corrupt := by
  have canonical : encodeVar 300 = [0xAC, 0x02] := by simp [encodeVar]
  refine ⟨?_, (@var_reads_fields _ 0 (by decide)).2.1 [0xAC, 0x82, 0x00] (by simp [IsField])
    (prefix_refl _) (by decide) (by decide),
    (@var_reads_fields _ 0 (by decide)).2.2 fun field isField isPrefix _ => ?_⟩
  · have read := (@var_reads_fields [0xAC, 0x02, 0x07] 0 (by decide)).1 300 [0x07]
    rw [show (300 : UInt64).toNat = 300 from rfl, canonical] at read
    exact read rfl
  · have split := And.intro isField isPrefix
    simp [isField_prefix_cons] at split
    subst split
    decide

end Arclain.Import.Rar
