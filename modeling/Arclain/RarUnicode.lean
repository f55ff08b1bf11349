import Arclain.RarNames

namespace Arclain.Import.Rar

open List Checked UInt8

/-!
# Encodings of Unicode names

A name is encoded against its companion in the code page by a sequence of codes, the numbers
of four of them in a flag byte before their operands.
-/

inductive Code where
  | low (byte : UInt8)
  | paired (byte : UInt8)
  | whole (lower upper : UInt8)
  | repeated (extra : Fin 128) (correction : Option UInt8)

namespace Code

def number : Code → UInt8
  | low _ => 0
  | paired _ => 1
  | whole _ _ => 2
  | repeated _ _ => 3

def operands : Code → Bytes
  | low byte | paired byte => [byte]
  | whole lower upper => [lower, upper]
  | repeated extra none => [ofNat extra]
  | repeated extra (some correction) => [ofNat (extra + 128), correction]

/-- A unit of a run. -/
def corrected (high : UInt16) (correction : Option UInt8) (byte : UInt8) : UInt16 :=
  match correction with
  | some correction => (byte + correction).toUInt16 ||| high
  | none => byte.toUInt16

/-- The units a code stands for behind some number of others. -/
def units (single : Bytes) (high : UInt16) (before : Nat) : Code → List UInt16
  | low byte => [byte.toUInt16]
  | paired byte => [byte.toUInt16 ||| high]
  | whole lower upper => [lower.toUInt16 ||| upper.toUInt16 <<< 8]
  | repeated extra correction =>
    ((single.drop before).take (extra + 2)).map (corrected high correction)

/-- A run stays within the companion name. -/
def Fits (single : Bytes) (before : Nat) : Code → Prop
  | repeated extra _ => before + (extra + 2) ≤ single.length
  | _ => True

end Code

/-- The bytes that encode some units behind others, with a flag byte of which some pairs are
left. -/
inductive Encodes (single : Bytes) (high : UInt16) :
    UInt8 → Nat → Nat → List Code → List UInt16 → Bytes → Prop where
  | done {flags : UInt8} {left before : Nat} : Encodes single high flags left before [] [] []
  | next {flags : UInt8} {left before : Nat} {code : Code} {codes : List Code}
      {units : List UInt16} {bytes : Bytes}
      (number : flags >>> 6 = code.number)
      (fits : code.Fits single before)
      (rest : Encodes single high (flags <<< 2) left
        (before + (code.units single high before).length) codes units bytes) :
      Encodes single high flags (left + 1) before (code :: codes)
        (code.units single high before ++ units) (code.operands ++ bytes)
  | refilled {old flags : UInt8} {before : Nat} {code : Code} {codes : List Code}
      {units : List UInt16} {bytes : Bytes}
      (number : flags >>> 6 = code.number)
      (fits : code.Fits single before)
      (rest : Encodes single high (flags <<< 2) 3
        (before + (code.units single high before).length) codes units bytes) :
      Encodes single high old 0 before (code :: codes)
        (code.units single high before ++ units) (flags :: (code.operands ++ bytes))

section

variable {single encoded bytes : Bytes} {high : UInt16}

theorem run_corrected {correction : Option UInt8} (ascii : ∀ byte ∈ single, byte < 128)
    (count : Nat) (units : List UInt16) (fits : units.length + count ≤ single.length) :
    run single high correction count units = .ok (units ++
      ((single.drop units.length).take count).map (Code.corrected high correction)) := by
  induction count generalizing units with
  | zero => simp [run]
  | succ count ih =>
    have inside : units.length < single.length := by omega
    have here : single[units.length]? = some single[units.length] := List.getElem?_eq_getElem inside
    have behind (unit : UInt16) := ih (units ++ [unit]) (by simp; omega)
    rw [run, here, drop_eq_getElem_cons inside, take_succ_cons, map_cons]
    simp only [required, Bind.bind, Except.bind]
    cases correction with
    | some correction => simpa [Code.corrected] using behind _
    | none =>
      simp only [if_pos (ascii _ (getElem_mem inside))]
      simpa [Code.corrected] using behind _

theorem run_length_byte : ∀ extra : Fin 128,
    (ofNat extra &&& 0x80 = 0 ∧ (ofNat extra &&& 0x7f).toNat = extra) ∧
      ofNat (extra + 128) &&& 0x80 ≠ 0 ∧
        (ofNat (extra + 128) &&& 0x7f).toNat = extra := by
  decide

theorem getElem?_of_drop {position : Nat} {byte : UInt8} {rest : Bytes}
    (found : encoded.drop position = byte :: rest) :
    encoded[position]? = some byte ∧ encoded.drop (position + 1) = rest ∧
      position < encoded.length := by
  have first := congrArg (·[0]?) found
  have behind := congrArg tail found
  simp only [List.getElem?_drop, List.getElem?_cons_zero, tail_drop, tail_cons] at first behind
  exact ⟨first, behind, (List.getElem?_eq_some_iff.mp first).1⟩

theorem decodePair_code {decoding : Decoding} {code : Code} (ascii : ∀ byte ∈ single, byte < 128)
    (inWord : encoded.length + 2 < word) (number : decoding.flags >>> 6 = code.number)
    (fits : code.Fits single decoding.units.length)
    (found : encoded.drop decoding.position = code.operands ++ bytes) :
    decodePair single encoded high decoding =
      .ok (decoding.units ++ code.units single high decoding.units.length,
        decoding.position + code.operands.length) := by
  obtain ⟨units, position, _, _⟩ := decoding
  dsimp only at *
  unfold decodePair
  dsimp only
  rw [number]
  have one : ((1 : UInt8) = 0) = False := by decide
  have two : ((2 : UInt8) = 0) = False ∧ ((2 : UInt8) = 1) = False := by decide
  have three : ((3 : UInt8) = 0) = False ∧ ((3 : UInt8) = 1) = False ∧
      ((3 : UInt8) = 2) = False := by decide
  have steps {before : Nat} (inside : before < encoded.length) :
      (plus word before 1 : Attempt Nat) = .ok (before + 1) := if_pos (by omega)
  cases code with
  | low byte =>
    obtain ⟨here, _, inside⟩ := getElem?_of_drop found
    simp only [Code.number, here, required, steps inside, if_pos, Bind.bind, Except.bind]
    rfl
  | paired byte =>
    obtain ⟨here, _, inside⟩ := getElem?_of_drop found
    simp only [Code.number, one, if_false, if_true, here, required, steps inside, Bind.bind,
      Except.bind]
    rfl
  | whole =>
    obtain ⟨here, behind, inside⟩ := getElem?_of_drop found
    obtain ⟨second, _, _⟩ := getElem?_of_drop behind
    have next : (plus word position 2 : Attempt Nat) = .ok (position + 2) := if_pos (by omega)
    simp only [Code.number, two, if_false, if_true, here, second, required, steps inside, next,
      Bind.bind, Except.bind]
    rfl
  | repeated extra correction =>
    obtain ⟨⟨plain, plainCount⟩, flagged, flaggedCount⟩ := run_length_byte extra
    have count : (plus word extra 2 : Attempt Nat) = .ok (extra + 2) :=
      if_pos (by have := extra.isLt; unfold word; omega)
    simp only [Code.number, three, if_false]
    cases correction with
    | none =>
      obtain ⟨here, _, inside⟩ := getElem?_of_drop found
      simp only [here, required, steps inside, correctionOf, plain, plainCount, count,
        ne_eq, not_true_eq_false, if_false, Bind.bind, Except.bind,
        @run_corrected _ high none ascii (extra + 2) units fits]
      rfl
    | some correction =>
      obtain ⟨here, behind, inside⟩ := getElem?_of_drop found
      obtain ⟨second, _, secondInside⟩ := getElem?_of_drop behind
      have back : (minus (position + 1 + 1) 1 : Attempt Nat) = .ok (position + 1) :=
        if_pos (by omega)
      simp only [here, second, required, steps inside, steps secondInside, back,
        correctionOf, flagged, flaggedCount, count, ne_eq, not_false_eq_true, if_true,
        Bind.bind, Except.bind,
        @run_corrected _ high (some correction) ascii (extra + 2) units fits]
      rfl

variable {units : List UInt16}

theorem decodeStep_code {position flagBits : Nat} {flags : UInt8}
    {code : Code} (ascii : ∀ byte ∈ single, byte < 128) (inWord : encoded.length + 2 < word)
    (short : units.length ≤ 4096) (number : flags >>> 6 = code.number)
    (fits : code.Fits single units.length)
    (found : encoded.drop position = code.operands ++ bytes) :
    decodeStep single encoded high ⟨units, position, flags, flagBits + 2⟩ =
      .ok ⟨units ++ code.units single high units.length, position + code.operands.length,
        flags <<< 2, flagBits⟩ := by
  have pair := @decodePair_code _ _ _ high ⟨units, position, flags, flagBits + 2⟩ _ ascii
    inWord number fits found
  rw [decodeStep, if_neg (by simpa using short), refill, if_neg (by simp)]
  simp only [pair, Bind.bind, Except.bind, minus, if_pos (Nat.le_add_left 2 flagBits),
    Nat.add_sub_cancel]

variable {old flags : UInt8}

theorem decodeStep_refilled {position : Nat}
    (inWord : encoded.length + 2 < word) (found : encoded.drop position = flags :: bytes) :
    decodeStep single encoded high ⟨units, position, old, 0⟩ =
      decodeStep single encoded high ⟨units, position + 1, flags, 8⟩ := by
  obtain ⟨here, _, _⟩ := getElem?_of_drop found
  have next : (plus word position 1 : Attempt Nat) = .ok (position + 1) := if_pos (by omega)
  simp only [decodeStep, refill, here, required, next, Bind.bind, Except.bind]
  rfl

theorem length_units_le (code : Code) {before : Nat} (fits : code.Fits single before) :
    before + (code.units single high before).length ≤
      max (before + code.operands.length) single.length := by
  cases code with
  | repeated extra =>
    refine le_max_of_le_right ?_
    have taken := length_take_le (extra + 2 : Nat) (single.drop before)
    simp only [Code.units, length_map]
    exact (Nat.add_le_add_left taken before).trans fits
  | low byte | paired byte => exact le_max_left _ _
  | whole => exact le_max_of_le_left (by simp [Code.units, Code.operands])

theorem operands_ne_nil (code : Code) : code.operands ≠ [] := by
  unfold Code.operands
  split <;> exact cons_ne_nil _ _

theorem loop_code {units earlier : List UInt16} {position flagBits fuel : Nat}
    {bits : Nat} {code : Code} {start : Nat}
    (ascii : ∀ byte ∈ single, byte < 128) (inWord : encoded.length + 2 < word)
    (short : earlier.length ≤ 4096) (number : flags >>> 6 = code.number)
    (fits : code.Fits single earlier.length) (starts : position ≤ start)
    (same : decodeStep single encoded high ⟨earlier, position, old, bits⟩ =
      decodeStep single encoded high ⟨earlier, start, flags, flagBits + 2⟩)
    (enough : code.operands.length + bytes.length ≤ fuel)
    (found : encoded.drop start = code.operands ++ bytes)
    (behind : ∀ {fuel}, bytes.length ≤ fuel → encoded.drop (start + code.operands.length) = bytes →
      ∃ final, whileFuel (fun decoding => decoding.position < encoded.length)
        (decodeStep single encoded high) fuel
        ⟨earlier ++ code.units single high earlier.length, start + code.operands.length,
          flags <<< 2, flagBits⟩ = .ok final ∧
        final.units = (earlier ++ code.units single high earlier.length) ++ units) :
    ∃ final, whileFuel (fun decoding => decoding.position < encoded.length)
      (decodeStep single encoded high) fuel ⟨earlier, position, old, bits⟩ = .ok final ∧
      final.units = earlier ++ (code.units single high earlier.length ++ units) := by
  have some : 0 < code.operands.length := length_pos_iff.mpr (operands_ne_nil code)
  have inside : position < encoded.length := by
    have lengths := congrArg length found
    rw [length_drop, length_append] at lengths
    omega
  obtain ⟨fuel, rfl⟩ : ∃ less, fuel = less + 1 := ⟨fuel - 1, by omega⟩
  have rest : encoded.drop (start + code.operands.length) = bytes := by
    rw [← drop_drop, found, drop_left]
  obtain ⟨final, ran, isFinal⟩ := @behind fuel (by omega) rest
  refine ⟨final, ?_, isFinal.trans (append_assoc _ _ _)⟩
  rw [whileFuel, if_pos (decide_eq_true inside), same,
    decodeStep_code ascii inWord short number fits found]
  exact ran

theorem loop_decodes {flags : UInt8} {left before : Nat} {codes : List Code} {units : List UInt16}
    (ascii : ∀ byte ∈ single, byte < 128) (short : single.length + encoded.length ≤ 4096)
    (encodes : Encodes single high flags left before codes units bytes) {fuel position : Nat}
    {earlier : List UInt16} (enough : bytes.length ≤ fuel) (sofar : earlier.length = before)
    (bounded : before ≤ single.length + position) (found : encoded.drop position = bytes) :
    ∃ final, whileFuel (fun decoding => decoding.position < encoded.length)
      (decodeStep single encoded high) fuel ⟨earlier, position, flags, 2 * left⟩ = .ok final ∧
      final.units = earlier ++ units := by
  have inWord : encoded.length + 2 < word := by unfold word; omega
  induction encodes generalizing fuel position earlier with
  | @done flags left before =>
    have ended : ¬ position < encoded.length := Nat.not_lt.mpr (drop_eq_nil_iff.mp found)
    refine ⟨⟨earlier, position, flags, 2 * left⟩, ?_, (append_nil _).symm⟩
    cases fuel <;> simp [whileFuel, ended]
  | @next flags left before code codes units bytes number fits rest ih =>
    subst sofar
    have grows := @length_units_le single high code _ fits
    have some := length_pos_iff.mpr (operands_ne_nil code)
    have lengths := congrArg length found
    rw [length_append] at enough
    rw [length_drop, length_append] at lengths
    refine loop_code ascii inWord (by omega) number fits le_rfl rfl enough found
      fun less behind => ih less (length_append ..) (by omega) behind
  | @refilled old flags before code codes units bytes number fits rest ih =>
    subst sofar
    have grows := @length_units_le single high code _ fits
    obtain ⟨_, operands, _⟩ := getElem?_of_drop found
    rw [length_cons, length_append] at enough
    refine loop_code ascii inWord (by omega) number fits (Nat.le_succ _)
      (decodeStep_refilled inWord found) (by omega) operands
      fun less behind => ih less (length_append ..) (by omega) behind

/-- Every field is read to its end without a panic, and an encoded name is decoded, its
separators replaced. -/
theorem unicodeName_decodes {libraries : Libraries} :
    (∀ field, Meets (unicodeName libraries field) fun _ => True) ∧
    ∀ {single bytes : Bytes} {high : UInt8} {codes : List Code} {units : List UInt16} {text : Str},
      (∀ byte ∈ single, byte < 128 ∧ byte ≠ 0) → (single ++ 0 :: high :: bytes).length ≤ 4096 →
      Encodes single (high.toUInt16 <<< 8) 0 0 0 codes units bytes → fromUtf16 units = some text →
      unicodeName libraries (single ++ 0 :: high :: bytes) =
        validated libraries (slashed text) := by
  refine ⟨fun _ => unicodeName_meets, fun {single bytes high codes units text} companion
    short encodes isText => ?_⟩
  have lengths : (single ++ 0 :: high :: bytes).length = single.length + (bytes.length + 2) := by
    simp
  have nul : (single ++ 0 :: high :: bytes).findIdx? (· = 0) = some single.length := by
    rw [findIdx?_append, findIdx?_eq_none_iff.mpr fun byte mem =>
      decide_eq_false (companion byte mem).2]
    simp [findIdx?_cons]
  have companionName : slice (single ++ 0 :: high :: bytes) 0 single.length =
      (.ok single : Attempt Bytes) := by
    simp [slice]
  have encoded : slice (single ++ 0 :: high :: bytes) (single.length + 1)
      (single ++ 0 :: high :: bytes).length = (.ok (high :: bytes) : Attempt Bytes) := by
    rw [slice, if_pos (by omega), take_length, ← drop_drop, drop_left]
    rfl
  have behind : (plus word single.length 1 : Attempt Nat) = .ok (single.length + 1) :=
    if_pos (by unfold word; omega)
  obtain ⟨_, ran, isUnits⟩ := @loop_decodes single (high :: bytes) bytes _ 0 0 0 codes units
    (fun byte mem => (companion byte mem).1) (by rw [length_cons]; omega) encodes
    (high :: bytes).length 1 [] (Nat.le_succ _) rfl (Nat.zero_le _) rfl
  rw [unicodeName, if_neg (Nat.not_lt.mpr short)]
  simp only [nul, companionName, encoded, behind, required, List.getElem?_cons_zero, Bind.bind,
    Except.bind]
  simp only [ran, isUnits, nil_append, isText]

/-- A Cyrillic name with a run. -/
theorem unicodeName_decodes_run :
    unicodeName ⟨fun _ => 0, fun _ => true⟩ [0x61, 0x62, 0x63, 0, 4, 0x70, 0x10, 0x80, 0xE0] =
      .ok "Ату".toList := by
  have encodes : Encodes [0x61, 0x62, 0x63] 0x400 0 0 0
      [.paired 0x10, .repeated 0 (some 0xE0)] [0x410, 0x442, 0x443] [0x70, 0x10, 0x80, 0xE0] :=
    .refilled rfl trivial (.next rfl (le_refl 3) .done)
  obtain ⟨_, decodes⟩ := @unicodeName_decodes ⟨fun _ => 0, fun _ => true⟩
  exact @decodes [0x61, 0x62, 0x63] _ 4 _ _ _ (by decide +kernel) (by decide) encodes rfl

end

/-- A name with a backslash, encoded against an empty companion, is not the one
returned. -/
theorem backslash_replaced :
    ¬ ∀ {libraries : Libraries} {single bytes : Bytes} {high : UInt8} {codes : List Code}
      {units : List UInt16} {text : Str}, (∀ byte ∈ single, byte < 128 ∧ byte ≠ 0) →
      Encodes single (high.toUInt16 <<< 8) 0 0 0 codes units bytes → fromUtf16 units = some text →
      unicodeName libraries (single ++ 0 :: high :: bytes) = .ok text := by
  intro returned
  have encodes : Encodes [] 0 0 0 0 [.low 0x61, .low 0x5C, .low 0x62] [0x61, 0x5C, 0x62]
      [0, 0x61, 0x5C, 0x62] :=
    .refilled rfl trivial (.next rfl trivial (.next rfl trivial .done))
  have same := @returned ⟨fun _ => 0, fun _ => true⟩ [] _ 0 _ _ _ (by simp) encodes rfl
  have replaced : unicodeName ⟨fun _ => 0, fun _ => true⟩ [0, 0, 0, 0x61, 0x5C, 0x62] =
      .ok ['a', '/', 'b'] := by
    decide
  exact absurd (replaced.symm.trans same) (by decide)

end Arclain.Import.Rar
