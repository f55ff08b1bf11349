import Arclain.MultiPartSets

namespace Arclain.MultiPart

/-!
# Reading the names of parts

A name with a number is a base name, a marker, digits and an ending.  Since no marker ends
with a digit there is one way to read it.
-/

open List Option Text DigitTable

def marker : MultiPartFormat → Str
  | .rarPart => ".part".toList
  | .rarSequence => ".r".toList
  | .sevenZip => ".7z.".toList
  | .zipSplit => ".z".toList
  | .generic001 => ".".toList

def ending : MultiPartFormat → Str
  | .rarPart => ".rar".toList
  | _ => []

def numberedName (format : MultiPartFormat) (baseName : Str) (width number : Nat) : Str :=
  baseName ++ marker format ++ paddedDecimal width number ++ ending format

variable {format : MultiPartFormat}

theorem enumeratedNames_numbered {baseName name : Str} {number : Nat}
    (tried : name ∈ enumeratedNames baseName number format) :
    ∃ width, name = numberedName format baseName width number := by
  cases format with
  | rarPart =>
    refine ⟨0, ?_⟩
    rw [mem_singleton.mp tried, rarPartName, decimal_eq_paddedDecimal]
    rfl
  | rarSequence =>
    rcases mem_cons.mp tried with rfl | threeDigits
    · exact ⟨2, (append_nil _).symm⟩
    · rw [mem_singleton.mp threeDigits]
      exact ⟨3, (append_nil _).symm⟩
  | sevenZip | generic001 =>
    rw [mem_singleton.mp tried]
    exact ⟨3, (append_nil _).symm⟩
  | zipSplit =>
    rw [mem_singleton.mp tried]
    exact ⟨2, (append_nil _).symm⟩

theorem numberedName_injective {baseName : Str} {firstWidth secondWidth first second : Nat}
    (same : numberedName format baseName firstWidth first =
      numberedName format baseName secondWidth second) :
    first = second := by
  simp only [numberedName] at same
  exact paddedDecimal_injective (append_cancel_left (append_cancel_right same))

section

variable [DigitTable]

theorem DigitTable.isDecimal_of_isDigit {char : Char} (digit : char.isDigit = true) :
    isDecimal char = true := by
  have upper : char.toNat ≤ 57 := by
    simp only [Char.isDigit, Bool.and_eq_true, decide_eq_true_eq,
      UInt32.le_iff_toNat_le, ge_iff_le] at digit
    exact digit.2
  rw [ofAscii (by omega), digit]

theorem splitDigits {front digits : Str} {last : Char} (isLast : front.getLast? = some last)
    (noDigit : isDecimal last = false)
    (areDigits : ∀ char ∈ digits, isDecimal char = true) :
    (front ++ digits).rdropWhile isDecimal = front ∧
      (front ++ digits).rtakeWhile isDecimal = digits := by
  obtain ⟨_, rfl⟩ := getLast?_eq_some_iff.mp isLast
  have stops : ¬ isDecimal last = true := by simp [noDigit]
  induction digits using reverseRecOn with
  | nil =>
    rw [append_nil, rdropWhile_concat_neg _ _ _ stops, rtakeWhile_concat_neg _ _ _ stops]
    exact ⟨rfl, rfl⟩
  | append_singleton digits digit ih =>
    have isDigit : isDecimal digit = true := areDigits digit (by simp)
    obtain ⟨dropped, taken⟩ := ih fun char mem => areDigits char (by simp [mem])
    rw [← append_assoc, rdropWhile_concat_pos _ _ _ isDigit,
      rtakeWhile_concat_pos _ _ _ isDigit, dropped, taken]
    exact ⟨rfl, rfl⟩

theorem marker_getLast (format : MultiPartFormat) : ∃ last, (marker format).getLast? = some last ∧
    isDecimal last = false := by
  cases format with
  | rarPart => exact ⟨'t', rfl, ofAscii (by decide)⟩
  | rarSequence => exact ⟨'r', rfl, ofAscii (by decide)⟩
  | sevenZip | generic001 => exact ⟨'.', rfl, ofAscii (by decide)⟩
  | zipSplit => exact ⟨'z', rfl, ofAscii (by decide)⟩

omit [DigitTable] in
theorem captureEnding_eq_some_iff {ending name baseName : Str} :
    captureEnding ending name = some baseName ↔
      name = baseName ++ ending ∧ isBase baseName = true := by
  rw [captureEnding, filter_eq_some_iff, dropSuffix?_eq_some_iff]
  simp

variable {format : MultiPartFormat}

theorem captureNumbered_eq_some_iff {name baseName digits : Str} :
    captureNumbered (marker format) (ending format) name = some (baseName, digits) ↔
      name = baseName ++ marker format ++ digits ++ ending format ∧
        isBase baseName = true ∧ digits ≠ [] ∧
        ∀ char ∈ digits, isDecimal char = true := by
  constructor
  · intro captured
    simp only [captureNumbered, bind_eq_bind, bind_eq_some_iff] at captured
    obtain ⟨front, dropped, _, based, rest⟩ := captured
    split at rest
    · cases rest
    next someDigits =>
      cases rest
      obtain ⟨_, rfl, same⟩ := dropSuffix?_eq_some_iff.mp dropped
      obtain ⟨starts, valid⟩ := captureEnding_eq_some_iff.mp based
      refine ⟨?_, valid, someDigits, fun _ => mem_rtakeWhile_imp⟩
      rw [← starts, rdropWhile_append_rtakeWhile, eq_of_beq same]
  · rintro ⟨rfl, valid, someDigits, areDigits⟩
    obtain ⟨last, isLast, noDigit⟩ := marker_getLast format
    have endsMarker : (baseName ++ marker format).getLast? = some last := by
      simp [getLast?_append, isLast]
    obtain ⟨dropped, taken⟩ := splitDigits endsMarker noDigit areDigits
    have front : (baseName ++ marker format ++ digits ++ ending format).dropSuffix?
        (ending format) = some (baseName ++ marker format ++ digits) :=
      dropSuffix?_eq_some_iff.mpr ⟨ending format, rfl, beq_self_eq_true _⟩
    have based : captureEnding (marker format) (baseName ++ marker format) = some baseName :=
      captureEnding_eq_some_iff.mpr ⟨rfl, valid⟩
    simp only [captureNumbered, front, bind_eq_bind, bind_some,
      dropped, based, taken, if_neg someDigits]

/-- The base name a detector reads in a name with a number. -/
def numberedBase : MultiPartFormat → Str → Option Str
  | .rarPart => rarPartBase
  | .rarSequence => rarSequenceBase
  | .sevenZip => sevenZipBase
  | .zipSplit => zipSplitBase
  | .generic001 => generic001Base

def AcceptedDigits (digits : Str) : MultiPartFormat → Prop
  | .rarPart => ∃ number, parseU32 digits = some number
  | .rarSequence => digits.length = 2 ∨ digits.length = 3
  | .sevenZip => digits.length = 3
  | .zipSplit => digits.length = 2
  | .generic001 =>
    digits.length = 3 ∧ ∃ number, parseU32 digits = some number ∧ 0 < number ∧ number ≤ 999

theorem numberedBase_eq_some_iff {name baseName : Str} :
    numberedBase format name = some baseName ↔ ∃ digits,
      captureNumbered (marker format) (ending format) name = some (baseName, digits) ∧
        AcceptedDigits digits format := by
  cases format with
  | rarPart =>
    simp only [numberedBase, rarPartBase, AcceptedDigits, bind_eq_bind,
      bind_eq_some_iff, Prod.exists, some.injEq, exists_and_right, existsAndEq, and_true]
    rfl
  | rarSequence =>
    simp only [numberedBase, rarSequenceBase, AcceptedDigits, bind_eq_bind,
      bind_eq_some_iff, Prod.exists, ite_none_right_eq_some,
      some.injEq, existsAndEq, and_true]
    rfl
  | sevenZip =>
    simp only [numberedBase, sevenZipBase, AcceptedDigits, bind_eq_bind,
      bind_eq_some_iff, Prod.exists, ite_none_right_eq_some,
      some.injEq, existsAndEq, and_true]
    rfl
  | zipSplit =>
    simp only [numberedBase, zipSplitBase, AcceptedDigits, bind_eq_bind,
      bind_eq_some_iff, Prod.exists, ite_none_right_eq_some,
      some.injEq, existsAndEq, and_true]
    rfl
  | generic001 =>
    simp only [numberedBase, generic001Base, AcceptedDigits, bind_eq_bind,
      bind_eq_some_iff, Prod.exists, ite_none_right_eq_some,
      ite_none_left_eq_some, not_or, not_lt, some.injEq, existsAndEq,
      and_true, exists_and_left, Nat.pos_iff_ne_zero, ne_eq]
    rfl

end

end Arclain.MultiPart
