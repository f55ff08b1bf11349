import Arclain.MultiPartNames

namespace Arclain.MultiPart

/-!
# Detecting a set again on its first part

The numbered conventions read the first part as they read any other.  A `.rar` or a `.zip`
is read as a part only beside the sibling that makes it one.
-/

open Text Option CharTables DigitTable

section

variable [DigitTable]

theorem captureNumbered_numbered {format other : MultiPartFormat} {baseName digits base read : Str}
    (sameEnding : ending format = ending other)
    (areDigits : ∀ char ∈ digits, isDecimal char = true)
    (captured : captureNumbered (marker format) (ending format)
      (baseName ++ marker other ++ digits ++ ending other) = some (base, read)) :
    baseName ++ marker other = base ++ marker format := by
  obtain ⟨same, -, -, readDigits⟩ := captureNumbered_eq_some_iff.mp captured
  rw [sameEnding] at same
  obtain ⟨last, isLast, noDigit⟩ := marker_getLast format
  obtain ⟨otherLast, otherIsLast, otherNoDigit⟩ := marker_getLast other
  have front : (base ++ marker format).getLast? = some last := by
    simp [List.getLast?_append, isLast]
  have otherFront : (baseName ++ marker other).getLast? = some otherLast := by
    simp [List.getLast?_append, otherIsLast]
  rw [← (splitDigits otherFront otherNoDigit areDigits).1,
    List.append_cancel_right same, (splitDigits front noDigit readDigits).1]

theorem areDigits_paddedDecimal (width number : Nat) :
    ∀ char ∈ paddedDecimal width number, isDecimal char = true :=
  fun _ mem => isDecimal_of_isDigit (isDigit_of_mem_paddedDecimal mem)

variable {format : MultiPartFormat} {name : Str} {last : Char}

theorem captureNumbered_letter (isLast : name.getLast? = some last)
    (noDigit : isDecimal last = false) (noEnding : ending format = []) :
    captureNumbered (marker format) (ending format) name = none := by
  rw [eq_none_iff_forall_ne_some]
  rintro ⟨_, digits⟩ captured
  obtain ⟨rfl, -, someDigits, areDigits⟩ := captureNumbered_eq_some_iff.mp captured
  obtain ⟨_, digit, rfl⟩ := (List.eq_nil_or_concat' digits).resolve_left someDigits
  simp only [noEnding, List.append_nil, List.getLast?_append,
    List.getLast?_singleton, some_or, some.injEq] at isLast
  have isDigit := areDigits digit (by simp)
  rw [isLast, noDigit] at isDigit
  cases isDigit

omit [DigitTable] in
theorem captureEnding_other {ending name : Str} {last other : Char}
    (isLast : name.getLast? = some last) (endsOther : ending.getLast? = some other)
    (differ : last ≠ other) : captureEnding ending name = none := by
  rw [eq_none_iff_forall_ne_some]
  intro _ captured
  rw [(captureEnding_eq_some_iff.mp captured).1, List.getLast?_append, endsOther] at isLast
  exact differ (some.inj isLast).symm

theorem rarPartBase_other (isLast : name.getLast? = some last) (differ : last ≠ 'r') :
    numberedBase .rarPart name = none := by
  rw [eq_none_iff_forall_ne_some]
  intro _ read
  obtain ⟨_, captured, -⟩ := numberedBase_eq_some_iff.mp read
  rw [(captureNumbered_eq_some_iff.mp captured).1, ending, List.getLast?_append] at isLast
  exact differ (some.inj isLast).symm

theorem marker_differ {format other : MultiPartFormat} {baseName base : Str}
    (differ : (marker other).getLast? ≠ (marker format).getLast?) :
    baseName ++ marker other ≠ base ++ marker format := by
  intro same
  obtain ⟨_, isLast, -⟩ := marker_getLast format
  obtain ⟨_, otherIsLast, -⟩ := marker_getLast other
  have lasts := congrArg List.getLast? same
  rw [List.getLast?_append, List.getLast?_append, isLast, otherIsLast] at lasts
  rw [isLast, otherIsLast] at differ
  exact differ lasts

end

def conventions : List MultiPartFormat :=
  [.rarPart, .rarSequence, .sevenZip, .zipSplit, .generic001]

def before (format : MultiPartFormat) : List MultiPartFormat := conventions.takeWhile (· ≠ format)

theorem before_of_conventions {format : MultiPartFormat} {earlier later : List MultiPartFormat}
    (order : conventions = earlier ++ format :: later) : before format = earlier := by
  have distinct : conventions.Nodup := by decide
  rw [order, List.nodup_append] at distinct
  have others : ∀ other ∈ earlier, decide (other ≠ format) = true := by
    intro other mem
    exact decide_eq_true (distinct.2.2 other mem format List.mem_cons_self)
  rw [before, order, List.takeWhile_append_of_pos others]
  simp

theorem conventions_split (format : MultiPartFormat) :
    ∃ later, conventions = before format ++ format :: later := by
  have tried : format ∈ conventions := by cases format <;> decide
  obtain ⟨_, later, order⟩ := List.append_of_mem tried
  rw [before_of_conventions order]
  exact ⟨later, order⟩

section

variable [CharTables] [DigitTable] (disk : List FilePath) (parent : Str)

/-- The base name a detector reads, with the sibling that it asks for. -/
def conventionBase : MultiPartFormat → Str → Option Str
  | .rarSequence, name =>
    match captureEnding ".rar".toList name with
    | some baseName => do
      let _ ← resolveIgnoringCase disk parent (baseName ++ ".r00".toList)
      some baseName
    | none => rarSequenceBase name
  | .zipSplit, name =>
    match captureEnding ".zip".toList name with
    | some baseName => do
      let _ ← resolveIgnoringCase disk parent (baseName ++ ".z01".toList)
      some baseName
    | none => zipSplitBase name
  | format, name => numberedBase format name

theorem detect_eq (path : FilePath) : detect disk path = conventions.findSome? fun format =>
  (conventionBase disk path.parent format (toLowercase path.name)).map
    (detected disk path.parent format) := by
  have sequence (name : Str) : detectRarSequence disk path name =
      (conventionBase disk path.parent .rarSequence name).map
        (detected disk path.parent .rarSequence) := by
    simp only [detectRarSequence, conventionBase]
    cases captureEnding ".rar".toList name with
    | none => rfl
    | some baseName =>
      simp
  have split (name : Str) : detectZipSplit disk path name =
      (conventionBase disk path.parent .zipSplit name).map
        (detected disk path.parent .zipSplit) := by
    simp only [detectZipSplit, conventionBase]
    cases captureEnding ".zip".toList name with
    | none => rfl
    | some baseName =>
      simp
  simp only [detect, sequence, split, detectRarPart, detectSevenZip,
    detectGeneric001, conventions, List.findSome?_cons, List.findSome?_nil,
    conventionBase, numberedBase]
  grind

variable {disk parent}

variable {path : FilePath}

theorem detect_eq_some_iff {archive : MultiPartArchive} : detect disk path = some archive ↔
    archive = detected disk path.parent archive.format archive.baseName ∧
      conventionBase disk path.parent archive.format (toLowercase path.name) =
        some archive.baseName ∧
      ∀ format ∈ before archive.format, conventionBase disk path.parent format
        (toLowercase path.name) = none := by
  rw [detect_eq, List.findSome?_eq_some_iff]
  constructor
  · rintro ⟨_, format, later, order, read, others⟩
    obtain ⟨_, based, rfl⟩ := map_eq_some_iff.mp read
    refine ⟨rfl, based, ?_⟩
    intro other mem
    have earlierOne : other ∈ before format := mem
    rw [before_of_conventions order] at earlierOne
    exact map_eq_none_iff.mp (others other earlierOne)
  · rintro ⟨same, based, others⟩
    obtain ⟨later, order⟩ := conventions_split archive.format
    refine ⟨before archive.format, archive.format, later, order, ?_, ?_⟩
    · rw [based, map_some, ← same]
    · intro other mem
      rw [others other mem, map_none]

variable {format : MultiPartFormat} {name baseName : Str}

theorem conventionBase_spec (read : conventionBase disk parent format name = some baseName) :
    (∃ rest, name = baseName ++ rest) ∧ isBase baseName = true := by
  have numbered {format : MultiPartFormat} (read : numberedBase format name = some baseName) :
      (∃ rest, name = baseName ++ rest) ∧ isBase baseName = true := by
    obtain ⟨_, captured, -⟩ := numberedBase_eq_some_iff.mp read
    obtain ⟨same, valid, -, -⟩ := captureNumbered_eq_some_iff.mp captured
    rw [List.append_assoc, List.append_assoc] at same
    exact ⟨⟨_, same⟩, valid⟩
  have plain {ending sibling base : Str} (captured : captureEnding ending name = some base)
      (present : (do
        let _ ← resolveIgnoringCase disk parent sibling
        some base) = some baseName) :
      (∃ rest, name = baseName ++ rest) ∧ isBase baseName = true := by
    obtain ⟨_, -, same⟩ := bind_eq_some_iff.mp present
    rw [← some.inj same]
    obtain ⟨ends, valid⟩ := captureEnding_eq_some_iff.mp captured
    exact ⟨⟨_, ends⟩, valid⟩
  cases format with
  | rarSequence =>
    simp only [conventionBase] at read
    split at read
    next captured => exact plain captured read
    · exact @numbered .rarSequence read
  | zipSplit =>
    simp only [conventionBase] at read
    split at read
    next captured => exact plain captured read
    · exact @numbered .zipSplit read
  | rarPart => exact @numbered .rarPart read
  | sevenZip => exact @numbered .sevenZip read
  | generic001 => exact @numbered .generic001 read

/-- The first part is read as one of its set: a plain one needs its sibling, and
`base.partN.rar` is of another set. -/
def FirstPartRecognised (disk : List FilePath) (parent baseName : Str) : MultiPartFormat → Prop
  | .rarSequence =>
    Present disk parent [baseName ++ ".r00".toList] ∧ rarPartBase (baseName ++ ".rar".toList) = none
  | .zipSplit => Present disk parent [baseName ++ ".z01".toList]
  | _ => True

theorem conventionBase_firstNumber (valid : isBase baseName = true)
    (noPlain : plainName baseName format = none) :
    conventionBase disk parent format (firstPartName baseName format) = some baseName := by
  have read {format : MultiPartFormat} (width : Nat)
      (accepted : AcceptedDigits (paddedDecimal width 1) format) :
      numberedBase format (numberedName format baseName width 1) = some baseName := by
    refine numberedBase_eq_some_iff.mpr ⟨paddedDecimal width 1, ?_, accepted⟩
    exact captureNumbered_eq_some_iff.mpr
      ⟨rfl, valid, paddedDecimal_ne_nil width 1, areDigits_paddedDecimal width 1⟩
  cases format with
  | rarPart => exact @read .rarPart 0 ⟨1, by decide⟩
  | sevenZip =>
    have same : firstPartName baseName .sevenZip = numberedName .sevenZip baseName 3 1 := by
      simp [firstPartName, sevenZipName, numberedName, marker, ending]
    rw [same]
    have threeDigits : (paddedDecimal 3 1).length = 3 := by decide
    exact @read .sevenZip 3 threeDigits
  | generic001 =>
    have same : firstPartName baseName .generic001 = numberedName .generic001 baseName 3 1 := by
      simp [firstPartName, generic001Name, numberedName, marker, ending]
    rw [same]
    exact @read .generic001 3 ⟨by decide, 1, by decide⟩
  | rarSequence | zipSplit => cases noPlain

theorem conventionBase_other {format other : MultiPartFormat} {width number : Nat}
    (noEnding : ending other = [])
    (differ : ∀ base, isBase base = true → baseName ++ marker other ≠ base ++ marker format) :
    conventionBase disk parent format (numberedName other baseName width number) = none := by
  have endsWithDigit : ∃ digit, (numberedName other baseName width number).getLast? = some digit ∧
      digit.isDigit = true := by
    obtain ⟨_, digit, written⟩ :=
      (List.eq_nil_or_concat' (paddedDecimal width number)).resolve_left
        (paddedDecimal_ne_nil width number)
    have mem : digit ∈ paddedDecimal width number := by simp [written]
    refine ⟨digit, ?_, isDigit_of_mem_paddedDecimal mem⟩
    simp [numberedName, noEnding, written, List.getLast?_append]
  obtain ⟨digit, isLast, isDigit⟩ := endsWithDigit
  have noLetter {letter : Char} (noDigit : letter.isDigit = false) : digit ≠ letter := by
    rintro rfl
    rw [isDigit] at noDigit
    cases noDigit
  have numbered (sameEnding : ending format = ending other) :
      numberedBase format (numberedName other baseName width number) = none := by
    rw [eq_none_iff_forall_ne_some]
    intro base read
    obtain ⟨_, captured, -⟩ := numberedBase_eq_some_iff.mp read
    exact differ base (captureNumbered_eq_some_iff.mp captured).2.1
      (captureNumbered_numbered sameEnding (areDigits_paddedDecimal width number) captured)
  cases format with
  | rarPart => exact rarPartBase_other isLast (noLetter (by decide))
  | rarSequence =>
    have noPlain :=
      captureEnding_other isLast (show ".rar".toList.getLast? = some 'r' from rfl)
        (noLetter (by decide))
    simp only [conventionBase, noPlain]
    exact numbered noEnding.symm
  | zipSplit =>
    have noPlain :=
      captureEnding_other isLast (show ".zip".toList.getLast? = some 'p' from rfl)
        (noLetter (by decide))
    simp only [conventionBase, noPlain]
    exact numbered noEnding.symm
  | sevenZip | generic001 => exact numbered noEnding.symm

omit [DigitTable] in
theorem bind_resolve_eq_some_iff {sibling baseName : Str} : (do
  let _ ← resolveIgnoringCase disk parent sibling
  some baseName) = some baseName ↔ Present disk parent [sibling] := by
  rw [← resolveIgnoringCase_ne_none_iff]
  cases resolveIgnoringCase disk parent sibling <;> simp

theorem conventionBase_rar_iff (valid : isBase baseName = true) :
    conventionBase disk parent .rarSequence (baseName ++ ".rar".toList) = some baseName ↔
      Present disk parent [baseName ++ ".r00".toList] := by
  have captured : captureEnding ".rar".toList (baseName ++ ".rar".toList) = some baseName :=
    captureEnding_eq_some_iff.mpr ⟨rfl, valid⟩
  simp only [conventionBase, captured]
  exact bind_resolve_eq_some_iff

theorem conventionBase_zip_iff (valid : isBase baseName = true) :
    conventionBase disk parent .zipSplit (baseName ++ ".zip".toList) = some baseName ↔
      Present disk parent [baseName ++ ".z01".toList] := by
  have captured : captureEnding ".zip".toList (baseName ++ ".zip".toList) = some baseName :=
    captureEnding_eq_some_iff.mpr ⟨rfl, valid⟩
  simp only [conventionBase, captured]
  exact bind_resolve_eq_some_iff

theorem conventionBase_zip_before (earlier : format ∈ before .zipSplit) :
    conventionBase disk parent format (baseName ++ ".zip".toList) = none := by
  have isLast : (baseName ++ ".zip".toList).getLast? = some 'p' := by
    rw [List.getLast?_append]
    rfl
  have noDigit : isDecimal 'p' = false := ofAscii (by decide)
  have noNumber {format : MultiPartFormat} (noEnding : ending format = []) :
      numberedBase format (baseName ++ ".zip".toList) = none := by
    rw [eq_none_iff_forall_ne_some]
    intro _ read
    obtain ⟨_, captured, -⟩ := numberedBase_eq_some_iff.mp read
    rw [captureNumbered_letter isLast noDigit noEnding] at captured
    cases captured
  have order : before .zipSplit = [.rarPart, .rarSequence, .sevenZip] := rfl
  rw [order] at earlier
  cases format with
  | rarPart => exact rarPartBase_other isLast (by decide)
  | rarSequence =>
    have noPlain :=
      captureEnding_other isLast (show ".rar".toList.getLast? = some 'r' from rfl) (by decide)
    simp only [conventionBase, noPlain]
    exact @noNumber .rarSequence rfl
  | sevenZip => exact @noNumber .sevenZip rfl
  | zipSplit | generic001 => simp at earlier

/-- Text that continues lower-cased text with small letters, digits and dots is lower case. -/
def LowercaseJoins : Prop :=
  ∀ text front rest back : Str, toLowercase text = front ++ rest →
    (∀ char ∈ back, char.isLower ∨ char.isDigit ∨ char = '.') →
    toLowercase (front ++ back) = front ++ back

omit [DigitTable] in
theorem parent_of_resolveIgnoringCase {file : FilePath}
    (resolved : resolveIgnoringCase disk parent name = some file) : file.parent = parent := by
  have found := List.find?_some resolved
  simp only [Bool.and_eq_true, decide_eq_true_eq] at found
  exact found.1

omit [CharTables] [DigitTable] in
theorem firstPartName_eq (baseName : Str) (format : MultiPartFormat) :
    ∃ back, firstPartName baseName format = baseName ++ back ∧
      ∀ char ∈ back, char.isLower ∨ char.isDigit ∨ char = '.' := by
  cases format with
  | rarPart =>
    refine ⟨".part1.rar".toList, ?_, by simp⟩
    rw [firstPartName, rarPartName, List.append_assoc, List.append_assoc]
    rfl
  | rarSequence => exact ⟨".rar".toList, rfl, by simp⟩
  | sevenZip =>
    refine ⟨".7z.001".toList, ?_, by simp⟩
    rw [firstPartName, sevenZipName, List.append_assoc]
    rfl
  | zipSplit => exact ⟨".zip".toList, rfl, by simp⟩
  | generic001 =>
    refine ⟨".001".toList, ?_, by simp⟩
    rw [firstPartName, generic001Name, List.append_assoc]
    rfl

variable {archive : MultiPartArchive}

theorem parent_of_detect (found : detect disk path = some archive) :
    archive.firstPart.parent = path.parent := by
  rw [(detect_eq_some_iff.mp found).1]
  simp only [detected, resolveOrLiteral]
  cases resolved : resolveIgnoringCase disk path.parent
    (firstPartName archive.baseName archive.format) with
  | some => exact parent_of_resolveIgnoringCase resolved
  | none => rfl

theorem firstPartName_of_detect (joins : LowercaseJoins) (found : detect disk path = some archive) :
    toLowercase archive.firstPart.name =
      firstPartName archive.baseName archive.format := by
  obtain ⟨same, read, -⟩ := detect_eq_some_iff.mp found
  obtain ⟨⟨rest, starts⟩, -⟩ := conventionBase_spec read
  rw [same]
  simp only [detected, resolveOrLiteral]
  cases resolved : resolveIgnoringCase disk path.parent
    (firstPartName archive.baseName archive.format) with
  | some => exact (resolveIgnoringCase_spec resolved).2
  | none =>
    obtain ⟨back, written, plain⟩ := firstPartName_eq archive.baseName archive.format
    simp only [getD_none]
    rw [written, joins path.name archive.baseName rest back starts plain]

omit [CharTables] in
theorem generic001_not_sevenZip {name baseName base : Str}
    (read : generic001Base name = some baseName) (notSevenZip : sevenZipBase name = none)
    (valid : isBase base = true) : baseName ++ marker .generic001 ≠ base ++ marker .sevenZip := by
  intro same
  obtain ⟨digits, captured, threeDigits, -⟩ := (@numberedBase_eq_some_iff _ .generic001 _ _).mp read
  obtain ⟨written, -, someDigits, areDigits⟩ := captureNumbered_eq_some_iff.mp captured
  rw [same] at written
  have readAgain := captureNumbered_eq_some_iff.mpr ⟨written, valid, someDigits, areDigits⟩
  have isSevenZip : numberedBase .sevenZip name = some base :=
    numberedBase_eq_some_iff.mpr ⟨digits, readAgain, threeDigits⟩
  rw [show numberedBase .sevenZip name = none from notSevenZip] at isSevenZip
  cases isSevenZip

theorem detect_firstPart_iff (joins : LowercaseJoins) (found : detect disk path = some archive) :
    detect disk archive.firstPart = some archive ↔
      FirstPartRecognised disk path.parent archive.baseName archive.format := by
  have inParent := parent_of_detect found
  have named := firstPartName_of_detect joins found
  obtain ⟨same, read, others⟩ := detect_eq_some_iff.mp found
  obtain ⟨-, valid⟩ := conventionBase_spec read
  rw [detect_eq_some_iff, inParent, named]
  obtain ⟨_, _, format, baseName⟩ := archive
  simp only at same read others valid ⊢
  rw [and_iff_right same]
  cases format with
  | rarPart =>
    have order : before .rarPart = [] := rfl
    simp only [order, FirstPartRecognised, iff_true]
    exact ⟨conventionBase_firstNumber valid rfl, by simp⟩
  | rarSequence =>
    have order : before .rarSequence = [.rarPart] := rfl
    rw [firstPartName, conventionBase_rar_iff valid, order]
    simp only [List.mem_singleton, forall_eq, FirstPartRecognised]
    rfl
  | sevenZip =>
    have order : before .sevenZip = [.rarPart, .rarSequence] := rfl
    have written : firstPartName baseName .sevenZip = numberedName .sevenZip baseName 3 1 := by
      simp [firstPartName, sevenZipName, numberedName, marker, ending]
    simp only [FirstPartRecognised, iff_true]
    refine ⟨conventionBase_firstNumber valid rfl, ?_⟩
    intro format earlier
    rw [written]
    refine conventionBase_other rfl fun base _ => marker_differ ?_
    rw [order] at earlier
    revert earlier
    cases format <;> decide
  | zipSplit =>
    rw [firstPartName, conventionBase_zip_iff valid, FirstPartRecognised]
    exact and_iff_left fun _ => conventionBase_zip_before
  | generic001 =>
    have order : before .generic001 = [.rarPart, .rarSequence, .sevenZip, .zipSplit] := rfl
    have written : firstPartName baseName .generic001 = numberedName .generic001 baseName 3 1 := by
      simp [firstPartName, generic001Name, numberedName, marker, ending]
    simp only [FirstPartRecognised, iff_true]
    refine ⟨conventionBase_firstNumber valid rfl, ?_⟩
    intro format earlier
    rw [written]
    refine conventionBase_other rfl fun base baseValid => ?_
    by_cases isSevenZip : format = .sevenZip
    · subst isSevenZip
      exact generic001_not_sevenZip read (others .sevenZip earlier) baseValid
    · refine marker_differ ?_
      rw [order] at earlier
      revert earlier isSevenZip
      cases format <;> decide

/-- A set is detected again on its first part exactly if the first part is read as a part of
that set. -/
theorem first_part_redetected_iff (joins : LowercaseJoins) {path : FilePath}
    {archive : MultiPartArchive} (found : detect disk path = some archive) :
    (∃ again, detect disk archive.firstPart = some again ∧ again.format = archive.format ∧
      again.baseName = archive.baseName ∧ again.firstPart = archive.firstPart) ↔
      FirstPartRecognised disk path.parent archive.baseName archive.format := by
  rw [← detect_firstPart_iff joins found]
  constructor
  · rintro ⟨again, redetected, sameFormat, sameBase, sameFirst⟩
    have noParts := congrArg MultiPartArchive.allParts (detect_eq_some_iff.mp found).1
    have noPartsAgain := congrArg MultiPartArchive.allParts (detect_eq_some_iff.mp redetected).1
    rw [redetected]
    obtain ⟨_, _, _, _⟩ := archive
    obtain ⟨_, _, _, _⟩ := again
    simp only [detected] at sameFormat sameBase sameFirst noParts noPartsAgain
    rw [sameFormat, sameBase, sameFirst, noParts, noPartsAgain]
  · exact fun redetected => ⟨archive, redetected, rfl, rfl, rfl⟩

end

section

theorem asciiTables_lowercaseJoins : @LowercaseJoins asciiTables := by
  intro text front rest back lowered plain
  have settled : ∀ char ∈ front ++ back, char.toLower = char := by
    intro char mem
    rcases List.mem_append.mp mem with before | behind
    · have fromText : char ∈ text.map Char.toLower := by
        rw [show text.map Char.toLower = front ++ rest from lowered]
        exact List.mem_append_left rest before
      obtain ⟨upper, -, rfl⟩ := List.mem_map.mp fromText
      exact toLower_toLower upper
    · apply Char.toNat_inj.mp
      rw [toNat_toLower, if_neg]
      rintro ⟨above, _⟩
      rcases plain char behind with lower | digit | rfl
      · have small : 97 ≤ char.toNat :=
          UInt32.le_iff_toNat_le.mp (of_decide_eq_true (Bool.and_eq_true_iff.mp lower).1)
        omega
      · simp only [Char.isDigit, Bool.and_eq_true, decide_eq_true_eq, ge_iff_le,
          UInt32.le_iff_toNat_le] at digit
        have small : char.toNat ≤ 57 := digit.2
        omega
      · exact absurd above (by decide)
  exact (List.map_congr_left settled).trans (List.map_id' _)

attribute [local instance] asciiTables asciiDigits

def inDirectory (name : String) : FilePath where
  parent := "d".toList
  name := name.toList

/-- The second part of a numbered set leads back to the set through the first. -/
theorem first_part_redetected_part2 : ∃ again,
    detect [inDirectory "X.part1.rar", inDirectory "X.part2.rar"]
      (inDirectory "X.part1.rar") = some again ∧
      again.format = .rarPart ∧ again.baseName = "x".toList ∧
      again.firstPart = inDirectory "X.part1.rar" := by
  have found : detect [inDirectory "X.part1.rar", inDirectory "X.part2.rar"]
      (inDirectory "X.part2.rar") = some ⟨inDirectory "X.part1.rar", [], .rarPart, "x".toList⟩ := by
    decide +kernel
  exact (first_part_redetected_iff asciiTables_lowercaseJoins found).mpr trivial

/-- Without its `.r00` the `.rar` of a sequence is not detected again. -/
theorem first_part_not_redetected : ∃ archive, detect [inDirectory "x.rar", inDirectory "x.r01"]
    (inDirectory "x.r01") = some archive ∧
      archive.firstPart ∈ [inDirectory "x.rar", inDirectory "x.r01"] ∧
      detect [inDirectory "x.rar", inDirectory "x.r01"] archive.firstPart = none := by
  refine ⟨⟨inDirectory "x.rar", [], .rarSequence, "x".toList⟩, ?_, ?_, ?_⟩
  · decide +kernel
  · decide +kernel
  · decide +kernel

end

end Arclain.MultiPart
