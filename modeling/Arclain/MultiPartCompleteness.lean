import Arclain.MultiPartFirstPart

namespace Arclain.MultiPart

/-!
# Which parts of a set are found

Detection accepts digits of any count, and the enumeration writes each number in one
spelling (two for the sequences of RAR).  A part is found if it is spelled that way and so
is every number before it.
-/

open List Option Text CharTables MultiPartArchive

/-- By number, with the `.rar` of a sequence before its numbers and the `.zip` of a split
behind them. -/
inductive Precedes (baseName : Str) : MultiPartFormat → Str → Str → Prop
  | numbers (format : MultiPartFormat) (firstWidth secondWidth first second : Nat)
      (smaller : first < second) :
      Precedes baseName format (numberedName format baseName firstWidth first)
        (numberedName format baseName secondWidth second)
  | opening (width number : Nat) : Precedes baseName .rarSequence (baseName ++ ".rar".toList)
      (numberedName .rarSequence baseName width number)
  | closing (width number : Nat) : Precedes baseName .zipSplit
      (numberedName .zipSplit baseName width number)
      (baseName ++ ".zip".toList)

theorem plainName_ne_numberedName {format : MultiPartFormat} {baseName name : Str}
    {width number : Nat} (isPlain : plainName baseName format = some name) :
    name ≠ numberedName format baseName width number := by
  have letters {front back : Str} {letter : Char} (noDigit : letter.isDigit = false)
      (same : baseName ++ front ++ letter :: back =
        baseName ++ front ++ paddedDecimal width number ++ []) :
      False := by
    rw [append_nil, append_cancel_left_eq] at same
    have mem : letter ∈ paddedDecimal width number := by simp [← same]
    rw [isDigit_of_mem_paddedDecimal mem] at noDigit
    cases noDigit
  rintro rfl
  cases format with
  | rarSequence =>
    have same := some.inj isPlain
    exact @letters ".r".toList "r".toList 'a' (by decide)
      (by simpa [numberedName, marker, ending] using same)
  | zipSplit =>
    have same := some.inj isPlain
    exact @letters ".z".toList "p".toList 'i' (by decide)
      (by simpa [numberedName, marker, ending] using same)
  | rarPart | sevenZip | generic001 => cases isPlain

theorem Precedes.ne {format : MultiPartFormat} {baseName first second : Str}
    (precedes : Precedes baseName format first second) : first ≠ second := by
  cases precedes with
  | numbers _ _ first second =>
    intro same
    have sameNumber := numberedName_injective same
    omega
  | opening width number => exact @plainName_ne_numberedName .rarSequence _ _ width number rfl
  | closing width number => exact (@plainName_ne_numberedName .zipSplit _ _ width number rfl).symm

section

variable [CharTables] {disk : List FilePath} {parent baseName : Str}

def InPartOrder (format : MultiPartFormat) (baseName : Str) (files : List FilePath) : Prop :=
  files.Pairwise fun earlier later =>
    Precedes baseName format (toLowercase earlier.name)
      (toLowercase later.name)

variable {format : MultiPartFormat}

theorem InPartOrder.nodup {files : List FilePath}
    (ordered : InPartOrder format baseName files) : files.Nodup := by
  refine List.Pairwise.imp ?_ ordered
  intro _ _ precedes same
  exact precedes.ne (congrArg (fun file => toLowercase file.name) same)

variable {file : FilePath}

theorem numbered_of_lookUp {number : Nat} (found :
    lookUp disk parent (enumeratedNames baseName number format) = some file) :
    ∃ width, toLowercase file.name = numberedName format baseName width number :=
  enumeratedNames_numbered (lookUp_spec found).2

theorem inPartOrder_findAllParts (format : MultiPartFormat) :
    InPartOrder format baseName (findAllParts disk parent baseName format) := by
  have numbered : InPartOrder format baseName
      (numberedParts disk parent baseName format (firstNumber format)) := by
    refine List.Pairwise.imp ?_ (pairwise_collectParts _ _)
    rintro earlier later ⟨first, second, smaller, foundFirst, foundSecond⟩
    rw [resolvePart_eq] at foundFirst foundSecond
    obtain ⟨firstWidth, firstNamed⟩ := numbered_of_lookUp foundFirst
    obtain ⟨secondWidth, secondNamed⟩ := numbered_of_lookUp foundSecond
    rw [firstNamed, secondNamed]
    exact .numbers format firstWidth secondWidth first second smaller
  have named {file : FilePath} (mem :
      file ∈ numberedParts disk parent baseName format (firstNumber format)) :
      ∃ width number, toLowercase file.name =
        numberedName format baseName width number := by
    obtain ⟨number, -, found, -⟩ := mem_numberedParts_iff.mp mem
    obtain ⟨width, named⟩ := numbered_of_lookUp found
    exact ⟨width, number, named⟩
  have plain {name : Str} {file : FilePath} (mem : file ∈ (lookUp disk parent [name]).toList) :
      toLowercase file.name = name :=
    mem_singleton.mp (lookUp_spec (mem_toList.mp mem)).2
  have single (name : Str) : InPartOrder format baseName (lookUp disk parent [name]).toList := by
    cases lookUp disk parent [name] with
    | none => exact .nil
    | some file => exact pairwise_singleton _ _
  rw [findAllParts_eq]
  cases format with
  | rarSequence =>
    rw [if_pos rfl, if_neg (by decide), append_nil]
    refine pairwise_append.mpr ⟨single _, numbered, ?_⟩
    intro earlier opens later mem
    obtain ⟨width, number, laterNamed⟩ := named mem
    rw [plain opens, laterNamed]
    exact .opening width number
  | zipSplit =>
    rw [if_neg (by decide), if_pos rfl, nil_append]
    refine pairwise_append.mpr ⟨numbered, single _, ?_⟩
    intro earlier mem later closes
    obtain ⟨width, number, earlierNamed⟩ := named mem
    rw [plain closes, earlierNamed]
    exact .closing width number
  | rarPart | sevenZip | generic001 => simpa using numbered

theorem reached_iff_of_numbered {width number : Nat}
    (named : toLowercase file.name = numberedName format baseName width number) :
    Reached disk parent baseName format file ↔ firstNumber format ≤ number ∧
      Picked disk parent (enumeratedNames baseName number format) file ∧
      ∀ other, firstNumber format ≤ other → other < number →
        Present disk parent (enumeratedNames baseName other format) := by
  constructor
  · intro reached
    cases reached with
    | plain _ isPlain found =>
      have same := mem_singleton.mp found.named
      exact absurd (same.symm.trans named) (plainName_ne_numberedName isPlain)
    | numbered _ inRange found smaller =>
      obtain ⟨_, reachedNamed⟩ := enumeratedNames_numbered found.named
      rw [named] at reachedNamed
      obtain rfl := numberedName_injective reachedNamed
      exact ⟨inRange, found, smaller⟩
  · rintro ⟨inRange, found, smaller⟩
    exact .numbered number inRange found smaller

end

section

variable [CharTables] [DigitTable] {disk : List FilePath}

/-- A file belongs to a set by its base name and convention, whatever its
number. -/
def Belongs (parent baseName : Str) (format : MultiPartFormat) (file : FilePath) : Prop :=
  file.parent = parent ∧ (numberedBase format (toLowercase file.name) = some baseName ∨
    plainName baseName format = some (toLowercase file.name))

variable {path : FilePath} {archive : MultiPartArchive}

/-- All smaller numbers are present in the padding of a numbered part. -/
structure Enumerable (disk : List FilePath) (path : FilePath) (format : MultiPartFormat)
    (baseName : Str) (width number : Nat) : Prop where
  inRange : firstNumber format ≤ number
  picked : Picked disk path.parent (enumeratedNames baseName number format) path
  smaller : ∀ other, firstNumber format ≤ other → other < number →
    numberedName format baseName width other ∈ enumeratedNames baseName other format ∨
      Present disk path.parent (enumeratedNames baseName other format)

omit [DigitTable] in
theorem Present.mono {parent : Str} {names more : List Str} (present : Present disk parent names)
    (among : names ⊆ more) : Present disk parent more := by
  obtain ⟨file, listed, inParent, named⟩ := present
  exact ⟨file, listed, inParent, among named⟩

/-- With every smaller number present, a part is found exactly if the enumeration spells the
numbers as the files do. -/
theorem find_all_parts_complete_iff {path : FilePath} {archive : MultiPartArchive}
    {width number : Nat} (found : detect disk path = some archive)
    (named : toLowercase path.name =
      numberedName archive.format archive.baseName width number)
    (smaller : ∀ other, firstNumber archive.format ≤ other → other < number →
      Present disk path.parent [numberedName archive.format archive.baseName width other]) :
    (path ∈ (archive.findAllParts disk).allParts ∧ (archive.findAllParts disk).allParts.Nodup ∧
      InPartOrder archive.format archive.baseName (archive.findAllParts disk).allParts) ↔
      Enumerable disk path archive.format archive.baseName width number := by
  have ordered : InPartOrder archive.format archive.baseName (archive.findAllParts disk).allParts :=
    inPartOrder_findAllParts archive.format
  rw [and_iff_left ⟨ordered.nodup, ordered⟩, MultiPartArchive.findAllParts,
    mem_findAllParts_iff, parent_of_detect found, reached_iff_of_numbered named]
  constructor
  · rintro ⟨inRange, picked, present⟩
    exact ⟨inRange, picked, fun other after before => .inr (present other after before)⟩
  · rintro ⟨inRange, picked, spelled⟩
    refine ⟨inRange, picked, fun other after before => ?_⟩
    rcases spelled other after before with same | present
    · exact (smaller other after before).mono (cons_subset.mpr ⟨same, nil_subset _⟩)
    · exact present

end

section

attribute [local instance] asciiTables asciiDigits

/-- Unpadded parts are found up to the number of the part. -/
theorem find_all_parts_unpadded : inDirectory "a.part2.rar" ∈
    findAllParts [inDirectory "a.part2.rar", inDirectory "a.part1.rar"]
      "d".toList "a".toList .rarPart := by
  have found : detect [inDirectory "a.part2.rar", inDirectory "a.part1.rar"]
      (inDirectory "a.part2.rar") = some ⟨inDirectory "a.part1.rar", [], .rarPart, "a".toList⟩ := by
    decide +kernel
  have named : toLowercase (inDirectory "a.part2.rar").name =
      numberedName .rarPart "a".toList 0 2 := by
    decide +kernel
  refine ((find_all_parts_complete_iff found named ?_).mpr ?_).1
  · intro other after before
    obtain rfl : other = 1 := by
      simp only [firstNumber] at after
      omega
    exact ⟨inDirectory "a.part1.rar", by decide, rfl, by decide +kernel⟩
  · refine ⟨by decide, ⟨by decide +kernel, by decide +kernel, ?_⟩, ?_⟩
    · intro _ earlier
      rw [show (enumeratedNames "a".toList 2 .rarPart).takeWhile
        (· ≠ toLowercase (inDirectory "a.part2.rar").name) = []
        from by decide +kernel] at earlier
      cases earlier
    · intro other after before
      obtain rfl : other = 1 := by
        simp only [firstNumber] at after
        omega
      exact .inl (by decide +kernel)

/-- Parts padded to two digits are detected and none of them is found. -/
theorem zero_padded_parts_missed : ∃ archive,
    detect [inDirectory "a.part01.rar", inDirectory "a.part02.rar"]
      (inDirectory "a.part02.rar") = some archive ∧
      toLowercase (inDirectory "a.part02.rar").name =
        numberedName archive.format archive.baseName 2 2 ∧
      toLowercase (inDirectory "a.part01.rar").name =
        numberedName archive.format archive.baseName 2 1 ∧
      (archive.findAllParts [inDirectory "a.part01.rar", inDirectory "a.part02.rar"]).allParts =
        [] := by
  refine ⟨⟨⟨"d".toList, "a.part1.rar".toList⟩, [], .rarPart, "a".toList⟩, ?_, ?_, ?_, ?_⟩
  · decide +kernel
  · decide +kernel
  · decide +kernel
  · decide +kernel

end

section

variable [CharTables] [DigitTable] {disk : List FilePath}

omit [DigitTable] in
theorem findAllParts_eq_nil_iff {parent baseName : Str} {format : MultiPartFormat} :
    findAllParts disk parent baseName format = [] ↔ ¬ Present disk parent
      (enumeratedNames baseName (firstNumber format) format) ∧
        ∀ name, plainName baseName format = some name → ¬ Present disk parent [name] := by
  have reachedNone : findAllParts disk parent baseName format = [] ↔
      ∀ file, ¬ Reached disk parent baseName format file := by
    rw [eq_nil_iff_forall_not_mem]
    simp [mem_findAllParts_iff]
  rw [reachedNone]
  constructor
  · intro noneReached
    constructor
    · intro present
      obtain ⟨file, found⟩ := ne_none_iff_exists'.mp (lookUp_ne_none_iff.mpr present)
      exact noneReached file (.numbered _ (Nat.le_refl _) (lookUp_eq_some_iff.mp found) (by omega))
    · intro name isPlain present
      obtain ⟨file, found⟩ := ne_none_iff_exists'.mp (lookUp_ne_none_iff.mpr present)
      exact noneReached file (.plain name isPlain (lookUp_eq_some_iff.mp found))
  · rintro ⟨noFirst, noPlain⟩ file reached
    cases reached with
    | plain name isPlain found =>
      refine noPlain name isPlain (lookUp_ne_none_iff.mp ?_)
      rw [lookUp_eq_some_iff.mpr found]
      exact some_ne_none file
    | numbered _ inRange found smaller =>
      rcases Nat.eq_or_lt_of_le inRange with rfl | later
      · refine noFirst (lookUp_ne_none_iff.mp ?_)
        rw [lookUp_eq_some_iff.mpr found]
        exact some_ne_none file
      · exact noFirst (smaller _ (Nat.le_refl _) later)

/-- A complete set has all its files among the parts exactly if each is reached, or the set
is not reported complete. -/
theorem complete_has_all_parts_iff {path : FilePath} {archive : MultiPartArchive}
    (length : FilePath → Option Nat) (found : detect disk path = some archive) :
    ((archive.validate disk length).2.isComplete = true → ∀ file ∈ disk,
      Belongs path.parent archive.baseName archive.format file →
        file ∈ (archive.validate disk length).2.foundParts) ↔
      (¬ Present disk path.parent (enumeratedNames archive.baseName (firstNumber archive.format)
        archive.format) ∧ ∀ name, plainName archive.baseName archive.format = some name →
          ¬ Present disk path.parent [name]) ∨
        ∀ file ∈ disk, Belongs path.parent archive.baseName archive.format file →
          Reached disk path.parent archive.baseName archive.format file := by
  have noParts : archive.allParts = [] :=
    congrArg allParts (detect_eq_some_iff.mp found).1
  have foundParts : (archive.validate disk length).2.foundParts =
      findAllParts disk path.parent archive.baseName archive.format := by
    simp [validate, noParts, MultiPartArchive.findAllParts, parent_of_detect found]
  have isComplete : (archive.validate disk length).2.isComplete = true ↔
      findAllParts disk path.parent archive.baseName archive.format ≠ [] := by
    rw [← foundParts]
    simp [validate, findMissingParts]
  rw [isComplete, foundParts, ← findAllParts_eq_nil_iff]
  simp only [mem_findAllParts_iff]
  exact ⟨or_iff_not_imp_left.mpr,
    fun reached => reached.resolve_left⟩

end

section

attribute [local instance] asciiTables asciiDigits

/-- A set without gaps is complete with all its files. -/
theorem complete_without_gap :
    let disk := [inDirectory "x.part1.rar", inDirectory "x.part2.rar"]
    let archive : MultiPartArchive := ⟨inDirectory "x.part1.rar", [], .rarPart, "x".toList⟩
    (archive.validate disk fun _ => none).2.isComplete = true → ∀ file ∈ disk,
      Belongs "d".toList "x".toList .rarPart file →
        file ∈ (archive.validate disk fun _ => none).2.foundParts := by
  have found : detect [inDirectory "x.part1.rar", inDirectory "x.part2.rar"]
      (inDirectory "x.part2.rar") = some ⟨inDirectory "x.part1.rar", [], .rarPart, "x".toList⟩ := by
    decide +kernel
  have all : findAllParts [inDirectory "x.part1.rar", inDirectory "x.part2.rar"]
      "d".toList "x".toList .rarPart = [inDirectory "x.part1.rar", inDirectory "x.part2.rar"] := by
    decide +kernel
  refine (complete_has_all_parts_iff (fun _ => none) found).mpr (.inr ?_)
  intro file listed _
  rw [← all] at listed
  exact mem_findAllParts_iff.mp listed

/-- A set with a gap is reported complete without the part behind the gap. -/
theorem complete_with_gap : ∃ archive, detect [inDirectory "x.part1.rar", inDirectory "x.part3.rar"]
    (inDirectory "x.part1.rar") = some archive ∧
      Belongs (inDirectory "x.part1.rar").parent archive.baseName
        archive.format (inDirectory "x.part3.rar") ∧
      (archive.validate [inDirectory "x.part1.rar", inDirectory "x.part3.rar"]
        fun _ => none).2.isComplete = true ∧
      (archive.validate [inDirectory "x.part1.rar", inDirectory "x.part3.rar"]
        fun _ => none).2.foundParts = [inDirectory "x.part1.rar"] := by
  refine ⟨⟨inDirectory "x.part1.rar", [], .rarPart, "x".toList⟩, ?_, ?_, ?_, ?_⟩
  · decide +kernel
  · exact ⟨rfl, .inl (by decide +kernel)⟩
  · decide +kernel
  · decide +kernel

end

end Arclain.MultiPart
