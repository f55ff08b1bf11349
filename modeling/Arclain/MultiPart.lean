import Arclain.Text
import Mathlib.Data.List.Nodup
import Mathlib.Data.List.Perm.Subperm

namespace Arclain.MultiPart

/-!
# The parts of a split archive

`find_all_parts` looks up the numbered names of a set in its directory until
one is missing.  The loop has no bound of its own: it ends because two numbers
never name the same file and a directory has finitely many.
-/

open List Text Option

structure FilePath where
  parent : Str
  name : Str
  deriving DecidableEq

/-- The naming conventions of split archives. -/
inductive MultiPartFormat where
  | rarPart
  | rarSequence
  | sevenZip
  | zipSplit
  | generic001
  deriving DecidableEq

/-- `resolve_ignoring_case`: the first file read from the directory whose lower-cased name
is this one. -/
def resolveIgnoringCase [CharTables] (disk : List FilePath)
    (parent nameLower : Str) : Option FilePath :=
  disk.find? fun file => file.parent = parent && CharTables.toLowercase file.name = nameLower

/-- Collect what the numbers from a first one on resolve to, until one does not. -/
def collectParts (resolve : Nat → Option FilePath) : Nat → Nat → List FilePath
  | 0, _ => []
  | rounds + 1, number =>
    match resolve number with
    | some part => part :: collectParts resolve rounds (number + 1)
    | none => []

/-- `base.part1.rar`. -/
def rarPartName (baseName : Str) (number : Nat) : Str :=
  baseName ++ ".part".toList ++ decimal number ++ ".rar".toList

/-- `base.r00`, with the given number of digits. -/
def rarSequenceName (baseName : Str) (width number : Nat) : Str :=
  baseName ++ ".r".toList ++ paddedDecimal width number

/-- `base.7z.001`. -/
def sevenZipName (baseName : Str) (number : Nat) : Str :=
  baseName ++ ".7z.".toList ++ paddedDecimal 3 number

/-- `base.z01`. -/
def zipSplitName (baseName : Str) (number : Nat) : Str :=
  baseName ++ ".z".toList ++ paddedDecimal 2 number

/-- `base.001`. -/
def generic001Name (baseName : Str) (number : Nat) : Str :=
  baseName ++ ".".toList ++ paddedDecimal 3 number

section

variable [CharTables] (disk : List FilePath) (parent baseName : Str)

/-- The part a number stands for, under each naming convention. -/
def resolvePart : MultiPartFormat → Nat → Option FilePath
  | .rarPart, number => resolveIgnoringCase disk parent (rarPartName baseName number)
  | .rarSequence, number =>
    (resolveIgnoringCase disk parent (rarSequenceName baseName 2 number)).or
      (resolveIgnoringCase disk parent (rarSequenceName baseName 3 number))
  | .sevenZip, number => resolveIgnoringCase disk parent (sevenZipName baseName number)
  | .zipSplit, number => resolveIgnoringCase disk parent (zipSplitName baseName number)
  | .generic001, number => resolveIgnoringCase disk parent (generic001Name baseName number)

def numberedParts (format : MultiPartFormat) (first : Nat) : List FilePath :=
  collectParts (resolvePart disk parent baseName format) (disk.length + 1) first

/-- `find_all_parts`: a RAR sequence starts with its `.rar`, a split ZIP ends with its
`.zip`. -/
def findAllParts : MultiPartFormat → List FilePath
  | .rarPart => numberedParts disk parent baseName .rarPart 1
  | .rarSequence =>
    (resolveIgnoringCase disk parent (baseName ++ ".rar".toList)).toList ++
      numberedParts disk parent baseName .rarSequence 0
  | .sevenZip => numberedParts disk parent baseName .sevenZip 1
  | .zipSplit =>
    numberedParts disk parent baseName .zipSplit 1 ++
      (resolveIgnoringCase disk parent (baseName ++ ".zip".toList)).toList
  | .generic001 => numberedParts disk parent baseName .generic001 1

end

variable {resolve : Nat → Option FilePath} {rounds first : Nat}

theorem mem_collectParts {part : FilePath} (mem : part ∈ collectParts resolve rounds first) :
    ∃ number, first ≤ number ∧ resolve number = some part := by
  induction rounds generalizing first with
  | zero => cases mem
  | succ rounds ih =>
    simp only [collectParts] at mem
    split at mem
    next resolved =>
      rcases mem_cons.mp mem with rfl | later
      · exact ⟨first, Nat.le_refl first, resolved⟩
      · obtain ⟨number, _, resolves⟩ := ih later
        exact ⟨number, by omega, resolves⟩
    · cases mem

theorem nodup_collectParts (injective :
    ∀ {first second part}, resolve first = some part → resolve second = some part → first = second)
    (rounds first : Nat) : (collectParts resolve rounds first).Nodup := by
  induction rounds generalizing first with
  | zero => exact nodup_nil
  | succ rounds ih =>
    simp only [collectParts]
    split
    next resolved =>
      refine nodup_cons.mpr ⟨?_, ih (first + 1)⟩
      intro again
      obtain ⟨_, _, resolves⟩ := mem_collectParts again
      have same := injective resolved resolves
      omega
    · exact nodup_nil

theorem collectParts_stops (short : (collectParts resolve rounds first).length < rounds) :
    resolve (first + (collectParts resolve rounds first).length) = none := by
  induction rounds generalizing first with
  | zero => simp at short
  | succ rounds ih =>
    cases resolved : resolve first with
    | none => simp [collectParts, resolved]
    | some =>
      simp only [collectParts, resolved, length_cons] at short ⊢
      have stops := @ih (first + 1) (by omega)
      rw [← stops]
      congr 1
      omega

section

variable [CharTables] {disk : List FilePath} {parent baseName : Str}

theorem resolveIgnoringCase_spec {nameLower : Str} {file : FilePath}
    (resolved : resolveIgnoringCase disk parent nameLower = some file) :
    file ∈ disk ∧ CharTables.toLowercase file.name = nameLower := by
  have found := List.find?_some resolved
  simp only [Bool.and_eq_true, decide_eq_true_eq] at found
  exact ⟨mem_of_find?_eq_some resolved, found.2⟩

variable {format : MultiPartFormat} {part : FilePath}

theorem mem_of_resolvePart {number : Nat}
    (resolved : resolvePart disk parent baseName format number = some part) : part ∈ disk := by
  cases format with
  | rarSequence =>
    rcases or_eq_some_iff.mp resolved with
      twoDigits | ⟨-, threeDigits⟩
    · exact (resolveIgnoringCase_spec twoDigits).1
    · exact (resolveIgnoringCase_spec threeDigits).1
  | _ => exact (resolveIgnoringCase_spec resolved).1

theorem resolvePart_injective {first second : Nat}
    (firstResolved : resolvePart disk parent baseName format first = some part)
    (secondResolved : resolvePart disk parent baseName format second = some part) :
    first = second := by
  have sameName {firstName secondName : Str} (firstFound :
      resolveIgnoringCase disk parent firstName = some part)
      (secondFound : resolveIgnoringCase disk parent secondName = some part) :
      firstName = secondName := by
    rw [← (resolveIgnoringCase_spec firstFound).2, ← (resolveIgnoringCase_spec secondFound).2]
  cases format with
  | rarPart =>
    have same := sameName firstResolved secondResolved
    simp only [rarPartName] at same
    exact decimal_injective (append_cancel_left (append_cancel_right same))
  | rarSequence =>
    have read {number : Nat} (resolved :
        resolvePart disk parent baseName .rarSequence number = some part) :
        ∃ width, resolveIgnoringCase disk parent
          (rarSequenceName baseName width number) = some part := by
      rcases or_eq_some_iff.mp resolved with
        twoDigits | ⟨-, threeDigits⟩
      · exact ⟨2, twoDigits⟩
      · exact ⟨3, threeDigits⟩
    obtain ⟨_, firstFound⟩ := read firstResolved
    obtain ⟨_, secondFound⟩ := read secondResolved
    have same := sameName firstFound secondFound
    simp only [rarSequenceName] at same
    exact paddedDecimal_injective (append_cancel_left same)
  | sevenZip =>
    have same := sameName firstResolved secondResolved
    simp only [sevenZipName] at same
    exact paddedDecimal_injective (append_cancel_left same)
  | zipSplit =>
    have same := sameName firstResolved secondResolved
    simp only [zipSplitName] at same
    exact paddedDecimal_injective (append_cancel_left same)
  | generic001 =>
    have same := sameName firstResolved secondResolved
    simp only [generic001Name] at same
    exact paddedDecimal_injective (append_cancel_left same)

theorem length_numberedParts_le (format : MultiPartFormat) (first : Nat) :
    (numberedParts disk parent baseName format first).length ≤ disk.length := by
  have listed : collectParts (resolvePart disk parent baseName format)
      (disk.length + 1) first ⊆ disk := by
    intro _ mem
    obtain ⟨_, -, resolved⟩ := mem_collectParts mem
    exact mem_of_resolvePart resolved
  have distinct :=
    nodup_collectParts (fun firstResolved secondResolved =>
      @resolvePart_injective _ disk parent baseName format _ _ _ firstResolved secondResolved)
      (disk.length + 1) first
  exact (List.Nodup.subperm distinct listed).length_le

theorem numberedParts_stops (format : MultiPartFormat) (first : Nat) :
    resolvePart disk parent baseName format
      (first + (numberedParts disk parent baseName format first).length) = none := by
  apply collectParts_stops
  have bounded := @length_numberedParts_le _ disk parent baseName format first
  rw [numberedParts] at bounded
  omega

theorem findAllParts_subset (format : MultiPartFormat) :
    findAllParts disk parent baseName format ⊆ disk := by
  have numbered (format : MultiPartFormat) (first : Nat) :
      numberedParts disk parent baseName format first ⊆ disk := by
    intro part mem
    obtain ⟨_, -, resolved⟩ := mem_collectParts mem
    exact mem_of_resolvePart resolved
  have single (name : Str) : (resolveIgnoringCase disk parent name).toList ⊆ disk := by
    intro part mem
    exact (resolveIgnoringCase_spec (mem_toList.mp mem)).1
  cases format with
  | rarSequence => exact append_subset.mpr ⟨single _, numbered _ _⟩
  | zipSplit => exact append_subset.mpr ⟨numbered _ _, single _⟩
  | _ => exact numbered _ _

end

end Arclain.MultiPart
