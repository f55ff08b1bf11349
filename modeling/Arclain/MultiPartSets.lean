import Arclain.MultiPartDetection

namespace Arclain.MultiPart

/-!
# The sets that are enumerated

A set is enumerated from the first number of its convention on, each number written in the
one or two ways the enumeration knows.  A file of the set is found exactly if every number
up to its own is present in that spelling.
-/

open List Option Text CharTables

section

variable {resolve : Nat → Option FilePath} {part : FilePath}

theorem mem_collectParts_of_resolved {rounds first number : Nat}
    (after : first ≤ number) (bounded : number < first + rounds)
    (smaller : ∀ other, first ≤ other → other < number → resolve other ≠ none)
    (resolved : resolve number = some part) : part ∈ collectParts resolve rounds first := by
  induction rounds generalizing first with
  | zero => omega
  | succ rounds ih =>
    rcases Nat.eq_or_lt_of_le after with rfl | later
    · simp [collectParts, resolved]
    · obtain ⟨earlier, found⟩ :=
        ne_none_iff_exists'.mp (smaller first (Nat.le_refl first) later)
      simp only [collectParts, found]
      refine mem_cons_of_mem earlier (ih later (by omega) ?_)
      exact fun other afterFirst beforeNumber => smaller other (by omega) beforeNumber

theorem resolved_of_mem_collectParts {rounds first : Nat}
    (mem : part ∈ collectParts resolve rounds first) :
    ∃ number, first ≤ number ∧ resolve number = some part ∧
      ∀ other, first ≤ other → other < number → resolve other ≠ none := by
  induction rounds generalizing first with
  | zero => cases mem
  | succ rounds ih =>
    simp only [collectParts] at mem
    split at mem
    next resolved =>
      rcases mem_cons.mp mem with rfl | later
      · exact ⟨first, Nat.le_refl first, resolved, by omega⟩
      · obtain ⟨number, _, resolves, smaller⟩ := ih later
        refine ⟨number, by omega, resolves, ?_⟩
        intro other afterFirst beforeNumber
        rcases Nat.eq_or_lt_of_le afterFirst with rfl | afterSecond
        · simp [resolved]
        · exact smaller other afterSecond beforeNumber
    · cases mem

theorem pairwise_collectParts (rounds first : Nat) :
    (collectParts resolve rounds first).Pairwise fun earlier later =>
      ∃ number next, number < next ∧ resolve number = some earlier ∧ resolve next = some later := by
  induction rounds generalizing first with
  | zero => exact .nil
  | succ rounds ih =>
    simp only [collectParts]
    split
    next resolved =>
      refine .cons ?_ (ih (first + 1))
      intro later mem
      obtain ⟨number, after, resolves⟩ := mem_collectParts mem
      exact ⟨first, number, after, resolved, resolves⟩
    · exact .nil

end

def firstNumber : MultiPartFormat → Nat
  | .rarSequence => 0
  | _ => 1

def enumeratedNames (baseName : Str) (number : Nat) : MultiPartFormat → List Str
  | .rarPart => [rarPartName baseName number]
  | .rarSequence => [rarSequenceName baseName 2 number, rarSequenceName baseName 3 number]
  | .sevenZip => [sevenZipName baseName number]
  | .zipSplit => [zipSplitName baseName number]
  | .generic001 => [generic001Name baseName number]

def plainName (baseName : Str) : MultiPartFormat → Option Str
  | .rarSequence => some (baseName ++ ".rar".toList)
  | .zipSplit => some (baseName ++ ".zip".toList)
  | _ => none

section

variable [CharTables] {disk : List FilePath} {parent baseName : Str}

def lookUp (disk : List FilePath) (parent : Str) (names : List Str) : Option FilePath :=
  names.findSome? (resolveIgnoringCase disk parent)

theorem resolvePart_eq (format : MultiPartFormat) (number : Nat) :
    resolvePart disk parent baseName format number =
      lookUp disk parent (enumeratedNames baseName number format) := by
  cases format with
  | rarSequence =>
    simp only [resolvePart, lookUp, enumeratedNames, findSome?_cons, findSome?_nil]
    cases resolveIgnoringCase disk parent (rarSequenceName baseName 2 number) with
    | some found => rfl
    | none =>
      cases resolveIgnoringCase disk parent (rarSequenceName baseName 3 number) with
      | some found | none => rfl
  | _ =>
    simp only [resolvePart, lookUp, enumeratedNames, findSome?_cons, findSome?_nil]
    split
    next found => rw [found]
    next missing => rw [missing]

def Present (disk : List FilePath) (parent : Str) (names : List Str) : Prop :=
  ∃ file ∈ disk, file.parent = parent ∧ toLowercase file.name ∈ names

theorem resolveIgnoringCase_ne_none_iff {name : Str} : resolveIgnoringCase disk parent name ≠ none ↔
    Present disk parent [name] := by
  rw [ne_none_iff_isSome, resolveIgnoringCase, find?_isSome]
  simp [Present]

variable {names : List Str}

theorem lookUp_ne_none_iff : lookUp disk parent names ≠ none ↔ Present disk parent names := by
  rw [lookUp, ne_eq, findSome?_eq_none_iff]
  constructor
  · intro found
    push Not at found
    obtain ⟨_, mem, resolved⟩ := found
    obtain ⟨file, listed, inParent, named⟩ := resolveIgnoringCase_ne_none_iff.mp resolved
    exact ⟨file, listed, inParent, mem_singleton.mp named ▸ mem⟩
  · rintro ⟨file, listed, inParent, named⟩ missing
    refine absurd (missing _ named) (resolveIgnoringCase_ne_none_iff.mpr ?_)
    exact ⟨file, listed, inParent, mem_singleton_self _⟩

variable {file : FilePath}

theorem lookUp_spec (found : lookUp disk parent names = some file) :
    file ∈ disk ∧ toLowercase file.name ∈ names := by
  obtain ⟨_, mem, resolved⟩ := exists_of_findSome?_eq_some found
  obtain ⟨listed, named⟩ := resolveIgnoringCase_spec resolved
  exact ⟨listed, named ▸ mem⟩

/-- The first file read with one of the names, and no file has a name before its own. -/
structure Picked (disk : List FilePath) (parent : Str) (names : List Str)
    (file : FilePath) : Prop where
  named : toLowercase file.name ∈ names
  first : resolveIgnoringCase disk parent (toLowercase file.name) = some file
  preferred : ∀ name ∈ names.takeWhile (· ≠ toLowercase file.name),
    ¬ Present disk parent [name]

theorem lookUp_eq_some_iff :
    lookUp disk parent names = some file ↔ Picked disk parent names file := by
  induction names with
  | nil =>
    constructor
    · intro found
      cases found
    · intro picked
      cases picked.named
  | cons name names ih =>
    rw [lookUp, findSome?_cons]
    by_cases own : name = toLowercase file.name
    · constructor
      · intro found
        have first : resolveIgnoringCase disk parent name = some file := by
          cases resolved : resolveIgnoringCase disk parent name with
          | some other =>
            rw [resolved] at found
            exact found
          | none =>
            rw [resolved] at found
            obtain ⟨_, -, again⟩ := exists_of_findSome?_eq_some found
            rw [← (resolveIgnoringCase_spec again).2, ← own, resolved] at again
            cases again
        exact ⟨by simp [own], own ▸ first, by simp [own]⟩
      · intro picked
        rw [own, picked.first]
    · have earlier : (name :: names).takeWhile (· ≠ toLowercase file.name) =
          name :: names.takeWhile (· ≠ toLowercase file.name) := by
        simp [own]
      constructor
      · intro found
        cases resolved : resolveIgnoringCase disk parent name with
        | some other =>
          rw [resolved] at found
          rw [some.inj found] at resolved
          exact absurd (resolveIgnoringCase_spec resolved).2.symm own
        | none =>
          rw [resolved] at found
          have picked := ih.mp found
          refine ⟨mem_cons_of_mem name picked.named, picked.first, ?_⟩
          rw [earlier]
          refine forall_mem_cons.mpr ⟨?_, picked.preferred⟩
          rw [← resolveIgnoringCase_ne_none_iff, resolved]
          exact fun present => present rfl
      · intro picked
        have before := picked.preferred
        rw [earlier, forall_mem_cons, ← resolveIgnoringCase_ne_none_iff, not_not] at before
        rw [before.1]
        refine ih.mpr ⟨?_, picked.first, before.2⟩
        exact (mem_cons.mp picked.named).resolve_left (Ne.symm own)

/-- Where the enumeration finds a file: under the name without a number, or under a number
that every smaller one leads to. -/
inductive Reached (disk : List FilePath) (parent baseName : Str) (format : MultiPartFormat)
    (part : FilePath) : Prop where
  | plain (name : Str) (isPlain : plainName baseName format = some name)
      (found : Picked disk parent [name] part)
  | numbered (number : Nat) (inRange : firstNumber format ≤ number) (found :
      Picked disk parent (enumeratedNames baseName number format) part)
      (smaller : ∀ other, firstNumber format ≤ other → other < number →
        Present disk parent (enumeratedNames baseName other format))

variable {format : MultiPartFormat} {part : FilePath}

theorem mem_numberedParts_iff :
    part ∈ numberedParts disk parent baseName format (firstNumber format) ↔
      ∃ number, firstNumber format ≤ number ∧
        lookUp disk parent (enumeratedNames baseName number format) = some part ∧
        ∀ other, firstNumber format ≤ other → other < number →
          Present disk parent (enumeratedNames baseName other format) := by
  simp only [← resolvePart_eq, ← lookUp_ne_none_iff]
  constructor
  · exact resolved_of_mem_collectParts
  · rintro ⟨number, inRange, found, smaller⟩
    refine mem_collectParts_of_resolved inRange ?_ smaller found
    by_contra beyond
    have stops := @numberedParts_stops _ disk parent baseName format (firstNumber format)
    have short := @length_numberedParts_le _ disk parent baseName format (firstNumber format)
    exact smaller _ (Nat.le_add_right _ _) (by omega) stops

theorem findAllParts_eq (format : MultiPartFormat) :
    findAllParts disk parent baseName format = (if format = .rarSequence then
      (lookUp disk parent [baseName ++ ".rar".toList]).toList
      else
        []) ++ numberedParts disk parent baseName format (firstNumber format) ++
        (if format = .zipSplit then (lookUp disk parent [baseName ++ ".zip".toList]).toList
        else
          []) := by
  have single (name : Str) : lookUp disk parent [name] = resolveIgnoringCase disk parent name := by
    rw [lookUp, findSome?_singleton]
  cases format with
  | rarSequence | zipSplit => simp [findAllParts, firstNumber, single]
  | rarPart | sevenZip | generic001 => simp [findAllParts, firstNumber]

theorem mem_findAllParts_iff :
    part ∈ findAllParts disk parent baseName format ↔ Reached disk parent baseName format part := by
  rw [findAllParts_eq, mem_append, mem_append, mem_numberedParts_iff]
  constructor
  · rintro ((before | ⟨number, inRange, found, smaller⟩) | behind)
    · split at before
      next isSequence =>
        subst isSequence
        exact .plain _ rfl (lookUp_eq_some_iff.mp (mem_toList.mp before))
      · cases before
    · exact .numbered number inRange (lookUp_eq_some_iff.mp found) smaller
    · split at behind
      next isSplit =>
        subst isSplit
        exact .plain _ rfl (lookUp_eq_some_iff.mp (mem_toList.mp behind))
      · cases behind
  · intro reached
    cases reached with
    | plain _ isPlain found =>
      cases format with
      | rarSequence =>
        cases isPlain
        exact .inl (.inl (by simpa using lookUp_eq_some_iff.mpr found))
      | zipSplit =>
        cases isPlain
        exact .inr (by simpa using lookUp_eq_some_iff.mpr found)
      | rarPart | sevenZip | generic001 => cases isPlain
    | numbered number inRange found smaller =>
      exact .inl (.inr ⟨number, inRange, lookUp_eq_some_iff.mpr found, smaller⟩)

end

end Arclain.MultiPart
