import Mathlib.Logic.Function.Basic
import Mathlib.Tactic.Common

namespace Arclain.NamedFiles

open Option Function

/-!
# Files under names

A name stands for a file or for nothing, and several names may stand for one
file.  Writing through a name changes the file for all of its names; removing a
name leaves the file to the others.
-/

structure Disk (Name Content : Type*) where
  names : Name → Option Nat
  files : Nat → Content
  next : Nat
  bounded : ∀ name file, names name = some file → file < next

namespace Disk

variable {Name Content : Type*}

def contentAt (disk : Disk Name Content) (name : Name) : Option Content :=
  (disk.names name).map disk.files

def write (disk : Disk Name Content) (file : Nat) (content : Content) : Disk Name Content :=
  { disk with files := update disk.files file content }

theorem contentAt_write (disk : Disk Name Content) (file : Nat) (content : Content) (name : Name) :
    (disk.write file content).contentAt name =
      if disk.names name = some file then some content
      else disk.contentAt name := by
  unfold contentAt write
  cases found : disk.names name with
  | none => simp
  | some other =>
    by_cases same : other = file
    · simp [same]
    · simp [same]

def SameFile (disk : Disk Name Content) (first second : Name) : Prop :=
  first = second ∨ ∃ file, disk.names first = some file ∧ disk.names second = some file

variable {disk : Disk Name Content} {first second : Name}

theorem SameFile.contentAt_eq (same : disk.SameFile first second) :
    disk.contentAt first = disk.contentAt second := by
  rcases same with rfl | ⟨file, firstNamed, secondNamed⟩
  · rfl
  · rw [contentAt, contentAt, firstNamed, secondNamed]

theorem not_sameFile_of_contentAt (different : disk.contentAt first ≠ disk.contentAt second) :
    ¬ disk.SameFile first second :=
  fun same => different same.contentAt_eq

variable [DecidableEq Name]

def create (disk : Disk Name Content) (name : Name) (content : Content) : Disk Name Content where
  names := update disk.names name (some disk.next)
  files := update disk.files disk.next content
  next := disk.next + 1
  bounded := by
    intro other file found
    by_cases same : other = name
    · rw [same, update_self] at found
      have := Option.some.inj found
      omega
    · rw [update_of_ne same] at found
      have := disk.bounded other file found
      omega

/-- Write through a name: the file is changed, or created if there is none. -/
def store (disk : Disk Name Content) (name : Name) (content : Content) : Disk Name Content :=
  match disk.names name with
  | some file => disk.write file content
  | none => disk.create name content

def unlink (disk : Disk Name Content) (name : Name) : Disk Name Content where
  names := update disk.names name none
  files := disk.files
  next := disk.next
  bounded := by
    intro other file found
    by_cases same : other = name
    · rw [same, update_self] at found
      cases found
    · rw [update_of_ne same] at found
      exact disk.bounded other file found

variable {name other : Name} {content : Content}

theorem contentAt_store_of_same (same : disk.SameFile name other) :
    (disk.store name content).contentAt other = some content := by
  unfold store
  cases found : disk.names name with
  | some =>
    dsimp only
    rw [contentAt_write]
    rcases same with rfl | ⟨shared, named, otherNamed⟩
    · rw [if_pos found]
    · rw [found] at named
      cases named
      rw [if_pos otherNamed]
  | none =>
    rcases same with rfl | ⟨shared, named, _⟩
    · simp [contentAt, create]
    · rw [found] at named
      cases named

theorem contentAt_store_of_not_same (different : ¬ disk.SameFile name other) :
    (disk.store name content).contentAt other = disk.contentAt other := by
  have distinct : other ≠ name := fun same => different (.inl same.symm)
  unfold store
  cases found : disk.names name with
  | some file =>
    dsimp only
    rw [contentAt_write, if_neg]
    exact fun otherNamed => different (.inr ⟨file, found, otherNamed⟩)
  | none =>
    unfold contentAt create
    simp only [update_of_ne distinct]
    cases named : disk.names other with
    | none => rfl
    | some file =>
      have old := disk.bounded other file named
      rw [map_some, map_some, update_of_ne (by omega)]

theorem names_store_of_ne (distinct : other ≠ name) :
    (disk.store name content).names other = disk.names other := by
  unfold store
  split
  · rfl
  · exact update_of_ne distinct _ _

theorem sameFile_store (content : Content) : (disk.store name content).SameFile first second ↔
    disk.SameFile first second := by
  cases found : disk.names name with
  | some file =>
    have names : (disk.store name content).names = disk.names := by
      rw [store, found]
      rfl
    rw [SameFile, SameFile, names]
  | none =>
    have names : (disk.store name content).names =
        update disk.names name (some disk.next) := by
      rw [store, found]
      rfl
    rw [SameFile, SameFile, names]
    constructor
    · rintro (same | ⟨file, firstNamed, secondNamed⟩)
      · exact .inl same
      · by_cases isFirst : first = name
        · by_cases isSecond : second = name
          · exact .inl (isFirst.trans isSecond.symm)
          · rw [isFirst, update_self] at firstNamed
            rw [update_of_ne isSecond] at secondNamed
            have old := disk.bounded second file secondNamed
            have := some.inj firstNamed
            omega
        · rw [update_of_ne isFirst] at firstNamed
          by_cases isSecond : second = name
          · rw [isSecond, update_self] at secondNamed
            have old := disk.bounded first file firstNamed
            have := some.inj secondNamed
            omega
          · rw [update_of_ne isSecond] at secondNamed
            exact .inr ⟨file, firstNamed, secondNamed⟩
    · rintro (same | ⟨file, firstNamed, secondNamed⟩)
      · exact .inl same
      · have unnamed {other : Name} (named : disk.names other = some file) : other ≠ name := by
          rintro rfl
          rw [found] at named
          cases named
        refine .inr ⟨file, ?_, ?_⟩
        · rw [update_of_ne (unnamed firstNamed)]
          exact firstNamed
        · rw [update_of_ne (unnamed secondNamed)]
          exact secondNamed

@[simp] theorem contentAt_unlink_self (disk : Disk Name Content) (name : Name) :
    (disk.unlink name).contentAt name = none := by
  simp [contentAt, unlink]

theorem contentAt_unlink_of_ne (distinct : other ≠ name) :
    (disk.unlink name).contentAt other = disk.contentAt other := by
  simp [contentAt, unlink, distinct]

end Disk

end Arclain.NamedFiles
