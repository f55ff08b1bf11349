import Arclain.ApplyPlan
import Mathlib.Data.Finset.Basic
import Mathlib.Data.Finset.Lattice.Lemmas

namespace Arclain.ApplyPlan

/-!
# The swap and its rollback as two sets of names

The transaction is two sets: the originals in the backup directory and the staged entries in
the work directory.  Every rename changes one of the two by one name.
-/

open List FileStore Finset

variable {Name Content : Type} [DecidableEq Name]

section

variable (originals staged : KeyedMap Name Content)

/-- The files when these originals are backed up and these staged entries are
promoted. -/
def arranged (backedUp promoted : Finset Name) : Store (Directory × Name) Content :=
  fun place =>
    match place.1 with
    | .work =>
      if place.2 ∈ promoted then staged.lookup place.2
      else if place.2 ∈ backedUp then none
      else originals.lookup place.2
    | .staging => if place.2 ∈ promoted then none else staged.lookup place.2
    | .backup => if place.2 ∈ backedUp then originals.lookup place.2 else none

theorem arranged_empty : arranged originals staged ∅ ∅ = initialStore originals staged := by
  funext ⟨directory, name⟩
  cases directory <;> simp [arranged, initialStore]

variable {originals staged} {backedUp promoted : Finset Name} {name : Name}

theorem move_backUp (notYet : name ∉ backedUp) (notPromoted : name ∉ promoted) :
    move (arranged originals staged backedUp promoted) (.work, name) (.backup, name) =
      arranged originals staged (insert name backedUp) promoted := by
  funext ⟨directory, other⟩
  cases directory <;> grind [move, arranged]

theorem move_promote (notYet : name ∉ promoted) : move (arranged originals staged backedUp promoted)
    (.staging, name) (.work, name) = arranged originals staged backedUp (insert name promoted) := by
  funext ⟨directory, other⟩
  cases directory <;> grind [move, arranged]

theorem move_revert (isPromoted : name ∈ promoted)
    (uncovered : originals.lookup name ≠ none → name ∈ backedUp) :
    move (arranged originals staged backedUp promoted) (.work, name) (.staging, name) =
      arranged originals staged backedUp (promoted.erase name) := by
  funext ⟨directory, other⟩
  cases directory <;> grind [move, arranged]

theorem move_restore (isBackedUp : name ∈ backedUp) (free : name ∉ promoted) :
    move (arranged originals staged backedUp promoted) (.backup, name) (.work, name) =
      arranged originals staged (backedUp.erase name) promoted := by
  funext ⟨directory, other⟩
  cases directory <;> grind [move, arranged]

theorem original_present (uncovered :
    ∀ name ∈ promoted, originals.lookup name ≠ none → name ∈ backedUp)
    {content : Content} (bound : originals.lookup name = some content) :
    arranged originals staged backedUp promoted (.work, name) = some content ∨
      arranged originals staged backedUp promoted (.backup, name) = some content := by
  by_cases isBackedUp : name ∈ backedUp
  · right
    simp [arranged, isBackedUp, bound]
  · left
    have notPromoted : name ∉ promoted := by
      intro isPromoted
      exact isBackedUp (uncovered name isPromoted (by simp [bound]))
    simp [arranged, isBackedUp, notPromoted, bound]

end

/-- What the faults of one rename make of it, where its source exists and its
target is free. -/
inductive Verdict where
  | moved
  | refused
  | stranded
  deriving DecidableEq

section

variable (isDirectory : Content → Bool)

/-- A directory is stranded when the second attempt moved it and its permissions could not
be restored. -/
def MoveFaults.retryVerdict (faults : MoveFaults) (content : Option Content) : Verdict :=
  if faults.inspectSource ∨ ¬ content.any isDirectory ∨ faults.grantWrite ∨ faults.retryRename then
    .refused
  else if faults.restorePermissions then .stranded
  else .moved

/-- The verdict on one `rename_noclobber`. -/
def MoveFaults.verdict (faults : MoveFaults) (content : Option Content) : Verdict :=
  if faults.inspectTarget then .refused
  else
    match faults.rename with
    | .succeeds => .moved
    | .fails => .refused
    | .permissionDenied => faults.retryVerdict isDirectory content

def StepFaults.verdict (faults : StepFaults) (content : Option Content) : Verdict :=
  if faults.hook ∨ faults.resolveSource ∨ faults.resolveTarget then .refused
  else faults.move.verdict isDirectory content

def UndoFaults.verdict (faults : UndoFaults) (content : Option Content) : Verdict :=
  if faults.hook then .refused
  else faults.move.verdict isDirectory content

/-- What a rename answers and leaves under each verdict. -/
inductive Effect {Error : Type} (before after : Store (Directory × Name) Content) :
    Verdict → Except Error Unit × Store (Directory × Name) Content → Prop where
  | moved : Effect before after .moved (.ok (), after)
  | refused {error : Error} : Effect before after .refused (.error error, before)
  | stranded {error : Error} : Effect before after .stranded (.error error, after)

variable {store : Store (Directory × Name) Content} {source target : Directory × Name}
variable (faults : MoveFaults)

theorem renameReadOnlyDirectory_effect (content : Content) :
    Effect store (move store source target) (faults.retryVerdict isDirectory (some content))
      (renameReadOnlyDirectory isDirectory faults store source target content) := by
  unfold MoveFaults.retryVerdict renameReadOnlyDirectory
  by_cases inspected : faults.inspectSource = true
  · simp only [inspected, true_or, ↓reduceIte]
    exact .refused
  by_cases directory : isDirectory content = true
  swap
  · simp only [inspected, directory, Option.any_some, not_false_eq_true,
      true_or, or_true, Bool.false_eq_true, ↓reduceIte]
    exact .refused
  by_cases granted : faults.grantWrite = true
  · simp only [inspected, directory, granted, Option.any_some, true_or, or_true,
      not_true_eq_false, Bool.false_eq_true, ↓reduceIte]
    exact .refused
  by_cases retried : faults.retryRename = true
  · simp only [inspected, directory, granted, retried, Option.any_some,
      or_true, not_true_eq_false, Bool.false_eq_true, ↓reduceIte]
    exact .refused
  by_cases restored : faults.restorePermissions = true
  · simp only [inspected, directory, granted, retried, restored,
      Option.any_some, or_self, not_true_eq_false, Bool.false_eq_true, ↓reduceIte]
    exact .stranded
  · simp only [inspected, directory, granted, retried, restored,
      Option.any_some, or_self, not_true_eq_false, Bool.false_eq_true, ↓reduceIte]
    exact .moved

theorem renameNoclobber_effect (present : store source ≠ none) (vacant : store target = none) :
    Effect store (move store source target) (faults.verdict isDirectory (store source))
      (renameNoclobber isDirectory faults store source target) := by
  obtain ⟨content, bound⟩ := Option.ne_none_iff_exists'.mp present
  rw [bound]
  unfold MoveFaults.verdict renameNoclobber
  simp only [vacant, bound, Option.isSome_none, Bool.false_eq_true, ↓reduceIte]
  cases faults.inspectTarget with
  | true => exact .refused
  | false =>
    cases faults.rename with
    | succeeds => exact .moved
    | fails => exact .refused
    | permissionDenied => exact renameReadOnlyDirectory_effect isDirectory faults content

theorem renameNoclobber_of_occupied (occupied : store target ≠ none) :
    ∃ error, renameNoclobber isDirectory faults store source target = (.error error, store) := by
  have some : (store target).isSome = true := Option.isSome_iff_ne_none.mpr occupied
  unfold renameNoclobber
  simp only [some, ↓reduceIte]
  split
  · exact ⟨_, rfl⟩
  · exact ⟨_, rfl⟩

theorem swapStep_effect (faults : StepFaults) (present : store source ≠ none)
    (vacant : store target = none) :
    Effect store (move store source target) (faults.verdict isDirectory (store source))
      (swapStep isDirectory faults store source target) := by
  have renamed := renameNoclobber_effect isDirectory faults.move present vacant
  unfold StepFaults.verdict swapStep
  cases faults.hook with
  | true => exact .refused
  | false =>
    cases faults.resolveSource with
    | true => exact .refused
    | false =>
      cases faults.resolveTarget with
      | true => exact .refused
      | false =>
        simp only [Bool.false_eq_true, or_self, ↓reduceIte]
        revert renamed
        generalize faults.move.verdict isDirectory (store source) = verdict
        generalize renameNoclobber isDirectory faults.move store source target = answer
        rintro (_ | _ | _) <;> constructor

theorem undoStep_effect (faults : UndoFaults) (present : store source ≠ none)
    (vacant : store target = none) :
    Effect store (move store source target) (faults.verdict isDirectory (store source))
      (undoStep isDirectory faults store source target) := by
  have renamed := renameNoclobber_effect isDirectory faults.move present vacant
  unfold UndoFaults.verdict undoStep
  cases faults.hook with
  | true => exact .refused
  | false =>
    simp only [Bool.false_eq_true, ↓reduceIte]
    revert renamed
    generalize faults.move.verdict isDirectory (store source) = verdict
    generalize renameNoclobber isDirectory faults.move store source target = answer
    rintro (_ | _ | _) <;> constructor

theorem undoStep_of_occupied (faults : UndoFaults) (occupied : store target ≠ none) :
    ∃ error, undoStep isDirectory faults store source target = (.error error, store) := by
  obtain ⟨error, refused⟩ := renameNoclobber_of_occupied isDirectory faults.move occupied
  unfold undoStep
  split
  · exact ⟨_, rfl⟩
  · rw [refused]
    exact ⟨_, rfl⟩

end

/-- Every step of a loop, from a position on, moves its name. -/
def AllMoved (verdict : Nat → Name → Verdict) : List Name → Nat → Prop
  | [], _ => True
  | name :: rest, index => verdict index name = .moved ∧ AllMoved verdict rest (index + 1)

omit [DecidableEq Name] in
theorem allMoved_append {verdict : Nat → Name → Verdict} {first rest : List Name} {index : Nat} :
    AllMoved verdict (first ++ rest) index ↔ AllMoved verdict first index ∧
      AllMoved verdict rest (index + first.length) := by
  induction first generalizing index with
  | nil => simp [AllMoved]
  | cons _ _ ih =>
    simp [AllMoved, ih, and_assoc, Nat.add_assoc, Nat.add_comm 1]

/-- Every name was moved, or the first name that was not is refused or stranded. -/
inductive Ended (verdict : Nat → Name → Verdict)
    (along : List Name → Store (Directory × Name) Content)
    (names : List Name) : Moves Name Content → Prop where
  | completed : AllMoved verdict names 0 → Ended verdict along names
      { result := .ok (), store := along names, moved := names }
  | refused {moved rest : List Name} {name : Name} {error : SwapError} :
      names = moved ++ name :: rest →
      AllMoved verdict moved 0 →
      verdict moved.length name = .refused →
      Ended verdict along names { result := .error error, store := along moved, moved := moved }
  | stranded {moved rest : List Name} {name : Name} {error : SwapError} :
      names = moved ++ name :: rest →
      AllMoved verdict moved 0 →
      verdict moved.length name = .stranded →
      Ended verdict along names
        { result := .error error
          store := along (moved ++ [name])
          moved := moved }

/-- What a loop of the rollback moved beyond what was gone before, and whether it reported a
failure. -/
structure Undone (verdict : Nat → Name → Verdict) (blocked : Name → Prop) (names : List Name)
    (index : Nat) (gone later : Finset Name) (failures : List (Name × UndoError)) : Prop where
  bounded : later ⊆ gone ∪ names.toFinset
  unblocked : ∀ name ∈ later, name ∈ gone ∨ ¬ blocked name
  clean : failures = [] ↔ AllMoved verdict names index ∧ ∀ name ∈ names, ¬ blocked name
  complete : failures = [] → later = gone ∪ names.toFinset

namespace Undone

variable {verdict : Nat → Name → Verdict} {blocked : Name → Prop} {name : Name} {rest : List Name}
  {index : Nat}
  {gone later : Finset Name}
  {failures : List (Name × UndoError)}

theorem nil : Undone verdict blocked [] index gone gone [] where
  bounded := by simp
  unblocked := fun _ => .inl
  clean := by simp [AllMoved]
  complete := by simp

theorem moved (undone : Undone verdict blocked rest (index + 1) (insert name gone) later failures)
    (notBlocked : ¬ blocked name) (judged : verdict index name = .moved) :
    Undone verdict blocked (name :: rest) index gone later failures where
  bounded := by
    intro other mem
    have reached := undone.bounded mem
    simp only [mem_union, mem_insert, toFinset_cons] at reached ⊢
    tauto
  unblocked := by
    intro other mem
    rcases undone.unblocked other mem with earlier | free
    · rcases mem_insert.mp earlier with rfl | before
      · exact .inr notBlocked
      · exact .inl before
    · exact .inr free
  clean := by
    rw [undone.clean]
    simp [AllMoved, judged, notBlocked]
  complete := by
    intro none
    rw [undone.complete none]
    ext other
    simp only [mem_union, mem_insert, toFinset_cons]
    tauto

theorem failed {next : Finset Name} {failure : Name × UndoError} (undone :
    Undone verdict blocked rest (index + 1) next later failures)
    (shape : next = gone ∨ next = insert name gone ∧ ¬ blocked name)
    (judged : verdict index name = .moved → blocked name) :
    Undone verdict blocked (name :: rest) index gone later (failure :: failures) where
  bounded := by
    intro other mem
    have reached := undone.bounded mem
    rcases shape with rfl | ⟨rfl, -⟩ <;>
      simp only [mem_union, mem_insert, toFinset_cons] at reached ⊢ <;>
      tauto
  unblocked := by
    intro other mem
    rcases undone.unblocked other mem with earlier | free
    · rcases shape with rfl | ⟨rfl, notBlocked⟩
      · exact .inl earlier
      · rcases mem_insert.mp earlier with rfl | before
        · exact .inr notBlocked
        · exact .inl before
    · exact .inr free
  clean := by
    simp only [reduceCtorEq, false_iff, not_and, AllMoved]
    rintro ⟨isMoved, -⟩ free
    exact free name mem_cons_self (judged isMoved)
  complete := by simp

end Undone

section

variable {isDirectory : Content → Bool} {source target : Directory}
  {contentOf : Name → Option Content}

theorem moveAll_ended {faults : Nat → StepFaults}
    {along : List Name → Store (Directory × Name) Content} {names : List Name}
    (leads : ∀ {moved name rest}, names = moved ++ name :: rest →
      along moved (source, name) = contentOf name ∧ contentOf name ≠ none ∧
        along moved (target, name) = none ∧
        move (along moved) (source, name) (target, name) = along (moved ++ [name]))
    {moved rest : List Name} (shape : names = moved ++ rest)
    (soFar : AllMoved (fun index name => (faults index).verdict isDirectory (contentOf name))
      moved 0) :
    Ended (fun index name => (faults index).verdict isDirectory (contentOf name)) along names
      (moveAll isDirectory faults source target rest moved.length (along moved) moved) := by
  induction rest generalizing moved with
  | nil =>
    rw [append_nil] at shape
    subst names
    exact .completed soFar
  | cons name rest ih =>
    obtain ⟨sourceContent, present, vacant, moves⟩ := leads shape
    have effect :=
      swapStep_effect isDirectory (faults moved.length) (sourceContent ▸ present) vacant
    rw [sourceContent, moves] at effect
    rw [moveAll]
    generalize answered : swapStep isDirectory (faults moved.length) (along moved)
      (source, name) (target, name) = answer at effect ⊢
    generalize judged : (faults moved.length).verdict isDirectory (contentOf name) =
      verdict at effect
    cases effect with
    | moved =>
      have next :=
        @ih (moved ++ [name]) (by simp [shape])
          (allMoved_append.mpr ⟨soFar, by simpa using judged, trivial⟩)
      simpa using next
    | refused => exact .refused shape soFar judged
    | stranded => exact .stranded shape soFar judged

theorem undoAll_undone {faults : Nat → UndoFaults}
    {along : Finset Name → Store (Directory × Name) Content} {blocked : Name → Prop}
    {names : List Name} {index : Nat} {gone : Finset Name} (distinct : names.Nodup)
    (remaining : ∀ name ∈ names, name ∉ gone)
    (leads : ∀ {gone name}, name ∈ names → name ∉ gone → ¬ blocked name →
      along gone (source, name) = contentOf name ∧ contentOf name ≠ none ∧
        along gone (target, name) = none ∧
        move (along gone) (source, name) (target, name) = along (insert name gone))
    (stops : ∀ {gone name}, name ∈ names → blocked name → along gone (target, name) ≠ none) :
    ∃ later, (undoAll isDirectory faults source target names index (along gone)).2 = along later ∧
      Undone (fun index name => (faults index).verdict isDirectory (contentOf name))
        blocked names index gone later
        (undoAll isDirectory faults source target names index (along gone)).1 := by
  induction names generalizing index gone with
  | nil => exact ⟨gone, rfl, Undone.nil⟩
  | cons name rest ih =>
    obtain ⟨notLater, restDistinct⟩ := nodup_cons.mp distinct
    have nameRemains := remaining name mem_cons_self
    have continues : ∀ {next : Finset Name}, next = gone ∨ next = insert name gone →
        ∃ later, (undoAll isDirectory faults source target rest (index + 1)
          (along next)).2 = along later ∧
            Undone (fun index name => (faults index).verdict isDirectory (contentOf name))
              blocked rest (index + 1) next later
              (undoAll isDirectory faults source target rest (index + 1) (along next)).1 := by
      intro next shape
      refine ih restDistinct ?_ (fun mem => leads (mem_cons_of_mem name mem))
        (fun mem => stops (mem_cons_of_mem name mem))
      intro other mem isGone
      have otherRemains := remaining other (mem_cons_of_mem name mem)
      rcases shape with rfl | rfl
      · exact otherRemains isGone
      · rcases mem_insert.mp isGone with rfl | earlier
        · exact notLater mem
        · exact otherRemains earlier
    rw [undoAll]
    by_cases isBlocked : blocked name
    · obtain ⟨_, refused⟩ :=
        undoStep_of_occupied isDirectory (faults index) (stops mem_cons_self isBlocked)
      obtain ⟨later, store, undone⟩ := continues (.inl rfl)
      rw [refused]
      exact ⟨later, store, undone.failed (.inl rfl) (fun _ => isBlocked)⟩
    · obtain ⟨sourceContent, present, vacant, moves⟩ :=
        leads mem_cons_self nameRemains isBlocked
      have effect := undoStep_effect isDirectory (faults index) (sourceContent ▸ present) vacant
      rw [sourceContent, moves] at effect
      generalize answered : undoStep isDirectory (faults index) (along gone)
        (source, name) (target, name) = answer at effect ⊢
      generalize judged : (faults index).verdict isDirectory (contentOf name) = verdict at effect
      cases effect with
      | moved =>
        obtain ⟨later, store, undone⟩ := continues (.inr rfl)
        exact ⟨later, store, undone.moved isBlocked judged⟩
      | refused =>
        obtain ⟨later, store, undone⟩ := continues (.inl rfl)
        exact ⟨later, store, undone.failed (.inl rfl) (by simp [judged])⟩
      | stranded =>
        obtain ⟨later, store, undone⟩ := continues (.inr rfl)
        exact ⟨later, store, undone.failed (.inr ⟨rfl, isBlocked⟩) (by simp [judged])⟩

end

section

variable (isDirectory : Content → Bool) (faults : Faults Name)
  (originals staged : KeyedMap Name Content)

def backupVerdict (index : Nat) (name : Name) : Verdict :=
  (faults.backup index).verdict isDirectory (originals.lookup name)

def promoteVerdict (index : Nat) (name : Name) : Verdict :=
  (faults.promote index).verdict isDirectory (staged.lookup name)

def revertVerdict (index : Nat) (name : Name) : Verdict :=
  (faults.revert index).verdict isDirectory (staged.lookup name)

def restoreVerdict (index : Nat) (name : Name) : Verdict :=
  (faults.restore index).verdict isDirectory (originals.lookup name)

variable {isDirectory faults originals staged} {name : Name}

variable {map : KeyedMap Name Content}

theorem lookup_ne_none_iff : map.lookup name ≠ none ↔ name ∈ map.keys := by
  rw [← not_iff_not, not_not, KeyedMap.notMem_keys_iff]

omit [DecidableEq Name] in
theorem notMem_of_keys {moved rest : List Name}
    (shape : map.keys = moved ++ name :: rest) : name ∉ moved := by
  have distinct := map.keys_nodup
  rw [shape, nodup_append'] at distinct
  intro mem
  exact distinct.2.2 mem mem_cons_self

theorem backups_ended : Ended (backupVerdict isDirectory faults originals)
    (fun moved => arranged originals staged moved.toFinset ∅)
    originals.keys (moveAll isDirectory faults.backup .work .backup originals.keys 0
      (initialStore originals staged) []) := by
  rw [← arranged_empty]
  refine @moveAll_ended _ _ _ _ _ _ _ _ _ _ ?_ [] _ rfl trivial
  intro moved name _ shape
  have notMoved : name ∉ moved.toFinset := by simpa using notMem_of_keys shape
  have bound : originals.lookup name ≠ none := lookup_ne_none_iff.mpr (by simp [shape])
  refine ⟨?_, bound, ?_, ?_⟩
  · simp [arranged, notMoved]
  · simp [arranged, notMoved]
  · rw [move_backUp notMoved (by simp)]
    simp

theorem promotions_ended : Ended (promoteVerdict isDirectory faults staged) (fun moved =>
  arranged originals staged originals.keys.toFinset moved.toFinset)
    staged.keys (moveAll isDirectory faults.promote .staging .work staged.keys 0
      (arranged originals staged originals.keys.toFinset ∅) []) := by
  refine @moveAll_ended _ _ _ _ _ _ _ _ _ _ ?_ [] _ rfl trivial
  intro moved name _ shape
  have notMoved : name ∉ moved.toFinset := by simpa using notMem_of_keys shape
  have bound : staged.lookup name ≠ none := lookup_ne_none_iff.mpr (by simp [shape])
  refine ⟨?_, bound, ?_, ?_⟩
  · simp [arranged, notMoved]
  · simp only [arranged, notMoved, ↓reduceIte, List.mem_toFinset]
    split
    · rfl
    next absent => exact KeyedMap.notMem_keys_iff.mp absent
  · rw [move_promote notMoved]
    simp

theorem reverts_undone {backedUp promoted : Finset Name} {names : List Name}
    (distinct : names.Nodup) (recorded : ∀ name ∈ names, name ∈ promoted)
    (promotedStaged : ∀ name ∈ promoted, name ∈ staged.keys)
    (uncovered : ∀ name ∈ promoted, originals.lookup name ≠ none → name ∈ backedUp) :
    ∃ reverted, (undoAll isDirectory faults.revert .work .staging names 0
      (arranged originals staged backedUp promoted)).2 =
        arranged originals staged backedUp (promoted \ reverted) ∧
      Undone (revertVerdict isDirectory faults staged) (fun _ => False) names 0 ∅ reverted
        (undoAll isDirectory faults.revert .work .staging names 0
          (arranged originals staged backedUp promoted)).1 := by
  have undone :=
    @undoAll_undone _ _ _ isDirectory .work .staging staged.lookup faults.revert
      (fun gone => arranged originals staged backedUp (promoted \ gone))
      (fun _ => False) names 0 ∅ distinct (by simp)
      (by
        intro gone name mem notGone _
        have inPromoted := recorded name mem
        have isPromoted : name ∈ promoted \ gone := mem_sdiff.mpr ⟨inPromoted, notGone⟩
        refine ⟨by simp [arranged, isPromoted],
          lookup_ne_none_iff.mpr (promotedStaged name inPromoted),
          by simp [arranged, isPromoted], ?_⟩
        rw [move_revert isPromoted (uncovered name inPromoted), sdiff_insert])
      (by simp)
  simp only [sdiff_empty] at undone
  exact undone

theorem restores_undone {backedUp promoted : Finset Name} {names : List Name}
    (distinct : names.Nodup) (recorded : ∀ name ∈ names, name ∈ backedUp)
    (promotedStaged : ∀ name ∈ promoted, name ∈ staged.keys)
    (backedUpOriginal : ∀ name ∈ backedUp, name ∈ originals.keys) :
    ∃ restored, (undoAll isDirectory faults.restore .backup .work names 0
      (arranged originals staged backedUp promoted)).2 =
        arranged originals staged (backedUp \ restored) promoted ∧
      Undone (restoreVerdict isDirectory faults originals)
        (fun name => name ∈ promoted) names 0 ∅ restored
        (undoAll isDirectory faults.restore .backup .work names 0
          (arranged originals staged backedUp promoted)).1 := by
  have undone :=
    @undoAll_undone _ _ _ isDirectory .backup .work originals.lookup faults.restore
      (fun gone => arranged originals staged (backedUp \ gone) promoted)
      (fun name => name ∈ promoted) names 0 ∅ distinct (by simp)
      (by
        intro gone name mem notGone free
        have inBackedUp := recorded name mem
        have isBackedUp : name ∈ backedUp \ gone := mem_sdiff.mpr ⟨inBackedUp, notGone⟩
        refine ⟨by simp only [arranged, isBackedUp, ↓reduceIte],
          lookup_ne_none_iff.mpr (backedUpOriginal name inBackedUp),
          by simp only [arranged, free, isBackedUp, ↓reduceIte], ?_⟩
        rw [move_restore isBackedUp free, sdiff_insert])
      (by
        intro gone name mem isPromoted
        simp only [arranged, isPromoted, ↓reduceIte]
        exact lookup_ne_none_iff.mpr (promotedStaged name isPromoted))
  simp only [sdiff_empty] at undone
  exact undone

/-- An arrangement a swap can end in, with the moves the swap recorded. -/
structure Recorded (originals staged : KeyedMap Name Content) (swap : Swap Name Content)
    (backedUp promoted : Finset Name) : Prop where
  store : swap.store = arranged originals staged backedUp promoted
  promotedDistinct : swap.promoted.Nodup
  backedUpDistinct : swap.backedUp.Nodup
  recordedPromoted : ∀ name ∈ swap.promoted, name ∈ promoted
  recordedBackedUp : ∀ name ∈ swap.backedUp, name ∈ backedUp
  promotedStaged : ∀ name ∈ promoted, name ∈ staged.keys
  backedUpOriginal : ∀ name ∈ backedUp, name ∈ originals.keys
  uncovered : ∀ name ∈ promoted, originals.lookup name ≠ none → name ∈ backedUp

theorem Recorded.rollback {swap : Swap Name Content} {backedUp promoted : Finset Name}
    (recorded : Recorded originals staged swap backedUp promoted) :
    ∃ backedUpLeft promotedLeft, (rollbackLayoutSwap isDirectory faults swap).2 =
      arranged originals staged backedUpLeft promotedLeft ∧
        (∀ name ∈ promotedLeft, originals.lookup name ≠ none → name ∈ backedUpLeft) ∧
        ((rollbackLayoutSwap isDirectory faults swap).1 = [] ↔
          AllMoved (revertVerdict isDirectory faults staged) swap.promoted.reverse 0 ∧
            AllMoved (restoreVerdict isDirectory faults originals) swap.backedUp.reverse 0 ∧
            ∀ name ∈ swap.backedUp, name ∉ promoted \ swap.promoted.toFinset) ∧
        ((rollbackLayoutSwap isDirectory faults swap).1 = [] →
          backedUpLeft = backedUp \ swap.backedUp.toFinset ∧
            promotedLeft = promoted \ swap.promoted.toFinset) := by
  obtain ⟨reverted, revertStore, revertUndone⟩ :=
    @reverts_undone _ _ _ isDirectory faults originals staged backedUp promoted
      swap.promoted.reverse
      (nodup_reverse.mpr recorded.promotedDistinct)
      (by simpa using recorded.recordedPromoted)
      recorded.promotedStaged recorded.uncovered
  obtain ⟨_, restoreStore, restoreUndone⟩ :=
    @restores_undone _ _ _ isDirectory faults originals staged backedUp
      (promoted \ reverted) swap.backedUp.reverse
      (nodup_reverse.mpr recorded.backedUpDistinct)
      (by simpa using recorded.recordedBackedUp)
      (fun name mem => recorded.promotedStaged name (mem_sdiff.mp mem).1)
      recorded.backedUpOriginal
  unfold rollbackLayoutSwap
  simp only [recorded.store, revertStore, restoreStore, append_eq_nil_iff]
  refine ⟨_, _, rfl, ?_, ?_, ?_⟩
  · intro name isPromoted isOriginal
    have inPromoted := (mem_sdiff.mp isPromoted).1
    refine mem_sdiff.mpr ⟨recorded.uncovered name inPromoted isOriginal, ?_⟩
    intro isRestored
    rcases restoreUndone.unblocked name isRestored with never | free
    · simp at never
    · exact free isPromoted
  · rw [revertUndone.clean, restoreUndone.clean]
    simp only [not_false_eq_true, implies_true, and_true, mem_reverse]
    constructor
    · rintro ⟨revertsMove, restoresMove, free⟩
      have all := revertUndone.complete (revertUndone.clean.mpr ⟨revertsMove, by simp⟩)
      rw [all] at free
      exact ⟨revertsMove, restoresMove, by simpa using free⟩
    · rintro ⟨revertsMove, restoresMove, free⟩
      have all := revertUndone.complete (revertUndone.clean.mpr ⟨revertsMove, by simp⟩)
      rw [all]
      exact ⟨revertsMove, restoresMove, by simpa using free⟩
  · rintro ⟨noReverts, noRestores⟩
    rw [revertUndone.complete noReverts, restoreUndone.complete noRestores]
    simp

/-- A step is refused, a step is stranded, or the metadata cannot be applied once everything
has moved. -/
inductive SwapFailed (isDirectory : Content → Bool) (faults : Faults Name)
    (originals staged : KeyedMap Name Content) : Swap Name Content → Prop where
  | backupRefused {moved rest : List Name} {name : Name} {error : SwapError} :
      originals.keys = moved ++ name :: rest →
      AllMoved (backupVerdict isDirectory faults originals) moved 0 →
      backupVerdict isDirectory faults originals moved.length name = .refused →
      SwapFailed isDirectory faults originals staged
        { result := .error error
          store := arranged originals staged moved.toFinset ∅
          backedUp := moved
          promoted := [] }
  | backupStranded {moved rest : List Name} {name : Name} {error : SwapError} :
      originals.keys = moved ++ name :: rest →
      AllMoved (backupVerdict isDirectory faults originals) moved 0 →
      backupVerdict isDirectory faults originals moved.length name = .stranded →
      SwapFailed isDirectory faults originals staged
        { result := .error error
          store := arranged originals staged (moved ++ [name]).toFinset ∅
          backedUp := moved
          promoted := [] }
  | promoteRefused {moved rest : List Name} {name : Name} {error : SwapError} :
      AllMoved (backupVerdict isDirectory faults originals) originals.keys 0 →
      staged.keys = moved ++ name :: rest →
      AllMoved (promoteVerdict isDirectory faults staged) moved 0 →
      promoteVerdict isDirectory faults staged moved.length name = .refused →
      SwapFailed isDirectory faults originals staged
        { result := .error error
          store := arranged originals staged originals.keys.toFinset moved.toFinset
          backedUp := originals.keys
          promoted := moved }
  | promoteStranded {moved rest : List Name} {name : Name} {error : SwapError} :
      AllMoved (backupVerdict isDirectory faults originals) originals.keys 0 →
      staged.keys = moved ++ name :: rest →
      AllMoved (promoteVerdict isDirectory faults staged) moved 0 →
      promoteVerdict isDirectory faults staged moved.length name = .stranded →
      SwapFailed isDirectory faults originals staged
        { result := .error error
          store := arranged originals staged originals.keys.toFinset (moved ++ [name]).toFinset
          backedUp := originals.keys
          promoted := moved }
  | metadata : AllMoved (backupVerdict isDirectory faults originals) originals.keys 0 →
      AllMoved (promoteVerdict isDirectory faults staged) staged.keys 0 →
      SwapFailed isDirectory faults originals staged
        { result := .error .metadata
          store := arranged originals staged originals.keys.toFinset staged.keys.toFinset
          backedUp := originals.keys
          promoted := staged.keys }

theorem swapLayout_ended : (AllMoved (backupVerdict isDirectory faults originals) originals.keys 0 ∧
    AllMoved (promoteVerdict isDirectory faults staged) staged.keys 0 ∧
    (swapLayout isDirectory faults originals.keys staged.keys
      (initialStore originals staged)).result = .ok ()) ∨
    SwapFailed isDirectory faults originals staged
      (swapLayout isDirectory faults originals.keys staged.keys
        (initialStore originals staged)) := by
  have backups := @backups_ended _ _ _ isDirectory faults originals staged
  unfold swapLayout
  generalize moveAll isDirectory faults.backup .work .backup originals.keys 0
    (initialStore originals staged) [] = backupMoves at backups ⊢
  cases backups with
  | refused shape allMoved judged => exact .inr (.backupRefused shape allMoved judged)
  | stranded shape allMoved judged => exact .inr (.backupStranded shape allMoved judged)
  | completed allBackedUp =>
    have promotions := @promotions_ended _ _ _ isDirectory faults originals staged
    simp only
    generalize moveAll isDirectory faults.promote .staging .work staged.keys 0
      (arranged originals staged originals.keys.toFinset ∅) [] = promoteMoves at promotions ⊢
    cases promotions with
    | refused shape allMoved judged =>
      exact .inr (.promoteRefused allBackedUp shape allMoved judged)
    | stranded shape allMoved judged =>
      exact .inr (.promoteStranded allBackedUp shape allMoved judged)
    | completed allPromoted =>
      simp only
      cases faults.metadata with
      | true => exact .inr (.metadata allBackedUp allPromoted)
      | false => exact .inl ⟨allBackedUp, allPromoted, rfl⟩

variable {verdict : Nat → Name → Verdict}

omit [DecidableEq Name] in
theorem first_failure_unique
    {firstMoved secondMoved firstRest secondRest : List Name} {first second : Name} {index : Nat}
    (shape : firstMoved ++ first :: firstRest = secondMoved ++ second :: secondRest)
    (firstAll : AllMoved verdict firstMoved index) (secondAll : AllMoved verdict secondMoved index)
    (firstFails : verdict (index + firstMoved.length) first ≠ .moved)
    (secondFails : verdict (index + secondMoved.length) second ≠ .moved) :
    firstMoved = secondMoved ∧ first = second := by
  induction firstMoved generalizing secondMoved index with
  | nil =>
    cases secondMoved with
    | nil =>
      obtain ⟨rfl, -⟩ := List.cons.inj shape
      exact ⟨rfl, rfl⟩
    | cons name others =>
      obtain ⟨rfl, -⟩ := List.cons.inj shape
      exact (firstFails secondAll.1).elim
  | cons name others ih =>
    cases secondMoved with
    | nil =>
      obtain ⟨rfl, -⟩ := List.cons.inj shape
      exact (secondFails firstAll.1).elim
    | cons =>
      obtain ⟨rfl, rest⟩ := List.cons.inj shape
      have regroup : ∀ length, index + (length + 1) = index + 1 + length := by
        intro length
        rw [Nat.add_comm length 1, Nat.add_assoc]
      rw [length_cons, regroup] at firstFails secondFails
      obtain ⟨rfl, same⟩ := ih rest firstAll.2 secondAll.2 firstFails secondFails
      exact ⟨rfl, same⟩

omit [DecidableEq Name] in
theorem moved_of_allMoved {names moved rest : List Name}
    (all : AllMoved verdict names 0) (shape : names = moved ++ name :: rest) :
    verdict moved.length name = .moved := by
  rw [shape, allMoved_append] at all
  simpa using all.2.1

end

end Arclain.ApplyPlan
