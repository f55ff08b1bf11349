import Arclain.ApplyPlanSwap

namespace Arclain.ApplyPlan

/-!
# What a failed transaction leaves behind

A rename that moves a read-only directory and then fails to restore its permissions is not
recorded: a rollback without failures leaves the directory where it is, and the backup
directory is then removed.
-/

open List FileStore

variable {Name Content : Type} [DecidableEq Name]

section

variable {isDirectory : Content → Bool} {faults : Faults Name}
  {originals staged : KeyedMap Name Content}

/-- Every original is back at its place and nothing else is there. -/
def Restored (originals : KeyedMap Name Content)
    (store : Store (Directory × Name) Content) : Prop :=
  ∀ name, store (.work, name) = originals.lookup name

def NoneDeleted (originals : KeyedMap Name Content)
    (store : Store (Directory × Name) Content) : Prop :=
  ∀ name content, originals.lookup name = some content →
    store (.work, name) = some content ∨ store (.backup, name) = some content

omit [DecidableEq Name] in
def ApplyError.namesBackup : ApplyError Name → Prop
  | .rollback _ _ => True
  | .cleanup _ unremoved => .backup ∈ unremoved
  | _ => False

/-- The layout is restored, or the error names a backup that holds what is missing. -/
def OriginalsSurvive (originals : KeyedMap Name Content) (result : Result Name Content) : Prop :=
  ∀ error, result.outcome = .error error → (Restored originals result.store ∨
    error.namesBackup ∧ NoneDeleted originals result.store) ∧
    NoneDeleted originals result.store

theorem Restored.noneDeleted {store : Store (Directory × Name) Content}
    (restored : Restored originals store) : NoneDeleted originals store := by
  intro name _ bound
  exact .inl ((restored name).trans bound)

/-- The first failing step is the stranded backup of an original, the others are restored,
and the backup is removed. -/
def LosesOriginal (isDirectory : Content → Bool) (faults : Faults Name)
    (originals : KeyedMap Name Content) : Prop :=
  ∃ moved name rest, originals.keys = moved ++ name :: rest ∧
    AllMoved (backupVerdict isDirectory faults originals) moved 0 ∧
    backupVerdict isDirectory faults originals moved.length name = .stranded ∧
    AllMoved (restoreVerdict isDirectory faults originals) moved.reverse 0 ∧
    faults.closeBackup.keeps name = false

/-- The first failing step is the stranded promotion of a new entry, all recorded moves are
undone, and the backup is removed. -/
def LeavesPromoted (isDirectory : Content → Bool) (faults : Faults Name)
    (originals staged : KeyedMap Name Content) : Prop :=
  AllMoved (backupVerdict isDirectory faults originals) originals.keys 0 ∧
    ∃ moved name rest, staged.keys = moved ++ name :: rest ∧
      AllMoved (promoteVerdict isDirectory faults staged) moved 0 ∧
      promoteVerdict isDirectory faults staged moved.length name = .stranded ∧
      name ∉ originals.keys ∧
      AllMoved (revertVerdict isDirectory faults staged) moved.reverse 0 ∧
      AllMoved (restoreVerdict isDirectory faults originals) originals.keys.reverse 0 ∧
      faults.closeBackup.isFailed = false

variable {swap : Swap Name Content}

theorem survive_of_failed_rollback {backedUp promoted : Finset Name}
    (recorded : Recorded originals staged swap backedUp promoted) (error : SwapError)
    (failed : (rollbackLayoutSwap isDirectory faults swap).1 ≠ []) :
    OriginalsSurvive originals (abandonLayout isDirectory faults error swap) := by
  obtain ⟨_, _, store, uncovered, -, -⟩ :=
    @Recorded.rollback _ _ _ isDirectory faults _ _ _ _ _ recorded
  have kept : NoneDeleted originals (rollbackLayoutSwap isDirectory faults swap).2 := by
    intro _ _ bound
    rw [store]
    exact original_present uncovered bound
  unfold abandonLayout
  simp only [ne_eq, failed, not_false_eq_true, ↓reduceIte]
  intro _ same
  obtain rfl := Except.error.inj same
  exact ⟨.inr ⟨trivial, kept⟩, kept⟩

theorem abandonLayout_of_clean_rollback {error : SwapError}
    {backedUpLeft promotedLeft : Finset Name}
    (clean : (rollbackLayoutSwap isDirectory faults swap).1 = [])
    (store : (rollbackLayoutSwap isDirectory faults swap).2 =
      arranged originals staged backedUpLeft promotedLeft) :
    (∃ reported, (abandonLayout isDirectory faults error swap).outcome = .error reported ∧
      (reported.namesBackup ↔ faults.closeBackup.isFailed = true)) ∧
      (∀ name, (abandonLayout isDirectory faults error swap).store (.work, name) =
        arranged originals staged backedUpLeft promotedLeft (.work, name)) ∧
      ∀ name, (abandonLayout isDirectory faults error swap).store (.backup, name) =
        if faults.closeBackup.keeps name then
          arranged originals staged backedUpLeft promotedLeft (.backup, name)
        else
          none := by
  unfold abandonLayout
  simp only [clean, store, ne_eq, not_true_eq_false, ↓reduceIte]
  refine ⟨?_, fun name => by simp [removeDirectory], fun name => ?_⟩
  · unfold unremovedDirectories
    cases backup : faults.closeBackup <;> cases staging : faults.closeStaging <;>
      simp [Removal.isFailed, ApplyError.namesBackup]
  · cases backup : faults.closeBackup with
    | removed => simp [removeDirectory, Removal.keeps]
    | failed survives =>
      by_cases kept : survives name = true <;> simp [removeDirectory, Removal.keeps, kept]

variable {error : SwapError}

theorem survive_of_restored (clean : (rollbackLayoutSwap isDirectory faults swap).1 = [])
    (store : (rollbackLayoutSwap isDirectory faults swap).2 = arranged originals staged ∅ ∅) :
    OriginalsSurvive originals (abandonLayout isDirectory faults error swap) := by
  obtain ⟨-, work, -⟩ :=
    @abandonLayout_of_clean_rollback _ _ _ isDirectory faults originals staged
      swap error ∅ ∅ clean store
  have restored : Restored originals (abandonLayout isDirectory faults error swap).store := by
    intro name
    rw [work name]
    simp [arranged]
  intro _ _
  exact ⟨.inl restored, restored.noneDeleted⟩

theorem survive_iff_of_original_left {name : Name}
    (original : name ∈ originals.keys) (clean : (rollbackLayoutSwap isDirectory faults swap).1 = [])
    (store : (rollbackLayoutSwap isDirectory faults swap).2 = arranged originals staged {name} ∅) :
    OriginalsSurvive originals (abandonLayout isDirectory faults error swap) ↔
      faults.closeBackup.keeps name = true := by
  obtain ⟨⟨reported, outcome, named⟩, work, backup⟩ :=
    @abandonLayout_of_clean_rollback _ _ _ isDirectory faults originals staged
      swap error {name} ∅ clean store
  obtain ⟨content, bound⟩ := Option.ne_none_iff_exists'.mp (lookup_ne_none_iff.mpr original)
  constructor
  · intro survive
    rcases (survive reported outcome).2 name content bound with
      inWork | inBackup
    · rw [work name] at inWork
      simp [arranged] at inWork
    · rw [backup name] at inBackup
      by_contra lost
      simp [lost] at inBackup
  · intro keeps
    have failed : faults.closeBackup.isFailed = true := by
      cases removal : faults.closeBackup with
      | removed => simp [removal, Removal.keeps] at keeps
      | failed => rfl
    have kept : NoneDeleted originals (abandonLayout isDirectory faults error swap).store := by
      intro other _ otherBound
      by_cases same : other = name
      · subst other
        right
        rw [backup name]
        simp [keeps, arranged, otherBound]
      · left
        rw [work other]
        simp [arranged, same, otherBound]
    intro other sameOutcome
    obtain rfl := Except.error.inj (outcome.symm.trans sameOutcome)
    exact ⟨.inr ⟨named.mpr failed, kept⟩, kept⟩

theorem survive_iff_of_promoted_left {name : Name}
    (isStaged : name ∈ staged.keys) (notOriginal : name ∉ originals.keys)
    (clean : (rollbackLayoutSwap isDirectory faults swap).1 = [])
    (store : (rollbackLayoutSwap isDirectory faults swap).2 = arranged originals staged ∅ {name}) :
    OriginalsSurvive originals (abandonLayout isDirectory faults error swap) ↔
      faults.closeBackup.isFailed = true := by
  obtain ⟨⟨reported, outcome, named⟩, work, -⟩ :=
    @abandonLayout_of_clean_rollback _ _ _ isDirectory faults originals staged
      swap error ∅ {name} clean store
  constructor
  · intro survive
    rcases (survive reported outcome).1 with restored | ⟨isNamed, -⟩
    · have inWork := (work name).symm.trans (restored name)
      rw [KeyedMap.notMem_keys_iff.mp notOriginal] at inWork
      simp only [arranged, Finset.mem_singleton, ↓reduceIte] at inWork
      exact (lookup_ne_none_iff.mpr isStaged inWork).elim
    · exact named.mp isNamed
  · intro failed
    have kept : NoneDeleted originals (abandonLayout isDirectory faults error swap).store := by
      intro other _ bound
      have different : other ≠ name := by
        rintro rfl
        rw [KeyedMap.notMem_keys_iff.mp notOriginal] at bound
        simp at bound
      left
      rw [work other]
      simp [arranged, different, bound]
    intro other sameOutcome
    obtain rfl := Except.error.inj (outcome.symm.trans sameOutcome)
    exact ⟨.inr ⟨named.mpr failed, kept⟩, kept⟩

namespace Recorded

variable {moved rest : List Name} {name : Name} {error : SwapError}

theorem of_backup {backedUp : Finset Name} (shape : originals.keys = moved ++ name :: rest)
    (lower : moved.toFinset ⊆ backedUp) (upper : backedUp ⊆ (moved ++ [name]).toFinset) :
    Recorded originals staged
      { result := .error error
        store := arranged originals staged backedUp ∅
        backedUp := moved
        promoted := [] } backedUp ∅ where
  store := rfl
  promotedDistinct := nodup_nil
  backedUpDistinct := by
    have distinct := originals.keys_nodup
    rw [shape] at distinct
    exact (nodup_append'.mp distinct).1
  recordedPromoted := by simp
  recordedBackedUp := by
    intro other mem
    exact lower (by simpa using mem)
  promotedStaged := by simp
  backedUpOriginal := by
    intro other mem
    have reached := upper mem
    rw [shape]
    simp only [mem_toFinset, mem_append, mem_singleton] at reached
    rcases reached with earlier | rfl
    · simp [earlier]
    · simp
  uncovered := by simp

theorem of_promotion {result : Except SwapError Unit} {promoted : Finset Name}
    (distinct : moved.Nodup) (lower : moved.toFinset ⊆ promoted)
    (upper : ∀ name ∈ promoted, name ∈ staged.keys) : Recorded originals staged
      { result := result
        store := arranged originals staged originals.keys.toFinset promoted
        backedUp := originals.keys
        promoted := moved } originals.keys.toFinset promoted where
  store := rfl
  promotedDistinct := distinct
  backedUpDistinct := originals.keys_nodup
  recordedPromoted := by
    intro other mem
    exact lower (by simpa using mem)
  recordedBackedUp := by simp
  promotedStaged := upper
  backedUpOriginal := by simp
  uncovered := by
    intro other _ isOriginal
    simpa using lookup_ne_none_iff.mp isOriginal

end Recorded

theorem survive_of_recorded {error : SwapError} (recorded : Recorded originals staged swap
    swap.backedUp.toFinset swap.promoted.toFinset) :
    OriginalsSurvive originals (abandonLayout isDirectory faults error swap) := by
  obtain ⟨_, _, store, -, -, left⟩ :=
    @Recorded.rollback _ _ _ isDirectory faults _ _ _ _ _ recorded
  by_cases clean : (rollbackLayoutSwap isDirectory faults swap).1 = []
  · obtain ⟨rfl, rfl⟩ := left clean
    rw [Finset.sdiff_self, Finset.sdiff_self] at store
    exact survive_of_restored clean store
  · exact survive_of_failed_rollback recorded error clean

variable {name : Name}

theorem toFinset_append_sdiff {moved : List Name} (notMoved : name ∉ moved) :
    (moved ++ [name]).toFinset \ moved.toFinset = {name} := by
  ext other
  simp only [Finset.mem_sdiff, mem_toFinset, mem_append, mem_singleton, Finset.mem_singleton]
  constructor
  · rintro ⟨earlier | rfl, notEarlier⟩
    · exact (notEarlier earlier).elim
    · rfl
  · rintro rfl
    exact ⟨.inr rfl, notMoved⟩

variable {moved rest : List Name} {error reported : SwapError}

theorem survive_iff_of_stranded_backup (shape : originals.keys = moved ++ name :: rest) :
    OriginalsSurvive originals (abandonLayout isDirectory faults reported
      { result := .error error
        store := arranged originals staged (moved ++ [name]).toFinset ∅
        backedUp := moved
        promoted := [] }) ↔
      ¬ (AllMoved (restoreVerdict isDirectory faults originals) moved.reverse 0 ∧
        faults.closeBackup.keeps name = false) := by
  have recorded :=
    @Recorded.of_backup _ _ _ originals staged moved rest name error
      (moved ++ [name]).toFinset shape
      (by simp) (Finset.Subset.refl _)
  obtain ⟨_, _, store, -, cleanIff, left⟩ :=
    @Recorded.rollback _ _ _ isDirectory faults _ _ _ _ _ recorded
  by_cases clean : (rollbackLayoutSwap isDirectory faults
    { result := .error error
      store := arranged originals staged (moved ++ [name]).toFinset ∅
      backedUp := moved
      promoted := [] }).1 = []
  · obtain ⟨rfl, rfl⟩ := left clean
    rw [toFinset_append_sdiff (notMem_of_keys shape), Finset.empty_sdiff] at store
    rw [survive_iff_of_original_left (by simp [shape]) clean store]
    have allRestored := (cleanIff.mp clean).2.1
    simp [allRestored]
  · have survive := survive_of_failed_rollback recorded reported clean
    have notAll : ¬ AllMoved (restoreVerdict isDirectory faults originals) moved.reverse 0 := by
      intro allRestored
      exact clean (cleanIff.mpr ⟨trivial, allRestored, by simp⟩)
    exact iff_of_true survive (fun both => notAll both.1)

/-- Only the stranded promotion stays behind, and the backup is closed. -/
abbrev Unwinds (isDirectory : Content → Bool) (faults : Faults Name)
    (originals staged : KeyedMap Name Content) (moved : List Name) (name : Name) : Prop :=
  name ∉ originals.keys ∧ AllMoved (revertVerdict isDirectory faults staged) moved.reverse 0 ∧
    AllMoved (restoreVerdict isDirectory faults originals) originals.keys.reverse 0 ∧
    faults.closeBackup.isFailed = false

theorem survive_iff_of_stranded_promotion (shape : staged.keys = moved ++ name :: rest) :
    OriginalsSurvive originals (abandonLayout isDirectory faults reported
      { result := .error error
        store := arranged originals staged originals.keys.toFinset (moved ++ [name]).toFinset
        backedUp := originals.keys
        promoted := moved }) ↔
      ¬ Unwinds isDirectory faults originals staged moved name := by
  have distinct : moved.Nodup := by
    have all := staged.keys_nodup
    rw [shape] at all
    exact (nodup_append'.mp all).1
  have inStaged : ∀ other ∈ (moved ++ [name]).toFinset, other ∈ staged.keys := by
    intro other mem
    rw [shape]
    simp only [mem_toFinset, mem_append, mem_singleton] at mem
    rcases mem with earlier | rfl
    · simp [earlier]
    · simp
  have recorded :=
    @Recorded.of_promotion _ _ _ originals staged moved (.error error)
      (moved ++ [name]).toFinset distinct
      (by simp) inStaged
  obtain ⟨_, _, store, -, cleanIff, left⟩ :=
    @Recorded.rollback _ _ _ isDirectory faults _ _ _ _ _ recorded
  simp only [toFinset_append_sdiff (notMem_of_keys shape), Finset.mem_singleton] at cleanIff
  by_cases clean : (rollbackLayoutSwap isDirectory faults
    { result := .error error
      store := arranged originals staged originals.keys.toFinset (moved ++ [name]).toFinset
      backedUp := originals.keys
      promoted := moved }).1 = []
  · obtain ⟨rfl, rfl⟩ := left clean
    rw [toFinset_append_sdiff (notMem_of_keys shape), Finset.sdiff_self] at store
    obtain ⟨allReverted, allRestored, free⟩ := cleanIff.mp clean
    have notOriginal : name ∉ originals.keys := fun mem => free name mem rfl
    rw [survive_iff_of_promoted_left (by simp [shape]) notOriginal clean store]
    simp [notOriginal, allReverted, allRestored]
  · have survive := survive_of_failed_rollback recorded reported clean
    have notAll : ¬ Unwinds isDirectory faults originals staged moved name := by
      rintro ⟨notOriginal, allReverted, allRestored, -⟩
      refine clean (cleanIff.mpr ⟨allReverted, allRestored, ?_⟩)
      rintro other mem rfl
      exact notOriginal mem
    exact iff_of_true survive notAll

theorem not_losesOriginal_of_allMoved (all : AllMoved (backupVerdict isDirectory faults originals)
    originals.keys 0) : ¬ LosesOriginal isDirectory faults originals := by
  rintro ⟨_, _, _, shape, -, judged, -⟩
  rw [moved_of_allMoved all shape] at judged
  cases judged

theorem not_leavesPromoted_of_allMoved
    (all : AllMoved (promoteVerdict isDirectory faults staged) staged.keys 0) :
    ¬ LeavesPromoted isDirectory faults originals staged := by
  rintro ⟨-, _, _, _, shape, -, judged, -⟩
  rw [moved_of_allMoved all shape] at judged
  cases judged

theorem not_leavesPromoted_of_backup_failure {moved rest : List Name} {name : Name}
    (shape : originals.keys = moved ++ name :: rest)
    (fails : backupVerdict isDirectory faults originals moved.length name ≠ .moved) :
    ¬ LeavesPromoted isDirectory faults originals staged := by
  rintro ⟨all, -⟩
  exact fails (moved_of_allMoved all shape)

theorem losesOriginal_iff_of_backup_failure (shape : originals.keys = moved ++ name :: rest)
    (allMoved : AllMoved (backupVerdict isDirectory faults originals) moved 0)
    (fails : backupVerdict isDirectory faults originals moved.length name ≠ .moved) :
    LosesOriginal isDirectory faults originals ↔
      backupVerdict isDirectory faults originals moved.length name = .stranded ∧
        AllMoved (restoreVerdict isDirectory faults originals) moved.reverse 0 ∧
        faults.closeBackup.keeps name = false := by
  constructor
  · rintro ⟨_, _, _, shape', allMoved', judged, undone, removed⟩
    obtain ⟨rfl, rfl⟩ :=
      first_failure_unique (shape.symm.trans shape') allMoved allMoved'
        (by simpa using fails) (by simp [judged])
    exact ⟨judged, undone, removed⟩
  · rintro ⟨judged, undone, removed⟩
    exact ⟨moved, name, rest, shape, allMoved, judged, undone, removed⟩

theorem leavesPromoted_iff_of_promotion_failure
    (allBackedUp : AllMoved (backupVerdict isDirectory faults originals) originals.keys 0)
    (shape : staged.keys = moved ++ name :: rest)
    (allMoved : AllMoved (promoteVerdict isDirectory faults staged) moved 0)
    (fails : promoteVerdict isDirectory faults staged moved.length name ≠ .moved) :
    LeavesPromoted isDirectory faults originals staged ↔
      promoteVerdict isDirectory faults staged moved.length name = .stranded ∧
        Unwinds isDirectory faults originals staged moved name := by
  constructor
  · rintro ⟨-, _, _, _, shape', allMoved', judged, others⟩
    obtain ⟨rfl, rfl⟩ :=
      first_failure_unique (shape.symm.trans shape') allMoved allMoved'
        (by simpa using fails) (by simp [judged])
    exact ⟨judged, others⟩
  · rintro ⟨judged, others⟩
    exact ⟨allBackedUp, moved, name, rest, shape, allMoved, judged, others⟩

theorem survive_iff_of_swapFailed {error : SwapError}
    (failed : SwapFailed isDirectory faults originals staged swap) :
    OriginalsSurvive originals (abandonLayout isDirectory faults error swap) ↔
      ¬ LosesOriginal isDirectory faults originals ∧
        ¬ LeavesPromoted isDirectory faults originals staged := by
  cases failed with
  | @backupRefused moved rest name reason shape allMoved judged =>
    have fails : backupVerdict isDirectory faults originals moved.length name ≠ .moved := by
      simp [judged]
    refine iff_of_true
      (@survive_of_recorded _ _ _ isDirectory faults originals staged _ error ?_) ⟨?_, ?_⟩
    · simpa using @Recorded.of_backup _ _ _ originals staged moved rest name reason
        moved.toFinset shape (Finset.Subset.refl _)
        (by simp)
    · rw [losesOriginal_iff_of_backup_failure shape allMoved fails, judged]
      rintro ⟨stranded, -⟩
      cases stranded
    · exact not_leavesPromoted_of_backup_failure shape fails
  | @backupStranded moved rest name reason shape allMoved judged =>
    have fails : backupVerdict isDirectory faults originals moved.length name ≠ .moved := by
      simp [judged]
    rw [survive_iff_of_stranded_backup shape,
      losesOriginal_iff_of_backup_failure shape allMoved fails]
    have notLeft :=
      @not_leavesPromoted_of_backup_failure _ _ _ isDirectory faults
        originals staged moved rest name shape fails
    simp [judged, notLeft]
  | @promoteRefused moved rest name reason allBackedUp shape allMoved judged =>
    have fails : promoteVerdict isDirectory faults staged moved.length name ≠ .moved := by
      simp [judged]
    refine iff_of_true (@survive_of_recorded _ _ _ isDirectory faults originals staged _ error ?_)
      ⟨not_losesOriginal_of_allMoved allBackedUp, ?_⟩
    · have distinct := staged.keys_nodup
      rw [shape] at distinct
      refine Recorded.of_promotion (nodup_append'.mp distinct).1 (Finset.Subset.refl _) ?_
      intro other mem
      rw [shape]
      exact mem_append_left _ (mem_toFinset.mp mem)
    · rw [leavesPromoted_iff_of_promotion_failure allBackedUp shape allMoved fails, judged]
      rintro ⟨stranded, -⟩
      cases stranded
  | @promoteStranded moved rest name reason allBackedUp shape allMoved judged =>
    have fails : promoteVerdict isDirectory faults staged moved.length name ≠ .moved := by
      simp [judged]
    rw [survive_iff_of_stranded_promotion shape,
      leavesPromoted_iff_of_promotion_failure allBackedUp shape allMoved fails]
    have notLost := not_losesOriginal_of_allMoved allBackedUp
    simp [judged, notLost]
  | metadata allBackedUp allPromoted =>
    refine iff_of_true (@survive_of_recorded _ _ _ isDirectory faults originals staged _ error ?_)
      ⟨not_losesOriginal_of_allMoved allBackedUp, not_leavesPromoted_of_allMoved allPromoted⟩
    refine Recorded.of_promotion staged.keys_nodup (Finset.Subset.refl _) ?_
    intro other mem
    exact mem_toFinset.mp mem

omit [DecidableEq Name] in
theorem SwapFailed.exists_error [DecidableEq Name]
    (failed : SwapFailed isDirectory faults originals staged swap) :
    ∃ error, swap.result = .error error := by
  cases failed <;> exact ⟨_, rfl⟩

theorem survive_of_committed (store : Store (Directory × Name) Content) :
    OriginalsSurvive originals (commitLayout faults store) := by
  intro _ failed
  unfold commitLayout at failed
  simp only at failed
  split at failed
  · cases failed
  · simp only at failed
    split at failed <;> cases failed

theorem survive_of_unswapped {outcome : Except (ApplyError Name) Outcome}
    {left : KeyedMap Name Content} :
    OriginalsSurvive originals { outcome := outcome, store := initialStore originals left } := by
  have restored : Restored originals (initialStore originals left) := fun _ => rfl
  intro _ _
  exact ⟨.inl restored, restored.noneDeleted⟩

end

/-- A failure keeps every original unless only the permissions of a moved directory were not
put back and the backup is removed. -/
theorem originals_survive_iff (isDirectory : Content → Bool) (faults : Faults Name)
    (originals : KeyedMap Name Content) (staging : Except StagingError (KeyedMap Name Content)) :
    OriginalsSurvive originals (applyPlanTransaction isDirectory faults originals staging) ↔
      ∀ staged, staging = .ok staged → staged.keys ≠ [] →
        ¬ LosesOriginal isDirectory faults originals ∧
          ¬ LeavesPromoted isDirectory faults originals staged := by
  cases staging with
  | error =>
    refine iff_of_true survive_of_unswapped ?_
    intro staged same
    cases same
  | ok staged =>
    simp only [Except.ok.injEq, forall_eq']
    by_cases nothing : staged.keys = []
    · simp only [applyPlanTransaction, nothing, ↓reduceIte, ne_eq,
        not_true_eq_false, false_implies, iff_true]
      exact survive_of_unswapped
    · simp only [applyPlanTransaction, nothing, ↓reduceIte, ne_eq, not_false_eq_true, true_implies]
      rcases @swapLayout_ended _ _ _ isDirectory faults originals staged with
        ⟨allBackedUp, allPromoted, succeeded⟩ | failed
      · rw [succeeded]
        exact iff_of_true (survive_of_committed _) ⟨not_losesOriginal_of_allMoved allBackedUp,
          not_leavesPromoted_of_allMoved allPromoted⟩
      · obtain ⟨error, reported⟩ := failed.exists_error
        rw [reported]
        exact survive_iff_of_swapFailed failed

/-- One read-only directory, whose permissions cannot be put back once it is in the backup. -/
def readOnlyFaults : Faults String where
  backup := fun _ =>
    { hook := false
      resolveSource := false
      resolveTarget := false
      move :=
        { inspectTarget := false
          rename := .permissionDenied
          inspectSource := false
          grantWrite := false
          retryRename := false
          restorePermissions := true } }
  promote := fun _ => { hook := false, resolveSource := false,
                        resolveTarget := false, move := succeeding }
  metadata := false
  revert := fun _ => { hook := false, move := succeeding }
  restore := fun _ => { hook := false, move := succeeding }
  closePrebackupStaging := false
  closeBackup := .removed
  closeStaging := .removed
  closeCommittedStaging := .removed
  closeCommittedBackup := .removed
  committedStagingExists := false
  committedBackupExists := false
where
  succeeding : MoveFaults :=
    { inspectTarget := false
      rename := .succeeds
      inspectSource := false
      grantWrite := false
      retryRename := false
      restorePermissions := false }

/-- A read-only original whose permissions cannot be put back is deleted, although the
rollback reported no failure. -/
theorem read_only_original_deleted :
    let originals : KeyedMap String Bool := AList.insert "mods" true ∅
    let staged : KeyedMap String Bool := AList.insert "out" true ∅
    let result := applyPlanTransaction id readOnlyFaults originals (.ok staged)
    result.outcome = .error (.swap (.move .restorePermissions)) ∧
      result.store (.work, "mods") = none ∧
      result.store (.backup, "mods") = none ∧
      ¬ OriginalsSurvive originals result := by
  intro originals staged result
  have reported : result.outcome = .error (.swap (.move .restorePermissions)) := by rfl
  have notInWork : result.store (.work, "mods") = none := by decide
  have notInBackup : result.store (.backup, "mods") = none := by decide
  refine ⟨reported, notInWork, notInBackup, ?_⟩
  intro survive
  have original : originals.lookup "mods" = some true := by decide
  rcases (survive _ reported).2 "mods" true original with inWork | inBackup
  · rw [notInWork] at inWork
    cases inWork
  · rw [notInBackup] at inBackup
    cases inBackup

end Arclain.ApplyPlan
