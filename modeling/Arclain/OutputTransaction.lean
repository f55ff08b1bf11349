import Arclain.FileStore

namespace Arclain.OutputTransaction

/-!
# Committing a staged output

A pipeline artifact is built in a transaction directory beside its destination and promoted
by renames.  `commitWithHooks` follows the source call by call: every call may fail, and
somebody else may create the destination in every gap after the existence check.
-/

open Option FileStore

/-- The paths a commit touches, and every other path. -/
inductive Path (Name : Type) where
  | destination
  | artifact
  | previous
  | other (name : Name)
  deriving DecidableEq

/-- The files as they stand when the commit begins. The transaction directory is private and
holds no previous output. -/
structure StagedOutput (Name Content : Type) where
  store : Store (Path Name) Content
  replaceExisting : Bool
  previousAbsent : store .previous = none

/-- What the removal of the transaction directory leaves of it. -/
inductive Removal where
  | removed
  | failed (keepsArtifact keepsPrevious : Bool)

/-- Everything outside the function's control during one commit: the arrivals
in its gaps and the calls that fail. -/
structure Environment (Content : Type) where
  checkFails : Bool
  afterCheck : Option Content
  renameExistingFails : Bool
  afterBackup : Option Content
  beforePromoteFails : Bool
  beforePromotion : Option Content
  promoteFails : Bool
  beforeRollback : Option Content
  rollbackFails : Bool
  removal : Removal

inductive FinalizeError where
  | beforePromote
  | promote

/-- Why a commit failed.  Only the last error keeps the transaction directory,
and it names it. -/
inductive CommitError where
  | check
  | alreadyExists
  | moveExisting
  | notFinalized (cause : FinalizeError)
  | previousRestored (cause : FinalizeError)
  | recoveryRetained (cause : FinalizeError)

/-- The files and what arrived at the destination during the commit. -/
structure Progress (Name Content : Type) where
  store : Store (Path Name) Content
  arrived : List Content

/-- The result of a commit: its outcome, the files, what arrived during it,
and whether the transaction directory was kept. -/
structure Result (Name Content : Type) where
  outcome : Except CommitError Unit
  store : Store (Path Name) Content
  arrived : List Content
  rootKept : Bool

variable {Name Content : Type} [DecidableEq Name]

/-- Somebody may create the destination where nothing stands. -/
def arrival (progress : Progress Name Content) (content : Option Content) : Progress Name Content :=
  match content with
  | none => progress
  | some created =>
    match progress.store .destination with
    | some _ => progress
    | none =>
      { store := create progress.store .destination created
        arrived := progress.arrived ++ [created] }

/-- A rename of a private target, unless it is made to fail or its source is gone. -/
def renameExisting (fails : Bool) (progress : Progress Name Content)
    (source target : Path Name) : Option (Progress Name Content) :=
  if fails ∨ progress.store source = none then none
  else some { progress with store := move progress.store source target }

/-- `rename_no_replace`: it also fails where its target exists. -/
def renameWithoutReplacement (fails : Bool) (progress : Progress Name Content)
    (source target : Path Name) : Option (Progress Name Content) :=
  if fails ∨ progress.store source = none ∨ progress.store target ≠ none then none
  else some { progress with store := move progress.store source target }

def finalize (environment : Environment Content) (progress : Progress Name Content) :
    Except FinalizeError Unit × Progress Name Content :=
  if environment.beforePromoteFails then
    (.error .beforePromote, arrival progress environment.beforePromotion)
  else
    let ready := arrival progress environment.beforePromotion
    match renameWithoutReplacement environment.promoteFails ready .artifact .destination with
    | some promoted => (.ok (), promoted)
    | none => (.error .promote, ready)

/-- Put the previous output back, or keep the transaction directory. -/
def rollBack (environment : Environment Content) (cause : FinalizeError)
    (progress : Progress Name Content) : CommitError × Progress Name Content :=
  let ready := arrival progress environment.beforeRollback
  match renameWithoutReplacement environment.rollbackFails ready .previous .destination with
  | some restored => (.previousRestored cause, restored)
  | none => (.recoveryRetained cause, ready)

def transact (staged : StagedOutput Name Content) (environment : Environment Content) :
    Except CommitError Unit × Progress Name Content :=
  let start : Progress Name Content := { store := staged.store, arrived := [] }
  if environment.checkFails then (.error .check, start)
  else if (staged.store .destination).isSome then
    if ¬ staged.replaceExisting then (.error .alreadyExists, start)
    else
      let checked := arrival start environment.afterCheck
      match renameExisting environment.renameExistingFails checked .destination .previous with
      | none => (.error .moveExisting, checked)
      | some backedUp =>
        match finalize environment (arrival backedUp environment.afterBackup) with
        | (.ok (), promoted) => (.ok (), promoted)
        | (.error cause, unpromoted) =>
          ((.error (rollBack environment cause unpromoted).1),
            (rollBack environment cause unpromoted).2)
  else
    let checked := arrival (arrival start environment.afterCheck) environment.afterBackup
    match finalize environment checked with
    | (.ok (), promoted) => (.ok (), promoted)
    | (.error cause, unpromoted) => (.error (.notFinalized cause), unpromoted)

/-- `close_transaction_root`: remove the transaction directory. -/
def closeTransactionRoot (removal : Removal)
    (store : Store (Path Name) Content) : Store (Path Name) Content :=
  fun path =>
    match path, removal with
    | .artifact, .removed | .previous, .removed => none
    | .artifact, .failed keepsArtifact _ => if keepsArtifact then store .artifact else none
    | .previous, .failed _ keepsPrevious => if keepsPrevious then store .previous else none
    | path, _ => store path

def commitWithHooks (staged : StagedOutput Name Content)
    (environment : Environment Content) : Result Name Content :=
  match transact staged environment with
  | (.error (.recoveryRetained cause), progress) =>
    { outcome := .error (.recoveryRetained cause)
      store := progress.store
      arrived := progress.arrived
      rootKept := true }
  | (outcome, progress) =>
    { outcome := outcome
      store := closeTransactionRoot environment.removal progress.store
      arrived := progress.arrived
      rootKept := false }

/-- Once the destination is vacated, every file stands where it should, and only somebody
else may have created the destination. -/
structure Gap (staged : StagedOutput Name Content) (previous : Option Content)
    (progress : Progress Name Content) : Prop where
  artifact : progress.store .artifact = staged.store .artifact
  previous : progress.store .previous = previous
  others : ∀ name, progress.store (.other name) = staged.store (.other name)
  destination : (progress.arrived = [] ∧ progress.store .destination = none) ∨
    ∃ created, progress.arrived = [created] ∧ progress.store .destination = some created

namespace Gap

variable {staged : StagedOutput Name Content} {previous : Option Content}
  {progress : Progress Name Content}

omit [DecidableEq Name] in
theorem arrived (gap : Gap staged previous progress) {content : Content}
    (mem : content ∈ progress.arrived) : progress.store .destination = some content := by
  rcases gap.destination with ⟨none, -⟩ | ⟨created, one, stands⟩
  · simp [none] at mem
  · rw [one, List.mem_singleton] at mem
    rw [mem]
    exact stands

theorem arrival (gap : Gap staged previous progress) (content : Option Content) :
    Gap staged previous (OutputTransaction.arrival progress content) := by
  cases content with
  | none => exact gap
  | some created =>
    rcases gap.destination with ⟨unseen, vacant⟩ | ⟨earlier, -, stands⟩
    · simp only [OutputTransaction.arrival, vacant]
      have outside : ∀ {path : Path Name}, path ≠ .destination →
          create progress.store .destination created path = progress.store path :=
        create_other
      exact {
        artifact := (outside (by simp)).trans gap.artifact
        previous := (outside (by simp)).trans gap.previous
        others := fun name => (outside (by simp)).trans (gap.others name)
        destination := .inr ⟨created, by simp [unseen], by simp⟩ }
    · simp only [OutputTransaction.arrival, stands]
      exact gap

theorem finalize (gap : Gap staged previous progress) (environment : Environment Content) :
    (∃ content promoted, OutputTransaction.finalize environment progress = (.ok (), promoted) ∧
      staged.store .artifact = some content ∧ promoted.store .destination = some content ∧
      promoted.arrived = [] ∧ ∀ name, promoted.store (.other name) = staged.store (.other name)) ∨
      ∃ cause unpromoted, OutputTransaction.finalize environment progress =
        (.error cause, unpromoted) ∧ Gap staged previous unpromoted := by
  have ready := gap.arrival environment.beforePromotion
  unfold OutputTransaction.finalize
  split
  · exact .inr ⟨_, _, rfl, ready⟩
  · simp only [renameWithoutReplacement]
    split
    next promoted renamed =>
      split at renamed
      · simp at renamed
      next possible =>
        simp only [not_or, not_not] at possible
        cases renamed
        obtain ⟨-, present, vacant⟩ := possible
        obtain ⟨content, artifact⟩ := ne_none_iff_exists'.mp present
        refine .inl ⟨content, _, rfl, ready.artifact ▸ artifact, ?_, ?_, ?_⟩
        · simp only
          rw [move_target]
          · exact artifact
          · simp
        · rcases ready.destination with ⟨unseen, -⟩ | ⟨created, -, stands⟩
          · exact unseen
          · simp [stands] at vacant
        · intro name
          simp only
          rw [move_other]
          · exact ready.others name
          · simp
          · simp
    · exact .inr ⟨_, _, rfl, ready⟩

theorem rollBack {old : Content} (gap : Gap staged (some old) progress)
    (environment : Environment Content) (cause : FinalizeError) :
    (∃ restored, OutputTransaction.rollBack environment cause progress =
      (.previousRestored cause, restored) ∧
        restored.store .destination = some old ∧ restored.arrived = [] ∧
        ∀ name, restored.store (.other name) = staged.store (.other name)) ∨
      ∃ retained, OutputTransaction.rollBack environment cause progress =
        (.recoveryRetained cause, retained) ∧ Gap staged (some old) retained := by
  have ready := gap.arrival environment.beforeRollback
  unfold OutputTransaction.rollBack
  simp only [renameWithoutReplacement]
  split
  next restored renamed =>
    split at renamed
    · simp at renamed
    next possible =>
      simp only [not_or, not_not] at possible
      cases renamed
      obtain ⟨-, -, vacant⟩ := possible
      refine .inl ⟨_, rfl, ?_, ?_, ?_⟩
      · simp only
        rw [move_target]
        · exact ready.previous
        · simp
      · rcases ready.destination with ⟨unseen, -⟩ | ⟨created, -, stands⟩
        · exact unseen
        · simp [stands] at vacant
      · intro name
        simp only
        rw [move_other]
        · exact ready.others name
        · simp
        · simp
  · exact .inr ⟨_, rfl, ready⟩

end Gap

/-- How the steps under the destination lock can end. -/
inductive Transacted (staged : StagedOutput Name Content) :
    Except CommitError Unit → Progress Name Content → Prop where
  | untouched {error : CommitError} : (∀ cause, error ≠ .recoveryRetained cause) →
      Transacted staged (.error error) { store := staged.store, arrived := [] }
  | promoted {progress : Progress Name Content} {content : Content} :
      staged.store .artifact = some content →
      progress.store .destination = some content →
      progress.arrived = [] →
      (∀ name, progress.store (.other name) = staged.store (.other name)) →
      Transacted staged (.ok ()) progress
  | notFinalized {progress : Progress Name Content} {cause : FinalizeError} :
      staged.store .destination = none →
      Gap staged none progress →
      Transacted staged (.error (.notFinalized cause)) progress
  | restored {progress : Progress Name Content} {cause : FinalizeError} :
      progress.store .destination = staged.store .destination →
      progress.arrived = [] →
      (∀ name, progress.store (.other name) = staged.store (.other name)) →
      Transacted staged (.error (.previousRestored cause)) progress
  | retained {progress : Progress Name Content} {cause : FinalizeError} :
      Gap staged (staged.store .destination) progress →
      Transacted staged (.error (.recoveryRetained cause)) progress

variable {old : Content}

theorem arrival_of_occupied {progress : Progress Name Content}
    (stands : progress.store .destination = some old) (content : Option Content) :
    arrival progress content = progress := by
  cases content with
  | none => rfl
  | some => simp only [arrival, stands]

theorem Gap.of_backup {staged : StagedOutput Name Content}
    (stands : staged.store .destination = some old) : Gap staged (some old)
      { store := move staged.store .destination .previous
        arrived := [] } where
  artifact := by
    simp only
    rw [move_other]
    · simp
    · simp
  previous := by
    simp only
    rw [move_target]
    · exact stands
    · simp
  others := by
    intro _
    simp only
    rw [move_other]
    · simp
    · simp
  destination := by
    simp only [move_source]
    exact .inl ⟨trivial, trivial⟩

variable (staged : StagedOutput Name Content)

theorem transacted_of_replacement (environment : Environment Content)
    (stands : staged.store .destination = some old) (checked : environment.checkFails = false)
    (replace : staged.replaceExisting = true) :
    Transacted staged (transact staged environment).1 (transact staged environment).2 := by
  have unseen : arrival { store := staged.store, arrived := [] } environment.afterCheck =
      { store := staged.store, arrived := [] } :=
    arrival_of_occupied stands _
  simp only [transact, checked, stands, replace, Bool.false_eq_true,
    ↓reduceIte, isSome_some, not_true_eq_false, unseen, renameExisting]
  split
  · refine .untouched ?_
    simp
  next renamed =>
    split at renamed
    · simp at renamed
    · cases renamed
      rcases ((Gap.of_backup stands).arrival environment.afterBackup).finalize environment with
        ⟨content, promoted, ended, artifact, destination, arrived, others⟩ |
          ⟨cause, unpromoted, ended, stillGap⟩
      · rw [ended]
        exact .promoted artifact destination arrived others
      · rw [ended]
        rcases stillGap.rollBack environment cause with
          ⟨restored, rolled, destination, arrived, others⟩ | ⟨retained, rolled, keptGap⟩
        · simp only [rolled]
          exact .restored (destination.trans stands.symm) arrived others
        · simp only [rolled]
          exact .retained (stands ▸ keptGap)

theorem transacted_of_creation
    (environment : Environment Content) (vacant : staged.store .destination = none)
    (checked : environment.checkFails = false) :
    Transacted staged (transact staged environment).1 (transact staged environment).2 := by
  simp only [transact, checked, vacant, Bool.false_eq_true, ↓reduceIte, isSome_none]
  have gap : Gap staged none { store := staged.store, arrived := [] } :=
    { artifact := rfl
      previous := staged.previousAbsent
      others := fun _ => rfl
      destination := .inl ⟨rfl, vacant⟩ }
  rcases ((gap.arrival environment.afterCheck).arrival
      environment.afterBackup).finalize environment with
    ⟨content, promoted, ended, artifact, destination, arrived, others⟩ |
      ⟨cause, unpromoted, ended, stillGap⟩
  · rw [ended]
    exact .promoted artifact destination arrived others
  · rw [ended]
    exact .notFinalized vacant stillGap

theorem transacted (environment : Environment Content) :
    Transacted staged (transact staged environment).1 (transact staged environment).2 := by
  cases checked : environment.checkFails with
  | true =>
    simp only [transact, checked, ↓reduceIte]
    refine .untouched ?_
    simp
  | false =>
    cases stands : staged.store .destination with
    | none => exact transacted_of_creation staged environment stands checked
    | some =>
      cases replace : staged.replaceExisting with
      | true => exact transacted_of_replacement staged environment stands checked replace
      | false =>
        simp only [transact, checked, stands, replace, Bool.false_eq_true,
          ↓reduceIte, isSome_some, not_false_eq_true]
        refine .untouched ?_
        simp

omit [DecidableEq Name] in
theorem closeTransactionRoot_outside (removal : Removal) (store : Store (Path Name) Content) :
    closeTransactionRoot removal store .destination = store .destination ∧
      ∀ name, closeTransactionRoot removal store (.other name) = store (.other name) := by
  cases removal with
  | removed | failed => exact ⟨rfl, fun _ => rfl⟩

/-- A commit puts the artifact at the destination, or leaves there what stood or arrived
there. -/
theorem commit_preserves_outputs (staged : StagedOutput Name Content)
    (environment : Environment Content) :
    let result := commitWithHooks staged environment
    (result.outcome = .ok () → (∃ content, staged.store .artifact = some content ∧
      result.store .destination = some content) ∧
        ∀ name, result.store (.other name) = staged.store (.other name)) ∧
      (∀ error, result.outcome = .error error →
        ∀ content, staged.store .destination = some content →
          result.store .destination = some content ∨ result.rootKept = true ∧
            result.store .previous = some content) ∧
      ∀ content ∈ result.arrived, result.store .destination = some content := by
  have ended := transacted staged environment
  have outside :=
    closeTransactionRoot_outside environment.removal (transact staged environment).2.store
  unfold commitWithHooks
  rcases shape : transact staged environment with ⟨outcome, progress⟩
  rw [shape] at ended outside
  simp only at ended outside
  cases ended with
  | @untouched error released =>
    cases error with
    | recoveryRetained cause => exact (released cause rfl).elim
    | _ =>
      refine ⟨by simp, fun _ _ content stands => .inl ?_, by simp⟩
      exact outside.1.trans stands
  | promoted artifact destination arrived others =>
    refine ⟨fun _ => ⟨⟨_, artifact, outside.1.trans destination⟩, ?_⟩,
      by simp, by simp [arrived]⟩
    intro name
    exact (outside.2 name).trans (others name)
  | notFinalized vacant gap =>
    refine ⟨by simp, by simp [vacant], fun content mem => ?_⟩
    exact outside.1.trans (gap.arrived mem)
  | restored destination arrived others =>
    refine ⟨by simp, fun _ _ content stands => .inl ?_,
      by simp [arrived]⟩
    exact outside.1.trans (destination.trans stands)
  | retained gap =>
    refine ⟨by simp, fun _ _ content stands => .inr ⟨rfl, ?_⟩,
      fun _ => gap.arrived⟩
    exact gap.previous.trans stands

end Arclain.OutputTransaction
