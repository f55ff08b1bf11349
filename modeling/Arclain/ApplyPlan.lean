import Arclain.FileStore
import Arclain.KeyedMap

namespace Arclain.ApplyPlan

/-!
# Applying a plan to the work directory

The new layout is staged beside the work directory.  Then every original entry is renamed
into a backup directory and every staged entry into the work directory; a failure on the way
is rolled back.
-/

open FileStore

/-- The three directories of the transaction. -/
inductive Directory where
  | work
  | staging
  | backup
  deriving DecidableEq

inductive RenameAnswer where
  | succeeds
  | permissionDenied
  | fails

/-- Which calls of one `rename_noclobber` fail. -/
structure MoveFaults where
  inspectTarget : Bool
  rename : RenameAnswer
  inspectSource : Bool
  grantWrite : Bool
  retryRename : Bool
  restorePermissions : Bool

/-- Which calls of one step of the swap fail. -/
structure StepFaults where
  hook : Bool
  resolveSource : Bool
  resolveTarget : Bool
  move : MoveFaults

/-- Which calls of one step of the rollback fail. -/
structure UndoFaults where
  hook : Bool
  move : MoveFaults

/-- How the removal of a transaction directory ended. A failed one may have gone through a
part of it: an entry survives that is still whole, with everything below it. -/
inductive Removal (Name : Type) where
  | removed
  | failed (survives : Name → Bool)

/-- The calls after staging that fail, by their steps, and whether the directory of a
transaction survives its removal. -/
structure Faults (Name : Type) where
  backup : Nat → StepFaults
  promote : Nat → StepFaults
  metadata : Bool
  revert : Nat → UndoFaults
  restore : Nat → UndoFaults
  closePrebackupStaging : Bool
  closeBackup : Removal Name
  closeStaging : Removal Name
  closeCommittedStaging : Removal Name
  closeCommittedBackup : Removal Name
  committedStagingExists : Bool
  committedBackupExists : Bool

/-- Why `rename_noclobber` failed. -/
inductive MoveError where
  | inspectTarget
  | targetExists
  | rename
  | restorePermissions

inductive SwapError where
  | hook
  | resolveSource
  | resolveTarget
  | move (error : MoveError)
  | metadata

inductive UndoError where
  | hook
  | move (error : MoveError)

inductive StagingError where
  | building
  | stagedNothing

/-- Why applying a plan failed, with the directories a rollback keeps or a cleanup could not
remove. -/
inductive ApplyError (Name : Type) where
  | staging (error : StagingError)
  | stagingKept (error : StagingError)
  | rollback (swap : SwapError) (failures : List (Name × UndoError))
  | cleanup (swap : SwapError) (unremoved : List Directory)
  | swap (error : SwapError)

/-- How applying a plan succeeds, and the directories it leaves behind. -/
inductive Outcome where
  | committed
  | committedWithCleanupWarnings (retained : List Directory)
  deriving DecidableEq

structure Result (Name Content : Type) where
  outcome : Except (ApplyError Name) Outcome
  store : Store (Directory × Name) Content

/-- How far a loop of renames came, and the names it recorded. -/
structure Moves (Name Content : Type) where
  result : Except SwapError Unit
  store : Store (Directory × Name) Content
  moved : List Name

structure Swap (Name Content : Type) where
  result : Except SwapError Unit
  store : Store (Directory × Name) Content
  backedUp : List Name
  promoted : List Name

variable {Name Content : Type} [DecidableEq Name]

section

variable (isDirectory : Content → Bool)

section

variable (faults : MoveFaults) (store : Store (Directory × Name) Content)
  (source target : Directory × Name)

/-- `rename_read_only_directory`: grant write permission, try again, and put the permissions
back wherever it ended up. -/
def renameReadOnlyDirectory (content : Content) :
    Except MoveError Unit × Store (Directory × Name) Content :=
  if faults.inspectSource then (.error .rename, store)
  else if ¬ isDirectory content then (.error .rename, store)
  else if faults.grantWrite then (.error .rename, store)
  else if faults.retryRename then (.error .rename, store)
  else if faults.restorePermissions then (.error .restorePermissions, move store source target)
  else (.ok (), move store source target)

def renameNoclobber : Except MoveError Unit × Store (Directory × Name) Content :=
  if faults.inspectTarget then (.error .inspectTarget, store)
  else if (store target).isSome then (.error .targetExists, store)
  else
    match store source with
    | none => (.error .rename, store)
    | some content =>
      match faults.rename with
      | .succeeds => (.ok (), move store source target)
      | .fails => (.error .rename, store)
      | .permissionDenied => renameReadOnlyDirectory isDirectory faults store source target content

end

/-- One step of the swap: the hook, the two path checks and the rename. -/
def swapStep (faults : StepFaults) (store : Store (Directory × Name) Content)
    (source target : Directory × Name) : Except SwapError Unit × Store (Directory × Name) Content :=
  if faults.hook then (.error .hook, store)
  else if faults.resolveSource then (.error .resolveSource, store)
  else if faults.resolveTarget then (.error .resolveTarget, store)
  else
    match renameNoclobber isDirectory faults.move store source target with
    | (.ok (), moved) => (.ok (), moved)
    | (.error error, left) => (.error (.move error), left)

/-- Rename one name after another, recording each that succeeded and stopping at the first
that failed. -/
def moveAll (faults : Nat → StepFaults) (source target : Directory) :
    List Name → Nat → Store (Directory × Name) Content → List Name → Moves Name Content
  | [], _, store, moved => { result := .ok (), store := store, moved := moved }
  | name :: rest, index, store, moved =>
    match swapStep isDirectory (faults index) store (source, name) (target, name) with
    | (.ok (), next) => moveAll faults source target rest (index + 1) next (moved ++ [name])
    | (.error error, left) => { result := .error error, store := left, moved := moved }

def undoStep (faults : UndoFaults) (store : Store (Directory × Name) Content)
    (source target : Directory × Name) : Except UndoError Unit × Store (Directory × Name) Content :=
  if faults.hook then (.error .hook, store)
  else
    match renameNoclobber isDirectory faults.move store source target with
    | (.ok (), moved) => (.ok (), moved)
    | (.error error, left) => (.error (.move error), left)

/-- Undo one rename after another, collecting the failures and going on. -/
def undoAll (faults : Nat → UndoFaults) (source target : Directory) :
    List Name → Nat → Store (Directory × Name) Content →
      List (Name × UndoError) × Store (Directory × Name) Content
  | [], _, store => ([], store)
  | name :: rest, index, store =>
    match undoStep isDirectory (faults index) store (source, name) (target, name) with
    | (.ok (), next) => undoAll faults source target rest (index + 1) next
    | (.error error, left) =>
      ((name, error) :: (undoAll faults source target rest (index + 1) left).1,
        (undoAll faults source target rest (index + 1) left).2)

/-- The swap: back up every original entry, promote every staged one, and
apply the deferred metadata. -/
def swapLayout (faults : Faults Name) (originalEntries stagedEntries : List Name)
    (store : Store (Directory × Name) Content) : Swap Name Content :=
  let backups := moveAll isDirectory faults.backup .work .backup originalEntries 0 store []
  match backups.result with
  | .error error =>
    { result := .error error
      store := backups.store
      backedUp := backups.moved
      promoted := [] }
  | .ok () =>
    let promotions :=
      moveAll isDirectory faults.promote .staging .work stagedEntries 0 backups.store []
    match promotions.result with
    | .error error =>
      { result := .error error
        store := promotions.store
        backedUp := backups.moved
        promoted := promotions.moved }
    | .ok () =>
      { result := if faults.metadata then .error .metadata else .ok ()
        store := promotions.store
        backedUp := backups.moved
        promoted := promotions.moved }

/-- `rollback_layout_swap`: revert the promotions and restore the backups,
each in reverse order. -/
def rollbackLayoutSwap (faults : Faults Name) (swap : Swap Name Content) :
    List (Name × UndoError) × Store (Directory × Name) Content :=
  let reverted :=
    undoAll isDirectory faults.revert .work .staging swap.promoted.reverse 0 swap.store
  let restored :=
    undoAll isDirectory faults.restore .backup .work swap.backedUp.reverse 0 reverted.2
  (reverted.1 ++ restored.1, restored.2)

end

def removeDirectory (directory : Directory) (removal : Removal Name)
    (store : Store (Directory × Name) Content) : Store (Directory × Name) Content :=
  fun place =>
    if place.1 = directory then
      match removal with
      | .removed => none
      | .failed survives => if survives place.2 then store place else none
    else store place

namespace Removal

omit [DecidableEq Name] in
def isFailed : Removal Name → Bool
  | .removed => false
  | .failed _ => true

omit [DecidableEq Name] in
def keeps : Removal Name → Name → Bool
  | .removed, _ => false
  | .failed survives, name => survives name

end Removal

omit [DecidableEq Name] in
/-- The directories `close_transaction_directories` could not remove. -/
def unremovedDirectories (faults : Faults Name) : List Directory :=
  (if faults.closeBackup.isFailed then [.backup] else []) ++
    (if faults.closeStaging.isFailed then [.staging] else [])

def initialStore (originals staged : KeyedMap Name Content) : Store (Directory × Name) Content :=
  fun place =>
    match place.1 with
    | .work => originals.lookup place.2
    | .staging => staged.lookup place.2
    | .backup => none

/-- Commit: remove the staging directory first and then the backup. -/
def commitLayout (faults : Faults Name)
    (store : Store (Directory × Name) Content) : Result Name Content :=
  let withoutStaging := removeDirectory .staging faults.closeCommittedStaging store
  if faults.closeCommittedStaging.isFailed then
    { outcome :=
      .ok (.committedWithCleanupWarnings
        ((if faults.committedStagingExists then [.staging] else []) ++ [.backup]))
      store := withoutStaging }
  else
    { outcome :=
      if faults.closeCommittedBackup.isFailed then
        .ok (.committedWithCleanupWarnings (if faults.committedBackupExists then [.backup] else []))
      else .ok .committed
      store := removeDirectory .backup faults.closeCommittedBackup withoutStaging }

/-- A failed swap is rolled back, and the transaction directories are kept or removed. -/
def abandonLayout (isDirectory : Content → Bool) (faults : Faults Name) (error : SwapError)
    (swap : Swap Name Content) : Result Name Content :=
  let rollback := rollbackLayoutSwap isDirectory faults swap
  if rollback.1 ≠ [] then
    { outcome := .error (.rollback error rollback.1)
      store := rollback.2 }
  else
    { outcome :=
      if unremovedDirectories faults ≠ [] then .error (.cleanup error (unremovedDirectories faults))
      else .error (.swap error)
      store :=
        removeDirectory .staging faults.closeStaging
          (removeDirectory .backup faults.closeBackup rollback.2) }

/-- `apply_plan_transaction_with_hooks`, from what was staged on. -/
def applyPlanTransaction (isDirectory : Content → Bool) (faults : Faults Name)
    (originals : KeyedMap Name Content) (staging : Except StagingError (KeyedMap Name Content)) :
    Result Name Content :=
  let unswapped := fun error : StagingError =>
    { outcome :=
      if faults.closePrebackupStaging then .error (.stagingKept error)
      else .error (.staging error)
      store := initialStore originals ∅ : Result Name Content }
  match staging with
  | .error error => unswapped error
  | .ok staged =>
    if staged.keys = [] then unswapped .stagedNothing
    else
      let swap :=
        swapLayout isDirectory faults originals.keys staged.keys (initialStore originals staged)
      match swap.result with
      | .ok () => commitLayout faults swap.store
      | .error error => abandonLayout isDirectory faults error swap

end Arclain.ApplyPlan
