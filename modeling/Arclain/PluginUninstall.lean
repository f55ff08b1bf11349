import Arclain.PluginRemoval

namespace Arclain.Plugins

/-!
# What an uninstall leaves behind

The plugin root is read as a store of stores of files, so that staging a package is a move.
A failed uninstall leaves the root as it was, or the package moved aside.
-/

open KeyedMap List FileStore Fallible

def PluginRoot.view (root : PluginRoot) : Store String (Store String Node) :=
  fun name => (root.lookup name).map fun directory file => directory.lookup file

/-- The first directory is what is left of the second after deletions. -/
def IsRemnant (remaining whole : Directory) : Prop :=
  ∀ name, remaining.lookup name = none ∨ remaining.lookup name = whole.lookup name

/-- The owned files are files of the directory, and it has no others. -/
structure OwnsDirectory (ownedFiles : List (String × Bytes)) (directory : Directory) : Prop where
  present : ∀ {name bytes}, (name, bytes) ∈ ownedFiles → directory.lookup name = some (.file bytes)
  complete : ∀ {name}, name ∉ ownedFiles.map Prod.fst → directory.lookup name = none

/-- One of the calls that restore a file failed. -/
def FileAnswers.restorationFails (answers : FileAnswers) (name : String) : Bool :=
  answers.fails (.restoreInspect name) || answers.fails (.restoreRead name) ||
    answers.fails (.createNew name) || answers.fails (.writeAll name) ||
    answers.fails (.syncAll name)

namespace IsRemnant

theorem refl (directory : Directory) : IsRemnant directory directory := fun _ => .inr rfl

theorem erase {remaining whole : Directory} (remnant : IsRemnant remaining whole)
    (name : String) : IsRemnant (AList.erase name remaining) whole := by
  intro other
  rw [lookup_erase_ite]
  split
  · exact .inl rfl
  · exact remnant other

theorem insert {remaining whole : Directory} (remnant : IsRemnant remaining whole) {name : String}
    {node : Node} (stood : whole.lookup name = some node) :
    IsRemnant (AList.insert name node remaining) whole := by
  intro other
  rw [lookup_insert_ite]
  split
  next same =>
    rw [same]
    exact .inr stood.symm
  · exact remnant other

end IsRemnant

variable {whole : Directory} (answers : FileAnswers)

theorem isRemnant_removeFiles (names : List String) {directory : Directory}
    (remnant : IsRemnant directory whole) :
    IsRemnant (removeFiles answers directory names).2 whole := by
  induction names generalizing directory with
  | nil => exact remnant
  | cons name _ ih =>
    unfold removeFiles
    dsimp only
    split
    · exact remnant
    · exact ih (remnant.erase name)

theorem isRemnant_cleanupStagedFiles (key : PluginIdentityKey)
    (directory : Directory) : IsRemnant (cleanupStagedFiles answers key directory).2 directory := by
  unfold cleanupStagedFiles
  dsimp only
  split
  · exact .refl directory
  · have remnant := isRemnant_removeFiles answers
      (sortedNames (installedPackageFileNames key)) (.refl directory)
    split
    next same =>
      rw [same] at remnant
      exact remnant
    next same =>
      rw [same] at remnant
      exact remnant

theorem writeRestoredFile_spec (directory : Directory) (name : String) (bytes : Bytes) :
    writeRestoredFile answers directory name bytes = (.ok (), directory.insert name (.file bytes)) ∨
      (writeRestoredFile answers directory name bytes).1 ≠ .ok () ∧
        answers.restorationFails name = true := by
  unfold writeRestoredFile FileAnswers.restorationFails
  split
  next failed => exact .inr ⟨nofun, by simp [failed]⟩
  · split
    next failed => exact .inr ⟨nofun, by simp [failed]⟩
    · split
      next failed => exact .inr ⟨nofun, by simp [failed]⟩
      · exact .inl rfl

variable {name : String}

theorem restoreOwnedFile_spec {remaining whole : Directory}
    (remnant : IsRemnant remaining whole) {bytes : Bytes}
    (stood : whole.lookup name = some (.file bytes)) :
    (∃ directory, restoreOwnedFile answers remaining name bytes = (.ok (), directory) ∧
      IsRemnant directory whole ∧ directory.lookup name = some (.file bytes) ∧
      ∀ {other}, remaining.lookup other = whole.lookup other →
        directory.lookup other = whole.lookup other) ∨
      (restoreOwnedFile answers remaining name bytes).1 ≠ .ok () ∧
        answers.restorationFails name = true := by
  unfold restoreOwnedFile
  split
  next failed => exact .inr ⟨nofun, by simp [FileAnswers.restorationFails, failed]⟩
  · cases left : remaining.lookup name with
    | none =>
      dsimp only
      rcases writeRestoredFile_spec answers remaining name bytes with
        written | failed
      · refine .inl ⟨_, written, remnant.insert stood, AList.lookup_insert _, ?_⟩
        intro other same
        rw [lookup_insert_ite]
        split
        next named => rw [named, stood]
        · exact same
      · exact .inr failed
    | some node =>
      have kept : node = .file bytes := by
        have found := (remnant name).resolve_left (by simp [left])
        rw [left, stood] at found
        exact Option.some.inj found
      subst node
      by_cases failed : answers.fails (.restoreRead name) = true
      · refine .inr ⟨?_, by simp [FileAnswers.restorationFails, failed]⟩
        simp [readInstalledFileBounded, FileAnswers.ask, failed, Bind.bind, Except.bind]
      · refine .inl ⟨remaining, ?_, remnant, left, id⟩
        simp [readInstalledFileBounded, FileAnswers.ask, failed, left, Bind.bind,
          Except.bind, Pure.pure, Except.pure]

theorem restoreOwnedFiles_spec (ownedFiles : List (String × Bytes))
    (present : ∀ {name bytes}, (name, bytes) ∈ ownedFiles → whole.lookup name = some (.file bytes))
    {remaining : Directory} (remnant : IsRemnant remaining whole)
    (complete : ∀ {name}, name ∉ ownedFiles.map Prod.fst →
      remaining.lookup name = whole.lookup name) :
    (∃ directory, restoreOwnedFiles answers remaining ownedFiles = (.ok (), directory) ∧
      ∀ name, directory.lookup name = whole.lookup name) ∨
      (restoreOwnedFiles answers remaining ownedFiles).1 ≠ .ok () ∧
        ∃ name ∈ ownedFiles.map Prod.fst, answers.restorationFails name = true := by
  induction ownedFiles generalizing remaining with
  | nil => exact .inl ⟨remaining, rfl, fun name => complete (by simp)⟩
  | cons owned _ ih =>
    obtain ⟨name, bytes⟩ := owned
    have stood := present (mem_cons_self (a := (name, bytes)))
    unfold restoreOwnedFiles
    rcases restoreOwnedFile_spec answers remnant stood with
      ⟨directory, restored, stillRemnant, back, keeps⟩ | ⟨stopped, failed⟩
    · rw [restored]
      dsimp only
      have later := ih (fun mem => present (mem_cons_of_mem _ mem)) stillRemnant
        (fun {other} absent => by
          by_cases same : other = name
          · rw [same, back, stood]
          · exact keeps (complete (by simpa [same] using absent)))
      rcases later with whole | ⟨stopped, other, mem, failed⟩
      · exact .inl whole
      · exact .inr ⟨stopped, other, mem_cons_of_mem _ mem, failed⟩
    · refine .inr ⟨?_, name, by simp, failed⟩
      rcases restored : restoreOwnedFile answers remaining name bytes with
        ⟨result, directory⟩
      rw [restored] at stopped
      cases result with
      | error error => exact nofun
      | ok => exact absurd rfl stopped

namespace PluginRoot

variable (root : PluginRoot)

theorem view_insert (name : String) (directory : Directory) :
    PluginRoot.view (AList.insert name directory root) =
      create root.view name fun file => directory.lookup file := by
  funext other
  simp only [PluginRoot.view, create, lookup_insert_ite]
  split
  · rfl
  · rfl

theorem view_erase (name other : String) : PluginRoot.view (AList.erase name root) other =
      if other = name then none else root.view other := by
  simp only [PluginRoot.view, lookup_erase_ite]
  split
  · rfl
  · rfl

theorem view_renameNoReplace {answers : FileAnswers} {phase : RemovalPhase}
    {root renamed : PluginRoot} {source destination : String}
    (done : renameNoReplace answers phase root source destination = .ok renamed) :
    renamed.view = move root.view source destination ∧
      renamed.lookup destination = root.lookup source ∧ root.lookup destination = none := by
  unfold renameNoReplace at done
  split at done
  next stands vacant =>
    have different : destination ≠ source := by
      intro same
      rw [same, stands] at vacant
      cases vacant
    split at done
    · cases done
    · obtain rfl := Except.ok.inj done
      refine ⟨?_, by rw [AList.lookup_insert, stands], vacant⟩
      rw [view_insert]
      funext other
      simp only [create, view_erase, move]
      by_cases atSource : other = source
      · have notDestination : other ≠ destination := fun same =>
          different (same.symm.trans atSource)
        simp [atSource, atSource ▸ notDestination]
      · by_cases atDestination : other = destination
        · simp [atDestination, different, PluginRoot.view, stands]
        · simp [atSource, atDestination]
  · cases done

end PluginRoot

/-- The removal has moved a directory of the root aside and holds it whole. -/
structure HoldsStaged (root : PluginRoot) (directory : Directory) (removal : Removal) : Prop where
  stood : root.lookup removal.originalName = some directory
  vacant : root.lookup removal.stagingName = none
  moved : removal.root.view = move root.view removal.originalName removal.stagingName
  staged : removal.staged = true

namespace HoldsStaged

variable {root : PluginRoot} {directory : Directory} {removal : Removal}

section

variable (holds : HoldsStaged root directory removal)
include holds

theorem different :
    removal.stagingName ≠ removal.originalName := by
  intro same
  have vacant := holds.vacant
  rw [same, holds.stood] at vacant
  cases vacant

theorem view_vacant :
    root.view removal.stagingName = none := by
  simp [PluginRoot.view, holds.vacant]

theorem view_original :
    removal.root.view removal.originalName = none := by
  rw [holds.moved, move_source]

theorem view_drop (answers : FileAnswers) :
    (removal.drop answers).view = root.view ∨ (removal.drop answers).view =
      move root.view removal.originalName removal.stagingName := by
  unfold Removal.drop
  split
  · dsimp only
    split
    next done =>
      obtain ⟨_, _, done⟩ := Fallible.bind_eq_ok.mp done
      obtain ⟨back, _, _⟩ := PluginRoot.view_renameNoReplace done
      rw [back, holds.moved]
      exact .inl (move_back holds.different holds.view_vacant)
    · exact .inr holds.moved
  · exact .inr holds.moved

end

end HoldsStaged

variable {answers : FileAnswers} {root : PluginRoot} {candidates : List String}

theorem uniqueRemovalName_spec (found : uniqueRemovalName answers root candidates = .ok name) :
    name ∈ candidates ∧ root.lookup name = none := by
  induction candidates with
  | nil => cases found
  | cons _ _ ih =>
    unfold uniqueRemovalName at found
    split at found
    · cases found
    · split at found
      · obtain ⟨mem, vacant⟩ := ih found
        exact ⟨mem_cons_of_mem _ mem, vacant⟩
      next absent =>
        obtain rfl := Except.ok.inj found
        exact ⟨mem_cons_self, by simpa using absent⟩

variable {key : PluginIdentityKey} {removal : Removal}

theorem openInstalled_spec
    (opened : Removal.openInstalled answers root key candidates = .ok removal) :
    removal.root = root ∧ removal.originalName = key.key ∧ removal.staged = false ∧
      removal.committed = false ∧ removal.rollbackSafe = true ∧
      removal.stagingName ∈ candidates := by
  unfold Removal.openInstalled at opened
  obtain ⟨_, _, opened⟩ := bind_eq_ok.mp opened
  obtain ⟨_, _, opened⟩ := bind_eq_ok.mp opened
  cases stands : root.lookup key.key with
  | none => simp [stands, throw] at opened
  | some =>
    simp only [stands] at opened
    obtain ⟨_, _, opened⟩ := bind_eq_ok.mp opened
    obtain ⟨_, _, opened⟩ := bind_eq_ok.mp opened
    obtain ⟨_, chosen, opened⟩ := bind_eq_ok.mp opened
    obtain rfl := Except.ok.inj opened
    exact ⟨rfl, rfl, rfl, rfl, rfl, (uniqueRemovalName_spec chosen).1⟩

theorem stage_spec (removal : Removal) (answers : FileAnswers) (key : PluginIdentityKey) :
    ((removal.stage answers key).1 ≠ .ok () ∧ (removal.stage answers key).2 = removal) ∨
      ∃ directory, HoldsStaged removal.root directory (removal.stage answers key).2 ∧
        (removal.stage answers key).2.root.lookup
          (removal.stage answers key).2.stagingName = some directory ∧
        (removal.stage answers key).2 =
          { removal with
            root := (removal.stage answers key).2.root
            staged := true } := by
  unfold Removal.stage
  dsimp only
  split
  next error stopped => exact .inl ⟨nofun, rfl⟩
  next root done =>
    obtain ⟨_, _, done⟩ := bind_eq_ok.mp done
    obtain ⟨moved, stands, vacant⟩ := PluginRoot.view_renameNoReplace done
    cases stood : removal.root.lookup removal.originalName with
    | none => simp [renameNoReplace, stood] at done
    | some directory => exact .inr ⟨directory, ⟨stood, vacant, moved, rfl⟩, stands.trans stood, rfl⟩

variable {directory : Directory}

theorem lookup_of_readInstalledFileBounded {call : FileCall}
    {name kind : String} {maxBytes : Nat} {bytes : Bytes}
    (done : readInstalledFileBounded answers call directory name maxBytes kind = .ok bytes) :
    directory.lookup name = some (.file bytes) := by
  unfold readInstalledFileBounded at done
  obtain ⟨_, _, done⟩ := Fallible.bind_eq_ok.mp done
  cases stands : directory.lookup name with
  | none => simp [stands, throw] at done
  | some node =>
    cases node with
    | other => simp [stands, throw] at done
    | file =>
      simp only [stands] at done
      split at done
      · cases done
      · obtain rfl := Except.ok.inj done
        rfl

theorem lookup_of_validateInstalledPackageContents {phase : RemovalPhase}
    (accepted : validateInstalledPackageContents answers phase key directory = .ok ())
    {name : String} (absent : name ∉ installedPackageFileNames key) :
    directory.lookup name = none := by
  unfold validateInstalledPackageContents at accepted
  obtain ⟨_, _, accepted⟩ := Fallible.bind_eq_ok.mp accepted
  by_cases same : sortedNames directory.keys = sortedNames (installedPackageFileNames key)
  · have permuted : directory.keys.Perm (installedPackageFileNames key) :=
      (perm_insertionSort _ _).symm.trans ((List.Perm.of_eq same).trans (perm_insertionSort _ _))
    exact notMem_keys_iff.mp fun mem => absent (permuted.mem_iff.mp mem)
  · simp [same, throw, Bind.bind, Except.bind] at accepted

theorem ownsDirectory_of_verifyStaged [PackageFormat] {answers : FileAnswers}
    {key : PluginIdentityKey} {target : UninstallTarget} {ownedFiles : List (String × Bytes)}
    (verified : PluginManager.verifyStaged removal answers key target = .ok ownedFiles) :
    OwnsDirectory ownedFiles removal.artifactDirectory ∧
      ownedFiles.map Prod.fst = installedPackageFileNames key := by
  unfold PluginManager.verifyStaged at verified
  obtain ⟨⟨_, _, files⟩, sidecars, verified⟩ := bind_eq_ok.mp verified
  obtain ⟨_, _, verified⟩ := bind_eq_ok.mp verified
  have same : files = ownedFiles := by
    split at verified
    · cases verified
    · exact Except.ok.inj verified
  subst same
  unfold Removal.verifySidecars at sidecars
  obtain ⟨_, contents, sidecars⟩ := bind_eq_ok.mp sidecars
  obtain ⟨manifestBytes, readManifest, sidecars⟩ := bind_eq_ok.mp sidecars
  obtain ⟨_, _, sidecars⟩ := bind_eq_ok.mp sidecars
  obtain ⟨component, readComponent, sidecars⟩ := bind_eq_ok.mp sidecars
  obtain ⟨digest, readDigest, sidecars⟩ := bind_eq_ok.mp sidecars
  obtain ⟨_, _, sidecars⟩ := bind_eq_ok.mp sidecars
  obtain ⟨_, _, sidecars⟩ := bind_eq_ok.mp sidecars
  have listed : files = [(key.key ++ ".toml", manifestBytes), (key.key ++ ".wasm", component),
      ("package.sha256", digest)] := by
    split at sidecars
    · cases sidecars
    · have returned := Except.ok.inj sidecars
      exact (Prod.mk.inj (Prod.mk.inj returned).2).2.symm
  subst listed
  refine ⟨⟨?_, ?_⟩, rfl⟩
  · intro name _ mem
    simp only [mem_cons, Prod.mk.injEq, not_mem_nil, or_false] at mem
    rcases mem with ⟨rfl, rfl⟩ | ⟨rfl, rfl⟩ | ⟨rfl, rfl⟩
    · exact lookup_of_readInstalledFileBounded readManifest
    · exact lookup_of_readInstalledFileBounded readComponent
    · exact lookup_of_readInstalledFileBounded readDigest
  · intro name absent
    exact lookup_of_validateInstalledPackageContents contents absent

theorem delete_spec
    (stands : removal.root.lookup removal.stagingName = some directory) (answers : FileAnswers)
    (key : PluginIdentityKey) :
    removal.delete answers key = (.ok (), AList.erase removal.stagingName removal.root) ∨
      (removal.delete answers key).1 ≠ .ok () ∧ ∃ remaining, IsRemnant remaining directory ∧
        (removal.delete answers key).2.lookup removal.stagingName = some remaining ∧
        ∀ {name}, name ≠ removal.stagingName → (removal.delete answers key).2.lookup name =
          removal.root.lookup name := by
  have whole : removal.artifactDirectory = directory := by simp [Removal.artifactDirectory, stands]
  have remnant := isRemnant_cleanupStagedFiles answers key directory
  unfold Removal.delete
  rw [whole]
  dsimp only
  split
  · exact .inr ⟨nofun, directory, .refl directory, stands, fun _ => rfl⟩
  · split
    next remaining stopped =>
      rw [stopped] at remnant
      exact .inr ⟨nofun, remaining, remnant, AList.lookup_insert _,
        AList.lookup_insert_ne⟩
    next remaining emptied =>
      rw [emptied] at remnant
      split
      · exact .inr ⟨nofun, remaining, remnant, AList.lookup_insert _,
          AList.lookup_insert_ne⟩
      · exact .inl rfl

/-- The directory is gone, or whole under its hidden name, or its restoration failed for
good. -/
inductive CommitEnds (removal : Removal) (answers : FileAnswers)
    (key : PluginIdentityKey) : Except PluginError Unit × Removal → Prop where
  | removed : CommitEnds removal answers key (.ok (),
      { removal with
        root := AList.erase removal.stagingName removal.root
        committed := true
        staged := false })
  | whole {error : PluginError} {root : PluginRoot} (same : root.view = removal.root.view) :
      CommitEnds removal answers key (.error error, { removal with root := root })
  | partly {error : PluginError} {root : PluginRoot} (others :
      ∀ {name}, name ≠ removal.stagingName → root.lookup name = removal.root.lookup name)
      (failed : ∃ name ∈ installedPackageFileNames key, answers.restorationFails name = true) :
      CommitEnds removal answers key
        (.error error, { removal with root := root, rollbackSafe := false })

theorem commitEnds (stands : removal.root.lookup removal.stagingName = some directory)
    (owns : OwnsDirectory removal.ownedFiles directory)
    (named : removal.ownedFiles.map Prod.fst = installedPackageFileNames key)
    (answers : FileAnswers) : CommitEnds removal answers key (removal.commit answers key) := by
  unfold Removal.commit
  rcases delete_spec stands answers key with done | ⟨stopped, remaining, remnant, left, others⟩
  · rw [done]
    exact .removed
  · rcases deletion : removal.delete answers key with ⟨result, root⟩
    rw [deletion] at stopped left others
    dsimp only at stopped left others
    cases result with
    | ok => exact absurd rfl stopped
    | error error =>
      have artifact : Removal.artifactDirectory { removal with root := root } = remaining := by
        simp [Removal.artifactDirectory, left]
      have restoration := restoreOwnedFiles_spec answers removal.ownedFiles
        owns.present remnant (fun {name} absent => by
          rcases remnant name with gone | same
          · rw [gone, owns.complete absent]
          · exact same)
      dsimp only
      rw [artifact]
      rcases restoration with ⟨restored, done, same⟩ | ⟨stuck, failed⟩
      · rw [done]
        refine .whole ?_
        rw [PluginRoot.view_insert]
        funext name
        by_cases atStaging : name = removal.stagingName
        · subst atStaging
          simp [create, PluginRoot.view, stands, same]
        · rw [create_other atStaging]
          simp [PluginRoot.view, others atStaging]
      · rw [named] at failed
        rcases ended : restoreOwnedFiles answers remaining removal.ownedFiles with
          ⟨outcome, restored⟩
        rw [ended] at stuck
        cases outcome with
        | ok => exact absurd rfl stuck
        | error error =>
          refine .partly (fun {name} atOther => ?_) failed
          rw [AList.lookup_insert_ne atOther]
          exact others atOther

/-- What a failed uninstall may leave: what stood there, the package moved aside, or one
whose restoration failed. -/
inductive LeavesPackage (root : PluginRoot) (key : PluginIdentityKey) (answers : UninstallAnswers)
    (after : PluginRoot) : Prop where
  | unchanged (same : after.view = root.view)
  | hidden (staging : String) (tried : staging ∈ removalNames answers.processId answers.sequence)
      (vacant : root.view staging = none)
      (moved : after.view = move root.view key.key staging)
  | partly (staging : String) (tried : staging ∈ removalNames answers.processId answers.sequence)
      (failed : ∃ name ∈ installedPackageFileNames key, answers.files.restorationFails name = true)
      (absent : after.view key.key = none)
      (others : ∀ name, name ≠ key.key → name ≠ staging → after.view name = root.view name)

theorem leavesPackage_drop {answers : UninstallAnswers} (holds : HoldsStaged root directory removal)
    (named : removal.originalName = key.key)
    (tried : removal.stagingName ∈ removalNames answers.processId answers.sequence) :
    LeavesPackage root key answers (removal.drop answers.files) := by
  rcases holds.view_drop answers.files with back | aside
  · exact .unchanged back
  · rw [named] at aside
    exact .hidden removal.stagingName tried holds.view_vacant aside

theorem drop_eq_root (answers : FileAnswers)
    (kept : removal.committed = true ∨ removal.rollbackSafe = false) :
    removal.drop answers = removal.root := by
  unfold Removal.drop
  rcases kept with committed | unsafeRollback
  · simp [committed]
  · simp [unsafeRollback]

theorem commit_leaves {answers : UninstallAnswers} (holds : HoldsStaged root directory removal)
    (stands : removal.root.lookup removal.stagingName = some directory)
    (owns : OwnsDirectory removal.ownedFiles directory)
    (files : removal.ownedFiles.map Prod.fst = installedPackageFileNames key)
    (named : removal.originalName = key.key)
    (tried : removal.stagingName ∈ removalNames answers.processId answers.sequence) :
    ((removal.commit answers.files key).1 = .ok () ∧ ∀ name,
      ((removal.commit answers.files key).2.drop answers.files).view name =
        if name = key.key then none else root.view name) ∨
      ((removal.commit answers.files key).1 ≠ .ok () ∧ LeavesPackage root key answers
        ((removal.commit answers.files key).2.drop answers.files) ∧ LeavesPackage root key answers
          ({ (removal.commit answers.files key).2 with
            rollbackSafe := false }.drop answers.files)) := by
  have ended := commitEnds stands owns files answers.files
  rcases committed : removal.commit answers.files key with ⟨result, after⟩
  rw [committed] at ended
  cases ended with
  | removed =>
    refine .inl ⟨rfl, fun name => ?_⟩
    rw [drop_eq_root answers.files (.inl rfl), PluginRoot.view_erase, holds.moved, named]
    by_cases atStaging : name = removal.stagingName
    · have different : name ≠ key.key := fun same =>
        holds.different (atStaging ▸ same.trans named.symm)
      rw [if_pos atStaging, if_neg different, atStaging, holds.view_vacant]
    · by_cases atKey : name = key.key
      · simp [atKey]
      · rw [if_neg atStaging, if_neg atKey, move_other atKey atStaging]
  | @whole error rootAfter same =>
    have stillHolds : HoldsStaged root directory { removal with root := rootAfter } :=
      { holds with moved := same.trans holds.moved }
    refine .inr ⟨nofun, leavesPackage_drop stillHolds named tried, ?_⟩
    rw [drop_eq_root answers.files (.inr rfl)]
    refine .hidden removal.stagingName tried holds.view_vacant ?_
    rw [same, holds.moved, named]
  | @partly error rootAfter others failed =>
    have absent : rootAfter.view key.key = none := by
      have original := holds.view_original
      rw [named] at original
      have different : key.key ≠ removal.stagingName := fun same =>
        holds.different (same.symm.trans named.symm)
      simpa [PluginRoot.view, others different] using original
    have elsewhere : ∀ name, name ≠ key.key → name ≠ removal.stagingName →
        rootAfter.view name = root.view name := by
      intro name notKey notStaging
      have kept : rootAfter.view name = removal.root.view name := by
        simp [PluginRoot.view, others notStaging]
      rw [kept, holds.moved, named, move_other notKey notStaging]
    refine .inr ⟨nofun, ?_, ?_⟩
    · rw [drop_eq_root answers.files (.inr rfl)]
      exact .partly removal.stagingName tried failed absent elsewhere
    · rw [drop_eq_root answers.files (.inr rfl)]
      exact .partly removal.stagingName tried failed absent elsewhere

theorem removePackage_root [PackageFormat] (ledger : QuarantineLedger) (root : PluginRoot)
    (key : PluginIdentityKey) (target : UninstallTarget) (answers : UninstallAnswers) :
    ((PluginManager.removePackage ledger root key target answers).1 = .ok () ∧ ∀ name,
      (PluginManager.removePackage ledger root key target answers).2.2.view name =
        if name = key.key then none else root.view name) ∨
      ((PluginManager.removePackage ledger root key target answers).1 ≠ .ok () ∧
        LeavesPackage root key answers
          (PluginManager.removePackage ledger root key target answers).2.2) := by
  unfold PluginManager.removePackage
  split
  · exact .inr ⟨nofun, .unchanged rfl⟩
  next opened isOpen =>
    obtain ⟨sameRoot, named, notStaged, _, _, tried⟩ := openInstalled_spec isOpen
    subst sameRoot
    rcases stage_spec opened answers.files key with
      ⟨stopped, unmoved⟩ | ⟨directory, holds, artifact, shape⟩
    · rcases staging : opened.stage answers.files key with ⟨result, removal⟩
      rw [staging] at stopped unmoved
      dsimp only at stopped unmoved
      subst unmoved
      cases result with
      | ok => exact absurd rfl stopped
      | error error =>
        have unstaged : removal.drop answers.files = removal.root := by
          simp [Removal.drop, notStaged]
        exact .inr ⟨nofun, unstaged ▸ .unchanged rfl⟩
    · rcases staging : opened.stage answers.files key with ⟨result, removal⟩
      rw [staging] at holds artifact shape
      dsimp only at holds artifact shape
      have stillNamed : removal.originalName = key.key := by
        rw [shape]
        exact named
      have stillTried : removal.stagingName ∈ removalNames answers.processId answers.sequence := by
        rw [shape]
        exact tried
      have left := leavesPackage_drop holds stillNamed stillTried
      cases result with
      | error error => exact .inr ⟨nofun, left⟩
      | ok =>
        dsimp only
        split
        · exact .inr ⟨nofun, left⟩
        next ownedFiles verified =>
          obtain ⟨owns, files⟩ := ownsDirectory_of_verifyStaged verified
          have whole : removal.artifactDirectory = directory := by
            simp [Removal.artifactDirectory, artifact]
          rw [whole] at owns
          have holdsOwned : HoldsStaged opened.root directory
              { removal with ownedFiles := ownedFiles } :=
            { holds with }
          split
          · exact .inr ⟨nofun, leavesPackage_drop holdsOwned stillNamed stillTried⟩
          · have committed := commit_leaves holdsOwned artifact owns files stillNamed stillTried
            rcases ending : Removal.commit { removal with ownedFiles := ownedFiles }
                answers.files key with ⟨outcome, after⟩
            rw [ending] at committed
            rcases committed with ⟨done, gone⟩ | ⟨failed, kept, keptHidden⟩
            · dsimp only at done gone
              subst done
              exact .inl ⟨rfl, gone⟩
            · cases outcome with
              | ok => exact absurd rfl failed
              | error error =>
                dsimp only
                split
                · exact .inr ⟨nofun, kept⟩
                · exact .inr ⟨nofun, keptHidden⟩

theorem removePackage_ledger [PackageFormat] {ledger : QuarantineLedger} {root : PluginRoot}
    {key : PluginIdentityKey} {target : UninstallTarget} {answers : UninstallAnswers}
    (done : (PluginManager.removePackage ledger root key target answers).1 = .ok ()) :
    ledger.remove target.fingerprint answers.removed =
      .ok (PluginManager.removePackage ledger root key target answers).2.1 := by
  revert done
  unfold PluginManager.removePackage
  split
  · exact nofun
  · split
    · exact nofun
    · split
      · exact nofun
      · dsimp only
        split
        · exact nofun
        next removed =>
          split
          · exact fun _ => removed
          · split
            · exact nofun
            · exact nofun

/-- The registries, the settings and the enabled state are the same. -/
structure SameRegistrations (before after : PluginManager) : Prop where
  plugins : after.plugins = before.plugins
  quarantinedPlugins : after.quarantinedPlugins = before.quarantinedPlugins
  enabledPlugins : after.enabledPlugins = before.enabledPlugins
  initialSettings : after.initialSettings = before.initialSettings
  settingsCache : after.settingsCache = before.settingsCache
  failedPlugins : after.failedPlugins = before.failedPlugins

/-- Nothing is left of a package in the manager: no registration, no settings, no
failure, and no record in the ledger. -/
structure Forgotten [Wirt] (manager : PluginManager) (key : PluginIdentityKey)
    (fingerprint : PackageFingerprint) : Prop where
  plugins : manager.plugins.lookup key = none
  quarantinedPlugins : manager.quarantinedPlugins.lookup key = none
  enabledPlugins : manager.enabledPlugins.lookup key = none
  initialSettings : manager.initialSettings.lookup key = none
  settingsCache : manager.settingsCache.lookup key = none
  failedPlugins : ∀ failed ∈ manager.failedPlugins, failed.hasIdentity key = false
  persisted : manager.quarantine.persisted.lookup fingerprint = none
  runtimeViolations : manager.quarantine.runtimeViolations.lookup fingerprint = none

variable {manager : PluginManager} {fingerprint : PackageFingerprint}

theorem forgotten_forgetIdentity [Wirt] (key : PluginIdentityKey)
    (persisted : manager.quarantine.persisted.lookup fingerprint = none)
    (runtimeViolations : manager.quarantine.runtimeViolations.lookup fingerprint = none) :
    Forgotten (manager.forgetIdentity key) key fingerprint where
  plugins := AList.lookup_erase key _
  quarantinedPlugins := AList.lookup_erase key _
  enabledPlugins := AList.lookup_erase key _
  initialSettings := AList.lookup_erase key _
  settingsCache := AList.lookup_erase key _
  failedPlugins := by
    intro _ mem
    simpa using (mem_filter.mp mem).2
  persisted := persisted
  runtimeViolations := runtimeViolations

theorem Forgotten.withHistory [Wirt] {key : PluginIdentityKey}
    (forgotten : Forgotten manager key fingerprint)
    (history : List ManagerEvent) : Forgotten { manager with history := history } key fingerprint :=
  { forgotten with }

/-- An uninstall leaves nothing of the package, or fails and leaves the manager and the
package whole. -/
theorem uninstall_removes_or_leaves_package [Wirt] [PackageFormat] (manager : PluginManager)
    (root : PluginRoot) (pluginId : String) (answers : UninstallAnswers) :
    ((manager.uninstallPackage root pluginId answers).1 = .ok () → ∃ key target,
      Wirt.parseIdentity pluginId = .ok key ∧
        manager.uninstallTarget pluginId key answers.discover = .ok target ∧
        (∀ name, (manager.uninstallPackage root pluginId answers).2.2.view name =
          if name = key.key then none else root.view name) ∧
        Forgotten (manager.uninstallPackage root pluginId answers).2.1 key target.fingerprint) ∧
    ((manager.uninstallPackage root pluginId answers).1 ≠ .ok () → SameRegistrations manager
      (manager.uninstallPackage root pluginId answers).2.1 ∧
        ((manager.uninstallPackage root pluginId answers).2.2 = root ∨ ∃ key,
          Wirt.parseIdentity pluginId = .ok key ∧ LeavesPackage root key answers
            (manager.uninstallPackage root pluginId answers).2.2)) := by
  unfold PluginManager.uninstallPackage
  cases parsed : Wirt.parseIdentity pluginId with
  | error error => exact ⟨nofun, fun _ => ⟨⟨rfl, rfl, rfl, rfl, rfl, rfl⟩, .inl rfl⟩⟩
  | ok key =>
    dsimp only
    cases chosen : manager.uninstallTarget pluginId key answers.discover with
    | error error => exact ⟨nofun, fun _ => ⟨⟨rfl, rfl, rfl, rfl, rfl, rfl⟩, .inl rfl⟩⟩
    | ok target =>
      have inRoot := removePackage_root manager.quarantine root key target answers
      have inLedger := @removePackage_ledger _ manager.quarantine root key target answers
      rcases removal : PluginManager.removePackage manager.quarantine root key target
          answers with ⟨result, ledger, rootAfter⟩
      rw [removal] at inRoot inLedger
      dsimp only at inRoot inLedger
      simp only [removal]
      cases result with
      | error error =>
        refine ⟨nofun, fun _ => ⟨⟨rfl, rfl, rfl, rfl, rfl, rfl⟩, ?_⟩⟩
        rcases inRoot with ⟨done, _⟩ | ⟨_, left⟩
        · cases done
        · exact .inr ⟨key, rfl, left⟩
      | ok =>
        rcases inRoot with ⟨_, gone⟩ | ⟨stopped, _⟩
        · have dropped := inLedger rfl
          obtain ⟨persisted, violations, _⟩ := QuarantineLedger.remove_eq_ok dropped
          have forgotten : Forgotten ({ manager with quarantine := ledger }.forgetIdentity
              key) key target.fingerprint :=
            forgotten_forgetIdentity key (by simpa using persisted target.fingerprint)
              (by simp [violations])
          cases manager.plugins.lookup key with
          | none | some =>
            exact ⟨fun _ => ⟨key, target, rfl, chosen, gone,
              forgotten.withHistory _⟩, absurd rfl⟩
        · exact absurd rfl stopped

/-- A format in which the three files hold one byte each. -/
abbrev samplePackageFormat : PackageFormat where
  maxManifestBytes := 1
  maxWasmBytes := 1
  decodeManifest _ := .ok uiDemoManifest
  decodeFingerprint _ := .ok uiDemoFingerprint
  packageFingerprint _ _ := .ok uiDemoFingerprint
  validateManifest _ := .ok ()

def uiDemoRoot : PluginRoot :=
  AList.singleton "ui-demo"
    (((∅ : Directory).insert "ui-demo.toml" (.file [1])).insert "ui-demo.wasm"
      (.file [2]) |>.insert "package.sha256" (.file [3]))

def disabledManager : PluginManager :=
  { PluginManager.fresh ∅ ∅ with
    plugins := AList.singleton ⟨"ui-demo"⟩ {
      metadata := uiDemoManifest.plugin
      manifest := uiDemoManifest
      fingerprint := uiDemoFingerprint
      retryAuthorized := false
      admits := false
      terminal := false }
    enabledPlugins := AList.singleton ⟨"ui-demo"⟩ false }

def uninstallFailing (calls : List FileCall) : UninstallAnswers where
  discover := .ok [uiDemoDiscovered]
  files := ⟨fun call => call ∈ calls, fun _ => 0⟩
  processId := 1
  sequence := 0
  removed := .ok ()
  restored := .ok ()
  cleanup := .ok ()

/-- A file cannot be deleted nor read: nothing deleted before it is written again, although
no call to write a file failed. -/
theorem uninstall_loses_file_without_failed_write : (∀ name,
    (uninstallFailing [.removeFile "ui-demo.toml", .restoreRead
      "ui-demo.toml"]).files.fails (.createNew name) = false ∧
    (uninstallFailing [.removeFile "ui-demo.toml", .restoreRead
      "ui-demo.toml"]).files.fails (.writeAll name) = false ∧
    (uninstallFailing [.removeFile "ui-demo.toml", .restoreRead
      "ui-demo.toml"]).files.fails (.syncAll name) = false) ∧
      (@PluginManager.uninstallPackage sampleWirt samplePackageFormat
        disabledManager uiDemoRoot "ui-demo"
        (uninstallFailing [.removeFile "ui-demo.toml", .restoreRead
          "ui-demo.toml"])).1.isOk = false ∧
      ((@PluginManager.uninstallPackage sampleWirt samplePackageFormat
        disabledManager uiDemoRoot "ui-demo"
        (uninstallFailing [.removeFile "ui-demo.toml", .restoreRead
          "ui-demo.toml"])).2.2.entries.all fun entry =>
            (entry.2.lookup "package.sha256").isNone) = true := by
  refine ⟨fun name => ?_, ?_, ?_⟩
  · simp [uninstallFailing]
  · decide +kernel
  · decide +kernel

end Arclain.Plugins
