import Mathlib.Data.List.Sort
import Arclain.FileStore
import Arclain.PluginManager

namespace Arclain.Plugins

/-!
# The staged removal of a package

`StagedPluginRemoval`: an installed directory is moved aside under a hidden name, checked
there, emptied and removed.  Whatever goes wrong, the deleted files are written again and
the directory is moved back.  Every call may fail.
-/

abbrev Bytes := List UInt8

/-- What stands under a name in a plugin directory: a regular file, or a
directory or link. -/
inductive Node where
  | file (bytes : Bytes)
  | other

/-- A plugin directory. -/
abbrev Directory := KeyedMap String Node

abbrev PluginRoot := KeyedMap String Directory

/-- The sections of a removal that make the same calls. -/
inductive RemovalPhase where
  | opening
  | staging
  | verifying
  | committing
  | reopening
  | rollingBack
  deriving DecidableEq

/-- The calls to the file system. `check` stands for three calls that look at one file. -/
inductive FileCall where
  | revalidate (phase : RemovalPhase)
  | openDirectory (phase : RemovalPhase)
  | identify (phase : RemovalPhase)
  | entries (phase : RemovalPhase)
  | check (phase : RemovalPhase) (name : String)
  | probe (name : String)
  | rename (phase : RemovalPhase)
  | read (name : String)
  | cleanupEntries
  | cleanupInspect (name : String)
  | removeFile (name : String)
  | cleanupEmpty
  | ensureEmpty
  | removeDirectory
  | restoreInspect (name : String)
  | restoreRead (name : String)
  | createNew (name : String)
  | writeAll (name : String)
  | syncAll (name : String)
  deriving DecidableEq

/-- Which calls fail, and how many bytes a failed write has left behind. -/
structure FileAnswers where
  fails : FileCall → Bool
  writtenBytes : String → Nat

/-- What is known of packages: the limits, the decoding of the three files, the fingerprint,
and the validation of a manifest. -/
class PackageFormat where
  maxManifestBytes : Nat
  maxWasmBytes : Nat
  decodeManifest : Bytes → Except PluginError PluginManifest
  decodeFingerprint : Bytes → Except PluginError PackageFingerprint
  packageFingerprint : Bytes → Bytes → Except PluginError PackageFingerprint
  validateManifest : PluginManifest → Except PluginError Unit

/-- Make a call, with the context of its error. -/
def FileAnswers.ask (answers : FileAnswers) (call : FileCall)
    (context : String) : Except PluginError Unit :=
  if answers.fails call then .error (.io context) else .ok ()

def installedPackageFileNames (key : PluginIdentityKey) : List String :=
  [key.key ++ ".toml", key.key ++ ".wasm", "package.sha256"]

def sortedNames (names : List String) : List String := names.insertionSort (· ≤ ·)

/-- The look at one file in `validate_installed_package_contents`. -/
def checkInstalledFile (answers : FileAnswers) (phase : RemovalPhase) (directory : Directory)
    (name : String) : Except PluginError Unit := do
  answers.ask (.check phase name) "Failed to inspect installed plugin file"
  match directory.lookup name with
  | some (.file _) => return ()
  | _ => throw (.conflict "installed plugin file is not a non-link regular file")

def validateInstalledPackageContents (answers : FileAnswers) (phase : RemovalPhase)
    (key : PluginIdentityKey) (directory : Directory) : Except PluginError Unit := do
  answers.ask (.entries phase) "Failed to inspect installed plugin directory"
  if sortedNames directory.keys ≠ sortedNames (installedPackageFileNames key) then
    throw (.conflict "installed plugin directory contents changed; refusing removal")
  (sortedNames (installedPackageFileNames key)).forM (checkInstalledFile answers phase directory)

def readInstalledFileBounded (answers : FileAnswers) (call : FileCall) (directory : Directory)
    (name : String) (maxBytes : Nat) (kind : String) : Except PluginError Bytes := do
  answers.ask call ("Failed to read installed " ++ kind)
  match directory.lookup name with
  | some (.file bytes) =>
    if maxBytes < bytes.length then
      throw (.loadError ("installed " ++ kind ++ " exceeds the limit"))
    return bytes
  | some .other => throw (.conflict ("installed " ++ kind ++ " is not a non-link regular file"))
  | none => throw (.io ("Failed to open installed " ++ kind))

/-- The deletions of `cleanup_staged_files`, each after a look at the file. -/
def removeFiles (answers : FileAnswers) (directory : Directory) :
    List String → Except PluginError Unit × Directory
  | [] => (.ok (), directory)
  | name :: rest =>
    let removable : Except PluginError Unit := do
      answers.ask (.cleanupInspect name) "Failed to remove installed plugin files"
      match directory.lookup name with
      | some (.file _) => pure ()
      | _ => throw (.io "staged plugin file is not a non-symlink regular file")
      answers.ask (.removeFile name) "Failed to remove installed plugin files"
    match removable with
    | .error error => (.error error, directory)
    | .ok () => removeFiles answers (directory.erase name) rest

def ensureDirectoryEmpty (answers : FileAnswers) (call : FileCall)
    (directory : Directory) : Except PluginError Unit := do
  answers.ask call "Failed to validate empty plugin removal"
  if directory.keys ≠ [] then throw (.io "contains an unexpected entry; refusing recursive cleanup")

def cleanupStagedFiles (answers : FileAnswers) (key : PluginIdentityKey)
    (directory : Directory) : Except PluginError Unit × Directory :=
  let expected := sortedNames (installedPackageFileNames key)
  let unchanged : Except PluginError Unit := do
    answers.ask .cleanupEntries "Failed to remove installed plugin files"
    if sortedNames directory.keys ≠ expected then
      throw (.io "staged plugin directory contents changed; refusing cleanup")
  match unchanged with
  | .error error => (.error error, directory)
  | .ok () =>
    match removeFiles answers directory expected with
    | (.error error, directory) => (.error error, directory)
    | (.ok (), directory) => (ensureDirectoryEmpty answers .cleanupEmpty directory, directory)

/-- `write_restored_file`; a write that fails leaves part of the bytes. -/
def writeRestoredFile (answers : FileAnswers) (directory : Directory) (name : String)
    (bytes : Bytes) : Except PluginError Unit × Directory :=
  if answers.fails (.createNew name) then
    (.error (.io "Failed to recreate plugin rollback file"), directory)
  else if answers.fails (.writeAll name) then
    (.error (.io "Failed to restore plugin rollback file"),
      directory.insert name (.file (bytes.take (answers.writtenBytes name))))
  else if answers.fails (.syncAll name) then
    (.error (.io "Failed to flush plugin rollback file"), directory.insert name (.file bytes))
  else (.ok (), directory.insert name (.file bytes))

/-- The step of `restore_owned_files` for one file. -/
def restoreOwnedFile (answers : FileAnswers) (directory : Directory) (name : String)
    (expected : Bytes) : Except PluginError Unit × Directory :=
  if answers.fails (.restoreInspect name) then
    (.error (.io "Failed to inspect plugin rollback target"), directory)
  else
    match directory.lookup name with
    | none => writeRestoredFile answers directory name expected
    | some .other =>
      (.error (.conflict "installed plugin rollback target is not a regular file"), directory)
    | some (.file _) =>
      match readInstalledFileBounded answers (.restoreRead name) directory name
        expected.length "plugin rollback file" with
      | .error error => (.error error, directory)
      | .ok actual =>
        if actual = expected then (.ok (), directory)
        else (.error (.conflict "installed plugin rollback target changed"), directory)

def restoreOwnedFiles (answers : FileAnswers) (directory : Directory) :
    List (String × Bytes) → Except PluginError Unit × Directory
  | [] => (.ok (), directory)
  | (name, expected) :: rest =>
    match restoreOwnedFile answers directory name expected with
    | (.error error, directory) => (.error error, directory)
    | (.ok (), directory) => restoreOwnedFiles answers directory rest

/-- `StagedPluginRemoval`, with the root it works on. -/
structure Removal where
  root : PluginRoot
  originalName : String
  stagingName : String
  ownedFiles : List (String × Bytes)
  staged : Bool
  committed : Bool
  rollbackSafe : Bool

/-- The hidden name for one value of the staging counter, in sixteen
hexadecimal digits. -/
def removalName (processId sequence : Nat) : String :=
  let digits := Nat.toDigits 16 sequence
  ".arclain-plugin-uninstall-" ++ toString processId ++ "-" ++
    String.ofList (List.replicate (16 - digits.length) '0' ++ digits)

def removalNames (processId sequence : Nat) : List String :=
  (List.range 128).map fun offset => removalName processId (sequence + offset)

/-- `unique_removal_name` over the names that are tried. -/
def uniqueRemovalName (answers : FileAnswers)
    (root : PluginRoot) : List String → Except PluginError String
  | [] => .error (.io "Failed to allocate a unique plugin uninstall staging name")
  | name :: rest =>
    if answers.fails (.probe name) then
      .error (.io "Failed to inspect plugin uninstall staging name")
    else if (root.lookup name).isSome then uniqueRemovalName answers root rest
    else .ok name

/-- `rename_removal_no_replace`. -/
def renameNoReplace (answers : FileAnswers) (phase : RemovalPhase) (root : PluginRoot)
    (source destination : String) : Except PluginError PluginRoot :=
  match root.lookup source, root.lookup destination with
  | some directory, none =>
    if answers.fails (.rename phase) then
      .error (.io "Failed to atomically stage or restore installed plugin directory")
    else .ok ((root.erase source).insert destination directory)
  | _, _ => .error (.io "Failed to atomically stage or restore installed plugin directory")

namespace Removal

/-- `StagedPluginRemoval::open`. -/
def openInstalled (answers : FileAnswers) (root : PluginRoot) (key : PluginIdentityKey)
    (candidates : List String) : Except PluginError Removal := do
  answers.ask (.revalidate .opening) "Failed to revalidate plugin root"
  answers.ask (.openDirectory .opening) "Failed to open installed plugin directory"
  match root.lookup key.key with
  | none => throw (.io "Failed to open installed plugin directory")
  | some directory =>
    validateInstalledPackageContents answers .opening key directory
    answers.ask (.identify .opening) "installed plugin directory is not a directory"
    let stagingName ← uniqueRemovalName answers root candidates
    return {
      root := root
      originalName := key.key
      stagingName := stagingName
      ownedFiles := []
      staged := false
      committed := false
      rollbackSafe := true }

def artifactDirectory (removal : Removal) : Directory :=
  (removal.root.lookup removal.stagingName).getD ∅

def stage (removal : Removal) (answers : FileAnswers)
    (key : PluginIdentityKey) : Except PluginError Unit × Removal :=
  let moved : Except PluginError PluginRoot := do
    answers.ask (.revalidate .staging) "Failed to revalidate plugin root"
    renameNoReplace answers .staging removal.root removal.originalName removal.stagingName
  match moved with
  | .error error => (.error error, removal)
  | .ok root =>
    let removal := { removal with root := root, staged := true }
    let checked : Except PluginError Unit := do
      answers.ask (.openDirectory .staging) "Failed to reopen staged plugin removal"
      answers.ask (.identify .staging) "Installed plugin identity changed before removal"
      validateInstalledPackageContents answers .staging key removal.artifactDirectory
    (checked, removal)

def verifySidecars [PackageFormat] (removal : Removal) (answers : FileAnswers)
    (key : PluginIdentityKey) :
    Except PluginError (PluginManifest × PackageFingerprint × List (String × Bytes)) := do
  let directory := removal.artifactDirectory
  validateInstalledPackageContents answers .verifying key directory
  let manifestName := key.key ++ ".toml"
  let wasmName := key.key ++ ".wasm"
  let manifestBytes ← readInstalledFileBounded answers (.read manifestName) directory
    manifestName PackageFormat.maxManifestBytes "plugin manifest"
  let manifest ← PackageFormat.decodeManifest manifestBytes
  let component ← readInstalledFileBounded answers (.read wasmName) directory wasmName
    PackageFormat.maxWasmBytes "plugin WASM"
  let fingerprintBytes ← readInstalledFileBounded answers (.read "package.sha256")
    directory "package.sha256" 64 "package fingerprint"
  let fingerprint ← PackageFormat.decodeFingerprint fingerprintBytes
  let canonical ← PackageFormat.packageFingerprint manifestBytes component
  if canonical ≠ fingerprint then throw (.loadError "package fingerprint does not match sidecars")
  return (manifest, fingerprint, [(manifestName, manifestBytes), (wasmName, component),
    ("package.sha256", fingerprintBytes)])

section

variable (removal : Removal) (answers : FileAnswers)

/-- The deletion that `commit` attempts, with the root it leaves. -/
def delete (key : PluginIdentityKey) : Except PluginError Unit × PluginRoot :=
  let directory := removal.artifactDirectory
  let checked : Except PluginError Unit := do
    answers.ask (.identify .committing) "Failed to validate staged plugin removal"
    validateInstalledPackageContents answers .committing key directory
  match checked with
  | .error error => (.error error, removal.root)
  | .ok () =>
    match cleanupStagedFiles answers key directory with
    | (.error error, directory) => (.error error, removal.root.insert removal.stagingName directory)
    | (.ok (), directory) =>
      let emptied : Except PluginError Unit := do
        answers.ask (.openDirectory .reopening) "Failed to reopen staged plugin removal"
        answers.ask (.identify .reopening) "Failed to validate staged plugin removal"
        ensureDirectoryEmpty answers .ensureEmpty directory
        answers.ask .removeDirectory "Failed to remove installed plugin directory"
      match emptied with
      | .error error => (.error error, removal.root.insert removal.stagingName directory)
      | .ok () => (.ok (), removal.root.erase removal.stagingName)

def commit (key : PluginIdentityKey) : Except PluginError Unit × Removal :=
  match removal.delete answers key with
  | (.ok (), root) => (.ok (), { removal with root := root, committed := true, staged := false })
  | (.error error, root) =>
    let removal := { removal with root := root }
    let restored := restoreOwnedFiles answers removal.artifactDirectory removal.ownedFiles
    let removal := { removal with root := removal.root.insert removal.stagingName restored.2 }
    match restored.1 with
    | .ok () => (.error error, removal)
    | .error _ =>
      (.error (.io ("Failed to restore plugin after artifact deletion failed; " ++
        "the installed path was not republished and the incomplete artifact " ++
        "remains under hidden uninstall staging")),
        { removal with rollbackSafe := false })

/-- `rollback` and `drop`: the root that the destructor leaves. -/
def drop : PluginRoot :=
  if !removal.committed && removal.staged && removal.rollbackSafe then
    let moved : Except PluginError PluginRoot := do
      answers.ask (.revalidate .rollingBack) "Failed to revalidate plugin root"
      renameNoReplace answers .rollingBack removal.root removal.stagingName removal.originalName
    match moved with
    | .ok root => root
    | .error _ => removal.root
  else removal.root

end

end Removal

/-- What is answered to an uninstall: the loader, the file system, the counters, the ledger
and the guest's `Cleanup`. -/
structure UninstallAnswers where
  discover : Except PluginError (List DiscoveredPlugin)
  files : FileAnswers
  processId : Nat
  sequence : Nat
  removed : Except PluginError Unit
  restored : Except PluginError Unit
  cleanup : Except PluginError Unit

/-- The id, manifest and fingerprint that an uninstall is about. -/
structure UninstallTarget where
  id : String
  manifest : PluginManifest
  fingerprint : PackageFingerprint

def FailedPlugin.hasIdentity [Wirt] (failed : FailedPlugin) (key : PluginIdentityKey) : Bool :=
  (Wirt.parseIdentity failed.originalId).toOption = some key

namespace PluginManager

def registeredTarget (manager : PluginManager) (key : PluginIdentityKey) : Option UninstallTarget :=
  match manager.plugins.lookup key with
  | some plugin => some ⟨plugin.metadata.id, plugin.manifest, plugin.fingerprint⟩
  | none =>
    (manager.quarantinedPlugins.lookup key).map fun plugin =>
      ⟨plugin.manifest.plugin.id, plugin.manifest, plugin.fingerprint⟩

/-- The checks of `uninstall_package` before anything is staged. -/
def uninstallTarget [Wirt] (manager : PluginManager) (pluginId : String) (key : PluginIdentityKey)
    (discover : Except PluginError (List DiscoveredPlugin)) :
    Except PluginError UninstallTarget := do
  let discovered ← discoveredPlugin discover key
  let target ←
    match manager.registeredTarget key with
    | some registered =>
      if discovered.manifest ≠ registered.manifest ∨
        discovered.fingerprint ≠ registered.fingerprint then
        throw (.conflict "installed plugin artifact changed after it was loaded")
      else pure registered
    | none =>
      if manager.failedPlugins.any (·.hasIdentity key) then
        pure ⟨discovered.manifest.plugin.id, discovered.manifest, discovered.fingerprint⟩
      else throw (.notFound pluginId)
  if (manager.enabledPlugins.lookup key).getD false then
    throw (.conflict ("Plugin '" ++ target.id ++ "' must be disabled before uninstall"))
  match discovered.artifact with
  | .sidecars manifestParent wasmParent =>
    if manifestParent = wasmParent ∧ manifestParent.getLast? = some key.key then return target
    else throw (.conflict "only package-installed plugin directories can be uninstalled")
  | .package => throw (.conflict "only package-installed plugin directories can be uninstalled")

def verifyStaged [PackageFormat] (removal : Removal) (answers : FileAnswers)
    (key : PluginIdentityKey)
    (target : UninstallTarget) : Except PluginError (List (String × Bytes)) := do
  let (manifest, fingerprint, ownedFiles) ← removal.verifySidecars answers key
  PackageFormat.validateManifest manifest
  if manifest ≠ target.manifest ∨ fingerprint ≠ target.fingerprint then
    throw (.conflict "installed plugin artifact changed while removal was staged")
  return ownedFiles

/-- The part of `uninstall_package` from the staging on. -/
def removePackage [PackageFormat] (ledger : QuarantineLedger) (root : PluginRoot)
    (key : PluginIdentityKey) (target : UninstallTarget) (answers : UninstallAnswers) :
    Except PluginError Unit × QuarantineLedger × PluginRoot :=
  match Removal.openInstalled answers.files root key
    (removalNames answers.processId answers.sequence) with
  | .error error => (.error error, ledger, root)
  | .ok removal =>
    match removal.stage answers.files key with
    | (.error error, removal) => (.error error, ledger, removal.drop answers.files)
    | (.ok (), removal) =>
      match verifyStaged removal answers.files key target with
      | .error error => (.error error, ledger, removal.drop answers.files)
      | .ok ownedFiles =>
        let removal := { removal with ownedFiles := ownedFiles }
        match ledger.remove target.fingerprint answers.removed with
        | .error error => (.error error, ledger, removal.drop answers.files)
        | .ok cleared =>
          match removal.commit answers.files key with
          | (.ok (), removal) => (.ok (), cleared, removal.drop answers.files)
          | (.error error, removal) =>
            match cleared.restore target.fingerprint
              (ledger.snapshot target.fingerprint) answers.restored with
            | (.ok (), ledger) => (.error error, ledger, removal.drop answers.files)
            | (.error _, ledger) =>
              (.error (.io ("Artifact deletion failed and quarantine " ++
                "restoration failed; the installed path was not " ++
                "republished and the package remains under hidden " ++ "uninstall staging")),
                ledger,
                { removal with rollbackSafe := false }.drop answers.files)

/-- Take an identity out of every registry, with its settings and failures. -/
def forgetIdentity [Wirt] (manager : PluginManager) (key : PluginIdentityKey) : PluginManager :=
  { manager with
    plugins := manager.plugins.erase key
    quarantinedPlugins := manager.quarantinedPlugins.erase key
    enabledPlugins := manager.enabledPlugins.erase key
    initialSettings := manager.initialSettings.erase key
    settingsCache := manager.settingsCache.erase key
    failedPlugins := manager.failedPlugins.filter fun failed => !failed.hasIdentity key }

def uninstallPackage [Wirt] [PackageFormat] (manager : PluginManager) (root : PluginRoot)
    (pluginId : String) (answers : UninstallAnswers) :
    Except PluginError Unit × PluginManager × PluginRoot :=
  match Wirt.parseIdentity pluginId with
  | .error _ => (.error (.notFound pluginId), manager, root)
  | .ok key =>
    match manager.uninstallTarget pluginId key answers.discover with
    | .error error => (.error error, manager, root)
    | .ok target =>
      match removePackage manager.quarantine root key target answers with
      | (.error error, ledger, root) => (.error error, { manager with quarantine := ledger }, root)
      | (.ok (), ledger, root) =>
        let forgotten :=
          ({ manager with quarantine := ledger }.forgetIdentity key).note (.lifted key)
        match manager.plugins.lookup key with
        | none => (.ok (), forgotten, root)
        | some removed =>
          (.ok (), forgotten.enter removed.fingerprint removed.terminal answers.cleanup, root)

end PluginManager

end Arclain.Plugins
