import Arclain.QuarantineLedger

namespace Arclain.Plugins

/-!
# The plugin manager

`PluginManager` of the plugin host, one call after another.  What the guests, the loader and
the disk answer is part of each call.  Beside the registries the manager carries a history
of what happened to each package, which no function reads.
-/

/-- `PluginIdentityKey`, a case-folded plugin id. -/
structure PluginIdentityKey where
  key : String
  deriving DecidableEq

/-- The five fields that a manifest and the guest's metadata share. -/
structure PluginInfo where
  id : String
  name : String
  version : String
  author : String
  description : String
  deriving DecidableEq

/-- `PluginManifest`; the sections that are only compared are kept as one. -/
structure PluginManifest where
  plugin : PluginInfo
  remaining : String
  deriving DecidableEq

/-- `PluginArtifact`: sidecar files, by the directories they stand in, or a
package file. -/
inductive PluginArtifact where
  | sidecars (manifestParent wasmParent : List String)
  | package

structure DiscoveredPlugin where
  manifest : PluginManifest
  fingerprint : PackageFingerprint
  artifact : PluginArtifact

/-- `ManagedPlugin`: `admits` is the admission flag, and `terminal` says that
the instance has been made terminal. -/
structure ManagedPlugin where
  metadata : PluginInfo
  manifest : PluginManifest
  fingerprint : PackageFingerprint
  retryAuthorized : Bool
  admits : Bool
  terminal : Bool

structure QuarantinedPlugin where
  manifest : PluginManifest
  fingerprint : PackageFingerprint

/-- The settings of one plugin. -/
abbrev Settings := List (String × String)

structure FailedPlugin where
  originalId : String
  error : PluginError

/-- Guest code is entered, with whether the package was disabled; a limit is exceeded; an
identity is lifted; a restart. -/
inductive ManagerEvent where
  | entered (fingerprint : PackageFingerprint) (held : Bool)
  | limited (fingerprint : PackageFingerprint)
  | lifted (key : PluginIdentityKey)
  | restarted
  deriving DecidableEq

/-- `PluginManager`; the history has the newest event first. -/
structure PluginManager where
  plugins : KeyedMap PluginIdentityKey ManagedPlugin
  quarantinedPlugins : KeyedMap PluginIdentityKey QuarantinedPlugin
  enabledPlugins : KeyedMap PluginIdentityKey Bool
  initialSettings : KeyedMap PluginIdentityKey Settings
  settingsCache : KeyedMap PluginIdentityKey Settings
  failedPlugins : List FailedPlugin
  quarantine : QuarantineLedger
  history : List ManagerEvent

/-- How Wirt folds an id, and whether a request to a terminal instance still enters its
guest. -/
class Wirt where
  parseIdentity : String → Except PluginError PluginIdentityKey
  entersTerminal : Bool

def limitReason {Value : Type} : Except PluginError Value → Option String
  | .error (.resourceLimit reason) => some reason
  | _ => none

/-- What one request does, newest first: unless the instance is terminal the guest is
entered, and may exceed a limit. -/
def guestEvents [Wirt] {Value : Type} (ledger : QuarantineLedger) (fingerprint : PackageFingerprint)
    (terminal : Bool) (answer : Except PluginError Value) : List ManagerEvent :=
  if terminal && !Wirt.entersTerminal then []
  else
    let entered := .entered fingerprint (ledger.isPersistentlyDisabled fingerprint)
    if (limitReason answer).isSome then [.limited fingerprint, entered]
    else [entered]

/-- `validate_guest_metadata`: the first field that differs is named. -/
def validateGuestMetadata (manifest : PluginManifest)
    (metadata : PluginInfo) : Except PluginError PluginInfo :=
  let mismatch : Option String :=
    if metadata.id ≠ manifest.plugin.id then some "id"
    else if metadata.name ≠ manifest.plugin.name then some "name"
    else if metadata.version ≠ manifest.plugin.version then some "version"
    else if metadata.author ≠ manifest.plugin.author then some "author"
    else if metadata.description ≠ manifest.plugin.description then some "description"
    else none
  match mismatch with
  | some field =>
    .error (.invalidManifest ("guest metadata does not match manifest field " ++ field))
  | none => .ok metadata

/-- What is answered to one `prepare_plugin`: the load, the instantiation, the guest's
`Metadata` and `Init`, and its `Cleanup`. -/
structure PrepareAnswers where
  load : Except PluginError PackageFingerprint
  instantiate : Except PluginError Unit
  metadata : Except PluginError PluginInfo
  initGuest : Except PluginError Unit
  cleanup : Except PluginError Unit

/-- How the calls of a preparation end, up to the first failure. -/
def PrepareAnswers.outcome (answers : PrepareAnswers)
    (manifest : PluginManifest) : Except PluginError Unit := do
  let _ ← answers.load
  answers.instantiate
  let _ ← answers.metadata >>= validateGuestMetadata manifest
  answers.initGuest

/-- The message of a refused enable or reload. -/
def resourceBlocked : PluginError := .unavailable "resource-blocked plugins require Retry or Reset"

def discoveredPlugin [Wirt] (discover : Except PluginError (List DiscoveredPlugin))
    (key : PluginIdentityKey) : Except PluginError DiscoveredPlugin := do
  let plugins ← discover
  match plugins.find? fun plugin =>
    (Wirt.parseIdentity plugin.manifest.plugin.id).toOption = some key with
  | some plugin => return plugin
  | none => throw (.notFound key.key)

namespace PluginManager

/-- A manager that has just been created over the records of a ledger file. -/
def fresh (durable : Records)
    (initialSettings : KeyedMap PluginIdentityKey Settings) : PluginManager where
  plugins := ∅
  quarantinedPlugins := ∅
  enabledPlugins := ∅
  initialSettings := initialSettings
  settingsCache := ∅
  failedPlugins := []
  quarantine := .reopen durable
  history := []

def note (manager : PluginManager) (event : ManagerEvent) : PluginManager :=
  { manager with history := event :: manager.history }

def enter [Wirt] {Value : Type} (manager : PluginManager) (fingerprint : PackageFingerprint)
    (terminal : Bool) (answer : Except PluginError Value) : PluginManager :=
  { manager with
    history := guestEvents manager.quarantine fingerprint terminal answer ++ manager.history }

section

variable (manager : PluginManager) (key : PluginIdentityKey)

/-- The identity stands in `plugins`. -/
def isIdentityRegistered : Bool :=
  (manager.plugins.lookup key).isSome

/-- The identity stands in `quarantined_plugins`. -/
def isQuarantined : Bool :=
  (manager.quarantinedPlugins.lookup key).isSome

def registered : Option (PackageFingerprint × PluginManifest) :=
  match manager.plugins.lookup key with
  | some plugin => some (plugin.fingerprint, plugin.manifest)
  | none =>
    (manager.quarantinedPlugins.lookup key).map fun plugin => (plugin.fingerprint, plugin.manifest)

/-- Insert into `quarantined_plugins`. -/
def insertQuarantined
    (manifest : PluginManifest) (fingerprint : PackageFingerprint) : PluginManager :=
  { manager with
    quarantinedPlugins := manager.quarantinedPlugins.insert key ⟨manifest, fingerprint⟩ }

end

def preparePlugin [Wirt] (manager : PluginManager) (discovered : DiscoveredPlugin)
    (retryAuthorized : Bool) (answers : PrepareAnswers) :
    Except PluginError ManagedPlugin × PluginManager :=
  match Wirt.parseIdentity discovered.manifest.plugin.id, answers.load with
  | .error error, _ | .ok _, .error error => (.error error, manager)
  | .ok _, .ok fingerprint =>
    let manager := manager.enter fingerprint false answers.instantiate
    match answers.instantiate with
    | .error error => (.error error, manager)
    | .ok () =>
      let manager := manager.enter fingerprint false answers.metadata
      match answers.metadata >>= validateGuestMetadata discovered.manifest with
      | .error error =>
        (.error error, manager.enter fingerprint (limitReason answers.metadata).isSome
          answers.cleanup)
      | .ok metadata =>
        let manager := manager.enter fingerprint false answers.initGuest
        match answers.initGuest with
        | .error error =>
          (.error error, manager.enter fingerprint
            (limitReason answers.initGuest).isSome answers.cleanup)
        | .ok () =>
          (.ok {
            metadata := metadata
            manifest := discovered.manifest
            fingerprint := fingerprint
            retryAuthorized := retryAuthorized
            admits := true
            terminal := false }, manager)

def registerPreparedPlugin (manager : PluginManager) (key : PluginIdentityKey)
    (managed : ManagedPlugin) : PluginManager :=
  { manager with
    quarantinedPlugins := manager.quarantinedPlugins.erase key
    plugins := manager.plugins.insert key managed
    enabledPlugins := manager.enabledPlugins.insert key true }

/-- `discard_prepared_plugin`, which only logs a failed `Cleanup`. -/
def discardPreparedPlugin [Wirt] (manager : PluginManager) (managed : ManagedPlugin)
    (cleanup : Except PluginError Unit) : PluginManager :=
  manager.enter managed.fingerprint managed.terminal cleanup

/-- Take an identity out of `plugins`, `enabled_plugins` and the settings
cache. -/
def forgetLive (manager : PluginManager) (key : PluginIdentityKey) : PluginManager :=
  { manager with
    plugins := manager.plugins.erase key
    enabledPlugins := manager.enabledPlugins.erase key
    settingsCache := manager.settingsCache.erase key }

section

variable [Wirt] (manager : PluginManager) (key : PluginIdentityKey)
  (cleanup : Except PluginError Unit)

/-- `remove_live_plugin`; a failed `Cleanup` is returned with the plugin already
taken out. -/
def removeLivePlugin : Except PluginError Unit × PluginManager :=
  let forgotten := manager.forgetLive key
  match manager.plugins.lookup key with
  | none => (.ok (), forgotten)
  | some removed => (cleanup, forgotten.enter removed.fingerprint removed.terminal cleanup)

/-- Go on once the live plugin is gone, unless its `Cleanup` failed. -/
def afterRemoval (proceed : PluginManager → Except PluginError Unit × PluginManager) :
    Except PluginError Unit × PluginManager :=
  match manager.removeLivePlugin key cleanup with
  | (.error error, manager) => (.error error, manager)
  | (.ok _, manager) => proceed manager

end

/-- Record a violation by a preparation of a package that was not being retried,
and quarantine it. -/
def quarantineInitial (manager : PluginManager) (key : PluginIdentityKey)
    (discovered : DiscoveredPlugin) (reason : String) : Except PluginError Unit × PluginManager :=
  match manager.quarantine.recordInitialViolation discovered.fingerprint reason with
  | .error error => (.error error, manager)
  | .ok ledger =>
    (.error (.resourceLimit reason),
      { manager with quarantine := ledger }.insertQuarantined key
        discovered.manifest discovered.fingerprint)

def loadPlugin [Wirt] (manager : PluginManager) (discovered : DiscoveredPlugin)
    (answers : PrepareAnswers) : Except PluginError Unit × PluginManager :=
  match Wirt.parseIdentity discovered.manifest.plugin.id with
  | .error error => (.error error, manager)
  | .ok key =>
    if manager.isIdentityRegistered key then
      (.error (.loadError ("Plugin already loaded: " ++ discovered.manifest.plugin.id)), manager)
    else
      match manager.preparePlugin discovered false answers with
      | (.ok managed, manager) => (.ok (), manager.registerPreparedPlugin key managed)
      | (.error (.resourceLimit reason), manager) => manager.quarantineInitial key discovered reason
      | (.error error, manager) => (.error error, manager)

/-- The loop of `init` over the discovered plugins. -/
def initEach [Wirt] (manager : PluginManager) : List (DiscoveredPlugin × PrepareAnswers) →
    Except PluginError Unit × PluginManager
  | [] => (.ok (), manager)
  | (plugin, answers) :: rest =>
    if manager.quarantine.isPersistentlyDisabled plugin.fingerprint then
      match Wirt.parseIdentity plugin.manifest.plugin.id with
      | .error error => (.error error, manager)
      | .ok key => (manager.insertQuarantined key plugin.manifest plugin.fingerprint).initEach rest
    else
      match manager.loadPlugin plugin answers with
      | (.ok _, manager) | (.error (.resourceLimit _), manager) => manager.initEach rest
      | (.error error, manager) =>
        let failed : FailedPlugin := ⟨plugin.manifest.plugin.id, error⟩
        { manager with
          failedPlugins := manager.failedPlugins ++ [failed] }.initEach rest

def init [Wirt] (manager : PluginManager)
    (discover : Except PluginError (List (DiscoveredPlugin × PrepareAnswers))) :
    Except PluginError Unit × PluginManager :=
  match discover with
  | .error error => (.error error, manager)
  | .ok plugins => manager.initEach plugins

/-- What is answered to a retry or a reset, from what the loader discovers to the `Cleanup`
of a discarded plugin. -/
structure RecoveryAnswers where
  discover : Except PluginError (List DiscoveredPlugin)
  cleanup : Except PluginError Unit
  prepare : PrepareAnswers
  written : Except PluginError Unit
  discard : Except PluginError Unit

/-- Why `retry_plugin` refuses a package that has not changed. -/
def retryRefusal (manager : PluginManager) (key : PluginIdentityKey)
    (fingerprint : PackageFingerprint) : Option PluginError :=
  let liveViolation :=
    (manager.plugins.lookup key).any fun plugin =>
      manager.quarantine.hasRuntimeViolation plugin.fingerprint
  if !liveViolation && !manager.isQuarantined key then
    some (.unavailable "plugin is not blocked by a resource limit")
  else
    match manager.quarantine.state fingerprint with
    | .retryable _ => none
    | .persistentlyDisabled _ => some (.unavailable "plugin quarantine must be reset")
    | .clear => some (.unavailable "plugin has no retryable quarantine state")

section

variable [Wirt] (manager : PluginManager)

/-- The part of `retry_plugin` after the live plugin is gone. -/
def retryPrepared (key : PluginIdentityKey)
    (discovered : DiscoveredPlugin) (current : PackageFingerprint × PluginManifest)
    (answers : RecoveryAnswers) : Except PluginError Unit × PluginManager :=
  let manager := { manager with
    quarantinedPlugins := manager.quarantinedPlugins.erase key }
  let retryAuthorized := current.1 = discovered.fingerprint
  match manager.preparePlugin discovered retryAuthorized answers.prepare with
  | (.ok managed, manager) =>
    let cleared := manager.quarantine.clearRuntimeViolation current.1
    (.ok (), { manager with quarantine := cleared }.registerPreparedPlugin key managed)
  | (.error (.resourceLimit reason), manager) =>
    if retryAuthorized then
      match manager.quarantine.recordFailedRetry discovered.fingerprint reason answers.written with
      | .error error => (.error error, manager)
      | .ok ledger =>
        (.error (.resourceLimit reason),
          { manager with quarantine := ledger }.insertQuarantined key
            discovered.manifest discovered.fingerprint)
    else
      let cleared := manager.quarantine.clearRuntimeViolation current.1
      { manager with quarantine := cleared }.quarantineInitial key discovered reason
  | (.error error, manager) => (.error error, manager.insertQuarantined key current.2 current.1)

def retryPlugin (pluginId : String)
    (answers : RecoveryAnswers) : Except PluginError Unit × PluginManager :=
  match Wirt.parseIdentity pluginId with
  | .error _ => (.error (.notFound pluginId), manager)
  | .ok key =>
    let manager := manager.note (.lifted key)
    match discoveredPlugin answers.discover key, manager.registered key with
    | .error error, _ => (.error error, manager)
    | .ok _, none => (.error (.notFound pluginId), manager)
    | .ok discovered, some current =>
      let refusal :=
        if current.1 = discovered.fingerprint then manager.retryRefusal key current.1
        else none
      match refusal with
      | some error => (.error error, manager)
      | none =>
        manager.afterRemoval key answers.cleanup fun manager =>
          manager.retryPrepared key discovered current answers

/-- The part of `reset_plugin_quarantine` after the live plugin is gone. -/
def resetPrepared (key : PluginIdentityKey)
    (discovered : DiscoveredPlugin) (current : PackageFingerprint × PluginManifest)
    (answers : RecoveryAnswers) : Except PluginError Unit × PluginManager :=
  let manager := { manager with
    quarantinedPlugins := manager.quarantinedPlugins.erase key }
  match manager.preparePlugin discovered false answers.prepare with
  | (.ok managed, manager) =>
    match manager.quarantine.remove current.1 answers.written with
    | .error error =>
      (.error error, (manager.discardPreparedPlugin managed answers.discard).insertQuarantined
        key current.2 current.1)
    | .ok ledger =>
      (.ok (), { manager with quarantine := ledger }.registerPreparedPlugin key managed)
  | (.error (.resourceLimit reason), manager) =>
    match manager.quarantine.remove current.1 answers.written with
    | .error error => (.error error, manager.insertQuarantined key current.2 current.1)
    | .ok ledger => { manager with quarantine := ledger }.quarantineInitial key discovered reason
  | (.error error, manager) => (.error error, manager.insertQuarantined key current.2 current.1)

def resetPluginQuarantine (pluginId : String)
    (answers : RecoveryAnswers) : Except PluginError Unit × PluginManager :=
  match Wirt.parseIdentity pluginId with
  | .error _ => (.error (.notFound pluginId), manager)
  | .ok key =>
    let manager := manager.note (.lifted key)
    match discoveredPlugin answers.discover key, manager.registered key with
    | .error error, _ => (.error error, manager)
    | .ok _, none => (.error (.notFound pluginId), manager)
    | .ok discovered, some current =>
      if manager.quarantine.isPersistentlyDisabled current.1 then
        manager.afterRemoval key answers.cleanup fun manager =>
          manager.resetPrepared key discovered current answers
      else (.error (.unavailable "plugin is not persistently quarantined"), manager)

end

structure ReloadAnswers where
  cleanup : Except PluginError Unit
  discover : Except PluginError (List DiscoveredPlugin)
  prepare : PrepareAnswers

section

variable [Wirt] (manager : PluginManager) (pluginId : String)

def reloadPlugin (answers : ReloadAnswers) : Except PluginError Unit × PluginManager :=
  match Wirt.parseIdentity pluginId with
  | .error _ => (.error (.notFound pluginId), manager)
  | .ok key =>
    let violated :=
      (manager.plugins.lookup key).any fun plugin =>
        manager.quarantine.hasRuntimeViolation plugin.fingerprint
    if manager.isQuarantined key || violated then (.error resourceBlocked, manager)
    else
      manager.afterRemoval key answers.cleanup fun manager =>
        match answers.discover with
        | .error error => (.error error, manager)
        | .ok plugins =>
          match discoveredPlugin (.ok plugins) key with
          | .error _ => (.error (.notFound pluginId), manager)
          | .ok discovered => manager.loadPlugin discovered answers.prepare

def enablePlugin : Except PluginError Unit × PluginManager :=
  match Wirt.parseIdentity pluginId with
  | .error _ => (.error (.notFound pluginId), manager)
  | .ok key =>
    match manager.plugins.lookup key with
    | none => (.error (.notFound pluginId), manager)
    | some plugin =>
      if manager.quarantine.hasRuntimeViolation plugin.fingerprint then
        (.error resourceBlocked, manager)
      else
        (.ok (),
          { manager with
            plugins := manager.plugins.insert key { plugin with admits := true }
            enabledPlugins := manager.enabledPlugins.insert key true })

def disablePlugin : Except PluginError Unit × PluginManager :=
  match Wirt.parseIdentity pluginId with
  | .error _ => (.error (.notFound pluginId), manager)
  | .ok key =>
    match manager.plugins.lookup key with
    | none => (.error (.notFound pluginId), manager)
    | some plugin =>
      (.ok (),
        { manager with
          plugins := manager.plugins.insert key { plugin with admits := false }
          enabledPlugins := manager.enabledPlugins.insert key false })

end

/-- What is answered to an execution: whether the instance is still registered, the guest's
result, and the write of the ledger. -/
structure ExecuteAnswers where
  current : Bool
  result : Except PluginError Unit
  written : Except PluginError Unit

def withCurrentInstance [Wirt] (manager : PluginManager) (pluginId : String)
    (answers : ExecuteAnswers) : Except PluginError Unit × PluginManager :=
  match Wirt.parseIdentity pluginId with
  | .error error => (.error error, manager)
  | .ok key =>
    match manager.plugins.lookup key with
    | none => (.error (.notFound pluginId), manager)
    | some managed =>
      if !answers.current then (.error (.notFound pluginId), manager)
      else if !managed.admits then (.error (.unavailable "plugin is disabled"), manager)
      else
        let manager := manager.enter managed.fingerprint managed.terminal answers.result
        match answers.result with
        | .error (.resourceLimit reason) =>
          let manager := { manager with
            plugins := manager.plugins.insert key { managed with admits := false, terminal := true }
            enabledPlugins := manager.enabledPlugins.insert key false }
          let recorded :=
            if managed.retryAuthorized then
              manager.quarantine.recordFailedRetry managed.fingerprint reason answers.written
            else manager.quarantine.recordInitialViolation managed.fingerprint reason
          match recorded with
          | .error error => (.error error, manager)
          | .ok ledger => (.error (.resourceLimit reason), { manager with quarantine := ledger })
        | result => (result, manager)

/-- What is answered to an installation, from the selected file to the `Cleanup` of a
prepared plugin that is discarded. -/
structure InstallAnswers where
  fileExtension : Option String
  package : Except PluginError (PluginManifest × PackageFingerprint)
  discover : Except PluginError (List DiscoveredPlugin)
  onDiskCollision : Except PluginError (Option String)
  staged : Except PluginError DiscoveredPlugin
  prepare : PrepareAnswers
  publish : Except PluginError Unit
  discard : Except PluginError Unit

section

variable [Wirt] (manager : PluginManager) (expected : PackageFingerprint) (answers : InstallAnswers)

/-- The checks of `install_plugin_package` before anything is staged. -/
def installPlan :
    Except PluginError (PluginIdentityKey × DiscoveredPlugin) := do
  if answers.fileExtension.map String.toLower ≠ some "wirt" then
    throw (.other "plugin package must have a .wirt extension")
  let (manifest, fingerprint) ← answers.package
  if fingerprint ≠ expected then throw (.conflict "selected package changed after approval")
  let key ← Wirt.parseIdentity manifest.plugin.id
  if manager.isIdentityRegistered key then
    throw (.conflict ("Plugin '" ++ manifest.plugin.id ++ "' is already installed"))
  let discovered ← answers.discover
  if discovered.any fun artifact =>
    (Wirt.parseIdentity artifact.manifest.plugin.id).toOption = some key then
    throw (.conflict ("Plugin '" ++ manifest.plugin.id ++
      "' collides with an existing on-disk identity"))
  if let some existing ← answers.onDiskCollision then
    throw (.conflict ("Plugin '" ++ manifest.plugin.id ++
      "' collides with an existing on-disk identity at " ++ existing))
  let staged ← answers.staged
  return (key, staged)

def installPluginPackage : Except PluginError Unit × PluginManager :=
  match manager.installPlan expected answers with
  | .error error => (.error error, manager)
  | .ok (key, staged) =>
    match manager.preparePlugin staged false answers.prepare with
    | (.error error, manager) => (.error error, manager)
    | (.ok managed, manager) =>
      match answers.publish with
      | .error error => (.error error, manager.discardPreparedPlugin managed answers.discard)
      | .ok () => (.ok (), manager.registerPreparedPlugin key managed)

end

variable {key : PluginIdentityKey} {discovered : DiscoveredPlugin}

theorem parseIdentity_of_discoveredPlugin [Wirt]
    {discover : Except PluginError (List DiscoveredPlugin)}
    (found : discoveredPlugin discover key = .ok discovered) :
    Wirt.parseIdentity discovered.manifest.plugin.id = .ok key := by
  obtain ⟨plugins, rfl, chosen⟩ := Fallible.bind_eq_ok.mp found
  cases search : plugins.find? fun plugin =>
    (Wirt.parseIdentity plugin.manifest.plugin.id).toOption = some key with
  | none => simp [search, throw] at chosen
  | some plugin =>
    simp only [search] at chosen
    obtain rfl := Except.ok.inj chosen
    have parsed := List.find?_some search
    cases folded : Wirt.parseIdentity plugin.manifest.plugin.id with
    | error error => simp [folded, Except.toOption] at parsed
    | ok => simpa [folded, Except.toOption] using parsed

variable (manager : PluginManager)

theorem preparePlugin_outcome [Wirt] (retryAuthorized : Bool) (answers : PrepareAnswers)
    (parsed : Wirt.parseIdentity discovered.manifest.plugin.id = .ok key) :
    ((manager.preparePlugin discovered retryAuthorized answers).1.map fun _ => ()) =
      answers.outcome discovered.manifest := by
  obtain ⟨load, instantiate, metadata, initGuest, _⟩ := answers
  cases load with
  | error error =>
    simp only [preparePlugin, parsed]
    rfl
  | ok =>
    cases instantiate with
    | error error =>
      simp only [preparePlugin, parsed]
      rfl
    | ok =>
      cases validated : metadata >>= validateGuestMetadata discovered.manifest with
      | error error =>
        simp only [preparePlugin, PrepareAnswers.outcome, parsed, validated]
        rfl
      | ok =>
        cases initGuest with
        | error error | ok =>
          simp only [preparePlugin, PrepareAnswers.outcome, parsed, validated]
          rfl

theorem preparePlugin_state [Wirt] (discovered : DiscoveredPlugin)
    (retryAuthorized : Bool) (answers : PrepareAnswers) :
    ∃ events, (manager.preparePlugin discovered retryAuthorized answers).2 =
      { manager with history := events ++ manager.history } := by
  simp only [preparePlugin, enter, ← List.append_assoc]
  split
  · exact ⟨[], rfl⟩
  · exact ⟨[], rfl⟩
  · split
    · exact ⟨_, rfl⟩
    · split
      · exact ⟨_, rfl⟩
      · split
        · exact ⟨_, rfl⟩
        · exact ⟨_, rfl⟩

end PluginManager

/-- Ids that are folded already, on instances that stay shut once terminal. -/
abbrev sampleWirt : Wirt where
  parseIdentity id := .ok ⟨id⟩
  entersTerminal := false

def uiDemoManifest : PluginManifest where
  plugin := ⟨"ui-demo", "UI Demo", "1.0.0", "arclain", "demo"⟩
  remaining := ""

def uiDemoFingerprint : PackageFingerprint := ⟨"5f"⟩

def uiDemoDiscovered : DiscoveredPlugin where
  manifest := uiDemoManifest
  fingerprint := uiDemoFingerprint
  artifact := .sidecars ["plugins", "ui-demo"] ["plugins", "ui-demo"]

def preparedWell : PrepareAnswers where
  load := .ok uiDemoFingerprint
  instantiate := .ok ()
  metadata := .ok uiDemoManifest.plugin
  initGuest := .ok ()
  cleanup := .ok ()

end Arclain.Plugins
