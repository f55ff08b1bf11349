import Arclain.PluginManager

namespace Arclain.Plugins

open Wirt

/-!
# What a retry or a reset leaves registered

`retry_plugin` and `reset_plugin_quarantine` take an identity out of both registries and put
it back into one of them on most of their ways out.
-/

inductive Recovery where
  | retry
  | reset

namespace PluginManager

def recover [Wirt] (manager : PluginManager) : Recovery → String → RecoveryAnswers →
    Except PluginError Unit × PluginManager
  | .retry, pluginId, answers => manager.retryPlugin pluginId answers
  | .reset, pluginId, answers => manager.resetPluginQuarantine pluginId answers

def isKnown (manager : PluginManager) (key : PluginIdentityKey) : Bool :=
  manager.isIdentityRegistered key || manager.isQuarantined key

def isRegisteredOnce (manager : PluginManager) (key : PluginIdentityKey) : Bool :=
  manager.isIdentityRegistered key ^^ manager.isQuarantined key

/-- The artifact on disk and the state of the ledger let the call begin. -/
def recoveryBegins (manager : PluginManager) (operation : Recovery) (key : PluginIdentityKey)
    (discovered : DiscoveredPlugin) (current : PackageFingerprint × PluginManifest) : Bool :=
  match operation with
  | .retry => current.1 ≠ discovered.fingerprint || (manager.retryRefusal key current.1).isNone
  | .reset => manager.quarantine.isPersistentlyDisabled current.1

/-- The ledger takes note of a limit that the new instance has exceeded. -/
def limitIsRecorded (manager : PluginManager) (operation : Recovery) (discovered : DiscoveredPlugin)
    (current : PackageFingerprint × PluginManifest) (reason : String)
    (written : Except PluginError Unit) : Bool :=
  match operation with
  | .retry =>
    if current.1 = discovered.fingerprint then
      (manager.quarantine.recordFailedRetry discovered.fingerprint reason written).isOk
    else (validateReason reason).isOk
  | .reset =>
    -- A record that cannot be dropped puts the identity back by itself.
    !(manager.quarantine.remove current.1 written).isOk || (validateReason reason).isOk

/-- The condition once the call has begun: a failing `Cleanup` finds the identity
quarantined, and an exceeded limit is taken note of. -/
def recoveryEnds (manager : PluginManager) (operation : Recovery) (key : PluginIdentityKey)
    (discovered : DiscoveredPlugin) (current : PackageFingerprint × PluginManifest)
    (answers : RecoveryAnswers) : Bool :=
  if manager.isIdentityRegistered key && !answers.cleanup.isOk then manager.isQuarantined key
  else
    match limitReason (answers.prepare.outcome discovered.manifest) with
    | some reason => manager.limitIsRecorded operation discovered current reason answers.written
    | none => true

/-- The condition under which a call leaves the identity registered once; a call that is
turned away has to find it so. -/
def keepsRegistered [Wirt] (manager : PluginManager) (operation : Recovery)
    (key : PluginIdentityKey) (answers : RecoveryAnswers) : Bool :=
  match discoveredPlugin answers.discover key, manager.registered key with
  | .ok discovered, some current =>
    if manager.recoveryBegins operation key discovered current then
      manager.recoveryEnds operation key discovered current answers
    else manager.isRegisteredOnce key
  | _, _ => manager.isRegisteredOnce key

variable {key : PluginIdentityKey}

theorem isRegisteredOnce_insertQuarantined {manager : PluginManager} (manifest : PluginManifest)
    (fingerprint : PackageFingerprint) (gone : manager.plugins.lookup key = none) :
    (manager.insertQuarantined key manifest fingerprint).isRegisteredOnce key = true := by
  simp [isRegisteredOnce, isIdentityRegistered, isQuarantined, insertQuarantined, gone]

variable (manager : PluginManager)

theorem isRegisteredOnce_registerPreparedPlugin (key : PluginIdentityKey)
    (managed : ManagedPlugin) :
    (manager.registerPreparedPlugin key managed).isRegisteredOnce key = true := by
  simp [isRegisteredOnce, isIdentityRegistered, isQuarantined, registerPreparedPlugin]

theorem isRegisteredOnce_eq_false {manager : PluginManager}
    (gone : manager.plugins.lookup key = none)
    (free : manager.quarantinedPlugins.lookup key = none) :
    manager.isRegisteredOnce key = false := by
  simp [isRegisteredOnce, isIdentityRegistered, isQuarantined, gone, free]

theorem isRegisteredOnce_quarantineInitial {manager : PluginManager}
    (discovered : DiscoveredPlugin) (reason : String) (gone : manager.plugins.lookup key = none)
    (free : manager.quarantinedPlugins.lookup key = none) :
    (manager.quarantineInitial key discovered reason).2.isRegisteredOnce key =
      (validateReason reason).isOk := by
  cases accepted : validateReason reason with
  | error error =>
    have refused : manager.quarantine.recordInitialViolation discovered.fingerprint reason =
        .error error := by
      simp only [QuarantineLedger.recordInitialViolation, accepted]
      rfl
    simp only [quarantineInitial, refused]
    exact isRegisteredOnce_eq_false gone free
  | ok =>
    have noted : ∃ ledger, manager.quarantine.recordInitialViolation discovered.fingerprint
        reason = .ok ledger := by
      simp only [QuarantineLedger.recordInitialViolation, accepted]
      exact ⟨_, rfl⟩
    obtain ⟨ledger, recorded⟩ := noted
    simp only [quarantineInitial, recorded]
    exact isRegisteredOnce_insertQuarantined _ _ gone

theorem limitReason_map_error {error : PluginError}
    (notLimit : ∀ reason, error = .resourceLimit reason → False) :
    limitReason (Except.map (fun _ : ManagedPlugin => ()) (.error error)) = none := by
  cases error with
  | resourceLimit reason => exact absurd rfl (notLimit reason)
  | _ => rfl

variable {discovered : DiscoveredPlugin}

theorem preparePlugin_inversion [Wirt] {manager after : PluginManager}
    {retryAuthorized : Bool} {answers : PrepareAnswers}
    {prepared : Except PluginError ManagedPlugin}
    (parsed : parseIdentity discovered.manifest.plugin.id = .ok key)
    (called : manager.preparePlugin discovered retryAuthorized answers = (prepared, after)) :
    (prepared.map fun _ => ()) = answers.outcome discovered.manifest ∧
      ∃ events, after = { manager with history := events ++ manager.history } := by
  have outcome := manager.preparePlugin_outcome retryAuthorized answers parsed
  have state := manager.preparePlugin_state discovered retryAuthorized answers
  rw [called] at outcome state
  exact ⟨outcome, state⟩

theorem isRegisteredOnce_retryPrepared [Wirt] {manager : PluginManager}
    (current : PackageFingerprint × PluginManifest) (answers : RecoveryAnswers)
    (parsed : parseIdentity discovered.manifest.plugin.id = .ok key)
    (gone : manager.plugins.lookup key = none) :
    (manager.retryPrepared key discovered current answers).2.isRegisteredOnce key =
      match limitReason (answers.prepare.outcome discovered.manifest) with
      | some reason => manager.limitIsRecorded .retry discovered current reason answers.written
      | none => true := by
  unfold retryPrepared
  dsimp only
  split
  next managed after called =>
    obtain ⟨outcome, events, rfl⟩ := preparePlugin_inversion parsed called
    rw [← outcome]
    exact isRegisteredOnce_registerPreparedPlugin _ key managed
  next reason after called =>
    obtain ⟨outcome, events, rfl⟩ := preparePlugin_inversion parsed called
    rw [← outcome]
    simp only [Except.map, limitReason, limitIsRecorded]
    by_cases unchanged : current.1 = discovered.fingerprint
    · simp only [unchanged, ↓reduceIte]
      cases recorded : manager.quarantine.recordFailedRetry discovered.fingerprint
        reason answers.written with
      | error error => exact isRegisteredOnce_eq_false gone (AList.lookup_erase key _)
      | ok => exact isRegisteredOnce_insertQuarantined _ _ gone
    · simp only [unchanged, ↓reduceIte]
      exact isRegisteredOnce_quarantineInitial discovered reason gone (AList.lookup_erase key _)
  next error after notLimit called =>
    obtain ⟨outcome, events, rfl⟩ := preparePlugin_inversion parsed called
    rw [← outcome]
    rw [limitReason_map_error notLimit]
    exact isRegisteredOnce_insertQuarantined _ _ gone

theorem isRegisteredOnce_resetPrepared [Wirt] {manager : PluginManager}
    (current : PackageFingerprint × PluginManifest) (answers : RecoveryAnswers)
    (parsed : parseIdentity discovered.manifest.plugin.id = .ok key)
    (gone : manager.plugins.lookup key = none) :
    (manager.resetPrepared key discovered current answers).2.isRegisteredOnce key =
      match limitReason (answers.prepare.outcome discovered.manifest) with
      | some reason => manager.limitIsRecorded .reset discovered current reason answers.written
      | none => true := by
  unfold resetPrepared
  dsimp only
  split
  next managed after called =>
    obtain ⟨outcome, events, rfl⟩ := preparePlugin_inversion parsed called
    rw [← outcome]
    cases manager.quarantine.remove current.1 answers.written with
    | error error => exact isRegisteredOnce_insertQuarantined _ _ gone
    | ok ledger => exact isRegisteredOnce_registerPreparedPlugin _ key managed
  next reason after called =>
    obtain ⟨outcome, events, rfl⟩ := preparePlugin_inversion parsed called
    rw [← outcome]
    simp only [Except.map, limitReason, limitIsRecorded]
    cases manager.quarantine.remove current.1 answers.written with
    | error error => exact isRegisteredOnce_insertQuarantined _ _ gone
    | ok ledger =>
      exact isRegisteredOnce_quarantineInitial discovered reason gone (AList.lookup_erase key _)
  next error after notLimit called =>
    obtain ⟨outcome, events, rfl⟩ := preparePlugin_inversion parsed called
    rw [← outcome]
    rw [limitReason_map_error notLimit]
    exact isRegisteredOnce_insertQuarantined _ _ gone

theorem removeLivePlugin_state [Wirt] (key : PluginIdentityKey)
    (cleanup : Except PluginError Unit) :
    (manager.removeLivePlugin key cleanup).2.plugins.lookup key = none ∧
      (manager.removeLivePlugin key cleanup).2.quarantinedPlugins = manager.quarantinedPlugins ∧
      (manager.removeLivePlugin key cleanup).2.quarantine = manager.quarantine := by
  cases live : manager.plugins.lookup key with
  | none => simp [removeLivePlugin, live, forgetLive]
  | some => simp [removeLivePlugin, live, forgetLive, enter]

theorem removeLivePlugin_fails [Wirt] (key : PluginIdentityKey)
    (cleanup : Except PluginError Unit) : (manager.removeLivePlugin key cleanup).1.isOk =
      !(manager.isIdentityRegistered key && !cleanup.isOk) := by
  cases live : manager.plugins.lookup key with
  | none => simp [removeLivePlugin, live, isIdentityRegistered, Except.isOk, Except.toBool]
  | some => simp [removeLivePlugin, live, isIdentityRegistered]

theorem isRegisteredOnce_afterRemoval [Wirt] (operation : Recovery) (discovered : DiscoveredPlugin)
    (current : PackageFingerprint × PluginManifest) (answers : RecoveryAnswers)
    (proceed : PluginManager → Except PluginError Unit × PluginManager)
    (proceeds : ∀ other : PluginManager, other.plugins.lookup key = none →
      (proceed other).2.isRegisteredOnce key =
        match limitReason (answers.prepare.outcome discovered.manifest) with
        | some reason => other.limitIsRecorded operation discovered current reason answers.written
        | none => true) :
    (manager.afterRemoval key answers.cleanup proceed).2.isRegisteredOnce key =
      manager.recoveryEnds operation key discovered current answers := by
  have state := manager.removeLivePlugin_state key answers.cleanup
  have fails := manager.removeLivePlugin_fails key answers.cleanup
  unfold afterRemoval recoveryEnds
  rcases removal : manager.removeLivePlugin key answers.cleanup with ⟨result, after⟩
  rw [removal] at state fails
  obtain ⟨gone, sameQuarantined, sameLedger⟩ := state
  dsimp only at gone sameQuarantined sameLedger fails
  cases result with
  | error error =>
    have failed : (manager.isIdentityRegistered key && !answers.cleanup.isOk) = true :=
      (Bool.not_eq_false' _).mp fails.symm
    simp only [failed, ↓reduceIte]
    simp [isRegisteredOnce, isIdentityRegistered, isQuarantined, gone, sameQuarantined]
  | ok =>
    have succeeded : (manager.isIdentityRegistered key && !answers.cleanup.isOk) = false :=
      (Bool.not_eq_true' _).mp fails.symm
    simp only [succeeded, Bool.false_eq_true, ↓reduceIte]
    rw [proceeds after gone]
    simp [limitIsRecorded, sameLedger]

theorem recoveryBegins_retry (key : PluginIdentityKey)
    (discovered : DiscoveredPlugin) (current : PackageFingerprint × PluginManifest) :
    manager.recoveryBegins .retry key discovered current =
      (if current.1 = discovered.fingerprint then
        manager.retryRefusal key current.1 else none).isNone := by
  by_cases unchanged : current.1 = discovered.fingerprint
  · simp [recoveryBegins, unchanged]
  · simp [recoveryBegins, unchanged]

variable {pluginId : String} (answers : RecoveryAnswers)

theorem isRegisteredOnce_retryPlugin [Wirt] (parsed : parseIdentity pluginId = .ok key) :
    (manager.retryPlugin pluginId answers).2.isRegisteredOnce key =
      manager.keepsRegistered .retry key answers := by
  have registered_note : (manager.note (.lifted key)).registered key = manager.registered key := rfl
  simp only [retryPlugin, parsed, keepsRegistered, registered_note]
  cases found : discoveredPlugin answers.discover key with
  | error error => rfl
  | ok discovered =>
    cases manager.registered key with
    | none => rfl
    | some current =>
      have folded := parseIdentity_of_discoveredPlugin found
      have begun :=
        (manager.note (.lifted key)).isRegisteredOnce_afterRemoval .retry discovered current answers
          (fun other => other.retryPrepared key discovered current answers)
          fun _ => isRegisteredOnce_retryPrepared current answers folded
      have refusal_note : (manager.note (.lifted key)).retryRefusal key current.1 =
          manager.retryRefusal key current.1 := rfl
      simp only [refusal_note, recoveryBegins_retry]
      cases if current.1 = discovered.fingerprint then
        manager.retryRefusal key current.1 else none with
      | none => exact begun
      | some error => rfl

theorem isRegisteredOnce_resetPluginQuarantine [Wirt]
    (parsed : parseIdentity pluginId = .ok key) :
    (manager.resetPluginQuarantine pluginId answers).2.isRegisteredOnce key =
      manager.keepsRegistered .reset key answers := by
  have registered_note : (manager.note (.lifted key)).registered key = manager.registered key := rfl
  simp only [resetPluginQuarantine, parsed, keepsRegistered, registered_note, recoveryBegins]
  cases found : discoveredPlugin answers.discover key with
  | error error => rfl
  | ok discovered =>
    cases manager.registered key with
    | none => rfl
    | some current =>
      have folded := parseIdentity_of_discoveredPlugin found
      have begun :=
        (manager.note (.lifted key)).isRegisteredOnce_afterRemoval .reset discovered current answers
          (fun other => other.resetPrepared key discovered current answers)
          fun _ => isRegisteredOnce_resetPrepared current answers folded
      have disabled_note : (manager.note (.lifted key)).quarantine.isPersistentlyDisabled
          current.1 = manager.quarantine.isPersistentlyDisabled current.1 := rfl
      by_cases disabled : manager.quarantine.isPersistentlyDisabled current.1 = true
      · simp only [disabled_note, disabled, ↓reduceIte]
        exact begun
      · simp only [disabled_note, disabled, Bool.false_eq_true, ↓reduceIte]
        rfl

/-- A registered identity stays in exactly one of the two registries iff the condition holds. -/
theorem recovery_keeps_identity_registered [Wirt] (manager : PluginManager) (operation : Recovery)
    (pluginId : String) (key : PluginIdentityKey) (answers : RecoveryAnswers)
    (parsed : parseIdentity pluginId = .ok key) : (manager.isKnown key = true →
      (manager.recover operation pluginId answers).2.isRegisteredOnce key = true) ↔
      (manager.isKnown key = true → manager.keepsRegistered operation key answers = true) := by
  cases operation with
  | retry => simp [recover, manager.isRegisteredOnce_retryPlugin answers parsed]
  | reset => simp [recover, manager.isRegisteredOnce_resetPluginQuarantine answers parsed]

end PluginManager

/-- The plugin after an execution has exceeded a limit: disabled, and noted in
the ledger. -/
def blockedManager : PluginManager where
  plugins := AList.singleton ⟨"ui-demo"⟩ {
    metadata := uiDemoManifest.plugin
    manifest := uiDemoManifest
    fingerprint := uiDemoFingerprint
    retryAuthorized := false
    admits := false
    terminal := true }
  quarantinedPlugins := ∅
  enabledPlugins := AList.singleton ⟨"ui-demo"⟩ false
  initialSettings := ∅
  settingsCache := ∅
  failedPlugins := []
  quarantine := {
    persisted := ∅
    runtimeViolations := AList.singleton uiDemoFingerprint "memory limit"
    durable := ∅ }
  history := []

/-- A retry of it with the given answers, in which nothing else fails. -/
def retryAnswers (cleanup : Except PluginError Unit) (prepare : PrepareAnswers)
    (written : Except PluginError Unit) : PluginManager.RecoveryAnswers where
  discover := .ok [uiDemoDiscovered]
  cleanup := cleanup
  prepare := prepare
  written := written
  discard := .ok ()

/-- A retry whose calls succeed leaves the plugin registered once. -/
theorem recovery_keeps_identity_registered_well :
    (@PluginManager.recover sampleWirt blockedManager .retry "ui-demo"
      (retryAnswers (.ok ()) preparedWell (.ok ()))).2.isRegisteredOnce ⟨"ui-demo"⟩ = true :=
  (@PluginManager.recovery_keeps_identity_registered sampleWirt blockedManager
    .retry "ui-demo" ⟨"ui-demo"⟩ (retryAnswers (.ok ()) preparedWell (.ok ()))
    rfl).mpr (fun _ => by decide) (by decide)

/-- A retry loses the plugin when `Cleanup` fails, and when the new instance exceeds a limit
and the ledger cannot be written. -/
theorem retry_loses_plugin : blockedManager.isKnown ⟨"ui-demo"⟩ = true ∧
    (@PluginManager.recover sampleWirt blockedManager .retry "ui-demo"
      (retryAnswers (.error (.unavailable "guest trapped")) preparedWell
        (.ok ()))).2.isKnown ⟨"ui-demo"⟩ = false ∧
    (@PluginManager.recover sampleWirt blockedManager .retry "ui-demo" (retryAnswers (.ok ())
      { preparedWell with initGuest := .error (.resourceLimit "memory limit") }
      (.error (.io "plugin quarantine ledger could not be written")))).2.isKnown
        ⟨"ui-demo"⟩ = false := by
  decide

end Arclain.Plugins
