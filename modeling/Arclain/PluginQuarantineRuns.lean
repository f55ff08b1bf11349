import Arclain.PluginBlocking
import Arclain.PluginUninstall

namespace Arclain.Plugins

/-!
# Runs of the plugin manager

The calls of the plugin manager in any order, with whatever the guests, the
loader, the disk and the ledger answer, and with restarts in between.
-/

open KeyedMap List PluginManager PluginManager QuarantineLedger Option Wirt

/-- A call of the plugin manager with all that is answered to it, or a restart of
the process. -/
inductive Operation where
  | init (discover : Except PluginError (List (DiscoveredPlugin × PrepareAnswers)))
  | load (discovered : DiscoveredPlugin) (answers : PrepareAnswers)
  | reload (pluginId : String) (answers : ReloadAnswers)
  | retry (pluginId : String) (answers : RecoveryAnswers)
  | reset (pluginId : String) (answers : RecoveryAnswers)
  | enable (pluginId : String)
  | disable (pluginId : String)
  | install (expected : PackageFingerprint) (answers : InstallAnswers)
  | uninstall (root : PluginRoot) (pluginId : String) (answers : UninstallAnswers)
  | execute (pluginId : String) (answers : ExecuteAnswers)
  | restart (initialSettings : KeyedMap PluginIdentityKey Settings)

/-- The call is `reset_plugin_quarantine`. -/
def Operation.isReset : Operation → Bool
  | .reset _ _ => true
  | _ => false

namespace PluginManager

def step [Wirt] [PackageFormat] (manager : PluginManager) : Operation → PluginManager
  | .init discover => (manager.init discover).2
  | .load discovered answers => (manager.loadPlugin discovered answers).2
  | .reload pluginId answers => (manager.reloadPlugin pluginId answers).2
  | .retry pluginId answers => (manager.retryPlugin pluginId answers).2
  | .reset pluginId answers => (manager.resetPluginQuarantine pluginId answers).2
  | .enable pluginId => (manager.enablePlugin pluginId).2
  | .disable pluginId => (manager.disablePlugin pluginId).2
  | .install expected answers => (manager.installPluginPackage expected answers).2
  | .uninstall root pluginId answers => (manager.uninstallPackage root pluginId answers).2.1
  | .execute pluginId answers => (manager.withCurrentInstance pluginId answers).2
  | .restart initialSettings =>
    { fresh manager.quarantine.durable initialSettings with
      history := .restarted :: manager.history }

/-- The preparation of a package that is not kept back, and whose violation would be
recorded. -/
def preparationAllowed (manager : PluginManager) (discovered : DiscoveredPlugin)
    (answers : PrepareAnswers) : Prop :=
  manager.quarantine.blocks discovered.fingerprint = false ∧
    answers.cleansUp discovered.manifest = true ∧
    ∀ reason, limitReason (answers.outcome discovered.manifest) = some reason →
      (validateReason reason).isOk = true

def loadAllowed [Wirt] (manager : PluginManager) (discovered : DiscoveredPlugin)
    (answers : PrepareAnswers) : Prop :=
  ∀ key, parseIdentity discovered.manifest.plugin.id = .ok key →
    manager.plugins.lookup key = none → manager.preparationAllowed discovered answers

/-- Every load that `init` makes is allowed when it is made. -/
def initAllowed [Wirt] (manager : PluginManager) : List (DiscoveredPlugin × PrepareAnswers) → Prop
  | [] => True
  | (plugin, answers) :: rest =>
    (manager.quarantine.isPersistentlyDisabled plugin.fingerprint = false →
      manager.loadAllowed plugin answers) ∧
      ∀ after, manager.initEach [(plugin, answers)] = (.ok (), after) → after.initAllowed rest

/-- The `Cleanup` of a live instance that is still open stays within the
limits. -/
def cleanupAllowed (manager : PluginManager) (key : PluginIdentityKey)
    (cleanup : Except PluginError Unit) : Prop :=
  ∀ managed, manager.plugins.lookup key = some managed →
    managed.terminal = false → limitReason cleanup = none

/-- `reload_plugin` turns the identity away. -/
def reloadRefused (manager : PluginManager) (key : PluginIdentityKey) : Bool :=
  manager.isQuarantined key || (manager.plugins.lookup key).any fun plugin =>
    manager.quarantine.hasRuntimeViolation plugin.fingerprint

/-- A retry or a reset that has begun: `Cleanup` stays within the limits, the changed
artifact is not disabled, and no violation is lost. -/
structure RecoveryAllowed (manager : PluginManager) (operation : Recovery) (key : PluginIdentityKey)
    (discovered : DiscoveredPlugin) (current : PackageFingerprint × PluginManifest)
    (answers : RecoveryAnswers) : Prop where
  cleanup : manager.cleanupAllowed key answers.cleanup
  enabled : current.1 ≠ discovered.fingerprint →
    manager.quarantine.isPersistentlyDisabled discovered.fingerprint = false
  cleansUp : answers.prepare.cleansUp discovered.manifest = true
  discard : operation = .reset →
    (manager.quarantine.remove current.1 answers.written).isOk = false →
      limitReason answers.discard = none
  recorded : ∀ reason, limitReason (answers.prepare.outcome discovered.manifest) = some reason →
    manager.limitIsRecorded operation discovered current reason answers.written = true ∧
      (operation = .reset → (manager.quarantine.remove current.1 answers.written).isOk = false →
        manager.quarantine.blocks discovered.fingerprint = true)

/-- The ledger takes note of a limit that an execution has exceeded. -/
def violationRecorded (manager : PluginManager) (managed : ManagedPlugin) (reason : String)
    (written : Except PluginError Unit) : Bool :=
  if managed.retryAuthorized then
    (manager.quarantine.recordFailedRetry managed.fingerprint reason written).isOk
  else (manager.quarantine.recordInitialViolation managed.fingerprint reason).isOk

end PluginManager

/-- Nothing is entered that the ledger keeps back, and every limit that is exceeded is
recorded. -/
def Operation.Allowed [Wirt] (manager : PluginManager) : Operation → Prop
  | .init discover => ∀ plugins, discover = .ok plugins → manager.initAllowed plugins
  | .load discovered answers => manager.loadAllowed discovered answers
  | .reload pluginId answers =>
    ∀ key, parseIdentity pluginId = .ok key → manager.reloadRefused key = false →
      manager.cleanupAllowed key answers.cleanup ∧ ∀ discovered,
        discoveredPlugin answers.discover key = .ok discovered →
          manager.preparationAllowed discovered answers.prepare
  | .retry pluginId answers =>
    ∀ key discovered current, parseIdentity pluginId = .ok key →
      discoveredPlugin answers.discover key = .ok discovered →
      manager.registered key = some current →
      manager.recoveryBegins .retry key discovered current = true →
        manager.RecoveryAllowed .retry key discovered current answers
  | .reset pluginId answers =>
    ∀ key discovered current, parseIdentity pluginId = .ok key →
      discoveredPlugin answers.discover key = .ok discovered →
      manager.registered key = some current →
      manager.recoveryBegins .reset key discovered current = true →
        manager.RecoveryAllowed .reset key discovered current answers
  | .enable _ | .disable _ => True
  | .install expected answers =>
    ∀ key staged, manager.installPlan expected answers = .ok (key, staged) →
      manager.quarantine.blocks staged.fingerprint = false ∧
        answers.prepare.cleansUp staged.manifest = true ∧
        (answers.prepare.load.isOk = true →
          limitReason (answers.prepare.outcome staged.manifest) = none) ∧
        (answers.publish.isOk = false → limitReason answers.discard = none)
  | .uninstall _ pluginId answers =>
    ∀ key, parseIdentity pluginId = .ok key → manager.cleanupAllowed key answers.cleanup
  | .execute pluginId answers =>
    ∀ key managed reason, parseIdentity pluginId = .ok key →
      manager.plugins.lookup key = some managed →
      answers.current = true →
      managed.admits = true →
      answers.result = .error (.resourceLimit reason) →
        manager.violationRecorded managed reason answers.written = true
  | .restart _ => True

section

variable (identityOf : PackageFingerprint → PluginIdentityKey)

/-- The fingerprint of a package determines its identity, and an artifact does not change. -/
def ArtifactSound [Wirt] (discovered : DiscoveredPlugin) (answers : PrepareAnswers) : Prop :=
  parseIdentity discovered.manifest.plugin.id = .ok (identityOf discovered.fingerprint) ∧
    ∀ {fingerprint}, answers.load = .ok fingerprint → fingerprint = discovered.fingerprint

def Operation.Sound [Wirt] : Operation → Prop
  | .init discover =>
    ∀ plugins, discover = .ok plugins → ∀ entry ∈ plugins, ArtifactSound identityOf entry.1 entry.2
  | .load discovered answers => ArtifactSound identityOf discovered answers
  | .reload pluginId answers | .retry pluginId answers | .reset pluginId answers =>
    ∀ key discovered, parseIdentity pluginId = .ok key →
      discoveredPlugin answers.discover key = .ok discovered →
        ArtifactSound identityOf discovered answers.prepare
  | .install _ answers =>
    ∀ staged, answers.staged = .ok staged →
      ArtifactSound identityOf staged answers.prepare ∧ ∀ package,
        answers.package = .ok package → staged.manifest = package.1
  | .uninstall _ pluginId answers =>
    ∀ key discovered, parseIdentity pluginId = .ok key →
      discoveredPlugin answers.discover key = .ok discovered →
        parseIdentity discovered.manifest.plugin.id = .ok (identityOf discovered.fingerprint)
  | _ => True

end

section

variable {identityOf : PackageFingerprint → PluginIdentityKey} {manager : PluginManager}

/-- A state that is contained and a history that was extended properly. -/
def Keeps (identityOf : PackageFingerprint → PluginIdentityKey)
    (before after : PluginManager) : Prop :=
  Contained identityOf none after ∧ Appends before after

variable {key : PluginIdentityKey} {discovered : DiscoveredPlugin}
variable {discover : Except PluginError (List DiscoveredPlugin)}

theorem identityOf_discovered [Wirt] (parsed : parseIdentity discovered.manifest.plugin.id =
      .ok (identityOf discovered.fingerprint))
    (found : discoveredPlugin discover key = .ok discovered) :
    identityOf discovered.fingerprint = key :=
  Except.ok.inj (parsed.symm.trans (parseIdentity_of_discoveredPlugin found))

variable {fingerprint : PackageFingerprint}

theorem Contained.not_blocked (contained : Contained identityOf none manager)
    (clear : manager.quarantine.blocks fingerprint = false) :
    blocked identityOf fingerprint manager.history = false := by
  by_contra isBlocked
  have kept := contained.recorded nofun (Bool.eq_true_of_not_eq_false isBlocked)
  rw [clear] at kept
  cases kept

theorem keeps_quarantineInitial {reason : String}
    (contained : Contained identityOf (some discovered.fingerprint) manager)
    (notLive : NotLive manager discovered.fingerprint)
    (identified : identityOf discovered.fingerprint = key)
    (valid : (validateReason reason).isOk = true) :
    Keeps identityOf manager (manager.quarantineInitial key discovered reason).2 := by
  unfold quarantineInitial
  split
  next error refused =>
    unfold recordInitialViolation at refused
    cases accepted : validateReason reason with
    | error =>
      rw [accepted] at valid
      cases valid
    | ok =>
      rw [accepted] at refused
      cases refused
  next recorded =>
    obtain ⟨violation, agrees⟩ := recordInitialViolation_spec recorded
    have settled := (contained.change_ledger agrees notLive
      (absurd rfl)).settle
      (fun _ => by simp [blocks, violation])
    exact ⟨settled.insertQuarantined discovered.manifest identified, .of_eq rfl⟩

variable {after : PluginManager}

theorem prepared_inversion [Wirt] (shut : entersTerminal = false)
    {retryAuthorized : Bool} {answers : PrepareAnswers} {result : Except PluginError ManagedPlugin}
    (sound : ArtifactSound identityOf discovered answers)
    (quiet : answers.cleansUp discovered.manifest = true)
    (called : manager.preparePlugin discovered retryAuthorized answers = (result, after)) :
    (result.map fun _ => ()) = answers.outcome discovered.manifest ∧
      after.plugins = manager.plugins ∧ after.quarantinedPlugins = manager.quarantinedPlugins ∧
      after.quarantine = manager.quarantine ∧
      ∃ entries exceeds, Prepared manager discovered answers result after entries exceeds := by
  obtain ⟨outcome, _⟩ := preparePlugin_inversion sound.1 called
  obtain ⟨entries, exceeds, prepared⟩ :=
    preparePlugin_prepared shut manager retryAuthorized sound.2 quiet
  rw [called] at prepared
  have state := prepared.state
  dsimp only at state
  refine ⟨outcome, ?_, ?_, ?_, entries, exceeds, prepared⟩
  · rw [state]
  · rw [state]
  · rw [state]

theorem keeps_loadPlugin [Wirt] (shut : entersTerminal = false)
    {answers : PrepareAnswers} (contained : Contained identityOf none manager)
    (sound : ArtifactSound identityOf discovered answers)
    (allowed : manager.loadAllowed discovered answers) :
    Keeps identityOf manager (manager.loadPlugin discovered answers).2 := by
  unfold loadPlugin
  rw [sound.1]
  dsimp only
  split
  · exact ⟨contained, .of_eq rfl⟩
  next unregistered =>
    have vacant : manager.plugins.lookup (identityOf discovered.fingerprint) = none := by
      simpa [isIdentityRegistered] using unregistered
    obtain ⟨clear, quiet, valid⟩ := allowed _ sound.1 vacant
    have free := contained.not_blocked clear
    have notLive := contained.notLive rfl vacant
    have enabled : manager.quarantine.isPersistentlyDisabled discovered.fingerprint =
        false := (Bool.or_eq_false_iff.mp clear).2
    split
    next managed after called =>
      obtain ⟨_, _, _, sameLedger, _, _, prepared⟩ := prepared_inversion shut sound quiet called
      obtain ⟨within, sameBlocked⟩ := prepared.contained_within contained free (fun _ => by simp)
      obtain ⟨sameFingerprint, _⟩ := prepared.loaded rfl
      refine ⟨within.registerPreparedPlugin ?_ ?_ ?_, (prepared.appends enabled).trans (.of_eq rfl)⟩
      · rw [sameFingerprint]
      · rw [sameFingerprint, sameBlocked]
        exact free
      · rw [sameFingerprint, sameLedger]
        exact enabled
    next reason after called =>
      obtain ⟨outcome, samePlugins, _, _, _, _, prepared⟩ :=
        prepared_inversion shut sound quiet called
      have pending := prepared.contained_pending contained free notLive
      have stillNotLive : NotLive after discovered.fingerprint := by
        intro _ managed live
        rw [samePlugins] at live
        exact notLive _ _ live
      obtain ⟨kept, later⟩ := keeps_quarantineInitial pending stillNotLive rfl
        (valid reason (by rw [← outcome]; rfl))
      exact ⟨kept, (prepared.appends enabled).trans later⟩
    next after notLimit called =>
      obtain ⟨_, _, _, _, _, _, prepared⟩ := prepared_inversion shut sound quiet called
      obtain ⟨within, _⟩ := prepared.contained_within contained free
        (fun _ reason same => notLimit reason (Except.error.inj same))
      exact ⟨within, prepared.appends enabled⟩

theorem Keeps.trans {before between after : PluginManager}
    (earlier : Keeps identityOf before between)
    (later : Keeps identityOf between after) : Keeps identityOf before after :=
  ⟨later.1, earlier.2.trans later.2⟩

theorem initEach_cons [Wirt] (manager : PluginManager) (entry : DiscoveredPlugin × PrepareAnswers)
    (rest : List (DiscoveredPlugin × PrepareAnswers)) : manager.initEach (entry :: rest) =
      match manager.initEach [entry] with
      | (.ok _, after) => after.initEach rest
      | (.error error, after) => (.error error, after) := by
  obtain ⟨_, _⟩ := entry
  simp only [initEach]
  split
  · split
    · rfl
    · rfl
  · split
    · rfl
    · rfl
    · rfl

theorem keeps_initEach_singleton [Wirt] (shut : entersTerminal = false)
    {plugin : DiscoveredPlugin} {answers : PrepareAnswers}
    (contained : Contained identityOf none manager)
    (sound : ArtifactSound identityOf plugin answers)
    (allowed : manager.quarantine.isPersistentlyDisabled plugin.fingerprint = false →
      manager.loadAllowed plugin answers) :
    Keeps identityOf manager (manager.initEach [(plugin, answers)]).2 := by
  simp only [initEach]
  split
  · rw [sound.1]
    exact ⟨contained.insertQuarantined plugin.manifest rfl, .of_eq rfl⟩
  next enabled =>
    have kept := keeps_loadPlugin shut contained sound
      (allowed (Bool.eq_false_of_not_eq_true enabled))
    split
    next after loaded =>
      rw [loaded] at kept
      exact kept
    next after loaded =>
      rw [loaded] at kept
      exact kept
    next after _ loaded =>
      rw [loaded] at kept
      exact ⟨kept.1.congr rfl rfl rfl rfl, kept.2⟩

theorem keeps_initEach [Wirt] (shut : entersTerminal = false)
    {plugins : List (DiscoveredPlugin × PrepareAnswers)}
    (contained : Contained identityOf none manager)
    (sound : ∀ entry ∈ plugins, ArtifactSound identityOf entry.1 entry.2)
    (allowed : manager.initAllowed plugins) :
    Keeps identityOf manager (manager.initEach plugins).2 := by
  induction plugins generalizing manager with
  | nil => exact ⟨contained, .of_eq rfl⟩
  | cons entry _ ih =>
    obtain ⟨plugin, answers⟩ := entry
    have first := keeps_initEach_singleton shut contained (sound _ mem_cons_self) allowed.1
    rw [initEach_cons]
    rcases turn : manager.initEach [(plugin, answers)] with ⟨result, after⟩
    rw [turn] at first
    cases result with
    | error error => exact first
    | ok =>
      exact first.trans (ih first.1 (fun entry mem => sound entry (mem_cons_of_mem _ mem))
        (allowed.2 after turn))

variable {Value : Type}

theorem Contained.enter_within [Wirt] (shut : entersTerminal = false)
    (contained : Contained identityOf none manager)
    {terminal : Bool} {answer : Except PluginError Value}
    (free : terminal = false → blocked identityOf fingerprint manager.history = false)
    (within : terminal = false → limitReason answer = none) :
    Contained identityOf none (manager.enter fingerprint terminal answer) ∧
      ∀ other, blocked identityOf other (manager.enter fingerprint terminal answer).history =
        blocked identityOf other manager.history := by
  unfold enter
  rw [guestEvents_eq shut]
  cases terminal with
  | true => exact ⟨contained, fun _ => rfl⟩
  | false =>
    rw [within rfl]
    refine ⟨contained.attempt_within _ 1 (free rfl), fun other => ?_⟩
    simp [blocked_attempt]

theorem appends_enter [Wirt] (shut : entersTerminal = false)
    {terminal : Bool} (answer : Except PluginError Value)
    (enabled : terminal = false → manager.quarantine.isPersistentlyDisabled fingerprint = false) :
    Appends manager (manager.enter fingerprint terminal answer) := by
  refine ⟨_, rfl, fun other mem => ?_⟩
  rw [guestEvents_eq shut] at mem
  cases terminal with
  | true => cases mem
  | false =>
    have held := entered_mem_attempt mem
    rw [enabled rfl] at held
    cases held

variable {managed : ManagedPlugin}

theorem Contained.free_enabled (contained : Contained identityOf none manager)
    (live : manager.plugins.lookup key = some managed)
    (notShut : managed.admits = true ∨ managed.terminal = false) :
    blocked identityOf managed.fingerprint manager.history = false ∧
      manager.quarantine.isPersistentlyDisabled managed.fingerprint = false := by
  have open_of (mustShut : blocked identityOf managed.fingerprint manager.history = true ∨
      manager.quarantine.isPersistentlyDisabled managed.fingerprint = true) : False := by
    obtain ⟨turnedAway, isTerminal, _⟩ := contained.shut live mustShut
    rcases notShut with admitted | isOpen
    · rw [turnedAway] at admitted
      cases admitted
    · rw [isTerminal] at isOpen
      cases isOpen
  exact ⟨Bool.eq_false_of_not_eq_true fun isBlocked => open_of (.inl isBlocked),
    Bool.eq_false_of_not_eq_true fun disabled => open_of (.inr disabled)⟩

theorem Contained.forgetLive (contained : Contained identityOf none manager)
    (key : PluginIdentityKey) : Contained identityOf none (manager.forgetLive key) := by
  refine contained.erase (fun {other} managed live => ?_) id rfl rfl
  simp only [PluginManager.forgetLive, lookup_erase_ite] at live
  split at live
  · cases live
  · exact live

variable {cleanup : Except PluginError Unit}

theorem keeps_removeLivePlugin [Wirt] (shut : entersTerminal = false)
    (contained : Contained identityOf none manager) (allowed : manager.cleanupAllowed key cleanup) :
    Keeps identityOf manager (manager.removeLivePlugin key cleanup).2 ∧
      ∀ fingerprint, blocked identityOf fingerprint
        (manager.removeLivePlugin key cleanup).2.history =
          blocked identityOf fingerprint manager.history := by
  have forgotten := contained.forgetLive key
  unfold removeLivePlugin
  dsimp only
  cases live : manager.plugins.lookup key with
  | none => exact ⟨⟨forgotten, .of_eq rfl⟩, fun _ => rfl⟩
  | some removed =>
    have isFree := fun isOpen => contained.free_enabled live (.inr isOpen)
    obtain ⟨entered, sameBlocked⟩ :=
      forgotten.enter_within shut (fun isOpen => (isFree isOpen).1) (allowed removed live)
    exact ⟨⟨entered, appends_enter shut cleanup (fun isOpen => (isFree isOpen).2)⟩, sameBlocked⟩

/-- The manager once the live plugin of an identity is gone. -/
structure Removed (identityOf : PackageFingerprint → PluginIdentityKey) (manager : PluginManager)
    (key : PluginIdentityKey) (after : PluginManager) : Prop where
  kept : Keeps identityOf manager after
  vacant : after.plugins.lookup key = none
  ledger : after.quarantine = manager.quarantine
  sameBlocked : ∀ fingerprint, blocked identityOf fingerprint after.history =
    blocked identityOf fingerprint manager.history

theorem afterRemoval_cases [Wirt] (shut : entersTerminal = false)
    (proceed : PluginManager → Except PluginError Unit × PluginManager)
    (contained : Contained identityOf none manager) (allowed : manager.cleanupAllowed key cleanup) :
    ∃ after, Removed identityOf manager key after ∧
      ((manager.afterRemoval key cleanup proceed).2 = after ∨
        (manager.afterRemoval key cleanup proceed).2 = (proceed after).2) := by
  obtain ⟨kept, sameBlocked⟩ := keeps_removeLivePlugin shut contained allowed
  obtain ⟨vacant, _, ledger⟩ := manager.removeLivePlugin_state key cleanup
  refine ⟨_, ⟨kept, vacant, ledger, sameBlocked⟩, ?_⟩
  unfold afterRemoval
  split
  next after removal =>
    rw [removal]
    exact .inl rfl
  next after removal =>
    rw [removal]
    exact .inr rfl

variable {pluginId : String}

theorem keeps_reloadPlugin [Wirt] (shut : entersTerminal = false)
    {answers : ReloadAnswers} (contained : Contained identityOf none manager)
    (sound : (Operation.reload pluginId answers).Sound identityOf)
    (allowed : (Operation.reload pluginId answers).Allowed manager) :
    Keeps identityOf manager (manager.reloadPlugin pluginId answers).2 := by
  unfold reloadPlugin
  cases parsed : parseIdentity pluginId with
  | error error => exact ⟨contained, .of_eq rfl⟩
  | ok key =>
    dsimp only
    split
    · exact ⟨contained, .of_eq rfl⟩
    next accepted =>
      obtain ⟨cleanup, preparation⟩ := allowed key parsed (Bool.eq_false_of_not_eq_true accepted)
      obtain ⟨_, removed, stops | goesOn⟩ := afterRemoval_cases shut _ contained cleanup
      · rw [stops]
        exact removed.kept
      · rw [goesOn]
        refine removed.kept.trans ?_
        cases listed : answers.discover with
        | error error => exact ⟨removed.kept.1, .of_eq rfl⟩
        | ok plugins =>
          dsimp only
          cases found : discoveredPlugin (.ok plugins) key with
          | error error => exact ⟨removed.kept.1, .of_eq rfl⟩
          | ok discovered =>
            have chosen : discoveredPlugin answers.discover key = .ok discovered := by
              rw [listed, found]
            refine keeps_loadPlugin shut removed.kept.1 (sound key discovered parsed chosen) ?_
            intro _ _ _
            simpa only [preparationAllowed, removed.ledger]
              using preparation discovered chosen

theorem Removed.free_notLive (removed : Removed identityOf (manager.note (.lifted key)) key after)
    (identified : identityOf fingerprint = key) :
    blocked identityOf fingerprint after.history = false ∧ NotLive after fingerprint := by
  refine ⟨?_, removed.kept.1.notLive identified removed.vacant⟩
  rw [removed.sameBlocked, ← identified]
  exact Contained.blocked_note_lifted manager fingerprint

variable {current : PackageFingerprint × PluginManifest}

theorem Contained.identityOf_registered {pending : Option PackageFingerprint}
    (contained : Contained identityOf pending manager)
    (stands : manager.registered key = some current) : identityOf current.1 = key := by
  unfold registered at stands
  cases live : manager.plugins.lookup key with
  | some =>
    rw [live] at stands
    cases stands
    exact contained.liveIdentity live
  | none =>
    rw [live] at stands
    obtain ⟨_, found, rfl⟩ := map_eq_some_iff.mp stands
    exact contained.quarantinedIdentity found

theorem Contained.erase_quarantined (contained : Contained identityOf none manager)
    (key : PluginIdentityKey) : Contained identityOf none
      { manager with
        quarantinedPlugins := manager.quarantinedPlugins.erase key } := by
  refine contained.erase id (fun {other} quarantined stands => ?_) rfl rfl
  simp only [lookup_erase_ite] at stands
  split at stands
  · cases stands
  · exact stands

variable {answers : RecoveryAnswers}

theorem keeps_retryPrepared [Wirt] (shut : entersTerminal = false)
    (contained : Contained identityOf none manager)
    (sound : ArtifactSound identityOf discovered answers.prepare)
    (vacant : manager.plugins.lookup key = none)
    (identified : identityOf discovered.fingerprint = key)
    (currentIdentified : identityOf current.1 = key)
    (free : ∀ fingerprint, identityOf fingerprint = key →
      blocked identityOf fingerprint manager.history = false)
    (enabled : manager.quarantine.isPersistentlyDisabled discovered.fingerprint = false)
    (quiet : answers.prepare.cleansUp discovered.manifest = true)
    (recorded : ∀ reason, limitReason (answers.prepare.outcome discovered.manifest) = some reason →
      manager.limitIsRecorded .retry discovered current reason answers.written = true) :
    Keeps identityOf manager (manager.retryPrepared key discovered current answers).2 := by
  have erased : Contained identityOf none
      { manager with
        quarantinedPlugins := manager.quarantinedPlugins.erase key } :=
    contained.erase_quarantined key
  have notLive : NotLive manager discovered.fingerprint := contained.notLive identified vacant
  unfold retryPrepared
  dsimp only
  split
  next after called =>
    obtain ⟨_, samePlugins, _, sameLedger, _, _, prepared⟩ :=
      prepared_inversion shut sound quiet called
    obtain ⟨within, sameBlocked⟩ :=
      prepared.contained_within erased (free _ identified) (fun _ => nofun)
    obtain ⟨sameFingerprint, _⟩ := prepared.loaded rfl
    obtain ⟨sameDisabled, agrees⟩ := after.quarantine.clearRuntimeViolation_spec current.1
    have currentFree : blocked identityOf current.1 after.history = false :=
      (sameBlocked current.1).trans (free _ currentIdentified)
    have cleared := within.change_ledger agrees
      (within.notLive currentIdentified (by rw [samePlugins]; exact vacant))
      (fun _ isBlocked => by
        rw [currentFree] at isBlocked
        cases isBlocked)
    refine ⟨cleared.registerPreparedPlugin ?_ ?_ ?_, (prepared.appends enabled).trans (.of_eq rfl)⟩
    · rw [sameFingerprint, identified]
    · rw [sameFingerprint]
      exact (sameBlocked _).trans (free _ identified)
    · rw [sameFingerprint, sameDisabled, sameLedger]
      exact enabled
  next reason after called =>
    obtain ⟨outcome, samePlugins, _, sameLedger, _, _, prepared⟩ :=
      prepared_inversion shut sound quiet called
    have pending := prepared.contained_pending erased (free _ identified) notLive
    have taken := recorded reason (by rw [← outcome]; rfl)
    have stillVacant : after.plugins.lookup key = none := by
      rw [samePlugins]
      exact vacant
    by_cases unchanged : current.1 = discovered.fingerprint
    · simp only [unchanged, ↓reduceIte]
      split
      next error refused =>
        simp only [limitIsRecorded, unchanged, ↓reduceIte] at taken
        rw [sameLedger] at refused
        rw [refused] at taken
        cases taken
      next noted =>
        obtain ⟨violation, agrees⟩ := recordFailedRetry_spec noted
        have settled := (pending.change_ledger agrees (pending.notLive identified stillVacant)
          (absurd rfl)).settle
          (fun _ => by simp [blocks, violation])
        exact ⟨settled.insertQuarantined discovered.manifest identified,
          (prepared.appends enabled).trans (.of_eq rfl)⟩
    · simp only [unchanged, ↓reduceIte]
      simp only [limitIsRecorded, unchanged, ↓reduceIte] at taken
      obtain ⟨_, agrees⟩ := after.quarantine.clearRuntimeViolation_spec current.1
      have currentFree : blocked identityOf current.1 after.history = false := by
        rw [prepared.blocked_after]
        simp [unchanged, free _ currentIdentified]
      have cleared := pending.change_ledger agrees (pending.notLive currentIdentified stillVacant)
        (fun _ isBlocked => by
          rw [currentFree] at isBlocked
          cases isBlocked)
      obtain ⟨kept, later⟩ := keeps_quarantineInitial cleared
        (cleared.notLive identified stillVacant) identified taken
      exact ⟨kept, (prepared.appends enabled).trans ((Appends.of_eq rfl).trans later)⟩
  next error after notLimit called =>
    obtain ⟨_, _, _, _, _, _, prepared⟩ := prepared_inversion shut sound quiet called
    obtain ⟨within, _⟩ := prepared.contained_within erased (free _ identified)
      (fun _ reason same => notLimit reason (Except.error.inj same))
    exact ⟨within.insertQuarantined current.2 currentIdentified,
      (prepared.appends enabled).trans (.of_eq rfl)⟩

theorem Contained.keeps_note_lifted (contained : Contained identityOf none manager)
    (key : PluginIdentityKey) : Keeps identityOf manager (manager.note (.lifted key)) := by
  refine ⟨contained.note_lifted key, [.lifted key], rfl, fun fingerprint mem => ?_⟩
  simp at mem

theorem enabled_of_retryRefusal (accepted : manager.retryRefusal key fingerprint = none) :
    manager.quarantine.isPersistentlyDisabled fingerprint = false := by
  unfold retryRefusal at accepted
  dsimp only at accepted
  split at accepted
  · cases accepted
  · unfold isPersistentlyDisabled
    split at accepted
    next isRetryable => rw [isRetryable]
    · cases accepted
    · cases accepted

theorem PluginManager.RecoveryAllowed.of_ledger {operation : Recovery}
    (granted : manager.RecoveryAllowed operation key discovered current answers)
    (vacant : after.plugins.lookup key = none) (ledger : after.quarantine = manager.quarantine) :
    after.RecoveryAllowed operation key discovered current answers where
  __ := granted
  cleanup := by
    intro _ live
    rw [vacant] at live
    cases live
  enabled := by
    rw [ledger]
    exact granted.enabled
  discard := by
    rw [ledger]
    exact granted.discard
  recorded := by simpa only [limitIsRecorded, ledger] using granted.recorded

section

variable [Wirt] (shut : entersTerminal = false) (contained : Contained identityOf none manager)
include shut contained

theorem keeps_retryPlugin (sound : (Operation.retry pluginId answers).Sound identityOf)
    (allowed : (Operation.retry pluginId answers).Allowed manager) :
    Keeps identityOf manager (manager.retryPlugin pluginId answers).2 := by
  unfold retryPlugin
  cases parsed : parseIdentity pluginId with
  | error error => exact ⟨contained, .of_eq rfl⟩
  | ok key =>
    have lifted := contained.keeps_note_lifted key
    dsimp only
    split
    · exact lifted
    · exact lifted
    next discovered current found stands =>
      split
      · exact lifted
      next accepted =>
        have begins : manager.recoveryBegins .retry key discovered current = true := by
          rw [recoveryBegins_retry]
          exact isNone_iff_eq_none.mpr accepted
        have granted := allowed key discovered current parsed found stands begins
        have artifact := sound key discovered parsed found
        have identified := identityOf_discovered artifact.1 found
        have enabled : manager.quarantine.isPersistentlyDisabled
            discovered.fingerprint = false := by
          by_cases unchanged : current.1 = discovered.fingerprint
          · rw [if_pos unchanged] at accepted
            rw [← unchanged]
            exact enabled_of_retryRefusal accepted
          · exact granted.enabled unchanged
        obtain ⟨_, removed, stops | goesOn⟩ :=
          afterRemoval_cases shut (fun other => other.retryPrepared key discovered current answers)
            lifted.1 granted.cleanup
        · rw [stops]
          exact lifted.trans removed.kept
        · rw [goesOn]
          have still := granted.of_ledger removed.vacant removed.ledger
          refine lifted.trans (removed.kept.trans ?_)
          refine keeps_retryPrepared shut removed.kept.1 artifact removed.vacant
            identified (contained.identityOf_registered stands)
            (fun _ same => (removed.free_notLive same).1) ?_ still.cleansUp
            (fun reason limited => (still.recorded reason limited).1)
          rw [removed.ledger]
          exact enabled

theorem contained_resetPrepared (sound : ArtifactSound identityOf discovered answers.prepare)
    (vacant : manager.plugins.lookup key = none)
    (identified : identityOf discovered.fingerprint = key)
    (currentIdentified : identityOf current.1 = key)
    (free : ∀ fingerprint, identityOf fingerprint = key →
      blocked identityOf fingerprint manager.history = false)
    (granted : manager.RecoveryAllowed .reset key discovered current answers) :
    Contained identityOf none (manager.resetPrepared key discovered current answers).2 := by
  have erased : Contained identityOf none
      { manager with
        quarantinedPlugins := manager.quarantinedPlugins.erase key } :=
    contained.erase_quarantined key
  have notLive : NotLive manager discovered.fingerprint := contained.notLive identified vacant
  unfold resetPrepared
  dsimp only
  split
  next managed after called =>
    obtain ⟨_, samePlugins, _, sameLedger, _, _, prepared⟩ :=
      prepared_inversion shut sound granted.cleansUp called
    obtain ⟨within, sameBlocked⟩ :=
      prepared.contained_within erased (free _ identified) (fun _ => nofun)
    obtain ⟨sameFingerprint, _⟩ := prepared.loaded rfl
    have stillFree : blocked identityOf discovered.fingerprint after.history = false :=
      (sameBlocked _).trans (free _ identified)
    have currentFree : blocked identityOf current.1 after.history = false :=
      (sameBlocked current.1).trans (free _ currentIdentified)
    split
    next error refused =>
      have quiet : limitReason answers.discard = none := by
        refine granted.discard rfl ?_
        rw [sameLedger] at refused
        rw [refused]
        rfl
      have discarded : Contained identityOf none
          (after.discardPreparedPlugin managed answers.discard) :=
        (within.enter_within shut (fun _ => by rw [sameFingerprint]; exact stillFree)
          (fun _ => quiet)).1
      exact discarded.insertQuarantined current.2 currentIdentified
    next ledger dropped =>
      obtain ⟨nowEnabled, agrees⟩ := remove_spec dropped
      have cleared := within.change_ledger agrees
        (within.notLive currentIdentified (by rw [samePlugins]; exact vacant))
        (fun _ isBlocked => by
          rw [currentFree] at isBlocked
          cases isBlocked)
      refine cleared.registerPreparedPlugin ?_ ?_ ?_
      · rw [sameFingerprint, identified]
      · rw [sameFingerprint]
        exact stillFree
      · rw [sameFingerprint]
        by_cases unchanged : current.1 = discovered.fingerprint
        · rw [← unchanged]
          exact nowEnabled
        · rw [(agrees _ (Ne.symm unchanged)).2, sameLedger]
          exact granted.enabled unchanged
  next reason after called =>
    obtain ⟨outcome, samePlugins, _, sameLedger, _, _, prepared⟩ :=
      prepared_inversion shut sound granted.cleansUp called
    have pending := prepared.contained_pending erased (free _ identified) notLive
    obtain ⟨taken, kept⟩ := granted.recorded reason (by rw [← outcome]; rfl)
    have stillVacant : after.plugins.lookup key = none := by
      rw [samePlugins]
      exact vacant
    split
    next error refused =>
      rw [sameLedger] at refused
      have keptBack := kept rfl (by rw [refused]; rfl)
      have settled := pending.settle (fun _ => by rw [sameLedger]; exact keptBack)
      exact settled.insertQuarantined current.2 currentIdentified
    next ledger dropped =>
      obtain ⟨_, agrees⟩ := remove_spec dropped
      have accepted : (validateReason reason).isOk = true := by
        rw [sameLedger] at dropped
        simpa [limitIsRecorded, dropped, Except.isOk, Except.toBool] using taken
      have cleared := pending.change_ledger agrees (pending.notLive currentIdentified stillVacant)
        (fun notPending isBlocked => by
          have changed : current.1 ≠ discovered.fingerprint := fun same => notPending (by rw [same])
          rw [prepared.blocked_after] at isBlocked
          simp [changed, free _ currentIdentified] at isBlocked)
      exact (keeps_quarantineInitial cleared
        (cleared.notLive identified stillVacant) identified accepted).1
  next error after notLimit called =>
    obtain ⟨_, _, _, _, _, _, prepared⟩ := prepared_inversion shut sound granted.cleansUp called
    obtain ⟨within, _⟩ := prepared.contained_within erased (free _ identified)
      (fun _ reason same => notLimit reason (Except.error.inj same))
    exact within.insertQuarantined current.2 currentIdentified

theorem contained_resetPluginQuarantine
    (sound : (Operation.reset pluginId answers).Sound identityOf)
    (allowed : (Operation.reset pluginId answers).Allowed manager) :
    Contained identityOf none (manager.resetPluginQuarantine pluginId answers).2 := by
  unfold resetPluginQuarantine
  cases parsed : parseIdentity pluginId with
  | error error => exact contained
  | ok key =>
    have lifted := contained.note_lifted key
    dsimp only
    split
    · exact lifted
    · exact lifted
    next discovered current found stands =>
      split
      next begins =>
        have granted := allowed key discovered current parsed found stands begins
        have artifact := sound key discovered parsed found
        have identified := identityOf_discovered artifact.1 found
        obtain ⟨_, removed, stops | goesOn⟩ :=
          afterRemoval_cases shut (fun other => other.resetPrepared key discovered current answers)
            lifted granted.cleanup
        · rw [stops]
          exact removed.kept.1
        · rw [goesOn]
          exact contained_resetPrepared shut removed.kept.1 artifact
            removed.vacant identified (contained.identityOf_registered stands)
            (fun _ same => (removed.free_notLive same).1)
            (granted.of_ledger removed.vacant removed.ledger)
      · exact lifted

end

theorem keeps_enablePlugin [Wirt] (pluginId : String)
    (contained : Contained identityOf none manager) :
    Keeps identityOf manager (manager.enablePlugin pluginId).2 := by
  unfold enablePlugin
  cases parsed : parseIdentity pluginId with
  | error error => exact ⟨contained, .of_eq rfl⟩
  | ok key =>
    dsimp only
    split
    · exact ⟨contained, .of_eq rfl⟩
    next plugin live =>
      split
      · exact ⟨contained, .of_eq rfl⟩
      next clear =>
        have identified := contained.liveIdentity live
        have admitted : Contained identityOf none
            { manager with
              plugins :=
                manager.plugins.insert key { plugin with admits := true } } :=
          contained.setLive identified
            (fun mustShut => absurd (contained.shut live mustShut).2.2 clear)
        exact ⟨admitted.congr rfl rfl rfl rfl, .of_eq rfl⟩

theorem keeps_disablePlugin [Wirt] (pluginId : String)
    (contained : Contained identityOf none manager) :
    Keeps identityOf manager (manager.disablePlugin pluginId).2 := by
  unfold disablePlugin
  cases parsed : parseIdentity pluginId with
  | error error => exact ⟨contained, .of_eq rfl⟩
  | ok key =>
    dsimp only
    split
    · exact ⟨contained, .of_eq rfl⟩
    next plugin live =>
      have identified := contained.liveIdentity live
      have turnedAway : Contained identityOf none
          { manager with
            plugins :=
              manager.plugins.insert key { plugin with admits := false } } :=
        contained.setLive identified (fun mustShut => ⟨rfl, (contained.shut live mustShut).2⟩)
      exact ⟨turnedAway.congr rfl rfl rfl rfl, .of_eq rfl⟩

variable {expected : PackageFingerprint}

theorem installPlan_eq_ok [Wirt] {answers : InstallAnswers} {staged : DiscoveredPlugin}
    (planned : manager.installPlan expected answers = .ok (key, staged)) :
    manager.plugins.lookup key = none ∧ answers.staged = .ok staged ∧ ∃ package,
      answers.package = .ok package ∧ parseIdentity package.1.plugin.id = .ok key := by
  unfold installPlan at planned
  dsimp only at planned
  split at planned
  · cases planned
  · obtain ⟨package, isPackage, planned⟩ := Fallible.bind_eq_ok.mp planned
    split at planned
    · cases planned
    · obtain ⟨_, isFolded, planned⟩ := Fallible.bind_eq_ok.mp planned
      split at planned
      · cases planned
      next unregistered =>
        obtain ⟨_, _, planned⟩ := Fallible.bind_eq_ok.mp planned
        split at planned
        · cases planned
        · obtain ⟨collision, _, planned⟩ := Fallible.bind_eq_ok.mp planned
          cases collision with
          | some => cases planned
          | none =>
            obtain ⟨_, isStaged, planned⟩ := Fallible.bind_eq_ok.mp planned
            obtain ⟨rfl, rfl⟩ := Prod.mk.inj (Except.ok.inj planned)
            refine ⟨?_, isStaged, package, isPackage, isFolded⟩
            simpa [isIdentityRegistered] using unregistered

theorem keeps_installPluginPackage [Wirt] (shut : entersTerminal = false)
    {answers : InstallAnswers} (contained : Contained identityOf none manager)
    (sound : (Operation.install expected answers).Sound identityOf)
    (allowed : (Operation.install expected answers).Allowed manager) :
    Keeps identityOf manager (manager.installPluginPackage expected answers).2 := by
  unfold installPluginPackage
  split
  · exact ⟨contained, .of_eq rfl⟩
  next key staged planned =>
    obtain ⟨_, isStaged, package, isPackage, folded⟩ := installPlan_eq_ok planned
    obtain ⟨artifact, sameManifest⟩ := sound staged isStaged
    obtain ⟨clear, quiet, within, quietDiscard⟩ := allowed key staged planned
    have identified : identityOf staged.fingerprint = key := by
      have parsed := artifact.1
      rw [sameManifest package isPackage, folded] at parsed
      exact (Except.ok.inj parsed).symm
    have free := contained.not_blocked clear
    have enabled : manager.quarantine.isPersistentlyDisabled staged.fingerprint = false :=
      (Bool.or_eq_false_iff.mp clear).2
    split
    next error after called =>
      obtain ⟨outcome, _, _, _, _, _, prepared⟩ := prepared_inversion shut artifact quiet called
      have notLimit : answers.prepare.load.isOk = true → ∀ reason,
          (Except.error error : Except PluginError ManagedPlugin) ≠
            .error (.resourceLimit reason) := by
        intro loaded reason limited
        have noReason := within loaded
        rw [← outcome, limited] at noReason
        cases noReason
      exact ⟨(prepared.contained_within contained free notLimit).1, prepared.appends enabled⟩
    next managed after called =>
      obtain ⟨_, _, _, sameLedger, _, _, prepared⟩ := prepared_inversion shut artifact quiet called
      obtain ⟨stillContained, sameBlocked⟩ :=
        prepared.contained_within contained free (fun _ => nofun)
      obtain ⟨sameFingerprint, _⟩ := prepared.loaded rfl
      have stillFree : blocked identityOf managed.fingerprint after.history = false := by
        rw [sameFingerprint, sameBlocked]
        exact free
      have stillEnabled : after.quarantine.isPersistentlyDisabled managed.fingerprint = false := by
        rw [sameFingerprint, sameLedger]
        exact enabled
      have prior : Keeps identityOf manager after := ⟨stillContained, prepared.appends enabled⟩
      split
      next error failed =>
        have noLimit : limitReason answers.discard = none := quietDiscard (by rw [failed]; rfl)
        exact prior.trans ⟨(stillContained.enter_within shut (fun _ => stillFree)
          (fun _ => noLimit)).1, appends_enter shut answers.discard (fun _ => stillEnabled)⟩
      · refine prior.trans ⟨stillContained.registerPreparedPlugin ?_ stillFree
          stillEnabled, .of_eq rfl⟩
        rw [sameFingerprint, identified]

theorem removePackage_agrees [PackageFormat] (ledger : QuarantineLedger) (root : PluginRoot)
    (key : PluginIdentityKey) (target : UninstallTarget) (answers : UninstallAnswers)
    (failed : (removePackage ledger root key target answers).1 ≠ .ok ())
    (fingerprint : PackageFingerprint) :
    ledger.AgreesOn (removePackage ledger root key target answers).2.1
      fingerprint := by
  have same : ledger.AgreesOn ledger fingerprint := ⟨rfl, rfl⟩
  revert failed
  unfold removePackage
  split
  · exact fun _ => same
  · split
    · exact fun _ => same
    · split
      · exact fun _ => same
      · dsimp only
        split
        · exact fun _ => same
        next removed =>
          have back := restore_after_remove removed answers.restored fingerprint
          split
          · exact absurd rfl
          · split
            next restored isRestored =>
              rw [isRestored] at back
              exact fun _ => back
            next restored isRestored =>
              rw [isRestored] at back
              exact fun _ => back

theorem eq_of_checkedTarget {discovered : DiscoveredPlugin} {settled target : UninstallTarget}
    (checked :
      (if (manager.enabledPlugins.lookup key).getD false then
        throw (.conflict ("Plugin '" ++ settled.id ++ "' must be disabled before uninstall"))
      else
        match discovered.artifact with
        | .sidecars manifestParent wasmParent =>
          if manifestParent = wasmParent ∧ manifestParent.getLast? = some key.key then pure settled
          else throw (.conflict "only package-installed plugin directories can be uninstalled")
        | .package =>
          throw (.conflict "only package-installed plugin directories can be uninstalled") :
        Except PluginError UninstallTarget) = .ok target) :
    target = settled := by
  split at checked
  · cases checked
  · split at checked
    · split at checked
      · exact (Except.ok.inj checked).symm
      · cases checked
    · cases checked

theorem uninstallTarget_eq_ok [Wirt] {target : UninstallTarget}
    (chosen : manager.uninstallTarget pluginId key discover = .ok target) :
    ∃ discovered, discoveredPlugin discover key = .ok discovered ∧
      target.fingerprint = discovered.fingerprint := by
  obtain ⟨discovered, found, chosen⟩ := Fallible.bind_eq_ok.mp chosen
  refine ⟨discovered, found, ?_⟩
  dsimp only at chosen
  split at chosen
  · split at chosen
    · cases chosen
    next unchanged =>
      rw [eq_of_checkedTarget chosen]
      exact (not_not.mp (not_or.mp unchanged).2).symm
  · split at chosen
    · rw [eq_of_checkedTarget chosen]
    · cases chosen

variable {ledger : QuarantineLedger}

theorem Contained.same_ledger (contained : Contained identityOf none manager)
    (agrees : ∀ fingerprint, manager.quarantine.AgreesOn ledger fingerprint) :
    Contained identityOf none { manager with quarantine := ledger } where
  __ := contained
  recorded := by
    intro fingerprint notPending isBlocked
    obtain ⟨violation, disabled⟩ := agrees fingerprint
    have before := contained.recorded notPending isBlocked
    simpa only [blocks, violation, disabled] using before
  shut := by
    intro _ managed live mustShut
    obtain ⟨violation, disabled⟩ := agrees managed.fingerprint
    dsimp only at mustShut ⊢
    rw [disabled] at mustShut
    rw [violation]
    exact contained.shut live mustShut

theorem Contained.forgetIdentity [Wirt] (contained : Contained identityOf none manager)
    (key : PluginIdentityKey) : Contained identityOf none (manager.forgetIdentity key) := by
  refine contained.erase (fun {other} managed live => ?_)
    (fun {other} quarantined stands => ?_) rfl rfl
  · simp only [PluginManager.forgetIdentity, lookup_erase_ite] at live
    split at live
    · cases live
    · exact live
  · simp only [PluginManager.forgetIdentity, lookup_erase_ite] at stands
    split at stands
    · cases stands
    · exact stands

theorem keeps_uninstallPackage [Wirt] [PackageFormat] (shut : entersTerminal = false)
    {root : PluginRoot} {answers : UninstallAnswers} (contained : Contained identityOf none manager)
    (sound : (Operation.uninstall root pluginId answers).Sound identityOf)
    (allowed : (Operation.uninstall root pluginId answers).Allowed manager) :
    Keeps identityOf manager (manager.uninstallPackage root pluginId answers).2.1 := by
  unfold uninstallPackage
  cases parsed : parseIdentity pluginId with
  | error error => exact ⟨contained, .of_eq rfl⟩
  | ok key =>
    dsimp only
    split
    · exact ⟨contained, .of_eq rfl⟩
    next target chosen =>
      obtain ⟨discovered, found, sameFingerprint⟩ := uninstallTarget_eq_ok chosen
      have identified : identityOf target.fingerprint = key := by
        rw [sameFingerprint]
        exact identityOf_discovered (sound key discovered parsed found) found
      have agrees := removePackage_agrees manager.quarantine root key target answers
      have dropped := @removePackage_ledger _ manager.quarantine root key target answers
      split
      next error ledger rootAfter removal =>
        rw [removal] at agrees
        exact ⟨contained.same_ledger (agrees nofun), .of_eq rfl⟩
      next ledger rootAfter removal =>
        rw [removal] at dropped
        obtain ⟨nowEnabled, others⟩ := remove_spec (dropped rfl)
        have lifted := contained.keeps_note_lifted key
        have forgotten := lifted.1.forgetIdentity key
        have free : ∀ {fingerprint}, identityOf fingerprint = key → blocked identityOf fingerprint
            (manager.note (.lifted key)).history = false := by
          intro fingerprint same
          rw [← same]
          exact Contained.blocked_note_lifted manager fingerprint
        have cleared := forgotten.change_ledger others
          (forgotten.notLive identified (AList.lookup_erase key _))
          (fun _ isBlocked => by
            rw [show ((manager.note (.lifted key)).forgetIdentity key).history =
              (manager.note (.lifted key)).history from rfl,
              free identified] at isBlocked
            cases isBlocked)
        split
        · exact ⟨cleared, lifted.2.trans (.of_eq rfl)⟩
        next removed live =>
          have entered := cleared.enter_within shut (fun _ => free (contained.liveIdentity live))
            (allowed key parsed removed live)
          refine ⟨entered.1, lifted.2.trans (Appends.trans (.of_eq rfl)
            (appends_enter shut answers.cleanup (fun isOpen => ?_)))⟩
          have enabled := (contained.free_enabled live (.inr isOpen)).2
          by_cases same : removed.fingerprint = target.fingerprint
          · rw [same]
            exact nowEnabled
          · exact (others _ same).2.trans enabled

theorem exists_attempt [Wirt] (shut : entersTerminal = false) (ledger : QuarantineLedger)
    (fingerprint : PackageFingerprint) (terminal : Bool) (answer : Except PluginError Value) :
    ∃ entries exceeds, guestEvents ledger fingerprint terminal answer =
      attempt fingerprint (ledger.isPersistentlyDisabled fingerprint) entries exceeds := by
  rw [guestEvents_eq shut]
  cases terminal with
  | true => exact ⟨0, false, rfl⟩
  | false => exact ⟨1, _, rfl⟩

theorem Contained.shut_after_limit [Wirt] (shut : entersTerminal = false)
    (contained : Contained identityOf none manager)
    (live : manager.plugins.lookup key = some managed)
    (free : blocked identityOf managed.fingerprint manager.history = false)
    (answer : Except PluginError Value)
    (violation : ledger.hasRuntimeViolation managed.fingerprint = true)
    (agrees : ∀ other, other ≠ managed.fingerprint → manager.quarantine.AgreesOn ledger other) :
    Contained identityOf none
      { manager.enter managed.fingerprint managed.terminal answer with
        plugins := manager.plugins.insert key { managed with admits := false, terminal := true }
        enabledPlugins := manager.enabledPlugins.insert key false
        quarantine := ledger } := by
  have identified := contained.liveIdentity live
  obtain ⟨entries, exceeds, events⟩ := exists_attempt shut manager.quarantine
    managed.fingerprint managed.terminal answer
  -- The instance is taken out while its violation is pending, and put back shut.
  have forgotten := contained.forgetLive key
  have notLive := forgotten.notLive identified (AList.lookup_erase key manager.plugins)
  have pending := forgotten.attempt_pending
    (manager.quarantine.isPersistentlyDisabled managed.fingerprint) entries exceeds
    free notLive
  have settled := (pending.change_ledger agrees notLive
    (absurd rfl)).settle
    (fun _ => by simp [blocks, violation])
  have back := @Contained.setLive _ _ _ key settled
    { managed with admits := false, terminal := true } identified
    (fun _ => ⟨rfl, rfl, violation⟩)
  refine back.erase (fun {other} found stands => ?_) id rfl ?_
  · simp only [PluginManager.forgetLive, lookup_insert_ite] at stands ⊢
    split at stands
    next same =>
      rw [if_pos same]
      exact stands
    next different =>
      rw [if_neg different, AList.lookup_erase_ne different]
      exact stands
  · simp only [PluginManager.enter, events, PluginManager.forgetLive]

theorem violationRecorded_spec {reason : String} {written : Except PluginError Unit}
    (taken : manager.violationRecorded managed reason written = true) :
    ∃ ledger, (if managed.retryAuthorized then
      manager.quarantine.recordFailedRetry managed.fingerprint reason written
        else manager.quarantine.recordInitialViolation managed.fingerprint reason) = .ok ledger ∧
        ledger.hasRuntimeViolation managed.fingerprint = true ∧
        ∀ other, other ≠ managed.fingerprint → manager.quarantine.AgreesOn ledger other := by
  unfold violationRecorded at taken
  cases authorized : managed.retryAuthorized with
  | true =>
    simp only [authorized, ↓reduceIte] at taken ⊢
    cases recorded : manager.quarantine.recordFailedRetry managed.fingerprint reason written with
    | error error =>
      rw [recorded] at taken
      cases taken
    | ok ledger => exact ⟨ledger, rfl, recordFailedRetry_spec recorded⟩
  | false =>
    simp only [authorized, Bool.false_eq_true, ↓reduceIte] at taken ⊢
    cases recorded : manager.quarantine.recordInitialViolation managed.fingerprint reason with
    | error error =>
      rw [recorded] at taken
      cases taken
    | ok ledger => exact ⟨ledger, rfl, recordInitialViolation_spec recorded⟩

theorem keeps_withCurrentInstance [Wirt] (shut : entersTerminal = false)
    {answers : ExecuteAnswers} (contained : Contained identityOf none manager)
    (allowed : (Operation.execute pluginId answers).Allowed manager) :
    Keeps identityOf manager (manager.withCurrentInstance pluginId answers).2 := by
  unfold withCurrentInstance
  cases parsed : parseIdentity pluginId with
  | error error => exact ⟨contained, .of_eq rfl⟩
  | ok key =>
    dsimp only
    split
    · exact ⟨contained, .of_eq rfl⟩
    next managed live =>
      split
      · exact ⟨contained, .of_eq rfl⟩
      next isCurrent =>
        split
        · exact ⟨contained, .of_eq rfl⟩
        next isAdmitted =>
          have current : answers.current = true := by simpa using isCurrent
          have admitted : managed.admits = true := by simpa using isAdmitted
          obtain ⟨free, enabled⟩ := contained.free_enabled live (.inl admitted)
          have extended :=
            appends_enter shut answers.result (fun _ : managed.terminal = false => enabled)
          split
          next reason limited =>
            obtain ⟨_, recorded, violation, agrees⟩ :=
              violationRecorded_spec (allowed key managed reason parsed live
                current admitted limited)
            dsimp only [enter]
            rw [recorded]
            exact ⟨contained.shut_after_limit shut live free answers.result
              violation agrees, extended⟩
          next notLimit =>
            have within : limitReason answers.result = none := by
              unfold limitReason
              split
              next reason limited => exact absurd limited (notLimit reason)
              · rfl
            exact ⟨(contained.enter_within shut (fun _ => free) (fun _ => within)).1, extended⟩

theorem contained_restart (contained : Contained identityOf none manager)
    (initialSettings : KeyedMap PluginIdentityKey Settings) : Contained identityOf none
      { fresh manager.quarantine.durable initialSettings with
        history := .restarted :: manager.history } where
  __ := contained
  liveIdentity := nofun
  quarantinedIdentity := nofun
  recorded := nofun
  shut := nofun

theorem contained_step [Wirt] [PackageFormat] (shut : entersTerminal = false)
    {operation : Operation} (contained : Contained identityOf none manager)
    (sound : operation.Sound identityOf) (allowed : operation.Allowed manager) :
    Contained identityOf none (manager.step operation) ∧
      (operation.isReset = false → Appends manager (manager.step operation)) := by
  suffices keeps : operation.isReset = false → Keeps identityOf manager (manager.step operation) by
    cases isReset : operation.isReset with
    | false => exact ⟨(keeps isReset).1, fun _ => (keeps isReset).2⟩
    | true =>
      cases operation with
      | reset pluginId answers =>
        exact ⟨contained_resetPluginQuarantine shut contained sound allowed, nofun⟩
      | _ => cases isReset
  intro notReset
  cases operation with
  | init discover =>
    cases discover with
    | error error => exact ⟨contained, .of_eq rfl⟩
    | ok plugins => exact keeps_initEach shut contained (sound plugins rfl) (allowed plugins rfl)
  | load _ answers => exact keeps_loadPlugin shut contained sound allowed
  | reload pluginId answers => exact keeps_reloadPlugin shut contained sound allowed
  | retry pluginId answers => exact keeps_retryPlugin shut contained sound allowed
  | reset pluginId answers => cases notReset
  | enable pluginId => exact keeps_enablePlugin pluginId contained
  | disable pluginId => exact keeps_disablePlugin pluginId contained
  | install _ answers => exact keeps_installPluginPackage shut contained sound allowed
  | uninstall _ pluginId answers => exact keeps_uninstallPackage shut contained sound allowed
  | execute pluginId answers => exact keeps_withCurrentInstance shut contained allowed
  | restart initialSettings =>
    refine ⟨contained_restart contained initialSettings, [.restarted], rfl, ?_⟩
    intro _ mem
    simp at mem

end

namespace PluginManager

def run [Wirt] [PackageFormat] (manager : PluginManager) : List Operation → PluginManager
  | [] => manager
  | operation :: rest => (manager.step operation).run rest

def RunAllowed [Wirt] [PackageFormat] (manager : PluginManager) : List Operation → Prop
  | [] => True
  | operation :: rest => operation.Allowed manager ∧ (manager.step operation).RunAllowed rest

end PluginManager

theorem contained_run [Wirt] [PackageFormat] {identityOf : PackageFingerprint → PluginIdentityKey}
    (shut : entersTerminal = false) {operations : List Operation} {manager : PluginManager}
    (contained : Contained identityOf none manager)
    (sound : ∀ operation ∈ operations, operation.Sound identityOf)
    (allowed : manager.RunAllowed operations) : Contained identityOf none (manager.run operations) ∧
      ∀ {earlier operation later}, operations = earlier ++ operation :: later →
        operation.isReset = false →
          Appends (manager.run earlier) ((manager.run earlier).step operation) := by
  induction operations generalizing manager with
  | nil => exact ⟨contained, fun split => by simp at split⟩
  | cons _ rest ih =>
    obtain ⟨firstAllowed, restAllowed⟩ := allowed
    obtain ⟨next, appended⟩ :=
      contained_step shut contained (sound _ mem_cons_self) firstAllowed
    obtain ⟨last, between⟩ := ih next
      (fun operation mem => sound operation (mem_cons_of_mem _ mem))
      restAllowed
    refine ⟨last, ?_⟩
    intro earlier operation later parts
    cases earlier with
    | nil =>
      obtain ⟨rfl, _⟩ := cons.inj parts
      exact appended
    | cons =>
      obtain ⟨rfl, rest⟩ := cons.inj parts
      exact between rest

/-- Where all operations are allowed, no blocked guest is entered, and only a reset enters a
persistently disabled package. -/
theorem blocked_packages_stay_out [Wirt] [PackageFormat] (shut : entersTerminal = false)
    (identityOf : PackageFingerprint → PluginIdentityKey) (durable : Records)
    (initialSettings : KeyedMap PluginIdentityKey Settings) (operations : List Operation)
    (sound : ∀ operation ∈ operations, operation.Sound identityOf)
    (allowed : (fresh durable initialSettings).RunAllowed operations) :
    respected identityOf ((fresh durable initialSettings).run operations).history = true ∧
      ∀ earlier operation later, operations = earlier ++ operation :: later →
        operation.isReset = false → Appends ((fresh durable initialSettings).run earlier)
          (((fresh durable initialSettings).run earlier).step operation) := by
  have start : Contained identityOf none (fresh durable initialSettings) :=
    ⟨rfl, nofun, nofun, nofun, nofun⟩
  obtain ⟨contained, appended⟩ := contained_run shut start sound allowed
  exact ⟨contained.respected, fun _ _ _ => appended⟩

def sampleIdentity (_ : PackageFingerprint) : PluginIdentityKey := ⟨"ui-demo"⟩

def executeLimited (written : Except PluginError Unit) : Operation :=
  .execute "ui-demo" {
    current := true
    result := .error (.resourceLimit "memory limit")
    written := written }

theorem artifactSound_uiDemo :
    @ArtifactSound sampleIdentity sampleWirt uiDemoDiscovered preparedWell := by
  refine ⟨rfl, fun loaded => ?_⟩
  exact (Except.ok.inj loaded).symm

/-- A load, an execution that exceeds a limit, and an enable that is refused. -/
theorem blocked_packages_stay_out_enable : respected sampleIdentity
    (@PluginManager.run sampleWirt samplePackageFormat (fresh ∅ ∅)
      [.load uiDemoDiscovered preparedWell, executeLimited (.ok ()),
        .enable "ui-demo"]).history = true := by
  refine (@blocked_packages_stay_out sampleWirt samplePackageFormat rfl
    sampleIdentity ∅ ∅ [.load uiDemoDiscovered preparedWell,
      executeLimited (.ok ()), .enable "ui-demo"] ?_ ?_).1
  · intro _ mem
    rcases mem_cons.mp mem with rfl | mem
    · exact artifactSound_uiDemo
    · rcases mem_cons.mp mem with rfl | mem
      · exact trivial
      · rcases mem_cons.mp mem with rfl | mem
        · exact trivial
        · cases mem
  · refine ⟨?_, ?_, trivial, trivial⟩
    · intro key parsed _
      exact ⟨rfl, rfl, nofun⟩
    · intro key _ _ parsed live _ _ limited
      obtain rfl := Except.ok.inj parsed
      obtain rfl := PluginError.resourceLimit.inj (Except.error.inj limited)
      cases live
      decide

/-- A retried plugin exceeds a limit again while the ledger cannot be written, and
is then reloaded. -/
def reloadedAfterLimit : List Operation :=
  [.load uiDemoDiscovered preparedWell, executeLimited (.ok ()),
    .retry "ui-demo" (retryAnswers (.ok ()) preparedWell (.ok ())),
    executeLimited (.error (.io "plugin quarantine ledger could not be written")),
    .reload "ui-demo" ⟨.ok (), .ok [uiDemoDiscovered], preparedWell⟩]

/-- The ledger file after three failed retries of the sample plugin. -/
def thriceFailed : Records := AList.singleton uiDemoFingerprint ⟨maxFailedRetries, "memory limit"⟩

theorem discoveredPlugin_uiDemo {key : PluginIdentityKey} {discovered : DiscoveredPlugin}
    (found : @discoveredPlugin sampleWirt (.ok [uiDemoDiscovered]) key = .ok discovered) :
    discovered = uiDemoDiscovered := by
  obtain ⟨_, listed, chosen⟩ := Fallible.bind_eq_ok.mp found
  obtain rfl := Except.ok.inj listed
  split at chosen
  next search =>
    obtain rfl := Except.ok.inj chosen
    simpa using mem_of_find?_eq_some search
  · cases chosen

/-- A reload runs a blocked package, and a load a disabled one, though the loader is sound. -/
theorem reload_and_load_run_blocked_package : ((∀ operation ∈ reloadedAfterLimit,
    @Operation.Sound sampleIdentity sampleWirt operation) ∧
      respected sampleIdentity (@PluginManager.run sampleWirt samplePackageFormat (fresh ∅ ∅)
        reloadedAfterLimit).history = false) ∧
      (@Operation.Sound sampleIdentity sampleWirt (.load uiDemoDiscovered preparedWell) ∧
        .entered uiDemoFingerprint true ∈ (@PluginManager.step sampleWirt samplePackageFormat
          (fresh thriceFailed ∅) (.load uiDemoDiscovered preparedWell)).history) := by
  refine ⟨⟨?_, by decide⟩, artifactSound_uiDemo, by decide⟩
  intro operation mem
  rcases mem_cons.mp mem with rfl | mem
  · exact artifactSound_uiDemo
  · rcases mem_cons.mp mem with rfl | mem
    · exact trivial
    · rcases mem_cons.mp mem with rfl | mem
      · intro key discovered _ found
        rw [discoveredPlugin_uiDemo found]
        exact artifactSound_uiDemo
      · rcases mem_cons.mp mem with rfl | mem
        · exact trivial
        · obtain rfl := mem_singleton.mp mem
          intro key discovered _ found
          rw [discoveredPlugin_uiDemo found]
          exact artifactSound_uiDemo

end Arclain.Plugins
