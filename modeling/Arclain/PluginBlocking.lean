import Arclain.PluginRecovery
import Arclain.PluginRemoval

namespace Arclain.Plugins

/-!
# When a blocked package may run again

After an execution has exceeded a limit, its guest is not entered until a retry, a reset, an
uninstall or a restart; and while the ledger holds it persistently disabled, only a reset
enters it.
-/

open KeyedMap List PluginManager PrepareAnswers

section

variable (identityOf : PackageFingerprint → PluginIdentityKey)

/-- Since the package last exceeded a limit, nothing has lifted the block. -/
def blocked (fingerprint : PackageFingerprint) : List ManagerEvent → Bool
  | [] => false
  | .entered _ _ :: rest => blocked fingerprint rest
  | .limited other :: rest => fingerprint = other || blocked fingerprint rest
  | .lifted key :: rest => identityOf fingerprint ≠ key && blocked fingerprint rest
  | .restarted :: _ => false

/-- No guest was entered while its package was blocked. -/
def respected : List ManagerEvent → Bool
  | [] => true
  | .entered fingerprint _ :: rest => !blocked identityOf fingerprint rest && respected rest
  | _ :: rest => respected rest

def attempt (fingerprint : PackageFingerprint) (held : Bool) (entries : Nat)
    (exceeds : Bool) : List ManagerEvent :=
  (if exceeds then [.limited fingerprint] else []) ++
    List.replicate entries (.entered fingerprint held)

variable (fingerprint other : PackageFingerprint)

theorem blocked_replicate (held : Bool) (entries : Nat) (history : List ManagerEvent) :
    blocked identityOf other (List.replicate entries (.entered fingerprint held) ++ history) =
      blocked identityOf other history := by
  induction entries with
  | zero => rfl
  | succ entries ih => exact ih

theorem blocked_attempt (held : Bool) (entries : Nat)
    (exceeds : Bool) (history : List ManagerEvent) :
    blocked identityOf other (attempt fingerprint held entries exceeds ++ history) =
      ((exceeds && other = fingerprint) || blocked identityOf other history) := by
  cases exceeds with
  | false =>
    simpa [attempt] using blocked_replicate identityOf fingerprint other held entries history
  | true =>
    simp [attempt, blocked, blocked_replicate]

theorem respected_attempt {fingerprint : PackageFingerprint} (held : Bool) (entries : Nat)
    (exceeds : Bool) {history : List ManagerEvent}
    (free : blocked identityOf fingerprint history = false)
    (before : respected identityOf history = true) :
    respected identityOf (attempt fingerprint held entries exceeds ++ history) = true := by
  have entered : respected identityOf
      (List.replicate entries (.entered fingerprint held) ++ history) = true := by
    induction entries with
    | zero => exact before
    | succ entries ih =>
      rw [replicate_succ, cons_append]
      simp [respected, blocked_replicate, free, ih]
  cases exceeds with
  | false => simpa [attempt] using entered
  | true => simpa [attempt, respected] using entered

theorem attempt_append (fingerprint : PackageFingerprint) (held exceeds : Bool)
    (later earlier : Nat) :
    attempt fingerprint held later exceeds ++ attempt fingerprint held earlier false =
      attempt fingerprint held (later + earlier) exceeds := by
  simp [attempt]

theorem entered_mem_attempt {fingerprint other : PackageFingerprint} {held mark : Bool}
    {entries : Nat} {exceeds : Bool}
    (mem : ManagerEvent.entered other mark ∈ attempt fingerprint held entries exceeds) :
    mark = held := by
  cases exceeds with
  | false =>
    simp only [attempt, Bool.false_eq_true, ↓reduceIte, nil_append,
      mem_replicate, ManagerEvent.entered.injEq] at mem
    exact mem.2.2
  | true =>
    simp only [attempt, ↓reduceIte, mem_append, mem_singleton,
      reduceCtorEq, mem_replicate, ManagerEvent.entered.injEq, false_or] at mem
    exact mem.2.2

end

variable {Value : Type}

theorem guestEvents_eq [Wirt] (shut : Wirt.entersTerminal = false)
    (ledger : QuarantineLedger) (fingerprint : PackageFingerprint) (terminal : Bool)
    (answer : Except PluginError Value) : guestEvents ledger fingerprint terminal answer =
      if terminal then []
      else
        attempt fingerprint (ledger.isPersistentlyDisabled fingerprint) 1
          (limitReason answer).isSome := by
  cases terminal with
  | true => simp [guestEvents, shut]
  | false =>
    cases limited : (limitReason answer).isSome with
    | true | false => simp [guestEvents, limited, attempt]

/-- The clean-up of a failed preparation stays within the limits, unless that has exceeded
one. -/
def PrepareAnswers.cleansUp (answers : PrepareAnswers) (manifest : PluginManifest) : Bool :=
  (limitReason answers.cleanup).isNone || (limitReason (answers.outcome manifest)).isSome

/-- What a preparation does to the manager and what it returns. -/
structure Prepared (manager : PluginManager) (discovered : DiscoveredPlugin)
    (answers : PrepareAnswers) (result : Except PluginError ManagedPlugin) (after : PluginManager)
    (entries : Nat) (exceeds : Bool) : Prop where
  state : after =
    { manager with
      history :=
        attempt discovered.fingerprint
          (manager.quarantine.isPersistentlyDisabled discovered.fingerprint)
          entries exceeds ++
          manager.history }
  limited : exceeds = true →
    answers.load.isOk = true ∧ ∃ reason, result = .error (.resourceLimit reason)
  loaded : ∀ {managed}, result = .ok managed →
    managed.fingerprint = discovered.fingerprint ∧ managed.terminal = false

theorem eq_resourceLimit {answer : Except PluginError Value}
    (exceeds : (limitReason answer).isSome = true) :
    ∃ reason, answer = .error (.resourceLimit reason) := by
  cases answer with
  | ok => cases exceeds
  | error error =>
    cases error with
    | resourceLimit reason => exact ⟨reason, rfl⟩
    | _ => cases exceeds

theorem limitReason_validated {metadata : Except PluginError PluginInfo} {manifest : PluginManifest}
    {error : PluginError}
    (validated : (metadata >>= validateGuestMetadata manifest) = .error error) :
    limitReason metadata = limitReason (Except.error error : Except _ Unit) := by
  cases metadata with
  | error other =>
    obtain rfl := Except.error.inj validated
    cases other with
    | _ => rfl
  | ok info =>
    have mismatch : validateGuestMetadata manifest info = .error error := validated
    unfold validateGuestMetadata at mismatch
    dsimp only at mismatch
    split at mismatch
    · obtain rfl := Except.error.inj mismatch
      rfl
    · cases mismatch

theorem failed_call_events [Wirt] (shut : Wirt.entersTerminal = false)
    (ledger : QuarantineLedger) (fingerprint : PackageFingerprint)
    (answer : Except PluginError Value) {cleanup : Except PluginError Unit}
    (quiet : (limitReason cleanup).isNone = true ∨ (limitReason answer).isSome = true) :
    ∃ entries, guestEvents ledger fingerprint (limitReason answer).isSome cleanup ++
      guestEvents ledger fingerprint false answer =
        attempt fingerprint (ledger.isPersistentlyDisabled fingerprint) entries
          (limitReason answer).isSome := by
  simp only [guestEvents_eq shut, Bool.false_eq_true, ↓reduceIte]
  cases exceeds : (limitReason answer).isSome with
  | true => exact ⟨1, rfl⟩
  | false =>
    have within : (limitReason cleanup).isSome = false := by
      rcases quiet with within | limited
      · simpa using within
      · rw [exceeds] at limited
        cases limited
    rw [within]
    exact ⟨1 + 1, attempt_append fingerprint _ false 1 1⟩

theorem preparePlugin_prepared [Wirt] (shut : Wirt.entersTerminal = false) (manager : PluginManager)
    {discovered : DiscoveredPlugin} (retryAuthorized : Bool) {answers : PrepareAnswers}
    (faithful : ∀ {fingerprint},
      answers.load = .ok fingerprint → fingerprint = discovered.fingerprint)
    (quiet : answers.cleansUp discovered.manifest = true) :
    ∃ entries exceeds, Prepared manager discovered answers
      (manager.preparePlugin discovered retryAuthorized answers).1
      (manager.preparePlugin discovered retryAuthorized answers).2 entries exceeds := by
  obtain ⟨load, instantiate, metadata, initGuest, cleanup⟩ := answers
  have entered (answer : Except PluginError Unit) :=
    guestEvents_eq shut manager.quarantine discovered.fingerprint false answer
  cases parsed : Wirt.parseIdentity discovered.manifest.plugin.id with
  | error error =>
    simp only [preparePlugin, parsed]
    exact ⟨0, false, rfl, (by simp), (by simp)⟩
  | ok =>
    cases load with
    | error error =>
      simp only [preparePlugin, parsed]
      exact ⟨0, false, rfl, (by simp), (by simp)⟩
    | ok fingerprint =>
      obtain rfl := faithful rfl
      cases instantiate with
      | error error =>
        simp only [preparePlugin, parsed, enter]
        refine ⟨1, (limitReason (Except.error error : Except _ Unit)).isSome, ?_, ?_, (by simp)⟩
        · rw [entered]
          rfl
        · intro limited
          obtain ⟨reason, same⟩ := eq_resourceLimit limited
          obtain rfl := Except.error.inj same
          exact ⟨rfl, reason, rfl⟩
      | ok =>
        cases validated : metadata >>= validateGuestMetadata discovered.manifest with
        | error error =>
          have sameReason := limitReason_validated validated
          have sameOutcome : outcome
              ⟨.ok discovered.fingerprint, .ok (), metadata, initGuest,
                cleanup⟩ discovered.manifest = .error error := by
            simp only [outcome, validated]
            rfl
          have within : (limitReason cleanup).isNone = true ∨
              (limitReason metadata).isSome = true := by
            rw [sameReason, ← sameOutcome]
            exact Bool.or_eq_true_iff.mp quiet
          obtain ⟨entries, events⟩ := failed_call_events shut
            manager.quarantine discovered.fingerprint metadata within
          refine ⟨entries + 1, (limitReason metadata).isSome, ?_, ?_, ?_⟩
          · simp only [preparePlugin, parsed, validated, enter]
            rw [entered, ← append_assoc, events, ← attempt_append, append_assoc]
            rfl
          · intro limited
            simp only [preparePlugin, parsed, validated]
            rw [sameReason] at limited
            obtain ⟨reason, same⟩ := eq_resourceLimit limited
            obtain rfl := Except.error.inj same
            exact ⟨rfl, reason, rfl⟩
          · simp only [preparePlugin, parsed, validated]
            simp
        | ok =>
          have metadataEntered : guestEvents manager.quarantine discovered.fingerprint false
              metadata = attempt discovered.fingerprint (manager.quarantine.isPersistentlyDisabled
                discovered.fingerprint) 1 false := by
            obtain ⟨_, rfl, _⟩ := Fallible.bind_eq_ok.mp validated
            rw [guestEvents_eq shut]
            rfl
          cases initGuest with
          | error error =>
            have sameOutcome : outcome ⟨.ok discovered.fingerprint, .ok (), metadata,
                .error error, cleanup⟩ discovered.manifest = .error error := by
              simp only [outcome, validated]
              rfl
            have within : (limitReason cleanup).isNone = true ∨ (limitReason
                (Except.error error : Except _ Unit)).isSome = true := by
              rw [← sameOutcome]
              exact Bool.or_eq_true_iff.mp quiet
            obtain ⟨entries, events⟩ := failed_call_events shut
              manager.quarantine discovered.fingerprint
              (Except.error error : Except _ Unit) within
            refine ⟨entries + (1 + 1), (limitReason (Except.error error : Except _ Unit)).isSome,
              ?_, ?_, ?_⟩
            · simp only [preparePlugin, parsed, validated, enter]
              rw [metadataEntered, entered (.ok ()), ← append_assoc,
                events, ← attempt_append, ← attempt_append]
              simp only [append_assoc]
              rfl
            · intro limited
              simp only [preparePlugin, parsed, validated]
              obtain ⟨reason, same⟩ := eq_resourceLimit limited
              obtain rfl := Except.error.inj same
              exact ⟨rfl, reason, rfl⟩
            · simp only [preparePlugin, parsed, validated]
              simp
          | ok =>
            refine ⟨1 + (1 + 1), false, ?_, (by simp), ?_⟩
            · simp only [preparePlugin, parsed, validated, enter]
              rw [metadataEntered, entered, ← attempt_append, ← attempt_append]
              simp only [append_assoc]
              rfl
            · simp only [preparePlugin, parsed, validated]
              intro _ same
              obtain rfl := Except.ok.inj same
              exact ⟨rfl, rfl⟩

section

variable (identityOf : PackageFingerprint → PluginIdentityKey)

/-- Packages have their own identities; a blocked one is kept back or about to be; and a
live one that is kept back is shut. -/
structure Contained (pending : Option PackageFingerprint) (manager : PluginManager) : Prop where
  respected : respected identityOf manager.history = true
  liveIdentity : ∀ {key managed}, manager.plugins.lookup key = some managed →
    identityOf managed.fingerprint = key
  quarantinedIdentity : ∀ {key quarantined},
    manager.quarantinedPlugins.lookup key = some quarantined →
      identityOf quarantined.fingerprint = key
  recorded : ∀ {fingerprint}, pending ≠ some fingerprint →
    blocked identityOf fingerprint manager.history = true →
      manager.quarantine.blocks fingerprint = true
  shut : ∀ {key managed}, manager.plugins.lookup key = some managed →
    blocked identityOf managed.fingerprint manager.history = true ∨
      manager.quarantine.isPersistentlyDisabled managed.fingerprint = true →
      managed.admits = false ∧ managed.terminal = true ∧
        manager.quarantine.hasRuntimeViolation managed.fingerprint = true

/-- The later history extends the earlier one without entering a package that the
ledger held persistently disabled. -/
def Appends (before after : PluginManager) : Prop :=
  ∃ events, after.history = events ++ before.history ∧
    ∀ fingerprint, ManagerEvent.entered fingerprint true ∉ events

namespace Appends

theorem of_eq {before after : PluginManager}
    (same : after.history = before.history) : Appends before after :=
  ⟨[], same, fun _ => not_mem_nil⟩

theorem trans {before between after : PluginManager} (earlier : Appends before between)
    (later : Appends between after) : Appends before after := by
  obtain ⟨first, firstHistory, firstFree⟩ := earlier
  obtain ⟨second, secondHistory, secondFree⟩ := later
  refine ⟨second ++ first, ?_, fun fingerprint mem => ?_⟩
  · rw [secondHistory, firstHistory, append_assoc]
  · rcases mem_append.mp mem with inSecond | inFirst
    · exact secondFree fingerprint inSecond
    · exact firstFree fingerprint inFirst

end Appends

variable {identityOf} {manager : PluginManager}

def NotLive (manager : PluginManager) (fingerprint : PackageFingerprint) : Prop :=
  ∀ key managed, manager.plugins.lookup key = some managed → managed.fingerprint ≠ fingerprint

namespace Contained

variable {pending : Option PackageFingerprint} {fingerprint : PackageFingerprint}
  {key : PluginIdentityKey}

theorem notLive (contained : Contained identityOf pending manager)
    (identified : identityOf fingerprint = key) (vacant : manager.plugins.lookup key = none) :
    NotLive manager fingerprint := by
  intro _ _ live same
  have stands := contained.liveIdentity live
  rw [same, identified] at stands
  rw [← stands, vacant] at live
  cases live

theorem attempt_within (contained : Contained identityOf none manager) (held : Bool) (entries : Nat)
    (free : blocked identityOf fingerprint manager.history = false) : Contained identityOf none
      { manager with
        history :=
          attempt fingerprint held entries false ++ manager.history } where
  __ := contained
  respected := respected_attempt identityOf held entries false free contained.respected
  recorded := by
    intro _ notPending isBlocked
    rw [blocked_attempt] at isBlocked
    exact contained.recorded notPending (by simpa using isBlocked)
  shut := by
    intro _ _ live isShut
    rw [blocked_attempt] at isShut
    exact contained.shut live (by simpa using isShut)

theorem attempt_pending (contained : Contained identityOf none manager) (held : Bool)
    (entries : Nat) (exceeds : Bool) (free : blocked identityOf fingerprint manager.history = false)
    (notLive : NotLive manager fingerprint) : Contained identityOf (some fingerprint)
      { manager with
        history :=
          attempt fingerprint held entries exceeds ++ manager.history } where
  __ := contained
  respected := respected_attempt identityOf held entries exceeds free contained.respected
  recorded := by
    intro other notPending isBlocked
    have different : other ≠ fingerprint := fun same => notPending (by rw [same])
    rw [blocked_attempt] at isBlocked
    exact contained.recorded nofun (by simpa [different] using isBlocked)
  shut := by
    intro _ _ live isShut
    have different := notLive _ _ live
    rw [blocked_attempt] at isShut
    exact contained.shut live (by simpa [different] using isShut)

theorem change_ledger (contained : Contained identityOf pending manager) {ledger : QuarantineLedger}
    (agrees : ∀ other, other ≠ fingerprint → manager.quarantine.AgreesOn ledger other)
    (notLive : NotLive manager fingerprint)
    (covered : pending ≠ some fingerprint → blocked identityOf fingerprint manager.history = true →
      ledger.blocks fingerprint = true) :
    Contained identityOf pending { manager with quarantine := ledger } where
  __ := contained
  recorded := by
    intro other notPending isBlocked
    by_cases same : other = fingerprint
    · subst same
      exact covered notPending isBlocked
    · obtain ⟨violation, disabled⟩ := agrees other same
      have before := contained.recorded notPending isBlocked
      simpa only [QuarantineLedger.blocks, violation, disabled] using before
  shut := by
    intro _ _ live isShut
    obtain ⟨violation, disabled⟩ := agrees _ (notLive _ _ live)
    dsimp only at isShut ⊢
    rw [disabled] at isShut
    rw [violation]
    exact contained.shut live isShut

theorem settle (contained : Contained identityOf (some fingerprint) manager)
    (covered : blocked identityOf fingerprint manager.history = true →
      manager.quarantine.blocks fingerprint = true) :
    Contained identityOf none manager where
  __ := contained
  recorded := by
    intro other _ isBlocked
    by_cases same : other = fingerprint
    · subst same
      exact covered isBlocked
    · exact contained.recorded (fun pending => same (by rw [Option.some.inj pending])) isBlocked

section

variable (contained : Contained identityOf pending manager)
include contained

theorem congr {other : PluginManager}
    (plugins : other.plugins = manager.plugins)
    (quarantinedPlugins : other.quarantinedPlugins = manager.quarantinedPlugins)
    (quarantine : other.quarantine = manager.quarantine)
    (history : other.history = manager.history) : Contained identityOf pending other := by
  obtain ⟨_, _, _, _, _⟩ := contained
  constructor
  · rwa [history]
  · rwa [plugins]
  · rwa [quarantinedPlugins]
  · rwa [quarantine, history]
  · rwa [plugins, quarantine, history]

theorem insertQuarantined (manifest : PluginManifest) (identified : identityOf fingerprint = key) :
    Contained identityOf pending (manager.insertQuarantined key manifest fingerprint) where
  __ := contained
  quarantinedIdentity := by
    intro _ _ stands
    simp only [PluginManager.insertQuarantined, lookup_insert_ite] at stands
    split at stands
    next same =>
      cases stands
      exact identified.trans same.symm
    · exact contained.quarantinedIdentity stands

theorem erase {other : PluginManager}
    (plugins : ∀ {key managed}, other.plugins.lookup key = some managed →
      manager.plugins.lookup key = some managed)
    (quarantinedPlugins : ∀ {key quarantined},
      other.quarantinedPlugins.lookup key = some quarantined →
        manager.quarantinedPlugins.lookup key = some quarantined)
    (quarantine : other.quarantine = manager.quarantine)
    (history : other.history = manager.history) : Contained identityOf pending other where
  respected := by
    rw [history]
    exact contained.respected
  liveIdentity := fun live => contained.liveIdentity (plugins live)
  quarantinedIdentity := fun stands => contained.quarantinedIdentity (quarantinedPlugins stands)
  recorded := by
    rw [quarantine, history]
    exact contained.recorded
  shut := by
    rw [quarantine, history]
    exact fun live isShut => contained.shut (plugins live) isShut

theorem setLive {managed : ManagedPlugin}
    (identified : identityOf managed.fingerprint = key)
    (isShut : blocked identityOf managed.fingerprint manager.history = true ∨
      manager.quarantine.isPersistentlyDisabled managed.fingerprint = true →
        managed.admits = false ∧ managed.terminal = true ∧
          manager.quarantine.hasRuntimeViolation managed.fingerprint = true) :
    Contained identityOf pending
      { manager with plugins := manager.plugins.insert key managed } where
  __ := contained
  liveIdentity := by
    intro other found live
    simp only [lookup_insert_ite] at live
    split at live
    next same =>
      cases live
      exact identified.trans same.symm
    · exact contained.liveIdentity live
  shut := by
    intro other found live mustShut
    simp only [lookup_insert_ite] at live
    split at live
    · cases live
      exact isShut mustShut
    · exact contained.shut live mustShut

theorem registerPreparedPlugin
    {managed : ManagedPlugin} (identified : identityOf managed.fingerprint = key)
    (free : blocked identityOf managed.fingerprint manager.history = false)
    (enabled : manager.quarantine.isPersistentlyDisabled managed.fingerprint = false) :
    Contained identityOf pending (manager.registerPreparedPlugin key managed) := by
  have live := contained.setLive identified (fun mustShut => by simp [free, enabled] at mustShut)
  refine live.erase id (fun {other} quarantined stands => ?_) rfl rfl
  simp only [PluginManager.registerPreparedPlugin, lookup_erase_ite] at stands
  split at stands
  · cases stands
  · exact stands

end

theorem note_lifted (contained : Contained identityOf none manager) (key : PluginIdentityKey) :
    Contained identityOf none (manager.note (.lifted key)) where
  __ := contained
  recorded := by
    intro _ notPending isBlocked
    simp only [note, blocked, Bool.and_eq_true] at isBlocked
    exact contained.recorded notPending isBlocked.2
  shut := by
    intro _ _ live mustShut
    simp only [note, blocked, Bool.and_eq_true] at mustShut
    exact contained.shut live (mustShut.imp_left And.right)

theorem blocked_note_lifted (manager : PluginManager) (fingerprint : PackageFingerprint) :
    blocked identityOf fingerprint
      (manager.note (.lifted (identityOf fingerprint))).history = false := by
  simp [note, blocked]

end Contained

namespace Prepared

variable {discovered : DiscoveredPlugin} {answers : PrepareAnswers}
  {result : Except PluginError ManagedPlugin} {after : PluginManager}
  {entries : Nat} {exceeds : Bool}

section

variable (prepared : Prepared manager discovered answers result after entries exceeds)
include prepared

theorem contained_pending (contained : Contained identityOf none manager)
    (free : blocked identityOf discovered.fingerprint manager.history = false)
    (notLive : NotLive manager discovered.fingerprint) :
    Contained identityOf (some discovered.fingerprint) after := by
  rw [prepared.state]
  exact contained.attempt_pending _ entries exceeds free notLive

theorem contained_within (contained : Contained identityOf none manager)
    (free : blocked identityOf discovered.fingerprint manager.history = false)
    (notLimit : answers.load.isOk = true → ∀ reason, result ≠ .error (.resourceLimit reason)) :
    Contained identityOf none after ∧ ∀ fingerprint, blocked identityOf fingerprint after.history =
      blocked identityOf fingerprint manager.history := by
  have within : exceeds = false := by
    cases exceeds with
    | false => rfl
    | true =>
      obtain ⟨loaded, reason, limited⟩ := prepared.limited rfl
      exact absurd limited (notLimit loaded reason)
  subst within
  rw [prepared.state]
  refine ⟨contained.attempt_within _ entries free, fun fingerprint => ?_⟩
  simp [blocked_attempt]

theorem blocked_after
    (fingerprint : PackageFingerprint) : blocked identityOf fingerprint after.history =
      ((exceeds && fingerprint = discovered.fingerprint) ||
        blocked identityOf fingerprint manager.history) := by
  rw [prepared.state]
  exact blocked_attempt identityOf discovered.fingerprint fingerprint _ entries
    exceeds manager.history

theorem appends
    (enabled : manager.quarantine.isPersistentlyDisabled discovered.fingerprint = false) :
    Appends manager after := by
  refine ⟨_, by rw [prepared.state], fun fingerprint mem => ?_⟩
  have held := entered_mem_attempt mem
  rw [enabled] at held
  cases held

end

end Prepared

end

end Arclain.Plugins
