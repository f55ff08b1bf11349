import Arclain.Locking
import Arclain.PluginManager

namespace Arclain.Plugins

/-!
# The locks of the plugin manager

Guest executions, host effects and the calls that enable, disable and read settings, run
concurrently on one manager.  A phase is the place between two steps of a call, and the
guards held there are its locks.  The loaded plugins stay the same.
-/

open Locking Function

/-- The locks that are held from one step to another. -/
inductive ManagerLock where
  | registry
  | enabledMap
  | stateTransition
  | settingsCache
  | instanceOf (plugin : PluginIdentityKey)
  deriving DecidableEq

/-- `ExecutionAdmissionState`. -/
structure Admission where
  enabled : Bool
  inFlight : Nat

/-- The admission of each plugin, the enabled map, the dirty flags of the settings, and the
plugins the ledger has noted. -/
structure SharedState where
  admission : PluginIdentityKey → Admission
  enabledPlugins : PluginIdentityKey → Bool
  settingsDirty : PluginIdentityKey → Bool
  runtimeViolation : PluginIdentityKey → Bool

namespace SharedState

section

variable (shared : SharedState) (plugin : PluginIdentityKey)

def setAdmission (enabled : Bool) : SharedState :=
  { shared with
    admission :=
      update shared.admission plugin { shared.admission plugin with enabled := enabled } }

/-- `ExecutionAdmission::admit`, once the plugin is found enabled. -/
def takePermit : SharedState :=
  { shared with
    admission :=
      update shared.admission plugin
        { shared.admission plugin with
          inFlight := (shared.admission plugin).inFlight + 1 } }

/-- The destructor of `ExecutionPermit`. -/
def release : SharedState :=
  { shared with
    admission :=
      update shared.admission plugin
        { shared.admission plugin with
          inFlight := (shared.admission plugin).inFlight - 1 } }

/-- Insert into `enabled_plugins`. -/
def setEnabled (enabled : Bool) : SharedState :=
  { shared with
    enabledPlugins := update shared.enabledPlugins plugin enabled }

/-- Store into `settings_dirty`. -/
def setDirty (dirty : Bool) : SharedState :=
  { shared with
    settingsDirty := update shared.settingsDirty plugin dirty }

def noteViolation : SharedState :=
  { shared with
    runtimeViolation := update shared.runtimeViolation plugin true }

end

end SharedState

/-- `with_current_instance`. -/
inductive ExecutionPhase where
  | starting
  | waitingInstance
  | admitting
  | running
  | returning
  | limited
  | disabling
  | checkingCurrent
  | waitingEnabledMap
  | writingEnabledMap
  | recording
  | releasing
  deriving DecidableEq

/-- A host effect that `admit_host_effect_for_instance` admits; it looks at the instance and
may execute its plugin. -/
inductive EffectPhase where
  | starting
  | admitting
  | working
  | waitingInstance
  | readingInstance
  deriving DecidableEq

/-- `enable_plugin`. -/
inductive EnablePhase where
  | starting
  | lookingUp
  | enabling
  | waitingEnabledMap
  | writingEnabledMap
  | invalidating
  deriving DecidableEq

/-- `disable_plugin`. -/
inductive DisablePhase where
  | starting
  | lookingUp
  | waitingEnabledMap
  | writingEnabledMap
  | closing
  | waitingIdle
  | invalidating
  deriving DecidableEq

/-- `get_all_settings`, with the plugins it has still to visit. -/
inductive AllSettingsPhase where
  | starting (order : List PluginIdentityKey)
  | waitingCache (order : List PluginIdentityKey)
  | scanning (remaining : List PluginIdentityKey)
  | waitingInstance (plugin : PluginIdentityKey) (remaining : List PluginIdentityKey)
  | copying (plugin : PluginIdentityKey) (remaining : List PluginIdentityKey)
  deriving DecidableEq

/-- `get_settings_for`. -/
inductive SettingsForPhase where
  | starting
  | probing
  | waitingInstance
  | waitingCache
  | storing
  | waitingCached
  | readingCached
  deriving DecidableEq

def ExecutionPhase.isAdmitted : ExecutionPhase → Bool
  | .starting | .waitingInstance | .admitting => false
  | _ => true

def EffectPhase.isAdmitted : EffectPhase → Bool
  | .starting | .admitting => false
  | _ => true

/-- A call and where it is. An execution nested in a host effect holds its permit too. -/
inductive ManagerCall where
  | execution (plugin : PluginIdentityKey) (nested : Bool) (phase : ExecutionPhase)
  | effect (plugin : PluginIdentityKey) (phase : EffectPhase)
  | enable (plugin : PluginIdentityKey) (phase : EnablePhase)
  | disable (plugin : PluginIdentityKey) (phase : DisablePhase)
  | allSettings (phase : AllSettingsPhase)
  | settingsFor (plugin : PluginIdentityKey) (phase : SettingsForPhase)
  | returned
  deriving DecidableEq

namespace ManagerCall

def held : ManagerCall → List (ManagerLock × Mode)
  | .execution plugin _ phase =>
    match phase with
    | .starting => []
    | .waitingInstance => [(.registry, .shared)]
    | .admitting | .running => [(.registry, .shared), (.instanceOf plugin, .exclusive)]
    | .returning => [(.registry, .shared)]
    | .limited => []
    | .disabling | .checkingCurrent | .waitingEnabledMap => [(.stateTransition, .exclusive)]
    | .writingEnabledMap => [(.stateTransition, .exclusive), (.enabledMap, .exclusive)]
    | .recording => [(.stateTransition, .exclusive)]
    | .releasing => []
  | .effect plugin phase =>
    match phase with
    | .starting => []
    | .admitting => [(.registry, .shared)]
    | .working | .waitingInstance => []
    | .readingInstance => [(.instanceOf plugin, .exclusive)]
  | .enable _ phase =>
    match phase with
    | .starting => []
    | .lookingUp => [(.stateTransition, .exclusive)]
    | .enabling | .waitingEnabledMap => [(.stateTransition, .exclusive), (.registry, .shared)]
    | .writingEnabledMap =>
      [(.stateTransition, .exclusive), (.registry, .shared), (.enabledMap, .exclusive)]
    | .invalidating => [(.stateTransition, .exclusive)]
  | .disable _ phase =>
    match phase with
    | .starting => []
    | .lookingUp => [(.stateTransition, .exclusive)]
    | .waitingEnabledMap => [(.stateTransition, .exclusive), (.registry, .shared)]
    | .writingEnabledMap =>
      [(.stateTransition, .exclusive), (.registry, .shared), (.enabledMap, .exclusive)]
    | .closing | .waitingIdle | .invalidating => [(.stateTransition, .exclusive)]
  | .allSettings phase =>
    match phase with
    | .starting _ => []
    | .waitingCache _ => [(.registry, .shared)]
    | .scanning _ | .waitingInstance _ _ => [(.registry, .shared), (.settingsCache, .exclusive)]
    | .copying plugin _ =>
      [(.registry, .shared), (.settingsCache, .exclusive), (.instanceOf plugin, .exclusive)]
  | .settingsFor plugin phase =>
    match phase with
    | .starting => []
    | .probing | .waitingInstance => [(.registry, .shared)]
    | .waitingCache => [(.registry, .shared), (.instanceOf plugin, .exclusive)]
    | .storing =>
      [(.registry, .shared), (.instanceOf plugin, .exclusive), (.settingsCache, .exclusive)]
    | .waitingCached => [(.registry, .shared)]
    | .readingCached => [(.registry, .shared), (.settingsCache, .exclusive)]
  | .returned => []

def wanted : ManagerCall → Option (ManagerLock × Mode)
  | .execution _ _ .starting => some (.registry, .shared)
  | .execution plugin _ .waitingInstance => some (.instanceOf plugin, .exclusive)
  | .execution _ _ .limited => some (.stateTransition, .exclusive)
  | .execution _ _ .checkingCurrent => some (.registry, .shared)
  | .execution _ _ .waitingEnabledMap => some (.enabledMap, .exclusive)
  | .effect _ .starting => some (.registry, .shared)
  | .effect plugin .waitingInstance => some (.instanceOf plugin, .exclusive)
  | .enable _ .starting => some (.stateTransition, .exclusive)
  | .enable _ .lookingUp => some (.registry, .shared)
  | .enable _ .waitingEnabledMap => some (.enabledMap, .exclusive)
  | .disable _ .starting => some (.stateTransition, .exclusive)
  | .disable _ .lookingUp => some (.registry, .shared)
  | .disable _ .waitingEnabledMap => some (.enabledMap, .exclusive)
  | .allSettings (.starting _) => some (.registry, .shared)
  | .allSettings (.waitingCache _) => some (.settingsCache, .exclusive)
  | .allSettings (.waitingInstance plugin _) => some (.instanceOf plugin, .exclusive)
  | .settingsFor _ .starting => some (.registry, .shared)
  | .settingsFor plugin .waitingInstance => some (.instanceOf plugin, .exclusive)
  | .settingsFor _ .waitingCache => some (.settingsCache, .exclusive)
  | .settingsFor _ .waitingCached => some (.settingsCache, .exclusive)
  | _ => none

/-- Where an execution goes on when it is over: back to its host effect. -/
def afterExecution (plugin : PluginIdentityKey) : Bool → ManagerCall
  | true => .effect plugin .working
  | false => .returned

section

variable (loaded : List PluginIdentityKey) (shared : SharedState) (plugin : PluginIdentityKey)

/-- The steps of `with_current_instance`. The guest may write settings while it runs. -/
def executionMoves (nested : Bool) : ExecutionPhase → List (SharedState × ManagerCall)
  | .starting =>
    -- The caller may expect an instance of an earlier generation.
    (if plugin ∈ loaded then [(shared, .execution plugin nested .waitingInstance)] else []) ++
      [(shared, afterExecution plugin nested)]
  | .waitingInstance => [(shared, .execution plugin nested .admitting)]
  | .admitting =>
    if (shared.admission plugin).enabled then
      [(shared.takePermit plugin, .execution plugin nested .running)]
    else [(shared, afterExecution plugin nested)]
  | .running =>
    [(shared.setDirty plugin true, .execution plugin nested .running),
      (shared, .execution plugin nested .returning), (shared, .execution plugin nested .limited)]
  | .returning => [(shared.release plugin, afterExecution plugin nested)]
  | .limited => [(shared, .execution plugin nested .disabling)]
  | .disabling => [(shared.setAdmission plugin false, .execution plugin nested .checkingCurrent)]
  | .checkingCurrent => [(shared, .execution plugin nested .waitingEnabledMap)]
  | .waitingEnabledMap => [(shared, .execution plugin nested .writingEnabledMap)]
  | .writingEnabledMap => [(shared.setEnabled plugin false, .execution plugin nested .recording)]
  | .recording =>
    -- The ledger may refuse the violation or fail to write it.
    [(shared.noteViolation plugin, .execution plugin nested .releasing),
      (shared, .execution plugin nested .releasing)]
  | .releasing => [(shared.release plugin, afterExecution plugin nested)]

def effectMoves : EffectPhase → List (SharedState × ManagerCall)
  | .starting =>
    (if plugin ∈ loaded then [(shared, .effect plugin .admitting)] else []) ++ [(shared, .returned)]
  | .admitting =>
    if (shared.admission plugin).enabled then [(shared.takePermit plugin, .effect plugin .working)]
    else [(shared, .returned)]
  | .working =>
    [(shared, .effect plugin .waitingInstance), (shared, .execution plugin true .starting),
      (shared.release plugin, .returned)]
  | .waitingInstance => [(shared, .effect plugin .readingInstance)]
  | .readingInstance => [(shared, .effect plugin .working)]

/-- The steps of `enable_plugin`. -/
def enableMoves : EnablePhase → List (SharedState × ManagerCall)
  | .starting => [(shared, .enable plugin .lookingUp)]
  | .lookingUp =>
    if plugin ∈ loaded ∧ shared.runtimeViolation plugin = false then
      [(shared, .enable plugin .enabling)]
    else [(shared, .returned)]
  | .enabling => [(shared.setAdmission plugin true, .enable plugin .waitingEnabledMap)]
  | .waitingEnabledMap => [(shared, .enable plugin .writingEnabledMap)]
  | .writingEnabledMap => [(shared.setEnabled plugin true, .enable plugin .invalidating)]
  | .invalidating => [(shared, .returned)]

/-- The steps of `disable_plugin`, which waits until no permit is left. -/
def disableMoves : DisablePhase → List (SharedState × ManagerCall)
  | .starting => [(shared, .disable plugin .lookingUp)]
  | .lookingUp =>
    if plugin ∈ loaded then [(shared, .disable plugin .waitingEnabledMap)]
    else [(shared, .returned)]
  | .waitingEnabledMap => [(shared, .disable plugin .writingEnabledMap)]
  | .writingEnabledMap => [(shared.setEnabled plugin false, .disable plugin .closing)]
  | .closing => [(shared.setAdmission plugin false, .disable plugin .waitingIdle)]
  | .waitingIdle =>
    if (shared.admission plugin).inFlight = 0 then [(shared, .disable plugin .invalidating)]
    else []
  | .invalidating => [(shared, .returned)]

end

/-- The steps of `get_all_settings`. -/
def allSettingsMoves (shared : SharedState) : AllSettingsPhase → List (SharedState × ManagerCall)
  | .starting order => [(shared, .allSettings (.waitingCache order))]
  | .waitingCache order => [(shared, .allSettings (.scanning order))]
  | .scanning [] => [(shared, .returned)]
  | .scanning (plugin :: remaining) =>
    if shared.settingsDirty plugin then
      [(shared.setDirty plugin false, .allSettings (.waitingInstance plugin remaining))]
    else [(shared, .allSettings (.scanning remaining))]
  | .waitingInstance plugin remaining => [(shared, .allSettings (.copying plugin remaining))]
  | .copying _ remaining => [(shared, .allSettings (.scanning remaining))]

/-- The steps of `get_settings_for`. -/
def settingsForMoves (loaded : List PluginIdentityKey) (shared : SharedState)
    (plugin : PluginIdentityKey) : SettingsForPhase → List (SharedState × ManagerCall)
  | .starting =>
    if plugin ∈ loaded then [(shared, .settingsFor plugin .probing)]
    else [(shared, .returned)]
  | .probing =>
    if shared.settingsDirty plugin then
      [(shared.setDirty plugin false, .settingsFor plugin .waitingInstance)]
    else [(shared, .settingsFor plugin .waitingCached)]
  | .waitingInstance => [(shared, .settingsFor plugin .waitingCache)]
  | .waitingCache => [(shared, .settingsFor plugin .storing)]
  | .storing => [(shared, .returned)]
  | .waitingCached => [(shared, .settingsFor plugin .readingCached)]
  | .readingCached => [(shared, .returned)]

def moves (loaded : List PluginIdentityKey)
    (shared : SharedState) : ManagerCall → List (SharedState × ManagerCall)
  | .execution plugin nested phase => executionMoves loaded shared plugin nested phase
  | .effect plugin phase => effectMoves loaded shared plugin phase
  | .enable plugin phase => enableMoves loaded shared plugin phase
  | .disable plugin phase => disableMoves loaded shared plugin phase
  | .allSettings phase => allSettingsMoves shared phase
  | .settingsFor plugin phase => settingsForMoves loaded shared plugin phase
  | .returned => []

/-- A call as it is made; `get_all_settings` visits the loaded plugins in any
order. -/
def starts (loaded : List PluginIdentityKey) : ManagerCall → Bool
  | .execution _ false .starting | .effect _ .starting | .enable _ .starting => true
  | .disable _ .starting => true
  | .allSettings (.starting order) => order.isPerm loaded
  | .settingsFor _ .starting => true
  | _ => false

def permits : ManagerCall → List PluginIdentityKey
  | .execution plugin nested phase =>
    (if nested then [plugin] else []) ++ (if phase.isAdmitted then [plugin] else [])
  | .effect plugin phase => if phase.isAdmitted then [plugin] else []
  | _ => []

end ManagerCall

def managerProtocol (loaded : List PluginIdentityKey) :
    Protocol ManagerCall ManagerLock SharedState where
  starts := ManagerCall.starts loaded
  hasReturned call := call = .returned
  held := ManagerCall.held
  wanted := ManagerCall.wanted
  moves := ManagerCall.moves loaded

end Arclain.Plugins
