import Arclain.ActionRun
import Arclain.SettingLimits

namespace Arclain.PluginSettings

/-!
# Plugin settings and the snapshots of them

Guests write their settings under the lock of their instance and then raise a dirty flag.
`get_all_settings` and `get_settings_for` lower the flag and read the instance if it was up,
and answer from the cache otherwise.

Each lock and each access to a flag is a step.  The maps of a plugin are numbered.
-/

open ActionRun

abbrev Settings := Plugins.SettingsMap

/-- `ValidatedPluginSettings`: settings that passed `validate_plugin_settings`. -/
structure ValidatedPluginSettings where
  values : Settings
  validated : ∃ settings, Plugins.validatePluginSettings settings = .ok values

variable {Id : Type} [DecidableEq Id]

/-- A loaded plugin: the maps its settings went through, its flag, the holder of its
instance, and the last returned write. -/
structure Plugin where
  history : Nat → Settings
  version : Nat
  dirty : Bool
  holder : Option Nat
  returned : Nat

namespace Plugin

def settings (plugin : Plugin) : Settings := plugin.history plugin.version

def write (plugin : Plugin) (settings : Settings) : Plugin :=
  { plugin with
    history := Function.update plugin.history (plugin.version + 1) settings
    version := plugin.version + 1 }

def initial (settings : Settings) : Plugin where
  history := fun _ => settings
  version := 0
  dirty := true
  holder := none
  returned := 0

end Plugin

inductive Phase (Id : Type) where
  /-- A guest runs under the lock of its instance. -/
  | guest (plugin : Id)
  /-- `set_setting` has changed the map and has yet to raise the flag. -/
  | marking (plugin : Id) (version : Nat)
  /-- `get_settings_for` before it lowers the flag. -/
  | probing (since : Nat) (plugin : Id)
  /-- `get_settings_for` has lowered a raised flag and waits for the instance. -/
  | fetching (since : Nat) (plugin : Id)
  /-- `get_settings_for` holds the instance and waits for the cache. -/
  | storing (since : Nat) (plugin : Id) (settings : Settings)
  /-- `get_settings_for` found the flag down and waits for the cache. -/
  | recalling (since : Nat) (plugin : Id)
  /-- `get_settings_for` has returned. -/
  | reported (since : Nat) (plugin : Id) (settings : Option Settings)
  /-- `get_all_settings` waits for the cache. -/
  | awaiting (since : Id → Nat)
  /-- `get_all_settings` holds the cache and has these plugins to go through. -/
  | walking (since : Id → Nat) (rest : List Id)
  /-- `get_all_settings` has lowered a raised flag and waits for the instance. -/
  | walkFetching (since : Id → Nat) (plugin : Id) (rest : List Id)
  /-- `get_all_settings` has returned. -/
  | reportedAll (since : Id → Nat) (settings : KeyedMap Id Settings)
  /-- `replace_plugin_settings` waits for the instance. -/
  | replacing (plugin : Id) (settings : Settings)
  /-- `replace_plugin_settings` has changed the instance, not yet the cache. -/
  | recaching (plugin : Id) (settings : Settings) (version : Nat)

namespace Phase

def isOver : Phase Id → Bool
  | .reported _ _ _ | .reportedAll _ _ => true
  | _ => false

def isReading : Phase Id → Bool
  | .probing _ _ | .fetching _ _ | .storing _ _ _ | .recalling _ _ | .awaiting _ => true
  | .walking _ _ | .walkFetching _ _ _ => true
  | _ => false

/-- The call borrows the manager exclusively. -/
def isReplacing : Phase Id → Bool
  | .replacing _ _ | .recaching _ _ _ => true
  | _ => false

end Phase

/-- The manager, its plugins and the threads that work with them. -/
structure System (Id : Type) where
  plugins : Id → Plugin
  settingsCache : KeyedMap Id Settings
  cacheHolder : Option Nat
  initialSettings : KeyedMap Id Settings
  threads : KeyedMap Nat (Phase Id)

inductive Action (Id : Type) where
  | enterGuest (thread : Nat) (plugin : Id)
  | setSetting (thread : Nat) (key value : String)
  | getSettingsFor (thread : Nat) (plugin : Id)
  | getAllSettings (thread : Nat)
  | replacePluginSettings (thread : Nat) (plugin : Id) (settings : ValidatedPluginSettings)
  | advance (thread : Nat)

namespace System

/-- A manager whose plugins were just loaded. -/
def initial (live : Id → Settings) (initialSettings : KeyedMap Id Settings) : System Id where
  plugins := fun id => .initial (live id)
  settingsCache := ∅
  cacheHolder := none
  initialSettings := initialSettings
  threads := ∅

section

variable (system : System Id)

def isFree (thread : Nat) : Bool :=
  (system.threads.lookup thread).elim true Phase.isOver

/-- Nobody has borrowed the manager in this way. -/
def noneIs (kind : Phase Id → Bool) : Bool :=
  system.threads.entries.all fun entry => !kind entry.2

def enter (thread : Nat) (phase : Phase Id) : System Id :=
  { system with threads := system.threads.insert thread phase }

def leave (thread : Nat) : System Id :=
  { system with threads := system.threads.erase thread }

def change (id : Id) (plugin : Plugin) : System Id :=
  { system with plugins := Function.update system.plugins id plugin }

def cache (id : Id) (settings : Settings) : System Id :=
  { system with settingsCache := system.settingsCache.insert id settings }

end

/-- The start of `get_settings_for`.  A plugin that is not loaded has its initial
settings only. -/
def startGet (loaded : List Id) (system : System Id) (thread : Nat) (id : Id) : System Id :=
  if id ∈ loaded then system.enter thread (.probing (system.plugins id).returned id)
  else
    system.enter thread (.reported (system.plugins id).returned id
      (system.initialSettings.lookup id))

/-- The swap of `get_settings_for`. -/
def probe (system : System Id) (thread since : Nat) (id : Id) : System Id :=
  let plugin := system.plugins id
  (system.change id { plugin with dirty := false }).enter thread
    (if plugin.dirty then .fetching since id else .recalling since id)

/-- What `get_settings_for` answers from the cache. -/
def recalled (system : System Id) (id : Id) : Option Settings :=
  (system.settingsCache.lookup id).or (system.initialSettings.lookup id)

def retained (loaded : List Id) (system : System Id) : KeyedMap Id Settings where
  entries := system.settingsCache.entries.filter fun entry => entry.1 ∈ loaded
  nodupKeys := system.settingsCache.nodupKeys.sublist List.filter_sublist

/-- The next step of a thread in a phase, if it need not wait. -/
def advance (loaded : List Id) (system : System Id) (thread : Nat) : Phase Id → Option (System Id)
  | .guest id => some ((system.change id { system.plugins id with holder := none }).leave thread)
  | .marking id version =>
    let plugin := system.plugins id
    some ((system.change id
      { plugin with
        dirty := true
        returned := max plugin.returned version }).enter thread (.guest id))
  | .probing since id => some (system.probe thread since id)
  | .fetching since id =>
    let plugin := system.plugins id
    if plugin.holder = none then
      some ((system.change id { plugin with holder := some thread }).enter thread
        (.storing since id plugin.settings))
    else none
  | .storing since id settings =>
    if system.cacheHolder = none then
      some (((system.cache id settings).change id
        { system.plugins id with holder := none }).enter thread
          (.reported since id (some settings)))
    else none
  | .recalling since id =>
    if system.cacheHolder = none then
      some (system.enter thread (.reported since id (system.recalled id)))
    else none
  | .awaiting since =>
    if system.cacheHolder = none then
      some ({ system with cacheHolder := some thread }.enter thread (.walking since loaded))
    else none
  | .walking since (id :: rest) =>
    let plugin := system.plugins id
    some ((system.change id { plugin with dirty := false }).enter thread
      (if plugin.dirty then .walkFetching since id rest else .walking since rest))
  | .walking since [] =>
    let retained := system.retained loaded
    some ({ system with
      settingsCache := retained
      cacheHolder := none }.enter thread (.reportedAll since (retained ∪ system.initialSettings)))
  | .walkFetching since id rest =>
    let plugin := system.plugins id
    if plugin.holder = none then
      some ((system.cache id plugin.settings).enter thread (.walking since rest))
    else none
  | .replacing id settings =>
    let plugin := system.plugins id
    if plugin.holder = none then
      some ((system.change id
        { plugin.write settings with dirty := false }).enter thread
          (.recaching id settings (plugin.version + 1)))
    else none
  | .recaching id settings version =>
    let plugin := system.plugins id
    if system.cacheHolder = none then
      some ({ (system.cache id settings).change id
        { plugin with returned := max plugin.returned version } with
        initialSettings := system.initialSettings.insert id settings }.leave thread)
    else none
  | .reported _ _ _ | .reportedAll _ _ => none

def step (loaded : List Id) (system : System Id) : Action Id → Option (System Id)
  | .enterGuest thread id =>
    let plugin := system.plugins id
    if system.isFree thread ∧ id ∈ loaded ∧ plugin.holder = none then
      some ((system.change id { plugin with holder := some thread }).enter thread (.guest id))
    else none
  | .setSetting thread key value =>
    match system.threads.lookup thread with
    | some (.guest id) =>
      let plugin := system.plugins id
      let (inserted, settings) := Plugins.insertBoundedSetting plugin.settings key value
      if inserted then
        some ((system.change id (plugin.write settings)).enter thread
          (.marking id (plugin.version + 1)))
      else some system
    | _ => none
  | .getSettingsFor thread id =>
    if system.isFree thread ∧ system.noneIs Phase.isReplacing then
      some (system.startGet loaded thread id)
    else none
  | .getAllSettings thread =>
    if system.isFree thread ∧ system.noneIs Phase.isReplacing then
      some (system.enter thread (.awaiting fun id => (system.plugins id).returned))
    else none
  | .replacePluginSettings thread id settings =>
    if system.isFree thread ∧ system.noneIs Phase.isReplacing ∧ system.noneIs Phase.isReading then
      if id ∈ loaded then some (system.enter thread (.replacing id settings.values))
      else some system
    else none
  | .advance thread => (system.threads.lookup thread).bind (system.advance loaded thread)

end System

end Arclain.PluginSettings
