import Arclain.FaultyCalls
import Arclain.KeyedMap
import Arclain.TextFormat

namespace Arclain.NetworkProxy

/-!
# Saving the network proxy settings

`NetworkProxyPersistenceService::save` puts the new password and a marker into the vault,
then writes the configuration, and last removes the marker.  `recover_pending` decides by
both whether the update is finished or taken back.
-/

open FaultyCalls Text TextFormat

/-- `UserConfig`: the one row of its table. -/
structure UserConfig where
  id : Int
  vaultPath : Option Str
  cacheDirectory : Option Str
  tempDir : Option Str
  sevenzipPath : Option Str
  transferDir : Option Str
  backendMode : Str
  openNestedInNewTab : Bool
  enabledPlugins : Option Str
  pluginOrder : Option Str
  pluginVisibility : Option Str
  pluginSettings : Option Str
  toolbarOrder : Option Str
  infoPanelOrder : Option Str
  socks5Address : Option Str
  socks5Enabled : Bool
  socks5Username : Option Str
  pluginProxySettings : Option Str
  hotkeyBindings : Option Str
  gametaServerEnabled : Bool
  gametaServerUrl : Option Str
  dropBehavior : Option Str
  restoreTabsOnLaunch : Bool
  deriving DecidableEq

namespace UserConfig

def new : UserConfig where
  id := 1
  vaultPath := none
  cacheDirectory := none
  tempDir := none
  sevenzipPath := none
  transferDir := none
  backendMode := "native".toList
  openNestedInNewTab := false
  enabledPlugins := none
  pluginOrder := none
  pluginVisibility := none
  pluginSettings := none
  toolbarOrder := none
  infoPanelOrder := none
  socks5Address := none
  socks5Enabled := false
  socks5Username := none
  pluginProxySettings := none
  hotkeyBindings := none
  gametaServerEnabled := false
  gametaServerUrl := none
  dropBehavior := none
  restoreTabsOnLaunch := true

/-- The row that `save_diesel` writes: the key of the single row is always 1. -/
def row (config : UserConfig) : UserConfig := { config with id := 1 }

end UserConfig

structure ProxySettingsSnapshot where
  enabled : Bool
  address : Option Str
  username : Option Str
  deriving DecidableEq

def ProxySettingsSnapshot.from (config : UserConfig) : ProxySettingsSnapshot where
  enabled := config.socks5Enabled
  address := config.socks5Address
  username := config.socks5Username

structure PendingProxyUpdate where
  version : UInt8
  previous : ProxySettingsSnapshot
  candidate : ProxySettingsSnapshot
  previousPassword : Option Str

structure MarkerCodec where
  encode : PendingProxyUpdate → Str
  decode : Str → Option PendingProxyUpdate

def MarkerCodec.RoundTrips (codec : MarkerCodec) : Prop :=
  ∀ marker, codec.decode (codec.encode marker) = some marker

/-- The text of a snapshot, as its derived `Serialize` writes it. -/
def snapshotFormat : TextFormat.Format ProxySettingsSnapshot :=
  ((TextFormat.bool.after "\x7b\"enabled\":".toList).seq
    ((optionalString.after ",\"address\":".toList).seq
      ((optionalString.after ",\"username\":".toList).followedBy "\x7d".toList))).convert
    (fun (enabled, address, username) => ⟨enabled, address, username⟩)
    (fun snapshot => (snapshot.enabled, snapshot.address, snapshot.username))
    (fun _ => rfl)

/-- The text of a marker, as its derived `Serialize` writes it. -/
def markerFormat : TextFormat.Format PendingProxyUpdate :=
  ((byteAndComma.after "\x7b\"version\":".toList).seq
    ((snapshotFormat.after "\"previous\":".toList).seq
      ((snapshotFormat.after ",\"candidate\":".toList).seq ((optionalString.after
        ",\"previous_password\":".toList).followedBy "\x7d".toList)))).convert
    (fun (version, previous, candidate, password) => ⟨version, previous, candidate, password⟩)
    (fun marker => (marker.version, marker.previous, marker.candidate, marker.previousPassword))
    (fun _ => rfl)

/-- The codec of that text.  It reads the text in the form in which it is
written, the only one that the service stores. -/
def MarkerCodec.json : MarkerCodec where
  encode := markerFormat.write
  decode := markerFormat.readAll

theorem MarkerCodec.json_roundTrips : MarkerCodec.json.RoundTrips :=
  markerFormat.readAll_write

def proxyPasswordKey : Str := "proxy:socks5".toList

def pendingProxyUpdateKey : Str := "journal:proxy-settings".toList

def proxyUpdateMarkerVersion : UInt8 := 1

inductive ProxySaveOutcome where
  | committed
  | committedPendingFinalize

inductive ProxyRecoveryOutcome where
  | noPendingUpdate
  | rolledBack
  | finalized

/-- An error of a store, of the marker's encoding, or one raised here, or one with a context. -/
inductive ProxyError where
  | store
  | json
  | message (text : String)
  | context (text : String) (cause : ProxyError)
  deriving DecidableEq

/-- The calls that the service makes to the two stores. -/
inductive StoreCall where
  | loadUserConfig
  | saveUserConfig
  | readSecret
  | applySecretMutations
  deriving DecidableEq

/-- The two stores: the row of the user configuration, if there is one, and the
named secrets. -/
structure Stores where
  userConfig : Option UserConfig
  secrets : KeyedMap Str Str

/-- A computation over the two stores. -/
abbrev Service (Value : Type) := Faulty StoreCall Stores ProxyError Value

inductive SecretMutation where
  | set (key value : Str)
  | remove (key : Str)

namespace SecretMutation

def key : SecretMutation → Str
  | .set key _ | .remove key => key

def apply (secrets : KeyedMap Str Str) : SecretMutation → KeyedMap Str Str
  | .set key value => secrets.insert key value
  | .remove key => secrets.erase key

/-- The keys that `apply_secret_mutations` accepts: none empty, none twice. -/
def validate : List Str → List SecretMutation → Except ProxyError Unit
  | _, [] => .ok ()
  | seen, mutation :: rest =>
    if mutation.key = [] then .error (.message "secret mutation key must not be empty")
    else if mutation.key ∈ seen then .error (.message "duplicate secret mutation key")
    else validate (mutation.key :: seen) rest

end SecretMutation

def Stores.mutate (stores : Stores) (mutations : List SecretMutation) : Stores :=
  { stores with
    secrets := mutations.foldl SecretMutation.apply stores.secrets }

/-- `.context(..)`. -/
def context {Value : Type} (text : String) (program : Service Value) : Service Value :=
  program.mapError (.context text)

/-- `load_user_config`: a missing row is created with its defaults. -/
def loadUserConfig : Service UserConfig :=
  .call .loadUserConfig .store fun stores =>
    match stores.userConfig with
    | some row => (row, stores)
    | none => (.new, { stores with userConfig := some .new })

def saveUserConfig (config : UserConfig) : Service Unit :=
  .call .saveUserConfig .store fun stores => ((), { stores with userConfig := some config.row })

def readSecret (key : Str) : Service (Option Str) :=
  .call .readSecret .store fun stores => (stores.secrets.lookup key, stores)

/-- `apply_secret_mutations`: one transaction. -/
def applySecretMutations (mutations : List SecretMutation) : Service Unit :=
  match SecretMutation.validate [] mutations with
  | .error error => .throw error
  | .ok () => .call .applySecretMutations .store fun stores => ((), stores.mutate mutations)

/-- The mutation that gives the proxy password a value or removes it. -/
def passwordMutation : Option Str → SecretMutation
  | some value => .set proxyPasswordKey value
  | none => .remove proxyPasswordKey

def rollback (marker : PendingProxyUpdate) : Service Unit :=
  applySecretMutations [passwordMutation marker.previousPassword, .remove pendingProxyUpdateKey]

def finalize : Service Unit := applySecretMutations [.remove pendingProxyUpdateKey]

def finishCommit : Service ProxySaveOutcome := do
  match ← finalize.attempt with
  | .error _ => return .committedPendingFinalize
  | .ok () => return .committed

def recoverPending (codec : MarkerCodec) : Service ProxyRecoveryOutcome := do
  match ← context "reading pending proxy update marker" (readSecret pendingProxyUpdateKey) with
  | none => return .noPendingUpdate
  | some markerJson =>
    match codec.decode markerJson with
    | none => .throw (.context "parsing pending proxy update marker" .json)
    | some marker =>
      if marker.version ≠ proxyUpdateMarkerVersion then
        .throw (.message "unsupported pending proxy update marker version")
      else
        let persisted ← context "loading proxy settings during recovery" loadUserConfig
        if ProxySettingsSnapshot.from persisted = marker.candidate then
          context "finalizing pending proxy settings update" finalize
          return .finalized
        else if ProxySettingsSnapshot.from persisted = marker.previous then
          context "rolling back pending proxy settings update" (rollback marker)
          return .rolledBack
        else .throw (.message "pending proxy update does not match persisted proxy settings")

/-- What `save` does when the configuration could not be written. -/
def reconcile (marker : PendingProxyUpdate)
    (configError : ProxyError) : Service ProxySaveOutcome := do
  match ← loadUserConfig.attempt with
  | .ok persisted =>
    if ProxySettingsSnapshot.from persisted = marker.candidate then finishCommit
    else if ProxySettingsSnapshot.from persisted = marker.previous then
      match ← (rollback marker).attempt with
      | .error _ =>
        .throw (.message
          "proxy settings were not saved; encrypted rollback remains pending recovery")
      | .ok () => .throw (.context "saving proxy settings" configError)
    else .throw (.message "proxy settings save outcome is uncertain; recovery remains pending")
  | .error _ =>
    .throw (.message "proxy settings save outcome is uncertain; recovery remains pending")

/-- The part of `save` after the marker is in the vault. -/
def commit (marker : PendingProxyUpdate) (candidate : UserConfig) : Service ProxySaveOutcome := do
  match ← (saveUserConfig candidate).attempt with
  | .error configError => reconcile marker configError
  | .ok () => finishCommit

def updateMarker (previous : UserConfig) (previousPassword : Option Str)
    (candidate : UserConfig) : PendingProxyUpdate where
  version := proxyUpdateMarkerVersion
  previous := .from previous
  candidate := .from candidate
  previousPassword := previousPassword

def save (codec : MarkerCodec) (candidate : UserConfig)
    (password : Option Str) : Service ProxySaveOutcome := do
  let _ ← context "recovering an earlier proxy settings update" (recoverPending codec)
  let previous ← context "loading previous proxy settings" loadUserConfig
  let previousPassword ← context "loading previous proxy password" (readSecret proxyPasswordKey)
  let marker := updateMarker previous previousPassword candidate
  context "preparing proxy settings update" (applySecretMutations [passwordMutation password,
    .set pendingProxyUpdateKey (codec.encode marker)])
  commit marker candidate

end Arclain.NetworkProxy
