import Arclain.FaultyCalls
import Arclain.NamedFiles
import Arclain.VaultStore

namespace Arclain.Vault

/-!
# Moving and rekeying the vault

`SecretsService::move_vault` and `SecretsService::rekey_vault`, and the operations around
them.  Every call to the file system and to a database may fail, with or without its effect,
and copying a file is two calls.
-/

open FaultyCalls NamedFiles Text

variable {Key Sealed : Type}

inductive File (Key Sealed : Type) where
  | empty
  | vault (tables : Tables Sealed)
  | key (key : Key)
  | config (rows : KeyedMap Str Str)
  | cache
  | other

structure DbPaths where
  configDb : Str
  cacheDb : Str
  secretsDb : Str
  keyFile : Option Str

/-- A handle of an open vault.  Its clones share the slot, which closes for all of
them. -/
structure SecretsDb (Key : Type) where
  slot : Nat
  file : Nat
  key : Key

/-- The part of the application's state that the operations work on. -/
structure Session (Key : Type) where
  dbPaths : Option DbPaths
  dbs : Option (SecretsDb Key)
  passRules : List PassRule
  revision : Nat

structure App (Key Sealed : Type) where
  disk : Disk Str (File Key Sealed)
  session : Session Key
  closed : List Nat
  nextSlot : Nat
  drawn : Nat

inductive VaultCall where
  | tokioHandle
  | join
  | createDirAll
  | copyOpen
  | copyWrite
  | setPermissions
  | removeFile
  | readKey
  | openConfig
  | setConfig
  | openPool
  | openCache
  | removeCache
  | reopenCache
  | openSecrets
  | openMetadata
  | listPassRules
  | replaceAllPassRules
  deriving DecidableEq

/-- An error: one of a call, or one raised by the service. -/
inductive VaultError where
  | call (call : VaultCall)
  | message (text : String)
  | context (text : String) (cause : VaultError)

/-- A computation over the disk and the application. -/
abbrev Program (Key Sealed : Type) (Value : Type) :=
  Faulty VaultCall (App Key Sealed) VaultError Value

/-- A call to the file system or to a database.  Without a value it fails in any
case. -/
def onDisk {Value : Type} (label : VaultCall) (effect :
    Disk Str (File Key Sealed) → Option Value × Disk Str (File Key Sealed)) :
    Program Key Sealed Value := do
  match ← (.call label (.call label) fun app =>
    ((effect app.disk).1, { app with disk := (effect app.disk).2 }) :
      Program Key Sealed (Option Value)) with
  | some value => return value
  | none => .throw (.call label)

def attemptOnly (label : VaultCall) : Program Key Sealed Unit :=
  onDisk label fun disk => (some (), disk)

/-- `fs::copy`. -/
def copyFile (source target : Str) : Program Key Sealed Unit := do
  let (read, written) ← onDisk .copyOpen fun disk =>
    match disk.names source with
    | none => (none, disk)
    | some file =>
      let emptied := disk.store target .empty
      ((emptied.names target).map fun opened => (file, opened), emptied)
  onDisk .copyWrite fun disk => (some (), disk.write written (disk.files read))

/-- `fs::remove_file`. -/
def removeFile (label : VaultCall) (path : Str) : Program Key Sealed Unit :=
  onDisk label fun disk =>
    match disk.names path with
    | none => (none, disk)
    | some _ => (some (), disk.unlink path)

def loadFromFile (path : Str) : Program Key Sealed Key :=
  onDisk .readKey fun disk =>
    match disk.contentAt path with
    | some (.key key) => (some key, disk)
    | _ => (none, disk)

/-- `ConfigDb::open`: a missing database is created. -/
def openConfig (path : Str) : Program Key Sealed Unit :=
  onDisk .openConfig fun disk =>
    match disk.contentAt path with
    | some (.config _) => (some (), disk)
    | some .empty | none => (some (), disk.store path (.config ∅))
    | _ => (none, disk)

def setConfig (path key value : Str) : Program Key Sealed Unit :=
  onDisk .setConfig fun disk =>
    match disk.contentAt path with
    | some (.config rows) => (some (), disk.store path (.config (rows.insert key value)))
    | _ => (none, disk)

/-- `SqliteDb::open` on the cache database. -/
def openCacheFile (label : VaultCall) (path : Str) : Program Key Sealed Unit :=
  onDisk label fun disk =>
    match disk.contentAt path with
    | some .cache => (some (), disk)
    | some .empty | none => (some (), disk.store path .cache)
    | _ => (none, disk)

def pathExists (path : Str) : Program Key Sealed Bool :=
  fun app fates => .returned (app.disk.names path).isSome app fates

/-- `CacheDb::open`: a database that cannot be opened is removed and created
anew. -/
def openCache (path : Str) : Program Key Sealed Unit := do
  match ← (openCacheFile .openCache path).attempt with
  | .ok () => return ()
  | .error _ =>
    if ← pathExists path then removeFile .removeCache path
    openCacheFile .reopenCache path

/-- `SecretsDb::open`: a missing vault is created. -/
def openSecrets (path : Str) (key : Key) : Program Key Sealed (SecretsDb Key) := do
  let file ← onDisk .openSecrets fun disk =>
    match disk.contentAt path with
    | some (.vault _) => (disk.names path, disk)
    | some .empty | none =>
      let created := disk.store path (.vault .blank)
      (created.names path, created)
    | _ => (none, disk)
  fun app fates =>
    .returned ⟨app.nextSlot, file, key⟩ { app with nextSlot := app.nextSlot + 1 } fates

def openDatabases (paths : DbPaths) (key : Key) : Program Key Sealed (SecretsDb Key) := do
  openConfig paths.configDb
  attemptOnly .openPool
  openCache paths.cacheDb
  attemptOnly .openPool
  let secrets ← openSecrets paths.secretsDb key
  attemptOnly .openMetadata
  return secrets

/-- `list_pass_rules` on a handle. -/
def listPassRules (cipher : Cipher Key Sealed) (secrets : SecretsDb Key) :
    Program Key Sealed (List PassRule) :=
  onDisk .listPassRules fun disk =>
    match disk.files secrets.file with
    | .vault tables => (tables.listPassRules cipher secrets.key, disk)
    | _ => (none, disk)

/-- `replace_all_pass_rules` on a handle. -/
def replaceAllPassRules (cipher : Cipher Key Sealed) (secrets : SecretsDb Key)
    (rules : List PassRule) : Program Key Sealed Unit := do
  let drawn ← (fun app fates =>
    .returned app.drawn { app with drawn := app.drawn + rules.length } fates :
      Program Key Sealed Nat)
  onDisk .replaceAllPassRules fun disk =>
    match disk.files secrets.file with
    | .vault tables =>
      (some (), disk.write secrets.file
        (.vault (tables.replaceAllPassRules cipher secrets.key drawn rules)))
    | _ => (none, disk)

/-- A path has a parent: it names something below a root. -/
def hasParent (path : Str) : Bool := path.any fun char => char ≠ '/'

def createParent (path : Str) : Program Key Sealed Unit :=
  if hasParent path then attemptOnly .createDirAll else return ()

/-- `Path::with_extension`. -/
def withExtension (path extension : Str) : Str :=
  let (folder, name) :=
    match rsplitOnce '/' path with
    | some (folder, name) => (folder ++ ['/'], name)
    | none => ([], path)
  if name = [] ∨ name = ['.', '.'] then path
  else
    match rsplitOnce '.' name with
    | some (stem, _) => folder ++ (if stem = [] then name else stem) ++ ['.'] ++ extension
    | none => folder ++ name ++ ['.'] ++ extension

def secretsDbPathKey : Str := "secrets_db_path".toList

def keyFilePathKey : Str := "key_file_path".toList

def moveVault (defaults : DbPaths) (dbPaths : Option DbPaths)
    (destination : Str) : Program Key Sealed (DbPaths × SecretsDb Key) := do
  let paths := dbPaths.getD defaults
  createParent destination
  copyFile paths.secretsDb destination
  attemptOnly .setPermissions
  openConfig paths.configDb
  setConfig paths.configDb secretsDbPathKey destination
  let paths := { paths with secretsDb := destination }
  match paths.keyFile with
  | none => .throw (.message "No key file available for re-opening")
  | some keyPath =>
    let key ← loadFromFile keyPath
    let dbs ← openDatabases paths key
    return (paths, dbs)

/-- The part of `rekey_vault` that reads: the new key and the rules of the old
vault. -/
def readOldVault (cipher : Cipher Key Sealed) (secretsDb oldKeyPath newKeyFile : Str) :
    Program Key Sealed (Key × List PassRule) := do
  let oldKey ← loadFromFile oldKeyPath
  let newKey ← loadFromFile newKeyFile
  let oldDb ← openSecrets secretsDb oldKey
  let rules ← listPassRules cipher oldDb
  return (newKey, rules)

def rekeyVault (cipher : Cipher Key Sealed) (defaults : DbPaths) (dbPaths : Option DbPaths)
    (newKeyFile : Str) :
    Program Key Sealed (DbPaths × SecretsDb Key × List PassRule) := do
  let paths := dbPaths.getD defaults
  match paths.keyFile with
  | none => .throw (.message "No current key file configured")
  | some oldKeyPath =>
    let (newKey, rules) ← readOldVault cipher paths.secretsDb oldKeyPath newKeyFile
    copyFile paths.secretsDb (withExtension paths.secretsDb "redb.backup".toList)
    removeFile .removeFile paths.secretsDb
    let newDbs ← openDatabases paths newKey
    replaceAllPassRules cipher newDbs rules
    openConfig paths.configDb
    setConfig paths.configDb keyFilePathKey newKeyFile
    return ({ paths with keyFile := some newKeyFile }, newDbs, rules)

def closeVaultHandle : Program Key Sealed Unit :=
  fun app fates =>
    match app.session.dbs with
    | none => .returned () app fates
    | some secrets =>
      .returned ()
        { app with
          session := { app.session with dbs := none }
          closed := secrets.slot :: app.closed } fates

def adopt (paths : DbPaths) (secrets : SecretsDb Key)
    (rules : List PassRule) : Program Key Sealed Unit :=
  fun app fates =>
    .returned ()
      { app with
        session :=
          { dbPaths := some paths
            dbs := some secrets
            passRules := rules
            revision := app.session.revision + 1 } } fates

/-- `session.mutable.db_paths`. -/
def currentDbPaths : Program Key Sealed (Option DbPaths) :=
  fun app fates => .returned app.session.dbPaths app fates

def runMoveVault (cipher : Cipher Key Sealed) (defaults : DbPaths)
    (destination : Str) : Program Key Sealed Unit := do
  let dbPaths ← currentDbPaths
  closeVaultHandle
  attemptOnly .tokioHandle
  let (paths, secrets) ← (moveVault defaults dbPaths destination).mapError
      (.context "moving the vault")
  attemptOnly .join
  let rules ← listPassRules cipher secrets
  adopt paths secrets rules

def runRekeyVault (cipher : Cipher Key Sealed) (defaults : DbPaths)
    (keyFile : Str) : Program Key Sealed Unit := do
  let dbPaths ← currentDbPaths
  closeVaultHandle
  attemptOnly .tokioHandle
  let (paths, secrets, rules) ← (rekeyVault cipher defaults dbPaths keyFile).mapError
      (.context "rekeying the vault")
  attemptOnly .join
  adopt paths secrets rules

end Arclain.Vault
