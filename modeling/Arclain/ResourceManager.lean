import Arclain.ContentCache

namespace Arclain.Cache

/-!
# The resource manager

A resource is put into the memory, the content cache or a fallback file, as its
request or the configuration says.  A get looks into the three in this order and
answers with the first bytes that it finds within its limit.
-/

open FaultyCalls Text Faulty

inductive StorageStrategy where
  | cache
  | disk
  | memory
  | noStore

inductive ResourceType where
  | image
  | metadata
  | binary
  | text
  deriving DecidableEq

/-- `ResourceSource`, without the network. -/
inductive ResourceSource where
  | memory
  | cache
  | disk
  deriving DecidableEq

/-- `ResourceConfig`, as far as puts and gets read it. -/
structure ResourceConfig where
  defaultStrategy : StorageStrategy
  fallbackDir : Option Str
  maxResourceSize : Option Nat

/-- `ResourceRequest`, as far as puts read it. -/
structure ResourceRequest where
  resourceType : ResourceType
  storageOverride : Option StorageStrategy

inductive ImageValidation where
  | valid
  | tooSmall (size : Nat)
  | invalidFormat
  | notAnImage

def asciiBytes (text : String) : Bytes := text.toList.map fun char => char.toNat.toUInt8

def validateImage (data : Bytes) : ImageValidation :=
  if data.length < 100 then .tooSmall data.length
  else if [0xFF, 0xD8, 0xFF].isPrefixOf data ||
    (0x89 :: asciiBytes "PNG\r\n\x1a\n").isPrefixOf data ||
    ((asciiBytes "RIFF").isPrefixOf data && (asciiBytes "WEBP").isPrefixOf (data.drop 8)) ||
    (asciiBytes "GIF87a").isPrefixOf data ||
    (asciiBytes "GIF89a").isPrefixOf data ||
    (asciiBytes "BM").isPrefixOf data then
    .valid
  else if (asciiBytes "<!DOCTYPE").isPrefixOf data || (asciiBytes "<html").isPrefixOf data ||
    (asciiBytes "<HTML").isPrefixOf data then
    .notAnImage
  else .invalidFormat

/-- `ResourceManager`.  Without limits of a cache it has none. -/
structure ResourceManager where
  addressing : Addressing
  cacheLimits : Option CacheLimits
  config : ResourceConfig

/-- What the memory has for an owner and a key; for the host also for the key itself. -/
def Stores.inMemory (stores : Stores) (owner : CacheOwner) (key : Str) : Option Bytes :=
  match stores.memory.lookup (owner.scopedKey key), owner with
  | some data, _ => some data
  | none, .host => stores.memory.lookup key
  | none, .plugin _ => none

def Stores.filePath (stores : Stores) (owner : CacheOwner) (key : Str) : Str :=
  let scopedPath := sanitizeKey (owner.scopedKey key)
  match stores.files.lookup scopedPath, owner with
  | none, .host => sanitizeKey key
  | _, _ => scopedPath

def setFile (path : Str) (content : Bytes) : Program Unit :=
  perform .file fun stores => ((), { stores with files := stores.files.insert path content })

/-- The loop of `write_all`: where it fails, the bytes that are written stay in the file. -/
def writeAll (path : Str) (written : Bytes) : Bytes → Program Unit
  | [] => pure ()
  | byte :: rest => do
    setFile path (written ++ [byte])
    writeAll path (written ++ [byte]) rest

/-- `std::fs::write`: the file is emptied before it is written. -/
def writeFile (path : Str) (data : Bytes) : Program Unit := do
  setFile path []
  writeAll path [] data

namespace ResourceManager

variable (manager : ResourceManager)

def cache : Option ContentCache :=
  manager.cacheLimits.map fun limits => ⟨manager.addressing, limits⟩

def materializationLimit : Nat := manager.config.maxResourceSize.getD (50 * 1024 * 1024)

def refusal (data : Bytes) (request : ResourceRequest) : Option Str :=
  match manager.config.maxResourceSize.filter (· < data.length) with
  | some max =>
    some ("Resource too large: ".toList ++ decimal data.length ++
      " bytes (max: ".toList ++ decimal max ++ ")".toList)
  | none =>
    if request.resourceType = .image then
      match validateImage data with
      | .valid => none
      | .tooSmall size => some ("Image too small: ".toList ++ decimal size ++ " bytes".toList)
      | .invalidFormat => some "Invalid image format".toList
      | .notAnImage => some "Data is not an image (received HTML/text instead)".toList
    else none

/-- Where a request is stored: a cache that is disabled is replaced by the
fallback files. -/
def target (request : ResourceRequest) : Option ResourceSource :=
  match request.storageOverride.getD manager.config.defaultStrategy with
  | .cache => some (if manager.cacheLimits.isSome then .cache else .disk)
  | .disk => some .disk
  | .memory => some .memory
  | .noStore => none

def storeToDiskForOwner (owner : CacheOwner) (key : Str) (data : Bytes) : Program Unit :=
  match manager.config.fallbackDir with
  | none => refuse "No fallback directory configured"
  | some _ => do
    perform .file fun stores => ((), stores)
    writeFile (sanitizeKey (owner.scopedKey key)) data

def putForOwner (owner : CacheOwner) (key : Str) (data : Bytes) (request : ResourceRequest)
    (now : Nat) : Program Unit :=
  match manager.refusal data request with
  | some message => .throw (.refused message)
  | none =>
    match manager.target request with
    | some .cache =>
      match manager.cache with
      | some cache => do
        let _ ← cache.putForOwner owner key data now
        pure ()
      | none => pure ()
    | some .disk => manager.storeToDiskForOwner owner key data
    | some .memory =>
      update fun stores =>
        ((), { stores with
          memory := stores.memory.insert (owner.scopedKey key) data })
    | none => pure ()

section

variable (owner : CacheOwner) (key : Str)

/-- What the cache answers; a failure counts as nothing found. -/
def getCached (limit now : Nat) : Program (Option Bytes) :=
  match manager.cache with
  | none => pure none
  | some cache => do
    match ← attempt (cache.getWithLimitForOwner owner key limit now) with
    | .ok found => pure found
    | .error _ => pure none

def getFile (limit : Nat) : Program (Option Bytes) :=
  match manager.config.fallbackDir with
  | none => pure none
  | some _ => do
    let path ← inspect fun stores => stores.filePath owner key
    let declaredOversize ← inspect fun stores =>
      (stores.files.lookup path).any fun data => decide (limit < data.length)
    if declaredOversize then pure none
    else
      match ← attempt (perform .file fun stores => (stores.files.lookup path, stores)) with
      | .ok found => pure found
      | .error _ => pure none

/-- `get_with_limit_for_owner`, behind the memory. -/
def getStored (limit now : Nat) : Program (Option (Bytes × ResourceSource)) := do
  match ← manager.getCached owner key limit now with
  | some data => pure (some (data, .cache))
  | none =>
    let found ← manager.getFile owner key limit
    pure (found.map fun data => (data, .disk))

def getWithLimitForOwner (limit now : Nat) : Program (Option (Bytes × ResourceSource)) := do
  let limit := min limit manager.materializationLimit
  match ← inspect fun stores => stores.inMemory owner key with
  | some data =>
    if data.length ≤ limit then pure (some (data, .memory))
    else manager.getStored owner key limit now
  | none => manager.getStored owner key limit now

end

def deleteFromDisk (key : Str) : Program Unit := do
  update fun stores => ((), { stores with memory := stores.memory.erase key })
  match manager.config.fallbackDir with
  | none => pure ()
  | some _ =>
    let _ ← attempt (perform .file fun stores =>
      ((), { stores with files := stores.files.erase (sanitizeKey key) }))
    pure ()

/-- A manager over the same stores with an empty memory and a self-maintaining cache. -/
def restart (now : Nat) : Program Unit := do
  update fun stores => ((), { stores with memory := ∅ })
  match manager.cache with
  | none => pure ()
  | some cache =>
    let _ ← cache.scanReservations now
    reconcilePhysicalBlobs cache.addressing

end ResourceManager

section

/-- How a call has ended: with success, refused, or in a failed access. -/
inductive CallEnding where
  | succeeded
  | refused
  | broken
  deriving DecidableEq

structure Put where
  owner : CacheOwner
  key : Str
  data : Bytes
  target : Option ResourceSource
  ending : CallEnding

/-- The stores and the puts so far, the last one first. -/
structure System where
  stores : Stores
  puts : List Put

def System.initial : System where
  stores := .empty
  puts := []

/-- One call, with the fates of its accesses, its time and the free space it
finds. -/
inductive Action where
  | put (owner : CacheOwner) (key : Str) (data : Bytes)
      (request : ResourceRequest) (now : Nat) (freeSpace : List Nat)
      (fates : Fates CacheCall)
  | get (owner : CacheOwner) (key : Str) (limit now : Nat) (fates : Fates CacheCall)
  | remove (owner : CacheOwner) (key : Str) (fates : Fates CacheCall)
  | deleteFromDisk (key : Str) (fates : Fates CacheCall)
  | restart (now : Nat) (fates : Fates CacheCall)

/-- The stores after a program, and how it has ended.  The process does not end
within a call. -/
def finish {Value : Type} (program : Program Value) (stores : Stores)
    (fates : Fates CacheCall) : Option (Stores × CallEnding) :=
  match program stores fates with
  | .returned _ after _ => some (after, .succeeded)
  | .failed .io after _ => some (after, .broken)
  | .failed (.refused _) after _ => some (after, .refused)
  | .crashed _ => none

variable (manager : ResourceManager)

def step (system : System) : Action → Option System
  | .put owner key data request now freeSpace fates =>
    (finish (manager.putForOwner owner key data request now)
      { system.stores with freeSpace := freeSpace } fates).map
      fun (stores, ending) =>
        { stores := stores
          puts :=
            { owner := owner
              key := key
              data := data
              target := manager.target request
              ending := ending } :: system.puts }
  | .get owner key limit now fates =>
    (finish (manager.getWithLimitForOwner owner key limit now) system.stores fates).map
      fun (stores, _) => { system with stores := stores }
  | .remove owner key fates =>
    match manager.cache with
    | none => none
    | some cache =>
      (finish (cache.removeForOwner owner key) system.stores fates).map
        fun (stores, _) => { system with stores := stores }
  | .deleteFromDisk key fates =>
    (finish (manager.deleteFromDisk key) system.stores fates).map
      fun (stores, _) => { system with stores := stores }
  | .restart now fates =>
    (finish (manager.restart now) system.stores fates).map
      fun (stores, _) => { system with stores := stores }

end

end Arclain.Cache
