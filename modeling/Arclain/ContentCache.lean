import Arclain.CacheKeys
import Arclain.FaultyCalls
import Arclain.KeyedMap

namespace Arclain.Cache

/-!
# The content cache and its quotas

An index row names the address of a blob, and every row of a blob counts against the
quotas.  A write first reserves its bytes, then makes room among the committed entries, the
least recently used first, and then stores its blob and its row.

Calls run one after the other, and every access may fail.
-/

open FaultyCalls Text Faulty

abbrev Bytes := List UInt8

/-- Content addressing: the address of bytes, and which texts are addresses. -/
structure Addressing where
  address : Bytes → Str
  isIntegrity : Str → Bool

/-- `CacheLimits`, without the limits of the write queue and of downloads. -/
structure CacheLimits where
  maxObjectBytes : Nat
  maxOwnerPartialBytes : Nat
  maxOwnerPartialObjects : Nat
  maxOwnerCommittedBytes : Nat
  maxOwnerCommittedObjects : Nat
  maxGlobalBytes : Nat
  maxGlobalPartialObjects : Nat
  maxGlobalCommittedObjects : Nat
  minFreeSpaceBytes : Nat
  partialTtlSecs : Nat

/-- A row of the index. `usedAt` is the time of its last access or of its creation. -/
structure Row where
  id : Nat
  contentHash : Str
  sizeBytes : Option Int
  usedAt : Nat

structure CacheEntry where
  key : Str
  contentHash : Str
  sizeBytes : Option Int

structure ReservationRecord where
  owner : CacheOwner
  scopedKey : Str
  reservedBytes : Nat
  updatedAtSecs : Nat

/-- Everything that resources are stored in.  `freeSpace` are the coming answers
of the file system about its free space. -/
structure Stores where
  memory : KeyedMap Str Bytes
  rows : KeyedMap Str Row
  blobs : KeyedMap Str Bytes
  reservations : KeyedMap Nat ReservationRecord
  nextReservation : Nat
  files : KeyedMap Str Bytes
  freeSpace : List Nat

def Stores.empty : Stores where
  memory := ∅
  rows := ∅
  blobs := ∅
  reservations := ∅
  nextReservation := 0
  files := ∅
  freeSpace := []

inductive CacheCall where
  | index
  | content
  | reservation
  | probe
  | file
  deriving DecidableEq

/-- Why an operation fails: a call has failed, or the cache refuses. -/
inductive CacheError where
  | io
  | refused (message : Str)
  deriving DecidableEq

/-- A computation over the stores. -/
abbrev Program := Faulty CacheCall Stores CacheError

def perform {Value : Type} (call : CacheCall) (effect : Stores → Value × Stores) : Program Value :=
  Faulty.call call .io effect

theorem perform_allWork {Value : Type} (call : CacheCall) (effect : Stores → Value × Stores)
    (stores : Stores) : perform call effect stores .allWork =
      .returned (effect stores).1 (effect stores).2 .allWork := by
  unfold perform
  rw [Faulty.run_call_of_works (Fates.next_allWork call), Fates.spend_allWork]

def refuse {Value : Type} (message : String) : Program Value := .throw (.refused message.toList)

/-- `u64::saturating_add`; on 64-bit targets also that of `usize`. -/
def saturatingAdd (first second : Nat) : Nat := min (first + second) (2 ^ 64 - 1)

def saturatingSum (numbers : List Nat) : Nat := numbers.foldl saturatingAdd 0

/-- The id of the next row: `id` is the `INTEGER PRIMARY KEY`. -/
def Stores.nextRowId (stores : Stores) : Nat :=
  (stores.rows.entries.map fun entry => entry.2.id).foldl max 0 + 1

def upsert (key contentHash : Str) (sizeBytes : Option Int) (now : Nat) : Program Unit :=
  perform .index fun stores =>
    let id :=
      match stores.rows.lookup key with
      | some row => row.id
      | none => stores.nextRowId
    ((), { stores with
      rows := stores.rows.insert key
        { id := id
          contentHash := contentHash
          sizeBytes := sizeBytes
          usedAt := now } })

/-- `get` of the index. -/
def getRow (key : Str) : Program (Option Row) :=
  perform .index fun stores => (stores.rows.lookup key, stores)

/-- `has` of the index. -/
def hasRow (key : Str) : Program Bool :=
  perform .index fun stores => ((stores.rows.lookup key).isSome, stores)

/-- `delete` of the index. -/
def deleteRow (key : Str) : Program Bool :=
  perform .index fun stores =>
    ((stores.rows.lookup key).isSome, { stores with rows := stores.rows.erase key })

/-- `delete` for each of some keys. -/
def deleteRows (keys : List Str) : Program Unit :=
  forEach (fun key => do
    let _ ← deleteRow key
    pure ())
    keys

def updateLastAccessed (key : Str) (now : Nat) : Program Unit :=
  perform .index fun stores =>
    match stores.rows.lookup key with
    | some row =>
      ((), { stores with
        rows := stores.rows.insert key { row with usedAt := now } })
    | none => ((), stores)

def hasContentHash (contentHash : Str) : Program Bool :=
  perform .index fun stores =>
    (stores.rows.entries.any fun entry => entry.2.contentHash = contentHash, stores)

/-- Rows come by their last use, and then by their id. -/
def notAfter (first second : (_ : Str) × Row) : Bool :=
  first.2.usedAt < second.2.usedAt || (first.2.usedAt = second.2.usedAt && first.2.id ≤ second.2.id)

def Stores.entriesLru (stores : Stores) : List CacheEntry :=
  (stores.rows.entries.insertionSort
    fun first second => notAfter first second = true).map fun entry =>
    { key := entry.1
      contentHash := entry.2.contentHash
      sizeBytes := entry.2.sizeBytes }

def loadEntriesLru : Program (List CacheEntry) :=
  perform .index fun stores => (stores.entriesLru, stores)

structure PhysicalBlob where
  contentHash : Str
  sizeBytes : Nat
  keys : List Str

section

variable (digest : Addressing)

def Stores.blobAt (stores : Stores) (contentHash : Str) : Option Bytes :=
  if digest.isIntegrity contentHash then stores.blobs.lookup contentHash
  else none

def Stores.physicalBlobSize (stores : Stores) (entry : CacheEntry) : Nat :=
  match stores.blobAt digest entry.contentHash with
  | some bytes => bytes.length
  | none => (entry.sizeBytes.map Int.toNat).getD 0

/-- One entry is counted.  A group stands where its last entry stands. -/
def Stores.addToGroups (stores : Stores) (groups : List PhysicalBlob)
    (entry : CacheEntry) : List PhysicalBlob :=
  let size := stores.physicalBlobSize digest entry
  match groups.find? fun group => group.contentHash = entry.contentHash with
  | some group =>
    groups.filter (fun other => other.contentHash ≠ entry.contentHash) ++
      [{ group with
        sizeBytes := max group.sizeBytes size
        keys := group.keys ++ [entry.key] }]
  | none =>
    groups ++
      [{ contentHash := entry.contentHash
         sizeBytes := size
         keys := [entry.key] }]

def Stores.physicalGroupsLru (stores : Stores) (entries : List CacheEntry) : List PhysicalBlob :=
  entries.foldl (stores.addToGroups digest) []

def removePhysicalBlob (contentHash : Str) : Program Unit :=
  if digest.isIntegrity contentHash then
    perform .content fun stores => ((), { stores with blobs := stores.blobs.erase contentHash })
  else pure ()

def discardBlobIfUnreferenced (contentHash : Str) : Program Unit := do
  if ← hasContentHash contentHash then pure ()
  else removePhysicalBlob digest contentHash

/-- `cacache::write_hash_sync`. -/
def writeHash (data : Bytes) : Program Str :=
  perform .content fun stores =>
    (digest.address data,
      { stores with blobs := stores.blobs.insert (digest.address data) data })

/-- The rows whose blob is missing are deleted; what remains is referenced. -/
def reconcileRows : List CacheEntry → List Str → Program (List Str)
  | [], referenced => pure referenced
  | entry :: entries, referenced => do
    let isFile ← inspect fun stores => (stores.blobAt digest entry.contentHash).isSome
    if isFile then reconcileRows entries (entry.contentHash :: referenced)
    else do
      let _ ← deleteRow entry.key
      reconcileRows entries referenced

def reconcilePhysicalBlobs : Program Unit := do
  let entries ← loadEntriesLru
  let referenced ← reconcileRows digest entries []
  let physicalFiles ← perform .content fun stores => (stores.blobs.keys, stores)
  let unindexed := physicalFiles.filter fun path => path ∉ referenced
  forEach (fun path =>
    perform .content fun stores => ((), { stores with blobs := stores.blobs.erase path }))
    unindexed

end

structure ContentCache where
  addressing : Addressing
  limits : CacheLimits

namespace ContentCache

variable (cache : ContentCache)

def validReservationRecord (record : ReservationRecord) (nowSecs : Nat) : Bool :=
  utf8Len record.scopedKey ≤ 4 * 1024 && record.reservedBytes ≤ cache.limits.maxObjectBytes &&
    record.updatedAtSecs ≤ saturatingAdd nowSecs cache.limits.partialTtlSecs &&
    (match record.owner with
      | .plugin id => utf8Len id.1 ≤ 512
      | .host => true) &&
    (parseScopedKey record.scopedKey).map Prod.fst = some record.owner

/-- `scan_reservations`: invalid and stale reservations are discarded. -/
def scanReservations (nowSecs : Nat) : Program (List ((_ : Nat) × ReservationRecord)) :=
  perform .reservation fun stores =>
    let kept :=
      stores.reservations.retain fun record =>
        cache.validReservationRecord record nowSecs &&
          nowSecs - record.updatedAtSecs ≤ cache.limits.partialTtlSecs
    (kept.entries, { stores with reservations := kept })

def globalCapacityFits (committedBytes reservedBytes : Nat) : Program Bool :=
  if cache.limits.maxGlobalBytes < saturatingAdd committedBytes reservedBytes then pure false
  else do
    let availableBytes ← perform .probe fun stores =>
      (stores.freeSpace.headD 0, { stores with freeSpace := stores.freeSpace.tail })
    pure (decide (reservedBytes ≤ availableBytes - cache.limits.minFreeSpaceBytes))

def loadGroups : Program (List PhysicalBlob × Nat) := do
  let entries ← loadEntriesLru
  let groups ← inspect fun stores => stores.physicalGroupsLru cache.addressing entries
  pure (groups, saturatingSum (groups.map PhysicalBlob.sizeBytes))

/-- The loop of `ensure_global_capacity`. -/
def evictForCapacity (reservedBytes : Nat) : List PhysicalBlob → Nat → Program Unit
  | [], committedBytes =>
    if cache.limits.maxGlobalBytes < saturatingAdd committedBytes reservedBytes then
      refuse "cache global quota exceeded"
    else refuse "cache free-space headroom exceeded"
  | group :: groups, committedBytes => do
    deleteRows group.keys
    removePhysicalBlob cache.addressing group.contentHash
    let committedBytes := committedBytes - group.sizeBytes
    if ← cache.globalCapacityFits committedBytes reservedBytes then pure ()
    else evictForCapacity reservedBytes groups committedBytes

def ensureGlobalCapacity (reservedBytes : Nat) : Program Unit := do
  if cache.limits.maxGlobalBytes < reservedBytes then refuse "cache global quota exceeded"
  else
    let (_, committedBytes) ← cache.loadGroups
    if ← cache.globalCapacityFits committedBytes reservedBytes then pure ()
    else
      reconcilePhysicalBlobs cache.addressing
      let (groups, committedBytes) ← cache.loadGroups
      if ← cache.globalCapacityFits committedBytes reservedBytes then pure ()
      else cache.evictForCapacity reservedBytes groups committedBytes

def reserveAt (owner : CacheOwner) (scopedKey : Str)
    (reservationPath targetBytes nowSecs : Nat) : Program Unit := do
  if cache.limits.maxObjectBytes < targetBytes then
    .throw (.refused ("cache per-object quota exceeded (".toList ++
      decimal targetBytes ++ " > ".toList ++
      decimal cache.limits.maxObjectBytes ++ " bytes)".toList))
  else
    let reservations ← cache.scanReservations nowSecs
    let isNew := if reservations.any fun entry => entry.1 = reservationPath then 0 else 1
    let others := reservations.filter fun entry => entry.1 ≠ reservationPath
    let ownOthers := others.filter fun entry => entry.2.owner = owner
    let ownerPartial :=
      saturatingAdd (saturatingSum (ownOthers.map fun entry => entry.2.reservedBytes)) targetBytes
    if cache.limits.maxOwnerPartialObjects < saturatingAdd ownOthers.length isNew then
      refuse "cache owner partial object quota exceeded"
    else if cache.limits.maxGlobalPartialObjects < saturatingAdd others.length isNew then
      refuse "cache global partial object quota exceeded"
    else if cache.limits.maxOwnerPartialBytes < ownerPartial then
      .throw (.refused ("cache owner partial quota exceeded (".toList ++
        decimal ownerPartial ++ " > ".toList ++
        decimal cache.limits.maxOwnerPartialBytes ++ " bytes)".toList))
    else
      cache.ensureGlobalCapacity (saturatingAdd (saturatingSum (others.map fun entry =>
        entry.2.reservedBytes)) targetBytes)
      perform .reservation fun stores =>
        ((), { stores with
          reservations := stores.reservations.insert reservationPath
            { owner := owner
              scopedKey := scopedKey
              reservedBytes := targetBytes
              updatedAtSecs := nowSecs } })

def release (reservationPath : Nat) : Program Unit :=
  perform .reservation fun stores =>
    ((), { stores with
      reservations := stores.reservations.erase reservationPath })

/-- The loops of `prepare_commit` and `ensure_global_committed_capacity`. -/
def evictCommitted (withinLimits : Nat → Nat → Bool) : List PhysicalBlob → Nat → Nat → Program Bool
  | [], _, _ => pure false
  | group :: groups, bytes, objects => do
    deleteRows group.keys
    let bytes := bytes - group.sizeBytes
    let objects := objects - group.keys.length
    discardBlobIfUnreferenced cache.addressing group.contentHash
    if withinLimits bytes objects then pure true
    else evictCommitted withinLimits groups bytes objects

def makeRoom (entries : List CacheEntry) (incomingBytes incomingObjects maxBytes maxObjects : Nat)
    (refusal : String) : Program Unit := do
  let groups ← inspect fun stores => stores.physicalGroupsLru cache.addressing entries
  let bytes := saturatingSum (groups.map PhysicalBlob.sizeBytes)
  let withinLimits := fun bytes objects =>
    decide (saturatingAdd bytes incomingBytes ≤ maxBytes) &&
      decide (saturatingAdd objects incomingObjects ≤ maxObjects)
  if withinLimits bytes entries.length then pure ()
  else if ← cache.evictCommitted withinLimits groups bytes entries.length then pure ()
  else refuse refusal

def incomingObjects (entries : List CacheEntry) (scopedKey : Str) : Nat :=
  if entries.any fun entry => entry.key = scopedKey then 0 else 1

def ensureGlobalCommittedCapacity (scopedKey : Str) (incomingBytes : Nat) : Program Unit := do
  let entries ← loadEntriesLru
  cache.makeRoom (entries.filter fun entry => entry.key ≠ scopedKey) incomingBytes
    (incomingObjects entries scopedKey) cache.limits.maxGlobalBytes
    cache.limits.maxGlobalCommittedObjects
    "cache global committed byte or object quota exceeded"

def prepareCommit (owner : CacheOwner) (scopedKey : Str) (incomingBytes : Nat) : Program Unit := do
  if cache.limits.maxObjectBytes < incomingBytes then refuse "cache per-object quota exceeded"
  else if cache.limits.maxOwnerCommittedBytes < incomingBytes then
    refuse "cache owner committed quota exceeded"
  else
    let entries ← loadEntriesLru
    cache.makeRoom (entries.filter fun entry =>
      entry.key ≠ scopedKey ∧ entryOwner entry.key = owner)
      incomingBytes (incomingObjects entries scopedKey)
      cache.limits.maxOwnerCommittedBytes cache.limits.maxOwnerCommittedObjects
      "cache owner committed byte or object quota exceeded"
    cache.ensureGlobalCommittedCapacity scopedKey incomingBytes

def probeReplacedEntry (scopedKey : Str) : Program (Option Row) := do
  if ← hasRow scopedKey then getRow scopedKey
  else pure none

def upsertWithRetry (scopedKey contentHash : Str)
    (sizeBytes now : Nat) : Nat → Program (Except CacheError Unit)
  | 0 => pure (.error .io)
  | attempts + 1 => do
    match ← attempt (upsert scopedKey contentHash (some sizeBytes) now) with
    | .ok () => pure (.ok ())
    | .error error =>
      if attempts = 0 then pure (.error error)
      else upsertWithRetry scopedKey contentHash sizeBytes now attempts

def publishRow (scopedKey contentHash : Str) (sizeBytes now : Nat) (previousEntry : Option Row)
    (reservationPath : Nat) : Program Str := do
  match ← upsertWithRetry scopedKey contentHash sizeBytes now 3 with
  | .ok () =>
    match previousEntry with
    | some previous =>
      if previous.contentHash ≠ contentHash then
        let _ ← attempt (discardBlobIfUnreferenced cache.addressing previous.contentHash)
      release reservationPath
      pure contentHash
    | none =>
      release reservationPath
      pure contentHash
  | .error error =>
    let _ ← attempt (discardBlobIfUnreferenced cache.addressing contentHash)
    let _ ← attempt (release reservationPath)
    .throw error

def orRelease {Value : Type} (reservationPath : Nat) (program : Program Value) : Program Value := do
  match ← attempt program with
  | .ok value => pure value
  | .error error =>
    let _ ← attempt (release reservationPath)
    .throw error

def putForOwner (owner : CacheOwner) (key : Str) (data : Bytes) (now : Nat) : Program Str := do
  let scopedKey := owner.scopedKey key
  let bytes := data.length
  if 2 ^ 63 ≤ bytes then refuse "cache byte count does not fit SQLite"
  else
    let reservationPath ← update fun stores =>
      (stores.nextReservation, { stores with nextReservation := stores.nextReservation + 1 })
    cache.reserveAt owner scopedKey reservationPath bytes now
    orRelease reservationPath (cache.prepareCommit owner scopedKey bytes)
    let previousEntry ← orRelease reservationPath (probeReplacedEntry scopedKey)
    let contentHash ← orRelease reservationPath (writeHash cache.addressing data)
    cache.publishRow scopedKey contentHash bytes now previousEntry reservationPath

def tooLong {Value : Type} (limit : Nat) : Program Value :=
  .throw (.refused ("cached content exceeds the ".toList ++ decimal limit ++
    "-byte materialized read limit".toList))

def getIndexedWithLimit (indexKey : Str) (limit now : Nat) : Program (Option Bytes) := do
  match ← getRow indexKey with
  | none => pure none
  | some row =>
    if row.sizeBytes.any fun size => decide (0 ≤ size ∧ (limit : Int) < size) then tooLong limit
    else if row.contentHash = [] then pure none
    else if cache.addressing.isIntegrity row.contentHash then
      let found ← perform .content fun stores => (stores.blobs.lookup row.contentHash, stores)
      match found with
      | none => pure none
      | some bytes =>
        if limit < bytes.length then tooLong limit
        else if cache.addressing.address bytes = row.contentHash then
          let _ ← attempt (updateLastAccessed indexKey now)
          pure (some bytes)
        else .throw .io
    else pure none

/-- `get_with_limit_for_owner` of the cache. -/
def getWithLimitForOwner (owner : CacheOwner) (key : Str)
    (limit now : Nat) : Program (Option Bytes) := do
  match ← cache.getIndexedWithLimit (owner.scopedKey key) limit now with
  | some data => pure (some data)
  | none =>
    match owner with
    | .plugin _ => pure none
    | .host =>
      if ← hasRow key then cache.getIndexedWithLimit key limit now
      else pure none

def onlyIf {Value : Type} (test : Bool) (program : Program Value)
    (otherwise : Value) : Program Value :=
  if test then program else pure otherwise

/-- `remove_for_owner`, once it is known whether there is a row of the key
itself. -/
def removeRows (scopedKey key : Str) (legacyRowPresent : Bool) : Program Bool := do
  let scopedEntry ← getRow scopedKey
  let legacyEntry ← onlyIf legacyRowPresent (getRow key) none
  let removed ← deleteRow scopedKey
  let legacyRemoved ← onlyIf legacyRowPresent (deleteRow key) false
  forEach (discardBlobIfUnreferenced cache.addressing)
    ((scopedEntry.toList ++ legacyEntry.toList).map Row.contentHash).dedup
  pure (removed || legacyRemoved)

def removeForOwner (owner : CacheOwner) (key : Str) : Program Bool := do
  match owner with
  | .plugin _ => cache.removeRows (owner.scopedKey key) key false
  | .host =>
    let legacyRowPresent ← hasRow key
    cache.removeRows (owner.scopedKey key) key legacyRowPresent

end ContentCache

end Arclain.Cache
