import Arclain.CommitAdmissions

namespace Arclain.Cache

/-!
# Listings that are read in pages

The index is listed a page at a time, by the offset in the order of last use.  The calls
that change rows or blobs hold the root lock; a read updates the last use of its row at any
time, also between two pages.

A call is made of listings, whose pages are steps, and of parts that touch no last use but
that of the row they write.
-/

open FaultyCalls Text Faulty

def indexPageSize : Nat := 1024

/-- `list_entries_lru_page`. -/
def entriesLruPage (offset limit : Nat) : Program (List CacheEntry) :=
  perform .index fun stores => ((stores.entriesLru.drop offset).take limit, stores)

/-- `get_all_content_hashes`. -/
def contentHashes : Program (List Str) :=
  perform .index fun stores =>
    ((stores.rows.entries.map fun entry => entry.2.contentHash).dedup, stores)

/-- `LIKE`: a star stands for any text, and ASCII letters are the same in both cases. -/
def likeMatches : Str → Str → Bool
  | [], key => key.isEmpty
  | '*' :: pattern, key => key.tails.any (likeMatches pattern)
  | _ :: _, [] => false
  | first :: pattern, char :: key => first.toLower = char.toLower && likeMatches pattern key

/-- `delete_by_pattern` of the index. -/
def deleteByPattern (pattern : Str) : Program Nat :=
  perform .index fun stores =>
    ((stores.rows.keys.filter (likeMatches pattern)).length,
      { stores with
        rows := stores.rows.retainKeys fun key => !likeMatches pattern key })

/-- A commit that is prepared, and the registry of pending commits. -/
structure IncomingCommit where
  pending : List PendingCommit
  owner : CacheOwner
  scopedKey : Str
  bytes : Nat

namespace ContentCache

variable (cache : ContentCache)

/-- `ensure_global_capacity`, once the reconciled entries are listed. -/
def evictListed (entries : List CacheEntry) (reservedBytes : Nat) : Program Unit := do
  let groups ← inspect fun stores => stores.physicalGroupsLru cache.addressing entries
  let committedBytes := saturatingSum (groups.map PhysicalBlob.sizeBytes)
  if ← cache.globalCapacityFits committedBytes reservedBytes then pure ()
  else cache.evictForCapacity reservedBytes groups committedBytes

/-- The checks at the beginning of `prepare_commit`. -/
def refusesCommit (commit : IncomingCommit) : Bool :=
  cache.limits.maxObjectBytes < commit.bytes || cache.limits.maxOwnerCommittedBytes < commit.bytes

/-- `prepare_commit`, once the entries are listed. -/
def makeOwnerRoom (entries : List CacheEntry) (commit : IncomingCommit) : Program Unit :=
  cache.makeRoomWithin (entries.filter fun entry =>
    entry.key ≠ commit.scopedKey ∧ entryOwner entry.key = commit.owner)
    (withinCommitted (commit.pending.filter fun other =>
      other.owner = commit.owner ∧ other.scopedKey ≠ commit.scopedKey)
      commit.bytes (incomingObjects entries commit.scopedKey)
      cache.limits.maxOwnerCommittedBytes
      cache.limits.maxOwnerCommittedObjects)
    "cache owner committed byte or object quota exceeded"

/-- `ensure_global_committed_capacity`, once the entries are listed. -/
def makeGlobalRoom (entries : List CacheEntry) (commit : IncomingCommit) : Program Unit :=
  cache.makeRoomWithin (entries.filter fun entry => entry.key ≠ commit.scopedKey) (withinCommitted
    (commit.pending.filter fun other => other.scopedKey ≠ commit.scopedKey)
    commit.bytes (incomingObjects entries commit.scopedKey)
    cache.limits.maxGlobalBytes cache.limits.maxGlobalCommittedObjects)
    "cache global committed byte or object quota exceeded"

theorem reclaimCapacity_eq (reservedBytes : Nat) : cache.reclaimCapacity reservedBytes = (do
  let entries ← loadEntriesLru
  reconcileListed cache.addressing entries
  let entries ← loadEntriesLru
  cache.evictListed entries reservedBytes) := by
  have reconciles : reconcilePhysicalBlobs cache.addressing =
      loadEntriesLru >>= reconcileListed cache.addressing :=
    rfl
  unfold reclaimCapacity loadGroups
  rw [reconciles, bind_assoc]
  refine congrArg _ (funext fun entries => congrArg _ (funext fun _ => ?_))
  rw [bind_assoc]
  refine congrArg _ (funext fun listed => ?_)
  rw [bind_assoc]
  rfl

theorem prepareCommitBeside_eq (commit : IncomingCommit) :
    cache.prepareCommitBeside commit.pending commit.owner commit.scopedKey commit.bytes =
      if cache.limits.maxObjectBytes < commit.bytes then refuse "cache per-object quota exceeded"
      else if cache.limits.maxOwnerCommittedBytes < commit.bytes then
        refuse "cache owner committed quota exceeded"
      else
        (do
          let entries ← loadEntriesLru
          cache.makeOwnerRoom entries commit
          let listed ← loadEntriesLru
          cache.makeGlobalRoom listed commit
          pure (incomingObjects entries commit.scopedKey)) := by
  unfold prepareCommitBeside
  split
  · rfl
  · split
    · rfl
    · refine congrArg _ (funext fun entries => ?_)
      dsimp only
      refine congrArg _ (funext fun _ => ?_)
      unfold ensureGlobalCommitted
      rw [bind_assoc]
      rfl

/-- `upsert_sri_for_owner_unlocked`. -/
def upsertSriUnlocked (scopedKey : Str) (data : Bytes) (now : Nat) :
    Program (Except CacheError Unit) :=
  if 2 ^ 63 ≤ data.length then
    pure (.error (.refused "cache byte count does not fit SQLite".toList))
  else upsertWithRetry scopedKey (cache.addressing.address data) data.length now 3

/-- The row of a blob written under the root lock. A streamed write discards the blob if the
row cannot be stored. -/
def publish (scopedKey : Str) (data : Bytes) (isStreamed : Bool) (now : Nat) : Program Unit := do
  match ← cache.upsertSriUnlocked scopedKey data now with
  | .ok () => pure ()
  | .error error =>
    if isStreamed then
      let _ ← attempt (discardBlobIfUnreferenced cache.addressing
          (cache.addressing.address data))
      .throw error
    else .throw error

def removeByPatternForOwner (owner : CacheOwner) (pattern : Str) : Program Nat := do
  let candidateHashes ← contentHashes
  let removed ← deleteByPattern (owner.scopedKey pattern)
  let unscoped ← onlyIf (owner = .host) (deleteByPattern pattern) 0
  forEach (discardBlobIfUnreferenced cache.addressing) candidateHashes
  pure (saturatingAdd removed unscoped)

end ContentCache

inductive ListingUse where
  | reconciling (total : Option Nat)
  | reclaiming (total : Nat)
  | makingOwnerRoom (commit : IncomingCommit)
  | makingGlobalRoom (commit : IncomingCommit)

/-- What the holder of the root lock does next. -/
inductive LockedTask where
  | maintaining (nowSecs : Nat)
  | listing (entries : List CacheEntry) (use : ListingUse)
  | listed (entries : List CacheEntry) (use : ListingUse)
  | writing (scopedKey : Str) (data : Bytes) (isStreamed : Bool)
  | publishing (scopedKey : Str) (data : Bytes) (isStreamed : Bool)
  | discarding (contentHash : Str)
  | removing (owner : CacheOwner) (key : Str)
  | removingByPattern (owner : CacheOwner) (pattern : Str)

inductive LockRequest where
  | maintain (nowSecs : Nat)
  | reserve (total : Nat)
  | prepareCommit (commit : IncomingCommit)
  | put (scopedKey : Str) (data : Bytes)
  | commitStreaming (scopedKey : Str) (data : Bytes)
  | discard (contentHash : Str)
  | remove (owner : CacheOwner) (key : Str)
  | removeByPattern (owner : CacheOwner) (pattern : Str)

/-- The first task of a request, unless it is refused at once. -/
def LockRequest.task (cache : ContentCache) : LockRequest → Option LockedTask
  | .maintain nowSecs => some (.maintaining nowSecs)
  | .reserve total => some (.listing [] (.reconciling (some total)))
  | .prepareCommit commit =>
    if cache.refusesCommit commit then none
    else some (.listing [] (.makingOwnerRoom commit))
  | .put scopedKey data =>
    if 2 ^ 63 ≤ data.length then none
    else some (.writing scopedKey data false)
  | .commitStreaming scopedKey data => some (.writing scopedKey data true)
  | .discard contentHash => some (.discarding contentHash)
  | .remove owner key => some (.removing owner key)
  | .removeByPattern owner pattern => some (.removingByPattern owner pattern)

/-- The stores, the holder of the root lock, and the addresses of all blobs that have been
on disk. -/
structure SharedCache where
  stores : Stores
  holder : Option LockedTask
  onDisk : List Str

namespace SharedCache

def initial (stores : Stores) : SharedCache where
  stores := stores
  holder := none
  onDisk := stores.blobs.keys

def after (system : SharedCache) (holder : Option LockedTask) (stores : Stores) : SharedCache where
  stores := stores
  holder := holder
  onDisk := system.onDisk ++ stores.blobs.keys

/-- The holder goes on once its program has returned; otherwise the lock is
released. -/
def conclude {Value : Type} (system : SharedCache) (fates : Fates CacheCall)
    (program : Program Value) (next : Value → Option LockedTask) : SharedCache :=
  match program system.stores fates with
  | .returned value stores _ => system.after (next value) stores
  | .failed _ stores _ | .crashed stores => system.after none stores

/-- The next step of the holder of the root lock. -/
def proceed (cache : ContentCache) (system : SharedCache) (task : LockedTask) (now : Nat)
    (fates : Fates CacheCall) : SharedCache :=
  match task with
  | .maintaining nowSecs =>
    system.conclude fates (cache.scanReservations nowSecs) fun _ =>
      some (.listing [] (.reconciling none))
  | .listing entries use =>
    system.conclude fates (entriesLruPage entries.length indexPageSize) fun page =>
      if page.length < indexPageSize then some (.listed (entries ++ page) use)
      else some (.listing (entries ++ page) use)
  | .listed entries use =>
    match use with
    | .reconciling total =>
      system.conclude fates (reconcileListed cache.addressing entries)
        fun _ => total.map fun total => .listing [] (.reclaiming total)
    | .reclaiming total => system.conclude fates (cache.evictListed entries total) fun _ => none
    | .makingOwnerRoom commit =>
      system.conclude fates (cache.makeOwnerRoom entries commit) fun _ =>
        some (.listing [] (.makingGlobalRoom commit))
    | .makingGlobalRoom commit =>
      system.conclude fates (cache.makeGlobalRoom entries commit) fun _ => none
  | .writing scopedKey data isStreamed =>
    system.conclude fates (writeHash cache.addressing data) fun _ =>
      some (.publishing scopedKey data isStreamed)
  | .publishing scopedKey data isStreamed =>
    system.conclude fates (cache.publish scopedKey data isStreamed now) fun _ => none
  | .discarding contentHash =>
    system.conclude fates (discardBlobIfUnreferenced cache.addressing contentHash) fun _ => none
  | .removing owner key => system.conclude fates (cache.removeForOwner owner key) fun _ => none
  | .removingByPattern owner pattern =>
    system.conclude fates (cache.removeByPatternForOwner owner pattern) fun _ => none

/-- Reads update last uses, the lock is taken, and its holder goes on. -/
inductive Action where
  | touch (key : Str) (now : Nat) (fates : Fates CacheCall)
  | lock (request : LockRequest)
  | proceed (now : Nat) (fates : Fates CacheCall)

def step (cache : ContentCache) (system : SharedCache) : Action → Option SharedCache
  | .touch key now fates =>
    some { system with
      stores := (updateLastAccessed key now system.stores fates).state }
  | .lock request =>
    match system.holder with
    | some _ => none
    | none => some { system with holder := request.task cache }
  | .proceed now fates => system.holder.map fun task => system.proceed cache task now fates

end SharedCache

end Arclain.Cache
