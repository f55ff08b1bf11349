import Arclain.ActionRun
import Arclain.CacheQuotas

namespace Arclain.Cache

/-!
# Puts that run side by side

A put reserves its bytes, is admitted to the committed entries, and only later writes its
blob and its row.  In between other puts know of it by the registry of pending commits.
-/

open FaultyCalls Text ContentCache Faulty

structure PendingCommit where
  owner : CacheOwner
  scopedKey : Str
  bytes : Nat
  objects : Nat
  deriving DecidableEq

/-- A call of `put_for_owner`, with the path of its reservation. -/
structure OwnerPut where
  owner : CacheOwner
  key : Str
  data : Bytes
  reservationPath : Nat

def OwnerPut.scopedKey (put : OwnerPut) : Str := put.owner.scopedKey put.key

inductive PutStage where
  | reserving
  | reclaiming (total : Nat)
  | recording
  | reserved
  | admitted
  | probed (previous : Option Row)
  | committed (previous : Option Row)
  | failed
  | abandoning
  | releasing

/-- The put has an admission in the registry. -/
def PutStage.isAdmitted : PutStage → Bool
  | .admitted | .probed _ | .failed | .abandoning => true
  | _ => false

def PutStage.holdsQuota : PutStage → Bool
  | .reclaiming _ | .recording => true
  | _ => false

/-- The stores, the puts in progress under their scoped keys, and the registry. -/
structure PutSystem where
  stores : Stores
  puts : KeyedMap Str (OwnerPut × PutStage)
  pending : List PendingCommit

namespace ContentCache

variable (cache : ContentCache)

/-- `reserve_at` up to its first look at the capacity: all reserved bytes, and whether they
fit. -/
def reserveLooks (owner : CacheOwner)
    (reservationPath targetBytes nowSecs : Nat) : Program (Nat × Bool) := do
  if cache.limits.maxObjectBytes < targetBytes then
    .throw (.refused ("cache per-object quota exceeded (".toList ++
      decimal targetBytes ++ " > ".toList ++
      decimal cache.limits.maxObjectBytes ++ " bytes)".toList))
  else
    let reservations ← cache.scanReservations nowSecs
    let isNew := if reservations.any fun entry => entry.1 = reservationPath then 0 else 1
    let others := reservations.filter fun entry => entry.1 ≠ reservationPath
    let ownOthers := others.filter fun entry => entry.2.owner = owner
    let ownerPartial :=
      saturatingAdd (saturatingSum (ownOthers.map fun entry => entry.2.reservedBytes)) targetBytes
    if cache.limits.maxOwnerPartialObjects < saturatingAdd ownOthers.length isNew then
      refuse "cache owner partial object quota exceeded"
    else if cache.limits.maxGlobalPartialObjects < saturatingAdd others.length isNew then
      refuse "cache global partial object quota exceeded"
    else if cache.limits.maxOwnerPartialBytes < ownerPartial then
      .throw (.refused ("cache owner partial quota exceeded (".toList ++
        decimal ownerPartial ++ " > ".toList ++
        decimal cache.limits.maxOwnerPartialBytes ++ " bytes)".toList))
    else
      let total :=
        saturatingAdd (saturatingSum (others.map fun entry => entry.2.reservedBytes)) targetBytes
      if cache.limits.maxGlobalBytes < total then refuse "cache global quota exceeded"
      else
        let (_, committedBytes) ← cache.loadGroups
        let fits ← cache.globalCapacityFits committedBytes total
        pure (total, fits)

/-- The record that `reserve_at` writes at its end. -/
def recordReservation (owner : CacheOwner) (scopedKey : Str)
    (reservationPath targetBytes nowSecs : Nat) : Program Unit :=
  perform .reservation fun stores =>
    ((), { stores with
      reservations := stores.reservations.insert reservationPath
        { owner := owner
          scopedKey := scopedKey
          reservedBytes := targetBytes
          updatedAtSecs := nowSecs } })

theorem reserveAt_eq (owner : CacheOwner) (scopedKey : Str)
    (reservationPath targetBytes nowSecs : Nat) :
    cache.reserveAt owner scopedKey reservationPath targetBytes nowSecs = (do
      let found ← cache.reserveLooks owner reservationPath targetBytes nowSecs
      if found.2 then pure () else cache.reclaimCapacity found.1
      recordReservation owner scopedKey reservationPath targetBytes nowSecs) := by
  have refuses (error : CacheError) : (.throw error : Program Unit) = (do
    let found ← (.throw error : Program (Nat × Bool))
    if found.2 then pure () else cache.reclaimCapacity found.1
    recordReservation owner scopedKey reservationPath targetBytes nowSecs) :=
    rfl
  unfold reserveAt reserveLooks
  split
  · exact refuses _
  · rw [bind_assoc]
    refine congrArg _ (funext fun reservations => ?_)
    generalize (if (reservations.any fun entry =>
      entry.1 = reservationPath) = true then 0 else 1) = isNew
    dsimp only
    split
    · exact refuses _
    · split
      · exact refuses _
      · split
        · exact refuses _
        · unfold ensureGlobalCapacity
          split
          · exact refuses _
          · rw [bind_assoc, bind_assoc]
            refine congrArg _ (funext fun loaded => ?_)
            dsimp only
            rw [bind_assoc, bind_assoc]
            refine congrArg _ (funext fun fits => ?_)
            cases fits with
            | true | false => rfl

section

variable (pending : List PendingCommit)

def pendingBytes : Nat :=
  saturatingSum (pending.map PendingCommit.bytes)

def pendingObjects : Nat :=
  saturatingSum (pending.map PendingCommit.objects)

/-- `within_limits`: what is committed, what is pending and what comes in. -/
def withinCommitted
    (incomingBytes incomingObjects maxBytes maxObjects : Nat) (bytes objects : Nat) : Bool :=
  saturatingAdd (saturatingAdd bytes (pendingBytes pending)) incomingBytes ≤ maxBytes &&
    saturatingAdd (saturatingAdd objects (pendingObjects pending)) incomingObjects ≤ maxObjects

/-- `ensure_global_committed_capacity`. -/
def ensureGlobalCommitted (scopedKey : Str)
    (incomingBytes : Nat) : Program Unit := do
  let entries ← loadEntriesLru
  let others := pending.filter fun commit => commit.scopedKey ≠ scopedKey
  cache.makeRoomWithin (entries.filter fun entry => entry.key ≠ scopedKey)
    (withinCommitted others incomingBytes (incomingObjects entries scopedKey)
      cache.limits.maxGlobalBytes cache.limits.maxGlobalCommittedObjects)
    "cache global committed byte or object quota exceeded"

/-- `prepare_commit`: it returns the objects that the registry counts for the
commit. -/
def prepareCommitBeside (owner : CacheOwner) (scopedKey : Str)
    (incomingBytes : Nat) : Program Nat := do
  if cache.limits.maxObjectBytes < incomingBytes then refuse "cache per-object quota exceeded"
  else if cache.limits.maxOwnerCommittedBytes < incomingBytes then
    refuse "cache owner committed quota exceeded"
  else
    let entries ← loadEntriesLru
    let others := pending.filter fun commit => commit.owner = owner ∧ commit.scopedKey ≠ scopedKey
    let objects := incomingObjects entries scopedKey
    cache.makeRoomWithin (entries.filter fun entry =>
      entry.key ≠ scopedKey ∧ entryOwner entry.key = owner)
      (withinCommitted others incomingBytes objects cache.limits.maxOwnerCommittedBytes
        cache.limits.maxOwnerCommittedObjects)
      "cache owner committed byte or object quota exceeded"
    cache.ensureGlobalCommitted pending scopedKey incomingBytes
    pure objects

end

theorem withinCommitted_nil (incomingBytes incomingObjects maxBytes maxObjects : Nat) :
    withinCommitted [] incomingBytes incomingObjects maxBytes maxObjects = fun bytes objects =>
      decide (saturatingAdd bytes incomingBytes ≤ maxBytes) &&
        decide (saturatingAdd objects incomingObjects ≤ maxObjects) := by
  have alone (first second : Nat) : saturatingAdd (saturatingAdd first 0) second =
      saturatingAdd first second := by
    unfold saturatingAdd
    omega
  funext bytes objects
  change (decide (saturatingAdd (saturatingAdd bytes 0) incomingBytes ≤ maxBytes) &&
      decide (saturatingAdd (saturatingAdd objects 0) incomingObjects ≤ maxObjects)) = _
  rw [alone, alone]

theorem prepareCommit_eq (owner : CacheOwner) (scopedKey : Str) (incomingBytes : Nat) :
    cache.prepareCommit owner scopedKey incomingBytes = (do
      let _ ← cache.prepareCommitBeside [] owner scopedKey incomingBytes
      pure ()) := by
  have room (entries : List CacheEntry) (objects maxBytes maxObjects : Nat) (refusal : String) :
      cache.makeRoom entries incomingBytes objects maxBytes maxObjects refusal =
        cache.makeRoomWithin entries (withinCommitted [] incomingBytes objects maxBytes maxObjects)
          refusal := by
    rw [withinCommitted_nil, makeRoom_eq]
  unfold prepareCommit prepareCommitBeside
  split
  · rfl
  · split
    · rfl
    · rw [bind_assoc]
      refine congrArg _ (funext fun entries => ?_)
      rw [room, bind_assoc]
      refine congrArg _ (funext fun _ => ?_)
      unfold ensureGlobalCommittedCapacity ensureGlobalCommitted
      rw [bind_assoc, bind_assoc]
      refine congrArg _ (funext fun listed => ?_)
      rw [room]
      exact (Faulty.bind_pure _).symm

/-- What a put does under the root lock: its blob is written, and its row is
upserted. -/
def commitWrite (put : OwnerPut) (now : Nat) : Program (Except CacheError Unit) := do
  let contentHash ← writeHash cache.addressing put.data
  upsertWithRetry put.scopedKey contentHash put.data.length now 3

def discardPrevious (put : OwnerPut) : Option Row → Program Unit
  | none => pure ()
  | some previous =>
    if previous.contentHash = cache.addressing.address put.data then pure ()
    else discardBlobIfUnreferenced cache.addressing previous.contentHash

end ContentCache

namespace PutSystem

variable (cache : ContentCache)

def initial (stores : Stores) : PutSystem where
  stores := stores
  puts := ∅
  pending := []

def goesOn (system : PutSystem) (put : OwnerPut) (stage : PutStage) (stores : Stores) : PutSystem :=
  { system with
    stores := stores
    puts := system.puts.insert put.scopedKey (put, stage) }

def ends (system : PutSystem) (put : OwnerPut) (stores : Stores) : PutSystem :=
  { system with
    stores := stores
    puts := system.puts.erase put.scopedKey }

def dropped (system : PutSystem) (put : OwnerPut) : PutSystem :=
  { system with
    pending := system.pending.filter fun commit => commit.scopedKey ≠ put.scopedKey }

def quotaHeld (system : PutSystem) : Bool :=
  system.puts.entries.any fun entry => entry.2.2.holdsQuota

def settle {Value : Type} (ending : Ending CacheCall Stores CacheError Value)
    (returned : Value → Stores → PutSystem) (failed : Stores → PutSystem) : PutSystem :=
  match ending with
  | .returned value stores _ => returned value stores
  | .failed _ stores _ => failed stores
  | .crashed stores => initial stores

def advance (system : PutSystem) (put : OwnerPut) (stage : PutStage) (now : Nat)
    (fates : Fates CacheCall) : Option PutSystem :=
  match stage with
  | .reserving =>
    if system.quotaHeld then none
    else
      some (settle (cache.reserveLooks put.owner put.reservationPath put.data.length now
        system.stores fates)
        (fun found => system.goesOn put (if found.2 then .recording else .reclaiming found.1))
        (system.ends put))
  | .reclaiming total =>
    some (settle (cache.reclaimCapacity total system.stores fates)
      (fun _ => system.goesOn put .recording) (system.ends put))
  | .recording =>
    some (settle (recordReservation put.owner put.scopedKey
      put.reservationPath put.data.length now system.stores fates)
      (fun _ => system.goesOn put .reserved) (system.ends put))
  | .reserved =>
    if system.quotaHeld then none
    else
      some (settle (cache.prepareCommitBeside system.pending put.owner put.scopedKey
        put.data.length system.stores fates)
        (fun objects stores =>
          { system.goesOn put .admitted stores with
            pending :=
              { owner := put.owner
                scopedKey := put.scopedKey
                bytes := put.data.length
                objects := objects } :: system.pending })
        (system.goesOn put .releasing))
  | .admitted =>
    some (settle (probeReplacedEntry put.scopedKey system.stores fates)
      (fun previous => system.goesOn put (.probed previous))
      (system.goesOn put .abandoning))
  | .probed previous =>
    some (settle (cache.commitWrite put now system.stores fates) (fun result stores =>
      match result with
      | .ok () => (system.goesOn put (.committed previous) stores).dropped put
      | .error _ => system.goesOn put .failed stores)
      (system.goesOn put .abandoning))
  | .committed previous =>
    if system.quotaHeld then none
    else
      some (settle (cache.discardPrevious put previous system.stores fates)
        (fun _ => system.goesOn put .releasing)
        (system.goesOn put .releasing))
  | .failed =>
    if system.quotaHeld then none
    else
      some (settle (discardBlobIfUnreferenced cache.addressing
        (cache.addressing.address put.data) system.stores fates)
        (fun _ => system.goesOn put .abandoning)
        (system.goesOn put .abandoning))
  | .abandoning =>
    if system.quotaHeld then none
    else
      some (settle (release put.reservationPath system.stores fates)
        (fun _ stores => (system.ends put stores).dropped put)
        (fun stores => (system.ends put stores).dropped put))
  | .releasing =>
    if system.quotaHeld then none
    else
      some (settle (release put.reservationPath system.stores fates)
        (fun _ => system.ends put) (system.ends put))

inductive Action where
  | start (put : OwnerPut)
  | advance (scopedKey : Str) (now : Nat) (fates : Fates CacheCall)

/-- One step of the puts.  A put waits for the lock of its key; one whose bytes do
not fit an `i64` returns at once. -/
def step (system : PutSystem) : Action → Option PutSystem
  | .start put =>
    if (system.puts.lookup put.scopedKey).isSome then none
    else if 2 ^ 63 ≤ put.data.length then some system
    else some (system.goesOn put .reserving system.stores)
  | .advance scopedKey now fates =>
    match system.puts.lookup scopedKey with
    | none => none
    | some (put, stage) => system.advance cache put stage now fates

end PutSystem

end Arclain.Cache
