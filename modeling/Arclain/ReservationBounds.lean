import Arclain.CacheQuotas

namespace Arclain.Cache

/-!
# Reservations stay within their limits

A reservation is a record in the partial directory.  `reserve_at` discards what is invalid
or stale, counts the others, makes room among the committed blobs and writes its own
record.  Between two calls others may change the index, the blobs and the free space.

Totals are computed in saturating arithmetic.
-/

open KeyedMap List FaultyCalls Text Triple

section

/-- Records of the partial directory with their paths. -/
abbrev ReservationEntries := List ((_ : Nat) × ReservationRecord)

def ownedBy (owner : CacheOwner) (entries : ReservationEntries) : ReservationEntries :=
  entries.filter fun entry => entry.2.owner = owner

def reservedBytes (entries : ReservationEntries) : Nat :=
  (entries.map fun entry => entry.2.reservedBytes).sum

/-- The records stay within the limits of partial downloads. -/
structure WithinPartialLimits (limits : CacheLimits) (entries : ReservationEntries) : Prop where
  ownerObjects : limits.maxOwnerPartialObjects < u64Max →
    ∀ owner, (ownedBy owner entries).length ≤ limits.maxOwnerPartialObjects
  ownerBytes : limits.maxOwnerPartialBytes < u64Max → ∀ owner,
    reservedBytes (ownedBy owner entries) ≤ limits.maxOwnerPartialBytes
  globalObjects : limits.maxGlobalPartialObjects < u64Max →
    entries.length ≤ limits.maxGlobalPartialObjects

variable {fewer more : ReservationEntries}

theorem reservedBytes_sublist (sublist : fewer.Sublist more) :
    reservedBytes fewer ≤ reservedBytes more :=
  List.Sublist.sum_le_sum (sublist.map _) fun _ _ => Nat.zero_le _

theorem WithinPartialLimits.sublist {limits : CacheLimits}
    (within : WithinPartialLimits limits more) (sublist : fewer.Sublist more) :
    WithinPartialLimits limits fewer where
  ownerObjects exact owner := (sublist.filter _).length_le.trans (within.ownerObjects exact owner)
  ownerBytes exact owner :=
    (reservedBytes_sublist (sublist.filter _)).trans (within.ownerBytes exact owner)
  globalObjects exact := sublist.length_le.trans (within.globalObjects exact)

theorem ownedBy_cons (owner : CacheOwner) (entry : (_ : Nat) × ReservationRecord)
    (entries : ReservationEntries) : ownedBy owner (entry :: entries) =
      if entry.2.owner = owner then entry :: ownedBy owner entries
      else ownedBy owner entries := by
  unfold ownedBy
  rw [filter_cons]
  simp

end

namespace ContentCache

variable (cache : ContentCache)

def liveReservations (stores : Stores) (nowSecs : Nat) : ReservationEntries :=
  stores.reservations.entries.filter fun entry =>
    nowSecs - entry.2.updatedAtSecs ≤ cache.limits.partialTtlSecs

inductive QuotaEvent where
  | reserve (owner : CacheOwner) (scopedKey : Str) (reservationPath targetBytes nowSecs : Nat)
      (fates : Fates CacheCall)
  | release (reservationPath : Nat) (fates : Fates CacheCall)
  -- Others use the index, the blobs and the disk.
  | elsewhere (rows : KeyedMap Str Row) (blobs : KeyedMap Str Bytes) (freeSpace : List Nat)

def quotaStep (stores : Stores) : QuotaEvent → Stores
  | .reserve owner scopedKey reservationPath targetBytes nowSecs fates =>
    (cache.reserveAt owner scopedKey reservationPath targetBytes nowSecs stores fates).state
  | .release reservationPath fates => (release reservationPath stores fates).state
  | .elsewhere rows blobs freeSpace =>
    { stores with rows := rows, blobs := blobs, freeSpace := freeSpace }

def quotaRun (stores : Stores) (events : List QuotaEvent) : Stores :=
  events.foldl cache.quotaStep stores

def QuotaEvent.Respects (ownerOf : Nat → CacheOwner) : QuotaEvent → Prop
  | .reserve owner _ reservationPath _ _ _ => owner = ownerOf reservationPath
  | .release _ _ | .elsewhere _ _ _ => True

/-- Every record belongs to the owner of its path, and the records stay within
the limits. -/
structure Reserved (limits : CacheLimits) (ownerOf : Nat → CacheOwner)
    (records : KeyedMap Nat ReservationRecord) : Prop where
  owners : ∀ entry ∈ records.entries, entry.2.owner = ownerOf entry.1
  within : WithinPartialLimits limits records.entries

section

variable {limits : CacheLimits} {ownerOf : Nat → CacheOwner}
  {records : KeyedMap Nat ReservationRecord}

theorem Reserved.sublist {fewer : KeyedMap Nat ReservationRecord}
    (reserved : Reserved limits ownerOf records) (sublist : fewer.entries.Sublist records.entries) :
    Reserved limits ownerOf fewer where
  owners entry mem := reserved.owners entry (sublist.subset mem)
  within := reserved.within.sublist sublist

theorem count_le_of_checked {entries : ReservationEntries} {path limit : Nat}
    (checked : saturatingAdd (entries.filter fun entry => entry.1 ≠ path).length
      (if entries.any fun entry => entry.1 = path then 0 else 1) ≤ limit)
    (exact : limit < u64Max) (before : entries.length ≤ limit) :
    (entries.filter fun entry => entry.1 ≠ path).length + 1 ≤ limit := by
  by_cases known : (entries.any fun entry => entry.1 = path) = true
  · obtain ⟨entry, mem, same⟩ := any_eq_true.mp known
    have fewer : (entries.filter fun entry => entry.1 ≠ path).length < entries.length := by
      refine length_filter_lt_length_iff_exists.mpr ⟨entry, mem, ?_⟩
      simpa using same
    exact Nat.le_trans fewer before
  · rw [if_neg known] at checked
    exact add_le_of_saturatingAdd_le checked exact

theorem Reserved.insert {path : Nat} {record : ReservationRecord}
    (reserved : Reserved limits ownerOf records) (own : record.owner = ownerOf path)
    (ownerObjects : saturatingAdd (ownedBy record.owner
      (records.entries.filter fun entry => entry.1 ≠ path)).length
        (if records.entries.any fun entry => entry.1 = path then 0 else 1) ≤
        limits.maxOwnerPartialObjects)
    (globalObjects : saturatingAdd (records.entries.filter fun entry => entry.1 ≠ path).length
      (if records.entries.any fun entry => entry.1 = path then 0 else 1) ≤
        limits.maxGlobalPartialObjects)
    (ownerBytes : saturatingAdd (saturatingSum ((ownedBy record.owner
      (records.entries.filter fun entry => entry.1 ≠ path)).map fun entry => entry.2.reservedBytes))
        record.reservedBytes ≤ limits.maxOwnerPartialBytes) :
    Reserved limits ownerOf (records.insert path record) := by
  have others : WithinPartialLimits limits (records.entries.filter fun entry => entry.1 ≠ path) :=
    reserved.within.sublist filter_sublist
  -- A record that is replaced belonged to the same owner.
  have sameOwner : (records.entries.any fun entry => entry.1 = path) =
      (ownedBy record.owner records.entries).any fun entry => entry.1 = path := by
    rw [Bool.eq_iff_iff, any_eq_true, any_eq_true]
    constructor
    · rintro ⟨entry, mem, same⟩
      refine ⟨entry, mem_filter.mpr ⟨mem, ?_⟩, same⟩
      rw [reserved.owners entry mem, of_decide_eq_true same, own]
      exact decide_eq_true rfl
    · rintro ⟨entry, mem, same⟩
      exact ⟨entry, (mem_filter.mp mem).1, same⟩
  have swapped : ownedBy record.owner (records.entries.filter fun entry => entry.1 ≠ path) =
      (ownedBy record.owner records.entries).filter fun entry => entry.1 ≠ path :=
    filter_comm ..
  constructor
  · intro entry mem
    rw [entries_insert_eq] at mem
    rcases mem_cons.mp mem with rfl | old
    · exact own
    · exact reserved.owners entry (mem_filter.mp old).1
  · rw [entries_insert_eq]
    constructor
    · intro exact owner
      rw [ownedBy_cons]
      split
      next same =>
        rw [← show record.owner = owner from same, length_cons, swapped]
        rw [sameOwner, swapped] at ownerObjects
        exact count_le_of_checked ownerObjects exact
          (reserved.within.ownerObjects exact record.owner)
      · exact others.ownerObjects exact owner
    · intro exact owner
      rw [ownedBy_cons]
      split
      next same =>
        rw [← show record.owner = owner from same]
        have added := add_le_of_saturatingAdd_le ownerBytes exact
        rw [sum_eq_of_saturatingSum_lt (by omega)] at added
        unfold reservedBytes
        rw [map_cons, sum_cons, Nat.add_comm]
        exact added
      · exact others.ownerBytes exact owner
    · intro exact
      rw [length_cons]
      exact count_le_of_checked globalObjects exact (reserved.within.globalObjects exact)

end

section

variable {cache} {ownerOf : Nat → CacheOwner}

/-- The committed bytes are known up to the maximum of a saturating sum. -/
def Countable (digest : Addressing) (stores : Stores) : Prop :=
  committedBytes (stores.charges digest everyKey) ≤ u64Max

variable {counted : Prop}

theorem Countable.shrinks {digest : Addressing} :
    Shrinks fun stores => counted → Countable digest stores := by
  have antitone (fewer more : Finset Charge) (subset : fewer ⊆ more)
      (within : counted → committedBytes more ≤ u64Max) :
      counted → committedBytes fewer ≤ u64Max :=
    fun isCounted => (LabelledWeight.total_mono subset).trans (within isCounted)
  exact shrinks_of_charges antitone

theorem scanReservations_reserves {holds : Stores → Prop} (kept : ∀ stores records, holds stores →
    records.entries.Sublist stores.reservations.entries →
      holds { stores with reservations := records })
    (nowSecs : Nat) :
    Triple holds (cache.scanReservations nowSecs) ⟨fun entries stores =>
      holds stores ∧ entries = stores.reservations.entries, fun _ => holds, holds⟩ := by
  have scanned (stores : Stores) (held : holds stores) :
      holds (cache.scanReservations nowSecs stores Fates.allWork).state :=
    kept stores _ held filter_sublist
  exact call (fun stores held => ⟨scanned stores held, rfl⟩)
    (fun _ => id) scanned (fun _ => id) scanned

theorem reserveAt_reserves {owner : CacheOwner} {reservationPath : Nat}
    (own : owner = ownerOf reservationPath) (scopedKey : Str) (targetBytes nowSecs : Nat) :
    Triple (fun stores =>
      Reserved cache.limits ownerOf stores.reservations ∧
        (counted → Countable cache.addressing stores))
      (cache.reserveAt owner scopedKey reservationPath targetBytes nowSecs)
      ⟨fun _ stores =>
        Reserved cache.limits ownerOf stores.reservations ∧
          (counted → cache.limits.maxGlobalBytes < u64Max →
            committedBytes (stores.charges cache.addressing everyKey) +
              reservedBytes stores.reservations.entries ≤ cache.limits.maxGlobalBytes),
        fun _ stores => Reserved cache.limits ownerOf stores.reservations,
        fun stores => Reserved cache.limits ownerOf stores.reservations⟩ := by
  unfold reserveAt
  split
  · exact throw fun _ held => held.1
  · refine bind ((scanReservations_reserves ?_ nowSecs).leaving fun _ held => held.1)
      fun reservations => ?_
    · intro stores records held fewer
      exact ⟨held.1.sublist fewer, held.2⟩
    · dsimp only
      generalize isNew : (if reservations.any fun entry => entry.1 = reservationPath then 0
        else 1) = count
      split
      · exact throw fun _ held => held.1.1
      next ownerObjects =>
        split
        · exact throw fun _ held => held.1.1
        next globalObjects =>
          split
          · exact throw fun _ held => held.1.1
          next ownerBytes =>
            have records : Shrinks fun stores =>
              Reserved cache.limits ownerOf stores.reservations ∧
                reservations = stores.reservations.entries :=
              ⟨fun _ _ => id, fun _ _ held _ => held, fun _ _ => id⟩
            have listed : Shrinks fun stores =>
              (Reserved cache.limits ownerOf stores.reservations ∧
                reservations = stores.reservations.entries) ∧
                (counted → Countable cache.addressing stores) :=
              records.and Countable.shrinks
            refine bind ((ensureGlobalCapacity_fits listed (fun _ held => held.2)
              _).consequence (fun _ held => ⟨⟨held.1.1, held.2⟩, held.1.2⟩)
              (fun _ _ => id) (fun _ _ held => held.1.1)
              fun _ held => held.1.1) fun _ => ?_
            have written (stores : Stores) (held :
                Reserved cache.limits ownerOf stores.reservations ∧
                  reservations = stores.reservations.entries) :
                Reserved cache.limits ownerOf (stores.reservations.insert reservationPath
                  { owner := owner
                    scopedKey := scopedKey
                    reservedBytes := targetBytes
                    updatedAtSecs := nowSecs }) := by
              obtain ⟨reserved, rfl⟩ := held
              subst isNew
              exact reserved.insert own (Nat.le_of_not_lt ownerObjects)
                (Nat.le_of_not_lt globalObjects) (Nat.le_of_not_lt ownerBytes)
            refine call ?_ (fun _ held => held.1.1.1)
              (fun stores held => written stores held.1.1)
              (fun _ held => held.1.1.1)
              fun stores held => written stores held.1.1
            intro stores held
            refine ⟨written stores held.1.1, fun isCounted small => ?_⟩
            have total := held.2 isCounted small
            rw [entries_insert_eq, ← held.1.1.2]
            unfold saturatingAdd at total
            rw [saturatingSum_eq] at total
            unfold reservedBytes
            unfold u64Max at total small
            rw [map_cons, sum_cons]
            change committedBytes (stores.charges cache.addressing everyKey) +
              _ ≤ _
            dsimp only
            omega

theorem release_reserves (reservationPath : Nat) :
    Keeps (fun stores => Reserved cache.limits ownerOf stores.reservations)
      (release reservationPath) := by
  refine Keeps.call fun stores reserved => reserved.sublist ?_
  rw [entries_erase]
  exact filter_sublist

end

section

variable {cache} {ownerOf : Nat → CacheOwner} {stores : Stores}

theorem Reserved.step {event : QuotaEvent}
    (reserved : Reserved cache.limits ownerOf stores.reservations)
    (respected : event.Respects ownerOf) :
    Reserved cache.limits ownerOf (cache.quotaStep stores event).reservations := by
  cases event with
  | reserve owner scopedKey reservationPath targetBytes nowSecs fates =>
    have reserves :=
      @reserveAt_reserves cache ownerOf False owner reservationPath respected
        scopedKey targetBytes nowSecs
    have keeps : Triple (fun stores => Reserved cache.limits ownerOf stores.reservations)
        (cache.reserveAt owner scopedKey reservationPath targetBytes nowSecs)
        ⟨fun _ stores => Reserved cache.limits ownerOf stores.reservations,
          fun _ stores => Reserved cache.limits ownerOf stores.reservations,
          fun stores => Reserved cache.limits ownerOf stores.reservations⟩ :=
      reserves.consequence (fun _ held => ⟨held, False.elim⟩)
        (fun _ _ held => held.1) (fun _ _ => id) fun _ => id
    exact keeps.ending reserved fates
  | release reservationPath fates => exact (release_reserves reservationPath).ending reserved fates
  | elsewhere =>
    exact reserved

theorem reserved_of_run {events : List QuotaEvent}
    (reserved : Reserved cache.limits ownerOf stores.reservations)
    (respected : ∀ event ∈ events, event.Respects ownerOf) :
    Reserved cache.limits ownerOf (cache.quotaRun stores events).reservations := by
  induction events generalizing stores with
  | nil => exact reserved
  | cons event events ih =>
    exact ih (reserved.step (respected event mem_cons_self))
      fun other mem => respected other (mem_cons_of_mem _ mem)

theorem reserved_empty : Reserved cache.limits ownerOf ∅ where
  owners _ mem := by cases mem
  within :=
    { ownerObjects := fun _ _ => Nat.zero_le _
      ownerBytes := fun _ _ => Nat.zero_le _
      globalObjects := fun _ => Nat.zero_le _ }

/-- While each path has one owner, the live records stay within the limits, and with the
committed bytes within the global one. -/
theorem reservations_within_limits (cache : ContentCache) (ownerOf : Nat → CacheOwner)
    (start : Stores) (events : List QuotaEvent) (empty : start.reservations = ∅)
    (respected : ∀ event ∈ events, event.Respects ownerOf) :
    (∀ nowSecs, WithinPartialLimits cache.limits
      (cache.liveReservations (cache.quotaRun start events) nowSecs)) ∧
      ∀ reservationPath scopedKey targetBytes nowSecs fates after rest,
        cache.reserveAt (ownerOf reservationPath) scopedKey reservationPath
          targetBytes nowSecs (cache.quotaRun start events) fates = .returned () after rest →
        Countable cache.addressing (cache.quotaRun start events) →
        cache.limits.maxGlobalBytes < u64Max →
        ∀ clock, committedBytes (after.charges cache.addressing everyKey) +
          reservedBytes (cache.liveReservations after clock) ≤ cache.limits.maxGlobalBytes := by
  have reserved : Reserved cache.limits ownerOf (cache.quotaRun start events).reservations := by
    refine reserved_of_run ?_ respected
    rw [empty]
    exact reserved_empty
  constructor
  · intro nowSecs
    exact reserved.within.sublist filter_sublist
  · intro reservationPath scopedKey targetBytes nowSecs fates after rest returned
      countable small clock
    have reserves :=
      @reserveAt_reserves cache ownerOf True _ reservationPath rfl scopedKey
        targetBytes nowSecs (cache.quotaRun start events) fates
        ⟨reserved, fun _ => countable⟩
    rw [returned] at reserves
    have total := reserves.2 trivial small
    have live : reservedBytes (cache.liveReservations after clock) ≤
        reservedBytes after.reservations.entries :=
      reservedBytes_sublist filter_sublist
    omega

end

def namedAddressing : Addressing where
  address data := "sha256-".toList ++ data.flatMap fun byte => decimal byte.toNat ++ ['+']
  isIntegrity text := startsWith text "sha256-".toList

/-- A cache that takes as many bytes as can be counted. -/
def boundless : ContentCache where
  addressing := namedAddressing
  limits := {
    maxObjectBytes := u64Max
    maxOwnerPartialBytes := u64Max
    maxOwnerPartialObjects := 64
    maxOwnerCommittedBytes := u64Max
    maxOwnerCommittedObjects := 20000
    maxGlobalBytes := u64Max
    maxGlobalPartialObjects := 256
    maxGlobalCommittedObjects := 100000
    minFreeSpaceBytes := 0
    partialTtlSecs := 86400 }

def largeDisk : Stores := { Stores.empty with freeSpace := [u64Max, u64Max] }

def hostReserves (reservationPath targetBytes : Nat) : QuotaEvent :=
  .reserve .host (CacheOwner.host.scopedKey "k".toList) reservationPath
    targetBytes 100 Fates.allWork

def tight : ContentCache where
  addressing := namedAddressing
  limits := {
    maxObjectBytes := 8
    maxOwnerPartialBytes := 10
    maxOwnerPartialObjects := 64
    maxOwnerCommittedBytes := 16
    maxOwnerCommittedObjects := 20000
    maxGlobalBytes := 20
    maxGlobalPartialObjects := 256
    maxGlobalCommittedObjects := 100000
    minFreeSpaceBytes := 0
    partialTtlSecs := 10 }

/-- Of reservations of six and five bytes the second is refused. -/
theorem reservations_within_limits_tight : WithinPartialLimits tight.limits (tight.liveReservations
    (tight.quotaRun largeDisk [hostReserves 0 6, hostReserves 1 5]) 100) ∧
      (tight.liveReservations (tight.quotaRun largeDisk [hostReserves 0 6, hostReserves 1 5])
        100).length = 1 := by
  refine ⟨(reservations_within_limits tight (fun _ => .host) largeDisk
    [hostReserves 0 6, hostReserves 1 5] rfl ?_).1 100, by decide +kernel⟩
  simp [hostReserves, QuotaEvent.Respects]

/-- With limits of `u64::MAX`, two reservations of as many bytes both succeed and exceed
them. -/
theorem boundless_reservations_exceed : (∀ event ∈ [hostReserves 0 u64Max, hostReserves 1 u64Max],
    event.Respects fun _ => .host) ∧
      boundless.limits.maxOwnerPartialBytes < reservedBytes (ownedBy .host
        (boundless.liveReservations (boundless.quotaRun largeDisk
          [hostReserves 0 u64Max, hostReserves 1 u64Max]) 100)) ∧
      (boundless.reserveAt .host (CacheOwner.host.scopedKey "k".toList) 1 u64Max
        100 (boundless.quotaRun largeDisk [hostReserves 0 u64Max])
        Fates.allWork).hasReturned = true ∧
      boundless.limits.maxGlobalBytes < reservedBytes
        (boundless.liveReservations (boundless.quotaRun largeDisk
          [hostReserves 0 u64Max, hostReserves 1 u64Max]) 100) := by
  refine ⟨?_, by decide +kernel, by decide +kernel, by decide +kernel⟩
  simp [hostReserves, QuotaEvent.Respects]

end ContentCache

end Arclain.Cache
