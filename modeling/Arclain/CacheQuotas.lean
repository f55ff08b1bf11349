import Arclain.CacheAccounting

namespace Arclain.Cache

/-!
# Making room in the cache

The loops that make room evict groups from the least recently used on, until a running total
is within its limits.
-/

open List FaultyCalls Text PhysicalBlob Triple

namespace ContentCache

variable {cache : ContentCache} {holds : Stores → Prop}

section

theorem globalCapacityFits_fits (kept : ∀ stores answers, holds stores →
    holds { stores with freeSpace := answers })
    (committedBytes reservedBytes : Nat) :
    Triple holds (cache.globalCapacityFits committedBytes reservedBytes) ⟨fun fits stores =>
      holds stores ∧ (fits = true → saturatingAdd committedBytes reservedBytes ≤
        cache.limits.maxGlobalBytes),
        fun _ => holds, holds⟩ := by
  unfold globalCapacityFits
  split
  · exact Triple.pure fun _ held => ⟨held, nofun⟩
  next within =>
    refine bind (Keeps.call fun stores => kept stores _) fun _ => ?_
    exact Triple.pure fun _ held => ⟨held, fun _ => Nat.le_of_not_lt within⟩

theorem globalCapacityFits_keeps (kept : ∀ stores answers, holds stores →
    holds { stores with freeSpace := answers })
    (committedBytes reservedBytes : Nat) :
    Keeps holds (cache.globalCapacityFits committedBytes reservedBytes) :=
  (globalCapacityFits_fits kept _ _).returning (fun _ _ held => held.1)

theorem loadGroups_covers : Triple holds cache.loadGroups ⟨fun found stores => holds stores ∧
    Covered cache.addressing everyKey found.1 stores ∧
    found.2 = saturatingSum (found.1.map sizeBytes) ∧
    (found.1.map sizeBytes).sum ≤
      committedBytes (stores.charges cache.addressing everyKey), fun _ => holds, holds⟩ := by
  refine bind (look_returns .index Stores.entriesLru) fun entries => ?_
  have grouped : Triple (fun stores => holds stores ∧ entries = stores.entriesLru)
      (Faulty.inspect fun stores => stores.physicalGroupsLru cache.addressing entries : Program _)
      ⟨fun groups stores => holds stores ∧ groups = stores.physicalGroupsLru cache.addressing
        (stores.keptEntries everyKey),
        fun _ => holds, holds⟩ := by
    intro stores _ held
    refine ⟨held.1, ?_⟩
    rw [keptEntries_everyKey, ← held.2]
  refine bind grouped fun groups => Triple.pure fun stores held => ?_
  refine ⟨held.1, ?_, rfl, ?_⟩
  · rw [held.2]
    exact covered_physicalGroupsLru stores
  · rw [held.2]
    exact sum_physicalGroupsLru_le stores

theorem evictForCapacity_covers (shrinks : Shrinks holds) (reservedBytes : Nat)
    (groups : List PhysicalBlob) (committed : Nat) :
    Triple (fun stores => holds stores ∧ Covered cache.addressing everyKey groups stores)
      (cache.evictForCapacity reservedBytes groups committed)
      ⟨fun _ stores => holds stores ∧ ∃ evicted rest, groups = evicted ++ rest ∧
        Covered cache.addressing everyKey rest stores ∧
        saturatingAdd (committed - (evicted.map sizeBytes).sum) reservedBytes ≤
          cache.limits.maxGlobalBytes,
        fun _ => holds, holds⟩ := by
  induction groups generalizing committed with
  | nil =>
    unfold evictForCapacity
    split
    · exact Triple.throw fun _ held => held.1
    · exact Triple.throw fun _ held => held.1
  | cons group groups ih =>
    have covering (left : List PhysicalBlob) : Shrinks fun stores =>
      holds stores ∧ Covered cache.addressing everyKey left stores :=
      shrinks.and Covered.shrinks
    refine bind ((deleteRows_keeps (covering (group :: groups)).eraseRow
      group.keys).leaving fun _ held => held.1) fun _ => ?_
    -- The group had the keys of all rows with its address.
    have unreferenced (stores : Stores) (covered :
        Covered cache.addressing everyKey (group :: groups) stores)
        (gone : ∀ key ∈ group.keys, stores.rows.lookup key = none) :
        Unreferenced group.contentHash stores := by
      intro key row found same
      have listed := ((covered key row found rfl).2 group mem_cons_self same.symm).1
      rw [gone key listed] at found
      cases found
    have removes : Triple (fun stores =>
      (holds stores ∧ Covered cache.addressing everyKey (group :: groups) stores) ∧
        ∀ key ∈ group.keys, stores.rows.lookup key = none)
          (removePhysicalBlob cache.addressing group.contentHash)
          ⟨fun _ stores => holds stores ∧ Covered cache.addressing everyKey groups stores,
            fun _ stores => holds stores ∧ Covered cache.addressing everyKey groups stores,
            fun stores =>
              holds stores ∧ Covered cache.addressing everyKey groups stores⟩ :=
      removePhysicalBlob_keeps (fun stores held =>
        (covering groups).eraseBlob stores group.contentHash ⟨held.1.1, held.1.2.tail held.2⟩
          (unreferenced stores held.1.2 held.2))
        fun stores held => ⟨held.1.1, held.1.2.tail held.2⟩
    refine bind (removes.leaving fun _ held => held.1)
      fun _ => ?_
    refine bind ((globalCapacityFits_fits (covering groups).answers
      (committed - group.sizeBytes) reservedBytes).leaving fun _ held => held.1) fun fits => ?_
    cases fits with
    | true =>
      refine Triple.pure fun stores held => ?_
      exact ⟨held.1.1, [group], groups, rfl, held.1.2, by simpa using held.2⟩
    | false =>
      refine (ih (committed - group.sizeBytes)).consequence
        (fun _ held => held.1) ?_ (fun _ _ => id) fun _ => id
      rintro _ stores ⟨held, evicted, rest, parts, covered, _⟩
      refine ⟨held, group :: evicted, rest, congrArg _ parts, covered, ?_⟩
      rwa [map_cons, sum_cons, ← Nat.sub_sub]

/-- The part of `ensure_global_capacity` that holds the root lock. -/
def reclaimCapacity (cache : ContentCache) (reservedBytes : Nat) : Program Unit := do
  reconcilePhysicalBlobs cache.addressing
  let (groups, committedBytes) ← cache.loadGroups
  if ← cache.globalCapacityFits committedBytes reservedBytes then pure ()
  else cache.evictForCapacity reservedBytes groups committedBytes

theorem committedBytes_le_of_evicted {kept : Str → Bool} {groups evicted rest : List PhysicalBlob}
    {stores : Stores} (covered : Covered cache.addressing kept rest stores)
    (parts : groups = evicted ++ rest) (exact : (groups.map sizeBytes).sum ≤ u64Max) :
    committedBytes (stores.charges cache.addressing kept) ≤
      saturatingSum (groups.map sizeBytes) -
        (evicted.map sizeBytes).sum := by
  have cost := covered.committedBytes_le
  rw [saturatingSum_eq, Nat.min_eq_left exact, parts, map_append, sum_append]
  omega

variable {counted : Prop}

/-- As far as the groups can be counted, the reserved bytes fit beside them. -/
abbrev Reserves (cache : ContentCache) (counted : Prop) (reservedBytes : Nat)
    (stores : Stores) : Prop :=
  counted → cache.limits.maxGlobalBytes < u64Max →
    committedBytes (stores.charges cache.addressing everyKey) + reservedBytes ≤
      cache.limits.maxGlobalBytes

theorem reclaimCapacity_fits (shrinks : Shrinks holds) (exact : ∀ stores, holds stores → counted →
    committedBytes (stores.charges cache.addressing everyKey) ≤ u64Max) (reservedBytes : Nat) :
    Triple holds (cache.reclaimCapacity reservedBytes)
      ⟨fun _ stores => holds stores ∧ cache.Reserves counted reservedBytes stores,
        fun _ => holds, holds⟩ := by
  refine bind (reconcilePhysicalBlobs_keeps shrinks) fun _ => ?_
  refine bind loadGroups_covers fun found => ?_
  let loaded := fun stores : Stores =>
    holds stores ∧ Covered cache.addressing everyKey found.1 stores
  let sum := (found.1.map sizeBytes).sum
  have listed : Triple (fun stores =>
    loaded stores ∧ found.2 = saturatingSum (found.1.map sizeBytes) ∧
      (counted → sum ≤ u64Max))
      (do
        if ← cache.globalCapacityFits found.2 reservedBytes then pure ()
        else cache.evictForCapacity reservedBytes found.1 found.2)
      ⟨fun _ stores => holds stores ∧ cache.Reserves counted reservedBytes stores,
        fun _ => holds, holds⟩ := by
    refine assuming fun known => ?_
    have within {stores : Stores} {evicted rest : List PhysicalBlob}
        (covered : Covered cache.addressing everyKey rest stores)
        (parts : found.1 = evicted ++ rest)
        (fits : saturatingAdd (found.2 - (evicted.map sizeBytes).sum) reservedBytes ≤
          cache.limits.maxGlobalBytes)
        (isCounted : counted)
        (small : cache.limits.maxGlobalBytes < u64Max) :
        committedBytes (stores.charges cache.addressing everyKey) + reservedBytes ≤
          cache.limits.maxGlobalBytes := by
      have cost := committedBytes_le_of_evicted covered parts (known.2 isCounted)
      rw [← known.1] at cost
      have total := add_le_of_saturatingAdd_le fits small
      omega
    refine bind ((globalCapacityFits_fits (shrinks.and Covered.shrinks).answers found.2
      reservedBytes).leaving fun _ held => held.1) fun enough => ?_
    cases enough with
    | true =>
      refine Triple.pure fun stores held => ⟨held.1.1, ?_⟩
      refine @within stores [] found.1 held.1.2 rfl ?_
      simpa using held.2 rfl
    | false =>
      refine (evictForCapacity_covers shrinks reservedBytes found.1
        found.2).consequence (fun _ held => held.1) ?_ (fun _ _ => id)
        fun _ => id
      rintro _ stores ⟨held, evicted, rest, parts, covered, fits⟩
      exact ⟨held, within covered parts fits⟩
  refine listed.of_stronger ?_
  intro stores held
  exact ⟨⟨held.1, held.2.1⟩, held.2.2.1, fun isCounted =>
    held.2.2.2.trans (exact stores held.1 isCounted)⟩

theorem ensureGlobalCapacity_fits (shrinks : Shrinks holds)
    (exact : ∀ stores, holds stores → counted →
      committedBytes (stores.charges cache.addressing everyKey) ≤ u64Max)
    (reservedBytes : Nat) :
    Triple holds (cache.ensureGlobalCapacity reservedBytes)
      ⟨fun _ stores => holds stores ∧ cache.Reserves counted reservedBytes stores,
        fun _ => holds, holds⟩ := by
  unfold ensureGlobalCapacity
  split
  · exact Triple.throw fun _ => id
  · refine bind loadGroups_covers fun found => ?_
    have fits : Triple (fun stores =>
      (holds stores ∧ Covered cache.addressing everyKey found.1 stores) ∧
        found.2 = saturatingSum (found.1.map sizeBytes))
          (cache.globalCapacityFits found.2 reservedBytes)
          ⟨fun fits stores => holds stores ∧ cache.Reserves (fits = true) reservedBytes stores,
            fun _ => holds, holds⟩ := by
      refine assuming fun known => ?_
      refine (globalCapacityFits_fits (shrinks.and Covered.shrinks).answers
        found.2 reservedBytes).consequence (fun _ => id) ?_
        (fun _ _ held => held.1) fun _ held => held.1
      rintro enough stores ⟨⟨held, covered⟩, within⟩
      refine ⟨held, fun isEnough small => ?_⟩
      have total := add_le_of_saturatingAdd_le (within isEnough) small
      rw [known, sum_eq_of_saturatingSum_lt (by omega)] at total
      exact (Nat.add_le_add_right covered.committedBytes_le _).trans total
    refine bind (fits.of_stronger fun _ held => ⟨⟨held.1, held.2.1⟩, held.2.2.1⟩)
      fun enough => ?_
    cases enough with
    | true => exact Triple.pure fun stores held => ⟨held.1, fun _ => held.2 rfl⟩
    | false =>
      exact (reclaimCapacity_fits shrinks exact reservedBytes).of_stronger (fun _ held => held.1)

theorem ensureGlobalCapacity_keeps (shrinks : Shrinks holds) (reservedBytes : Nat) :
    Keeps holds (cache.ensureGlobalCapacity reservedBytes) :=
  (ensureGlobalCapacity_fits shrinks (fun _ _ (never : False) => never.elim)
    reservedBytes).returning (fun _ _ held => held.1)

end

section

variable (kept : Str → Bool)

theorem evictCommitted_covers (shrinks : Shrinks holds)
    (withinLimits : Nat → Nat → Bool) (groups : List PhysicalBlob) (bytes objects : Nat) :
    Triple (fun stores => holds stores ∧ Covered cache.addressing kept groups stores)
      (cache.evictCommitted withinLimits groups bytes objects)
      ⟨fun done stores => holds stores ∧ (done = true → ∃ evicted rest, groups = evicted ++ rest ∧
        Covered cache.addressing kept rest stores ∧
        withinLimits (bytes - (evicted.map sizeBytes).sum) (objects -
          (evicted.map fun group => group.keys.length).sum) = true),
        fun _ => holds, holds⟩ := by
  induction groups generalizing bytes objects with
  | nil => exact Triple.pure fun stores held => ⟨held.1, nofun⟩
  | cons group groups ih =>
    have covering (left : List PhysicalBlob) : Shrinks fun stores =>
      holds stores ∧ Covered cache.addressing kept left stores :=
      shrinks.and Covered.shrinks
    refine bind ((deleteRows_keeps (covering (group :: groups)).eraseRow
      group.keys).consequence (fun _ => id)
      (fun _ _ held => And.intro held.1.1 (held.1.2.tail held.2))
      (fun _ _ held => held.1) fun _ held => held.1) fun _ => ?_
    have discards : Keeps (fun stores => holds stores ∧ Covered cache.addressing kept groups stores)
        (discardBlobIfUnreferenced cache.addressing group.contentHash) :=
      discardBlobIfUnreferenced_keeps _ fun stores held unreferenced =>
        (covering groups).eraseBlob stores _ held unreferenced
    refine bind (discards.leaving fun _ held => held.1)
      fun _ => ?_
    split
    next within =>
      refine Triple.pure fun stores held => ⟨held.1, fun _ => ?_⟩
      exact ⟨[group], groups, rfl, held.2, by simpa using within⟩
    · refine (ih (bytes - group.sizeBytes)
        (objects - group.keys.length)).returning ?_
      rintro done stores ⟨held, finished⟩
      refine ⟨held, fun isDone => ?_⟩
      obtain ⟨evicted, rest, parts, covered, within⟩ := finished isDone
      refine ⟨group :: evicted, rest, congrArg _ parts, covered, ?_⟩
      rwa [map_cons, sum_cons, map_cons, sum_cons, ← Nat.sub_sub, ← Nat.sub_sub]

/-- Make room for a commit, by a test of what the entries and the commit come to. -/
def makeRoomWithin (cache : ContentCache) (entries : List CacheEntry)
    (withinLimits : Nat → Nat → Bool) (refusal : String) : Program Unit := do
  let groups ← Faulty.inspect fun stores => stores.physicalGroupsLru cache.addressing entries
  let bytes := saturatingSum (groups.map sizeBytes)
  if withinLimits bytes entries.length then pure ()
  else if ← cache.evictCommitted withinLimits groups bytes entries.length then pure ()
  else refuse refusal

theorem makeRoom_eq (entries : List CacheEntry)
    (incomingBytes incomingObjects maxBytes maxObjects : Nat) (refusal : String) :
    cache.makeRoom entries incomingBytes incomingObjects maxBytes maxObjects refusal =
      cache.makeRoomWithin entries (fun bytes objects =>
        decide (saturatingAdd bytes incomingBytes ≤ maxBytes) &&
          decide (saturatingAdd objects incomingObjects ≤ maxObjects))
        refusal :=
  rfl

section

variable (shrinks : Shrinks holds)
include shrinks

theorem makeRoomWithin_fits {counted : Prop} (exact : ∀ stores, holds stores → counted →
      committedBytes (stores.charges cache.addressing kept) ≤ u64Max)
    (entries : List CacheEntry) (withinLimits : Nat → Nat → Bool) (refusal : String) :
    Triple (fun stores => holds stores ∧ entries = stores.keptEntries kept)
      (cache.makeRoomWithin entries withinLimits refusal)
      ⟨fun _ stores => holds stores ∧
        ∃ bytes objects, withinLimits bytes objects = true ∧ (counted →
          committedBytes (stores.charges cache.addressing kept) ≤ bytes) ∧
          (stores.keptKeys kept).card ≤ objects,
        fun _ => holds, holds⟩ := by
  have grouped : Triple (fun stores => holds stores ∧ entries = stores.keptEntries kept)
      (Faulty.inspect fun stores => stores.physicalGroupsLru cache.addressing entries : Program _)
      ⟨fun groups stores =>
        (holds stores ∧ Covered cache.addressing kept groups stores) ∧
          (counted → (groups.map sizeBytes).sum ≤ u64Max) ∧
          (groups.map fun group => group.keys.length).sum = entries.length,
        fun _ => holds, holds⟩ := by
    intro stores _ held
    rw [held.2]
    refine ⟨⟨held.1, covered_physicalGroupsLru stores⟩, fun isCounted => ?_, ?_⟩
    · exact (sum_physicalGroupsLru_le stores).trans (exact stores held.1 isCounted)
    · exact (tallies_physicalGroupsLru stores _).objects
  refine bind grouped fun groups => assuming fun known => ?_
  have left
      {stores : Stores}
      {evicted rest : List PhysicalBlob}
      (covered : Covered cache.addressing kept rest stores)
      (parts : groups = evicted ++ rest) :
      (counted → committedBytes (stores.charges cache.addressing kept) ≤
        saturatingSum (groups.map sizeBytes) -
          (evicted.map sizeBytes).sum) ∧
        (stores.keptKeys kept).card ≤ entries.length -
          (evicted.map fun group => group.keys.length).sum := by
    refine ⟨fun isCounted => committedBytes_le_of_evicted covered parts (known.1 isCounted), ?_⟩
    have count := covered.card_le
    rw [← known.2, parts, map_append, sum_append]
    omega
  dsimp only
  split
  next within =>
    refine Triple.pure fun stores held => ⟨held.1, _, _, within, ?_⟩
    have whole := @left stores [] groups held.2 rfl
    simpa using whole
  · refine bind (evictCommitted_covers kept shrinks withinLimits groups
      _ _) fun done => ?_
    cases done with
    | true =>
      refine Triple.pure fun stores held => ⟨held.1, ?_⟩
      obtain ⟨evicted, rest, parts, covered, within⟩ := held.2 rfl
      exact ⟨_, _, within, left covered parts⟩
    | false => exact Triple.throw fun _ held => held.1

theorem evictCommitted_keeps (withinLimits : Nat → Nat → Bool)
    (groups : List PhysicalBlob) (bytes objects : Nat) :
    Keeps holds (cache.evictCommitted withinLimits groups bytes objects) :=
  (evictCommitted_covers (fun _ => false) shrinks withinLimits groups bytes
    objects).consequence (fun _ held => ⟨held, fun _ _ _ never => by
      cases never⟩) (fun _ _ held => held.1) (fun _ _ => id)
    fun _ => id

theorem makeRoomWithin_keeps (entries : List CacheEntry)
    (withinLimits : Nat → Nat → Bool) (refusal : String) :
    Keeps holds (cache.makeRoomWithin entries withinLimits refusal) := by
  refine (Keeps.inspect _).bind fun groups => ?_
  dsimp only
  split
  · exact Keeps.pure _
  · refine (evictCommitted_keeps shrinks _ _ _ _).bind fun done => ?_
    cases done with
    | true => exact Keeps.pure _
    | false => exact Keeps.throw _

theorem makeRoom_keeps (entries : List CacheEntry)
    (incomingBytes incomingObjects maxBytes maxObjects : Nat) (refusal : String) :
    Keeps holds (cache.makeRoom entries incomingBytes incomingObjects maxBytes maxObjects
      refusal) := by
  rw [makeRoom_eq]
  exact makeRoomWithin_keeps shrinks entries _ refusal

theorem prepareCommit_keeps (owner : CacheOwner) (scopedKey : Str)
    (incomingBytes : Nat) : Keeps holds (cache.prepareCommit owner scopedKey incomingBytes) := by
  have lists : Keeps holds loadEntriesLru := keeps_look .index Stores.entriesLru
  refine Keeps.ite (Keeps.throw _) (Keeps.ite (Keeps.throw _) ?_)
  refine lists.bind fun entries => (makeRoom_keeps shrinks _ _ _ _ _ _).bind fun _ => ?_
  exact lists.bind fun _ => makeRoom_keeps shrinks _ _ _ _ _ _

end

end

end ContentCache

end Arclain.Cache
