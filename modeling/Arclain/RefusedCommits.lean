import Arclain.CommittedLimits

namespace Arclain.Cache

/-!
# Commits that are refused

A commit is refused at once when it is too large by itself.  Otherwise groups are evicted
until it fits.

Here every call works.
-/

open List FaultyCalls ContentCache Faulty

variable (cache : ContentCache)

/-- Rows that only lose, and only under some keys. -/
structure Thinned (keys : List Str) (stores after : Stores) : Prop where
  shrunk : ∀ key, after.rows.lookup key = none ∨ after.rows.lookup key = stores.rows.lookup key
  others : ∀ key, key ∉ keys → after.rows.lookup key = stores.rows.lookup key

theorem Thinned.refl (keys : List Str) (stores : Stores) : Thinned keys stores stores :=
  ⟨fun _ => .inr rfl, fun _ _ => rfl⟩

variable {keys : List Str}

theorem Thinned.trans {stores between after : Stores}
    (first : Thinned keys stores between) (second : Thinned keys between after) :
    Thinned keys stores after where
  shrunk key := by
    rcases second.shrunk key with gone | same
    · exact .inl gone
    · rw [same]
      exact first.shrunk key
  others key outside := (second.others key outside).trans (first.others key outside)

variable {stores after : Stores}

theorem Thinned.absent
    (thinned : Thinned keys stores after) {key : Str} (absent : stores.rows.lookup key = none) :
    after.rows.lookup key = none := by
  rcases thinned.shrunk key with gone | same
  · exact gone
  · rw [same, absent]

theorem deleteRows_run (keys : List Str) (stores : Stores) : ∃ after,
    deleteRows keys stores .allWork = .returned () after .allWork ∧
      Thinned keys stores after ∧ ∀ key ∈ keys, after.rows.lookup key = none := by
  induction keys generalizing stores with
  | nil => exact ⟨stores, rfl, .refl _ _, nofun⟩
  | cons key keys ih =>
    obtain ⟨after, run, thinned, gone⟩ := ih { stores with rows := stores.rows.erase key }
    have erased : after.rows.lookup key = none :=
      thinned.absent (by rw [KeyedMap.lookup_erase_ite, if_pos rfl])
    have deleted : deleteRow key stores .allWork = .returned (stores.rows.lookup key).isSome
        { stores with rows := stores.rows.erase key } .allWork :=
      perform_allWork _ _ _
    have erasedOne : (do
      let _ ← deleteRow key
      pure () : Program Unit) stores .allWork =
      .returned () { stores with rows := stores.rows.erase key } .allWork :=
      run_bind_of_returned deleted
    refine ⟨after, ?_, ⟨fun other => ?_, fun other outside => ?_⟩, ?_⟩
    · rw [← run]
      exact run_bind_of_returned erasedOne
    · by_cases same : other = key
      · exact .inl (same ▸ erased)
      · have shrunk := thinned.shrunk other
        rwa [KeyedMap.lookup_erase_ite, if_neg same] at shrunk
    · rw [mem_cons, not_or] at outside
      have kept := thinned.others other outside.2
      rwa [KeyedMap.lookup_erase_ite, if_neg outside.1] at kept
    · rw [forall_mem_cons]
      exact ⟨erased, gone⟩

theorem discard_run (digest : Addressing) (contentHash : Str) (stores : Stores) :
    ∃ after, discardBlobIfUnreferenced digest contentHash stores .allWork =
      .returned () after .allWork ∧ after.rows = stores.rows := by
  have looked : hasContentHash contentHash stores .allWork =
      .returned (stores.rows.entries.any fun entry => entry.2.contentHash = contentHash)
        stores .allWork :=
    perform_allWork _ _ _
  unfold discardBlobIfUnreferenced
  rw [run_bind_of_returned looked]
  split
  · exact ⟨stores, rfl, rfl⟩
  · unfold removePhysicalBlob
    split
    · exact ⟨_, perform_allWork _ _ _, rfl⟩
    · exact ⟨stores, rfl, rfl⟩

theorem evictCommitted_run (withinLimits : Nat → Nat → Bool) (groups : List PhysicalBlob)
    (bytes objects : Nat) (stores : Stores) :
    ∃ fits after, cache.evictCommitted withinLimits groups bytes objects stores .allWork =
      .returned fits after .allWork ∧ Thinned (groups.flatMap PhysicalBlob.keys) stores after ∧
        (fits = true → ∃ bytes objects, withinLimits bytes objects = true) ∧
        (fits = false → (∀ key ∈ groups.flatMap PhysicalBlob.keys, after.rows.lookup key = none) ∧
          (groups = [] ∨ withinLimits (bytes - (groups.map PhysicalBlob.sizeBytes).sum)
            (objects - (groups.map fun group => group.keys.length).sum) = false)) := by
  induction groups generalizing bytes objects stores with
  | nil =>
    refine ⟨false, stores, rfl, .refl _ _, fun never => (by cases never), fun _ => ?_⟩
    exact ⟨fun _ mem => (by cases mem), .inl rfl⟩
  | cons group groups ih =>
    obtain ⟨deleted, runDeletes, thinned, gone⟩ := deleteRows_run group.keys stores
    obtain ⟨discarded, runDiscard, sameRows⟩ :=
      discard_run cache.addressing group.contentHash deleted
    have widen {keys : List Str} {before after : Stores} (thinned : Thinned keys before after)
        (among : keys ⊆ (group :: groups).flatMap PhysicalBlob.keys) :
        Thinned ((group :: groups).flatMap PhysicalBlob.keys) before after :=
      ⟨thinned.shrunk, fun key outside => thinned.others key fun mem => outside (among mem)⟩
    have first : Thinned ((group :: groups).flatMap PhysicalBlob.keys) stores discarded := by
      refine (widen thinned (by simp)).trans ⟨fun key => .inr ?_, fun key _ => ?_⟩
      · rw [sameRows]
      · rw [sameRows]
    have firstGone : ∀ key ∈ group.keys, discarded.rows.lookup key = none := by
      rw [sameRows]
      exact gone
    unfold evictCommitted
    rw [run_bind_of_returned runDeletes, run_bind_of_returned runDiscard]
    split
    next within =>
      exact ⟨true, discarded, rfl, first, fun _ => ⟨_, _, within⟩, nofun⟩
    next exceeds =>
      obtain ⟨fits, after, run, rest, fitting, unfit⟩ :=
        ih (bytes - group.sizeBytes) (objects - group.keys.length) discarded
      refine ⟨fits, after, run, first.trans (widen rest (by simp)), fitting, fun never => ?_⟩
      obtain ⟨restGone, exhausted⟩ := unfit never
      constructor
      · intro key mem
        rw [flatMap_cons, mem_append] at mem
        rcases mem with own | other
        · exact rest.absent (firstGone key own)
        · exact restGone key other
      · refine .inr ?_
        rw [map_cons, sum_cons, map_cons, sum_cons, ← Nat.sub_sub, ← Nat.sub_sub]
        rcases exhausted with empty | exceeded
        · subst empty
          simpa using exceeds
        · exact exceeded

theorem mem_keys_physicalGroupsLru (digest : Addressing) (stores : Stores)
    (entries : List CacheEntry) (key : Str) :
    key ∈ (stores.physicalGroupsLru digest entries).flatMap PhysicalBlob.keys ↔
      key ∈ entries.map CacheEntry.key := by
  constructor
  · have among (groups : List PhysicalBlob) (mem :
        key ∈ (entries.foldl (stores.addToGroups digest) groups).flatMap PhysicalBlob.keys) :
        key ∈ groups.flatMap PhysicalBlob.keys ∨ key ∈ entries.map CacheEntry.key := by
      induction entries generalizing groups with
      | nil => exact .inl mem
      | cons entry entries ih =>
        rw [map_cons, mem_cons]
        rcases ih _ mem with earlier | later
        · obtain ⟨_, shape, -, origin⟩ := addToGroups_eq digest stores groups entry
          rw [shape, flatMap_append, mem_append, flatMap_singleton] at earlier
          rcases earlier with kept | isLast
          · obtain ⟨group, listed, own⟩ := mem_flatMap.mp kept
            exact .inl (mem_flatMap.mpr ⟨group, mem_of_mem_filter listed, own⟩)
          · rcases origin with ⟨-, -, only⟩ | ⟨first, listed, -, -, more⟩
            · rw [only, mem_singleton] at isLast
              exact .inr (.inl isLast)
            · rw [more, mem_append, mem_singleton] at isLast
              rcases isLast with own | isNew
              · exact .inl (mem_flatMap.mpr ⟨first, listed, own⟩)
              · exact .inr (.inl isNew)
        · exact .inr (.inr later)
    intro mem
    exact (among [] mem).resolve_left not_mem_nil
  · intro mem
    obtain ⟨entry, listed, rfl⟩ := mem_map.mp mem
    have tallies := @tallies_physicalGroupsLru digest stores entries
    obtain ⟨group, among, same⟩ := tallies.found entry listed
    exact mem_flatMap.mpr ⟨group, among, (tallies.covered entry listed group among same).1⟩

theorem makeRoomWithin_run {withinLimits : Nat → Nat → Bool}
    (monotone : ∀ bytes objects, withinLimits bytes objects = true → withinLimits 0 0 = true)
    (entries : List CacheEntry) (refusal : String) (stores : Stores) :
    ∃ after, Thinned (entries.map CacheEntry.key) stores after ∧ (entries = [] → after = stores) ∧
      if withinLimits 0 0 then
        cache.makeRoomWithin entries withinLimits refusal stores .allWork =
          .returned () after .allWork
      else
        cache.makeRoomWithin entries withinLimits refusal stores .allWork =
          .failed (.refused refusal.toList) after .allWork ∧
          ∀ key ∈ entries.map CacheEntry.key, after.rows.lookup key = none := by
  let groups := stores.physicalGroupsLru cache.addressing entries
  let bytes := saturatingSum (groups.map PhysicalBlob.sizeBytes)
  have grouped : (inspect fun stores => stores.physicalGroupsLru cache.addressing entries :
      Program _) stores .allWork = .returned groups stores .allWork :=
    rfl
  have objects := (@tallies_physicalGroupsLru cache.addressing stores entries).objects
  have keys := mem_keys_physicalGroupsLru cache.addressing stores entries
  obtain ⟨fits, after, run, thinned, fitting, unfit⟩ :=
    evictCommitted_run cache withinLimits groups bytes entries.length stores
  rw [makeRoomWithin, run_bind_of_returned grouped]
  by_cases within : withinLimits bytes entries.length = true
  · refine ⟨stores, .refl _ _, fun _ => rfl, ?_⟩
    rw [if_pos within, if_pos (monotone _ _ within)]
    rfl
  rw [if_neg within, run_bind_of_returned run]
  refine ⟨after, ⟨thinned.shrunk, fun key outside => thinned.others key ?_⟩, ?_, ?_⟩
  · exact fun mem => outside ((keys key).mp mem)
  · rintro rfl
    cases run
    rfl
  · cases fits with
    | true =>
      obtain ⟨bytes, objects, fit⟩ := fitting rfl
      rw [if_pos (monotone _ _ fit)]
      rfl
    | false =>
      obtain ⟨gone, exhausted⟩ := unfit rfl
      have nothing : ¬ withinLimits 0 0 = true := by
        rcases exhausted with empty | exceeded
        · have noEntries : entries.length = 0 := by
            rw [← objects]
            change (groups.map _).sum = 0
            rw [empty]
            rfl
          have noBytes : bytes = 0 := by
            change saturatingSum (groups.map _) = 0
            rw [empty]
            rfl
          rwa [noBytes, noEntries] at within
        · have noBytes : bytes - (groups.map PhysicalBlob.sizeBytes).sum = 0 := by
            have most := saturatingSum_eq (groups.map PhysicalBlob.sizeBytes)
            omega
          rw [noBytes, objects, Nat.sub_self] at exceeded
          rw [exceeded]
          exact Bool.false_ne_true
      rw [if_neg nothing]
      exact ⟨rfl, fun key mem => gone key ((keys key).mpr mem)⟩

/-! ## Refusals -/

variable (pending : List PendingCommit)

theorem withinCommitted_monotone
    (incomingBytes incomingObjects maxBytes maxObjects bytes objects : Nat)
    (within : withinCommitted pending incomingBytes incomingObjects maxBytes maxObjects
      bytes objects = true) :
    withinCommitted pending incomingBytes incomingObjects maxBytes maxObjects
      0 0 = true := by
  unfold withinCommitted saturatingAdd at within ⊢
  simp only [Bool.and_eq_true, decide_eq_true_eq] at within ⊢
  omega

section

variable (stores : Stores) (pending : List PendingCommit)

def leavesOwnerRoom (owner : CacheOwner)
    (scopedKey : Str) (incomingBytes : Nat) : Bool :=
  withinCommitted
    (pending.filter fun commit => commit.owner = owner ∧ commit.scopedKey ≠ scopedKey)
    incomingBytes (incomingObjects stores.entriesLru scopedKey)
    cache.limits.maxOwnerCommittedBytes cache.limits.maxOwnerCommittedObjects 0 0

def leavesGlobalRoom (scopedKey : Str)
    (incomingBytes : Nat) : Bool :=
  withinCommitted (pending.filter fun commit => commit.scopedKey ≠ scopedKey)
    incomingBytes (incomingObjects stores.entriesLru scopedKey)
    cache.limits.maxGlobalBytes cache.limits.maxGlobalCommittedObjects 0 0

def RefusalEvictsNothing (owner : CacheOwner)
    (scopedKey : Str) (incomingBytes : Nat) : Prop :=
  ∀ error after rest,
    cache.prepareCommitBeside pending owner scopedKey incomingBytes stores .allWork =
      .failed error after rest →
      after.rows = stores.rows ∧ after.blobs = stores.blobs

end

variable {scopedKey : Str}

theorem incomingObjects_of_same
    (same : after.rows.lookup scopedKey = stores.rows.lookup scopedKey) :
    incomingObjects after.entriesLru scopedKey =
      incomingObjects stores.entriesLru scopedKey := by
  have listed (stores : Stores) : (stores.entriesLru.any fun entry => entry.key = scopedKey) =
      (stores.rows.lookup scopedKey).isSome := by
    rw [Bool.eq_iff_iff, any_eq_true, Option.isSome_iff_exists]
    constructor
    · rintro ⟨entry, listed, same⟩
      obtain ⟨row, found, -⟩ := mem_entriesLru.mp listed
      exact ⟨row, of_decide_eq_true same ▸ found⟩
    · rintro ⟨row, found⟩
      exact ⟨row.entry scopedKey, mem_entriesLru.mpr ⟨row, found, rfl⟩, decide_eq_true rfl⟩
  rw [incomingObjects, incomingObjects, listed, listed, same]

theorem load_run (stores : Stores) :
    loadEntriesLru stores .allWork = .returned stores.entriesLru stores .allWork :=
  perform_allWork _ _ _

theorem ensureGlobalCommitted_run {stores between : Stores} (incomingBytes : Nat)
    (sameKey : between.rows.lookup scopedKey = stores.rows.lookup scopedKey) :
    ∃ after, ((∀ entry ∈ between.entriesLru, entry.key = scopedKey) → after = between) ∧
      if leavesGlobalRoom cache stores pending scopedKey incomingBytes then
        cache.ensureGlobalCommitted pending scopedKey incomingBytes between .allWork =
          .returned () after .allWork
      else
        (∃ error, cache.ensureGlobalCommitted pending scopedKey incomingBytes between .allWork =
          .failed error after .allWork) ∧
          ∀ key, key ≠ scopedKey → after.rows.lookup key = none := by
  obtain ⟨after, thinned, unevicted, run⟩ :=
    makeRoomWithin_run cache (withinCommitted_monotone
      (pending.filter fun commit => commit.scopedKey ≠ scopedKey)
      incomingBytes (incomingObjects between.entriesLru scopedKey)
      cache.limits.maxGlobalBytes cache.limits.maxGlobalCommittedObjects)
      (between.entriesLru.filter fun entry => entry.key ≠ scopedKey)
      "cache global committed byte or object quota exceeded" between
  have ensures : cache.ensureGlobalCommitted pending scopedKey incomingBytes between .allWork =
      cache.makeRoomWithin (between.entriesLru.filter fun entry => entry.key ≠ scopedKey)
        (withinCommitted (pending.filter fun commit => commit.scopedKey ≠ scopedKey)
          incomingBytes (incomingObjects between.entriesLru scopedKey)
          cache.limits.maxGlobalBytes cache.limits.maxGlobalCommittedObjects)
        "cache global committed byte or object quota exceeded" between .allWork :=
    run_bind_of_returned (load_run between)
  rw [← ensures, incomingObjects_of_same sameKey] at run
  refine ⟨after, fun only => ?_, ?_⟩
  · exact unevicted (filter_eq_nil_iff.mpr fun entry listed among =>
      of_decide_eq_true among (only entry listed))
  by_cases room : leavesGlobalRoom cache stores pending scopedKey incomingBytes = true
  · rw [if_pos room]
    rw [leavesGlobalRoom] at room
    rwa [if_pos room] at run
  · rw [if_neg room]
    rw [leavesGlobalRoom] at room
    rw [if_neg room] at run
    refine ⟨⟨_, run.1⟩, fun key other => ?_⟩
    cases found : between.rows.lookup key with
    | none => exact thinned.absent found
    | some row =>
      refine run.2 key (mem_map.mpr ⟨row.entry key, ?_, rfl⟩)
      exact mem_filter.mpr ⟨mem_entriesLru.mpr ⟨row, found, rfl⟩, decide_eq_true other⟩

theorem not_kept_of_gone {entry : CacheEntry}
    (listed : entry ∈ stores.entriesLru) (gone : after.rows.lookup entry.key = none) :
    ¬ (after.rows = stores.rows ∧ after.blobs = stores.blobs) := by
  rintro ⟨same, -⟩
  obtain ⟨_, found, -⟩ := mem_entriesLru.mp listed
  rw [same, found] at gone
  cases gone

/-- A refusal evicts nothing exactly when the commit is refused at once, or fits beside what
is pending, or nothing can be evicted. -/
theorem refusal_evicts_nothing_iff (stores : Stores) (pending : List PendingCommit)
    (owner : CacheOwner) (scopedKey : Str) (incomingBytes : Nat) :
    RefusalEvictsNothing cache stores pending owner scopedKey incomingBytes ↔
      cache.limits.maxObjectBytes < incomingBytes ∨
        cache.limits.maxOwnerCommittedBytes < incomingBytes ∨
        if leavesOwnerRoom cache stores pending owner scopedKey incomingBytes then
          leavesGlobalRoom cache stores pending scopedKey incomingBytes = true ∨
            ∀ entry ∈ stores.entriesLru, entry.key = scopedKey
        else
          ∀ entry ∈ stores.entriesLru, entryOwner entry.key = owner → entry.key = scopedKey := by
  have failsAs {error : CacheError} {after : Stores}
      (run : cache.prepareCommitBeside pending owner scopedKey incomingBytes stores .allWork =
        .failed error after .allWork) :
      RefusalEvictsNothing cache stores pending owner scopedKey incomingBytes ↔
        after.rows = stores.rows ∧ after.blobs = stores.blobs := by
    refine ⟨fun kept => kept _ _ _ run, fun kept error other rest ended => ?_⟩
    rw [run] at ended
    cases ended
    exact kept
  have prepares :=
    congrFun (congrFun (prepareCommitBeside.eq_1 cache pending owner scopedKey
      incomingBytes) stores) .allWork
  by_cases tooLarge : cache.limits.maxObjectBytes < incomingBytes
  · rw [if_pos tooLarge] at prepares
    exact iff_of_true ((failsAs prepares).mpr ⟨rfl, rfl⟩) (.inl tooLarge)
  by_cases tooLargeForOwner : cache.limits.maxOwnerCommittedBytes < incomingBytes
  · rw [if_neg tooLarge, if_pos tooLargeForOwner] at prepares
    exact iff_of_true ((failsAs prepares).mpr ⟨rfl, rfl⟩) (.inr (.inl tooLargeForOwner))
  rw [or_iff_right tooLarge, or_iff_right tooLargeForOwner]
  rw [if_neg tooLarge, if_neg tooLargeForOwner,
    Faulty.run_bind_of_returned (load_run stores)] at prepares
  obtain ⟨between, thinned, untouched, ownerRun⟩ :=
    makeRoomWithin_run cache (withinCommitted_monotone
      (pending.filter fun commit => commit.owner = owner ∧ commit.scopedKey ≠ scopedKey)
      incomingBytes (incomingObjects stores.entriesLru scopedKey)
      cache.limits.maxOwnerCommittedBytes cache.limits.maxOwnerCommittedObjects)
      (stores.entriesLru.filter fun entry => entry.key ≠ scopedKey ∧ entryOwner entry.key = owner)
      "cache owner committed byte or object quota exceeded" stores
  by_cases ownerRoom : leavesOwnerRoom cache stores pending owner scopedKey incomingBytes = true
  · rw [leavesOwnerRoom] at ownerRoom
    rw [if_pos ownerRoom] at ownerRun
    rw [run_bind_of_returned ownerRun] at prepares
    have sameKey : between.rows.lookup scopedKey = stores.rows.lookup scopedKey :=
      thinned.others scopedKey fun among => by
        obtain ⟨entry, listed, same⟩ := mem_map.mp among
        exact (of_decide_eq_true (mem_filter.mp listed).2).1 same
    obtain ⟨after, unevicted, globalRun⟩ :=
      ensureGlobalCommitted_run cache pending incomingBytes sameKey
    rw [leavesOwnerRoom, if_pos ownerRoom]
    by_cases globalRoom : leavesGlobalRoom cache stores pending scopedKey incomingBytes = true
    · refine iff_of_true (fun error other rest ended => ?_) (.inl globalRoom)
      rw [if_pos globalRoom] at globalRun
      rw [prepares, run_bind_of_returned globalRun] at ended
      cases ended
    · rw [or_iff_right globalRoom]
      rw [if_neg globalRoom] at globalRun
      obtain ⟨⟨error, fails⟩, gone⟩ := globalRun
      rw [failsAs (prepares.trans (run_bind_of_failed fails))]
      constructor
      · intro kept entry listed
        by_contra other
        exact not_kept_of_gone listed (gone entry.key other) kept
      · intro only
        obtain rfl : between = stores :=
          untouched (filter_eq_nil_iff.mpr fun entry listed among =>
            (of_decide_eq_true among).1 (only entry listed))
        rw [unevicted only]
        exact ⟨rfl, rfl⟩
  · rw [if_neg ownerRoom]
    rw [leavesOwnerRoom] at ownerRoom
    rw [if_neg ownerRoom] at ownerRun
    obtain ⟨fails, gone⟩ := ownerRun
    rw [failsAs (prepares.trans (run_bind_of_failed fails))]
    constructor
    · intro kept entry listed own
      by_contra other
      refine not_kept_of_gone listed (gone _ (mem_map_of_mem ?_)) kept
      exact mem_filter.mpr ⟨listed, decide_eq_true ⟨other, own⟩⟩
    · intro none
      rw [untouched (filter_eq_nil_iff.mpr fun entry listed among => ?_)]
      · exact ⟨rfl, rfl⟩
      · obtain ⟨other, own⟩ := of_decide_eq_true among
        exact other (none entry listed own)

section

open PutSystem

def sixtyFourBytes : ContentCache :=
  { twoObjects with
    limits := { twoObjects.limits with
      maxObjectBytes := 64
      maxOwnerCommittedObjects := 8
      maxGlobalCommittedObjects := 8 } }

/-- The host puts forty bytes while one byte is stored. -/
def largePut : OwnerPut := { hostPut 'b' 2 1 with data := List.replicate 40 2 }

/-- While the put is pending, another of its size is refused and evicts the byte. -/
theorem refused_beside_pending :
    ¬ ∀ (cache : ContentCache) (actions : List Action) (system : PutSystem),
      ActionRun.run (step cache) (initial roomyDisk) actions = some system →
        ∀ owner scopedKey incomingBytes,
          RefusalEvictsNothing cache system.stores system.pending owner scopedKey
            incomingBytes := by
  intro always
  let actions := wholePut (hostPut 'a' 1 0) 1 ++ .start largePut :: parts largePut 2 4
  let secondKey := (hostPut 'c' 3 2).scopedKey
  have refuses : (ActionRun.run (step sixtyFourBytes) (initial roomyDisk) actions).map
      (fun system =>
        let ending := sixtyFourBytes.prepareCommitBeside system.pending .host secondKey 40
          system.stores .allWork
        (system.stores.rows.keys.length, ending.hasFailed, ending.state.rows.keys.length)) =
        some (1, true, 0) := by
    decide +kernel
  obtain ⟨system, ran, outcome⟩ := Option.map_eq_some_iff.mp refuses
  obtain ⟨one, rest⟩ := Prod.mk.inj outcome
  obtain ⟨failed, evicted⟩ := Prod.mk.inj rest
  have kept := always sixtyFourBytes actions system ran .host secondKey 40
  cases ended : sixtyFourBytes.prepareCommitBeside system.pending .host secondKey 40
      system.stores .allWork with
  | failed error after rest =>
    rw [ended] at evicted
    change after.rows.keys.length = 0 at evicted
    rw [(kept error after rest ended).1, one] at evicted
    cases evicted
  | returned | crashed =>
    rw [ended] at failed
    cases failed

end

end Arclain.Cache
