import Arclain.CacheShrinking
import Arclain.LabelledWeight

namespace Arclain.Cache

/-!
# What the index costs

Every row is charged with the bytes of its blob, and rows of one blob share its charge.  The
groups that the eviction loops go through add up to these charges.
-/

open KeyedMap List FaultyCalls Text LabelledWeight PhysicalBlob Stores

/-- `u64::MAX`, which is also `usize::MAX` on 64-bit targets. -/
def u64Max : Nat := 2 ^ 64 - 1

theorem saturatingSum_eq (numbers : List Nat) : saturatingSum numbers = min numbers.sum u64Max := by
  have folded (start : Nat) (rest : List Nat) : rest.foldl saturatingAdd (min start u64Max) =
      min (start + rest.sum) u64Max := by
    induction rest generalizing start with
    | nil => rw [foldl_nil, sum_nil, Nat.add_zero]
    | cons number rest ih =>
      have step : saturatingAdd (min start u64Max) number = min (start + number) u64Max := by
        unfold saturatingAdd u64Max
        omega
      rw [foldl_cons, step, ih, sum_cons, Nat.add_assoc]
  have summed := folded 0 numbers
  rwa [Nat.zero_min, Nat.zero_add] at summed

theorem add_le_of_saturatingAdd_le {first second limit : Nat}
    (within : saturatingAdd first second ≤ limit) (exact : limit < u64Max) :
    first + second ≤ limit := by
  unfold saturatingAdd at within
  unfold u64Max at exact
  omega

theorem sum_eq_of_saturatingSum_lt {numbers : List Nat} (exact : saturatingSum numbers < u64Max) :
    saturatingSum numbers = numbers.sum := by
  rw [saturatingSum_eq] at exact ⊢
  omega

structure Charge where
  key : Str
  contentHash : Str
  bytes : Nat
  deriving DecidableEq

def committedBytes (charges : Finset Charge) : Nat :=
  total Charge.contentHash Charge.bytes charges

section

variable (digest : Addressing)

def Stores.charge (stores : Stores) (entry : CacheEntry) : Charge where
  key := entry.key
  contentHash := entry.contentHash
  bytes := stores.physicalBlobSize digest entry

def Row.entry (row : Row) (key : Str) : CacheEntry where
  key := key
  contentHash := row.contentHash
  sizeBytes := row.sizeBytes

def Stores.keptEntries (stores : Stores) (kept : Str → Bool) : List CacheEntry :=
  stores.entriesLru.filter fun entry => kept entry.key

def everyKey : Str → Bool := fun _ => true

def Stores.charges (stores : Stores) (kept : Str → Bool) : Finset Charge :=
  ((stores.keptEntries kept).map (stores.charge digest)).toFinset

def Stores.keptKeys (stores : Stores) (kept : Str → Bool) : Finset Str :=
  (stores.rows.keys.filter kept).toFinset

variable {digest} {stores : Stores} {entry : CacheEntry}

theorem mem_entriesLru : entry ∈ stores.entriesLru ↔
    ∃ row, stores.rows.lookup entry.key = some row ∧ entry = row.entry entry.key := by
  unfold entriesLru
  constructor
  · intro listed
    obtain ⟨⟨_, row⟩, mem, rfl⟩ := mem_map.mp listed
    exact ⟨row, lookup_eq_some_iff_mem.mpr ((mem_insertionSort _).mp mem), rfl⟩
  · rintro ⟨row, found, same⟩
    refine mem_map.mpr ⟨⟨entry.key, row⟩, ?_, same.symm⟩
    exact (mem_insertionSort _).mpr (lookup_eq_some_iff_mem.mp found)

theorem keptEntries_everyKey (stores : Stores) : stores.keptEntries everyKey = stores.entriesLru :=
  filter_eq_self.mpr fun _ _ => rfl

variable {kept : Str → Bool}

theorem mem_charges {charge : Charge} : charge ∈ stores.charges digest kept ↔
      ∃ key row, stores.rows.lookup key = some row ∧ kept key = true ∧
        charge = stores.charge digest (row.entry key) := by
  unfold charges
  rw [mem_toFinset, mem_map]
  constructor
  · rintro ⟨entry, listed, rfl⟩
    obtain ⟨mem, keeps⟩ := mem_filter.mp listed
    obtain ⟨row, found, same⟩ := mem_entriesLru.mp mem
    exact ⟨entry.key, row, found, keeps, congrArg _ same⟩
  · rintro ⟨key, row, found, keeps, rfl⟩
    refine ⟨row.entry key, mem_filter.mpr ⟨?_, keeps⟩, rfl⟩
    exact mem_entriesLru.mpr ⟨row, found, rfl⟩

theorem mem_keptKeys {key : Str} : key ∈ stores.keptKeys kept ↔
    (∃ row, stores.rows.lookup key = some row) ∧ kept key = true := by
  unfold keptKeys
  rw [mem_toFinset, mem_filter, ← AList.mem_keys]
  rw [← AList.lookup_isSome, Option.isSome_iff_exists]

theorem physicalBlobSize_eraseBlob {contentHash : Str}
    (different : entry.contentHash ≠ contentHash) : physicalBlobSize digest
      { stores with blobs := stores.blobs.erase contentHash } entry =
      stores.physicalBlobSize digest entry := by
  unfold physicalBlobSize blobAt
  rw [lookup_erase_ite, if_neg different]

end

section

variable {digest : Addressing}

structure Tallies (digest : Addressing) (stores : Stores) (entries : List CacheEntry)
    (groups : List PhysicalBlob) : Prop where
  found : ∀ entry ∈ entries, ∃ group ∈ groups, group.contentHash = entry.contentHash
  covered : ∀ entry ∈ entries, ∀ group ∈ groups,
    group.contentHash = entry.contentHash → entry.key ∈ group.keys ∧
      stores.physicalBlobSize digest entry ≤ group.sizeBytes
  distinct : (groups.map contentHash).Nodup
  attained : ∀ group ∈ groups, ∃ entry ∈ entries, entry.contentHash = group.contentHash ∧
    stores.physicalBlobSize digest entry = group.sizeBytes
  objects : (groups.map fun group => group.keys.length).sum = entries.length

variable {groups : List PhysicalBlob}

theorem sum_groups_eq {first : PhysicalBlob}
    (distinct : (groups.map contentHash).Nodup) (mem : first ∈ groups)
    (measure : PhysicalBlob → Nat) :
    (groups.map measure).sum = measure first + ((groups.filter fun group =>
      group.contentHash ≠ first.contentHash).map measure).sum := by
  induction groups with
  | nil => cases mem
  | cons group groups ih =>
    obtain ⟨fresh, distinctRest⟩ := nodup_cons.mp distinct
    rcases mem_cons.mp mem with rfl | later
    · have kept : (groups.filter fun group =>
        group.contentHash ≠ first.contentHash) = groups := by
        refine filter_eq_self.mpr fun other among => ?_
        refine decide_eq_true fun same => fresh ?_
        exact mem_map.mpr ⟨other, among, same⟩
      rw [filter_cons_of_neg (by simp), kept, map_cons, sum_cons]
    · have different : group.contentHash ≠ first.contentHash := fun same =>
        fresh (mem_map.mpr ⟨first, later, same.symm⟩)
      rw [filter_cons_of_pos (by simpa using different), map_cons,
        sum_cons, map_cons, sum_cons, ih distinctRest later]
      omega

theorem addToGroups_eq (digest : Addressing) (stores : Stores) (groups : List PhysicalBlob)
    (entry : CacheEntry) : ∃ last, stores.addToGroups digest groups entry =
      groups.filter (fun group => group.contentHash ≠ entry.contentHash) ++ [last] ∧
        last.contentHash = entry.contentHash ∧
        (((∀ group ∈ groups, group.contentHash ≠ entry.contentHash) ∧
          last.sizeBytes = stores.physicalBlobSize digest entry ∧ last.keys = [entry.key]) ∨
          ∃ first ∈ groups, first.contentHash = entry.contentHash ∧ last.sizeBytes =
            max first.sizeBytes (stores.physicalBlobSize digest entry) ∧
            last.keys = first.keys ++ [entry.key]) := by
  unfold addToGroups
  cases present : groups.find? fun group => group.contentHash = entry.contentHash with
  | some first =>
    have isFirst : first.contentHash = entry.contentHash := by simpa using List.find?_some present
    exact ⟨_, rfl, isFirst, .inr ⟨first, mem_of_find?_eq_some present, isFirst, rfl, rfl⟩⟩
  | none =>
    have absent (group : PhysicalBlob) (mem : group ∈ groups) :
        group.contentHash ≠ entry.contentHash := by
      simpa using List.find?_eq_none.mp present group mem
    have kept : (groups.filter fun group =>
      group.contentHash ≠ entry.contentHash) = groups :=
      filter_eq_self.mpr fun group mem => decide_eq_true (absent group mem)
    refine ⟨⟨entry.contentHash, stores.physicalBlobSize digest entry,
      [entry.key]⟩, ?_, rfl, .inl ⟨absent, rfl, rfl⟩⟩
    rw [kept]

theorem Tallies.addToGroups {stores : Stores} {entries : List CacheEntry}
    (tallies : Tallies digest stores entries groups)
    (entry : CacheEntry) : Tallies digest stores (entries ++ [entry])
      (stores.addToGroups digest groups entry) := by
  obtain ⟨last, shape, lastHash, origin⟩ := addToGroups_eq digest stores groups entry
  rw [shape]
  have isOther (group : PhysicalBlob) (mem : group ∈ groups.filter fun group =>
    group.contentHash ≠ entry.contentHash) :
      group ∈ groups ∧ group.contentHash ≠ entry.contentHash := by
    obtain ⟨listed, other⟩ := mem_filter.mp mem
    exact ⟨listed, of_decide_eq_true other⟩
  have own : entry.key ∈ last.keys ∧ stores.physicalBlobSize digest entry ≤ last.sizeBytes := by
    rcases origin with ⟨-, size, only⟩ | ⟨first, -, -, size, more⟩
    · exact ⟨by simp [only], size.ge⟩
    · exact ⟨by simp [more], size ▸ le_max_right _ _⟩
  refine ⟨?_, ?_, ?_, ?_, ?_⟩
  · intro other counted
    by_cases same : other.contentHash = entry.contentHash
    · exact ⟨last, by simp, lastHash.trans same.symm⟩
    · rcases mem_append.mp counted with earlier | isNew
      · obtain ⟨group, mem, equal⟩ := tallies.found other earlier
        refine ⟨group, mem_append_left _ ?_, equal⟩
        refine mem_filter.mpr ⟨mem, decide_eq_true fun isOwn => ?_⟩
        exact same (equal.symm.trans isOwn)
      · rw [mem_singleton.mp isNew] at same
        exact absurd rfl same
  · intro other counted group among same
    rcases mem_append.mp among with kept | isLast
    · obtain ⟨mem, differs⟩ := isOther group kept
      rcases mem_append.mp counted with earlier | isNew
      · exact tallies.covered other earlier group mem same
      · rw [mem_singleton.mp isNew] at same
        exact absurd same differs
    · rw [mem_singleton.mp isLast] at same ⊢
      rcases mem_append.mp counted with earlier | isNew
      · rcases origin with
          ⟨absent, -, -⟩ | ⟨first, mem, firstHash, larger, more⟩
        · obtain ⟨known, mem, equal⟩ := tallies.found other earlier
          exact absurd (equal.trans (same.symm.trans lastHash)) (absent known mem)
        · have before := tallies.covered other earlier first mem
            (by rw [firstHash, ← lastHash, same])
          rw [larger, more]
          exact ⟨mem_append_left _ before.1, le_max_of_le_left before.2⟩
      · rw [mem_singleton.mp isNew]
        exact own
  · rw [map_append, map_singleton]
    refine nodup_append.mpr ⟨?_, nodup_singleton _, ?_⟩
    · exact tallies.distinct.sublist (filter_sublist.map _)
    · intro _ among other isLast
      obtain ⟨group, mem, rfl⟩ := mem_map.mp among
      rw [mem_singleton.mp isLast, lastHash]
      exact (isOther group mem).2
  · intro group among
    rcases mem_append.mp among with kept | isLast
    · obtain ⟨found, mem, same, exact⟩ := tallies.attained group (isOther group kept).1
      exact ⟨found, mem_append_left _ mem, same, exact⟩
    · rw [mem_singleton.mp isLast]
      have listed : entry ∈ entries ++ [entry] := by simp
      rcases origin with ⟨-, only, -⟩ | ⟨first, mem, firstHash, larger, -⟩
      · exact ⟨entry, listed, lastHash.symm, only.symm⟩
      · rcases max_choice first.sizeBytes
          (stores.physicalBlobSize digest entry) with old | isNew
        · obtain ⟨found, counted, same, exact⟩ := tallies.attained first mem
          refine ⟨found, mem_append_left _ counted, ?_, ?_⟩
          · rw [same, firstHash, lastHash]
          · rw [exact, larger, old]
        · exact ⟨entry, listed, lastHash.symm, by rw [larger, isNew]⟩
  · rw [map_append, sum_append, length_append, ← tallies.objects]
    rcases origin with ⟨absent, -, only⟩ | ⟨first, mem, firstHash, -, more⟩
    · have kept : (groups.filter fun group =>
        group.contentHash ≠ entry.contentHash) = groups :=
        filter_eq_self.mpr fun group mem => decide_eq_true (absent group mem)
      rw [kept]
      simp [only]
    · have apart := sum_groups_eq tallies.distinct mem fun group => group.keys.length
      rw [firstHash] at apart
      rw [apart, map_singleton, sum_singleton, more, length_append,
        length_singleton, length_singleton]
      omega

theorem tallies_physicalGroupsLru (stores : Stores) (entries : List CacheEntry) :
    Tallies digest stores entries (stores.physicalGroupsLru digest entries) := by
  have tallied (earlier rest : List CacheEntry) (groups : List PhysicalBlob)
      (tallies : Tallies digest stores earlier groups) :
      Tallies digest stores (earlier ++ rest)
        (rest.foldl (stores.addToGroups digest) groups) := by
    induction rest generalizing earlier groups with
    | nil =>
      rw [append_nil]
      exact tallies
    | cons entry rest ih =>
      have later := ih (earlier ++ [entry]) _ (tallies.addToGroups entry)
      rw [append_assoc] at later
      exact later
  refine tallied [] entries [] ⟨?_, ?_, nodup_nil, ?_, rfl⟩
  · intro entry mem
    cases mem
  · intro entry mem
    cases mem
  · intro _ mem
    cases mem

end

section

variable {digest : Addressing} {kept : Str → Bool}

theorem shrinks_of_charges {property : Finset Charge → Prop} (antitone :
    ∀ fewer more, fewer ⊆ more → property more → property fewer) :
    Shrinks fun stores => property (stores.charges digest kept) where
  eraseRow stores key held := by
    refine antitone _ _ ?_ held
    intro charge mem
    obtain ⟨other, row, found, keeps, rfl⟩ := mem_charges.mp mem
    replace found := lookup_of_erase found
    exact mem_charges.mpr ⟨other, row, found, keeps, rfl⟩
  eraseBlob stores contentHash held unreferenced := by
    refine antitone _ _ ?_ held
    intro charge mem
    obtain ⟨key, row, found, keeps, rfl⟩ := mem_charges.mp mem
    refine mem_charges.mpr ⟨key, row, found, keeps, ?_⟩
    unfold charge
    rw [physicalBlobSize_eraseBlob (unreferenced key row found)]
  answers _ _ held := held

theorem shrinks_of_keptKeys {property : Finset Str → Prop} (antitone :
    ∀ fewer more, fewer ⊆ more → property more → property fewer) :
    Shrinks fun stores => property (stores.keptKeys kept) where
  eraseRow stores key held := by
    refine antitone _ _ ?_ held
    intro _ mem
    obtain ⟨⟨row, found⟩, keeps⟩ := mem_keptKeys.mp mem
    replace found := lookup_of_erase found
    exact mem_keptKeys.mpr ⟨⟨row, found⟩, keeps⟩
  eraseBlob _ _ held _ := held
  answers _ _ held := held

/-- Every kept row belongs to groups that have its key and weigh no less than its blob. -/
def Covered (digest : Addressing) (kept : Str → Bool) (groups : List PhysicalBlob)
    (stores : Stores) : Prop :=
  ∀ key row, stores.rows.lookup key = some row → kept key = true →
    (∃ group ∈ groups, group.contentHash = row.contentHash) ∧
      ∀ group ∈ groups, group.contentHash = row.contentHash → key ∈ group.keys ∧
        stores.physicalBlobSize digest (row.entry key) ≤ group.sizeBytes

variable {stores : Stores}

theorem covered_of_listed {entries : List CacheEntry} (listed :
    ∀ key row, stores.rows.lookup key = some row → kept key = true → row.entry key ∈ entries) :
    Covered digest kept (stores.physicalGroupsLru digest entries) stores := by
  intro key row found keeps
  have mem := listed key row found keeps
  have tallies : Tallies digest stores entries _ := tallies_physicalGroupsLru stores entries
  exact ⟨tallies.found _ mem, tallies.covered _ mem⟩

theorem covered_physicalGroupsLru (stores : Stores) : Covered digest kept
    (stores.physicalGroupsLru digest (stores.keptEntries kept)) stores :=
  covered_of_listed fun _ row found keeps =>
    mem_filter.mpr ⟨mem_entriesLru.mpr ⟨row, found, rfl⟩, keeps⟩

theorem Covered.shrinks {groups : List PhysicalBlob} :
    Shrinks (Covered digest kept groups) where
  eraseRow stores key covered := by
    intro other row found keeps
    replace found := lookup_of_erase found
    exact covered other row found keeps
  eraseBlob stores contentHash covered unreferenced := by
    intro key row found keeps
    rw [physicalBlobSize_eraseBlob (unreferenced key row found)]
    exact covered key row found keeps
  answers _ _ covered := covered

variable {groups : List PhysicalBlob}

theorem Covered.tail {group : PhysicalBlob}
    (covered : Covered digest kept (group :: groups) stores)
    (gone : ∀ key ∈ group.keys, stores.rows.lookup key = none) :
    Covered digest kept groups stores := by
  intro key row found keeps
  obtain ⟨⟨first, mem, same⟩, each⟩ := covered key row found keeps
  have later : first ∈ groups := by
    rcases mem_cons.mp mem with rfl | later
    · have absent := gone key (each first mem same).1
      rw [found] at absent
      cases absent
    · exact later
  exact ⟨⟨first, later, same⟩, fun other among => each other (mem_cons_of_mem _ among)⟩

theorem Covered.committedBytes_le (covered : Covered digest kept groups stores) :
    committedBytes (stores.charges digest kept) ≤ (groups.map sizeBytes).sum := by
  have weighed : committedBytes (stores.charges digest kept) ≤ ((groups.map fun group =>
    (group.contentHash, group.sizeBytes)).map Prod.snd).sum := by
    refine total_le_of_covered ?_ ?_
    · intro charge mem
      obtain ⟨key, row, found, keeps, rfl⟩ := mem_charges.mp mem
      obtain ⟨group, among, same⟩ := (covered key row found keeps).1
      exact ⟨_, mem_map.mpr ⟨group, among, rfl⟩, same⟩
    · intro charge mem _ listed same
      obtain ⟨key, row, found, keeps, rfl⟩ := mem_charges.mp mem
      obtain ⟨group, among, rfl⟩ := mem_map.mp listed
      exact ((covered key row found keeps).2 group among same).2
  rwa [map_map] at weighed

theorem Covered.card_le (covered : Covered digest kept groups stores) :
    (stores.keptKeys kept).card ≤ (groups.map fun group => group.keys.length).sum := by
  have listed : stores.keptKeys kept ⊆ (groups.flatMap PhysicalBlob.keys).toFinset := by
    intro key mem
    obtain ⟨⟨row, found⟩, keeps⟩ := mem_keptKeys.mp mem
    obtain ⟨⟨group, among, same⟩, each⟩ := covered key row found keeps
    exact mem_toFinset.mpr (mem_flatMap.mpr ⟨group, among, (each group among same).1⟩)
  calc
    (stores.keptKeys kept).card ≤ (groups.flatMap PhysicalBlob.keys).toFinset.card :=
      Finset.card_le_card listed
    _ ≤ (groups.flatMap PhysicalBlob.keys).length := toFinset_card_le _
    _ = (groups.map fun group => group.keys.length).sum := by rw [length_flatMap]

theorem sum_physicalGroupsLru_le (stores : Stores) :
    ((stores.physicalGroupsLru digest (stores.keptEntries kept)).map
      sizeBytes).sum ≤ committedBytes (stores.charges digest kept) := by
  have tallies : Tallies digest stores (stores.keptEntries kept) _ :=
    tallies_physicalGroupsLru stores (stores.keptEntries kept)
  have weighed : (((stores.physicalGroupsLru digest (stores.keptEntries kept)).map
      fun group => (group.contentHash, group.sizeBytes)).map Prod.snd).sum ≤
        committedBytes (stores.charges digest kept) := by
    refine sum_le_total ?_ ?_
    · rw [map_map]
      exact tallies.distinct
    · intro _ listed
      obtain ⟨group, among, rfl⟩ := mem_map.mp listed
      obtain ⟨entry, mem, same, size⟩ := tallies.attained group among
      have charged : stores.charge digest entry ∈ stores.charges digest kept :=
        mem_toFinset.mpr (mem_map.mpr ⟨entry, mem, rfl⟩)
      refine ⟨Finset.mem_image.mpr ⟨_, charged, same⟩, ?_⟩
      have heaviest : (stores.charge digest entry).bytes ≤
          weightOf Charge.contentHash Charge.bytes
            (stores.charges digest kept) entry.contentHash :=
        le_weightOf charged
      rw [same] at heaviest
      exact size.ge.trans heaviest
  rwa [map_map] at weighed

end

end Arclain.Cache
