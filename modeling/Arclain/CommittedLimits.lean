import Arclain.CommitAdmissions

namespace Arclain.Cache

/-!
# The committed limits while puts run side by side

An admission stands for the row that its put will write.  However the admitted puts land,
the limits hold, as long as a commit admitted as a replacement finds the row it replaces.

A limit of `u64::MAX` is no limit, since the counters are saturated there.
-/

open KeyedMap List Option FaultyCalls Text ActionRun ContentCache Bool

/-- What a limit is about: all rows, or those of one owner. -/
inductive Scope where
  | everyone
  | owned (owner : CacheOwner)

namespace Scope

def includes : Scope → CacheOwner → Bool
  | everyone, _ => true
  | owned owner, other => decide (other = owner)

def keeps (scope : Scope) (key : Str) : Bool := scope.includes (entryOwner key)

def besides (scope : Scope) (others : Str → Bool) (key : Str) : Bool :=
  scope.keeps key && !others key

end Scope

def CacheLimits.maxBytes (limits : CacheLimits) : Scope → Nat
  | .everyone => limits.maxGlobalBytes
  | .owned _ => limits.maxOwnerCommittedBytes

def CacheLimits.maxObjects (limits : CacheLimits) : Scope → Nat
  | .everyone => limits.maxGlobalCommittedObjects
  | .owned _ => limits.maxOwnerCommittedObjects

/-- The rows and their blobs are within each limit. -/
structure WithinCommittedLimits (cache : ContentCache) (stores : Stores) : Prop where
  bytes : ∀ scope, cache.limits.maxBytes scope < u64Max →
    committedBytes (stores.charges cache.addressing scope.keeps) ≤ cache.limits.maxBytes scope
  objects : ∀ scope, cache.limits.maxObjects scope < u64Max →
    (stores.keptKeys scope.keeps).card ≤ cache.limits.maxObjects scope

/-- The rows have their blobs, and the blobs are under their own addresses. -/
structure Consistent (digest : Addressing) (stores : Stores) : Prop where
  present : ∀ key row, stores.rows.lookup key = some row →
    digest.isIntegrity row.contentHash = true →
      ∃ bytes, stores.blobs.lookup row.contentHash = some bytes
  own : ∀ address bytes, stores.blobs.lookup address = some bytes →
    digest.address bytes = address

section

section

variable (pending : List PendingCommit) (scope : Scope)

/-- The bytes of the pending commits of a scope under some keys. -/
def bytesAmong (landing : Str → Bool) : Nat :=
  ((pending.filter fun commit =>
    scope.includes commit.owner && landing commit.scopedKey).map PendingCommit.bytes).sum

def newKeys : Finset Str :=
  ((pending.filter fun commit =>
    scope.includes commit.owner && decide (commit.objects ≠ 0)).map
      PendingCommit.scopedKey).toFinset

def othersAmong (scopedKey : Str) : List PendingCommit :=
  pending.filter fun commit => scope.includes commit.owner && decide (commit.scopedKey ≠ scopedKey)

end

theorem bytesAmong_sublist {fewer more : List PendingCommit} (sublist : fewer.Sublist more)
    (scope : Scope) (landing : Str → Bool) :
    bytesAmong fewer scope landing ≤ bytesAmong more scope landing :=
  List.Sublist.sum_le_sum ((sublist.filter _).map _) fun _ _ => Nat.zero_le _

theorem newKeys_sublist {fewer more : List PendingCommit} (sublist : fewer.Sublist more)
    (scope : Scope) : newKeys fewer scope ⊆ newKeys more scope := by
  intro _ mem
  have listed := mem_toFinset.mp mem
  exact mem_toFinset.mpr (((sublist.filter _).map _).subset listed)

theorem bytesAmong_cons (commit : PendingCommit) (pending : List PendingCommit) (scope : Scope)
    (landing : Str → Bool) : bytesAmong (commit :: pending) scope landing =
      (if (scope.includes commit.owner && landing commit.scopedKey) = true then
        commit.bytes else 0) + bytesAmong pending scope landing := by
  unfold bytesAmong
  rw [filter_cons]
  split
  · rw [map_cons, sum_cons]
  · rw [Nat.zero_add]

theorem newKeys_cons (commit : PendingCommit) (pending : List PendingCommit) (scope : Scope) :
    newKeys (commit :: pending) scope =
      if (scope.includes commit.owner && decide (commit.objects ≠ 0)) = true then
        insert commit.scopedKey (newKeys pending scope)
      else
        newKeys pending scope := by
  unfold newKeys
  rw [filter_cons]
  split
  · rw [map_cons, toFinset_cons]
  · rfl

variable {landing more : Str → Bool}

theorem bytes_landing_le {commit : PendingCommit}
    (included : landing commit.scopedKey = true → more commit.scopedKey = true) (scope : Scope) :
    (if (scope.includes commit.owner && landing commit.scopedKey) = true then commit.bytes else 0) ≤
      if (scope.includes commit.owner && more commit.scopedKey) = true then
        commit.bytes else 0 := by
  cases isLanding : landing commit.scopedKey with
  | false =>
    rw [Bool.and_false]
    exact Nat.zero_le _
  | true => rw [included isLanding]

theorem bytesAmong_mono {pending : List PendingCommit}
    (included : ∀ commit ∈ pending, landing commit.scopedKey = true → more commit.scopedKey = true)
    (scope : Scope) : bytesAmong pending scope landing ≤ bytesAmong pending scope more := by
  induction pending with
  | nil => exact le_rfl
  | cons first _ ih =>
    rw [bytesAmong_cons, bytesAmong_cons]
    refine Nat.add_le_add (bytes_landing_le (included first mem_cons_self) scope) ?_
    exact ih fun commit mem => included commit (mem_cons_of_mem _ mem)

theorem add_bytesAmong_le {pending : List PendingCommit} {commit : PendingCommit} {scope : Scope}
    {landing more : Str → Bool} (mem : commit ∈ pending)
    (isIncluded : scope.includes commit.owner = true) (apart : landing commit.scopedKey = false)
    (lands : more commit.scopedKey = true)
    (included : ∀ key, landing key = true → more key = true) :
    commit.bytes + bytesAmong pending scope landing ≤
      bytesAmong pending scope more := by
  induction pending with
  | nil => cases mem
  | cons first rest ih =>
    rw [bytesAmong_cons, bytesAmong_cons]
    rcases mem_cons.mp mem with rfl | later
    · rw [isIncluded, apart, lands]
      have others := bytesAmong_mono (fun other (_ : other ∈ rest) => included _) scope
      simpa using others
    · have remaining := ih later
      have first := bytes_landing_le (included first.scopedKey) scope
      omega

theorem card_newKeys_le {pending : List PendingCommit} {scope : Scope} {scopedKey : Str}
    (fresh : ∀ commit ∈ pending, commit.scopedKey ≠ scopedKey) : (newKeys pending scope).card ≤
      ((othersAmong pending scope scopedKey).map PendingCommit.objects).sum := by
  induction pending with
  | nil => exact Nat.zero_le _
  | cons first rest ih =>
    have remaining := ih fun commit mem => fresh commit (mem_cons_of_mem _ mem)
    have apart : decide (first.scopedKey ≠ scopedKey) = true :=
      decide_eq_true (fresh first mem_cons_self)
    unfold othersAmong at remaining ⊢
    rw [newKeys_cons, filter_cons, apart, Bool.and_true]
    cases scope.includes first.owner with
    | false => exact remaining
    | true =>
      rw [if_pos rfl, map_cons, sum_cons, Bool.true_and]
      split
      next counted =>
        have positive := of_decide_eq_true counted
        have inserted := Finset.card_insert_le first.scopedKey (newKeys rest scope)
        omega
      · omega

end

/-- However the pending commits land over their old rows, the limits hold. -/
structure Accounted (cache : ContentCache) (pending : List PendingCommit)
    (stores : Stores) : Prop where
  consistent : Consistent cache.addressing stores
  bytes : ∀ scope, cache.limits.maxBytes scope < u64Max → ∀ landing, committedBytes
    (stores.charges cache.addressing (scope.besides landing)) +
    bytesAmong pending scope landing ≤ cache.limits.maxBytes scope
  objects : ∀ scope, cache.limits.maxObjects scope < u64Max →
    (stores.keptKeys scope.keeps ∪ newKeys pending scope).card ≤ cache.limits.maxObjects scope

section

variable {digest : Addressing} {cache : ContentCache} {pending : List PendingCommit}
  {stores : Stores}

theorem charges_mono {kept more : Str → Bool}
    (included : ∀ key, kept key = true → more key = true) :
    stores.charges digest kept ⊆ stores.charges digest more := by
  intro _ mem
  obtain ⟨key, row, found, keeps, rfl⟩ := mem_charges.mp mem
  exact mem_charges.mpr ⟨key, row, found, included key keeps, rfl⟩

theorem committedBytes_mono {kept more : Str → Bool}
    (included : ∀ key, kept key = true → more key = true) :
    committedBytes (stores.charges digest kept) ≤
      committedBytes (stores.charges digest more) :=
  LabelledWeight.total_mono (charges_mono included)

theorem Consistent.shrinks : Shrinks (Consistent digest) where
  eraseRow stores key consistent :=
    { present := fun other row found isIntegrity => by
        replace found := lookup_of_erase found
        exact consistent.present other row found isIntegrity
      own := consistent.own }
  eraseBlob stores contentHash consistent unreferenced :=
    { present := fun key row found isIntegrity => by
        rw [lookup_erase_ite, if_neg (unreferenced key row found)]
        exact consistent.present key row found isIntegrity
      own := fun address bytes found => by
        replace found := lookup_of_erase found
        exact consistent.own address bytes found }
  answers _ _ consistent := ⟨consistent.present, consistent.own⟩

variable (kept : Str → Bool) (extra bound : Nat)

theorem shrinks_committedBytes : Shrinks fun stores =>
  committedBytes (stores.charges digest kept) + extra ≤ bound :=
  shrinks_of_charges fun _ _ fewer within =>
    (Nat.add_le_add_right (LabelledWeight.total_mono fewer) extra).trans within

theorem shrinks_keptKeys : Shrinks fun stores => (stores.keptKeys kept).card + extra ≤ bound :=
  shrinks_of_keptKeys fun _ _ fewer within =>
    (Nat.add_le_add_right (Finset.card_le_card fewer) extra).trans within

theorem shrinks_union_keptKeys (others : Finset Str) (bound : Nat) :
    Shrinks fun stores => (stores.keptKeys kept ∪ others).card ≤ bound :=
  shrinks_of_keptKeys fun _ _ fewer within =>
    (Finset.card_le_card (Finset.union_subset_union_left fewer)).trans within

theorem Accounted.shrinks : Shrinks (Accounted cache pending) where
  eraseRow stores key accounted :=
    { consistent := Consistent.shrinks.eraseRow stores key accounted.consistent
      bytes := fun scope small landing =>
        (shrinks_committedBytes _ _ _).eraseRow stores key (accounted.bytes scope small landing)
      objects := fun scope small =>
        (shrinks_union_keptKeys _ _ _).eraseRow stores key (accounted.objects scope small) }
  eraseBlob stores contentHash accounted unreferenced :=
    { consistent :=
        Consistent.shrinks.eraseBlob stores contentHash accounted.consistent unreferenced
      bytes := fun scope small landing =>
        (shrinks_committedBytes _ _ _).eraseBlob stores contentHash
          (accounted.bytes scope small landing) unreferenced
      objects := fun scope small =>
        (shrinks_union_keptKeys _ _ _).eraseBlob stores contentHash
          (accounted.objects scope small) unreferenced }
  answers stores answers accounted :=
    { consistent := Consistent.shrinks.answers stores answers accounted.consistent
      bytes := accounted.bytes
      objects := accounted.objects }

theorem Accounted.sublist {fewer : List PendingCommit} (accounted : Accounted cache pending stores)
    (sublist : fewer.Sublist pending) : Accounted cache fewer stores where
  __ := accounted
  bytes scope small landing :=
    (Nat.add_le_add_left (bytesAmong_sublist sublist scope landing) _).trans
      (accounted.bytes scope small landing)
  objects scope small :=
    (Finset.card_le_card (Finset.union_subset_union_right (newKeys_sublist sublist scope))).trans
      (accounted.objects scope small)

theorem Accounted.of_same {other : Stores} (accounted : Accounted cache pending stores)
    (rows : other.rows = stores.rows) (blobs : other.blobs = stores.blobs) :
    Accounted cache pending other := by
  have charges (kept : Str → Bool) : other.charges cache.addressing kept =
      stores.charges cache.addressing kept := by
    unfold Stores.charges Stores.keptEntries Stores.entriesLru Stores.charge
      Stores.physicalBlobSize Stores.blobAt
    rw [rows, blobs]
  have keys (kept : Str → Bool) : other.keptKeys kept = stores.keptKeys kept := by
    unfold Stores.keptKeys
    rw [rows]
  refine ⟨⟨?_, ?_⟩, ?_, ?_⟩
  · rw [rows, blobs]
    exact accounted.consistent.present
  · rw [blobs]
    exact accounted.consistent.own
  · intro scope small landing
    rw [charges]
    exact accounted.bytes scope small landing
  · intro scope small
    rw [keys]
    exact accounted.objects scope small

theorem accounted_nil (consistent : Consistent cache.addressing stores)
    (within : WithinCommittedLimits cache stores) : Accounted cache [] stores where
  consistent := consistent
  bytes scope small landing := by
    refine le_trans (committedBytes_mono fun key keeps => ?_) (within.bytes scope small)
    exact (Bool.and_eq_true_iff.mp keeps).1
  objects scope small := by
    change (stores.keptKeys scope.keeps ∪ ∅).card ≤ _
    rw [Finset.union_empty]
    exact within.objects scope small

theorem Accounted.withinCommittedLimits (accounted : Accounted cache pending stores) :
    WithinCommittedLimits cache stores where
  bytes scope small := by
    have landed := accounted.bytes scope small fun _ => false
    have whole : scope.besides (fun _ => false) = scope.keeps :=
      funext fun key => Bool.and_true (scope.keeps key)
    rw [whole] at landed
    exact (Nat.le_add_right _ _).trans landed
  objects scope small :=
    (Finset.card_le_card Finset.subset_union_left).trans (accounted.objects scope small)

end

/-- What is committed beside a key, what is pending beside it, and what comes in
for it are within the limits of a scope. -/
structure HasRoom (cache : ContentCache) (pending : List PendingCommit) (scope : Scope)
    (scopedKey : Str) (incomingBytes incomingObjects : Nat) (stores : Stores) : Prop where
  bytes : cache.limits.maxBytes scope < u64Max → committedBytes (stores.charges cache.addressing
    (scope.besides fun key => decide (key = scopedKey))) +
      (((othersAmong pending scope scopedKey).map PendingCommit.bytes).sum + incomingBytes) ≤
        cache.limits.maxBytes scope
  objects : cache.limits.maxObjects scope < u64Max → (stores.keptKeys
    (scope.besides fun key => decide (key = scopedKey))).card +
    (((othersAmong pending scope scopedKey).map PendingCommit.objects).sum + incomingObjects) ≤
      cache.limits.maxObjects scope

section

variable {cache : ContentCache} {holds : Stores → Prop} {pending : List PendingCommit}

theorem withinCommitted_le {incomingBytes incomingObjects maxBytes maxObjects bytes objects : Nat}
    (within : withinCommitted pending incomingBytes incomingObjects maxBytes
      maxObjects bytes objects = true) :
    (maxBytes < u64Max →
      bytes + ((pending.map PendingCommit.bytes).sum + incomingBytes) ≤ maxBytes) ∧
      (maxObjects < u64Max → objects + ((pending.map PendingCommit.objects).sum + incomingObjects) ≤
        maxObjects) := by
  have exact {first incoming limit : Nat} {numbers : List Nat} (fits :
      saturatingAdd (saturatingAdd first (saturatingSum numbers)) incoming ≤ limit)
      (small : limit < u64Max) :
      first + (numbers.sum + incoming) ≤ limit := by
    have outer := add_le_of_saturatingAdd_le fits small
    have inner : saturatingAdd first (saturatingSum numbers) ≤ limit := by omega
    have sum := add_le_of_saturatingAdd_le inner small
    have counted : saturatingSum numbers = numbers.sum := sum_eq_of_saturatingSum_lt (by omega)
    unfold saturatingAdd at outer
    unfold u64Max at small
    omega
  obtain ⟨fitBytes, fitObjects⟩ := Bool.and_eq_true_iff.mp within
  exact ⟨exact (of_decide_eq_true fitBytes), exact (of_decide_eq_true fitObjects)⟩

theorem HasRoom.shrinks {scope : Scope} {scopedKey : Str} {incomingBytes incomingObjects : Nat} :
    Shrinks (HasRoom cache pending scope scopedKey incomingBytes incomingObjects) where
  eraseRow stores key room :=
    { bytes := fun small => (shrinks_committedBytes _ _ _).eraseRow stores key (room.bytes small)
      objects := fun small => (shrinks_keptKeys _ _ _).eraseRow stores key (room.objects small) }
  eraseBlob stores contentHash room unreferenced :=
    { bytes := fun small =>
        (shrinks_committedBytes _ _ _).eraseBlob stores contentHash (room.bytes small) unreferenced
      objects := fun small =>
        (shrinks_keptKeys _ _ _).eraseBlob stores contentHash (room.objects small) unreferenced }
  answers _ _ room := ⟨room.bytes, room.objects⟩

theorem HasRoom.fewer {scope : Scope} {scopedKey : Str} {incomingBytes fewer more : Nat}
    {stores : Stores} (room : HasRoom cache pending scope scopedKey incomingBytes more stores)
    (isFewer : fewer ≤ more) :
    HasRoom cache pending scope scopedKey incomingBytes fewer stores where
  __ := room
  objects small := by
    have within := room.objects small
    omega

theorem makeRoomWithin_makes (shrinks : Shrinks holds)
    (accounted : ∀ stores, holds stores → Accounted cache pending stores) (scope : Scope)
    (scopedKey : Str) (entries : List CacheEntry) (incomingBytes objects : Nat) (refusal : String) :
    Triple (fun stores =>
      holds stores ∧ entries = stores.keptEntries
        (scope.besides fun key => decide (key = scopedKey)))
      (cache.makeRoomWithin entries
        (withinCommitted (othersAmong pending scope scopedKey)
          incomingBytes objects (cache.limits.maxBytes scope) (cache.limits.maxObjects scope))
        refusal)
      ⟨fun _ stores =>
        holds stores ∧ HasRoom cache pending scope scopedKey incomingBytes objects stores,
        fun _ => holds, holds⟩ := by
  let beside := scope.besides fun key => decide (key = scopedKey)
  have exact (stores : Stores) (held : holds stores)
      (small : cache.limits.maxBytes scope < u64Max) :
      committedBytes (stores.charges cache.addressing beside) ≤ u64Max := by
    have cost := (accounted stores held).bytes scope small fun key => decide (key = scopedKey)
    exact (Nat.le_add_right _ _).trans (cost.trans small.le)
  refine (makeRoomWithin_fits beside shrinks exact entries _
    refusal).returning ?_
  rintro _ stores ⟨held, _, _, within, cost, few⟩
  obtain ⟨fitBytes, fitObjects⟩ := withinCommitted_le within
  refine ⟨held, fun small => ?_, fun small => ?_⟩
  · exact (Nat.add_le_add_right (cost small) _).trans (fitBytes small)
  · exact (Nat.add_le_add_right few _).trans (fitObjects small)

variable (stores : Stores) (scopedKey : Str)

theorem incomingObjects_entriesLru : incomingObjects stores.entriesLru scopedKey =
    if (stores.rows.lookup scopedKey).isSome = true then 0 else 1 := by
  have listed : (stores.entriesLru.any fun entry => decide (entry.key = scopedKey)) =
      (stores.rows.lookup scopedKey).isSome := by
    rw [Bool.eq_iff_iff, List.any_eq_true, isSome_iff_exists]
    constructor
    · rintro ⟨entry, mem, same⟩
      obtain ⟨row, found, -⟩ := mem_entriesLru.mp mem
      exact ⟨row, of_decide_eq_true same ▸ found⟩
    · rintro ⟨row, found⟩
      refine ⟨row.entry scopedKey, mem_entriesLru.mpr ⟨row, found, rfl⟩, ?_⟩
      exact decide_eq_true rfl
  unfold incomingObjects
  rw [listed]

theorem shrinks_incomingObjects (objects : Nat) : Shrinks fun stores =>
  objects ≤ incomingObjects stores.entriesLru scopedKey where
  eraseRow stores key held := by
    rw [incomingObjects_entriesLru] at held ⊢
    rw [lookup_erase_ite]
    by_cases same : scopedKey = key
    · have few : (if (stores.rows.lookup scopedKey).isSome = true then 0 else 1) ≤ 1 := by
        split
        · exact Nat.zero_le _
        · exact le_rfl
      rw [if_pos same]
      exact held.trans few
    · rw [if_neg same]
      exact held
  eraseBlob _ _ held _ := held
  answers _ _ held := held

theorem filter_entriesLru_ne :
    (stores.entriesLru.filter fun entry => decide (entry.key ≠ scopedKey)) = stores.keptEntries
      (Scope.everyone.besides fun key => decide (key = scopedKey)) := by
  refine filter_congr fun entry _ => ?_
  rw [decide_not]
  rfl

variable (owner : CacheOwner)

theorem filter_entriesLru_owner (scopedKey : Str) : (stores.entriesLru.filter fun entry =>
      decide (entry.key ≠ scopedKey ∧ entryOwner entry.key = owner)) =
      stores.keptEntries ((Scope.owned owner).besides fun key => decide (key = scopedKey)) := by
  refine filter_congr fun entry _ => ?_
  rw [Bool.decide_and, Bool.and_comm, decide_not]
  rfl

theorem ensureGlobalCommitted_makes {scopedKey : Str} {objects : Nat} (shrinks : Shrinks holds)
    (accounted : ∀ stores, holds stores → Accounted cache pending stores)
    (noted : ∀ stores, holds stores →
      objects ≤ incomingObjects stores.entriesLru scopedKey)
    (incomingBytes : Nat) :
    Triple holds (cache.ensureGlobalCommitted pending scopedKey incomingBytes) ⟨fun _ stores =>
      holds stores ∧ HasRoom cache pending .everyone scopedKey incomingBytes objects stores,
        fun _ => holds, holds⟩ := by
  refine Triple.bind (look_returns .index Stores.entriesLru) fun entries => ?_
  have others : (pending.filter fun commit => decide (commit.scopedKey ≠ scopedKey)) =
      othersAmong pending .everyone scopedKey := rfl
  dsimp only
  rw [others]
  have made :=
    makeRoomWithin_makes shrinks accounted .everyone scopedKey
      (entries.filter fun entry => decide (entry.key ≠ scopedKey)) incomingBytes
      (incomingObjects entries scopedKey)
      "cache global committed byte or object quota exceeded"
  by_cases isFewer : objects ≤ incomingObjects entries scopedKey
  · refine made.consequence ?_ ?_ (fun _ _ => id) fun _ => id
    · rintro stores ⟨held, rfl⟩
      exact ⟨held, filter_entriesLru_ne stores scopedKey⟩
    · exact fun _ stores held => ⟨held.1, held.2.fewer isFewer⟩
  · -- The entries were listed from stores in which the key was noted.
    rintro stores fates ⟨held, rfl⟩
    exact absurd (noted stores held) isFewer

theorem prepareCommitBeside_makes (scopedKey : Str) (incomingBytes : Nat) :
    Triple (Accounted cache pending)
      (cache.prepareCommitBeside pending owner scopedKey incomingBytes)
      ⟨fun objects stores =>
        Accounted cache pending stores ∧ ∀ scope, scope.includes owner = true →
          HasRoom cache pending scope scopedKey incomingBytes objects stores,
        fun _ => Accounted cache pending, Accounted cache pending⟩ := by
  have ownOthers : (pending.filter fun commit =>
    decide (commit.owner = owner ∧ commit.scopedKey ≠ scopedKey)) =
      othersAmong pending (.owned owner) scopedKey := by
    refine filter_congr fun commit _ => ?_
    rw [Bool.decide_and]
    rfl
  unfold prepareCommitBeside
  split
  · exact Triple.throw fun _ => id
  · split
    · exact Triple.throw fun _ => id
    · refine Triple.bind (look_returns .index Stores.entriesLru) fun entries => ?_
      dsimp only
      rw [ownOthers]
      let objects := incomingObjects entries scopedKey
      let noted := fun stores : Stores =>
        Accounted cache pending stores ∧
          objects ≤ incomingObjects stores.entriesLru scopedKey
      have notedShrinks : Shrinks noted :=
        Accounted.shrinks.and (shrinks_incomingObjects scopedKey objects)
      have ownRoom :=
        makeRoomWithin_makes notedShrinks (fun _ held => held.1) (.owned owner) scopedKey
          (entries.filter fun entry =>
            decide (entry.key ≠ scopedKey ∧ entryOwner entry.key = owner))
          incomingBytes objects
          "cache owner committed byte or object quota exceeded"
      refine Triple.bind (ownRoom.consequence ?_ (fun _ _ => id)
        (fun _ _ held => held.1) fun _ held => held.1) fun _ => ?_
      · rintro stores ⟨held, rfl⟩
        exact ⟨⟨held, le_rfl⟩, filter_entriesLru_owner stores owner scopedKey⟩
      · have roomShrinks : Shrinks fun stores =>
          noted stores ∧ HasRoom cache pending (.owned owner) scopedKey incomingBytes
            objects stores :=
          notedShrinks.and HasRoom.shrinks
        have allRoom :=
          ensureGlobalCommitted_makes roomShrinks
            (fun _ held => held.1.1) (fun _ held => held.1.2) incomingBytes
        refine Triple.bind (allRoom.leaving fun _ held => held.1.1) fun _ => ?_
        refine Triple.pure fun stores held => ⟨held.1.1.1, fun scope included => ?_⟩
        cases scope with
        | everyone => exact held.2
        | owned other =>
          obtain rfl : owner = other := of_decide_eq_true included
          exact held.1.2

theorem Accounted.admission {stores : Stores} {commit : PendingCommit}
    (accounted : Accounted cache pending stores)
    (fresh : ∀ other ∈ pending, other.scopedKey ≠ commit.scopedKey)
    (room : ∀ scope, scope.includes commit.owner = true →
      HasRoom cache pending scope commit.scopedKey commit.bytes commit.objects stores) :
    Accounted cache (commit :: pending) stores where
  __ := accounted
  bytes scope small landing := by
    rw [bytesAmong_cons]
    split
    next lands =>
      obtain ⟨included, isLanding⟩ := Bool.and_eq_true_iff.mp lands
      have within := (room scope included).bytes small
      have others :
          bytesAmong pending scope landing ≤ ((othersAmong pending scope commit.scopedKey).map
            PendingCommit.bytes).sum := by
        change _ ≤
          bytesAmong pending scope fun key => decide (key ≠ commit.scopedKey)
        exact bytesAmong_mono (fun other mem _ => decide_eq_true (fresh other mem)) scope
      have fewer : committedBytes (stores.charges cache.addressing (scope.besides landing)) ≤
          committedBytes (stores.charges cache.addressing
            (scope.besides fun key => decide (key = commit.scopedKey))) := by
        refine committedBytes_mono fun key keeps => ?_
        obtain ⟨inScope, notLanding⟩ := and_eq_true_iff.mp keeps
        refine and_eq_true_iff.mpr ⟨inScope, ?_⟩
        rw [not_eq_true', decide_eq_false_iff_not]
        rintro rfl
        rw [isLanding] at notLanding
        cases notLanding
      omega
    · rw [Nat.zero_add]
      exact accounted.bytes scope small landing
  objects scope small := by
    rw [newKeys_cons]
    split
    next isNew =>
      obtain ⟨included, counted⟩ := Bool.and_eq_true_iff.mp isNew
      have within := (room scope included).objects small
      have positive := of_decide_eq_true counted
      have fewNew := @card_newKeys_le pending scope commit.scopedKey fresh
      have union : stores.keptKeys scope.keeps ∪ insert commit.scopedKey (newKeys pending scope) ⊆
          insert commit.scopedKey (stores.keptKeys
            (scope.besides fun key => decide (key = commit.scopedKey)) ∪
              newKeys pending scope) := by
        intro key mem
        rw [Finset.mem_insert, Finset.mem_union]
        by_cases same : key = commit.scopedKey
        · exact .inl same
        · rcases Finset.mem_union.mp mem with old | isNew
          · obtain ⟨found, keeps⟩ := mem_keptKeys.mp old
            refine .inr (.inl (mem_keptKeys.mpr ⟨found, ?_⟩))
            refine and_eq_true_iff.mpr ⟨keeps, ?_⟩
            rw [not_eq_true', decide_eq_false_iff_not]
            exact same
          · exact .inr (.inr ((Finset.mem_insert.mp isNew).resolve_left same))
      have most := Finset.card_le_card union
      have inserted :=
        Finset.card_insert_le commit.scopedKey (stores.keptKeys
          (scope.besides fun key => decide (key = commit.scopedKey)) ∪ newKeys pending scope)
      have united :=
        Finset.card_union_le (stores.keptKeys
          (scope.besides fun key => decide (key = commit.scopedKey)))
          (newKeys pending scope)
      omega
    · exact accounted.objects scope small

end

section

variable {cache : ContentCache} {pending : List PendingCommit} {stores : Stores}
variable {digest : Addressing}

section

variable (oneLength : ∀ data other, digest.address data = digest.address other →
  data.length = other.length)
include oneLength

theorem physicalBlobSize_writeBlob {key : Str} {row : Row}
    (consistent : Consistent digest stores) (found : stores.rows.lookup key = some row)
    (data : Bytes) : Stores.physicalBlobSize digest
      { stores with
        blobs := stores.blobs.insert (digest.address data) data }
      (row.entry key) =
      stores.physicalBlobSize digest (row.entry key) := by
  unfold Stores.physicalBlobSize Stores.blobAt
  by_cases isIntegrity : digest.isIntegrity (row.entry key).contentHash = true
  · obtain ⟨bytes, stored⟩ := consistent.present key row found isIntegrity
    have before : stores.blobs.lookup (row.entry key).contentHash = some bytes := stored
    rw [if_pos isIntegrity, if_pos isIntegrity, lookup_insert_ite, before]
    by_cases same : (row.entry key).contentHash = digest.address data
    · have own := consistent.own _ bytes before
      rw [if_pos same]
      exact oneLength data bytes (same.symm.trans own.symm)
    · rw [if_neg same]
  · rw [if_neg isIntegrity, if_neg isIntegrity]

theorem charges_writeBlob
    (consistent : Consistent digest stores) (data : Bytes) (kept : Str → Bool) :
    Stores.charges digest
      { stores with
        blobs := stores.blobs.insert (digest.address data) data } kept =
      stores.charges digest kept := by
  have size (key : Str) (row : Row) (found : stores.rows.lookup key = some row) :
      Stores.charge digest
        { stores with
          blobs := stores.blobs.insert (digest.address data) data }
        (row.entry key) =
        stores.charge digest (row.entry key) := by
    unfold Stores.charge
    rw [physicalBlobSize_writeBlob oneLength consistent found]
  ext charge
  rw [mem_charges, mem_charges]
  constructor
  · rintro ⟨key, row, found, keeps, rfl⟩
    exact ⟨key, row, found, keeps, size key row found⟩
  · rintro ⟨key, row, found, keeps, rfl⟩
    exact ⟨key, row, found, keeps, (size key row found).symm⟩

end

theorem Accounted.writeBlob (oneLength : ∀ data other,
    cache.addressing.address data = cache.addressing.address other → data.length = other.length)
    (accounted : Accounted cache pending stores) (data : Bytes) : Accounted cache pending
      { stores with
        blobs := stores.blobs.insert (cache.addressing.address data) data } where
  __ := accounted
  consistent :=
    { present := fun key row found isIntegrity => by
        obtain ⟨bytes, stored⟩ := accounted.consistent.present key row found isIntegrity
        rw [lookup_insert_ite]
        split
        · exact ⟨data, rfl⟩
        · exact ⟨bytes, stored⟩
      own := fun address bytes found => by
        rw [lookup_insert_ite] at found
        split at found
        next same =>
          cases found
          exact same.symm
        · exact accounted.consistent.own address bytes found }
  bytes scope small landing := by
    rw [charges_writeBlob oneLength accounted.consistent]
    exact accounted.bytes scope small landing

theorem Accounted.writeRow {commit : PendingCommit} {data : Bytes} {row : Row}
    (accounted : Accounted cache pending stores) (mem : commit ∈ pending)
    (owner : commit.owner = entryOwner commit.scopedKey) (bytes : commit.bytes = data.length)
    (replaced : commit.objects = 0 → ∃ old, stores.rows.lookup commit.scopedKey = some old)
    (stored : stores.blobs.lookup (cache.addressing.address data) = some data)
    (contentHash : row.contentHash = cache.addressing.address data)
    (sizeBytes : row.sizeBytes = some (data.length : Int)) :
    Accounted cache pending { stores with rows := stores.rows.insert commit.scopedKey row } where
  consistent :=
    { present := fun key other found isIntegrity => by
        rw [lookup_insert_ite] at found
        split at found
        · cases found
          rw [contentHash]
          exact ⟨data, stored⟩
        · exact accounted.consistent.present key other found isIntegrity
      own := accounted.consistent.own }
  bytes scope small landing := by
    let written : Stores := { stores with rows := stores.rows.insert commit.scopedKey row }
    let charge := stores.charge cache.addressing (row.entry commit.scopedKey)
    have cost : charge.bytes ≤ commit.bytes := by
      change stores.physicalBlobSize cache.addressing (row.entry commit.scopedKey) ≤ _
      unfold Stores.physicalBlobSize Stores.blobAt Row.entry
      dsimp only
      rw [contentHash, stored, sizeBytes, bytes]
      split
      next found =>
        split at found
        · cases found
          exact le_rfl
        · cases found
      · exact le_rfl
    have known {key : Str} {other : Row} (found : written.rows.lookup key = some other) :
        (key = commit.scopedKey ∧ other = row) ∨
          key ≠ commit.scopedKey ∧ stores.rows.lookup key = some other := by
      have looked := found
      rw [lookup_insert_ite] at looked
      split at looked
      next same =>
        cases looked
        exact .inl ⟨same, rfl⟩
      next different => exact .inr ⟨different, looked⟩
    cases lands : scope.besides landing commit.scopedKey with
    | false =>
      -- The row is not among those that are charged here.
      have fewer : written.charges cache.addressing (scope.besides landing) ⊆
          stores.charges cache.addressing (scope.besides landing) := by
        intro other among
        obtain ⟨key, found, looked, keeps, rfl⟩ := mem_charges.mp among
        rcases known looked with ⟨rfl, -⟩ | ⟨-, old⟩
        · rw [lands] at keeps
          cases keeps
        · exact mem_charges.mpr ⟨key, found, old, keeps, rfl⟩
      exact (Nat.add_le_add_right (LabelledWeight.total_mono fewer) _).trans
        (accounted.bytes scope small landing)
    | true =>
      obtain ⟨inScope, notLanding⟩ := Bool.and_eq_true_iff.mp lands
      rw [not_eq_true'] at notLanding
      let more := fun key => landing key || decide (key = commit.scopedKey)
      have fewer : written.charges cache.addressing (scope.besides landing) ⊆ insert charge
          (stores.charges cache.addressing (scope.besides more)) := by
        intro other among
        obtain ⟨key, found, looked, keeps, rfl⟩ := mem_charges.mp among
        rcases known looked with ⟨rfl, rfl⟩ | ⟨different, old⟩
        · exact Finset.mem_insert_self _ _
        · refine Finset.mem_insert_of_mem (mem_charges.mpr ⟨key, found, old, ?_, rfl⟩)
          obtain ⟨keyInScope, keyNotLanding⟩ := and_eq_true_iff.mp keeps
          refine and_eq_true_iff.mpr ⟨keyInScope, ?_⟩
          rw [not_eq_true'] at keyNotLanding ⊢
          exact or_eq_false_iff.mpr ⟨keyNotLanding, decide_eq_false different⟩
      have included : scope.includes commit.owner = true := by
        rw [owner]
        exact inScope
      have landed :=
        @add_bytesAmong_le pending commit scope landing more mem included
          notLanding (by simp [more])
          fun key isLanding => by simp [more, isLanding]
      have before := accounted.bytes scope small more
      calc
        committedBytes (written.charges cache.addressing (scope.besides landing)) +
          bytesAmong pending scope landing
          ≤ committedBytes (insert charge (stores.charges cache.addressing (scope.besides more))) +
            bytesAmong pending scope landing :=
            Nat.add_le_add_right (LabelledWeight.total_mono fewer) _
        _ ≤ committedBytes (stores.charges cache.addressing (scope.besides more)) +
          charge.bytes + bytesAmong pending scope landing :=
            Nat.add_le_add_right (LabelledWeight.total_insert_le _ _) _
        _ ≤ cache.limits.maxBytes scope := by omega
  objects scope small := by
    refine le_trans (Finset.card_le_card ?_) (accounted.objects scope small)
    intro key among
    rcases Finset.mem_union.mp among with kept | isNew
    · obtain ⟨⟨found, looked⟩, keeps⟩ := mem_keptKeys.mp kept
      rw [lookup_insert_ite] at looked
      split at looked
      next same =>
        subst same
        by_cases isReplacement : commit.objects = 0
        · exact Finset.mem_union_left _ (mem_keptKeys.mpr ⟨replaced isReplacement, keeps⟩)
        · refine Finset.mem_union_right _ (mem_toFinset.mpr
            (mem_map.mpr ⟨commit, mem_filter.mpr ⟨mem, ?_⟩, rfl⟩))
          rw [owner]
          exact and_eq_true_iff.mpr ⟨keeps, decide_eq_true isReplacement⟩
      · exact Finset.mem_union_left _ (mem_keptKeys.mpr ⟨⟨found, looked⟩, keeps⟩)
    · exact Finset.mem_union_right _ isNew

end

section

variable {cache : ContentCache} {holds : Stores → Prop} {pending : List PendingCommit}

theorem commitWrite_keeps {commit : PendingCommit} {put : OwnerPut} (oneLength : ∀ data other,
    cache.addressing.address data = cache.addressing.address other → data.length = other.length)
    (mem : commit ∈ pending) (isOwn : commit.scopedKey = put.scopedKey)
    (owner : commit.owner = put.owner) (bytes : commit.bytes = put.data.length) (now : Nat) :
    Triple (fun stores =>
      Accounted cache pending stores ∧ (commit.objects = 0 →
        ∃ old, stores.rows.lookup put.scopedKey = some old))
      (cache.commitWrite put now)
      ⟨fun _ => Accounted cache pending, fun _ => Accounted cache pending,
        Accounted cache pending⟩ := by
  have entryOwned : commit.owner = entryOwner commit.scopedKey := by
    rw [isOwn, owner]
    unfold OwnerPut.scopedKey entryOwner
    rw [parseScopedKey_scopedKey]
    rfl
  let writing := fun stores : Stores =>
    (Accounted cache pending stores ∧ (commit.objects = 0 →
      ∃ old, stores.rows.lookup put.scopedKey = some old)) ∧
      stores.blobs.lookup (cache.addressing.address put.data) = some put.data
  have writes : Triple (fun stores =>
    Accounted cache pending stores ∧ (commit.objects = 0 →
      ∃ old, stores.rows.lookup put.scopedKey = some old))
      (writeHash cache.addressing put.data)
      ⟨fun contentHash stores => writing stores ∧ contentHash = cache.addressing.address put.data,
        fun _ => Accounted cache pending, Accounted cache pending⟩ := by
    refine Triple.call ?_ (fun _ held => held.1) ?_ (fun _ held => held.1) ?_
    · intro stores held
      exact ⟨⟨⟨held.1.writeBlob oneLength put.data, held.2⟩, AList.lookup_insert _⟩, rfl⟩
    · exact fun _ held => held.1.writeBlob oneLength put.data
    · exact fun _ held => held.1.writeBlob oneLength put.data
  refine Triple.bind writes fun contentHash => Triple.assuming fun isAddress => ?_
  subst isAddress
  have upserts : Keeps writing (upsertWithRetry put.scopedKey
      (cache.addressing.address put.data) put.data.length now 3) := by
    refine upsertWithRetry_keeps (fun stores row held address size => ?_) 3
    have written := held.1.1.writeRow mem entryOwned bytes (isOwn ▸ held.1.2) held.2 address size
    rw [isOwn] at written
    exact ⟨⟨written, fun _ => ⟨row, AList.lookup_insert _⟩⟩, held.2⟩
  exact upserts.consequence (fun _ => id) (fun _ _ held => held.1.1)
    (fun _ _ held => held.1.1) fun _ held => held.1.1

theorem discard_keeps (contentHash : Str) : Keeps (Accounted cache pending)
    (discardBlobIfUnreferenced cache.addressing contentHash) :=
  discardBlobIfUnreferenced_keeps contentHash fun stores held unreferenced =>
    Accounted.shrinks.eraseBlob stores contentHash held unreferenced

theorem discardPrevious_keeps (put : OwnerPut) (previous : Option Row) :
    Keeps (Accounted cache pending) (cache.discardPrevious put previous) := by
  cases previous with
  | none => exact Keeps.pure _
  | some previous => exact Keeps.ite (Keeps.pure _) (discard_keeps previous.contentHash)

theorem probeReplacedEntry_keeps {holds : Stores → Prop} (scopedKey : Str) :
    Keeps holds (probeReplacedEntry scopedKey) := by
  refine (keeps_look .index _).bind fun isPresent => ?_
  cases isPresent with
  | true => exact keeps_look .index _
  | false => exact Keeps.pure _

theorem reserveLooks_keeps {holds : Stores → Prop} (shrinks : Shrinks holds) (retains :
    ∀ stores keep, holds stores →
      holds { stores with reservations := stores.reservations.retain keep })
    (owner : CacheOwner) (reservationPath targetBytes nowSecs : Nat) :
    Keeps holds (cache.reserveLooks owner reservationPath targetBytes nowSecs) := by
  have scans : Keeps holds (cache.scanReservations nowSecs) :=
    Keeps.call fun stores => retains stores _
  have loads : Keeps holds cache.loadGroups :=
    (keeps_look .index Stores.entriesLru).bind fun entries =>
      (Keeps.inspect _).bind fun _ => Keeps.pure _
  refine Keeps.ite (Keeps.throw _) (scans.bind fun reservations => ?_)
  refine Keeps.ite (Keeps.throw _) (Keeps.ite (Keeps.throw _) ?_)
  refine Keeps.ite (Keeps.throw _) (Keeps.ite (Keeps.throw _) ?_)
  refine loads.bind fun found => ?_
  exact (globalCapacityFits_keeps shrinks.answers _ _).bind fun _ => Keeps.pure _

theorem reclaimCapacity_keeps {holds : Stores → Prop} (shrinks : Shrinks holds) (total : Nat) :
    Keeps holds (cache.reclaimCapacity total) :=
  (reclaimCapacity_fits shrinks
    (fun _ _ (never : False) => never.elim) total).returning (fun _ _ held => held.1)

theorem recordReservation_keeps (owner : CacheOwner) (scopedKey : Str)
    (reservationPath targetBytes nowSecs : Nat) : Keeps (Accounted cache pending)
      (recordReservation owner scopedKey reservationPath targetBytes nowSecs) :=
  Keeps.call fun _ accounted => accounted.of_same rfl rfl

theorem releaseReservation_keeps (reservationPath : Nat) :
    Keeps (Accounted cache pending) (release reservationPath) :=
  Keeps.call fun _ accounted => accounted.of_same rfl rfl

end

namespace PutSystem

def Matched (scopedKey : Str) (commits : List PendingCommit) : Option (OwnerPut × PutStage) → Prop
  | none => commits = []
  | some (put, stage) =>
    put.scopedKey = scopedKey ∧
      if stage.isAdmitted = true then
        ∃ objects, commits =
          [{ owner := put.owner
             scopedKey := scopedKey
             bytes := put.data.length
             objects := objects }]
      else commits = []

def Registered (system : PutSystem) : Prop :=
  ∀ scopedKey, Matched scopedKey (system.pending.filter fun commit =>
    decide (commit.scopedKey = scopedKey)) (system.puts.lookup scopedKey)

section

variable {system : PutSystem} {put : OwnerPut} {stage : PutStage}

theorem registered_initial (stores : Stores) : Registered (initial stores) := fun _ => rfl

theorem Registered.of_key {next : PutSystem} {scopedKey : Str} (registered : Registered system)
    (puts : ∀ other, other ≠ scopedKey → next.puts.lookup other = system.puts.lookup other)
    (commits : ∀ other, other ≠ scopedKey →
      (next.pending.filter fun commit => decide (commit.scopedKey = other)) =
        system.pending.filter fun commit => decide (commit.scopedKey = other))
    (own : Matched scopedKey (next.pending.filter fun commit =>
      decide (commit.scopedKey = scopedKey)) (next.puts.lookup scopedKey)) :
    Registered next := by
  intro other
  by_cases same : other = scopedKey
  · subst same
    exact own
  · rw [puts other same, commits other same]
    exact registered other

theorem Registered.scopedKey_eq {scopedKey : Str} (registered : Registered system)
    (found : system.puts.lookup scopedKey = some (put, stage)) : put.scopedKey = scopedKey := by
  have matched := registered scopedKey
  rw [found] at matched
  exact matched.1

theorem Registered.fresh (registered : Registered system)
    (found : system.puts.lookup put.scopedKey = some (put, stage))
    (notAdmitted : stage.isAdmitted = false) :
    (system.pending.filter fun commit =>
      decide (commit.scopedKey = put.scopedKey)) = [] := by
  have matched := registered put.scopedKey
  rw [found] at matched
  have rest := matched.2
  rw [notAdmitted] at rest
  exact rest

theorem Registered.commit (registered : Registered system)
    (found : system.puts.lookup put.scopedKey = some (put, stage))
    (isAdmitted : stage.isAdmitted = true) :
    ∃ commit ∈ system.pending, commit.scopedKey = put.scopedKey ∧ commit.owner = put.owner ∧
      commit.bytes = put.data.length := by
  have matched := registered put.scopedKey
  rw [found] at matched
  have rest := matched.2
  rw [isAdmitted] at rest
  obtain ⟨_, only⟩ := rest
  have listed := only ▸ mem_singleton_self _
  exact ⟨_, (mem_filter.mp listed).1, rfl, rfl, rfl⟩

section

variable (registered : Registered system)
include registered

theorem Registered.goesOn {next : PutStage}
    (found : system.puts.lookup put.scopedKey = some (put, stage))
    (same : next.isAdmitted = stage.isAdmitted) (stores : Stores) :
    Registered (system.goesOn put next stores) := by
  refine @Registered.of_key _ _ put.scopedKey registered ?_ (fun _ _ => rfl) ?_
  · exact fun _ => AList.lookup_insert_ne
  · have matched := registered put.scopedKey
    rw [found] at matched
    change Matched put.scopedKey _
      ((system.puts.insert put.scopedKey (put, next)).lookup put.scopedKey)
    rw [AList.lookup_insert]
    refine ⟨rfl, ?_⟩
    rw [same]
    exact matched.2

theorem Registered.starts (absent : system.puts.lookup put.scopedKey = none) (stores : Stores) :
    Registered (system.goesOn put .reserving stores) := by
  refine @Registered.of_key _ _ put.scopedKey registered ?_ (fun _ _ => rfl) ?_
  · exact fun _ => AList.lookup_insert_ne
  · have matched := registered put.scopedKey
    rw [absent] at matched
    change Matched put.scopedKey _
      ((system.puts.insert put.scopedKey (put, .reserving)).lookup put.scopedKey)
    rw [AList.lookup_insert]
    exact ⟨rfl, matched⟩

theorem Registered.ends (found : system.puts.lookup put.scopedKey = some (put, stage))
    (notAdmitted : stage.isAdmitted = false) (stores : Stores) :
    Registered (system.ends put stores) := by
  refine @Registered.of_key _ _ put.scopedKey registered ?_ (fun _ _ => rfl) ?_
  · exact fun _ => AList.lookup_erase_ne
  · change Matched put.scopedKey _ ((system.puts.erase put.scopedKey).lookup put.scopedKey)
    rw [AList.lookup_erase]
    exact registered.fresh found notAdmitted

theorem Registered.admits (found : system.puts.lookup put.scopedKey = some (put, stage))
    (notAdmitted : stage.isAdmitted = false) (objects : Nat) (stores : Stores) : Registered
      { system.goesOn put .admitted stores with
        pending :=
          { owner := put.owner
            scopedKey := put.scopedKey
            bytes := put.data.length
            objects := objects } :: system.pending } := by
  refine @Registered.of_key _ _ put.scopedKey registered ?_ ?_ ?_
  · exact fun _ => AList.lookup_insert_ne
  · intro _ different
    exact filter_cons_of_neg (by simpa using Ne.symm different)
  · change Matched put.scopedKey _
      ((system.puts.insert put.scopedKey (put, .admitted)).lookup put.scopedKey)
    rw [AList.lookup_insert]
    refine ⟨rfl, objects, ?_⟩
    dsimp only
    rw [filter_cons_of_pos (by simp), registered.fresh found notAdmitted]

end

theorem filter_dropped {other : Str} (different : other ≠ put.scopedKey) :
    ((system.dropped put).pending.filter fun commit => decide (commit.scopedKey = other)) =
      system.pending.filter fun commit => decide (commit.scopedKey = other) := by
  unfold dropped
  rw [List.filter_filter]
  refine filter_congr fun commit _ => ?_
  by_cases same : commit.scopedKey = other
  · simp [same, different]
  · simp [same]

theorem filter_dropped_self : ((system.dropped put).pending.filter fun commit =>
  decide (commit.scopedKey = put.scopedKey)) = [] := by
  unfold dropped
  rw [List.filter_filter]
  refine filter_eq_nil_iff.mpr fun commit _ => ?_
  simp

theorem Registered.commits {next : PutStage} (registered : Registered system)
    (notAdmitted : next.isAdmitted = false) (stores : Stores) :
    Registered ((system.goesOn put next stores).dropped put) := by
  refine @Registered.of_key _ _ put.scopedKey registered ?_ ?_ ?_
  · exact fun _ => AList.lookup_insert_ne
  · exact fun _ => filter_dropped
  · rw [filter_dropped_self]
    change Matched put.scopedKey []
      ((system.puts.insert put.scopedKey (put, next)).lookup put.scopedKey)
    rw [AList.lookup_insert]
    refine ⟨rfl, ?_⟩
    rw [notAdmitted]
    rfl

theorem Registered.abandons (registered : Registered system) (stores : Stores) :
    Registered ((system.ends put stores).dropped put) := by
  refine @Registered.of_key _ _ put.scopedKey registered ?_ ?_ ?_
  · exact fun _ => AList.lookup_erase_ne
  · exact fun _ => filter_dropped
  · rw [filter_dropped_self]
    change Matched put.scopedKey [] ((system.puts.erase put.scopedKey).lookup put.scopedKey)
    rw [AList.lookup_erase]
    rfl

end

/-- The admitted puts are registered, and their commits are accounted. -/
structure Sound (cache : ContentCache) (system : PutSystem) : Prop where
  registered : Registered system
  accounted : Accounted cache system.pending system.stores

/-- Each pending commit that was counted as a replacement has the row it
replaces. -/
def ReplacementsPresent (system : PutSystem) (_ : Action) : Prop :=
  ∀ commit ∈ system.pending, commit.objects = 0 →
    (system.stores.rows.lookup commit.scopedKey).isSome = true

instance (system : PutSystem) (action : Action) : Decidable (ReplacementsPresent system action) :=
  inferInstanceAs (Decidable (∀ commit ∈ system.pending, _))

section

variable {cache : ContentCache} {system next : PutSystem} {put : OwnerPut} {stage : PutStage}

theorem Sound.initial {pending : List PendingCommit} {stores : Stores}
    (accounted : Accounted cache pending stores) : Sound cache (PutSystem.initial stores) where
  registered := registered_initial stores
  accounted := accounted.sublist (nil_sublist _)

theorem settle_sound {Value : Type} {before : Stores → Prop} {program : Program Value}
    {values : Value → Stores → Prop} {returned : Value → Stores → PutSystem}
    {failed : Stores → PutSystem}
    (meets : Triple before program ⟨values, fun _ => Accounted cache system.pending,
      Accounted cache system.pending⟩)
    (held : before system.stores)
    (returns : ∀ value stores, values value stores → Sound cache (returned value stores))
    (fails : ∀ stores, Accounted cache system.pending stores → Sound cache (failed stores))
    (fates : Fates CacheCall) :
    Sound cache (settle (program system.stores fates) returned failed) := by
  have met := meets system.stores fates held
  unfold settle
  cases ended : program system.stores fates with
  | returned value stores rest =>
    rw [ended] at met
    exact returns value stores met
  | failed _ stores rest =>
    rw [ended] at met
    exact fails stores met
  | crashed stores =>
    rw [ended] at met
    exact .initial met

theorem Sound.advance (oneLength : ∀ data other,
    cache.addressing.address data = cache.addressing.address other → data.length = other.length)
    {action : Action} {now : Nat} {fates : Fates CacheCall} (sound : Sound cache system)
    (present : ReplacementsPresent system action)
    (found : system.puts.lookup put.scopedKey = some (put, stage))
    (taken : system.advance cache put stage now fates = some next) : Sound cache next := by
  have goesOn (later : PutStage) (same : later.isAdmitted = stage.isAdmitted)
      (stores : Stores) (accounted : Accounted cache system.pending stores) :
      Sound cache (system.goesOn put later stores) :=
    ⟨sound.registered.goesOn found same stores, accounted⟩
  have ends (notAdmitted : stage.isAdmitted = false)
      (stores : Stores) (accounted : Accounted cache system.pending stores) :
      Sound cache (system.ends put stores) :=
    ⟨sound.registered.ends found notAdmitted stores, accounted⟩
  have abandons (stores : Stores) (accounted : Accounted cache system.pending stores) :
      Sound cache ((system.ends put stores).dropped put) :=
    ⟨sound.registered.abandons stores, accounted.sublist filter_sublist⟩
  cases stage with
  | reserving =>
    obtain ⟨-, ⟨⟩⟩ := ite_none_left_eq_some.mp taken
    refine settle_sound (reserveLooks_keeps Accounted.shrinks
      (fun _ _ accounted => accounted.of_same rfl rfl) _ _ _ _) sound.accounted ?_ (ends rfl) fates
    intro _
    refine goesOn _ ?_
    split
    · rfl
    · rfl
  | reclaiming total =>
    cases taken
    exact settle_sound (reclaimCapacity_keeps Accounted.shrinks total) sound.accounted
      (fun _ => goesOn .recording rfl) (ends rfl) fates
  | recording =>
    cases taken
    exact settle_sound (recordReservation_keeps _ _ _ _ _) sound.accounted
      (fun _ => goesOn .reserved rfl) (ends rfl) fates
  | reserved =>
    obtain ⟨-, ⟨⟩⟩ := ite_none_left_eq_some.mp taken
    refine settle_sound (prepareCommitBeside_makes _ _ _) sound.accounted ?_
      (goesOn .releasing rfl) fates
    intro objects stores held
    refine ⟨sound.registered.admits found rfl objects stores, ?_⟩
    refine held.1.admission ?_ held.2
    intro other mem same
    have absent := filter_eq_nil_iff.mp (sound.registered.fresh found rfl) other mem
    exact absent (decide_eq_true same)
  | admitted =>
    cases taken
    exact settle_sound (probeReplacedEntry_keeps _) sound.accounted
      (fun previous => goesOn (.probed previous) rfl) (goesOn .abandoning rfl)
      fates
  | probed previous =>
    cases taken
    obtain ⟨commit, mem, isOwn, owner, bytes⟩ := sound.registered.commit found rfl
    refine settle_sound (commitWrite_keeps oneLength mem isOwn owner bytes now)
      ⟨sound.accounted, fun isReplacement => ?_⟩ ?_
      (goesOn .abandoning rfl) fates
    · have replaced := present commit mem isReplacement
      rw [isOwn] at replaced
      exact isSome_iff_exists.mp replaced
    · intro result stores accounted
      cases result with
      | ok =>
        exact ⟨sound.registered.commits rfl stores, accounted.sublist filter_sublist⟩
      | error error => exact goesOn .failed rfl stores accounted
  | committed previous =>
    obtain ⟨-, ⟨⟩⟩ := ite_none_left_eq_some.mp taken
    exact settle_sound (discardPrevious_keeps put previous) sound.accounted
      (fun _ => goesOn .releasing rfl) (goesOn .releasing rfl) fates
  | failed =>
    obtain ⟨-, ⟨⟩⟩ := ite_none_left_eq_some.mp taken
    exact settle_sound (discard_keeps _) sound.accounted
      (fun _ => goesOn .abandoning rfl) (goesOn .abandoning rfl) fates
  | abandoning =>
    obtain ⟨-, ⟨⟩⟩ := ite_none_left_eq_some.mp taken
    exact settle_sound (releaseReservation_keeps _) sound.accounted
      (fun _ => abandons) abandons fates
  | releasing =>
    obtain ⟨-, ⟨⟩⟩ := ite_none_left_eq_some.mp taken
    exact settle_sound (releaseReservation_keeps _) sound.accounted
      (fun _ => ends rfl) (ends rfl) fates

theorem Sound.step (oneLength : ∀ data other,
    cache.addressing.address data = cache.addressing.address other → data.length = other.length)
    {action : Action} (sound : Sound cache system) (present : ReplacementsPresent system action)
    (taken : system.step cache action = some next) : Sound cache next := by
  cases action with
  | start put =>
    simp only [PutSystem.step] at taken
    split at taken
    · cases taken
    next free =>
      split at taken
      · cases taken
        exact sound
      · cases taken
        have absent : system.puts.lookup put.scopedKey = none := by simpa using free
        exact ⟨sound.registered.starts absent system.stores, sound.accounted⟩
  | advance scopedKey =>
    simp only [PutSystem.step] at taken
    cases found : system.puts.lookup scopedKey with
    | none =>
      simp only [found] at taken
      cases taken
    | some entry =>
      obtain ⟨put, _⟩ := entry
      simp only [found] at taken
      obtain rfl := sound.registered.scopedKey_eq found
      exact sound.advance oneLength present found taken

end

section

variable {cache : ContentCache}

/-- The committed limits hold in every run in which each replacement finds its row, also
while commits are pending. -/
theorem committed_within_limits (oneLength : ∀ data other,
    cache.addressing.address data = cache.addressing.address other → data.length = other.length)
    {stores : Stores} (consistent : Consistent cache.addressing stores)
    (within : WithinCommittedLimits cache stores) {actions : List Action} {final : PutSystem}
    (guarded : Guarded (PutSystem.step cache) ReplacementsPresent (initial stores) actions)
    (ran : run (PutSystem.step cache) (initial stores) actions = some final) :
    WithinCommittedLimits cache final.stores := by
  have sound : Sound cache final :=
    run_preserves_of_guarded (Sound cache)
      (fun sound => sound.step oneLength)
      (.initial (accounted_nil consistent within)) guarded ran
  exact sound.accounted.withinCommittedLimits

end

def algorithmName : Str := ['s', 'h', 'a', '2', '5', '6', '-']

/-- Bytes are spelled out behind the name of an algorithm. -/
def spelledAddressing : Addressing where
  address data := algorithmName ++ data.map fun byte => Char.ofNat byte.toNat
  isIntegrity text := startsWith text algorithmName

def twoObjects : ContentCache where
  addressing := spelledAddressing
  limits := {
    maxObjectBytes := 8
    maxOwnerPartialBytes := 64
    maxOwnerPartialObjects := 64
    maxOwnerCommittedBytes := 64
    maxOwnerCommittedObjects := 2
    maxGlobalBytes := 64
    maxGlobalPartialObjects := 64
    maxGlobalCommittedObjects := 2
    minFreeSpaceBytes := 0
    partialTtlSecs := 10 }

def roomyDisk : Stores := { Stores.empty with freeSpace := [64, 64, 64, 64] }

def hostPut (key : Char) (byte : UInt8) (reservationPath : Nat) : OwnerPut where
  owner := .host
  key := [key]
  data := [byte]
  reservationPath := reservationPath

def parts (put : OwnerPut) (now count : Nat) : List Action :=
  List.replicate count (.advance put.scopedKey now Fates.allWork)

def wholePut (put : OwnerPut) (now : Nat) : List Action := .start put :: parts put now 7

/-- While the replacement of the oldest row is admitted, a third key is put. -/
def replacedAndEvicted : List Action :=
  wholePut (hostPut 'a' 1 0) 1 ++ wholePut (hostPut 'b' 2 1) 2 ++
    (.start (hostPut 'a' 3 2) :: parts (hostPut 'a' 3 2) 3 3) ++
    wholePut (hostPut 'c' 4 3) 4 ++ parts (hostPut 'a' 3 2) 5 4

theorem length_eq_of_spelled (data other : Bytes)
    (same : spelledAddressing.address data = spelledAddressing.address other) :
    data.length = other.length := by
  have spelled := append_cancel_left same
  have lengths := congrArg List.length spelled
  rwa [length_map, length_map] at lengths

theorem consistent_roomyDisk : Consistent spelledAddressing roomyDisk where
  present _ _ found := by cases found
  own _ _ found := by cases found

theorem within_roomyDisk : WithinCommittedLimits twoObjects roomyDisk where
  bytes _ _ := Nat.zero_le _
  objects _ _ := Nat.zero_le _

/-- Where each put ends before the next, the oldest row goes and the limits
hold. -/
theorem committed_within_limits_twoObjects : ∃ final, run (step twoObjects) (initial roomyDisk)
    (wholePut (hostPut 'a' 1 0) 1 ++ wholePut (hostPut 'b' 2 1) 2 ++
      wholePut (hostPut 'a' 3 2) 3 ++ wholePut (hostPut 'c' 4 3) 4) = some final ∧
      final.pending = [] ∧ WithinCommittedLimits twoObjects final.stores := by
  let actions :=
    wholePut (hostPut 'a' 1 0) 1 ++ wholePut (hostPut 'b' 2 1) 2 ++
      wholePut (hostPut 'a' 3 2) 3 ++ wholePut (hostPut 'c' 4 3) 4
  have isIdle : (run (step twoObjects) (initial roomyDisk) actions).map pending = some [] := by
    decide +kernel
  have guarded : Guarded (step twoObjects) ReplacementsPresent (initial roomyDisk) actions := by
    decide +kernel
  obtain ⟨final, ran, idle⟩ := map_eq_some_iff.mp isIdle
  exact ⟨final, ran, idle, committed_within_limits length_eq_of_spelled
    consistent_roomyDisk within_roomyDisk guarded ran⟩

/-- A replacement that lands after its row was evicted is one row too many. -/
theorem evicted_replacement_exceeds : Consistent spelledAddressing roomyDisk ∧
    WithinCommittedLimits twoObjects roomyDisk ∧
    ∃ final, run (step twoObjects) (initial roomyDisk) replacedAndEvicted = some final ∧
      final.pending = [] ∧ ¬ WithinCommittedLimits twoObjects final.stores := by
  refine ⟨consistent_roomyDisk, within_roomyDisk, ?_⟩
  have ends : (run (step twoObjects) (initial roomyDisk) replacedAndEvicted).map (fun final =>
    (final.pending, (final.stores.keptKeys Scope.everyone.keeps).card)) = some ([], 3) := by
    decide +kernel
  obtain ⟨final, ran, outcome⟩ := map_eq_some_iff.mp ends
  obtain ⟨idle, count⟩ := Prod.mk.inj outcome
  refine ⟨final, ran, idle, fun within => ?_⟩
  have few := within.objects .everyone (by decide)
  rw [count] at few
  exact absurd few (by decide)

end PutSystem

end Arclain.Cache
