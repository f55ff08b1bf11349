import Arclain.CommittedLimits
import Arclain.PagedListings

namespace Arclain.Cache

/-!
# Blobs that rows refer to

A blob is removed where no row is found to have its address.  What is found is right if the
listing has every row; a page that comes after the rows before it have changed may miss one.
-/

open KeyedMap List Option FaultyCalls Text ActionRun ContentCache Keeps

def RowsBacked (digest : Addressing) (onDisk : List Str) (stores : Stores) : Prop :=
  ∀ key row, stores.rows.lookup key = some row →
    digest.isIntegrity row.contentHash = true → row.contentHash ∈ onDisk →
      ∃ bytes, stores.blobs.lookup row.contentHash = some bytes

section

variable (entries : List CacheEntry) (stores : Stores)

def Faithful : Prop :=
  ∀ entry ∈ entries, ∀ row, stores.rows.lookup entry.key = some row → entry = row.entry entry.key

def ListedBefore : Prop :=
  ∀ entry ∈ stores.entriesLru.take entries.length, entry ∈ entries

def FullyListed : Prop :=
  ∀ entry ∈ stores.entriesLru, entry ∈ entries

end

section

variable {digest : Addressing} {onDisk : List Str} {stores : Stores}

theorem RowsBacked.shrinks : Shrinks (RowsBacked digest onDisk) where
  eraseRow stores key backed := by
    intro other row found isIntegrity seen
    replace found := lookup_of_erase found
    exact backed other row found isIntegrity seen
  eraseBlob stores contentHash backed unreferenced := by
    intro key row found isIntegrity seen
    rw [lookup_erase_ite, if_neg (unreferenced key row found)]
    exact backed key row found isIntegrity seen
  answers _ _ backed := backed

section

variable (backed : RowsBacked digest onDisk stores)
include backed

theorem RowsBacked.insertBlob (contentHash : Str) (data : Bytes) :
    RowsBacked digest onDisk { stores with blobs := stores.blobs.insert contentHash data } := by
  intro key row found isIntegrity seen
  obtain ⟨bytes, stored⟩ := backed key row found isIntegrity seen
  rw [lookup_insert_ite]
  split
  · exact ⟨data, rfl⟩
  · exact ⟨bytes, stored⟩

theorem RowsBacked.insertRow {key : Str} {row : Row}
    (stored : digest.isIntegrity row.contentHash = true → row.contentHash ∈ onDisk →
      ∃ bytes, stores.blobs.lookup row.contentHash = some bytes) :
    RowsBacked digest onDisk { stores with rows := stores.rows.insert key row } := by
  intro other found looked isIntegrity seen
  rw [lookup_insert_ite] at looked
  split at looked
  · cases looked
    exact stored isIntegrity seen
  · exact backed other found looked isIntegrity seen

theorem RowsBacked.retainKeys (keep : Str → Bool) :
    RowsBacked digest onDisk { stores with rows := stores.rows.retainKeys keep } := by
  intro key row found isIntegrity seen
  have kept := lookup_retainKeys_eq_some.mp found
  exact backed key row kept.1 isIntegrity seen

theorem RowsBacked.recorded :
    RowsBacked digest (onDisk ++ stores.blobs.keys) stores := by
  intro key row found isIntegrity seen
  rcases mem_append.mp seen with earlier | isThere
  · exact backed key row found isIntegrity earlier
  · have present := AList.mem_keys.mpr isThere
    rw [← AList.lookup_isSome] at present
    exact isSome_iff_exists.mp present

end

end

section

variable {stores : Stores} {key : Str} {now : Nat}

/-- The rows after the last use of one was updated. -/
def touched (key : Str) (now : Nat) (stores : Stores) : Stores :=
  match stores.rows.lookup key with
  | some row => { stores with rows := stores.rows.insert key { row with usedAt := now } }
  | none => stores

theorem updateLastAccessed_state (fates : Fates CacheCall) :
    (updateLastAccessed key now stores fates).state = stores ∨
      (updateLastAccessed key now stores fates).state = touched key now stores := by
  have effect : ((match stores.rows.lookup key with
    | some row =>
      ((), { stores with
        rows := stores.rows.insert key { row with usedAt := now } })
    | none => ((), stores)) : Unit × Stores).2 = touched key now stores := by
    unfold touched
    cases stores.rows.lookup key with
    | some row | none => rfl
  unfold updateLastAccessed perform Faulty.call
  cases fates.next .index with
  | works => exact .inr effect
  | fails => exact .inl rfl
  | failsAfterEffect => exact .inr effect
  | crashes => exact .inl rfl
  | crashesAfterEffect => exact .inr effect

theorem lookup_touched {other : Str} {row : Row}
    (found : (touched key now stores).rows.lookup other = some row) :
    ∃ before, stores.rows.lookup other = some before ∧ row.entry other = before.entry other := by
  unfold touched at found
  cases present : stores.rows.lookup key with
  | none =>
    rw [present] at found
    exact ⟨row, found, rfl⟩
  | some before =>
    rw [present] at found
    dsimp only at found
    rw [lookup_insert_ite] at found
    split at found
    next same =>
      cases found
      exact ⟨before, same ▸ present, rfl⟩
    · exact ⟨row, found, rfl⟩

theorem mem_entriesLru_of_touched {entry : CacheEntry}
    (mem : entry ∈ (touched key now stores).entriesLru) : entry ∈ stores.entriesLru := by
  obtain ⟨_, found, same⟩ := mem_entriesLru.mp mem
  obtain ⟨before, earlier, equal⟩ := lookup_touched found
  exact mem_entriesLru.mpr ⟨before, earlier, same.trans equal⟩

theorem blobs_touched : (touched key now stores).blobs = stores.blobs := by
  unfold touched
  cases stores.rows.lookup key with
  | some | none => rfl

theorem RowsBacked.touched {digest : Addressing} {onDisk : List Str}
    (backed : RowsBacked digest onDisk stores) :
    RowsBacked digest onDisk (touched key now stores) := by
  intro other row found isIntegrity seen
  obtain ⟨before, earlier, equal⟩ := lookup_touched found
  have same : row.contentHash = before.contentHash := congrArg CacheEntry.contentHash equal
  rw [blobs_touched]
  rw [same] at isIntegrity seen ⊢
  exact backed other before earlier isIntegrity seen

theorem Faithful.touched {entries : List CacheEntry} (faithful : Faithful entries stores) :
    Faithful entries (touched key now stores) := by
  intro entry mem _ found
  obtain ⟨before, earlier, equal⟩ := lookup_touched found
  rw [equal]
  exact faithful entry mem before earlier

end

section

variable {digest : Addressing} {holds : Stores → Prop} {entries : List CacheEntry}
  {stores : Stores}

theorem listedBefore_nil : ListedBefore [] stores := by
  intro _ mem
  cases mem

theorem FullyListed.entry_mem (listed : FullyListed entries stores) {key : Str} {row : Row}
    (found : stores.rows.lookup key = some row) : row.entry key ∈ entries :=
  listed (row.entry key) (mem_entriesLru.mpr ⟨row, found, rfl⟩)

theorem listedBefore_of_keys (faithful : Faithful entries stores) (listed :
    ∀ entry ∈ stores.entriesLru.take entries.length, entry.key ∈ entries.map CacheEntry.key) :
    ListedBefore entries stores := by
  intro entry mem
  obtain ⟨row, found, same⟩ := mem_entriesLru.mp (mem_of_mem_take mem)
  obtain ⟨other, known, equal⟩ := mem_map.mp (listed entry mem)
  have own := faithful other known row (equal ▸ found)
  rw [equal, ← same] at own
  exact own ▸ known

theorem listedBefore_append (listed : ListedBefore entries stores) (limit : Nat) :
    ListedBefore (entries ++ (stores.entriesLru.drop entries.length).take limit) stores := by
  intro entry mem
  rw [length_append, take_add] at mem
  rcases mem_append.mp mem with earlier | isNew
  · exact mem_append_left _ (listed entry earlier)
  · refine mem_append_right _ (take_subset_take_left _ ?_ isNew)
    exact length_take_le _ _

theorem fullyListed_append {limit : Nat} (listed : ListedBefore entries stores) (short :
    ((stores.entriesLru.drop entries.length).take limit).length < limit) :
    FullyListed (entries ++ (stores.entriesLru.drop entries.length).take limit) stores := by
  have whole : (stores.entriesLru.drop entries.length).take limit =
      stores.entriesLru.drop entries.length := by
    refine take_of_length_le ?_
    rw [length_take] at short
    omega
  rw [whole]
  intro entry mem
  rw [← take_append_drop entries.length stores.entriesLru] at mem
  rcases mem_append.mp mem with earlier | later
  · exact mem_append_left _ (listed entry earlier)
  · exact mem_append_right _ later

theorem faithful_append (faithful : Faithful entries stores) (limit : Nat) :
    Faithful (entries ++ (stores.entriesLru.drop entries.length).take limit) stores := by
  intro entry mem row found
  rcases mem_append.mp mem with earlier | isNew
  · exact faithful entry earlier row found
  · obtain ⟨_, looked, same⟩ :=
      mem_entriesLru.mp (mem_of_mem_drop (mem_of_mem_take isNew))
    rw [found] at looked
    cases looked
    exact same

theorem reconcileFullyListed_keeps (shrinks : Shrinks holds) (entries : List CacheEntry) :
    Triple (fun stores => holds stores ∧ FullyListed entries stores)
      (reconcileListed digest entries)
      ⟨fun _ => holds, fun _ => holds, holds⟩ := by
  refine (reconcileListed_keeps shrinks entries).of_stronger ?_
  intro stores held
  exact ⟨held.1, fun key row found => ⟨row.entry key, held.2.entry_mem found, rfl, rfl⟩⟩

theorem evictListed_keeps {cache : ContentCache} (shrinks : Shrinks holds)
    (entries : List CacheEntry) (reservedBytes : Nat) :
    Triple (fun stores => holds stores ∧ FullyListed entries stores)
      (cache.evictListed entries reservedBytes)
      ⟨fun _ => holds, fun _ => holds, holds⟩ := by
  have grouped : Triple (fun stores => holds stores ∧ FullyListed entries stores)
      (Faulty.inspect fun stores => stores.physicalGroupsLru cache.addressing entries : Program _)
      ⟨fun groups stores => holds stores ∧ Covered cache.addressing everyKey groups stores,
        fun _ => holds, holds⟩ := by
    intro stores _ held
    exact ⟨held.1, covered_of_listed fun _ _ found _ => held.2.entry_mem found⟩
  refine Triple.bind grouped fun groups => ?_
  dsimp only
  have covering : Shrinks fun stores =>
    holds stores ∧ Covered cache.addressing everyKey groups stores :=
    shrinks.and Covered.shrinks
  refine Triple.bind ((globalCapacityFits_keeps covering.answers _ _).leaving
    fun _ held => held.1) fun fits => ?_
  cases fits with
  | true => exact Triple.pure fun _ held => held.1
  | false =>
    exact (evictForCapacity_covers shrinks reservedBytes groups
      _).returning (fun _ _ held => held.1)

end

section

variable {cache : ContentCache} {onDisk : List Str}

theorem discard_backs (contentHash : Str) : Keeps (RowsBacked cache.addressing onDisk)
    (discardBlobIfUnreferenced cache.addressing contentHash) :=
  discardBlobIfUnreferenced_keeps contentHash fun stores held unreferenced =>
    RowsBacked.shrinks.eraseBlob stores contentHash held unreferenced

theorem deleteByPattern_backs (pattern : Str) :
    Keeps (RowsBacked cache.addressing onDisk) (deleteByPattern pattern) :=
  Keeps.call fun _ backed => backed.retainKeys _

theorem onlyIf_keeps {Value : Type} {holds : Stores → Prop} {program : Program Value}
    (keeps : Keeps holds program) (test : Bool) (otherwise : Value) :
    Keeps holds (ContentCache.onlyIf test program otherwise) :=
  Keeps.ite keeps (Keeps.pure _)

theorem removeRows_backs (scopedKey key : Str) (legacyRowPresent : Bool) :
    Keeps (RowsBacked cache.addressing onDisk)
      (cache.removeRows scopedKey key legacyRowPresent) := by
  have deletes (name : Str) : Keeps (RowsBacked cache.addressing onDisk) (deleteRow name) :=
    deleteRow_keeps RowsBacked.shrinks name
  have looks (name : Str) : Keeps (RowsBacked cache.addressing onDisk) (getRow name) :=
    keeps_look .index _
  refine (looks scopedKey).bind fun scopedEntry => ?_
  refine (onlyIf_keeps (looks key) _ _).bind fun legacyEntry => ?_
  refine (deletes scopedKey).bind fun removed => ?_
  refine (onlyIf_keeps (deletes key) _ _).bind fun legacyRemoved => ?_
  exact (forEach discard_backs _).bind fun _ => pure _

variable (owner : CacheOwner)

theorem removeForOwner_backs (key : Str) :
    Keeps (RowsBacked cache.addressing onDisk) (cache.removeForOwner owner key) := by
  cases owner with
  | plugin => exact removeRows_backs _ _ _
  | host =>
    have looks : Keeps (RowsBacked cache.addressing onDisk) (hasRow key) := keeps_look .index _
    exact looks.bind fun _ => removeRows_backs _ _ _

theorem removeByPatternForOwner_backs (pattern : Str) :
    Keeps (RowsBacked cache.addressing onDisk) (cache.removeByPatternForOwner owner pattern) := by
  have looks : Keeps (RowsBacked cache.addressing onDisk) contentHashes := keeps_look .index _
  refine looks.bind fun candidateHashes => ?_
  refine (deleteByPattern_backs _).bind fun removed => ?_
  refine (onlyIf_keeps (deleteByPattern_backs _) _ _).bind fun unscoped => ?_
  exact (forEach discard_backs _).bind fun _ => pure _

theorem publish_backs (scopedKey : Str) (data : Bytes) (isStreamed : Bool) (now : Nat) :
    Triple (fun stores =>
      RowsBacked cache.addressing onDisk stores ∧ ∃ bytes,
        stores.blobs.lookup (cache.addressing.address data) = some bytes)
      (cache.publish scopedKey data isStreamed now)
      ⟨fun _ => RowsBacked cache.addressing onDisk, fun _ => RowsBacked cache.addressing onDisk,
        RowsBacked cache.addressing onDisk⟩ := by
  let stored := fun stores : Stores =>
    RowsBacked cache.addressing onDisk stores ∧ ∃ bytes,
      stores.blobs.lookup (cache.addressing.address data) = some bytes
  have upserts : Keeps stored
      (upsertWithRetry scopedKey (cache.addressing.address data)
        data.length now 3) := by
    refine upsertWithRetry_keeps (fun stores row held address _ => ?_) 3
    refine ⟨held.1.insertRow fun _ _ => ?_, held.2⟩
    rw [address]
    exact held.2
  have tries : Triple stored (cache.upsertSriUnlocked scopedKey data now)
      ⟨fun _ => RowsBacked cache.addressing onDisk, fun _ => RowsBacked cache.addressing onDisk,
        RowsBacked cache.addressing onDisk⟩ :=
    (Keeps.ite (Keeps.pure _) upserts).consequence (fun _ => id)
      (fun _ _ held => held.1) (fun _ _ held => held.1) fun _ held => held.1
  refine Triple.bind tries fun result => ?_
  cases result with
  | ok => exact pure _
  | error error =>
    cases isStreamed with
    | true => exact (discard_backs _).attempt.bind fun _ => throw _
    | false => exact throw _

end

namespace SharedCache

/-- What the holder of the lock has found or written so far is right. -/
def Progress (digest : Addressing) (stores : Stores) : Option LockedTask → Prop
  | some (.listing entries _) => Faithful entries stores ∧ ListedBefore entries stores
  | some (.listed entries _) => FullyListed entries stores
  | some (.publishing _ data _) =>
    ∃ bytes, stores.blobs.lookup (digest.address data) = some bytes
  | _ => True

/-- The rows have their blobs, and so far the holder of the lock is right. -/
structure Sound (digest : Addressing) (system : SharedCache) : Prop where
  backed : RowsBacked digest system.onDisk system.stores
  progress : Progress digest system.stores system.holder

/-- The rows before the next page, if there is one to come, are listed. -/
def stillListed (stores : Stores) : Option LockedTask → Bool
  | some (.listing entries _) =>
    (stores.entriesLru.take entries.length).all fun entry => entry.key ∈ entries.map CacheEntry.key
  | _ => true

/-- An update between two pages leaves the rows before the next page among the
listed ones. -/
def keepsListed (system : SharedCache) : Action → Bool
  | .touch key now fates =>
    stillListed (updateLastAccessed key now system.stores fates).state system.holder
  | _ => true

section

variable {cache : ContentCache} {system next : SharedCache}
variable {Value : Type} {digest : Addressing} {before : Stores → Prop} {program : Program Value}
variable {following : Value → Option LockedTask}

theorem conclude_sound {values : Value → Stores → Prop}
    (meets : Triple before program ⟨values, fun _ => RowsBacked digest system.onDisk,
      RowsBacked digest system.onDisk⟩)
    (held : before system.stores)
    (returns : ∀ value stores, values value stores → RowsBacked digest system.onDisk stores ∧
      Progress digest stores (following value))
    (fates : Fates CacheCall) : Sound digest (system.conclude fates program following) := by
  have met := meets system.stores fates held
  unfold conclude
  cases ended : program system.stores fates with
  | returned value stores rest =>
    rw [ended] at met
    have sound := returns value stores met
    exact ⟨sound.1.recorded, sound.2⟩
  | failed _ stores rest | crashed stores =>
    rw [ended] at met
    have backed : RowsBacked digest system.onDisk stores := met
    exact ⟨backed.recorded, trivial⟩

section

variable (meets : Triple before program ⟨fun _ => RowsBacked digest system.onDisk,
  fun _ => RowsBacked digest system.onDisk, RowsBacked digest system.onDisk⟩)
include meets

theorem conclude_sound_of_keeps (held : before system.stores)
    (progress : ∀ value stores, Progress digest stores (following value))
    (fates : Fates CacheCall) : Sound digest (system.conclude fates program following) :=
  conclude_sound meets held (fun value stores backed => ⟨backed, progress value stores⟩) fates

theorem release_sound (held : before system.stores) (fates : Fates CacheCall) :
    Sound digest (system.conclude fates program fun _ => none) := by
  refine conclude_sound_of_keeps meets held ?_ fates
  exact fun _ _ => trivial

end

theorem Sound.proceed {task : LockedTask} (sound : Sound cache.addressing system)
    (holds : system.holder = some task) (now : Nat) (fates : Fates CacheCall) :
    Sound cache.addressing (system.proceed cache task now fates) := by
  have progress := sound.progress
  rw [holds] at progress
  -- A listing that starts has listed nothing.
  have starts (use : ListingUse) (stores : Stores) :
      Progress cache.addressing stores (some (.listing [] use)) :=
    ⟨fun _ never => (not_mem_nil never).elim, listedBefore_nil⟩
  unfold SharedCache.proceed
  cases task with
  | maintaining nowSecs =>
    have scans : Keeps (RowsBacked cache.addressing system.onDisk)
        (cache.scanReservations nowSecs) :=
      Keeps.call fun _ => id
    exact conclude_sound_of_keeps scans sound.backed (fun _ => starts _) fates
  | listing entries use =>
    obtain ⟨faithful, listed⟩ := progress
    have pages :=
      @look_returns (fun stores =>
        RowsBacked cache.addressing system.onDisk stores ∧
          Faithful entries stores ∧ ListedBefore entries stores)
        _ .index fun stores => (stores.entriesLru.drop entries.length).take indexPageSize
    refine conclude_sound (pages.leaving fun _ held => held.1)
      ⟨sound.backed, faithful, listed⟩ ?_ fates
    rintro page stores ⟨⟨backed, faithful, listed⟩, rfl⟩
    refine ⟨backed, ?_⟩
    split
    next short => exact fullyListed_append listed short
    · exact ⟨faithful_append faithful _, listedBefore_append listed _⟩
  | listed entries use =>
    cases use with
    | reconciling total =>
      refine conclude_sound_of_keeps (reconcileFullyListed_keeps RowsBacked.shrinks entries)
        ⟨sound.backed, progress⟩ ?_ fates
      intro _ stores
      cases total with
      | none => trivial
      | some total => exact starts _ stores
    | reclaiming total =>
      exact release_sound (evictListed_keeps RowsBacked.shrinks entries total)
        ⟨sound.backed, progress⟩ fates
    | makingOwnerRoom commit =>
      exact conclude_sound_of_keeps (makeRoomWithin_keeps RowsBacked.shrinks _ _ _)
        sound.backed (fun _ => starts _) fates
    | makingGlobalRoom commit =>
      exact release_sound (makeRoomWithin_keeps RowsBacked.shrinks _ _ _)
        sound.backed fates
  | writing scopedKey data isStreamed =>
    have writes : Triple (RowsBacked cache.addressing system.onDisk)
        (writeHash cache.addressing data)
        ⟨fun _ stores =>
          RowsBacked cache.addressing system.onDisk stores ∧ ∃ bytes,
            stores.blobs.lookup (cache.addressing.address data) = some bytes,
          fun _ => RowsBacked cache.addressing system.onDisk,
          RowsBacked cache.addressing system.onDisk⟩ :=
      Triple.call (fun _ backed => ⟨backed.insertBlob _ data, data, AList.lookup_insert _⟩)
        (fun _ => id) (fun _ backed => backed.insertBlob _ data)
        (fun _ => id) fun _ backed => backed.insertBlob _ data
    refine conclude_sound writes sound.backed ?_ fates
    exact fun _ _ => id
  | publishing scopedKey data isStreamed =>
    exact release_sound (publish_backs scopedKey data isStreamed now) ⟨sound.backed, progress⟩ fates
  | discarding contentHash => exact release_sound (discard_backs contentHash) sound.backed fates
  | removing owner key => exact release_sound (removeForOwner_backs owner key) sound.backed fates
  | removingByPattern owner pattern =>
    exact release_sound (removeByPatternForOwner_backs owner pattern) sound.backed fates

theorem Sound.touch {key : Str} {now : Nat} {fates : Fates CacheCall}
    (sound : Sound cache.addressing system)
    (kept : keepsListed system (.touch key now fates) = true) : Sound cache.addressing
      { system with
        stores := (updateLastAccessed key now system.stores fates).state } := by
  change stillListed (updateLastAccessed key now system.stores fates).state
      system.holder = true at kept
  have updated := @updateLastAccessed_state system.stores key now fates
  generalize (updateLastAccessed key now system.stores fates).state = stores at kept updated ⊢
  rcases updated with rfl | rfl
  · exact sound
  · refine ⟨sound.backed.touched, ?_⟩
    have progress := sound.progress
    cases holds : system.holder with
    | none => trivial
    | some task =>
      rw [holds] at progress kept
      cases task with
      | listing entries use =>
        have faithful : Faithful entries (touched key now system.stores) := progress.1.touched
        refine ⟨faithful, listedBefore_of_keys faithful ?_⟩
        intro entry mem
        exact of_decide_eq_true (all_eq_true.mp kept entry mem)
      | listed entries use =>
        exact fun entry mem => progress entry (mem_entriesLru_of_touched mem)
      | publishing scopedKey data isStreamed =>
        change ∃ bytes, (touched key now system.stores).blobs.lookup _ = some bytes
        rw [blobs_touched]
        exact progress
      | maintaining nowSecs | writing scopedKey data isStreamed | discarding contentHash
      | removing owner | removingByPattern owner => trivial

theorem progress_task (request : LockRequest) (stores : Stores) :
    Progress cache.addressing stores (request.task cache) := by
  have starts (use : ListingUse) : Progress cache.addressing stores (some (.listing [] use)) :=
    ⟨fun _ never => (not_mem_nil never).elim, listedBefore_nil⟩
  cases request with
  | maintain nowSecs | commitStreaming scopedKey data | discard contentHash | remove owner key
  | removeByPattern owner => trivial
  | reserve => exact starts _
  | prepareCommit =>
    dsimp only [LockRequest.task]
    split
    · trivial
    · exact starts _
  | put scopedKey data =>
    dsimp only [LockRequest.task]
    split
    · trivial
    · trivial

theorem Sound.step {action : Action} (sound : Sound cache.addressing system)
    (kept : keepsListed system action = true) (taken : system.step cache action = some next) :
    Sound cache.addressing next := by
  cases action with
  | touch _ now fates =>
    cases taken
    exact sound.touch kept
  | lock request =>
    simp only [SharedCache.step] at taken
    split at taken
    · cases taken
    · cases taken
      exact ⟨sound.backed, progress_task request system.stores⟩
  | proceed now fates =>
    obtain ⟨_, holds, rfl⟩ := map_eq_some_iff.mp taken
    exact sound.proceed holds now fates

end

section

variable {cache : ContentCache}

/-- Where the rows before the next page of a listing stay listed, rows have the blobs they
had. -/
theorem referenced_blobs_kept {stores : Stores} {actions : List Action} {final : SharedCache}
    (guarded : Guarded (SharedCache.step cache)
      (fun system action => keepsListed system action = true)
      (initial stores) actions)
    (ran : run (SharedCache.step cache) (initial stores) actions = some final) :
    RowsBacked cache.addressing final.onDisk final.stores := by
  have initially : Sound cache.addressing (initial stores) := by
    refine ⟨fun key row found isIntegrity seen => ?_, trivial⟩
    have present := AList.mem_keys.mpr seen
    rw [← AList.lookup_isSome] at present
    exact isSome_iff_exists.mp present
  have sound : Sound cache.addressing final :=
    run_preserves_of_guarded (Sound cache.addressing)
      (fun sound => sound.step) initially guarded ran
  exact sound.backed

end

def ampleCache : ContentCache where
  addressing := PutSystem.spelledAddressing
  limits := {
    maxObjectBytes := 8
    maxOwnerPartialBytes := 64
    maxOwnerPartialObjects := 64
    maxOwnerCommittedBytes := 64
    maxOwnerCommittedObjects := 2000
    maxGlobalBytes := 64
    maxGlobalPartialObjects := 64
    maxGlobalCommittedObjects := 2000
    minFreeSpaceBytes := 0
    partialTtlSecs := 10 }

def numberedKey (number : Nat) : Str := [Char.ofNat number]

/-- One row more than a page has.  All but the last have the same blob. -/
def numberedRows : List ((_ : Str) × Row) :=
  (List.range (indexPageSize + 1)).map fun number =>
    ⟨numberedKey number,
      { id := number
        contentHash := ampleCache.addressing.address (if number < indexPageSize then [97] else [98])
        sizeBytes := some 1
        usedAt := 0 }⟩

theorem nodupKeys_numberedRows : numberedRows.NodupKeys := by
  have read : ∀ number < indexPageSize + 1, (Char.ofNat number).toNat = number := by decide +kernel
  unfold List.NodupKeys List.keys numberedRows
  rw [List.map_map]
  refine List.Nodup.map_on ?_ nodup_range
  intro first firstMember second secondMember same
  have sameKey : numberedKey first = numberedKey second := same
  have chars := congrArg Char.toNat (List.cons.inj sameKey).1
  rwa [read first (mem_range.mp firstMember), read second (mem_range.mp secondMember)] at chars

def numberedStores : Stores :=
  { Stores.empty with
    rows := ⟨numberedRows, nodupKeys_numberedRows⟩
    blobs :=
      (AList.insert (ampleCache.addressing.address [97]) [97] ∅).insert
        (ampleCache.addressing.address [98]) [98] }

/-- A maintenance between whose two pages the first row is read. -/
def maintainedAcrossRead : List Action :=
  [.lock (.maintain 0), .proceed 0 Fates.allWork, .proceed 0 Fates.allWork,
    .touch (numberedKey 0) 1 Fates.allWork, .proceed 0 Fates.allWork, .proceed 0 Fates.allWork]

/-- Two puts of one content, a read, a replacement and a maintenance. -/
def readAndReplaced : List Action :=
  [.lock (.put (numberedKey 0) [97]), .proceed 1 Fates.allWork,
    .proceed 1 Fates.allWork, .lock (.put (numberedKey 1) [97]),
    .proceed 2 Fates.allWork, .proceed 2 Fates.allWork, .touch (numberedKey 0) 3 Fates.allWork,
    .lock (.put (numberedKey 1) [98]), .proceed 4 Fates.allWork, .proceed 4 Fates.allWork,
    .lock (.discard (ampleCache.addressing.address [97])),
    .proceed 5 Fates.allWork, .lock (.maintain 6), .proceed 6 Fates.allWork,
    .touch (numberedKey 0) 7 Fates.allWork, .proceed 7 Fates.allWork, .proceed 7 Fates.allWork]

/-- The content that one of two keys still has is kept. -/
theorem referenced_blobs_kept_readAndReplaced : ∃ final,
    run (SharedCache.step ampleCache) (initial Stores.empty) readAndReplaced = some final ∧
      final.holder.isNone = true ∧ final.stores.rows.keys = [numberedKey 0, numberedKey 1] ∧
      RowsBacked ampleCache.addressing final.onDisk final.stores := by
  have ends : (run (SharedCache.step ampleCache) (initial Stores.empty) readAndReplaced).map
      (fun final => (final.holder.isNone, final.stores.rows.keys)) =
        some (true, [numberedKey 0, numberedKey 1]) := by
    decide +kernel
  have guarded : Guarded (SharedCache.step ampleCache)
      (fun system action => keepsListed system action = true)
      (initial Stores.empty) readAndReplaced := by
    decide +kernel
  obtain ⟨final, ran, outcome⟩ := map_eq_some_iff.mp ends
  obtain ⟨free, keys⟩ := Prod.mk.inj outcome
  exact ⟨final, ran, free, keys, referenced_blobs_kept guarded ran⟩

/-- A read of a listed row moves another row before the next page, and its blob is removed. -/
theorem skipped_row_loses_blob : ∃ final, run (SharedCache.step ampleCache) (initial numberedStores)
    maintainedAcrossRead = some final ∧ final.holder.isNone = true ∧
      ¬ RowsBacked ampleCache.addressing final.onDisk final.stores := by
  let lost := ampleCache.addressing.address [98]
  have ends : (run (SharedCache.step ampleCache) (initial numberedStores) maintainedAcrossRead).map
      (fun final =>
        (final.holder.isNone, (final.stores.rows.lookup (numberedKey indexPageSize)).map
          Row.contentHash, decide (lost ∈ final.onDisk), final.stores.blobs.lookup lost)) =
        some (true, some lost, true, none) := by
    decide +kernel
  obtain ⟨final, ran, outcome⟩ := map_eq_some_iff.mp ends
  simp only [Prod.mk.injEq] at outcome
  obtain ⟨free, row, seen, missing⟩ := outcome
  obtain ⟨found, present, address⟩ := map_eq_some_iff.mp row
  refine ⟨final, ran, free, fun backed => ?_⟩
  have stored := backed _ found present (by rw [address]; rfl)
    (by rw [address]; exact of_decide_eq_true seen)
  rw [address, missing] at stored
  obtain ⟨_, never⟩ := stored
  cases never

end SharedCache

end Arclain.Cache
