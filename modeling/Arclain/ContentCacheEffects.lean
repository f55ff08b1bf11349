import Arclain.CacheQuotas

namespace Arclain.Cache

/-!
# What the calls of the cache leave behind

Whatever fails, an operation of the cache only takes rows away, apart from the row and the
blob of the resource that it puts.
-/

open KeyedMap List FaultyCalls Text Option Finds Triple

/-- A resource that is put: the key of its row and its bytes. -/
structure Resource where
  key : Str
  data : Bytes

def Backed (stores : Stores) : Prop :=
  ∀ key row, stores.rows.lookup key = some row → stores.blobs.lookup row.contentHash ≠ none

/-- The row says the same, except for its last use. -/
def SameRow (old new : Row) : Prop :=
  old.contentHash = new.contentHash ∧ old.sizeBytes = new.sizeBytes

/-- What the stores may be while resources are put. -/
structure Moved (digest : Addressing) (puts : List Resource)
    (before after : Stores) : Prop where
  memory : after.memory = before.memory
  files : after.files = before.files
  rows : ∀ key row, after.rows.lookup key = some row →
    (∃ old, before.rows.lookup key = some old ∧ SameRow old row) ∨
      ∃ resource ∈ puts, key = resource.key ∧ row.contentHash = digest.address resource.data ∧
        row.sizeBytes = some resource.data.length
  blobs : ∀ contentHash bytes, after.blobs.lookup contentHash = some bytes →
    before.blobs.lookup contentHash = some bytes ∨ ∃ resource ∈ puts,
      contentHash = digest.address resource.data ∧ bytes = resource.data
  backed : Backed after

namespace Moved

variable {digest : Addressing} {puts : List Resource} {before stores next : Stores}

theorem refl (backed : Backed before) : Moved digest puts before before where
  memory := rfl
  files := rfl
  rows _ row found := .inl ⟨row, found, rfl, rfl⟩
  blobs _ _ found := .inl found
  backed := backed

section

variable (moved : Moved digest puts before stores)
include moved

theorem mono {more : List Resource}
    (subset : puts ⊆ more) : Moved digest more before stores where
  __ := moved
  rows key row found :=
    (moved.rows key row found).imp_right fun ⟨resource, mem, isNew⟩ =>
      ⟨resource, subset mem, isNew⟩
  blobs contentHash bytes found :=
    (moved.blobs contentHash bytes found).imp_right fun ⟨resource, mem, isNew⟩ =>
      ⟨resource, subset mem, isNew⟩

theorem of_same (memory : next.memory = stores.memory)
    (files : next.files = stores.files) (rows : next.rows = stores.rows)
    (blobs : next.blobs = stores.blobs) : Moved digest puts before next where
  memory := memory.trans moved.memory
  files := files.trans moved.files
  rows := by
    rw [rows]
    exact moved.rows
  blobs := by
    rw [blobs]
    exact moved.blobs
  backed := by
    intro key row found
    rw [blobs]
    rw [rows] at found
    exact moved.backed key row found

theorem eraseRow (key : Str) :
    Moved digest puts before { stores with rows := stores.rows.erase key } := by
  have kept (other : Str) (row : Row) (found : (stores.rows.erase key).lookup other = some row) :
      stores.rows.lookup other = some row := by
    exact lookup_of_erase found
  exact { moved with
    rows := fun other row found => moved.rows other row (kept other row found)
    backed := fun other row found => moved.backed other row (kept other row found) }

theorem touchRow {key : Str} {row : Row}
    (found : stores.rows.lookup key = some row) (now : Nat) : Moved digest puts before
      { stores with rows := stores.rows.insert key { row with usedAt := now } } := by
  refine { moved with rows := ?_, backed := ?_ }
  · intro other new lookup
    rw [lookup_insert_ite] at lookup
    split at lookup
    next same =>
      cases lookup
      subst same
      exact moved.rows other row found
    · exact moved.rows other new lookup
  · intro other new lookup
    rw [lookup_insert_ite] at lookup
    split at lookup
    · cases lookup
      exact moved.backed key row found
    · exact moved.backed other new lookup

theorem eraseBlob {contentHash : Str} (unreferenced : Unreferenced contentHash stores) :
    Moved digest puts before { stores with blobs := stores.blobs.erase contentHash } := by
  refine { moved with blobs := ?_, backed := ?_ }
  · intro other bytes found
    replace found := lookup_of_erase found
    exact moved.blobs other bytes found
  · intro key row found
    rw [lookup_erase_ite, if_neg (unreferenced key row found)]
    exact moved.backed key row found

theorem insertBlob {resource : Resource} (mem : resource ∈ puts) : Moved digest puts before
      { stores with
        blobs := stores.blobs.insert (digest.address resource.data) resource.data } := by
  refine { moved with blobs := ?_, backed := ?_ }
  · intro other bytes found
    rw [lookup_insert_ite] at found
    split at found
    next same =>
      cases found
      exact .inr ⟨resource, mem, same, rfl⟩
    · exact moved.blobs other bytes found
  · intro key row found
    rw [lookup_insert_ite]
    split
    · exact some_ne_none _
    · exact moved.backed key row found

theorem insertRow {resource : Resource} {row : Row}
    (mem : resource ∈ puts) (address : row.contentHash = digest.address resource.data)
    (size : row.sizeBytes = some resource.data.length)
    (stored : stores.blobs.lookup (digest.address resource.data) ≠ none) :
    Moved digest puts before { stores with rows := stores.rows.insert resource.key row } := by
  refine { moved with rows := ?_, backed := ?_ }
  · intro key new found
    rw [lookup_insert_ite] at found
    split at found
    next same =>
      cases found
      exact .inr ⟨resource, mem, same, address, size⟩
    · exact moved.rows key new found
  · intro key new found
    rw [lookup_insert_ite] at found
    split at found
    · cases found
      rw [address]
      exact stored
    · exact moved.backed key new found

end

end Moved

theorem Moved.shrinks {digest : Addressing} {puts : List Resource} {before : Stores} :
    Shrinks (Moved digest puts before) where
  eraseRow _ key moved := moved.eraseRow key
  eraseBlob _ _ moved unreferenced := moved.eraseBlob unreferenced
  answers _ _ moved := moved.of_same rfl rfl rfl rfl

namespace ContentCache

variable {cache : ContentCache} {puts : List Resource} {before : Stores}

theorem reserveAt_keeps (owner : CacheOwner) (scopedKey : Str)
    (reservationPath targetBytes nowSecs : Nat) : Keeps (Moved cache.addressing puts before)
      (cache.reserveAt owner scopedKey reservationPath targetBytes nowSecs) := by
  have scans : Keeps (Moved cache.addressing puts before) (cache.scanReservations nowSecs) :=
    Keeps.call fun _ moved => moved.of_same rfl rfl rfl rfl
  have writes (record : ReservationRecord) : Keeps (Moved cache.addressing puts before)
      (perform .reservation fun stores =>
        ((), { stores with
          reservations :=
            stores.reservations.insert reservationPath record })) :=
    Keeps.call fun _ moved => moved.of_same rfl rfl rfl rfl
  refine Keeps.ite (Keeps.throw _) (scans.bind fun reservations => ?_)
  refine Keeps.ite (Keeps.throw _) (Keeps.ite (Keeps.throw _) ?_)
  refine Keeps.ite (Keeps.throw _) ?_
  exact (ensureGlobalCapacity_keeps Moved.shrinks _).bind fun _ => writes _

theorem release_keeps (reservationPath : Nat) :
    Keeps (Moved cache.addressing puts before) (release reservationPath) :=
  Keeps.call fun _ moved => moved.of_same rfl rfl rfl rfl

section

variable {resource : Resource}

def Holds (digest : Addressing) (resource : Resource) (stores : Stores) : Prop :=
  ∃ row, stores.rows.lookup resource.key = some row ∧
    row.contentHash = digest.address resource.data

abbrev Written (digest : Addressing) (resource : Resource) (before stores : Stores) : Prop :=
  Moved digest [resource] before stores ∧
    stores.blobs.lookup (digest.address resource.data) ≠ none

/-- Unless one of its calls has failed, a failed put leaves nothing of the resource. -/
def FailedPut (digest : Addressing) (resource : Resource) (before : Stores) (error : CacheError)
    (stores : Stores) : Prop :=
  Moved digest [resource] before stores ∧ (error ≠ .io → Moved digest [] before stores)

/-- A call of a put, which moves the stores for the resource. -/
abbrev putExits {Value : Type} (digest : Addressing) (resource : Resource) (before : Stores)
    (returned : Value → Stores → Prop) : Exits Stores CacheError Value :=
  ⟨fun value stores => Moved digest [resource] before stores ∧ returned value stores,
    FailedPut digest resource before, Moved digest [resource] before⟩

theorem FailedPut.of_io {stores : Stores}
    (moved : Moved cache.addressing [resource] before stores) :
    FailedPut cache.addressing resource before .io stores :=
  ⟨moved, absurd rfl⟩

theorem early {Value : Type} {program : Program Value}
    (keeps : Keeps (Moved cache.addressing [] before) program) :
    Triple (Moved cache.addressing [] before) program ⟨fun _ => Moved cache.addressing [] before,
      FailedPut cache.addressing resource before, Moved cache.addressing [resource] before⟩ :=
  keeps.consequence (fun _ => id) (fun _ _ => id)
    (fun _ _ held => ⟨held.mono (nil_subset _), fun _ => held⟩)
    fun _ held => held.mono (nil_subset _)

theorem orRelease_keeps {Value : Type} {program : Program Value} (reservationPath : Nat)
    (keeps : Keeps (Moved cache.addressing puts before) program) :
    Keeps (Moved cache.addressing puts before) (orRelease reservationPath program) := by
  refine keeps.attempt.bind fun result => ?_
  cases result with
  | ok => exact Keeps.pure _
  | error error => exact (release_keeps _).attempt.bind fun _ => Keeps.throw _

theorem writeHash_stores (reservationPath : Nat) : Triple (Moved cache.addressing [] before)
    (orRelease reservationPath (writeHash cache.addressing resource.data))
    ⟨fun contentHash stores =>
      contentHash = cache.addressing.address resource.data ∧
        Moved cache.addressing [resource] before stores ∧
        stores.blobs.lookup (cache.addressing.address resource.data) ≠ none,
      FailedPut cache.addressing resource before, Moved cache.addressing [resource] before⟩ := by
  have stored (stores : Stores) (held : Moved cache.addressing [] before stores) :
      Moved cache.addressing [resource] before
        { stores with
          blobs := stores.blobs.insert (cache.addressing.address resource.data) resource.data } :=
    (held.mono (nil_subset _)).insertBlob mem_cons_self
  have writes : Triple (Moved cache.addressing [] before)
      (Faulty.attempt (writeHash cache.addressing resource.data))
      (putExits cache.addressing resource before fun result stores =>
        match result with
        | .ok contentHash =>
          contentHash = cache.addressing.address resource.data ∧ stores.blobs.lookup
            (cache.addressing.address resource.data) ≠ none
        | .error error => error = .io) := by
    refine attempt (Triple.call ?_ ?_ ?_ ?_ ?_)
    · intro stores held
      refine ⟨stored stores held, rfl, ?_⟩
      rw [AList.lookup_insert]
      exact some_ne_none _
    · exact fun _ held => ⟨held.mono (nil_subset _), rfl⟩
    · exact fun stores held => ⟨stored stores held, rfl⟩
    · exact fun _ held => held.mono (nil_subset _)
    · exact stored
  refine writes.bind fun result => ?_
  cases result with
  | ok contentHash => exact Triple.pure fun _ held => ⟨held.2.1, held.1, held.2.2⟩
  | error error =>
    refine assuming fun isIo => ?_
    have released : Keeps (Moved cache.addressing [resource] before) (release reservationPath) :=
      release_keeps reservationPath
    refine released.attempted.bind fun _ => Triple.throw fun _ moved => ?_
    subst isIo
    exact .of_io moved

theorem upsertWithRetry_stores (now attempts : Nat) :
    Triple (Written cache.addressing resource before)
      (upsertWithRetry resource.key (cache.addressing.address resource.data)
        resource.data.length now attempts)
      (putExits cache.addressing resource before fun result stores =>
        match result with
        | .ok () => Holds cache.addressing resource stores
        | .error error => error = .io) := by
  induction attempts with
  | zero => exact Triple.pure fun _ held => ⟨held.1, rfl⟩
  | succ attempts ih =>
    have inserts (stores : Stores) (held : Written cache.addressing resource before stores)
        (row : Row) (address : row.contentHash = cache.addressing.address resource.data)
        (size : row.sizeBytes = some resource.data.length) :
        Moved cache.addressing [resource] before
          { stores with rows := stores.rows.insert resource.key row } :=
      held.1.insertRow mem_cons_self address size held.2
    have tries : Triple (Written cache.addressing resource before)
        (Faulty.attempt (upsert resource.key (cache.addressing.address resource.data)
          (some resource.data.length) now))
        ⟨fun result stores =>
          Written cache.addressing resource before stores ∧
            match result with
            | .ok () => Holds cache.addressing resource stores
            | .error error => error = .io,
          FailedPut cache.addressing resource before,
          Moved cache.addressing [resource] before⟩ := by
      refine attempt (Triple.call ?_ ?_ ?_ ?_ ?_)
      · intro stores held
        exact ⟨⟨inserts stores held _ rfl rfl, held.2⟩, _, AList.lookup_insert _, rfl⟩
      · exact fun _ held => ⟨held, rfl⟩
      · exact fun stores held => ⟨⟨inserts stores held _ rfl rfl, held.2⟩, rfl⟩
      · exact fun _ held => held.1
      · exact fun stores held => inserts stores held _ rfl rfl
    refine tries.bind fun result => ?_
    cases result with
    | ok => exact Triple.pure fun _ held => ⟨held.1.1, held.2⟩
    | error error =>
      refine assuming fun isIo => ?_
      dsimp only
      split
      · exact Triple.pure fun _ held => ⟨held.1, isIo⟩
      · exact ih

theorem publishRow_stores (now : Nat) (previousEntry : Option Row) (reservationPath : Nat) :
    Triple (Written cache.addressing resource before)
      (cache.publishRow resource.key (cache.addressing.address resource.data)
        resource.data.length now previousEntry reservationPath)
      (putExits cache.addressing resource before fun _ => Holds cache.addressing resource) := by
  have releases : Triple (fun stores =>
    Moved cache.addressing [resource] before stores ∧ Holds cache.addressing resource stores)
      (release reservationPath)
      (putExits cache.addressing resource before fun _ => Holds cache.addressing resource) := by
    refine Triple.call ?_ ?_ ?_ ?_ ?_
    · exact fun _ held => ⟨held.1.of_same rfl rfl rfl rfl, held.2⟩
    · exact fun _ held => .of_io held.1
    · exact fun _ held => .of_io (held.1.of_same rfl rfl rfl rfl)
    · exact fun _ held => held.1
    · exact fun _ held => held.1.of_same rfl rfl rfl rfl
  have discards (contentHash : Str) : Keeps (fun stores =>
    Moved cache.addressing [resource] before stores ∧ Holds cache.addressing resource stores)
      (discardBlobIfUnreferenced cache.addressing contentHash) :=
    discardBlobIfUnreferenced_keeps contentHash
      fun _ held unreferenced => ⟨held.1.eraseBlob unreferenced, held.2⟩
  refine (upsertWithRetry_stores now 3).bind fun result => ?_
  cases result with
  | ok =>
    cases previousEntry with
    | none => exact releases.bind fun _ => Triple.pure fun _ => id
    | some previous =>
      dsimp only
      split
      · refine Triple.bind ((discards previous.contentHash).attempted.consequence
          (fun _ => id) (fun _ _ => id) (fun _ _ => id)
          fun _ held => held.1) fun _ => ?_
        exact releases.bind fun _ => Triple.pure fun _ => id
      · exact releases.bind fun _ => Triple.pure fun _ => id
  | error error =>
    refine assuming fun isIo => ?_
    subst isIo
    have discarded : Keeps (Moved cache.addressing [resource] before)
        (discardBlobIfUnreferenced cache.addressing (cache.addressing.address resource.data)) :=
      discardBlobIfUnreferenced_keeps _ fun _ moved => moved.eraseBlob
    have released : Keeps (Moved cache.addressing [resource] before) (release reservationPath) :=
      release_keeps reservationPath
    refine discarded.attempted.bind fun _ => released.attempted.bind fun _ => ?_
    exact Triple.throw fun _ => .of_io

theorem putForOwner_stores (owner : CacheOwner) (key : Str) (data : Bytes) (now : Nat) :
    Triple (Moved cache.addressing [] before) (cache.putForOwner owner key data now)
      (putExits cache.addressing ⟨owner.scopedKey key, data⟩ before fun _ =>
        Holds cache.addressing ⟨owner.scopedKey key, data⟩) := by
  unfold putForOwner
  dsimp only
  split
  · refine Triple.throw fun _ held => ?_
    exact ⟨held.mono (nil_subset _), fun _ => held⟩
  · have numbers : Keeps (Moved cache.addressing [] before) (Faulty.update fun stores =>
      (stores.nextReservation, { stores with nextReservation := stores.nextReservation + 1 }) :
      Program Nat) :=
      Keeps.update fun _ moved => moved.of_same rfl rfl rfl rfl
    have probes : Keeps (Moved cache.addressing [] before)
        (probeReplacedEntry (owner.scopedKey key)) :=
      Keeps.bind (keeps_look _ _) fun _ => Keeps.ite (keeps_look _ _) (Keeps.pure _)
    refine (early numbers).bind fun reservationPath => ?_
    refine (early (reserveAt_keeps _ _ _ _ _)).bind fun _ => ?_
    refine (early (orRelease_keeps _ (prepareCommit_keeps Moved.shrinks _ _ _))).bind fun _ => ?_
    refine (early (orRelease_keeps _ probes)).bind fun previousEntry => ?_
    have writes := @writeHash_stores cache before ⟨owner.scopedKey key, data⟩ reservationPath
    refine writes.bind fun contentHash => ?_
    have publishes :=
      @publishRow_stores cache before ⟨owner.scopedKey key, data⟩ now previousEntry reservationPath
    exact fun stores fates held => held.1 ▸ publishes stores fates held.2

end

def RowKept (key : Str) (before stores : Stores) : Prop :=
  ∀ row, before.rows.lookup key = some row →
    ∃ now, stores.rows.lookup key = some now ∧ SameRow row now

def Reads (digest : Addressing) (stores : Stores) (key : Str) (bytes : Bytes) : Prop :=
  ∃ row, stores.rows.lookup key = some row ∧ stores.blobs.lookup row.contentHash = some bytes ∧
    digest.address bytes = row.contentHash

theorem Reads.of_moved {digest : Addressing} {stores : Stores} {key : Str} {bytes : Bytes}
    (reads : Reads digest stores key bytes) (moved : Moved digest [] before stores) :
    Reads digest before key bytes := by
  obtain ⟨row, found, blob, address⟩ := reads
  rcases moved.rows key row found with ⟨old, oldFound, same⟩ | ⟨_, mem, _⟩
  · rcases moved.blobs _ _ blob with oldBlob | ⟨_, mem, _⟩
    · exact ⟨old, oldFound, same.1 ▸ oldBlob, same.1 ▸ address⟩
    · cases mem
  · cases mem

def Undisturbed (digest : Addressing) (before stores : Stores) : Prop :=
  Moved digest [] before stores ∧ ∀ key, RowKept key before stores

theorem updateLastAccessed_undisturbed {digest : Addressing} (key : Str) (now : Nat) :
    Keeps (Undisturbed digest before) (updateLastAccessed key now) := by
  refine Keeps.call fun stores held => ?_
  split
  next found =>
    refine ⟨held.1.touchRow found now, fun other old oldFound => ?_⟩
    obtain ⟨current, currentFound, same⟩ := held.2 other old oldFound
    by_cases own : other = key
    · subst own
      rw [found] at currentFound
      cases currentFound
      exact ⟨_, AList.lookup_insert _, same⟩
    · exact ⟨current, (AList.lookup_insert_ne own).trans currentFound, same⟩
  · exact held

theorem getIndexedWithLimit_reads (indexKey : Str) (limit now : Nat) :
    Finds (Undisturbed cache.addressing before) (Reads cache.addressing before indexKey)
      (cache.getIndexedWithLimit indexKey limit now) := by
  refine Triple.bind (look_returns .index fun stores => stores.rows.lookup indexKey) fun found => ?_
  cases found with
  | none => exact nothing fun _ held => held.1
  | some row =>
    dsimp only
    split
    · exact Triple.throw fun _ held => held.1
    · split
      · exact nothing fun _ held => held.1
      · split
        · have opens : Triple (fun stores =>
            Undisturbed cache.addressing before stores ∧ some row = stores.rows.lookup indexKey)
              (perform .content fun stores => (stores.blobs.lookup row.contentHash, stores))
              ⟨fun found stores =>
                Undisturbed cache.addressing before stores ∧ ∀ bytes, found = some bytes →
                  cache.addressing.address bytes = row.contentHash →
                    Reads cache.addressing before indexKey bytes,
                fun _ => Undisturbed cache.addressing before,
                Undisturbed cache.addressing before⟩ := by
            refine (look_returns _ _).consequence (fun _ => id) ?_
              (fun _ _ held => held.1) fun _ held => held.1
            rintro found stores ⟨⟨held, isRow⟩, isBlob⟩
            refine ⟨held, fun bytes isFound address => ?_⟩
            have reads : Reads cache.addressing stores indexKey bytes :=
              ⟨row, isRow.symm, isBlob.symm.trans isFound, address⟩
            exact reads.of_moved held.1
          refine opens.bind fun found => ?_
          cases found with
          | none => exact nothing fun _ held => held.1
          | some bytes =>
            dsimp only
            split
            · exact Triple.throw fun _ held => held.1
            · split
              next address =>
                have touches : Triple (fun stores =>
                  Undisturbed cache.addressing before stores ∧
                    Reads cache.addressing before indexKey bytes)
                      (Faulty.attempt (updateLastAccessed indexKey now))
                      ⟨fun _ stores =>
                        Undisturbed cache.addressing before stores ∧
                          Reads cache.addressing before indexKey bytes,
                        fun _ => Undisturbed cache.addressing before,
                        Undisturbed cache.addressing before⟩ :=
                  assuming fun reads =>
                    (updateLastAccessed_undisturbed indexKey
                      now).attempted.returning (fun _ _ held => ⟨held, reads⟩)
                refine Triple.bind (touches.of_stronger fun _ held =>
                  ⟨held.1, held.2 bytes rfl address⟩) fun _ => Triple.pure fun _ held => ?_
                refine ⟨held.1, fun other same => ?_⟩
                cases same
                exact held.2
              · exact Triple.throw fun _ held => held.1
        · exact nothing fun _ held => held.1

theorem getWithLimitForOwner_reads (owner : CacheOwner) (key : Str) (limit now : Nat) :
    Finds (Undisturbed cache.addressing before)
      (fun bytes => Reads cache.addressing before (owner.scopedKey key) bytes ∨
        owner = .host ∧ Reads cache.addressing before key bytes)
      (cache.getWithLimitForOwner owner key limit now) := by
  refine (getIndexedWithLimit_reads _ limit now).bind fun found => ?_
  cases found with
  | some bytes =>
    refine Triple.pure fun _ held => ⟨held.1, fun other same => ?_⟩
    exact .inl (held.2 other same)
  | none =>
    cases owner with
    | plugin id => exact nothing fun _ held => held.1
    | host =>
      refine Triple.bind ((keeps_look _ _).of_stronger (fun _ held => held.1))
        fun isLegacy => ?_
      cases isLegacy with
      | false => exact nothing fun _ => id
      | true =>
        refine (getIndexedWithLimit_reads key limit now).returning ?_
        intro found _ held
        exact ⟨held.1, fun bytes same => .inr ⟨rfl, held.2 bytes same⟩⟩

theorem removeForOwner_keeps {holds : Stores → Prop} {owner : CacheOwner} {key : Str} (erasesRow :
    ∀ name, name = owner.scopedKey key ∨ owner = .host ∧ name = key → ∀ stores, holds stores →
      holds { stores with rows := stores.rows.erase name })
    (erasesBlob : ∀ contentHash stores, holds stores → Unreferenced contentHash stores →
      holds { stores with blobs := stores.blobs.erase contentHash }) :
    Keeps holds (cache.removeForOwner owner key) := by
  have removes (isLegacy : Bool) (isHost : isLegacy = true → owner = .host) :
      Keeps holds (cache.removeRows (owner.scopedKey key) key isLegacy) := by
    unfold removeRows
    refine (keeps_look _ _).bind fun scopedEntry => ?_
    refine Keeps.bind ?_ fun legacyEntry => ?_
    · exact Keeps.ite (keeps_look _ _) (Keeps.pure _)
    · refine (Keeps.call (erasesRow _ (.inl rfl))).bind fun removed => ?_
      refine Keeps.bind ?_ fun legacyRemoved => ?_
      · unfold onlyIf
        split
        next present => exact Keeps.call (erasesRow _ (.inr ⟨isHost present, rfl⟩))
        · exact Keeps.pure _
      · refine (Keeps.forEach (fun contentHash => ?_) _).bind fun _ => Keeps.pure _
        exact discardBlobIfUnreferenced_keeps contentHash (erasesBlob contentHash)
  cases owner with
  | plugin => exact removes false nofun
  | host => exact (keeps_look _ _).bind fun isLegacy => removes isLegacy fun _ => rfl

theorem RowKept.eraseRow {key other : Str} {stores : Stores} (kept : RowKept other before stores)
    (different : other ≠ key) :
    RowKept other before { stores with rows := stores.rows.erase key } := by
  intro row found
  obtain ⟨current, currentFound, same⟩ := kept row found
  exact ⟨current, (AList.lookup_erase_ne different).trans currentFound, same⟩

end ContentCache

end Arclain.Cache
