import Arclain.ActionRun
import Arclain.OperationEvent
import Arclain.Text

namespace Arclain.Materialization

/-!
# The materialization store

A lease is a directory under the root of the store and a record in its map.  `release`,
`sweep_expired` and `clear_all` take records out under its lock and remove their directories
afterwards.

A `System` is the store and the calls under way.  The file system may refuse.
-/

open KeyedMap List Option Text ActionRun

abbrev LeaseId := MaterializationLeaseId

/-- A call of `release`, `sweep_expired` or `clear_all`. -/
abbrev CallId := Nat

def i64Max : Int := 2 ^ 63 - 1

def i64Min : Int := -2 ^ 63

/-- `i64::saturating_add`. -/
def saturatingAdd (first second : Int) : Int := max i64Min (min i64Max (first + second))

def unknownLeaseError (id : LeaseId) : ApplicationError :=
  { (({ kind := .notFound
        summary := "no such materialization lease" } :
      ApplicationError).withRecoverability .fatal) with
    diagnostic := some (String.ofList ("lease id ".toList ++ decimal id)) }

structure LeaseRecord where
  localPath : List Str
  leaseDir : Str
  size : Nat
  expiresAtUnixMs : Int

/-- The name of a lease directory, which embeds the tag of its store. -/
def leaseDirName (sessionTag : Str) (id : LeaseId) : Str := sessionTag ++ ['-'] ++ decimal id

/-- The store: its tag, its time to live in milliseconds, the live leases, and
the next id. -/
structure MaterializationStore where
  sessionTag : Str
  ttlMillis : Nat
  leases : KeyedMap LeaseId LeaseRecord
  nextId : LeaseId

namespace MaterializationStore

def new (sessionTag : Str) (ttlMillis : Nat) : MaterializationStore where
  sessionTag := sessionTag
  ttlMillis := ttlMillis
  leases := ∅
  nextId := 1

section

variable (store : MaterializationStore)

def expiresAt (nowUnixMs : Int) : Int :=
  saturatingAdd nowUnixMs (min (store.ttlMillis : Int) i64Max)

def dirName (id : LeaseId) : Str := leaseDirName store.sessionTag id

def renew (id : LeaseId) (nowUnixMs : Int) :
    Except ApplicationError Int × MaterializationStore :=
  match store.leases.lookup id with
  | none => (.error (unknownLeaseError id), store)
  | some record =>
    let expiresAtUnixMs := store.expiresAt nowUnixMs
    (.ok expiresAtUnixMs,
      { store with
        leases := store.leases.insert id { record with expiresAtUnixMs := expiresAtUnixMs } })

/-- The locked section of `release`: the directory to remove, if any. -/
def release (id : LeaseId) : List Str × MaterializationStore :=
  match store.leases.lookup id with
  | none => ([], store)
  | some record => ([record.leaseDir], { store with leases := store.leases.erase id })

/-- The locked section of `sweep_expired`. -/
def sweepExpired (nowUnixMs : Int) : List Str × MaterializationStore :=
  ((store.leases.entries.filter fun entry =>
    entry.2.expiresAtUnixMs ≤ nowUnixMs).map fun entry => entry.2.leaseDir,
    { store with
      leases := store.leases.retain fun record => !decide (record.expiresAtUnixMs ≤ nowUnixMs) })

/-- The locked section of `clear_all`. -/
def clearAll : List Str × MaterializationStore :=
  (store.leases.entries.map fun entry => entry.2.leaseDir, { store with leases := ∅ })

end

end MaterializationStore

/-- Its content is being extracted, `commit` has refused it, or `commit` has validated it
and not yet inserted it. -/
inductive Reservation where
  | reserved
  | refused
  | validated (localPath : List Str) (size : Nat) (nowUnixMs : Int)
  deriving DecidableEq

/-- The store, and the directories of leases that are `gone`, of reservations `dropped`, and
those whose removal was refused. -/
structure System where
  store : MaterializationStore
  disk : List Str
  reservations : KeyedMap LeaseId Reservation
  calls : KeyedMap CallId (List Str)
  gone : List Str
  dropped : List Str
  stuck : List Str

inductive Action where
  | reserve (created : Bool)
  | validate (id : LeaseId) (candidate : Option (List Str)) (size : Nat) (nowUnixMs : Int)
  | insert (id : LeaseId)
  | drop (id : LeaseId) (removed : Bool)
  | renew (id : LeaseId) (nowUnixMs : Int)
  | release (call : CallId) (id : LeaseId)
  | sweepExpired (call : CallId) (nowUnixMs : Int)
  | clearAll (call : CallId)
  | removeNext (call : CallId) (removed : Bool)
  | finish (call : CallId)

namespace System

def initial (sessionTag : Str) (ttlMillis : Nat) (disk : List Str) : System where
  store := MaterializationStore.new sessionTag ttlMillis
  disk := disk
  reservations := ∅
  calls := ∅
  gone := []
  dropped := []
  stuck := []

/-- `remove_dir_all`, or the file system refuses. -/
def removeDirAll (system : System) (dir : Str) (removed : Bool) : System :=
  if removed then { system with disk := system.disk.filter (· ≠ dir) }
  else { system with stuck := dir :: system.stuck }

/-- The directories of the leases that are in the map of a store and not in a later one. -/
def lost (store after : MaterializationStore) : List Str :=
  (store.leases.entries.filter fun entry => (after.leases.lookup entry.1).isNone).map
    fun entry => entry.2.leaseDir

/-- A call takes leases out of the map and has their directories to remove. -/
def takeOut (system : System) (call : CallId)
    (taken : List Str × MaterializationStore) : Option System :=
  if system.calls.lookup call = none then
    some { system with
      store := taken.2
      calls := system.calls.insert call taken.1
      gone := lost system.store taken.2 ++ system.gone }
  else none

def step (system : System) : Action → Option System
  | .reserve created =>
    let id := system.store.nextId
    let store := { system.store with nextId := id + 1 }
    if created then
      some { system with
        store := store
        disk := system.store.dirName id :: system.disk
        reservations := system.reservations.insert id .reserved }
    else some { system with store := store }
  | .validate id candidate size nowUnixMs =>
    let dir := system.store.dirName id
    match system.reservations.lookup id, candidate with
    | some .reserved, some (first :: rest) =>
      if dir ∈ system.disk ∧ first = dir then
        some { system with
          reservations := system.reservations.insert id
            (.validated (first :: rest) size nowUnixMs) }
      else
        some { system with
          reservations := system.reservations.insert id .refused }
    | some .reserved, _ =>
      some { system with
        reservations := system.reservations.insert id .refused }
    | _, _ => none
  | .insert id =>
    match system.reservations.lookup id with
    | some (.validated localPath size nowUnixMs) =>
      some { system with
        store := { system.store with
          leases := system.store.leases.insert id
            { localPath := localPath
              leaseDir := system.store.dirName id
              size := size
              expiresAtUnixMs := system.store.expiresAt nowUnixMs } }
        reservations := system.reservations.erase id }
    | _ => none
  | .drop id removed =>
    match system.reservations.lookup id with
    | some (.validated _ _ _) => none
    | some _ =>
      some
        ({ system with
          reservations := system.reservations.erase id
          dropped := system.store.dirName id :: system.dropped
          }.removeDirAll (system.store.dirName id) removed)
    | none => none
  | .renew id nowUnixMs => some { system with store := (system.store.renew id nowUnixMs).2 }
  | .release call id => system.takeOut call (system.store.release id)
  | .sweepExpired call nowUnixMs => system.takeOut call (system.store.sweepExpired nowUnixMs)
  | .clearAll call => system.takeOut call system.store.clearAll
  | .removeNext call removed =>
    match system.calls.lookup call with
    | some (dir :: rest) =>
      some
        ({ system with
          calls := system.calls.insert call rest }.removeDirAll
          dir removed)
    | _ => none
  | .finish call =>
    if system.calls.lookup call = some [] then some { system with calls := system.calls.erase call }
    else none

end System

theorem leaseDirName_injective {sessionTag : Str} {first second : LeaseId}
    (same : leaseDirName sessionTag first = leaseDirName sessionTag second) : first = second :=
  decimal_injective (append_cancel_left same)

theorem System.mem_lost {store after : MaterializationStore} {dir : Str} :
    dir ∈ System.lost store after ↔ ∃ id record, store.leases.lookup id = some record ∧
      record.leaseDir = dir ∧ after.leases.lookup id = none := by
  simp only [System.lost, List.mem_map, List.mem_filter, isNone_iff_eq_none]
  constructor
  · rintro ⟨entry, ⟨mem, absent⟩, isDir⟩
    exact ⟨entry.1, entry.2, lookup_eq_some_iff_mem.mpr mem, isDir, absent⟩
  · rintro ⟨id, record, found, isDir, absent⟩
    exact ⟨⟨id, record⟩, ⟨lookup_eq_some_iff_mem.mp found, absent⟩, isDir⟩

/-- What the locked section of a removing call does: it takes leases out of the
map and lists exactly their directories. -/
structure TakesOut (store : MaterializationStore)
    (taken : List Str × MaterializationStore) : Prop where
  sessionTag : taken.2.sessionTag = store.sessionTag
  ttlMillis : taken.2.ttlMillis = store.ttlMillis
  nextId : taken.2.nextId = store.nextId
  kept : ∀ {id record}, taken.2.leases.lookup id = some record →
    store.leases.lookup id = some record
  listed : ∀ {dir}, dir ∈ taken.1 ↔ ∃ id record,
    store.leases.lookup id = some record ∧ record.leaseDir = dir ∧ taken.2.leases.lookup id = none

namespace TakesOut

variable (store : MaterializationStore)

theorem release (id : LeaseId) : TakesOut store (store.release id) := by
  cases bound : store.leases.lookup id with
  | none =>
    have shape : store.release id = ([], store) := by simp [MaterializationStore.release, bound]
    rw [shape]
    refine ⟨rfl, rfl, rfl, fun found => found, ?_⟩
    intro dir
    simp only [not_mem_nil, false_iff]
    rintro ⟨other, record, found, -, gone⟩
    rw [found] at gone
    cases gone
  | some record =>
    have shape : store.release id = ([record.leaseDir],
        { store with leases := store.leases.erase id }) := by
      simp [MaterializationStore.release, bound]
    rw [shape]
    refine ⟨rfl, rfl, rfl, ?_, ?_⟩
    · intro other found kept
      exact lookup_of_erase kept
    · intro dir
      simp only [mem_singleton]
      constructor
      · rintro rfl
        refine ⟨id, record, bound, rfl, ?_⟩
        rw [lookup_erase_ite, if_pos rfl]
      · rintro ⟨other, found, leased, rfl, gone⟩
        rw [lookup_erase_ite] at gone
        split at gone
        next same =>
          subst other
          rw [bound] at leased
          cases leased
          rfl
        · rw [leased] at gone
          cases gone

theorem sweepExpired (nowUnixMs : Int) : TakesOut store (store.sweepExpired nowUnixMs) := by
  refine ⟨rfl, rfl, rfl, ?_, ?_⟩
  · intro id record found
    simp only [MaterializationStore.sweepExpired, lookup_retain] at found
    exact (filter_eq_some_iff.mp found).1
  · intro _
    simp only [MaterializationStore.sweepExpired, List.mem_map,
      mem_filter, decide_eq_true_eq, lookup_retain]
    constructor
    · rintro ⟨⟨id, record⟩, ⟨mem, expired⟩, rfl⟩
      have found := lookup_eq_some_iff_mem.mpr mem
      refine ⟨id, record, found, rfl, ?_⟩
      simp [found, expired]
    · rintro ⟨id, record, found, rfl, gone⟩
      refine ⟨⟨id, record⟩, ⟨lookup_eq_some_iff_mem.mp found, ?_⟩, rfl⟩
      simpa [found] using gone

theorem clearAll : TakesOut store store.clearAll := by
  refine ⟨rfl, rfl, rfl, ?_, ?_⟩
  · intro id record found
    simp [MaterializationStore.clearAll] at found
  · intro _
    simp only [MaterializationStore.clearAll, List.mem_map, AList.lookup_empty, and_true]
    constructor
    · rintro ⟨⟨id, record⟩, mem, rfl⟩
      exact ⟨id, record, lookup_eq_some_iff_mem.mpr mem, rfl⟩
    · rintro ⟨id, record, found, rfl⟩
      exact ⟨⟨id, record⟩, lookup_eq_some_iff_mem.mp found, rfl⟩

end TakesOut

/-- The directory belongs to an id that was minted and is in no hands. -/
def System.Abandoned (system : System) (dir : Str) : Prop :=
  ∃ id, dir = system.store.dirName id ∧ id < system.store.nextId ∧
    system.store.leases.lookup id = none ∧
    system.reservations.lookup id = none

/-- A call in progress still has to remove the directory. -/
def System.Awaits (system : System) (dir : Str) : Prop :=
  ∃ call dirs, system.calls.lookup call = some dirs ∧ dir ∈ dirs

structure Kept (system : System) : Prop where
  leased : ∀ {id record}, system.store.leases.lookup id = some record →
    record.leaseDir = system.store.dirName id ∧ system.store.dirName id ∈ system.disk ∧
      id < system.store.nextId ∧ system.reservations.lookup id = none
  reserved : ∀ {id reservation}, system.reservations.lookup id = some reservation →
    system.store.dirName id ∈ system.disk ∧ id < system.store.nextId
  awaited : ∀ {call dirs dir}, system.calls.lookup call = some dirs → dir ∈ dirs →
    system.Abandoned dir
  gone : ∀ {dir}, dir ∈ system.gone → system.Abandoned dir ∧
    (dir ∉ system.disk ∨ dir ∈ system.stuck ∨ system.Awaits dir)
  dropped : ∀ {dir}, dir ∈ system.dropped → system.Abandoned dir ∧
    (dir ∉ system.disk ∨ dir ∈ system.stuck)

namespace Kept

variable {system next : System}

theorem initially (sessionTag : Str) (ttlMillis : Nat) (disk : List Str) :
    Kept (System.initial sessionTag ttlMillis disk) where
  leased := by
    intro id _ found
    simp [System.initial, MaterializationStore.new] at found
  reserved := by
    intro id _ found
    simp [System.initial] at found
  awaited := by
    intro _ _ dir found
    simp [System.initial] at found
  gone := by
    intro dir mem
    cases mem
  dropped := by
    intro dir mem
    cases mem

variable {id : LeaseId}

theorem ne_of_abandoned {dir : Str} (abandoned : system.Abandoned dir)
    (held : (∃ record, system.store.leases.lookup id = some record) ∨
      ∃ reservation, system.reservations.lookup id = some reservation) :
    system.store.dirName id ≠ dir := by
  obtain ⟨_, rfl, -, noLease, noReservation⟩ := abandoned
  intro same
  obtain rfl := leaseDirName_injective same
  rcases held with ⟨record, leased⟩ | ⟨reservation, reserved⟩
  · rw [noLease] at leased
    cases leased
  · rw [noReservation] at reserved
    cases reserved

theorem removeDirAll {dir : Str} (kept : Kept system) (abandoned : system.Abandoned dir)
    (removed : Bool) : Kept (system.removeDirAll dir removed) := by
  cases removed with
  | false =>
    exact
      { leased := kept.leased
        reserved := kept.reserved
        awaited := kept.awaited
        gone := by
          intro other mem
          obtain ⟨orphan, fate⟩ := kept.gone mem
          refine ⟨orphan, ?_⟩
          rcases fate with absent | stuck | awaits
          · exact .inl absent
          · exact .inr (.inl (mem_cons_of_mem dir stuck))
          · exact .inr (.inr awaits)
        dropped := by
          intro other mem
          obtain ⟨orphan, fate⟩ := kept.dropped mem
          refine ⟨orphan, ?_⟩
          rcases fate with absent | stuck
          · exact .inl absent
          · exact .inr (mem_cons_of_mem dir stuck) }
  | true =>
    have remains {other : Str} (mem : other ∈ system.disk) (different : other ≠ dir) :
        other ∈ (system.removeDirAll dir true).disk :=
      mem_filter.mpr ⟨mem, by simpa using different⟩
    have shrinks {other : Str} (absent : other ∉ system.disk) :
        other ∉ (system.removeDirAll dir true).disk :=
      fun mem => absent (mem_filter.mp mem).1
    exact
      { leased := by
          intro id record found
          obtain ⟨named, onDisk, minted, free⟩ := kept.leased found
          refine ⟨named, remains onDisk ?_, minted, free⟩
          exact ne_of_abandoned abandoned (.inl ⟨record, found⟩)
        reserved := by
          intro id reservation found
          obtain ⟨onDisk, minted⟩ := kept.reserved found
          refine ⟨remains onDisk ?_, minted⟩
          exact ne_of_abandoned abandoned (.inr ⟨reservation, found⟩)
        awaited := kept.awaited
        gone := by
          intro other mem
          obtain ⟨orphan, fate⟩ := kept.gone mem
          refine ⟨orphan, ?_⟩
          rcases fate with absent | others
          · exact .inl (shrinks absent)
          · exact .inr others
        dropped := by
          intro other mem
          obtain ⟨orphan, fate⟩ := kept.dropped mem
          refine ⟨orphan, ?_⟩
          rcases fate with absent | stuck
          · exact .inl (shrinks absent)
          · exact .inr stuck }

theorem fate_removeDirAll (system : System) (dir : Str) (removed : Bool) :
    dir ∉ (system.removeDirAll dir removed).disk ∨
      dir ∈ (system.removeDirAll dir removed).stuck := by
  cases removed with
  | false => exact .inr mem_cons_self
  | true =>
    left
    intro mem
    simpa using (mem_filter.mp mem).2

section

variable (kept : Kept system)
include kept

/-- A step that leaves the directories and the calls alone, and takes no abandoned id up. -/
theorem carry {store : MaterializationStore} {reservations : KeyedMap LeaseId Reservation}
    (later : ∀ {id}, id < system.store.nextId → system.store.leases.lookup id = none →
      system.reservations.lookup id = none → id < store.nextId ∧
        store.leases.lookup id = none ∧ reservations.lookup id = none)
    (leased : ∀ {id record}, store.leases.lookup id = some record →
      record.leaseDir = system.store.dirName id ∧ system.store.dirName id ∈ system.disk ∧
        id < store.nextId ∧ reservations.lookup id = none)
    (reserved : ∀ {id reservation}, reservations.lookup id = some reservation →
      system.store.dirName id ∈ system.disk ∧ id < store.nextId)
    (named : store.sessionTag = system.store.sessionTag) :
    Kept { system with store := store, reservations := reservations } := by
  have dirName (id : LeaseId) : store.dirName id = system.store.dirName id := by
    rw [MaterializationStore.dirName, named, MaterializationStore.dirName]
  have orphan {dir : Str} (abandoned : system.Abandoned dir) : System.Abandoned
      { system with store := store, reservations := reservations } dir := by
    obtain ⟨id, isNamed, minted, noLease, noReservation⟩ := abandoned
    exact ⟨id, isNamed.trans (dirName id).symm, later minted noLease noReservation⟩
  exact
    { leased := fun found => by simpa only [dirName] using leased found
      reserved := fun found => by simpa only [dirName] using reserved found
      awaited := fun found mem => orphan (kept.awaited found mem)
      gone := fun mem => ⟨orphan (kept.gone mem).1, (kept.gone mem).2⟩
      dropped := fun mem => ⟨orphan (kept.dropped mem).1, (kept.dropped mem).2⟩ }

theorem mint :
    Kept { system with
      store := { system.store with nextId := system.store.nextId + 1 } } := by
  refine kept.carry (fun minted noLease noReservation => ?_) (fun found => ?_) (fun found => ?_)
    rfl
  · exact ⟨Nat.lt_succ_of_lt minted, noLease, noReservation⟩
  · obtain ⟨named, onDisk, minted, free⟩ := kept.leased found
    exact ⟨named, onDisk, Nat.lt_succ_of_lt minted, free⟩
  · obtain ⟨onDisk, minted⟩ := kept.reserved found
    exact ⟨onDisk, Nat.lt_succ_of_lt minted⟩

theorem reserve (created : Bool)
    (taken : system.step (.reserve created) = some next) : Kept next := by
  cases created with
  | false =>
    simp only [System.step, Bool.false_eq_true, ↓reduceIte, some.injEq] at taken
    subst next
    exact kept.mint
  | true =>
    simp only [System.step, ↓reduceIte, some.injEq] at taken
    subst next
    -- The new id is above every id in some hands and every abandoned one.
    have fresh {dir : Str} (abandoned : system.Abandoned dir) :
        dir ≠ system.store.dirName system.store.nextId := by
      obtain ⟨id, rfl, minted, -⟩ := abandoned
      intro same
      obtain rfl := leaseDirName_injective same
      exact lt_irrefl _ minted
    have later {dir : Str} (abandoned : system.Abandoned dir) : System.Abandoned
        { system with
          store := { system.store with nextId := system.store.nextId + 1 }
          disk := system.store.dirName system.store.nextId :: system.disk
          reservations := system.reservations.insert system.store.nextId .reserved }
        dir := by
      obtain ⟨id, named, minted, noLease, noReservation⟩ := abandoned
      refine ⟨id, named, Nat.lt_succ_of_lt minted, noLease, ?_⟩
      rw [lookup_insert_ite, if_neg (Nat.ne_of_lt minted)]
      exact noReservation
    exact
      { leased := by
          intro id _ found
          obtain ⟨named, onDisk, minted, free⟩ := kept.leased found
          refine ⟨named, mem_cons_of_mem _ onDisk, Nat.lt_succ_of_lt minted, ?_⟩
          rw [lookup_insert_ite, if_neg (Nat.ne_of_lt minted)]
          exact free
        reserved := by
          intro id _ found
          rw [lookup_insert_ite] at found
          split at found
          next same =>
            subst id
            exact ⟨mem_cons_self, Nat.lt_succ_self _⟩
          · obtain ⟨onDisk, minted⟩ := kept.reserved found
            exact ⟨mem_cons_of_mem _ onDisk, Nat.lt_succ_of_lt minted⟩
        awaited := fun found mem => later (kept.awaited found mem)
        gone := by
          intro dir mem
          obtain ⟨orphan, fate⟩ := kept.gone mem
          refine ⟨later orphan, ?_⟩
          rcases fate with absent | others
          · left
            simp only [mem_cons, not_or]
            exact ⟨fresh orphan, absent⟩
          · exact .inr others
        dropped := by
          intro dir mem
          obtain ⟨orphan, fate⟩ := kept.dropped mem
          refine ⟨later orphan, ?_⟩
          rcases fate with absent | stuck
          · left
            simp only [mem_cons, not_or]
            exact ⟨fresh orphan, absent⟩
          · exact .inr stuck }

theorem setReservation {earlier : Reservation}
    (found : system.reservations.lookup id = some earlier) (reservation : Reservation) :
    Kept { system with
      reservations := system.reservations.insert id reservation } := by
  have free {other : LeaseId} (vacant : system.reservations.lookup other = none) :
      (system.reservations.insert id reservation).lookup other = none := by
    rw [lookup_insert_ite, if_neg]
    · exact vacant
    · intro same
      subst other
      rw [vacant] at found
      cases found
  refine kept.carry (fun minted noLease noReservation => ?_) (fun leased => ?_) (fun bound => ?_)
    rfl
  · exact ⟨minted, noLease, free noReservation⟩
  · obtain ⟨named, onDisk, minted, vacant⟩ := kept.leased leased
    exact ⟨named, onDisk, minted, free vacant⟩
  · rw [lookup_insert_ite] at bound
    split at bound
    next same =>
      subst id
      exact kept.reserved found
    · exact kept.reserved bound

theorem validate {candidate : Option (List Str)} {size : Nat}
    {nowUnixMs : Int} (taken : system.step (.validate id candidate size nowUnixMs) = some next) :
    Kept next := by
  simp only [System.step] at taken
  split at taken
  next found =>
    split at taken <;> obtain rfl := some.inj taken <;> exact kept.setReservation found _
  next found _ =>
    cases taken
    exact kept.setReservation found _
  · cases taken

theorem insert (taken : system.step (.insert id) = some next) : Kept next := by
  simp only [System.step] at taken
  split at taken
  next found =>
    cases taken
    obtain ⟨onDisk, minted⟩ := kept.reserved found
    refine kept.carry (fun {owner} below noLease noReservation => ?_) (fun leased => ?_)
      (fun bound => kept.reserved (lookup_of_erase bound)) rfl
    · have different : owner ≠ id := by
        intro same
        subst owner
        rw [noReservation] at found
        cases found
      refine ⟨below, ?_, ?_⟩
      · rw [lookup_insert_ite, if_neg different]
        exact noLease
      · rw [lookup_erase_ite, if_neg different]
        exact noReservation
    · rw [lookup_insert_ite] at leased
      split at leased
      next same =>
        subst id
        cases leased
        refine ⟨rfl, onDisk, minted, ?_⟩
        rw [lookup_erase_ite, if_pos rfl]
      next different =>
        obtain ⟨named, stays, below, free⟩ := kept.leased leased
        refine ⟨named, stays, below, ?_⟩
        rw [lookup_erase_ite, if_neg different]
        exact free
  · cases taken

theorem drop {removed : Bool} (taken : system.step (.drop id removed) = some next) : Kept next := by
  cases found : system.reservations.lookup id with
  | none => simp [System.step, found] at taken
  | some reservation =>
    -- First the reservation is given up, then its directory is removed.
    have free {other : LeaseId} (vacant : system.reservations.lookup other = none) :
        (system.reservations.erase id).lookup other = none := by
      rw [lookup_erase_ite, vacant, ite_self]
    have given : Kept { system with reservations := system.reservations.erase id } := by
      refine kept.carry (fun minted noLease noReservation => ?_) (fun leased => ?_)
        (fun bound => kept.reserved (lookup_of_erase bound)) rfl
      · exact ⟨minted, noLease, free noReservation⟩
      · obtain ⟨named, onDisk, minted, vacant⟩ := kept.leased leased
        exact ⟨named, onDisk, minted, free vacant⟩
    have orphan : System.Abandoned { system with reservations := system.reservations.erase id }
        (system.store.dirName id) := by
      obtain ⟨-, minted⟩ := kept.reserved found
      refine ⟨id, rfl, minted, ?_, ?_⟩
      · cases leased : system.store.leases.lookup id with
        | none => rfl
        | some =>
          rw [(kept.leased leased).2.2.2] at found
          cases found
      · rw [lookup_erase_ite, if_pos rfl]
    have after := given.removeDirAll orphan removed
    have fate := fate_removeDirAll { system with reservations := system.reservations.erase id }
      (system.store.dirName id) removed
    have shape : next =
        { ({ system with
          reservations := system.reservations.erase id
          }.removeDirAll (system.store.dirName id) removed) with
          dropped := system.store.dirName id :: system.dropped } := by
      cases reservation <;> simp only [System.step, found,
        some.injEq, reduceCtorEq] at taken <;>
        subst next <;> cases removed <;> rfl
    have orphanAfter : System.Abandoned
        ({ system with
          reservations := system.reservations.erase id
          }.removeDirAll (system.store.dirName id) removed)
        (system.store.dirName id) := by
      cases removed <;> exact orphan
    rw [shape]
    exact
      { leased := after.leased
        reserved := after.reserved
        awaited := after.awaited
        gone := after.gone
        dropped := by
          intro _ mem
          rcases mem_cons.mp mem with rfl | earlier
          · exact ⟨orphanAfter, fate⟩
          · apply after.dropped
            cases removed <;> exact earlier }

end

theorem renew (kept : Kept system) {id : LeaseId} {nowUnixMs : Int}
    (taken : system.step (.renew id nowUnixMs) = some next) : Kept next := by
  cases taken
  cases found : system.store.leases.lookup id with
  | none =>
    simp only [MaterializationStore.renew, found]
    exact kept
  | some =>
    simp only [MaterializationStore.renew, found]
    refine kept.carry (fun minted noLease noReservation => ⟨minted, ?_, noReservation⟩)
      (fun bound => ?_) kept.reserved rfl
    · rw [lookup_insert_ite, if_neg]
      · exact noLease
      · intro same
        subst id
        rw [noLease] at found
        cases found
    · rw [lookup_insert_ite] at bound
      split at bound
      next same =>
        subst id
        cases bound
        obtain ⟨named, others⟩ := kept.leased found
        exact ⟨named, others⟩
      · exact kept.leased bound

variable {call : CallId}

theorem takeOut (kept : Kept system) {taken : List Str × MaterializationStore}
    (takesOut : TakesOut system.store taken) (started : system.takeOut call taken = some next) :
    Kept next := by
  obtain ⟨unused, ⟨⟩⟩ := ite_none_right_eq_some.mp started
  have dirName (id : LeaseId) : taken.2.dirName id = system.store.dirName id := by
    simp [MaterializationStore.dirName, takesOut.sessionTag]
  have stillGone {id : LeaseId} (absent : system.store.leases.lookup id = none) :
      taken.2.leases.lookup id = none := by
    cases bound : taken.2.leases.lookup id with
    | none => rfl
    | some record =>
      rw [takesOut.kept bound] at absent
      cases absent
  have later {dir : Str} (abandoned : system.Abandoned dir) : System.Abandoned
      { system with
        store := taken.2
        calls := system.calls.insert call taken.1
        gone := System.lost system.store taken.2 ++ system.gone } dir := by
    obtain ⟨owner, named, minted, noLease, noReservation⟩ := abandoned
    refine ⟨owner, named.trans (dirName owner).symm, ?_, stillGone noLease, noReservation⟩
    rw [takesOut.nextId]
    exact minted
  have orphan {dir : Str} (mem : dir ∈ taken.1) : System.Abandoned
      { system with
        store := taken.2
        calls := system.calls.insert call taken.1
        gone := System.lost system.store taken.2 ++ system.gone } dir := by
    obtain ⟨id, record, leased, rfl, gone⟩ := takesOut.listed.mp mem
    obtain ⟨named, -, minted, free⟩ := kept.leased leased
    refine ⟨id, named.trans (dirName id).symm, ?_, gone, free⟩
    rw [takesOut.nextId]
    exact minted
  exact
    { leased := by
        intro id record found
        obtain ⟨named, onDisk, minted, free⟩ := kept.leased (takesOut.kept found)
        refine ⟨named.trans (dirName id).symm, ?_, ?_, free⟩
        · rw [dirName]
          exact onDisk
        · rw [takesOut.nextId]
          exact minted
      reserved := by
        intro id _ found
        obtain ⟨onDisk, minted⟩ := kept.reserved found
        refine ⟨?_, ?_⟩
        · rw [dirName]
          exact onDisk
        · rw [takesOut.nextId]
          exact minted
      awaited := by
        intro other dirs dir found mem
        rw [lookup_insert_ite] at found
        split at found
        · cases found
          exact orphan mem
        · exact later (kept.awaited found mem)
      gone := by
        intro dir mem
        rcases mem_append.mp mem with lost | earlier
        · have listed := takesOut.listed.mpr (System.mem_lost.mp lost)
          refine ⟨orphan listed, .inr (.inr ⟨call, taken.1, ?_, listed⟩)⟩
          rw [lookup_insert_ite, if_pos rfl]
        · obtain ⟨abandoned, fate⟩ := kept.gone earlier
          refine ⟨later abandoned, ?_⟩
          rcases fate with absent | stuck | ⟨other, dirs, found, awaits⟩
          · exact .inl absent
          · exact .inr (.inl stuck)
          · refine .inr (.inr ⟨other, dirs, ?_, awaits⟩)
            rw [lookup_insert_ite, if_neg]
            · exact found
            · intro _
              subst other
              rw [unused] at found
              cases found
      dropped := fun mem => ⟨later (kept.dropped mem).1, (kept.dropped mem).2⟩ }

theorem removeNext (kept : Kept system) {removed : Bool}
    (taken : system.step (.removeNext call removed) = some next) : Kept next := by
  simp only [System.step] at taken
  split at taken
  next dir rest found =>
    have after := kept.removeDirAll (kept.awaited found mem_cons_self) removed
    have fate := fate_removeDirAll system dir removed
    have sameCalls : (system.removeDirAll dir removed).calls = system.calls := by
      cases removed <;> rfl
    have shape : next =
        { (system.removeDirAll dir removed) with
          calls := system.calls.insert call rest } := by
      cases taken
      cases removed <;> rfl
    rw [shape]
    exact
      { leased := after.leased
        reserved := after.reserved
        awaited := by
          intro other dirs awaited bound mem
          rw [lookup_insert_ite] at bound
          split at bound
          next same =>
            subst other
            cases bound
            rw [← sameCalls] at found
            exact after.awaited found (mem_cons_of_mem dir mem)
          · rw [← sameCalls] at bound
            exact after.awaited bound mem
        gone := by
          intro other mem
          obtain ⟨orphan, later⟩ := after.gone mem
          refine ⟨orphan, ?_⟩
          by_cases same : other = dir
          · subst other
            rcases fate with absent | stuck
            · exact .inl absent
            · exact .inr (.inl stuck)
          · rcases later with absent | stuck | ⟨holder, dirs, bound, awaits⟩
            · exact .inl absent
            · exact .inr (.inl stuck)
            · rw [sameCalls] at bound
              by_cases own : holder = call
              · subst holder
                rw [found] at bound
                cases bound
                refine .inr (.inr ⟨call, rest, ?_, ?_⟩)
                · rw [lookup_insert_ite, if_pos rfl]
                · exact (mem_cons.mp awaits).resolve_left same
              · refine .inr (.inr ⟨holder, dirs, ?_, awaits⟩)
                rw [lookup_insert_ite, if_neg own]
                exact bound
        dropped := after.dropped }
  · cases taken

theorem finish (kept : Kept system)
    (taken : system.step (.finish call) = some next) : Kept next := by
  obtain ⟨done, ⟨⟩⟩ := ite_none_right_eq_some.mp taken
  exact
    { leased := kept.leased
      reserved := kept.reserved
      awaited := by
        intro _ dirs dir found mem
        replace found := lookup_of_erase found
        exact kept.awaited found mem
      gone := by
        intro dir mem
        obtain ⟨orphan, fate⟩ := kept.gone mem
        refine ⟨orphan, ?_⟩
        rcases fate with absent | stuck | ⟨holder, dirs, found, awaits⟩
        · exact .inl absent
        · exact .inr (.inl stuck)
        · refine .inr (.inr ⟨holder, dirs, ?_, awaits⟩)
          rw [lookup_erase_ite, if_neg]
          · exact found
          · intro _
            subst holder
            rw [done] at found
            cases found
            cases awaits
      dropped := kept.dropped }

theorem step (kept : Kept system) {action : Action} (taken : system.step action = some next) :
    Kept next := by
  cases action with
  | reserve created => exact kept.reserve created taken
  | validate id _ _ nowUnixMs => exact kept.validate taken
  | insert id => exact kept.insert taken
  | drop id removed => exact kept.drop taken
  | renew id nowUnixMs => exact kept.renew taken
  | release call id => exact kept.takeOut (.release system.store id) taken
  | sweepExpired call nowUnixMs => exact kept.takeOut (.sweepExpired system.store nowUnixMs) taken
  | clearAll call => exact kept.takeOut (.clearAll system.store) taken
  | removeNext call removed => exact kept.removeNext taken
  | finish call => exact kept.finish taken

end Kept

/-- The section neither releases, clears nor renews the lease, and sweeps with
no cutoff at or after the given time. -/
def Action.spares (id : LeaseId) (expiresAtUnixMs : Int) : Action → Bool
  | .renew other _ | .release _ other => other ≠ id
  | .sweepExpired _ nowUnixMs => nowUnixMs < expiresAtUnixMs
  | .clearAll _ => false
  | _ => true

variable {system next : System} {action : Action} {id : LeaseId} {record : LeaseRecord}

theorem lookup_of_spares (kept : Kept system) (taken : system.step action = some next)
    (found : system.store.leases.lookup id = some record)
    (spares : action.spares id record.expiresAtUnixMs = true) :
    next.store.leases.lookup id = some record := by
  cases action with
  | reserve created =>
    cases created <;> simp only [System.step, Bool.false_eq_true, ↓reduceIte,
      some.injEq] at taken <;>
      subst next <;>
      exact found
  | validate other _ _ nowUnixMs =>
    simp only [System.step] at taken
    split at taken
    · split at taken <;> obtain rfl := some.inj taken <;> exact found
    · cases taken
      exact found
    · cases taken
  | insert other =>
    simp only [System.step] at taken
    split at taken
    next validated =>
      cases taken
      have different : id ≠ other := by
        intro _
        subst other
        rw [(kept.leased found).2.2.2] at validated
        cases validated
      rw [lookup_insert_ite, if_neg different]
      exact found
    · cases taken
  | drop other removed =>
    simp only [System.step] at taken
    split at taken
    · cases taken
    · cases taken
      cases removed <;> exact found
    · cases taken
  | renew other nowUnixMs =>
    simp only [Action.spares, ne_eq, decide_eq_true_eq] at spares
    cases taken
    simp only [MaterializationStore.renew]
    split
    · exact found
    · rw [lookup_insert_ite, if_neg (Ne.symm spares)]
      exact found
  | release call other =>
    simp only [Action.spares, ne_eq, decide_eq_true_eq] at spares
    obtain ⟨-, ⟨⟩⟩ := ite_none_right_eq_some.mp taken
    simp only [MaterializationStore.release]
    split
    · exact found
    · rw [lookup_erase_ite, if_neg (Ne.symm spares)]
      exact found
  | sweepExpired call nowUnixMs =>
    simp only [Action.spares, decide_eq_true_eq] at spares
    obtain ⟨-, ⟨⟩⟩ := ite_none_right_eq_some.mp taken
    simp only [MaterializationStore.sweepExpired, lookup_retain, found]
    simp [spares]
  | clearAll call => cases spares
  | removeNext call removed =>
    simp only [System.step] at taken
    split at taken
    · cases taken
      cases removed <;> exact found
    · cases taken
  | finish call =>
    obtain ⟨-, ⟨⟩⟩ := ite_none_right_eq_some.mp taken
    exact found

theorem lookup_of_run {system final : System} (kept : Kept system) {actions : List Action}
    (ran : run System.step system actions = some final)
    (found : system.store.leases.lookup id = some record)
    (spares : ∀ action ∈ actions, action.spares id record.expiresAtUnixMs = true) :
    final.store.leases.lookup id = some record := by
  induction actions generalizing system with
  | nil =>
    cases ran
    exact found
  | cons action _ ih =>
    obtain ⟨_, taken, later⟩ := ActionRun.run_cons_eq_some.mp ran
    apply ih (kept.step taken) later
    · exact lookup_of_spares kept taken found (spares action mem_cons_self)
    · intro other mem
      exact spares other (mem_cons_of_mem action mem)

theorem Action.spares_mono {earlier later : Int}
    (ordered : earlier ≤ later) (spares : action.spares id earlier = true) :
    action.spares id later = true := by
  cases action with
  | sweepExpired =>
    simp only [Action.spares, decide_eq_true_eq] at spares ⊢
    omega
  | _ => exact spares

theorem ttlMillis_step
    (taken : system.step action = some next) : next.store.ttlMillis = system.store.ttlMillis := by
  have takenOut {call : CallId} {taken : List Str × MaterializationStore}
      (takesOut : TakesOut system.store taken)
      (started : system.takeOut call taken = some next) :
      next.store.ttlMillis = system.store.ttlMillis := by
    obtain ⟨-, ⟨⟩⟩ := ite_none_right_eq_some.mp started
    exact takesOut.ttlMillis
  cases action with
  | reserve created =>
    cases created <;> simp only [System.step, Bool.false_eq_true, ↓reduceIte,
      some.injEq] at taken <;>
      subst next <;>
      rfl
  | validate id _ _ nowUnixMs =>
    simp only [System.step] at taken
    split at taken
    · split at taken <;> obtain rfl := some.inj taken <;> rfl
    · cases taken
      rfl
    · cases taken
  | insert id =>
    simp only [System.step] at taken
    split at taken
    · cases taken
      rfl
    · cases taken
  | drop id removed =>
    simp only [System.step] at taken
    split at taken
    · cases taken
    · cases taken
      cases removed <;> rfl
    · cases taken
  | renew id nowUnixMs =>
    cases taken
    simp only [MaterializationStore.renew]
    split <;> rfl
  | release call id => exact takenOut (.release system.store id) taken
  | sweepExpired call nowUnixMs => exact takenOut (.sweepExpired system.store nowUnixMs) taken
  | clearAll call => exact takenOut (.clearAll system.store) taken
  | removeNext call removed =>
    simp only [System.step] at taken
    split at taken
    · cases taken
      cases removed <;> rfl
    · cases taken
  | finish call =>
    obtain ⟨-, ⟨⟩⟩ := ite_none_right_eq_some.mp taken
    rfl

theorem lookup_of_renew {store : MaterializationStore} {id : LeaseId}
    {nowUnixMs expiresAtUnixMs : Int}
    (renewed : (store.renew id nowUnixMs).1 = .ok expiresAtUnixMs) :
    ∃ record, (store.renew id nowUnixMs).2.leases.lookup id = some record ∧
      record.expiresAtUnixMs = store.expiresAt nowUnixMs := by
  cases found : store.leases.lookup id with
  | none => simp [MaterializationStore.renew, found] at renewed
  | some record =>
    refine ⟨{ record with
      expiresAtUnixMs := store.expiresAt nowUnixMs }, ?_, rfl⟩
    simp [MaterializationStore.renew, found]

/-- A lease has its own directory, a directory of no lease is removed if possible, and a
renewed lease outlives the sweeps within its time to live. -/
theorem lease_directories_kept {sessionTag : Str} {ttlMillis : Nat} {disk : List Str}
    {actions : List Action} {final : System} (ran : ActionRun.run System.step
      (System.initial sessionTag ttlMillis disk) actions = some final) :
    (∀ id record, final.store.leases.lookup id = some record → record.leaseDir ∈ final.disk) ∧
      (∀ first second firstRecord secondRecord, final.store.leases.lookup first = some firstRecord →
        final.store.leases.lookup second = some secondRecord →
        firstRecord.leaseDir = secondRecord.leaseDir → first = second) ∧
      (∀ dir ∈ final.gone, dir ∉ final.disk ∨ dir ∈ final.stuck ∨ ∃ call dirs,
        final.calls.lookup call = some dirs ∧ dir ∈ dirs) ∧
      (∀ dir ∈ final.dropped, dir ∉ final.disk ∨ dir ∈ final.stuck) ∧
      ∀ id nowUnixMs expiresAtUnixMs, (final.store.renew id nowUnixMs).1 = .ok expiresAtUnixMs →
        ∃ renewed, final.step (.renew id nowUnixMs) = some renewed ∧
          ∀ further later, (∀ action ∈ further, action.spares id
            (min (nowUnixMs + min (ttlMillis : Int) i64Max) i64Max) = true) →
            run System.step renewed further = some later →
            (later.store.leases.lookup id).isSome = true := by
  have kept : Kept final :=
    run_preserves Kept (fun kept => kept.step)
      (Kept.initially sessionTag ttlMillis disk) ran
  have ttl : final.store.ttlMillis = ttlMillis :=
    run_preserves (fun system => system.store.ttlMillis = ttlMillis)
      (fun same taken => (ttlMillis_step taken).trans same) rfl ran
  refine ⟨?_, ?_, ?_, ?_, ?_⟩
  · intro id record found
    obtain ⟨named, onDisk, -⟩ := kept.leased found
    rw [named]
    exact onDisk
  · intro first second firstRecord secondRecord firstFound secondFound same
    rw [(kept.leased firstFound).1, (kept.leased secondFound).1] at same
    exact leaseDirName_injective same
  · intro dir mem
    exact (kept.gone mem).2
  · intro dir mem
    exact (kept.dropped mem).2
  · intro id nowUnixMs expiresAtUnixMs renewed
    refine ⟨_, rfl, ?_⟩
    intro further later spares continued
    obtain ⟨record, found, expiry⟩ := lookup_of_renew renewed
    have bound : min (nowUnixMs + min (ttlMillis : Int) i64Max) i64Max ≤
        record.expiresAtUnixMs := by
      rw [expiry, MaterializationStore.expiresAt, saturatingAdd, ttl]
      omega
    have survives :=
      lookup_of_run (@Kept.renew final _ kept id nowUnixMs rfl) continued found (by
        intro action mem
        exact Action.spares_mono bound (spares action mem))
    simp [survives]

/-- A lease that is reserved, committed at time zero and in the map. -/
def leaseOnce : List Action :=
  [.reserve true, .validate 1 (some [leaseDirName ['t'] 1, ['f']]) 5 0, .insert 1]

/-- Runs of a store with a time to live of five minutes. -/
def sampleRun (actions : List Action) : Option System :=
  ActionRun.run System.step (System.initial ['t'] 300000 []) actions

/-- A second lease is dropped uncommitted while the first one is renewed. -/
theorem lease_directories_kept_with_renewal : ∃ final, sampleRun
    (leaseOnce ++ [.reserve true, .renew 1 1000, .drop 2 true]) = some final ∧
      (∃ record, final.store.leases.lookup 1 = some record ∧ record.leaseDir ∈ final.disk) ∧
      leaseDirName ['t'] 2 ∈ final.dropped ∧
      (leaseDirName ['t'] 2 ∉ final.disk ∨ leaseDirName ['t'] 2 ∈ final.stuck) := by
  have evaluated : (sampleRun (leaseOnce ++ [.reserve true, .renew 1 1000, .drop 2 true])).map
      (fun final => ((final.store.leases.lookup 1).isSome, final.dropped)) =
        some (true, [leaseDirName ['t'] 2]) := by
    decide +kernel
  obtain ⟨final, ran, seen⟩ := map_eq_some_iff.mp evaluated
  obtain ⟨leased, dropped⟩ := Prod.mk.inj seen
  obtain ⟨record, found⟩ := isSome_iff_exists.mp leased
  have kept := lease_directories_kept ran
  have listed : leaseDirName ['t'] 2 ∈ final.dropped := by simp [dropped]
  exact ⟨final, ran, ⟨record, found, kept.1 1 record found⟩, listed, kept.2.2.2.1 _ listed⟩

/-- The lease with id one is in the map after a run. -/
def leasedAfter (actions : List Action) : Option Bool :=
  (sampleRun actions).map fun final => (final.store.leases.lookup 1).isSome

/-- A renewal with an older clock shortens a lease, one near the end of the clock is cut
off, and a refused removal leaves a directory. -/
theorem renewed_lease_lost : (leasedAfter (leaseOnce ++ [.renew 1 1000]) = some true ∧ leasedAfter
    (leaseOnce ++ [.renew 1 1000, .renew 1 0, .sweepExpired 1 300000]) = some false ∧
      (300000 : Int) < 1000 + 300000) ∧
      (leasedAfter (leaseOnce ++ [.renew 1 (i64Max - 1)]) = some true ∧ leasedAfter
        (leaseOnce ++ [.renew 1 (i64Max - 1), .sweepExpired 1 i64Max]) = some false ∧
        i64Max < i64Max - 1 + 300000) ∧
      (sampleRun (leaseOnce ++ [.release 1 1, .removeNext 1 false, .finish 1])).map
        (fun final => (final.gone, final.disk)) =
        some ([leaseDirName ['t'] 1], [leaseDirName ['t'] 1]) := by
  decide +kernel

end Arclain.Materialization
