import Arclain.ActionRun
import Arclain.KeyedMap

namespace Arclain.DestinationLock

/-!
# The registry of destination locks

Commits are serialized by one mutex per canonical parent directory.  A registry maps each
directory to a weak pointer to its mutex, and every `DestinationLock` holds a strong one.

Dropping is two steps: the registry check, and afterwards the release of the strong pointer,
so the count that the check reads includes locks not yet released.
-/

open KeyedMap Option ActionRun

abbrev MutexId := Nat

/-- The identity of one `DestinationLock` value. -/
abbrev LockId := Nat

inductive Phase where
  | acquired
  | committing
  | dropping
  deriving DecidableEq

/-- One `DestinationLock` value and the stage of its owner. -/
structure Lock (Key : Type) where
  key : Key
  mutex : MutexId
  phase : Phase

/-- `DESTINATION_LOCKS`, every lock that holds its strong pointer, and the next mutex
allocation. -/
structure State (Key : Type) where
  registry : KeyedMap Key MutexId
  locks : KeyedMap LockId (Lock Key)
  nextMutex : MutexId

/-- The atomic steps a task can take on a lock value. -/
inductive Action (Key : Type) where
  | acquire (id : LockId) (key : Key)
  | lockMutex (id : LockId)
  | unlockMutex (id : LockId)
  | dropCheck (id : LockId)
  | dropRelease (id : LockId)

variable {Key : Type} [DecidableEq Key]

def initial : State Key where
  registry := ∅
  locks := ∅
  nextMutex := 0

namespace State

section

variable (state : State Key)

/-- `Arc::strong_count`: the lock values that still point to a mutex. -/
def strongCount (mutex : MutexId) : Nat :=
  state.locks.count fun lock => lock.mutex == mutex

/-- `Weak::upgrade` succeeds while some strong pointer is left. -/
def upgrade (mutex : MutexId) : Option MutexId :=
  if 0 < state.strongCount mutex then some mutex else none

def isLocked (mutex : MutexId) : Bool :=
  0 < state.locks.count fun lock => lock.mutex == mutex && lock.phase == .committing

def setPhase (id : LockId) (lock : Lock Key) (phase : Phase) : State Key :=
  { state with locks := state.locks.insert id { lock with phase := phase } }

/-- `DestinationLock::acquire`, for a lock value that does not exist yet. -/
def acquire (id : LockId) (key : Key) : State Key :=
  match (state.registry.lookup key).bind state.upgrade with
  | some mutex =>
    { state with
      locks := state.locks.insert id ⟨key, mutex, .acquired⟩ }
  | none =>
    { registry := state.registry.insert key state.nextMutex
      locks := state.locks.insert id ⟨key, state.nextMutex, .acquired⟩
      nextMutex := state.nextMutex + 1 }

/-- The registry check of `Drop for DestinationLock`. -/
def dropRegistry (lock : Lock Key) : KeyedMap Key MutexId :=
  if state.registry.lookup lock.key = some lock.mutex ∧ state.strongCount lock.mutex = 1 then
    state.registry.erase lock.key
  else state.registry

end

end State

section

variable (state : State Key)

/-- One atomic step of any task.  A disabled step has no successor. -/
def step : Action Key → Option (State Key)
  | .acquire id key =>
    match state.locks.lookup id with
    | some _ => none
    | none => some (state.acquire id key)
  | .lockMutex id =>
    match state.locks.lookup id with
    | some lock =>
      if lock.phase = .acquired ∧ ¬ state.isLocked lock.mutex then
        some (state.setPhase id lock .committing)
      else none
    | none => none
  | .unlockMutex id =>
    match state.locks.lookup id with
    | some lock =>
      if lock.phase = .committing then some (state.setPhase id lock .acquired)
      else none
    | none => none
  | .dropCheck id =>
    match state.locks.lookup id with
    | some lock =>
      if lock.phase = .acquired then
        some { state.setPhase id lock .dropping with
          registry := state.dropRegistry lock }
      else none
    | none => none
  | .dropRelease id =>
    match state.locks.lookup id with
    | some lock =>
      if lock.phase = .dropping then some { state with locks := state.locks.erase id }
      else none
    | none => none

def Live (id : LockId) (lock : Lock Key) : Prop :=
  state.locks.lookup id = some lock ∧ lock.phase ≠ .dropping

def SharedMutex : Prop :=
  ∀ {first second firstLock secondLock}, Live state first firstLock → Live state second secondLock →
    firstLock.key = secondLock.key →
    firstLock.mutex = secondLock.mutex

/-- At most one task per key is inside the commit section. -/
def ExclusiveCommit : Prop :=
  ∀ {first second firstLock secondLock}, state.locks.lookup first = some firstLock →
    state.locks.lookup second = some secondLock →
    firstLock.phase = .committing →
    secondLock.phase = .committing →
    firstLock.key = secondLock.key →
    first = second

/-- A key with no lock value left has no registry entry. -/
def Reclaimed : Prop :=
  ∀ key, (∀ {id lock}, state.locks.lookup id = some lock → lock.key ≠ key) →
    state.registry.lookup key = none

/-- The check of the last live lock of a key is not made while another one stands between
its check and its release. -/
def LastDropAlone : Action Key → Prop
  | .dropCheck id =>
    ∀ lock, state.locks.lookup id = some lock → (∃ other otherLock,
      Live state other otherLock ∧ other ≠ id ∧ otherLock.key = lock.key) ∨
      ∀ {other otherLock}, state.locks.lookup other = some otherLock → otherLock.key = lock.key →
        other = id
  | _ => True

end

/-- A live lock's mutex is the registered one, with one key and one guard, and allocations
are fresh. -/
structure Consistent (state : State Key) : Prop where
  liveRegistered : ∀ {id lock}, Live state id lock →
    state.registry.lookup lock.key = some lock.mutex
  mutexKey : ∀ {first second firstLock secondLock}, state.locks.lookup first = some firstLock →
    state.locks.lookup second = some secondLock → firstLock.mutex = secondLock.mutex →
    firstLock.key = secondLock.key
  registeredKey : ∀ {id lock key mutex}, state.registry.lookup key = some mutex →
    state.locks.lookup id = some lock → lock.mutex = mutex → lock.key = key
  registryInjective : ∀ {first second mutex}, state.registry.lookup first = some mutex →
    state.registry.lookup second = some mutex → first = second
  lockFresh : ∀ {id lock}, state.locks.lookup id = some lock → lock.mutex < state.nextMutex
  registryFresh : ∀ {key mutex}, state.registry.lookup key = some mutex → mutex < state.nextMutex
  oneGuard : ∀ {first second firstLock secondLock}, state.locks.lookup first = some firstLock →
    state.locks.lookup second = some secondLock → firstLock.phase = .committing →
    secondLock.phase = .committing → firstLock.mutex = secondLock.mutex → first = second

/-- Every registry entry is backed by a live lock. -/
def Backed (state : State Key) : Prop :=
  ∀ {key mutex}, state.registry.lookup key = some mutex → ∃ id lock,
    Live state id lock ∧ lock.key = key ∧ lock.mutex = mutex

section

omit [DecidableEq Key]

theorem lookup_locks_insert {locks : KeyedMap LockId (Lock Key)} {id other : LockId}
    {lock found : Lock Key} (foundBound : (locks.insert id lock).lookup other = some found) :
    other = id ∧ found = lock ∨ other ≠ id ∧ locks.lookup other = some found := by
  rw [lookup_insert_ite] at foundBound
  by_cases same : other = id
  · simp only [same, ↓reduceIte, some.injEq] at foundBound
    exact .inl ⟨same, foundBound.symm⟩
  · simp only [same, ↓reduceIte] at foundBound
    exact .inr ⟨same, foundBound⟩

variable {state : State Key} {lock : Lock Key} {id : LockId}

theorem upgrade_of_held (bound : state.locks.lookup id = some lock) :
    state.upgrade lock.mutex = some lock.mutex := by
  have positive : 0 < state.strongCount lock.mutex :=
    count_pos_iff.mpr ⟨id, lock, bound, by simp⟩
  simp [State.upgrade, positive]

theorem eq_of_strongCount_eq_one {first second : LockId} {firstLock secondLock : Lock Key}
    (single : state.strongCount firstLock.mutex = 1)
    (firstBound : state.locks.lookup first = some firstLock)
    (secondBound : state.locks.lookup second = some secondLock)
    (sameMutex : secondLock.mutex = firstLock.mutex) : first = second :=
  KeyedMap.eq_of_count_eq_one single firstBound (by simp) secondBound (by simp [sameMutex])

theorem strongCount_eq_one (bound : state.locks.lookup id = some lock)
    (alone : ∀ {other otherLock}, state.locks.lookup other = some otherLock →
      otherLock.mutex = lock.mutex → other = id) :
    state.strongCount lock.mutex = 1 := by
  have positive : 0 < state.strongCount lock.mutex :=
    count_pos_iff.mpr ⟨id, lock, bound, by simp⟩
  have atMostOne : state.strongCount lock.mutex ≤ 1 := by
    apply count_le_one id
    intro other otherLock otherBound sameMutex
    exact alone otherBound (by simpa using sameMutex)
  exact Nat.le_antisymm atMostOne positive

theorem not_committing_of_not_isLocked {mutex : MutexId} (free : ¬ state.isLocked mutex = true)
    (bound : state.locks.lookup id = some lock) (sameMutex : lock.mutex = mutex) :
    lock.phase ≠ .committing := by
  intro committing
  apply free
  simp only [State.isLocked, decide_eq_true_eq]
  exact count_pos_iff.mpr ⟨id, lock, bound, by simp [sameMutex, committing]⟩

end

variable {state : State Key}

theorem lookup_dropRegistry {lock : Lock Key} {key : Key} {mutex : MutexId}
    (found : (state.dropRegistry lock).lookup key = some mutex) :
    state.registry.lookup key = some mutex := by
  unfold State.dropRegistry at found
  split at found
  · exact lookup_of_erase found
  · exact found

namespace Consistent

theorem initially : Consistent (initial : State Key) := by constructor <;> simp [initial, Live]

variable {state : State Key}

theorem sharedMutex (consistent : Consistent state) : SharedMutex state := by
  intro _ _ _ _ firstLive secondLive sameKey
  have firstRegistered := consistent.liveRegistered firstLive
  have secondRegistered := consistent.liveRegistered secondLive
  rw [sameKey, secondRegistered] at firstRegistered
  exact (some.inj firstRegistered).symm

theorem exclusiveCommit (consistent : Consistent state) : ExclusiveCommit state := by
  intro _ _ _ _ firstBound secondBound firstGuard secondGuard sameKey
  have sameMutex :=
    consistent.sharedMutex ⟨firstBound, by simp [firstGuard]⟩ ⟨secondBound, by simp [secondGuard]⟩
      sameKey
  exact consistent.oneGuard firstBound secondBound firstGuard secondGuard sameMutex

variable {id : LockId}

theorem oneGuard_insert (consistent : Consistent state) {lock : Lock Key}
    (unguarded : lock.phase ≠ .committing) {first second : LockId} {firstLock secondLock : Lock Key}
    (firstBound : (state.locks.insert id lock).lookup first = some firstLock)
    (secondBound : (state.locks.insert id lock).lookup second = some secondLock)
    (firstGuard : firstLock.phase = .committing) (secondGuard : secondLock.phase = .committing)
    (sameMutex : firstLock.mutex = secondLock.mutex) : first = second := by
  obtain ⟨-, rfl⟩ | ⟨-, firstOld⟩ := lookup_locks_insert firstBound
  · exact absurd firstGuard unguarded
  · obtain ⟨-, rfl⟩ | ⟨-, secondOld⟩ := lookup_locks_insert secondBound
    · exact absurd secondGuard unguarded
    · exact consistent.oneGuard firstOld secondOld firstGuard secondGuard sameMutex

theorem acquire_shared (consistent : Consistent state) {key : Key} {mutex : MutexId}
    (registered : state.registry.lookup key = some mutex) : Consistent
      { state with
        locks := state.locks.insert id ⟨key, mutex, .acquired⟩ } where
  __ := consistent
  liveRegistered := by
    rintro other lock ⟨bound, alive⟩
    obtain ⟨-, rfl⟩ | ⟨-, old⟩ := lookup_locks_insert bound
    · exact registered
    · exact consistent.liveRegistered ⟨old, alive⟩
  mutexKey := by
    intro _ _ _ _ firstBound secondBound sameMutex
    obtain ⟨-, rfl⟩ | ⟨-, firstOld⟩ := lookup_locks_insert firstBound
    · obtain ⟨-, rfl⟩ | ⟨-, secondOld⟩ := lookup_locks_insert secondBound
      · rfl
      · exact (consistent.registeredKey registered secondOld sameMutex.symm).symm
    · obtain ⟨-, rfl⟩ | ⟨-, secondOld⟩ := lookup_locks_insert secondBound
      · exact consistent.registeredKey registered firstOld sameMutex
      · exact consistent.mutexKey firstOld secondOld sameMutex
  registeredKey := by
    intro other lock _ _ otherRegistered bound sameMutex
    obtain ⟨-, rfl⟩ | ⟨-, old⟩ := lookup_locks_insert bound
    · subst sameMutex
      exact consistent.registryInjective registered otherRegistered
    · exact consistent.registeredKey otherRegistered old sameMutex
  lockFresh := by
    intro other lock bound
    obtain ⟨-, rfl⟩ | ⟨-, old⟩ := lookup_locks_insert bound
    · exact consistent.registryFresh registered
    · exact consistent.lockFresh old
  oneGuard := consistent.oneGuard_insert (by simp)

/--
Registering a fresh mutex is only done when the key has no live lock: a live
lock would have kept its registered pointer upgradable.
-/
theorem acquire_fresh (consistent : Consistent state) {key : Key}
    (gone : (state.registry.lookup key).bind state.upgrade = none) : Consistent
      { registry := state.registry.insert key state.nextMutex
        locks := state.locks.insert id ⟨key, state.nextMutex, .acquired⟩
        nextMutex := state.nextMutex + 1 } where
  liveRegistered := by
    rintro other lock ⟨bound, alive⟩
    rw [lookup_insert_ite]
    obtain ⟨-, rfl⟩ | ⟨-, old⟩ := lookup_locks_insert bound
    · simp
    · have registered := consistent.liveRegistered ⟨old, alive⟩
      have keyNe : lock.key ≠ key := by
        rintro rfl
        simp [registered, upgrade_of_held old] at gone
      simpa [keyNe] using registered
  mutexKey := by
    intro first second _ _ firstBound secondBound sameMutex
    obtain ⟨-, rfl⟩ | ⟨-, firstOld⟩ := lookup_locks_insert firstBound
    · obtain ⟨-, rfl⟩ | ⟨-, secondOld⟩ := lookup_locks_insert secondBound
      · rfl
      · have older := consistent.lockFresh secondOld
        exact (Nat.ne_of_gt older sameMutex).elim
    · obtain ⟨-, rfl⟩ | ⟨-, secondOld⟩ := lookup_locks_insert secondBound
      · have older := consistent.lockFresh firstOld
        exact (Nat.ne_of_lt older sameMutex).elim
      · exact consistent.mutexKey firstOld secondOld sameMutex
  registeredKey := by
    intro other lock otherKey _ otherRegistered bound sameMutex
    rw [lookup_insert_ite] at otherRegistered
    split at otherRegistered
    next sameKey =>
      cases otherRegistered
      obtain ⟨-, rfl⟩ | ⟨-, old⟩ := lookup_locks_insert bound
      · exact sameKey.symm
      · have older := consistent.lockFresh old
        exact (Nat.ne_of_lt older sameMutex).elim
    · obtain ⟨-, rfl⟩ | ⟨-, old⟩ := lookup_locks_insert bound
      · have older := consistent.registryFresh otherRegistered
        exact (Nat.ne_of_gt older sameMutex).elim
      · exact consistent.registeredKey otherRegistered old sameMutex
  registryInjective := by
    intro first second mutex firstRegistered secondRegistered
    rw [lookup_insert_ite] at firstRegistered secondRegistered
    split at firstRegistered <;> split at secondRegistered
    · simp_all
    · cases firstRegistered
      exact (Nat.lt_irrefl _ (consistent.registryFresh secondRegistered)).elim
    · cases secondRegistered
      exact (Nat.lt_irrefl _ (consistent.registryFresh firstRegistered)).elim
    · exact consistent.registryInjective firstRegistered secondRegistered
  lockFresh := by
    intro other lock bound
    obtain ⟨-, rfl⟩ | ⟨-, old⟩ := lookup_locks_insert bound
    · exact Nat.lt_succ_self _
    · exact Nat.lt_succ_of_lt (consistent.lockFresh old)
  registryFresh := by
    intro otherKey mutex registered
    rw [lookup_insert_ite] at registered
    split at registered
    · cases registered
      exact Nat.lt_succ_self _
    · exact Nat.lt_succ_of_lt (consistent.registryFresh registered)
  oneGuard := consistent.oneGuard_insert (by simp)

theorem of_traced {state next : State Key} (consistent : Consistent state)
    (traced : ∀ {id lock}, next.locks.lookup id = some lock → ∃ old,
      state.locks.lookup id = some old ∧ old.key = lock.key ∧ old.mutex = lock.mutex)
    (shrinks : ∀ {key mutex}, next.registry.lookup key = some mutex →
      state.registry.lookup key = some mutex)
    (counter : next.nextMutex = state.nextMutex) (liveRegistered : ∀ {id lock}, Live next id lock →
      next.registry.lookup lock.key = some lock.mutex)
    (oneGuard : ∀ {first second firstLock secondLock}, next.locks.lookup first = some firstLock →
      next.locks.lookup second = some secondLock → firstLock.phase = .committing →
      secondLock.phase = .committing → firstLock.mutex = secondLock.mutex → first = second) :
    Consistent next where
  liveRegistered := liveRegistered
  mutexKey := by
    intro first second firstLock secondLock firstBound secondBound sameMutex
    obtain ⟨_, firstOldBound, firstKey, firstMutex⟩ := traced firstBound
    obtain ⟨_, secondOldBound, secondKey, secondMutex⟩ := traced secondBound
    rw [← firstKey, ← secondKey]
    exact consistent.mutexKey firstOldBound secondOldBound
      (by rw [firstMutex, secondMutex, sameMutex])
  registeredKey := by
    intro id lock key mutex registered bound sameMutex
    obtain ⟨old, oldBound, oldKey, oldMutex⟩ := traced bound
    rw [← oldKey]
    exact consistent.registeredKey (shrinks registered) oldBound (oldMutex.trans sameMutex)
  registryInjective := by
    intro first second mutex firstRegistered secondRegistered
    exact consistent.registryInjective (shrinks firstRegistered) (shrinks secondRegistered)
  lockFresh := by
    intro id lock bound
    obtain ⟨old, oldBound, -, oldMutex⟩ := traced bound
    rw [counter, ← oldMutex]
    exact consistent.lockFresh oldBound
  registryFresh := by
    intro key mutex registered
    rw [counter]
    exact consistent.registryFresh (shrinks registered)
  oneGuard := oneGuard

omit [DecidableEq Key] in
theorem traced_setPhase {id other : LockId} {lock found : Lock Key} {phase : Phase}
    (bound : state.locks.lookup id = some lock)
    (foundBound : (state.setPhase id lock phase).locks.lookup other = some found) :
    ∃ old, state.locks.lookup other = some old ∧ old.key = found.key ∧ old.mutex = found.mutex := by
  obtain ⟨rfl, rfl⟩ | ⟨-, old⟩ := lookup_locks_insert foundBound
  · exact ⟨lock, bound, rfl, rfl⟩
  · exact ⟨found, old, rfl, rfl⟩

variable {lock : Lock Key}

section

variable (consistent : Consistent state)
include consistent

theorem lockMutex (bound : state.locks.lookup id = some lock)
    (acquired : lock.phase = .acquired) (free : ¬ state.isLocked lock.mutex = true) :
    Consistent (state.setPhase id lock .committing) := by
  have liveBefore := consistent.liveRegistered ⟨bound, by simp [acquired]⟩
  refine consistent.of_traced (traced_setPhase bound) (fun registered => registered) rfl ?_ ?_
  · rintro other found ⟨foundBound, alive⟩
    obtain ⟨-, rfl⟩ | ⟨-, old⟩ := lookup_locks_insert foundBound
    · exact liveBefore
    · exact consistent.liveRegistered ⟨old, alive⟩
  · intro _ _ _ _ firstBound secondBound firstGuard secondGuard sameMutex
    obtain ⟨rfl, rfl⟩ | ⟨-, firstOld⟩ := lookup_locks_insert firstBound
    · obtain ⟨rfl, -⟩ | ⟨-, secondOld⟩ := lookup_locks_insert secondBound
      · rfl
      · exact (not_committing_of_not_isLocked free secondOld sameMutex.symm secondGuard).elim
    · obtain ⟨rfl, rfl⟩ | ⟨-, secondOld⟩ := lookup_locks_insert secondBound
      · exact (not_committing_of_not_isLocked free firstOld sameMutex firstGuard).elim
      · exact consistent.oneGuard firstOld secondOld firstGuard secondGuard sameMutex

theorem unlockMutex
    (bound : state.locks.lookup id = some lock) (committing : lock.phase = .committing) :
    Consistent (state.setPhase id lock .acquired) := by
  have liveBefore := consistent.liveRegistered ⟨bound, by simp [committing]⟩
  refine consistent.of_traced (traced_setPhase bound) (fun registered => registered) rfl ?_ ?_
  · rintro other found ⟨foundBound, alive⟩
    obtain ⟨-, rfl⟩ | ⟨-, old⟩ := lookup_locks_insert foundBound
    · exact liveBefore
    · exact consistent.liveRegistered ⟨old, alive⟩
  · exact consistent.oneGuard_insert (by simp)

/--
The drop check never removes the entry of a lock that is still live: such a
lock would share the mutex and be counted beside the dropped one.
-/
theorem dropCheck (bound : state.locks.lookup id = some lock) : Consistent
      { state.setPhase id lock .dropping with
        registry := state.dropRegistry lock } := by
  refine consistent.of_traced (traced_setPhase bound) lookup_dropRegistry rfl ?_ ?_
  · rintro other found ⟨foundBound, alive⟩
    obtain ⟨-, rfl⟩ | ⟨otherNe, old⟩ := lookup_locks_insert foundBound
    · simp at alive
    · have registered := consistent.liveRegistered ⟨old, alive⟩
      simp only [State.dropRegistry]
      split
      next removed =>
        have keyNe : found.key ≠ lock.key := by
          intro sameKey
          have sameMutex : found.mutex = lock.mutex := by
            rw [sameKey, removed.1] at registered
            exact (some.inj registered).symm
          exact otherNe (eq_of_strongCount_eq_one removed.2 bound old sameMutex).symm
        rw [lookup_erase_ite]
        simpa [keyNe] using registered
      · exact registered
  · exact consistent.oneGuard_insert (by simp)

theorem dropRelease (id : LockId) :
    Consistent { state with locks := state.locks.erase id } := by
  have remaining : ∀ {other lock}, (state.locks.erase id).lookup other = some lock →
      state.locks.lookup other = some lock := by
    intro other lock bound
    exact lookup_of_erase bound
  refine consistent.of_traced ?_ (fun registered => registered) rfl ?_ ?_
  · intro other lock bound
    exact ⟨lock, remaining bound, rfl, rfl⟩
  · rintro other lock ⟨bound, alive⟩
    exact consistent.liveRegistered ⟨remaining bound, alive⟩
  · intro _ _ _ _ firstBound secondBound firstGuard secondGuard sameMutex
    exact consistent.oneGuard (remaining firstBound)
      (remaining secondBound) firstGuard secondGuard sameMutex

end

end Consistent

variable {action : Action Key}

theorem step_cases {state next : State Key} (taken : step state action = some next) :
    (∃ id key, action = .acquire id key ∧ state.locks.lookup id = none ∧
      next = state.acquire id key) ∨
    (∃ id lock, state.locks.lookup id = some lock ∧
      ((action = .lockMutex id ∧ lock.phase = .acquired ∧ ¬ state.isLocked lock.mutex = true ∧
        next = state.setPhase id lock .committing) ∨
        (action = .unlockMutex id ∧ lock.phase = .committing ∧
          next = state.setPhase id lock .acquired) ∨
        (action = .dropCheck id ∧ lock.phase = .acquired ∧
          next = { state.setPhase id lock .dropping with
            registry := state.dropRegistry lock }) ∨
        (action = .dropRelease id ∧ lock.phase = .dropping ∧
          next = { state with locks := state.locks.erase id }))) := by
  cases action with
  | acquire id key =>
    cases bound : state.locks.lookup id with
    | some lock => simp [step, bound] at taken
    | none =>
      simp only [step, bound, some.injEq] at taken
      exact .inl ⟨id, key, rfl, bound, taken.symm⟩
  | lockMutex id | unlockMutex id | dropCheck id | dropRelease id =>
    cases bound : state.locks.lookup id with
    | none => simp [step, bound] at taken
    | some lock =>
      simp only [step, bound] at taken
      obtain ⟨allowed, ⟨⟩⟩ := ite_none_right_eq_some.mp taken
      exact .inr ⟨id, lock, bound, by simp [allowed]⟩

theorem Consistent.acquire (consistent : Consistent state) (id : LockId) (key : Key) :
    Consistent (state.acquire id key) := by
  unfold State.acquire
  split
  next upgraded =>
    obtain ⟨_, found, upgrades⟩ := bind_eq_some_iff.mp upgraded
    simp only [State.upgrade, ite_none_right_eq_some, some.injEq] at upgrades
    obtain rfl := upgrades.2
    exact consistent.acquire_shared found
  next gone => exact consistent.acquire_fresh gone

theorem Consistent.step {state next : State Key}
    (consistent : Consistent state) (taken : DestinationLock.step state action = some next) :
    Consistent next := by
  obtain ⟨id, key, -, -, rfl⟩ | ⟨id, _, bound, taken⟩ := step_cases taken
  · exact consistent.acquire id key
  · obtain ⟨-, acquired, free, rfl⟩ | ⟨-, committing, rfl⟩ | ⟨-, -, rfl⟩ | ⟨-, -, rfl⟩ := taken
    · exact consistent.lockMutex bound acquired free
    · exact consistent.unlockMutex bound committing
    · exact consistent.dropCheck bound
    · exact consistent.dropRelease id

theorem consistent_of_run {actions : List (Action Key)} {final : State Key}
    (ran : run step initial actions = some final) : Consistent final :=
  run_preserves Consistent (fun consistent => consistent.step)
    Consistent.initially ran

namespace Backed

theorem initially : Backed (initial : State Key) := by
  intro _ _ registered
  simp [initial] at registered

variable {state : State Key} {id : LockId}

theorem acquire (backed : Backed state) (unused : state.locks.lookup id = none)
    (key : Key) : Backed (state.acquire id key) := by
  have keepsLive : ∀ {other lock newLock}, Live state other lock →
      (state.locks.insert id newLock).lookup other = some lock := by
    rintro other lock newLock ⟨bound, -⟩
    have otherNe : other ≠ id := by
      rintro rfl
      simp [unused] at bound
    rw [lookup_insert_ite]
    simpa [otherNe] using bound
  intro _ _ registered
  unfold State.acquire at registered ⊢
  split at registered
  · obtain ⟨other, lock, live, sameKey, sameMutex⟩ := backed registered
    exact ⟨other, lock, ⟨keepsLive live, live.2⟩, sameKey, sameMutex⟩
  · simp only [lookup_insert_ite] at registered
    split at registered
    next sameKey =>
      exact ⟨id, _, ⟨AList.lookup_insert _, by simp⟩, sameKey.symm, some.inj registered⟩
    · obtain ⟨other, lock, live, sameKey, sameMutex⟩ := backed registered
      exact ⟨other, lock, ⟨keepsLive live, live.2⟩, sameKey, sameMutex⟩

variable {lock : Lock Key}

theorem setPhase (backed : Backed state) {phase : Phase}
    (bound : state.locks.lookup id = some lock) (alive : phase ≠ .dropping) :
    Backed (state.setPhase id lock phase) := by
  intro _ _ registered
  obtain ⟨other, otherLock, live, sameKey, sameMutex⟩ := backed registered
  by_cases same : other = id
  · subst other
    obtain rfl := some.inj (bound.symm.trans live.1)
    exact ⟨id, { lock with phase := phase }, ⟨AList.lookup_insert _, alive⟩, sameKey, sameMutex⟩
  · refine ⟨other, otherLock, ⟨?_, live.2⟩, sameKey, sameMutex⟩
    rw [State.setPhase, lookup_insert_ite]
    simpa [same] using live.1

theorem dropCheck (consistent : Consistent state) (backed : Backed state)
    (bound : state.locks.lookup id = some lock) (acquired : lock.phase = .acquired)
    (alone : LastDropAlone state (.dropCheck id)) : Backed
      { state.setPhase id lock .dropping with
        registry := state.dropRegistry lock } := by
  have staysLive : ∀ {other otherLock}, Live state other otherLock → other ≠ id → Live
      { state.setPhase id lock .dropping with
        registry := state.dropRegistry lock }
      other otherLock := by
    rintro other otherLock ⟨otherBound, alive⟩ otherNe
    refine ⟨?_, alive⟩
    rw [State.setPhase, lookup_insert_ite]
    simpa [otherNe] using otherBound
  intro _ _ registered
  obtain ⟨other, otherLock, live, sameKey, sameMutex⟩ := backed (lookup_dropRegistry registered)
  by_cases same : other = id
  · subst other
    obtain rfl := some.inj (bound.symm.trans live.1)
    obtain ⟨company, companyLock, companyLive, companyNe, companyKey⟩ | last := alone lock bound
    · refine ⟨company, companyLock, staysLive companyLive companyNe, companyKey.trans sameKey, ?_⟩
      rw [← sameMutex]
      exact consistent.sharedMutex companyLive ⟨bound, by simp [acquired]⟩ companyKey
    · have single : state.strongCount lock.mutex = 1 :=
        strongCount_eq_one bound fun otherBound otherMutex =>
          last otherBound (consistent.mutexKey otherBound bound otherMutex)
      have current : state.registry.lookup lock.key = some lock.mutex :=
        consistent.liveRegistered ⟨bound, by simp [acquired]⟩
      simp [State.dropRegistry, current, single, sameKey] at registered
  · exact ⟨other, otherLock, staysLive live same, sameKey, sameMutex⟩

theorem dropRelease (backed : Backed state)
    (bound : state.locks.lookup id = some lock) (dropping : lock.phase = .dropping) :
    Backed { state with locks := state.locks.erase id } := by
  intro _ _ registered
  obtain ⟨other, otherLock, live, sameKey, sameMutex⟩ := backed registered
  have otherNe : other ≠ id := by
    rintro rfl
    obtain rfl := some.inj (bound.symm.trans live.1)
    exact live.2 dropping
  refine ⟨other, otherLock, ⟨?_, live.2⟩, sameKey, sameMutex⟩
  rw [lookup_erase_ite]
  simpa [otherNe] using live.1

theorem step {state next : State Key} {action : Action Key} (consistent : Consistent state)
    (backed : Backed state) (alone : LastDropAlone state action)
    (taken : DestinationLock.step state action = some next) : Backed next := by
  obtain ⟨id, key, -, unused, rfl⟩ | ⟨id, _, bound, taken⟩ := step_cases taken
  · exact backed.acquire unused key
  · obtain ⟨-, -, -, rfl⟩ | ⟨-, -, rfl⟩ | ⟨rfl, acquired, rfl⟩ | ⟨-, dropping, rfl⟩ := taken
    · exact backed.setPhase bound (by simp)
    · exact backed.setPhase bound (by simp)
    · exact dropCheck consistent backed bound acquired alone
    · exact backed.dropRelease bound dropping

theorem reclaimed (backed : Backed state) : Reclaimed state := by
  intro key unheld
  cases registered : state.registry.lookup key with
  | none => rfl
  | some =>
    obtain ⟨_, _, live, sameKey, -⟩ := backed registered
    exact (unheld live.1 sameKey).elim

end Backed

/-- Live locks of a key share one mutex, one task per key commits, and a key without locks
has no entry unless two drops cross. -/
theorem destination_locks_of_run {actions : List (Action Key)} {final : State Key}
    (ran : run step initial actions = some final) :
    SharedMutex final ∧ ExclusiveCommit final ∧
      (ActionRun.Guarded step LastDropAlone initial actions → Reclaimed final) := by
  have consistent := consistent_of_run ran
  refine ⟨consistent.sharedMutex, consistent.exclusiveCommit, ?_⟩
  intro guarded
  have invariant : Consistent final ∧ Backed final :=
    run_preserves_of_guarded (fun state => Consistent state ∧ Backed state)
      (fun invariant alone taken =>
        ⟨invariant.1.step taken, Backed.step invariant.1 invariant.2 alone taken⟩)
      ⟨Consistent.initially, Backed.initially⟩ guarded ran
  exact Backed.reclaimed invariant.2

/-- Two tasks that drop one after the other leave no entry behind. -/
theorem destination_locks_of_sequential_drops : ∃ final : State String,
    run step initial [.acquire 0 "out", .acquire 1 "out", .dropCheck 0, .dropRelease 0,
      .dropCheck 1, .dropRelease 1] = some final ∧ Reclaimed final := by
  have ran : run step (initial : State String)
      [.acquire 0 "out", .acquire 1 "out", .dropCheck 0, .dropRelease 0,
        .dropCheck 1, .dropRelease 1] =
        some { registry := ∅, locks := ∅, nextMutex := 1 } := by
    rfl
  refine ⟨_, ran, (destination_locks_of_run ran).2.2 ?_⟩
  refine ⟨trivial, fun first firstTaken => ⟨trivial,
    fun second secondTaken => ⟨?_, fun third thirdTaken => ⟨trivial,
      fun fourth fourthTaken => ⟨?_, fun fifth _ => ⟨trivial, fun _ _ => trivial⟩⟩⟩⟩⟩⟩
  · cases firstTaken
    cases secondTaken
    intro lock bound
    cases bound
    exact .inl ⟨1, ⟨"out", 0, .acquired⟩, ⟨rfl, by decide⟩, by decide, rfl⟩
  · cases firstTaken
    cases secondTaken
    cases thirdTaken
    cases fourthTaken
    intro lock bound
    refine .inr fun {other otherLock} otherBound _ => ?_
    have inserted : ((∅ : KeyedMap LockId (Lock String)).insert 1
        ⟨"out", 0, .acquired⟩).lookup other = some otherLock :=
      otherBound
    obtain ⟨same, -⟩ | ⟨-, absent⟩ := lookup_locks_insert inserted
    · exact same
    · simp at absent

/-- Two drops of one key whose checks both run before either release leave its entry behind. -/
theorem overlapping_drops_leave_entry : ¬ ∀ (actions : List (Action String)) (final : State String),
    run step initial actions = some final →
    SharedMutex final ∧ ExclusiveCommit final ∧ Reclaimed final := by
  intro claimed
  have ran : run step (initial : State String)
      [.acquire 0 "out", .acquire 1 "out", .dropCheck 0, .dropCheck 1,
        .dropRelease 0, .dropRelease 1] =
        some {
          registry := AList.singleton "out" 0
          locks := ∅
          nextMutex := 1 } := by
    rfl
  have emptied := (claimed _ _ ran).2.2 "out" (by simp)
  exact absurd emptied (by decide)

end Arclain.DestinationLock
