import Arclain.MaterializationWorkers

namespace Arclain.MaterializationWorkers

/-!
# What a worker that has returned leaves behind

A worker that does not publish its lease drops its reservation.  What remains is
the way past its last look at the cancellation flag: there the operation has to be
running until the lease is published.
-/

open KeyedMap List Option ActionRun OperationRegistry Materialization Text
open AList MaterializationStore

/-- The reservation was dropped: neither a lease nor a directory remains. -/
structure Dropped (storage : Materialization.System) (lease : LeaseId) : Prop where
  minted : lease < storage.store.nextId
  unleased : storage.store.leases.lookup lease = none
  unreserved : storage.reservations.lookup lease = none
  offDisk : storage.store.dirName lease ∉ storage.disk

namespace Dropped

variable {storage next : Materialization.System} {lease : LeaseId}

theorem removeDirAll (dropped : Dropped storage lease) (dir : Str) (removed : Bool) :
    Dropped (storage.removeDirAll dir removed) lease := by
  unfold Materialization.System.removeDirAll
  cases removed with
  | true =>
    refine { dropped with offDisk := ?_ }
    intro mem
    exact dropped.offDisk (mem_of_mem_filter mem)
  | false => exact { dropped with }

theorem takeOut {call : CallId} {taken : List Str × MaterializationStore}
    (dropped : Dropped storage lease) (takesOut : TakesOut storage.store taken)
    (took : storage.takeOut call taken = some next) : Dropped next lease := by
  obtain ⟨_, ⟨⟩⟩ := ite_none_right_eq_some.mp took
  refine ⟨?_, ?_, dropped.unreserved, ?_⟩
  · exact takesOut.nextId ▸ dropped.minted
  · cases found : taken.2.leases.lookup lease with
    | none => rfl
    | some =>
      have earlier := takesOut.kept found
      rw [dropped.unleased] at earlier
      cases earlier
  · have sameDir : taken.2.dirName lease = storage.store.dirName lease := by
      rw [dirName, takesOut.sessionTag, dirName]
    change taken.2.dirName lease ∉ storage.disk
    rw [sameDir]
    exact dropped.offDisk

theorem step {action : Materialization.Action} (dropped : Dropped storage lease)
    (taken : storage.step action = some next) : Dropped next lease := by
  cases action with
  | reserve created =>
    have older : lease ≠ storage.store.nextId := Nat.ne_of_lt dropped.minted
    cases created with
    | true =>
      cases taken
      refine ⟨dropped.minted.trans (Nat.lt_succ_self _), dropped.unleased, ?_, ?_⟩
      · rw [lookup_insert_ne older]
        exact dropped.unreserved
      · change leaseDirName _ lease ∉ leaseDirName _ _ :: _
        rw [mem_cons, not_or]
        exact ⟨fun same => older (leaseDirName_injective same), dropped.offDisk⟩
    | false =>
      cases taken
      exact { dropped with
        minted := dropped.minted.trans (Nat.lt_succ_self _) }
  | validate id _ _ nowUnixMs =>
    cases found : storage.reservations.lookup id with
    | none => simp [Materialization.System.step, found] at taken
    | some =>
      have other : lease ≠ id := by
        rintro rfl
        rw [dropped.unreserved] at found
        cases found
      obtain ⟨after, rfl⟩ : ∃ after, next =
          { storage with
            reservations := storage.reservations.insert id after } := by
        simp only [Materialization.System.step, found] at taken
        split at taken
        · split at taken
          · cases taken
            exact ⟨_, rfl⟩
          · cases taken
            exact ⟨_, rfl⟩
        · cases taken
          exact ⟨_, rfl⟩
        · cases taken
      exact { dropped with
        unreserved := (lookup_insert_ne other).trans dropped.unreserved }
  | insert id =>
    simp only [Materialization.System.step] at taken
    split at taken
    next found =>
      cases taken
      have other : lease ≠ id := by
        rintro rfl
        rw [dropped.unreserved] at found
        cases found
      refine ⟨dropped.minted, ?_, ?_, dropped.offDisk⟩
      · exact (lookup_insert_ne other).trans dropped.unleased
      · exact (lookup_erase_ne other).trans dropped.unreserved
    · cases taken
  | drop id removed =>
    simp only [Materialization.System.step] at taken
    split at taken
    · cases taken
    · cases taken
      refine Dropped.removeDirAll ?_ _ _
      refine { dropped with unreserved := ?_ }
      change (storage.reservations.erase id).lookup lease = none
      rw [lookup_erase_ite, dropped.unreserved, ite_self]
    · cases taken
  | renew id nowUnixMs =>
    cases taken
    simp only [renew]
    split
    · exact dropped
    next found =>
      refine { dropped with unleased := ?_ }
      refine (lookup_insert_ne ?_).trans dropped.unleased
      rintro rfl
      rw [dropped.unleased] at found
      cases found
  | release call id => exact dropped.takeOut (.release storage.store id) taken
  | sweepExpired call nowUnixMs =>
    exact dropped.takeOut (.sweepExpired storage.store nowUnixMs) taken
  | clearAll call => exact dropped.takeOut (.clearAll storage.store) taken
  | removeNext call removed =>
    simp only [Materialization.System.step] at taken
    split at taken
    · cases taken
      refine Dropped.removeDirAll ?_ _ _
      exact { dropped with }
    · cases taken
  | finish call =>
    obtain ⟨_, ⟨⟩⟩ := ite_none_right_eq_some.mp taken
    exact { dropped with }

theorem of_drop (kept : Kept storage) (taken : storage.step (.drop lease true) = some next) :
    Dropped next lease := by
  simp only [Materialization.System.step] at taken
  split at taken
  · cases taken
  next found =>
    cases taken
    obtain ⟨_, minted⟩ := kept.reserved found
    refine ⟨minted, ?_, lookup_erase _ _, ?_⟩
    · cases leased : storage.store.leases.lookup lease with
      | none => exact leased
      | some =>
        have unreserved := (kept.leased leased).2.2.2
        rw [found] at unreserved
        cases unreserved
    · intro mem
      change storage.store.dirName lease ∈
        storage.disk.filter (· ≠ storage.store.dirName lease) at mem
      simp at mem
  · cases taken

end Dropped

/-- The worker has started and its last look at the cancellation flag is yet to
come. -/
def Phase.awaitsCheck : Phase → Bool
  | .resolving | .checking | .reserving | .announcing _ | .looping _ | .extracting _ => true
  | .judging _ _ | .raising _ | .awaiting _ | .verifying _ => true
  | _ => false

/-- The worker has looked at the flag for the last time and is about to publish its lease. -/
def Phase.isLate : Phase → Bool
  | .sizing _ | .committing _ _ | .inserting _ | .completing _ => true
  | _ => false

/-- A concluded operation whose worker has not published anything terminal was
cancelled. -/
def Flagged (registry : OperationRegistry) (id : OperationId) : Prop :=
  registry.concluded id = true → registry.cancelFlags id = true

structure PhaseSound (registry : OperationRegistry) (storage : Materialization.System)
    (id : OperationId) (phase : Phase) : Prop where
  spawned : phase = .spawned → Flagged registry id
  early : phase.awaitsCheck = true → registry.records.lookup id ≠ none ∧ Flagged registry id
  late : phase.isLate = true → registry.concluded id = false
  failing : ∀ lease error, phase = .failing lease error → Dropped storage lease
  returned : ∀ lease, phase = .returned (some lease) →
    registry.lastState id = some (.completed (.materialized lease)) ∨ Dropped storage lease

/-- What holds in every state that is reached. -/
structure Consistent (system : System) : Prop where
  tracked : Tracked system.shared
  kept : Kept system.storage
  cancelling : ∀ id ∈ system.shared.cancelling, system.registry.cancelFlags id = true
  unstarted : ∀ id, system.registry.eventsOf id ≠ [] →
    system.workers.lookup id = none → id ∉ system.foreign → Flagged system.registry id
  phases : ∀ id worker, system.workers.lookup id = some worker → system.registry.eventsOf id ≠ [] ∧
    PhaseSound system.registry system.storage id worker.phase

/-- An operation keeps going in a way that its worker does not notice. -/
structure Steady (before after : OperationRegistry) (id : OperationId) (phase : Phase) : Prop where
  flagged : Flagged before id → Flagged after id
  recorded : phase.awaitsCheck = true → before.records.lookup id ≠ none →
    after.records.lookup id ≠ none
  running : phase.isLate = true → before.concluded id = false → after.concluded id = false
  final : ∀ state, state.isTerminal = true → before.lastState id = some state →
    after.lastState id = some state

theorem PhaseSound.steady {before after : OperationRegistry} {storage next : Materialization.System}
    {id : OperationId} {phase : Phase} (sound : PhaseSound before storage id phase)
    (steady : Steady before after id phase)
    (stays : ∀ lease, Dropped storage lease → Dropped next lease) :
    PhaseSound after next id phase where
  spawned is := steady.flagged (sound.spawned is)
  early is := ⟨steady.recorded is (sound.early is).1, steady.flagged (sound.early is).2⟩
  late is := steady.running is (sound.late is)
  failing lease error is := stays lease (sound.failing lease error is)
  returned lease is := (sound.returned lease is).imp (steady.final _ rfl) (stays lease)

theorem Steady.refl (registry : OperationRegistry) (id : OperationId)
    (phase : Phase) : Steady registry registry id phase :=
  ⟨fun flagged => flagged, fun _ recorded => recorded, fun _ running => running,
    fun _ _ last => last⟩

theorem Steady.transition {registry : OperationRegistry} {id target : OperationId}
    (state : OperationState) (phase : Phase) (other : id ≠ target) :
    Steady registry (registry.transition target state).2 id phase := by
  have same : (registry.transition target state).2.lastState id = registry.lastState id := by
    rcases lastState_transition registry target state id with
      ⟨same, _⟩ | ⟨own, _⟩
    · exact same
    · exact absurd own other
  have flags : (registry.transition target state).2.cancelFlags = registry.cancelFlags :=
    (Keeps.transition target state).flags
  have sameConcluded : (registry.transition target state).2.concluded id =
      registry.concluded id := by
    rw [Bool.eq_iff_iff, concluded_iff_lastState, concluded_iff_lastState, same]
  refine ⟨?_, ?_, ?_, ?_⟩
  · intro flagged concluded
    rw [flags]
    exact flagged (sameConcluded ▸ concluded)
  · exact fun _ recorded => (Keeps.transition target state).recorded recorded
  · exact fun _ => sameConcluded.trans
  · exact fun _ _ => same.trans

/-- One section of a worker may publish a state of its operation and take one section of the
store, and it moves on. -/
structure Advances (system next : System) (id : OperationId) : Prop where
  foreign : next.foreign = system.foreign
  shared : next.shared = system.shared ∨ ∃ state, next.shared =
    { system.shared with
      registry := (system.registry.transition id state).2 }
  storage : next.storage = system.storage ∨ ∃ action, system.storage.step action = some next.storage
  worker : ∃ worker, next.workers = system.workers.insert id worker ∧
    PhaseSound next.registry next.storage id worker.phase

section

variable {system next : System} {id : OperationId} {worker : Worker} {phase : Phase}
  {lease : LeaseId}

theorem Consistent.advances (consistent : Consistent system)
    (found : system.workers.lookup id = some worker) (advances : Advances system next id) :
    Consistent next := by
  obtain ⟨foreign, shared, storage, _, workers, sound⟩ := advances
  have reports : Reports system.shared next.shared := by
    rcases shared with same | ⟨state, published⟩
    · exact .inl same
    · exact .inr ⟨.transition id state, by rw [published]; rfl⟩
  have stays (lease : LeaseId) (dropped : Dropped system.storage lease) :
      Dropped next.storage lease := by
    rcases storage with same | ⟨action, taken⟩
    · rw [same]
      exact dropped
    · exact dropped.step taken
  have others (other : OperationId) (phase : Phase) (distinct : other ≠ id) :
      Steady system.registry next.registry other phase ∧ (next.registry.eventsOf other ≠ [] →
        system.registry.eventsOf other ≠ []) := by
    rcases shared with same | ⟨state, published⟩
    · rw [System.registry, System.registry, same]
      exact ⟨.refl _ _ _, fun begun => begun⟩
    · have registry : next.registry = (system.registry.transition id state).2 := by
        rw [System.registry, published]
      rw [registry]
      refine ⟨.transition state _ distinct, fun begun fresh => begun ?_⟩
      exact consistent.tracked.valid.inOrder.eventsOf_transition_of_fresh fresh id state
  refine ⟨consistent.tracked.reports reports, ?_, ?_, ?_, ?_⟩
  · rcases storage with same | ⟨action, taken⟩
    · rw [same]
      exact consistent.kept
    · exact consistent.kept.step taken
  · rcases shared with same | ⟨state, published⟩
    · intro other mem
      rw [System.registry, same]
      rw [same] at mem
      exact consistent.cancelling other mem
    · intro other mem
      rw [published] at mem
      rw [System.registry, published]
      dsimp only
      rw [(Keeps.transition id state).flags]
      exact consistent.cancelling other mem
  · intro other begun absent ours
    rw [workers, lookup_insert_ite] at absent
    split at absent
    · cases absent
    next distinct =>
      obtain ⟨steady, before⟩ := others other .spawned distinct
      rw [foreign] at ours
      exact steady.flagged (consistent.unstarted other (before begun) absent ours)
  · intro other found' lookup
    rw [workers, lookup_insert_ite] at lookup
    split at lookup
    next own =>
      cases lookup
      subst own
      exact ⟨reports.eventsOf_ne_nil consistent.tracked.valid
        (consistent.phases other worker found).1, sound⟩
    next distinct =>
      obtain ⟨begun, earlier⟩ := consistent.phases other found' lookup
      exact ⟨reports.eventsOf_ne_nil consistent.tracked.valid begun,
        earlier.steady (others other _ distinct).1 stays⟩

theorem Advances.move (sound : PhaseSound system.registry system.storage id phase) :
    Advances system (system.move id worker phase) id :=
  ⟨rfl, .inl rfl, .inl rfl, _, rfl, sound⟩

variable {state : OperationState}

theorem Advances.publish (sound :
    PhaseSound (system.registry.transition id state).2 system.storage id phase) :
    Advances system (system.publish id worker state phase) id :=
  ⟨rfl, .inr ⟨state, rfl⟩, .inl rfl, _, rfl, sound⟩

theorem Advances.useStore {action : Materialization.Action} (sound :
    ∀ storage, system.storage.step action = some storage →
      PhaseSound system.registry storage id phase)
    (taken : system.useStore id worker action phase = some next) : Advances system next id := by
  obtain ⟨storage, used, rfl⟩ := map_eq_some_iff.mp taken
  exact ⟨rfl, .inl rfl, .inr ⟨action, used⟩, _, rfl, sound storage used⟩

variable {registry : OperationRegistry} {storage : Materialization.System}

theorem PhaseSound.of_nothing (notSpawned : phase ≠ .spawned) (notEarly : phase.awaitsCheck = false)
    (notLate : phase.isLate = false) (notFailing : ∀ lease error, phase ≠ .failing lease error)
    (notReturned : ∀ lease, phase ≠ .returned (some lease)) :
    PhaseSound registry storage id phase where
  spawned is := absurd is notSpawned
  early is := absurd is (by simp [notEarly])
  late is := absurd is (by simp [notLate])
  failing lease error is := absurd is (notFailing lease error)
  returned lease is := absurd is (notReturned lease)

theorem PhaseSound.of_early (early : phase.awaitsCheck = true)
    (known : registry.records.lookup id ≠ none ∧ Flagged registry id) :
    PhaseSound registry storage id phase := by
  cases phase <;> cases early <;>
    exact ⟨fun is => (nomatch is), fun _ => known, fun is => (nomatch is),
      fun _ _ is => (nomatch is), fun _ is => (nomatch is)⟩

theorem PhaseSound.of_late (late : phase.isLate = true) (running : registry.concluded id = false) :
    PhaseSound registry storage id phase := by
  cases phase <;> cases late <;>
    exact ⟨fun is => (nomatch is), fun is => (nomatch is), fun _ => running,
      fun _ _ is => (nomatch is), fun _ is => (nomatch is)⟩

theorem PhaseSound.of_dropped (dropped : Dropped storage lease)
    (isOver : phase = .returned (some lease) ∨ ∃ error, phase = .failing lease error) :
    PhaseSound registry storage id phase := by
  rcases isOver with rfl | ⟨error, rfl⟩
  · refine ⟨fun is => (nomatch is), fun is => (nomatch is),
      fun is => (nomatch is), fun _ _ is => (nomatch is), ?_⟩
    rintro _ ⟨⟩
    exact .inr dropped
  · refine ⟨fun is => (nomatch is), fun is => (nomatch is),
      fun is => (nomatch is), ?_, fun _ is => (nomatch is)⟩
    rintro _ _ ⟨⟩
    exact dropped

theorem Flagged.transition (flagged : Flagged registry id) (running : state.isTerminal = false) :
    Flagged (registry.transition id state).2 id := by
  intro concluded
  rw [(Keeps.transition id state).flags]
  apply flagged
  rw [concluded_iff_lastState] at concluded ⊢
  obtain ⟨last, isLast, terminal⟩ := concluded
  rcases lastState_transition registry id state id with
    ⟨same, _⟩ | ⟨_, _, published, _⟩
  · exact ⟨last, same ▸ isLast, terminal⟩
  · rw [published] at isLast
    cases isLast
    rw [running] at terminal
    cases terminal

theorem PhaseSound.publish_early {new : Phase}
    (sound : PhaseSound system.registry system.storage id phase) (early : phase.awaitsCheck = true)
    (stillEarly : new.awaitsCheck = true) (running : state.isTerminal = false) :
    PhaseSound (system.registry.transition id state).2 system.storage id new := by
  obtain ⟨recorded, flagged⟩ := sound.early early
  exact .of_early stillEarly
    ⟨(Keeps.transition id state).recorded recorded, flagged.transition running⟩

theorem Advances.checkpoint {cancelled running : Phase}
    (returns : PhaseSound system.registry system.storage id cancelled)
    (goesOn : system.registry.isCancelled id = false →
      PhaseSound system.registry system.storage id running) :
    Advances system (system.checkpoint id worker cancelled running) id := by
  unfold System.checkpoint
  cases flag : system.registry.isCancelled id with
  | true => exact .move returns
  | false => exact .move (goesOn flag)

theorem running_of_check (known : registry.records.lookup id ≠ none ∧ Flagged registry id)
    (check : registry.isCancelled id = false) : registry.concluded id = false := by
  obtain ⟨recorded, flagged⟩ := known
  cases bound : registry.records.lookup id with
  | none => exact absurd bound recorded
  | some =>
    rw [isCancelled, bound] at check
    cases finished : registry.concluded id with
    | false => rfl
    | true =>
      have raised := flagged finished
      rw [raised] at check
      cases check

theorem Consistent.lastState_transition (consistent : Consistent system)
    (found : system.workers.lookup id = some worker)
    (running : system.registry.concluded id = false) :
    (system.registry.transition id state).2.lastState id = some state := by
  have begun := (consistent.phases id worker found).1
  cases recorded : system.registry.operationState id with
  | none =>
    have finished := consistent.tracked.forgotten begun recorded
    rw [System.registry] at running
    rw [running] at finished
    cases finished
  | some last =>
    have unfinished : last.isTerminal = false := by
      rw [← consistent.tracked.valid.inOrder.concluded_eq recorded]
      exact running
    rw [operationState, map_eq_some_iff] at recorded
    obtain ⟨_, bound, rfl⟩ := recorded
    simp [transition, bound, unfinished, lastState, eventsOf_publish]

theorem Advances.fail {error : ApplicationError}
    (returns : phase = .returned none ∨ ∃ lease, phase = .returning lease) :
    Advances system (system.publish id worker (.failed error) phase) id := by
  refine .publish (.of_nothing ?_ ?_ ?_ ?_ ?_)
  all_goals rcases returns with rfl | ⟨lease, rfl⟩ <;> simp [Phase.awaitsCheck, Phase.isLate]

theorem PhaseSound.returned_none (registry : OperationRegistry) (storage : Materialization.System) :
    PhaseSound registry storage id (.returned none) :=
  .of_nothing (by simp) rfl rfl (by simp) (by simp)

theorem PhaseSound.returning (registry : OperationRegistry) (storage : Materialization.System) :
    PhaseSound registry storage id (.returning lease) :=
  .of_nothing (by simp) rfl rfl (by simp) (by simp)

variable {signal : Signal}

theorem runShared_advances (consistent : Consistent system)
    (found : system.workers.lookup id = some worker)
    (sound : PhaseSound system.registry system.storage id phase)
    (removes : ∀ done, signal = .removed done → done = true)
    (taken : runShared system id worker phase signal = some next) : Advances system next id := by
  unfold runShared at taken
  split at taken
  · -- `spawned`: the operation may be gone.
    cases taken
    unfold System.start
    cases bound : system.registry.records.lookup id with
    | none =>
      have gone : (system.registry.transition id .started).1 =
          .error (unknownOperationError id) := by
        simp [transition, bound]
      rw [gone]
      exact .move (.returned_none _ _)
    | some =>
      have started : (system.registry.transition id .started).1 = .ok () := by
        rw [transition, bound]
        dsimp only
        split
        · rfl
        · rfl
      rw [started]
      refine .publish (.of_early rfl ⟨?_, (sound.spawned rfl).transition rfl⟩)
      refine (Keeps.transition id .started).recorded ?_
      rw [bound]
      simp
  · cases taken
    exact .fail (.inl rfl)
  · cases taken
    exact .move (.of_early rfl (sound.early rfl))
  · cases taken
    exact .checkpoint (.returned_none _ _) fun _ => .of_early rfl (sound.early rfl)
  · obtain ⟨storage, used, rfl⟩ := map_eq_some_iff.mp taken
    exact ⟨rfl, .inr ⟨_, rfl⟩, .inr ⟨_, used⟩, _, rfl, .returned_none _ _⟩
  · cases taken
    exact .move (.of_early rfl (sound.early rfl))
  · cases taken
    exact .fail (.inr ⟨_, rfl⟩)
  · cases taken
    exact .checkpoint (.returning _ _)
      fun check => .of_late rfl (running_of_check (sound.early rfl) check)
  · cases taken
    exact .fail (.inr ⟨_, rfl⟩)
  · cases taken
    exact .move (.of_late rfl (sound.late rfl))
  · obtain ⟨storage, used, rfl⟩ := map_eq_some_iff.mp taken
    refine ⟨rfl, .inl rfl, .inr ⟨_, used⟩, _, rfl, ?_⟩
    dsimp only
    split
    · exact .of_nothing (by simp) rfl rfl (by simp) (by simp)
    · exact .of_late rfl (sound.late rfl)
  · exact .useStore (fun _ _ => .of_late rfl (sound.late rfl)) taken
  · -- `commit` has refused: its reservation is dropped before the failure.
    rename_i lease error done
    obtain rfl := removes done rfl
    exact .useStore (fun _ used =>
      .of_dropped (.of_drop consistent.kept used) (.inr ⟨error, rfl⟩)) taken
  next lease error =>
    cases taken
    exact .publish (.of_dropped (sound.failing lease error rfl) (.inl rfl))
  · -- `completing`: the operation runs, so its lease is published.
    rename_i lease
    cases taken
    have published : (system.registry.transition id
        (.completed (.materialized lease))).2.lastState id =
          some (.completed (.materialized lease)) :=
      consistent.lastState_transition found (sound.late rfl)
    refine .publish ⟨by simp, by simp [Phase.awaitsCheck], by simp [Phase.isLate], by simp, ?_⟩
    rintro _ ⟨⟩
    exact .inl published
  next lease done =>
    obtain rfl := removes done rfl
    exact .useStore (fun _ used => .of_dropped (.of_drop consistent.kept used) (.inl rfl)) taken
  · cases taken

theorem runMaterialize_advances {archiveName : String} (consistent : Consistent system)
    (found : system.workers.lookup id = some worker)
    (sound : PhaseSound system.registry system.storage id phase)
    (removes : ∀ done, signal = .removed done → done = true)
    (taken : runMaterialize system id worker archiveName phase signal = some next) :
    Advances system next id := by
  unfold runMaterialize at taken
  split at taken
  · exact .useStore (fun _ _ => .of_early rfl (sound.early rfl)) taken
  · cases taken
    exact .checkpoint (.returning _ _) fun _ => .of_early rfl (sound.early rfl)
  · split at taken
    · cases taken
      exact .move (.of_early rfl (sound.early rfl))
    · cases taken
      exact .fail (.inr ⟨_, rfl⟩)
  · cases taken
    unfold System.raiseChallenge
    dsimp only
    split
    · exact ⟨rfl, .inl rfl, .inl rfl, _, rfl, .returning _ _⟩
    · exact ⟨rfl, .inr ⟨_, rfl⟩, .inl rfl, _, rfl, sound.publish_early rfl rfl rfl⟩
  · split at taken
    · cases taken
      exact .move (.of_early rfl (sound.early rfl))
    · cases taken
      exact .move (.returning _ _)
  · cases taken
    exact .checkpoint (.returning _ _) fun _ => .of_early rfl (sound.early rfl)
  · exact runShared_advances consistent found sound removes taken

theorem runDragStage_advances {session : ArchiveSessionId} {files : Nat}
    (consistent : Consistent system) (found : system.workers.lookup id = some worker)
    (sound : PhaseSound system.registry system.storage id phase)
    (removes : ∀ done, signal = .removed done → done = true)
    (taken : runDragStage system id worker session files phase signal = some next) :
    Advances system next id := by
  unfold runDragStage at taken
  split at taken
  · exact .useStore (fun _ _ => .of_early rfl (sound.early rfl)) taken
  · cases taken
    exact .publish (sound.publish_early rfl rfl rfl)
  · cases taken
    exact .publish (sound.publish_early rfl rfl rfl)
  · cases taken
    exact .move (.of_early rfl (sound.early rfl))
  · split at taken
    · cases taken
      exact .move (.returning _ _)
    · cases taken
      exact .fail (.inr ⟨_, rfl⟩)
  · exact runShared_advances consistent found sound removes taken

end

/-- No worker is cancelled or evicted around its last look, and dropped directories can be
removed. -/
def orderly (system : System) : Action → Bool
  | .call (.cancelTransition id) =>
    !((system.workers.lookup id).any fun worker => worker.phase.isLate)
  | .call .evict =>
    system.workers.entries.all fun entry =>
      !entry.2.phase.awaitsCheck ||
        (system.registry.evictExcessHistory.records.lookup entry.1).isSome
  | .signal _ (.removed done) => done
  | _ => true

section

variable {system : System} {next : Shared} {call : Call} {id : OperationId} {worker : Worker}

theorem cancelFlags_mono {shared : Shared} (taken : callStep shared call = some next)
    (raised : shared.registry.cancelFlags id = true) : next.registry.cancelFlags id = true := by
  obtain ⟨-, same⟩ | ⟨target, _, -, flags, -⟩ | ⟨target, -, rfl⟩ :=
    Tracked.cancellation_cases taken
  · rw [same]
    exact raised
  · rw [flags]
    by_cases own : id = target
    · rw [own, Function.update_self]
    · rw [Function.update_of_ne own]
      exact raised
  · rw [(Keeps.transition target .cancelled).flags]
    exact raised

theorem Consistent.cancelling_call (consistent : Consistent system)
    (taken : callStep system.shared call = some next) (mem : id ∈ next.cancelling) :
    next.registry.cancelFlags id = true := by
  obtain ⟨same, -⟩ | ⟨target, _, -, flags, shape⟩ | ⟨target, -, rfl⟩ :=
    Tracked.cancellation_cases taken
  · rw [same] at mem
    exact cancelFlags_mono taken (consistent.cancelling id mem)
  · by_cases own : id = target
    · rw [flags, own, Function.update_self]
    · rw [shape] at mem
      have earlier : id ∈ system.shared.cancelling := by
        split at mem
        · exact mem
        · exact (mem_cons.mp mem).resolve_left own
      exact cancelFlags_mono taken (consistent.cancelling id earlier)
  · exact cancelFlags_mono taken (consistent.cancelling id (mem_of_mem_erase mem))

theorem Consistent.lastState_call (consistent : Consistent system)
    (begun : system.registry.eventsOf id ≠ []) (taken : callStep system.shared call = some next)
    (foreign : ∀ state, call ≠ .transition id state) :
    next.registry.lastState id = system.registry.lastState id ∨
      call = .cancelTransition id ∧ id ∈ system.shared.cancelling := by
  rcases lastState_callStep consistent.tracked.valid taken id with
    same | ⟨state, publishes, _⟩
  · exact .inl same
  · cases call with
    | insert target =>
      cases publishes
      obtain ⟨_, minted, -⟩ := callStep_insert taken
      exact absurd (consistent.tracked.valid.fresh.uninserted minted) begun
    | transition target =>
      cases publishes
      exact absurd rfl (foreign _)
    | cancelTransition target =>
      cases publishes
      obtain ⟨underWay, _⟩ := ite_none_right_eq_some.mp taken
      exact .inr ⟨rfl, underWay⟩
    | mint | cancelRead target | resolveChallenge target | evict => cases publishes

theorem concluded_eq_of_lastState {before after : OperationRegistry}
    (same : after.lastState id = before.lastState id) :
    after.concluded id = before.concluded id := by
  rw [Bool.eq_iff_iff, concluded_iff_lastState, concluded_iff_lastState, same]

section

variable (consistent : Consistent system)
include consistent

theorem Consistent.flagged_call
    (begun : system.registry.eventsOf id ≠ []) (taken : callStep system.shared call = some next)
    (foreign : ∀ state, call ≠ .transition id state) (flagged : Flagged system.registry id) :
    Flagged next.registry id := by
  intro concluded
  rcases consistent.lastState_call begun taken foreign with same | ⟨_, underWay⟩
  · rw [concluded_eq_of_lastState same] at concluded
    exact cancelFlags_mono taken (flagged concluded)
  · exact cancelFlags_mono taken (consistent.cancelling id underWay)

theorem Consistent.flagged_begin
    (fresh : system.registry.eventsOf id = []) (taken : callStep system.shared call = some next)
    (foreign : ∀ state, call ≠ .transition id state) : Flagged next.registry id := by
  intro concluded
  obtain ⟨last, isLast, terminal⟩ := concluded_iff_lastState.mp concluded
  rcases lastState_callStep consistent.tracked.valid taken id with
    same | ⟨state, publishes, published⟩
  · rw [isLast, lastState] at same
    change some last = Option.map _ (system.registry.eventsOf id).getLast? at same
    rw [fresh] at same
    cases same
  · rw [published] at isLast
    cases isLast
    cases call with
    | insert target =>
      cases publishes
      cases terminal
    | transition target =>
      cases publishes
      exact absurd rfl (foreign _)
    | cancelTransition target =>
      cases publishes
      obtain ⟨underWay, _⟩ := ite_none_right_eq_some.mp taken
      exact absurd fresh (consistent.tracked.cancelling underWay)
    | mint | cancelRead target | resolveChallenge target | evict => cases publishes

theorem Consistent.steady_call (found : system.workers.lookup id = some worker)
    (taken : callStep system.shared call = some next)
    (foreign : ∀ state, call ≠ .transition id state) (meets : orderly system (.call call) = true) :
    Steady system.registry next.registry id worker.phase := by
  have moves := Moves.of_step consistent.tracked.valid taken id
  have begun := (consistent.phases id worker found).1
  refine ⟨consistent.flagged_call begun taken foreign, ?_, ?_, ?_⟩
  · intro early recorded
    by_cases evicts : call = .evict
    · subst evicts
      cases taken
      have kept := all_eq_true.mp meets _ (lookup_eq_some_iff_mem.mp found)
      simp only [early, Bool.not_true, Bool.false_or] at kept
      exact isSome_iff_ne_none.mp kept
    · exact recorded_callStep taken evicts recorded
  · intro late running
    rcases consistent.lastState_call begun taken foreign with same | ⟨rfl, _⟩
    · rw [concluded_eq_of_lastState same]
      exact running
    · simp [orderly, found, late] at meets
  · intro state terminal last
    exact moves.lastState_of_terminal consistent.tracked.valid.inOrder last terminal

theorem Consistent.called {foreign : List OperationId}
    (taken : callStep system.shared call = some next)
    (others : ∀ id state, call = .transition id state →
      system.workers.lookup id = none ∧ id ∈ foreign)
    (grows : system.foreign ⊆ foreign) (meets : orderly system (.call call) = true) :
    Consistent { system with shared := next, foreign := foreign } := by
  refine ⟨consistent.tracked.step taken, consistent.kept,
    fun _ mem => consistent.cancelling_call taken mem, ?_, ?_⟩
  · intro id _ absent ours
    have notForeign (state : OperationState) : call ≠ .transition id state :=
      fun is => ours (others id state is).2
    by_cases fresh : system.registry.eventsOf id = []
    · exact consistent.flagged_begin fresh taken notForeign
    · exact consistent.flagged_call fresh taken notForeign
        (consistent.unstarted id fresh absent fun mem => ours (grows mem))
  · intro id worker found
    obtain ⟨begun, sound⟩ := consistent.phases id worker found
    have notOurs (state : OperationState) : call ≠ .transition id state := by
      intro is
      have absent := (others id state is).1
      rw [found] at absent
      cases absent
    refine ⟨?_, sound.steady
      (consistent.steady_call found taken notOurs meets) fun _ dropped => dropped⟩
    exact (Moves.of_step consistent.tracked.valid taken id).eventsOf_ne_nil begun

end

end

section

variable {system next : System}

theorem Consistent.step {action : Action} (consistent : Consistent system)
    (meets : orderly system action = true) (taken : step system action = some next) :
    Consistent next := by
  cases action with
  | call call =>
    simp only [MaterializationWorkers.step] at taken
    split at taken
    next id state =>
      split at taken
      next absent =>
        cases taken
        refine consistent.called rfl ?_ (subset_cons_self _ _) meets
        rintro _ _ ⟨⟩
        exact ⟨absent, mem_cons_self⟩
      · cases taken
    next notTransition =>
      obtain ⟨_, called, rfl⟩ := map_eq_some_iff.mp taken
      refine consistent.called called ?_ (List.Subset.refl _) meets
      intro id state is
      exact absurd is (notTransition id state)
  | spawn id =>
    obtain ⟨⟨begun, absent, ours⟩, ⟨⟩⟩ := ite_none_right_eq_some.mp taken
    refine { consistent with unstarted := ?_, phases := ?_ }
    · intro other otherBegun otherAbsent otherOurs
      rw [lookup_insert_ite] at otherAbsent
      split at otherAbsent
      · cases otherAbsent
      · exact consistent.unstarted other otherBegun otherAbsent otherOurs
    · intro other worker found
      rw [lookup_insert_ite] at found
      split at found
      next same =>
        cases found
        subst same
        refine ⟨begun, fun _ => consistent.unstarted other begun absent ours, ?_, ?_, ?_, ?_⟩
        · exact fun is => (nomatch is)
        · exact fun is => (nomatch is)
        · exact fun _ _ is => (nomatch is)
        · exact fun _ is => (nomatch is)
      · exact consistent.phases other worker found
  | signal id signal =>
    simp only [MaterializationWorkers.step] at taken
    split at taken
    next worker found =>
      have sound := (consistent.phases id worker found).2
      have removes (done : Bool) (is : signal = .removed done) :
          done = true := by
        subst is
        exact meets
      refine consistent.advances found ?_
      unfold stepWorker at taken
      split at taken
      · exact runMaterialize_advances consistent found sound removes taken
      · exact runDragStage_advances consistent found sound removes taken
    · cases taken
  | store action =>
    obtain ⟨_, used⟩ := ite_none_right_eq_some.mp taken
    obtain ⟨_, stepped, rfl⟩ := map_eq_some_iff.mp used
    refine { consistent with
      kept := consistent.kept.step stepped, phases := fun id worker found => ?_ }
    obtain ⟨begun, sound⟩ := consistent.phases id worker found
    exact ⟨begun, sound.steady (.refl _ _ _) fun _ dropped => dropped.step stepped⟩

end

theorem consistent_initial (sessionTag : Str) (ttlMillis : Nat) (disk : List Str) :
    Consistent (.initial sessionTag ttlMillis disk) := by
  refine ⟨Tracked.initially, Kept.initially sessionTag ttlMillis disk, ?_, ?_, ?_⟩
  · intro id mem
    cases mem
  · intro id begun
    exact absurd rfl begun
  · intro id _ found
    cases found

/-- Where steps meet the condition, a returned worker has published its lease, or neither
the lease nor its directory remains. -/
theorem returned_worker_leaves_nothing (sessionTag : Str) (ttlMillis : Nat) (disk : List Str)
    (actions : List Action) (final : System)
    (meets : Guarded step (fun system action => orderly system action = true)
      (.initial sessionTag ttlMillis disk) actions)
    (ran : run step (.initial sessionTag ttlMillis disk) actions = some final) (id : OperationId)
    (worker : Worker) (found : final.workers.lookup id = some worker) (lease : LeaseId)
    (isOver : worker.phase = .returned (some lease)) :
    final.registry.lastState id = some (.completed (.materialized lease)) ∨
      final.storage.store.leases.lookup lease = none ∧
        final.storage.store.dirName lease ∉ final.storage.disk := by
  have consistent : Consistent final :=
    run_preserves_of_guarded Consistent (fun consistent => consistent.step)
      (consistent_initial sessionTag ttlMillis disk) meets ran
  refine ((consistent.phases id worker found).2.returned lease isOver).imp_right ?_
  exact fun dropped => ⟨dropped.unleased, dropped.offDisk⟩

def extractInto (operation : OperationKind) (kind : WorkerKind) : List Action :=
  [.call (.mint operation), .call (.insert 1), .spawn 1 kind,
    .signal 1 .go, .signal 1 .proceed, .signal 1 .go, .signal 1 .reserved,
    .signal 1 .go, .signal 1 .extracted]

def cancelFirst : List Action := [.call (.cancelRead 1), .call (.cancelTransition 1)]

/-- A worker cancelled after its last look commits, and its lease is still there. -/
def lateCancelLeaves (operation : OperationKind) (kind : WorkerKind) : Bool :=
  (run step (.initial ['t'] 300000 [])
    (extractInto operation kind ++ [.signal 1 .go] ++ cancelFirst ++ [.signal 1 (.measured 10),
      .signal 1 (.canonicalized (some [leaseDirName ['t'] 1, ['f']]) 0
        { kind := .internal, summary := "" }),
      .signal 1 .go, .signal 1 .go])).elim false
    fun final =>
      (match final.workers.lookup 1 with
        | some worker => worker.phase == .returned (some 1)
        | none => false) &&
      final.registry.lastState 1 == some .cancelled &&
      (final.storage.store.leases.lookup 1).isSome &&
      final.storage.disk == [leaseDirName ['t'] 1]

/-- A cancellation after the last look at the flag leaves the lease behind, in both workers. -/
theorem late_cancel_leaves_lease : lateCancelLeaves .materialize (.materialize "a.zip") = true ∧
    lateCancelLeaves .dragStage (.dragStage 1 2) = true := by
  decide

/-- A worker that is cancelled before its last look at the flag leaves nothing. -/
theorem early_cancel_leaves_nothing :
    let actions :=
      extractInto .materialize (.materialize "a.zip") ++ cancelFirst ++
        [.signal 1 .go, .signal 1 (.removed true)]
    ∃ final worker, Guarded step (fun system action => orderly system action = true)
      (.initial ['t'] 300000 []) actions ∧
        run step (.initial ['t'] 300000 []) actions = some final ∧
        final.workers.lookup 1 = some worker ∧
        worker.phase = .returned (some 1) ∧
        (final.registry.lastState 1 = some (.completed (.materialized 1)) ∨
          final.storage.store.leases.lookup 1 = none ∧
            final.storage.store.dirName 1 ∉ final.storage.disk) := by
  intro actions
  have meets : Guarded step (fun system action => orderly system action = true)
      (.initial ['t'] 300000 []) actions := by
    decide
  have isOver : (run step (.initial ['t'] 300000 []) actions).elim false (fun final =>
    (final.workers.lookup 1).any fun worker => worker.phase == .returned (some 1)) = true := by
    decide
  cases ran : run step (.initial ['t'] 300000 []) actions with
  | none =>
    rw [ran] at isOver
    cases isOver
  | some final =>
    rw [ran] at isOver
    obtain ⟨worker, found, returned⟩ := (any_eq_true _ _).mp isOver
    have isReturned := beq_iff_eq.mp returned
    refine ⟨final, worker, meets, rfl, found, isReturned, ?_⟩
    exact returned_worker_leaves_nothing ['t'] 300000 [] actions final meets ran
      1 worker found 1 isReturned

end Arclain.MaterializationWorkers
