import Arclain.OperationWorkersReturn

namespace Arclain

/-!
# Who publishes the outcome of an operation

The last published state of an operation is what its subscribers know, whether or not the
registry still keeps the record.
-/

open List Option

namespace OperationRegistry

def lastState (registry : OperationRegistry) (id : OperationId) : Option OperationState :=
  (registry.eventsOf id).getLast?.map OperationEvent.state

variable {registry : OperationRegistry} {state : OperationState} {id : OperationId}

theorem InOrder.lastState_eq (inOrder : InOrder registry)
    (recorded : registry.operationState id = some state) : registry.lastState id = some state := by
  simp only [operationState, map_eq_some_iff] at recorded
  obtain ⟨record, bound, rfl⟩ := recorded
  obtain ⟨_, isLast, -, sameState⟩ := (inOrder id).recordIsLast record bound
  simp [lastState, isLast, sameState]

theorem concluded_iff_lastState :
    registry.concluded id = true ↔ ∃ state, registry.lastState id = some state ∧
      state.isTerminal = true := by
  unfold concluded lastState
  cases (registry.eventsOf id).getLast? <;> simp

theorem InOrder.lastState_of_published (inOrder : InOrder registry)
    {event : OperationEvent} (published : event ∈ registry.eventsOf id)
    (terminal : event.state.isTerminal = true) : registry.lastState id = some event.state := by
  have nonempty : registry.eventsOf id ≠ [] := ne_nil_of_mem published
  have split := dropLast_append_getLast nonempty
  rw [← split, mem_append, mem_singleton] at published
  rcases published with earlier | last
  · rw [(inOrder id).onlyLastTerminal event earlier] at terminal
    cases terminal
  · rw [lastState, List.getLast?_eq_some_getLast nonempty, ← last]
    rfl

theorem lastState_transition (registry : OperationRegistry) (target : OperationId)
    (state : OperationState) (id : OperationId) :
    ((registry.transition target state).2.lastState id = registry.lastState id ∧
      (registry.transition target state).2.operationState id = registry.operationState id) ∨
    (id = target ∧ (∃ earlier, registry.operationState id = some earlier ∧
      earlier.isTerminal = false) ∧ (registry.transition target state).2.lastState id = some state ∧
      (registry.transition target state).2.operationState id = some state) := by
  obtain same | ⟨record, bound, running, shape⟩ := transition_cases registry target state
  · rw [same]
    exact .inl ⟨rfl, rfl⟩
  · rw [shape]
    by_cases own : id = target
    · subst target
      refine .inr ⟨rfl, ⟨record.state, ?_, running⟩, ?_, ?_⟩
      · simp [operationState, bound]
      · simp [lastState, eventsOf_publish]
      · simp [operationState, OperationRegistry.publish, advance]
    · refine .inl ⟨?_, ?_⟩
      · rw [lastState, eventsOf_publish]
        simp only [Ne.symm own, ↓reduceIte]
        rfl
      · simp [operationState, OperationRegistry.publish, own]

def Call.publishes : Call → Option (OperationId × OperationState)
  | .insert id => some (id, .accepted)
  | .transition id state => some (id, state)
  | .cancelTransition id => some (id, .cancelled)
  | _ => none

variable {shared next : Shared} {call : Call}

theorem lastState_callStep (valid : Valid shared) (taken : callStep shared call = some next)
    (id : OperationId) : next.registry.lastState id = shared.registry.lastState id ∨
      ∃ state, call.publishes = some (id, state) ∧ next.registry.lastState id = some state := by
  have inOrder := (valid.step taken).inOrder
  cases call with
  | mint kind =>
    cases taken
    exact .inl rfl
  | insert target =>
    obtain ⟨kind, _, rfl⟩ := callStep_insert taken
    by_cases own : id = target
    · subst target
      right
      refine ⟨.accepted, rfl, ?_⟩
      apply inOrder.lastState_eq
      simp [operationState, insertAccepted, publish]
    · left
      unfold lastState
      rw [show shared.registry.insertAccepted target kind =
        _ from rfl, OperationRegistry.insertAccepted, eventsOf_publish]
      simp only [Ne.symm own, ↓reduceIte]
      rfl
  | transition target state =>
    cases taken
    rcases lastState_transition shared.registry target state id with
      ⟨same, -⟩ | ⟨rfl, -, advanced, -⟩
    · exact .inl same
    · exact .inr ⟨state, rfl, advanced⟩
  | cancelRead target =>
    left
    cases bound : shared.registry.records.lookup target with
    | none =>
      simp only [callStep, cancelRead, bound, some.injEq] at taken
      subst next
      rfl
    | some record =>
      cases finished : record.state.isTerminal <;>
        simp only [callStep, cancelRead, bound, finished, some.injEq] at taken <;>
        subst next <;>
        rfl
  | cancelTransition target =>
    obtain ⟨-, ⟨⟩⟩ := ite_none_right_eq_some.mp taken
    rcases lastState_transition shared.registry target .cancelled id with
      ⟨same, -⟩ | ⟨rfl, -, advanced, -⟩
    · exact .inl same
    · exact .inr ⟨.cancelled, rfl, advanced⟩
  | resolveChallenge target =>
    cases taken
    left
    unfold lastState eventsOf
    unfold resolveChallenge
    split
    · rfl
    · split <;> rfl
  | evict =>
    cases taken
    left
    simp [lastState, eventsOf]

variable {before after : OperationRegistry}

theorem Moves.lastState_of_terminal (moves : Moves before after id) (inOrder : InOrder before)
    (last : before.lastState id = some state) (terminal : state.isTerminal = true) :
    after.lastState id = some state := by
  cases moves with
  | unchanged events recorded | evicted _ _ events =>
    rw [lastState, events]
    exact last
  | begun fresh recorded => simp [lastState, fresh] at last
  | advanced running unfinished events recorded =>
    rw [inOrder.lastState_eq running] at last
    cases last
    rw [unfinished] at terminal
    cases terminal

theorem Moves.operationState_of_terminal (moves : Moves before after id) (inOrder : InOrder before)
    (recorded : before.operationState id = some state) (terminal : state.isTerminal = true)
    (kept : after.operationState id ≠ none) : after.operationState id = some state := by
  cases moves with
  | unchanged events same =>
    rw [same]
    exact recorded
  | begun fresh same => simp [operationState, inOrder.lookup_eq_none fresh] at recorded
  | advanced running unfinished events same =>
    rw [recorded] at running
    cases running
    rw [unfinished] at terminal
    cases terminal
  | evicted _ _ events forgotten => exact absurd forgotten kept

theorem recorded_callStep (taken : callStep shared call = some next) (notEvict : call ≠ .evict)
    (recorded : shared.registry.records.lookup id ≠ none) :
    next.registry.records.lookup id ≠ none := by
  cases call with
  | mint kind =>
    cases taken
    exact recorded
  | insert target =>
    obtain ⟨kind, _, rfl⟩ := callStep_insert taken
    exact (Keeps.insertAccepted target kind).recorded recorded
  | transition target state =>
    cases taken
    exact (Keeps.transition target state).recorded recorded
  | cancelRead target =>
    cases bound : shared.registry.records.lookup target with
    | none =>
      simp only [callStep, cancelRead, bound, some.injEq] at taken
      subst next
      exact recorded
    | some record =>
      cases finished : record.state.isTerminal <;>
        simp only [callStep, cancelRead, bound, finished, some.injEq] at taken <;>
        subst next <;>
        exact recorded
  | cancelTransition target =>
    obtain ⟨-, ⟨⟩⟩ := ite_none_right_eq_some.mp taken
    exact (Keeps.transition target .cancelled).recorded recorded
  | resolveChallenge target challenge =>
    cases taken
    exact (Keeps.resolveChallenge target challenge).recorded recorded
  | evict => exact absurd rfl notEvict

theorem lastState_of_other (valid : Valid shared) (taken : callStep shared call = some next)
    (begun : shared.registry.eventsOf id ≠ []) (other : ∀ state, call ≠ .transition id state) :
    next.registry.lastState id = shared.registry.lastState id ∨
      shared.registry.concluded id = false ∧ next.registry.lastState id = some .cancelled := by
  rcases lastState_callStep valid taken id with
    same | ⟨state, publishes, published⟩
  · exact .inl same
  · cases call with
    | insert target =>
      simp only [Call.publishes, some.injEq, Prod.mk.injEq] at publishes
      obtain ⟨rfl, -⟩ := publishes
      obtain ⟨_, minted, -⟩ := callStep_insert taken
      exact absurd (valid.fresh.uninserted minted) begun
    | transition target announced =>
      simp only [Call.publishes, some.injEq, Prod.mk.injEq] at publishes
      obtain ⟨rfl, -⟩ := publishes
      exact absurd rfl (other announced)
    | cancelTransition target =>
      simp only [Call.publishes, some.injEq, Prod.mk.injEq] at publishes
      obtain ⟨rfl, rfl⟩ := publishes
      cases finished : shared.registry.concluded target with
      | false => exact .inr ⟨rfl, published⟩
      | true =>
        obtain ⟨_, isLast, terminal⟩ := concluded_iff_lastState.mp finished
        have moves := Moves.of_step valid taken target
        rw [moves.lastState_of_terminal valid.inOrder isLast terminal]
        exact .inl isLast.symm
    | mint | cancelRead target | resolveChallenge target | evict => cases publishes

end OperationRegistry

namespace OperationWorkers

open OperationRegistry

/-- What a section of the worker of an operation changes besides itself: it may
publish one state of that operation. -/
structure Speaks (system next : System) (id : OperationId) (kind : WorkerKind) : Prop where
  announces : next.shared = system.shared ∨ ∃ state, next.shared = (system.publish id state).shared
  others : ∀ other, other ≠ id → next.workers.lookup other = system.workers.lookup other
  own : ∃ worker, next.workers.lookup id = some worker ∧ worker.kind = kind

namespace Speaks

variable {system next : System} {id : OperationId} {worker : Worker} {signal : Signal}

theorem of_insert {after : Worker} (announces : Announces system next id)
    (workers : next.workers = system.workers.insert id after)
    (sameKind : after.kind = worker.kind) : Speaks system next id worker.kind where
  announces := announces
  others := by
    intro _ different
    rw [workers, KeyedMap.lookup_insert_ite, if_neg different]
  own := by
    refine ⟨after, ?_, sameKind⟩
    rw [workers, KeyedMap.lookup_insert_ite, if_pos rfl]

theorem of_stepWorker (found : system.workers.lookup id = some worker)
    (taken : stepWorker system id worker signal = some next) :
    Speaks system next id worker.kind := by
  cases Section.of_stepWorker taken with
  | idle workers announces =>
    exact ⟨announces, fun other _ => by rw [workers], worker, by rw [workers, found], rfl⟩
  | moved workers sameKind announces => exact of_insert announces workers sameKind
  | finished workers sameKind _ published =>
    exact of_insert (.inr ⟨_, published⟩) workers sameKind
  | refused workers sameKind unchanged refused
  | cancelled workers sameKind unchanged heeds cancelled
  | misanswered workers sameKind unchanged waiting asks delivered other
  | closed workers sameKind unchanged =>
    exact of_insert (.inl unchanged) workers sameKind

end Speaks

/-- The workers, with the operations whose states another task publishes. -/
structure Owned where
  system : System
  foreign : List OperationId

namespace Owned

def initial : Owned where
  system := System.initial
  foreign := []

def registry (owned : Owned) : OperationRegistry := owned.system.registry

/-- One atomic section of one task. Only its worker publishes a state of an operation,
cancellations apart. -/
def step (owned : Owned) (action : Action) : Option Owned :=
  let taken := OperationWorkers.step owned.system action
  match action with
  | .call (.transition id _) =>
    if owned.system.workers.lookup id = none then
      taken.map fun system => ⟨system, id :: owned.foreign⟩
    else none
  | .spawn id _ _ =>
    if id ∈ owned.foreign then none
    else taken.map fun system => ⟨system, owned.foreign⟩
  | _ => taken.map fun system => ⟨system, owned.foreign⟩

variable {owned next : Owned} {action : Action}

theorem step_system (taken : owned.step action = some next) :
    OperationWorkers.step owned.system action = some next.system ∧
      owned.foreign ⊆ next.foreign := by
  simp only [step] at taken
  split at taken
  · split at taken
    · obtain ⟨system, stepped, rfl⟩ := map_eq_some_iff.mp taken
      exact ⟨stepped, subset_cons_self _ _⟩
    · cases taken
  · split at taken
    · cases taken
    · obtain ⟨system, stepped, rfl⟩ := map_eq_some_iff.mp taken
      exact ⟨stepped, List.Subset.refl _⟩
  · obtain ⟨system, stepped, rfl⟩ := map_eq_some_iff.mp taken
    exact ⟨stepped, List.Subset.refl _⟩

variable {id : OperationId}

theorem foreign_of_transition {state : OperationState}
    (taken : owned.step (.call (.transition id state)) = some next) :
    owned.system.workers.lookup id = none ∧ id ∈ next.foreign := by
  simp only [step, ite_none_right_eq_some, map_eq_some_iff] at taken
  obtain ⟨absent, _, -, rfl⟩ := taken
  exact ⟨absent, mem_cons_self⟩

theorem foreign_eq (taken : owned.step action = some next)
    (other : ∀ id state, action ≠ .call (.transition id state)) : next.foreign = owned.foreign := by
  simp only [step] at taken
  split at taken
  · exact absurd rfl (other _ _)
  · split at taken
    · cases taken
    · obtain ⟨system, -, rfl⟩ := map_eq_some_iff.mp taken
      rfl
  · obtain ⟨system, -, rfl⟩ := map_eq_some_iff.mp taken
    rfl

theorem spawn_cases {kind : WorkerKind} {archiveName : String}
    (taken : owned.step (.spawn id kind archiveName) = some next) :
    id ∉ owned.foreign ∧ owned.registry.eventsOf id ≠ [] ∧ owned.system.workers.lookup id = none ∧
      next.foreign = owned.foreign ∧ next.system = owned.system.update id
        { kind := kind
          archiveName := archiveName
          attempt := 1
          chunkIndex := 0
          totalChunks := 1
          phase := .spawned } := by
  have same := foreign_eq taken (by simp)
  obtain ⟨stepped, -⟩ := step_system taken
  simp only [OperationWorkers.step, ite_none_right_eq_some, some.injEq] at stepped
  obtain ⟨⟨published, absent⟩, shape⟩ := stepped
  refine ⟨?_, published, absent, same, shape.symm⟩
  intro mem
  simp [step, mem] at taken

theorem shared_cases (taken : owned.step action = some next) :
    next.system.shared = owned.system.shared ∨ ∃ call,
        callStep owned.system.shared call = some next.system.shared ∧
          (call = .evict → action = .call .evict) ∧ ∀ id state, call = .transition id state →
            (∃ signal, action = .signal id signal) ∨ id ∈ next.foreign := by
  obtain ⟨stepped, -⟩ := step_system taken
  cases action with
  | call call =>
    obtain ⟨_, called, same⟩ := map_eq_some_iff.mp stepped
    rw [← same]
    refine .inr ⟨call, called, fun isEvict => by rw [isEvict], ?_⟩
    intro id state _
    subst call
    exact .inr (foreign_of_transition taken).2
  | spawn id =>
    rw [(spawn_cases taken).2.2.2.2]
    exact .inl rfl
  | signal id signal =>
    cases found : owned.system.workers.lookup id with
    | none => simp [OperationWorkers.step, found] at stepped
    | some =>
      simp only [OperationWorkers.step, found] at stepped
      rcases (Speaks.of_stepWorker found stepped).announces with
        same | ⟨state, published⟩
      · exact .inl same
      · refine .inr ⟨.transition id state, ?_, by simp, ?_⟩
        · rw [published]
          rfl
        · intro _ _ same
          simp only [Call.transition.injEq] at same
          obtain ⟨rfl, -⟩ := same
          exact .inl ⟨signal, rfl⟩
  | respond id response =>
    simp only [OperationWorkers.step] at stepped
    split at stepped
    · obtain same := some.inj stepped
      rw [same]
      exact .inl rfl
    next registry resolved =>
      refine .inr ⟨.resolveChallenge id response.id, ?_, by simp, by simp⟩
      have resolves : (owned.system.shared.registry.resolveChallenge id response.id).2 = registry :=
        congrArg Prod.snd resolved
      rw [callStep, resolves, ← some.inj stepped]
  | deliver id response =>
    obtain ⟨-, delivered⟩ := ite_none_right_eq_some.mp stepped
    split at delivered <;> rw [← some.inj delivered] <;> exact .inl rfl

theorem lookup_of_other (taken : owned.step action = some next)
    (notSignal : ∀ signal, action ≠ .signal id signal)
    (notSpawn : ∀ kind archiveName, action ≠ .spawn id kind archiveName) :
    next.system.workers.lookup id = owned.system.workers.lookup id := by
  obtain ⟨stepped, -⟩ := step_system taken
  cases action with
  | call call =>
    obtain ⟨_, _, same⟩ := map_eq_some_iff.mp stepped
    rw [← same]
  | spawn target kind archiveName =>
    rw [(spawn_cases taken).2.2.2.2]
    simp only [System.update]
    rw [KeyedMap.lookup_insert_ite, if_neg]
    intro same
    subst target
    exact notSpawn kind archiveName rfl
  | signal target signal =>
    cases found : owned.system.workers.lookup target with
    | none => simp [OperationWorkers.step, found] at stepped
    | some =>
      simp only [OperationWorkers.step, found] at stepped
      apply (Speaks.of_stepWorker found stepped).others
      intro same
      subst target
      exact notSignal signal rfl
  | respond target response =>
    simp only [OperationWorkers.step] at stepped
    split at stepped <;> rw [← some.inj stepped]
  | deliver target response =>
    obtain ⟨-, delivered⟩ := ite_none_right_eq_some.mp stepped
    split at delivered <;> rw [← some.inj delivered]

end Owned

/-- The registry is tracked, and workers and operations of nobody are told apart. -/
structure Orderly (owned : Owned) : Prop where
  tracked : Tracked owned.system.shared
  begun : ∀ {id worker}, owned.system.workers.lookup id = some worker →
    owned.registry.eventsOf id ≠ []
  domestic : ∀ {id worker}, owned.system.workers.lookup id = some worker → id ∉ owned.foreign
  idle : ∀ {id state}, owned.system.workers.lookup id = none → id ∉ owned.foreign →
    owned.registry.lastState id = some state → state = .accepted ∨ state = .cancelled

namespace Orderly

variable {owned next : Owned} {action : Action} {id : OperationId}

theorem initially : Orderly Owned.initial where
  tracked := Tracked.initially
  begun := by
    intro id worker found
    simp [Owned.initial, System.initial] at found
  domestic := by
    intro id worker found
    simp [Owned.initial, System.initial] at found
  idle := by
    intro id _ _ domestic last
    simp [Owned.initial, Owned.registry, System.initial, System.registry,
      Shared.initial, lastState, eventsOf, OperationRegistry.new] at last

theorem reports (taken : owned.step action = some next) :
    Reports owned.system.shared next.system.shared := by
  rcases Owned.shared_cases taken with same | ⟨call, called, -⟩
  · exact .inl same
  · exact .inr ⟨call, called⟩

theorem moves (orderly : Orderly owned) (taken : owned.step action = some next) (id : OperationId) :
    Moves owned.registry next.registry id := by
  rcases Owned.shared_cases taken with same | ⟨call, called, -⟩
  · have unchanged : next.registry = owned.registry := congrArg Shared.registry same
    rw [unchanged]
    exact .unchanged rfl rfl
  · exact Moves.of_step orderly.tracked.valid called id

theorem lastState_cases (orderly : Orderly owned) (taken : owned.step action = some next)
    (begun : owned.registry.eventsOf id ≠ []) (notSignal : ∀ signal, action ≠ .signal id signal)
    (domestic : id ∉ next.foreign) :
    next.registry.lastState id = owned.registry.lastState id ∨ owned.registry.concluded id = false ∧
        next.registry.lastState id = some .cancelled := by
  rcases Owned.shared_cases taken with same | ⟨call, called, -, origin⟩
  · have unchanged : next.registry = owned.registry := congrArg Shared.registry same
    rw [unchanged]
    exact .inl rfl
  · apply lastState_of_other orderly.tracked.valid called begun
    intro state isTransition
    rcases origin id state isTransition with ⟨signal, own⟩ | foreign
    · exact notSignal signal own
    · exact domestic foreign

variable {state : OperationState}

theorem lastState_final (orderly : Orderly owned) (taken : owned.step action = some next)
    (last : owned.registry.lastState id = some state)
    (terminal : state.isTerminal = true) : next.registry.lastState id = some state :=
  (orderly.moves taken id).lastState_of_terminal orderly.tracked.valid.inOrder last terminal

theorem operationState_kept (orderly : Orderly owned) (taken : owned.step action = some next)
    (recorded : owned.registry.operationState id = some state) (terminal : state.isTerminal = true)
    (kept : action = .call .evict → owned.registry.youngerTerminals id < maxTerminalHistory) :
    next.registry.operationState id = some state := by
  have bound : owned.registry.records.lookup id ≠ none := by
    intro absent
    simp [operationState, absent] at recorded
  apply (orderly.moves taken id).operationState_of_terminal
    orderly.tracked.valid.inOrder recorded terminal
  have still : next.registry.records.lookup id ≠ none := by
    rcases Owned.shared_cases taken with same | ⟨call, called, evicts, -⟩
    · have unchanged : next.registry = owned.registry := congrArg Shared.registry same
      rw [unchanged]
      exact bound
    · by_cases isEvict : call = .evict
      · have few := kept (evicts isEvict)
        subst call
        have shape : next.registry = owned.registry.evictExcessHistory :=
          congrArg Shared.registry (some.inj called).symm
        rw [shape, lookup_evictExcessHistory_of_few_younger few]
        exact bound
      · exact recorded_callStep called isEvict bound
  simpa [operationState] using still

variable {worker : Worker}

theorem worker_cases (taken : owned.step action = some next)
    (found : next.system.workers.lookup id = some worker) :
    (∃ earlier, owned.system.workers.lookup id = some earlier ∧ earlier.kind = worker.kind) ∨
      ∃ kind archiveName, action = .spawn id kind archiveName := by
  by_cases signalled : ∃ signal, action = .signal id signal
  · obtain ⟨signal, rfl⟩ := signalled
    obtain ⟨stepped, -⟩ := Owned.step_system taken
    cases before : owned.system.workers.lookup id with
    | none => simp [OperationWorkers.step, before] at stepped
    | some earlier =>
      simp only [OperationWorkers.step, before] at stepped
      obtain ⟨_, bound, sameKind⟩ := (Speaks.of_stepWorker before stepped).own
      rw [found] at bound
      cases bound
      exact .inl ⟨earlier, rfl, sameKind.symm⟩
  · by_cases spawned : ∃ kind archiveName, action = .spawn id kind archiveName
    · exact .inr spawned
    · have same := Owned.lookup_of_other taken (not_exists.mp signalled) (by simpa using spawned)
      rw [found] at same
      exact .inl ⟨worker, same.symm, rfl⟩

theorem worker_stays (taken : owned.step action = some next)
    (found : owned.system.workers.lookup id = some worker) :
    ∃ after, next.system.workers.lookup id = some after ∧ after.kind = worker.kind := by
  by_cases signalled : ∃ signal, action = .signal id signal
  · obtain ⟨signal, rfl⟩ := signalled
    obtain ⟨stepped, -⟩ := Owned.step_system taken
    simp only [OperationWorkers.step, found] at stepped
    exact (Speaks.of_stepWorker found stepped).own
  · have notSpawn : ∀ kind archiveName, action ≠ .spawn id kind archiveName := by
      intro kind archiveName _
      subst action
      rw [(Owned.spawn_cases taken).2.2.1] at found
      cases found
    have same := Owned.lookup_of_other taken (not_exists.mp signalled) notSpawn
    exact ⟨worker, same.trans found, rfl⟩

theorem domestic_step (orderly : Orderly owned) (taken : owned.step action = some next)
    (found : owned.system.workers.lookup id = some worker) : id ∉ next.foreign := by
  by_cases announces : ∃ target state, action = .call (.transition target state)
  · obtain ⟨target, state, rfl⟩ := announces
    have absent := (Owned.foreign_of_transition taken).1
    simp only [Owned.step, absent, ↓reduceIte, map_eq_some_iff] at taken
    obtain ⟨_, -, rfl⟩ := taken
    simp only [mem_cons, not_or]
    refine ⟨?_, orderly.domestic found⟩
    intro _
    subst target
    rw [found] at absent
    cases absent
  · rw [Owned.foreign_eq taken (by simpa using announces)]
    exact orderly.domestic found

theorem step (orderly : Orderly owned) (taken : owned.step action = some next) : Orderly next where
  tracked := orderly.tracked.reports (reports taken)
  begun := by
    intro id worker found
    apply (reports taken).eventsOf_ne_nil orderly.tracked.valid
    rcases worker_cases taken found with
      ⟨earlier, before, -⟩ | ⟨kind, archiveName, rfl⟩
    · exact orderly.begun before
    · exact (Owned.spawn_cases taken).2.1
  domestic := by
    intro id worker found
    rcases worker_cases taken found with
      ⟨earlier, before, -⟩ | ⟨kind, archiveName, rfl⟩
    · exact orderly.domestic_step taken before
    · obtain ⟨domestic, -, -, same, -⟩ := Owned.spawn_cases taken
      rw [same]
      exact domestic
  idle := by
    intro id _ absent domestic last
    have before : owned.system.workers.lookup id = none := by
      cases found : owned.system.workers.lookup id with
      | none => rfl
      | some worker =>
        obtain ⟨_, bound, -⟩ := worker_stays taken found
        rw [absent] at bound
        cases bound
    have wasDomestic : id ∉ owned.foreign :=
      fun mem => domestic ((Owned.step_system taken).2 mem)
    by_cases fresh : owned.registry.eventsOf id = []
    · -- The operation begins in this section or has still not begun.
      have inOrder : InOrder next.registry :=
        (orderly.tracked.reports (reports taken)).valid.inOrder
      cases orderly.moves taken id with
      | unchanged events recorded => simp [lastState, events, fresh] at last
      | begun fresh recorded =>
        rw [inOrder.lastState_eq recorded] at last
        exact .inl (some.inj last).symm
      | advanced running _ events recorded =>
        have absentRecord := orderly.tracked.valid.inOrder.lookup_eq_none fresh
        simp only [operationState, map_eq_some_iff] at running
        obtain ⟨_, bound, -⟩ := running
        rw [show owned.registry.records.lookup id = none from absentRecord] at bound
        cases bound
      | evicted _ _ events => simp [lastState, events, fresh] at last
    · have notSignal : ∀ signal, action ≠ .signal id signal := by
        intro signal _
        subst action
        obtain ⟨stepped, -⟩ := Owned.step_system taken
        simp [OperationWorkers.step, before] at stepped
      rcases orderly.lastState_cases taken fresh notSignal domestic with
        same | ⟨-, cancelled⟩
      · rw [same] at last
        exact orderly.idle before wasDomestic last
      · rw [cancelled] at last
        exact .inr (some.inj last).symm

end Orderly

end OperationWorkers

end Arclain
