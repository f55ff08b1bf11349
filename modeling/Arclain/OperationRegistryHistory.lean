import Arclain.OperationRegistry

namespace Arclain.OperationRegistry

/-!
# Published histories of interleaved registry calls

Any number of tasks call the registry.  The state has the ids that `begin` has minted and
not yet inserted, and the cancellations that have read a non-terminal record and not yet
transitioned it.
-/

open KeyedMap List Option

/-- The registry between two atomic sections of the tasks that use it. -/
structure Shared where
  registry : OperationRegistry
  minted : KeyedMap OperationId OperationKind
  cancelling : List OperationId

/-- The atomic sections of the registry's methods. -/
inductive Call where
  | mint (kind : OperationKind)
  | insert (id : OperationId)
  | transition (id : OperationId) (state : OperationState)
  | cancelRead (id : OperationId)
  | cancelTransition (id : OperationId)
  | resolveChallenge (id : OperationId) (challenge : ChallengeId)
  | evict
  deriving DecidableEq

def Shared.initial : Shared where
  registry := new
  minted := ∅
  cancelling := []

def callStep (shared : Shared) : Call → Option Shared
  | .mint kind =>
    let id := shared.registry.nextOperationId
    some { shared with
      registry := { shared.registry with nextOperationId := id + 1 }
      minted := shared.minted.insert id kind }
  | .insert id =>
    match shared.minted.lookup id with
    | some kind =>
      some { shared with
        registry := shared.registry.insertAccepted id kind
        minted := shared.minted.erase id }
    | none => none
  | .transition id state => some { shared with registry := (shared.registry.transition id state).2 }
  | .cancelRead id =>
    match shared.registry.cancelRead id with
    | (.ok false, registry) =>
      some { shared with
        registry := registry
        cancelling := id :: shared.cancelling }
    | (_, registry) => some { shared with registry := registry }
  | .cancelTransition id =>
    if id ∈ shared.cancelling then
      some { shared with
        registry := (shared.registry.transition id .cancelled).2
        cancelling := shared.cancelling.erase id }
    else none
  | .resolveChallenge id challenge =>
    some { shared with
      registry := (shared.registry.resolveChallenge id challenge).2 }
  | .evict => some { shared with registry := shared.registry.evictExcessHistory }

theorem callStep_insert {shared next : Shared} {id : OperationId}
    (taken : callStep shared (.insert id) = some next) :
    ∃ kind, shared.minted.lookup id = some kind ∧
      next = { shared with
        registry := shared.registry.insertAccepted id kind
        minted := shared.minted.erase id } := by
  cases minted : shared.minted.lookup id with
  | none => simp [callStep, minted] at taken
  | some kind =>
    simp only [callStep, minted, some.injEq] at taken
    exact ⟨kind, rfl, taken.symm⟩

/-- What the events and the record of one operation look like together. -/
structure Ordered (events : List OperationEvent) (record : Option OperationRecord) : Prop where
  sequences : events.map OperationEvent.sequence = List.range' 1 events.length
  onlyLastTerminal : ∀ event ∈ events.dropLast, event.state.isTerminal = false
  recordIsLast : ∀ found, record = some found → ∃ last,
    events.getLast? = some last ∧ found.lastSequence = last.sequence ∧ found.state = last.state

variable (registry : OperationRegistry)

theorem terminalIds_nodup : registry.terminalIds.Nodup := by
  have keys : (registry.records.entries.filter fun entry =>
    entry.2.state.isTerminal).NodupKeys :=
    registry.records.nodupKeys.sublist filter_sublist
  exact (perm_insertionSort _ _).nodup_iff.mpr keys

theorem length_terminalIds : registry.terminalIds.length =
    registry.records.count fun record => record.state.isTerminal := by
  rw [terminalIds, length_insertionSort, length_map, KeyedMap.count, countP_eq_length_filter]

namespace Ordered

theorem nil : Ordered [] none := by constructor <;> simp

variable {events : List OperationEvent} {record : Option OperationRecord}

theorem countP_terminal_le_one (ordered : Ordered events record) :
    events.countP (fun event => event.state.isTerminal) ≤ 1 := by
  rcases eq_nil_or_concat events with rfl | ⟨earlier, last, rfl⟩
  · simp
  · have earlierRunning : earlier.countP (fun event => event.state.isTerminal) = 0 := by
      rw [countP_eq_zero]
      intro event mem
      have running := ordered.onlyLastTerminal event (by simpa using mem)
      simp [running]
    rw [concat_eq_append, countP_append, earlierRunning, Nat.zero_add]
    exact countP_le_length

theorem evicted (ordered : Ordered events record) : Ordered events none where
  __ := ordered
  recordIsLast := by simp

theorem withPendingChallenge {record : OperationRecord} (ordered : Ordered events (some record))
    (pending : Option ChallengeId) :
    Ordered events (some { record with pendingChallenge := pending }) where
  __ := ordered
  recordIsLast := by
    intro _ same
    cases same
    exact ordered.recordIsLast record rfl

theorem accepted (id : OperationId) (kind : OperationKind) : Ordered
    [{ operationId := id, sequence := 1, kind := kind, state := .accepted }] (some {
      kind := kind
      lastSequence := 1
      state := .accepted
      pendingChallenge := none }) := by
  constructor <;> simp

theorem advance {record : OperationRecord} (ordered : Ordered events (some record))
    (running : record.state.isTerminal = false) (id : OperationId) (state : OperationState) :
    Ordered (events ++
      [{ operationId := id
         sequence := record.lastSequence + 1
         kind := record.kind
         state := state }])
      (some (OperationRegistry.advance record state)) := by
  obtain ⟨last, lastShape, sameSequence, sameState⟩ := ordered.recordIsLast record rfl
  obtain ⟨earlier, rfl⟩ := getLast?_eq_some_iff.mp lastShape
  have sequences := ordered.sequences
  have lastNumber : last.sequence = earlier.length + 1 := by
    have lastOfRange := congrArg getLast? sequences
    simpa [range'_concat, Nat.add_comm] using lastOfRange
  constructor
  · rw [map_append, sequences]
    simp [range'_concat, sameSequence, lastNumber]
    omega
  · intro event mem
    rw [dropLast_concat] at mem
    rcases mem_append.mp mem with inEarlier | isLast
    · exact ordered.onlyLastTerminal event (by simpa using inEarlier)
    · simp only [mem_singleton] at isLast
      subst event
      rw [← sameState]
      exact running
  · intro _ same
    cases same
    exact ⟨_, getLast?_concat .., rfl, rfl⟩

end Ordered

variable (registry : OperationRegistry)

theorem eventsOf_publish (event : OperationEvent)
    (id : OperationId) : (registry.publish event).eventsOf id =
      if event.operationId = id then registry.eventsOf id ++ [event]
      else
        registry.eventsOf id := by
  by_cases same : event.operationId = id
  · simp [publish, eventsOf, same]
  · simp [publish, eventsOf, same]

theorem lookup_foldl_erase (removed : List OperationId)
    (records : KeyedMap OperationId OperationRecord) (id : OperationId) :
    (removed.foldl (fun records id => records.erase id) records).lookup id =
      if id ∈ removed then none else records.lookup id := by
  induction removed generalizing records with
  | nil => simp
  | cons first rest ih =>
    rw [foldl_cons, ih, lookup_erase_ite]
    by_cases inRest : id ∈ rest
    · simp [inRest]
    · by_cases same : id = first
      · simp [same]
      · simp [inRest, same]

@[simp] theorem events_evictExcessHistory :
    registry.evictExcessHistory.events = registry.events := by
  unfold evictExcessHistory
  simp only
  split <;> rfl

@[simp] theorem nextOperationId_evictExcessHistory :
    registry.evictExcessHistory.nextOperationId = registry.nextOperationId := by
  unfold evictExcessHistory
  simp only
  split <;> rfl

@[simp] theorem cancelFlags_evictExcessHistory :
    registry.evictExcessHistory.cancelFlags = registry.cancelFlags := by
  unfold evictExcessHistory
  simp only
  split <;> rfl

theorem lookup_evictExcessHistory (id : OperationId) :
    registry.evictExcessHistory.records.lookup id = registry.records.lookup id ∨
      registry.evictExcessHistory.records.lookup id = none := by
  unfold evictExcessHistory
  simp only
  split
  · exact .inl rfl
  · simp only [lookup_foldl_erase]
    split
    · exact .inr rfl
    · exact .inl rfl

theorem transition_cases (id : OperationId)
    (state : OperationState) : (registry.transition id state).2 = registry ∨ ∃ record,
      registry.records.lookup id = some record ∧ record.state.isTerminal = false ∧
        (registry.transition id state).2 =
          ({ registry with
            records := registry.records.insert id (advance record state) }).publish
            { operationId := id
              sequence := record.lastSequence + 1
              kind := record.kind
              state := state } := by
  cases bound : registry.records.lookup id with
  | none => exact .inl (by simp [transition, bound])
  | some record =>
    cases terminal : record.state.isTerminal with
    | true => exact .inl (by simp [transition, bound, terminal])
    | false => exact .inr ⟨record, rfl, terminal, by simp [transition, bound, terminal]⟩

/-- What a section that cancels nothing and evicts nothing leaves alone: the
flags, and whether an operation is recorded. -/
structure Keeps (before after : OperationRegistry) : Prop where
  flags : after.cancelFlags = before.cancelFlags
  recorded : ∀ {id}, before.records.lookup id ≠ none → after.records.lookup id ≠ none

namespace Keeps

variable {registry : OperationRegistry}

theorem refl : Keeps registry registry := ⟨rfl, id⟩

theorem of_insert {after : OperationRegistry} {id : OperationId} {record : OperationRecord}
    (flags : after.cancelFlags = registry.cancelFlags)
    (records : after.records = registry.records.insert id record) : Keeps registry after := by
  refine ⟨flags, ?_⟩
  intro _ recorded
  rw [records, lookup_insert_ite]
  split
  · simp
  · exact recorded

variable (id : OperationId)

theorem transition (state : OperationState) : Keeps registry (registry.transition id state).2 := by
  obtain same | ⟨_, -, -, shape⟩ := transition_cases registry id state
  · rw [same]
    exact refl
  · rw [shape]
    exact of_insert rfl rfl

theorem insertAccepted (kind : OperationKind) : Keeps registry (registry.insertAccepted id kind) :=
  of_insert rfl rfl

theorem resolveChallenge (challenge : ChallengeId) :
    Keeps registry (registry.resolveChallenge id challenge).2 := by
  unfold OperationRegistry.resolveChallenge
  split
  · exact refl
  · split
    · exact of_insert rfl rfl
    · exact refl

end Keeps

def InOrder (registry : OperationRegistry) : Prop :=
  ∀ id, Ordered (registry.eventsOf id) (registry.records.lookup id)

namespace InOrder

variable {registry : OperationRegistry}

section

variable (inOrder : InOrder registry)
include inOrder

theorem transition (id : OperationId) (state : OperationState) :
    InOrder (registry.transition id state).2 := by
  obtain same | ⟨_, bound, running, shape⟩ := transition_cases registry id state
  · rw [same]
    exact inOrder
  · rw [shape]
    intro other
    rw [eventsOf_publish]
    simp only [publish, lookup_insert_ite]
    by_cases same : other = id
    · subst other
      simp only [↓reduceIte]
      have ordered := inOrder id
      rw [bound] at ordered
      exact ordered.advance running id state
    · have idNe : id ≠ other := Ne.symm same
      simp only [same, idNe, ↓reduceIte]
      exact inOrder other

theorem insertAccepted {id : OperationId}
    (fresh : registry.eventsOf id = []) (kind : OperationKind) :
    InOrder (registry.insertAccepted id kind) := by
  intro other
  rw [OperationRegistry.insertAccepted, eventsOf_publish]
  simp only [publish, lookup_insert_ite]
  by_cases same : other = id
  · subst other
    have noEvents :
        eventsOf { registry with
          records := registry.records.insert id
            { kind := kind
              lastSequence := 1
              state := .accepted
              pendingChallenge := none } } id = [] :=
      fresh
    simp only [↓reduceIte, noEvents, nil_append]
    exact Ordered.accepted id kind
  · have idNe : id ≠ other := Ne.symm same
    simp only [same, idNe, ↓reduceIte]
    exact inOrder other

theorem cancelRead (id : OperationId) :
    InOrder (registry.cancelRead id).2 := by
  unfold OperationRegistry.cancelRead
  split
  · exact inOrder
  · exact inOrder

theorem resolveChallenge (id : OperationId) (challenge : ChallengeId) :
    InOrder (registry.resolveChallenge id challenge).2 := by
  unfold OperationRegistry.resolveChallenge
  cases bound : registry.records.lookup id with
  | none => exact inOrder
  | some =>
    simp only
    split
    · intro other
      simp only [lookup_insert_ite]
      split
      next same =>
        subst other
        have ordered := inOrder id
        rw [bound] at ordered
        exact ordered.withPendingChallenge none
      · exact inOrder other
    · exact inOrder

theorem evictExcessHistory : InOrder registry.evictExcessHistory := by
  intro id
  have sameEvents : registry.evictExcessHistory.eventsOf id = registry.eventsOf id := by
    simp [eventsOf]
  rw [sameEvents]
  obtain same | gone := lookup_evictExcessHistory registry id
  · rw [same]
    exact inOrder id
  · rw [gone]
    exact (inOrder id).evicted

end

end InOrder

/-- Ids that are not minted, or minted and not inserted, have no events and no record. -/
structure Fresh (shared : Shared) : Prop where
  unminted : ∀ {id}, shared.registry.nextOperationId ≤ id →
    shared.registry.eventsOf id = [] ∧ shared.minted.lookup id = none
  uninserted : ∀ {id kind}, shared.minted.lookup id = some kind → shared.registry.eventsOf id = []

variable {id : OperationId} {registry : OperationRegistry}

theorem InOrder.lookup_eq_none (inOrder : InOrder registry)
    (fresh : registry.eventsOf id = []) : registry.records.lookup id = none := by
  cases bound : registry.records.lookup id with
  | none => rfl
  | some record =>
    obtain ⟨_, isLast, -⟩ := (inOrder id).recordIsLast record bound
    simp [fresh] at isLast

theorem InOrder.eventsOf_transition_of_fresh
    (inOrder : InOrder registry) (fresh : registry.eventsOf id = [])
    (target : OperationId) (state : OperationState) :
    (registry.transition target state).2.eventsOf id = [] := by
  obtain same | ⟨_, bound, -, shape⟩ := transition_cases registry target state
  · rw [same]
    exact fresh
  · have targetNe : target ≠ id := by
      rintro rfl
      simp [inOrder.lookup_eq_none fresh] at bound
    rw [shape, eventsOf_publish]
    simp only [targetNe, ↓reduceIte]
    exact fresh

theorem nextOperationId_transition (registry : OperationRegistry) (id : OperationId)
    (state : OperationState) :
    (registry.transition id state).2.nextOperationId = registry.nextOperationId := by
  obtain same | ⟨_, -, -, shape⟩ := transition_cases registry id state
  · rw [same]
  · rw [shape]
    rfl

/-- The invariant of every interleaving of registry calls. -/
structure Valid (shared : Shared) : Prop where
  inOrder : InOrder shared.registry
  fresh : Fresh shared

namespace Valid

theorem initially : Valid Shared.initial where
  inOrder := by
    intro id
    exact Ordered.nil
  fresh := by
    constructor
    · intro id _
      exact ⟨rfl, rfl⟩
    · intro id _ minted
      simp [Shared.initial] at minted

variable {shared : Shared}

theorem of_registry (valid : Valid shared) {registry : OperationRegistry}
    {cancelling : List OperationId} (inOrder : InOrder registry)
    (counter : registry.nextOperationId = shared.registry.nextOperationId)
    (quiet : ∀ {id}, shared.registry.eventsOf id = [] → registry.eventsOf id = []) :
    Valid { registry := registry
            minted := shared.minted
            cancelling := cancelling } where
  inOrder := inOrder
  fresh := by
    constructor
    · intro id unminted
      rw [counter] at unminted
      obtain ⟨noEvents, notMinted⟩ := valid.fresh.unminted unminted
      exact ⟨quiet noEvents, notMinted⟩
    · intro id _ minted
      exact quiet (valid.fresh.uninserted minted)

section

variable (valid : Valid shared)
include valid

theorem mint (kind : OperationKind) : Valid
    { shared with
      registry :=
        { shared.registry with
          nextOperationId := shared.registry.nextOperationId + 1 }
      minted :=
        shared.minted.insert shared.registry.nextOperationId kind } where
  __ := valid
  fresh := by
    constructor
    · intro id unminted
      obtain ⟨noEvents, notMinted⟩ := valid.fresh.unminted (Nat.le_of_succ_le unminted)
      have idNe : id ≠ shared.registry.nextOperationId := Nat.ne_of_gt unminted
      refine ⟨noEvents, ?_⟩
      rw [lookup_insert_ite]
      simpa [idNe] using notMinted
    · intro id _ minted
      rw [lookup_insert_ite] at minted
      split at minted
      next same => exact (valid.fresh.unminted (Nat.le_of_eq same.symm)).1
      · exact valid.fresh.uninserted minted

theorem insert {id : OperationId} {kind : OperationKind}
    (minted : shared.minted.lookup id = some kind) : Valid
      { shared with
        registry := shared.registry.insertAccepted id kind
        minted := shared.minted.erase id } := by
  have quiet : ∀ {other}, other ≠ id → (shared.registry.insertAccepted id kind).eventsOf other =
      shared.registry.eventsOf other := by
    intro other otherNe
    rw [OperationRegistry.insertAccepted, eventsOf_publish]
    simp only [Ne.symm otherNe, ↓reduceIte]
    rfl
  refine ⟨valid.inOrder.insertAccepted (valid.fresh.uninserted minted) kind, ?_, ?_⟩
  · intro other unminted
    obtain ⟨noEvents, notMinted⟩ := valid.fresh.unminted unminted
    have otherNe : other ≠ id := by
      rintro rfl
      simp [minted] at notMinted
    refine ⟨(quiet otherNe).trans noEvents, ?_⟩
    rw [lookup_erase_ite]
    simpa [otherNe] using notMinted
  · intro other _ otherMinted
    rw [lookup_erase_ite] at otherMinted
    split at otherMinted
    · simp at otherMinted
    next otherNe =>
      rw [quiet otherNe]
      exact valid.fresh.uninserted otherMinted

theorem transition (id : OperationId) (state : OperationState)
    (cancelling : List OperationId) : Valid
      { shared with
        registry := (shared.registry.transition id state).2
        cancelling := cancelling } :=
  valid.of_registry (valid.inOrder.transition id state)
    (nextOperationId_transition shared.registry id state)
    (fun fresh => valid.inOrder.eventsOf_transition_of_fresh fresh id state)

theorem cancelRead (id : OperationId) (cancelling : List OperationId) : Valid
    { shared with
      registry := (shared.registry.cancelRead id).2
      cancelling := cancelling } := by
  apply valid.of_registry (valid.inOrder.cancelRead id)
  · unfold OperationRegistry.cancelRead
    split <;> rfl
  · intro _ fresh
    unfold OperationRegistry.cancelRead
    split <;> exact fresh

theorem resolveChallenge (id : OperationId) (challenge : ChallengeId) : Valid
    { shared with
      registry := (shared.registry.resolveChallenge id challenge).2 } := by
  apply valid.of_registry (valid.inOrder.resolveChallenge id challenge)
  · unfold OperationRegistry.resolveChallenge
    split
    · rfl
    · split <;> rfl
  · intro _ fresh
    unfold OperationRegistry.resolveChallenge
    split
    · exact fresh
    · split <;> exact fresh

theorem evict : Valid
    { shared with
      registry := shared.registry.evictExcessHistory } := by
  apply valid.of_registry valid.inOrder.evictExcessHistory
  · simp
  · intro _ fresh
    simpa [eventsOf] using fresh

end

theorem step {shared next : Shared} {call : Call} (valid : Valid shared)
    (taken : callStep shared call = some next) : Valid next := by
  cases call with
  | mint kind =>
    cases taken
    exact valid.mint kind
  | insert id =>
    obtain ⟨kind, minted, rfl⟩ := callStep_insert taken
    exact valid.insert minted
  | transition id state =>
    cases taken
    exact valid.transition id state _
  | cancelRead id =>
    unfold callStep at taken
    simp only at taken
    split at taken
    next registry readSection =>
      cases taken
      have valid := valid.cancelRead id (id :: shared.cancelling)
      rwa [readSection] at valid
    next registry _ readSection =>
      cases taken
      have valid := valid.cancelRead id shared.cancelling
      rwa [readSection] at valid
  | cancelTransition id =>
    simp only [callStep, ite_none_right_eq_some, some.injEq] at taken
    obtain ⟨-, rfl⟩ := taken
    exact valid.transition id .cancelled _
  | resolveChallenge id challenge =>
    cases taken
    exact valid.resolveChallenge id challenge
  | evict =>
    cases taken
    exact valid.evict

end Valid

theorem valid_of_run {calls : List Call} {final : Shared}
    (ran : ActionRun.run callStep Shared.initial calls = some final) : Valid final :=
  ActionRun.run_preserves Valid (fun valid => valid.step) Valid.initially ran

/-- The events of one operation are numbered in order, the last alone may be terminal, and a
kept record agrees with it. -/
theorem published_in_order {calls : List Call} {final : Shared}
    (ran : ActionRun.run callStep Shared.initial calls = some final) (id : OperationId) :
    (final.registry.eventsOf id).map OperationEvent.sequence =
      List.range' 1 (final.registry.eventsOf id).length ∧
      (final.registry.eventsOf id).countP (fun event => event.state.isTerminal) ≤ 1 ∧
      (∀ event ∈ (final.registry.eventsOf id).dropLast, event.state.isTerminal = false) ∧
      ∀ record, final.registry.records.lookup id = some record → ∃ last,
        (final.registry.eventsOf id).getLast? = some last ∧ record.lastSequence = last.sequence ∧
          record.state = last.state := by
  have ordered := (valid_of_run ran).inOrder id
  exact ⟨ordered.sequences, ordered.countP_terminal_le_one,
    ordered.onlyLastTerminal, ordered.recordIsLast⟩

/-- A cancellation that overlaps the worker's own completion is the last event. -/
theorem published_in_order_cancel_race : ∃ final, ActionRun.run callStep Shared.initial
    [.mint .extract, .insert 1, .cancelRead 1, .transition 1 .started, .cancelTransition 1,
      .transition 1 (.completed .none)] = some final ∧
        (final.registry.eventsOf 1).map OperationEvent.sequence =
          List.range' 1 (final.registry.eventsOf 1).length := by
  exact ⟨_, rfl, (@published_in_order [.mint .extract, .insert 1, .cancelRead 1,
    .transition 1 .started, .cancelTransition 1, .transition 1 (.completed .none)] _ rfl 1).1⟩

end Arclain.OperationRegistry
