import Arclain.OperationRegistryHistory

namespace Arclain.OperationRegistry

/-!
# Concluded operations

An operation is concluded once the last event published for it is terminal.  Only concluded
operations lose their record.  `Moves` lists what one atomic section can do to one
operation.
-/

open List

/-- The last event published for the operation is terminal. -/
def concluded (registry : OperationRegistry) (id : OperationId) : Bool :=
  (registry.eventsOf id).getLast?.any fun event => event.state.isTerminal

/-- What one atomic section of some task does to one operation. -/
inductive Moves (before after : OperationRegistry) (id : OperationId) : Prop where
  | unchanged (events : after.eventsOf id = before.eventsOf id)
      (recorded : after.operationState id = before.operationState id)
  | begun (fresh : before.eventsOf id = []) (recorded : after.operationState id = some .accepted)
  | advanced {earlier : OperationState} {event : OperationEvent}
      (running : before.operationState id = some earlier)
      (unfinished : earlier.isTerminal = false)
      (events : after.eventsOf id = before.eventsOf id ++ [event])
      (recorded : after.operationState id = some event.state)
  | evicted {last : OperationState} (finished : before.operationState id = some last)
      (terminal : last.isTerminal = true)
      (events : after.eventsOf id = before.eventsOf id)
      (forgotten : after.operationState id = none)

variable {registry : OperationRegistry} {id : OperationId}

theorem InOrder.concluded_eq (inOrder : InOrder registry)
    {state : OperationState} (recorded : registry.operationState id = some state) :
    registry.concluded id = state.isTerminal := by
  simp only [operationState, Option.map_eq_some_iff] at recorded
  obtain ⟨record, bound, rfl⟩ := recorded
  obtain ⟨_, isLast, -, sameState⟩ := (inOrder id).recordIsLast record bound
  simp [concluded, isLast, sameState]

theorem concluded_of_fresh (fresh : registry.eventsOf id = []) : registry.concluded id = false := by
  simp [concluded, fresh]

theorem terminal_of_evicted {record : OperationRecord}
    (bound : registry.records.lookup id = some record)
    (gone : registry.evictExcessHistory.records.lookup id = none) :
    record.state.isTerminal = true := by
  simp only [evictExcessHistory] at gone
  split at gone
  · rw [bound] at gone
    cases gone
  · simp only [lookup_foldl_erase] at gone
    split at gone
    next removed =>
      have listed := mem_of_mem_take removed
      simp only [terminalIds, mem_insertionSort, mem_map, mem_filter] at listed
      obtain ⟨⟨_, _⟩, ⟨mem, terminal⟩, rfl⟩ := listed
      have same := KeyedMap.lookup_eq_some_iff_mem.mpr mem
      rw [bound] at same
      cases same
      exact terminal
    · rw [bound] at gone
      cases gone

/-- How many terminal operations are younger than this one. -/
def youngerTerminals (registry : OperationRegistry) (id : OperationId) : Nat :=
  registry.terminalIds.countP fun other => id < other

theorem pairwise_terminalIds (registry : OperationRegistry) :
    registry.terminalIds.Pairwise (· < ·) := by
  have sorted : registry.terminalIds.Pairwise (· ≤ ·) := pairwise_insertionSort _ _
  exact (sorted.and registry.terminalIds_nodup).imp fun both => lt_of_le_of_ne both.1 both.2

theorem length_drop_le_countP {ids : List OperationId} {taken : Nat}
    (sorted : ids.Pairwise (· < ·)) (mem : id ∈ ids.take taken) :
    ids.length - taken ≤ ids.countP fun other => id < other := by
  have above : ∀ other ∈ ids.drop taken, id < other := by
    intro other later
    rw [← take_append_drop taken ids] at sorted
    exact (pairwise_append.mp sorted).2.2 id mem other later
  have counted : (ids.drop taken).countP (fun other => id < other) = (ids.drop taken).length := by
    rw [countP_eq_length]
    intro other later
    simpa using above other later
  rw [← length_drop, ← counted]
  exact (drop_sublist taken ids).countP_le

theorem lookup_evictExcessHistory_of_few_younger
    (few : registry.youngerTerminals id < maxTerminalHistory) :
    registry.evictExcessHistory.records.lookup id = registry.records.lookup id := by
  unfold evictExcessHistory
  simp only
  split
  · rfl
  next excess =>
    rw [lookup_foldl_erase, if_neg]
    intro evicted
    have younger := length_drop_le_countP registry.pairwise_terminalIds evicted
    rw [length_terminalIds] at younger
    unfold youngerTerminals at few
    omega

namespace Moves

variable {before after : OperationRegistry} {id : OperationId}

theorem concluded (moves : Moves before after id) (inOrder : InOrder before)
    (earlier : before.concluded id = true) : after.concluded id = true := by
  cases moves with
  | unchanged events recorded | evicted _ _ events =>
    rw [OperationRegistry.concluded, events]
    exact earlier
  | begun fresh recorded =>
    rw [concluded_of_fresh fresh] at earlier
    cases earlier
  | advanced running unfinished events recorded =>
    rw [inOrder.concluded_eq running, unfinished] at earlier
    cases earlier

theorem eventsOf_ne_nil (moves : Moves before after id) (published : before.eventsOf id ≠ []) :
    after.eventsOf id ≠ [] := by
  cases moves with
  | unchanged events recorded => rwa [events]
  | begun fresh recorded => exact absurd fresh published
  | advanced _ _ events recorded => simp [events]
  | evicted _ _ events => rwa [events]

theorem forgotten_concluded (moves : Moves before after id) (inOrder : InOrder before)
    (earlier : before.eventsOf id ≠ [] → before.operationState id = none →
      before.concluded id = true)
    (published : after.eventsOf id ≠ []) (forgotten : after.operationState id = none) :
    after.concluded id = true := by
  cases moves with
  | unchanged events recorded =>
    rw [events] at published
    rw [recorded] at forgotten
    rw [OperationRegistry.concluded, events]
    exact earlier published forgotten
  | begun _ recorded | advanced _ _ events recorded =>
    rw [recorded] at forgotten
    cases forgotten
  | evicted finished terminal events forgotten =>
    rw [OperationRegistry.concluded, events]
    exact (inOrder.concluded_eq finished).trans terminal

theorem transition (registry : OperationRegistry) (target : OperationId) (state : OperationState)
    (id : OperationId) : Moves registry (registry.transition target state).2 id := by
  obtain same | ⟨record, bound, running, shape⟩ := transition_cases registry target state
  · rw [same]
    exact .unchanged rfl rfl
  · rw [shape]
    by_cases own : id = target
    · subst target
      refine @advanced _ _ _ record.state
        { operationId := id
          sequence := record.lastSequence + 1
          kind := record.kind
          state := state } ?_ running ?_ ?_
      · simp [operationState, bound]
      · rw [eventsOf_publish]
        simp only [↓reduceIte]
        rfl
      · simp [operationState, OperationRegistry.publish, advance]
    · apply unchanged
      · rw [eventsOf_publish]
        simp only [Ne.symm own, ↓reduceIte]
        rfl
      · simp [operationState, OperationRegistry.publish, own]

theorem insertAccepted (registry : OperationRegistry) (target : OperationId) (kind : OperationKind)
    (fresh : registry.eventsOf target = []) (id : OperationId) :
    Moves registry (registry.insertAccepted target kind) id := by
  by_cases own : id = target
  · subst target
    apply begun fresh
    simp [operationState, OperationRegistry.insertAccepted, OperationRegistry.publish]
  · apply unchanged
    · rw [OperationRegistry.insertAccepted, eventsOf_publish]
      simp only [Ne.symm own, ↓reduceIte]
      rfl
    · simp [operationState, OperationRegistry.insertAccepted, OperationRegistry.publish, own]

theorem cancelRead (registry : OperationRegistry) (target id : OperationId) :
    Moves registry (registry.cancelRead target).2 id := by
  cases bound : registry.records.lookup target with
  | none => apply unchanged <;> simp [OperationRegistry.cancelRead, bound]
  | some =>
    apply unchanged <;> simp [OperationRegistry.cancelRead, bound, eventsOf, operationState]

theorem resolveChallenge (registry : OperationRegistry) (target : OperationId)
    (challenge : ChallengeId) (id : OperationId) :
    Moves registry (registry.resolveChallenge target challenge).2 id := by
  cases bound : registry.records.lookup target with
  | none => apply unchanged <;> simp [OperationRegistry.resolveChallenge, bound]
  | some record =>
    by_cases pending : record.pendingChallenge = some challenge
    · have shape : (registry.resolveChallenge target challenge).2 =
          { registry with
            records := registry.records.insert target
              { record with pendingChallenge := none } } := by
        simp [OperationRegistry.resolveChallenge, bound, pending]
      rw [shape]
      apply unchanged
      · rfl
      · by_cases own : id = target
        · subst target
          simp [operationState, bound]
        · simp [operationState, own]
    · have shape : (registry.resolveChallenge target challenge).2 = registry := by
        simp [OperationRegistry.resolveChallenge, bound, pending]
      rw [shape]
      exact .unchanged rfl rfl

theorem evictExcessHistory (registry : OperationRegistry) (id : OperationId) :
    Moves registry registry.evictExcessHistory id := by
  have events : registry.evictExcessHistory.eventsOf id = registry.eventsOf id := by simp [eventsOf]
  obtain same | gone := lookup_evictExcessHistory registry id
  · exact .unchanged events (by simp [operationState, same])
  · cases bound : registry.records.lookup id with
    | none => exact .unchanged events (by simp [operationState, bound, gone])
    | some record =>
      refine @evicted _ _ _ record.state ?_ (terminal_of_evicted bound gone) events ?_
      · simp [operationState, bound]
      · simp [operationState, gone]

theorem of_step {shared next : Shared} {call : Call} (valid : Valid shared)
    (taken : callStep shared call = some next) (id : OperationId) :
    Moves shared.registry next.registry id := by
  cases call with
  | mint kind =>
    cases taken
    exact .unchanged rfl rfl
  | insert target =>
    obtain ⟨kind, minted, rfl⟩ := callStep_insert taken
    exact insertAccepted shared.registry target kind (valid.fresh.uninserted minted) id
  | transition target state =>
    cases taken
    exact transition shared.registry target state id
  | cancelRead target =>
    have moves := cancelRead shared.registry target id
    simp only [callStep] at taken
    split at taken
    next registry readSection =>
      cases taken
      rwa [readSection] at moves
    next registry _ readSection =>
      cases taken
      rwa [readSection] at moves
  | cancelTransition target =>
    obtain ⟨-, ⟨⟩⟩ := Option.ite_none_right_eq_some.mp taken
    exact transition shared.registry target .cancelled id
  | resolveChallenge target challenge =>
    cases taken
    exact resolveChallenge shared.registry target challenge id
  | evict =>
    cases taken
    exact evictExcessHistory shared.registry id

end Moves

/-- A task left the registry alone or took one section of it. -/
def Reports (before after : Shared) : Prop :=
  after = before ∨ ∃ call, callStep before call = some after

namespace Reports

variable {before after : Shared}

theorem valid (reports : Reports before after) (earlier : Valid before) : Valid after := by
  rcases reports with rfl | ⟨call, taken⟩
  · exact earlier
  · exact earlier.step taken

theorem eventsOf_ne_nil (reports : Reports before after) (earlier : Valid before) {id : OperationId}
    (published : before.registry.eventsOf id ≠ []) : after.registry.eventsOf id ≠ [] := by
  rcases reports with rfl | ⟨call, taken⟩
  · exact published
  · exact (Moves.of_step earlier taken id).eventsOf_ne_nil published

end Reports

/-- Only concluded operations have lost their record, and a raised flag belongs to one or to
a cancellation under way. -/
structure Tracked (shared : Shared) : Prop where
  valid : Valid shared
  forgotten : ∀ {id}, shared.registry.eventsOf id ≠ [] → shared.registry.operationState id = none →
    shared.registry.concluded id = true
  cancelling : ∀ {id}, id ∈ shared.cancelling → shared.registry.eventsOf id ≠ []
  flagged : ∀ {id}, shared.registry.cancelFlags id = true →
    id ∈ shared.cancelling ∨ shared.registry.concluded id = true

namespace Tracked

theorem initially : Tracked Shared.initial where
  valid := Valid.initially
  forgotten := by
    intro id published
    exact absurd rfl published
  cancelling := by
    intro id mem
    cases mem
  flagged := by
    intro id raised
    cases raised

variable {shared : Shared} {id : OperationId} {state : OperationState}

theorem concluded_transition (tracked : Tracked shared)
    (published : shared.registry.eventsOf id ≠ []) (terminal : state.isTerminal = true) :
    (shared.registry.transition id state).2.concluded id = true := by
  cases bound : shared.registry.records.lookup id with
  | none =>
    have same : (shared.registry.transition id state).2 = shared.registry := by
      simp [transition, bound]
    rw [same]
    exact tracked.forgotten published (by simp [operationState, bound])
  | some record =>
    cases finished : record.state.isTerminal with
    | true =>
      have same : (shared.registry.transition id state).2 = shared.registry := by
        simp [transition, bound, finished]
      have recorded : shared.registry.operationState id = some record.state := by
        simp [operationState, bound]
      rw [same, tracked.valid.inOrder.concluded_eq recorded]
      exact finished
    | false =>
      have inOrder := tracked.valid.inOrder.transition id state
      have recorded : (shared.registry.transition id state).2.operationState id = some state := by
        simp [transition, bound, finished, operationState, publish, advance]
      rw [inOrder.concluded_eq recorded]
      exact terminal

theorem concluded_of_refused (tracked : Tracked shared)
    (published : shared.registry.eventsOf id ≠ [])
    {error : ApplicationError} (refused : (shared.registry.transition id state).1 = .error error) :
    shared.registry.concluded id = true := by
  apply tracked.forgotten published
  cases bound : shared.registry.records.lookup id with
  | none => simp [operationState, bound]
  | some record =>
    cases finished : record.state.isTerminal <;> simp [transition, bound, finished] at refused

theorem of_isCancelled (tracked : Tracked shared)
    (cancelled : shared.registry.isCancelled id = true) :
    id ∈ shared.cancelling ∨ shared.registry.concluded id = true := by
  apply tracked.flagged
  cases bound : shared.registry.records.lookup id with
  | none => simp [isCancelled, bound] at cancelled
  | some => simpa [isCancelled, bound] using cancelled

variable {next : Shared} {call : Call}

theorem cancellation_cases (taken : callStep shared call = some next) :
    (next.cancelling = shared.cancelling ∧
      next.registry.cancelFlags = shared.registry.cancelFlags) ∨
      (∃ target state, shared.registry.operationState target = some state ∧
        next.registry.cancelFlags = Function.update shared.registry.cancelFlags target true ∧
        next.cancelling =
          if state.isTerminal then shared.cancelling
          else target :: shared.cancelling) ∨
      ∃ target, target ∈ shared.cancelling ∧ next =
        { shared with
          registry := (shared.registry.transition target .cancelled).2
          cancelling := shared.cancelling.erase target } := by
  cases call with
  | mint kind =>
    cases taken
    exact Or.inl ⟨rfl, rfl⟩
  | insert target =>
    obtain ⟨kind, _, rfl⟩ := callStep_insert taken
    exact Or.inl ⟨rfl, (Keeps.insertAccepted target kind).flags⟩
  | transition target state =>
    cases taken
    exact Or.inl ⟨rfl, (Keeps.transition target state).flags⟩
  | cancelRead target =>
    cases bound : shared.registry.records.lookup target with
    | none =>
      simp only [callStep, cancelRead, bound, Option.some.injEq] at taken
      subst next
      exact Or.inl ⟨rfl, rfl⟩
    | some record =>
      refine Or.inr (Or.inl ⟨target, record.state, ?_, ?_⟩)
      · simp [operationState, bound]
      · cases finished : record.state.isTerminal <;>
          simp only [callStep, cancelRead, bound, finished, Option.some.injEq] at taken <;>
          subst next <;>
          exact ⟨rfl, rfl⟩
  | cancelTransition target =>
    obtain ⟨underWay, ⟨⟩⟩ := Option.ite_none_right_eq_some.mp taken
    exact Or.inr (Or.inr ⟨target, underWay, rfl⟩)
  | resolveChallenge target challenge =>
    cases taken
    exact Or.inl ⟨rfl, (Keeps.resolveChallenge target challenge).flags⟩
  | evict =>
    cases taken
    exact Or.inl ⟨rfl, cancelFlags_evictExcessHistory _⟩

section

variable (tracked : Tracked shared) (taken : callStep shared call = some next)
include tracked taken

theorem cancelling_or_concluded (underWay : id ∈ shared.cancelling) :
    id ∈ next.cancelling ∨ next.registry.concluded id = true := by
  obtain ⟨same, -⟩ | ⟨target, _, -, -, shape⟩ | ⟨target, -, rfl⟩ := cancellation_cases taken
  · rw [same]
    exact Or.inl underWay
  · rw [shape]
    split
    · exact Or.inl underWay
    · exact Or.inl (mem_cons_of_mem target underWay)
  · by_cases own : id = target
    · subst target
      exact Or.inr (tracked.concluded_transition (tracked.cancelling underWay) rfl)
    · exact Or.inl ((mem_erase_of_ne own).mpr underWay)

theorem concluded_step
    (concluded : shared.registry.concluded id = true) : next.registry.concluded id = true :=
  (Moves.of_step tracked.valid taken id).concluded tracked.valid.inOrder concluded

theorem cancelling_step
    (underWay : id ∈ next.cancelling) : shared.registry.eventsOf id ≠ [] := by
  obtain ⟨same, -⟩ | ⟨target, _, recorded, -, shape⟩ | ⟨target, -, rfl⟩ :=
    cancellation_cases taken
  · rw [same] at underWay
    exact tracked.cancelling underWay
  · rw [shape] at underWay
    split at underWay
    · exact tracked.cancelling underWay
    · rcases mem_cons.mp underWay with rfl | earlier
      · intro fresh
        have absent := tracked.valid.inOrder.lookup_eq_none fresh
        simp [operationState, absent] at recorded
      · exact tracked.cancelling earlier
  · exact tracked.cancelling (mem_of_mem_erase underWay)

theorem flagged_step
    (raised : next.registry.cancelFlags id = true) :
    id ∈ next.cancelling ∨ next.registry.concluded id = true := by
  have kept : shared.registry.cancelFlags id = true →
      id ∈ next.cancelling ∨ next.registry.concluded id = true := by
    intro before
    rcases tracked.flagged before with underWay | concluded
    · exact tracked.cancelling_or_concluded taken underWay
    · exact Or.inr (tracked.concluded_step taken concluded)
  obtain ⟨-, same⟩ | ⟨target, state, recorded, flags, shape⟩ | ⟨target, -, rfl⟩ :=
    cancellation_cases taken
  · rw [same] at raised
    exact kept raised
  · by_cases own : id = target
    · subst target
      cases finished : state.isTerminal with
      | true =>
        apply Or.inr
        apply tracked.concluded_step taken
        rw [tracked.valid.inOrder.concluded_eq recorded]
        exact finished
      | false => simp [shape, finished]
    · rw [flags, Function.update_of_ne own] at raised
      exact kept raised
  · apply kept
    rwa [(Keeps.transition target .cancelled).flags] at raised

theorem step :
    Tracked next where
  valid := tracked.valid.step taken
  forgotten := by
    intro id published gone
    exact (Moves.of_step tracked.valid taken id).forgotten_concluded
      tracked.valid.inOrder tracked.forgotten published gone
  cancelling := by
    intro id underWay
    exact (Moves.of_step tracked.valid taken id).eventsOf_ne_nil
      (tracked.cancelling_step taken underWay)
  flagged := tracked.flagged_step taken

end

theorem reports (tracked : Tracked shared) (reports : Reports shared next) : Tracked next := by
  rcases reports with rfl | ⟨call, taken⟩
  · exact tracked
  · exact tracked.step taken

end Tracked

end Arclain.OperationRegistry
