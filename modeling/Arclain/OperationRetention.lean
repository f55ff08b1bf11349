import Arclain.OperationRegistryHistory
import Arclain.RecentOrder

namespace Arclain

/-!
# How long a finished operation is remembered

A terminal record stays in the registry until an eviction takes it.  The registry owes its
callers the `maxTerminalHistory` operations that finished last, and evicts the terminal
records with the smallest ids.
-/

open List Option ActionRun OperationEvent RecentOrder

structure OperationSnapshot where
  operationId : OperationId
  kind : OperationKind
  lastSequence : Nat
  state : OperationState
  deriving DecidableEq

def OperationRecord.snapshot (record : OperationRecord) (id : OperationId) : OperationSnapshot where
  operationId := id
  kind := record.kind
  lastSequence := record.lastSequence
  state := record.state

def OperationEvent.snapshot (event : OperationEvent) : OperationSnapshot where
  operationId := event.operationId
  kind := event.kind
  lastSequence := event.sequence
  state := event.state

namespace OperationRegistry

section

variable (registry : OperationRegistry)

/-- `operation`: a snapshot of a record that is still kept. -/
def operation (id : OperationId) : Option OperationSnapshot :=
  (registry.records.lookup id).map fun record => record.snapshot id

def finishedEvents : List OperationEvent :=
  registry.events.filter fun event => event.state.isTerminal

def finished : List OperationId :=
  registry.finishedEvents.map operationId

/-- The terminal records the next eviction takes. -/
def forgottenIds : List OperationId :=
  registry.terminalIds.take (registry.terminalIds.length - maxTerminalHistory)

/-- The terminal records the next eviction leaves. -/
def keptIds : List OperationId :=
  registry.terminalIds.drop (registry.terminalIds.length - maxTerminalHistory)

/-- The operations that finished last are still there, as their last event reported them. -/
def Retained : Prop :=
  ∀ event ∈ registry.finishedEvents.rtake maxTerminalHistory,
    registry.operation event.operationId = some event.snapshot

end

/-- A section that changes no snapshot and publishes nothing. -/
structure Quiet (before after : OperationRegistry) : Prop where
  events : after.events = before.events
  operations : ∀ id, after.operation id = before.operation id

/-- A section that publishes one event of an unfinished operation. -/
structure Publishes (before after : OperationRegistry) (event : OperationEvent) : Prop where
  events : after.events = before.events ++ [event]
  operations : ∀ id, after.operation id =
    if id = event.operationId then some event.snapshot
    else before.operation id
  running : ∀ earlier, before.operation event.operationId = some earlier →
    earlier.state.isTerminal = false
  begun : event.state.isTerminal = true → before.operation event.operationId ≠ none

/-- Everything one section can do to the snapshots. -/
inductive Effect (before after : OperationRegistry) (call : Call) : Prop where
  | quiet (nothing : Quiet before after)
  | publishes (event : OperationEvent) (one : Publishes before after event)
  | evicts (called : call = .evict) (evicted : after = before.evictExcessHistory)

variable {registry after : OperationRegistry} {id : OperationId}

theorem operation_insert {record : OperationRecord}
    (records : after.records = registry.records.insert id record) (other : OperationId) :
    after.operation other =
      if other = id then some (record.snapshot id)
      else
        registry.operation other := by
  unfold operation
  rw [records, KeyedMap.lookup_insert_ite]
  by_cases same : other = id
  · subst other
    simp
  · simp [same]

theorem transition_effect (registry : OperationRegistry) (id : OperationId) (state : OperationState)
    (call : Call) : Effect registry (registry.transition id state).2 call := by
  obtain same | ⟨record, bound, running, shape⟩ := transition_cases registry id state
  · rw [same]
    exact .quiet ⟨rfl, fun _ => rfl⟩
  · have records : (registry.transition id state).2.records =
        registry.records.insert id (advance record state) := by
      rw [shape]
      rfl
    refine .publishes
      { operationId := id
        sequence := record.lastSequence + 1
        kind := record.kind
        state := state }
      { events := by rw [shape]; rfl
        operations := operation_insert records
        running := ?_
        begun := ?_ }
    · intro earlier found
      simp only [operation, bound, map_some, some.injEq] at found
      subst earlier
      exact running
    · intro _ unbound
      simp [operation, bound] at unbound

theorem resolveChallenge_quiet (registry : OperationRegistry) (id : OperationId)
    (challenge : ChallengeId) : Quiet registry (registry.resolveChallenge id challenge).2 := by
  cases bound : registry.records.lookup id with
  | none =>
    simp only [resolveChallenge, bound]
    exact ⟨rfl, fun _ => rfl⟩
  | some =>
    simp only [resolveChallenge, bound]
    split
    · refine ⟨rfl, fun other => ?_⟩
      refine (operation_insert rfl other).trans ?_
      split
      next same =>
        subst other
        simp [operation, bound, OperationRecord.snapshot]
      · rfl
    · exact ⟨rfl, fun _ => rfl⟩

theorem cancelRead_quiet (registry : OperationRegistry) (id : OperationId) :
    Quiet registry (registry.cancelRead id).2 := by
  unfold cancelRead
  split
  · exact ⟨rfl, fun _ => rfl⟩
  · exact ⟨rfl, fun _ => rfl⟩

theorem insertAccepted_publishes (fresh : registry.records.lookup id = none)
    (kind : OperationKind) : Publishes registry (registry.insertAccepted id kind)
      { operationId := id, sequence := 1, kind := kind, state := .accepted } where
  events := rfl
  operations := by
    have records : (registry.insertAccepted id kind).records = registry.records.insert id
        { kind := kind
          lastSequence := 1
          state := .accepted
          pendingChallenge := none } :=
      rfl
    exact operation_insert records
  running := by
    intro _ found
    simp [operation, fresh] at found
  begun := by
    intro terminal
    cases terminal

variable {call : Call}

/-- A registry call publishes, evicts, or does neither. -/
theorem callStep_effect {shared next : Shared} (valid : Valid shared)
    (taken : callStep shared call = some next) : Effect shared.registry next.registry call := by
  cases call with
  | mint kind =>
    cases taken
    exact .quiet ⟨rfl, fun _ => rfl⟩
  | insert id =>
    obtain ⟨kind, minted, rfl⟩ := callStep_insert taken
    have fresh := valid.inOrder.lookup_eq_none (valid.fresh.uninserted minted)
    exact .publishes _ (insertAccepted_publishes fresh kind)
  | transition id state =>
    cases taken
    exact transition_effect shared.registry id state _
  | cancelRead id =>
    have quiet := cancelRead_quiet shared.registry id
    unfold callStep at taken
    simp only at taken
    split at taken
    all_goals
      rename_i readSection
      cases taken
      rw [readSection] at quiet
      exact .quiet quiet
  | cancelTransition id =>
    obtain ⟨-, ⟨⟩⟩ := ite_none_right_eq_some.mp taken
    exact transition_effect shared.registry id .cancelled _
  | resolveChallenge id challenge =>
    cases taken
    exact .quiet (resolveChallenge_quiet shared.registry id challenge)
  | evict =>
    cases taken
    exact .evicts rfl rfl

theorem mem_finished_iff : id ∈ registry.finished ↔ ∃ event ∈ registry.events,
    event.state.isTerminal = true ∧ event.operationId = id := by
  simp [finished, finishedEvents, and_assoc]

theorem finished_nodup (inOrder : InOrder registry) : registry.finished.Nodup := by
  rw [nodup_iff_count_le_one]
  intro id
  have once := (inOrder id).countP_terminal_le_one
  rw [eventsOf, countP_filter] at once
  rw [finished, finishedEvents, count, countP_map, countP_filter]
  refine Nat.le_trans (Nat.le_of_eq ?_) once
  apply countP_congr
  intro _ _
  simp [and_comm]

theorem mem_terminalIds_iff : id ∈ registry.terminalIds ↔
    ∃ snapshot, registry.operation id = some snapshot ∧ snapshot.state.isTerminal = true := by
  rw [terminalIds, mem_insertionSort, List.mem_map]
  constructor
  · rintro ⟨⟨key, record⟩, listed, rfl⟩
    obtain ⟨mem, terminal⟩ := mem_filter.mp listed
    refine ⟨record.snapshot key, ?_, terminal⟩
    rw [operation, KeyedMap.lookup_eq_some_iff_mem.mpr mem]
    rfl
  · rintro ⟨snapshot, found, terminal⟩
    obtain ⟨record, bound, rfl⟩ := map_eq_some_iff.mp found
    exact ⟨⟨id, record⟩, mem_filter.mpr ⟨KeyedMap.lookup_eq_some_iff_mem.mp bound, terminal⟩, rfl⟩

theorem forgotten_append_kept (registry : OperationRegistry) :
    registry.forgottenIds ++ registry.keptIds = registry.terminalIds :=
  take_append_drop _ _

theorem terminalIds_subset_finished (inOrder : InOrder registry) :
    registry.terminalIds ⊆ registry.finished := by
  intro id mem
  obtain ⟨_, found, terminal⟩ := mem_terminalIds_iff.mp mem
  obtain ⟨record, bound, rfl⟩ := map_eq_some_iff.mp found
  obtain ⟨last, isLast, -, sameState⟩ := (inOrder id).recordIsLast record bound
  have ofId := mem_of_getLast? isLast
  rw [eventsOf, mem_filter] at ofId
  obtain ⟨published, named⟩ := ofId
  refine mem_finished_iff.mpr ⟨last, published, ?_, of_decide_eq_true named⟩
  rw [← sameState]
  exact terminal

theorem operation_evictExcessHistory (registry : OperationRegistry) (id : OperationId) :
    registry.evictExcessHistory.operation id =
      if id ∈ registry.forgottenIds then none
      else
        registry.operation id := by
  unfold evictExcessHistory
  simp only [← length_terminalIds]
  split
  next few =>
    have nothing : registry.forgottenIds = [] := by
      rw [forgottenIds, Nat.sub_eq_zero_of_le few, take_zero]
    simp [nothing]
  · simp only [operation, lookup_foldl_erase]
    change Option.map _ (if id ∈ registry.forgottenIds then _ else _) = _
    split <;> rfl

/-- Every record the next eviction takes belongs to an operation that finished
before those whose records it leaves. -/
def ForgetsEarliest (registry : OperationRegistry) : Prop :=
  ∀ gone ∈ registry.forgottenIds, ∀ stays ∈ registry.keptIds,
    registry.finished.idxOf gone < registry.finished.idxOf stays

theorem rtake_finished (registry : OperationRegistry) (bound : Nat) :
    registry.finished.rtake bound =
      (registry.finishedEvents.rtake bound).map operationId := by
  rw [finished, rtake, rtake, length_map, map_drop]

variable {event : OperationEvent}

theorem mem_of_mem_recent {bound : Nat} (recent : event ∈ registry.finishedEvents.rtake bound) :
    event ∈ registry.events ∧ event.state.isTerminal = true :=
  mem_filter.mp (mem_of_mem_drop recent)

@[simp] theorem finishedEvents_evictExcessHistory (registry : OperationRegistry) :
    registry.evictExcessHistory.finishedEvents = registry.finishedEvents := by
  rw [finishedEvents, events_evictExcessHistory, finishedEvents]

theorem Retained.recent_subset (retained : Retained registry) :
    registry.finished.rtake maxTerminalHistory ⊆ registry.terminalIds := by
  rw [rtake_finished]
  intro _ mem
  obtain ⟨event, recent, rfl⟩ := List.mem_map.mp mem
  exact mem_terminalIds_iff.mpr
    ⟨event.snapshot, retained event recent, (mem_of_mem_recent recent).2⟩

theorem retained_evictExcessHistory_iff (inOrder : InOrder registry)
    (retained : Retained registry) :
    Retained registry.evictExcessHistory ↔ registry.ForgetsEarliest := by
  have distinct : (registry.forgottenIds ++ registry.keptIds).Nodup := by
    rw [forgotten_append_kept]
    exact terminalIds_nodup registry
  have ordered : registry.forgottenIds ++ registry.keptIds ⊆ registry.finished := by
    rw [forgotten_append_kept]
    exact terminalIds_subset_finished inOrder
  have holdsRecent : registry.finished.rtake maxTerminalHistory ⊆
      registry.forgottenIds ++ registry.keptIds := by
    rw [forgotten_append_kept]
    exact retained.recent_subset
  have size : registry.forgottenIds ≠ [] → registry.keptIds.length = maxTerminalHistory := by
    intro forgets
    have excess : registry.terminalIds.length - maxTerminalHistory ≠ 0 := by
      intro noExcess
      rw [forgottenIds, noExcess] at forgets
      exact forgets take_zero
    rw [keptIds, length_drop]
    omega
  rw [ForgetsEarliest, precedes_iff_notMem_rtake
    (finished_nodup inOrder) distinct ordered holdsRecent size]
  constructor
  · intro retainedAfter _ isForgotten recent
    rw [rtake_finished] at recent
    obtain ⟨event, eventRecent, rfl⟩ := List.mem_map.mp recent
    have found := retainedAfter event (by simpa using eventRecent)
    rw [operation_evictExcessHistory, if_pos isForgotten] at found
    cases found
  · intro old event recent
    rw [finishedEvents_evictExcessHistory] at recent
    have spared : event.operationId ∉ registry.forgottenIds := by
      intro isForgotten
      apply old _ isForgotten
      rw [rtake_finished]
      exact List.mem_map_of_mem recent
    rw [operation_evictExcessHistory, if_neg spared]
    exact retained event recent

variable {before : OperationRegistry}

theorem Publishes.finishedEvents (one : Publishes before after event) :
    after.finishedEvents = before.finishedEvents ++
      if event.state.isTerminal then [event] else [] := by
  rw [OperationRegistry.finishedEvents, one.events, filter_append,
    ← OperationRegistry.finishedEvents]
  congr 1
  cases terminal : event.state.isTerminal with
  | false | true => simp [terminal]

theorem Retained.publishes (retained : Retained before) (one : Publishes before after event) :
    Retained after := by
  have kept : ∀ earlier ∈ before.finishedEvents.rtake maxTerminalHistory,
      after.operation earlier.operationId = some earlier.snapshot := by
    intro earlier recent
    have found := retained earlier recent
    have other : earlier.operationId ≠ event.operationId := by
      intro same
      rw [same] at found
      have running := one.running _ found
      have terminal := (mem_of_mem_recent recent).2
      rw [snapshot, terminal] at running
      cases running
    rw [one.operations, if_neg other]
    exact found
  intro found recent
  rw [one.finishedEvents] at recent
  cases terminal : event.state.isTerminal with
  | false =>
    rw [terminal] at recent
    simp only [Bool.false_eq_true, ↓reduceIte, append_nil] at recent
    exact kept found recent
  | true =>
    rw [terminal] at recent
    rcases mem_rtake_concat recent with rfl | earlier
    · rw [one.operations, if_pos rfl]
    · exact kept found earlier

/-- A section that runs an eviction runs it in a state in which it takes the
records of the operations that finished first. -/
def EvictsEarliest (shared : Shared) (call : Call) : Prop :=
  call = .evict → shared.registry.ForgetsEarliest

theorem Retained.step {shared next : Shared} (valid : Valid shared)
    (retained : Retained shared.registry) (meets : EvictsEarliest shared call)
    (taken : callStep shared call = some next) : Retained next.registry := by
  cases callStep_effect valid taken with
  | quiet nothing =>
    intro event recent
    rw [finishedEvents, nothing.events] at recent
    rw [nothing.operations]
    exact retained event recent
  | publishes event one => exact retained.publishes one
  | evicts called evicted =>
    rw [evicted]
    exact (retained_evictExcessHistory_iff valid.inOrder retained).mpr (meets called)

variable {calls : List Call} {reached : Shared}

theorem retained_of_guarded (guarded :
    ActionRun.Guarded callStep EvictsEarliest Shared.initial calls)
    (ran : run callStep Shared.initial calls = some reached) :
    Retained reached.registry := by
  have both :=
    run_preserves_of_guarded (fun shared => Valid shared ∧ Retained shared.registry)
      (fun before meets taken => ⟨before.1.step taken, Retained.step before.1 before.2 meets taken⟩)
      ⟨Valid.initially, by intro _ recent; cases recent⟩ guarded ran
  exact both.2

/-- A section by which an active operation reaches a terminal state, and the
snapshot it then has. -/
structure Finishes (active : Shared) (call : Call) (ended : Shared)
    (snapshot : OperationSnapshot) : Prop where
  taken : callStep active call = some ended
  running : ∃ earlier, active.registry.operation snapshot.operationId = some earlier ∧
    earlier.state.isTerminal = false
  found : ended.registry.operation snapshot.operationId = some snapshot
  terminal : snapshot.state.isTerminal = true

/-- How many other operations reached a terminal state between two states. -/
def othersFinishedSince (ended reached : OperationRegistry) (id : OperationId) : Nat :=
  (reached.events.drop ended.events.length).countP fun event =>
    event.state.isTerminal && decide (event.operationId ≠ id)

/-- A finished operation is found until `maxTerminalHistory` others have finished after it. -/
def RemembersFinished (calls : List Call) : Prop :=
  ∀ earlier call later active ended reached snapshot, earlier ++ call :: later <+: calls →
    run callStep Shared.initial earlier = some active →
    Finishes active call ended snapshot →
    run callStep ended later = some reached →
    othersFinishedSince ended.registry reached.registry snapshot.operationId < maxTerminalHistory →
    reached.registry.operation snapshot.operationId = some snapshot

variable {active ended : Shared}

theorem Finishes.publishes {snapshot : OperationSnapshot}
    (valid : Valid active) (finishes : Finishes active call ended snapshot) :
    ∃ event, event.snapshot = snapshot ∧ Publishes active.registry ended.registry event := by
  obtain ⟨earlier, running, notTerminal⟩ := finishes.running
  have changed : ended.registry.operation snapshot.operationId ≠
      active.registry.operation snapshot.operationId := by
    intro same
    rw [finishes.found, running, some.injEq] at same
    subst earlier
    rw [finishes.terminal] at notTerminal
    cases notTerminal
  cases callStep_effect valid finishes.taken with
  | quiet nothing => exact absurd (nothing.operations _) changed
  | publishes event one =>
    refine ⟨event, ?_, one⟩
    have written := one.operations snapshot.operationId
    split at written
    · rw [finishes.found, some.injEq] at written
      exact written.symm
    · exact absurd written changed
  | evicts _ evicted =>
    have found := finishes.found
    rw [evicted, operation_evictExcessHistory] at found
    rw [evicted, operation_evictExcessHistory] at changed
    split at found
    · cases found
    next spared =>
      rw [if_neg spared] at changed
      exact absurd rfl changed

theorem Publishes.finishes (one : Publishes active.registry ended.registry event)
    (taken : callStep active call = some ended) (terminal : event.state.isTerminal = true) :
    Finishes active call ended event.snapshot where
  taken := taken
  running := by
    cases bound : active.registry.operation event.operationId with
    | none => exact absurd bound (one.begun terminal)
    | some earlier => exact ⟨earlier, bound, one.running earlier bound⟩
  found := by
    refine (one.operations _).trans ?_
    rw [snapshot, if_pos rfl]
  terminal := terminal

theorem Effect.events_extended (effect : Effect before after call) :
    before.events <+: after.events := by
  cases effect with
  | quiet nothing => exact nothing.events ▸ prefix_rfl
  | publishes _ one =>
    rw [one.events]
    exact prefix_append _ _
  | evicts _ evicted =>
    rw [evicted]
    exact events_evictExcessHistory .. ▸ prefix_rfl

variable {shared : Shared}

theorem events_extended_of_run (valid : Valid shared)
    (ran : run callStep shared calls = some reached) :
    shared.registry.events <+: reached.registry.events := by
  have both :=
    run_preserves (fun later =>
      Valid later ∧ shared.registry.events <+: later.registry.events)
      (fun before taken =>
        ⟨before.1.step taken, before.2.trans (callStep_effect before.1 taken).events_extended⟩)
      ⟨valid, prefix_rfl⟩ ran
  exact both.2

theorem Publishes.finishedEvents_since {before ended reached : OperationRegistry}
    (one : Publishes before ended event) (terminal : event.state.isTerminal = true)
    (inOrder : InOrder reached) (later : ended.events <+: reached.events) :
    ∃ since, reached.finishedEvents = before.finishedEvents ++ event :: since ∧
      othersFinishedSince ended reached event.operationId = since.length := by
  obtain ⟨added, sameEvents⟩ := later
  have split : reached.finishedEvents = before.finishedEvents ++
      event :: added.filter fun event => event.state.isTerminal := by
    have endedEvents := one.finishedEvents
    rw [terminal] at endedEvents
    rw [OperationRegistry.finishedEvents, ← sameEvents, filter_append,
      ← OperationRegistry.finishedEvents, endedEvents, if_pos rfl, append_assoc, singleton_append]
  refine ⟨_, split, ?_⟩
  have distinct := finished_nodup inOrder
  rw [finished, split, map_append, map_cons] at distinct
  have onlyOnce := (nodup_cons.mp distinct.of_append_right).1
  rw [othersFinishedSince, ← sameEvents, drop_left, ← countP_eq_length_filter]
  apply countP_congr
  intro other published
  cases otherTerminal : other.state.isTerminal with
  | false => simp
  | true =>
    have different : other.operationId ≠ event.operationId := by
      intro same
      apply onlyOnce
      rw [← same]
      exact mem_map_of_mem (mem_filter.mpr ⟨published, otherTerminal⟩)
    simp [different]

theorem remembersFinished_of_guarded (guarded :
    ActionRun.Guarded callStep EvictsEarliest Shared.initial calls) : RemembersFinished calls := by
  intro earlier call later active ended reached _ isPart ranEarlier finishes ranLater few
  have valid := valid_of_run ranEarlier
  have ran : run callStep Shared.initial (earlier ++ call :: later) = some reached :=
    run_append_eq_some.mpr ⟨active, ranEarlier,
      run_cons_eq_some.mpr ⟨ended, finishes.taken, ranLater⟩⟩
  have retained := retained_of_guarded (guarded.of_prefix isPart) ran
  obtain ⟨event, rfl, one⟩ := finishes.publishes valid
  obtain ⟨_, split, count⟩ :=
    one.finishedEvents_since finishes.terminal (valid_of_run ran).inOrder
      (events_extended_of_run (valid.step finishes.taken) ranLater)
  apply retained event
  rw [split]
  exact mem_rtake_of_length_lt (count ▸ few)

theorem publishes_of_mem_events (ran : run callStep Shared.initial calls = some reached)
    (published : event ∈ reached.registry.events) :
    ∃ earlier call later active ended, calls = earlier ++ call :: later ∧
      run callStep Shared.initial earlier = some active ∧
      callStep active call = some ended ∧ Publishes active.registry ended.registry event ∧
      run callStep ended later = some reached := by
  induction calls using reverseRecOn generalizing reached with
  | nil =>
    cases ran
    cases published
  | append_singleton calls last ih =>
    obtain ⟨middle, ranCalls, ranLast⟩ := run_append_eq_some.mp ran
    have taken := run_singleton_eq_some.mp ranLast
    have before (inMiddle : event ∈ middle.registry.events) : ∃ earlier call later active ended,
        calls ++ [last] = earlier ++ call :: later ∧
          run callStep Shared.initial earlier = some active ∧
          callStep active call = some ended ∧
          Publishes active.registry ended.registry event ∧
          run callStep ended later = some reached := by
      obtain ⟨earlier, call, later, active, ended, rfl, ranEarlier,
        takenCall, one, ranLater⟩ := ih ranCalls inMiddle
      exact ⟨earlier, call, later ++ [last], active, ended, by simp, ranEarlier, takenCall, one,
        run_append_eq_some.mpr ⟨middle, ranLater, ranLast⟩⟩
    cases callStep_effect (valid_of_run ranCalls) taken with
    | quiet nothing =>
      rw [nothing.events] at published
      exact before published
    | publishes _ one =>
      have isOne := published
      rw [one.events, mem_append, mem_singleton] at isOne
      rcases isOne with inMiddle | rfl
      · exact before inMiddle
      · exact ⟨calls, last, [], middle, reached, rfl, ranCalls, taken, one, rfl⟩
    | evicts _ evicted =>
      rw [evicted, events_evictExcessHistory] at published
      exact before published

theorem retained_of_remembersFinished (remembers : RemembersFinished calls)
    (ran : run callStep Shared.initial calls = some reached) :
    Retained reached.registry := by
  intro event recent
  obtain ⟨published, terminal⟩ := mem_of_mem_recent recent
  obtain ⟨earlier, call, later, active, ended, rfl, ranEarlier, taken, one,
    ranLater⟩ := publishes_of_mem_events ran published
  have inOrder := (valid_of_run ran).inOrder
  obtain ⟨_, split, count⟩ :=
    one.finishedEvents_since terminal inOrder
      (events_extended_of_run ((valid_of_run ranEarlier).step taken) ranLater)
  have distinct : reached.registry.finishedEvents.Nodup :=
    List.Nodup.of_map _ (finished_nodup inOrder)
  rw [split] at recent distinct
  have few := length_lt_of_mem_rtake distinct recent
  rw [← count] at few
  exact remembers earlier call later active ended reached event.snapshot
    prefix_rfl ranEarlier (one.finishes taken terminal) ranLater few

theorem RemembersFinished.of_prefix {shorter calls : List Call}
    (remembers : RemembersFinished calls) (isPart : shorter <+: calls) :
    RemembersFinished shorter :=
  fun earlier call later active ended reached snapshot inShorter =>
    remembers earlier call later active ended reached snapshot (inShorter.trans isPart)

/-- The last operations to finish are remembered exactly when every eviction takes what
finished before what it leaves. -/
theorem remembersFinished_iff (calls : List Call) : RemembersFinished calls ↔
    ActionRun.Guarded callStep EvictsEarliest Shared.initial calls := by
  refine ⟨fun remembers => ?_, remembersFinished_of_guarded⟩
  induction calls using reverseRecOn with
  | nil => trivial
  | append_singleton calls last ih =>
    have earlier := remembers.of_prefix (prefix_append calls [last])
    refine guarded_concat.mpr ⟨ih earlier, ?_⟩
    rintro reached ran rfl
    have taken : callStep reached .evict =
        some { reached with
          registry := reached.registry.evictExcessHistory } :=
      rfl
    have evicted := run_append_eq_some.mpr
      ⟨reached, ran, run_singleton_eq_some.mpr taken⟩
    have retainedAfter := retained_of_remembersFinished remembers evicted
    have retained := retained_of_remembersFinished earlier ran
    have inOrder := (valid_of_run ran).inOrder
    exact (retained_evictExcessHistory_iff inOrder retained).mp retainedAfter

/-- A query answers as the last event of the operation, or nothing once that event is terminal. -/
def Answers (registry : OperationRegistry) (id : OperationId) : Prop :=
  let last := (registry.eventsOf id).getLast?
  registry.operation id = last.map snapshot ∨
    registry.operation id = none ∧ ∃ event, last = some event ∧ event.state.isTerminal = true

theorem Effect.answers (effect : Effect before after call) (answers : before.Answers id) :
    after.Answers id := by
  cases effect with
  | quiet nothing =>
    unfold Answers eventsOf at answers ⊢
    rwa [nothing.events, nothing.operations]
  | publishes event one =>
    by_cases same : id = event.operationId
    · subst id
      have last : (after.eventsOf event.operationId).getLast? = some event := by
        simp [eventsOf, one.events]
      exact .inl (by rw [one.operations, if_pos rfl, last, map_some])
    · have events : after.eventsOf id = before.eventsOf id := by
        simp [eventsOf, one.events, Ne.symm same]
      unfold Answers at answers ⊢
      rwa [events, one.operations, if_neg same]
  | evicts _ evicted =>
    subst after
    have events : before.evictExcessHistory.eventsOf id = before.eventsOf id := by
      rw [eventsOf, events_evictExcessHistory, eventsOf]
    unfold Answers at answers ⊢
    rw [events, operation_evictExcessHistory]
    split
    next forgotten =>
      obtain ⟨snapshot, found, terminal⟩ := mem_terminalIds_iff.mp (mem_of_mem_take forgotten)
      rcases answers with asLast | ⟨missing, _⟩
      · rw [found] at asLast
        obtain ⟨event, isLast, rfl⟩ := map_eq_some_iff.mp asLast.symm
        exact .inr ⟨rfl, event, isLast, terminal⟩
      · rw [missing] at found
        cases found
    · exact answers

/-- However the sections interleave, an operation that still runs is reported as its last event. -/
theorem operations_report_events (ran : run callStep Shared.initial calls = some reached)
    (id : OperationId) : reached.registry.Answers id :=
  (run_preserves (fun shared => Valid shared ∧ shared.registry.Answers id)
    (fun before taken => ⟨before.1.step taken, (callStep_effect before.1 taken).answers before.2⟩)
    ⟨Valid.initially, .inl rfl⟩ ran).2

def shortOperation (id : OperationId) : List Call :=
  [.mint .extract, .insert id, .transition id (.completed .none), .evict]

/-- A completed operation is reported as its last event. -/
theorem operations_report_short : ∃ reached,
    run callStep Shared.initial (shortOperation 1) = some reached ∧ reached.registry.Answers 1 :=
  ⟨_, rfl, @operations_report_events (shortOperation 1) _ rfl 1⟩

/-- A long operation begins first and completes last, after as many as the history holds. -/
def overtakenOperation : List Call :=
  [.mint .pipeline, .insert 1] ++ (range' 2 maxTerminalHistory).flatMap shortOperation

/-- The long operation is forgotten by its own completion, with nothing finished after it. -/
theorem overtaken_operation_forgotten : ¬ ∀ calls, RemembersFinished calls := by
  intro remembers
  let completed : OperationSnapshot :=
    { operationId := 1
      kind := .pipeline
      lastSequence := 2
      state := .completed .none }
  have completion : (run callStep Shared.initial overtakenOperation).map (fun active =>
    (active.registry.operation 1, (run callStep active
      [.transition 1 (.completed .none)]).map fun ended =>
        (ended.registry.operation 1, ended.registry.evictExcessHistory.operation 1))) =
      some (some { completed with lastSequence := 1, state := .accepted },
        some (some completed, none)) := by
    decide +kernel
  obtain ⟨active, ran, snapshots⟩ := map_eq_some_iff.mp completion
  obtain ⟨accepted, completes⟩ := Prod.mk.inj snapshots
  obtain ⟨ended, taken, snapshots⟩ := map_eq_some_iff.mp completes
  obtain ⟨found, forgotten⟩ := Prod.mk.inj snapshots
  have remembered :=
    remembers (overtakenOperation ++ [.transition 1 (.completed .none), .evict])
      overtakenOperation (.transition 1 (.completed .none)) [.evict]
      active ended
      { ended with registry := ended.registry.evictExcessHistory }
      completed prefix_rfl ran
      { taken := run_singleton_eq_some.mp taken
        running := ⟨_, accepted, rfl⟩
        found := found
        terminal := rfl }
      rfl
      (by simp [othersFinishedSince, maxTerminalHistory])
  rw [forgotten] at remembered
  cases remembered

end OperationRegistry

end Arclain
