import Arclain.ArchiveMutation
import Arclain.OperationConclusion

namespace Arclain

/-!
# Acknowledged cancellations

A cancellation makes its record terminal, and a terminal record can be evicted while the
worker still runs.  Then `isCancelled`, which asks the record, is false again.
-/

open KeyedMap List Option

namespace OperationRegistry

/-- `wait_until_cancelled`, which has not returned when the polls run out. -/
def waitUntilCancelled (id : OperationId) : List OperationRegistry → Option Unit
  | [] => none
  | polled :: later =>
    if polled.isCancelled id then some ()
    else waitUntilCancelled id later

theorem isCancelled_of_recorded {registry : OperationRegistry} {id : OperationId}
    (recorded : registry.records.lookup id ≠ none) (flagged : registry.cancelFlags id = true) :
    registry.isCancelled id = true := by
  obtain ⟨_, bound⟩ := ne_none_iff_exists'.mp recorded
  simp [isCancelled, bound, flagged]

end OperationRegistry

namespace ArchiveMutation

open OperationRegistry Text

def System.Cancelled (system : System) (id : OperationId) : Prop :=
  id ∈ system.returning ∨ id ∈ system.acknowledged

/-- The worker stands between its last checkpoint and its dispatch. -/
def Worker.isCleared : Worker → Bool
  | .mutation _ (.cleared _ _) => true
  | _ => false

def System.IsCleared (system : System) (id : OperationId) : Prop :=
  ∃ worker ∈ system.workers.lookup id, worker.isCleared = true

instance (system : System) (id : OperationId) : Decidable (system.IsCleared id) :=
  decidable_of_iff ((system.workers.lookup id).any Worker.isCleared = true) (Option.any_eq_true _ _)

instance (system : System) (id : OperationId) : Decidable (system.Runs id) :=
  inferInstanceAs (Decidable (system.workers.lookup id ≠ none))

/-- The operation whose cancellation returns `Ok` in this section. -/
def System.acknowledges (system : System) : Action → Option OperationId
  | .cancelReturn id => some id
  | .call (.cancelTransition id) =>
    if (system.registry.operationState id).any OperationState.isTerminal then some id
    else none
  | _ => none

def Action.evicts : Action → Bool
  | .call .evict | .cancelReturn _ => true
  | _ => false

/-- No cancelled operation with a worker can be evicted, and no cancellation returns between
a last checkpoint and its dispatch. -/
def Sheltered (system : System) (action : Action) : Prop :=
  (action.evicts = true → ∀ id ∈ system.returning ++ system.acknowledged, system.Runs id →
    system.registry.youngerTerminals id < maxTerminalHistory) ∧
    ∀ id ∈ system.acknowledges action, ¬ system.IsCleared id

instance (system : System) (action : Action) : Decidable (Sheltered system action) :=
  inferInstanceAs (Decidable (_ ∧ _))

namespace Sheltered

variable {system : System} {action : Action}

theorem tooYoung (sheltered : Sheltered system action) (evicts : action.evicts = true)
    (id : OperationId) (cancelled : system.Cancelled id) (runs : system.Runs id) :
    system.registry.youngerTerminals id < maxTerminalHistory :=
  sheltered.1 evicts id (mem_append.mpr cancelled) runs

end Sheltered

/-- A cancelled operation whose worker runs is recorded with its flag raised, and an
acknowledged one is before its last checkpoint. -/
structure Heeded (system : System) : Prop where
  flagged : ∀ id, id ∈ system.shared.cancelling ∨ system.Cancelled id →
    system.registry.cancelFlags id = true
  recorded : ∀ id, system.Cancelled id → system.Runs id → system.registry.records.lookup id ≠ none
  notCleared : ∀ id ∈ system.acknowledged, ¬ system.IsCleared id
  notAcknowledged : ∀ dispatch ∈ system.dispatches, dispatch.acknowledged = false

namespace Heeded

variable {system : System}

theorem initially [CharTables] [Crc32] (session : ArchiveSessionId) (headersEncrypted : Bool)
    (entries : List ArchiveEntry) : Heeded (System.initial session headersEncrypted entries) := by
  constructor <;> simp [System.initial, System.Cancelled, Shared.initial]

variable {id : OperationId}

theorem isCancelled (heeded : Heeded system) (cancelled : system.Cancelled id)
    (runs : system.Runs id) : system.registry.isCancelled id = true :=
  isCancelled_of_recorded (heeded.recorded id cancelled runs) (heeded.flagged id (.inr cancelled))

variable {next : System}

theorem of_workers (heeded : Heeded system) (shared : next.shared = system.shared)
    (returning : next.returning = system.returning)
    (acknowledged : next.acknowledged = system.acknowledged)
    (dispatches : next.dispatches = system.dispatches) (runs : ∀ id, next.Runs id → system.Runs id)
    (cleared : ∀ id ∈ system.acknowledged, next.IsCleared id → system.IsCleared id) :
    Heeded next := by
  have registry : next.registry = system.registry := congrArg Shared.registry shared
  have sameCancelled : ∀ id, next.Cancelled id → system.Cancelled id := by
    intro id
    unfold System.Cancelled
    rw [returning, acknowledged]
    exact fun cancelled => cancelled
  refine ⟨?_, ?_, ?_, ?_⟩
  · intro id known
    rw [registry]
    apply heeded.flagged id
    rcases known with cancelling | cancelled
    · rw [shared] at cancelling
      exact .inl cancelling
    · exact .inr (sameCancelled id cancelled)
  · intro id cancelled runsNext
    rw [registry]
    exact heeded.recorded id (sameCancelled id cancelled) (runs id runsNext)
  · intro id mem isCleared
    rw [acknowledged] at mem
    exact heeded.notCleared id mem (cleared id mem isCleared)
  · rw [dispatches]
    exact heeded.notAcknowledged

theorem of_registry (heeded : Heeded system) {registry : OperationRegistry}
    {minted : KeyedMap OperationId OperationKind} (keeps : Keeps system.registry registry) :
    Heeded { system with
      shared := { system.shared with
        registry := registry
        minted := minted } } where
  __ := heeded
  flagged := by
    intro id known
    have raised := heeded.flagged id known
    rwa [← keeps.flags] at raised
  recorded := by
    intro id cancelled runs
    exact keeps.recorded (heeded.recorded id cancelled runs)

theorem publish (heeded : Heeded system) (id : OperationId) (state : OperationState) :
    Heeded (system.publish id state) :=
  heeded.of_registry (Keeps.transition id state)

variable {request : ArchiveMutationRequest} {phase : Phase}

section

variable (heeded : Heeded system)
include heeded

theorem setPhase (runs : system.Runs id)
    (allowed : (Worker.mutation request phase).isCleared = true → id ∉ system.acknowledged) :
    Heeded (system.setPhase id request phase) := by
  refine heeded.of_workers rfl rfl rfl rfl ?_ ?_
  · intro other runsNext
    unfold System.Runs at runsNext
    rw [System.setPhase, lookup_insert_ite] at runsNext
    by_cases same : other = id
    · rwa [same]
    · rwa [if_neg same] at runsNext
  · rintro other mem ⟨worker, bound, isCleared⟩
    rw [System.setPhase, lookup_insert_ite] at bound
    by_cases same : other = id
    · subst other
      obtain rfl : Worker.mutation request phase = worker := by simpa using bound
      exact (allowed isCleared mem).elim
    · rw [if_neg same] at bound
      exact ⟨worker, bound, isCleared⟩

theorem setPhase_uncleared (runs : system.Runs id)
    (uncleared : (Worker.mutation request phase).isCleared = false) :
    Heeded (system.setPhase id request phase) := by
  apply heeded.setPhase runs
  intro isCleared
  rw [uncleared] at isCleared
  cases isCleared

theorem publish_ending (runs : system.Runs id)
    (state : OperationState) : Heeded ((system.publish id state).setPhase id request .ending) :=
  (heeded.publish id state).setPhase_uncleared runs rfl

theorem checkpoint (runs : system.Runs id) :
    Heeded (system.checkpoint id request phase) := by
  unfold System.checkpoint
  split
  · exact heeded.setPhase_uncleared runs rfl
  next notCancelled =>
    apply heeded.setPhase runs
    intro _ acknowledged
    exact notCancelled (heeded.isCancelled (.inr acknowledged) runs)

theorem of_session (session : Session) (sessionOpen : Bool)
    (backfills : KeyedMap Nat Backfill) (landed reflected : Nat) : Heeded { system with
      session := session
      sessionOpen := sessionOpen
      backfills := backfills
      landed := landed
      reflected := reflected } :=
  { heeded with }

theorem release (holder : Holder) : Heeded (system.release holder) := by
  unfold System.release
  split
  · exact heeded.of_session _ _ _ _ _
  · exact heeded

end

theorem erase (heeded : Heeded system) (id : OperationId) :
    Heeded { system with workers := system.workers.erase id } := by
  refine heeded.of_workers rfl rfl rfl rfl ?_ ?_
  · intro other runsNext
    unfold System.Runs at runsNext
    rw [lookup_erase_ite] at runsNext
    split at runsNext
    · exact (runsNext rfl).elim
    · exact runsNext
  · rintro other - ⟨worker, bound, isCleared⟩
    replace bound := lookup_of_erase bound
    exact ⟨worker, bound, isCleared⟩

theorem spawnOther (heeded : Heeded system) (runs : system.Runs id) :
    Heeded { system with workers := system.workers.insert id .other } := by
  refine heeded.of_workers rfl rfl rfl rfl ?_ ?_
  · intro other runsNext
    unfold System.Runs at runsNext
    rw [lookup_insert_ite] at runsNext
    by_cases same : other = id
    · rwa [same]
    · rwa [if_neg same] at runsNext
  · rintro other - ⟨worker, bound, isCleared⟩
    rw [lookup_insert_ite] at bound
    split at bound
    · cases bound
      cases isCleared
    · exact ⟨worker, bound, isCleared⟩

theorem logDispatch (heeded : Heeded system) (cleared : system.IsCleared id)
    (mutation : ResolvedMutation) (reflects : Nat) :
    Heeded (system.logDispatch id mutation reflects) where
  __ := heeded
  notAcknowledged := by
    intro dispatch mem
    rcases mem_append.mp mem with earlier | last
    · exact heeded.notAcknowledged dispatch earlier
    · obtain rfl := mem_singleton.mp last
      simp only [decide_eq_false_iff_not]
      intro acknowledged
      exact heeded.notCleared id acknowledged cleared

theorem of_leads (heeded : Heeded system) (runs : system.Runs id) {before after : Phase}
    {session : Session} {reflected : Nat} (leads : Leads session reflected request before after)
    (unresolved : ∀ mutation reflects, before ≠ .resolved mutation reflects) :
    Heeded (system.setPhase id request after) := by
  refine heeded.setPhase_uncleared runs ?_
  cases leads with
  | cleared mutation reflects => exact absurd rfl (unresolved mutation reflects)
  | _ => rfl

theorem of_moves [CharTables] [Crc32] {request : ArchiveMutationRequest} {phase : Phase}
    {next : System} (heeded : Heeded system)
    (bound : system.workers.lookup id = some (.mutation request phase))
    (moves : Moves system id request phase next) : Heeded next := by
  have runs : system.Runs id := by simp [System.Runs, bound]
  cases moves with
  | goes leads unresolved => exact heeded.of_leads runs leads unresolved
  | checks leads => exact heeded.checkpoint runs
  | publishes state leads unresolved =>
    exact (heeded.publish id state).of_leads runs leads unresolved
  | locks | lands | reindexes | bumps =>
    exact (heeded.of_session _ _ _ _ _).setPhase_uncleared runs rfl
  | dispatches =>
    exact (heeded.logDispatch ⟨_, bound, rfl⟩ _ _).setPhase_uncleared runs rfl
  | returns => exact (heeded.erase id).release _

theorem relisted (heeded : Heeded system) (runs : system.Runs id)
    (outcome : Outcome (List ArchiveEntry)) : Heeded (relisted system id request outcome) := by
  cases outcome with
  | answered => exact heeded.setPhase_uncleared runs rfl
  | failed =>
    have desynced :=
      heeded.of_session
        { system.session with
          desynced := true
          revision := system.session.revision + 1 }
        system.sessionOpen system.backfills system.landed system.reflected
    exact desynced.publish_ending runs _
  | panicked => exact heeded.publish_ending runs _

theorem advanceBackfill [CharTables] [Crc32] (heeded : Heeded system) {task : Nat}
    {backfill : Backfill} {next : System}
    (taken : advanceBackfill system task backfill = some next) : Heeded next := by
  cases backfill with
  | locked revision sums =>
    simp only [ArchiveMutation.advanceBackfill] at taken
    split at taken
    · cases taken
      exact heeded.of_session _ _ _ _ _
    · cases taken
      exact heeded.of_session _ _ _ _ _
  | patched =>
    cases taken
    exact heeded.of_session _ _ _ _ _
  | ending =>
    cases taken
    exact (heeded.of_session _ _ _ _ _).release _
  | computing revision | computed revision sums => cases taken

section

variable (heeded : Heeded system)
include heeded

theorem insert {kind : OperationKind}
    {minted : KeyedMap OperationId OperationKind} : Heeded { system with
      shared := { system.shared with
        registry := system.registry.insertAccepted id kind
        minted := minted }
      workers := system.workers.insert id .unspawned } := by
  have inserted := @of_registry _ heeded _ minted (Keeps.insertAccepted id kind)
  refine ⟨inserted.flagged, ?_, ?_, inserted.notAcknowledged⟩
  · intro other cancelled runs
    by_cases same : other = id
    · subst other
      simp [System.registry, OperationRegistry.insertAccepted, OperationRegistry.publish]
    · apply inserted.recorded other cancelled
      unfold System.Runs at runs ⊢
      rwa [lookup_insert_ite, if_neg same] at runs
  · rintro other acknowledged ⟨worker, bound, isCleared⟩
    rw [lookup_insert_ite] at bound
    split at bound
    · cases bound
      cases isCleared
    · exact heeded.notCleared other acknowledged ⟨worker, bound, isCleared⟩

theorem cancelRead {shared : Shared}
    (taken : callStep system.shared (.cancelRead id) = some shared) :
    Heeded { system with shared := shared } := by
  have raised : ∀ {other : OperationId}, system.registry.cancelFlags other = true →
      Function.update system.registry.cancelFlags id true other = true := by
    intro other already
    rw [Function.update_apply]
    split
    · rfl
    · exact already
  simp only [callStep, OperationRegistry.cancelRead] at taken
  cases bound : system.shared.registry.records.lookup id with
  | none =>
    simp only [bound] at taken
    cases taken
    exact heeded
  | some record =>
    cases terminal : record.state.isTerminal with
    | true =>
      simp only [bound, terminal] at taken
      cases taken
      exact { heeded with flagged := fun other known => raised (heeded.flagged other known) }
    | false =>
      simp only [bound, terminal] at taken
      cases taken
      refine { heeded with flagged := ?_ }
      rintro other (cancelling | cancelled)
      · rcases mem_cons.mp cancelling with rfl | earlier
        · exact Function.update_self _ _ _
        · exact raised (heeded.flagged other (.inl earlier))
      · exact raised (heeded.flagged other (.inr cancelled))

theorem evict (tooYoung : ∀ id, system.Cancelled id → system.Runs id →
    system.registry.youngerTerminals id < maxTerminalHistory) : Heeded { system with
      shared := { system.shared with
        registry := system.registry.evictExcessHistory } } where
  __ := heeded
  flagged := by
    intro id known
    have raised := heeded.flagged id known
    rwa [← cancelFlags_evictExcessHistory] at raised
  recorded := by
    intro id cancelled runs
    have recorded := heeded.recorded id cancelled runs
    rwa [← lookup_evictExcessHistory_of_few_younger (tooYoung id cancelled runs)] at recorded

theorem cancelTransition
    (notCleared : id ∈ system.acknowledges (.call (.cancelTransition id)) → ¬ system.IsCleared id)
    (taken : cancelTransition system id = some next) : Heeded next := by
  have transitioned := heeded.publish id .cancelled
  unfold ArchiveMutation.cancelTransition at taken
  simp only [callStep] at taken
  by_cases cancelling : id ∈ system.shared.cancelling
  swap
  · simp [cancelling] at taken
  have raised := transitioned.flagged id (.inl cancelling)
  have remaining : ∀ {other}, other ∈ system.shared.cancelling.erase id →
      other ∈ system.shared.cancelling :=
    mem_of_mem_erase
  cases found : system.registry.operationState id with
  | none =>
    simp only [cancelling, ↓reduceIte, found] at taken
    cases taken
    refine { transitioned with flagged := ?_ }
    rintro other (mem | cancelled)
    · exact transitioned.flagged other (.inl (remaining mem))
    · exact transitioned.flagged other (.inr cancelled)
  | some state =>
    have recorded : (system.publish id .cancelled).registry.records.lookup id ≠ none := by
      apply (Keeps.transition id .cancelled).recorded
      intro missing
      simp [operationState, missing] at found
    cases terminal : state.isTerminal with
    | true =>
      simp only [cancelling, ↓reduceIte, found, terminal] at taken
      cases taken
      refine ⟨?_, ?_, ?_, transitioned.notAcknowledged⟩
      · rintro other (mem | returning | acknowledged)
        · exact transitioned.flagged other (.inl (remaining mem))
        · exact transitioned.flagged other (.inr (.inl returning))
        · rcases mem_cons.mp acknowledged with rfl | earlier
          · exact raised
          · exact transitioned.flagged other (.inr (.inr earlier))
      · rintro other (returning | acknowledged) runs
        · exact transitioned.recorded other (.inl returning) runs
        · rcases mem_cons.mp acknowledged with rfl | earlier
          · exact recorded
          · exact transitioned.recorded other (.inr earlier) runs
      · intro other acknowledged
        rcases mem_cons.mp acknowledged with rfl | earlier
        · exact notCleared (by simp [System.acknowledges, found, terminal])
        · exact transitioned.notCleared other earlier
    | false =>
      simp only [cancelling, ↓reduceIte, found, terminal, Bool.false_eq_true] at taken
      cases taken
      refine ⟨?_, ?_, transitioned.notCleared, transitioned.notAcknowledged⟩
      · rintro other (mem | returning | acknowledged)
        · exact transitioned.flagged other (.inl (remaining mem))
        · rcases mem_cons.mp returning with rfl | earlier
          · exact raised
          · exact transitioned.flagged other (.inr (.inl earlier))
        · exact transitioned.flagged other (.inr (.inr acknowledged))
      · rintro other (returning | acknowledged) runs
        · rcases mem_cons.mp returning with rfl | earlier
          · exact recorded
          · exact transitioned.recorded other (.inl earlier) runs
        · exact transitioned.recorded other (.inr acknowledged) runs

theorem stepCall {call : Call} (sheltered : Sheltered system (.call call))
    (taken : stepCall system call = some next) : Heeded next := by
  cases call with
  | mint kind =>
    cases taken
    exact heeded.of_registry ⟨rfl, id⟩
  | insert id =>
    simp only [ArchiveMutation.stepCall, callStep] at taken
    cases minted : system.shared.minted.lookup id with
    | none => simp [minted] at taken
    | some kind =>
      simp only [minted, some.injEq] at taken
      subst next
      exact heeded.insert
  | transition id state =>
    cases taken
    exact heeded.publish id state
  | cancelRead id =>
    simp only [ArchiveMutation.stepCall] at taken
    cases called : callStep system.shared (.cancelRead id) with
    | none => simp [called] at taken
    | some =>
      simp only [called, some.injEq] at taken
      subst next
      exact heeded.cancelRead called
  | cancelTransition id => exact heeded.cancelTransition (sheltered.2 id) taken
  | resolveChallenge id challenge =>
    cases taken
    exact heeded.of_registry (Keeps.resolveChallenge id challenge)
  | evict =>
    cases taken
    exact heeded.evict (sheltered.tooYoung rfl)

theorem cancelReturn (returning : id ∈ system.returning)
    (sheltered : Sheltered system (.cancelReturn id)) : Heeded { system with
      shared := { system.shared with
        registry := system.registry.evictExcessHistory }
      returning := system.returning.erase id
      acknowledged := id :: system.acknowledged } := by
  have evicted := heeded.evict (sheltered.tooYoung rfl)
  have known : ∀ {other}, other ∈ system.returning.erase id ∨ other ∈ id :: system.acknowledged →
      system.Cancelled other := by
    rintro other (mem | mem)
    · exact .inl (mem_of_mem_erase mem)
    · rcases mem_cons.mp mem with rfl | earlier
      · exact .inl returning
      · exact .inr earlier
  refine ⟨?_, ?_, ?_, evicted.notAcknowledged⟩
  · rintro other (cancelling | cancelled)
    · exact evicted.flagged other (.inl cancelling)
    · exact evicted.flagged other (.inr (known cancelled))
  · intro other cancelled runs
    exact evicted.recorded other (known cancelled) runs
  · intro other acknowledged
    rcases mem_cons.mp acknowledged with rfl | earlier
    · exact sheltered.2 other rfl
    · exact heeded.notCleared other earlier

end

theorem step [CharTables] [Crc32] {capabilities : BackendCapabilities} (heeded : Heeded system)
    {action : Action} {next : System} (sheltered : Sheltered system action)
    (taken : step capabilities system action = some next) : Heeded next := by
  cases action with
  | call call => exact heeded.stepCall sheltered taken
  | cancelReturn id =>
    simp only [ArchiveMutation.step] at taken
    split at taken
    next returning =>
      cases taken
      exact heeded.cancelReturn returning sheltered
    · cases taken
  | spawnOther id =>
    simp only [ArchiveMutation.step] at taken
    split at taken
    next unspawned =>
      cases taken
      exact heeded.spawnOther (by simp [System.Runs, unspawned])
    · cases taken
  | finishOther id =>
    simp only [ArchiveMutation.step] at taken
    split at taken
    · cases taken
      exact heeded.erase id
    · cases taken
  | spawnMutation id request =>
    simp only [ArchiveMutation.step] at taken
    split at taken
    next unspawned =>
      cases taken
      exact heeded.setPhase_uncleared (by simp [System.Runs, unspawned]) rfl
    · cases taken
  | advance id | acquire id | poll id | dispatch id | shutDown id | mutated id outcome =>
    obtain ⟨request, _, bound, moves⟩ := moves_of_step rfl taken
    exact heeded.of_moves bound moves
  | relisted id outcome =>
    simp only [ArchiveMutation.step] at taken
    split at taken
    next found =>
      cases taken
      exact heeded.relisted (by simp [System.Runs, mutationOf_eq_some_iff.mp found]) outcome
    · cases taken
  | closeSession =>
    cases taken
    exact heeded.of_session _ _ _ _ _
  | backfillStart task | backfillAbandon task | backfillAcquire task =>
    simp only [ArchiveMutation.step] at taken
    split at taken
    · cases taken
      exact heeded.of_session _ _ _ _ _
    · cases taken
  | backfillCompute task =>
    simp only [ArchiveMutation.step] at taken
    split at taken
    · split at taken
      · cases taken
        exact heeded.of_session _ _ _ _ _
      · cases taken
    · cases taken
  | backfillAdvance task =>
    simp only [ArchiveMutation.step] at taken
    split at taken
    · exact heeded.advanceBackfill taken
    · cases taken

end Heeded

section

variable [CharTables] [Crc32]

/-- In a sheltered run an acknowledged cancellation is seen by every later check, and no
backend call follows it. -/
theorem cancellation_heeded_of_run {capabilities : BackendCapabilities} {session : ArchiveSessionId}
    {headersEncrypted : Bool} {entries : List ArchiveEntry} {actions : List Action} {final : System}
    (sheltered : ActionRun.Guarded (step capabilities) Sheltered
      (System.initial session headersEncrypted entries) actions)
    (ran : ActionRun.run (step capabilities)
      (System.initial session headersEncrypted entries) actions = some final) :
    (∀ id ∈ final.acknowledged, final.Runs id → final.registry.isCancelled id = true ∧
      ∀ later, waitUntilCancelled id (final.registry :: later) = some ()) ∧
      ∀ dispatch ∈ final.dispatches, dispatch.acknowledged = false := by
  have heeded : Heeded final :=
    ActionRun.run_preserves_of_guarded Heeded
      (fun heeded => heeded.step)
      (Heeded.initially session headersEncrypted entries) sheltered ran
  refine ⟨?_, heeded.notAcknowledged⟩
  intro id acknowledged runs
  have cancelled := heeded.isCancelled (.inr acknowledged) runs
  refine ⟨cancelled, ?_⟩
  intro later
  simp [waitUntilCancelled, cancelled]

end

def cancelledInQueue : List Action :=
  spawnDeletion 1 1 1 ++ toQueue 1 ++
    [.call (.cancelRead 1), .call (.cancelTransition 1), .cancelReturn 1]

/-- A mutation that is cancelled in the queue sees it at its next poll. -/
theorem cancellation_heeded_in_queue : ∃ final,
    sampleRun cancelledInQueue = some final ∧ final.acknowledged = [1] ∧ final.Runs 1 ∧
      final.registry.isCancelled 1 = true := by
  have evaluated : (sampleRun cancelledInQueue).map
      (fun final => (final.acknowledged, decide (final.Runs 1))) = some ([1], true) := by
    decide +kernel
  obtain ⟨final, ran, seen⟩ := map_eq_some_iff.mp evaluated
  obtain ⟨acknowledged, runs⟩ := Prod.mk.inj seen
  have running : final.Runs 1 := of_decide_eq_true runs
  have heeded :=
    @cancellation_heeded_of_run asciiTables crc32Ieee fullFeatured 1 false
      twoFiles cancelledInQueue final (by decide +kernel) ran
  exact ⟨final, ran, acknowledged, running, (heeded.1 1 (by simp [acknowledged]) running).1⟩

def completion (id : OperationId) : List Action :=
  [.call (.mint .extract), .call (.insert id), .spawnOther id,
    .call (.transition id (.completed .none)), .call .evict, .finishOther id]

/-- A mutation is cancelled while it waits for the lock, 256 other operations complete, and
the lock becomes free. -/
def forgottenCancellation : List Action :=
  spawnDeletion 1 1 1 ++ spawnDeletion 2 1 2 ++
    toQueue 2 ++ toDispatch 2 ++ [.dispatch 2] ++ toQueue 1 ++
    [.call (.cancelRead 1), .call (.cancelTransition 1), .cancelReturn 1] ++
    (List.range 256).flatMap (fun index => completion (index + 3)) ++
    [.poll 1, .mutated 2 .failed, .advance 2] ++
    toDispatch 1 ++ [.dispatch 1]

/-- An acknowledged cancellation is forgotten and the mutation dispatched. -/
theorem forgotten_cancellation_dispatched : ∃ final,
    sampleRun forgottenCancellation = some final ∧ 1 ∈ final.acknowledged ∧ final.Runs 1 ∧
      final.registry.isCancelled 1 = false ∧
      ∃ dispatch ∈ final.dispatches, dispatch.operation = 1 ∧ dispatch.acknowledged = true := by
  have evaluated : (sampleRun forgottenCancellation).map (fun final =>
    (decide (1 ∈ final.acknowledged), decide (final.Runs 1), final.registry.isCancelled 1,
      final.dispatches.any fun dispatch =>
        dispatch.operation = 1 && dispatch.acknowledged)) =
        some (true, true, false, true) := by
    decide +kernel
  obtain ⟨final, ran, seen⟩ := Option.map_eq_some_iff.mp evaluated
  simp only [Prod.mk.injEq, decide_eq_true_eq, List.any_eq_true, Bool.and_eq_true] at seen
  exact ⟨final, ran, seen⟩

end ArchiveMutation

end Arclain
