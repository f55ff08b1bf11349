import Arclain.ArchiveMutation
import Arclain.OperationConclusion

namespace Arclain.ArchiveMutation

/-!
# The index a mutation is resolved against

Between a backend mutation that succeeded and the index written from the next listing, the
worker that made the difference holds the mutation lock.
-/

open KeyedMap OperationRegistry Text Option Worker

namespace Phase

def holds : Phase → Bool
  | .spawned | .started | .found | .admitted | .queued | .ending => false
  | _ => true

/-- The worker has changed the archive and not yet the index. -/
def isUnsettled : Phase → Bool
  | .landed | .listed _ _ => true
  | _ => false

/-- What a worker that holds the lock knows about the index. -/
def Fits (system : System) : Phase → Prop
  | .current | .approved => system.reflected = system.landed
  | .resolved _ reflects | .cleared _ reflects | .listed _ reflects => reflects = system.landed
  | _ => True

theorem fits_of_not_holds {phase : Phase} (waits : phase.holds = false) (system : System) :
    phase.Fits system := by
  cases phase <;> trivial

theorem holds_of_isUnsettled {phase : Phase} (unsettled : phase.isUnsettled = true) :
    phase.holds = true := by
  cases phase <;> first | rfl | cases unsettled

end Phase

/-- The invariant of every run in which no listing panics. -/
structure Synced (system : System) : Prop where
  valid : Valid system.shared
  begun : ∀ {id}, system.Runs id → system.registry.eventsOf id ≠ []
  held : ∀ {id request phase}, system.workers.lookup id = some (.mutation request phase) →
    phase.holds = true → system.session.lockHolder = some (.mutation id)
  fits : ∀ {id request phase}, system.workers.lookup id = some (.mutation request phase) →
    phase.Fits system
  settled : system.session.desynced = false → (∀ {id request phase},
    system.workers.lookup id = some (.mutation request phase) → phase.isUnsettled = false) →
    system.reflected = system.landed
  reflecting : ∀ dispatch ∈ system.dispatches, dispatch.reflects = dispatch.landed

namespace Synced

variable {system next : System}

theorem initially [CharTables] [Crc32] (session : ArchiveSessionId) (headersEncrypted : Bool)
    (entries : List ArchiveEntry) : Synced (System.initial session headersEncrypted entries) := by
  refine ⟨Valid.initially, ?_, ?_, ?_, fun _ _ => rfl, ?_⟩
  all_goals simp [System.initial, System.Runs]

variable {request : ArchiveMutationRequest} {phase : Phase}

theorem not_holds_of_holder (synced : Synced system) {id other : OperationId}
    (holder : system.session.lockHolder = some (.mutation id)) (different : other ≠ id)
    (bound : system.workers.lookup other = some (.mutation request phase)) :
    phase.holds = false := by
  cases holding : phase.holds with
  | false => rfl
  | true =>
    have same := (synced.held bound holding).symm.trans holder
    simp only [some.injEq, Holder.mutation.injEq] at same
    exact (different same).elim

variable {id : OperationId}

theorem reflected_of_holder (synced : Synced system)
    (bound : system.workers.lookup id = some (.mutation request phase)) (holds : phase.holds = true)
    (unchanged : phase.isUnsettled = false) (inSync : system.session.desynced = false) :
    system.reflected = system.landed := by
  apply synced.settled inSync
  intro other _ otherPhase otherBound
  by_cases same : other = id
  · subst other
    obtain ⟨rfl, rfl⟩ := mutation.inj (some.inj (otherBound.symm.trans bound))
    exact unchanged
  · cases unsettled : otherPhase.isUnsettled with
    | false => rfl
    | true =>
      have waits := synced.not_holds_of_holder (synced.held bound holds) same otherBound
      rw [Phase.holds_of_isUnsettled unsettled] at waits
      cases waits

theorem of_holder (synced : Synced system)
    (holder : system.session.lockHolder = some (.mutation id)) (runs : system.Runs id)
    (reports : Reports system.shared next.shared)
    (workers : next.workers = system.workers.insert id (.mutation request phase))
    (lock : next.session.lockHolder = system.session.lockHolder) (fits : phase.Fits next)
    (settled : next.session.desynced = false → phase.isUnsettled = false →
      next.reflected = next.landed)
    (reflecting : ∀ dispatch ∈ next.dispatches, dispatch.reflects = dispatch.landed) :
    Synced next := by
  have moved : next.workers.lookup id = some (.mutation request phase) := by
    rw [workers, lookup_insert_ite, if_pos rfl]
  have others : ∀ {other}, other ≠ id →
      next.workers.lookup other = system.workers.lookup other := by
    intro other different
    rw [workers, lookup_insert_ite, if_neg different]
  refine ⟨reports.valid synced.valid, ?_, ?_, ?_, ?_, reflecting⟩
  · intro other runsNext
    apply reports.eventsOf_ne_nil synced.valid
    by_cases same : other = id
    · rw [same]
      exact synced.begun runs
    · apply synced.begun
      unfold System.Runs at runsNext ⊢
      rwa [others same] at runsNext
  · intro other otherRequest otherPhase bound holds
    by_cases same : other = id
    · rw [lock, same]
      exact holder
    · rw [others same] at bound
      rw [lock]
      exact synced.held bound holds
  · intro other otherRequest otherPhase bound
    by_cases same : other = id
    · subst other
      obtain ⟨rfl, rfl⟩ := mutation.inj (some.inj (bound.symm.trans moved))
      exact fits
    · rw [others same] at bound
      exact Phase.fits_of_not_holds (synced.not_holds_of_holder holder same bound) next
  · intro inSync noneUnsettled
    exact settled inSync (noneUnsettled moved)

theorem of_waiter (synced : Synced system) (id : OperationId)
    (reports : Reports system.shared next.shared)
    (others : ∀ {other}, other ≠ id → next.workers.lookup other = system.workers.lookup other)
    (before : ∀ {request phase}, system.workers.lookup id = some (.mutation request phase) →
      phase.isUnsettled = false)
    (after : ∀ {request phase}, next.workers.lookup id = some (.mutation request phase) →
      phase.holds = false)
    (begun : next.Runs id → next.registry.eventsOf id ≠ [])
    (lock : ∀ {other}, other ≠ id → system.session.lockHolder = some (.mutation other) →
      next.session.lockHolder = some (.mutation other))
    (desynced : next.session.desynced = system.session.desynced)
    (reflected : next.reflected = system.reflected) (landed : next.landed = system.landed)
    (dispatches : next.dispatches = system.dispatches) : Synced next := by
  refine ⟨reports.valid synced.valid, ?_, ?_, ?_, ?_, ?_⟩
  · intro other runs
    by_cases same : other = id
    · subst other
      exact begun runs
    · apply reports.eventsOf_ne_nil synced.valid
      apply synced.begun
      unfold System.Runs at runs ⊢
      rwa [others same] at runs
  · intro other request phase bound holds
    by_cases same : other = id
    · subst other
      rw [after bound] at holds
      cases holds
    · rw [others same] at bound
      exact lock same (synced.held bound holds)
  · intro other request phase bound
    by_cases same : other = id
    · subst other
      exact Phase.fits_of_not_holds (after bound) next
    · rw [others same] at bound
      have fits := synced.fits bound
      cases phase <;> simp_all [Phase.Fits]
  · intro inSync noneUnsettled
    rw [reflected, landed]
    apply synced.settled (desynced ▸ inSync)
    intro other request phase bound
    by_cases same : other = id
    · subst other
      exact before bound
    · rw [← others same] at bound
      exact noneUnsettled bound
  · rw [dispatches]
    exact synced.reflecting

theorem of_frame (synced : Synced system) (reports : Reports system.shared next.shared)
    (workers : next.workers = system.workers)
    (lock : ∀ {id}, system.session.lockHolder = some (.mutation id) →
      next.session.lockHolder = some (.mutation id))
    (desynced : next.session.desynced = system.session.desynced)
    (reflected : next.reflected = system.reflected) (landed : next.landed = system.landed)
    (dispatches : next.dispatches = system.dispatches) : Synced next := by
  refine ⟨reports.valid synced.valid, ?_, ?_, ?_, ?_, ?_⟩
  · intro id runs
    apply reports.eventsOf_ne_nil synced.valid
    apply synced.begun
    unfold System.Runs at runs ⊢
    rwa [workers] at runs
  · intro id request phase bound holds
    rw [workers] at bound
    exact lock (synced.held bound holds)
  · intro id request phase bound
    rw [workers] at bound
    have fits := synced.fits bound
    cases phase <;> simp_all [Phase.Fits]
  · intro inSync noneUnsettled
    rw [reflected, landed]
    apply synced.settled (desynced ▸ inSync)
    intro id request phase bound
    rw [← workers] at bound
    exact noneUnsettled bound
  · rw [dispatches]
    exact synced.reflecting

variable {worker : Worker}

theorem insert_waiting (synced : Synced system) (bound : system.workers.lookup id = some worker)
    (before : ∀ {request phase}, worker = .mutation request phase → phase.isUnsettled = false)
    {later : Worker}
    (after : ∀ {request phase}, later = .mutation request phase → phase.holds = false) :
    Synced { system with workers := system.workers.insert id later } := by
  refine synced.of_waiter id (.inl rfl) ?_ ?_ ?_ ?_ ?_ rfl rfl rfl rfl
  · intro other different
    rw [lookup_insert_ite, if_neg different]
  · intro request phase found
    exact before (some.inj (bound.symm.trans found))
  · intro request phase found
    rw [lookup_insert_ite, if_pos rfl] at found
    exact after (some.inj found)
  · intro _
    exact synced.begun (by simp [System.Runs, bound])
  · intro other _ holder
    exact holder

theorem setPhase_waiting (synced : Synced system) (bound : system.workers.lookup id = some worker)
    (before : ∀ {request phase}, worker = .mutation request phase → phase.isUnsettled = false)
    (after : phase.holds = false) : Synced (system.setPhase id request phase) := by
  refine synced.insert_waiting bound before fun same => ?_
  obtain ⟨rfl, rfl⟩ := mutation.inj same
  exact after

theorem publish (synced : Synced system) (id : OperationId) (state : OperationState) :
    Synced (system.publish id state) :=
  synced.of_frame (.inr ⟨.transition id state, rfl⟩) rfl
    (fun holder => holder) rfl rfl rfl rfl

variable {after : Phase}

section

variable (synced : Synced system)
include synced

theorem setPhase_holding
    (bound : system.workers.lookup id = some (.mutation request phase)) (holds : phase.holds = true)
    (unchanged : phase.isUnsettled = false) (fits : after.Fits system) :
    Synced (system.setPhase id request after) := by
  refine synced.of_holder (synced.held bound holds) (by simp [System.Runs, bound])
    (.inl rfl) rfl rfl ?_ ?_ synced.reflecting
  · cases after <;> exact fits
  · intro inSync _
    exact synced.reflected_of_holder bound holds unchanged inSync

theorem finish (bound : system.workers.lookup id = some worker)
    (before : ∀ {request phase}, worker = .mutation request phase → phase.isUnsettled = false) :
    Synced ({ system with workers := system.workers.erase id }.release (.mutation id)) := by
  have gone : (system.workers.erase id).lookup id = none := AList.lookup_erase _ _
  obtain ⟨_, shape, keeps⟩ :=
    { system with workers := system.workers.erase id }.release_eq (.mutation id)
  rw [shape]
  refine synced.of_waiter id (.inl rfl) ?_ ?_ ?_ ?_ ?_ rfl rfl rfl rfl
  · exact AList.lookup_erase_ne
  · intro request phase found
    exact before (some.inj (bound.symm.trans found))
  · intro request phase found
    exact nomatch gone.symm.trans found
  · intro runs
    exact (runs gone).elim
  · exact fun different holder => keeps (by simpa using different) holder

theorem release_backfill (task : Nat) :
    Synced (system.release (.backfill task)) := by
  unfold System.release
  split
  next holder =>
    refine synced.of_frame (.inl rfl) rfl ?_ rfl rfl rfl rfl
    intro _ mine
    rw [holder] at mine
    cases mine
  · exact synced

end

theorem relisted (synced : Synced system)
    (bound : system.workers.lookup id = some (.mutation request .landed))
    {outcome : Outcome (List ArchiveEntry)} (noPanic : outcome ≠ .panicked) :
    Synced (relisted system id request outcome) := by
  have runs : system.Runs id := by simp [System.Runs, bound]
  have holder := synced.held bound rfl
  cases outcome with
  | answered =>
    refine synced.of_holder holder runs (.inl rfl) rfl rfl rfl ?_ synced.reflecting
    intro _ settled
    cases settled
  | failed =>
    refine synced.of_holder holder runs (.inr ⟨.transition id
      (.failed (relistAfterMutationFailedError request.sessionId)), rfl⟩)
      rfl rfl trivial ?_ synced.reflecting
    intro inSync
    cases inSync
  | panicked => exact (noPanic rfl).elim

theorem acquire (synced : Synced system)
    (bound : system.workers.lookup id = some (.mutation request .queued))
    (unlocked : system.session.lockHolder = none) : Synced ({ system with
      session := { system.session with
        lockHolder := some (.mutation id) } }.setPhase id request .locked) := by
  have waiting : ∀ {other otherRequest otherPhase},
      system.workers.lookup other = some (.mutation otherRequest otherPhase) →
      otherPhase.holds = false := by
    intro other otherRequest otherPhase otherBound
    cases holding : otherPhase.holds with
    | false => rfl
    | true =>
      rw [synced.held otherBound holding] at unlocked
      cases unlocked
  have granted :
      Synced { system with
        session := { system.session with
          lockHolder := some (.mutation id) } } := by
    refine synced.of_frame (.inl rfl) rfl ?_ rfl rfl rfl rfl
    intro other holder
    rw [unlocked] at holder
    cases holder
  refine granted.of_holder rfl (by simp [System.Runs, bound]) (.inl rfl) rfl
    rfl trivial ?_ synced.reflecting
  intro inSync _
  apply synced.settled inSync
  intro other otherRequest otherPhase otherBound
  cases unsettled : otherPhase.isUnsettled with
  | false => rfl
  | true =>
    have waits := waiting otherBound
    rw [Phase.holds_of_isUnsettled unsettled] at waits
    cases waits

theorem dispatch (synced : Synced system) {mutation : ResolvedMutation} {reflects : Nat}
    (bound : system.workers.lookup id = some (.mutation request (.cleared mutation reflects))) :
    Synced ((system.logDispatch id mutation reflects).setPhase id request .mutating) := by
  refine synced.of_holder (synced.held bound rfl) (by simp [System.Runs, bound])
    (.inl rfl) rfl rfl trivial ?_ ?_
  · intro inSync _
    exact synced.reflected_of_holder bound rfl rfl inSync
  · intro dispatched mem
    rcases List.mem_append.mp mem with earlier | last
    · exact synced.reflecting dispatched earlier
    · obtain rfl := List.mem_singleton.mp last
      exact synced.fits bound

theorem of_leads (synced : Synced system)
    (bound : system.workers.lookup id = some (.mutation request phase))
    (leads : Leads system.session system.reflected request phase after) :
    Synced (system.setPhase id request after) := by
  have fits := synced.fits bound
  have waits (unchanged : phase.isUnsettled = false) (waiting : after.holds = false) :
      Synced (system.setPhase id request after) := by
    refine synced.setPhase_waiting bound ?_ waiting
    intro _ _ same
    obtain ⟨rfl, rfl⟩ := mutation.inj same
    exact unchanged
  cases leads with
  | started | found | admitted | queued | waiting => exact waits rfl rfl
  | current inSync =>
    exact synced.setPhase_holding bound rfl rfl (synced.reflected_of_holder bound rfl rfl inSync)
  | approved | resolved mutation | cleared mutation =>
    exact synced.setPhase_holding bound rfl rfl fits
  | announced => exact synced.setPhase_holding bound rfl rfl trivial
  | ending shown =>
    refine waits ?_ rfl
    cases phase <;> first | rfl | cases shown

theorem of_moves [CharTables] [Crc32] {request : ArchiveMutationRequest} {phase : Phase}
    (synced : Synced system) (bound : system.workers.lookup id = some (.mutation request phase))
    (moves : Moves system id request phase next) : Synced next := by
  have runs : system.Runs id := by simp [System.Runs, bound]
  cases moves with
  | goes leads => exact synced.of_leads bound leads
  | checks leads =>
    unfold System.checkpoint
    split
    · exact synced.of_leads bound leads.to_ending
    · exact synced.of_leads bound leads
  | publishes state leads => exact (synced.publish id state).of_leads bound leads
  | locks unlocked => exact synced.acquire bound unlocked
  | dispatches => exact synced.dispatch bound
  | lands =>
    refine synced.of_holder (synced.held bound rfl) runs (.inl rfl) rfl rfl trivial ?_
      synced.reflecting
    intro _ settled
    cases settled
  | reindexes =>
    exact synced.of_holder (synced.held bound rfl) runs (.inl rfl) rfl rfl
      trivial (fun _ _ => synced.fits bound) synced.reflecting
  | bumps =>
    refine synced.of_holder (synced.held bound rfl) runs (.inl rfl) rfl rfl
      trivial ?_ synced.reflecting
    intro inSync _
    exact synced.reflected_of_holder bound rfl rfl inSync
  | returns =>
    refine synced.finish bound ?_
    intro _ _ same
    obtain ⟨rfl, rfl⟩ := mutation.inj same
    rfl

theorem advanceBackfill [CharTables] [Crc32] (synced : Synced system) {task : Nat}
    {backfill : Backfill} (taken : advanceBackfill system task backfill = some next) :
    Synced next := by
  cases backfill with
  | locked revision sums =>
    simp only [ArchiveMutation.advanceBackfill] at taken
    split at taken <;> obtain rfl := some.inj taken <;>
      exact synced.of_frame (.inl rfl) rfl id rfl rfl rfl rfl
  | patched =>
    cases taken
    exact synced.of_frame (.inl rfl) rfl id rfl rfl rfl rfl
  | ending =>
    cases taken
    have erased : Synced { system with backfills := system.backfills.erase task } :=
      synced.of_frame (.inl rfl) rfl id rfl rfl rfl rfl
    exact erased.release_backfill task
  | computing revision | computed revision sums => cases taken

theorem insert (synced : Synced system) {kind : OperationKind}
    (minted : system.shared.minted.lookup id = some kind) : Synced { system with
      shared := { system.shared with
        registry := system.registry.insertAccepted id kind
        minted := system.shared.minted.erase id }
      workers := system.workers.insert id .unspawned } := by
  have idle : system.workers.lookup id = none := by
    by_contra runs
    exact synced.begun runs (synced.valid.fresh.uninserted minted)
  refine synced.of_waiter id (.inr ⟨.insert id, ?_⟩) ?_ ?_ ?_ ?_
    (fun _ holder => holder) rfl rfl rfl rfl
  · simp only [callStep, minted]
    rfl
  · intro _ different
    rw [lookup_insert_ite, if_neg different]
  · intro request phase found
    rw [idle] at found
    cases found
  · intro request phase found
    rw [lookup_insert_ite, if_pos rfl] at found
    cases found
  · intro _
    simp [System.registry, OperationRegistry.insertAccepted, eventsOf_publish]

theorem stepCall (synced : Synced system) {call : Call} (taken : stepCall system call = some next) :
    Synced next := by
  have atomicSection : ∀ {call shared}, callStep system.shared call = some shared →
      ∀ returning acknowledged,
        Synced { system with
          shared := shared
          returning := returning
          acknowledged := acknowledged } := by
    intro call shared called returning acknowledged
    exact synced.of_frame (.inr ⟨call, called⟩) rfl id rfl rfl rfl rfl
  unfold ArchiveMutation.stepCall at taken
  split at taken
  next id =>
    simp only [callStep] at taken
    cases minted : system.shared.minted.lookup id with
    | none => simp [minted] at taken
    | some =>
      simp only [minted, some.injEq] at taken
      subst next
      exact synced.insert minted
  · unfold cancelTransition at taken
    split at taken
    next called _ =>
      split at taken <;> obtain rfl := some.inj taken <;> exact atomicSection called _ _
    next called _ =>
      cases taken
      exact atomicSection called _ _
    · cases taken
  · split at taken
    next called =>
      cases taken
      exact atomicSection called _ _
    · cases taken

theorem finishOther (synced : Synced system) (isOther : system.workers.lookup id = some .other) :
    Synced { system with workers := system.workers.erase id } := by
  refine synced.of_waiter id (.inl rfl) ?_ ?_ ?_ ?_ (fun _ holder => holder) rfl rfl rfl rfl
  · intro _ different
    rw [lookup_erase_ite, if_neg different]
  · intro request phase found
    rw [isOther] at found
    cases found
  · intro request phase found
    rw [lookup_erase_ite, if_pos rfl] at found
    cases found
  · intro runs
    unfold System.Runs at runs
    rw [lookup_erase_ite, if_pos rfl] at runs
    exact (runs rfl).elim

variable {capabilities : BackendCapabilities}

theorem step [CharTables] [Crc32] (synced : Synced system)
    {action : Action} (noPanic : ∀ id, action ≠ .relisted id .panicked)
    (taken : step capabilities system action = some next) : Synced next := by
  have unframed : ∀ {session' sessionOpen' backfills'},
      session'.desynced = system.session.desynced →
      (∀ {id}, system.session.lockHolder = some (.mutation id) →
        session'.lockHolder = some (.mutation id)) →
      Synced { system with
        session := session'
        sessionOpen := sessionOpen'
        backfills := backfills' } := by
    intro session' sessionOpen' backfills' desynced lock
    exact synced.of_frame (.inl rfl) rfl lock desynced rfl rfl rfl
  cases action with
  | call call => exact synced.stepCall taken
  | cancelReturn id =>
    simp only [ArchiveMutation.step] at taken
    split at taken
    · cases taken
      exact synced.of_frame (.inr ⟨.evict, rfl⟩) rfl (fun holder => holder) rfl rfl rfl rfl
    · cases taken
  | spawnOther id =>
    simp only [ArchiveMutation.step] at taken
    split at taken
    next unspawned =>
      cases taken
      exact synced.insert_waiting unspawned (by simp) (by simp)
    · cases taken
  | finishOther id =>
    simp only [ArchiveMutation.step] at taken
    split at taken
    next other =>
      cases taken
      exact synced.finishOther other
    · cases taken
  | spawnMutation id request =>
    simp only [ArchiveMutation.step] at taken
    split at taken
    next unspawned =>
      cases taken
      refine synced.setPhase_waiting unspawned ?_ rfl
      intro _ _ same
      cases same
    · cases taken
  | advance id | acquire id | poll id | dispatch id | shutDown id | mutated id outcome =>
    obtain ⟨request, _, bound, moves⟩ := moves_of_step rfl taken
    exact synced.of_moves bound moves
  | relisted id outcome =>
    simp only [ArchiveMutation.step] at taken
    split at taken
    next found =>
      cases taken
      apply synced.relisted (mutationOf_eq_some_iff.mp found)
      rintro rfl
      exact noPanic id rfl
    · cases taken
  | closeSession =>
    cases taken
    exact unframed rfl (fun holder => holder)
  | backfillStart task | backfillAbandon task =>
    simp only [ArchiveMutation.step] at taken
    split at taken
    · cases taken
      exact unframed rfl (fun holder => holder)
    · cases taken
  | backfillCompute task =>
    simp only [ArchiveMutation.step] at taken
    split at taken
    · split at taken
      · cases taken
        exact unframed rfl (fun holder => holder)
      · cases taken
    · cases taken
  | backfillAcquire task =>
    simp only [ArchiveMutation.step] at taken
    split at taken
    next unlocked =>
      cases taken
      refine unframed ?_ ?_
      · rfl
      · intro id holder
        rw [unlocked] at holder
        cases holder
    · cases taken
  | backfillAdvance task =>
    simp only [ArchiveMutation.step] at taken
    split at taken
    · exact synced.advanceBackfill taken
    · cases taken

end Synced

section

variable [CharTables] [Crc32]

/-- Where no listing after a mutation panics, each backend call has ids of an index that
reflects all mutations before. -/
theorem dispatches_reflect_landed {capabilities : BackendCapabilities} {session : ArchiveSessionId}
    {headersEncrypted : Bool} {entries : List ArchiveEntry} {actions : List Action} {final : System}
    (noPanic : ∀ id, Action.relisted id .panicked ∉ actions)
    (ran : ActionRun.run (step capabilities)
      (System.initial session headersEncrypted entries) actions = some final) :
    ∀ dispatch ∈ final.dispatches, dispatch.reflects = dispatch.landed := by
  have guarded : ActionRun.Guarded (step capabilities)
      (fun _ action => ∀ id, action ≠ .relisted id .panicked)
      (System.initial session headersEncrypted entries) actions := by
    apply ActionRun.guarded_of_forall
    rintro action mem _ id rfl
    exact noPanic id mem
  have synced : Synced final :=
    ActionRun.run_preserves_of_guarded Synced
      (fun synced => synced.step)
      (Synced.initially session headersEncrypted entries) guarded ran
  exact synced.reflecting

end

def landedDeletion : List Action :=
  spawnDeletion 1 1 1 ++ toQueue 1 ++ toDispatch 1 ++ [.dispatch 1, .mutated 1 (.answered ()),
    .relisted 1 (.answered (twoFiles.drop 1))] ++
    List.replicate 5 (.advance 1)

/-- The deletion after one that landed is resolved against the new listing. -/
theorem dispatches_reflect_landed_of_two_deletions : ∃ final,
    sampleRun (landedDeletion ++ spawnDeletion 2 2 2 ++ toQueue 2 ++
      toDispatch 2 ++ [.dispatch 2]) = some final ∧ final.landed = 1 ∧ final.dispatches.length = 2 ∧
      ∀ dispatch ∈ final.dispatches, dispatch.reflects = dispatch.landed := by
  have evaluated : (sampleRun (landedDeletion ++ spawnDeletion 2 2 2 ++ toQueue 2 ++
      toDispatch 2 ++ [.dispatch 2])).map
      (fun final => (final.landed, final.dispatches.length)) = some (1, 2) := by
    decide +kernel
  obtain ⟨final, ran, seen⟩ := map_eq_some_iff.mp evaluated
  obtain ⟨landed, dispatched⟩ := Prod.mk.inj seen
  refine ⟨final, ran, landed, dispatched, ?_⟩
  refine @dispatches_reflect_landed asciiTables crc32Ieee _ _ _ _ _ final ?_ ran
  intro _ mem
  simp [landedDeletion, spawnDeletion, toQueue, toDispatch] at mem

/-- After a listing that panics the next deletion is dispatched with ids
resolved against the listing before the first one. -/
theorem stale_dispatch_after_panicked_listing : ∃ final,
    sampleRun (spawnDeletion 1 1 1 ++ spawnDeletion 2 1 2 ++
      toQueue 1 ++ toQueue 2 ++ toDispatch 1 ++
      [.dispatch 1, .mutated 1 (.answered ()), .relisted 1 .panicked, .advance 1] ++
      toDispatch 2 ++ [.dispatch 2]) = some final ∧
      ∃ dispatch ∈ final.dispatches, dispatch.operation = 2 ∧ dispatch.reflects = 0 ∧
        dispatch.landed = 1 := by
  have evaluated : (sampleRun (spawnDeletion 1 1 1 ++ spawnDeletion 2 1 2 ++
      toQueue 1 ++ toQueue 2 ++ toDispatch 1 ++
      [.dispatch 1, .mutated 1 (.answered ()), .relisted 1 .panicked, .advance 1] ++
      toDispatch 2 ++ [.dispatch 2])).map
      (fun final => final.dispatches.any fun dispatch =>
        dispatch.operation = 2 && dispatch.reflects = 0 && dispatch.landed = 1) =
        some true := by
    decide +kernel
  obtain ⟨final, ran, seen⟩ := map_eq_some_iff.mp evaluated
  obtain ⟨dispatch, mem, matching⟩ := List.any_eq_true.mp seen
  simp only [Bool.and_eq_true, decide_eq_true_eq] at matching
  exact ⟨final, ran, dispatch, mem, matching.1.1, matching.1.2, matching.2⟩

end Arclain.ArchiveMutation
