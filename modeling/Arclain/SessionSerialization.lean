import Arclain.EntryIdentity
import Arclain.MutationSync

namespace Arclain.ArchiveMutation

/-!
# The mutation lock serializes the sections of a session

Whoever replaces the index or bumps the revision holds the mutation lock, and so does a
worker between its revision check and the end of its backend call.
-/

open KeyedMap Option EntryIndex Phase Worker

open OperationRegistry Text

namespace Phase

/-- The worker compared its revision and has not resolved its ids yet. -/
def isChecked : Phase → Bool
  | .current | .approved => true
  | _ => false

theorem holds_of_isChecked {phase : Phase} (checked : phase.isChecked = true) :
    phase.holds = true := by
  cases phase <;> first | rfl | cases checked

end Phase

def Backfill.holds : Backfill → Bool
  | .locked _ _ | .patched => true
  | _ => false

/-- Some task has replaced the index and not yet bumped the revision. -/
def Swapping (system : System) : Prop :=
  (∃ id request, system.workers.lookup id = some (.mutation request .indexed)) ∨
  ∃ task, system.backfills.lookup task = some .patched

/-- Whoever works on the session holds its lock, an admitted worker has the current
revision, and the index is numbered. -/
structure Serialized (system : System) : Prop where
  valid : Valid system.shared
  begun : ∀ {id}, system.Runs id → system.registry.eventsOf id ≠ []
  held : ∀ {id request phase}, system.workers.lookup id = some (.mutation request phase) →
    phase.holds = true → system.session.lockHolder = some (.mutation id)
  heldBackfill : ∀ {task backfill}, system.backfills.lookup task = some backfill →
    backfill.holds = true → system.session.lockHolder = some (.backfill task)
  checked : ∀ {id request phase}, system.workers.lookup id = some (.mutation request phase) →
    phase.isChecked = true → request.expectedRevision = system.session.revision
  numbered : system.session.index.Numbered system.session.assigner

/-- What one section shows to readers: nothing new, a new index under the old revision, or
the next revision of it. -/
inductive Shows (system next : System) : Prop where
  | kept (index : next.session.index = system.session.index)
      (revision : next.session.revision = system.session.revision)
      (swapping : Swapping system → Swapping next)
  | swapped (revision : next.session.revision = system.session.revision) (swapping : Swapping next)
  | bumped (index : next.session.index = system.session.index)
      (revision : next.session.revision = system.session.revision + 1)

namespace Serialized

variable {system next : System}

theorem initially [CharTables] [Crc32] (session : ArchiveSessionId) (headersEncrypted : Bool)
    (entries : List ArchiveEntry) :
    Serialized (System.initial session headersEncrypted entries) := by
  refine ⟨Valid.initially, ?_, ?_, ?_, ?_, ?_⟩
  · intro id runs
    simp [System.initial, System.Runs] at runs
  · intro id request phase bound
    simp [System.initial] at bound
  · intro _ _ bound
    simp [System.initial] at bound
  · intro id request phase bound
    simp [System.initial] at bound
  · exact (build_numbered entries EntryIdAssigner.Sound.initially).1

theorem of_worker (serialized : Serialized system) (id : OperationId)
    (reports : Reports system.shared next.shared)
    (begun : next.Runs id → next.registry.eventsOf id ≠ [])
    (others : ∀ {other}, other ≠ id → next.workers.lookup other = system.workers.lookup other)
    (backfills : next.backfills = system.backfills)
    (lock : ∀ {holder}, holder ≠ .mutation id → system.session.lockHolder = some holder →
      next.session.lockHolder = some holder)
    (revision : next.session.revision = system.session.revision ∨
      system.session.lockHolder = some (.mutation id))
    (own : ∀ {request phase}, next.workers.lookup id = some (.mutation request phase) →
      phase.holds = true → next.session.lockHolder = some (.mutation id) ∧ (phase.isChecked = true →
        request.expectedRevision = next.session.revision))
    (numbered : next.session.index.Numbered next.session.assigner) : Serialized next := by
  refine ⟨reports.valid serialized.valid, ?_, ?_, ?_, ?_, numbered⟩
  · intro other runs
    by_cases same : other = id
    · subst other
      exact begun runs
    · apply reports.eventsOf_ne_nil serialized.valid
      apply serialized.begun
      unfold System.Runs at runs ⊢
      rwa [others same] at runs
  · intro other request phase bound holds
    by_cases same : other = id
    · subst other
      exact (own bound holds).1
    · rw [others same] at bound
      apply lock _ (serialized.held bound holds)
      simpa using same
  · intro _ _ bound holds
    rw [backfills] at bound
    exact lock (by simp) (serialized.heldBackfill bound holds)
  · intro other request phase bound checked
    by_cases same : other = id
    · subst other
      exact (own bound (holds_of_isChecked checked)).2 checked
    · rw [others same] at bound
      have holder := serialized.held bound (holds_of_isChecked checked)
      rcases revision with kept | owned
      · rw [kept]
        exact serialized.checked bound checked
      · rw [owned] at holder
        simp only [some.injEq, Holder.mutation.injEq] at holder
        exact (same holder.symm).elim

theorem of_backfill (serialized : Serialized system) (task : Nat)
    (shared : next.shared = system.shared) (workers : next.workers = system.workers)
    (others : ∀ {other}, other ≠ task → next.backfills.lookup other = system.backfills.lookup other)
    (lock : ∀ {holder}, holder ≠ .backfill task → system.session.lockHolder = some holder →
      next.session.lockHolder = some holder)
    (revision : next.session.revision = system.session.revision ∨
      system.session.lockHolder = some (.backfill task))
    (own : ∀ {backfill}, next.backfills.lookup task = some backfill → backfill.holds = true →
      next.session.lockHolder = some (.backfill task))
    (numbered : next.session.index.Numbered next.session.assigner) : Serialized next := by
  refine ⟨shared ▸ serialized.valid, ?_, ?_, ?_, ?_, numbered⟩
  · intro id runs
    unfold System.Runs at runs
    rw [workers] at runs
    rw [System.registry, shared]
    exact serialized.begun runs
  · intro id request phase bound holds
    rw [workers] at bound
    exact lock (by simp) (serialized.held bound holds)
  · intro other backfill bound holds
    by_cases same : other = task
    · subst other
      exact own bound holds
    · rw [others same] at bound
      apply lock _ (serialized.heldBackfill bound holds)
      simpa using same
  · intro id request phase bound checked
    rw [workers] at bound
    have holder := serialized.held bound (holds_of_isChecked checked)
    rcases revision with kept | owned
    · rw [kept]
      exact serialized.checked bound checked
    · rw [owned] at holder
      cases holder

theorem begun_of_worker (serialized : Serialized system) {id : OperationId} {worker : Worker}
    (bound : system.workers.lookup id = some worker) (reports : Reports system.shared next.shared) :
    next.registry.eventsOf id ≠ [] := by
  apply reports.eventsOf_ne_nil serialized.valid
  apply serialized.begun
  simp [System.Runs, bound]

end Serialized

section

variable {system next : System}

def Proceeds (system next : System) : Prop := Serialized next ∧ Shows system next

variable {id : OperationId}

theorem swapping_of_other_worker (others : ∀ {other}, other ≠ id →
    next.workers.lookup other = system.workers.lookup other)
    (notIndexed : ∀ request, system.workers.lookup id ≠ some (.mutation request .indexed))
    (backfills : next.backfills = system.backfills) (swapping : Swapping system) :
    Swapping next := by
  rcases swapping with ⟨other, request, bound⟩ | ⟨task, bound⟩
  · left
    refine ⟨other, request, ?_⟩
    rw [others]
    · exact bound
    · rintro rfl
      exact notIndexed request bound
  · right
    rw [backfills]
    exact ⟨task, bound⟩

variable {task : Nat}

theorem swapping_of_other_backfill (workers : next.workers = system.workers)
    (others : ∀ {other}, other ≠ task → next.backfills.lookup other = system.backfills.lookup other)
    (notPatched : system.backfills.lookup task ≠ some .patched) (swapping : Swapping system) :
    Swapping next := by
  rcases swapping with ⟨id, request, bound⟩ | ⟨other, bound⟩
  · left
    rw [workers]
    exact ⟨id, request, bound⟩
  · right
    refine ⟨other, ?_⟩
    rw [others]
    · exact bound
    · rintro rfl
      exact notPatched bound

variable {request : ArchiveMutationRequest} {before after : Phase}

section

variable (serialized : Serialized system)
include serialized

theorem proceeds_of_phase (bound : system.workers.lookup id = some (.mutation request before))
    (notIndexed : before ≠ .indexed) (holds : after.holds = true → before.holds = true)
    (checked : after.isChecked = true → request.expectedRevision = system.session.revision)
    (reports : Reports system.shared next.shared)
    (workers : next.workers = system.workers.insert id (.mutation request after))
    (session : next.session = system.session) (backfills : next.backfills = system.backfills) :
    Proceeds system next := by
  have others : ∀ {other}, other ≠ id →
      next.workers.lookup other = system.workers.lookup other := by
    intro other different
    rw [workers, lookup_insert_ite, if_neg different]
  constructor
  · refine serialized.of_worker id reports
      (fun _ => serialized.begun_of_worker bound reports) others backfills
      ?_ ?_ ?_ ?_
    · intro _ _ held
      rw [session]
      exact held
    · rw [session]
      exact .inl rfl
    · intro found _ moved holding
      rw [workers, lookup_insert_ite, if_pos rfl] at moved
      obtain ⟨rfl, rfl⟩ := mutation.inj (some.inj moved)
      rw [session]
      exact ⟨serialized.held bound (holds holding), checked⟩
    · rw [session]
      exact serialized.numbered
  · refine .kept (by rw [session]) (by rw [session]) ?_
    apply swapping_of_other_worker others _ backfills
    intro found indexed
    obtain ⟨-, same⟩ := mutation.inj (some.inj (bound.symm.trans indexed))
    exact notIndexed same

theorem proceeds_of_bump (bound : system.workers.lookup id = some (.mutation request before))
    (holding : before.holds = true) (notChecked : after.isChecked = false)
    (reports : Reports system.shared next.shared)
    (workers : next.workers = system.workers.insert id (.mutation request after))
    (lock : next.session.lockHolder = system.session.lockHolder)
    (index : next.session.index = system.session.index)
    (assigner : next.session.assigner = system.session.assigner)
    (revision : next.session.revision = system.session.revision + 1)
    (backfills : next.backfills = system.backfills) : Proceeds system next := by
  have holder := serialized.held bound holding
  refine ⟨serialized.of_worker id reports
    (fun _ => serialized.begun_of_worker bound reports) ?_ backfills ?_
    (.inr holder) ?_ ?_,
    .bumped index revision⟩
  · intro other different
    rw [workers, lookup_insert_ite, if_neg different]
  · intro other _ held
    rw [lock]
    exact held
  · intro _ _ moved _
    rw [workers, lookup_insert_ite, if_pos rfl] at moved
    obtain ⟨rfl, rfl⟩ := mutation.inj (some.inj moved)
    rw [lock, notChecked]
    exact ⟨holder, nofun⟩
  · rw [index, assigner]
    exact serialized.numbered

theorem proceeds_of_reindex [CharTables] [Crc32]
    {request : ArchiveMutationRequest} {entries : List ArchiveEntry} {reflects : Nat}
    (bound : system.workers.lookup id = some (.mutation request (.listed entries reflects)))
    (shared : next.shared = system.shared)
    (workers : next.workers = system.workers.insert id (.mutation request .indexed))
    (session : next.session =
      { system.session with
        index := (build entries system.session.assigner).1
        assigner := (build entries system.session.assigner).2 })
    (backfills : next.backfills = system.backfills) :
    Proceeds system next := by
  have moved : next.workers.lookup id = some (.mutation request .indexed) := by
    rw [workers, lookup_insert_ite, if_pos rfl]
  have rebuilt := build_numbered entries serialized.numbered.sound
  refine ⟨serialized.of_worker id (.inl shared)
    (fun _ => serialized.begun_of_worker bound (.inl shared)) ?_ backfills
    ?_ ?_ ?_ ?_,
    .swapped (by rw [session]) (.inl ⟨id, request, moved⟩)⟩
  · intro other different
    rw [workers, lookup_insert_ite, if_neg different]
  · intro other _ held
    rw [session]
    exact held
  · rw [session]
    exact .inl rfl
  · intro _ _ again _
    obtain ⟨rfl, rfl⟩ := mutation.inj (some.inj (moved.symm.trans again))
    rw [session]
    exact ⟨serialized.held bound rfl, nofun⟩
  · rw [session]
    exact rebuilt.1

theorem proceeds_of_return {worker : Worker} (bound : system.workers.lookup id = some worker)
    (notIndexed : ∀ request, worker ≠ .mutation request .indexed) :
    Proceeds system ({ system with workers := system.workers.erase id }.release
      (.mutation id)) := by
  have others {other : OperationId} (different : other ≠ id) :
      (system.workers.erase id).lookup other = system.workers.lookup other :=
    AList.lookup_erase_ne different
  have gone : (system.workers.erase id).lookup id = none := AList.lookup_erase _ _
  obtain ⟨_, shape, keeps⟩ :=
    { system with workers := system.workers.erase id }.release_eq (.mutation id)
  rw [shape]
  constructor
  · refine serialized.of_worker id (.inl rfl) ?_ others rfl keeps (.inl rfl) ?_ serialized.numbered
    · intro runs
      exact (runs gone).elim
    · intro request _ found
      exact nomatch gone.symm.trans found
  · refine .kept rfl rfl (swapping_of_other_worker others ?_ rfl)
    intro request indexed
    rw [bound] at indexed
    exact notIndexed request (some.inj indexed)

end

variable {capabilities : BackendCapabilities}

section

variable (serialized : Serialized system)
include serialized

theorem proceeds_of_relisted (bound : system.workers.lookup id = some (.mutation request .landed))
    (outcome : Outcome (List ArchiveEntry)) :
    Proceeds system (relisted system id request outcome) := by
  cases outcome with
  | answered =>
    exact proceeds_of_phase serialized bound (by simp) (fun _ => rfl)
      (by simp [isChecked]) (.inl rfl) rfl rfl rfl
  | failed =>
    exact proceeds_of_bump serialized bound rfl rfl
      (.inr ⟨.transition id (.failed (relistAfterMutationFailedError request.sessionId)), rfl⟩)
      rfl rfl rfl rfl rfl rfl
  | panicked =>
    exact proceeds_of_phase serialized bound (by simp) (by simp [holds])
      (by simp [isChecked])
      (.inr ⟨.transition id (.failed internalJoinError), rfl⟩) rfl rfl rfl

theorem proceeds_of_acquire (bound : system.workers.lookup id = some (.mutation request .queued))
    (unlocked : system.session.lockHolder = none) : Proceeds system
      ({ system with
        session := { system.session with
          lockHolder := some (.mutation id) } }.setPhase id request .locked) := by
  have others : ∀ {other}, other ≠ id →
      (system.workers.insert id (.mutation request .locked)).lookup other =
        system.workers.lookup other := by
    intro other different
    rw [lookup_insert_ite, if_neg different]
  constructor
  · refine serialized.of_worker id (.inl rfl)
      (fun _ => serialized.begun_of_worker bound (.inl rfl)) others rfl ?_
      (.inl rfl) ?_ serialized.numbered
    · intro _ _ held
      rw [unlocked] at held
      cases held
    · intro found _ moved _
      rw [System.setPhase, lookup_insert_ite, if_pos rfl] at moved
      obtain ⟨rfl, rfl⟩ := mutation.inj (some.inj moved)
      exact ⟨rfl, nofun⟩
  · refine .kept rfl rfl (swapping_of_other_worker others ?_ rfl)
    intro found indexed
    rw [bound] at indexed
    cases indexed

theorem proceeds_of_leads (bound : system.workers.lookup id = some (.mutation request before))
    (leads : Leads system.session system.reflected request before after)
    (reports : Reports system.shared next.shared)
    (workers : next.workers = system.workers.insert id (.mutation request after))
    (session : next.session = system.session) (backfills : next.backfills = system.backfills) :
    Proceeds system next := by
  refine proceeds_of_phase serialized bound ?_ ?_ ?_ reports workers session backfills
  · rintro rfl
    cases leads with
    | ending shown => cases shown
  · cases leads <;> simp [holds]
  · intro isChecked
    cases leads with
    | current _ matching => exact matching
    | approved => exact serialized.checked bound rfl
    | _ => cases isChecked

theorem proceeds_of_moves [CharTables] [Crc32] {request : ArchiveMutationRequest} {before : Phase}
    (bound : system.workers.lookup id = some (.mutation request before))
    (moves : Moves system id request before next) : Proceeds system next := by
  cases moves with
  | goes leads => exact proceeds_of_leads serialized bound leads (.inl rfl) rfl rfl rfl
  | checks leads =>
    unfold System.checkpoint
    split
    · exact proceeds_of_leads serialized bound leads.to_ending (.inl rfl) rfl rfl rfl
    · exact proceeds_of_leads serialized bound leads (.inl rfl) rfl rfl rfl
  | publishes state leads =>
    exact proceeds_of_leads serialized bound leads (.inr ⟨.transition id state, rfl⟩) rfl rfl rfl
  | locks unlocked => exact proceeds_of_acquire serialized bound unlocked
  | dispatches | lands =>
    exact proceeds_of_phase serialized bound (by simp) (fun _ => rfl)
      (by simp [isChecked]) (.inl rfl) rfl rfl rfl
  | reindexes => exact proceeds_of_reindex serialized bound rfl rfl rfl rfl
  | bumps =>
    exact proceeds_of_bump serialized bound rfl rfl (.inl rfl) rfl rfl rfl
      rfl rfl rfl
  | returns => exact proceeds_of_return serialized bound (by simp)

theorem proceeds_of_idle (id : OperationId)
    (idle : ∀ {request phase}, system.workers.lookup id ≠ some (.mutation request phase))
    (reports : Reports system.shared next.shared)
    (begun : next.Runs id → next.registry.eventsOf id ≠ [])
    (others : ∀ {other}, other ≠ id → next.workers.lookup other = system.workers.lookup other)
    (waits : ∀ {request phase}, next.workers.lookup id = some (.mutation request phase) →
      phase.holds = false)
    (session : next.session = system.session) (backfills : next.backfills = system.backfills) :
    Proceeds system next := by
  constructor
  · refine serialized.of_worker id reports begun others backfills ?_ ?_ ?_ ?_
    · intro _ _ held
      rw [session]
      exact held
    · rw [session]
      exact .inl rfl
    · intro request phase found holds
      rw [waits found] at holds
      cases holds
    · rw [session]
      exact serialized.numbered
  · refine .kept (by rw [session]) (by rw [session]) ?_
    exact swapping_of_other_worker others (fun _ => idle) backfills

theorem proceeds_of_report
    (reports : Reports system.shared next.shared) (workers : next.workers = system.workers)
    (session : next.session = system.session) (backfills : next.backfills = system.backfills) :
    Proceeds system next := by
  refine ⟨⟨reports.valid serialized.valid, ?_, ?_, ?_, ?_, ?_⟩,
    .kept (by rw [session]) (by rw [session]) ?_⟩
  · intro id runs
    apply reports.eventsOf_ne_nil serialized.valid
    apply serialized.begun
    unfold System.Runs at runs ⊢
    rwa [workers] at runs
  · rw [workers, session]
    exact serialized.held
  · rw [backfills, session]
    exact serialized.heldBackfill
  · rw [workers, session]
    exact serialized.checked
  · rw [session]
    exact serialized.numbered
  · unfold Swapping
    rw [workers, backfills]
    exact id

theorem proceeds_of_stepCall {call : Call}
    (taken : stepCall system call = some next) : Proceeds system next := by
  unfold ArchiveMutation.stepCall at taken
  split at taken
  next id =>
    simp only [callStep] at taken
    cases minted : system.shared.minted.lookup id with
    | none => simp [minted] at taken
    | some =>
      simp only [minted, some.injEq] at taken
      subst next
      have unbegun : system.workers.lookup id = none := by
        by_contra runs
        exact serialized.begun runs (serialized.valid.fresh.uninserted minted)
      refine proceeds_of_idle serialized id ?_ (.inr ⟨.insert id, ?_⟩) ?_ ?_ ?_ rfl rfl
      · intro request phase bound
        rw [unbegun] at bound
        cases bound
      · simp only [callStep, minted]
      · intro _
        simp [System.registry, OperationRegistry.insertAccepted, eventsOf_publish]
      · intro _ different
        rw [lookup_insert_ite, if_neg different]
      · intro request phase bound
        rw [lookup_insert_ite, if_pos rfl] at bound
        cases bound
  · unfold cancelTransition at taken
    split at taken
    next called _ =>
      split at taken <;> obtain rfl := some.inj taken <;>
        exact proceeds_of_report serialized (.inr ⟨_, called⟩) rfl rfl rfl
    next called _ =>
      cases taken
      exact proceeds_of_report serialized (.inr ⟨_, called⟩) rfl rfl rfl
    · cases taken
  · split at taken
    next called =>
      cases taken
      exact proceeds_of_report serialized (.inr ⟨_, called⟩) rfl rfl rfl
    · cases taken

theorem proceeds_of_backfill (task : Nat)
    (shared : next.shared = system.shared) (workers : next.workers = system.workers)
    (others : ∀ {other}, other ≠ task → next.backfills.lookup other = system.backfills.lookup other)
    (notPatched : system.backfills.lookup task ≠ some .patched)
    (waits : ∀ {backfill}, next.backfills.lookup task = some backfill → backfill.holds = false)
    (lock : ∀ {holder}, holder ≠ .backfill task → system.session.lockHolder = some holder →
      next.session.lockHolder = some holder)
    (index : next.session.index = system.session.index)
    (assigner : next.session.assigner = system.session.assigner)
    (revision : next.session.revision = system.session.revision) : Proceeds system next := by
  constructor
  · refine serialized.of_backfill task shared workers others lock (.inl revision) ?_ ?_
    · intro backfill found holds
      rw [waits found] at holds
      cases holds
    · rw [index, assigner]
      exact serialized.numbered
  · exact .kept index revision (swapping_of_other_backfill workers others notPatched)

theorem proceeds_of_planning (notPatched : system.backfills.lookup task ≠ some .patched)
    {backfill : Backfill} (waits : backfill.holds = false) :
    Proceeds system { system with backfills := system.backfills.insert task backfill } := by
  refine proceeds_of_backfill serialized task rfl rfl ?_ notPatched ?_ (fun _ => id)
    rfl rfl rfl
  · intro _ different
    rw [lookup_insert_ite, if_neg different]
  · intro _ found
    rw [lookup_insert_ite, if_pos rfl] at found
    cases found
    exact waits

theorem proceeds_of_dropping (notPatched : system.backfills.lookup task ≠ some .patched)
    {session : Session} (index : session.index = system.session.index)
    (assigner : session.assigner = system.session.assigner)
    (revision : session.revision = system.session.revision)
    (lock : ∀ {holder}, holder ≠ .backfill task → system.session.lockHolder = some holder →
      session.lockHolder = some holder) :
    Proceeds system { system with
      session := session
      backfills := system.backfills.erase task } := by
  refine proceeds_of_backfill serialized task rfl rfl ?_ notPatched ?_ lock index assigner revision
  · intro _ different
    rw [lookup_erase_ite, if_neg different]
  · intro _ found
    rw [lookup_erase_ite, if_pos rfl] at found
    cases found

theorem proceeds_of_advanceBackfill [CharTables] [Crc32]
    {backfill : Backfill} (bound : system.backfills.lookup task = some backfill)
    (taken : advanceBackfill system task backfill = some next) : Proceeds system next := by
  have inserted : ∀ (after : Backfill) {other}, other ≠ task →
      (system.backfills.insert task after).lookup other = system.backfills.lookup other := by
    intro after other different
    rw [lookup_insert_ite, if_neg different]
  have moved : ∀ after, (system.backfills.insert task after).lookup task = some after := by
    intro after
    rw [lookup_insert_ite, if_pos rfl]
  cases backfill with
  | locked revision sums =>
    have holder := serialized.heldBackfill bound rfl
    simp only [advanceBackfill] at taken
    split at taken <;> cases taken
    · exact proceeds_of_planning serialized (by simp [bound]) rfl
    · refine ⟨serialized.of_backfill task rfl rfl (inserted .patched)
        (fun _ => id) (.inl rfl) (fun _ _ => holder)
        (serialized.numbered.applyCrc32Backfill sums),
        .swapped rfl (.inr ⟨task, moved .patched⟩)⟩
  | patched =>
    have holder := serialized.heldBackfill bound rfl
    cases taken
    exact ⟨serialized.of_backfill task rfl rfl (inserted .ending)
      (fun _ => id) (.inr holder) (fun _ _ => holder)
      serialized.numbered,
      .bumped rfl rfl⟩
  | ending =>
    cases taken
    obtain ⟨_, shape, keeps⟩ :=
      { system with backfills := system.backfills.erase task }.release_eq (.backfill task)
    rw [shape]
    exact proceeds_of_dropping serialized (by simp [bound]) rfl rfl rfl keeps
  | computing revision | computed revision sums => cases taken

theorem proceeds_of_backfillAcquire {revision : Nat} {sums : List (Str × Str)}
    (bound : system.backfills.lookup task = some (.computed revision sums))
    (unlocked : system.session.lockHolder = none) : Proceeds system
      { system with
        session := { system.session with
          lockHolder := some (.backfill task) }
        backfills :=
          system.backfills.insert task (.locked revision sums) } := by
  have others : ∀ {other}, other ≠ task →
      (system.backfills.insert task (.locked revision sums)).lookup other =
        system.backfills.lookup other := by
    intro other different
    rw [lookup_insert_ite, if_neg different]
  constructor
  · refine serialized.of_backfill task rfl rfl others ?_ (.inl rfl)
      (fun _ _ => rfl) serialized.numbered
    intro _ _ held
    rw [unlocked] at held
    cases held
  · refine .kept rfl rfl (swapping_of_other_backfill rfl others ?_)
    simp [bound]

theorem proceeds_of_spawn (unspawned : system.workers.lookup id = some .unspawned)
    {worker : Worker}
    (waits : ∀ {request phase}, worker = .mutation request phase → phase.holds = false) :
    Proceeds system { system with workers := system.workers.insert id worker } := by
  refine proceeds_of_idle serialized id ?_ (.inl rfl)
    (fun _ => serialized.begun_of_worker unspawned (.inl rfl)) ?_ ?_ rfl rfl
  · intro request phase bound
    rw [unspawned] at bound
    cases bound
  · intro _ different
    rw [lookup_insert_ite, if_neg different]
  · intro request phase bound
    rw [lookup_insert_ite, if_pos rfl] at bound
    exact waits (some.inj bound)

theorem proceeds_of_step [CharTables] [Crc32] {action : Action}
    (taken : step capabilities system action = some next) : Proceeds system next := by
  cases action with
  | call call => exact proceeds_of_stepCall serialized taken
  | cancelReturn id =>
    simp only [step] at taken
    split at taken
    · cases taken
      exact proceeds_of_report serialized (.inr ⟨.evict, rfl⟩) rfl rfl rfl
    · cases taken
  | spawnOther id =>
    simp only [step] at taken
    split at taken
    next unspawned =>
      cases taken
      exact proceeds_of_spawn serialized unspawned (by simp)
    · cases taken
  | finishOther id =>
    simp only [step] at taken
    split at taken
    next isOther =>
      cases taken
      refine proceeds_of_idle serialized id ?_ (.inl rfl)
        (fun _ => serialized.begun_of_worker isOther (.inl rfl)) ?_ ?_
        rfl rfl
      · intro request phase bound
        rw [isOther] at bound
        cases bound
      · intro _ different
        rw [lookup_erase_ite, if_neg different]
      · intro request phase bound
        rw [lookup_erase_ite, if_pos rfl] at bound
        cases bound
    · cases taken
  | spawnMutation id request =>
    simp only [step] at taken
    split at taken
    next unspawned =>
      cases taken
      refine proceeds_of_spawn serialized unspawned fun same => ?_
      obtain ⟨-, rfl⟩ := mutation.inj same
      rfl
    · cases taken
  | advance id | acquire id | poll id | dispatch id | shutDown id | mutated id outcome =>
    obtain ⟨request, phase, bound, moves⟩ := moves_of_step rfl taken
    exact proceeds_of_moves serialized bound moves
  | relisted id outcome =>
    simp only [step] at taken
    split at taken
    next found =>
      cases taken
      exact proceeds_of_relisted serialized (mutationOf_eq_some_iff.mp found) outcome
    · cases taken
  | closeSession =>
    cases taken
    exact proceeds_of_report serialized (.inl rfl) rfl rfl rfl
  | backfillStart task =>
    simp only [step] at taken
    split at taken
    next free =>
      cases taken
      exact proceeds_of_planning serialized (by simp [free.2]) rfl
    · cases taken
  | backfillAbandon task =>
    simp only [step] at taken
    split at taken
    next bound =>
      cases taken
      exact proceeds_of_dropping serialized (by simp [bound]) rfl rfl rfl fun _ => id
    · cases taken
  | backfillCompute task =>
    simp only [step] at taken
    split at taken
    next bound =>
      split at taken
      · cases taken
        exact proceeds_of_planning serialized (by simp [bound]) rfl
      · cases taken
    · cases taken
  | backfillAcquire task =>
    simp only [step] at taken
    split at taken
    next bound unlocked =>
      cases taken
      exact proceeds_of_backfillAcquire serialized bound unlocked
    · cases taken
  | backfillAdvance task =>
    simp only [step] at taken
    split at taken
    next bound => exact proceeds_of_advanceBackfill serialized bound taken
    · cases taken

end

end

end Arclain.ArchiveMutation
