import Arclain.ArchiveIndex
import Arclain.OperationRegistryHistory

namespace Arclain.ArchiveMutation

/-!
# Archive mutations on one session

A mutation worker and a checksum backfill share the session they work on: its index, its
revision number, its desynced flag and its mutation lock.

`step` is one atomic section of one task, with what the backend answers.  Revisions do not
overflow.
-/

open OperationRegistry Text EntryIndex

/-- A request to mutate an open archive session. -/
inductive ArchiveMutationRequest where
  | addFiles (session : ArchiveSessionId) (expectedRevision : Nat) (destination : ArchivePath)
      (sourcePaths : List Str)
  | deleteEntries (session : ArchiveSessionId) (expectedRevision : Nat) (entryIds : List EntryId)
  | replaceText (session : ArchiveSessionId) (expectedRevision : Nat) (entryId : EntryId)
      (content : Str)
  deriving DecidableEq

namespace ArchiveMutationRequest

def sessionId : ArchiveMutationRequest → ArchiveSessionId
  | .addFiles session _ _ _ | .deleteEntries session _ _ | .replaceText session _ _ _ => session

def expectedRevision : ArchiveMutationRequest → Nat
  | .addFiles _ revision _ _ | .deleteEntries _ revision _ | .replaceText _ revision _ _ => revision

def isStructurallyEmpty : ArchiveMutationRequest → Bool
  | .addFiles _ _ _ sourcePaths => sourcePaths.isEmpty
  | .deleteEntries _ _ entryIds => entryIds.isEmpty
  | .replaceText _ _ _ _ => false

def actionLabel : ArchiveMutationRequest → String
  | .addFiles _ _ _ _ => "add files to the archive"
  | .deleteEntries _ _ _ => "delete entries from the archive"
  | .replaceText _ _ _ _ => "replace the file's content in the archive"

end ArchiveMutationRequest

/-- What the backend is asked to do, every id resolved to a path. -/
inductive ResolvedMutation where
  | addFiles (sourcePaths : List Str)
  | delete (paths : List Str)
  | replaceText (pathInArchive content : Str)
  deriving DecidableEq

def unknownSessionError (session : ArchiveSessionId) : ApplicationError :=
  ({ kind := .notFound
     summary := "no such archive session"
     archiveSessionId := some session } : ApplicationError).withRecoverability
    .fatal

def unknownEntryError (session : ArchiveSessionId) (entry : EntryId) : ApplicationError :=
  ({ kind := .notFound
     summary := "one of the requested entries does not exist in this archive session"
     archiveSessionId := some session
     entryId := some entry } : ApplicationError).withRecoverability .fatal

def cannotReplaceDirectoryError (session : ArchiveSessionId) (entry : EntryId) : ApplicationError :=
  ({ kind := .invalidInput
     summary := "cannot replace the text content of a directory entry"
     archiveSessionId := some session
     entryId := some entry
     field := some "entry_id" } : ApplicationError).withRecoverability .fatal

def nonRootDestinationError : ApplicationError :=
  ({ kind := .unsupported
     summary :=
       "adding files into a specific archive folder is not supported yet -- " ++
         "only the archive root is"
     field := some "destination" } : ApplicationError).withRecoverability .fatal

def unsupportedMutationError (action : String) : ApplicationError :=
  ({ kind := .unsupported
     summary := "this archive's backend cannot " ++ action } :
    ApplicationError).withRecoverability .fatal

def revisionConflictError (session : ArchiveSessionId) (expected actual : Nat) : ApplicationError :=
  ({ kind := .conflict
     summary := "the archive changed since this mutation was prepared"
     diagnostic :=
       some ("expected revision " ++ String.ofList (decimal expected) ++
         ", current revision " ++ String.ofList (decimal actual))
     archiveSessionId := some session } : ApplicationError).withRecoverability
    .retry

def desyncedSessionError (session : ArchiveSessionId) : ApplicationError :=
  ({ kind := .conflict
     summary :=
       "this archive session's index could not be kept in sync with a " ++
         "previous change -- close and reopen the archive to continue"
     archiveSessionId := some session } : ApplicationError).withRecoverability
    .fatal

/-- `mutation_backend_error`, without the backend's own text. -/
def mutationBackendError (action : String) : ApplicationError :=
  ({ kind := .backend
     summary := "failed to " ++ action } : ApplicationError).withRecoverability
    .retry

/-- `relist_after_mutation_failed_error`, without the backend's own text. -/
def relistAfterMutationFailedError (session : ArchiveSessionId) : ApplicationError :=
  ({ kind := .backend
     summary :=
       "the archive was modified but its updated contents could not be " ++
         "confirmed -- close and reopen this archive to continue safely"
     archiveSessionId := some session } : ApplicationError).withRecoverability
    .fatal

/-- `internal_join_error`, without the text of the join error. -/
def internalJoinError : ApplicationError :=
  { kind := .internal
    summary := "archive mutation worker failed" }

structure BackendCapabilities where
  canAddFiles : Bool
  canDeleteFiles : Bool
  canModifyFiles : Bool

def checkCapability (capabilities : BackendCapabilities)
    (request : ArchiveMutationRequest) : Except ApplicationError Unit :=
  let supported :=
    match request with
    | .addFiles _ _ _ _ => capabilities.canAddFiles
    | .deleteEntries _ _ _ => capabilities.canDeleteFiles
    | .replaceText _ _ _ _ => capabilities.canModifyFiles
  if supported then .ok ()
  else .error (unsupportedMutationError request.actionLabel)

/-- `resolve_mutation`: what the request asks of the backend, or nothing. -/
def resolveMutation (index : EntryIndex) : ArchiveMutationRequest →
    Except ApplicationError (Option ResolvedMutation)
  | .addFiles _ _ destination sourcePaths =>
    if destination ≠ ArchivePath.root then .error nonRootDestinationError
    else .ok (some (.addFiles sourcePaths))
  | .deleteEntries session _ entryIds =>
    match index.resolveExtractablePaths entryIds with
    | .error badId => .error (unknownEntryError session badId)
    | .ok [] => .ok none
    | .ok paths => .ok (some (.delete paths))
  | .replaceText session _ entryId content =>
    match index.byId.lookup entryId with
    | none => .error (unknownEntryError session entryId)
    | some row =>
      if row.kind = .directory then .error (cannotReplaceDirectoryError session entryId)
      else .ok (some (.replaceText row.path.value content))

/-- Who holds the mutation lock of the session. -/
inductive Holder where
  | mutation (operation : OperationId)
  | backfill (task : Nat)
  deriving DecidableEq

structure Session where
  id : ArchiveSessionId
  headersEncrypted : Bool
  revision : Nat
  index : EntryIndex
  assigner : EntryIdAssigner
  desynced : Bool
  lockHolder : Option Holder

/-- Where a mutation worker stands, with the mutations that its index or its listing
reflects. -/
inductive Phase where
  | spawned
  | started
  | found
  | admitted
  | queued
  | locked
  | current
  | approved
  | resolved (mutation : ResolvedMutation) (reflects : Nat)
  | cleared (mutation : ResolvedMutation) (reflects : Nat)
  | mutating
  | landed
  | listed (entries : List ArchiveEntry) (reflects : Nat)
  | indexed
  | reindexed (revision : Nat)
  | announced
  | ending
  deriving DecidableEq

/-- The task behind an operation that has not returned. -/
inductive Worker where
  | unspawned
  | other
  | mutation (request : ArchiveMutationRequest) (phase : Phase)
  deriving DecidableEq

inductive Backfill where
  | computing (revision : Nat) (targets : List Str)
  | computed (revision : Nat) (sums : List (Str × Str))
  | locked (revision : Nat) (sums : List (Str × Str))
  | patched
  | ending

/-- One backend call, with the mutations its index reflects, those made by then, and the
acknowledged cancellation. -/
structure Dispatch where
  operation : OperationId
  mutation : ResolvedMutation
  reflects : Nat
  landed : Nat
  acknowledged : Bool

/-- The registry, the session and every task; `landed` and `reflected` count the backend
mutations made and those in the index. -/
structure System where
  shared : Shared
  returning : List OperationId
  acknowledged : List OperationId
  workers : KeyedMap OperationId Worker
  session : Session
  sessionOpen : Bool
  backfills : KeyedMap Nat Backfill
  dispatches : List Dispatch
  landed : Nat
  reflected : Nat

/-- How a blocking backend call ends: it answers, it fails, or its task panics
or is dropped. -/
inductive Outcome (Answer : Type) where
  | answered (answer : Answer)
  | failed
  | panicked

inductive Action where
  | call (call : Call)
  | cancelReturn (id : OperationId)
  | spawnOther (id : OperationId)
  | finishOther (id : OperationId)
  | spawnMutation (id : OperationId) (request : ArchiveMutationRequest)
  | advance (id : OperationId)
  | acquire (id : OperationId)
  | poll (id : OperationId)
  | dispatch (id : OperationId)
  | shutDown (id : OperationId)
  | mutated (id : OperationId) (outcome : Outcome Unit)
  | relisted (id : OperationId) (outcome : Outcome (List ArchiveEntry))
  | closeSession
  | backfillStart (task : Nat)
  | backfillAbandon (task : Nat)
  | backfillCompute (task : Nat) (sums : List (Str × Str))
  | backfillAcquire (task : Nat)
  | backfillAdvance (task : Nat)

namespace System

/-- A session opened from a listing, and nothing else yet. -/
def initial [CharTables] [Crc32] (session : ArchiveSessionId) (headersEncrypted : Bool)
    (entries : List ArchiveEntry) : System :=
  let built := build entries EntryIdAssigner.new
  { shared := Shared.initial
    returning := []
    acknowledged := []
    workers := ∅
    session :=
      { id := session
        headersEncrypted := headersEncrypted
        revision := 1
        index := built.1
        assigner := built.2
        desynced := false
        lockHolder := none }
    sessionOpen := true
    backfills := ∅
    dispatches := []
    landed := 0
    reflected := 0 }

def registry (system : System) : OperationRegistry := system.shared.registry

section

variable (system : System) (id : OperationId)

def Runs : Prop := system.workers.lookup id ≠ none

def setPhase (request : ArchiveMutationRequest)
    (phase : Phase) : System :=
  { system with
    workers := system.workers.insert id (.mutation request phase) }

def publish (state : OperationState) : System :=
  { system with
    shared := { system.shared with
      registry := (system.registry.transition id state).2 } }

/-- `fail`, after which the worker returns. -/
def fail (request : ArchiveMutationRequest)
    (error : ApplicationError) : System :=
  (system.publish id (.failed error)).setPhase id request .ending

def complete (request : ArchiveMutationRequest) : System :=
  (system.publish id (.completed .none)).setPhase id request .ending

def checkpoint (request : ArchiveMutationRequest)
    (phase : Phase) : System :=
  if system.registry.isCancelled id then system.setPhase id request .ending
  else system.setPhase id request phase

def logDispatch (mutation : ResolvedMutation)
    (reflects : Nat) : System :=
  { system with
    dispatches := system.dispatches ++
      [{ operation := id
         mutation := mutation
         reflects := reflects
         landed := system.landed
         acknowledged := id ∈ system.acknowledged }] }

end

/-- Give the lock back if this task holds it. -/
def release (system : System) (holder : Holder) : System :=
  if system.session.lockHolder = some holder then
    { system with session := { system.session with lockHolder := none } }
  else system

/-- A release takes the lock from no other task. -/
theorem release_eq (system : System) (holder : Holder) : ∃ lock,
    system.release holder = { system with session := { system.session with lockHolder := lock } } ∧
      ∀ {other}, other ≠ holder → system.session.lockHolder = some other → lock = some other := by
  unfold release
  split
  next owned =>
    refine ⟨none, rfl, fun different held => ?_⟩
    exact absurd (Option.some.inj (held.symm.trans owned)) different
  · exact ⟨_, rfl, fun _ => id⟩

end System

section

variable (capabilities : BackendCapabilities)

/-- The sections of `run_archive_mutation` that neither wait nor call the
backend. -/
def advanceMutation [CharTables] [Crc32] (system : System) (id : OperationId)
    (request : ArchiveMutationRequest) : Phase → Option System
  | .spawned =>
    match system.registry.transition id .started with
    | (.error _, _) => some (system.setPhase id request .ending)
    | (.ok (), _) => some ((system.publish id .started).setPhase id request .started)
  | .started =>
    if system.sessionOpen ∧ request.sessionId = system.session.id then
      some (system.setPhase id request .found)
    else some (system.fail id request (unknownSessionError request.sessionId))
  | .found => some (system.checkpoint id request .admitted)
  | .admitted =>
    if request.isStructurallyEmpty then some (system.complete id request)
    else some (system.setPhase id request .queued)
  | .locked =>
    if system.session.desynced then
      some (system.fail id request (desyncedSessionError request.sessionId))
    else if request.expectedRevision ≠ system.session.revision then
      some (system.fail id request (revisionConflictError request.sessionId request.expectedRevision
        system.session.revision))
    else some (system.setPhase id request .current)
  | .current => some (system.checkpoint id request .approved)
  | .approved =>
    match checkCapability capabilities request with
    | .error error => some (system.fail id request error)
    | .ok () =>
      match resolveMutation system.session.index request with
      | .error error => some (system.fail id request error)
      | .ok none => some (system.complete id request)
      | .ok (some mutation) =>
        some (system.setPhase id request (.resolved mutation system.reflected))
  | .resolved mutation reflects => some (system.checkpoint id request (.cleared mutation reflects))
  | .listed entries reflects =>
    let built := build entries system.session.assigner
    some (({ system with
      session := { system.session with
        index := built.1
        assigner := built.2 }
      reflected := reflects }).setPhase id request .indexed)
  | .indexed =>
    some (({ system with
      session := { system.session with
        revision := system.session.revision + 1 } }).setPhase id request
      (.reindexed (system.session.revision + 1)))
  | .reindexed revision =>
    some ((system.publish id (.snapshotChanged request.sessionId revision)).setPhase id request
      .announced)
  | .announced => some (system.complete id request)
  | .ending => some ({ system with workers := system.workers.erase id }.release (.mutation id))
  | _ => none

def mutated (system : System) (id : OperationId)
    (request : ArchiveMutationRequest) : Outcome Unit → System
  | .answered () => ({ system with landed := system.landed + 1 }).setPhase id request .landed
  | .failed => system.fail id request (mutationBackendError request.actionLabel)
  | .panicked => system.fail id request internalJoinError

def relisted (system : System) (id : OperationId)
    (request : ArchiveMutationRequest) : Outcome (List ArchiveEntry) → System
  | .answered entries => system.setPhase id request (.listed entries system.landed)
  | .failed =>
    ({ system with
      session := { system.session with
        desynced := true
        revision := system.session.revision + 1 } }).fail id request
      (relistAfterMutationFailedError request.sessionId)
  | .panicked => system.fail id request internalJoinError

/-- The sections of `run_backfill_encrypted_crcs` once it has its sums. -/
def advanceBackfill [CharTables] [Crc32] (system : System) (task : Nat) : Backfill → Option System
  | .locked revision sums =>
    let applied := system.session.index.applyCrc32Backfill sums
    if system.session.revision ≠ revision ∨ applied.1 = 0 then
      some { system with backfills := system.backfills.insert task .ending }
    else
      some { system with
        session := { system.session with index := applied.2 }
        backfills := system.backfills.insert task .patched }
  | .patched =>
    some { system with
      session := { system.session with
        revision := system.session.revision + 1 }
      backfills := system.backfills.insert task .ending }
  | .ending =>
    some ({ system with backfills := system.backfills.erase task }.release (.backfill task))
  | _ => none

/-- One section of a cancellation: it returns at once if the operation was terminal, or its
own eviction is still to come. -/
def cancelTransition (system : System) (id : OperationId) : Option System :=
  match callStep system.shared (.cancelTransition id), system.registry.operationState id with
  | some shared, some state =>
    if state.isTerminal then
      some { system with
        shared := shared
        acknowledged := id :: system.acknowledged }
    else
      some { system with
        shared := shared
        returning := id :: system.returning }
  | some shared, none => some { system with shared := shared }
  | none, _ => none

/-- One section of the registry, taken by some task. -/
def stepCall (system : System) : Call → Option System
  | .insert id =>
    match callStep system.shared (.insert id) with
    | some shared =>
      some { system with
        shared := shared
        workers := system.workers.insert id .unspawned }
    | none => none
  | .cancelTransition id => cancelTransition system id
  | call =>
    match callStep system.shared call with
    | some shared => some { system with shared := shared }
    | none => none

def mutationOf (system : System) (id : OperationId) : Option (ArchiveMutationRequest × Phase) :=
  match system.workers.lookup id with
  | some (.mutation request phase) => some (request, phase)
  | _ => none

theorem mutationOf_eq_some_iff {system : System} {id : OperationId}
    {request : ArchiveMutationRequest} {phase : Phase} :
    mutationOf system id = some (request, phase) ↔
      system.workers.lookup id = some (.mutation request phase) := by
  unfold mutationOf
  split
  next bound => simp [bound]
  next other =>
    constructor
    · intro impossible
      cases impossible
    · intro bound
      exact (other request phase bound).elim

def step [CharTables] [Crc32] (system : System) : Action → Option System
  | .call call => stepCall system call
  | .cancelReturn id =>
    if id ∈ system.returning then
      some { system with
        shared := { system.shared with
          registry := system.registry.evictExcessHistory }
        returning := system.returning.erase id
        acknowledged := id :: system.acknowledged }
    else none
  | .spawnOther id =>
    if system.workers.lookup id = some .unspawned then
      some { system with workers := system.workers.insert id .other }
    else none
  | .finishOther id =>
    if system.workers.lookup id = some .other then
      some { system with workers := system.workers.erase id }
    else none
  | .spawnMutation id request =>
    if system.workers.lookup id = some .unspawned then some (system.setPhase id request .spawned)
    else none
  | .advance id =>
    match mutationOf system id with
    | some (request, phase) => advanceMutation capabilities system id request phase
    | none => none
  | .acquire id =>
    match mutationOf system id, system.session.lockHolder with
    | some (request, .queued), none =>
      some ({ system with
        session := { system.session with
          lockHolder := some (.mutation id) } }.setPhase id request .locked)
    | _, _ => none
  | .poll id =>
    match mutationOf system id with
    | some (request, .queued) => some (system.checkpoint id request .queued)
    | _ => none
  | .dispatch id =>
    match mutationOf system id with
    | some (request, .cleared mutation reflects) =>
      some ((system.logDispatch id mutation reflects).setPhase id request .mutating)
    | _ => none
  | .shutDown id =>
    match mutationOf system id with
    | some (request, .cleared _ _) => some (system.setPhase id request .ending)
    | _ => none
  | .mutated id outcome =>
    match mutationOf system id with
    | some (request, .mutating) => some (mutated system id request outcome)
    | _ => none
  | .relisted id outcome =>
    match mutationOf system id with
    | some (request, .landed) => some (relisted system id request outcome)
    | _ => none
  | .closeSession => some { system with sessionOpen := false }
  | .backfillStart task =>
    if system.sessionOpen ∧ system.backfills.lookup task = none then
      some { system with
        backfills := system.backfills.insert task (.computing system.session.revision
          (system.session.index.crcBackfillTargets system.session.headersEncrypted).1) }
    else none
  | .backfillAbandon task =>
    match system.backfills.lookup task with
    | some (.computing _ _) => some { system with backfills := system.backfills.erase task }
    | _ => none
  | .backfillCompute task sums =>
    match system.backfills.lookup task with
    | some (.computing revision targets) =>
      if sums ≠ [] ∧ (sums.map Prod.fst).isSublist targets then
        some { system with
          backfills := system.backfills.insert task (.computed revision sums) }
      else none
    | _ => none
  | .backfillAcquire task =>
    match system.backfills.lookup task, system.session.lockHolder with
    | some (.computed revision sums), none =>
      some { system with
        session := { system.session with
          lockHolder := some (.backfill task) }
        backfills := system.backfills.insert task (.locked revision sums) }
    | _, _ => none
  | .backfillAdvance task =>
    match system.backfills.lookup task with
    | some backfill => advanceBackfill system task backfill
    | none => none

end

/-- The archive has changed and the session does not show it yet. -/
def Phase.isBetween : Phase → Bool
  | .landed | .listed _ _ | .indexed => true
  | _ => false

/-- The phases that a worker goes through, on a session whose index reflects some
mutations. -/
inductive Leads (session : Session) (reflected : Nat) (request : ArchiveMutationRequest) :
    Phase → Phase → Prop where
  | started : Leads session reflected request .spawned .started
  | found : Leads session reflected request .started .found
  | admitted : Leads session reflected request .found .admitted
  | queued : Leads session reflected request .admitted .queued
  | waiting : Leads session reflected request .queued .queued
  | current (inSync : session.desynced = false)
      (matching : request.expectedRevision = session.revision) :
      Leads session reflected request .locked .current
  | approved : Leads session reflected request .current .approved
  | resolved (mutation : ResolvedMutation) :
      Leads session reflected request .approved (.resolved mutation reflected)
  | cleared (mutation : ResolvedMutation) (reflects : Nat) :
      Leads session reflected request (.resolved mutation reflects) (.cleared mutation reflects)
  | announced (revision : Nat) : Leads session reflected request (.reindexed revision) .announced
  | ending {phase : Phase} (shown : phase.isBetween = false) :
      Leads session reflected request phase .ending

/-- What an action of a worker does, from the phase that it stands in. -/
inductive Moves [CharTables] [Crc32] (system : System) (id : OperationId)
    (request : ArchiveMutationRequest) : Phase → System → Prop where
  | goes {phase after : Phase} (leads : Leads system.session system.reflected request phase after)
      (unresolved : ∀ mutation reflects, phase ≠ .resolved mutation reflects) :
      Moves system id request phase (system.setPhase id request after)
  | checks {phase after : Phase}
      (leads : Leads system.session system.reflected request phase after) :
      Moves system id request phase (system.checkpoint id request after)
  | publishes {phase after : Phase} (state : OperationState)
      (leads : Leads system.session system.reflected request phase after)
      (unresolved : ∀ mutation reflects, phase ≠ .resolved mutation reflects) :
      Moves system id request phase ((system.publish id state).setPhase id request after)
  | locks (unlocked : system.session.lockHolder = none) :
      Moves system id request .queued ({ system with
        session := { system.session with
          lockHolder := some (.mutation id) } }.setPhase id request .locked)
  | dispatches {mutation : ResolvedMutation} {reflects : Nat} :
      Moves system id request (.cleared mutation reflects)
        ((system.logDispatch id mutation reflects).setPhase id request .mutating)
  | lands : Moves system id request .mutating
      (({ system with landed := system.landed + 1 }).setPhase id request .landed)
  | reindexes {entries : List ArchiveEntry} {reflects : Nat} :
      Moves system id request (.listed entries reflects) (({ system with
        session := { system.session with
          index := (build entries system.session.assigner).1
          assigner := (build entries system.session.assigner).2 }
        reflected := reflects }).setPhase id request .indexed)
  | bumps : Moves system id request .indexed (({ system with
      session := { system.session with
        revision := system.session.revision + 1 } }).setPhase id request
      (.reindexed (system.session.revision + 1)))
  | returns : Moves system id request .ending
      ({ system with workers := system.workers.erase id }.release (.mutation id))

section

variable {session : Session} {reflected : Nat} {request : ArchiveMutationRequest}
  {phase after : Phase}

theorem Leads.to_ending (leads : Leads session reflected request phase after) :
    Leads session reflected request phase .ending := by
  refine .ending ?_
  cases leads with
  | ending shown => exact shown
  | _ => rfl

variable [CharTables] [Crc32] {capabilities : BackendCapabilities} {system next : System}
  {id : OperationId}

theorem moves_of_advance
    (taken : advanceMutation capabilities system id request phase = some next) :
    Moves system id request phase next := by
  cases phase with
  | spawned =>
    simp only [advanceMutation] at taken
    split at taken <;> cases taken
    · exact .goes (.ending rfl) nofun
    · exact .publishes .started .started nofun
  | started =>
    simp only [advanceMutation] at taken
    split at taken <;> cases taken
    · exact .goes .found nofun
    · exact .publishes _ (.ending rfl) nofun
  | found =>
    cases taken
    exact .checks .admitted
  | admitted =>
    simp only [advanceMutation] at taken
    split at taken <;> cases taken
    · exact .publishes _ (.ending rfl) nofun
    · exact .goes .queued nofun
  | locked =>
    simp only [advanceMutation] at taken
    split at taken
    · cases taken
      exact .publishes _ (.ending rfl) nofun
    next inSync =>
      split at taken <;> cases taken
      · exact .publishes _ (.ending rfl) nofun
      next matching =>
        exact .goes (.current (Bool.eq_false_of_not_eq_true inSync) (not_not.mp matching)) nofun
  | current =>
    cases taken
    exact .checks .approved
  | approved =>
    simp only [advanceMutation] at taken
    split at taken
    · cases taken
      exact .publishes _ (.ending rfl) nofun
    · split at taken <;> cases taken
      · exact .publishes _ (.ending rfl) nofun
      · exact .publishes _ (.ending rfl) nofun
      · exact .goes (.resolved _) nofun
  | resolved mutation reflects =>
    cases taken
    exact .checks (.cleared mutation reflects)
  | listed _ reflects =>
    cases taken
    exact .reindexes
  | indexed =>
    cases taken
    exact .bumps
  | reindexed revision =>
    cases taken
    exact .publishes _ (.announced revision) nofun
  | announced =>
    cases taken
    exact .publishes _ (.ending rfl) nofun
  | ending =>
    cases taken
    exact .returns
  | queued | cleared mutation reflects | mutating | landed => cases taken

/-- The worker whose own action it is, except for a listing. -/
def Action.mover : Action → Option OperationId
  | .advance id | .acquire id | .poll id | .dispatch id | .shutDown id | .mutated id _ => some id
  | _ => none

theorem moves_of_step {action : Action} (moving : action.mover = some id)
    (taken : step capabilities system action = some next) : ∃ request phase,
      system.workers.lookup id = some (.mutation request phase) ∧
        Moves system id request phase next := by
  cases action with
  | advance id =>
    cases moving
    simp only [step] at taken
    split at taken
    next found => exact ⟨_, _, mutationOf_eq_some_iff.mp found, moves_of_advance taken⟩
    · cases taken
  | acquire id =>
    cases moving
    simp only [step] at taken
    split at taken <;> cases taken
    next found unlocked => exact ⟨_, _, mutationOf_eq_some_iff.mp found, .locks unlocked⟩
  | poll id =>
    cases moving
    simp only [step] at taken
    split at taken <;> cases taken
    next found => exact ⟨_, _, mutationOf_eq_some_iff.mp found, .checks .waiting⟩
  | dispatch id =>
    cases moving
    simp only [step] at taken
    split at taken <;> cases taken
    next found => exact ⟨_, _, mutationOf_eq_some_iff.mp found, .dispatches⟩
  | shutDown id =>
    cases moving
    simp only [step] at taken
    split at taken <;> cases taken
    next found => exact ⟨_, _, mutationOf_eq_some_iff.mp found, .goes (.ending rfl) nofun⟩
  | mutated id outcome =>
    cases moving
    simp only [step] at taken
    split at taken <;> cases taken
    next found =>
      refine ⟨_, _, mutationOf_eq_some_iff.mp found, ?_⟩
      cases outcome with
      | answered => exact .lands
      | failed | panicked => exact .publishes _ (.ending rfl) nofun
  | _ => cases moving

end

def fullFeatured : BackendCapabilities where
  canAddFiles := true
  canDeleteFiles := true
  canModifyFiles := true

def twoFiles : List ArchiveEntry :=
  ["a.txt", "b.txt"].map fun path =>
    { path := path.toList
      size := 3
      packedSize := 3
      isDir := false
      encrypted := false
      crc32 := none }

/-- A run of the tasks on a session that was opened on two files. -/
def sampleRun (actions : List Action) : Option System :=
  ActionRun.run (@step fullFeatured asciiTables crc32Ieee)
    (@System.initial asciiTables crc32Ieee 1 false twoFiles) actions

def spawnDeletion (id : OperationId) (expectedRevision : Nat) (entry : EntryId) : List Action :=
  [.call (.mint .archiveModify), .call (.insert id),
    .spawnMutation id (.deleteEntries 1 expectedRevision [entry])]

def toQueue (id : OperationId) : List Action := List.replicate 4 (.advance id)

/-- The worker takes the lock and passes its last checkpoint. -/
def toDispatch (id : OperationId) : List Action := .acquire id :: List.replicate 4 (.advance id)

end Arclain.ArchiveMutation
