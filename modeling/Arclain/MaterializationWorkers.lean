import Arclain.MaterializationStore
import Arclain.OperationOutcome

namespace Arclain.MaterializationWorkers

/-!
# The workers that materialize and stage entries

`run_materialize` and `run_drag_stage` reserve a directory, extract into it, commit it as a
lease and publish the lease as the result of their operation.

A `System` is the registry, the store and the workers between two atomic sections.
-/

open OperationRegistry Materialization Text

/-- Which function a worker runs, with what it reads of its request. -/
inductive WorkerKind where
  | materialize (archiveName : String)
  | dragStage (session : ArchiveSessionId) (files : Nat)

inductive Phase where
  | spawned
  | resolving
  | checking
  | reserving
  /-- `run_drag_stage` before it publishes that it stages. -/
  | announcing (lease : LeaseId)
  /-- `run_materialize` at the head of its loop. -/
  | looping (lease : LeaseId)
  | extracting (lease : LeaseId)
  /-- `run_drag_stage` with an error of the backend. -/
  | judging (lease : LeaseId) (diagnostic : Str)
  /-- `run_materialize` before it raises the challenge for a password. -/
  | raising (lease : LeaseId)
  | awaiting (lease : LeaseId)
  | verifying (lease : LeaseId)
  | sizing (lease : LeaseId)
  /-- Before the first half of `commit`. -/
  | committing (lease : LeaseId) (size : Nat)
  /-- Before the second half of `commit`. -/
  | inserting (lease : LeaseId)
  /-- `commit` has refused, and its reservation is dropped next. -/
  | refusing (lease : LeaseId) (error : ApplicationError)
  /-- The refusal is published next. -/
  | failing (lease : LeaseId) (error : ApplicationError)
  | completing (lease : LeaseId)
  /-- The worker returns, and its reservation is dropped next. -/
  | returning (lease : LeaseId)
  | returned (lease : Option LeaseId)
  deriving DecidableEq

/-- A worker and the number of its password attempt. -/
structure Worker where
  kind : WorkerKind
  attempt : Nat
  phase : Phase

/-- What moves a worker on: nothing but itself, or an answer of its
surroundings. -/
inductive Signal where
  | go
  | refused (error : ApplicationError)
  | proceed
  | reserved
  | progress (percent : Nat) (currentFile : String)
  | extracted
  | backendFailed (diagnostic : Str)
  | panicked (error : ApplicationError)
  | response (response : ChallengeResponse)
  | poll
  | measured (size : Nat)
  | canonicalized (localPath : Option (List Str)) (nowUnixMs : Int) (error : ApplicationError)
  | removed (done : Bool)
  deriving DecidableEq

/-- The registry, the store and every worker; `foreign` operations are published by other
tasks. -/
structure System where
  shared : Shared
  storage : Materialization.System
  workers : KeyedMap OperationId Worker
  nextChallengeId : ChallengeId
  foreign : List OperationId

def isPasswordError (diagnostic : Str) : Bool :=
  ["Wrong password", "Incorrect password",
    "Password for encrypted archive not specified", "Cannot open encrypted",
    "Can not open encrypted", "Enter password", "code Some(2)",
    "code Some(11)", "code Some(255)"].any fun phrase => containsText diagnostic phrase.toList

/-- The error of a backend that fails to materialize. -/
def materializeError (diagnostic : Str) : ApplicationError :=
  ({ kind := .backend
     summary := "failed to materialize the requested entry"
     diagnostic := some (String.ofList diagnostic) } :
    ApplicationError).withRecoverability .retry

def dragStageError (session : ArchiveSessionId) (diagnostic : Str) : ApplicationError :=
  if isPasswordError diagnostic then
    { (({ kind := .passwordRequired
          summary := "the archive's content needs a password this session does not hold"
          diagnostic := some (String.ofList diagnostic) } :
        ApplicationError).withRecoverability .userAction) with
      suggestedAction := some .supplyPassword
      archiveSessionId := some session }
  else
    ({ kind := .backend
       summary := "failed to stage the dragged entries"
       diagnostic := some (String.ofList diagnostic) } :
      ApplicationError).withRecoverability .retry

namespace System

def initial (sessionTag : Str) (ttlMillis : Nat) (disk : List Str) : System where
  shared := Shared.initial
  storage := .initial sessionTag ttlMillis disk
  workers := ∅
  nextChallengeId := 1
  foreign := []

def registry (system : System) : OperationRegistry := system.shared.registry

section

variable (system : System) (id : OperationId) (worker : Worker)

def move (phase : Phase) : System :=
  { system with
    workers := system.workers.insert id { worker with phase := phase } }

def publish (state : OperationState)
    (phase : Phase) : System :=
  { system with
    shared := { system.shared with
      registry := (system.registry.transition id state).2 } }.move id worker phase

def useStore (action : Materialization.Action) (phase : Phase) : Option System :=
  (system.storage.step action).map fun storage =>
    { system with storage := storage }.move id worker phase

def checkpoint (cancelled running : Phase) : System :=
  if system.registry.isCancelled id then system.move id worker cancelled
  else system.move id worker running

/-- The worker publishes `Started`, and returns if its operation is gone. -/
def start : System :=
  match (system.registry.transition id .started).1 with
  | .error _ => system.move id worker (.returned none)
  | .ok () => system.publish id worker .started .resolving

end

/-- `reserve`: the directory is created, or the worker fails. -/
def reserve (system : System) (id : OperationId) (worker : Worker)
    (phase : LeaseId → Phase) : Option System :=
  system.useStore id worker (.reserve true) (phase system.storage.store.nextId)

/-- `reserve` without a directory. -/
def reserveRefused (system : System) (id : OperationId) (worker : Worker)
    (error : ApplicationError) : Option System :=
  (system.storage.step (.reserve false)).map fun storage =>
    { system with storage := storage }.publish id worker (.failed error)
      (.returned none)

/-- The challenge for a password is published, unless the operation is gone. -/
def raiseChallenge (system : System) (id : OperationId) (worker : Worker) (archiveName : String)
    (lease : LeaseId) : System :=
  let state :=
    OperationState.challenge (.password system.nextChallengeId archiveName worker.attempt)
  let asked := { system with nextChallengeId := system.nextChallengeId + 1 }
  match (system.registry.transition id state).1 with
  | .error _ => asked.move id worker (.returning lease)
  | .ok () => asked.publish id worker state (.awaiting lease)

end System

section

variable (system : System) (id : OperationId) (worker : Worker)

def runShared : Phase → Signal → Option System
  | .spawned, .go => some (system.start id worker)
  | .resolving, .refused error => some (system.publish id worker (.failed error) (.returned none))
  | .resolving, .proceed => some (system.move id worker .checking)
  | .checking, .go => some (system.checkpoint id worker (.returned none) .reserving)
  | .reserving, .refused error => system.reserveRefused id worker error
  | .extracting lease, .extracted => some (system.move id worker (.verifying lease))
  | .extracting lease, .panicked error =>
    some (system.publish id worker (.failed error) (.returning lease))
  | .verifying lease, .go => some (system.checkpoint id worker (.returning lease) (.sizing lease))
  | .sizing lease, .refused error =>
    some (system.publish id worker (.failed error) (.returning lease))
  | .sizing lease, .measured size => some (system.move id worker (.committing lease size))
  | .committing lease size, .canonicalized localPath nowUnixMs error =>
    (system.storage.step (.validate lease localPath size nowUnixMs)).map fun storage =>
      { system with storage := storage }.move id worker
        (if storage.reservations.lookup lease = some Reservation.refused then .refusing lease error
        else .inserting lease)
  | .inserting lease, .go => system.useStore id worker (.insert lease) (.completing lease)
  | .refusing lease error, .removed done =>
    system.useStore id worker (.drop lease done) (.failing lease error)
  | .failing lease error, .go =>
    some (system.publish id worker (.failed error) (.returned (some lease)))
  | .completing lease, .go =>
    some (system.publish id worker (.completed (.materialized lease)) (.returned (some lease)))
  | .returning lease, .removed done =>
    system.useStore id worker (.drop lease done) (.returned (some lease))
  | _, _ => none

def runMaterialize (archiveName : String) : Phase → Signal → Option System
  | .reserving, .reserved => system.reserve id worker .looping
  | .looping lease, .go => some (system.checkpoint id worker (.returning lease) (.extracting lease))
  | .extracting lease, .backendFailed diagnostic =>
    if isPasswordError diagnostic then some (system.move id worker (.raising lease))
    else some (system.publish id worker (.failed (materializeError diagnostic)) (.returning lease))
  | .raising lease, .go => some (system.raiseChallenge id worker archiveName lease)
  | .awaiting lease, .response response =>
    if response.isPassword then
      some (system.move id { worker with attempt := worker.attempt + 1 } (.looping lease))
    else some (system.move id worker (.returning lease))
  | .awaiting lease, .poll =>
    some (system.checkpoint id worker (.returning lease) (.awaiting lease))
  | phase, signal => runShared system id worker phase signal

def runDragStage (session : ArchiveSessionId)
    (files : Nat) : Phase → Signal → Option System
  | .reserving, .reserved => system.reserve id worker .announcing
  | .announcing lease, .go =>
    some (system.publish id worker (.progress 0 (some 100)
      (some (String.ofList ("Staging ".toList ++ decimal files ++
        " files for drag...".toList)))) (.extracting lease))
  | .extracting lease, .progress percent currentFile =>
    some (system.publish id worker
      (.progress percent (some 100) (some currentFile)) (.extracting lease))
  | .extracting lease, .backendFailed diagnostic =>
    some (system.move id worker (.judging lease diagnostic))
  | .judging lease diagnostic, .go =>
    if system.registry.isCancelled id then some (system.move id worker (.returning lease))
    else
      some (system.publish id worker
        (.failed (dragStageError session diagnostic)) (.returning lease))
  | phase, signal => runShared system id worker phase signal

def stepWorker (signal : Signal) : Option System :=
  match worker.kind with
  | .materialize archiveName => runMaterialize system id worker archiveName worker.phase signal
  | .dragStage session files => runDragStage system id worker session files worker.phase signal

end

inductive Action where
  | call (call : Call)
  | spawn (id : OperationId) (kind : WorkerKind)
  | signal (id : OperationId) (signal : Signal)
  | store (action : Materialization.Action)

/-- The sections of the store that other tasks take. -/
def isForeign : Materialization.Action → Bool
  | .renew _ _ | .release _ _ | .sweepExpired _ _ | .removeNext _ _ | .finish _ => true
  | _ => false

/-- One atomic section of one task. Only its worker publishes a state of an operation,
cancellations apart. -/
def step (system : System) : Action → Option System
  | .call call =>
    let called := (callStep system.shared call).map fun shared => { system with shared := shared }
    match call with
    | .transition id _ =>
      if system.workers.lookup id = none then
        called.map fun next => { next with foreign := id :: next.foreign }
      else none
    | _ => called
  | .spawn id kind =>
    if system.registry.eventsOf id ≠ [] ∧ system.workers.lookup id = none ∧ id ∉ system.foreign then
      some { system with
        workers := system.workers.insert id
          { kind := kind
            attempt := 1
            phase := .spawned } }
    else none
  | .signal id signal =>
    match system.workers.lookup id with
    | some worker => stepWorker system id worker signal
    | none => none
  | .store action =>
    if isForeign action then
      (system.storage.step action).map fun storage => { system with storage := storage }
    else none

end Arclain.MaterializationWorkers
