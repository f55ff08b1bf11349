import Arclain.OperationRegistryHistory

namespace Arclain.OperationWorkers

/-!
# The workers of extractions, merges and archive opens

Three background workers that raise challenges: each is a loop around one blocking attempt
that may need a password.

The state between two atomic sections of all tasks is a `System`.  What the surroundings of
a worker answer is part of the action, and the application does not shut down.
-/

open OperationRegistry

inductive MergeAttempt where
  | merged (outputPath : String)
  | passwordRequired
  | failed
  deriving DecidableEq

/-- What `run_merge` does with the outcome of an attempt. -/
inductive PostAttempt where
  | complete
  | stop
  | prompt
  | fail

def decidePostAttempt : MergeAttempt → Bool → PostAttempt
  | .merged _, _ => .complete
  | .passwordRequired, true => .stop
  | .passwordRequired, false => .prompt
  | .failed, true => .stop
  | .failed, false => .fail

inductive WorkerKind where
  | extract (destination : String)
  | merge (deleteOriginals : Bool)
  | openArchive
  deriving DecidableEq

inductive Question where
  | password
  | confirmOverwrite (destination : String)
  deriving DecidableEq

inductive Phase where
  | spawned
  | preparing
  | planning
  | prepared
  | looping
  | attempting
  | running
  | polling
  | finishing
  | decided (attempt : MergeAttempt)
  | merged (outputPath : String)
  | announcing (outputPath : String)
  | confirming
  | listed
  | opening
  | opened (session : ArchiveSessionId)
  | completing (session : ArchiveSessionId)
  | comparing (session : ArchiveSessionId)
  | raising (question : Question)
  | awaiting (question : Question)
  | returned
  deriving DecidableEq

/-- The function a worker runs, the archive it names in a challenge, its password attempt,
its chunk, and its phase. -/
structure Worker where
  kind : WorkerKind
  archiveName : String
  attempt : Nat
  chunkIndex : Nat
  totalChunks : Nat
  phase : Phase

/-- What the surroundings of a worker answer it. -/
inductive Answer where
  | refused (error : ApplicationError)
  | proceed
  | ask
  | nothing
  | chunks (further : Nat)
  | progress (percent : Nat) (message : Option String)
  | unfinished
  | succeeded
  | passwordRequired
  | attempted (attempt : MergeAttempt)
  deriving DecidableEq

/-- Nothing but the worker itself, an answer, the response it waits for, or the poll for a
cancellation beside that wait. -/
inductive Signal where
  | go
  | answered (answer : Answer)
  | response
  | poll
  deriving DecidableEq

/-- The registry, the waiters and every worker, with the responses accepted and those
delivered. -/
structure System where
  shared : Shared
  senders : List OperationId
  delivered : KeyedMap OperationId ChallengeResponse
  responding : List (OperationId × ChallengeResponse)
  nextChallengeId : ChallengeId
  workers : KeyedMap OperationId Worker
  openSessions : List ArchiveSessionId
  nextSessionId : ArchiveSessionId
  deletedParts : List OperationId

/-- `merge_backend_error`, without the backend's own text. -/
def mergeBackendError : ApplicationError :=
  ({ kind := .backend
     summary := "failed to merge the split archive" } :
    ApplicationError).withRecoverability .retry

def expectedPasswordError : ApplicationError :=
  { kind := .internal
    summary := "expected a password response to a password challenge" }

def expectedCollisionError : ApplicationError :=
  { kind := .internal
    summary := "expected a collision response to a collision challenge" }

namespace System

def initial : System where
  shared := Shared.initial
  senders := []
  delivered := ∅
  responding := []
  nextChallengeId := 1
  workers := ∅
  openSessions := []
  nextSessionId := 1
  deletedParts := []

def registry (system : System) : OperationRegistry := system.shared.registry

section

variable (system : System) (id : OperationId)

def update (worker : Worker) : System :=
  { system with workers := system.workers.insert id worker }

def move (worker : Worker) (phase : Phase) : System :=
  system.update id { worker with phase := phase }

def publish (state : OperationState) : System :=
  { system with
    shared := { system.shared with
      registry := (system.registry.transition id state).2 } }

/-- `fail`, after which the worker returns. -/
def fail (worker : Worker)
    (error : ApplicationError) : System :=
  (system.publish id (.failed error)).move id worker .returned

def complete (worker : Worker)
    (result : OperationResult) : System :=
  (system.publish id (.completed result)).move id worker .returned

/-- One cancellation check: return, or go on to a phase. -/
def checkpoint (worker : Worker) (phase : Phase) : System :=
  if system.registry.isCancelled id then system.move id worker .returned
  else system.move id worker phase

/-- `ChallengeWaiters::cancel`. -/
def withdraw : System :=
  { system with senders := system.senders.erase id }

end

/-- `ArchiveSessionStore::close`. -/
def closeSession (system : System) (session : ArchiveSessionId) : System :=
  { system with openSessions := system.openSessions.erase session }

def challenge (system : System) (worker : Worker) : Question → Challenge
  | .password => .password system.nextChallengeId worker.archiveName worker.attempt
  | .confirmOverwrite destination => .confirmOverwrite system.nextChallengeId destination

section

variable (system : System) (id : OperationId) (worker : Worker)

/-- Register a waiter, publish the challenge, and wait unless the operation is
gone. -/
def raiseChallenge (question : Question) : System :=
  let registered : System :=
    { system with
      senders := id :: system.senders.erase id
      delivered := system.delivered.erase id
      nextChallengeId := system.nextChallengeId + 1 }
  let state := OperationState.challenge (system.challenge worker question)
  match (system.registry.transition id state).1 with
  | .error _ => (registered.withdraw id).move id worker .returned
  | .ok () => (registered.publish id state).move id worker (.awaiting question)

def pollCancelled : System :=
  if system.registry.isCancelled id then (system.withdraw id).move id worker .returned
  else system

/-- The worker publishes `Started`, and returns if its operation is gone. -/
def start (phase : Phase) : System :=
  match (system.registry.transition id .started).1 with
  | .error _ => system.move id worker .returned
  | .ok () => (system.publish id .started).move id worker phase

end

end System

section

variable (system : System) (id : OperationId) (worker : Worker)

/-- `await_password_retry`, once the response has come: any response that is no password
ends the worker. -/
def awaitPasswordRetry : ChallengeResponse → System
  | .password _ _ =>
    system.update id { worker with attempt := worker.attempt + 1, phase := .looping }
  | _ => system.move id worker .returned

def runExtract (destination : String) : Phase → Signal → Option System
  | .spawned, .go => some (system.start id worker .preparing)
  | .preparing, .answered (.refused error) => some (system.fail id worker error)
  | .preparing, .answered .ask =>
    some (system.move id worker (.raising (.confirmOverwrite destination)))
  | .preparing, .answered .proceed => some (system.move id worker .planning)
  | .planning, .answered .nothing => some (system.complete id worker .none)
  | .planning, .answered (.refused error) => some (system.fail id worker error)
  | .planning, .answered (.chunks further) =>
    some (system.update id
      { worker with
        attempt := 1
        chunkIndex := 0
        totalChunks := further + 1
        phase := .looping })
  | .looping, .go => some (system.checkpoint id worker .attempting)
  | .attempting, .answered (.refused error) => some (system.fail id worker error)
  | .attempting, .answered .succeeded => some (system.move id worker .running)
  | .running, .go => some (system.checkpoint id worker .polling)
  | .polling, .answered (.progress percent message) =>
    some (system.publish id (.progress ((worker.chunkIndex * 100 + percent) / worker.totalChunks)
      (some 100) message))
  | .polling, .answered .unfinished => some (system.move id worker .running)
  | .polling, .answered .succeeded =>
    if worker.chunkIndex + 1 < worker.totalChunks then
      some (system.update id
        { worker with
          attempt := 1
          chunkIndex := worker.chunkIndex + 1
          phase := .looping })
    else some (system.move id worker .finishing)
  | .polling, .answered (.refused error) =>
    if error.kind = .passwordRequired then some (system.move id worker (.raising .password))
    else some (system.fail id worker error)
  | .finishing, .answered (.refused error) => some (system.fail id worker error)
  | .finishing, .answered .succeeded => some (system.complete id worker .none)
  | .raising question, .go => some (system.raiseChallenge id worker question)
  | .awaiting _, .poll => some (system.pollCancelled id worker)
  | .awaiting .password, .response =>
    (system.delivered.lookup id).map (awaitPasswordRetry system id worker)
  | .awaiting (.confirmOverwrite _), .response =>
    match system.delivered.lookup id with
    | some (.confirmOverwrite _ _) => some (system.move id worker .planning)
    | some _ => some (system.fail id worker expectedCollisionError)
    | none => none
  | _, _ => none

def runMerge (deleteOriginals : Bool) : Phase → Signal → Option System
  | .spawned, .go => some (system.start id worker .preparing)
  | .preparing, .answered (.refused error) => some (system.fail id worker error)
  | .preparing, .answered .proceed => some (system.move id worker .prepared)
  | .prepared, .go => some (system.checkpoint id worker .looping)
  | .looping, .go => some (system.checkpoint id worker .attempting)
  | .attempting, .answered (.progress percent message) =>
    some (system.publish id (.progress percent (some 100) message))
  | .attempting, .answered (.refused error) => some (system.fail id worker error)
  | .attempting, .answered (.attempted attempt) => some (system.move id worker (.decided attempt))
  | .decided attempt, .go =>
    match decidePostAttempt attempt (system.registry.isCancelled id), attempt with
    | .complete, .merged outputPath => some (system.move id worker (.merged outputPath))
    | .complete, _ | .stop, _ => some (system.move id worker .returned)
    | .fail, _ => some (system.fail id worker mergeBackendError)
    | .prompt, _ => some (system.move id worker (.raising .password))
  | .merged outputPath, .go =>
    let announced :=
      if deleteOriginals then
        system.publish id (.progress 100 (some 100) (some "Deleting original parts..."))
      else system
    some (announced.move id worker (.announcing outputPath))
  | .announcing outputPath, .go =>
    let completed := system.publish id (.completed (.merged outputPath))
    match (system.registry.transition id (.completed (.merged outputPath))).1 with
    | .error _ => some (completed.move id worker .returned)
    | .ok () =>
      if deleteOriginals then some (completed.move id worker .confirming)
      else some (completed.move id worker .returned)
  | .confirming, .go =>
    match system.registry.operationState id with
    | some (.completed (.merged _)) =>
      some ({ system with
        deletedParts := id :: system.deletedParts }.move id worker .returned)
    | _ => some (system.move id worker .returned)
  | .raising question, .go => some (system.raiseChallenge id worker question)
  | .awaiting _, .poll => some (system.pollCancelled id worker)
  | .awaiting .password, .response =>
    (system.delivered.lookup id).map (awaitPasswordRetry system id worker)
  | _, _ => none

def runOpenArchive : Phase → Signal → Option System
  | .spawned, .go => some (system.start id worker .looping)
  | .looping, .go => some (system.checkpoint id worker .attempting)
  | .attempting, .answered (.refused error) => some (system.fail id worker error)
  | .attempting, .answered .passwordRequired => some (system.move id worker (.raising .password))
  | .attempting, .answered .succeeded => some (system.move id worker .listed)
  | .listed, .go => some (system.checkpoint id worker .opening)
  | .opening, .answered (.refused error) => some (system.fail id worker error)
  | .opening, .answered .succeeded =>
    some ({ system with
      openSessions := system.nextSessionId :: system.openSessions
      nextSessionId := system.nextSessionId + 1 }.move id worker (.opened system.nextSessionId))
  | .opened session, .go =>
    if system.registry.isCancelled id then
      some ((system.closeSession session).move id worker .returned)
    else some (system.move id worker (.completing session))
  | .completing session, .go =>
    some ((system.publish id (.completed (.archiveOpened session))).move id
      worker (.comparing session))
  | .comparing session, .go =>
    match system.registry.operationState id with
    | some (.completed _) => some (system.move id worker .returned)
    | _ => some ((system.closeSession session).move id worker .returned)
  | .raising question, .go => some (system.raiseChallenge id worker question)
  | .awaiting _, .poll => some (system.pollCancelled id worker)
  | .awaiting .password, .response =>
    match system.delivered.lookup id with
    | some (.password _ _) =>
      some (system.update id { worker with attempt := worker.attempt + 1, phase := .looping })
    | some _ => some (system.fail id worker expectedPasswordError)
    | none => none
  | _, _ => none

end

inductive Action where
  | call (call : Call)
  | spawn (id : OperationId) (kind : WorkerKind) (archiveName : String)
  | signal (id : OperationId) (signal : Signal)
  | respond (id : OperationId) (response : ChallengeResponse)
  | deliver (id : OperationId) (response : ChallengeResponse)

def stepWorker (system : System) (id : OperationId) (worker : Worker)
    (signal : Signal) : Option System :=
  match worker.kind with
  | .extract destination => runExtract system id worker destination worker.phase signal
  | .merge deleteOriginals => runMerge system id worker deleteOriginals worker.phase signal
  | .openArchive => runOpenArchive system id worker worker.phase signal

/-- One atomic section of one task; `respond_to_challenge` resolves the challenge first and
delivers the response after it. -/
def step (system : System) : Action → Option System
  | .call call => (callStep system.shared call).map fun shared => { system with shared := shared }
  | .spawn id kind archiveName =>
    if system.registry.eventsOf id ≠ [] ∧ system.workers.lookup id = none then
      some (system.update id
        { kind := kind
          archiveName := archiveName
          attempt := 1
          chunkIndex := 0
          totalChunks := 1
          phase := .spawned })
    else none
  | .signal id signal =>
    match system.workers.lookup id with
    | some worker => stepWorker system id worker signal
    | none => none
  | .respond id response =>
    match system.registry.resolveChallenge id response.id with
    | (.error _, _) => some system
    | (.ok (), registry) =>
      some { system with
        shared := { system.shared with registry := registry }
        responding := (id, response) :: system.responding }
  | .deliver id response =>
    if (id, response) ∈ system.responding then
      if id ∈ system.senders then
        some { system with
          responding := system.responding.erase (id, response)
          senders := system.senders.erase id
          delivered := system.delivered.insert id response }
      else
        some { system with
          responding := system.responding.erase (id, response) }
    else none

end Arclain.OperationWorkers
