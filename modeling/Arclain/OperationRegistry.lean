import Arclain.ActionRun
import Arclain.OperationEvent
import Mathlib.Data.List.Sort

namespace Arclain

/-!
# The operation registry

`records` has the operations that have not been evicted, and `events` everything sent on the
broadcast channel.  Every public method is cut into its sections.
-/

/-- How many terminal operations the registry keeps. -/
def maxTerminalHistory : Nat := 256

structure OperationRecord where
  kind : OperationKind
  lastSequence : Nat
  state : OperationState
  pendingChallenge : Option ChallengeId

/-- The registry, its broadcast history, the cancellation flags, and the id counter. -/
structure OperationRegistry where
  records : KeyedMap OperationId OperationRecord
  events : List OperationEvent
  cancelFlags : OperationId → Bool
  nextOperationId : OperationId

def unknownOperationError (id : OperationId) : ApplicationError :=
  ({ kind := .notFound
     summary := "no such operation"
     operationId := some id } : ApplicationError).withRecoverability .fatal

/-- The rejection of a response that answers no pending challenge. -/
def challengeMismatchError (id : OperationId) : ApplicationError :=
  ({ kind := .conflict
     summary := "challenge response does not match the operation's pending challenge"
     operationId := some id } : ApplicationError).withRecoverability .userAction

namespace OperationRegistry

/-- `OperationRegistry::new`, with the id counter at its first value. -/
def new : OperationRegistry where
  records := ∅
  events := []
  cancelFlags := fun _ => false
  nextOperationId := 1

def publish (registry : OperationRegistry) (event : OperationEvent) : OperationRegistry :=
  { registry with events := registry.events ++ [event] }

/-- The write section of `begin`, for an id minted before the lock was taken. -/
def insertAccepted (registry : OperationRegistry) (id : OperationId)
    (kind : OperationKind) : OperationRegistry :=
  ({ registry with
    records := registry.records.insert id
      { kind := kind
        lastSequence := 1
        state := .accepted
        pendingChallenge := none } }).publish
    { operationId := id
      sequence := 1
      kind := kind
      state := .accepted }

def advance (record : OperationRecord) (state : OperationState) : OperationRecord :=
  { kind := record.kind
    lastSequence := record.lastSequence + 1
    state := state
    pendingChallenge := state.pendingChallenge }

section

variable (registry : OperationRegistry)

/-- The write section of `transition`. -/
def transition (id : OperationId) (state : OperationState) :
    Except ApplicationError Unit × OperationRegistry :=
  match registry.records.lookup id with
  | none => (.error (unknownOperationError id), registry)
  | some record =>
    if record.state.isTerminal then (.ok (), registry)
    else
      (.ok (),
        ({ registry with
          records := registry.records.insert id (advance record state) }).publish
          { operationId := id
            sequence := record.lastSequence + 1
            kind := record.kind
            state := state })

/-- The read section of `cancel`: raise the flag and report whether it was already terminal. -/
def cancelRead (id : OperationId) :
    Except ApplicationError Bool × OperationRegistry :=
  match registry.records.lookup id with
  | none => (.error (unknownOperationError id), registry)
  | some record =>
    (.ok record.state.isTerminal,
      { registry with
        cancelFlags := Function.update registry.cancelFlags id true })

/-- `is_cancelled`: the flag of a record that is still kept. -/
def isCancelled (id : OperationId) : Bool :=
  match registry.records.lookup id with
  | some _ => registry.cancelFlags id
  | none => false

/-- `operation`: the state of a record that is still kept. -/
def operationState (id : OperationId) : Option OperationState :=
  (registry.records.lookup id).map OperationRecord.state

def resolveChallenge (id : OperationId) (challenge : ChallengeId) :
    Except ApplicationError Unit × OperationRegistry :=
  match registry.records.lookup id with
  | none => (.error (unknownOperationError id), registry)
  | some record =>
    if record.pendingChallenge = some challenge then
      (.ok (),
        { registry with
          records := registry.records.insert id { record with pendingChallenge := none } })
    else (.error (challengeMismatchError id), registry)

def terminalIds : List OperationId :=
  ((registry.records.entries.filter fun entry =>
    entry.2.state.isTerminal).map Sigma.fst).insertionSort (· ≤ ·)

/-- `evict_excess_history`: drop the oldest terminal records over the bound. -/
def evictExcessHistory : OperationRegistry :=
  let terminalCount := registry.records.count fun record => record.state.isTerminal
  if terminalCount ≤ maxTerminalHistory then registry
  else
    { registry with
      records :=
        (registry.terminalIds.take (terminalCount - maxTerminalHistory)).foldl
          (fun records id => records.erase id) registry.records }

def eventsOf (id : OperationId) : List OperationEvent :=
  registry.events.filter fun event => event.operationId = id

end

end OperationRegistry

end Arclain
