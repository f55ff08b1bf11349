import Arclain.KeyedMap

namespace Arclain

/-!
# Operation events, challenges and application errors

The vocabulary every in-flight operation reports through.  Payloads that no
modelled function inspects (archive snapshots, leases, plugin updates) are kept
as the identifier by which a frontend would look them up.
-/

abbrev OperationId := Nat
abbrev ChallengeId := Nat
abbrev ArchiveSessionId := Nat
abbrev EntryId := Nat
abbrev MaterializationLeaseId := Nat

/-- Which kind of long-running, cancellable action an operation performs. -/
inductive OperationKind where
  | archiveModify
  | convert
  | dragStage
  | extract
  | materialize
  | merge
  | openArchive
  | organize
  | pipeline
  | pluginAction
  deriving DecidableEq

inductive ApplicationErrorKind where
  | backend
  | busy
  | cancelled
  | conflict
  | externalToolMissing
  | internal
  | invalidInput
  | notFound
  | passwordRequired
  | permissionDenied
  | persistence
  | plugin
  | unsupported
  deriving DecidableEq

/-- Whether, and how, an operation might succeed if attempted again. -/
inductive Recoverability where
  | retry
  | userAction
  | fatal
  deriving DecidableEq

inductive SuggestedAction where
  | checkPermissions
  | chooseDestination
  | installExternalTool
  | retry
  | supplyPassword
  deriving DecidableEq

/-- The error type of every facade method. The generated correlation id is left out. -/
structure ApplicationError where
  kind : ApplicationErrorKind
  summary : String
  diagnostic : Option String := none
  recoverability : Recoverability := .fatal
  retryable : Bool := false
  suggestedAction : Option SuggestedAction := none
  operationId : Option OperationId := none
  archiveSessionId : Option ArchiveSessionId := none
  entryId : Option EntryId := none
  path : Option String := none
  field : Option String := none
  deriving DecidableEq

namespace ApplicationError

/-- An error is retryable exactly when its recoverability says so. -/
def withRecoverability (error : ApplicationError)
    (recoverability : Recoverability) : ApplicationError :=
  { error with
    retryable := recoverability == .retry
    recoverability := recoverability }

end ApplicationError

/-- A prompt an in-flight operation raises when it needs input. -/
inductive Challenge where
  | password (id : ChallengeId) (archiveName : String) (attempt : Nat)
  | confirmOverwrite (id : ChallengeId) (destination : String)
  | confirmDestructiveAction (id : ChallengeId) (summary : String)
  | missingExternalTool (id : ChallengeId) (tool : String)
  | retryPermission (id : ChallengeId) (path : String)
  deriving DecidableEq

namespace Challenge

def id : Challenge → ChallengeId
  | .password id _ _ | .confirmOverwrite id _ | .confirmDestructiveAction id _ => id
  | .missingExternalTool id _ | .retryPermission id _ => id

end Challenge

inductive ChallengeResponse where
  | password (id : ChallengeId) (value : String)
  | confirmOverwrite (id : ChallengeId) (overwrite : Bool)
  | confirmDestructiveAction (id : ChallengeId) (confirmed : Bool)
  | missingExternalTool (id : ChallengeId) (retry : Bool)
  | retryPermission (id : ChallengeId) (retry : Bool)
  deriving DecidableEq

namespace ChallengeResponse

def id : ChallengeResponse → ChallengeId
  | .password id _ | .confirmOverwrite id _ | .confirmDestructiveAction id _ => id
  | .missingExternalTool id _ | .retryPermission id _ => id

def isPassword : ChallengeResponse → Bool
  | .password _ _ => true
  | _ => false

end ChallengeResponse

/-- The payload of a terminal `Completed` state. -/
inductive OperationResult where
  | none
  | archiveOpened (session : ArchiveSessionId)
  | materialized (lease : MaterializationLeaseId)
  | pluginUiUpdated
  | merged (outputPath : String)
  deriving DecidableEq

/-- The lifecycle state of one in-flight or finished operation. -/
inductive OperationState where
  | accepted
  | started
  | progress (completedUnits : Nat) (totalUnits : Option Nat) (message : Option String)
  | challenge (challenge : Challenge)
  | snapshotChanged (session : ArchiveSessionId) (revision : Nat)
  | completed (result : OperationResult)
  | cancelled
  | failed (error : ApplicationError)
  deriving DecidableEq

namespace OperationState

def isTerminal : OperationState → Bool
  | .completed _ | .cancelled | .failed _ => true
  | _ => false

def pendingChallenge : OperationState → Option ChallengeId
  | .challenge raised => some raised.id
  | _ => Option.none

end OperationState

/-- One published transition of one operation. -/
structure OperationEvent where
  operationId : OperationId
  sequence : Nat
  kind : OperationKind
  state : OperationState

end Arclain
