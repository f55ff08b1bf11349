import Arclain.ActionRun
import Arclain.CallsInFlight
import Arclain.OperationEvent
import Arclain.Text

namespace Arclain.Prompts

/-!
# The password prompts of a tab

The operations of a tab share one password dialog, which is for the front of a queue of
challenges.  The queue is updated in one step, the dialog is read and written back in two.
-/

structure PendingChallenge where
  operationId : OperationId
  challenge : Challenge

/-- `PasswordDialog`; `shown` is its `show`. -/
structure PasswordDialog where
  shown : Bool := false
  password : Str := []
  savePassword : Bool := false
  error : Str := []
  targetPath : Option Str := none
  deriving DecidableEq

def attemptError (attempt : Nat) : Str :=
  if 1 < attempt then "Incorrect password".toList
  else []

namespace PasswordDialog

/-- What `handle_password_challenge` makes of the dialog. -/
def ask (dialog : PasswordDialog) (attempt : Nat) : PasswordDialog :=
  { dialog with
    shown := true
    password := []
    error := attemptError attempt }

/-- What `dequeue_and_present_next` makes of the dialog. -/
def present (dialog : PasswordDialog) : Option PendingChallenge → PasswordDialog
  | some next =>
    match next.challenge with
    | .password _ _ attempt => dialog.ask attempt
    | _ => dialog.ask 0
  | none =>
    { dialog with
      shown := false
      error := [] }

variable (dialog : PasswordDialog)

theorem shown_present (next : Option PendingChallenge) :
    (dialog.present next).shown = next.isSome := by
  cases next with
  | none => rfl
  | some next =>
    rw [present]
    split
    · rfl
    · rfl

end PasswordDialog

inductive PasswordDialogResult where
  | unlock
  | cancel

/-- What the user does in one frame in which the dialog is drawn. -/
structure UserInput where
  password : Str
  savePassword : Bool
  result : Option PasswordDialogResult

inductive PasswordFeatureAction where
  | passwordSubmitted (operation : OperationId) (challenge : ChallengeId) (password : Str)
  | cancelled (operation : OperationId)
  | passwordSubmittedForReopen (path password : Str)

/-- The action that a result asks for, with the challenge that was at the front. -/
def PasswordDialogResult.action (dialog : PasswordDialog) (pending : Option PendingChallenge) :
    PasswordDialogResult → Option PasswordFeatureAction
  | .unlock =>
    match pending with
    | some pending =>
      match pending.challenge with
      | .password id _ _ => some (.passwordSubmitted pending.operationId id dialog.password)
      | _ => none
    | none => dialog.targetPath.map fun path => .passwordSubmittedForReopen path dialog.password
  | .cancel => pending.map fun pending => .cancelled pending.operationId

/-- Whether the handler of a terminal event drains the queue of its operation. -/
def drains : OperationKind → OperationState → Bool
  | .extract, .completed _ | .extract, .cancelled | .extract, .failed _ => true
  | .merge, .completed (.merged _) | .merge, .cancelled | .merge, .failed _ => true
  | .openArchive, .completed (.archiveOpened _)
  | .openArchive, .cancelled | .openArchive, .failed _ => true
  | .organize, .completed _ | .organize, .cancelled | .organize, .failed _ => true
  | _, _ => false

/-- The signals of a tab that its prompts are about, its operations, the terminal events
handled, and the user's answers. -/
structure Tab where
  queue : List PendingChallenge := []
  dialog : PasswordDialog := {}
  origins : List OperationId := []
  handled : List OperationId := []
  actions : List PasswordFeatureAction := []

/-- A tab asks for a password when a challenge is queued. -/
def Tab.asks (tab : Tab) : Bool := !tab.queue.isEmpty

/-- What is left of a call when it has written the dialog. -/
inductive After where
  | ends
  | forgets (operation : OperationId)
  | rereads
  deriving DecidableEq

/-- Where a handler stands, with what it holds.  Each is named by the step that it takes
next. -/
inductive Call where
  /-- `reconcile_one` asks for the operation. -/
  | querying (operation : OperationId)
  /-- `reconcile_one` looks up the tab of an operation that is lost. -/
  | losing (operation : OperationId)
  /-- `reconcile_one` forgets an operation that is lost. -/
  | abandoning (operation : OperationId)
  /-- `handle_event` looks up the tab of an event. -/
  | resolving (event : OperationEvent)
  /-- `handle_password_challenge` queues a challenge. -/
  | queueing (operation : OperationId) (challenge : Challenge) (attempt : Nat)
  /-- `handle_password_challenge` reads the dialog. -/
  | asking (attempt : Nat)
  /-- The handler of a terminal event forgets the origin. -/
  | forgetting (operation : OperationId) (drains : Bool)
  /-- `dequeue_and_present_next` takes the entries of an operation out of the queue. -/
  | draining (operation : OperationId) (after : After)
  /-- `dequeue_and_present_next` reads the dialog. -/
  | presenting (next : Option PendingChallenge) (after : After)
  /-- The dialog is written. -/
  | writing (dialog : PasswordDialog) (after : After)
  /-- `handle_password_dialogs` has read the dialog and draws it. -/
  | rendering (dialog : PasswordDialog)
  /-- `handle_password_dialogs` reads the dialog again. -/
  | rereading
  /-- `set_if_changed` compares the dialog. -/
  | comparing (dialog : PasswordDialog)

namespace Call

/-- What `handle_event` goes on to, if the operation of the event is tracked. -/
def handle (event : OperationEvent) : Option Call :=
  match event.state with
  | .challenge (.password id name attempt) =>
    some (.queueing event.operationId (.password id name attempt) attempt)
  | state =>
    if state.isTerminal then some (.forgetting event.operationId (drains event.kind state))
    else none

def afterwards : After → Option Call
  | .ends => none
  | .forgets operation => some (.abandoning operation)
  | .rereads => some .rereading

/-- The next atomic step of a handler. A frame that draws the dialog waits for the user's
input. -/
def advance (snapshots : KeyedMap OperationId OperationEvent)
    (tab : Tab) : Call → Option (Tab × Option Call)
  | .querying operation =>
    match snapshots.lookup operation with
    | some event => some (tab, some (.resolving event))
    | none => some (tab, some (.losing operation))
  | .losing operation =>
    if operation ∈ tab.origins then some (tab, some (.draining operation (.forgets operation)))
    else some (tab, some (.abandoning operation))
  | .abandoning operation => some ({ tab with origins := tab.origins.filter (· ≠ operation) }, none)
  | .resolving event =>
    if event.kind = .pluginAction then some (tab, none)
    else if event.operationId ∈ tab.origins then some (tab, handle event)
    else some (tab, none)
  | .queueing operation challenge attempt =>
    let queue := tab.queue ++ [{ operationId := operation, challenge := challenge }]
    some ({ tab with queue := queue },
      if tab.asks then none else some (.asking attempt))
  | .asking attempt => some (tab, some (.writing (tab.dialog.ask attempt) .ends))
  | .forgetting operation drains =>
    let origins := tab.origins.filter (· ≠ operation)
    if drains then some ({ tab with origins := origins }, some (.draining operation .ends))
    else
      some ({ tab with
        origins := origins
        handled := operation :: tab.handled }, none)
  | .draining operation after =>
    let queue := tab.queue.filter fun pending => pending.operationId ≠ operation
    let handled :=
      -- An answer is no terminal event.
      if after = .rereads then tab.handled else operation :: tab.handled
    some ({ tab with
      queue := queue
      handled := handled }, some (.presenting queue.head? after))
  | .presenting next after => some (tab, some (.writing (tab.dialog.present next) after))
  | .writing dialog after => some ({ tab with dialog := dialog }, afterwards after)
  | .rendering _ => none
  | .rereading => some (tab, some (.comparing tab.dialog))
  | .comparing dialog =>
    if tab.dialog = dialog then some (tab, none)
    else some (tab, some (.writing dialog .ends))

/-- A frame goes on with the user's input. A result reads the front of the queue. -/
def render (tab : Tab) (input : UserInput) : Call → Option (Tab × Option Call)
  | .rendering dialog =>
    if dialog.shown then
      let edited :=
        { dialog with
          password := input.password
          savePassword := input.savePassword }
      match input.result with
      | none => some (tab, some (.comparing edited))
      | some result =>
        let actions := (result.action edited tab.queue.head?).toList ++ tab.actions
        match tab.queue.head? with
        | some pending =>
          some ({ tab with actions := actions }, some (.draining pending.operationId .rereads))
        | none =>
          some ({ tab with actions := actions }, some (.comparing { edited with shown := false }))
    else some (tab, some (.comparing dialog))
  | _ => none

end Call

/-- Who handles events: the bridge, a task that starts an operation, or the render thread
with what the user does. -/
inductive Handler where
  | bridge
  | task (number : Nat)
  | renderThread
  deriving DecidableEq

/-- A tab, the events of its operations, and the handlers that are running. -/
structure System where
  tab : Tab := {}
  /-- What the registry says of each operation that it still has. -/
  snapshots : KeyedMap OperationId OperationEvent := ∅
  /-- The operations whose terminal event was published. -/
  ended : List OperationId := []
  /-- The events that the bridge has not received. -/
  channel : List OperationEvent := []
  calls : KeyedMap Handler Call := ∅

namespace System

/-- A step of the registry, of a handler or of the user. -/
inductive Action where
  | publish (event : OperationEvent)
  | evict (operation : OperationId)
  | lag (missed : Nat)
  | receive
  | reconcile (operation : OperationId)
  | register (number : Nat) (operation : OperationId)
  | frame
  | render (input : UserInput)
  | advance (handler : Handler)

/-- The event that the registry publishes next of an operation: it never leaves a terminal
state and keeps its kind. -/
def Publishable (system : System) (event : OperationEvent) : Prop :=
  event.operationId ∉ system.ended ∧
    match system.snapshots.lookup event.operationId with
    | some last => event.sequence = last.sequence + 1 ∧ event.kind = last.kind
    | none => event.sequence = 1

instance (system : System) (event : OperationEvent) : Decidable (system.Publishable event) := by
  unfold Publishable
  split <;> infer_instance

def enter (system : System) (handler : Handler) (tab : Tab) (call : Call) : Option System :=
  match system.calls.lookup handler with
  | some _ => none
  | none =>
    some { system with
      tab := tab
      calls := system.calls.insert handler call }

def proceed (system : System) (handler : Handler)
    (step : Call → Option (Tab × Option Call)) : Option System :=
  match system.calls.lookup handler with
  | none => none
  | some call =>
    (step call).map fun (tab, rest) =>
      { system with
        tab := tab
        calls := CallsInFlight.proceed system.calls handler rest }

def step (system : System) : Action → Option System
  | .publish event =>
    if system.Publishable event then
      some { system with
        snapshots := system.snapshots.insert event.operationId event
        ended :=
          if event.state.isTerminal then event.operationId :: system.ended
          else system.ended
        channel := system.channel ++ [event] }
    else none
  | .evict operation =>
    if operation ∈ system.ended then
      some { system with snapshots := system.snapshots.erase operation }
    else none
  | .lag missed => some { system with channel := system.channel.drop missed }
  | .receive =>
    match system.channel with
    | [] => none
    | event :: later => { system with channel := later }.enter .bridge system.tab (.resolving event)
  | .reconcile operation => system.enter .bridge system.tab (.querying operation)
  | .register number operation =>
    system.enter (.task number) { system.tab with origins := operation :: system.tab.origins }
      (.querying operation)
  | .frame => system.enter .renderThread system.tab (.rendering system.tab.dialog)
  | .render input => system.proceed .renderThread (Call.render system.tab input)
  | .advance handler => system.proceed handler (Call.advance system.snapshots system.tab)

def start : System where

def Quiet (system : System) : Prop := system.calls.keys = []

instance (system : System) : Decidable system.Quiet := inferInstanceAs (Decidable (_ = _))

end System

end Arclain.Prompts
