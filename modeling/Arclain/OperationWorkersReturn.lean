import Arclain.OperationConclusion
import Arclain.OperationWorkers

namespace Arclain.OperationWorkers

/-!
# What a returned worker leaves behind

Two of a worker's ways to end leave the operation as it was: a response of another kind to
the password challenge of an extraction or a merge, and a cancellation that has raised the
flag and not yet recorded itself.
-/

open Option OperationRegistry ActionRun Worker

/-- The worker has returned, or publishes nothing any more. -/
def Phase.isOver : Phase → Bool
  | .confirming | .comparing _ | .returned => true
  | _ => false

namespace Worker

/-- The worker waits in `await_password_retry`. -/
def asksPassword (worker : Worker) : Bool :=
  match worker.kind, worker.phase with
  | .openArchive, _ => false
  | _, .awaiting .password => true
  | _, _ => false

/-- The section the signal starts returns when the operation is cancelled. -/
def heedsCancellation (worker : Worker) (signal : Signal) : Bool :=
  match worker.phase, signal with
  | .prepared, .go | .looping, .go | .running, .go | .listed, .go | .opened _, .go => true
  | .decided (.merged _), .go => false
  | .decided _, .go | .awaiting _, .poll => true
  | _, _ => false

end Worker

/-- An extraction or a merge that waits for a password takes no other response,
unless its operation is concluded. -/
def answered (system : System) : Action → Bool
  | .signal id .response =>
    match system.workers.lookup id, system.delivered.lookup id with
    | some worker, some response =>
      !worker.asksPassword || response.isPassword || system.registry.concluded id
    | _, _ => true
  | _ => true

/-- A worker does not check for a cancellation whose flag is raised but not yet recorded. -/
def unhurried (system : System) : Action → Bool
  | .signal id signal =>
    match system.workers.lookup id with
    | some worker =>
      !worker.heedsCancellation signal || decide (id ∉ system.shared.cancelling) ||
        system.registry.concluded id
    | none => true
  | _ => true

/-- A section of a worker may publish one state of its operation. -/
def Announces (system next : System) (id : OperationId) : Prop :=
  next.shared = system.shared ∨ ∃ state, next.shared = (system.publish id state).shared

theorem Announces.reports {system next : System} {id : OperationId}
    (announces : Announces system next id) : Reports system.shared next.shared :=
  announces.imp_right fun ⟨state, published⟩ => ⟨.transition id state, published ▸ rfl⟩

/-- What one atomic section of a worker does. -/
inductive Section (system next : System) (id : OperationId) (worker : Worker)
    (signal : Signal) : Prop where
  | idle (workers : next.workers = system.workers) (announces : Announces system next id)
  | moved {after : Worker} (workers : next.workers = system.workers.insert id after)
      (sameKind : after.kind = worker.kind)
      (announces : Announces system next id)
      (active : after.phase.isOver = false)
  | finished {after : Worker} {state : OperationState}
      (workers : next.workers = system.workers.insert id after)
      (sameKind : after.kind = worker.kind)
      (terminal : state.isTerminal = true)
      (published : next.shared = (system.publish id state).shared)
  | refused {after : Worker} {state : OperationState} {error : ApplicationError}
      (workers : next.workers = system.workers.insert id after)
      (sameKind : after.kind = worker.kind)
      (unchanged : next.shared = system.shared)
      (refused : (system.registry.transition id state).1 = .error error)
  | cancelled {after : Worker} (workers : next.workers = system.workers.insert id after)
      (sameKind : after.kind = worker.kind)
      (unchanged : next.shared = system.shared)
      (heeds : worker.heedsCancellation signal = true)
      (cancelled : system.registry.isCancelled id = true)
  | misanswered {after : Worker} {response : ChallengeResponse}
      (workers : next.workers = system.workers.insert id after)
      (sameKind : after.kind = worker.kind)
      (unchanged : next.shared = system.shared)
      (waiting : signal = .response)
      (asks : worker.asksPassword = true)
      (delivered : system.delivered.lookup id = some response)
      (other : response.isPassword = false)
  | closed {after : Worker} (workers : next.workers = system.workers.insert id after)
      (sameKind : after.kind = worker.kind)
      (unchanged : next.shared = system.shared)
      (isOver : worker.phase.isOver = true)

namespace Section

variable {system : System} {id : OperationId} {worker : Worker} {signal : Signal}

variable {phase : Phase}

theorem move (active : phase.isOver = false) :
    Section system (system.move id worker phase) id worker signal :=
  @moved system _ id worker signal { worker with phase := phase } rfl rfl (.inl rfl) active

theorem publishMove (state : OperationState) (active : phase.isOver = false) :
    Section system ((system.publish id state).move id worker phase) id worker signal :=
  @moved system _ id worker signal { worker with phase := phase }
    rfl rfl (.inr ⟨state, rfl⟩) active

theorem publishTerminal {state : OperationState} (terminal : state.isTerminal = true)
    (phase : Phase) :
    Section system ((system.publish id state).move id worker phase) id worker signal :=
  @finished system _ id worker signal { worker with phase := phase } state rfl rfl terminal rfl

theorem fail (error : ApplicationError) :
    Section system (system.fail id worker error) id worker signal :=
  publishTerminal rfl .returned

theorem complete (result : OperationResult) :
    Section system (system.complete id worker result) id worker signal :=
  publishTerminal rfl .returned

theorem start (active : phase.isOver = false) :
    Section system (system.start id worker phase) id worker signal := by
  simp only [System.start]
  split
  next error refusal =>
    exact @refused system _ id worker signal
      { worker with phase := .returned } _ error rfl rfl rfl refusal
  · exact publishMove .started active

theorem checkpoint (active : phase.isOver = false)
    (heeds : worker.heedsCancellation signal = true) :
    Section system (system.checkpoint id worker phase) id worker signal := by
  simp only [System.checkpoint]
  split
  next raised =>
    exact @cancelled system _ id worker signal
      { worker with phase := .returned } rfl rfl rfl heeds raised
  · exact move active

theorem raiseChallenge (question : Question) :
    Section system (system.raiseChallenge id worker question) id worker signal := by
  simp only [System.raiseChallenge]
  split
  next error refusal =>
    exact @refused system _ id worker signal
      { worker with phase := .returned } _ error rfl rfl rfl refusal
  · exact @moved system _ id worker signal { worker with phase := .awaiting question } rfl rfl
      (.inr ⟨_, rfl⟩) rfl

theorem pollCancelled (heeds : worker.heedsCancellation signal = true) :
    Section system (system.pollCancelled id worker) id worker signal := by
  simp only [System.pollCancelled]
  split
  next raised =>
    exact @cancelled system _ id worker signal
      { worker with phase := .returned } rfl rfl rfl heeds raised
  · exact .idle rfl (.inl rfl)

theorem awaitPasswordRetry {response : ChallengeResponse} (asks : worker.asksPassword = true)
    (delivered : system.delivered.lookup id = some response) :
    Section system (awaitPasswordRetry system id worker response) id worker .response := by
  have returns (other : response.isPassword = false) :
      Section system (system.move id worker .returned) id worker .response :=
    @misanswered system _ id worker .response
      { worker with phase := .returned } response rfl rfl rfl rfl asks
      delivered other
  cases response with
  | password challenge =>
    exact @moved system _ id worker .response
      { worker with attempt := worker.attempt + 1, phase := .looping }
      rfl rfl (.inl rfl) rfl
  | confirmOverwrite challenge overwrite | confirmDestructiveAction challenge confirmed
  | missingExternalTool challenge retry | retryPermission challenge retry => exact returns rfl

variable {next : System}

theorem runExtract {destination : String} (extracts : worker.kind = .extract destination)
    (standing : worker.phase = phase)
    (taken : runExtract system id worker destination phase signal = some next) :
    Section system next id worker signal := by
  unfold OperationWorkers.runExtract at taken
  split at taken
  · cases taken
    exact start rfl
  · cases taken
    exact fail _
  · cases taken
    exact move rfl
  · cases taken
    exact move rfl
  · cases taken
    exact complete _
  · cases taken
    exact fail _
  · cases taken
    exact @moved system _ id worker _ _ rfl rfl (.inl rfl) rfl
  · cases taken
    exact checkpoint rfl (by simp [heedsCancellation, standing])
  · cases taken
    exact fail _
  · cases taken
    exact move rfl
  · cases taken
    exact checkpoint rfl (by simp [heedsCancellation, standing])
  · cases taken
    exact .idle rfl (.inr ⟨_, rfl⟩)
  · cases taken
    exact move rfl
  · split at taken
    · cases taken
      exact @moved system _ id worker _ _ rfl rfl (.inl rfl) rfl
    · cases taken
      exact move rfl
  · split at taken
    · cases taken
      exact move rfl
    · cases taken
      exact fail _
  · cases taken
    exact fail _
  · cases taken
    exact complete _
  · cases taken
    exact raiseChallenge _
  · cases taken
    exact pollCancelled (by simp [heedsCancellation, standing])
  · obtain ⟨_, delivered, rfl⟩ := map_eq_some_iff.mp taken
    exact awaitPasswordRetry (by simp [asksPassword, extracts, standing]) delivered
  · split at taken
    · cases taken
      exact move rfl
    · cases taken
      exact fail _
    · cases taken
  · cases taken

theorem decided {attempt : MergeAttempt} (deleteOriginals : Bool)
    (standing : worker.phase = .decided attempt)
    (taken : runMerge system id worker deleteOriginals (.decided attempt) .go = some next) :
    Section system next id worker .go := by
  have stops (heeds : worker.heedsCancellation .go = true)
      (raised : system.registry.isCancelled id = true) :
      Section system (system.move id worker .returned) id worker .go :=
    @cancelled system _ id worker .go { worker with phase := .returned } rfl rfl rfl heeds raised
  cases attempt with
  | merged =>
    cases taken
    exact move rfl
  | passwordRequired | failed =>
    cases raised : system.registry.isCancelled id with
    | true =>
      simp only [runMerge, raised, decidePostAttempt] at taken
      cases taken
      exact stops (by simp [heedsCancellation, standing]) raised
    | false =>
      simp only [runMerge, raised, decidePostAttempt] at taken
      cases taken
      first
      | exact move rfl
      | exact fail _

theorem runMerge {deleteOriginals : Bool} (merges : worker.kind = .merge deleteOriginals)
    (standing : worker.phase = phase)
    (taken : runMerge system id worker deleteOriginals phase signal = some next) :
    Section system next id worker signal := by
  unfold OperationWorkers.runMerge at taken
  split at taken
  · cases taken
    exact start rfl
  · cases taken
    exact fail _
  · cases taken
    exact move rfl
  · cases taken
    exact checkpoint rfl (by simp [heedsCancellation, standing])
  · cases taken
    exact checkpoint rfl (by simp [heedsCancellation, standing])
  · cases taken
    exact .idle rfl (.inr ⟨_, rfl⟩)
  · cases taken
    exact fail _
  · cases taken
    exact move rfl
  · exact decided deleteOriginals standing taken
  · simp only at taken
    split at taken
    · cases taken
      exact publishMove _ rfl
    · cases taken
      exact move rfl
  · simp only at taken
    split at taken
    · cases taken
      exact publishTerminal rfl _
    · split at taken
      · cases taken
        exact publishTerminal rfl _
      · cases taken
        exact publishTerminal rfl _
  · have isOver : worker.phase.isOver = true := by simp [Phase.isOver, standing]
    split at taken
    · cases taken
      exact @closed system _ id worker _ _ rfl rfl rfl isOver
    · cases taken
      exact @closed system _ id worker _ _ rfl rfl rfl isOver
  · cases taken
    exact raiseChallenge _
  · cases taken
    exact pollCancelled (by simp [heedsCancellation, standing])
  · obtain ⟨_, delivered, rfl⟩ := map_eq_some_iff.mp taken
    exact awaitPasswordRetry (by simp [asksPassword, merges, standing]) delivered
  · cases taken

theorem runOpenArchive (standing : worker.phase = phase)
    (taken : runOpenArchive system id worker phase signal = some next) :
    Section system next id worker signal := by
  unfold OperationWorkers.runOpenArchive at taken
  split at taken
  · cases taken
    exact start rfl
  · cases taken
    exact checkpoint rfl (by simp [heedsCancellation, standing])
  · cases taken
    exact fail _
  · cases taken
    exact move rfl
  · cases taken
    exact move rfl
  · cases taken
    exact checkpoint rfl (by simp [heedsCancellation, standing])
  · cases taken
    exact fail _
  · cases taken
    exact @moved system _ id worker _ _ rfl rfl (.inl rfl) rfl
  · split at taken
    next raised =>
      cases taken
      exact @cancelled system _ id worker _ _ rfl rfl rfl
        (by simp [heedsCancellation, standing]) raised
    · cases taken
      exact move rfl
  · cases taken
    exact publishTerminal rfl _
  · have isOver : worker.phase.isOver = true := by simp [Phase.isOver, standing]
    split at taken
    · cases taken
      exact @closed system _ id worker _ _ rfl rfl rfl isOver
    · cases taken
      exact @closed system _ id worker _ _ rfl rfl rfl isOver
  · cases taken
    exact raiseChallenge _
  · cases taken
    exact pollCancelled (by simp [heedsCancellation, standing])
  · split at taken
    · cases taken
      exact @moved system _ id worker _ _ rfl rfl (.inl rfl) rfl
    · cases taken
      exact fail _
    · cases taken
  · cases taken

theorem of_stepWorker (taken : stepWorker system id worker signal = some next) :
    Section system next id worker signal := by
  cases runs : worker.kind with
  | extract =>
    simp only [stepWorker, runs] at taken
    exact runExtract runs rfl taken
  | merge =>
    simp only [stepWorker, runs] at taken
    exact runMerge runs rfl taken
  | openArchive =>
    simp only [stepWorker, runs] at taken
    exact runOpenArchive rfl taken

end Section

/-- The operation is concluded, or, unless we are strict, a cancellation of it
is still under way. -/
def Ended (strict : Bool) (shared : Shared) (id : OperationId) : Prop :=
  shared.registry.concluded id = true ∨ strict = false ∧ id ∈ shared.cancelling

theorem Ended.reports {strict : Bool} {before after : Shared} {id : OperationId}
    (ended : Ended strict before id) (tracked : Tracked before) (reports : Reports before after) :
    Ended strict after id := by
  rcases reports with rfl | ⟨call, taken⟩
  · exact ended
  rcases ended with concluded | ⟨lenient, underWay⟩
  · exact .inl (tracked.concluded_step taken concluded)
  · rcases tracked.cancelling_or_concluded taken underWay with
      stillUnderWay | concluded
    · exact .inr ⟨lenient, stillUnderWay⟩
    · exact .inl concluded

/-- Each worker belongs to an operation that has begun, and one that is over to an operation
that has ended. -/
structure Supervised (strict : Bool) (system : System) : Prop where
  tracked : Tracked system.shared
  begun : ∀ {id worker}, system.workers.lookup id = some worker → system.registry.eventsOf id ≠ []
  ended : ∀ {id worker}, system.workers.lookup id = some worker → worker.phase.isOver = true →
    Ended strict system.shared id

namespace Supervised

variable {strict : Bool} {system next : System}

theorem initially : Supervised strict System.initial where
  tracked := Tracked.initially
  begun := by
    intro id worker found
    simp [System.initial] at found
  ended := by
    intro id worker found
    simp [System.initial] at found

section

variable (supervised : Supervised strict system)
include supervised

theorem of_reports (workers : next.workers = system.workers)
    (reports : Reports system.shared next.shared) : Supervised strict next where
  tracked := supervised.tracked.reports reports
  begun := by
    intro id worker found
    rw [workers] at found
    exact reports.eventsOf_ne_nil supervised.tracked.valid (supervised.begun found)
  ended := by
    intro id worker found isOver
    rw [workers] at found
    exact (supervised.ended found isOver).reports supervised.tracked reports

theorem of_worker {id : OperationId} {after : Worker}
    (workers : next.workers = system.workers.insert id after)
    (reports : Reports system.shared next.shared) (published : system.registry.eventsOf id ≠ [])
    (ended : after.phase.isOver = true → Ended strict next.shared id) : Supervised strict next where
  tracked := supervised.tracked.reports reports
  begun := by
    intro other worker found
    rw [workers, KeyedMap.lookup_insert_ite] at found
    split at found
    next same =>
      subst other
      exact reports.eventsOf_ne_nil supervised.tracked.valid published
    · exact reports.eventsOf_ne_nil supervised.tracked.valid (supervised.begun found)
  ended := by
    intro other worker found isOver
    rw [workers, KeyedMap.lookup_insert_ite] at found
    split at found
    next same =>
      subst other
      cases found
      exact ended isOver
    · exact (supervised.ended found isOver).reports supervised.tracked reports

theorem of_quiet_worker {id : OperationId} {after : Worker}
    (workers : next.workers = system.workers.insert id after)
    (unchanged : next.shared = system.shared) (published : system.registry.eventsOf id ≠ [])
    (ended : Ended strict system.shared id) : Supervised strict next := by
  apply supervised.of_worker workers (.inl unchanged) published
  intro _
  rw [unchanged]
  exact ended

theorem of_section {id : OperationId} {worker : Worker}
    {signal : Signal} (found : system.workers.lookup id = some worker)
    (meetsAnswered : answered system (.signal id signal) = true)
    (meetsUnhurried : strict = true → unhurried system (.signal id signal) = true)
    (taken : Section system next id worker signal) : Supervised strict next := by
  have published := supervised.begun found
  cases taken with
  | idle workers announces => exact supervised.of_reports workers announces.reports
  | moved workers sameKind announces active =>
    apply supervised.of_worker workers announces.reports published
    intro isOver
    rw [active] at isOver
    cases isOver
  | finished workers sameKind terminal shared =>
    have announces : Announces system next id := .inr ⟨_, shared⟩
    apply supervised.of_worker workers announces.reports published
    intro _
    rw [shared]
    exact .inl (supervised.tracked.concluded_transition published terminal)
  | refused workers sameKind unchanged refusal =>
    apply supervised.of_quiet_worker workers unchanged published
    exact .inl (supervised.tracked.concluded_of_refused published refusal)
  | cancelled workers sameKind unchanged heeds raised =>
    apply supervised.of_quiet_worker workers unchanged published
    rcases supervised.tracked.of_isCancelled raised with
      underWay | concluded
    · cases strict with
      | false => exact .inr ⟨rfl, underWay⟩
      | true =>
        have patient := meetsUnhurried rfl
        simp only [unhurried, found, heeds, underWay] at patient
        have concluded : system.registry.concluded id = true := by simpa using patient
        exact .inl concluded
    · exact .inl concluded
  | misanswered workers sameKind unchanged _ asks delivered other =>
    apply supervised.of_quiet_worker workers unchanged published
    subst signal
    simp only [answered, found, delivered, asks, other] at meetsAnswered
    have concluded : system.registry.concluded id = true := by simpa using meetsAnswered
    exact .inl concluded
  | closed workers sameKind unchanged isOver =>
    exact supervised.of_quiet_worker workers unchanged published (supervised.ended found isOver)

theorem step {action : Action}
    (meetsAnswered : answered system action = true)
    (meetsUnhurried : strict = true → unhurried system action = true)
    (taken : step system action = some next) : Supervised strict next := by
  cases action with
  | call call =>
    obtain ⟨_, called, rfl⟩ := map_eq_some_iff.mp taken
    exact supervised.of_reports rfl (.inr ⟨call, called⟩)
  | spawn id =>
    simp only [OperationWorkers.step, ite_none_right_eq_some, some.injEq] at taken
    obtain ⟨⟨published, -⟩, rfl⟩ := taken
    refine @of_worker _ _ (system.update id _) supervised id _ rfl
      (.inl rfl) published ?_
    intro isOver
    cases isOver
  | signal id signal =>
    cases found : system.workers.lookup id with
    | none => simp [OperationWorkers.step, found] at taken
    | some =>
      simp only [OperationWorkers.step, found] at taken
      exact supervised.of_section found meetsAnswered meetsUnhurried (Section.of_stepWorker taken)
  | respond id response =>
    simp only [OperationWorkers.step] at taken
    split at taken
    · cases taken
      exact supervised
    next registry resolved =>
      cases taken
      have resolution : callStep system.shared (.resolveChallenge id response.id) =
          some { system.shared with registry := registry } := by
        have resolves : (system.shared.registry.resolveChallenge id response.id).2 = registry :=
          congrArg Prod.snd resolved
        rw [callStep, resolves]
      exact supervised.of_reports rfl (.inr ⟨_, resolution⟩)
  | deliver id response =>
    obtain ⟨-, delivered⟩ := ite_none_right_eq_some.mp taken
    split at delivered
    · cases delivered
      exact supervised.of_reports rfl (.inl rfl)
    · cases delivered
      exact supervised.of_reports rfl (.inl rfl)

end

theorem of_run {actions : List Action} (met :
    ActionRun.Guarded OperationWorkers.step (fun system action =>
      answered system action = true ∧ (strict = true → unhurried system action = true))
      System.initial actions)
    (ran : run OperationWorkers.step System.initial actions = some next) :
    Supervised strict next :=
  run_preserves_of_guarded (Supervised strict)
    (fun supervised meets => supervised.step meets.1 meets.2)
    initially met ran

end Supervised

/-- Where no waiting extraction or merge takes another response, a returned worker's
operation is concluded or about to be cancelled. -/
theorem returned_worker_concluded {actions : List Action} {final : System} (met :
    ActionRun.Guarded step (fun system action => answered system action = true)
      System.initial actions)
    (ran : run step System.initial actions = some final) {id : OperationId}
    {worker : Worker} (found : final.workers.lookup id = some worker)
    (returned : worker.phase = .returned) : (final.registry.concluded id = true ∨ ∃ shared,
      callStep final.shared (.cancelTransition id) = some shared ∧
        shared.registry.concluded id = true) ∧
      (ActionRun.Guarded step (fun system action => unhurried system action = true)
        System.initial actions → final.registry.concluded id = true ∧ ∀ state,
          final.registry.operationState id = some state → state.isTerminal = true) := by
  have isOver : worker.phase.isOver = true := by simp [returned, Phase.isOver]
  constructor
  · have supervised : Supervised false final := by
      apply Supervised.of_run _ ran
      apply met.mono
      intro system action meets
      exact ⟨meets, by simp⟩
    rcases supervised.ended found isOver with concluded | ⟨-, underWay⟩
    · exact .inl concluded
    · refine .inr ⟨_, if_pos underWay, ?_⟩
      exact supervised.tracked.concluded_transition (supervised.begun found) rfl
  · intro patient
    have supervised : Supervised true final := by
      apply Supervised.of_run _ ran
      apply (met.and patient).mono
      intro system action meets
      exact ⟨meets.1, fun _ => meets.2⟩
    have concluded : final.registry.concluded id = true := by
      rcases supervised.ended found isOver with concluded | ⟨lenient, -⟩
      · exact concluded
      · cases lenient
    refine ⟨concluded, ?_⟩
    intro state recorded
    rw [← supervised.tracked.valid.inOrder.concluded_eq recorded]
    exact concluded

def extractionAsksPassword : List Action :=
  [.call (.mint .extract), .call (.insert 1), .spawn 1 (.extract "/mods") "pack.7z", .signal 1 .go,
    .signal 1 (.answered .proceed), .signal 1 (.answered (.chunks 0)), .signal 1 .go,
    .signal 1 (.answered .succeeded), .signal 1 .go,
    .signal 1 (.answered (.refused
      { kind := .passwordRequired
        summary := "a password is required" })),
    .signal 1 .go]

def extractionWithPassword : List Action :=
  extractionAsksPassword ++ [.respond 1 (.password 1 "secret"), .deliver 1 (.password 1 "secret"),
    .signal 1 .response, .signal 1 .go, .signal 1 (.answered .succeeded), .signal 1 .go,
    .signal 1 (.answered .succeeded), .signal 1 (.answered .succeeded)]

/-- Both conditions hold along a run that asks for a password. -/
theorem returned_worker_concluded_with_password : ∃ final worker,
    run step System.initial extractionWithPassword = some final ∧
      final.workers.lookup 1 = some worker ∧ worker.phase = .returned ∧
      final.registry.operationState 1 = some (.completed .none) ∧
      final.registry.concluded 1 = true := by
  have evaluated : (run step System.initial extractionWithPassword).map (fun final =>
    ((final.workers.lookup 1).map phase, final.registry.operationState 1)) =
      some (some .returned, some (.completed .none)) := by
    decide +kernel
  obtain ⟨final, ran, seen⟩ := map_eq_some_iff.mp evaluated
  obtain ⟨standing, recorded⟩ := Prod.mk.inj seen
  obtain ⟨worker, found, returned⟩ := map_eq_some_iff.mp standing
  have concluded :=
    @returned_worker_concluded extractionWithPassword final
      (by decide +kernel) ran 1 worker found returned
  exact ⟨final, worker, ran, found, returned, recorded, (concluded.2 (by decide +kernel)).1⟩

/-- The caller answers the password challenge with the decision about a
collision, under the id of the password challenge. -/
def extractionMisanswered : List Action :=
  extractionAsksPassword ++ [.respond 1 (.confirmOverwrite 1 true),
    .deliver 1 (.confirmOverwrite 1 true), .signal 1 .response]

/-- The response is accepted, the worker returns, nobody has cancelled, and the
operation still shows the challenge. -/
theorem misanswered_extraction_left_waiting : ∃ final worker,
    run step System.initial extractionMisanswered = some final ∧
      final.workers.lookup 1 = some worker ∧ worker.phase = .returned ∧
      final.shared.cancelling = [] ∧
      final.registry.operationState 1 = some (.challenge (.password 1 "pack.7z" 1)) ∧
      final.registry.concluded 1 = false := by
  have evaluated : (run step System.initial extractionMisanswered).map (fun final =>
    ((final.workers.lookup 1).map phase, final.shared.cancelling,
      final.registry.operationState 1, final.registry.concluded 1)) =
        some (some .returned, [], some (.challenge (.password 1 "pack.7z" 1)), false) := by
    decide +kernel
  obtain ⟨final, ran, seen⟩ := map_eq_some_iff.mp evaluated
  obtain ⟨standing, rest⟩ := Prod.mk.inj seen
  obtain ⟨worker, found, returned⟩ := map_eq_some_iff.mp standing
  simp only [Prod.mk.injEq] at rest
  exact ⟨final, worker, ran, found, returned, rest⟩

end Arclain.OperationWorkers
