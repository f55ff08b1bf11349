import Arclain.OperationOutcome

namespace Arclain.OperationWorkers

/-!
# The session of an archive open

`run_open_archive` stores its session before it publishes that the open completed, and
afterwards asks the registry whether its completion is what stuck.
-/

open List Option OperationRegistry ActionRun Owned

/-- The workers, the sessions that opens have stored, and those that a caller has closed. -/
structure Store where
  owned : Owned
  created : List (OperationId × ArchiveSessionId)
  closed : List ArchiveSessionId

/-- A section of a task, or a caller that closes a session. -/
inductive StoreAction where
  | task (action : Action)
  | close (session : ArchiveSessionId)

/-- The session that a section puts into the store. -/
def System.opens (system : System) : Action → List (OperationId × ArchiveSessionId)
  | .signal id (.answered .succeeded) =>
    match system.workers.lookup id with
    | some worker =>
      if worker.kind = .openArchive ∧ worker.phase = .opening then [(id, system.nextSessionId)]
      else []
    | none => []
  | _ => []

namespace Store

def initial : Store where
  owned := Owned.initial
  created := []
  closed := []

def system (store : Store) : System := store.owned.system

def registry (store : Store) : OperationRegistry := store.owned.registry

/-- One section of a task, or `ArchiveSessionStore::close` called for a
session. -/
def step (store : Store) : StoreAction → Option Store
  | .task action =>
    (store.owned.step action).map fun owned =>
      { store with
        owned := owned
        created := store.system.opens action ++ store.created }
  | .close session =>
    if session ∈ store.system.openSessions then
      some { store with
        owned := { store.owned with
          system := store.system.closeSession session }
        closed := session :: store.closed }
    else some store

def Available (store : Store) (session : ArchiveSessionId) : Prop :=
  session ∈ store.system.openSessions ∨ session ∈ store.closed

def Uncompleted (store : Store) (id : OperationId) : Prop :=
  ∀ result, store.registry.lastState id ≠ some (.completed result)

end Store

/-- The worker has published its completion and not yet asked whether that is
what stuck. -/
def Worker.isUnread (worker : Worker) : Bool :=
  match worker.kind, worker.phase with
  | .openArchive, .comparing _ => true
  | _, _ => false

def System.unread (system : System) : List OperationId :=
  system.workers.keys.filter fun id => (system.workers.lookup id).any Worker.isUnread

/-- No eviction finds 256 younger finished operations beside a completed open
that its worker has not asked about yet. -/
def remembered (store : Store) : StoreAction → Bool
  | .task (.call .evict) =>
    store.system.unread.all fun id =>
      match store.registry.operationState id with
      | some (.completed _) => decide (store.registry.youngerTerminals id < maxTerminalHistory)
      | _ => true
  | _ => true

/-- What is known about the sessions of an open whose worker stands in a
phase. -/
def Account (store : Store) (id : OperationId) : Phase → Prop
  | .opened session | .completing session =>
    store.Uncompleted id ∧ (∀ other, (id, other) ∈ store.created ↔ other = session) ∧
      store.Available session
  | .comparing session =>
    (∀ result, store.registry.lastState id = some (.completed result) →
      result = .archiveOpened session ∧
        store.registry.operationState id = some (.completed result)) ∧
      (∀ other, (id, other) ∈ store.created ↔ other = session) ∧
      store.Available session
  | .returned =>
    (∀ result, store.registry.lastState id = some (.completed result) →
      ∃ session, result = .archiveOpened session ∧ (id, session) ∈ store.created) ∧
      ∀ session, (id, session) ∈ store.created → (store.registry.lastState id =
        some (.completed (.archiveOpened session)) ∧ store.Available session) ∨
        (store.Uncompleted id ∧ session ∉ store.system.openSessions)
  | _ => store.Uncompleted id ∧ ∀ session, (id, session) ∉ store.created

/-- The worker of an open stands between the insertion of its session and its
question. -/
def Phase.hasSession : Phase → Bool
  | .opened _ | .completing _ | .comparing _ => true
  | _ => false

theorem account_of_nothing {store : Store} {id : OperationId} {phase : Phase}
    (uncompleted : store.Uncompleted id) (nothing : ∀ session, (id, session) ∉ store.created)
    (sessionless : phase.hasSession = false) : Account store id phase := by
  cases phase with
  | opened session | completing session | comparing session => cases sessionless
  | returned =>
    refine ⟨?_, ?_⟩
    · intro result last
      exact absurd last (uncompleted result)
    · intro session created
      exact absurd created (nothing session)
  | _ => exact ⟨uncompleted, nothing⟩

/-- What the step of another task does to an open. -/
structure Beside (store next : Store) (id : OperationId) : Prop where
  outcome : next.registry.lastState id = store.registry.lastState id ∨
    store.registry.concluded id = false ∧ next.registry.lastState id = some .cancelled
  created : ∀ session, (id, session) ∈ next.created ↔ (id, session) ∈ store.created
  available : ∀ session, (id, session) ∈ store.created →
    store.Available session → next.Available session
  gone : ∀ session, (id, session) ∈ store.created → session ∉ store.system.openSessions →
    session ∉ next.system.openSessions

namespace Beside

variable {store next : Store} {id : OperationId} {result : OperationResult}

theorem lastState_of_completed (beside : Beside store next id)
    (last : next.registry.lastState id = some (.completed result)) :
    store.registry.lastState id = some (.completed result) := by
  rcases beside.outcome with same | ⟨-, cancelled⟩
  · rw [← same]
    exact last
  · rw [cancelled] at last
    cases last

theorem lastState_of_earlier (beside : Beside store next id)
    (last : store.registry.lastState id = some (.completed result)) :
    next.registry.lastState id = some (.completed result) := by
  rcases beside.outcome with same | ⟨running, -⟩
  · rw [same]
    exact last
  · have concluded : store.registry.concluded id = true :=
      concluded_iff_lastState.mpr ⟨_, last, rfl⟩
    rw [running] at concluded
    cases concluded

theorem uncompleted (beside : Beside store next id) (earlier : store.Uncompleted id) :
    next.Uncompleted id := by
  intro result last
  exact earlier result (beside.lastState_of_completed last)

variable {session : ArchiveSessionId}

theorem only (beside : Beside store next id)
    (earlier : ∀ other, (id, other) ∈ store.created ↔ other = session) :
    ∀ other, (id, other) ∈ next.created ↔ other = session := by
  intro other
  rw [beside.created]
  exact earlier other

theorem account (beside : Beside store next id) {phase : Phase} (kept :
    ∀ session result, phase = .comparing session →
      store.registry.operationState id = some (.completed result) →
      next.registry.operationState id = some (.completed result))
    (account : Account store id phase) : Account next id phase := by
  have early (known : store.Uncompleted id ∧ ∀ session, (id, session) ∉ store.created) :
      next.Uncompleted id ∧ ∀ session, (id, session) ∉ next.created := by
    refine ⟨beside.uncompleted known.1, ?_⟩
    intro session
    rw [beside.created]
    exact known.2 session
  have opened {session : ArchiveSessionId}
      (only : ∀ other, (id, other) ∈ store.created ↔ other = session)
      (available : store.Available session) :
      (∀ other, (id, other) ∈ next.created ↔ other = session) ∧ next.Available session :=
    ⟨beside.only only, beside.available session ((only session).mpr rfl) available⟩
  cases phase with
  | opened session | completing session =>
    obtain ⟨uncompleted, only, available⟩ := account
    exact ⟨beside.uncompleted uncompleted, opened only available⟩
  | comparing session =>
    obtain ⟨completed, only, available⟩ := account
    refine ⟨?_, opened only available⟩
    intro result last
    obtain ⟨own, recorded⟩ := completed result (beside.lastState_of_completed last)
    exact ⟨own, kept session result rfl recorded⟩
  | returned =>
    obtain ⟨completed, sessions⟩ := account
    refine ⟨?_, ?_⟩
    · intro result last
      obtain ⟨session, own, created⟩ := completed result (beside.lastState_of_completed last)
      exact ⟨session, own, (beside.created session).mpr created⟩
    · intro session mem
      have created := (beside.created session).mp mem
      rcases sessions session created with
        ⟨last, available⟩ | ⟨uncompleted, gone⟩
      · exact .inl ⟨beside.lastState_of_earlier last, beside.available session created available⟩
      · exact .inr ⟨beside.uncompleted uncompleted, beside.gone session created gone⟩
  | spawned | preparing | planning | prepared | looping | attempting | running | polling
  | finishing | decided attempt | merged outputPath | announcing outputPath | confirming
  | listed | opening | raising question | awaiting question => exact early account

theorem of_close (taken : store.step (.close session) = some next)
    (id : OperationId) : Beside store next id := by
  simp only [Store.step] at taken
  split at taken
  · cases taken
    refine ⟨.inl rfl, fun _ => Iff.rfl, ?_, ?_⟩
    · intro other created available
      by_cases same : other = session
      · subst other
        exact .inr mem_cons_self
      · rcases available with isOpen | wasClosed
        · exact .inl ((mem_erase_of_ne same).mpr isOpen)
        · exact .inr (mem_cons_of_mem session wasClosed)
    · intro other created gone isOpen
      exact gone (mem_of_mem_erase isOpen)
  · cases taken
    exact ⟨.inl rfl, fun _ => Iff.rfl, fun _ _ available => available, fun _ _ gone => gone⟩

end Beside

def System.sessions (system : System) : List ArchiveSessionId × ArchiveSessionId :=
  (system.openSessions, system.nextSessionId)

section

variable (system : System) (id : OperationId) (worker : Worker)

@[simp] theorem sessions_update : (system.update id worker).sessions = system.sessions := rfl

variable (phase : Phase)

@[simp] theorem sessions_move : (system.move id worker phase).sessions = system.sessions := rfl

@[simp] theorem sessions_publish (state : OperationState) :
    (system.publish id state).sessions = system.sessions :=
  rfl

@[simp] theorem sessions_fail (error : ApplicationError) :
    (system.fail id worker error).sessions = system.sessions :=
  rfl

@[simp] theorem sessions_complete (result : OperationResult) :
    (system.complete id worker result).sessions = system.sessions :=
  rfl

@[simp] theorem sessions_checkpoint :
    (system.checkpoint id worker phase).sessions = system.sessions := by
  simp only [System.checkpoint]
  split <;> rfl

@[simp] theorem sessions_start : (system.start id worker phase).sessions = system.sessions := by
  simp only [System.start]
  split <;> rfl

@[simp] theorem sessions_raiseChallenge (question : Question) :
    (system.raiseChallenge id worker question).sessions = system.sessions := by
  simp only [System.raiseChallenge]
  split <;> rfl

@[simp] theorem sessions_pollCancelled :
    (system.pollCancelled id worker).sessions = system.sessions := by
  simp only [System.pollCancelled]
  split <;> rfl

@[simp] theorem sessions_awaitPasswordRetry (response : ChallengeResponse) :
    (awaitPasswordRetry system id worker response).sessions = system.sessions := by
  cases response <;> rfl

end

section

variable {system next : System} {id : OperationId} {worker : Worker} {signal : Signal}
variable {phase : Phase}

theorem sessions_runExtract {destination : String} (taken :
    runExtract system id worker destination phase signal = some next) :
    next.sessions = system.sessions := by
  simp only [runExtract.eq_def] at taken
  split at taken <;> try split at taken
  all_goals
    simp only [some.injEq, map_eq_some_iff, reduceCtorEq] at taken
  all_goals
    first
      | obtain ⟨response, -, rfl⟩ := taken
        exact sessions_awaitPasswordRetry system id worker response
      | subst next
        simp

theorem sessions_runMerge {deleteOriginals : Bool} (taken :
    runMerge system id worker deleteOriginals phase signal = some next) :
    next.sessions = system.sessions := by
  simp only [runMerge.eq_def] at taken
  split at taken <;> try split at taken
  all_goals try split at taken
  all_goals
    simp only [some.injEq, map_eq_some_iff, reduceCtorEq] at taken
  all_goals
    first
      | obtain ⟨response, -, rfl⟩ := taken
        exact sessions_awaitPasswordRetry system id worker response
      | subst next
        first | rfl | simp

theorem sessions_runOpenArchive (taken : runOpenArchive system id worker phase signal = some next) :
    (next.sessions = system.sessions ∧ (signal = .answered .succeeded → phase ≠ .opening)) ∨
      (signal = .answered .succeeded ∧ phase = .opening ∧ next.sessions =
        (system.nextSessionId :: system.openSessions, system.nextSessionId + 1)) ∨
      ∃ session, signal = .go ∧ (phase = .opened session ∨ phase = .comparing session) ∧
        next.sessions = (system.openSessions.erase session, system.nextSessionId) := by
  simp only [runOpenArchive.eq_def] at taken
  split at taken <;> try split at taken
  all_goals
    simp only [some.injEq, reduceCtorEq] at taken
  all_goals
    subst next
    first
      | exact .inr (.inl ⟨rfl, rfl, rfl⟩)
      | exact .inr (.inr ⟨_, rfl, .inl rfl, rfl⟩)
      | exact .inr (.inr ⟨_, rfl, .inr rfl, rfl⟩)
      | exact .inl ⟨by simp, by simp⟩

end

theorem sessions_cases {owned next : Owned} {action : Action}
    (taken : owned.step action = some next) :
    (next.system.sessions = owned.system.sessions ∧ owned.system.opens action = []) ∨
      (∃ id worker, action = .signal id (.answered .succeeded) ∧
        owned.system.workers.lookup id = some worker ∧
        worker.kind = .openArchive ∧ worker.phase = .opening ∧
        owned.system.opens action = [(id, owned.system.nextSessionId)] ∧
        next.system.sessions = (owned.system.nextSessionId :: owned.system.openSessions,
            owned.system.nextSessionId + 1)) ∨
      ∃ id worker session, action = .signal id .go ∧ owned.system.workers.lookup id = some worker ∧
        worker.kind = .openArchive ∧
        (worker.phase = .opened session ∨ worker.phase = .comparing session) ∧
        owned.system.opens action = [] ∧
        next.system.sessions = (owned.system.openSessions.erase session,
            owned.system.nextSessionId) := by
  obtain ⟨stepped, -⟩ := step_system taken
  cases action with
  | call call =>
    obtain ⟨_, -, same⟩ := map_eq_some_iff.mp stepped
    rw [← same]
    exact .inl ⟨rfl, rfl⟩
  | spawn id =>
    rw [(spawn_cases taken).2.2.2.2]
    exact .inl ⟨rfl, rfl⟩
  | respond id response =>
    simp only [OperationWorkers.step] at stepped
    split at stepped <;> rw [← some.inj stepped] <;> exact .inl ⟨rfl, rfl⟩
  | deliver id response =>
    obtain ⟨-, delivered⟩ := ite_none_right_eq_some.mp stepped
    split at delivered <;> rw [← some.inj delivered] <;> exact .inl ⟨rfl, rfl⟩
  | signal id signal =>
    cases found : owned.system.workers.lookup id with
    | none => simp [OperationWorkers.step, found] at stepped
    | some worker =>
      simp only [OperationWorkers.step, found, stepWorker] at stepped
      -- Only an open that stands in `opening` puts a session in.
      have opensNothing (other : signal = .answered .succeeded →
          ¬ (worker.kind = .openArchive ∧ worker.phase = .opening)) :
          owned.system.opens (.signal id signal) = [] := by
        simp only [System.opens]
        split
        next same =>
          simp only [Action.signal.injEq] at same
          obtain ⟨rfl, rfl⟩ := same
          simp only [found]
          exact if_neg (other rfl)
        · rfl
      cases runs : worker.kind with
      | extract =>
        simp only [runs] at stepped
        exact .inl ⟨sessions_runExtract stepped, opensNothing (by simp [runs])⟩
      | merge =>
        simp only [runs] at stepped
        exact .inl ⟨sessions_runMerge stepped, opensNothing (by simp [runs])⟩
      | openArchive =>
        simp only [runs] at stepped
        rcases sessions_runOpenArchive stepped with
          ⟨same, other⟩ | ⟨rfl, standing, grown⟩ | ⟨session, rfl, standing, shrunk⟩
        · refine .inl ⟨same, opensNothing ?_⟩
          intro succeeded both
          exact other succeeded both.2
        · refine .inr (.inl ⟨id, worker, rfl, found, runs, standing, ?_, grown⟩)
          simp [System.opens, found, runs, standing]
        · exact .inr (.inr ⟨id, worker, session, rfl, found, runs,
            standing, opensNothing (by simp), shrunk⟩)

/-- A section of a worker that holds no session before or after it, and
completes nothing. -/
def Passes (system next : System) (id : OperationId) : Prop :=
  (next.registry = system.registry ∨ ∃ state, (∀ result, state ≠ .completed result) ∧
    next.registry = (system.registry.transition id state).2) ∧
    ∃ after, next.workers.lookup id = some after ∧ after.phase.hasSession = false

namespace Passes

variable {system : System} {id : OperationId} {worker : Worker} {phase : Phase}

theorem move (sessionless : phase.hasSession = false) :
    Passes system (system.move id worker phase) id :=
  ⟨.inl rfl, { worker with phase := phase },
    by simp [System.move, System.update], sessionless⟩

theorem publishMove {state : OperationState} (unfinished : ∀ result, state ≠ .completed result)
    (sessionless : phase.hasSession = false) :
    Passes system ((system.publish id state).move id worker phase) id :=
  ⟨.inr ⟨state, unfinished, rfl⟩, { worker with phase := phase },
    by simp [System.move, System.update], sessionless⟩

theorem start (sessionless : phase.hasSession = false) :
    Passes system (system.start id worker phase) id := by
  simp only [System.start]
  split
  · exact move rfl
  · exact publishMove (by simp) sessionless

theorem checkpoint (sessionless : phase.hasSession = false) :
    Passes system (system.checkpoint id worker phase) id := by
  simp only [System.checkpoint]
  split
  · exact move rfl
  · exact move sessionless

theorem raiseChallenge (question : Question) :
    Passes system (system.raiseChallenge id worker question) id := by
  simp only [System.raiseChallenge]
  split
  · exact ⟨.inl rfl, { worker with phase := .returned },
      by simp [System.move, System.update], rfl⟩
  · refine ⟨.inr ⟨_, ?_, rfl⟩, { worker with phase := .awaiting question },
      by simp [System.move, System.update], rfl⟩
    simp

theorem pollCancelled (found : system.workers.lookup id = some worker)
    (sessionless : worker.phase.hasSession = false) :
    Passes system (system.pollCancelled id worker) id := by
  simp only [System.pollCancelled]
  split
  · exact ⟨.inl rfl, { worker with phase := .returned },
      by simp [System.move, System.update], rfl⟩
  · exact ⟨.inl rfl, worker, found, sessionless⟩

end Passes

/-- Session ids are used once, and every open accounts for its sessions. -/
structure Accounted (store : Store) : Prop where
  orderly : Orderly store.owned
  created_lt : ∀ {id session}, (id, session) ∈ store.created → session < store.system.nextSessionId
  open_lt : ∀ {session}, session ∈ store.system.openSessions → session < store.system.nextSessionId
  openOnce : store.system.openSessions.Nodup
  creator : ∀ {first second session}, (first, session) ∈ store.created →
    (second, session) ∈ store.created → first = second
  unspawned : ∀ {id session}, store.system.workers.lookup id = none → (id, session) ∉ store.created
  account : ∀ {id worker}, store.system.workers.lookup id = some worker →
    worker.kind = .openArchive → Account store id worker.phase

namespace Accounted

variable {store next : Store} {id : OperationId} {worker : Worker}

theorem initially : Accounted Store.initial where
  orderly := Orderly.initially
  created_lt := by
    intro id session mem
    cases mem
  open_lt := by
    intro session mem
    cases mem
  openOnce := nodup_nil
  creator := by
    intro _ _ session mem
    cases mem
  unspawned := by
    intro id session _ mem
    cases mem
  account := by
    intro id _ found
    simp [Store.initial, Store.system, Owned.initial, System.initial] at found

variable {session : ArchiveSessionId}

theorem created_of_session (accounted : Accounted store)
    (found : store.system.workers.lookup id = some worker) (opens : worker.kind = .openArchive)
    (standing : worker.phase = .opened session ∨ worker.phase = .comparing session) :
    (id, session) ∈ store.created := by
  have account := accounted.account found opens
  rcases standing with standing | standing <;> rw [standing] at account <;>
    exact (account.2.1 session).mpr rfl

variable {action : Action}

theorem beside_task (accounted : Accounted store) (taken : store.step (.task action) = some next)
    (found : store.system.workers.lookup id = some worker)
    (notSignal : ∀ signal, action ≠ .signal id signal) : Beside store next id := by
  obtain ⟨_, stepped, rfl⟩ := map_eq_some_iff.mp taken
  have outcome :=
    accounted.orderly.lastState_cases stepped (accounted.orderly.begun found) notSignal
      (accounted.orderly.domestic_step stepped found)
  rcases sessions_cases stepped with
    ⟨same, nothing⟩ | ⟨target, opener, rfl, -, -, -, opens, grown⟩ |
      ⟨target, closer, closing, rfl, standsAt, isOpen, standing, nothing, shrunk⟩
  · obtain ⟨sameOpen, -⟩ := Prod.mk.inj same
    have created : store.system.opens action = [] := nothing
    refine ⟨outcome, ?_, ?_, ?_⟩
    · intro session
      rw [created]
      exact Iff.rfl
    · intro session mem available
      rw [Store.Available, Store.system, sameOpen]
      exact available
    · intro session mem gone
      rw [Store.system, sameOpen]
      exact gone
  · obtain ⟨grownOpen, -⟩ := Prod.mk.inj grown
    have created : store.system.opens (.signal target (.answered .succeeded)) =
        [(target, store.system.nextSessionId)] :=
      opens
    have different : id ≠ target := by
      intro same
      subst target
      exact notSignal _ rfl
    refine ⟨outcome, ?_, ?_, ?_⟩
    · intro session
      rw [created]
      simp [different]
    · intro session mem available
      rw [Store.Available, Store.system, grownOpen]
      rcases available with isOpen | wasClosed
      · exact .inl (mem_cons_of_mem _ isOpen)
      · exact .inr wasClosed
    · intro session mem gone
      rw [Store.system, grownOpen]
      simp only [mem_cons, not_or]
      have older := accounted.created_lt mem
      refine ⟨?_, gone⟩
      intro same
      subst session
      exact lt_irrefl _ older
  · obtain ⟨shrunkOpen, -⟩ := Prod.mk.inj shrunk
    have created : store.system.opens (.signal target .go) = [] := nothing
    refine ⟨outcome, ?_, ?_, ?_⟩
    · intro session
      rw [created]
      exact Iff.rfl
    · intro session mem available
      have different : session ≠ closing := by
        intro same
        subst session
        have others := accounted.created_of_session standsAt isOpen standing
        obtain rfl := accounted.creator mem others
        exact notSignal _ rfl
      rw [Store.Available, Store.system, shrunkOpen]
      rcases available with isOpen | wasClosed
      · exact .inl ((mem_erase_of_ne different).mpr isOpen)
      · exact .inr wasClosed
    · intro session mem gone
      rw [Store.system, shrunkOpen]
      exact fun isOpen => gone (mem_of_mem_erase isOpen)

variable {foreign : List OperationId}

theorem account_of_passes {system : System}
    {created : List (OperationId × ArchiveSessionId)} (uncompleted : store.Uncompleted id)
    (nothing : ∀ session, (id, session) ∉ store.created) (same : created = store.created)
    (passes : Passes store.system system id) : ∃ after, system.workers.lookup id = some after ∧
      Account ⟨⟨system, foreign⟩, created, store.closed⟩ id after.phase := by
  obtain ⟨quiet, after, bound, sessionless⟩ := passes
  refine ⟨after, bound, account_of_nothing ?_ ?_ sessionless⟩
  · intro result last
    have published : system.registry.lastState id = some (.completed result) := last
    rcases quiet with unchanged | ⟨state, unfinished, published'⟩
    · rw [unchanged] at published
      exact uncompleted result published
    · rw [published'] at published
      rcases lastState_transition store.system.registry id state id with
        ⟨kept, -⟩ | ⟨-, -, advanced, -⟩
      · rw [kept] at published
        exact uncompleted result published
      · rw [advanced] at published
        exact unfinished result (some.inj published)
  · rw [same]
    exact nothing

theorem account_own (accounted : Accounted store)
    (found : store.system.workers.lookup id = some worker) (opens : worker.kind = .openArchive)
    {signal : Signal} {system : System}
    (stepped : runOpenArchive store.system id worker worker.phase signal = some system) :
    ∃ after, system.workers.lookup id = some after ∧ Account ⟨⟨system, foreign⟩,
      store.system.opens (.signal id signal) ++ store.created, store.closed⟩ id after.phase := by
  have account := accounted.account found opens
  have opensNothing (other : signal = .answered .succeeded → worker.phase ≠ .opening) :
      store.system.opens (.signal id signal) ++ store.created = store.created := by
    simp only [System.opens]
    split
    next same =>
      simp only [Action.signal.injEq] at same
      obtain ⟨rfl, rfl⟩ := same
      simp [found, other rfl]
    · rfl
  revert account opensNothing stepped
  generalize standing : worker.phase = phase
  intro stepped account opensNothing
  have moved (system : System) (after : Phase) : (system.move id worker after).workers.lookup id =
      some { worker with phase := after } := by
    simp [System.move, System.update]
  simp only [runOpenArchive.eq_def] at stepped
  split at stepped
  · cases stepped
    exact account_of_passes account.1 account.2 (opensNothing (by simp)) (Passes.start rfl)
  · cases stepped
    exact account_of_passes account.1 account.2 (opensNothing (by simp)) (Passes.checkpoint rfl)
  · cases stepped
    exact account_of_passes account.1 account.2 (opensNothing (by simp))
      (Passes.publishMove (by simp) rfl)
  · cases stepped
    exact account_of_passes account.1 account.2 (opensNothing (by simp)) (Passes.move rfl)
  · cases stepped
    exact account_of_passes account.1 account.2 (opensNothing (by simp)) (Passes.move rfl)
  · cases stepped
    exact account_of_passes account.1 account.2 (opensNothing (by simp)) (Passes.checkpoint rfl)
  · cases stepped
    exact account_of_passes account.1 account.2 (opensNothing (by simp))
      (Passes.publishMove (by simp) rfl)
  · -- The session is put into the store.
    cases stepped
    have created : store.system.opens (.signal id (.answered .succeeded)) =
        [(id, store.system.nextSessionId)] := by
      simp [System.opens, found, opens, standing]
    refine ⟨_, moved _ _, account.1, ?_, .inl mem_cons_self⟩
    intro other
    have before := account.2 other
    rw [created]
    simp [before]
  · obtain ⟨uncompleted, only, available⟩ := account
    split at stepped
    · -- A cancellation was noticed, and the session is closed again.
      cases stepped
      have same := opensNothing (by simp)
      refine ⟨_, moved _ _, ?_, ?_⟩
      · intro result last
        exact absurd last (uncompleted result)
      · intro session mem
        rw [same] at mem
        obtain rfl := (only session).mp mem
        exact .inr ⟨uncompleted, accounted.openOnce.not_mem_erase⟩
    · cases stepped
      refine ⟨_, moved _ _, uncompleted, ?_, available⟩
      rw [opensNothing (by simp)]
      exact only
  · -- The completion is published unless the operation has ended.
    rename_i session
    obtain ⟨uncompleted, only, available⟩ := account
    cases stepped
    refine ⟨_, moved _ _, ?_, ?_, available⟩
    · intro result last
      have published : (store.registry.transition id
          (.completed (.archiveOpened session))).2.lastState id = some (.completed result) :=
        last
      rcases lastState_transition store.registry id (.completed (.archiveOpened session)) id with
        ⟨kept, -⟩ | ⟨-, -, advanced, recorded⟩
      · rw [kept] at published
        exact absurd published (uncompleted result)
      · rw [advanced] at published
        obtain same := OperationState.completed.inj (some.inj published)
        rw [← same]
        exact ⟨rfl, recorded⟩
    · rw [opensNothing (by simp)]
      exact only
  next session =>
    obtain ⟨completed, only, available⟩ := account
    have same := opensNothing (by simp)
    split at stepped
    · -- The registry still shows the completion.
      rename_i result recorded
      cases stepped
      have last := accounted.orderly.tracked.valid.inOrder.lastState_eq recorded
      obtain ⟨rfl, -⟩ := completed result last
      refine ⟨_, moved _ _, ?_, ?_⟩
      · intro other published
        obtain ⟨rfl, -⟩ := completed other published
        rw [same]
        exact ⟨session, rfl, (only session).mpr rfl⟩
      · intro other mem
        rw [same] at mem
        obtain rfl := (only other).mp mem
        exact .inl ⟨last, available⟩
    next notCompleted =>
      cases stepped
      have uncompleted : store.Uncompleted id := by
        intro result last
        exact notCompleted result (completed result last).2
      refine ⟨_, moved _ _, ?_, ?_⟩
      · intro result last
        exact absurd last (uncompleted result)
      · intro other mem
        rw [same] at mem
        obtain rfl := (only other).mp mem
        exact .inr ⟨uncompleted, accounted.openOnce.not_mem_erase⟩
  · cases stepped
    exact account_of_passes account.1 account.2 (opensNothing (by simp)) (Passes.raiseChallenge _)
  · cases stepped
    exact account_of_passes account.1 account.2 (opensNothing (by simp))
      (Passes.pollCancelled found (by rw [standing]; rfl))
  · split at stepped
    · cases stepped
      refine account_of_passes account.1 account.2 (opensNothing (by simp)) ⟨.inl rfl,
        { worker with attempt := worker.attempt + 1, phase := .looping },
        ?_, rfl⟩
      simp [System.update]
    · cases stepped
      exact account_of_passes account.1 account.2 (opensNothing (by simp))
        (Passes.publishMove (by simp) rfl)
    · cases stepped
  · cases stepped

theorem few_younger (remembers : remembered store (.task (.call .evict)) = true)
    (found : store.system.workers.lookup id = some worker) (unread : worker.isUnread = true)
    {result : OperationResult}
    (recorded : store.registry.operationState id = some (.completed result)) :
    store.registry.youngerTerminals id < maxTerminalHistory := by
  simp only [remembered, List.all_eq_true] at remembers
  have listed : id ∈ store.system.unread := by
    simp only [System.unread, mem_filter]
    refine ⟨?_, by simp [found, unread]⟩
    by_contra absent
    rw [KeyedMap.notMem_keys_iff.mp absent] at found
    cases found
  have young := remembers id listed
  simpa [recorded] using young

theorem close (accounted : Accounted store)
    (taken : store.step (.close session) = some next) : Accounted next := by
  have beside := Beside.of_close taken
  simp only [Store.step] at taken
  split at taken
  · cases taken
    exact
      { orderly :=
        { tracked := accounted.orderly.tracked
          begun := accounted.orderly.begun
          domestic := accounted.orderly.domestic
          idle := accounted.orderly.idle }
        created_lt := accounted.created_lt
        open_lt := fun isOpen => accounted.open_lt (mem_of_mem_erase isOpen)
        openOnce := accounted.openOnce.erase session
        creator := accounted.creator
        unspawned := accounted.unspawned
        account := fun found opens =>
          (beside _).account (fun _ _ _ => id) (accounted.account found opens) }
  · cases taken
    exact accounted

theorem account_task (accounted : Accounted store)
    (remembers : remembered store (.task action) = true)
    (taken : store.step (.task action) = some next)
    (found : next.system.workers.lookup id = some worker) (opens : worker.kind = .openArchive) :
    Account next id worker.phase := by
  have mapped := taken
  obtain ⟨⟨system, _⟩, stepped, shape⟩ := map_eq_some_iff.mp mapped
  have inner := stepped
  subst next
  rcases Orderly.worker_cases stepped found with
    ⟨earlier, before, sameKind⟩ | ⟨kind, archiveName, rfl⟩
  · by_cases signalled : ∃ signal, action = .signal id signal
    · obtain ⟨signal, rfl⟩ := signalled
      obtain ⟨ran, -⟩ := step_system stepped
      have earlierOpens : earlier.kind = .openArchive := sameKind.trans opens
      simp only [OperationWorkers.step, before, stepWorker, earlierOpens] at ran
      obtain ⟨after, bound, account⟩ := accounted.account_own before earlierOpens ran
      have same : some worker = some after := found.symm.trans bound
      cases same
      exact account
    · have notSignal := not_exists.mp signalled
      have notSpawn : ∀ kind archiveName, action ≠ .spawn id kind archiveName := by
        intro kind archiveName spawned
        subst action
        rw [(spawn_cases stepped).2.2.1] at before
        cases before
      have same := lookup_of_other stepped notSignal notSpawn
      rw [before] at same
      obtain rfl := some.inj (found.symm.trans same)
      refine (accounted.beside_task taken before notSignal).account ?_
        (accounted.account before opens)
      intro session result comparing recorded
      apply accounted.orderly.operationState_kept stepped recorded rfl
      intro _
      subst action
      exact few_younger remembers before (by simp [Worker.isUnread, opens, comparing]) recorded
  · obtain ⟨domestic, -, absent, -, spawned⟩ := spawn_cases stepped
    have shape : system = _ := spawned
    have standing : worker.phase = .spawned := by
      subst system
      simp only [Store.system, System.update, AList.lookup_insert, some.injEq] at found
      rw [← found]
    rw [standing]
    refine account_of_nothing ?_ ?_ rfl
    · intro result last
      have unchanged : system.registry = store.registry := by
        rw [shape]
        rfl
      have earlier : store.registry.lastState id = some (.completed result) := by
        rw [← unchanged]
        exact last
      rcases accounted.orderly.idle absent domestic earlier with
        isAccepted | isCancelled
      · cases isAccepted
      · cases isCancelled
    · intro session created
      exact accounted.unspawned absent created

theorem task (accounted : Accounted store) (remembers : remembered store (.task action) = true)
    (taken : store.step (.task action) = some next) : Accounted next := by
  have accounts := @account_task store next
  obtain ⟨owned, stepped, _⟩ := map_eq_some_iff.mp taken
  have unspawned : ∀ {id}, owned.system.workers.lookup id = none →
      store.system.workers.lookup id = none := by
    intro id absent
    cases found : store.system.workers.lookup id with
    | none => rfl
    | some worker =>
      obtain ⟨_, bound, -⟩ := Orderly.worker_stays stepped found
      rw [absent] at bound
      cases bound
  subst next
  have orderly := accounted.orderly.step stepped
  have account : ∀ {id worker}, owned.system.workers.lookup id = some worker →
      worker.kind = .openArchive →
      Account
        { store with
          owned := owned
          created := store.system.opens action ++ store.created }
        id worker.phase :=
    accounts accounted remembers taken
  rcases sessions_cases stepped with
    ⟨same, nothing⟩ | ⟨target, opener, rfl, found, -, -, opens, grown⟩ |
      ⟨target, closer, closing, rfl, standsAt, -, -, nothing, shrunk⟩
  · obtain ⟨sameOpen, sameNext⟩ := Prod.mk.inj same
    have created : store.system.opens action ++ store.created = store.created := by
      rw [Store.system, nothing]
      rfl
    rw [created] at account ⊢
    refine ⟨orderly, ?_, ?_, ?_, accounted.creator, ?_, account⟩
    · intro id session mem
      rw [Store.system, sameNext]
      exact accounted.created_lt mem
    · intro session mem
      rw [Store.system, sameOpen] at mem
      rw [Store.system, sameNext]
      exact accounted.open_lt mem
    · rw [Store.system, sameOpen]
      exact accounted.openOnce
    · intro id session absent
      exact accounted.unspawned (unspawned absent)
  · -- A fresh session id, which nobody has used.
    obtain ⟨grownOpen, grownNext⟩ := Prod.mk.inj grown
    have created : store.system.opens (.signal target (.answered .succeeded)) =
        [(target, store.system.nextSessionId)] :=
      opens
    rw [created] at account ⊢
    have fresh : ∀ {id}, (id, store.system.nextSessionId) ∉ store.created := by
      intro id mem
      exact lt_irrefl _ (accounted.created_lt mem)
    refine ⟨orderly, ?_, ?_, ?_, ?_, ?_, account⟩
    · intro id session mem
      rw [Store.system, grownNext]
      rcases mem_cons.mp mem with own | earlier
      · obtain ⟨-, rfl⟩ := Prod.mk.inj own
        exact Nat.lt_succ_self _
      · exact Nat.lt_succ_of_lt (accounted.created_lt earlier)
    · intro session mem
      rw [Store.system, grownOpen] at mem
      rw [Store.system, grownNext]
      rcases mem_cons.mp mem with rfl | earlier
      · exact Nat.lt_succ_self _
      · exact Nat.lt_succ_of_lt (accounted.open_lt earlier)
    · rw [Store.system, grownOpen]
      refine nodup_cons.mpr ⟨?_, accounted.openOnce⟩
      intro mem
      exact lt_irrefl _ (accounted.open_lt mem)
    · intro _ _ session firstMember secondMember
      rcases mem_cons.mp firstMember with firstOwn | firstEarlier <;>
        rcases mem_cons.mp secondMember with secondOwn | secondEarlier
      · rw [(Prod.mk.inj firstOwn).1, (Prod.mk.inj secondOwn).1]
      · obtain ⟨-, rfl⟩ := Prod.mk.inj firstOwn
        exact absurd secondEarlier fresh
      · obtain ⟨-, rfl⟩ := Prod.mk.inj secondOwn
        exact absurd firstEarlier fresh
      · exact accounted.creator firstEarlier secondEarlier
    · intro id session absent mem
      have before := unspawned absent
      rcases mem_cons.mp mem with own | earlier
      · obtain ⟨rfl, -⟩ := Prod.mk.inj own
        have present : store.system.workers.lookup id = some opener := found
        rw [before] at present
        cases present
      · exact accounted.unspawned before earlier
  · obtain ⟨shrunkOpen, sameNext⟩ := Prod.mk.inj shrunk
    have created : store.system.opens (.signal target .go) ++ store.created = store.created := by
      rw [Store.system, nothing]
      rfl
    rw [created] at account ⊢
    refine ⟨orderly, ?_, ?_, ?_, accounted.creator, ?_, account⟩
    · intro id session mem
      rw [Store.system, sameNext]
      exact accounted.created_lt mem
    · intro session mem
      rw [Store.system, shrunkOpen] at mem
      rw [Store.system, sameNext]
      exact accounted.open_lt (mem_of_mem_erase mem)
    · rw [Store.system, shrunkOpen]
      exact accounted.openOnce.erase closing
    · intro id session absent
      exact accounted.unspawned (unspawned absent)

theorem step (accounted : Accounted store) {action : StoreAction}
    (remembers : remembered store action = true) (taken : store.step action = some next) :
    Accounted next := by
  cases action with
  | task action => exact accounted.task remembers taken
  | close => exact accounted.close taken

theorem of_run {actions : List StoreAction} (met : ActionRun.Guarded Store.step
    (fun store action => remembered store action = true)
    Store.initial actions)
    (ran : run Store.step Store.initial actions = some next) : Accounted next :=
  run_preserves_of_guarded Accounted
    (fun accounted => accounted.step)
    initially met ran

end Accounted

section

variable {store : Store} {id : OperationId} {worker : Worker}

theorem step_of_session (found : store.system.workers.lookup id = some worker)
    (opens : worker.kind = .openArchive) {system : System}
    (stepped : runOpenArchive store.system id worker worker.phase .go = some system) :
    store.step (.task (.signal id .go)) =
      some { store with
        owned := ⟨system, store.owned.foreign⟩
        created := store.created } := by
  have bound : store.owned.system.workers.lookup id = some worker := found
  have ran : runOpenArchive store.owned.system id worker worker.phase .go = some system := stepped
  simp [Store.step, Owned.step, OperationWorkers.step, bound, stepWorker, opens, ran, System.opens]

def Store.Stands (store : Store) (id : OperationId) (phase : Phase) : Prop :=
  ∃ worker, store.system.workers.lookup id = some worker ∧
    worker.kind = .openArchive ∧ worker.phase = phase

theorem stands_step {phase after : Phase} (stands : store.Stands id phase)
    (stepped : ∀ worker : Worker, worker.phase = phase → ∃ system : System,
      runOpenArchive store.system id worker phase .go = some (system.move id worker after)) :
    ∃ next, store.step (.task (.signal id .go)) = some next ∧
      next.created = store.created ∧ next.Stands id after := by
  obtain ⟨worker, found, opens, standing⟩ := stands
  obtain ⟨system, ran⟩ := stepped worker standing
  rw [← standing] at ran
  refine ⟨_, step_of_session found opens ran, rfl, { worker with phase := after }, ?_, opens, rfl⟩
  simp [Store.system, System.move, System.update]

variable {session : ArchiveSessionId}

theorem stands_comparing (stands : store.Stands id (.comparing session)) :
    ∃ next, store.step (.task (.signal id .go)) = some next ∧
      next.created = store.created ∧ next.Stands id .returned := by
  apply stands_step stands
  intro _ _
  simp only [runOpenArchive]
  split
  · exact ⟨store.system, rfl⟩
  · exact ⟨store.system.closeSession session, rfl⟩

theorem stands_completing (stands : store.Stands id (.completing session)) :
    ∃ next, store.step (.task (.signal id .go)) = some next ∧ next.created = store.created ∧
      next.Stands id (.comparing session) := by
  apply stands_step stands
  intro _ _
  exact ⟨store.system.publish id (.completed (.archiveOpened session)), rfl⟩

theorem stands_opened (stands : store.Stands id (.opened session)) : ∃ next,
    store.step (.task (.signal id .go)) = some next ∧ next.created = store.created ∧
      (next.Stands id .returned ∨ next.Stands id (.completing session)) := by
  cases noticed : store.system.registry.isCancelled id with
  | true =>
    obtain ⟨next, taken, created, returned⟩ :=
      @stands_step store id (.opened session) .returned stands (by
        intro worker _
        refine ⟨store.system.closeSession session, ?_⟩
        simp [runOpenArchive, noticed])
    exact ⟨next, taken, created, .inl returned⟩
  | false =>
    obtain ⟨next, taken, created, completing⟩ :=
      @stands_step store id (.opened session) (.completing session) stands (by
        intro worker _
        refine ⟨store.system, ?_⟩
        simp [runOpenArchive, noticed])
    exact ⟨next, taken, created, .inr completing⟩

variable {state : OperationState}

theorem Accounted.signalled (accounted : Accounted store) {next : Store}
    (taken : store.step (.task (.signal id .go)) = some next)
    (last : store.registry.lastState id = some state) (terminal : state.isTerminal = true) :
    Accounted next ∧ next.registry.lastState id = some state := by
  refine ⟨accounted.step rfl taken, ?_⟩
  obtain ⟨_, stepped, rfl⟩ := map_eq_some_iff.mp taken
  exact accounted.orderly.lastState_final stepped last terminal

theorem Accounted.gone_of_returned (accounted : Accounted store)
    (stands : store.Stands id .returned) (created : (id, session) ∈ store.created)
    (otherwise : store.registry.lastState id ≠ some (.completed (.archiveOpened session))) :
    session ∉ store.system.openSessions := by
  obtain ⟨_, found, opens, returned⟩ := stands
  have account := accounted.account found opens
  rw [returned] at account
  rcases account.2 session created with ⟨published, -⟩ | ⟨-, gone⟩
  · exact absurd published otherwise
  · exact gone

def Closes (store : Store) (id : OperationId) (session : ArchiveSessionId) (bound : Nat) : Prop :=
  ∃ count ≤ bound, ∃ later, run Store.step store
    (List.replicate count (.task (.signal id .go))) = some later ∧
      session ∉ later.system.openSessions

theorem Closes.of_step {next : Store} {bound : Nat}
    (taken : store.step (.task (.signal id .go)) = some next)
    (closes : Closes next id session bound) : Closes store id session (bound + 1) := by
  obtain ⟨count, within, later, ran, gone⟩ := closes
  refine ⟨count + 1, Nat.succ_le_succ within, later, ?_, gone⟩
  rw [replicate_succ]
  exact run_cons_eq_some.mpr ⟨next, taken, ran⟩

theorem Accounted.closes_soon (accounted : Accounted store) {phase : Phase}
    (stands : store.Stands id phase)
    (last : store.registry.lastState id = some state) (terminal : state.isTerminal = true)
    (created : (id, session) ∈ store.created)
    (otherwise : state ≠ .completed (.archiveOpened session)) : Closes store id session 3 := by
  have returned {store : Store} (accounted : Accounted store) (stands : store.Stands id .returned)
      (last : store.registry.lastState id = some state)
      (created : (id, session) ∈ store.created)
      (bound : Nat) :
      Closes store id session bound := by
    refine ⟨0, Nat.zero_le bound, store, rfl, ?_⟩
    apply accounted.gone_of_returned stands created
    rw [last]
    exact fun same => otherwise (some.inj same)
  have comparing {store : Store} {own : ArchiveSessionId} (accounted : Accounted store)
      (stands : store.Stands id (.comparing own))
      (last : store.registry.lastState id = some state)
      (created : (id, session) ∈ store.created) :
      Closes store id session 1 := by
    obtain ⟨next, taken, same, standsNext⟩ := stands_comparing stands
    obtain ⟨accountedNext, lastNext⟩ := accounted.signalled taken last terminal
    rw [← same] at created
    exact (returned accountedNext standsNext lastNext created 0).of_step taken
  have completing {store : Store} {own : ArchiveSessionId} (accounted : Accounted store)
      (stands : store.Stands id (.completing own))
      (last : store.registry.lastState id = some state)
      (created : (id, session) ∈ store.created) :
      Closes store id session 2 := by
    obtain ⟨next, taken, same, standsNext⟩ := stands_completing stands
    obtain ⟨accountedNext, lastNext⟩ := accounted.signalled taken last terminal
    rw [← same] at created
    exact (comparing accountedNext standsNext lastNext created).of_step taken
  have sooner {bound : Nat} (within : bound ≤ 3) (closes : Closes store id session bound) :
      Closes store id session 3 := by
    obtain ⟨count, small, rest⟩ := closes
    exact ⟨count, small.trans within, rest⟩
  by_cases holds : phase.hasSession = true
  · cases phase with
    | opened own =>
      obtain ⟨next, taken, same, standsNext⟩ := stands_opened stands
      obtain ⟨accountedNext, lastNext⟩ := accounted.signalled taken last terminal
      rw [← same] at created
      rcases standsNext with standsReturned | standsCompleting
      · exact (returned accountedNext standsReturned lastNext created 2).of_step taken
      · exact (completing accountedNext standsCompleting lastNext created).of_step taken
    | completing own => exact sooner (by omega) (completing accounted stands last created)
    | comparing own => exact sooner (by omega) (comparing accounted stands last created)
    | _ => cases holds
  · by_cases isReturned : phase = .returned
    · subst phase
      exact returned accounted stands last created 3
    · -- In every other phase the open has put in no session.
      obtain ⟨_, found, opens, standing⟩ := stands
      have account := accounted.account found opens
      rw [standing] at account
      cases phase with
      | returned => exact absurd rfl isReturned
      | opened own | completing own | comparing own => exact absurd rfl holds
      | _ => exact absurd created (account.2 session)

end

/-- Where no eviction precedes the question, a session is in the store from the completion
of its open until it is closed, and no other is left. -/
theorem opened_session_accounted {actions : List StoreAction} {final : Store}
    (met : ActionRun.Guarded Store.step (fun store action => remembered store action = true)
      Store.initial actions)
    (ran : run Store.step Store.initial actions = some final) {id : OperationId}
    {worker : Worker} (found : final.system.workers.lookup id = some worker)
    (opens : worker.kind = .openArchive) : (∀ session, ∀ event ∈ final.registry.eventsOf id,
      event.state = .completed (.archiveOpened session) →
      session ∈ final.system.openSessions ∨ session ∈ final.closed) ∧
      ∀ session, (id, session) ∈ final.created → (∀ event ∈ final.registry.eventsOf id,
        event.state ≠ .completed (.archiveOpened session)) →
        (worker.phase = .returned → session ∉ final.system.openSessions) ∧
          (final.registry.concluded id = true → ∃ count ≤ 3, ∃ later, run Store.step final
            (List.replicate count (.task (.signal id .go))) =
              some later ∧ session ∉ later.system.openSessions) := by
  have accounted := Accounted.of_run met ran
  have stands : final.Stands id worker.phase := ⟨worker, found, opens, rfl⟩
  have account := accounted.account found opens
  have inOrder : InOrder final.registry := accounted.orderly.tracked.valid.inOrder
  constructor
  · intro session event published completes
    have last : final.registry.lastState id = some (.completed (.archiveOpened session)) := by
      rw [← completes]
      exact inOrder.lastState_of_published published (by rw [completes]; rfl)
    revert account
    cases worker.phase with
    | comparing own =>
      intro account
      obtain ⟨same, -⟩ := account.1 _ last
      obtain rfl := OperationResult.archiveOpened.inj same
      exact account.2.2
    | returned =>
      intro account
      obtain ⟨own, same, created⟩ := account.1 _ last
      obtain rfl := OperationResult.archiveOpened.inj same
      rcases account.2 _ created with ⟨-, available⟩ | ⟨uncompleted, -⟩
      · exact available
      · exact absurd last (uncompleted _)
    | _ =>
      intro account
      exact absurd last (account.1 _)
  · intro session created unpublished
    have otherwise : final.registry.lastState id ≠ some (.completed (.archiveOpened session)) := by
      intro last
      obtain ⟨event, isLast, completes⟩ := map_eq_some_iff.mp last
      exact unpublished event (mem_of_getLast? isLast) completes
    constructor
    · intro returned
      rw [returned] at stands
      exact accounted.gone_of_returned stands created otherwise
    · intro concluded
      obtain ⟨_, last, terminal⟩ := concluded_iff_lastState.mp concluded
      apply accounted.closes_soon stands last terminal created
      intro same
      rw [same] at last
      exact otherwise last

def openUntilCompletion : List StoreAction :=
  [.call (.mint .openArchive), .call (.insert 1), .spawn 1 .openArchive "pack.7z", .signal 1 .go,
    .signal 1 .go, .signal 1 (.answered .succeeded), .signal 1 .go,
    .signal 1 (.answered .succeeded), .signal 1 .go].map .task

/-- The open completes, asks the registry, and a caller closes the session. -/
def openAndClose : List StoreAction :=
  openUntilCompletion ++ [.task (.signal 1 .go), .task (.call .evict), .task (.signal 1 .go),
    .close 1]

/-- Both guarantees on an open that completes. -/
theorem opened_session_accounted_until_closed : ∃ final worker,
    run Store.step Store.initial openAndClose = some final ∧
      final.system.workers.lookup 1 = some worker ∧ worker.phase = .returned ∧
      (1 ∈ final.system.openSessions ∨ 1 ∈ final.closed) := by
  have evaluated : (run Store.step Store.initial openAndClose).map (fun final =>
    ((final.system.workers.lookup 1).map (fun worker => (worker.kind, worker.phase)),
      final.registry.lastState 1)) =
        some (some (.openArchive, .returned), some (.completed (.archiveOpened 1))) := by
    decide +kernel
  obtain ⟨final, ran, seen⟩ := map_eq_some_iff.mp evaluated
  obtain ⟨standing, last⟩ := Prod.mk.inj seen
  obtain ⟨worker, found, runs⟩ := map_eq_some_iff.mp standing
  obtain ⟨opens, returned⟩ := Prod.mk.inj runs
  obtain ⟨event, isLast, completes⟩ := map_eq_some_iff.mp last
  have accounted :=
    @opened_session_accounted openAndClose final (by decide +kernel) ran 1 worker found opens
  exact ⟨final, worker, ran, found, returned,
    accounted.1 1 event (mem_of_getLast? isLast) completes⟩

def otherCompletion (id : OperationId) : List StoreAction :=
  [.call (.mint .extract), .call (.insert id),
    .call (.transition id (.completed .none)), .call .evict].map .task

/-- 256 younger operations complete before a long open does. -/
def forgottenOpen : List StoreAction :=
  openUntilCompletion ++ (List.range 256).flatMap (fun index => otherCompletion (index + 2)) ++
    [.task (.signal 1 .go), .task (.call .evict), .task (.signal 1 .go)]

/-- The open is published with its session, no caller has closed the session,
and it is gone. -/
theorem forgotten_open_closed : ∃ final worker event,
    run Store.step Store.initial forgottenOpen = some final ∧
      final.system.workers.lookup 1 = some worker ∧ worker.kind = .openArchive ∧
      event ∈ final.registry.eventsOf 1 ∧ event.state = .completed (.archiveOpened 1) ∧
      (1, 1) ∈ final.created ∧ final.system.openSessions = [] ∧ final.closed = [] := by
  have evaluated : (run Store.step Store.initial forgottenOpen).map (fun final =>
    ((final.system.workers.lookup 1).map Worker.kind, final.registry.lastState 1,
      decide ((1, 1) ∈ final.created), final.system.openSessions, final.closed)) =
        some (some .openArchive, some (.completed (.archiveOpened 1)), true, [], []) := by
    decide +kernel
  obtain ⟨final, ran, seen⟩ := map_eq_some_iff.mp evaluated
  simp only [Prod.mk.injEq, decide_eq_true_eq] at seen
  obtain ⟨standing, last, created, noneOpen, noneClosed⟩ := seen
  obtain ⟨worker, found, opens⟩ := map_eq_some_iff.mp standing
  obtain ⟨event, isLast, completes⟩ := map_eq_some_iff.mp last
  exact ⟨final, worker, event, ran, found, opens,
    mem_of_getLast? isLast, completes, created, noneOpen, noneClosed⟩

end Arclain.OperationWorkers
