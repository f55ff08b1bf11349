import Arclain.Fallible
import Arclain.MultiPart
import Arclain.OperationOutcome

namespace Arclain.OperationWorkers

/-!
# What a merge leaves of its parts

`run_merge` enumerates the parts of its set once, asks `MergeService::merge` to keep them,
and removes them itself after its completion has been published and read back.
-/

open OperationRegistry MultiPart Text Option ActionRun Worker

/-- An error of core, by whether its text looks like a missing password. -/
inductive MergeError where
  | passwordShaped
  | other

/-- What is answered to one run of `MergeService::merge`. -/
structure MergeAnswers where
  validate : Except MergeError (List FilePath)
  cancelledAfterValidation : Bool
  outputExists : Bool
  createTempDir : Except MergeError Unit
  selectBackend : Except MergeError Unit
  extractAll : Except MergeError Unit
  cancelledAfterExtraction : Bool
  noFilesExtracted : Bool
  detectSevenZip : Except MergeError Unit
  createArchive : Except MergeError Unit
  cancelledAfterCompression : Bool
  removable : List FilePath

/-- The options of a merge that its outcome depends on. -/
structure MergeOptions where
  outputPath : String
  deleteOriginals : Bool

/-- Stop with an error of core's own when a test is met. -/
def bailIf (met : Bool) : Except MergeError Unit := if met then .error .other else .ok ()

def checkCancelled (cancelled : Bool) : Except MergeError Unit := bailIf cancelled

/-- `MergeService::merge`: the path it has written and the parts it has removed. -/
def MergeService.merge (options : MergeOptions) (answers : MergeAnswers) :
    Except MergeError (String × List FilePath) := do
  let foundParts ← answers.validate
  bailIf foundParts.isEmpty
  checkCancelled answers.cancelledAfterValidation
  bailIf answers.outputExists
  answers.createTempDir
  answers.selectBackend
  answers.extractAll
  checkCancelled answers.cancelledAfterExtraction
  bailIf answers.noFilesExtracted
  answers.detectSevenZip
  answers.createArchive
  checkCancelled answers.cancelledAfterCompression
  let removed :=
    if options.deleteOriginals then foundParts.filter (· ∈ answers.removable)
    else []
  return (options.outputPath, removed)

/-- `merge_attempt`: the classified outcome and the parts removed by it. -/
def mergeAttempt (options : MergeOptions) (answers : MergeAnswers) : MergeAttempt × List FilePath :=
  match MergeService.merge options answers with
  | .ok (outputPath, removed) => (.merged outputPath, removed)
  | .error .passwordShaped => (.passwordRequired, [])
  | .error .other => (.failed, [])

/-- The options `run_merge` passes to core, whatever the request asked for. -/
def attemptOptions (outputPath : String) : MergeOptions where
  outputPath := outputPath
  deleteOriginals := false

/-- The workers and the disk, with the parts each merge enumerated, will remove and has
removed. -/
structure MergeState where
  owned : Owned
  disk : List FilePath
  enumerated : KeyedMap OperationId (List FilePath)
  deleting : KeyedMap OperationId (List FilePath)
  removed : List (OperationId × FilePath)
  vanished : List FilePath
  succeeded : List (OperationId × String)

/-- A section of a task or of a merge, or another program on the disk. -/
inductive MergeAction where
  | task (action : Action)
  | detect (id : OperationId) (parent baseName : Str) (format : MultiPartFormat)
  | attempt (id : OperationId) (outputPath : String) (answers : MergeAnswers)
  | remove (id : OperationId) (succeeds : Bool)
  | appear (file : FilePath)
  | vanish (file : FilePath)

/-- The worker runs `run_merge`. -/
def Worker.isMerge (worker : Worker) : Bool :=
  match worker.kind with
  | .merge _ => true
  | _ => false

/-- The answer comes from the enumeration or from an attempt of a merge. -/
def System.reserves (system : System) : Action → Bool
  | .signal id (.answered .proceed) => (system.workers.lookup id).any isMerge
  | .signal id (.answered (.attempted _)) => (system.workers.lookup id).any isMerge
  | _ => false

/-- The merge that finds its completion confirmed in this section. -/
def System.confirms (system : System) : Action → Option OperationId
  | .signal id .go =>
    match system.workers.lookup id, system.registry.operationState id with
    | some worker, some (.completed (.merged _)) =>
      if worker.isMerge ∧ worker.phase = .confirming then some id
      else none
    | _, _ => none
  | _ => none

namespace MergeState

def initial (disk : List FilePath) : MergeState where
  owned := Owned.initial
  disk := disk
  enumerated := ∅
  deleting := ∅
  removed := []
  vanished := []
  succeeded := []

def system (state : MergeState) : System := state.owned.system

def registry (state : MergeState) : OperationRegistry := state.owned.registry

def parts (state : MergeState) (id : OperationId) : List FilePath :=
  (state.enumerated.lookup id).getD []

def mergeStands (state : MergeState) (id : OperationId) (phase : Phase) : Bool :=
  (state.system.workers.lookup id).any fun worker => worker.isMerge && worker.phase = phase

def step [CharTables] (state : MergeState) : MergeAction → Option MergeState
  | .task action =>
    if state.system.reserves action then none
    else
      (state.owned.step action).map fun owned =>
        { state with
          owned := owned
          deleting :=
            match state.system.confirms action with
            | some id => state.deleting.insert id (state.parts id)
            | none => state.deleting }
  | .detect id parent baseName format =>
    let parts := findAllParts state.disk parent baseName format
    if state.mergeStands id .preparing ∧ parts ≠ [] then
      (state.owned.step (.signal id (.answered .proceed))).map fun owned =>
        { state with
          owned := owned
          enumerated := state.enumerated.insert id parts }
    else none
  | .attempt id outputPath answers =>
    let outcome := mergeAttempt (attemptOptions outputPath) answers
    if state.mergeStands id .attempting then
      (state.owned.step (.signal id (.answered (.attempted outcome.1)))).map fun owned =>
        { state with
          owned := owned
          disk := state.disk.filter (· ∉ outcome.2)
          removed := outcome.2.map (fun part => (id, part)) ++ state.removed
          succeeded :=
            match outcome.1 with
            | .merged written => (id, written) :: state.succeeded
            | _ => state.succeeded }
    else none
  | .remove id succeeds =>
    match state.deleting.lookup id with
    | some (part :: rest) =>
      if succeeds ∧ part ∈ state.disk then
        some { state with
          disk := state.disk.filter (· ≠ part)
          deleting := state.deleting.insert id rest
          removed := (id, part) :: state.removed }
      else some { state with deleting := state.deleting.insert id rest }
    | _ => none
  | .appear file => some { state with disk := file :: state.disk }
  | .vanish file =>
    some { state with
      disk := state.disk.filter (· ≠ file)
      vanished := file :: state.vanished }

end MergeState

variable {options : MergeOptions}

theorem merge_removes_nothing (keeps : options.deleteOriginals = false)
    {answers : MergeAnswers} {written : String} {removed : List FilePath}
    (merged : MergeService.merge options answers = .ok (written, removed)) : removed = [] := by
  simp only [MergeService.merge, keeps, Fallible.bind_eq_ok] at merged
  obtain ⟨_, -, -, -, -, -, -, -, -, -, -, -, -, -, -, -, -, -, -, -, -, -,
    -, -, finished⟩ := merged
  exact (Prod.mk.inj (Except.ok.inj finished)).2.symm

theorem mergeAttempt_removes_nothing
    (keeps : options.deleteOriginals = false) (answers : MergeAnswers) :
    (mergeAttempt options answers).2 = [] := by
  simp only [mergeAttempt]
  split
  next merged => exact merge_removes_nothing keeps merged
  · rfl
  · rfl

namespace MergeState

def Unsettled (state : MergeState) (id : OperationId) : Prop :=
  ∀ last, state.registry.lastState id = some last → last.isTerminal = true → last = .cancelled

def Merged (state : MergeState) (id : OperationId) : Prop :=
  ∃ outputPath, state.registry.lastState id = some (.completed (.merged outputPath))

end MergeState

def MergeAccount (state : MergeState) (id : OperationId) : Phase → Prop
  | .spawned | .preparing =>
    state.Unsettled id ∧ (∀ written, (id, written) ∉ state.succeeded) ∧
      state.enumerated.lookup id = none
  | .decided attempt =>
    state.Unsettled id ∧ ∀ written, (id, written) ∈ state.succeeded → attempt = .merged written
  | .merged outputPath | .announcing outputPath =>
    state.Unsettled id ∧ ∀ written, (id, written) ∈ state.succeeded → written = outputPath
  | .confirming | .returned =>
    ∀ written, (id, written) ∈ state.succeeded →
      state.registry.lastState id = some (.completed (.merged written)) ∨
        state.registry.lastState id = some .cancelled
  | _ => state.Unsettled id ∧ ∀ written, (id, written) ∉ state.succeeded

/-- The worker of a merge stands before its enumeration. -/
def Phase.isFresh : Phase → Bool
  | .spawned | .preparing => true
  | _ => false

theorem mergeAccount_of_nothing {state : MergeState} {id : OperationId} {phase : Phase}
    (unsettled : state.Unsettled id) (nothing : ∀ written, (id, written) ∉ state.succeeded)
    (fresh : phase.isFresh = true → state.enumerated.lookup id = none) :
    MergeAccount state id phase := by
  cases phase with
  | spawned | preparing => exact ⟨unsettled, nothing, fresh rfl⟩
  | decided | merged outputPath | announcing outputPath =>
    exact ⟨unsettled, fun written mem => absurd mem (nothing written)⟩
  | confirming | returned => exact fun written mem => absurd mem (nothing written)
  | _ => exact ⟨unsettled, nothing⟩

section

variable {state next : MergeState} {id : OperationId}

theorem mergeAccount_of_other (outcome : next.registry.lastState id = state.registry.lastState id ∨
    state.registry.concluded id = false ∧ next.registry.lastState id = some .cancelled)
    (sameSuccess : ∀ written, (id, written) ∈ next.succeeded ↔ (id, written) ∈ state.succeeded)
    (sameParts : next.enumerated.lookup id = state.enumerated.lookup id) {phase : Phase}
    (account : MergeAccount state id phase) : MergeAccount next id phase := by
  have unsettled (earlier : state.Unsettled id) : next.Unsettled id := by
    intro last isLast terminal
    rcases outcome with same | ⟨-, cancelled⟩
    · rw [same] at isLast
      exact earlier last isLast terminal
    · rw [cancelled] at isLast
      exact (some.inj isLast).symm
  have nothing (earlier : ∀ written, (id, written) ∉ state.succeeded) :
      ∀ written, (id, written) ∉ next.succeeded := by
    intro written mem
    exact earlier written ((sameSuccess written).mp mem)
  have settled (earlier : ∀ written, (id, written) ∈ state.succeeded →
      state.registry.lastState id = some (.completed (.merged written)) ∨
        state.registry.lastState id = some .cancelled) :
      ∀ written, (id, written) ∈ next.succeeded →
        next.registry.lastState id = some (.completed (.merged written)) ∨
          next.registry.lastState id = some .cancelled := by
    intro written mem
    rcases outcome with same | ⟨-, cancelled⟩
    · rw [same]
      exact earlier written ((sameSuccess written).mp mem)
    · exact .inr cancelled
  cases phase with
  | spawned | preparing =>
    exact ⟨unsettled account.1, nothing account.2.1, sameParts.trans account.2.2⟩
  | decided | merged outputPath | announcing outputPath =>
    exact ⟨unsettled account.1, fun written mem =>
      account.2 written ((sameSuccess written).mp mem)⟩
  | confirming | returned => exact settled account
  | _ => exact ⟨unsettled account.1, nothing account.2⟩

end

/-- The next registry is the earlier one, up to a state of the operation that
does not end it. -/
def Continues (before after : OperationRegistry) (id : OperationId) : Prop :=
  after = before ∨ ∃ announced : OperationState, announced.isTerminal = false ∧
    after = (before.transition id announced).2

section

variable {state next : MergeState} {id : OperationId} {worker : Worker}

theorem unsettled_of_continues (unsettled : state.Unsettled id)
    (continues : Continues state.registry next.registry id) : next.Unsettled id := by
  intro last isLast terminal
  rcases continues with same | ⟨announced, unfinished, shape⟩
  · rw [same] at isLast
    exact unsettled last isLast terminal
  · rw [shape] at isLast
    rcases lastState_transition state.registry id announced id with
      ⟨kept, -⟩ | ⟨-, -, advanced, -⟩
    · rw [kept] at isLast
      exact unsettled last isLast terminal
    · rw [advanced] at isLast
      rw [← some.inj isLast, unfinished] at terminal
      cases terminal

theorem settled_of_completes (orderly : Orderly state.owned)
    (begun : state.registry.eventsOf id ≠ []) (unsettled : state.Unsettled id) (written : String) :
    (state.registry.transition id (.completed (.merged written))).2.lastState id =
      some (.completed (.merged written)) ∨ (state.registry.transition id
        (.completed (.merged written))).2.lastState id = some .cancelled := by
  have concluded : (state.registry.transition id
      (.completed (.merged written))).2.concluded id = true :=
    orderly.tracked.concluded_transition begun rfl
  rcases lastState_transition state.registry id (.completed (.merged written)) id with
    ⟨kept, -⟩ | ⟨-, -, advanced, -⟩
  · obtain ⟨last, isLast, terminal⟩ := concluded_iff_lastState.mp concluded
    rw [kept] at isLast
    rw [kept, isLast, unsettled last isLast terminal]
    exact .inr rfl
  · exact .inl advanced

theorem mergeAccount_own (orderly : Orderly state.owned)
    (found : state.system.workers.lookup id = some worker)
    (account : MergeAccount state id worker.phase) {deleteOriginals : Bool} {signal : Signal}
    {system : System} {foreign : List OperationId} {deleting : KeyedMap OperationId (List FilePath)}
    (notProceed : signal ≠ .answered .proceed)
    (notAttempted : ∀ attempt, signal ≠ .answered (.attempted attempt))
    (stepped : runMerge state.system id worker deleteOriginals worker.phase signal = some system) :
    ∃ after, system.workers.lookup id = some after ∧ MergeAccount
      { state with owned := ⟨system, foreign⟩, deleting := deleting }
      id after.phase := by
  -- Where a section leads that concludes nothing, and one that returns.
  have continuing {system : System} {phase : Phase} (unsettled : state.Unsettled id)
      (nothing : ∀ written, (id, written) ∉ state.succeeded)
      (fresh : phase.isFresh = true → state.enumerated.lookup id = none)
      (continues : Continues state.registry system.registry id) :
      MergeAccount { state with owned := ⟨system, foreign⟩, deleting := deleting } id phase :=
    mergeAccount_of_nothing (unsettled_of_continues unsettled continues) nothing fresh
  have returning {system : System} (nothing : ∀ written, (id, written) ∉ state.succeeded) :
      MergeAccount { state with owned := ⟨system, foreign⟩, deleting := deleting } id .returned :=
    fun written mem => absurd mem (nothing written)
  have moved (system : System) (phase : Phase) : (system.move id worker phase).workers.lookup id =
      some { worker with phase := phase } := by
    simp [System.move, System.update]
  have begun : state.registry.eventsOf id ≠ [] := orderly.begun found
  have checked {phase : Phase} (unsettled : state.Unsettled id)
      (nothing : ∀ written, (id, written) ∉ state.succeeded)
      (later : phase.isFresh = false) :
      ∃ after, (state.system.checkpoint id worker phase).workers.lookup id = some after ∧
        MergeAccount
          { state with
            owned := ⟨state.system.checkpoint id worker phase, foreign⟩
            deleting := deleting }
          id after.phase := by
    simp only [System.checkpoint]
    split
    · exact ⟨_, moved _ _, returning nothing⟩
    · exact ⟨_, moved _ _, continuing unsettled nothing
        (fun fresh => by rw [later] at fresh; cases fresh) (.inl rfl)⟩
  revert account stepped
  generalize standing : worker.phase = phase
  intro account stepped
  simp only [runMerge.eq_def] at stepped
  split at stepped
  · cases stepped
    simp only [System.start]
    split
    · exact ⟨_, moved _ _, returning account.2.1⟩
    · exact ⟨_, moved _ _, continuing account.1 account.2.1
        (fun _ => account.2.2) (.inr ⟨.started, rfl, rfl⟩)⟩
  · cases stepped
    exact ⟨_, moved _ _, returning account.2.1⟩
  · exact absurd rfl notProceed
  · cases stepped
    exact checked account.1 account.2 rfl
  · cases stepped
    exact checked account.1 account.2 rfl
  next percent message =>
    cases stepped
    refine ⟨worker, found, ?_⟩
    rw [standing]
    exact continuing account.1 account.2 (by simp [Phase.isFresh])
      (.inr ⟨.progress percent (some 100) message, rfl, rfl⟩)
  · cases stepped
    exact ⟨_, moved _ _, returning account.2⟩
  · exact absurd rfl (notAttempted _)
  · -- An attempt that succeeded goes on whether or not it is cancelled.
    rename_i attempt
    obtain ⟨unsettled, only⟩ := account
    cases attempt with
    | merged outputPath =>
      cases stepped
      refine ⟨_, moved _ _, unsettled, ?_⟩
      intro written mem
      exact (MergeAttempt.merged.inj (only written mem)).symm
    | passwordRequired | failed =>
      have nothing : ∀ written, (id, written) ∉ state.succeeded := by
        intro written mem
        cases only written mem
      cases raised : state.system.registry.isCancelled id with
      | true =>
        simp only [raised, decidePostAttempt] at stepped
        cases stepped
        exact ⟨_, moved _ _, returning nothing⟩
      | false =>
        simp only [raised, decidePostAttempt] at stepped
        cases stepped
        first
        | exact ⟨_, moved _ _, continuing unsettled nothing (by simp [Phase.isFresh]) (.inl rfl)⟩
        | exact ⟨_, moved _ _, returning nothing⟩
  · obtain ⟨unsettled, only⟩ := account
    split at stepped
    · cases stepped
      refine ⟨_, moved _ _, ?_, only⟩
      exact unsettled_of_continues unsettled (.inr ⟨_, rfl, rfl⟩)
    · cases stepped
      exact ⟨_, moved _ _, unsettled, only⟩
  · -- The completion is published, unless the operation was cancelled.
    rename_i outputPath
    obtain ⟨unsettled, only⟩ := account
    have settled := settled_of_completes orderly begun unsettled outputPath
    have account {phase : Phase} (isOver : phase = .returned ∨ phase = .confirming) : MergeAccount
        { state with
          owned :=
            ⟨(state.system.publish id (.completed (.merged outputPath))).move id worker phase,
              foreign⟩
          deleting := deleting } id phase := by
      rcases isOver with rfl | rfl <;> intro written mem <;> rw [only written mem] <;>
        exact settled
    split at stepped
    · cases stepped
      exact ⟨_, moved _ _, account (.inl rfl)⟩
    · split at stepped
      · cases stepped
        exact ⟨_, moved _ _, account (.inr rfl)⟩
      · cases stepped
        exact ⟨_, moved _ _, account (.inl rfl)⟩
  · split at stepped
    · cases stepped
      exact ⟨_, moved _ _, account⟩
    · cases stepped
      exact ⟨_, moved _ _, account⟩
  · cases stepped
    simp only [System.raiseChallenge]
    split
    · exact ⟨_, moved _ _, returning account.2⟩
    · exact ⟨_, moved _ _, continuing account.1 account.2
        (by simp [Phase.isFresh]) (.inr ⟨_, rfl, rfl⟩)⟩
  · cases stepped
    simp only [System.pollCancelled]
    split
    · exact ⟨_, moved _ _, returning account.2⟩
    · refine ⟨worker, found, ?_⟩
      rw [standing]
      exact continuing account.1 account.2 (by simp [Phase.isFresh]) (.inl rfl)
  · obtain ⟨response, -, rfl⟩ := map_eq_some_iff.mp stepped
    cases response with
    | password challenge =>
      refine ⟨{ worker with attempt := worker.attempt + 1, phase := .looping },
        by simp [awaitPasswordRetry, System.update], ?_⟩
      exact continuing account.1 account.2 (by simp [Phase.isFresh]) (.inl rfl)
    | confirmOverwrite challenge overwrite | confirmDestructiveAction challenge confirmed
    | missingExternalTool challenge retry | retryPermission challenge retry =>
      exact ⟨_, moved _ _, returning account.2⟩
  · cases stepped

end

structure Merging (state : MergeState) : Prop where
  orderly : Orderly state.owned
  unspawned : ∀ {id}, state.system.workers.lookup id = none → state.enumerated.lookup id = none ∧
    ∀ written, (id, written) ∉ state.succeeded
  account : ∀ {id worker}, state.system.workers.lookup id = some worker → worker.isMerge = true →
    MergeAccount state id worker.phase
  deleting : ∀ {id parts}, state.deleting.lookup id = some parts →
    state.Merged id ∧ parts ⊆ state.parts id
  removed : ∀ {id part}, (id, part) ∈ state.removed → state.Merged id ∧ part ∈ state.parts id
  surviving : ∀ {id part}, part ∈ state.parts id → part ∈ state.disk ∨ part ∈ state.vanished ∨
    ∃ other, (other, part) ∈ state.removed

namespace Merging

variable {state : MergeState} {id : OperationId}

theorem initially (disk : List FilePath) : Merging (MergeState.initial disk) where
  orderly := Orderly.initially
  unspawned := by
    intro id _
    exact ⟨rfl, fun written mem => by cases mem⟩
  account := by
    intro id _ found
    simp [MergeState.initial, MergeState.system, Owned.initial, System.initial] at found
  deleting := by
    intro id _ found
    simp [MergeState.initial] at found
  removed := by
    intro id part mem
    cases mem
  surviving := by
    intro id part mem
    simp [MergeState.parts, MergeState.initial] at mem

variable {action : Action} {next : MergeState}

theorem merged_stays (merging : Merging state)
    (stepped : state.owned.step action = some next.owned) (merged : state.Merged id) :
    next.Merged id := by
  obtain ⟨outputPath, last⟩ := merged
  exact ⟨outputPath, merging.orderly.lastState_final stepped last rfl⟩

theorem absent_of_signal {owned : Owned} (stepped : state.owned.step action = some owned)
    (absent : state.system.workers.lookup id = none) (signal : Signal) :
    action ≠ .signal id signal := by
  intro _
  subst action
  obtain ⟨ran, -⟩ := Owned.step_system stepped
  have unbound : state.owned.system.workers.lookup id = none := absent
  simp [OperationWorkers.step, unbound] at ran

theorem accounts (merging : Merging state) (stepped : state.owned.step action = some next.owned)
    (own : ∀ {id signal worker}, action = .signal id signal →
      state.system.workers.lookup id = some worker → worker.isMerge = true →
      ∃ after, next.system.workers.lookup id = some after ∧ MergeAccount next id after.phase)
    (sameSuccess : ∀ {id}, (∀ signal, action ≠ .signal id signal) → ∀ written,
      (id, written) ∈ next.succeeded ↔ (id, written) ∈ state.succeeded)
    (sameParts : ∀ {id}, (∀ signal, action ≠ .signal id signal) →
      next.enumerated.lookup id = state.enumerated.lookup id)
    {worker : Worker} (found : next.system.workers.lookup id = some worker)
    (merges : worker.isMerge = true) : MergeAccount next id worker.phase := by
  rcases Orderly.worker_cases stepped found with
    ⟨earlier, before, sameKind⟩ | ⟨kind, archiveName, rfl⟩
  · have earlierMerges : earlier.isMerge = true := by
      rw [← merges]
      simp [isMerge, sameKind]
    by_cases signalled : ∃ signal, action = .signal id signal
    · obtain ⟨signal, rfl⟩ := signalled
      obtain ⟨after, bound, account⟩ := own rfl before earlierMerges
      rw [found] at bound
      cases bound
      exact account
    · have notSignal := not_exists.mp signalled
      have notSpawn : ∀ kind archiveName, action ≠ .spawn id kind archiveName := by
        intro kind archiveName spawned
        subst action
        rw [(Owned.spawn_cases stepped).2.2.1] at before
        cases before
      have same := Owned.lookup_of_other stepped notSignal notSpawn
      rw [before] at same
      obtain rfl := some.inj (found.symm.trans same)
      exact mergeAccount_of_other
        (merging.orderly.lastState_cases stepped (merging.orderly.begun before)
          notSignal (merging.orderly.domestic_step stepped before))
        (sameSuccess notSignal) (sameParts notSignal)
        (merging.account before merges)
  · -- A new merge belongs to an operation that was at most cancelled.
    obtain ⟨domestic, -, absent, -, spawned⟩ := Owned.spawn_cases stepped
    have notSignal : ∀ signal, Action.spawn id kind archiveName ≠ .signal id signal := by simp
    obtain ⟨noParts, nothing⟩ := merging.unspawned absent
    refine mergeAccount_of_nothing ?_ ?_ ?_
    · intro _ isLast terminal
      have unchanged : next.registry = state.registry := by
        have shape := congrArg System.registry spawned
        exact shape
      rw [unchanged] at isLast
      rcases merging.orderly.idle absent domestic isLast with
        isAccepted | isCancelled
      · rw [isAccepted] at terminal
        cases terminal
      · exact isCancelled
    · intro written mem
      exact nothing written ((sameSuccess notSignal written).mp mem)
    · intro _
      rw [sameParts notSignal]
      exact noParts

theorem unspawned_step (merging : Merging state)
    (stepped : state.owned.step action = some next.owned)
    (sameSuccess : ∀ {id}, (∀ signal, action ≠ .signal id signal) → ∀ written,
      (id, written) ∈ next.succeeded ↔ (id, written) ∈ state.succeeded)
    (sameParts : ∀ {id}, (∀ signal, action ≠ .signal id signal) →
      next.enumerated.lookup id = state.enumerated.lookup id)
    (absent : next.system.workers.lookup id = none) :
    next.enumerated.lookup id = none ∧ ∀ written, (id, written) ∉ next.succeeded := by
  have before : state.system.workers.lookup id = none := by
    cases found : state.system.workers.lookup id with
    | none => rfl
    | some =>
      obtain ⟨_, bound, -⟩ := Orderly.worker_stays stepped found
      have none : next.owned.system.workers.lookup id = none := absent
      rw [none] at bound
      cases bound
  have notSignal := absent_of_signal stepped before
  obtain ⟨noParts, nothing⟩ := merging.unspawned before
  refine ⟨?_, ?_⟩
  · rw [sameParts notSignal]
    exact noParts
  · intro written mem
    exact nothing written ((sameSuccess notSignal written).mp mem)

theorem confirms_spec {system : System} (confirms : system.confirms action = some id) :
    ∃ outputPath, system.registry.operationState id = some (.completed (.merged outputPath)) := by
  simp only [System.confirms] at confirms
  split at confirms
  · split at confirms
    next recorded =>
      split at confirms
      · cases confirms
        exact ⟨_, recorded⟩
      · cases confirms
    · cases confirms
  · cases confirms

theorem worker_of_mergeStands {phase : Phase} (stands : state.mergeStands id phase = true) :
    ∃ worker deleteOriginals, state.system.workers.lookup id = some worker ∧
      worker.kind = .merge deleteOriginals ∧ worker.phase = phase := by
  simp only [MergeState.mergeStands, any_eq_true, Bool.and_eq_true,
    decide_eq_true_eq] at stands
  obtain ⟨worker, found, merges, standing⟩ := stands
  simp only [Worker.isMerge] at merges
  split at merges
  next deleteOriginals kind => exact ⟨worker, deleteOriginals, found, kind, standing⟩
  · cases merges

theorem moved_of_signal {worker : Worker} {deleteOriginals : Bool} {signal : Signal}
    {phase : Phase} (stepped : state.owned.step (.signal id signal) = some next.owned)
    (found : state.system.workers.lookup id = some worker)
    (kind : worker.kind = .merge deleteOriginals)
    (moves : runMerge state.system id worker deleteOriginals worker.phase signal =
      some (state.system.move id worker phase)) (unsettled : state.Unsettled id) :
    next.system.workers.lookup id = some { worker with phase := phase } ∧ next.Unsettled id := by
  obtain ⟨ran, -⟩ := Owned.step_system stepped
  have bound : state.owned.system.workers.lookup id = some worker := found
  simp only [OperationWorkers.step, bound, stepWorker, kind] at ran
  have moved : next.system = state.system.move id worker phase :=
    some.inj (ran.symm.trans moves)
  refine ⟨?_, unsettled_of_continues unsettled (.inl ?_)⟩
  · rw [moved]
    simp [System.move, System.update]
  · show next.system.registry = state.system.registry
    rw [moved]
    rfl

section

variable [CharTables] {next : MergeState}

theorem task (merging : Merging state) {action : Action}
    (taken : state.step (.task action) = some next) : Merging next := by
  simp only [MergeState.step] at taken
  split at taken
  · cases taken
  rename_i unreserved
  obtain ⟨owned, ran, rfl⟩ := map_eq_some_iff.mp taken
  refine ⟨merging.orderly.step ran, ?_, ?_, ?_, ?_, merging.surviving⟩
  · intro id absent
    exact merging.unspawned_step ran (by simp) (by simp) absent
  · intro id _ found merges
    refine merging.accounts ran ?_ (by simp) (by simp) found merges
    intro id _ earlier _ before earlierMerges
    subst action
    obtain ⟨_, _⟩ := owned
    obtain ⟨inner, -⟩ := Owned.step_system ran
    have bound : state.owned.system.workers.lookup id = some earlier := before
    simp only [OperationWorkers.step, bound, stepWorker] at inner
    have account := merging.account before earlierMerges
    simp only [Worker.isMerge] at earlierMerges
    split at earlierMerges
    next kind =>
      simp only [kind] at inner
      have merges : earlier.isMerge = true := by simp [Worker.isMerge, kind]
      refine mergeAccount_own merging.orderly before account ?_ ?_ inner
      · rintro rfl
        exact unreserved (by simp [System.reserves, before, merges])
      · rintro _ rfl
        exact unreserved (by simp [System.reserves, before, merges])
    · cases earlierMerges
  · intro id _ pending
    cases confirmed : state.system.confirms action with
    | none =>
      simp only [confirmed] at pending
      obtain ⟨earlier, listed⟩ := merging.deleting pending
      exact ⟨merging.merged_stays ran earlier, listed⟩
    | some target =>
      simp only [confirmed] at pending
      rw [KeyedMap.lookup_insert_ite] at pending
      split at pending
      next same =>
        subst target
        cases pending
        obtain ⟨outputPath, recorded⟩ := confirms_spec confirmed
        have last := merging.orderly.tracked.valid.inOrder.lastState_eq recorded
        exact ⟨merging.merged_stays ran ⟨outputPath, last⟩, List.Subset.refl _⟩
      · obtain ⟨earlier, listed⟩ := merging.deleting pending
        exact ⟨merging.merged_stays ran earlier, listed⟩
  · intro id part mem
    obtain ⟨earlier, listed⟩ := merging.removed mem
    exact ⟨merging.merged_stays ran earlier, listed⟩

variable {target : OperationId}

theorem detect (merging : Merging state) {parent baseName : Str} {format : MultiPartFormat}
    (taken : state.step (.detect target parent baseName format) = some next) : Merging next := by
  obtain ⟨⟨stands, -⟩, mapped⟩ := ite_none_right_eq_some.mp taken
  obtain ⟨_, ran, shape⟩ := map_eq_some_iff.mp mapped
  have stepped : state.owned.step (.signal target (.answered .proceed)) = some next.owned := by
    rw [← shape]
    exact ran
  obtain ⟨merger, _, standsAt, kind, standing⟩ := worker_of_mergeStands stands
  have account := merging.account standsAt (by simp [Worker.isMerge, kind])
  rw [standing] at account
  obtain ⟨unsettled, nothing, -⟩ := account
  have succeeded : next.succeeded = state.succeeded := by rw [← shape]
  have enumerated : next.enumerated = state.enumerated.insert target
      (findAllParts state.disk parent baseName format) := by
    rw [← shape]
  have otherParts {id : OperationId} (other : id ≠ target) :
      next.enumerated.lookup id = state.enumerated.lookup id := by
    rw [enumerated, KeyedMap.lookup_insert_ite, if_neg other]
  have merged {id : OperationId} (earlier : state.Merged id) : next.Merged id :=
    merging.merged_stays stepped earlier
  -- A merge that has removed something, or is about to, is past this point.
  have notMerged : ¬ state.Merged target := by
    rintro ⟨_, last⟩
    cases unsettled _ last rfl
  have sameParts {id : OperationId} (earlier : state.Merged id) :
      next.parts id = state.parts id := by
    have other : id ≠ target := by
      rintro rfl
      exact notMerged earlier
    rw [MergeState.parts, otherParts other]
    rfl
  have ofSignal {id : OperationId} (notSignal : ∀ signal,
      Action.signal target (.answered .proceed) ≠ .signal id signal) :
      id ≠ target := by
    rintro rfl
    exact notSignal _ rfl
  refine ⟨merging.orderly.step stepped, ?_, ?_, ?_, ?_, ?_⟩
  · intro id absent
    exact merging.unspawned_step stepped (by simp [succeeded])
      (fun notSignal => otherParts (ofSignal notSignal)) absent
  · intro id _ found merges
    refine merging.accounts stepped ?_ (by simp [succeeded])
      (fun notSignal => otherParts (ofSignal notSignal)) found merges
    intro id signal earlier signalled _ _
    obtain ⟨rfl, -⟩ := Action.signal.inj signalled
    obtain ⟨bound, still⟩ :=
      moved_of_signal stepped standsAt kind (by rw [standing]; rfl) unsettled
    refine ⟨_, bound, still, ?_⟩
    rw [succeeded]
    exact nothing
  · intro id _ pending
    rw [← shape] at pending
    obtain ⟨earlier, listed⟩ := merging.deleting pending
    rw [sameParts earlier]
    exact ⟨merged earlier, listed⟩
  · intro id part mem
    rw [← shape] at mem
    obtain ⟨earlier, listed⟩ := merging.removed mem
    rw [sameParts earlier]
    exact ⟨merged earlier, listed⟩
  · intro id part mem
    rw [← shape]
    by_cases own : id = target
    · subst target
      left
      have listed : part ∈ findAllParts state.disk parent baseName format := by
        simpa [MergeState.parts, enumerated] using mem
      exact findAllParts_subset format listed
    · apply merging.surviving
      rw [MergeState.parts, otherParts own] at mem
      exact mem

theorem attempt (merging : Merging state) {outputPath : String} {answers : MergeAnswers}
    (taken : state.step (.attempt target outputPath answers) = some next) : Merging next := by
  have keeps : (mergeAttempt (attemptOptions outputPath) answers).2 = [] :=
    mergeAttempt_removes_nothing rfl answers
  simp only [MergeState.step, ite_none_right_eq_some, keeps] at taken
  obtain ⟨stands, mapped⟩ := taken
  generalize attempted : (mergeAttempt (attemptOptions outputPath) answers).1 = outcome at mapped
  obtain ⟨_, ran, shape⟩ := map_eq_some_iff.mp mapped
  have stepped : state.owned.step (.signal target (.answered (.attempted outcome))) =
      some next.owned := by
    rw [← shape]
    exact ran
  obtain ⟨merger, _, standsAt, kind, standing⟩ := worker_of_mergeStands stands
  have account := merging.account standsAt (by simp [Worker.isMerge, kind])
  rw [standing] at account
  obtain ⟨unsettled, nothing⟩ := account
  have enumerated : next.enumerated = state.enumerated := by rw [← shape]
  have succeeded (id : OperationId) (written : String) : (id, written) ∈ next.succeeded ↔
      (id = target ∧ outcome = .merged written) ∨ (id, written) ∈ state.succeeded := by
    rw [← shape]
    cases outcome with
    | merged =>
      simp only [List.mem_cons, Prod.mk.injEq, MergeAttempt.merged.injEq]
      constructor <;> rintro (⟨rfl, rfl⟩ | earlier) <;> simp_all
    | passwordRequired | failed => simp
  have sameSuccess {id : OperationId} (notSignal : ∀ signal,
      Action.signal target (.answered (.attempted outcome)) ≠ .signal id signal)
      (written : String) :
      (id, written) ∈ next.succeeded ↔ (id, written) ∈ state.succeeded := by
    rw [succeeded]
    constructor
    · rintro (⟨rfl, -⟩ | earlier)
      · exact absurd rfl (notSignal _)
      · exact earlier
    · exact .inr
  refine ⟨merging.orderly.step stepped, ?_, ?_, ?_, ?_, ?_⟩
  · intro id absent
    exact merging.unspawned_step stepped sameSuccess (by simp [enumerated]) absent
  · intro id _ found merges
    refine merging.accounts stepped ?_ sameSuccess (by simp [enumerated]) found merges
    intro id signal earlier signalled _ _
    obtain ⟨rfl, -⟩ := Action.signal.inj signalled
    obtain ⟨bound, still⟩ :=
      moved_of_signal stepped standsAt kind (by rw [standing]; rfl) unsettled
    refine ⟨_, bound, still, fun written mem => ?_⟩
    rcases (succeeded target written).mp mem with ⟨-, same⟩ | earlier
    · exact same
    · exact absurd earlier (nothing written)
  · intro id _ pending
    subst shape
    obtain ⟨earlier, listed⟩ := merging.deleting pending
    exact ⟨merging.merged_stays stepped earlier, listed⟩
  · intro id part mem
    subst shape
    obtain ⟨earlier, listed⟩ := merging.removed mem
    exact ⟨merging.merged_stays stepped earlier, listed⟩
  · intro id part mem
    subst shape
    simpa using merging.surviving mem

theorem remove (merging : Merging state) {succeeds : Bool}
    (taken : state.step (.remove target succeeds) = some next) : Merging next := by
  simp only [MergeState.step] at taken
  split at taken
  next part rest pending =>
    obtain ⟨merged, listed⟩ := merging.deleting pending
    have dropped : ∀ {id parts}, (state.deleting.insert target rest).lookup id = some parts →
        state.Merged id ∧ parts ⊆ state.parts id := by
      intro id parts found
      rw [KeyedMap.lookup_insert_ite] at found
      split at found
      next own =>
        subst target
        cases found
        exact ⟨merged, List.Subset.trans (List.subset_cons_self part rest) listed⟩
      · exact merging.deleting found
    split at taken
    · cases taken
      refine { merging with deleting := dropped, removed := ?_, surviving := ?_ }
      · intro id other mem
        rcases List.mem_cons.mp mem with own | earlier
        · obtain ⟨rfl, rfl⟩ := Prod.mk.inj own
          exact ⟨merged, listed List.mem_cons_self⟩
        · exact merging.removed earlier
      · intro id other mem
        by_cases same : other = part
        · subst other
          exact .inr (.inr ⟨target, List.mem_cons_self⟩)
        · rcases merging.surviving mem with onDisk | vanished | ⟨by', gone⟩
          · exact .inl (List.mem_filter.mpr ⟨onDisk, by simpa using same⟩)
          · exact .inr (.inl vanished)
          · exact .inr (.inr ⟨by', List.mem_cons_of_mem _ gone⟩)
    · cases taken
      exact { merging with deleting := dropped }
  · cases taken

theorem step (merging : Merging state) {action : MergeAction}
    (taken : state.step action = some next) : Merging next := by
  cases action with
  | task action => exact merging.task taken
  | detect target => exact merging.detect taken
  | attempt target => exact merging.attempt taken
  | remove target => exact merging.remove taken
  | appear file =>
    cases taken
    refine { merging with surviving := ?_ }
    intro id part mem
    rcases merging.surviving mem with onDisk | gone
    · exact .inl (List.mem_cons_of_mem file onDisk)
    · exact .inr gone
  | vanish file =>
    cases taken
    refine { merging with surviving := ?_ }
    intro id part mem
    by_cases same : part = file
    · subst part
      exact .inr (.inl List.mem_cons_self)
    · rcases merging.surviving mem with onDisk | vanished | removed
      · exact .inl (List.mem_filter.mpr ⟨onDisk, by simpa using same⟩)
      · exact .inr (.inl (List.mem_cons_of_mem file vanished))
      · exact .inr (.inr removed)

theorem of_run {disk : List FilePath} {actions : List MergeAction} (ran :
    run MergeState.step (MergeState.initial disk) actions = some next) : Merging next :=
  run_preserves Merging (fun merging => merging.step) (initially disk) ran

end

/-- The merge is published as completed with this output, or as cancelled. -/
def Settled (state : MergeState) (id : OperationId) (written : String) : Prop :=
  state.registry.lastState id = some (.completed (.merged written)) ∨
    state.registry.lastState id = some .cancelled

theorem settled_of_over (merging : Merging state) {worker : Worker} {deleteOriginals : Bool}
    (found : state.system.workers.lookup id = some worker)
    (kind : worker.kind = .merge deleteOriginals)
    (isOver : worker.phase = .returned ∨ worker.phase = .confirming) {written : String}
    (mem : (id, written) ∈ state.succeeded) : Settled state id written := by
  have account := merging.account found (by simp [isMerge, kind])
  rcases isOver with standing | standing <;> rw [standing] at account <;>
    exact account written mem

section

variable [CharTables] {worker : Worker} {deleteOriginals : Bool}

theorem exists_go {system : System} (found : state.system.workers.lookup id = some worker)
    (kind : worker.kind = .merge deleteOriginals)
    (stepped : runMerge state.system id worker deleteOriginals worker.phase .go = some system) :
    ∃ next, state.step (.task (.signal id .go)) = some next ∧
      next.system = system ∧ next.succeeded = state.succeeded := by
  have bound : state.owned.system.workers.lookup id = some worker := found
  have ran : runMerge state.owned.system id worker deleteOriginals worker.phase .go = some system :=
    stepped
  refine ⟨{ state with
    owned := ⟨system, state.owned.foreign⟩
    deleting :=
      match state.system.confirms (.signal id .go) with
      | some target => state.deleting.insert target (state.parts target)
      | none => state.deleting }, ?_, rfl, rfl⟩
  simp [MergeState.step, Owned.step, OperationWorkers.step, bound, stepWorker,
    kind, ran, System.reserves]

def Settles (state : MergeState) (id : OperationId) (written : String) (bound : Nat) : Prop :=
  ∃ count ≤ bound, ∃ later, run MergeState.step state
    (List.replicate count (.task (.signal id .go))) = some later ∧ Settled later id written

variable {written : String}

theorem Settles.of_step {next : MergeState} {bound : Nat}
    (taken : state.step (.task (.signal id .go)) = some next)
    (settles : Settles next id written bound) : Settles state id written (bound + 1) := by
  obtain ⟨count, within, later, ran, settled⟩ := settles
  refine ⟨count + 1, Nat.succ_le_succ within, later, ?_, settled⟩
  rw [List.replicate_succ]
  exact run_cons_eq_some.mpr ⟨next, taken, ran⟩

variable {outputPath : String}

section

variable (merging : Merging state) (found : state.system.workers.lookup id = some worker)
  (kind : worker.kind = .merge deleteOriginals)
include merging found kind

theorem settles_announcing (standing : worker.phase = .announcing outputPath)
    (mem : (id, written) ∈ state.succeeded) : Settles state id written 1 := by
  have reached : ∃ system after, runMerge state.system id worker deleteOriginals worker.phase .go =
      some system ∧ system.workers.lookup id = some after ∧ after.kind = worker.kind ∧
        (after.phase = .returned ∨ after.phase = .confirming) := by
    have moved (system : System) (phase : Phase) : (system.move id worker phase).workers.lookup id =
        some { worker with phase := phase } := by
      simp [System.move, System.update]
    simp only [standing, runMerge]
    split
    · exact ⟨_, _, rfl, moved _ _, rfl, .inl rfl⟩
    · split
      · exact ⟨_, _, rfl, moved _ _, rfl, .inr rfl⟩
      · exact ⟨_, _, rfl, moved _ _, rfl, .inl rfl⟩
  obtain ⟨system, after, stepped, bound, sameKind, isOver⟩ := reached
  obtain ⟨next, taken, rfl, succeeded⟩ := exists_go found kind stepped
  refine ⟨1, Nat.le_refl 1, next, run_cons_eq_some.mpr ⟨next, taken, rfl⟩, ?_⟩
  rw [← succeeded] at mem
  exact (merging.step taken).settled_of_over bound (sameKind.trans kind) isOver mem

theorem settles_merged (standing : worker.phase = .merged outputPath)
    (mem : (id, written) ∈ state.succeeded) : Settles state id written 2 := by
  have reached : ∃ system, runMerge state.system id worker deleteOriginals worker.phase .go =
      some system ∧
        system.workers.lookup id = some { worker with phase := .announcing outputPath } := by
    simp only [standing, runMerge]
    refine ⟨_, rfl, ?_⟩
    simp [System.move, System.update]
  obtain ⟨system, stepped, bound⟩ := reached
  obtain ⟨_, taken, rfl, succeeded⟩ := exists_go found kind stepped
  rw [← succeeded] at mem
  exact Settles.of_step taken ((merging.step taken).settles_announcing bound kind rfl mem)

theorem settles_soon (mem : (id, written) ∈ state.succeeded) :
    Settles state id written 3 := by
  have account := merging.account found (by simp [isMerge, kind])
  have sooner {bound : Nat} (within : bound ≤ 3) (settles : Settles state id written bound) :
      Settles state id written 3 := by
    obtain ⟨count, small, rest⟩ := settles
    exact ⟨count, small.trans within, rest⟩
  have ended (isOver : worker.phase = .returned ∨ worker.phase = .confirming) :
      Settles state id written 3 :=
    ⟨0, Nat.zero_le 3, state, rfl, merging.settled_of_over found kind isOver mem⟩
  cases standing : worker.phase with
  | decided =>
    rw [standing] at account
    obtain rfl := account.2 written mem
    have stepped : runMerge state.system id worker deleteOriginals worker.phase .go =
        some (state.system.move id worker (.merged written)) := by
      rw [standing]
      rfl
    have bound : (state.system.move id worker (.merged written)).workers.lookup id =
        some { worker with phase := .merged written } := by
      simp [System.move, System.update]
    obtain ⟨_, taken, moved, succeeded⟩ := exists_go found kind stepped
    rw [← moved] at bound
    rw [← succeeded] at mem
    exact Settles.of_step taken ((merging.step taken).settles_merged bound kind rfl mem)
  | merged outputPath => exact sooner (by omega) (merging.settles_merged found kind standing mem)
  | announcing outputPath =>
    exact sooner (by omega) (merging.settles_announcing found kind standing mem)
  | confirming => exact ended (.inr standing)
  | returned => exact ended (.inl standing)
  | spawned | preparing =>
    rw [standing] at account
    exact absurd mem (account.2.1 written)
  | _ =>
    rw [standing] at account
    exact absurd mem (account.2 written)

end

end

end Merging

/-- Parts are removed only by the merge that enumerated them, once it is published; and a
merge that succeeded is, unless cancelled. -/
theorem merge_keeps_parts_until_published [CharTables] {disk : List FilePath}
    {actions : List MergeAction} {final : MergeState}
    (ran : run MergeState.step (MergeState.initial disk) actions = some final) :
    (∀ id part, (id, part) ∈ final.removed → (∃ outputPath, final.registry.lastState id =
      some (.completed (.merged outputPath))) ∧ part ∈ final.parts id) ∧
      (∀ id last, final.registry.lastState id = some last →
        (last = .cancelled ∨ ∃ error, last = .failed error) →
        ∀ part ∈ final.parts id, part ∈ final.disk ∨ part ∈ final.vanished ∨
          ∃ other, other ≠ id ∧ (other, part) ∈ final.removed) ∧
      ∀ id worker deleteOriginals written, final.system.workers.lookup id = some worker →
        worker.kind = .merge deleteOriginals → (id, written) ∈ final.succeeded →
        (worker.phase = .returned → final.registry.lastState id =
          some (.completed (.merged written)) ∨ final.registry.lastState id = some .cancelled) ∧
          ∃ count ≤ 3, ∃ later, run MergeState.step final
            (List.replicate count (.task (.signal id .go))) =
              some later ∧ (later.registry.lastState id = some (.completed (.merged written)) ∨
                later.registry.lastState id = some .cancelled) := by
  have merging := Merging.of_run ran
  refine ⟨?_, ?_, ?_⟩
  · intro id part mem
    exact merging.removed mem
  · intro id last isLast ended part mem
    rcases merging.surviving mem with onDisk | vanished | ⟨other, removed⟩
    · exact .inl onDisk
    · exact .inr (.inl vanished)
    · refine .inr (.inr ⟨other, ?_, removed⟩)
      intro _
      subst other
      obtain ⟨⟨outputPath, merged⟩, -⟩ := merging.removed removed
      rw [isLast] at merged
      cases merged
      rcases ended with isCancelled | ⟨error, isFailed⟩
      · cases isCancelled
      · cases isFailed
  · intro id worker deleteOriginals written found kind mem
    refine ⟨?_, merging.settles_soon found kind mem⟩
    intro returned
    exact merging.settled_of_over found kind (.inl returned) mem

def samplePart (number : String) : FilePath := ⟨"/mods".toList, ("pack.7z." ++ number).toList⟩

/-- Core merges them and would be able to remove them. -/
def sampleAnswers : MergeAnswers where
  validate := .ok [samplePart "001", samplePart "002"]
  cancelledAfterValidation := false
  outputExists := false
  createTempDir := .ok ()
  selectBackend := .ok ()
  extractAll := .ok ()
  cancelledAfterExtraction := false
  noFilesExtracted := false
  detectSevenZip := .ok ()
  createArchive := .ok ()
  cancelledAfterCompression := false
  removable := [samplePart "001", samplePart "002"]

/-- A merge that is to delete its parts succeeds, and one of them cannot be removed. -/
def mergeAndDelete : List MergeAction :=
  [.task (.call (.mint .merge)), .task (.call (.insert 1)),
    .task (.spawn 1 (.merge true) "pack.7z.001"), .task (.signal 1 .go),
    .detect 1 "/mods".toList "pack".toList .sevenZip, .task (.signal 1 .go), .task (.signal 1 .go),
    .attempt 1 "/mods/pack.zip" sampleAnswers, .task (.signal 1 .go), .task (.signal 1 .go),
    .task (.signal 1 .go), .task (.signal 1 .go), .remove 1 true, .remove 1 false]

def sampleMergeRun : Option MergeState :=
  run (@MergeState.step asciiTables)
    (MergeState.initial [samplePart "002", samplePart "001"]) mergeAndDelete

/-- One part is removed, after the completion was published. -/
theorem merge_keeps_parts_until_published_sample : ∃ final,
    sampleMergeRun = some final ∧ final.removed = [(1, samplePart "001")] ∧
      final.disk = [samplePart "002"] ∧
      ∃ outputPath, final.registry.lastState 1 = some (.completed (.merged outputPath)) := by
  have evaluated : sampleMergeRun.map (fun final => (final.removed, final.disk)) =
      some ([(1, samplePart "001")], [samplePart "002"]) := by
    decide +kernel
  obtain ⟨final, ran, seen⟩ := map_eq_some_iff.mp evaluated
  obtain ⟨removed, disk⟩ := Prod.mk.inj seen
  have kept := @merge_keeps_parts_until_published asciiTables _ _ _ ran
  exact ⟨final, ran, removed, disk, (kept.1 1 (samplePart "001") (by simp [removed])).1⟩

end Arclain.OperationWorkers
