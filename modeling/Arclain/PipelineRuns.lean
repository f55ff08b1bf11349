import Arclain.PipelineHash

namespace Arclain.Pipelines

/-!
# The record of pipeline runs

The `pipeline_runs` table, the gate every run passes before it does any work, and the system
of runs that read and write the table.  A run begins with its gate and a row in progress;
later it marks its row, or the process dies under it.
-/

open List Option OsPath

/-! ## The table -/

/-- `pipeline_runs.status`. -/
inductive RunStatus where
  | inProgress
  | completed
  | failed
  deriving DecidableEq

/-- A row of `pipeline_runs`. -/
structure DbPipelineRun (Hash : Type) where
  id : Nat
  inputPath : Str
  inputBlake3 : Hash
  inputSize : Nat
  pipelineHash : Hash
  outputPath : Option Str
  outputKind : Option Str
  status : RunStatus
  startedAt : Int
  completedAt : Option Int
  error : Option Str
  arclainVersion : Str

structure NewPipelineRun (Hash : Type) where
  inputPath : Str
  inputBlake3 : Hash
  inputSize : Nat
  pipelineHash : Hash
  arclainVersion : Str

def OutputArtifact.outputKind : OutputArtifact → Str
  | .archive => "archive".toList
  | .folder => "folder".toList

def interruptedMarker : Str := "interrupted".toList

section

variable {Hash : Type} [DecidableEq Hash]

section

variable (rows : List (DbPipelineRun Hash))

def nextId : Nat := (rows.map DbPipelineRun.id).foldr max 0 + 1

def startedRow (fresh : NewPipelineRun Hash)
    (now : Int) : DbPipelineRun Hash where
  id := nextId rows
  inputPath := fresh.inputPath
  inputBlake3 := fresh.inputBlake3
  inputSize := fresh.inputSize
  pipelineHash := fresh.pipelineHash
  outputPath := none
  outputKind := none
  status := .inProgress
  startedAt := now
  completedAt := none
  error := none
  arclainVersion := fresh.arclainVersion

/-- `begin_pipeline_run`: the id of the new row, and the table. -/
def beginPipelineRun (fresh : NewPipelineRun Hash)
    (now : Int) : Nat × List (DbPipelineRun Hash) :=
  (nextId rows, rows ++ [startedRow rows fresh now])

def updateRun (id : Nat)
    (change : DbPipelineRun Hash → DbPipelineRun Hash) : List (DbPipelineRun Hash) :=
  rows.map fun row => if row.id = id then change row else row

def markRunCompleted (id : Nat) (outputPath outputKind : Str)
    (now : Int) : List (DbPipelineRun Hash) :=
  updateRun rows id fun row =>
    { row with
      status := .completed
      outputPath := some outputPath
      outputKind := some outputKind
      completedAt := some now
      error := none }

def markRunFailed (id : Nat) (error : Str)
    (now : Int) : List (DbPipelineRun Hash) :=
  updateRun rows id fun row =>
    { row with
      status := .failed
      completedAt := some now
      error := some error }

def flagStaleInProgress (staleThresholdSecs now : Int) : List (DbPipelineRun Hash) :=
  rows.map fun row =>
    if row.status = .inProgress ∧ row.startedAt < now - staleThresholdSecs then
      { row with
        status := .failed
        completedAt := some now
        error := some interruptedMarker }
    else row

end

/-- The order `ORDER BY completed_at DESC` reads the column in. -/
def completedBefore (first second : DbPipelineRun Hash) : Bool :=
  match first.completedAt, second.completedAt with
  | none, _ => true
  | some _, none => false
  | some earlier, some later => earlier ≤ later

/-- `find_completed_run`. The query leaves open which of the latest rows it returns: `tie`
picks one. -/
def findCompletedRun (rows : List (DbPipelineRun Hash)) (inputBlake3 pipelineHash : Hash)
    (tie : Nat) : Option (DbPipelineRun Hash) :=
  let completed := rows.filter fun row =>
    row.inputBlake3 = inputBlake3 && row.pipelineHash = pipelineHash && row.status = .completed
  let latest := completed.filter fun row => completed.all fun other => completedBefore other row
  latest[tie % latest.length]?

theorem mem_of_findCompletedRun {rows : List (DbPipelineRun Hash)} {inputBlake3 pipelineHash : Hash}
    {tie : Nat} {row : DbPipelineRun Hash}
    (found : findCompletedRun rows inputBlake3 pipelineHash tie = some row) :
    row ∈ rows ∧ row.inputBlake3 = inputBlake3 ∧
      row.pipelineHash = pipelineHash ∧ row.status = .completed := by
  have latest := mem_of_mem_filter (mem_of_getElem? found)
  obtain ⟨listed, matching⟩ := mem_filter.mp latest
  simp only [Bool.and_eq_true, decide_eq_true_eq] at matching
  exact ⟨listed, matching.1.1, matching.1.2, matching.2⟩

end

/-! ## The gate of a run -/

inductive Gate where
  | alreadyProcessed (output : OsString)
  | outputExists (output : OsString)
  | refused (error : Str)
  | run (replaceExisting : Bool)
  deriving DecidableEq

def existsError (path : OsString) (policy : OutputCollisionPolicy) : Str :=
  "Output already exists at ".toList ++ toStringLossy path ++
    " (collision policy: ".toList ++ policy.displayName ++
    ("). Arclain has no record of producing it — set policy to " ++
      "Overwrite or Skip to proceed.").toList

section

variable {Hash : Type} (policy : OutputCollisionPolicy) (completed : Option (DbPipelineRun Hash))
  (storedExists : Str → Bool)

/-- The output of a recorded run that `Smart` returns instead of running. -/
def smartSkip : Option OsString :=
  if policy = .smart then ((completed.bind DbPipelineRun.outputPath).filter storedExists).map ofStr
  else none

/-- The gate: `Smart` asks the record, then the policy decides about an output
that exists. -/
def collisionGate (predicted : OsString)
    (pathExists : Bool) : Gate :=
  match smartSkip policy completed storedExists with
  | some output => .alreadyProcessed output
  | none =>
    if pathExists then
      match policy with
      | .skip => .outputExists predicted
      | .overwrite => .run true
      | .fail | .smart => .refused (existsError predicted policy)
    else .run (policy = .overwrite)

end

/-! ## The system of runs -/

structure PipelineContext where
  configDb : Bool
  defaultCollisionPolicy : Option OutputCollisionPolicy

/-- One input as it is found when the run starts: its contents and metadata, and what the
file system and the database answer. -/
structure RunRequest (Bytes : Type) where
  pipeline : Pipeline
  input : OsString
  contents : Bytes
  inputSize : Nat
  metadata : Option GameMetadata
  context : PipelineContext
  pathExists : OsString → Bool
  lookupFails : Bool
  tie : Nat
  beginFails : Bool
  now : Int

/-- What a run knows once it has passed its gate. -/
structure LiveRun (Bytes : Type) where
  rowId : Option Nat
  pipeline : Pipeline
  input : OsString
  contents : Bytes
  metadata : Option GameMetadata
  output : OsString

/-- The table, the runs that have not ended, and those that completed. No run reads the last
list. -/
structure System (Bytes Hash : Type) where
  rows : List (DbPipelineRun Hash)
  live : List (LiveRun Bytes)
  history : List (LiveRun Bytes)

inductive RunResult where
  | completed (kind : OutputArtifact)
  | failed (error : Str)

inductive Action (Bytes : Type) where
  | start (request : RunRequest Bytes)
  | finish (index : Nat) (result : RunResult) (markFails : Bool) (now : Int)
  | die (index : Nat)
  | flagStale (staleThresholdSecs now : Int)

section

variable {Bytes Hash : Type} [DecidableEq Hash]
variable (naming : Naming) (libraries : HashLibraries Bytes Hash) (version : Str)

def lookup (rows : List (DbPipelineRun Hash))
    (request : RunRequest Bytes) : Option (DbPipelineRun Hash) :=
  if ¬ request.context.configDb ∨ request.lookupFails then none
  else
    findCompletedRun rows (libraries.blake3 request.contents)
      (request.pipeline.configHash libraries) request.tie

def gate (rows : List (DbPipelineRun Hash))
    (request : RunRequest Bytes) : Except PlanError (OsString × Gate) := do
  let predicted ← request.pipeline.predictedOutputPath naming request.input request.metadata
  let policy := request.pipeline.effectiveCollisionPolicy
    (request.context.defaultCollisionPolicy.getD .smart)
  .ok (predicted, collisionGate policy (lookup libraries rows request)
    (fun stored => request.pathExists (ofStr stored)) predicted
    (request.pathExists predicted))

def newRun (request : RunRequest Bytes) : NewPipelineRun Hash where
  inputPath := toStringLossy request.input
  inputBlake3 := libraries.blake3 request.contents
  inputSize := request.inputSize
  pipelineHash := request.pipeline.configHash libraries
  arclainVersion := version

def recordStart (rows : List (DbPipelineRun Hash))
    (request : RunRequest Bytes) : Option Nat × List (DbPipelineRun Hash) :=
  if ¬ request.context.configDb ∨ request.beginFails then (none, rows)
  else
    let begun := beginPipelineRun rows (newRun libraries version request) request.now
    (some begun.1, begun.2)

/-- Start a run: nothing happens unless its gate lets it run. -/
def start (system : System Bytes Hash) (request : RunRequest Bytes) : System Bytes Hash :=
  match gate naming libraries system.rows request with
  | .ok (predicted, .run _) =>
    let recorded := recordStart libraries version system.rows request
    { system with
      rows := recorded.2
      live := system.live ++
        [{ rowId := recorded.1
           pipeline := request.pipeline
           input := request.input
           contents := request.contents
           metadata := request.metadata
           output := predicted }] }
  | _ => system

def recordFinish (rows : List (DbPipelineRun Hash)) (run : LiveRun Bytes) (result : RunResult)
    (markFails : Bool) (now : Int) : List (DbPipelineRun Hash) :=
  match run.rowId with
  | none => rows
  | some id =>
    if markFails then rows
    else
      match result with
      | .completed kind => markRunCompleted rows id (toStringLossy run.output) kind.outputKind now
      | .failed error => markRunFailed rows id error now

def extendHistory (history : List (LiveRun Bytes))
    (run : LiveRun Bytes) : RunResult → List (LiveRun Bytes)
  | .completed _ => history ++ [run]
  | .failed _ => history

def step (system : System Bytes Hash) : Action Bytes → System Bytes Hash
  | .start request => start naming libraries version system request
  | .finish index result markFails now =>
    match system.live[index]? with
    | none => system
    | some run =>
      { rows := recordFinish system.rows run result markFails now
        live := system.live.eraseIdx index
        history := extendHistory system.history run result }
  | .die index => { system with live := system.live.eraseIdx index }
  | .flagStale staleThresholdSecs now =>
    { system with
      rows := flagStaleInProgress system.rows staleThresholdSecs now }

def initial : System Bytes Hash where
  rows := []
  live := []
  history := []

def run (actions : List (Action Bytes)) : System Bytes Hash :=
  actions.foldl (step naming libraries version) initial

end

/-! ## What the table records -/

section

variable {Bytes Hash : Type} (naming : Naming) (libraries : HashLibraries Bytes Hash)
variable (version : Str)

def DbPipelineRun.key (row : DbPipelineRun Hash) : Nat × Hash × Hash :=
  (row.id, row.inputBlake3, row.pipelineHash)

def LiveRun.key (run : LiveRun Bytes) (id : Nat) : Nat × Hash × Hash :=
  (id, libraries.blake3 run.contents, run.pipeline.configHash libraries)

structure Records (row : DbPipelineRun Hash) (run : LiveRun Bytes) : Prop where
  inputBlake3 : row.inputBlake3 = libraries.blake3 run.contents
  pipelineHash : row.pipelineHash = run.pipeline.configHash libraries
  outputPath : row.outputPath = some (toStringLossy run.output)

/-- A run writes where its pipeline plans, a run in progress has its row, and a completed
row records a completed run. -/
structure Sound (system : System Bytes Hash) : Prop where
  ids : (system.rows.map DbPipelineRun.id).Nodup
  planned : ∀ run ∈ system.live ++ system.history,
    run.pipeline.predictedOutputPath naming run.input run.metadata = .ok run.output
  begun : ∀ run ∈ system.live, ∀ id, run.rowId = some id →
    run.key libraries id ∈ system.rows.map DbPipelineRun.key
  recorded : ∀ row ∈ system.rows, row.status = .completed →
    ∃ run ∈ system.history, Records libraries row run

variable {rows : List (DbPipelineRun Hash)} {row : DbPipelineRun Hash}

theorem id_lt_nextId (mem : row ∈ rows) : row.id < nextId rows := by
  have below : row.id ≤ (rows.map DbPipelineRun.id).foldr max 0 := by
    induction rows with
    | nil => simp at mem
    | cons _ _ ih =>
      rw [map_cons, foldr_cons]
      cases mem_cons.mp mem with
      | inl same => exact same ▸ le_max_left _ _
      | inr later => exact (ih later).trans (le_max_right _ _)
  exact Nat.lt_succ_of_le below

theorem map_key_of_preserved {change : DbPipelineRun Hash → DbPipelineRun Hash}
    (preserved : ∀ row, (change row).key = row.key) :
    (rows.map change).map DbPipelineRun.key = rows.map DbPipelineRun.key := by
  rw [List.map_map]
  exact map_congr_left fun row _ => preserved row

theorem map_id_eq (rows : List (DbPipelineRun Hash)) :
    rows.map DbPipelineRun.id = (rows.map DbPipelineRun.key).map Prod.fst := by
  rw [List.map_map]
  rfl

theorem key_eq_of_id (ids : (rows.map DbPipelineRun.id).Nodup)
    (mem : row ∈ rows) {key : Nat × Hash × Hash}
    (known : key ∈ rows.map DbPipelineRun.key) (same : row.id = key.1) : row.key = key := by
  obtain ⟨other, listed, rfl⟩ := mem_map.mp known
  have equal : row = other := inj_on_of_nodup_map ids mem listed same
  rw [equal]

namespace Sound

variable {naming libraries version} {system : System Bytes Hash}

section

variable (sound : Sound naming libraries system)
include sound

theorem of_preserved {change : DbPipelineRun Hash → DbPipelineRun Hash}
    (preserved : ∀ row, (change row).key = row.key)
    (kept : ∀ row ∈ system.rows, (change row).status = .completed → change row = row) :
    Sound naming libraries { system with rows := system.rows.map change } where
  __ := sound
  ids := by
    simp only [map_id_eq, map_key_of_preserved preserved]
    rw [← map_id_eq]
    exact sound.ids
  begun := by
    intro run mem id held
    simp only [map_key_of_preserved preserved]
    exact sound.begun run mem id held
  recorded := by
    intro row mem completed
    obtain ⟨before, listed, rfl⟩ := mem_map.mp mem
    have unchanged := kept before listed completed
    rw [unchanged] at completed ⊢
    exact sound.recorded before listed completed

theorem of_erased (index : Nat) : Sound naming libraries
    { system with live := system.live.eraseIdx index } where
  __ := sound
  planned := by
    intro run mem
    refine sound.planned run ?_
    cases mem_append.mp mem with
    | inl live => exact mem_append_left _ (mem_of_mem_eraseIdx live)
    | inr past => exact mem_append_right _ past
  begun := fun run mem => sound.begun run (mem_of_mem_eraseIdx mem)

theorem withRow (fresh : NewPipelineRun Hash) (now : Int) :
    Sound naming libraries { system with rows := (beginPipelineRun system.rows fresh now).2 } where
  __ := sound
  ids := by
    simp only [beginPipelineRun, map_append, map_cons, map_nil]
    refine nodup_append.mpr ⟨sound.ids, nodup_singleton _, ?_⟩
    intro old listed _ single
    obtain ⟨row, mem, rfl⟩ := mem_map.mp listed
    rw [mem_singleton] at single
    rw [single]
    exact Nat.ne_of_lt (id_lt_nextId mem)
  begun := by
    intro run mem id held
    simp only [beginPipelineRun, map_append]
    exact mem_append_left _ (sound.begun run mem id held)
  recorded := by
    intro row mem completed
    simp only [beginPipelineRun] at mem
    rw [mem_append, mem_singleton] at mem
    cases mem with
    | inl old => exact sound.recorded row old completed
    | inr fresh => simp [fresh, startedRow] at completed

end

variable {run : LiveRun Bytes}

theorem joined (sound : Sound naming libraries system)
    (planned : run.pipeline.predictedOutputPath naming run.input run.metadata = .ok run.output)
    (begun : ∀ id, run.rowId = some id → run.key libraries id ∈ system.rows.map DbPipelineRun.key) :
    Sound naming libraries { system with live := system.live ++ [run] } where
  __ := sound
  planned := by
    intro other mem
    simp only [append_assoc, mem_append, mem_singleton] at mem
    rcases mem with live | rfl | past
    · exact sound.planned other (mem_append_left _ live)
    · exact planned
    · exact sound.planned other (mem_append_right _ past)
  begun := by
    intro other mem id held
    simp only [mem_append, mem_singleton] at mem
    rcases mem with live | rfl
    · exact sound.begun other live id held
    · exact begun id held

theorem start [DecidableEq Hash] (sound : Sound naming libraries system)
    (request : RunRequest Bytes) :
    Sound naming libraries (start naming libraries version system request) := by
  unfold Pipelines.start
  split
  next predicted replaceExisting passed =>
    obtain ⟨path, planned, gated⟩ := Fallible.bind_eq_ok.mp passed
    obtain rfl : path = predicted := congrArg Prod.fst (Except.ok.inj gated)
    by_cases unrecorded : ¬ request.context.configDb ∨ request.beginFails
    · simp only [recordStart, if_pos unrecorded]
      exact sound.joined planned (by simp)
    · simp only [recordStart, if_neg unrecorded]
      refine (sound.withRow (newRun libraries version request) request.now).joined planned ?_
      intro id held
      have same : nextId system.rows = id := some.inj held
      simp [beginPipelineRun, LiveRun.key, DbPipelineRun.key, startedRow, newRun, same]
  · exact sound

theorem finish (sound : Sound naming libraries system) {index : Nat}
    (running : system.live[index]? = some run) (result : RunResult) (markFails : Bool) (now : Int) :
    Sound naming libraries
      { rows := recordFinish system.rows run result markFails now
        live := system.live
        history := extendHistory system.history run result } := by
  have mem := mem_of_getElem? running
  have grown : ∀ past ∈ system.history, past ∈ extendHistory system.history run result := by
    intro past listed
    cases result with
    | completed kind => exact mem_append_left _ listed
    | failed error => exact listed
  have planned : ∀ other ∈ system.live ++ extendHistory system.history run result,
      other.pipeline.predictedOutputPath naming other.input other.metadata = .ok other.output := by
    intro other listed
    cases result with
    | completed kind =>
      simp only [extendHistory, mem_append, mem_singleton] at listed
      rcases listed with live | past | rfl
      · exact sound.planned other (mem_append_left _ live)
      · exact sound.planned other (mem_append_right _ past)
      · exact sound.planned other (mem_append_left _ mem)
    | failed error => exact sound.planned other listed
  have untouched : Sound naming libraries
      { rows := system.rows
        live := system.live
        history := extendHistory system.history run result } := {
    ids := sound.ids
    planned := planned
    begun := sound.begun
    recorded := by
      intro row listed completed
      obtain ⟨past, recorded, records⟩ := sound.recorded row listed completed
      exact ⟨past, grown past recorded, records⟩ }
  unfold recordFinish
  split
  · exact untouched
  next id held =>
    split
    · exact untouched
    · cases result with
      | failed error =>
        refine untouched.of_preserved ?_ ?_
        · intro row
          split <;> rfl
        · intro row _ completed
          split at completed
          · simp at completed
          next other => rw [if_neg other]
      | completed kind =>
        have preserved (row : DbPipelineRun Hash) : (if row.id = id then
            { row with
              status := .completed
              outputPath := some (toStringLossy run.output)
              outputKind := some kind.outputKind
              completedAt := some now
              error := none }
            else row).key = row.key := by
          split <;> rfl
        exact {
          ids := by
            simp only [markRunCompleted, updateRun, map_id_eq, map_key_of_preserved preserved]
            rw [← map_id_eq]
            exact sound.ids
          planned := planned
          begun := by
            intro other listed otherId otherHeld
            simp only [markRunCompleted, updateRun, map_key_of_preserved preserved]
            exact sound.begun other listed otherId otherHeld
          recorded := by
            intro row listed completed
            obtain ⟨before, old, rfl⟩ := mem_map.mp listed
            by_cases own : before.id = id
            · have key := key_eq_of_id sound.ids old (sound.begun run mem id held) own
              refine ⟨run, mem_append_right _ (by simp), ?_⟩
              simp only [own, ↓reduceIte]
              exact {
                inputBlake3 := congrArg (fun key => key.2.1) key
                pipelineHash := congrArg (fun key => key.2.2) key
                outputPath := rfl }
            · simp only [own, ↓reduceIte] at completed ⊢
              obtain ⟨past, recorded, records⟩ := sound.recorded before old completed
              exact ⟨past, grown past recorded, records⟩ }

theorem step [DecidableEq Hash] (sound : Sound naming libraries system) (action : Action Bytes) :
    Sound naming libraries (step naming libraries version system action) := by
  cases action with
  | start request => exact sound.start request
  | finish index result markFails now =>
    cases running : system.live[index]? with
    | none =>
      simp only [Pipelines.step, running]
      exact sound
    | some =>
      simp only [Pipelines.step, running]
      exact (sound.finish running result markFails now).of_erased index
  | die index => exact sound.of_erased index
  | flagStale _ now =>
    refine sound.of_preserved ?_ ?_
    · intro row
      split <;> rfl
    · intro row _ completed
      split at completed
      · simp at completed
      next fresh => rw [if_neg fresh]

end Sound

theorem sound_of_run [DecidableEq Hash] (actions : List (Action Bytes)) :
    Sound naming libraries (run naming libraries version actions) := by
  induction actions using List.reverseRecOn with
  | nil =>
    exact {
      ids := nodup_nil
      planned := by simp [run, initial]
      begun := by simp [run, initial]
      recorded := by simp [run, initial] }
  | append_singleton _ last ih =>
    rw [run, foldl_append]
    exact ih.step last

/-! ## What a skip returns -/

/-- A pipeline would have made an output from what a recorded run was given, of
the same kind and by the same steps. -/
structure WouldProduce (naming : Naming) (pipeline : Pipeline) (recorded : LiveRun Bytes)
    (output : OsString) : Prop where
  outputPath : ∃ path, pipeline.predictedOutputPath naming recorded.input recorded.metadata =
    .ok path ∧ samePath path output = true
  outputArtifact : pipeline.outputArtifact = recorded.pipeline.outputArtifact
  steps : pipeline.steps = recorded.pipeline.steps

variable {pipeline : Pipeline}

theorem output_isUtf8_of_predicted {input path : OsString} {metadata : Option GameMetadata}
    (planned : pipeline.predictedOutputPath naming input metadata = .ok path)
    (clean : isUtf8 path = true) : pipeline.output.isUtf8 = true := by
  rw [predictedOutputPath_eq] at planned
  obtain ⟨_, named, rfl⟩ := Fallible.map_eq_ok.mp planned
  cases placed : pipeline.output with
  | sameFolder => rfl
  | newFolder =>
    rw [placed] at clean
    exact (isUtf8_of_push (relative_outputName pipeline (relative_of_stemFrom named)) clean).1

theorem predictedOutputPath_congr {first second : Pipeline}
    (hashables : first.hashable = second.hashable)
    (artifacts : first.outputArtifact = second.outputArtifact) (input : OsString)
    (metadata : Option GameMetadata) : first.predictedOutputPath naming input metadata =
      second.predictedOutputPath naming input metadata := by
  have steps : first.steps = second.steps := congrArg Hashable.steps hashables
  have outputs : first.output = second.output := congrArg Hashable.output hashables
  simp only [Pipeline.predictedOutputPath, Pipeline.outputPath, artifacts, steps, outputs]

theorem wouldProduce_iff (lawful : libraries.Lawful) {recorded : LiveRun Bytes}
    (planned : recorded.pipeline.predictedOutputPath naming recorded.input
      recorded.metadata = .ok recorded.output)
    (same : recorded.pipeline.configHash libraries = pipeline.configHash libraries) :
    WouldProduce naming pipeline recorded (ofStr (toStringLossy recorded.output)) ↔
      pipeline.outputArtifact = recorded.pipeline.outputArtifact ∧
        isUtf8 recorded.output = true := by
  constructor
  · rintro ⟨⟨path, produced, samePlace⟩, artifacts, steps⟩
    refine ⟨artifacts, ?_⟩
    have clean : isUtf8 path = true := (isUtf8_of_samePath samePlace).trans (isUtf8_ofStr _)
    have encoded := output_isUtf8_of_predicted naming produced clean
    have hashables := hashable_eq_of_configHash lawful encoded same.symm
    have paths := predictedOutputPath_congr naming hashables artifacts
      recorded.input recorded.metadata
    rw [produced, planned] at paths
    exact Except.ok.inj paths ▸ clean
  · rintro ⟨artifacts, clean⟩
    have encoded := output_isUtf8_of_predicted naming planned clean
    have hashables := (hashable_eq_of_configHash lawful encoded same).symm
    have paths := predictedOutputPath_congr naming hashables artifacts
      recorded.input recorded.metadata
    exact {
      outputPath := by
        refine ⟨recorded.output, paths.trans planned, ?_⟩
        rw [ofStr_toStringLossy_iff.mpr clean]
        simp [samePath]
      outputArtifact := artifacts
      steps := congrArg Hashable.steps hashables }

theorem recorded_of_alreadyProcessed [DecidableEq Hash] (lawful : libraries.Lawful)
    {system : System Bytes Hash} (sound : Sound naming libraries system)
    {request : RunRequest Bytes} {predicted output : OsString}
    (skipped : gate naming libraries system.rows request =
      .ok (predicted, .alreadyProcessed output)) :
    ∃ recorded ∈ system.history, recorded.contents = request.contents ∧
      recorded.pipeline.configHash libraries = request.pipeline.configHash libraries ∧
      recorded.pipeline.predictedOutputPath naming recorded.input
        recorded.metadata = .ok recorded.output ∧
      output = ofStr (toStringLossy recorded.output) := by
  obtain ⟨_, -, gated⟩ := Fallible.bind_eq_ok.mp skipped
  have answer := congrArg Prod.snd (Except.ok.inj gated)
  simp only [collisionGate] at answer
  split at answer
  next skip =>
    obtain rfl := Gate.alreadyProcessed.inj answer
    unfold smartSkip at skip
    split at skip
    · obtain ⟨_, kept, rfl⟩ := map_eq_some_iff.mp skip
      obtain ⟨row, found, pathText⟩ :=
        bind_eq_some_iff.mp (eq_some_of_filter_eq_some kept)
      unfold lookup at found
      split at found
      · simp at found
      · obtain ⟨listed, contents, hash, completed⟩ := mem_of_findCompletedRun found
        obtain ⟨recorded, past, records⟩ := sound.recorded row listed completed
        refine ⟨recorded, past, ?_, ?_, ?_, ?_⟩
        · exact lawful.blake3_injective (records.inputBlake3.symm.trans contents)
        · exact records.pipelineHash.symm.trans hash
        · exact sound.planned recorded (mem_append_right _ past)
        · have texts := records.outputPath.symm.trans pathText
          rw [some.inj texts]
    · simp at skip
  · split at answer
    · split at answer <;> simp at answer
    · simp at answer

/-- A `Smart` skip returns what the pipeline would have made exactly where it leaves the
same artifact at a UTF-8 path. -/
theorem smart_skip_faithful_iff [DecidableEq Hash] (lawful : libraries.Lawful) :
    (∀ first second : Pipeline, first.configHash libraries = second.configHash libraries →
      ((∀ input metadata default, (first.plan naming default input metadata).Agrees
        (second.plan naming default input metadata)) ↔
        first.outputArtifact = second.outputArtifact ∧
          (first.output.isUtf8 = true ∨ first.sameSettings second = true))) ∧
      ∀ actions request predicted output,
        gate naming libraries (run naming libraries version actions).rows
          request = .ok (predicted, .alreadyProcessed output) →
          ∃ recorded ∈ (run naming libraries version actions).history,
            recorded.contents = request.contents ∧ recorded.pipeline.configHash libraries =
              request.pipeline.configHash libraries ∧
              (WouldProduce naming request.pipeline recorded output ↔
                request.pipeline.outputArtifact = recorded.pipeline.outputArtifact ∧
                  isUtf8 recorded.output = true) := by
  refine ⟨fun _ _ => agrees_iff_of_configHash naming lawful, ?_⟩
  intro actions request predicted output skipped
  obtain ⟨recorded, past, contents, same, planned, rfl⟩ :=
    recorded_of_alreadyProcessed naming libraries lawful
      (sound_of_run naming libraries version actions) skipped
  exact ⟨recorded, past, contents, same, wouldProduce_iff naming libraries lawful planned same⟩

end

/-! ## A folder skipped for an archive -/

def plainLibraries : HashLibraries (Option Hashable) (Option Hashable) where
  toVec hashable := if hashable.output.isUtf8 then some (some hashable) else none
  noBytes := none
  blake3 := id

theorem plainLibraries_lawful : plainLibraries.Lawful where
  encodes := by
    intro hashable
    cases encoded : hashable.output.isUtf8 <;> simp [plainLibraries, encoded]
  nonempty := by
    intro hashable
    cases encoded : hashable.output.isUtf8 <;> simp [plainLibraries, encoded]
  toVec_injective := by
    intro _ _ _ firstBytes secondBytes
    simp only [plainLibraries, ite_none_right_eq_some] at firstBytes secondBytes
    exact some.inj (some.inj (firstBytes.2.trans secondBytes.2.symm))
  blake3_injective := Function.injective_id

def stemNaming : Naming where
  titleFilter := {
    replacements := []
    invalidChars := []
    replacement := ['_']
    maxLength := 200
    trimWhitespace := true }
  detectDlsiteCode _ := none

def flattenTo (artifact : OutputArtifact) : Pipeline where
  input := none
  steps := [.flatten true 1]
  output := .sameFolder
  collisionPolicy := none
  outputArtifact := artifact

/-- The request to run such a pipeline on one file that nothing was made of
yet, or of which only the folder exists. -/
def requestFor (artifact : OutputArtifact)
    (existing : List OsString) : RunRequest (Option Hashable) where
  pipeline := flattenTo artifact
  input := ofStr "/d/x.rar".toList
  contents := none
  inputSize := 0
  metadata := none
  context := { configDb := true, defaultCollisionPolicy := none }
  pathExists path := path ∈ existing
  lookupFails := false
  tie := 0
  beginFails := false
  now := 0

def folderThenArchive : List (Action (Option Hashable)) :=
  [.start (requestFor .folder []), .finish 0 (.completed .folder) false 1]

/-- Pipelines for a folder and an archive share a hash, and `Smart` returns the folder. -/
theorem folder_returned_for_archive : (∀ {Bytes Hash : Type} (libraries : HashLibraries Bytes Hash),
    (flattenTo .archive).configHash libraries = (flattenTo .folder).configHash libraries) ∧
    ¬ ((flattenTo .archive).plan stemNaming .smart (ofStr "/d/x.rar".toList) none).Agrees
      ((flattenTo .folder).plan stemNaming .smart (ofStr "/d/x.rar".toList) none) ∧
    gate stemNaming plainLibraries (run stemNaming plainLibraries [] folderThenArchive).rows
      (requestFor .archive [ofStr "/d/x".toList]) =
      .ok (ofStr "/d/x.zip".toList, .alreadyProcessed (ofStr "/d/x".toList)) := by
  refine ⟨fun _ => rfl, ?_, by decide +kernel⟩
  intro agrees
  exact absurd agrees.outputArtifact (by decide)

/-- Two archives of one configuration are planned alike. -/
theorem smart_skip_faithful_same_artifact : ((flattenTo .archive).plan stemNaming .smart
    (ofStr "/d/x.rar".toList) none).Agrees
      ({ flattenTo .archive with
        input := some (.files []) }.plan stemNaming .smart
        (ofStr "/d/x.rar".toList) none) :=
  ((smart_skip_faithful_iff stemNaming plainLibraries []
    plainLibraries_lawful).1 (flattenTo .archive)
      { flattenTo .archive with input := some (.files []) } rfl).mpr
    ⟨rfl, .inl rfl⟩ (ofStr "/d/x.rar".toList) none .smart

end Arclain.Pipelines
