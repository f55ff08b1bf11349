import Arclain.PipelineTypes
import Mathlib.Logic.Function.Basic

namespace Arclain.PipelineWorkDirs

/-!
# The work directories of pipeline runs

Every run works in a directory whose name is made of the process and the input's file name.
Runs of one process interleave at every file they write or read.
-/

open List OsPath Pipelines Function

/-- Where a file came from: an input, a step of a run, or another process. -/
inductive Origin where
  | input (run : Nat)
  | step (run index : Nat)
  | elsewhere
  deriving DecidableEq

def Origin.run : Origin → Option Nat
  | .input run | .step run _ => some run
  | .elsewhere => none

structure WorkFile where
  path : List Str
  content : List UInt8
  origin : Origin
  deriving DecidableEq

/-- The files of a directory. -/
abbrev Tree := List WorkFile

inductive Stage where
  | extracting
  | stepping (index : Nat)
  | packing
  deriving DecidableEq

/-- A run with a work directory, and the files it has packed so far. -/
structure Run where
  id : Nat
  workDir : Str
  steps : List PipelineStep
  stage : Stage
  packed : Tree
  deriving DecidableEq

/-- The directories below the temporary root, and the runs in progress and ended. -/
structure State where
  dirs : Str → Option Tree
  live : List Run
  ended : List Run
  nextId : Nat

inductive Action where
  | start (input : OsString) (steps : List PipelineStep)
  | change (run : Nat) (files : Tree)
  | advance (run : Nat)
  | pack (run : Nat) (files : Tree)
  | drop (run : Nat) (leftOver : Option Tree)

def workDirName (pid : Nat) (input : OsString) : Str :=
  "arclain_pipeline_".toList ++ Text.decimal pid ++ ['_'] ++
    ((fileName input).bind toStr).getD ['x']

def State.files (state : State) (name : Str) : Tree := (state.dirs name).getD []

/-- `create_dir_all`: a directory that exists is taken as it is. -/
def createDirAll (dirs : Str → Option Tree) (name : Str) : Str → Option Tree :=
  update dirs name (some ((dirs name).getD []))

def Run.origin (run : Run) : Origin :=
  match run.stage with
  | .extracting => .input run.id
  | .stepping index => .step run.id index
  | .packing => .step run.id run.steps.length

/-- A change adds files of the run, and keeps, moves or unpacks files that were
there. -/
def isChange (run : Run) (before after : Tree) : Bool :=
  after.all fun file =>
    file.origin = run.origin || (before.map WorkFile.origin).contains file.origin

/-- The stage after the current one: extraction, every step, packing. -/
def Run.nextStage (run : Run) : Stage :=
  let following := match run.stage with
    | .extracting => 0
    | .stepping index => index + 1
    | .packing => run.steps.length
  if following < run.steps.length then .stepping following else .packing

def State.update (state : State) (id : Nat) (change : Run → Run) : State :=
  { state with
    live := state.live.map fun run => if run.id = id then change run else run }

def State.find (state : State) (id : Nat) : Option Run := state.live.find? fun run => run.id = id

def step (pid : Nat) (state : State) : Action → State
  | .start input steps =>
    { state with
      dirs := createDirAll state.dirs (workDirName pid input)
      live := state.live ++
        [{ id := state.nextId
           workDir := workDirName pid input
           steps := steps
           stage := .extracting
           packed := [] }]
      nextId := state.nextId + 1 }
  | .change id files =>
    match state.find id with
    | none => state
    | some run =>
      if run.stage ≠ .packing ∧ isChange run (state.files run.workDir) files then
        { state with
          dirs := update state.dirs run.workDir (some files) }
      else state
  | .advance id => state.update id fun run => { run with stage := run.nextStage }
  | .pack id files =>
    match state.find id with
    | none => state
    | some run =>
      -- 7z and the folder copy read the directory file by file.
      if run.stage = .packing ∧ files.all (state.files run.workDir).contains then
        state.update id fun run => { run with packed := run.packed ++ files }
      else state
  | .drop id leftOver =>
    match state.find id with
    | none => state
    | some run =>
      -- `remove_dir_all` may fail on the way; its error is ignored.
      if (leftOver.getD []).all (state.files run.workDir).contains then
        { state with
          dirs := update state.dirs run.workDir leftOver
          live := state.live.filter fun other => other.id ≠ id
          ended := state.ended ++ [run] }
      else state

/-- A process that has run no pipeline yet. -/
def initial (dirs : Str → Option Tree) : State where
  dirs := dirs
  live := []
  ended := []
  nextId := 0

def runActions (pid : Nat) (dirs : Str → Option Tree) (actions : List Action) : State :=
  actions.foldl (step pid) (initial dirs)

def PacksOwn (state : State) : Prop :=
  ∀ run ∈ state.live ++ state.ended, ∀ file ∈ run.packed, file.origin.run = some run.id

/-- A step removes no directory that another run in progress works in. -/
def RemovesOwn (state : State) : Action → Prop
  | .drop id _ =>
    ∀ run ∈ state.live, run.id = id →
      ∀ other ∈ state.live, other.id ≠ id → other.workDir ≠ run.workDir
  | _ => True

/-- A run starts where nothing stands and nobody works. -/
def StartsApart (pid : Nat) (state : State) : Action → Prop
  | .start input _ =>
    state.files (workDirName pid input) = [] ∧
      ∀ run ∈ state.live, run.workDir ≠ workDirName pid input
  | _ => True

/-! ## Runs that start apart -/

/-- Runs in progress have their own numbers and directories, and each packed only files of
its own. -/
structure Separate (state : State) : Prop where
  numbered : ∀ run ∈ state.live, run.id < state.nextId
  ids : (state.live.map Run.id).Nodup
  workDirs : (state.live.map Run.workDir).Nodup
  owned : ∀ run ∈ state.live, ∀ file ∈ state.files run.workDir, file.origin.run = some run.id
  packsOwn : PacksOwn state

theorem mem_of_find {state : State} {id : Nat} {run : Run} (found : state.find id = some run) :
    run ∈ state.live ∧ run.id = id := by
  refine ⟨mem_of_find?_eq_some found, ?_⟩
  simpa using List.find?_some found

@[simp] theorem Run.origin_run (run : Run) : run.origin.run = some run.id := by
  unfold Run.origin
  cases run.stage with
  | extracting | stepping | packing => rfl

theorem origin_of_isChange {run : Run} {before after : Tree}
    (changes : isChange run before after = true) {file : WorkFile} (mem : file ∈ after) :
    file.origin = run.origin ∨ ∃ old ∈ before, old.origin = file.origin := by
  have traced := all_eq_true.mp changes file mem
  rw [Bool.or_eq_true, decide_eq_true_eq, contains_iff_mem, mem_map] at traced
  exact traced

@[simp] theorem files_update_same (state : State) (name : Str) (tree : Option Tree) :
    ({ state with dirs := update state.dirs name tree } :
      State).files name = tree.getD [] := by
  simp [State.files]

namespace Separate

variable {state : State} {first second : Run}

section

variable (separate : Separate state)
include separate

theorem eq_of_workDir (firstLive : first ∈ state.live) (secondLive : second ∈ state.live)
    (same : first.workDir = second.workDir) : first = second :=
  inj_on_of_nodup_map separate.workDirs firstLive secondLive same

theorem eq_of_id (firstLive : first ∈ state.live)
    (secondLive : second ∈ state.live) (same : first.id = second.id) : first = second :=
  inj_on_of_nodup_map separate.ids firstLive secondLive same

theorem removesOwn (action : Action) : RemovesOwn state action := by
  cases action with
  | drop =>
    intro _ live numbered _ otherLive different same
    have equal := separate.eq_of_workDir otherLive live same
    exact different (equal ▸ numbered)
  | _ => trivial

theorem start (pid : Nat) (input : OsString) (steps : List PipelineStep)
    (apart : StartsApart pid state (.start input steps)) :
    Separate (step pid state (.start input steps)) := by
  obtain ⟨empty, unused⟩ := apart
  have others (run : Run) (live : run ∈ state.live) :
      createDirAll state.dirs (workDirName pid input) run.workDir = state.dirs run.workDir :=
    update_of_ne (unused run live) _ _
  refine {
    numbered := ?_
    ids := ?_
    workDirs := ?_
    owned := ?_
    packsOwn := ?_ }
  · intro run mem
    rcases mem_append.mp mem with live | fresh
    · exact Nat.lt_succ_of_lt (separate.numbered run live)
    · rw [mem_singleton.mp fresh]
      exact Nat.lt_succ_self _
  · simp only [step, map_append, map_cons, map_nil]
    refine nodup_append.mpr ⟨separate.ids, nodup_singleton _, ?_⟩
    intro old listed new single
    obtain ⟨run, live, rfl⟩ := mem_map.mp listed
    rw [mem_singleton.mp single]
    exact Nat.ne_of_lt (separate.numbered run live)
  · simp only [step, map_append, map_cons, map_nil]
    refine nodup_append.mpr ⟨separate.workDirs, nodup_singleton _, ?_⟩
    intro old listed new single
    obtain ⟨run, live, rfl⟩ := mem_map.mp listed
    rw [mem_singleton.mp single]
    exact unused run live
  · intro run mem file stands
    rcases mem_append.mp mem with live | fresh
    · refine separate.owned run live file ?_
      simpa only [State.files, step, others run live] using stands
    · rw [mem_singleton.mp fresh] at stands
      have vacant : (state.dirs (workDirName pid input)).getD [] = [] := empty
      simp [State.files, step, createDirAll, vacant] at stands
  · intro run mem file packed
    simp only [step, mem_append, mem_singleton] at mem
    rcases mem with (live | rfl) | past
    · exact separate.packsOwn run (mem_append_left _ live) file packed
    · simp at packed
    · exact separate.packsOwn run (mem_append_right _ past) file packed

theorem change {run : Run} (running : run ∈ state.live) {files : Tree}
    (changes : isChange run (state.files run.workDir) files = true) : Separate
      { state with
        dirs := Function.update state.dirs run.workDir (some files) } where
  __ := separate
  owned := by
    intro other live file stands
    by_cases same : other.workDir = run.workDir
    · obtain rfl := separate.eq_of_workDir live running same
      rw [files_update_same, Option.getD_some] at stands
      rcases origin_of_isChange changes stands with own | ⟨old, there, origin⟩
      · rw [own, Run.origin_run]
      · rw [← origin]
        exact separate.owned other live old there
    · refine separate.owned other live file ?_
      simpa only [State.files, update_of_ne same] using stands

theorem update (id : Nat) {change : Run → Run} (keepsId : ∀ run, (change run).id = run.id)
    (keepsWorkDir : ∀ run, (change run).workDir = run.workDir)
    (packs : ∀ run ∈ state.live, run.id = id →
      ∀ file ∈ (change run).packed, file.origin.run = some run.id) :
    Separate (state.update id change) := by
  have ids : (state.update id change).live.map Run.id = state.live.map Run.id := by
    simp only [State.update, map_map]
    refine map_congr_left fun run _ => ?_
    simp only [comp_apply]
    split
    · exact keepsId run
    · rfl
  have workDirs : (state.update id change).live.map Run.workDir = state.live.map Run.workDir := by
    simp only [State.update, map_map]
    refine map_congr_left fun run _ => ?_
    simp only [comp_apply]
    split
    · exact keepsWorkDir run
    · rfl
  have origin : ∀ run ∈ (state.update id change).live,
      ∃ old ∈ state.live, run.id = old.id ∧ run.workDir = old.workDir ∧
        ((∀ file ∈ run.packed, file.origin.run = some old.id) ∨ run = old) := by
    intro run mem
    obtain ⟨old, live, rfl⟩ := mem_map.mp mem
    refine ⟨old, live, ?_⟩
    split
    next named => exact ⟨keepsId old, keepsWorkDir old, .inl (packs old live named)⟩
    · exact ⟨rfl, rfl, .inr rfl⟩
  exact {
    numbered := by
      intro run mem
      obtain ⟨old, live, sameId, -⟩ := origin run mem
      rw [sameId]
      exact separate.numbered old live
    ids := ids ▸ separate.ids
    workDirs := workDirs ▸ separate.workDirs
    owned := by
      intro run mem file stands
      obtain ⟨old, live, sameId, sameDir, -⟩ := origin run mem
      rw [sameId]
      rw [sameDir] at stands
      exact separate.owned old live file stands
    packsOwn := by
      intro run mem file packed
      rcases mem_append.mp mem with live | past
      · obtain ⟨old, oldLive, sameId, -, cases⟩ := origin run live
        rcases cases with own | rfl
        · rw [sameId]
          exact own file packed
        · exact separate.packsOwn run (mem_append_left _ oldLive) file packed
      · exact separate.packsOwn run (mem_append_right _ past) file packed }

theorem drop {run : Run} (running : run ∈ state.live) (leftOver : Option Tree) : Separate
      { state with
        dirs := Function.update state.dirs run.workDir leftOver
        live := state.live.filter fun other => other.id ≠ run.id
        ended := state.ended ++ [run] } where
  numbered := fun other mem => separate.numbered other (mem_of_mem_filter mem)
  ids := separate.ids.sublist (filter_sublist.map _)
  workDirs := separate.workDirs.sublist (filter_sublist.map _)
  owned := by
    intro other mem file stands
    obtain ⟨live, different⟩ := mem_filter.mp mem
    have apart : other.workDir ≠ run.workDir := by
      intro same
      have equal := separate.eq_of_workDir live running same
      simp [equal] at different
    refine separate.owned other live file ?_
    simpa only [State.files, update_of_ne apart] using stands
  packsOwn := by
    intro other mem file packed
    simp only [mem_append, mem_singleton] at mem
    rcases mem with live | past | rfl
    · exact separate.packsOwn other (mem_append_left _ (mem_of_mem_filter live)) file packed
    · exact separate.packsOwn other (mem_append_right _ past) file packed
    · exact separate.packsOwn other (mem_append_left _ running) file packed

end

theorem step (separate : Separate state) (pid : Nat) (action : Action)
    (apart : StartsApart pid state action) : Separate (step pid state action) := by
  cases action with
  | start input steps => exact separate.start pid input steps apart
  | change id files =>
    simp only [PipelineWorkDirs.step]
    split
    · exact separate
    next run found =>
      split
      next allowed => exact separate.change (mem_of_find found).1 allowed.2
      · exact separate
  | advance id =>
    refine separate.update id (fun _ => rfl) (fun _ => rfl) ?_
    intro run live _ file packed
    exact separate.packsOwn run (mem_append_left _ live) file packed
  | pack id files =>
    simp only [PipelineWorkDirs.step]
    split
    · exact separate
    next run found =>
      obtain ⟨running, numbered⟩ := mem_of_find found
      split
      next allowed =>
        refine separate.update id (fun _ => rfl) (fun _ => rfl) ?_
        intro other live named file packed
        obtain rfl := separate.eq_of_id live running (named.trans numbered.symm)
        rcases mem_append.mp packed with earlier | added
        · exact separate.packsOwn other (mem_append_left _ live) file earlier
        · have stands := all_eq_true.mp allowed.2 file added
          exact separate.owned other live file (contains_iff_mem.mp stands)
      · exact separate
  | drop id leftOver =>
    simp only [PipelineWorkDirs.step]
    split
    · exact separate
    next run found =>
      obtain ⟨running, rfl⟩ := mem_of_find found
      split
      · exact separate.drop running leftOver
      · exact separate

end Separate

theorem separate_of_run (pid : Nat) (dirs : Str → Option Tree) (actions : List Action)
    (apart : ∀ before action after, actions = before ++ action :: after →
      StartsApart pid (runActions pid dirs before) action) :
    Separate (runActions pid dirs actions) := by
  induction actions using List.reverseRecOn with
  | nil =>
    exact {
      numbered := by simp [runActions, initial]
      ids := nodup_nil
      workDirs := nodup_nil
      owned := by simp [runActions, initial]
      packsOwn := by simp [PacksOwn, runActions, initial] }
  | append_singleton earlier last ih =>
    have separate := ih (by
      intro before action after split
      refine apart before action (after ++ [last]) ?_
      rw [split, append_assoc, cons_append])
    rw [runActions, foldl_append]
    exact separate.step pid last (apart earlier last [] rfl)

/-- Where every run starts in an empty directory of its own, it packs its own files only,
and removes no other's directory. -/
theorem work_dirs_separate_of_run (pid : Nat) (dirs : Str → Option Tree) (actions : List Action)
    (apart : ∀ before action after, actions = before ++ action :: after →
      StartsApart pid (runActions pid dirs before) action) :
    PacksOwn (runActions pid dirs actions) ∧
      ∀ before action after, actions = before ++ action :: after →
        RemovesOwn (runActions pid dirs before) action := by
  refine ⟨(separate_of_run pid dirs actions apart).packsOwn, ?_⟩
  intro before action after split
  have separate : Separate (runActions pid dirs before) := by
    refine separate_of_run pid dirs before ?_
    intro earlier done later splitBefore
    refine apart earlier done (later ++ action :: after) ?_
    rw [split, splitBefore, append_assoc, cons_append]
  exact separate.removesOwn action

/-! ## One name for two inputs -/

def firstInput : OsString := ofStr "/a/game.zip".toList

def secondInput : OsString := ofStr "/b/game.zip".toList

def fileOf (run : Nat) : WorkFile where
  path := ["data".toList ++ Text.decimal run]
  content := [0]
  origin := .input run

/-- Both inputs are extracted, and then the first is packed. -/
def sharedActions : List Action :=
  [.start firstInput [], .start secondInput [], .change 0 [fileOf 0],
    .change 1 [fileOf 0, fileOf 1], .advance 0, .pack 0 [fileOf 0, fileOf 1]]

/-- The first input is extracted and its directory is not removed; then the
second is packed. -/
def leftOverActions : List Action :=
  [.start firstInput [], .change 0 [fileOf 0], .drop 0 (some [fileOf 0]),
    .start secondInput [], .advance 1, .pack 1 [fileOf 0]]

/-- Whether every run has packed its own files is checked file by file. -/
instance (state : State) : Decidable (PacksOwn state) :=
  inferInstanceAs (Decidable (∀ run ∈ state.live ++ state.ended,
    ∀ file ∈ run.packed, file.origin.run = some run.id))

/-- Two inputs of one name share a directory, and each packs or removes files of the other. -/
theorem inputs_of_one_name_share_files : ¬ PacksOwn (runActions 7 (fun _ => none) sharedActions) ∧
    ¬ RemovesOwn (runActions 7 (fun _ => none) sharedActions) (.drop 0 none) ∧
    ¬ PacksOwn (runActions 7 (fun _ => none) leftOverActions) := by
  refine ⟨by decide +kernel, ?_, by decide +kernel⟩
  intro removes
  have first : (⟨0, workDirName 7 firstInput, [], .packing, [fileOf 0, fileOf 1]⟩ : Run) ∈
      (runActions 7 (fun _ => none) sharedActions).live := by
    decide +kernel
  have second : (⟨1, workDirName 7 secondInput, [], .extracting, []⟩ : Run) ∈
      (runActions 7 (fun _ => none) sharedActions).live := by
    decide +kernel
  exact removes _ first rfl _ second (by decide) (by decide +kernel)

/-- Two inputs of different names are extracted side by side. -/
def apartActions : List Action :=
  [.start firstInput [], .start (ofStr "/b/other.zip".toList) [],
    .change 0 [fileOf 0], .change 1 [fileOf 1], .advance 0, .pack 0 [fileOf 0], .drop 0 none]

/-- Whether a run starts apart is checked against the runs in progress. -/
instance (pid : Nat) (state : State) (action : Action) : Decidable (StartsApart pid state action) :=
  match action with
  | .start input _ =>
    inferInstanceAs (Decidable (state.files (workDirName pid input) = [] ∧
      ∀ run ∈ state.live, run.workDir ≠ workDirName pid input))
  | .change _ _ | .advance _ | .pack _ _ | .drop _ _ => inferInstanceAs (Decidable True)

theorem forall_splits_iff {Item : Type} {property : List Item → Item → Prop} (items : List Item) :
    (∀ before item after, items = before ++ item :: after → property before item) ↔
      ∀ index, (bound : index < items.length) →
        property (items.take index) (items.get ⟨index, bound⟩) := by
  constructor
  · intro each index bound
    refine each _ _ (items.drop (index + 1)) ?_
    simp
  · rintro each before item after rfl
    have last := each before.length (by simp)
    simpa using last

/-- Two inputs of different names are packed apart. -/
theorem inputs_of_two_names_packed_apart : PacksOwn (runActions 7 (fun _ => none) apartActions) ∧
    ∀ before action after, apartActions = before ++ action :: after →
      RemovesOwn (runActions 7 (fun _ => none) before) action :=
  work_dirs_separate_of_run 7 (fun _ => none) apartActions
    ((forall_splits_iff apartActions).mpr (by decide +kernel))

end Arclain.PipelineWorkDirs
