import Arclain.DirectoryTree
import Arclain.OutputTransaction
import Arclain.PipelineRuns
import Arclain.PipelineWorkDirs

namespace Arclain.PipelineBatch

/-!
# A batch of pipeline runs

`execute_pipeline` takes its inputs one after another.  Each run passes the gate of its
collision policy, works in a directory of its own, stages its artifact beside the
destination and promotes it.

`RunEnvironment` says which calls fail, and what the steps make.  Nobody else writes to the
disk.
-/

open List Option OsPath Pipelines OutputTransaction DirectoryTree

/-- A place on the disk: the names that lead to it from the root. -/
abbrev Location := List OsString

inductive Node where
  | file (content : List UInt8)
  | directory
  | symlink (dangling : Bool)
  deriving DecidableEq

/-- The disk, and a tree on it. -/
abbrev Disk := DirectoryTree OsString Node

/-- A folder of regular files and directories. -/
structure RegularFolder where
  tree : Disk
  rooted : tree.node [] = some .directory
  regular : ∀ path dangling, tree.node path ≠ some (.symlink dangling)

structure Setting where
  naming : Naming
  pid : Nat
  tempRoot : Location
  place : OsString → Location
  defaultCollisionPolicy : Option OutputCollisionPolicy

/-- Which calls of a commit fail, and what removing its directory leaves. -/
structure CommitFaults where
  check : Bool
  renameExisting : Bool
  promote : Bool
  rollback : Bool
  removal : Removal

/-- What one run meets: the calls that fail, the answers it gets, and what the steps make. -/
structure RunEnvironment (Hash : Type) where
  hashFails : Bool
  metadata : Option GameMetadata
  completed : Option (DbPipelineRun Hash)
  createWorkFails : Bool
  workTree : Disk
  stepsFail : Bool
  stageFails : Bool
  rootName : OsString
  packed : Option (List UInt8)
  copied : Option RegularFolder
  commit : CommitFaults
  workLeft : Disk

/-- How a run ended.  A completed run is listed with what it had staged. -/
inductive Report where
  | completed (output : OsString) (artifact : Disk)
  | skipped (output : OsString)
  | failed
  | panicked

section

variable {Hash : Type} (setting : Setting) (pipeline : Pipeline)

def policy : OutputCollisionPolicy :=
  pipeline.effectiveCollisionPolicy (setting.defaultCollisionPolicy.getD .smart)

def workPlace (input : OsString) : Location :=
  setting.tempRoot ++ [ofStr (PipelineWorkDirs.workDirName setting.pid input)]

/-- The directory a path names its last component in, and that name. -/
def parentPlace (path : OsString) : Option (Location × OsString) :=
  match parent path, fileName path with
  | some above, some name => some (setting.place (if above = [] then [dot] else above), name)
  | _, _ => none

/-- The place of a path itself, its last component not followed. -/
def location (path : OsString) : Location :=
  match parentPlace setting path with
  | some (directory, name) => directory ++ [name]
  | none => setting.place path

/-- `Path::exists`: a dangling symlink does not exist. -/
def pathExists (disk : Disk) (path : OsString) : Bool :=
  match disk.node (location setting path) with
  | none => false
  | some (.symlink dangling) => !dangling
  | some _ => true

def directoriesOnly (disk : Disk) (path : Location) : Bool :=
  path.inits.all fun above =>
    match disk.node above with
    | none | some .directory => true
    | some _ => false

/-- The verified artifact: a nonempty archive, or a folder. -/
def RunEnvironment.artifact (environment : RunEnvironment Hash) : OutputArtifact → Option Disk
  | .archive =>
    (environment.packed.filter fun bytes => !bytes.isEmpty).map fun bytes => .single (.file bytes)
  | .folder => environment.copied.map RegularFolder.tree

def stagedOutput (disk : Disk) (destination : Location) (artifact : Disk)
    (replaceExisting : Bool) : StagedOutput Empty Disk where
  store
    | .destination =>
      if disk.node destination = none then none
      else some (disk.subtree destination)
    | .artifact => some artifact
    | .previous => none
    | .other name => name.elim
  replaceExisting := replaceExisting
  previousAbsent := rfl

def CommitFaults.environment (faults : CommitFaults) : Environment Disk where
  checkFails := faults.check
  afterCheck := none
  renameExistingFails := faults.renameExisting
  afterBackup := none
  beforePromoteFails := false
  beforePromotion := none
  promoteFails := faults.promote
  beforeRollback := none
  rollbackFails := faults.rollback
  removal := faults.removal

def rootTree (result : Result Empty Disk) : Disk :=
  let children :=
    (result.store .artifact).toList.map (fun tree => (ofStr "artifact".toList, tree)) ++
      (result.store .previous).toList.map (fun tree => (ofStr "previous".toList, tree))
  if children = [] then .empty else .beneath .directory children

def settle (disk : Disk) (destination root : Location) (result : Result Empty Disk) : Disk :=
  (disk.graft destination ((result.store .destination).getD .empty)).graft root (rootTree result)

/-- `StagedOutput::new`, packing, `verify` and `commit`. -/
def produceOutput (environment : RunEnvironment Hash) (replaceExisting : Bool) (output : OsString)
    (disk : Disk) : Report × Disk :=
  match parentPlace setting output with
  | none => (.failed, disk)
  | some (directory, name) =>
    if environment.stageFails ∨ ¬ directoriesOnly disk directory then (.failed, disk)
    else
      let staging := disk.createDirAll .directory directory
      let root := directory ++ [environment.rootName]
      -- `tempfile` takes no name that exists.
      if (staging.node root).isSome ∨ environment.rootName = name then (.failed, staging)
      else
        match environment.artifact pipeline.outputArtifact with
        | none => (.failed, staging)
        | some artifact =>
          let result :=
            commitWithHooks (stagedOutput staging (directory ++ [name]) artifact replaceExisting)
              environment.commit.environment
          (match result.outcome with
            | .ok () => .completed output artifact
            | .error _ => .failed,
            settle staging (directory ++ [name]) root result)

def runOneInner (input : OsString) (environment : RunEnvironment Hash) (replaceExisting : Bool)
    (disk : Disk) : Report × Disk :=
  let work := workPlace setting input
  if environment.createWorkFails ∨ ¬ directoriesOnly disk work then (.failed, disk)
  else
    let working := (disk.createDirAll .directory work).graft work environment.workTree
    let produced :=
      if environment.stepsFail then (.failed, working)
      else
        match pipeline.finalOutputPath setting.naming input environment.metadata with
        | .error _ => (.panicked, working)
        | .ok output => produceOutput setting pipeline environment replaceExisting output working
    -- The guard is dropped on every way out, a panic included.
    (produced.1, produced.2.graft work environment.workLeft)

def runOne (input : OsString) (environment : RunEnvironment Hash) (disk : Disk) : Report × Disk :=
  if environment.hashFails then (.failed, disk)
  else
    match pipeline.predictedOutputPath setting.naming input environment.metadata with
    | .error _ => (.panicked, disk)
    | .ok predicted =>
      match collisionGate (policy setting pipeline) environment.completed
        (fun stored => pathExists setting disk (ofStr stored)) predicted
        (pathExists setting disk predicted) with
      | .alreadyProcessed output | .outputExists output => (.skipped output, disk)
      | .refused _ => (.failed, disk)
      | .run replaceExisting => runOneInner setting pipeline input environment replaceExisting disk

/-- `execute_pipeline`, from the input of an index on.  A panic ends the
batch. -/
def executePipeline (environments : Nat → RunEnvironment Hash) :
    List OsString → Nat → Disk → List Report × Disk
  | [], _, disk => ([], disk)
  | input :: rest, index, disk =>
    let ran := runOne setting pipeline input (environments index) disk
    match ran.1 with
    | .panicked => ([.panicked], ran.2)
    | report =>
      let others := executePipeline environments rest (index + 1) ran.2
      (report :: others.1, others.2)

/-! ## What a commit does to the disk -/

theorem destination_of_committed {staged : StagedOutput Empty Disk} {faults : Environment Disk}
    (committed : (commitWithHooks staged faults).outcome = .ok ()) :
    ∃ artifact, staged.store .artifact = some artifact ∧
      (commitWithHooks staged faults).store .destination = some artifact :=
  ((commit_preserves_outputs staged faults).1 committed).1

theorem commit_without_replacement (staged : StagedOutput Empty Disk) (faults : CommitFaults)
    (kept : staged.replaceExisting = false) :
    ((commitWithHooks staged faults.environment).outcome = .ok () →
      staged.store .destination = none) ∧ (staged.store .destination ≠ none →
        (commitWithHooks staged faults.environment).store .destination =
          staged.store .destination) := by
  cases stands : staged.store .destination with
  | none => simp
  | some =>
    have transacted : transact staged faults.environment =
        (.error .check, { store := staged.store, arrived := [] }) ∨
          transact staged faults.environment = (.error .alreadyExists,
            { store := staged.store, arrived := [] }) := by
      cases checked : faults.check with
      | true =>
        left
        simp [transact, CommitFaults.environment, checked]
      | false =>
        right
        simp [transact, CommitFaults.environment, checked, stands, kept]
    have outside := (closeTransactionRoot_outside faults.removal staged.store).1
    rcases transacted with refused | refused
    · rw [commitWithHooks, refused]
      exact ⟨by simp, fun _ => outside.trans stands⟩
    · rw [commitWithHooks, refused]
      exact ⟨by simp, fun _ => outside.trans stands⟩

theorem node_settle {disk : Disk} {destination root place : Location} {result : Result Empty Disk}
    {node : Node} (stood : disk.node place = some node)
    (spared : ¬ destination <+: place ∨ disk.node destination = none ∨
      result.store .destination = some (disk.subtree destination))
    (fresh : disk.node root = none) (apart : ¬ destination <+: root) :
    (settle disk destination root result).node place = some node := by
  have placed : (disk.graft destination
      ((result.store .destination).getD .empty)).node place = some node := by
    rcases spared with outside | vacant | same
    · rw [node_graft_outside outside, stood]
    · exact node_graft_of_vacant vacant stood
    · rw [same, getD_some, graft_subtree, stood]
  refine node_graft_of_vacant ?_ placed
  rw [node_graft_outside apart, fresh]

theorem not_prefix_of_siblings {directory rest : Location} {first second : OsString}
    (different : first ≠ second) : ¬ directory ++ [first] <+: directory ++ [second] ++ rest := by
  rw [append_assoc, prefix_append_right_inj]
  intro leads
  exact different (by simpa using leads)

theorem artifact_rooted {environment : RunEnvironment Hash} {kind : OutputArtifact}
    {artifact : Disk} (made : environment.artifact kind = some artifact) :
    artifact.node [] ≠ none := by
  cases kind with
  | archive =>
    obtain ⟨_, -, rfl⟩ := map_eq_some_iff.mp made
    simp [single]
  | folder =>
    obtain ⟨folder, -, rfl⟩ := map_eq_some_iff.mp made
    simp [folder.rooted]

section

variable {environment : RunEnvironment Hash} {disk : Disk} {setting pipeline}

theorem location_of_parentPlace {output name : OsString} {directory : Location}
    (placed : parentPlace setting output = some (directory, name)) :
    location setting output = directory ++ [name] := by
  simp [location, placed]

variable {replaceExisting : Bool} {output : OsString} {place : Location} {node : Node}

theorem node_produceOutput (stood : disk.node place = some node)
    (spared : replaceExisting = true → ¬ location setting output <+: place) :
    (produceOutput setting pipeline environment replaceExisting output
      disk).2.node place = some node := by
  unfold produceOutput
  split
  · exact stood
  next directory name placed =>
    split
    · exact stood
    · have standing : (disk.createDirAll .directory directory).node place = some node :=
        node_createDirAll_of_some stood
      simp only
      split
      · exact standing
      next clash =>
        rw [not_or, Bool.not_eq_true, isSome_eq_false_iff, isNone_iff_eq_none] at clash
        have apart : ¬ directory ++ [name] <+: directory ++ [environment.rootName] := by
          have siblings : ¬ directory ++ [name] <+: directory ++ [environment.rootName] ++ [] :=
            not_prefix_of_siblings (Ne.symm clash.2)
          rwa [append_nil] at siblings
        split
        · exact standing
        next artifact made =>
          refine node_settle standing ?_ clash.1 apart
          cases replaces : replaceExisting with
          | true =>
            left
            rw [← location_of_parentPlace placed]
            exact spared replaces
          | false =>
            right
            by_cases vacant : (disk.createDirAll .directory directory).node
              (directory ++ [name]) = none
            · exact .inl vacant
            · right
              have held : (stagedOutput (disk.createDirAll .directory directory)
                  (directory ++ [name]) artifact false).store .destination =
                  some ((disk.createDirAll .directory directory).subtree (directory ++ [name])) :=
                if_neg vacant
              refine ((commit_without_replacement _ environment.commit rfl).2 ?_).trans held
              simp [held]

variable {artifact : Disk}

theorem completed_of_produceOutput {output reported : OsString} (completed :
    (produceOutput setting pipeline environment replaceExisting output
      disk).1 = .completed reported artifact) :
    reported = output ∧ artifact.node [] ≠ none ∧ (∀ rest node, artifact.node rest = some node →
      (produceOutput setting pipeline environment replaceExisting output
        disk).2.node (location setting output ++ rest) = some node) ∧
      (replaceExisting = false → disk.node (location setting output) = none) := by
  unfold produceOutput at completed ⊢
  split at completed
  · cases completed
  next directory name placed =>
    rw [location_of_parentPlace placed]
    split at completed
    · cases completed
    next free =>
      rw [if_neg free]
      simp only at completed ⊢
      split at completed
      · cases completed
      next clash =>
        rw [if_neg clash]
        rw [not_or] at clash
        split at completed
        · cases completed
        next made =>
          simp only at completed ⊢
          split at completed
          next committed =>
            obtain ⟨rfl, rfl⟩ := Report.completed.inj completed
            obtain ⟨_, staged, stands⟩ := destination_of_committed committed
            cases staged
            refine ⟨rfl, artifact_rooted made, ?_, ?_⟩
            · intro rest node holds
              rw [settle, node_graft_outside
                (not_prefix_of_siblings clash.2), stands, getD_some,
                node_graft_append (hangs_createDirAll _ _ _ _)]
              exact holds
            · intro kept
              subst kept
              have vacant := (commit_without_replacement _ environment.commit rfl).1 committed
              by_contra stood
              obtain ⟨node, stood⟩ := ne_none_iff_exists'.mp stood
              have standing : (disk.createDirAll .directory directory).node
                  (directory ++ [name]) = some node :=
                node_createDirAll_of_some stood
              simp [stagedOutput, standing] at vacant
          · cases completed

theorem replace_of_collisionGate {chosen : OutputCollisionPolicy}
    {completed : Option (DbPipelineRun Hash)} {storedExists : Str → Bool} {predicted : OsString}
    {exists_ replaceExisting : Bool}
    (passed : collisionGate chosen completed storedExists predicted exists_ =
      .run replaceExisting) :
    replaceExisting = decide (chosen = .overwrite) := by
  unfold collisionGate at passed
  split at passed
  · cases passed
  · split at passed
    · cases chosen with
      | overwrite => exact (Gate.run.inj passed).symm
      | fail | skip | smart => cases passed
    · exact (Gate.run.inj passed).symm

variable {input : OsString}

theorem node_working (workTree : Disk) (stood : disk.node place = some node)
    (outside : ¬ workPlace setting input <+: place) :
    ((disk.createDirAll .directory (workPlace setting input)).graft
      (workPlace setting input) workTree).node place = some node := by
  rw [node_graft_outside outside]
  exact node_createDirAll_of_some stood

theorem node_runOneInner (stood : disk.node place = some node)
    (outside : ¬ workPlace setting input <+: place)
    (spared : replaceExisting = true → ∀ output, pipeline.predictedOutputPath setting.naming input
      environment.metadata = .ok output → ¬ location setting output <+: place) :
    (runOneInner setting pipeline input environment replaceExisting
      disk).2.node place = some node := by
  have working := node_working environment.workTree stood outside
  unfold runOneInner
  simp only
  split
  · exact stood
  · rw [node_graft_outside outside]
    split
    · exact working
    · split
      · exact working
      next output planned =>
        rw [finalOutputPath_eq_predicted] at planned
        exact node_produceOutput working fun replaces => spared replaces output planned

theorem completed_of_runOneInner (completed :
    (runOneInner setting pipeline input environment replaceExisting
      disk).1 = .completed output artifact) :
    pipeline.predictedOutputPath setting.naming input environment.metadata =
      .ok output ∧ artifact.node [] ≠ none ∧ (∀ rest node, artifact.node rest = some node →
        ¬ workPlace setting input <+: location setting output ++ rest →
          (runOneInner setting pipeline input environment replaceExisting
            disk).2.node (location setting output ++ rest) = some node) ∧
      (replaceExisting = false → ¬ workPlace setting input <+: location setting output →
        disk.node (location setting output) = none) := by
  unfold runOneInner at completed ⊢
  simp only at completed ⊢
  split at completed
  · cases completed
  next ready =>
    rw [if_neg ready]
    split at completed
    · cases completed
    next steps =>
      simp only [steps, Bool.false_eq_true, ↓reduceIte]
      split at completed
      · cases completed
      next path =>
        obtain ⟨rfl, rooted, left, found⟩ := completed_of_produceOutput completed
        rw [finalOutputPath_eq_predicted] at path
        refine ⟨path, rooted, ?_, ?_⟩
        · intro rest node holds outside
          rw [node_graft_outside outside]
          exact left rest node holds
        · intro kept outside
          have vacant := found kept
          by_contra stood
          obtain ⟨node, stood⟩ := ne_none_iff_exists'.mp stood
          rw [node_working environment.workTree stood outside] at vacant
          cases vacant

theorem node_runOne (stood : disk.node place = some node)
    (outside : ¬ workPlace setting input <+: place)
    (spared : policy setting pipeline = .overwrite → ∀ output,
      pipeline.predictedOutputPath setting.naming input environment.metadata = .ok output →
        ¬ location setting output <+: place) :
    (runOne setting pipeline input environment disk).2.node place = some node := by
  unfold runOne
  split
  · exact stood
  · split
    · exact stood
    · split
      · exact stood
      · exact stood
      · exact stood
      next passed =>
        refine node_runOneInner stood outside fun replaces => spared ?_
        rw [replace_of_collisionGate passed, decide_eq_true_eq] at replaces
        exact replaces

theorem completed_of_runOne (completed : (runOne setting pipeline input environment disk).1 =
    .completed output artifact) :
    pipeline.predictedOutputPath setting.naming input environment.metadata =
      .ok output ∧ artifact.node [] ≠ none ∧ (∀ rest node, artifact.node rest = some node →
        ¬ workPlace setting input <+: location setting output ++ rest →
          (runOne setting pipeline input environment disk).2.node
            (location setting output ++ rest) = some node) ∧
      (policy setting pipeline ≠ .overwrite →
        ¬ workPlace setting input <+: location setting output →
          disk.node (location setting output) = none) := by
  unfold runOne at completed ⊢
  split at completed
  · cases completed
  next hashed =>
    rw [if_neg hashed]
    split at completed
    · cases completed
    next planned =>
      rw [planned]
      split at completed
      · cases completed
      · cases completed
      · cases completed
      next passed =>
        obtain ⟨path, rooted, left, found⟩ := completed_of_runOneInner completed
        rw [planned] at path
        refine ⟨path, rooted, left, fun kept => found ?_⟩
        rw [replace_of_collisionGate passed]
        exact decide_eq_false kept

end

/-! ## Whole batches -/

section

variable (environments : Nat → RunEnvironment Hash)

def Outside (inputs : List OsString) (place : Location) : Prop :=
  ∀ input ∈ inputs, ¬ workPlace setting input <+: place

/-- No run from the first on replaces what stands at a place or below its output. -/
def Spared (inputs : List OsString) (first : Nat) (place : Location) : Prop :=
  policy setting pipeline = .overwrite → ∀ offset input, inputs[offset]? = some input → ∀ output,
    pipeline.predictedOutputPath setting.naming input
      (environments (first + offset)).metadata = .ok output →
      ¬ location setting output <+: place

variable {setting pipeline environments}

variable {first : Nat}

theorem spared_cons {input : OsString} {rest : List OsString} {place : Location} (spared :
    Spared setting pipeline environments (input :: rest) first place) :
    (policy setting pipeline = .overwrite → ∀ output,
      pipeline.predictedOutputPath setting.naming input (environments first).metadata = .ok output →
        ¬ location setting output <+: place) ∧
      Spared setting pipeline environments rest (first + 1) place := by
  constructor
  · intro overwrite
    exact spared overwrite 0 input rfl
  · intro overwrite offset other listed output planned
    refine spared overwrite (offset + 1) other listed output ?_
    rwa [Nat.add_assoc, Nat.add_comm 1] at planned

theorem executePipeline_cons (environments : Nat → RunEnvironment Hash) (input : OsString)
    (rest : List OsString) (first : Nat) (disk : Disk) :
    (∃ ran, runOne setting pipeline input (environments first) disk = (.panicked, ran) ∧
      executePipeline setting pipeline environments (input :: rest) first
        disk = ([.panicked], ran)) ∨
      executePipeline setting pipeline environments (input :: rest) first
        disk = ((runOne setting pipeline input (environments first) disk).1 ::
          (executePipeline setting pipeline environments rest (first + 1)
            (runOne setting pipeline input (environments first) disk).2).1,
          (executePipeline setting pipeline environments rest (first + 1)
            (runOne setting pipeline input (environments first) disk).2).2) := by
  rcases ran : runOne setting pipeline input (environments first) disk with
    ⟨report, left⟩
  cases report with
  | panicked => exact .inl ⟨left, rfl, by simp [executePipeline, ran]⟩
  | completed output | skipped output | failed =>
    exact .inr (by simp [executePipeline, ran])

variable {inputs : List OsString} {disk : Disk}

theorem node_executePipeline {place : Location} {node : Node} (stood : disk.node place = some node)
    (outside : Outside setting inputs place)
    (spared : Spared setting pipeline environments inputs first place) :
    (executePipeline setting pipeline environments inputs first disk).2.node place = some node := by
  induction inputs generalizing first disk with
  | nil => exact stood
  | cons input rest ih =>
    obtain ⟨byFirst, byRest⟩ := spared_cons spared
    have ran := node_runOne stood (outside input mem_cons_self) byFirst
    rcases executePipeline_cons environments input rest first disk with
      ⟨left, panicked, whole⟩ | whole
    · rw [whole]
      rwa [panicked] at ran
    · rw [whole]
      exact ih ran (fun other mem => outside other (mem_cons_of_mem _ mem))
        byRest

theorem completed_of_executePipeline {first index : Nat} {output : OsString} {artifact : Disk}
    (completed : (executePipeline setting pipeline environments inputs first
      disk).1[index]? = some (.completed output artifact)) :
    (∀ rest node, artifact.node rest = some node →
      Outside setting inputs (location setting output ++ rest) →
        Spared setting pipeline environments (inputs.drop (index + 1))
          (first + (index + 1)) (location setting output ++ rest) →
          (executePipeline setting pipeline environments inputs first
            disk).2.node (location setting output ++ rest) = some node) ∧
      (policy setting pipeline ≠ .overwrite → Outside setting inputs (location setting output) →
        disk.node (location setting output) = none) := by
  induction inputs generalizing first index disk with
  | nil => simp [executePipeline] at completed
  | cons input rest ih =>
    rcases executePipeline_cons environments input rest first disk with
      ⟨left, panicked, whole⟩ | whole
    · rw [whole] at completed
      cases index with
      | zero | succ index => simp at completed
    · rw [whole] at completed ⊢
      cases index with
      | zero =>
        have report := some.inj completed
        obtain ⟨_, _, left, found⟩ := completed_of_runOne report
        constructor
        · intro below node holds outside spared
          exact node_executePipeline (left below node holds (outside input mem_cons_self))
            (fun other mem => outside other (mem_cons_of_mem _ mem)) spared
        · intro kept outside
          exact found kept (outside input mem_cons_self)
      | succ index =>
        obtain ⟨left, found⟩ := ih completed
        constructor
        · intro below node holds outside spared
          refine left below node holds (fun other mem =>
            outside other (mem_cons_of_mem _ mem)) ?_
          have shift : first + 1 + (index + 1) = first + (index + 1 + 1) := by omega
          rw [shift]
          exact spared
        · intro kept outside
          have vacant := found kept (fun other mem =>
            outside other (mem_cons_of_mem _ mem))
          by_contra stood
          obtain ⟨node, stood⟩ := ne_none_iff_exists'.mp stood
          have stands : (runOne setting pipeline input (environments first)
              disk).2.node (location setting output) = some node :=
            node_runOne stood (outside input mem_cons_self) (fun overwrite => absurd overwrite kept)
          rw [stands] at vacant
          cases vacant

theorem completed_apart (kept : policy setting pipeline ≠ .overwrite) :
    (executePipeline setting pipeline environments inputs first
      disk).1.Pairwise fun earlier later =>
        ∀ firstOutput firstArtifact secondOutput secondArtifact,
          earlier = .completed firstOutput firstArtifact →
            later = .completed secondOutput secondArtifact →
              Outside setting inputs (location setting firstOutput) → location setting firstOutput ≠
                location setting secondOutput := by
  induction inputs generalizing first disk with
  | nil => exact List.Pairwise.nil
  | cons input rest ih =>
    rcases executePipeline_cons environments input rest first disk with
      ⟨left, panicked, whole⟩ | whole
    · rw [whole]
      exact pairwise_singleton _ _
    · rw [whole]
      refine List.Pairwise.cons ?_ ?_
      · rintro later mem firstOutput firstArtifact secondOutput
          secondArtifact report rfl outside same
        obtain ⟨_, rooted, left, _⟩ := completed_of_runOne report
        obtain ⟨node, root⟩ := ne_none_iff_exists'.mp rooted
        have stands := left [] node root (by
          rw [append_nil]
          exact outside input mem_cons_self)
        obtain ⟨_, listed⟩ := mem_iff_getElem?.mp mem
        have vacant := (completed_of_executePipeline listed).2 kept (by
          rw [← same]
          exact fun other tail => outside other (mem_cons_of_mem _ tail))
        rw [← same, ← append_nil (location setting firstOutput), stands] at vacant
        cases vacant
      · refine ih.imp ?_
        intro earlier later apart firstOutput firstArtifact secondOutput
          secondArtifact firstReport secondReport outside
        exact apart firstOutput firstArtifact secondOutput secondArtifact
          firstReport secondReport (fun other mem =>
            outside other (mem_cons_of_mem _ mem))

/-- Completed outputs have their own places and keep their artifacts; nothing else changes
but what `Overwrite` replaces. -/
theorem batch_keeps_outputs_and_inputs (setting : Setting) (pipeline : Pipeline)
    (environments : Nat → RunEnvironment Hash) (inputs : List OsString) (disk : Disk) :
    (policy setting pipeline ≠ .overwrite → (executePipeline setting pipeline environments inputs 0
      disk).1.Pairwise fun earlier later =>
        ∀ firstOutput firstArtifact secondOutput secondArtifact,
          earlier = .completed firstOutput firstArtifact →
            later = .completed secondOutput secondArtifact →
              Outside setting inputs (location setting firstOutput) →
                location setting firstOutput ≠ location setting secondOutput) ∧
      (∀ index output artifact, (executePipeline setting pipeline environments inputs 0
        disk).1[index]? = some (.completed output artifact) →
          ∀ rest node, artifact.node rest = some node →
            Outside setting inputs (location setting output ++ rest) →
              Spared setting pipeline environments (inputs.drop (index + 1))
                (index + 1) (location setting output ++ rest) →
                (executePipeline setting pipeline environments inputs 0
                  disk).2.node (location setting output ++ rest) = some node) ∧
      ∀ place node, disk.node place = some node → Outside setting inputs place →
        Spared setting pipeline environments inputs 0 place →
          (executePipeline setting pipeline environments inputs 0
            disk).2.node place = some node := by
  refine ⟨completed_apart, ?_, ?_⟩
  · intro index output artifact completed rest node holds outside spared
    refine (completed_of_executePipeline completed).1 rest node holds outside ?_
    rwa [Nat.zero_add]
  · intro place node stood outside spared
    exact node_executePipeline stood outside spared

end

end

/-! ## Batches that lose a file -/

def Report.output : Report → Option OsString
  | .completed output _ => some output
  | .skipped _ | .failed | .panicked => none

def namesOf (path : OsString) : Location :=
  (components path).filterMap fun
    | .normal name => some name
    | _ => none

/-- A batch on a disk without links, with a temporary directory of its own. -/
def plainSetting : Setting where
  naming := stemNaming
  pid := 7
  tempRoot := [ofStr "tmp".toList]
  place := namesOf
  defaultCollisionPolicy := none

/-- A run in which every call succeeds and an archive of some bytes is packed. -/
def plainRun (bytes : List UInt8) : RunEnvironment (Option Hashable) where
  hashFails := false
  metadata := none
  completed := none
  createWorkFails := false
  workTree := .single .directory
  stepsFail := false
  stageFails := false
  rootName := ofStr ".staged".toList
  packed := some bytes
  copied := none
  commit := {
    check := false
    renameExisting := false
    promote := false
    rollback := false
    removal := .removed }
  workLeft := .empty

def twoFiles (directory first second : String) : Disk :=
  ((empty.createDirAll .directory [ofStr directory.toList]).graft
    [ofStr directory.toList, ofStr first.toList] (.single (.file [1]))).graft
      [ofStr directory.toList, ofStr second.toList] (.single (.file [2]))

def besideInputs (chosen : OutputCollisionPolicy) : Pipeline :=
  { flattenTo .archive with collisionPolicy := some chosen }

/-- A batch that leaves its first archive where its second run works. -/
def intoWorkDirectory : Pipeline :=
  { flattenTo .archive with
    output := .newFolder (ofStr "/tmp/arclain_pipeline_7_b.rar".toList)
    collisionPolicy := some .fail }

def runTwo (pipeline : Pipeline) (first second : String) (disk : Disk) : List Report × Disk :=
  executePipeline plainSetting pipeline (fun index => plainRun [UInt8.ofNat (index + 11)])
    [ofStr first.toList, ofStr second.toList] 0 disk

/-- Under `Smart` two archives of different names are both made. -/
example : (runTwo (besideInputs .smart) "/d/a.rar" "/d/b.rar"
    (twoFiles "d" "a.rar" "b.rar")).1.map Report.output =
      [some (ofStr "/d/a.zip".toList), some (ofStr "/d/b.zip".toList)] := by
  decide +kernel

/-- Under `Overwrite` two inputs of one stem share an output, which replaces the second;
under `Fail` an output goes with a work directory. -/
theorem batch_loses_output_and_input : ((runTwo (besideInputs .overwrite) "/d/a.rar" "/d/a.zip"
    (twoFiles "d" "a.rar" "a.zip")).1.map Report.output =
      [some (ofStr "/d/a.zip".toList), some (ofStr "/d/a.zip".toList)] ∧
      (twoFiles "d" "a.rar" "a.zip").node (namesOf (ofStr "/d/a.zip".toList)) = some (.file [2]) ∧
      (runOne plainSetting (besideInputs .overwrite) (ofStr "/d/a.rar".toList) (plainRun [11])
        (twoFiles "d" "a.rar" "a.zip")).2.node
          (namesOf (ofStr "/d/a.zip".toList)) = some (.file [11]) ∧
      (runTwo (besideInputs .overwrite) "/d/a.rar" "/d/a.zip" (twoFiles "d" "a.rar" "a.zip")).2.node
        (namesOf (ofStr "/d/a.zip".toList)) = some (.file [12])) ∧
      (runTwo intoWorkDirectory "/d/a.rar" "/d/b.rar"
        (twoFiles "d" "a.rar" "b.rar")).1.map Report.output =
        [some (ofStr "/tmp/arclain_pipeline_7_b.rar/a.zip".toList),
          some (ofStr "/tmp/arclain_pipeline_7_b.rar/b.zip".toList)] ∧
      (runTwo intoWorkDirectory "/d/a.rar" "/d/b.rar" (twoFiles "d" "a.rar" "b.rar")).2.node
        (namesOf (ofStr "/tmp/arclain_pipeline_7_b.rar/a.zip".toList)) = none := by
  refine ⟨⟨?_, ?_, ?_, ?_⟩, ?_, ?_⟩
  all_goals decide +kernel

end Arclain.PipelineBatch
