import Arclain.ApplyPlanSwap
import Arclain.OrganizationPlan
import Arclain.PathStore

namespace Arclain.ApplyPlan

/-!
# What applying a plan leaves

Staging copies every move's source into an empty directory and writes the generated files
there; the swap then puts what was staged in the place of the work directory's entries.

A directory lists its entries in the order of their names.
-/

open KeyedMap List FileStore PathStore Text CheckedRelativePath PlannedOutput

mutual

/-- What stands at a path of the work directory. -/
inductive Node where
  | file (content : ByteArray)
  | directory (entries : Entries)
  | symlink
  | special

inductive Entries where
  | nil
  | cons (name : Str) (node : Node) (rest : Entries)

end

namespace Entries

def find : Entries → Str → Option Node
  | .nil, _ => none
  | .cons known node rest, name => if known = name then some node else rest.find name

def names : Entries → List Str
  | .nil => []
  | .cons name _ rest => name :: rest.names

end Entries

def nodeAt : Node → List Str → Option Node
  | node, [] => some node
  | .directory entries, name :: rest => (entries.find name).bind fun child => nodeAt child rest
  | _, _ :: _ => none

inductive StageError where
  | path (error : PathError)
  | traversesSymlink
  | parentNotADirectory
  | sourceNotRegular
  | output (refusal : Refusal)

/-- `CheckedRelativePath::resolve_under`: what stands at a path below a node, which may not
lead through a symlink or a file, nor end at a symlink. -/
def resolveUnder : Node → List Str → Except StageError (Option Node)
  | node, [] => .ok (some node)
  | .directory entries, name :: rest =>
    match entries.find name with
    | none => .ok none
    | some .symlink => .error .traversesSymlink
    | some child => resolveUnder child rest
  | _, _ :: _ => .error .parentNotADirectory

abbrev Staging := Tree Str ByteArray

/-- The path of a directory's entry, under the path of the directory. -/
def childDestination (destination : CheckedRelativePath)
    (name : Str) : Except StageError CheckedRelativePath :=
  (new (destination.path ++ '/' :: name)).mapError .path

mutual

def copyPlanSource (staging : Staging) (destination : CheckedRelativePath) :
    Node → Except StageError Staging
  | .symlink => .error .traversesSymlink
  | .special => .error .sourceNotRegular
  | .file content => (writeNew staging destination.components content).mapError .output
  | .directory entries =>
    (createDirAll staging destination.components).mapError .output >>=
      fun staging => copyEntries staging destination entries

/-- The loop of `copy_plan_source` over the entries of a directory. -/
def copyEntries (staging : Staging) (destination : CheckedRelativePath) :
    Entries → Except StageError Staging
  | .nil => .ok staging
  | .cons name node rest =>
    childDestination destination name >>= fun child =>
      copyPlanSource staging child node >>= fun staging => copyEntries staging destination rest

end

def stageMove (work : Entries) (staging : Staging)
    (move : CheckedRelativePath × CheckedRelativePath) : Except StageError Staging :=
  resolveUnder (.directory work) move.1.components >>= fun source =>
    match source with
    | none => .ok staging
    | some node => copyPlanSource staging move.2 node

/-- `persist_plan_output` of a generated file. -/
def stageGenerated (staging : Staging)
    (generated : CheckedRelativePath × Str) : Except StageError Staging :=
  (writeNew staging generated.1.components (String.ofList generated.2).toUTF8).mapError .output

def plannedMoves (plan : OrganizationPlan) : List (Str × Str) :=
  plan.outputs.flatMap moves

def plannedGenerated (plan : OrganizationPlan) : List (Str × Str) :=
  plan.outputs.flatMap generatedFiles

def plannedDownloads (plan : OrganizationPlan) : List PendingDownload :=
  plan.outputs.flatMap downloads

def checkPath (text : Str) : Except StageError CheckedRelativePath :=
  (new text).mapError .path

def checkMove (move : Str × Str) : Except StageError (CheckedRelativePath × CheckedRelativePath) :=
  checkPath move.1 >>= fun source =>
    checkPath move.2 >>= fun destination => .ok (source, destination)

def checkGenerated (generated : Str × Str) : Except StageError (CheckedRelativePath × Str) :=
  checkPath generated.1 >>= fun path => .ok (path, generated.2)

/-- Check a path and that nothing on the way to it is in its way. -/
def checkUnder (work : Entries) (text : Str) : Except StageError Unit :=
  checkPath text >>= fun path => resolveUnder (.directory work) path.components >>= fun _ => .ok ()

/-- The paths that are resolved first: root folders, moves, generated files and downloads. -/
def planPaths (plan : OrganizationPlan) : List Str :=
  (plan.outputs.map rootFolder).filter (fun root => root ≠ []) ++
    (plannedMoves plan).flatMap (fun move => [move.1, move.2]) ++
    (plannedGenerated plan).map Prod.fst ++
    (plannedDownloads plan).map PendingDownload.destPath

/-- Build the complete new layout in an empty directory. -/
def stageLayout (work : Entries) (plan : OrganizationPlan) : Except StageError Staging :=
  (plannedMoves plan).mapM checkMove >>= fun moves =>
    (plannedGenerated plan).mapM checkGenerated >>= fun generated =>
      moves.foldlM (stageMove work) ∅ >>= fun staging => generated.foldlM stageGenerated staging

/-! ## The whole call -/

/-- What stands at and below a top-level entry. -/
abbrev Subtree := Store (List Str) (Leaf ByteArray)

def isDirectory (subtree : Subtree) : Bool :=
  match subtree [] with
  | some .directory => true
  | _ => false

/-- What a node is to the layout; a symlink or a special file is in it, but no
file of it. -/
def Node.leaf : Node → Option (Leaf ByteArray)
  | .file content => some (.file content)
  | .directory _ => some .directory
  | .symlink | .special => none

def topLevel (names : List Str) (subtree : Str → Subtree) : KeyedMap Str Subtree :=
  (Text.sortedSet names).foldr (fun name entries => entries.insert name (subtree name)) ∅

def originalEntries (work : Entries) : KeyedMap Str Subtree :=
  topLevel work.names fun name rest => (nodeAt (.directory work) (name :: rest)).bind Node.leaf

def stagedEntries (staging : Staging) : KeyedMap Str Subtree :=
  topLevel (staging.keys.filterMap List.head?) fun name rest => staging.lookup (name :: rest)

structure Environment where
  precheckFails : Bool
  stagingFails : Bool
  faults : Faults Str

/-- A top-level name with a backslash is looked for in a folder, and its rename fails. -/
def Environment.swapFaults (environment : Environment) (names : List Str) : Faults Str :=
  { environment.faults with
    backup := fun index =>
      let faults := environment.faults.backup index
      if (names[index]?.getD []).contains '\\' then
        { faults with move := { faults.move with rename := .fails } }
      else faults }

def staged (environment : Environment) (work : Entries) (plan : OrganizationPlan) :
    Except StagingError (KeyedMap Str Subtree) :=
  if environment.stagingFails then .error .building
  else
    match stageLayout work plan with
    | .error _ => .error .building
    | .ok staging =>
      let entries := stagedEntries staging
      if (work.names ++ entries.keys).all fun name =>
        (new name).isOk then
        .ok entries
      else .error .building

inductive ApplyPlanError where
  | invalid (error : PlanError)
  | unresolved
  | transaction (error : ApplyError Str)

/-- How applying a plan ended, and what stands in the work directory then. -/
structure Applied where
  outcome : Except ApplyPlanError Outcome
  layout : Subtree

/-- What stands in the work directory among the transaction's directories. -/
def layoutOf (store : Store (Directory × Str) Subtree) : Subtree
  | [] => some .directory
  | name :: rest => (store (.work, name)).bind fun subtree => subtree rest

def applyPlanToWorkdir [CharTables] (environment : Environment) (work : Entries)
    (plan : OrganizationPlan) : Applied :=
  let originals := originalEntries work
  let untouched := layoutOf (initialStore originals ∅)
  match plan.validatePaths with
  | .error error => { outcome := .error (.invalid error), layout := untouched }
  | .ok () =>
    match environment.precheckFails, (planPaths plan).mapM (checkUnder work) with
    | false, .ok _ =>
      let result :=
        applyPlanTransaction isDirectory (environment.swapFaults originals.keys) originals
          (staged environment work plan)
      { outcome := result.outcome.mapError .transaction
        layout := layoutOf result.store }
    | _, _ => { outcome := .error .unresolved, layout := untouched }

/-! ## What a plan asks for -/

/-- The components a text names, its backslashes read as separators. -/
def pathComponents (text : Str) : List Str := (Text.forwardSlashes text).splitOn '/'

mutual

/-- What a source becomes at a destination: itself, and everything below it. -/
def Node.outputs (destination : List Str) : Node → List (List Str × Leaf ByteArray)
  | .file content => [(destination, .file content)]
  | .directory entries => (destination, .directory) :: entries.outputs destination
  | .symlink | .special => []

def Entries.outputs (destination : List Str) : Entries → List (List Str × Leaf ByteArray)
  | .nil => []
  | .cons name node rest =>
    node.outputs (destination ++ pathComponents name) ++ rest.outputs destination

end

/-- What a move asks for: its source, as it stood, at its destination. -/
def moveOutputs (work : Entries) (move : Str × Str) : List (List Str × Leaf ByteArray) :=
  match nodeAt (.directory work) (pathComponents move.1) with
  | none => []
  | some node => node.outputs (pathComponents move.2)

def generatedOutput (generated : Str × Str) : List Str × Leaf ByteArray :=
  (pathComponents generated.1, .file (String.ofList generated.2).toUTF8)

def plannedOutputs (work : Entries) (plan : OrganizationPlan) : List (List Str × Leaf ByteArray) :=
  (plannedMoves plan).flatMap (moveOutputs work) ++ (plannedGenerated plan).map generatedOutput

/-! ## Paths of the plan -/

theorem components_of_new {text : Str} {checked : CheckedRelativePath}
    (accepted : new text = .ok checked) :
    checked.components = pathComponents text := by
  rw [components, path_of_new accepted, pathComponents]

variable (checked : CheckedRelativePath)

theorem backslash_notMem : '\\' ∉ checked.path := by
  have clean : checked.components.all (fun piece => piece.all (· ≠ '\\')) = true := by
    refine all_eq_true.mpr fun component mem => ?_
    refine all_eq_true.mpr fun char within => ?_
    have portable := checked.portable component mem []
    by_contra backslash
    obtain rfl : char = '\\' := by simpa using backslash
    have reserved : component.any (fun char =>
      isControl char || decide (char ∈ reservedCharacters)) = true :=
      any_eq_true.mpr ⟨'\\', within, by decide⟩
    unfold componentFault at portable
    split at portable
    · cases portable
    · simp [reserved] at portable
  rw [components, all_splitOn (· ≠ '\\') (by decide)] at clean
  intro mem
  simpa using all_eq_true.mp clean _ mem

theorem components_of_childDestination {destination child : CheckedRelativePath} {name : Str}
    (accepted : childDestination destination name = .ok child) :
    child.components = destination.components ++ pathComponents name := by
  have joined : pathComponents (destination.path ++ '/' :: name) =
      pathComponents destination.path ++ pathComponents name := by
    simp only [pathComponents, forwardSlashes, replaceChar, map_append, map_cons]
    exact splitOn_append_cons_self _ _
  rw [components_of_new (Fallible.mapError_eq_ok.mp accepted), joined,
    components, pathComponents,
    forwardSlashes_eq_self (backslash_notMem destination)]

theorem components_ne_nil : checked.components ≠ [] :=
  splitOn_ne_nil _ _

/-! ## What staging makes -/

theorem nodeAt_of_resolveUnder {path : List Str} {node : Node} {found : Option Node}
    (resolved : resolveUnder node path = .ok found) : nodeAt node path = found := by
  induction path generalizing node with
  | nil => cases node <;> exact Except.ok.inj resolved
  | cons _ _ ih =>
    cases node with
    | directory =>
      simp only [resolveUnder] at resolved
      simp only [nodeAt]
      split at resolved
      next missing =>
        rw [missing]
        exact Except.ok.inj resolved
      · cases resolved
      next present =>
        rw [present]
        exact ih resolved
    | file | symlink | special => cases resolved

mutual

theorem copyPlanSource_represents {staging next : Staging} {made : List (List Str × Leaf ByteArray)}
    {destination : CheckedRelativePath} (represents : Represents staging made) :
    (node : Node) → copyPlanSource staging destination node = .ok next →
      Represents next (made ++ node.outputs destination.components)
  | .symlink, copied | .special, copied => by cases copied
  | .file content, copied => by
    exact represents.writeNew (components_ne_nil destination) (Fallible.mapError_eq_ok.mp copied)
  | .directory entries, copied => by
    obtain ⟨_, created, entered⟩ := Fallible.bind_eq_ok.mp copied
    have directory := represents.createDirAll (components_ne_nil destination)
      (Fallible.mapError_eq_ok.mp created)
    have whole := copyEntries_represents directory entries entered
    rwa [append_assoc] at whole

theorem copyEntries_represents {staging next : Staging} {made : List (List Str × Leaf ByteArray)}
    {destination : CheckedRelativePath} (represents : Represents staging made) :
    (entries : Entries) → copyEntries staging destination entries = .ok next →
      Represents next (made ++ entries.outputs destination.components)
  | .nil, copied => by
    obtain rfl := Except.ok.inj copied
    simpa [Entries.outputs] using represents
  | .cons name node rest, copied => by
    obtain ⟨_, named, copied⟩ := Fallible.bind_eq_ok.mp copied
    obtain ⟨_, first, others⟩ := Fallible.bind_eq_ok.mp copied
    have withFirst := copyPlanSource_represents represents node first
    have whole := copyEntries_represents withFirst rest others
    rw [append_assoc, components_of_childDestination named] at whole
    exact whole

end

variable {staging next : Staging} {made : List (List Str × Leaf ByteArray)}

theorem stageMove_represents {work : Entries} {text : Str × Str}
    {checked : CheckedRelativePath × CheckedRelativePath} (represents : Represents staging made)
    (accepted : checkMove text = .ok checked) (moved : stageMove work staging checked = .ok next) :
    Represents next (made ++ moveOutputs work text) := by
  obtain ⟨_, sourceChecked, accepted⟩ := Fallible.bind_eq_ok.mp accepted
  obtain ⟨_, destinationChecked, accepted⟩ := Fallible.bind_eq_ok.mp accepted
  obtain rfl := Except.ok.inj accepted
  obtain ⟨found, resolved, copied⟩ := Fallible.bind_eq_ok.mp moved
  have stands := nodeAt_of_resolveUnder resolved
  rw [components_of_new (Fallible.mapError_eq_ok.mp sourceChecked)] at stands
  unfold moveOutputs
  rw [stands]
  cases found with
  | none =>
    obtain rfl := Except.ok.inj copied
    simpa using represents
  | some node =>
    have made := copyPlanSource_represents represents node copied
    rwa [components_of_new (Fallible.mapError_eq_ok.mp destinationChecked)] at made

theorem stageGenerated_represents {generated : Str × Str} {checked : CheckedRelativePath × Str}
    (represents : Represents staging made) (accepted : checkGenerated generated = .ok checked)
    (written : stageGenerated staging checked = .ok next) :
    Represents next (made ++ [generatedOutput generated]) := by
  obtain ⟨path, pathChecked, accepted⟩ := Fallible.bind_eq_ok.mp accepted
  obtain rfl := Except.ok.inj accepted
  have file := represents.writeNew (components_ne_nil path) (Fallible.mapError_eq_ok.mp written)
  rwa [components_of_new (Fallible.mapError_eq_ok.mp pathChecked)] at file

theorem foldlM_represents {Text Checked : Type} {check : Text → Except StageError Checked}
    {stage : Staging → Checked → Except StageError Staging}
    (outputs : Text → List (List Str × Leaf ByteArray)) (makes : ∀ {staging next made text checked},
      Represents staging made → check text = .ok checked → stage staging checked = .ok next →
        Represents next (made ++ outputs text))
    {texts : List Text} {checked : List Checked} (represents : Represents staging made)
    (accepted : texts.mapM check = .ok checked) (folded : checked.foldlM stage staging = .ok next) :
    Represents next (made ++ texts.flatMap outputs) := by
  induction texts generalizing checked staging made with
  | nil =>
    obtain rfl := Except.ok.inj accepted
    obtain rfl := Except.ok.inj folded
    simpa using represents
  | cons _ _ ih =>
    rw [mapM_cons] at accepted
    obtain ⟨_, firstAccepted, accepted⟩ := Fallible.bind_eq_ok.mp accepted
    obtain ⟨_, restAccepted, accepted⟩ := Fallible.bind_eq_ok.mp accepted
    obtain rfl := Except.ok.inj accepted
    obtain ⟨_, firstStaged, restStaged⟩ := Fallible.bind_eq_ok.mp folded
    have whole := ih (makes represents firstAccepted firstStaged) restAccepted restStaged
    rwa [append_assoc, ← flatMap_cons] at whole

theorem stageLayout_represents {work : Entries} {plan : OrganizationPlan}
    (built : stageLayout work plan = .ok staging) :
    Represents staging (plannedOutputs work plan) := by
  obtain ⟨_, movesChecked, built⟩ := Fallible.bind_eq_ok.mp built
  obtain ⟨generated, generatedChecked, built⟩ := Fallible.bind_eq_ok.mp built
  obtain ⟨_, moved, written⟩ := Fallible.bind_eq_ok.mp built
  have withMoves := foldlM_represents (moveOutputs work) (fun represents accepted staged =>
    stageMove_represents represents accepted staged)
    .empty movesChecked moved
  have whole := foldlM_represents (fun generated => [generatedOutput generated])
    stageGenerated_represents
    withMoves generatedChecked written
  rw [nil_append] at whole
  rwa [plannedOutputs, map_eq_flatMap]

/-! ## What the swap leaves -/

variable {Name Content : Type} {isDirectory : Content → Bool} {faults : Faults Name}

theorem swapLayout_store [DecidableEq Name] {originals staged : KeyedMap Name Content}
    (succeeded : (swapLayout isDirectory faults originals.keys staged.keys
      (initialStore originals staged)).result = .ok ()) :
    (swapLayout isDirectory faults originals.keys staged.keys
      (initialStore originals staged)).store =
      arranged originals staged originals.keys.toFinset staged.keys.toFinset := by
  have backups := @backups_ended _ _ _ isDirectory faults originals staged
  unfold swapLayout at succeeded ⊢
  generalize moveAll isDirectory faults.backup .work .backup originals.keys 0
    (initialStore originals staged) [] = backupMoves at backups succeeded ⊢
  cases backups with
  | refused shape allMoved judged | stranded shape allMoved judged => cases succeeded
  | completed =>
    have promotions := @promotions_ended _ _ _ isDirectory faults originals staged
    simp only at succeeded ⊢
    generalize moveAll isDirectory faults.promote .staging .work staged.keys 0
      (arranged originals staged originals.keys.toFinset ∅) [] =
        promoteMoves at promotions succeeded ⊢
    cases promotions with
    | refused shape allMoved judged | stranded shape allMoved judged => cases succeeded
    | completed => rfl

theorem commitLayout_work (faults : Faults Name) (store : Store (Directory × Name) Content)
    (name : Name) : (commitLayout faults store).store (.work, name) = store (.work, name) := by
  unfold commitLayout
  split
  · simp [removeDirectory]
  · simp [removeDirectory]

theorem work_of_applied [DecidableEq Name]
    {originals : KeyedMap Name Content} {staging : Except StagingError (KeyedMap Name Content)}
    {outcome : Outcome}
    (applied : (applyPlanTransaction isDirectory faults originals staging).outcome = .ok outcome) :
    ∃ staged, staging = .ok staged ∧ ∀ name,
      (applyPlanTransaction isDirectory faults originals staging).store (.work, name) =
        staged.lookup name := by
  cases staging with
  | error =>
    simp only [applyPlanTransaction] at applied
    split at applied <;> cases applied
  | ok staged =>
    refine ⟨staged, rfl, fun name => ?_⟩
    simp only [applyPlanTransaction] at applied ⊢
    split at applied
    · simp only at applied
      split at applied <;> cases applied
    next something =>
      rw [if_neg something]
      split at applied
      next succeeded =>
        have store := swapLayout_store succeeded
        rw [commitLayout_work, store]
        simp only [arranged, mem_toFinset]
        split
        · rfl
        next unstaged =>
          have unbound := notMem_keys_iff.mp unstaged
          rw [unbound]
          split
          · rfl
          next noOriginal => exact notMem_keys_iff.mp noOriginal
      · simp only [abandonLayout] at applied
        split at applied
        · cases applied
        · simp only at applied
          split at applied <;> cases applied

theorem lookup_topLevel (names : List Str) (subtree : Str → Subtree) (name : Str) :
    (topLevel names subtree).lookup name =
      if name ∈ names then some (subtree name) else none := by
  have folded (listed : List Str) :
      (listed.foldr (fun name entries => entries.insert name (subtree name))
        (∅ : KeyedMap Str Subtree)).lookup name =
        if name ∈ listed then some (subtree name) else none := by
    induction listed with
    | nil => simp
    | cons first _ ih =>
      rw [foldr_cons, lookup_insert_ite, ih]
      by_cases same : name = first
      · simp [same]
      · simp [same]
  rw [topLevel, folded]
  simp only [mem_sortedSet]

theorem layoutOf_staged {store : Store (Directory × Str) Subtree}
    (placed : ∀ name, store (.work, name) = (stagedEntries staging).lookup name) {path : List Str}
    (present : path ≠ []) : layoutOf store path = staging.lookup path := by
  obtain ⟨name, rest, rfl⟩ := exists_cons_of_ne_nil present
  simp only [layoutOf, placed, stagedEntries, lookup_topLevel]
  split
  · rfl
  next unlisted =>
    cases stands : staging.lookup (name :: rest) with
    | none => rfl
    | some =>
      have mem : name :: rest ∈ staging.keys := by
        by_contra unbound
        rw [notMem_keys_iff.mp unbound] at stands
        cases stands
      exact (unlisted (mem_filterMap.mpr ⟨_, mem, rfl⟩)).elim

section

variable [CharTables] {environment : Environment} {work : Entries}
variable {plan : OrganizationPlan} {outcome : Outcome}

theorem exists_staging_of_applied (applied :
    (applyPlanToWorkdir environment work plan).outcome = .ok outcome) :
    ∃ staging, stageLayout work plan = .ok staging ∧ ∀ path, path ≠ [] →
      (applyPlanToWorkdir environment work plan).layout path = staging.lookup path := by
  unfold applyPlanToWorkdir at applied ⊢
  simp only at applied ⊢
  split at applied
  · cases applied
  · split at applied
    · obtain ⟨_, stagedOk, placed⟩ := work_of_applied (Fallible.mapError_eq_ok.mp applied)
      unfold staged at stagedOk
      split at stagedOk
      · cases stagedOk
      · split at stagedOk
        · cases stagedOk
        next staging built =>
          simp only at stagedOk
          split at stagedOk
          · obtain rfl := Except.ok.inj stagedOk
            exact ⟨staging, built, fun _ => layoutOf_staged placed⟩
          · cases stagedOk
    · cases applied

omit [CharTables] in
theorem mem_plannedOutputs_of_move {move : Str × Str} (planned : move ∈ plannedMoves plan)
    {content : ByteArray}
    (stood : nodeAt (.directory work) (pathComponents move.1) = some (.file content)) :
    (pathComponents move.2, .file content) ∈ plannedOutputs work plan := by
  refine mem_append_left _ (mem_flatMap.mpr ⟨move, planned, ?_⟩)
  simp [moveOutputs, stood, Node.outputs]

/-- An applied plan leaves what it asks for and the directories above it, and nothing else. -/
theorem applied_layout (applied :
    (applyPlanToWorkdir environment work plan).outcome = .ok outcome) :
    (∀ path leaf, path ≠ [] → ((applyPlanToWorkdir environment work plan).layout path = some leaf ↔
      (path, leaf) ∈ plannedOutputs work plan ∨ leaf = .directory ∧
        ∃ output ∈ plannedOutputs work plan, path <+: output.1 ∧ path ≠ output.1)) ∧
      (((plannedOutputs work plan).filter isFile).map Prod.fst).Nodup ∧
      (∀ move ∈ plannedMoves plan, ∀ content, nodeAt (.directory work) (pathComponents move.1) =
        some (.file content) → (applyPlanToWorkdir environment work plan).layout
          (pathComponents move.2) = some (.file content)) ∧
      ∀ generated ∈ plannedGenerated plan, (applyPlanToWorkdir environment work plan).layout
        (pathComponents generated.1) = some (.file (String.ofList generated.2).toUTF8) := by
  obtain ⟨_, built, left⟩ := exists_staging_of_applied applied
  have represents := stageLayout_represents built
  have holds : ∀ path leaf, path ≠ [] →
      ((applyPlanToWorkdir environment work plan).layout path = some leaf ↔
        (path, leaf) ∈ plannedOutputs work plan ∨ leaf = .directory ∧
          ∃ output ∈ plannedOutputs work plan, path <+: output.1 ∧ path ≠ output.1) := by
    intro path leaf present
    rw [left path present, represents.lookup_iff]
    simp [present]
  refine ⟨holds, represents.files, ?_, ?_⟩
  · intro move planned content stood
    exact (holds _ _ (splitOn_ne_nil _ _)).mpr (.inl (mem_plannedOutputs_of_move planned stood))
  · intro generated planned
    exact (holds _ _ (splitOn_ne_nil _ _)).mpr (.inl (mem_append_right _ (mem_map_of_mem planned)))

end

/-! ## A folder that is moved -/

def folderWork : Entries :=
  .cons ['d'] (.directory (.cons ['a'] (.file ⟨#[1]⟩) (.cons ['b'] (.file ⟨#[2]⟩) .nil))) .nil

def movesPlan (moves : List (Str × Str)) : OrganizationPlan where
  ruleName := []
  outputs := [{
    rootFolder := []
    rootFolderTemplate := []
    moves := moves
    generatedFiles := []
    downloads := []
    resolvedVariables := ∅
    reasoning := [] }]
  skippedOutputs := []

def folderPlan : OrganizationPlan := movesPlan [(['d'], "out".toList)]

def quietStep : StepFaults where
  hook := false
  resolveSource := false
  resolveTarget := false
  move := {
    inspectTarget := false
    rename := .succeeds
    inspectSource := false
    grantWrite := false
    retryRename := false
    restorePermissions := false }

def quietEnvironment : Environment where
  precheckFails := false
  stagingFails := false
  faults := {
    backup := fun _ => quietStep
    promote := fun _ => quietStep
    metadata := false
    revert := fun _ => { hook := false, move := quietStep.move }
    restore := fun _ => { hook := false, move := quietStep.move }
    closePrebackupStaging := false
    closeBackup := .removed
    closeStaging := .removed
    closeCommittedStaging := .removed
    closeCommittedBackup := .removed
    committedStagingExists := false
    committedBackupExists := false }

section

attribute [local instance] asciiTables

/-- One move of a folder leaves two files, and none at its destination. -/
theorem folder_moved_as_two_files :
    let applied := applyPlanToWorkdir quietEnvironment folderWork folderPlan
    applied.outcome.toOption = some .committed ∧
      applied.layout ["out".toList, ['a']] = some (.file ⟨#[1]⟩) ∧
      applied.layout ["out".toList, ['b']] = some (.file ⟨#[2]⟩) ∧
      applied.layout ["out".toList] = some .directory := by
  decide +kernel

/-- Two files that swap their names swap their bytes. -/
theorem swapped_files_applied :
    let work : Entries := .cons ['a'] (.file ⟨#[1]⟩) (.cons ['b'] (.file ⟨#[2]⟩) .nil)
    let plan := movesPlan [(['a'], ['b']), (['b'], ['a'])]
    (applyPlanToWorkdir quietEnvironment work plan).layout [['b']] = some (.file ⟨#[1]⟩) ∧
      (applyPlanToWorkdir quietEnvironment work plan).layout [['a']] = some (.file ⟨#[2]⟩) := by
  intro work plan
  have applied : (applyPlanToWorkdir quietEnvironment work plan).outcome = .ok .committed := rfl
  have moved := (applied_layout applied).2.2.1
  exact ⟨moved (['a'], ['b']) (by simp [plan, plannedMoves, movesPlan]) _ rfl,
    moved (['b'], ['a']) (by simp [plan, plannedMoves, movesPlan]) _ rfl⟩

end

end Arclain.ApplyPlan
