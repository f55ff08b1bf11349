import Arclain.CheckedRelativePath
import Arclain.Fallible
import Arclain.KeyedMap

namespace Arclain

/-!
# Organization plans

Everything one run of a rule will produce: per output the files moved into it,
the files written into it and the images fetched into it.  `validatePaths` is
the boundary every plan crosses before it reaches the file system.
-/

open List Text Fallible CheckedRelativePath Collects

abbrev Variables := KeyedMap Str Str

/-- A pending download with its cache information. -/
structure PendingDownload where
  productId : Option Str
  url : Str
  destPath : Str
  cacheKey : Str
  cached : Bool

/-- One output of an organized archive, filled in. -/
structure PlannedOutput where
  rootFolder : Str
  rootFolderTemplate : Str
  moves : List (Str × Str)
  generatedFiles : List (Str × Str)
  downloads : List PendingDownload
  resolvedVariables : Variables
  reasoning : List Str

/-- Everything one run of a rule will produce. -/
structure OrganizationPlan where
  ruleName : Str
  outputs : List PlannedOutput
  skippedOutputs : List (Str × Str)

/-- Why a plan could not be built. Cutting a title inside a character unwinds. -/
inductive PlanError where
  | noRootFolder (index outputs : Nat)
  | invalidRootFolder (cause : PathError)
  | invalidMoveSource (source : Str) (cause : PathError)
  | invalidMoveDestination (destination : Str) (cause : PathError)
  | invalidGeneratedFilePath (path : Str) (cause : PathError)
  | invalidDownloadPath (path : Str) (cause : PathError)
  | duplicateDestination (path : Str)
  | notAModInfoKey (asName key : Str)
  | outputsWithoutName (roots : Nat)
  | unnamedOutput (outputs : Nat)
  | sameName (name : Str)
  | mergeableNames (first second : Str)
  | nestedRoots (root ancestor : Str)
  | unreachablePlacements (index after : Nat)
  | sameDestination (destination : Str)
  | mergeableDestinations (first second : Str)
  | truncateInsideCharacter
  | pathValidation (cause : PlanError)
  deriving DecidableEq

namespace PlannedOutput

/-- `StagedContent::stages_nothing`: no file, no document, no image. -/
def stagesNothing (output : PlannedOutput) : Bool :=
  (output.moves.length, output.generatedFiles.length, output.downloads.length) = (0, 0, 0)

def sources (output : PlannedOutput) : List Str := output.moves.map Prod.fst

def destinations (output : PlannedOutput) : List Str :=
  output.moves.map Prod.snd ++ (output.generatedFiles.map Prod.fst ++
    output.downloads.map PendingDownload.destPath)

end PlannedOutput

namespace OrganizationPlan

def destinations (plan : OrganizationPlan) : List Str :=
  plan.outputs.flatMap PlannedOutput.destinations

section

variable [CharTables]

def collisionKey (path : CheckedRelativePath) : Str := uppercase (forwardSlashes path.path)

/-- Check one destination and enter its key into the pooled set. -/
def validateDestination (invalid : PathError → PlanError) (taken : List Str)
    (destination : Str) : Except PlanError (List Str) := do
  let checked ← (new destination).mapError invalid
  if collisionKey checked ∈ taken then .error (.duplicateDestination checked.path)
  else .ok (collisionKey checked :: taken)

def validateMove (taken : List Str) (move : Str × Str) : Except PlanError (List Str) := do
  let _ ← (new move.1).mapError (PlanError.invalidMoveSource move.1)
  validateDestination (.invalidMoveDestination move.2) taken move.2

def validateGenerated (taken : List Str) (generated : Str × Str) : Except PlanError (List Str) :=
  validateDestination (.invalidGeneratedFilePath generated.1) taken generated.1

def validateDownload (taken : List Str)
    (download : PendingDownload) : Except PlanError (List Str) :=
  validateDestination (.invalidDownloadPath download.destPath) taken
    download.destPath

def validateRootFolder (outputs index : Nat) (rootFolder : Str) : Except PlanError Unit :=
  if rootFolder = [] then
    if outputs > 1 then .error (.noRootFolder index outputs)
    else .ok ()
  else (new rootFolder).mapError .invalidRootFolder >>= fun _ => .ok ()

def validateOutput (outputs : Nat) (taken : List Str)
    (output : PlannedOutput × Nat) : Except PlanError (List Str) := do
  validateRootFolder outputs output.2 output.1.rootFolder
  let taken ← output.1.moves.foldlM validateMove taken
  let taken ← output.1.generatedFiles.foldlM validateGenerated taken
  output.1.downloads.foldlM validateDownload taken

def validatePaths (plan : OrganizationPlan) : Except PlanError Unit := do
  let _ ← plan.outputs.zipIdx.foldlM (validateOutput plan.outputs.length) []
  .ok ()

def foldedComponents (destination : Str) : List Str :=
  ((forwardSlashes destination).splitOn '/').map uppercase

def destinationKey (destination : Str) : Str := uppercase (forwardSlashes destination)

theorem join_foldedComponents (destination : Str) :
    join ['/'] (foldedComponents destination) = destinationKey destination := by
  rw [foldedComponents, ← uppercase_join, join, intercalate_splitOn]
  rfl

theorem splitOn_destinationKey (destination : Str) : (destinationKey destination).splitOn '/' =
    foldedComponents destination := by
  rw [← join_foldedComponents, join, splitOn_intercalate]
  · intro _ mem
    obtain ⟨_, pieceMember, rfl⟩ := mem_map.mp mem
    exact slash_notMem_uppercase (notMem_of_mem_splitOn pieceMember)
  · simp [foldedComponents]

theorem foldedComponents_eq_iff {first second : Str} :
    foldedComponents first = foldedComponents second ↔
      destinationKey first = destinationKey second := by
  constructor
  · intro same
    rw [← join_foldedComponents, ← join_foldedComponents, same]
  · intro same
    rw [← splitOn_destinationKey, ← splitOn_destinationKey, same]

variable {destination : Str}

theorem collisionKey_of_new {checked : CheckedRelativePath}
    (accepted : new destination = .ok checked) :
    collisionKey checked = destinationKey destination := by
  rw [collisionKey, path_of_new accepted, forwardSlashes_idem, destinationKey]

variable {taken next : List Str}

theorem collects_of_validateDestination {invalid : PathError → PlanError}
    (accepted : validateDestination invalid taken destination = .ok next) :
    Collects [destinationKey destination] taken next := by
  obtain ⟨_, parsed, entered⟩ := bind_eq_ok.mp accepted
  have key := collisionKey_of_new (mapError_eq_ok.mp parsed)
  obtain ⟨fresh, rfl⟩ := guard_eq_ok.mp entered
  rw [key] at fresh ⊢
  exact single fresh

theorem collects_of_validateOutput {outputs : Nat}
    {output : PlannedOutput × Nat} (accepted : validateOutput outputs taken output = .ok next) :
    Collects (output.1.destinations.map destinationKey) taken next := by
  obtain ⟨-, -, accepted⟩ := bind_eq_ok.mp accepted
  obtain ⟨_, moved, accepted⟩ := bind_eq_ok.mp accepted
  obtain ⟨_, generated, downloaded⟩ := bind_eq_ok.mp accepted
  have moves :=
    foldlM_single id (fun move : Str × Str => destinationKey move.2) (fun _ step => by
      obtain ⟨-, -, entered⟩ := bind_eq_ok.mp step
      exact collects_of_validateDestination entered)
      moved
  have files :=
    foldlM_single id (fun file : Str × Str => destinationKey file.1)
      (fun _ => collects_of_validateDestination)
      generated
  have images :=
    foldlM_single id (fun download : PendingDownload => destinationKey download.destPath)
      (fun _ => collects_of_validateDestination)
      downloaded
  have all := moves.append (files.append images)
  simpa [PlannedOutput.destinations, Function.comp_def] using all

variable {plan : OrganizationPlan}

theorem nodup_destinationKey (accepted : validatePaths plan = .ok ()) :
    (plan.destinations.map destinationKey).Nodup := by
  obtain ⟨_, looped, -⟩ := bind_eq_ok.mp accepted
  have collected :=
    Collects.foldlM id (fun output : PlannedOutput × Nat =>
      output.1.destinations.map destinationKey)
      (fun _ => collects_of_validateOutput)
      looped
  have outputs : plan.outputs.zipIdx.flatMap
      (fun output => output.1.destinations.map destinationKey) =
        plan.destinations.map destinationKey := by
    rw [destinations, map_flatMap]
    conv_rhs => rw [← zipIdx_map_fst 0 plan.outputs, flatMap_map]
  rw [← outputs]
  exact collected.nodup

theorem rootFolder_of_validatePaths
    (accepted : validatePaths plan = .ok ()) (several : plan.outputs.length > 1)
    {output : PlannedOutput} (mem : output ∈ plan.outputs) :
    ∃ checked, new output.rootFolder = .ok checked := by
  obtain ⟨_, looped, -⟩ := bind_eq_ok.mp accepted
  obtain ⟨index, bound, rfl⟩ := getElem_of_mem mem
  have numbered : (plan.outputs[index], index) ∈ plan.outputs.zipIdx := by
    rw [mem_zipIdx_iff_getElem?]
    exact List.getElem?_eq_getElem bound
  obtain ⟨_, _, step⟩ := exists_of_foldlM looped numbered
  obtain ⟨⟨⟩, rootAccepted, -⟩ := bind_eq_ok.mp step
  simp only [validateRootFolder, several, ↓reduceIte] at rootAccepted
  split at rootAccepted
  · simp at rootAccepted
  · obtain ⟨checked, parsed, -⟩ := bind_eq_ok.mp rootAccepted
    exact ⟨checked, mapError_eq_ok.mp parsed⟩

/-- No two destinations of an accepted plan are equal, whatever their case and
whichever separators they are written with. -/
theorem nodup_foldedComponents {plan : OrganizationPlan} (accepted : validatePaths plan = .ok ()) :
    (plan.destinations.map foldedComponents).Nodup := by
  have distinct := nodup_destinationKey accepted
  have keys : plan.destinations.map destinationKey =
      (plan.destinations.map foldedComponents).map (join ['/']) := by
    rw [map_map]
    exact map_congr_left fun destination _ => (join_foldedComponents destination).symm
  rw [keys] at distinct
  exact distinct.of_map

/-- The destinations can all be files of one tree: they are all different and
none of them is a folder another one lies in. -/
def Realisable (plan : OrganizationPlan) : Prop :=
  (plan.destinations.map foldedComponents).Nodup ∧
    ∀ first ∈ plan.destinations, ∀ second ∈ plan.destinations,
      foldedComponents first <+: foldedComponents second →
      foldedComponents first = foldedComponents second

end

def ofMoves (rootFolder : Str) (moves : List (Str × Str)) : OrganizationPlan where
  ruleName := []
  outputs :=
    [{ rootFolder := rootFolder
       rootFolderTemplate := rootFolder
       moves := moves
       generatedFiles := []
       downloads := []
       resolvedVariables := ∅
       reasoning := [] }]
  skippedOutputs := []

/-- An accepted plan of two files in one folder. -/
theorem nodup_foldedComponents_of_two_files : @validatePaths asciiTables (ofMoves "out".toList
    [("a".toList, "out/a".toList), ("b".toList, "out/B".toList)]) = .ok () ∧ ((ofMoves "out".toList
      [("a".toList, "out/a".toList), ("b".toList, "out/B".toList)]).destinations.map
        (@foldedComponents asciiTables)).Nodup :=
  have accepted : @validatePaths asciiTables (ofMoves "out".toList
      [("a".toList, "out/a".toList), ("b".toList, "out/B".toList)]) = .ok () := by
    decide
  ⟨accepted, @nodup_foldedComponents asciiTables _ accepted⟩

/-- A file is accepted where another destination needs a folder. -/
theorem file_accepted_at_folder : ¬ ∀ plan, @validatePaths asciiTables plan = .ok () →
    @Realisable asciiTables plan := by
  intro claimed
  have realisable :=
    claimed (ofMoves "out".toList [("a".toList, "out/a".toList), ("b".toList, "out/a/b".toList)])
      (by decide)
  have same := realisable.2 "out/a".toList (by decide) "out/a/b".toList (by decide) (by decide)
  exact absurd same (by decide)

end OrganizationPlan

end Arclain
