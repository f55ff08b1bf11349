import Arclain.PipelineTypes

namespace Arclain.Pipelines

/-!
# What the configuration hash determines

A finished run is remembered under the hash of its pipeline's configuration.  Two pipelines
with one hash plan the same run for every input only where they leave the same kind of
artifact, which the hash does not cover.
-/

open List Option OsPath Except Pipeline PipelineOutput

/-- What a pipeline sets out to do with one input. -/
structure RunPlan where
  outputPath : Except PlanError OsString
  outputArtifact : OutputArtifact
  steps : List PipelineStep
  policy : OutputCollisionPolicy

/-- What `run_one` reads off the pipeline and the input's metadata. -/
def Pipeline.plan (naming : Naming) (pipeline : Pipeline) (default : OutputCollisionPolicy)
    (input : OsString) (metadata : Option GameMetadata) : RunPlan where
  outputPath := pipeline.predictedOutputPath naming input metadata
  outputArtifact := pipeline.outputArtifact
  steps := pipeline.steps
  policy := pipeline.effectiveCollisionPolicy default

/-- Two plans that write the same path with the same kind of artifact, by the
same steps and under the same policy. -/
structure RunPlan.Agrees (first second : RunPlan) : Prop where
  outputPath : first.outputPath.map components = second.outputPath.map components
  outputArtifact : first.outputArtifact = second.outputArtifact
  steps : first.steps = second.steps
  policy : first.policy = second.policy

def PipelineOutput.samePlace : PipelineOutput → PipelineOutput → Bool
  | .sameFolder, .sameFolder => true
  | .newFolder first, .newFolder second => samePath first second
  | _, _ => false

/-- Two pipelines that agree in everything the hash is meant to cover. -/
def Pipeline.sameSettings (first second : Pipeline) : Bool :=
  first.steps = second.steps && first.collisionPolicy = second.collisionPolicy &&
    first.output.samePlace second.output

/-! ## Names that stay in their directory -/

theorem relative_of_plainFileComponent {candidate name : Str}
    (usable : plainFileComponent candidate = some name) : (ofStr name).head? ≠ some slash := by
  unfold plainFileComponent at usable
  split at usable
  · simp at usable
  next checked accepted =>
    split at usable
    · simp at usable
    · cases usable
      cases shape : Text.trim candidate with
      | nil => simp [ofStr]
      | cons first =>
        intro rooted
        obtain rfl : first = '/' := by simpa [ofStr, slash] using rooted
        have path := CheckedRelativePath.path_of_new accepted
        have leading : ([] : Str) ∈ checked.components := by
          rw [CheckedRelativePath.components, path, shape]
          simp [Text.forwardSlashes, Text.replaceChar, splitOn_cons_eq_if_modifyHead]
        exact (checked.component_ne leading).1 rfl

theorem slash_notMem_of_fileName {path name : OsString} (named : fileName path = some name) :
    slash ∉ name := by
  unfold fileName at named
  split at named
  next ending =>
    cases named
    have mem := mem_of_getLast? ending
    rw [components, mem_append] at mem
    cases mem with
    | inl marked =>
      unfold headComponents at marked
      split at marked
      · simp at marked
      · split at marked <;> simp at marked
    | inr listed =>
      obtain ⟨_, kept, shape⟩ := mem_map.mp listed
      unfold pieceComponent at shape
      split at shape
      · simp at shape
      · obtain rfl := Component.normal.inj shape
        exact Text.notMem_of_mem_splitOn (mem_of_mem_filter kept)
  · simp at named

theorem relative_fileStem (path : OsString) : ((fileStem path).getD []).head? ≠ some slash := by
  intro rooted
  have leading := mem_of_mem_head? (mem_def.mpr rooted)
  unfold fileStem at leading
  cases named : fileName path with
  | none => simp [named] at leading
  | some name =>
    have clean := slash_notMem_of_fileName named
    rw [named, map_some, getD_some] at leading
    split at leading
    · exact clean leading
    · exact clean leading
    next split =>
      have within : slash ∈ name.reverse :=
        (dropWhile_sublist _).subset (split ▸ mem_cons_of_mem _ (mem_reverse.mp leading))
      exact clean (mem_reverse.mp within)

theorem relative_of_stemFrom {naming : Naming} {input stem : OsString}
    {metadata : Option GameMetadata} (named : stemFrom naming input metadata = .ok stem) :
    stem.head? ≠ some slash := by
  obtain ⟨title, titled, named⟩ := Fallible.bind_eq_ok.mp named
  cases title with
  | some title =>
    obtain rfl := ok.inj named
    unfold titleStem at titled
    split at titled
    · simp at titled
    · split at titled
      · simp at titled
      · obtain ⟨_, -, usable⟩ := Fallible.map_eq_ok.mp titled
        exact relative_of_plainFileComponent usable
  | none =>
    simp only at named
    split at named
    next code coded =>
      obtain rfl := ok.inj named
      simp only [codeStem, bind_eq_bind, bind_eq_some_iff] at coded
      obtain ⟨_, _, code, _, usable⟩ := coded
      exact relative_of_plainFileComponent usable
    · obtain rfl := ok.inj named
      exact relative_fileStem input

/-! ## Equal hashes -/

variable {Bytes Hash : Type} {libraries : HashLibraries Bytes Hash} {first second : Pipeline}

theorem hashable_eq_of_configHash (lawful : libraries.Lawful) (encoded : first.output.isUtf8 = true)
    (same : first.configHash libraries = second.configHash libraries) :
    first.hashable = second.hashable := by
  have bytes := lawful.blake3_injective same
  have encodes := (lawful.encodes first.hashable).trans encoded
  obtain ⟨json, rendered⟩ := isSome_iff_exists.mp encodes
  rw [rendered, getD_some] at bytes
  cases other : libraries.toVec second.hashable with
  | none =>
    rw [other, getD_none] at bytes
    exact absurd (bytes ▸ rendered) (lawful.nonempty first.hashable)
  | some =>
    rw [other, getD_some] at bytes
    exact lawful.toVec_injective _ _ json rendered (bytes ▸ other)

theorem not_isUtf8_of_configHash (lawful : libraries.Lawful)
    (unencoded : first.output.isUtf8 = false)
    (same : first.configHash libraries = second.configHash libraries) :
    second.output.isUtf8 = false := by
  by_contra encoded
  have equal := hashable_eq_of_configHash lawful (Bool.eq_true_of_not_eq_false encoded) same.symm
  have outputs : second.output = first.output := congrArg Hashable.output equal
  rw [outputs, unencoded] at encoded
  exact encoded rfl

theorem exists_folder_of_not_isUtf8 {output : PipelineOutput} (unencoded : output.isUtf8 = false) :
    ∃ folder, output = .newFolder folder ∧ folder ≠ [] := by
  cases output with
  | sameFolder => simp [PipelineOutput.isUtf8] at unencoded
  | newFolder folder =>
    refine ⟨folder, rfl, ?_⟩
    rintro rfl
    simp [PipelineOutput.isUtf8, OsPath.isUtf8] at unencoded

def Pipeline.outputName (pipeline : Pipeline) (stem : OsString) : OsString :=
  match pipeline.outputArtifact with
  | .archive => stem ++ ofStr ('.' :: ((lastConvertFormat pipeline.steps).getD .zip).extension)
  | .folder => stem

variable (naming : Naming) (pipeline : Pipeline)

theorem predictedOutputPath_eq (input : OsString)
    (metadata : Option GameMetadata) : pipeline.predictedOutputPath naming input metadata =
      (stemFrom naming input metadata).map fun stem =>
        push (pipeline.output.base input) (pipeline.outputName stem) := by
  unfold predictedOutputPath outputPath outputName
  cases pipeline.outputArtifact with
  | archive | folder => rfl

theorem relative_outputName {stem : OsString}
    (relative : stem.head? ≠ some slash) : (pipeline.outputName stem).head? ≠ some slash := by
  unfold outputName
  split
  · cases stem with
    | nil => simp [ofStr, slash]
    | cons => exact relative
  · exact relative

theorem exists_stem (input : OsString) : ∃ stem, stemFrom naming input none = .ok stem := by
  cases coded : codeStem naming input with
  | some code => exact ⟨ofStr code, by simp [stemFrom, titleStem, coded]; rfl⟩
  | none => exact ⟨(fileStem input).getD [], by simp [stemFrom, titleStem, coded]; rfl⟩

theorem components_push_inj {first second name : OsString} (firstPresent : first ≠ [])
    (secondPresent : second ≠ []) (relative : name.head? ≠ some slash) :
    components (push first name) = components (push second name) ↔
      samePath first second = true := by
  rw [components_push firstPresent relative,
    components_push secondPresent relative, append_cancel_right_eq, samePath, decide_eq_true_eq]

theorem agrees_iff_of_unencoded (firstUnencoded : first.output.isUtf8 = false)
    (secondUnencoded : second.output.isUtf8 = false) :
    (∀ input metadata default, (first.plan naming default input metadata).Agrees
      (second.plan naming default input metadata)) ↔
      first.outputArtifact = second.outputArtifact ∧ first.sameSettings second = true := by
  obtain ⟨_, firstOutput, firstPresent⟩ := exists_folder_of_not_isUtf8 firstUnencoded
  obtain ⟨_, secondOutput, secondPresent⟩ := exists_folder_of_not_isUtf8 secondUnencoded
  have names (artifacts : first.outputArtifact = second.outputArtifact)
      (steps : first.steps = second.steps)
      (stem : OsString) :
      first.outputName stem = second.outputName stem := by
    rw [outputName, outputName, artifacts, steps]
  constructor
  · intro agrees
    have probe := agrees [] none .fail
    have artifacts : first.outputArtifact = second.outputArtifact := probe.outputArtifact
    have steps : first.steps = second.steps := probe.steps
    refine ⟨artifacts, ?_⟩
    have policies : first.collisionPolicy = second.collisionPolicy := by
      have onFail := probe.policy
      have onSkip := (agrees [] none .skip).policy
      simp only [plan, effectiveCollisionPolicy] at onFail onSkip
      cases firstPolicy : first.collisionPolicy with
      | none =>
        cases secondPolicy : second.collisionPolicy with
        | none => rfl
        | some policy =>
          simp only [firstPolicy, secondPolicy, getD_none, getD_some] at onFail onSkip
          simp [← onFail] at onSkip
      | some policy =>
        cases secondPolicy : second.collisionPolicy with
        | none =>
          simp only [firstPolicy, secondPolicy, getD_none, getD_some] at onFail onSkip
          simp [onFail] at onSkip
        | some =>
          simp only [firstPolicy, secondPolicy, getD_some] at onFail
          rw [onFail]
    obtain ⟨stem, named⟩ := exists_stem naming []
    have relative := relative_outputName second (relative_of_stemFrom named)
    have paths := probe.outputPath
    simp only [plan, predictedOutputPath_eq, named, Except.map,
      firstOutput, secondOutput, base, names artifacts steps,
      ok.injEq] at paths
    have folders := (components_push_inj firstPresent secondPresent relative).mp paths
    simp [sameSettings, steps, policies, firstOutput, secondOutput,
      samePlace, folders]
  · rintro ⟨artifacts, settings⟩ input metadata default
    simp only [sameSettings, Bool.and_eq_true, decide_eq_true_eq,
      firstOutput, secondOutput, samePlace] at settings
    obtain ⟨⟨steps, policies⟩, folders⟩ := settings
    refine {
      outputPath := ?_
      outputArtifact := artifacts
      steps := steps
      policy := by simp only [plan, effectiveCollisionPolicy, policies] }
    simp only [plan, predictedOutputPath_eq]
    cases named : stemFrom naming input metadata with
    | error error => rfl
    | ok stem =>
      have relative := relative_outputName second (relative_of_stemFrom named)
      simp only [Except.map, firstOutput, secondOutput, base,
        names artifacts steps, ok.injEq]
      exact (components_push_inj firstPresent secondPresent relative).mpr folders

theorem agrees_iff_of_configHash (lawful : libraries.Lawful)
    (same : first.configHash libraries = second.configHash libraries) :
    (∀ input metadata default, (first.plan naming default input metadata).Agrees
      (second.plan naming default input metadata)) ↔ first.outputArtifact = second.outputArtifact ∧
        (first.output.isUtf8 = true ∨ first.sameSettings second = true) := by
  cases encoded : first.output.isUtf8 with
  | false =>
    rw [agrees_iff_of_unencoded naming encoded (not_isUtf8_of_configHash lawful encoded same)]
    simp
  | true =>
    have hashables := hashable_eq_of_configHash lawful encoded same
    have steps : first.steps = second.steps := congrArg Hashable.steps hashables
    have outputs : first.output = second.output := congrArg Hashable.output hashables
    have policies : first.collisionPolicy = second.collisionPolicy :=
      congrArg Hashable.collisionPolicy hashables
    constructor
    · intro agrees
      exact ⟨(agrees [] none .fail).outputArtifact, .inl rfl⟩
    · rintro ⟨artifacts, -⟩ input metadata default
      have plans : first.plan naming default input metadata =
          second.plan naming default input metadata := by
        simp only [plan, predictedOutputPath,
          outputPath, effectiveCollisionPolicy, artifacts,
          steps, outputs, policies]
      rw [plans]
      exact ⟨rfl, rfl, rfl, rfl⟩

end Arclain.Pipelines
