import Arclain.PipelineBatch

namespace Arclain.PipelineBatch

/-!
# Previews of pipelines

What `preview_pipeline_with_metadata` shows before a pipeline runs: for every input its
operations, the output it is expected to give, and a warning where something stands there.

Listing the archives of a folder and the `Debug` text of a path are parameters.
-/

open List OsPath Pipelines Fallible

structure PreviewEntry where
  input : OsString
  operations : List Str
  expectedOutput : Option OsString
  warnings : List Str
  deriving DecidableEq

structure PipelinePreview where
  entries : List PreviewEntry
  globalWarnings : List Str
  deriving DecidableEq

structure FolderScan where
  findArchiveFiles : OsString → Except Str (List OsString)
  debugPath : OsString → Str

/-- The operation a step is shown as. -/
def stepOperation : PipelineStep → Str
  | .flatten stripCommonPrefix maxDepth =>
    let base :=
      if stripCommonPrefix then "Flatten nested archives (strip common prefix)".toList
      else "Flatten nested archives".toList
    if maxDepth = 0 then base ++ " (recursive)".toList
    else if maxDepth = 1 then base
    else base ++ " (up to ".toList ++ Text.decimal maxDepth.toNat ++ " passes)".toList
  | .organize ruleId => "Apply organization rule #".toList ++ (toString ruleId.toInt).toList
  | .convert format _ _ => "Convert to .".toList ++ format.extension

def finalFormat (steps : List PipelineStep) : Option ConvertFormat :=
  steps.foldl (fun chosen step =>
    match step with
    | .convert format _ _ => some format
    | _ => chosen)
    none

section

variable (naming : Naming) (taken : OsString → Bool) (pipeline : Pipeline)
variable (metadata : Option GameMetadata)

def expectedOutput (input : OsString) : Except PlanError (Option OsString) :=
  match pipeline.outputArtifact with
  | .archive =>
    match finalFormat pipeline.steps with
    | none => .ok none
    | some format =>
      (pipeline.output.resolveWithMetadata naming input format.extension metadata).map some
  | .folder => (pipeline.output.resolveFolderWithMetadata naming input metadata).map some

def collisionOutcome : OutputCollisionPolicy → Str
  | .skip => "will be skipped".toList
  | .overwrite => "will be overwritten".toList
  | .fail | .smart => "will fail this file (change policy to Overwrite or Skip)".toList

/-- An output that is the input itself is passed over. -/
def collisionWarnings (input : OsString) : Option OsString → List Str
  | none => []
  | some out =>
    if taken out ∧ ¬ samePath out input then
      ["Output already exists — ".toList ++
        collisionOutcome (pipeline.effectiveCollisionPolicy .smart) ++ ": ".toList ++
          toStringLossy out]
    else []

def previewEntry (input : OsString) : Except PlanError PreviewEntry := do
  let expected ← expectedOutput naming pipeline metadata input
  .ok {
    input := input
    operations := pipeline.steps.map stepOperation
    expectedOutput := expected
    warnings := collisionWarnings taken pipeline input expected }

def previewInputs (inputs : List OsString) : Except PlanError PipelinePreview := do
  let entries ← inputs.mapM (previewEntry naming taken pipeline metadata)
  .ok {
    entries := entries
    globalWarnings := if pipeline.steps = [] then ["No operations added".toList] else [] }

/-- `preview_pipeline_with_metadata`; `taken` is `Path::exists`. -/
def previewPipelineWithMetadata (scan : FolderScan) : Except PlanError PipelinePreview :=
  match pipeline.input with
  | none => .ok { entries := [], globalWarnings := [] }
  | some (.files inputs) => previewInputs naming taken pipeline metadata inputs
  | some (.folder folder) =>
    match scan.findArchiveFiles folder with
    | .error error =>
      .ok { entries := [], globalWarnings := ["Scan failed: ".toList ++ error] }
    | .ok [] =>
      .ok {
        entries := []
        globalWarnings := ["No archives found in ".toList ++ scan.debugPath folder] }
    | .ok inputs => previewInputs naming taken pipeline metadata inputs

end

section

variable {naming : Naming} {taken : OsString → Bool} {pipeline : Pipeline}
variable {metadata : Option GameMetadata}

theorem finalFormat_eq_last (steps : List PipelineStep) :
    finalFormat steps = lastConvertFormat steps := by
  induction steps using List.reverseRecOn with
  | nil => rfl
  | append_singleton steps last ih =>
    cases last with
    | convert => simp [finalFormat, lastConvertFormat]
    | flatten | organize =>
      simpa [finalFormat, lastConvertFormat] using ih

variable {input out : OsString}

theorem predicted_of_expected
    (expected : expectedOutput naming pipeline metadata input = .ok (some out)) :
    pipeline.predictedOutputPath naming input metadata = .ok out := by
  rw [expectedOutput, finalFormat_eq_last] at expected
  rw [Pipeline.predictedOutputPath, Pipeline.outputPath]
  cases artifact : pipeline.outputArtifact with
  | archive =>
    cases chosen : lastConvertFormat pipeline.steps with
    | none => simp [artifact, chosen] at expected
    | some =>
      simp only [artifact, chosen] at expected
      obtain ⟨resolved, found, same⟩ := map_eq_ok.mp expected
      obtain rfl := Option.some.inj same
      exact found
  | folder =>
    simp only [artifact] at expected
    obtain ⟨resolved, found, same⟩ := map_eq_ok.mp expected
    obtain rfl := Option.some.inj same
    exact found

theorem collisionWarnings_ne_nil_iff : collisionWarnings taken pipeline input (some out) ≠ [] ↔
    taken out = true ∧ samePath out input = false := by
  rw [collisionWarnings]
  split <;> simp_all

variable {entry : PreviewEntry}

theorem previewEntry_shows {input : OsString}
    (shown : previewEntry naming taken pipeline metadata input = .ok entry) :
    entry.input = input ∧ expectedOutput naming pipeline metadata input = .ok entry.expectedOutput ∧
      entry.warnings = collisionWarnings taken pipeline input entry.expectedOutput := by
  obtain ⟨_, resolved, made⟩ := bind_eq_ok.mp shown
  obtain rfl := Except.ok.inj made
  exact ⟨rfl, resolved, rfl⟩

variable {preview : PipelinePreview}

theorem mem_previewInputs {inputs : List OsString}
    (shown : previewInputs naming taken pipeline metadata inputs = .ok preview)
    (listed : entry ∈ preview.entries) :
    ∃ input ∈ inputs, previewEntry naming taken pipeline metadata input = .ok entry := by
  obtain ⟨_, mapped, made⟩ := bind_eq_ok.mp shown
  obtain rfl := Except.ok.inj made
  obtain ⟨input, mem, made⟩ :=
    exists_of_forall₂ (forall₂_of_mapM mapped) listed
  exact ⟨input, mem, made⟩

theorem mem_previewPipeline {scan : FolderScan}
    (shown : previewPipelineWithMetadata naming taken pipeline metadata scan = .ok preview)
    (listed : entry ∈ preview.entries) :
    ∃ input, previewEntry naming taken pipeline metadata input = .ok entry := by
  rw [previewPipelineWithMetadata] at shown
  split at shown
  · obtain rfl := Except.ok.inj shown
    cases listed
  · exact (mem_previewInputs shown listed).imp fun _ mem => mem.2
  · split at shown
    · obtain rfl := Except.ok.inj shown
      cases listed
    · obtain rfl := Except.ok.inj shown
      cases listed
    · exact (mem_previewInputs shown listed).imp fun _ mem => mem.2

end

/-- A run commits where its gate has looked. The preview expects the same path, and warns
exactly when something is there and it is not the input itself. -/
theorem preview_matches_run {Hash : Type} (setting : Setting) (pipeline : Pipeline)
    (metadata : Option GameMetadata) (scan : FolderScan) (disk : Disk) :
    (∀ input, pipeline.finalOutputPath setting.naming input metadata =
      pipeline.predictedOutputPath setting.naming input metadata) ∧
      (∀ input (environment : RunEnvironment Hash) started replaceExisting output artifact,
        environment.metadata = metadata →
          (runOneInner setting pipeline input environment replaceExisting started).1 =
            .completed output artifact →
              pipeline.predictedOutputPath setting.naming input metadata = .ok output) ∧
      ∀ preview, previewPipelineWithMetadata setting.naming (pathExists setting disk) pipeline
        metadata scan = .ok preview → ∀ entry ∈ preview.entries, ∀ out,
          entry.expectedOutput = some out →
            pipeline.predictedOutputPath setting.naming entry.input metadata = .ok out ∧
              (entry.warnings ≠ [] ↔
                pathExists setting disk out = true ∧ samePath out entry.input = false) := by
  refine ⟨fun input => finalOutputPath_eq_predicted setting.naming pipeline input metadata, ?_, ?_⟩
  · rintro input environment started replaceExisting output artifact rfl completed
    exact (completed_of_runOneInner completed).1
  · intro preview shown entry listed out expected
    obtain ⟨input, made⟩ := mem_previewPipeline shown listed
    obtain ⟨rfl, resolved, warned⟩ := previewEntry_shows made
    rw [expected] at resolved warned
    rw [warned]
    exact ⟨predicted_of_expected resolved, collisionWarnings_ne_nil_iff⟩

/-- An archive that is packed again under its own name. -/
def repack : Pipeline :=
  { flattenTo .archive with
    input := some (.files [ofStr "/d/a.zip".toList])
    steps := [.convert .zip .normal none] }

/-- Something stands at the output of `repack`, the input itself, and there is no warning. -/
theorem input_not_warned : (previewPipelineWithMetadata stemNaming
    (pathExists plainSetting (twoFiles "d" "a.zip" "b.zip")) repack none
    { findArchiveFiles := fun _ => .ok []
      debugPath := toStringLossy }).toOption =
    some {
      entries := [{
        input := ofStr "/d/a.zip".toList
        operations := ["Convert to .zip".toList]
        expectedOutput := some (ofStr "/d/a.zip".toList)
        warnings := [] }]
      globalWarnings := [] } ∧
    pathExists plainSetting (twoFiles "d" "a.zip" "b.zip") (ofStr "/d/a.zip".toList) = true := by
  decide +kernel

end Arclain.PipelineBatch
