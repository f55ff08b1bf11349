import Arclain.MetadataMap
import Arclain.OsPath

namespace Arclain.Pipelines

/-!
# Processing pipelines

A pipeline names its inputs, its steps, and where the result lands.  `configHash` is the key
under which finished runs are remembered.

The title filter and the product codes enter as `Naming`; JSON and blake3 as
`HashLibraries`.
-/

open OsPath

inductive ConvertFormat where
  | zip
  | sevenZ
  deriving DecidableEq

def ConvertFormat.extension : ConvertFormat → Str
  | .zip => "zip".toList
  | .sevenZ => "7z".toList

inductive CompressionLevel where
  | fast
  | normal
  | max
  deriving DecidableEq

inductive PipelineStep where
  | flatten (stripCommonPrefix : Bool) (maxDepth : UInt32)
  | organize (ruleId : Int64)
  | convert (format : ConvertFormat) (compression : CompressionLevel) (password : Option Str)
  deriving DecidableEq

inductive PipelineInput where
  | files (paths : List OsString)
  | folder (path : OsString)

inductive PipelineOutput where
  | sameFolder
  | newFolder (folder : OsString)
  deriving DecidableEq

inductive OutputArtifact where
  | archive
  | folder
  deriving DecidableEq

/-- What happens when the output path exists already. -/
inductive OutputCollisionPolicy where
  | fail
  | skip
  | overwrite
  | smart
  deriving DecidableEq

def OutputCollisionPolicy.displayName : OutputCollisionPolicy → Str
  | .fail => "Fail on existing".toList
  | .skip => "Skip if exists".toList
  | .overwrite => "Overwrite".toList
  | .smart => "Smart (dedup / prompt)".toList

structure Pipeline where
  input : Option PipelineInput
  steps : List PipelineStep
  output : PipelineOutput
  collisionPolicy : Option OutputCollisionPolicy
  outputArtifact : OutputArtifact

def Pipeline.effectiveCollisionPolicy (pipeline : Pipeline)
    (default : OutputCollisionPolicy) : OutputCollisionPolicy :=
  pipeline.collisionPolicy.getD default

/-! ## The hash of a configuration -/

/-- The fields of a pipeline that are hashed. -/
structure Hashable where
  steps : List PipelineStep
  output : PipelineOutput
  collisionPolicy : Option OutputCollisionPolicy
  deriving DecidableEq

/-- The JSON encoder, its empty result, and blake3 in hexadecimal. -/
structure HashLibraries (Bytes Hash : Type) where
  toVec : Hashable → Option Bytes
  noBytes : Bytes
  blake3 : Bytes → Hash

/-- Whether the folder of an output is a UTF-8 path. -/
def PipelineOutput.isUtf8 : PipelineOutput → Bool
  | .sameFolder => true
  | .newFolder folder => OsPath.isUtf8 folder

/-- Everything but a path that is not UTF-8 has an encoding, never the empty one; and the
encoder and blake3 are injective. -/
structure HashLibraries.Lawful {Bytes Hash : Type}
    (libraries : HashLibraries Bytes Hash) : Prop where
  encodes : ∀ hashable, (libraries.toVec hashable).isSome = hashable.output.isUtf8
  nonempty : ∀ hashable, libraries.toVec hashable ≠ some libraries.noBytes
  toVec_injective : ∀ first second bytes, libraries.toVec first = some bytes →
    libraries.toVec second = some bytes → first = second
  blake3_injective : Function.Injective libraries.blake3

def Pipeline.hashable (pipeline : Pipeline) : Hashable where
  steps := pipeline.steps
  output := pipeline.output
  collisionPolicy := pipeline.collisionPolicy

/-- `Pipeline::config_hash`: a configuration that has no encoding is hashed as
if it were empty. -/
def Pipeline.configHash {Bytes Hash : Type} (libraries : HashLibraries Bytes Hash)
    (pipeline : Pipeline) : Hash :=
  libraries.blake3 ((libraries.toVec pipeline.hashable).getD libraries.noBytes)

/-! ## The output path -/

/-- What naming an output depends on besides the pipeline. -/
structure Naming where
  titleFilter : TitleFilterConfig
  detectDlsiteCode : Str → Option Str

/-- `plain_file_component`: a text that is one portable file name. -/
def plainFileComponent (candidate : Str) : Option Str :=
  match CheckedRelativePath.new (Text.trim candidate) with
  | .error _ => none
  | .ok checked =>
    if (UnixPath.components checked.path).length ≠ 1 then none
    else some (Text.trim candidate)

/-- The name a metadata title gives, where it gives a usable one. -/
def titleStem (naming : Naming) (metadata : Option GameMetadata) : Except PlanError (Option Str) :=
  match metadata with
  | none => .ok none
  | some product =>
    if Text.trim product.title = [] then .ok none
    else
      (MetadataMap.sanitizeTitle naming.titleFilter
        (Text.trim product.title)).map plainFileComponent

/-- The product code in the name of an input, where it is a usable name. -/
def codeStem (naming : Naming) (input : OsString) : Option Str := do
  let name ← (fileName input).bind toStr
  let code ← naming.detectDlsiteCode name
  plainFileComponent code

def stemFrom (naming : Naming) (input : OsString)
    (metadata : Option GameMetadata) : Except PlanError OsString := do
  match ← titleStem naming metadata with
  | some title => .ok (ofStr title)
  | none =>
    match codeStem naming input with
    | some code => .ok (ofStr code)
    | none => .ok ((fileStem input).getD [])

def PipelineOutput.base (output : PipelineOutput) (input : OsString) : OsString :=
  match output with
  | .sameFolder => (parent input).getD []
  | .newFolder folder => folder

def PipelineOutput.resolveWithMetadata (naming : Naming) (output : PipelineOutput)
    (input : OsString) (ext : Str)
    (metadata : Option GameMetadata) : Except PlanError OsString := do
  let stem ← stemFrom naming input metadata
  .ok (push (output.base input) (stem ++ ofStr ('.' :: ext)))

def PipelineOutput.resolveFolderWithMetadata (naming : Naming) (output : PipelineOutput)
    (input : OsString) (metadata : Option GameMetadata) : Except PlanError OsString := do
  let stem ← stemFrom naming input metadata
  .ok (push (output.base input) stem)

def lastConvertFormat (steps : List PipelineStep) : Option ConvertFormat :=
  steps.reverse.findSome? fun
    | .convert format _ _ => some format
    | _ => none

/-- The output path for an input whose last `Convert` step has a format. -/
def Pipeline.outputPath (naming : Naming) (pipeline : Pipeline) (format : Option ConvertFormat)
    (input : OsString) (metadata : Option GameMetadata) : Except PlanError OsString :=
  match pipeline.outputArtifact with
  | .archive =>
    pipeline.output.resolveWithMetadata naming input (format.getD .zip).extension metadata
  | .folder => pipeline.output.resolveFolderWithMetadata naming input metadata

def Pipeline.predictedOutputPath (naming : Naming) (pipeline : Pipeline) (input : OsString)
    (metadata : Option GameMetadata) : Except PlanError OsString :=
  pipeline.outputPath naming (lastConvertFormat pipeline.steps) input metadata

def finalSettings (steps : List PipelineStep) : Option ConvertFormat × CompressionLevel :=
  steps.foldl (fun settings step =>
    match step with
    | .convert format compression _ => (some format, compression)
    | _ => settings)
    (none, .normal)

/-- The path the result is written to at the end of a run. -/
def Pipeline.finalOutputPath (naming : Naming) (pipeline : Pipeline) (input : OsString)
    (metadata : Option GameMetadata) : Except PlanError OsString :=
  pipeline.outputPath naming (finalSettings pipeline.steps).1 input metadata

theorem finalSettings_format (steps : List PipelineStep) :
    (finalSettings steps).1 = lastConvertFormat steps := by
  induction steps using List.reverseRecOn with
  | nil => rfl
  | append_singleton steps last ih =>
    cases last with
    | convert => simp [finalSettings, lastConvertFormat]
    | flatten | organize =>
      simpa [finalSettings, lastConvertFormat] using ih

theorem finalOutputPath_eq_predicted (naming : Naming) (pipeline : Pipeline) (input : OsString)
    (metadata : Option GameMetadata) : pipeline.finalOutputPath naming input metadata =
      pipeline.predictedOutputPath naming input metadata := by
  rw [Pipeline.finalOutputPath, finalSettings_format, Pipeline.predictedOutputPath]

end Arclain.Pipelines
