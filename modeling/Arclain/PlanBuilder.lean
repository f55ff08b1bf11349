import Arclain.ContentRoot
import Arclain.EntryTree
import Arclain.MetadataMap
import Arclain.OutputResolution

namespace Arclain.PlanBuilder

/-!
# Building a plan

The second half of resolving a layout: given an output that has been located
and named, work out what goes into it.  Placements are evaluated in order and
the first that matches a file claims it.
-/

open Text Fallible OutputResolution

/-- One file under an output's root, and the same file with the root taken off. -/
structure ScopedEntry where
  source : Str
  relative : ArchiveEntry

/-- Whether a path sits inside an output root, compared exactly. -/
def underRoot (path root : Str) : Bool :=
  path.length > root.length && startsWith path root && path[root.length]? = some '/'

/-- Whether a path sits inside a directory, folding ASCII case. -/
def underDirectory (path directory : Str) : Bool :=
  path.length > directory.length && eqIgnoreAsciiCase (path.take directory.length) directory &&
    path[directory.length]? = some '/'

def stripDirectory (path directory : Str) : Str :=
  if directory = [] ∨ ¬ underDirectory path directory then path
  else path.drop (directory.length + 1)

/-- The pieces of a destination part that name something. -/
def segments (part : Str) : List Str :=
  ((forwardSlashes part).splitOn '/').filter fun segment => segment ≠ [] ∧ segment ≠ ['.']

def joinDestination (parts : List Str) : Str := join ['/'] (parts.flatMap segments)

def scopeEntry (root : Str) (entry : ArchiveEntry) : Option ScopedEntry :=
  let path := forwardSlashes entry.path
  if entry.isDir then none
  else if root = [] then some { source := entry.path, relative := { entry with path := path } }
  else if underRoot path root then
    some {
      source := entry.path
      relative := { entry with path := path.drop (root.length + 1) } }
  else none

def scopeEntries (root : Str) (entries : List ArchiveEntry) : List ScopedEntry :=
  entries.filterMap (scopeEntry (forwardSlashes root))

/-- The first placement that takes everything although others follow it. -/
def refuseUnreachablePlacements : Nat → List Placement → Except PlanError Unit
  | _, [] => .ok ()
  | index, placement :: rest =>
    if placement.source = .all ∧ rest.length > 0 then
      .error (.unreachablePlacements index rest.length)
    else refuseUnreachablePlacements (index + 1) rest

def literalDirectoryPrefix (glob : Str) : Str :=
  match rsplitOnce '/' glob with
  | none => []
  | some (directories, _) =>
    join ['/'] ((directories.splitOn '/').takeWhile fun segment => '*' ∉ segment ∧ '?' ∉ segment)

def countFiles (count : Nat) : Str :=
  if count = 0 then "nothing".toList
  else if count = 1 then "1 file".toList
  else decimal count ++ " files".toList

/-- The extension a download's source URL carries. -/
def urlExtension (url : Str) : Str := (UnixPath.extension url).getD "jpg".toList

def describeDestination (name into : Str) : Str :=
  let destination := joinDestination [name, into]
  if destination = [] then "the output's root".toList
  else destination

def describeContentRoot (detected : ContentRoot.DetectedContentRoot) : Str :=
  let folder := if detected.path = [] then "the output's root".toList else detected.path
  if detected.evidence = [] then
    "nothing scored as a content root, so ".toList ++ folder ++ " is the payload".toList
  else
    "content root ".toList ++ folder ++ " scored ".toList ++
      decimal detected.score ++ " on ".toList ++
      join ", ".toList detected.evidence

section

variable [CharTables]

/-- `RuleEngine::matches_glob`. -/
def matchesGlob (pattern path : Str) : Bool :=
  if pattern = "**".toList then true
  else if startsWith pattern "*.".toList then
    endsWith (CharTables.toLowercase path) (CharTables.toLowercase (pattern.drop 1))
  else
    match pattern.dropSuffix? "/**".toList with
    | some directory => underDirectory (forwardSlashes path) directory
    | none => pattern = path || UnixPath.fileName path = some pattern

def describeSource : Source → Str
  | .all => "everything under the output's root".toList
  | .matching glob => "the glob ".toList ++ debugText glob
  | .contentRoot => "the content root".toList

def describeOutputFolder (name : Str) : Str :=
  if name = [] then "the top level of the result".toList
  else debugText name

def noteUnset (reasoning : List Str) (what : String) (template : Str)
    (unset : List Str) : List Str :=
  if unset = [] then reasoning
  else
    reasoning ++ ["the ".toList ++ what.toList ++ " ".toList ++ debugText template ++
        " needs ".toList ++ dollarTokens unset ++ ", which nothing set".toList]

def claimDestination (taken : KeyedMap Str Str)
    (destination : Str) : Except PlanError (KeyedMap Str Str) :=
  claimUppercase .sameDestination .mergeableDestinations taken destination

/-- How one placement treats a relative path: whether it matches, and where
the file lands. -/
structure Route where
  accepts : Str → Bool
  destination : Str → Str

/-- The pass of one placement over the files of an output. -/
structure Pass where
  files : List (ScopedEntry × Bool)
  moves : List (Str × Str)
  taken : KeyedMap Str Str
  placed : Nat

def placeFile (route : Route) (pass : Pass) (file : ScopedEntry × Bool) : Except PlanError Pass :=
  if file.2 ∨ ¬ route.accepts file.1.relative.path then
    .ok { pass with files := pass.files ++ [file] }
  else do
    let destination := route.destination file.1.relative.path
    let taken ← claimDestination pass.taken destination
    .ok {
      files := pass.files ++ [(file.1, true)]
      moves := pass.moves ++ [(file.1.source, destination)]
      taken := taken
      placed := pass.placed + 1 }

structure Filling where
  files : List (ScopedEntry × Bool)
  moves : List (Str × Str)
  taken : KeyedMap Str Str
  reasoning : List Str

/-- The part of a matched path a placement located, and the reason for it. -/
def locate (source : Source) (files : List (ScopedEntry × Bool)) : Str × List Str :=
  match source with
  | .all => ([], [])
  | .matching glob => (literalDirectoryPrefix glob, [])
  | .contentRoot =>
    let detected := ContentRoot.detectContentRoot (files.map fun file => file.1.relative)
    (forwardSlashes detected.path, [describeContentRoot detected])

def routeOf (name into located : Str) (source : Source) : Route where
  accepts path :=
    match source with
    | .all => true
    | .matching glob => matchesGlob glob path
    | .contentRoot => located = [] || underDirectory path located
  destination path := joinDestination [name, into, stripDirectory path located]

def placeOne (output : ResolvedOutput) (filling : Filling)
    (placement : Placement) : Except PlanError Filling := do
  let (located, found) := locate placement.source filling.files
  let (into, unset) := expand placement.into output.values
  let reasoning := noteUnset (filling.reasoning ++ found) "destination" placement.into unset
  let pass ← filling.files.foldlM (placeFile (routeOf output.name into located placement.source))
    { files := []
      moves := filling.moves
      taken := filling.taken
      placed := 0 }
  .ok {
    files := pass.files
    moves := pass.moves
    taken := pass.taken
    reasoning := reasoning ++ [describeSource placement.source ++ " placed ".toList ++
        countFiles pass.placed ++ " into ".toList ++ describeDestination output.name into] }

def describeLeft (files : List (ScopedEntry × Bool)) : List Str :=
  let left := (files.filter fun file => !file.2).map fun file => file.1.relative.path
  if left = [] then []
  else
    let shown := min left.length 3
    let rest := left.length - shown
    [countFiles left.length ++ " matched no placement and ".toList ++
      (if left.length = 1 then "was".toList else "were".toList) ++
      " not carried: ".toList ++ join ", ".toList (left.take shown) ++
      (if rest > 0 then ", and ".toList ++ decimal rest ++ " more".toList
      else [])]

section

variable [Libraries]

/-- The document a `MetadataDocument` writes. -/
def metadataDocument (metadata : GameMetadata) : Option Str :=
  if trim metadata.metadataJson = [] then Libraries.jsonToStringPretty metadata
  else some metadata.metadataJson

/-- What was written and fetched into an output so far. -/
structure Extras where
  taken : KeyedMap Str Str
  reasoning : List Str
  generatedFiles : List (Str × Str)
  downloads : List PendingDownload

def generateOne (output : ResolvedOutput) (metadata : Option GameMetadata) (extras : Extras)
    (generated : Generated) : Except PlanError Extras :=
  match generated.content with
  | .metadataDocument =>
    match metadata.bind metadataDocument with
    | none => .ok extras
    | some document => do
      let (into, unset) := expand generated.into output.values
      let destination := joinDestination [output.name, into]
      let taken ← claimDestination extras.taken destination
      .ok { extras with
        taken := taken
        reasoning := noteUnset extras.reasoning "generated file" generated.into unset
        generatedFiles := extras.generatedFiles ++ [(destination, document)] }

omit [Libraries] in
def fetchScreenshot (output : ResolvedOutput) (game : GameMetadata) (fetched : Fetched) (into : Str)
    (extras : Extras) (screenshot : ScreenshotData × Nat) : Except PlanError Extras :=
  match screenshot.1 with
  | .url url => do
    let isDlsite := eqIgnoreAsciiCase game.source "dlsite".toList
    let values :=
      (output.values.insert "index".toList (paddedDecimal 3 (screenshot.2 + 1))).insert
        "ext".toList (urlExtension url)
    let (name, unset) := expand fetched.name values
    let destination := joinDestination [output.name, into, name]
    let taken ← claimDestination extras.taken destination
    .ok { extras with
      taken := taken
      reasoning := noteUnset extras.reasoning "fetched file name" fetched.name unset
      downloads := extras.downloads ++
        [{ productId := if isDlsite then some game.productId else none
           url := url
           destPath := destination
           cacheKey :=
             if isDlsite then
               "dlsite:".toList ++ game.productId ++ ":screenshot_".toList ++ decimal screenshot.2
             else "screenshot:".toList ++ game.productId ++ ":".toList ++ decimal screenshot.2
           cached := false }] }
  | .filePath _ | .base64 _ => .ok extras

omit [Libraries] in
def fetchOne (output : ResolvedOutput) (metadata : Option GameMetadata) (extras : Extras)
    (fetched : Fetched) : Except PlanError Extras :=
  match fetched.source with
  | .screenshots =>
    match metadata with
    | none => .ok extras
    | some game =>
      let (into, unset) := expand fetched.into output.values
      game.screenshots.zipIdx.foldlM (fetchScreenshot output game fetched into)
        { extras with
          reasoning := noteUnset extras.reasoning "fetch destination" fetched.into unset }

def fillOutput (layout : Layout) (entries : List ArchiveEntry) (metadata : Option GameMetadata)
    (output : ResolvedOutput) : Except PlanError PlannedOutput := do
  refuseUnreachablePlacements 0 layout.place
  let filling ← layout.place.foldlM (placeOne output)
    { files := (scopeEntries output.root entries).map fun file => (file, false)
      moves := []
      taken := ∅
      reasoning := [] }
  let generated ← layout.generate.foldlM (generateOne output metadata)
    { taken := filling.taken
      reasoning := filling.reasoning ++ describeLeft filling.files
      generatedFiles := []
      downloads := [] }
  let extras ← layout.fetch.foldlM (fetchOne output metadata) generated
  .ok {
    rootFolder := output.name
    rootFolderTemplate := layout.name
    moves := filling.moves
    generatedFiles := extras.generatedFiles
    downloads := extras.downloads
    resolvedVariables := output.values
    reasoning := extras.reasoning.eraseDups }

def carriesNothing (output : PlannedOutput) (located : ResolvedOutput) : Str × Str :=
  (forwardSlashes located.root, "nothing was placed into ".toList ++
    describeOutputFolder output.rootFolder ++
    ", and the layout generates and fetches nothing into it, so the run ".toList ++
    "would produce no such folder".toList)

def reportOutputsThatCarryNothing (plan : OrganizationPlan)
    (located : List ResolvedOutput) : OrganizationPlan where
  ruleName := plan.ruleName
  outputs := plan.outputs.filter fun output => !output.stagesNothing
  skippedOutputs := plan.skippedOutputs ++
    ((plan.outputs.zip located).filter fun pair => pair.1.stagesNothing).map
      fun pair => carriesNothing pair.1 pair.2

/-- The content root whose name may feed the output's: only where the whole input is one
output and a placement asks. -/
def namingContentRoot (layout : Layout) (entries : List ArchiveEntry) : Option Str :=
  if (layout.place.any fun placement => placement.source = .contentRoot) ∧
    layout.outputs = .whole then
    some (ContentRoot.detectContentRoot entries).path
  else none

def createPlan (titleFilter : TitleFilterConfig) (rule : OrganizationRule) (inputName : Str)
    (entries : List ArchiveEntry) (metadata : Option GameMetadata)
    (readEntry : ReadEntry) : Except PlanError OrganizationPlan := do
  let pruned := pruneEntries entries
  let values ← MetadataMap.buildMetadataMap titleFilter rule inputName
    metadata (namingContentRoot rule.layout pruned)
  let resolved ← resolveOutputs rule.layout pruned values readEntry
  let outputs ← resolved.outputs.mapM (fillOutput rule.layout pruned metadata)
  let plan : OrganizationPlan :=
    { ruleName := rule.name
      outputs := outputs
      skippedOutputs := resolved.skipped }
  plan.validatePaths.mapError .pathValidation
  .ok (reportOutputsThatCarryNothing plan resolved.outputs)

end

end

end Arclain.PlanBuilder
