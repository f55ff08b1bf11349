import Arclain.Layout
import Arclain.UnixPath

namespace Arclain

/-!
# The variables every template starts from

Gathered, last write wins, from the metadata of the product, the JSON document
behind it, the named captures of the rule's file-name pattern, the version in
the input's name, and the name of the content root.

Regular expressions and JSON are third-party packages and enter as `Libraries`.
-/

open Text Fallible

mutual

/-- A JSON document.  The elements of an array are never read. -/
inductive Json where
  | null
  | bool (value : Bool)
  | number (text : Str)
  | string (text : Str)
  | array
  | object (fields : JsonFields)

/-- The fields of a JSON object, in iteration order. -/
inductive JsonFields where
  | nil
  | cons (key : Str) (value : Json) (rest : JsonFields)

end

structure Captures where
  group : Nat → Option Str
  named : Str → Option Str

/-- A compiled regular expression: its group names and its matches in a text,
from left to right. -/
structure Regex where
  captureNames : List Str
  capturesIter : Str → List Captures

/-- The third-party packages planning calls. -/
class Libraries where
  regex : Str → Option Regex
  jsonFromStr : Str → Option Json
  jsonToStringPretty : GameMetadata → Option Str

/-- The settings of the title filter, as cached from the configuration. -/
structure TitleFilterConfig where
  replacements : List (Str × Str)
  invalidChars : Str
  replacement : Str
  maxLength : Nat
  trimWhitespace : Bool

namespace MetadataMap

/-- Replace the matches of a nonempty text, skipping what a match covered. -/
def replaceFrom (old new : Str) : Nat → Str → Str
  | _, [] => []
  | skip + 1, _ :: rest => replaceFrom old new skip rest
  | 0, char :: rest =>
    if startsWith (char :: rest) old then new ++ replaceFrom old new (old.length - 1) rest
    else char :: replaceFrom old new 0 rest

/-- `str::replace`; the empty text matches around every character. -/
def replaceText (text old new : Str) : Str :=
  if old = [] then text.foldr (fun char rest => new ++ char :: rest) new
  else replaceFrom old new 0 text

def byteLength (text : Str) : Nat := (text.map Char.utf8Size).sum

/-- `String::truncate`, which fails inside a character. -/
def truncate : Nat → Str → Option Str
  | 0, _ | _ + 1, [] => some []
  | bytes + 1, char :: rest =>
    if char.utf8Size ≤ bytes + 1 then
      (truncate (bytes + 1 - char.utf8Size) rest).map fun kept => char :: kept
    else none

/-- `sanitize_title_with_config`. -/
def sanitizeTitle (config : TitleFilterConfig) (title : Str) : Except PlanError Str := do
  let replaced := config.replacements.foldl (fun text pair => replaceText text pair.1 pair.2) title
  let mapped := replaced.map fun char =>
    if char ∈ config.invalidChars || isControl char then config.replacement.head?.getD '_'
    else char
  let trimmed := if config.trimWhitespace then trim mapped else mapped
  let shortened ←
    if byteLength trimmed > config.maxLength then
      match truncate config.maxLength trimmed with
      | some kept => .ok kept
      | none => .error .truncateInsideCharacter
    else .ok trimmed
  .ok (if shortened = [] then "untitled".toList else shortened)

mutual

def flattenJsonValue : Json → Str → Variables → Variables
  | .null, _, values => values
  | .bool value, key, values => values.insert key (if value then "true".toList else "false".toList)
  | .number text, key, values | .string text, key, values => values.insert key text
  | .array, _, values => values
  | .object fields, key, values => flattenJsonFields fields key values

def flattenJsonFields : JsonFields → Str → Variables → Variables
  | .nil, _, values => values
  | .cons key value rest, outer, values =>
    flattenJsonFields rest outer (flattenJsonValue value
      (if outer = [] then key else outer ++ ['.'] ++ key) values)

end

section

variable [Libraries]

/-- `Regex::captures` of a pattern that compiles: the leftmost match. -/
def captures (pattern text : Str) : Option (Regex × Captures) := do
  let regex ← Libraries.regex pattern
  let found ← (regex.capturesIter text).head?
  some (regex, found)

def insertMetadata (titleFilter : TitleFilterConfig)
    (metadata : GameMetadata) : Except PlanError Variables := do
  let filtered ← sanitizeTitle titleFilter metadata.title
  let values : Variables :=
    ((((∅ : Variables).insert "product_id".toList metadata.productId).insert
      "source".toList metadata.source).insert
      "title".toList metadata.title).insert
      "filtered_title".toList filtered
  let values := match metadata.creator with
    | some creator => (values.insert "creator".toList creator).insert "circle".toList creator
    | none => values
  let values := match metadata.releaseDate with
    | some date => values.insert "release_date".toList date
    | none => values
  .ok (match Libraries.jsonFromStr metadata.metadataJson with
    | some json => flattenJsonValue json [] values
    | none => values)

/-- The named captures of the rule's pattern override what stood before. -/
def insertCaptures (pattern : Option Str) (archiveName : Str) (values : Variables) : Variables :=
  match pattern.bind fun text => captures text archiveName with
  | some (regex, found) =>
    regex.captureNames.foldl (fun values name =>
      match found.named name with
      | some text => values.insert name text
      | none => values)
      values
  | none => values

/-- The pattern of a version such as `v1.2`. -/
def versionPattern : Str := "[vV](\\d+(\\.\\d+)+)".toList

def tagPattern : Str := "\\[([^\\]]+)\\]".toList

def insertVersion (text : Str) (values : Variables) : Variables :=
  match (captures versionPattern text).bind fun found => found.2.group 1 with
  | some version => values.insert "version".toList version
  | none => values

/-- The bracketed tags of the content root's name. -/
def insertTags (folderName : Str) (values : Variables) : Variables :=
  match Libraries.regex tagPattern with
  | some regex =>
    let tags := (regex.capturesIter folderName).filterMap fun found => found.group 1
    if tags = [] then values
    else
      (values.insert "root_tags".toList (join ", ".toList tags)).insert
        "folder_name".toList folderName
  | none => values

def buildMetadataMap (titleFilter : TitleFilterConfig) (rule : OrganizationRule) (archiveName : Str)
    (metadata : Option GameMetadata) (contentRoot : Option Str) : Except PlanError Variables := do
  let values ← match metadata with
    | some found => insertMetadata titleFilter found
    | none => .ok ∅
  let values := insertCaptures rule.filenamePattern archiveName values
  let values := insertVersion archiveName values
  .ok (match contentRoot.bind UnixPath.fileName with
    | some folderName => insertTags folderName (insertVersion folderName values)
    | none => values)

end

end MetadataMap

end Arclain
