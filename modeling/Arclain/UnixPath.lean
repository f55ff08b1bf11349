import Arclain.Text

namespace Arclain.UnixPath

/-!
# Paths as texts

The lexical operations of `std::path::Path` on Unix.  A path is its text;
comparison looks at its components, while `parent` returns a piece of the text
as it was written.
-/

open Text

inductive Component where
  | rootDir
  | curDir
  | parentDir
  | normal (name : Str)
  deriving DecidableEq

/-- A piece of a path that names no component. -/
def isIgnored (piece : Str) : Bool := piece = [] || piece = ['.']

/-- The leading root or current-directory mark, and the text after it. -/
def splitHead (text : Str) : Str × Str :=
  if startsWith text ['/'] then (['/'], text.drop 1)
  else if text = ['.'] ∨ startsWith text ['.', '/'] then (['.'], text.drop 1)
  else ([], text)

/-- `Path::components`. -/
def components (text : Str) : List Component :=
  let (head, body) := splitHead text
  let leading :=
    if head = ['/'] then [Component.rootDir]
    else if head = ['.'] then [Component.curDir]
    else []
  let named := (body.splitOn '/').filter fun piece => !isIgnored piece
  leading ++ named.map fun piece => if piece = ['.', '.'] then .parentDir else .normal piece

/-- `Path::parent`. -/
def parent (text : Str) : Option Str :=
  let (head, body) := splitHead text
  match (body.splitOn '/').reverse.dropWhile isIgnored with
  | [] => if head = ['.'] then some [] else none
  | _ :: earlier => some (head ++ join ['/'] (earlier.dropWhile isIgnored).reverse)

/-- `Path::file_name`. -/
def fileName (text : Str) : Option Str :=
  match (components text).getLast? with
  | some (.normal name) => some name
  | _ => none

/-- `Path::extension`. -/
def extension (text : Str) : Option Str :=
  match (fileName text).bind (rsplitOnce '.') with
  | some ([], _) => none
  | some (_, after) => some after
  | none => none

/-- `Path::starts_with`, component by component. -/
def startsWithPath (text base : Str) : Bool := (components base).isPrefixOf (components text)

/-- Two texts are one path when their components agree. -/
def samePath (first second : Str) : Bool := components first = components second

def Component.rank : Component → Nat
  | .rootDir => 0
  | .curDir => 1
  | .parentDir => 2
  | .normal _ => 3

def Component.name : Component → Str
  | .normal name => name
  | _ => []

def componentsLe : List Component → List Component → Bool
  | [], _ => true
  | _ :: _, [] => false
  | first :: firstRest, second :: secondRest =>
    if first = second then componentsLe firstRest secondRest
    else first.rank < second.rank || (first.rank = second.rank && first.name ≤ second.name)

def pathLe (first second : Str) : Bool := componentsLe (components first) (components second)

/-- Every directory above a path, innermost first, down to the empty path. -/
def parents : Nat → Str → List Str
  | 0, _ => []
  | fuel + 1, text =>
    match parent text with
    | none | some [] => []
    | some dir => dir :: parents fuel dir

/-- Pop components off a directory until a path lies under it. -/
def popUntilAbove : Nat → Str → Str → Str
  | 0, common, _ => common
  | fuel + 1, common, path =>
    if startsWithPath path common then common
    else
      match parent common with
      | none => common
      | some shorter => popUntilAbove fuel shorter path

/-- Change the value of a path in a map, from a default where it is new. -/
def upsert {Value : Type*} (map : List (Str × Value)) (path : Str) (default : Value)
    (change : Value → Value) : List (Str × Value) :=
  match map with
  | [] => [(path, change default)]
  | (known, value) :: rest =>
    if samePath known path then (known, change value) :: rest
    else (known, value) :: upsert rest path default change

end Arclain.UnixPath
