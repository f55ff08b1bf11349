import Arclain.Layout
import Arclain.UnixPath

namespace Arclain.ContentRoot

/-!
# Detecting the content root

The folder of an entry list that looks like the payload.  Each indicator found
in a folder is worth one, so the evidence list is the score written out.
-/

open Text UnixPath

/-- The folder that looks like the payload, and what made it look that way. -/
structure DetectedContentRoot where
  path : Str
  score : Nat
  evidence : List Str
  deriving DecidableEq

def gameIndicators : List Str :=
  ["Game.exe".toList, "game.exe".toList, "nw.exe".toList,
    "index.html".toList, "package.json".toList, "www".toList, "data".toList, "js".toList]

def isIndicator (name : Str) : Bool :=
  gameIndicators.any fun indicator => eqIgnoreAsciiCase name indicator

def parentAndName (entry : ArchiveEntry) : Option (Str × Str) :=
  match parent entry.path, fileName entry.path with
  | some folder, some name => some (folder, name)
  | _, _ => none

def namedIndicators (entries : List ArchiveEntry) : List (Str × List Str) :=
  entries.foldl (fun named entry =>
    match parentAndName entry with
    | some (folder, name) =>
      if isIndicator name then upsert named folder [] fun names => names ++ [name]
      else named
    | none => named)
    []

def executables [CharTables] (entries : List ArchiveEntry) : List (Str × Str) :=
  entries.foldl (fun found entry =>
    match parentAndName entry with
    | some (folder, name) =>
      if !entry.isDir && endsWith (CharTables.toLowercase name) ".exe".toList then
        upsert found folder name fun smallest => if name < smallest then name else smallest
      else found
    | none => found)
    []

/-- The folders the file paths imply, each once, in path order. -/
def impliedDirs (entries : List ArchiveEntry) : List Str :=
  let all := entries.flatMap fun entry => parents (entry.path.length + 1) entry.path
  let distinct := all.foldl (fun dirs dir => upsert dirs dir () id) []
  (distinct.map Prod.fst).insertionSort fun first second => pathLe first second

def scoredFolders [CharTables] (entries : List ArchiveEntry) : List (Str × List Str) :=
  let byName := (namedIndicators entries).foldl (fun scored folder =>
    upsert scored folder.1 [] fun evidence => evidence ++ folder.2.insertionSort (· ≤ ·))
    []
  let byExecutable := (executables entries).foldl (fun scored folder =>
    upsert scored folder.1 [] fun evidence =>
      evidence ++ ["an executable (".toList ++ folder.2 ++ ")".toList])
    byName
  (impliedDirs entries).foldl (fun scored dir =>
    match parent dir, fileName dir with
    | some folder, some name =>
      if isIndicator name then
        upsert scored folder [] fun evidence =>
          evidence ++ ["a ".toList ++ name ++ "/ folder".toList]
      else scored
    | _, _ => scored)
    byExecutable

/-- Higher scores come first, and among equal scores the smaller path. -/
def ranksBefore (first second : Str × List Str) : Bool :=
  second.2.length < first.2.length || (first.2.length = second.2.length && pathLe first.1 second.1)

def commonRoot : List ArchiveEntry → Str
  | [] => []
  | entry :: rest =>
    rest.foldl (fun common other => popUntilAbove (common.length + 1) common other.path)
      ((parent entry.path).getD [])

def detectContentRoot [CharTables] (entries : List ArchiveEntry) : DetectedContentRoot :=
  let ranked := (scoredFolders entries).insertionSort fun first second => ranksBefore first second
  match ranked with
  | (folder, evidence) :: _ =>
    if evidence.length ≥ 2 then { path := folder, score := evidence.length, evidence := evidence }
    else { path := commonRoot entries, score := 0, evidence := [] }
  | [] => { path := commonRoot entries, score := 0, evidence := [] }

end Arclain.ContentRoot
