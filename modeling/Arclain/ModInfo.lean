import Arclain.Text

namespace Arclain

/-!
# `modinfo.ini` files

Mod managers ship a `modinfo.ini` next to each mod's content.  Only its `name` is made safe
for a file system.
-/

open Text

/-- The parsed view of a `modinfo.ini` file. -/
structure ModInfo where
  name : Option Str := none
  addonfor : Option Str := none
  screenshot : Option Str := none

namespace ModInfo

/-- The value of a `key=value` or `key = value` line. -/
def takeValue (line key : Str) : Option Str :=
  match line.dropPrefix? (key ++ " = ".toList) with
  | some rest => some (trim rest)
  | none =>
    match line.dropPrefix? (key ++ "=".toList) with
    | some rest => some (trim rest)
    | none => none

/-- Map the characters a file system may refuse to underscores and trim. -/
def sanitizeModinfoName (name : Str) : Str :=
  let mapped := name.map fun char =>
    if char ∈ ['<', '>', ':', '"', '/', '\\', '|', '?', '*'] then '_'
    else if char.toNat < 0x20 then '_'
    else char
  trimStartMatches (· = '.') (trimEndMatches (· = '.') (trim mapped))

/-- A line that sets nothing: blank, a section header or a comment. -/
def isSkippedLine (line : Str) : Bool :=
  line = [] || startsWith line ['['] || startsWith line ['#'] || startsWith line [';']

def parseLine (info : ModInfo) (line : Str) : ModInfo :=
  let line := trim line
  if isSkippedLine line then info
  else
    match takeValue line "name".toList with
    | some rest =>
      let sanitized := sanitizeModinfoName rest
      if sanitized = [] then info else { info with name := some sanitized }
    | none =>
      match takeValue line "addonfor".toList with
      | some rest => if rest = [] then info else { info with addonfor := some rest }
      | none =>
        match takeValue line "screenshot".toList with
        | some rest =>
          let stripped := (rest.dropPrefix? "./".toList).getD rest
          if stripped = [] then info
          else { info with screenshot := some stripped }
        | none => info

def parseStr (contents : Str) : ModInfo := (lines contents).foldl parseLine {}

end ModInfo

/-- The keys a file variable may take from a `modinfo.ini`. -/
inductive ModInfoKey where
  | name
  | addonFor
  | screenshot

namespace ModInfoKey

def parse (key : Str) : Option ModInfoKey :=
  if key = "name".toList then some .name
  else if key = "addonfor".toList then some .addonFor
  else if key = "screenshot".toList then some .screenshot
  else none

def take : ModInfoKey → ModInfo → Option Str
  | .name, info => info.name
  | .addonFor, info => info.addonfor
  | .screenshot, info => info.screenshot

end ModInfoKey

end Arclain
