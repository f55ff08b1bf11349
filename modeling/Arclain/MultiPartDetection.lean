import Arclain.ModifiedTime
import Arclain.MultiPart

namespace Arclain.MultiPart

/-!
# Recognising the parts of a split archive

Five detectors are tried in a fixed order on the lower-cased name.  Each is one regular
expression: a base name, a marker that ends with no digit, digits, and an ending, so a name
is read in one way only.
-/

open Text

/-- The decimal digits of Unicode, which `\d` stands for. -/
class DigitTable where
  isDecimal : Char → Bool
  ofAscii : ∀ {char : Char}, char.toNat < 128 → isDecimal char = char.isDigit

@[reducible] def asciiDigits : DigitTable where
  isDecimal := Char.isDigit
  ofAscii := fun _ => rfl

structure MultiPartArchive where
  firstPart : FilePath
  allParts : List FilePath
  format : MultiPartFormat
  baseName : Str
  deriving DecidableEq

def resolveOrLiteral [CharTables] (disk : List FilePath) (parent nameLower : Str) : FilePath :=
  (resolveIgnoringCase disk parent nameLower).getD { parent := parent, name := nameLower }

/-- What `(.+)` matches: some text on one line. -/
def isBase (text : Str) : Bool := text ≠ [] && '\n' ∉ text

/-- The base name of `^(.+)ENDING$`. -/
def captureEnding (ending name : Str) : Option Str := (name.dropSuffix? ending).filter isBase

def firstPartName (baseName : Str) : MultiPartFormat → Str
  | .rarPart => rarPartName baseName 1
  | .rarSequence => baseName ++ ".rar".toList
  | .sevenZip => sevenZipName baseName 1
  | .zipSplit => baseName ++ ".zip".toList
  | .generic001 => generic001Name baseName 1

/-- `str::parse::<u32>` of digits. -/
def parseU32 (digits : Str) : Option Nat := (parseDigits digits).filter (· < 2 ^ 32)

section

variable [DigitTable]

/-- The base name and the digits of `^(.+)MARKER(\d+)ENDING$`. -/
def captureNumbered (marker ending name : Str) : Option (Str × Str) := do
  let front ← name.dropSuffix? ending
  let baseName ← captureEnding marker (front.rdropWhile DigitTable.isDecimal)
  let digits := front.rtakeWhile DigitTable.isDecimal
  if digits = [] then none else some (baseName, digits)

variable [CharTables] (disk : List FilePath)

def detected (parent : Str) (format : MultiPartFormat) (baseName : Str) : MultiPartArchive where
  firstPart := resolveOrLiteral disk parent (firstPartName baseName format)
  allParts := []
  format := format
  baseName := baseName

/-- The base name in `base.partN.rar`. -/
def rarPartBase (name : Str) : Option Str := do
  let (baseName, digits) ← captureNumbered ".part".toList ".rar".toList name
  let _ ← parseU32 digits
  some baseName

def detectRarPart (path : FilePath) (name : Str) : Option MultiPartArchive :=
  (rarPartBase name).map (detected disk path.parent .rarPart)

/-- The base name in `base.rNN` and `base.rNNN`. -/
def rarSequenceBase (name : Str) : Option Str := do
  let (baseName, digits) ← captureNumbered ".r".toList [] name
  if digits.length = 2 ∨ digits.length = 3 then some baseName else none

/-- `detect_rar_sequence`: a `.rar` belongs to a sequence if there is an `.r00`. -/
def detectRarSequence (path : FilePath) (name : Str) : Option MultiPartArchive :=
  match captureEnding ".rar".toList name with
  | some baseName => do
    let _ ← resolveIgnoringCase disk path.parent (baseName ++ ".r00".toList)
    some (detected disk path.parent .rarSequence baseName)
  | none => (rarSequenceBase name).map (detected disk path.parent .rarSequence)

/-- The base name in `base.7z.NNN`. -/
def sevenZipBase (name : Str) : Option Str := do
  let (baseName, digits) ← captureNumbered ".7z.".toList [] name
  if digits.length = 3 then some baseName else none

/-- `detect_7z_split`. -/
def detectSevenZip (path : FilePath) (name : Str) : Option MultiPartArchive :=
  (sevenZipBase name).map (detected disk path.parent .sevenZip)

/-- The base name in `base.zNN`. -/
def zipSplitBase (name : Str) : Option Str := do
  let (baseName, digits) ← captureNumbered ".z".toList [] name
  if digits.length = 2 then some baseName else none

/-- `detect_zip_split`: a `.zip` belongs to a split if there is a `.z01`. -/
def detectZipSplit (path : FilePath) (name : Str) : Option MultiPartArchive :=
  match captureEnding ".zip".toList name with
  | some baseName => do
    let _ ← resolveIgnoringCase disk path.parent (baseName ++ ".z01".toList)
    some (detected disk path.parent .zipSplit baseName)
  | none => (zipSplitBase name).map (detected disk path.parent .zipSplit)

/-- The base name in `base.NNN`, from 001 to 999. -/
def generic001Base (name : Str) : Option Str := do
  let (baseName, digits) ← captureNumbered ".".toList [] name
  if digits.length = 3 then
    let number ← parseU32 digits
    if number = 0 ∨ 999 < number then none else some baseName
  else none

def detectGeneric001 (path : FilePath) (name : Str) : Option MultiPartArchive :=
  (generic001Base name).map (detected disk path.parent .generic001)

def detect (path : FilePath) : Option MultiPartArchive :=
  let name := CharTables.toLowercase path.name
  (detectRarPart disk path name).or <| (detectRarSequence disk path name).or <|
    (detectSevenZip disk path name).or <| (detectZipSplit disk path name).or
      (detectGeneric001 disk path name)

end

section

variable [CharTables] (disk : List FilePath)

def MultiPartArchive.findAllParts (archive : MultiPartArchive) : MultiPartArchive :=
  { archive with
    allParts :=
      MultiPart.findAllParts disk archive.firstPart.parent archive.baseName archive.format }

/-- `find_missing_parts`: parts found in sequence are taken to have no gaps. -/
def MultiPartArchive.findMissingParts (_ : MultiPartArchive) : List Str := []

structure ValidationResult where
  isComplete : Bool
  foundParts : List FilePath
  missingParts : List Str
  totalSize : Nat

/-- `MultiPartArchive::validate`, with the lengths of the files that can be
read. -/
def MultiPartArchive.validate (length : FilePath → Option Nat)
    (archive : MultiPartArchive) : MultiPartArchive × ValidationResult :=
  let archive := if archive.allParts = [] then archive.findAllParts disk else archive
  let missingParts := archive.findMissingParts
  (archive,
    { isComplete := missingParts = [] && archive.allParts ≠ []
      foundParts := archive.allParts
      missingParts := missingParts
      totalSize := (archive.allParts.filterMap length).sum })

end

end Arclain.MultiPart
