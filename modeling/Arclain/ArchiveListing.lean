import Arclain.OperationEvent
import Arclain.Text

namespace Arclain

/-!
# Archive listings and archive paths

What a backend reports about an archive, and the paths inside an archive that the
application accepts.  An `ArchivePath` carries the proof that it is relative, has no parent
traversal and no NUL.
-/

open Text

structure ArchiveEntry where
  path : Str
  size : Nat
  packedSize : Nat
  modified : Option Str := none
  isDir : Bool
  encrypted : Bool
  crc32 : Option Str
  deriving DecidableEq

/-- `is_absolute`, on a path that is already written with forward slashes. -/
def isAbsoluteArchivePath : Str → Bool
  | '/' :: _ => true
  | drive :: ':' :: _ => drive.isAlpha
  | _ => false

/-- Why `ArchivePath::parse` refuses a path. -/
def archivePathFault (normalized : Str) : Option String :=
  if '\x00' ∈ normalized then some "archive path must not contain NUL bytes"
  else if isAbsoluteArchivePath normalized then some "archive path must be relative"
  else if "..".toList ∈ normalized.splitOn '/' then
    some "archive path must not contain parent traversal segments"
  else none

structure ArchivePath where
  value : Str
  sound : archivePathFault value = none
  deriving DecidableEq

def invalidPathError (reason : String) : ApplicationError :=
  ({ kind := .invalidInput
     summary := reason
     suggestedAction := some .chooseDestination
     field := some "path" } : ApplicationError).withRecoverability .userAction

namespace ArchivePath

def root : ArchivePath where
  value := []
  sound := by decide

/-- `ArchivePath::parse`. Replacing backslashes changes no NUL, so that test may come after
it. -/
def parse (raw : Str) : Except ApplicationError ArchivePath :=
  match fault : archivePathFault (forwardSlashes raw) with
  | some reason => .error (invalidPathError reason)
  | none => .ok { value := forwardSlashes raw, sound := fault }

/-- `ArchivePath::parse`, with the root for what it refuses. -/
def parseOrRoot (raw : Str) : ArchivePath :=
  match parse raw with
  | .ok path => path
  | .error _ => root

end ArchivePath

end Arclain
