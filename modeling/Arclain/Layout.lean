import Arclain.ArchiveListing
import Arclain.OrganizationPlan

namespace Arclain

/-!
# Layouts, rules and what they are applied to

The data a rule is written in and the data it reads besides the archive listing.  Every
field that no planning step reads (ids, priorities, descriptions) is left out.
-/

open Text

inductive OutputSelector where
  | whole
  | perDirectoryContaining (marker : Str)
  deriving DecidableEq

/-- A variable read out of a file inside the input. -/
structure FileVariable where
  asName : Str
  file : Str
  key : Str

/-- The source of files to place in an output. -/
inductive Source where
  | all
  | matching (glob : Str)
  | contentRoot
  deriving DecidableEq

structure Placement where
  source : Source
  into : Str

inductive GeneratedContent where
  | metadataDocument

structure Generated where
  into : Str
  content : GeneratedContent

/-- The source of images to fetch into an output. -/
inductive FetchSource where
  | screenshots

structure Fetched where
  into : Str
  source : FetchSource
  name : Str

/-- How to organize an archive's output.  The defaults are `Layout::default`. -/
structure Layout where
  outputs : OutputSelector := .whole
  fileVariables : List FileVariable := []
  name : Str := []
  place : List Placement := []
  generate : List Generated := []
  fetch : List Fetched := []

/-- What a rule does and the pattern its variables may come from. -/
structure OrganizationRule where
  name : Str
  filenamePattern : Option Str
  layout : Layout

inductive ScreenshotData where
  | url (url : Str)
  | filePath (path : Str)
  | base64 (data : Str)

structure GameMetadata where
  productId : Str
  source : Str
  title : Str
  description : Option Str
  tags : List Str
  releaseDate : Option Str
  creator : Option Str
  screenshots : List ScreenshotData
  metadataJson : Str

/-- Read the bytes of an archive entry by its path. -/
abbrev ReadEntry := Str → Option ByteArray

end Arclain
