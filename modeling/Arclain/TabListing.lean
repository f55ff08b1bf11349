import Arclain.BrowserRows

namespace Arclain

/-!
# What a tab lists

A mutator that reports whether it did something is a function into `Option` here: `none`
says that it left its value as it was.
-/

open Text

def normalizeFragment (path : Str) : Str :=
  ['/'].intercalate ((path.splitOnP fun char => char = '/' ∨ char = '\\').filter fun segment =>
    segment ≠ [])

/-- `parent_of`, for a path that is known to be one. -/
def ArchivePath.parent (path : ArchivePath) : ArchivePath := .parseOrRoot (entryParent path.value)

/-- `ArchiveNavigation`.  The head of each history is its top. -/
structure ArchiveNavigation where
  current : ArchivePath := .root
  back : List ArchivePath := []
  forward : List ArchivePath := []

namespace ArchiveNavigation

section

variable (navigation : ArchiveNavigation)

/-- `push_history`: the root is not recorded. -/
def pushHistory : ArchiveNavigation :=
  if navigation.current.value = [] then navigation
  else { navigation with back := navigation.current :: navigation.back }

/-- The part that `descend` and `go_to_directory` share. -/
def moveTo (directory : ArchivePath) : ArchiveNavigation :=
  { navigation.pushHistory with
    current := directory
    forward := [] }

def descend (folder : Str) : Option ArchiveNavigation :=
  let segment := normalizeFragment folder
  if segment = [] then none
  else
    let joined :=
      if navigation.current.value = [] then segment
      else navigation.current.value ++ '/' :: segment
    match ArchivePath.parse joined with
    | .error _ => none
    | .ok next => some (navigation.moveTo next)

def goToDirectory (directory : ArchivePath) : Option ArchiveNavigation :=
  if directory = navigation.current then none
  else some (navigation.moveTo directory)

def goTo (path : Str) : Option ArchiveNavigation :=
  match ArchivePath.parse (normalizeFragment path) with
  | .error _ => none
  | .ok next => navigation.goToDirectory next

/-- `back`: through the history, then out to the root. -/
def goBack : Option ArchiveNavigation :=
  match navigation.back with
  | previous :: earlier =>
    some {
      current := previous
      back := earlier
      forward := navigation.current :: navigation.forward }
  | [] =>
    if navigation.current.value = [] then none
    else
      some {
        current := .root
        back := []
        forward := navigation.current :: navigation.forward }

/-- `forward`. -/
def goForward : Option ArchiveNavigation :=
  match navigation.forward with
  | next :: later =>
    some {
      current := next
      back := navigation.current :: navigation.back
      forward := later }
  | [] => none

def up : Option ArchiveNavigation :=
  if navigation.current.value = [] then none
  else
    some {
      current := navigation.current.parent
      back := navigation.current :: navigation.back
      forward := [] }

end

end ArchiveNavigation

inductive RequestStatus where
  | unlisted
  | loading
  | listed
  | refreshing
  | unlistable (error : ApplicationError)
  | stale (error : ApplicationError)

def RequestStatus.contentsKnown : RequestStatus → Bool
  | .unlisted | .loading | .unlistable _ => false
  | .listed | .refreshing | .stale _ => true

abbrev ListingGeneration := Nat

/-- `TabListing`.  Its request is for the directory that is browsed. -/
structure TabListing where
  session : Option ArchiveSessionId
  navigation : ArchiveNavigation
  request : ListEntriesRequest
  status : RequestStatus
  generation : ListingGeneration
  browsed : request.directory = navigation.current

namespace TabListing

def forSession (session : Option ArchiveSessionId) : TabListing where
  session := session
  navigation := {}
  request := .wholeDirectory .root
  status := .unlisted
  generation := 0
  browsed := rfl

def directory (listing : TabListing) : ArchivePath := listing.request.directory

def beginLoading (listing : TabListing) : TabListing :=
  { listing with
    generation := listing.generation + 1
    status := if listing.status.contentsKnown then .refreshing else .loading }

/-- `answers_current_request`. -/
def AnswersCurrentRequest (listing : TabListing) (generation : ListingGeneration)
    (session : ArchiveSessionId) (directory : ArchivePath) : Prop :=
  generation = listing.generation ∧ listing.session = some session ∧ directory = listing.directory

instance (listing : TabListing) (generation : ListingGeneration) (session : ArchiveSessionId)
    (directory : ArchivePath) :
    Decidable (listing.AnswersCurrentRequest generation session directory) :=
  inferInstanceAs (Decidable (_ ∧ _ ∧ _))

section

variable (listing : TabListing) (generation : ListingGeneration) (session : ArchiveSessionId)
  (directory : ArchivePath)

def succeed : Option TabListing :=
  if listing.AnswersCurrentRequest generation session directory then
    some { listing with status := .listed }
  else none

def fail (error : ApplicationError) : Option TabListing :=
  if listing.AnswersCurrentRequest generation session directory then
    some { listing with
      status := if listing.status.contentsKnown then .stale error else .unlistable error }
  else none

end

/-- `navigated`, for the navigation that it makes of the listing's own. -/
def navigated (listing : TabListing)
    (navigate : ArchiveNavigation → Option ArchiveNavigation) : Option TabListing :=
  match navigate listing.navigation with
  | none => none
  | some navigation =>
    some {
      session := listing.session
      navigation := navigation
      request :=
        { listing.request with
          directory := navigation.current
          offset := 0 }
      status := if listing.status.contentsKnown then .listed else .unlisted
      generation := listing.generation + 1
      browsed := rfl }

def descend (listing : TabListing) (folder : Str) : Option TabListing :=
  listing.navigated fun navigation => navigation.descend folder

def goTo (listing : TabListing) (path : Str) : Option TabListing :=
  listing.navigated fun navigation => navigation.goTo path

/-- `back`. -/
def goBack (listing : TabListing) : Option TabListing := listing.navigated ArchiveNavigation.goBack

/-- `forward`. -/
def goForward (listing : TabListing) : Option TabListing :=
  listing.navigated ArchiveNavigation.goForward

def up (listing : TabListing) : Option TabListing := listing.navigated ArchiveNavigation.up

section

variable {listing next : TabListing}

theorem directory_of_fail {generation : ListingGeneration} {session : ArchiveSessionId}
    {directory : ArchivePath} {error : ApplicationError}
    (settled : listing.fail generation session directory error = some next) :
    next.directory = listing.directory := by
  unfold fail at settled
  split at settled
  · cases settled
    rfl
  · cases settled

end

end TabListing

structure TabInventory where
  session : Option ArchiveSessionId
  rows : Option ArchiveInventory

namespace TabInventory

def forSession (session : Option ArchiveSessionId) : TabInventory where
  session := session
  rows := none

def entries (inventory : TabInventory) : List ArchiveEntryDto :=
  match inventory.rows with
  | some rows => rows.entries
  | none => []

/-- `adopt`: the rows of another session and older ones are refused. -/
def adopt (inventory : TabInventory) (prepared : ArchiveInventory) : Option TabInventory :=
  if inventory.session ≠ some prepared.sessionId then none
  else
    match inventory.rows with
    | some held =>
      if prepared.revision < held.revision then none
      else some { inventory with rows := some prepared }
    | none => some { inventory with rows := some prepared }

end TabInventory

structure BrowserEntriesSnapshot where
  revision : Nat := 0
  entries : List FileEntry := []

def BrowserEntriesSnapshot.replace (snapshot : BrowserEntriesSnapshot)
    (entries : List FileEntry) : BrowserEntriesSnapshot where
  revision := max ((snapshot.revision + 1) % 2 ^ 64) 1
  entries := entries

end Arclain
