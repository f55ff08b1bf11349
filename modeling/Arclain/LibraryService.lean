import Arclain.ActionRun
import Arclain.KeyedMap
import Arclain.ProductMetadata

namespace Arclain.LibraryService

/-!
# The library service and its list cache

Threads call `save_metadata`, `delete_metadata` and `list_by_source`.  Each call to the
database, each section under the guard of the list cache and the bump of the epoch is one
step.

`history` numbers the contents of the database.
-/

open ActionRun Library Text

variable {Source : Type} [DecidableEq Source]

/-- The table of product metadata, by id. -/
abbrev Rows (Source : Type) := KeyedMap Str (ProductMetadata Source)

/-- `sync_list_ids_by_source`: which ids the database lists for a source, and in
which order. -/
abbrev ListIds (Source : Type) := Rows Source → Source → List Str

inductive Phase (Source : Type) where
  /-- `save_metadata` before it reads the existing row. -/
  | saving (row : ProductMetadata Source)
  /-- `save_metadata` past its guards, with what it read: nothing if the read
  failed. -/
  | writing (row : ProductMetadata Source) (read : Option (Option (ProductMetadata Source)))
  /-- `delete_metadata` before the call to the database. -/
  | deleting (id : Str)
  /-- A write that succeeded, before the cache is cleared. -/
  | clearing (version : Nat)
  /-- A write whose clear is done, before the epoch is bumped. -/
  | bumping (version : Nat)
  /-- `list_by_source` after a miss, with the epoch it read. -/
  | querying (since : Nat) (source : Source) (epoch : Nat)
  /-- `list_by_source` with the ids that the database returned. -/
  | inserting (since : Nat) (source : Source) (epoch : Nat) (queried : Nat) (ids : List Str)
  /-- `list_by_source` has returned these ids. -/
  | listed (since : Nat) (source : Source) (ids : List Str)
  deriving DecidableEq

def Phase.isOver : Phase Source → Bool
  | .listed _ _ _ => true
  | _ => false

/-- The service, its database and its callers. -/
structure System (Source : Type) where
  history : Nat → Rows Source
  version : Nat
  listCache : KeyedMap Source (List Str)
  bumps : Nat
  threads : KeyedMap Nat (Phase Source)
  returned : Nat

/-- One step of a thread. `works` says whether a call to the database succeeds. -/
inductive Action (Source : Type) where
  | save (thread : Nat) (row : ProductMetadata Source)
  | delete (thread : Nat) (id : Str)
  | list (thread : Nat) (source : Source)
  | advance (thread : Nat) (works : Bool)

namespace System

/-- A service on a database with given rows, before any call. -/
def initial (rows : Rows Source) : System Source where
  history := fun _ => rows
  version := 0
  listCache := ∅
  bumps := 0
  threads := ∅
  returned := 0

def rows (system : System Source) : Rows Source := system.history system.version

/-- The value of `cache_epoch` after a number of bumps. -/
def cacheEpoch (bumps : Nat) : UInt64 := UInt64.ofNat bumps

def isFree (system : System Source) (thread : Nat) : Bool :=
  (system.threads.lookup thread).elim true Phase.isOver

def enter (system : System Source) (thread : Nat) (phase : Phase Source) : System Source :=
  { system with threads := system.threads.insert thread phase }

def leave (system : System Source) (thread : Nat) : System Source :=
  { system with threads := system.threads.erase thread }

/-- A write of the database succeeded: its new contents get the next number. -/
def commit (system : System Source) (rows : Rows Source) : System Source :=
  { system with
    history := Function.update system.history (system.version + 1) rows
    version := system.version + 1 }

/-- A row blocked here does not replace one that is not, nor a less complete row a more
complete one. -/
def refuses (row existing : ProductMetadata Source) : Bool :=
  (row.geoBlocked && !existing.geoBlocked) ||
    decide (row.completenessScore < existing.completenessScore)

/-- `list_by_source` up to the end of its read guard. -/
def startList (system : System Source) (thread : Nat) (source : Source) : System Source :=
  match system.listCache.lookup source with
  | some ids => system.enter thread (.listed system.returned source ids)
  | none => system.enter thread (.querying system.returned source system.bumps)

/-- `save_metadata` reads the existing row and applies its guards. -/
def readExisting (system : System Source) (thread : Nat) (row : ProductMetadata Source)
    (works : Bool) : System Source :=
  if works then
    match system.rows.lookup row.id with
    | some existing =>
      if refuses row existing then system.leave thread
      else system.enter thread (.writing row (some (some existing)))
    | none => system.enter thread (.writing row (some none))
  else system.enter thread (.writing row none)

/-- `list_by_source` under its write guard: the ids are inserted if the epoch is unchanged. -/
def insertList (system : System Source) (thread since : Nat) (source : Source) (epoch : Nat)
    (ids : List Str) : System Source :=
  let inserted :=
    if cacheEpoch system.bumps = cacheEpoch epoch then
      { system with listCache := system.listCache.insert source ids }
    else system
  inserted.enter thread (.listed since source ids)

def advance (listIds : ListIds Source) (system : System Source) (thread : Nat)
    (works : Bool) : Phase Source → Option (System Source)
  | .saving row => some (system.readExisting thread row works)
  | .writing row _ =>
    if works then
      some ((system.commit (system.rows.insert row.id row)).enter thread
        (.clearing (system.version + 1)))
    else some (system.leave thread)
  | .deleting id =>
    if works then
      some ((system.commit (system.rows.erase id)).enter thread (.clearing (system.version + 1)))
    else some (system.leave thread)
  | .clearing version =>
    some { system with
      listCache := ∅
      threads := system.threads.insert thread (.bumping version) }
  | .bumping version =>
    some { system with
      bumps := system.bumps + 1
      threads := system.threads.erase thread
      returned := max system.returned version }
  | .querying since source epoch =>
    if works then
      some (system.enter thread (.inserting since source epoch system.version
        (listIds system.rows source)))
    else some (system.leave thread)
  | .inserting since source epoch _ ids => some (system.insertList thread since source epoch ids)
  | .listed _ _ _ => none

def step (listIds : ListIds Source)
    (system : System Source) : Action Source → Option (System Source)
  | .save thread row =>
    if system.isFree thread then some (system.enter thread (.saving row))
    else none
  | .delete thread id =>
    if system.isFree thread then some (system.enter thread (.deleting id))
    else none
  | .list thread source =>
    if system.isFree thread then some (system.startList thread source)
    else none
  | .advance thread works =>
    (system.threads.lookup thread).bind (system.advance listIds thread works)

end System

end Arclain.LibraryService
