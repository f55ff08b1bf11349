import Arclain.ArchiveQueries
import Arclain.SessionSerialization

namespace Arclain.ArchiveMutation

/-!
# Readers of a session and the revision they report

A reader takes the guard of the index, reads the revision and then the rows.  A writer
replaces the index first and bumps the revision after it.
-/

open List OperationRegistry Text Option EntryIndex

inductive ReadQuery where
  | listEntries (request : ListEntriesRequest)
  | inventory
  | organizationEntries

/-- A reader that holds the guard of the index: before and after it has read
the revision. -/
inductive Reader where
  | guarding (query : ReadQuery)
  | dated (query : ReadQuery) (revision : Nat)

inductive Answer where
  | page (page : EntryPage)
  | inventory (inventory : ArchiveInventory)
  | organization (revision : Nat) (entries : List ArchiveEntry)

namespace Answer

/-- The revision the rows were reported with. -/
def revision : Answer → Nat
  | .page shown | .inventory shown => shown.revision
  | .organization revision _ => revision

/-- The rows of an index under their ids; the organization rules see paths and kinds only. -/
def From (answer : Answer) (index : EntryIndex) : Prop :=
  match answer with
  | .page shown | .inventory shown => ∀ row ∈ shown.entries, index.byId.lookup row.id = some row
  | .organization _ entries =>
    ∀ entry ∈ entries, ∃ row, index.byId.lookup row.id = some row ∧ row.path.value = entry.path ∧
      (row.kind = .directory ↔ entry.isDir = true)

end Answer

def answer [CharTables] (session : ArchiveSessionId) (index : EntryIndex)
    (revision : Nat) : ReadQuery → Answer
  | .listEntries request => .page (index.listEntries session revision request)
  | .inventory => .inventory (index.inventory session revision)
  | .organizationEntries => .organization revision index.organizationEntries

/-- A mutation that resolves its ids: the index it resolves them against, and what the
readers had obtained by then. -/
structure Resolution where
  operation : OperationId
  request : ArchiveMutationRequest
  index : EntryIndex
  obtained : List Answer

/-- The tasks of a session together with its readers. -/
structure Watched where
  system : System
  readers : KeyedMap Nat Reader
  obtained : List Answer
  resolutions : List Resolution

/-- One atomic section of a task or of a reader. -/
inductive WatchedAction where
  | task (action : Action)
  | takeGuard (reader : Nat) (query : ReadQuery)
  | readRevision (reader : Nat)
  | readRows (reader : Nat)

namespace Watched

/-- A session that was just opened, without readers. -/
def initial [CharTables] [Crc32] (session : ArchiveSessionId) (headersEncrypted : Bool)
    (entries : List ArchiveEntry) : Watched where
  system := System.initial session headersEncrypted entries
  readers := ∅
  obtained := []
  resolutions := []

/-- The section takes the write guard of the index. -/
def writesIndex (system : System) : Action → Bool
  | .advance id =>
    match mutationOf system id with
    | some (_, .listed _ _) => true
    | _ => false
  | .backfillAdvance task =>
    match system.backfills.lookup task with
    | some (.locked _ _) => true
    | _ => false
  | _ => false

/-- The mutation that resolves its ids in a section, if one does. -/
def resolution (capabilities : BackendCapabilities) (watched : Watched) : Action → List Resolution
  | .advance id =>
    match mutationOf watched.system id with
    | some (request, .approved) =>
      match checkCapability capabilities request with
      | .ok () =>
        [{ operation := id
           request := request
           index := watched.system.session.index
           obtained := watched.obtained }]
      | .error _ => []
    | _ => []
  | _ => []

/-- One atomic section of a task or of a reader. -/
def step [CharTables] [Crc32] (capabilities : BackendCapabilities)
    (watched : Watched) : WatchedAction → Option Watched
  | .task action =>
    if writesIndex watched.system action = true ∧ watched.readers.keys ≠ [] then none
    else
      match ArchiveMutation.step capabilities watched.system action with
      | some system =>
        some { watched with
          system := system
          resolutions := watched.resolutions ++ watched.resolution capabilities action }
      | none => none
  | .takeGuard reader query =>
    if watched.readers.lookup reader = none then
      some { watched with
        readers := watched.readers.insert reader (.guarding query) }
    else none
  | .readRevision reader =>
    match watched.readers.lookup reader with
    | some (.guarding query) =>
      some { watched with
        readers := watched.readers.insert reader (.dated query watched.system.session.revision) }
    | _ => none
  | .readRows reader =>
    match watched.readers.lookup reader with
    | some (.dated query revision) =>
      some { watched with
        readers := watched.readers.erase reader
        obtained := watched.obtained ++
          [answer watched.system.session.id watched.system.session.index revision query] }
    | _ => none

end Watched

theorem revision_answer [CharTables] (session : ArchiveSessionId) (index : EntryIndex)
    (revision : Nat) (query : ReadQuery) :
    (answer session index revision query).revision = revision := by
  cases query <;> rfl

theorem from_answer [CharTables] {index : EntryIndex} {assigner : EntryIdAssigner}
    (numbered : index.Numbered assigner) (session : ArchiveSessionId) (revision : Nat)
    (query : ReadQuery) : (answer session index revision query).From index := by
  cases query with
  | listEntries =>
    intro row mem
    exact numbered.lookup_of_mem (mem_rows_of_listEntries mem)
  | inventory =>
    intro row mem
    exact numbered.lookup_of_mem (mem_rows_of_walkEntries mem)
  | organizationEntries =>
    intro _ mem
    obtain ⟨row, rowMember, rfl⟩ := mem_organizationEntries.mp mem
    refine ⟨row, numbered.lookup_of_mem rowMember, rfl, ?_⟩
    simp [organizationEntry]

/-- Rows of the current revision are of the current index, unless a task is between its two
writes. -/
structure Consistent (watched : Watched) : Prop where
  serialized : Serialized watched.system
  datedPast : ∀ {reader query revision},
    watched.readers.lookup reader = some (.dated query revision) →
    revision ≤ watched.system.session.revision
  obtainedPast : ∀ answer ∈ watched.obtained, answer.revision ≤ watched.system.session.revision
  current : ¬ Swapping watched.system → ∀ answer ∈ watched.obtained,
    answer.revision = watched.system.session.revision → answer.From watched.system.session.index
  resolved : ∀ resolution ∈ watched.resolutions, ∀ answer ∈ resolution.obtained,
    answer.revision = resolution.request.expectedRevision → answer.From resolution.index

namespace Consistent

variable {watched next : Watched}

theorem initially [CharTables] [Crc32] (session : ArchiveSessionId) (headersEncrypted : Bool)
    (entries : List ArchiveEntry) :
    Consistent (Watched.initial session headersEncrypted entries) := by
  refine ⟨Serialized.initially session headersEncrypted entries, ?_, ?_, ?_, ?_⟩
  · intro _ _ _ bound
    simp [Watched.initial] at bound
  · intro answer mem
    cases mem
  · intro _ answer mem
    cases mem
  · intro _ mem
    cases mem

variable {system : System}

theorem not_swapping_of_checked (serialized : Serialized system)
    {id : OperationId} {request : ArchiveMutationRequest} {phase : Phase}
    (bound : system.workers.lookup id = some (.mutation request phase))
    (checked : phase.isChecked = true) : ¬ Swapping system := by
  have holder := serialized.held bound (Phase.holds_of_isChecked checked)
  rintro (⟨other, _, indexed⟩ | ⟨_, patched⟩)
  · have otherHolder := serialized.held indexed rfl
    rw [holder] at otherHolder
    obtain rfl : id = other := by simpa using otherHolder
    rw [bound] at indexed
    obtain ⟨-, rfl⟩ := Worker.mutation.inj (some.inj indexed)
    cases checked
  · have otherHolder := serialized.heldBackfill patched rfl
    rw [holder] at otherHolder
    cases otherHolder

variable {capabilities : BackendCapabilities} {action : Action}

theorem resolution (consistent : Consistent watched) :
    ∀ resolution ∈ watched.resolution capabilities action, ∀ answer ∈ resolution.obtained,
      answer.revision = resolution.request.expectedRevision → answer.From resolution.index := by
  intro resolution mem
  unfold Watched.resolution at mem
  split at mem
  · split at mem
    next found =>
      split at mem
      · obtain rfl := mem_singleton.mp mem
        have bound := mutationOf_eq_some_iff.mp found
        intro answer obtained dated
        apply consistent.current (not_swapping_of_checked consistent.serialized bound rfl)
          answer obtained
        exact dated.trans (consistent.serialized.checked bound rfl)
      · cases mem
    · cases mem
  · cases mem

theorem task [CharTables] [Crc32] (consistent : Consistent watched)
    (taken : ArchiveMutation.step capabilities watched.system action = some system) :
    Consistent { watched with
      system := system
      resolutions :=
        watched.resolutions ++ watched.resolution capabilities action } := by
  obtain ⟨serialized, shows⟩ := proceeds_of_step consistent.serialized taken
  have grows : watched.system.session.revision ≤ system.session.revision := by
    cases shows with
    | kept index revision swapping | swapped revision swapping => exact revision.symm.le
    | bumped index revision => omega
  refine ⟨serialized, ?_, ?_, ?_, ?_⟩
  · intro _ _ revision bound
    exact (consistent.datedPast bound).trans grows
  · intro answer mem
    exact (consistent.obtainedPast answer mem).trans grows
  · intro stable answer mem dated
    cases shows with
    | kept index revision swapping =>
      show answer.From system.session.index
      rw [index]
      apply consistent.current (fun swaps => stable (swapping swaps)) answer mem
      exact dated.trans revision
    | swapped revision swapping => exact (stable swapping).elim
    | bumped index revision =>
      have past := consistent.obtainedPast answer mem
      have future : answer.revision = system.session.revision := dated
      omega
  · intro resolution mem
    rcases mem_append.mp mem with earlier | last
    · exact consistent.resolved resolution earlier
    · exact consistent.resolution resolution last

theorem of_readers (consistent : Consistent watched) {readers : KeyedMap Nat Reader}
    {obtained : List Answer}
    (datedPast : ∀ {reader query revision}, readers.lookup reader = some (.dated query revision) →
      revision ≤ watched.system.session.revision)
    (added : ∀ answer ∈ obtained, answer ∈ watched.obtained ∨
      (answer.revision ≤ watched.system.session.revision ∧
        answer.From watched.system.session.index)) :
    Consistent { watched with readers := readers, obtained := obtained } := by
  refine ⟨consistent.serialized, datedPast, ?_, ?_, consistent.resolved⟩
  · intro answer mem
    rcases added answer mem with earlier | ⟨past, _⟩
    · exact consistent.obtainedPast answer earlier
    · exact past
  · intro stable answer mem dated
    rcases added answer mem with earlier | ⟨_, shown⟩
    · exact consistent.current stable answer earlier dated
    · exact shown

theorem step [CharTables] [Crc32] (consistent : Consistent watched) {action : WatchedAction}
    (taken : watched.step capabilities action = some next) : Consistent next := by
  cases action with
  | task action =>
    simp only [Watched.step] at taken
    split at taken
    · cases taken
    · split at taken
      next advanced =>
        cases taken
        exact consistent.task advanced
      · cases taken
  | takeGuard reader query =>
    simp only [Watched.step] at taken
    split at taken
    · cases taken
      refine consistent.of_readers ?_ fun _ => .inl
      intro other found revision bound
      rw [KeyedMap.lookup_insert_ite] at bound
      split at bound
      · cases bound
      · exact consistent.datedPast bound
    · cases taken
  | readRevision reader =>
    simp only [Watched.step] at taken
    split at taken
    · cases taken
      refine consistent.of_readers ?_ fun _ => .inl
      intro other found revision bound
      rw [KeyedMap.lookup_insert_ite] at bound
      split at bound
      · cases bound
        exact le_rfl
      · exact consistent.datedPast bound
    · cases taken
  | readRows reader =>
    simp only [Watched.step] at taken
    split at taken
    next query revision bound =>
      cases taken
      refine consistent.of_readers ?_ ?_
      · intro other found _ otherBound
        replace otherBound := KeyedMap.lookup_of_erase otherBound
        exact consistent.datedPast otherBound
      · intro _ mem
        rcases mem_append.mp mem with earlier | last
        · exact .inl earlier
        · obtain rfl := mem_singleton.mp last
          right
          rw [revision_answer]
          exact ⟨consistent.datedPast bound,
            from_answer consistent.serialized.numbered _ revision query⟩
    · cases taken

end Consistent

/-- Rows read with the revision a mutation expects are rows of the index that it resolves. -/
theorem obtained_rows_resolved [CharTables] [Crc32] {capabilities : BackendCapabilities}
    {session : ArchiveSessionId} {headersEncrypted : Bool} {entries : List ArchiveEntry}
    {actions : List WatchedAction} {final : Watched}
    (ran : ActionRun.run (Watched.step capabilities)
      (Watched.initial session headersEncrypted entries) actions = some final) :
    ∀ resolution ∈ final.resolutions, ∀ answer ∈ resolution.obtained,
      answer.revision = resolution.request.expectedRevision → answer.From resolution.index := by
  have consistent : Consistent final :=
    ActionRun.run_preserves Consistent (fun consistent => consistent.step)
      (Consistent.initially session headersEncrypted entries) ran
  exact consistent.resolved

/-- A run with readers of a session that was opened on two files. -/
def sampleWatchedRun (actions : List WatchedAction) : Option Watched :=
  ActionRun.run (@Watched.step asciiTables crc32Ieee fullFeatured)
    (@Watched.initial asciiTables crc32Ieee 1 false twoFiles) actions

/-- An inventory is read, and a deletion prepared with its revision resolves its
ids. -/
def inventoryThenDeletion : List WatchedAction :=
  [.takeGuard 1 .inventory, .readRevision 1, .readRows 1] ++
    (spawnDeletion 1 1 1 ++ toQueue 1 ++ toDispatch 1).map .task

/-- The deletion resolves its ids against the index that was read. -/
theorem obtained_rows_resolved_after_inventory : ∃ final,
    sampleWatchedRun inventoryThenDeletion = some final ∧ (final.resolutions.map fun resolution =>
      (resolution.obtained.map Answer.revision, resolution.request.expectedRevision)) = [([1], 1)] ∧
      ∀ resolution ∈ final.resolutions, ∀ answer ∈ resolution.obtained,
        answer.revision = resolution.request.expectedRevision → answer.From resolution.index := by
  have evaluated : (sampleWatchedRun inventoryThenDeletion).map
      (fun final => final.resolutions.map fun resolution =>
        (resolution.obtained.map Answer.revision, resolution.request.expectedRevision)) =
        some [([1], 1)] := by
    decide +kernel
  obtain ⟨final, ran, seen⟩ := map_eq_some_iff.mp evaluated
  exact ⟨final, ran, seen, @obtained_rows_resolved asciiTables crc32Ieee _ _ _ _ _ final ran⟩

end Arclain.ArchiveMutation
