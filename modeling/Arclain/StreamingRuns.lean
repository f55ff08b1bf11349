import Arclain.ActionRun
import Arclain.StreamingCommits

namespace Arclain.Streaming

/-!
# Runs of streaming downloads

Calls for one key take part in its downloads, get the gate one after the other, and leave.
Between them the process may end, and the work for other keys may sweep the two files away.
The result of a commit is shared among the calls that take part.
-/

open Text Cache FaultyCalls ActionRun

structure Call (downloader : Downloader) where
  request : DownloadRequestDescriptor
  retryResumeErrors : Bool
  owned : request.owner = downloader.owner

def Call.run {downloader : Downloader} (call : Call downloader) : Download Nat :=
  fetchUrlToCache downloader call.request call.retryResumeErrors

/-- The workspace of a key, and how many calls take part in its downloads. -/
structure System where
  workspace : Workspace
  participants : Nat

inductive Action (downloader : Downloader) where
  | join
  | download (call : Call downloader) (fates : Fates CacheCall)
  | leave
  | processEnds
  | elsewhere (stores : Stores) (sweep : Sweep) (clock : List Nat) (exchanges : List Exchange)
      (sweeps : List Sweep)

/-- Work for other keys uses the stores and may sweep files away. What the transport and the
clock will say is not known yet. -/
def Workspace.changedElsewhere (workspace : Workspace) (stores : Stores) (sweep : Sweep)
    (clock : List Nat) (exchanges : List Exchange) (sweeps : List Sweep) : Workspace :=
  { workspace with
    stores := stores
    clock := clock
    exchanges := exchanges
    sweeps := sweeps
    data := if sweep.data then none else workspace.data
    record := if sweep.record then none else workspace.record }

namespace System

/-- A process that has just started knows of no result. -/
def restarted (workspace : Workspace) : System where
  workspace := { workspace with completed := none }
  participants := 0

def afterCall (participants : Nat) : Ending CacheCall Workspace DownloadError Nat → System
  | .returned _ workspace _ => { workspace := workspace, participants := participants }
  | .failed _ workspace _ => { workspace := workspace, participants := participants }
  | .crashed workspace => restarted workspace

def step (downloader : Downloader) (system : System) : Action downloader → Option System
  | .join => some { system with participants := system.participants + 1 }
  | .download call fates =>
    if system.participants = 0 then none
    else some (afterCall system.participants (call.run system.workspace fates))
  | .leave =>
    match system.participants with
    | 0 => none
    | 1 => some (restarted system.workspace)
    | others + 1 => some { system with participants := others }
  | .processEnds => some (restarted system.workspace)
  | .elsewhere stores sweep clock exchanges sweeps =>
    some { system with
      workspace := system.workspace.changedElsewhere stores sweep clock exchanges sweeps }

def initial (stores : Stores) (clock : List Nat) (exchanges : List Exchange)
    (sweeps : List Sweep) : System where
  workspace :=
    { stores := stores
      clock := clock
      exchanges := exchanges
      sweeps := sweeps
      data := none
      record := none
      cells :=
        { bytesOnDisk := 0
          reservationFloor := 0
          reservedBytes := 0
          quotaFailed := false
          callbackCount := 0 }
      completed := none
      served := []
      commits := [] }
  participants := 0

end System

section

theorem initial_settled (stores : Stores) (clock : List Nat) (exchanges : List Exchange)
    (sweeps : List Sweep) : (System.initial stores clock exchanges sweeps).workspace.Settled where
  recorded :=
    { commits := nofun
      completed := fun _ impossible => nomatch impossible }
  bound := nofun

theorem changedElsewhere_fewer (workspace : Workspace) (stores : Stores) (sweep : Sweep)
    (clock : List Nat) (exchanges : List Exchange) (sweeps : List Sweep) :
    Fewer workspace (workspace.changedElsewhere stores sweep clock exchanges sweeps) := by
  refine ⟨rfl, rfl, rfl, ?_, ?_⟩
  · unfold Workspace.changedElsewhere
    dsimp only
    split
    · exact .inl rfl
    · exact .inr rfl
  · unfold Workspace.changedElsewhere
    dsimp only
    split
    · exact .inl rfl
    · exact .inr rfl

variable {workspace : Workspace}

theorem restarted_settled (settled : workspace.Settled) :
    (System.restarted workspace).workspace.Settled where
  __ := settled
  recorded :=
    { commits := settled.recorded.commits
      completed := fun _ impossible => nomatch impossible }

variable {downloader : Downloader}

theorem call_settled (call : Call downloader) (fates : Fates CacheCall)
    (settled : workspace.Settled) : (call.run workspace fates).state.Settled := by
  have settles :=
    @fetchUrlToCache_settles downloader call.request call.retryResumeErrors workspace.completed
  refine (settles.consequence (fun _ => id) ?_ (fun _ => settled_id)
    settled_id).ending ⟨settled, rfl⟩ fates
  rintro bytes after (⟨_, committed, -⟩ | shared)
  · exact committed.settled
  · exact shared.1

theorem step_settled {system next : System} {action : Action downloader}
    (settled : system.workspace.Settled) (taken : system.step downloader action = some next) :
    next.workspace.Settled := by
  cases action with
  | join =>
    cases taken
    exact settled
  | download call fates =>
    have after := call_settled call fates settled
    simp only [System.step] at taken
    split at taken
    · cases taken
    · cases taken
      cases ended : call.run system.workspace fates with
      | returned _ workspace rest | failed _ workspace rest =>
        rw [ended] at after
        exact after
      | crashed workspace =>
        rw [ended] at after
        exact restarted_settled after
  | leave =>
    simp only [System.step] at taken
    split at taken
    · cases taken
    · cases taken
      exact restarted_settled settled
    · cases taken
      exact settled
  | processEnds =>
    cases taken
    exact restarted_settled settled
  | elsewhere =>
    cases taken
    exact closed_settled (changedElsewhere_fewer _ _ _ _ _ _) settled

theorem run_settled {start final : System} {actions : List (Action downloader)}
    (settled : start.workspace.Settled)
    (ran : run (System.step downloader) start actions = some final) : final.workspace.Settled :=
  run_preserves (fun system => system.workspace.Settled) step_settled settled ran

end

/-- A blob of the returned length was committed for the request, from responses of one
representation or one full response. -/
theorem committed_blob_faithful (downloader : Downloader) (stores : Stores) (clock : List Nat)
    (exchanges : List Exchange) (sweeps : List Sweep) (actions : List (Action downloader))
    (system : System) (ran : run (System.step downloader)
      (System.initial stores clock exchanges sweeps) actions = some system)
    (call : Call downloader) (fates rest : Fates CacheCall) (bytes : Nat) (after : Workspace)
    (returned : call.run system.workspace fates = .returned bytes after rest) :
    ∃ commit ∈ after.commits, commit.request = call.request ∧ commit.blob.length = bytes ∧
      Faithful after.served call.request.url commit.blob ∧
      (Stored downloader.cache.addressing downloader.scopedKey commit.blob after.stores ∨
        system.workspace.completed = some { request := call.request, bytes := bytes }) := by
  have settled := run_settled (initial_settled _ _ _ _) ran
  have met :=
    @fetchUrlToCache_settles downloader call.request call.retryResumeErrors
      system.workspace.completed system.workspace fates ⟨settled, rfl⟩
  have ended : fetchUrlToCache downloader call.request call.retryResumeErrors
      system.workspace fates = .returned bytes after rest :=
    returned
  rw [ended] at met
  rcases met with ⟨blob, committed, rfl⟩ | ⟨settledAfter, same, shared⟩
  · exact ⟨_, committed.member, rfl, rfl, committed.settled.recorded.commits _ committed.member,
      .inl committed.stored⟩
  · obtain ⟨commit, member, isRequest, isLength⟩ :=
      settledAfter.recorded.completed _ (same.trans shared)
    refine ⟨commit, member, isRequest, isLength, ?_, .inr shared⟩
    have faithful := settledAfter.recorded.commits commit member
    rw [isRequest] at faithful
    exact faithful

def hostDownloader : Downloader where
  cache :=
    { addressing :=
      { address := fun data => "sha256-".toList ++ data.map fun byte => Char.ofNat byte.toNat
        isIntegrity := fun text => startsWith text "sha256-".toList }
      limits :=
        { maxObjectBytes := 64
          maxOwnerPartialBytes := 64
          maxOwnerPartialObjects := 4
          maxOwnerCommittedBytes := 64
          maxOwnerCommittedObjects := 4
          maxGlobalBytes := 64
          maxGlobalPartialObjects := 4
          maxGlobalCommittedObjects := 4
          minFreeSpaceBytes := 0
          partialTtlSecs := 10 } }
  reservationChunkBytes := 4
  owner := .host
  key := "v".toList
  reservationPath := 0

def hostCall : Call hostDownloader where
  request :=
    { url := "u".toList
      cacheType := 0
      productId := none
      useProxy := false
      pluginId := none }
  retryResumeErrors := false
  owned := rfl

/-- A full response of three bytes that breaks off after two. -/
def brokenResponse : Response where
  url := "u".toList
  status := 200
  statusText := "200 OK".toList
  contentLength := some [51]
  etag := some [34, 101, 34]
  chunks := [[97, 98]]
  broken := some "reset".toList

def lastByte : Response where
  url := "u".toList
  status := 206
  statusText := "206 Partial Content".toList
  contentRange := some ("bytes 2-2/3".toList.map fun char => char.toNat.toUInt8)
  etag := some [34, 101, 34]
  chunks := [[99]]

def resumedStart : System :=
  System.initial { Stores.empty with freeSpace := List.replicate 16 64 }
    (List.replicate 16 100) [.answered brokenResponse, .answered lastByte] []

/-- A call breaks off, and the next one resumes in a new process. -/
theorem resumed_blob_faithful : ∃ after : Workspace, ∃ commit ∈ after.commits,
    commit.request = hostCall.request ∧ commit.blob.length = 3 ∧
      Faithful after.served hostCall.request.url commit.blob := by
  have runs : ((run (System.step hostDownloader) resumedStart
      [.join, .download hostCall .allWork, .processEnds, .join]).bind
        fun system => (hostCall.run system.workspace .allWork).result) =
      some (.ok 3) := by
    decide +kernel
  obtain ⟨system, ran, result⟩ := Option.bind_eq_some_iff.mp runs
  obtain ⟨after, rest, returned⟩ := Ending.returned_of_result result
  obtain ⟨commit, member, isRequest, isLength, faithful, -⟩ :=
    committed_blob_faithful hostDownloader _ _ _ _ _ system ran hostCall .allWork
      rest 3 after returned
  exact ⟨after, commit, member, isRequest, isLength, faithful⟩

end Arclain.Streaming
