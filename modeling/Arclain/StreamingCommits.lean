import Arclain.StreamingAttempts

namespace Arclain.Streaming

/-!
# What a download commits

A call that returns has committed a faithful blob of the length that it returns,
or it shares the result of a call that has.
-/

open List Text Cache FaultyCalls Option Triple

section

variable {downloader : Downloader} {requestedUrl : Str} {resume : Option ResumeRecord}
  {prior : Bytes}
variable {Value : Type} {program : Download Value}

theorem tame_settled (tame : Tame program) :
    Settles Workspace.Settled program (fun _ => Workspace.Settled) :=
  tame.settles closed_settled settled_id

theorem tame_ready (tame : Tame program) :
    Settles (Workspace.Ready requestedUrl resume prior) program
      (fun _ => Workspace.Ready requestedUrl resume prior) :=
  tame.settles closed_ready fun _ ready => ready.settled

theorem keepOrAbandon_settles {returned : Value → Workspace → Prop}
    (quotaFailed : Bool) (error : DownloadError) :
    Settles Workspace.Settled (do
      keepOrAbandon downloader quotaFailed
      .throw error) returned :=
  Triple.bind (tame_settled (keepOrAbandon_tame quotaFailed)) fun _ =>
    throw fun _ => id

theorem restartAfterError_settles (error : DownloadError) :
    Settles Workspace.Settled (restartAfterError downloader requestedUrl error)
      (Workspace.Downloaded requestedUrl none) := by
  refine Triple.bind (Triple.mapError (tame_settled discardPartialRecord_tame)) fun _ => ?_
  refine Triple.bind (caused_settles _ (tame_settled release_tame)) fun _ => ?_
  refine Triple.bind (caused_settles _ (tame_settled (reserve_tame 0))) fun _ => ?_
  refine Triple.bind (caused_settles _ (openFresh_settles requestedUrl)) fun _ => ?_
  refine Triple.bind executeFetchAttempt_settles fun outcome => ?_
  rcases outcome with ⟨_ | result, quotaFailed⟩
  · exact keepOrAbandon_settles quotaFailed _
  · exact Triple.pure fun _ => id

variable (retryResumeErrors : Bool)

theorem initialAttempt_settles : Settles (Workspace.Ready requestedUrl resume prior)
      (initialAttempt downloader requestedUrl resume retryResumeErrors)
      (fun outcome =>
        Workspace.Downloaded requestedUrl (if outcome.2 then none else resume) outcome.1) := by
  refine Triple.bind executeFetchAttempt_settles fun outcome => ?_
  rcases outcome with ⟨error | result, quotaFailed⟩
  · dsimp only
    split
    · refine Triple.bind (restartAfterError_settles error) fun result => ?_
      exact Triple.pure fun _ => id
    · exact keepOrAbandon_settles quotaFailed _
  · exact Triple.pure fun _ => id

theorem restartMismatched_settles :
    Settles Workspace.Settled (restartMismatched downloader requestedUrl)
      (Workspace.Downloaded requestedUrl none) := by
  refine Triple.bind (caused_settles _ (tame_settled discardPartialRecord_tame)) fun _ => ?_
  refine Triple.bind (caused_settles _ (openFresh_settles requestedUrl)) fun _ => ?_
  refine Triple.bind (caused_settles _ (tame_ready release_tame)) fun _ => ?_
  refine Triple.bind (caused_settles _ (tame_ready (reserve_tame 0))) fun _ => ?_
  refine Triple.bind executeFetchAttempt_settles fun outcome => ?_
  rcases outcome with ⟨error | result, quotaFailed⟩
  · dsimp only
    split
    · exact Triple.bind (tame_settled abandon_tame) fun _ => throw fun _ => id
    · exact throw fun _ => id
  · exact Triple.pure fun _ => id

theorem attemptDownload_settles : Settles (Workspace.Ready requestedUrl resume prior)
      (attemptDownload downloader requestedUrl resume retryResumeErrors)
      (fun attempted =>
        Workspace.Downloaded requestedUrl attempted.resumed attempted.result) := by
  refine Triple.bind (initialAttempt_settles retryResumeErrors) fun outcome => ?_
  obtain ⟨result, didRestart⟩ := outcome
  cases didRestart with
  | true =>
    simp only [resumeWasValidated, Bool.not_true, Bool.false_and,
      Bool.and_false, Bool.false_eq_true, if_false, if_true]
    exact Triple.pure fun _ => id
  | false =>
    simp only [Bool.not_false, Bool.and_true, Bool.false_eq_true, if_false]
    split
    · exact Triple.pure fun _ => id
    · split
      · refine Triple.bind (restartMismatched_settles.consequence
          (fun _ downloaded => downloaded.settled) (fun _ _ => id)
          (fun _ => settled_id) settled_id) fun result => ?_
        exact Triple.pure fun _ => id
      next notResumed =>
        obtain rfl : resume = none := by simpa using notResumed
        exact Triple.pure fun _ => id

theorem rejectFreshPartial_settles (attempted : Attempted) : Settles
    (Workspace.Downloaded requestedUrl attempted.resumed attempted.result)
    (rejectFreshPartial downloader attempted)
    (fun _ =>
      Workspace.Downloaded requestedUrl attempted.resumed attempted.result) := by
  unfold rejectFreshPartial
  split
  · refine Triple.bind (abandon_tame.settles closed_downloaded
      fun _ downloaded => downloaded.settled) fun _ => ?_
    exact throw fun _ downloaded => downloaded.settled
  · exact Triple.pure fun _ => id

end

section

variable {downloader : Downloader} {requestedUrl : Str} {size : Nat}

/-- The partial file is complete: its bytes are a faithful blob of some size. -/
def Workspace.Complete (requestedUrl : Str) (size : Nat) (workspace : Workspace) : Prop :=
  workspace.Settled ∧ ∃ blob, workspace.HoldsAtMost blob ∧
    Faithful workspace.served requestedUrl blob ∧
    blob.length = size

theorem closed_complete : Closed (Workspace.Complete requestedUrl size) := by
  intro before after fewer ⟨settled, blob, holds, faithful, sized⟩
  refine ⟨closed_settled fewer settled, blob, fewer.holdsAtMost holds, ?_, sized⟩
  rw [fewer.served]
  exact faithful

theorem faithful_of_sized {workspace : Workspace} {served : Served} {prior : Bytes}
    {attempted : Attempted}
    (answers : served.Answers requestedUrl attempted.resumed attempted.result)
    (live : workspace.Live served prior served.response.body)
    (sized : (prior ++ served.response.body).length =
      attempted.totalSize (prior ++ served.response.body).length) :
    Faithful workspace.served requestedUrl (prior ++ served.response.body) := by
  obtain ⟨requested, agrees, -, -, totalSize⟩ := answers
  unfold Attempted.totalSize at sized
  cases resumed : attempted.resumed with
  | some record =>
    rw [resumed] at sized agrees
    have describes := describes_of_reproduces agrees
    obtain ⟨isPartial, -, -, etag, strong, -⟩ := reproduces_iff.mp agrees
    refine .assembled (record.representation served.requestedUrl) requested ?_
      sized (live.comesAfter.assembled live.member describes live.fromBody)
    rw [etag] at strong
    exact strongEtag_of_isStrongEtag strong
  | none =>
    rw [resumed] at sized agrees
    -- A full response starts the file anew.
    have noPrior : prior = [] := by
      rcases live.comesAfter with ⟨-, isEmpty⟩ | ⟨isPartial, -⟩
      · exact isEmpty
      · exact absurd (isPartial.symm.trans agrees) (by decide)
    subst noPrior
    refine .single served live.member requested agrees rfl ?_
    intro _ isTotal
    rw [totalSize, isTotal] at sized
    exact sized

theorem completedSize_settles (attempted : Attempted) : Settles
    (Workspace.Downloaded requestedUrl attempted.resumed attempted.result)
    (completedSize downloader attempted) (Workspace.Complete requestedUrl) := by
  have flushes :=
    touch_settles (@closed_downloaded requestedUrl attempted.resumed attempted.result)
      fun _ downloaded => downloaded.settled
  refine Triple.bind (flushes _) fun _ => ?_
  refine Triple.bind (caused_settles _
    (partialLength_settles fun _ downloaded => downloaded.settled))
    fun partialSize => ?_
  split
  · have reserves := tame_settled (@reserve_tame downloader partialSize).ignoreError
    refine Triple.bind (reserves.consequence (fun _ held => held.1.settled) (fun _ _ => id)
      (fun _ => settled_id) settled_id) fun _ => ?_
    exact throw fun _ => id
  next same =>
    refine Triple.pure fun workspace held => ?_
    obtain ⟨⟨_, _, answers, live⟩, _, hasData, sized⟩ := held
    obtain rfl := live.holds.eq_of_data hasData
    subst sized
    exact ⟨live.settled, _, .inr hasData,
      faithful_of_sized answers live (Decidable.not_not.mp same), rfl⟩

theorem flatten_readBuffers (size room : Nat) (bytes : Bytes) :
    (readBuffers size room bytes).1 ++ (readBuffers size room bytes).2.flatten =
      bytes := by
  induction bytes generalizing room with
  | nil => cases room <;> rfl
  | cons _ bytes ih =>
    cases room with
    | zero =>
      have rest := ih (size - 1)
      simp [readBuffers, rest]
    | succ room =>
      have rest := ih room
      simp [readBuffers, rest]

theorem readBuffers_zero (size : Nat) (bytes : Bytes) : (readBuffers size 0 bytes).1 = [] := by
  cases bytes <;> rfl

theorem copyBuffers_settles {holds : Workspace → Prop} (closed : Closed holds)
    (settled : ∀ workspace, holds workspace → workspace.Settled) (buffers : List Bytes)
    (written : Bytes) :
    Settles holds (copyBuffers buffers written) (fun copied workspace =>
      holds workspace ∧ copied = written ++ buffers.flatten) := by
  have touches := touch_settles closed settled
  induction buffers generalizing written with
  | nil =>
    refine Triple.bind (touches _) fun _ => Triple.pure fun _ held => ?_
    exact ⟨held, by simp⟩
  | cons buffer buffers ih =>
    refine Triple.bind (touches _) fun _ => ?_
    refine Triple.bind (touches _) fun _ => ?_
    have copies := ih (written ++ buffer)
    rw [append_assoc, ← flatten_cons] at copies
    exact copies

/-- Bytes that were copied from a complete file. -/
structure Workspace.Copied (requestedUrl : Str) (size : Nat) (written : Bytes)
    (workspace : Workspace) : Prop where
  settled : workspace.Settled
  faithful : Faithful workspace.served requestedUrl written
  sized : written.length = size

theorem closed_copied {written : Bytes} : Closed (Workspace.Copied requestedUrl size written) := by
  intro _ _ fewer copied
  refine ⟨closed_settled fewer copied.settled, ?_, copied.sized⟩
  rw [fewer.served]
  exact copied.faithful

theorem transferPartial_settles : Settles (Workspace.Complete requestedUrl size) transferPartial
    (Workspace.Copied requestedUrl size) := by
  refine Triple.bind (caused_settles _ (read_settles _ fun _ complete => complete.1))
    fun found => ?_
  cases found with
  | none => exact throw fun _ held => held.1.1
  | some contents =>
    have copied : ∀ workspace : Workspace, workspace.Complete requestedUrl size ∧
        some contents = workspace.data → workspace.Copied requestedUrl size contents := by
      rintro workspace ⟨⟨settled, _, holds, faithful, sized⟩, isRead⟩
      obtain rfl := holds.eq_of_data isRead.symm
      exact ⟨settled, faithful, sized⟩
    have touches :=
      touch_settles (@closed_copied requestedUrl size contents) fun _ held => held.settled
    have copies :=
      copyBuffers_settles (@closed_copied requestedUrl size contents)
        (fun _ held => held.settled) (readBuffers (64 * 1024) 0 contents).2 []
    have isContents : [] ++ (readBuffers (64 * 1024) 0 contents).2.flatten = contents := by
      have whole := flatten_readBuffers (64 * 1024) 0 contents
      rwa [readBuffers_zero] at whole
    rw [isContents] at copies
    refine consequence ?_ copied (fun _ _ => id) (fun _ => settled_id) settled_id
    refine Triple.bind (touches _) fun _ => ?_
    refine Triple.bind (touches _) fun _ => ?_
    refine copies.consequence (fun _ => id) ?_ (fun _ => settled_id) settled_id
    rintro written workspace ⟨held, rfl⟩
    exact held

end

section

variable {digest : Addressing} {scopedKey : Str} {blob : Bytes}

def HasBlob (digest : Addressing) (blob : Bytes) (stores : Stores) : Prop :=
  stores.blobs.lookup (digest.address blob) = some blob

/-- The row of the key names the blob, which is in the content store. -/
structure Stored (digest : Addressing) (scopedKey : Str) (blob : Bytes)
    (stores : Stores) : Prop where
  row : ∃ row, stores.rows.lookup scopedKey = some row ∧ row.contentHash = digest.address blob
  hasBlob : HasBlob digest blob stores

theorem upsertWithRetry_stored (sizeBytes now attempts : Nat) : Triple (HasBlob digest blob)
    (ContentCache.upsertWithRetry scopedKey (digest.address blob) sizeBytes now attempts)
    ⟨fun result stores =>
      match result with
      | .ok () => Stored digest scopedKey blob stores
      | .error _ => True,
      fun _ _ => True, fun _ => True⟩ := by
  induction attempts with
  | zero => exact Triple.pure fun _ _ => trivial
  | succ attempts ih =>
    have tries : Triple (HasBlob digest blob) (Faulty.attempt
        (upsert scopedKey (digest.address blob) (some sizeBytes) now)) ⟨fun result stores =>
          match result with
          | .ok () => Stored digest scopedKey blob stores
          | .error _ => HasBlob digest blob stores,
          fun _ _ => True, fun _ => True⟩ := by
      refine attempt (Triple.call ?_ ?_ ?_ ?_ ?_)
      · exact fun _ held => ⟨⟨_, AList.lookup_insert _, rfl⟩, held⟩
      · exact fun _ => id
      · exact fun _ => id
      · exact fun _ _ => trivial
      · exact fun _ _ => trivial
    refine tries.bind fun result => ?_
    cases result with
    | ok => exact Triple.pure fun _ => id
    | error error =>
      dsimp only
      split
      · exact Triple.pure fun _ _ => trivial
      · exact ih

theorem upsertSri_stored (bytes now : Nat) : Triple (HasBlob digest blob)
    (upsertSri scopedKey (digest.address blob) bytes now)
    ⟨fun _ => Stored digest scopedKey blob, fun _ _ => True, fun _ => True⟩ := by
  unfold upsertSri
  split
  · exact throw fun _ _ => trivial
  · refine (upsertWithRetry_stored bytes now 3).bind fun result => ?_
    cases result with
    | ok => exact Triple.pure fun _ => id
    | error error => exact throw fun _ _ => trivial

theorem discardBlobIfUnreferenced_stored {contentHash : Str}
    (different : contentHash ≠ digest.address blob) : Keeps (Stored digest scopedKey blob)
      (discardBlobIfUnreferenced digest contentHash) := by
  have looks : Keeps (Stored digest scopedKey blob) (hasContentHash contentHash) :=
    Keeps.call fun _ => id
  refine looks.bind fun isReferenced => Keeps.ite (Keeps.pure _) ?_
  refine Keeps.ite (Keeps.call ?_) (Keeps.pure _)
  rintro stores ⟨row, hasBlob⟩
  refine ⟨row, ?_⟩
  rw [HasBlob] at hasBlob ⊢
  rw [← hasBlob]
  exact AList.lookup_erase_ne different.symm

theorem discardReplaced_stored (previousEntry : Option Row) :
    Keeps (Stored digest scopedKey blob)
      (discardReplaced digest previousEntry (digest.address blob)) := by
  unfold discardReplaced
  split
  next previous isReplaced =>
    have different : previous.contentHash ≠ digest.address blob := by
      simpa using (filter_eq_some_iff.mp isReplaced).2
    exact (discardBlobIfUnreferenced_stored different).attempt.bind fun _ => Keeps.pure _
  · exact Keeps.pure _

theorem commitStreaming_stored (now : Nat) : Triple (fun _ => True)
    (commitStreaming digest scopedKey blob now)
    ⟨fun bytes stores => bytes = blob.length ∧ Stored digest scopedKey blob stores,
      fun _ _ => True, fun _ => True⟩ := by
  have probes :=
    @Triple.unconstrained _ _ _ _ (fun _ => True) (ContentCache.probeReplacedEntry scopedKey)
  have writes : Triple (fun _ => True) (writeHash digest blob) ⟨fun sri stores =>
    HasBlob digest blob stores ∧ sri = digest.address blob,
      fun _ _ => True, fun _ => True⟩ := by
    refine Triple.call ?_ ?_ ?_ ?_ ?_
    · exact fun _ _ => ⟨AList.lookup_insert _, rfl⟩
    all_goals exact fun _ _ => trivial
  refine probes.bind fun previousEntry => writes.bind fun sri => ?_
  refine assuming fun isAddress => ?_
  subst isAddress
  have publishes : Triple (HasBlob digest blob) (Faulty.attempt
      (upsertSri scopedKey (digest.address blob) blob.length now)) ⟨fun result stores =>
        match result with
        | .ok () => Stored digest scopedKey blob stores
        | .error _ => True,
        fun _ _ => True, fun _ => True⟩ :=
    attempt (upsertSri_stored blob.length now)
  refine publishes.bind fun result => ?_
  cases result with
  | ok =>
    have discards : Triple (Stored digest scopedKey blob)
        (discardReplaced digest previousEntry (digest.address blob))
        ⟨fun _ => Stored digest scopedKey blob, fun _ _ => True, fun _ => True⟩ :=
      (discardReplaced_stored previousEntry).consequence (fun _ => id)
        (fun _ _ => id) (fun _ _ _ => trivial) fun _ _ => trivial
    exact discards.bind fun _ => Triple.pure fun _ held => ⟨rfl, held⟩
  | error error => exact (unconstrained _).bind fun _ => throw fun _ _ => trivial

end

section

variable {downloader : Downloader} {request : DownloadRequestDescriptor} {size : Nat} {blob : Bytes}

/-- The blob is committed for a request, and stored under the key. -/
structure Workspace.Committed (downloader : Downloader) (request : DownloadRequestDescriptor)
    (blob : Bytes) (workspace : Workspace) : Prop where
  settled : workspace.Settled
  member : { request := request, blob := blob } ∈ workspace.commits
  stored : Stored downloader.cache.addressing downloader.scopedKey blob workspace.stores

theorem committed_of_copied {workspace : Workspace}
    (copied : workspace.Copied request.url size blob)
    (stored : Stored downloader.cache.addressing downloader.scopedKey blob workspace.stores) :
    Workspace.Committed downloader request blob
      { workspace with
        commits := { request := request, blob := blob } :: workspace.commits }
    where
  settled := by
    refine ⟨⟨?_, ?_⟩, copied.settled.bound⟩
    · intro commit member
      rcases mem_cons.mp member with rfl | earlier
      · exact copied.faithful
      · exact copied.settled.recorded.commits commit earlier
    · intro completed isCompleted
      obtain ⟨commit, member, same⟩ := copied.settled.recorded.completed completed isCompleted
      exact ⟨commit, mem_cons_of_mem _ member, same⟩
  member := mem_cons_self
  stored := stored

theorem commitBlob_settles : Settles (Workspace.Copied request.url size blob)
    (commitBlob downloader request blob)
    (fun bytes workspace =>
      workspace.Committed downloader request blob ∧ bytes = blob.length) := by
  have times :=
    commitTime_tame.settles (@closed_copied request.url size blob) fun _ copied => copied.settled
  refine Triple.bind times fun now => ?_
  have framed : ∀ (workspace : Workspace) (stores : Stores),
      workspace.Copied request.url size blob → Workspace.Copied request.url size blob
        { workspace with stores := stores } :=
    fun workspace stores copied => closed_copied (Fewer.ofStores workspace stores) copied
  have commits : Settles (Workspace.Copied request.url size blob) (withStores
      (commitStreaming downloader.cache.addressing downloader.scopedKey blob now))
        (fun bytes workspace =>
          (bytes = blob.length ∧ Stored downloader.cache.addressing downloader.scopedKey blob
            workspace.stores) ∧
          workspace.Copied request.url size blob) := by
    refine Triple.mapError ((within (commitStreaming_stored now)
      (fun _ _ => rfl) framed).consequence ?_ ?_ ?_ ?_)
    · exact fun _ copied => ⟨trivial, copied⟩
    · exact fun _ _ => id
    · exact fun _ _ held => held.2.settled
    · exact fun _ held => held.2.settled
  have records (bytes : Nat) : Settles (fun workspace =>
    (bytes = blob.length ∧ Stored downloader.cache.addressing downloader.scopedKey blob
      workspace.stores) ∧
    workspace.Copied request.url size blob) (recordCommit request blob) (fun _ workspace =>
      workspace.Committed downloader request blob ∧ bytes = blob.length) :=
    update fun _ held => ⟨committed_of_copied held.2 held.1.2, held.1.1⟩
  refine Triple.bind commits fun bytes => ?_
  exact Triple.bind (records bytes) fun _ => Triple.pure fun _ => id

theorem discardPartialRecord_committed :
    Keeps (Workspace.Committed downloader request blob) discardPartialRecord := by
  have fewer (workspace : Workspace) (data : Option Bytes) (record : Option (Option PartialMeta))
      (noMoreData : data = none ∨ data = workspace.data)
      (noMoreRecord : record = none ∨ record = workspace.record)
      (committed : workspace.Committed downloader request blob) :
      Workspace.Committed downloader request blob
        { workspace with data := data, record := record } := by
    have removed : Fewer workspace { workspace with data := data, record := record } :=
      ⟨rfl, rfl, rfl, noMoreData, noMoreRecord⟩
    exact ⟨closed_settled removed committed.settled, committed.member, committed.stored⟩
  have removesRecord : Keeps (Workspace.Committed downloader request blob) removeRecord :=
    Keeps.mapError (Keeps.call fun workspace committed =>
      fewer workspace workspace.data none (.inr rfl) (.inl rfl) committed)
  have removesData : Keeps (Workspace.Committed downloader request blob) removeData :=
    Keeps.mapError (Keeps.call fun workspace committed =>
      fewer workspace none workspace.record (.inl rfl) (.inr rfl) committed)
  exact removesRecord.bind fun _ => removesData

theorem release_committed : Keeps (Workspace.Committed downloader request blob)
    (release downloader) := by
  have releases : Keeps (Stored downloader.cache.addressing downloader.scopedKey blob)
      (ContentCache.release downloader.reservationPath) :=
    Keeps.call fun _ stored => ⟨stored.row, stored.hasBlob⟩
  have framed : ∀ (workspace : Workspace) (stores : Stores), workspace.Settled ∧
      { request := request, blob := blob } ∈ workspace.commits →
        Workspace.Settled { workspace with stores := stores } ∧
          { request := request, blob := blob } ∈ workspace.commits :=
    fun workspace stores held => ⟨closed_settled (Fewer.ofStores workspace stores) held.1, held.2⟩
  refine Triple.mapError ((within releases (fun _ _ => rfl) framed).consequence ?_ ?_ ?_ ?_)
  · exact fun _ committed => ⟨committed.stored, committed.settled, committed.member⟩
  · exact fun _ _ held => ⟨held.2.1, held.2.2, held.1⟩
  · exact fun _ _ held => ⟨held.2.1, held.2.2, held.1⟩
  · exact fun _ held => ⟨held.2.1, held.2.2, held.1⟩

theorem rememberCompleted_settles : Settles (Workspace.Committed downloader request blob)
    (rememberCompleted request blob.length)
    (fun _ => Workspace.Committed downloader request blob) := by
  refine update fun workspace committed => ?_
  refine ⟨⟨⟨committed.settled.recorded.commits, ?_⟩, committed.settled.bound⟩,
    committed.member, committed.stored⟩
  intro _ isCompleted
  cases isCompleted
  exact ⟨_, committed.member, rfl, rfl⟩

theorem commitCompleted_settles : Settles (Workspace.Complete request.url size)
    (commitCompleted downloader request size)
    (fun bytes workspace =>
      ∃ blob, workspace.Committed downloader request blob ∧
        bytes = blob.length) := by
  have prepares :=
    (Tame.withStores (downloader.cache.prepareCommit downloader.owner downloader.scopedKey
      size)).settles (@closed_complete request.url size)
      fun _ complete => complete.1
  refine Triple.bind (orAbandon_settles prepares) fun _ => ?_
  refine Triple.bind transferPartial_settles fun written => ?_
  refine Triple.bind (orAbandon_settles (caused_settles _ commitBlob_settles))
    fun bytes => assuming fun isLength => ?_
  subst isLength
  have keeps {program : Download Unit}
      (kept : Keeps (Workspace.Committed downloader request written) program) :=
    settles_of_keeps kept fun _ committed => committed.settled
  have discards : Keeps (Workspace.Committed downloader request written)
      (ignoreError discardPartialRecord) :=
    discardPartialRecord_committed.attempt.bind fun _ => Keeps.pure _
  refine Triple.bind (keeps discards) fun _ => ?_
  refine Triple.bind (caused_settles _ (keeps release_committed)) fun _ => ?_
  refine Triple.bind rememberCompleted_settles fun _ => ?_
  exact Triple.pure fun _ committed => ⟨written, committed, rfl⟩

theorem downloadAndCommit_settles (retryResumeErrors : Bool) : Settles Workspace.Settled
    (downloadAndCommit downloader request retryResumeErrors)
    (fun bytes workspace =>
      ∃ blob, workspace.Committed downloader request blob ∧
        bytes = blob.length) := by
  refine Triple.bind (caused_settles _ (prepareResumeRecord_settles request.url)) fun resume => ?_
  have reserves :=
    (@reserve_tame downloader ((resume.map ResumeRecord.offset).getD 0)).settles
      (@closed_resumable request.url resume) fun _ resumable => resumable.settled
  refine Triple.bind (orAbandon_settles reserves) fun _ => ?_
  refine Triple.bind (openPartial_settles request.url resume) fun _ => ?_
  refine Triple.bind (settles_of_forall fun _ => attemptDownload_settles retryResumeErrors)
    fun attempted => ?_
  refine Triple.bind (rejectFreshPartial_settles attempted) fun _ => ?_
  refine Triple.bind (completedSize_settles attempted) fun partialSize => ?_
  exact commitCompleted_settles

theorem fetchUrlToCache_settles (retryResumeErrors : Bool) (completed : Option CompletedDownload) :
    Settles (fun workspace => workspace.Settled ∧ workspace.completed = completed)
      (fetchUrlToCache downloader request retryResumeErrors)
      (fun bytes workspace =>
        (∃ blob, workspace.Committed downloader request blob ∧
          bytes = blob.length) ∨
        workspace.Settled ∧ workspace.completed = completed ∧
          completed = some { request := request, bytes := bytes }) := by
  have closed : Closed fun workspace =>
    workspace.Settled ∧ workspace.completed = completed :=
    fun fewer held => ⟨closed_settled fewer held.1, fewer.completed.trans held.2⟩
  have touches := touch_settles closed fun _ held => held.1
  refine Triple.bind (touches _) fun _ => Triple.bind (touches _) fun _ => ?_
  refine Triple.bind (touches _) fun _ => ?_
  have looks : Settles (fun workspace => workspace.Settled ∧ workspace.completed = completed)
      (Faulty.inspect fun workspace =>
        workspace.completed.filter fun completed => completed.request = request)
      (fun found workspace =>
        (workspace.Settled ∧ workspace.completed = completed) ∧ found =
          completed.filter fun completed => completed.request = request) :=
    update fun workspace held => ⟨held, by rw [← held.2]⟩
  refine Triple.bind looks fun found => assuming fun isFound => ?_
  cases found with
  | some =>
    obtain ⟨isCompleted, sameRequest⟩ := filter_eq_some_iff.mp isFound.symm
    refine Triple.pure fun workspace held => .inr ⟨held.1, held.2, ?_⟩
    rw [isCompleted, ← of_decide_eq_true sameRequest]
  | none =>
    exact (downloadAndCommit_settles retryResumeErrors).consequence
      (fun _ held => held.1) (fun _ _ => .inl) (fun _ => settled_id)
      settled_id

end

end Arclain.Streaming
