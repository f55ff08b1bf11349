import Arclain.ContentCache
import Arclain.StreamingResponse

namespace Arclain.Streaming

/-!
# Streaming downloads

A download appends a body to a partial file, beside which a record says whose bytes these
are.  A later call resumes from it, and a complete file is copied into the content store.

Every access may fail or be the last of the process.  `served` and `commits` are history,
the newest first.
-/

open Text Cache FaultyCalls Option Faulty

structure PartialMeta where
  requestedUrl : Option Str
  url : Str
  etag : Option Str
  lastModified : Option Str
  totalSize : Option Nat

structure ResumeRecord where
  offset : Nat
  totalSize : Nat
  etag : Str
  validatedUrl : Str

/-- The kinds of cached resources are not told apart here. -/
abbrev CacheType := Nat

structure DownloadRequestDescriptor where
  url : Str
  cacheType : CacheType
  productId : Option Str
  useProxy : Bool
  pluginId : Option PluginId
  deriving DecidableEq

def DownloadRequestDescriptor.owner (request : DownloadRequestDescriptor) : CacheOwner :=
  match request.pluginId with
  | some id => .plugin id
  | none => .host

structure CompletedDownload where
  request : DownloadRequestDescriptor
  bytes : Nat

/-- A response whose metadata was published: its request, and the range it was accepted with. -/
structure Served where
  requestedUrl : Str
  requestedStart : Option Nat
  response : Response
  range : Option ContentRange
  accepted : response.acceptedRange requestedStart = .ok range

def Served.metadata (served : Served) : StreamingResponseMetadata :=
  served.response.metadata served.range

structure Commit where
  request : DownloadRequestDescriptor
  blob : Bytes

/-- The cells one attempt shares with its callbacks, and the bytes it has put into the file. -/
structure Cells where
  bytesOnDisk : Nat
  reservationFloor : Nat
  reservedBytes : Nat
  quotaFailed : Bool
  callbackCount : Nat

/-- Which of the two files a scan sweeps away. -/
structure Sweep where
  data : Bool
  record : Bool

/-- What the calls of one key work on: the partial file `data`, none once swept away, and
its `record`, `some none` if unreadable. -/
structure Workspace where
  stores : Stores
  clock : List Nat
  exchanges : List Exchange
  sweeps : List Sweep
  data : Option Bytes
  record : Option (Option PartialMeta)
  cells : Cells
  completed : Option CompletedDownload
  served : List Served
  commits : List Commit

/-- A message, a failed access or a refusal of the cache, an error in its context, or two
errors in a row. -/
inductive DownloadError where
  | message (text : Str)
  | cache (error : CacheError)
  | caused (context : String) (cause : DownloadError)
  | joined (context : String) (first second : DownloadError)
  deriving DecidableEq

/-- A computation over the workspace. -/
abbrev Download := Faulty CacheCall Workspace DownloadError

/-- What the downloads of one key have in common. -/
structure Downloader where
  cache : ContentCache
  reservationChunkBytes : Nat
  owner : CacheOwner
  key : Str
  reservationPath : Nat

def Downloader.scopedKey (downloader : Downloader) : Str :=
  downloader.owner.scopedKey downloader.key

def access {Value : Type} (effect : Workspace → Value × Workspace) : Download Value :=
  call .file (.cache .io) effect

/-- An access to a file that changes nothing here. -/
def touch : Download Unit := access fun workspace => ((), workspace)

def withStores {Value : Type} (program : Program Value) : Download Value :=
  mapError .cache (within Workspace.stores
    (fun workspace stores => { workspace with stores := stores }) program)

def caused {Value : Type} (context : String) (program : Download Value) : Download Value :=
  mapError (.caused context) program

def failWith {Value : Type} (text : String) : Download Value := .throw (.message text.toList)

def ignoreError (program : Download Unit) : Download Unit := do
  let _ ← attempt program
  pure ()

def isStrongEtag (etag : Str) : Bool :=
  2 ≤ etag.length && etag.head? = some '"' && etag.getLast? = some '"' &&
    !startsWith etag "W/".toList &&
    etag.tail.dropLast.all fun char =>
      char.toNat = 0x21 || (0x23 ≤ char.toNat && char.toNat ≤ 0x7e) || 0x80 ≤ char.toNat

/-- `remove_record_file_with` for the record. -/
def removeRecord : Download Unit :=
  caused "removing partial sidecar"
    (access fun workspace => ((), { workspace with record := none }))

/-- `remove_record_file_with` for the partial file. -/
def removeData : Download Unit :=
  caused "removing partial sidecar" (access fun workspace => ((), { workspace with data := none }))

/-- `discard_partial_record_with`: the record goes first. -/
def discardPartialRecord : Download Unit := do
  removeRecord
  removeData

/-- `fs::metadata` of the partial file. -/
def partialLength : Download Nat := do
  match ← access fun workspace => (workspace.data, workspace) with
  | some bytes => pure bytes.length
  | none => .throw (.cache .io)

def readMeta : Download (Option PartialMeta) := do
  match ← attempt (access fun workspace => (workspace.record.join, workspace)) with
  | .ok found => pure found
  | .error _ => pure none

def resumeCandidate (requestedUrl : Str) (offset : Nat)
    (partialMeta : PartialMeta) : Option ResumeRecord := do
  let totalSize ← partialMeta.totalSize
  let etag ← partialMeta.etag
  if partialMeta.requestedUrl ≠ some requestedUrl ∨ !isStrongEtag etag ∨
    offset = 0 ∨ totalSize ≤ offset then
    none
  else
    some
      { offset := offset
        totalSize := totalSize
        etag := etag
        validatedUrl := partialMeta.url }

/-- The candidate that `prepare_resume_record_with` reads off the files. -/
def readCandidate (requestedUrl : Str) : Download (Option ResumeRecord) := do
  match ← attempt partialLength with
  | .error _ => pure none
  | .ok offset =>
    match ← readMeta with
    | none => pure none
    | some partialMeta => pure (resumeCandidate requestedUrl offset partialMeta)

/-- `prepare_resume_record_with`. -/
def prepareResumeRecord (requestedUrl : Str) : Download (Option ResumeRecord) := do
  let dataExists ← caused "checking partial data"
      (access fun workspace => (workspace.data.isSome, workspace))
  let metaExists ← caused "checking partial metadata"
      (access fun workspace => (workspace.record.isSome, workspace))
  if !dataExists && !metaExists then pure none
  else
    match ← readCandidate requestedUrl with
    | some record => pure (some record)
    | none => do
      discardPartialRecord
      pure none

/-- `write_meta`: the record is written to a temporary file and renamed. -/
def writeMeta (partialMeta : PartialMeta) : Download Unit := do
  caused "creating partial dir" touch
  caused "creating temporary partial meta" touch
  caused "writing temporary partial meta" touch
  caused "flushing temporary partial meta" touch
  caused "syncing temporary partial meta" touch
  caused "atomically installing partial meta" (access fun workspace =>
    ((), { workspace with record := some (some partialMeta) }))

def reproduces (record : ResumeRecord) (metadata : StreamingResponseMetadata) : Bool :=
  metadata.wasPartial && metadata.rangeStart = some record.offset &&
    metadata.totalSize = some record.totalSize &&
    metadata.etag = some record.etag && metadata.etag.any isStrongEtag &&
    metadata.validatedUrl = record.validatedUrl

def boundMeta (requestedUrl : Str) (metadata : StreamingResponseMetadata) : PartialMeta where
  requestedUrl := some requestedUrl
  url := metadata.validatedUrl
  etag := metadata.etag
  lastModified := metadata.lastModified
  totalSize := metadata.totalSize

def bindResponseMetadata (requestedUrl : Str) (resume : Option ResumeRecord)
    (metadata : StreamingResponseMetadata) : Download Unit :=
  let bind :=
    caused "binding partial response metadata" (writeMeta (boundMeta requestedUrl metadata))
  match resume with
  | some record =>
    if reproduces record metadata then bind
    else failWith "resume response metadata does not match the bound representation"
  | none =>
    if metadata.wasPartial then
      failWith "fresh streaming request unexpectedly returned partial content"
    else bind

/-- `u64::checked_add` -/
def checkedAdd (first second : Nat) : Option Nat :=
  if first + second < 2 ^ 64 then some (first + second) else none

/-- `u64::checked_mul` -/
def checkedMul (first second : Nat) : Option Nat :=
  if first * second < 2 ^ 64 then some (first * second) else none

def nextReservationTarget (current required configuredChunk maxObjectBytes : Nat) : Option Nat :=
  if maxObjectBytes < required then none
  else do
    let chunk := max configuredChunk 1
    let sum ← checkedAdd required (chunk - 1)
    let roundedRequired ← checkedMul (sum / chunk) chunk
    let geometric := if current = 0 then chunk else min (current * 2) (2 ^ 64 - 1)
    let target := min (max roundedRequired geometric) maxObjectBytes
    if required ≤ target then some target else none

theorem exists_nextReservationTarget_iff {current required configuredChunk maxObjectBytes : Nat} :
    (∃ target,
      nextReservationTarget current required configuredChunk maxObjectBytes = some target) ↔
      required ≤ maxObjectBytes ∧ required + (max configuredChunk 1 - 1) < 2 ^ 64 := by
  unfold nextReservationTarget checkedAdd checkedMul
  have isChunk : 0 < max configuredChunk 1 := by omega
  generalize max configuredChunk 1 = chunk at isChunk ⊢
  generalize 2 ^ 64 = bound
  have below := Nat.div_mul_le_self (required + (chunk - 1)) chunk
  have above : required ≤ (required + (chunk - 1)) / chunk * chunk := by
    have rest := Nat.mod_lt (required + (chunk - 1)) isChunk
    have whole := Nat.div_add_mod' (required + (chunk - 1)) chunk
    omega
  by_cases fits : required + (chunk - 1) < bound
  · by_cases within : required ≤ maxObjectBytes
    · -- the rounded length is at most the sum that fits, and the limit is not below it
      have reached (geometric : Nat) : required ≤
          min (max ((required + (chunk - 1)) / chunk * chunk) geometric) maxObjectBytes :=
        le_min (le_max_of_le_left above) within
      simp only [Nat.not_lt.mpr within, within, fits, Nat.lt_of_le_of_lt below fits, reached,
        ↓reduceIte, bind_eq_bind, bind_some, some.injEq, exists_eq', and_self]
    · simp [Nat.lt_of_not_le within, within]
  · simp [fits]

theorem bounds_of_nextReservationTarget {current required configuredChunk maxObjectBytes
    target : Nat}
    (found : nextReservationTarget current required configuredChunk maxObjectBytes = some target) :
    required ≤ target ∧ target ≤ maxObjectBytes := by
  simp only [nextReservationTarget, ite_none_left_eq_some, bind_eq_bind,
    bind_eq_some_iff, ite_none_right_eq_some, some.injEq] at found
  obtain ⟨_, _, _, _, _, reached, rfl⟩ := found
  exact ⟨reached, min_le_right _ _⟩

/-- The rounding refuses nothing within the limit exactly as long as the length plus a chunk
less one fits `u64`. -/
theorem nextReservationTarget_bounds_iff (current required configuredChunk maxObjectBytes : Nat) :
    ((∃ target,
      nextReservationTarget current required configuredChunk maxObjectBytes = some target ∧
        required ≤ target ∧ target ≤ maxObjectBytes) ↔ required ≤ maxObjectBytes) ↔
      (required ≤ maxObjectBytes → required + (max configuredChunk 1 - 1) < 2 ^ 64) := by
  have same : (∃ target,
      nextReservationTarget current required configuredChunk maxObjectBytes = some target ∧
        required ≤ target ∧ target ≤ maxObjectBytes) ↔
      required ≤ maxObjectBytes ∧ required + (max configuredChunk 1 - 1) < 2 ^ 64 := by
    rw [← @exists_nextReservationTarget_iff current]
    exact exists_congr fun _ => and_iff_left_of_imp bounds_of_nextReservationTarget
  rw [same, and_iff_left_iff_imp]

/-- A length at the limit, the largest `u64`, has no target although it is one. -/
theorem nextReservationTarget_refuses :
    ¬ ((∃ target, nextReservationTarget 0 (2 ^ 64 - 1) 2 (2 ^ 64 - 1) = some target ∧
        2 ^ 64 - 1 ≤ target ∧ target ≤ 2 ^ 64 - 1) ↔ 2 ^ 64 - 1 ≤ 2 ^ 64 - 1) := by
  intro met
  obtain ⟨_, found, _⟩ := met.mpr le_rfl
  have refused : nextReservationTarget 0 (2 ^ 64 - 1) 2 (2 ^ 64 - 1) = none := by decide
  rw [refused] at found
  cases found

section

variable (downloader : Downloader)

/-- The time of a reservation.  Its scan may sweep files away. -/
def nextMoment : Download Nat :=
  update fun workspace =>
    let sweep := workspace.sweeps.headD { data := false, record := false }
    (workspace.clock.headD 0,
      { workspace with
        clock := workspace.clock.tail
        sweeps := workspace.sweeps.tail
        data := if sweep.data then none else workspace.data
        record := if sweep.record then none else workspace.record })

/-- `reserve` of the quota. -/
def reserve (targetBytes : Nat) : Download Unit := do
  let nowSecs ← nextMoment
  withStores (downloader.cache.reserveAt downloader.owner downloader.scopedKey
    downloader.reservationPath targetBytes nowSecs)

/-- `release` of the quota. -/
def release : Download Unit := withStores (ContentCache.release downloader.reservationPath)

def setCells (change : Cells → Cells) : Download Unit :=
  update fun workspace => ((), { workspace with cells := change workspace.cells })

def orQuotaFailed {Value : Type} (program : Download Value) : Download Value := do
  match ← attempt program with
  | .ok value => pure value
  | .error error => do
    setCells fun cells => { cells with quotaFailed := true }
    .throw error

/-- A reservation of `QuotaFile`. -/
def enlargeReservation (required : Nat) (cells : Cells) : Download Unit :=
  if required ≤ cells.reservedBytes then pure ()
  else
    match nextReservationTarget cells.reservedBytes required
      downloader.reservationChunkBytes
      downloader.cache.limits.maxObjectBytes with
    | none => orQuotaFailed (failWith "cache per-object quota exceeded")
    | some requested => do
      orQuotaFailed (reserve downloader requested)
      setCells fun cells => { cells with reservedBytes := requested }

/-- Before bytes are written, `QuotaFile` makes sure that they are reserved. -/
def ensureReserved (length : Nat) : Download Unit := do
  let cells ← inspect Workspace.cells
  match checkedAdd cells.bytesOnDisk length with
  | none => orQuotaFailed (failWith "cache per-object quota exceeded")
  | some requested => enlargeReservation downloader (max requested cells.reservationFloor) cells

def writeByte (byte : UInt8) : Download Unit := do
  access fun workspace => ((), { workspace with data := workspace.data.map (· ++ [byte]) })
  setCells fun cells => { cells with bytesOnDisk := Cache.saturatingAdd cells.bytesOnDisk 1 }

/-- `write_all` to a `QuotaFile`. -/
def writeAll (bytes : Bytes) : Download Unit :=
  if bytes = [] then pure ()
  else
    caused "Writer failed" do
      ensureReserved downloader bytes.length
      forEach writeByte bytes

end

section

variable (downloader : Downloader)

def exceedsRange (chunkLength remaining : Nat) : DownloadError :=
  .message ("206 response body exceeds Content-Range: chunk has ".toList ++
    decimal chunkLength ++ " bytes with only ".toList ++ decimal remaining ++ " remaining".toList)

/-- One chunk of a body, after some bytes of it: no byte outside the declared range
is written. -/
def writeChunk (declaredLength : Option Nat) (totalWritten : Nat) (chunk : Bytes) : Download Unit :=
  match declaredLength with
  | none => writeAll downloader chunk
  | some declaredLength =>
    if declaredLength < totalWritten then
      failWith "Written partial response length exceeded Content-Range"
    else if declaredLength - totalWritten < chunk.length then do
      writeAll downloader (chunk.take (declaredLength - totalWritten))
      .throw (exceedsRange chunk.length (declaredLength - totalWritten))
    else writeAll downloader chunk

def writeChunks (declaredLength : Option Nat) : List Bytes → Nat → Download Nat
  | [], totalWritten => pure totalWritten
  | chunk :: chunks, totalWritten =>
    match checkedAdd totalWritten chunk.length with
    | none => failWith "Response body byte count overflowed"
    | some nextTotal => do
      writeChunk downloader declaredLength totalWritten chunk
      writeChunks declaredLength chunks nextTotal

def fallsShort (totalWritten declaredLength : Nat) : DownloadError :=
  .message ("206 response body contained ".toList ++ decimal totalWritten ++
    " bytes, but Content-Range declared ".toList ++ decimal declaredLength)

def writeBody (response : Response) (declaredLength : Option Nat) : Download Nat := do
  let totalWritten ← writeChunks downloader declaredLength response.chunks 0
  match response.broken with
  | some error => .throw (.message ("Failed to read body chunk: ".toList ++ error))
  | none => do
    caused "Writer flush failed" touch
    if declaredLength.any (totalWritten ≠ ·) then
      .throw (fallsShort totalWritten (declaredLength.getD 0))
    else pure totalWritten

def announce (served : Served) : Download Unit :=
  update fun workspace => ((), { workspace with served := served :: workspace.served })

/-- An accepted response is published, and then its body is written. -/
def deliver (served : Served) (onMetadata : StreamingResponseMetadata → Download Unit) :
    Download StreamingDownload := do
  announce served
  onMetadata served.metadata
  let bytesWritten ← writeBody downloader served.response
      (served.range.map ContentRange.declaredLength)
  pure
    { bytesWritten := bytesWritten
      wasPartial := served.metadata.wasPartial
      etag := served.metadata.etag
      lastModified := served.metadata.lastModified
      totalSize := served.metadata.totalSize }

/-- `write_streaming_response_with_metadata`. -/
def writeStreamingResponse (requestedUrl : Str) (requestedStart : Option Nat)
    (onMetadata : StreamingResponseMetadata → Download Unit)
    (response : Response) : Download StreamingDownload :=
  match accepted : response.acceptedRange requestedStart with
  | .error error => .throw (.message error)
  | .ok range =>
    deliver downloader
      { requestedUrl := requestedUrl
        requestedStart := requestedStart
        response := response
        range := range
        accepted := accepted }
      onMetadata

def nextExchange : Download Exchange :=
  update fun workspace =>
    (workspace.exchanges.headD (.failed []),
      { workspace with exchanges := workspace.exchanges.tail })

def fetch (requestedUrl : Str) (rangeStart : Option Nat)
    (onMetadata : StreamingResponseMetadata → Download Unit) :
    Download StreamingDownload := do
  match ← nextExchange with
  | .failed error => .throw (.message error)
  | .answered response =>
    writeStreamingResponse downloader requestedUrl rangeStart onMetadata response

end

section

variable (downloader : Downloader)

def reserveDifferent (totalSize reservedBytes : Nat) : Download Unit :=
  if totalSize ≠ reservedBytes then orQuotaFailed (reserve downloader totalSize)
  else pure ()

/-- The total size of a response, if it is known, is reserved before its body is
written. -/
def reserveTotal (totalSize : Option Nat) : Download Unit :=
  match totalSize with
  | some totalSize => do
    let cells ← inspect Workspace.cells
    reserveDifferent downloader totalSize cells.reservedBytes
    setCells fun cells => { cells with reservedBytes := totalSize, reservationFloor := totalSize }
  | none => pure ()

/-- The callback `bind_metadata` of an attempt. -/
def bindMetadata (requestedUrl : Str) (resume : Option ResumeRecord)
    (metadata : StreamingResponseMetadata) : Download Unit := do
  setCells fun cells => { cells with callbackCount := cells.callbackCount + 1 }
  let cells ← inspect Workspace.cells
  if cells.callbackCount ≠ 1 then failWith "streaming metadata callback ran more than once"
  else do
    reserveTotal downloader metadata.totalSize
    bindResponseMetadata requestedUrl resume metadata

/-- The length of the open file, or zero if it cannot be told. -/
def initialLength : Download Nat := do
  match ← attempt (access fun workspace => ((workspace.data.getD []).length, workspace)) with
  | .ok length => pure length
  | .error _ => pure 0

/-- A transport that never published its metadata has not completed. -/
def checkCallback (callbackCount : Nat) : Except DownloadError StreamingDownload →
    Except DownloadError StreamingDownload
  | .ok result =>
    if callbackCount = 1 then .ok result
    else .error (.message "streaming transport completed without response metadata".toList)
  | .error error => .error error

/-- `execute_fetch_attempt`: the result, and whether the quota was exceeded. -/
def executeFetchAttempt (requestedUrl : Str) (resume : Option ResumeRecord) :
    Download (Except DownloadError StreamingDownload × Bool) := do
  let initialBytes ← initialLength
  setCells fun _ =>
    { bytesOnDisk := initialBytes
      reservationFloor := 0
      reservedBytes := initialBytes
      quotaFailed := false
      callbackCount := 0 }
  let result ← attempt (fetch downloader requestedUrl (resume.map ResumeRecord.offset)
      (bindMetadata downloader requestedUrl resume))
  let cells ← inspect Workspace.cells
  pure (checkCallback cells.callbackCount result, cells.quotaFailed)

/-- Nothing of the partial download is kept, if possible. -/
def abandon : Download Unit := do
  ignoreError discardPartialRecord
  ignoreError (release downloader)

/-- After a failed attempt, what is in the file stays reserved. -/
def keepReserved : Download Unit := do
  match ← attempt partialLength with
  | .ok length => ignoreError (reserve downloader length)
  | .error _ => pure ()

def keepOrAbandon (quotaFailed : Bool) : Download Unit :=
  if quotaFailed then abandon downloader
  else keepReserved downloader

/-- The partial file of a new download is empty. -/
def openFresh : Download Unit := access fun workspace => ((), { workspace with data := some [] })

/-- The partial file of a resumed download must be there. -/
def openResumable : Download Unit := do
  if ← access fun workspace => (workspace.data.isSome, workspace) then pure ()
  else .throw (.cache .io)

def restartAfterError (requestedUrl : Str)
    (error : DownloadError) : Download StreamingDownload := do
  mapError (.joined "discarding partial download after resume error" error)
    discardPartialRecord
  caused "releasing failed resume" (release downloader)
  caused "reserving clean restart capacity" (reserve downloader 0)
  caused "opening clean restart file" openFresh
  match ← executeFetchAttempt downloader requestedUrl none with
  | (.ok result, _) => pure result
  | (.error restartError, quotaFailed) => do
    keepOrAbandon downloader quotaFailed
    .throw (.joined "resume failed; clean restart failed" error restartError)

def initialAttempt (requestedUrl : Str) (resume : Option ResumeRecord)
    (retryResumeErrors : Bool) : Download (StreamingDownload × Bool) := do
  match ← executeFetchAttempt downloader requestedUrl resume with
  | (.ok result, _) => pure (result, false)
  | (.error error, quotaFailed) =>
    if resume.isSome && retryResumeErrors && !quotaFailed then do
      let result ← restartAfterError downloader requestedUrl error
      pure (result, true)
    else do
      keepOrAbandon downloader quotaFailed
      .throw error

def resumeWasValidated (resume : Option ResumeRecord) (didRestart : Bool)
    (result : StreamingDownload) : Bool :=
  !didRestart && resume.any fun record =>
    result.wasPartial && result.totalSize = some record.totalSize &&
      result.etag = some record.etag && result.etag.any isStrongEtag

def restartMismatched (requestedUrl : Str) : Download StreamingDownload := do
  caused "discarding mismatched partial download" discardPartialRecord
  caused "opening clean restart file" openFresh
  caused "releasing mismatched resume reservation" (release downloader)
  caused "reserving clean restart capacity" (reserve downloader 0)
  match ← executeFetchAttempt downloader requestedUrl none with
  | (.ok result, _) => pure result
  | (.error error, quotaFailed) =>
    if quotaFailed then do
      abandon downloader
      .throw error
    else .throw error

/-- An attempt that has written a whole body.  `resumed` is the record whose
response it was, if that was validated. -/
structure Attempted where
  result : StreamingDownload
  resumed : Option ResumeRecord

def attemptDownload (requestedUrl : Str) (resume : Option ResumeRecord)
    (retryResumeErrors : Bool) : Download Attempted := do
  let (result, didRestart) ← initialAttempt downloader requestedUrl resume retryResumeErrors
  if resumeWasValidated resume didRestart result then pure { result := result, resumed := resume }
  else if resume.isSome && !didRestart then do
    let result ← restartMismatched downloader requestedUrl
    pure { result := result, resumed := none }
  else pure { result := result, resumed := none }

def rejectFreshPartial (attempted : Attempted) : Download Unit :=
  if attempted.resumed.isNone && attempted.result.wasPartial then do
    abandon downloader
    failWith "fresh streaming request unexpectedly returned partial content"
  else pure ()

end

section

variable (downloader : Downloader)

def sizeMismatch (partialSize totalSize : Nat) : DownloadError :=
  .message ("completed partial size ".toList ++ decimal partialSize ++
    " does not match resource total ".toList ++ decimal totalSize)

def Attempted.totalSize (attempted : Attempted) (partialSize : Nat) : Nat :=
  match attempted.resumed with
  | some record => record.totalSize
  | none => attempted.result.totalSize.getD partialSize

def completedSize (attempted : Attempted) : Download Nat := do
  caused "flushing completed partial file" touch
  let partialSize ← caused "reading completed partial size" partialLength
  if partialSize ≠ attempted.totalSize partialSize then do
    ignoreError (reserve downloader partialSize)
    .throw (sizeMismatch partialSize (attempted.totalSize partialSize))
  else pure partialSize

def readBuffers (size : Nat) : Nat → Bytes → Bytes × List Bytes
  | _, [] => ([], [])
  | 0, byte :: bytes =>
    let (buffer, buffers) := readBuffers size (size - 1) bytes
    ([], (byte :: buffer) :: buffers)
  | room + 1, byte :: bytes =>
    let (buffer, buffers) := readBuffers size room bytes
    (byte :: buffer, buffers)

def copyBuffers : List Bytes → Bytes → Download Bytes
  | [], written => do
    caused "reading partial" touch
    pure written
  | buffer :: buffers, written => do
    caused "reading partial" touch
    caused "writing to cache" touch
    copyBuffers buffers (written ++ buffer)

/-- The partial file is copied into a writer of the cache, 64 KiB at a time. -/
def transferPartial : Download Bytes := do
  let found ← caused "re-opening partial for cache transfer"
      (access fun workspace => (workspace.data, workspace))
  match found with
  | none => .throw (.caused "re-opening partial for cache transfer" (.cache .io))
  | some contents => do
    caused "seeking partial" touch
    caused "opening cache writer" touch
    copyBuffers (readBuffers (64 * 1024) 0 contents).2 []

/-- `upsert_sri_for_owner_unlocked`. -/
def upsertSri (scopedKey sri : Str) (bytes now : Nat) : Program Unit := do
  if 2 ^ 63 ≤ bytes then Cache.refuse "cache byte count does not fit SQLite"
  else
    match ← ContentCache.upsertWithRetry scopedKey sri bytes now 3 with
    | .ok () => pure ()
    | .error error => .throw error

/-- The blob that an entry had before is discarded if nothing else names it. -/
def discardReplaced (digest : Addressing) (previousEntry : Option Row)
    (sri : Str) : Program Unit := do
  match previousEntry.filter fun previous => previous.contentHash ≠ sri with
  | some previous =>
    let _ ← attempt (discardBlobIfUnreferenced digest previous.contentHash)
    pure ()
  | none => pure ()

/-- `commit_streaming_for_owner_locked`. -/
def commitStreaming (digest : Addressing) (scopedKey : Str) (written : Bytes)
    (now : Nat) : Program Nat := do
  let previousEntry ← ContentCache.probeReplacedEntry scopedKey
  let sri ← writeHash digest written
  match ← attempt (upsertSri scopedKey sri written.length now) with
  | .ok () => do
    discardReplaced digest previousEntry sri
    pure written.length
  | .error error => do
    let _ ← attempt (discardBlobIfUnreferenced digest sri)
    .throw error

def commitTime : Download Nat :=
  update fun workspace =>
    (workspace.clock.headD 0, { workspace with clock := workspace.clock.tail })

def recordCommit (request : DownloadRequestDescriptor) (blob : Bytes) : Download Unit :=
  update fun workspace =>
    ((), { workspace with
      commits := { request := request, blob := blob } :: workspace.commits })

/-- The result is kept for the calls that wait for it. -/
def rememberCompleted (request : DownloadRequestDescriptor) (bytes : Nat) : Download Unit :=
  update fun workspace =>
    ((), { workspace with
      completed := some { request := request, bytes := bytes } })

def commitBlob (request : DownloadRequestDescriptor) (written : Bytes) : Download Nat := do
  let now ← commitTime
  let bytes ← withStores (commitStreaming downloader.cache.addressing downloader.scopedKey written
      now)
  recordCommit request written
  pure bytes

/-- A step whose failure leaves nothing of the partial download. -/
def orAbandon {Value : Type} (program : Download Value) : Download Value := do
  match ← attempt program with
  | .ok value => pure value
  | .error error => do
    abandon downloader
    .throw error

/-- A completed file becomes the content of its key. -/
def commitCompleted (request : DownloadRequestDescriptor) (partialSize : Nat) : Download Nat := do
  orAbandon downloader (withStores
    (downloader.cache.prepareCommit downloader.owner downloader.scopedKey partialSize))
  let written ← transferPartial
  let bytes ← orAbandon downloader (caused "committing cache blob and index"
      (commitBlob downloader request written))
  ignoreError discardPartialRecord
  caused "releasing completed cache reservation" (release downloader)
  rememberCompleted request bytes
  pure bytes

def openPartial (resume : Option ResumeRecord) : Download Unit :=
  match resume with
  | some _ => do
    caused "revoking resume metadata before append" removeRecord
    caused "opening resumable partial file" openResumable
  | none => caused "opening fresh partial file" openFresh

def downloadAndCommit (request : DownloadRequestDescriptor)
    (retryResumeErrors : Bool) : Download Nat := do
  let resume ← caused "validating partial download" (prepareResumeRecord request.url)
  orAbandon downloader (reserve downloader ((resume.map ResumeRecord.offset).getD 0))
  openPartial resume
  let attempted ← attemptDownload downloader request.url resume retryResumeErrors
  rejectFreshPartial downloader attempted
  let partialSize ← completedSize downloader attempted
  commitCompleted downloader request partialSize

/-- `fetch_url_to_cache_with_metadata_file_ops`, once the gate of the key is
locked. -/
def fetchUrlToCache (request : DownloadRequestDescriptor)
    (retryResumeErrors : Bool) : Download Nat := do
  caused "creating partial dir" touch
  caused "locking streaming download identity" touch
  caused "locking scoped cache key" touch
  match ← inspect fun workspace =>
    workspace.completed.filter fun completed =>
      completed.request = request with
  | some completed => pure completed.bytes
  | none => downloadAndCommit downloader request retryResumeErrors

end

end Arclain.Streaming
