import Arclain.Fallible
import Arclain.StreamingDownload

namespace Arclain.Streaming

/-!
# Writing a response

`write_streaming_response_with_metadata` with any writer and any callback: which bytes of the
body reach the writer, and when the call succeeds.
-/

open List Text Cache Option Fallible Response

/-- An `io::Write`.  What `write_all` takes before it fails is a first part of its bytes. -/
structure Writer (State : Type) where
  taken : State → Bytes
  writeAll : Bytes → State → Except Str Unit × State
  flush : State → Except Str Unit × State
  takes_all : ∀ {bytes state}, (writeAll bytes state).1 = .ok () →
    taken (writeAll bytes state).2 = taken state ++ bytes
  takes_part : ∀ bytes state, ∃ part, part <+: bytes ∧
    taken (writeAll bytes state).2 = taken state ++ part
  flush_takes : ∀ state, taken (flush state).2 = taken state

/-- The bytes that were counted, and the writer. -/
abbrev Outcome (State : Type) := Except DownloadError Nat × State

namespace Writer

variable {State : Type} (writer : Writer State)

def write (verdict : Except DownloadError Nat) (bytes : Bytes) (state : State) :
    Outcome State :=
  match writer.writeAll bytes state with
  | (.error error, after) => (.error (.message ("Writer failed: ".toList ++ error)), after)
  | (.ok (), after) => (verdict, after)

def writeChunk (declaredLength : Option Nat) (totalWritten : Nat) (chunk : Bytes)
    (state : State) : Outcome State :=
  match checkedAdd totalWritten chunk.length with
  | none => (.error (.message "Response body byte count overflowed".toList), state)
  | some nextTotal =>
    match declaredLength with
    | none => writer.write (.ok nextTotal) chunk state
    | some declaredLength =>
      if declaredLength < totalWritten then
        (.error (.message "Written partial response length exceeded Content-Range".toList), state)
      else if declaredLength - totalWritten < chunk.length then
        let exceeds := .error (exceedsRange chunk.length (declaredLength - totalWritten))
        if declaredLength = totalWritten then (exceeds, state)
        else writer.write exceeds (chunk.take (declaredLength - totalWritten)) state
      else writer.write (.ok nextTotal) chunk state

def writeChunks (declaredLength : Option Nat) :
    List Bytes → Nat → State → Outcome State
  | [], totalWritten, state => (.ok totalWritten, state)
  | chunk :: chunks, totalWritten, state =>
    match writer.writeChunk declaredLength totalWritten chunk state with
    | (.error error, after) => (.error error, after)
    | (.ok nextTotal, after) => writeChunks declaredLength chunks nextTotal after

def writeBody (response : Response) (declaredLength : Option Nat) (state : State) :
    Outcome State :=
  match writer.writeChunks declaredLength response.chunks 0 state with
  | (.error error, after) => (.error error, after)
  | (.ok totalWritten, after) =>
    match response.broken with
    | some error => (.error (.message ("Failed to read body chunk: ".toList ++ error)), after)
    | none =>
      match writer.flush after with
      | (.error error, flushed) =>
        (.error (.message ("Writer flush failed: ".toList ++ error)), flushed)
      | (.ok (), flushed) =>
        if declaredLength.any (totalWritten ≠ ·) then
          (.error (fallsShort totalWritten (declaredLength.getD 0)), flushed)
        else (.ok totalWritten, flushed)

def downloadOf (metadata : StreamingResponseMetadata) (bytesWritten : Nat) : StreamingDownload where
  bytesWritten := bytesWritten
  wasPartial := metadata.wasPartial
  etag := metadata.etag
  lastModified := metadata.lastModified
  totalSize := metadata.totalSize

def writeAccepted (response : Response) (range : Option ContentRange) (state : State) :
    Except DownloadError StreamingDownload × State :=
  let written := writer.writeBody response (range.map ContentRange.declaredLength) state
  (written.1.map (downloadOf (response.metadata range)), written.2)

/-- `write_streaming_response_with_metadata` -/
def writeStreamingResponse (response : Response) (requestedStart : Option Nat)
    (onMetadata : StreamingResponseMetadata → Except Str Unit) (state : State) :
    Except DownloadError StreamingDownload × State :=
  match response.acceptedRange requestedStart with
  | .error error => (.error (.message error), state)
  | .ok range =>
    match onMetadata (response.metadata range) with
    | .error error => (.error (.message error), state)
    | .ok () => writer.writeAccepted response range state

/-! ## What is written -/

/-- Some of the offered bytes were taken, within the declared length, and all if the call
succeeded. -/
structure Writes (declaredLength : Option Nat) (totalWritten : Nat) (offered : Bytes)
    (before : State) (result : Outcome State) (part : Bytes) : Prop where
  begins : part <+: offered
  taken : writer.taken result.2 = writer.taken before ++ part
  within : ∀ length ∈ declaredLength, totalWritten + part.length ≤ length
  complete : ∀ count, result.1 = .ok count → part = offered ∧ count = totalWritten + offered.length

/-- The writer takes every chunk and is flushed. -/
def Takes : List Bytes → State → Prop
  | [], state => (writer.flush state).1 = .ok ()
  | chunk :: chunks, state =>
    (writer.writeAll chunk state).1 = .ok () ∧ Takes chunks (writer.writeAll chunk state).2

section

variable {declaredLength : Option Nat} {totalWritten : Nat} {chunk : Bytes} {state : State}

theorem write_eq_ok_iff {verdict : Except DownloadError Nat} {count : Nat} {after : State} :
    writer.write verdict chunk state = (.ok count, after) ↔
      writer.writeAll chunk state = (.ok (), after) ∧ verdict = .ok count := by
  rw [write]
  split
  next refused => simp [refused]
  next took => simp [took, and_comm]

theorem write_takes (verdict : Except DownloadError Nat) (bytes : Bytes) (state : State) :
    ∃ part, part <+: bytes ∧
      writer.taken (writer.write verdict bytes state).2 = writer.taken state ++ part := by
  obtain ⟨part, begins, taken⟩ := writer.takes_part bytes state
  refine ⟨part, begins, ?_⟩
  rw [← taken, write]
  split
  next refused => rw [refused]
  next took => rw [took]

theorem writeChunk_eq_ok_iff {count : Nat} {after : State} :
    writer.writeChunk declaredLength totalWritten chunk state = (.ok count, after) ↔
      writer.writeAll chunk state = (.ok (), after) ∧ count = totalWritten + chunk.length ∧
        count < 2 ^ 64 ∧ ∀ length ∈ declaredLength, count ≤ length := by
  rw [writeChunk, checkedAdd]
  by_cases counted : totalWritten + chunk.length < 2 ^ 64
  · rw [if_pos counted]
    cases declaredLength with
    | none =>
      simp only [writer.write_eq_ok_iff, Except.ok.injEq, mem_def, reduceCtorEq]
      refine and_congr_right fun _ => ⟨?_, fun found => found.1.symm⟩
      rintro rfl
      exact ⟨rfl, counted, by simp⟩
    | some length =>
      simp only [mem_def, some.injEq, forall_eq']
      split
      next beyond =>
        refine iff_of_false (by simp) ?_
        rintro ⟨-, rfl, -, within⟩
        omega
      next within =>
        split
        next exceeds =>
          refine iff_of_false ?_ ?_
          · split
            · simp
            · simp [writer.write_eq_ok_iff]
          · rintro ⟨-, rfl, -, fits⟩
            omega
        next fits =>
          rw [writer.write_eq_ok_iff, Except.ok.injEq]
          refine and_congr_right fun _ => ⟨?_, fun found => found.1.symm⟩
          rintro rfl
          exact ⟨rfl, counted, by omega⟩
  · rw [if_neg counted]
    refine iff_of_false (by simp) ?_
    rintro ⟨-, rfl, below, -⟩
    exact counted below

theorem writeChunk_takes (chunk : Bytes) (state : State)
    (within : ∀ length ∈ declaredLength, totalWritten ≤ length) : ∃ part, part <+: chunk ∧
      writer.taken (writer.writeChunk declaredLength totalWritten chunk state).2 =
        writer.taken state ++ part ∧
      ∀ length ∈ declaredLength, totalWritten + part.length ≤ length := by
  have nothing : ([] : Bytes) <+: chunk ∧ writer.taken state = writer.taken state ++ [] ∧
      ∀ length ∈ declaredLength, totalWritten + ([] : Bytes).length ≤ length :=
    ⟨⟨_, rfl⟩, (append_nil _).symm, within⟩
  rw [writeChunk]
  split
  · exact ⟨[], nothing⟩
  next nextTotal counted =>
    cases declaredLength with
    | none =>
      obtain ⟨part, begins, taken⟩ := writer.write_takes (.ok nextTotal) chunk state
      exact ⟨part, begins, taken, by simp⟩
    | some length =>
      have started := within length rfl
      simp only [mem_def, some.injEq, forall_eq'] at nothing ⊢
      rw [if_neg (not_lt.mpr started)]
      split
      · split
        · exact ⟨[], nothing⟩
        · obtain ⟨part, begins, taken⟩ := writer.write_takes _ (chunk.take _) state
          have short := begins.length_le
          rw [length_take] at short
          exact ⟨part, begins.trans <| take_prefix _ _, taken, by omega⟩
      next fits =>
        obtain ⟨part, begins, taken⟩ := writer.write_takes (.ok nextTotal) chunk state
        have short := begins.length_le
        exact ⟨part, begins, taken, by omega⟩

theorem writeChunks_writes (chunks : List Bytes) (state : State)
    (within : ∀ length ∈ declaredLength, totalWritten ≤ length) :
    ∃ part, writer.Writes declaredLength totalWritten chunks.flatten state
      (writer.writeChunks declaredLength chunks totalWritten state) part := by
  induction chunks generalizing totalWritten state with
  | nil =>
    refine ⟨[], nil_prefix, (append_nil _).symm, within, ?_⟩
    rintro count counted
    exact ⟨rfl, (Except.ok.inj counted).symm⟩
  | cons chunk chunks ih =>
    rw [writeChunks, flatten_cons]
    split
    next after refused =>
      obtain ⟨part, begins, taken, fits⟩ := writer.writeChunk_takes chunk state within
      rw [refused] at taken
      exact ⟨part, begins.trans (prefix_append _ _), taken, fits, by simp⟩
    next after wrote =>
      obtain ⟨took, rfl, -, fits⟩ := writer.writeChunk_eq_ok_iff.mp wrote
      obtain ⟨part, rest⟩ := ih after fits
      have head := writer.takes_all (congrArg Prod.fst took)
      rw [took] at head
      refine ⟨chunk ++ part, (prefix_append_right_inj chunk).mpr rest.begins, ?_, ?_, ?_⟩
      · rw [rest.taken, head, append_assoc]
      · intro length declared
        rw [length_append, ← Nat.add_assoc]
        exact rest.within length declared
      · intro count counted
        obtain ⟨rfl, rfl⟩ := rest.complete count counted
        exact ⟨rfl, by rw [length_append, Nat.add_assoc]⟩

theorem writeChunks_succeeds_iff (chunks : List Bytes) (state : State)
    (counted : totalWritten < 2 ^ 64)
    (within : ∀ length ∈ declaredLength, totalWritten ≤ length) : (∃ count after flushed,
      writer.writeChunks declaredLength chunks totalWritten state = (.ok count, after) ∧
        writer.flush after = (.ok (), flushed)) ↔
      writer.Takes chunks state ∧ totalWritten + chunks.flatten.length < 2 ^ 64 ∧
        ∀ length ∈ declaredLength, totalWritten + chunks.flatten.length ≤ length := by
  induction chunks generalizing totalWritten state with
  | nil =>
    constructor
    · rintro ⟨count, after, flushed, same, done⟩
      obtain ⟨-, rfl⟩ := Prod.mk.inj same
      exact ⟨congrArg Prod.fst done, counted, within⟩
    · rintro ⟨done, -, -⟩
      exact ⟨totalWritten, state, _, rfl, Prod.ext done rfl⟩
  | cons chunk chunks ih =>
    rw [Takes, flatten_cons, length_append, ← Nat.add_assoc]
    constructor
    · rintro ⟨count, after, flushed, wrote, done⟩
      rw [writeChunks] at wrote
      split at wrote
      · cases wrote
      next between first =>
        obtain ⟨took, rfl, below, fits⟩ := writer.writeChunk_eq_ok_iff.mp first
        rw [took]
        obtain ⟨takes, bounded⟩ := (ih between below fits).mp ⟨count, after, flushed, wrote, done⟩
        exact ⟨⟨rfl, takes⟩, bounded⟩
    · rintro ⟨⟨took, takes⟩, below, fits⟩
      have nextBelow : totalWritten + chunk.length < 2 ^ 64 := by omega
      have nextFits : ∀ length ∈ declaredLength, totalWritten + chunk.length ≤ length :=
        fun length declared => (Nat.le_add_right _ _).trans (fits length declared)
      rw [writeChunks,
        writer.writeChunk_eq_ok_iff.mpr ⟨Prod.ext took rfl, rfl, nextBelow, nextFits⟩]
      exact (ih _ nextBelow nextFits).mpr ⟨takes, below, fits⟩

theorem not_any_ne_iff {total : Nat} :
    ¬ declaredLength.any (total ≠ ·) = true ↔ ∀ length ∈ declaredLength, total = length := by
  cases declaredLength <;> simp

theorem writeBody_writes (response : Response) (declaredLength : Option Nat) (state : State) :
    ∃ part, writer.Writes declaredLength 0 response.body state
      (writer.writeBody response declaredLength state) part := by
  obtain ⟨part, wrote⟩ :=
    writer.writeChunks_writes response.chunks state fun _ _ => Nat.zero_le _
  refine ⟨part, ?_⟩
  rw [writeBody]
  split
  next after refused =>
    rw [refused] at wrote
    exact { wrote with complete := by simp }
  next after counted =>
    rw [counted] at wrote
    have flushed := (writer.flush_takes after).trans wrote.taken
    split
    · exact { wrote with complete := by simp }
    · split
      next refused =>
        rw [refused] at flushed
        exact ⟨wrote.begins, flushed, wrote.within, by simp⟩
      next done =>
        rw [done] at flushed
        split
        · exact ⟨wrote.begins, flushed, wrote.within, by simp⟩
        · exact { wrote with taken := flushed }

theorem writeBody_succeeds_iff (response : Response) (declaredLength : Option Nat) (state : State) :
    (∃ count, (writer.writeBody response declaredLength state).1 = .ok count) ↔
      writer.Takes response.chunks state ∧ response.broken = none ∧ response.body.length < 2 ^ 64 ∧
        ∀ length ∈ declaredLength, response.body.length = length := by
  have started : ∀ length ∈ declaredLength, 0 ≤ length := fun _ _ => Nat.zero_le _
  have succeeds := writer.writeChunks_succeeds_iff response.chunks state (by decide) started
  have counts : ∀ count after, writer.writeChunks declaredLength response.chunks 0 state =
      (.ok count, after) → count = response.body.length := by
    intro count after wrote
    obtain ⟨_, writes⟩ := writer.writeChunks_writes response.chunks state started
    rw [((writes.complete count) (congrArg Prod.fst wrote)).2, Nat.zero_add, body]
  rw [Nat.zero_add] at succeeds
  constructor
  · rintro ⟨count, done⟩
    rw [writeBody] at done
    split at done
    · cases done
    next totalWritten after wrote =>
      split at done
      · cases done
      next whole =>
        split at done
        · cases done
        next flushed closed =>
          split at done
          · cases done
          next agrees =>
            obtain ⟨takes, below, -⟩ := succeeds.mp ⟨totalWritten, after, flushed, wrote, closed⟩
            refine ⟨takes, whole, below, ?_⟩
            rw [counts totalWritten after wrote] at agrees
            exact not_any_ne_iff.mp agrees
  · rintro ⟨takes, whole, below, agrees⟩
    obtain ⟨count, after, flushed, wrote, closed⟩ :=
      succeeds.mpr ⟨takes, below, fun length declared => (agrees length declared).le⟩
    obtain rfl := counts count after wrote
    refine ⟨response.body.length, ?_⟩
    rw [writeBody, wrote]
    simp only [whole, closed]
    rw [if_neg (not_any_ne_iff.mpr agrees)]

end

end Writer

/-! ## What the headers say -/

namespace Response

def declaredRange (response : Response) : Option ContentRange :=
  (response.contentRange.bind headerText).bind parseContentRange

/-- The range of a partial response is the one that was requested, as long as the body is said
to be. -/
structure Declares (response : Response) (requestedStart : Option Nat) (range : ContentRange) :
    Prop where
  wellFormed : response.declaredRange = some range
  requested : requestedStart = some range.start
  agrees : ∀ header ∈ response.contentLength,
    (headerText header).bind parseUsize = some range.declaredLength

variable {response : Response} {requestedStart : Option Nat}

theorem parseDecimal_lt {value : Str} {number : Nat} (parsed : parseDecimal value = some number) :
    number < 2 ^ 64 := by
  rw [parseDecimal, filter_eq_some_iff] at parsed
  exact of_decide_eq_true parsed.2

theorem parseContentRange_bounds {header : Str} {range : ContentRange}
    (parsed : parseContentRange header = some range) :
    range.start ≤ range.last ∧ range.last < range.total ∧ range.total < 2 ^ 64 := by
  simp only [parseContentRange, bind_eq_bind, bind_eq_some_iff] at parsed
  obtain ⟨_, -, bounds, -, _, -, _, -, _, -, _, counted, bounded⟩ := parsed
  split at bounded
  next bounds =>
    obtain rfl := some.inj bounded
    exact ⟨bounds.1, bounds.2, parseDecimal_lt counted⟩
  · cases bounded

theorem declaredRange_bounds {range : ContentRange}
    (declared : response.declaredRange = some range) :
    range.start ≤ range.last ∧ range.declaredLength ≤ range.total ∧ range.total < 2 ^ 64 := by
  obtain ⟨_, -, parsed⟩ := bind_eq_some_iff.mp declared
  obtain ⟨ordered, _, counted⟩ := parseContentRange_bounds parsed
  exact ⟨ordered, by rw [ContentRange.declaredLength]; omega, counted⟩

theorem checkContentLength_eq_ok_iff {range : ContentRange} {checked : Unit} :
    response.checkContentLength range = .ok checked ↔ ∀ header ∈ response.contentLength,
      (headerText header).bind parseUsize = some range.declaredLength := by
  rw [checkContentLength]
  cases response.contentLength with
  | none => simp
  | some header =>
    simp only [mem_def, some.injEq, forall_eq']
    cases (headerText header).bind parseUsize with
    | none | some => simp

theorem checkContentRange_eq_ok_iff {range : ContentRange} :
    response.checkContentRange requestedStart = .ok range ↔
      response.Declares requestedStart range := by
  constructor
  · intro checked
    unfold checkContentRange at checked
    split at checked
    · cases checked
    next requestedStart =>
      split at checked
      · cases checked
      next value sent =>
        split at checked
        · cases checked
        next header text =>
          split at checked
          · cases checked
          next parsed found =>
            obtain ⟨same, agrees⟩ := refuse_eq_ok.mp checked
            obtain ⟨_, fine, rfl⟩ := map_eq_ok.mp agrees
            refine ⟨?_, congrArg some (not_not.mp same).symm, checkContentLength_eq_ok_iff.mp fine⟩
            rw [declaredRange, sent, bind_some, text, bind_some, found]
  · rintro ⟨wellFormed, rfl, agrees⟩
    obtain ⟨header, text, parsed⟩ := bind_eq_some_iff.mp wellFormed
    obtain ⟨value, sent, text⟩ := bind_eq_some_iff.mp text
    have agreed : response.checkContentLength range = .ok () :=
      checkContentLength_eq_ok_iff.mpr agrees
    simp [checkContentRange, sent, text, parsed, agreed, Except.map]

theorem acceptedRange_eq_ok_iff (isPartial : response.status = 206)
    {accepted : Option ContentRange} : response.acceptedRange requestedStart = .ok accepted ↔
      ∃ range, accepted = some range ∧ response.Declares requestedStart range := by
  have isChecked : response.checkStatus = .ok true := by simp [checkStatus, isPartial]
  have passes : response.acceptedRange requestedStart =
      response.checkContentRange requestedStart >>= fun range => pure (some range) := by
    rw [acceptedRange, isChecked]
    rfl
  rw [passes]
  constructor
  · intro passed
    obtain ⟨range, checked, made⟩ := bind_eq_ok.mp passed
    exact ⟨range, (Except.ok.inj made).symm, checkContentRange_eq_ok_iff.mp checked⟩
  · rintro ⟨range, rfl, declares⟩
    exact bind_eq_ok.mpr ⟨range, checkContentRange_eq_ok_iff.mpr declares, rfl⟩

end Response

/-! ## The whole call -/

section

variable {State : Type} (writer : Writer State) (response : Response)
variable (requestedStart : Option Nat) (onMetadata : StreamingResponseMetadata → Except Str Unit)
variable (before : State)

theorem writeStreamingResponse_cases :
    (∃ error, writer.writeStreamingResponse response requestedStart onMetadata before =
      (.error error, before) ∧ ∀ range, response.acceptedRange requestedStart = .ok range →
        onMetadata (response.metadata range) ≠ .ok ()) ∨
    ∃ range, response.acceptedRange requestedStart = .ok range ∧
      onMetadata (response.metadata range) = .ok () ∧
      writer.writeStreamingResponse response requestedStart onMetadata before =
        writer.writeAccepted response range before := by
  rw [Writer.writeStreamingResponse]
  cases accepted : response.acceptedRange requestedStart with
  | error error => exact .inl ⟨_, rfl, by simp⟩
  | ok range =>
    cases answered : onMetadata (response.metadata range) with
    | error error =>
      refine .inl ⟨.message error, by simp only [answered], ?_⟩
      rintro _ same
      obtain rfl := Except.ok.inj same
      rw [answered]
      simp
    | ok => exact .inr ⟨range, rfl, answered, by simp only [answered]⟩

/-- Only a first part of the body is written, and nothing before the callback has agreed.  A
partial response is written up to its declared length, and the call succeeds exactly when the
range is the requested one, the body has its length, and nothing else fails. -/
theorem writeStreamingResponse_writes :
    let result := writer.writeStreamingResponse response requestedStart onMetadata before
    (∃ written, written <+: response.body ∧ writer.taken result.2 = writer.taken before ++ written ∧
      (∀ download, result.1 = .ok download → download.bytesWritten = written.length) ∧
      (response.status = 206 → ∀ range, response.declaredRange = some range →
        written.length ≤ range.last - range.start + 1)) ∧
    ((∀ range, response.acceptedRange requestedStart = .ok range →
      onMetadata (response.metadata range) ≠ .ok ()) → result.2 = before) ∧
    (response.status = 206 → ((∃ download, result.1 = .ok download) ↔
      ∃ range, response.Declares requestedStart range ∧
        response.body.length = range.last - range.start + 1 ∧
        onMetadata (response.metadata (some range)) = .ok () ∧
        writer.Takes response.chunks before ∧ response.broken = none)) ∧
    ∀ range, response.declaredRange = some range →
      range.start ≤ range.last ∧ range.last - range.start + 1 ≤ range.total ∧
        range.total < 2 ^ 64 := by
  intro result
  refine and_assoc.mp (and_assoc.mp ⟨?_, fun _ => Response.declaredRange_bounds⟩)
  rcases writeStreamingResponse_cases writer response requestedStart onMetadata before with
    ⟨error, refused, unanswered⟩ | ⟨range, accepted, answered, wrote⟩
  · have same : result = (.error error, before) := refused
    rw [same]
    refine ⟨⟨⟨[], nil_prefix, (append_nil _).symm, by simp, by simp⟩, fun _ => rfl⟩, ?_⟩
    intro isPartial
    refine iff_of_false (by simp) ?_
    rintro ⟨range, declares, -, answered, -⟩
    have accepted := (acceptedRange_eq_ok_iff isPartial).mpr ⟨range, rfl, declares⟩
    exact unanswered (some range) accepted answered
  · obtain ⟨written, writes⟩ :=
      writer.writeBody_writes response (range.map ContentRange.declaredLength) before
    have same : result = _ := wrote
    rw [same]
    refine ⟨⟨⟨written, writes.begins, writes.taken, ?_, ?_⟩, ?_⟩, ?_⟩
    · intro download made
      obtain ⟨count, counted, rfl⟩ := map_eq_ok.mp made
      obtain ⟨rfl, rfl⟩ := writes.complete count counted
      exact Nat.zero_add _
    · intro isPartial declared said
      obtain ⟨range, rfl, declares⟩ := (acceptedRange_eq_ok_iff isPartial).mp accepted
      obtain rfl := some.inj (declares.wellFormed.symm.trans said)
      exact (Nat.zero_add _).symm.trans_le (writes.within _ rfl)
    · intro unanswered
      exact absurd answered (unanswered range accepted)
    · intro isPartial
      obtain ⟨range, rfl, declares⟩ := (acceptedRange_eq_ok_iff isPartial).mp accepted
      have bounds := declaredRange_bounds declares.wellFormed
      have succeeds :=
        writer.writeBody_succeeds_iff response (some range.declaredLength) before
      constructor
      · rintro ⟨download, made⟩
        obtain ⟨count, counted, -⟩ := map_eq_ok.mp made
        obtain ⟨takes, whole, -, agrees⟩ := succeeds.mp ⟨count, counted⟩
        exact ⟨range, declares, agrees _ rfl, answered, takes, whole⟩
      · rintro ⟨_, declared, long, -, takes, whole⟩
        obtain rfl := some.inj (declares.wellFormed.symm.trans declared.wellFormed)
        change response.body.length = range.declaredLength at long
        obtain ⟨count, counted⟩ :=
          succeeds.mpr ⟨takes, whole, by omega, by simpa using long⟩
        exact ⟨_, map_eq_ok.mpr ⟨count, counted, rfl⟩⟩

end

/-- A writer on a full disk. -/
def fullDisk : Writer Unit where
  taken _ := []
  writeAll _ _ := (.error "disk full".toList, ())
  flush _ := (.ok (), ())
  takes_all := by simp
  takes_part _ _ := ⟨[], nil_prefix, rfl⟩
  flush_takes _ := rfl

/-- One byte, as it was requested. -/
def requestedByte : Response where
  url := []
  status := 206
  statusText := "206 Partial Content".toList
  contentRange := some ("bytes 0-0/1".toList.map fun char => UInt8.ofNat char.toNat)
  chunks := [[7]]

/-- A response with all it declares is not written to a full disk. -/
theorem full_disk_fails : requestedByte.Declares (some 0) { start := 0, last := 0, total := 1 } ∧
      requestedByte.body.length = 1 ∧
      fullDisk.writeStreamingResponse requestedByte (some 0) (fun _ => .ok ()) () =
        (.error (.message "Writer failed: disk full".toList), ()) := by
  refine ⟨⟨by decide +kernel, rfl, by simp [requestedByte]⟩, rfl, ?_⟩
  rfl

end Arclain.Streaming
