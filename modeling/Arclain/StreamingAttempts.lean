import Arclain.StreamingAssembly

namespace Arclain.Streaming

/-!
# What the attempts of a download leave

Wherever an attempt fails or its process ends, the workspace is settled.  An attempt that
succeeds has written the whole body of its response behind the bytes that it resumed from.
-/

open List Text Cache FaultyCalls Option Tame

section

namespace Tame

variable {Value Result : Type}

theorem pure (value : Value) : Tame (Pure.pure value : Download Value) := fun _ => Keeps.pure value

theorem throw (error : DownloadError) : Tame (Faulty.throw error : Download Value) :=
  fun _ => Keeps.throw error

theorem bind {first : Download Value} {second : Value → Download Result} (firstTame : Tame first)
    (secondTame : ∀ value, Tame (second value)) : Tame (first >>= second) :=
  fun before => (firstTame before).bind fun value => secondTame value before

theorem attempt {program : Download Value} (tame : Tame program) : Tame (Faulty.attempt program) :=
  fun before => (tame before).attempt

theorem inspect (read : Workspace → Value) : Tame (Faulty.inspect read : Download Value) :=
  fun _ => Keeps.inspect read

theorem ite {test : Prop} [Decidable test] {first second : Download Value} (firstTame : Tame first)
    (secondTame : Tame second) :
    Tame (if test then first else second) :=
  fun before => Keeps.ite (firstTame before) (secondTame before)

theorem read (read : Workspace → Value) :
    Tame (access fun workspace => (read workspace, workspace)) :=
  fun _ => Keeps.call fun _ => id

theorem withStores (program : Program Value) : Tame (withStores program) := by
  intro _
  refine (Keeps.within program ?_).mapError
  intro _ _ fewer
  exact { fewer with }

theorem ignoreError {program : Download Unit} (tame : Tame program) : Tame (ignoreError program) :=
  tame.attempt.bind fun _ => pure _

end Tame

theorem setCells_tame (change : Cells → Cells) : Tame (setCells change) := by
  intro _
  refine Keeps.update ?_
  intro _ fewer
  exact { fewer with }

theorem removeRecord_tame : Tame removeRecord := by
  intro _
  refine Keeps.mapError (Keeps.call ?_)
  intro _ fewer
  exact { fewer with record := .inl rfl }

theorem removeData_tame : Tame removeData := by
  intro _
  refine Keeps.mapError (Keeps.call ?_)
  intro _ fewer
  exact { fewer with data := .inl rfl }

theorem discardPartialRecord_tame : Tame discardPartialRecord :=
  removeRecord_tame.bind fun _ => removeData_tame

theorem partialLength_tame : Tame partialLength := by
  refine (read _).bind fun found => ?_
  cases found with
  | some => exact Tame.pure _
  | none => exact Tame.throw _

theorem nextMoment_tame : Tame nextMoment := by
  intro _
  refine Keeps.update ?_
  intro _ fewer
  refine { fewer with data := ?_, record := ?_ }
  · dsimp only
    split
    · exact .inl rfl
    · exact fewer.data
  · dsimp only
    split
    · exact .inl rfl
    · exact fewer.record

theorem commitTime_tame : Tame commitTime := by
  intro _
  refine Keeps.update ?_
  intro _ fewer
  exact { fewer with }

theorem nextExchange_tame : Tame nextExchange := by
  intro _
  refine Keeps.update ?_
  intro _ fewer
  exact { fewer with }

theorem initialLength_tame : Tame initialLength := by
  refine (read _).attempt.bind fun result => ?_
  cases result with
  | ok | error error => exact Tame.pure _

theorem orQuotaFailed_tame {Value : Type} {program : Download Value} (tame : Tame program) :
    Tame (orQuotaFailed program) := by
  refine tame.attempt.bind fun result => ?_
  cases result with
  | ok => exact Tame.pure _
  | error error => exact (setCells_tame _).bind fun _ => Tame.throw _

variable {downloader : Downloader}

theorem reserve_tame (targetBytes : Nat) : Tame (reserve downloader targetBytes) :=
  nextMoment_tame.bind fun _ => Tame.withStores _

theorem release_tame : Tame (release downloader) := Tame.withStores _

theorem enlargeReservation_tame (required : Nat) (cells : Cells) :
    Tame (enlargeReservation downloader required cells) := by
  refine Tame.ite (Tame.pure _) ?_
  cases nextReservationTarget cells.reservedBytes required
    downloader.reservationChunkBytes
    downloader.cache.limits.maxObjectBytes with
  | none => exact orQuotaFailed_tame (Tame.throw _)
  | some requested =>
    exact (orQuotaFailed_tame (reserve_tame requested)).bind fun _ => setCells_tame _

theorem ensureReserved_tame (length : Nat) : Tame (ensureReserved downloader length) := by
  refine (inspect _).bind fun cells => ?_
  cases checkedAdd cells.bytesOnDisk length with
  | none => exact orQuotaFailed_tame (Tame.throw _)
  | some => exact enlargeReservation_tame _ cells

theorem reserveTotal_tame (totalSize : Option Nat) : Tame (reserveTotal downloader totalSize) := by
  cases totalSize with
  | none => exact Tame.pure _
  | some totalSize =>
    refine (inspect _).bind fun cells => ?_
    have reserves : Tame (reserveDifferent downloader totalSize cells.reservedBytes) :=
      Tame.ite (orQuotaFailed_tame (reserve_tame totalSize)) (Tame.pure _)
    exact reserves.bind fun _ => setCells_tame _

theorem abandon_tame : Tame (abandon downloader) :=
  discardPartialRecord_tame.ignoreError.bind fun _ => release_tame.ignoreError

theorem keepReserved_tame : Tame (keepReserved downloader) := by
  refine partialLength_tame.attempt.bind fun result => ?_
  cases result with
  | ok length => exact (reserve_tame length).ignoreError
  | error error => exact Tame.pure _

theorem keepOrAbandon_tame (quotaFailed : Bool) : Tame (keepOrAbandon downloader quotaFailed) :=
  Tame.ite abandon_tame keepReserved_tame

end

section

variable {Value Result : Type}

/-- A computation from some states returns in others, and otherwise leaves the workspace
settled. -/
abbrev Settles (before : Workspace → Prop) (program : Download Value)
    (returned : Value → Workspace → Prop) : Prop :=
  Triple before program ⟨returned, fun _ => Workspace.Settled, Workspace.Settled⟩

variable {program : Download Value} {holds : Workspace → Prop}

theorem settles_of_keeps (keeps : Keeps holds program)
    (settled : ∀ workspace, holds workspace → workspace.Settled) :
    Settles holds program (fun _ => holds) :=
  keeps.consequence (fun _ => id) (fun _ _ => id)
    (fun _ => settled) settled

theorem Tame.settles (tame : Tame program) (closed : Closed holds)
    (settled : ∀ workspace, holds workspace → workspace.Settled) :
    Settles holds program (fun _ => holds) :=
  settles_of_keeps (tame.keeps closed) settled

theorem touch_settles (closed : Closed holds)
    (settled : ∀ workspace, holds workspace → workspace.Settled) (context : String) :
    Settles holds (caused context touch) (fun _ => holds) :=
  Triple.mapError ((read fun _ => ()).settles closed settled)

theorem read_settles (read : Workspace → Value)
    (settled : ∀ workspace, holds workspace → workspace.Settled) :
    Settles holds (access fun workspace => (read workspace, workspace))
      (fun value workspace => holds workspace ∧ value = read workspace) :=
  Triple.call (fun _ held => ⟨held, rfl⟩) settled settled settled settled

variable {before : Workspace → Prop} {returned : Value → Workspace → Prop}

theorem caused_settles (context : String) (settles : Settles before program returned) :
    Settles before (caused context program) returned :=
  Triple.mapError settles

theorem attempt_settles (settles : Settles before program returned) :
    Settles before (Faulty.attempt program) (fun result workspace =>
      match result with
      | .ok value => returned value workspace
      | .error _ => workspace.Settled) :=
  Triple.attempt settles

theorem settles_of_forall {Index : Type} {before : Index → Workspace → Prop}
    (settles : ∀ index, Settles (before index) program returned) :
    Settles (fun workspace => ∃ index, before index workspace) program returned :=
  fun workspace fates ⟨index, held⟩ => settles index workspace fates held

theorem settled_id (workspace : Workspace) (settled : workspace.Settled) : workspace.Settled :=
  settled

theorem orAbandon_settles {downloader : Downloader} (settles : Settles before program returned) :
    Settles before (orAbandon downloader program) returned := by
  refine Triple.bind (attempt_settles settles) fun result => ?_
  cases result with
  | ok => exact Triple.pure fun _ => id
  | error error =>
    refine Triple.bind (abandon_tame.settles closed_settled settled_id) ?_
    exact fun _ => Triple.throw fun _ => id

end

section

variable {holds : Workspace → Prop}

theorem partialLength_settles (settled : ∀ workspace, holds workspace → workspace.Settled) :
    Settles holds partialLength (fun length workspace =>
      holds workspace ∧ ∃ bytes, workspace.data = some bytes ∧ bytes.length = length) := by
  refine Triple.bind (read_settles _ settled) fun found => ?_
  cases found with
  | some bytes => exact Triple.pure fun _ held => ⟨held.1, bytes, held.2.symm, rfl⟩
  | none => exact Triple.throw fun _ held => settled _ held.1

theorem readMeta_settles (settled : ∀ workspace, holds workspace → workspace.Settled) :
    Settles holds readMeta (fun found workspace =>
      holds workspace ∧ ∀ partialMeta, found = some partialMeta →
        workspace.record = some (some partialMeta)) := by
  have reads : Settles holds (Faulty.attempt
      (access fun workspace => (workspace.record.join, workspace))) (fun result workspace =>
        holds workspace ∧ ∀ found, result = .ok found → found = workspace.record.join) := by
    refine Triple.attempt (Triple.call ?_ ?_ ?_ ?_ ?_)
    · exact fun _ held => ⟨held, fun found same => (Except.ok.inj same).symm⟩
    · exact fun _ held => ⟨held, nofun⟩
    · exact fun _ held => ⟨held, nofun⟩
    · exact settled
    · exact settled
  refine Triple.bind reads fun result => ?_
  cases result with
  | ok found =>
    refine Triple.pure fun workspace held => ⟨held.1, ?_⟩
    intro partialMeta isFound
    have joined := held.2 found rfl
    rw [isFound] at joined
    exact join_eq_some_iff.mp joined.symm
  | error error => exact Triple.pure fun _ held => ⟨held.1, nofun⟩

variable {workspace : Workspace} {requestedUrl : Str}

theorem resumable_of_candidate {bytes : Bytes}
    {partialMeta : PartialMeta} (settled : workspace.Settled)
    (hasData : workspace.data = some bytes)
    (hasRecord : workspace.record = some (some partialMeta)) :
    workspace.Resumable requestedUrl (resumeCandidate requestedUrl bytes.length partialMeta) := by
  refine ⟨settled, ?_⟩
  intro record candidate _ hasContents
  cases some.inj (hasData.symm.trans hasContents)
  obtain ⟨-, -, -, -, strong, offset, -⟩ := resumeCandidate_eq_some candidate
  refine ⟨offset.symm, strong, ?_⟩
  exact settled.bound partialMeta bytes requestedUrl record hasRecord hasData candidate

theorem Workspace.Settled.resumable
    (settled : workspace.Settled) : workspace.Resumable requestedUrl none :=
  ⟨settled, nofun⟩

theorem readCandidate_settles (requestedUrl : Str) :
    Settles Workspace.Settled (readCandidate requestedUrl) (Workspace.Resumable requestedUrl) := by
  refine Triple.bind (attempt_settles (partialLength_settles settled_id)) fun result => ?_
  cases result with
  | error error => exact Triple.pure fun _ settled => settled.resumable
  | ok =>
    refine Triple.bind (readMeta_settles fun _ held => held.1) fun found => ?_
    cases found with
    | none => exact Triple.pure fun _ held => held.1.1.resumable
    | some =>
      refine Triple.pure fun workspace held => ?_
      obtain ⟨⟨settled, _, hasData, rfl⟩, hasRecord⟩ := held
      exact resumable_of_candidate settled hasData (hasRecord _ rfl)

theorem prepareResumeRecord_settles (requestedUrl : Str) :
    Settles Workspace.Settled (prepareResumeRecord requestedUrl)
      (Workspace.Resumable requestedUrl) := by
  have checks (read : Workspace → Bool) (context : String) : Settles Workspace.Settled
      (caused context (access fun workspace => (read workspace, workspace)))
      (fun _ => Workspace.Settled) :=
    caused_settles context ((Tame.read read).settles closed_settled settled_id)
  refine Triple.bind (checks _ _) fun dataExists => ?_
  refine Triple.bind (checks _ _) fun metaExists => ?_
  split
  · exact Triple.pure fun _ settled => settled.resumable
  · refine Triple.bind (readCandidate_settles requestedUrl) fun candidate => ?_
    cases candidate with
    | some => exact Triple.pure fun _ => id
    | none =>
      have discards :=
        discardPartialRecord_tame.settles (@closed_resumable requestedUrl none)
          fun _ held => held.settled
      exact Triple.bind discards fun _ => Triple.pure fun _ => id

end

section

variable (requestedUrl : Str)

theorem ready_fresh {workspace : Workspace} (settled : workspace.Settled) :
    Workspace.Ready requestedUrl none [] { workspace with data := some [] } where
  recorded := ⟨settled.recorded.commits, settled.recorded.completed⟩
  holds := .inr rfl
  fresh _ := rfl
  resumed _ impossible := nomatch impossible

theorem openFresh_settles : Settles Workspace.Settled openFresh
    (fun _ => Workspace.Ready requestedUrl none []) := by
  refine Triple.call ?_ ?_ ?_ ?_ ?_
  · exact fun _ => ready_fresh requestedUrl
  · exact settled_id
  · exact fun _ settled => (ready_fresh requestedUrl settled).settled
  · exact settled_id
  · exact fun _ settled => (ready_fresh requestedUrl settled).settled

variable (record : ResumeRecord)

theorem openResumable_settles : Settles (fun workspace =>
  workspace.Resumable requestedUrl (some record) ∧ workspace.record = none) openResumable
    (fun _ workspace =>
      ∃ prior, workspace.Ready requestedUrl (some record) prior) := by
  refine Triple.bind (read_settles _ fun _ held => held.1.settled) fun isThere => ?_
  split
  next there =>
    refine Triple.pure fun workspace held => ?_
    obtain ⟨⟨resumable, revoked⟩, isRead⟩ := held
    obtain ⟨prior, hasData⟩ := isSome_iff_exists.mp (isRead.symm.trans there)
    refine ⟨prior, resumable.settled.recorded, .inr hasData, ?_, ?_⟩
    · exact nofun
    · intro _ same
      cases same
      exact ⟨revoked, resumable.standsFor record rfl prior hasData⟩
  · exact Triple.throw fun _ held => held.1.1.settled

theorem removeRecord_settles :
    Settles (Workspace.Resumable requestedUrl (some record)) removeRecord (fun _ workspace =>
      workspace.Resumable requestedUrl (some record) ∧ workspace.record = none) := by
  have removed (workspace : Workspace)
      (resumable : workspace.Resumable requestedUrl (some record)) :
      Workspace.Resumable requestedUrl (some record) { workspace with record := none } := by
    have fewer : Fewer workspace { workspace with record := none } :=
      ⟨rfl, rfl, rfl, .inr rfl, .inl rfl⟩
    exact closed_resumable fewer resumable
  refine caused_settles _ (Triple.call ?_ ?_ ?_ ?_ ?_)
  · exact fun workspace resumable => ⟨removed workspace resumable, rfl⟩
  · exact fun _ resumable => resumable.settled
  · exact fun workspace resumable => (removed workspace resumable).settled
  · exact fun _ resumable => resumable.settled
  · exact fun workspace resumable => (removed workspace resumable).settled

theorem openPartial_settles (resume : Option ResumeRecord) :
    Settles (Workspace.Resumable requestedUrl resume) (openPartial resume) (fun _ workspace =>
      ∃ prior, workspace.Ready requestedUrl resume prior) := by
  cases resume with
  | some record =>
    refine Triple.bind (caused_settles _ (removeRecord_settles requestedUrl record)) fun _ => ?_
    exact caused_settles _ (openResumable_settles requestedUrl record)
  | none =>
    refine caused_settles _ ((openFresh_settles requestedUrl).consequence ?_ ?_ ?_ ?_)
    · exact fun _ resumable => resumable.settled
    · exact fun _ _ ready => ⟨[], ready⟩
    · exact fun _ => settled_id
    · exact settled_id

end

section

def StreamingResponseMetadata.Agrees (metadata : StreamingResponseMetadata)
    (resume : Option ResumeRecord) : Prop :=
  match resume with
  | some record => reproduces record metadata = true
  | none => metadata.wasPartial = false

variable {record : ResumeRecord}

theorem reproduces_iff {metadata : StreamingResponseMetadata} :
    reproduces record metadata = true ↔ metadata.wasPartial = true ∧
      metadata.rangeStart = some record.offset ∧ metadata.totalSize = some record.totalSize ∧
      metadata.etag = some record.etag ∧ metadata.etag.any isStrongEtag = true ∧
      metadata.validatedUrl = record.validatedUrl := by
  simp only [reproduces, Bool.and_eq_true, decide_eq_true_eq]
  tauto

theorem describes_of_reproduces {served : Served}
    (same : reproduces record served.metadata = true) :
    served.Describes (record.representation served.requestedUrl) := by
  obtain ⟨-, -, totalSize, etag, -, validatedUrl⟩ := reproduces_iff.mp same
  exact ⟨rfl, validatedUrl, etag, totalSize⟩

variable {downloader : Downloader} {requestedUrl : Str} {resume : Option ResumeRecord}
  {prior : Bytes}
  {served : Served}

def Workspace.Announced (requestedUrl : Str) (resume : Option ResumeRecord) (prior : Bytes)
    (served : Served) (workspace : Workspace) : Prop :=
  workspace.Ready requestedUrl resume prior ∧ served ∈ workspace.served

theorem closed_announced : Closed (Workspace.Announced requestedUrl resume prior served) := by
  intro _ _ fewer announced
  refine ⟨closed_ready fewer announced.1, ?_⟩
  rw [fewer.served]
  exact announced.2

variable {workspace : Workspace}

theorem comesAfter_of_agrees
    (announced : workspace.Announced served.requestedUrl resume prior served)
    (agrees : served.metadata.Agrees resume) : served.ComesAfter workspace.served prior := by
  cases resume with
  | none => exact .inl ⟨agrees, announced.1.fresh rfl⟩
  | some record =>
    obtain ⟨-, standsFor⟩ := announced.1.resumed record rfl
    obtain ⟨isPartial, rangeStart, -, -, -, -⟩ := reproduces_iff.mp agrees
    refine .inr ⟨isPartial, ?_, _, describes_of_reproduces agrees,
      standsFor.strong, standsFor.assembled⟩
    rw [rangeStart, standsFor.offset]

theorem live_of_bound (announced : workspace.Announced served.requestedUrl resume prior served)
    (agrees : served.metadata.Agrees resume) : Workspace.Live served prior []
      { workspace with
        record := some (some (boundMeta served.requestedUrl served.metadata)) }
    where
  recorded := ⟨announced.1.recorded.commits, announced.1.recorded.completed⟩
  member := announced.2
  comesAfter := by
    have comesAfter := comesAfter_of_agrees announced agrees
    exact comesAfter
  fromBody := nil_prefix
  holds := by
    rw [append_nil]
    exact announced.1.holds
  record := .inr rfl

theorem writeMeta_settles (agrees : served.metadata.Agrees resume) :
    Settles (Workspace.Announced served.requestedUrl resume prior served)
      (writeMeta (boundMeta served.requestedUrl served.metadata))
      (fun _ => Workspace.Live served prior []) := by
  have touches :=
    touch_settles (@closed_announced served.requestedUrl resume prior served)
      fun _ held => held.1.settled
  refine Triple.bind (touches _) fun _ => Triple.bind (touches _) fun _ => ?_
  refine Triple.bind (touches _) fun _ => Triple.bind (touches _) fun _ => ?_
  refine Triple.bind (touches _) fun _ => ?_
  refine caused_settles _ (Triple.call ?_ ?_ ?_ ?_ ?_)
  · exact fun _ announced => live_of_bound announced agrees
  · exact fun _ announced => announced.1.settled
  · exact fun _ announced => (live_of_bound announced agrees).settled
  · exact fun _ announced => announced.1.settled
  · exact fun _ announced => (live_of_bound announced agrees).settled

theorem bindResponseMetadata_settles :
    Settles (Workspace.Announced served.requestedUrl resume prior served)
      (bindResponseMetadata served.requestedUrl resume served.metadata)
      (fun _ workspace =>
        workspace.Live served prior [] ∧ served.metadata.Agrees resume) := by
  have binds (agrees : served.metadata.Agrees resume) :
      Settles (Workspace.Announced served.requestedUrl resume prior served)
        (caused "binding partial response metadata"
          (writeMeta (boundMeta served.requestedUrl served.metadata)))
        (fun _ workspace =>
          workspace.Live served prior [] ∧ served.metadata.Agrees resume) :=
    (caused_settles _ (writeMeta_settles agrees)).consequence
      (fun _ => id) (fun _ _ live => ⟨live, agrees⟩) (fun _ => settled_id)
      settled_id
  have refuses (text : String) :
      Settles (Workspace.Announced served.requestedUrl resume prior served)
        (failWith text : Download Unit)
        (fun _ workspace =>
          workspace.Live served prior [] ∧ served.metadata.Agrees resume) :=
    Triple.throw fun _ announced => announced.1.settled
  cases resume with
  | some =>
    unfold bindResponseMetadata
    dsimp only
    split
    next same => exact binds same
    · exact refuses _
  | none =>
    unfold bindResponseMetadata
    dsimp only
    split
    · exact refuses _
    next full => exact binds (Bool.eq_false_iff.mpr full)

theorem bindMetadata_settles : Settles (Workspace.Announced served.requestedUrl resume prior served)
    (bindMetadata downloader served.requestedUrl resume served.metadata)
    (fun _ workspace =>
      workspace.Live served prior [] ∧ served.metadata.Agrees resume) := by
  have tame {Value : Type} {program : Download Value} (isTame : Tame program) :
      Settles (Workspace.Announced served.requestedUrl resume prior served) program
        (fun _ => Workspace.Announced served.requestedUrl resume prior served) :=
    isTame.settles closed_announced fun _ held => held.1.settled
  refine Triple.bind (tame (setCells_tame _)) fun _ => ?_
  refine Triple.bind (tame (inspect _)) fun cells => ?_
  split
  · exact Triple.throw fun _ announced => announced.1.settled
  · exact Triple.bind (tame (reserveTotal_tame _)) fun _ => bindResponseMetadata_settles

end

section

variable {downloader : Downloader} {served : Served} {prior : Bytes} {written : Bytes}

theorem live_of_byte {workspace : Workspace} {byte : UInt8}
    (live : workspace.Live served prior written)
    (fromBody : written ++ [byte] <+: served.response.body) :
    Workspace.Live served prior (written ++ [byte])
      { workspace with data := workspace.data.map (· ++ [byte]) } where
  __ := live
  recorded := ⟨live.recorded.commits, live.recorded.completed⟩
  fromBody := fromBody
  holds := by
    rcases live.holds with removed | holds
    · exact .inl (by rw [removed]; rfl)
    · refine .inr ?_
      dsimp only
      rw [holds, ← append_assoc]
      rfl

theorem writeByte_settles {byte : UInt8} (fromBody : written ++ [byte] <+: served.response.body) :
    Settles (Workspace.Live served prior written) (writeByte byte)
      (fun _ => Workspace.Live served prior (written ++ [byte])) := by
  have appends : Settles (Workspace.Live served prior written) (access fun workspace =>
    ((), { workspace with data := workspace.data.map (· ++ [byte]) }))
      (fun _ => Workspace.Live served prior (written ++ [byte])) := by
    refine Triple.call ?_ ?_ ?_ ?_ ?_
    · exact fun _ live => live_of_byte live fromBody
    · exact fun _ live => live.settled
    · exact fun _ live => (live_of_byte live fromBody).settled
    · exact fun _ live => live.settled
    · exact fun _ live => (live_of_byte live fromBody).settled
  exact Triple.bind appends fun _ =>
    (setCells_tame _).settles closed_live fun _ live => live.settled

theorem writeBytes_settles {written bytes : Bytes}
    (fromBody : written ++ bytes <+: served.response.body) :
    Settles (Workspace.Live served prior written) (Faulty.forEach writeByte bytes)
      (fun _ => Workspace.Live served prior (written ++ bytes)) := by
  induction bytes generalizing written with
  | nil =>
    rw [append_nil]
    exact Triple.pure fun _ => id
  | cons byte bytes ih =>
    rw [append_cons] at fromBody ⊢
    have fromBodyHead : written ++ [byte] <+: served.response.body :=
      (prefix_append _ _).trans fromBody
    exact Triple.bind (writeByte_settles fromBodyHead) fun _ => ih fromBody

theorem writeAll_settles {written bytes : Bytes}
    (fromBody : written ++ bytes <+: served.response.body) :
    Settles (Workspace.Live served prior written) (writeAll downloader bytes)
      (fun _ => Workspace.Live served prior (written ++ bytes)) := by
  unfold writeAll
  split
  next isEmpty =>
    rw [isEmpty, append_nil]
    exact Triple.pure fun _ => id
  · have reserves :=
      (@ensureReserved_tame downloader bytes.length).settles
        (@closed_live served prior written) fun _ live => live.settled
    exact caused_settles _ (Triple.bind reserves fun _ => writeBytes_settles fromBody)

variable (declaredLength : Option Nat) (totalWritten : Nat)

theorem writeChunk_settles {written chunk : Bytes}
    (fromBody : written ++ chunk <+: served.response.body) :
    Settles (Workspace.Live served prior written)
      (writeChunk downloader declaredLength totalWritten chunk)
      (fun _ => Workspace.Live served prior (written ++ chunk)) := by
  cases declaredLength with
  | none => exact writeAll_settles fromBody
  | some declaredLength =>
    unfold writeChunk
    dsimp only
    split
    · exact Triple.throw fun _ live => live.settled
    · split
      · have fromBodySafe : written ++ chunk.take (declaredLength - totalWritten) <+:
            served.response.body :=
          ((prefix_append_right_inj _).mpr <| take_prefix _ _).trans fromBody
        exact Triple.bind (writeAll_settles fromBodySafe) fun _ =>
          Triple.throw fun _ live => live.settled
      · exact writeAll_settles fromBody

theorem writeChunks_settles {chunks : List Bytes}
    (fromBody : written ++ chunks.flatten <+: served.response.body) :
    Settles (Workspace.Live served prior written)
      (writeChunks downloader declaredLength chunks totalWritten)
      (fun _ => Workspace.Live served prior (written ++ chunks.flatten)) := by
  induction chunks generalizing written totalWritten with
  | nil =>
    rw [flatten_nil, append_nil]
    exact Triple.pure fun _ => id
  | cons chunk chunks ih =>
    rw [flatten_cons, ← append_assoc] at fromBody ⊢
    have fromBodyHead : written ++ chunk <+: served.response.body :=
      (prefix_append _ _).trans fromBody
    unfold writeChunks
    cases checkedAdd totalWritten chunk.length with
    | none => exact Triple.throw fun _ live => live.settled
    | some nextTotal =>
      exact Triple.bind (writeChunk_settles declaredLength totalWritten fromBodyHead) fun _ =>
        ih nextTotal fromBody

theorem writeBody_settles : Settles (Workspace.Live served prior [])
    (writeBody downloader served.response declaredLength)
    (fun _ => Workspace.Live served prior served.response.body) := by
  refine Triple.bind (writeChunks_settles declaredLength 0 (prefix_refl _)) fun totalWritten => ?_
  cases served.response.broken with
  | some => exact Triple.throw fun _ live => live.settled
  | none =>
    have flushes :=
      touch_settles (@closed_live served prior served.response.body) fun _ live => live.settled
    refine Triple.bind (flushes _) fun _ => ?_
    split
    · exact Triple.throw fun _ live => live.settled
    · exact Triple.pure fun _ => id

end

section

variable {downloader : Downloader} {requestedUrl : Str} {resume : Option ResumeRecord}
  {prior : Bytes}

/-- The result of an attempt is what its response says, in agreement with what was resumed. -/
structure Served.Answers (served : Served) (requestedUrl : Str) (resume : Option ResumeRecord)
    (result : StreamingDownload) : Prop where
  requestedUrl : served.requestedUrl = requestedUrl
  agrees : served.metadata.Agrees resume
  wasPartial : result.wasPartial = served.metadata.wasPartial
  etag : result.etag = served.metadata.etag
  totalSize : result.totalSize = served.metadata.totalSize

/-- An attempt has written the whole body of its response. -/
def Workspace.Downloaded (requestedUrl : Str) (resume : Option ResumeRecord)
    (result : StreamingDownload) (workspace : Workspace) : Prop :=
  ∃ served prior, served.Answers requestedUrl resume result ∧
    workspace.Live served prior served.response.body

variable {result : StreamingDownload}

theorem closed_downloaded : Closed (Workspace.Downloaded requestedUrl resume result) :=
  fun fewer ⟨served, prior, answers, live⟩ => ⟨served, prior, answers, closed_live fewer live⟩

variable {workspace : Workspace}

theorem Workspace.Downloaded.settled
    (downloaded : workspace.Downloaded requestedUrl resume result) : workspace.Settled := by
  obtain ⟨_, _, -, live⟩ := downloaded
  exact live.settled

theorem announced_of_ready (ready : workspace.Ready requestedUrl resume prior) (served : Served) :
    Workspace.Announced requestedUrl resume prior served
      { workspace with served := served :: workspace.served } := by
  refine ⟨⟨ready.recorded.announced served, ready.holds, ready.fresh, ?_⟩, mem_cons_self⟩
  intro record isRecord
  obtain ⟨noRecord, standsFor⟩ := ready.resumed record isRecord
  exact ⟨noRecord, standsFor.offset, standsFor.strong,
    standsFor.assembled.mono (subset_cons_self _ _)⟩

theorem deliver_settles (served : Served) :
    Settles (Workspace.Ready served.requestedUrl resume prior) (deliver downloader served
      (bindMetadata downloader served.requestedUrl resume))
      (Workspace.Downloaded served.requestedUrl resume) := by
  have announces : Settles (Workspace.Ready served.requestedUrl resume prior) (announce served)
      (fun _ => Workspace.Announced served.requestedUrl resume prior served) :=
    Triple.update fun _ ready => announced_of_ready ready served
  refine Triple.bind announces fun _ => ?_
  refine Triple.bind bindMetadata_settles fun _ => Triple.assuming fun agrees => ?_
  refine Triple.bind (writeBody_settles _) fun bytesWritten => ?_
  exact Triple.pure fun _ live => ⟨served, prior, ⟨rfl, agrees, rfl, rfl, rfl⟩, live⟩

theorem fetch_settles (rangeStart : Option Nat) :
    Settles (Workspace.Ready requestedUrl resume prior) (fetch downloader requestedUrl rangeStart
      (bindMetadata downloader requestedUrl resume))
      (Workspace.Downloaded requestedUrl resume) := by
  have exchanges :=
    nextExchange_tame.settles (@closed_ready requestedUrl resume prior) fun _ ready => ready.settled
  refine Triple.bind exchanges fun exchange => ?_
  cases exchange with
  | failed => exact Triple.throw fun _ ready => ready.settled
  | answered response =>
    unfold writeStreamingResponse
    dsimp only
    split
    · exact Triple.throw fun _ ready => ready.settled
    next range accepted =>
      exact deliver_settles ⟨requestedUrl, rangeStart, response, range, accepted⟩

theorem executeFetchAttempt_settles : Settles (Workspace.Ready requestedUrl resume prior)
    (executeFetchAttempt downloader requestedUrl resume)
    (fun outcome workspace =>
      match outcome.1 with
      | .ok result => workspace.Downloaded requestedUrl resume result
      | .error _ => workspace.Settled) := by
  have tame {Value : Type} {program : Download Value} (isTame : Tame program) :=
    isTame.settles (@closed_ready requestedUrl resume prior) fun _ ready => ready.settled
  refine Triple.bind (tame initialLength_tame) fun initialBytes => ?_
  refine Triple.bind (tame (setCells_tame _)) fun _ => ?_
  refine Triple.bind (attempt_settles (fetch_settles _)) fun result => ?_
  cases result with
  | error error =>
    refine Triple.bind ((inspect _).settles closed_settled settled_id) fun cells => ?_
    exact Triple.pure fun _ => id
  | ok result =>
    refine Triple.bind ((inspect _).settles closed_downloaded
      fun _ downloaded => downloaded.settled) fun cells => ?_
    refine Triple.pure fun workspace downloaded => ?_
    by_cases counted : cells.callbackCount = 1
    · simp only [checkCallback, if_pos counted]
      exact downloaded
    · simp only [checkCallback, if_neg counted]
      exact downloaded.settled

end

end Arclain.Streaming
