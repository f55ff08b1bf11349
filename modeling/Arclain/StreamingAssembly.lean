import Arclain.StreamingDownload

namespace Arclain.Streaming

/-!
# Blobs put together from responses

A blob is assembled from pieces of bodies: the first is the beginning of a full response,
and each later one of a partial response whose range starts where the bytes so far end.
-/

open Text Cache FaultyCalls Option

/-- What the responses of one blob have in common. -/
structure Representation where
  requestedUrl : Str
  validatedUrl : Str
  etag : Str
  totalSize : Nat

structure Served.Describes (served : Served) (representation : Representation) : Prop where
  requestedUrl : served.requestedUrl = representation.requestedUrl
  validatedUrl : served.metadata.validatedUrl = representation.validatedUrl
  etag : served.metadata.etag = some representation.etag
  totalSize : served.metadata.totalSize = some representation.totalSize

theorem Served.Describes.unique {served : Served} {first second : Representation}
    (describesFirst : served.Describes first) (describesSecond : served.Describes second) :
    first = second := by
  have requestedUrl := describesFirst.requestedUrl.symm.trans describesSecond.requestedUrl
  have validatedUrl := describesFirst.validatedUrl.symm.trans describesSecond.validatedUrl
  have etag := describesFirst.etag.symm.trans describesSecond.etag
  have totalSize := describesFirst.totalSize.symm.trans describesSecond.totalSize
  cases first
  cases second
  cases requestedUrl
  cases validatedUrl
  cases etag
  cases totalSize
  rfl

/-- Pieces of responses that describe a representation, concatenated without a gap or an
overlap. -/
inductive Assembled (history : List Served) (representation : Representation) : Bytes → Prop where
  | fresh {served : Served} {piece : Bytes} (member : served ∈ history)
      (describes : served.Describes representation)
      (full : served.metadata.wasPartial = false)
      (fromBody : piece <+: served.response.body) :
      Assembled history representation piece
  | resumed {bytes : Bytes} {served : Served} {piece : Bytes}
      (assembled : Assembled history representation bytes)
      (member : served ∈ history)
      (describes : served.Describes representation)
      (isPartial : served.metadata.wasPartial = true)
      (continues : served.metadata.rangeStart = some bytes.length)
      (fromBody : piece <+: served.response.body) :
      Assembled history representation (bytes ++ piece)

variable {history later : List Served}

theorem Assembled.mono {representation : Representation}
    {bytes : Bytes} (assembled : Assembled history representation bytes) (grows : history ⊆ later) :
    Assembled later representation bytes := by
  induction assembled with
  | fresh member describes full fromBody => exact .fresh (grows member) describes full fromBody
  | resumed assembled member describes isPartial continues fromBody ih =>
    exact .resumed ih (grows member) describes isPartial continues fromBody

/-- A text in quotes with no quote, space or control character in it, and no weak mark. -/
def StrongEtag (etag : Str) : Prop :=
  ∃ inside, etag = '"' :: (inside ++ ['"']) ∧
    ∀ char ∈ inside, 0x21 ≤ char.toNat ∧ char ≠ '"' ∧ char.toNat ≠ 0x7f

theorem strongEtag_of_isStrongEtag {etag : Str} (strong : isStrongEtag etag = true) :
    StrongEtag etag := by
  simp only [isStrongEtag, Bool.and_eq_true, decide_eq_true_eq, List.all_eq_true] at strong
  obtain ⟨⟨⟨⟨long, first⟩, last⟩, -⟩, clean⟩ := strong
  obtain ⟨rest, rfl⟩ := List.head?_eq_some_iff.mp first
  obtain ⟨before, whole⟩ := List.getLast?_eq_some_iff.mp last
  cases before with
  | nil =>
    cases whole
    simp at long
  | cons _ inside =>
    cases whole
    refine ⟨inside, rfl, fun char member => ?_⟩
    have allowed := clean char (by simpa using member)
    simp only [Bool.or_eq_true, Bool.and_eq_true, decide_eq_true_eq] at allowed
    refine ⟨by omega, ?_, by omega⟩
    rintro rfl
    revert allowed
    decide

/-- A committed blob is made of responses of one strong representation of its size, or is
the body of one full response. -/
inductive Faithful (history : List Served) (url : Str) (blob : Bytes) : Prop where
  | assembled (representation : Representation) (requested : representation.requestedUrl = url)
      (strong : StrongEtag representation.etag)
      (complete : blob.length = representation.totalSize)
      (assembled : Assembled history representation blob)
  | single (served : Served) (member : served ∈ history) (requested : served.requestedUrl = url)
      (full : served.metadata.wasPartial = false)
      (whole : blob = served.response.body)
      (sized : ∀ totalSize, served.metadata.totalSize = some totalSize → blob.length = totalSize)

theorem Faithful.mono {url : Str} {blob : Bytes}
    (faithful : Faithful history url blob) (grows : history ⊆ later) : Faithful later url blob := by
  cases faithful with
  | assembled representation requested strong complete assembled =>
    exact .assembled representation requested strong complete (assembled.mono grows)
  | single served member requested full whole sized =>
    exact .single served (grows member) requested full whole sized

/-- The representation that a record stands for. -/
def ResumeRecord.representation (record : ResumeRecord) (requestedUrl : Str) : Representation where
  requestedUrl := requestedUrl
  validatedUrl := record.validatedUrl
  etag := record.etag
  totalSize := record.totalSize

theorem resumeCandidate_eq_some {requestedUrl : Str} {offset : Nat} {partialMeta : PartialMeta}
    {record : ResumeRecord}
    (candidate : resumeCandidate requestedUrl offset partialMeta = some record) :
    partialMeta.requestedUrl = some requestedUrl ∧ partialMeta.url = record.validatedUrl ∧
      partialMeta.etag = some record.etag ∧ partialMeta.totalSize = some record.totalSize ∧
      isStrongEtag record.etag = true ∧ record.offset = offset ∧ offset ≠ 0 := by
  unfold resumeCandidate at candidate
  cases size : partialMeta.totalSize with
  | none =>
    rw [size] at candidate
    cases candidate
  | some =>
    cases tag : partialMeta.etag with
    | none =>
      rw [size, tag] at candidate
      cases candidate
    | some =>
      rw [size, tag] at candidate
      simp only [bind_eq_bind, bind_some] at candidate
      split at candidate
      · cases candidate
      next allowed =>
        cases candidate
        push Not at allowed
        refine ⟨allowed.1, rfl, rfl, rfl, ?_, rfl, allowed.2.2.1⟩
        simpa using allowed.2.1

/-- The record beside the partial file speaks of the bytes in it. -/
def Workspace.Bound (workspace : Workspace) : Prop :=
  ∀ partialMeta bytes requestedUrl record, workspace.record = some (some partialMeta) →
    workspace.data = some bytes →
    resumeCandidate requestedUrl bytes.length partialMeta = some record →
    Assembled workspace.served (record.representation requestedUrl) bytes

/-- Every committed blob is faithful, and a result that is shared is that of a
commit. -/
structure Workspace.Recorded (workspace : Workspace) : Prop where
  commits : ∀ commit ∈ workspace.commits, Faithful workspace.served commit.request.url commit.blob
  completed : ∀ completed, workspace.completed = some completed →
    ∃ commit ∈ workspace.commits, commit.request = completed.request ∧
      commit.blob.length = completed.bytes

structure Workspace.Settled (workspace : Workspace) : Prop where
  recorded : workspace.Recorded
  bound : workspace.Bound

theorem Workspace.Recorded.announced {workspace : Workspace} (recorded : workspace.Recorded)
    (served : Served) :
    Workspace.Recorded { workspace with served := served :: workspace.served } where
  __ := recorded
  commits commit member := (recorded.commits commit member).mono (List.subset_cons_self _ _)

section

/-- At most, files were removed and stores were used. -/
structure Fewer (before after : Workspace) : Prop where
  served : after.served = before.served
  commits : after.commits = before.commits
  completed : after.completed = before.completed
  data : after.data = none ∨ after.data = before.data
  record : after.record = none ∨ after.record = before.record

variable (workspace : Workspace)

theorem Fewer.refl : Fewer workspace workspace where
  served := rfl
  commits := rfl
  completed := rfl
  data := .inr rfl
  record := .inr rfl

def Closed (holds : Workspace → Prop) : Prop :=
  ∀ {before after}, Fewer before after → holds before → holds after

/-- A computation that at most removes files and uses stores. -/
def Tame {Value : Type} (program : Download Value) : Prop := ∀ before, Keeps (Fewer before) program

theorem Tame.keeps {Value : Type} {program : Download Value} {holds : Workspace → Prop}
    (tame : Tame program) (closed : Closed holds) : Keeps holds program := by
  intro workspace fates held
  have met := tame workspace workspace fates (Fewer.refl workspace)
  cases ended : program workspace fates with
  | returned _ after rest | failed _ after rest | crashed after =>
    rw [ended] at met
    exact closed met held

variable {before after : Workspace}

theorem Fewer.recorded (fewer : Fewer before after) (recorded : before.Recorded) :
    after.Recorded := by
  constructor
  · rw [fewer.commits, fewer.served]
    exact recorded.commits
  · rw [fewer.commits, fewer.completed]
    exact recorded.completed

theorem Fewer.bound (fewer : Fewer before after) (bound : before.Bound) : after.Bound := by
  intro partialMeta bytes requestedUrl record hasRecord hasData candidate
  rw [fewer.served]
  refine bound partialMeta bytes requestedUrl record ?_ ?_ candidate
  · cases fewer.record with
    | inl removed => simp [removed] at hasRecord
    | inr same => rw [← same, hasRecord]
  · cases fewer.data with
    | inl removed => simp [removed] at hasData
    | inr same => rw [← same, hasData]

theorem closed_settled : Closed Workspace.Settled :=
  fun fewer settled => ⟨fewer.recorded settled.recorded, fewer.bound settled.bound⟩

/-- The partial file is gone or holds just some bytes. -/
def Workspace.HoldsAtMost (workspace : Workspace) (bytes : Bytes) : Prop :=
  workspace.data = none ∨ workspace.data = some bytes

theorem Workspace.HoldsAtMost.eq_of_data {workspace : Workspace} {bytes contents : Bytes}
    (holds : workspace.HoldsAtMost bytes) (hasData : workspace.data = some contents) :
    contents = bytes := by
  rw [Workspace.HoldsAtMost, hasData] at holds
  simpa using holds

theorem Fewer.ofStores (stores : Stores) : Fewer workspace { workspace with stores := stores } :=
  ⟨rfl, rfl, rfl, .inr rfl, .inr rfl⟩

theorem Fewer.holdsAtMost {bytes : Bytes} (fewer : Fewer before after)
    (holds : before.HoldsAtMost bytes) : after.HoldsAtMost bytes := by
  cases fewer.data with
  | inl removed => exact .inl removed
  | inr same =>
    rw [Workspace.HoldsAtMost, same]
    exact holds

end

section

structure ResumeRecord.StandsFor (record : ResumeRecord) (history : List Served)
    (requestedUrl : Str) (bytes : Bytes) : Prop where
  offset : bytes.length = record.offset
  strong : isStrongEtag record.etag = true
  assembled : Assembled history (record.representation requestedUrl) bytes

/-- The record that a call resumes with stands for what is in the partial file. -/
structure Workspace.Resumable (requestedUrl : Str) (resume : Option ResumeRecord)
    (workspace : Workspace) : Prop where
  settled : workspace.Settled
  standsFor : ∀ record, resume = some record → ∀ bytes, workspace.data = some bytes →
    record.StandsFor workspace.served requestedUrl bytes

variable {requestedUrl : Str} {resume : Option ResumeRecord}

theorem closed_resumable : Closed (Workspace.Resumable requestedUrl resume) := by
  intro _ _ fewer resumable
  refine ⟨closed_settled fewer resumable.settled, ?_⟩
  intro record isRecord bytes hasData
  rw [fewer.served]
  refine resumable.standsFor record isRecord bytes ?_
  cases fewer.data with
  | inl removed => simp [removed] at hasData
  | inr same => rw [← same, hasData]

/-- The partial file holds what the response comes after, and no record allows to resume. -/
structure Workspace.Ready (requestedUrl : Str) (resume : Option ResumeRecord) (prior : Bytes)
    (workspace : Workspace) : Prop where
  recorded : workspace.Recorded
  holds : workspace.HoldsAtMost prior
  fresh : resume = none → prior = []
  resumed : ∀ record, resume = some record → workspace.record = none ∧
    record.StandsFor workspace.served requestedUrl prior

theorem closed_ready {prior : Bytes} : Closed (Workspace.Ready requestedUrl resume prior) := by
  intro _ _ fewer ready
  refine ⟨fewer.recorded ready.recorded, fewer.holdsAtMost ready.holds, ready.fresh, ?_⟩
  intro record isRecord
  obtain ⟨noRecord, standsFor⟩ := ready.resumed record isRecord
  rw [fewer.served]
  refine ⟨?_, standsFor⟩
  cases fewer.record with
  | inl removed => exact removed
  | inr same => rw [same, noRecord]

variable {prior : Bytes} {workspace : Workspace}

theorem Workspace.Ready.settled
    (ready : workspace.Ready requestedUrl resume prior) : workspace.Settled := by
  refine ⟨ready.recorded, ?_⟩
  intro _ bytes _ _ hasRecord hasData candidate
  cases resume with
  | some record =>
    rw [(ready.resumed record rfl).1] at hasRecord
    cases hasRecord
  | none =>
    -- The file is empty, so there is no offset to resume from.
    have isEmpty : bytes = [] := (ready.holds.eq_of_data hasData).trans (ready.fresh rfl)
    obtain ⟨-, -, -, -, -, -, nonzero⟩ := resumeCandidate_eq_some candidate
    rw [isEmpty] at nonzero
    exact absurd rfl nonzero

def Served.ComesAfter (served : Served) (history : List Served) (prior : Bytes) : Prop :=
  (served.metadata.wasPartial = false ∧ prior = []) ∨ served.metadata.wasPartial = true ∧
    served.metadata.rangeStart = some prior.length ∧
    ∃ representation, served.Describes representation ∧ isStrongEtag representation.etag = true ∧
      Assembled history representation prior

variable {served : Served}

theorem Served.ComesAfter.assembled {history : List Served} {prior written : Bytes}
    {representation : Representation} (comesAfter : served.ComesAfter history prior)
    (member : served ∈ history) (describes : served.Describes representation)
    (fromBody : written <+: served.response.body) :
    Assembled history representation (prior ++ written) := by
  rcases comesAfter with ⟨full, rfl⟩ | ⟨isPartial, continues, other, rest⟩
  · exact .fresh member describes full fromBody
  · obtain ⟨describesOther, -, assembled⟩ := rest
    cases describesOther.unique describes
    exact .resumed assembled member describes isPartial continues fromBody

/-- While the body of a response is written, the record is that of the response. -/
structure Workspace.Live (served : Served) (prior written : Bytes)
    (workspace : Workspace) : Prop where
  recorded : workspace.Recorded
  member : served ∈ workspace.served
  comesAfter : served.ComesAfter workspace.served prior
  fromBody : written <+: served.response.body
  holds : workspace.HoldsAtMost (prior ++ written)
  record : workspace.record = none ∨ workspace.record =
    some (some (boundMeta served.requestedUrl served.metadata))

theorem closed_live {prior written : Bytes} : Closed (Workspace.Live served prior written) := by
  intro _ _ fewer live
  refine ⟨fewer.recorded live.recorded, ?_, ?_, live.fromBody, fewer.holdsAtMost live.holds, ?_⟩
  · rw [fewer.served]
    exact live.member
  · rw [fewer.served]
    exact live.comesAfter
  · cases fewer.record with
    | inl removed => exact .inl removed
    | inr same =>
      rw [same]
      exact live.record

theorem Workspace.Live.settled {prior written : Bytes}
    (live : workspace.Live served prior written) : workspace.Settled := by
  refine ⟨live.recorded, ?_⟩
  intro partialMeta bytes url record hasRecord hasData candidate
  have isBound : partialMeta = boundMeta served.requestedUrl served.metadata := by
    have bound := live.record
    rw [hasRecord] at bound
    simpa using bound
  have isWritten : bytes = prior ++ written := live.holds.eq_of_data hasData
  subst isBound
  subst isWritten
  obtain ⟨requestedUrl, validatedUrl, etag, totalSize, -, -, -⟩ := resumeCandidate_eq_some candidate
  have describes : served.Describes (record.representation url) :=
    ⟨some.inj requestedUrl, validatedUrl, etag, totalSize⟩
  exact live.comesAfter.assembled live.member describes live.fromBody

end

end Arclain.Streaming
