import Arclain.RarHeaders
import Arclain.WorkerBackends

namespace Arclain.Import.Worker

open List Appending Fallible

/-!
# RAR archives

The headers of the file are attested, and the native decoder has to report the same.  It
decodes an entry by calling back with its bytes, and returns a code.

Names are those of a Unix system.
-/

/-- The codes of the native decoder that are told apart. -/
inductive Code where
  | success
  | endArchive
  | noMemory
  | missingPassword
  | badPassword
  | other
  deriving DecidableEq

def mapError : Code → ImportError
  | .missingPassword | .badPassword => .encrypted
  | .noMemory => .limit
  | _ => .corrupt

/-- `HeaderDataEx`. -/
structure NativeHeader where
  filenameW : List Nat
  unpSize : Nat
  packSize : Nat
  hostOs : Nat
  fileAttr : Nat
  redirType : Nat
  unpVer : Nat
  method : Nat
  splitBefore : Bool
  splitAfter : Bool
  encrypted : Bool
  solid : Bool
  directory : Bool

inductive Message where
  | processData (bytes : Bytes)
  | processNothing
  | needPassword
  | other

/-- The native decoder: what it reports when it lists the archive, and when it
decodes it. -/
structure RarLibrary where
  listOpened : Except ImportError Unit
  listed : List (NativeHeader × Code)
  listEnd : Code
  extractOpened : Except ImportError Unit
  extracted : List (NativeHeader × List Message × Code)
  extractEnd : Code

/-- `char::from_u32` of every character of a name. -/
def nativeName (units : List Nat) : Option Str :=
  units.mapM fun unit => if unit.isValidChar then some (Char.ofNat unit) else none

def attestNative (header : NativeHeader) (original : Rar.Header) : Except ImportError Unit :=
  match header.filenameW.findIdx? (· = 0) with
  | none => .error .unsupported
  | some length =>
    if 1023 ≤ length then .error .unsupported
    else
      match nativeName (header.filenameW.take length) with
      | none => .error .unsupported
      | some name =>
        if name ≠ original.name ∨ header.unpSize ≠ original.size ∨
          header.packSize ≠ original.packed ∨
          header.hostOs ≠ original.host ∨
          header.fileAttr ≠ original.attributes ∨
          header.directory ≠ original.directory then
          .error .unsupported
        else .ok ()

def NativeHeader.mode (header : NativeHeader) : Option Nat :=
  if header.hostOs = 3 then some header.fileAttr
  else none

def NativeHeader.kind (header : NativeHeader) : ObjectKind :=
  if header.redirType ≠ 0 ∨ (header.hostOs = 2 ∧ header.fileAttr &&& 0x400 ≠ 0) ∨
    header.mode.any (· &&& 0o170000 = 0o120000) then
    .link
  else if header.mode.any isSpecialMode then .special
  else if header.directory then .directory
  else .file

/-- The block of an entry: the last one if the archive is solid, or a new one. -/
def rarBlock (blocks : List PackedBlock) (solid : Bool)
    (original : Rar.Header) : Except ImportError (List PackedBlock × Nat) :=
  if solid ∧ blocks = [] then .error .corrupt
  else
    let blocks := if solid then blocks else blocks ++ [⟨0, 0⟩]
    let block := blocks.length - 1
    let packed := (blocks.getD block ⟨0, 0⟩).packedBytes + original.packed
    let unpacked := (blocks.getD block ⟨0, 0⟩).unpackedBytes + original.size
    if 2 ^ 64 ≤ packed ∨ 2 ^ 64 ≤ unpacked then .error .corrupt
    else .ok (blocks.set block ⟨packed, unpacked⟩, block)

def rarPlace (blocks : List PackedBlock) (header : NativeHeader) (original : Rar.Header) :
    Except ImportError (List PackedBlock × Option Nat) :=
  if header.kind = .directory then .ok (blocks, none)
  else do
    let (blocks, block) ← rarBlock blocks header.solid original
    .ok (blocks, some block)

/-- An iteration of `rar::Archive::open`. -/
def rarEntry (headers : List Rar.Header) (inventory : ArchiveInventory)
    (listed : NativeHeader × Code) : Except ImportError ArchiveInventory :=
  let (header, skipped) := listed
  match headers[inventory.entries.length]? with
  | none => .error .corrupt
  | some original => do
    attestNative header original
    if header.splitBefore ∨ header.splitAfter ∨ header.encrypted then .error .unsupported
    else do
      let (blocks, block) ← rarPlace inventory.blocks header original
      let entry : PhysicalEntry :=
        { index := inventory.entries.length
          name := .unicode original.name
          kind := header.kind
          size := original.size
          block := block
          encrypted := false
          method := "RAR:".toList ++ Nat.toDigits 10 header.unpVer ++ [':'] ++
            Nat.toDigits 10 header.method
          methodSupported := header.unpVer ≤ 70 ∧ 0x30 ≤ header.method ∧ header.method ≤ 0x35
          unixMode := header.mode }
      if skipped = .success then
        .ok { inventory with
          blocks := blocks
          entries := inventory.entries ++ [entry] }
      else .error (mapError skipped)

/-- The listing of `rar::Archive::open`, for headers that were attested. -/
def rarList (library : RarLibrary)
    (headers : List Rar.Header) : Except ImportError ArchiveInventory := do
  library.listOpened
  let inventory ← library.listed.foldlM (rarEntry headers) ⟨.rar, [], []⟩
  if library.listEnd ≠ .endArchive then .error (mapError library.listEnd)
  else if inventory.entries.length ≠ headers.length then .error .corrupt
  else .ok inventory

def attested (libraries : Rar.Libraries) (limits : Limits)
    (file : Rar.File) : Except ImportError (List Rar.Header) :=
  match Rar.attest libraries limits file with
  | .ok headers => .ok headers
  | .error (.refused error) => .error error
  | .error _ => .error .corrupt

/-- `rar::Archive::open`, with the outcomes of `native_path` and of `verify`. -/
def rarOpen (library : RarLibrary) (headers : Except ImportError (List Rar.Header))
    (nativePath verified : Except ImportError Unit) :
    Work (List Rar.Header × ArchiveInventory) := do
  let headers ← fromExcept headers
  fromExcept nativePath
  let inventory ← fromExcept (rarList library headers)
  verify verified
  pure (headers, inventory)

/-- `Context`, without the output. -/
structure Context where
  error : Option ImportError
  written : Nat
  declared : Nat

/-- `chunks(MAX_FRAME)`. -/
def chunks (bytes : Bytes) : List Bytes :=
  if bytes = [] then []
  else bytes.take maxFrame :: chunks (bytes.drop maxFrame)
termination_by bytes.length
decreasing_by
  have some : 0 < bytes.length := length_pos_iff.mpr ‹_›
  rw [length_drop]
  unfold maxFrame
  omega

def sendChunks : List Bytes → Work Unit
  | [] => pure ()
  | chunk :: chunks => do
    send Tag.data chunk
    sendChunks chunks

def keepError (context : Context) (action : Work Unit) : Work Context := fun output =>
  match action output with
  | .ok _ next => .ok context next
  | .error error next => .ok { context with error := some error } next

def callback (context : Context) : Message → Work Context
  | .needPassword => pure { context with error := some .encrypted }
  | .other => pure { context with error := some .unsupported }
  | .processNothing => pure { context with error := some .corrupt }
  | .processData bytes =>
    let written := context.written + bytes.length
    if 2 ^ 64 ≤ written then pure { context with error := some .limit }
    else if context.declared < written then
      pure { context with written := written, error := some .corrupt }
    else keepError { context with written := written } (sendChunks (chunks bytes))

def callbacks : List Message → Context → Work Context
  | [], context => pure context
  | message :: messages, context => do
    let context ← callback context message
    callbacks messages context

/-- What `rar::Archive::decode` emits of an entry. -/
def rarEmit (index declared : Nat) (messages : List Message) (code : Code) : Work Unit := do
  send Tag.begin (indexBytes index)
  let context ← callbacks messages ⟨none, 0, declared⟩
  match context.error with
  | some error => throw error
  | none =>
    if code ≠ .success then throw (mapError code)
    else if context.written ≠ context.declared then throw .corrupt
    else send Tag.finish (indexBytes index)

/-- The loop of `rar::Archive::decode`: the number of entries that were emitted. -/
def rarEntries (headers : List Rar.Header) (ending : Code) :
    List (NativeHeader × List Message × Code) → Nat → Work Nat
  | [], count =>
    if ending ≠ .endArchive then throw (mapError ending)
    else pure count
  | (header, messages, code) :: rest, count =>
    match headers[count]? with
    | none => throw .corrupt
    | some original => do
      fromExcept (attestNative header original)
      rarEmit count original.size messages code
      rarEntries headers ending rest (count + 1)

/-- `rar::Archive::decode`. -/
def rarDecode (library : RarLibrary) (headers : List Rar.Header) : Work Unit := do
  fromExcept library.extractOpened
  let count ← rarEntries headers library.extractEnd library.extracted 0
  if count ≠ headers.length then throw .corrupt
  else pure ()

section

variable {library : RarLibrary} {headers : List Rar.Header} {inventory next : ArchiveInventory}
variable {listed : NativeHeader × Code}

theorem rarEntry_eq_ok (taken : rarEntry headers inventory listed = .ok next) :
    ∃ original entry, headers[inventory.entries.length]? = some original ∧
      next.entries = inventory.entries ++ [entry] ∧
      entry.index = inventory.entries.length ∧ entry.size = original.size := by
  obtain ⟨_, _⟩ := listed
  unfold rarEntry at taken
  dsimp only at taken
  cases found : headers[inventory.entries.length]? with
  | none =>
    simp only [found] at taken
    cases taken
  | some original =>
    simp only [found] at taken
    obtain ⟨_, _, guarded⟩ := bind_eq_ok.mp taken
    obtain ⟨_, places⟩ := refuse_eq_ok.mp guarded
    obtain ⟨⟨_, _⟩, _, skips⟩ := bind_eq_ok.mp places
    dsimp only at skips
    split at skips
    · cases skips
      exact ⟨original, _, rfl, rfl, rfl, rfl⟩
    · cases skips

/-- What holds of the entries while they are listed. -/
structure Lists (headers : List Rar.Header) (entries : List PhysicalEntry) : Prop where
  indexed : Indexed entries
  sizes : ∀ (position : Nat) (entry : PhysicalEntry), entries[position]? = some entry →
    ∃ header, headers[position]? = some header ∧ entry.size = header.size

theorem Lists.entry (lists : Lists headers inventory.entries)
    (taken : rarEntry headers inventory listed = .ok next) : Lists headers next.entries := by
  obtain ⟨original, _, found, isNext, isIndex, isSize⟩ := rarEntry_eq_ok taken
  rw [isNext]
  refine ⟨lists.indexed.snoc isIndex, ?_⟩
  intro position other isOther
  rcases Nat.lt_trichotomy position inventory.entries.length with
    before | same | behind
  · rw [List.getElem?_append_left before] at isOther
    exact lists.sizes position other isOther
  · rw [same, List.getElem?_concat_length] at isOther
    cases isOther
    exact ⟨original, same ▸ found, isSize⟩
  · rw [List.getElem?_eq_none (by simpa using Nat.succ_le_of_lt behind)] at isOther
    cases isOther

theorem rarList_eq_ok (ran : rarList library headers = .ok inventory) :
    Lists headers inventory.entries ∧ inventory.entries.length = headers.length := by
  obtain ⟨_, _, lists⟩ := bind_eq_ok.mp ran
  obtain ⟨_, looped, guarded⟩ := bind_eq_ok.mp lists
  obtain ⟨_, counts⟩ := refuse_eq_ok.mp guarded
  obtain ⟨counted, returned⟩ := refuse_eq_ok.mp counts
  cases returned
  refine ⟨?_, not_not.mp counted⟩
  refine foldlM_preserves (fun inventory => Lists headers inventory.entries)
    (fun _ lists => lists.entry) ⟨?_, ?_⟩ looped
  · intro position entry found
    simp at found
  · intro position entry found
    simp at found

theorem rarOpen_appends {attested : Except ImportError (List Rar.Header)}
    {nativePath verified : Except ImportError Unit} :
    Appends Output.log (rarOpen library attested nativePath verified)
      (fun result added => added = [.verified] ∧
        attested = .ok result.1 ∧ rarList library result.1 = .ok result.2)
      (fun added => added = []) := by
  refine appends_fromExcept_bind rfl fun headers isAttested => ?_
  refine appends_fromExcept_bind rfl fun _ _ => ?_
  refine appends_fromExcept_bind rfl fun inventory ran => ?_
  refine (verify_appends verified).bind (fun _ => id) ?_
  rintro _ added ⟨rfl, _⟩
  exact appends_pure ⟨rfl, isAttested, ran⟩

end

section

theorem chunks_spec (bytes : Bytes) :
    (chunks bytes).flatten = bytes ∧ ∀ chunk ∈ chunks bytes, chunk ≠ [] := by
  induction bytes using chunks.induct with
  | case1 => simp [chunks]
  | case2 bytes isSome ih =>
    obtain ⟨whole, nonempty⟩ := ih
    rw [chunks, if_neg isSome]
    refine ⟨?_, ?_⟩
    · rw [flatten_cons, whole, take_append_drop]
    · refine forall_mem_cons.mpr ⟨?_, nonempty⟩
      intro isEmpty
      rcases take_eq_nil_iff.mp isEmpty with isZero | isNil
      · cases isZero
      · exact isSome isNil

/-- Parts that were sent as `DATA` frames. -/
def dataEvents (parts : List Bytes) : List Event := parts.map fun part => .sent (Tag.data, part)

theorem sendChunks_appends (parts : List Bytes) : Appends Output.log (sendChunks parts)
    (fun _ added => added = dataEvents parts)
    (fun added => ∃ sent, sent <+: parts ∧ added = dataEvents sent) := by
  induction parts with
  | nil => exact appends_pure rfl
  | cons part parts ih =>
    refine (send_appends _ _).bind ?_ ?_
    · rintro added rfl
      exact ⟨[], nil_prefix, rfl⟩
    · rintro _ added ⟨rfl, _⟩
      refine ih.mono ?_ ?_
      · rintro _ more rfl
        rfl
      · rintro more ⟨sent, isPrefix, rfl⟩
        exact ⟨part :: sent, cons_prefix_cons.mpr ⟨rfl, isPrefix⟩, rfl⟩

/-- The callbacks sent parts that are not empty, and counted their bytes while nothing was
wrong. -/
structure Called (before after : Context) (parts : List Bytes) : Prop where
  declared : after.declared = before.declared
  nonempty : ∀ part ∈ parts, part ≠ []
  written : after.error = none → before.error = none ∧
    after.written = before.written + parts.flatten.length

theorem callback_appends (context : Context) (message : Message) :
    Appends Output.log (callback context message)
      (fun after added => ∃ parts, added = dataEvents parts ∧ Called context after parts)
      (fun _ => False) := by
  have refused (error : ImportError) (written : Nat) : ∃ parts, [] = dataEvents parts ∧
      Called context ⟨some error, written, context.declared⟩ parts :=
    ⟨[], rfl, rfl, by simp, by simp⟩
  cases message with
  | needPassword | other | processNothing => exact appends_pure (refused _ _)
  | processData bytes =>
    rw [callback]
    split
    · exact appends_pure (refused _ _)
    · split
      · exact appends_pure (refused _ _)
      · obtain ⟨whole, nonempty⟩ := chunks_spec bytes
        intro output
        have sent := sendChunks_appends (chunks bytes) output
        unfold keepError
        cases ran : sendChunks (chunks bytes) output with
        | ok _ next =>
          rw [ran] at sent
          obtain ⟨added, isAdded, rfl⟩ := sent
          refine ⟨_, isAdded, chunks bytes, rfl, rfl, nonempty, ?_⟩
          intro noError
          exact ⟨noError, by rw [whole]⟩
        | error error next =>
          rw [ran] at sent
          obtain ⟨added, isAdded, sent, isPrefix, rfl⟩ := sent
          refine ⟨_, isAdded, sent, rfl, rfl, ?_, by simp⟩
          intro part mem
          exact nonempty part (isPrefix.subset mem)

variable {messages : List Message}

theorem callbacks_appends {context : Context} : Appends Output.log (callbacks messages context)
    (fun after added => ∃ parts, added = dataEvents parts ∧ Called context after parts)
    (fun _ => False) := by
  induction messages generalizing context with
  | nil => exact appends_pure ⟨[], rfl, rfl, by simp, fun noError => ⟨noError, rfl⟩⟩
  | cons message messages ih =>
    refine (callback_appends context message).bind (fun _ => id) ?_
    rintro middle added ⟨first, rfl, called⟩
    refine ih.mono ?_ (fun _ => id)
    rintro after more ⟨second, rfl, calledNext⟩
    refine ⟨first ++ second, (map_append).symm, ?_, ?_, ?_⟩
    · exact calledNext.declared.trans called.declared
    · intro part mem
      rcases mem_append.mp mem with inFirst | inSecond
      · exact called.nonempty part inFirst
      · exact calledNext.nonempty part inSecond
    · intro noError
      obtain ⟨middleFree, isWritten⟩ := calledNext.written noError
      obtain ⟨free, wasWritten⟩ := called.written middleFree
      refine ⟨free, ?_⟩
      rw [isWritten, wasWritten, flatten_append, length_append]
      omega

theorem rarEmit_appends {count index declared : Nat} {code : Code} (inInventory : index < count) :
    Appends Output.log (rarEmit index declared messages code) (fun _ added => ∃ parts : List Bytes,
      added = eventsOf [⟨index, parts⟩] ∧ (∀ part ∈ parts, part ≠ []) ∧
        parts.flatten.length = declared)
      (Unfinished count) := by
  refine (send_appends _ _).bind ?_ ?_
  · rintro added rfl
    exact unfinished_nil
  · rintro _ added ⟨rfl, _⟩
    refine callbacks_appends.bind (fun _ never => never.elim) ?_
    rintro context added ⟨parts, rfl, called⟩
    have begun : Unfinished count
        ([.sent (Tag.begin, indexBytes index)] ++ (dataEvents parts ++ [])) := by
      refine unfinished_begun inInventory called.nonempty ?_
      simp [Stream.begun, dataEvents, Function.comp_def]
    cases found : context.error with
    | some => exact appends_throw begun
    | none =>
      obtain ⟨_, isWritten⟩ := called.written found
      refine appends_guard begun fun _ => appends_guard begun fun isWhole => ?_
      refine (send_appends _ _).mono ?_ ?_
      · rintro _ more ⟨rfl, _⟩
        refine ⟨parts, ?_, called.nonempty, ?_⟩
        · simp [eventsOf, Stream.frames, Stream.begun, dataEvents, Function.comp_def]
        · have same := not_not.mp isWhole
          have sameDeclared := called.declared
          dsimp only at isWritten sameDeclared
          omega
      · rintro more rfl
        exact begun

variable {headers : List Rar.Header}

theorem rarEntries_appends {ending : Code}
    {extracted : List (NativeHeader × List Message × Code)} {count : Nat} :
    Appends Output.log (rarEntries headers ending extracted count)
      (fun final added => ∃ streams : List Stream, added = eventsOf streams ∧
        (∀ stream ∈ streams, stream.WellFormed headers.length) ∧
        streams.map Stream.index = (List.range' count streams.length) ∧
        final = count + streams.length ∧
        ∀ stream ∈ streams, ∃ header, headers[stream.index]? = some header ∧
          stream.parts.flatten.length = header.size)
      (Unfinished headers.length) := by
  induction extracted generalizing count with
  | nil =>
    rw [rarEntries]
    exact appends_guard unfinished_nil fun _ => appends_pure ⟨[], rfl, by simp, rfl, rfl, by simp⟩
  | cons taken extracted ih =>
    obtain ⟨header, _, _⟩ := taken
    rw [rarEntries]
    cases found : headers[count]? with
    | none => exact appends_throw unfinished_nil
    | some original =>
      have inside := (List.getElem?_eq_some_iff.mp found).1
      refine appends_fromExcept_bind unfinished_nil fun _ _ => ?_
      refine (rarEmit_appends inside).bind (fun _ => id) ?_
      rintro _ added ⟨parts, rfl, nonempty, size⟩
      have wellFormed : ∀ stream ∈ [(⟨count, parts⟩ : Stream)],
          stream.WellFormed headers.length := by
        intro stream mem
        obtain rfl := mem_singleton.mp mem
        exact ⟨inside, nonempty⟩
      refine ih.mono ?_ fun _ unfinished => unfinished.append wellFormed
      rintro final more ⟨streams, rfl, allWellFormed, indices, rfl, sizes⟩
      refine ⟨⟨count, parts⟩ :: streams, ?_, ?_, ?_, ?_, ?_⟩
      · rw [← eventsOf_append]
        rfl
      · exact forall_mem_cons.mpr ⟨wellFormed _ mem_cons_self, allWellFormed⟩
      · rw [map_cons, indices, length_cons, List.range'_succ]
      · rw [length_cons]
        omega
      · exact forall_mem_cons.mpr ⟨⟨original, found, size⟩, sizes⟩

theorem rarDecode_emits {faithful : Prop} {library : RarLibrary}
    {entries : List PhysicalEntry} (lists : Lists headers entries)
    (counted : entries.length = headers.length) :
    Appends Output.log (rarDecode library headers) (fun _ added => ∃ streams,
      added = eventsOf streams ∧ Emitted faithful entries streams) (Unfinished entries.length) := by
  refine appends_fromExcept_bind unfinished_nil fun _ _ => ?_
  rw [counted]
  refine rarEntries_appends.bind (fun _ => id) ?_
  rintro final added ⟨streams, rfl, wellFormed, indices, rfl, sizes⟩
  have whole : Unfinished headers.length (eventsOf streams ++ []) :=
    unfinished_nil.append wellFormed
  refine appends_guard whole fun isAll => ?_
  have all : streams.length = headers.length := by
    have same := not_not.mp isAll
    omega
  refine appends_pure ⟨streams, append_nil _, ?_, ?_, ?_⟩
  · rw [indices, all, counted, range_eq_range']
  · rw [counted]
    exact wellFormed
  · intro _ stream mem
    obtain ⟨_, found, size⟩ := sizes stream mem
    have inside := (List.getElem?_eq_some_iff.mp found).1
    rw [← counted] at inside
    have entryFound := List.getElem?_eq_getElem inside
    obtain ⟨_, same, entrySize⟩ := lists.sizes _ _ entryFound
    obtain rfl := Option.some.inj (found.symm.trans same)
    exact ⟨_, entryFound, size.trans entrySize.symm⟩

end

end Arclain.Import.Worker
