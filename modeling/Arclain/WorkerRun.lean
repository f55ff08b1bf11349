import Arclain.WorkerRar
import Arclain.WorkerSevenZ

namespace Arclain.Import.Worker

open List Appending Tag

/-!
# A run of the worker

The worker greets the importer, opens the archive, lists it, and decodes all of it when told
to.

The requests, the libraries and the operating system are left open.
-/

/-- The JSON of the inventory, as it is written and as it is read.  What was written
is read back. -/
structure Json where
  container : Container → Option Bytes
  block : PackedBlock → Option Bytes
  entry : PhysicalEntry → Option Bytes
  wire : Wire Container PackedBlock PhysicalEntry
  container_read : ∀ {value bytes}, container value = some bytes → wire.container bytes = some value
  block_read : ∀ {value bytes}, block value = some bytes → wire.block bytes = some value
  entry_read : ∀ {value bytes}, entry value = some bytes → wire.entry bytes = some value

structure Surroundings where
  json : Json
  openFrame : Except ImportError RawFrame
  request : Bytes → Option Limits
  opened : Except ImportError Unit
  magic : Except ImportError Bytes
  zip : Limits → Except UnboxerError ZipReader
  sevenZ : SevenZLibrary
  rarLibraries : Rar.Libraries
  rarFile : Rar.File
  rarNativePath : Except ImportError Unit
  rarVerified : Except ImportError Unit
  rar : RarLibrary
  decodeFrame : Except ImportError RawFrame
  inspect : ArchiveInventory → Except UnboxerError Unit
  verified : Except ImportError Unit

inductive Backend where
  | zip (reader : ZipReader) (inventory : ArchiveInventory)
  | sevenZ (archive : SevenZArchive)
  | rar (headers : List Rar.Header) (inventory : ArchiveInventory)

def Backend.inventory : Backend → ArchiveInventory
  | .zip _ inventory => inventory
  | .sevenZ archive => archive.inventory
  | .rar _ inventory => inventory

def Backend.decode (surroundings : Surroundings) : Backend → Work Unit
  | .zip reader inventory => zipDecode reader inventory.entries
  | .sevenZ archive => sevenZDecode surroundings.sevenZ archive
  | .rar headers _ => rarDecode surroundings.rar headers

/-- The choice of a backend in `run`, by the first bytes of the archive. -/
def openBackend (surroundings : Surroundings) (limits : Limits) (magic : Bytes) : Work Backend :=
  if [0x50, 0x4b, 0x03, 0x04].isPrefixOf magic ∨ [0x50, 0x4b, 0x05, 0x06].isPrefixOf magic then do
    let (reader, inventory) ← fromExcept (zipOpen (surroundings.zip limits))
    pure (.zip reader inventory)
  else if [0x37, 0x7a, 0xbc, 0xaf, 0x27, 0x1c].isPrefixOf magic then do
    let archive ← fromExcept (sevenZOpen surroundings.sevenZ limits)
    pure (.sevenZ archive)
  else if [0x52, 0x61, 0x72, 0x21, 0x1a, 0x07].isPrefixOf magic then do
    let (headers, inventory) ← rarOpen surroundings.rar
        (attested surroundings.rarLibraries limits surroundings.rarFile)
        surroundings.rarNativePath surroundings.rarVerified
    pure (.rar headers inventory)
  else throw .unsupported

/-- A loop of `send_inventory`: the bytes of the payloads so far. -/
def sendItems {Item : Type} (tag : UInt8) (encode : Item → Option Bytes) (limits : Limits) :
    List Item → Nat → Work Nat
  | [], bytes => pure bytes
  | item :: items, bytes =>
    match encode item with
    | none => throw .corrupt
    | some payload =>
      let bytes := bytes + payload.length
      if limits.maxIndexBytes < bytes then throw .limit
      else do
        send tag payload
        sendItems tag encode limits items bytes

def sendInventory (json : Json) (limits : Limits) (inventory : ArchiveInventory) : Work Unit :=
  if limits.maxEntries < inventory.entries.length ∨
    inventory.entries.length < inventory.blocks.length then
    throw .limit
  else
    match json.container inventory.container with
    | none => throw .corrupt
    | some container => do
      send archive container
      let bytes ← sendItems block json.block limits inventory.blocks 0
      let _ ← sendItems entry json.entry limits inventory.entries bytes
      send inventoryEnd (indexBytes inventory.entries.length)

/-- The request of `run`, as far as its limits are concerned. -/
def requested (surroundings : Surroundings) : Except ImportError Limits := do
  let (tag, data) ← surroundings.openFrame
  if tag ≠ openArchive then .error .corrupt
  else
    match surroundings.request data with
    | none => .error .corrupt
    | some limits =>
      if 200000 < limits.maxEntries ∨ 64 * 2 ^ 20 < limits.maxIndexBytes then .error .limit
      else .ok limits

/-- The check of `run` before it decodes: that it was told to, and that the inventory
is safe. -/
def mayDecode (surroundings : Surroundings)
    (inventory : ArchiveInventory) : Except ImportError Unit := do
  let (tag, data) ← surroundings.decodeFrame
  if tag ≠ decode ∨ data ≠ [] then .error .corrupt
  else (surroundings.inspect inventory).mapError (limitOr .unsupported)

def run (surroundings : Surroundings) : Work Unit := do
  send ready greeting
  let limits ← fromExcept (requested surroundings)
  fromExcept surroundings.opened
  let magic ← fromExcept surroundings.magic
  let backend ← openBackend surroundings limits magic
  sendInventory surroundings.json limits backend.inventory
  fromExcept (mayDecode surroundings backend.inventory)
  backend.decode surroundings
  verify surroundings.verified
  send complete []

/-- A transcript that lists an inventory within the limits. -/
structure Described (json : Json) (limits : Limits) (inventory : ArchiveInventory)
    (transcript : Transcript) : Prop where
  container : json.container inventory.container = some transcript.container
  blocks : inventory.blocks.map json.block = transcript.blocks.map some
  entries : inventory.entries.map json.entry = transcript.entries.map some
  entries_le : inventory.entries.length ≤ limits.maxEntries
  blocks_le : inventory.blocks.length ≤ inventory.entries.length
  counted : transcript.metadata ≤ limits.maxIndexBytes

def sentAll (frames : List RawFrame) : List Event := frames.map .sent

section

variable {json : Json} {limits : Limits}

theorem sendItems_appends {Item : Type} {tag : UInt8} {encode : Item → Option Bytes}
    {items : List Item} {bytes : Nat} (within : bytes ≤ limits.maxIndexBytes) :
    Appends Output.log (sendItems tag encode limits items bytes)
      (fun final added => ∃ payloads : List Bytes, added = sentAll (payloads.map (tag, ·)) ∧
        items.map encode = payloads.map some ∧ final = bytes + (payloads.map List.length).sum ∧
        final ≤ limits.maxIndexBytes)
      (fun added => ∃ payloads : List Bytes, added = sentAll (payloads.map (tag, ·)) ∧
        payloads.length ≤ items.length) := by
  induction items generalizing bytes with
  | nil => exact appends_pure ⟨[], rfl, rfl, rfl, within⟩
  | cons item items ih =>
    rw [sendItems]
    cases encoded : encode item with
    | none => exact appends_throw ⟨[], rfl, Nat.zero_le _⟩
    | some payload =>
      refine appends_guard ⟨[], rfl, Nat.zero_le _⟩ fun fits => ?_
      refine (send_appends _ _).bind ?_ ?_
      · rintro added rfl
        exact ⟨[], rfl, Nat.zero_le _⟩
      · rintro _ added ⟨rfl, _⟩
        refine (ih (Nat.le_of_not_lt fits)).mono ?_ ?_
        · rintro final more ⟨payloads, rfl, listed, rfl, counted⟩
          refine ⟨payload :: payloads, rfl, ?_, ?_, counted⟩
          · rw [map_cons, encoded, listed]
            rfl
          · rw [map_cons, sum_cons]
            omega
        · rintro more ⟨payloads, rfl, few⟩
          exact ⟨payload :: payloads, rfl, Nat.succ_le_succ few⟩

def PartlyListed (added : List Event) : Prop :=
  ∃ transcript : Transcript, transcript.WellFormed ∧
    added <+: sentAll ((archive, transcript.container) :: transcript.listing)

theorem partlyListed_entries {container : Bytes} {blocks entries : List Bytes} {added : List Event}
    (few : entries.length < 2 ^ 64) (isPart : added <+: sentAll ((archive, container) ::
      (blocks.map (block, ·) ++ entries.map (entry, ·)))) :
    PartlyListed added := by
  refine ⟨⟨container, blocks, entries, []⟩, ⟨few, by simp⟩, isPart.trans ?_⟩
  refine List.IsPrefix.map _ (cons_prefix_cons.mpr ⟨rfl, ?_⟩)
  exact prefix_append _ _

theorem sendInventory_appends {inventory : ArchiveInventory} (small : limits.maxEntries < 2 ^ 64) :
    Appends Output.log (sendInventory json limits inventory)
      (fun _ added => ∃ transcript : Transcript,
        Described json limits inventory transcript ∧ transcript.streams = [] ∧ added =
          sentAll ((archive, transcript.container) :: transcript.listing))
      PartlyListed := by
  have nothing : PartlyListed [] := @partlyListed_entries [] [] [] [] (by simp) nil_prefix
  refine appends_guard nothing fun plain => ?_
  obtain ⟨fewEntries, fewBlocks⟩ := not_or.mp plain
  have fewEntries := Nat.le_of_not_lt fewEntries
  have fewBlocks := Nat.le_of_not_lt fewBlocks
  cases encoded : json.container inventory.container with
  | none => exact appends_throw nothing
  | some container =>
    refine (send_appends _ _).bind ?_ ?_
    · rintro added rfl
      exact nothing
    · rintro _ added ⟨rfl, _⟩
      refine (sendItems_appends (Nat.zero_le _)).bind ?_ ?_
      · rintro added ⟨blocks, rfl, _⟩
        refine @partlyListed_entries container blocks [] _ (by simp) ?_
        simp [sentAll]
      · rintro bytes added ⟨blocks, rfl, blocksListed, rfl, within⟩
        refine (sendItems_appends within).bind ?_ ?_
        · rintro added ⟨entries, rfl, _⟩
          refine @partlyListed_entries container blocks entries _ (by omega) ?_
          simp [sentAll]
        · rintro bytes added ⟨entries, rfl, entriesListed, rfl, counted⟩
          have lengths := congrArg List.length entriesListed
          rw [length_map, length_map] at lengths
          refine (send_appends _ _).mono ?_ ?_
          · rintro _ more ⟨rfl, _⟩
            refine ⟨⟨container, blocks, entries, []⟩, ?_, rfl, ?_⟩
            · exact
                { container := encoded
                  blocks := blocksListed
                  entries := entriesListed
                  entries_le := fewEntries
                  blocks_le := fewBlocks
                  counted := by
                    rw [Transcript.metadata]
                    dsimp only
                    omega }
            · simp [sentAll, Transcript.listing, lengths]
          · rintro more rfl
            refine @partlyListed_entries container blocks entries _ (by omega) ?_
            simp [sentAll]

end

def framesOf (events : List Event) : List RawFrame :=
  events.filterMap fun
    | .sent frame => some frame
    | .verified => none

/-- Libraries that hand over the files of a 7z archive in their order. -/
def Faithful (surroundings : Surroundings) : Prop :=
  ∀ limits archive, sevenZOpen surroundings.sevenZ limits = .ok archive →
    HandsOver surroundings.sevenZ archive

/-- A backend that was opened: it has what its library reports of the archive. -/
def Backend.Ready (surroundings : Surroundings) (limits : Limits) : Backend → Prop
  | .zip reader inventory => zipOpen (surroundings.zip limits) = .ok (reader, inventory)
  | .sevenZ archive => sevenZOpen surroundings.sevenZ limits = .ok archive
  | .rar headers inventory =>
    attested surroundings.rarLibraries limits surroundings.rarFile = .ok headers ∧
      rarList surroundings.rar headers = .ok inventory

/-- A run that failed: what it wrote is the beginning of a transcript, without the
final frame. -/
def Cut (added : List Event) : Prop :=
  ∃ transcript : Transcript, transcript.WellFormed ∧
    framesOf added <+: transcript.opening ++ transcript.decoded

/-- The inventory was listed and all of it emitted, and the source verified before the final
frame. -/
structure Completed (surroundings : Surroundings) (limits : Limits) (inventory : ArchiveInventory)
    (transcript : Transcript) (added : List Event) : Prop where
  requested : requested surroundings = .ok limits
  opened : ∃ backend : Backend, backend.Ready surroundings limits ∧ backend.inventory = inventory
  described : Described surroundings.json limits inventory transcript
  wellFormed : transcript.WellFormed
  indexed : Indexed inventory.entries
  emitted : Emitted (Faithful surroundings) inventory.entries transcript.streams
  frames : framesOf added = transcript.frames
  verified : surroundings.verified = .ok ()
  lastly : ∃ before, added = before ++ [.verified, .sent (complete, [])]

section

variable {surroundings : Surroundings} {limits : Limits}

theorem framesOf_append (first second : List Event) :
    framesOf (first ++ second) = framesOf first ++ framesOf second :=
  filterMap_append

@[simp]
theorem framesOf_sentAll (frames : List RawFrame) : framesOf (sentAll frames) = frames := by
  simp [framesOf, sentAll]

@[simp]
theorem framesOf_eventsOf (streams : List Stream) :
    framesOf (eventsOf streams) = streams.flatMap Stream.frames :=
  framesOf_sentAll _

theorem requested_small (served : requested surroundings = .ok limits) :
    limits.maxEntries < 2 ^ 64 ∧ limits.maxIndexBytes < 2 ^ 64 := by
  unfold requested at served
  obtain ⟨⟨_, data⟩, _, guarded⟩ := Fallible.bind_eq_ok.mp served
  obtain ⟨_, parses⟩ := Fallible.refuse_eq_ok.mp guarded
  cases found : surroundings.request data with
  | none =>
    simp only [found] at parses
    cases parses
  | some =>
    simp only [found] at parses
    obtain ⟨_, returned⟩ := Fallible.refuse_eq_ok.mp parses
    cases returned
    omega

theorem openBackend_appends {magic : Bytes} :
    Appends Output.log (openBackend surroundings limits magic)
      (fun backend added => framesOf added = [] ∧ backend.Ready surroundings limits)
      (fun added => framesOf added = []) := by
  unfold openBackend
  split
  · refine appends_fromExcept_bind rfl ?_
    rintro ⟨_, inventory⟩ opened
    exact appends_pure ⟨rfl, opened⟩
  · split
    · refine appends_fromExcept_bind rfl fun archive opened => ?_
      exact appends_pure ⟨rfl, opened⟩
    · split
      · refine rarOpen_appends.bind ?_ ?_
        · rintro added rfl
          rfl
        · rintro ⟨_, inventory⟩ added ⟨rfl, isAttested, listed⟩
          exact appends_pure ⟨rfl, isAttested, listed⟩
      · exact appends_throw rfl

variable {backend : Backend}

theorem Backend.Ready.indexed (ready : backend.Ready surroundings limits) :
    Indexed backend.inventory.entries := by
  cases backend with
  | zip _ inventory => exact zipOpen_indexed ready
  | sevenZ => exact sevenZOpen_indexed ready
  | rar _ inventory => exact (rarList_eq_ok ready.2).1.indexed

theorem Backend.Ready.decode_appends (ready : backend.Ready surroundings limits)
    (few : backend.inventory.entries.length < 2 ^ 64) :
    Appends Output.log (backend.decode surroundings) (fun _ added => ∃ streams,
      added = eventsOf streams ∧ Emitted (Faithful surroundings) backend.inventory.entries streams)
      (Unfinished backend.inventory.entries.length) := by
  cases backend with
  | zip _ inventory => exact zipDecode_emits (zipOpen_indexed ready)
  | sevenZ archive =>
    refine (sevenZDecode_emits ready few).mono ?_ fun _ => id
    rintro _ added ⟨streams, rfl, emitted⟩
    exact ⟨streams, rfl, emitted.mono fun faithful => faithful limits archive ready⟩
  | rar _ inventory =>
    obtain ⟨lists, counted⟩ := rarList_eq_ok ready.2
    exact rarDecode_emits lists counted

theorem cut_greeted {added : List Event} (silent : framesOf added = []) :
    Cut (sentAll [(ready, greeting)] ++ added) := by
  refine ⟨⟨[], [], [], []⟩, ⟨by simp, by simp⟩, ?_⟩
  rw [framesOf_append, framesOf_sentAll, silent]
  exact prefix_append _ _

variable {opening added : List Event}

theorem cut_listing (silent : framesOf opening = []) (partly : PartlyListed added) :
    Cut (sentAll [(ready, greeting)] ++ (opening ++ added)) := by
  obtain ⟨transcript, wellFormed, isPart⟩ := partly
  refine ⟨transcript, wellFormed, ?_⟩
  have frames := List.IsPrefix.filterMap (fun
    | .sent frame => some frame
    | .verified => none) isPart
  change framesOf added <+: framesOf (sentAll _) at frames
  rw [framesOf_sentAll] at frames
  rw [framesOf_append, framesOf_append, framesOf_sentAll, silent]
  refine List.IsPrefix.trans ?_ (prefix_append _ _)
  exact cons_prefix_cons.mpr ⟨rfl, frames⟩

theorem cut_decoding {transcript : Transcript}
    (silent : framesOf opening = []) (few : transcript.entries.length < 2 ^ 64)
    (unfinished : Unfinished transcript.entries.length added) :
    Cut (sentAll [(ready, greeting)] ++ (opening ++
      (sentAll ((archive, transcript.container) :: transcript.listing) ++ added))) := by
  obtain ⟨streams, wellFormed, isPart⟩ := unfinished
  refine ⟨{ transcript with streams := streams }, ⟨few, wellFormed⟩, ?_⟩
  have frames := List.IsPrefix.filterMap (fun
    | .sent frame => some frame
    | .verified => none) isPart
  change framesOf added <+: framesOf (eventsOf streams) at frames
  rw [framesOf_eventsOf] at frames
  simp only [framesOf_append, framesOf_sentAll, silent]
  exact (prefix_append_right_inj
    (Transcript.opening { transcript with streams := streams })).mpr frames

theorem run_appends : Appends Output.log (run surroundings)
    (fun _ added => ∃ limits inventory transcript,
      Completed surroundings limits inventory transcript added)
    Cut := by
  refine (send_appends _ _).bind ?_ ?_
  · rintro added rfl
    exact ⟨⟨[], [], [], []⟩, ⟨by simp, by simp⟩, nil_prefix⟩
  rintro _ added ⟨rfl, _⟩
  refine appends_fromExcept_bind (cut_greeted rfl) fun limits served => ?_
  refine appends_fromExcept_bind (cut_greeted rfl) fun _ _ => ?_
  refine appends_fromExcept_bind (cut_greeted rfl) fun magic _ => ?_
  refine openBackend_appends.bind (fun _ => cut_greeted) ?_
  rintro backend opening ⟨silent, ready⟩
  obtain ⟨fewLimit, _⟩ := requested_small served
  refine (sendInventory_appends fewLimit).bind (fun _ => cut_listing silent) ?_
  rintro _ added ⟨transcript, described, _, rfl⟩
  have counted : backend.inventory.entries.length = transcript.entries.length := by
    have lengths := congrArg List.length described.entries
    simpa using lengths
  have few := described.entries_le
  refine appends_fromExcept_bind ?_ fun _ _ => ?_
  · exact cut_decoding silent (by omega) unfinished_nil
  refine (ready.decode_appends (by omega)).bind ?_ ?_
  · intro added unfinished
    rw [counted] at unfinished
    exact cut_decoding silent (by omega) unfinished
  rintro _ added ⟨streams, rfl, emitted⟩
  have whole : Unfinished transcript.entries.length (eventsOf streams ++ []) :=
    unfinished_nil.append (counted ▸ emitted.wellFormed)
  have wellFormed : Transcript.WellFormed { transcript with streams := streams } :=
    ⟨by dsimp only; omega, counted ▸ emitted.wellFormed⟩
  refine (verify_appends _).bind ?_ ?_
  · rintro added rfl
    exact cut_decoding silent (by omega) whole
  rintro _ added ⟨rfl, verified⟩
  refine (send_appends _ _).mono ?_ ?_
  · rintro _ added ⟨rfl, _⟩
    refine ⟨limits, backend.inventory, { transcript with streams := streams },
      { requested := served
        opened := ⟨backend, ready, rfl⟩
        described :=
          { container := described.container
            blocks := described.blocks
            entries := described.entries
            entries_le := described.entries_le
            blocks_le := described.blocks_le
            counted := described.counted }
        wellFormed := wellFormed
        indexed := ready.indexed
        emitted := emitted
        frames := ?_
        verified := verified
        lastly := ?_ }⟩
    · simp only [framesOf_append, framesOf_sentAll, framesOf_eventsOf, silent]
      simp [framesOf, Transcript.frames, Transcript.opening, Transcript.decoded, Transcript.listing]
    · refine ⟨sentAll [(Tag.ready, greeting)] ++ (opening ++
        (sentAll ((archive, transcript.container) :: transcript.listing) ++
          eventsOf streams)), ?_⟩
      simp [sentAll]
  · rintro added rfl
    refine ⟨{ transcript with streams := streams }, wellFormed, ?_⟩
    simp only [framesOf_append, framesOf_sentAll, framesOf_eventsOf, silent]
    simp [framesOf, Transcript.opening, Transcript.decoded, Transcript.listing]

end

end Arclain.Import.Worker
