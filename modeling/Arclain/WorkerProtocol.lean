import Arclain.ImportAcceptance
import Arclain.WorkerRun

namespace Arclain.Import.Worker

open List Appending PhysicalEntry Tag Transcript

/-!
# What the importer makes of a run

What a run writes is the beginning of a transcript, and with the final frame it is a whole
one.
-/

def eventsOfRun (surroundings : Surroundings) (failures : List Bool) : List Event :=
  match run surroundings ⟨[], failures⟩ with
  | .ok _ output | .error _ output => output.log

def written (surroundings : Surroundings) (failures : List Bool) : List RawFrame :=
  framesOf (eventsOfRun surroundings failures)

def payloadBytes {Item : Type} (encode : Item → Option Bytes) (items : List Item) : Nat :=
  (items.map fun item => ((encode item).getD []).length).sum

def listedBytes (json : Json) (inventory : ArchiveInventory) : Nat :=
  payloadBytes json.block inventory.blocks + payloadBytes json.entry inventory.entries

section

variable {Item : Type} {encode : Item → Option Bytes} {items : List Item} {payloads : List Bytes}

theorem payloadBytes_eq (encoded : items.map encode = payloads.map some) :
    payloadBytes encode items = (payloads.map length).sum := by
  have lengths : (items.map encode).map (fun payload => (payload.getD []).length) =
      (payloads.map some).map (fun payload => (payload.getD []).length) := by
    rw [encoded]
  rw [map_map, map_map] at lengths
  exact congrArg sum lengths

theorem map_read_back {parse : Bytes → Option Item}
    (read : ∀ {item payload}, encode item = some payload → parse payload = some item)
    (encoded : items.map encode = payloads.map some) : payloads.map parse = items.map some := by
  induction items generalizing payloads with
  | nil =>
    obtain rfl := map_eq_nil_iff.mp encoded.symm
    rfl
  | cons item items ih =>
    cases payloads with
    | nil => cases encoded
    | cons payload payloads =>
      obtain ⟨first, others⟩ := cons.inj encoded
      rw [map_cons, map_cons, read first, ih others]

end

variable {limits : Limits} {inventory : ArchiveInventory} {transcript : Transcript}

theorem Described.metadata_eq {json : Json}
    (described : Described json limits inventory transcript) :
    transcript.metadata = listedBytes json inventory := by
  rw [metadata, listedBytes, payloadBytes_eq described.blocks,
    payloadBytes_eq described.entries]

theorem Completed.readable {surroundings : Surroundings} {added : List Event}
    (completed : Completed surroundings limits inventory transcript added) :
    Readable surroundings.json.wire index limits transcript inventory := by
  have described := completed.described
  have blockLengths := congrArg length described.blocks
  have entryLengths := congrArg length described.entries
  rw [length_map, length_map] at blockLengths entryLengths
  have entriesFew := described.entries_le
  have blocksFew := described.blocks_le
  exact
    { small := (requested_small completed.requested).2
      entries_lt := completed.wellFormed.entries_lt
      container := surroundings.json.container_read described.container
      blocks := map_read_back surroundings.json.block_read described.blocks
      entries := map_read_back surroundings.json.entry_read described.entries
      blocks_le := by omega
      entries_le := by omega
      indexed := completed.indexed }

theorem complete_notMem (transcript : Transcript) (data : Bytes) :
    (Tag.complete, data) ∉ transcript.opening ++ transcript.decoded := by
  intro mem
  simp [opening, listing, decoded, Stream.frames,
    Stream.begun, Tag.complete, Tag.ready, Tag.archive, Tag.block, Tag.entry,
    Tag.inventoryEnd, Tag.begin, Tag.data, Tag.finish] at mem

theorem run_cases (surroundings : Surroundings) (failures : List Bool) :
    (∃ limits inventory transcript, Completed surroundings limits inventory transcript
      (eventsOfRun surroundings failures)) ∨ Cut (eventsOfRun surroundings failures) := by
  have ran := @run_appends surroundings ⟨[], failures⟩
  unfold eventsOfRun
  cases result : run surroundings ⟨[], failures⟩ with
  | ok _ output =>
    rw [result] at ran
    obtain ⟨added, isLog, completed⟩ := ran
    dsimp only
    rw [isLog]
    exact .inl completed
  | error error output =>
    rw [result] at ran
    obtain ⟨added, isLog, cut⟩ := ran
    dsimp only
    rw [isLog]
    exact .inr cut

/-- A run writes the beginning of a transcript, and a final frame is accepted exactly when
the payloads are within the limit. -/
theorem output_accepted_iff (surroundings : Surroundings) (failures : List Bool) :
    (∃ transcript : Transcript, transcript.WellFormed ∧
      written surroundings failures <+: transcript.frames) ∧
    ∀ data, (complete, data) ∈ written surroundings failures → ∃ limits inventory transcript,
      Completed surroundings limits inventory transcript (eventsOfRun surroundings failures) ∧
      ∀ (initial : Container) (peer : Peer), peer.Quiet →
        passed peer.frames = written surroundings failures →
        (Accepts surroundings.json.wire index initial limits peer ↔
          listedBytes surroundings.json inventory + 8 ≤ limits.maxIndexBytes) := by
  constructor
  · rcases run_cases surroundings failures with
      ⟨limits, inventory, transcript, completed⟩ | ⟨transcript, wellFormed, isPart⟩
    · refine ⟨transcript, completed.wellFormed, ?_⟩
      rw [written, completed.frames]
    · exact ⟨transcript, wellFormed, isPart.trans (prefix_append _ _)⟩
  · intro data isWritten
    rcases run_cases surroundings failures with
      ⟨limits, inventory, transcript, completed⟩ | ⟨transcript, _, isPart⟩
    · refine ⟨limits, inventory, transcript, completed, ?_⟩
      intro initial peer quiet said
      have whole : passed peer.frames = transcript.frames ++ [] := by
        rw [append_nil, said]
        exact completed.frames
      rw [accepts_iff quiet completed.readable completed.wellFormed whole,
        completed.described.metadata_eq]
    · exact absurd (isPart.subset isWritten) (complete_notMem transcript data)

/-- The name of the container, without escapes; nothing else is listed. -/
def zipJson : Json where
  container container :=
    match container with
    | .zip => some [34, 90, 105, 112, 34]
    | _ => none
  block _ := none
  entry _ := none
  wire :=
    { container := fun bytes => if bytes = [34, 90, 105, 112, 34] then some .zip else none
      block := fun _ => none
      entry := fun _ => none
      failure := fun _ => none }
  container_read := by
    intro value bytes written
    cases value <;> cases written
    rfl
  block_read := by
    intro value bytes written
    cases written
  entry_read := by
    intro value bytes written
    cases written

/-- A ZIP archive without entries, and how many bytes of it may be listed. -/
def emptyZip (maxIndexBytes : Nat) : Surroundings where
  json := zipJson
  openFrame := .ok (openArchive, [])
  request _ := some ⟨1, maxIndexBytes⟩
  opened := .ok ()
  magic := .ok [0x50, 0x4b, 0x05, 0x06, 0, 0]
  zip _ := .ok ⟨[], fun _ => none⟩
  sevenZ := ⟨none, fun _ => none, fun _ => 0, fun _ => [], fun _ => true⟩
  rarLibraries := ⟨fun _ => 0, fun _ => false⟩
  rarFile := ⟨[], Nat.two_pow_pos 63⟩
  rarNativePath := .error .unsupported
  rarVerified := .error .corrupt
  rar := ⟨.error .corrupt, [], .other, .error .corrupt, [], .other⟩
  decodeFrame := .ok (decode, [])
  inspect _ := .ok ()
  verified := .ok ()

/-- A worker that says this of an archive without entries. -/
def emptyZipPeer (maxIndexBytes : Nat) : Peer where
  frames := written (emptyZip maxIndexBytes) []
  ending := .io
  polls := []
  openFails := none
  decodeFails := none
  exitFails := none

/-- The entry of a stored file `a` of two bytes. -/
def storedFile : PhysicalEntry where
  index := 0
  name := .legacyZip [97]
  kind := .file
  size := 2
  block := some 0
  encrypted := false
  method := "ZIP:Stored".toList
  methodSupported := true
  unixMode := none

/-- The payloads of an archive with a stored file, without escapes; nothing else is listed. -/
def storedJson : Json where
  container := zipJson.container
  block value := if value = ⟨2, 2⟩ then some storedBlock else none
  entry value := if value = storedFile then some storedEntry else none
  wire :=
    { container := zipJson.wire.container
      block := fun bytes => if bytes = storedBlock then some ⟨2, 2⟩ else none
      entry := fun bytes => if bytes = storedEntry then some storedFile else none
      failure := fun _ => none }
  container_read := zipJson.container_read
  block_read := by
    intro value bytes written
    obtain ⟨rfl, same⟩ := Option.ite_none_right_eq_some.mp written
    obtain rfl := Option.some.inj same
    dsimp only
    exact if_pos rfl
  entry_read := by
    intro value bytes written
    obtain ⟨rfl, same⟩ := Option.ite_none_right_eq_some.mp written
    obtain rfl := Option.some.inj same
    dsimp only
    exact if_pos rfl

/-- The archive with this file, of which as much may be listed as is needed. -/
def storedZip : Surroundings :=
  { emptyZip 0 with
    json := storedJson
    request := fun _ => some ⟨1, storedBlock.length + storedEntry.length + 8⟩
    magic := .ok [0x50, 0x4b, 0x03, 0x04, 0, 0]
    zip := fun _ => .ok ⟨[some ⟨[97], false, none, false, 2, 2, false, "Stored".toList, true⟩],
      fun _ => some [some ⟨[104, 105], by decide⟩, some ⟨[], by decide⟩]⟩ }

def storedZipPeer : Peer := { emptyZipPeer 0 with frames := written storedZip [] }

set_option maxRecDepth 20000 in
/-- The run on an archive with a stored file is whole, and what the importer makes of it depends
on the limit, which is met exactly. -/
theorem stored_zip_judged : ∃ limits inventory transcript,
    Completed storedZip limits inventory transcript (eventsOfRun storedZip []) ∧
      (Accepts storedZip.json.wire index .unknown limits storedZipPeer ↔
        listedBytes storedZip.json inventory + 8 ≤ limits.maxIndexBytes) := by
  have frames : written storedZip [] =
      [(ready, greeting), (archive, ascii "\"Zip\""), (Tag.block, storedBlock),
        (entry, storedEntry), (inventoryEnd, indexBytes 1), (begin, indexBytes 0),
        (data, [104, 105]), (finish, indexBytes 0), (complete, [])] := rfl
  obtain ⟨limits, inventory, transcript, completed, judged⟩ :=
    (output_accepted_iff storedZip []).2 [] (by rw [frames]; decide)
  exact ⟨limits, inventory, transcript, completed,
    judged .unknown storedZipPeer ⟨rfl, rfl, rfl, rfl⟩ rfl⟩

/-- With seven bytes the run on an archive without entries is whole, and the importer
refuses it. -/
theorem empty_zip_refused : (complete, []) ∈ written (emptyZip 7) [] ∧
    requested (emptyZip 7) = .ok ⟨1, 7⟩ ∧ ¬ ∀ (initial : Container) (peer : Peer), peer.Quiet →
      passed peer.frames = written (emptyZip 7) [] →
      Accepts (emptyZip 7).json.wire index initial ⟨1, 7⟩ peer := by
  have frames : written (emptyZip 7) [] =
      [(ready, greeting), (archive, [34, 90, 105, 112, 34]),
        (inventoryEnd, indexBytes 0), (complete, [])] := rfl
  have refused : Session.openArchive (emptyZip 7).json.wire index .unknown ⟨1, 7⟩
      (emptyZipPeer 7) = .error .limit := rfl
  refine ⟨by rw [frames]; decide, rfl, fun claimed => ?_⟩
  obtain ⟨_, opened, _⟩ := claimed .unknown (emptyZipPeer 7) ⟨rfl, rfl, rfl, rfl⟩ rfl
  rw [refused] at opened
  cases opened

end Arclain.Import.Worker
