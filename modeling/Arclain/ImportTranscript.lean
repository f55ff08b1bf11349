import Arclain.ImportSession

namespace Arclain.Import

/-!
# What a worker may say

A complete output of the worker is the greeting, the inventory, the entries that it decoded
and the final frame.  The session accepts the inventory only in that order.
-/

open List Fallible LittleEndian Tag

def passed (frames : List RawFrame) : List RawFrame :=
  frames.filter fun frame => !decide (frame = (heartbeat, []))

/-- An entry as the worker emits it: its index and the payloads of its `DATA`
frames. -/
structure Stream where
  index : Nat
  parts : List Bytes

namespace Stream

/-- The frames of an entry that is not at its end. -/
def begun (stream : Stream) : List RawFrame :=
  (begin, indexBytes stream.index) :: stream.parts.map fun part => (data, part)

def frames (stream : Stream) : List RawFrame :=
  stream.begun ++ [(finish, indexBytes stream.index)]

/-- What is asked of an entry: that the inventory has it, and that no `DATA` frame
is empty. -/
structure WellFormed (count : Nat) (stream : Stream) : Prop where
  index_lt : stream.index < count
  parts_ne_nil : ∀ part ∈ stream.parts, part ≠ []

end Stream

structure Transcript where
  container : Bytes
  blocks : List Bytes
  entries : List Bytes
  streams : List Stream

namespace Transcript

section

variable (transcript : Transcript)

/-- The frames that list the blocks and the entries, with the number of entries
behind them. -/
def listing : List RawFrame :=
  (transcript.blocks.map fun block => (Tag.block, block)) ++
    (transcript.entries.map fun entry => (Tag.entry, entry)) ++
      [(Tag.inventoryEnd, indexBytes transcript.entries.length)]

def opening : List RawFrame :=
  (Tag.ready, greeting) :: (Tag.archive, transcript.container) :: transcript.listing

def decoded : List RawFrame := transcript.streams.flatMap Stream.frames

def frames : List RawFrame :=
  transcript.opening ++ transcript.decoded ++ [(complete, [])]

/-- The bytes of the blocks and the entries as they are listed. -/
def metadata : Nat :=
  (transcript.blocks.map List.length).sum + (transcript.entries.map List.length).sum

end

structure WellFormed (transcript : Transcript) : Prop where
  entries_lt : transcript.entries.length < 2 ^ 64
  streams : ∀ stream ∈ transcript.streams, stream.WellFormed transcript.entries.length

end Transcript

theorem parseIndex_eq_ok {bytes : Bytes} {index : Nat} : parseIndex bytes = .ok index ↔
    bytes = indexBytes index ∧ index < 2 ^ 64 := by
  unfold parseIndex indexBytes
  constructor
  · intro parsed
    split at parsed
    next width =>
      cases parsed
      refine ⟨?_, ?_⟩
      · rw [← width]
        exact (ofNat_toNat bytes).symm
      · have bound := toNat_lt bytes
        rw [width] at bound
        exact bound
    · cases parsed
  · rintro ⟨rfl, bound⟩
    rw [if_pos (length_ofNat 8 index), toNat_ofNat bound]

section

variable {Container Block Entry : Type} {wire : Wire Container Block Entry} {frame : RawFrame}

variable {polls after : Polls}

theorem receiveArrival_eq_ok {arrival : Arrival} :
    receiveArrival wire arrival polls = .ok (frame, after) ↔
      polls.headD none = none ∧ arrival = .ok frame ∧
        frame.1 ≠ failure ∧ after = polls.tail := by
  unfold receiveArrival
  cases polls.headD none with
  | some error => simp
  | none =>
    cases arrival with
    | error error => simp
    | ok arrived =>
      obtain ⟨tag, _⟩ := arrived
      by_cases isFailure : tag = failure
      · simp only [isFailure, if_pos]
        constructor
        · intro received
          cases received
        · rintro ⟨_, same, notFailure, _⟩
          cases same
          exact absurd rfl notFailure
      · simp only [if_neg isFailure]
        constructor
        · intro received
          cases received
          exact ⟨trivial, rfl, isFailure, rfl⟩
        · rintro ⟨_, same, _, rfl⟩
          cases same
          rfl

theorem Session.receive_eq_ok {session next : Session Container Block Entry} :
    session.receive wire = .ok (frame, next) ↔ ∃ rest, session.arrivals = .ok frame :: rest ∧
      session.polls.headD none = none ∧ frame.1 ≠ failure ∧
      next = { session with arrivals := rest, polls := session.polls.tail } := by
  unfold Session.receive
  cases shape : session.arrivals with
  | nil => simp
  | cons arrival rest =>
    simp only
    cases received : receiveArrival wire arrival session.polls with
    | error error =>
      constructor
      · intro got
        cases got
      · rintro ⟨_, same, quiet, notFailure, _⟩
        cases same
        rw [receiveArrival_eq_ok.mpr ⟨quiet, rfl, notFailure, rfl⟩] at received
        cases received
    | ok result =>
      obtain ⟨_, polls⟩ := result
      obtain ⟨quiet, rfl, notFailure, rfl⟩ := receiveArrival_eq_ok.mp received
      constructor
      · intro got
        cases got
        exact ⟨rest, rfl, quiet, notFailure, rfl⟩
      · rintro ⟨_, same, _, _, rfl⟩
        cases same
        rfl

variable {limits : Limits} {inventory : Inventory Container Block Entry} {metadata : Nat}

theorem addFrame_eq_ok_none :
    addFrame wire limits inventory metadata frame = .ok none ↔ metadata + frame.2.length < 2 ^ 64 ∧
      metadata + frame.2.length ≤ limits.maxIndexBytes ∧
      frame = (inventoryEnd, indexBytes inventory.entries.length) ∧
      inventory.entries.length < 2 ^ 64 := by
  obtain ⟨tag, _⟩ := frame
  unfold addFrame
  simp only [refuse_eq_ok, not_le, not_lt]
  refine and_congr_right fun _ => and_congr_right fun _ => ?_
  by_cases isBlock : tag = block
  · subst isBlock
    rw [if_pos rfl]
    constructor
    · intro added
      split at added
      · cases added
      · split at added <;> cases added
    · rintro ⟨same, _⟩
      cases same
  · rw [if_neg isBlock]
    by_cases isEntry : tag = entry
    · subst isEntry
      rw [if_pos rfl]
      constructor
      · intro added
        split at added
        · cases added
        · split at added <;> cases added
      · rintro ⟨same, _⟩
        cases same
    · rw [if_neg isEntry]
      by_cases isEnd : tag = inventoryEnd
      · subst isEnd
        rw [if_pos rfl]
        constructor
        · intro added
          obtain ⟨_, parsed, counted⟩ := bind_eq_ok.mp added
          obtain ⟨rfl, bound⟩ := parseIndex_eq_ok.mp parsed
          split at counted
          next same => exact ⟨by rw [same], same ▸ bound⟩
          · cases counted
        · rintro ⟨same, bound⟩
          cases same
          refine bind_eq_ok.mpr ⟨_, parseIndex_eq_ok.mpr ⟨rfl, bound⟩, ?_⟩
          exact if_pos rfl
      · rw [if_neg isEnd]
        constructor
        · intro added
          cases added
        · rintro ⟨same, _⟩
          cases same
          exact absurd rfl isEnd

theorem addFrame_eq_ok_some {inventory next : Inventory Container Block Entry}
    {metadata total : Nat} :
    addFrame wire limits inventory metadata frame = .ok (some (next, total)) ↔
      metadata + frame.2.length < 2 ^ 64 ∧ metadata + frame.2.length ≤ limits.maxIndexBytes ∧
      total = metadata + frame.2.length ∧
      ((frame.1 = block ∧ inventory.entries = [] ∧ inventory.blocks.length < limits.maxEntries ∧
        ∃ block, wire.block frame.2 = some block ∧
          next = { inventory with blocks := inventory.blocks ++ [block] }) ∨
        (frame.1 = entry ∧ inventory.entries.length < limits.maxEntries ∧
          ∃ entry, wire.entry frame.2 = some entry ∧
            next = { inventory with entries := inventory.entries ++ [entry] })) := by
  obtain ⟨tag, _⟩ := frame
  unfold addFrame
  simp only [refuse_eq_ok, not_le, not_lt]
  refine and_congr_right fun _ => and_congr_right fun _ => ?_
  by_cases isBlock : tag = block
  · subst isBlock
    rw [if_pos rfl, refuse_eq_ok]
    constructor
    · rintro ⟨fits, added⟩
      split at added
      · cases added
      next block parsed =>
        cases added
        obtain ⟨noEntries, room⟩ := not_or.mp fits
        exact ⟨rfl, .inl ⟨rfl, not_not.mp noEntries, Nat.lt_of_not_le room, block, parsed, rfl⟩⟩
    · rintro ⟨rfl, ⟨_, noEntries, room, block, parsed, rfl⟩ | ⟨isEntry, _⟩⟩
      · refine ⟨not_or.mpr ⟨not_not.mpr noEntries, Nat.not_le_of_lt room⟩, ?_⟩
        simp [parsed]
      · cases isEntry
  · rw [if_neg isBlock]
    by_cases isEntry : tag = entry
    · subst isEntry
      rw [if_pos rfl, refuse_eq_ok]
      constructor
      · rintro ⟨room, added⟩
        split at added
        · cases added
        next entry parsed =>
          cases added
          exact ⟨rfl, .inr ⟨rfl, Nat.lt_of_not_le room, entry, parsed, rfl⟩⟩
      · rintro ⟨rfl, ⟨isBlock, _⟩ | ⟨_, room, entry, parsed, rfl⟩⟩
        · cases isBlock
        · refine ⟨Nat.not_le_of_lt room, ?_⟩
          simp [parsed]
    · rw [if_neg isEntry]
      constructor
      · intro added
        split at added
        · obtain ⟨_, _, counted⟩ := bind_eq_ok.mp added
          split at counted <;> cases counted
        · cases added
      · rintro ⟨_, ⟨same, _⟩ | ⟨same, _⟩⟩
        · exact absurd same isBlock
        · exact absurd same isEntry

def endingWith (frames : List RawFrame) (ending : ImportError) : List Arrival :=
  frames.map .ok ++ [.error ending]

variable {frames : List RawFrame} {ending : ImportError}

theorem endingWith_cons
    {rest : List Arrival} (same : endingWith frames ending = .ok frame :: rest) :
    ∃ later, frames = frame :: later ∧ rest = endingWith later ending := by
  cases frames with
  | nil => cases same
  | cons _ later =>
    cases same
    exact ⟨later, rfl, rfl⟩

theorem readInventory_eq_ok {inventory final : Inventory Container Block Entry}
    {left : List Arrival}
    (read : readInventory wire limits inventory metadata (endingWith frames ending) polls =
      .ok (final, left, after)) :
    ∃ (blocks entries : List Bytes) (body : List RawFrame),
      frames = blocks.map (block, ·) ++ entries.map (entry, ·) ++
        (inventoryEnd, indexBytes final.entries.length) :: body ∧
      left = endingWith body ending ∧ final.container = inventory.container ∧
      final.blocks.map some = inventory.blocks.map some ++ blocks.map wire.block ∧
      final.entries.map some = inventory.entries.map some ++ entries.map wire.entry ∧
      final.entries.length < 2 ^ 64 ∧ (inventory.entries ≠ [] → blocks = []) := by
  induction frames generalizing inventory metadata polls with
  | nil =>
    simp only [endingWith, map_nil, nil_append, readInventory] at read
    split at read
    · cases read
    next received =>
      obtain ⟨_, same, _⟩ := receiveArrival_eq_ok.mp received
      cases same
  | cons frame frames ih =>
    simp only [endingWith, map_cons, cons_append, readInventory] at read
    split at read
    · cases read
    next received =>
      obtain ⟨_, same, _, rfl⟩ := receiveArrival_eq_ok.mp received
      cases same
      split at read
      · cases read
      next added =>
        cases read
        obtain ⟨_, _, rfl, bound⟩ := addFrame_eq_ok_none.mp added
        exact ⟨[], [], frames, rfl, rfl, rfl, by simp, by simp, bound, fun _ => rfl⟩
      next next total added =>
        obtain ⟨blocks, entries, body, rfl, rfl, sameContainer, sameBlocks,
          sameEntries, bound, noBlocks⟩ := ih read
        obtain ⟨_, _, _, ⟨isBlock, noEntries, _, block, parsed, rfl⟩ |
          ⟨isEntry, _, entry, parsed, rfl⟩⟩ := addFrame_eq_ok_some.mp added
        · obtain ⟨tag, data⟩ := frame
          cases isBlock
          change wire.block data = some block at parsed
          refine ⟨data :: blocks, entries, body, rfl, rfl, sameContainer, ?_,
            sameEntries, bound, absurd noEntries⟩
          rw [sameBlocks, map_append, append_assoc, map_cons, map_cons, parsed]
          rfl
        · obtain ⟨tag, data⟩ := frame
          cases isEntry
          change wire.entry data = some entry at parsed
          obtain rfl := noBlocks (by simp)
          refine ⟨[], data :: entries, body, rfl, rfl, sameContainer, sameBlocks, ?_,
            bound, fun _ => rfl⟩
          rw [sameEntries, map_append, append_assoc, map_cons, map_cons, parsed]
          rfl

/-- A session that was opened, of what its worker says. -/
structure Opened (wire : Wire Container Block Entry) (indexOf : Entry → Nat) (peer : Peer)
    (session : Session Container Block Entry) (transcript : Transcript)
    (body : List RawFrame) : Prop where
  said : passed peer.frames = transcript.opening ++ body
  entries_lt : transcript.entries.length < 2 ^ 64
  arrivals : session.arrivals = endingWith body peer.ending
  started : session.started = false
  finished : session.finished = false
  active : session.active = none
  container : wire.container transcript.container = some session.inventory.container
  blocks : transcript.blocks.map wire.block = session.inventory.blocks.map some
  entries : transcript.entries.map wire.entry = session.inventory.entries.map some
  indexed : ∀ position entry,
    session.inventory.entries[position]? = some entry → indexOf entry = position

variable {session : Session Container Block Entry} {indexOf : Entry → Nat}

theorem Opened.length_entries {peer : Peer} {transcript : Transcript}
    {body : List RawFrame} (opened : Opened wire indexOf peer session transcript body) :
    session.inventory.entries.length = transcript.entries.length := by
  have lengths := congrArg List.length opened.entries
  rw [length_map, length_map] at lengths
  exact lengths.symm

theorem opened_of_openArchive {unknown : Container} {peer : Peer}
    (ran : Session.openArchive wire indexOf unknown limits peer = .ok session) :
    ∃ transcript body, Opened wire indexOf peer session transcript body := by
  unfold Session.openArchive at ran
  obtain ⟨⟨⟨tag, data⟩, _⟩, received, ran⟩ := Fallible.bind_eq_ok.mp ran
  obtain ⟨rest, shape, _, _, rfl⟩ := Session.receive_eq_ok.mp received
  obtain ⟨later, said, rfl⟩ := endingWith_cons shape
  clear received shape
  obtain ⟨isGreeting, ran⟩ := Fallible.refuse_eq_ok.mp ran
  obtain ⟨isReady, isGreeting⟩ := not_or.mp isGreeting
  obtain ⟨rfl, rfl⟩ := And.intro (not_not.mp isReady) (not_not.mp isGreeting)
  cases asked : peer.openFails with
  | some =>
    simp only [asked] at ran
    cases ran
  | none =>
    simp only [asked] at ran
    obtain ⟨⟨⟨tag, data⟩, _⟩, received, ran⟩ := Fallible.bind_eq_ok.mp ran
    obtain ⟨rest, shape, _, _, rfl⟩ := Session.receive_eq_ok.mp received
    obtain ⟨later, rfl, rfl⟩ := endingWith_cons shape
    clear received shape
    obtain ⟨isArchive, ran⟩ := Fallible.refuse_eq_ok.mp ran
    obtain rfl := not_not.mp isArchive
    cases parsed : wire.container data with
    | none =>
      simp only [parsed] at ran
      cases ran
    | some container =>
      simp only [parsed] at ran
      obtain ⟨⟨inventory, _, _⟩, read, ran⟩ := Fallible.bind_eq_ok.mp ran
      obtain ⟨blocks, entries, body, rfl, rfl, sameContainer, sameBlocks,
        sameEntries, bound, _⟩ := readInventory_eq_ok read
      clear read
      obtain ⟨indexed, ran⟩ := Fallible.refuse_eq_ok.mp ran
      cases ran
      have counted : inventory.entries.length = entries.length := by
        have lengths := congrArg List.length sameEntries
        simpa using lengths
      refine ⟨⟨data, blocks, entries, []⟩, body,
        { said := ?_
          entries_lt := counted ▸ bound
          arrivals := rfl
          started := rfl
          finished := rfl
          active := rfl
          container := by rw [sameContainer]; exact parsed
          blocks := sameBlocks.symm
          entries := sameEntries.symm
          indexed := ?_ }⟩
      · change passed peer.frames = _ at said
        rw [said, counted]
        simp [Transcript.opening, Transcript.listing]
      · intro position entry found
        by_contra differs
        refine indexed (any_eq_true.mpr ⟨(entry, position), ?_, ?_⟩)
        · exact mem_zipIdx_iff_getElem?.mpr found
        · exact decide_eq_true (Ne.symm differs)

end

end Arclain.Import
