import Arclain.ImportCaller

namespace Arclain.Import

/-!
# What a session accepts

A transcript whose payloads can be read is accepted if nothing interrupts the session, the
counts are within the limits, and the listing is.
-/

open List Tag Caller Contents

/-- A worker that nothing interrupts, and that exits as it should. -/
structure Peer.Quiet (peer : Peer) : Prop where
  polls : peer.polls = []
  openFails : peer.openFails = none
  decodeFails : peer.decodeFails = none
  exitFails : peer.exitFails = none

/-- A session that opens, and then gives every entry to a caller that reads all of
them, whatever the sizes of its buffers. -/
def Accepts {Container Block Entry : Type} (wire : Wire Container Block Entry)
    (indexOf : Entry → Nat) (unknown : Container) (limits : Limits) (peer : Peer) : Prop :=
  ∃ session, Session.openArchive wire indexOf unknown limits peer = .ok session ∧
    ∀ size : Caller Container Block Entry → Nat, (∀ caller, 0 < size caller) → ∃ fuel final,
      (start session).readAll wire size fuel = .ok final ∧ none ∈ final.returned

section

variable {Container Block Entry : Type} {wire : Wire Container Block Entry} {limits : Limits}
  {metadata : Nat}
  {ending : ImportError}
variable {frame : RawFrame}

theorem receiveArrival_quiet (notFailure : frame.1 ≠ failure) :
    receiveArrival wire (.ok frame) [] = .ok (frame, []) :=
  receiveArrival_eq_ok.mpr ⟨rfl, rfl, notFailure, rfl⟩

variable {inventory : Inventory Container Block Entry} {frames : List RawFrame}

theorem readInventory_cons (notFailure : frame.1 ≠ failure) :
    readInventory wire limits inventory metadata (endingWith (frame :: frames) ending) [] =
      match addFrame wire limits inventory metadata frame with
      | .error error => .error error
      | .ok none => .ok (inventory, endingWith frames ending, [])
      | .ok (some (inventory, metadata)) =>
        readInventory wire limits inventory metadata (endingWith frames ending) [] := by
  change readInventory wire limits inventory metadata (.ok frame :: endingWith frames ending) [] = _
  cases added : addFrame wire limits inventory metadata frame with
  | error error => simp [readInventory, receiveArrival_quiet notFailure, added]
  | ok following =>
    cases following with
    | none | some => simp [readInventory, receiveArrival_quiet notFailure, added]

theorem addFrame_limit (beyond : limits.maxIndexBytes < metadata + frame.2.length) :
    addFrame wire limits inventory metadata frame = .error .limit := by
  unfold addFrame
  by_cases overflow : 2 ^ 64 ≤ metadata + frame.2.length
  · exact if_pos overflow
  · refine (if_neg overflow).trans ?_
    exact if_pos beyond

theorem readInventory_items {Item : Type} {tag : UInt8} {parse : Bytes → Option Item}
    {payloads : List Bytes} {parsed done : List Item}
    (stage : List Item → Inventory Container Block Entry) (notFailure : tag ≠ failure)
    (adds : ∀ taken item payload, taken.length < limits.maxEntries → parse payload = some item →
      ∀ metadata, metadata + payload.length ≤ limits.maxIndexBytes →
        addFrame wire limits (stage taken) metadata (tag, payload) =
          .ok (some (stage (taken ++ [item]), metadata + payload.length)))
    (parses : payloads.map parse = parsed.map some)
    (room : done.length + payloads.length ≤ limits.maxEntries)
    (within : metadata ≤ limits.maxIndexBytes) : readInventory wire limits (stage done) metadata
      (endingWith (payloads.map (tag, ·) ++ frames) ending) [] =
      if metadata + (payloads.map length).sum ≤ limits.maxIndexBytes then
        readInventory wire limits (stage (done ++ parsed))
          (metadata + (payloads.map length).sum) (endingWith frames ending) []
      else
        .error .limit := by
  induction payloads generalizing metadata parsed done with
  | nil =>
    cases map_eq_nil_iff.mp parses.symm
    rw [append_nil]
    exact (if_pos within).symm
  | cons payload payloads ih =>
    obtain ⟨item, parsed, rfl, parsesTo, parses⟩ := map_eq_cons_iff.mp parses.symm
    rw [length_cons] at room
    rw [map_cons, cons_append, readInventory_cons notFailure, map_cons, sum_cons, ← Nat.add_assoc]
    by_cases fits : metadata + payload.length ≤ limits.maxIndexBytes
    · rw [adds done item payload (by omega) parsesTo.symm metadata fits,
        append_cons done item parsed]
      refine ih parses.symm ?_ fits
      rw [length_append, length_singleton]
      omega
    · rw [addFrame_limit (Nat.lt_of_not_le fits), if_neg]
      omega

section

variable (small : limits.maxIndexBytes < 2 ^ 64)
include small

theorem readInventory_blocks {blocks : List Bytes} {parsed : List Block}
    (first : inventory.entries = []) (parses : blocks.map wire.block = parsed.map some)
    (room : inventory.blocks.length + blocks.length ≤ limits.maxEntries)
    (within : metadata ≤ limits.maxIndexBytes) : readInventory wire limits inventory metadata
      (endingWith (blocks.map (block, ·) ++ frames) ending) [] =
      if metadata + (blocks.map length).sum ≤ limits.maxIndexBytes then
        readInventory wire limits { inventory with blocks := inventory.blocks ++ parsed }
          (metadata + (blocks.map length).sum) (endingWith frames ending) []
      else
        .error .limit := by
  refine readInventory_items (fun blocks => { inventory with blocks }) (by decide) ?_ parses room
    within
  intro _ item _ fewer parsesTo metadata fits
  exact addFrame_eq_ok_some.mpr ⟨by dsimp only; omega, fits, rfl,
    .inl ⟨rfl, first, fewer, item, parsesTo, rfl⟩⟩

theorem readInventory_entries {entries : List Bytes} {parsed : List Entry}
    (parses : entries.map wire.entry = parsed.map some)
    (room : inventory.entries.length + entries.length ≤ limits.maxEntries)
    (within : metadata ≤ limits.maxIndexBytes) : readInventory wire limits inventory metadata
      (endingWith (entries.map (entry, ·) ++ frames) ending) [] =
      if metadata + (entries.map length).sum ≤ limits.maxIndexBytes then
        readInventory wire limits { inventory with entries := inventory.entries ++ parsed }
          (metadata + (entries.map length).sum) (endingWith frames ending) []
      else
        .error .limit := by
  refine readInventory_items (fun entries => { inventory with entries }) (by decide) ?_ parses room
    within
  intro _ item _ fewer parsesTo metadata fits
  exact addFrame_eq_ok_some.mpr ⟨by dsimp only; omega, fits, rfl,
    .inr ⟨rfl, fewer, item, parsesTo, rfl⟩⟩

theorem readInventory_end (few : inventory.entries.length < 2 ^ 64) :
    readInventory wire limits inventory metadata (endingWith
      ((inventoryEnd, indexBytes inventory.entries.length) :: frames) ending) [] =
      if metadata + 8 ≤ limits.maxIndexBytes then .ok (inventory, endingWith frames ending, [])
      else
        .error .limit := by
  have width : (indexBytes inventory.entries.length).length = 8 := LittleEndian.length_ofNat 8 _
  rw [readInventory_cons (show inventoryEnd ≠ failure by decide)]
  by_cases fits : metadata + 8 ≤ limits.maxIndexBytes
  · have added : addFrame wire limits inventory metadata
        (inventoryEnd, indexBytes inventory.entries.length) = .ok none := by
      refine addFrame_eq_ok_none.mpr ⟨?_, ?_, rfl, few⟩
      · rw [width]
        omega
      · rw [width]
        exact fits
    rw [if_pos fits, added]
  · rw [if_neg fits, addFrame_limit]
    rw [width]
    exact Nat.lt_of_not_le fits

end

end

/-- A transcript whose payloads can be read, with counts within the limits. -/
structure Readable {Container Block Entry : Type} (wire : Wire Container Block Entry)
    (indexOf : Entry → Nat) (limits : Limits) (transcript : Transcript)
    (inventory : Inventory Container Block Entry) : Prop where
  small : limits.maxIndexBytes < 2 ^ 64
  entries_lt : transcript.entries.length < 2 ^ 64
  container : wire.container transcript.container = some inventory.container
  blocks : transcript.blocks.map wire.block = inventory.blocks.map some
  entries : transcript.entries.map wire.entry = inventory.entries.map some
  blocks_le : transcript.blocks.length ≤ limits.maxEntries
  entries_le : transcript.entries.length ≤ limits.maxEntries
  indexed : ∀ position entry, inventory.entries[position]? = some entry → indexOf entry = position

section

variable {Container Block Entry : Type} {wire : Wire Container Block Entry} {indexOf : Entry → Nat}
  {unknown : Container}
  {limits : Limits}
  {transcript : Transcript}
  {inventory : Inventory Container Block Entry}
  {peer : Peer}
  {body : List RawFrame}

theorem Readable.length_entries (readable : Readable wire indexOf limits transcript inventory) :
    inventory.entries.length = transcript.entries.length := by
  have lengths := congrArg length readable.entries
  rw [length_map, length_map] at lengths
  exact lengths.symm

theorem Readable.readInventory_listing {ending : ImportError}
    (readable : Readable wire indexOf limits transcript inventory) :
    readInventory wire limits ⟨inventory.container, [], []⟩ 0
      (endingWith (transcript.listing ++ body) ending) [] =
      if transcript.metadata + 8 ≤ limits.maxIndexBytes then
        .ok (inventory, endingWith body ending, [])
      else
        .error .limit := by
  have noEntries : (⟨inventory.container, [], []⟩ : Inventory Container Block Entry).entries =
      [] := rfl
  rw [Transcript.listing, append_assoc, append_assoc,
    readInventory_blocks readable.small noEntries readable.blocks
      (by simpa using readable.blocks_le) (Nat.zero_le _), Nat.zero_add]
  by_cases blocksFit : (transcript.blocks.map length).sum ≤ limits.maxIndexBytes
  · rw [if_pos blocksFit, readInventory_entries readable.small readable.entries
      (by simpa using readable.entries_le) blocksFit]
    change (if transcript.metadata ≤ limits.maxIndexBytes then _ else _) = _
    by_cases entriesFit : transcript.metadata ≤ limits.maxIndexBytes
    · rw [if_pos entriesFit, nil_append, nil_append, singleton_append, ← readable.length_entries]
      refine readInventory_end readable.small ?_
      rw [readable.length_entries]
      exact readable.entries_lt
    · rw [if_neg entriesFit, if_neg]
      omega
  · rw [if_neg blocksFit, if_neg]
    rw [Transcript.metadata]
    omega

theorem Session.receive_quiet {session : Session Container Block Entry} {frame : RawFrame}
    {rest : List Arrival} (polls : session.polls = [])
    (arrivals : session.arrivals = .ok frame :: rest) (notFailure : frame.1 ≠ failure) :
    session.receive wire = .ok (frame, { session with arrivals := rest }) := by
  refine Session.receive_eq_ok.mpr ⟨rest, arrivals, ?_, notFailure, ?_⟩
  · rw [polls]
    rfl
  · have noPolls : session.polls.tail = session.polls := by
      rw [polls]
      rfl
    rw [noPolls]

/-- The session of a worker that nothing interrupts, before it decodes. -/
def quietSession (inventory : Inventory Container Block Entry) (body : List RawFrame)
    (ending : ImportError) : Session Container Block Entry where
  arrivals := endingWith body ending
  polls := []
  inventory := inventory
  started := false
  finished := false
  active := none
  decodeFails := none
  exitFails := none

theorem openArchive_quiet (quiet : peer.Quiet)
    (readable : Readable wire indexOf limits transcript inventory)
    (said : passed peer.frames = transcript.opening ++ body) :
    Session.openArchive wire indexOf unknown limits peer =
      if transcript.metadata + 8 ≤ limits.maxIndexBytes then
        .ok (quietSession inventory body peer.ending)
      else
        .error .limit := by
  obtain ⟨polls, openFails, decodeFails, exitFails⟩ := quiet
  have arrives : passedOn peer.frames peer.ending =
      .ok (ready, greeting) :: .ok (archive, transcript.container) ::
        endingWith (transcript.listing ++ body) peer.ending := by
    change endingWith (passed peer.frames) peer.ending = _
    rw [said]
    rfl
  have inOrder : ¬ (inventory.entries.zipIdx.any fun listed =>
    listed.2 ≠ indexOf listed.1) = true := by
    intro misplaced
    obtain ⟨⟨entry, position⟩, mem, differs⟩ := any_eq_true.mp misplaced
    have listed := mem_zipIdx_iff_getElem?.mp mem
    exact of_decide_eq_true differs (readable.indexed position entry listed).symm
  have ready : receiveArrival wire (.ok (ready, greeting)) [] =
      .ok ((ready, greeting), []) :=
    receiveArrival_quiet (show ready ≠ failure by decide)
  have archive : receiveArrival wire (.ok (archive, transcript.container)) [] =
      .ok ((archive, transcript.container), []) :=
    receiveArrival_quiet (show archive ≠ failure by decide)
  unfold Session.openArchive
  rw [arrives, polls, openFails, decodeFails, exitFails]
  simp only [Session.receive, ready, archive, Bind.bind, Except.bind, ne_eq,
    not_true_eq_false, or_self, if_false, readable.container]
  rw [readable.readInventory_listing]
  by_cases fits : transcript.metadata + 8 ≤ limits.maxIndexBytes
  · rw [if_pos fits, if_pos fits]
    exact if_neg inOrder
  · rw [if_neg fits, if_neg fits]

end

theorem Contents.readContents_pending {Container Block Entry : Type}
    {wire : Wire Container Block Entry} {session : Session Container Block Entry}
    {contents : Contents} {size : Nat} (someRoom : 0 < size) (unended : contents.ended = false)
    (unused : contents.offset ≠ contents.pending.length) : contents.readContents wire session size =
      .ok ((contents.readPending size).1, (contents.readPending size).2, session) := by
  unfold readContents
  rw [if_neg (Nat.ne_of_gt someRoom), if_neg (by rw [unended]; decide), if_neg unused]

/-- A session on `count` entries that nothing interrupts. -/
structure Session.Undisturbed {Container Block Entry : Type} (count : Nat)
    (session : Session Container Block Entry) : Prop where
  polls : session.polls = []
  decodeFails : session.decodeFails = none
  exitFails : session.exitFails = none
  listed : session.inventory.entries.length = count

namespace Session.Undisturbed

variable {Container Block Entry : Type} {wire : Wire Container Block Entry} {count : Nat}
  {session : Session Container Block Entry}
  {index : Nat}
  {rest : List Arrival}

section

variable (undisturbed : session.Undisturbed count)
include undisturbed

theorem next_eq (active : session.active = none) (finished : session.finished = false) :
    session.next wire = { session with started := true }.nextFrame wire := by
  obtain ⟨polls, decodeFails, _, _⟩ := undisturbed
  obtain ⟨_, _, _, started, _, _, _, _⟩ := session
  cases polls
  cases decodeFails
  cases active
  cases finished
  cases started with
  | false | true => rfl

theorem nextFrame_begin (arrivals : session.arrivals = .ok (begin, indexBytes index) :: rest)
    (bound : index < 2 ^ 64) (inside : index < count) : session.nextFrame wire =
      .ok (some index, { session with arrivals := rest, active := some index }) := by
  have parsed : parseIndex (indexBytes index) = .ok index := parseIndex_eq_ok.mpr ⟨rfl, bound⟩
  have notComplete : begin ≠ complete := by decide
  have listed : ¬ session.inventory.entries.length ≤ index := by
    rw [undisturbed.listed]
    exact Nat.not_le_of_lt inside
  unfold Session.nextFrame
  rw [Session.receive_quiet undisturbed.polls arrivals (show begin ≠ failure by decide)]
  simp [Bind.bind, Except.bind, if_neg notComplete, parsed, if_neg listed]

theorem nextFrame_complete (arrivals : session.arrivals = .ok (complete, []) :: rest) :
    session.nextFrame wire = .ok (none, { session with arrivals := rest, finished := true }) := by
  unfold Session.nextFrame
  rw [Session.receive_quiet undisturbed.polls arrivals (show complete ≠ failure by decide)]
  simp [Bind.bind, Except.bind, undisturbed.exitFails]

end

variable {contents : Contents}

theorem readContents_finish {size : Nat}
    (undisturbed : session.Undisturbed count) (someRoom : 0 < size)
    (unended : contents.ended = false) (used : contents.offset = contents.pending.length)
    (arrivals : session.arrivals = .ok (finish, indexBytes index) :: rest)
    (active : session.active = some index) (bound : index < 2 ^ 64) :
    contents.readContents wire session size = .ok ([], { contents with ended := true },
      { session with arrivals := rest, active := none }) := by
  have parsed : parseIndex (indexBytes index) = .ok index := parseIndex_eq_ok.mpr ⟨rfl, bound⟩
  unfold readContents
  rw [if_neg (Nat.ne_of_gt someRoom), if_neg (by rw [unended]; decide), if_pos used,
    Session.receive_quiet undisturbed.polls arrivals (show finish ≠ failure by decide)]
  simp [Bind.bind, Except.bind, parsed, active]

theorem readContents_part {size : Nat} {part : Bytes}
    (undisturbed : session.Undisturbed count) (someRoom : 0 < size)
    (unended : contents.ended = false) (used : contents.offset = contents.pending.length)
    (arrivals : session.arrivals = .ok (data, part) :: rest) (isSome : part ≠ []) :
    contents.readContents wire session size = .ok ((Contents.readPending ⟨part, 0, false⟩ size).1,
      (Contents.readPending ⟨part, 0, false⟩ size).2, { session with arrivals := rest }) := by
  have notFinish : data ≠ finish := by decide
  unfold readContents
  rw [if_neg (Nat.ne_of_gt someRoom), if_neg (by rw [unended]; decide), if_pos used,
    Session.receive_quiet undisturbed.polls arrivals (show data ≠ failure by decide)]
  simp [Bind.bind, Except.bind, if_neg notFinish, isSome, unended]

end Session.Undisturbed

namespace Caller

/-- What an uninterrupted worker will still say to a caller that reads every entry. -/
inductive Promised {Container Block Entry : Type} (count : Nat) (ending : ImportError)
    (caller : Caller Container Block Entry) : Prop
  | between {streams : List Stream} {trailing : List RawFrame}
      (active : caller.session.active = none)
      (finished : caller.session.finished = false)
      (ended : ∀ reading ∈ caller.stream, reading.contents.ended = true)
      (wellFormed : ∀ stream ∈ streams, stream.WellFormed count)
      (arrivals : caller.session.arrivals = endingWith
        (streams.flatMap Stream.frames ++ (complete, []) :: trailing) ending)
  | within {stream : Stream} {streams : List Stream} {trailing : List RawFrame} {reading : Reading}
      (held : caller.stream = some reading)
      (unended : reading.contents.ended = false)
      (active : caller.session.active = some stream.index)
      (finished : caller.session.finished = false)
      (wellFormed : ∀ other ∈ stream :: streams, other.WellFormed count)
      (arrivals : caller.session.arrivals = endingWith (stream.parts.map (data, ·) ++
        (finish, indexBytes stream.index) ::
          (streams.flatMap Stream.frames ++ (complete, []) :: trailing)) ending)
  | finished (finished : caller.session.finished = true)

section

variable {Container Block Entry : Type} {wire : Wire Container Block Entry} {count : Nat}
  {ending : ImportError}
  {caller : Caller Container Block Entry}
  {size : Caller Container Block Entry → Nat}
variable {streams : List Stream} {trailing : List RawFrame}

section

variable (few : count ≤ 2 ^ 64)
include few

/-- Between entries the caller is given the next one, or told that there are no
others. -/
theorem promised_next
    (undisturbed : caller.session.Undisturbed count) (active : caller.session.active = none)
    (unfinished : caller.session.finished = false)
    (wellFormed : ∀ stream ∈ streams, stream.WellFormed count)
    (arrivals : caller.session.arrivals = endingWith
      (streams.flatMap Stream.frames ++ (complete, []) :: trailing) ending) :
    ∃ next, caller.step wire .next = .ok next ∧
      next.session.Undisturbed count ∧ Promised count ending next := by
  have asking : Session.Undisturbed count { caller.session with started := true } :=
    { undisturbed with }
  cases streams with
  | nil =>
    refine ⟨caller.afterNext none
      { caller.session with
        started := true
        arrivals := endingWith trailing ending
        finished := true }, ?_, ?_, .finished rfl⟩
    · rw [step, undisturbed.next_eq active unfinished, asking.nextFrame_complete arrivals]
      rfl
    · exact { asking with }
  | cons stream streams =>
    have inside := (wellFormed stream mem_cons_self).index_lt
    have arrives : caller.session.arrivals = .ok (begin, indexBytes stream.index) ::
        endingWith (stream.parts.map (data, ·) ++ (finish, indexBytes stream.index) ::
          (streams.flatMap Stream.frames ++ (complete, []) :: trailing)) ending := by
      rw [arrivals]
      simp [endingWith, Stream.frames, Stream.begun]
    refine ⟨caller.afterNext (some stream.index)
      { caller.session with
        started := true
        arrivals := endingWith (stream.parts.map (data, ·) ++
          (finish, indexBytes stream.index) :: (streams.flatMap Stream.frames ++
            (complete, []) :: trailing)) ending
        active := some stream.index }, ?_, ?_, ?_⟩
    · rw [step, undisturbed.next_eq active unfinished,
        asking.nextFrame_begin arrives (by omega) inside]
      rfl
    · exact { asking with }
    · exact .within rfl rfl rfl unfinished wellFormed rfl

theorem promised_read {room : Nat} {stream : Stream} {reading : Reading} (someRoom : 0 < room)
    (undisturbed : caller.session.Undisturbed count) (held : caller.stream = some reading)
    (unended : reading.contents.ended = false) (active : caller.session.active = some stream.index)
    (unfinished : caller.session.finished = false)
    (wellFormed : ∀ other ∈ stream :: streams, other.WellFormed count)
    (arrivals : caller.session.arrivals = endingWith (stream.parts.map (data, ·) ++
      (finish, indexBytes stream.index) ::
        (streams.flatMap Stream.frames ++ (complete, []) :: trailing)) ending) :
    ∃ next, caller.step wire (.read room) = .ok next ∧
      next.session.Undisturbed count ∧ Promised count ending next := by
  have inside := (wellFormed stream mem_cons_self).index_lt
  by_cases used : reading.contents.offset = reading.contents.pending.length
  · obtain ⟨index, parts⟩ := stream
    cases parts with
    | nil =>
      refine ⟨caller.afterRead reading [] { reading.contents with ended := true }
        { caller.session with
          arrivals := endingWith (streams.flatMap Stream.frames ++
            (complete, []) :: trailing) ending
          active := none }, ?_, ?_, ?_⟩
      · simp only [step, held]
        rw [undisturbed.readContents_finish someRoom unended used arrivals active
          (Nat.lt_of_lt_of_le inside few)]
        rfl
      · exact { undisturbed with }
      · refine .between rfl unfinished ?_ ?_ rfl
        · intro other isOther
          cases isOther
          rfl
        · intro other mem
          exact wellFormed other (mem_cons_of_mem _ mem)
    | cons part parts =>
      have whole := wellFormed ⟨index, part :: parts⟩ mem_cons_self
      have isSome := whole.parts_ne_nil part mem_cons_self
      refine ⟨caller.afterRead reading (readPending ⟨part, 0, false⟩ room).1
        (readPending ⟨part, 0, false⟩ room).2
        { caller.session with
          arrivals := endingWith (parts.map (data, ·) ++ (finish, indexBytes index) ::
            (streams.flatMap Stream.frames ++ (complete, []) :: trailing)) ending }, ?_, ?_, ?_⟩
      · simp only [step, held]
        rw [undisturbed.readContents_part someRoom unended used arrivals isSome]
        rfl
      · exact { undisturbed with }
      · refine @Promised.within _ _ _ _ _ _ ⟨index, parts⟩ streams trailing _ rfl rfl
          active unfinished ?_ rfl
        intro other mem
        rcases mem_cons.mp mem with rfl | isLater
        · exact ⟨whole.index_lt, fun other isPart =>
            whole.parts_ne_nil other (mem_cons_of_mem _ isPart)⟩
        · exact wellFormed other (mem_cons_of_mem _ isLater)
  · refine ⟨caller.afterRead reading (reading.contents.readPending room).1
      (reading.contents.readPending room).2 caller.session, ?_, undisturbed, ?_⟩
    · simp only [step, held]
      rw [readContents_pending someRoom unended used]
      rfl
    · exact .within rfl unended active unfinished wellFormed arrivals

theorem promised_step (someRoom : ∀ caller, 0 < size caller)
    (undisturbed : caller.session.Undisturbed count) (promised : Promised count ending caller)
    (unfinished : caller.session.finished = false) :
    ∃ next, caller.step wire (caller.thorough size) = .ok next ∧
      next.session.Undisturbed count ∧ Promised count ending next := by
  cases promised with
  | between active _ ended wellFormed arrivals =>
    have asks : caller.thorough size = .next := by
      unfold thorough
      cases held : caller.stream with
      | none => rfl
      | some reading => exact if_pos (ended reading held)
    rw [asks]
    exact promised_next few undisturbed active unfinished wellFormed arrivals
  | within held unended active _ wellFormed arrivals =>
    have reads : caller.thorough size = .read (size caller) := by
      unfold thorough
      rw [held]
      exact if_neg (by rw [unended]; decide)
    rw [reads]
    exact promised_read few (someRoom caller) undisturbed held unended active
      unfinished wellFormed arrivals
  | finished isFinished =>
    rw [unfinished] at isFinished
    cases isFinished

theorem readAll_promised {fuel : Nat} (someRoom : ∀ caller, 0 < size caller)
    (undisturbed : caller.session.Undisturbed count) (promised : Promised count ending caller) :
    ∃ final, caller.readAll wire size fuel = .ok final := by
  induction fuel generalizing caller with
  | zero => exact ⟨caller, rfl⟩
  | succ fuel ih =>
    rw [readAll]
    cases finished : caller.session.finished with
    | true => exact ⟨caller, rfl⟩
    | false =>
      obtain ⟨_, taken, stillUndisturbed, stillPromised⟩ :=
        promised_step few someRoom undisturbed promised finished
      rw [taken]
      exact ih stillUndisturbed stillPromised

end

end

end Caller

theorem accepts_iff {Container Block Entry : Type} {wire : Wire Container Block Entry}
    {indexOf : Entry → Nat} {unknown : Container} {limits : Limits} {peer : Peer}
    {transcript : Transcript} {inventory : Inventory Container Block Entry}
    {trailing : List RawFrame} (quiet : peer.Quiet)
    (readable : Readable wire indexOf limits transcript inventory)
    (wellFormed : transcript.WellFormed)
    (said : passed peer.frames = transcript.frames ++ trailing) :
    Accepts wire indexOf unknown limits peer ↔ transcript.metadata + 8 ≤ limits.maxIndexBytes := by
  have opens := @openArchive_quiet _ _ _ wire indexOf unknown limits transcript
    inventory peer (transcript.decoded ++ (complete, []) :: trailing) quiet readable
    (by simpa [Transcript.frames] using said)
  constructor
  · rintro ⟨_, opened, _⟩
    by_contra beyond
    rw [opens, if_neg beyond] at opened
    cases opened
  · intro fits
    rw [if_pos fits] at opens
    refine ⟨_, opens, fun size someRoom => ?_⟩
    obtain ⟨_, _, isOpened⟩ := opened_of_openArchive opens
    have follows := follows_start isOpened
    have undisturbed :
        (quietSession inventory (transcript.decoded ++ (complete, []) :: trailing)
          peer.ending).Undisturbed transcript.entries.length :=
      ⟨rfl, rfl, rfl, readable.length_entries⟩
    have promised : Caller.Promised transcript.entries.length peer.ending
        (start (quietSession inventory
          (transcript.decoded ++ (complete, []) :: trailing) peer.ending)) :=
      .between rfl rfl (by simp [start]) wellFormed.streams rfl
    obtain ⟨final, read⟩ := readAll_promised (Nat.le_of_lt wellFormed.entries_lt)
      someRoom undisturbed promised
    refine ⟨_, final, read, ?_⟩
    rcases readAll_ends someRoom follows (Nat.lt_succ_self _) with
      ⟨error, failed⟩ | ⟨last, succeeded, finished⟩
    · rw [read] at failed
      cases failed
    · obtain rfl := Except.ok.inj (read.symm.trans succeeded)
      obtain ⟨_, same⟩ := readAll_eq_foldlM _
      exact told_of_finished (follows_of_run follows (same.symm.trans read)) finished

end Arclain.Import
