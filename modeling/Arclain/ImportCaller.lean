import Arclain.ImportTranscript

namespace Arclain.Import

/-!
# Callers of the session

A caller asks for the next entry, reads some of it with a buffer of any size, or
drops its stream, and stops at its first error.  What it was given is what the
worker said, frame by frame.
-/

open List Option Fallible Session

section

variable {Container Block Entry : Type} {wire : Wire Container Block Entry}
variable {session after : Session Container Block Entry} {result : Option Nat}

theorem Session.nextFrame_cases (ran : session.nextFrame wire = .ok (result, after)) :
    after.inventory = session.inventory ∧ ∃ frame, session.arrivals = .ok frame :: after.arrivals ∧
      ((frame = (Tag.complete, []) ∧ result = none ∧
        after.active = session.active ∧ after.finished = true) ∨
        ∃ index, frame = (Tag.begin, indexBytes index) ∧ index < session.inventory.entries.length ∧
          result = some index ∧ after.active = some index ∧ after.finished = session.finished) := by
  unfold Session.nextFrame at ran
  obtain ⟨⟨⟨tag, _⟩, _⟩, receives, ran⟩ := Fallible.bind_eq_ok.mp ran
  obtain ⟨_, shape, _, _, rfl⟩ := receive_eq_ok.mp receives
  clear receives
  dsimp only at ran
  by_cases isComplete : tag = Tag.complete
  · subst isComplete
    rw [if_pos rfl] at ran
    obtain ⟨isEmpty, ran⟩ := refuse_eq_ok.mp ran
    obtain rfl := not_not.mp isEmpty
    cases exits : session.exitFails with
    | some =>
      simp only [exits] at ran
      cases ran
    | none =>
      simp only [exits] at ran
      cases ran
      exact ⟨rfl, _, shape, .inl ⟨rfl, rfl, rfl, rfl⟩⟩
  · rw [if_neg isComplete] at ran
    obtain ⟨isBegin, parses⟩ := refuse_eq_ok.mp ran
    obtain rfl := not_not.mp isBegin
    obtain ⟨index, parsed, checks⟩ := bind_eq_ok.mp parses
    obtain ⟨rfl, _⟩ := parseIndex_eq_ok.mp parsed
    obtain ⟨listed, returned⟩ := refuse_eq_ok.mp checks
    cases returned
    exact ⟨rfl, _, shape, .inr ⟨index, rfl, Nat.lt_of_not_le listed, rfl, rfl, rfl⟩⟩

theorem Session.next_cases (ran : session.next wire = .ok (result, after)) :
    session.active = none ∧ after.inventory = session.inventory ∧
      ((session.finished = true ∧ result = none ∧ after.active = none ∧
        after.finished = true ∧ after.arrivals = session.arrivals) ∨
        (session.finished = false ∧ ∃ frame, session.arrivals = .ok frame :: after.arrivals ∧
          ((frame = (Tag.complete, []) ∧ result = none ∧ after.active = none ∧
            after.finished = true) ∨ ∃ index, frame = (Tag.begin, indexBytes index) ∧
              index < session.inventory.entries.length ∧
              result = some index ∧ after.active = some index ∧ after.finished = false))) := by
  unfold next at ran
  cases asked : session.polls.headD none with
  | some =>
    simp only [asked] at ran
    cases ran
  | none =>
    simp only [asked] at ran
    obtain ⟨inactive, ran⟩ := Fallible.refuse_eq_ok.mp ran
    have between : session.active = none := by simpa using inactive
    refine ⟨between, ?_⟩
    cases finished : session.finished with
    | true =>
      simp only [finished, if_pos] at ran
      cases ran
      exact ⟨rfl, .inl ⟨rfl, rfl, between, rfl, rfl⟩⟩
    | false =>
      simp only [finished, Bool.false_eq_true, if_false] at ran
      have asks : ∃ asking : Session Container Block Entry,
          asking.nextFrame wire = .ok (result, after) ∧ asking.inventory = session.inventory ∧
            asking.arrivals = session.arrivals ∧
            asking.active = session.active ∧ asking.finished = false := by
        split at ran
        · exact ⟨_, ran, rfl, rfl, rfl, rfl⟩
        · split at ran
          · cases ran
          · exact ⟨_, ran, rfl, rfl, rfl, rfl⟩
      obtain ⟨asking, framed, sameInventory, sameArrivals, sameActive, unfinished⟩ := asks
      have received := nextFrame_cases framed
      rw [sameInventory, sameArrivals, sameActive, between, unfinished] at received
      exact ⟨received.1, .inr ⟨rfl, received.2⟩⟩

variable {contents left : Contents}

theorem Contents.readPending_cases {size : Nat} {bytes : Bytes}
    (inside : contents.offset ≤ contents.pending.length)
    (ran : contents.readPending size = (bytes, left)) :
    left.ended = contents.ended ∧ left.offset ≤ left.pending.length ∧
      bytes ++ left.pending.drop left.offset = contents.pending.drop contents.offset ∧
      bytes.length = min size (contents.pending.length - contents.offset) := by
  cases ran
  refine ⟨rfl, ?_, ?_, ?_⟩
  · dsimp only
    omega
  · dsimp only
    rw [← drop_drop]
    exact take_append_drop _ _
  · rw [length_take, length_drop]
    omega

theorem Contents.readContents_cases {size : Nat} {bytes : Bytes}
    (ran : contents.readContents wire session size = .ok (bytes, left, after)) :
    after.inventory = session.inventory ∧ after.finished = session.finished ∧
      (((size = 0 ∨ contents.ended = true) ∧ bytes = [] ∧ left = contents ∧ after = session) ∨
        (0 < size ∧ contents.ended = false ∧
          contents.offset ≠ contents.pending.length ∧ after = session ∧
          contents.readPending size = (bytes, left)) ∨
        (0 < size ∧ contents.ended = false ∧ contents.offset = contents.pending.length ∧
          ∃ frame, session.arrivals = .ok frame :: after.arrivals ∧
            ((∃ index, frame = (Tag.finish, indexBytes index) ∧
              session.active = some index ∧ after.active = none ∧ bytes = [] ∧
              left = { contents with ended := true }) ∨
              ∃ part, part ≠ [] ∧ frame = (Tag.data, part) ∧ after.active = session.active ∧
                Contents.readPending ⟨part, 0, false⟩ size = (bytes, left)))) := by
  unfold Contents.readContents at ran
  by_cases isEmpty : size = 0
  · rw [if_pos isEmpty] at ran
    cases ran
    exact ⟨rfl, rfl, .inl ⟨.inl isEmpty, rfl, rfl, rfl⟩⟩
  · rw [if_neg isEmpty] at ran
    cases ended : contents.ended with
    | true =>
      rw [if_pos ended] at ran
      cases ran
      exact ⟨rfl, rfl, .inl ⟨.inr rfl, rfl, rfl, rfl⟩⟩
    | false =>
      simp only [ended, Bool.false_eq_true, if_false] at ran
      have someRoom : 0 < size := Nat.pos_of_ne_zero isEmpty
      by_cases isUsed : contents.offset = contents.pending.length
      · rw [if_pos isUsed] at ran
        obtain ⟨⟨⟨tag, data⟩, _⟩, receives, ran⟩ := Fallible.bind_eq_ok.mp ran
        obtain ⟨_, shape, _, _, rfl⟩ := receive_eq_ok.mp receives
        clear receives
        dsimp only at ran
        by_cases isEnd : tag = Tag.finish
        · subst isEnd
          rw [if_pos rfl] at ran
          obtain ⟨index, parsed, checks⟩ := bind_eq_ok.mp ran
          obtain ⟨rfl, _⟩ := parseIndex_eq_ok.mp parsed
          obtain ⟨isActive, returned⟩ := refuse_eq_ok.mp checks
          cases returned
          exact ⟨rfl, rfl, .inr (.inr ⟨someRoom, rfl, isUsed, _, shape,
            .inl ⟨index, rfl, (not_not.mp isActive).symm, rfl, rfl, rfl⟩⟩)⟩
        · rw [if_neg isEnd] at ran
          obtain ⟨isNonempty, returned⟩ := refuse_eq_ok.mp ran
          obtain ⟨isData, isSome⟩ := not_or.mp isNonempty
          obtain rfl := not_not.mp isData
          cases returned
          exact ⟨rfl, rfl, .inr (.inr ⟨someRoom, rfl, isUsed, _, shape,
            .inr ⟨data, isSome, rfl, rfl, rfl⟩⟩)⟩
      · rw [if_neg isUsed] at ran
        cases ran
        exact ⟨rfl, rfl, .inr (.inl ⟨someRoom, rfl, isUsed, rfl, rfl⟩)⟩

end

/-- A stream that the caller holds: the entry, and the bytes that it got of it. -/
structure Reading where
  index : Nat
  contents : Contents
  bytes : Bytes

/-- What the calls of `next_entry` returned, and the bytes of the streams that were read. -/
structure Caller (Container Block Entry : Type) where
  session : Session Container Block Entry
  stream : Option Reading
  returned : List (Option Nat)
  entries : List (Nat × Bytes)

inductive Call where
  | next
  | read (size : Nat)
  | drop

namespace Caller

variable {Container Block Entry : Type} (wire : Wire Container Block Entry)

def start (session : Session Container Block Entry) : Caller Container Block Entry where
  session := session
  stream := none
  returned := []
  entries := []

def afterNext (caller : Caller Container Block Entry) (index : Option Nat)
    (session : Session Container Block Entry) : Caller Container Block Entry where
  session := session
  stream := index.map fun index => ⟨index, ⟨[], 0, false⟩, []⟩
  returned := caller.returned ++ [index]
  entries := caller.entries

/-- What a caller has after a read: the stream is at its end when the read found
its end. -/
def afterRead (caller : Caller Container Block Entry) (reading : Reading) (bytes : Bytes)
    (contents : Contents) (session : Session Container Block Entry) :
    Caller Container Block Entry where
  session := session
  stream := some { reading with contents := contents, bytes := reading.bytes ++ bytes }
  returned := caller.returned
  entries :=
    if contents.ended ∧ ¬ reading.contents.ended then
      caller.entries ++ [(reading.index, reading.bytes)]
    else caller.entries

/-- One call.  Asking for the next entry gives up the stream. -/
def step (caller : Caller Container Block Entry) :
    Call → Except ImportError (Caller Container Block Entry)
  | .next => do
    let (index, session) ← caller.session.next wire
    .ok (caller.afterNext index session)
  | .read size =>
    match caller.stream with
    | none => .ok caller
    | some reading => do
      let (bytes, contents, session) ← reading.contents.readContents wire caller.session size
      .ok (caller.afterRead reading bytes contents session)
  | .drop => .ok { caller with stream := none }

/-- A caller that is at an entry of which some parts were received. -/
structure Inside (streams : List Stream) (stream : Stream)
    (caller : Caller Container Block Entry) : Prop where
  active : caller.session.active = some stream.index
  finished : caller.session.finished = false
  returned : none ∉ caller.returned
  reading : ∀ reading ∈ caller.stream,
    reading.index = stream.index ∧ reading.contents.ended = false ∧
      reading.contents.offset ≤ reading.contents.pending.length ∧
      reading.bytes ++ reading.contents.pending.drop reading.contents.offset = stream.parts.flatten
  entries : caller.entries = streams.map fun stream => (stream.index, stream.parts.flatten)

/-- A caller that is behind the last received entry, or was told that there are no others. -/
structure Behind (streams : List Stream) (caller : Caller Container Block Entry) : Prop where
  active : caller.session.active = none
  ended : ∀ reading ∈ caller.stream, reading.contents.ended = true
  entries : caller.entries = streams.map fun stream => (stream.index, stream.parts.flatten)

/-- The frames of the entries that were received, and the entries they are about. -/
inductive Standing (caller : Caller Container Block Entry) : List RawFrame → List Stream → Prop
  | between {streams : List Stream} (behind : Behind streams caller)
      (finished : caller.session.finished = false)
      (returned : none ∉ caller.returned) :
      Standing caller (streams.flatMap Stream.frames) streams
  | within {streams : List Stream} {stream : Stream} (inside : Inside streams stream caller) :
      Standing caller (streams.flatMap Stream.frames ++ stream.begun) (streams ++ [stream])
  | finished {streams : List Stream} (behind : Behind streams caller)
      (finished : caller.session.finished = true)
      (returned : none ∈ caller.returned) :
      Standing caller (streams.flatMap Stream.frames ++ [(Tag.complete, [])]) streams

/-- A caller that has followed the worker up to the frames that are left. -/
structure Follows (body : List RawFrame) (ending : ImportError) (count : Nat)
    (caller : Caller Container Block Entry) : Prop where
  listed : caller.session.inventory.entries.length = count
  heard : ∃ seen rest streams, body = seen ++ rest ∧
    caller.session.arrivals = endingWith rest ending ∧
    (∀ stream ∈ streams, stream.WellFormed count) ∧ Standing caller seen streams

section

variable {reading : Reading}

theorem afterRead_nil {caller : Caller Container Block Entry}
    (held : caller.stream = some reading) :
    caller.afterRead reading [] reading.contents caller.session = caller := by
  unfold afterRead
  simp [← held]

variable {streams : List Stream}

theorem Standing.inside_of_unended {caller : Caller Container Block Entry} {seen : List RawFrame}
    (standing : caller.Standing seen streams) (held : caller.stream = some reading)
    (unended : reading.contents.ended = false) : ∃ earlier stream, streams = earlier ++ [stream] ∧
      seen = earlier.flatMap Stream.frames ++ stream.begun ∧ Inside earlier stream caller := by
  cases standing with
  | between behind | finished behind =>
    rw [behind.ended reading held] at unended
    cases unended
  | within inside => exact ⟨_, _, rfl, rfl, inside⟩

variable {wire} {body : List RawFrame} {ending : ImportError} {count : Nat}
  {caller after : Caller Container Block Entry}
variable {session : Session Container Block Entry}

theorem Behind.begins {index : Nat} (behind : Behind streams caller)
    (returned : none ∉ caller.returned) (active : session.active = some index)
    (finished : session.finished = false) :
    Inside streams ⟨index, []⟩ (caller.afterNext (some index) session) := by
  refine
    { active := active
      finished := finished
      returned := by simpa [afterNext] using returned
      reading := ?_
      entries := behind.entries }
  intro reading held
  cases held
  exact ⟨rfl, rfl, Nat.zero_le _, rfl⟩

theorem follows_next (follows : Follows body ending count caller)
    (taken : caller.step wire .next = .ok after) : Follows body ending count after := by
  obtain ⟨listed, _, rest, streams, rfl, arrivals, wellFormed, standing⟩ := follows
  obtain ⟨⟨_, _⟩, asked, made⟩ := Fallible.bind_eq_ok.mp taken
  cases made
  obtain ⟨isBetween, sameInventory, found⟩ := next_cases asked
  refine ⟨by rw [afterNext, sameInventory]; exact listed, ?_⟩
  cases standing with
  | within inside =>
    have active := inside.active
    rw [isBetween] at active
    cases active
  | finished behind finished returned =>
    rcases found with ⟨_, rfl, active, stays, same⟩ | ⟨unfinished, _⟩
    · exact ⟨_, rest, streams, rfl, same.trans arrivals, wellFormed,
        .finished ⟨active, by simp [afterNext], behind.entries⟩ stays (by simp [afterNext])⟩
    · rw [finished] at unfinished
      cases unfinished
  | between behind finished returned =>
    rcases found with ⟨isFinished, _⟩ | ⟨_, frame, received, found⟩
    · rw [finished] at isFinished
      cases isFinished
    · obtain ⟨later, rfl, left⟩ := endingWith_cons (arrivals.symm.trans received)
      rcases found with ⟨rfl, rfl, active, stays⟩ | ⟨index, rfl, inInventory, rfl, active, stays⟩
      · exact ⟨_, later, streams, append_cons _ _ _, left, wellFormed,
          .finished ⟨active, by simp [afterNext], behind.entries⟩ stays
          (by simp [afterNext])⟩
      · refine ⟨_, later, streams ++ [⟨index, []⟩], append_cons _ _ _, left, ?_, ?_⟩
        · intro stream mem
          rcases mem_append.mp mem with before | isNew
          · exact wellFormed stream before
          · obtain rfl := mem_singleton.mp isNew
            exact ⟨listed ▸ inInventory, by simp⟩
        · exact .within (behind.begins returned active stays)

variable {stream : Stream} {size : Nat} {contents : Contents}

theorem Inside.afterPending {bytes : Bytes}
    (inside : Inside streams stream caller) (held : caller.stream = some reading)
    (ran : reading.contents.readPending size = (bytes, contents)) :
    Inside streams stream (caller.afterRead reading bytes contents caller.session) := by
  obtain ⟨sameIndex, unended, within, soFar⟩ := inside.reading reading held
  obtain ⟨sameEnded, stillWithin, taken, _⟩ := Contents.readPending_cases within ran
  refine
    { active := inside.active
      finished := inside.finished
      returned := inside.returned
      reading := ?_
      entries := ?_ }
  · intro _ isOther
    cases isOther
    refine ⟨sameIndex, sameEnded.trans unended, stillWithin, ?_⟩
    rw [← soFar, ← taken, append_assoc]
  · have notEnded : ¬ (contents.ended = true ∧ ¬ reading.contents.ended = true) := by
      simp [sameEnded, unended]
    exact (if_neg notEnded).trans inside.entries

theorem Inside.bytes_of_used (inside : Inside streams stream caller)
    (held : caller.stream = some reading)
    (used : reading.contents.offset = reading.contents.pending.length) :
    reading.bytes = stream.parts.flatten := by
  obtain ⟨_, _, _, soFar⟩ := inside.reading reading held
  rw [used, drop_length, append_nil] at soFar
  exact soFar

theorem Inside.afterEnd (inside : Inside streams stream caller)
    (held : caller.stream = some reading)
    (used : reading.contents.offset = reading.contents.pending.length)
    (active : session.active = none) : Behind (streams ++ [stream])
      (caller.afterRead reading [] { reading.contents with ended := true } session) := by
  obtain ⟨sameIndex, unended, _, _⟩ := inside.reading reading held
  refine
    { active := active
      ended := ?_
      entries := ?_ }
  · intro _ isOther
    cases isOther
    rfl
  · simp [afterRead, unended, sameIndex, inside.entries, inside.bytes_of_used held used]

theorem Inside.afterPart {part bytes : Bytes}
    (inside : Inside streams stream caller) (held : caller.stream = some reading)
    (used : reading.contents.offset = reading.contents.pending.length)
    (active : session.active = caller.session.active)
    (finished : session.finished = caller.session.finished)
    (ran : Contents.readPending ⟨part, 0, false⟩ size = (bytes, contents)) :
    Inside streams { stream with parts := stream.parts ++ [part] }
      (caller.afterRead reading bytes contents session) := by
  obtain ⟨sameIndex, _, _, _⟩ := inside.reading reading held
  obtain ⟨sameEnded, stillWithin, taken, _⟩ := Contents.readPending_cases (Nat.zero_le _) ran
  refine
    { active := active.trans inside.active
      finished := finished.trans inside.finished
      returned := inside.returned
      reading := ?_
      entries := ?_ }
  · intro _ isOther
    cases isOther
    refine ⟨sameIndex, sameEnded, stillWithin, ?_⟩
    rw [append_assoc, taken, inside.bytes_of_used held used]
    simp
  · have notEnded : ¬ (contents.ended = true ∧ ¬ reading.contents.ended = true) := by
      simp [sameEnded]
    exact (if_neg notEnded).trans inside.entries

theorem follows_read (follows : Follows body ending count caller)
    (taken : caller.step wire (.read size) = .ok after) : Follows body ending count after := by
  have before := follows
  obtain ⟨listed, _, rest, _, rfl, arrivals, wellFormed, standing⟩ := follows
  simp only [step] at taken
  cases held : caller.stream with
  | none =>
    rw [held] at taken
    cases taken
    exact before
  | some =>
    rw [held] at taken
    obtain ⟨⟨_, _, _⟩, ran, made⟩ := Fallible.bind_eq_ok.mp taken
    cases made
    obtain ⟨sameInventory, sameFinished, found⟩ := Contents.readContents_cases ran
    rcases found with ⟨_, rfl, rfl, rfl⟩ | ⟨_, unended, _, rfl, fromPending⟩ |
      ⟨_, unended, used, frame, received, found⟩
    · rw [afterRead_nil held]
      exact before
    · obtain ⟨earlier, stream, rfl, rfl, inside⟩ := standing.inside_of_unended held unended
      exact ⟨listed, _, rest, _, rfl, arrivals, wellFormed,
        .within (inside.afterPending held fromPending)⟩
    · refine ⟨by rw [afterRead, sameInventory]; exact listed, ?_⟩
      obtain ⟨later, rfl, left⟩ := endingWith_cons (arrivals.symm.trans received)
      obtain ⟨earlier, stream, rfl, rfl, inside⟩ := standing.inside_of_unended held unended
      rcases found with ⟨index, rfl, isActive, active, rfl, rfl⟩ | ⟨part, isSome, rfl, active, ran⟩
      · obtain rfl := some.inj (isActive.symm.trans inside.active)
        refine ⟨_, later, earlier ++ [stream], append_cons _ _ _, left, wellFormed, ?_⟩
        have stands := Standing.between (inside.afterEnd held used active)
          (sameFinished.trans inside.finished) inside.returned
        simpa [Stream.frames] using stands
      · refine ⟨_, later, earlier ++ [{ stream with parts := stream.parts ++ [part] }],
          append_cons _ _ _, left, ?_, ?_⟩
        · intro other mem
          rcases mem_append.mp mem with isEarlier | isLast
          · exact wellFormed other (mem_append_left _ isEarlier)
          · obtain rfl := mem_singleton.mp isLast
            have whole := wellFormed stream (by simp)
            refine ⟨whole.index_lt, ?_⟩
            intro other isPart
            rcases mem_append.mp isPart with isBefore | isNew
            · exact whole.parts_ne_nil other isBefore
            · obtain rfl := mem_singleton.mp isNew
              exact isSome
        · have stands := Standing.within (inside.afterPart held used active sameFinished ran)
          simpa [Stream.begun] using stands

theorem follows_step {call : Call} (follows : Follows body ending count caller)
    (taken : caller.step wire call = .ok after) : Follows body ending count after := by
  cases call with
  | next => exact follows_next follows taken
  | read => exact follows_read follows taken
  | drop =>
    cases taken
    obtain ⟨listed, seen, rest, streams, rfl, arrivals, wellFormed, standing⟩ := follows
    refine ⟨listed, seen, rest, streams, rfl, arrivals, wellFormed, ?_⟩
    cases standing with
    | between behind finished returned =>
      exact .between ⟨behind.active, by simp, behind.entries⟩ finished returned
    | within inside => exact .within { inside with reading := by simp }
    | finished behind finished returned =>
      exact .finished ⟨behind.active, by simp, behind.entries⟩ finished returned

theorem follows_of_run {calls : List Call} (follows : Follows body ending count caller)
    (ran : calls.foldlM (step wire) caller = .ok after) : Follows body ending count after :=
  Fallible.foldlM_preserves (Follows body ending count)
    (fun _ => follows_step) follows ran

end

def weight : Arrival → Nat
  | .ok (_, data) => 1 + data.length
  | .error _ => 0

def remaining (caller : Caller Container Block Entry) : Nat :=
  (caller.session.arrivals.map weight).sum + (caller.stream.map fun reading =>
    reading.contents.pending.length - reading.contents.offset).getD 0

/-- The call of a caller that reads every entry to its end. -/
def thorough (size : Caller Container Block Entry → Nat)
    (caller : Caller Container Block Entry) : Call :=
  match caller.stream with
  | none => .next
  | some reading => if reading.contents.ended then .next else .read (size caller)

def readAll (size : Caller Container Block Entry → Nat) : Nat → Caller Container Block Entry →
    Except ImportError (Caller Container Block Entry)
  | 0, caller => .ok caller
  | fuel + 1, caller =>
    if caller.session.finished then .ok caller
    else do
      let caller ← caller.step wire (caller.thorough size)
      readAll size fuel caller

section

variable {wire} {body : List RawFrame} {ending : ImportError} {count : Nat}
  {caller after : Caller Container Block Entry}
  {size : Caller Container Block Entry → Nat}

theorem readAll_eq_foldlM (fuel : Nat) : ∃ calls : List Call,
    caller.readAll wire size fuel = calls.foldlM (step wire) caller := by
  induction fuel generalizing caller with
  | zero => exact ⟨[], rfl⟩
  | succ fuel ih =>
    rw [readAll]
    split
    · exact ⟨[], rfl⟩
    · cases taken : caller.step wire (caller.thorough size) with
      | error error =>
        refine ⟨[caller.thorough size], ?_⟩
        rw [foldlM_cons, taken]
        rfl
      | ok next =>
        obtain ⟨calls, same⟩ := @ih next
        refine ⟨caller.thorough size :: calls, ?_⟩
        rw [foldlM_cons, taken]
        exact same

theorem remaining_next (unfinished : caller.session.finished = false)
    (taken : caller.step wire .next = .ok after) : after.remaining < caller.remaining := by
  obtain ⟨⟨result, session⟩, asked, made⟩ := Fallible.bind_eq_ok.mp taken
  cases made
  obtain ⟨_, _, ⟨finished, _⟩ | ⟨_, frame, received, _⟩⟩ := next_cases asked
  · rw [unfinished] at finished
    cases finished
  · obtain ⟨_, _⟩ := frame
    have nothingPending : ((caller.afterNext result session).stream.map fun reading =>
      reading.contents.pending.length - reading.contents.offset).getD 0 = 0 := by
      cases result <;> rfl
    rw [remaining, nothingPending, remaining, received]
    simp only [map_cons, sum_cons, weight, afterNext]
    omega

theorem remaining_read {room : Nat} {reading : Reading} (follows : Follows body ending count caller)
    (held : caller.stream = some reading) (unended : reading.contents.ended = false)
    (someRoom : 0 < room) (taken : caller.step wire (.read room) = .ok after) :
    after.remaining < caller.remaining := by
  obtain ⟨_, _, _, _, rfl, _, _, standing⟩ := follows
  obtain ⟨_, _, rfl, rfl, inside⟩ := standing.inside_of_unended held unended
  obtain ⟨_, _, within, _⟩ := inside.reading reading held
  simp only [step, held] at taken
  obtain ⟨⟨_, contents, _⟩, ran, made⟩ := Fallible.bind_eq_ok.mp taken
  cases made
  obtain ⟨_, _, found⟩ := Contents.readContents_cases ran
  rcases found with ⟨isNone | isEnded, _⟩ | ⟨_, _, unused, rfl, fromPending⟩ |
    ⟨_, _, used, ⟨tag, data⟩, received, found⟩
  · omega
  · rw [unended] at isEnded
    cases isEnded
  · obtain ⟨_, _, split, _⟩ := Contents.readPending_cases within fromPending
    have lengths := congrArg length split
    simp only [length_append, length_drop] at lengths
    simp only [remaining, afterRead, held, map_some, getD_some]
    omega
  · have atMost : contents.pending.length - contents.offset ≤ data.length := by
      rcases found with ⟨_, _, _, _, _, rfl⟩ | ⟨part, _, same, _, fromPart⟩
      · dsimp only
        omega
      · cases same
        obtain ⟨_, _, split, _⟩ := Contents.readPending_cases (Nat.zero_le _) fromPart
        have lengths := congrArg length split
        simp only [length_append, length_drop] at lengths
        omega
    simp only [remaining, afterRead, held, map_some, getD_some, received,
      map_cons, sum_cons, weight]
    omega

theorem readAll_ends (someRoom : ∀ caller, 0 < size caller) {fuel : Nat}
    (follows : Follows body ending count caller) (enough : caller.remaining < fuel) :
    (∃ error, caller.readAll wire size fuel = .error error) ∨
      ∃ final, caller.readAll wire size fuel = .ok final ∧ final.session.finished = true := by
  induction fuel generalizing caller with
  | zero => omega
  | succ fuel ih =>
    rw [readAll]
    cases finished : caller.session.finished with
    | true => exact .inr ⟨caller, rfl, finished⟩
    | false =>
      cases taken : caller.step wire (caller.thorough size) with
      | error error => exact .inl ⟨error, rfl⟩
      | ok next =>
        have smaller : next.remaining < caller.remaining := by
          unfold thorough at taken
          split at taken
          · exact remaining_next finished taken
          next held =>
            split at taken
            · exact remaining_next finished taken
            next unended =>
              exact remaining_read follows held
                (Bool.eq_false_of_not_eq_true unended) (someRoom caller) taken
        exact ih (follows_step follows taken) (by omega)

end

variable {body : List RawFrame} {ending : ImportError} {caller : Caller Container Block Entry}

theorem transcript_of_follows {count : Nat} (follows : Follows body ending count caller)
    (told : none ∈ caller.returned) : ∃ (streams : List Stream) (trailing : List RawFrame),
      body = streams.flatMap Stream.frames ++ [(Tag.complete, [])] ++ trailing ∧
        (∀ stream ∈ streams, stream.WellFormed count) ∧
        caller.entries = streams.map fun stream => (stream.index, stream.parts.flatten) := by
  obtain ⟨_, _, rest, streams, rfl, _, wellFormed, standing⟩ := follows
  cases standing with
  | between _ _ returned => exact absurd told returned
  | within inside => exact absurd told inside.returned
  | finished behind => exact ⟨streams, rest, rfl, wellFormed, behind.entries⟩

theorem told_of_finished {count : Nat} (follows : Follows body ending count caller)
    (isFinished : caller.session.finished = true) : none ∈ caller.returned := by
  obtain ⟨_, _, _, _, _, _, _, standing⟩ := follows
  cases standing with
  | between _ unfinished =>
    rw [isFinished] at unfinished
    cases unfinished
  | within inside =>
    have unfinished := inside.finished
    rw [isFinished] at unfinished
    cases unfinished
  | finished _ _ returned => exact returned

variable {indexOf : Entry → Nat} {session : Session Container Block Entry}

theorem follows_start {wire : Wire Container Block Entry} {peer : Peer} {transcript : Transcript}
    (opened : Opened wire indexOf peer session transcript body) :
    Follows body peer.ending transcript.entries.length (start session) where
  listed := opened.length_entries
  heard := by
    refine ⟨[], body, [], rfl, opened.arrivals, by simp, ?_⟩
    have behind : Behind [] (start session) := ⟨opened.active, by simp [start], rfl⟩
    exact .between behind opened.finished (by simp [start])

theorem heard_of_run {wire : Wire Container Block Entry}
    {unknown : Container} {limits : Limits} {peer : Peer} {calls : List Call}
    (opened : Session.openArchive wire indexOf unknown limits peer = .ok session)
    (ran : calls.foldlM (step wire) (start session) = .ok caller) (told : none ∈ caller.returned) :
    ∃ (transcript : Transcript) (body : List RawFrame) (streams : List Stream)
      (trailing : List RawFrame), Opened wire indexOf peer session transcript body ∧
        Transcript.WellFormed { transcript with streams := streams } ∧
        passed peer.frames = Transcript.frames { transcript with streams := streams } ++ trailing ∧
        caller.entries = streams.map fun stream => (stream.index, stream.parts.flatten) := by
  obtain ⟨transcript, body, isOpened⟩ := opened_of_openArchive opened
  obtain ⟨streams, trailing, rfl, wellFormed, read⟩ :=
    transcript_of_follows (follows_of_run (follows_start isOpened) ran) told
  refine ⟨transcript, _, streams, trailing, isOpened, ⟨isOpened.entries_lt, wellFormed⟩, ?_, read⟩
  rw [isOpened.said]
  simp [Transcript.frames, Transcript.decoded, Transcript.opening, Transcript.listing]

end Caller

/-- A caller that is told of no more entries has read a well formed transcript; without one,
reading to the end is an error. -/
theorem caller_heard_transcript {Container Block Entry : Type} (wire : Wire Container Block Entry)
    (indexOf : Entry → Nat) (unknown : Container) (limits : Limits) (peer : Peer) :
    (∀ (session : Session Container Block Entry) (calls : List Call) caller,
      Session.openArchive wire indexOf unknown limits peer = .ok session →
      calls.foldlM (Caller.step wire) (Caller.start session) = .ok caller → none ∈ caller.returned →
      ∃ (transcript : Transcript) (trailing : List RawFrame), transcript.WellFormed ∧
        passed peer.frames = transcript.frames ++ trailing ∧
        wire.container transcript.container = some session.inventory.container ∧
        transcript.blocks.map wire.block = session.inventory.blocks.map some ∧
        transcript.entries.map wire.entry = session.inventory.entries.map some ∧
        (∀ position entry, session.inventory.entries[position]? = some entry →
          indexOf entry = position) ∧
        caller.entries = transcript.streams.map fun stream =>
          (stream.index, stream.parts.flatten)) ∧
    ∀ size : Caller Container Block Entry → Nat, (∀ caller, 0 < size caller) →
      (¬ ∃ (transcript : Transcript) (trailing : List RawFrame),
        transcript.WellFormed ∧ passed peer.frames = transcript.frames ++ trailing) →
      (∃ error, Session.openArchive wire indexOf unknown limits peer = .error error) ∨
      ∃ session fuel error, Session.openArchive wire indexOf unknown limits peer = .ok session ∧
        (Caller.start session).readAll wire size fuel = .error error := by
  constructor
  · intro session calls caller ran called told
    obtain ⟨transcript, _, streams, trailing, opened, wellFormed, said, read⟩ :=
      Caller.heard_of_run ran called told
    exact ⟨{ transcript with streams := streams }, trailing, wellFormed, said,
      opened.container, opened.blocks, opened.entries, opened.indexed, read⟩
  · intro size someRoom noTranscript
    cases ran : Session.openArchive wire indexOf unknown limits peer with
    | error error => exact .inl ⟨error, rfl⟩
    | ok session =>
      obtain ⟨transcript, _, opened⟩ := opened_of_openArchive ran
      have follows := Caller.follows_start opened
      rcases @Caller.readAll_ends _ _ _ wire _ _ _ _ _ someRoom _ follows
        (Nat.lt_succ_self _) with ⟨error, failed⟩ | ⟨final, succeeded, finished⟩
      · exact .inr ⟨session, _, error, rfl, failed⟩
      · obtain ⟨calls, same⟩ := Caller.readAll_eq_foldlM _
        have called := same.symm.trans succeeded
        have told := Caller.told_of_finished (Caller.follows_of_run follows called) finished
        obtain ⟨_, _, _, trailing, _, wellFormed, said, _⟩ := Caller.heard_of_run ran called told
        exact absurd ⟨_, trailing, wellFormed, said⟩ noTranscript

/-- The bytes of a text in ASCII. -/
def ascii (text : String) : Bytes := text.toList.map fun character => UInt8.ofNat character.toNat

def storedBlock : Bytes := ascii "\x7b\"packed_bytes\":2,\"unpacked_bytes\":2\x7d"

def storedEntry : Bytes :=
  ascii ("\x7b\"index\":0,\"name\":\x7b\"LegacyZip\":[97]\x7d,\"kind\":\"File\",\"size\":2," ++
    "\"block\":0,\"encrypted\":false,\"method\":\"ZIP:Stored\",\"method_supported\":true," ++
    "\"unix_mode\":null\x7d")

/-- What the parser makes of the payloads of a ZIP archive with one stored file: of the block
its sizes, of the entry its index. -/
def storedWire : Wire Bytes (Nat × Nat) Nat where
  container bytes :=
    if bytes.head? = some 34 ∧ bytes.getLast? = some 34 ∧ 2 ≤ bytes.length then
      some bytes.tail.dropLast
    else none
  block bytes := if bytes = storedBlock then some (2, 2) else none
  entry bytes := if bytes = storedEntry then some 0 else none
  failure _ := none

/-- A worker that sends the file in two parts, a heartbeat between them, and frames behind. -/
def storedArchive (behind : List RawFrame) : Peer where
  frames :=
    [(Tag.ready, greeting), (Tag.archive, ascii "\"Zip\""), (Tag.block, storedBlock),
      (Tag.entry, storedEntry), (Tag.inventoryEnd, indexBytes 1), (Tag.begin, indexBytes 0),
      (Tag.data, [104]), (Tag.heartbeat, []), (Tag.data, [105]), (Tag.finish, indexBytes 0),
      (Tag.complete, [])] ++ behind
  ending := .io
  polls := []
  openFails := none
  decodeFails := none
  exitFails := none

def storedSession (behind : List RawFrame) : Session Bytes (Nat × Nat) Nat where
  arrivals := endingWith ((passed (storedArchive behind).frames).drop 5) .io
  polls := []
  inventory := ⟨[90, 105, 112], [(2, 2)], [0]⟩
  started := false
  finished := false
  active := none
  decodeFails := none
  exitFails := none

set_option maxRecDepth 10000 in
/-- A caller that reads one byte and then what is left hears the whole transcript. -/
theorem stored_file_heard : ∃ (transcript : Transcript) (trailing : List RawFrame),
    transcript.WellFormed ∧ passed (storedArchive []).frames = transcript.frames ++ trailing ∧
      transcript.streams.map (fun stream => (stream.index, stream.parts.flatten)) =
        [(0, [104, 105])] := by
  obtain ⟨transcript, trailing, wellFormed, said, _, _, _, _, heard⟩ :=
    (caller_heard_transcript storedWire id [] ⟨1, 400⟩ (storedArchive [])).1 (storedSession [])
      [.next, .read 1, .read 4, .read 4, .next] _ rfl rfl (by decide)
  exact ⟨transcript, trailing, wellFormed, said, heard.symm⟩

set_option maxRecDepth 10000 in
/-- What comes behind the final frame is not looked at. -/
theorem frames_behind_complete :
    ¬ ∀ (session : Session Bytes (Nat × Nat) Nat) (calls : List Call) caller,
      Session.openArchive storedWire id [] ⟨1, 400⟩ (storedArchive [(Tag.data, [0])]) =
        .ok session →
      calls.foldlM (Caller.step storedWire) (Caller.start session) = .ok caller →
      none ∈ caller.returned → ∃ transcript : Transcript, transcript.WellFormed ∧
        passed (storedArchive [(Tag.data, [0])]).frames = transcript.frames := by
  intro claimed
  obtain ⟨transcript, _, said⟩ :=
    claimed (storedSession [(Tag.data, [0])]) [.next, .read 4, .read 4, .read 4, .next] _ rfl rfl
      (by decide)
  have lasts := congrArg List.getLast? said
  rw [Transcript.frames, List.getLast?_append] at lasts
  simp [storedArchive, passed, Tag.data, Tag.complete] at lasts

end Arclain.Import
