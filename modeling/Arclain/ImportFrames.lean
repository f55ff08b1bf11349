import Arclain.Fallible
import Arclain.LittleEndian
import Arclain.LockedPipe
import Arclain.Text

namespace Arclain.Import

/-!
# Frames between the importer and its worker

The worker writes what it decodes as frames: a tag, the length of the payload in four bytes,
and the payload.  A second thread writes an empty heartbeat when nothing else was written
for a while.
-/

open List LittleEndian ActionRun Fallible

inductive ImportError where
  | unavailable
  | resourceLimit
  | workerFailed
  | unsupported
  | encrypted
  | sourceChanged
  | corrupt
  | limit
  | cancelled
  | timedOut
  | io
  deriving DecidableEq

abbrev Bytes := List UInt8

def maxFrame : Nat := 64 * 2 ^ 10

namespace Tag

def ready : UInt8 := 1

/-- `OPEN`. -/
def openArchive : UInt8 := 2

def archive : UInt8 := 3

def block : UInt8 := 4

def entry : UInt8 := 5

def inventoryEnd : UInt8 := 6

def decode : UInt8 := 7

def begin : UInt8 := 8

def data : UInt8 := 9

/-- `END`. -/
def finish : UInt8 := 10

def complete : UInt8 := 11

def failure : UInt8 := 12

def heartbeat : UInt8 := 13

end Tag

structure Frame where
  tag : UInt8
  payload : Bytes
  fits : payload.length ≤ maxFrame

namespace Frame

/-- The frame that `frame` writes, unless the payload is too long. -/
def make (tag : UInt8) (bytes : Bytes) : Except ImportError Frame :=
  if fits : bytes.length ≤ maxFrame then .ok ⟨tag, bytes, fits⟩
  else .error .limit

/-- What `frame` writes of a frame, in one call. -/
def encode (frame : Frame) : Bytes :=
  frame.tag :: (ofNat 4 frame.payload.length ++ frame.payload)

theorem length_encode (frame : Frame) : frame.encode.length = 5 + frame.payload.length := by
  simp [encode]
  omega

def beat : Frame where
  tag := Tag.heartbeat
  payload := []
  fits := Nat.zero_le _

end Frame

/-- `Read::read_exact`: a stream that ends before is an error. -/
def readExact (count : Nat) (bytes : Bytes) : Except ImportError (Bytes × Bytes) :=
  if count ≤ bytes.length then .ok (bytes.take count, bytes.drop count)
  else .error .io

def readFrame (bytes : Bytes) : Except ImportError ((UInt8 × Bytes) × Bytes) := do
  let (header, rest) ← readExact 5 bytes
  let length := toNat (header.drop 1)
  if maxFrame < length then .error .limit
  else
    let (payload, rest) ← readExact length rest
    .ok ((header.headD 0, payload), rest)

section

variable {count : Nat}

theorem readExact_eq_ok {bytes read rest : Bytes} : readExact count bytes = .ok (read, rest) ↔
    bytes = read ++ rest ∧ read.length = count := by
  unfold readExact
  constructor
  · intro done
    split at done
    next enough =>
      cases done
      exact ⟨(take_append_drop count bytes).symm, by simpa using enough⟩
    · cases done
  · rintro ⟨rfl, rfl⟩
    simp

variable {bytes payload rest : Bytes} {tag : UInt8}

theorem readFrame_eq_ok : readFrame bytes = .ok ((tag, payload), rest) ↔ payload.length ≤ maxFrame ∧
    bytes = tag :: (ofNat 4 payload.length ++ (payload ++ rest)) := by
  constructor
  · intro read
    unfold readFrame at read
    obtain ⟨⟨header, _⟩, headerRead, bodyRun⟩ := bind_eq_ok.mp read
    clear read
    obtain ⟨rfl, headerLength⟩ := readExact_eq_ok.mp headerRead
    dsimp only at bodyRun
    split at bodyRun
    · cases bodyRun
    next fits =>
      obtain ⟨⟨body, _⟩, bodyRead, returned⟩ := bind_eq_ok.mp bodyRun
      obtain ⟨rfl, bodyLength⟩ := readExact_eq_ok.mp bodyRead
      cases returned
      cases header with
      | nil => cases headerLength
      | cons _ lengthBytes =>
        have width : lengthBytes.length = 4 := Nat.succ_inj.mp headerLength
        have written : ofNat 4 body.length = lengthBytes := by
          rw [bodyLength, ← width]
          exact ofNat_toNat lengthBytes
        refine ⟨?_, by rw [written]; simp⟩
        rw [bodyLength]
        exact Nat.le_of_not_lt fits
  · rintro ⟨fits, rfl⟩
    have bounded : payload.length < 256 ^ 4 := by
      unfold maxFrame at fits
      omega
    have header : readExact 5 (tag :: (ofNat 4 payload.length ++ (payload ++ rest))) =
        .ok (tag :: ofNat 4 payload.length, payload ++ rest) :=
      readExact_eq_ok.mpr ⟨rfl, by simp⟩
    have body : readExact payload.length (payload ++ rest) = .ok (payload, rest) :=
      readExact_eq_ok.mpr ⟨rfl, rfl⟩
    unfold readFrame
    refine bind_eq_ok.mpr ⟨_, header, ?_⟩
    dsimp only
    rw [drop_one, tail_cons, toNat_ofNat bounded, if_neg (Nat.not_lt.mpr fits)]
    exact bind_eq_ok.mpr ⟨_, body, rfl⟩

theorem readFrame_encode (frame : Frame) (rest : Bytes) :
    readFrame (frame.encode ++ rest) = .ok ((frame.tag, frame.payload), rest) := by
  refine readFrame_eq_ok.mpr ⟨frame.fits, ?_⟩
  simp [Frame.encode]

theorem readFrame_take (read : readFrame bytes = .ok ((tag, payload), rest))
    (within : count < 5 + payload.length) : readFrame (bytes.take count) = .error .io := by
  obtain ⟨fits, rfl⟩ := readFrame_eq_ok.mp read
  have bounded : payload.length < 256 ^ 4 := by
    unfold maxFrame at fits
    omega
  have grouped : tag :: (ofNat 4 payload.length ++ (payload ++ rest)) =
      (tag :: ofNat 4 payload.length) ++ (payload ++ rest) :=
    rfl
  have width : (tag :: ofNat 4 payload.length).length = 5 := by simp
  rw [grouped]
  by_cases inHeader : count < 5
  · have short : ¬ 5 ≤ (((tag :: ofNat 4 payload.length) ++
        (payload ++ rest)).take count).length := by
      rw [length_take]
      omega
    unfold readFrame
    rw [readExact, if_neg short]
    rfl
  · obtain ⟨inPayload, rfl⟩ := Nat.exists_eq_add_of_le (Nat.not_lt.mp inHeader)
    have header : readExact 5 (((tag :: ofNat 4 payload.length) ++
        (payload ++ rest)).take (5 + inPayload)) =
          .ok (tag :: ofNat 4 payload.length, (payload ++ rest).take inPayload) := by
      rw [← width, take_length_add_append]
      exact readExact_eq_ok.mpr ⟨rfl, rfl⟩
    have short : ¬ payload.length ≤ ((payload ++ rest).take inPayload).length := by
      rw [length_take]
      omega
    have body : readExact payload.length ((payload ++ rest).take inPayload) = .error .io := by
      rw [readExact, if_neg short]
    unfold readFrame
    rw [header]
    simp only [Bind.bind, Except.bind, drop_one, tail_cons,
      toNat_ofNat bounded, if_neg (Nat.not_lt.mpr fits), body]

end

def frameCodec : LockedPipe.Codec Frame UInt8 ImportError where
  encode := Frame.encode
  read bytes :=
    match read : readFrame bytes with
    | .ok ((tag, payload), rest) => .ok (⟨tag, payload, (readFrame_eq_ok.mp read).1⟩, rest)
    | .error error => .error error
  truncated := .io
  read_encode := by
    intro frame rest
    split
    next read =>
      rw [readFrame_encode] at read
      cases read
      rfl
    next read =>
      rw [readFrame_encode] at read
      cases read
  read_take := by
    intro frame count within
    have whole := readFrame_encode frame []
    rw [append_nil] at whole
    rw [Frame.length_encode] at within
    have cut := readFrame_take whole within
    split
    next read =>
      rw [cut] at read
      cases read
    next read =>
      rw [cut] at read
      cases read
      rfl
  read_nil := rfl
  encode_length_pos _ := Nat.succ_pos _

/-- The threads that write to the worker's output. -/
inductive Thread where
  | main
  | heartbeat
  deriving DecidableEq

/-- The worker's output, and whether its heartbeat thread was told to stop. -/
structure Output where
  pipe : LockedPipe.Pipe Thread Frame UInt8
  stopped : Bool

namespace Output

def start : Output where
  pipe := .empty
  stopped := false

/-- A call to `frame`, a due heartbeat, some bytes written under the lock, its release, or
the end of the heartbeats. -/
inductive Action where
  | frame (tag : UInt8) (bytes : Bytes)
  | beat
  | put (count : Nat)
  | unlock
  | stop

def write (output : Output) (action : LockedPipe.Action Thread Frame) : Option Output :=
  (LockedPipe.step frameCodec output.pipe action).map fun pipe => { output with pipe := pipe }

def step (output : Output) : Action → Option Output
  | .frame tag bytes =>
    match Frame.make tag bytes with
    | .ok frame => output.write (.lock .main frame)
    | .error _ => some output
  | .beat =>
    if output.stopped then none
    else output.write (.lock .heartbeat Frame.beat)
  | .put count => output.write (.put count)
  | .unlock => output.write .unlock
  | .stop => some { output with stopped := true }

/-- The frames that the main thread wrote, in its own order. -/
def framesOf (actions : List Action) : List Frame :=
  actions.filterMap fun
    | .frame tag bytes => (Frame.make tag bytes).toOption
    | _ => none

section

variable {output next final : Output}

variable {actions : List Action}

end

end Output

end Arclain.Import
