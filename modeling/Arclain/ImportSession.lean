import Arclain.ImportFrames

namespace Arclain.Import

open Tag

/-!
# The importer's side of the worker

A reader thread passes the worker's frames on.  The session receives the greeting and the
inventory, then the entries, each between a `BEGIN` and its `END`, and the caller may drop
the stream of an entry at any time.

The cancellations and stalls are a list of answers, and the parser of the payloads is a
parameter.
-/

/-- A frame as `read_frame` returns it. -/
abbrev RawFrame := UInt8 × Bytes

abbrev Arrival := Except ImportError RawFrame

/-- Why the session is interrupted, each time it is asked. -/
abbrev Polls := List (Option ImportError)

/-- `unboxer::Limits`, as far as the inventory is concerned. -/
structure Limits where
  maxEntries : Nat
  maxIndexBytes : Nat

structure Wire (Container Block Entry : Type) where
  container : Bytes → Option Container
  block : Bytes → Option Block
  entry : Bytes → Option Entry
  failure : Bytes → Option ImportError

/-- `index` of the protocol: eight bytes, the lowest first. -/
def parseIndex (bytes : Bytes) : Except ImportError Nat :=
  if bytes.length = 8 then .ok (LittleEndian.toNat bytes)
  else .error .corrupt

def indexBytes (index : Nat) : Bytes := LittleEndian.ofNat 8 index

def greeting : Bytes :=
  [97, 114, 99, 108, 97, 105, 110, 45, 105, 109, 112, 111, 114, 116, 45, 118, 49]

def passedOn (frames : List RawFrame) (ending : ImportError) : List Arrival :=
  (frames.filter fun frame => !decide (frame = (heartbeat, []))).map .ok ++ [.error ending]

structure Inventory (Container Block Entry : Type) where
  container : Container
  blocks : List Block
  entries : List Entry

section

variable {Container Block Entry : Type} (wire : Wire Container Block Entry)

/-- The error of a session whose reader thread has ended. -/
def disconnected (polls : Polls) : ImportError :=
  ((polls.headD none).or (polls.tail.headD none)).getD .workerFailed

/-- `receive`, for what the reader thread passed on. -/
def receiveArrival (arrival : Arrival) (polls : Polls) : Except ImportError (RawFrame × Polls) :=
  match polls.headD none with
  | some error => .error error
  | none =>
    match arrival with
    | .ok (tag, data) =>
      if tag = failure then .error ((wire.failure data).getD .corrupt)
      else .ok ((tag, data), polls.tail)
    | .error error =>
      .error ((polls.tail.headD none).getD (if error = .io then .workerFailed else error))

/-- What the session makes of a frame of the inventory: what it has so far and its bytes, or
nothing more to come. -/
def addFrame (limits : Limits) (inventory : Inventory Container Block Entry) (metadata : Nat)
    (frame : RawFrame) : Except ImportError (Option (Inventory Container Block Entry × Nat)) :=
  let (tag, data) := frame
  let metadata := metadata + data.length
  if 2 ^ 64 ≤ metadata then .error .limit
  else if limits.maxIndexBytes < metadata then .error .limit
  else if tag = block then
    if inventory.entries ≠ [] ∨ limits.maxEntries ≤ inventory.blocks.length then .error .limit
    else
      match wire.block data with
      | none => .error .corrupt
      | some block =>
        .ok (some ({ inventory with blocks := inventory.blocks ++ [block] }, metadata))
  else if tag = entry then
    if limits.maxEntries ≤ inventory.entries.length then .error .limit
    else
      match wire.entry data with
      | none => .error .corrupt
      | some entry =>
        .ok (some ({ inventory with entries := inventory.entries ++ [entry] }, metadata))
  else if tag = inventoryEnd then do
    let count ← parseIndex data
    if count = inventory.entries.length then .ok none
    else .error .corrupt
  else .error .corrupt

/-- The loop of `open` that receives the inventory; what is left of the frames and
of the polls is returned with it. -/
def readInventory (limits : Limits) (inventory : Inventory Container Block Entry) (metadata : Nat) :
    List Arrival → Polls → Except ImportError
      (Inventory Container Block Entry × List Arrival × Polls)
  | [], polls => .error (disconnected polls)
  | arrival :: rest, polls =>
    match receiveArrival wire arrival polls with
    | .error error => .error error
    | .ok (frame, polls) =>
      match addFrame wire limits inventory metadata frame with
      | .error error => .error error
      | .ok none => .ok (inventory, rest, polls)
      | .ok (some (inventory, metadata)) => readInventory limits inventory metadata rest polls

end

/-- `ArchiveSession`, with the outcomes of sending `DECODE` and of waiting for the
worker to exit. -/
structure Session (Container Block Entry : Type) where
  arrivals : List Arrival
  polls : Polls
  inventory : Inventory Container Block Entry
  started : Bool
  finished : Bool
  active : Option Nat
  decodeFails : Option ImportError
  exitFails : Option ImportError

/-- The frames the worker sends before reading fails, the interruptions, and how the
requests and the exit turn out. -/
structure Peer where
  frames : List RawFrame
  ending : ImportError
  polls : Polls
  openFails : Option ImportError
  decodeFails : Option ImportError
  exitFails : Option ImportError

namespace Session

variable {Container Block Entry : Type}

section

variable (wire : Wire Container Block Entry)

def receive (session : Session Container Block Entry) :
    Except ImportError (RawFrame × Session Container Block Entry) :=
  match session.arrivals with
  | [] => .error (disconnected session.polls)
  | arrival :: rest =>
    match receiveArrival wire arrival session.polls with
    | .error error => .error error
    | .ok (frame, polls) => .ok (frame, { session with arrivals := rest, polls := polls })

/-- `ArchiveClient::open`; `indexOf` is the index that an entry states. -/
def openArchive (indexOf : Entry → Nat) (unknown : Container)
    (limits : Limits) (peer : Peer) : Except ImportError (Session Container Block Entry) := do
  let session : Session Container Block Entry :=
    { arrivals := passedOn peer.frames peer.ending
      polls := peer.polls
      inventory := { container := unknown, blocks := [], entries := [] }
      started := false
      finished := false
      active := none
      decodeFails := peer.decodeFails
      exitFails := peer.exitFails }
  let ((tag, data), session) ← session.receive wire
  if tag ≠ ready ∨ data ≠ greeting then .error .corrupt
  else
    match peer.openFails with
    | some error => .error error
    | none =>
      let ((tag, data), session) ← session.receive wire
      if tag ≠ archive then .error .corrupt
      else
        match wire.container data with
        | none => .error .corrupt
        | some container =>
          let (inventory, arrivals, polls) ← readInventory wire limits
              { session.inventory with container := container } 0
              session.arrivals session.polls
          if inventory.entries.zipIdx.any fun (entry, position) =>
            position ≠ indexOf entry then
            .error .corrupt
          else
            .ok { session with
              inventory := inventory
              arrivals := arrivals
              polls := polls }

/-- `next`, once `DECODE` was sent. -/
def nextFrame (session : Session Container Block Entry) :
    Except ImportError (Option Nat × Session Container Block Entry) := do
  let ((tag, data), session) ← session.receive wire
  if tag = complete then
    if data ≠ [] then .error .corrupt
    else
      match session.exitFails with
      | some error => .error error
      | none => .ok (none, { session with finished := true })
  else if tag ≠ begin then .error .corrupt
  else
    let index ← parseIndex data
    if session.inventory.entries.length ≤ index then .error .corrupt
    else .ok (some index, { session with active := some index })

def next (session : Session Container Block Entry) :
    Except ImportError (Option Nat × Session Container Block Entry) :=
  match session.polls.headD none with
  | some error => .error error
  | none =>
    let session := { session with polls := session.polls.tail }
    if session.active.isSome then .error .corrupt
    else if session.finished then .ok (none, session)
    else if session.started then session.nextFrame wire
    else
      match session.decodeFails with
      | some error => .error error
      | none => { session with started := true }.nextFrame wire

end

end Session

/-- `Contents`, without the session that it borrows. -/
structure Contents where
  pending : Bytes
  offset : Nat
  ended : Bool

namespace Contents

variable {Container Block Entry : Type}

/-- `read_contents` from the buffer that is pending. -/
def readPending (contents : Contents) (size : Nat) : Bytes × Contents :=
  let count := min size (contents.pending.length - contents.offset)
  ((contents.pending.drop contents.offset).take count,
    { contents with offset := contents.offset + count })

/-- `read_contents`: the bytes that the buffer of the caller gets. -/
def readContents (wire : Wire Container Block Entry) (session : Session Container Block Entry)
    (contents : Contents) (size : Nat) :
    Except ImportError (Bytes × Contents × Session Container Block Entry) :=
  if size = 0 then .ok ([], contents, session)
  else if contents.ended then .ok ([], contents, session)
  else if contents.offset = contents.pending.length then do
    let ((tag, data), session) ← session.receive wire
    if tag = finish then
      let index ← parseIndex data
      if some index ≠ session.active then .error .corrupt
      else .ok ([], { contents with ended := true }, { session with active := none })
    else if tag ≠ Tag.data ∨ data = [] then .error .corrupt
    else
      let (bytes, contents) := { contents with pending := data, offset := 0 }.readPending size
      .ok (bytes, contents, session)
  else
    let (bytes, contents) := contents.readPending size
    .ok (bytes, contents, session)

end Contents

end Arclain.Import
