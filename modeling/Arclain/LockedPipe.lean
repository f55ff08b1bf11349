import Arclain.ActionRun

namespace Arclain.LockedPipe

/-!
# Items written whole under a lock

Several writers share one stream of bytes.  A writer takes the lock, writes one item piece
by piece, and gives the lock back.
-/

open List Option ActionRun

variable {Writer Item Byte Error : Type}

/-- An encoding of items of which the reader finds the end. -/
structure Codec (Item Byte Error : Type) where
  encode : Item → List Byte
  read : List Byte → Except Error (Item × List Byte)
  truncated : Error
  read_encode : ∀ item rest, read (encode item ++ rest) = .ok (item, rest)
  read_take : ∀ item count, count < (encode item).length →
    read ((encode item).take count) = .error truncated
  read_nil : read [] = .error truncated
  encode_length_pos : ∀ item, 0 < (encode item).length

namespace Codec

variable (codec : Codec Item Byte Error)

def encodeAll (items : List Item) : List Byte := items.flatMap codec.encode

/-- Read items until the reader fails.  Every item that is read is spent from the
fuel. -/
def readAll : Nat → List Byte → List Item × Option Error
  | 0, _ => ([], none)
  | fuel + 1, bytes =>
    match codec.read bytes with
    | .error error => ([], some error)
    | .ok (item, rest) => (item :: (readAll fuel rest).1, (readAll fuel rest).2)

variable {codec}

end Codec

/-- The stream, the writer with the lock and what is left to write, and the items in order. -/
structure Pipe (Writer Item Byte : Type) where
  written : List Byte
  holder : Option (Writer × List Byte)
  log : List (Writer × Item)

def Pipe.empty : Pipe Writer Item Byte where
  written := []
  holder := none
  log := []

inductive Action (Writer Item : Type) where
  | lock (writer : Writer) (item : Item)
  | put (count : Nat)
  | unlock

/-- The lock is taken while it is free, bytes are written by its holder, and it is given
back once the item is written. -/
def step (codec : Codec Item Byte Error) (pipe : Pipe Writer Item Byte) :
    Action Writer Item → Option (Pipe Writer Item Byte)
  | .lock writer item =>
    match pipe.holder with
    | none =>
      some { pipe with
        holder := some (writer, codec.encode item)
        log := pipe.log ++ [(writer, item)] }
    | some _ => none
  | .put count =>
    match pipe.holder with
    | none => none
    | some (writer, pending) =>
      some { pipe with
        written := pipe.written ++ pending.take count
        holder := some (writer, pending.drop count) }
  | .unlock =>
    match pipe.holder with
    | some (_, []) => some { pipe with holder := none }
    | _ => none

section

variable {codec : Codec Item Byte Error} {pipe next final : Pipe Writer Item Byte}
  {action : Action Writer Item}

theorem step_lock {writer : Writer} {item : Item} :
    step codec pipe (.lock writer item) = some next ↔ pipe.holder = none ∧
      { pipe with
        holder := some (writer, codec.encode item)
        log := pipe.log ++ [(writer, item)] } = next := by
  cases held : pipe.holder <;> simp [step, held]

theorem step_put {count : Nat} : step codec pipe (.put count) = some next ↔
    ∃ writer pending, pipe.holder = some (writer, pending) ∧
      { pipe with
        written := pipe.written ++ pending.take count
        holder := some (writer, pending.drop count) } = next := by
  cases held : pipe.holder with
  | none => simp [step, held]
  | some holder =>
    obtain ⟨writer, pending⟩ := holder
    simp [step, held]

theorem step_unlock : step codec pipe .unlock = some next ↔
    (∃ writer, pipe.holder = some (writer, [])) ∧ { pipe with holder := none } = next := by
  cases held : pipe.holder with
  | none => simp [step, held]
  | some holder =>
    obtain ⟨writer, pending⟩ := holder
    cases pending <;> simp [step, held]

/-- The bytes that the holder of the lock has yet to write. -/
def Pipe.pending (pipe : Pipe Writer Item Byte) : List Byte := pipe.holder.elim [] Prod.snd

def Pipe.items (pipe : Pipe Writer Item Byte) : List Item := pipe.log.map Prod.snd

def Pipe.Whole (codec : Codec Item Byte Error) (pipe : Pipe Writer Item Byte) : Prop :=
  codec.encodeAll pipe.items = pipe.written ++ pipe.pending

theorem Pipe.Whole.step (isWhole : pipe.Whole codec)
    (taken : LockedPipe.step codec pipe action = some next) : next.Whole codec := by
  cases action with
  | lock writer item =>
    obtain ⟨isFree, rfl⟩ := step_lock.mp taken
    have bytes : codec.encodeAll pipe.items = pipe.written := by
      rw [isWhole, pending, isFree, elim_none, append_nil]
    change codec.encodeAll ((pipe.log ++ [(writer, item)]).map Prod.snd) =
      pipe.written ++ codec.encode item
    rw [map_append, Codec.encodeAll, flatMap_append]
    refine congrArg₂ (· ++ ·) bytes ?_
    simp
  | put count =>
    obtain ⟨writer, pending, held, rfl⟩ := step_put.mp taken
    have bytes : codec.encodeAll pipe.items = pipe.written ++ pending := by
      rw [isWhole, Pipe.pending, held, elim_some]
    change codec.encodeAll pipe.items = pipe.written ++ pending.take count ++ pending.drop count
    rw [bytes, append_assoc, take_append_drop]
  | unlock =>
    obtain ⟨⟨writer, held⟩, rfl⟩ := step_unlock.mp taken
    have bytes : codec.encodeAll pipe.items = pipe.written ++ [] := by
      rw [isWhole, pending, held, elim_some]
    exact bytes

variable {actions : List (Action Writer Item)}

end

end Arclain.LockedPipe
