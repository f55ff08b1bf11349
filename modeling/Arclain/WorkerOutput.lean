import Arclain.Appending
import Arclain.ImportTranscript

namespace Arclain.Import.Worker

open List Appending

/-!
# What the worker writes

The worker's main thread writes frames and checks its source; its log has both in their
order.  A write may fail at any time.

An entry is emitted from a reader, which is what each of its reads returns, no more bytes
than fit into a frame.
-/

/-- What is observed of the worker: a frame that it sent, or that its source was
verified. -/
inductive Event where
  | sent (frame : RawFrame)
  | verified

/-- The log of the worker, and whether its next writes fail. -/
structure Output where
  log : List Event
  failures : List Bool

/-- A computation of the worker. -/
abbrev Work (Value : Type) := EStateM ImportError Output Value

/-- `frame`. -/
def send (tag : UInt8) (bytes : Bytes) : Work Unit := fun output =>
  if maxFrame < bytes.length then .error .limit output
  else if output.failures.headD false then
    .error .io { output with failures := output.failures.tail }
  else
    .ok ()
      { log := output.log ++ [.sent (tag, bytes)]
        failures := output.failures.tail }

/-- `Source::verify`, with its outcome. -/
def verify (outcome : Except ImportError Unit) : Work Unit := fun output =>
  match outcome with
  | .ok _ => .ok () { output with log := output.log ++ [.verified] }
  | .error error => .error error output

/-- A read into the buffer of `emit`, which may fail. -/
abbrev Read := Option { bytes : Bytes // bytes.length ≤ maxFrame }

/-- The loop of `emit`: the number of bytes that were emitted. -/
def emitLoop (declared : Nat) : List Read → Nat → Work Nat
  | [], total => pure total
  | none :: _, _ => throw .corrupt
  | some chunk :: reads, total =>
    if chunk.1 = [] then pure total
    else
      let total := total + chunk.1.length
      if 2 ^ 64 ≤ total then throw .limit
      else if declared < total then throw .corrupt
      else do
        send Tag.data chunk.1
        emitLoop declared reads total

def emit (index declared : Nat) (reads : List Read) : Work Unit := do
  send Tag.begin (indexBytes index)
  let total ← emitLoop declared reads 0
  if total ≠ declared then throw .corrupt
  else send Tag.finish (indexBytes index)

def eventsOf (streams : List Stream) : List Event := (streams.flatMap Stream.frames).map .sent

def Unfinished (count : Nat) (added : List Event) : Prop :=
  ∃ streams : List Stream,
    (∀ stream ∈ streams, stream.WellFormed count) ∧ added <+: eventsOf streams

section

variable {count : Nat}

theorem eventsOf_append (first second : List Stream) :
    eventsOf (first ++ second) = eventsOf first ++ eventsOf second := by
  simp [eventsOf]

theorem unfinished_nil : Unfinished count [] := ⟨[], by simp, nil_prefix⟩

variable {added : List Event}

theorem Unfinished.append {streams : List Stream}
    (wellFormed : ∀ stream ∈ streams, stream.WellFormed count)
    (unfinished : Unfinished count added) : Unfinished count (eventsOf streams ++ added) := by
  obtain ⟨others, othersWellFormed, isPart⟩ := unfinished
  refine ⟨streams ++ others, ?_, ?_⟩
  · intro stream mem
    rcases mem_append.mp mem with inFirst | inSecond
    · exact wellFormed stream inFirst
    · exact othersWellFormed stream inSecond
  · rw [eventsOf_append]
    exact (prefix_append_right_inj _).mpr isPart

theorem unfinished_begun {index : Nat} {parts : List Bytes}
    (inInventory : index < count) (nonempty : ∀ part ∈ parts, part ≠ [])
    (isPart : added <+: (Stream.begun ⟨index, parts⟩).map .sent) : Unfinished count added := by
  refine ⟨[⟨index, parts⟩], ?_, isPart.trans ?_⟩
  · intro _ mem
    obtain rfl := mem_singleton.mp mem
    exact ⟨inInventory, nonempty⟩
  · rw [eventsOf, flatMap_singleton, Stream.frames, map_append]
    exact prefix_append _ _

theorem send_appends (tag : UInt8) (bytes : Bytes) : Appends Output.log (send tag bytes)
    (fun _ added => added = [.sent (tag, bytes)] ∧ bytes.length ≤ maxFrame)
    (fun added => added = []) := by
  intro _
  unfold send
  split
  next next ran =>
    split at ran
    · cases ran
    · split at ran
      · cases ran
      next fits _ =>
        cases ran
        exact ⟨_, rfl, rfl, Nat.le_of_not_lt fits⟩
  next next ran =>
    refine ⟨[], ?_, rfl⟩
    rw [append_nil]
    split at ran
    · cases ran
      rfl
    · split at ran
      · cases ran
        rfl
      · cases ran

theorem verify_appends (outcome : Except ImportError Unit) : Appends Output.log (verify outcome)
    (fun _ added => added = [.verified] ∧ outcome = .ok ())
    (fun added => added = []) := by
  intro _
  cases outcome with
  | error error => exact ⟨[], (append_nil _).symm, rfl⟩
  | ok => exact ⟨_, rfl, rfl, rfl⟩

variable {reads : List Read}

theorem emitLoop_appends {declared total : Nat} :
    Appends Output.log (emitLoop declared reads total) (fun final added => ∃ parts : List Bytes,
      added = parts.map (fun part => .sent (Tag.data, part)) ∧
        (∀ part ∈ parts, part ≠ []) ∧ final = total + parts.flatten.length)
      (fun added => ∃ parts : List Bytes, added = parts.map (fun part => .sent (Tag.data, part)) ∧
        ∀ part ∈ parts, part ≠ []) := by
  induction reads generalizing total with
  | nil => exact appends_pure ⟨[], rfl, by simp, rfl⟩
  | cons read reads ih =>
    cases read with
    | none => exact appends_throw ⟨[], rfl, by simp⟩
    | some chunk =>
      rw [emitLoop]
      split
      · exact appends_pure ⟨[], rfl, by simp, rfl⟩
      next isSome =>
        refine appends_guard ⟨[], rfl, by simp⟩ fun _ => ?_
        refine appends_guard ⟨[], rfl, by simp⟩ fun _ => ?_
        refine (send_appends _ _).bind ?_ ?_
        · rintro added rfl
          exact ⟨[], rfl, by simp⟩
        · rintro _ added ⟨rfl, _⟩
          refine ih.mono ?_ ?_
          · rintro final more ⟨parts, rfl, nonempty, rfl⟩
            refine ⟨chunk.1 :: parts, rfl, ?_, ?_⟩
            · exact forall_mem_cons.mpr ⟨isSome, nonempty⟩
            · rw [flatten_cons, length_append]
              omega
          · rintro more ⟨parts, rfl, nonempty⟩
            exact ⟨chunk.1 :: parts, rfl, forall_mem_cons.mpr ⟨isSome, nonempty⟩⟩

theorem emit_appends {index declared : Nat} (inInventory : index < count) :
    Appends Output.log (emit index declared reads) (fun _ added => ∃ parts : List Bytes,
      added = eventsOf [⟨index, parts⟩] ∧ (∀ part ∈ parts, part ≠ []) ∧
        parts.flatten.length = declared)
      (Unfinished count) := by
  refine (send_appends _ _).bind ?_ ?_
  · rintro added rfl
    exact unfinished_nil
  · rintro _ added ⟨rfl, _⟩
    refine emitLoop_appends.bind ?_ ?_
    · rintro added ⟨parts, rfl, nonempty⟩
      refine unfinished_begun inInventory nonempty ?_
      simp [Stream.begun, Function.comp_def]
    · rintro total added ⟨parts, rfl, nonempty, _⟩
      have begun : Unfinished count ([.sent (Tag.begin, indexBytes index)] ++
          (parts.map (fun part => Event.sent (Tag.data, part)) ++ [])) := by
        refine unfinished_begun inInventory nonempty ?_
        simp [Stream.begun, Function.comp_def]
      refine appends_guard begun fun isWhole => ?_
      refine (send_appends _ _).mono ?_ ?_
      · rintro _ more ⟨rfl, _⟩
        refine ⟨parts, ?_, nonempty, ?_⟩
        · simp [eventsOf, Stream.frames, Stream.begun]
        · have same := not_not.mp isWhole
          omega
      · rintro more rfl
        exact begun

end

end Arclain.Import.Worker
