import Mathlib.Data.List.Perm.Basic
import Arclain.ActionRun

namespace Arclain.Locking

/-!
# Concurrent calls under locks

Calls run concurrently over shared data, each with the locks it holds and perhaps one it
waits for.  There is no deadlock where every blocked call is blocked by one of lower rank.
-/

open List

inductive Mode where
  | shared
  | exclusive
  deriving DecidableEq

/-- Where calls may start, the locks they hold, the lock they wait for, and the steps they
can take once they have it. -/
structure Protocol (Call Lock Shared : Type) where
  starts : Call → Bool
  hasReturned : Call → Bool
  held : Call → List (Lock × Mode)
  wanted : Call → Option (Lock × Mode)
  moves : Shared → Call → List (Shared × Call)

/-- The calls that have been made, each where it is, and the data they share. -/
structure System (Call Shared : Type) where
  calls : List Call
  shared : Shared

/-- A call is made, or one of the calls takes one of its steps. -/
inductive Event (Call : Type) where
  | begins (call : Call)
  | advances (index choice : Nat)

namespace Protocol

variable {Call Lock Shared : Type} [DecidableEq Lock] (protocol : Protocol Call Lock Shared)

/-- The other calls leave the lock for the mode. -/
def grants (others : List Call) (lock : Lock) : Mode → Bool
  | .shared => others.all fun call => (lock, .exclusive) ∉ protocol.held call
  | .exclusive => others.all fun call => lock ∉ (protocol.held call).map Prod.fst

def mayMove (others : List Call) (call : Call) : Bool :=
  match protocol.wanted call with
  | none => true
  | some (lock, mode) => protocol.grants others lock mode

def successors (others : List Call) (shared : Shared) (call : Call) : List (Shared × Call) :=
  if protocol.mayMove others call then protocol.moves shared call else []

def apply (system : System Call Shared) : Event Call → Option (System Call Shared)
  | .begins call =>
    if protocol.starts call then some { system with calls := call :: system.calls }
    else none
  | .advances index choice => do
    let call ← system.calls[index]?
    let (shared, next) ←
      (protocol.successors (system.calls.eraseIdx index) system.shared call)[choice]?
    return ⟨system.calls.set index next, shared⟩

def Deadlocked (system : System Call Shared) : Prop :=
  (∃ call ∈ system.calls, protocol.hasReturned call = false) ∧ ∀ index : Fin system.calls.length,
    (protocol.successors (system.calls.eraseIdx index) system.shared
      system.calls[index]).isEmpty = true

instance (system : System Call Shared) : Decidable (protocol.Deadlocked system) :=
  inferInstanceAs (Decidable (_ ∧ _))

variable {protocol} {system next : System Call Shared} {event : Event Call}

theorem apply_cases (applied : protocol.apply system event = some next) :
    (∃ call, event = .begins call ∧ protocol.starts call = true ∧
      next = { system with calls := call :: system.calls }) ∨
      ∃ index choice call later, event = .advances index choice ∧ system.calls[index]? = some call ∧
        (protocol.successors (system.calls.eraseIdx index) system.shared
          call)[choice]? = some (next.shared, later) ∧
        system.calls.Perm (call :: system.calls.eraseIdx index) ∧
        next.calls.Perm (later :: system.calls.eraseIdx index) := by
  cases event with
  | begins call =>
    simp only [apply, Option.ite_none_right_eq_some, Option.some.injEq] at applied
    exact .inl ⟨call, rfl, applied.1, applied.2.symm⟩
  | advances index choice =>
    simp only [apply, Option.bind_eq_bind, Option.bind_eq_some_iff] at applied
    obtain ⟨call, found, ⟨_, later⟩, chosen, same⟩ := applied
    cases same
    obtain ⟨bound, rfl⟩ := List.getElem?_eq_some_iff.mp found
    exact .inr ⟨index, choice, _, later, rfl, found, chosen,
      (getElem_cons_eraseIdx_perm bound).symm, set_perm_cons_eraseIdx bound later⟩

variable {others : List Call}

theorem exists_holder {lock : Lock} {mode : Mode}
    (refused : protocol.grants others lock mode = false) :
    ∃ holder ∈ others, ∃ how, (lock, how) ∈ protocol.held holder ∧
      (mode = .shared → how = .exclusive) := by
  cases mode with
  | shared =>
    simp only [grants, all_eq_false, decide_eq_true_eq, not_not] at refused
    obtain ⟨holder, mem, holds⟩ := refused
    exact ⟨holder, mem, .exclusive, holds, fun _ => rfl⟩
  | exclusive =>
    simp only [grants, all_eq_false, decide_eq_true_eq, not_not, mem_map] at refused
    obtain ⟨holder, mem, ⟨_, how⟩, holds, rfl⟩ := refused
    exact ⟨holder, mem, how, holds, nofun⟩

theorem not_deadlocked_of_rank {system : System Call Shared} (rank : Call → Nat)
    (keptBack : ∀ {call others}, system.calls.Perm (call :: others) →
      protocol.hasReturned call = false →
      protocol.successors others system.shared call = [] → ∃ blocker ∈ others,
        protocol.hasReturned blocker = false ∧ rank blocker < rank call) :
    ¬ protocol.Deadlocked system := by
  rintro ⟨⟨call, mem, unfinished⟩, stuck⟩
  -- From any unfinished call one would descend for ever.
  induction bound : rank call using Nat.strongRecOn generalizing call with
  | ind _ ih =>
    obtain ⟨index, inRange, rfl⟩ := getElem_of_mem mem
    have split := (getElem_cons_eraseIdx_perm inRange).symm
    have stays := isEmpty_iff.mp (stuck ⟨index, inRange⟩)
    obtain ⟨blocker, other, running, lower⟩ := keptBack split unfinished stays
    exact ih (rank blocker) (bound ▸ lower) blocker
      (split.mem_iff.mpr (mem_cons_of_mem _ other)) running rfl

theorem mem_successors {shared : Shared} {call : Call} {step : Shared × Call} :
    step ∈ protocol.successors others shared call ↔
      protocol.mayMove others call = true ∧ step ∈ protocol.moves shared call := by
  unfold successors
  split
  next may => simp [may]
  next mayNot => simp [mayNot]

end Protocol

end Arclain.Locking
