import Mathlib.Data.List.Basic

namespace Arclain.Appending

/-!
# Computations that append to a log

A computation over a state that keeps a log either returns a value or fails; either way it
has added something to the log.  `Appends` says what that can be in both cases.
-/

variable {Error State Item Value Result : Type}

def Appends (log : State → List Item) (action : EStateM Error State Value)
    (returned : Value → List Item → Prop) (failed : List Item → Prop) : Prop :=
  ∀ state,
    match action state with
    | .ok value next => ∃ added, log next = log state ++ added ∧ returned value added
    | .error _ next => ∃ added, log next = log state ++ added ∧ failed added

section

variable {log : State → List Item} {action : EStateM Error State Value}
  {returned : Value → List Item → Prop}
  {failed : List Item → Prop}

theorem appends_pure {value : Value} (holds : returned value []) :
    Appends log (pure value : EStateM Error State Value) returned failed :=
  fun _ => ⟨[], (List.append_nil _).symm, holds⟩

theorem appends_throw {error : Error} (holds : failed []) :
    Appends log (throw error : EStateM Error State Value) returned failed :=
  fun _ => ⟨[], (List.append_nil _).symm, holds⟩

theorem Appends.bind {next : Value → EStateM Error State Result}
    {returnedNext : Result → List Item → Prop} {failedNext : List Item → Prop}
    (first : Appends log action returned failed) (fails : ∀ added, failed added → failedNext added)
    (second : ∀ value added, returned value added → Appends log (next value)
      (fun result more => returnedNext result (added ++ more))
      (fun more => failedNext (added ++ more))) :
    Appends log (action >>= next) returnedNext failedNext := by
  intro state
  have found := first state
  change match EStateM.bind action next state with
    | .ok value next => ∃ added, log next = log state ++ added ∧ returnedNext value added
    | .error _ next => ∃ added, log next = log state ++ added ∧ failedNext added
  unfold EStateM.bind
  cases ran : action state with
  | error error middle =>
    rw [ran] at found
    obtain ⟨added, isAdded, holds⟩ := found
    exact ⟨added, isAdded, fails added holds⟩
  | ok value middle =>
    rw [ran] at found
    obtain ⟨added, isAdded, holds⟩ := found
    have later := second value added holds middle
    simp only
    cases ranNext : next value middle with
    | error error final | ok result final =>
      rw [ranNext] at later
      obtain ⟨more, isMore, holdsNext⟩ := later
      exact ⟨added ++ more, by rw [isMore, isAdded, List.append_assoc], holdsNext⟩

theorem Appends.mono {returnedWeaker : Value → List Item → Prop} {failedWeaker : List Item → Prop}
    (appends : Appends log action returned failed)
    (returns : ∀ value added, returned value added → returnedWeaker value added)
    (fails : ∀ added, failed added → failedWeaker added) :
    Appends log action returnedWeaker failedWeaker := by
  intro state
  have found := appends state
  cases ran : action state with
  | error error next =>
    rw [ran] at found
    obtain ⟨added, isAdded, holds⟩ := found
    exact ⟨added, isAdded, fails added holds⟩
  | ok value next =>
    rw [ran] at found
    obtain ⟨added, isAdded, holds⟩ := found
    exact ⟨added, isAdded, returns value added holds⟩

theorem appends_guard {condition : Prop} [Decidable condition] {error : Error} (holds : failed [])
    (otherwise : ¬ condition → Appends log action returned failed) :
    Appends log (if condition then throw error else action) returned failed := by
  split
  · exact appends_throw holds
  next fails => exact otherwise fails

end

def fromExcept (result : Except Error Value) : EStateM Error State Value :=
  match result with
  | .ok value => pure value
  | .error error => throw error

theorem appends_fromExcept_bind {log : State → List Item} {result : Except Error Value}
    {next : Value → EStateM Error State Result} {returned : Result → List Item → Prop}
    {failed : List Item → Prop} (fails : failed [])
    (goesOn : ∀ value, result = .ok value → Appends log (next value) returned failed) :
    Appends log (fromExcept result >>= next) returned failed := by
  cases result with
  | error error => exact appends_throw fails
  | ok value => exact goesOn value rfl

end Arclain.Appending
