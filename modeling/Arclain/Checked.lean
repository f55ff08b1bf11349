import Mathlib.Data.List.Basic

namespace Arclain.Checked

/-!
# Computations that may panic

Arithmetic on machine words and indexing either have a result or panic; a loop on fuel may
be left unfinished; and a computation may refuse its input, which is an answer.  `Meets`
says that a computation answers, and what it returns.
-/

universe u

inductive Failure (Error : Type*) where
  | refused (error : Error)
  | panicked
  | unfinished
  deriving DecidableEq

/-- A computation that may fail. -/
abbrev Attempt (Error : Type*) (Value : Type u) := Except (Failure Error) Value

variable {Error Item : Type*} {Value Result State : Type u}

def Meets (attempt : Attempt Error Value) (property : Value → Prop) : Prop :=
  match attempt with
  | .ok value => property value
  | .error (.refused _) => True
  | .error .panicked | .error .unfinished => False

def refuse (error : Error) : Attempt Error Value := .error (.refused error)

def required (error : Error) (found : Option Value) : Attempt Error Value :=
  match found with
  | some value => .ok value
  | none => refuse error

/-- The sum of two words, which are below the limit. -/
def plus (limit left right : Nat) : Attempt Error Nat :=
  if left + right < limit then .ok (left + right)
  else .error .panicked

def minus (left right : Nat) : Attempt Error Nat :=
  if right ≤ left then .ok (left - right)
  else .error .panicked

def item (items : List Value) (index : Nat) : Attempt Error Value :=
  match items[index]? with
  | some value => .ok value
  | none => .error .panicked

def slice (items : List Value) (first last : Nat) : Attempt Error (List Value) :=
  if first ≤ last ∧ last ≤ items.length then .ok ((items.take last).drop first)
  else .error .panicked

/-- A sum of two words, if it is below the limit. -/
def checkedPlus (limit left right : Nat) : Option Nat :=
  if left + right < limit then some (left + right)
  else none

def get (items : List Item) (first last : Nat) : Option (List Item) :=
  if first ≤ last ∧ last ≤ items.length then some ((items.take last).drop first)
  else none

def whileFuel (continues : State → Bool) (body : State → Attempt Error State) :
    Nat → State → Attempt Error State
  | 0, state => if continues state then .error .unfinished else .ok state
  | fuel + 1, state =>
    if continues state then body state >>= whileFuel continues body fuel
    else .ok state

section

variable {attempt : Attempt Error Value} {property weaker : Value → Prop} {limit left right : Nat}

theorem Meets.of_ok {value : Value} (meets : Meets attempt property)
    (returned : attempt = .ok value) : property value := by
  rw [returned] at meets
  exact meets

theorem Meets.answers (meets : Meets attempt property) :
    attempt ≠ .error .panicked ∧ attempt ≠ .error .unfinished := by
  constructor
  · rintro rfl
    exact meets
  · rintro rfl
    exact meets

theorem meets_ok {value : Value} (holds : property value) :
    Meets (.ok value : Attempt Error Value) property :=
  holds

theorem meets_refuse (error : Error) : Meets (refuse error : Attempt Error Value) property :=
  trivial

theorem Meets.mono (meets : Meets attempt property)
    (weakens : ∀ value, property value → weaker value) : Meets attempt weaker := by
  cases attempt with
  | ok value => exact weakens value meets
  | error failure =>
    cases failure with
    | refused error => trivial
    | panicked | unfinished => exact meets

theorem Meets.bind {next : Value → Attempt Error Result} {final : Result → Prop}
    (first : Meets attempt property) (second : ∀ value, property value → Meets (next value) final) :
    Meets (attempt >>= next) final := by
  cases attempt with
  | ok value => exact second value first
  | error failure =>
    cases failure with
    | refused error => trivial
    | panicked | unfinished => exact first

variable {error : Error}

theorem meets_guard {condition : Prop} [Decidable condition]
    (otherwise : ¬ condition → Meets attempt property) :
    Meets (if condition then refuse error else attempt) property := by
  split
  · exact meets_refuse error
  next fails => exact otherwise fails

theorem meets_required {found : Option Value}
    (holds : ∀ value, found = some value → property value) :
    Meets (required error found) property := by
  cases found with
  | none => exact meets_refuse error
  | some value => exact holds value rfl

variable {items : List Value}

theorem meets_required_getElem? {index : Nat} :
    Meets (required error items[index]?) fun _ => index < items.length :=
  meets_required fun _ found => (List.getElem?_eq_some_iff.mp found).1

theorem meets_plus (fits : left + right < limit) :
    Meets (plus limit left right : Attempt Error Nat) (· = left + right) := by
  rw [plus, if_pos fits]
  rfl

theorem meets_minus (fits : right ≤ left) :
    Meets (minus left right : Attempt Error Nat) (· = left - right) := by
  rw [minus, if_pos fits]
  rfl

theorem meets_item {index : Nat} (inside : index < items.length) :
    Meets (item items index : Attempt Error Value) (items[index]? = some ·) := by
  rw [item, List.getElem?_eq_getElem inside]
  rfl

variable {first last : Nat}

theorem meets_slice (ordered : first ≤ last) (inside : last ≤ items.length) :
    Meets (slice items first last : Attempt Error (List Value)) (·.length = last - first) := by
  rw [slice, if_pos ⟨ordered, inside⟩]
  change ((items.take last).drop first).length = last - first
  simp [Nat.min_eq_left inside]

theorem checkedPlus_eq_some {sum : Nat} : checkedPlus limit left right = some sum ↔
    sum = left + right ∧ left + right < limit := by
  unfold checkedPlus
  split
  next fits => simp [fits, eq_comm]
  next overflows => simp [overflows]

theorem get_eq_some {items part : List Item} : get items first last = some part ↔
    first ≤ last ∧ last ≤ items.length ∧ part = (items.take last).drop first := by
  unfold get
  split
  next inside => simp [inside, eq_comm]
  next outside =>
    constructor
    · intro found
      cases found
    · rintro ⟨ordered, inside, _⟩
      exact absurd ⟨ordered, inside⟩ outside

theorem length_of_get {items part : List Item} (found : get items first last = some part) :
    first ≤ last ∧ last ≤ items.length ∧ part.length = last - first := by
  obtain ⟨ordered, inside, rfl⟩ := get_eq_some.mp found
  refine ⟨ordered, inside, ?_⟩
  simp [Nat.min_eq_left inside]

theorem meets_whileFuel {continues : State → Bool} {body : State → Attempt Error State}
    (invariant : State → Prop) (size : State → Nat)
    (kept : ∀ state, invariant state → continues state = true →
      Meets (body state) fun next => invariant next ∧ size next < size state)
    {fuel : Nat} {state : State} (holds : invariant state) (enough : size state ≤ fuel)
    (positive : ∀ state, invariant state → continues state = true → 0 < size state) :
    Meets (whileFuel continues body fuel state) fun final =>
      invariant final ∧ continues final = false := by
  induction fuel generalizing state with
  | zero =>
    rw [whileFuel]
    split
    next goesOn =>
      have some := positive state holds goesOn
      omega
    next stops => exact ⟨holds, Bool.eq_false_iff.mpr stops⟩
  | succ fuel ih =>
    rw [whileFuel]
    split
    next goesOn =>
      refine (kept state holds goesOn).bind ?_
      rintro next ⟨holdsNext, _⟩
      exact ih holdsNext (by omega)
    next stops => exact ⟨holds, Bool.eq_false_iff.mpr stops⟩

end

end Arclain.Checked
