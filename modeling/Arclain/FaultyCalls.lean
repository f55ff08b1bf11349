import Mathlib.Logic.Function.Basic

namespace Arclain.FaultyCalls

/-!
# Calls that may fail or be the last

A computation over stores outside the process is a sequence of labelled calls.  What becomes
of the calls of one label is a list of fates; once it is empty, every further call works.

`Triple` has three exits: the computation returns, it fails, or the process ends in one of
its calls.
-/

universe u

variable {Label State Error Reworded : Type*} {Value Result : Type u}

inductive Fate where
  | works
  | fails
  | failsAfterEffect
  | crashes
  | crashesAfterEffect
  deriving DecidableEq

/-- The fates of the coming calls, by label. -/
abbrev Fates (Label : Type*) := Label → List Fate

namespace Fates

def allWork : Fates Label := fun _ => []

def next (fates : Fates Label) (label : Label) : Fate := (fates label).headD .works

def spend [DecidableEq Label] (fates : Fates Label) (label : Label) : Fates Label :=
  Function.update fates label (fates label).tail

@[simp] theorem next_allWork (label : Label) : (allWork : Fates Label).next label = .works := rfl

@[simp] theorem spend_allWork [DecidableEq Label] (label : Label) :
    (allWork : Fates Label).spend label = allWork := by
  funext other
  by_cases same : other = label
  · subst other
    simp [spend, allWork]
  · simp [spend, allWork, same]

variable {fates : Fates Label}

theorem next_of_nil {label : Label} (usedUp : fates label = []) : fates.next label = .works := by
  rw [next, usedUp]
  rfl

theorem spend_of_nil [DecidableEq Label] {label : Label}
    (usedUp : fates label = []) : fates.spend label = fates := by
  rw [spend, usedUp, List.tail_nil, ← usedUp, Function.update_eq_self]

@[simp] theorem next_spend_of_ne [DecidableEq Label] {label other : Label}
    (different : other ≠ label) : (fates.spend label).next other = fates.next other := by
  simp [next, spend, different]

end Fates

inductive Ending (Label State Error : Type*) (Value : Type u) where
  | returned (value : Value) (state : State) (fates : Fates Label)
  | failed (error : Error) (state : State) (fates : Fates Label)
  | crashed (state : State)

def Ending.state : Ending Label State Error Value → State
  | .returned _ state _ | .failed _ state _ | .crashed state => state

def Ending.hasReturned : Ending Label State Error Value → Bool
  | .returned _ _ _ => true
  | _ => false

def Ending.hasFailed : Ending Label State Error Value → Bool
  | .failed _ _ _ => true
  | _ => false

def Faulty (Label State Error : Type*) (Value : Type u) :=
  State → Fates Label → Ending Label State Error Value

namespace Faulty

def throw (error : Error) : Faulty Label State Error Value :=
  fun state fates => .failed error state fates

def andThen (first : Faulty Label State Error Value)
    (second : Value → Faulty Label State Error Result) : Faulty Label State Error Result :=
  fun state fates =>
    match first state fates with
    | .returned value after rest => second value after rest
    | .failed error after rest => .failed error after rest
    | .crashed after => .crashed after

instance : Monad (Faulty Label State Error) where
  pure value := fun state fates => .returned value state fates
  bind := andThen

def call [DecidableEq Label] (label : Label) (refusal : Error)
    (effect : State → Value × State) : Faulty Label State Error Value :=
  fun state fates =>
    match fates.next label with
    | .works => .returned (effect state).1 (effect state).2 (fates.spend label)
    | .fails => .failed refusal state (fates.spend label)
    | .failsAfterEffect => .failed refusal (effect state).2 (fates.spend label)
    | .crashes => .crashed state
    | .crashesAfterEffect => .crashed (effect state).2

/-- A change that is no call and cannot fail. -/
def update (effect : State → Value × State) : Faulty Label State Error Value :=
  fun state fates => .returned (effect state).1 (effect state).2 fates

/-- A look at the state that is no call and cannot fail. -/
def inspect (read : State → Value) : Faulty Label State Error Value :=
  update fun state => (read state, state)

def forEach {Item : Type*} (program : Item → Faulty Label State Error PUnit) :
    List Item → Faulty Label State Error PUnit
  | [] => pure ⟨⟩
  | item :: items => do
    program item
    forEach program items

def attempt (program : Faulty Label State Error Value) :
    Faulty Label State Error (Except Error Value) :=
  fun state fates =>
    match program state fates with
    | .returned value after rest => .returned (.ok value) after rest
    | .failed error after rest => .returned (.error error) after rest
    | .crashed after => .crashed after

def mapError (reword : Error → Reworded) (program : Faulty Label State Error Value) :
    Faulty Label State Reworded Value :=
  fun state fates =>
    match program state fates with
    | .returned value after rest => .returned value after rest
    | .failed error after rest => .failed (reword error) after rest
    | .crashed after => .crashed after

def within {Outer : Type*} (part : Outer → State) (replace : Outer → State → Outer)
    (program : Faulty Label State Error Value) : Faulty Label Outer Error Value :=
  fun outer fates =>
    match program (part outer) fates with
    | .returned value after rest => .returned value (replace outer after) rest
    | .failed error after rest => .failed error (replace outer after) rest
    | .crashed after => .crashed (replace outer after)

section

variable {state after : State} {fates rest : Fates Label} {value : Value}

variable {error : Error}

variable {first : Faulty Label State Error Value} {second : Value → Faulty Label State Error Result}

theorem run_bind_of_returned (returned : first state fates = .returned value after rest) :
    (first >>= second) state fates = second value after rest := by
  change andThen first second state fates = _
  rw [andThen, returned]

theorem run_bind_of_failed (failed : first state fates = .failed error after rest) :
    (first >>= second) state fates = .failed error after rest := by
  change andThen first second state fates = _
  rw [andThen, failed]

theorem bind_assoc {Later : Type u} (first : Faulty Label State Error Value)
    (second : Value → Faulty Label State Error Result)
    (third : Result → Faulty Label State Error Later) :
    (first >>= second) >>= third = first >>= fun value => second value >>= third := by
  funext state fates
  change andThen (andThen first second) third state fates =
    andThen first (fun value => andThen (second value) third) state fates
  unfold andThen
  cases first state fates with
  | returned value after rest | failed _ after rest | crashed after => rfl

theorem bind_pure (program : Faulty Label State Error Value) : program >>= pure = program := by
  funext state fates
  change andThen program pure state fates = _
  unfold andThen
  cases program state fates with
  | returned _ after rest | failed _ after rest | crashed after => rfl

theorem returned_of_bind {result : Result}
    (returned : (first >>= second) state fates = .returned result after rest) :
    ∃ value between left, first state fates = .returned value between left ∧
      second value between left = .returned result after rest := by
  change andThen first second state fates = _ at returned
  unfold andThen at returned
  cases ended : first state fates with
  | returned value between left =>
    rw [ended] at returned
    exact ⟨value, between, left, rfl, returned⟩
  | failed _ between left | crashed between =>
    rw [ended] at returned
    cases returned

variable {refusal : Error} {effect : State → Value × State}

theorem run_call_of_works [DecidableEq Label] {label : Label} (works : fates.next label = .works) :
    call label refusal effect state fates =
      .returned (effect state).1 (effect state).2 (fates.spend label) := by
  rw [call, works]

theorem run_call_of_fails [DecidableEq Label] {label : Label} (fails : fates.next label = .fails) :
    call label refusal effect state fates = .failed refusal state (fates.spend label) := by
  rw [call, fails]

variable {program : Faulty Label State Error Value}

theorem run_attempt_of_returned (returned : program state fates = .returned value after rest) :
    attempt program state fates = .returned (.ok value) after rest := by
  rw [attempt, returned]

theorem run_attempt_of_failed (failed : program state fates = .failed error after rest) :
    attempt program state fates = .returned (.error error) after rest := by
  rw [attempt, failed]

theorem run_mapError_of_returned {reword : Error → Reworded}
    (returned : program state fates = .returned value after rest) :
    mapError reword program state fates = .returned value after rest := by
  rw [mapError, returned]

end

end Faulty

/-- What holds at each exit of a computation. -/
structure Exits (State Error : Type*) (Value : Type u) where
  returned : Value → State → Prop
  failed : Error → State → Prop
  crashed : State → Prop

def Ending.Meets (ending : Ending Label State Error Value)
    (exits : Exits State Error Value) : Prop :=
  match ending with
  | .returned value state _ => exits.returned value state
  | .failed error state _ => exits.failed error state
  | .crashed state => exits.crashed state

/-- Whatever the fates, a computation that starts in the precondition ends at one of the
exits. -/
def Triple (before : State → Prop) (program : Faulty Label State Error Value)
    (exits : Exits State Error Value) : Prop :=
  ∀ state fates, before state → (program state fates).Meets exits

namespace Triple

variable {before : State → Prop} {returned : Value → State → Prop} {failed : Error → State → Prop}
  {crashed : State → Prop}

theorem pure {value : Value} (meets : ∀ state, before state → returned value state) :
    Triple before (Pure.pure value : Faulty Label State Error Value) ⟨returned, failed, crashed⟩ :=
  fun state _ => meets state

theorem throw {error : Error} (meets : ∀ state, before state → failed error state) :
    Triple before (Faulty.throw error : Faulty Label State Error Value)
      ⟨returned, failed, crashed⟩ :=
  fun state _ => meets state

theorem bind {first : Faulty Label State Error Value}
    {second : Value → Faulty Label State Error Result} {between : Value → State → Prop}
    {returned : Result → State → Prop} (firstMeets : Triple before first ⟨between, failed, crashed⟩)
    (secondMeets : ∀ value, Triple (between value) (second value) ⟨returned, failed, crashed⟩) :
    Triple before (first >>= second) ⟨returned, failed, crashed⟩ := by
  intro state fates holds
  change (Faulty.andThen first second state fates).Meets _
  have met := firstMeets state fates holds
  unfold Faulty.andThen
  cases ended : first state fates with
  | returned value after rest =>
    rw [ended] at met
    exact secondMeets value after rest met
  | failed _ after rest | crashed after =>
    rw [ended] at met
    exact met

variable {effect : State → Value × State}

theorem call [DecidableEq Label] {label : Label} {refusal : Error}
    (works : ∀ state, before state → returned (effect state).1 (effect state).2)
    (fails : ∀ state, before state → failed refusal state)
    (failsAfterEffect : ∀ state, before state → failed refusal (effect state).2)
    (crashes : ∀ state, before state → crashed state)
    (crashesAfterEffect : ∀ state, before state → crashed (effect state).2) :
    Triple before (Faulty.call label refusal effect) ⟨returned, failed, crashed⟩ := by
  intro state fates holds
  unfold Faulty.call
  cases fates.next label with
  | works => exact works state holds
  | fails => exact fails state holds
  | failsAfterEffect => exact failsAfterEffect state holds
  | crashes => exact crashes state holds
  | crashesAfterEffect => exact crashesAfterEffect state holds

variable {program : Faulty Label State Error Value}

theorem attempt {returned : Except Error Value → State → Prop} {never : Error → State → Prop}
    (meets : Triple before program ⟨fun value => returned (.ok value),
      fun error => returned (.error error), crashed⟩) :
    Triple before (Faulty.attempt program) ⟨returned, never, crashed⟩ := by
  intro state fates holds
  have met := meets state fates holds
  unfold Faulty.attempt
  cases ended : program state fates with
  | returned value after rest | failed error after rest | crashed after =>
    rw [ended] at met
    exact met

theorem mapError {reword : Error → Reworded} {failed : Reworded → State → Prop}
    (meets : Triple before program ⟨returned, fun error => failed (reword error), crashed⟩) :
    Triple before (Faulty.mapError reword program) ⟨returned, failed, crashed⟩ := by
  intro state fates holds
  have met := meets state fates holds
  unfold Faulty.mapError
  cases ended : program state fates with
  | returned _ after rest | failed error after rest | crashed after =>
    rw [ended] at met
    exact met

theorem within {Outer : Type*} {part : Outer → State} {replace : Outer → State → Outer}
    {frame : Outer → Prop} (meets : Triple before program ⟨returned, failed, crashed⟩)
    (reads : ∀ outer inner, part (replace outer inner) = inner)
    (framed : ∀ outer inner, frame outer → frame (replace outer inner)) :
    Triple (fun outer => before (part outer) ∧ frame outer) (Faulty.within part replace program)
      ⟨fun value outer => returned value (part outer) ∧ frame outer,
        fun error outer => failed error (part outer) ∧ frame outer,
        fun outer => crashed (part outer) ∧ frame outer⟩ := by
  intro outer fates holds
  have met := meets (part outer) fates holds.1
  unfold Faulty.within
  cases ended : program (part outer) fates with
  | returned value after rest | failed error after rest | crashed after =>
    rw [ended] at met
    refine ⟨?_, framed outer after holds.2⟩
    rw [reads]
    exact met

theorem unconstrained (program : Faulty Label State Error Value) : Triple before program
    ⟨fun _ _ => True, fun _ _ => True, fun _ => True⟩ := by
  intro state fates _
  cases program state fates with
  | returned _ after rest | failed _ after rest | crashed after => exact trivial

theorem assuming {fact : Prop} {exits : Exits State Error Value}
    (meets : fact → Triple before program exits) :
    Triple (fun state => before state ∧ fact) program exits :=
  fun state fates holds => meets holds.2 state fates holds.1

theorem consequence {stronger : State → Prop} {weaker : Exits State Error Value}
    (meets : Triple before program ⟨returned, failed, crashed⟩)
    (strengthens : ∀ state, stronger state → before state)
    (returns : ∀ value state, returned value state → weaker.returned value state)
    (fails : ∀ error state, failed error state → weaker.failed error state)
    (crashes : ∀ state, crashed state → weaker.crashed state) : Triple stronger program weaker := by
  intro state fates holds
  have met := meets state fates (strengthens state holds)
  cases ended : program state fates with
  | returned value after rest =>
    rw [ended] at met
    exact returns value after met
  | failed error after rest =>
    rw [ended] at met
    exact fails error after met
  | crashed after =>
    rw [ended] at met
    exact crashes after met

theorem of_stronger {stronger : State → Prop} {exits : Exits State Error Value}
    (meets : Triple before program exits) (strengthens : ∀ state, stronger state → before state) :
    Triple stronger program exits :=
  fun state fates holds => meets state fates (strengthens state holds)

theorem returning {weaker : Value → State → Prop}
    (meets : Triple before program ⟨returned, failed, crashed⟩)
    (returns : ∀ value state, returned value state → weaker value state) :
    Triple before program ⟨weaker, failed, crashed⟩ :=
  meets.consequence (fun _ => id) returns (fun _ _ => id) fun _ => id

theorem leaving {weaker : State → Prop}
    (meets : Triple before program ⟨returned, fun _ => crashed, crashed⟩)
    (leaves : ∀ state, crashed state → weaker state) :
    Triple before program ⟨returned, fun _ => weaker, weaker⟩ :=
  meets.consequence (fun _ => id) (fun _ _ => id) (fun _ => leaves) leaves

theorem update (meets : ∀ state, before state → returned (effect state).1 (effect state).2) :
    Triple before (Faulty.update effect : Faulty Label State Error Value)
      ⟨returned, failed, crashed⟩ :=
  fun state _ => meets state

theorem ending {after : State → Prop} {state : State}
    (meets : Triple before program ⟨fun _ => after, fun _ => after, after⟩)
    (holds : before state) (fates : Fates Label) : after (program state fates).state := by
  have met := meets state fates holds
  cases ended : program state fates with
  | returned _ reached rest | failed _ reached rest | crashed reached =>
    rw [ended] at met
    exact met

end Triple

/-- Whatever the fates, every exit of a computation keeps a property of the
state. -/
def Keeps (holds : State → Prop) (program : Faulty Label State Error Value) : Prop :=
  Triple holds program ⟨fun _ => holds, fun _ => holds, holds⟩

namespace Keeps

variable {holds : State → Prop}

theorem pure (value : Value) : Keeps holds (Pure.pure value : Faulty Label State Error Value) :=
  Triple.pure fun _ => id

theorem throw (error : Error) : Keeps holds (Faulty.throw error : Faulty Label State Error Value) :=
  Triple.throw fun _ => id

theorem bind {first : Faulty Label State Error Value}
    {second : Value → Faulty Label State Error Result} (firstKeeps : Keeps holds first)
    (secondKeeps : ∀ value, Keeps holds (second value)) : Keeps holds (first >>= second) :=
  Triple.bind firstKeeps secondKeeps

variable {effect : State → Value × State}

theorem call [DecidableEq Label] {label : Label} {refusal : Error}
    (kept : ∀ state, holds state → holds (effect state).2) :
    Keeps holds (Faulty.call label refusal effect) :=
  Triple.call kept (fun _ => id) kept (fun _ => id) kept

theorem update (kept : ∀ state, holds state → holds (effect state).2) :
    Keeps holds (Faulty.update effect : Faulty Label State Error Value) :=
  Triple.update kept

theorem inspect (read : State → Value) :
    Keeps holds (Faulty.inspect read : Faulty Label State Error Value) :=
  fun _ _ => id

variable {program : Faulty Label State Error Value}

theorem attempt (keeps : Keeps holds program) : Keeps holds (Faulty.attempt program) :=
  Triple.attempt keeps

theorem attempted {never : Error → State → Prop} (keeps : Keeps holds program) :
    Triple holds (Faulty.attempt program) ⟨fun _ => holds, never, holds⟩ :=
  Triple.attempt keeps

theorem within {Outer : Type*} {part : Outer → State} {replace : Outer → State → Outer}
    {frame : Outer → Prop} (program : Faulty Label State Error Value)
    (framed : ∀ outer inner, frame outer → frame (replace outer inner)) :
    Keeps frame (Faulty.within part replace program) := by
  intro outer fates holds
  unfold Faulty.within
  cases program (part outer) fates with
  | returned _ after rest | failed _ after rest | crashed after =>
    exact framed outer after holds

theorem mapError {reword : Error → Reworded} (keeps : Keeps holds program) :
    Keeps holds (Faulty.mapError reword program) :=
  Triple.mapError keeps

theorem ite {test : Prop} [Decidable test] {first second : Faulty Label State Error Value}
    (firstKeeps : Keeps holds first) (secondKeeps : Keeps holds second) :
    Keeps holds (if test then first else second) := by
  split
  · exact firstKeeps
  · exact secondKeeps

theorem forEach {Item : Type*} {program : Item → Faulty Label State Error PUnit}
    (keeps : ∀ item, Keeps holds (program item)) (items : List Item) :
    Keeps holds (Faulty.forEach program items) := by
  induction items with
  | nil => exact pure _
  | cons item items ih => exact (keeps item).bind fun _ => ih

end Keeps

/-- Every exit of a search keeps a property of the state, and what it finds is an answer. -/
def Finds (holds : State → Prop) (answer : Value → Prop)
    (program : Faulty Label State Error (Option Value)) : Prop :=
  Triple holds program
    ⟨fun found state => holds state ∧ ∀ value, found = some value → answer value,
      fun _ => holds, holds⟩

namespace Finds

variable {before holds : State → Prop} {answer : Value → Prop}

theorem nothing {failed : Error → State → Prop} {crashed : State → Prop}
    (kept : ∀ state, before state → holds state) :
    Triple before (Pure.pure none : Faulty Label State Error (Option Value))
      ⟨fun found state => holds state ∧ ∀ value, found = some value → answer value,
        failed, crashed⟩ :=
  Triple.pure fun state held => ⟨kept state held, nofun⟩

theorem orNothing {Failure : Type u} {program : Faulty Label State Failure (Option Value)}
    {second : Except Failure (Option Value) → Faulty Label State Failure (Option Value)}
    (finds : Finds holds answer program) (succeeds : ∀ found, second (.ok found) = Pure.pure found)
    (gives : ∀ error, second (.error error) = Pure.pure none) :
    Finds holds answer (Faulty.attempt program >>= second) := by
  have attempts : Triple holds (Faulty.attempt program)
      ⟨fun result state => holds state ∧ ∀ value, result = .ok (some value) → answer value,
        fun _ => holds, holds⟩ := by
    refine Triple.attempt (Triple.consequence finds (fun _ => id) ?_ ?_ fun _ => id)
    · exact fun found state held => ⟨held.1, fun value same => held.2 value (Except.ok.inj same)⟩
    · exact fun error state held => ⟨held, nofun⟩
  refine attempts.bind fun result => ?_
  cases result with
  | error error =>
    rw [gives]
    exact nothing fun _ held => held.1
  | ok found =>
    rw [succeeds]
    exact Triple.pure fun _ held =>
      ⟨held.1, fun value same => held.2 value (congrArg Except.ok same)⟩

end Finds

/-- Unless the process ends in it, a computation leaves an observation of the
state and of the coming fates as it was. -/
def Preserves {Seen : Type*} (observe : State → Fates Label → Seen)
    (program : Faulty Label State Error Value) : Prop :=
  ∀ state fates,
    match program state fates with
    | .returned _ after rest | .failed _ after rest => observe after rest = observe state fates
    | .crashed _ => True

namespace Preserves

variable {Seen : Type*} {observe : State → Fates Label → Seen}
variable {program : Faulty Label State Error Value}

theorem of_returned {value : Value} {state after : State} {fates rest : Fates Label}
    (preserves : Preserves observe program)
    (returned : program state fates = .returned value after rest) :
    observe after rest = observe state fates := by
  have seen := preserves state fates
  rw [returned] at seen
  exact seen

theorem pure (value : Value) :
    Preserves observe (Pure.pure value : Faulty Label State Error Value) :=
  fun _ _ => rfl

theorem throw (error : Error) :
    Preserves observe (Faulty.throw error : Faulty Label State Error Value) :=
  fun _ _ => rfl

theorem bind {first : Faulty Label State Error Value}
    {second : Value → Faulty Label State Error Result} (firstPreserves : Preserves observe first)
    (secondPreserves : ∀ value, Preserves observe (second value)) :
    Preserves observe (first >>= second) := by
  intro state fates
  change match Faulty.andThen first second state fates with
    | .returned _ after rest | .failed _ after rest => observe after rest = observe state fates
    | .crashed _ => True
  have seen := firstPreserves state fates
  unfold Faulty.andThen
  cases ended : first state fates with
  | returned value after rest =>
    rw [ended] at seen
    have next := secondPreserves value after rest
    rw [seen] at next
    exact next
  | failed _ after rest =>
    rw [ended] at seen
    exact seen
  | crashed after => trivial

theorem call [DecidableEq Label] {label : Label} {refusal : Error} {effect : State → Value × State}
    (unspent : ∀ state fates, observe state (fates.spend label) = observe state fates)
    (unseen : ∀ state fates, observe (effect state).2 fates = observe state fates) :
    Preserves observe (Faulty.call label refusal effect) := by
  intro state fates
  unfold Faulty.call
  cases fates.next label with
  | works => exact (unseen _ _).trans (unspent _ _)
  | fails => exact unspent _ _
  | failsAfterEffect => exact (unseen _ _).trans (unspent _ _)
  | crashes | crashesAfterEffect => trivial

theorem attempt (preserves : Preserves observe program) :
    Preserves observe (Faulty.attempt program) := by
  intro state fates
  have seen := preserves state fates
  unfold Faulty.attempt
  cases ended : program state fates with
  | returned _ after rest | failed _ after rest =>
    rw [ended] at seen
    exact seen
  | crashed after => trivial

theorem mapError {reword : Error → Reworded} (preserves : Preserves observe program) :
    Preserves observe (Faulty.mapError reword program) := by
  intro state fates
  have seen := preserves state fates
  unfold Faulty.mapError
  cases ended : program state fates with
  | returned _ after rest | failed _ after rest =>
    rw [ended] at seen
    exact seen
  | crashed after => trivial

end Preserves

/-- The computation has used up one fate of a label, or failed before that in a safe
state. -/
def Ending.Spent (ending : Ending Label State Error Value) (label : Label) (safe : State → Prop)
    (coming : List Fate) : Prop :=
  match ending with
  | .returned _ _ rest => rest label = coming.tail
  | .failed _ after rest => safe after ∨ rest label = coming.tail
  | .crashed _ => True

def Spends (label : Label) (before safe : State → Prop)
    (program : Faulty Label State Error Value) : Prop :=
  ∀ state fates, before state → (program state fates).Spent label safe (fates label)

namespace Spends

variable {label : Label} {before safe : State → Prop}

theorem call [DecidableEq Label] {refusal : Error} {effect : State → Value × State} :
    Spends label before safe (Faulty.call label refusal effect) := by
  intro state fates _
  have spent : fates.spend label label = (fates label).tail := Function.update_self _ _ _
  unfold Faulty.call
  cases fates.next label with
  | works => exact spent
  | fails | failsAfterEffect => exact .inr spent
  | crashes | crashesAfterEffect => trivial

variable {first : Faulty Label State Error Value} {second : Value → Faulty Label State Error Result}

/-- What comes before the call fails in a safe state. -/
theorem after {between : Value → State → Prop}
    (meets : Triple before first ⟨between, fun _ => safe, safe⟩)
    (preserves : Preserves (fun _ fates => fates label) first)
    (spends : ∀ value, Spends label (between value) safe (second value)) :
    Spends label before safe (first >>= second) := by
  intro state fates holds
  change (Faulty.andThen first second state fates).Spent label safe (fates label)
  have met := meets state fates holds
  have seen := preserves state fates
  unfold Faulty.andThen
  cases ended : first state fates with
  | returned value reached rest =>
    rw [ended] at met seen
    have spent := spends value reached rest met
    rw [show rest label = fates label from seen] at spent
    exact spent
  | failed _ reached =>
    rw [ended] at met
    exact .inl met
  | crashed => trivial

/-- What comes after the call makes no further one. -/
theorem andThen (spends : Spends label before safe first)
    (preserves : ∀ value, Preserves (fun _ fates => fates label) (second value)) :
    Spends label before safe (first >>= second) := by
  intro state fates holds
  change (Faulty.andThen first second state fates).Spent label safe (fates label)
  have spent := spends state fates holds
  unfold Faulty.andThen
  cases ended : first state fates with
  | returned value reached rest =>
    rw [ended] at spent
    have seen := preserves value reached rest
    dsimp only
    cases last : second value reached rest with
    | returned =>
      rw [last] at seen
      exact seen.trans spent
    | failed =>
      rw [last] at seen
      exact .inr (seen.trans spent)
    | crashed => trivial
  | failed =>
    rw [ended] at spent
    exact spent
  | crashed => trivial

theorem mapError {reword : Error → Reworded} (spends : Spends label before safe first) :
    Spends label before safe (Faulty.mapError reword first) := by
  intro state fates holds
  have spent := spends state fates holds
  unfold Faulty.mapError
  cases ended : first state fates with
  | returned | failed | crashed =>
    rw [ended] at spent
    exact spent

theorem assuming {fact : Prop} (spends : fact → Spends label before safe first) :
    Spends label (fun state => before state ∧ fact) safe first :=
  fun state fates holds => spends holds.2 state fates holds.1

end Spends

/-- The values of two endings are related, and their errors and coming fates the same. -/
inductive Ending.Alike {OtherValue : Type u} (related : State → State → Prop)
    (values : Value → OtherValue → Prop) :
    Ending Label State Error Value → Ending Label State Error OtherValue → Prop where
  | returned {value : Value} {other : OtherValue} {state otherState : State} {fates : Fates Label}
      (same : values value other)
      (held : related state otherState) :
      Ending.Alike related values (.returned value state fates) (.returned other otherState fates)
  | failed {error : Error} {state otherState : State} {fates : Fates Label}
      (held : related state otherState) :
      Ending.Alike related values (.failed error state fates) (.failed error otherState fates)
  | crashed {state otherState : State} (held : related state otherState) :
      Ending.Alike related values (.crashed state) (.crashed otherState)

/-- From related states, and with the same fates, two computations end alike. -/
def Coupled {OtherValue : Type u} (related : State → State → Prop)
    (values : Value → OtherValue → Prop) (first : Faulty Label State Error Value)
    (second : Faulty Label State Error OtherValue) : Prop :=
  ∀ state other fates, related state other →
    (first state fates).Alike related values (second other fates)

namespace Coupled

variable {OtherValue OtherResult : Type u} {related : State → State → Prop}
  {values : Value → OtherValue → Prop}

theorem pure {value : Value} {other : OtherValue} (same : values value other) :
    Coupled related values (Pure.pure value : Faulty Label State Error Value) (Pure.pure other) :=
  fun _ _ _ => .returned same

theorem throw (error : Error) : Coupled related values
    (Faulty.throw error : Faulty Label State Error Value) (Faulty.throw error) :=
  fun _ _ _ => .failed

variable {other : Faulty Label State Error OtherValue} {first : Faulty Label State Error Value}

theorem bind {second : Value → Faulty Label State Error Result}
    {otherSecond : OtherValue → Faulty Label State Error OtherResult}
    {results : Result → OtherResult → Prop} (firstCoupled : Coupled related values first other)
    (secondCoupled : ∀ value otherValue, values value otherValue →
      Coupled related results (second value) (otherSecond otherValue)) :
    Coupled related results (first >>= second) (other >>= otherSecond) := by
  intro state otherState fates held
  change (Faulty.andThen first second state fates).Alike related results
    (Faulty.andThen other otherSecond otherState fates)
  have alike := firstCoupled state otherState fates held
  unfold Faulty.andThen
  generalize first state fates = ending at alike
  generalize other otherState fates = otherEnding at alike
  cases alike with
  | returned same held => exact secondCoupled _ _ same _ _ _ held
  | failed held => exact .failed held
  | crashed held => exact .crashed held

theorem call [DecidableEq Label] {label : Label} {refusal : Error} {effect : State → Value × State}
    {otherEffect : State → OtherValue × State}
    (alike : ∀ state other, related state other → values (effect state).1 (otherEffect other).1 ∧
      related (effect state).2 (otherEffect other).2) :
    Coupled related values (Faulty.call label refusal effect)
      (Faulty.call label refusal otherEffect) := by
  intro state other fates held
  obtain ⟨same, after⟩ := alike state other held
  unfold Faulty.call
  cases fates.next label with
  | works => exact .returned same after
  | fails => exact .failed held
  | failsAfterEffect => exact .failed after
  | crashes => exact .crashed held
  | crashesAfterEffect => exact .crashed after

theorem inspect {read : State → Value} {otherRead : State → OtherValue} (alike :
    ∀ state other, related state other → values (read state) (otherRead other)) :
    Coupled related values (Faulty.inspect read : Faulty Label State Error Value)
      (Faulty.inspect otherRead) :=
  fun state other _ held => .returned (alike state other held) held

theorem attempt {results : Except Error Value → Except Error OtherValue → Prop}
    (coupled : Coupled related values first other)
    (returns : ∀ value otherValue, values value otherValue → results (.ok value) (.ok otherValue))
    (fails : ∀ error, results (.error error) (.error error)) :
    Coupled related results (Faulty.attempt first) (Faulty.attempt other) := by
  intro state otherState fates held
  have alike := coupled state otherState fates held
  unfold Faulty.attempt
  generalize first state fates = ending at alike
  generalize other otherState fates = otherEnding at alike
  cases alike with
  | returned same held => exact .returned (returns _ _ same) held
  | failed held => exact .returned (fails _) held
  | crashed held => exact .crashed held

end Coupled

def Ending.result : Ending Label State Error Value → Option (Except Error Value)
  | .returned value _ _ => some (.ok value)
  | .failed error _ _ => some (.error error)
  | .crashed _ => none

theorem Ending.returned_of_result {ending : Ending Label State Error Value} {value : Value}
    (result : ending.result = some (.ok value)) :
    ∃ state fates, ending = .returned value state fates := by
  cases ending with
  | returned _ state fates =>
    cases result
    exact ⟨state, fates, rfl⟩
  | failed _ state fates | crashed state => cases result

theorem Ending.Alike.result_eq {related : State → State → Prop}
    {first second : Ending Label State Error Value} (alike : first.Alike related Eq second) :
    first.result = second.result := by
  cases alike with
  | returned same held =>
    subst same
    rfl
  | failed held | crashed held => rfl

end Arclain.FaultyCalls
