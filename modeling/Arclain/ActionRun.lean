import Mathlib.Data.List.Basic

namespace Arclain.ActionRun

/-!
# Finite runs of a partial step function

A component whose tasks interleave is one function `State → Action → Option State`, which
has no successor for an action that is not enabled.  An interleaving is a list of actions
for which `run` succeeds.
-/

variable {State Action : Type*}

/-- Execute the actions in order, stopping at the first disabled one. -/
def run (step : State → Action → Option State) : State → List Action → Option State
  | state, [] => some state
  | state, action :: rest =>
    match step state action with
    | some next => run step next rest
    | none => none

def Guarded (step : State → Action → Option State) (guard : State → Action → Prop) :
    State → List Action → Prop
  | _, [] => True
  | state, action :: rest =>
    guard state action ∧ ∀ next, step state action = some next → Guarded step guard next rest

/-- Whether every step of a run meets a decidable guard can be computed. -/
instance decidableGuarded (step : State → Action → Option State) (guard : State → Action → Prop)
    [∀ state action, Decidable (guard state action)] :
    (state : State) → (actions : List Action) → Decidable (Guarded step guard state actions)
  | _, [] => isTrue trivial
  | state, action :: rest =>
    match taken : step state action with
    | none =>
      decidable_of_iff (guard state action)
        ⟨fun meets => ⟨meets, fun next same => by simp [taken] at same⟩, And.left⟩
    | some next =>
      have := decidableGuarded step guard next rest
      decidable_of_iff (guard state action ∧ Guarded step guard next rest)
        ⟨fun both => ⟨both.1, fun other same => Option.some.inj (taken.symm.trans same) ▸ both.2⟩,
          fun both => ⟨both.1, both.2 next taken⟩⟩

section

variable {step : State → Action → Option State}

@[simp] theorem run_nil (state : State) : run step state [] = some state := rfl

variable {state final : State}

variable {action : Action}

theorem run_cons_eq_some {rest : List Action} :
    run step state (action :: rest) = some final ↔ ∃ next,
      step state action = some next ∧ run step next rest = some final := by
  cases taken : step state action with
  | none | some next => simp [run, taken]

theorem run_append_eq_some {earlier later : List Action} :
    run step state (earlier ++ later) = some final ↔ ∃ middle,
      run step state earlier = some middle ∧ run step middle later = some final := by
  induction earlier generalizing state with
  | nil => simp
  | cons _ _ ih =>
    simp only [List.cons_append, run_cons_eq_some, ih]
    constructor
    · rintro ⟨next, taken, middle, ran, continued⟩
      exact ⟨middle, ⟨next, taken, ran⟩, continued⟩
    · rintro ⟨middle, ⟨next, taken, ran⟩, continued⟩
      exact ⟨next, taken, middle, ran, continued⟩

theorem run_singleton_eq_some :
    run step state [action] = some final ↔ step state action = some final := by
  simp [run_cons_eq_some]

theorem run_preserves (invariant : State → Prop) (preserved :
    ∀ {state action next}, invariant state → step state action = some next → invariant next)
    {state final : State} {actions : List Action} (initially : invariant state)
    (ran : run step state actions = some final) : invariant final := by
  induction actions generalizing state with
  | nil =>
    simp only [run_nil, Option.some.injEq] at ran
    subst final
    exact initially
  | cons action _ ih =>
    obtain ⟨next, taken, later⟩ := run_cons_eq_some.mp ran
    exact ih (preserved initially taken) later

variable {guard : State → Action → Prop}

theorem run_preserves_of_guarded (invariant : State → Prop) (preserved :
    ∀ {state action next}, invariant state → guard state action → step state action = some next →
      invariant next)
    {state final : State} {actions : List Action} (initially : invariant state)
    (guarded : Guarded step guard state actions) (ran : run step state actions = some final) :
    invariant final := by
  induction actions generalizing state with
  | nil =>
    simp only [run_nil, Option.some.injEq] at ran
    subst final
    exact initially
  | cons action _ ih =>
    obtain ⟨next, taken, later⟩ := run_cons_eq_some.mp ran
    obtain ⟨meets, restGuarded⟩ := guarded
    exact ih (preserved initially meets taken) (restGuarded next taken) later

variable {actions : List Action}

theorem Guarded.mono {guard weaker : State → Action → Prop}
    (guarded : Guarded step guard state actions)
    (weakens : ∀ state action, guard state action → weaker state action) :
    Guarded step weaker state actions := by
  induction actions generalizing state with
  | nil => trivial
  | cons action _ ih =>
    refine ⟨weakens state action guarded.1, ?_⟩
    intro next taken
    exact ih (guarded.2 next taken)

theorem Guarded.and {first second : State → Action → Prop}
    (meetsFirst : Guarded step first state actions)
    (meetsSecond : Guarded step second state actions) :
    Guarded step (fun state action => first state action ∧ second state action) state actions := by
  induction actions generalizing state with
  | nil => trivial
  | cons action _ ih =>
    refine ⟨⟨meetsFirst.1, meetsSecond.1⟩, ?_⟩
    intro next taken
    exact ih (meetsFirst.2 next taken) (meetsSecond.2 next taken)

theorem guarded_concat : Guarded step guard state (actions ++ [action]) ↔
    Guarded step guard state actions ∧ ∀ reached, run step state actions = some reached →
      guard reached action := by
  induction actions generalizing state with
  | nil => simp [Guarded]
  | cons _ _ ih =>
    simp only [List.cons_append, Guarded, run_cons_eq_some, ih]
    constructor
    · rintro ⟨meets, later⟩
      refine ⟨⟨meets, fun next taken => (later next taken).1⟩, ?_⟩
      rintro reached ⟨next, taken, ran⟩
      exact (later next taken).2 reached ran
    · rintro ⟨⟨meets, later⟩, last⟩
      refine ⟨meets, fun next taken => ⟨later next taken, ?_⟩⟩
      intro reached ran
      exact last reached ⟨next, taken, ran⟩

theorem Guarded.of_prefix {earlier actions : List Action}
    (guarded : Guarded step guard state actions) (isPart : earlier <+: actions) :
    Guarded step guard state earlier := by
  induction earlier generalizing state actions with
  | nil => trivial
  | cons _ _ ih =>
    obtain ⟨later, rfl⟩ := isPart
    refine ⟨guarded.1, fun next taken => ?_⟩
    exact ih (guarded.2 next taken) ⟨later, rfl⟩

/-- Where the invariant needs the guard, a run keeps it exactly if its steps meet the guard. -/
theorem guarded_iff_kept (invariant : State → Prop) (preserved :
    ∀ {state action next}, invariant state → guard state action → step state action = some next →
      invariant next)
    (needed : ∀ {state action next}, invariant state → step state action = some next →
      invariant next → guard state action)
    (initially : invariant state) (ran : run step state actions = some final) :
    Guarded step guard state actions ↔ ∀ earlier reached, earlier <+: actions →
      run step state earlier = some reached → invariant reached := by
  refine ⟨fun guarded earlier reached isPart =>
    run_preserves_of_guarded invariant preserved initially (guarded.of_prefix isPart), ?_⟩
  intro kept
  induction actions generalizing state with
  | nil => trivial
  | cons action rest ih =>
    obtain ⟨next, taken, later⟩ := run_cons_eq_some.mp ran
    have after := kept [action] next ⟨rest, rfl⟩ (run_singleton_eq_some.mpr taken)
    refine ⟨needed initially taken after, fun other same => ?_⟩
    obtain rfl := Option.some.inj (taken.symm.trans same)
    refine ih after later fun earlier reached isPart reaches => ?_
    exact kept (action :: earlier) reached ((List.prefix_cons_inj action).mpr isPart)
      (run_cons_eq_some.mpr ⟨next, taken, reaches⟩)

theorem guarded_of_forall (meets : ∀ action ∈ actions, ∀ state, guard state action)
    (state : State) : Guarded step guard state actions := by
  induction actions generalizing state with
  | nil => trivial
  | cons action _ ih =>
    refine ⟨meets action List.mem_cons_self state, ?_⟩
    intro _ _
    apply ih
    intro later mem
    exact meets later (List.mem_cons_of_mem action mem)

end

end Arclain.ActionRun
