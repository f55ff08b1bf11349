import Arclain.KeyedMap

namespace Arclain.CallsInFlight

open AList

/-!
# Calls in flight

Several callers work on shared state, each with at most one call in flight that goes on in
atomic steps.
-/

variable {Caller Call : Type*} [DecidableEq Caller]

/-- What a step leaves of a call takes its place among the calls. -/
def proceed (calls : KeyedMap Caller Call) (caller : Caller) : Option Call → KeyedMap Caller Call
  | some rest => calls.insert caller rest
  | none => calls.erase caller

def Some (calls : KeyedMap Caller Call) (test : Call → Prop) : Prop :=
  ∃ caller call, calls.lookup caller = some call ∧ test call

def Others (calls : KeyedMap Caller Call) (caller : Caller) (test : Call → Prop) : Prop :=
  ∃ other call, other ≠ caller ∧ calls.lookup other = some call ∧ test call

section

variable {calls : KeyedMap Caller Call} {caller : Caller} {call : Call} {rest : Option Call}
  {test weaker : Call → Prop}

theorem Others.mono (others : Others calls caller test)
    (weakens : ∀ call, test call → weaker call) : Others calls caller weaker := by
  obtain ⟨other, call, differs, bound, passes⟩ := others
  exact ⟨other, call, differs, bound, weakens call passes⟩

theorem some_iff (bound : calls.lookup caller = some call) :
    Some calls test ↔ test call ∨ Others calls caller test := by
  constructor
  · rintro ⟨other, otherCall, otherBound, passes⟩
    by_cases same : other = caller
    · subst other
      obtain rfl := Option.some.inj (bound.symm.trans otherBound)
      exact .inl passes
    · exact .inr ⟨other, otherCall, same, otherBound, passes⟩
  · rintro (passes | ⟨other, otherCall, _, otherBound, passes⟩)
    · exact ⟨caller, call, bound, passes⟩
    · exact ⟨other, otherCall, otherBound, passes⟩

theorem some_iff_of_free (free : calls.lookup caller = none) :
    Some calls test ↔ Others calls caller test := by
  constructor
  · rintro ⟨other, call, bound, passes⟩
    refine ⟨other, call, ?_, bound, passes⟩
    rintro rfl
    rw [free] at bound
    cases bound
  · rintro ⟨other, call, _, bound, passes⟩
    exact ⟨other, call, bound, passes⟩

theorem some_proceed_iff : Some (proceed calls caller rest) test ↔
    (∃ left ∈ rest, test left) ∨ Others calls caller test := by
  cases rest with
  | some left =>
    rw [proceed, some_iff (lookup_insert calls)]
    refine or_congr (by simp) ⟨?_, ?_⟩
    · rintro ⟨other, call, differs, bound, passes⟩
      rw [lookup_insert_ne differs] at bound
      exact ⟨other, call, differs, bound, passes⟩
    · rintro ⟨other, call, differs, bound, passes⟩
      refine ⟨other, call, differs, ?_, passes⟩
      rw [lookup_insert_ne differs]
      exact bound
  | none =>
    rw [proceed, some_iff_of_free (lookup_erase caller calls)]
    refine ⟨?_, ?_⟩
    · rintro ⟨other, call, differs, bound, passes⟩
      rw [lookup_erase_ne differs] at bound
      exact .inr ⟨other, call, differs, bound, passes⟩
    · rintro (⟨left, isLeft, _⟩ | ⟨other, call, differs, bound, passes⟩)
      · cases isLeft
      · refine ⟨other, call, differs, ?_, passes⟩
        rw [lookup_erase_ne differs]
        exact bound

theorem some_insert (free : calls.lookup caller = none) (passes : Some calls test) :
    Some (calls.insert caller call) test := by
  have begun : Some (proceed calls caller (some call)) test :=
    some_proceed_iff.mpr (.inr ((some_iff_of_free free).mp passes))
  exact begun

theorem not_some_of_keys (quiet : calls.keys = []) : ¬ Some calls test := by
  rintro ⟨caller, _, bound, -⟩
  have absent : caller ∉ calls.keys := by
    rw [quiet]
    exact List.not_mem_nil
  rw [KeyedMap.notMem_keys_iff.mp absent] at bound
  cases bound

theorem others_iff : Others calls caller test ↔
    ∃ other ∈ calls.keys, other ≠ caller ∧ ∃ call ∈ calls.lookup other, test call := by
  constructor
  · rintro ⟨other, call, differs, bound, passes⟩
    refine ⟨other, ?_, differs, call, bound, passes⟩
    by_contra absent
    rw [KeyedMap.notMem_keys_iff.mp absent] at bound
    cases bound
  · rintro ⟨other, _, differs, call, bound, passes⟩
    exact ⟨other, call, differs, bound, passes⟩

instance [DecidablePred test] : Decidable (Others calls caller test) :=
  decidable_of_iff _ others_iff.symm

end

end Arclain.CallsInFlight
