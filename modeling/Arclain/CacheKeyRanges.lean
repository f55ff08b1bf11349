import Arclain.Text

namespace Arclain.Cache

/-!
# Ranges of keys

The index finds the keys that begin with some text as a range of its order: from
that text up to a bound behind all that begin with it.  Texts are ordered by their
scalar values, which is the order of their bytes as well.
-/

open List Option

/-- `char::from_u32`. -/
def fromU32 (value : Nat) : Option Char :=
  if valid : value.isValidChar then some (Char.ofNatAux value valid) else none

/-- The scalar value behind that of a character, unless there is none. -/
def nextValue (char : Char) : Option Nat :=
  if char.toNat = 0x10ffff then none
  else if char.toNat = 0xd7ff then some 0xe000
  else some (char.toNat + 1)

/-- The loop of `prefix_exclusive_upper_bound` over the indices below one, or a
panic. -/
def upperBoundBelow (characters : Str) : Nat → Option (Option Str)
  | 0 => some none
  | index + 1 => do
    let char ← characters[index]?
    match nextValue char with
    | none => upperBoundBelow characters index
    | some value =>
      let next ← fromU32 value
      some (some (characters.take index ++ [next]))

/-- `prefix_exclusive_upper_bound`, or a panic. -/
def prefixExclusiveUpperBound (start : Str) : Option (Option Str) :=
  upperBoundBelow start start.length

variable {first second : Char}

theorem cons_le_cons_iff {rest other : Str} :
    first :: rest ≤ second :: other ↔ first < second ∨ first = second ∧ rest ≤ other := by
  rw [← not_lt, ← not_lt, cons_lt_cons_iff]
  rcases lt_trichotomy first second with less | rfl | more
  · simp [less, less.asymm, less.ne']
  · simp
  · simp [more, more.asymm, more.ne']

theorem toNat_valid (char : Char) : char.toNat.isValidChar := char.valid

theorem char_le_iff : first ≤ second ↔ first.toNat ≤ second.toNat := Iff.rfl

variable {char : Char}

theorem nextValue_eq_none_iff : nextValue char = none ↔ char.toNat = 0x10ffff := by
  unfold nextValue
  split
  · simp [*]
  · split <;> simp [*]

theorem le_of_last (last : char.toNat = 0x10ffff) (other : Char) : other ≤ char := by
  have valid := toNat_valid other
  unfold Nat.isValidChar at valid
  rw [char_le_iff]
  omega

theorem fromU32_nextValue {value : Nat} (found : nextValue char = some value) :
    ∃ next, fromU32 value = some next ∧ ∀ other, other < next ↔ other ≤ char := by
  have valid := toNat_valid char
  unfold Nat.isValidChar at valid
  have scalar : value.isValidChar ∧
      ∀ number, number.isValidChar → (number < value ↔ number ≤ char.toNat) := by
    unfold Nat.isValidChar
    unfold nextValue at found
    split at found
    · cases found
    · split at found
      · cases found
        exact ⟨by omega, fun number valid => by omega⟩
      · cases found
        exact ⟨by omega, fun number valid => by omega⟩
  refine ⟨Char.ofNatAux value scalar.1, dif_pos scalar.1, fun other => ?_⟩
  exact scalar.2 other.toNat (toNat_valid other)

theorem upperBoundBelow_succ (characters : Str) (index : Nat) :
    upperBoundBelow characters (index + 1) = characters[index]?.bind fun char =>
      match nextValue char with
      | none => upperBoundBelow characters index
      | some value =>
        (fromU32 value).bind fun next =>
          some (some (characters.take index ++ [next])) :=
  rfl

theorem upperBoundBelow_cons (char : Char) (characters : Str) (index : Nat) :
    upperBoundBelow (char :: characters) (index + 1) =
      (upperBoundBelow characters index).bind fun bound =>
        match bound with
        | some bound => some (some (char :: bound))
        | none => upperBoundBelow (char :: characters) 1 := by
  induction index with
  | zero => rfl
  | succ index ih =>
    rw [upperBoundBelow_succ (char :: characters), upperBoundBelow_succ characters,
      List.getElem?_cons_succ]
    cases characters[index]? with
    | none => rfl
    | some last =>
      simp only [bind_some]
      cases nextValue last with
      | none => exact ih
      | some value =>
        dsimp only
        cases fromU32 value with
        | none | some => rfl

theorem begins_iff_in_range (start : Str) : ∃ bound, prefixExclusiveUpperBound start = some bound ∧
    (∀ key, start <+: key ↔ start ≤ key ∧ ∀ upper, bound = some upper → key < upper) ∧
    (bound = none ↔ ∀ char ∈ start, char.toNat = 0x10ffff) := by
  induction start with
  | nil =>
    refine ⟨none, rfl, fun key => ?_, ?_⟩
    · simp [← not_lt]
    · simp
  | cons char start ih =>
    obtain ⟨bound, isBound, inRange, isNone⟩ := ih
    have step : prefixExclusiveUpperBound (char :: start) = _ :=
      (upperBoundBelow_cons char start start.length).trans (congrArg (Option.bind · _) isBound)
    rw [step, bind_some]
    cases bound with
    | some bound =>
      refine ⟨some (char :: bound), rfl, fun key => ?_, ?_⟩
      · cases key with
        | nil => simp [← not_lt]
        | cons head key =>
          rw [cons_prefix_cons, inRange key]
          simp only [cons_le_cons_iff, cons_lt_cons_iff, some.injEq, forall_eq']
          constructor
          · rintro ⟨rfl, starts, below⟩
            exact ⟨.inr ⟨rfl, starts⟩, .inr ⟨rfl, below⟩⟩
          · rintro ⟨less | ⟨rfl, starts⟩, more | ⟨same, below⟩⟩
            · exact absurd more less.asymm
            · exact absurd same less.ne'
            · exact absurd more (lt_irrefl _)
            · exact ⟨rfl, starts, below⟩
      · have bounded : ¬ ∀ char ∈ start, char.toNat = 0x10ffff := fun all =>
          some_ne_none _ (isNone.mpr all)
        simp only [reduceCtorEq, forall_mem_cons, false_iff]
        exact fun all => bounded all.2
    | none =>
      have begins (key : Str) : start <+: key ↔ start ≤ key := by
        rw [inRange key]
        simp
      have allLast := isNone.mp rfl
      rw [upperBoundBelow_succ, List.getElem?_cons_zero, bind_some]
      cases value : nextValue char with
      | none =>
        have last := nextValue_eq_none_iff.mp value
        refine ⟨none, rfl, fun key => ?_, ?_⟩
        · cases key with
          | nil => simp [← not_lt]
          | cons head key =>
            rw [cons_prefix_cons, begins key, cons_le_cons_iff]
            have notLess : ¬ char < head := (le_of_last last head).not_gt
            simp [notLess]
        · simp only [forall_mem_cons, true_iff]
          exact ⟨last, allLast⟩
      | some value =>
        obtain ⟨next, isNext, below⟩ := fromU32_nextValue value
        simp only [isNext, bind_some, take_zero, nil_append]
        refine ⟨some [next], rfl, fun key => ?_, ?_⟩
        · cases key with
          | nil => simp [← not_lt]
          | cons head key =>
            rw [cons_prefix_cons, begins key]
            simp only [cons_le_cons_iff, cons_lt_cons_iff, some.injEq,
              forall_eq', not_lt_nil, and_false, or_false, below head]
            constructor
            · rintro ⟨rfl, starts⟩
              exact ⟨.inr ⟨rfl, starts⟩, le_rfl⟩
            · rintro ⟨less | starts, most⟩
              · exact absurd less most.not_gt
              · exact starts
        · have notLast : char.toNat ≠ 0x10ffff := fun last => by
            rw [nextValue_eq_none_iff.mpr last] at value
            cases value
          simp [notLast]

/-- The texts from a text up to its bound are those that begin with it, and so are all from
a text without a bound on. -/
theorem prefix_range_exact (start : Str) : ∃ bound, prefixExclusiveUpperBound start = some bound ∧
    (∀ upper, bound = some upper → ∀ key, start <+: key ↔ start ≤ key ∧ key < upper) ∧
    (bound = none ↔ ∀ char ∈ start, char.toNat = 0x10ffff) ∧
    (bound = none → ∀ key, start ≤ key → start <+: key) := by
  obtain ⟨bound, isBound, inRange, isNone⟩ := begins_iff_in_range start
  refine ⟨bound, isBound, ?_, isNone, ?_⟩
  · rintro upper rfl key
    simpa using inRange key
  · rintro rfl key starts
    exact (inRange key).mpr ⟨starts, nofun⟩

end Arclain.Cache
