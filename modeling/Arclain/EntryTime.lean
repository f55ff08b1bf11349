import Arclain.ModifiedTime
import Mathlib.Order.Monotone.Basic
import Mathlib.Tactic.IntervalCases

namespace Arclain.EntryTime

/-!
# The times that backends report

A backend renders the instant that an archive recorded in UTC, and the application reads the
text back as Unix milliseconds.  The fields of an instant come from a library, of which only
the proleptic Gregorian calendar is asked.
-/

open List Option Text Int

/-! ## The calendar -/

def IsLeapYear (year : Int) : Prop := 4 ∣ year ∧ (100 ∣ year → 400 ∣ year)

instance (year : Int) : Decidable (IsLeapYear year) := inferInstanceAs (Decidable (_ ∧ (_ → _)))

def daysInMonth (year : Int) (month : Nat) : Nat :=
  if month = 2 then if IsLeapYear year then 29 else 28
  else if month = 4 ∨ month = 6 ∨ month = 9 ∨ month = 11 then 30
  else 31

def daysBeforeMonth (year : Int) : Nat → Nat
  | 0 | 1 => 0
  | month + 2 => daysBeforeMonth year (month + 1) + daysInMonth year (month + 1)

def daysBeforeYear (year : Int) : Int :=
  365 * (year - 1) + (year - 1) / 4 - (year - 1) / 100 + (year - 1) / 400

structure Moment where
  year : Int
  month : Nat
  day : Nat
  hour : Nat
  minute : Nat
  second : Nat

namespace Moment

structure IsValid (moment : Moment) : Prop where
  month : 1 ≤ moment.month ∧ moment.month ≤ 12
  day : 1 ≤ moment.day ∧ moment.day ≤ daysInMonth moment.year moment.month
  hour : moment.hour < 24
  minute : moment.minute < 60
  second : moment.second < 60

instance (moment : Moment) : Decidable moment.IsValid :=
  decidable_of_iff ((1 ≤ moment.month ∧ moment.month ≤ 12) ∧
    (1 ≤ moment.day ∧ moment.day ≤ daysInMonth moment.year moment.month) ∧
    moment.hour < 24 ∧ moment.minute < 60 ∧ moment.second < 60)
    ⟨fun ⟨month, day, hour, minute, second⟩ => ⟨month, day, hour, minute, second⟩,
      fun ⟨month, day, hour, minute, second⟩ => ⟨month, day, hour, minute, second⟩⟩

def days (moment : Moment) : Int :=
  daysBeforeYear moment.year + daysBeforeMonth moment.year moment.month + moment.day - 719163

def unixSeconds (moment : Moment) : Int :=
  moment.days * 86400 + moment.hour * 3600 + moment.minute * 60 + moment.second

end Moment

/-- What `chrono::DateTime::from_timestamp` promises. -/
structure IsUtc (fromTimestamp : Int → Option Moment) : Prop where
  valid : ∀ {seconds moment}, fromTimestamp seconds = some moment → moment.IsValid
  elapsed : ∀ {seconds moment}, fromTimestamp seconds = some moment → moment.unixSeconds = seconds

/-! ## Rendering -/

def civil (year month day hour minute second : Nat) : Str :=
  (paddedDecimal 4 year ++ '-' :: (paddedDecimal 2 month ++ '-' :: paddedDecimal 2 day)) ++
    ' ' :: (paddedDecimal 2 hour ++ ':' :: (paddedDecimal 2 minute ++
      ':' :: paddedDecimal 2 second))

def fromUnixSeconds (fromTimestamp : Int → Option Moment) (seconds : Int) : Option Str := do
  let moment ← fromTimestamp seconds
  -- `u32::try_from` refuses the years before the year 0.
  if 0 ≤ moment.year then
    some (civil moment.year.toNat moment.month moment.day moment.hour moment.minute moment.second)
  else none

/-! ## The order of dates -/

theorem daysBeforeYear_succ (year : Int) :
    daysBeforeYear (year + 1) = daysBeforeYear year + daysBeforeMonth year 13 := by
  have months : daysBeforeMonth year 13 = 337 + daysInMonth year 2 := by
    simp [daysBeforeMonth, daysInMonth]
    omega
  rw [months, daysInMonth, if_pos rfl, daysBeforeYear, daysBeforeYear]
  split
  next leap =>
    obtain ⟨_, _⟩ := leap
    omega
  next common =>
    rw [IsLeapYear, not_and_or] at common
    omega

theorem daysBeforeYear_monotone {earlier later : Int} (ordered : earlier ≤ later) :
    daysBeforeYear earlier ≤ daysBeforeYear later := by
  unfold daysBeforeYear
  omega

theorem daysBeforeMonth_monotone (year : Int) : Monotone (daysBeforeMonth year) := by
  refine monotone_nat_of_le_succ fun month => ?_
  cases month with
  | zero => exact Nat.zero_le _
  | succ month => exact Nat.le_add_right _ _

theorem daysBeforeMonth_succ {month : Nat} (positive : 1 ≤ month) (year : Int) :
    daysBeforeMonth year (month + 1) = daysBeforeMonth year month + daysInMonth year month := by
  obtain ⟨month, rfl⟩ := Nat.exists_eq_add_of_le' positive
  rfl

namespace Moment

variable {moment first second : Moment}

theorem IsValid.day_le (valid : moment.IsValid) : moment.day ≤ 31 := by
  refine valid.day.2.trans ?_
  unfold daysInMonth
  split_ifs <;> omega

theorem IsValid.days_of_year (valid : moment.IsValid) :
    daysBeforeYear moment.year ≤ moment.days + 719162 ∧
      moment.days + 719162 < daysBeforeYear (moment.year + 1) := by
  have next := daysBeforeMonth_succ valid.month.1 moment.year
  have all : daysBeforeMonth moment.year (moment.month + 1) ≤ daysBeforeMonth moment.year 13 :=
    daysBeforeMonth_monotone moment.year (Nat.add_le_add_right valid.month.2 1)
  have day := valid.day
  rw [daysBeforeYear_succ]
  unfold days
  omega

theorem IsValid.days_eq (valid : moment.IsValid) : moment.days * 86400 ≤ moment.unixSeconds ∧
    moment.unixSeconds < (moment.days + 1) * 86400 := by
  have hour := valid.hour
  have minute := valid.minute
  have second := valid.second
  unfold unixSeconds
  omega

theorem IsValid.year_lt_iff (valid : moment.IsValid) :
    moment.year < 10000 ↔ moment.unixSeconds < 253402300800 := by
  have year := valid.days_of_year
  have day := valid.days_eq
  have last : daysBeforeYear 10000 = 3652059 := by decide
  constructor
  · intro small
    have ordered := daysBeforeYear_monotone (Int.add_one_le_iff.mpr small)
    omega
  · intro _
    by_contra large
    have ordered := daysBeforeYear_monotone (not_lt.mp large)
    omega

theorem IsValid.fields_of_lt (valid : first.IsValid) (otherValid : second.IsValid)
    (earlier : first.unixSeconds < second.unixSeconds) :
    first.year < second.year ∨ first.year = second.year ∧
      (first.month < second.month ∨ first.month = second.month ∧
        (first.day < second.day ∨ first.day = second.day ∧
          (first.hour < second.hour ∨ first.hour = second.hour ∧
            (first.minute < second.minute ∨ first.minute = second.minute ∧
              first.second < second.second)))) := by
  have year := valid.days_of_year
  have otherYear := otherValid.days_of_year
  have day := valid.days_eq
  have otherDay := otherValid.days_eq
  have years : first.year ≤ second.year := by
    by_contra later
    have ordered := daysBeforeYear_monotone (Int.add_one_le_iff.mpr (not_le.mp later))
    omega
  rcases years.lt_or_eq with less | sameYear
  · exact .inl less
  have months : first.month ≤ second.month := by
    by_contra later
    have ordered := daysBeforeMonth_monotone second.year (Nat.add_one_le_iff.mpr (not_le.mp later))
    have next := daysBeforeMonth_succ otherValid.month.1 second.year
    have inMonth := valid.day
    have otherInMonth := otherValid.day
    rw [days, sameYear] at day
    rw [days] at otherDay
    omega
  rcases months.lt_or_eq with less | sameMonth
  · exact .inr ⟨sameYear, .inl less⟩
  have hours := valid.hour
  have otherHours := otherValid.hour
  have minutes := valid.minute
  have otherMinutes := otherValid.minute
  have seconds := valid.second
  have otherSeconds := otherValid.second
  simp only [unixSeconds, days, sameYear, sameMonth] at earlier
  omega

end Moment

/-! ## The order of texts -/

theorem append_lt_append {first second : Str} (less : first < second)
    (sameLength : first.length = second.length) (behind behindOther : Str) :
    first ++ behind < second ++ behindOther := by
  induction first generalizing second with
  | nil =>
    rw [eq_nil_of_length_eq_zero sameLength.symm] at less
    exact absurd less (lt_irrefl [])
  | cons _ _ ih =>
    cases second with
    | nil => cases sameLength
    | cons =>
      rw [cons_append, cons_append, cons_lt_cons_iff]
      refine (cons_lt_cons_iff.mp less).imp_right fun ⟨same, restLess⟩ => ?_
      exact ⟨same, ih restLess (Nat.succ.inj sameLength)⟩

variable {width first second : Nat}

theorem paddedDecimal_lt (less : first < second)
    (fits : second < 10 ^ width) : paddedDecimal width first < paddedDecimal width second := by
  induction width generalizing first second with
  | zero => omega
  | succ width ih =>
    by_cases alone : width = 0
    · subst alone
      have digits : ∀ second < 10, ∀ first < second,
          paddedDecimal 1 first < paddedDecimal 1 second := by
        decide
      exact digits second fits first less
    have positive := Nat.pos_of_ne_zero alone
    have snoc (number : Nat) :=
      paddedDecimal_digit positive (Nat.mod_lt number (by decide : 10 > 0)) (number / 10)
    simp only [Nat.div_add_mod] at snoc
    rw [Nat.pow_succ] at fits
    rw [snoc first, snoc second]
    rcases (Nat.div_le_div_right less.le : first / 10 ≤ second / 10).lt_or_eq with
      fewer | same
    · refine append_lt_append (ih fewer (by omega)) ?_ _ _
      rw [(length_paddedDecimal_eq_iff positive).mpr (by omega),
        (length_paddedDecimal_eq_iff positive).mpr (by omega)]
    · rw [same]
      have digits : ∀ second < 10, ∀ first < second,
          [Nat.digitChar first] < [Nat.digitChar second] := by
        decide
      exact append_left_lt (digits _ (Nat.mod_lt _ (by decide)) _ (by omega))

theorem field_lt (positive : 0 < width)
    (fits : first < 10 ^ width ∧ second < 10 ^ width) {behind behindOther : Str}
    (ordered : first < second ∨ first = second ∧ behind < behindOther) :
    paddedDecimal width first ++ behind < paddedDecimal width second ++ behindOther := by
  rcases ordered with less | ⟨rfl, less⟩
  · refine append_lt_append (paddedDecimal_lt less fits.2) ?_ _ _
    rw [(length_paddedDecimal_eq_iff positive).mpr fits.1,
      (length_paddedDecimal_eq_iff positive).mpr fits.2]
  · exact append_left_lt less

/-! ## Reading -/

theorem parseSigned_paddedDecimal (width number : Nat) :
    parseSigned (paddedDecimal width number) = some (number : Int) := by
  have value := parseDigits_paddedDecimal width number
  have digits := @isDigit_of_mem_paddedDecimal width number
  unfold parseSigned
  split
  next signed => cases digits (signed ▸ mem_cons_self)
  next signed => cases digits (signed ▸ mem_cons_self)
  · rw [value]
    rfl

theorem parseI64_paddedDecimal {number : Nat} (small : number < 10000) (width : Nat) :
    parseI64 (paddedDecimal width number) = some (number : Int) := by
  rw [parseI64, parseSigned_paddedDecimal, filter_some, if_pos]
  exact decide_eq_true (by omega)

theorem parseU32_paddedDecimal {number : Nat} (small : number < 10000) (width : Nat) :
    parseU32 (paddedDecimal width number) = some number := by
  have value := parseDigits_paddedDecimal width number
  have digits := @isDigit_of_mem_paddedDecimal width number
  unfold parseU32
  split
  next signed => cases digits (signed ▸ mem_cons_self)
  · rw [value, filter_some, if_pos]
    exact decide_eq_true (by omega)

variable {separator : Char}

theorem not_mem_paddedDecimal (noDigit : separator.isDigit = false)
    (width number : Nat) : separator ∉ paddedDecimal width number := by
  intro mem
  rw [isDigit_of_mem_paddedDecimal mem] at noDigit
  cases noDigit

theorem splitOn_fields (noDigit : separator.isDigit = false) (width first second third : Nat) :
    (paddedDecimal width first ++ separator :: (paddedDecimal 2 second ++
      separator :: paddedDecimal 2 third)).splitOn separator =
      [paddedDecimal width first, paddedDecimal 2 second, paddedDecimal 2 third] := by
  have absent :
      ∀ field ∈ [paddedDecimal width first, paddedDecimal 2 second, paddedDecimal 2 third],
        separator ∉ field := by
    simp [not_mem_paddedDecimal noDigit]
  have split := splitOn_intercalate separator absent (cons_ne_nil _ _)
  simpa [List.intercalate] using split

def FitsI64 (value : Int) : Prop := -2 ^ 63 ≤ value ∧ value < 2 ^ 63

instance (value : Int) : Decidable (FitsI64 value) := inferInstanceAs (Decidable (_ ∧ _))

theorem wrapI64_of_fits {value : Int} (fits : FitsI64 value) : wrapI64 value = value :=
  bmod_eq_of_le (by have := fits.1; omega) (by have := fits.2; omega)

theorem marchDays {month : Nat} (inYear : 1 ≤ month ∧ month ≤ 12) (year : Int) :
    (153 * ((month + 9) % 12) + 2) / 5 + (if month ≤ 2 then 0 else 31 + daysInMonth year 2) =
      daysBeforeMonth year month + if month ≤ 2 then 306 else 0 := by
  obtain ⟨_, _⟩ := inYear
  interval_cases month <;> simp [daysBeforeMonth, daysInMonth] <;> omega

/-- The texts that the parser splits a value into, read as numbers. -/
structure ParsedTime where
  year : Int
  month : Nat
  day : Nat
  hour : Int
  minute : Int
  second : Int

namespace ParsedTime

section

variable (parsed : ParsedTime)

def march : Int :=
  if parsed.month ≤ 2 then parsed.year - 1 else parsed.year

def era : Int :=
  (if 0 ≤ parsed.march then parsed.march else parsed.march - 399).tdiv 400

def yoe : Int := parsed.march - parsed.era * 400

def doe : Int :=
  parsed.yoe * 365 + parsed.yoe.tdiv 4 - parsed.yoe.tdiv 100 +
    (((153 * ((parsed.month + 9) % 12) + 2) / 5 : Nat) + parsed.day - 1)

def days : Int := parsed.era * 146097 + parsed.doe - 719468

def seconds : Int :=
  parsed.days * 86400 + parsed.hour * 3600 + parsed.minute * 60 + parsed.second

/-- Every number that is computed from the fields, on integers without bounds. -/
def steps : List Int :=
  [parsed.march,
    if 0 ≤ parsed.march then parsed.march else parsed.march - 399,
    parsed.era * 400, parsed.yoe, parsed.yoe * 365, parsed.yoe * 365 + parsed.yoe.tdiv 4,
    parsed.yoe * 365 + parsed.yoe.tdiv 4 - parsed.yoe.tdiv 100, parsed.doe,
    parsed.era * 146097, parsed.era * 146097 + parsed.doe, parsed.days, parsed.days * 86400,
    parsed.hour * 3600, parsed.days * 86400 + parsed.hour * 3600, parsed.minute * 60,
    parsed.days * 86400 + parsed.hour * 3600 + parsed.minute * 60, parsed.seconds,
    parsed.seconds * 1000]

end

variable {parsed : ParsedTime}

theorem era_eq : parsed.era = parsed.march / 400 := by
  unfold era
  split
  next positive => exact tdiv_eq_ediv_of_nonneg positive
  next negative =>
    rw [← Int.neg_neg (parsed.march - 399), Int.neg_tdiv, Int.tdiv_eq_ediv_of_nonneg (by omega)]
    omega

theorem yoe_eq : parsed.yoe = parsed.march % 400 := by
  rw [yoe, era_eq]
  omega

theorem days_eq (inYear : 1 ≤ parsed.month ∧ parsed.month ≤ 12) :
    parsed.days = daysBeforeYear parsed.year + daysBeforeMonth parsed.year parsed.month +
      parsed.day - 719163 := by
  have march := marchDays inYear parsed.year
  have yoe := @yoe_eq parsed
  have doy : (153 * ((parsed.month + 9) % 12) + 2) / 5 ≤ 337 := by omega
  rw [days, doe, era_eq, tdiv_eq_ediv_of_nonneg (by omega),
    tdiv_eq_ediv_of_nonneg (by omega), yoe, daysBeforeYear]
  unfold ParsedTime.march
  by_cases early : parsed.month ≤ 2
  · simp only [if_pos early] at march ⊢
    omega
  · simp only [if_neg early, daysInMonth, if_true] at march ⊢
    split at march
    next leap =>
      obtain ⟨_, _⟩ := leap
      omega
    next common =>
      rw [IsLeapYear, not_and_or] at common
      omega

/-- The number of milliseconds, as the function computes it. -/
def millis (parsed : ParsedTime) : Int :=
  wrapI64 (wrapI64 (daysFromCivil parsed.year parsed.month parsed.day * 86400 +
    parsed.hour * 3600 + parsed.minute * 60 + parsed.second) * 1000)

theorem millis_eq (fits : ∀ step ∈ parsed.steps, FitsI64 step) :
    parsed.millis = parsed.seconds * 1000 := by
  simp only [steps, forall_mem_cons] at fits
  obtain ⟨march, shifted, _, yoe, _, _, _, doe, _, _, days, _, _, _, _, _, seconds, millis, _⟩ :=
    fits
  have isMarch : (if parsed.month ≤ 2 then wrapI64 (parsed.year - 1) else parsed.year) =
      parsed.march := by
    unfold ParsedTime.march at march ⊢
    split
    next early => exact wrapI64_of_fits (by simpa [early] using march)
    · rfl
  have isEra : (if 0 ≤ parsed.march then parsed.march else wrapI64 (parsed.march - 399)).tdiv 400 =
      parsed.era := by
    unfold era
    split
    · rfl
    next negative => rw [wrapI64_of_fits (by simpa [negative] using shifted)]
  have isDays : daysFromCivil parsed.year parsed.month parsed.day = parsed.days := by
    unfold daysFromCivil
    dsimp only
    rw [isMarch, isEra, show parsed.march - parsed.era * 400 = parsed.yoe from rfl,
      wrapI64_of_fits yoe]
    change wrapI64 (parsed.era * 146097 + wrapI64 parsed.doe - 719468) = _
    rw [wrapI64_of_fits doe]
    exact wrapI64_of_fits days
  rw [ParsedTime.millis, isDays]
  change wrapI64 (wrapI64 parsed.seconds * 1000) = _
  rw [wrapI64_of_fits seconds, wrapI64_of_fits millis]

structure InRange (parsed : ParsedTime) : Prop where
  month : 1 ≤ parsed.month ∧ parsed.month ≤ 12
  day : 1 ≤ parsed.day ∧ parsed.day ≤ 31
  hour : 0 ≤ parsed.hour ∧ parsed.hour < 24
  minute : 0 ≤ parsed.minute ∧ parsed.minute < 60
  second : 0 ≤ parsed.second ∧ parsed.second < 60

/-- The last step is the greatest, up to the sign. -/
theorem InRange.steps_fit_iff (inRange : parsed.InRange) :
    (∀ step ∈ parsed.steps, FitsI64 step) ↔ FitsI64 (parsed.seconds * 1000) := by
  constructor
  · exact fun fits => fits _ (by simp [steps])
  · intro last
    have yoe := @yoe_eq parsed
    have isYoe : parsed.yoe = parsed.march - parsed.era * 400 := rfl
    have isDoe : parsed.doe = parsed.yoe * 365 + parsed.yoe.tdiv 4 - parsed.yoe.tdiv 100 +
      (((153 * ((parsed.month + 9) % 12) + 2) / 5 : Nat) + parsed.day - 1) := rfl
    have isDays : parsed.days = parsed.era * 146097 + parsed.doe - 719468 := rfl
    have isSeconds : parsed.seconds =
      parsed.days * 86400 + parsed.hour * 3600 + parsed.minute * 60 + parsed.second := rfl
    obtain ⟨_, _, _, _, _⟩ := inRange
    rw [tdiv_eq_ediv_of_nonneg (by omega), tdiv_eq_ediv_of_nonneg (by omega)] at isDoe
    simp only [steps, forall_mem_cons, FitsI64] at last ⊢
    rw [tdiv_eq_ediv_of_nonneg (by omega), tdiv_eq_ediv_of_nonneg (by omega)]
    refine ⟨?_, ?_, ?_, ?_, ?_, ?_, ?_, ?_, ?_, ?_, ?_, ?_, ?_, ?_, ?_, ?_, ?_, ?_, ?_⟩
    all_goals first | omega | simp

/-- The instant that the fields name, if none of them is negative. -/
def moment (parsed : ParsedTime) : Moment where
  year := parsed.year
  month := parsed.month
  day := parsed.day
  hour := parsed.hour.toNat
  minute := parsed.minute.toNat
  second := parsed.second.toNat

theorem InRange.seconds_eq (inRange : parsed.InRange) :
    parsed.seconds = parsed.moment.unixSeconds := by
  obtain ⟨inYear, _, _, _, _⟩ := inRange
  simp only [seconds, days_eq inYear, Moment.unixSeconds, Moment.days, moment]
  omega

end ParsedTime

def parseFields (value : Str) : Option ParsedTime := do
  let (datePart, timePart) ← splitOnce ' ' value
  let (year, month, day) ← parseDate datePart
  let (hour, minute, second) ← parseTime timePart
  some { year, month, day, hour, minute, second }

theorem parseModifiedToUnixMs_eq (value : Str) :
    parseModifiedToUnixMs value = (parseFields value).map ParsedTime.millis := by
  unfold parseModifiedToUnixMs parseFields
  cases splitOnce ' ' value with
  | none => rfl
  | some parts =>
    simp only [bind_eq_bind, bind_some]
    cases parseDate parts.1 with
    | none => rfl
    | some =>
      simp only [bind_some]
      cases parseTime parts.2 with
      | none | some => rfl

theorem parse_civil {moment : Moment} {year : Nat} (valid : moment.IsValid)
    (sameYear : moment.year = year) (yearSmall : year < 10000) : parseModifiedToUnixMs
      (civil year moment.month moment.day moment.hour moment.minute moment.second) =
      some (1000 * moment.unixSeconds) := by
  have inMonth := valid.day_le
  have inYear := valid.month
  have positive := valid.day.1
  have hour := valid.hour
  have minute := valid.minute
  have second := valid.second
  have date : parseDate (paddedDecimal 4 year ++ '-' :: (paddedDecimal 2 moment.month ++
      '-' :: paddedDecimal 2 moment.day)) = some ((year : Int), moment.month, moment.day) := by
    rw [parseDate, splitOn_fields (by decide)]
    dsimp only
    rw [parseI64_paddedDecimal yearSmall, parseU32_paddedDecimal (by omega),
      parseU32_paddedDecimal (by omega)]
    exact if_pos (by omega)
  have time : parseTime (paddedDecimal 2 moment.hour ++ ':' :: (paddedDecimal 2 moment.minute ++
      ':' :: paddedDecimal 2 moment.second)) =
      some ((moment.hour : Int), (moment.minute : Int), (moment.second : Int)) := by
    rw [parseTime, splitOn_fields (by decide)]
    dsimp only
    rw [parseI64_paddedDecimal (by omega), parseI64_paddedDecimal (by omega),
      parseI64_paddedDecimal (by omega)]
    exact if_neg (by omega)
  have split : splitOnce ' ' (civil year moment.month moment.day moment.hour moment.minute
      moment.second) = some (_, _) :=
    splitOnce_append (by simp [not_mem_paddedDecimal]) _
  have bounds : -2 ^ 50 ≤ moment.unixSeconds ∧ moment.unixSeconds < 2 ^ 50 := by
    have days := valid.days_of_year
    have inDay := valid.days_eq
    have first : daysBeforeYear 0 = -366 := by decide
    have least := daysBeforeYear_monotone (show 0 ≤ moment.year by omega)
    have last := valid.year_lt_iff.mp (by omega)
    omega
  let parsed : ParsedTime :=
    { year, month := moment.month, day := moment.day, hour := moment.hour, minute := moment.minute,
      second := moment.second }
  have inRange : parsed.InRange := ⟨inYear, ⟨positive, inMonth⟩, by simp [parsed, hour],
    by simp [parsed, minute], by simp [parsed, second]⟩
  have seconds : parsed.seconds = moment.unixSeconds := by
    rw [inRange.seconds_eq, Moment.unixSeconds, Moment.unixSeconds, Moment.days, Moment.days,
      sameYear]
    rfl
  have fields : parseFields (civil year moment.month moment.day moment.hour moment.minute
      moment.second) = some parsed := by
    rw [parseFields, split]
    simp [date, time, parsed]
  have fits : FitsI64 (parsed.seconds * 1000) := by
    rw [seconds]
    constructor <;> omega
  rw [parseModifiedToUnixMs_eq, fields, map_some,
    ParsedTime.millis_eq (inRange.steps_fit_iff.mpr fits), seconds, mul_comm]

/-- No step of the parser leaves `i64`, what it accepts is in range, and on a day that exists
it is the time since the epoch. -/
structure FollowsCalendar (value : Str) : Prop where
  fits : ∀ parsed, parseFields value = some parsed → ∀ step ∈ parsed.steps, FitsI64 step
  ranged : ∀ millis, parseModifiedToUnixMs value = some millis →
    ∃ parsed, parseFields value = some parsed ∧ parsed.InRange
  exact : ∀ parsed millis, parseFields value = some parsed →
    parseModifiedToUnixMs value = some millis →
    parsed.day ≤ daysInMonth parsed.year parsed.month → millis = 1000 * parsed.moment.unixSeconds

theorem inRange_of_parseFields {value : Str} {parsed : ParsedTime}
    (found : parseFields value = some parsed) (hour : 0 ≤ parsed.hour) (minute : 0 ≤ parsed.minute)
    (second : 0 ≤ parsed.second) : parsed.InRange := by
  simp only [parseFields, bind_eq_bind, bind_eq_some_iff, some.injEq] at found
  obtain ⟨_, _, _, isDate, _, isTime, rfl⟩ := found
  unfold parseDate at isDate
  unfold parseTime at isTime
  split at isDate
  · simp only [bind_eq_bind, bind_eq_some_iff, ite_none_right_eq_some, some.injEq] at isDate
    obtain ⟨_, _, _, _, _, _, _, rfl⟩ := isDate
    split at isTime
    · simp only [bind_eq_bind, bind_eq_some_iff, ite_none_left_eq_some, some.injEq] at isTime
      obtain ⟨_, _, _, _, _, _, _, rfl⟩ := isTime
      dsimp only at hour minute second
      constructor <;> dsimp only <;> omega
    · cases isTime
  · cases isDate

/-- A text is read by the calendar exactly if none of its fields is negative and its
milliseconds fit `i64`. -/
theorem followsCalendar_iff (value : Str) : FollowsCalendar value ↔
    ∀ parsed, parseFields value = some parsed → 0 ≤ parsed.hour ∧ 0 ≤ parsed.minute ∧
      0 ≤ parsed.second ∧ FitsI64 (1000 * parsed.moment.unixSeconds) := by
  constructor
  · intro follows parsed found
    have read : parseModifiedToUnixMs value = some parsed.millis := by
      rw [parseModifiedToUnixMs_eq, found, map_some]
    obtain ⟨_, isOther, inRange⟩ := follows.ranged _ read
    obtain rfl := some.inj (found.symm.trans isOther)
    refine ⟨inRange.hour.1, inRange.minute.1, inRange.second.1, ?_⟩
    rw [← inRange.seconds_eq, mul_comm]
    exact inRange.steps_fit_iff.mp (follows.fits parsed found)
  · intro meets
    have inRange (parsed : ParsedTime) (found : parseFields value = some parsed) :
        parsed.InRange ∧ ∀ step ∈ parsed.steps, FitsI64 step := by
      obtain ⟨hour, minute, second, fits⟩ := meets parsed found
      have inRange := inRange_of_parseFields found hour minute second
      rw [← inRange.seconds_eq, mul_comm] at fits
      exact ⟨inRange, inRange.steps_fit_iff.mpr fits⟩
    refine ⟨fun parsed found => (inRange parsed found).2, fun millis read => ?_,
      fun parsed millis found read _ => ?_⟩
    · rw [parseModifiedToUnixMs_eq] at read
      obtain ⟨parsed, found, _⟩ := map_eq_some_iff.mp read
      exact ⟨parsed, found, (inRange parsed found).1⟩
    · rw [parseModifiedToUnixMs_eq, found, map_some, some.injEq,
        ParsedTime.millis_eq (inRange parsed found).2, (inRange parsed found).1.seconds_eq,
        mul_comm] at read
      exact read.symm

/-- The hour may be negative. -/
theorem negative_hour_accepted : ¬ FollowsCalendar "2024-01-01 -5:00:00".toList := by
  intro follows
  have read : parseModifiedToUnixMs "2024-01-01 -5:00:00".toList = some 1704049200000 := by
    decide +kernel
  have found : parseFields "2024-01-01 -5:00:00".toList = some ⟨2024, 1, 1, -5, 0, 0⟩ := by
    rfl
  obtain ⟨_, isParsed, inRange⟩ := follows.ranged _ read
  obtain rfl := some.inj (found.symm.trans isParsed)
  exact absurd inRange.hour.1 (by decide)

/-- A text `YYYY-MM-DD hh:mm:ss` of nineteen characters, each field in its range. -/
def IsWireTime (text : Str) : Prop :=
  text.length = 19 ∧ ∃ (moment : Moment) (year : Nat), moment.IsValid ∧ moment.year = year ∧
    text = civil year moment.month moment.day moment.hour moment.minute moment.second

/-- Both texts have the shape and are read back, and a larger count has a larger text. -/
def RendersInOrder (first second : Int) (text otherText : Str) : Prop :=
  (IsWireTime text ∧ parseModifiedToUnixMs text = some (1000 * first)) ∧
    (IsWireTime otherText ∧ parseModifiedToUnixMs otherText = some (1000 * second)) ∧
    (first < second → text < otherText)

theorem length_civil {moment : Moment} (valid : moment.IsValid) (year : Nat) :
    (civil year moment.month moment.day moment.hour moment.minute moment.second).length = 19 ↔
      year < 10000 := by
  have inMonth := valid.day_le
  have twoDigits {number : Nat} (small : number < 100) : (paddedDecimal 2 number).length = 2 :=
    (length_paddedDecimal_eq_iff (by decide)).mpr small
  have inYear := valid.month
  have hour := valid.hour
  have minute := valid.minute
  have second := valid.second
  have fourDigits := @length_paddedDecimal_eq_iff 4 year (by decide)
  simp only [civil, length_append, length_cons,
    twoDigits (show moment.month < 100 by omega), twoDigits (show moment.day < 100 by omega),
    twoDigits (show moment.hour < 100 by omega), twoDigits (show moment.minute < 100 by omega),
    twoDigits (show moment.second < 100 by omega)]
  omega

theorem civil_lt {first second : Moment} {year otherYear : Nat} (valid : first.IsValid)
    (otherValid : second.IsValid) (sameYear : first.year = year)
    (sameOther : second.year = otherYear) (small : year < 10000) (otherSmall : otherYear < 10000)
    (earlier : first.unixSeconds < second.unixSeconds) :
    civil year first.month first.day first.hour first.minute first.second <
      civil otherYear second.month second.day second.hour second.minute second.second := by
  have fields := valid.fields_of_lt otherValid earlier
  have days := valid.day_le
  have otherDays := otherValid.day_le
  obtain ⟨_, -, _, _, _⟩ := valid
  obtain ⟨_, -, _, _, _⟩ := otherValid
  have behind {separator : Char} {text otherText : Str} (less : text < otherText) :
      separator :: text < separator :: otherText :=
    cons_lt_cons_iff.mpr (.inr ⟨rfl, less⟩)
  rw [sameYear, sameOther, Int.ofNat_lt, ofNat_inj] at fields
  simp only [civil, append_assoc, cons_append]
  iterate 5
    refine field_lt (by decide) (by omega)
      (fields.imp_right fun ⟨same, fields⟩ => ⟨same, behind ?_⟩)
  exact paddedDecimal_lt fields (by omega)

section

variable {fromTimestamp : Int → Option Moment} {seconds : Int} {text : Str}

theorem fromUnixSeconds_eq_some (utc : IsUtc fromTimestamp)
    (rendered : fromUnixSeconds fromTimestamp seconds = some text) :
    ∃ (moment : Moment) (year : Nat), moment.IsValid ∧ moment.year = year ∧
      moment.unixSeconds = seconds ∧
      text = civil year moment.month moment.day moment.hour moment.minute moment.second := by
  obtain ⟨moment, found, shown⟩ := bind_eq_some_iff.mp rendered
  split at shown
  next positive =>
    cases shown
    exact ⟨moment, moment.year.toNat, utc.valid found, (toNat_of_nonneg positive).symm,
      utc.elapsed found, rfl⟩
  · cases shown

end

/-- The date and time of a count of seconds. The year is one of four near its share. -/
def gregorian (seconds : Int) : Option Moment :=
  let days := seconds / 86400 + 719162
  let near := days * 400 / 146097
  let year :=
    ((List.range 4).filter fun ahead => daysBeforeYear (near + ahead) ≤ days).length + near - 1
  let dayOfYear := (days - daysBeforeYear year).toNat
  let month :=
    ((List.range 12).filter fun month => daysBeforeMonth year (month + 1) ≤ dayOfYear).length
  let ofDay := (seconds % 86400).toNat
  let moment :=
    Moment.mk year month (dayOfYear - daysBeforeMonth year month + 1) (ofDay / 3600)
      (ofDay / 60 % 60) (ofDay % 60)
  if moment.IsValid ∧ moment.unixSeconds = seconds then some moment else none

theorem isUtc_gregorian : IsUtc gregorian := by
  have checked {seconds : Int} {moment : Moment} (found : gregorian seconds = some moment) :
      moment.IsValid ∧ moment.unixSeconds = seconds := by
    unfold gregorian at found
    dsimp only at found
    split at found
    next holds =>
      cases found
      exact holds
    · cases found
  exact ⟨fun found => (checked found).1, fun found => (checked found).2⟩

/-- The times of two counts are in their shape and order exactly when both have years of
four digits. -/
theorem unix_seconds_in_order_iff {fromTimestamp : Int → Option Moment} (utc : IsUtc fromTimestamp)
    {first second : Int} {text otherText : Str}
    (rendered : fromUnixSeconds fromTimestamp first = some text)
    (otherRendered : fromUnixSeconds fromTimestamp second = some otherText) :
    RendersInOrder first second text otherText ↔ first < 253402300800 ∧ second < 253402300800 := by
  obtain ⟨moment, year, valid, sameYear, rfl, rfl⟩ := fromUnixSeconds_eq_some utc rendered
  obtain ⟨other, otherYear, otherValid, sameOther, rfl, rfl⟩ :=
    fromUnixSeconds_eq_some utc otherRendered
  have length := length_civil valid year
  have otherLength := length_civil otherValid otherYear
  rw [← valid.year_lt_iff, ← otherValid.year_lt_iff, sameYear, sameOther]
  constructor
  · rintro ⟨⟨wire, -⟩, ⟨otherWire, -⟩, -⟩
    exact ⟨by exact_mod_cast length.mp wire.1, by exact_mod_cast otherLength.mp otherWire.1⟩
  · rintro ⟨four, otherFour⟩
    have small : year < 10000 := by exact_mod_cast four
    have otherSmall : otherYear < 10000 := by exact_mod_cast otherFour
    refine ⟨⟨⟨length.mpr small, moment, year, valid, sameYear, rfl⟩,
      parse_civil valid sameYear small⟩,
      ⟨⟨otherLength.mpr otherSmall, other, otherYear, otherValid, sameOther, rfl⟩,
        parse_civil otherValid sameOther otherSmall⟩, fun earlier => ?_⟩
    exact civil_lt valid otherValid sameYear sameOther small otherSmall earlier

/-- A time before 1970 beside one of 2026. -/
theorem negative_seconds_in_order : ∃ text otherText, fromUnixSeconds gregorian (-1) = some text ∧
    fromUnixSeconds gregorian 1777894640 = some otherText ∧
    RendersInOrder (-1) 1777894640 text otherText := by
  have before : fromUnixSeconds gregorian (-1) = some "1969-12-31 23:59:59".toList := by
    decide +kernel
  have after : fromUnixSeconds gregorian 1777894640 = some "2026-05-04 11:37:20".toList := by
    decide +kernel
  exact ⟨_, _, before, after,
    (unix_seconds_in_order_iff isUtc_gregorian before after).mpr (by decide)⟩

/-- The first second of the year 10000 has a text of twenty characters, which comes
before that of the second before. -/
theorem five_digit_year_rendered : ¬ ∀ (fromTimestamp : Int → Option Moment), IsUtc fromTimestamp →
    ∀ first second text otherText, fromUnixSeconds fromTimestamp first = some text →
      fromUnixSeconds fromTimestamp second = some otherText →
        RendersInOrder first second text otherText := by
  intro always
  have last : fromUnixSeconds gregorian 253402300799 = some "9999-12-31 23:59:59".toList := by
    decide +kernel
  have next : fromUnixSeconds gregorian 253402300800 = some "10000-01-01 00:00:00".toList := by
    decide +kernel
  obtain ⟨-, ⟨wire, -⟩, -⟩ := always gregorian isUtc_gregorian _ _ _ _ last next
  have length := wire.1
  revert length
  decide

end Arclain.EntryTime
