import Arclain.Text

namespace Arclain

/-!
# The modification time of an archive row

Backends report a modification time as a text, and a row carries it as Unix
milliseconds.  The arithmetic is that of `i64` in a release build: it wraps.
Fields are read by the integer parsers of the standard library, which accept a
leading sign.
-/

open Text

/-- Wrap around at the bounds of `i64`. -/
def wrapI64 (value : Int) : Int := value.bmod (2 ^ 64)

def parseDigits (text : Str) : Option Nat :=
  if text ≠ [] ∧ text.all Char.isDigit then
    some (text.foldl (fun value char => value * 10 + (char.toNat - 48)) 0)
  else none

theorem parseDigits_paddedDecimal (width number : Nat) :
    parseDigits (paddedDecimal width number) = some number := by
  have folded := ofDigitChars_paddedDecimal width number
  unfold Nat.ofDigitChars at folded
  rw [parseDigits, if_pos ⟨paddedDecimal_ne_nil _ _, List.all_eq_true.mpr fun char mem =>
    isDigit_of_mem_paddedDecimal mem⟩]
  simp only [Nat.mul_comm 10] at folded
  exact congrArg some folded

def parseSigned : Str → Option Int
  | '+' :: digits => (parseDigits digits).map Int.ofNat
  | '-' :: digits => (parseDigits digits).map fun value => -(value : Int)
  | digits => (parseDigits digits).map Int.ofNat

/-- `str::parse::<i64>`. -/
def parseI64 (text : Str) : Option Int :=
  (parseSigned text).filter fun value => -2 ^ 63 ≤ value ∧ value < 2 ^ 63

/-- `str::parse::<u32>`, which takes no minus sign. -/
def parseU32 : Str → Option Nat
  | '+' :: digits => (parseDigits digits).filter (· < 2 ^ 32)
  | digits => (parseDigits digits).filter (· < 2 ^ 32)

/-- `str::split_once`. -/
def splitOnce (separator : Char) (text : Str) : Option (Str × Str) :=
  if separator ∈ text then
    some (text.takeWhile (· ≠ separator), (text.dropWhile (· ≠ separator)).tail)
  else none

theorem splitOnce_append {separator : Char} {before : Str} (absent : separator ∉ before)
    (after : Str) : splitOnce separator (before ++ separator :: after) = some (before, after) := by
  have differs : ∀ char ∈ before, decide (char ≠ separator) = true := by
    intro char mem
    refine decide_eq_true ?_
    rintro rfl
    exact absent mem
  rw [splitOnce, if_pos (by simp), List.takeWhile_append_of_pos differs,
    List.dropWhile_append_of_pos differs]
  simp

def daysFromCivil (year : Int) (month day : Nat) : Int :=
  let y := if month ≤ 2 then wrapI64 (year - 1) else year
  let era := (if 0 ≤ y then y else wrapI64 (y - 399)).tdiv 400
  let yoe := wrapI64 (y - era * 400)
  let mp := (month + 9) % 12
  let doy : Int := ((153 * mp + 2) / 5 : Nat) + day - 1
  let doe := wrapI64 (yoe * 365 + yoe.tdiv 4 - yoe.tdiv 100 + doy)
  wrapI64 (era * 146097 + doe - 719468)

/-- The year, month and day of a text `year-month-day`. -/
def parseDate (text : Str) : Option (Int × Nat × Nat) :=
  match text.splitOn '-' with
  | [yearText, monthText, dayText] => do
    let year ← parseI64 yearText
    let month ← parseU32 monthText
    let day ← parseU32 dayText
    if 1 ≤ month ∧ month ≤ 12 ∧ 1 ≤ day ∧ day ≤ 31 then some (year, month, day)
    else none
  | _ => none

/-- The hour, minute and second of a text `hour:minute:second`. -/
def parseTime (text : Str) : Option (Int × Int × Int) :=
  match text.splitOn ':' with
  | [hourText, minuteText, secondText] => do
    let hour ← parseI64 hourText
    let minute ← parseI64 minuteText
    let second ← parseI64 secondText
    if hour ≥ 24 ∨ minute ≥ 60 ∨ second ≥ 60 then none
    else some (hour, minute, second)
  | _ => none

def parseModifiedToUnixMs (value : Str) : Option Int := do
  let (datePart, timePart) ← splitOnce ' ' value
  let (year, month, day) ← parseDate datePart
  let (hour, minute, second) ← parseTime timePart
  let days := daysFromCivil year month day
  let seconds := wrapI64 (days * 86400 + hour * 3600 + minute * 60 + second)
  some (wrapI64 (seconds * 1000))

end Arclain
