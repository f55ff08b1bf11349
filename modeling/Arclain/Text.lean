import Mathlib.Algebra.Group.Int.Defs
import Mathlib.Algebra.GroupWithZero.Nat
import Mathlib.Data.Char
import Mathlib.Data.List.Basic
import Mathlib.Data.List.Dedup
import Mathlib.Data.List.DropRight
import Mathlib.Data.List.Infix
import Mathlib.Data.List.Lex
import Mathlib.Data.List.Sort

namespace Arclain

/-!
# Text

Strings are lists of characters.  Prefix tests, splitting and replacement follow the
standard library, whose byte offsets only ever fall on character boundaries here.

The Unicode tables are a parameter, `CharTables`: nothing depends on more than its laws.
-/

open List Char Nat

abbrev Str := List Char

instance : LawfulBEq Str := inferInstance

namespace Text

/-- The Unicode tables. Upper-casing maps each character to a string, and only a slash
upper-cases to text with one. -/
class CharTables where
  toUppercase : Char → Str
  toLowercase : Str → Str
  isAlphanumeric : Char → Bool
  escapeDebug : Char → Str
  uppercaseSlash : toUppercase '/' = ['/']
  slashOfUppercase : ∀ {char}, '/' ∈ toUppercase char → char = '/'

/-- How the debug form of a string writes an ASCII character. -/
def escapeAscii (char : Char) : Str :=
  if char = '"' ∨ char = '\\' then ['\\', char]
  else if char = '\n' then ['\\', 'n']
  else if char = '\r' then ['\\', 'r']
  else if char = '\t' then ['\\', 't']
  else if char = '\x00' then ['\\', '0']
  else if char.toNat < 0x20 ∨ char.toNat = 0x7F then
    "\\u\x7b".toList ++ toDigits 16 char.toNat ++ "\x7d".toList
  else [char]

/-- The tables restricted to ASCII, which agree with Unicode on ASCII text. -/
@[reducible] def asciiTables : CharTables where
  toUppercase char := [char.toUpper]
  toLowercase text := text.map toLower
  isAlphanumeric := isAlphanum
  escapeDebug := escapeAscii
  uppercaseSlash := by decide
  slashOfUppercase := by
    intro char mem
    simp only [mem_singleton] at mem
    unfold toUpper at mem
    split at mem
    next lower =>
      have above : 97 ≤ char.toNat := lower.1
      have below : char.toNat ≤ 122 := lower.2
      have value := congrArg (fun upper => upper.val.toNat) mem
      simp at value
      omega
    · exact mem.symm

theorem toNat_toLower (char : Char) : char.toLower.toNat =
    if 65 ≤ char.toNat ∧ char.toNat ≤ 90 then char.toNat + 32
    else char.toNat := by
  have range : (char.val ≥ 'A'.val ∧ char.val ≤ 'Z'.val) ↔ 65 ≤ char.toNat ∧ char.toNat ≤ 90 := by
    rw [ge_iff_le, UInt32.le_iff_toNat_le, UInt32.le_iff_toNat_le]
    exact Iff.rfl
  unfold toLower
  split
  next upper =>
    rw [if_pos (range.mp upper)]
    have bound := (range.mp upper).2
    have sum : (char.val + ('a'.val - 'A'.val)).toNat = char.toNat + 32 := by
      rw [UInt32.toNat_add]
      change (char.toNat + 32) % 2 ^ 32 = char.toNat + 32
      omega
    exact sum
  next other => rw [if_neg (range.not.mp other)]

theorem toLower_toLower (char : Char) : char.toLower.toLower = char.toLower := by
  apply toNat_inj.mp
  rw [toNat_toLower char.toLower, if_neg]
  rw [toNat_toLower]
  split
  · omega
  · assumption

/-- `str::to_uppercase`: each character by its own table entry. -/
def uppercase [CharTables] (text : Str) : Str := text.flatMap CharTables.toUppercase

/-- The debug form of a string: quoted, each character escaped on its own. -/
def debugText [CharTables] (text : Str) : Str :=
  ['"'] ++ text.flatMap CharTables.escapeDebug ++ ['"']

/-- `str::replace` of one character by another. -/
def replaceChar (old new : Char) (text : Str) : Str :=
  text.map fun char => if char = old then new else char

/-- Backslashes read as slashes, as every path of an archive is normalised. -/
def forwardSlashes (text : Str) : Str := replaceChar '\\' '/' text

/-- The `White_Space` property. -/
def isWhitespace (char : Char) : Bool :=
  let code := char.toNat
  (9 ≤ code && code ≤ 13) || code == 32 || code == 0x85 || code == 0xA0 ||
    code == 0x1680 || (0x2000 ≤ code && code ≤ 0x200A) ||
    code == 0x2028 || code == 0x2029 || code == 0x202F ||
    code == 0x205F || code == 0x3000

/-- `char::is_control`: the general category `Cc`. -/
def isControl (char : Char) : Bool := char.toNat < 0x20 || (0x7F ≤ char.toNat && char.toNat ≤ 0x9F)

/-- `trim_start_matches` by a character test. -/
def trimStartMatches (test : Char → Bool) (text : Str) : Str := text.dropWhile test

/-- `trim_end_matches` by a character test. -/
def trimEndMatches (test : Char → Bool) (text : Str) : Str := (text.reverse.dropWhile test).reverse

/-- `str::trim`. -/
def trim (text : Str) : Str := trimEndMatches isWhitespace (trimStartMatches isWhitespace text)

/-- `str::starts_with`. -/
def startsWith (text leading : Str) : Bool := leading.isPrefixOf text

/-- `str::ends_with`. -/
def endsWith (text trailing : Str) : Bool := trailing.isSuffixOf text

/-- `str::contains` for a string pattern. -/
def containsText (text pattern : Str) : Bool := text.tails.any fun rest => pattern.isPrefixOf rest

/-- `str::eq_ignore_ascii_case`. -/
def eqIgnoreAsciiCase (first second : Str) : Bool :=
  first.map toLower == second.map toLower

/-- `str::to_ascii_lowercase`. -/
def toAsciiLowercase (text : Str) : Str := text.map toLower

/-- `str::to_ascii_uppercase`. -/
def toAsciiUppercase (text : Str) : Str := text.map toUpper

/-- `[&str]::join`. -/
def join (separator : Str) (parts : List Str) : Str := separator.intercalate parts

/-- `str::lines`: split at line feeds, without trailing carriage returns and an empty text
at the end. -/
def lines (text : Str) : List Str :=
  let pieces := text.splitOn '\n'
  let kept := if pieces.getLast? = some [] then pieces.dropLast else pieces
  kept.map fun line => (line.dropSuffix? ['\r']).getD line

def rsplitOnce (separator : Char) (text : Str) : Option (Str × Str) :=
  if separator ∈ text then
    let after := (text.reverse.takeWhile (· ≠ separator)).reverse
    some (text.take (text.length - after.length - 1), after)
  else none

def decimal (number : Nat) : Str := (toDigits 10 number)

def paddedDecimal (width number : Nat) : Str :=
  let digits := decimal number
  List.replicate (width - digits.length) '0' ++ digits

theorem decimal_eq_paddedDecimal (number : Nat) : decimal number = paddedDecimal 0 number := by
  simp [paddedDecimal]

theorem isDigit_of_mem_paddedDecimal {width number : Nat} {char : Char}
    (mem : char ∈ paddedDecimal width number) : char.isDigit = true := by
  rcases mem_append.mp mem with padding | digit
  · rw [(mem_replicate.mp padding).2]
    rfl
  · exact isDigit_of_mem_toDigits (by decide) (by decide) digit

theorem paddedDecimal_ne_nil (width number : Nat) : paddedDecimal width number ≠ [] := by
  simp [paddedDecimal, decimal]

@[simp] theorem ofDigitChars_paddedDecimal (width number : Nat) :
    ofDigitChars 10 (paddedDecimal width number) 0 = number := by
  simp [paddedDecimal, decimal, ofDigitChars_append]

theorem paddedDecimal_injective {firstWidth secondWidth first second : Nat}
    (same : paddedDecimal firstWidth first = paddedDecimal secondWidth second) :
    first = second := by
  rw [← ofDigitChars_paddedDecimal firstWidth first, same, ofDigitChars_paddedDecimal]

theorem length_paddedDecimal (width number : Nat) :
    (paddedDecimal width number).length = max width (decimal number).length := by
  rw [paddedDecimal, length_append, length_replicate]
  omega

theorem length_paddedDecimal_eq_iff {width number : Nat} (positive : 0 < width) :
    (paddedDecimal width number).length = width ↔ number < 10 ^ width := by
  rw [← length_toDigits_le_iff (by decide) positive, length_paddedDecimal, decimal]
  omega

theorem paddedDecimal_digit {width digit : Nat} (positive : 0 < width) (isDigit : digit < 10)
    (number : Nat) : paddedDecimal (width + 1) (10 * number + digit) =
      paddedDecimal width number ++ [digitChar digit] := by
  by_cases zero : number = 0
  · rw [zero, mul_zero, Nat.zero_add, paddedDecimal, paddedDecimal, decimal, decimal,
      toDigits_of_lt_base isDigit, toDigits_zero, length_singleton,
      length_singleton, Nat.add_sub_cancel, ← replicate_succ', Nat.sub_add_cancel positive]
  · have digitsOfSum : decimal (10 * number + digit) = decimal number ++ [digitChar digit] := by
      rw [decimal, decimal, ← toDigits_append_toDigits (by decide)
        (Nat.pos_of_ne_zero zero) isDigit, toDigits_of_lt_base isDigit]
    rw [paddedDecimal, digitsOfSum, length_append, length_singleton,
      Nat.add_sub_add_right, ← append_assoc]
    rfl

theorem decimal_injective {first second : Nat} (same : decimal first = decimal second) :
    first = second := by
  rw [← @Nat.ofDigitChars_ten_toDigits first, ← @Nat.ofDigitChars_ten_toDigits second]
  exact congrArg (fun digits => ofDigitChars 10 digits 0) same

/-- The sorted, duplicate-free elements of a list, as a `BTreeSet` iterates. -/
def sortedSet (items : List Str) : List Str := items.dedup.insertionSort (· ≤ ·)

@[simp] theorem mem_sortedSet {items : List Str} {item : Str} :
    item ∈ sortedSet items ↔ item ∈ items := by
  simp [sortedSet]

theorem nodup_sortedSet (items : List Str) : (sortedSet items).Nodup :=
  (perm_insertionSort _ _).nodup_iff.mpr (nodup_dedup items)

theorem false_of_mem_splitOnP {Symbol : Type*} {test : Symbol → Bool} {text piece : List Symbol}
    (mem : piece ∈ text.splitOnP test) {symbol : Symbol} (inside : symbol ∈ piece) :
    test symbol = false := by
  induction text generalizing piece with
  | nil =>
    obtain rfl : piece = [] := by simpa using mem
    cases inside
  | cons _ rest ih =>
    rw [splitOnP_cons_eq_if_modifyHead] at mem
    split at mem
    · rcases mem_cons.mp mem with rfl | later
      · cases inside
      · exact ih later inside
    next different =>
      cases pieces : rest.splitOnP test with
      | nil => simp [pieces] at mem
      | cons first =>
        rw [pieces] at mem ih
        rcases mem_cons.mp mem with rfl | later
        · rcases mem_cons.mp inside with rfl | behind
          · exact Bool.eq_false_of_not_eq_true different
          · exact ih mem_cons_self behind
        · exact ih (mem_cons_of_mem first later) inside

theorem notMem_of_mem_splitOn {Symbol : Type*} [DecidableEq Symbol] {separator : Symbol}
    {text piece : List Symbol} (mem : piece ∈ text.splitOn separator) : separator ∉ piece := by
  intro inside
  rw [splitOn_eq_splitOnP] at mem
  simpa using false_of_mem_splitOnP mem inside

theorem all_splitOn {Symbol : Type*} [DecidableEq Symbol] {separator : Symbol}
    (test : Symbol → Bool) (passes : test separator = true) (text : List Symbol) :
    (text.splitOn separator).all (fun piece => piece.all test) = text.all test := by
  induction text with
  | nil => simp
  | cons _ rest ih =>
    rw [splitOn_cons_eq_if_modifyHead, all_cons, ← ih]
    split
    next separates =>
      rw [beq_iff_eq] at separates
      simp [separates, passes]
    · cases pieces : rest.splitOn separator with
      | nil => exact absurd pieces (splitOn_ne_nil separator rest)
      | cons piece => simp [Bool.and_assoc]

theorem rsplitOnce_spec {separator : Char} {text before behind : Str}
    (found : rsplitOnce separator text = some (before, behind)) :
    text = before ++ separator :: behind ∧ separator ∉ behind := by
  unfold rsplitOnce at found
  split at found
  next mem =>
    cases found
    have halves :=
      @List.takeWhile_append_dropWhile _ (fun char => decide (char ≠ separator)) text.reverse
    cases rest : text.reverse.dropWhile fun char => decide (char ≠ separator) with
    | nil =>
      have absent := dropWhile_eq_nil_iff.mp rest separator (mem_reverse.mpr mem)
      simp at absent
    | cons _ others =>
      have some : (text.reverse.dropWhile fun char => decide (char ≠ separator)) ≠ [] := by
        rw [rest]
        exact cons_ne_nil _ _
      have stops := head_dropWhile_not _ some
      simp only [rest, head_cons, decide_eq_false_iff_not, not_not] at stops
      rw [rest, stops] at halves
      have whole : text = others.reverse ++ separator ::
          (text.reverse.takeWhile fun char => decide (char ≠ separator)).reverse := by
        have reversed := congrArg List.reverse halves
        rw [reverse_reverse, reverse_append, reverse_cons, append_assoc] at reversed
        exact reversed.symm
      have lengths := congrArg List.length whole
      rw [length_append, length_cons] at lengths
      have isBefore : text.take (text.length - (text.reverse.takeWhile
          fun char => decide (char ≠ separator)).reverse.length - 1) = others.reverse := by
        rw [show text.length - _ - 1 = others.reverse.length by omega]
        conv_lhs => rw [whole]
        exact take_left
      rw [isBefore]
      refine ⟨whole, fun inside => ?_⟩
      have passed := mem_takeWhile_imp (mem_reverse.mp inside)
      exact of_decide_eq_true passed rfl
  · cases found

variable (text : Str)

@[simp] theorem forwardSlashes_idem :
    forwardSlashes (forwardSlashes text) = forwardSlashes text := by
  simp only [forwardSlashes, replaceChar, map_map, map_inj_left, Function.comp_apply]
  intro char _
  by_cases backslash : char = '\\'
  · simp [backslash]
  · simp [backslash]

theorem forwardSlashes_eq_self {text : Str} (clean : '\\' ∉ text) : forwardSlashes text = text := by
  refine (map_congr_left fun char mem => ?_).trans (map_id text)
  have different : char ≠ '\\' := by
    rintro rfl
    exact clean mem
  simp [different]

theorem backslash_notMem_forwardSlashes : '\\' ∉ forwardSlashes text := by
  intro mem
  obtain ⟨_, -, same⟩ := mem_map.mp mem
  split at same
  · simp at same
  · contradiction

@[simp] theorem trim_trim : trim (trim text) = trim text := by
  have ended (rest : Str) : trimEndMatches isWhitespace rest = rest.rdropWhile isWhitespace := rfl
  have started : trimStartMatches isWhitespace (trim text) = trim text := by
    rw [trim, ended, trimStartMatches, trimStartMatches, dropWhile_eq_self_iff]
    intro nonempty
    have leading : (text.dropWhile isWhitespace).rdropWhile isWhitespace <+:
        text.dropWhile isWhitespace :=
      rdropWhile_prefix _ _
    have same := leading.getElem nonempty
    have first :=
      dropWhile_get_zero_not isWhitespace text (lt_of_lt_of_le nonempty leading.length_le)
    simp only [get_eq_getElem] at first ⊢
    rw [same]
    exact first
  rw [trim, started, trim, ended, ended, rdropWhile_idempotent]

section

variable [CharTables]

theorem uppercase_append (first second : Str) :
    uppercase (first ++ second) = uppercase first ++ uppercase second := by
  simp [uppercase]

theorem slash_notMem_uppercase {text : Str} (clean : '/' ∉ text) : '/' ∉ uppercase text := by
  intro mem
  obtain ⟨_, charMember, slashMember⟩ := mem_flatMap.mp mem
  obtain rfl := CharTables.slashOfUppercase slashMember
  exact clean charMember

theorem uppercase_join (parts : List Str) :
    uppercase (join ['/'] parts) = join ['/'] (parts.map uppercase) := by
  induction parts with
  | nil => rfl
  | cons _ rest ih =>
    cases rest with
    | nil => simp [join]
    | cons =>
      have slash : uppercase ['/'] = ['/'] := by simp [uppercase, CharTables.uppercaseSlash]
      simp only [join, map_cons, intercalate_cons_cons, uppercase_append, slash] at ih ⊢
      rw [ih]

end

end Text

end Arclain
