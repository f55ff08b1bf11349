import Mathlib.Data.Nat.Digits.Defs
import Arclain.Text

namespace Arclain.TextFormat

/-!
# Texts that can be read back

A format writes values as text and reads them from the front of a text.  It carries the law
that what was written is read back, whatever follows.

The strings are JSON strings as a compact JSON writer escapes them.
-/

open List Text Char Nat

/-- A way to write values as text and to read them back. -/
structure Format (Value : Type*) where
  write : Value → Str
  read : Str → Option (Value × Str)
  reads : ∀ value rest, read (write value ++ rest) = some (value, rest)

namespace Format

variable {Value Other : Type*}

def readAll (format : Format Value) (text : Str) : Option Value :=
  match format.read text with
  | some (value, []) => some value
  | _ => none

@[simp] theorem readAll_write (format : Format Value) (value : Value) :
    format.readAll (format.write value) = some value := by
  have reads := format.reads value []
  rw [append_nil] at reads
  rw [readAll, reads]

def readLiteral : Str → Str → Option Str
  | [], rest => some rest
  | _ :: _, [] => none
  | expected :: literal, found :: rest =>
    if expected = found then readLiteral literal rest else none

@[simp] theorem readLiteral_append (literal rest : Str) :
    readLiteral literal (literal ++ rest) = some rest := by
  induction literal with
  | nil => rfl
  | cons _ literal ih => simp [readLiteral, ih]

def after (literal : Str) (format : Format Value) : Format Value where
  write value := literal ++ format.write value
  read text := (readLiteral literal text).bind format.read
  reads value rest := by simp [format.reads]

def followedBy (format : Format Value) (literal : Str) : Format Value where
  write value := format.write value ++ literal
  read text :=
    (format.read text).bind fun (value, rest) =>
      (readLiteral literal rest).map fun rest => (value, rest)
  reads value rest := by simp [format.reads]

def seq (first : Format Value) (second : Format Other) : Format (Value × Other) where
  write pair := first.write pair.1 ++ second.write pair.2
  read text :=
    (first.read text).bind fun (value, rest) =>
      (second.read rest).map fun (other, rest) => ((value, other), rest)
  reads pair rest := by simp [first.reads, second.reads]

def convert (format : Format Value) (wrap : Value → Other) (unwrap : Other → Value)
    (inverse : ∀ other, wrap (unwrap other) = other) : Format Other where
  write other := format.write (unwrap other)
  read text := (format.read text).map fun (value, rest) => (wrap value, rest)
  reads other rest := by simp [format.reads, inverse]

end Format

/-- `true` or `false`. -/
def bool : Format Bool where
  write value := if value then "true".toList else "false".toList
  read text :=
    match Format.readLiteral "true".toList text with
    | some rest => some (true, rest)
    | none => (Format.readLiteral "false".toList text).map fun rest => (false, rest)
  reads value rest := by
    cases value with
    | true | false => rfl

def numberAndComma (bound : Nat) : Format (Fin bound) where
  write value := decimal value ++ [',']
  read text :=
    let digits := text.takeWhile isDigit
    let value := ofDigitChars 10 digits 0
    if inRange : digits ≠ [] ∧ value < bound then
      (Format.readLiteral [','] (text.dropWhile isDigit)).map fun rest =>
        (⟨value, inRange.2⟩, rest)
    else none
  reads value rest := by
    have digits : ∀ char ∈ decimal value, char.isDigit := by
      intro char mem
      exact isDigit_of_mem_toDigits (by decide) (by decide) mem
    have taken : (decimal value ++ [','] ++ rest).takeWhile isDigit = decimal value := by
      rw [append_assoc, takeWhile_append_of_pos digits]
      simp
    have dropped : (decimal value ++ [','] ++ rest).dropWhile isDigit = ',' :: rest := by
      rw [append_assoc, dropWhile_append_of_pos digits]
      simp
    have number : ofDigitChars 10 (decimal value) 0 = value := ofDigitChars_ten_toDigits
    have nonempty : decimal value ≠ [] := toDigits_ne_nil
    simp only [taken, dropped, number]
    rw [dif_pos ⟨nonempty, value.isLt⟩]
    simp [Format.readLiteral]

def byteAndComma : Format UInt8 :=
  (numberAndComma (2 ^ 8)).convert UInt8.ofFin UInt8.toFin fun _ => rfl

/-- A decimal number of 32 bits and a comma behind it. -/
def uint32AndComma : Format UInt32 :=
  (numberAndComma (2 ^ 32)).convert UInt32.ofFin UInt32.toFin fun _ => rfl

def letterEscapes : List (Char × Char) :=
  [('"', '"'), ('\\', '\\'), ('\x08', 'b'), ('\t', 't'), ('\n', 'n'), ('\x0c', 'f'), ('\r', 'r')]

def escapeChar (char : Char) : Str :=
  match letterEscapes.find? fun escape => escape.1 = char with
  | some (_, letter) => ['\\', letter]
  | none =>
    if char.toNat < 32 then
      ['\\', 'u', '0', '0', digitChar (char.toNat / 16), digitChar (char.toNat % 16)]
    else [char]

def hexValue (digit : Char) : Option Nat :=
  (List.range 16).find? fun value => digitChar value = digit

/-- The characters of a JSON string up to its closing quote. -/
def readString : Str → Option (Str × Str)
  | [] => none
  | '"' :: rest => some ([], rest)
  | '\\' :: 'u' :: '0' :: '0' :: high :: low :: rest => do
    let high ← hexValue high
    let low ← hexValue low
    let (text, rest) ← readString rest
    some (ofNat (16 * high + low) :: text, rest)
  | '\\' :: letter :: rest => do
    let (char, _) ← letterEscapes.find? fun escape => escape.2 = letter
    let (text, rest) ← readString rest
    some (char :: text, rest)
  | char :: rest => do
    let (text, rest) ← readString rest
    some (char :: text, rest)

theorem hexValue_digitChar (value : Nat) (bounded : value < 16) :
    hexValue (digitChar value) = some value := by
  have all : ∀ value ∈ List.range 16, hexValue (digitChar value) = some value := by decide
  exact all value (mem_range.mpr bounded)

theorem readString_letter {char letter : Char} (rest : Str)
    (listed : (char, letter) ∈ letterEscapes) : readString ('\\' :: letter :: rest) =
      (readString rest).map fun (text, rest) => (char :: text, rest) := by
  simp only [letterEscapes, mem_cons, Prod.mk.injEq, not_mem_nil, or_false] at listed
  rcases listed with ⟨rfl, rfl⟩ | ⟨rfl, rfl⟩ | ⟨rfl, rfl⟩ | ⟨rfl, rfl⟩ |
    ⟨rfl, rfl⟩ | ⟨rfl, rfl⟩ | ⟨rfl, rfl⟩
  all_goals
    rw [readString.eq_def]
    cases read : readString rest <;> simp [letterEscapes, read]

theorem readString_escapeChar (char : Char) (rest : Str) : readString (escapeChar char ++ rest) =
    (readString rest).map fun (text, rest) => (char :: text, rest) := by
  unfold escapeChar
  cases escapes : letterEscapes.find? fun escape => escape.1 = char with
  | some escape =>
    have found : escape.1 = char := by simpa using List.find?_some escapes
    subst found
    exact readString_letter rest (mem_of_find?_eq_some escapes)
  | none =>
    dsimp only
    split
    next control =>
      have high := hexValue_digitChar (char.toNat / 16) (by omega)
      have low := hexValue_digitChar (char.toNat % 16) (by omega)
      have joined : ofNat (16 * (char.toNat / 16) + char.toNat % 16) = char := by
        rw [div_add_mod]
        exact ofNat_toNat char
      simp only [cons_append, nil_append]
      rw [readString, high, low]
      cases read : readString rest <;> simp [joined]
    · have quote : char ≠ '"' := by
        rintro rfl
        cases escapes
      have backslash : char ≠ '\\' := by
        rintro rfl
        cases escapes
      simp only [cons_append, nil_append]
      rw [readString.eq_def]
      cases read : readString rest <;> simp_all

theorem readString_escaped (text rest : Str) :
    readString (text.flatMap escapeChar ++ '"' :: rest) = some (text, rest) := by
  induction text with
  | nil => simp [readString]
  | cons _ text ih =>
    rw [flatMap_cons, append_assoc, readString_escapeChar, ih]
    rfl

def string : Format Str where
  write text := '"' :: text.flatMap escapeChar ++ ['"']
  read text := (Format.readLiteral ['"'] text).bind readString
  reads text rest := by
    have read := readString_escaped text rest
    simp [Format.readLiteral, read]

/-- A JSON string or `null`. -/
def optionalString : Format (Option Str) where
  write
    | none => "null".toList
    | some text => string.write text
  read text :=
    match Format.readLiteral "null".toList text with
    | some rest => some (none, rest)
    | none => (string.read text).map fun (text, rest) => (some text, rest)
  reads text rest := by
    cases text with
    | none => rfl
    | some text =>
      have quoted : Format.readLiteral "null".toList (string.write text ++ rest) = none := rfl
      simp only [quoted, string.reads]
      rfl

end Arclain.TextFormat
