import Mathlib.Data.Nat.Digits.Defs

namespace Arclain.LittleEndian

/-!
# Little-endian numbers

A number of a fixed width is written with its lowest byte first.  Reading is
Mathlib's `Nat.ofDigits` on the bytes.
-/

open List

/-- The number that bytes stand for, the lowest byte first. -/
def toNat (bytes : List UInt8) : Nat := Nat.ofDigits 256 (bytes.map UInt8.toNat)

def ofNat : Nat → Nat → List UInt8
  | 0, _ => []
  | width + 1, number => UInt8.ofNat (number % 256) :: ofNat width (number / 256)

@[simp] theorem length_ofNat (width number : Nat) : (ofNat width number).length = width := by
  induction width generalizing number with
  | zero => rfl
  | succ width ih => rw [ofNat, length_cons, ih]

theorem toNat_ofNat {width number : Nat} (fits : number < 256 ^ width) :
    toNat (ofNat width number) = number := by
  induction width generalizing number with
  | zero =>
    obtain rfl : number = 0 := by simpa using fits
    rfl
  | succ width ih =>
    have quotient : number / 256 < 256 ^ width := by
      rw [pow_succ] at fits
      omega
    have byte : (UInt8.ofNat (number % 256)).toNat = number % 256 := by
      rw [UInt8.toNat_ofNat']
      omega
    have rest := ih quotient
    unfold toNat at rest ⊢
    rw [ofNat, map_cons, Nat.ofDigits_cons, rest, byte]
    omega

variable (bytes : List UInt8)

theorem toNat_lt : toNat bytes < 256 ^ bytes.length := by
  have digits : ∀ digit ∈ bytes.map UInt8.toNat, digit < 256 := by
    intro digit mem
    obtain ⟨byte, _, rfl⟩ := mem_map.mp mem
    exact UInt8.toNat_lt byte
  have bound := Nat.ofDigits_lt_base_pow_length (by decide) digits
  rw [length_map] at bound
  exact bound

theorem ofNat_toNat : ofNat bytes.length (toNat bytes) = bytes := by
  induction bytes with
  | nil => rfl
  | cons byte bytes ih =>
    have below := UInt8.toNat_lt byte
    have value : toNat (byte :: bytes) = byte.toNat + 256 * toNat bytes := by
      unfold toNat
      rw [map_cons, Nat.ofDigits_cons]
    have low : (byte.toNat + 256 * toNat bytes) % 256 = byte.toNat := by omega
    have high : (byte.toNat + 256 * toNat bytes) / 256 = toNat bytes := by omega
    rw [length_cons, ofNat, value, low, high, ih, UInt8.ofNat_toNat]

end Arclain.LittleEndian
