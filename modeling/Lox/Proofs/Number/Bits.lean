import Mathlib
import Lox.Number.Binary64

/-!
# Doubles by sign and magnitude

A finite double is made of a sign and a finite word (`ofParts`), and of no other ones. Negation changes the sign
alone, and the absolute value has the same word.
-/

namespace Lox.Number
open Float.Model Float.Model.UnpackedFloat

variable {negative : Bool} {word : Nat} {v : Float}

/-! ## Bits -/

def bits (negative : Bool) (word : Nat) : UInt64 := .ofNat ((if negative then signBit else 0) + word)

/-- The double with this sign and this magnitude word. -/
def ofParts (negative : Bool) (word : Nat) : Float := .ofBits (bits negative word)

def sign (negative : Bool) : Sign := if negative then .negative else .positive

theorem toNat_bits (small : word < signBit) :
    (bits negative word).toNat = (if negative then signBit else 0) + word := by
  have bound : (if negative then signBit else 0) + word < 2 ^ 64 := by
    unfold signBit at *
    split <;> omega
  rw [bits, UInt64.toNat_ofNat', Nat.mod_eq_of_lt bound]

theorem toBitVec_bits (small : word < signBit) :
    (bits negative word).toBitVec =
      packComponents .binary64 (sign negative) (.ofNat 11 (word / binade)) (.ofNat 52 word) := by
  apply BitVec.eq_of_toNat_eq
  have fraction : word % 2 ^ 52 < 2 ^ 52 := Nat.mod_lt _ (by decide)
  have exponent : word / binade < 2 ^ 11 := by
    unfold signBit binade at *
    omega
  rw [UInt64.toNat_toBitVec, toNat_bits small]
  simp only [packComponents, BitVec.toNat_append, BitVec.toNat_ofNat, Nat.mod_eq_of_lt exponent]
  rw [← Nat.shiftLeft_add_eq_or_of_lt fraction, ← Nat.shiftLeft_add_eq_or_of_lt exponent]
  simp only [Nat.shiftLeft_eq]
  cases negative with
  | false =>
      simp [sign, Sign.toBitVec, binade]
      omega
  | true =>
      simp [sign, Sign.toBitVec, binade, signBit]
      omega

theorem exponent_eq_iff (small : word < signBit) : BitVec.ofNat 11 (word / binade) = 2047#11 ↔ infinityWord ≤ word := by
  have bound : word / binade < 2048 := by
    unfold signBit binade at *
    omega
  rw [← BitVec.toNat_inj, BitVec.toNat_ofNat, Nat.mod_eq_of_lt bound]
  unfold infinityWord
  show word / binade = 2047 ↔ _
  unfold binade at *
  omega

theorem pack_bits (finite : word < infinityWord) :
    UnpackedFloat.pack .binary64 (UnpackedFloat.unpack .binary64 (bits negative word).toBitVec) =
      (bits negative word).toBitVec := by
  have small : word < signBit := finite.trans (by decide)
  have ordinary : BitVec.ofNat 11 (word / binade) ≠ 2047#11 := mt (exponent_eq_iff small).mp (not_le.mpr finite)
  rw [pack_unpack, if_neg]
  simp [isNaNBits, toBitVec_bits small, ordinary]

theorem toBits_ofParts (finite : word < infinityWord) : (ofParts negative word).toBits = bits negative word :=
  UInt64.toBitVec_inj.mp (pack_bits finite)

theorem shape_ofParts (finite : word < infinityWord) : shape (ofParts negative word) = .finite negative word := by
  have small : word < signBit := finite.trans (by decide)
  rw [shape, toBits_ofParts finite, toNat_bits small]
  cases negative with
  | false => simp [Nat.mod_eq_of_lt small, finite, small]
  | true => simp [Nat.mod_eq_of_lt small, finite]

end Lox.Number
