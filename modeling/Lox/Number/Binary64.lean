/-!
# Doubles as exact binary fractions

A double without its sign bit is a natural number, its *magnitude word*. The words below
`infinityWord` are the finite magnitudes in increasing order, so the word after a word is the next
larger double. A finite word `w` stands for `significand w * 2 ^ exponent w`.

Contents: `significand`, `exponent`, `Shape` and `shape`, which splits a double into sign and word.
-/

namespace Lox.Number

/--
The numerator of `base ^ exponent` as a fraction; the denominator is `powerPart base (-exponent)`.
-/
def powerPart (base : Nat) (exponent : Int) : Nat := Nat.pow base exponent.toNat

def binade : Nat := 0x10_0000_0000_0000

def leastExponent : Int := -1074

/-- The magnitude word of infinity: 2047 binades lie below it. -/
def infinityWord : Nat := 2047 * binade

/-- The factor of a finite magnitude that is a natural number below `2 ^ 53`. -/
def significand (word : Nat) : Nat :=
  if word < binade then word else binade + word % binade

def exponent (word : Nat) : Int :=
  if word < binade then leastExponent else leastExponent + (word / binade : Nat) - 1

inductive Shape where
  | notANumber
  | infinite (negative : Bool)
  | finite (negative : Bool) (word : Nat)
  deriving DecidableEq, Repr

def signBit : Nat := 0x8000_0000_0000_0000

def shape (value : Float) : Shape :=
  let bits := value.toBits.toNat
  let negative := decide (signBit ≤ bits)
  let word := bits % signBit
  if word < infinityWord then .finite negative word
  else if word = infinityWord then .infinite negative
  else .notANumber

def isWhole (word : Nat) : Bool :=
  significand word % powerPart 2 (-exponent word) = 0

def floor (word : Nat) : Nat :=
  significand word * powerPart 2 (exponent word) / powerPart 2 (-exponent word)

end Lox.Number
