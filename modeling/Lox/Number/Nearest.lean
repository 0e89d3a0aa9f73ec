import Lox.Number.Binary64

/-!
# Reading decimals

A decimal denotes the double nearest to it. Of two doubles at equal distance the one with the even
significand is taken, and what is too large for a finite double is infinite.

Contents: `roundHalfEven`, `floorLog2`, `nearestWord` on fractions, `ofDecimal` on digits and a
power of ten.
-/

namespace Lox.Number

def roundHalfEven (numerator denominator : Nat) : Nat :=
  let quotient := numerator / denominator
  match compare (2 * (numerator % denominator)) denominator with
  | .lt => quotient
  | .eq => quotient + quotient % 2
  | .gt => quotient + 1

def floorLog2 (numerator denominator : Nat) : Int :=
  let guess : Int := (numerator.log2 : Int) - denominator.log2
  if denominator * powerPart 2 guess ≤ numerator * powerPart 2 (-guess) then guess else guess - 1

/--
The magnitude word nearest to a fraction. A significand that is rounded up to a full binade carries
into the exponent by plain addition, since words of the next binade follow.
-/
def nearestWord (numerator denominator : Nat) : Nat :=
  if numerator = 0 then 0 else
    let exponent := max leastExponent (floorLog2 numerator denominator - 52)
    let rounded := roundHalfEven (numerator * powerPart 2 (-exponent)) (denominator * powerPart 2 exponent)
    min infinityWord ((exponent - leastExponent).toNat * binade + rounded)

def ofDecimal (digits : Nat) (power : Int) : Float :=
  Float.ofBits (UInt64.ofNat (nearestWord (digits * powerPart 10 power) (powerPart 10 (-power))))

end Lox.Number
