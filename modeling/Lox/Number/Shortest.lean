import Lox.Number.Binary64

/-!
# The fewest digits that read back

Every real number in a certain interval around a finite double rounds to that double. `shortest` is
the decimal with the fewest digits in this interval, and of those the one nearest to the double. For
each number of digits it tests the two neighbours of the double on the grid of decimals with that
many digits, in exact arithmetic.

Contents: `Decimal`, `Tie`, `Interval` with `Interval.ofWord`, `Interval.pick?` on one grid,
`shortest`.
-/

namespace Lox.Number

structure Decimal where
  digits : Nat
  power : Int
  deriving DecidableEq, Repr

namespace Decimal

def trim (d : Decimal) : Decimal :=
  if d.digits % 10 = 0 ∧ d.digits ≠ 0 then trim ⟨d.digits / 10, d.power + 1⟩ else d
termination_by d.digits
decreasing_by omega

def chars (d : Decimal) : List Char := Nat.toDigits 10 d.digits

def leadingPower (d : Decimal) : Int := d.power + d.chars.length - 1

end Decimal

inductive Tie where
  | up
  | even
  deriving DecidableEq, Repr

/--
A double with the interval of numbers that round to it: the fractions `low / unit`, `value / unit`
and `high / unit`. The ends belong to the interval if `closed`.
-/
structure Interval where
  low : Nat
  value : Nat
  high : Nat
  unit : Nat
  closed : Bool

namespace Interval

/--
The rounding interval of a finite word. It reaches half way to both neighbours; at the start of a
binade the lower neighbour is half as far as the upper one. Ties go to even significands, so those
own the ends.
-/
def ofWord (word : Nat) : Interval :=
  let s := significand word
  let e := exponent word
  let scale := powerPart 2 (e - 2)
  let below := if s = binade ∧ e ≠ leastExponent then 1 else 2
  { low := (4 * s - below) * scale
    value := 4 * s * scale
    high := (4 * s + 2) * scale
    unit := powerPart 2 (2 - e)
    closed := s % 2 = 0 }

def leadingPower (i : Interval) : Int :=
  if i.unit ≤ i.value then ((Nat.toDigits 10 (i.value / i.unit)).length : Int) - 1
  else -((Nat.toDigits 10 ((i.unit + i.value - 1) / i.value - 1)).length : Int)

def admits (i : Interval) (left right : Nat) : Bool :=
  if i.closed then left ≤ right else left < right

/--
The neighbour of the value on the grid of multiples of `10 ^ power` that lies in the interval and is
nearest.
-/
def pick? (i : Interval) (tie : Tie) (power : Int) : Option Decimal :=
  let grid := i.unit * powerPart 10 power
  let scale := powerPart 10 (-power)
  let below := i.value * scale / grid
  let lower := i.admits (i.low * scale) (below * grid)
  let upper := i.admits ((below + 1) * grid) (i.high * scale)
  match lower, upper with
  | false, false => none
  | true, false => some ⟨below, power⟩
  | false, true => some ⟨below + 1, power⟩
  | true, true =>
    match compare (2 * (i.value * scale)) ((2 * below + 1) * grid), tie with
    | .lt, _ => some ⟨below, power⟩
    | .gt, _ => some ⟨below + 1, power⟩
    | .eq, .up => some ⟨below + 1, power⟩
    | .eq, .even => some ⟨below + below % 2, power⟩

end Interval

def mostDigits : Nat := 17

def shortest (tie : Tie) (word : Nat) : Decimal :=
  if word = 0 then ⟨0, 0⟩ else
    let interval := Interval.ofWord word
    let first := interval.leadingPower
    match (List.range mostDigits).findSome? fun (more : Nat) => interval.pick? tie (first - more) with
    | some decimal => decimal.trim
    | none => ⟨interval.value / interval.unit, 0⟩

end Lox.Number
