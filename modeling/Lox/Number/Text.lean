import Lox.Number.Shortest

/-!
# Texts of numbers

Four forms, all with the shortest digits that read back.

* `display`: no exponent, no fraction for whole numbers (`3`, `0.1`, `-0`, `inf`, `NaN`).
* `literal`: `display`, but whole numbers below `10 ^ 15` end in `.0`.
* `prefixForm`: `display`, but whole numbers show all their binary digits exactly and end in `.0`.
* `json`: a fraction always, an exponent from `10 ^ 16` on and below `10 ^ -5`; `null` if not
finite.
-/

namespace Lox.Number

def plain (d : Decimal) : String :=
  let chars := d.chars
  let places := (-d.power).toNat
  if 0 ≤ d.power then .ofList (chars ++ List.replicate d.power.toNat '0')
  else if places < chars.length then
    .ofList (chars.take (chars.length - places) ++ '.' :: chars.drop (chars.length - places))
  else .ofList ('0' :: '.' :: (List.replicate (places - chars.length) '0' ++ chars))

def scientific (d : Decimal) : String :=
  let power := d.leadingPower
  let mantissa := match d.chars with
    | first :: second :: rest => first :: '.' :: second :: rest
    | chars => chars
  .ofList (mantissa ++ 'e' :: (if 0 ≤ power then '+' else '-') :: Nat.toDigits 10 power.natAbs)

def signed (negative : Bool) (text : String) : String :=
  if negative then "-" ++ text else text

def write (magnitude : Nat → String) (value : Float) : String :=
  match shape value with
  | .notANumber => "NaN"
  | .infinite negative => signed negative "inf"
  | .finite negative word => signed negative (magnitude word)

/-- Of two decimals at equal distance, `display` shows the larger one. -/
def display : Float → String :=
  write fun word => plain (shortest .up word)

/-- Whole numbers from here on are shown without a fraction in token listings. -/
def literalBound : Nat := 1_000_000_000_000_000

def literal : Float → String :=
  write fun word =>
    if isWhole word ∧ floor word < literalBound then plain (shortest .up word) ++ ".0"
    else plain (shortest .up word)

def prefixForm : Float → String :=
  write fun word =>
    if isWhole word then toString (floor word) ++ ".0" else plain (shortest .up word)

def json (value : Float) : String :=
  match shape value with
  | .finite negative word =>
    let d := shortest .even word
    signed negative <|
      if d.leadingPower < -5 ∨ 15 < d.leadingPower then scientific d
      else if 0 ≤ d.power then plain d ++ ".0"
      else plain d
  | _ => "null"

end Lox.Number
