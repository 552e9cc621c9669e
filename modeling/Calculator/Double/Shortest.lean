import Calculator.Double.Rounding

/-!
# Shortest decimals

The shortest decimal of a double is the one with the fewest digits that reads back as the same
double, and of several the nearest; a tie goes up.
-/

namespace Calculator.Double

/-- Decimal digits and where the point stands: `0.d₁d₂… * 10 ^ point`. -/
structure Decimal where
  digits : List Char
  point : Int
  deriving DecidableEq, Repr

def Decimal.ofScaled (significand : Nat) (exponent : Int) : Decimal :=
  let digits := Nat.toDigits 10 significand
  { digits := (digits.reverse.dropWhile (· == '0')).reverse
    point := exponent + digits.length }

/-- The point of the exact value, for a positive number of units: `10 ^ (point - 1) ≤ v < 10 ^ point`.
The least double is above 10^-324, so 340 places show its first digit. -/
def decimalPoint (units : Nat) : Int :=
  (Nat.toDigits 10 (units * tenTo 340 / one)).length - 340

def readsBack (units significand : Nat) (exponent : Int) : Bool :=
  nearestUnits (significand * tenTo exponent.toNat) (tenTo (-exponent).toNat) == units

/-- The nearer of the value's two neighbours on the grid of step `10 ^ exponent`, of those that
read back. -/
def neighbour? (units : Nat) (exponent : Int) : Option Nat :=
  let num := units * tenTo (-exponent).toNat
  let den := one * tenTo exponent.toNat
  let below := num / den
  let above := below + 1
  match readsBack units below exponent, readsBack units above exponent with
  | true, true => some (if 2 * (num % den) < den then below else above)
  | true, false => some below
  | false, true => some above
  | false, false => none

/-- The shortest decimal of a positive number of units. Seventeen digits are always enough. -/
def shortest (units : Nat) : Decimal :=
  let point := decimalPoint units
  let hit? := (List.range' 1 17).findSome? fun (count : Nat) =>
    let exponent := point - count
    (neighbour? units exponent).map fun significand => Decimal.ofScaled significand exponent
  hit?.getD ⟨[], 0⟩

end Calculator.Double
