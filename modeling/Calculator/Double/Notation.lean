import Calculator.Double.Shortest

/-!
# Notations of a double

`plain` writes the shortest decimal out in full. `explicit` gives every number a point and turns to
powers of ten for the very small and the very large.
-/

namespace Calculator.Double

def Decimal.positional (d : Decimal) (ending : List Char) : List Char :=
  if d.point ≤ 0 then
    '0' :: '.' :: List.replicate (-d.point).toNat '0' ++ d.digits
  else
    let place := d.point.toNat
    let whole := d.digits.take place ++ List.replicate (place - d.digits.length) '0'
    match d.digits.drop place with
    | [] => whole ++ ending
    | fraction => whole ++ '.' :: fraction

def Decimal.powerOfTen (d : Decimal) : List Char :=
  let mantissa := match d.digits with
    | first :: second :: more => first :: '.' :: second :: more
    | digits => digits
  mantissa ++ 'e' :: (toString (d.point - 1)).toList

def withSign (text : Nat → List Char) : Double → String
  | .nan => "NaN"
  | .infinite false => "inf"
  | .infinite true => "-inf"
  | .finite false units => String.ofList (text units)
  | .finite true units => String.ofList ('-' :: text units)

def plain (x : Float) : String :=
  withSign (fun units => if units = 0 then ['0'] else (shortest units).positional []) (ofFloat x)

/-- The shortest decimal with a point, or with a power of ten below 10^-4 and from 10^16 on:
`1.0`, `1e16`, `1.2345e-5`. -/
def explicit (x : Float) : String :=
  let ending := ['.', '0']
  withSign (fun units =>
    if units = 0 then '0' :: ending
    else
      let d := shortest units
      if -4 < d.point ∧ d.point ≤ 16 then d.positional ending else d.powerOfTen) (ofFloat x)

end Calculator.Double
