import Calculator.Double.Rounding

/-!
# Numbers to two places

The everyday text of a number: at most two decimal places, no closing zeros, no negative zero.
-/

namespace Calculator.Double

/-- `|v|` in hundredths, half to even on the exact value. -/
def hundredths (units : Nat) : Nat := roundHalfEven (100 * units) one

def hundredthsText (n : Nat) : List Char :=
  let whole := Nat.toDigits 10 (n / 100)
  let tenth := (n / 10 % 10).digitChar
  let last := (n % 10).digitChar
  if n % 100 = 0 then whole
  else if n % 10 = 0 then whole ++ ['.', tenth]
  else whole ++ ['.', tenth, last]

def formatChars : Double → List Char
  | .nan => "NaN".toList
  | .infinite false => "inf".toList
  | .infinite true => "-inf".toList
  | .finite negative units =>
    let n := hundredths units
    if negative ∧ n ≠ 0 then '-' :: hundredthsText n else hundredthsText n

def format (x : Float) : String := String.ofList (formatChars (ofFloat x))

end Calculator.Double
