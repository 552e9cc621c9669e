import Calculator.Double.Rounding

/-!
# Reading numbers

`literal` reads the digits of a number in an expression. `read` reads a number that stands alone,
with a sign, an exponent or the name of a special value. Both round the exact decimal once.
-/

namespace Calculator.Double

def valueOfDigits (digits : List Char) : Nat := Nat.ofDigitChars 10 digits 0

def literal (whole fraction : List Char) : Float :=
  nearest (valueOfDigits (whole ++ fraction)) (tenTo fraction.length)

inductive ReadError where
  | empty
  | invalid
  deriving DecidableEq, Repr

def ReadError.message : ReadError → String
  | .empty => "cannot parse float from empty string"
  | .invalid => "invalid float literal"

def negateIf (negative : Bool) (x : Float) : Float := if negative then -x else x

def splitSign : List Char → Bool × List Char
  | '-' :: rest => (true, rest)
  | '+' :: rest => (false, rest)
  | rest => (false, rest)

/-- The size of an exponent. Digits after the first one that makes it 65536 or more are passed over;
no double is that large or small. -/
def exponentValue (digits : List Char) : Nat :=
  digits.foldl (fun n c => if n < 65536 then 10 * n + (c.toNat - '0'.toNat) else n) 0

def exponent? : List Char → Option Int
  | [] => some 0
  | mark :: rest =>
    if mark = 'e' ∨ mark = 'E' then
      let (negative, digits) := splitSign rest
      if digits ≠ [] ∧ digits.all Char.isDigit then
        let size : Int := exponentValue digits
        some (if negative then -size else size)
      else none
    else none

def decimal? (text : List Char) : Option Float :=
  let whole := text.takeWhile Char.isDigit
  let rest := text.dropWhile Char.isDigit
  let (fraction, rest) := match rest with
    | '.' :: more => (more.takeWhile Char.isDigit, more.dropWhile Char.isDigit)
    | _ => ([], rest)
  if whole = [] ∧ fraction = [] then none
  else (exponent? rest).map fun (exponent : Int) =>
    let scale : Int := exponent - fraction.length
    nearest (valueOfDigits (whole ++ fraction) * tenTo scale.toNat) (tenTo (-scale).toNat)

def special? (text : List Char) : Option Float :=
  match String.ofList (text.map Char.toLower) with
  | "inf" | "infinity" => some (Float.ofBits 0x7FF0000000000000)
  | "nan" => some (Float.ofBits 0x7FF8000000000000)
  | _ => none

def read (text : String) : Except ReadError Float :=
  if text = "" then .error .empty
  else
    let (negative, body) := splitSign text.toList
    match decimal? body <|> special? body with
    | some x => .ok (negateIf negative x)
    | none => .error .invalid

end Calculator.Double
