/-!
# Numeric functions

The functions of one number and of two that an expression can name. Arithmetic is that of doubles:
dividing by zero or leaving a domain gives an infinity or NaN and is never an error.
-/

namespace Calculator

inductive UnaryFn where
  | plus
  | negate
  | sin
  | cos
  | tan
  | log
  | ln
  | exp
  | sqrt
  | abs
  deriving DecidableEq, Repr

namespace UnaryFn

/-- The signs add to zero and subtract from it, so `-0` is `0`; `log` has base ten. -/
def apply : UnaryFn → Float → Float
  | plus, x => 0.0 + x
  | negate, x => 0.0 - x
  | sin, x => x.sin
  | cos, x => x.cos
  | tan, x => x.tan
  | log, x => x.log10
  | ln, x => x.log
  | exp, x => x.exp
  | sqrt, x => x.sqrt
  | abs, x => x.abs

def ofWord? : String → Option UnaryFn
  | "sin" => some sin
  | "cos" => some cos
  | "tan" => some tan
  | "log" => some log
  | "ln" => some ln
  | "exp" => some exp
  | "sqrt" => some sqrt
  | "abs" => some abs
  | _ => none

def ofSign? : String → Option UnaryFn
  | "+" => some plus
  | "-" => some negate
  | _ => none

def ofName? (name : String) : Option UnaryFn := ofSign? name <|> ofWord? name

end UnaryFn

inductive BinaryFn where
  | add
  | sub
  | mul
  | div
  | pow
  deriving DecidableEq, Repr

namespace BinaryFn

def apply : BinaryFn → Float → Float → Float
  | add, x, y => x + y
  | sub, x, y => x - y
  | mul, x, y => x * y
  | div, x, y => x / y
  | pow, x, y => x.pow y

def ofSymbol? : String → Option BinaryFn
  | "+" => some add
  | "-" => some sub
  | "*" => some mul
  | "/" => some div
  | "^" => some pow
  | _ => none

end BinaryFn

end Calculator
