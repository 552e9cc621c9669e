/-!
# Doubles as whole numbers of units

Every finite double is a sign and a whole number of units, where a unit is 2^-1074, the smallest
positive double. Texts are written from that number and read into it, so all arithmetic on them
is exact and on `Nat`.
-/

namespace Calculator

/-- What the bits of a double stand for. A finite one keeps its sign even when it is zero. -/
inductive Double where
  | nan
  | infinite (negative : Bool)
  | finite (negative : Bool) (units : Nat)
  deriving DecidableEq, Repr

namespace Double

def twoTo (exponent : Nat) : Nat := Nat.pow 2 exponent

def tenTo (exponent : Nat) : Nat := Nat.pow 10 exponent

def one : Nat := twoTo 1074

/-- The bit of the hidden digit; the 52 digits below it are written out. -/
def hidden : Nat := twoTo 52

def special : Nat := 2047

def ofFloat (x : Float) : Double :=
  let bits := x.toBits.toNat
  let negative : Bool := twoTo 63 ≤ bits
  let exponent := bits / hidden % 2048
  let fraction := bits % hidden
  if exponent = special then
    if fraction = 0 then .infinite negative else .nan
  else if exponent = 0 then .finite negative fraction
  else .finite negative ((hidden + fraction) * twoTo (exponent - 1))

/-- The positive double of so many units, for a number of at most 53 significant binary digits.
A number past all finite doubles becomes infinity. -/
def ofUnits (units : Nat) : Float :=
  let shift := units.log2 - 52
  Float.ofBits (UInt64.ofNat (min (shift * hidden + units / twoTo shift) (special * hidden)))

end Double

end Calculator
