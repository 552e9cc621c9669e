import Calculator.Double

/-!
# Rounding to the nearest

`roundHalfEven` rounds a quotient to a whole number, `nearest` rounds it to a double. Both take the
even neighbour of a tie.
-/

namespace Calculator.Double

/-- The whole number nearest to `num / den`, the even one of two. -/
def roundHalfEven (num den : Nat) : Nat :=
  let floor := num / den
  let rest := num % den
  if 2 * rest < den then floor
  else if den < 2 * rest then floor + 1
  else floor + floor % 2

/-- The units of the double nearest to `num / den`. The grid of doubles has a spacing of one unit
below 2^53 units and keeps 53 binary digits above. -/
def nearestUnits (num den : Nat) : Nat :=
  let spacing := twoTo ((num * one / den).log2 - 52)
  roundHalfEven (num * one) (den * spacing) * spacing

/-- The double nearest to `num / den`; infinity from 2^1024 - 2^970 on. -/
def nearest (num den : Nat) : Float :=
  ofUnits (nearestUnits num den)

theorem roundHalfEven_bounds (num den : Nat) :
    num / den ≤ roundHalfEven num den ∧ roundHalfEven num den ≤ num / den + 1 := by
  simp only [roundHalfEven]
  split <;> try split
  all_goals omega

end Calculator.Double
