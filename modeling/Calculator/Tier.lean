import Calculator.Function

/-!
# Tiers

How tightly an operator binds. Each operator has a tier of its own: a sum is made of differences,
these of products, and so on down to single operands.
-/

namespace Calculator

/-- From the loosest to the tightest. No operator is at `lowest`, where a whole expression starts,
or at `operand`, where no operator is left. -/
inductive Tier where
  | lowest
  | sum
  | difference
  | product
  | quotient
  | power
  | operand
  deriving DecidableEq, Repr

namespace Tier

def rank : Tier → Nat
  | lowest => 0
  | sum => 1
  | difference => 2
  | product => 3
  | quotient => 4
  | power => 5
  | operand => 6

instance : LE Tier := ⟨fun s t => s.rank ≤ t.rank⟩

instance : LT Tier := ⟨fun s t => s.rank < t.rank⟩

instance : Ord Tier := ⟨fun s t => compare s.rank t.rank⟩

instance (s t : Tier) : Decidable (s ≤ t) := inferInstanceAs (Decidable (s.rank ≤ t.rank))

instance (s t : Tier) : Decidable (s < t) := inferInstanceAs (Decidable (s.rank < t.rank))

def next : Tier → Tier
  | lowest => sum
  | sum => difference
  | difference => product
  | product => quotient
  | quotient => power
  | power => operand
  | operand => operand

theorem rank_next (t : Tier) (h : t ≠ operand) : t.next.rank = t.rank + 1 := by
  cases t <;> simp_all [next, rank]

theorem rank_injective {s t : Tier} (h : s.rank = t.rank) : s = t := by
  cases s <;> cases t <;> simp_all [rank]

end Tier

def BinaryFn.tier : BinaryFn → Tier
  | add => .sum
  | sub => .difference
  | mul => .product
  | div => .quotient
  | pow => .power

end Calculator
