import Calculator.Eval
import Calculator.Proofs.RoundTrip

/-!
# Names and functions

A node keeps a name and a function, and evaluation only looks at the function.
In the tree of an accepted text each function is the one its name denotes
(`Expr.WellFormed`), so what is evaluated is what is printed
(`evalNamed_of_parse`).
-/

namespace Calculator

theorem UnaryFn.ofName?_name (fn : UnaryFn) : ofName? fn.name = some fn := by cases fn <;> rfl

theorem BinaryFn.ofSymbol?_symbol (fn : BinaryFn) : ofSymbol? fn.symbol = some fn := by cases fn <;> rfl

namespace Expr

/-- Each node stores the function that its name denotes, variables are named `t`, and constants have no sign and are
numbers. -/
def WellFormed : Expr → Prop
  | constant value => value.toBits.toNat < 2 ^ 63 ∧ value.isNaN = false
  | var name => name = "t"
  | unary name fn operand => UnaryFn.ofName? name = some fn ∧ operand.WellFormed
  | binary symbol fn left right => BinaryFn.ofSymbol? symbol = some fn ∧ left.WellFormed ∧ right.WellFormed

def evalNamed (ctx : Context) : Expr → Option (Except EvalError Float)
  | constant value => some (.ok value)
  | var name => some (ctx.get name)
  | unary name _ operand => do
    let fn ← UnaryFn.ofName? name
    let x ← operand.evalNamed ctx
    return x.map fn.apply
  | binary symbol _ left right => do
    let fn ← BinaryFn.ofSymbol? symbol
    let x ← left.evalNamed ctx
    let y ← right.evalNamed ctx
    return do return fn.apply (← x) (← y)

theorem Proper.wellFormed {e : Expr} (h : e.Proper) : e.WellFormed := by
  induction e with
  | constant value => exact ⟨Double.Unsigned.toNat_lt h, Double.Unsigned.isNaN_eq_false h⟩
  | var name => exact h
  | unary name fn operand ih =>
    obtain ⟨rfl, hoperand⟩ := h
    exact ⟨fn.ofName?_name, ih hoperand⟩
  | binary symbol fn left right ihl ihr =>
    obtain ⟨rfl, hl, hr⟩ := h
    exact ⟨fn.ofSymbol?_symbol, ihl hl, ihr hr⟩

theorem WellFormed.evalNamed_eq {e : Expr} (h : e.WellFormed) (ctx : Context) : e.evalNamed ctx = some (e.eval ctx) := by
  induction e with
  | constant value => rfl
  | var name => rfl
  | unary name fn operand ih =>
    obtain ⟨hfn, hoperand⟩ := h
    rw [evalNamed, hfn, ih hoperand, eval]
    cases operand.eval ctx <;> rfl
  | binary symbol fn left right ihl ihr =>
    obtain ⟨hfn, hl, hr⟩ := h
    rw [evalNamed, hfn, ihl hl, ihr hr, eval]
    rfl

end Expr

/-- The tree of an accepted text is well formed, so by its names it has the value that its functions give it. -/
theorem evalNamed_of_parse {text : String} {e : Expr} (h : parse text = .ok e) :
    e.WellFormed ∧ ∀ ctx, e.evalNamed ctx = some (e.eval ctx) :=
  ⟨(proper_of_parse h).wellFormed, (proper_of_parse h).wellFormed.evalNamed_eq⟩

/-- In `-sin(|2t|)` a sign, a call, a bar pair and a product without a symbol each name their function. -/
theorem evalNamed_of_sine :
    ∃ value e, e = .unary "-" .negate (.unary "sin" .sin
        (.unary "abs" .abs (.binary "*" .mul (.constant value) (.var "t")))) ∧
      parse "-sin(|2t|)" = .ok e ∧ e.WellFormed ∧ ∀ ctx, e.evalNamed ctx = some (e.eval ctx) := by
  have hlexemes : lexemes (tokenize "-sin(|2t|)") = [.operator .sub, .function .sin, .leftParen, .bar,
      .constant (Double.literal ['2'] []), .var, .bar, .rightParen] := by rfl
  have hproduct := (Spells.implicit rfl ((Spells.constant (Double.literal ['2'] [])).of_operand _)
    (Spells.var.of_operand .product)).to_sum nofun
  have hcall := @Spells.call .sin _ _ _ ((Spells.bars hproduct).of_operand .sum)
  have hspells := (@Spells.sign .sub _ _ _ _ rfl hcall).of_operand .sum
  have h := parse_eq_ok_iff.2 ⟨_, (by decide), hlexemes ▸ hspells⟩
  exact ⟨_, _, rfl, h, evalNamed_of_parse h⟩

end Calculator
