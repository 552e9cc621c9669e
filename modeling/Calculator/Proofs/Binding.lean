import Calculator.Proofs.Evaluation

/-!
# Bindings and substitution

An expression whose variables are replaced by expressions has the value that
it has where the variables are bound to the values of these
(`AnyExpr.eval_substitute`). So binding a name is replacing it by an expression
of that value (`binding_is_substitution`). Nodes built by hand may compute functions that
no name stands for; expressions are the trees of named ones among these.
-/

namespace Calculator

/-- An expression whose nodes compute any functions. -/
inductive AnyExpr where
  | constant (value : Float)
  | var (name : String)
  | unary (fn : Float → Float) (operand : AnyExpr)
  | binary (fn : Float → Float → Float) (left right : AnyExpr)

namespace AnyExpr

def eval (ctx : Context) : AnyExpr → Except EvalError Float
  | constant value => .ok value
  | var name => ctx.get name
  | unary fn operand => do
    let x ← operand.eval ctx
    return fn x
  | binary fn left right => do
    let x ← left.eval ctx
    let y ← right.eval ctx
    return fn x y

def substitute (f : String → AnyExpr) : AnyExpr → AnyExpr
  | constant value => .constant value
  | var name => f name
  | unary fn operand => .unary fn (operand.substitute f)
  | binary fn left right => .binary fn (left.substitute f) (right.substitute f)

def replace (e : AnyExpr) (name : String) (e' : AnyExpr) : AnyExpr :=
  e.substitute fun other => if name = other then e' else .var other

theorem eval_substitute {ctx ctx' : Context} {f : String → AnyExpr} (h : ∀ name, (f name).eval ctx = ctx'.get name)
    (e : AnyExpr) : (e.substitute f).eval ctx = e.eval ctx' := by
  induction e with
  | constant value => rfl
  | var name => exact h name
  | unary fn operand ih => rw [substitute, eval, eval, ih]
  | binary fn left right ihl ihr => rw [substitute, eval, eval, ihl, ihr]

/-- The expression that takes the place is evaluated before the name is bound, also where the name stands in it. -/
theorem eval_replace {ctx : Context} {e' : AnyExpr} {value : Float} (h : e'.eval ctx = .ok value) (e : AnyExpr)
    (name : String) : (e.replace name e').eval ctx = e.eval (ctx.set name value) := by
  refine eval_substitute (fun other => ?_) e
  rw [Context.get, Context.get?_set]
  by_cases hname : name = other
  · rw [if_pos hname, if_pos hname, h]
  · rw [if_neg hname, if_neg hname]
    rfl

end AnyExpr

namespace Expr

def forget : Expr → AnyExpr
  | constant value => .constant value
  | var name => .var name
  | unary _ fn operand => .unary fn.apply operand.forget
  | binary _ fn left right => .binary fn.apply left.forget right.forget

def replace (e : Expr) (name : String) (e' : Expr) : Expr :=
  match e with
  | constant value => .constant value
  | var other => if name = other then e' else .var other
  | unary word fn operand => .unary word fn (operand.replace name e')
  | binary symbol fn left right => .binary symbol fn (left.replace name e') (right.replace name e')

theorem eval_forget (ctx : Context) (e : Expr) : e.forget.eval ctx = e.eval ctx := by
  induction e with
  | constant value => rfl
  | var name => rfl
  | unary name fn operand ih => rw [forget, AnyExpr.eval, eval, ih]
  | binary symbol fn left right ihl ihr => rw [forget, AnyExpr.eval, eval, ihl, ihr]

theorem forget_replace (e : Expr) (name : String) (e' : Expr) :
    (e.replace name e').forget = e.forget.replace name e'.forget := by
  induction e with
  | constant value => rfl
  | var other =>
    rw [replace, forget, AnyExpr.replace, AnyExpr.substitute]
    split <;> rfl
  | unary word fn operand ih =>
    rw [replace, forget, ih]
    rfl
  | binary symbol fn left right ihl ihr =>
    rw [replace, forget, ihl, ihr]
    rfl

end Expr

/-- Evaluating with every variable of a name replaced is evaluating with the name bound to the value of what replaces
it: the values are the same, and so are the names that have no binding. -/
theorem binding_is_substitution (ctx : Context) (name : String) (value : Float) :
    (∀ e e' : Expr, e'.eval ctx = .ok value → (e.replace name e').eval ctx = e.eval (ctx.set name value)) ∧
      ∀ e e' : AnyExpr, e'.eval ctx = .ok value → (e.replace name e').eval ctx = e.eval (ctx.set name value) := by
  refine ⟨fun e e' h => ?_, fun e e' h => AnyExpr.eval_replace h e name⟩
  rw [← Expr.eval_forget] at h
  rw [← Expr.eval_forget, Expr.forget_replace, AnyExpr.eval_replace h, Expr.eval_forget]

/-- In the sum of `t` and `u` the negation of `t` takes the place of `t`, and `u` has no binding. -/
theorem binding_is_substitution_of_sum :
    (Expr.unary "-" .negate (.var "t")).eval (Context.empty.set "t" 3.0) = .ok (0.0 - 3.0) ∧
      ((Expr.binary "+" .add (.var "t") (.var "u")).replace "t" (.unary "-" .negate (.var "t"))).eval
          (Context.empty.set "t" 3.0) =
        (Expr.binary "+" .add (.var "t") (.var "u")).eval ((Context.empty.set "t" 3.0).set "t" (0.0 - 3.0)) ∧
      (AnyExpr.unary (fun x => 0.0 - x) (.var "t")).eval (Context.empty.set "t" 3.0) = .ok (0.0 - 3.0) ∧
      ((AnyExpr.binary (fun x y => x + y) (.var "t") (.var "u")).replace "t" (.unary (fun x => 0.0 - x) (.var "t"))).eval
          (Context.empty.set "t" 3.0) =
        (AnyExpr.binary (fun x y => x + y) (.var "t") (.var "u")).eval
          ((Context.empty.set "t" 3.0).set "t" (0.0 - 3.0)) := by
  have hget : (Context.empty.set "t" 3.0).get "t" = .ok 3.0 := by
    rw [Context.get, Context.get?_set]
    rfl
  have hnegation : (Expr.unary "-" .negate (.var "t")).eval (Context.empty.set "t" 3.0) = .ok (0.0 - 3.0) := by
    rw [Expr.eval, Expr.eval, hget]
    rfl
  have hany : (AnyExpr.unary (fun x => 0.0 - x) (.var "t")).eval (Context.empty.set "t" 3.0) = .ok (0.0 - 3.0) := by
    rw [AnyExpr.eval, AnyExpr.eval, hget]
    rfl
  obtain ⟨hreplace, hreplace'⟩ := binding_is_substitution (Context.empty.set "t" 3.0) "t" (0.0 - 3.0)
  exact ⟨hnegation, hreplace _ _ hnegation, hany, hreplace' _ _ hany⟩

end Calculator
