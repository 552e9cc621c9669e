import Calculator.Context
import Calculator.Expr

/-!
# Evaluation

The value of an expression under a context. The only failure is a name without a binding.
-/

namespace Calculator

inductive EvalError where
  | undefinedVariable (name : String)
  deriving DecidableEq, Repr

namespace EvalError

def message : EvalError → String
  | undefinedVariable name => "undefined variable '" ++ name ++ "'"

def help : EvalError → String
  | undefinedVariable name => "bind '" ++ name ++ "' in the context before evaluating"

end EvalError

def Context.get (ctx : Context) (name : String) : Except EvalError Float :=
  match ctx.get? name with
  | some value => .ok value
  | none => .error (.undefinedVariable name)

/-- Left operands come first, so of several names without a binding the leftmost is reported. -/
def Expr.eval (ctx : Context) : Expr → Except EvalError Float
  | constant value => .ok value
  | var name => ctx.get name
  | unary _ fn operand => do
    let x ← operand.eval ctx
    return fn.apply x
  | binary _ fn left right => do
    let x ← left.eval ctx
    let y ← right.eval ctx
    return fn.apply x y

end Calculator
