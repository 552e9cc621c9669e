import Calculator.Double.Hundredths
import Calculator.Function

/-!
# Expressions

The tree of an expression, and its canonical text, in which every operation stands in parentheses
of its own.
-/

namespace Calculator

/-- A node of one or two operands keeps the name it is written with and the function it computes. -/
inductive Expr where
  | constant (value : Float)
  | var (name : String)
  | unary (name : String) (fn : UnaryFn) (operand : Expr)
  | binary (symbol : String) (fn : BinaryFn) (left right : Expr)
  deriving DecidableEq, Repr

namespace Expr

def print : Expr → String
  | constant value => Double.format value
  | var name => name
  | unary name _ operand => name ++ "(" ++ operand.print ++ ")"
  | binary symbol _ left right => "(" ++ left.print ++ symbol ++ right.print ++ ")"

structure Link where
  left : Expr
  symbol : String
  fn : BinaryFn

/-- A chain groups to the right: `a - b - c` is `a - (b - c)`. No operator stands after its last
operand. -/
def chain (links : Array Link) (last : Expr) : Expr :=
  links.foldr (fun link right => .binary link.symbol link.fn link.left right) last

theorem chain_empty (last : Expr) : chain #[] last = last := rfl

theorem chain_push (links : Array Link) (link : Link) (last : Expr) :
    chain (links.push link) last = chain links (.binary link.symbol link.fn link.left last) :=
  Array.foldr_push ..

end Expr

end Calculator
