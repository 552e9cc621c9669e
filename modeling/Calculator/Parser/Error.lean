import Calculator.Token

/-!
# Parse errors

A parse error is a token that cannot stand where it does, and the cause.
-/

namespace Calculator

inductive ParseError.Cause where
  | endOfInput
  | noOperand
  /-- An operator other than a sign stands where an operand should start. -/
  | misplacedOperator
  | expected (kind : Kind)
  | tooDeep
  deriving DecidableEq, Repr

structure ParseError where
  cause : ParseError.Cause
  token : Token
  deriving DecidableEq, Repr

namespace ParseError

def message (e : ParseError) : String :=
  match e.cause with
  | .endOfInput => "unexpected end of input"
  | .noOperand => "unexpected token '" ++ e.token.text ++ "'"
  | .misplacedOperator =>
    "misplaced binary operator '" ++ e.token.text ++ "', expected either '+' or '-'"
  | .expected kind =>
    let found :=
      if e.token.isFinish then "end of input"
      else "token '" ++ e.token.text ++ "' (" ++ e.token.kind.name ++ ")"
    "unexpected " ++ found ++ ", expected " ++ kind.name
  | .tooDeep => "expression nested too deeply"

/-- A stray decimal mark is what a second one in a number looks like. -/
def help? (e : ParseError) : Option String :=
  if e.token.text = "." ∨ e.token.text = "," then
    some "a number may contain only one decimal marker"
  else none

end ParseError

end Calculator
