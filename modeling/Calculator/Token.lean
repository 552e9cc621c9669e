import Calculator.Tier

/-!
# Tokens

A token is a piece of the text with its place and what it means. Its kind is the meaning without
the number or function in it.
-/

namespace Calculator

inductive Lexeme where
  | finish
  | constant (value : Float)
  | var
  | function (fn : UnaryFn)
  | operator (fn : BinaryFn)
  | leftParen
  | rightParen
  | bar
  | unknown
  deriving DecidableEq, Repr

inductive Kind where
  | finish
  | constant
  | var
  | function
  | operator
  | leftParen
  | rightParen
  | bar
  | unknown
  deriving DecidableEq, Repr

def Kind.name : Kind → String
  | finish => "end of input"
  | constant => "constant"
  | var => "variable"
  | function => "function"
  | operator => "binary operator"
  | leftParen => "'('"
  | rightParen => "')'"
  | bar => "'|'"
  | unknown => "unrecognized input"

def Lexeme.kind : Lexeme → Kind
  | finish => .finish
  | constant _ => .constant
  | var => .var
  | function _ => .function
  | operator _ => .operator
  | leftParen => .leftParen
  | rightParen => .rightParen
  | bar => .bar
  | unknown => .unknown

/-- Offsets count bytes of UTF-8. -/
structure Token where
  lexeme : Lexeme
  text : String
  offset : Nat
  deriving DecidableEq, Repr

namespace Token

def kind (token : Token) : Kind := token.lexeme.kind

def stop (token : Token) : Nat := token.offset + token.text.utf8ByteSize

def isFinish (token : Token) : Bool := token.kind == .finish

end Token

end Calculator
