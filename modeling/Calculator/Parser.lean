import Calculator.Expr
import Calculator.Parser.Error
import Calculator.Token.Stream

/-!
# Parsing

An expression is read by descent through the tiers. At each tier it is a chain of operands of the
next one; below the last tier stands a primary: a constant, the variable, a call, a group, a bar pair
or a sign before another primary. A variable right after an operand is a factor of a product.

Descent is counted: a parse of an expression may open so many readings inside one another and no
more. The nesting limit keeps every parse within that count.
-/

namespace Calculator

/-- The most groups, bar pairs, calls and signs that may be open at once. -/
def maxDepth : Nat := 128

/-- The most readings that are ever open at once: each level has one for every tier and one for
its primary. -/
def maxReadings : Nat := 8 * (maxDepth + 1)

structure Parser where
  stream : TokenStream
  depth : Nat := 0

namespace Parser

def ofString (text : String) : Parser := { stream := .ofString text }

def descend (p : Parser) : Parser := { p with depth := p.depth + 1 }

def ascend (p : Parser) : Parser := { p with depth := p.depth - 1 }

end Parser

inductive Outcome (α : Type) where
  | done (value : α) (after : Parser)
  | failed (error : ParseError) (after : Parser)
  /-- The count of readings or of links ran out. -/
  | exhausted

def Outcome.map {α : Type} (f : Parser → Parser) : Outcome α → Outcome α
  | .done value p => .done value (f p)
  | .failed error p => .failed error (f p)
  | .exhausted => .exhausted

def Reading (α : Type) : Type := Parser → Outcome α

namespace Reading

variable {α β : Type}

protected def pure (value : α) : Reading α := fun p => .done value p

protected def bind (r : Reading α) (f : α → Reading β) : Reading β := fun p =>
  match r p with
  | .done value p => f value p
  | .failed error p => .failed error p
  | .exhausted => .exhausted

instance : Monad Reading where
  pure := Reading.pure
  bind := Reading.bind

instance : LawfulMonad Reading :=
  LawfulMonad.mk' Reading
    (fun r => by
      funext p
      simp only [Functor.map, Reading.bind]
      cases r p <;> rfl)
    (fun _ _ => rfl)
    (fun r _ _ => by
      funext p
      simp only [Bind.bind, Reading.bind]
      cases r p <;> rfl)

def exhausted : Reading α := fun _ => .exhausted

def fail (cause : ParseError.Cause) (token : Token) : Reading α := fun p => .failed ⟨cause, token⟩ p

def peek : Reading Token := fun p =>
  let (token, stream) := p.stream.peek
  .done token { p with stream }

def pop : Reading Token := fun p =>
  let (token, stream) := p.stream.pop
  .done token { p with stream }

def remaining : Reading Nat := fun p => .done p.stream.remaining p

def expect (kind : Kind) : Reading Token := do
  let token ← pop
  if token.kind = kind then pure token else fail (.expected kind) token

/-- Reads one level deeper; whatever comes of it, the level is left again. -/
def nested (inner : Reading α) : Reading α := fun p =>
  if p.depth < maxDepth then (inner p.descend).map Parser.ascend
  else (do fail .tooDeep (← peek)) p

def group (inner : Reading Expr) (close : Kind) : Reading Expr :=
  nested do
    let e ← inner
    let _ ← expect close
    pure e

/-- The operator of this tier that goes on with a chain. A variable goes on with a product and is
not taken. -/
def operator? (tier : Tier) : Reading (Option (String × BinaryFn)) := do
  let token ← peek
  match token.lexeme with
  | .operator fn =>
    if fn.tier = tier then
      let _ ← pop
      pure (some (token.text, fn))
    else pure none
  | .var => pure (if tier = .product then some ("*", .mul) else none)
  | _ => pure none

/-- Goes on with a chain whose last operand so far is `last`, as long as an operator of the tier
comes. The operands before it are kept with the operators after them. -/
def chain (operand : Reading Expr) (tier : Tier) : Nat → Array Expr.Link → Expr → Reading Expr
  | 0, _, _ => exhausted
  | count + 1, links, last => do
    match ← operator? tier with
    | none => pure (Expr.chain links last)
    | some (symbol, fn) =>
      let right ← operand
      chain operand tier count (links.push ⟨last, symbol, fn⟩) right

def primaryOf (inner : Tier → Reading Expr) : Reading Expr := do
  let token ← peek
  match token.lexeme with
  | .constant value =>
    let _ ← pop
    pure (.constant value)
  | .var =>
    let _ ← pop
    pure (.var token.text)
  | .function fn =>
    let _ ← pop
    let _ ← expect .leftParen
    let operand ← group (inner .lowest) .rightParen
    pure (.unary token.text fn operand)
  | .leftParen =>
    let _ ← pop
    group (inner .lowest) .rightParen
  | .bar =>
    let _ ← pop
    let operand ← group (inner .lowest) .bar
    pure (.unary "abs" .abs operand)
  | .operator _ =>
    let _ ← pop
    match UnaryFn.ofSign? token.text with
    | none => fail .misplacedOperator token
    | some fn =>
      let operand ← nested (inner .operand)
      pure (.unary token.text fn operand)
  | .finish => fail .endOfInput token
  | .rightParen | .unknown => fail .noOperand token

mutual

/-- An expression whose operators are of this tier or a tighter one. The number bounds the readings
inside one another. -/
def expression : Nat → Tier → Reading Expr
  | 0, _ => exhausted
  | count + 1, .operand => primary count
  | count + 1, tier => do
    let first ← expression count tier.next
    chain (expression count tier.next) tier ((← remaining) + 1) #[] first

def primary : Nat → Reading Expr
  | 0 => exhausted
  | count + 1 => primaryOf (expression count)

end

def complete : Reading Expr := do
  let e ← expression maxReadings .lowest
  let _ ← expect .finish
  pure e

end Reading

/-- Reads one complete expression. A parser can be used again after it, on the tokens that are left. -/
def Parser.parse (p : Parser) : Except ParseError Expr × Parser :=
  match Reading.complete p with
  | .done e p => (.ok e, p)
  | .failed error p => (.error error, p)
  | .exhausted =>
    let (token, stream) := p.stream.peek
    (.error ⟨.tooDeep, token⟩, { p with stream })

def parse (text : String) : Except ParseError Expr := (Parser.ofString text).parse.1

end Calculator
