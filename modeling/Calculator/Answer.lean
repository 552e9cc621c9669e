import Calculator.Eval
import Calculator.Parser

/-!
# Answers

The value of a text under a context, or why it has none.
-/

namespace Calculator

inductive Refusal where
  | unreadable (error : ParseError)
  | undefined (error : EvalError)
  deriving DecidableEq, Repr

def Refusal.message : Refusal → String
  | unreadable error => error.message
  | undefined error => error.message

def evaluate (ctx : Context) (text : String) : Except Refusal (Expr × Float) :=
  match parse text with
  | .error e => .error (.unreadable e)
  | .ok e =>
    match e.eval ctx with
    | .error error => .error (.undefined error)
    | .ok value => .ok (e, value)

section
variable {ctx : Context} {text : String} {e : Expr}

theorem evaluate_of_unreadable {error : ParseError} (h : parse text = .error error) :
    evaluate ctx text = .error (.unreadable error) := by
  unfold evaluate
  rw [h]

theorem evaluate_of_undefined {error : EvalError} (h : parse text = .ok e) (he : e.eval ctx = .error error) :
    evaluate ctx text = .error (.undefined error) := by
  unfold evaluate
  simp only [h, he]

theorem evaluate_of_value {value : Float} (h : parse text = .ok e) (he : e.eval ctx = .ok value) :
    evaluate ctx text = .ok (e, value) := by
  unfold evaluate
  simp only [h, he]

end

end Calculator
