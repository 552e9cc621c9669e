import Calculator.Eval
import Calculator.Parser
import Calculator.Text.Column

/-!
# Samples

A tour of what expressions can say, with `t` bound to a number.
-/

namespace Calculator.Samples

open Text

def expressions : List String :=
  ["1", "1+2", "(1+3)", "(((1)+((4))))", "1 - 2 + 3", "(1 - 2) + 3", "1.2", "3,4", "e + pi",
   "sin(pi * 180)", "cos((pi / pi) * 180)", "tan(e ^ 1)", "log(1)", "ln(1)", "exp(1)", "sqrt(1)",
   "abs(1)", "|2 + 4|", "1 + 2 * 3", "2 * 3 + 1", "- 1 + 2", "1 + - 2", "- - 1", "+ + 1", "3t * 8",
   "8 + 3t", "8 + -3t", "4 + 7t^2", "4 + (2+7t^2+3)", "&"]

def errorReport (text : String) (e : ParseError) : String :=
  let margin := spaces e.token.offset
  "\n" ++ text ++ "\n" ++ margin ++ "^\n" ++ margin ++ e.message ++ "\n\n"

def report (ctx : Context) (text : String) : String :=
  match parse text with
  | .error e => errorReport text e
  | .ok e =>
    let ending := match e.eval ctx with
      | .ok value => " = " ++ Double.format value
      | .error error => " : " ++ error.message
    column 20 text ++ " = " ++ column 30 e.print ++ ending ++ "\n"

def run (t : Float) : String :=
  String.join (expressions.map (report (Context.empty.set "t" t)))

end Calculator.Samples
