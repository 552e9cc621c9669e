import Calculator.Double.Literal
import Calculator.Expr.Outline
import Calculator.Samples
import Calculator.Session

/-!
# The command line

What a command writes and how it ends. How a list of arguments names a command is not settled here: a run takes the
reader of arguments, which either gives a command or ends the run with a report of its own.
-/

namespace Calculator

structure Report where
  exitCode : Nat
  output : String := ""
  complaint : String := ""
  deriving DecidableEq, Repr

inductive Command where
  | tokenize (expression : String)
  | parse (expression : String)
  | eval (expression : String) (bindings : List (String × Float))
  | samples (t : Float)
  | session (bindings : List (String × Float))
  deriving DecidableEq, Repr

namespace CommandLine

/-- `NAME=VALUE`, with blanks around either side. -/
def readBinding (text : String) : Except String (String × Float) :=
  match Text.splitAtEquals? text.toList with
  | none => .error ("expected NAME=VALUE, got '" ++ text ++ "'")
  | some (name, value) =>
    let name := String.ofList (Text.trim name)
    match Double.read (String.ofList (Text.trim value)) with
    | .ok x => .ok (name, x)
    | .error e => .error ("invalid value for '" ++ name ++ "': " ++ e.message)

def tokenLine (token : Token) : String :=
  Text.column 18 token.kind.name ++ " " ++ Text.quoted token.text ++ " " ++
    toString token.offset ++ ".." ++ toString token.stop ++ "\n"

def succeed (output : String) : Report := { exitCode := 0, output }

def refuse (refusal : Refusal) : Report := { exitCode := 1, complaint := refusal.message }

/-- A session goes on after a refusal; any other command ends with it. -/
def execute (input : String) : Command → Report
  | .tokenize text => succeed (String.join ((tokenize text).map tokenLine))
  | .parse text =>
    match parse text with
    | .error e => refuse (.unreadable e)
    | .ok e => succeed (e.print ++ "\n" ++ e.outline)
  | .eval text bindings =>
    match evaluate (Context.ofList bindings) text with
    | .error refusal => refuse refusal
    | .ok (_, value) => succeed (Double.plain value ++ "\n")
  | .samples t => succeed (Samples.run t)
  | .session bindings => succeed (Session.run (Context.ofList bindings) input)

def run (readArguments : List String → Except Report Command) (arguments : List String) (input : String) : Report :=
  match readArguments arguments with
  | .ok command => execute input command
  | .error report => report

end CommandLine

end Calculator
