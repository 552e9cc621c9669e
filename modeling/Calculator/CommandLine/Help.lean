import Calculator.CommandLine.Error

/-!
# Help

The names of the commands, and what each is for.
-/

namespace Calculator.Help

def commands : List (String × String × String) :=
  [("tokenize", "Print the tokens of an expression", "exprcalc tokenize [OPTIONS] <EXPRESSION>"),
   ("parse", "Print the canonical form and tree of an expression",
    "exprcalc parse [OPTIONS] <EXPRESSION>"),
   ("eval", "Evaluate an expression", "exprcalc eval [OPTIONS] <EXPRESSION>"),
   ("demo", "Run the built-in sample expressions", "exprcalc demo [OPTIONS]"),
   ("calc", "Interactive calculator; t = <expr> rebinds t", "exprcalc calc [OPTIONS]"),
   ("help", "Print this message or the help of a command", "exprcalc help [COMMAND]")]

def isCommand (name : String) : Bool := commands.any (·.1 == name)

def text (topic? : Option String) : String :=
  match topic?.bind fun topic => commands.lookup topic with
  | some (purpose, usage) => purpose ++ "\n\nUsage: " ++ usage ++ "\n"
  | none =>
    let lines := commands.map fun (name, purpose, _) => "  " ++ name ++ ": " ++ purpose ++ "\n"
    UsageError.usage ++ "\n\nCommands:\n" ++ String.join lines

end Calculator.Help
