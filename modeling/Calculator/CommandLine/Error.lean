import Calculator.Text.Terminal

/-!
# Usage errors

Why a list of arguments asks for nothing that can be done.
-/

namespace Calculator

inductive UsageError where
  | noArguments
  | noCommand
  | unknownCommand (name : String)
  | unexpectedArgument (argument : String)
  | unexpectedValue (value flag : String)
  | missingExpression
  | missingValue (option : String)
  | repeated (option : String)
  | invalidValue (value option reason : String)
  deriving DecidableEq, Repr

namespace UsageError

open Text

def usage : String := "Usage: exprcalc [OPTIONS] <COMMAND>"

def problem : UsageError → String
  | noArguments => usage
  | noCommand => "error: 'exprcalc' requires a subcommand but one was not provided"
  | unknownCommand name => "error: unrecognized subcommand '" ++ coloured name ++ "'"
  | unexpectedArgument argument => "error: unexpected argument '" ++ coloured argument ++ "' found"
  | unexpectedValue value flag =>
    "error: unexpected value '" ++ coloured value ++ "' for '" ++ flag ++
      "' found; no more were expected"
  | missingExpression => "error: the following required arguments were not provided:"
  | missingValue option => "error: a value is required for '" ++ option ++ "' but none was supplied"
  | repeated option => "error: the argument '" ++ option ++ "' cannot be used multiple times"
  | invalidValue value option reason =>
    "error: invalid value '" ++ coloured value ++ "' for '" ++ option ++ "': " ++ reason

def message (e : UsageError) : String :=
  e.problem ++ "\n\nFor more information, try '" ++ coloured "--help" ++ "'.\n"

def line (e : UsageError) : String :=
  String.ofList (firstLine (visible e.message.toList))

end UsageError

end Calculator
