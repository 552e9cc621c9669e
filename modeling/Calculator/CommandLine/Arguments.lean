import Calculator.CommandLine
import Calculator.CommandLine.Help

/-!
# Arguments

The outer layer of the program: how a list of arguments names a command, for `CommandLine.run`. Each
command takes the flag `--verbose`, some take an expression, and some an option with values. A value
that stands alone is read when the next argument has been recognized, so an unknown argument is
reported before a bad value in front of it.
-/

namespace Calculator

namespace Arguments

inductive Stop where
  | wrong (error : UsageError)
  | instead (text : String)

abbrev Taking := Except Stop

def wrong {α : Type} (error : UsageError) : Taking α := .error (.wrong error)

def instead {α : Type} (text : String) : Taking α := .error (.instead text)

inductive Shape where
  | escape
  | long (name : List Char) (value? : Option (List Char))
  | short (cluster : List Char)
  | plain

def Shape.of (argument : String) : Shape :=
  match argument.toList with
  | ['-', '-'] => .escape
  | '-' :: '-' :: body =>
    match Text.splitAtEquals? body with
    | some (name, value) => .long name (some value)
    | none => .long body none
  | '-' :: c :: body => .short (c :: body)
  | _ => .plain

structure ValueOption (α : Type) where
  long : String
  short? : Option Char
  label : String
  isRepeatable : Bool
  takesNegatives : Bool
  read : String → Except String α

structure Form (α : Type) where
  command : String
  takesExpression : Bool
  option? : Option (ValueOption α)

inductive Pending where
  | waiting
  | given (value : String)

structure Progress (α : Type) where
  verbose : Bool := false
  expression? : Option String := none
  values : List α := []
  pending? : Option Pending := none

variable {α : Type}

def accept (option : ValueOption α) (value : String) (p : Progress α) : Taking (Progress α) :=
  if p.values ≠ [] ∧ !option.isRepeatable then wrong (.repeated option.label)
  else match option.read value with
    | .ok x => .ok { p with values := p.values ++ [x], pending? := none }
    | .error reason => wrong (.invalidValue value option.label reason)

def settle (form : Form α) (p : Progress α) : Taking (Progress α) :=
  match form.option?, p.pending? with
  | some option, some (.given value) => accept option value p
  | some option, some .waiting => wrong (.missingValue option.label)
  | _, _ => .ok p

def setVerbose (form : Form α) (p : Progress α) : Taking (Progress α) := do
  let p ← settle form p
  if p.verbose then wrong (.repeated "--verbose") else .ok { p with verbose := true }

def askHelp (form : Form α) (p : Progress α) : Taking (Progress α) := do
  let _ ← settle form p
  instead (Help.text (some form.command))

def takePlain (form : Form α) (argument : String) (p : Progress α) : Taking (Progress α) :=
  if form.takesExpression ∧ p.expression? = none then do
    let p ← settle form p
    .ok { p with expression? := some argument }
  else wrong (.unexpectedArgument argument)

def takeLong (form : Form α) (name : List Char) (value? : Option (List Char)) (p : Progress α) :
    Taking (Progress α) :=
  if name = "verbose".toList then
    match value? with
    | some value => wrong (.unexpectedValue (String.ofList value) "--verbose")
    | none => setVerbose form p
  else if name = "help".toList then
    match value? with
    | some value => wrong (.unexpectedValue (String.ofList value) "--help")
    | none => askHelp form p
  else match form.option? with
    | none => wrong (.unexpectedArgument ("--" ++ String.ofList name))
    | some option =>
      if name = option.long.toList then do
        let p ← settle form p
        match value? with
        | some value => accept option (String.ofList value) p
        | none => .ok { p with pending? := some .waiting }
      else wrong (.unexpectedArgument ("--" ++ String.ofList name))

/-- Flags, and perhaps an option, by their letters. The text after the letter of an option is its
value; an equals sign in front is passed over. -/
def takeShort (form : Form α) (cluster : List Char) (p : Progress α) : Taking (Progress α) :=
  match cluster with
  | [] => .ok p
  | c :: more =>
    if c = 'v' then do takeShort form more (← setVerbose form p)
    else if c = 'h' then askHelp form p
    else match form.option? with
      | none => wrong (.unexpectedArgument ("-" ++ String.ofList [c]))
      | some option =>
        if option.short? = some c then do
          let p ← settle form p
          match more with
          | [] => .ok { p with pending? := some .waiting }
          | '=' :: value => accept option (String.ofList value) p
          | value => accept option (String.ofList value) p
        else wrong (.unexpectedArgument ("-" ++ String.ofList [c]))

def isNumeral (cluster : List Char) : Bool :=
  let whole := cluster.takeWhile Char.isDigit
  let mantissa := match cluster.dropWhile Char.isDigit with
    | '.' :: more => if whole = [] then none else some (more.dropWhile Char.isDigit)
    | rest => some rest
  match mantissa with
  | none => false
  | some [] => true
  | some (mark :: digits) =>
    (mark = 'e' || mark = 'E') && whole ≠ [] && digits ≠ [] && digits.all Char.isDigit

def Progress.isWaiting (p : Progress α) : Bool :=
  match p.pending? with
  | some .waiting => true
  | _ => false

def step (form : Form α) (argument : String) (p : Progress α) : Taking (Progress α) :=
  let value : Progress α := { p with pending? := some (.given argument) }
  match Shape.of argument with
  | .long name value? => takeLong form name value? p
  | .short cluster =>
    if p.isWaiting ∧ (form.option?.any (·.takesNegatives)) ∧ isNumeral cluster then .ok value
    else takeShort form cluster p
  | .plain | .escape => if p.isWaiting then .ok value else takePlain form argument p

def takeRest (form : Form α) (p : Progress α) : List String → Taking (Progress α)
  | [] => .ok p
  | argument :: more => do takeRest form (← takePlain form argument p) more

def takeAll (form : Form α) (p : Progress α) : List String → Taking (Progress α)
  | [] => .ok p
  | argument :: more =>
    if argument = "--" then takeRest form p more
    else do takeAll form (← step form argument p) more

def read (form : Form α) (arguments : List String) : Taking (Progress α) := do
  settle form (← takeAll form {} arguments)

def Progress.expression (p : Progress α) : Taking String :=
  match p.expression? with
  | some text => .ok text
  | none => wrong .missingExpression

/-! ## The commands -/

def readNumber (text : String) : Except String Float :=
  match Double.read text with
  | .ok x => .ok x
  | .error e => .error e.message

def bindingOption : ValueOption (String × Float) where
  long := "var"
  short? := none
  label := "--var <VARS>"
  isRepeatable := true
  takesNegatives := false
  read := CommandLine.readBinding

def tOption : ValueOption Float where
  long := "t"
  short? := some 't'
  label := "--t <T>"
  isRepeatable := false
  takesNegatives := true
  read := readNumber

def defaultT : Float := 2.0

def expressionForm (command : String) : Form Empty := ⟨command, true, none⟩

def takeTopic : List String → Taking Command
  | [] => instead (Help.text none)
  | topic :: more =>
    if Help.isCommand topic then
      match more with
      | [] => instead (Help.text (some topic))
      | next :: _ => wrong (.unknownCommand next)
    else wrong (.unknownCommand topic)

def command? (name : String) : Option (List String → Taking Command) :=
  match name with
  | "tokenize" => some fun arguments => do
    let p ← read (expressionForm name) arguments
    .ok (.tokenize (← p.expression))
  | "parse" => some fun arguments => do
    let p ← read (expressionForm name) arguments
    .ok (.parse (← p.expression))
  | "eval" => some fun arguments => do
    let p ← read ⟨name, true, some bindingOption⟩ arguments
    .ok (.eval (← p.expression) p.values)
  | "demo" => some fun arguments => do
    let p ← read ⟨name, false, some tOption⟩ arguments
    .ok (.samples (p.values.headD defaultT))
  | "calc" => some fun arguments => do
    let p ← read ⟨name, false, some bindingOption⟩ arguments
    .ok (.session p.values)
  | "help" => some takeTopic
  | _ => none

def version : String := "exprcalc 0.1.0"

def takeFlags (verbose : Bool) : List Char → Taking Bool
  | [] => .ok verbose
  | 'V' :: _ => instead (version ++ "\n")
  | 'h' :: _ => instead (Help.text none)
  | 'v' :: more => if verbose then wrong (.repeated "--verbose") else takeFlags true more
  | c :: _ => wrong (.unexpectedArgument ("-" ++ String.ofList [c]))

def noCommand (verbose : Bool) : UsageError := if verbose then .noCommand else .noArguments

def shortFlag? (name : List Char) : Option Char :=
  if name = "verbose".toList then some 'v'
  else if name = "version".toList then some 'V'
  else if name = "help".toList then some 'h'
  else none

def takeCommand (verbose : Bool) : List String → Taking Command
  | [] => wrong (noCommand verbose)
  | argument :: more =>
    match command? argument with
    | some command => command more
    | none =>
      match Shape.of argument with
      | .plain => wrong (.unknownCommand argument)
      | .escape =>
        match more with
        | [] => wrong (noCommand verbose)
        | next :: _ =>
          wrong (if (command? next).isSome then .unexpectedArgument next else .unknownCommand next)
      | .short cluster => do takeCommand (← takeFlags verbose cluster) more
      | .long name value? =>
        let flag := "--" ++ String.ofList name
        match shortFlag? name, value? with
        | none, _ => wrong (.unexpectedArgument flag)
        | some _, some value => wrong (.unexpectedValue (String.ofList value) flag)
        | some c, none => do takeCommand (← takeFlags verbose [c]) more

end Arguments

/-- The command that arguments name, or the report on their own text or error. -/
def Command.ofArguments (arguments : List String) : Except Report Command :=
  match Arguments.takeCommand false arguments with
  | .ok command => .ok command
  | .error (.instead text) => .error (CommandLine.succeed text)
  | .error (.wrong error) => .error { exitCode := 2, complaint := error.line }

end Calculator
