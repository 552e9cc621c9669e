import Calculator.CommandLine.Arguments

/-!
# The program

Standard input and output around the command line. A session reads and answers line by line.
-/

namespace Calculator

partial def converse (ctx : Context) : IO Unit := do
  let out ← IO.getStdout
  out.putStr Session.prompt
  out.flush
  let line ← (← IO.getStdin).getLine
  if line = "" then return
  match Session.reply ctx line.toList with
  | .finished => return
  | .silent => converse ctx
  | .refused refusal =>
    IO.eprintln refusal.message
    converse ctx
  | .answered text after =>
    out.putStrLn text
    converse after

def finish (report : Report) : IO UInt32 := do
  IO.print report.output
  if report.complaint ≠ "" then IO.eprintln report.complaint
  return report.exitCode.toUInt32

end Calculator

open Calculator in
def main (arguments : List String) : IO UInt32 := do
  match Command.ofArguments arguments with
  | .ok (.session bindings) =>
    converse (Context.ofList bindings)
    return 0
  | .ok command => finish (CommandLine.execute "" command)
  | .error report => finish report
