import Calculator.Answer
import Calculator.Text.Assignment
import Calculator.Text.Blank

/-!
# Sessions

A session answers lines one by one. Its memory is a context, of which only the variable `t` can
change: a line `t = …` sets it, every other line shows an expression and its value.
-/

namespace Calculator.Session

open Text

inductive Request where
  | nothing
  | leave
  | assign (source : String)
  | display (source : String)
  deriving DecidableEq, Repr

/-- Blanks around a line and around the sides of its first equals sign do not count, nor does the
case of `exit`. Only `t` can be assigned to. -/
def Request.ofLine (line : List Char) : Request :=
  let text := trim line
  if text = [] then .nothing
  else if text.map Char.toLower = "exit".toList then .leave
  else match splitAtEquals? text with
    | some (target, source) =>
      if trim target = ['t'] then .assign (String.ofList (trim source))
      else .display (String.ofList text)
    | none => .display (String.ofList text)

inductive Reply where
  | silent
  | finished
  | refused (refusal : Refusal)
  | answered (text : String) (after : Context)

def reply (ctx : Context) (line : List Char) : Reply :=
  match Request.ofLine line with
  | .nothing => .silent
  | .leave => .finished
  | .assign source =>
    match evaluate ctx source with
    | .error refusal => .refused refusal
    | .ok (_, value) => .answered ("t = " ++ Double.format value) (ctx.set "t" value)
  | .display source =>
    match evaluate ctx source with
    | .error refusal => .refused refusal
    | .ok (e, value) => .answered (e.print ++ " = " ++ Double.format value) ctx

def prompt : String := "calc> "

def transcript (ctx : Context) : List (List Char) → String
  | [] => prompt
  | line :: more =>
    match reply ctx line with
    | .finished => prompt
    | .silent => prompt ++ transcript ctx more
    | .refused _ => prompt ++ transcript ctx more
    | .answered text after => prompt ++ (text ++ "\n" ++ transcript after more)

def lines (text : List Char) : List (List Char) :=
  text.foldr (fun c lines =>
    if c = '\n' then [] :: lines
    else match lines with
      | [] => [[c]]
      | line :: more => (c :: line) :: more) []

def run (ctx : Context) (input : String) : String := transcript ctx (lines input.toList)

end Calculator.Session
