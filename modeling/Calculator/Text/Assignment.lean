/-!
# Assignments

A text of the form `name = value` is divided at its first equals sign.
-/

namespace Calculator.Text

def splitAtEquals? (text : List Char) : Option (List Char × List Char) :=
  match text.dropWhile (· ≠ '=') with
  | [] => none
  | _ :: after => some (text.takeWhile (· ≠ '='), after)

end Calculator.Text
