/-!
# Columns

Texts that are filled up with spaces.
-/

namespace Calculator.Text

def spaces (count : Nat) : String := String.ofList (List.replicate count ' ')

def column (width : Nat) (text : String) : String := text ++ spaces (width - text.length)

end Calculator.Text
