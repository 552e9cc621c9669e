import Calculator.Text.Hidden

/-!
# Quoted texts

A text between double quotes. What would end it, and what would not show, is written as an escape.
-/

namespace Calculator.Text

def codeEscape (c : Char) : List Char :=
  '\\' :: 'u' :: '\x7b' :: Nat.toDigits 16 c.toNat ++ ['\x7d']

def escapeChar (c : Char) : List Char :=
  match c with
  | '\x00' => ['\\', '0']
  | '\t' => ['\\', 't']
  | '\n' => ['\\', 'n']
  | '\r' => ['\\', 'r']
  | '"' => ['\\', '"']
  | '\\' => ['\\', '\\']
  | _ => if isHidden c then codeEscape c else [c]

def quotedChars (text : List Char) : List Char := '"' :: text.flatMap escapeChar ++ ['"']

def quoted (text : String) : String := String.ofList (quotedChars text.toList)

end Calculator.Text
