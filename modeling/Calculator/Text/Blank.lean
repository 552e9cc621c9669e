import Calculator.Text.Ranges

/-!
# Blanks

The characters that separate tokens and that are trimmed from the ends of a line: those with the
Unicode property White_Space.
-/

namespace Calculator.Text

def blanks : Ranges :=
  [(0x9, 0xD), (0x20, 0x20), (0x85, 0x85), (0xA0, 0xA0), (0x1680, 0x1680), (0x2000, 0x200A),
   (0x2028, 0x2029), (0x202F, 0x202F), (0x205F, 0x205F), (0x3000, 0x3000)]

theorem isSorted_blanks : blanks.isSorted := by decide

def isBlank (c : Char) : Bool := blanks.contains c.toNat

def trim (text : List Char) : List Char :=
  ((text.dropWhile isBlank).reverse.dropWhile isBlank).reverse

end Calculator.Text
