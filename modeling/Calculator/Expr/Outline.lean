import Calculator.Double.Notation
import Calculator.Expr
import Calculator.Text.Quoted

/-!
# Outlines

The outline of an expression shows every node and field on a line of its own, four spaces further in
for each level.
-/

namespace Calculator.Expr

structure Line where
  level : Nat
  text : String

def Line.render (line : Line) : String :=
  String.ofList (List.replicate (4 * line.level) ' ') ++ line.text ++ "\n"

def outlineLines (level : Nat) (start ending : String) : Expr → List Line
  | constant value =>
    [⟨level, start ++ "Constant("⟩, ⟨level + 1, Double.explicit value ++ ","⟩,
      ⟨level, ")" ++ ending⟩]
  | var name =>
    [⟨level, start ++ "Variable("⟩, ⟨level + 1, Text.quoted name ++ ","⟩,
      ⟨level, ")" ++ ending⟩]
  | unary name _ operand =>
    [⟨level, start ++ "Unary \x7b"⟩, ⟨level + 1, "name: " ++ Text.quoted name ++ ","⟩,
      ⟨level + 1, "func: <fn>,"⟩] ++
    outlineLines (level + 1) "operand: " "," operand ++
    [⟨level, "\x7d" ++ ending⟩]
  | binary symbol _ left right =>
    [⟨level, start ++ "Binary \x7b"⟩, ⟨level + 1, "symbol: " ++ Text.quoted symbol ++ ","⟩,
      ⟨level + 1, "func: <fn>,"⟩] ++
    outlineLines (level + 1) "left: " "," left ++
    outlineLines (level + 1) "right: " "," right ++
    [⟨level, "\x7d" ++ ending⟩]

def outline (e : Expr) : String :=
  (e.outlineLines 0 "" "").foldl (fun text line => text ++ line.render) ""

end Calculator.Expr
