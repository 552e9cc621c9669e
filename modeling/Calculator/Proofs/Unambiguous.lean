import Calculator.Proofs.Reprinting

/-!
# Canonical texts are unambiguous

The first lexeme of a canonical text tells what node it is of, and the text of
each operand ends where the operand does, whatever follows
(`Expr.alike_of_printed_append`). So trees with one text have the same nodes
in the same places, and constants that are written alike (`print_eq_iff`).
Texts that nest too deep to be read again are no exception, as nothing is read
here.
-/

namespace Calculator

namespace Expr

/-- The same nodes with the same names, and constants of the same text. -/
inductive Alike : Expr → Expr → Prop where
  | constant {x y : Float} : Double.format x = Double.format y → Alike (.constant x) (.constant y)
  | var (name : String) : Alike (.var name) (.var name)
  | unary {a b : Expr} (name : String) (fn : UnaryFn) : Alike a b → Alike (.unary name fn a) (.unary name fn b)
  | binary {l l' r r' : Expr} (symbol : String) (fn : BinaryFn) : Alike l l' → Alike r r' →
      Alike (.binary symbol fn l r) (.binary symbol fn l' r')

theorem Alike.print_eq {a b : Expr} (h : a.Alike b) : a.print = b.print := by
  induction h with
  | constant h => exact h
  | var name => rfl
  | unary name fn _ ih => rw [print, print, ih]
  | binary symbol fn _ _ ihl ihr => rw [print, print, ihl, ihr]

end Expr

/-! ## The first lexeme of a text -/

/-- A constant reads as one again, or as a word that means nothing. -/
theorem Double.printed_eq (x : Float) : printed x = .constant (reread x) ∨ printed x = .unknown := by
  unfold printed
  split
  · exact .inl rfl
  · exact .inr rfl

theorem Double.format_eq_of_printed {x y : Float} (hx : Unsigned x) (hy : Unsigned y) (h : printed x = printed y) :
    format x = format y := by
  have hfinite : ∀ {x : Float} {units : Nat}, ofFloat x = .finite false units → printed x = .constant (reread x) :=
    fun hx => IsFinite.printed_eq ⟨_, _, hx⟩
  have hinfinite : ∀ {x : Float}, ofFloat x = .infinite false → printed x = .unknown := fun hx => by rw [printed, hx]
  rcases hx with hx | ⟨units, hx⟩
  · rcases hy with hy | ⟨units', hy⟩
    · rw [format, format, hx, hy]
    · rw [hinfinite hx, hfinite hy] at h
      cases h
  · rcases hy with hy | ⟨units', hy⟩
    · rw [hfinite hx, hinfinite hy] at h
      cases h
    · rw [hfinite hx, hfinite hy, Lexeme.constant.injEq] at h
      rw [← format_reread hx (absurd · Bool.false_ne_true), h, format_reread hy (absurd · Bool.false_ne_true)]

theorem UnaryFn.lexeme_injective {fn fn' : UnaryFn} (h : fn.lexeme = fn'.lexeme) : fn = fn' := by
  cases fn <;> cases fn' <;> first | rfl | cases h

namespace Expr

inductive Node where
  | constant
  | var
  | unary
  | binary

def node : Expr → Node
  | constant _ => .constant
  | var _ => .var
  | unary _ _ _ => .unary
  | binary _ _ _ _ => .binary

end Expr

def Lexeme.node? : Lexeme → Option Expr.Node
  | constant _ | unknown => some .constant
  | var => some .var
  | function _ | operator _ => some .unary
  | leftParen => some .binary
  | _ => none

namespace Expr

theorem node?_printed (e : Expr) : ∃ x u, e.printed = x :: u ∧ x.node? = some e.node := by
  cases e with
  | constant value =>
    refine ⟨_, _, rfl, ?_⟩
    rcases Double.printed_eq value with h | h <;> rw [h] <;> rfl
  | var name => exact ⟨_, _, rfl, rfl⟩
  | unary name fn operand =>
    refine ⟨_, _, rfl, ?_⟩
    cases fn <;> rfl
  | binary symbol fn left right => exact ⟨_, _, rfl, rfl⟩

theorem node_eq_of_printed_append {e e' : Expr} {w w' : List Lexeme} (h : e.printed ++ w = e'.printed ++ w') :
    e.node = e'.node := by
  obtain ⟨x, u, hx, hnode⟩ := e.node?_printed
  obtain ⟨x', u', hx', hnode'⟩ := e'.node?_printed
  rw [hx, hx', List.cons_append, List.cons_append] at h
  obtain ⟨rfl, -⟩ := List.cons.inj h
  rw [hnode] at hnode'
  exact Option.some.inj hnode'

/-- If one list starts with two canonical texts, the trees are alike and the texts end at one place. -/
theorem alike_of_printed_append {e e' : Expr} {w w' : List Lexeme} (he : e.Proper) (he' : e'.Proper)
    (h : e.printed ++ w = e'.printed ++ w') : e.Alike e' ∧ w = w' := by
  induction e generalizing e' w w' with
  | constant value =>
    have hnode := node_eq_of_printed_append h
    cases e' with
    | constant value' =>
      obtain ⟨hvalue, hw⟩ := List.cons.inj h
      exact ⟨.constant (Double.format_eq_of_printed he he' hvalue), hw⟩
    | _ => cases hnode
  | var name =>
    have hnode := node_eq_of_printed_append h
    cases e' with
    | var name' =>
      obtain rfl : name = "t" := he
      obtain rfl : name' = "t" := he'
      exact ⟨.var _, (List.cons.inj h).2⟩
    | _ => cases hnode
  | unary name fn operand ih =>
    have hnode := node_eq_of_printed_append h
    cases e' with
    | unary name' fn' operand' =>
      obtain ⟨rfl, he⟩ := he
      obtain ⟨rfl, he'⟩ := he'
      simp only [printed, List.cons_append, List.append_assoc, List.cons.injEq, true_and] at h
      obtain ⟨hfn, hoperand⟩ := h
      obtain rfl := UnaryFn.lexeme_injective hfn
      obtain ⟨halike, hw⟩ := ih he he' hoperand
      exact ⟨.unary _ _ halike, (List.cons.inj hw).2⟩
    | _ => cases hnode
  | binary symbol fn left right ihl ihr =>
    have hnode := node_eq_of_printed_append h
    cases e' with
    | binary symbol' fn' left' right' =>
      obtain ⟨rfl, hl, hr⟩ := he
      obtain ⟨rfl, hl', hr'⟩ := he'
      simp only [printed, List.cons_append, List.append_assoc, List.cons.injEq, true_and] at h
      -- the left text ends at one place in both lists, so the operators after it are the same
      obtain ⟨halike, hrest⟩ := ihl hl hl' h
      obtain ⟨hfn, hright⟩ := List.cons.inj hrest
      obtain rfl := Lexeme.operator.inj hfn
      obtain ⟨halike', hw⟩ := ihr hr hr' hright
      exact ⟨.binary _ _ halike halike', (List.cons.inj hw).2⟩
    | _ => cases hnode

end Expr

/-- Two trees that are read from texts are written alike exactly if they have the same nodes with the same names and
functions, and constants that are written alike in the same places. -/
theorem print_eq_iff {text text' : String} {e e' : Expr} (h : parse text = .ok e) (h' : parse text' = .ok e') :
    e.print = e'.print ↔ e.Alike e' := by
  have he := proper_of_parse h
  have he' := proper_of_parse h'
  constructor
  · intro hprint
    have hprinted : e.printed = e'.printed := by rw [← Expr.lexemes_print he, hprint, Expr.lexemes_print he']
    have happend : e.printed ++ [] = e'.printed ++ [] := by rw [hprinted]
    exact (Expr.alike_of_printed_append he he' happend).1
  · exact Expr.Alike.print_eq

/-- The trees of `t-tan(0.125)` and `t-tan(0.12)` are different and have one text. -/
theorem print_eq_iff_of_eighth :
    ∃ e e', parse "t-tan(0.125)" = .ok e ∧ parse "t-tan(0.12)" = .ok e' ∧ e ≠ e' ∧ e.print = e'.print ∧
      (e.print = e'.print ↔ e.Alike e') := by
  have hspells : ∀ value, Spells .sum [.var, .operator .sub, .function .tan, .leftParen, .constant value, .rightParen]
      (.binary "-" .sub (.var "t") (.unary "tan" .tan (.constant value))) 1 := fun value =>
    (@Spells.operation .difference .sub _ _ _ _ _ _ rfl (Spells.var.of_operand _)
      ((@Spells.call .tan _ _ _ ((Spells.constant value).of_operand _)).of_operand _)).to_sum nofun
  have hlexemes : lexemes (tokenize "t-tan(0.125)") =
      [.var, .operator .sub, .function .tan, .leftParen, .constant (Double.nearest 125 1000), .rightParen] := by rfl
  have hlexemes' : lexemes (tokenize "t-tan(0.12)") =
      [.var, .operator .sub, .function .tan, .leftParen, .constant (Double.nearest 12 100), .rightParen] := by rfl
  have h := parse_eq_ok_iff.2 ⟨1, by decide, hlexemes ▸ hspells _⟩
  have h' := parse_eq_ok_iff.2 ⟨1, by decide, hlexemes' ▸ hspells _⟩
  have hunits : Double.nearestUnits 125 1000 = Double.twoTo 1071 := by decide +kernel
  have hx : Double.ofFloat (Double.nearest 125 1000) = .finite false (Double.twoTo 1071) := by
    rw [Double.nearest, hunits]
    exact Double.ofFloat_ofUnits (Double.onGrid_twoTo 1071) (Double.twoTo_lt (by decide))
  have hhundredths : Double.hundredths (Double.twoTo 1071) = 12 := by decide +kernel
  have hread : Double.reread (Double.nearest 125 1000) = Double.nearest 12 100 := by
    rw [Double.reread, Double.toList_format hx (absurd · Bool.false_ne_true), Double.ofText_hundredthsText, hhundredths]
  have hformat := (Double.format_reread hx (absurd · Bool.false_ne_true)).symm
  have hreread := Double.ofFloat_reread hx (absurd · Bool.false_ne_true)
  rw [hread] at hformat hreread
  refine ⟨_, _, h, h', ?_, ?_, print_eq_iff h h'⟩
  · intro heq
    simp only [Expr.binary.injEq, Expr.unary.injEq, Expr.constant.injEq, true_and] at heq
    rw [← heq, hx, hhundredths, Double.finite.injEq] at hreread
    exact absurd hreread.2 (by decide +kernel)
  · exact (print_eq_iff h h').2 (.binary _ _ (.var _) (.unary _ _ (.constant hformat)))

end Calculator
