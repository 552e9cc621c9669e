import Calculator.Parser
import Calculator.Proofs.Ahead
import Calculator.Proofs.Place

/-!
# Outcomes of a reading

What a reading does to a parser is said by two predicates: one on what it
gives, one on how it fails (`Outcome.Holds`). A reading whose count runs out
satisfies no such pair. The steps of a parse are described by the tokens that
are ahead of the parser and its depth (`Parser.At`).
-/

namespace Calculator

def lexemes (ts : List Token) : List Lexeme := ts.map Token.lexeme

@[simp] theorem lexemes_nil : lexemes [] = [] := rfl

@[simp] theorem lexemes_cons (x : Token) (ts : List Token) : lexemes (x :: ts) = x.lexeme :: lexemes ts := rfl

@[simp] theorem lexemes_append (ts us : List Token) : lexemes (ts ++ us) = lexemes ts ++ lexemes us :=
  List.map_append

structure Parser.At (p : Parser) (d : Nat) (ts : List Token) : Prop where
  depth : p.depth = d
  ahead : p.stream.ahead = ts
  readable : Readable ts

theorem Parser.At.descend {p : Parser} {d : Nat} {ts : List Token} (h : p.At d ts) : p.descend.At (d + 1) ts :=
  ⟨congrArg (· + 1) h.depth, h.ahead, h.readable⟩

theorem Parser.At.ascend {p : Parser} {d : Nat} {ts : List Token} (h : p.At (d + 1) ts) : p.ascend.At d ts :=
  ⟨congrArg (· - 1) h.depth, h.ahead, h.readable⟩

def ParseError.Cause.takes : ParseError.Cause → Bool
  | .expected _ | .misplacedOperator => true
  | .endOfInput | .noOperand | .tooDeep => false

def ParseError.left (err : ParseError) (ts : List Token) : List Token :=
  if err.cause.takes ∧ err.token.lexeme ≠ .finish then ts else err.token :: ts

theorem ParseError.left_of_takes {cause : Cause} {x : Token} {ts : List Token} (h : cause.takes = true) :
    left ⟨cause, x⟩ ts = if x.lexeme = .finish then x :: ts else ts := by
  by_cases hx : x.lexeme = .finish <;> simp [left, h, hx]

theorem ParseError.left_of_not_takes {cause : Cause} {x : Token} {ts : List Token} (h : cause.takes = false) :
    left ⟨cause, x⟩ ts = x :: ts := by
  simp [left, h]

theorem ParseError.left_suffix (err : ParseError) (ts : List Token) : err.left ts <:+ err.token :: ts := by
  unfold left
  split
  · exact List.suffix_cons err.token ts
  · exact List.suffix_refl _

namespace Outcome

variable {α : Type}

def Holds (Q : α → Parser → Prop) (R : ParseError → Parser → Prop) : Outcome α → Prop
  | .done a p => Q a p
  | .failed err p => R err p
  | .exhausted => False

theorem Holds.imp {Q Q' : α → Parser → Prop} {R R' : ParseError → Parser → Prop} {o : Outcome α}
    (h : o.Holds Q R) (hq : ∀ a p, Q a p → Q' a p) (hr : ∀ err p, R err p → R' err p) : o.Holds Q' R' := by
  cases o with
  | done a p => exact hq a p h
  | failed err p => exact hr err p h
  | exhausted => exact h

end Outcome

namespace Reading

variable {α β : Type} {R : ParseError → Parser → Prop} {p : Parser} {d : Nat} {x : Token} {ts : List Token}

theorem bind_holds {Q : β → Parser → Prop} {r : Reading α} {f : α → Reading β}
    (h : (r p).Holds (fun a p => (f a p).Holds Q R) R) : ((r >>= f) p).Holds Q R := by
  show (Reading.bind r f p).Holds Q R
  unfold Reading.bind
  cases hr : r p <;> rw [hr] at h <;> exact h

section
variable {Q : Token → Parser → Prop}

theorem peek_holds (h : p.At d (x :: ts)) (hq : ∀ p', p'.At d (x :: ts) → Q x p') : (peek p).Holds Q R := by
  show Q p.stream.peek.1 _
  rw [TokenStream.peek_fst h.ahead]
  exact hq _ ⟨h.depth, (TokenStream.ahead_peek _).trans h.ahead, h.readable⟩

theorem pop_holds (h : p.At d (x :: ts))
    (hq : ∀ p', p'.At d (if x.lexeme = .finish then x :: ts else ts) → Q x p') : (pop p).Holds Q R := by
  show Q p.stream.pop.1 _
  rw [TokenStream.pop_fst h.ahead]
  refine hq _ ⟨h.depth, TokenStream.ahead_pop h.ahead, ?_⟩
  split
  · exact h.readable
  · next hx => exact h.readable.tail hx

theorem take_holds (h : p.At d (x :: ts)) (hx : x.lexeme ≠ .finish) (hq : ∀ p', p'.At d ts → Q x p') :
    (pop p).Holds Q R :=
  pop_holds h fun p' hp => hq p' (by rwa [if_neg hx] at hp)

theorem expect_holds {kind : Kind} (h : p.At d (x :: ts))
    (hq : x.kind = kind → ∀ p', p'.At d (if x.lexeme = .finish then x :: ts else ts) → Q x p')
    (hr : x.kind ≠ kind → ∀ p', p'.At d (ParseError.left ⟨.expected kind, x⟩ ts) → R ⟨.expected kind, x⟩ p') :
    (expect kind p).Holds Q R := by
  refine bind_holds (pop_holds h fun p' hp => ?_)
  by_cases hk : x.kind = kind
  · simp only [hk, if_true]
    exact hq hk p' hp
  · simp only [hk, if_false]
    exact hr hk p' (by rwa [ParseError.left_of_takes rfl])

end

variable {Q : α → Parser → Prop}

theorem nested_holds {inner : Reading α} (h : p.At d (x :: ts))
    (hin : d < maxDepth → (inner p.descend).Holds (fun a q => Q a q.ascend) fun err q => R err q.ascend)
    (hdeep : maxDepth ≤ d → ∀ p', p'.At d (x :: ts) → R ⟨.tooDeep, x⟩ p') : (nested inner p).Holds Q R := by
  unfold nested
  split
  · next hd =>
    have := hin (h.depth ▸ hd)
    cases ho : inner p.descend <;> rw [ho] at this <;> exact this
  · next hd =>
    exact bind_holds (peek_holds h fun p' hp => hdeep (h.depth ▸ Nat.le_of_not_lt hd) p' hp)

end Reading

end Calculator
