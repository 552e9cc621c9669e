import Calculator.Expr
import Calculator.Token

/-!
# The grammar of expressions

Which lexemes spell which tree at which tier, and how deep they nest. The
grammar is unambiguous (`Spells.unique`): a text has one tree at most, also
when only a first part of it is read up to a lexeme that cannot go on.
-/

namespace Calculator

/-! ## Names -/

def UnaryFn.name : UnaryFn → String
  | plus => "+"
  | negate => "-"
  | sin => "sin"
  | cos => "cos"
  | tan => "tan"
  | log => "log"
  | ln => "ln"
  | exp => "exp"
  | sqrt => "sqrt"
  | abs => "abs"

def BinaryFn.symbol : BinaryFn → String
  | add => "+"
  | sub => "-"
  | mul => "*"
  | div => "/"
  | pow => "^"

def BinaryFn.sign? : BinaryFn → Option UnaryFn
  | add => some .plus
  | sub => some .negate
  | mul | div | pow => none

theorem BinaryFn.tier_ne_operand (fn : BinaryFn) : fn.tier ≠ .operand := by cases fn <;> decide

theorem BinaryFn.sum_le_tier (fn : BinaryFn) : Tier.sum ≤ fn.tier := by cases fn <;> decide

theorem BinaryFn.not_operand_le_tier (fn : BinaryFn) : ¬ Tier.operand ≤ fn.tier := by cases fn <;> decide

theorem BinaryFn.tier_ne_lowest (fn : BinaryFn) : fn.tier ≠ .lowest := by cases fn <;> decide

/-! ## Spelling -/

/-- `Spells t w e n`: the lexemes `w` are an expression of tier `t` with the
tree `e`, and `n` is the largest number of groups, bar pairs, calls and signs
that are open in it at the same time. A chain of operands of the next tier
groups to the right. -/
inductive Spells : Tier → List Lexeme → Expr → Nat → Prop where
  | constant (value : Float) : Spells .operand [.constant value] (.constant value) 0
  | var : Spells .operand [.var] (.var "t") 0
  | call {fn : UnaryFn} {w : List Lexeme} {e : Expr} {n : Nat} : Spells .sum w e n →
      Spells .operand (.function fn :: .leftParen :: (w ++ [.rightParen])) (.unary fn.name fn e) (n + 1)
  | group {w : List Lexeme} {e : Expr} {n : Nat} : Spells .sum w e n →
      Spells .operand (.leftParen :: (w ++ [.rightParen])) e (n + 1)
  | bars {w : List Lexeme} {e : Expr} {n : Nat} : Spells .sum w e n →
      Spells .operand (.bar :: (w ++ [.bar])) (.unary "abs" .abs e) (n + 1)
  | sign {op : BinaryFn} {fn : UnaryFn} {w : List Lexeme} {e : Expr} {n : Nat} : op.sign? = some fn →
      Spells .operand w e n → Spells .operand (.operator op :: w) (.unary op.symbol fn e) (n + 1)
  | single {t : Tier} {w : List Lexeme} {e : Expr} {n : Nat} : t ≠ .operand →
      Spells t.next w e n → Spells t w e n
  | operation {t : Tier} {fn : BinaryFn} {v w : List Lexeme} {l r : Expr} {m n : Nat} : fn.tier = t →
      Spells t.next v l m → Spells t w r n →
      Spells t (v ++ .operator fn :: w) (.binary fn.symbol fn l r) (max m n)
  | implicit {t : Tier} {v w : List Lexeme} {l r : Expr} {m n : Nat} : t = .product →
      Spells t.next v l m → Spells t (.var :: w) r n →
      Spells t (v ++ .var :: w) (.binary "*" .mul l r) (max m n)

namespace Spells

variable {t : Tier} {v w : List Lexeme} {e l : Expr} {m n : Nat}

theorem ne_nil (h : Spells t w e n) : w ≠ [] := by
  induction h with
  | single _ _ ih => exact ih
  | _ => simp

theorem eq_var_cons {u : List Lexeme} (h : Spells t w e n) (hw : w ++ u = .var :: v) :
    ∃ w', w = .var :: w' := by
  cases w with
  | nil => exact absurd rfl h.ne_nil
  | cons x w' => exact ⟨w', by simp_all⟩

theorem of_operand (h : Spells .operand w e n) (t : Tier) : Spells t w e n := by
  have power : Spells .power w e n := .single (by decide) h
  have quotient : Spells .quotient w e n := .single (by decide) power
  have product : Spells .product w e n := .single (by decide) quotient
  have difference : Spells .difference w e n := .single (by decide) product
  have sum : Spells .sum w e n := .single (by decide) difference
  cases t with
  | lowest => exact .single (by decide) sum
  | _ => assumption

theorem lowest_iff : Spells .lowest w e n ↔ Spells .sum w e n := by
  refine ⟨fun h => ?_, fun h => .single (by decide) h⟩
  cases h with
  | single _ h => exact h
  | @operation _ fn _ _ _ _ _ _ ht => exact absurd ht fn.tier_ne_lowest
  | implicit ht => cases ht

end Spells

/-! ## What goes on with an expression -/

def Lexeme.continues (t : Tier) : Lexeme → Bool
  | .operator fn => t ≤ fn.tier
  | .var => t ≤ .product
  | _ => false

theorem Lexeme.continues_iff {t : Tier} {x : Lexeme} (ht : t ≠ .operand) :
    x.continues t = true ↔
      x.continues t.next = true ∨ (∃ fn, x = .operator fn ∧ fn.tier = t) ∨ (x = .var ∧ t = .product) := by
  cases x with
  | operator fn => cases t <;> cases fn <;> simp_all [continues, BinaryFn.tier] <;> decide
  | var => cases t <;> simp_all [continues] <;> decide
  | _ => simp [continues]

def Stops (t : Tier) (w : List Lexeme) : Prop := ∀ x ∈ w.head?, x.continues t = false

@[simp] theorem stops_nil (t : Tier) : Stops t [] := by simp [Stops]

@[simp] theorem stops_cons (t : Tier) (x : Lexeme) (w : List Lexeme) :
    Stops t (x :: w) ↔ x.continues t = false := by simp [Stops]

theorem stops_operand (w : List Lexeme) : Stops .operand w := by
  cases w with
  | nil => simp
  | cons x w =>
    rw [stops_cons]
    cases x with
    | operator fn => cases fn <;> decide
    | _ => rfl

theorem Stops.next {t : Tier} {w : List Lexeme} (ht : t ≠ .operand) (h : Stops t w) : Stops t.next w := by
  intro x hx
  cases hc : x.continues t.next with
  | false => rfl
  | true =>
    have := (Lexeme.continues_iff ht).2 (.inl hc)
    rw [h x hx] at this
    cases this

theorem stops_sum_of_lowest {w : List Lexeme} (h : Stops .lowest w) : Stops .sum w :=
  h.next (by decide)

theorem stops_rightParen (t : Tier) (w : List Lexeme) : Stops t (.rightParen :: w) := by simp [Lexeme.continues]

theorem not_stops_sum_operator (fn : BinaryFn) (w : List Lexeme) : ¬ Stops .sum (.operator fn :: w) := by
  simp [Lexeme.continues, fn.sum_le_tier]

theorem not_stops_sum_var (w : List Lexeme) : ¬ Stops .sum (.var :: w) := by
  simp [Lexeme.continues]; decide

theorem stops_bar (t : Tier) (w : List Lexeme) : Stops t (.bar :: w) := by simp [Lexeme.continues]

theorem not_stops_operator {t : Tier} {fn : BinaryFn} {w : List Lexeme} (h : fn.tier = t) :
    ¬ Stops t (.operator fn :: w) := by
  have : t ≤ fn.tier := h ▸ Nat.le_refl _
  simp [Lexeme.continues, this]

theorem not_stops_var {t : Tier} {w : List Lexeme} (h : t = .product) : ¬ Stops t (.var :: w) := by
  have : t ≤ .product := h ▸ Nat.le_refl _
  simp [Lexeme.continues, this]

theorem stops_next_operator (fn : BinaryFn) (w : List Lexeme) : Stops fn.tier.next (.operator fn :: w) := by
  cases fn <;> simp [Lexeme.continues] <;> decide

theorem stops_next_var (w : List Lexeme) : Stops Tier.product.next (.var :: w) := by
  simp [Lexeme.continues]; decide

/-! ## Taking an expression apart -/

theorem eq_cons_of_append {x : Lexeme} {u w r r' : List Lexeme} (h : x :: u ++ r = w ++ r') (hw : w ≠ []) :
    ∃ v, w = x :: v ∧ u ++ r = v ++ r' := by
  obtain ⟨hnil, _⟩ | h := List.cons_eq_append_iff.1 h
  · exact absurd hnil hw
  · exact h

def Operand : List Lexeme → Expr → Nat → Prop
  | .constant value :: w, e, n => w = [] ∧ e = .constant value ∧ n = 0
  | .var :: w, e, n => w = [] ∧ e = .var "t" ∧ n = 0
  | .function fn :: w, e, n => ∃ v a k,
      w = .leftParen :: (v ++ [.rightParen]) ∧ e = .unary fn.name fn a ∧ n = k + 1 ∧ Spells .sum v a k
  | .leftParen :: w, e, n => ∃ v k, w = v ++ [.rightParen] ∧ n = k + 1 ∧ Spells .sum v e k
  | .bar :: w, e, n => ∃ v a k, w = v ++ [.bar] ∧ e = .unary "abs" .abs a ∧ n = k + 1 ∧ Spells .sum v a k
  | .operator op :: w, e, n => ∃ fn a k,
      op.sign? = some fn ∧ e = .unary op.symbol fn a ∧ n = k + 1 ∧ Spells .operand w a k
  | _, _, _ => False

theorem Spells.operand {w : List Lexeme} {e : Expr} {n : Nat} (h : Spells .operand w e n) : Operand w e n := by
  cases h with
  | constant value => exact ⟨rfl, rfl, rfl⟩
  | var => exact ⟨rfl, rfl, rfl⟩
  | call h => exact ⟨_, _, _, rfl, rfl, rfl, h⟩
  | group h => exact ⟨_, _, rfl, rfl, h⟩
  | bars h => exact ⟨_, _, _, rfl, rfl, rfl, h⟩
  | sign hs h => exact ⟨_, _, _, hs, rfl, rfl, h⟩
  | single ht => exact absurd rfl ht
  | @operation _ fn _ _ _ _ _ _ ht => exact absurd ht fn.tier_ne_operand
  | implicit ht => cases ht

inductive Rest (t : Tier) (l : Expr) (m : Nat) : List Lexeme → Expr → Nat → Prop where
  | done : Rest t l m [] l m
  | operation {fn : BinaryFn} {w : List Lexeme} {r : Expr} {n : Nat} : fn.tier = t → Spells t w r n →
      Rest t l m (.operator fn :: w) (.binary fn.symbol fn l r) (max m n)
  | implicit {w : List Lexeme} {r : Expr} {n : Nat} : t = .product → Spells t (.var :: w) r n →
      Rest t l m (.var :: w) (.binary "*" .mul l r) (max m n)

theorem Spells.split {t : Tier} {w : List Lexeme} {e : Expr} {n : Nat} (h : Spells t w e n) (ht : t ≠ .operand) :
    ∃ v u l m, w = v ++ u ∧ Spells t.next v l m ∧ Rest t l m u e n := by
  cases h with
  | single _ h => exact ⟨_, [], _, _, by simp, h, .done⟩
  | operation hfn hl hr => exact ⟨_, _, _, _, rfl, hl, .operation hfn hr⟩
  | implicit hp hl hr => exact ⟨_, _, _, _, rfl, hl, .implicit hp hr⟩
  | _ => exact absurd rfl ht

theorem Rest.stops {t : Tier} {u r : List Lexeme} {l e : Expr} {m n : Nat} (h : Rest t l m u e n)
    (ht : t ≠ .operand) (hr : Stops t r) : Stops t.next (u ++ r) := by
  cases h with
  | done => exact hr.next ht
  | @operation fn w _ _ hfn =>
    subst hfn
    exact stops_next_operator fn (w ++ r)
  | @implicit w _ _ hp =>
    subst hp
    exact stops_next_var (w ++ r)

theorem Rest.eq_of_stops {t : Tier} {u r : List Lexeme} {l e : Expr} {m n : Nat} (h : Rest t l m u e n)
    (hs : Stops t (u ++ r)) : u = [] ∧ e = l ∧ n = m := by
  cases h with
  | done => exact ⟨rfl, rfl, rfl⟩
  | operation hfn => exact absurd hs (not_stops_operator hfn)
  | implicit hp => exact absurd hs (not_stops_var hp)

/-! ## Unambiguity -/

/-- Two readings of one list that both end where nothing goes on are the same. -/
theorem Spells.unique_append {t : Tier} {w : List Lexeme} {e : Expr} {n : Nat} (h : Spells t w e n) :
    ∀ {w' r r' : List Lexeme} {e' : Expr} {n' : Nat}, Spells t w' e' n' → w ++ r = w' ++ r' →
      Stops t r → Stops t r' → w = w' ∧ e = e' ∧ n = n' := by
  induction h with
  | constant value =>
    intro w' r r' e' n' h' heq _ _
    obtain ⟨w₁, rfl, -⟩ := eq_cons_of_append heq h'.ne_nil
    obtain ⟨rfl, rfl, rfl⟩ := h'.operand
    exact ⟨rfl, rfl, rfl⟩
  | var =>
    intro w' r r' e' n' h' heq _ _
    obtain ⟨w₁, rfl, -⟩ := eq_cons_of_append heq h'.ne_nil
    obtain ⟨rfl, rfl, rfl⟩ := h'.operand
    exact ⟨rfl, rfl, rfl⟩
  | call h ih =>
    intro w' r r' e' n' h' heq _ _
    obtain ⟨w₁, rfl, htail⟩ := eq_cons_of_append heq h'.ne_nil
    obtain ⟨v, a, k, rfl, rfl, rfl, hv⟩ := h'.operand
    obtain ⟨rfl, rfl, rfl⟩ := ih hv (by simpa using htail) (stops_rightParen _ _) (stops_rightParen _ _)
    exact ⟨rfl, rfl, rfl⟩
  | group h ih =>
    intro w' r r' e' n' h' heq _ _
    obtain ⟨w₁, rfl, htail⟩ := eq_cons_of_append heq h'.ne_nil
    obtain ⟨v, k, rfl, rfl, hv⟩ := h'.operand
    obtain ⟨rfl, rfl, rfl⟩ := ih hv (by simpa using htail) (stops_rightParen _ _) (stops_rightParen _ _)
    exact ⟨rfl, rfl, rfl⟩
  | bars h ih =>
    intro w' r r' e' n' h' heq _ _
    obtain ⟨w₁, rfl, htail⟩ := eq_cons_of_append heq h'.ne_nil
    obtain ⟨v, a, k, rfl, rfl, rfl, hv⟩ := h'.operand
    obtain ⟨rfl, rfl, rfl⟩ := ih hv (by simpa using htail) (stops_bar _ _) (stops_bar _ _)
    exact ⟨rfl, rfl, rfl⟩
  | sign hs h ih =>
    intro w' r r' e' n' h' heq _ _
    obtain ⟨w₁, rfl, htail⟩ := eq_cons_of_append heq h'.ne_nil
    obtain ⟨fn', a, k, hs', rfl, rfl, hv⟩ := h'.operand
    obtain ⟨rfl, rfl, rfl⟩ := ih hv htail (stops_operand _) (stops_operand _)
    rw [hs, Option.some.injEq] at hs'
    subst hs'
    exact ⟨rfl, rfl, rfl⟩
  | single ht h ih =>
    intro w' r r' e' n' h' heq hr hr'
    -- the other reading has a first operand too, which ends where the rest of it starts
    obtain ⟨v', u', l', m', rfl, hl', hu'⟩ := h'.split ht
    rw [List.append_assoc] at heq
    obtain ⟨rfl, rfl, rfl⟩ := ih hl' heq (hr.next ht) (hu'.stops ht hr')
    rw [List.append_cancel_left heq] at hr
    obtain ⟨rfl, rfl, rfl⟩ := hu'.eq_of_stops hr
    simp
  | @operation t fn v w l r m n hfn hl hw ihl ihw =>
    intro w' s s' e' n' h' heq hs hs'
    have ht : t ≠ .operand := hfn ▸ fn.tier_ne_operand
    obtain ⟨v', u', l', m', rfl, hl', hu'⟩ := h'.split ht
    rw [List.append_assoc, List.append_assoc] at heq
    obtain ⟨rfl, rfl, rfl⟩ := ihl hl' heq ((Rest.operation hfn hw (l := l) (m := m)).stops ht hs) (hu'.stops ht hs')
    replace heq := List.append_cancel_left heq
    cases hu' with
    | done =>
      rw [List.nil_append] at heq
      rw [← heq] at hs'
      exact absurd hs' (not_stops_operator hfn)
    | operation hfn' hw' =>
      simp only [List.cons_append, List.cons.injEq, Lexeme.operator.injEq] at heq
      obtain ⟨rfl, htail⟩ := heq
      obtain ⟨rfl, rfl, rfl⟩ := ihw hw' htail hs hs'
      exact ⟨rfl, rfl, rfl⟩
    | implicit => simp at heq
  | @implicit t v w l r m n hp hl hw ihl ihw =>
    intro w' s s' e' n' h' heq hs hs'
    have ht : t ≠ .operand := by subst hp; decide
    obtain ⟨v', u', l', m', rfl, hl', hu'⟩ := h'.split ht
    rw [List.append_assoc, List.append_assoc] at heq
    obtain ⟨rfl, rfl, rfl⟩ := ihl hl' heq ((Rest.implicit hp hw (l := l) (m := m)).stops ht hs) (hu'.stops ht hs')
    replace heq := List.append_cancel_left heq
    cases hu' with
    | done =>
      rw [List.nil_append] at heq
      rw [← heq] at hs'
      exact absurd hs' (not_stops_var hp)
    | operation => simp at heq
    | implicit hp' hw' =>
      obtain ⟨hw, rfl, rfl⟩ := ihw hw' heq hs hs'
      exact ⟨by rw [hw], rfl, rfl⟩

theorem Spells.unique {t : Tier} {w : List Lexeme} {e e' : Expr} {n n' : Nat} (h : Spells t w e n)
    (h' : Spells t w e' n') : e = e' ∧ n = n' :=
  (h.unique_append h' rfl (stops_nil t) (stops_nil t)).2

end Calculator
