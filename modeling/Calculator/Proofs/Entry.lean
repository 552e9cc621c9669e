import Calculator.Proofs.Recursion
import Calculator.Proofs.Reuse
import Calculator.Proofs.Steps

/-!
# The depth of a parser

Wherever a parse starts to read an expression or a primary, the depth of the
parser is the number of constructs that the tokens before have left open.
To say so the readings are tested where they are entered: one that is entered
at another depth runs out (`Reading.completeIf`), and none does
(`Reading.completeIf_counted`).
-/

namespace Calculator

namespace Reading

section
variable {α β : Type} (ok : Parser → Prop) [DecidablePred ok]

def entered (r : Reading α) : Reading α := fun p => if ok p then r p else .exhausted

mutual

/-- An expression, tested wherever an expression or a primary is entered. -/
def expressionIf : Nat → Tier → Reading Expr
  | 0, _ => exhausted
  | count + 1, .operand => entered ok (primaryIf count)
  | count + 1, tier => entered ok do
    let first ← expressionIf count tier.next
    chain (expressionIf count tier.next) tier ((← remaining) + 1) #[] first

def primaryIf : Nat → Reading Expr
  | 0 => exhausted
  | count + 1 => entered ok (primaryOf (expressionIf count))

end

def completeIf : Reading Expr := do
  let e ← expressionIf ok maxReadings .lowest
  let _ ← expect .finish
  pure e

variable {ok}

theorem entered_of {r : Reading α} {p : Parser} (h : ok p) : entered ok r p = r p := if_pos h

theorem expressionIf_succ {count : Nat} {t : Tier} (ht : t ≠ .operand) :
    expressionIf ok (count + 1) t = entered ok (do
      let first ← expressionIf ok count t.next
      chain (expressionIf ok count t.next) t ((← remaining) + 1) #[] first) := by
  cases t <;> first | rfl | exact absurd rfl ht

/-! ## Readings that come to the same at a parser -/

variable {p : Parser}

theorem bind_congr_left {r r' : Reading α} {f : α → Reading β} (h : r' p = r p) : (r' >>= f) p = (r >>= f) p := by
  show Reading.bind r' f p = Reading.bind r f p
  unfold Reading.bind
  rw [h]

theorem bind_congr {r r' : Reading α} {f f' : α → Reading β} (h : r' p = r p)
    (hf : (r p).Holds (fun a q => f' a q = f a q) fun _ _ => True) : (r' >>= f') p = (r >>= f) p := by
  cases hr : r p with
  | done a q =>
    rw [hr] at hf
    rw [bind_of_done hr, bind_of_done (h.trans hr)]
    exact hf
  | failed err q => rw [bind_of_failed hr, bind_of_failed (h.trans hr)]
  | exhausted => exact absurd hr hf.ne_exhausted

theorem nested_congr {r r' : Reading α} (h : p.depth < maxDepth → r' p.descend = r p.descend) :
    nested r' p = nested r p := by
  unfold nested
  split
  · next hd => rw [h hd]
  · rfl

theorem group_congr {inner inner' : Reading Expr} {close : Kind}
    (h : p.depth < maxDepth → inner' p.descend = inner p.descend) : group inner' close p = group inner close p :=
  nested_congr fun hd => bind_congr_left (h hd)

end

end Reading

/-! ## Where readings are entered -/

def Leads (ts us : List Token) (q : Place) : Prop :=
  ∃ w, ts = w ++ us ∧ Place.start.steps (lexemes w) = some q

def Counted (ts : List Token) (p : Parser) : Prop :=
  ∃ q, Leads ts p.stream.ahead q ∧ p.depth = q.depth ∧ p.depth ≤ maxDepth

/-- An operand starts inside of `s`. Right after another operand that is a variable. -/
def StartsIn (ts us : List Token) (s : List Opening) : Prop :=
  Leads ts us ⟨.operand, s⟩ ∨
    settle s = s ∧ Leads ts us ⟨.operator, s⟩ ∧ ∃ x r, us = x :: r ∧ x.lexeme = .var

section
variable {ts us w : List Token} {x : Token} {p q : Place} {s : List Opening}

theorem Leads.append (h : Leads ts (w ++ us) p) (hw : p.steps (lexemes w) = some q) : Leads ts us q := by
  obtain ⟨v, rfl, hv⟩ := h
  refine ⟨v ++ w, (List.append_assoc ..).symm, ?_⟩
  rw [lexemes_append, Place.steps_append_of_eq hv, hw]

theorem Leads.cons (h : Leads ts (x :: us) p) (hx : p.step x.lexeme = some q) : Leads ts us q :=
  Leads.append (w := [x]) h (Place.steps_cons_of_step hx)

theorem StartsIn.append (h : StartsIn ts (w ++ us) s) (hne : w ≠ [])
    (hw : Place.steps ⟨.operand, s⟩ (lexemes w) = some q) : Leads ts us q := by
  rcases h with h | ⟨hset, h, x, r, hx, hvar⟩
  · exact h.append hw
  · cases w with
    | nil => exact absurd rfl hne
    | cons y w =>
      obtain ⟨rfl, -⟩ := List.cons.inj hx
      apply h.append
      rw [lexemes_cons, hvar] at hw ⊢
      rwa [Place.steps_var_cons hset]

theorem StartsIn.cons (h : StartsIn ts (x :: us) s) (hx : Place.step ⟨.operand, s⟩ x.lexeme = some q) :
    Leads ts us q :=
  StartsIn.append (w := [x]) h (by simp) (Place.steps_cons_of_step hx)

theorem StartsIn.counted {p : Parser} (h : StartsIn ts us s) (hp : p.At s.length us) (hd : s.length ≤ maxDepth) :
    Counted ts p := by
  unfold Counted
  rw [hp.ahead, hp.depth]
  rcases h with h | ⟨-, h, -⟩
  · exact ⟨_, h, rfl, hd⟩
  · exact ⟨_, h, rfl, hd⟩

end

namespace Reading

variable {ts : List Token} {s : List Opening} {p : Parser} {us : List Token}

theorem primaryOf_congr {inner inner' : Tier → Reading Expr} (h : p.At s.length us) (hus : StartsIn ts us s)
    (hin : s.length < maxDepth → ∀ t o q us, q.At (s.length + 1) us → StartsIn ts us (o :: s) →
      (t = .operand ∨ settle (o :: s) = o :: s) → inner' t q = inner t q) :
    primaryOf inner' p = primaryOf inner p := by
  obtain ⟨x, us, rfl⟩ := List.exists_cons_of_ne_nil h.readable.ne_nil
  have hspelled := h.readable.spelled
  have hgroup : ∀ {p : Parser} {us : List Token} {o : Opening} {close : Kind}, p.At s.length us →
      Leads ts us ⟨.operand, o :: s⟩ → settle (o :: s) = o :: s →
        group (inner' .lowest) close p = group (inner .lowest) close p := by
    intro p us o close hp hopen hset
    apply group_congr
    intro hd
    exact hin (hp.depth ▸ hd) _ _ _ us hp.descend (.inl hopen) (.inr hset)
  unfold primaryOf
  refine bind_congr rfl (peek_holds h fun p hp => ?_)
  cases hx : x.lexeme with
  | function fn =>
    refine bind_congr rfl (take_holds hp (by simp [hx]) fun p hp => ?_)
    obtain ⟨y, us, rfl⟩ := List.exists_cons_of_ne_nil hp.readable.ne_nil
    refine bind_congr rfl (expect_holds hp (fun hk p hp => ?_) fun _ _ _ => trivial)
    have hy := lexeme_eq_leftParen hk
    rw [if_neg (by simp [hy])] at hp
    have hopen : Leads ts us ⟨.operand, .group :: s⟩ :=
      (hus.cons (q := ⟨.argument, s⟩) (by rw [hx]; rfl)).cons (by rw [hy]; rfl)
    exact bind_congr_left (hgroup hp hopen rfl)
  | leftParen =>
    refine bind_congr rfl (take_holds hp (by simp [hx]) fun p hp => ?_)
    have hopen : Leads ts us ⟨.operand, .group :: s⟩ := hus.cons (by rw [hx]; rfl)
    exact hgroup hp hopen rfl
  | bar =>
    refine bind_congr rfl (take_holds hp (by simp [hx]) fun p hp => ?_)
    have hopen : Leads ts us ⟨.operand, .bars :: s⟩ := hus.cons (by rw [hx]; rfl)
    exact bind_congr_left (hgroup hp hopen rfl)
  | operator op =>
    refine bind_congr rfl (take_holds hp (by simp [hx]) fun p hp => ?_)
    have htext : x.text = op.symbol := hspelled _ (by rw [hx]; rfl)
    simp only [htext, ofSign?_symbol]
    cases hfn : op.sign? with
    | none => rfl
    | some fn =>
      have hopen : Leads ts us ⟨.operand, .sign :: s⟩ := hus.cons (by simp [Place.step, hx, hfn])
      apply bind_congr_left
      apply nested_congr
      intro hd
      exact hin (hp.depth ▸ hd) _ _ _ us hp.descend (.inl hopen) (.inl rfl)
  | _ => rfl

theorem leads_of_reads {t : Tier} {e : Expr} (h : Reads t s.length us e p) (hus : StartsIn ts us s)
    (hset : settle s = s) : ∃ r, p.At s.length r ∧ Leads ts r ⟨.operator, s⟩ := by
  obtain ⟨w, r, n, rfl, hw, -, -, hp⟩ := h
  have hne : w ≠ [] := by
    rintro rfl
    exact hw.ne_nil rfl
  have hsteps := hw.steps (s := s) (.inr hset)
  rw [hset] at hsteps
  exact ⟨r, hp, hus.append hne hsteps⟩

theorem chain_congr {operand operand' : Reading Expr} {t : Tier} (hset : settle s = s)
    (hoperand : ∀ q us, Parser.At q s.length us → StartsIn ts us s → operand' q = operand q ∧
      (operand q).Holds (Reads t.next s.length us) fun _ _ => True) :
    ∀ (count : Nat) (links : Array Expr.Link) (last : Expr) (p : Parser) (us : List Token), p.At s.length us →
      Leads ts us ⟨.operator, s⟩ → chain operand' t count links last p = chain operand t count links last p
  | 0, _, _, _, _, _, _ => rfl
  | count + 1, links, last, p, us, h, hus => by
    obtain ⟨x, us, rfl⟩ := List.exists_cons_of_ne_nil h.readable.ne_nil
    -- a round is an operand and the rest of the chain after it
    have hround : ∀ q vs symbol fn, Parser.At q s.length vs → StartsIn ts vs s →
        (operand' >>= fun right => chain operand' t count (links.push ⟨last, symbol, fn⟩) right) q =
          (operand >>= fun right => chain operand t count (links.push ⟨last, symbol, fn⟩) right) q := by
      intro q vs symbol fn hq hvs
      obtain ⟨heq, hholds⟩ := hoperand q vs hq hvs
      refine bind_congr heq (hholds.imp (fun right q hreads => ?_) fun _ _ h => h)
      obtain ⟨r, hq, hr⟩ := leads_of_reads hreads hvs hset
      exact chain_congr hset hoperand count _ right q r hq hr
    unfold chain
    refine bind_congr rfl (operator?_holds h ?_ ?_ ?_)
    · intro fn q hx _ hq
      exact hround q us _ _ hq (.inl (hus.cons (by rw [hx]; rfl)))
    · intro q hx _ hq
      exact hround q _ _ _ hq (.inr ⟨hset, hus, x, us, rfl, hx⟩)
    · intro q _ _ _
      rfl

open Classical in
/-- With enough readings left, no reading inside an expression is entered at another depth. -/
theorem expressionIf_counted : ∀ (count : Nat) (t : Tier) (p : Parser) (us : List Token) (s : List Opening),
    p.At s.length us → StartsIn ts us s → s.length ≤ maxDepth → (t = .operand ∨ settle s = s) →
      8 * (maxDepth - s.length) + 8 ≤ count + t.rank →
        expressionIf (Counted ts) count t p = expression count t p
  | 0, t, _, _, _, _, _, _, _, hcount => by
    have : t.rank ≤ 6 := by cases t <;> decide
    omega
  | count + 1, t, p, us, s, h, hus, hd, hset, hcount => by
    by_cases ht : t = .operand
    · subst ht
      cases count with
      | zero => simp only [Tier.rank] at hcount; omega
      | succ count =>
        unfold expressionIf expression primaryIf primary
        rw [entered_of (hus.counted h hd), entered_of (hus.counted h hd)]
        apply primaryOf_congr h hus
        intro hlt t o q vs hq hvs hset
        apply expressionIf_counted count t q vs (o :: s) hq hvs hlt hset
        simp only [Tier.rank, List.length_cons] at hcount ⊢
        omega
    · have hset := hset.resolve_left ht
      have hcount' : 8 * (maxDepth - s.length) + 8 ≤ count + t.next.rank := by rw [t.rank_next ht]; omega
      have hoperand : ∀ q vs, Parser.At q s.length vs → StartsIn ts vs s →
          expressionIf (Counted ts) count t.next q = expression count t.next q ∧
            (expression count t.next q).Holds (Reads t.next s.length vs) fun _ _ => True := by
        intro q vs hq hvs
        refine ⟨expressionIf_counted count t.next q vs s hq hvs hd (.inr hset) hcount', ?_⟩
        exact (expression_holds count t.next q _ vs s hq rfl hd (.inr hset) hcount').imp (fun _ _ h => h)
          fun _ _ _ => trivial
      rw [expressionIf_succ ht, expression_succ ht, entered_of (hus.counted h hd)]
      obtain ⟨heq, hholds⟩ := hoperand p us h hus
      refine bind_congr heq (hholds.imp (fun first q hreads => ?_) fun _ _ h => h)
      obtain ⟨r, hq, hr⟩ := leads_of_reads hreads hus hset
      exact chain_congr hset hoperand _ #[] first q r hq hr

open Classical in
theorem completeIf_counted (h : p.At 0 ts) : completeIf (Counted ts) p = complete p := by
  apply bind_congr_left
  apply expressionIf_counted maxReadings .lowest p ts [] h (.inl ⟨[], rfl, rfl⟩) (Nat.zero_le _) (.inr rfl)
  simp only [maxReadings, Tier.rank, List.length_nil]
  omega

end Reading

end Calculator
