import Calculator.Proofs.Outcome

/-!
# What descent reads

A reading of the parser takes a longest expression from the tokens ahead, or
it stops at the first token that no expression goes on with, or right after
one construct too many was opened (`expression_holds`). It never runs out of
readings or links.
-/

namespace Calculator

/-! ## Refusals -/

/-- Why a lexeme cannot stand at a place that has no step for it. -/
def Place.blame : Place → Lexeme → ParseError.Cause
  | ⟨.operand, _⟩, .finish => .endOfInput
  | ⟨.operand, _⟩, .operator _ => .misplacedOperator
  | ⟨.operand, _⟩, _ => .noOperand
  | ⟨.argument, _⟩, _ => .expected .leftParen
  | ⟨.operator, []⟩, _ => .expected .finish
  | ⟨.operator, .bars :: _⟩, _ => .expected .bar
  | ⟨.operator, _ :: _⟩, _ => .expected .rightParen

/-- A place refuses every lexeme if too much is open, and otherwise those it has no step for. Only the
final place lets the text end. -/
def Place.Refuses (p : Place) (x : Lexeme) (cause : ParseError.Cause) : Prop :=
  if maxDepth < p.depth then cause = .tooDeep
  else p.step x = none ∧ cause = p.blame x ∧ (x = .finish → p ≠ .final)

theorem Place.refuses_of_step {p : Place} {x : Lexeme} {cause : ParseError.Cause} (hd : p.depth ≤ maxDepth)
    (hs : p.step x = none) (hb : p.blame x = cause) (hf : x = .finish → p ≠ .final) : p.Refuses x cause := by
  rw [Refuses, if_neg (Nat.not_lt.2 hd)]
  exact ⟨hs, hb.symm, hf⟩

theorem Place.refuses_of_depth {p : Place} {x : Lexeme} (hd : maxDepth < p.depth) : p.Refuses x .tooDeep := by
  rw [Refuses, if_pos hd]

theorem Place.Refuses.of_depth_le {p : Place} {x : Lexeme} {cause : ParseError.Cause} (h : p.Refuses x cause)
    (hd : p.depth ≤ maxDepth) : p.step x = none ∧ cause = p.blame x ∧ (x = .finish → p ≠ .final) := by
  rwa [Refuses, if_neg (Nat.not_lt.2 hd)] at h

def Fails (σ : Place) (d : Nat) (ts : List Token) (err : ParseError) (p : Parser) : Prop :=
  ∃ w r τ, ts = w ++ err.token :: r ∧ σ.run maxDepth (lexemes w) = some τ ∧
    τ.Refuses err.token.lexeme err.cause ∧ p.At d (err.left r)

section
variable {σ τ : Place} {d : Nat} {ts w r : List Token} {x : Token} {err : ParseError} {p : Parser}

theorem Fails.here {cause : ParseError.Cause} (h : σ.Refuses x.lexeme cause)
    (hp : p.At d (ParseError.left ⟨cause, x⟩ r)) : Fails σ d (x :: r) ⟨cause, x⟩ p :=
  ⟨[], r, σ, rfl, rfl, h, hp⟩

theorem Fails.append (hw : σ.run maxDepth (lexemes w) = some τ) (h : Fails τ d ts err p) :
    Fails σ d (w ++ ts) err p := by
  obtain ⟨w', r, υ, rfl, hrun, href, hp⟩ := h
  refine ⟨w ++ w', r, υ, (List.append_assoc ..).symm, ?_, href, hp⟩
  rw [lexemes_append, Place.run_append_of_eq hw, hrun]

theorem Fails.cons (hd : σ.depth ≤ maxDepth) (hx : σ.step x.lexeme = some τ) (h : Fails τ d ts err p) :
    Fails σ d (x :: ts) err p :=
  Fails.append (w := [x]) (Place.run_cons_of_step hd hx) h

theorem Fails.ascend (h : Fails σ (d + 1) ts err p) : Fails σ d ts err p.ascend := by
  obtain ⟨w, r, τ, hts, hrun, href, hp⟩ := h
  exact ⟨w, r, τ, hts, hrun, href, hp.ascend⟩

end

/-- The parser has taken an expression that nothing ahead goes on with. -/
def Reads (t : Tier) (d : Nat) (ts : List Token) (e : Expr) (p : Parser) : Prop :=
  ∃ w r n, ts = w ++ r ∧ Spells t (lexemes w) e n ∧ d + n ≤ maxDepth ∧ Stops t (lexemes r) ∧ p.At d r

/-- The parser has gone on with a chain after its operand `last`, and the links before it stand around
what it has taken. -/
def ReadsChain (t : Tier) (d : Nat) (ts : List Token) (links : Array Expr.Link) (last e : Expr) (p : Parser) : Prop :=
  ∃ w r n e', ts = w ++ r ∧ e = Expr.chain links e' ∧
    (∀ v m, Spells t.next v last m → Spells t (v ++ lexemes w) e' (max m n)) ∧
    d + n ≤ maxDepth ∧ Stops t (lexemes r) ∧ p.At d r

namespace Reading

/-! ## Groups and bar pairs -/

theorem step_eq_none_of_stops {o : Opening} {s : List Opening} {y : Lexeme} {w : List Lexeme} {close : Kind}
    (ho : o.closer?.map Lexeme.kind = some close) (hs : Stops .sum (y :: w)) (hy : y.kind ≠ close) :
    Place.step ⟨.operator, o :: s⟩ y = none ∧ Place.blame ⟨.operator, o :: s⟩ y = .expected close := by
  cases y with
  | operator fn => exact absurd hs (not_stops_sum_operator fn w)
  | var => exact absurd hs (not_stops_sum_var w)
  | _ => cases o <;> cases ho <;> first | exact absurd rfl hy | exact ⟨rfl, rfl⟩

theorem closer?_eq_of_kind {o : Opening} {y : Lexeme} {close : Kind}
    (ho : o.closer?.map Lexeme.kind = some close) (hy : y.kind = close) : o.closer? = some y := by
  cases o <;> cases ho <;> cases y <;> first | rfl | cases hy

theorem settle_of_closer? {o : Opening} {close : Kind} (ho : o.closer?.map Lexeme.kind = some close)
    (s : List Opening) : settle (o :: s) = o :: s := by
  cases o <;> cases ho <;> rfl

theorem lexeme_eq_leftParen {x : Token} (h : x.kind = .leftParen) : x.lexeme = .leftParen := by
  unfold Token.kind at h
  cases hx : x.lexeme <;> rw [hx] at h <;> first | rfl | cases h

theorem step_argument_eq_none {s : List Opening} {x : Token} (h : x.kind ≠ .leftParen) :
    Place.step ⟨.argument, s⟩ x.lexeme = none := by
  unfold Token.kind at h
  cases hx : x.lexeme <;> rw [hx] at h <;> first | rfl | exact absurd rfl h

theorem group_holds {inner : Reading Expr} {close : Kind} {o : Opening} {s : List Opening} {p : Parser} {d : Nat}
    {ts : List Token} (h : p.At d ts) (hs : s.length = d) (hd : d ≤ maxDepth)
    (ho : o.closer?.map Lexeme.kind = some close)
    (hin : d < maxDepth → ∀ q, q.At (d + 1) ts →
      (inner q).Holds (Reads .lowest (d + 1) ts) (Fails ⟨.operand, o :: s⟩ (d + 1) ts)) :
    (group inner close p).Holds
      (fun e q => ∃ w y r n, ts = w ++ y :: r ∧ o.closer? = some y.lexeme ∧ Spells .sum (lexemes w) e n ∧
        d + (n + 1) ≤ maxDepth ∧ q.At d r)
      (Fails ⟨.operand, o :: s⟩ d ts) := by
  obtain ⟨x, us, rfl⟩ := List.exists_cons_of_ne_nil h.readable.ne_nil
  have hdepth : (Place.mk .operand (o :: s)).depth = d + 1 := congrArg (· + 1) hs
  refine nested_holds h (fun hlt => bind_holds ?_) fun hle p' hp => ?_
  · refine (hin hlt _ h.descend).imp ?_ fun err q hf => hf.ascend
    rintro e q ⟨w, r, n, hts, hw, hn, hst, hq⟩
    obtain ⟨y, r, rfl⟩ := List.exists_cons_of_ne_nil hq.readable.ne_nil
    have hw := Spells.lowest_iff.1 hw
    refine bind_holds (expect_holds hq (fun hk p' hp => ?_) fun hk p' hp => ?_)
    · have hy := closer?_eq_of_kind ho hk
      have hfin : y.lexeme ≠ .finish := by
        intro hf
        rw [hf] at hy
        cases o <;> cases hy
      rw [if_neg hfin] at hp
      exact ⟨w, y, r, n, hts, hy, hw, by omega, hp.ascend⟩
    · rw [hts]
      have hrun : Place.run maxDepth ⟨.operand, o :: s⟩ (lexemes w) = some ⟨.operator, settle (o :: s)⟩ :=
        hw.run (.inr (settle_of_closer? ho s)) (by simp only [List.length_cons]; omega)
      rw [settle_of_closer? ho s] at hrun
      refine (Fails.append hrun (Fails.here ?_ hp)).ascend
      obtain ⟨hstep, hblame⟩ := step_eq_none_of_stops (s := s) ho (stops_sum_of_lowest hst) hk
      exact Place.refuses_of_step (by simp only [Place.depth, List.length_cons]; omega) hstep hblame
        fun _ => nofun
  · exact Fails.here (Place.refuses_of_depth (by omega)) (by rwa [ParseError.left_of_not_takes rfl])

/-! ## Primaries -/

theorem fail_holds {cause : ParseError.Cause} {s : List Opening} {p : Parser} {d : Nat} {x : Token} {ts : List Token}
    {Q : Expr → Parser → Prop} (h : p.At d (ParseError.left ⟨cause, x⟩ ts)) (hs : s.length ≤ maxDepth)
    (hstep : Place.step ⟨.operand, s⟩ x.lexeme = none) (hblame : Place.blame ⟨.operand, s⟩ x.lexeme = cause) :
    (fail cause x p).Holds Q (Fails ⟨.operand, s⟩ d (x :: ts)) :=
  Fails.here (Place.refuses_of_step hs hstep hblame fun _ => nofun) h

theorem ofSign?_symbol (op : BinaryFn) : UnaryFn.ofSign? op.symbol = op.sign? := by cases op <;> rfl

section
variable {count : Nat} (ih : ∀ t p d ts s, p.At d ts → s.length = d → d ≤ maxDepth →
  (t = .operand ∨ settle s = s) → 8 * (maxDepth - d) + 8 ≤ count + t.rank →
    (expression count t p).Holds (Reads t d ts) (Fails ⟨.operand, s⟩ d ts))
include ih

theorem enclosed_holds {close : Kind} {o : Opening} {p : Parser} {d : Nat} {ts : List Token} {s : List Opening}
    (h : p.At d ts) (hs : s.length = d) (hd : d ≤ maxDepth) (hcount : 8 * (maxDepth - d) ≤ count)
    (ho : o.closer?.map Lexeme.kind = some close) :
    (group (expression count .lowest) close p).Holds
      (fun e q => ∃ w y r n, ts = w ++ y :: r ∧ o.closer? = some y.lexeme ∧ Spells .sum (lexemes w) e n ∧
        d + (n + 1) ≤ maxDepth ∧ q.At d r)
      (Fails ⟨.operand, o :: s⟩ d ts) :=
  group_holds h hs hd ho fun hlt q hq =>
    ih _ q (d + 1) ts (o :: s) hq (congrArg (· + 1) hs) hlt (.inr (settle_of_closer? ho s))
      (by simp only [Tier.rank]; omega)

theorem sign_holds {x : Token} {op : BinaryFn} {fn : UnaryFn} {p : Parser} {d : Nat} {ts : List Token}
    {s : List Opening} (h : p.At d ts) (hs : s.length = d) (hd : d ≤ maxDepth) (hcount : 8 * (maxDepth - d) ≤ count)
    (hx : x.lexeme = .operator op) (hfn : op.sign? = some fn) :
    (nested (expression count .operand) p).Holds (fun e => Reads .operand d (x :: ts) (.unary op.symbol fn e))
      (Fails ⟨.operand, s⟩ d (x :: ts)) := by
  obtain ⟨y, us, rfl⟩ := List.exists_cons_of_ne_nil h.readable.ne_nil
  have hstep : (Place.mk .operand s).step x.lexeme = some ⟨.operand, .sign :: s⟩ := by simp [Place.step, hx, hfn]
  have hdepth : (Place.mk .operand s).depth ≤ maxDepth := Nat.le_trans (Nat.le_of_eq hs) hd
  refine nested_holds h (fun hlt => ?_) fun hle p' hp => ?_
  · refine (ih _ _ (d + 1) _ (.sign :: s) h.descend (congrArg (· + 1) hs) hlt (.inl rfl)
      (by simp only [Tier.rank]; omega)).imp ?_ fun err q hf => Fails.cons hdepth hstep hf.ascend
    rintro e q ⟨w, r, n, hts, hw, hn, -, hq⟩
    rw [hts]
    exact ⟨x :: w, r, n + 1, rfl, by simpa [hx] using .sign hfn hw, by omega, stops_operand _, hq.ascend⟩
  · refine Fails.cons hdepth hstep (Fails.here (Place.refuses_of_depth ?_) ?_)
    · simp only [Place.depth, List.length_cons]
      omega
    · rwa [ParseError.left_of_not_takes rfl]

theorem primary_holds {p : Parser} {d : Nat} {ts : List Token} {s : List Opening} (h : p.At d ts) (hs : s.length = d)
    (hd : d ≤ maxDepth) (hcount : 8 * (maxDepth - d) ≤ count) :
    (primary (count + 1) p).Holds (Reads .operand d ts) (Fails ⟨.operand, s⟩ d ts) := by
  obtain ⟨x, ts, rfl⟩ := List.exists_cons_of_ne_nil h.readable.ne_nil
  have hdepth : (Place.mk .operand s).depth ≤ maxDepth := Nat.le_trans (Nat.le_of_eq hs) hd
  have hspelled := h.readable.spelled
  unfold primary primaryOf
  refine bind_holds (peek_holds h fun p hp => ?_)
  cases hx : x.lexeme with
  | constant value =>
    refine bind_holds (take_holds hp (by simp [hx]) fun p hp => ?_)
    exact ⟨[x], ts, 0, rfl, by simpa [hx] using .constant value, hd, stops_operand _, hp⟩
  | var =>
    refine bind_holds (take_holds hp (by simp [hx]) fun p hp => ?_)
    have htext : x.text = "t" := hspelled _ (by rw [hx]; rfl)
    exact ⟨[x], ts, 0, rfl, by simpa [hx, htext] using .var, hd, stops_operand _, hp⟩
  | function fn =>
    refine bind_holds (take_holds hp (by simp [hx]) fun p hp => ?_)
    obtain ⟨y, us, rfl⟩ := List.exists_cons_of_ne_nil hp.readable.ne_nil
    have htext : x.text = fn.name := hspelled _ (by rw [hx]; rfl)
    have hstep : (Place.mk .operand s).step x.lexeme = some ⟨.argument, s⟩ := by rw [hx]; rfl
    refine bind_holds (expect_holds hp (fun hk p hp => bind_holds ?_) fun hk p hp => ?_)
    · have hy := lexeme_eq_leftParen hk
      rw [if_neg (by simp [hy])] at hp
      have hstep' : (Place.mk .argument s).step y.lexeme = some ⟨.operand, .group :: s⟩ := by rw [hy]; rfl
      refine (enclosed_holds ih (o := .group) hp hs hd hcount rfl).imp ?_ fun err q hf =>
        Fails.cons hdepth hstep (Fails.cons hdepth hstep' hf)
      rintro e q ⟨w, z, r, n, rfl, hz, hw, hn, hq⟩
      refine ⟨x :: y :: (w ++ [z]), r, n + 1, by simp, ?_, hn, stops_operand _, hq⟩
      simpa [hx, hy, ← Option.some.inj hz, htext] using .call hw
    · refine Fails.cons hdepth hstep (Fails.here ?_ hp)
      exact Place.refuses_of_step hdepth (step_argument_eq_none hk) rfl fun _ => nofun
  | leftParen =>
    refine bind_holds (take_holds hp (by simp [hx]) fun p hp => ?_)
    have hstep : (Place.mk .operand s).step x.lexeme = some ⟨.operand, .group :: s⟩ := by rw [hx]; rfl
    refine (enclosed_holds ih (o := .group) hp hs hd hcount rfl).imp ?_ fun err q hf => Fails.cons hdepth hstep hf
    rintro e q ⟨w, z, r, n, rfl, hz, hw, hn, hq⟩
    refine ⟨x :: (w ++ [z]), r, n + 1, by simp, ?_, hn, stops_operand _, hq⟩
    simpa [hx, ← Option.some.inj hz] using .group hw
  | bar =>
    refine bind_holds (take_holds hp (by simp [hx]) fun p hp => bind_holds ?_)
    have hstep : (Place.mk .operand s).step x.lexeme = some ⟨.operand, .bars :: s⟩ := by rw [hx]; rfl
    refine (enclosed_holds ih (o := .bars) hp hs hd hcount rfl).imp ?_ fun err q hf => Fails.cons hdepth hstep hf
    rintro e q ⟨w, z, r, n, rfl, hz, hw, hn, hq⟩
    refine ⟨x :: (w ++ [z]), r, n + 1, by simp, ?_, hn, stops_operand _, hq⟩
    simpa [hx, ← Option.some.inj hz] using .bars hw
  | operator op =>
    refine bind_holds (take_holds hp (by simp [hx]) fun p hp => ?_)
    have htext : x.text = op.symbol := hspelled _ (by rw [hx]; rfl)
    simp only [htext, ofSign?_symbol]
    cases hfn : op.sign? with
    | none =>
      refine fail_holds ?_ hdepth (by simp [Place.step, hx, hfn]) (by rw [hx]; rfl)
      rwa [ParseError.left_of_takes rfl, if_neg (by simp [hx])]
    | some fn => exact bind_holds (sign_holds ih hp hs hd hcount hx hfn)
  | finish =>
    exact fail_holds (by rwa [ParseError.left_of_not_takes rfl]) hdepth (by rw [hx]; rfl) (by rw [hx]; rfl)
  | rightParen =>
    exact fail_holds (by rwa [ParseError.left_of_not_takes rfl]) hdepth (by rw [hx]; rfl) (by rw [hx]; rfl)
  | unknown =>
    exact fail_holds (by rwa [ParseError.left_of_not_takes rfl]) hdepth (by rw [hx]; rfl) (by rw [hx]; rfl)

end

/-! ## Chains -/

theorem operator?_holds {t : Tier} {p : Parser} {d : Nat} {x : Token} {ts : List Token}
    {Q : Option (String × BinaryFn) → Parser → Prop} {R : ParseError → Parser → Prop} (h : p.At d (x :: ts))
    (hop : ∀ fn p', x.lexeme = .operator fn → fn.tier = t → p'.At d ts → Q (some (fn.symbol, fn)) p')
    (hvar : ∀ p', x.lexeme = .var → t = .product → p'.At d (x :: ts) → Q (some ("*", .mul)) p')
    (hnone : ∀ p', (∀ fn, x.lexeme = .operator fn → fn.tier ≠ t) → ¬ (x.lexeme = .var ∧ t = .product) →
      p'.At d (x :: ts) → Q none p') :
    (operator? t p).Holds Q R := by
  unfold operator?
  refine bind_holds (peek_holds h fun p hp => ?_)
  cases hx : x.lexeme with
  | operator fn =>
    have htext : x.text = fn.symbol := h.readable.spelled _ (by rw [hx]; rfl)
    by_cases hfn : fn.tier = t
    · simp only [hfn, if_true]
      refine bind_holds (take_holds hp (by simp [hx]) fun p hp => ?_)
      rw [htext]
      exact hop fn p hx hfn hp
    · simp only [hfn, if_false]
      exact hnone p (by simpa [hx] using hfn) (by simp [hx]) hp
  | var =>
    by_cases ht : t = .product
    · simp only [ht, if_true]
      exact hvar p hx ht hp
    · simp only [ht, if_false]
      exact hnone p (by simp [hx]) (by simp [ht]) hp
  | _ => exact hnone p (by simp [hx]) (by simp [hx]) hp

section
variable {operand : Reading Expr} {t : Tier} {d : Nat} {s : List Opening}
  (ht : t ≠ .operand) (hs : s.length = d) (hd : d ≤ maxDepth) (hset : settle s = s)
  (hoperand : ∀ p ts, Parser.At p d ts →
    (operand p).Holds (Reads t.next d ts) (Fails ⟨.operand, s⟩ d ts))

theorem stops_of_next {x : Lexeme} {w : List Lexeme} (ht : t ≠ .operand) (hop : ∀ fn, x = .operator fn → fn.tier ≠ t)
    (hvar : ¬ (x = .var ∧ t = .product)) (h : Stops t.next (x :: w)) : Stops t (x :: w) := by
  rw [stops_cons] at h ⊢
  cases hc : x.continues t with
  | false => rfl
  | true =>
    obtain hn | ⟨fn, hx, hfn⟩ | hv := (Lexeme.continues_iff ht).1 hc
    · exact absurd (h.symm.trans hn) (by simp)
    · exact absurd hfn (hop fn hx)
    · exact absurd hv hvar

theorem fails_of_var {x : Token} {ts : List Token} {err : ParseError} {p : Parser} (hs : s.length ≤ maxDepth)
    (hset : settle s = s) (hx : x.lexeme = .var) (h : Fails ⟨.operand, s⟩ d (x :: ts) err p) :
    Fails ⟨.operator, s⟩ d (x :: ts) err p := by
  obtain ⟨w, r, τ, hts, hrun, href, hp⟩ := h
  cases w with
  | nil =>
    obtain ⟨rfl, rfl⟩ := List.cons.inj hts
    cases hrun
    rw [hx] at href
    cases (href.of_depth_le hs).1
  | cons y w =>
    obtain ⟨rfl, rfl⟩ := List.cons.inj hts
    refine ⟨x :: w, r, τ, rfl, ?_, href, hp⟩
    rw [lexemes_cons, hx] at hrun ⊢
    rwa [Place.run_var_cons hset]

theorem readsChain_push {symbol : String} {fn : BinaryFn} {links : Array Expr.Link} {last right e : Expr} {p : Parser}
    {u w r : List Token} {n : Nat} (hw : Spells t.next (lexemes w) right n) (hn : d + n ≤ maxDepth)
    (hlink : ∀ {v m w' e k}, Spells t.next v last m → Spells t (lexemes w ++ w') e k →
      Spells t (v ++ (lexemes u ++ w')) (.binary symbol fn last e) (max m k))
    (h : ReadsChain t d r (links.push ⟨last, symbol, fn⟩) right e p) : ReadsChain t d (u ++ r) links last e p := by
  obtain ⟨w', r', n', e', rfl, rfl, hmore, hn', hst, hp⟩ := h
  refine ⟨u ++ w', r', max n n', .binary symbol fn last e', by simp, Expr.chain_push .., fun v m hv => ?_,
    by omega, hst, hp⟩
  simpa using hlink hv (hmore _ _ hw)

include ht hs hd hset hoperand in
theorem chain_holds : ∀ (count : Nat) (links : Array Expr.Link) (last : Expr) (p : Parser) (ts : List Token),
    p.At d ts → ts.length ≤ count → Stops t.next (lexemes ts) →
      (chain operand t count links last p).Holds (ReadsChain t d ts links last) (Fails ⟨.operator, s⟩ d ts)
  | 0, _, _, p, ts, h, hlen, _ => absurd (List.length_eq_zero_iff.1 (Nat.le_zero.1 hlen)) h.readable.ne_nil
  | count + 1, links, last, p, ts, h, hlen, hst => by
    obtain ⟨x, ts, rfl⟩ := List.exists_cons_of_ne_nil h.readable.ne_nil
    have hdepth : (Place.mk .operator s).depth ≤ maxDepth := Nat.le_trans (Nat.le_of_eq hs) hd
    unfold chain
    refine bind_holds (operator?_holds h ?_ ?_ ?_)
    · intro fn p hx hfn hp
      have hstep : (Place.mk .operator s).step x.lexeme = some ⟨.operand, s⟩ := by rw [hx]; rfl
      refine bind_holds ((hoperand p ts hp).imp ?_ fun err q hf => Fails.cons hdepth hstep hf)
      rintro right q ⟨w, r, n, rfl, hw, hn, hst', hq⟩
      have hrun : Place.run maxDepth ⟨.operator, s⟩ (lexemes (x :: w)) = some ⟨.operator, s⟩ := by
        rw [lexemes_cons, Place.run_cons_of_step hdepth hstep, hw.run (.inr hset) (by omega), hset]
      simp only [List.length_cons, List.length_append] at hlen
      refine (chain_holds count _ right q r hq (by omega) hst').imp ?_ fun err q hf => Fails.append hrun hf
      intro e q hmore
      exact readsChain_push (u := x :: w) hw hn (fun hv he => by simpa [hx] using .operation hfn hv he) hmore
    · -- the variable is not taken here: it starts the right operand
      intro p hx htier hp
      refine bind_holds ((hoperand p _ hp).imp ?_ fun err q hf => fails_of_var (hs ▸ hd) hset hx hf)
      rintro right q ⟨w, r, n, hts, hw, hn, hst', hq⟩
      cases w with
      | nil => exact absurd rfl hw.ne_nil
      | cons y w =>
        have hl := congrArg List.length hts
        simp only [List.cons_append, List.length_cons, List.length_append] at hl hlen
        obtain ⟨rfl, rfl⟩ := List.cons.inj hts
        have hrun : Place.run maxDepth ⟨.operator, s⟩ (lexemes (x :: w)) = some ⟨.operator, s⟩ := by
          rw [lexemes_cons, hx, Place.run_var_cons hset, ← hx, ← lexemes_cons, hw.run (.inr hset) (by omega), hset]
        refine (chain_holds count _ right q r hq (by omega) hst').imp ?_ fun err q hf => Fails.append hrun hf
        intro e q hmore
        exact readsChain_push (u := x :: w) hw hn
          (fun hv he => by rw [lexemes_cons, hx] at he ⊢; exact .implicit htier hv he) hmore
    · intro p hop hvar hp
      refine ⟨[], x :: ts, 0, last, rfl, rfl, fun v m hv => ?_, hd, stops_of_next ht hop hvar hst, hp⟩
      simpa using Spells.single ht hv

end

/-! ## Expressions -/

theorem expression_succ {count : Nat} {t : Tier} (ht : t ≠ .operand) :
    expression (count + 1) t = (do
      let first ← expression count t.next
      chain (expression count t.next) t ((← remaining) + 1) #[] first) := by
  cases t <;> first | rfl | exact absurd rfl ht

theorem links_holds {count : Nat} {t : Tier} {p : Parser} {d : Nat} {ts : List Token} {s : List Opening}
    (ht : t ≠ .operand) (h : p.At d ts) (hs : s.length = d) (hd : d ≤ maxDepth) (hset : settle s = s)
    (ih : ∀ p ts, Parser.At p d ts →
      (expression count t.next p).Holds (Reads t.next d ts) (Fails ⟨.operand, s⟩ d ts)) :
    (expression (count + 1) t p).Holds (Reads t d ts) (Fails ⟨.operand, s⟩ d ts) := by
  rw [expression_succ ht]
  refine bind_holds ((ih p ts h).imp ?_ fun err q hf => hf)
  rintro first q ⟨w, r, n, rfl, hw, hn, hst, hq⟩
  have hlen : r.length ≤ q.stream.remaining + 1 := hq.ahead ▸ q.stream.length_ahead_le
  have hrun : Place.run maxDepth ⟨.operand, s⟩ (lexemes w) = some ⟨.operator, s⟩ := by
    rw [hw.run (.inr hset) (by omega), hset]
  refine bind_holds ((chain_holds ht hs hd hset ih _ #[] first q r hq hlen hst).imp ?_
    fun err q hf => Fails.append hrun hf)
  rintro e q ⟨w', r', n', e', rfl, rfl, hmore, hn', hst', hq⟩
  refine ⟨w ++ w', r', max n n', by simp, ?_, by omega, hst', hq⟩
  simpa [Expr.chain_empty] using hmore _ _ hw

/-- **Descent.** With enough readings left, an expression is read to where nothing goes on with it, or
the first token that cannot stand where it does is refused. -/
theorem expression_holds : ∀ (count : Nat) (t : Tier) (p : Parser) (d : Nat) (ts : List Token) (s : List Opening),
    p.At d ts → s.length = d → d ≤ maxDepth → (t = .operand ∨ settle s = s) →
      8 * (maxDepth - d) + 8 ≤ count + t.rank →
        (expression count t p).Holds (Reads t d ts) (Fails ⟨.operand, s⟩ d ts)
  | 0, t, _, _, _, _, _, _, _, _, hcount => by
    have : t.rank ≤ 6 := by cases t <;> decide
    omega
  | count + 1, t, p, d, ts, s, h, hs, hd, hset, hcount => by
    by_cases ht : t = .operand
    · subst ht
      cases count with
      | zero => simp only [Tier.rank] at hcount; omega
      | succ count =>
        -- a primary goes on one level deeper, with eight readings less
        refine primary_holds (fun t p d ts s h hs hd hset hcount => ?_) h hs hd
          (by simp only [Tier.rank] at hcount; omega)
        exact expression_holds count t p d ts s h hs hd hset hcount
    · have hset := hset.resolve_left ht
      refine links_holds ht h hs hd hset fun p ts h => ?_
      exact expression_holds count t.next p d ts s h hs hd (.inr hset) (by rw [t.rank_next ht]; omega)

end Reading

/-! ## Complete expressions -/

theorem Readable.eq_nil {x : Token} {ts : List Token} (h : Readable (x :: ts)) (hx : x.lexeme = .finish) :
    ts = [] := by
  cases h with
  | finish => rfl
  | cons hne => exact absurd hx hne

theorem step_final_eq_none {x : Token} {w : List Lexeme} (hs : Stops .sum (x.lexeme :: w)) :
    Place.final.step x.lexeme = none := by
  cases hx : x.lexeme with
  | operator fn => exact absurd (hx ▸ hs) (not_stops_sum_operator fn w)
  | var => exact absurd (hx ▸ hs) (not_stops_sum_var w)
  | _ => rfl

theorem Reading.complete_holds {p : Parser} {ts : List Token} (h : p.At 0 ts) :
    (complete p).Holds
      (fun e q => ∃ w x n, ts = w ++ [x] ∧ x.lexeme = .finish ∧ Spells .sum (lexemes w) e n ∧ n ≤ maxDepth ∧
        q.At 0 [x])
      (Fails .start 0 ts) := by
  refine bind_holds ((expression_holds maxReadings .lowest p 0 ts [] h rfl (Nat.zero_le _) (.inr rfl)
    (by simp [maxReadings, Tier.rank]; omega)).imp ?_ fun err q hf => hf)
  rintro e q ⟨w, r, n, rfl, hw, hn, hst, hq⟩
  obtain ⟨x, r, rfl⟩ := List.exists_cons_of_ne_nil hq.readable.ne_nil
  have hw := Spells.lowest_iff.1 hw
  refine bind_holds (expect_holds hq (fun hk q hq' => ?_) fun hk q hq' => ?_)
  · have hx : x.lexeme = .finish := Token.isFinish_iff.1 (by simp [Token.isFinish, hk])
    obtain rfl := hq.readable.eq_nil hx
    rw [if_pos hx] at hq'
    exact ⟨w, x, n, rfl, hx, hw, by omega, hq'⟩
  · have hrun : Place.start.run maxDepth (lexemes w) = some .final := hw.run (.inr rfl) (by simpa using hn)
    refine Fails.append hrun (Fails.here (Place.refuses_of_step (Nat.zero_le _) ?_ rfl ?_) hq')
    · exact step_final_eq_none (stops_sum_of_lowest hst)
    · intro hx
      exact absurd (by simp [Token.kind, hx, Lexeme.kind]) hk

end Calculator
