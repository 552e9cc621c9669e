import Calculator.Proofs.Entry
import Calculator.Proofs.Segmentation

/-!
# The nesting limit

A text nests too deeply exactly if its first tokens up to some token could
start an expression and that token opens one construct more than is allowed;
the error has the token after the first such one (`nesting_limit_exact`).
All kinds of constructs count the same (`openers_nest`), and a chain of
operations opens none of its own, however long it is (`Chained.run`).
-/

namespace Calculator

/-- An expression starts with these lexemes, and the last one opens a construct more than is allowed. -/
def Overfull (w : List Lexeme) : Prop :=
  Viable w ∧ ∃ v x p o, w = v ++ [x] ∧ Place.start.steps v = some p ∧ p.depth = maxDepth ∧
    p.step x = some ⟨.operand, o :: p.opened⟩

def FirstOverfull (w : List Lexeme) (k : Nat) : Prop :=
  Overfull (w.take k) ∧ ∀ j < k, ¬ Overfull (w.take j)

section
variable {u v w : List Lexeme} {q : Place}

theorem Overfull.deep (h : Overfull w) : ∃ q, Place.start.steps w = some q ∧ maxDepth < q.depth := by
  obtain ⟨-, v, x, p, o, rfl, hv, hd, hx⟩ := h
  refine ⟨_, (Place.steps_concat_of_eq hv).trans hx, ?_⟩
  rw [← hd]
  exact Nat.lt_succ_self _

theorem overfull_of_run (h : Place.start.run maxDepth w = some q) (hd : maxDepth < q.depth) : Overfull w := by
  refine ⟨viable_iff.2 ⟨q, Place.steps_of_run h⟩, ?_⟩
  rcases List.eq_nil_or_concat w with rfl | ⟨v, x, rfl⟩
  · cases h
    exact absurd hd (Nat.not_lt_zero _)
  · rw [List.concat_eq_append] at h ⊢
    obtain ⟨p, hv, hx⟩ := Place.run_of_append h
    obtain ⟨hp, m, hstep, hm⟩ := Place.step_of_run_cons hx
    cases hm
    have hle := Place.depth_step_le hstep
    rcases Place.opened_of_step hstep with ⟨o, rfl⟩ | hsuffix
    · exact ⟨v, x, p, o, rfl, Place.steps_of_run hv, by omega, hstep⟩
    · have hlen : q.depth ≤ p.depth := hsuffix.length_le
      omega

theorem not_overfull_of_run (h : Place.start.run maxDepth (u ++ v) = some q) (hv : v ≠ []) : ¬ Overfull u := by
  intro hu
  obtain ⟨m, hm, hr⟩ := Place.run_of_append h
  obtain ⟨x, v, rfl⟩ := List.exists_cons_of_ne_nil hv
  obtain ⟨hle, -⟩ := Place.step_of_run_cons hr
  obtain ⟨p, hp, hdeep⟩ := hu.deep
  obtain rfl := Option.some.inj ((Place.steps_of_run hm).symm.trans hp)
  exact Nat.not_lt.2 hle hdeep

/-- The shortest start is the one that is read until a place is too deep. -/
theorem firstOverfull_iff {k : Nat} : FirstOverfull w k ↔
    ∃ v r q, w = v ++ r ∧ v.length = k ∧ Place.start.run maxDepth v = some q ∧ maxDepth < q.depth := by
  constructor
  · rintro ⟨hk, hmin⟩
    have hlen : (w.take k).length = k := by
      rw [List.length_take]
      apply Nat.min_eq_left
      apply Nat.le_of_not_lt
      intro hlt
      apply hmin w.length hlt
      rwa [List.take_of_length_le (Nat.le_refl _), ← List.take_of_length_le (Nat.le_of_lt hlt)]
    obtain ⟨q, hq, hdeep⟩ := hk.deep
    rcases Place.run_or_deep hq with hrun | ⟨v, x, u, m, hv, hrun, hm⟩
    · exact ⟨w.take k, w.drop k, q, (List.take_append_drop k w).symm, hlen, hrun, hdeep⟩
    · -- a place before was too deep, and with it a shorter start
      exfalso
      have hlt : v.length < k := by
        rw [← hlen, hv, List.length_append, List.length_cons]
        omega
      apply hmin v.length hlt
      have htake : w.take v.length = v := by
        rw [← Nat.min_eq_left (Nat.le_of_lt hlt), ← List.take_take, hv, List.take_left]
      rw [htake]
      exact overfull_of_run hrun hm
  · rintro ⟨v, r, q, rfl, rfl, hrun, hdeep⟩
    refine ⟨?_, fun j hj => ?_⟩
    · rw [List.take_left]
      exact overfull_of_run hrun hdeep
    · rw [List.take_append_of_le_length (Nat.le_of_lt hj)]
      rw [← List.take_append_drop j v] at hrun
      apply not_overfull_of_run hrun
      simpa using hj

end

/-! ## Mixtures of constructs -/

def Opening.opener : Opening → Lexeme
  | group => .leftParen
  | bars => .bar
  | sign => .operator .sub

theorem Place.run_openers {limit : Nat} : ∀ {os s : List Opening}, s.length + os.length ≤ limit + 1 →
    Place.run limit ⟨.operand, s⟩ (os.map Opening.opener) = some ⟨.operand, os.reverse ++ s⟩
  | [], s, _ => rfl
  | o :: os, s, h => by
    have hstep : Place.step ⟨.operand, s⟩ o.opener = some ⟨.operand, o :: s⟩ := by cases o <;> rfl
    rw [List.length_cons] at h
    rw [List.map_cons, Place.run_cons_of_step (by simp only [Place.depth]; omega) hstep,
      Place.run_openers (by simp only [List.length_cons]; omega)]
    simp

/-- Constructs of all kinds count the same: as many as are allowed can stand inside one another in any order, and
with more of them the first one too many is overfull. -/
theorem openers_nest (os : List Opening) :
    (os.length ≤ maxDepth → ∃ e n, n ≤ maxDepth ∧
      Spells .sum (os.map Opening.opener ++ .var :: closers os.reverse) e n) ∧
    (maxDepth < os.length → FirstOverfull (os.map Opening.opener) (maxDepth + 1)) := by
  constructor
  · intro hlen
    have hopen : Place.start.run maxDepth (os.map Opening.opener) = some ⟨.operand, os.reverse ++ []⟩ :=
      Place.run_openers (by rw [List.length_nil]; omega)
    have hdepth : os.reverse.length ≤ maxDepth := by rwa [List.length_reverse]
    apply run_start_iff.1
    rw [Place.run_append_of_eq hopen, List.append_nil, Place.run_cons_of_step hdepth rfl]
    exact Place.run_closers hdepth
  · intro hlen
    have htake : (os.take (maxDepth + 1)).length = maxDepth + 1 := by
      rw [List.length_take]
      exact Nat.min_eq_left hlen
    refine firstOverfull_iff.2 ⟨(os.take (maxDepth + 1)).map Opening.opener, (os.drop (maxDepth + 1)).map Opening.opener,
      ⟨.operand, (os.take (maxDepth + 1)).reverse ++ []⟩, ?_, ?_, Place.run_openers ?_, ?_⟩
    · rw [← List.map_append, List.take_append_drop]
    · rw [List.length_map, htake]
    · rw [List.length_nil, htake]
      omega
    · rw [Place.depth, List.append_nil, List.length_reverse, htake]
      exact Nat.lt_succ_self _

/-! ## Chains -/

/-- Operands that nest so deep at most, with an operator between any two of them or a variable right after one. -/
inductive Chained (n : Nat) : List Lexeme → Prop
  | operand {v : List Lexeme} {e : Expr} {m : Nat} : Spells .operand v e m → m ≤ n → Chained n v
  | operator {v w : List Lexeme} {e : Expr} {m : Nat} (fn : BinaryFn) :
      Spells .operand v e m → m ≤ n → Chained n w → Chained n (v ++ .operator fn :: w)
  | factor {v w : List Lexeme} {e : Expr} {m : Nat} :
      Spells .operand v e m → m ≤ n → Chained n (.var :: w) → Chained n (v ++ .var :: w)

/-- Between two operands of a chain no more is open than before it. -/
theorem Chained.run {n : Nat} {w : List Lexeme} (h : Chained n w) {limit : Nat} :
    ∀ {s : List Opening}, s.length + n ≤ limit → Place.run limit ⟨.operand, s⟩ w = some ⟨.operator, settle s⟩ := by
  induction h with
  | operand hv =>
    intro s hd
    exact hv.run (.inl rfl) (by omega)
  | operator fn hv _ _ ih =>
    intro s hd
    have hs := length_settle_le s
    have hstep : Place.step ⟨.operator, settle s⟩ (.operator fn) = some ⟨.operand, settle s⟩ := rfl
    rw [Place.run_append_of_eq (hv.run (.inl rfl) (by omega)),
      Place.run_cons_of_step (by simp only [Place.depth]; omega) hstep, ih (by omega), settle_settle]
  | factor hv _ _ ih =>
    intro s hd
    have hs := length_settle_le s
    rw [Place.run_append_of_eq (hv.run (.inl rfl) (by omega)), Place.run_var_cons (settle_settle s), ih (by omega),
      settle_settle]

theorem Chained.not_overfull {n : Nat} {s : List Opening} {u v w : List Lexeme} (h : Chained n (v ++ w))
    (hu : Place.start.steps u = some ⟨.operand, s⟩) (hd : s.length + n ≤ maxDepth) : ¬ Overfull (u ++ v) := by
  intro hover
  obtain ⟨q, hq, hdeep⟩ := hover.deep
  obtain ⟨m, hm, hr⟩ := Place.run_of_append (h.run hd)
  have hsteps := Place.steps_of_run hm
  rw [← Place.steps_append_of_eq hu, hq] at hsteps
  obtain rfl := Option.some.inj hsteps
  apply Nat.not_lt.2 _ hdeep
  cases w with
  | nil =>
    cases hr
    have hle := length_settle_le s
    simp only [Place.depth]
    omega
  | cons x w => exact (Place.step_of_run_cons hr).1

/-! ## Texts -/

theorem ParseError.cause_eq_tooDeep {err : ParseError} (h : err.message = "expression nested too deeply") :
    err.cause = .tooDeep := by
  obtain ⟨cause, token⟩ := err
  have hfirst := congrArg (·.toList.head?) h
  cases cause with
  | tooDeep => rfl
  | _ => simp [message, String.toList_append] at hfirst

theorem Place.blame_ne_tooDeep (p : Place) (x : Lexeme) : p.blame x ≠ .tooDeep := by
  obtain ⟨slot, s⟩ := p
  cases slot with
  | operand => cases x <;> nofun
  | argument => nofun
  | operator =>
    cases s with
    | nil => nofun
    | cons o s => cases o <;> nofun

theorem Place.Refuses.lt_depth {p : Place} {x : Lexeme} (h : p.Refuses x .tooDeep) : maxDepth < p.depth := by
  apply Nat.lt_of_not_le
  intro hd
  exact p.blame_ne_tooDeep x (h.of_depth_le hd).2.1.symm

/-- **The nesting limit.** In every parse, wherever the reading of an expression or a primary is entered, the depth is
the number of constructs that the tokens before have left open and no more than allowed. A new parser fails for its
depth exactly if some of the first tokens of the text are a start of an expression that ends with the token opening
one construct too many; the error then has the token after the first of these. No operator between operands is one. -/
theorem nesting_limit_exact (text : String) :
    (∀ n, open Classical in
      Reading.completeIf (Counted (Parser.used text n).stream.ahead) (Parser.used text n) =
        Reading.complete (Parser.used text n) ∧ Reading.complete (Parser.used text n) ≠ .exhausted) ∧
    (∀ k, FirstOverfull (lexemes (tokenize text)) k → ∃ err, parse text = .error err ∧
      err.message = "expression nested too deeply" ∧
        (tokenize text ++ [⟨.finish, "", text.utf8ByteSize⟩])[k]? = some err.token) ∧
    (∀ err, parse text = .error err → err.message = "expression nested too deeply" →
      ∃ k, FirstOverfull (lexemes (tokenize text)) k ∧
        (tokenize text ++ [⟨.finish, "", text.utf8ByteSize⟩])[k]? = some err.token) ∧
    ∀ u w r s n, lexemes (tokenize text) = u ++ w ++ r → Place.start.steps u = some ⟨.operand, s⟩ → Chained n w →
      s.length + n ≤ maxDepth →
        ∀ k, Overfull ((lexemes (tokenize text)).take k) → k < u.length ∨ (u ++ w).length < k := by
  refine ⟨fun n => ?_, fun k hk => ?_, fun err h hmessage => ?_, fun u w r s n hw hu hchain hd k hk => ?_⟩
  · have hat := (Parser.used_at text n).1
    exact ⟨Reading.completeIf_counted hat, (Reading.complete_holds hat).ne_exhausted⟩
  · obtain ⟨v, r, q, hv, rfl, hrun, hdeep⟩ := firstOverfull_iff.1 hk
    obtain ⟨us, ts, hsplit, rfl, -⟩ := List.map_eq_append_iff.1 hv
    obtain ⟨x, rest, hx⟩ := List.exists_cons_of_ne_nil (l := ts ++ [⟨.finish, "", text.utf8ByteSize⟩]) (by simp)
    have htokens : (Cursor.ofString text).tokens = us ++ x :: rest := by
      rw [tokens_eq_tokenize, hsplit, List.append_assoc, hx]
    refine ⟨⟨.tooDeep, x⟩, ?_, rfl, ?_⟩
    · exact parse_eq_error_iff.2 ⟨us, rest, q, htokens, hrun, Place.refuses_of_depth hdeep⟩
    · rw [← tokens_eq_tokenize, htokens]
      simp
  · have hcause := ParseError.cause_eq_tooDeep hmessage
    obtain ⟨w, q, hrun, hrefuses, hw⟩ := (parse_eq_error_iff.1 h).split
    rw [hcause] at hrefuses
    obtain ⟨r, hw⟩ | ⟨hw, -, htokens⟩ := hw
    · refine ⟨w.length, firstOverfull_iff.2 ⟨lexemes w, lexemes (err.token :: r), q, ?_, length_lexemes w, hrun,
        hrefuses.lt_depth⟩, ?_⟩
      · rw [hw, lexemes_append]
      · simp [hw]
    · refine ⟨w.length, firstOverfull_iff.2 ⟨lexemes w, [], q, ?_, length_lexemes w, hrun, hrefuses.lt_depth⟩, ?_⟩
      · rw [hw, List.append_nil]
      · rw [← tokens_eq_tokenize, htokens]
        simp
  · by_cases hlt : k < u.length
    · exact .inl hlt
    · right
      apply Nat.lt_of_not_le
      intro hle
      rw [List.length_append] at hle
      have htake : (lexemes (tokenize text)).take k = u ++ w.take (k - u.length) := by
        rw [hw, List.append_assoc, List.take_append, List.take_of_length_le (Nat.le_of_not_lt hlt),
          List.take_append_of_le_length (by omega)]
      rw [htake] at hk
      rw [← List.take_append_drop (k - u.length) w] at hchain
      exact hchain.not_overfull hu hd hk

end Calculator
