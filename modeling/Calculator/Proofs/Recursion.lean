import Calculator.Proofs.Calls

/-!
# Chains by recursion

A chain of operations is the left operand, its operator and the chain that
follows. Reading it that way, by recursion on the right, gives what the loop
over operands gives (`expression_eq_recursive`): the same tree or the same
error, and the parser in the same state.
-/

namespace Calculator.Reading

/-- An expression read by recursion on the right: an operand of the next tier, and if an operator of this
tier comes, what is read at this tier again. The number bounds the readings inside one another, and those of
one chain are inside one another as well. -/
def recursive : Nat → Tier → Reading Expr
  | 0, _ => exhausted
  | count + 1, .operand => primaryOf (recursive count)
  | count + 1, tier => do
    let left ← recursive count tier.next
    match ← operator? tier with
    | none => pure left
    | some (symbol, fn) =>
      let right ← recursive count tier
      pure (.binary symbol fn left right)

/-! ## Readings that come to the same -/

/-- With enough readings allowed, the second one comes to whatever the first one comes to. -/
def Refines {α : Type} (r : Reading α) (r' : Nat → Reading α) : Prop :=
  ∀ p, r p ≠ .exhausted → ∃ least, ∀ n, least ≤ n → r' n p = r p

section
variable {α β : Type} {r : Reading α} {r' : Nat → Reading α}

theorem refines_const (r : Reading α) : Refines r fun _ => r := fun _ _ => ⟨0, fun _ _ => rfl⟩

theorem refines_exhausted : Refines exhausted r' := fun _ h => absurd rfl h

theorem Refines.succ (h : Refines r fun n => r' (n + 1)) : Refines r r' := by
  intro p hp
  obtain ⟨least, hleast⟩ := h p hp
  refine ⟨least + 1, fun n hn => ?_⟩
  obtain ⟨m, rfl⟩ := Nat.exists_eq_add_of_le' (Nat.le_of_add_left_le hn)
  exact hleast m (Nat.le_of_add_le_add_right hn)

theorem bind_of_done {f : α → Reading β} {p q : Parser} {a : α} (h : r p = .done a q) : (r >>= f) p = f a q := by
  show Reading.bind r f p = _
  rw [Reading.bind, h]

theorem bind_of_failed {f : α → Reading β} {p q : Parser} {err : ParseError} (h : r p = .failed err q) :
    (r >>= f) p = .failed err q := by
  show Reading.bind r f p = _
  rw [Reading.bind, h]

theorem bind_of_exhausted {f : α → Reading β} {p : Parser} (h : r p = .exhausted) : (r >>= f) p = .exhausted := by
  show Reading.bind r f p = _
  rw [Reading.bind, h]

theorem Refines.bind {f : α → Reading β} {f' : α → Nat → Reading β} (h : Refines r r')
    (hf : ∀ a, Refines (f a) (f' a)) : Refines (r >>= f) fun n => r' n >>= fun a => f' a n := by
  intro p hp
  cases hr : r p with
  | done a q =>
    rw [bind_of_done hr] at hp ⊢
    obtain ⟨n₁, h₁⟩ := h p (by simp [hr])
    obtain ⟨n₂, h₂⟩ := hf a q hp
    refine ⟨max n₁ n₂, fun n hn => ?_⟩
    have hn₁ := h₁ n (Nat.le_trans (Nat.le_max_left ..) hn)
    have hn₂ := h₂ n (Nat.le_trans (Nat.le_max_right ..) hn)
    exact (bind_of_done (hn₁.trans hr)).trans hn₂
  | failed err q =>
    obtain ⟨least, hleast⟩ := h p (by simp [hr])
    rw [bind_of_failed hr]
    exact ⟨least, fun n hn => bind_of_failed ((hleast n hn).trans hr)⟩
  | exhausted => exact absurd (bind_of_exhausted hr) hp

theorem Refines.nested (h : Refines r r') : Refines (nested r) fun n => nested (r' n) := by
  intro p hp
  by_cases hd : p.depth < maxDepth
  · simp only [Reading.nested, if_pos hd] at hp ⊢
    obtain ⟨least, hleast⟩ := h p.descend fun he => hp (by rw [he]; rfl)
    exact ⟨least, fun n hn => by rw [hleast n hn]⟩
  · refine ⟨0, fun n _ => ?_⟩
    simp only [Reading.nested, if_neg hd]

theorem Refines.group {inner : Reading Expr} {inner' : Nat → Reading Expr} (h : Refines inner inner')
    (close : Kind) : Refines (group inner close) fun n => group (inner' n) close :=
  (h.bind fun _ => refines_const _).nested

end

theorem refines_primaryOf {inner : Tier → Reading Expr} {inner' : Nat → Tier → Reading Expr}
    (h : ∀ t, Refines (inner t) fun n => inner' n t) : Refines (primaryOf inner) fun n => primaryOf (inner' n) := by
  unfold primaryOf
  refine (refines_const peek).bind fun token => ?_
  cases token.lexeme with
  | function fn =>
    exact (refines_const _).bind fun _ => (refines_const _).bind fun _ => ((h _).group _).bind fun _ => refines_const _
  | leftParen => exact (refines_const _).bind fun _ => (h _).group _
  | bar => exact (refines_const _).bind fun _ => ((h _).group _).bind fun _ => refines_const _
  | operator op =>
    refine (refines_const _).bind fun _ => ?_
    cases UnaryFn.ofSign? token.text with
    | none => exact refines_const _
    | some fn => exact (h _).nested.bind fun _ => refines_const _
  | _ => exact refines_const _

/-! ## Chains -/

def recursiveRest (count : Nat) (tier : Tier) (left : Expr) : Reading Expr := do
  match ← operator? tier with
  | none => pure left
  | some (symbol, fn) =>
    let right ← recursive count tier
    pure (.binary symbol fn left right)

theorem recursive_succ {count : Nat} {t : Tier} (ht : t ≠ .operand) :
    recursive (count + 1) t = recursive count t.next >>= recursiveRest count t := by
  cases t <;> first | rfl | exact absurd rfl ht

/-- The loop keeps each operand with the operator after it; recursion puts the same nodes around what is read
from there on. -/
theorem refines_chain {operand : Reading Expr} {t : Tier} (ht : t ≠ .operand)
    (h : Refines operand fun n => recursive n t.next) : ∀ (count : Nat) (links : Array Expr.Link) (last : Expr),
      Refines (chain operand t count links last) fun n => Expr.chain links <$> recursiveRest n t last
  | 0, _, _ => refines_exhausted
  | count + 1, links, last => by
    unfold chain recursiveRest
    simp only [map_bind]
    refine (refines_const _).bind fun op? => ?_
    cases op? with
    | none => exact refines_const _
    | some op =>
      obtain ⟨symbol, fn⟩ := op
      simp only [map_bind, map_pure]
      refine Refines.succ ?_
      simp only [recursive_succ ht, bind_assoc]
      refine h.bind fun right => ?_
      have ih := refines_chain ht h count (links.push ⟨last, symbol, fn⟩) right
      simp only [← bind_pure_comp, Expr.chain_push] at ih
      exact ih

theorem refines_expression : ∀ (count : Nat) (t : Tier), Refines (expression count t) fun n => recursive n t
  | 0, _ => refines_exhausted
  | count + 1, t => by
    by_cases ht : t = .operand
    · subst ht
      cases count with
      | zero => exact refines_exhausted
      | succ count => exact (refines_primaryOf (refines_expression count)).succ
    · refine Refines.succ ?_
      simp only [expression_succ ht, recursive_succ ht]
      refine (refines_expression count t.next).bind fun first p hp => ?_
      have hchain := refines_chain ht (refines_expression count t.next) (p.stream.remaining + 1) #[] first p hp
      rwa [show Expr.chain #[] = id from funext Expr.chain_empty, funext fun n => id_map _] at hchain

/-! ## Every reading ends -/

def Reached (d : Nat) (ts : List Token) (p : Parser) : Prop := ∃ r, p.At d r ∧ r <:+ ts

def Advanced (d : Nat) (ts : List Token) (p : Parser) : Prop := ∃ r, p.At d r ∧ r <:+ ts ∧ r.length < ts.length

abbrev Ends {α : Type} (d : Nat) (ts : List Token) (o : Outcome α) : Prop :=
  o.Holds (fun _ => Advanced d ts) fun _ => Reached d ts

section
variable {p : Parser} {d : Nat} {ts us : List Token}

theorem Reached.mono (h : Reached d ts p) (hus : ts <:+ us) : Reached d us p := by
  obtain ⟨r, hp, hr⟩ := h
  exact ⟨r, hp, hr.trans hus⟩

theorem Reached.advanced (h : Reached d ts p) (hus : ts <:+ us) (hlt : ts.length < us.length) : Advanced d us p := by
  obtain ⟨r, hp, hr⟩ := h
  exact ⟨r, hp, hr.trans hus, Nat.lt_of_le_of_lt hr.length_le hlt⟩

theorem Reached.ascend (h : Reached (d + 1) ts p) : Reached d ts p.ascend := by
  obtain ⟨r, hp, hr⟩ := h
  exact ⟨r, hp.ascend, hr⟩

theorem Advanced.reached (h : Advanced d ts p) : Reached d ts p := by
  obtain ⟨r, hp, hr, -⟩ := h
  exact ⟨r, hp, hr⟩

theorem Advanced.mono (h : Advanced d ts p) (hus : ts <:+ us) : Advanced d us p := by
  obtain ⟨r, hp, hr, hlt⟩ := h
  exact ⟨r, hp, hr.trans hus, Nat.lt_of_lt_of_le hlt hus.length_le⟩

theorem Advanced.ascend (h : Advanced (d + 1) ts p) : Advanced d ts p.ascend := by
  obtain ⟨r, hp, hr⟩ := h
  exact ⟨r, hp.ascend, hr⟩

theorem Advanced.expect (h : Advanced d ts p) (kind : Kind) : Ends d ts (expect kind p) := by
  obtain ⟨r, hp, hr, hlt⟩ := h
  obtain ⟨y, r, rfl⟩ := List.exists_cons_of_ne_nil hp.readable.ne_nil
  have hleft : (if y.lexeme = .finish then y :: r else r) <:+ y :: r := by
    split
    · exact List.suffix_refl _
    · exact List.suffix_cons y r
  refine expect_holds hp (fun _ q hq => ⟨_, hq, hleft.trans hr, ?_⟩) fun _ q hq => ?_
  · exact Nat.lt_of_le_of_lt hleft.length_le hlt
  · exact ⟨_, hq, (ParseError.left_suffix _ r).trans hr⟩

theorem group_ends {inner : Reading Expr} {close : Kind} (h : p.At d ts)
    (hin : d < maxDepth → ∀ q, q.At (d + 1) ts → Ends (d + 1) ts (inner q)) : Ends d ts (group inner close p) := by
  obtain ⟨x, us, rfl⟩ := List.exists_cons_of_ne_nil h.readable.ne_nil
  refine nested_holds h (fun hd => bind_holds ?_) fun _ _ hp => ⟨_, hp, List.suffix_refl _⟩
  refine (hin hd _ h.descend).imp (fun e q hq => bind_holds ?_) fun _ _ h => h.ascend
  exact (hq.expect close).imp (fun _ _ h => h.ascend) fun _ _ h => h.ascend

theorem primaryOf_ends {inner : Tier → Reading Expr} (h : p.At d ts)
    (hin : d < maxDepth → ∀ t q us, q.At (d + 1) us → Ends (d + 1) us (inner t q)) :
    Ends d ts (primaryOf inner p) := by
  obtain ⟨x, ts, rfl⟩ := List.exists_cons_of_ne_nil h.readable.ne_nil
  have hsuffix : ts <:+ x :: ts := List.suffix_cons x ts
  unfold primaryOf
  refine bind_holds (peek_holds h fun p hp => ?_)
  cases hx : x.lexeme with
  | constant | var => exact bind_holds (take_holds hp (by simp [hx]) fun p hp => ⟨ts, hp, hsuffix, Nat.lt_succ_self _⟩)
  | function fn =>
    refine bind_holds (take_holds hp (by simp [hx]) fun p hp => ?_)
    obtain ⟨y, us, rfl⟩ := List.exists_cons_of_ne_nil hp.readable.ne_nil
    refine bind_holds (expect_holds hp (fun hk p hp => bind_holds ?_) fun _ p hp => ?_)
    · rw [if_neg (by simp [lexeme_eq_leftParen hk])] at hp
      have hus : us <:+ x :: y :: us := (List.suffix_cons y us).trans hsuffix
      exact (group_ends hp fun hd q => hin hd _ q us).imp (fun _ _ h => h.mono hus) fun _ _ h => h.mono hus
    · exact ⟨_, hp, (ParseError.left_suffix _ us).trans hsuffix⟩
  | leftParen =>
    refine bind_holds (take_holds hp (by simp [hx]) fun p hp => ?_)
    exact (group_ends hp fun hd q => hin hd _ q ts).imp (fun _ _ h => h.mono hsuffix) fun _ _ h => h.mono hsuffix
  | bar =>
    refine bind_holds (take_holds hp (by simp [hx]) fun p hp => bind_holds ?_)
    exact (group_ends hp fun hd q => hin hd _ q ts).imp (fun _ _ h => h.mono hsuffix) fun _ _ h => h.mono hsuffix
  | operator op =>
    refine bind_holds (take_holds hp (by simp [hx]) fun p hp => ?_)
    cases UnaryFn.ofSign? x.text with
    | none => exact ⟨ts, hp, hsuffix⟩
    | some fn =>
      obtain ⟨y, us, rfl⟩ := List.exists_cons_of_ne_nil hp.readable.ne_nil
      refine bind_holds (nested_holds hp (fun hd => ?_) fun _ p hp => ⟨_, hp, hsuffix⟩)
      exact (hin hd .operand _ _ hp.descend).imp (fun _ _ h => h.ascend.mono hsuffix) fun _ _ h => h.ascend.mono hsuffix
  | finish | rightParen | unknown => exact ⟨_, hp, List.suffix_refl _⟩

theorem chain_ends {operand : Reading Expr} {t : Tier} (hop : ∀ q us, q.At d us → Ends d us (operand q)) :
    ∀ (count : Nat) (links : Array Expr.Link) (last : Expr) (p : Parser) (ts : List Token), p.At d ts →
      ts.length ≤ count →
        (chain operand t count links last p).Holds (fun _ => Reached d ts) fun _ => Reached d ts
  | 0, _, _, p, ts, h, hlen => absurd (List.length_eq_zero_iff.1 (Nat.le_zero.1 hlen)) h.readable.ne_nil
  | count + 1, links, last, p, ts, h, hlen => by
    obtain ⟨x, ts, rfl⟩ := List.exists_cons_of_ne_nil h.readable.ne_nil
    -- each round takes an operand and with it a token
    have hround : ∀ q us symbol fn, q.At d us → us <:+ x :: ts →
        ((operand >>= fun right => chain operand t count (links.push ⟨last, symbol, fn⟩) right) q).Holds
          (fun _ => Reached d (x :: ts)) fun _ => Reached d (x :: ts) := by
      intro q us symbol fn hq hus
      have hle := hus.length_le
      refine bind_holds ((hop q us hq).imp ?_ fun _ _ h => h.mono hus)
      rintro right q ⟨r, hq, hr, hlt⟩
      have hsuffix := hr.trans hus
      exact (chain_ends hop count _ right q r hq (by omega)).imp (fun _ _ h => h.mono hsuffix)
        fun _ _ h => h.mono hsuffix
    unfold chain
    refine bind_holds (operator?_holds h ?_ ?_ ?_)
    · exact fun fn q _ _ hq => hround q ts _ _ hq (List.suffix_cons x ts)
    · exact fun q _ _ hq => hround q _ _ _ hq (List.suffix_refl _)
    · exact fun q _ _ hq => ⟨_, hq, List.suffix_refl _⟩

theorem links_ends {count : Nat} {t : Tier} (ht : t ≠ .operand) {R : Parser → Prop} (hR : ∀ q, Advanced d ts q → R q)
    (hoperand : ∀ q us, q.At d us → Ends d us (expression count t.next q))
    (hfirst : (expression count t.next p).Holds (fun _ => Advanced d ts) fun _ => R) :
    (expression (count + 1) t p).Holds (fun _ => Advanced d ts) fun _ => R := by
  rw [expression_succ ht]
  refine bind_holds (hfirst.imp ?_ fun _ _ h => h)
  rintro first q ⟨r, hq, hr, hlt⟩
  have hlen : r.length ≤ q.stream.remaining + 1 := hq.ahead ▸ q.stream.length_ahead_le
  exact bind_holds ((chain_ends hoperand _ #[] first q r hq hlen).imp (fun _ _ h => h.advanced hr hlt)
    fun _ q h => hR q (h.advanced hr hlt))

end

/-- With so many readings left, an expression ends at every depth. -/
theorem expression_ends : ∀ (count : Nat) (t : Tier) (p : Parser) (d : Nat) (ts : List Token), p.At d ts →
    8 * (maxDepth - d) + 8 ≤ count + t.rank → Ends d ts (expression count t p)
  | 0, t, _, _, _, _, hcount => by
    have : t.rank ≤ 6 := by cases t <;> decide
    omega
  | count + 1, t, p, d, ts, h, hcount => by
    by_cases ht : t = .operand
    · subst ht
      cases count with
      | zero => simp only [Tier.rank] at hcount; omega
      | succ count =>
        refine primaryOf_ends h fun hd t q us hq => ?_
        exact expression_ends count t q (d + 1) us hq (by simp only [Tier.rank] at hcount; omega)
    · have ih : ∀ q us, q.At d us → Ends d us (expression count t.next q) := fun q us hq =>
        expression_ends count t.next q d us hq (by rw [t.rank_next ht]; omega)
      exact links_ends ht (fun _ h => h.reached) ih (ih p ts h)

end Calculator.Reading

namespace Calculator

open Reading

theorem Outcome.Holds.ne_exhausted {α : Type} {Q : α → Parser → Prop} {R : ParseError → Parser → Prop} {o : Outcome α}
    (h : o.Holds Q R) : o ≠ .exhausted := by
  rintro rfl
  exact h

theorem Readable.drop {ts : List Token} (h : Readable ts) {i : Nat} (hi : i < ts.length) : Readable (ts.drop i) := by
  induction h generalizing i with
  | finish hx =>
    obtain rfl : i = 0 := Nat.lt_one_iff.1 hi
    exact .finish hx
  | cons hx hs h ih =>
    cases i with
    | zero => exact .cons hx hs h
    | succ i => exact ih (Nat.lt_of_succ_lt_succ hi)

theorem TokenStream.Follows.at {s : TokenStream} {ts : List Token} (h : s.Follows ts) (hts : Readable ts) (depth : Nat) :
    (Parser.mk s depth).At depth (ts.drop s.current) :=
  ⟨rfl, congrArg (List.drop s.current) h.all_eq, hts.drop h.current_lt⟩

/-- Wherever a parser stands in a text, at every depth and tier, an expression is read as recursion on the right
reads it: with the same tree or the same error, and with the same parser after it. -/
theorem expression_eq_recursive (text : String) (calls : List TokenStream.Call) (depth count : Nat) (t : Tier)
    (h : 8 * (maxDepth - depth) + 8 ≤ count + t.rank) :
    expression count t ⟨(TokenStream.ofString text).after calls, depth⟩ ≠ .exhausted ∧
      ∃ least, ∀ n, least ≤ n → recursive n t ⟨(TokenStream.ofString text).after calls, depth⟩ =
        expression count t ⟨(TokenStream.ofString text).after calls, depth⟩ := by
  have hts := readable_tokens_ofString text
  have hat := ((TokenStream.follows_ofString text).after hts calls).at hts depth
  have hends := (expression_ends count t _ depth _ hat h).ne_exhausted
  exact ⟨hends, refines_expression count t _ hends⟩

/-- In `(1-2t-|t|)` after its parenthesis, with all tokens scanned before. -/
theorem expression_eq_recursive_in_group :
    8 * (maxDepth - 1) + 8 ≤ 1023 + Tier.difference.rank ∧
      expression 1023 .difference ⟨(TokenStream.ofString "(1-2t-|t|)").after [.peekNth 9, .pop], 1⟩ ≠ .exhausted ∧
        ∃ least, ∀ n, least ≤ n →
          recursive n .difference ⟨(TokenStream.ofString "(1-2t-|t|)").after [.peekNth 9, .pop], 1⟩ =
            expression 1023 .difference ⟨(TokenStream.ofString "(1-2t-|t|)").after [.peekNth 9, .pop], 1⟩ :=
  ⟨by decide, expression_eq_recursive "(1-2t-|t|)" [.peekNth 9, .pop] 1 1023 .difference (by decide)⟩

end Calculator
