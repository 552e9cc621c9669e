import Calculator.Proofs.Entry

/-!
# The budget of a parse

A reading that succeeds has taken a token, and so has every round of a chain,
whatever comes of it. How many readings are open inside one another is bounded
by the nesting limit alone: to count them each reading is told how many are
open around it (`Reading.expressionWithin`), and no parse of any text opens
more than `maxReadings` (`parse_within_budget`). A text that starts with as
many parentheses as are allowed does open so many
(`Reading.completeWithin_eq_exhausted`).
-/

namespace Calculator

def Parser.Advances (p q : Parser) : Prop := ∃ w, w ≠ [] ∧ p.stream.ahead = w ++ q.stream.ahead

theorem Parser.At.advances {p q : Parser} {d : Nat} {ts : List Token} (h : p.At d ts) (hq : Reading.Advanced d ts q) :
    p.Advances q := by
  obtain ⟨r, hq, ⟨w, rfl⟩, hlt⟩ := hq
  refine ⟨w, ?_, by rw [h.ahead, hq.ahead]⟩
  rintro rfl
  exact Nat.lt_irrefl _ hlt

theorem Outcome.Holds.exists_done {α : Type} {Q : α → Parser → Prop} {o : Outcome α}
    (h : o.Holds Q fun _ _ => False) : ∃ a q, o = .done a q ∧ Q a q := by
  cases o with
  | done a q => exact ⟨a, q, rfl, h⟩
  | failed err q => exact h.elim
  | exhausted => exact h.elim

namespace Reading

/-! ## Rounds of a chain -/

def link (operand : Reading Expr) (tier : Tier) : Reading (Option (String × BinaryFn × Expr)) := do
  match ← operator? tier with
  | none => pure none
  | some (symbol, fn) =>
    let right ← operand
    pure (some (symbol, fn, right))

theorem chain_succ (operand : Reading Expr) (t : Tier) (count : Nat) (links : Array Expr.Link) (last : Expr) :
    chain operand t (count + 1) links last = (do
      match ← link operand t with
      | none => pure (Expr.chain links last)
      | some (symbol, fn, right) => chain operand t count (links.push ⟨last, symbol, fn⟩) right) := by
  rw [chain, link, bind_assoc]
  congr 1
  funext op?
  cases op? with
  | none => simp
  | some op => simp

section
variable {p : Parser} {d : Nat} {x : Token} {ts : List Token}

theorem expression_of_var : ∀ {count : Nat} {t : Tier}, p.At d (x :: ts) → x.lexeme = .var →
    8 * (maxDepth - d) + 8 ≤ count + t.rank →
      (expression count t p).Holds (fun _ => Advanced d (x :: ts)) fun _ => Advanced d (x :: ts)
  | 0, t, _, _, hcount => by
    have : t.rank ≤ 6 := by cases t <;> decide
    omega
  | count + 1, t, h, hx, hcount => by
    by_cases ht : t = .operand
    · subst ht
      cases count with
      | zero => simp only [Tier.rank] at hcount; omega
      | succ count =>
        show (primaryOf (expression count) p).Holds _ _
        refine bind_holds (peek_holds h fun p hp => ?_)
        rw [hx]
        refine bind_holds (take_holds hp (by simp [hx]) fun p hp => ?_)
        exact ⟨ts, hp, List.suffix_cons x ts, Nat.lt_succ_self _⟩
    · have hnext : 8 * (maxDepth - d) + 8 ≤ count + t.next.rank := by rw [t.rank_next ht]; omega
      exact links_ends ht (fun _ h => h) (fun q us hq => expression_ends count t.next q d us hq hnext)
        (expression_of_var h hx hnext)

/-- A round takes a token unless it finds no operator. -/
theorem link_ends (h : p.At d ts) {count : Nat} {t : Tier} (hcount : 8 * (maxDepth - d) + 8 ≤ count + t.next.rank) :
    (link (expression count t.next) t p).Holds
      (fun next? q => if next?.isSome then Advanced d ts q else q.stream.ahead = ts) fun _ => Advanced d ts := by
  obtain ⟨x, ts, rfl⟩ := List.exists_cons_of_ne_nil h.readable.ne_nil
  unfold link
  refine bind_holds (operator?_holds h ?_ ?_ ?_)
  · intro fn q _ _ hq
    have htake : ∀ q, Reached d ts q → Advanced d (x :: ts) q := fun q h =>
      h.advanced (List.suffix_cons x ts) (Nat.lt_succ_self _)
    exact bind_holds ((expression_ends count t.next q d ts hq hcount).imp (fun _ q h => htake q h.reached)
      fun _ => htake)
  · intro q hx _ hq
    -- the operator is not written, so it is the operand that takes the variable
    exact bind_holds (expression_of_var hq hx hcount)
  · exact fun q _ _ hq => hq.ahead

end

/-! ## Any number of readings -/

section
variable {α : Type} {r r' : Reading α} {s : Nat → Reading α} {p : Parser}

theorem Refines.agree (h : Refines r s) (h' : Refines r' s) (hp : r p ≠ .exhausted) (hp' : r' p ≠ .exhausted) :
    r p = r' p := by
  obtain ⟨least, hleast⟩ := h p hp
  obtain ⟨least', hleast'⟩ := h' p hp'
  rw [← hleast _ (Nat.le_max_left least least'), ← hleast' _ (Nat.le_max_right least least')]

theorem refines_link (count : Nat) (t : Tier) :
    Refines (link (expression count t.next) t) fun n => link (recursive n t.next) t := by
  refine (refines_const _).bind fun op? => ?_
  cases op? with
  | none => exact refines_const _
  | some op => exact (refines_expression count t.next).bind fun _ => refines_const _

variable {d : Nat} {ts : List Token}

theorem le_maxReadings (d : Nat) (t : Tier) : 8 * (maxDepth - d) + 8 ≤ maxReadings + t.rank := by
  unfold maxReadings
  omega

theorem expression_eq_maxReadings {count : Nat} {t : Tier} (h : p.At d ts) (hp : expression count t p ≠ .exhausted) :
    expression count t p = expression maxReadings t p := by
  have hends := expression_ends maxReadings t p d ts h (le_maxReadings d t)
  exact (refines_expression count t).agree (refines_expression maxReadings t) hp hends.ne_exhausted

theorem link_eq_maxReadings {count : Nat} {t : Tier} (h : p.At d ts)
    (hp : link (expression count t.next) t p ≠ .exhausted) :
    link (expression count t.next) t p = link (expression maxReadings t.next) t p := by
  have hends := link_ends h (le_maxReadings d t.next)
  exact (refines_link count t).agree (refines_link maxReadings t) hp hends.ne_exhausted

end

/-! ## Readings that are open -/

mutual

/-- An expression, read while `opened` readings are open around it. To enter one more than the limit runs out. -/
def expressionWithin (limit : Nat) : Nat → Nat → Tier → Reading Expr
  | 0, _, _ => exhausted
  | count + 1, opened, .operand => if opened < limit then primaryWithin limit count (opened + 1) else exhausted
  | count + 1, opened, tier =>
    if opened < limit then do
      let first ← expressionWithin limit count (opened + 1) tier.next
      chain (expressionWithin limit count (opened + 1) tier.next) tier ((← remaining) + 1) #[] first
    else exhausted

def primaryWithin (limit : Nat) : Nat → Nat → Reading Expr
  | 0, _ => exhausted
  | count + 1, opened =>
    if opened < limit then primaryOf (expressionWithin limit count (opened + 1)) else exhausted

end

def completeWithin (limit count : Nat) : Reading Expr := do
  let e ← expressionWithin limit count 0 .lowest
  let _ ← expect .finish
  pure e

theorem expressionWithin_succ {limit count opened : Nat} {t : Tier} (ht : t ≠ .operand) :
    expressionWithin limit (count + 1) opened t = if opened < limit then (do
      let first ← expressionWithin limit count (opened + 1) t.next
      chain (expressionWithin limit count (opened + 1) t.next) t ((← remaining) + 1) #[] first) else exhausted := by
  cases t <;> first | rfl | exact absurd rfl ht

theorem min_succ_sub {limit count opened : Nat} (h : opened < limit) :
    min (count + 1) (limit - opened) = min count (limit - (opened + 1)) + 1 := by omega

/-- What is left below the limit bounds the readings inside one another as their number itself does. -/
theorem expressionWithin_eq (limit : Nat) : ∀ (count opened : Nat) (t : Tier),
    expressionWithin limit count opened t = expression (min count (limit - opened)) t
  | 0, opened, t => by rw [Nat.zero_min]; rfl
  | count + 1, opened, t => by
    by_cases hopened : opened < limit
    · rw [min_succ_sub hopened]
      by_cases ht : t = .operand
      · subst ht
        cases count with
        | zero => simp [expressionWithin, primaryWithin, expression, primary]
        | succ count =>
          rw [expressionWithin, if_pos hopened, primaryWithin, expression]
          by_cases hlast : opened + 1 < limit
          · rw [if_pos hlast, min_succ_sub hlast, primary]
            congr 1
            funext t
            exact expressionWithin_eq limit count (opened + 2) t
          · rw [if_neg hlast, Nat.sub_eq_zero_of_le (Nat.le_of_not_lt hlast), Nat.min_zero]
            rfl
      · rw [expressionWithin_succ ht, if_pos hopened, expression_succ ht, expressionWithin_eq limit count]
    · have hzero : limit - opened = 0 := Nat.sub_eq_zero_of_le (Nat.le_of_not_lt hopened)
      rw [hzero, Nat.min_zero]
      cases t <;> simp [expressionWithin, expression, hopened]

theorem expressionWithin_eq_of_le {limit count d : Nat} {t : Tier} {p : Parser} {ts : List Token} (h : p.At d ts)
    (hlimit : maxReadings ≤ limit) (hcount : maxReadings ≤ count) :
    expressionWithin limit count 0 t p = expression maxReadings t p := by
  have hmin : 8 * (maxDepth - d) + 8 ≤ min count limit + t.rank :=
    Nat.le_trans (le_maxReadings d t) (Nat.add_le_add_right (Nat.le_min.2 ⟨hcount, hlimit⟩) _)
  have hends := expression_ends (min count limit) t p d ts h hmin
  rw [expressionWithin_eq]
  exact expression_eq_maxReadings h hends.ne_exhausted

/-! ## Parentheses only -/

theorem primaryOf_of_leftParen {p : Parser} {d : Nat} {x : Token} {ts : List Token} (h : p.At d (x :: ts))
    (hx : x.lexeme = .leftParen) (inner : Tier → Reading Expr) :
    ∃ q, q.At d ts ∧ primaryOf inner p = group (inner .lowest) .rightParen q := by
  obtain ⟨y, q, hpeek, rfl, hq⟩ := Outcome.Holds.exists_done (peek_holds (Q := fun y q => y = x ∧ q.At d (x :: ts))
    h fun q hq => ⟨rfl, hq⟩)
  obtain ⟨z, q', hpop, hq'⟩ := Outcome.Holds.exists_done (take_holds (Q := fun _ q => q.At d ts) hq (by simp [hx])
    fun q hq => hq)
  refine ⟨q', hq', ?_⟩
  rw [primaryOf, bind_of_done hpeek, hx]
  exact bind_of_done hpop

/-- Eight readings for each parenthesis and eight for what is inside are needed. -/
theorem expression_of_parens : ∀ {count k d : Nat} {t : Tier} {p : Parser} {w us : List Token}, p.At d (w ++ us) →
    lexemes w = List.replicate k .leftParen → d + k ≤ maxDepth → count + t.rank < 8 * (k + 1) →
      expression count t p = .exhausted
  | 0, _, _, _, _, _, _, _, _, _, _ => rfl
  | count + 1, k, d, t, p, w, us, h, hw, hd, hcount => by
    by_cases ht : t = .operand
    · subst ht
      cases count with
      | zero => rfl
      | succ count =>
        simp only [Tier.rank] at hcount
        obtain ⟨k, rfl⟩ := Nat.exists_eq_add_one.2 (show 0 < k by omega)
        rw [List.replicate_succ, lexemes, List.map_eq_cons_iff] at hw
        obtain ⟨x, w, rfl, hx, hw⟩ := hw
        obtain ⟨q, hq, hprimary⟩ := primaryOf_of_leftParen h hx (expression count)
        have hinner : expression count .lowest q.descend = .exhausted :=
          expression_of_parens hq.descend hw (by omega) (by simp only [Tier.rank]; omega)
        have hdepth : q.depth < maxDepth := by rw [hq.depth]; omega
        rw [expression, primary, hprimary, group, nested, if_pos hdepth, bind_of_exhausted hinner]
        rfl
    · rw [expression_succ ht]
      exact bind_of_exhausted (expression_of_parens h hw hd (by rw [t.rank_next ht]; omega))

/-- As many parentheses as are allowed open `maxReadings` readings, whatever comes after them. -/
theorem completeWithin_eq_exhausted {limit : Nat} (count : Nat) {p : Parser} {w us : List Token} (h : p.At 0 (w ++ us))
    (hw : lexemes w = List.replicate maxDepth .leftParen) (hlimit : limit < maxReadings) :
    completeWithin limit count p = .exhausted := by
  have hmin : min count limit < maxReadings := Nat.lt_of_le_of_lt (Nat.min_le_right ..) hlimit
  apply bind_of_exhausted
  rw [expressionWithin_eq]
  exact expression_of_parens h hw (Nat.le_of_eq (Nat.zero_add _)) hmin

end Reading

open Reading

/-- A reading of an expression or of a primary that succeeds here has taken a token. A chain is made of rounds, and
one that goes on has taken a token too, also if it fails. The round that ends the chain takes none. -/
structure Parser.MovesOn (p : Parser) : Prop where
  expression : ∀ count t e q, Reading.expression count t p = .done e q → p.Advances q
  primary : ∀ count e q, Reading.primary count p = .done e q → p.Advances q
  chain_eq : ∀ count rounds t links last, chain (Reading.expression count t.next) t (rounds + 1) links last p = (do
    match ← link (Reading.expression count t.next) t with
    | none => pure (Expr.chain links last)
    | some (symbol, fn, right) =>
      chain (Reading.expression count t.next) t rounds (links.push ⟨last, symbol, fn⟩) right : Reading Expr) p
  link_done : ∀ count t next q, link (Reading.expression count t.next) t p = .done (some next) q → p.Advances q
  link_failed : ∀ count t err q, link (Reading.expression count t.next) t p = .failed err q → p.Advances q
  link_none : ∀ count t q, link (Reading.expression count t.next) t p = .done none q →
    q.stream.ahead = p.stream.ahead

theorem Parser.At.movesOn {p : Parser} {d : Nat} {ts : List Token} (h : p.At d ts) : p.MovesOn := by
  have hexpression : ∀ count t e q, Reading.expression count t p = .done e q → p.Advances q := by
    intro count t e q hdone
    have heq := expression_eq_maxReadings h (by rw [hdone]; simp)
    have hends := expression_ends maxReadings t p d ts h (le_maxReadings d t)
    rw [← heq, hdone] at hends
    exact h.advances hends
  have hlink : ∀ count t {o}, link (Reading.expression count t.next) t p = o → o ≠ .exhausted →
      o.Holds (fun next? q => if next?.isSome then Advanced d ts q else q.stream.ahead = ts) fun _ => Advanced d ts := by
    rintro count t o rfl hne
    rw [link_eq_maxReadings h hne]
    exact link_ends h (le_maxReadings d t.next)
  exact {
    expression := hexpression
    primary count := hexpression (count + 1) .operand
    chain_eq count rounds t links last := by rw [chain_succ]
    link_done count t next q hdone := h.advances (hlink count t hdone (by simp))
    link_failed count t err q hfailed := h.advances (hlink count t hfailed (by simp))
    link_none count t q hdone := Eq.trans (hlink count t hdone (by simp)) h.ahead.symm }

/-- A reading here ends with `maxReadings` readings inside one another, and no more of them are ever open: with more
allowed, and up to this limit or a higher one open, it gives the same. -/
structure Parser.StaysWithin (p : Parser) : Prop where
  expression_ends : ∀ t, Reading.expression maxReadings t p ≠ .exhausted
  complete_ends : complete p ≠ .exhausted
  expression_eq : ∀ limit count t, maxReadings ≤ limit → maxReadings ≤ count →
    expressionWithin limit count 0 t p = expression maxReadings t p
  complete_eq : ∀ limit count, maxReadings ≤ limit → maxReadings ≤ count → completeWithin limit count p = complete p

theorem Parser.At.staysWithin {p : Parser} {d : Nat} {ts : List Token} (h : p.At d ts) : p.StaysWithin := by
  have hends : ∀ t, Ends d ts (Reading.expression maxReadings t p) := fun t =>
    Reading.expression_ends maxReadings t p d ts h (le_maxReadings d t)
  have hcomplete : Ends d ts (complete p) := by
    refine bind_holds ((hends .lowest).imp (fun e q hq => bind_holds ?_) fun _ _ h => h)
    exact (hq.expect .finish).imp (fun _ _ h => h) fun _ _ h => h
  exact {
    expression_ends t := (hends t).ne_exhausted
    complete_ends := hcomplete.ne_exhausted
    expression_eq limit count t hlimit hcount := expressionWithin_eq_of_le h hlimit hcount
    complete_eq limit count hlimit hcount := bind_congr_left (expressionWithin_eq_of_le h hlimit hcount) }

/-- **Termination.** Wherever a parser stands in a text, readings and rounds of a chain move on, and no more than
`maxReadings` readings are open at once. -/
theorem parse_within_budget (text : String) (calls : List TokenStream.Call) (depth : Nat) :
    (Parser.mk ((TokenStream.ofString text).after calls) depth).MovesOn ∧
      (Parser.mk ((TokenStream.ofString text).after calls) depth).StaysWithin := by
  have hts := readable_tokens_ofString text
  have hat := ((TokenStream.follows_ofString text).after hts calls).at hts depth
  exact ⟨hat.movesOn, hat.staysWithin⟩

/-- In a product the first primary takes the constant, and a budget five times as large makes no difference. -/
theorem parse_within_budget_of_product :
    (∃ e q, primary 1 ⟨(TokenStream.ofString "2t").after [], 0⟩ = .done e q ∧
      (Parser.mk ((TokenStream.ofString "2t").after []) 0).Advances q) ∧
      completeWithin 1032 5160 ⟨(TokenStream.ofString "2t").after [], 0⟩ =
        complete ⟨(TokenStream.ofString "2t").after [], 0⟩ := by
  obtain ⟨hmoves, hstays⟩ := parse_within_budget "2t" [] 0
  exact ⟨⟨_, _, rfl, hmoves.primary 1 _ _ rfl⟩, hstays.complete_eq 1032 5160 (by decide) (by decide)⟩

end Calculator
