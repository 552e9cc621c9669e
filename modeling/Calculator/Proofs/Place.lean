import Calculator.Proofs.Grammar

/-!
# Places in an expression

A place is what has to come next and which constructs are open. Reading a
lexeme leads from one place to the next, or there is none: then no expression
goes on with that lexeme. A list takes the first place to one after an
operand with nothing open exactly if it spells an expression
(`run_start_iff`), and every place that is reached can be left that way
(`run_completion`).
-/

namespace Calculator

/-- A construct that is open: a group or call, a bar pair, or a sign whose operand is not complete. -/
inductive Opening where
  | group
  | bars
  | sign
  deriving DecidableEq, Repr

def Opening.closer? : Opening → Option Lexeme
  | group => some .rightParen
  | bars => some .bar
  | sign => none

inductive Slot where
  | operand
  | argument
  | operator
  deriving DecidableEq, Repr

/-- The innermost open construct comes first. -/
structure Place where
  slot : Slot
  opened : List Opening
  deriving DecidableEq, Repr

/-- A complete operand completes the signs before it. -/
def settle (s : List Opening) : List Opening := s.dropWhile (· = .sign)

namespace Place

def start : Place := ⟨.operand, []⟩

def final : Place := ⟨.operator, []⟩

def depth (p : Place) : Nat := p.opened.length

def step : Place → Lexeme → Option Place
  | ⟨.operand, s⟩, .constant _ | ⟨.operand, s⟩, .var => some ⟨.operator, settle s⟩
  | ⟨.operand, s⟩, .function _ => some ⟨.argument, s⟩
  | ⟨.operand, s⟩, .leftParen => some ⟨.operand, .group :: s⟩
  | ⟨.operand, s⟩, .bar => some ⟨.operand, .bars :: s⟩
  | ⟨.operand, s⟩, .operator fn => fn.sign?.map fun _ => ⟨.operand, .sign :: s⟩
  | ⟨.argument, s⟩, .leftParen => some ⟨.operand, .group :: s⟩
  | ⟨.operator, s⟩, .operator _ => some ⟨.operand, s⟩
  | ⟨.operator, s⟩, .var => some ⟨.operator, s⟩
  | ⟨.operator, .group :: s⟩, .rightParen => some ⟨.operator, settle s⟩
  | ⟨.operator, .bars :: s⟩, .bar => some ⟨.operator, settle s⟩
  | _, _ => none

/-- The place after a list of lexemes, none of which may stand below `limit` open constructs. -/
def run (limit : Nat) : Place → List Lexeme → Option Place
  | p, [] => some p
  | p, x :: w => if p.depth ≤ limit then (p.step x).bind (run limit · w) else none

variable {limit : Nat} {p q : Place} {s : List Opening} {x : Lexeme} {u v w : List Lexeme}

theorem run_cons (h : p.depth ≤ limit) : run limit p (x :: w) = (p.step x).bind (run limit · w) := by
  simp [run, h]

theorem run_cons_of_step (h : p.depth ≤ limit) (hs : p.step x = some q) :
    run limit p (x :: w) = run limit q w := by
  rw [run_cons h, hs]; rfl

theorem run_append : run limit p (v ++ w) = (run limit p v).bind (run limit · w) := by
  induction v generalizing p with
  | nil => rfl
  | cons x v ih =>
    simp only [List.cons_append, run]
    split
    · cases p.step x with
      | none => rfl
      | some q => exact ih
    · rfl

theorem run_append_of_eq (h : run limit p v = some q) : run limit p (v ++ w) = run limit q w := by
  rw [run_append, h]; rfl

theorem run_of_append (h : run limit p (v ++ w) = some q) :
    ∃ m, run limit p v = some m ∧ run limit m w = some q := by
  rw [run_append] at h
  exact Option.bind_eq_some_iff.1 h

theorem step_of_run_cons (h : run limit p (x :: w) = some q) :
    p.depth ≤ limit ∧ ∃ m, p.step x = some m ∧ run limit m w = some q := by
  unfold run at h
  split at h
  · next hd => exact ⟨hd, Option.bind_eq_some_iff.1 h⟩
  · cases h

theorem run_mono {limit' : Nat} (hl : limit ≤ limit') (h : run limit p w = some q) :
    run limit' p w = some q := by
  induction w generalizing p with
  | nil => exact h
  | cons x w ih =>
    obtain ⟨hd, m, hs, hr⟩ := step_of_run_cons h
    rw [run_cons_of_step (Nat.le_trans hd hl) hs]
    exact ih hr

end Place

@[simp] theorem settle_group (s : List Opening) : settle (.group :: s) = .group :: s := rfl

@[simp] theorem settle_bars (s : List Opening) : settle (.bars :: s) = .bars :: s := rfl

@[simp] theorem settle_sign (s : List Opening) : settle (.sign :: s) = settle s := rfl

@[simp] theorem settle_settle (s : List Opening) : settle (settle s) = settle s := by
  induction s with
  | nil => rfl
  | cons o s ih => cases o <;> simp [ih]

/-! ## Expressions lead from an operand to its end -/

theorem Place.run_var_cons {limit : Nat} {s : List Opening} {w : List Lexeme} (hs : settle s = s) :
    run limit ⟨.operator, s⟩ (.var :: w) = run limit ⟨.operand, s⟩ (.var :: w) := by
  by_cases hd : s.length ≤ limit
  · rw [run_cons_of_step hd rfl, run_cons_of_step hd rfl, hs]
  · simp [run, depth, hd]

/-- An expression is read from every place where an operand starts; only at the tier of operands
may signs stand before it. -/
theorem Spells.run {t : Tier} {w : List Lexeme} {e : Expr} {n : Nat} (h : Spells t w e n) {limit : Nat} :
    ∀ {s : List Opening}, t = .operand ∨ settle s = s → s.length + n ≤ limit →
      Place.run limit ⟨.operand, s⟩ w = some ⟨.operator, settle s⟩ := by
  induction h with
  | constant value =>
    intro s _ hd
    exact Place.run_cons_of_step hd rfl
  | var =>
    intro s _ hd
    exact Place.run_cons_of_step hd rfl
  | @call fn w e n _ ih =>
    intro s _ hd
    have hd₀ : s.length ≤ limit := by omega
    rw [Place.run_cons_of_step hd₀ rfl, Place.run_cons_of_step hd₀ rfl,
      Place.run_append_of_eq (ih (.inr rfl) (by simp only [List.length_cons]; omega))]
    exact Place.run_cons_of_step (by simp [Place.depth]; omega) rfl
  | @group w e n _ ih =>
    intro s _ hd
    rw [Place.run_cons_of_step (by simp only [Place.depth]; omega) rfl,
      Place.run_append_of_eq (ih (.inr rfl) (by simp only [List.length_cons]; omega))]
    exact Place.run_cons_of_step (by simp [Place.depth]; omega) rfl
  | @bars w e n _ ih =>
    intro s _ hd
    rw [Place.run_cons_of_step (by simp only [Place.depth]; omega) rfl,
      Place.run_append_of_eq (ih (.inr rfl) (by simp only [List.length_cons]; omega))]
    exact Place.run_cons_of_step (by simp [Place.depth]; omega) rfl
  | @sign op fn w e n hop _ ih =>
    intro s _ hd
    rw [Place.run_cons_of_step (q := ⟨.operand, .sign :: s⟩) (by simp only [Place.depth]; omega)
      (by simp [Place.step, hop]), ih (.inl rfl) (by simp only [List.length_cons]; omega), settle_sign]
  | single ht _ ih =>
    intro s hs hd
    exact ih (.inr (hs.resolve_left ht)) hd
  | @operation t fn v w l r m n hfn _ _ ihl ihr =>
    intro s hs hd
    have hs := hs.resolve_left (hfn ▸ fn.tier_ne_operand)
    rw [Place.run_append_of_eq (ihl (.inr hs) (by omega)), hs,
      Place.run_cons_of_step (by simp only [Place.depth]; omega) rfl, ihr (.inr hs) (by omega), hs]
  | implicit hp _ _ ihl ihr =>
    intro s hs hd
    have hs := hs.resolve_left (by subst hp; decide)
    rw [Place.run_append_of_eq (ihl (.inr hs) (by omega)), hs, Place.run_var_cons hs,
      ihr (.inr hs) (by omega), hs]

/-! ## Whatever is read to an end is an expression -/

theorem Tier.next_le_of_lt {t u : Tier} (h : t ≤ u) (hne : u ≠ t) : t.next ≤ u := by
  cases t <;> cases u <;> first | exact absurd rfl hne | revert h; decide

namespace Spells

variable {t : Tier} {v w : List Lexeme} {a e : Expr} {m n : Nat}

/-- An operand and an operator can be put before an expression. The operator goes in at its tier,
to the left of everything that binds less tightly. -/
theorem cons_operator {fn : BinaryFn} (ha : Spells .operand v a m) (h : Spells t w e n) (ht : t ≤ fn.tier) :
    ∃ e', Spells t (v ++ .operator fn :: w) e' (max m n) := by
  induction h with
  | @single t w e n hne h ih =>
    by_cases hfn : fn.tier = t
    · exact ⟨_, .operation hfn (ha.of_operand _) (.single hne h)⟩
    · obtain ⟨e', h'⟩ := ih (Tier.next_le_of_lt ht hfn)
      exact ⟨e', .single hne h'⟩
  | @operation t op w u l r k n hop hl hr ihl _ =>
    by_cases hfn : fn.tier = t
    · exact ⟨_, .operation hfn (ha.of_operand _) (.operation hop hl hr)⟩
    · -- a tighter operator goes into the first operand of this chain
      obtain ⟨e', h'⟩ := ihl (Tier.next_le_of_lt ht hfn)
      refine ⟨.binary op.symbol op e' r, ?_⟩
      rw [← List.cons_append, ← List.append_assoc, ← Nat.max_assoc]
      exact .operation hop h' hr
  | @implicit t w u l r k n hp hl hr ihl _ =>
    by_cases hfn : fn.tier = t
    · exact ⟨_, .operation hfn (ha.of_operand _) (.implicit hp hl hr)⟩
    · obtain ⟨e', h'⟩ := ihl (Tier.next_le_of_lt ht hfn)
      refine ⟨.binary "*" .mul e' r, ?_⟩
      rw [← List.cons_append, ← List.append_assoc, ← Nat.max_assoc]
      exact .implicit hp h' hr
  | _ => exact absurd ht fn.not_operand_le_tier

theorem cons_var (ha : Spells .operand v a m) (h : Spells t w e n) (ht : t ≤ .product) :
    ∀ {u : List Lexeme}, w = .var :: u → ∃ e', Spells t (v ++ w) e' (max m n) := by
  induction h with
  | @single t w e n hne h ih =>
    intro u hw
    by_cases hp : .product = t
    · subst hw
      exact ⟨_, .implicit hp.symm (ha.of_operand _) (.single hne h)⟩
    · obtain ⟨e', h'⟩ := ih (Tier.next_le_of_lt ht hp) hw
      exact ⟨e', .single hne h'⟩
  | @operation t op w u l r k n hop hl hr ihl _ =>
    intro u' hw
    by_cases hp : .product = t
    · have h := operation hop hl hr
      rw [hw] at h ⊢
      exact ⟨_, .implicit hp.symm (ha.of_operand _) h⟩
    · obtain ⟨w', rfl⟩ := hl.eq_var_cons hw
      obtain ⟨e', h'⟩ := ihl (Tier.next_le_of_lt ht hp) rfl
      refine ⟨.binary op.symbol op e' r, ?_⟩
      rw [← List.append_assoc, ← Nat.max_assoc]
      exact .operation hop h' hr
  | @implicit t w u l r k n hp hl hr ihl _ =>
    intro u' hw
    have h := implicit hp hl hr
    rw [hw] at h ⊢
    exact ⟨_, .implicit hp (ha.of_operand _) h⟩
  | _ => exact absurd ht (by decide)

end Spells

def StartsWithOperand (limit : Nat) (s : List Opening) (w : List Lexeme) : Prop :=
  ∃ v u e n, w = v ++ u ∧ Spells .operand v e n ∧ s.length + n ≤ limit ∧
    Place.run limit ⟨.operator, settle s⟩ u = some .final

def StartsWithSum (limit : Nat) (s : List Opening) (w : List Lexeme) : Prop :=
  ∃ v u e n, w = v ++ u ∧ Spells .sum v e n ∧ s.length + n ≤ limit ∧ Stops .sum u ∧
    Place.run limit ⟨.operator, s⟩ u = some .final

section
variable {limit : Nat} {s : List Opening} {w : List Lexeme}

theorem closer_of_run {o : Opening} (ho : o ≠ .sign) (hs : Stops .sum w)
    (h : Place.run limit ⟨.operator, o :: s⟩ w = some .final) :
    ∃ c u, o.closer? = some c ∧ w = c :: u ∧ Place.run limit ⟨.operator, settle s⟩ u = some .final := by
  cases w with
  | nil => cases h
  | cons x u =>
    obtain ⟨-, q, hq, hr⟩ := Place.step_of_run_cons h
    cases x with
    | operator fn => exact absurd hs (not_stops_sum_operator fn u)
    | var => exact absurd hs (not_stops_sum_var u)
    | rightParen =>
      cases o with
      | group => cases hq; exact ⟨_, u, rfl, rfl, hr⟩
      | _ => cases hq
    | bar =>
      cases o with
      | bars => cases hq; exact ⟨_, u, rfl, rfl, hr⟩
      | _ => cases hq
    | _ => cases o <;> cases hq

variable (ih : ∀ s' w', w'.length < w.length → Place.run limit ⟨.operand, s'⟩ w' = some .final →
  StartsWithOperand limit s' w' ∧ (settle s' = s' → StartsWithSum limit s' w'))

include ih in
theorem enclosed_of_run {o : Opening} {w' : List Lexeme} (ho : o ≠ .sign) (hw : w'.length < w.length)
    (h : Place.run limit ⟨.operand, o :: s⟩ w' = some .final) :
    ∃ v c u e n, o.closer? = some c ∧ w' = v ++ c :: u ∧ Spells .sum v e n ∧ s.length + (n + 1) ≤ limit ∧
      Place.run limit ⟨.operator, settle s⟩ u = some .final := by
  have hset : settle (o :: s) = o :: s := by cases o <;> first | rfl | exact absurd rfl ho
  obtain ⟨v, u, e, n, rfl, hv, hn, hst, hu⟩ := (ih _ _ hw h).2 hset
  obtain ⟨c, u', hc, rfl, hu'⟩ := closer_of_run ho hst hu
  refine ⟨v, c, u', e, n, hc, rfl, hv, ?_, hu'⟩
  simp only [List.length_cons] at hn
  omega

include ih in
theorem startsWithOperand_of_run (h : Place.run limit ⟨.operand, s⟩ w = some .final) :
    StartsWithOperand limit s w := by
  cases w with
  | nil => cases h
  | cons x w =>
    obtain ⟨hd, p, hs, hr⟩ := Place.step_of_run_cons h
    cases x with
    | constant value =>
      cases hs
      exact ⟨[_], w, _, 0, rfl, .constant value, hd, hr⟩
    | var =>
      cases hs
      exact ⟨[_], w, _, 0, rfl, .var, hd, hr⟩
    | function fn =>
      cases hs
      cases w with
      | nil => cases hr
      | cons y w =>
        obtain ⟨-, q, hs, hr'⟩ := Place.step_of_run_cons hr
        cases y with
        | leftParen =>
          cases hs
          obtain ⟨v, c, u, e, n, hc, rfl, hv, hn, hu⟩ :=
            enclosed_of_run ih (by decide) (by simp only [List.length_cons]; omega) hr'
          cases hc
          exact ⟨.function fn :: .leftParen :: (v ++ [.rightParen]), u, _, _, (by simp), .call hv, hn, hu⟩
        | _ => cases hs
    | leftParen =>
      cases hs
      obtain ⟨v, c, u, e, n, hc, rfl, hv, hn, hu⟩ := enclosed_of_run ih (by decide) (by simp) hr
      cases hc
      exact ⟨_, u, _, _, (by simp), .group hv, hn, hu⟩
    | bar =>
      cases hs
      obtain ⟨v, c, u, e, n, hc, rfl, hv, hn, hu⟩ := enclosed_of_run ih (by decide) (by simp) hr
      cases hc
      exact ⟨_, u, _, _, (by simp), .bars hv, hn, hu⟩
    | operator op =>
      obtain ⟨fn, hop, rfl⟩ := Option.map_eq_some_iff.1 hs
      obtain ⟨v, u, e, n, rfl, hv, hn, hu⟩ := (ih _ _ (by simp) hr).1
      refine ⟨_, u, _, _, (by simp), .sign hop hv, ?_, hu⟩
      simp only [List.length_cons] at hn
      omega
    | _ => cases hs

include ih in
theorem startsWithSum_of_run (h : Place.run limit ⟨.operand, s⟩ w = some .final) (hs : settle s = s) :
    StartsWithSum limit s w := by
  obtain ⟨v, u, e, n, rfl, hv, hn, hu⟩ := startsWithOperand_of_run ih h
  have hlen : 0 < v.length := List.length_pos_iff.2 hv.ne_nil
  rw [hs] at hu
  cases u with
  | nil => exact ⟨v, [], e, n, rfl, hv.of_operand _, hn, stops_nil _, hu⟩
  | cons x u =>
    cases x with
    | operator fn =>
      obtain ⟨-, p, hp, hr⟩ := Place.step_of_run_cons hu
      cases hp
      obtain ⟨v', u', e', n', rfl, hv', hn', hst, hu'⟩ :=
        (ih _ _ (by simp only [List.length_append, List.length_cons]; omega) hr).2 hs
      obtain ⟨e'', hsum⟩ := hv.cons_operator hv' fn.sum_le_tier
      exact ⟨_, u', _, _, (by simp), hsum, by omega, hst, hu'⟩
    | var =>
      rw [Place.run_var_cons hs] at hu
      obtain ⟨v', u', e', n', hw, hv', hn', hst, hu'⟩ :=
        (ih _ _ (by simp only [List.length_append, List.length_cons]; omega) hu).2 hs
      obtain ⟨v₁, rfl⟩ := hv'.eq_var_cons hw.symm
      obtain ⟨e'', hsum⟩ := hv.cons_var hv' (by decide) rfl
      exact ⟨_, u', _, _, (by rw [hw, List.append_assoc]), hsum, by omega, hst, hu'⟩
    | _ => exact ⟨v, _, e, n, rfl, hv.of_operand _, hn, by simp [Lexeme.continues], hu⟩

end

theorem startsWith_of_run {limit : Nat} : ∀ (k : Nat) (s : List Opening) (w : List Lexeme), w.length < k →
    Place.run limit ⟨.operand, s⟩ w = some .final →
      StartsWithOperand limit s w ∧ (settle s = s → StartsWithSum limit s w)
  | 0, _, _, hk, _ => absurd hk (Nat.not_lt_zero _)
  | k + 1, _, w, hk, h => by
    have ih : ∀ s' w', w'.length < w.length → Place.run limit ⟨.operand, s'⟩ w' = some .final →
        StartsWithOperand limit s' w' ∧ (settle s' = s' → StartsWithSum limit s' w') :=
      fun s' w' hw => startsWith_of_run k s' w' (by omega)
    exact ⟨startsWithOperand_of_run ih h, startsWithSum_of_run ih h⟩

/-- The expressions of at most so many open constructs are the lists that can be read to the end. -/
theorem run_start_iff {limit : Nat} {w : List Lexeme} :
    Place.run limit .start w = some .final ↔ ∃ e n, n ≤ limit ∧ Spells .sum w e n := by
  constructor
  · intro h
    obtain ⟨v, u, e, n, rfl, hv, hn, hst, hu⟩ := (startsWith_of_run _ [] w (Nat.lt_succ_self _) h).2 rfl
    cases u with
    | nil => exact ⟨e, n, by simpa using hn, by simpa using hv⟩
    | cons x u =>
      obtain ⟨-, p, hp, -⟩ := Place.step_of_run_cons hu
      cases x with
      | operator fn => exact absurd hst (not_stops_sum_operator fn u)
      | var => exact absurd hst (not_stops_sum_var u)
      | _ => cases hp
  · rintro ⟨e, n, hn, h⟩
    exact h.run (.inr rfl) (by simpa using hn)

/-! ## Every place that is reached can be left -/

def closers (s : List Opening) : List Lexeme := s.filterMap Opening.closer?

@[simp] theorem closers_group (s : List Opening) : closers (.group :: s) = .rightParen :: closers s := rfl

@[simp] theorem closers_bars (s : List Opening) : closers (.bars :: s) = .bar :: closers s := rfl

namespace Place

def completion : Place → List Lexeme
  | ⟨.operand, s⟩ => .var :: closers s
  | ⟨.argument, s⟩ => .leftParen :: .var :: .rightParen :: closers s
  | ⟨.operator, s⟩ => closers s

def Settled (p : Place) : Prop := p.slot = .operator → settle p.opened = p.opened

variable {limit : Nat} {p q : Place} {x : Lexeme} {w : List Lexeme}

theorem settled_start : start.Settled := fun h => nomatch h

theorem Settled.step (hp : p.Settled) (h : p.step x = some q) : q.Settled := by
  obtain ⟨slot, s⟩ := p
  cases slot with
  | operand =>
    cases x with
    | operator fn =>
      obtain ⟨_, _, rfl⟩ := Option.map_eq_some_iff.1 h
      exact fun h => nomatch h
    | _ => cases h <;> simp [Settled]
  | argument =>
    cases x <;> cases h
    simp [Settled]
  | operator =>
    cases x with
    | operator fn => cases h; exact fun h => nomatch h
    | var => cases h; exact hp
    | rightParen => cases s with
      | nil => cases h
      | cons o s => cases o <;> cases h; simp [Settled]
    | bar => cases s with
      | nil => cases h
      | cons o s => cases o <;> cases h; simp [Settled]
    | _ => cases s with
      | nil => cases h
      | cons o s => cases o <;> cases h

theorem Settled.run (hp : p.Settled) (h : run limit p w = some q) : q.Settled := by
  induction w generalizing p with
  | nil => cases h; exact hp
  | cons x w ih =>
    obtain ⟨-, m, hs, hr⟩ := step_of_run_cons h
    exact ih (hp.step hs) hr

theorem run_closers : ∀ {s : List Opening}, s.length ≤ limit →
    run limit ⟨.operator, settle s⟩ (closers s) = some final
  | [], _ => rfl
  | .sign :: s, hd => run_closers (s := s) (Nat.le_of_succ_le hd)
  | .group :: s, hd => by
    rw [settle_group, closers_group, run_cons_of_step hd rfl]
    exact run_closers (Nat.le_of_succ_le hd)
  | .bars :: s, hd => by
    rw [settle_bars, closers_bars, run_cons_of_step hd rfl]
    exact run_closers (Nat.le_of_succ_le hd)

theorem run_completion (hp : p.Settled) (hd : p.depth < limit) : run limit p p.completion = some final := by
  obtain ⟨slot, s⟩ := p
  have hs : s.length ≤ limit := Nat.le_of_lt hd
  cases slot with
  | operand =>
    rw [completion, run_cons_of_step hs rfl]
    exact run_closers hs
  | argument =>
    rw [completion, run_cons_of_step hs rfl, run_cons_of_step hd rfl, run_cons_of_step hd rfl]
    exact run_closers hs
  | operator =>
    have h := run_closers hs
    rwa [hp rfl] at h

end Place

end Calculator
