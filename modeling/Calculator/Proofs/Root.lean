import Calculator.Proofs.RoundTrip
import Calculator.Proofs.Segmentation
import Calculator.Proofs.Steps
import Calculator.Proofs.Substitution

/-!
# The operator at the root

Of the operators that stand outside of every group, bar pair and argument,
the first of the loosest ones is at the root of the tree, and the texts on
its two sides are accepted with the two subtrees (`parse_root`). Without
such an operator the text is a single operand.
-/

namespace Calculator

def Lexeme.joins? : Lexeme → Option BinaryFn
  | operator fn => some fn
  | var => some .mul
  | _ => none

/-- At an index of `w` an operator stands outside of every group, bar pair and argument. It is no sign, because
an operand ends before it. -/
def Outer (w : List Lexeme) (i : Nat) (fn : BinaryFn) : Prop :=
  Place.start.steps (w.take i) = some .final ∧ w[i]?.bind Lexeme.joins? = some fn

structure Loosest (w : List Lexeme) (i : Nat) (fn : BinaryFn) : Prop where
  outer : Outer w i fn
  least : ∀ j op, Outer w j op → fn.tier < op.tier ∨ fn = op ∧ i ≤ j

theorem BinaryFn.tier_injective {fn op : BinaryFn} (h : fn.tier = op.tier) : fn = op := by
  revert h
  cases fn <;> cases op <;> decide

theorem Tier.lt_of_next_le {s t : Tier} (hs : s ≠ .operand) (h : s.next ≤ t) : s < t := by
  have hrank : s.next.rank ≤ t.rank := h
  rw [s.rank_next hs] at hrank
  exact hrank

theorem Tier.ne_lowest_of_lt {s t : Tier} (h : s < t) : t ≠ .lowest := by
  rintro rfl
  exact Nat.not_lt_zero _ h

/-! ## Operators inside an expression -/

/-- A place inside an expression of tier `t` that starts where `s` is open. If nothing more is open and an operand
has ended, the lexeme `x` that follows is an operator of the tier or a tighter one. -/
def Place.Within (s : List Opening) (t : Tier) (x : Lexeme) (p : Place) : Prop :=
  s.length ≤ p.depth ∧
    (p.slot = .operator → p.depth = s.length → ∃ fn, x.joins? = some fn ∧ t ≤ fn.tier)

section
variable {s : List Opening} {t : Tier} {x c : Lexeme} {p : Place} {u w r : List Lexeme} {o : Opening}

theorem Place.Within.of_lt (h : s.length < p.depth) : p.Within s t x :=
  ⟨Nat.le_of_lt h, fun _ hd => absurd hd (Nat.ne_of_gt h)⟩

theorem Place.within_start (s : List Opening) (t : Tier) (x : Lexeme) : Place.Within s t x ⟨.operand, s⟩ :=
  ⟨Nat.le_refl _, fun hslot => nomatch hslot⟩

theorem Place.within_argument (s : List Opening) (t : Tier) (x : Lexeme) : Place.Within s t x ⟨.argument, s⟩ :=
  ⟨Nat.le_refl _, fun hslot => nomatch hslot⟩

theorem Place.Within.of_next (ht : t ≠ .operand) (h : p.Within s t.next x) : p.Within s t x := by
  refine ⟨h.1, fun hslot hd => ?_⟩
  obtain ⟨fn, hx, hfn⟩ := h.2 hslot hd
  exact ⟨fn, hx, Nat.le_of_lt (Tier.lt_of_next_le ht hfn)⟩

theorem Place.Within.lt_depth (h : p.Within (o :: s) t x) : s.length < p.depth := h.1

theorem Place.within_cons {m q : Place} {y : Lexeme} (hm : m.Within s t y) (hy : m.step y = some q)
    (heq : y :: w = u ++ x :: r) (hp : m.steps u = some p)
    (hin : ∀ u', w = u' ++ x :: r → q.steps u' = some p → p.Within s t x) : p.Within s t x := by
  cases u with
  | nil =>
    obtain ⟨rfl, -⟩ := List.cons.inj heq
    cases hp
    exact hm
  | cons z u =>
    obtain ⟨rfl, hw⟩ := List.cons.inj heq
    rw [steps_cons_of_step hy] at hp
    exact hin u hw hp

theorem lt_depth_of_enclosed (hset : settle (o :: s) = o :: s)
    (hw : Place.steps ⟨.operand, o :: s⟩ w = some ⟨.operator, settle (o :: s)⟩)
    (ih : ∀ {u r : List Lexeme} {x : Lexeme} {p : Place}, w = u ++ x :: r →
      Place.steps ⟨.operand, o :: s⟩ u = some p → p.Within (o :: s) .sum x)
    (heq : w ++ [c] = u ++ x :: r) (hp : Place.steps ⟨.operand, o :: s⟩ u = some p) : s.length < p.depth := by
  rcases List.eq_nil_or_concat r with rfl | ⟨r, y, rfl⟩
  · obtain ⟨rfl, -⟩ := List.append_inj' heq rfl
    rw [hw, hset] at hp
    cases hp
    exact Nat.lt_succ_self _
  · rw [List.concat_eq_append, ← List.cons_append, ← List.append_assoc] at heq
    exact (ih (List.append_inj' heq rfl).1 hp).lt_depth

end

theorem Spells.within {t : Tier} {w : List Lexeme} {e : Expr} {n : Nat} (h : Spells t w e n) :
    ∀ {s : List Opening} {u r : List Lexeme} {x : Lexeme} {p : Place}, w = u ++ x :: r → t = .operand ∨ settle s = s →
      Place.steps ⟨.operand, s⟩ u = some p → p.Within s t x := by
  induction h with
  | constant | var =>
    intro s u r x p hw _ hp
    apply Place.within_cons (Place.within_start ..) rfl hw hp
    intro u hw
    simp at hw
  | call h ih =>
    intro s u r x p hw _ hp
    apply Place.within_cons (Place.within_start ..) rfl hw hp
    intro u hw hp
    apply Place.within_cons (Place.within_argument ..) rfl hw hp
    intro u hw hp
    exact .of_lt (lt_depth_of_enclosed rfl (h.steps (.inr rfl)) (fun hw => ih hw (.inr rfl)) hw hp)
  | group h ih | bars h ih =>
    intro s u r x p hw _ hp
    apply Place.within_cons (Place.within_start ..) rfl hw hp
    intro u hw hp
    exact .of_lt (lt_depth_of_enclosed rfl (h.steps (.inr rfl)) (fun hw => ih hw (.inr rfl)) hw hp)
  | sign hop h ih =>
    intro s u r x p hw _ hp
    apply Place.within_cons (q := ⟨.operand, .sign :: s⟩) (Place.within_start ..) (by simp [Place.step, hop]) hw hp
    intro u hw hp
    exact .of_lt (ih hw (.inl rfl) hp).lt_depth
  | single ht _ ih =>
    intro s u r x p hw hs hp
    exact (ih hw (.inr (hs.resolve_left ht)) hp).of_next ht
  | @operation t fn v w _ _ _ _ hfn hl _ ihl ihr =>
    intro s u r x p hw hs hp
    have ht : t ≠ .operand := hfn ▸ fn.tier_ne_operand
    have hs := hs.resolve_left ht
    have hv : Place.steps ⟨.operand, s⟩ v = some ⟨.operator, s⟩ := by rw [hl.steps (.inr hs), hs]
    rcases append_cons_eq_append_cons hw with ⟨u, rfl, rfl⟩ | ⟨rfl, rfl⟩ | ⟨r', rfl, rfl⟩
    · rw [Place.steps_append_of_eq hv, Place.steps_cons_of_step rfl] at hp
      exact ihr rfl (.inr hs) hp
    · cases hv.symm.trans hp
      exact ⟨Nat.le_refl _, fun _ _ => ⟨fn, rfl, hfn ▸ Nat.le_refl _⟩⟩
    · exact (ihl rfl (.inr hs) hp).of_next ht
  | @implicit t v w _ _ _ _ hprod hl _ ihl ihr =>
    intro s u r x p hw hs hp
    have ht : t ≠ .operand := by subst hprod; decide
    have hs := hs.resolve_left ht
    have hv : Place.steps ⟨.operand, s⟩ v = some ⟨.operator, s⟩ := by rw [hl.steps (.inr hs), hs]
    rcases append_cons_eq_append_cons hw with ⟨u, rfl, rfl⟩ | ⟨rfl, rfl⟩ | ⟨r', rfl, rfl⟩
    · -- the variable is the first lexeme of the right operand
      rw [Place.steps_append_of_eq hv, Place.steps_var_cons hs] at hp
      exact ihr rfl (.inr hs) hp
    · cases hv.symm.trans hp
      exact ⟨Nat.le_refl _, fun _ _ => ⟨.mul, rfl, hprod ▸ Nat.le_refl _⟩⟩
    · exact (ihl rfl (.inr hs) hp).of_next ht

/-- All operators of an expression outside of its groups are of its tier or a tighter one. -/
theorem Spells.le_tier_of_outer {t : Tier} {w : List Lexeme} {e : Expr} {n i : Nat} {fn : BinaryFn} (h : Spells t w e n)
    (ho : Outer w i fn) : t ≤ fn.tier := by
  obtain ⟨hp, hx⟩ := ho
  obtain ⟨x, hget, hfn⟩ := Option.bind_eq_some_iff.1 hx
  obtain ⟨hi, rfl⟩ := List.getElem?_eq_some_iff.1 hget
  have hw : w = w.take i ++ w[i] :: w.drop (i + 1) := by
    rw [← List.drop_eq_getElem_cons hi, List.take_append_drop]
  obtain ⟨op, hop, hle⟩ := (h.within hw (.inr rfl) hp).2 rfl rfl
  rw [hfn] at hop
  cases hop
  exact hle

/-! ## The root -/

inductive Joint (fn : BinaryFn) : List Lexeme → List Lexeme → Prop where
  | operator (w : List Lexeme) : Joint fn (.operator fn :: w) w
  | factor (w : List Lexeme) : fn = .mul → Joint fn (.var :: w) (.var :: w)

/-- Two expressions with an operator between them, which is looser than those of the first one and no tighter than
those of the second one. -/
structure Joined (fn : BinaryFn) (v y w : List Lexeme) (l r : Expr) (m n : Nat) : Prop where
  joint : Joint fn y w
  left : Spells fn.tier.next v l m
  right : Spells fn.tier w r n
  whole : Spells fn.tier (v ++ y) (.binary fn.symbol fn l r) (max m n)

theorem Spells.root {t : Tier} {w : List Lexeme} {e : Expr} {n : Nat} (h : Spells t w e n) :
    Spells .operand w e n ∨ ∃ fn v y u l r m k, w = v ++ y ∧ e = .binary fn.symbol fn l r ∧ n = max m k ∧
      Joined fn v y u l r m k := by
  induction h with
  | single _ _ ih => exact ih
  | operation hfn hl hr =>
    subst hfn
    exact .inr ⟨_, _, _, _, _, _, _, _, rfl, rfl, rfl, .operator _, hl, hr, .operation rfl hl hr⟩
  | implicit hp hl hr =>
    subst hp
    exact .inr ⟨.mul, _, _, _, _, _, _, _, rfl, rfl, rfl, .factor _ rfl, hl, hr, .implicit rfl hl hr⟩
  | constant value => exact .inl (.constant value)
  | var => exact .inl .var
  | call h => exact .inl (.call h)
  | group h => exact .inl (.group h)
  | bars h => exact .inl (.bars h)
  | sign hop h => exact .inl (.sign hop h)

theorem not_outer_of_operand {w : List Lexeme} {e : Expr} {n : Nat} (h : Spells .operand w e n) (i : Nat)
    (fn : BinaryFn) : ¬ Outer w i fn := by
  intro ho
  exact fn.not_operand_le_tier (h.le_tier_of_outer ho)

section
variable {fn : BinaryFn} {v y u : List Lexeme} {l r : Expr} {m k : Nat}

theorem Joint.head (h : Joint fn y u) : ∃ x, y.head? = some x ∧ x.joins? = some fn := by
  cases h with
  | operator w => exact ⟨_, rfl, rfl⟩
  | factor w hfn => exact ⟨_, rfl, by rw [hfn]; rfl⟩

theorem Joint.cons {x : Lexeme} {w : List Lexeme} (h : Joint fn (x :: w) u) :
    x = .operator fn ∧ u = w ∨ x = .var ∧ u = .var :: w := by
  cases h with
  | operator w => exact .inl ⟨rfl, rfl⟩
  | factor w hfn => exact .inr ⟨rfl, rfl⟩

theorem Joined.outer (h : Joined fn v y u l r m k) : Outer (v ++ y) v.length fn := by
  obtain ⟨x, hx, hfn⟩ := h.joint.head
  constructor
  · rw [List.take_left]
    exact h.left.steps (.inr rfl)
  · rw [List.getElem?_append_right (Nat.le_refl _), Nat.sub_self, ← List.head?_eq_getElem?, hx]
    exact hfn

theorem Joined.loosest (h : Joined fn v y u l r m k) : Loosest (v ++ y) v.length fn := by
  refine ⟨h.outer, fun j op ho => ?_⟩
  by_cases hj : j < v.length
  · -- on the left there are only tighter operators
    have hv : Outer v j op := by
      obtain ⟨hp, hx⟩ := ho
      rw [List.take_append_of_le_length (Nat.le_of_lt hj)] at hp
      rw [List.getElem?_append_left hj] at hx
      exact ⟨hp, hx⟩
    exact .inl (Tier.lt_of_next_le fn.tier_ne_operand (h.left.le_tier_of_outer hv))
  · rcases Nat.lt_or_eq_of_le (h.whole.le_tier_of_outer ho) with hlt | heq
    · exact .inl hlt
    · exact .inr ⟨BinaryFn.tier_injective (Tier.rank_injective heq), Nat.le_of_not_lt hj⟩

end

/-! ## Texts -/

theorem Readable.spelled_of_mem {ts : List Token} (h : Readable ts) {x : Token} (hx : x ∈ ts) : x.Spelled := by
  induction h with
  | finish hf =>
    obtain rfl := List.mem_singleton.1 hx
    exact (Readable.finish hf).spelled
  | cons hne hs _ ih =>
    rcases List.mem_cons.1 hx with rfl | hx
    · exact hs
    · exact ih hx

theorem spelled_of_mem_tokenize {text : String} {x : Token} (hx : x ∈ tokenize text) : x.Spelled :=
  (readable_tokens_ofString text).spelled_of_mem (List.dropLast_subset _ hx)

/-- A text cut at the operator with an index. A factor that is a variable belongs to the second part. -/
structure CutAt (text : String) (i : Nat) (fn : BinaryFn) (before after : String) : Prop where
  tokens_before : tokenize before = (tokenize text).take i
  parts :
    (lexemes (tokenize text))[i]? = some (.operator fn) ∧ text = before ++ fn.symbol ++ after ∧
        lexemes (tokenize after) = (lexemes (tokenize text)).drop (i + 1) ∨
      (lexemes (tokenize text))[i]? = some .var ∧ text = before ++ after ∧
        lexemes (tokenize after) = (lexemes (tokenize text)).drop i

theorem Joint.exists_cutAt {text : String} {us vs : List Token} {fn : BinaryFn} {u : List Lexeme}
    (h : Joint fn (lexemes vs) u) (htokens : tokenize text = us ++ vs) :
    ∃ before after, CutAt text us.length fn before after ∧ tokenize before = us ∧ lexemes (tokenize after) = u := by
  cases vs with
  | nil => obtain ⟨x, hx, -⟩ := h.head; cases hx
  | cons x ts =>
    obtain ⟨before, after, htext, -, hbefore, hafter, hfrom⟩ := text_at_token htokens
    have htake : tokenize before = (tokenize text).take us.length := by rw [hbefore, htokens, List.take_left]
    have hget : (lexemes (tokenize text))[us.length]? = some x.lexeme := by simp [htokens, lexemes]
    rcases h.cons with ⟨hx, rfl⟩ | ⟨hx, rfl⟩
    · have hsymbol : x.text = fn.symbol := spelled_of_mem_tokenize (by rw [htokens]; simp) _ (by rw [hx]; rfl)
      refine ⟨before, after, ⟨htake, .inl ⟨hx ▸ hget, ?_, ?_⟩⟩, hbefore, hafter⟩
      · rw [htext, hsymbol]
      · rw [hafter, htokens]
        simp [lexemes, List.drop_append]
    · rw [lexemes_cons, hx] at hfrom
      refine ⟨before, x.text ++ after, ⟨htake, .inr ⟨hx ▸ hget, ?_, ?_⟩⟩, hbefore, hfrom⟩
      · rw [htext, String.append_assoc]
      · rw [hfrom, htokens]
        simp [lexemes, hx]

/-- If operators stand outside of every group, bar pair and argument, the first of the loosest ones is at the root,
and the texts before and after it are accepted with the two subtrees. If there are none, the text is a constant,
the variable, a call, a bar pair, a sign with its operand or a group. -/
theorem parse_root {text : String} {e : Expr} (h : parse text = .ok e) :
    (∃ i fn l r before after, Loosest (lexemes (tokenize text)) i fn ∧ CutAt text i fn before after ∧
      e = .binary fn.symbol fn l r ∧ parse before = .ok l ∧ parse after = .ok r) ∨
    (∀ i fn, ¬ Outer (lexemes (tokenize text)) i fn) ∧ ∃ n, n ≤ maxDepth ∧ Operand (lexemes (tokenize text)) e n := by
  obtain ⟨n, hn, hspells⟩ := parse_eq_ok_iff.1 h
  rcases hspells.root with hoperand | ⟨fn, v, y, u, l, r, m, k, hw, rfl, rfl, hjoined⟩
  · exact .inr ⟨not_outer_of_operand hoperand, n, hn, hoperand.operand⟩
  · obtain ⟨us, vs, htokens, rfl, rfl⟩ := List.map_eq_append_iff.1 hw
    have hloosest := hjoined.loosest
    rw [List.length_map, ← hw] at hloosest
    obtain ⟨before, after, hcut, hbefore, hafter⟩ := hjoined.joint.exists_cutAt htokens
    refine .inl ⟨us.length, fn, l, r, before, after, hloosest, hcut, rfl, ?_, ?_⟩
    · apply parse_eq_ok_iff.2
      refine ⟨m, by omega, ?_⟩
      rw [hbefore]
      exact hjoined.left.to_sum (Tier.ne_lowest_of_lt (Tier.lt_of_next_le fn.tier_ne_operand (Nat.le_refl _)))
    · apply parse_eq_ok_iff.2
      refine ⟨k, by omega, ?_⟩
      rw [hafter]
      exact hjoined.right.to_sum fn.tier_ne_lowest

/-- In `t t-|t+t|` the minus is at the root, because the plus stands in bars. -/
theorem parse_root_of_difference :
    ∃ e, parse "t t-|t+t|" = .ok e ∧
      ((∃ i fn l r before after, Loosest (lexemes (tokenize "t t-|t+t|")) i fn ∧ CutAt "t t-|t+t|" i fn before after ∧
          e = .binary fn.symbol fn l r ∧ parse before = .ok l ∧ parse after = .ok r) ∨
        (∀ i fn, ¬ Outer (lexemes (tokenize "t t-|t+t|")) i fn) ∧
          ∃ n, n ≤ maxDepth ∧ Operand (lexemes (tokenize "t t-|t+t|")) e n) := by
  have hlexemes : lexemes (tokenize "t t-|t+t|") =
      [.var, .var, .operator .sub, .bar, .var, .operator .add, .var, .bar] := by rfl
  have hproduct := Spells.implicit rfl (Spells.var.of_operand _) (Spells.var.of_operand .product)
  have hsum := @Spells.operation .sum .add _ _ _ _ _ _ rfl (Spells.var.of_operand _) (Spells.var.of_operand _)
  have hspells := (@Spells.operation .difference .sub _ _ _ _ _ _ rfl hproduct
    ((Spells.bars hsum).of_operand _)).to_sum nofun
  have h : parse "t t-|t+t|" = .ok (.binary "-" .sub (.binary "*" .mul (.var "t") (.var "t"))
      (.unary "abs" .abs (.binary "+" .add (.var "t") (.var "t")))) := by
    apply parse_eq_ok_iff.2
    refine ⟨1, by decide, ?_⟩
    rw [hlexemes]
    exact hspells
  exact ⟨_, h, parse_root h⟩

end Calculator
