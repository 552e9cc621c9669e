import Calculator.Proofs.Scanning

/-!
# Putting a text in the place of a variable

A group in the place of a variable is a leaf of the same chains
(`Spells.replace`), unless the variable is the second factor of a product
without an operator: a group does not go on with a product. On texts this is
`parse_substitute`.
-/

namespace Calculator

/-! ## Leaves -/

namespace Expr

def leaves : Expr → List Expr
  | constant value => [.constant value]
  | var name => [.var name]
  | unary _ _ operand => operand.leaves
  | binary _ _ left right => left.leaves ++ right.leaves

def replaceLeaf : Expr → Expr → Nat → Expr
  | constant value, a, i => if i = 0 then a else .constant value
  | var name, a, i => if i = 0 then a else .var name
  | unary name fn operand, a, i => .unary name fn (operand.replaceLeaf a i)
  | binary symbol fn left right, a, i =>
    if i < left.leaves.length then .binary symbol fn (left.replaceLeaf a i) right
    else .binary symbol fn left (right.replaceLeaf a (i - left.leaves.length))

variable {b left right : Expr} {i : Nat} (a : Expr) (symbol : String) (fn : BinaryFn)

theorem replaceLeaf_left (right : Expr) (h : left.leaves[i]? = some b) :
    (binary symbol fn left right).replaceLeaf a i = binary symbol fn (left.replaceLeaf a i) right ∧
      (binary symbol fn left right).leaves[i]? = some b := by
  obtain ⟨hi, -⟩ := List.getElem?_eq_some_iff.1 h
  exact ⟨by rw [replaceLeaf, if_pos hi], by rw [leaves, List.getElem?_append_left hi, h]⟩

theorem replaceLeaf_right (left : Expr) (h : right.leaves[i]? = some b) :
    (binary symbol fn left right).replaceLeaf a (left.leaves.length + i) =
        binary symbol fn left (right.replaceLeaf a i) ∧
      (binary symbol fn left right).leaves[left.leaves.length + i]? = some b := by
  refine ⟨?_, ?_⟩
  · rw [replaceLeaf, if_neg (by omega), Nat.add_sub_cancel_left]
  · rw [leaves, List.getElem?_append_right (by omega), Nat.add_sub_cancel_left, h]

end Expr

def Lexeme.isLeaf : Lexeme → Bool
  | constant _ | var => true
  | _ => false

theorem Spells.length_leaves {t : Tier} {w : List Lexeme} {e : Expr} {n : Nat} (h : Spells t w e n) :
    e.leaves.length = w.countP Lexeme.isLeaf := by
  induction h with
  | single _ _ ih => exact ih
  | operation _ _ _ ihl ihr => simp [Expr.leaves, Lexeme.isLeaf, ihl, ihr]
  | implicit _ _ _ ihl ihr => simp [Expr.leaves, ihl, ihr]
  | constant | var => rfl
  | _ => simp_all [Expr.leaves, Lexeme.isLeaf]

/-! ## Operands that are complete -/

def Lexeme.completes (complete : Bool) : Lexeme → Bool
  | constant _ | var | rightParen => true
  | bar => complete
  | _ => false

/-- Whether an operand is complete after these lexemes: the last is a constant, a variable, a closing
parenthesis or a closing bar. -/
def endsOperand (w : List Lexeme) : Bool := w.foldl Lexeme.completes false

namespace Place

def isComplete (p : Place) : Bool := p.slot = .operator

theorem isComplete_of_step {p q : Place} {x : Lexeme} (h : p.step x = some q) :
    q.isComplete = x.completes p.isComplete := by
  obtain ⟨slot, s⟩ := p
  cases slot with
  | operand =>
    cases x with
    | operator fn =>
      obtain ⟨_, _, rfl⟩ := Option.map_eq_some_iff.1 h
      rfl
    | _ => cases h <;> rfl
  | argument =>
    cases x <;> cases h
    rfl
  | operator =>
    cases x with
    | operator fn => cases h; rfl
    | var => cases h; rfl
    | _ => cases s with
      | nil => cases h
      | cons o s => cases o <;> cases h <;> rfl

theorem isComplete_of_run {limit : Nat} {p q : Place} {w : List Lexeme} (h : run limit p w = some q) :
    q.isComplete = w.foldl Lexeme.completes p.isComplete := by
  induction w generalizing p with
  | nil => cases h; rfl
  | cons x w ih =>
    obtain ⟨-, m, hs, hr⟩ := step_of_run_cons h
    rw [List.foldl_cons, ← isComplete_of_step hs]
    exact ih hr

theorem slot_of_run_var {limit : Nat} {p q : Place} {w : List Lexeme} (h : run limit p (.var :: w) = some q)
    (hp : p.isComplete = false) : p.slot = .operand := by
  obtain ⟨-, m, hs, -⟩ := step_of_run_cons h
  obtain ⟨slot, s⟩ := p
  cases slot with
  | operand => rfl
  | argument => cases hs
  | operator => cases hp

end Place

theorem endsOperand_of_spells {t : Tier} {w : List Lexeme} {e : Expr} {n : Nat} (h : Spells t w e n) :
    endsOperand w := by
  have hrun : Place.run n .start w = some .final := h.run (s := []) (.inr rfl) (by simp)
  exact (Place.isComplete_of_run hrun).symm

/-! ## One operand in the place of another -/

theorem append_cons_eq_append_cons {x y : Lexeme} {v w u r : List Lexeme} (h : v ++ x :: w = u ++ y :: r) :
    (∃ u', u = v ++ x :: u' ∧ w = u' ++ y :: r) ∨ (u = v ∧ x = y) ∨ ∃ r', v = u ++ y :: r' ∧ r = r' ++ x :: w := by
  obtain ⟨u₁, rfl, h₁⟩ | ⟨u₁, rfl, h₁⟩ := List.append_eq_append_iff.1 h
  · obtain ⟨rfl, h₂⟩ | ⟨u', rfl, hw⟩ := List.cons_eq_append_iff.1 h₁
    · exact .inr (.inl ⟨by simp, (List.cons.inj h₂).1.symm⟩)
    · exact .inl ⟨u', rfl, hw⟩
  · obtain ⟨rfl, h₂⟩ | ⟨r', rfl, hr⟩ := List.cons_eq_append_iff.1 h₁
    · exact .inr (.inl ⟨by simp, (List.cons.inj h₂).1⟩)
    · exact .inr (.inr ⟨r', rfl, hr⟩)

theorem inner_eq {v w c u r : List Lexeme} (h : v ++ (w ++ c) = u ++ .var :: r) (hv : .var ∉ v) (hc : .var ∉ c) :
    ∃ u' r', u = v ++ u' ∧ r = r' ++ c ∧ w = u' ++ .var :: r' := by
  obtain ⟨u', rfl, h₁⟩ | ⟨v', rfl, h₁⟩ := List.append_eq_append_iff.1 h
  · obtain ⟨c', rfl, h₂⟩ | ⟨w', rfl, h₂⟩ := List.append_eq_append_iff.1 h₁
    · exact absurd (by simp [h₂]) hc
    · obtain ⟨rfl, h₃⟩ | ⟨r', rfl, hr⟩ := List.cons_eq_append_iff.1 h₂
      · exact absurd (by simp [h₃]) hc
      · exact ⟨u', r', rfl, hr, rfl⟩
  · obtain ⟨rfl, h₂⟩ | ⟨v'', rfl, -⟩ := List.cons_eq_append_iff.1 h₁
    · obtain ⟨rfl, h₃⟩ | ⟨r', rfl, hr⟩ := List.append_eq_cons_iff.1 h₂
      · exact absurd (by simp [h₃]) hc
      · exact ⟨[], r', by simp, hr, rfl⟩
    · exact absurd (by simp) hv

/-- In place of the variable between `u` and `r`, in an expression `e` of tier `t` that nests `m` deep, an operand
`a` with the lexemes `g` and the nesting `n` can stand, at the leaf that the variable is. What is open there
besides `s` is added to its nesting. -/
def Replaced (g : List Lexeme) (a : Expr) (n : Nat) (s s' : List Opening) (u r : List Lexeme) (t : Tier) (e : Expr)
    (m : Nat) : Prop :=
  ∃ o, s' = o ++ s ∧ e.leaves[u.countP Lexeme.isLeaf]? = some (.var "t") ∧
    Spells t (u ++ (g ++ r)) (e.replaceLeaf a (u.countP Lexeme.isLeaf)) (max m (o.length + n))

section
variable {g u r v c : List Lexeme} {a e : Expr} {n m : Nat} {o : Opening} {s s' : List Opening} {t : Tier}
  {f : Expr → Expr}

theorem Replaced.enclose (hv : v.countP Lexeme.isLeaf = 0) (hleaves : ∀ e, (f e).leaves = e.leaves)
    (hreplace : ∀ i e, (f e).replaceLeaf a i = f (e.replaceLeaf a i))
    (hf : ∀ {w e k}, Spells t w e k → Spells .operand (v ++ (w ++ c)) (f e) (k + 1))
    (h : Replaced g a n (o :: s) s' u r t e m) : Replaced g a n s s' (v ++ u) (r ++ c) .operand (f e) (m + 1) := by
  obtain ⟨os, rfl, hleaf, hnew⟩ := h
  refine ⟨os ++ [o], by simp, ?_, ?_⟩
  · rw [hleaves, List.countP_append, hv, Nat.zero_add]
    exact hleaf
  · have hdepth : max m (os.length + n) + 1 = max (m + 1) ((os ++ [o]).length + n) := by
      simp only [List.length_append, List.length_singleton]; omega
    have h := hf hnew
    rw [hdepth] at h
    rw [hreplace, List.countP_append, hv, Nat.zero_add]
    simpa using h

variable {left right : Expr} {symbol : String} {fn : BinaryFn} {t' : Tier} {k : Nat}

theorem Replaced.in_left (h : Replaced g a n s s' u r t' left m)
    (hf : ∀ {w e j}, Spells t' w e j → Spells t (w ++ c) (.binary symbol fn e right) (max j k)) :
    Replaced g a n s s' u (r ++ c) t (.binary symbol fn left right) (max m k) := by
  obtain ⟨os, rfl, hleaf, hnew⟩ := h
  obtain ⟨hreplace, hleaf'⟩ := Expr.replaceLeaf_left a symbol fn right hleaf
  refine ⟨os, rfl, hleaf', ?_⟩
  have hdepth : max (max m (os.length + n)) k = max (max m k) (os.length + n) := by omega
  have h := hf hnew
  rw [hdepth] at h
  rw [hreplace]
  simpa using h

theorem Replaced.in_right (h : Replaced g a n s s' u r t right m) (hv : left.leaves.length = v.countP Lexeme.isLeaf)
    (hf : ∀ {e j}, Spells t (u ++ (g ++ r)) e j →
      Spells t (v ++ (u ++ (g ++ r))) (.binary symbol fn left e) (max k j)) :
    Replaced g a n s s' (v ++ u) r t (.binary symbol fn left right) (max k m) := by
  obtain ⟨os, rfl, hleaf, hnew⟩ := h
  obtain ⟨hreplace, hleaf'⟩ := Expr.replaceLeaf_right a symbol fn left hleaf
  rw [hv, ← List.countP_append] at hreplace hleaf'
  refine ⟨os, rfl, hleaf', ?_⟩
  have hdepth : max k (max m (os.length + n)) = max (max k m) (os.length + n) := by omega
  have h := hf hnew
  rw [hdepth] at h
  rw [hreplace]
  simpa using h

end

theorem Spells.replace {limit n : Nat} {g : List Lexeme} {a : Expr} (hg : Spells .operand g a n) {t : Tier}
    {w : List Lexeme} {e : Expr} {m : Nat} (h : Spells t w e m) :
    ∀ {u r : List Lexeme} {s s' : List Opening}, w = u ++ .var :: r → t = .operand ∨ settle s = s →
      s.length + m ≤ limit → Place.run limit ⟨.operand, s⟩ u = some ⟨.operand, s'⟩ →
        Replaced g a n s s' u r t e m := by
  induction h with
  | constant value =>
    intro u r s s' hw _ _ _
    cases u <;> simp at hw
  | var =>
    intro u r s s' hw _ _ hrun
    obtain ⟨rfl, rfl⟩ : u = [] ∧ r = [] := by cases u <;> simp_all
    cases hrun
    refine ⟨[], rfl, rfl, ?_⟩
    simpa [Expr.replaceLeaf] using hg
  | @call fn w e m _ ih =>
    intro u r s s' hw _ hd hrun
    obtain ⟨u, r, rfl, rfl, rfl⟩ := inner_eq (v := [.function fn, .leftParen]) (c := [.rightParen]) hw
      (by simp) (by simp)
    obtain ⟨-, _, ⟨⟩, hrun⟩ := Place.step_of_run_cons hrun
    obtain ⟨-, _, ⟨⟩, hrun⟩ := Place.step_of_run_cons hrun
    have hinner := ih rfl (.inr rfl) (by simp only [List.length_cons]; omega) hrun
    exact hinner.enclose rfl (fun _ => rfl) (fun _ _ => rfl) .call
  | @group w e m _ ih =>
    intro u r s s' hw _ hd hrun
    obtain ⟨u, r, rfl, rfl, rfl⟩ := inner_eq (v := [.leftParen]) (c := [.rightParen]) hw (by simp) (by simp)
    obtain ⟨-, _, ⟨⟩, hrun⟩ := Place.step_of_run_cons hrun
    have hinner := ih rfl (.inr rfl) (by simp only [List.length_cons]; omega) hrun
    exact hinner.enclose rfl (fun _ => rfl) (fun _ _ => rfl) .group
  | @bars w e m _ ih =>
    intro u r s s' hw _ hd hrun
    obtain ⟨u, r, rfl, rfl, rfl⟩ := inner_eq (v := [.bar]) (c := [.bar]) hw (by simp) (by simp)
    obtain ⟨-, _, ⟨⟩, hrun⟩ := Place.step_of_run_cons hrun
    have hinner := ih rfl (.inr rfl) (by simp only [List.length_cons]; omega) hrun
    exact hinner.enclose rfl (fun _ => rfl) (fun _ _ => rfl) .bars
  | @sign op fn w e m hop _ ih =>
    intro u r s s' hw _ hd hrun
    obtain ⟨u, r, rfl, rfl, rfl⟩ := inner_eq (v := [.operator op]) (c := []) (by simpa using hw) (by simp) (by simp)
    obtain ⟨-, p, hp, hrun⟩ := Place.step_of_run_cons hrun
    obtain rfl : ⟨.operand, .sign :: s⟩ = p := by simpa [Place.step, hop] using hp
    have hinner := ih rfl (.inl rfl) (by simp only [List.length_cons]; omega) hrun
    exact hinner.enclose rfl (fun _ => rfl) (fun _ _ => rfl) fun h => by simpa using Spells.sign hop h
  | single ht _ ih =>
    intro u r s s' hw hs hd hrun
    obtain ⟨o, rfl, hleaf, hnew⟩ := ih hw (.inr (hs.resolve_left ht)) hd hrun
    exact ⟨o, rfl, hleaf, .single ht hnew⟩
  | @operation t fn v w l r m m' hfn hl hr ihl ihr =>
    intro u r' s s' hw hs hd hrun
    have hs := hs.resolve_left (hfn ▸ fn.tier_ne_operand)
    obtain ⟨u, rfl, rfl⟩ | ⟨_, ⟨⟩⟩ | ⟨r', rfl, rfl⟩ := append_cons_eq_append_cons hw
    · rw [Place.run_append_of_eq (hl.run (.inr hs) (by omega)), hs] at hrun
      obtain ⟨-, _, ⟨⟩, hrun⟩ := Place.step_of_run_cons hrun
      have h := (ihr rfl (.inr hs) (by omega) hrun).in_right (v := v ++ [.operator fn])
        (hl.length_leaves.trans (by simp [Lexeme.isLeaf])) fun h => by simpa using .operation hfn hl h
      simpa using h
    · exact (ihl rfl (.inr hs) (by omega) hrun).in_left fun h => .operation hfn h hr
  | @implicit t v w l r m m' hp hl hr ihl ihr =>
    intro u r' s s' hw hs hd hrun
    have hs := hs.resolve_left (by subst hp; decide)
    have hv : Place.run limit ⟨.operand, s⟩ v = _ := hl.run (.inr hs) (by omega)
    obtain ⟨u, rfl, rfl⟩ | ⟨rfl, -⟩ | ⟨r', rfl, rfl⟩ := append_cons_eq_append_cons hw
    · rw [Place.run_append_of_eq hv, hs, Place.run_var_cons hs] at hrun
      exact (ihr rfl (.inr hs) (by omega) hrun).in_right hl.length_leaves fun h => .implicit hp hl h
    · -- the variable would be the factor itself, and no operand starts there
      cases hv.symm.trans hrun
    · exact (ihl rfl (.inr hs) (by omega) hrun).in_left fun h => .implicit hp h hr

/-! ## Texts -/

/-- A variable of a text is a `t` between the texts before and after it. -/
theorem text_at_variable {text : String} {us vs : List Token} {x : Token} (h : tokenize text = us ++ x :: vs)
    (hx : x.lexeme = .var) :
    ∃ p r, text.toList = p ++ 't' :: r ∧ x.offset = bytes p ∧ Scans p ('t' :: r) (lexemes us) ∧
      lex r = lexemes vs ++ [.finish] := by
  obtain ⟨y, hy, hfinish⟩ := tokens_ofString text
  rw [h, List.append_assoc, List.cons_append] at hy
  obtain ⟨p, q, hrest, hq, hscan, hoff, htokens⟩ := tokens_split hy
  have hfirst := first_of_tokens hq htokens
  cases q with
  | nil => rw [hfirst] at hx; cases hx
  | cons d q =>
    obtain ⟨more, hw, hstop⟩ := Piece.written_first d q
    have happend := Piece.first_append (d :: q)
    have hvar : (Piece.first (d :: q)).lexeme = .var := by rw [hfirst] at hx; exact hx
    have hchars : (Piece.first (d :: q)).chars = ['t'] := by
      have ht : String.ofList (Piece.first (d :: q)).chars = "t" := Piece.spelling?_first (by rw [hvar]; rfl)
      rw [← String.toList_ofList (l := (Piece.first (d :: q)).chars), ht]; rfl
    rw [hvar, hchars] at hw
    rw [hchars] at happend
    refine ⟨p, (Piece.first (d :: q)).rest, by rw [← happend] at hrest; exact hrest, ?_, ?_, ?_⟩
    · rw [hoff]; exact Nat.zero_add _
    · rw [← happend] at hscan; exact hscan
    · have hlex := congrArg lexemes htokens
      rw [lexemes_tokens, ← happend, lex_piece hw (by rintro _ ⟨⟩; rfl) hstop, lexemes_cons, lexemes_append,
        lexemes_cons, hfinish, lexemes_nil] at hlex
      exact (List.cons.inj hlex).2.symm

theorem lexemes_substitute {p r : List Char} {u v : List Lexeme} (s : String) (hp : Scans p ('t' :: r) u)
    (hr : lex r = v ++ [.finish]) :
    lexemes (tokenize (String.ofList p ++ "(" ++ s ++ ")" ++ String.ofList r)) =
      u ++ (.leftParen :: (lexemes (tokenize s) ++ [.rightParen]) ++ v) := by
  have hopen : ∀ c ∈ ("(".toList ++ (s.toList ++ (")".toList ++ r))).head?, isSeparator c := by rintro _ ⟨⟩; rfl
  have hclose : ∀ c ∈ (")".toList ++ r).head?, isSeparator c := by rintro _ ⟨⟩; rfl
  have h := (((hp.before hopen).append (Scans.leftParen _)).append ((scans_tokenize s).before hclose)).append
    (Scans.rightParen r)
  have hlex := h.lex_append
  rw [hr, ← List.append_assoc] at hlex
  have htokens := lex_toList (String.ofList p ++ "(" ++ s ++ ")" ++ String.ofList r)
  simp only [String.toList_append, String.toList_ofList] at htokens
  rw [hlex] at htokens
  simpa using (List.append_cancel_right htokens).symm

/-- An accepted text in parentheses can stand for a variable of an accepted text, unless the variable is a factor
without an operator. The tree is put in the place of that leaf, and what is open there and the group
are added to its nesting. -/
theorem parse_substitute {text s : String} {c e : Expr} {us vs : List Token} {x : Token}
    (hc : parse text = .ok c) (hs : parse s = .ok e) (htokens : tokenize text = us ++ x :: vs)
    (hx : x.lexeme = .var) (hus : endsOperand (lexemes us) = false) :
    ∃ a b p n, text = a ++ "t" ++ b ∧ x.offset = a.utf8ByteSize ∧
      Place.start.run maxDepth (lexemes us) = some p ∧ Spells .sum (lexemes (tokenize s)) e n ∧
      ((∃ c', parse (a ++ "(" ++ s ++ ")" ++ b) = .ok c') ↔ p.depth + 1 + n ≤ maxDepth) ∧
      c.leaves[(lexemes us).countP Lexeme.isLeaf]? = some (.var "t") ∧
      ∀ c', parse (a ++ "(" ++ s ++ ")" ++ b) = .ok c' →
        c' = c.replaceLeaf e ((lexemes us).countP Lexeme.isLeaf) := by
  obtain ⟨m, hm, hspells⟩ := parse_eq_ok_iff.1 hc
  obtain ⟨n, hn, hgroup⟩ := parse_eq_ok_iff.1 hs
  obtain ⟨a, b, hab, hoff, hscan, hlex⟩ := text_at_variable htokens hx
  rw [htokens, lexemes_append, lexemes_cons, hx] at hspells
  have hrun := run_start_iff.2 ⟨c, m, hm, hspells⟩
  obtain ⟨p, hp, hrest⟩ := Place.run_of_append hrun
  have hslot : p.slot = .operand := Place.slot_of_run_var hrest ((Place.isComplete_of_run hp).trans hus)
  obtain ⟨slot, o⟩ := p
  obtain rfl : slot = .operand := hslot
  obtain ⟨o, rfl, hleaf, hreplaced⟩ := (Spells.group hgroup).replace hspells rfl (.inr rfl) (by simpa using hm) hp
  have hparse : ∀ c', parse (String.ofList a ++ "(" ++ s ++ ")" ++ String.ofList b) = .ok c' ↔
      o.length + 1 + n ≤ maxDepth ∧ c' = c.replaceLeaf e ((lexemes us).countP Lexeme.isLeaf) := by
    intro c'
    rw [parse_eq_ok_iff, lexemes_substitute s hscan hlex]
    constructor
    · rintro ⟨k, hk, hw⟩
      obtain ⟨rfl, rfl⟩ := hw.unique hreplaced
      exact ⟨by omega, rfl⟩
    · rintro ⟨hd, rfl⟩
      exact ⟨_, by omega, hreplaced⟩
  refine ⟨String.ofList a, String.ofList b, ⟨.operand, o ++ []⟩, n, ?_, hoff, hp, hgroup, ?_, hleaf,
    fun c' h => ((hparse c').1 h).2⟩
  · rw [← String.toList_inj]
    simpa using hab
  · simp only [hparse, exists_and_left, exists_eq, and_true, Place.depth, List.append_nil]

/-- In `t-t` the group `(|t|)` can stand for the second variable. -/
theorem parse_substitute_bars :
    ∃ a b p n, "t-t" = a ++ "t" ++ b ∧ 2 = a.utf8ByteSize ∧
      Place.start.run maxDepth [.var, .operator .sub] = some p ∧
      Spells .sum (lexemes (tokenize "|t|")) (.unary "abs" .abs (.var "t")) n ∧
      ((∃ c', parse (a ++ "(" ++ "|t|" ++ ")" ++ b) = .ok c') ↔ p.depth + 1 + n ≤ maxDepth) ∧
      (Expr.binary "-" .sub (.var "t") (.var "t")).leaves[1]? = some (.var "t") ∧
      ∀ c', parse (a ++ "(" ++ "|t|" ++ ")" ++ b) = .ok c' →
        c' = .binary "-" .sub (.var "t") (.unary "abs" .abs (.var "t")) :=
  have hbars := (Spells.bars (Spells.var.of_operand .sum)).of_operand .sum
  have hdifference := Spells.operation (show BinaryFn.sub.tier = .difference from rfl)
    (Spells.var.of_operand .product) (Spells.var.of_operand .difference)
  have hc : parse "t-t" = .ok (.binary "-" .sub (.var "t") (.var "t")) :=
    parse_eq_ok_iff.2 ⟨_, Nat.zero_le _, .single nofun hdifference⟩
  have hs : parse "|t|" = .ok (.unary "abs" .abs (.var "t")) := parse_eq_ok_iff.2 ⟨1, by decide, hbars⟩
  have htokens : tokenize "t-t" = [⟨.var, "t", 0⟩, ⟨.operator .sub, "-", 1⟩] ++ ⟨.var, "t", 2⟩ :: [] := by rfl
  parse_substitute hc hs htokens rfl rfl

end Calculator
