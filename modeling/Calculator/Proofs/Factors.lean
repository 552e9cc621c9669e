import Calculator.Proofs.Edits
import Calculator.Proofs.Root
import Calculator.Proofs.Seams

/-!
# Factors with and without a sign

A variable right after an operand is a factor, with a `*` before it or
without (`product_sign_optional`). For writing the signs that are left out
changes no tree and no nesting (`Spells.to_signed`), and lists that differ in
one such sign are the same after that.
-/

namespace Calculator

open Text

/-! ## Signs that are left out -/

/-- The sign that is left out before a lexeme, after a complete operand or not. -/
def Lexeme.omitted : Bool → Lexeme → List Lexeme
  | true, var => [operator .mul]
  | _, _ => []

def signed : Bool → List Lexeme → List Lexeme
  | _, [] => []
  | complete, x :: w => x.omitted complete ++ x :: signed (x.completes complete) w

theorem signed_append_eq (v w : List Lexeme) (complete : Bool) :
    signed complete (v ++ w) = signed complete v ++ signed (v.foldl Lexeme.completes complete) w := by
  induction v generalizing complete with
  | nil => rfl
  | cons x v ih => simp [signed, ih]

theorem signed_false_cons (x : Lexeme) (w : List Lexeme) :
    signed false (x :: w) = x :: signed (x.completes false) w := rfl

theorem signed_var_cons (w : List Lexeme) :
    signed true (.var :: w) = .operator .mul :: .var :: signed true w := rfl

theorem signed_operator_cons (complete : Bool) (fn : BinaryFn) (w : List Lexeme) :
    signed complete (.operator fn :: w) = .operator fn :: signed false w := by
  cases complete <;> rfl

theorem Spells.signed_append {t : Tier} {v : List Lexeme} {e : Expr} {n : Nat} (h : Spells t v e n) (w : List Lexeme) :
    signed false (v ++ w) = signed false v ++ signed true w := by
  rw [signed_append_eq, ← endsOperand, endsOperand_of_spells h]

theorem Spells.to_signed {t : Tier} {w : List Lexeme} {e : Expr} {n : Nat} (h : Spells t w e n) :
    Spells t (signed false w) e n := by
  induction h with
  | constant value => exact .constant value
  | var => exact .var
  | call h ih =>
    simp only [signed_false_cons, Lexeme.completes, h.signed_append]
    exact .call ih
  | group h ih =>
    simp only [signed_false_cons, Lexeme.completes, h.signed_append]
    exact .group ih
  | bars h ih =>
    -- the second bar comes after a complete operand, and no sign is left out before it
    simp only [signed_false_cons, Lexeme.completes, h.signed_append]
    exact .bars ih
  | sign hop _ ih =>
    rw [signed_operator_cons]
    exact .sign hop ih
  | single ht _ ih => exact .single ht ih
  | operation hfn hl _ ihl ihr =>
    rw [hl.signed_append, signed_operator_cons]
    exact .operation hfn ihl ihr
  | implicit hp hl _ ihl ihr =>
    rw [hl.signed_append, signed_var_cons]
    exact @Spells.operation _ .mul _ _ _ _ _ _ hp.symm ihl ihr

/-- Of two lists that are the same with all signs one is an expression if the other is, and has the same tree,
provided that it leads to the same place. -/
theorem Spells.of_signed_eq {v w : List Lexeme} {e : Expr} {n : Nat} (h : Spells .sum v e n)
    (hsigned : signed false v = signed false w) (hsteps : Place.start.steps v = Place.start.steps w) :
    Spells .sum w e n := by
  have hfinal : Place.start.steps v = some .final := steps_start_iff.2 ⟨e, n, h⟩
  rw [hsteps] at hfinal
  obtain ⟨e', n', hw⟩ := steps_start_iff.1 hfinal
  have hv := h.to_signed
  rw [hsigned] at hv
  obtain ⟨rfl, rfl⟩ := hv.unique hw.to_signed
  exact hw

/-! ## One sign -/

theorem Place.isComplete_of_steps {p : Place} {w : List Lexeme} (h : start.steps w = some p) :
    p.isComplete = endsOperand w :=
  isComplete_of_run (run_length_of_steps h)

section
variable {u r : List Lexeme} (hu : endsOperand u)
include hu

theorem signed_mul_var : signed false (u ++ .operator .mul :: .var :: r) = signed false (u ++ .var :: r) := by
  have hstate : u.foldl Lexeme.completes false = true := hu
  rw [signed_append_eq, signed_append_eq, hstate]
  rfl

theorem steps_mul_var : Place.start.steps (u ++ .operator .mul :: .var :: r) = Place.start.steps (u ++ .var :: r) := by
  rw [Place.steps_append, Place.steps_append]
  cases hp : Place.start.steps u with
  | none => rfl
  | some p =>
    have hslot : p.slot = .operator := by simpa [hu, Place.isComplete] using Place.isComplete_of_steps hp
    have hsettle := Place.settled_start.run (Place.run_length_of_steps hp) hslot
    obtain ⟨slot, s⟩ := p
    obtain rfl : slot = .operator := hslot
    rw [Option.bind_some, Option.bind_some, Place.steps_cons_of_step rfl, Place.steps_var_cons hsettle]

theorem spells_mul_var_iff {e : Expr} {n : Nat} :
    Spells .sum (u ++ .operator .mul :: .var :: r) e n ↔ Spells .sum (u ++ .var :: r) e n :=
  ⟨fun h => h.of_signed_eq (signed_mul_var hu) (steps_mul_var hu),
    fun h => h.of_signed_eq (signed_mul_var hu).symm (steps_mul_var hu).symm⟩

end

/-- As a `*` is no sign, an operand is complete before it. -/
theorem endsOperand_of_mul {u r : List Lexeme} {e : Expr} {n : Nat} (h : Spells .sum (u ++ .operator .mul :: r) e n) :
    endsOperand u := by
  obtain ⟨p, hp, hr⟩ := Place.steps_of_append (steps_start_iff.2 ⟨e, n, h⟩)
  obtain ⟨q, hq, -⟩ := Place.steps_of_cons hr
  rw [← Place.isComplete_of_steps hp]
  obtain ⟨slot, s⟩ := p
  cases slot with
  | operator => rfl
  | _ => cases hq

/-! ## Texts -/

theorem lexemes_insert {s : String} (a b : String) (hs : Closed s) (hsep : ∃ c ∈ s.toList.head?, isSeparator c) :
    lexemes (tokenize (a ++ s ++ b)) = lexemes (tokenize a) ++ lexemes (tokenize s) ++ lexemes (tokenize b) := by
  obtain ⟨c, hc, hsep⟩ := hsep
  obtain ⟨p, hp⟩ := List.head?_eq_some_iff.1 hc
  have hbefore : Scans a.toList (s.toList ++ (b.toList ++ [])) (lexemes (tokenize a)) := by
    apply (scans_tokenize a).before
    rw [hp]
    rintro _ ⟨⟩
    exact hsep
  have h := (hbefore.append (hs _)).append (scans_tokenize b)
  apply Scans.lexemes_tokenize
  simpa using h

theorem lexemes_insert_blank {c : Char} (a b : String) (hc : isBlank c) :
    lexemes (tokenize (a ++ String.singleton c ++ b)) = lexemes (tokenize a) ++ lexemes (tokenize b) := by
  rw [tokenize_append_blank a b hc, lexemes_append, lexemes_shift]

theorem lexemes_insert_mul (a b : String) :
    lexemes (tokenize (a ++ "*" ++ b)) = lexemes (tokenize a) ++ .operator .mul :: lexemes (tokenize b) := by
  have hscans : ∀ r, Scans "*".toList r [.operator .mul] := Scans.symbol rfl rfl rfl
  rw [lexemes_insert a b (closed_of_scans hscans) ⟨'*', rfl, rfl⟩, (hscans []).lexemes_tokenize, List.append_assoc]
  rfl

/-- In an accepted text a `*` before a variable can be a blank instead, and before a variable with an operand right
before it a `*` can be put in. Neither changes the tree. -/
theorem product_sign_optional {text : String} {e : Expr} (h : parse text = .ok e) :
    (∀ us x y vs, tokenize text = us ++ x :: y :: vs → x.lexeme = .operator .mul → y.lexeme = .var →
      ∃ a b, text = a ++ "*" ++ b ∧ x.offset = a.utf8ByteSize ∧
        ∀ c, isBlank c → parse (a ++ String.singleton c ++ b) = .ok e) ∧
    (∀ us y vs, tokenize text = us ++ y :: vs → y.lexeme = .var → endsOperand (lexemes us) →
      ∃ a b, text = a ++ b ∧ y.offset = a.utf8ByteSize ∧ parse (a ++ "*" ++ b) = .ok e) := by
  obtain ⟨n, hn, hspells⟩ := parse_eq_ok_iff.1 h
  constructor
  · intro us x y vs htokens hx hy
    obtain ⟨a, b, htext, hoff, ha, hb, -⟩ := text_at_token htokens
    have hsign : x.text = "*" := spelled_of_mem_tokenize (by rw [htokens]; simp) _ (by rw [hx]; rfl)
    rw [hsign] at htext
    rw [htokens, lexemes_append, lexemes_cons, lexemes_cons, hx, hy] at hspells
    refine ⟨a, b, htext, hoff, fun c hc => parse_eq_ok_iff.2 ⟨n, hn, ?_⟩⟩
    rw [lexemes_insert_blank a b hc, ha, hb, lexemes_cons, hy]
    exact (spells_mul_var_iff (endsOperand_of_mul hspells)).1 hspells
  · intro us y vs htokens hy hus
    obtain ⟨a, b, htext, hoff, ha, -, hb⟩ := text_at_token htokens
    rw [htokens, lexemes_append, lexemes_cons, hy] at hspells
    refine ⟨a, y.text ++ b, ?_, hoff, parse_eq_ok_iff.2 ⟨n, hn, ?_⟩⟩
    · rw [htext, String.append_assoc]
    · rw [lexemes_insert_mul, ha, hb, lexemes_cons, hy]
      exact (spells_mul_var_iff hus).2 hspells

theorem product_sign_optional_before_power :
    ∃ e, parse "t/t*t t^t" = .ok e ∧
      (∃ a b, "t/t*t t^t" = a ++ "*" ++ b ∧ 3 = a.utf8ByteSize ∧
        ∀ c, isBlank c → parse (a ++ String.singleton c ++ b) = .ok e) ∧
      ∃ a b, "t/t*t t^t" = a ++ b ∧ 6 = a.utf8ByteSize ∧ parse (a ++ "*" ++ b) = .ok e := by
  have htokens : tokenize "t/t*t t^t" = [⟨.var, "t", 0⟩, ⟨.operator .div, "/", 1⟩, ⟨.var, "t", 2⟩,
      ⟨.operator .mul, "*", 3⟩, ⟨.var, "t", 4⟩, ⟨.var, "t", 6⟩, ⟨.operator .pow, "^", 7⟩, ⟨.var, "t", 8⟩] := by rfl
  have hpower := @Spells.operation .power .pow _ _ _ _ _ _ rfl Spells.var (Spells.var.of_operand _)
  have hquotient := @Spells.operation .quotient .div _ _ _ _ _ _ rfl (Spells.var.of_operand _) (Spells.var.of_operand _)
  have hproduct := Spells.implicit rfl (Spells.var.of_operand _) (.single nofun (.single nofun hpower))
  have hspells := (@Spells.operation .product .mul _ _ _ _ _ _ rfl hquotient hproduct).to_sum nofun
  have h : parse "t/t*t t^t" = .ok (.binary "*" .mul (.binary "/" .div (.var "t") (.var "t"))
      (.binary "*" .mul (.var "t") (.binary "^" .pow (.var "t") (.var "t")))) := by
    apply parse_eq_ok_iff.2
    refine ⟨0, Nat.zero_le _, ?_⟩
    rw [htokens]
    exact hspells
  obtain ⟨hblank, hsign⟩ := product_sign_optional h
  exact ⟨_, h, hblank [_, _, _] _ _ [_, _, _] htokens rfl rfl, hsign [_, _, _, _, _] _ [_, _] htokens rfl rfl⟩

end Calculator
