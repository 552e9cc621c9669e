import Calculator.Proofs.Edits
import Calculator.Proofs.RoundTrip
import Calculator.Proofs.Substitution

/-!
# Bar pairs and calls of `abs`

A bar opens a pair exactly if no operand is complete before it, so the bars of
an accepted text are paired by what stands before each of them. With `abs(`
for each opening bar and `)` for each closing one, or with bars for any calls
of `abs`, a text has the same tree and nests as deep (`bars_are_calls`).
-/

namespace Calculator

open Text

/-! ## Calls in the place of bars -/

/-- Writes `abs(` for each opening bar and `)` for each closing one. The state is whether an operand is complete. -/
def callsForBars : Edit Bool where
  written
    | false, .bar => some "abs("
    | true, .bar => some ")"
    | _, _ => none
  next complete x := x.completes complete

theorem scans_abs (r : List Char) : Scans "abs(".toList r [.function .abs, .leftParen] := by
  have hname : Scans "abs".toList ("(".toList ++ r) [.function .abs] :=
    UnaryFn.abs.scans_name (by rintro _ ⟨⟩; rfl)
  exact hname.append (Scans.leftParen r)

theorem scans_bar (r : List Char) : Scans "|".toList r [.bar] := Scans.symbol rfl rfl rfl r

namespace callsForBars

variable {complete : Bool} {x : Lexeme} {w : List Lexeme}

theorem edited_of_ne_bar (hx : x ≠ .bar) :
    callsForBars.edited complete (x :: w) = x :: callsForBars.edited (x.completes complete) w := by
  apply Edit.edited_of_kept
  cases x with
  | bar => exact absurd rfl hx
  | _ => cases complete <;> rfl

theorem edited_opening :
    callsForBars.edited false (.bar :: w) = .function .abs :: .leftParen :: callsForBars.edited false w := by
  rw [Edit.edited_of_written rfl, (scans_abs []).lexemes_tokenize]
  rfl

theorem edited_closing : callsForBars.edited true (.bar :: w) = .rightParen :: callsForBars.edited true w := by
  rw [Edit.edited_of_written rfl, (Scans.rightParen []).lexemes_tokenize]
  rfl

theorem edited_append {t : Tier} {v : List Lexeme} {e : Expr} {n : Nat} (h : Spells t v e n) :
    callsForBars.edited false (v ++ w) = callsForBars.edited false v ++ callsForBars.edited true w := by
  have hafter : callsForBars.after false v = true := endsOperand_of_spells h
  rw [Edit.edited_append, hafter]

end callsForBars

theorem Spells.to_calls {t : Tier} {w : List Lexeme} {e : Expr} {n : Nat} (h : Spells t w e n) :
    Spells t (callsForBars.edited false w) e n := by
  open callsForBars in
  induction h with
  | constant value => exact .constant value
  | var => exact .var
  | call h ih => simpa [edited_of_ne_bar, Lexeme.completes, edited_append h] using Spells.call ih
  | group h ih => simpa [edited_of_ne_bar, Lexeme.completes, edited_append h] using Spells.group ih
  | bars h ih =>
    rw [edited_opening, edited_append h, edited_closing]
    exact .call ih
  | sign hop _ ih => simpa [edited_of_ne_bar, Lexeme.completes] using Spells.sign hop ih
  | single ht _ ih => exact .single ht ih
  | operation hfn hl _ ihl ihr =>
    simpa [edited_of_ne_bar, Lexeme.completes, edited_append hl] using Spells.operation hfn ihl ihr
  | implicit hp hl _ ihl ihr =>
    have hvar : ∀ complete w, callsForBars.edited complete (.var :: w) = .var :: callsForBars.edited true w :=
      fun _ _ => edited_of_ne_bar nofun
    rw [hvar] at ihr
    rw [edited_append hl, hvar]
    exact .implicit hp ihl ihr

/-! ## Bars in the place of calls -/

/-- The index of the lexeme that comes next, whether it is the parenthesis of a call that becomes bars, and for each
open parenthesis whether it became part of a bar. -/
structure Calls where
  index : Nat := 0
  pending : Bool := false
  opened : List Bool := []

/-- Writes bars for the calls of `abs` whose names have a chosen index. One bar stands for the name, and nothing
for the parenthesis after it. -/
def barsForCalls (chosen : Nat → Bool) : Edit Calls where
  written
    | c, .function .abs => if chosen c.index then some "|" else none
    | c, .leftParen => if c.pending then some "" else none
    | c, .rightParen => if c.opened.headD false then some "|" else none
    | _, _ => none
  next
    | ⟨i, _, s⟩, .function .abs => ⟨i + 1, chosen i, s⟩
    | ⟨i, pending, s⟩, .leftParen => ⟨i + 1, false, pending :: s⟩
    | ⟨i, _, s⟩, .rightParen => ⟨i + 1, false, s.tail⟩
    | ⟨i, _, s⟩, _ => ⟨i + 1, false, s⟩

theorem scans_empty (r : List Char) : Scans "".toList r [] := .nil

namespace barsForCalls

variable {chosen : Nat → Bool} {i : Nat} {b : Bool} {s : List Bool} {w : List Lexeme} {fn : UnaryFn}

theorem edited_leftParen : (barsForCalls chosen).edited ⟨i, b, s⟩ (.leftParen :: w) =
    (if b then [] else [.leftParen]) ++ (barsForCalls chosen).edited ⟨i + 1, false, b :: s⟩ w := by
  cases b with
  | false => rfl
  | true =>
    have hnew : (barsForCalls chosen).written ⟨i, true, s⟩ .leftParen = some "" := rfl
    rw [Edit.edited_of_written hnew, (scans_empty []).lexemes_tokenize]
    rfl

theorem edited_rightParen : (barsForCalls chosen).edited ⟨i, false, b :: s⟩ (.rightParen :: w) =
    (if b then .bar else .rightParen) :: (barsForCalls chosen).edited ⟨i + 1, false, s⟩ w := by
  cases b with
  | false => rfl
  | true =>
    have hnew : (barsForCalls chosen).written ⟨i, false, true :: s⟩ .rightParen = some "|" := rfl
    rw [Edit.edited_of_written hnew, (scans_bar []).lexemes_tokenize]
    rfl

theorem edited_chosen (h : chosen i) : (barsForCalls chosen).edited ⟨i, false, s⟩ (.function .abs :: w) =
    .bar :: (barsForCalls chosen).edited ⟨i + 1, true, s⟩ w := by
  have hnew : (barsForCalls chosen).written ⟨i, false, s⟩ (.function .abs) = some "|" := if_pos h
  rw [Edit.edited_of_written hnew, (scans_bar []).lexemes_tokenize, ← h]
  rfl

theorem edited_function (h : fn = .abs → chosen i = false) :
    (barsForCalls chosen).edited ⟨i, false, s⟩ (.function fn :: w) =
      .function fn :: (barsForCalls chosen).edited ⟨i + 1, false, s⟩ w := by
  cases fn with
  | abs =>
    have hi := h rfl
    rw [Edit.edited_of_kept (by simp [barsForCalls, hi]), ← hi]
    rfl
  | _ => rfl

theorem after_enclosed {j : Nat}
    (h : (barsForCalls chosen).after ⟨i + 1, false, b :: s⟩ w = ⟨j, false, b :: s⟩) :
    (barsForCalls chosen).after ⟨i, b, s⟩ (.leftParen :: (w ++ [.rightParen])) = ⟨j + 1, false, s⟩ := by
  rw [← List.cons_append, Edit.after_append]
  exact congrArg (Edit.after _ · [.rightParen]) h

/-- After an expression the same parentheses are open as before it. -/
theorem exists_after_eq (chosen : Nat → Bool) {t : Tier} {e : Expr} {n : Nat} (h : Spells t w e n) :
    ∀ i s, ∃ j, (barsForCalls chosen).after ⟨i, false, s⟩ w = ⟨j, false, s⟩ := by
  induction h with
  | constant | var => exact fun i s => ⟨i + 1, rfl⟩
  | @call fn _ _ _ _ ih =>
    intro i s
    have hname : ∃ b, (barsForCalls chosen).next ⟨i, false, s⟩ (.function fn) = ⟨i + 1, b, s⟩ := by
      cases fn <;> exact ⟨_, rfl⟩
    obtain ⟨b, hb⟩ := hname
    obtain ⟨j, hj⟩ := ih (i + 2) (b :: s)
    exact ⟨j + 1, by rw [Edit.after_cons, hb, after_enclosed hj]⟩
  | group _ ih =>
    intro i s
    obtain ⟨j, hj⟩ := ih (i + 1) (false :: s)
    exact ⟨j + 1, after_enclosed hj⟩
  | bars _ ih =>
    intro i s
    obtain ⟨j, hj⟩ := ih (i + 1) s
    refine ⟨j + 1, ?_⟩
    rw [← List.cons_append, Edit.after_append]
    exact congrArg (Edit.after _ · [.bar]) hj
  | sign _ _ ih => exact fun i s => ih (i + 1) s
  | single _ _ ih => exact ih
  | operation _ _ _ ihl ihr =>
    intro i s
    obtain ⟨j, hj⟩ := ihl i s
    rw [Edit.after_append, hj]
    exact ihr (j + 1) s
  | implicit _ _ _ ihl ihr =>
    intro i s
    obtain ⟨j, hj⟩ := ihl i s
    rw [Edit.after_append, hj]
    exact ihr j s

section
variable {e : Expr} {n : Nat} (h : Spells .sum w e n)
include h

/-- What becomes of a closing parenthesis is known from the one that it closes. -/
theorem edited_enclosed :
    (barsForCalls chosen).edited ⟨i, b, s⟩ (.leftParen :: (w ++ [.rightParen])) =
      (if b then [] else [.leftParen]) ++
        ((barsForCalls chosen).edited ⟨i + 1, false, b :: s⟩ w ++ [if b then .bar else .rightParen]) := by
  obtain ⟨j, hj⟩ := exists_after_eq chosen h (i + 1) (b :: s)
  rw [edited_leftParen, Edit.edited_append, hj, edited_rightParen]
  rfl

theorem edited_bars : (barsForCalls chosen).edited ⟨i, false, s⟩ (.bar :: (w ++ [.bar])) =
    .bar :: ((barsForCalls chosen).edited ⟨i + 1, false, s⟩ w ++ [.bar]) := by
  obtain ⟨j, hj⟩ := exists_after_eq chosen h (i + 1) s
  have hclose : (barsForCalls chosen).edited ⟨j, false, s⟩ [.bar] = [.bar] := rfl
  rw [← hclose, ← hj, ← Edit.edited_append]
  rfl

end

end barsForCalls

/-- The tree and the nesting stay the same, whatever calls are chosen. -/
theorem Spells.to_bars {t : Tier} {w : List Lexeme} {e : Expr} {n : Nat} (h : Spells t w e n) (chosen : Nat → Bool) :
    ∀ {i s}, Spells t ((barsForCalls chosen).edited ⟨i, false, s⟩ w) e n := by
  open barsForCalls in
  induction h with
  | constant value => exact .constant value
  | var => exact .var
  | @call fn _ _ _ h ih =>
    intro i s
    by_cases hc : fn = .abs ∧ chosen i
    · obtain ⟨rfl, hi⟩ := hc
      rw [edited_chosen hi, edited_enclosed h]
      exact .bars ih
    · rw [edited_function fun hfn => by simpa [hfn] using hc, edited_enclosed h]
      exact .call ih
  | group h ih =>
    intro i s
    rw [edited_enclosed h]
    exact .group ih
  | bars h ih =>
    intro i s
    rw [edited_bars h]
    exact .bars ih
  | sign hop _ ih =>
    intro i s
    rw [Edit.edited_of_kept rfl]
    exact .sign hop ih
  | single ht _ ih => exact .single ht ih
  | operation hfn hl _ ihl ihr =>
    intro i s
    obtain ⟨j, hj⟩ := exists_after_eq chosen hl i s
    rw [Edit.edited_append, hj, Edit.edited_of_kept rfl]
    exact .operation hfn ihl ihr
  | implicit hp hl _ ihl ihr =>
    intro i s
    obtain ⟨j, hj⟩ := exists_after_eq chosen hl i s
    rw [Edit.edited_append, hj]
    exact .implicit hp ihl ihr

/-! ## Texts -/

theorem Place.isSymbol_of_step {p : Place} {x : Lexeme} {s : List Opening} (h : p.step x = some ⟨.operand, s⟩) :
    x.isSymbol := by
  obtain ⟨slot, s'⟩ := p
  cases x with
  | constant | var | function => cases slot <;> cases h
  | finish | unknown => cases slot <;> cases h
  | _ => rfl

theorem fits_callsForBars {w : List Lexeme} {e : Expr} {n : Nat} (h : Spells .sum w e n) : callsForBars.Fits false w := by
  constructor
  · intro complete x new hnew
    cases complete <;> cases x <;> cases hnew
    · exact closed_of_scans scans_abs
    · exact closed_of_scans Scans.rightParen
  · rintro u x y v new rfl - hnew
    obtain ⟨p, hp, hx⟩ := Place.run_of_append (run_start_iff.2 ⟨e, n, Nat.le_refl n, h⟩)
    obtain ⟨-, q, hq, hrest⟩ := Place.step_of_run_cons hx
    obtain ⟨-, _, hy, -⟩ := Place.step_of_run_cons hrest
    have hstate : callsForBars.after false (u ++ [x]) = q.isComplete := by
      rw [Place.isComplete_of_step hq, Place.isComplete_of_run hp, Edit.after_append]
      rfl
    rw [hstate] at hnew
    obtain ⟨slot, s⟩ := q
    cases slot with
    | operand => exact .inl (Place.isSymbol_of_step hq)
    | argument =>
      cases y <;> cases hnew
      cases hy
    | operator =>
      cases y <;> cases hnew
      exact .inr ⟨')', rfl, rfl⟩

namespace barsForCalls

variable {chosen : Nat → Bool} {c : Calls} {x : Lexeme} {new : String}

theorem written_eq_some (h : (barsForCalls chosen).written c x = some new) :
    new = "|" ∨ new = "" ∧ c.pending := by
  simp only [barsForCalls] at h
  split at h <;> simp_all

/-- The name before a parenthesis that goes is not kept. -/
theorem written_of_pending (h : ((barsForCalls chosen).next c x).pending) : (barsForCalls chosen).written c x ≠ none := by
  cases x with
  | function fn => cases fn <;> simp_all [barsForCalls]
  | _ => simp_all [barsForCalls]

end barsForCalls

theorem fits_barsForCalls (chosen : Nat → Bool) (c : Calls) (w : List Lexeme) : (barsForCalls chosen).Fits c w := by
  constructor
  · intro c x new hnew
    rcases barsForCalls.written_eq_some hnew with rfl | ⟨rfl, -⟩
    · exact closed_of_scans scans_bar
    · exact closed_of_scans scans_empty
  · rintro u x y v new rfl hx hnew
    rcases barsForCalls.written_eq_some hnew with rfl | ⟨rfl, hpending⟩
    · exact .inr ⟨'|', rfl, rfl⟩
    · rw [Edit.after_append] at hpending
      exact absurd hx (barsForCalls.written_of_pending hpending)

section
variable {text : String} {gaps : List (List Char)} (hgaps : Gaps text gaps) {e : Expr} {n : Nat}
  (h : Spells .sum (lexemes (tokenize text)) e n)
include hgaps h

theorem spells_callsForBars : Spells .sum (lexemes (tokenize (callsForBars.text false gaps text))) e n := by
  rw [Edit.lexemes_text hgaps (fits_callsForBars h)]
  exact h.to_calls

theorem spells_barsForCalls (chosen : Nat → Bool) :
    Spells .sum (lexemes (tokenize ((barsForCalls chosen).text {} gaps text))) e n := by
  rw [Edit.lexemes_text hgaps (fits_barsForCalls chosen {} _)]
  exact h.to_bars chosen

end

/-- An accepted text has the same tree and the same nesting with `abs(` and `)` for its bars, and with bars for any
calls of `abs`. -/
theorem bars_are_calls {text : String} {e : Expr} (h : parse text = .ok e) :
    (∃ gaps, Gaps text gaps) ∧ ∃ n ≤ maxDepth, Spells .sum (lexemes (tokenize text)) e n ∧
      ∀ gaps, Gaps text gaps →
        (parse (callsForBars.text false gaps text) = .ok e ∧
          Spells .sum (lexemes (tokenize (callsForBars.text false gaps text))) e n) ∧
        ∀ chosen, parse ((barsForCalls chosen).text {} gaps text) = .ok e ∧
          Spells .sum (lexemes (tokenize ((barsForCalls chosen).text {} gaps text))) e n := by
  obtain ⟨n, hn, hspells⟩ := parse_eq_ok_iff.1 h
  refine ⟨exists_gaps text, n, hn, hspells, fun gaps hgaps => ⟨?_, fun chosen => ?_⟩⟩
  · have hcalls := spells_callsForBars hgaps hspells
    exact ⟨parse_eq_ok_iff.2 ⟨n, hn, hcalls⟩, hcalls⟩
  · have hbars := spells_barsForCalls hgaps hspells chosen
    exact ⟨parse_eq_ok_iff.2 ⟨n, hn, hbars⟩, hbars⟩

/-- The bars of `||t|-abs (t)|` can be calls, and its call can be bars. -/
theorem bars_are_calls_of_difference : ∃ e, parse "||t|-abs (t)|" = .ok e ∧ parse "abs(abs(t)-abs (t))" = .ok e ∧
    parse "||t|-| t||" = .ok e := by
  have htokens : tokenize "||t|-abs (t)|" = [⟨.bar, "|", 0⟩, ⟨.bar, "|", 1⟩, ⟨.var, "t", 2⟩, ⟨.bar, "|", 3⟩,
      ⟨.operator .sub, "-", 4⟩, ⟨.function .abs, "abs", 5⟩, ⟨.leftParen, "(", 9⟩, ⟨.var, "t", 10⟩,
      ⟨.rightParen, ")", 11⟩, ⟨.bar, "|", 12⟩] := by rfl
  have hbars := Spells.bars (Spells.var.of_operand .sum)
  have hcall := @Spells.call .abs _ _ _ (Spells.var.of_operand .sum)
  have hdifference := @Spells.operation .difference .sub _ _ _ _ _ _ rfl (hbars.of_operand _) (hcall.of_operand _)
  have hspells := (Spells.bars (hdifference.to_sum nofun)).of_operand .sum
  have h : parse "||t|-abs (t)|" = .ok (.unary "abs" .abs
      (.binary "-" .sub (.unary "abs" .abs (.var "t")) (.unary "abs" .abs (.var "t")))) := by
    apply parse_eq_ok_iff.2
    refine ⟨2, by decide, ?_⟩
    rw [htokens]
    exact hspells
  have hgaps : Gaps "||t|-abs (t)|" [[], [], [], [], [], [], [' '], [], [], [], []] := by
    refine ⟨?_, by decide, ?_⟩ <;> rw [htokens] <;> rfl
  obtain ⟨-, n, -, -, hall⟩ := bars_are_calls h
  obtain ⟨⟨hcalls, -⟩, hbars⟩ := hall _ hgaps
  have hbars := (hbars fun _ => true).1
  rw [Edit.text, htokens] at hcalls hbars
  exact ⟨_, h, hcalls, hbars⟩

end Calculator
