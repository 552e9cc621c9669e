import Calculator.Proofs.Descent

/-!
# The texts that are accepted

A text is accepted exactly if its tokens spell an expression that nests no
deeper than allowed, and the tree is the one they spell (`accepted_iff_spelled`).
Every other text is refused at the first token that cannot stand where it
does (`parse_cases`).
-/

namespace Calculator

theorem Readable.eq_append {ts : List Token} (h : Readable ts) :
    ∃ x, ts = ts.dropLast ++ [x] ∧ x.lexeme = .finish := by
  induction h with
  | finish hx => exact ⟨_, rfl, hx⟩
  | cons _ _ h ih =>
    obtain ⟨y, hts, hy⟩ := ih
    refine ⟨y, ?_, hy⟩
    rw [List.dropLast_cons_of_ne_nil h.ne_nil, List.cons_append, ← hts]

theorem readable_tokens_ofString (text : String) : Readable (Cursor.ofString text).tokens :=
  Cursor.readable_tokens _ _ (Nat.lt_succ_self _)

theorem tokens_ofString (text : String) :
    ∃ x, (Cursor.ofString text).tokens = tokenize text ++ [x] ∧ x.lexeme = .finish :=
  (readable_tokens_ofString text).eq_append

theorem Parser.at_ofString (text : String) : (ofString text).At 0 (Cursor.ofString text).tokens :=
  ⟨rfl, TokenStream.ahead_ofString text, readable_tokens_ofString text⟩

/-- What a parse gives for these tokens, and where it leaves the parser. -/
theorem Parser.parse_holds {p : Parser} {ts : List Token} (h : p.At 0 ts) :
    (∃ w x e n, p.parse.1 = .ok e ∧ ts = w ++ [x] ∧ x.lexeme = .finish ∧ Spells .sum (lexemes w) e n ∧ n ≤ maxDepth ∧
      p.parse.2.At 0 [x]) ∨
    ∃ err, p.parse.1 = .error err ∧ Fails .start 0 ts err p.parse.2 := by
  have hc := Reading.complete_holds h
  unfold Parser.parse
  cases ho : Reading.complete p with
  | done e q =>
    rw [ho] at hc
    obtain ⟨w, x, n, hts, hx, hw, hn, hq⟩ := hc
    exact .inl ⟨w, x, e, n, rfl, hts, hx, hw, hn, hq⟩
  | failed err q =>
    rw [ho] at hc
    exact .inr ⟨err, rfl, hc⟩
  | exhausted => rw [ho] at hc; exact hc.elim

def Refused (text : String) (err : ParseError) : Prop :=
  ∃ w r τ, (Cursor.ofString text).tokens = w ++ err.token :: r ∧
    Place.start.run maxDepth (lexemes w) = some τ ∧ τ.Refuses err.token.lexeme err.cause

theorem parse_cases (text : String) :
    (∃ e n, parse text = .ok e ∧ Spells .sum (lexemes (tokenize text)) e n ∧ n ≤ maxDepth) ∨
      ∃ err, parse text = .error err ∧ Refused text err := by
  obtain ⟨w, x, e, n, hok, hts, -, hw, hn, -⟩ | ⟨err, herr, w, r, τ, hts, hrun, href, -⟩ :=
    Parser.parse_holds (Parser.at_ofString text)
  · obtain rfl : tokenize text = w := by rw [tokenize, hts, List.dropLast_concat]
    exact .inl ⟨e, n, hok, hw, hn⟩
  · exact .inr ⟨err, herr, w, r, τ, hts, hrun, href⟩

namespace Place

section
variable {p q : Place} {x y : Lexeme} {v w u r : List Lexeme} {cause cause' : ParseError.Cause}

theorem Refuses.run_eq_none (h : p.Refuses x cause) : p.run maxDepth (x :: w) = none := by
  by_cases hd : p.depth ≤ maxDepth
  · rw [run_cons hd, (h.of_depth_le hd).1]; rfl
  · simp [run, hd]

theorem Refuses.length_le (h : p.Refuses x cause) (hv : start.run maxDepth v = some p)
    (hw : start.run maxDepth w = some q) (heq : v ++ x :: u = w ++ r) : w.length ≤ v.length := by
  obtain ⟨s, rfl, hs⟩ | ⟨s, rfl, -⟩ := List.append_eq_append_iff.1 heq
  · obtain ⟨rfl, -⟩ | ⟨s, rfl, -⟩ := List.cons_eq_append_iff.1 hs
    · simp
    · rw [run_append_of_eq hv, h.run_eq_none] at hw
      cases hw
  · simp

theorem Refuses.ne_final (h : p.Refuses x cause) (hv : start.run maxDepth v = some p)
    (hw : start.run maxDepth w = some final) : v ++ x :: u ≠ w ++ [.finish] := by
  intro heq
  have hlen := congrArg List.length heq
  have hle := h.length_le hv hw heq
  simp only [List.length_append, List.length_cons, List.length_nil] at hlen
  obtain ⟨rfl, hcons⟩ := List.append_inj heq (by omega)
  obtain ⟨rfl, -⟩ := List.cons.inj hcons
  obtain rfl := Option.some.inj (hv.symm.trans hw)
  exact (h.of_depth_le (Nat.zero_le _)).2.2 rfl rfl

end

end Place

theorem Refused.split {text : String} {err : ParseError} (h : Refused text err) :
    ∃ w τ, Place.start.run maxDepth (lexemes w) = some τ ∧ τ.Refuses err.token.lexeme err.cause ∧
      ((∃ r, tokenize text = w ++ err.token :: r) ∨
        tokenize text = w ∧ err.token.lexeme = .finish ∧ (Cursor.ofString text).tokens = w ++ [err.token]) := by
  obtain ⟨w, r, τ, hts, hrun, href⟩ := h
  refine ⟨w, τ, hrun, href, ?_⟩
  obtain ⟨x, hx, hfin⟩ := tokens_ofString text
  rcases List.eq_nil_or_concat r with rfl | ⟨r, y, rfl⟩
  · obtain ⟨hw, hlast⟩ := List.append_inj' (hx.symm.trans hts) rfl
    obtain rfl := (List.cons.inj hlast).1
    exact .inr ⟨hw, hfin, hts⟩
  · rw [List.concat_eq_append, ← List.cons_append, ← List.append_assoc] at hts
    exact .inl ⟨r, (List.append_inj' (hx.symm.trans hts) rfl).1⟩

theorem Refused.run_ne_final {text : String} {err : ParseError} (h : Refused text err) :
    Place.start.run maxDepth (lexemes (tokenize text)) ≠ some .final := by
  intro hfinal
  obtain ⟨w, r, τ, hts, hrun, href⟩ := h
  obtain ⟨x, hx, hfin⟩ := tokens_ofString text
  have hl := congrArg lexemes (hts.symm.trans hx)
  rw [lexemes_append, lexemes_append, lexemes_cons, lexemes_cons, hfin] at hl
  exact href.ne_final hrun hfinal hl

theorem parse_eq_ok_iff {text : String} {e : Expr} :
    parse text = .ok e ↔ ∃ n, n ≤ maxDepth ∧ Spells .sum (lexemes (tokenize text)) e n := by
  constructor
  · intro h
    obtain ⟨e', n, hok, hw, hn⟩ | ⟨err, herr, -⟩ := parse_cases text
    · obtain rfl := Except.ok.inj (h.symm.trans hok)
      exact ⟨n, hn, hw⟩
    · cases h.symm.trans herr
  · rintro ⟨n, hn, hw⟩
    obtain ⟨e', n', hok, hw', hn'⟩ | ⟨err, -, href⟩ := parse_cases text
    · rw [hok, (hw.unique hw').1]
    · exact absurd (run_start_iff.2 ⟨e, n, hn, hw⟩) href.run_ne_final

/-- The accepted texts are those whose tokens the grammar spells, with the same tree; every list of lexemes
has one tree and one nesting at most. -/
theorem accepted_iff_spelled :
    (∀ text e, parse text = .ok e ↔ ∃ n, n ≤ maxDepth ∧ Spells .sum (lexemes (tokenize text)) e n) ∧
      ∀ w e e' n n', Spells .sum w e n → Spells .sum w e' n' → e = e' ∧ n = n' :=
  ⟨fun _ _ => parse_eq_ok_iff, fun _ _ _ _ _ h h' => h.unique h'⟩

end Calculator
