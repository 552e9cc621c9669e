import Calculator.Proofs.Scanning

/-!
# Where a text is refused

The parser refuses a text at the first token that no expression has after
the tokens before it (`error_at_first_impossible`). The nesting limit is the
one other ground, and no part of the grammar.
-/

namespace Calculator

/-- Some expression starts with these lexemes, however deep it nests. -/
def Viable (w : List Lexeme) : Prop := ∃ u e n, Spells .sum (w ++ u) e n

namespace Place

variable {limit : Nat} {p : Place} {x : Lexeme} {w : List Lexeme}

theorem viable_of_run (h : start.run limit w = some p) (hd : p.depth ≤ limit) : Viable w := by
  -- a call that waits for its parenthesis needs one level more to be completed
  have hrun := run_mono (Nat.le_succ limit) h
  have hend : run (limit + 1) start (w ++ p.completion) = some final := by
    rw [run_append_of_eq hrun]
    exact run_completion (settled_start.run h) (Nat.lt_succ_of_le hd)
  obtain ⟨e, n, -, hw⟩ := run_start_iff.1 hend
  exact ⟨p.completion, e, n, hw⟩

theorem not_viable_of_step_eq_none (h : start.run limit w = some p) (hs : p.step x = none) :
    ¬ Viable (w ++ [x]) := by
  rintro ⟨u, e, n, hw⟩
  have hend := run_start_iff.2 ⟨e, n, Nat.le_max_left n limit, hw⟩
  rw [List.append_assoc, run_append_of_eq (run_mono (Nat.le_max_right n limit) h)] at hend
  obtain ⟨-, q, hq, -⟩ := step_of_run_cons hend
  cases hs.symm.trans hq

theorem not_spells_of_ne_final (h : start.run limit w = some p) (hp : p ≠ final) (e : Expr) (n : Nat) :
    ¬ Spells .sum w e n := by
  intro hw
  have hend := run_start_iff.2 ⟨e, n, Nat.le_max_left n limit, hw⟩
  rw [run_mono (Nat.le_max_right n limit) h] at hend
  exact hp (Option.some.inj hend)

theorem Refuses.depth_le {cause : ParseError.Cause} (h : p.Refuses x cause) (hc : cause ≠ .tooDeep) :
    p.depth ≤ maxDepth := by
  refine Nat.le_of_not_lt fun hd => ?_
  rw [Refuses, if_pos hd] at h
  exact hc h

end Place

/-- The token of an error is the first one that no expression has there, or the end of a text that is
no expression. -/
theorem error_at_first_impossible {text : String} {err : ParseError} (h : parse text = .error err)
    (hc : err.cause ≠ .tooDeep) :
    ∃ k, Viable (lexemes ((tokenize text).take k)) ∧
      ((tokenize text)[k]? = some err.token ∧ ¬ Viable (lexemes ((tokenize text).take (k + 1))) ∨
        k = (tokenize text).length ∧ err.token = ⟨.finish, "", text.utf8ByteSize⟩ ∧
          err.token.stop = text.utf8ByteSize ∧ ∀ e n, ¬ Spells .sum (lexemes (tokenize text)) e n) := by
  obtain ⟨e, n, hok, -⟩ | ⟨err', herr, href⟩ := parse_cases text
  · cases h.symm.trans hok
  · obtain rfl := Except.error.inj (h.symm.trans herr)
    obtain ⟨w, p, hrun, hp, hw⟩ := href.split
    have hd := hp.depth_le hc
    obtain ⟨hs, -, hfinal⟩ := hp.of_depth_le hd
    refine ⟨w.length, ?_⟩
    obtain ⟨r, hw⟩ | ⟨hw, hfin, htokens⟩ := hw
    · have htake : (tokenize text).take (w.length + 1) = w ++ [err.token] := by
        simp [hw, List.take_append, List.take_of_length_le]
      refine ⟨?_, .inl ⟨by simp [hw], ?_⟩⟩
      · rw [hw, List.take_left]
        exact Place.viable_of_run hrun hd
      · rw [htake, lexemes_append]
        exact Place.not_viable_of_step_eq_none hrun hs
    · have htoken := finish_of_tokens htokens hfin
      refine ⟨?_, .inr ⟨by rw [hw], htoken, ?_, ?_⟩⟩
      · rw [hw, List.take_length]
        exact Place.viable_of_run hrun hd
      · rw [htoken]; rfl
      · rw [hw]
        exact Place.not_spells_of_ne_final hrun (hfinal hfin)

/-- In `|t)` the parenthesis is the first token that no expression has there. -/
theorem error_at_closing_parenthesis :
    parse "|t)" = .error ⟨.expected .bar, ⟨.rightParen, ")", 2⟩⟩ ∧
      ∃ k, Viable (lexemes ((tokenize "|t)").take k)) ∧
        ((tokenize "|t)")[k]? = some ⟨.rightParen, ")", 2⟩ ∧ ¬ Viable (lexemes ((tokenize "|t)").take (k + 1))) ∨
          k = (tokenize "|t)").length ∧ (⟨.rightParen, ")", 2⟩ : Token) = ⟨.finish, "", "|t)".utf8ByteSize⟩ ∧
            Token.stop ⟨.rightParen, ")", 2⟩ = "|t)".utf8ByteSize ∧
              ∀ e n, ¬ Spells .sum (lexemes (tokenize "|t)")) e n) :=
  have h : parse "|t)" = .error ⟨.expected .bar, ⟨.rightParen, ")", 2⟩⟩ := by rfl
  ⟨h, error_at_first_impossible h nofun⟩

end Calculator
