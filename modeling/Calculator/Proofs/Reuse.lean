import Calculator.Proofs.Scanning

/-!
# Using a parser again

A parser can be used again after any outcome. What it gives is settled by the
lexemes ahead of it (`Parser.parse_agree`), so it makes no difference what it
read before: each parse gives what a new parser gives for the text that is
left (`parse_again`).
-/

namespace Calculator

/-! ## What the lexemes ahead settle -/

namespace Place

section
variable {p q : Place} {x y : Lexeme} {v w u r : List Lexeme} {cause cause' : ParseError.Cause}

theorem Refuses.cause_eq (h : p.Refuses x cause) (h' : p.Refuses x cause') : cause = cause' := by
  unfold Refuses at h h'
  split at h
  · next hd =>
    rw [if_pos hd] at h'
    rw [h, h']
  · next hd =>
    rw [if_neg hd] at h'
    rw [h.2.1, h'.2.1]

theorem start_ne_final : start ≠ final := by decide

theorem Refuses.unique (h : p.Refuses x cause) (h' : q.Refuses y cause') (hv : start.run maxDepth v = some p)
    (hw : start.run maxDepth w = some q) (heq : v ++ x :: u = w ++ y :: r) : v.length = w.length ∧ cause = cause' := by
  have hlen := Nat.le_antisymm (h'.length_le hw hv heq.symm) (h.length_le hv hw heq)
  obtain ⟨rfl, hcons⟩ := List.append_inj heq hlen
  obtain ⟨rfl, -⟩ := List.cons.inj hcons
  obtain rfl := Option.some.inj (hv.symm.trans hw)
  exact ⟨rfl, h.cause_eq h'⟩

end

end Place

theorem length_lexemes (ts : List Token) : (lexemes ts).length = ts.length := List.length_map _

theorem Refused.unique {text : String} {err err' : ParseError} (h : Refused text err) (h' : Refused text err') :
    err = err' := by
  obtain ⟨w, r, τ, htokens, hrun, href⟩ := h
  obtain ⟨w', r', τ', htokens', hrun', href'⟩ := h'
  have heq : w ++ err.token :: r = w' ++ err'.token :: r' := htokens.symm.trans htokens'
  have hl := congrArg lexemes heq
  simp only [lexemes_append, lexemes_cons] at hl
  obtain ⟨hlen, hcause⟩ := href.unique href' hrun hrun' hl
  rw [length_lexemes, length_lexemes] at hlen
  obtain ⟨-, hcons⟩ := List.append_inj heq hlen
  obtain ⟨cause, x⟩ := err
  obtain ⟨cause', x'⟩ := err'
  obtain rfl : cause = cause' := hcause
  obtain ⟨rfl, -⟩ := List.cons.inj hcons
  rfl

theorem parse_eq_error_iff {text : String} {err : ParseError} : parse text = .error err ↔ Refused text err := by
  obtain ⟨e, n, hok, hw, hn⟩ | ⟨err', herr, href⟩ := parse_cases text
  · constructor
    · intro h
      cases h.symm.trans hok
    · intro href
      exact absurd (run_start_iff.2 ⟨e, n, hn, hw⟩) href.run_ne_final
  · constructor
    · intro h
      obtain rfl := Except.error.inj (h.symm.trans herr)
      exact href
    · intro href'
      rw [herr, href.unique href']

/-- Two parsers before tokens with the same lexemes give the same tree, or refuse the tokens of one index for the
same cause. -/
theorem Parser.parse_agree {p p' : Parser} {ts ts' : List Token} (h : p.At 0 ts) (h' : p'.At 0 ts')
    (hl : lexemes ts = lexemes ts') :
    (∃ e, p.parse.1 = .ok e ∧ p'.parse.1 = .ok e) ∨
      ∃ cause, ∃ k : Nat, ∃ x x', ts[k]? = some x ∧ ts'[k]? = some x' ∧ p.parse.1 = .error ⟨cause, x⟩ ∧
        p'.parse.1 = .error ⟨cause, x'⟩ := by
  obtain ⟨w, x, e, n, hok, rfl, hx, hw, hn, -⟩ | ⟨err, herr, w, r, τ, rfl, hrun, href, -⟩ := parse_holds h
  · have hfinal := run_start_iff.2 ⟨e, n, hn, hw⟩
    obtain ⟨w', x', e', n', hok', rfl, hx', hw', -, -⟩ | ⟨err', -, w', r', τ, rfl, hrun', href', -⟩ := parse_holds h'
    · rw [lexemes_append, lexemes_append] at hl
      have hww := (List.append_inj' hl rfl).1
      rw [hww] at hw
      obtain ⟨rfl, -⟩ := hw.unique hw'
      exact .inl ⟨e, hok, hok'⟩
    · simp only [lexemes_append, lexemes_cons, lexemes_nil, hx] at hl
      exact absurd hl.symm (href'.ne_final hrun' hfinal)
  · obtain ⟨w', x', e', n', -, rfl, hx', hw', hn', -⟩ | ⟨err', herr', w', r', τ', rfl, hrun', href', -⟩ :=
      parse_holds h'
    · have hfinal := run_start_iff.2 ⟨e', n', hn', hw'⟩
      simp only [lexemes_append, lexemes_cons, lexemes_nil, hx'] at hl
      exact absurd hl (href.ne_final hrun hfinal)
    · -- nothing is read beyond a lexeme that is refused, so both stop at the same one
      rw [lexemes_append, lexemes_append] at hl
      obtain ⟨hlen, hcause⟩ := href.unique href' hrun hrun' hl
      rw [length_lexemes, length_lexemes] at hlen
      obtain ⟨cause, x⟩ := err
      obtain ⟨cause', x'⟩ := err'
      obtain rfl : cause = cause' := hcause
      exact .inr ⟨cause, w.length, x, x', by simp, by simp [hlen], herr, herr'⟩

/-! ## The text that is left -/

def ParseError.shift (err : ParseError) (bytes : Nat) : ParseError := ⟨err.cause, err.token.shift bytes⟩

theorem Cursor.offset_le_of_mem {c : Cursor} {x : Token} (h : x ∈ c.tokens) : c.offset ≤ x.offset := by
  obtain ⟨ts, ts', hts⟩ := List.append_of_mem h
  obtain ⟨p, q, -, -, -, hoff, -⟩ := tokens_split hts
  omega

theorem Cursor.sorted_tokens : ∀ (bound : Nat) (c : Cursor), c.rest.length < bound →
    c.tokens.Pairwise fun x y => x.offset < y.offset
  | 0, _, hb => absurd hb (Nat.not_lt_zero _)
  | bound + 1, c, hb => by
    have htokens := c.tokens_eq
    cases hf : c.next.1.isFinish with
    | true =>
      rw [htokens, hf]
      exact List.pairwise_singleton _ _
    | false =>
      rw [hf, if_neg Bool.false_ne_true] at htokens
      have hlt := length_rest_next_lt hf
      rw [htokens]
      refine List.pairwise_cons.2 ⟨fun y hy => ?_, sorted_tokens bound c.next.2 (by omega)⟩
      have hle : c.next.1.stop ≤ y.offset := offset_le_of_mem hy
      obtain ⟨more, hw⟩ := written_of_mem (htokens ▸ List.mem_cons_self) fun h => by
        rw [Token.isFinish_iff.2 h] at hf
        cases hf
      have hpos := bytes_pos hw.ne_nil
      rw [bytes_toList] at hpos
      rw [Token.stop] at hle
      omega

/-- The tokens ahead from one of them on stand in a text of their own, which the whole text ends with. -/
theorem text_from {text : String} {x : Token} {ts : List Token} (h : x :: ts <:+ (Cursor.ofString text).tokens) :
    ∃ before rest, text = before ++ rest ∧ x :: ts = (⟨rest.toList, before.utf8ByteSize⟩ : Cursor).tokens := by
  obtain ⟨us, hus⟩ := h
  obtain ⟨p, q, hrest, -, -, hoff, htokens⟩ := tokens_split hus.symm
  refine ⟨String.ofList p, String.ofList q, ?_, ?_⟩
  · rw [← String.toList_inj, String.toList_append, String.toList_ofList, String.toList_ofList]
    exact hrest
  · rw [String.toList_ofList, htokens, hoff]
    exact congrArg (fun i => (⟨q, i⟩ : Cursor).tokens) (Nat.zero_add _)

theorem Parser.parse_eq_shift {p : Parser} {rest : String} {n : Nat} (h : p.At 0 (⟨rest.toList, n⟩ : Cursor).tokens) :
    p.parse.1 = (Calculator.parse rest).mapError (·.shift n) := by
  rw [Cursor.tokens_mk] at h
  obtain ⟨e, he, he'⟩ | ⟨cause, k, x, x', hx, hx', he, he'⟩ :=
    parse_agree h (at_ofString rest) (lexemes_shift _ n)
  · rw [he, Calculator.parse, he']; rfl
  · rw [List.getElem?_map, show (⟨rest.toList, 0⟩ : Cursor).tokens[k]? = some x' from hx'] at hx
    obtain rfl := Option.some.inj hx
    rw [he, Calculator.parse, he']; rfl

/-! ## The tokens that are left -/

section
variable {p : Parser} {ts : List Token}

theorem Parser.At.parse (h : p.At 0 ts) : ∃ us, p.parse.2.At 0 us ∧ us <:+ ts := by
  obtain ⟨w, x, e, n, -, rfl, -, -, -, hp⟩ | ⟨err, -, w, r, τ, rfl, -, -, hp⟩ := parse_holds h
  · exact ⟨[x], hp, List.suffix_append ..⟩
  · exact ⟨err.left r, hp, (err.left_suffix r).trans (List.suffix_append ..)⟩

/-- A token that no expression starts with is refused and, if its error does not take it, stays ahead. -/
theorem Parser.parse_of_refuses {x : Token} {cause : ParseError.Cause} (h : p.At 0 (x :: ts))
    (hx : Place.start.Refuses x.lexeme cause) (hc : cause.takes = false) :
    p.parse.1 = .error ⟨cause, x⟩ ∧ p.parse.2.At 0 (x :: ts) := by
  obtain ⟨w, y, e, n, -, hts, hy, hw, hn, -⟩ | ⟨⟨cause', y⟩, herr, w, r, τ, hts, hrun, href, hp⟩ := parse_holds h
  · have hl := congrArg lexemes hts
    rw [lexemes_append, lexemes_cons, lexemes_cons, hy] at hl
    exact absurd hl (hx.ne_final (v := []) rfl (run_start_iff.2 ⟨e, n, hn, hw⟩))
  · have hl := congrArg lexemes hts
    rw [lexemes_append, lexemes_cons, lexemes_cons] at hl
    obtain ⟨hlen, rfl⟩ := hx.unique (v := []) href rfl hrun hl
    obtain rfl : w = [] := List.eq_nil_of_length_eq_zero (by rw [← length_lexemes, ← hlen]; rfl)
    obtain ⟨rfl, rfl⟩ := List.cons.inj hts
    rw [ParseError.left_of_not_takes hc] at hp
    exact ⟨herr, hp⟩

end

theorem Place.Refuses.at_start {p : Place} {x : Lexeme} {cause : ParseError.Cause} (h : p.Refuses x cause)
    (hc : cause = .endOfInput ∨ cause = .noOperand) : start.Refuses x cause := by
  have hd : p.depth ≤ maxDepth := by
    refine Nat.le_of_not_lt fun hd => ?_
    rw [Refuses, if_pos hd] at h
    obtain rfl | rfl := hc <;> cases h
  obtain ⟨hs, hb, -⟩ := h.of_depth_le hd
  obtain ⟨slot, s⟩ := p
  -- only a place for an operand blames these, and it does so whatever is open
  cases slot with
  | operand =>
    cases x with
    | operator op => rw [hb] at hc; obtain hc | hc := hc <;> cases hc
    | finish | rightParen | unknown => exact refuses_of_step (Nat.zero_le _) rfl hb.symm fun _ => start_ne_final
    | _ => cases hs
  | argument => rw [hb] at hc; obtain hc | hc := hc <;> cases hc
  | operator =>
    rw [hb] at hc
    cases s with
    | nil => obtain hc | hc := hc <;> cases hc
    | cons o s => cases o <;> obtain hc | hc := hc <;> cases hc

/-! ## Many parses -/

def Parser.used (text : String) : Nat → Parser
  | 0 => ofString text
  | n + 1 => (used text n).parse.2

section
variable {text : String} {n : Nat}

theorem Parser.used_at (text : String) (n : Nat) :
    (used text n).At 0 (used text n).stream.ahead ∧ (used text n).stream.ahead <:+ (Cursor.ofString text).tokens := by
  induction n with
  | zero =>
    have h := at_ofString text
    exact ⟨h.ahead.symm ▸ h, h.ahead.symm ▸ List.suffix_refl _⟩
  | succ n ih =>
    obtain ⟨h, hsuffix⟩ := ih
    obtain ⟨us, hp, hus⟩ := h.parse
    have hahead : (used text (n + 1)).stream.ahead = us := hp.ahead
    exact ⟨hahead.symm ▸ hp, hahead.symm ▸ hus.trans hsuffix⟩

theorem Parser.used_stuck {x : Token} {ts : List Token} {cause : ParseError.Cause} (h : (used text n).At 0 (x :: ts))
    (hx : Place.start.Refuses x.lexeme cause) (hc : cause.takes = false) (later : Nat) :
    (used text (n + later)).parse.1 = .error ⟨cause, x⟩ := by
  have hat : (used text (n + later)).At 0 (x :: ts) := by
    induction later with
    | zero => exact h
    | succ later ih => exact (parse_of_refuses ih hx hc).2
  exact (parse_of_refuses hat hx hc).1

end

/-- Before each parse a parser has nothing open, and it gives what a new parser gives for the text that is left, with
the places of the whole text. A tree leaves nothing but the end, which every later parse refuses. An error leaves the
tokens after its own or from there on, as its cause says; one where an operand should start is met by every later
parse. -/
theorem parse_again (text : String) (n : Nat) :
    (Parser.used text n).depth = 0 ∧
    (∃ before rest, text = before ++ rest ∧
      (Parser.used text n).stream.ahead = (⟨rest.toList, before.utf8ByteSize⟩ : Cursor).tokens ∧
      (Parser.used text n).parse.1 = (parse rest).mapError (·.shift before.utf8ByteSize)) ∧
    (∀ e, (Parser.used text n).parse.1 = .ok e →
      (Parser.used text (n + 1)).stream.ahead = [⟨.finish, "", text.utf8ByteSize⟩] ∧
      ∀ later, ∃ err, (Parser.used text (n + 1 + later)).parse.1 = .error err ∧ err.cause = .endOfInput ∧
        err.token = ⟨.finish, "", text.utf8ByteSize⟩ ∧ err.message = "unexpected end of input") ∧
    ∀ err, (Parser.used text n).parse.1 = .error err →
      (∃ w r, (Parser.used text n).stream.ahead = w ++ err.token :: r ∧ err.token ∉ w ∧
        (Parser.used text (n + 1)).stream.ahead =
          if err.cause.takes ∧ err.token.lexeme ≠ .finish then r else err.token :: r) ∧
      (err.cause = .endOfInput ∨ err.cause = .noOperand →
        ∀ later, (Parser.used text (n + later)).parse.1 = .error err) := by
  obtain ⟨h, hsuffix⟩ := Parser.used_at text n
  refine ⟨h.depth, ?_, fun e hok => ?_, fun err herr => ?_⟩
  · obtain ⟨x, ts, hx⟩ := List.exists_cons_of_ne_nil h.readable.ne_nil
    rw [hx] at hsuffix
    obtain ⟨before, rest, htext, htokens⟩ := text_from hsuffix
    rw [hx, htokens] at h
    exact ⟨before, rest, htext, hx.trans htokens, Parser.parse_eq_shift h⟩
  · obtain ⟨w, x, e', m, -, hts, hx, -, -, hafter⟩ | ⟨err, herr, -⟩ := Parser.parse_holds h
    · obtain ⟨us, hus⟩ := hsuffix
      rw [hts, ← List.append_assoc] at hus
      obtain rfl := finish_of_tokens hus.symm hx
      have hrefuses : Place.start.Refuses .finish .endOfInput :=
        Place.refuses_of_step (Nat.zero_le _) rfl rfl fun _ => Place.start_ne_final
      exact ⟨hafter.ahead, fun later => ⟨_, Parser.used_stuck (n := n + 1) hafter hrefuses rfl later, rfl, rfl, rfl⟩⟩
    · cases hok.symm.trans herr
  · obtain ⟨w, x, e, m, hok, -⟩ | ⟨err', herr', w, r, τ, hts, -, href, hafter⟩ := Parser.parse_holds h
    · cases herr.symm.trans hok
    obtain rfl : err = err' := Except.error.inj (herr.symm.trans herr')
    refine ⟨⟨w, r, hts, fun hmem => ?_, hafter.ahead⟩, fun hc later => ?_⟩
    · have hsorted := (Cursor.sorted_tokens _ _ (Nat.lt_succ_self _)).sublist hsuffix.sublist
      rw [hts] at hsorted
      exact Nat.lt_irrefl _ ((List.pairwise_append.1 hsorted).2.2 _ hmem _ List.mem_cons_self)
    · have htakes : err.cause.takes = false := by obtain h | h := hc <;> rw [h] <;> rfl
      rw [ParseError.left_of_not_takes htakes] at hafter
      cases later with
      | zero => exact herr
      | succ later =>
        rw [Nat.add_comm later, ← Nat.add_assoc]
        exact Parser.used_stuck (n := n + 1) hafter (href.at_start hc) htakes later

end Calculator
