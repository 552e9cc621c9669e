import Calculator.Proofs.Lookahead

/-!
# Spacing

What a token means is settled by its own characters, and what a parser does by
the meanings of its tokens. So texts that differ in nothing but the blanks
around their tokens have the same tree, or the same error at the same token
(`parse_up_to_spacing`).
-/

namespace Calculator

def ParseError.moved (err : ParseError) (offset : Nat) : ParseError := ⟨err.cause, { err.token with offset }⟩

/-- Tokens of one index are the same but for where they stand if all meanings and all characters are the same. -/
theorem eq_moved_of_getElem? {ts us : List Token} {k : Nat} {x y : Token} (hlexemes : lexemes ts = lexemes us)
    (htexts : ts.map Token.text = us.map Token.text) (hx : ts[k]? = some x) (hy : us[k]? = some y) :
    y = { x with offset := y.offset } := by
  have hlexeme : (lexemes ts)[k]? = (lexemes us)[k]? := by rw [hlexemes]
  have htext : (ts.map Token.text)[k]? = (us.map Token.text)[k]? := by rw [htexts]
  simp only [lexemes, List.getElem?_map, hx, hy, Option.map_some, Option.some.injEq] at hlexeme htext
  rw [hlexeme, htext]

section
variable {text text' : String} (h : (tokenize text).map Token.text = (tokenize text').map Token.text)
include h

theorem lexemes_eq_of_slices : lexemes (tokenize text) = lexemes (tokenize text') := by
  have hfirst : ∀ text, lexemes (tokenize text) =
      ((tokenize text).map Token.text).map fun slice => (Piece.first slice.toList).lexeme := by
    intro text
    rw [List.map_map]
    apply List.map_congr_left
    intro x hx
    exact lexeme_eq_first hx
  rw [hfirst, h, ← hfirst]

theorem lexemes_tokens_eq_of_slices : lexemes (Cursor.ofString text).tokens = lexemes (Cursor.ofString text').tokens := by
  rw [tokens_eq_tokenize, tokens_eq_tokenize, lexemes_append, lexemes_append, lexemes_eq_of_slices h]
  rfl

theorem texts_tokens_eq_of_slices :
    (Cursor.ofString text).tokens.map Token.text = (Cursor.ofString text').tokens.map Token.text := by
  rw [tokens_eq_tokenize, tokens_eq_tokenize, List.map_append, List.map_append, h]
  rfl

end

/-- Texts with the same tokens but for their offsets have the same tree, or errors with the same cause at tokens with
the same index. The errors then differ in nothing but the offset. -/
theorem parse_up_to_spacing {text text' : String}
    (h : (tokenize text).map Token.text = (tokenize text').map Token.text) :
    (∃ e, parse text = .ok e ∧ parse text' = .ok e) ∨
    ∃ err offset, ∃ k : Nat, parse text = .error err ∧ parse text' = .error (err.moved offset) ∧
      (tokenize text ++ [⟨.finish, "", text.utf8ByteSize⟩])[k]? = some err.token ∧
      (tokenize text' ++ [⟨.finish, "", text'.utf8ByteSize⟩])[k]? = some (err.moved offset).token ∧
      (err.moved offset).message = err.message ∧ (err.moved offset).token.kind = err.token.kind ∧
      (err.moved offset).token.text = err.token.text ∧ (err.moved offset).help? = err.help? := by
  have hlexemes := lexemes_tokens_eq_of_slices h
  rcases Parser.parse_agree (Parser.at_ofString text) (Parser.at_ofString text') hlexemes with
    hok | ⟨cause, k, x, y, hx, hy, herr, herr'⟩
  · exact .inl hok
  · have hmoved := eq_moved_of_getElem? hlexemes (texts_tokens_eq_of_slices h) hx hy
    rw [tokens_eq_tokenize] at hx hy
    refine .inr ⟨⟨cause, x⟩, y.offset, k, herr, ?_, hx, ?_, rfl, rfl, rfl, rfl⟩
    · rw [ParseError.moved, ← hmoved]
      exact herr'
    · rw [ParseError.moved, ← hmoved]
      exact hy

/-- In `t .t` and in ` t . t` the mark is the second token, and both have its error, one byte apart. -/
theorem parse_up_to_spacing_of_mark :
    (tokenize "t .t").map Token.text = (tokenize " t . t").map Token.text ∧
      ∃ err, parse "t .t" = .error err ∧ parse " t . t" = .error (err.moved 3) ∧ err.token = ⟨.unknown, ".", 2⟩ ∧
        err.help? = some "a number may contain only one decimal marker" := by
  have hslices : (tokenize "t .t").map Token.text = (tokenize " t . t").map Token.text := by rfl
  have h : parse "t .t" = .error ⟨.expected .finish, ⟨.unknown, ".", 2⟩⟩ := by rfl
  have htokens : tokenize " t . t" = [⟨.var, "t", 1⟩, ⟨.unknown, ".", 3⟩, ⟨.var, "t", 5⟩] := by rfl
  refine ⟨hslices, _, h, ?_, rfl, rfl⟩
  rcases parse_up_to_spacing hslices with ⟨e, he, -⟩ | ⟨err, offset, k, herr, herr', -, hk, -⟩
  · cases h.symm.trans he
  · obtain rfl := Except.error.inj (h.symm.trans herr)
    obtain rfl : 3 = offset := by
      rw [htokens] at hk
      rcases k with _ | _ | _ | _ | k <;> cases hk
      rfl
    exact herr'

end Calculator
