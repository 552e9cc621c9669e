import Calculator.Proofs.Reuse
import Calculator.Proofs.Segmentation
import Calculator.Proofs.Steps

/-!
# What an error expects

An error says what should stand in the place of its token. With that token
the text before would do: it is accepted by itself where the end of the text
is expected, and with the parenthesis or the bar and whatever closes the
other constructs where one of these is (`expected_is_accepted`).
-/

namespace Calculator

open Text

/-! ## Closing what is open -/

def Opening.closing : Opening → String
  | group => ")"
  | bars => "|"
  | sign => ""

def closing : List Opening → String
  | [] => ""
  | o :: s => o.closing ++ closing s

theorem isSeparator_closing (s : List Opening) : ∀ c ∈ (closing s).toList.head?, isSeparator c := by
  induction s with
  | nil => simp [closing]
  | cons o s ih =>
    rw [closing, String.toList_append]
    cases o with
    | group => rintro _ ⟨⟩; rfl
    | bars => rintro _ ⟨⟩; rfl
    | sign => exact ih

theorem scans_closing (s : List Opening) : Scans (closing s).toList [] (closers s) := by
  induction s with
  | nil => exact .nil
  | cons o s ih =>
    rw [closing, String.toList_append]
    cases o with
    | group => exact (Scans.rightParen _).append ih
    | bars => exact Scans.append (.symbol rfl rfl rfl _) ih
    | sign => exact ih

theorem lexemes_closing (text : String) (s : List Opening) :
    lexemes (tokenize (text ++ closing s)) = lexemes (tokenize text) ++ closers s := by
  have hscan := (scans_tokenize text).before (isSeparator_closing s)
  rw [← List.append_nil (closing s).toList] at hscan
  apply Scans.lexemes_tokenize
  rw [String.toList_append]
  exact hscan.append (scans_closing s)

/-- A text that ends after an operand is accepted once all of its constructs are closed. -/
theorem parse_closing {text : String} {s : List Opening}
    (h : Place.start.run maxDepth (lexemes (tokenize text)) = some ⟨.operator, s⟩) (hs : settle s = s)
    (hd : s.length ≤ maxDepth) : ∃ e, parse (text ++ closing s) = .ok e := by
  have hclosers := Place.run_closers hd
  rw [hs] at hclosers
  have hrun : Place.start.run maxDepth (lexemes (tokenize (text ++ closing s))) = some .final := by
    rw [lexemes_closing, Place.run_append_of_eq h, hclosers]
  obtain ⟨e, n, hn, hw⟩ := run_start_iff.1 hrun
  exact ⟨e, parse_eq_ok_iff.2 ⟨n, hn, hw⟩⟩

/-! ## Messages -/

theorem Written.not_blank {x : Lexeme} {p : List Char} {more : Char → Bool} (h : Written x p more)
    (hp : ∀ c ∈ p.head?, isBlank c = false) : ∀ c ∈ p, isBlank c = false := by
  have hdigits : ∀ q : List Char, q.all Char.isDigit → ∀ c ∈ q, isBlank c = false :=
    fun q hq c hc => not_isBlank_of_isDigit (List.all_eq_true.1 hq c hc)
  cases h with
  | whole _ hq => exact hdigits p hq
  | @decimal p q mark _ hwhole hm hq =>
    intro c hc
    rcases List.mem_append.1 hc with hc | hc
    · exact hdigits p hwhole c hc
    · rcases List.mem_cons.1 hc with rfl | hc
      · simp only [isDecimalMark, Bool.or_eq_true, beq_iff_eq] at hm
        rcases hm with rfl | rfl <;> rfl
      · exact hdigits q hq c hc
  | word _ hq => exact fun c hc => isBlank_of_isLetter (List.all_eq_true.1 hq c hc)
  | symbol =>
    intro c hc
    obtain rfl := List.mem_singleton.1 hc
    exact hp _ rfl

theorem blank_not_mem_text {text : String} {x : Token} (h : x ∈ (Cursor.ofString text).tokens) :
    ' ' ∉ x.text.toList := by
  intro hmem
  rw [tokens_eq_tokenize] at h
  rcases List.mem_append.1 h with h | h
  · obtain ⟨more, hw, hhead⟩ := (cuts_tokenize text).written x h
    cases hw.not_blank hhead _ hmem
  · obtain rfl := List.mem_singleton.1 h
    cases hmem

def upToBlank (s : String) : List Char := s.toList.reverse.dropWhile (· ≠ ' ')

theorem upToBlank_append (s : String) {t : String} (h : ' ' ∈ t.toList) :
    upToBlank (s ++ t) = upToBlank t ++ s.toList.reverse := by
  rw [upToBlank, upToBlank, String.toList_append, List.reverse_append, List.dropWhile_append, if_neg]
  intro hempty
  rw [List.isEmpty_iff] at hempty
  have hall := List.takeWhile_append_dropWhile (p := (· ≠ ' ')) (l := t.toList.reverse)
  rw [hempty, List.append_nil] at hall
  have hblank : (t.toList.reverse.takeWhile (· ≠ ' ')).all (· ≠ ' ') := List.all_takeWhile
  rw [hall, List.all_eq_true] at hblank
  simpa using hblank ' ' (List.mem_reverse.2 h)

theorem upToBlank_quoted {text : String} (h : ' ' ∉ text.toList) : upToBlank (" '" ++ text ++ "'") = [' '] := by
  have hall : ('\'' :: text.toList.reverse ++ ['\'']).all (· ≠ ' ') := by
    rw [List.all_eq_true]
    intro c hc
    simp only [List.cons_append, List.mem_cons, List.mem_append, List.mem_reverse, List.not_mem_nil, or_false] at hc
    rcases hc with rfl | hc | rfl
    · rfl
    · exact decide_eq_true fun hblank => h (hblank ▸ hc)
    · rfl
  have hrev : (" '" ++ text ++ "'").toList.reverse = '\'' :: text.toList.reverse ++ ['\''] ++ [' '] := by
    simp [String.toList_append]
  rw [upToBlank, hrev]
  exact dropWhile_append_of_stop hall (by simp)

theorem suffix_or_suffix {s t u v : String} (h : s ++ t = u ++ v) :
    t.toList <:+ v.toList ∨ v.toList <:+ t.toList := by
  have hl := congrArg String.toList h
  rw [String.toList_append, String.toList_append] at hl
  rcases List.append_eq_append_iff.1 hl with ⟨e, -, he⟩ | ⟨e, -, he⟩
  · exact .inr ⟨e, he.symm⟩
  · exact .inl ⟨e, he.symm⟩

namespace ParseError

def expectation (kind : Kind) : String := ", expected " ++ kind.name

theorem expectation_injective {kind kind' : Kind} (h : (expectation kind).toList <:+ (expectation kind').toList ∨
    (expectation kind').toList <:+ (expectation kind).toList) : kind = kind' := by
  revert h
  cases kind <;> cases kind' <;> decide

theorem not_suffix_expectation (kind : Kind) : ∀ s ∈ ["unexpected end of input", "', expected either '+' or '-'",
    "expression nested too deeply"],
    ¬ (s.toList <:+ (expectation kind).toList ∨ (expectation kind).toList <:+ s.toList) := by
  cases kind <;> decide

theorem cause_of_message {err : ParseError} {kind : Kind} {m : String} (htext : ' ' ∉ err.token.text.toList)
    (h : err.message = m ++ expectation kind) : err.cause = .expected kind := by
  obtain ⟨cause, token⟩ := err
  have hnot := not_suffix_expectation kind
  cases cause with
  | expected kind' =>
    have hends := suffix_or_suffix ((String.append_assoc ..).symm.trans h)
    rw [expectation_injective hends]
  | noOperand =>
    -- the token is the last word of the message, and another word stands before it than before an expectation
    have hsplit : "unexpected token" ++ (" '" ++ token.text ++ "'") = m ++ expectation kind := by
      rw [← h, message, ← String.append_assoc, ← String.append_assoc]
      rfl
    have hcut := congrArg upToBlank hsplit
    rw [upToBlank_append _ (by simp), upToBlank_quoted htext,
      upToBlank_append _ (by cases kind <;> decide)] at hcut
    have hword := congrArg (·[1]?) hcut
    cases kind <;> cases hword
  | endOfInput =>
    have hends := suffix_or_suffix ((String.empty_append (s := "unexpected end of input")).trans h)
    exact absurd hends (hnot _ (by simp))
  | misplacedOperator => exact absurd (suffix_or_suffix h) (hnot _ (by simp))
  | tooDeep =>
    have hends := suffix_or_suffix ((String.empty_append (s := "expression nested too deeply")).trans h)
    exact absurd hends (hnot _ (by simp))

end ParseError

/-! ## The place before the token -/

theorem settle_sign_ne (s : List Opening) : settle (.sign :: s) ≠ .sign :: s := by
  intro h
  have hle := length_settle_le s
  have hlen := congrArg List.length h
  rw [settle_sign, List.length_cons] at hlen
  omega

/-- After an operand the end is expected if nothing is open, and else what closes the innermost construct. -/
theorem Place.Refuses.of_expected {p : Place} {x : Lexeme} {kind : Kind} (h : p.Refuses x (.expected kind))
    (hp : p.Settled) (hkind : kind ≠ .leftParen) :
    p.depth ≤ maxDepth ∧ ∃ s, p = ⟨.operator, s⟩ ∧
      (s = [] ∧ kind = .finish ∨ ∃ o s', s = o :: s' ∧ o.closer?.map Lexeme.kind = some kind) := by
  have hd : p.depth ≤ maxDepth := h.depth_le nofun
  refine ⟨hd, ?_⟩
  obtain ⟨-, hblame, -⟩ := h.of_depth_le hd
  obtain ⟨slot, s⟩ := p
  cases slot with
  | operand => cases x <;> cases hblame
  | argument => exact absurd (ParseError.Cause.expected.inj hblame) hkind
  | operator =>
    refine ⟨s, rfl, ?_⟩
    cases s with
    | nil => exact .inl ⟨rfl, ParseError.Cause.expected.inj hblame⟩
    | cons o s =>
      refine .inr ⟨o, s, rfl, ?_⟩
      cases o with
      | group | bars =>
        cases hblame
        rfl
      | sign => exact absurd (hp rfl) (settle_sign_ne s)

/-- What an error says is expected can stand there. The text before the token of an error that expects the end is
accepted by itself. Where a parenthesis or a bar is expected, the innermost construct that is open before the token is
a group or call, or a bar pair, and the text before the token is accepted once all that is open is closed. -/
theorem expected_is_accepted {text : String} {err : ParseError} (h : parse text = .error err) :
    ∃ before rest ts, text = before ++ rest ∧ err.token.offset = before.utf8ByteSize ∧
      tokenize text ++ [⟨.finish, "", text.utf8ByteSize⟩] = tokenize before ++ err.token :: ts ∧
      (∀ m, err.message = m ++ ", expected end of input" → ∃ e, parse before = .ok e) ∧
      (∀ m, err.message = m ++ ", expected ')'" → ∃ s,
        Place.start.steps (lexemes (tokenize before)) = some ⟨.operator, .group :: s⟩ ∧
          ∃ e, parse (before ++ (")" ++ closing s)) = .ok e) ∧
      ∀ m, err.message = m ++ ", expected '|'" → ∃ s,
        Place.start.steps (lexemes (tokenize before)) = some ⟨.operator, .bars :: s⟩ ∧
          ∃ e, parse (before ++ ("|" ++ closing s)) = .ok e := by
  obtain ⟨us, ts, p, htokens, hrun, hrefuses⟩ := parse_eq_error_iff.1 h
  obtain ⟨before, rest, htext, hoff, rfl⟩ := text_before_token htokens
  have hblank : ' ' ∉ err.token.text.toList := blank_not_mem_text (by rw [htokens]; simp)
  have hsettled := Place.settled_start.run hrun
  have hopen : ∀ kind m, kind ≠ .leftParen → err.message = m ++ ParseError.expectation kind →
      ∃ s, p = ⟨.operator, s⟩ ∧ (s = [] ∧ kind = .finish ∨ ∃ o s', s = o :: s' ∧ o.closer?.map Lexeme.kind = some kind) ∧
        ∃ e, parse (before ++ closing s) = .ok e := by
    intro kind m hkind hm
    rw [ParseError.cause_of_message hblank hm] at hrefuses
    obtain ⟨hd, s, rfl, hs⟩ := hrefuses.of_expected hsettled hkind
    exact ⟨s, rfl, hs, parse_closing hrun (hsettled rfl) hd⟩
  refine ⟨before, rest, ts, htext, hoff, (tokens_eq_tokenize text).symm.trans htokens, ?_, ?_, ?_⟩
  · intro m hm
    obtain ⟨s, -, ⟨rfl, -⟩ | ⟨o, s', -, hclose⟩, haccepted⟩ := hopen .finish m nofun hm
    · rwa [closing, String.append_empty] at haccepted
    · cases o <;> cases hclose
  · intro m hm
    obtain ⟨s, rfl, ⟨-, hkind⟩ | ⟨o, s', rfl, hclose⟩, haccepted⟩ := hopen .rightParen m nofun hm
    · cases hkind
    · cases o with
      | group => exact ⟨s', Place.steps_of_run hrun, haccepted⟩
      | bars | sign => cases hclose
  · intro m hm
    obtain ⟨s, rfl, ⟨-, hkind⟩ | ⟨o, s', rfl, hclose⟩, haccepted⟩ := hopen .bar m nofun hm
    · cases hkind
    · cases o with
      | bars => exact ⟨s', Place.steps_of_run hrun, haccepted⟩
      | group | sign => cases hclose

/-- The text `(|t` lacks a bar, and after it a parenthesis. -/
theorem bar_is_accepted :
    parse "(|t" = .error ⟨.expected .bar, ⟨.finish, "", 3⟩⟩ ∧
      ∃ before s, before.utf8ByteSize = 3 ∧
        Place.start.steps (lexemes (tokenize before)) = some ⟨.operator, .bars :: s⟩ ∧
          ∃ e, parse (before ++ ("|" ++ closing s)) = .ok e := by
  have h : parse "(|t" = .error ⟨.expected .bar, ⟨.finish, "", 3⟩⟩ :=
    parse_eq_error_iff.2 ⟨[⟨.leftParen, "(", 0⟩, ⟨.bar, "|", 1⟩, ⟨.var, "t", 2⟩], [], ⟨.operator, [.bars, .group]⟩,
      rfl, rfl, Place.refuses_of_step (by decide) rfl rfl nofun⟩
  refine ⟨h, ?_⟩
  obtain ⟨before, -, -, -, hoff, -, -, -, hbar⟩ := expected_is_accepted h
  obtain ⟨s, hs, haccepted⟩ := hbar "unexpected end of input" rfl
  exact ⟨before, s, hoff.symm, hs, haccepted⟩

end Calculator
