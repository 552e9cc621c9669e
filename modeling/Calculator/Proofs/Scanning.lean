import Calculator.Proofs.Accepted

/-!
# How a text falls into pieces

A piece ends before the first character that does not belong to it
(`Written`). So the first part of a text has the same lexemes before every
rest that starts with no digit, letter or decimal mark (`Scans.before`), and
each token stands where its characters stand (`tokens_split`).
-/

namespace Calculator

open Text

/-! ## Pieces -/

/-- The characters `p` are a piece that means `x`; a character of `more` right after them would be
part of it. -/
inductive Written : Lexeme → List Char → (Char → Bool) → Prop where
  | whole {p : List Char} : p ≠ [] → p.all Char.isDigit →
      Written (.constant (Double.literal p [])) p (fun c => c.isDigit || isDecimalMark c)
  | decimal {p q : List Char} {mark : Char} : p ≠ [] → p.all Char.isDigit → isDecimalMark mark →
      q.all Char.isDigit → Written (.constant (Double.literal p q)) (p ++ mark :: q) Char.isDigit
  | word {p : List Char} : p ≠ [] → p.all isLetter → (∀ c ∈ p.head?, c.isDigit = false) →
      Written (.ofWord (String.ofList p)) p isLetter
  | symbol {c : Char} : c.isDigit = false → isLetter c = false → Written (.ofSymbol c) [c] (fun _ => false)

theorem takeWhile_append_of_stop {α : Type} {f : α → Bool} {p r : List α} (hp : p.all f)
    (hr : ∀ c ∈ r.head?, f c = false) : (p ++ r).takeWhile f = p := by
  rw [List.takeWhile_append_of_pos (List.all_eq_true.1 hp)]
  cases r with
  | nil => simp
  | cons c r => simp [hr c rfl]

theorem dropWhile_append_of_stop {α : Type} {f : α → Bool} {p r : List α} (hp : p.all f)
    (hr : ∀ c ∈ r.head?, f c = false) : (p ++ r).dropWhile f = r := by
  rw [List.dropWhile_append_of_pos (List.all_eq_true.1 hp)]
  cases r with
  | nil => rfl
  | cons c r => simp [hr c rfl]

theorem head?_dropWhile_stop (f : Char → Bool) (p : List Char) : ∀ c ∈ (p.dropWhile f).head?, f c = false := by
  intro c hc
  have := List.head?_dropWhile_not f p
  rw [Option.mem_def.1 hc] at this
  exact this

theorem not_isBlank_of_isDigit {c : Char} (h : c.isDigit) : isBlank c = false := by
  simp only [Char.isDigit, Bool.and_eq_true, decide_eq_true_eq] at h
  have hlow : 48 ≤ c.toNat := UInt32.le_iff_toNat_le.1 h.1
  have hhigh : c.toNat ≤ 57 := UInt32.le_iff_toNat_le.1 h.2
  simp only [isBlank, blanks, Ranges.contains]
  rw [if_neg (by omega), if_neg (by omega), if_pos (by omega), decide_eq_false (by omega)]

namespace Piece

theorem number_whole {p r : List Char} (hp : p.all Char.isDigit)
    (hr : ∀ c ∈ r.head?, (c.isDigit || isDecimalMark c) = false) :
    number (p ++ r) = ⟨.constant (Double.literal p []), p, r⟩ := by
  have hd : ∀ c ∈ r.head?, c.isDigit = false := fun c hc => (Bool.or_eq_false_iff.1 (hr c hc)).1
  unfold number
  rw [takeWhile_append_of_stop hp hd, dropWhile_append_of_stop hp hd]
  cases r with
  | nil => rfl
  | cons c r => simp [(Bool.or_eq_false_iff.1 (hr c rfl)).2]

theorem isDigit_of_isDecimalMark {c : Char} (h : isDecimalMark c) : c.isDigit = false := by
  simp only [isDecimalMark, Bool.or_eq_true, beq_iff_eq] at h
  obtain rfl | rfl := h <;> rfl

theorem number_decimal {p q r : List Char} {mark : Char} (hp : p.all Char.isDigit) (hm : isDecimalMark mark)
    (hq : q.all Char.isDigit) (hr : ∀ c ∈ r.head?, c.isDigit = false) :
    number (p ++ mark :: (q ++ r)) = ⟨.constant (Double.literal p q), p ++ mark :: q, r⟩ := by
  have hd : ∀ c ∈ (mark :: (q ++ r)).head?, c.isDigit = false := by
    rintro _ ⟨⟩
    exact isDigit_of_isDecimalMark hm
  unfold number
  rw [takeWhile_append_of_stop hp hd, dropWhile_append_of_stop hp hd]
  simp [hm, takeWhile_append_of_stop hq hr, dropWhile_append_of_stop hq hr]

/-- A piece is read in full and no further. -/
theorem first_append_of_written {x : Lexeme} {p r : List Char} {more : Char → Bool} (h : Written x p more)
    (hr : ∀ c ∈ r.head?, more c = false) : first (p ++ r) = ⟨x, p, r⟩ := by
  cases h with
  | whole hne hp =>
    cases p with
    | nil => exact absurd rfl hne
    | cons c p =>
      have hc : c.isDigit = true := (List.all_eq_true.1 hp) c (by simp)
      rw [List.cons_append, first, if_pos hc, ← List.cons_append, number_whole hp hr]
  | @decimal p q mark hne hp hm hq =>
    cases p with
    | nil => exact absurd rfl hne
    | cons c p =>
      have hc : c.isDigit = true := (List.all_eq_true.1 hp) c (by simp)
      rw [List.append_assoc, List.cons_append, first, if_pos hc, ← List.cons_append]
      exact number_decimal hp hm hq hr
  | word hne hp hhead =>
    cases p with
    | nil => exact absurd rfl hne
    | cons c p =>
      have hl : isLetter c = true := (List.all_eq_true.1 hp) c (by simp)
      rw [List.cons_append, first, if_neg (by simp [hhead c rfl]), if_pos hl, ← List.cons_append, word,
        takeWhile_append_of_stop hp hr, dropWhile_append_of_stop hp hr]
  | symbol hd hl => simp [first, hd, hl]

theorem written_first (c : Char) (text : List Char) : ∃ more,
    Written (first (c :: text)).lexeme (first (c :: text)).chars more ∧
      ∀ d ∈ (first (c :: text)).rest.head?, more d = false := by
  have hdigits : ∀ p : List Char, (p.takeWhile Char.isDigit).all Char.isDigit := fun p => List.all_takeWhile
  unfold first
  by_cases hd : c.isDigit
  · have hne : (c :: text).takeWhile Char.isDigit ≠ [] := by simp [hd]
    have hstop := head?_dropWhile_stop Char.isDigit (c :: text)
    simp only [hd, if_true, number]
    split
    · exact ⟨_, .whole hne (hdigits _), by simp⟩
    · next m more hdrop =>
      rw [hdrop] at hstop
      split
      · next hm => exact ⟨_, .decimal hne (hdigits _) hm (hdigits _), head?_dropWhile_stop _ _⟩
      · next hm =>
        refine ⟨_, .whole hne (hdigits _), ?_⟩
        rintro d hd
        rw [hstop d hd]
        obtain rfl := Option.some.inj hd
        simpa using hm
  · by_cases hl : isLetter c
    · simp only [hd, hl, if_true, word, Bool.false_eq_true, if_false]
      refine ⟨_, .word (by simp [hl]) List.all_takeWhile ?_, head?_dropWhile_stop _ _⟩
      simp [hl, hd]
    · simp only [hd, hl, Bool.false_eq_true, if_false]
      exact ⟨_, .symbol (by simpa using hd) (by simpa using hl), fun _ _ => rfl⟩

theorem head?_chars_first (c : Char) (text : List Char) : (first (c :: text)).chars.head? = some c := by
  have h := first_append (c :: text)
  cases hc : (first (c :: text)).chars with
  | nil => exact absurd hc (chars_first_ne_nil (by simp))
  | cons d p =>
    rw [hc] at h
    rw [(List.cons.inj h).1]; rfl

end Piece

def isSeparator (c : Char) : Bool := !c.isDigit && !isDecimalMark c && !isLetter c

theorem Written.not_more {x : Lexeme} {p : List Char} {more : Char → Bool} {c : Char} (h : Written x p more)
    (hc : isSeparator c) : more c = false := by
  simp only [isSeparator, Bool.and_eq_true, Bool.not_eq_true'] at hc
  cases h <;> simp [hc]

theorem Written.ne_nil {x : Lexeme} {p : List Char} {more : Char → Bool} (h : Written x p more) : p ≠ [] := by
  cases h <;> simp_all

/-! ## Pieces in a row -/

/-- Before the text `r` the text `p` falls into pieces that mean `w`, with blanks around them. -/
inductive Scans : List Char → List Char → List Lexeme → Prop where
  | nil {r : List Char} : Scans [] r []
  | blank {c : Char} {p r : List Char} {w : List Lexeme} : isBlank c → Scans p r w → Scans (c :: p) r w
  | piece {x : Lexeme} {p q r : List Char} {w : List Lexeme} {more : Char → Bool} : Written x p more →
      (∀ c ∈ p.head?, isBlank c = false) → (∀ c ∈ (q ++ r).head?, more c = false) → Scans q r w →
      Scans (p ++ q) r (x :: w)

namespace Scans

variable {p q r r' : List Char} {v w : List Lexeme}

theorem before (h : Scans p r w) (hr : ∀ c ∈ r'.head?, isSeparator c) : Scans p r' w := by
  induction h with
  | nil => exact .nil
  | blank hc _ ih => exact .blank hc ih
  | @piece x p q r w more hx hp hstop h ih =>
    refine .piece hx hp (fun c hc => ?_) ih
    -- only the last piece meets the new rest; the others end before the same character as ever
    cases q with
    | nil => exact hx.not_more (hr c hc)
    | cons d q => exact hstop c hc

theorem append (h : Scans p (q ++ r) v) (h' : Scans q r w) : Scans (p ++ q) r (v ++ w) := by
  generalize hs : q ++ r = s at h
  induction h with
  | nil => exact h'
  | blank hc _ ih => exact .blank hc (ih hs)
  | piece hx hp hstop _ ih =>
    subst hs
    rw [List.append_assoc]
    exact .piece hx hp (by rwa [List.append_assoc]) (ih rfl)

theorem one {x : Lexeme} {more : Char → Bool} (hx : Written x p more) (hp : ∀ c ∈ p.head?, isBlank c = false)
    (hr : ∀ c ∈ r.head?, more c = false) : Scans p r [x] := by
  have h : Scans (p ++ []) r [x] := .piece hx hp hr .nil
  rwa [List.append_nil] at h

theorem symbol {c : Char} (hd : c.isDigit = false) (hl : isLetter c = false) (hb : isBlank c = false)
    (r : List Char) : Scans [c] r [.ofSymbol c] :=
  one (.symbol hd hl) (by rintro _ ⟨⟩; exact hb) fun _ _ => rfl

theorem leftParen (r : List Char) : Scans "(".toList r [.leftParen] := symbol rfl rfl rfl r

theorem rightParen (r : List Char) : Scans ")".toList r [.rightParen] := symbol rfl rfl rfl r

end Scans

/-! ## Cursors -/

def bytes (p : List Char) : Nat := (String.ofList p).utf8ByteSize

theorem bytes_append (p q : List Char) : bytes (p ++ q) = bytes p + bytes q := by
  rw [bytes, String.ofList_append, String.utf8ByteSize_append]; rfl

theorem bytes_pos {p : List Char} (h : p ≠ []) : 0 < bytes p := by
  refine Nat.pos_of_ne_zero fun hzero => h ?_
  exact String.ofList_eq_empty_iff.1 (String.utf8ByteSize_eq_zero_iff.1 hzero)

theorem bytes_toList (s : String) : bytes s.toList = s.utf8ByteSize := by
  rw [bytes, String.ofList_toList]

def Token.shift (x : Token) (bytes : Nat) : Token := { x with offset := x.offset + bytes }

theorem lexemes_shift (ts : List Token) (n : Nat) : lexemes (ts.map (·.shift n)) = lexemes ts := by
  simp [lexemes, Token.shift]

namespace Cursor

theorem skipBlanks_of_nonblank {c : Cursor} (h : ∀ d ∈ c.rest.head?, isBlank d = false) : c.skipBlanks = c := by
  obtain ⟨rest, offset⟩ := c
  cases rest with
  | nil => rfl
  | cons d rest => simp [skipBlanks, h d rfl]

theorem next_eq {c : Cursor} (h : ∀ d ∈ c.rest.head?, isBlank d = false) :
    c.next = (⟨(Piece.first c.rest).lexeme, String.ofList (Piece.first c.rest).chars, c.offset⟩,
      ⟨(Piece.first c.rest).rest, c.offset + bytes (Piece.first c.rest).chars⟩) := by
  rw [next, skipBlanks_of_nonblank h]; rfl

theorem next_skipBlanks (c : Cursor) : c.skipBlanks.next = c.next := by
  rw [next, skipBlanks_of_nonblank (head?_dropWhile_stop isBlank c.rest)]; rfl

theorem tokens_skipBlanks (c : Cursor) : c.skipBlanks.tokens = c.tokens := by
  rw [tokens_eq, next_skipBlanks, ← tokens_eq]

theorem next_shift (p : List Char) (i n : Nat) :
    (⟨p, i + n⟩ : Cursor).next.1 = (⟨p, i⟩ : Cursor).next.1.shift n ∧
      (⟨p, i + n⟩ : Cursor).next.2 = ⟨(⟨p, i⟩ : Cursor).next.2.rest, (⟨p, i⟩ : Cursor).next.2.offset + n⟩ := by
  simp only [next, skipBlanks, Token.shift, Token.stop]
  constructor
  · simp [Nat.add_right_comm]
  · simp only [Cursor.mk.injEq, true_and]
    omega

theorem tokens_shift (n : Nat) : ∀ (bound : Nat) (p : List Char) (i : Nat), p.length < bound →
    (⟨p, i + n⟩ : Cursor).tokens = (⟨p, i⟩ : Cursor).tokens.map (·.shift n)
  | 0, _, _, hb => absurd hb (Nat.not_lt_zero _)
  | bound + 1, p, i, hb => by
    obtain ⟨htoken, hafter⟩ := next_shift p i n
    rw [tokens_eq ⟨p, i + n⟩, tokens_eq ⟨p, i⟩, htoken, hafter]
    have hfinish : ((⟨p, i⟩ : Cursor).next.1.shift n).isFinish = (⟨p, i⟩ : Cursor).next.1.isFinish := rfl
    rw [hfinish]
    cases hf : (⟨p, i⟩ : Cursor).next.1.isFinish with
    | true => rfl
    | false =>
      have hlt : (⟨p, i⟩ : Cursor).next.2.rest.length < p.length := length_rest_next_lt hf
      have hrest := tokens_shift n bound _ (⟨p, i⟩ : Cursor).next.2.offset
        (Nat.lt_of_lt_of_le hlt (Nat.le_of_lt_succ hb))
      simp only [Bool.false_eq_true, if_false, List.map_cons, hrest]

theorem tokens_mk (p : List Char) (n : Nat) : (⟨p, n⟩ : Cursor).tokens = (⟨p, 0⟩ : Cursor).tokens.map (·.shift n) := by
  have h := tokens_shift n _ p 0 (Nat.lt_succ_self _)
  rwa [Nat.zero_add] at h

end Cursor

def lex (p : List Char) : List Lexeme := lexemes (⟨p, 0⟩ : Cursor).tokens

theorem lexemes_tokens (c : Cursor) : lexemes c.tokens = lex c.rest := by
  have h := Cursor.tokens_mk c.rest c.offset
  rw [show c = ⟨c.rest, c.offset⟩ from rfl, h, lexemes_shift]; rfl

theorem lex_toList (text : String) : lex text.toList = lexemes (tokenize text) ++ [.finish] := by
  obtain ⟨x, hx, hf⟩ := tokens_ofString text
  rw [lex, ← Cursor.ofString, hx, lexemes_append, lexemes_cons, hf, lexemes_nil]

theorem lex_nil : lex [] = [.finish] := rfl

theorem lex_dropBlanks (p : List Char) : lex (p.dropWhile isBlank) = lex p := by
  have h := lexemes_tokens (Cursor.skipBlanks ⟨p, 0⟩)
  rw [Cursor.tokens_skipBlanks] at h
  exact h.symm

theorem lex_blank {c : Char} (hc : isBlank c) (p : List Char) : lex (c :: p) = lex p := by
  rw [← lex_dropBlanks, List.dropWhile_cons_of_pos hc, lex_dropBlanks]

theorem Written.ne_finish {x : Lexeme} {p : List Char} {more : Char → Bool} (h : Written x p more) :
    x ≠ .finish := by
  cases h with
  | word => unfold Lexeme.ofWord; split <;> try split
            all_goals simp
  | symbol => unfold Lexeme.ofSymbol; split <;> simp
  | _ => simp

theorem lex_piece {x : Lexeme} {p r : List Char} {more : Char → Bool} (hx : Written x p more)
    (hp : ∀ c ∈ p.head?, isBlank c = false) (hr : ∀ c ∈ r.head?, more c = false) :
    lex (p ++ r) = x :: lex r := by
  have hblank : ∀ c ∈ (p ++ r).head?, isBlank c = false := by
    cases p with
    | nil => exact absurd rfl hx.ne_nil
    | cons c p => exact hp
  have hnext := Cursor.next_eq (c := ⟨p ++ r, 0⟩) hblank
  simp only [Piece.first_append_of_written hx hr] at hnext
  have hf : (Cursor.next ⟨p ++ r, 0⟩).1.isFinish = false := by
    rw [hnext, Bool.eq_false_iff]
    exact fun h => hx.ne_finish (Token.isFinish_iff.1 h)
  rw [lex, Cursor.tokens_eq, hf, hnext]
  simp only [Bool.false_eq_true, if_false, lexemes_cons, lexemes_tokens]

theorem Scans.lex_append {p r : List Char} {w : List Lexeme} (h : Scans p r w) : lex (p ++ r) = w ++ lex r := by
  induction h with
  | nil => rfl
  | blank hc _ ih => rw [List.cons_append, lex_blank hc, ih]
  | piece hx hp hstop _ ih => rw [List.append_assoc, lex_piece hx hp hstop, ih]; rfl

theorem Scans.lexemes_tokenize {text : String} {w : List Lexeme} (h : Scans text.toList [] w) :
    lexemes (tokenize text) = w := by
  have := h.lex_append
  rw [List.append_nil, lex_toList, lex_nil] at this
  exact List.append_cancel_right this

theorem Scans.blanks : ∀ {p : List Char}, p.all isBlank → ∀ r, Scans p r []
  | [], _, _ => .nil
  | c :: p, h, r => by
    obtain ⟨hc, hp⟩ := (by simpa using h : isBlank c = true ∧ ∀ d ∈ p, isBlank d = true)
    exact .blank hc (Scans.blanks (List.all_eq_true.2 hp) r)

/-! ## Where tokens stand -/

theorem Cursor.scans_next {c : Cursor} (h : c.next.1.isFinish = false) :
    ∃ p, c.rest = p ++ c.next.2.rest ∧ c.next.2.offset = c.offset + bytes p ∧
      ∀ q r w, c.next.2.rest = q ++ r → Scans q r w → Scans (p ++ q) r (c.next.1.lexeme :: w) := by
  cases hd : c.rest.dropWhile isBlank with
  | nil => simp [next, skipBlanks, hd, Piece.first_nil, Token.isFinish, Token.kind, Lexeme.kind] at h
  | cons d more =>
    have hnonblank := head?_dropWhile_stop isBlank c.rest
    have hnext := next_eq (c := c.skipBlanks) hnonblank
    rw [next_skipBlanks, show c.skipBlanks.rest = d :: more from hd] at hnext
    obtain ⟨ext, hw, hext⟩ := Piece.written_first d more
    have happend := Piece.first_append (d :: more)
    rw [hnext]
    refine ⟨c.rest.takeWhile isBlank ++ (Piece.first (d :: more)).chars, ?_, ?_, fun q r w hr hs => ?_⟩
    · rw [List.append_assoc, happend, ← hd, List.takeWhile_append_dropWhile]
    · rw [bytes_append, ← Nat.add_assoc]; rfl
    · rw [show (Piece.first (d :: more)).rest = q ++ r from hr] at hext
      rw [List.append_assoc]
      refine (Scans.blanks List.all_takeWhile _).append (.piece hw ?_ hext hs)
      rw [Piece.head?_chars_first]
      rwa [hd] at hnonblank

/-- Each token starts after the characters of those before it and the blanks between them. -/
theorem tokens_split {x : Token} {ts' : List Token} : ∀ {ts : List Token} {c : Cursor}, c.tokens = ts ++ x :: ts' →
    ∃ p q, c.rest = p ++ q ∧ (∀ d ∈ q.head?, isBlank d = false) ∧ Scans p q (lexemes ts) ∧
      x.offset = c.offset + bytes p ∧ x :: ts' = (⟨q, x.offset⟩ : Cursor).tokens
  | [], c, h => by
    have hoff : x.offset = c.skipBlanks.offset := by
      rw [← Cursor.tokens_skipBlanks, Cursor.tokens_eq, Cursor.next_eq (head?_dropWhile_stop isBlank c.rest)] at h
      split at h <;> rw [← (List.cons.inj h).1]
    refine ⟨c.rest.takeWhile isBlank, c.rest.dropWhile isBlank, List.takeWhile_append_dropWhile.symm,
      head?_dropWhile_stop _ _, .blanks List.all_takeWhile _, hoff, ?_⟩
    rw [← List.nil_append (x :: ts'), ← h, ← Cursor.tokens_skipBlanks, hoff]; rfl
  | y :: ts, c, h => by
    rw [Cursor.tokens_eq] at h
    split at h
    · simp at h
    · next hf =>
      obtain ⟨rfl, htail⟩ := List.cons.inj h
      obtain ⟨p, q, hrest, hq, hscan, hoff, htokens⟩ := tokens_split htail
      obtain ⟨p', hrest', hoff', hscans⟩ := Cursor.scans_next (by simpa using hf)
      refine ⟨p' ++ p, q, ?_, hq, hscans p q _ hrest hscan, ?_, htokens⟩
      · rw [hrest', hrest, List.append_assoc]
      · rw [hoff, hoff', bytes_append, Nat.add_assoc]

theorem first_of_tokens {x : Token} {ts : List Token} {q : List Char} {i : Nat}
    (hq : ∀ d ∈ q.head?, isBlank d = false) (h : x :: ts = (⟨q, i⟩ : Cursor).tokens) :
    x = ⟨(Piece.first q).lexeme, String.ofList (Piece.first q).chars, i⟩ := by
  rw [Cursor.tokens_eq, Cursor.next_eq hq] at h
  split at h <;> exact (List.cons.inj h).1

theorem written_of_mem {c : Cursor} {x : Token} (h : x ∈ c.tokens) (hx : x.lexeme ≠ .finish) :
    ∃ more, Written x.lexeme x.text.toList more := by
  obtain ⟨ts, ts', hts⟩ := List.append_of_mem h
  obtain ⟨p, q, -, hq, -, -, htokens⟩ := tokens_split hts
  have hfirst := first_of_tokens hq htokens
  cases q with
  | nil => exact absurd (by rw [hfirst]; rfl) hx
  | cons d q =>
    obtain ⟨more, hw, -⟩ := Piece.written_first d q
    refine ⟨more, ?_⟩
    rw [hfirst, String.toList_ofList]
    exact hw

theorem eq_nil_of_finish {x : Token} {ts : List Token} {q : List Char} {i : Nat}
    (hq : ∀ d ∈ q.head?, isBlank d = false) (h : x :: ts = (⟨q, i⟩ : Cursor).tokens) (hx : x.lexeme = .finish) :
    q = [] := by
  cases q with
  | nil => rfl
  | cons d q =>
    obtain ⟨_, hw, -⟩ := Piece.written_first d q
    rw [first_of_tokens hq h] at hx
    exact absurd hx hw.ne_finish

theorem finish_of_tokens {text : String} {ts : List Token} {x : Token}
    (h : (Cursor.ofString text).tokens = ts ++ [x]) (hx : x.lexeme = .finish) :
    x = ⟨.finish, "", text.utf8ByteSize⟩ := by
  obtain ⟨p, q, hrest, hq, -, hoff, htokens⟩ := tokens_split h
  obtain rfl := eq_nil_of_finish hq htokens hx
  rw [first_of_tokens hq htokens, hoff, ← bytes_toList, ← List.append_nil p, ← hrest,
    ← Nat.zero_add (bytes text.toList)]
  rfl

theorem scans_tokenize (text : String) : Scans text.toList [] (lexemes (tokenize text)) := by
  obtain ⟨x, hx, hf⟩ := tokens_ofString text
  obtain ⟨p, q, hrest, hq, hscan, -, htokens⟩ := tokens_split hx
  obtain rfl := eq_nil_of_finish hq htokens hf
  rw [List.append_nil] at hrest
  rwa [← hrest] at hscan

end Calculator
