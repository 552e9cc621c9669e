import Calculator.Proofs.Segmentation

/-!
# Texts edited token by token

An edit goes over the tokens of a text with a state and writes other
characters in the place of some of them. The gaps between the tokens stay as
they are. If no token runs into the one after it, the new text has the
lexemes that were kept and those of the new characters
(`Edit.lexemes_text`).
-/

namespace Calculator

open Text

structure Gaps (text : String) (gaps : List (List Char)) : Prop where
  length_eq : gaps.length = (tokenize text).length + 1
  blank : ∀ gap ∈ gaps, gap.all isBlank
  interleave_eq : interleave gaps (tokenize text) = text.toList

theorem exists_gaps (text : String) : ∃ gaps, Gaps text gaps := by
  obtain ⟨gaps, hlen, hblank, hinter⟩ := (cuts_tokenize text).exists_gaps
  exact ⟨gaps, hlen, hblank, hinter⟩

/-- What is written in the place of a lexeme, if it is not kept, and the state after it. -/
structure Edit (σ : Type) where
  written : σ → Lexeme → Option String
  next : σ → Lexeme → σ

namespace Edit

variable {σ : Type} (f : Edit σ)

def after (s : σ) (w : List Lexeme) : σ := w.foldl f.next s

def edited : σ → List Lexeme → List Lexeme
  | _, [] => []
  | s, x :: w => ((f.written s x).elim [x] fun new => lexemes (tokenize new)) ++ edited (f.next s x) w

def tokens : σ → List Token → List Token
  | _, [] => []
  | s, x :: ts => { x with text := (f.written s x.lexeme).getD x.text } :: tokens (f.next s x.lexeme) ts

def text (s : σ) (gaps : List (List Char)) (text : String) : String :=
  String.ofList (interleave gaps (f.tokens s (tokenize text)))

variable {f} {s : σ} {x : Lexeme} {v w : List Lexeme}

@[simp] theorem after_cons : f.after s (x :: w) = f.after (f.next s x) w := rfl

@[simp] theorem after_append : f.after s (v ++ w) = f.after (f.after s v) w := List.foldl_append

@[simp] theorem edited_nil : f.edited s [] = [] := rfl

theorem edited_cons : f.edited s (x :: w) =
    ((f.written s x).elim [x] fun new => lexemes (tokenize new)) ++ f.edited (f.next s x) w := rfl

@[simp] theorem edited_append : f.edited s (v ++ w) = f.edited s v ++ f.edited (f.after s v) w := by
  induction v generalizing s with
  | nil => rfl
  | cons x v ih => rw [List.cons_append, edited_cons, ih, edited_cons, List.append_assoc, after_cons]

theorem edited_of_kept (h : f.written s x = none) : f.edited s (x :: w) = x :: f.edited (f.next s x) w := by
  rw [edited_cons, h]; rfl

theorem edited_of_written {new : String} (h : f.written s x = some new) :
    f.edited s (x :: w) = lexemes (tokenize new) ++ f.edited (f.next s x) w := by
  rw [edited_cons, h]; rfl

end Edit

/-! ## Characters that stand apart -/

def Lexeme.isSymbol : Lexeme → Bool
  | operator _ | leftParen | rightParen | bar => true
  | _ => false

theorem Lexeme.not_isSymbol_ofWord (word : String) : (ofWord word).isSymbol = false := by
  unfold ofWord
  split
  · rfl
  · rfl
  · rfl
  · split <;> rfl

theorem Written.symbol_stop {x : Lexeme} {p : List Char} {more : Char → Bool} (h : Written x p more)
    (hx : x.isSymbol) (c : Char) : more c = false := by
  cases h with
  | whole | decimal => cases hx
  | word =>
    rw [Lexeme.not_isSymbol_ofWord] at hx
    cases hx
  | symbol => rfl

def Closed (text : String) : Prop := ∀ r, Scans text.toList r (lexemes (tokenize text))

theorem closed_of_scans {text : String} {w : List Lexeme} (h : ∀ r, Scans text.toList r w) : Closed text := by
  rw [Closed, (h []).lexemes_tokenize]
  exact h

namespace Edit

variable {σ : Type} {f : Edit σ} {s : σ}

/-- No token runs into the next one. What is written is closed, and after a token that is kept it starts with a
separator unless that token is a symbol. -/
structure Fits (f : Edit σ) (s : σ) (w : List Lexeme) : Prop where
  closed : ∀ s x new, f.written s x = some new → Closed new
  apart : ∀ u x y v new, w = u ++ x :: y :: v → f.written (f.after s u) x = none →
    f.written (f.after s (u ++ [x])) y = some new → x.isSymbol ∨ ∃ c ∈ new.toList.head?, isSeparator c

theorem Fits.tail {x : Lexeme} {w : List Lexeme} (h : f.Fits s (x :: w)) : f.Fits (f.next s x) w :=
  ⟨h.closed, fun u y z v new hw => h.apart (x :: u) y z v new (by rw [hw, List.cons_append])⟩

theorem Fits.stop {x : Token} {ts : List Token} {gaps : List (List Char)} {more : Char → Bool}
    (h : f.Fits s (x.lexeme :: lexemes ts)) (hkept : f.written s x.lexeme = none)
    (hx : Written x.lexeme x.text.toList more) (hts : ∀ y ∈ ts, y.text.toList ≠ [])
    (hstop : ∀ c ∈ (interleave gaps ts).head?, more c = false) :
    ∀ c ∈ (interleave gaps (f.tokens (f.next s x.lexeme) ts)).head?, more c = false := by
  rcases gaps with _ | ⟨_ | ⟨d, gap⟩, gaps⟩
  · cases ts <;> exact hstop
  · cases ts with
    | nil => exact hstop
    | cons y ts =>
      cases hy : f.written (f.next s x.lexeme) y.lexeme with
      | none =>
        obtain ⟨c, p, hp⟩ := List.exists_cons_of_ne_nil (hts y (.head _))
        simp only [interleave, tokens, hy, Option.getD_none, hp] at hstop ⊢
        exact hstop
      | some new =>
        simp only [interleave, tokens, hy, Option.getD_some]
        rcases h.apart [] x.lexeme y.lexeme _ new rfl hkept hy with hsymbol | ⟨c, hc, hsep⟩
        · exact fun c _ => hx.symbol_stop hsymbol c
        · obtain ⟨p, hp⟩ := List.head?_eq_some_iff.1 hc
          simp only [hp]
          rintro _ ⟨⟩
          exact hx.not_more hsep
  · cases ts <;> exact hstop

theorem eq_of_blanks_append {p q r r' : List Char} (hp : p.all isBlank) (hq : q.all isBlank)
    (hr : ∀ c ∈ r.head?, isBlank c = false) (hr' : ∀ c ∈ r'.head?, isBlank c = false) (h : p ++ r = q ++ r') :
    r = r' := by
  have hdrop := congrArg (List.dropWhile isBlank) h
  rwa [dropWhile_append_of_stop hp hr, dropWhile_append_of_stop hq hr'] at hdrop

theorem scans_interleave {ts : List Token} {p : List Char} {i : Nat} (h : Cuts i p ts) :
    ∀ {gaps : List (List Char)} {s : σ}, gaps.length = ts.length + 1 → (∀ gap ∈ gaps, gap.all isBlank) →
      interleave gaps ts = p → f.Fits s (lexemes ts) →
        Scans (interleave gaps (f.tokens s ts)) [] (f.edited s (lexemes ts)) := by
  induction h with
  | done =>
    intro gaps s hlen hblank _ _
    obtain ⟨gap, rfl⟩ := List.length_eq_one_iff.1 hlen
    have hgap := Scans.blanks (hblank gap (.head _)) []
    simpa [interleave, tokens] using hgap
  | @token _ gap' rest x more ts hgap' _ hw hx hr hcuts ih =>
    intro gaps s hlen hblank hinter hfits
    obtain ⟨gap, gaps, rfl⟩ := List.exists_cons_of_length_eq_add_one hlen
    obtain ⟨hgap, hgaps⟩ := List.forall_mem_cons.1 hblank
    have hhead : ∀ {r : List Char}, ∀ c ∈ (x.text.toList ++ r).head?, isBlank c = false := by
      intro r
      rwa [List.head?_append_of_ne_nil _ hw.ne_nil]
    rw [interleave, List.append_assoc] at hinter
    obtain rfl := List.append_cancel_left (eq_of_blanks_append hgap hgap' hhead hhead hinter)
    have hmore := ih (s := f.next s x.lexeme) (by simpa using hlen) hgaps rfl hfits.tail
    rw [tokens, interleave, List.append_assoc, lexemes_cons]
    cases hnew : f.written s x.lexeme with
    | none =>
      have hne : ∀ y ∈ ts, y.text.toList ≠ [] := fun y hy => by
        obtain ⟨_, hy, -⟩ := hcuts.written y hy
        exact hy.ne_nil
      have hone := Scans.one hw hx (hfits.stop hnew hw hne hr)
      rw [← List.append_nil (interleave gaps _)] at hone
      rw [edited_of_kept hnew]
      exact (Scans.blanks hgap _).append (hone.append hmore)
    | some new =>
      have hclosed := hfits.closed s x.lexeme new hnew (interleave gaps (f.tokens (f.next s x.lexeme) ts) ++ [])
      rw [edited_of_written hnew]
      exact (Scans.blanks hgap _).append (hclosed.append hmore)

theorem lexemes_text {text : String} {gaps : List (List Char)} (hgaps : Gaps text gaps)
    (hfits : f.Fits s (lexemes (tokenize text))) :
    lexemes (tokenize (f.text s gaps text)) = f.edited s (lexemes (tokenize text)) := by
  apply Scans.lexemes_tokenize
  rw [Edit.text, String.toList_ofList]
  exact scans_interleave (cuts_tokenize text) hgaps.length_eq hgaps.blank hgaps.interleave_eq hfits

end Edit

end Calculator
