import Mathlib.Data.List.Basic
import Calculator.Proofs.Calls

/-!
# The longest pieces of a text

The tokens of a text are said here without a scanner: what each of them is
where it stands, and that only blanks stand outside of them
(`Segments`). One list of tokens is like that, and it is the one that
scanning gives (`segments_iff_takeAll`).
-/

namespace Calculator

open Text

/-! ## What pieces are -/

inductive Numeral : List Char → Float → Prop where
  | whole {p : List Char} : p ≠ [] → p.all Char.isDigit → Numeral p (Double.literal p [])
  | decimal {p q : List Char} {mark : Char} : p ≠ [] → p.all Char.isDigit → isDecimalMark mark → q.all Char.isDigit →
      Numeral (p ++ mark :: q) (Double.literal p q)

def words : List (String × Lexeme) :=
  [("sin", .function .sin), ("cos", .function .cos), ("tan", .function .tan), ("log", .function .log),
   ("ln", .function .ln), ("exp", .function .exp), ("sqrt", .function .sqrt), ("abs", .function .abs),
   ("pi", .constant (Float.ofBits 0x400921FB54442D18)), ("e", .constant (Float.ofBits 0x4005BF0A8B145769)), ("t", .var)]

def symbols : List (Char × Lexeme) :=
  [('(', .leftParen), (')', .rightParen), ('|', .bar), ('+', .operator .add), ('-', .operator .sub),
   ('*', .operator .mul), ('/', .operator .div), ('^', .operator .pow)]

inductive Means {α : Type} (table : List (α × Lexeme)) (key : α) : Lexeme → Prop where
  | listed {x : Lexeme} : (key, x) ∈ table → Means table key x
  | unlisted : (∀ x, (key, x) ∉ table) → Means table key .unknown

/-- Between `before` and `rest` stands a piece that means `x`: a numeral that no longer one starts with, a run
of letters with no letter next to it, or any other character but a blank. -/
inductive Longest (before : List Char) : List Char → List Char → Lexeme → Prop where
  | number {p rest : List Char} {value : Float} : Numeral p value →
      (∀ q r other, p ++ rest = q ++ r → Numeral q other → q.length ≤ p.length) → Longest before p rest (.constant value)
  | word {p rest : List Char} {x : Lexeme} : p ≠ [] → p.all isLetter → (∀ c ∈ before.getLast?, isLetter c = false) →
      (∀ c ∈ rest.head?, isLetter c = false) → Means words (String.ofList p) x → Longest before p rest x
  | symbol {c : Char} {rest : List Char} {x : Lexeme} : c.isDigit = false → isLetter c = false → isBlank c = false →
      Means symbols c x → Longest before [c] rest x

/-- Tokens of `rest`, which stands after `before`. Offsets count the bytes of both. -/
structure SegmentsAfter (before rest : List Char) (ts : List Token) : Prop where
  /-- Each token is a longest piece where it stands. -/
  piece : ∀ x ∈ ts, ∃ p q, rest = p ++ x.text.toList ++ q ∧ x.offset = bytes (before ++ p) ∧
    Longest (before ++ p) x.text.toList q x.lexeme
  /-- Each token ends before the next one starts. -/
  ordered : ts.Pairwise fun x y => x.offset < y.offset ∧ x.stop ≤ y.offset
  /-- A character outside of all tokens is a blank. -/
  blank : ∀ p c q, rest = p ++ c :: q → (∀ x ∈ ts, ¬ (x.offset ≤ bytes (before ++ p) ∧ bytes (before ++ p) < x.stop)) →
    isBlank c

def Segments (text : String) (ts : List Token) : Prop := SegmentsAfter [] text.toList ts

def interleave : List (List Char) → List Token → List Char
  | gap :: gaps, x :: ts => gap ++ x.text.toList ++ interleave gaps ts
  | gaps, _ => gaps.flatten

/-! ## Classes of characters -/

theorem isLetter_of_isBlank {c : Char} (h : isBlank c) : isLetter c = false := by
  obtain ⟨r, hr, hlow, hhigh⟩ := (Ranges.contains_iff isSorted_blanks _).1 h
  have hnone : ∀ r ∈ blanks, ∀ k < r.2 + 1 - r.1, letters.contains (r.1 + k) = false := by decide +kernel
  have hk := hnone r hr (c.toNat - r.1) (by omega)
  rwa [Nat.add_sub_cancel' hlow] at hk

theorem isLetter_of_isDigit {c : Char} (h : c.isDigit) : isLetter c = false := by
  simp only [Char.isDigit, Bool.and_eq_true, decide_eq_true_eq] at h
  have hlow : 48 ≤ c.toNat := UInt32.le_iff_toNat_le.1 h.1
  have hhigh : c.toNat ≤ 57 := UInt32.le_iff_toNat_le.1 h.2
  have hnone : ∀ k < 10, letters.contains (48 + k) = false := by decide +kernel
  have hk := hnone (c.toNat - 48) (by omega)
  rwa [Nat.add_sub_cancel' hlow] at hk

theorem isLetter_of_isDecimalMark {c : Char} (h : isDecimalMark c) : isLetter c = false := by
  simp only [isDecimalMark, Bool.or_eq_true, beq_iff_eq] at h
  obtain rfl | rfl := h <;> rfl

theorem isSeparator_of_isBlank {c : Char} (h : isBlank c) : isSeparator c := by
  have hdigit : c.isDigit = false := Bool.eq_false_iff.2 fun hd => by simp [not_isBlank_of_isDigit hd] at h
  have hmark : isDecimalMark c = false := by
    rw [Bool.eq_false_iff, isDecimalMark, Ne, Bool.or_eq_true, beq_iff_eq, beq_iff_eq]
    rintro (rfl | rfl) <;> exact absurd h (by decide)
  simp [isSeparator, hdigit, hmark, isLetter_of_isBlank h]

/-! ## The tables -/

theorem Means.eq_unknown_iff {α : Type} {table : List (α × Lexeme)} {key : α} {x : Lexeme} (h : Means table key x)
    (hne : ∀ e ∈ table, e.2 ≠ .unknown) : x = .unknown ↔ ∀ y, (key, y) ∉ table := by
  cases h with
  | listed hmem => exact ⟨fun hx => absurd hx (hne _ hmem), fun hnone => absurd hmem (hnone x)⟩
  | unlisted hnone => exact ⟨fun _ => hnone, fun _ => rfl⟩

theorem means_iff {α : Type} {table : List (α × Lexeme)} {f : α → Lexeme} {key : α} {x : Lexeme}
    (heq : ∀ e ∈ table, e.2 = f e.1 ∧ e.2 ≠ .unknown) (hmem : f key ≠ .unknown → (key, f key) ∈ table) :
    Means table key x ↔ x = f key := by
  constructor
  · rintro (hlisted | hnone)
    · exact (heq _ hlisted).1
    · exact Classical.byContradiction fun hne => hnone _ (hmem (Ne.symm hne))
  · rintro rfl
    by_cases hf : f key = .unknown
    · rw [hf]
      exact .unlisted fun x hx => (heq _ hx).2 ((heq _ hx).1.trans hf)
    · exact .listed (hmem hf)

theorem words_eq : ∀ e ∈ words, e.2 = Lexeme.ofWord e.1 ∧ e.2 ≠ .unknown := by decide

theorem symbols_eq : ∀ e ∈ symbols, e.2 = Lexeme.ofSymbol e.1 ∧ e.2 ≠ .unknown := by decide

theorem isLetter_words : ∀ e ∈ words, e.1.toList.all isLetter := by decide +kernel

theorem isLetter_symbols : ∀ e ∈ symbols, isLetter e.1 = false := by decide +kernel

theorem means_words_iff {word : String} {x : Lexeme} : Means words word x ↔ x = Lexeme.ofWord word := by
  refine means_iff words_eq fun h => ?_
  unfold Lexeme.ofWord at h ⊢
  split at h
  · simp [words]
  · simp [words]
  · simp [words]
  · cases hfn : UnaryFn.ofWord? word with
    | none => rw [hfn] at h; exact absurd rfl h
    | some fn =>
      obtain rfl := UnaryFn.eq_name_of_ofWord? hfn
      cases fn <;> cases hfn <;> simp [words, UnaryFn.name]

theorem means_symbols_iff {c : Char} {x : Lexeme} : Means symbols c x ↔ x = Lexeme.ofSymbol c := by
  refine means_iff symbols_eq fun h => ?_
  unfold Lexeme.ofSymbol at h ⊢
  split at h <;> simp_all [symbols]

/-! ## Longest pieces are read -/

theorem exists_longer {p q r r' : List Char} (h : p ++ r = q ++ r') (hlt : p.length < q.length) :
    ∃ d q', q = p ++ d :: q' ∧ d ∈ r.head? := by
  obtain ⟨a, rfl, rfl⟩ | ⟨a, rfl, -⟩ := List.append_eq_append_iff.1 h
  · cases a with
    | nil => simp at hlt
    | cons d a => exact ⟨d, a, rfl, rfl⟩
  · simp only [List.length_append] at hlt
    omega

namespace Numeral

variable {p q : List Char} {mark : Char} {value : Float}

theorem digit_or_mark (h : Numeral p value) : ∀ c ∈ p, (c.isDigit || isDecimalMark c) = true := by
  cases h with
  | whole _ hp => exact fun c hc => by simp [List.all_eq_true.1 hp c hc]
  | decimal _ hp hm hq =>
    intro c hc
    obtain hc | hc | hc := by simpa using hc
    · simp [List.all_eq_true.1 hp c hc]
    · simp [hc, hm]
    · simp [List.all_eq_true.1 hq c hc]

theorem not_isLetter (h : Numeral p value) : ∀ c ∈ p, isLetter c = false := by
  intro c hc
  obtain hdigit | hmark := Bool.or_eq_true_iff.1 (h.digit_or_mark c hc)
  · exact isLetter_of_isDigit hdigit
  · exact isLetter_of_isDecimalMark hmark

theorem head_isDigit (h : Numeral p value) : ∀ c ∈ p.head?, c.isDigit := by
  cases h with
  | whole _ hp => exact fun c hc => List.all_eq_true.1 hp c (List.mem_of_mem_head? hc)
  | decimal hne hp =>
    rw [List.head?_append_of_ne_nil _ hne]
    exact fun c hc => List.all_eq_true.1 hp c (List.mem_of_mem_head? hc)

theorem all_after_mark (h : Numeral (p ++ mark :: q) value) (hp : p.all Char.isDigit) (hm : isDecimalMark mark) :
    q.all Char.isDigit := by
  have hstop : ∀ {m : Char} {w : List Char}, isDecimalMark m → ∀ c ∈ (m :: w).head?, c.isDigit = false := by
    rintro m w hm _ ⟨⟩
    exact Piece.isDigit_of_isDecimalMark hm
  generalize hw : p ++ mark :: q = w at h
  cases h with
  | whole _ hw' =>
    have hdigit := List.all_eq_true.1 hw' mark (by simp [← hw])
    rw [Piece.isDigit_of_isDecimalMark hm] at hdigit
    cases hdigit
  | @decimal p' q' mark' _ hp' hm' hq' =>
    have hdrop := congrArg (List.dropWhile Char.isDigit) hw
    rw [dropWhile_append_of_stop hp (hstop hm), dropWhile_append_of_stop hp' (hstop hm')] at hdrop
    rw [(List.cons.inj hdrop).2]
    exact hq'

end Numeral

theorem isBlank_of_isLetter {c : Char} (h : isLetter c) : isBlank c = false :=
  Bool.eq_false_iff.2 fun hb => by simp [isLetter_of_isBlank hb] at h

section
variable {before p rest : List Char} {x : Lexeme}

theorem Longest.written (h : Longest before p rest x) :
    ∃ more, Written x p more ∧ (∀ c ∈ p.head?, isBlank c = false) ∧ ∀ c ∈ rest.head?, more c = false := by
  cases h with
  | number hnum hmax =>
    -- a character that goes on with the numeral would make a longer one
    have hlonger : ∀ c q other, c ∈ rest.head? → Numeral q other → q ≠ p ++ [c] := by
      rintro c _ other hc hq rfl
      obtain ⟨r, rfl⟩ : ∃ r, rest = c :: r := List.head?_eq_some_iff.1 hc
      have := hmax (p ++ [c]) r other (by simp) hq
      simp only [List.length_append, List.length_singleton] at this
      omega
    cases hnum with
    | whole hne hp =>
      refine ⟨_, .whole hne hp, fun c hc => ?_, fun c hc => Bool.or_eq_false_iff.2 ⟨?_, ?_⟩⟩
      · exact not_isBlank_of_isDigit (List.all_eq_true.1 hp c (List.mem_of_mem_head? hc))
      · refine Bool.eq_false_iff.2 fun hd => hlonger c _ _ hc (.whole (by simp) ?_) rfl
        simpa [hd] using List.all_eq_true.1 hp
      · exact Bool.eq_false_iff.2 fun hm => hlonger c _ _ hc (.decimal hne hp hm (List.all_nil ..)) rfl
    | @decimal p q mark hne hp hm hq =>
      refine ⟨_, .decimal hne hp hm hq, fun c hc => ?_, fun c hc => ?_⟩
      · obtain ⟨d, p', rfl⟩ := List.exists_cons_of_ne_nil hne
        exact not_isBlank_of_isDigit (List.all_eq_true.1 hp c (List.mem_of_mem_head? hc))
      · refine Bool.eq_false_iff.2 fun hd => hlonger c (p ++ mark :: (q ++ [c])) _ hc (.decimal hne hp hm ?_) (by simp)
        simpa [hd] using List.all_eq_true.1 hq
  | word hne hp hleft hright hx =>
    rw [means_words_iff.1 hx]
    have hletter : ∀ c ∈ p.head?, isLetter c := fun c hc => List.all_eq_true.1 hp c (List.mem_of_mem_head? hc)
    refine ⟨_, .word hne hp fun c hc => ?_, fun c hc => isBlank_of_isLetter (hletter c hc), hright⟩
    exact Bool.eq_false_iff.2 fun hd => Bool.false_ne_true ((isLetter_of_isDigit hd).symm.trans (hletter c hc))
  | symbol hd hl hb hx =>
    rw [means_symbols_iff.1 hx]
    exact ⟨_, .symbol hd hl, by rintro _ ⟨⟩; exact hb, fun _ _ => rfl⟩

theorem Longest.eq_unknown_iff (h : Longest before p rest x) :
    x = .unknown ↔ (∀ value, ¬ Numeral p value) ∧ (∀ y, (String.ofList p, y) ∉ words) ∧
      ∀ c y, p = [c] → (c, y) ∉ symbols := by
  cases h with
  | number hnum => exact ⟨nofun, fun hnot => absurd hnum (hnot.1 _)⟩
  | word hne hp _ _ hx =>
    rw [hx.eq_unknown_iff fun e he => (words_eq e he).2]
    refine ⟨fun hw => ⟨fun value hnum => ?_, hw, ?_⟩, fun hnot => hnot.2.1⟩
    · obtain ⟨c, p, rfl⟩ := List.exists_cons_of_ne_nil hne
      exact Bool.false_ne_true ((hnum.not_isLetter c (.head _)).symm.trans (List.all_eq_true.1 hp c (.head _)))
    · rintro c y rfl hmem
      exact Bool.false_ne_true ((isLetter_symbols _ hmem).symm.trans (List.all_eq_true.1 hp c (.head _)))
  | @symbol c _ _ hd hl _ hx =>
    rw [hx.eq_unknown_iff fun e he => (symbols_eq e he).2]
    refine ⟨fun hs => ⟨fun value hnum => ?_, fun y hmem => ?_, ?_⟩, fun hnot y => hnot.2.2 c y rfl⟩
    · exact Bool.false_ne_true (hd.symm.trans (hnum.head_isDigit c rfl))
    · have hletters := isLetter_words _ hmem
      rw [String.toList_ofList] at hletters
      exact Bool.false_ne_true (hl.symm.trans (List.all_eq_true.1 hletters c (.head _)))
    · rintro d y ⟨⟩
      exact hs y

theorem Written.longest {more : Char → Bool} (h : Written x p more) (hp : ∀ c ∈ p.head?, isBlank c = false)
    (hr : ∀ c ∈ rest.head?, more c = false)
    (hleft : ∀ c ∈ before.getLast?, isLetter c → ∀ d ∈ p.head?, isLetter d = false) : Longest before p rest x := by
  cases h with
  | whole hne hdigits =>
    refine .number (.whole hne hdigits) fun q r other happ hq => Nat.le_of_not_lt fun hlt => ?_
    obtain ⟨d, q', rfl, hd⟩ := exists_longer happ hlt
    exact Bool.false_ne_true ((hr d hd).symm.trans (hq.digit_or_mark d (by simp)))
  | @decimal p q mark hne hdigits hm hq =>
    refine .number (.decimal hne hdigits hm hq) fun w r other happ hw => Nat.le_of_not_lt fun hlt => ?_
    obtain ⟨d, w', rfl, hd⟩ := exists_longer happ hlt
    rw [List.append_assoc, List.cons_append] at hw
    exact Bool.false_ne_true ((hr d hd).symm.trans (List.all_eq_true.1 (hw.all_after_mark hdigits hm) d (by simp)))
  | word hne hletters hd =>
    refine .word hne hletters (fun c hc => Bool.eq_false_iff.2 fun hl => ?_) hr (means_words_iff.2 rfl)
    obtain ⟨d, p, rfl⟩ := List.exists_cons_of_ne_nil hne
    exact Bool.false_ne_true ((hleft c hc hl d rfl).symm.trans (List.all_eq_true.1 hletters d (by simp)))
  | symbol hd hl => exact .symbol hd hl (hp _ rfl) (means_symbols_iff.2 rfl)

end

/-! ## Positions in a text -/

theorem append_eq_append_of_bytes_le {a b c d : List Char} (h : a ++ b = c ++ d) (hle : bytes a ≤ bytes c) :
    ∃ e, c = a ++ e ∧ b = e ++ d := by
  obtain h | ⟨e, rfl, rfl⟩ := List.append_eq_append_iff.1 h
  · exact h
  · have he : e = [] := Classical.byContradiction fun hne => by
      have := bytes_pos hne
      rw [bytes_append] at hle
      omega
    subst he
    exact ⟨[], by simp, by simp⟩

theorem stop_eq {x : Token} {p : List Char} (h : x.offset = bytes p) : x.stop = bytes (p ++ x.text.toList) := by
  rw [Token.stop, h, bytes_append, bytes_toList]

/-! ## Cutting a text up -/

/-- From an offset on a text is blanks and pieces in turn, and each piece is a token. -/
inductive Cuts : Nat → List Char → List Token → Prop where
  | done {i : Nat} {gap : List Char} : gap.all isBlank → Cuts i gap []
  | token {i : Nat} {gap rest : List Char} {x : Token} {more : Char → Bool} {ts : List Token} : gap.all isBlank →
      x.offset = i + bytes gap → Written x.lexeme x.text.toList more → (∀ c ∈ x.text.toList.head?, isBlank c = false) →
      (∀ c ∈ rest.head?, more c = false) → Cuts x.stop rest ts → Cuts i (gap ++ (x.text.toList ++ rest)) (x :: ts)

theorem exists_cuts : ∀ (n : Nat) (p : List Char) (i : Nat), p.length < n → ∃ ts, Cuts i p ts
  | 0, _, _, hn => absurd hn (Nat.not_lt_zero _)
  | n + 1, p, i, hn => by
    rw [← List.takeWhile_append_dropWhile (p := isBlank) (l := p)]
    have hblank : (p.takeWhile isBlank).all isBlank := List.all_takeWhile
    have hnonblank := head?_dropWhile_stop isBlank p
    have hle : (p.dropWhile isBlank).length ≤ p.length := (List.dropWhile_sublist _).length_le
    cases hd : p.dropWhile isBlank with
    | nil => exact ⟨[], by simpa using .done hblank⟩
    | cons d more =>
      rw [hd] at hnonblank hle
      obtain ⟨ext, hw, hext⟩ := Piece.written_first d more
      have hlt := Piece.length_rest_first_lt (List.cons_ne_nil d more)
      have hchars := Piece.head?_chars_first d more
      rw [← Piece.first_append (d :: more)]
      generalize Piece.first (d :: more) = piece at hw hext hlt hchars ⊢
      obtain ⟨lexeme, chars, rest⟩ := piece
      obtain ⟨text, rfl⟩ : ∃ text : String, text.toList = chars := ⟨String.ofList chars, String.toList_ofList⟩
      obtain ⟨ts, hts⟩ := exists_cuts n rest (Token.stop ⟨lexeme, text, i + bytes (p.takeWhile isBlank)⟩)
        (by simp only at hlt; omega)
      exact ⟨_, .token hblank rfl hw (by rwa [hchars]) hext hts⟩

theorem Cursor.skipBlanks_append {gap r : List Char} {i : Nat} (hgap : gap.all isBlank)
    (hr : ∀ c ∈ r.head?, isBlank c = false) : (⟨gap ++ r, i⟩ : Cursor).skipBlanks = ⟨r, i + bytes gap⟩ := by
  simp only [skipBlanks, takeWhile_append_of_stop hgap hr, dropWhile_append_of_stop hgap hr]
  rfl

theorem Cuts.tokens_eq {i : Nat} {p : List Char} {ts : List Token} (h : Cuts i p ts) :
    (⟨p, i⟩ : Cursor).tokens = ts ++ [⟨.finish, "", i + bytes p⟩] := by
  induction h with
  | @done i gap hgap =>
    have hskip := Cursor.skipBlanks_append (r := []) (i := i) hgap (by simp)
    rw [List.append_nil] at hskip
    rw [← Cursor.tokens_skipBlanks, hskip]
    rfl
  | @token i gap rest x more ts hgap hoff hw hp hr _ ih =>
    have hhead : ∀ c ∈ (x.text.toList ++ rest).head?, isBlank c = false := by
      rwa [List.head?_append_of_ne_nil _ hw.ne_nil]
    have hnext : (⟨x.text.toList ++ rest, x.offset⟩ : Cursor).next = (x, ⟨rest, x.stop⟩) := by
      rw [Cursor.next_eq hhead, Piece.first_append_of_written hw hr, String.ofList_toList, Token.stop, bytes_toList]
    rw [← Cursor.tokens_skipBlanks, Cursor.skipBlanks_append hgap hhead, ← hoff, Cursor.tokens_eq, hnext, ih,
      if_neg (by rw [Token.isFinish_iff]; exact hw.ne_finish), List.cons_append, Token.stop, hoff, bytes_append,
      bytes_append, bytes_toList]
    simp only [Nat.add_assoc]

/-! ## The pieces where they stand -/

namespace SegmentsAfter

variable {before gap rest : List Char} {x : Token} {ts : List Token}

theorem uncons (h : SegmentsAfter before rest (x :: ts)) :
    ∃ gap q, rest = gap ++ (x.text.toList ++ q) ∧ gap.all isBlank ∧ x.offset = bytes (before ++ gap) ∧
      Longest (before ++ gap) x.text.toList q x.lexeme ∧ SegmentsAfter (before ++ gap ++ x.text.toList) q ts := by
  obtain ⟨p, q, rfl, hoff, hlong⟩ := h.piece x (.head _)
  obtain ⟨hfirst, hordered⟩ := List.pairwise_cons.1 h.ordered
  have hstop := stop_eq hoff
  refine ⟨p, q, List.append_assoc .., List.all_eq_true.2 fun c hc => ?_, hoff, hlong, fun y hy => ?_, hordered,
    fun p' c q' hq hout => ?_⟩
  · -- no token starts before the first one
    obtain ⟨p₁, p₂, rfl⟩ := List.append_of_mem hc
    refine h.blank p₁ c (p₂ ++ x.text.toList ++ q) (by simp) fun y hy hin => ?_
    have hle : x.offset ≤ y.offset := by
      obtain rfl | hy := List.mem_cons.1 hy
      · exact Nat.le_refl _
      · exact Nat.le_of_lt (hfirst y hy).1
    have hpos := bytes_pos (List.cons_ne_nil c p₂)
    rw [hoff, ← List.append_assoc, bytes_append] at hle
    omega
  · obtain ⟨p', q', hsplit, hoff', hlong'⟩ := h.piece y (.tail _ hy)
    have hle := (hfirst y hy).2
    rw [hstop, hoff', List.append_assoc, bytes_append before, bytes_append before] at hle
    rw [List.append_assoc p'] at hsplit
    obtain ⟨e, rfl, rfl⟩ := append_eq_append_of_bytes_le hsplit (Nat.le_of_add_le_add_left hle)
    exact ⟨e, q', by simp, by rw [hoff']; simp, by simpa using hlong'⟩
  · refine h.blank (p ++ x.text.toList ++ p') c q' (by simp [hq]) fun y hy hin => ?_
    obtain rfl | hy := List.mem_cons.1 hy
    · rw [hstop, ← List.append_assoc, ← List.append_assoc, bytes_append _ p'] at hin
      omega
    · exact hout y hy (by simpa using hin)

theorem cons (hgap : gap.all isBlank) (hoff : x.offset = bytes (before ++ gap)) (hne : x.text.toList ≠ [])
    (hlong : Longest (before ++ gap) x.text.toList rest x.lexeme)
    (h : SegmentsAfter (before ++ gap ++ x.text.toList) rest ts) :
    SegmentsAfter before (gap ++ (x.text.toList ++ rest)) (x :: ts) := by
  obtain ⟨hpiece, hordered, hblank⟩ := h
  have hstop := stop_eq hoff
  have hpos := bytes_pos hne
  refine ⟨fun y hy => ?_, List.pairwise_cons.2 ⟨fun y hy => ?_, hordered⟩, fun p c q hq hout => ?_⟩
  · obtain rfl | hy := List.mem_cons.1 hy
    · exact ⟨gap, rest, (List.append_assoc ..).symm, hoff, hlong⟩
    · obtain ⟨p, q, rfl, hoff', hlong'⟩ := hpiece y hy
      exact ⟨gap ++ x.text.toList ++ p, q, by simp, by rw [hoff']; simp, by simpa using hlong'⟩
  · obtain ⟨p, q, -, hoff', -⟩ := hpiece y hy
    rw [hstop, hoff, hoff', bytes_append _ p, bytes_append _ x.text.toList]
    omega
  · -- the character stands in the gap, or in the token, or after it
    rw [← List.append_assoc] at hq
    obtain hlt | hle := Nat.lt_or_ge (bytes p) (bytes (gap ++ x.text.toList))
    · obtain hin | hgt := Nat.lt_or_ge (bytes p) (bytes gap)
      · rw [List.append_assoc] at hq
        obtain ⟨e, rfl, he⟩ := append_eq_append_of_bytes_le hq.symm (Nat.le_of_lt hin)
        cases e with
        | nil => simp at hin
        | cons d e =>
          obtain rfl := (List.cons.inj he).1
          exact List.all_eq_true.1 hgap c (by simp)
      · refine absurd ⟨?_, ?_⟩ (hout x (.head _))
        · rw [hoff, bytes_append, bytes_append]
          omega
        · rw [hstop, List.append_assoc, bytes_append, bytes_append before]
          omega
    · obtain ⟨e, rfl, rfl⟩ := append_eq_append_of_bytes_le hq hle
      exact hblank e c q rfl fun y hy => by simpa using hout y (.tail _ hy)

theorem cuts (h : SegmentsAfter before rest ts) : Cuts (bytes before) rest ts := by
  induction ts generalizing before rest with
  | nil =>
    refine .done (List.all_eq_true.2 fun c hc => ?_)
    obtain ⟨p, q, rfl⟩ := List.append_of_mem hc
    exact h.blank p c q rfl nofun
  | cons x ts ih =>
    obtain ⟨gap, q, rfl, hgap, hoff, hlong, hafter⟩ := h.uncons
    obtain ⟨more, hw, hnonblank, hright⟩ := hlong.written
    exact .token hgap (by rw [hoff, bytes_append]) hw hnonblank hright (stop_eq hoff ▸ ih hafter)

end SegmentsAfter

theorem Written.letter_stop {x : Lexeme} {p : List Char} {more : Char → Bool} {c d : Char} (h : Written x p more)
    (hc : c ∈ p.getLast?) (hl : isLetter c) (hd : more d = false) : isLetter d = false := by
  have hmem := List.mem_of_getLast? hc
  have hnot : ∀ {value : Float}, ¬ Numeral p value := fun hnum =>
    Bool.false_ne_true ((hnum.not_isLetter c hmem).symm.trans hl)
  cases h with
  | whole hne hp => exact absurd (.whole hne hp) hnot
  | decimal hne hp hm hq => exact absurd (.decimal hne hp hm hq) hnot
  | word => exact hd
  | symbol _ hs =>
    obtain rfl := List.mem_singleton.1 hmem
    exact absurd hl (Bool.eq_false_iff.1 hs)

/-- The pieces are the longest ones, given that no word goes on over the start. -/
theorem Cuts.segmentsAfter {i : Nat} {before rest : List Char} {ts : List Token} (h : Cuts i rest ts)
    (hi : bytes before = i) (hleft : ∀ c ∈ before.getLast?, isLetter c → ∀ d ∈ rest.head?, isLetter d = false) :
    SegmentsAfter before rest ts := by
  induction h generalizing before with
  | done hgap => exact ⟨nofun, .nil, fun p c q hq _ => List.all_eq_true.1 hgap c (by simp [hq])⟩
  | @token _ gap rest x more ts hgap hoff hw hp hr _ ih =>
    subst hi
    rw [← bytes_append] at hoff
    have hlast := List.getLast?_append_of_ne_nil (before ++ gap) hw.ne_nil
    refine .cons hgap hoff hw.ne_nil (hw.longest hp hr fun c hc hl d hd => ?_)
      (ih (stop_eq hoff).symm fun c hc hl d hd => hw.letter_stop (hlast ▸ hc) hl (hr d hd))
    rw [List.getLast?_append, Option.mem_def, Option.or_eq_some_iff, List.getLast?_eq_none_iff] at hc
    obtain hc | ⟨rfl, hc⟩ := hc
    · have hb := List.all_eq_true.1 hgap c (List.mem_of_getLast? hc)
      exact absurd hl (Bool.eq_false_iff.1 (isLetter_of_isBlank hb))
    · exact hleft c hc hl d (List.head?_append_of_ne_nil _ hw.ne_nil ▸ hd)

theorem Cuts.exists_gaps {i : Nat} {rest : List Char} {ts : List Token} (h : Cuts i rest ts) :
    ∃ gaps : List (List Char), gaps.length = ts.length + 1 ∧ (∀ gap ∈ gaps, gap.all isBlank) ∧
      interleave gaps ts = rest := by
  induction h with
  | @done _ gap hgap => exact ⟨[gap], rfl, by simpa using hgap, by simp [interleave]⟩
  | @token _ gap _ x _ _ hgap _ _ _ _ _ ih =>
    obtain ⟨gaps, hlen, hblank, rfl⟩ := ih
    exact ⟨gap :: gaps, by simp [hlen], List.forall_mem_cons.2 ⟨hgap, hblank⟩, by simp [interleave]⟩

theorem Cuts.tokenize_eq {text : String} {ts : List Token} (h : Cuts 0 text.toList ts) : tokenize text = ts := by
  rw [tokenize, Cursor.ofString, h.tokens_eq, List.dropLast_concat]

/-! ## The two sides of a token -/

theorem cuts_tokenize (text : String) : Cuts 0 text.toList (tokenize text) := by
  obtain ⟨ts, hcuts⟩ := exists_cuts (text.toList.length + 1) text.toList 0 (Nat.lt_succ_self _)
  rw [hcuts.tokenize_eq]
  exact hcuts

theorem Cuts.written {i : Nat} {p : List Char} {ts : List Token} (h : Cuts i p ts) :
    ∀ x ∈ ts, ∃ more, Written x.lexeme x.text.toList more ∧ ∀ c ∈ x.text.toList.head?, isBlank c = false := by
  induction h with
  | done => simp
  | token _ _ hw hp _ _ ih =>
    intro y hy
    rcases List.mem_cons.1 hy with rfl | hy
    · exact ⟨_, hw, hp⟩
    · exact ih y hy

theorem lexeme_eq_first {text : String} {x : Token} (hx : x ∈ tokenize text) :
    x.lexeme = (Piece.first x.text.toList).lexeme := by
  obtain ⟨more, hw, -⟩ := (cuts_tokenize text).written x hx
  have hfirst := Piece.first_append_of_written hw (r := []) nofun
  rw [List.append_nil] at hfirst
  rw [hfirst]

theorem Cuts.lexemes_eq {i : Nat} {p : List Char} {ts : List Token} (h : Cuts i p ts) :
    lexemes (tokenize (String.ofList p)) = lexemes ts := by
  have htokens := congrArg lexemes h.tokens_eq
  have htext := lex_toList (String.ofList p)
  rw [lexemes_tokens, lexemes_append] at htokens
  rw [String.toList_ofList, htokens] at htext
  exact (List.append_cancel_right htext).symm

theorem Cuts.split {p : List Char} {x : Token} {ts : List Token} : ∀ {us : List Token} {i : Nat},
    Cuts i p (us ++ x :: ts) → ∃ a b, p = a ++ b ∧ x.offset = i + bytes a ∧ Cuts i a us ∧ Cuts x.offset b (x :: ts)
  | [], i, h => by
    cases h with
    | @token _ gap rest _ more _ hgap hoff hw hp hr hrest =>
      refine ⟨gap, x.text.toList ++ rest, rfl, hoff, .done hgap, ?_⟩
      have hnone : ([] : List Char).all isBlank := List.all_nil ..
      exact .token hnone rfl hw hp hr hrest
  | y :: us, i, h => by
    cases h with
    | @token _ gap rest _ more _ hgap hoff hw hp hr hrest =>
      obtain ⟨a, b, rfl, hx, ha, hb⟩ := hrest.split
      refine ⟨gap ++ (y.text.toList ++ a), b, by simp, ?_, ?_, hb⟩
      · rw [hx, Token.stop, hoff, bytes_append, bytes_append, bytes_toList]
        omega
      · refine .token hgap hoff hw hp ?_ ha
        intro c hc
        apply hr c
        cases a with
        | nil => cases hc
        | cons d a => exact hc

/-- A token splits its text, and each side has the tokens on that side. -/
theorem text_at_token {text : String} {us ts : List Token} {x : Token} (h : tokenize text = us ++ x :: ts) :
    ∃ before after, text = before ++ x.text ++ after ∧ x.offset = before.utf8ByteSize ∧ tokenize before = us ∧
      lexemes (tokenize after) = lexemes ts ∧ lexemes (tokenize (x.text ++ after)) = lexemes (x :: ts) := by
  have hcuts := cuts_tokenize text
  rw [h] at hcuts
  obtain ⟨a, b, htext, hoff, ha, hb⟩ := hcuts.split
  have hright := hb.lexemes_eq
  cases hb with
  | @token _ gap rest _ more _ hgap hoff' hw hp hr hrest =>
    obtain rfl : gap = [] := by
      refine Classical.byContradiction fun hne => ?_
      have := bytes_pos hne
      omega
    refine ⟨String.ofList a, String.ofList rest, ?_, ?_, ?_, hrest.lexemes_eq, ?_⟩
    · rw [← String.toList_inj]
      simpa using htext
    · rw [hoff, Nat.zero_add, bytes]
    · apply Cuts.tokenize_eq
      rwa [String.toList_ofList]
    · have htext : x.text ++ String.ofList rest = String.ofList ([] ++ (x.text.toList ++ rest)) := by
        rw [← String.toList_inj]
        simp
      rw [htext, hright]

theorem tokens_eq_tokenize (text : String) :
    (Cursor.ofString text).tokens = tokenize text ++ [⟨.finish, "", text.utf8ByteSize⟩] := by
  obtain ⟨x, htokens, hfinish⟩ := tokens_ofString text
  rw [htokens, finish_of_tokens htokens hfinish]

/-- What stands before a token, which may be the end of the text, has the tokens before it. -/
theorem text_before_token {text : String} {us ts : List Token} {x : Token}
    (h : (Cursor.ofString text).tokens = us ++ x :: ts) :
    ∃ before rest, text = before ++ rest ∧ x.offset = before.utf8ByteSize ∧ tokenize before = us := by
  rw [tokens_eq_tokenize] at h
  rcases List.eq_nil_or_concat ts with rfl | ⟨ts, z, rfl⟩
  · obtain ⟨hus, hx⟩ := List.append_inj' h rfl
    obtain rfl := (List.cons.inj hx).1
    exact ⟨text, "", by simp, rfl, hus⟩
  · rw [List.concat_eq_append, ← List.cons_append, ← List.append_assoc] at h
    obtain ⟨before, after, htext, hoff, hus, -⟩ := text_at_token (List.append_inj' h rfl).1
    refine ⟨before, x.text ++ after, ?_, hoff, hus⟩
    rw [htext, String.append_assoc]

/-- The tokens taken from a text are its longest pieces in order, with nothing but blanks around them, and they are
the only ones like that. Those that no table lists are the unknown ones. At the end stands the empty token. -/
theorem segments_iff_takeAll (text : String) :
    (∀ ts, Segments text ts ↔ ts = (TokenStream.ofString text).takeAll.1) ∧
    (∃ gaps : List (List Char), gaps.length = (TokenStream.ofString text).takeAll.1.length + 1 ∧
      (∀ gap ∈ gaps, gap.all isBlank) ∧ interleave gaps (TokenStream.ofString text).takeAll.1 = text.toList) ∧
    (∀ x ∈ (TokenStream.ofString text).takeAll.1, x.lexeme = .unknown ↔
      (∀ value, ¬ Numeral x.text.toList value) ∧ (∀ y, (x.text, y) ∉ words) ∧
        ∀ c y, x.text.toList = [c] → (c, y) ∉ symbols) ∧
    (TokenStream.ofString text).takeAll.2.peek.1 = ⟨.finish, "", text.utf8ByteSize⟩ := by
  obtain ⟨htokens, hfinish⟩ := TokenStream.takeAll_ofString text
  obtain ⟨ts, hcuts⟩ := exists_cuts (text.toList.length + 1) text.toList 0 (Nat.lt_succ_self _)
  have hts : (TokenStream.ofString text).takeAll.1 = ts := htokens.trans hcuts.tokenize_eq
  have hseg : Segments text ts := hcuts.segmentsAfter rfl nofun
  rw [hts]
  refine ⟨fun us => ⟨fun hus => ?_, ?_⟩, hcuts.exists_gaps, fun x hx => ?_, hfinish⟩
  · exact (Cuts.tokenize_eq hus.cuts).symm.trans hcuts.tokenize_eq
  · rintro rfl
    exact hseg
  · obtain ⟨p, q, -, -, hlong⟩ := hseg.piece x hx
    simpa using hlong.eq_unknown_iff

end Calculator
