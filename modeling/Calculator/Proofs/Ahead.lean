import Calculator.Proofs.Grammar
import Calculator.Token.Stream

/-!
# The tokens ahead

A token stream gives the tokens of its text in order, whichever of them it has
scanned so far (`TokenStream.peek_fst`, `TokenStream.ahead_pop`). The tokens
of a text end with the end of the text, which stands nowhere else, and names
and operators are written as the grammar spells them.
-/

namespace Calculator

/-! ## Names and operators as they are written -/

def Lexeme.spelling? : Lexeme → Option String
  | .var => some "t"
  | .function fn => some fn.name
  | .operator fn => some fn.symbol
  | _ => none

theorem UnaryFn.eq_name_of_ofWord? {word : String} {fn : UnaryFn} (h : ofWord? word = some fn) :
    word = fn.name := by
  unfold ofWord? at h
  split at h <;> cases h <;> rfl

theorem Lexeme.spelling?_ofWord {word s : String} (h : s ∈ (ofWord word).spelling?) : word = s := by
  unfold ofWord at h
  split at h
  · cases h
  · cases h
  · cases h; rfl
  · cases hfn : UnaryFn.ofWord? word with
    | none => rw [hfn] at h; cases h
    | some fn =>
      rw [hfn] at h
      cases h
      exact UnaryFn.eq_name_of_ofWord? hfn

theorem Lexeme.spelling?_ofSymbol {c : Char} {s : String} (h : s ∈ (ofSymbol c).spelling?) :
    String.ofList [c] = s := by
  unfold ofSymbol at h
  split at h <;> cases h <;> rfl

theorem Piece.spelling?_first {text : List Char} {s : String} (h : s ∈ (first text).lexeme.spelling?) :
    String.ofList (first text).chars = s := by
  unfold first at h ⊢
  split at h
  · cases h
  · split at h
    · next hd =>
      simp only [number] at h
      split at h
      · cases h
      · split at h <;> cases h
    · next hd =>
      split at h
      · next hl => simpa [hd, hl, word] using Lexeme.spelling?_ofWord h
      · next hl => simpa [hd, hl] using Lexeme.spelling?_ofSymbol h

def Token.Spelled (x : Token) : Prop := ∀ s ∈ x.lexeme.spelling?, x.text = s

theorem Token.isFinish_iff {x : Token} : x.isFinish = true ↔ x.lexeme = .finish := by
  obtain ⟨lexeme, text, offset⟩ := x
  cases lexeme <;> simp [isFinish, kind, Lexeme.kind]

/-! ## Tokens up to the end of the text -/

inductive Readable : List Token → Prop where
  | finish {x : Token} : x.lexeme = .finish → Readable [x]
  | cons {x : Token} {ts : List Token} : x.lexeme ≠ .finish → x.Spelled → Readable ts → Readable (x :: ts)

theorem Readable.ne_nil {ts : List Token} (h : Readable ts) : ts ≠ [] := by cases h <;> simp

theorem Readable.tail {x : Token} {ts : List Token} (h : Readable (x :: ts)) (hx : x.lexeme ≠ .finish) :
    Readable ts := by
  cases h with
  | finish hf => exact absurd hf hx
  | cons _ _ h => exact h

theorem Readable.spelled {x : Token} {ts : List Token} (h : Readable (x :: ts)) : x.Spelled := by
  cases h with
  | finish hf => intro s hs; rw [hf] at hs; cases hs
  | cons _ hs _ => exact hs

theorem Cursor.readable_tokens : ∀ (n : Nat) (c : Cursor), c.rest.length < n → Readable c.tokens
  | 0, _, hn => absurd hn (Nat.not_lt_zero _)
  | n + 1, c, hn => by
    rw [tokens_eq]
    cases hf : c.next.1.isFinish with
    | true => exact .finish (Token.isFinish_iff.1 hf)
    | false =>
      have := length_rest_next_lt hf
      refine .cons (fun h => ?_) (fun s => Piece.spelling?_first) (readable_tokens n c.next.2 (by omega))
      rw [Token.isFinish_iff.2 h] at hf
      cases hf

theorem Cursor.length_upTo_le (count : Nat) (c : Cursor) : (upTo count c).length ≤ count := by
  induction count generalizing c with
  | zero => exact Nat.le_refl _
  | succ count ih =>
    rw [upTo_succ]
    split
    · simp
    · simpa using ih c.next.2

theorem Cursor.length_tokens_le (c : Cursor) : c.tokens.length ≤ c.rest.length + 1 := length_upTo_le _ c

/-! ## Streams -/

namespace TokenStream

def all (s : TokenStream) : List Token := s.scanned.toList ++ if s.isComplete then [] else s.cursor.tokens

def ahead (s : TokenStream) : List Token := s.all.drop s.current

theorem isComplete_scan (s : TokenStream) : s.scan.isComplete = s.cursor.next.1.isFinish := by
  simp [scan, isComplete]

theorem all_scan {s : TokenStream} (h : s.isComplete = false) : s.scan.all = s.all := by
  rw [all, all, isComplete_scan, h, Cursor.tokens_eq s.cursor]
  cases hf : s.cursor.next.1.isFinish <;> simp [scan]

theorem current_scanMore (count : Nat) (s : TokenStream) : (scanMore count s).current = s.current := by
  induction count generalizing s with
  | zero => rfl
  | succ count ih =>
    rw [scanMore]
    split
    · rfl
    · exact ih s.scan

theorem all_scanMore (count : Nat) (s : TokenStream) : (scanMore count s).all = s.all := by
  induction count generalizing s with
  | zero => rfl
  | succ count ih =>
    rw [scanMore]
    split
    · rfl
    · next h => rw [ih, all_scan (by simpa using h)]

theorem size_scanMore (count : Nat) (s : TokenStream) (h : (scanMore count s).isComplete = false) :
    (scanMore count s).scanned.size = s.scanned.size + count := by
  induction count generalizing s with
  | zero => rfl
  | succ count ih =>
    rw [scanMore] at h ⊢
    split at h
    · next hc => rw [hc] at h; cases h
    · next hc =>
      rw [if_neg hc, ih _ h, size_scan]
      omega

theorem length_all_of_isComplete {s : TokenStream} (h : s.isComplete = true) :
    s.all.length = s.scanned.size := by
  simp [all, h]

theorem getElem?_scanned {s : TokenStream} {i : Nat} (h : i < s.scanned.size) : s.all[i]? = some s.scanned[i] := by
  rw [all, List.getElem?_append_left (by simpa using h)]
  simp [h]

theorem getElem?_peekNth (s : TokenStream) (ahead : Nat) :
    s.all[min (s.current + ahead) (s.all.length - 1)]? = some (s.peekNth ahead).1 := by
  have hall : (s.scanTo (s.current + ahead)).all = s.all := all_scanMore _ s
  have hpos := size_scanTo_pos s (s.current + ahead)
  rw [peekNth, ← hall, ← getElem?_scanned]
  congr 1
  cases hc : (s.scanTo (s.current + ahead)).isComplete with
  | true => rw [length_all_of_isComplete hc]
  | false =>
    have hsize := size_scanMore _ s hc
    have hle : (s.scanTo (s.current + ahead)).scanned.size ≤ (s.scanTo (s.current + ahead)).all.length := by
      simp [all]
    rw [scanTo] at hle hpos ⊢
    omega

theorem all_peekNth (s : TokenStream) (ahead : Nat) : (s.peekNth ahead).2.all = s.all := all_scanMore _ s

theorem current_peekNth (s : TokenStream) (ahead : Nat) : (s.peekNth ahead).2.current = s.current :=
  current_scanMore _ s

theorem peek_fst {s : TokenStream} {x : Token} {ts : List Token} (h : s.ahead = x :: ts) : s.peek.1 = x := by
  have hlt : s.current < s.all.length := by
    refine Nat.lt_of_not_le fun hle => ?_
    rw [ahead, List.drop_eq_nil_of_le hle] at h
    cases h
  have hget := getElem?_peekNth s 0
  rw [Nat.add_zero, Nat.min_eq_left (by omega)] at hget
  rw [ahead, List.drop_eq_getElem_cons hlt] at h
  rw [List.getElem?_eq_getElem hlt] at hget
  exact (Option.some.inj hget).symm.trans (List.cons.inj h).1

theorem ahead_peek (s : TokenStream) : s.peek.2.ahead = s.ahead := by
  rw [ahead, peek, all_peekNth, current_peekNth]; rfl

theorem pop_fst {s : TokenStream} {x : Token} {ts : List Token} (h : s.ahead = x :: ts) : s.pop.1 = x :=
  peek_fst h

theorem ahead_pop {s : TokenStream} {x : Token} {ts : List Token} (h : s.ahead = x :: ts) :
    s.pop.2.ahead = if x.lexeme = .finish then x :: ts else ts := by
  have hpop : s.pop.2 = if x.isFinish then s.peek.2 else { s.peek.2 with current := s.peek.2.current + 1 } := by
    rw [← peek_fst h]; rfl
  rw [hpop]
  by_cases hx : x.lexeme = .finish
  · rw [if_pos hx, if_pos (Token.isFinish_iff.2 hx), ahead_peek, h]
  · rw [if_neg hx, if_neg (fun hf => hx (Token.isFinish_iff.1 hf))]
    have htail : (s.all.drop s.current).tail = ts := by rw [← ahead, h]; rfl
    rw [← htail, List.tail_drop]
    show (s.peek.2.all).drop (s.peek.2.current + 1) = _
    rw [peek, all_peekNth, current_peekNth]

theorem length_ahead_le (s : TokenStream) : s.ahead.length ≤ s.remaining + 1 := by
  have htokens := Cursor.length_tokens_le s.cursor
  simp only [ahead, all, remaining, List.length_drop, List.length_append, Array.length_toList]
  split
  · simp only [List.length_nil]; omega
  · omega

theorem ahead_ofString (text : String) : (ofString text).ahead = (Cursor.ofString text).tokens := by
  simp [ahead, all, ofString, isComplete]

end TokenStream

end Calculator
