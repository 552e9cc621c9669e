import Calculator.Proofs.Recursion
import Calculator.Proofs.Reuse
import Calculator.Proofs.Segmentation

/-!
# One token ahead

A reading scans no token before it needs the next one, so a parse that fails
has scanned the tokens up to the one of its error and none after it. What
stands after that token makes no difference to the error
(`error_looks_no_further`).
-/

namespace Calculator

namespace TokenStream

structure Near (s : TokenStream) (ts : List Token) : Prop where
  follows : s.Follows ts
  size_le : s.scanned.size ≤ s.current + 1

def ScannedTo (s : TokenStream) (ts : List Token) (x : Token) : Prop :=
  ∃ w r, ts = w ++ x :: r ∧ s.scanned.toList = w ++ [x]

section
variable {s : TokenStream} {ts : List Token} {x : Token}

theorem size_scanMore_le_add (count : Nat) (s : TokenStream) :
    (scanMore count s).scanned.size ≤ s.scanned.size + count := by
  induction count generalizing s with
  | zero => exact Nat.le_refl _
  | succ count ih =>
    rw [scanMore]
    split
    · exact Nat.le_add_right _ _
    · have hsize := ih s.scan
      rw [size_scan] at hsize
      omega

theorem Near.size_peek (h : s.Near ts) : s.peek.2.scanned.size = s.current + 1 := by
  have hpeek : s.peek.2 = s.scanMore (s.current + 1 - s.scanned.size) := rfl
  have hle := h.size_le
  rw [hpeek]
  cases hc : (s.scanMore (s.current + 1 - s.scanned.size)).isComplete with
  | true =>
    have hall := length_all_of_isComplete hc
    have hmost := size_scanMore_le_add (s.current + 1 - s.scanned.size) s
    have hlt := h.follows.current_lt
    rw [all_scanMore, h.follows.all_eq] at hall
    omega
  | false =>
    rw [size_scanMore _ s hc]
    omega

theorem scannedTo_of (h : s.Follows ts) (hx : ts[s.scanned.size - 1]? = some x) (hpos : 0 < s.scanned.size) :
    s.ScannedTo ts x := by
  obtain ⟨r, hr⟩ : s.scanned.toList <+: ts := h.all_eq ▸ List.prefix_append ..
  rcases List.eq_nil_or_concat s.scanned.toList with hnil | ⟨w, y, hw⟩
  · rw [← Array.length_toList, hnil] at hpos
    cases hpos
  · rw [List.concat_eq_append] at hw
    have hsize := congrArg List.length hw
    rw [Array.length_toList, List.length_append, List.length_singleton] at hsize
    rw [hsize, ← hr, hw] at hx
    obtain rfl : y = x := by simpa using hx
    exact ⟨w, r, by rw [← hr, hw, List.append_assoc]; rfl, hw⟩

theorem Near.peek (h : s.Near ts) : s.peek.2.Near ts ∧ s.peek.2.ScannedTo ts s.peek.1 ∧
    ts[s.peek.2.current]? = some s.peek.1 := by
  have hfollows := h.follows.peekNth 0
  have hcurrent : s.peek.2.current = s.current := current_peekNth s 0
  have hsize := h.size_peek
  have hanswer : ts[s.current]? = some s.peek.1 := h.follows.answer_pop
  refine ⟨⟨hfollows, by omega⟩, scannedTo_of hfollows ?_ (by omega), ?_⟩
  · rwa [hsize]
  · rwa [hcurrent]

theorem Near.pop (h : s.Near ts) (hts : Readable ts) : s.pop.2.Near ts ∧ s.pop.2.ScannedTo ts s.pop.1 ∧
    ts[s.current]? = some s.pop.1 := by
  have hfollows := h.follows.pop hts
  have hscanned : s.pop.2.scanned = s.peek.2.scanned := by
    show (if s.peek.1.isFinish then s.peek.2 else { s.peek.2 with current := s.peek.2.current + 1 }).scanned = _
    split <;> rfl
  have hsize : s.pop.2.scanned.size = s.current + 1 := (congrArg Array.size hscanned).trans h.size_peek
  have hcurrent : s.current ≤ s.pop.2.current := by
    rw [current_pop]
    split <;> omega
  have hanswer := h.follows.answer_pop
  refine ⟨⟨hfollows, by omega⟩, scannedTo_of hfollows ?_ (by omega), hanswer⟩
  rwa [hsize]

end

end TokenStream

/-! ## Readings -/

def Outcome.Near {α : Type} (ts : List Token) : Outcome α → Prop
  | .done _ q => q.stream.Near ts
  | .failed err q => q.stream.ScannedTo ts err.token
  | .exhausted => True

/-- A reading that looks at one token ahead at most. -/
def Reading.Local {α : Type} (ts : List Token) (r : Reading α) : Prop :=
  ∀ p : Parser, p.stream.Near ts → (r p).Near ts

namespace Reading

variable {α β : Type} {ts : List Token}

theorem local_pure (a : α) : Local ts (pure a : Reading α) := fun _ h => h

theorem local_exhausted : Local ts (exhausted : Reading α) := fun _ _ => trivial

theorem local_remaining : Local ts remaining := fun _ h => h

theorem Local.bind {r : Reading α} {f : α → Reading β} (hr : Local ts r) (hf : ∀ a, Local ts (f a)) :
    Local ts (r >>= f) := by
  intro p hp
  have hnear := hr p hp
  cases ho : r p with
  | done a q =>
    rw [ho] at hnear
    rw [bind_of_done ho]
    exact hf a q hnear
  | failed err q =>
    rw [ho] at hnear
    rwa [bind_of_failed ho]
  | exhausted => rw [bind_of_exhausted ho]; trivial

/-- What is read after a look ahead may still fail at that token. -/
theorem peek_near {f : Token → Reading β} {p : Parser} (h : p.stream.Near ts)
    (hf : ∀ (x : Token) (q : Parser), q.stream.Near ts → q.stream.ScannedTo ts x →
      ts[q.stream.current]? = some x → (f x q).Near ts) : ((peek >>= f) p).Near ts := by
  obtain ⟨hnear, hscanned, hx⟩ := h.peek
  exact hf p.stream.peek.1 { p with stream := p.stream.peek.2 } hnear hscanned hx

theorem pop_near (hts : Readable ts) {f : Token → Reading β} {p : Parser} (h : p.stream.Near ts)
    (hf : ∀ (x : Token) (q : Parser), q.stream.Near ts → q.stream.ScannedTo ts x →
      ts[p.stream.current]? = some x → (f x q).Near ts) : ((pop >>= f) p).Near ts := by
  obtain ⟨hnear, hscanned, hx⟩ := h.pop hts
  exact hf p.stream.pop.1 { p with stream := p.stream.pop.2 } hnear hscanned hx

theorem local_pop (hts : Readable ts) : Local ts pop := fun _ hp => (hp.pop hts).1

theorem local_expect (hts : Readable ts) (kind : Kind) : Local ts (expect kind) := by
  intro p hp
  apply pop_near hts hp
  intro x q hq hscanned _
  by_cases hk : x.kind = kind
  · rw [if_pos hk]
    exact hq
  · rw [if_neg hk]
    exact hscanned

theorem Local.nested {r : Reading α} (h : Local ts r) : Local ts (nested r) := by
  intro p hp
  unfold Reading.nested
  split
  · have hnear := h p.descend hp
    cases ho : r p.descend <;> rw [ho] at hnear <;> exact hnear
  · exact peek_near hp fun x q _ hscanned _ => hscanned

theorem Local.group (hts : Readable ts) {inner : Reading Expr} (h : Local ts inner) (close : Kind) :
    Local ts (group inner close) :=
  (h.bind fun _ => (local_expect hts close).bind fun _ => local_pure _).nested

theorem local_operator? (hts : Readable ts) (t : Tier) : Local ts (operator? t) := by
  intro p hp
  apply peek_near hp
  intro x q hq _ _
  cases x.lexeme with
  | operator fn =>
    by_cases hfn : fn.tier = t
    · simp only [hfn, if_true]
      exact ((local_pop hts).bind fun _ => local_pure _) q hq
    · simp only [hfn, if_false]
      exact hq
  | _ => exact hq

theorem Local.chain (hts : Readable ts) {operand : Reading Expr} {t : Tier} (h : Local ts operand) :
    ∀ (count : Nat) (links : Array Expr.Link) (last : Expr), Local ts (chain operand t count links last)
  | 0, _, _ => local_exhausted
  | count + 1, links, last => by
    refine (local_operator? hts t).bind fun op? => ?_
    cases op? with
    | none => exact local_pure _
    | some op => exact h.bind fun right => Local.chain hts h count _ right

theorem local_primaryOf (hts : Readable ts) {inner : Tier → Reading Expr} (h : ∀ t, Local ts (inner t)) :
    Local ts (primaryOf inner) := by
  intro p hp
  apply peek_near hp
  intro x q hq hscanned hx
  cases x.lexeme with
  | constant | var => exact ((local_pop hts).bind fun _ => local_pure _) q hq
  | function fn =>
    exact ((local_pop hts).bind fun _ => (local_expect hts _).bind fun _ =>
      ((h _).group hts _).bind fun _ => local_pure _) q hq
  | leftParen => exact ((local_pop hts).bind fun _ => (h _).group hts _) q hq
  | bar => exact ((local_pop hts).bind fun _ => ((h _).group hts _).bind fun _ => local_pure _) q hq
  | operator op =>
    apply pop_near hts hq
    intro y q' hq' hscanned' hy
    -- the token that is taken is the one that was looked at
    obtain rfl := Option.some.inj (hx.symm.trans hy)
    cases UnaryFn.ofSign? x.text with
    | none => exact hscanned'
    | some fn => exact ((h _).nested.bind fun _ => local_pure _) q' hq'
  | finish | rightParen | unknown => exact hscanned

theorem local_expression (hts : Readable ts) : ∀ (count : Nat) (t : Tier), Local ts (expression count t)
  | 0, _ => local_exhausted
  | count + 1, t => by
    by_cases ht : t = .operand
    · subst ht
      cases count with
      | zero => exact local_exhausted
      | succ count => exact local_primaryOf hts (local_expression hts count)
    · rw [expression_succ ht]
      have ih := local_expression hts count t.next
      exact ih.bind fun first => local_remaining.bind fun _ => ih.chain hts _ _ first

theorem local_complete (hts : Readable ts) : Local ts complete :=
  (local_expression hts _ _).bind fun _ => (local_expect hts _).bind fun _ => local_pure _

end Reading

/-! ## Texts -/

theorem scannedTo_of_parse {text : String} {err : ParseError} (h : parse text = .error err) :
    (Parser.ofString text).parse.2.stream.ScannedTo (Cursor.ofString text).tokens err.token := by
  have hts := readable_tokens_ofString text
  have hnear : (Parser.ofString text).stream.Near (Cursor.ofString text).tokens :=
    ⟨TokenStream.follows_ofString text, Nat.zero_le _⟩
  have hlocal := Reading.local_complete hts (Parser.ofString text) hnear
  have hends := (Reading.complete_holds (Parser.at_ofString text)).ne_exhausted
  unfold parse Parser.parse at h
  unfold Parser.parse
  cases ho : Reading.complete (Parser.ofString text) with
  | done e q => rw [ho] at h; cases h
  | failed err' q =>
    rw [ho] at h hlocal
    cases h
    exact hlocal
  | exhausted => exact absurd ho hends

theorem lexeme_eq_of_text {text text' : String} {x y : Token} (hx : x ∈ tokenize text) (hy : y ∈ tokenize text')
    (h : x.text = y.text) : x.lexeme = y.lexeme := by
  rw [lexeme_eq_first hx, h, lexeme_eq_first hy]

theorem eq_of_slices {text text' : String} : ∀ {us vs : List Token}, (∀ x ∈ us, x ∈ tokenize text) →
    (∀ x ∈ vs, x ∈ tokenize text') → us.map (fun x => (x.text, x.offset)) = vs.map (fun x => (x.text, x.offset)) →
      us = vs
  | [], vs, _, _, h => (List.map_eq_nil_iff.1 h.symm).symm
  | x :: us, [], _, _, h => by cases h
  | x :: us, y :: vs, hus, hvs, h => by
    obtain ⟨hx, hus⟩ := List.forall_mem_cons.1 hus
    obtain ⟨hy, hvs⟩ := List.forall_mem_cons.1 hvs
    obtain ⟨hslice, hrest⟩ := List.cons.inj h
    obtain ⟨htext, hoffset⟩ := Prod.mk.inj hslice
    have hlexeme := lexeme_eq_of_text hx hy htext
    have hxy : x = y := by
      cases x
      cases y
      rw [Token.mk.injEq]
      exact ⟨hlexeme, htext, hoffset⟩
    rw [hxy, eq_of_slices hus hvs hrest]

/-- The tokens of a text are all different, so that an error has one place. -/
theorem eq_of_tokens {text : String} {w w' r r' : List Token} {x : Token}
    (h : (Cursor.ofString text).tokens = w ++ x :: r) (h' : (Cursor.ofString text).tokens = w' ++ x :: r') : w = w' := by
  have hsorted := Cursor.sorted_tokens _ _ (Nat.lt_succ_self (Cursor.ofString text).rest.length)
  have hnodup : (Cursor.ofString text).tokens.Nodup := hsorted.imp fun hlt heq => by
    rw [heq] at hlt
    exact Nat.lt_irrefl _ hlt
  have hlen : w.length = w'.length := by
    have hlt : w.length < (Cursor.ofString text).tokens.length := by simp [h]
    have hget : (Cursor.ofString text).tokens[w.length]? = some x := by simp [h]
    have hget' : (Cursor.ofString text).tokens[w'.length]? = some x := by simp [h']
    exact (List.getElem?_inj hlt hnodup).1 (hget.trans hget'.symm)
  exact (List.append_inj (h.symm.trans h') hlen).1

/-- An error that is not at the end of its text has scanned the tokens up to its own, and any text that starts with
the same tokens up to there has the same error. -/
theorem error_looks_no_further {text : String} {err : ParseError} (h : parse text = .error err)
    (hx : err.token.isFinish = false) :
    ∃ k, (tokenize text)[k]? = some err.token ∧
      (Parser.ofString text).parse.2.stream.scanned.toList = (tokenize text).take (k + 1) ∧
      ∀ text', ((tokenize text').take (k + 1)).map (fun x => (x.text, x.offset)) =
        ((tokenize text).take (k + 1)).map (fun x => (x.text, x.offset)) → parse text' = .error err := by
  obtain ⟨w, r, hscanned, hlast⟩ := scannedTo_of_parse h
  obtain ⟨w', τ, hrun, hrefuses, ⟨r', htokens⟩ | ⟨-, hfinish, -⟩⟩ := (parse_eq_error_iff.1 h).split
  · have hall : (Cursor.ofString text).tokens = w' ++ err.token :: (r' ++ [⟨.finish, "", text.utf8ByteSize⟩]) := by
      rw [tokens_eq_tokenize, htokens, List.append_assoc]; rfl
    obtain rfl := eq_of_tokens hscanned hall
    have htake : (tokenize text).take (w.length + 1) = w ++ [err.token] := by
      simp [htokens, List.take_append, List.take_of_length_le]
    refine ⟨w.length, by simp [htokens], hlast.trans htake.symm, ?_⟩
    intro text' hslices
    have hsame := eq_of_slices (fun _ => List.mem_of_mem_take) (fun _ => List.mem_of_mem_take) hslices
    rw [htake] at hsame
    have htokens' := List.take_append_drop (w.length + 1) (tokenize text')
    rw [hsame] at htokens'
    apply parse_eq_error_iff.2
    refine ⟨w, (tokenize text').drop (w.length + 1) ++ [⟨.finish, "", text'.utf8ByteSize⟩], τ, ?_, hrun, hrefuses⟩
    rw [tokens_eq_tokenize, ← htokens']
    simp
  · rw [Token.isFinish_iff.2 hfinish] at hx
    cases hx

/-- In `|t)` the parenthesis is the last token scanned, and what may follow it makes no difference. -/
theorem error_at_parenthesis_looks_no_further :
    parse "|t)" = .error ⟨.expected .bar, ⟨.rightParen, ")", 2⟩⟩ ∧
      (⟨.rightParen, ")", 2⟩ : Token).isFinish = false ∧
        (Parser.ofString "|t)").parse.2.stream.scanned.toList = tokenize "|t)" ∧
          parse "|t)|" = .error ⟨.expected .bar, ⟨.rightParen, ")", 2⟩⟩ := by
  have h : parse "|t)" = .error ⟨.expected .bar, ⟨.rightParen, ")", 2⟩⟩ := by rfl
  refine ⟨h, rfl, ?_⟩
  obtain ⟨k, hk, hscanned, hsame⟩ := error_looks_no_further h rfl
  have htokens : tokenize "|t)" = [⟨.bar, "|", 0⟩, ⟨.var, "t", 1⟩, ⟨.rightParen, ")", 2⟩] := by rfl
  obtain rfl : k = 2 := by
    rw [htokens] at hk
    rcases k with _ | _ | _ | k
    · cases hk
    · cases hk
    · rfl
    · cases hk
  exact ⟨hscanned, hsame "|t)|" (by rfl)⟩

end Calculator
