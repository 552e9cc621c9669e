import Calculator.Proofs.Scanning

/-!
# Calls on a token stream

Looking ahead and taking can be mixed in any order. A stream answers every
call as a place in the list of all tokens does, and what it has scanned is a
first part of that list (`call_at_place`). Taking tokens until none is left
gives all of them before the end (`takeAll_ofString`).
-/

namespace Calculator

/-! ## Where the end of a text stands -/

theorem Readable.isFinish_getElem {ts : List Token} (h : Readable ts) {i : Nat} {x : Token}
    (hx : ts[i]? = some x) : x.isFinish = true ↔ i + 1 = ts.length := by
  induction h generalizing i with
  | finish hy =>
    cases i with
    | zero =>
      obtain rfl := Option.some.inj hx
      simpa using Token.isFinish_iff.2 hy
    | succ i => simp at hx
  | @cons y ts hy _ h ih =>
    cases i with
    | zero =>
      obtain rfl := Option.some.inj hx
      have := List.length_pos_iff.2 h.ne_nil
      simp only [Token.isFinish_iff, hy, List.length_cons, false_iff]
      omega
    | succ i => simpa using ih hx

namespace TokenStream

/-! ## Calls -/

inductive Call where
  | peek
  | peekNth (ahead : Nat)
  | pop
  | next
  deriving DecidableEq, Repr

def Call.takes : Call → Bool
  | peek | peekNth _ => false
  | pop | next => true

def call (s : TokenStream) : Call → Option Token × TokenStream
  | .peek => (some s.peek.1, s.peek.2)
  | .peekNth ahead => (some (s.peekNth ahead).1, (s.peekNth ahead).2)
  | .pop => (some s.pop.1, s.pop.2)
  | .next => s.next?

def after (s : TokenStream) (calls : List Call) : TokenStream := calls.foldl (fun s c => (s.call c).2) s

def history : TokenStream → List Call → List (Call × Option Token)
  | _, [] => []
  | s, c :: calls => (c, (s.call c).1) :: history (s.call c).2 calls

def taken (log : List (Call × Option Token)) : Nat :=
  log.countP fun entry => entry.1.takes && entry.2.any (!·.isFinish)

/-! ## Places in the list of all tokens -/

/-- What a call gives at a place in a list of tokens. Looking beyond the last one gives the last one. -/
def Call.answer (ts : List Token) (place : Nat) : Call → Option Token
  | peek => ts[place]?
  | peekNth ahead => ts[min (place + ahead) (ts.length - 1)]?
  | pop => ts[place]?
  | next => ts[place]?.filter (!·.isFinish)

def Call.move (ts : List Token) (place : Nat) (c : Call) : Nat :=
  if c.takes && ts[place]?.any (!·.isFinish) then place + 1 else place

structure Follows (s : TokenStream) (ts : List Token) : Prop where
  all_eq : s.all = ts
  current_lt : s.current < ts.length

/-- What the stream has scanned is a first part of these tokens, in which nothing comes after the end, and
its place in them is all that an answer depends on. -/
structure Serves (s : TokenStream) (ts : List Token) : Prop where
  buffer : s.scanned.toList <+: ts
  finish_last : s.scanned.toList.dropLast.all (!·.isFinish) = true
  current_lt : s.current < ts.length
  answer : ∀ c, (s.call c).1 = c.answer ts s.current
  move : ∀ c, (s.call c).2.current = c.move ts s.current
  peekNth_keeps : ∀ ahead later, (s.peekNth ahead).2.history later = s.history later
  index_lt : ∀ ahead, min (s.current + ahead) ((s.scanTo (s.current + ahead)).scanned.size - 1) <
    (s.scanTo (s.current + ahead)).scanned.size

section
variable {s : TokenStream} {ts : List Token}

/-! ## One call -/

theorem Follows.answer_peekNth (h : s.Follows ts) (ahead : Nat) :
    ts[min (s.current + ahead) (ts.length - 1)]? = some (s.peekNth ahead).1 := by
  rw [← h.all_eq]
  exact getElem?_peekNth s ahead

theorem Follows.peekNth (h : s.Follows ts) (ahead : Nat) : (s.peekNth ahead).2.Follows ts :=
  ⟨(all_peekNth s ahead).trans h.all_eq, current_peekNth s ahead ▸ h.current_lt⟩

theorem Follows.answer_pop (h : s.Follows ts) : ts[s.current]? = some s.pop.1 := by
  have hget := h.answer_peekNth 0
  have hlt := h.current_lt
  rwa [Nat.add_zero, Nat.min_eq_left (by omega)] at hget

theorem current_pop (s : TokenStream) : s.pop.2.current = if s.pop.1.isFinish then s.current else s.current + 1 := by
  have hcurrent : s.peek.2.current = s.current := current_peekNth s 0
  show (if s.peek.1.isFinish then s.peek.2 else { s.peek.2 with current := s.peek.2.current + 1 }).current =
    if s.peek.1.isFinish then s.current else s.current + 1
  split
  · exact hcurrent
  · exact congrArg (· + 1) hcurrent

theorem all_pop (s : TokenStream) : s.pop.2.all = s.all := by
  show (if s.peek.1.isFinish then s.peek.2 else { s.peek.2 with current := s.peek.2.current + 1 }).all = _
  split <;> exact all_peekNth s 0

theorem Follows.pop (h : s.Follows ts) (hts : Readable ts) : s.pop.2.Follows ts := by
  refine ⟨(all_pop s).trans h.all_eq, ?_⟩
  have hlt := h.current_lt
  have hend := hts.isFinish_getElem h.answer_pop
  rw [current_pop]
  split
  · exact hlt
  · next hf =>
    rw [hend] at hf
    omega

theorem Follows.call (h : s.Follows ts) (hts : Readable ts) (c : Call) : (s.call c).2.Follows ts := by
  cases c with
  | peek => exact h.peekNth 0
  | peekNth ahead => exact h.peekNth ahead
  | pop => exact h.pop hts
  | next => exact h.pop hts

theorem Follows.answer (h : s.Follows ts) (c : Call) : (s.call c).1 = c.answer ts s.current := by
  cases c with
  | peek => exact h.answer_pop.symm
  | peekNth ahead => exact (h.answer_peekNth ahead).symm
  | pop => exact h.answer_pop.symm
  | next =>
    have hnext : s.next?.1 = if s.pop.1.isFinish then none else some s.pop.1 := rfl
    rw [Call.answer, h.answer_pop]
    show s.next?.1 = _
    rw [hnext]
    cases hf : s.pop.1.isFinish <;> simp [Option.filter, hf]

theorem Follows.move (h : s.Follows ts) (c : Call) : (s.call c).2.current = c.move ts s.current := by
  cases c with
  | peek => exact current_peekNth s 0
  | peekNth ahead => exact current_peekNth s ahead
  | pop | next =>
    rw [Call.move, h.answer_pop]
    refine (current_pop s).trans ?_
    cases hf : s.pop.1.isFinish <;> simp [hf, Call.takes]

/-! ## Many calls -/

theorem Follows.after (h : s.Follows ts) (hts : Readable ts) (calls : List Call) : (s.after calls).Follows ts := by
  induction calls generalizing s with
  | nil => exact h
  | cons c calls ih => exact ih (h.call hts c)

/-- The answers depend on the place only, and not on what is scanned. -/
theorem Follows.history_eq (hts : Readable ts) {s' : TokenStream} {calls : List Call} (h : s.Follows ts)
    (h' : s'.Follows ts) (hcurrent : s.current = s'.current) : s.history calls = s'.history calls := by
  induction calls generalizing s s' with
  | nil => rfl
  | cons c calls ih =>
    have hmove : (s.call c).2.current = (s'.call c).2.current := by rw [h.move, h'.move, hcurrent]
    rw [history, history, h.answer, h'.answer, hcurrent, ih (h.call hts c) (h'.call hts c) hmove]

theorem Follows.current_after (h : s.Follows ts) (hts : Readable ts) (calls : List Call) :
    (s.after calls).current = s.current + taken (s.history calls) := by
  induction calls generalizing s with
  | nil => rfl
  | cons c calls ih =>
    have htakes : (c.takes && ts[s.current]?.any (!·.isFinish)) = (c.takes && (s.call c).1.any (!·.isFinish)) := by
      rw [h.answer]
      cases c with
      | next => rw [Call.answer, Option.any_filter]; simp
      | _ => rfl
    have hlater := ih (h.call hts c)
    rw [h.move, Call.move, htakes] at hlater
    refine hlater.trans ?_
    rw [history, taken, taken, List.countP_cons]
    split <;> omega

/-! ## What is scanned -/

theorem Follows.finish_last (h : s.Follows ts) (hts : Readable ts) :
    s.scanned.toList.dropLast.all (!·.isFinish) = true := by
  have hpre : s.scanned.toList <+: ts := h.all_eq ▸ List.prefix_append ..
  refine List.all_eq_true.2 fun x hx => ?_
  obtain ⟨i, hi, rfl⟩ := List.mem_iff_getElem.1 hx
  have hlen := hpre.length_le
  rw [List.length_dropLast] at hi
  rw [List.getElem_dropLast, hpre.getElem, Bool.not_eq_true', Bool.eq_false_iff]
  intro hfin
  have := (hts.isFinish_getElem (List.getElem?_eq_getElem _)).1 hfin
  omega

theorem Follows.serves (h : s.Follows ts) (hts : Readable ts) : s.Serves ts where
  buffer := h.all_eq ▸ List.prefix_append ..
  finish_last := h.finish_last hts
  current_lt := h.current_lt
  answer := h.answer
  move := h.move
  peekNth_keeps ahead _ := (h.peekNth ahead).history_eq hts h (current_peekNth s ahead)
  index_lt ahead := by
    have := size_scanTo_pos s (s.current + ahead)
    omega

end

theorem follows_ofString (text : String) : (ofString text).Follows (Cursor.ofString text).tokens := by
  have hall : (ofString text).all = (Cursor.ofString text).tokens := by simp [all, ofString, isComplete]
  exact ⟨hall, List.length_pos_iff.2 (readable_tokens_ofString text).ne_nil⟩

/-! ## Taking all tokens -/

theorem takeUpTo_succ (count : Nat) (s : TokenStream) :
    takeUpTo (count + 1) s =
      if s.pop.1.isFinish then ([], s.pop.2)
      else (s.pop.1 :: (takeUpTo count s.pop.2).1, (takeUpTo count s.pop.2).2) := by
  rw [takeUpTo, show s.next? = (if s.pop.1.isFinish then none else some s.pop.1, s.pop.2) from rfl]
  cases s.pop.1.isFinish <;> rfl

theorem Follows.takeUpTo {ts : List Token} (hts : Readable ts) : ∀ {count : Nat} {s : TokenStream}, s.Follows ts →
    ts.length - s.current ≤ count →
      (s.takeUpTo count).1 = (ts.drop s.current).dropLast ∧ (s.takeUpTo count).2.Follows ts ∧
        (s.takeUpTo count).2.current + 1 = ts.length
  | 0, s, h, hcount => by
    have := h.current_lt
    omega
  | count + 1, s, h, hcount => by
    have hend := hts.isFinish_getElem h.answer_pop
    have hdrop : ts.drop s.current = s.pop.1 :: ts.drop (s.current + 1) := by
      rw [List.drop_eq_getElem_cons h.current_lt]
      exact congrArg (· :: _) (Option.some.inj ((List.getElem?_eq_getElem h.current_lt).symm.trans h.answer_pop))
    have hcurrent := current_pop s
    rw [takeUpTo_succ, hdrop]
    cases hf : s.pop.1.isFinish with
    | true =>
      rw [hf, if_pos rfl] at hcurrent
      rw [List.drop_eq_nil_of_le (by have := hend.1 hf; omega)]
      exact ⟨rfl, h.pop hts, hcurrent ▸ hend.1 hf⟩
    | false =>
      rw [hf, if_neg Bool.false_ne_true] at hcurrent
      have hlt := (h.pop hts).current_lt
      have hcount : ts.length - s.pop.2.current ≤ count := by omega
      obtain ⟨hlist, hrest⟩ := Follows.takeUpTo hts (h.pop hts) hcount
      refine ⟨?_, hrest⟩
      rw [hcurrent] at hlist hlt
      rw [List.dropLast_cons_of_ne_nil (List.ne_nil_of_length_pos (by rw [List.length_drop]; omega)), ← hlist]
      rfl

theorem takeAll_ofString (text : String) :
    (ofString text).takeAll.1 = tokenize text ∧ (ofString text).takeAll.2.peek.1 = ⟨.finish, "", text.utf8ByteSize⟩ := by
  have hts := readable_tokens_ofString text
  have h := follows_ofString text
  have hlen : (Cursor.ofString text).tokens.length ≤ (ofString text).remaining + 1 := by
    rw [← ahead_ofString]
    exact length_ahead_le _
  obtain ⟨hlist, hafter, hcurrent⟩ := h.takeUpTo hts (Nat.le_trans (Nat.sub_le _ _) hlen)
  obtain ⟨x, hx, hfin⟩ := tokens_ofString text
  have hlast := hafter.answer_pop
  have hplace : ((ofString text).takeUpTo ((ofString text).remaining + 1)).2.current = (tokenize text).length := by
    rw [hx, List.length_append, List.length_singleton] at hcurrent
    omega
  rw [hplace, hx, List.getElem?_concat_length] at hlast
  exact ⟨hlist, (Option.some.inj hlast).symm.trans (finish_of_tokens hx hfin)⟩

/-- After any calls a stream answers from its place in the list of all tokens, of which the last and no other
is the end; its place is the number of tokens taken. -/
theorem call_at_place (text : String) (calls : List Call) :
    ∃ x, (Cursor.ofString text).tokens = tokenize text ++ [x] ∧ x.isFinish = true ∧
      (tokenize text).all (!·.isFinish) = true ∧
      ((ofString text).after calls).Serves (tokenize text ++ [x]) ∧
      ((ofString text).after calls).current = taken ((ofString text).history calls) := by
  have hts := readable_tokens_ofString text
  have h := follows_ofString text
  obtain ⟨x, hx, hfin⟩ := tokens_ofString text
  refine ⟨x, hx, Token.isFinish_iff.2 hfin, ?_, hx ▸ (h.after hts calls).serves hts, ?_⟩
  · refine List.all_eq_true.2 fun y hy => ?_
    obtain ⟨i, hi, rfl⟩ := List.mem_iff_getElem.1 hy
    rw [Bool.not_eq_true', Bool.eq_false_iff]
    intro hf
    have := (hts.isFinish_getElem (by rw [hx, List.getElem?_append_left hi, List.getElem?_eq_getElem hi])).1 hf
    rw [hx, List.length_append, List.length_singleton] at this
    omega
  · rw [h.current_after hts calls]
    exact Nat.zero_add _

end TokenStream

end Calculator
