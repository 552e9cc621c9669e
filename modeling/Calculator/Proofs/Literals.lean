import Calculator.Proofs.Decimals
import Calculator.Proofs.Nearest
import Calculator.Proofs.Seams

/-!
# The values of number literals

Digits with a mark among them are one token, and its constant is the double
nearest to the number that they denote (`literal_nearest`). Reading such a
text on its own with a point for a comma gives the same double and does not
fail.
-/

namespace Calculator

open Text

/-! ## Literals -/

namespace Double

theorem isNearest_literal {whole fraction : List Char} {x : Float} :
    IsNearest (decimalValue whole fraction) x ↔ x = literal whole fraction := by
  rw [decimalValue_eq, isNearest_iff _ (tenTo_pos _), literal]

theorem literal_eq_infinity_iff {whole fraction : List Char} :
    literal whole fraction = infinity ↔ overflow ≤ decimalValue whole fraction :=
  (isNearest_literal.2 rfl).eq_infinity_iff

/-! ## Reading -/

theorem nearest_scaled (value places : Nat) :
    nearest (value * tenTo (0 - places : Int).toNat) (tenTo (-(0 - places : Int)).toNat) = nearest value (tenTo places) := by
  rw [Int.zero_sub, Int.neg_neg, Int.toNat_neg_natCast, Int.toNat_natCast, show tenTo 0 = 1 from rfl, Nat.mul_one]

theorem decimal?_whole {p : List Char} (hne : p ≠ []) (hp : p.all Char.isDigit) : decimal? p = some (literal p []) := by
  have htake := List.takeWhile_eq_self_iff.2 (List.all_eq_true.1 hp)
  have hdrop := List.dropWhile_eq_nil_iff.2 (List.all_eq_true.1 hp)
  have hscaled := nearest_scaled (valueOfDigits (p ++ [])) 0
  simp only [decimal?, htake, hdrop, hne, false_and, if_false, exponent?]
  exact congrArg some hscaled

theorem decimal?_decimal {p q : List Char} (hne : p ≠ []) (hp : p.all Char.isDigit) (hq : q.all Char.isDigit) :
    decimal? (p ++ '.' :: q) = some (literal p q) := by
  have hpoint : ∀ c ∈ ('.' :: q).head?, c.isDigit = false := by rintro _ ⟨⟩; rfl
  have htake := List.takeWhile_eq_self_iff.2 (List.all_eq_true.1 hq)
  have hdrop := List.dropWhile_eq_nil_iff.2 (List.all_eq_true.1 hq)
  have hscaled := nearest_scaled (valueOfDigits (p ++ q)) q.length
  simp only [decimal?, takeWhile_append_of_stop hp hpoint, dropWhile_append_of_stop hp hpoint, htake, hdrop, hne,
    false_and, if_false, exponent?]
  exact congrArg some hscaled

theorem read_of_decimal? {p : List Char} {x : Float} (hne : p ≠ []) (hp : ∀ c ∈ p.head?, c.isDigit)
    (h : decimal? p = some x) : read (String.ofList p) = .ok x := by
  obtain ⟨c, p, rfl⟩ := List.exists_cons_of_ne_nil hne
  have hc : c.isDigit := hp c rfl
  have hsign : splitSign (c :: p) = (false, c :: p) := by
    unfold splitSign
    split
    · next heq => rw [(List.cons.inj heq).1] at hc; cases hc
    · next heq => rw [(List.cons.inj heq).1] at hc; cases hc
    · rfl
  have htext : String.ofList (c :: p) ≠ "" := by
    rw [Ne, ← String.toList_inj, String.toList_ofList]
    exact List.cons_ne_nil c p
  simp only [read, if_neg htext, String.toList_ofList, hsign, h]
  rfl

end Double

/-! ## Tokens -/

/-- A text of digits, and after them at most one mark with the digits of a fraction. -/
inductive NumberText : List Char → List Char → List Char → Prop where
  | whole {p : List Char} : p ≠ [] → p.all Char.isDigit → NumberText p [] p
  | decimal {p q : List Char} {mark : Char} : p ≠ [] → p.all Char.isDigit → isDecimalMark mark → q.all Char.isDigit →
      NumberText p q (p ++ mark :: q)

def pointed (p : List Char) : List Char := p.map fun c => if c = ',' then '.' else c

theorem pointed_digits {p : List Char} (hp : p.all Char.isDigit) : pointed p = p := by
  have hsame : ∀ c ∈ p, (if c = ',' then '.' else c) = c := by
    intro c hc
    refine if_neg ?_
    rintro rfl
    exact absurd (List.all_eq_true.1 hp _ hc) (by decide)
  exact (List.map_congr_left hsame).trans (List.map_id' p)

theorem pointed_mark {mark : Char} (hm : isDecimalMark mark) (p q : List Char) :
    pointed (p ++ mark :: q) = pointed p ++ '.' :: pointed q := by
  have hpoint : (if mark = ',' then '.' else mark) = '.' := by
    rw [isDecimalMark, Bool.or_eq_true, beq_iff_eq, beq_iff_eq] at hm
    rcases hm with rfl | rfl <;> rfl
  rw [pointed, List.map_append, List.map_cons, hpoint]
  rfl

namespace NumberText

variable {whole fraction p : List Char}

theorem exists_written (h : NumberText whole fraction p) :
    ∃ more, Written (.constant (Double.literal whole fraction)) p more := by
  cases h with
  | whole hne hp => exact ⟨_, .whole hne hp⟩
  | decimal hne hp hm hq => exact ⟨_, .decimal hne hp hm hq⟩

theorem numeral (h : NumberText whole fraction p) : Numeral p (Double.literal whole fraction) := by
  cases h with
  | whole hne hp => exact .whole hne hp
  | decimal hne hp hm hq => exact .decimal hne hp hm hq

theorem read_pointed (h : NumberText whole fraction p) :
    Double.read (String.ofList (pointed p)) = .ok (Double.literal whole fraction) := by
  have hhead : ∀ {p : List Char}, p.all Char.isDigit → ∀ c ∈ p.head?, c.isDigit := fun hp c hc =>
    List.all_eq_true.1 hp c (List.mem_of_mem_head? hc)
  cases h with
  | whole hne hp =>
    rw [pointed_digits hp]
    exact Double.read_of_decimal? hne (hhead hp) (Double.decimal?_whole hne hp)
  | decimal hne hp hm hq =>
    rw [pointed_mark hm, pointed_digits hp, pointed_digits hq]
    refine Double.read_of_decimal? (List.append_ne_nil_of_left_ne_nil hne _) ?_ (Double.decimal?_decimal hne hp hq)
    rw [List.head?_append_of_ne_nil _ hne]
    exact hhead hp

variable {text : String} {x : Token}

theorem tokenize_eq (h : NumberText whole fraction text.toList) :
    tokenize text = [⟨.constant (Double.literal whole fraction), text, 0⟩] := by
  have hblank : ∀ c ∈ text.toList.head?, isBlank c = false := fun c hc =>
    not_isBlank_of_isDigit (h.numeral.head_isDigit c hc)
  obtain ⟨more, hw⟩ := h.exists_written
  exact tokenize_of_written hw hblank

theorem lexeme_eq (hx : x ∈ tokenize text) (h : NumberText whole fraction x.text.toList) :
    x.lexeme = .constant (Double.literal whole fraction) := by
  have halone := h.tokenize_eq
  rw [tokenize_slice hx] at halone
  exact congrArg Token.lexeme (List.head_eq_of_cons_eq halone)

end NumberText

theorem exists_numberText {text : String} {x : Token} (hx : x ∈ tokenize text)
    (hdigit : ∃ c ∈ x.text.toList.head?, c.isDigit) : ∃ whole fraction, NumberText whole fraction x.text.toList := by
  obtain ⟨more, hw, -⟩ := (cuts_tokenize text).written x hx
  obtain ⟨c, hhead, hc⟩ := hdigit
  generalize x.text.toList = p at hw hhead
  generalize x.lexeme = y at hw
  cases hw with
  | whole hne hp => exact ⟨_, _, .whole hne hp⟩
  | decimal hne hp hm hq => exact ⟨_, _, .decimal hne hp hm hq⟩
  | word _ _ hstop => exact absurd hc (Bool.eq_false_iff.1 (hstop c hhead))
  | symbol hstop =>
    cases hhead
    exact absurd hc (Bool.eq_false_iff.1 hstop)

/-- The value of a number literal is the double nearest to what its digits denote, whichever the mark is, and is read
off them without fail. -/
theorem literal_nearest :
    (∀ whole fraction x, Double.IsNearest (Double.decimalValue whole fraction) x ↔ x = Double.literal whole fraction) ∧
    (∀ whole fraction, Double.literal whole fraction = Double.infinity ↔
      Double.overflow ≤ Double.decimalValue whole fraction) ∧
    (∀ whole fraction text, NumberText whole fraction text.toList →
      Double.read (String.ofList (pointed text.toList)) = .ok (Double.literal whole fraction) ∧
        tokenize text = [⟨.constant (Double.literal whole fraction), text, 0⟩]) ∧
    ∀ text, ∀ x ∈ tokenize text, (∃ c ∈ x.text.toList.head?, c.isDigit) → ∃ whole fraction,
      NumberText whole fraction x.text.toList ∧ x.lexeme = .constant (Double.literal whole fraction) := by
  refine ⟨fun _ _ _ => Double.isNearest_literal, fun _ _ => Double.literal_eq_infinity_iff,
    fun _ _ _ h => ⟨h.read_pointed, h.tokenize_eq⟩, fun text x hx hdigit => ?_⟩
  obtain ⟨whole, fraction, h⟩ := exists_numberText hx hdigit
  exact ⟨whole, fraction, h, h.lexeme_eq hx⟩

theorem literal_nearest_of_comma :
    NumberText ['2'] ['5', '0'] "2,50".toList ∧
      Double.read (String.ofList (pointed "2,50".toList)) = .ok (Double.literal ['2'] ['5', '0']) ∧
      Double.IsNearest (5 / 2) (Double.literal ['2'] ['5', '0']) ∧
      ∃ x ∈ tokenize "2,50t", (∃ c ∈ x.text.toList.head?, c.isDigit) ∧ ∃ whole fraction,
        NumberText whole fraction x.text.toList ∧ x.lexeme = .constant (Double.literal whole fraction) := by
  obtain ⟨hnearest, -, hread, htoken⟩ := literal_nearest
  have htext : NumberText ['2'] ['5', '0'] "2,50".toList :=
    @NumberText.decimal ['2'] ['5', '0'] ',' (List.cons_ne_nil _ _) rfl rfl rfl
  have hvalue : Double.decimalValue ['2'] ['5', '0'] = 5 / 2 := by
    rw [Double.decimalValue, show Double.valueOfDigits ['2'] = 2 from rfl,
      show Double.valueOfDigits ['5', '0'] = 50 from rfl]
    norm_num
  have htokens : tokenize "2,50t" = [⟨.constant (Double.literal ['2'] ['5', '0']), "2,50", 0⟩, ⟨.var, "t", 4⟩] := by rfl
  have hx : ⟨.constant (Double.literal ['2'] ['5', '0']), "2,50", 0⟩ ∈ tokenize "2,50t" := by simp [htokens]
  rw [← hvalue]
  exact ⟨htext, (hread _ _ _ htext).1, (hnearest _ _ _).2 rfl, _, hx, ⟨'2', rfl, rfl⟩, htoken _ _ hx ⟨'2', rfl, rfl⟩⟩

end Calculator
