import Calculator.Proofs.Decimals
import Calculator.Proofs.Doubles
import Calculator.Proofs.Scanning

/-!
# Reading canonical texts back

The canonical text of a tree falls into the pieces of a single group
(`scans_print`), and these spell the tree again, with the constants their
texts read as (`spells_printed`). Each link of a chain costs a level there and
each sign two, so the text of an accepted tree can nest too deep to be
accepted (`parse_print`).
-/

namespace Calculator

open Text

/-! ## Constants -/

namespace Double

def ofText (p : List Char) : Float := literal (p.takeWhile Char.isDigit) ((p.dropWhile Char.isDigit).drop 1)

/-- The double that the text of a double reads as. -/
def reread (x : Float) : Float := ofText (format x).toList

def IsFinite (x : Float) : Prop := ∃ negative units, ofFloat x = .finite negative units

def printed (x : Float) : Lexeme :=
  match ofFloat x with
  | .finite _ _ => .constant (reread x)
  | _ => .unknown

section
variable {whole : List Char} (h : whole.all Char.isDigit) (fraction : List Char)
include h

theorem takeWhile_decimalText : (decimalText whole fraction).takeWhile Char.isDigit = whole := by
  unfold decimalText
  split
  · exact List.takeWhile_eq_self_iff.2 (List.all_eq_true.1 h)
  · exact takeWhile_append_of_stop h (by rintro _ ⟨⟩; rfl)

theorem dropWhile_decimalText : ((decimalText whole fraction).dropWhile Char.isDigit).drop 1 = fraction := by
  unfold decimalText
  split
  · next hnil => rw [List.dropWhile_eq_nil_iff.2 (List.all_eq_true.1 h), hnil, List.drop_nil]
  · rw [dropWhile_append_of_stop h (by rintro _ ⟨⟩; rfl), List.drop_one, List.tail_cons]

theorem ofText_decimalText : ofText (decimalText whole fraction) = literal whole fraction := by
  rw [ofText, takeWhile_decimalText h, dropWhile_decimalText h]

end

theorem Canonical.written {whole fraction : List Char} (h : Canonical whole fraction) :
    ∃ more, Written (.constant (ofText (decimalText whole fraction))) (decimalText whole fraction) more := by
  rw [ofText_decimalText h.isDigit_whole]
  unfold decimalText
  split
  · next hnil =>
    rw [hnil]
    exact ⟨_, .whole h.whole_ne_nil h.isDigit_whole⟩
  · exact ⟨_, .decimal h.whole_ne_nil h.isDigit_whole rfl h.isDigit_fraction⟩

theorem written_hundredthsText (n : Nat) :
    ∃ more, Written (.constant (ofText (hundredthsText n))) (hundredthsText n) more := by
  obtain ⟨whole, fraction, zeros, hcanonical, htext, -⟩ := exists_hundredthsText n
  rw [htext]
  exact hcanonical.written

theorem not_isBlank_hundredthsText (n : Nat) : ∀ c ∈ (hundredthsText n).head?, isBlank c = false :=
  fun c hc => not_isBlank_of_isDigit (isDigit_head?_hundredthsText n c hc)

theorem hundredths_zero : hundredths 0 = 0 := by decide +kernel

theorem toList_format {x : Float} {negative : Bool} {units : Nat} (hx : ofFloat x = .finite negative units)
    (hsign : negative → units = 0) : (format x).toList = hundredthsText (hundredths units) := by
  have hnot : ¬ (negative = true ∧ hundredths units ≠ 0) := by
    rintro ⟨hneg, hne⟩
    rw [hsign hneg] at hne
    exact hne hundredths_zero
  rw [format, hx, String.toList_ofList, formatChars]
  exact if_neg hnot

theorem scans_format {x : Float} (hx : Unsigned x) {r : List Char} (hr : ∀ c ∈ r.head?, isSeparator c) :
    Scans (format x).toList r [printed x] := by
  obtain hinf | ⟨units, hfin⟩ := hx
  · have hw : Written .unknown "inf".toList isLetter :=
      .word (p := "inf".toList) (by decide) rfl (by rintro _ ⟨⟩; rfl)
    have hprinted : printed x = .unknown := by rw [printed, hinf]
    rw [format, hinf, hprinted, String.toList_ofList]
    exact .one hw (by rintro _ ⟨⟩; rfl) fun c hc => hw.not_more (hr c hc)
  · have htext := toList_format hfin nofun
    have hprinted : printed x = .constant (ofText (hundredthsText (hundredths units))) := by
      rw [printed, hfin, reread, htext]
    obtain ⟨more, hw⟩ := written_hundredthsText (hundredths units)
    rw [htext, hprinted]
    exact .one hw (not_isBlank_hundredthsText _) fun c hc => hw.not_more (hr c hc)

theorem IsFinite.printed_eq {x : Float} (h : IsFinite x) : printed x = .constant (reread x) := by
  obtain ⟨negative, units, h⟩ := h
  rw [printed, h]

theorem printed_of_not_isFinite {x : Float} (h : ¬ IsFinite x) : printed x = .unknown := by
  unfold printed
  split
  · next hx => exact absurd ⟨_, _, hx⟩ h
  · rfl

end Double

/-! ## Names -/

def UnaryFn.lexeme : UnaryFn → Lexeme
  | plus => .operator .add
  | negate => .operator .sub
  | fn => .function fn

/-- The levels that a call takes in canonical text: a sign stands before a group. -/
def UnaryFn.levels : UnaryFn → Nat
  | plus | negate => 2
  | _ => 1

theorem scans_word {s : String} (hne : s.toList ≠ []) (hs : s.toList.all isLetter)
    (hd : ∀ c ∈ s.toList.head?, c.isDigit = false) (hb : ∀ c ∈ s.toList.head?, isBlank c = false) {r : List Char}
    (hr : ∀ c ∈ r.head?, isSeparator c) : Scans s.toList r [.ofWord s] := by
  have hw := Written.word hne hs hd
  rw [String.ofList_toList] at hw
  exact .one hw hb fun c hc => hw.not_more (hr c hc)

theorem UnaryFn.scans_name (fn : UnaryFn) {r : List Char} (hr : ∀ c ∈ r.head?, isSeparator c) :
    Scans fn.name.toList r [fn.lexeme] := by
  cases fn with
  | plus => exact .symbol (c := '+') rfl rfl rfl r
  | negate => exact .symbol (c := '-') rfl rfl rfl r
  | _ => exact scans_word (by decide) (by rfl) (by rintro _ ⟨⟩; rfl) (by rintro _ ⟨⟩; rfl) hr

theorem BinaryFn.scans_symbol (fn : BinaryFn) (r : List Char) : Scans fn.symbol.toList r [.operator fn] := by
  cases fn <;> exact .symbol rfl rfl rfl r

theorem BinaryFn.isSeparator_symbol (fn : BinaryFn) (r : List Char) :
    ∀ c ∈ (fn.symbol.toList ++ r).head?, isSeparator c := by
  cases fn <;> (rintro _ ⟨⟩; rfl)

/-! ## Trees -/

namespace Expr

def constants : Expr → List Float
  | constant value => [value]
  | var _ => []
  | unary _ _ operand => operand.constants
  | binary _ _ left right => left.constants ++ right.constants

def mapConstants (f : Float → Float) : Expr → Expr
  | constant value => .constant (f value)
  | var name => .var name
  | unary name fn operand => .unary name fn (operand.mapConstants f)
  | binary symbol fn left right => .binary symbol fn (left.mapConstants f) (right.mapConstants f)

def printedDepth : Expr → Nat
  | constant _ => 0
  | var _ => 0
  | unary _ fn operand => fn.levels + operand.printedDepth
  | binary _ _ left right => 1 + max left.printedDepth right.printedDepth

def printed : Expr → List Lexeme
  | constant value => [Double.printed value]
  | var _ => [.var]
  | unary _ fn operand => fn.lexeme :: .leftParen :: (operand.printed ++ [.rightParen])
  | binary _ fn left right => .leftParen :: (left.printed ++ .operator fn :: right.printed ++ [.rightParen])

/-- A tree that can be written: its names are those of its functions and its constants have no sign. -/
def Proper : Expr → Prop
  | constant value => Double.Unsigned value
  | var name => name = "t"
  | unary name fn operand => name = fn.name ∧ operand.Proper
  | binary symbol fn left right => symbol = fn.symbol ∧ left.Proper ∧ right.Proper

theorem mapConstants_eq_self {f : Float → Float} {e : Expr} (h : ∀ c ∈ e.constants, f c = c) :
    e.mapConstants f = e := by
  induction e with
  | constant value => rw [mapConstants, h value (by simp [constants])]
  | var name => rfl
  | unary name fn operand ih => rw [mapConstants, ih h]
  | binary symbol fn left right ihl ihr =>
    rw [mapConstants, ihl fun c hc => h c (by simp [constants, hc]), ihr fun c hc => h c (by simp [constants, hc])]

/-- Before a separator a canonical text falls into the pieces of its tree. -/
theorem scans_print {e : Expr} (he : e.Proper) {r : List Char} (hr : ∀ c ∈ r.head?, isSeparator c) :
    Scans e.print.toList r e.printed := by
  induction e generalizing r with
  | constant value => exact Double.scans_format he hr
  | var name =>
    obtain rfl : name = "t" := he
    exact scans_word (by decide) (by rfl) (by rintro _ ⟨⟩; rfl) (by rintro _ ⟨⟩; rfl) hr
  | unary name fn operand ih =>
    obtain ⟨rfl, he⟩ := he
    have hclose : ∀ c ∈ (")".toList ++ r).head?, isSeparator c := by rintro _ ⟨⟩; rfl
    have hopen : ∀ c ∈ ("(".toList ++ (operand.print.toList ++ (")".toList ++ r))).head?, isSeparator c := by
      rintro _ ⟨⟩; rfl
    have h := (((fn.scans_name hopen).append (Scans.leftParen _)).append (ih he hclose)).append (Scans.rightParen r)
    simpa only [print, printed, String.toList_append, List.cons_append, List.nil_append] using h
  | binary symbol fn left right ihl ihr =>
    obtain ⟨rfl, hl, hright⟩ := he
    have hclose : ∀ c ∈ (")".toList ++ r).head?, isSeparator c := by rintro _ ⟨⟩; rfl
    have hsymbol := fn.isSeparator_symbol (right.print.toList ++ (")".toList ++ r))
    have h := ((((Scans.leftParen _).append (ihl hl hsymbol)).append (fn.scans_symbol _)).append
      (ihr hright hclose)).append (Scans.rightParen r)
    simpa [print, printed, String.toList_append] using h

end Expr

/-! ## Canonical texts spell their trees -/

namespace Spells

variable {t : Tier} {w : List Lexeme} {e : Expr} {n : Nat}

theorem to_sum (h : Spells t w e n) (ht : t ≠ .lowest) : Spells .sum w e n := by
  have difference (h : Spells .difference w e n) : Spells .sum w e n := .single (by decide) h
  have product (h : Spells .product w e n) : Spells .sum w e n := difference (.single (by decide) h)
  have quotient (h : Spells .quotient w e n) : Spells .sum w e n := product (.single (by decide) h)
  cases t with
  | lowest => exact absurd rfl ht
  | sum => exact h
  | difference => exact difference h
  | product => exact product h
  | quotient => exact quotient h
  | power => exact quotient (.single (by decide) h)
  | operand => exact h.of_operand .sum

theorem unknown_not_mem (h : Spells t w e n) : Lexeme.unknown ∉ w := by
  induction h <;> simp_all

theorem sign?_eq {op : BinaryFn} {fn : UnaryFn} (h : op.sign? = some fn) : op.symbol = fn.name := by
  cases op <;> cases h <;> rfl

theorem proper (h : Spells t w e n) (hw : ∀ v, .constant v ∈ w → Double.Unsigned v) : e.Proper := by
  induction h with
  | constant value => exact hw value (by simp)
  | var => rfl
  | call _ ih => exact ⟨rfl, ih fun v hv => hw v (by simp [hv])⟩
  | group _ ih => exact ih fun v hv => hw v (by simp [hv])
  | bars _ ih => exact ⟨rfl, ih fun v hv => hw v (by simp [hv])⟩
  | sign hop _ ih => exact ⟨sign?_eq hop, ih fun v hv => hw v (by simp [hv])⟩
  | single _ _ ih => exact ih hw
  | operation _ _ _ ihl ihr => exact ⟨rfl, ihl fun v hv => hw v (by simp [hv]), ihr fun v hv => hw v (by simp [hv])⟩
  | implicit _ _ _ ihl ihr =>
    exact ⟨rfl, ihl fun v hv => hw v (by simp [hv]), ihr fun v hv => hw v (List.mem_append_right _ hv)⟩

end Spells

namespace Expr

theorem spells_unary {fn : UnaryFn} {w : List Lexeme} {e : Expr} {n : Nat} (h : Spells .sum w e n) :
    Spells .operand (fn.lexeme :: .leftParen :: (w ++ [.rightParen])) (.unary fn.name fn e) (fn.levels + n) := by
  cases fn with
  | plus => rw [Nat.add_comm]; exact .sign rfl (.group h)
  | negate => rw [Nat.add_comm]; exact .sign rfl (.group h)
  | _ => rw [Nat.add_comm]; exact .call h

theorem spells_printed {e : Expr} (he : e.Proper) (hc : ∀ c ∈ e.constants, Double.IsFinite c) :
    Spells .operand e.printed (e.mapConstants Double.reread) e.printedDepth := by
  induction e with
  | constant value =>
    rw [printed, (hc value (by simp [constants])).printed_eq]
    exact .constant _
  | var name =>
    obtain rfl : name = "t" := he
    exact .var
  | unary name fn operand ih =>
    obtain ⟨rfl, he⟩ := he
    exact spells_unary ((ih he hc).of_operand .sum)
  | binary symbol fn left right ihl ihr =>
    obtain ⟨rfl, hl, hr⟩ := he
    have hleft := ihl hl fun c h => hc c (by simp [constants, h])
    have hright := ihr hr fun c h => hc c (by simp [constants, h])
    have h : Spells fn.tier _ _ _ := .operation rfl (hleft.of_operand _) (hright.of_operand _)
    rw [printedDepth, Nat.add_comm]
    exact .group (h.to_sum fn.tier_ne_lowest)

theorem unknown_mem_printed {e : Expr} {c : Float} (hc : c ∈ e.constants) (h : ¬ Double.IsFinite c) :
    .unknown ∈ e.printed := by
  induction e with
  | constant value =>
    obtain rfl : c = value := by simpa [constants] using hc
    simp [printed, Double.printed_of_not_isFinite h]
  | var name => cases hc
  | unary name fn operand ih => simp [printed, ih hc]
  | binary symbol fn left right ihl ihr =>
    obtain hl | hr := List.mem_append.1 hc
    · simp [printed, ihl hl]
    · simp [printed, ihr hr]

theorem lexemes_print {e : Expr} (he : e.Proper) : lexemes (tokenize e.print) = e.printed :=
  (scans_print he (by simp)).lexemes_tokenize

end Expr

theorem Written.unsigned {v : Float} {p : List Char} {more : Char → Bool} (h : Written (.constant v) p more) :
    Double.Unsigned v := by
  generalize hx : Lexeme.constant v = x at h
  cases h with
  | whole => cases hx; exact Double.unsigned_literal _ _
  | decimal => cases hx; exact Double.unsigned_literal _ _
  | word =>
    unfold Lexeme.ofWord at hx
    split at hx
    · cases hx; exact Double.unsigned_ofBits (by decide)
    · cases hx; exact Double.unsigned_ofBits (by decide)
    · cases hx
    · split at hx <;> cases hx
  | symbol => unfold Lexeme.ofSymbol at hx; split at hx <;> cases hx

theorem proper_of_parse {text : String} {e : Expr} (h : parse text = .ok e) : e.Proper := by
  obtain ⟨n, -, hw⟩ := parse_eq_ok_iff.1 h
  refine hw.proper fun v hv => ?_
  obtain ⟨x, hx, hxv⟩ := List.mem_map.1 hv
  obtain ⟨more, hwritten⟩ := written_of_mem ((List.dropLast_sublist _).subset hx) (by rw [hxv]; simp)
  rw [hxv] at hwritten
  exact hwritten.unsigned

theorem parse_print_iff {e e' : Expr} (he : e.Proper) :
    parse e.print = .ok e' ↔
      (∀ c ∈ e.constants, Double.IsFinite c) ∧ e.printedDepth ≤ maxDepth ∧ e' = e.mapConstants Double.reread := by
  rw [parse_eq_ok_iff, Expr.lexemes_print he]
  constructor
  · rintro ⟨n, hn, hw⟩
    have hfinite : ∀ c ∈ e.constants, Double.IsFinite c := fun c hc =>
      Classical.byContradiction fun h => hw.unknown_not_mem (Expr.unknown_mem_printed hc h)
    obtain ⟨rfl, rfl⟩ := hw.unique ((Expr.spells_printed he hfinite).of_operand .sum)
    exact ⟨hfinite, hn, rfl⟩
  · rintro ⟨hfinite, hd, rfl⟩
    exact ⟨_, hd, (Expr.spells_printed he hfinite).of_operand .sum⟩

/-- The canonical text of an accepted tree is accepted exactly if its constants are finite and it does not
nest too deep, and gives the tree back with its constants as their texts read. -/
theorem parse_print {text : String} {e : Expr} (h : parse text = .ok e) :
    ((∃ e', parse e.print = .ok e') ↔ (∀ c ∈ e.constants, Double.IsFinite c) ∧ e.printedDepth ≤ maxDepth) ∧
      (∀ e', parse e.print = .ok e' → e' = e.mapConstants Double.reread) ∧
      ((∀ c ∈ e.constants, Double.reread c = c) → ∀ e', parse e.print = .ok e' → e' = e) := by
  -- the tree can be written, and what its text spells is unique
  have hiff : ∀ e', parse e.print = .ok e' ↔ _ := fun e' => parse_print_iff (proper_of_parse h)
  refine ⟨⟨fun ⟨e', h'⟩ => ?_, fun ⟨hfinite, hd⟩ => ⟨_, (hiff _).2 ⟨hfinite, hd, rfl⟩⟩⟩, fun e' h' => ?_,
    fun hfixed e' h' => ?_⟩
  · obtain ⟨hfinite, hd, -⟩ := (hiff e').1 h'
    exact ⟨hfinite, hd⟩
  · exact ((hiff e').1 h').2.2
  · rw [((hiff e').1 h').2.2, Expr.mapConstants_eq_self hfixed]

/-- The canonical text of `1.125t` is `(1.12*t)`, where the constant is another one. -/
theorem parse_print_of_eighths :
    ∃ e, parse "1.125t" = .ok e ∧
      ((∃ e', parse e.print = .ok e') ↔ (∀ c ∈ e.constants, Double.IsFinite c) ∧ e.printedDepth ≤ maxDepth) ∧
      (∀ e', parse e.print = .ok e' → e' = e.mapConstants Double.reread) ∧
      ((∀ c ∈ e.constants, Double.reread c = c) → ∀ e', parse e.print = .ok e' → e' = e) := by
  have hlexemes : lexemes (tokenize "1.125t") = [.constant (Double.literal ['1'] ['1', '2', '5']), .var] := by rfl
  have hspells := (Spells.implicit rfl ((Spells.constant (Double.literal ['1'] ['1', '2', '5'])).of_operand _)
    (Spells.var.of_operand .product)).to_sum nofun
  rw [List.singleton_append, ← hlexemes] at hspells
  have h := parse_eq_ok_iff.2 ⟨_, Nat.zero_le _, hspells⟩
  exact ⟨_, h, parse_print h⟩

end Calculator
