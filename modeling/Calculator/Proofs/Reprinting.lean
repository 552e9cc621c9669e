import Calculator.Eval
import Calculator.Proofs.RoundTrip
import Calculator.Proofs.Rounding

/-!
# Canonical texts are fixed

The double that a text of two places reads as has that text again
(`format_reread`). Up to 2^46 a step of the grid of doubles is less than a
hundredth, so what the reading adds is rounded away. From there on it is more
than a hundredth, and the text reads as the very double it is written from. So
a tree that is read from a canonical text has that text and no other
(`print_fixed`).
-/

namespace Calculator

open Text

namespace Double

/-! ## Hundredths -/

theorem spacing_lt_hundredth {w : Nat} (h : w < twoTo 1120) : 100 * spacing w < one := by
  have hstep : spacing w ≤ twoTo 1067 := spacing_le h
  have hone : one = twoTo 1067 * twoTo 7 := twoTo_add 1067 7
  rw [show twoTo 7 = 128 from rfl] at hone
  have hpos := twoTo_pos 1067
  generalize twoTo 1067 = step at *
  omega

theorem hundredth_lt_spacing {w : Nat} (h : twoTo 1120 ≤ w) : one < 100 * spacing w := by
  have hstep : twoTo 1068 ≤ spacing w := le_spacing h
  have hone : one = twoTo 1068 * twoTo 6 := twoTo_add 1068 6
  rw [show twoTo 6 = 64 from rfl] at hone
  have hpos := twoTo_pos 1068
  generalize twoTo 1068 = step at *
  omega

/-- The double nearest to the hundredths of a finite double is finite and has the same hundredths. -/
theorem hundredths_nearestUnits {units : Nat} (hgrid : OnGrid units) (h : units < twoTo 2098) :
    hundredths (nearestUnits (hundredths units) 100) = hundredths units ∧
      nearestUnits (hundredths units) 100 < twoTo 2098 := by
  have hround := roundHalfEven_error (100 * units) one_pos
  rw [← hundredths] at hround
  have hread := nearestUnits_error (hundredths units) (show 0 < 100 by decide)
  obtain hlow | hhigh := Nat.lt_or_ge (hundredths units * one / 100) (twoTo 1120)
  · have hstep := spacing_lt_hundredth hlow
    constructor
    · rw [hundredths]
      refine roundHalfEven_eq ?_ ?_ <;> omega
    · have hone : one ≤ twoTo 1120 := twoTo_le (by decide)
      have hlast : twoTo (1120 + 1) ≤ twoTo 2098 := twoTo_le (by decide)
      rw [twoTo_add] at hlast
      rw [show twoTo 1 = 2 from rfl] at hlast
      omega
  · have hstep := hundredth_lt_spacing hhigh
    have heq : nearestUnits (hundredths units) 100 = units := nearestUnits_eq hgrid (by omega) (by omega)
    rw [heq]
    exact ⟨rfl, h⟩

/-! ## Texts -/

theorem nearest_mul_left (num den : Nat) {k : Nat} (hk : 0 < k) : nearest (k * num) (k * den) = nearest num den := by
  rw [nearest, nearest, nearestUnits_mul_left num den hk]

theorem ofText_hundredthsText (n : Nat) : ofText (hundredthsText n) = nearest n 100 := by
  obtain ⟨whole, fraction, zeros, hcanonical, htext, hplaces, hvalue, -⟩ := exists_hundredthsText n
  have hhundred : tenTo zeros * tenTo fraction.length = 100 := by
    rw [← tenTo_add, Nat.add_comm, hplaces]
    rfl
  rw [htext, ofText_decimalText hcanonical.isDigit_whole, literal, ← nearest_mul_left _ _ (tenTo_pos zeros), hhundred,
    Nat.mul_comm, hvalue]

section
variable {x : Float} {negative : Bool} {units : Nat} (hx : ofFloat x = .finite negative units)
  (hsign : negative → units = 0)
include hx hsign

theorem ofFloat_reread : ofFloat (reread x) = .finite false (nearestUnits (hundredths units) 100) := by
  rw [reread, toList_format hx hsign, ofText_hundredthsText]
  obtain ⟨hgrid, hlt⟩ := onGrid_of_ofFloat hx
  exact ofFloat_ofUnits (onGrid_nearestUnits _ _) (hundredths_nearestUnits hgrid hlt).2

theorem format_reread : format (reread x) = format x := by
  obtain ⟨hgrid, hlt⟩ := onGrid_of_ofFloat hx
  refine String.toList_inj.1 ?_
  rw [toList_format (ofFloat_reread hx hsign) nofun, toList_format hx hsign, (hundredths_nearestUnits hgrid hlt).1]

theorem parse_format : parse (format x) = .ok (.constant (reread x)) := by
  obtain ⟨more, hw⟩ := written_hundredthsText (hundredths units)
  have hscans := Scans.one hw (not_isBlank_hundredthsText _) (r := []) nofun
  rw [← toList_format hx hsign] at hscans
  rw [parse_eq_ok_iff, hscans.lexemes_tokenize]
  exact ⟨0, Nat.zero_le _, (Spells.constant _).of_operand .sum⟩

end

end Double

/-! ## Trees -/

namespace Expr

theorem print_mapConstants {f : Float → Float} {e : Expr}
    (h : ∀ c ∈ e.constants, Double.format (f c) = Double.format c) : (e.mapConstants f).print = e.print := by
  induction e with
  | constant value => exact h value (by simp [constants])
  | var name => rfl
  | unary name fn operand ih => rw [mapConstants, print, print, ih h]
  | binary symbol fn left right ihl ihr =>
    rw [mapConstants, print, print, ihl fun c hc => h c (by simp [constants, hc]),
      ihr fun c hc => h c (by simp [constants, hc])]

theorem Proper.unsigned {e : Expr} (h : e.Proper) : ∀ c ∈ e.constants, Double.Unsigned c := by
  induction e with
  | constant value =>
    intro c hc
    obtain rfl : c = value := by simpa [constants] using hc
    exact h
  | var name => exact fun c hc => absurd hc List.not_mem_nil
  | unary name fn operand ih => exact ih h.2
  | binary symbol fn left right ihl ihr =>
    intro c hc
    obtain hl | hr := List.mem_append.1 hc
    · exact ihl h.2.1 c hl
    · exact ihr h.2.2 c hr

def roundTrips : Nat → Expr → Except ParseError Expr
  | 0, e => .ok e
  | n + 1, e => do roundTrips n (← parse e.print)

theorem roundTrips_of_fixed {e : Expr} (h : parse e.print = .ok e) (n : Nat) : e.roundTrips n = .ok e := by
  induction n with
  | zero => rfl
  | succ n ih => rw [roundTrips, h]; exact ih

end Expr

theorem print_reread {e : Expr} (he : e.Proper) (hc : ∀ c ∈ e.constants, Double.IsFinite c) :
    (e.mapConstants Double.reread).print = e.print := by
  refine Expr.print_mapConstants fun c hmem => ?_
  obtain hinf | ⟨units, hx⟩ := he.unsigned c hmem
  · obtain ⟨negative, units, hx⟩ := hc c hmem
    rw [hinf] at hx
    cases hx
  · exact Double.format_reread hx nofun

/-- A tree that is read from a canonical text has that text, so it is read from its own text, and from each later
one. This holds as each finite double without a sign has the text of the double that its text reads as. -/
theorem print_fixed :
    (∀ text e e', parse text = .ok e → parse e.print = .ok e' →
      e'.print = e.print ∧ parse e'.print = .ok e' ∧
        ∀ n, ∃ later, e.roundTrips (n + 1) = .ok later ∧ later = e' ∧ later.print = e.print ∧
          ∀ ctx, later.eval ctx = e'.eval ctx) ∧
    ∀ x negative units, Double.ofFloat x = .finite negative units → (negative → units = 0) →
      parse (Double.format x) = .ok (.constant (Double.reread x)) ∧
        Double.format (Double.reread x) = Double.format x := by
  refine ⟨fun text e e' h h' => ?_, fun x negative units hx hsign =>
    ⟨Double.parse_format hx hsign, Double.format_reread hx hsign⟩⟩
  have he := proper_of_parse h
  obtain ⟨hfinite, -, rfl⟩ := (parse_print_iff he).1 h'
  have hprint := print_reread he hfinite
  have hfixed := h'
  rw [← hprint] at hfixed
  refine ⟨hprint, hfixed, fun n => ⟨_, ?_, rfl, hprint, fun _ => rfl⟩⟩
  rw [Expr.roundTrips, h']
  exact Expr.roundTrips_of_fixed hfixed n

theorem print_fixed_of_eighth :
    ∃ e e', parse "0.125" = .ok e ∧ parse e.print = .ok e' ∧
      (e'.print = e.print ∧ parse e'.print = .ok e' ∧
        ∀ n, ∃ later, e.roundTrips (n + 1) = .ok later ∧ later = e' ∧ later.print = e.print ∧
          ∀ ctx, later.eval ctx = e'.eval ctx) ∧
      ∃ x, Double.ofFloat x = .finite false (Double.twoTo 1071) ∧
        parse (Double.format x) = .ok (.constant (Double.reread x)) ∧
          Double.format (Double.reread x) = Double.format x := by
  have hlexemes : lexemes (tokenize "0.125") = [.constant (Double.nearest 125 1000)] := by rfl
  have hspells := (Spells.constant (Double.nearest 125 1000)).of_operand .sum
  rw [← hlexemes] at hspells
  have hunits : Double.nearestUnits 125 1000 = Double.twoTo 1071 := by decide +kernel
  have hx : Double.ofFloat (Double.nearest 125 1000) = .finite false (Double.twoTo 1071) := by
    rw [Double.nearest, hunits]
    exact Double.ofFloat_ofUnits (Double.onGrid_twoTo 1071) (Double.twoTo_lt (by decide))
  have h := parse_eq_ok_iff.2 ⟨_, Nat.zero_le _, hspells⟩
  have h' := Double.parse_format hx nofun
  exact ⟨_, _, h, h', print_fixed.1 _ _ _ h h', _, hx, print_fixed.2 _ _ _ hx nofun⟩

end Calculator
