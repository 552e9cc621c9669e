import Calculator.Proofs.Reprinting
import Calculator.Proofs.Values

/-!
# Numbers to two places

The text of a finite double is the canonical decimal of the hundredth nearest
to it, and of two as near of the even one (`format_rounds`). So doubles have
one text exactly if they round to one hundredth.
-/

namespace Calculator.Double

/-! ## Texts of hundredths -/

theorem hundredthsText_inj {m n : Nat} (h : hundredthsText m = hundredthsText n) : m = n := by
  obtain ⟨whole, fraction, zeros, hcanonical, htext, hplaces, hm, -⟩ := exists_hundredthsText m
  obtain ⟨whole', fraction', zeros', hcanonical', htext', hplaces', hn, -⟩ := exists_hundredthsText n
  rw [htext, htext'] at h
  obtain rfl : whole = whole' := by
    rw [← takeWhile_decimalText hcanonical.isDigit_whole fraction, h, takeWhile_decimalText hcanonical'.isDigit_whole]
  obtain rfl : fraction = fraction' := by
    rw [← dropWhile_decimalText hcanonical.isDigit_whole fraction, h, dropWhile_decimalText hcanonical'.isDigit_whole]
  obtain rfl : zeros = zeros' := by omega
  rw [← hm, ← hn]

theorem decimalValue_hundredths {whole fraction : List Char} {zeros n : Nat} (hplaces : fraction.length + zeros = 2)
    (hvalue : valueOfDigits (whole ++ fraction) * tenTo zeros = n) : decimalValue whole fraction = n / 100 := by
  have hten : tenTo 2 = tenTo fraction.length * tenTo zeros := by rw [← tenTo_add, hplaces]
  have hpos : (tenTo zeros : ℚ) ≠ 0 := Nat.cast_ne_zero.2 (tenTo_pos zeros).ne'
  have hhundred : (100 : ℚ) = tenTo fraction.length * tenTo zeros := by exact_mod_cast hten
  rw [decimalValue_eq, hhundred, ← hvalue, Nat.cast_mul, mul_div_mul_right _ _ hpos]

def signedText (m : ℤ) : List Char := (if m < 0 then ['-'] else []) ++ hundredthsText m.natAbs

theorem head?_signedText (m : ℤ) : (signedText m).head? = some '-' ↔ m < 0 := by
  unfold signedText
  split
  · next hm => simp [hm]
  · next hm =>
    rw [List.nil_append, iff_false_right hm]
    exact fun h => absurd (isDigit_head?_hundredthsText _ _ h) (by decide)

theorem signedText_inj {m n : ℤ} (h : signedText m = signedText n) : m = n := by
  have hsign : m < 0 ↔ n < 0 := by rw [← head?_signedText, h, head?_signedText]
  have hsize : m.natAbs = n.natAbs := by
    apply hundredthsText_inj
    simp only [signedText, hsign] at h
    exact List.append_cancel_left h
  omega

/-! ## Texts of doubles -/

theorem exists_roundsTo {x : Float} {v : ℚ} (h : value? x = some v) :
    ∃ m, RoundsTo (100 * v) m ∧ (format x).toList = signedText m := by
  obtain ⟨negative, units, hx, rfl⟩ := value?_eq_some_iff.1 h
  have hround := roundsTo_roundHalfEven (100 * units) one_pos
  rw [← hundredths, Nat.cast_mul, mul_div_assoc, Nat.cast_ofNat] at hround
  rw [format, hx, String.toList_ofList, formatChars]
  generalize hundredths units = n at hround ⊢
  cases negative
  · exact ⟨n, hround, by simp [signedText]⟩
  · have hneg := hround.neg
    rw [← mul_neg] at hneg
    refine ⟨-n, hneg, ?_⟩
    by_cases hzero : n = 0
    · simp [signedText, hzero]
    · simp [signedText, hzero, Nat.pos_of_ne_zero hzero]

theorem exists_decimal (m : ℤ) : ∃ whole fraction, Canonical whole fraction ∧
    signedText m = (if m < 0 then ['-'] else []) ++ decimalText whole fraction ∧
      (if m < 0 then -decimalValue whole fraction else decimalValue whole fraction) = m / 100 ∧
        (fraction = [] ↔ 100 ∣ m) := by
  obtain ⟨whole, fraction, zeros, hcanonical, htext, hplaces, hvalue, hwhole⟩ := exists_hundredthsText m.natAbs
  refine ⟨whole, fraction, hcanonical, ?_, ?_, ?_⟩
  · rw [signedText, htext]
  · rw [decimalValue_hundredths hplaces hvalue, Nat.cast_natAbs]
    split
    · next hneg => rw [abs_of_neg hneg, Int.cast_neg, neg_div, neg_neg]
    · next hpos => rw [abs_of_nonneg (not_lt.1 hpos)]
  · rw [hwhole, ← Int.natCast_dvd_natCast, Int.dvd_natAbs, Nat.cast_ofNat]

/-- A text has no zero too many and no exponent, and a sign exactly if it is of less than no hundredths. -/
theorem format_rounds :
    (∀ x : Float, x.isFinite → ∃ v m whole fraction, value? x = some v ∧ RoundsTo (100 * v) m ∧
      Canonical whole fraction ∧ (format x).toList = (if m < 0 then ['-'] else []) ++ decimalText whole fraction ∧
        (if m < 0 then -decimalValue whole fraction else decimalValue whole fraction) = m / 100 ∧
          (fraction = [] ↔ 100 ∣ m)) ∧
      ∀ x y v w, value? x = some v → value? y = some w →
        (format x = format y ↔ ∃ m, RoundsTo (100 * v) m ∧ RoundsTo (100 * w) m) := by
  constructor
  · intro x hx
    rw [← isSome_value?, Option.isSome_iff_exists] at hx
    obtain ⟨v, hv⟩ := hx
    obtain ⟨m, hm, htext⟩ := exists_roundsTo hv
    obtain ⟨whole, fraction, hcanonical, hsigned, hvalue, hwhole⟩ := exists_decimal m
    exact ⟨v, m, whole, fraction, hv, hm, hcanonical, htext.trans hsigned, hvalue, hwhole⟩
  · intro x y v w hx hy
    obtain ⟨m, hm, htext⟩ := exists_roundsTo hx
    obtain ⟨n, hn, htext'⟩ := exists_roundsTo hy
    constructor
    · intro h
      rw [h, htext'] at htext
      obtain rfl : n = m := signedText_inj htext
      exact ⟨n, hm, hn⟩
    · rintro ⟨k, hk, hk'⟩
      apply String.toList_inj.1
      rw [htext, htext', hm.unique hk, hn.unique hk']

/-- An eighth has the text of twelve hundredths, the even one of two, and 15/128 has it as well. -/
theorem format_rounds_of_eighth :
    (ofUnits (16 * twoTo 1067)).isFinite ∧ value? (ofUnits (16 * twoTo 1067)) = some (1 / 8) ∧
      (∃ whole fraction, Canonical whole fraction ∧
        (format (ofUnits (16 * twoTo 1067))).toList = decimalText whole fraction ∧
          decimalValue whole fraction = 12 / 100) ∧
        value? (ofUnits (15 * twoTo 1067)) = some (15 / 128) ∧
          format (ofUnits (16 * twoTo 1067)) = format (ofUnits (15 * twoTo 1067)) := by
  have hx : value? (ofUnits (16 * twoTo 1067)) = some (1 / 8) := by
    rw [value?_ofUnits (by decide) (by decide +kernel)]
    norm_num
  have hy : value? (ofUnits (15 * twoTo 1067)) = some (15 / 128) := by
    rw [value?_ofUnits (by decide) (by decide +kernel)]
    norm_num
  have hfinite : (ofUnits (16 * twoTo 1067)).isFinite := by rw [← isSome_value?, hx, Option.isSome_some]
  have hround : RoundsTo (100 * (1 / 8)) 12 := ⟨by norm_num [abs_le], fun _ => by decide⟩
  have hround' : RoundsTo (100 * (15 / 128)) 12 := ⟨by norm_num [abs_le], fun _ => by decide⟩
  refine ⟨hfinite, hx, ?_, hy, (format_rounds.2 _ _ _ _ hx hy).2 ⟨12, hround, hround'⟩⟩
  obtain ⟨v, m, whole, fraction, hv, hm, hcanonical, htext, hvalue, -⟩ := format_rounds.1 _ hfinite
  obtain rfl : 1 / 8 = v := Option.some.inj (hx.symm.trans hv)
  obtain rfl : m = 12 := hm.unique hround
  exact ⟨whole, fraction, hcanonical, htext, hvalue⟩

end Calculator.Double
