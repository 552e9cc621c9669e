import Calculator.Proofs.Values

/-!
# The nearest double

The double that a quotient is rounded to is the one nearest to it, of two as
near the one whose significand is even, and infinity from half a step past the
last finite double on (`isNearest_nearest`). No other double is like that
(`IsNearest.unique`).
-/

namespace Calculator.Double

/-- Half a step past the last finite double. -/
def overflow : ℚ := 2 ^ 1024 - 2 ^ 970

def infinity : Float := Float.ofBits 0x7FF0000000000000

/-- `v` is no farther from `q` than another number `w`, and as far only if `v` is even. -/
structure NoFarther (q v w : ℚ) (even : Prop) : Prop where
  le : |q - v| ≤ |q - w|
  tie : |q - v| = |q - w| → w = v ∨ even

/-- `x` is the double nearest to a number that is not negative, of two as near the one with an even significand. -/
def IsNearest (q : ℚ) (x : Float) : Prop :=
  if q < overflow then
    x.toBits.toNat < 2 ^ 63 ∧
      ∃ v, value? x = some v ∧ ∀ y w, value? y = some w → NoFarther q v w (Even x.toBits.toNat)
  else x = infinity

/-! ## Nearest on the grid -/

def distance (num den units : Nat) : Nat := ((num * one : Nat) - (units * den : Nat) : ℤ).natAbs

theorem even_div_spacing {m : Nat} (hm : m ≤ twoTo 53) (heven : Even m) (k : Nat) :
    Even (m * twoTo k / spacing (m * twoTo k)) := by
  by_cases hle : (m * twoTo k).log2 - 52 ≤ k
  · have hsplit : twoTo k = twoTo (k - ((m * twoTo k).log2 - 52)) * spacing (m * twoTo k) := by
      rw [spacing, ← twoTo_add, Nat.sub_add_cancel hle]
    have hmul : m * twoTo k = m * twoTo (k - ((m * twoTo k).log2 - 52)) * spacing (m * twoTo k) := by
      rw [Nat.mul_assoc, ← hsplit]
    rw [Nat.div_eq_of_eq_mul_left (spacing_pos _) hmul]
    exact heven.mul_right _
  · -- the steps of the grid at the number are longer, so it is the power of two where they start
    have hne : m * twoTo k ≠ 0 := by
      intro hzero
      rw [hzero] at hle
      exact hle (Nat.zero_le k)
    have hpow : twoTo 53 * twoTo k ≤ m * twoTo k := by
      rw [← twoTo_add]
      exact (Nat.le_log2 hne).1 (by omega)
    obtain rfl : m = twoTo 53 := Nat.le_antisymm hm (Nat.le_of_mul_le_mul_right hpow (twoTo_pos k))
    have hstep : spacing (twoTo (53 + k)) = twoTo (k + 1) := by
      rw [spacing, log2_twoTo]
      congr 1
      omega
    rw [← twoTo_add, hstep, show 53 + k = 52 + (k + 1) by omega, twoTo_add, Nat.mul_div_cancel _ (twoTo_pos _)]
    exact ⟨twoTo 51, rfl⟩

section
variable (num : Nat) {den w : Nat} (hden : 0 < den)
include hden

theorem distance_nearestUnits_le (hw : OnGrid w) : distance num den (nearestUnits num den) ≤ distance num den w := by
  obtain ⟨hlow, hhigh⟩ := nearestUnits_error num hden
  by_contra hlt
  simp only [distance] at hlt
  have heq : nearestUnits num den = w := nearestUnits_eq hw (by omega) (by omega)
  rw [heq] at hlt
  exact hlt le_rfl

theorem nearestUnits_even (hw : OnGrid w) (htie : distance num den (nearestUnits num den) = distance num den w)
    (hne : w ≠ nearestUnits num den) : Even (nearestUnits num den / spacing (nearestUnits num den)) := by
  obtain ⟨hlow, hhigh⟩ := nearestUnits_error num hden
  have hpos := Nat.mul_pos hden (spacing_pos (num * one / den))
  have hassoc : nearestUnits num den * den =
      roundHalfEven (num * one) (den * spacing (num * one / den)) * (den * spacing (num * one / den)) := by
    rw [nearestUnits_def, Nat.mul_assoc, Nat.mul_comm (spacing _)]
  -- less than half a step away the number on the grid is the only one
  have hhalf : 2 * distance num den (nearestUnits num den) = den * spacing (num * one / den) := by
    by_contra hless
    refine hne (nearestUnits_eq hw ?_ ?_).symm
    all_goals
      simp only [distance] at htie hless
      omega
  have heven : roundHalfEven (num * one) (den * spacing (num * one / den)) % 2 = 0 := by
    refine roundHalfEven_even hpos ?_
    rw [← hassoc]
    simp only [distance] at hhalf
    omega
  exact even_div_spacing (roundHalfEven_spacing_le num den) (Nat.even_iff.2 heven) _

end

/-! ## Past the last finite double -/

def largest : Nat := (twoTo 53 - 1) * twoTo 2045

theorem onGrid_largest : OnGrid largest := onGrid_mul_twoTo (Nat.sub_le _ _) 2045

theorem largest_add : largest + twoTo 2045 = twoTo 2098 := by
  have hlast : twoTo 2098 = twoTo 53 * twoTo 2045 := twoTo_add 53 2045
  rw [largest, Nat.sub_mul, hlast, Nat.one_mul, Nat.sub_add_cancel]
  exact Nat.le_mul_of_pos_left _ (twoTo_pos 53)

theorem largest_div_spacing : largest / spacing largest = twoTo 53 - 1 := by
  have hlow : twoTo 2097 ≤ largest := by
    rw [largest, show twoTo 2097 = twoTo 52 * twoTo 2045 from twoTo_add 52 2045]
    exact Nat.mul_le_mul_right _ (by decide)
  have hhigh : largest < twoTo 2098 := by
    rw [← largest_add]
    exact Nat.lt_add_of_pos_right (twoTo_pos 2045)
  have hstep : spacing largest = twoTo 2045 := by rw [spacing, log2_eq hlow hhigh]
  rw [hstep, largest, Nat.mul_div_cancel _ (twoTo_pos 2045)]

theorem le_largest {units : Nat} (hgrid : OnGrid units) (h : units < twoTo 2098) : units ≤ largest := by
  have hadd : units + twoTo 2045 ≤ twoTo 2098 := hgrid.add_le h
  rw [← largest_add] at hadd
  exact Nat.le_of_add_le_add_right hadd

theorem not_even_largest : ¬ Even (largest / spacing largest) := by
  rw [largest_div_spacing]
  decide

theorem nearestUnits_lt_iff {num den : Nat} (hden : 0 < den) :
    nearestUnits num den < twoTo 2098 ↔ num * one < (twoTo 2098 - twoTo 2044) * den := by
  have hdouble : twoTo 2045 = twoTo 2044 * 2 := twoTo_succ 2044
  have hlast := largest_add
  rw [hdouble] at hlast
  have hlast' : largest * den + twoTo 2044 * den * 2 = twoTo 2098 * den := by
    rw [← hlast, Nat.add_mul, Nat.mul_right_comm]
  have hpos := Nat.mul_pos (twoTo_pos 2044) hden
  have hle := le_largest (onGrid_nearestUnits num den)
  have hnear := distance_nearestUnits_le num hden (onGrid_twoTo 2098)
  have hnear' := distance_nearestUnits_le num hden onGrid_largest
  have heven := nearestUnits_even num hden (onGrid_twoTo 2098)
  have hodd := not_even_largest
  simp only [distance] at hnear hnear' heven
  rw [Nat.sub_mul]
  -- `omega` would evaluate the powers
  generalize num * one = n at *
  generalize nearestUnits num den = u at *
  generalize largest = last at *
  generalize twoTo 2098 = past at *
  generalize twoTo 2044 = half at *
  constructor
  · intro hlt
    by_contra hge
    have hle' := Nat.mul_le_mul_right den (hle hlt)
    -- the last finite double and the power of two past it are as near, but the former is odd
    have heq : u = last := Nat.eq_of_mul_eq_mul_right hden (by omega)
    rw [← heq] at hodd
    exact hodd (heven (by omega) (Nat.ne_of_gt hlt))
  · intro hlt
    by_contra hge
    have hge' := Nat.mul_le_mul_right den (Nat.le_of_not_lt hge)
    omega

/-! ## Bits -/

theorem toBits_ofUnits (units : Nat) : (ofUnits units).toBits.toNat =
    min ((units.log2 - 52) * hidden + units / spacing units) (special * hidden) := by
  have hle := Nat.min_le_right ((units.log2 - 52) * hidden + units / spacing units) (special * hidden)
  rw [spacing] at hle ⊢
  simp only [ofUnits]
  generalize min ((units.log2 - 52) * hidden + units / twoTo (units.log2 - 52)) (special * hidden) = bits at *
  have hbits : (UInt64.ofNat bits).toNat = bits := by
    rw [UInt64.toNat_ofNat', Nat.mod_eq_of_lt]
    exact Nat.lt_of_le_of_lt hle (by decide)
  rw [toBits_ofBits (by rw [hbits]; exact mod_eq_zero_of_special hle), hbits]

theorem even_toBits_ofUnits {units : Nat} (h : Even (units / spacing units)) : Even (ofUnits units).toBits.toNat := by
  have heven : Even hidden := ⟨twoTo 51, rfl⟩
  rw [toBits_ofUnits]
  obtain hmin | hmin := min_choice ((units.log2 - 52) * hidden + units / spacing units) (special * hidden)
  · rw [hmin]
    exact (heven.mul_left _).add h
  · rw [hmin]
    exact heven.mul_left _

theorem toBits_infinity : infinity.toBits.toNat = special * hidden := by
  rw [infinity, toBits_ofBits (fun _ => rfl)]
  rfl

theorem ofUnits_eq_infinity {units : Nat} (h : twoTo 2098 ≤ units) : ofUnits units = infinity := by
  have hlog : 2098 ≤ units.log2 := le_log2_of_le h
  have hsignificand : hidden ≤ units / spacing units := hidden_le_div (Nat.le_trans (twoTo_le (by decide)) h)
  have hshift := Nat.mul_le_mul_right hidden (show 2046 ≤ units.log2 - 52 by omega)
  rw [← Float.toBits_inj, ← UInt64.toNat_inj, toBits_ofUnits, toBits_infinity, special_eq]
  refine Nat.min_eq_right ?_
  generalize units / spacing units = significand at *
  generalize hidden = bit at *
  omega

theorem unitsOfBits_lt_succ (bits : Nat) : unitsOfBits bits < unitsOfBits (bits + 1) := by
  have hdiv := Nat.div_add_mod bits hidden
  have hlt := Nat.mod_lt bits hidden_pos
  generalize bits / hidden = exponent at hdiv
  generalize bits % hidden = fraction at hdiv hlt
  rw [← hdiv, unitsOfBits_eq hlt]
  obtain hmore | hlast := Nat.lt_or_eq_of_le (Nat.succ_le_of_lt hlt)
  · rw [Nat.add_assoc, unitsOfBits_eq hmore]
    split
    · exact Nat.lt_succ_self _
    · exact Nat.mul_lt_mul_of_pos_right (Nat.lt_succ_self _) (twoTo_pos _)
  · -- the next exponent starts where the fractions of this one end
    have hnext : hidden * exponent + fraction + 1 = hidden * (exponent + 1) + 0 := by
      rw [Nat.mul_succ, Nat.add_zero, Nat.add_assoc]
      exact congrArg _ hlast
    rw [hnext, unitsOfBits_eq hidden_pos, if_neg (Nat.succ_ne_zero _), Nat.add_sub_cancel, Nat.add_zero]
    split
    · next hzero =>
      rw [hzero, show twoTo 0 = 1 from rfl, Nat.mul_one]
      exact hlt
    · next hne =>
      obtain ⟨e, rfl⟩ := Nat.exists_eq_succ_of_ne_zero hne
      rw [Nat.succ_eq_add_one, Nat.add_sub_cancel, twoTo_succ, Nat.mul_comm (twoTo e), ← Nat.mul_assoc]
      exact Nat.mul_lt_mul_of_pos_right (by omega) (twoTo_pos e)

theorem strictMono_unitsOfBits : StrictMono unitsOfBits := strictMono_nat_of_lt_succ unitsOfBits_lt_succ

section
variable {x : Float} {v : ℚ} (hx : value? x = some v) (hsign : x.toBits.toNat < 2 ^ 63)
include hx hsign

theorem toBits_lt_special : x.toBits.toNat < special * hidden := by
  obtain ⟨negative, units, hfloat, -⟩ := value?_eq_some_iff.1 hx
  unfold ofFloat at hfloat
  simp only at hfloat
  split at hfloat
  · split at hfloat <;> cases hfloat
  · next hspecial =>
    rw [special_eq, hidden_eq] at *
    omega

theorem valueOf_unitsOfBits : valueOf false (unitsOfBits x.toBits.toNat) = v := by
  have hfloat := ofFloat_ofBits (toBits_lt_special hx hsign)
  rw [UInt64.ofNat_toNat, Float.ofBits_toBits] at hfloat
  have hx' := value?_eq_some_iff.2 ⟨false, _, hfloat, rfl⟩
  exact Option.some.inj (hx'.symm.trans hx)

end

theorem strictMono_valueOf : StrictMono (valueOf false) := fun _ _ h =>
  div_lt_div_of_pos_right (Nat.cast_lt.2 h) (Nat.cast_pos.2 one_pos)

/-! ## The nearest double -/

namespace IsNearest

variable {q v w : ℚ} {x y : Float}

/-- Between two even significands there is a number on the grid, and it is nearer to the middle. -/
theorem not_even_of_lt (hx : value? x = some v) (hy : value? y = some w) (hsign : x.toBits.toNat < 2 ^ 63)
    (hsign' : y.toBits.toNat < 2 ^ 63) (hlt : x.toBits.toNat < y.toBits.toNat) (hdist : |q - v| = |q - w|)
    (hnear : ∀ z u, value? z = some u → |q - v| ≤ |q - u|) (heven : Even x.toBits.toNat) : ¬ Even y.toBits.toNat := by
  intro heven'
  have hnext : x.toBits.toNat + 1 < y.toBits.toNat := by
    refine lt_of_le_of_ne hlt fun heq => ?_
    rw [← heq, Nat.even_add_one] at heven'
    exact heven' heven
  have hz := ofFloat_ofBits (hnext.trans (toBits_lt_special hy hsign'))
  have hle := hnear _ _ (value?_eq_some_iff.2 ⟨_, _, hz, rfl⟩)
  have habove := strictMono_valueOf (strictMono_unitsOfBits (Nat.lt_succ_self x.toBits.toNat))
  have hbelow := strictMono_valueOf (strictMono_unitsOfBits hnext)
  rw [valueOf_unitsOfBits hx hsign] at habove
  rw [valueOf_unitsOfBits hy hsign'] at hbelow
  rw [← Nat.add_one] at habove
  generalize valueOf false (unitsOfBits (x.toBits.toNat + 1)) = u at *
  have hmiddle : q = (v + w) / 2 := by
    obtain heq | hneg := abs_eq_abs.1 hdist
    · linarith
    · linarith
  have hdist' : |q - v| = (w - v) / 2 := by
    rw [hmiddle, abs_of_pos (by linarith)]
    ring
  rw [hdist', le_abs] at hle
  rcases hle with hle | hle <;> linarith

theorem unique (hx : IsNearest q x) (hy : IsNearest q y) : x = y := by
  unfold IsNearest at hx hy
  split at hx
  · next hlt =>
    rw [if_pos hlt] at hy
    obtain ⟨hsign, v, hv, hnear⟩ := hx
    obtain ⟨hsign', w, hw, hnear'⟩ := hy
    have hdist : |q - v| = |q - w| := le_antisymm (hnear y w hw).le (hnear' x v hv).le
    rw [← Float.toBits_inj, ← UInt64.toNat_inj]
    by_contra hne
    have hvalue : v ≠ w := by
      rw [← valueOf_unitsOfBits hv hsign, ← valueOf_unitsOfBits hw hsign']
      exact fun heq => hne ((strictMono_valueOf.comp strictMono_unitsOfBits).injective heq)
    have heven := ((hnear y w hw).tie hdist).resolve_left hvalue.symm
    have heven' := ((hnear' x v hv).tie hdist.symm).resolve_left hvalue
    obtain hless | hmore := lt_or_gt_of_ne hne
    · exact not_even_of_lt hv hw hsign hsign' hless hdist (fun z u hz => (hnear z u hz).le) heven heven'
    · exact not_even_of_lt hw hv hsign' hsign hmore hdist.symm (fun z u hz => (hnear' z u hz).le) heven' heven
  · next hge =>
    rw [if_neg hge] at hy
    rw [hx, hy]

end IsNearest

theorem overflow_mul_one : overflow * one = (twoTo 2098 - twoTo 2044 : Nat) := by
  have hlast : twoTo 2098 = twoTo 1024 * twoTo 1074 := twoTo_add 1024 1074
  have hhalf : twoTo 2044 = twoTo 970 * twoTo 1074 := twoTo_add 970 1074
  rw [overflow, one, hlast, hhalf, ← Nat.sub_mul, Nat.cast_mul, Nat.cast_sub (twoTo_le (by decide))]
  simp only [cast_twoTo, zpow_natCast]

section
variable (num : Nat) {den w : Nat} (hden : 0 < den)
include hden

theorem abs_sub_valueOf : |(num : ℚ) / den - valueOf false w| = distance num den w / (den * one : Nat) := by
  have hd : (0 : ℚ) < den := Nat.cast_pos.2 hden
  have hone : (0 : ℚ) < one := Nat.cast_pos.2 one_pos
  rw [valueOf, if_neg Bool.false_ne_true, div_sub_div _ _ hd.ne' hone.ne', abs_div, abs_of_pos (mul_pos hd hone),
    distance, Nat.cast_natAbs, Int.cast_abs, Int.cast_sub, Int.cast_natCast, Int.cast_natCast, Nat.cast_mul,
    Nat.cast_mul, Nat.cast_mul, mul_comm (w : ℚ)]

theorem lt_overflow_iff : (num : ℚ) / den < overflow ↔ nearestUnits num den < twoTo 2098 := by
  have hd : (0 : ℚ) < den := Nat.cast_pos.2 hden
  have hone : (0 : ℚ) < one := Nat.cast_pos.2 one_pos
  rw [nearestUnits_lt_iff hden, div_lt_iff₀ hd, ← mul_lt_mul_iff_left₀ hone, mul_right_comm, overflow_mul_one,
    ← Nat.cast_mul, ← Nat.cast_mul, Nat.cast_lt]

theorem noFarther_onGrid (hw : OnGrid w) : NoFarther (num / den) (valueOf false (nearestUnits num den))
    (valueOf false w) (Even (nearest num den).toBits.toNat) := by
  have hpos : (0 : ℚ) < (den * one : Nat) := Nat.cast_pos.2 (Nat.mul_pos hden one_pos)
  constructor
  · rw [abs_sub_valueOf num hden, abs_sub_valueOf num hden]
    exact div_le_div_of_nonneg_right (Nat.cast_le.2 (distance_nearestUnits_le num hden hw)) hpos.le
  · intro htie
    rw [abs_sub_valueOf num hden, abs_sub_valueOf num hden, div_left_inj' hpos.ne', Nat.cast_inj] at htie
    by_cases heq : w = nearestUnits num den
    · exact .inl (congrArg _ heq)
    · exact .inr (even_toBits_ofUnits (nearestUnits_even num hden hw htie heq))

theorem noFarther_neg {t : ℚ} (ht : 0 ≤ t) : NoFarther (num / den) (valueOf false (nearestUnits num den)) (-t)
    (Even (nearest num den).toBits.toNat) := by
  have hq : 0 ≤ (num : ℚ) / den := div_nonneg num.cast_nonneg den.cast_nonneg
  obtain ⟨hle, htie⟩ := noFarther_onGrid num hden (Nat.dvd_zero _ : OnGrid 0)
  rw [valueOf_zero, sub_zero, abs_of_nonneg hq] at hle htie
  have hdist : |(num : ℚ) / den - -t| = num / den + t := by rw [sub_neg_eq_add, abs_of_nonneg (add_nonneg hq ht)]
  constructor
  · linarith
  · intro heq
    obtain rfl : t = 0 := by linarith
    rw [neg_zero, sub_zero, abs_of_nonneg hq] at heq
    rw [neg_zero]
    exact htie heq

theorem isNearest_nearest : IsNearest (num / den) (nearest num den) := by
  unfold IsNearest
  by_cases hlt : nearestUnits num den < twoTo 2098
  · rw [if_pos ((lt_overflow_iff num hden).2 hlt)]
    have hfloat := ofFloat_ofUnits (onGrid_nearestUnits num den) hlt
    refine ⟨(unsigned_ofUnits _).toNat_lt, _, value?_eq_some_iff.2 ⟨_, _, hfloat, rfl⟩, fun y w hy => ?_⟩
    obtain ⟨negative, units, hunits, rfl⟩ := value?_eq_some_iff.1 hy
    cases negative
    · exact noFarther_onGrid num hden (onGrid_of_ofFloat hunits).1
    · exact noFarther_neg num hden (div_nonneg units.cast_nonneg one.cast_nonneg)
  · rw [if_neg (mt (lt_overflow_iff num hden).1 hlt)]
    exact ofUnits_eq_infinity (Nat.le_of_not_lt hlt)

theorem isNearest_iff {x : Float} : IsNearest (num / den) x ↔ x = nearest num den :=
  ⟨fun h => h.unique (isNearest_nearest num hden), fun h => h ▸ isNearest_nearest num hden⟩

end

theorem IsNearest.eq_infinity_iff {q : ℚ} {x : Float} (h : IsNearest q x) : x = infinity ↔ overflow ≤ q := by
  unfold IsNearest at h
  split at h
  · next hlt =>
    obtain ⟨hsign, v, hv, -⟩ := h
    have hbits := toBits_lt_special hv hsign
    refine iff_of_false ?_ (not_le.2 hlt)
    rintro rfl
    exact absurd toBits_infinity (Nat.ne_of_lt hbits)
  · next hge => exact iff_of_true h (not_lt.1 hge)

end Calculator.Double
