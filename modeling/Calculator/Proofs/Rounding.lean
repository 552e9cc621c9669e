import Calculator.Proofs.Doubles

/-!
# Rounding to the nearest

Rounding gives a number at most half a step away, and a number less than half
a step away is what it gives (`roundHalfEven_eq`, `nearestUnits_eq`). The
finite doubles are the numbers of units on a grid that gets coarser with each
power of two (`onGrid_of_ofFloat`, `ofFloat_ofUnits`).
-/

namespace Calculator.Double

/-! ## Whole numbers -/

section
variable {num den r : Nat}

theorem roundHalfEven_error (num : Nat) (h : 0 < den) :
    2 * num ≤ 2 * (roundHalfEven num den * den) + den ∧ 2 * (roundHalfEven num den * den) ≤ 2 * num + den := by
  have hdiv := Nat.div_add_mod' num den
  have hmod := Nat.mod_lt num h
  simp only [roundHalfEven]
  split
  · omega
  · split
    · rw [Nat.add_mul]
      omega
    · obtain heven | hodd := Nat.mod_two_eq_zero_or_one (num / den)
      · rw [heven, Nat.add_zero]
        omega
      · rw [hodd, Nat.add_mul]
        omega

theorem roundHalfEven_eq (h : 2 * num < 2 * (r * den) + den) (h' : 2 * (r * den) < 2 * num + den) :
    roundHalfEven num den = r := by
  obtain ⟨hlow, hhigh⟩ := roundHalfEven_error num (show 0 < den by omega)
  have hle : roundHalfEven num den * den < (r + 1) * den := by rw [Nat.add_mul]; omega
  have hge : r * den < (roundHalfEven num den + 1) * den := by rw [Nat.add_mul]; omega
  have := Nat.lt_of_mul_lt_mul_right hle
  have := Nat.lt_of_mul_lt_mul_right hge
  omega

theorem roundHalfEven_even (h : 0 < den)
    (htie : 2 * num + den = 2 * (roundHalfEven num den * den) ∨ 2 * num = 2 * (roundHalfEven num den * den) + den) :
    roundHalfEven num den % 2 = 0 := by
  have hdiv := Nat.div_add_mod' num den
  have hmod := Nat.mod_lt num h
  simp only [roundHalfEven] at htie ⊢
  split at htie
  · omega
  · split at htie
    · rw [Nat.add_mul] at htie
      omega
    · rw [if_neg ‹_›, if_neg ‹_›]
      omega

theorem roundHalfEven_mul_left (num den : Nat) {k : Nat} (hk : 0 < k) :
    roundHalfEven (k * num) (k * den) = roundHalfEven num den := by
  simp only [roundHalfEven, Nat.mul_div_mul_left _ _ hk, Nat.mul_mod_mul_left, Nat.mul_left_comm 2 k,
    Nat.mul_lt_mul_left hk]

end

/-! ## The grid of doubles -/

theorem twoTo_add (a b : Nat) : twoTo (a + b) = twoTo a * twoTo b := Nat.pow_add 2 a b

theorem twoTo_succ (a : Nat) : twoTo (a + 1) = twoTo a * 2 := twoTo_add a 1

theorem twoTo_pos (a : Nat) : 0 < twoTo a := Nat.two_pow_pos a

theorem one_pos : 0 < one := twoTo_pos 1074

theorem twoTo_dvd {a b : Nat} (h : a ≤ b) : twoTo a ∣ twoTo b := Nat.pow_dvd_pow 2 h

theorem twoTo_le {a b : Nat} (h : a ≤ b) : twoTo a ≤ twoTo b := Nat.pow_le_pow_right Nat.two_pos h

theorem twoTo_lt {a b : Nat} (h : a < b) : twoTo a < twoTo b := Nat.pow_lt_pow_right (by decide) h

theorem log2_twoTo (k : Nat) : (twoTo k).log2 = k := Nat.log2_two_pow

theorem log2_lt_of_lt {n k : Nat} (h : n < twoTo k) (hk : 0 < k) : n.log2 < k := by
  by_cases hzero : n = 0
  · rw [hzero]
    exact hk
  · exact (Nat.log2_lt hzero).2 h

theorem le_log2_of_le {n k : Nat} (h : twoTo k ≤ n) : k ≤ n.log2 :=
  (Nat.le_log2 (Nat.ne_of_gt (Nat.lt_of_lt_of_le (twoTo_pos k) h))).2 h

theorem log2_eq {n k : Nat} (hlow : twoTo k ≤ n) (hhigh : n < twoTo (k + 1)) : n.log2 = k :=
  (Nat.log2_eq_iff (Nat.ne_of_gt (Nat.lt_of_lt_of_le (twoTo_pos k) hlow))).2 ⟨hlow, hhigh⟩

def spacing (units : Nat) : Nat := twoTo (units.log2 - 52)

/-- A number of units that has at most 53 significant binary digits. -/
def OnGrid (units : Nat) : Prop := spacing units ∣ units

theorem spacing_pos (w : Nat) : 0 < spacing w := twoTo_pos _

theorem spacing_le {w k : Nat} (h : w < twoTo (k + 53)) : spacing w ≤ twoTo k := by
  have := log2_lt_of_lt h (Nat.succ_pos _)
  exact twoTo_le (by omega)

theorem le_spacing {w k : Nat} (h : twoTo (k + 52) ≤ w) : twoTo k ≤ spacing w := by
  have := le_log2_of_le h
  exact twoTo_le (by omega)

theorem lt_spacing_mul (w : Nat) : w < twoTo 53 * spacing w := by
  rw [spacing, ← twoTo_add]
  exact Nat.lt_of_lt_of_le Nat.lt_log2_self (twoTo_le (by omega))

theorem onGrid_mul_twoTo {m : Nat} (hm : m ≤ twoTo 53) (s : Nat) : OnGrid (m * twoTo s) := by
  obtain rfl | hlt := Nat.eq_or_lt_of_le hm
  · rw [← twoTo_add, OnGrid, spacing]
    refine twoTo_dvd ?_
    rw [log2_twoTo]
    omega
  · refine Nat.dvd_trans (twoTo_dvd ?_) (Nat.dvd_mul_left _ _)
    have hbound : m * twoTo s < twoTo (53 + s) := by
      rw [twoTo_add]
      exact Nat.mul_lt_mul_of_pos_right hlt (twoTo_pos s)
    have := log2_lt_of_lt hbound (by omega)
    omega

theorem onGrid_twoTo (k : Nat) : OnGrid (twoTo k) := by
  have h := onGrid_mul_twoTo (m := 1) (twoTo_pos 53) k
  rwa [Nat.one_mul] at h

section
variable {u k w : Nat}

theorem OnGrid.dvd (hu : OnGrid u) (h : w.log2 ≤ u.log2) : spacing w ∣ u :=
  Nat.dvd_trans (twoTo_dvd (Nat.sub_le_sub_right h 52)) hu

theorem exists_log2_eq (h : 52 < w.log2) : ∃ k, w.log2 = k + 53 ∧ spacing w = twoTo k * 2 := by
  refine ⟨w.log2 - 53, by omega, ?_⟩
  rw [spacing, show w.log2 - 52 = w.log2 - 53 + 1 by omega]
  exact twoTo_succ _

theorem OnGrid.add_le (hu : OnGrid u) (h : u < twoTo (k + 53)) : u + twoTo k ≤ twoTo (k + 53) := by
  obtain hlt | hge := Nat.lt_or_ge u (twoTo (k + 52))
  · have hle : twoTo k ≤ twoTo (k + 52) := twoTo_le (Nat.le_add_right k 52)
    have hdouble : twoTo (k + 53) = twoTo (k + 52) * 2 := twoTo_succ (k + 52)
    omega
  · have hlog : u.log2 = k + 52 := log2_eq hge h
    have hdvd : twoTo k ∣ twoTo (k + 53) - u := by
      refine Nat.dvd_sub (twoTo_dvd (Nat.le_add_right k 53)) ?_
      rwa [OnGrid, spacing, hlog, Nat.add_sub_cancel] at hu
    have := Nat.le_of_dvd (Nat.sub_pos_of_lt h) hdvd
    omega

/-- Where a number reaches a power of two that another on the grid is below, half a step lies between them. -/
theorem OnGrid.spacing_dvd (hu : OnGrid u) (h : 2 * w < 2 * u + spacing w) : spacing w ∣ u := by
  obtain hge | hle := Nat.lt_or_ge u.log2 w.log2
  · obtain hlarge | hsmall := Nat.lt_or_ge 52 w.log2
    · obtain ⟨k, hk, hstep⟩ := exists_log2_eq hlarge
      have hadd := hu.add_le (Nat.lt_of_lt_of_le Nat.lt_log2_self (twoTo_le (b := k + 53) (by omega)))
      have hw : twoTo (k + 53) ≤ w := hk ▸ Nat.log2_self_le fun hzero => by simp [hzero] at hk
      omega
    · rw [spacing, Nat.sub_eq_zero_of_le hsmall]
      exact Nat.one_dvd u
  · exact hu.dvd hle

end

section
variable {num den u : Nat}

theorem nearestUnits_def (num den : Nat) : nearestUnits num den =
    roundHalfEven (num * one) (den * spacing (num * one / den)) * spacing (num * one / den) := rfl

theorem nearestUnits_mul_left (num den : Nat) {k : Nat} (hk : 0 < k) :
    nearestUnits (k * num) (k * den) = nearestUnits num den := by
  simp only [nearestUnits_def, Nat.mul_assoc k, Nat.mul_div_mul_left _ _ hk, roundHalfEven_mul_left _ _ hk]

theorem nearestUnits_error (num : Nat) (hden : 0 < den) :
    2 * (num * one) ≤ 2 * (nearestUnits num den * den) + den * spacing (num * one / den) ∧
      2 * (nearestUnits num den * den) ≤ 2 * (num * one) + den * spacing (num * one / den) := by
  have h := roundHalfEven_error (num * one) (Nat.mul_pos hden (spacing_pos (num * one / den)))
  rw [nearestUnits_def, Nat.mul_assoc, Nat.mul_comm _ den]
  exact h

theorem roundHalfEven_spacing_le (num den : Nat) :
    roundHalfEven (num * one) (den * spacing (num * one / den)) ≤ twoTo 53 := by
  have hle := (roundHalfEven_bounds (num * one) (den * spacing (num * one / den))).2
  rw [← Nat.div_div_eq_div_mul] at hle
  have := (Nat.div_lt_iff_lt_mul (spacing_pos _)).2 (lt_spacing_mul (num * one / den))
  exact Nat.le_trans hle this

theorem onGrid_nearestUnits (num den : Nat) : OnGrid (nearestUnits num den) :=
  onGrid_mul_twoTo (roundHalfEven_spacing_le num den) _

/-- A number on the grid less than half a step from a quotient is the nearest to it. -/
theorem nearestUnits_eq (hu : OnGrid u) (h : 2 * (num * one) < 2 * (u * den) + den * spacing (num * one / den))
    (h' : 2 * (u * den) < 2 * (num * one) + den * spacing (num * one / den)) : nearestUnits num den = u := by
  rw [nearestUnits_def]
  have hfloor := Nat.div_mul_le_self (num * one) den
  generalize num * one / den = w at *
  have hdvd : spacing w ∣ u := by
    refine hu.spacing_dvd (Nat.lt_of_mul_lt_mul_right (a := den) ?_)
    rw [Nat.add_mul, Nat.mul_assoc, Nat.mul_assoc, Nat.mul_comm (spacing w)]
    omega
  obtain ⟨m, rfl⟩ := hdvd
  have hassoc : spacing w * m * den = m * (den * spacing w) := by
    rw [Nat.mul_comm (spacing w), Nat.mul_assoc, Nat.mul_comm den]
  rw [hassoc] at h h'
  rw [roundHalfEven_eq h h', Nat.mul_comm]

end

/-! ## Doubles on the grid -/

theorem hidden_pos : 0 < hidden := twoTo_pos 52

theorem onGrid_of_ofFloat {x : Float} {negative : Bool} {units : Nat} (h : ofFloat x = .finite negative units) :
    OnGrid units ∧ units < twoTo 2098 := by
  unfold ofFloat at h
  simp only at h
  have hfraction := Nat.mod_lt x.toBits.toNat hidden_pos
  have hexponent := Nat.mod_lt (x.toBits.toNat / hidden) (show 2048 > 0 by decide)
  generalize x.toBits.toNat % hidden = fraction at h hfraction
  generalize x.toBits.toNat / hidden % 2048 = exponent at h hexponent
  have hdouble : hidden * 2 = twoTo 53 := rfl
  split at h
  · split at h <;> cases h
  · next hspecial =>
    rw [special_eq] at hspecial
    split at h
    · cases h
      have hgrid := onGrid_mul_twoTo (m := units) (by omega) 0
      rw [show twoTo 0 = 1 from rfl, Nat.mul_one] at hgrid
      exact ⟨hgrid, Nat.lt_of_lt_of_le hfraction (twoTo_le (a := 52) (by omega))⟩
    · cases h
      refine ⟨onGrid_mul_twoTo (by omega) _, ?_⟩
      calc (hidden + fraction) * twoTo (exponent - 1) < twoTo 53 * twoTo (exponent - 1) :=
            Nat.mul_lt_mul_of_pos_right (by omega) (twoTo_pos _)
        _ = twoTo (53 + (exponent - 1)) := (twoTo_add _ _).symm
        _ ≤ twoTo 2098 := twoTo_le (by omega)

def unitsOfBits (bits : Nat) : Nat :=
  if bits / hidden = 0 then bits % hidden else (hidden + bits % hidden) * twoTo (bits / hidden - 1)

theorem unitsOfBits_eq {exponent fraction : Nat} (h : fraction < hidden) : unitsOfBits (hidden * exponent + fraction) =
    if exponent = 0 then fraction else (hidden + fraction) * twoTo (exponent - 1) := by
  rw [unitsOfBits, Nat.mul_add_div hidden_pos, Nat.mul_add_mod, Nat.div_eq_of_lt h, Nat.mod_eq_of_lt h, Nat.add_zero]

theorem ofFloat_ofBits {bits : Nat} (h : bits < special * hidden) :
    ofFloat (Float.ofBits (UInt64.ofNat bits)) = .finite false (unitsOfBits bits) := by
  have hexponent : bits / hidden < special := (Nat.div_lt_iff_lt_mul hidden_pos).2 h
  have hbits : (UInt64.ofNat bits).toNat = bits := by
    rw [UInt64.toNat_ofNat', Nat.mod_eq_of_lt]
    rw [special_eq, hidden_eq] at h
    omega
  have hmod : bits / hidden % 2048 = bits / hidden := Nat.mod_eq_of_lt (Nat.lt_trans hexponent (by decide))
  have hne : bits / hidden ≠ special := Nat.ne_of_lt hexponent
  have hsign : ¬ twoTo 63 ≤ bits := by
    rw [special_eq, hidden_eq] at h
    have : twoTo 63 = 2 ^ 63 := rfl
    omega
  unfold ofFloat
  rw [toBits_ofBits (by rw [hbits, hmod]; exact fun heq => absurd heq hne), hbits]
  simp only [hmod, if_neg hne, hsign, decide_false, unitsOfBits]
  split <;> rfl

theorem hidden_le_div {units : Nat} (h : hidden ≤ units) : hidden ≤ units / spacing units := by
  have hne : units ≠ 0 := Nat.ne_of_gt (Nat.lt_of_lt_of_le hidden_pos h)
  have hlog : 52 ≤ units.log2 := le_log2_of_le h
  rw [Nat.le_div_iff_mul_le (spacing_pos units), hidden, spacing, ← twoTo_add, Nat.add_sub_cancel' hlog]
  exact Nat.log2_self_le hne

/-- A number on the grid that is not past all finite doubles is the one whose bits it gives. -/
theorem ofFloat_ofUnits {units : Nat} (hgrid : OnGrid units) (h : units < twoTo 2098) :
    ofFloat (ofUnits units) = .finite false units := by
  have hlog := log2_lt_of_lt h (by decide)
  simp only [ofUnits]
  obtain hsmall | hge := Nat.lt_or_ge units hidden
  · have hlow := log2_lt_of_lt (k := 52) hsmall (by decide)
    have hbound : units < special * hidden := Nat.lt_of_lt_of_le hsmall (by decide)
    rw [Nat.sub_eq_zero_of_le (Nat.le_of_lt hlow), Nat.zero_mul, Nat.zero_add, show twoTo 0 = 1 from rfl, Nat.div_one,
      Nat.min_eq_left (Nat.le_of_lt hbound), ofFloat_ofBits hbound, unitsOfBits, if_pos (Nat.div_eq_of_lt hsmall),
      Nat.mod_eq_of_lt hsmall]
  · have hmul : units / twoTo (units.log2 - 52) * twoTo (units.log2 - 52) = units := Nat.div_mul_cancel hgrid
    have hlt : units / twoTo (units.log2 - 52) < hidden * 2 :=
      (Nat.div_lt_iff_lt_mul (twoTo_pos _)).2 (lt_spacing_mul units)
    have hle : hidden ≤ units / twoTo (units.log2 - 52) := hidden_le_div hge
    have hshift : units.log2 - 52 < 2046 := by omega
    generalize units.log2 - 52 = shift at hmul hlt hle hshift ⊢
    obtain ⟨fraction, hfraction⟩ := Nat.le.dest hle
    rw [← hfraction] at hmul hlt ⊢
    have hbits : shift * hidden + (hidden + fraction) = hidden * (shift + 1) + fraction := by
      rw [Nat.mul_add, Nat.mul_comm, Nat.mul_one, Nat.add_assoc]
    have hbound : hidden * (shift + 1) + fraction < special * hidden := by
      have := Nat.mul_le_mul_left hidden (show shift + 1 ≤ 2046 from hshift)
      rw [special_eq]
      omega
    rw [hbits, Nat.min_eq_left (Nat.le_of_lt hbound), ofFloat_ofBits hbound, unitsOfBits_eq (by omega),
      if_neg (Nat.succ_ne_zero shift), Nat.add_sub_cancel, hmul]

end Calculator.Double
