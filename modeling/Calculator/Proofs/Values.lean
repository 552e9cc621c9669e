import Calculator.Proofs.Rounding

/-!
# Doubles and digits as rational numbers

Rounding gives the whole number nearest to a rational number, and there is one
(`RoundsTo`). A finite double is a rational number, its significand times a
power of two (`value?`). The bits are taken apart into the sign and the units
of that number (`value?_eq`). Digits with a fraction are a rational number as
well (`decimalValue`).
-/

namespace Calculator.Double

open Float.Model.UnpackedFloat

/-! ## Whole numbers nearest to a rational -/

/-- `m` is the whole number nearest to `q`, the even one of two. -/
structure RoundsTo (q : ℚ) (m : ℤ) : Prop where
  near : |q - m| ≤ 1 / 2
  even : |q - m| = 1 / 2 → Even m

namespace RoundsTo

variable {q : ℚ} {m n : ℤ}

theorem not_succ (hm : RoundsTo q m) : ¬ RoundsTo q (m + 1) := by
  intro hsucc
  have hlow := abs_le.1 hm.near
  have hhigh := abs_le.1 hsucc.near
  push_cast at hhigh
  -- both are half a step away, so both would be even
  have hq : q = m + 1 / 2 := by linarith
  have heven : Even m := hm.even (by rw [hq]; norm_num)
  have hodd : Even (m + 1) := hsucc.even (by rw [hq]; push_cast; norm_num)
  rw [Int.even_add_one] at hodd
  exact hodd heven

theorem unique (hm : RoundsTo q m) (hn : RoundsTo q n) : m = n := by
  have hm' := abs_le.1 hm.near
  have hn' := abs_le.1 hn.near
  have hlow : (m : ℚ) ≤ n + 1 := by linarith
  have hhigh : (n : ℚ) ≤ m + 1 := by linarith
  have hlow : m ≤ n + 1 := by exact_mod_cast hlow
  have hhigh : n ≤ m + 1 := by exact_mod_cast hhigh
  obtain hlt | heq | hgt := lt_trichotomy m n
  · obtain rfl : n = m + 1 := by omega
    exact absurd hn hm.not_succ
  · exact heq
  · obtain rfl : m = n + 1 := by omega
    exact absurd hm hn.not_succ

theorem neg (h : RoundsTo q m) : RoundsTo (-q) (-m) := by
  have hdist : |-q - (-m : ℤ)| = |q - m| := by
    rw [Int.cast_neg, ← abs_neg]
    congr 1
    ring
  constructor
  · rw [hdist]
    exact h.near
  · rw [hdist, even_neg]
    exact h.even

end RoundsTo

theorem roundsTo_roundHalfEven (num : Nat) {den : Nat} (hden : 0 < den) :
    RoundsTo ((num : ℚ) / den) (roundHalfEven num den) := by
  have hpos : (0 : ℚ) < den := by exact_mod_cast hden
  have hnum : (num : ℚ) / den * den = num := div_mul_cancel₀ _ hpos.ne'
  obtain ⟨hlow, hhigh⟩ := roundHalfEven_error num hden
  have hlow : (2 * num : ℚ) ≤ 2 * (roundHalfEven num den * den) + den := by exact_mod_cast hlow
  have hhigh : (2 * (roundHalfEven num den * den) : ℚ) ≤ 2 * num + den := by exact_mod_cast hhigh
  constructor
  · rw [Int.cast_natCast, abs_le]
    constructor <;> nlinarith
  · intro htie
    rw [Int.cast_natCast, abs_eq (by norm_num)] at htie
    rw [Int.even_coe_nat, Nat.even_iff]
    apply roundHalfEven_even hden
    rcases htie with habove | hbelow
    · have heq : (2 * num : ℚ) = 2 * (roundHalfEven num den * den) + den := by
        rw [← hnum, eq_add_of_sub_eq habove]
        ring
      exact .inr (by exact_mod_cast heq)
    · have heq : (2 * num + den : ℚ) = 2 * (roundHalfEven num den * den) := by
        rw [← hnum, eq_add_of_sub_eq hbelow]
        ring
      exact .inl (by exact_mod_cast heq)

/-! ## Doubles -/

def unpackedValue? : Float.Model.UnpackedFloat → Option ℚ
  | .zero _ => some 0
  | .finite sign significand exponent _ => some (sign.apply significand * 2 ^ exponent)
  | _ => none

/-- The rational number that a finite double is. -/
def value? (x : Float) : Option ℚ := unpackedValue? x.toModel.unpack

def valueOf (negative : Bool) (units : Nat) : ℚ := if negative then -(units / one) else units / one

def ratio? : Double → Option ℚ
  | .finite negative units => some (valueOf negative units)
  | _ => none

theorem unpackSign_eq (x : UInt64) :
    Sign.ofBitVec (@unpackSign .binary64 x.toBitVec) = if twoTo 63 ≤ x.toNat then .negative else .positive := by
  have hlt := x.toNat_lt
  have hsign : (@unpackSign .binary64 x.toBitVec).toNat = x.toNat / twoTo 63 % 2 := by
    simp only [unpackSign, BitVec.toNat_cast, BitVec.extractLsb_toNat, Nat.shiftRight_eq_div_pow]
    rfl
  have htwo : twoTo 63 = 9223372036854775808 := rfl
  rw [htwo] at hsign ⊢
  unfold Sign.ofBitVec
  split
  · next h =>
    have hzero : x.toNat / 9223372036854775808 % 2 = 0 := by rw [← hsign, h]; rfl
    rw [if_neg (by omega)]
  · next h =>
    have hne : x.toNat / 9223372036854775808 % 2 ≠ 0 := fun hzero =>
      h (BitVec.eq_of_toNat_eq (hsign.trans hzero))
    rw [if_pos (by omega)]

theorem cast_twoTo (k : Nat) : (twoTo k : ℚ) = 2 ^ (k : ℤ) := by
  rw [twoTo, Nat.pow_eq, Nat.cast_pow, zpow_natCast, Nat.cast_ofNat]

theorem cast_one : (one : ℚ) = 2 ^ (1074 : ℤ) := cast_twoTo 1074

/-- The significand times a power of two is a number of units. -/
theorem apply_mul_zpow (negative : Prop) [Decidable negative] (significand shift : Nat) :
    ((if negative then Sign.negative else .positive).apply significand : ℚ) * 2 ^ ((shift : ℤ) - 1074) =
      valueOf (decide negative) (significand * twoTo shift) := by
  rw [zpow_sub₀ two_ne_zero, ← cast_one, ← cast_twoTo, valueOf, Nat.cast_mul]
  generalize (one : ℚ) = unit
  generalize (twoTo shift : ℚ) = power
  by_cases h : negative <;> simp [h, Sign.apply] <;> ring

theorem valueOf_zero (negative : Bool) : valueOf negative 0 = 0 := by
  rw [valueOf, Nat.cast_zero, zero_div, neg_zero, ite_self]

theorem value?_eq (x : Float) : value? x = (ofFloat x).ratio? := by
  have hexponent := unpackExponent_toNat x.toBits
  have hfraction := unpackMantissa_toNat x.toBits
  have hspecial : (@unpackExponent .binary64 x.toBits.toBitVec).toNat = special ↔
      @unpackExponent .binary64 x.toBits.toBitVec = -1#11 := BitVec.toNat_inj (y := -1#11)
  have hsubnormal : (@unpackExponent .binary64 x.toBits.toBitVec).toNat = 0 ↔
      @unpackExponent .binary64 x.toBits.toBitVec = 0#11 := BitVec.toNat_inj (y := 0#11)
  have hunpack : x.toModel.unpack = unpack .binary64 x.toBits.toBitVec := rfl
  rw [value?, hunpack]
  unfold ofFloat unpack
  dsimp only
  rw [unpackSign_eq, ← hexponent, ← hfraction]
  simp only [hspecial, hsubnormal]
  split
  · repeat' split
    all_goals rfl
  · split
    · next hzero =>
      rw [hzero]
      split
      · next hf =>
        rw [hf]
        exact congrArg some (valueOf_zero _).symm
      · have h := apply_mul_zpow (twoTo 63 ≤ x.toBits.toNat) (@unpackMantissa .binary64 x.toBits.toBitVec).toNat 0
        rw [show twoTo 0 = 1 from rfl, Nat.mul_one] at h
        exact congrArg some h
    · next hne =>
      have hpos : (@unpackExponent .binary64 x.toBits.toBitVec).toNat ≠ 0 := fun h => hne (hsubnormal.1 h)
      have hbias : (Float.Model.Format.binary64.exponentBias : ℤ) = 1023 := rfl
      have hsignificand : (1#1 ++ @unpackMantissa .binary64 x.toBits.toBitVec).toNat =
          hidden + (@unpackMantissa .binary64 x.toBits.toBitVec).toNat := by
        rw [BitVec.toNat_append, ← Nat.shiftLeft_add_eq_or_of_lt (BitVec.isLt _)]
        rfl
      have h := apply_mul_zpow (twoTo 63 ≤ x.toBits.toNat)
        (hidden + (@unpackMantissa .binary64 x.toBits.toBitVec).toNat)
        ((@unpackExponent .binary64 x.toBits.toBitVec).toNat - 1)
      rw [ratio?, ← h, unpackedValue?, hsignificand, hbias]
      congr 3
      omega

theorem isSome_value? (x : Float) : (value? x).isSome = x.isFinite := by
  rw [value?, Float.isFinite, Float.Model.isFinite]
  cases x.toModel.unpack <;> rfl

theorem value?_eq_some_iff {x : Float} {v : ℚ} :
    value? x = some v ↔ ∃ negative units, ofFloat x = .finite negative units ∧ valueOf negative units = v := by
  rw [value?_eq]
  cases ofFloat x <;> simp [ratio?]

theorem value?_ofUnits {significand shift : Nat} (hle : significand ≤ twoTo 53)
    (hlt : significand * twoTo shift < twoTo 2098) :
    value? (ofUnits (significand * twoTo shift)) = some (significand * (2 : ℚ) ^ ((shift : ℤ) - 1074)) := by
  refine value?_eq_some_iff.2 ⟨false, _, ofFloat_ofUnits (onGrid_mul_twoTo hle shift) hlt, ?_⟩
  have h := apply_mul_zpow False significand shift
  rw [if_neg not_false] at h
  exact h.symm

/-! ## Digits -/

/-- The rational number that digits and the digits after a decimal mark denote. -/
def decimalValue (whole fraction : List Char) : ℚ :=
  valueOfDigits whole + valueOfDigits fraction / 10 ^ fraction.length

theorem decimalValue_eq (whole fraction : List Char) :
    decimalValue whole fraction = valueOfDigits (whole ++ fraction) / tenTo fraction.length := by
  have hten : (tenTo fraction.length : ℚ) = 10 ^ fraction.length := by
    rw [tenTo, Nat.pow_eq, Nat.cast_pow, Nat.cast_ofNat]
  have hpos : (10 : ℚ) ^ fraction.length ≠ 0 := pow_ne_zero _ (by norm_num)
  have hsplit : valueOfDigits (whole ++ fraction) =
      10 ^ fraction.length * valueOfDigits whole + valueOfDigits fraction := by
    rw [valueOfDigits, Nat.ofDigitChars_append]
    exact Nat.ofDigitChars_eq_ofDigitChars_zero
  rw [decimalValue, hten, hsplit, Nat.cast_add, Nat.cast_mul, Nat.cast_pow, Nat.cast_ofNat, add_div,
    mul_div_cancel_left₀ _ hpos]

end Calculator.Double
