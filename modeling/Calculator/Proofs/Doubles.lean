import Calculator.Double.Literal
import Mathlib

/-!
# Doubles and their bits

A double has the bits it is made from unless it is a NaN (`toBits_ofBits`).
A number that is read from digits is therefore never negative and never a
NaN (`unsigned_literal`).
-/

namespace Calculator.Double

open Float.Model.UnpackedFloat

theorem unpackExponent_toNat (x : UInt64) :
    (@unpackExponent .binary64 x.toBitVec).toNat = x.toNat / hidden % 2048 := by
  simp only [unpackExponent, BitVec.toNat_cast, BitVec.extractLsb_toNat, Nat.shiftRight_eq_div_pow]
  rfl

theorem unpackMantissa_toNat (x : UInt64) :
    (@unpackMantissa .binary64 x.toBitVec).toNat = x.toNat % hidden := by
  simp only [unpackMantissa, BitVec.toNat_cast, BitVec.extractLsb_toNat, Nat.shiftRight_zero]
  rfl

/-- Only the bits of a NaN can change. -/
theorem toBits_ofBits {x : UInt64} (h : x.toNat / hidden % 2048 = special → x.toNat % hidden = 0) :
    (Float.ofBits x).toBits = x := by
  have hnan : ¬ @isNaNBits .binary64 x.toBitVec := by
    simp only [isNaNBits, decide_eq_true_eq, not_and, not_not]
    intro he
    refine BitVec.eq_of_toNat_eq ?_
    rw [unpackMantissa_toNat]
    refine h ?_
    rw [← unpackExponent_toNat, he]; rfl
  have hpack := @pack_unpack .binary64 x.toBitVec (by decide)
  rw [if_neg hnan] at hpack
  exact congrArg UInt64.ofBitVec hpack

def Unsigned (x : Float) : Prop := ofFloat x = .infinite false ∨ ∃ units, ofFloat x = .finite false units

theorem hidden_eq : hidden = 4503599627370496 := rfl

theorem special_eq : special = 2047 := rfl

theorem mod_eq_zero_of_special {bits : Nat} (h : bits ≤ special * hidden) (hspecial : bits / hidden % 2048 = special) :
    bits % hidden = 0 := by
  rw [special_eq, hidden_eq] at *
  omega

theorem unsigned_ofBits {x : UInt64} (h : x.toNat ≤ special * hidden) : Unsigned (Float.ofBits x) := by
  have hspecial := @mod_eq_zero_of_special _ h
  have hsign : ¬ twoTo 63 ≤ x.toNat := by
    rw [special_eq, hidden_eq] at h
    have : twoTo 63 = 2 ^ 63 := rfl
    omega
  unfold Unsigned ofFloat
  rw [toBits_ofBits hspecial]
  simp only [hsign, decide_false]
  split
  · next he => simp [hspecial he]
  · split <;> simp

theorem unsigned_ofUnits (units : Nat) : Unsigned (ofUnits units) := by
  refine unsigned_ofBits ?_
  rw [UInt64.toNat_ofNat']
  exact Nat.le_trans (Nat.mod_le _ _) (Nat.min_le_right _ _)

theorem unsigned_literal (whole fraction : List Char) : Unsigned (literal whole fraction) := unsigned_ofUnits _

theorem Unsigned.toNat_lt {x : Float} (h : Unsigned x) : x.toBits.toNat < 2 ^ 63 := by
  refine Nat.lt_of_not_le fun hsign => ?_
  have hnegative : decide (twoTo 63 ≤ x.toBits.toNat) = true := decide_eq_true hsign
  unfold Unsigned ofFloat at h
  simp only [hnegative] at h
  split at h
  · split at h <;> simp at h
  · split at h <;> simp at h

theorem ofFloat_of_isNaN {x : Float} (h : x.isNaN = true) : ofFloat x = .nan := by
  have hunpack : (unpack .binary64 x.toBits.toBitVec).isNaN = true := h
  unfold unpack at hunpack
  dsimp only at hunpack
  split at hunpack
  · next he =>
    split at hunpack
    · cases hunpack
    · next hm =>
      have hexponent : x.toBits.toNat / hidden % 2048 = special := by
        rw [← unpackExponent_toNat, he]; rfl
      have hfraction : x.toBits.toNat % hidden ≠ 0 := by
        intro hzero
        rw [← unpackMantissa_toNat] at hzero
        exact hm (BitVec.eq_of_toNat_eq hzero)
      simp only [ofFloat, hexponent, if_true, if_neg hfraction]
  · split at hunpack
    · split at hunpack <;> cases hunpack
    · cases hunpack

theorem Unsigned.isNaN_eq_false {x : Float} (h : Unsigned x) : x.isNaN = false := by
  rw [Bool.eq_false_iff]
  intro hnan
  rw [Unsigned, ofFloat_of_isNaN hnan] at h
  obtain h | ⟨_, h⟩ := h <;> cases h

end Calculator.Double
