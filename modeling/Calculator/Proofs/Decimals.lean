import Calculator.Double.Hundredths
import Calculator.Double.Literal

/-!
# Hundredths in digits

The text of so many hundredths is a whole number and a fraction of at most two
digits, and no zero in it could be left out. With zeros in the places that
are left out its digits are the number of hundredths (`exists_hundredthsText`).
-/

namespace Calculator.Double

/-- A whole number and a fraction of at most two digits, without a zero that could be left out. -/
structure Canonical (whole fraction : List Char) : Prop where
  whole_ne_nil : whole ≠ []
  isDigit_whole : whole.all Char.isDigit
  no_leading_zero : whole.head? = some '0' → whole = ['0']
  isDigit_fraction : fraction.all Char.isDigit
  length_fraction : fraction.length ≤ 2
  no_closing_zero : fraction.getLast? ≠ some '0'

def decimalText (whole fraction : List Char) : List Char :=
  if fraction = [] then whole else whole ++ '.' :: fraction

theorem tenTo_add (a b : Nat) : tenTo (a + b) = tenTo a * tenTo b := Nat.pow_add 10 a b

theorem tenTo_pos (a : Nat) : 0 < tenTo a := Nat.pow_pos (by decide)

theorem isDigit_digitChar {n : Nat} (h : n < 10) : n.digitChar.isDigit = true := by
  revert n; decide

theorem digitChar_ne_zero {n : Nat} (h : n < 10) (hn : n ≠ 0) : n.digitChar ≠ '0' := by
  revert n; decide

theorem all_isDigit_toDigits (n : Nat) : (Nat.toDigits 10 n).all Char.isDigit := by
  rw [List.all_eq_true]
  exact fun c hc => Nat.isDigit_of_mem_toDigits (by decide) (by decide) hc

theorem head?_toDigits_ne_zero {n : Nat} (h : n ≠ 0) : (Nat.toDigits 10 n).head? ≠ some '0' := by
  induction n using Nat.strongRecOn with
  | ind n ih =>
    obtain hlt | hge := Nat.lt_or_ge n 10
    · rw [Nat.toDigits_of_lt_base hlt, List.head?_cons, ne_eq, Option.some.injEq]
      exact digitChar_ne_zero hlt h
    · rw [Nat.toDigits_of_base_le (by decide) hge, List.head?_append]
      intro h'
      obtain h' | ⟨h', -⟩ := Option.or_eq_some_iff.1 h'
      · exact ih (n / 10) (by omega) (by omega) h'
      · exact Nat.toDigits_ne_nil (List.head?_eq_none_iff.1 h')

theorem toDigits_eq_zero {n : Nat} (h : (Nat.toDigits 10 n).head? = some '0') : Nat.toDigits 10 n = ['0'] := by
  by_cases hn : n = 0
  · rw [hn, Nat.toDigits_zero]
  · exact absurd h (head?_toDigits_ne_zero hn)

theorem valueOfDigits_toDigits_append (n : Nat) (p : List Char) :
    valueOfDigits (Nat.toDigits 10 n ++ p) = Nat.ofDigitChars 10 p n := by
  rw [valueOfDigits, Nat.ofDigitChars_append, Nat.ofDigitChars_toDigits (by decide) (by decide)]

theorem exists_hundredthsText (n : Nat) : ∃ whole fraction zeros, Canonical whole fraction ∧
    hundredthsText n = decimalText whole fraction ∧ fraction.length + zeros = 2 ∧
      valueOfDigits (whole ++ fraction) * tenTo zeros = n ∧ (fraction = [] ↔ 100 ∣ n) := by
  have htenth := Nat.mod_lt (n / 10) (show 10 > 0 by decide)
  have hlast := Nat.mod_lt n (show 10 > 0 by decide)
  have canonical : ∀ fraction : List Char, fraction.all Char.isDigit → fraction.length ≤ 2 →
      fraction.getLast? ≠ some '0' → Canonical (Nat.toDigits 10 (n / 100)) fraction :=
    fun _ => .mk Nat.toDigits_ne_nil (all_isDigit_toDigits (n / 100)) toDigits_eq_zero
  unfold hundredthsText
  split
  · next hwhole =>
    refine ⟨_, [], 2, canonical [] (List.all_nil ..) (Nat.zero_le _) nofun, rfl, rfl, ?_, ?_⟩
    · rw [valueOfDigits_toDigits_append, Nat.ofDigitChars_nil, show tenTo 2 = 100 from rfl]
      omega
    · simpa using Nat.dvd_of_mod_eq_zero hwhole
  · next hwhole =>
    have hdvd : ¬ 100 ∣ n := fun h => hwhole (Nat.mod_eq_zero_of_dvd h)
    split
    · next htenths =>
      have hzero := digitChar_ne_zero htenth (by omega)
      refine ⟨_, [(n / 10 % 10).digitChar], 1, canonical _ ?_ (by simp) ?_, rfl, rfl, ?_, by simpa using hdvd⟩
      · simpa using isDigit_digitChar htenth
      · simpa using hzero
      · rw [valueOfDigits_toDigits_append, Nat.ofDigitChars_cons_digitChar_of_lt_ten htenth, Nat.ofDigitChars_nil,
          show tenTo 1 = 10 from rfl]
        omega
    · next htenths =>
      have hzero := digitChar_ne_zero hlast htenths
      refine ⟨_, [(n / 10 % 10).digitChar, (n % 10).digitChar], 0, canonical _ ?_ (by simp) ?_, rfl, rfl, ?_,
        by simpa using hdvd⟩
      · simp [isDigit_digitChar htenth, isDigit_digitChar hlast]
      · simpa using hzero
      · rw [valueOfDigits_toDigits_append, Nat.ofDigitChars_cons_digitChar_of_lt_ten htenth,
          Nat.ofDigitChars_cons_digitChar_of_lt_ten hlast, Nat.ofDigitChars_nil, show tenTo 0 = 1 from rfl]
        omega

theorem isDigit_head?_hundredthsText (n : Nat) : ∀ c ∈ (hundredthsText n).head?, c.isDigit := by
  obtain ⟨whole, fraction, zeros, hcanonical, htext, -⟩ := exists_hundredthsText n
  obtain ⟨d, p, rfl⟩ := List.exists_cons_of_ne_nil hcanonical.whole_ne_nil
  have hd : d.isDigit := List.all_eq_true.1 hcanonical.isDigit_whole d List.mem_cons_self
  have hhead : (decimalText (d :: p) fraction).head? = some d := by
    unfold decimalText
    split <;> rfl
  rw [htext, hhead]
  rintro _ ⟨⟩
  exact hd

end Calculator.Double
