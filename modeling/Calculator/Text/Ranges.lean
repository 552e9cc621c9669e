/-!
# Classes of characters as ranges

A class is a list of ranges of code points in increasing order, both ends included. On sorted ranges
`contains` finds every code point of the class (`contains_iff`).
-/

namespace Calculator.Text

abbrev Ranges := List (Nat × Nat)

namespace Ranges

/-- Whether a code point lies in one of the ranges. Nothing is looked at beyond the first range that
does not end before it. -/
def contains : Ranges → Nat → Bool
  | [], _ => false
  | (first, last) :: more, code => if code ≤ last then first ≤ code else contains more code

def isSorted : Ranges → Bool
  | [] => true
  | [r] => r.1 ≤ r.2
  | r :: s :: more => r.1 ≤ r.2 && r.2 < s.1 && isSorted (s :: more)

theorem isSorted_tail {r : Nat × Nat} {more : Ranges} (h : isSorted (r :: more)) : isSorted more := by
  cases more with
  | nil => rfl
  | cons s more => simp only [isSorted, Bool.and_eq_true] at h; exact h.2

theorem lt_of_isSorted {r : Nat × Nat} {more : Ranges} (h : isSorted (r :: more)) :
    ∀ s ∈ more, r.2 < s.1 := by
  induction more generalizing r with
  | nil => simp
  | cons s more ih =>
    have hs := isSorted_tail h
    simp only [isSorted, Bool.and_eq_true, decide_eq_true_eq] at h
    have hle : s.1 ≤ s.2 := by
      cases more with
      | nil => simpa [isSorted] using hs
      | cons t more => simp only [isSorted, Bool.and_eq_true, decide_eq_true_eq] at hs; exact hs.1.1
    intro t ht
    rcases List.mem_cons.1 ht with rfl | ht
    · exact h.1.2
    · have := ih hs t ht
      omega

theorem contains_iff {ranges : Ranges} (h : ranges.isSorted) (code : Nat) :
    ranges.contains code ↔ ∃ r ∈ ranges, r.1 ≤ code ∧ code ≤ r.2 := by
  induction ranges with
  | nil => simp [contains]
  | cons r more ih =>
    have ih := ih (isSorted_tail h)
    by_cases hlast : code ≤ r.2
    · simp only [contains, hlast, if_true, decide_eq_true_eq]
      constructor
      · exact fun hfirst => ⟨r, .head _, hfirst, hlast⟩
      · rintro ⟨s, hs, h₁, -⟩
        rcases List.mem_cons.1 hs with rfl | hs
        · exact h₁
        · have := lt_of_isSorted h s hs
          omega
    · simp only [contains, hlast, if_false, ih]
      constructor
      · rintro ⟨s, hs, h⟩
        exact ⟨s, .tail _ hs, h⟩
      · rintro ⟨s, hs, h₁, h₂⟩
        rcases List.mem_cons.1 hs with rfl | hs
        · exact absurd h₂ hlast
        · exact ⟨s, hs, h₁, h₂⟩

end Ranges

end Calculator.Text
