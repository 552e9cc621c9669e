import Calculator.Proofs.ViablePrefix

/-!
# Places without the nesting limit

The place after a list of lexemes, however many constructs are open there
(`Place.steps`). A list leads to a place exactly if some expression starts
with it (`viable_iff`). The limit makes no difference up to the first place
that is too deep (`Place.run_or_deep`).
-/

namespace Calculator

theorem length_settle_le (s : List Opening) : (settle s).length ≤ s.length := (List.dropWhile_suffix _).length_le

namespace Place

def steps (p : Place) (w : List Lexeme) : Option Place := w.foldlM step p

variable {limit : Nat} {p q : Place} {x : Lexeme} {v w : List Lexeme}

@[simp] theorem steps_nil (p : Place) : p.steps [] = some p := rfl

theorem steps_cons : p.steps (x :: w) = (p.step x).bind (·.steps w) := by
  simp [steps]

theorem steps_cons_of_step (h : p.step x = some q) : p.steps (x :: w) = q.steps w := by
  rw [steps_cons, h]; rfl

theorem steps_of_cons (h : p.steps (x :: w) = some q) : ∃ m, p.step x = some m ∧ m.steps w = some q := by
  rw [steps_cons] at h
  exact Option.bind_eq_some_iff.1 h

theorem steps_append : p.steps (v ++ w) = (p.steps v).bind (·.steps w) := by
  simp [steps]

theorem steps_append_of_eq (h : p.steps v = some q) : p.steps (v ++ w) = q.steps w := by
  rw [steps_append, h]; rfl

theorem steps_of_append (h : p.steps (v ++ w) = some q) : ∃ m, p.steps v = some m ∧ m.steps w = some q := by
  rw [steps_append] at h
  exact Option.bind_eq_some_iff.1 h

theorem steps_concat_of_eq (h : p.steps v = some q) : p.steps (v ++ [x]) = q.step x := by
  rw [steps_append_of_eq h, steps_cons]
  cases q.step x <;> rfl

theorem steps_var_cons {s : List Opening} (hs : settle s = s) :
    steps ⟨.operator, s⟩ (.var :: w) = steps ⟨.operand, s⟩ (.var :: w) := by
  rw [steps_cons_of_step rfl, steps_cons_of_step rfl, hs]

/-! ## With and without the limit -/

theorem steps_of_run (h : run limit p w = some q) : p.steps w = some q := by
  induction w generalizing p with
  | nil => exact h
  | cons x w ih =>
    obtain ⟨-, m, hs, hr⟩ := step_of_run_cons h
    rw [steps_cons_of_step hs]
    exact ih hr

/-- The limit makes no difference before the first place that is too deep. -/
theorem run_or_deep (h : p.steps w = some q) :
    run limit p w = some q ∨ ∃ v x u m, w = v ++ x :: u ∧ run limit p v = some m ∧ limit < m.depth := by
  induction w generalizing p with
  | nil => exact .inl h
  | cons x w ih =>
    by_cases hd : p.depth ≤ limit
    · obtain ⟨m, hs, hr⟩ := steps_of_cons h
      rw [run_cons_of_step hd hs]
      rcases ih hr with hrun | ⟨v, y, u, m', rfl, hrun, hdeep⟩
      · exact .inl hrun
      · exact .inr ⟨x :: v, y, u, m', rfl, (run_cons_of_step hd hs).trans hrun, hdeep⟩
    · exact .inr ⟨[], x, w, p, rfl, rfl, Nat.lt_of_not_le hd⟩

theorem opened_of_step (h : p.step x = some q) :
    (∃ o, q = ⟨.operand, o :: p.opened⟩) ∨ q.opened <:+ p.opened := by
  obtain ⟨slot, s⟩ := p
  have hsettle : ∀ (s : List Opening) o, settle s <:+ o :: s := fun s o =>
    (List.dropWhile_suffix _).trans (List.suffix_cons o s)
  cases slot with
  | operand =>
    cases x with
    | constant | var => cases h; exact .inr (List.dropWhile_suffix _)
    | function => cases h; exact .inr (List.suffix_refl _)
    | leftParen | bar => cases h; exact .inl ⟨_, rfl⟩
    | operator fn =>
      obtain ⟨_, _, rfl⟩ := Option.map_eq_some_iff.1 h
      exact .inl ⟨_, rfl⟩
    | _ => cases h
  | argument =>
    cases x with
    | leftParen => cases h; exact .inl ⟨_, rfl⟩
    | _ => cases h
  | operator =>
    cases x with
    | operator | var => cases h; exact .inr (List.suffix_refl _)
    | rightParen | bar =>
      cases s with
      | nil => cases h
      | cons o s => cases o <;> cases h; exact .inr (hsettle _ _)
    | _ => cases s with
      | nil => cases h
      | cons o s => cases o <;> cases h

theorem depth_step_le (h : p.step x = some q) : q.depth ≤ p.depth + 1 := by
  rcases opened_of_step h with ⟨o, rfl⟩ | hs
  · exact Nat.le_refl _
  · exact Nat.le_succ_of_le hs.length_le

theorem depth_steps_le (h : p.steps w = some q) : q.depth ≤ p.depth + w.length := by
  induction w generalizing p with
  | nil => cases h; exact Nat.le_refl _
  | cons x w ih =>
    obtain ⟨m, hs, hr⟩ := steps_of_cons h
    have hm := depth_step_le hs
    have hq := ih hr
    rw [List.length_cons]
    omega

theorem run_length_of_steps (h : start.steps w = some q) : run w.length start w = some q := by
  rcases run_or_deep h with hrun | ⟨v, x, u, m, hw, hrun, hdeep⟩
  · exact hrun
  · exfalso
    have hd : m.depth ≤ 0 + v.length := depth_steps_le (steps_of_run hrun)
    rw [hw, List.length_append, List.length_cons] at hdeep
    omega

end Place

theorem Spells.steps {t : Tier} {w : List Lexeme} {e : Expr} {n : Nat} (h : Spells t w e n) {s : List Opening}
    (hs : t = .operand ∨ settle s = s) : Place.steps ⟨.operand, s⟩ w = some ⟨.operator, settle s⟩ :=
  Place.steps_of_run (h.run hs (Nat.le_refl _))

theorem steps_start_iff {w : List Lexeme} : Place.start.steps w = some .final ↔ ∃ e n, Spells .sum w e n := by
  constructor
  · intro h
    obtain ⟨e, n, -, hw⟩ := run_start_iff.1 (Place.run_length_of_steps h)
    exact ⟨e, n, hw⟩
  · rintro ⟨e, n, h⟩
    exact h.steps (.inr rfl)

theorem viable_iff {w : List Lexeme} : Viable w ↔ ∃ p, Place.start.steps w = some p := by
  constructor
  · rintro ⟨u, e, n, h⟩
    obtain ⟨p, hp, -⟩ := Place.steps_of_append (h.steps (s := []) (.inr rfl))
    exact ⟨p, hp⟩
  · rintro ⟨p, hp⟩
    have hd : p.depth ≤ 0 + w.length := Place.depth_steps_le hp
    exact Place.viable_of_run (Place.run_length_of_steps hp) (by omega)

end Calculator
