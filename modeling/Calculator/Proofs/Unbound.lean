import Calculator.Proofs.Binding

/-!
# Names without a binding

An evaluation fails exactly at the first variable that has no binding, and nothing else of the
context makes a difference to it (`eval_at_first_unbound`). So names that are no variables of the
expression can be set and removed, and with nothing bound every variable is one too many.
-/

namespace Calculator

theorem Context.firstUnbound?_empty (names : List String) : empty.firstUnbound? names = names.head? := by
  cases names with
  | nil => rfl
  | cons name names => exact List.find?_cons_of_pos (by rw [get?_empty]; rfl)

namespace AnyExpr

def varNames : AnyExpr → List String
  | constant _ => []
  | var name => [name]
  | unary _ operand => operand.varNames
  | binary _ left right => left.varNames ++ right.varNames

theorem readsInTurn (e : AnyExpr) : ReadsInTurn e.varNames fun ctx => e.eval ctx := by
  induction e with
  | constant value => exact .value value
  | var name => exact .name name
  | unary fn operand ih => exact ih.unary fn
  | binary fn left right ihl ihr => exact ihl.binary fn ihr

end AnyExpr

/-- An evaluation fails at the first of these names that has no binding, and only there. Contexts that bind them alike
give the same, also when other names are set or removed. With nothing bound it fails if there is a name at all. -/
structure NeedsOnly (names : List String) (eval : Context → Except EvalError Float) : Prop where
  error_iff : ∀ ctx name, eval ctx = .error (.undefinedVariable name) ↔ ctx.firstUnbound? names = some name
  ok_iff : ∀ ctx, (∃ value, eval ctx = .ok value) ↔ ∀ name ∈ names, (ctx.get? name).isSome
  congr : ∀ ctx ctx', (∀ name ∈ names, ctx.get? name = ctx'.get? name) → eval ctx = eval ctx'
  set : ∀ ctx name value, name ∉ names → eval (ctx.set name value) = eval ctx
  remove : ∀ ctx name, name ∉ names → eval (ctx.remove name) = eval ctx
  empty : (∃ error, eval .empty = .error error) ↔ names ≠ []

theorem ReadsInTurn.needsOnly {names : List String} {eval : Context → Except EvalError Float}
    (h : ReadsInTurn names eval) : NeedsOnly names eval where
  error_iff ctx name := by
    obtain ⟨name', hname, heval⟩ | ⟨hnames, x, heval⟩ := h.outcome ctx
    · simp [hname, heval]
    · simp [hnames, heval]
  ok_iff := h.isOk_iff
  congr := h.congr
  set ctx name value hname := by
    apply h.congr
    intro other hother
    rw [Context.get?_set, if_neg]
    rintro rfl
    exact hname hother
  remove ctx name hname := by
    apply h.congr
    intro other hother
    rw [Context.get?_remove, if_neg]
    rintro rfl
    exact hname hother
  empty := by
    obtain ⟨name, hname, heval⟩ | ⟨hnames, x, heval⟩ := h.outcome .empty
    · rw [Context.firstUnbound?_empty] at hname
      have hne : names ≠ [] := by
        rintro rfl
        cases hname
      simp [heval, hne]
    · rw [Context.firstUnbound?_empty, List.head?_eq_none_iff] at hnames
      simp [heval, hnames]

/-- **Evaluation.** An expression needs its variables, in the order in which they stand in it, and nothing else. -/
theorem eval_at_first_unbound : (∀ e : Expr, NeedsOnly e.varNames fun ctx => e.eval ctx) ∧
    ∀ e : AnyExpr, NeedsOnly e.varNames fun ctx => e.eval ctx :=
  ⟨fun e => e.readsInTurn.needsOnly, fun e => e.readsInTurn.needsOnly⟩

/-- In the difference of `u` and `v` the left one is the first without a binding, and `t` makes no difference. -/
theorem eval_at_first_unbound_of_difference :
    (Expr.binary "-" .sub (.var "u") (.var "v")).eval (Context.empty.set "t" 3.0) = .error (.undefinedVariable "u") ∧
      "t" ∉ (Expr.binary "-" .sub (.var "u") (.var "v")).varNames ∧
      (Expr.binary "-" .sub (.var "u") (.var "v")).eval (Context.empty.set "t" 3.0) =
        (Expr.binary "-" .sub (.var "u") (.var "v")).eval .empty := by
  have hneeds := eval_at_first_unbound.1 (.binary "-" .sub (.var "u") (.var "v"))
  have hnames : (Expr.binary "-" .sub (.var "u") (.var "v")).varNames = ["u", "v"] := rfl
  have ht : "t" ∉ (Expr.binary "-" .sub (.var "u") (.var "v")).varNames := by decide
  refine ⟨(hneeds.error_iff _ _).2 ?_, ht, hneeds.set _ _ _ ht⟩
  rw [hnames, Context.firstUnbound?, List.find?_cons_of_pos]
  rw [Context.get?_set, Context.get?_empty]
  rfl

end Calculator
