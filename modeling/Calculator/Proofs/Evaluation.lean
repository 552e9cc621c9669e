import Calculator.Answer
import Calculator.Proofs.Accepted

/-!
# What a value depends on

Operands are evaluated from left to right, so an evaluation reads the variables
of its expression in turn, up to the first that has no binding (`ReadsInTurn`).
It has a value exactly if all of them are bound, and the value depends on nothing
else that is bound (`Expr.eval_congr`). In an accepted text the only variable is
`t`, so contexts that bind it alike answer every text alike (`evaluate_congr`).
-/

namespace Calculator

/-! ## Bindings -/

def lastBinding (name : String) (bindings : List (String × Float)) : Option Float :=
  (bindings.filterMap fun binding => if binding.1 = name then some binding.2 else none).getLast?

theorem lastBinding_cons (binding : String × Float) (bindings : List (String × Float)) (name : String) :
    lastBinding name (binding :: bindings) =
      (lastBinding name bindings).or (if binding.1 = name then some binding.2 else none) := by
  by_cases hname : binding.1 = name
  · simp [lastBinding, hname, List.getLast?_cons]
  · simp [lastBinding, hname]

theorem lastBinding_isSome_iff {name : String} {bindings : List (String × Float)} :
    (lastBinding name bindings).isSome ↔ ∃ value, (name, value) ∈ bindings := by
  rw [lastBinding, List.getLast?_isSome, ne_eq, List.filterMap_eq_nil_iff]
  simp

namespace Context

theorem get?_set (ctx : Context) (name other : String) (value : Float) :
    (ctx.set name value).get? other = if name = other then some value else ctx.get? other := by
  rw [get?, set, Std.TreeMap.getElem?_insert]
  simp [get?]

theorem get?_remove (ctx : Context) (name other : String) :
    (ctx.remove name).get? other = if name = other then none else ctx.get? other := by
  rw [get?, remove, Std.TreeMap.getElem?_erase]
  simp [get?]

theorem get?_empty (name : String) : empty.get? name = none := by
  rw [get?, empty]
  exact Std.TreeMap.getElem?_emptyc

theorem get?_foldl (ctx : Context) (bindings : List (String × Float)) (name : String) :
    (bindings.foldl (fun ctx binding => ctx.set binding.1 binding.2) ctx).get? name =
      (lastBinding name bindings).or (ctx.get? name) := by
  induction bindings generalizing ctx with
  | nil => rfl
  | cons binding bindings ih =>
    rw [List.foldl_cons, ih, get?_set, lastBinding_cons, Option.or_assoc]
    congr 1
    split <;> simp

theorem get?_ofList (bindings : List (String × Float)) (name : String) :
    (ofList bindings).get? name = lastBinding name bindings := by
  have h := get?_foldl empty bindings name
  rwa [get?_empty, Option.or_none] at h

end Context

/-! ## Reading in turn -/

def Context.firstUnbound? (ctx : Context) (names : List String) : Option String :=
  names.find? fun name => (ctx.get? name).isNone

theorem Context.firstUnbound?_append (ctx : Context) (names more : List String) :
    ctx.firstUnbound? (names ++ more) = (ctx.firstUnbound? names).or (ctx.firstUnbound? more) :=
  List.find?_append

/-- An evaluation that reads these names in turn up to the first without a binding, and nothing else. -/
structure ReadsInTurn (names : List String) (eval : Context → Except EvalError Float) : Prop where
  outcome : ∀ ctx, (∃ name, ctx.firstUnbound? names = some name ∧ eval ctx = .error (.undefinedVariable name)) ∨
    ctx.firstUnbound? names = none ∧ ∃ value, eval ctx = .ok value
  congr : ∀ ctx ctx', (∀ name ∈ names, ctx.get? name = ctx'.get? name) → eval ctx = eval ctx'

namespace ReadsInTurn

variable {names more : List String} {eval eval' : Context → Except EvalError Float}

theorem value (value : Float) : ReadsInTurn [] fun _ => .ok value :=
  ⟨fun _ => .inr ⟨rfl, value, rfl⟩, fun _ _ _ => rfl⟩

theorem name (name : String) : ReadsInTurn [name] fun ctx => ctx.get name := by
  constructor
  · intro ctx
    cases hget : ctx.get? name with
    | none => exact .inl ⟨name, by simp [Context.firstUnbound?, hget], by rw [Context.get, hget]⟩
    | some value => exact .inr ⟨by simp [Context.firstUnbound?, hget], value, by rw [Context.get, hget]⟩
  · intro ctx ctx' h
    rw [Context.get, Context.get, h name List.mem_cons_self]

theorem unary (fn : Float → Float) (h : ReadsInTurn names eval) :
    ReadsInTurn names fun ctx => do return fn (← eval ctx) := by
  constructor
  · intro ctx
    obtain ⟨name, hname, heval⟩ | ⟨hnames, x, heval⟩ := h.outcome ctx
    · exact .inl ⟨name, hname, by rw [heval]; rfl⟩
    · exact .inr ⟨hnames, fn x, by rw [heval]; rfl⟩
  · intro ctx ctx' hctx
    rw [h.congr ctx ctx' hctx]

theorem binary (fn : Float → Float → Float) (hl : ReadsInTurn names eval) (hr : ReadsInTurn more eval') :
    ReadsInTurn (names ++ more) fun ctx => do return fn (← eval ctx) (← eval' ctx) := by
  constructor
  · intro ctx
    rw [Context.firstUnbound?_append]
    obtain ⟨name, hname, heval⟩ | ⟨hnames, x, heval⟩ := hl.outcome ctx
    · exact .inl ⟨name, by rw [hname]; rfl, by rw [heval]; rfl⟩
    · rw [hnames, Option.none_or, heval]
      obtain ⟨name, hname, heval'⟩ | ⟨hmore, y, heval'⟩ := hr.outcome ctx
      · exact .inl ⟨name, hname, by rw [heval']; rfl⟩
      · exact .inr ⟨hmore, fn x y, by rw [heval']; rfl⟩
  · intro ctx ctx' hctx
    rw [List.forall_mem_append] at hctx
    rw [hl.congr ctx ctx' hctx.1, hr.congr ctx ctx' hctx.2]

theorem isOk_iff (h : ReadsInTurn names eval) (ctx : Context) :
    (∃ value, eval ctx = .ok value) ↔ ∀ name ∈ names, (ctx.get? name).isSome := by
  have hbound : (∀ name ∈ names, (ctx.get? name).isSome) ↔ ctx.firstUnbound? names = none := by
    simp [Context.firstUnbound?, Option.isSome_iff_ne_none]
  rw [hbound]
  obtain ⟨name, hname, heval⟩ | ⟨hnames, x, heval⟩ := h.outcome ctx
  · simp [hname, heval]
  · simp [hnames, heval]

end ReadsInTurn

/-! ## Variables -/

namespace Expr

def varNames : Expr → List String
  | constant _ => []
  | var name => [name]
  | unary _ _ operand => operand.varNames
  | binary _ _ left right => left.varNames ++ right.varNames

variable {ctx ctx' : Context} {e : Expr}

theorem readsInTurn (e : Expr) : ReadsInTurn e.varNames fun ctx => e.eval ctx := by
  induction e with
  | constant value => exact .value value
  | var name => exact .name name
  | unary name fn operand ih => exact ih.unary fn.apply
  | binary symbol fn left right ihl ihr => exact ihl.binary fn.apply ihr

theorem eval_congr (h : ∀ name ∈ e.varNames, ctx.get? name = ctx'.get? name) : e.eval ctx = e.eval ctx' :=
  e.readsInTurn.congr ctx ctx' h

theorem eval_isOk_iff : (∃ value, e.eval ctx = .ok value) ↔ ∀ name ∈ e.varNames, (ctx.get? name).isSome :=
  e.readsInTurn.isOk_iff ctx

end Expr

theorem Spells.mem_varNames {t : Tier} {w : List Lexeme} {e : Expr} {n : Nat} (h : Spells t w e n) (name : String) :
    name ∈ e.varNames ↔ name = "t" ∧ .var ∈ w := by
  induction h with
  | constant value => simp [Expr.varNames]
  | var => simp [Expr.varNames]
  | call _ ih | group _ ih | bars _ ih | sign _ _ ih => simp [Expr.varNames, ih]
  | single _ _ ih => exact ih
  | operation _ _ _ ihl ihr => simp [Expr.varNames, ihl, ihr, and_or_left]
  | implicit _ _ _ ihl ihr =>
    rw [Expr.varNames, List.mem_append, ihl, ihr, ← and_or_left, List.mem_append]

theorem mem_varNames_of_parse {text : String} {e : Expr} (h : parse text = .ok e) (name : String) :
    name ∈ e.varNames ↔ name = "t" ∧ ∃ token ∈ tokenize text, token.lexeme = .var := by
  obtain ⟨n, -, hw⟩ := parse_eq_ok_iff.1 h
  rw [hw.mem_varNames, lexemes, List.mem_map]

section
variable {ctx ctx' : Context}

theorem eval_congr_of_parse {text : String} {e : Expr} (hparse : parse text = .ok e)
    (h : ctx.get? "t" = ctx'.get? "t") : e.eval ctx = e.eval ctx' := by
  apply Expr.eval_congr
  intro name hname
  rw [((mem_varNames_of_parse hparse name).1 hname).1, h]

theorem evaluate_congr (h : ctx.get? "t" = ctx'.get? "t") (text : String) : evaluate ctx text = evaluate ctx' text := by
  unfold evaluate
  cases hparse : parse text with
  | error err => rfl
  | ok e => simp only [eval_congr_of_parse hparse h]

/-- An accepted text has a value unless `t` stands in it and is not bound. -/
theorem evaluate_isOk_iff {text : String} : (∃ answer, evaluate ctx text = .ok answer) ↔
    (∃ e, parse text = .ok e) ∧ ((∀ token ∈ tokenize text, token.lexeme ≠ .var) ∨ (ctx.get? "t").isSome) := by
  unfold evaluate
  cases hparse : parse text with
  | error err => simp
  | ok e =>
    have hvalue : (∃ value, e.eval ctx = .ok value) ↔
        (∀ token ∈ tokenize text, token.lexeme ≠ .var) ∨ (ctx.get? "t").isSome := by
      rw [Expr.eval_isOk_iff]
      simp only [mem_varNames_of_parse hparse]
      constructor
      · intro h
        by_cases hvar : ∃ token ∈ tokenize text, token.lexeme = .var
        · exact .inr (h "t" ⟨rfl, hvar⟩)
        · exact .inl fun token htoken hx => hvar ⟨token, htoken, hx⟩
      · rintro (h | h) name ⟨rfl, token, htoken, hx⟩
        · exact absurd hx (h token htoken)
        · exact h
    rw [← hvalue]
    cases heval : e.eval ctx <;> simp [heval]

end

end Calculator
