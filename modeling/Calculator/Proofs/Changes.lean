import Mathlib.Data.List.Induction
import Mathlib.Data.List.Perm.Subperm
import Calculator.Proofs.ByteOrder
import Calculator.Proofs.Evaluation

/-!
# What changes leave bound

A context answers as the finite map that the last change of each name leaves, whatever the order of
changes of different names (`context_of_last_changes`). One change is `Context.get?_apply`, and
`Context.get?_after` says the same of any number of them.
-/

namespace Calculator

/-! ## Numbers that differ from themselves -/

open Float.Model in
theorem beq_self_iff (x : Float) : (x == x) = true ↔ x.isNaN = false := by
  show (UnpackedFloat.compare x.toModel.unpack x.toModel.unpack == some .eq) = true ↔ x.toModel.unpack.isNaN = false
  cases x.toModel.unpack with
  | infinity sign => cases sign <;> decide
  | notANumber => decide
  | zero sign => cases sign <;> decide
  | finite sign m e h =>
    refine iff_of_true ?_ rfl
    have hcompare : (compare e e).then (compare m m) = .eq := by simp
    cases sign with
    | negative => exact beq_iff_eq.2 (congrArg (fun o => some (Ordering.swap o)) hcompare)
    | positive => exact beq_iff_eq.2 (congrArg some hcompare)

/-! ## Changes -/

inductive Change where
  | set (name : String) (value : Float)
  | remove (name : String)
  deriving DecidableEq, Repr

namespace Change

def name : Change → String
  | set name _ => name
  | remove name => name

def bound? : Change → Option Float
  | set _ value => some value
  | remove _ => none

/-- What the last of the changes of a name leaves it bound to. -/
def lastBound? (changes : List Change) (name : String) : Option Float :=
  (changes.filter fun change => change.name = name).getLast?.bind bound?

theorem lastBound?_concat (changes : List Change) (change : Change) (name : String) :
    lastBound? (changes ++ [change]) name = if change.name = name then change.bound? else lastBound? changes name := by
  by_cases hname : change.name = name
  · simp [lastBound?, hname]
  · simp [lastBound?, hname]

end Change

namespace Context

open Change

def apply (ctx : Context) : Change → Context
  | .set name value => ctx.set name value
  | .remove name => ctx.remove name

def after (changes : List Change) : Context := changes.foldl apply empty

theorem after_concat (changes : List Change) (change : Change) :
    after (changes ++ [change]) = (after changes).apply change :=
  List.foldl_append

theorem get?_apply (ctx : Context) (change : Change) (name : String) :
    (ctx.apply change).get? name = if change.name = name then change.bound? else ctx.get? name := by
  cases change with
  | set => exact get?_set ..
  | remove => exact get?_remove ..

theorem get?_after (changes : List Change) (name : String) : (after changes).get? name = lastBound? changes name := by
  induction changes using List.reverseRecOn with
  | nil => exact get?_empty name
  | append_singleton changes change ih => rw [after_concat, get?_apply, lastBound?_concat, ih]

theorem ofList_eq_after (bindings : List (String × Float)) :
    ofList bindings = after (bindings.map fun binding => .set binding.1 binding.2) := by
  rw [after, List.foldl_map]
  rfl

/-! ## Tables -/

/-- Every name that is bound stands in the table once, and the bytes of the names are in order. -/
structure Tabulates (table : List (String × Float)) (bound? : String → Option Float) : Prop where
  mem_iff : ∀ name value, (name, value) ∈ table ↔ bound? name = some value
  sorted : table.Pairwise fun a b => utf8 a.1 < utf8 b.1

variable {ctx ctx' : Context}

theorem tabulates_toList (ctx : Context) : Tabulates ctx.toList ctx.get? where
  mem_iff _ _ := Std.TreeMap.mem_toList_iff_getElem?_eq_some
  sorted := by
    have hordered : ctx.toList.Pairwise fun a b => compare a.1 b.1 = .lt := Std.TreeMap.ordered_keys_toList
    exact hordered.imp fun h => utf8_lt (compareOfLessAndEq_eq_lt.1 h)

theorem contains_eq (ctx : Context) (name : String) : ctx.contains name = (ctx.get? name).isSome :=
  Std.TreeMap.contains_eq_isSome_getElem?

theorem size_eq (ctx : Context) : ctx.size = ctx.toList.length := Std.TreeMap.length_toList.symm

theorem isEmpty_eq (ctx : Context) : ctx.isEmpty = ctx.toList.isEmpty := Std.TreeMap.isEmpty_toList.symm

theorem toList_congr (h : ∀ name, ctx.get? name = ctx'.get? name) : ctx.toList = ctx'.toList :=
  (Std.TreeMap.Equiv.of_forall_constGet?_eq h).toList_eq

theorem print_congr (h : ∀ name, ctx.get? name = ctx'.get? name) : ctx.print = ctx'.print := by
  rw [print, print, toList_congr h]

/-! ## Equality -/

theorem isSome_eq_of_rel {r : Float → Float → Prop} {x y : Option Float} (h : Option.Rel r x y) : x.isSome = y.isSome := by
  cases h <;> rfl

theorem mem_keys {name : String} : name ∈ ctx.bindings.keys ↔ (ctx.get? name).isSome :=
  Std.TreeMap.mem_keys.trans Std.TreeMap.mem_iff_isSome_getElem?

theorem length_le_size {names : List String} (hnodup : names.Nodup) (h : ∀ name ∈ names, (ctx.get? name).isSome) :
    names.length ≤ ctx.size := by
  have hkeys : names ⊆ ctx.bindings.keys := by
    intro name hname
    exact mem_keys.2 (h name hname)
  have hlen := (hnodup.subperm hkeys).length_le
  rwa [Std.TreeMap.length_keys] at hlen

theorem size_le_of_bound (h : ∀ name, (ctx.get? name).isSome → (ctx'.get? name).isSome) : ctx.size ≤ ctx'.size := by
  rw [size, ← Std.TreeMap.length_keys]
  exact length_le_size Std.TreeMap.nodup_keys fun name hname => h name (mem_keys.1 hname)

theorem size_lt_of_bound {name : String} (h : ∀ name, (ctx.get? name).isSome → (ctx'.get? name).isSome)
    (hnone : ctx.get? name = none) (hsome : (ctx'.get? name).isSome) : ctx.size < ctx'.size := by
  have hfresh : name ∉ ctx.bindings.keys := by
    rw [mem_keys, hnone]
    nofun
  rw [size, ← Std.TreeMap.length_keys]
  refine length_le_size (List.nodup_cons.2 ⟨hfresh, Std.TreeMap.nodup_keys⟩) ?_
  intro other hother
  obtain rfl | hother := List.mem_cons.1 hother
  · exact hsome
  · exact h other (mem_keys.1 hother)

theorem beq_eq_true_iff : (ctx == ctx') = true ↔ ctx.size = ctx'.size ∧
    ∀ name value, ctx.get? name = some value → ∃ value', ctx'.get? name = some value' ∧ (value == value') = true := by
  show beq ctx ctx' = true ↔ _
  simp [beq, (tabulates_toList ctx).mem_iff, Option.any_eq_true]

theorem beq_iff : (ctx == ctx') = true ↔
    ∀ name, Option.Rel (fun x y => (x == y) = true) (ctx.get? name) (ctx'.get? name) := by
  rw [beq_eq_true_iff]
  constructor
  · rintro ⟨hsize, h⟩ name
    have hbound : ∀ name, (ctx.get? name).isSome → (ctx'.get? name).isSome := by
      intro name hname
      obtain ⟨value, hvalue⟩ := Option.isSome_iff_exists.1 hname
      obtain ⟨value', hvalue', -⟩ := h name value hvalue
      rw [hvalue']
      rfl
    cases hget : ctx.get? name with
    | some value =>
      obtain ⟨value', hget', heq⟩ := h name value hget
      rw [hget']
      exact .some heq
    | none =>
      cases hget' : ctx'.get? name with
      | none => exact .none
      | some value' =>
        -- the other context would bind a name more
        have hlt := size_lt_of_bound hbound hget (by rw [hget']; rfl)
        exact absurd hsize (Nat.ne_of_lt hlt)
  · intro h
    have hbound : ∀ name, (ctx.get? name).isSome = (ctx'.get? name).isSome := fun name => isSome_eq_of_rel (h name)
    refine ⟨Nat.le_antisymm ?_ ?_, fun name value hget => ?_⟩
    · exact size_le_of_bound fun name hname => hbound name ▸ hname
    · exact size_le_of_bound fun name hname => hbound name ▸ hname
    · have hname := h name
      rw [hget] at hname
      cases hget' : ctx'.get? name with
      | none => simp [hget'] at hname
      | some value' => exact ⟨value', rfl, by simpa [hget'] using hname⟩

theorem beq_self_eq_true_iff (ctx : Context) : (ctx == ctx) = true ↔
    ∀ name value, ctx.get? name = some value → value.isNaN = false := by
  rw [beq_iff]
  constructor
  · intro h name value hget
    have hname := h name
    rw [hget, Option.rel_some_some] at hname
    exact (beq_self_iff value).1 hname
  · intro h name
    cases hget : ctx.get? name with
    | none => exact .none
    | some value => exact .some ((beq_self_iff value).2 (h name value hget))

end Context

open Change Context

/-- **Changes.** A context answers as the finite map of what the last change of each name leaves it bound to, and shows
that map in the order of the bytes of its names. Changes with the same last ones show the same text. Two
contexts are equal if their maps bind the same names to equal numbers, so one with a NaN is not equal to itself. -/
theorem context_of_last_changes (changes : List Change) :
    (∀ name, (after changes).get name = (lastBound? changes name).elim (.error (.undefinedVariable name)) .ok ∧
      (after changes).contains name = (lastBound? changes name).isSome ∧
      (after changes).take name = (lastBound? changes name, after (changes ++ [.remove name]))) ∧
    (∃ table, Tabulates table (lastBound? changes) ∧ (after changes).size = table.length ∧
      (after changes).isEmpty = table.isEmpty ∧
      (after changes).print =
        "\x7b" ++ ", ".intercalate (table.map fun (name, value) => name ++ ": " ++ Double.plain value) ++ "\x7d") ∧
    (∀ bindings, Context.ofList bindings = after (bindings.map fun binding => .set binding.1 binding.2)) ∧
    (∀ other, (∀ name, lastBound? changes name = lastBound? other name) →
      (after changes).print = (after other).print) ∧
    (∀ other, (after changes == after other) = true ↔
      ∀ name, Option.Rel (fun x y => (x == y) = true) (lastBound? changes name) (lastBound? other name)) ∧
    ((after changes == after changes) = true ↔
      ∀ name value, lastBound? changes name = some value → value.isNaN = false) := by
  refine ⟨fun name => ⟨?_, ?_, ?_⟩, ⟨(after changes).toList, ?_, size_eq _, isEmpty_eq _, rfl⟩, ofList_eq_after,
    fun other h => ?_, fun other => ?_, ?_⟩
  · rw [Context.get, get?_after]
    cases lastBound? changes name <;> rfl
  · rw [contains_eq, get?_after]
  · rw [take, get?_after, after_concat]
    rfl
  · rw [← funext (get?_after changes)]
    exact tabulates_toList _
  · apply print_congr
    intro name
    rw [get?_after, get?_after, h name]
  · simp only [beq_iff, get?_after]
  · simp only [beq_self_eq_true_iff, get?_after]

/-- `t` is set twice and `a` removed in between, or both are set once the other way round. -/
theorem context_of_last_changes_twice :
    (∀ name, lastBound? [.set "t" 1.0, .set "a" 1.0, .remove "a", .set "t" 2.0, .set "a" 0.5] name =
        lastBound? [.set "a" 0.5, .set "t" 2.0] name) ∧
      (after [.set "t" 1.0, .set "a" 1.0, .remove "a", .set "t" 2.0, .set "a" 0.5]).print =
        (after [.set "a" 0.5, .set "t" 2.0]).print ∧
      (after [.set "a" 0.5, .set "t" 2.0]).print = "\x7ba: 0.5, t: 2\x7d" := by
  have h : ∀ name, lastBound? [.set "t" 1.0, .set "a" 1.0, .remove "a", .set "t" 2.0, .set "a" 0.5] name =
      lastBound? [.set "a" 0.5, .set "t" 2.0] name := by
    intro name
    by_cases ha : "a" = name
    · simp [lastBound?, Change.name, Change.bound?, ← ha]
    · by_cases ht : "t" = name
      · simp [lastBound?, Change.name, Change.bound?, ← ht]
      · simp [lastBound?, Change.name, ha, ht]
  exact ⟨h, (context_of_last_changes _).2.2.2.1 _ h, by decide +kernel⟩

end Calculator
