import Mathlib.Data.List.Forall2
import Calculator.Proofs.Dialogue

/-!
# What options bind

An option `--var` binds the name on the left of its first equals sign to the
number on the right (`readBinding_eq_ok_iff`). How options are found among the
arguments is left to a reader of arguments; the program relies on no more than
that the bindings of a command are those of its options (`ArgumentReader`), so
what such a command has bound last is what its options bind last
(`lastBinding_eq_some_iff`).
-/

namespace Calculator

open CommandLine

/-- The text of an option binds a name to a number. Blanks around either do not count. -/
inductive Binds : String → String → Float → Prop where
  | intro {text : String} {left right : List Char} {value : Float} : text.toList = left ++ '=' :: right → '=' ∉ left →
      Double.read (String.ofList (Text.trim right)) = .ok value → Binds text (String.ofList (Text.trim left)) value

theorem readBinding_eq_ok_iff {text name : String} {value : Float} :
    readBinding text = .ok (name, value) ↔ Binds text name value := by
  unfold readBinding
  constructor
  · intro h
    split at h
    · cases h
    · next left right hsplit =>
      obtain ⟨htext, hleft⟩ := Text.splitAtEquals?_eq_some.1 hsplit
      dsimp only at h
      split at h
      · next x hread =>
        cases h
        exact .intro htext hleft hread
      · cases h
  · rintro ⟨htext, hleft, hread⟩
    rw [Text.splitAtEquals?_eq_some.2 ⟨htext, hleft⟩]
    simp only [hread]

section
variable {text name : String} {texts : List String} {value : Float} {bindings : List (String × Float)}

theorem Binds.unique {name' : String} {value' : Float} (h : Binds text name value) (h' : Binds text name' value') :
    name = name' ∧ value = value' := by
  have heq := (readBinding_eq_ok_iff.2 h).symm.trans (readBinding_eq_ok_iff.2 h')
  simpa using heq

def LastBinds (texts : List String) (name : String) (value : Float) : Prop :=
  ∃ before text after, texts = before ++ text :: after ∧ Binds text name value ∧
    ∀ other ∈ after, ∀ value', ¬ Binds other name value'

theorem lastBinds_cons : LastBinds (text :: texts) name value ↔
    LastBinds texts name value ∨ Binds text name value ∧ ∀ other ∈ texts, ∀ value', ¬ Binds other name value' := by
  constructor
  · rintro ⟨before, text', after, htexts, hbinds, hafter⟩
    cases before with
    | nil =>
      obtain ⟨rfl, rfl⟩ := List.cons.inj htexts
      exact .inr ⟨hbinds, hafter⟩
    | cons _ before =>
      obtain ⟨-, rfl⟩ := List.cons.inj htexts
      exact .inl ⟨before, text', after, rfl, hbinds, hafter⟩
  · rintro (⟨before, text', after, rfl, hbinds, hafter⟩ | ⟨hbinds, hafter⟩)
    · exact ⟨text :: before, text', after, rfl, hbinds, hafter⟩
    · exact ⟨[], text, texts, rfl, hbinds, hafter⟩

abbrev BindEach (texts : List String) (bindings : List (String × Float)) : Prop :=
  List.Forall₂ (fun text binding => Binds text binding.1 binding.2) texts bindings

theorem bindEach_of_map_eq (h : bindings.map Except.ok = texts.map readBinding) : BindEach texts bindings := by
  induction texts generalizing bindings with
  | nil =>
    rw [List.map_nil, List.map_eq_nil_iff] at h
    exact h ▸ .nil
  | cons text texts ih =>
    rw [List.map_cons, List.map_eq_cons_iff] at h
    obtain ⟨binding, bindings, rfl, hbinding, h⟩ := h
    exact .cons (readBinding_eq_ok_iff.1 hbinding.symm) (ih h)

theorem exists_binds_iff (h : BindEach texts bindings) :
    (∃ text ∈ texts, ∃ value, Binds text name value) ↔ ∃ value, (name, value) ∈ bindings := by
  induction h with
  | nil => simp
  | @cons text binding texts bindings hbinds _ ih =>
    obtain ⟨name', value'⟩ := binding
    rw [List.exists_mem_cons_iff, ih]
    constructor
    · rintro (⟨value, htext⟩ | ⟨value, hmem⟩)
      · obtain ⟨rfl, rfl⟩ := htext.unique hbinds
        exact ⟨_, List.mem_cons_self⟩
      · exact ⟨value, List.mem_cons_of_mem _ hmem⟩
    · rintro ⟨value, hmem⟩
      obtain heq | hmem := List.mem_cons.1 hmem
      · cases heq
        exact .inl ⟨_, hbinds⟩
      · exact .inr ⟨value, hmem⟩

theorem lastBinding_eq_some_iff (h : BindEach texts bindings) :
    lastBinding name bindings = some value ↔ LastBinds texts name value := by
  induction h with
  | nil => simp [lastBinding, LastBinds]
  | @cons text binding texts bindings hbinds h ih =>
    obtain ⟨name', value'⟩ := binding
    rw [lastBinds_cons, ← ih, lastBinding_cons]
    have hnone : (∀ other ∈ texts, ∀ value', ¬ Binds other name value') ↔ lastBinding name bindings = none := by
      rw [← Option.not_isSome_iff_eq_none, lastBinding_isSome_iff, ← exists_binds_iff h]
      simp
    rw [hnone]
    cases hlast : lastBinding name bindings with
    | some last => simp
    | none =>
      have htext : Binds text name value ↔ name' = name ∧ value' = value := by
        constructor
        · exact fun htext => hbinds.unique htext
        · rintro ⟨rfl, rfl⟩
          exact hbinds
      simp [htext]

theorem lastBinds_congr {texts' : List String} {bindings' : List (String × Float)} (h : BindEach texts bindings)
    (h' : BindEach texts' bindings') (hlast : lastBinding name bindings = lastBinding name bindings') (value : Float) :
    LastBinds texts name value ↔ LastBinds texts' name value := by
  rw [← lastBinding_eq_some_iff h, ← lastBinding_eq_some_iff h', hlast]

end

/-! ## Readers of arguments -/

def Command.bindings? : Command → Option (List (String × Float))
  | eval _ bindings | session bindings => some bindings
  | tokenize _ | parse _ | samples _ => none

/-- A library that reads arguments. It hands the text of each option `--var` to the program, and collects in turn what
comes of them; a text that is no binding ends the reading. -/
structure ArgumentReader where
  read : List String → Except Report Command
  varTexts : List String → List String
  bindings_eq : ∀ arguments command bindings, read arguments = .ok command → command.bindings? = some bindings →
    bindings.map Except.ok = (varTexts arguments).map readBinding

end Calculator
