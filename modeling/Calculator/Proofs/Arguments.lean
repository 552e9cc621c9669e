import Calculator.CommandLine.Arguments
import Calculator.Proofs.Options

/-!
# Arguments as they are read here

The reading of arguments that the program runs with is a reader as it relies on
one (`reader`): each argument leaves what the options have said and what is
still to come together as they were (`step_eq_ok`).
-/

namespace Calculator

open CommandLine

namespace Arguments

def attached? (argument : String) : Option String :=
  match argument.toList with
  | '-' :: '-' :: 'v' :: 'a' :: 'r' :: '=' :: value => some (String.ofList value)
  | _ => none

/-- What the options `--var` among some arguments say, in turn. After two dashes nothing is an option. -/
def varTexts : List String → List String
  | [] => []
  | argument :: more =>
    if argument = "--" then []
    else if argument = "--var" then
      match more with
      | [] => []
      | value :: rest => value :: varTexts rest
    else (attached? argument).toList ++ varTexts more

section
variable {argument value : String} {more : List String}

theorem varTexts_escape (more : List String) : varTexts ("--" :: more) = [] := by
  rw [varTexts.eq_def]
  rfl

theorem varTexts_alone (value : String) (more : List String) :
    varTexts ("--var" :: value :: more) = value :: varTexts more := by
  rw [varTexts]
  rfl

theorem shape_of_attached? (h : attached? argument = some value) :
    Shape.of argument = .long "var".toList (some value.toList) := by
  unfold attached? at h
  split at h
  · next chars hchars =>
    cases h
    have hsplit : Text.splitAtEquals? ('v' :: 'a' :: 'r' :: '=' :: chars) = some (['v', 'a', 'r'], chars) :=
      Text.splitAtEquals?_eq_some.2 ⟨rfl, by decide⟩
    unfold Shape.of
    rw [hchars]
    simp [hsplit]
  · cases h

theorem attached?_of_shape {chars : List Char} (h : Shape.of argument = .long "var".toList (some chars)) :
    attached? argument = some (String.ofList chars) := by
  unfold Shape.of at h
  split at h
  · cases h
  · next body hchars =>
    split at h
    · next name value hsplit =>
      cases h
      obtain ⟨rfl, -⟩ := Text.splitAtEquals?_eq_some.1 hsplit
      unfold attached?
      rw [hchars]
      rfl
    · cases h
  · cases h
  · cases h

theorem eq_var_of_shape (h : Shape.of argument = .long "var".toList none) : argument = "--var" := by
  unfold Shape.of at h
  split at h
  · cases h
  · next body hchars =>
    split at h
    · cases h
    · cases h
      exact String.toList_inj.1 hchars
  · cases h
  · cases h

theorem ne_nil_of_shape {cluster : List Char} (h : Shape.of argument = .short cluster) : cluster ≠ [] := by
  unfold Shape.of at h
  split at h
  · cases h
  · split at h <;> cases h
  · cases h
    exact List.cons_ne_nil _ _
  · cases h

theorem varTexts_attached {chars : List Char} (h : Shape.of argument = .long "var".toList (some chars)) :
    varTexts (argument :: more) = String.ofList chars :: varTexts more := by
  have hescape : argument ≠ "--" := by
    rintro rfl
    cases h
  have halone : argument ≠ "--var" := by
    rintro rfl
    cases h
  rw [varTexts.eq_def]
  simp [hescape, halone, attached?_of_shape h]

theorem varTexts_skip (hescape : argument ≠ "--") (h : ∀ value?, Shape.of argument ≠ .long "var".toList value?) :
    varTexts (argument :: more) = varTexts more := by
  have halone : argument ≠ "--var" := by
    rintro rfl
    exact h none rfl
  have hattached : attached? argument = none := by
    cases hvalue : attached? argument with
    | none => rfl
    | some value => exact absurd (shape_of_attached? hvalue) (h _)
  rw [varTexts.eq_def]
  simp [hescape, halone, hattached]

end

/-! ## Readings of bindings -/

section
variable {α β : Type}

theorem bind_eq_ok {taking : Taking α} {f : α → Taking β} {b : β} :
    taking >>= f = .ok b ↔ ∃ a, taking = .ok a ∧ f a = .ok b := by
  cases taking <;> simp [bind, Except.bind]

end

def Progress.saying (p : Progress (String × Float)) (more : List String) : List (Except String (String × Float)) :=
  p.values.map .ok ++ (varTexts (match p.pending? with
    | none => more
    | some .waiting => "--var" :: more
    | some (.given value) => "--var" :: value :: more)).map readBinding

/-- What was pending has been read, and nothing else has changed in what the options say. -/
structure Settles (p q : Progress (String × Float)) : Prop where
  isWaiting : p.isWaiting = false
  pending? : q.pending? = none
  saying : ∀ more, q.saying more = p.saying more

section
variable {form : Form (String × Float)} {p q r : Progress (String × Float)} {argument value : String}
  {more : List String}

theorem Settles.trans (h : Settles p q) (h' : Settles q r) : Settles p r where
  isWaiting := h.isWaiting
  pending? := h'.pending?
  saying more := (h'.saying more).trans (h.saying more)

theorem saying_of_none (h : p.pending? = none) (more : List String) :
    p.saying more = p.values.map .ok ++ (varTexts more).map readBinding := by
  rw [Progress.saying, h]

/-- Where no value is missing, only the options among the arguments count. -/
theorem saying_congr {arguments : List String} (hw : p.isWaiting = false) (h : varTexts arguments = varTexts more) :
    p.saying arguments = p.saying more := by
  unfold Progress.isWaiting at hw
  unfold Progress.saying
  cases hp : p.pending? with
  | none => simp [h]
  | some pending =>
    cases pending with
    | waiting => simp [hp] at hw
    | given value => simp [varTexts_alone, h]

theorem askHelp_ne_ok : askHelp form p ≠ .ok q := by
  intro h
  obtain ⟨p', -, h⟩ := bind_eq_ok.1 h
  cases h

theorem accept_eq_ok (h : accept bindingOption value p = .ok q) :
    q.pending? = none ∧ q.values.map Except.ok = p.values.map .ok ++ [readBinding value] := by
  unfold accept at h
  rw [if_neg (by simp [bindingOption])] at h
  split at h
  · next x hx =>
    cases h
    refine ⟨rfl, ?_⟩
    rw [List.map_append, show readBinding value = .ok x from hx]
    rfl
  · cases h

variable (hform : form.option? = some bindingOption)
include hform

theorem settle_eq_ok (h : settle form p = .ok q) : Settles p q := by
  unfold settle at h
  rw [hform] at h
  cases hp : p.pending? with
  | none =>
    rw [hp] at h
    cases h
    exact ⟨by simp [Progress.isWaiting, hp], hp, fun _ => rfl⟩
  | some pending =>
    rw [hp] at h
    cases pending with
    | waiting => cases h
    | given value =>
      obtain ⟨hq, hvalues⟩ := accept_eq_ok h
      refine ⟨by simp [Progress.isWaiting, hp], hq, fun more => ?_⟩
      rw [saying_of_none hq, hvalues, Progress.saying, hp]
      simp [varTexts_alone]

theorem setVerbose_eq_ok (h : setVerbose form p = .ok q) : Settles p q := by
  obtain ⟨p', hp', h⟩ := bind_eq_ok.1 h
  have hsettles := settle_eq_ok hform hp'
  split at h
  · cases h
  · cases h
    exact ⟨hsettles.isWaiting, hsettles.pending?, hsettles.saying⟩

theorem takePlain_eq_ok (h : takePlain form argument p = .ok q) : Settles p q := by
  unfold takePlain at h
  split at h
  · obtain ⟨p', hp', h⟩ := bind_eq_ok.1 h
    cases h
    have hsettles := settle_eq_ok hform hp'
    exact ⟨hsettles.isWaiting, hsettles.pending?, hsettles.saying⟩
  · cases h

theorem takeShort_eq_ok {cluster : List Char} (h : takeShort form cluster p = .ok q) :
    cluster = [] ∧ q = p ∨ Settles p q := by
  induction cluster generalizing p with
  | nil =>
    cases h
    exact .inl ⟨rfl, rfl⟩
  | cons c cluster ih =>
    right
    unfold takeShort at h
    rw [hform] at h
    by_cases hv : c = 'v'
    · rw [if_pos hv] at h
      obtain ⟨p', hp', h⟩ := bind_eq_ok.1 h
      have hsettles := setVerbose_eq_ok hform hp'
      obtain ⟨-, rfl⟩ | hq := ih h
      · exact hsettles
      · exact hsettles.trans hq
    rw [if_neg hv] at h
    by_cases hh : c = 'h'
    · rw [if_pos hh] at h
      exact absurd h askHelp_ne_ok
    · rw [if_neg hh] at h
      cases h

theorem takeLong_eq_ok {name : List Char} {value? : Option (List Char)} (hescape : argument ≠ "--")
    (hshape : Shape.of argument = .long name value?) (h : takeLong form name value? p = .ok q) (more : List String) :
    q.saying more = p.saying (argument :: more) := by
  unfold takeLong at h
  rw [hform] at h
  by_cases hverbose : name = "verbose".toList
  · rw [if_pos hverbose] at h
    cases value? with
    | some value => cases h
    | none =>
      have hsettles := setVerbose_eq_ok hform h
      have hskip : varTexts (argument :: more) = varTexts more := by
        refine varTexts_skip hescape fun value? => ?_
        rw [hshape, hverbose]
        nofun
      rw [hsettles.saying, saying_congr hsettles.isWaiting hskip]
  rw [if_neg hverbose] at h
  by_cases hhelp : name = "help".toList
  · rw [if_pos hhelp] at h
    cases value? with
    | some value => cases h
    | none => exact absurd h askHelp_ne_ok
  rw [if_neg hhelp] at h
  by_cases hname : name = bindingOption.long.toList
  · simp only [if_pos hname] at h
    obtain rfl : name = "var".toList := hname
    obtain ⟨p', hp', h⟩ := bind_eq_ok.1 h
    have hsettles := settle_eq_ok hform hp'
    rw [← hsettles.saying, saying_of_none hsettles.pending?]
    cases value? with
    | some value =>
      obtain ⟨hq, hvalues⟩ := accept_eq_ok h
      rw [saying_of_none hq, hvalues, varTexts_attached hshape]
      simp
    | none =>
      cases h
      rw [eq_var_of_shape hshape]
      rfl
  · simp only [if_neg hname] at h
    cases h

theorem step_eq_ok (hescape : argument ≠ "--") (h : step form argument p = .ok q) (more : List String) :
    q.saying more = p.saying (argument :: more) := by
  have hsettled : (∀ value?, Shape.of argument ≠ .long "var".toList value?) → Settles p q →
      q.saying more = p.saying (argument :: more) := by
    intro hshape hsettles
    rw [hsettles.saying, saying_congr hsettles.isWaiting (varTexts_skip hescape hshape)]
  have hplain : (∀ value?, Shape.of argument ≠ .long "var".toList value?) →
      (if p.isWaiting then .ok { p with pending? := some (.given argument) } else takePlain form argument p) = .ok q →
      q.saying more = p.saying (argument :: more) := by
    intro hshape h
    split at h
    · next hw =>
      cases h
      unfold Progress.isWaiting at hw
      unfold Progress.saying
      split at hw
      · next hp => rw [hp]
      · cases hw
    · exact hsettled hshape (takePlain_eq_ok hform h)
  unfold step at h
  cases hshape : Shape.of argument with
  | long name value? =>
    rw [hshape] at h
    exact takeLong_eq_ok hform hescape hshape h more
  | short cluster =>
    simp only [hshape, hform, Option.any_some, bindingOption, Bool.false_eq_true, false_and, and_false, if_false] at h
    obtain ⟨hnil, -⟩ | hsettles := takeShort_eq_ok hform h
    · exact absurd hnil (ne_nil_of_shape hshape)
    · exact hsettled (by rw [hshape]; nofun) hsettles
  | plain =>
    simp only [hshape] at h
    exact hplain (by rw [hshape]; nofun) h
  | escape =>
    simp only [hshape] at h
    exact hplain (by rw [hshape]; nofun) h

theorem takeRest_eq_ok (h : takeRest form p more >>= settle form = .ok q) : Settles p q := by
  induction more generalizing p with
  | nil => exact settle_eq_ok hform h
  | cons argument more ih =>
    rw [takeRest, bind_assoc] at h
    obtain ⟨p', hp', h⟩ := bind_eq_ok.1 h
    exact (takePlain_eq_ok hform hp').trans (ih h)

theorem takeAll_eq_ok (h : takeAll form p more >>= settle form = .ok q) :
    q.values.map Except.ok = p.saying more := by
  have hsaying : ∀ {p : Progress (String × Float)}, Settles p q → q.values.map Except.ok = p.saying [] := by
    intro p hsettles
    rw [← hsettles.saying, saying_of_none hsettles.pending?]
    simp [varTexts]
  induction more generalizing p with
  | nil => exact hsaying (settle_eq_ok hform h)
  | cons argument more ih =>
    -- a value that is pending belongs to an option before `more`, and `saying` counts it there
    unfold takeAll at h
    by_cases hescape : argument = "--"
    · rw [if_pos hescape] at h
      have hsettles := takeRest_eq_ok hform h
      rw [hsaying hsettles]
      refine saying_congr hsettles.isWaiting ?_
      rw [hescape, varTexts_escape]
      rfl
    · rw [if_neg hescape, bind_assoc] at h
      obtain ⟨p', hp', h⟩ := bind_eq_ok.1 h
      rw [ih h, step_eq_ok hform hescape hp']

theorem read_eq_ok {arguments : List String} (h : read form arguments = .ok q) :
    q.values.map Except.ok = (varTexts arguments).map readBinding := by
  rw [takeAll_eq_ok hform h]
  rfl

end

/-! ## Commands -/

def Says (arguments : List String) (taking : Taking Command) : Prop :=
  ∀ command bindings, taking = .ok command → command.bindings? = some bindings →
    bindings.map Except.ok = (varTexts arguments).map readBinding

section
variable {α : Type} {arguments more : List String} {argument name : String}

theorem says_error (stop : Stop) : Says arguments (.error stop) := nofun

theorem says_ok {command : Command} (h : command.bindings? = none) : Says arguments (.ok command) := by
  intro _ bindings hcommand hbindings
  cases hcommand
  cases h.symm.trans hbindings

theorem says_bind {taking : Taking α} {f : α → Taking Command} (hf : ∀ a, taking = .ok a → Says arguments (f a)) :
    Says arguments (taking >>= f) := by
  cases taking with
  | ok a => exact hf a rfl
  | error stop => exact says_error stop

theorem says_expression {p : Progress α} {f : String → Taking Command} (hf : ∀ text, Says arguments (f text)) :
    Says arguments (p.expression >>= f) :=
  says_bind fun text _ => hf text

theorem says_bindings {form : Form (String × Float)} {p : Progress (String × Float)} {command : Command}
    (hform : form.option? = some bindingOption) (hp : read form arguments = .ok p)
    (h : command.bindings? = some p.values) : Says arguments (.ok command) := by
  intro _ bindings hcommand hbindings
  cases hcommand
  cases h.symm.trans hbindings
  exact read_eq_ok hform hp

theorem says_takeTopic (arguments : List String) : Says arguments (takeTopic arguments) := by
  unfold takeTopic
  split
  · exact says_error _
  · split
    · split <;> exact says_error _
    · exact says_error _

/-- A command says what its options say, and its name is not one of them. -/
theorem says_command? {take : List String → Taking Command} (h : command? name = some take) :
    Says more (take more) ∧ varTexts (name :: more) = varTexts more := by
  unfold command? at h
  split at h <;> cases h <;> refine ⟨?_, varTexts_skip (by decide) (by nofun)⟩
  · exact says_bind fun p _ => says_expression fun _ => says_ok rfl
  · exact says_bind fun p _ => says_expression fun _ => says_ok rfl
  · exact says_bind fun p hp => says_expression fun _ => says_bindings rfl hp rfl
  · exact says_bind fun p _ => says_ok rfl
  · exact says_bind fun p hp => says_bindings rfl hp rfl
  · exact says_takeTopic more

theorem says_takeCommand (verbose : Bool) (arguments : List String) :
    Says arguments (takeCommand verbose arguments) := by
  induction arguments generalizing verbose with
  | nil => exact says_error _
  | cons argument more ih =>
    have hflags : ∀ {verbose cluster}, varTexts (argument :: more) = varTexts more →
        Says (argument :: more) (do takeCommand (← takeFlags verbose cluster) more) := by
      intro verbose cluster hskip
      refine says_bind fun verbose _ => ?_
      rw [Says, hskip]
      exact ih verbose
    unfold takeCommand
    split
    · next take hname =>
      obtain ⟨hgiven, hskip⟩ := says_command? hname
      rw [Says, hskip]
      exact hgiven
    · split
      · exact says_error _
      · split <;> exact says_error _
      · next cluster hshape =>
        refine hflags (varTexts_skip ?_ (by rw [hshape]; nofun))
        rintro rfl
        cases hshape
      · next name value? hshape =>
        split
        · exact says_error _
        · exact says_error _
        · next c hc =>
          refine hflags (varTexts_skip ?_ ?_)
          · rintro rfl
            cases hshape
          · intro value? hvar
            cases hshape.symm.trans hvar
            cases hc

end

theorem bindings_ofArguments {arguments : List String} {command : Command} {bindings : List (String × Float)}
    (h : Command.ofArguments arguments = .ok command) (hb : command.bindings? = some bindings) :
    bindings.map Except.ok = (varTexts arguments).map readBinding := by
  refine says_takeCommand false arguments command bindings ?_ hb
  unfold Command.ofArguments at h
  split at h
  · next hcommand =>
    cases h
    exact hcommand
  · cases h
  · cases h

def reader : ArgumentReader := ⟨Command.ofArguments, varTexts, fun _ _ _ => bindings_ofArguments⟩

end Arguments

end Calculator
