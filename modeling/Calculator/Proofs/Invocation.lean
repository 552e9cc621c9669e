import Calculator.Proofs.Arguments

/-!
# What the command line depends on

Of all that the options `--var` bind, only the last number for `t` makes a
difference to what `eval` and a session write, and `eval` has something to
write unless its expression cannot be read or `t` stands in it and is not
bound (`run_of_last_binding`). That is so for every reader of arguments.
-/

namespace Calculator

open CommandLine

/-! ## One line -/

namespace Double

theorem isDigit_of_mem_ofScaled {significand : Nat} {exponent : Int} {c : Char}
    (hc : c ∈ (Decimal.ofScaled significand exponent).digits) : c.isDigit := by
  unfold Decimal.ofScaled at hc
  have hmem := (List.dropWhile_sublist _).subset (List.mem_reverse.1 hc)
  exact Nat.isDigit_of_mem_toDigits (by decide) (by decide) (List.mem_reverse.1 hmem)

theorem isDigit_of_mem_shortest {units : Nat} {c : Char} (hc : c ∈ (shortest units).digits) : c.isDigit := by
  unfold shortest at hc
  dsimp only at hc
  generalize hhit : (List.range' 1 17).findSome? _ = hit? at hc
  cases hit? with
  | none => cases hc
  | some d =>
    obtain ⟨count, -, hcount⟩ := List.exists_of_findSome?_eq_some hhit
    obtain ⟨significand, -, rfl⟩ := Option.map_eq_some_iff.1 hcount
    exact isDigit_of_mem_ofScaled hc

theorem newline_not_mem_positional {d : Decimal} (h : ∀ c ∈ d.digits, c.isDigit) : '\n' ∉ d.positional [] := by
  have hdigits : '\n' ∉ d.digits := by
    intro hmem
    exact absurd (h _ hmem) (by decide)
  unfold Decimal.positional
  split
  · simp [hdigits]
  · have htake : '\n' ∉ d.digits.take d.point.toNat := fun hmem => hdigits (List.mem_of_mem_take hmem)
    dsimp only
    split
    · simp [htake]
    · have hdrop : '\n' ∉ d.digits.drop d.point.toNat := fun hmem => hdigits (List.mem_of_mem_drop hmem)
      simp [htake, hdrop]

theorem newline_not_mem_plain (x : Float) : '\n' ∉ (plain x).toList := by
  have htext : ∀ units, '\n' ∉ if units = 0 then ['0'] else (shortest units).positional [] := by
    intro units
    split
    · decide
    · exact newline_not_mem_positional fun c => isDigit_of_mem_shortest
  unfold plain withSign
  split
  · decide
  · decide
  · decide
  · simpa using htext _
  · simpa using htext _

end Double

/-! ## Runs -/

section
variable {readArguments : List String → Except Report Command} {arguments : List String} {text : String}
  {bindings : List (String × Float)}

theorem run_eval (h : readArguments arguments = .ok (.eval text bindings)) (input : String) :
    run readArguments arguments input =
      match evaluate (Context.ofList bindings) text with
      | .error refusal => refuse refusal
      | .ok (_, value) => succeed (Double.plain value ++ "\n") := by
  unfold run
  rw [h]
  rfl

theorem run_session (h : readArguments arguments = .ok (.session bindings)) (input : String) :
    run readArguments arguments input =
      { exitCode := 0, output := Session.transcript (.ofList bindings) (Session.lines input.toList) } := by
  unfold run
  rw [h]
  rfl

end

namespace ArgumentReader

variable {reader : ArgumentReader} {arguments arguments' : List String} {command command' : Command}
  {bindings bindings' : List (String × Float)}

theorem bindEach (h : reader.read arguments = .ok command) (hb : command.bindings? = some bindings) :
    BindEach (reader.varTexts arguments) bindings :=
  bindEach_of_map_eq (reader.bindings_eq _ _ _ h hb)

theorem get?_t_eq (h : reader.read arguments = .ok command) (hb : command.bindings? = some bindings)
    (h' : reader.read arguments' = .ok command') (hb' : command'.bindings? = some bindings')
    (hlast : ∀ value, LastBinds (reader.varTexts arguments) "t" value ↔
      LastBinds (reader.varTexts arguments') "t" value) :
    (Context.ofList bindings).get? "t" = (Context.ofList bindings').get? "t" := by
  rw [Context.get?_ofList, Context.get?_ofList]
  apply Option.ext
  intro value
  rw [lastBinding_eq_some_iff (bindEach h hb), lastBinding_eq_some_iff (bindEach h' hb'), hlast value]

end ArgumentReader

/-- The bindings of a command are what its options `--var` say, in turn, and runs whose last one for `t` is the same
give the same report. An evaluation writes one line unless its expression cannot be read, or `t` stands in it and is
not bound. -/
theorem run_of_last_binding (reader : ArgumentReader) :
    (∀ arguments command bindings, reader.read arguments = .ok command → command.bindings? = some bindings →
      BindEach (reader.varTexts arguments) bindings) ∧
    (∀ arguments arguments' text bindings bindings' input,
      reader.read arguments = .ok (.eval text bindings) → reader.read arguments' = .ok (.eval text bindings') →
      (∀ value, LastBinds (reader.varTexts arguments) "t" value ↔ LastBinds (reader.varTexts arguments') "t" value) →
      run reader.read arguments input = run reader.read arguments' input) ∧
    (∀ arguments arguments' bindings bindings' input,
      reader.read arguments = .ok (.session bindings) → reader.read arguments' = .ok (.session bindings') →
      (∀ value, LastBinds (reader.varTexts arguments) "t" value ↔ LastBinds (reader.varTexts arguments') "t" value) →
      run reader.read arguments input = run reader.read arguments' input) ∧
    ∀ arguments text bindings input, reader.read arguments = .ok (.eval text bindings) →
      ((run reader.read arguments input).exitCode = 0 ↔ (∃ e, parse text = .ok e) ∧
        ((∀ token ∈ tokenize text, token.lexeme ≠ .var) ∨
          ∃ option ∈ reader.varTexts arguments, ∃ value, Binds option "t" value)) ∧
      ((run reader.read arguments input).exitCode = 0 ∧
          (∃ line : String, '\n' ∉ line.toList ∧ (run reader.read arguments input).output = line ++ "\n") ∨
        (run reader.read arguments input).exitCode = 1 ∧ (run reader.read arguments input).output = "") := by
  refine ⟨fun _ _ _ => ArgumentReader.bindEach, ?_, ?_, ?_⟩
  · intro arguments arguments' text bindings bindings' input h h' hlast
    rw [run_eval h, run_eval h', evaluate_congr (ArgumentReader.get?_t_eq h rfl h' rfl hlast)]
  · intro arguments arguments' bindings bindings' input h h' hlast
    rw [run_session h, run_session h', Session.transcript_congr (ArgumentReader.get?_t_eq h rfl h' rfl hlast)]
  · intro arguments text bindings input h
    have hvalue := @evaluate_isOk_iff (.ofList bindings) text
    rw [Context.get?_ofList, lastBinding_isSome_iff, ← exists_binds_iff (ArgumentReader.bindEach h rfl)] at hvalue
    rw [← hvalue, run_eval h]
    cases evaluate (.ofList bindings) text with
    | ok answer =>
      obtain ⟨e, value⟩ := answer
      have hline := Double.newline_not_mem_plain value
      exact ⟨⟨fun _ => ⟨_, rfl⟩, fun _ => rfl⟩, .inl ⟨rfl, _, hline, rfl⟩⟩
    | error refusal => exact ⟨⟨nofun, nofun⟩, .inr ⟨rfl, rfl⟩⟩

/-- The last of the options for `t` counts, however it is written and whatever else is bound. Without one `t` has no
value. -/
theorem run_of_last_binding_of_options :
    (∀ value, LastBinds (Arguments.reader.varTexts ["eval", "2t", "--var", "x=1", "--var", " t = 3"]) "t" value ↔
      LastBinds (Arguments.reader.varTexts ["eval", "--var=t=2", "--var=t=3.0", "2t"]) "t" value) ∧
    run Arguments.reader.read ["eval", "2t", "--var", "x=1", "--var", " t = 3"] "" =
      run Arguments.reader.read ["eval", "--var=t=2", "--var=t=3.0", "2t"] "" ∧
    run Arguments.reader.read ["eval", "--var=t=2", "--var=t=3.0", "2t"] "" = { exitCode := 0, output := "6\n" } ∧
    (∀ value, LastBinds (Arguments.reader.varTexts ["calc", "--var", "t=3"]) "t" value ↔
      LastBinds (Arguments.reader.varTexts ["calc", "--var=t=1", "--var", "t=3", "--var", "y=0"]) "t" value) ∧
    run Arguments.reader.read ["calc", "--var", "t=3"] "2t\nt=t-1\nt" =
      run Arguments.reader.read ["calc", "--var=t=1", "--var", "t=3", "--var", "y=0"] "2t\nt=t-1\nt" ∧
    run Arguments.reader.read ["calc", "--var", "t=3"] "2t\nt=t-1\nt" =
      { exitCode := 0, output := "calc> (2*t) = 6\ncalc> t = 2\ncalc> t = 2\ncalc> " } ∧
    (run Arguments.reader.read ["eval", "2t", "--var", "x=1"] "").exitCode = 1 ∧
      (run Arguments.reader.read ["eval", "2t", "--var", "x=1"] "").output = "" := by
  obtain ⟨hbind, heval, hsession, houtcome⟩ := run_of_last_binding Arguments.reader
  have hread : Arguments.reader.read ["eval", "2t", "--var", "x=1", "--var", " t = 3"] =
      .ok (.eval "2t" [("x", 1.0), ("t", 3.0)]) := by decide +kernel
  have hread' : Arguments.reader.read ["eval", "--var=t=2", "--var=t=3.0", "2t"] =
      .ok (.eval "2t" [("t", 2.0), ("t", 3.0)]) := by decide +kernel
  have hlast := lastBinds_congr (hbind _ _ _ hread rfl) (hbind _ _ _ hread' rfl)
    (show lastBinding "t" _ = lastBinding "t" _ by decide +kernel)
  have hcalc : Arguments.reader.read ["calc", "--var", "t=3"] = .ok (.session [("t", 3.0)]) := by decide +kernel
  have hcalc' : Arguments.reader.read ["calc", "--var=t=1", "--var", "t=3", "--var", "y=0"] =
      .ok (.session [("t", 1.0), ("t", 3.0), ("y", 0.0)]) := by decide +kernel
  have hlast' := lastBinds_congr (hbind _ _ _ hcalc rfl) (hbind _ _ _ hcalc' rfl)
    (show lastBinding "t" _ = lastBinding "t" _ by decide +kernel)
  have hunbound : Arguments.reader.read ["eval", "2t", "--var", "x=1"] = .ok (.eval "2t" [("x", 1.0)]) := by
    decide +kernel
  obtain ⟨hcode, -⟩ | hfailed := (houtcome _ _ _ "" hunbound).2
  · have hcode' : ¬ (run Arguments.reader.read ["eval", "2t", "--var", "x=1"] "").exitCode = 0 := by decide +kernel
    exact absurd hcode hcode'
  · exact ⟨hlast, heval _ _ _ _ _ "" hread hread' hlast, by decide +kernel, hlast',
      hsession _ _ _ _ "2t\nt=t-1\nt" hcalc hcalc' hlast', by decide +kernel, hfailed⟩

end Calculator
