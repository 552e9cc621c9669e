import Calculator.CommandLine
import Calculator.Proofs.Evaluation
import Calculator.Proofs.Scanning

/-!
# What a session says

A session answers its lines in turn. A line that has no value says nothing and
changes nothing, so it may as well not be there; a line that binds `t` is the
only one that later lines can tell from another. The output is a prompt and a
response for each line up to the one that leaves (`execute_session`).
-/

namespace Calculator

namespace Text

theorem splitAtEquals?_eq_some {text name source : List Char} :
    splitAtEquals? text = some (name, source) ↔ text = name ++ '=' :: source ∧ '=' ∉ name := by
  unfold splitAtEquals?
  constructor
  · intro h
    have hsplit := List.takeWhile_append_dropWhile (p := (· ≠ '=')) (l := text)
    have hname : '=' ∉ text.takeWhile (· ≠ '=') := by
      intro hmem
      have hall : (text.takeWhile (· ≠ '=')).all (· ≠ '=') := List.all_takeWhile
      simpa using List.all_eq_true.1 hall _ hmem
    have hstop := head?_dropWhile_stop (· ≠ '=') text
    split at h
    · cases h
    · next c after hdrop =>
      cases h
      rw [hdrop] at hstop hsplit
      obtain rfl : c = '=' := by simpa using hstop c rfl
      exact ⟨hsplit.symm, hname⟩
  · intro h
    obtain ⟨rfl, hname⟩ := h
    have hall : name.all (· ≠ '=') := by
      rw [List.all_eq_true]
      intro c hc
      simp only [decide_eq_true_eq]
      rintro rfl
      exact hname hc
    have hstop : ∀ c ∈ ('=' :: source).head?, decide (c ≠ '=') = false := by simp
    rw [dropWhile_append_of_stop hall hstop, takeWhile_append_of_stop hall hstop]

end Text

namespace Session

open Text

/-! ## Lines -/

/-- A text falls into lines. Each ends with a line feed, but the last one may also end with the text. -/
inductive Splits : List Char → List (List Char) → Prop where
  | nil : Splits [] []
  | last {line : List Char} : line ≠ [] → '\n' ∉ line → Splits line [line]
  | cons {line text : List Char} {more : List (List Char)} : '\n' ∉ line → Splits text more →
      Splits (line ++ '\n' :: text) (line :: more)

section
variable {line text : List Char} {ls : List (List Char)}

theorem lines_cons (c : Char) (text : List Char) :
    lines (c :: text) = if c = '\n' then [] :: lines text
      else match lines text with
        | [] => [[c]]
        | line :: more => (c :: line) :: more := rfl

theorem lines_append (h : '\n' ∉ line) (text : List Char) : lines (line ++ '\n' :: text) = line :: lines text := by
  induction line with
  | nil => rfl
  | cons c line ih =>
    rw [List.mem_cons, not_or] at h
    rw [List.cons_append, lines_cons, if_neg (Ne.symm h.1), ih h.2]

theorem lines_of_not_mem (hne : line ≠ []) (h : '\n' ∉ line) : lines line = [line] := by
  induction line with
  | nil => exact absurd rfl hne
  | cons c line ih =>
    rw [List.mem_cons, not_or] at h
    rw [lines_cons, if_neg (Ne.symm h.1)]
    by_cases hline : line = []
    · rw [hline]; rfl
    · rw [ih hline h.2]

theorem Splits.lines_eq (h : Splits text ls) : lines text = ls := by
  induction h with
  | nil => rfl
  | last hne h => exact lines_of_not_mem hne h
  | cons h _ ih => rw [lines_append h, ih]

theorem splits_lines (text : List Char) : Splits text (lines text) := by
  induction text with
  | nil => exact .nil
  | cons c text ih =>
    rw [lines_cons]
    generalize lines text = ls at ih
    by_cases hc : c = '\n'
    · rw [if_pos hc, hc]
      exact .cons List.not_mem_nil ih
    · rw [if_neg hc]
      have hmem : ∀ {line : List Char}, '\n' ∉ line → '\n' ∉ c :: line := by
        intro line h
        rw [List.mem_cons, not_or]
        exact ⟨Ne.symm hc, h⟩
      cases ih with
      | nil => exact .last (List.cons_ne_nil _ _) (hmem List.not_mem_nil)
      | last _ h => exact .last (List.cons_ne_nil _ _) (hmem h)
      | cons h hmore => exact .cons (hmem h) hmore

end

/-! ## What a line asks for -/

def Leaves (line : List Char) : Prop := (trim line).map Char.toLower = "exit".toList

instance (line : List Char) : Decidable (Leaves line) := inferInstanceAs (Decidable (_ = _))

/-- A line that is not blank asks for the value of a text, and perhaps to bind `t` to it. -/
inductive Asks (line : List Char) : Bool → List Char → Prop where
  | assign {name source : List Char} : trim line = name ++ '=' :: source → '=' ∉ name → trim name = ['t'] →
      Asks line true (trim source)
  | display : trim line ≠ [] → (∀ name source, trim line = name ++ '=' :: source → '=' ∉ name → trim name ≠ ['t']) →
      Asks line false (trim line)

section
variable {line source : List Char} {assigns : Bool}

theorem exists_asks (h : trim line ≠ []) : ∃ assigns source, Asks line assigns source := by
  by_cases ht : ∃ name source, trim line = name ++ '=' :: source ∧ '=' ∉ name ∧ trim name = ['t']
  · obtain ⟨name, source, hline, hname, ht⟩ := ht
    exact ⟨true, _, .assign hline hname ht⟩
  · refine ⟨false, _, .display h ?_⟩
    intro name source hline hname hname'
    exact ht ⟨name, source, hline, hname, hname'⟩

theorem Asks.trim_ne_nil (h : Asks line assigns source) : trim line ≠ [] := by
  cases h with
  | assign hline => rw [hline]; simp
  | display hne => exact hne

theorem Asks.ofLine (h : Asks line assigns source) (hl : ¬ Leaves line) :
    Request.ofLine line = if assigns then .assign (String.ofList source) else .display (String.ofList source) := by
  unfold Leaves at hl
  unfold Request.ofLine
  simp only [if_neg h.trim_ne_nil, if_neg hl]
  cases h with
  | assign hline hname ht => simp [splitAtEquals?_eq_some.2 ⟨hline, hname⟩, ht]
  | display hne hnot =>
    cases hsplit : splitAtEquals? (trim line) with
    | none => rfl
    | some parts =>
      obtain ⟨name, source⟩ := parts
      obtain ⟨hline, hname⟩ := splitAtEquals?_eq_some.1 hsplit
      simp [hnot name source hline hname]

theorem ofLine_of_leaves (h : Leaves line) : Request.ofLine line = .leave := by
  have hne : trim line ≠ [] := by
    intro hnil
    rw [Leaves, hnil] at h
    cases h
  unfold Leaves at h
  unfold Request.ofLine
  simp only [if_neg hne, if_pos h]

end

/-! ## Turns -/

structure Turn where
  line : List Char
  response : String
  bound? : Option Float

inductive Answered (ctx : Context) : Turn → Prop where
  | blank {line : List Char} : trim line = [] → Answered ctx ⟨line, "", none⟩
  | unreadable {line source : List Char} {assigns : Bool} {error : ParseError} : Asks line assigns source →
      parse (String.ofList source) = .error error → Answered ctx ⟨line, "", none⟩
  | undefined {line source : List Char} {assigns : Bool} {e : Expr} {error : EvalError} : Asks line assigns source →
      parse (String.ofList source) = .ok e → e.eval ctx = .error error → Answered ctx ⟨line, "", none⟩
  | assigned {line source : List Char} {e : Expr} {value : Float} : Asks line true source →
      parse (String.ofList source) = .ok e → e.eval ctx = .ok value →
      Answered ctx ⟨line, "t = " ++ Double.format value ++ "\n", some value⟩
  | shown {line source : List Char} {e : Expr} {value : Float} : Asks line false source →
      parse (String.ofList source) = .ok e → e.eval ctx = .ok value →
      Answered ctx ⟨line, e.print ++ " = " ++ Double.format value ++ "\n", none⟩

def Turn.after (turn : Turn) (ctx : Context) : Context :=
  match turn.bound? with
  | some value => ctx.set "t" value
  | none => ctx

def Reply.after (ctx : Context) : Reply → Context
  | answered _ after => after
  | silent | finished | refused _ => ctx

def memory (ctx : Context) (turns : List Turn) : Context := turns.foldl (fun ctx turn => turn.after ctx) ctx

def said (turns : List Turn) : String := String.join (turns.map fun turn => prompt ++ turn.response)

section
variable {ctx : Context} {turn : Turn} {turns before more : List Turn}

theorem exists_answered (ctx : Context) (line : List Char) : ∃ turn, turn.line = line ∧ Answered ctx turn := by
  by_cases hblank : trim line = []
  · exact ⟨_, rfl, .blank hblank⟩
  · obtain ⟨assigns, source, hasks⟩ := exists_asks hblank
    cases hparse : parse (String.ofList source) with
    | error error => exact ⟨_, rfl, .unreadable hasks hparse⟩
    | ok e =>
      cases hvalue : e.eval ctx with
      | error error => exact ⟨_, rfl, .undefined hasks hparse hvalue⟩
      | ok value =>
        cases assigns with
        | true => exact ⟨_, rfl, .assigned hasks hparse hvalue⟩
        | false => exact ⟨_, rfl, .shown hasks hparse hvalue⟩

theorem transcript_of_leaves {line : List Char} (h : Leaves line) (ls : List (List Char)) :
    transcript ctx (line :: ls) = prompt := by
  rw [transcript, reply, ofLine_of_leaves h]

/-- A turn leaves bound what the reply to its line does. It writes its prompt and response, and the session goes on
with that. -/
theorem Answered.reply_eq (h : Answered ctx turn) (hl : ¬ Leaves turn.line) :
    (reply ctx turn.line).after ctx = turn.after ctx ∧ ∀ ls,
      transcript ctx (turn.line :: ls) = prompt ++ turn.response ++ transcript (turn.after ctx) ls := by
  simp only [transcript, reply]
  cases h with
  | blank hblank => simp [Request.ofLine, hblank, Turn.after, Reply.after]
  | @unreadable line source assigns error hasks hparse =>
    rw [hasks.ofLine hl]
    cases assigns <;> simp [evaluate_of_unreadable hparse, Turn.after, Reply.after]
  | @undefined line source assigns e error hasks hparse hvalue =>
    rw [hasks.ofLine hl]
    cases assigns <;> simp [evaluate_of_undefined hparse hvalue, Turn.after, Reply.after]
  | assigned hasks hparse hvalue =>
    rw [hasks.ofLine hl]
    simp [evaluate_of_value hparse hvalue, Turn.after, Reply.after, String.append_assoc]
  | shown hasks hparse hvalue =>
    rw [hasks.ofLine hl]
    simp [evaluate_of_value hparse hvalue, Turn.after, Reply.after, String.append_assoc]

theorem Answered.bound?_eq_none (h : Answered ctx turn) (hr : turn.response = "") : turn.bound? = none := by
  cases h with
  | assigned => simpa using congrArg String.toList hr
  | _ => rfl

theorem said_cons (turn : Turn) (more : List Turn) : said (turn :: more) = prompt ++ turn.response ++ said more := by
  simp [said]

theorem said_append (before more : List Turn) : said (before ++ more) = said before ++ said more := by
  simp [said]

theorem memory_append (ctx : Context) (before more : List Turn) :
    memory ctx (before ++ more) = memory (memory ctx before) more := List.foldl_append

theorem get?_memory (ctx : Context) (turns : List Turn) (name : String) :
    (memory ctx turns).get? name =
      if name = "t" then (turns.filterMap Turn.bound?).getLast?.or (ctx.get? "t") else ctx.get? name := by
  induction turns generalizing ctx with
  | nil => by_cases hname : name = "t" <;> simp [memory, hname]
  | cons turn turns ih =>
    rw [show memory ctx (turn :: turns) = memory (turn.after ctx) turns from rfl, ih]
    cases hb : turn.bound? with
    | none => simp [Turn.after, hb]
    | some value =>
      by_cases hname : name = "t"
      · simp [Turn.after, hb, hname, Context.get?_set, List.getLast?_cons]
      · simp [Turn.after, hb, hname, Context.get?_set, Ne.symm hname]

end

/-! ## Dialogues -/

/-- The turns of a session, each answered under what those before it have left bound. -/
inductive Dialogue : Context → List Turn → Prop where
  | nil {ctx : Context} : Dialogue ctx []
  | cons {ctx : Context} {turn : Turn} {more : List Turn} : ¬ Leaves turn.line → Answered ctx turn →
      Dialogue (turn.after ctx) more → Dialogue ctx (turn :: more)

section
variable {ctx ctx' : Context} {turn : Turn} {turns before more : List Turn} {rest : List (List Char)}

theorem dialogue_append : Dialogue ctx (before ++ more) ↔ Dialogue ctx before ∧ Dialogue (memory ctx before) more := by
  induction before generalizing ctx with
  | nil => exact ⟨fun h => ⟨.nil, h⟩, fun h => h.2⟩
  | cons turn before ih =>
    constructor
    · intro h
      cases h with
      | cons hl ha hmore =>
        obtain ⟨hbefore, hmore⟩ := ih.1 hmore
        exact ⟨.cons hl ha hbefore, hmore⟩
    · intro h
      obtain ⟨hbefore, hmore⟩ := h
      cases hbefore with
      | cons hl ha hbefore => exact .cons hl ha (ih.2 ⟨hbefore, hmore⟩)

theorem exists_dialogue (ctx : Context) (ls : List (List Char)) :
    ∃ turns rest, ls = turns.map Turn.line ++ rest ∧ (∀ line ∈ rest.head?, Leaves line) ∧ Dialogue ctx turns := by
  induction ls generalizing ctx with
  | nil => exact ⟨[], [], rfl, nofun, .nil⟩
  | cons line ls ih =>
    by_cases hl : Leaves line
    · refine ⟨[], line :: ls, rfl, ?_, .nil⟩
      rintro _ ⟨⟩
      exact hl
    · obtain ⟨turn, rfl, ha⟩ := exists_answered ctx line
      obtain ⟨turns, rest, rfl, hrest, hturns⟩ := ih (turn.after ctx)
      exact ⟨turn :: turns, rest, rfl, hrest, .cons hl ha hturns⟩

theorem Dialogue.transcript_eq (h : Dialogue ctx turns) (hrest : ∀ line ∈ rest.head?, Leaves line) :
    transcript ctx (turns.map Turn.line ++ rest) = said turns ++ prompt := by
  induction h with
  | nil =>
    cases rest with
    | nil => rfl
    | cons line rest => exact transcript_of_leaves (hrest line rfl) rest
  | @cons ctx turn more hl ha _ ih =>
    rw [List.map_cons, List.cons_append, (ha.reply_eq hl).2, ih, said_cons]
    simp only [String.append_assoc]

theorem Dialogue.erase (h : Dialogue ctx (before ++ turn :: more)) (hr : turn.response = "") :
    Dialogue ctx (before ++ more) := by
  obtain ⟨hbefore, hafter⟩ := dialogue_append.1 h
  cases hafter with
  | cons hl ha hmore =>
    rw [Turn.after, ha.bound?_eq_none hr] at hmore
    exact dialogue_append.2 ⟨hbefore, hmore⟩

theorem Answered.congr (h : Answered ctx turn) (ht : ctx.get? "t" = ctx'.get? "t") : Answered ctx' turn := by
  cases h with
  | blank hblank => exact .blank hblank
  | unreadable hasks hparse => exact .unreadable hasks hparse
  | undefined hasks hparse hvalue => exact .undefined hasks hparse (eval_congr_of_parse hparse ht ▸ hvalue)
  | assigned hasks hparse hvalue => exact .assigned hasks hparse (eval_congr_of_parse hparse ht ▸ hvalue)
  | shown hasks hparse hvalue => exact .shown hasks hparse (eval_congr_of_parse hparse ht ▸ hvalue)

theorem Dialogue.congr (h : Dialogue ctx turns) (ht : ctx.get? "t" = ctx'.get? "t") : Dialogue ctx' turns := by
  induction h generalizing ctx' with
  | nil => exact .nil
  | @cons ctx turn more hl ha _ ih =>
    refine .cons hl (ha.congr ht) (ih ?_)
    unfold Turn.after
    cases turn.bound? with
    | none => exact ht
    | some value => rw [Context.get?_set, Context.get?_set, if_pos rfl, if_pos rfl]

theorem transcript_congr (ht : ctx.get? "t" = ctx'.get? "t") (ls : List (List Char)) :
    transcript ctx ls = transcript ctx' ls := by
  obtain ⟨turns, rest, rfl, hrest, h⟩ := exists_dialogue ctx ls
  rw [h.transcript_eq hrest, (h.congr ht).transcript_eq hrest]

end

end Session

theorem execute_eq_transcript (bindings : List (String × Float)) (input : String) :
    CommandLine.execute input (.session bindings) =
      { exitCode := 0, output := Session.transcript (.ofList bindings) (Session.lines input.toList) } := rfl

open Session in
/-- A session writes a prompt and a response for each line before the first that leaves, and one more prompt. Each
line is answered under what those before it have left bound; of that only `t` ever changes, and it is what was
bound to it last. A line without a response can be left out with its prompt. -/
theorem execute_session (bindings : List (String × Float)) (input : String) :
    ∃ turns rest, Splits input.toList (turns.map Turn.line ++ rest) ∧ (∀ line ∈ rest.head?, Leaves line) ∧
      CommandLine.execute input (.session bindings) = { exitCode := 0, output := said turns ++ prompt } ∧
      (∀ before turn more, turns = before ++ turn :: more →
        ¬ Leaves turn.line ∧ Answered (memory (.ofList bindings) before) turn ∧
        (reply (memory (.ofList bindings) before) turn.line).after (memory (.ofList bindings) before) =
          memory (.ofList bindings) (before ++ [turn]) ∧
        (turn.response = "" → said turns = said before ++ prompt ++ said more ∧
          ∀ input' : String, Splits input'.toList ((before ++ more).map Turn.line ++ rest) →
            CommandLine.execute input' (.session bindings) =
              { exitCode := 0, output := said before ++ said more ++ prompt })) ∧
      ∀ before more, turns = before ++ more → ∀ name, (memory (.ofList bindings) before).get? name =
        if name = "t" then (before.filterMap Turn.bound?).getLast?.or ((Context.ofList bindings).get? "t")
        else (Context.ofList bindings).get? name := by
  obtain ⟨turns, rest, hlines, hrest, h⟩ := exists_dialogue (.ofList bindings) (lines input.toList)
  have houtput : ∀ (input : String) (turns : List Turn), Splits input.toList (turns.map Turn.line ++ rest) →
      Dialogue (.ofList bindings) turns →
        CommandLine.execute input (.session bindings) = { exitCode := 0, output := said turns ++ prompt } := by
    intro input turns hsplits h
    rw [execute_eq_transcript, hsplits.lines_eq, h.transcript_eq hrest]
  have hsplits := splits_lines input.toList
  rw [hlines] at hsplits
  refine ⟨turns, rest, hsplits, hrest, houtput input turns hsplits h, ?_, fun before _ _ => get?_memory _ before⟩
  intro before turn more hturns
  rw [hturns] at h
  obtain ⟨-, hfrom⟩ := dialogue_append.1 h
  cases hfrom with
  | cons hl ha _ =>
    refine ⟨hl, ha, ?_, fun hr => ⟨?_, fun input' hsplits' => ?_⟩⟩
    · rw [(ha.reply_eq hl).1, memory_append]; rfl
    · rw [hturns, said_append, said_cons, hr, String.append_empty, String.append_assoc]
    · rw [houtput input' _ hsplits' (h.erase hr), said_append]

open Session in
/-- `t` is not bound in the first line, bound in the second and read in the fourth; the third is no expression. -/
theorem execute_session_of_assignment :
    ∃ a b c d rest, Splits "t\nt = 1+2\n1+\n2t\n Exit \n9".toList ([a, b, c, d].map Turn.line ++ rest) ∧
      [a, b, c, d].map Turn.line = ["t".toList, "t = 1+2".toList, "1+".toList, "2t".toList] ∧
      Answered (memory (.ofList []) [a, b, c]) d ∧ (memory (.ofList []) [a, b, c]).get? "t" = some 3.0 ∧
      CommandLine.execute "t\nt = 1+2\n1+\n2t\n Exit \n9" (.session []) =
        { exitCode := 0, output := said [a, b, c, d] ++ prompt } ∧
      said [a, b, c, d] ++ prompt = "calc> calc> t = 3\ncalc> calc> (2*t) = 6\ncalc> " := by
  obtain ⟨turns, rest, hsplits, hrest, houtput, hturns, -⟩ := execute_session [] "t\nt = 1+2\n1+\n2t\n Exit \n9"
  have hstay : (turns.map Turn.line).all (¬ Leaves ·) := by
    rw [List.all_map, List.all_eq_true]
    intro turn hturn
    obtain ⟨before, more, rfl⟩ := List.append_of_mem hturn
    exact decide_eq_true (hturns before turn more rfl).1
  have hstop : ∀ line ∈ rest.head?, decide (¬ Leaves line) = false := fun line hline => by simpa using hrest line hline
  have hlines : turns.map Turn.line = ["t".toList, "t = 1+2".toList, "1+".toList, "2t".toList] := by
    rw [← takeWhile_append_of_stop hstay hstop, ← hsplits.lines_eq]
    decide +kernel
  simp only [List.map_eq_cons_iff, List.map_eq_nil_iff] at hlines
  obtain ⟨a, _, rfl, ha, b, _, rfl, hb, c, _, rfl, hc, d, _, rfl, hd, rfl⟩ := hlines
  have hmemory : (memory (.ofList []) [a, b, c]).get? "t" = some 3.0 := by
    have ha' := (hturns [] a [b, c, d] rfl).2.2.1
    have hb' := (hturns [a] b [c, d] rfl).2.2.1
    have hc' := (hturns [a, b] c [d] rfl).2.2.1
    simp only [List.nil_append, List.cons_append] at ha' hb' hc'
    rw [← hc', ← hb', ← ha', ha, hb, hc]
    decide +kernel
  refine ⟨a, b, c, d, rest, hsplits, by simp [ha, hb, hc, hd], (hturns [a, b, c] d [] rfl).2.1, hmemory, houtput, ?_⟩
  have houtput' : CommandLine.execute "t\nt = 1+2\n1+\n2t\n Exit \n9" (.session []) =
      { exitCode := 0, output := "calc> calc> t = 3\ncalc> calc> (2*t) = 6\ncalc> " } := by decide +kernel
  exact congrArg Report.output (houtput.symm.trans houtput')

end Calculator
