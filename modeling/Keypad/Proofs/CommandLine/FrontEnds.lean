import Keypad.Proofs.CommandLine.Arguments
import Keypad.Proofs.CommandLine.Pieces
import Keypad.Proofs.Expression.Trailing
import Keypad.Proofs.Session.Atomic
import Mathlib.Data.List.Infix

/-!
# One text at both front ends

A text is worth the same whether it is an argument of `eval` or is brought to a keypad and
followed by `=`. The keypad takes it line by line: as one line that is typed over the whole
display, or as a line for each key. What the loop does with such lines is said by `Answers`,
which is closed under rows of lines, so each kind of line needs one lemma.

A typed line loses the blanks at its end before it is shown and before it is evaluated. That
they do not count is the one fact about the evaluator that is needed here.

## Main definitions

* `resultText`: what the display shows for the value of a text.
* `Answers`: what a row of lines prints, and the session that it leads to.

## Main results

* `Session.press_equals`: `=` leads to a session that depends on the value only.
* `answers_typed`, `answers_keys`: the two ways to bring a text to a keypad.
* `frontEnds_agree`: **the front ends agree**.
-/

namespace Keypad

/-- What the display shows for the value of a text, if it has one: a finite value as it is
displayed, and otherwise that there is an error. -/
def resultText : Option Float → String
  | some x => if x.isFinite then display x else "Error"
  | none => "Error"

/-! ### The result key -/

namespace Session

/-- The session that shows the value of a text. An error leaves no expression. -/
def showResult (s : Session) : Option Float → Session
  | some x => if x.isFinite then s.showValue x else s.afterFault .equals
  | none => s.afterFault .equals

/-- What is shown for a value. -/
theorem display_showResult (s : Session) (result : Option Float) :
    (s.showResult result).display = resultText result := by
  cases result with
  | none => rfl
  | some x =>
      rw [showResult, resultText]
      split
      · rfl
      · rfl

/-- Nothing is left of the expression and the display before. -/
theorem showResult_congr {s t : Session} (hmemory : s.memory = t.memory) (hmode : s.mode = t.mode)
    (result : Option Float) : s.showResult result = t.showResult result := by
  obtain ⟨expression, shown, memory, mode⟩ := s
  obtain rfl : memory = t.memory := hmemory
  obtain rfl : mode = t.mode := hmode
  cases result with
  | none => rfl
  | some x =>
      rw [showResult, showResult]
      split
      · rfl
      · rfl

/-- Without a finite value, the result key fails. -/
theorem press_equals_of_error {s : Session} (fault : Fault) (h : s.current = .error fault) :
    (s.press .equals).1 = s.afterFault .equals := by
  have heffect : s.effect .equals = .error fault := by
    rw [effect_equals, h]
    rfl
  rw [press_of_error heffect]

/-- **The result key shows the value of the expression.** -/
theorem press_equals (s : Session) :
    (s.press .equals).1 = s.showResult (evaluate s.mode s.expression).toOption := by
  cases hvalue : evaluate s.mode s.expression with
  | error fault =>
      refine press_equals_of_error fault ?_
      rw [current, hvalue]
      rfl
  | ok x =>
      change _ = s.showResult (some x)
      by_cases hfinite : x.isFinite = true
      · have hcurrent := current_eq_ok_iff.mpr ⟨hvalue, hfinite⟩
        rw [press_eq_none_iff.mpr (effect_equals_eq_ok_iff.mpr ⟨x, hcurrent, rfl⟩), showResult,
          if_pos hfinite]
      · rw [showResult, if_neg hfinite]
        refine press_equals_of_error .nonFiniteResult ?_
        rw [current, hvalue]
        exact if_neg hfinite

/-! ### Keys that type a text -/

/-- The session after a key for each character. -/
def typeAll (s : Session) (cs : List Char) : Session :=
  cs.foldl (fun s c => s.setExpression (s.expression.push c)) s

/-- The characters are appended, and nothing else changes but the display. -/
theorem typeAll_fields (s : Session) (cs : List Char) :
    (s.typeAll cs).expression = s.expression ++ String.ofList cs ∧
      (s.typeAll cs).memory = s.memory ∧ (s.typeAll cs).mode = s.mode := by
  induction cs generalizing s with
  | nil => exact ⟨(String.append_empty).symm, rfl, rfl⟩
  | cons c cs ih =>
      obtain ⟨hexpression, hmemory, hmode⟩ := ih (s.setExpression (s.expression.push c))
      refine ⟨hexpression.trans (String.toList_inj.mp ?_), hmemory, hmode⟩
      simp [setExpression]

end Session

/-- The key of a character. -/
theorem Key.ofLabel_singleton {c : Char} (h : isKeypadChar c = true) :
    ofLabel (String.singleton c) = .ok (.input c) := by
  -- the other keys have labels that no keypad types with one press
  have hother (label : String)
      (hlabel : (label.length == 1 && label.toList.all isKeypadChar) = false) :
      String.singleton c ≠ label := by
    rintro rfl
    simp [h] at hlabel
  rw [ofLabel.eq_def]
  split
  case h_19 => simp only [ofTyped, String.toList_singleton, h, if_true]
  all_goals
    next heq => exact absurd heq (hother _ (by decide))

namespace CommandLine

/-! ### Rows of lines -/

/-- The input of some lines of text. -/
def inputOf (lines : List String) : List UInt8 :=
  bytes (String.join (lines.map (· ++ "\n")))

/-- The lines of such an input. -/
theorem splitLines_inputOf {lines : List String} (h : ∀ line ∈ lines, '\n' ∉ line.toList) :
    splitLines (inputOf lines) = lines.map bytes := by
  induction lines with
  | nil => rfl
  | cons line lines ih =>
      obtain ⟨hline, hlines⟩ := List.forall_mem_cons.mp h
      rw [inputOf, List.map_cons, String.join_cons, splitLines_bytes_append hline, ← inputOf,
        ih hlines, List.map_cons]

/-- A display and the prompt behind it. -/
def answerLine (shown : String) : String :=
  shown ++ "\n" ++ prompt

/-- The loop answers a row of lines with `output`, and leads to `t` without being stopped. -/
structure Answers (s : Session) (lines : List (List UInt8)) (output : String) (t : Session) :
    Prop where
  stays : ∀ line ∈ lines, stops line = false
  output : (answer s lines).output = output
  session : sessionAfter s lines = t

namespace Answers

variable {s t u : Session} {line : List UInt8} {lines more : List (List UInt8)}
  {output output' : String}

/-- No lines, no answer. -/
theorem nil (s : Session) : Answers s [] "" s :=
  ⟨nofun, rfl, rfl⟩

/-- A line that works on the session is answered with the display. -/
theorem proceed {fault : Option Fault} (h : Turn.ofLine s line = .proceed t fault) :
    Answers s [line] (answerLine t.display) t := by
  have hstays : stops line = false := by
    refine Bool.eq_false_iff.mpr fun hstops => ?_
    exact nomatch h.symm.trans (Turn.ofLine_of_stops hstops s)
  refine ⟨List.forall_mem_singleton.mpr hstays, ?_, ?_⟩
  · rw [answer_cons hstays, h]
    exact String.append_empty
  · rw [sessionAfter, List.foldl_cons, h]
    rfl

/-- Rows of lines are answered one after another. -/
theorem append (h : Answers s lines output t) (h' : Answers t more output' u) :
    Answers s (lines ++ more) (output ++ output') u := by
  refine ⟨List.forall_mem_append.mpr ⟨h.stays, h'.stays⟩, ?_, ?_⟩
  · rw [answer_append h.stays, h.session, Outcome.after, h.output, h'.output]
  · rw [sessionAfter, List.foldl_append, ← sessionAfter, ← sessionAfter, h.session, h'.session]

/-- **The outcome of a keypad** that is not stopped: zero, and the answers. -/
theorem exists_runKeypad_eq {mode : Mode} {input : List UInt8}
    (h : Answers (Session.start mode) (splitLines input) output t) :
    ∃ notes, runKeypad mode input = ⟨answerLine "0" ++ output, notes, 0⟩ := by
  refine ⟨(answer (Session.start mode) (splitLines input)).notes, ?_⟩
  rw [runKeypad, Outcome.after, h.output, status_answer h.stays]
  rfl

end Answers

/-! ### Lines that bring a text to a keypad -/

/-- What a typed line makes the loop do. -/
theorem Turn.ofLine_typed (s : Session) (text : String) :
    ofLine s (bytes (":" ++ text)) =
      .proceed (s.setExpression (String.ofList (trimEnd text.toList))) none := by
  have htrim : trim (":" ++ text) = String.ofList (':' :: trimEnd text.toList) :=
    trim_eq (by simp) (by decide)
  rw [ofLine_of_decodeLine? (decodeLine?_bytes _), htrim, ofText]
  simp [isExit]

/-- What a line with one character makes the loop do. -/
theorem Turn.ofLine_singleton {c : Char} (h : isKeypadChar c = true) (s : Session) :
    ofLine s (bytes (String.singleton c)) =
      .proceed (s.setExpression (s.expression.push c)) none := by
  have htrim : trim (String.singleton c) = String.singleton c := by
    rw [trim_eq (String.toList_singleton c) (isBlank_of_isKeypadChar h)]
    rfl
  have hcolon : c ≠ ':' := by
    rintro rfl
    exact absurd h (by decide)
  have hpress : s.press (.input c) = (s.setExpression (s.expression.push c), none) :=
    Session.press_eq_none_iff.mpr (Session.effect_input_eq_ok_iff.mpr ⟨h, rfl⟩)
  rw [ofLine_of_decodeLine? (decodeLine?_bytes _), htrim, ofText]
  simp [isExit, hcolon, Key.ofLabel_singleton h, hpress]

/-- **A typed line** is answered with the text, but for the blanks at its end. -/
theorem answers_typed (s : Session) (text : String) :
    Answers s [bytes (":" ++ text)] (answerLine (String.ofList (trimEnd text.toList)))
      (s.setExpression (String.ofList (trimEnd text.toList))) := by
  have hrow := Answers.proceed (Turn.ofLine_typed s text)
  exact hrow

/-- The answers to characters that are keyed in behind a text: the display after each key. -/
def keyedAnswers (before : String) (cs : List Char) : String :=
  String.join (cs.inits.tail.map fun front => answerLine (before ++ String.ofList front))

/-- The first answer shows one character more, and the others go on from there. -/
theorem keyedAnswers_cons (before : String) (c : Char) (cs : List Char) :
    keyedAnswers before (c :: cs) =
      answerLine (before.push c) ++ keyedAnswers (before.push c) cs := by
  have hpush (front : List Char) : before ++ String.ofList (c :: front) =
      before.push c ++ String.ofList front := String.toList_inj.mp (by simp)
  have hinits : cs.inits = [] :: cs.inits.tail := by cases cs <;> simp
  rw [keyedAnswers, keyedAnswers, List.inits_cons, List.tail_cons, List.map_map, hinits]
  simp only [List.map_cons, List.tail_cons, String.join_cons, Function.comp_def, hpush,
    String.ofList_nil, String.append_empty]

/-- **A line for each key** is answered with the text so far. -/
theorem answers_keys {cs : List Char} (h : ∀ c ∈ cs, isKeypadChar c = true) (s : Session) :
    Answers s (cs.map fun c => bytes (String.singleton c)) (keyedAnswers s.expression cs)
      (s.typeAll cs) := by
  induction cs generalizing s with
  | nil => exact .nil s
  | cons c cs ih =>
      obtain ⟨hc, hcs⟩ := List.forall_mem_cons.mp h
      have hrow := (Answers.proceed (Turn.ofLine_singleton hc s)).append
        (ih hcs (s.setExpression (s.expression.push c)))
      rw [keyedAnswers_cons]
      exact hrow

/-- **The line of the result key** is answered with the value of the expression. -/
theorem answers_equals {s t : Session} {result : Option Float} (hmemory : s.memory = t.memory)
    (hmode : s.mode = t.mode) (hresult : (evaluate s.mode s.expression).toOption = result) :
    Answers s [bytes "="] (answerLine (resultText result)) (t.showResult result) := by
  have hturn : Turn.ofLine s (bytes "=") =
      .proceed (s.press .equals).1 (s.press .equals).2 := by
    rw [Turn.ofLine_of_decodeLine? (decodeLine?_bytes _)]
    rfl
  rw [← Session.display_showResult t, ← Session.showResult_congr hmemory hmode, ← hresult,
    ← Session.press_equals]
  exact .proceed hturn

/-! ### Whole inputs -/

/-- A text as one line that is typed, and the result key. -/
def typedInput (text : String) : List UInt8 :=
  inputOf [":" ++ text, "="]

/-- A text as a line for each of its characters, and the result key. -/
def keyedInput (text : String) : List UInt8 :=
  inputOf (text.toList.map String.singleton ++ ["="])

/-- **A text that is typed** is shown without the blanks at its end, and then its value. -/
theorem answers_typedInput (mode : Mode) {text : String} (hline : '\n' ∉ text.toList)
    (htext : text = "" ∨ ∃ c ∈ text.toList, isBlank c = false) :
    Answers (Session.start mode) (splitLines (typedInput text))
      (answerLine (String.ofList (trimEnd text.toList)) ++
        answerLine (resultText (evaluate mode text).toOption))
      ((Session.start mode).showResult (evaluate mode text).toOption) := by
  have hlines : splitLines (typedInput text) = [bytes (":" ++ text), bytes "="] :=
    splitLines_inputOf (by simpa using hline)
  rw [hlines]
  exact (answers_typed (Session.start mode) text).append
    (answers_equals rfl rfl (toOption_evaluate_trimEnd mode htext))

/-- **A text that is keyed in** is shown as it grows, and then its value. -/
theorem answers_keyedInput (mode : Mode) {text : String}
    (hkeys : ∀ c ∈ text.toList, isKeypadChar c = true) :
    Answers (Session.start mode) (splitLines (keyedInput text))
      (keyedAnswers "" text.toList ++ answerLine (resultText (evaluate mode text).toOption))
      ((Session.start mode).showResult (evaluate mode text).toOption) := by
  have hfeed : '\n' ∉ text.toList := by
    intro hmem
    exact absurd (hkeys _ hmem) (by decide)
  have hlines : splitLines (keyedInput text) =
      (text.toList.map fun c => bytes (String.singleton c)) ++ [bytes "="] := by
    refine (splitLines_inputOf ?_).trans ?_
    · rw [List.forall_mem_append, List.forall_mem_map, List.forall_mem_singleton]
      refine ⟨?_, by decide⟩
      intro c hc hmem
      rw [String.toList_singleton, List.mem_singleton] at hmem
      exact hfeed (hmem ▸ hc)
    · rw [List.map_append, List.map_map]
      rfl
  obtain ⟨hexpression, hmemory, hmode⟩ := (Session.start mode).typeAll_fields text.toList
  have hempty : (Session.start mode).expression = "" := rfl
  rw [hempty, String.empty_append, String.ofList_toList] at hexpression
  rw [hlines]
  exact (answers_keys hkeys (Session.start mode)).append
    (answers_equals hmemory hmode (by rw [hmode, hexpression]; rfl))

/-! ### Both front ends -/

/-- The arguments that ask for a keypad. -/
def keypadArguments (mode : Mode) : List String :=
  "keypad" :: (modeFlags mode).map Flag.long

/-- The arguments that ask for the value of a text, whatever it begins with. -/
def evalArguments (mode : Mode) (text : String) : List String :=
  "eval" :: ((modeFlags mode).map Flag.long ++ ["--", text])

section Readers

variable {read : ArgumentReader} (hread : read.ReadsCommands)

include hread

/-- These arguments start a keypad. -/
theorem run_keypadArguments (mode : Mode) (input : List UInt8) :
    read.run (keypadArguments mode) input = (Invocation.mk (.keypad mode) 0).run input := by
  have hcommand : (⟨"keypad", [strictFlag], []⟩ : Command) ∈ declaration.commands := by decide
  have hrequest (m : Matches) (hname : m.command = "keypad") (hvalues : m.values = [])
      (hmode : m.mode = mode) : Request.ofMatches? m = some (.keypad mode) := by
    rw [Request.ofMatches?, hname, hvalues, hmode]
    rfl
  have hrun := hread.run_eq hcommand mode rfl (.plain (List.forall_mem_nil _)) hrequest input
  rw [List.append_nil] at hrun
  exact hrun

/-- **The outcome of a keypad** that is asked for and not stopped: zero, and the answers. -/
theorem exists_run_eq {mode : Mode} {input : List UInt8} {output : String} {t : Session}
    (h : Answers (Session.start mode) (splitLines input) output t) :
    ∃ notes, read.run (keypadArguments mode) input = ⟨answerLine "0" ++ output, notes, 0⟩ := by
  obtain ⟨notes, hrun⟩ := h.exists_runKeypad_eq
  refine ⟨tellable 0 notes, ?_⟩
  rw [run_keypadArguments hread, Invocation.run, Request.run, hrun]

/-- These arguments ask for the value of the text. -/
theorem run_evalArguments (mode : Mode) (text : String) (input : List UInt8) :
    read.run (evalArguments mode text) input = showValueOf mode text := by
  have hcommand : (⟨"eval", [strictFlag], ["EXPRESSION"]⟩ : Command) ∈ declaration.commands := by
    decide
  have hrequest (m : Matches) (hname : m.command = "eval") (hvalues : m.values = [text])
      (hmode : m.mode = mode) : Request.ofMatches? m = some (.eval mode text) := by
    rw [Request.ofMatches?, hname, hvalues, hmode]
    rfl
  have hlength : [text].length = ["EXPRESSION"].length := rfl
  have hrun := hread.run_eq hcommand mode hlength .literal hrequest input
  refine hrun.trans (Invocation.run_of_level fun note hnote => ?_)
  change note ∈ (showValueOf mode text).notes at hnote
  rw [showValueOf] at hnote
  split at hnote
  · exact nomatch hnote
  · rw [List.mem_singleton.mp hnote]

end Readers

/-- **The two front ends agree**, in either mode, about every text that is one line and is not
made of blanks only. Typed at a keypad and followed by `=`, it is shown without the blanks at
its end; then the display shows the finite value that `eval` prints for the text as it is, or
that there is an error if it has none. A text of keypad characters can as well be keyed in, a
line for each: the display grows with it, and the same is shown in the end by the same
session. This holds with every reader of arguments that reads commands. -/
theorem frontEnds_agree {read : ArgumentReader} (hread : read.ReadsCommands) (mode : Mode)
    {text : String} (hline : '\n' ∉ text.toList)
    (htext : text = "" ∨ ∃ c ∈ text.toList, isBlank c = false) :
    let shown := resultText (evaluate mode text).toOption
    (∀ input, read.run (evalArguments mode text) input = showValueOf mode text) ∧
      (∃ notes, read.run (keypadArguments mode) (typedInput text) =
        ⟨answerLine "0" ++ (answerLine (String.ofList (trimEnd text.toList)) ++
          answerLine shown), notes, 0⟩) ∧
      ((∀ c ∈ text.toList, isKeypadChar c = true) →
        (∃ notes, read.run (keypadArguments mode) (keyedInput text) =
          ⟨answerLine "0" ++ (keyedAnswers "" text.toList ++ answerLine shown), notes, 0⟩) ∧
          sessionAfter (Session.start mode) (splitLines (keyedInput text)) =
            sessionAfter (Session.start mode) (splitLines (typedInput text))) := by
  intro shown
  have htyped := answers_typedInput mode hline htext
  refine ⟨run_evalArguments hread mode text, exists_run_eq hread htyped, ?_⟩
  intro hkeys
  have hkeyed := answers_keyedInput mode hkeys
  rw [hkeyed.session, htyped.session]
  exact ⟨exists_run_eq hread hkeyed, rfl⟩

/-- A text with a blank at its end, in strict mode. -/
theorem frontEnds_agree_blank :
    '\n' ∉ "2 + 3 ".toList ∧ (∃ c ∈ "2 + 3 ".toList, isBlank c = false) ∧
      run ["eval", "--strict", "--", "2 + 3 "] [] = ⟨"5\n", [], 0⟩ ∧
      ∃ notes, run ["keypad", "--strict"] (bytes ":2 + 3 \n=\n") =
        ⟨"0\ncalc> 2 + 3\ncalc> 5\ncalc> ", notes, 0⟩ := by
  have hline : '\n' ∉ "2 + 3 ".toList := by decide
  have htext : ∃ c ∈ "2 + 3 ".toList, isBlank c = false := ⟨'2', by decide, by decide⟩
  obtain ⟨heval, ⟨notes, htyped⟩, -⟩ :=
    frontEnds_agree readArguments_readsCommands .strict hline (.inr htext)
  have hshown : resultText (evaluate .strict "2 + 3 ").toOption = "5" := by decide +kernel
  rw [hshown] at htyped
  exact ⟨hline, htext, (heval []).trans (by decide +kernel), notes, htyped⟩

end CommandLine

end Keypad
