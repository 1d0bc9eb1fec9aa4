import Keypad.CommandLine.Loop
import Keypad.Proofs.CommandLine.Lines

/-!
# The keypad loop in pieces

A loop that has answered some lines is a loop that has just prompted, with another session: what
it prints for the lines that follow depends on that session and on nothing else. So an input can
come in pieces, and the output for a first piece is the beginning of the output for the whole.

Two kinds of line **stop** the loop, one that is no text and one that says `exit`. What follows
them is never looked at.

## Main definitions

* `stops`: the line ends the loop.
* `sessionAfter`: the session that the loop has after some lines.

## Main results

* `answer_cons`: what one line adds to the output, if it does not stop the loop.
* `answer_append`: what a row of such lines adds.
* `answer_of_stops`: a line that stops the loop ends the output.
* `runKeypad_append`: **an input in two pieces**.
-/

namespace Keypad.CommandLine

namespace Outcome

/-- Output in front of output, and notes in front of notes. -/
theorem after_after (o : Outcome) (first second : String) (notes more : List Note) :
    (o.after second more).after first notes = o.after (first ++ second) (notes ++ more) := by
  rw [after, after, after, String.append_assoc, List.append_assoc]

end Outcome

/-! ### Lines that stop the loop -/

/-- The line ends the loop: it is no text, or it says `exit`. -/
def stops (line : List UInt8) : Bool :=
  match decodeLine? line with
  | none => true
  | some text => isExit (trim text)

section Decoded

variable {line : List UInt8} {text : String}

/-- Whether a line of text stops the loop. -/
theorem stops_of_decodeLine? (h : decodeLine? line = some text) :
    stops line = isExit (trim text) := by
  rw [stops, h]

/-- What a line of text makes the loop do. -/
theorem Turn.ofLine_of_decodeLine? (h : decodeLine? line = some text) (s : Session) :
    ofLine s line = ofText s (trim text) := by
  rw [ofLine, h]

end Decoded

/-- A line that stops the loop does so with status 1 if it is no text, and with status 0 if it
says `exit`. -/
theorem Turn.ofLine_of_stops {line : List UInt8} (h : stops line = true) (s : Session) :
    ofLine s line = .leave (if decodeLine? line = none then 1 else 0) := by
  cases hdecode : decodeLine? line with
  | none =>
      rw [ofLine, hdecode]
      rfl
  | some text =>
      rw [stops_of_decodeLine? hdecode] at h
      have hne : ¬ (trim text).isEmpty = true := by
        intro hempty
        rw [String.isEmpty_iff.mp hempty] at h
        exact absurd h (by decide)
      rw [ofLine_of_decodeLine? hdecode, ofText, if_neg hne, if_pos h,
        if_neg (Option.some_ne_none text)]

/-- No other line makes the loop leave. -/
theorem Turn.ofLine_ne_leave {line : List UInt8} (h : stops line = false) (s : Session)
    (status : Nat) : ofLine s line ≠ .leave status := by
  cases hdecode : decodeLine? line with
  | none =>
      rw [stops, hdecode] at h
      exact nomatch h
  | some text =>
      rw [stops_of_decodeLine? hdecode] at h
      rw [ofLine_of_decodeLine? hdecode, ofText, if_neg (Bool.eq_false_iff.mp h)]
      split
      · exact nofun
      · split
        · exact nofun
        · split
          · exact nofun
          · exact nofun

/-! ### One line -/

/-- What a turn prints: the prompt for the next line, after the display if the turn worked on
the session. -/
def Turn.output : Turn → String
  | leave _ => ""
  | ignore | refuse _ => prompt
  | proceed next _ => displayLine next ++ prompt

/-- The session after a turn. -/
def Turn.session (s : Session) : Turn → Session
  | leave _ | ignore | refuse _ => s
  | proceed next _ => next

/-- The session after some lines. -/
def sessionAfter (s : Session) (lines : List (List UInt8)) : Session :=
  lines.foldl (fun s line => (Turn.ofLine s line).session s) s

/-- **What one line adds to the output**, if it does not stop the loop. -/
theorem answer_cons {line : List UInt8} (h : stops line = false) (s : Session)
    (lines : List (List UInt8)) :
    answer s (line :: lines) = (answer (sessionAfter s [line]) lines).after
      (Turn.ofLine s line).output (Turn.ofLine s line).notes := by
  have hstay := Turn.ofLine_ne_leave h s
  rw [answer, sessionAfter, List.foldl_cons, List.foldl_nil]
  cases hturn : Turn.ofLine s line with
  | leave status => exact absurd hturn (hstay status)
  | ignore => rfl
  | refuse unknown => rfl
  | proceed next fault => rfl

/-- **A line that stops the loop ends the output**, whatever follows it. -/
theorem answer_of_stops {line : List UInt8} (h : stops line = true) (s : Session)
    (lines : List (List UInt8)) :
    answer s (line :: lines) = ⟨"", [], if decodeLine? line = none then 1 else 0⟩ := by
  rw [answer, Turn.ofLine_of_stops h s]
  rfl

/-! ### Rows of lines -/

/-- **What a row of lines adds to the output**, if none of them stops the loop: the output for
these lines alone. The loop goes on from the session after them. -/
theorem answer_append {lines : List (List UInt8)} (h : ∀ line ∈ lines, stops line = false)
    (s : Session) (more : List (List UInt8)) :
    answer s (lines ++ more) = (answer (sessionAfter s lines) more).after
      (answer s lines).output (answer s lines).notes := by
  induction lines generalizing s with
  | nil => simp [answer, Outcome.after, sessionAfter]
  | cons line lines ih =>
      obtain ⟨hline, hlines⟩ := List.forall_mem_cons.mp h
      rw [List.cons_append, answer_cons hline, answer_cons hline, ih hlines,
        Outcome.after_after]
      rfl

/-- A loop that is not stopped ends with status 0. -/
theorem status_answer {lines : List (List UInt8)} (h : ∀ line ∈ lines, stops line = false)
    (s : Session) : (answer s lines).status = 0 := by
  induction lines generalizing s with
  | nil => rfl
  | cons line lines ih =>
      obtain ⟨hline, hlines⟩ := List.forall_mem_cons.mp h
      rw [answer_cons hline]
      exact ih hlines _

/-- What follows the first line that stops the loop is never looked at, and that line gives the
status. -/
theorem answer_append_of_stops {lines : List (List UInt8)} {line : List UInt8}
    (h : lines.find? stops = some line) (s : Session) (more : List (List UInt8)) :
    answer s (lines ++ more) = answer s lines ∧
      (answer s lines).status = if decodeLine? line = none then 1 else 0 := by
  obtain ⟨hline, before, after, rfl, hbefore⟩ := List.find?_eq_some_iff_append.mp h
  have hstay : ∀ l ∈ before, stops l = false := by
    intro l hl
    exact Bool.not_eq_true' _ ▸ hbefore l hl
  rw [List.append_assoc, List.cons_append, answer_append hstay, answer_append hstay,
    answer_of_stops hline, answer_of_stops hline]
  exact ⟨rfl, rfl⟩

/-! ### Lines without an effect -/

/-- A label that names no key: it does not say `exit`, nor does it begin with the `:` of a text
to type. -/
structure NamesNoKey (label : String) : Prop where
  stays : isExit label = false
  notTyped : ∀ typed, label.toList ≠ ':' :: typed
  unknown : ∃ u, Key.ofLabel label = .error u

/-- **A blank line, or one that names no key, is answered with a prompt** and leaves the session
as it was. -/
theorem answer_of_blank_or_unknown {line : List UInt8} {text : String}
    (hdecode : decodeLine? line = some text) (h : trim text = "" ∨ NamesNoKey (trim text))
    (s : Session) (lines : List (List UInt8)) :
    (answer s (line :: lines)).output = prompt ++ (answer s lines).output ∧
      (answer s (line :: lines)).status = (answer s lines).status ∧
      sessionAfter s (line :: lines) = sessionAfter s lines := by
  have hturn : Turn.ofLine s line = .ignore ∨ ∃ u, Turn.ofLine s line = .refuse u := by
    rw [Turn.ofLine_of_decodeLine? hdecode, Turn.ofText]
    rcases h with hblank | ⟨hstays, htyped, u, hu⟩
    · rw [hblank]
      exact .inl rfl
    · split
      · exact .inl rfl
      · rw [if_neg (Bool.eq_false_iff.mp hstays)]
        split
        · next typed hline => exact absurd hline (htyped typed)
        · rw [hu]
          exact .inr ⟨u, rfl⟩
  have hsession : sessionAfter s (line :: lines) =
      sessionAfter ((Turn.ofLine s line).session s) lines := rfl
  rw [hsession, answer]
  rcases hturn with hturn | ⟨u, hturn⟩
  · rw [hturn]
    exact ⟨rfl, rfl, rfl⟩
  · rw [hturn]
    exact ⟨rfl, rfl, rfl⟩

/-! ### Inputs in pieces -/

/-- **An input in two pieces**, of which the first is empty or ends with a line feed, in either
mode. If a line of the first piece stops the loop, the second piece changes neither output nor
status; the status is 1 if the first line that stops the loop is no text, and 0 if it says
`exit`. Otherwise the first piece alone ends with status 0, and behind its output stands what
the loop prints for the second piece after a prompt, from the session that the first piece
leaves. Blank lines and lines that name no key add one prompt, and no more. -/
theorem runKeypad_append (mode : Mode) {a : List UInt8}
    (ha : a = [] ∨ a.getLast? = some lineFeed) (b : List UInt8) :
    (∀ line, (splitLines a).find? stops = some line →
      (runKeypad mode (a ++ b)).output = (runKeypad mode a).output ∧
        (runKeypad mode (a ++ b)).status = (runKeypad mode a).status ∧
        (runKeypad mode a).status = if decodeLine? line = none then 1 else 0) ∧
      ((splitLines a).find? stops = none →
        let s := sessionAfter (Session.start mode) (splitLines a)
        (runKeypad mode a).status = 0 ∧
          (runKeypad mode (a ++ b)).output =
            (runKeypad mode a).output ++ (answer s (splitLines b)).output ∧
          (runKeypad mode (a ++ b)).status = (answer s (splitLines b)).status) ∧
      ∀ s line text lines, decodeLine? line = some text →
        trim text = "" ∨ NamesNoKey (trim text) →
        (answer s (line :: lines)).output = prompt ++ (answer s lines).output ∧
          (answer s (line :: lines)).status = (answer s lines).status ∧
          sessionAfter s (line :: lines) = sessionAfter s lines := by
  refine ⟨?_, ?_, ?_⟩
  · intro line hline
    obtain ⟨hsame, hstatus⟩ := answer_append_of_stops hline (Session.start mode) (splitLines b)
    rw [runKeypad, runKeypad, splitLines_append ha, hsame]
    exact ⟨rfl, rfl, hstatus⟩
  · intro hnone s
    have hstay : ∀ line ∈ splitLines a, stops line = false := by
      intro line hline
      exact Bool.eq_false_iff.mpr (List.find?_eq_none.mp hnone line hline)
    rw [runKeypad, runKeypad, splitLines_append ha, answer_append hstay, Outcome.after_after]
    refine ⟨status_answer hstay _, ?_, rfl⟩
    rw [Outcome.after, Outcome.after]
  · intro s line text lines hdecode h
    exact answer_of_blank_or_unknown hdecode h s lines

/-- A key, a blank line and a label that names no key, and then another key. Behind the first
piece stands the display for the second, which goes on from the expression of the first. -/
theorem runKeypad_append_blank :
    (bytes "7\n \nlog\n").getLast? = some lineFeed ∧
      (runKeypad .strict (bytes "7\n \nlog\n" ++ bytes "+\n")).output =
        "0\ncalc> 7\ncalc> calc> calc> 7+\ncalc> " := by
  have hlast : (bytes "7\n \nlog\n").getLast? = some lineFeed := by decide +kernel
  obtain ⟨-, hgo, -⟩ := runKeypad_append .strict (.inr hlast) (bytes "+\n")
  obtain ⟨-, houtput, -⟩ := hgo (by decide +kernel)
  exact ⟨hlast, houtput.trans (by decide +kernel)⟩

end Keypad.CommandLine
