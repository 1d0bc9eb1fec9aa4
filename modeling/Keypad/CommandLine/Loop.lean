import Keypad.CommandLine.Lines
import Keypad.Session
import Keypad.Text.Blank

/-!
# The keypad loop

A keypad driven by lines of text. The display is shown at first, and then each line is
asked for with a prompt and answered:

* a line that is not UTF-8 ends the loop with status 1, and so does the line `exit`, in
  upper or lower case, with status 0; the end of the input ends it with status 0 too;
* a blank line, or a line that names no key, is answered with the next prompt only;
* a line that begins with `:` replaces the expression by the rest of the line, and any
  other line is the label of a key to press; both are answered with the display.

Blanks around a line do not count. A key that cannot do its work is answered like any
other: what went wrong is to be seen on the display after `=` and nowhere else.

## Main definitions

* `Turn.ofLine` — what a line makes the loop do;
* `Outcome` — what a run prints and how it ends;
* `answer` — the outcome of a loop that has just prompted;
* `runKeypad` — the outcome of a whole loop.
-/

namespace Keypad.CommandLine

/-- A sentence for standard error. It is told at its level of verbosity and above. -/
structure Note where
  /-- The least verbosity at which the note is told. -/
  level : Nat
  /-- The sentence. -/
  text : String
  deriving DecidableEq, Repr

/-- What a run leaves behind. -/
structure Outcome where
  /-- The text on standard output. -/
  output : String
  /-- The notes for standard error, in order. -/
  notes : List Note
  /-- The exit status. -/
  status : Nat
  deriving DecidableEq, Repr

/-- The outcome with some output and notes in front. -/
def Outcome.after (output : String) (notes : List Note) (o : Outcome) : Outcome :=
  ⟨output ++ o.output, notes ++ o.notes, o.status⟩

/-! ### One line -/

/-- What a line makes the loop do. -/
inductive Turn
  /-- End with a status. -/
  | leave (status : Nat)
  /-- Ask for the next line. -/
  | ignore
  /-- Ask for the next line, since this one names no key. -/
  | refuse (unknown : UnknownKey)
  /-- Go on with a session and show its display. -/
  | proceed (session : Session) (fault : Option Fault)
  deriving DecidableEq, Repr

/-- Whether a line asks to leave, in upper or lower case. -/
def isExit (line : String) : Bool :=
  line.toList.map Char.toLower == "exit".toList

namespace Turn

/-- What a line without blanks around it makes the loop do. -/
def ofText (s : Session) (line : String) : Turn :=
  if line.isEmpty then .ignore
  else if isExit line then .leave 0
  else match line.toList with
    | ':' :: typed => .proceed (s.setExpression (String.ofList typed)) none
    | _ =>
        match Key.ofLabel line with
        | .error unknown => .refuse unknown
        | .ok key => .proceed (s.press key).1 (s.press key).2

/-- What the bytes of a line make the loop do. -/
def ofLine (s : Session) (line : List UInt8) : Turn :=
  match decodeLine? line with
  | none => .leave 1
  | some text => ofText s (trim text)

/-- What there is to tell about a turn: a label that names no key always, and the fault of
a key on request. -/
def notes : Turn → List Note
  | leave _ | ignore | .proceed _ none => []
  | refuse unknown => [⟨0, unknown.message⟩]
  | .proceed _ (some fault) => [⟨1, fault.message⟩]

end Turn

/-! ### All lines -/

/-- The text that asks for a line. -/
def prompt : String := "calc> "

/-- The display of a session, as a line. -/
def displayLine (s : Session) : String := s.display ++ "\n"

/-- The outcome of a loop that has just prompted, on the lines that follow. -/
def answer (s : Session) : List (List UInt8) → Outcome
  | [] => ⟨"", [], 0⟩
  | line :: lines =>
      let turn := Turn.ofLine s line
      match turn with
      | .leave status => ⟨"", turn.notes, status⟩
      | .ignore | .refuse _ => (answer s lines).after prompt turn.notes
      | .proceed next _ => (answer next lines).after (displayLine next ++ prompt) turn.notes

/-- The outcome of a whole loop on an input. -/
def runKeypad (mode : Mode) (input : List UInt8) : Outcome :=
  (answer (Session.start mode) (splitLines input)).after
    (displayLine (Session.start mode) ++ prompt) []

end Keypad.CommandLine
