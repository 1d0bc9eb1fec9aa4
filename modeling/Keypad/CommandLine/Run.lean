import Keypad.CommandLine.Arguments
import Keypad.CommandLine.Loop

/-!
# Running a request

What the program prints and how it ends, as a function of its arguments and its input. The
status is 0 for a run that came to its end, 1 for one that met a fault, and 2 for wrong
usage, which prints nothing. The verbosity selects the notes that are told on standard error.

The arguments are read by any reader of arguments; `run` has one of its own.

## Main definitions

* `listItems` — the listing of tokens, as far as they are read;
* `Request.run` — the outcome of a request;
* `ArgumentReader.run` — the outcome of a command line, `run` — with the library's reader.
-/

namespace Keypad.CommandLine

/-- The outcome of a run that ends with a fault. -/
def Outcome.ofFault (fault : Fault) : Outcome :=
  ⟨"", [⟨0, fault.message⟩], 1⟩

/-- The listing of items, a line for each token. **It is printed as it is read**, so the
tokens before a fault are listed. -/
def listItems : List Item → Outcome
  | [] => ⟨"", [], 0⟩
  | .ok token :: rest => (listItems rest).after (token.listing ++ "\n") []
  | .error fault :: _ => .ofFault fault

/-- The outcome of showing the value of a text, which may be infinite or not a number. -/
def showValueOf (mode : Mode) (text : String) : Outcome :=
  match evaluate mode text with
  | .ok x => ⟨display x ++ "\n", [], 0⟩
  | .error fault => .ofFault fault

/-- The outcome of a request. Only a keypad reads the input. -/
def Request.run (input : List UInt8) : Request → Outcome
  | .tokenize mode text => listItems (Lexer.ofText mode text).items
  | .eval mode text => showValueOf mode text
  | .keypad mode => runKeypad mode input

/-- The notes that are told at a level of verbosity. -/
def tellable (verbosity : Nat) (notes : List Note) : List Note :=
  notes.filter (·.level ≤ verbosity)

/-- The outcome of a request with its verbosity, which selects what is told. -/
def Invocation.run (input : List UInt8) (i : Invocation) : Outcome :=
  let outcome := i.request.run input
  { outcome with notes := tellable i.verbosity outcome.notes }

/-- The outcome of wrong usage. -/
def Outcome.ofWrongUsage (message : String) : Outcome :=
  ⟨"", [⟨0, message⟩], 2⟩

/-- The outcome of what a reader of arguments reports. -/
def Parsed.run (input : List UInt8) : Parsed → Outcome
  | .shown text => ⟨text, [], 0⟩
  | .refused message => .ofWrongUsage message
  | .accepted m =>
      match Invocation.ofMatches? m with
      | some invocation => invocation.run input
      | none => .ofWrongUsage "no such command"

/-- The outcome of a command line: its arguments, which are read by `read`, and its standard
input. -/
def ArgumentReader.run (read : ArgumentReader) (args : List String) (input : List UInt8) :
    Outcome :=
  (read declaration args).run input

/-- The outcome of a command line, with the reader of the library. -/
def run (args : List String) (input : List UInt8) : Outcome :=
  readArguments.run args input

end Keypad.CommandLine
