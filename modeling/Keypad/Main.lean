import Keypad.CommandLine.Run

/-!
# The program

The outermost layer: it reads standard input, prints, and leaves every decision to
`Keypad.CommandLine`. A keypad is driven line by line, so that a prompt is printed before
its line is read; what each line does is decided by `Turn.ofLine`, as in `runKeypad`.
-/

namespace Keypad.CommandLine

/-- Tells the notes that the verbosity asks for. -/
def tell (verbosity : Nat) (notes : List Note) : IO Unit :=
  (tellable verbosity notes).forM fun note => IO.eprintln note.text

/-- Prints at once, without waiting for the end of a line. -/
def printNow (text : String) : IO Unit := do
  IO.print text
  (← IO.getStdout).flush

/-- The next line of the input, or nothing at its end. -/
partial def readLine (input : IO.FS.Stream) (line : ByteArray) : IO (Option (List UInt8)) := do
  let chunk ← input.read 1
  match chunk.toList with
  | [] => return if line.isEmpty then none else some line.toList
  | byte :: _ =>
      if byte = lineFeed then return some line.toList
      else readLine input (line.push byte)

/-- Answers the lines of the input one by one. -/
partial def converse (input : IO.FS.Stream) (verbosity : Nat) (s : Session) : IO Nat := do
  printNow prompt
  match ← readLine input ByteArray.empty with
  | none => return 0
  | some line =>
      let turn := Turn.ofLine s line
      tell verbosity turn.notes
      match turn with
      | .leave status => return status
      | .ignore | .refuse _ => converse input verbosity s
      | .proceed next _ =>
          printNow (displayLine next)
          converse input verbosity next

/-- The keypad that the arguments ask for, with its verbosity, if they do. -/
def keypad? (args : List String) : Option (Mode × Nat) :=
  match readArguments declaration args with
  | .accepted m =>
      match Invocation.ofMatches? m with
      | some ⟨.keypad mode, verbosity⟩ => some (mode, verbosity)
      | _ => none
  | _ => none

/-- Runs what the arguments ask for, and returns the exit status. -/
def start (args : List String) : IO Nat := do
  match keypad? args with
  | some (mode, verbosity) =>
      let session := Session.start mode
      printNow (displayLine session)
      converse (← IO.getStdin) verbosity session
  | none =>
      let outcome := run args []
      printNow outcome.output
      outcome.notes.forM fun note => IO.eprintln note.text
      return outcome.status

end Keypad.CommandLine

/-- The program. -/
def main (args : List String) : IO UInt32 := do
  return (← Keypad.CommandLine.start args).toUInt32
