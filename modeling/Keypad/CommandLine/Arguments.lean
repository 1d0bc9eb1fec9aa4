import Keypad.CommandLine.Declaration

/-!
# A reader of arguments

A reader for any command line that is declared. Arguments are read from left to right:

* `--name` gives a flag, and so does its letter behind a `-`, where letters can be put together
  as in `-vv`;
* the first argument that is no flag is the name of the command, and the others behind it are
  its values. A value does not begin with `-`, except for `-` alone;
* after `--` every argument is a value;
* `--help`, `-h` and the name `help` ask for help, and `--version` and `-V` in front of the
  command for the version.

A flag that is counted in front of the name and behind it as well has the count behind it.

## Main definitions

* `Progress` — how far the arguments are read;
* `Progress.step` — reading one argument;
* `readArguments` — the reader.
-/

namespace Keypad.CommandLine

/-! ### What there is to show -/

/-- How a command is used. -/
def Command.usage (command : Command) : String :=
  " ".intercalate
    (command.name :: command.flags.map (fun flag => "[" ++ flag.long ++ "]") ++ command.values)

/-- How a program is used. -/
def Declaration.usage (cli : Declaration) : String :=
  "usage: " ++
    " ".intercalate (cli.program :: cli.flags.map fun flag => "[" ++ flag.long ++ "]") ++ " " ++
    " | ".intercalate (cli.commands.map Command.usage) ++ "\n"

/-- The name and the version of a program. -/
def Declaration.title (cli : Declaration) : String :=
  cli.program ++ " " ++ cli.version ++ "\n"

/-! ### Reading -/

/-- How far the arguments are read. -/
structure Progress where
  /-- The command, once its name is read. -/
  command : Option Command
  /-- Whether everything that follows is a value. -/
  literal : Bool
  /-- The names of the flags in front of the command, as often as they were given. -/
  above : List String
  /-- The names of the flags since then, or so far if there is no command yet. -/
  given : List String
  /-- The values, in order. -/
  values : List String

namespace Progress

/-- Nothing is read. -/
def start : Progress :=
  ⟨none, false, [], [], []⟩

variable (cli : Declaration) (p : Progress)

/-- The flags that can be given here. -/
def flags : List Flag :=
  match p.command with
  | none => cli.flags
  | some command => command.flags ++ cli.flags.filter (·.isGlobal)

/-- Gives a flag. -/
def give (flag : Flag) : Except Parsed Progress :=
  match flag.action with
  | .count => .ok { p with given := flag.name :: p.given }
  | .set =>
      if flag.name ∈ p.given then .error (.refused cli.usage)
      else .ok { p with given := flag.name :: p.given }

/-- Gives the flag that was found. -/
def giveFound : Option Flag → Except Parsed Progress
  | some flag => p.give cli flag
  | none => .error (.refused cli.usage)

/-- Reads the long form of a flag. -/
def readLong (name : String) : Except Parsed Progress :=
  if name = "help" then .error (.shown cli.usage)
  else if name = "version" ∧ p.command.isNone then .error (.shown cli.title)
  else p.giveFound cli ((p.flags cli).find? fun flag => flag.name = name)

/-- Reads the letter of a flag. -/
def readShort (c : Char) : Except Parsed Progress :=
  if c = 'h' then .error (.shown cli.usage)
  else if c = 'V' ∧ p.command.isNone then .error (.shown cli.title)
  else p.giveFound cli ((p.flags cli).find? fun flag => flag.short = some c)

/-- Reads the name of the command, or one of its values. -/
def readValue (text : String) : Except Parsed Progress :=
  match p.command with
  | some command =>
      if p.values.length < command.values.length then .ok { p with values := p.values ++ [text] }
      else .error (.refused cli.usage)
  | none =>
      if p.literal then .error (.refused cli.usage)
      else if text = "help" then .error (.shown cli.usage)
      else match cli.commands.find? (fun command => command.name = text) with
        | some command => .ok { p with command := some command, above := p.given, given := [] }
        | none => .error (.refused cli.usage)

/-- Reads one argument. -/
def step (arg : String) : Except Parsed Progress :=
  if p.literal then p.readValue cli arg
  else match arg.toList with
    | ['-', '-'] => .ok { p with literal := true }
    | '-' :: '-' :: name => p.readLong cli (String.ofList name)
    | '-' :: c :: cs => (c :: cs).foldlM (readShort cli) p
    | _ => p.readValue cli arg

/-- How often a flag was given where it counts. -/
def count (name : String) : Nat :=
  if name ∈ p.given then p.given.count name else p.above.count name

/-- What the arguments were, when all of them are read. -/
def finish : Parsed :=
  match p.command with
  | none => .refused cli.usage
  | some command =>
      if p.values.length = command.values.length then
        .accepted {
          command := command.name
          values := p.values
          isSet := fun name => name ∈ p.given || name ∈ p.above
          count := fun name => min (p.count name) 255 }
      else .refused cli.usage

/-- What is reported in the end, unless a report has ended the reading before. -/
def report : Except Parsed Progress → Parsed
  | .ok p => p.finish cli
  | .error report => report

end Progress

/-- The reader of arguments. -/
def readArguments : ArgumentReader := fun cli args =>
  Progress.report cli (args.foldlM (Progress.step cli) Progress.start)

end Keypad.CommandLine
