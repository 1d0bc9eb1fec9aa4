import Keypad.Token.Basic

/-!
# What the command line declares

The command line is declared: which commands there are, which flags, and which values have to
be given. How arguments are matched with such a declaration, and what is said about arguments
that do not match it, is left to a **reader of arguments**. The program takes the reader as it
is, and looks at what it reports only.

The program has the commands `tokenize`, `eval` and `keypad`. With `--strict` a command reads
strictly. The flag `-v`, or `--verbose`, raises the verbosity each time it is given, and is
global: it can be given in front of a command's name and behind it.

## Main definitions

* `Declaration` — a command line, `declaration` — the one of the program;
* `Parsed` — what a reader of arguments can report;
* `ArgumentReader` — a reader of arguments;
* `Invocation.ofMatches?` — what is asked of the program.
-/

namespace Keypad.CommandLine

/-! ### Declarations -/

/-- What is done about a flag that is given. -/
inductive FlagAction
  /-- It is set, and can be given once. -/
  | set
  /-- It is counted, as far as the counter goes. -/
  | count
  deriving DecidableEq, Repr

/-- A flag, which has no value. -/
structure Flag where
  /-- The name, as in `--name`. -/
  name : String
  /-- A letter for the flag, as in `-c`, if it has one. -/
  short : Option Char
  /-- What is done about the flag. -/
  action : FlagAction
  /-- Whether a flag that is declared for all commands can be given behind their names too. -/
  isGlobal : Bool
  deriving DecidableEq, Repr

/-- The long form of a flag. -/
def Flag.long (flag : Flag) : String := "--" ++ flag.name

/-- A command. -/
structure Command where
  /-- The name, which selects the command. -/
  name : String
  /-- The flags that can be given behind the name. -/
  flags : List Flag
  /-- What the values are called. All of them have to be given. -/
  values : List String
  deriving DecidableEq, Repr

/-- A command line. One of its commands has to be given. -/
structure Declaration where
  /-- The name of the program. -/
  program : String
  /-- The version of the program. -/
  version : String
  /-- The flags that can be given in front of a command. -/
  flags : List Flag
  /-- The commands. -/
  commands : List Command
  deriving DecidableEq, Repr

/-- The flag that raises the verbosity. -/
def verboseFlag : Flag := ⟨"verbose", some 'v', .count, true⟩

/-- The flag that selects strict reading. -/
def strictFlag : Flag := ⟨"strict", none, .set, false⟩

/-- The command line of the program. -/
def declaration : Declaration where
  program := "calcpad"
  version := "0.1.0"
  flags := [verboseFlag]
  commands := [
    ⟨"tokenize", [strictFlag], ["EXPRESSION"]⟩,
    ⟨"eval", [strictFlag], ["EXPRESSION"]⟩,
    ⟨"keypad", [strictFlag], []⟩]

/-! ### Readers -/

/-- What arguments were matched with. -/
structure Matches where
  /-- The name of the command. -/
  command : String
  /-- The values of the command, in order. -/
  values : List String
  /-- Whether the flag with this name was set. -/
  isSet : String → Bool
  /-- How often the flag with this name was counted. -/
  count : String → Nat

/-- What a reader of arguments reports. -/
inductive Parsed
  /-- The arguments are a use of the command line. -/
  | accepted (m : Matches)
  /-- The arguments ask for help or for the version, and this is the text. -/
  | shown (text : String)
  /-- The arguments are wrong usage, and this is to be said about it. -/
  | refused (message : String)

/-- A reader of arguments. -/
abbrev ArgumentReader := Declaration → List String → Parsed

/-! ### Requests -/

/-- What is asked of the program. -/
inductive Request
  /-- List the tokens of a text. -/
  | tokenize (mode : Mode) (text : String)
  /-- Show the value of a text. -/
  | eval (mode : Mode) (text : String)
  /-- Run a keypad on standard input. -/
  | keypad (mode : Mode)
  deriving DecidableEq, Repr

/-- A request, and how much is to be told about the work on it. -/
structure Invocation where
  /-- What is asked for. -/
  request : Request
  /-- How much is to be told about the work, on standard error only. -/
  verbosity : Nat
  deriving DecidableEq, Repr

/-- The mode that was selected. -/
def Matches.mode (m : Matches) : Mode :=
  if m.isSet strictFlag.name then .strict else .permissive

/-- The request that was matched, if there is such a command with so many values. -/
def Request.ofMatches? (m : Matches) : Option Request :=
  match m.command, m.values with
  | "tokenize", [text] => some (.tokenize m.mode text)
  | "eval", [text] => some (.eval m.mode text)
  | "keypad", [] => some (.keypad m.mode)
  | _, _ => none

/-- What was matched, with its verbosity. -/
def Invocation.ofMatches? (m : Matches) : Option Invocation :=
  (Request.ofMatches? m).map fun request => ⟨request, m.count verboseFlag.name⟩

end Keypad.CommandLine
