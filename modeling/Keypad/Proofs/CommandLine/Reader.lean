import Keypad.CommandLine.Run

/-!
# What is relied on about a reader of arguments

The program leaves its arguments to a reader, so a statement about whole command lines holds
for every reader that keeps some rules. The rules are about all command lines that are declared
well, and mention neither this program nor what it does:

* the name of a command, its flags and its values are accepted as what they are;
* a flag that is counted can be given once more in front of everything, and only its own count
  shows it. The counter stops where it is full, so that it is never too often;
* a flag that is counted and global can be given at another level just as well, and between
  values: it does not matter at which place in front of `--` it is given.

Nothing is relied on about the texts that are shown or said about wrong usage, nor about how the
counts at several levels are put together.

## Main definitions

* `Declaration.WellFormed`: the command lines that the rules are about.
* `ArgumentReader.ReadsCommands`, `ArgumentReader.CountsFlags`,
  `ArgumentReader.KnowsGlobalFlags`: the rules.

## Main results

* `declaration_wellFormed`: the command line of the program is one of them.
* `ArgumentReader.alikeBut_insert`: a global flag that is counted can be inserted.
* `ArgumentReader.ReadsCommands.run_eq`: which arguments make which request.
-/

namespace Keypad.CommandLine

/-! ### Command lines that are declared well -/

/-- A name of letters and digits. -/
def IsPlainName (name : String) : Prop :=
  name.toList ≠ [] ∧ name.toList.all Char.isAlphanum = true

instance (name : String) : Decidable (IsPlainName name) :=
  inferInstanceAs (Decidable (_ ∧ _))

/-- Two flags differ in their names, and in their letters if they have some. -/
def Flag.Apart (f g : Flag) : Prop :=
  f.name ≠ g.name ∧ (f.short = none ∨ f.short ≠ g.short)

instance (f g : Flag) : Decidable (f.Apart g) :=
  inferInstanceAs (Decidable (_ ∧ _))

/-- A flag that is not mistaken for a value, for `--` or for a question. -/
structure Flag.IsPlain (flag : Flag) : Prop where
  name : IsPlainName flag.name
  name_ne : flag.name ≠ "help" ∧ flag.name ≠ "version"
  short : ∀ c ∈ flag.short, c.isAlphanum = true ∧ c ≠ 'h' ∧ c ≠ 'V'

/-- Commands and flags can be told apart, and from everything else on a command line. -/
structure Declaration.WellFormed (cli : Declaration) : Prop where
  commands_ne_nil : cli.commands ≠ []
  commands : (cli.commands.map (·.name)).Nodup
  command : ∀ command ∈ cli.commands, IsPlainName command.name ∧ command.name ≠ "help"
  flags : ∀ command ∈ cli.commands, (cli.flags ++ command.flags).Pairwise Flag.Apart
  flag : ∀ command ∈ cli.commands, ∀ flag ∈ cli.flags ++ command.flags, flag.IsPlain

/-- **The command line of the program is declared well.** -/
theorem declaration_wellFormed : declaration.WellFormed where
  commands_ne_nil := by decide
  commands := by decide
  command := by decide
  flags := by decide
  flag := by
    have hverbose : verboseFlag.IsPlain := by
      refine ⟨⟨by decide, by decide⟩, by decide, ?_⟩
      rintro c ⟨⟩
      decide
    have hstrict : strictFlag.IsPlain :=
      ⟨⟨by decide, by decide⟩, by decide, nofun⟩
    have hflags : ∀ flag ∈ [verboseFlag, strictFlag], flag.IsPlain := by
      simp only [List.forall_mem_cons]
      exact ⟨hverbose, hstrict, List.forall_mem_nil _⟩
    simp only [declaration, List.forall_mem_cons]
    exact ⟨hflags, hflags, hflags, List.forall_mem_nil _⟩

/-! ### Commands, flags and values -/

/-- The text is taken for an option: it begins with `-`, and more follows. -/
def LooksLikeOption (text : String) : Prop :=
  ∃ c cs, text.toList = '-' :: c :: cs

/-- The two ways to give values. -/
inductive ValuesGivenBy (values : List String) : List String → Prop
  /-- Values that do not look like options are given as they are. -/
  | plain : (∀ text ∈ values, ¬ LooksLikeOption text) → ValuesGivenBy values values
  /-- All values can be given behind `--`. -/
  | literal : ValuesGivenBy values ("--" :: values)

/-- **A use of a command is accepted**: its name, some of its flags in their long form and all
of its values. What was given is set, and what was not given is not. -/
structure ArgumentReader.ReadsCommands (read : ArgumentReader) : Prop where
  accepts {cli : Declaration} {command : Command} {flags : List Flag}
    {values args : List String} :
    cli.WellFormed → command ∈ cli.commands → flags.Sublist command.flags →
    (∀ flag ∈ flags, flag.action = .set) → values.length = command.values.length →
    ValuesGivenBy values args →
    ∃ m, read cli (command.name :: (flags.map Flag.long ++ args)) = .accepted m ∧
      m.command = command.name ∧ m.values = values ∧
      (∀ flag ∈ command.flags, flag.action = .set →
        (m.isSet flag.name = true ↔ flag ∈ flags)) ∧
      ∀ flag ∈ cli.flags, flag.action = .count → m.count flag.name = 0

/-! ### Flags that are counted -/

/-- The ways to give a flag: its long form, or its letter, which can be repeated. -/
def Flag.GivenBy (flag : Flag) (arg : String) : Prop :=
  arg = flag.long ∨ ∃ c n, flag.short = some c ∧ arg.toList = '-' :: List.replicate (n + 1) c

namespace Parsed

/-- The report is a text to be shown, since help or the version was asked for. -/
def IsShown : Parsed → Prop
  | shown _ => True
  | accepted _ | refused _ => False

/-- Both reports accept the same but for the count of one flag, or both refuse. -/
inductive AlikeBut (name : String) : Parsed → Parsed → Prop
  | accepted {m m' : Matches} :
      m.command = m'.command → m.values = m'.values →
      (∀ other, other ≠ name → m.isSet other = m'.isSet other) →
      (∀ other, other ≠ name → m.count other = m'.count other) →
      AlikeBut name (.accepted m) (.accepted m')
  | refused (message message' : String) : AlikeBut name (.refused message) (.refused message')

variable {name : String} {p q r : Parsed}

/-- Nothing is shown. -/
theorem AlikeBut.not_isShown (h : p.AlikeBut name q) : ¬ q.IsShown := by
  cases h with
  | accepted => exact id
  | refused => exact id

/-- Reports that agree, agree with the same. -/
theorem AlikeBut.trans (h : p.AlikeBut name q) (h' : q.AlikeBut name r) : p.AlikeBut name r := by
  cases h with
  | accepted hcommand hvalues hset hcount =>
      cases h' with
      | accepted hcommand' hvalues' hset' hcount' =>
          exact .accepted (hcommand.trans hcommand') (hvalues.trans hvalues')
            (fun other hother => (hset other hother).trans (hset' other hother))
            (fun other hother => (hcount other hother).trans (hcount' other hother))
  | refused message =>
      cases h' with
      | refused _ message' => exact .refused message message'

/-- Agreement goes both ways. -/
theorem AlikeBut.symm (h : p.AlikeBut name q) : q.AlikeBut name p := by
  cases h with
  | accepted hcommand hvalues hset hcount =>
      exact .accepted hcommand.symm hvalues.symm (fun other hother => (hset other hother).symm)
        fun other hother => (hcount other hother).symm
  | refused message message' => exact .refused message' message

/-- A report that shows nothing agrees with itself. -/
theorem AlikeBut.refl (h : ¬ p.IsShown) : p.AlikeBut name p := by
  cases p with
  | accepted m => exact .accepted rfl rfl (fun _ _ => rfl) (fun _ _ => rfl)
  | shown text => exact absurd trivial h
  | refused message => exact .refused message message

end Parsed

namespace ArgumentReader

/-- **A flag that is counted can be given once more**, in front of everything. It counts at
that level, and nothing else is changed by it. -/
structure CountsFlags (read : ArgumentReader) : Prop where
  ahead {cli : Declaration} {flag : Flag} {arg : String} {args : List String} :
    cli.WellFormed → flag ∈ cli.flags → flag.action = .count → flag.GivenBy arg →
    ¬ (read cli args).IsShown → (read cli args).AlikeBut flag.name (read cli (arg :: args))

/-- **A global flag can be given at any level**, and between the values of a command. -/
structure KnowsGlobalFlags (read : ArgumentReader) : Prop where
  anywhere {cli : Declaration} {flag : Flag} {arg : String} {before after : List String} :
    cli.WellFormed → flag ∈ cli.flags → flag.action = .count → flag.isGlobal = true →
    flag.GivenBy arg → "--" ∉ before → ¬ (read cli (before ++ after)).IsShown →
    (read cli (arg :: (before ++ after))).AlikeBut flag.name
      (read cli (before ++ arg :: after))

variable {read : ArgumentReader}

/-- **A global flag that is counted can be inserted**, wherever flags are accepted. -/
theorem alikeBut_insert (hcounts : read.CountsFlags) (hglobals : read.KnowsGlobalFlags)
    {cli : Declaration} {flag : Flag} {arg : String} {before after : List String}
    (hcli : cli.WellFormed) (hflag : flag ∈ cli.flags) (hcount : flag.action = .count)
    (hglobal : flag.isGlobal = true) (harg : flag.GivenBy arg) (hbefore : "--" ∉ before)
    (hshown : ¬ (read cli (before ++ after)).IsShown) :
    (read cli (before ++ after)).AlikeBut flag.name (read cli (before ++ arg :: after)) :=
  (hcounts.ahead hcli hflag hcount harg hshown).trans
    (hglobals.anywhere hcli hflag hcount hglobal harg hbefore hshown)

end ArgumentReader

/-! ### The commands of the program -/

/-- The flags for a mode. -/
def modeFlags : Mode → List Flag
  | .permissive => []
  | .strict => [strictFlag]

/-- What every verbosity selects is told. -/
theorem Invocation.run_of_level {i : Invocation} {input : List UInt8}
    (h : ∀ note ∈ (i.request.run input).notes, note.level = 0) :
    i.run input = i.request.run input := by
  have htold : tellable i.verbosity (i.request.run input).notes = (i.request.run input).notes := by
    rw [tellable, List.filter_eq_self]
    intro note hnote
    rw [h note hnote]
    exact decide_eq_true (Nat.zero_le _)
  rw [Invocation.run, htold]

/-- **Which arguments make which request**: a command of the program, in a mode, with its
values. -/
theorem ArgumentReader.ReadsCommands.run_eq {read : ArgumentReader} (h : read.ReadsCommands)
    {command : Command} (hcommand : command ∈ declaration.commands) (mode : Mode)
    {values args : List String} (hvalues : values.length = command.values.length)
    (hargs : ValuesGivenBy values args) {request : Request}
    (hrequest : ∀ m : Matches, m.command = command.name → m.values = values → m.mode = mode →
      Request.ofMatches? m = some request) (input : List UInt8) :
    read.run (command.name :: ((modeFlags mode).map Flag.long ++ args)) input =
      (Invocation.mk request 0).run input := by
  have hall : ∀ command ∈ declaration.commands, command.flags = [strictFlag] := by decide
  have hflags := hall command hcommand
  have hsublist : (modeFlags mode).Sublist command.flags := by
    rw [hflags]
    cases mode with
    | permissive => exact List.nil_sublist _
    | strict => exact List.Sublist.refl _
  have haction : ∀ flag ∈ modeFlags mode, flag.action = .set := by
    cases mode with
    | permissive => exact List.forall_mem_nil _
    | strict => exact List.forall_mem_singleton.mpr rfl
  obtain ⟨m, hm, hname, hmvalues, hset, hcount⟩ :=
    h.accepts declaration_wellFormed hcommand hsublist haction hvalues hargs
  have hmode : m.mode = mode := by
    have hstrict := hset strictFlag (by rw [hflags]; exact List.mem_singleton_self _) rfl
    rw [Matches.mode]
    cases mode with
    | permissive => exact if_neg (mt hstrict.mp List.not_mem_nil)
    | strict => exact if_pos (hstrict.mpr (List.mem_singleton_self _))
  have hverbosity : m.count verboseFlag.name = 0 := hcount _ (List.mem_singleton_self _) rfl
  rw [run, hm, Parsed.run, Invocation.ofMatches?, hrequest m hname hmvalues hmode, hverbosity]
  rfl

end Keypad.CommandLine
