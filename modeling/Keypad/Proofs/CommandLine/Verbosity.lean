import Keypad.Proofs.CommandLine.Arguments

/-!
# Verbosity does not change results

The verbosity decides which notes are told on standard error, and nothing else. Its flag is
declared as one that is counted and global, so it can be given anywhere in front of a `--`:
before the name of the command, between the name and its options, and around the expression.
Wherever it is inserted, the arguments ask for the same and are wrong usage where they were;
behind `--` a flag is a value like any other, so nothing may be inserted there.

Arguments that ask for help or for the version get a text from the reader of arguments, which
may depend on where they ask for it. Nothing is said about them.

## Main definitions

* `IsVerbosityFlag`: the arguments that raise the verbosity.
* `MoreVerbose`: a list of arguments with flags inserted.

## Main results

* `givenBy_verboseFlag_iff`: these arguments give the flag that is declared, and no others.
* `ArgumentReader.alikeBut_of_moreVerbose`: with flags inserted, the arguments say the same but
  for the verbosity.
* `Parsed.run_of_alikeBut`: the verbosity has no influence on the output and the status.
* `ArgumentReader.run_moreVerbose`: with flags inserted, the output and the status are the same.
-/

namespace Keypad.CommandLine

/-- The arguments that raise the verbosity: `--verbose`, `-v`, `-vv` and so on. -/
def IsVerbosityFlag (arg : String) : Prop :=
  arg = "--verbose" ∨ ∃ n, arg.toList = '-' :: List.replicate (n + 1) 'v'

/-- **Exactly these arguments give the flag** that is declared. -/
theorem givenBy_verboseFlag_iff {arg : String} :
    verboseFlag.GivenBy arg ↔ IsVerbosityFlag arg := by
  refine or_congr Iff.rfl ?_
  constructor
  · rintro ⟨c, n, hc, harg⟩
    obtain rfl : 'v' = c := Option.some.inj hc
    exact ⟨n, harg⟩
  · rintro ⟨n, harg⟩
    exact ⟨'v', n, rfl, harg⟩

/-- The second list of arguments is the first with flags inserted, none of them behind a
`--`. -/
inductive MoreVerbose : List String → List String → Prop
  /-- From some place on, nothing is inserted. -/
  | same (args : List String) : MoreVerbose args args
  | insert {flag : String} {args args' : List String} :
      IsVerbosityFlag flag → MoreVerbose args args' → MoreVerbose args (flag :: args')
  | keep {arg : String} {args args' : List String} :
      arg ≠ "--" → MoreVerbose args args' → MoreVerbose (arg :: args) (arg :: args')

/-- **With flags inserted, the arguments say the same** but for the verbosity. -/
theorem ArgumentReader.alikeBut_of_moreVerbose {read : ArgumentReader}
    (hcounts : read.CountsFlags) (hglobals : read.KnowsGlobalFlags) {args args' : List String}
    (h : MoreVerbose args args') {before : List String} (hbefore : "--" ∉ before)
    (hshown : ¬ (read declaration (before ++ args)).IsShown) :
    (read declaration (before ++ args)).AlikeBut verboseFlag.name
      (read declaration (before ++ args')) := by
  induction h generalizing before with
  | same => exact .refl hshown
  | @insert flag args args' hflag _ ih =>
      have hinserted := ih hbefore hshown
      exact hinserted.trans (alikeBut_insert hcounts hglobals declaration_wellFormed
        (List.mem_singleton_self _) rfl rfl (givenBy_verboseFlag_iff.mpr hflag) hbefore
        hinserted.not_isShown)
  | @keep arg args args' harg _ ih =>
      -- the argument joins those in front
      have hbefore' : "--" ∉ before ++ [arg] := by
        rw [List.mem_append, List.mem_singleton]
        exact fun hmem => hmem.elim hbefore fun heq => harg heq.symm
      rw [List.append_cons before arg args, List.append_cons before arg args']
      rw [List.append_cons before arg args] at hshown
      exact ih hbefore' hshown

/-- No request is made of the verbosity. -/
theorem Request.ofMatches?_congr {m m' : Matches} (hcommand : m.command = m'.command)
    (hvalues : m.values = m'.values)
    (hset : m.isSet strictFlag.name = m'.isSet strictFlag.name) :
    ofMatches? m = ofMatches? m' := by
  rw [ofMatches?, ofMatches?, hcommand, hvalues, Matches.mode, Matches.mode, hset]

/-- **The verbosity has no influence on the output and the status.** -/
theorem Parsed.run_of_alikeBut {p q : Parsed} (h : p.AlikeBut verboseFlag.name q)
    (input : List UInt8) :
    (q.run input).output = (p.run input).output ∧ (q.run input).status = (p.run input).status := by
  cases h with
  | refused => exact ⟨rfl, rfl⟩
  | @accepted m m' hcommand hvalues hset hcount =>
      have hrequest := Request.ofMatches?_congr hcommand hvalues (hset _ (by decide))
      rw [run, run, Invocation.ofMatches?, Invocation.ofMatches?, hrequest]
      cases Request.ofMatches? m' with
      | none => exact ⟨rfl, rfl⟩
      | some request => exact ⟨rfl, rfl⟩

/-- **Verbosity does not change results.** With any number of verbosity flags inserted at any
places in front of a `--`, a command line that does not ask for help or the version prints the
same and ends with the same status, whatever it asks for and whatever its input is. This holds
with every reader of arguments that counts flags and knows global ones. -/
theorem ArgumentReader.run_moreVerbose {read : ArgumentReader} (hcounts : read.CountsFlags)
    (hglobals : read.KnowsGlobalFlags) {args args' : List String} (h : MoreVerbose args args')
    (hshown : ¬ (read declaration args).IsShown) (input : List UInt8) :
    (read.run args' input).output = (read.run args input).output ∧
      (read.run args' input).status = (read.run args input).status := by
  have hbefore : "--" ∉ ([] : List String) := List.not_mem_nil
  exact Parsed.run_of_alikeBut (alikeBut_of_moreVerbose hcounts hglobals h hbefore hshown) input

/-- Flags before the name, in front of an option and in front of `--`, with the reader of the
library. The `-v` behind `--` is the expression, and remains so. -/
theorem run_moreVerbose_endOfOptions :
    readArguments.CountsFlags ∧ readArguments.KnowsGlobalFlags ∧
      MoreVerbose ["tokenize", "--strict", "--", "-v"]
        ["--verbose", "tokenize", "-v", "--strict", "-vv", "--", "-v"] ∧
      ¬ (readArguments declaration ["tokenize", "--strict", "--", "-v"]).IsShown ∧
      (run ["--verbose", "tokenize", "-v", "--strict", "-vv", "--", "-v"] []).output =
        (run ["tokenize", "--strict", "--", "-v"] []).output ∧
      (run ["--verbose", "tokenize", "-v", "--strict", "-vv", "--", "-v"] []).status =
        (run ["tokenize", "--strict", "--", "-v"] []).status := by
  have hlong : IsVerbosityFlag "--verbose" := .inl rfl
  have hone : IsVerbosityFlag "-v" := .inr ⟨0, rfl⟩
  have htwo : IsVerbosityFlag "-vv" := .inr ⟨1, rfl⟩
  have hmore : MoreVerbose ["tokenize", "--strict", "--", "-v"]
      ["--verbose", "tokenize", "-v", "--strict", "-vv", "--", "-v"] :=
    .insert hlong (.keep (by decide) (.insert hone (.keep (by decide) (.insert htwo
      (.same _)))))
  have hshown : ¬ (readArguments declaration ["tokenize", "--strict", "--", "-v"]).IsShown := id
  exact ⟨readArguments_countsFlags, readArguments_knowsGlobalFlags, hmore, hshown,
    ArgumentReader.run_moreVerbose readArguments_countsFlags readArguments_knowsGlobalFlags hmore
      hshown []⟩

end Keypad.CommandLine
