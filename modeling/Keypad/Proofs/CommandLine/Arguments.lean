import Keypad.Proofs.CommandLine.Reader
import Mathlib.Data.List.Nodup
import Mathlib.Data.List.Pairwise

/-!
# The reader of arguments keeps the rules

The rules on which the program relies are kept by the reader of the library, for every command
line that is declared well. The rules about flags compare two readings of almost the same
arguments. They go through the same arguments in step, and differ in nothing but the
occurrences of one flag; since a flag that is counted is never refused, neither reading can
fail where the other one does not.

## Main definitions

* `Progress.AlikeBut`: two readings that differ in the occurrences of one flag.
* `Progress.InStep`: what two readings come to that stay related.

## Main results

* `Progress.inStep_step`, `Progress.InStep.foldlM`: readings that are alike stay alike.
* `readArguments_readsCommands`, `readArguments_countsFlags`,
  `readArguments_knowsGlobalFlags`: **the reader keeps the rules**.
-/

namespace Keypad.CommandLine

/-- The only element that passes a test is found. -/
theorem find?_eq_some_of_unique {α : Type} {l : List α} {test : α → Bool} {a : α} (ha : a ∈ l)
    (htest : test a = true) (h : ∀ b ∈ l, test b = true → b = a) : l.find? test = some a := by
  cases hfound : l.find? test with
  | none => exact absurd htest (List.find?_eq_none.mp hfound a ha)
  | some b => rw [h b (List.mem_of_find?_eq_some hfound) (List.find?_some hfound)]

/-- A plain name does not look like an option. -/
theorem IsPlainName.not_looksLikeOption {name : String} (h : IsPlainName name) :
    ¬ LooksLikeOption name := by
  rintro ⟨c, cs, hname⟩
  have hdash : '-' ∈ name.toList := by
    rw [hname]
    exact List.mem_cons_self
  exact absurd (List.all_eq_true.mp h.2 '-' hdash) (by decide)

instance : Std.Symm Flag.Apart where
  symm f g h := by
    refine ⟨h.1.symm, ?_⟩
    by_cases hg : g.short = none
    · exact .inl hg
    · exact .inr fun heq => h.2.elim (fun hf => hg (heq.trans hf)) fun hne => hne heq.symm

namespace Progress

variable {cli : Declaration} {p q : Progress} {flag : Flag} {command : Command}

/-! ### Flags that are found -/

/-- The command is one of those that are declared. -/
def Within (cli : Declaration) (p : Progress) : Prop :=
  ∀ command, p.command = some command → command ∈ cli.commands

/-- The flags that can be given are those of some command, or of all. -/
theorem exists_command (hcli : cli.WellFormed) (hp : p.Within cli) :
    ∃ command ∈ cli.commands, p.flags cli ⊆ cli.flags ++ command.flags := by
  rw [flags]
  cases hcommand : p.command with
  | none =>
      obtain ⟨command, hmem⟩ := List.exists_mem_of_ne_nil _ hcli.commands_ne_nil
      exact ⟨command, hmem, List.subset_append_left _ _⟩
  | some command =>
      refine ⟨command, hp command hcommand, List.append_subset.mpr ⟨?_, ?_⟩⟩
      · exact List.subset_append_right _ _
      · exact fun _ h => List.mem_append_left _ (List.mem_filter.mp h).1

/-- Flags that can be given together differ in name and letter. -/
theorem apart_of_mem (hcli : cli.WellFormed) (hp : p.Within cli) {other : Flag}
    (hflag : flag ∈ p.flags cli) (hother : other ∈ p.flags cli) (hne : flag ≠ other) :
    flag.Apart other := by
  obtain ⟨command, hcommand, hsub⟩ := exists_command hcli hp
  exact (hcli.flags command hcommand).forall (hsub hflag) (hsub hother) hne

/-- Flags that can be given are not mistaken for anything else. -/
theorem isPlain_of_mem (hcli : cli.WellFormed) (hp : p.Within cli) (hflag : flag ∈ p.flags cli) :
    flag.IsPlain := by
  obtain ⟨command, hcommand, hsub⟩ := exists_command hcli hp
  exact hcli.flag command hcommand flag (hsub hflag)

/-- **The long form of a flag gives it.** -/
theorem step_long (hcli : cli.WellFormed) (hp : p.Within cli) (hliteral : p.literal = false)
    (hflag : flag ∈ p.flags cli) : p.step cli flag.long = p.give cli flag := by
  obtain ⟨⟨hne, -⟩, ⟨hhelp, hversion⟩, -⟩ := isPlain_of_mem hcli hp hflag
  have harg : flag.long.toList = '-' :: '-' :: flag.name.toList := by
    rw [Flag.long, String.toList_append]
    rfl
  have hfind : (p.flags cli).find? (fun f => f.name = flag.name) = some flag := by
    refine find?_eq_some_of_unique hflag (by simp) ?_
    intro other hother hname
    by_contra hdifferent
    exact (apart_of_mem hcli hp hother hflag hdifferent).1 (by simpa using hname)
  obtain ⟨c, cs, hname⟩ := List.exists_cons_of_ne_nil hne
  rw [step, if_neg (by rw [hliteral]; decide), harg, hname]
  change p.readLong cli (String.ofList (c :: cs)) = _
  rw [← hname, String.ofList_toList, readLong, if_neg hhelp, if_neg fun h => hversion h.1, hfind]
  rfl

/-- The letter of a flag gives it. -/
theorem readShort_eq (hcli : cli.WellFormed) (hp : p.Within cli) (hflag : flag ∈ p.flags cli)
    {c : Char} (hc : flag.short = some c) : p.readShort cli c = p.give cli flag := by
  obtain ⟨-, hhelp, hversion⟩ := (isPlain_of_mem hcli hp hflag).short c hc
  have hfind : (p.flags cli).find? (fun f => f.short = some c) = some flag := by
    refine find?_eq_some_of_unique hflag (by simpa using hc) ?_
    intro other hother hshort
    by_contra hdifferent
    have hother' : other.short = some c := by simpa using hshort
    rcases (apart_of_mem hcli hp hother hflag hdifferent).2 with hnone | hne
    · exact nomatch hnone.symm.trans hother'
    · exact hne (hother'.trans hc.symm)
  rw [readShort, if_neg hhelp, if_neg fun h => hversion h.1, hfind]
  rfl

/-- The same reading with a flag given some times more. -/
def givenMore (p : Progress) (n : Nat) (flag : Flag) : Progress :=
  { p with given := List.replicate n flag.name ++ p.given }

/-- Its letter, repeated, gives a flag that is counted as often. -/
theorem foldlM_readShort (hcli : cli.WellFormed) (hp : p.Within cli)
    (hflag : flag ∈ p.flags cli) (hcount : flag.action = .count) {c : Char}
    (hc : flag.short = some c) (n : Nat) :
    (List.replicate n c).foldlM (readShort cli) p = .ok (p.givenMore n flag) := by
  induction n generalizing p with
  | zero => rfl
  | succ n ih =>
      have hgive : p.readShort cli c = .ok (p.givenMore 1 flag) := by
        rw [readShort_eq hcli hp hflag hc, give, hcount]
        rfl
      have hp' : (p.givenMore 1 flag).Within cli := hp
      have hnext := ih hp' hflag
      rw [List.replicate_succ, List.foldlM_cons, hgive]
      refine hnext.trans (congrArg Except.ok ?_)
      rw [givenMore, givenMore, givenMore, ← List.append_assoc, List.replicate_append_replicate]

/-- **Every form of a flag that is counted gives it**, some number of times. -/
theorem step_givenBy (hcli : cli.WellFormed) (hp : p.Within cli) (hliteral : p.literal = false)
    (hflag : flag ∈ p.flags cli) (hcount : flag.action = .count) {arg : String}
    (harg : flag.GivenBy arg) : ∃ n, p.step cli arg = .ok (p.givenMore n flag) := by
  rcases harg with rfl | ⟨c, n, hc, harg⟩
  · refine ⟨1, ?_⟩
    rw [step_long hcli hp hliteral hflag, give, hcount]
    rfl
  · refine ⟨n + 1, ?_⟩
    have hdash : c ≠ '-' := by
      rintro rfl
      exact absurd ((isPlain_of_mem hcli hp hflag).short _ hc).1 (by decide)
    rw [step, if_neg (by rw [hliteral]; decide), harg, List.replicate_succ]
    split
    · next h => exact absurd (List.cons.inj (List.cons.inj h).2).1 hdash
    · next h => exact absurd (List.cons.inj (List.cons.inj h).2).1 hdash
    · next h =>
        obtain ⟨rfl, rfl⟩ := List.cons.inj (List.cons.inj h).2
        exact foldlM_readShort hcli hp hflag hcount hc (n + 1)
    · next h => exact absurd rfl (h c (List.replicate n c))

/-! ### Readings that are alike -/

/-- Two readings that have found the same, but for the occurrences of one flag, and are both
behind `--` or both not. -/
structure AlikeBut (cli : Declaration) (name : String) (literal : Bool) (p q : Progress) :
    Prop where
  within : p.Within cli
  command : p.command = q.command
  left : p.literal = literal
  right : q.literal = literal
  values : p.values = q.values
  above : p.above.filter (· ≠ name) = q.above.filter (· ≠ name)
  given : p.given.filter (· ≠ name) = q.given.filter (· ≠ name)

variable {name : String} {literal : Bool}

/-- Giving the flag some times more makes no other difference. -/
theorem AlikeBut.givenMore (hp : p.Within cli) (hliteral : p.literal = literal) (n : Nat)
    (flag : Flag) : AlikeBut cli flag.name literal p (p.givenMore n flag) where
  within := hp
  command := rfl
  left := hliteral
  right := hliteral
  values := rfl
  above := rfl
  given := by
    rw [Progress.givenMore, List.filter_append, List.filter_replicate_of_neg (by simp),
      List.nil_append]

/-- The same flags can be given. -/
theorem AlikeBut.flags_eq (h : AlikeBut cli name literal p q) : p.flags cli = q.flags cli := by
  rw [flags, flags, h.command]

/-- Two readings have come to the same report, or they are related. -/
inductive InStep (R : Progress → Progress → Prop) :
    Except Parsed Progress → Except Parsed Progress → Prop
  | ok {p q : Progress} : R p q → InStep R (.ok p) (.ok q)
  | error (report : Parsed) : InStep R (.error report) (.error report)

/-- Readings in step are in step for every weaker relation. -/
theorem InStep.mono {R R' : Progress → Progress → Prop} {x y : Except Parsed Progress}
    (h : InStep R x y) (hR : ∀ {p q}, R p q → R' p q) : InStep R' x y := by
  cases h with
  | ok h => exact .ok (hR h)
  | error report => exact .error report

/-- **Readings stay in step** through a row of texts or letters, if they do at each. -/
theorem InStep.foldlM {α : Type} {R : Progress → Progress → Prop}
    {f : Progress → α → Except Parsed Progress} {l : List α}
    (hf : ∀ a ∈ l, ∀ {p q}, R p q → InStep R (f p a) (f q a)) (h : R p q) :
    InStep R (l.foldlM f p) (l.foldlM f q) := by
  induction l generalizing p q with
  | nil => exact .ok h
  | cons a l ih =>
      obtain ⟨ha, hl⟩ := List.forall_mem_cons.mp hf
      have hnext := ha h
      rw [List.foldlM_cons, List.foldlM_cons]
      revert hnext
      generalize f p a = x, f q a = y
      intro hnext
      cases hnext with
      | ok h => exact ih hl h
      | error report => exact .error report

/-- Lists that agree but for one text have every other text equally often. -/
theorem count_eq_of_filter_eq {l l' : List String} {other : String} (hother : other ≠ name)
    (h : l.filter (· ≠ name) = l'.filter (· ≠ name)) : l.count other = l'.count other := by
  have hfilter (l : List String) : (l.filter (· ≠ name)).count other = l.count other :=
    List.count_filter (decide_eq_true hother)
  rw [← hfilter l, ← hfilter l', h]

theorem mem_iff_of_filter_eq {l l' : List String} {other : String} (hother : other ≠ name)
    (h : l.filter (· ≠ name) = l'.filter (· ≠ name)) : other ∈ l ↔ other ∈ l' := by
  rw [← List.count_pos_iff, ← List.count_pos_iff, count_eq_of_filter_eq hother h]

section Steps

variable (hcli : cli.WellFormed) (hdeclared : flag ∈ cli.flags) (hcount : flag.action = .count)

include hcli hdeclared hcount

/-- Giving any flag keeps readings in step: the one in which they differ is counted, and so is
never refused. -/
theorem inStep_give (h : AlikeBut cli flag.name literal p q) {other : Flag}
    (hother : other ∈ p.flags cli) :
    InStep (AlikeBut cli flag.name literal) (p.give cli other) (q.give cli other) := by
  have hcons : AlikeBut cli flag.name literal { p with given := other.name :: p.given }
      { q with given := other.name :: q.given } :=
    { h with given := by rw [List.filter_cons, List.filter_cons, h.given] }
  rw [give, give]
  cases haction : other.action with
  | count => exact .ok hcons
  | set =>
      -- a flag that is set is not the one that is counted, so both readings have it or neither
      have hne : other ≠ flag := by
        rintro rfl
        exact nomatch haction.symm.trans hcount
      obtain ⟨command, hcommand, hsub⟩ := exists_command hcli h.within
      have hapart := (hcli.flags command hcommand).forall (hsub hother)
        (List.mem_append_left _ hdeclared) hne
      have hmem := mem_iff_of_filter_eq hapart.1 h.given
      by_cases hgiven : other.name ∈ p.given
      · simp only [if_pos hgiven, if_pos (hmem.mp hgiven)]
        exact .error _
      · simp only [if_neg hgiven, if_neg (mt hmem.mpr hgiven)]
        exact .ok hcons

/-- Searching for a flag and giving it keeps readings in step. -/
theorem inStep_giveFound (h : AlikeBut cli flag.name literal p q) (test : Flag → Bool) :
    InStep (AlikeBut cli flag.name literal) (p.giveFound cli ((p.flags cli).find? test))
      (q.giveFound cli ((q.flags cli).find? test)) := by
  rw [← h.flags_eq]
  cases hfound : (p.flags cli).find? test with
  | none => exact .error _
  | some other =>
      exact inStep_give hcli hdeclared hcount h (List.mem_of_find?_eq_some hfound)

/-- A letter keeps readings in step. -/
theorem inStep_readShort (h : AlikeBut cli flag.name literal p q) (c : Char) :
    InStep (AlikeBut cli flag.name literal) (p.readShort cli c) (q.readShort cli c) := by
  rw [readShort, readShort, ← h.command]
  split
  · exact .error _
  · split
    · exact .error _
    · exact inStep_giveFound hcli hdeclared hcount h _

/-- A name keeps readings in step. -/
theorem inStep_readLong (h : AlikeBut cli flag.name literal p q) (text : String) :
    InStep (AlikeBut cli flag.name literal) (p.readLong cli text) (q.readLong cli text) := by
  rw [readLong, readLong, ← h.command]
  split
  · exact .error _
  · split
    · exact .error _
    · exact inStep_giveFound hcli hdeclared hcount h _

omit hcli hdeclared hcount in
/-- A value, or the name of a command, keeps readings in step. -/
theorem inStep_readValue (h : AlikeBut cli name literal p q) (text : String) :
    InStep (AlikeBut cli name literal) (p.readValue cli text) (q.readValue cli text) := by
  rw [readValue, readValue, ← h.command, h.left, h.right, ← h.values]
  cases hcommand : p.command with
  | some command =>
      dsimp only
      split
      · refine .ok ⟨?_, rfl, rfl, rfl, rfl, h.above, h.given⟩
        rintro command' ⟨⟩
        exact h.within _ hcommand
      · exact .error _
  | none =>
      dsimp only
      split
      · exact .error _
      · split
        · exact .error _
        · cases hfound : cli.commands.find? (fun command => command.name = text) with
          | none => exact .error _
          | some command =>
              refine .ok ⟨?_, rfl, rfl, rfl, rfl, h.given, rfl⟩
              rintro command' ⟨⟩
              exact List.mem_of_find?_eq_some hfound

/-- **Every argument but `--` keeps readings in step**, and leaves options to be options. -/
theorem inStep_step (h : AlikeBut cli flag.name literal p q) {arg : String} (harg : arg ≠ "--") :
    InStep (AlikeBut cli flag.name literal) (p.step cli arg) (q.step cli arg) := by
  rw [step, step, h.left, h.right]
  split
  · exact inStep_readValue h arg
  · split
    · next hdashes => exact absurd (String.toList_inj.mp hdashes) harg
    · exact inStep_readLong hcli hdeclared hcount h _
    · exact .foldlM (fun c _ {_ _} h => inStep_readShort hcli hdeclared hcount h c) h
    · exact inStep_readValue h arg

/-- Readings stay in step up to the end, which may be behind `--`. -/
theorem inStep_toEnd (h : AlikeBut cli flag.name literal p q) (args : List String) :
    InStep (fun p q => ∃ literal, AlikeBut cli flag.name literal p q) (args.foldlM (step cli) p)
      (args.foldlM (step cli) q) := by
  refine .foldlM (fun arg _ {p q} => ?_) ⟨literal, h⟩
  rintro ⟨literal, h⟩
  cases literal with
  | true =>
      -- every text is a value, `--` as well
      rw [step, step, if_pos h.left, if_pos h.right]
      exact (inStep_readValue h arg).mono fun h => ⟨true, h⟩
  | false =>
      by_cases harg : arg = "--"
      · subst harg
        rw [step, step, h.left, h.right]
        exact .ok ⟨true, { h with left := rfl, right := rfl, within := h.within }⟩
      · exact (inStep_step hcli hdeclared hcount h harg).mono fun h => ⟨false, h⟩

end Steps

/-! ### Reports that are alike -/

/-- **Alike readings are reported alike.** -/
theorem AlikeBut.finish (h : AlikeBut cli name literal p q) :
    Parsed.AlikeBut name (p.finish cli) (q.finish cli) := by
  rw [Progress.finish, Progress.finish, ← h.command, ← h.values]
  cases p.command with
  | none => exact .refused _ _
  | some command =>
      dsimp only
      split
      · refine .accepted rfl rfl (fun other hother => ?_) fun other hother => ?_
        · simp only [mem_iff_of_filter_eq hother h.given, mem_iff_of_filter_eq hother h.above]
        · simp only [count, mem_iff_of_filter_eq hother h.given,
            count_eq_of_filter_eq hother h.given, count_eq_of_filter_eq hother h.above]
      · exact .refused _ _

/-- Readings in step are reported alike, unless they were ended by a text to be shown. -/
theorem InStep.report {x y : Except Parsed Progress}
    (h : InStep (fun p q => ∃ literal, AlikeBut cli name literal p q) x y)
    (hshown : ¬ (report cli x).IsShown) :
    Parsed.AlikeBut name (Progress.report cli x) (Progress.report cli y) := by
  cases h with
  | ok h =>
      obtain ⟨literal, halike⟩ := h
      exact halike.finish
  | error report => exact .refl hshown

/-- A flag that is global can be given everywhere. -/
theorem mem_flags_of_isGlobal (hflag : flag ∈ cli.flags) (hglobal : flag.isGlobal = true) :
    flag ∈ p.flags cli := by
  rw [flags]
  cases p.command with
  | none => exact hflag
  | some command => exact List.mem_append_right _ (List.mem_filter.mpr ⟨hflag, hglobal⟩)

/-- **A flag that is counted can be inserted** where it can be given: in front of everything,
and everywhere in front of `--` if it is global. -/
theorem alikeBut_insert (hcli : cli.WellFormed) (hflag : flag ∈ cli.flags)
    (hcount : flag.action = .count) {arg : String} (harg : flag.GivenBy arg)
    {before after : List String} (hbefore : "--" ∉ before)
    (hplace : before = [] ∨ flag.isGlobal = true)
    (hshown : ¬ (readArguments cli (before ++ after)).IsShown) :
    (readArguments cli (before ++ after)).AlikeBut flag.name
      (readArguments cli (before ++ arg :: after)) := by
  have hstart : AlikeBut cli flag.name false start start := ⟨nofun, rfl, rfl, rfl, rfl, rfl, rfl⟩
  have hread : InStep (AlikeBut cli flag.name false) (before.foldlM (step cli) start)
      (before.foldlM (step cli) start) :=
    .foldlM (fun arg harg {_ _} h => inStep_step hcli hflag hcount h
      fun heq => hbefore (heq ▸ harg)) hstart
  rw [readArguments, List.foldlM_append] at hshown ⊢
  rw [readArguments, List.foldlM_append]
  cases hp : before.foldlM (step cli) start with
  | error report =>
      -- the reading has ended in front of the flag
      rw [hp] at hshown
      exact .refl hshown
  | ok p =>
      rw [hp] at hshown hread
      obtain ⟨hwithin, hliteral⟩ : p.Within cli ∧ p.literal = false := by
        cases hread with
        | ok halike => exact ⟨halike.within, halike.left⟩
      have hmem : flag ∈ p.flags cli := by
        rcases hplace with rfl | hglobal
        · obtain rfl := Except.ok.inj hp
          exact hflag
        · exact mem_flags_of_isGlobal hflag hglobal
      obtain ⟨n, hstep⟩ := step_givenBy hcli hwithin hliteral hmem hcount harg
      have hrest := inStep_toEnd hcli hflag hcount (.givenMore hwithin hliteral n flag) after
      change Parsed.AlikeBut _ _ (report cli ((arg :: after).foldlM _ p))
      rw [List.foldlM_cons, hstep]
      change Parsed.AlikeBut _ _ (report cli (after.foldlM _ (p.givenMore n flag)))
      exact hrest.report hshown

/-! ### Commands -/

/-- A text that does not look like an option is a value, or the name of a command. -/
theorem step_of_not_looksLikeOption {text : String} (h : ¬ LooksLikeOption text) :
    p.step cli text = p.readValue cli text := by
  rw [step]
  split
  · rfl
  · split
    · next heq => exact absurd ⟨_, _, heq⟩ h
    · next heq => exact absurd ⟨_, _, heq⟩ h
    · next heq => exact absurd ⟨_, _, heq⟩ h
    · rfl

/-- **The name of a command selects it.** -/
theorem step_name (hcli : cli.WellFormed) (hcommand : command ∈ cli.commands) :
    start.step cli command.name = .ok { start with command := some command } := by
  obtain ⟨hplain, hhelp⟩ := hcli.command command hcommand
  have hfind : cli.commands.find? (fun c => c.name = command.name) = some command := by
    refine find?_eq_some_of_unique hcommand (by simp) ?_
    intro other hother hname
    exact List.inj_on_of_nodup_map hcli.commands hother hcommand (by simpa using hname)
  rw [step_of_not_looksLikeOption hplain.not_looksLikeOption, readValue]
  change (if command.name = "help" then _ else _) = _
  rw [if_neg hhelp, hfind]
  rfl

/-- Flags that differ in their names can all be given, each once. -/
theorem foldlM_flags (hcli : cli.WellFormed) (hcommand : command ∈ cli.commands)
    (hp : p.command = some command) (hliteral : p.literal = false) {flags : List Flag}
    (hflags : flags.Sublist command.flags) (hset : ∀ flag ∈ flags, flag.action = .set)
    (hgiven : ∀ flag ∈ flags, flag.name ∉ p.given) :
    (flags.map Flag.long).foldlM (step cli) p =
      .ok { p with given := (flags.map (·.name)).reverse ++ p.given } := by
  induction flags generalizing p with
  | nil => rfl
  | cons flag flags ih =>
      obtain ⟨hflagSet, hset⟩ := List.forall_mem_cons.mp hset
      obtain ⟨hflagGiven, hgiven⟩ := List.forall_mem_cons.mp hgiven
      have hwithin : p.Within cli := by
        intro c hc
        obtain rfl := Option.some.inj (hp.symm.trans hc)
        exact hcommand
      have hmem : flag ∈ p.flags cli := by
        rw [Progress.flags, hp]
        exact List.mem_append_left _ (hflags.subset List.mem_cons_self)
      have hgive : p.give cli flag = .ok { p with given := flag.name :: p.given } := by
        rw [give, hflagSet]
        exact if_neg hflagGiven
      -- the flag differs from those that follow
      have hapart : (flag :: flags).Pairwise Flag.Apart :=
        (List.pairwise_append.mp (hcli.flags command hcommand)).2.1.sublist hflags
      have hnext : ∀ other ∈ flags, other.name ∉ flag.name :: p.given := by
        intro other hother hmem
        rcases List.mem_cons.mp hmem with hname | hmem
        · exact ((List.pairwise_cons.mp hapart).1 other hother).1 hname.symm
        · exact hgiven other hother hmem
      have hrest := ih (p := { p with given := flag.name :: p.given }) hp hliteral
        (List.sublist_of_cons_sublist hflags) hset hnext
      rw [List.map_cons, List.foldlM_cons, step_long hcli hwithin hliteral hmem, hgive]
      refine hrest.trans ?_
      rw [List.map_cons, List.reverse_cons, List.append_assoc]
      rfl

/-- Values can be given as long as some are missing. -/
theorem foldlM_values (hp : p.command = some command) {values : List String}
    (hlength : p.values.length + values.length ≤ command.values.length)
    (hvalues : p.literal = true ∨ ∀ text ∈ values, ¬ LooksLikeOption text) :
    values.foldlM (step cli) p =
      .ok { p with values := p.values ++ values } := by
  induction values generalizing p with
  | nil => simp [pure, Except.pure]
  | cons text values ih =>
      rw [List.length_cons] at hlength
      have hread : p.step cli text = p.readValue cli text := by
        rcases hvalues with hliteral | hvalues
        · exact if_pos hliteral
        · exact step_of_not_looksLikeOption (List.forall_mem_cons.mp hvalues).1
      have hroom : p.readValue cli text = .ok { p with values := p.values ++ [text] } := by
        rw [readValue, hp]
        exact if_pos (by omega)
      have hrest := ih (p := { p with values := p.values ++ [text] }) hp
        (by rw [List.length_append, List.length_singleton]; omega)
        (hvalues.imp_right fun h => (List.forall_mem_cons.mp h).2)
      rw [List.foldlM_cons, hread, hroom]
      refine hrest.trans ?_
      rw [List.append_assoc]
      rfl

/-- The values are read, whichever way they are given. -/
theorem exists_foldlM_args (hp : p.command = some command) (hliteral : p.literal = false)
    (hstart : p.values = []) {values args : List String}
    (hlength : values.length = command.values.length) (hargs : ValuesGivenBy values args) :
    ∃ literal, args.foldlM (step cli) p =
      .ok { p with literal := literal, values := values } := by
  cases hargs with
  | plain hplain =>
      refine ⟨false, ?_⟩
      rw [foldlM_values hp (by rw [hstart, List.length_nil]; omega) (.inr hplain), hstart,
        List.nil_append, ← hliteral]
  | literal =>
      refine ⟨true, ?_⟩
      have hdashes : p.step cli "--" = .ok { p with literal := true } := by
        rw [step, if_neg (by rw [hliteral]; decide)]
        rfl
      have hrest : values.foldlM (step cli) { p with literal := true } =
          .ok { p with literal := true, values := p.values ++ values } :=
        foldlM_values (p := { p with literal := true }) hp
          (by rw [hstart, List.length_nil]; omega) (.inl rfl)
      rw [List.foldlM_cons, hdashes]
      refine hrest.trans ?_
      rw [hstart, List.nil_append]

/-- **A use of a command is read** to its end. -/
theorem exists_foldlM_use (hcli : cli.WellFormed) (hcommand : command ∈ cli.commands)
    {flags : List Flag} (hflags : flags.Sublist command.flags)
    (hset : ∀ flag ∈ flags, flag.action = .set) {values args : List String}
    (hlength : values.length = command.values.length) (hargs : ValuesGivenBy values args) :
    ∃ literal, (command.name :: (flags.map Flag.long ++ args)).foldlM (step cli) start =
      .ok ⟨some command, literal, [], (flags.map (·.name)).reverse, values⟩ := by
  have hname : start.step cli command.name = .ok ⟨some command, false, [], [], []⟩ :=
    step_name hcli hcommand
  have hgiven : (flags.map Flag.long).foldlM (step cli)
      ⟨some command, false, [], [], []⟩ =
        .ok ⟨some command, false, [], (flags.map (·.name)).reverse, []⟩ := by
    rw [foldlM_flags hcli hcommand rfl rfl hflags hset fun _ _ => List.not_mem_nil,
      List.append_nil]
  obtain ⟨literal, hvalues⟩ : ∃ literal, args.foldlM (step cli)
      ⟨some command, false, [], (flags.map (·.name)).reverse, []⟩ =
        .ok ⟨some command, literal, [], (flags.map (·.name)).reverse, values⟩ :=
    exists_foldlM_args rfl rfl rfl hlength hargs
  refine ⟨literal, ?_⟩
  rw [List.foldlM_cons, hname]
  change (flags.map Flag.long ++ args).foldlM _ _ = _
  rw [List.foldlM_append, hgiven]
  exact hvalues

end Progress

/-- **The reader reads commands.** -/
theorem readArguments_readsCommands : ArgumentReader.ReadsCommands readArguments where
  accepts {cli command flags values args} hcli hcommand hsublist hset hlength hargs := by
    obtain ⟨literal, hread⟩ :=
      Progress.exists_foldlM_use hcli hcommand hsublist hset hlength hargs
    obtain ⟨-, hpairwise, hglobals⟩ := List.pairwise_append.mp (hcli.flags command hcommand)
    have hgiven {flag : Flag} :
        flag.name ∈ (flags.map (·.name)).reverse ↔ ∃ given ∈ flags, given.name = flag.name := by
      rw [List.mem_reverse, List.mem_map]
    rw [readArguments, hread]
    refine ⟨_, if_pos hlength, rfl, rfl, ?_, ?_⟩
    · intro flag hflag _
      simp only [List.not_mem_nil, decide_false, Bool.or_false, decide_eq_true_eq, hgiven]
      constructor
      · rintro ⟨given, hmem, hname⟩
        by_contra hnot
        have hne : given ≠ flag := fun heq => hnot (heq ▸ hmem)
        exact (hpairwise.forall (hsublist.subset hmem) hflag hne).1 hname
      · exact fun hmem => ⟨flag, hmem, rfl⟩
    · intro flag hflag _
      have hnot : flag.name ∉ (flags.map (·.name)).reverse := by
        rw [hgiven]
        rintro ⟨given, hmem, hname⟩
        exact (hglobals flag hflag given (hsublist.subset hmem)).1 hname.symm
      simp only [Progress.count, if_neg hnot]
      rfl

/-- **The reader counts flags.** -/
theorem readArguments_countsFlags : ArgumentReader.CountsFlags readArguments where
  ahead hcli hflag hcount harg hshown :=
    Progress.alikeBut_insert hcli hflag hcount harg List.not_mem_nil (.inl rfl) hshown

/-- **The reader knows global flags.** -/
theorem readArguments_knowsGlobalFlags : ArgumentReader.KnowsGlobalFlags readArguments where
  anywhere hcli hflag hcount hglobal harg hbefore hshown :=
    (readArguments_countsFlags.ahead hcli hflag hcount harg hshown).symm.trans
      (Progress.alikeBut_insert hcli hflag hcount harg hbefore (.inr hglobal) hshown)

end Keypad.CommandLine
