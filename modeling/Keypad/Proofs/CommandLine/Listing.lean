import Keypad.Proofs.CommandLine.Arguments
import Keypad.Proofs.Token.Strict

/-!
# Listing the tokens of a text

The listing is printed as the tokens are read, and `tokenize` collects them first. Both are
the same walk over the items of the text, so a listing ends where reading ends: at the end of
the text with status 0, or at a fault with status 1 and the tokens in front of it printed.

A text that begins with `-` looks like an option, and the reader of the library **takes it for
one**. Only `-` alone is taken as a text, and behind `--` everything is.

## Main results

* `listItems_append`: the listing of tokens is printed before anything else.
* `AsksForTokens.run_eq`: which arguments ask for the listing.
* `strict_listing`: strict reading, call by call, collected and printed.
* `strict_listing_option`: a text that is taken for an option is not listed.
-/

namespace Keypad.CommandLine

/-! ### The listing -/

/-- The listing of tokens, a line for each. -/
def listing (tokens : List Token) : String :=
  String.join (tokens.map fun t => t.listing ++ "\n")

/-- **Tokens are printed before anything else.** -/
theorem listItems_append (tokens : List Token) (items : List Item) :
    listItems (tokens.map .ok ++ items) = (listItems items).after (listing tokens) [] := by
  induction tokens with
  | nil => simp [listing, Outcome.after]
  | cons t tokens ih =>
      rw [List.map_cons, List.cons_append, listItems, ih, Outcome.after, Outcome.after,
        Outcome.after]
      simp only [listing, List.map_cons, String.join_cons, String.append_assoc,
        List.nil_append]

/-- Tokens without a fault are listed, with status 0. -/
theorem listItems_map_ok (tokens : List Token) :
    listItems (tokens.map .ok) = ⟨listing tokens, [], 0⟩ := by
  have h := listItems_append tokens []
  rw [List.append_nil] at h
  rw [h, listItems, Outcome.after, String.append_empty]
  rfl

/-- Tokens in front of a fault are listed, with status 1. -/
theorem listItems_append_error (tokens : List Token) (fault : Fault) :
    listItems (tokens.map .ok ++ [.error fault]) =
      ⟨listing tokens, [⟨0, fault.message⟩], 1⟩ := by
  rw [listItems_append, listItems, Outcome.ofFault, Outcome.after, String.append_empty]
  rfl

/-! ### Asking for it -/

/-- The arguments that ask for the strict listing of a text. -/
inductive AsksForTokens (text : String) : List String → Prop
  | plain : ¬ LooksLikeOption text → AsksForTokens text ["tokenize", "--strict", text]
  | endOfOptions : AsksForTokens text ["tokenize", "--strict", "--", text]

/-- These arguments give the text as the value, in strict mode. -/
theorem AsksForTokens.exists_valuesGivenBy {text : String} {args : List String}
    (h : AsksForTokens text args) :
    ∃ values, ValuesGivenBy [text] values ∧
      args = "tokenize" :: ((modeFlags .strict).map Flag.long ++ values) := by
  cases h with
  | plain hplain => exact ⟨_, .plain (List.forall_mem_singleton.mpr hplain), rfl⟩
  | endOfOptions => exact ⟨_, .literal, rfl⟩

/-- What stops a listing is told at every verbosity. -/
theorem level_of_mem_notes_listItems {items : List Item} {note : Note}
    (h : note ∈ (listItems items).notes) : note.level = 0 := by
  fun_induction listItems items with
  | case1 => exact nomatch h
  | case2 token rest ih => exact ih h
  | case3 fault => rw [List.mem_singleton.mp h]

/-- **These arguments ask for the listing**, whatever the input. -/
theorem AsksForTokens.run_eq {read : ArgumentReader} (hread : read.ReadsCommands) {text : String}
    {args : List String} (h : AsksForTokens text args) (input : List UInt8) :
    read.run args input = listItems (Lexer.ofText .strict text).items := by
  obtain ⟨values, hvalues, rfl⟩ := h.exists_valuesGivenBy
  have hrequest (m : Matches) (hname : m.command = "tokenize") (htext : m.values = [text])
      (hmode : m.mode = .strict) : Request.ofMatches? m = some (.tokenize .strict text) := by
    rw [Request.ofMatches?, hname, htext, hmode]
    rfl
  have hlength : [text].length = ["EXPRESSION"].length := rfl
  have hrun := hread.run_eq List.mem_cons_self .strict hlength hvalues hrequest input
  exact hrun.trans (Invocation.run_of_level fun _ => level_of_mem_notes_listItems)

/-! ### Strict reading -/

/-- **Strict reading is exact**, streamed, collected and listed. Operators and blanks cut a
text without foreign characters into runs of digits and points; the runs and the operators
are handed out in order, each number just as it stands in the text. A text with a foreign
character is read up to the first of them: out of the text in front of it everything is
handed out but a number that ends there, then the fault, and then nothing, for ever. The
listing is the same with every reader of arguments that reads commands. -/
theorem strict_listing {read : ArgumentReader} (hread : read.ReadsCommands) (text : String)
    (input : List UInt8) :
    ((∀ c ∈ text.toList, isForeign c = false) →
      ∃ k : Cut .strict, k.chars = text.toList ∧
        (Lexer.ofText .strict text).Yields (k.tokens.map .ok) ∧
        tokenize .strict text = .ok k.tokens ∧
        (∀ n, .number n ∈ k.tokens →
          n.gapped = false ∧ n.span.Holds 0 text.toList n.literal.toList) ∧
        ∀ args, AsksForTokens text args → read.run args input = ⟨listing k.tokens, [], 0⟩) ∧
      ∀ before c after, text.toList = before ++ c :: after →
        (∀ d ∈ before, isForeign d = false) → isForeign c = true →
        ∃ k : Cut .strict, k.chars = before ∧
          tokenize .strict (String.ofList before) = .ok k.tokens ∧
          let yielded := withoutNumberAt (byteLength before) k.tokens
          let fault : Fault :=
            .unexpectedCharacter c ⟨text, .ofSize (byteLength before) c.utf8Size⟩
          (Lexer.ofText .strict text).Yields (yielded.map .ok ++ [.error fault]) ∧
            tokenize .strict text = .error fault ∧
            ∀ args, AsksForTokens text args →
              read.run args input = ⟨listing yielded, [⟨0, fault.message⟩], 1⟩ := by
  constructor
  · intro hclean
    obtain ⟨k, hk⟩ := Cut.exists_strict hclean
    have hitems := Lexer.items_cut hk
    refine ⟨k, hk, Lexer.yields_iff.mpr hitems, ?_, ?_, ?_⟩
    · rw [tokenize, hitems, collect_map_ok]
    · intro n hn
      rw [← hk]
      exact Cut.holds_of_mem_tokens hn
    · intro args hargs
      rw [hargs.run_eq hread, hitems, listItems_map_ok]
  · intro before c after htext hclean hc
    obtain ⟨k, rfl⟩ := Cut.exists_strict hclean
    have hitems := Lexer.items_foreign htext hc
    have hprefix : (Lexer.ofText .strict (String.ofList k.chars)).items = k.tokens.map .ok :=
      Lexer.items_cut (String.toList_ofList).symm
    refine ⟨k, rfl, ?_, Lexer.yields_iff.mpr hitems, ?_, ?_⟩
    · rw [tokenize, hprefix, collect_map_ok]
    · rw [tokenize, hitems, collect_append_error]
    · intro args hargs
      rw [hargs.run_eq hread, hitems, listItems_append_error]

/-- A foreign character at once behind a number: the number is given up, and what stands in
front of it is listed. -/
theorem strict_listing_given_up :
    run ["tokenize", "--strict", "3*12x+"] [] =
      ⟨listing [.number ⟨"3", ⟨0, 1⟩, false⟩, .operator .star 1],
        [⟨0, "unexpected character `x`"⟩], 1⟩ := by
  have hclean : ∀ d ∈ "3*12".toList, isForeign d = false := fun d hd =>
    Bool.eq_false_iff.mpr (List.any_eq_false.mp (by decide) d hd)
  obtain ⟨k, -, hfront, -, -, hrun⟩ := (strict_listing readArguments_readsCommands "3*12x+" []).2
    "3*12".toList 'x' ['+'] (by decide) hclean (by decide)
  have htokens : tokenize .strict (String.ofList "3*12".toList) =
      .ok [.number ⟨"3", ⟨0, 1⟩, false⟩, .operator .star 1, .number ⟨"12", ⟨2, 4⟩, false⟩] := by
    decide +kernel
  have hplain : ¬ LooksLikeOption "3*12x+" := by
    rintro ⟨c, cs, h⟩
    exact absurd (List.cons.inj h).1 (by decide)
  rw [Except.ok.inj (hfront.symm.trans htokens)] at hrun
  exact hrun _ (.plain hplain)

/-- **A text that is taken for an option is not listed**, although it can be read. -/
theorem strict_listing_option :
    (∀ c ∈ "-5".toList, isForeign c = false) ∧
      tokenize .strict "-5" = .ok [.operator .minus 0, .number ⟨"5", ⟨1, 2⟩, false⟩] ∧
      run ["tokenize", "--strict", "-5"] [] = ⟨"", [⟨0, declaration.usage⟩], 2⟩ ∧
      run ["tokenize", "--strict", "-5"] [] ≠
        ⟨listing [.operator .minus 0, .number ⟨"5", ⟨1, 2⟩, false⟩], [], 0⟩ := by
  refine ⟨fun c hc => ?_, by decide +kernel, by decide +kernel, by decide +kernel⟩
  exact Bool.eq_false_iff.mpr (List.any_eq_false.mp (by decide) c hc)

end Keypad.CommandLine
