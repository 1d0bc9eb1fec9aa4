import Keypad.Proofs.Expression.Dropped
import Keypad.Proofs.Token.Strict

/-!
# Blanks at the end of a text

A line is freed of its blanks before it is used, so a text that was typed can be shorter than
the text that was meant. Blanks at the end do not count in either mode: they end no number
that the end of the text would not end. Both texts have the same tokens, but they are different
sources, so **their values are the same and their faults need not be**.

A strict reader stops at a foreign character. No more can be said about such a text than that
it has no value, and it has none with or without the blanks.

## Main results

* `Lexer.stream_append_blanks`: blanks at the end hand out nothing.
* `toOption_evaluate_foreign`: a text with a foreign character has no value in strict mode.
* `toOption_evaluate_trimEnd`: **a text keeps its value without the blanks at its end**.
-/

namespace Keypad

/-! ### Blanks at the end of a line -/

/-- Only blanks are left out at the end. -/
theorem exists_trimEnd_append (cs : List Char) :
    ∃ blanks, trimEnd cs ++ blanks = cs ∧ ∀ c ∈ blanks, isBlank c = true := by
  refine ⟨(cs.reverse.takeWhile isBlank).reverse, ?_, ?_⟩
  · rw [trimEnd, ← List.reverse_append, List.takeWhile_append_dropWhile, List.reverse_reverse]
  · intro c hc
    exact List.mem_takeWhile_imp (List.mem_reverse.mp hc)

/-- Nothing is left out in front of a character that is no blank. -/
theorem trimEnd_cons {c : Char} (h : isBlank c = false) (cs : List Char) :
    trimEnd (c :: cs) = c :: trimEnd cs := by
  rw [trimEnd, trimEnd, List.reverse_cons, List.dropWhile_append]
  split
  · next hnil =>
      rw [List.isEmpty_iff.mp hnil, List.dropWhile_cons_of_neg (by simp [h])]
      rfl
  · rw [List.reverse_append]
    rfl

/-- A line that begins with no blank keeps its first character. -/
theorem trim_eq {text : String} {c : Char} {cs : List Char} (htext : text.toList = c :: cs)
    (h : isBlank c = false) : trim text = String.ofList (c :: trimEnd cs) := by
  rw [trim, htext, trimStart, List.dropWhile_cons_of_neg (by simp [h]), trimEnd_cons h]

/-! ### Reading -/

namespace Lexer

/-- Blanks hand out the number in front of them, and nothing else. -/
theorem stream_blanks (source : String) (mode : Mode) {blanks : List Char}
    (h : ∀ c ∈ blanks, isBlank c = true) (pending : Option Numeral) (offset : Nat) :
    stream source mode pending offset blanks = flush pending := by
  induction blanks generalizing pending offset with
  | nil => rfl
  | cons c blanks ih =>
      obtain ⟨hc, hblanks⟩ := List.forall_mem_cons.mp h
      have hglyph := Glyph.ofChar_of_isBlank hc
      cases mode with
      | permissive =>
          rw [stream_skip _ _ _ _ (.inl hglyph)]
          exact ih hblanks pending _
      | strict =>
          rw [stream_blank _ _ _ _ hglyph, ih hblanks none]
          exact List.append_nil _

/-- **Blanks at the end hand out nothing.** -/
theorem stream_append_blanks (source : String) (mode : Mode) {blanks : List Char}
    (h : ∀ c ∈ blanks, isBlank c = true) (cs : List Char) (pending : Option Numeral)
    (offset : Nat) :
    stream source mode pending offset (cs ++ blanks) = stream source mode pending offset cs := by
  induction cs generalizing pending offset with
  | nil => exact stream_blanks source mode h pending offset
  | cons c cs ih =>
      rw [List.cons_append, stream, stream]
      cases round source mode pending offset c with
      | goOn pending => exact ih pending _
      | handOut token queued => rw [ih none]
      | giveUp fault => rfl

end Lexer

/-- **A text with a foreign character has no value** in strict mode: what has a value says a
phrase, and the fault at that character says nothing. -/
theorem toOption_evaluate_foreign {text : String} {before after : List Char} {c : Char}
    (htext : text.toList = before ++ c :: after) (hbefore : ∀ d ∈ before, isForeign d = false)
    (hc : isForeign c = true) : (evaluate .strict text).toOption = none := by
  obtain ⟨k, rfl⟩ := Cut.exists_strict hbefore
  have hne : text ≠ "" := by
    rintro rfl
    exact List.append_ne_nil_of_right_ne_nil _ (List.cons_ne_nil c after) htext.symm
  rw [evaluate_of_ne_empty .strict hne]
  cases hparse : parse .strict text with
  | error fault => rfl
  | ok e =>
      obtain ⟨phrase, hsays, -⟩ := Phrase.says_of_parse hparse
      have hitems : (Parser.ofText .strict text).items = _ := Lexer.items_foreign htext hc
      rw [Says, hitems, List.map_append] at hsays
      have hmem : none ∈ phrase.lexemes.map some := hsays ▸ List.mem_append_right _ (.head _)
      obtain ⟨l, -, hl⟩ := List.mem_map.mp hmem
      exact absurd hl (Option.some_ne_none l)

/-! ### Values -/

/-- Runs that differ in their places only come to the same value, or both to none. -/
theorem Alike.toOption_eq {a b : Reading} {α : Type} {r r' : Except Fault α}
    (h : Alike a b Eq r r') : r.toOption = r'.toOption := by
  cases h with
  | ok hvalue => exact congrArg some hvalue
  | error _ => rfl

/-- Texts with the same tokens have the same value, or both none. -/
theorem toOption_evaluate_of_cut {mode : Mode} {text text' : String} (k : Cut mode)
    (h : (Lexer.ofText mode text).items = k.tokens.map .ok)
    (h' : (Lexer.ofText mode text').items = k.tokens.map .ok) (hne : text ≠ "")
    (hne' : text' ≠ "") : (evaluate mode text).toOption = (evaluate mode text').toOption := by
  have halike : Alike ⟨text, k.tokens⟩ ⟨text', k.tokens⟩ Eq (evaluate mode text)
      (evaluate mode text') := alike_evaluate h h' rfl hne hne'
  exact halike.toOption_eq

/-- Blanks at the end do not change the value of a text in front of them. -/
theorem toOption_evaluate_append_blanks (mode : Mode) {text longer : String}
    {blanks : List Char} (hne : text ≠ "") (hblanks : ∀ c ∈ blanks, isBlank c = true)
    (hlonger : longer.toList = text.toList ++ blanks) :
    (evaluate mode longer).toOption = (evaluate mode text).toOption := by
  have hne' : longer ≠ "" := by
    rintro rfl
    exact hne (String.toList_eq_nil_iff.mp (List.append_eq_nil_iff.mp hlonger.symm).1)
  have hcut (k : Cut mode) (hk : k.chars = text.toList) :
      (evaluate mode longer).toOption = (evaluate mode text).toOption := by
    refine toOption_evaluate_of_cut k ?_ (Lexer.items_cut hk) hne' hne
    rw [Lexer.items_ofText, hlonger, Lexer.stream_append_blanks _ _ hblanks, ← hk,
      Lexer.stream_cut_end]
  cases mode with
  | permissive =>
      obtain ⟨k, hk⟩ := Cut.exists_permissive text.toList
      exact hcut k hk
  | strict =>
      cases hfind : text.toList.find? isForeign with
      | none =>
          obtain ⟨k, hk⟩ := Cut.exists_strict fun c hc =>
            Bool.eq_false_iff.mpr (List.find?_eq_none.mp hfind c hc)
          exact hcut k hk
      | some c =>
          -- both readers stop at the first foreign character, in front of the blanks
          obtain ⟨hc, before, after, htext, hbefore⟩ := List.find?_eq_some_iff_append.mp hfind
          have hclean : ∀ d ∈ before, isForeign d = false := fun d hd =>
            Bool.not_eq_true' _ ▸ hbefore d hd
          rw [htext, List.append_assoc, List.cons_append] at hlonger
          rw [toOption_evaluate_foreign htext hclean hc,
            toOption_evaluate_foreign hlonger hclean hc]

/-- **A text keeps its value without the blanks at its end**, in either mode, unless it has
nothing but blanks. -/
theorem toOption_evaluate_trimEnd (mode : Mode) {text : String}
    (h : text = "" ∨ ∃ c ∈ text.toList, isBlank c = false) :
    (evaluate mode (String.ofList (trimEnd text.toList))).toOption =
      (evaluate mode text).toOption := by
  rcases h with rfl | ⟨c, hc, hnot⟩
  · rfl
  · obtain ⟨blanks, hsplit, hblanks⟩ := exists_trimEnd_append text.toList
    have hne : String.ofList (trimEnd text.toList) ≠ "" := by
      intro hnil
      rw [String.ofList_eq_empty_iff] at hnil
      rw [← hsplit, hnil] at hc
      exact nomatch (hblanks c hc).symm.trans hnot
    refine (toOption_evaluate_append_blanks mode hne hblanks ?_).symm
    rw [String.toList_ofList, hsplit]

end Keypad
