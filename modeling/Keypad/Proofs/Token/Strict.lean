import Keypad.Proofs.Token.Layout

/-!
# Strict reading

In strict mode a stretch is a run of digits and points, so its number is that run and has no
gap. A text without foreign characters is cut as a whole. At the first foreign character of
any other text reading ends with a fault: the number that touches that character is **given
up**, and every other token in front of it is handed out.

## Main results

* `Numeral.ofStretch?_of_run`: the number of a run.
* `Cut.holds_of_mem_tokens`: the numbers of a strict cut stand in the text as they are.
* `Lexer.items_foreign`: what is handed out of a text with a foreign character.
-/

namespace Keypad

/-- A run of digits and points makes a number of just these characters. -/
theorem Numeral.ofStretch?_of_run {run : List Char} (hrun : ∀ c ∈ run, isNumeric c = true)
    (hne : run ≠ []) (start : Nat) :
    ofStretch? start run =
      some ⟨String.ofList run, .ofSize start (byteLength run), false⟩ := by
  obtain ⟨c, cs, hfirst⟩ := List.exists_cons_of_ne_nil hne
  have hlast := List.dropLast_concat_getLast hne
  have hcore : Core [] run [] :=
    ⟨nofun, nofun, ⟨c, cs, hfirst, hrun c (by simp [hfirst])⟩,
      ⟨run.dropLast, run.getLast hne, hlast.symm, hrun _ (List.getLast_mem hne)⟩⟩
  have hnumber := ofStretch?_of_core hcore start
  rw [List.filter_eq_self.mpr hrun, decide_eq_false (Nat.lt_irrefl _), byteLength_nil,
    Nat.add_zero, List.nil_append, List.append_nil] at hnumber
  exact hnumber

/-- The tokens without a number that ends at `stop`. -/
def withoutNumberAt (stop : Nat) (tokens : List Token) : List Token :=
  tokens.filter fun
    | .number n => n.span.stop != stop
    | .operator _ _ => true

namespace Cut

/-- In strict mode, the number of a stretch is the stretch. -/
theorem ofStretch_strict (start : Nat) (stretch : Stretch .strict) :
    Token.ofStretch start stretch.1 =
      if stretch.1 = [] then []
      else [.number ⟨String.ofList stretch.1, .ofSize start (byteLength stretch.1), false⟩] := by
  split
  · next hnil =>
      rw [hnil]
      rfl
  · next hne =>
      rw [Token.ofStretch, Numeral.ofStretch?_of_run stretch.2 hne]
      rfl

/-- A separator is no number. -/
theorem number_not_mem_ofSeparator (offset : Nat) (c : Char) (n : Numeral) :
    .number n ∉ Token.ofSeparator offset c := by
  rw [Token.ofSeparator]
  cases Operator.ofChar? c <;> simp

/-- The numbers of closed stretches have no gap, and end before the last separator does. -/
theorem number_of_mem_closedTokens {closed : List (Stretch .strict × Separator .strict)}
    {start : Nat} {n : Numeral} (h : .number n ∈ closedTokens start closed) :
    n.gapped = false ∧ n.span.stop < start + byteLength (closedChars closed) := by
  induction closed generalizing start with
  | nil => exact nomatch h
  | cons p closed ih =>
      obtain ⟨stretch, c⟩ := p
      have hsize : 0 < c.1.utf8Size := c.1.utf8Size_pos
      rw [closedChars_cons, byteLength_append, byteLength_cons]
      rcases List.mem_append.mp h with h | h
      · rcases List.mem_append.mp h with h | h
        · rw [ofStretch_strict] at h
          split at h
          · exact nomatch h
          · obtain rfl := Token.number.inj (List.mem_singleton.mp h)
            dsimp only [Span.ofSize]
            exact ⟨rfl, by omega⟩
        · exact absurd h (number_not_mem_ofSeparator _ _ n)
      · obtain ⟨hgap, hstop⟩ := ih h
        exact ⟨hgap, by omega⟩

/-- **The numbers of a strict cut stand in the text as they are.** -/
theorem holds_of_mem_tokens {k : Cut .strict} {n : Numeral} (h : .number n ∈ k.tokens) :
    n.gapped = false ∧ n.span.Holds 0 k.chars n.literal.toList := by
  have hgap : n.gapped = false := by
    rcases List.mem_append.mp h with h | h
    · exact (number_of_mem_closedTokens h).1
    · rw [ofStretch_strict] at h
      split at h
      · exact nomatch h
      · obtain rfl := Token.number.inj (List.mem_singleton.mp h)
        rfl
  exact ⟨hgap, k.layout.holds_literal h hgap⟩

/-- Without a number that ends where the text does, the tokens of a strict cut are those of
its closed stretches. -/
theorem withoutNumberAt_tokens (k : Cut .strict) :
    withoutNumberAt (byteLength k.chars) k.tokens = closedTokens 0 k.closed := by
  have hchars : byteLength k.chars = k.lastStart + byteLength k.last.1 := by
    rw [chars, byteLength_append, lastStart]
  have hclosed : withoutNumberAt (byteLength k.chars) (closedTokens 0 k.closed) =
      closedTokens 0 k.closed := by
    refine List.filter_eq_self.mpr ?_
    intro t ht
    cases t with
    | operator op offset => rfl
    | number n =>
        have hstop := (number_of_mem_closedTokens ht).2
        rw [Nat.zero_add, ← lastStart] at hstop
        simp only [bne_iff_ne]
        omega
  have hlast : withoutNumberAt (byteLength k.chars) (Token.ofStretch k.lastStart k.last.1) =
      [] := by
    rw [ofStretch_strict, hchars]
    split
    · rfl
    · simp [withoutNumberAt, Span.ofSize]
  rw [tokens, withoutNumberAt, List.filter_append, ← withoutNumberAt, ← withoutNumberAt,
    hclosed, hlast, List.append_nil]

end Cut

namespace Lexer

/-- **At a foreign character, reading ends with a fault**, and gives up the number that
touches it. -/
theorem items_foreign {text : String} {k : Cut .strict} {c : Char} {rest : List Char}
    (htext : text.toList = k.chars ++ c :: rest) (hc : isForeign c = true) :
    (ofText .strict text).items =
      (withoutNumberAt (byteLength k.chars) k.tokens).map .ok ++
        [.error (.unexpectedCharacter c
          ⟨text, .ofSize (byteLength k.chars) c.utf8Size⟩)] := by
  rw [items_ofText, htext, stream_cut, k.withoutNumberAt_tokens,
    stream_foreign _ _ _ _ (Glyph.ofChar_eq_foreign_iff.mpr hc)]

end Lexer

end Keypad
