import Keypad.Proofs.Token.Calls
import Keypad.Proofs.Token.Cut

/-!
# Where tokens lie in a text

Every token of a cut stands where it was read: its span holds a piece of the text, and what
a keypad can type of that piece is the token itself. The spans follow each other in the order
of the tokens without overlapping, and together the tokens are all that a keypad can type of
the text. These four facts make a **layout**; they hold of one stretch and of one separator,
and layouts can be joined.

In permissive mode an operator stands behind every stretch but the last, so no two numbers
stand side by side.

## Main results

* `Layout.append`: layouts of neighbouring parts are a layout of both.
* `Cut.layout`: the tokens of a cut are laid out in its text.
* `Cut.separate`: in permissive mode, numbers are separate.
* `Lexer.yields_permissive`: **permissive reading**, call by call, and where its tokens lie.
-/

namespace Keypad

/-! ### Layouts -/

/-- The tokens lie in the characters, which begin at the offset `start`. -/
structure Layout (start : Nat) (cs : List Char) (tokens : List Token) : Prop where
  /-- Every token stands somewhere: what can be typed there is what the token says. -/
  holds : ∀ t ∈ tokens, t.lexeme.chars ≠ [] ∧
    ∃ inside, t.span.Holds start cs inside ∧ Lexer.typed inside = t.lexeme.chars
  /-- A token ends before the next begins. -/
  ordered : tokens.Pairwise fun t u => t.span.stop ≤ u.span.start
  /-- Nothing that can be typed is lost, and nothing comes twice. -/
  complete : (tokens.flatMap fun t => t.lexeme.chars) = Lexer.typed cs
  /-- A number is gapped exactly if its literal is shorter than its place. -/
  gapped : ∀ n, .number n ∈ tokens → (n.gapped = true ↔ n.literal.utf8ByteSize < n.span.size)

namespace Layout

variable {start : Nat} {cs : List Char} {tokens : List Token}

/-- A token lies inside the characters, and takes up space there. -/
theorem bounds (h : Layout start cs tokens) {t : Token} (ht : t ∈ tokens) :
    start ≤ t.span.start ∧ t.span.start < t.span.stop ∧
      t.span.stop ≤ start + byteLength cs := by
  obtain ⟨hne, inside, hholds, htyped⟩ := h.holds t ht
  obtain ⟨hstart, hstop, hend⟩ := hholds.bounds
  have hpos : byteLength inside ≠ 0 := by
    intro hzero
    rw [byteLength_eq_zero_iff.mp hzero] at htyped
    exact hne htyped.symm
  omega

/-- **A number without a gap stands in the text as it is.** -/
theorem holds_literal (h : Layout start cs tokens) {n : Numeral} (hn : .number n ∈ tokens)
    (hgap : n.gapped = false) : n.span.Holds start cs n.literal.toList := by
  obtain ⟨-, inside, hholds, htyped⟩ := h.holds _ hn
  have hnot : ¬ n.literal.utf8ByteSize < n.span.size := by
    rw [← h.gapped n hn, hgap]
    decide
  have hsize : n.span.size = byteLength inside := hholds.size_eq
  rw [Token.lexeme, Lexeme.chars] at htyped
  rw [hsize, ← byteLength_toList, ← htyped] at hnot
  have hall := (byteLength_filter_lt_or_eq isKeypadChar inside).resolve_left hnot
  rw [← htyped, Lexer.typed, hall]
  exact hholds

/-- No tokens lie in characters of which none can be typed. -/
theorem nil (h : Lexer.typed cs = []) : Layout start cs [] :=
  ⟨nofun, .nil, h.symm, nofun⟩

/-- **Layouts of neighbouring parts** are a layout of both. -/
theorem append {more : List Char} {tokens' : List Token} (h : Layout start cs tokens)
    (h' : Layout (start + byteLength cs) more tokens') :
    Layout start (cs ++ more) (tokens ++ tokens') where
  holds := by
    intro t ht
    rcases List.mem_append.mp ht with ht | ht
    · obtain ⟨hne, inside, hholds, htyped⟩ := h.holds t ht
      exact ⟨hne, inside, hholds.append_left more, htyped⟩
    · obtain ⟨hne, inside, hholds, htyped⟩ := h'.holds t ht
      exact ⟨hne, inside, hholds.append_right, htyped⟩
  ordered := by
    refine List.pairwise_append.mpr ⟨h.ordered, h'.ordered, ?_⟩
    intro t ht u hu
    have hstop := (h.bounds ht).2.2
    have hstart := (h'.bounds hu).1
    omega
  complete := by
    rw [List.flatMap_append, h.complete, h'.complete, Lexer.typed, Lexer.typed, Lexer.typed,
      List.filter_append]
  gapped := by
    intro n hn
    rcases List.mem_append.mp hn with hn | hn
    · exact h.gapped n hn
    · exact h'.gapped n hn

end Layout

/-! ### The layout of a cut -/

/-- Of a text without operators, digits and points can be typed. -/
theorem typed_of_not_operator {cs : List Char} (h : ∀ c ∈ cs, Operator.ofChar? c = none) :
    Lexer.typed cs = cs.filter isNumeric := by
  refine List.filter_congr ?_
  intro c hc
  rw [isKeypadChar, h c hc]
  exact Bool.or_false _

/-- The number of a stretch is laid out in it. -/
theorem layout_ofStretch (start : Nat) {stretch : List Char}
    (h : ∀ c ∈ stretch, Operator.ofChar? c = none) :
    Layout start stretch (Token.ofStretch start stretch) := by
  by_cases hnone : stretch.filter isNumeric = []
  · rw [Token.ofStretch, Numeral.ofStretch?_of_filter_eq_nil hnone]
    exact .nil ((typed_of_not_operator h).trans hnone)
  · obtain ⟨front, inside, back, rfl, hcore⟩ := Numeral.exists_core hnone
    have hinside : Lexer.typed inside = inside.filter isNumeric :=
      typed_of_not_operator fun c hc => h c (by simp [hc])
    rw [Token.ofStretch, Numeral.ofStretch?_of_core hcore]
    simp only [Option.toList_some, List.map_cons, List.map_nil]
    refine ⟨?_, List.pairwise_singleton _ _, ?_, ?_⟩
    · intro t ht
      obtain rfl := List.mem_singleton.mp ht
      simp only [Token.lexeme, Lexeme.chars, String.toList_ofList]
      exact ⟨hcore.filter_ne_nil, inside, ⟨front, back, rfl, rfl⟩, hinside⟩
    · rw [typed_of_not_operator h, hcore.filter_eq]
      simp [Token.lexeme, Lexeme.chars]
    · intro n hn
      obtain rfl := Token.number.inj (List.mem_singleton.mp hn)
      simp only [Span.size_ofSize, ← byteLength_toList, String.toList_ofList,
        decide_eq_true_iff]

/-- The operator that a separator is lies in its place. -/
theorem layout_ofSeparator (offset : Nat) {mode : Mode} (c : Separator mode) :
    Layout offset [c.1] (Token.ofSeparator offset c.1) := by
  obtain ⟨c, hc⟩ := c
  rcases Mode.glyph_of_separates hc with ⟨op, hglyph⟩ | ⟨rfl, hglyph⟩
  · have hop : Operator.ofChar? c = some op := Glyph.ofChar_eq_operator_iff.mp hglyph
    have hkey : isKeypadChar c = true := isKeypadChar_iff_glyph.mpr (.inr ⟨op, hglyph⟩)
    have hsymbol : c = op.symbol := Operator.ofChar?_eq_some_iff.mp hop
    have hsize : byteLength [c] = 1 := by rw [hsymbol]; cases op <;> rfl
    have htyped : Lexer.typed [c] = [op.symbol] := by
      rw [Lexer.typed, List.filter_cons_of_pos hkey, List.filter_nil, hsymbol]
    rw [Token.ofSeparator, hop]
    simp only [Option.toList_some, List.map_cons, List.map_nil]
    refine ⟨?_, List.pairwise_singleton _ _, ?_, ?_⟩
    · intro t ht
      obtain rfl := List.mem_singleton.mp ht
      refine ⟨List.cons_ne_nil _ _, [c], ?_, htyped⟩
      rw [Token.span, ← hsize]
      exact Span.Holds.whole offset [c]
    · rw [htyped]
      rfl
    · intro n hn
      cases List.mem_singleton.mp hn
  · have hkey : ¬ isKeypadChar c = true := by
      rw [isKeypadChar_iff_glyph, hglyph]
      rintro (h | ⟨op, h⟩)
      · cases h
      · cases h
    have hop : Operator.ofChar? c = none := Glyph.ofChar_ne_operator_iff.mp (by simp [hglyph])
    rw [Token.ofSeparator, hop]
    refine .nil ?_
    rw [Lexer.typed, List.filter_cons_of_neg hkey, List.filter_nil]

namespace Cut

variable {mode : Mode}

/-- Stretches have no operators. -/
theorem ofChar?_of_mem (stretch : Stretch mode) : ∀ c ∈ stretch.1, Operator.ofChar? c = none :=
  fun c hc => Mode.ofChar?_of_continues (stretch.2 c hc)

/-- The tokens of closed stretches and their separators are laid out in them. -/
theorem layout_closed (start : Nat) (closed : List (Stretch mode × Separator mode)) :
    Layout start (closedChars closed) (closedTokens start closed) := by
  induction closed generalizing start with
  | nil => exact .nil rfl
  | cons p closed ih =>
      obtain ⟨stretch, c⟩ := p
      have hstretch := layout_ofStretch start (ofChar?_of_mem stretch)
      have hseparator := layout_ofSeparator (start + byteLength stretch.1) c
      have hrest : Layout (start + byteLength (stretch.1 ++ [c.1])) (closedChars closed)
          (closedTokens (start + byteLength stretch.1 + c.1.utf8Size) closed) := by
        rw [byteLength_append, byteLength_cons, byteLength_nil, Nat.add_zero, ← Nat.add_assoc]
        exact ih _
      have hparts := (hstretch.append hseparator).append hrest
      rw [closedChars_cons]
      rwa [List.append_assoc, List.singleton_append] at hparts

/-- **The tokens of a cut are laid out in its text.** -/
theorem layout (k : Cut mode) : Layout 0 k.chars k.tokens := by
  have hclosed := layout_closed 0 k.closed
  have hlast := layout_ofStretch k.lastStart (ofChar?_of_mem k.last)
  refine hclosed.append ?_
  rw [Nat.zero_add]
  exact hlast

/-- The items of a text say the tokens of its cut. -/
theorem items_say {text : String} {k : Cut mode} (h : k.chars = text.toList) :
    Says (Lexer.ofText mode text).items (k.tokens.map Token.lexeme) := by
  rw [Lexer.items_cut h, Says, List.map_map, List.map_map]
  rfl

/-! ### Numbers stay apart -/

/-- The number of a stretch is separate from what follows, if that is no number. -/
theorem separate_ofStretch (start : Nat) (stretch : List Char) {ls : List Lexeme}
    (hnext : ∀ next, ls.head? ≠ some (.number next)) (hls : Lexer.Separate ls) :
    Lexer.Separate ((Token.ofStretch start stretch).map Token.lexeme ++ ls) := by
  by_cases hnone : stretch.filter isNumeric = []
  · rw [Token.ofStretch, Numeral.ofStretch?_of_filter_eq_nil hnone]
    exact hls
  · obtain ⟨front, inside, back, rfl, hcore⟩ := Numeral.exists_core hnone
    rw [Token.ofStretch, Numeral.ofStretch?_of_core hcore]
    simp only [Option.toList_some, List.map_cons, List.map_nil, List.cons_append,
      List.nil_append, Token.lexeme, String.toList_ofList]
    exact ⟨hcore.filter_ne_nil, fun c hc => (List.mem_filter.mp hc).2, hnext, hls⟩

/-- **In permissive mode, no two numbers stand side by side.** -/
theorem separate (k : Cut .permissive) : Lexer.Separate (k.tokens.map Token.lexeme) := by
  have hclosed (closed : List (Stretch .permissive × Separator .permissive)) (start : Nat)
      {ls : List Lexeme} (hls : Lexer.Separate ls) :
      Lexer.Separate ((closedTokens start closed).map Token.lexeme ++ ls) := by
    induction closed generalizing start with
    | nil => exact hls
    | cons p closed ih =>
        obtain ⟨stretch, c, hc⟩ := p
        obtain ⟨op, hop⟩ := Option.isSome_iff_exists.mp hc
        rw [closedTokens, List.map_append, List.map_append, Token.ofSeparator, hop,
          List.append_assoc, List.append_assoc]
        refine separate_ofStretch start stretch.1 ?_ (ih _)
        rintro next ⟨⟩
  have hlast : Lexer.Separate
      ((Token.ofStretch k.lastStart k.last.1).map Token.lexeme ++ []) := by
    refine separate_ofStretch k.lastStart k.last.1 ?_ trivial
    rintro next ⟨⟩
  rw [List.append_nil] at hlast
  rw [tokens, List.map_append]
  exact hclosed k.closed 0 hlast

end Cut

/-! ### Permissive reading -/

namespace Lexer

/-- **Permissive reading is exact.** The operators cut a text into stretches. The calls are
answered with the operators and, between them, the number of each stretch that has a digit
or point, in order; then with nothing, for ever, and never with a fault. So every token
takes up space inside the text, between two of its characters, and before the next token;
the tokens together are what a keypad can type of the text; no two numbers stand side by
side; and a number is gapped exactly if it is shorter than its place, which otherwise holds
just its literal. -/
theorem yields_permissive (text : String) :
    ∃ k : Cut .permissive, k.chars = text.toList ∧
      (ofText .permissive text).Yields (k.tokens.map .ok) ∧
      tokenize .permissive text = .ok k.tokens ∧
      (∀ t ∈ k.tokens, t.span.start < t.span.stop ∧ t.span.stop ≤ text.utf8ByteSize ∧
        ∃ inside, t.span.Holds 0 text.toList inside ∧ typed inside = t.lexeme.chars) ∧
      (k.tokens.Pairwise fun t u => t.span.stop ≤ u.span.start) ∧
      (k.tokens.flatMap fun t => t.lexeme.chars) = typed text.toList ∧
      Separate (k.tokens.map Token.lexeme) ∧
      ∀ n, .number n ∈ k.tokens →
        (n.gapped = true ↔ n.literal.utf8ByteSize < n.span.size) ∧
          (n.gapped = false → n.span.Holds 0 text.toList n.literal.toList) := by
  obtain ⟨k, hk⟩ := Cut.exists_permissive text.toList
  have hitems : (ofText .permissive text).items = k.tokens.map .ok := items_cut hk
  have hlayout : Layout 0 text.toList k.tokens := hk ▸ k.layout
  refine ⟨k, hk, yields_iff.mpr hitems, ?_, ?_, hlayout.ordered, hlayout.complete, k.separate,
    ?_⟩
  · rw [tokenize, hitems, collect_map_ok]
  · intro t ht
    obtain ⟨-, hpos, hstop⟩ := hlayout.bounds ht
    rw [Nat.zero_add, byteLength_toList] at hstop
    exact ⟨hpos, hstop, (hlayout.holds t ht).2⟩
  · intro n hn
    exact ⟨hlayout.gapped n hn, hlayout.holds_literal hn⟩

end Lexer

end Keypad
