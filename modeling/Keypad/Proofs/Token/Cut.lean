import Keypad.Proofs.Token.Lexeme
import Keypad.Proofs.Token.Stretch

/-!
# A text cut at its separators

Some characters end the number in front of them: operators, and in strict mode blanks as
well. They cut a text into stretches, and each stretch makes at most one number. In strict
mode a stretch holds digits and points only, so it is a number as it stands; in permissive
mode it holds anything that is no operator.

**The tokens of a cut** are those of its parts in order: the number of a stretch, if it
makes one, and the operator behind it, if the separator is one. They are said part by part,
with no state between the parts, and the lexer hands out exactly these.

## Main definitions

* `Cut`: a text as stretches and separators in turn; the types say which characters can
  stand where.
* `Cut.tokens`: the tokens of the parts.

## Main results

* `Cut.exists_chars_eq`: every text is cut, if it has only characters that the mode knows.
* `Lexer.stream_cut`: reading a cut hands out the tokens of its closed stretches, and goes
  on with the number of the last one.
* `Lexer.stream_cut_end`, `Lexer.items_cut`: reading a cut to its end hands out its tokens.
-/

namespace Keypad

/-! ### Characters by their class -/

/-- The class of digits and points. -/
theorem Glyph.ofChar_eq_numeric_iff {c : Char} :
    Glyph.ofChar c = .numeric ↔ isNumeric c = true := by
  constructor
  · intro h
    have hspec := Glyph.ofChar_spec c
    rwa [h] at hspec
  · exact Glyph.ofChar_of_isNumeric

/-- The class of the symbol of an operator. -/
theorem Glyph.ofChar_eq_operator_iff {c : Char} {op : Operator} :
    Glyph.ofChar c = .operator op ↔ Operator.ofChar? c = some op := by
  rw [Operator.ofChar?_eq_some_iff]
  constructor
  · intro h
    have hspec := Glyph.ofChar_spec c
    rwa [h] at hspec
  · rintro rfl
    exact Glyph.ofChar_symbol op

/-- Only operators have the class of one. -/
theorem Glyph.ofChar_ne_operator_iff {c : Char} :
    (∀ op, Glyph.ofChar c ≠ .operator op) ↔ Operator.ofChar? c = none := by
  simp only [ne_eq, Glyph.ofChar_eq_operator_iff, Option.eq_none_iff_forall_ne_some]

/-- Neither a digit, a point, an operator nor a blank. -/
def isForeign (c : Char) : Bool :=
  !isKeypadChar c && !isBlank c

/-- The class of foreign characters. -/
theorem Glyph.ofChar_eq_foreign_iff {c : Char} :
    Glyph.ofChar c = .foreign ↔ isForeign c = true := by
  rw [isForeign, Bool.and_eq_true, Bool.not_eq_true', Bool.not_eq_true']
  constructor
  · intro h
    have hspec := Glyph.ofChar_spec c
    rwa [h] at hspec
  · rintro ⟨hkey, hblank⟩
    have hspec := Glyph.ofChar_spec c
    cases hglyph : Glyph.ofChar c with
    | foreign => rfl
    | numeric => rw [isKeypadChar_iff_glyph.mpr (.inl hglyph)] at hkey; exact nomatch hkey
    | operator op =>
        rw [isKeypadChar_iff_glyph.mpr (.inr ⟨op, hglyph⟩)] at hkey
        exact nomatch hkey
    | blank =>
        rw [hglyph] at hspec
        exact nomatch hblank.symm.trans hspec

namespace Mode

/-- Whether a character ends the stretch in front of it. An operator does, and in strict
mode a blank does as well. -/
def separates : Mode → Char → Bool
  | .permissive, c => (Operator.ofChar? c).isSome
  | .strict, c => (Operator.ofChar? c).isSome || isBlank c

/-- Whether a character can stand in a stretch. In permissive mode everything can that is no
operator, and in strict mode digits and points can. -/
def continues : Mode → Char → Bool
  | .permissive, c => (Operator.ofChar? c).isNone
  | .strict, c => isNumeric c

/-- The classes of separators. -/
theorem glyph_of_separates {mode : Mode} {c : Char} (h : mode.separates c = true) :
    (∃ op, Glyph.ofChar c = .operator op) ∨ mode = .strict ∧ Glyph.ofChar c = .blank := by
  have hoperator (h : (Operator.ofChar? c).isSome = true) :
      ∃ op, Glyph.ofChar c = .operator op := by
    obtain ⟨op, hop⟩ := Option.isSome_iff_exists.mp h
    exact ⟨op, Glyph.ofChar_eq_operator_iff.mpr hop⟩
  cases mode with
  | permissive => exact .inl (hoperator h)
  | strict =>
      rcases Bool.or_eq_true_iff.mp h with h | h
      · exact .inl (hoperator h)
      · exact .inr ⟨rfl, Glyph.ofChar_of_isBlank h⟩

/-- The classes of the characters of a stretch. -/
theorem glyph_of_continues {mode : Mode} {c : Char} (h : mode.continues c = true) :
    Glyph.ofChar c = .numeric ∨
      mode = .permissive ∧ (Glyph.ofChar c = .blank ∨ Glyph.ofChar c = .foreign) := by
  cases mode with
  | strict => exact .inl (Glyph.ofChar_of_isNumeric h)
  | permissive =>
      have hop := Glyph.ofChar_ne_operator_iff.mpr (Option.isNone_iff_eq_none.mp h)
      cases hglyph : Glyph.ofChar c with
      | numeric => exact .inl rfl
      | operator op => exact absurd hglyph (hop op)
      | blank => exact .inr ⟨rfl, .inl rfl⟩
      | foreign => exact .inr ⟨rfl, .inr rfl⟩

/-- No character of a stretch is an operator. -/
theorem ofChar?_of_continues {mode : Mode} {c : Char} (h : mode.continues c = true) :
    Operator.ofChar? c = none := by
  refine Glyph.ofChar_ne_operator_iff.mp ?_
  intro op hop
  rcases glyph_of_continues h with hglyph | ⟨-, hglyph | hglyph⟩
  · exact nomatch hop.symm.trans hglyph
  · exact nomatch hop.symm.trans hglyph
  · exact nomatch hop.symm.trans hglyph

/-- A character can stand in a stretch or ends one, or strict reading stops at it. -/
theorem continues_or_separates (mode : Mode) (c : Char) :
    mode.continues c = true ∨ mode.separates c = true ∨
      mode = .strict ∧ isForeign c = true := by
  cases mode with
  | permissive =>
      rw [continues, separates]
      cases Operator.ofChar? c with
      | none => exact .inl rfl
      | some op => exact .inr (.inl rfl)
  | strict =>
      rw [continues, separates]
      cases hglyph : Glyph.ofChar c with
      | numeric => exact .inl (Glyph.ofChar_eq_numeric_iff.mp hglyph)
      | operator op =>
          rw [Glyph.ofChar_eq_operator_iff.mp hglyph]
          exact .inr (.inl rfl)
      | blank =>
          have hspec := Glyph.ofChar_spec c
          rw [hglyph] at hspec
          exact .inr (.inl (by rw [hspec, Bool.or_true]))
      | foreign => exact .inr (.inr ⟨rfl, Glyph.ofChar_eq_foreign_iff.mp hglyph⟩)

end Mode

/-! ### Cuts -/

/-- Characters with no separator among them. -/
abbrev Stretch (mode : Mode) := { cs : List Char // ∀ c ∈ cs, mode.continues c = true }

/-- A character that ends a stretch. -/
abbrev Separator (mode : Mode) := { c : Char // mode.separates c = true }

/-- A text as its stretches and the separators between them. -/
structure Cut (mode : Mode) where
  /-- The stretches that are closed, each with the separator behind it. -/
  closed : List (Stretch mode × Separator mode)
  /-- The stretch behind the last separator. -/
  last : Stretch mode

/-- The tokens of a stretch that begins at `start`: its number, if it makes one. -/
def Token.ofStretch (start : Nat) (stretch : List Char) : List Token :=
  (Numeral.ofStretch? start stretch).toList.map .number

/-- The tokens of a separator: the operator, if it is one. -/
def Token.ofSeparator (offset : Nat) (c : Char) : List Token :=
  (Operator.ofChar? c).toList.map (.operator · offset)

namespace Cut

variable {mode : Mode}

/-- The characters of closed stretches and their separators. -/
def closedChars (closed : List (Stretch mode × Separator mode)) : List Char :=
  closed.flatMap fun p => p.1.1 ++ [p.2.1]

/-- The tokens of closed stretches and their separators, which begin at `start`. -/
def closedTokens (start : Nat) : List (Stretch mode × Separator mode) → List Token
  | [] => []
  | (stretch, c) :: closed =>
      let stop := start + byteLength stretch.1
      Token.ofStretch start stretch.1 ++ Token.ofSeparator stop c.1 ++
        closedTokens (stop + c.1.utf8Size) closed

/-- The text that is cut. -/
def chars (k : Cut mode) : List Char :=
  closedChars k.closed ++ k.last.1

/-- Where the last stretch begins. -/
def lastStart (k : Cut mode) : Nat :=
  byteLength (closedChars k.closed)

/-- **The tokens of a cut**, part by part. -/
def tokens (k : Cut mode) : List Token :=
  closedTokens 0 k.closed ++ Token.ofStretch k.lastStart k.last.1

theorem closedChars_cons (stretch : Stretch mode) (c : Separator mode)
    (closed : List (Stretch mode × Separator mode)) :
    closedChars ((stretch, c) :: closed) = stretch.1 ++ c.1 :: closedChars closed := by
  rw [closedChars, List.flatMap_cons, List.append_assoc, List.singleton_append]
  rfl

/-- **Every text is cut**, if each of its characters can stand in a stretch or ends one. -/
theorem exists_chars_eq {cs : List Char}
    (h : ∀ c ∈ cs, mode.separates c = true ∨ mode.continues c = true) :
    ∃ k : Cut mode, k.chars = cs := by
  induction cs with
  | nil => exact ⟨⟨[], [], nofun⟩, rfl⟩
  | cons c cs ih =>
      obtain ⟨hc, hcs⟩ := List.forall_mem_cons.mp h
      obtain ⟨⟨closed, last⟩, rfl⟩ := ih hcs
      rcases hc with hc | hc
      · refine ⟨⟨(⟨[], nofun⟩, ⟨c, hc⟩) :: closed, last⟩, ?_⟩
        rw [chars, closedChars_cons]
        rfl
      · -- the character belongs to the first stretch, whether or not that is closed
        have hadd (stretch : Stretch mode) : ∀ d ∈ c :: stretch.1, mode.continues d = true :=
          List.forall_mem_cons.mpr ⟨hc, stretch.2⟩
        cases closed with
        | nil => exact ⟨⟨[], c :: last.1, hadd last⟩, rfl⟩
        | cons p closed =>
            obtain ⟨stretch, d⟩ := p
            refine ⟨⟨(⟨c :: stretch.1, hadd stretch⟩, d) :: closed, last⟩, ?_⟩
            rw [chars, closedChars_cons, chars, closedChars_cons]
            rfl

/-- In permissive mode every text is cut. -/
theorem exists_permissive (cs : List Char) : ∃ k : Cut .permissive, k.chars = cs := by
  refine exists_chars_eq ?_
  intro c _
  rcases Mode.continues_or_separates .permissive c with hc | hc | ⟨hmode, -⟩
  · exact .inr hc
  · exact .inl hc
  · exact nomatch hmode

/-- In strict mode a text is cut if it has no foreign character. -/
theorem exists_strict {cs : List Char} (h : ∀ c ∈ cs, isForeign c = false) :
    ∃ k : Cut .strict, k.chars = cs := by
  refine exists_chars_eq ?_
  intro c hc
  rcases Mode.continues_or_separates .strict c with hcontinues | hseparates | ⟨-, hforeign⟩
  · exact .inr hcontinues
  · exact .inl hseparates
  · exact nomatch (h c hc).symm.trans hforeign

end Cut

/-! ### Reading a cut -/

namespace Lexer

/-- When a stretch ends, its tokens are handed out. -/
theorem flush_ofStretch? (start : Nat) (stretch : List Char) :
    flush (Numeral.ofStretch? start stretch) = (Token.ofStretch start stretch).map .ok := by
  rw [flush, Token.ofStretch, List.map_map]
  rfl

/-- **Reading a stretch** leaves its number to be handed out. A part of the stretch can be
read already. -/
theorem stream_stretch (source : String) {mode : Mode} {stretch : List Char}
    (h : ∀ c ∈ stretch, mode.continues c = true) (start : Nat) (read cs : List Char) :
    stream source mode (Numeral.ofStretch? start read) (start + byteLength read)
        (stretch ++ cs) =
      stream source mode (Numeral.ofStretch? start (read ++ stretch))
        (start + byteLength (read ++ stretch)) cs := by
  induction stretch generalizing read with
  | nil => rw [List.nil_append, List.append_nil]
  | cons c stretch ih =>
      obtain ⟨hc, hstretch⟩ := List.forall_mem_cons.mp h
      have hnext := ih hstretch (read ++ [c])
      rw [List.append_assoc, List.singleton_append, byteLength_append, byteLength_cons,
        byteLength_nil, Nat.add_zero, ← Nat.add_assoc] at hnext
      rw [← hnext, List.cons_append]
      rcases Mode.glyph_of_continues hc with hglyph | ⟨rfl, hglyph⟩
      · rw [Numeral.ofStretch?_concat (Glyph.ofChar_eq_numeric_iff.mp hglyph)]
        exact stream_numeric _ _ _ _ _ hglyph
      · have hnot : isNumeric c = false := by
          refine Bool.eq_false_iff.mpr fun hnumeric => ?_
          rw [Glyph.ofChar_of_isNumeric hnumeric] at hglyph
          rcases hglyph with hblank | hforeign
          · cases hblank
          · cases hforeign
        rw [Numeral.ofStretch?_concat_of_not hnot]
        exact stream_skip _ _ _ _ hglyph

/-- **Reading a separator** hands out the number in front of it, and the operator if it is
one. -/
theorem stream_separator (source : String) {mode : Mode} (c : Separator mode)
    (pending : Option Numeral) (offset : Nat) (cs : List Char) :
    stream source mode pending offset (c.1 :: cs) =
      flush pending ++ (Token.ofSeparator offset c.1).map .ok ++
        stream source mode none (offset + c.1.utf8Size) cs := by
  obtain ⟨c, hc⟩ := c
  rcases Mode.glyph_of_separates hc with ⟨op, hglyph⟩ | ⟨rfl, hglyph⟩
  · rw [stream_operator _ _ _ _ _ hglyph, Token.ofSeparator,
      Glyph.ofChar_eq_operator_iff.mp hglyph, List.append_assoc]
    rfl
  · have hop : Operator.ofChar? c = none := Glyph.ofChar_ne_operator_iff.mp (by simp [hglyph])
    rw [stream_blank _ _ _ _ hglyph, Token.ofSeparator, hop, Option.toList_none, List.map_nil,
      List.map_nil, List.append_nil]

/-- Reading closed stretches hands out their tokens. -/
theorem stream_closed (source : String) {mode : Mode}
    (closed : List (Stretch mode × Separator mode)) (start : Nat) (cs : List Char) :
    stream source mode none start (Cut.closedChars closed ++ cs) =
      (Cut.closedTokens start closed).map .ok ++
        stream source mode none (start + byteLength (Cut.closedChars closed)) cs := by
  induction closed generalizing start with
  | nil => rfl
  | cons p closed ih =>
      obtain ⟨stretch, c⟩ := p
      have hstretch := stream_stretch source stretch.2 start []
        (c.1 :: (Cut.closedChars closed ++ cs))
      rw [List.nil_append] at hstretch
      rw [Cut.closedChars_cons, List.append_assoc, List.cons_append]
      refine hstretch.trans ?_
      rw [stream_separator, ih, flush_ofStretch?, Cut.closedTokens, byteLength_append,
        byteLength_cons, List.map_append, List.map_append, List.append_assoc]
      simp only [Nat.add_assoc, List.append_assoc]

/-- **Reading a cut** hands out the tokens of its closed stretches, and goes on with the
number of the last one. -/
theorem stream_cut (source : String) {mode : Mode} (k : Cut mode) (cs : List Char) :
    stream source mode none 0 (k.chars ++ cs) =
      (Cut.closedTokens 0 k.closed).map .ok ++
        stream source mode (Numeral.ofStretch? k.lastStart k.last.1) (byteLength k.chars)
          cs := by
  have hlast := stream_stretch source k.last.2 k.lastStart [] cs
  rw [List.nil_append] at hlast
  rw [Cut.chars, List.append_assoc, stream_closed, Nat.zero_add, byteLength_append]
  exact congrArg _ hlast

/-- **Reading a cut to its end hands out its tokens.** -/
theorem stream_cut_end (source : String) {mode : Mode} (k : Cut mode) :
    stream source mode none 0 k.chars = k.tokens.map .ok := by
  have hcut := stream_cut source k []
  rw [List.append_nil] at hcut
  rw [hcut, stream, flush_ofStretch?, Cut.tokens, List.map_append]

/-- The items of a text that is cut are its tokens. -/
theorem items_cut {text : String} {mode : Mode} {k : Cut mode} (h : k.chars = text.toList) :
    (ofText mode text).items = k.tokens.map .ok := by
  rw [items_ofText, ← h, stream_cut_end]

end Lexer

/-! ### All tokens at once -/

/-- Tokens without a fault are all collected. -/
theorem collect_map_ok (tokens : List Token) : collect (tokens.map .ok) = .ok tokens := by
  induction tokens with
  | nil => rfl
  | cons token tokens ih =>
      rw [List.map_cons, collect, ih]
      rfl

/-- A fault behind tokens ends the collection. -/
theorem collect_append_error (tokens : List Token) (fault : Fault) :
    collect (tokens.map .ok ++ [.error fault]) = .error fault := by
  induction tokens with
  | nil => rfl
  | cons token tokens ih =>
      rw [List.map_cons, List.cons_append, collect, ih]
      rfl

end Keypad
