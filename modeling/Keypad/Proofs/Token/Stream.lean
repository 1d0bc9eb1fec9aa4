import Keypad.Token.Lexer

/-!
# The items of a text in one recursion

A lexer hands out its items one at a time and keeps a token in its queue between two steps.
For statements about whole texts this module gives the same items by a single recursion on
the characters, `Lexer.stream`: a number that ends and the operator that ends it come out
together, so there is no queue.

Both walk through the rounds of the lexer, so that the characters are told apart in one place.

## Main results

* `Lexer.stream_numeric`, `Lexer.stream_operator`, `Lexer.stream_blank`,
  `Lexer.stream_foreign`, `Lexer.stream_skip`: what each class of characters does.
* `Lexer.items_eq_stream`: what a lexer still has to hand out is its queue and then the
  stream of its characters.
* `Lexer.faultLast_stream`: a stream is tokens, and possibly one fault behind them.
* `Lexer.kind_of_error_mem_stream`: the only fault of a stream is a malformed text.
-/

namespace Keypad

/-! ### Classes of characters -/

/-- A character is numeric exactly when its class says so. -/
theorem Glyph.ofChar_of_isNumeric {c : Char} (h : isNumeric c = true) :
    Glyph.ofChar c = .numeric := by
  rw [Glyph.ofChar, if_pos h]

/-- The symbol of an operator is not numeric, so its class is that operator. -/
theorem Glyph.ofChar_symbol (op : Operator) : Glyph.ofChar op.symbol = .operator op := by
  cases op <;> rfl

/-- A blank is neither numeric nor the symbol of an operator. -/
theorem Glyph.ofChar_of_isBlank {c : Char} (h : isBlank c = true) :
    Glyph.ofChar c = .blank := by
  have hnumeric : ¬ isNumeric c = true := by
    intro hc
    rw [isNumeric, Bool.or_eq_true, beq_iff_eq] at hc
    rcases hc with hc | rfl
    · have hrange : 48 ≤ c.toNat ∧ c.toNat ≤ 57 := by
        simpa [Char.isDigit, UInt32.le_iff_toNat_le] using hc
      simp only [isBlank, blankRanges, List.any_cons, List.any_nil, Bool.or_eq_true,
        Bool.and_eq_true, decide_eq_true_eq, Bool.or_false] at h
      omega
    · exact absurd h (by decide)
  have hop : Operator.ofChar? c = none := by
    cases hop : Operator.ofChar? c with
    | none => rfl
    | some op =>
        rw [Operator.ofChar?_eq_some_iff.mp hop] at h
        cases op <;> exact absurd h (by decide)
  rw [Glyph.ofChar, if_neg hnumeric, hop]
  exact if_pos h

/-- What each class says about its characters. -/
theorem Glyph.ofChar_spec (c : Char) :
    match Glyph.ofChar c with
    | .numeric => isNumeric c = true
    | .operator op => c = op.symbol
    | .blank => isBlank c = true
    | .foreign => isKeypadChar c = false ∧ isBlank c = false := by
  by_cases hnumeric : isNumeric c = true
  · rw [ofChar_of_isNumeric hnumeric]
    exact hnumeric
  · rw [ofChar, if_neg hnumeric]
    cases hop : Operator.ofChar? c with
    | some op => exact Operator.ofChar?_eq_some_iff.mp hop
    | none =>
        by_cases hblank : isBlank c = true <;> simp [isKeypadChar, hnumeric, hop, hblank]

/-- The class of a character that a keypad can type. -/
theorem isKeypadChar_iff_glyph {c : Char} :
    isKeypadChar c = true ↔
      Glyph.ofChar c = .numeric ∨ ∃ op, Glyph.ofChar c = .operator op := by
  rw [isKeypadChar, Glyph.ofChar, Bool.or_eq_true]
  split
  · next h => simp [h]
  · next h =>
      cases hop : Operator.ofChar? c with
      | none =>
          by_cases hblank : isBlank c = true <;> simp [h, hblank]
      | some op => simp

/-- A keypad cannot type a blank. -/
theorem isBlank_of_isKeypadChar {c : Char} (h : isKeypadChar c = true) : isBlank c = false := by
  cases hblank : isBlank c with
  | false => rfl
  | true =>
      rcases isKeypadChar_iff_glyph.mp h with hglyph | ⟨op, hglyph⟩
      · rw [Glyph.ofChar_of_isBlank hblank] at hglyph
        exact nomatch hglyph
      · rw [Glyph.ofChar_of_isBlank hblank] at hglyph
        exact nomatch hglyph

/-! ### The stream -/

namespace Lexer

/-- What is handed out when a number ends: the number, if one was being read. -/
def flush (pending : Option Numeral) : List Item :=
  pending.toList.map fun n => .ok (.number n)

/-- All items of the characters, with the number read so far. A round that hands out a token
is followed by what is queued, and nothing follows a fault. -/
def stream (source : String) (mode : Mode) (pending : Option Numeral) (offset : Nat) :
    List Char → List Item
  | [] => flush pending
  | c :: rest =>
      let after := offset + c.utf8Size
      match round source mode pending offset c with
      | .goOn pending => stream source mode pending after rest
      | .handOut token queued =>
          .ok token :: (queued.toList.map .ok ++ stream source mode none after rest)
      | .giveUp fault => [.error fault]

section Classes

variable {c : Char} {op : Operator} (source : String) (mode : Mode) (pending : Option Numeral)
  (offset : Nat) (rest : List Char)

/-- A numeric character goes into the number. -/
theorem stream_numeric (h : Glyph.ofChar c = .numeric) :
    stream source mode pending offset (c :: rest) =
      stream source mode (some (Numeral.extend pending c offset)) (offset + c.utf8Size) rest := by
  simp only [stream, round, h]

/-- An operator ends the number, and comes out behind it. -/
theorem stream_operator (h : Glyph.ofChar c = .operator op) :
    stream source mode pending offset (c :: rest) =
      flush pending ++ .ok (.operator op offset) ::
        stream source mode none (offset + c.utf8Size) rest := by
  cases pending with
  | none => simp only [stream, round, h]; rfl
  | some n => simp only [stream, round, h]; rfl

/-- In strict mode a blank ends the number. -/
theorem stream_blank (h : Glyph.ofChar c = .blank) :
    stream source .strict pending offset (c :: rest) =
      flush pending ++ stream source .strict none (offset + c.utf8Size) rest := by
  cases pending with
  | none => simp only [stream, round, h]; rfl
  | some n => simp only [stream, round, h]; rfl

/-- In strict mode a foreign character is a fault. -/
theorem stream_foreign (h : Glyph.ofChar c = .foreign) :
    stream source .strict pending offset (c :: rest) =
      [.error (.unexpectedCharacter c ⟨source, .ofSize offset c.utf8Size⟩)] := by
  simp only [stream, round, h]

/-- In permissive mode blanks and foreign characters are skipped. -/
theorem stream_skip (h : Glyph.ofChar c = .blank ∨ Glyph.ofChar c = .foreign) :
    stream source .permissive pending offset (c :: rest) =
      stream source .permissive pending (offset + c.utf8Size) rest := by
  rcases h with h | h
  · simp only [stream, round, h]
  · simp only [stream, round, h]

end Classes

/-- What a lexer has read already and not yet handed out. -/
def queue (l : Lexer) : List Item :=
  l.queued.toList.map .ok

/-- What a step leads to: its item, and then all that the lexer after it holds. -/
def unfolded : Option Item × Lexer → List Item
  | (none, _) => []
  | (some item, l) => item :: (l.queue ++ stream l.source l.mode none l.offset l.rest)

/-- Reading on until a token is complete takes the first item off the stream. -/
theorem stream_eq_scan (source : String) (mode : Mode) (pending : Option Numeral)
    (offset : Nat) (cs : List Char) :
    stream source mode pending offset cs = unfolded (scan source mode pending offset cs) := by
  induction cs generalizing pending offset with
  | nil => cases pending <;> rfl
  | cons c rest ih =>
      rw [stream, scan]
      cases round source mode pending offset c with
      | goOn pending => exact ih pending _
      | handOut token queued => rfl
      | giveUp fault => rfl

/-- A step takes the first item off what the lexer holds. -/
theorem unfolded_next (l : Lexer) :
    l.queue ++ stream l.source l.mode none l.offset l.rest = unfolded l.next := by
  obtain ⟨source, mode, rest, offset, _ | token⟩ := l
  · exact stream_eq_scan source mode none offset rest
  · rfl

/-- **A lexer hands out its queue and then the stream of its characters.** -/
theorem items_eq_stream (l : Lexer) :
    l.items = l.queue ++ stream l.source l.mode none l.offset l.rest := by
  rw [unfolded_next]
  fun_induction items l with
  | case1 l l' h => rw [h]; rfl
  | case2 l item l' h ih => rw [h, unfolded, unfolded_next, ih]

/-- The items of a text are the stream of its characters. -/
theorem items_ofText (mode : Mode) (text : String) :
    (ofText mode text).items = stream text mode none 0 text.toList :=
  items_eq_stream _

end Lexer

/-! ### Faults come last -/

/-- Tokens, and possibly one fault behind them, about a character. -/
def FaultLast (items : List Item) : Prop :=
  ∃ tokens : List Token, items = tokens.map .ok ∨
    ∃ c site, items = tokens.map .ok ++ [.error (.unexpectedCharacter c site)]

namespace FaultLast

variable {front items left : List Item} {fault : Fault}

/-- Tokens may stand in front. -/
theorem append_left (h : FaultLast items) (tokens : List Token) :
    FaultLast (tokens.map .ok ++ items) := by
  obtain ⟨behind, rfl | ⟨c, site, rfl⟩⟩ := h
  · exact ⟨tokens ++ behind, .inl (List.map_append).symm⟩
  · exact ⟨tokens ++ behind, .inr ⟨c, site, by rw [List.map_append, List.append_assoc]⟩⟩

/-- Some last items are of the same kind. -/
theorem of_append (h : FaultLast (front ++ items)) : FaultLast items := by
  induction front with
  | nil => exact h
  | cons item front ih =>
      refine ih ?_
      obtain ⟨_ | ⟨token, tokens⟩, h | ⟨c, site, h⟩⟩ := h
      · cases h
      · exact ⟨[], .inl (List.cons.inj h).2⟩
      · exact ⟨tokens, .inl (List.cons.inj h).2⟩
      · exact ⟨tokens, .inr ⟨c, site, (List.cons.inj h).2⟩⟩

/-- A fault is the last item, and it is about a character. -/
theorem of_error (h : FaultLast (.error fault :: left)) :
    left = [] ∧ ∃ c site, fault = .unexpectedCharacter c site := by
  obtain ⟨_ | ⟨token, tokens⟩, h | ⟨c, site, h⟩⟩ := h
  · cases h
  · obtain ⟨hfault, hleft⟩ := List.cons.inj h
    exact ⟨hleft, c, site, Except.error.inj hfault⟩
  · cases (List.cons.inj h).1
  · cases (List.cons.inj h).1

/-- Every fault is about a character. -/
theorem of_mem (h : FaultLast items) (hmem : .error fault ∈ items) :
    ∃ c site, fault = .unexpectedCharacter c site := by
  obtain ⟨front, behind, rfl⟩ := List.append_of_mem hmem
  exact h.of_append.of_error.2

end FaultLast

namespace Lexer

/-- **The items of a text are tokens, and possibly one fault behind them.** -/
theorem faultLast_stream (source : String) (mode : Mode) (pending : Option Numeral)
    (offset : Nat) (cs : List Char) : FaultLast (stream source mode pending offset cs) := by
  have hflush (p : Option Numeral) : flush p = (p.toList.map Token.number).map .ok := by
    cases p <;> rfl
  induction cs generalizing pending offset with
  | nil => exact ⟨_, .inl (hflush pending)⟩
  | cons c rest ih =>
      cases hglyph : Glyph.ofChar c with
      | numeric =>
          rw [stream_numeric _ _ _ _ _ hglyph]
          exact ih _ _
      | operator op =>
          rw [stream_operator _ _ _ _ _ hglyph, hflush]
          exact ((ih _ _).append_left [.operator op offset]).append_left _
      | blank =>
          cases mode with
          | permissive =>
              rw [stream_skip _ _ _ _ (.inl hglyph)]
              exact ih _ _
          | strict =>
              rw [stream_blank _ _ _ _ hglyph, hflush]
              exact (ih _ _).append_left _
      | foreign =>
          cases mode with
          | permissive =>
              rw [stream_skip _ _ _ _ (.inr hglyph)]
              exact ih _ _
          | strict =>
              rw [stream_foreign _ _ _ _ hglyph]
              exact ⟨[], .inr ⟨c, _, rfl⟩⟩

/-- The items of a text are so. -/
theorem faultLast_items (mode : Mode) (text : String) : FaultLast (ofText mode text).items := by
  rw [items_ofText]
  exact faultLast_stream ..

/-- Every fault of a stream says that the text is malformed. -/
theorem kind_of_error_mem_stream {source : String} {mode : Mode} {pending : Option Numeral}
    {offset : Nat} {cs : List Char} {fault : Fault}
    (h : .error fault ∈ stream source mode pending offset cs) : fault.kind = .malformed := by
  obtain ⟨c, site, rfl⟩ := (faultLast_stream source mode pending offset cs).of_mem h
  rfl

end Lexer

end Keypad
