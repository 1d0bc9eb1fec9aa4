import Keypad.Proofs.Expression.Blame
import Keypad.Proofs.Token.Placed

/-!
# Diagnostics point at what they name

A fault carries a copy of the text and a place in it, and a reader is shown the text with
the place marked. Nothing else depends on these places, so a wrong offset would change no
value; this module says that there is none. The place is a part of the text that is not
empty and begins and ends between two characters, and **what stands there is what the fault
names**. Some faults are about the neighbourhood of the place as well: nothing follows a
trailing operator, and a divisor stands behind a `/`.

## Main definitions

* `Site.Marks`: the part of a text that a site marks.
* `Fault.Describes`: what stands at the place of a fault.

## Main results

* `Parser.Blames.describes`: a fault about the items of a text describes the text.
* `diagnostic_describes`: **so does every fault** of evaluation, and of every call of a
  parser.
-/

namespace Keypad

/-! ### What a fault says about a text -/

/-- The site marks the part `inside` of the text. -/
structure Site.Marks (site : Site) (text : String) (before inside after : List Char) :
    Prop where
  source : site.source = text
  toList : text.toList = before ++ inside ++ after
  span : site.span = .ofSize (byteLength before) (byteLength inside)
  ne_nil : inside ≠ []

/-- A part of a text that was read as one number: it begins and ends with a digit or point,
and has no operator. -/
structure NumberPart (inside : List Char) : Prop where
  first : ∃ c cs, inside = c :: cs ∧ isNumeric c = true
  last : ∃ cs c, inside = cs ++ [c] ∧ isNumeric c = true
  operator : ∀ c ∈ inside, Operator.ofChar? c = none

/-- **What stands at the place of a fault**, and around it. -/
def Fault.Describes (text : String) : Fault → Prop
  /- The divisor is worth zero, and the nearest character in front that can be typed is
  `/`. -/
  | divisionByZero site => ∃ before gap inside after x,
      site.Marks text (before ++ '/' :: gap) inside after ∧
        (∀ c ∈ gap, isKeypadChar c = false) ∧ NumberPart inside ∧
        Binary64.ofLiteral? (String.ofList (inside.filter isNumeric)) = some x ∧
        (x == 0.0) = true
  | expectedNumber found site => ∃ before after, site.Marks text before [found.symbol] after
  /- The number is a whole run of digits and points, and blanks part it from a digit or
  point in front. -/
  | expectedOperator site => ∃ before c gap inside after,
      site.Marks text (before ++ c :: gap) inside after ∧
        isNumeric c = true ∧ gap ≠ [] ∧ (∀ d ∈ gap, isBlank d = true) ∧
        (∀ d ∈ inside, isNumeric d = true) ∧ NumberEnds after
  /- Nothing that can be typed follows. -/
  | trailingOperator site => ∃ before, ∃ op : Operator, ∃ after,
      site.Marks text before [op.symbol] after ∧ ∀ c ∈ after, isKeypadChar c = false
  /- The digits and points are no literal: no digit is among them, or several points. -/
  | invalidNumber literal site => ∃ before inside after,
      site.Marks text before inside after ∧ NumberPart inside ∧
        literal.toList = inside.filter isNumeric ∧
        ((∀ c ∈ literal.toList, c.isDigit = false) ∨ 1 < literal.toList.count '.')
  | unexpectedCharacter c site => ∃ before after, site.Marks text before [c] after
  | emptyExpression => True
  | reciprocalOfZero | nonFiniteResult => False

/-- What a site marks is a part of the text, between two of its characters. -/
theorem Site.Marks.holds {site : Site} {text : String} {before inside after : List Char}
    (h : site.Marks text before inside after) :
    site.source = text ∧ site.span.start < site.span.stop ∧
      site.span.stop ≤ text.utf8ByteSize ∧ site.span.Holds 0 text.toList inside := by
  have hholds : site.span.Holds 0 text.toList inside :=
    ⟨before, after, h.toList, by rw [Nat.zero_add]; exact h.span⟩
  obtain ⟨-, hstop, hend⟩ := hholds.bounds
  have hsize : byteLength inside ≠ 0 := mt byteLength_eq_zero_iff.mp h.ne_nil
  rw [Nat.zero_add, byteLength_toList] at hend
  exact ⟨h.source, by omega, hend, hholds⟩

/-- Whatever a fault describes, its site marks a part of the text. -/
theorem Fault.Describes.marks {text : String} {fault : Fault} {site : Site}
    (h : fault.Describes text) (hsite : fault.site? = some site) :
    ∃ before inside after, site.Marks text before inside after := by
  cases fault with
  | divisionByZero site' =>
      obtain rfl := Option.some.inj hsite
      obtain ⟨before, gap, inside, after, x, hmarks, -⟩ := h
      exact ⟨_, _, _, hmarks⟩
  | expectedNumber found site' =>
      obtain rfl := Option.some.inj hsite
      obtain ⟨before, after, hmarks⟩ := h
      exact ⟨_, _, _, hmarks⟩
  | expectedOperator site' =>
      obtain rfl := Option.some.inj hsite
      obtain ⟨before, c, gap, inside, after, hmarks, -⟩ := h
      exact ⟨_, _, _, hmarks⟩
  | trailingOperator site' =>
      obtain rfl := Option.some.inj hsite
      obtain ⟨before, op, after, hmarks, -⟩ := h
      exact ⟨_, _, _, hmarks⟩
  | invalidNumber literal site' =>
      obtain rfl := Option.some.inj hsite
      obtain ⟨before, inside, after, hmarks, -⟩ := h
      exact ⟨_, _, _, hmarks⟩
  | unexpectedCharacter c site' =>
      obtain rfl := Option.some.inj hsite
      obtain ⟨before, after, hmarks⟩ := h
      exact ⟨_, _, _, hmarks⟩
  | reciprocalOfZero | nonFiniteResult | emptyExpression => exact nomatch hsite

/-! ### The items that remain -/

/-- The text has been read up to the end of `before`, and the items stand in what is left. -/
structure Remain (mode : Mode) (text : String) (before after : List Char)
    (items : List Item) : Prop where
  toList : text.toList = before ++ after
  placed : Placed text mode (byteLength before) after items

/-- Last items of a text remain at some place of it. -/
theorem exists_remain {mode : Mode} {text : String} {items : List Item}
    (h : items <:+ (Lexer.ofText mode text).items) :
    ∃ before after, Remain mode text before after items := by
  obtain ⟨front, hitems⟩ := h
  have hplaced := Placed.items_ofText mode text
  rw [← hitems] at hplaced
  obtain ⟨before, after, htext, hafter⟩ := hplaced.drop
  rw [Nat.zero_add] at hafter
  exact ⟨before, after, htext, hafter⟩

/-- Items in a row among those of a text remain at some place of it, with others behind. -/
theorem exists_remain_append {mode : Mode} {text : String} {part : List Item}
    (h : part <:+: (Lexer.ofText mode text).items) :
    ∃ before after back, Remain mode text before after (part ++ back) := by
  obtain ⟨front, back, hitems⟩ := h
  rw [List.append_assoc] at hitems
  obtain ⟨before, after, hremain⟩ := exists_remain ⟨front, hitems⟩
  exact ⟨before, after, back, hremain⟩

namespace Remain

variable {mode : Mode} {text : String} {before after : List Char} {items : List Item}

/-- The place of an operator that comes next. -/
theorem operator {op : Operator} {offset : Nat}
    (h : Remain mode text before after (.ok (.operator op offset) :: items)) :
    ∃ gap after',
      (⟨text, .ofSize offset 1⟩ : Site).Marks text (before ++ gap) [op.symbol] after' ∧
        Remain mode text (before ++ gap ++ [op.symbol]) after' items := by
  obtain ⟨gap, after', -, rfl, rfl, hrest⟩ := h.placed.of_operator
  have htext : text.toList = before ++ gap ++ [op.symbol] ++ after' := by
    rw [h.toList]
    simp
  have hsize : byteLength [op.symbol] = 1 := by simp
  refine ⟨gap, after', ⟨rfl, htext, ?_, List.cons_ne_nil _ _⟩, htext, ?_⟩
  · rw [byteLength_append, hsize]
  · rw [byteLength_append, byteLength_append, hsize]
    exact hrest

/-- The place of a number that comes next. -/
theorem number {n : Numeral} (h : Remain mode text before after (.ok (.number n) :: items)) :
    ∃ gap inside after', (∀ c ∈ gap, mode.skips c = true) ∧
      after = gap ++ inside ++ after' ∧
      NumberAt mode (byteLength (before ++ gap)) inside n ∧ NumberEnds after' ∧
      (⟨text, n.span⟩ : Site).Marks text (before ++ gap) inside after' ∧
      Remain mode text (before ++ gap ++ inside) after' items := by
  obtain ⟨gap, inside, after', hgap, rfl, hnumber, hends, hrest⟩ := h.placed.of_number
  have htext : text.toList = before ++ gap ++ inside ++ after' := by
    rw [h.toList]
    simp
  have hne : inside ≠ [] := by
    obtain ⟨c, cs, rfl, -⟩ := hnumber.first
    exact List.cons_ne_nil _ _
  rw [← byteLength_append] at hnumber hrest
  rw [← byteLength_append] at hrest
  exact ⟨gap, inside, after', hgap, rfl, hnumber, hends, ⟨rfl, htext, hnumber.span, hne⟩,
    htext, hrest⟩

/-- The place of a fault that comes next. -/
theorem fault {fault : Fault} (h : Remain mode text before after (.error fault :: items)) :
    fault.Describes text := by
  obtain ⟨front, c, back, rfl, -, rfl⟩ := h.placed.of_fault
  refine ⟨before ++ front, back, rfl, ?_, ?_, List.cons_ne_nil _ _⟩
  · rw [h.toList]
    simp
  · simp

end Remain

/-! ### The numbers among the items -/

/-- A number was read from one part of the text. -/
theorem NumberAt.numberPart {mode : Mode} {start : Nat} {inside : List Char} {n : Numeral}
    (h : NumberAt mode start inside n) : NumberPart inside where
  first := h.first
  last := h.last
  operator c hc := Mode.ofChar?_of_continues (h.continues c hc)

/-- Items of which two numbers are neighbours do not say separate lexemes. -/
theorem not_separate_of_infix {m n : Numeral} {items : List Item} {ls : List Lexeme}
    (h : [.ok (.number m), .ok (.number n)] <:+: items) (hlexemes : Says items ls) :
    ¬ Lexer.Separate ls := by
  obtain ⟨front, back, rfl⟩ := h
  induction front generalizing ls with
  | nil =>
      obtain ⟨l, ls, rfl, hl, hrest⟩ := Says.cons_iff.mp hlexemes
      obtain ⟨l', ls, rfl, hl', -⟩ := Says.cons_iff.mp hrest
      obtain rfl := Option.some.inj hl
      obtain rfl := Option.some.inj hl'
      rintro ⟨-, -, hnext, -⟩
      exact hnext _ rfl
  | cons item front ih =>
      rw [List.cons_append, List.cons_append] at hlexemes
      obtain ⟨l, ls, rfl, -, hrest⟩ := Says.cons_iff.mp hlexemes
      cases l with
      | operator op => exact fun hseparate => ih hrest hseparate
      | number literal =>
          rintro ⟨-, -, -, hseparate⟩
          exact ih hrest hseparate

/-- In permissive mode, no two numbers are neighbours among the items. -/
theorem not_infix_permissive (text : String) (m n : Numeral) :
    ¬ [.ok (.number m), .ok (.number n)] <:+: (Lexer.ofText .permissive text).items := by
  obtain ⟨k, hk⟩ := Cut.exists_permissive text.toList
  exact fun h => not_separate_of_infix h (k.items_say hk) k.separate

namespace Parser.Blames

variable {mode : Mode} {text : String}

/-- A number behind a number: blanks part them, in strict mode. -/
theorem describes_expectedOperator {m n : Numeral}
    (h : [.ok (.number m), .ok (.number n)] <:+: (Lexer.ofText mode text).items) :
    (Fault.expectedOperator ⟨text, n.span⟩).Describes text := by
  cases mode with
  | permissive => exact absurd h (not_infix_permissive text m n)
  | strict =>
      obtain ⟨before, after, back, hremain⟩ := exists_remain_append h
      obtain ⟨gap, inside, after, -, -, hm, hends, -, hremain⟩ := hremain.number
      obtain ⟨gap', inside', after', hgap', rfl, hn, hends', hmarks, -⟩ := hremain.number
      obtain ⟨cs, c, rfl, hc⟩ := hm.last
      refine ⟨before ++ gap ++ cs, c, gap', inside', after', ?_, hc, ?_, hgap', hn.continues,
        hends'⟩
      · simpa using hmarks
      · -- without a blank the first number would have gone on
        rintro rfl
        obtain ⟨d, ds, rfl, hd⟩ := hn.first
        exact absurd hd (by rw [hends d rfl]; decide)

/-- A run that is no literal. -/
theorem describes_invalidNumber {n : Numeral}
    (h : [.ok (.number n)] <:+: (Lexer.ofText mode text).items)
    (hnone : Binary64.ofLiteral? n.literal = none) :
    (Fault.invalidNumber n.literal ⟨text, n.span⟩).Describes text := by
  obtain ⟨before, after, back, hremain⟩ := exists_remain_append h
  obtain ⟨gap, inside, after, -, -, hn, -, hmarks, -⟩ := hremain.number
  refine ⟨before ++ gap, inside, after, hmarks, hn.numberPart, hn.literal, ?_⟩
  refine (not_isLiteral_iff ?_).mp ?_
  · rw [hn.literal]
    exact fun c hc => (List.mem_filter.mp hc).2
  · rw [← Decimal.isSome_ofLiteral?_iff]
    rw [Binary64.ofLiteral?, Option.map_eq_none_iff] at hnone
    rw [hnone]
    decide

/-- An operator with nothing behind it. -/
theorem describes_trailingOperator {op : Operator} {offset : Nat}
    (h : [.ok (.operator op offset)] <:+ (Lexer.ofText mode text).items) :
    (Fault.trailingOperator ⟨text, .ofSize offset 1⟩).Describes text := by
  obtain ⟨before, after, hremain⟩ := exists_remain h
  obtain ⟨gap, after, hmarks, hremain⟩ := hremain.operator
  refine ⟨before ++ gap, op, after, hmarks, ?_⟩
  exact fun c hc => Mode.isKeypadChar_of_skips (hremain.placed.skips_of_nil c hc)

/-- A literal behind a `/` that is worth zero. -/
theorem describes_divisionByZero {offset : Nat} {n : Numeral} {x : Float}
    (h : [.ok (.operator .slash offset), .ok (.number n)] <:+: (Lexer.ofText mode text).items)
    (hvalue : Binary64.ofLiteral? n.literal = some x) (hzero : (x == 0.0) = true) :
    (Fault.divisionByZero ⟨text, n.span⟩).Describes text := by
  obtain ⟨before, after, back, hremain⟩ := exists_remain_append h
  obtain ⟨gap, after, -, hremain⟩ := hremain.operator
  obtain ⟨gap', inside, after, hgap', -, hn, -, hmarks, -⟩ := hremain.number
  refine ⟨before ++ gap, gap', inside, after, x, ?_, ?_, hn.numberPart, ?_, hzero⟩
  · simpa [Operator.symbol] using hmarks
  · exact fun c hc => Mode.isKeypadChar_of_skips (hgap' c hc)
  · rw [← hn.literal, String.ofList_toList]
    exact hvalue

/-- **A fault about the items of a text describes the text.** -/
theorem describes {fault : Fault} (h : Blames text (Lexer.ofText mode text).items fault) :
    fault.Describes text := by
  cases h with
  | handedOut h =>
      obtain ⟨before, after, back, hremain⟩ := exists_remain_append h
      exact hremain.fault
  | expectedNumber h =>
      obtain ⟨before, after, back, hremain⟩ := exists_remain_append h
      obtain ⟨gap, after, hmarks, -⟩ := hremain.operator
      exact ⟨_, _, hmarks⟩
  | invalidNumber h hnone => exact describes_invalidNumber h hnone
  | expectedOperator h => exact describes_expectedOperator h
  | trailingOperator h => exact describes_trailingOperator h
  | divisionByZero h hvalue hzero => exact describes_divisionByZero h hvalue hzero
  | emptyExpression => trivial

end Parser.Blames

/-! ### Every fault -/

/-- **Every diagnostic points at what it names**, in either mode: the fault of an evaluation,
and the fault of any call of one parser. If it has a site, that carries the text itself, and
its span is a part of the text that is not empty and lies between two characters; and what
stands there, and around it, is what the fault describes. -/
theorem diagnostic_describes (mode : Mode) (text : String) (fault : Fault)
    (h : evaluate mode text = .error fault ∨
      ∃ n, ((Parser.ofText mode text).afterCalls n).parse.1 = .error fault) :
    fault.Describes text ∧
      ∀ site, fault.site? = some site →
        site.source = text ∧ site.span.start < site.span.stop ∧
          site.span.stop ≤ text.utf8ByteSize ∧
          ∃ inside, inside ≠ [] ∧ site.span.Holds 0 text.toList inside := by
  have hblames : Parser.Blames text (Lexer.ofText mode text).items fault := by
    rcases h with h | ⟨n, h⟩
    · exact blames_evaluate h
    · exact Parser.blames_afterCalls h
  refine ⟨hblames.describes, ?_⟩
  intro site hsite
  obtain ⟨before, inside, after, hmarks⟩ := hblames.describes.marks hsite
  obtain ⟨hsource, hpos, hstop, hholds⟩ := hmarks.holds
  exact ⟨hsource, hpos, hstop, inside, hmarks.ne_nil, hholds⟩

/-- A divisor with a gap, behind characters of several bytes. -/
theorem diagnostic_describes_gapped :
    evaluate .permissive "1é/ 0é.0" = .error (.divisionByZero ⟨"1é/ 0é.0", ⟨5, 10⟩⟩) ∧
      (Fault.divisionByZero ⟨"1é/ 0é.0", ⟨5, 10⟩⟩).Describes "1é/ 0é.0" := by
  have h : evaluate .permissive "1é/ 0é.0" =
      .error (.divisionByZero ⟨"1é/ 0é.0", ⟨5, 10⟩⟩) := by
    decide +kernel
  exact ⟨h, (diagnostic_describes .permissive _ _ (.inl h)).1⟩

end Keypad
