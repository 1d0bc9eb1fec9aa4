import Keypad.Fault
import Keypad.Token.Basic

/-!
# The lexer

A lexer stands at a place in a text and hands out one token per step. A number ends where
an operator begins, so the step that finds the end of a number has already read the
operator; it keeps the operator **queued** for the next step.

In strict mode a blank ends a number and is skipped otherwise, and a foreign character is a
fault: the number being read is given up, the rest of the text is skipped, and nothing
follows.

## Main definitions

* `Lexer.round` — what one character comes to, with the number read so far;
* `Lexer.next` — one step: a token, a fault or nothing, and the lexer after it;
* `Lexer.items` — everything the lexer still has to hand out;
* `tokenize` — all tokens of a text, or the fault that ends it.

## Main results

* `Lexer.next_weight_lt` — a step that hands something out leaves less to do, so
  `Lexer.items` ends.
-/

namespace Keypad

/-- What a step of the lexer hands out. -/
abbrev Item := Except Fault Token

/-- A place in a text from which tokens are read. -/
structure Lexer where
  /-- The whole text. -/
  source : String
  /-- What is done about foreign characters. -/
  mode : Mode
  /-- The characters that are still to be read. -/
  rest : List Char
  /-- The byte offset at which they begin. -/
  offset : Nat
  /-- A token that is read already and not yet handed out. -/
  queued : Option Token

namespace Lexer

/-- The lexer at the start of a text. -/
def ofText (mode : Mode) (text : String) : Lexer :=
  ⟨text, mode, text.toList, 0, none⟩

/-! ### One round -/

/-- What reading one more character comes to. -/
inductive Round
  /-- The step goes on, with this number read so far. -/
  | goOn (pending : Option Numeral)
  /-- The step hands out a token, and may leave another in the queue. -/
  | handOut (token : Token) (queued : Option Token)
  /-- The step hands out a fault, and the rest of the text is skipped. -/
  | giveUp (fault : Fault)

/-- One round of the loop: a character is read, with the number read so far. -/
def round (source : String) (mode : Mode) (pending : Option Numeral) (offset : Nat)
    (c : Char) : Round :=
  match Glyph.ofChar c, mode, pending with
  | .numeric, _, _ => .goOn (some (Numeral.extend pending c offset))
  | .operator op, _, some n => .handOut (.number n) (some (.operator op offset))
  | .operator op, _, none => .handOut (.operator op offset) none
  | .blank, .strict, some n => .handOut (.number n) none
  | .blank, .strict, none => .goOn none
  | .foreign, .strict, _ =>
      .giveUp (.unexpectedCharacter c ⟨source, .ofSize offset c.utf8Size⟩)
  | _, .permissive, _ => .goOn pending

/-! ### One step -/

/-- Reads characters round by round until a token is complete, with the number read so
far. At the end of the text that number is complete. -/
def scan (source : String) (mode : Mode) (pending : Option Numeral) (offset : Nat) :
    List Char → Option Item × Lexer
  | [] => (pending.map fun n => .ok (.number n), ⟨source, mode, [], offset, none⟩)
  | c :: rest =>
      let after := offset + c.utf8Size
      match round source mode pending offset c with
      | .goOn pending => scan source mode pending after rest
      | .handOut token queued => (some (.ok token), ⟨source, mode, rest, after, queued⟩)
      | .giveUp fault =>
          (some (.error fault), ⟨source, mode, [], after + byteLength rest, none⟩)

/-- One step of the lexer. It hands out the queued token if there is one, and otherwise
reads on. Once it hands out nothing, it never hands out anything again. -/
def next (l : Lexer) : Option Item × Lexer :=
  match l.queued with
  | some token => (some (.ok token), { l with queued := none })
  | none => scan l.source l.mode none l.offset l.rest

/-! ### All steps -/

/-- How much is left to do: two for every character, since a character can lead to a
number and a queued operator, and one for a queued token. -/
def weight (l : Lexer) : Nat :=
  2 * l.rest.length + (if l.queued.isSome then 1 else 0)

/-- A lexer has at most one thing to do besides reading its characters. -/
theorem weight_le (l : Lexer) : l.weight ≤ 2 * l.rest.length + 1 := by
  rw [weight]
  split <;> omega

/-- Reading on over some characters leaves less to do than they were. -/
theorem scan_weight_lt (source : String) (mode : Mode) (pending : Option Numeral)
    (offset : Nat) (c : Char) (rest : List Char) :
    (scan source mode pending offset (c :: rest)).2.weight < 2 * (c :: rest).length := by
  induction rest generalizing pending offset c with
  | nil =>
    have hdone (l : Lexer) (h : l.rest = []) : l.weight < 2 * [c].length := by
      have := weight_le l
      rw [h, List.length_nil] at this
      exact Nat.lt_of_le_of_lt this (by rw [List.length_singleton]; decide)
    unfold scan
    split <;> exact hdone _ rfl
  | cons d rest ih =>
    have hstep : 2 * (d :: rest).length + 1 < 2 * (c :: d :: rest).length := by
      simp only [List.length_cons]
      omega
    have hstop (l : Lexer) (h : l.rest.length ≤ (d :: rest).length) :
        l.weight < 2 * (c :: d :: rest).length :=
      Nat.lt_of_le_of_lt (Nat.le_trans (weight_le l) (by omega)) hstep
    unfold scan
    split
    · exact Nat.lt_trans (ih _ _ _) (Nat.lt_of_succ_lt hstep)
    · exact hstop _ (Nat.le_refl _)
    · exact hstop _ (Nat.zero_le _)

/-- Every step **leaves less to do**: a step that hands something out strictly decreases
the weight. -/
theorem next_weight_lt {l l' : Lexer} {item : Item} (h : l.next = (some item, l')) :
    l'.weight < l.weight := by
  rw [next] at h
  split at h
  · next token hq =>
    obtain ⟨-, rfl⟩ := Prod.mk.inj h
    rw [weight, weight, hq]
    exact Nat.lt_succ_self _
  · next hq =>
    cases hrest : l.rest with
    | nil =>
      rw [hrest] at h
      exact absurd (Prod.mk.inj h).1 (by simp)
    | cons c rest =>
      have hlt := scan_weight_lt l.source l.mode none l.offset c rest
      rw [← hrest, h, hrest] at hlt
      rw [weight.eq_1 l, hrest, hq]
      exact hlt

/-- Everything the lexer still has to hand out, in order. -/
def items (l : Lexer) : List Item :=
  match _step : l.next with
  | (none, _) => []
  | (some item, l') => item :: items l'
termination_by l.weight
decreasing_by exact next_weight_lt _step

/-- A lexer whose step hands out nothing has nothing to hand out. -/
theorem items_of_next_none {l l' : Lexer} (h : l.next = (none, l')) : l.items = [] := by
  rw [items]
  split
  · rfl
  · next h' => exact absurd (h ▸ h') (by simp)

/-- What a step hands out comes first, and the lexer after the step hands out the rest. -/
theorem items_of_next_some {l l' : Lexer} {item : Item} (h : l.next = (some item, l')) :
    l.items = item :: l'.items := by
  rw [items]
  split
  · next h' => exact absurd (h ▸ h') (by simp)
  · next h' =>
    rw [h] at h'
    obtain ⟨hi, rfl⟩ := Prod.mk.inj h'
    rw [Option.some.inj hi]

end Lexer

/-! ### Whole texts -/

/-- The first fault among the items, or all their tokens. -/
def collect : List Item → Except Fault (List Token)
  | [] => .ok []
  | .error fault :: _ => .error fault
  | .ok token :: rest => do
      let tokens ← collect rest
      return token :: tokens

/-- All tokens of a text, or the fault that ends it. In permissive mode there is no such
fault. -/
def tokenize (mode : Mode) (text : String) : Except Fault (List Token) :=
  collect (Lexer.ofText mode text).items

end Keypad
