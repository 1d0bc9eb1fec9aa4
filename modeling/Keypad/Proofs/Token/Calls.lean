import Keypad.Token.Lexer

/-!
# A lexer that is asked again and again

A lexer is used one step at a time, and nothing keeps a reader from asking once more after
the last item. This module says what every single call is answered, so that a statement
about the items of a text is one about the calls: the answers are the items in order, and
from then on **nothing, for ever**.

## Main results

* `Lexer.next_after`: a call is answered with the item of the same number.
* `Lexer.yields_iff`: a lexer yields its items, and nothing else.
-/

namespace Keypad

namespace Lexer

/-- The lexer after so many steps. -/
def after (l : Lexer) : Nat → Lexer
  | 0 => l
  | n + 1 => l.next.2.after n

/-- One step more goes on from where the others came to. -/
theorem after_succ (l : Lexer) (n : Nat) : l.after (n + 1) = (l.after n).next.2 := by
  induction n generalizing l with
  | zero => rfl
  | succ n ih => rw [after, ih, after]

/-- The answers to all calls, from the first on: the items in order, and then nothing for
ever. -/
def Yields (l : Lexer) (items : List Item) : Prop :=
  ∀ n, (l.after n).next.1 = items[n]?

/-- Reading on keeps the text. -/
theorem source_scan (source : String) (mode : Mode) (pending : Option Numeral) (offset : Nat)
    (cs : List Char) : (scan source mode pending offset cs).2.source = source := by
  fun_induction scan source mode pending offset cs with
  | case1 | case3 | case4 => rfl
  | case2 _ _ _ _ _ _ _ ih => exact ih

/-- A step keeps the text. -/
theorem source_next (l : Lexer) : l.next.2.source = l.source := by
  rw [next]
  split
  · rfl
  · exact source_scan _ _ _ _ _

/-- Reading on hands out nothing only at the end of the text, and leaves nothing queued. -/
theorem scan_eq_none {source : String} {mode : Mode} {pending : Option Numeral}
    {offset : Nat} {cs : List Char} {l : Lexer}
    (h : scan source mode pending offset cs = (none, l)) : l.rest = [] ∧ l.queued = none := by
  fun_induction scan source mode pending offset cs with
  | case1 =>
      obtain ⟨-, rfl⟩ := Prod.mk.inj h
      exact ⟨rfl, rfl⟩
  | case3 | case4 => exact nomatch (Prod.mk.inj h).1
  | case2 _ _ _ _ _ _ _ ih => exact ih h

/-- A step that hands out nothing has come to the end of the text, with nothing queued. -/
theorem ended_of_next {l l' : Lexer} (h : l.next = (none, l')) :
    l.queued = none ∧ l'.rest = [] ∧ l'.queued = none := by
  rw [next] at h
  split at h
  · cases (Prod.mk.inj h).1
  · next hqueued => exact ⟨hqueued, scan_eq_none h⟩

/-- **Once a lexer hands out nothing, it has nothing to hand out.** -/
theorem items_of_exhausted {l l' : Lexer} (h : l.next = (none, l')) : l'.items = [] := by
  obtain ⟨-, hrest, hqueued⟩ := ended_of_next h
  have hnext : l'.next = (none, ⟨l'.source, l'.mode, [], l'.offset, none⟩) := by
    rw [next, hrest, hqueued]
    rfl
  exact items_of_next_none hnext

/-- **A call is answered with the item of the same number**, and with nothing when there is
no such item. -/
theorem next_after (l : Lexer) (n : Nat) : (l.after n).next.1 = l.items[n]? := by
  induction n generalizing l with
  | zero =>
      rw [after]
      cases hnext : l.next with
      | mk item l' =>
          cases item with
          | none => rw [items_of_next_none hnext]; rfl
          | some item => rw [items_of_next_some hnext]; rfl
  | succ n ih =>
      rw [after, ih]
      cases hnext : l.next with
      | mk item l' =>
          cases item with
          | none => rw [items_of_exhausted hnext, items_of_next_none hnext]; rfl
          | some item => rw [items_of_next_some hnext, List.getElem?_cons_succ]

/-- A lexer yields its items, and nothing else. -/
theorem yields_iff {l : Lexer} {items : List Item} : l.Yields items ↔ l.items = items := by
  constructor
  · intro h
    refine List.ext_getElem? ?_
    intro n
    rw [← next_after, h n]
  · rintro rfl n
    exact l.next_after n

end Lexer

end Keypad
