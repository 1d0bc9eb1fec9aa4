import Keypad.Text.Span

/-!
# What stands at a span

Offsets count bytes, so a span can point into the middle of a character. A span **holds** a
piece of a text if the piece stands there, from its first byte to its last; both ends of the
span are then character boundaries of the text, and the piece is what is cut out of the text
at that span.

A text is looked at part by part, so its characters may begin at any offset.

## Main results

* `Span.Holds.append_left`, `Span.Holds.append_right`: a piece of a part stands in the whole.
* `Span.Holds.bounds`: a span that holds something lies inside the text.
* `byteLength_filter_lt_or_eq`: dropping characters takes bytes away, if it drops any.
-/

namespace Keypad

/-! ### Bytes of what is left -/

/-- Characters that are left over take no more bytes than there were. They take as many only
if all of them are left. -/
theorem byteLength_filter_lt_or_eq (p : Char → Bool) (cs : List Char) :
    byteLength (cs.filter p) < byteLength cs ∨ cs.filter p = cs := by
  induction cs with
  | nil => exact .inr rfl
  | cons c cs ih =>
      have hsize : 0 < c.utf8Size := c.utf8Size_pos
      by_cases hc : p c = true
      · rw [List.filter_cons_of_pos hc, byteLength_cons, byteLength_cons]
        rcases ih with hlt | heq
        · exact .inl (Nat.add_lt_add_left hlt _)
        · exact .inr (by rw [heq])
      · rw [List.filter_cons_of_neg hc, byteLength_cons]
        rcases ih with hlt | heq
        · exact .inl (by omega)
        · exact .inl (by rw [heq]; omega)

/-- Characters that are left over take no more bytes than there were. -/
theorem byteLength_filter_le (p : Char → Bool) (cs : List Char) :
    byteLength (cs.filter p) ≤ byteLength cs := by
  rcases byteLength_filter_lt_or_eq p cs with hlt | heq
  · exact Nat.le_of_lt hlt
  · exact Nat.le_of_eq (by rw [heq])

/-- Every character takes a byte at least. -/
theorem length_le_byteLength (cs : List Char) : cs.length ≤ byteLength cs := by
  induction cs with
  | nil => exact Nat.le_refl 0
  | cons c cs ih =>
      have hsize : 0 < c.utf8Size := c.utf8Size_pos
      rw [List.length_cons, byteLength_cons]
      omega

/-- Only an empty text has no bytes. -/
theorem byteLength_eq_zero_iff {cs : List Char} : byteLength cs = 0 ↔ cs = [] := by
  cases cs with
  | nil => simp
  | cons c cs =>
      have hsize : 0 < c.utf8Size := c.utf8Size_pos
      simp only [byteLength_cons, reduceCtorEq, iff_false]
      omega

/-! ### Spans that hold a piece -/

namespace Span

/-- The piece `inside` of the text stands at the span. The text begins at the offset
`start`. -/
def Holds (s : Span) (start : Nat) (text inside : List Char) : Prop :=
  ∃ before after, text = before ++ inside ++ after ∧
    s = .ofSize (start + byteLength before) (byteLength inside)

namespace Holds

variable {s : Span} {start : Nat} {text inside : List Char}

/-- The span covers as many bytes as the piece has. -/
theorem size_eq (h : s.Holds start text inside) : s.size = byteLength inside := by
  obtain ⟨before, after, -, rfl⟩ := h
  exact size_ofSize _ _

/-- **The span lies inside the text**, and its ends are in order. -/
theorem bounds (h : s.Holds start text inside) :
    start ≤ s.start ∧ s.stop = s.start + byteLength inside ∧
      s.stop ≤ start + byteLength text := by
  obtain ⟨before, after, rfl, rfl⟩ := h
  dsimp only [ofSize]
  rw [byteLength_append, byteLength_append]
  omega

/-- A whole text stands where it begins. -/
theorem whole (start : Nat) (text : List Char) :
    (ofSize start (byteLength text)).Holds start text text :=
  ⟨[], [], by simp, by simp⟩

/-- What stands in a part of a text stands in the text, with more text behind it. -/
theorem append_left (h : s.Holds start text inside) (more : List Char) :
    s.Holds start (text ++ more) inside := by
  obtain ⟨before, after, rfl, rfl⟩ := h
  exact ⟨before, after ++ more, by simp, rfl⟩

/-- What stands in a part of a text stands in the text, with more text in front of it. -/
theorem append_right {more : List Char} (h : s.Holds (start + byteLength more) text inside) :
    s.Holds start (more ++ text) inside := by
  obtain ⟨before, after, rfl, rfl⟩ := h
  exact ⟨more ++ before, after, by simp, by rw [byteLength_append, Nat.add_assoc]⟩

end Holds

end Span

end Keypad
