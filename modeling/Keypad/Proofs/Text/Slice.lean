import Keypad.Proofs.Text.Place

/-!
# Cutting out of a text

A part of a text is cut out by byte offsets, without decoding what stands around it. That
only works at **boundaries**, where a character begins or the text ends: a cut through a
character fails, and so does one beyond the text. Boundaries and bytes are those of the string
library. The ends of a span that holds a piece are boundaries, so the piece can be cut out.

## Main definitions

* `IsBoundary`: the offsets at which a text can be cut.
* `Span.slice?`: the part of a text at a span.

## Main results

* `isBoundary_iff`: a boundary has some of the characters in front of it.
* `Span.Holds.slice?_eq`: what stands at a span can be cut out.
-/

namespace Keypad

/-- A character of the text begins at the byte offset, or the text ends there. -/
def IsBoundary (text : String) (offset : Nat) : Prop :=
  String.Pos.Raw.IsValid text ⟨offset⟩

instance (text : String) (offset : Nat) : Decidable (IsBoundary text offset) :=
  inferInstanceAs (Decidable (String.Pos.Raw.IsValid text ⟨offset⟩))

/-- The bytes of some characters. -/
theorem utf8ByteSize_ofList (cs : List Char) :
    (String.ofList cs).utf8ByteSize = byteLength cs := by
  rw [← byteLength_toList, String.toList_ofList]

/-- **A boundary has some of the characters in front of it**, and the others behind it. -/
theorem isBoundary_iff {text : String} {offset : Nat} :
    IsBoundary text offset ↔
      ∃ before after, text.toList = before ++ after ∧ offset = byteLength before := by
  rw [IsBoundary, String.Pos.Raw.isValid_iff_exists_append]
  constructor
  · rintro ⟨before, after, rfl, hoffset⟩
    refine ⟨before.toList, after.toList, String.toList_append, ?_⟩
    rw [byteLength_toList]
    exact congrArg String.Pos.Raw.byteIdx hoffset
  · rintro ⟨before, after, htext, rfl⟩
    refine ⟨String.ofList before, String.ofList after, ?_, ?_⟩
    · rw [← String.ofList_append, ← htext, String.ofList_toList]
    · rw [← utf8ByteSize_ofList]
      rfl

namespace Span

/-- The part of the text at the span. There is none unless both ends are boundaries, in
order. -/
def slice? (s : Span) (text : String) : Option String :=
  if h : IsBoundary text s.start ∧ IsBoundary text s.stop ∧ s.start ≤ s.stop then
    some (text.extract ⟨⟨s.start⟩, h.1⟩ ⟨⟨s.stop⟩, h.2.1⟩)
  else none

/-- The bytes between two others are cut out. -/
theorem extract_middle (before inside after : ByteArray) :
    (before ++ (inside ++ after)).extract before.size (before.size + inside.size) = inside :=
  calc (before ++ (inside ++ after)).extract (before.size + 0) (before.size + inside.size)
    _ = (inside ++ after).extract 0 inside.size := ByteArray.extract_append_size_add
    _ = inside := ByteArray.extract_append_eq_left rfl

/-- The ends of a span that holds a piece are boundaries. -/
theorem Holds.isBoundary {s : Span} {text : String} {inside : List Char}
    (h : s.Holds 0 text.toList inside) : IsBoundary text s.start ∧ IsBoundary text s.stop := by
  obtain ⟨before, after, htext, rfl⟩ := h
  constructor
  · exact isBoundary_iff.mpr ⟨before, inside ++ after, by rw [htext, List.append_assoc],
      Nat.zero_add _⟩
  · refine isBoundary_iff.mpr ⟨before ++ inside, after, htext, ?_⟩
    rw [byteLength_append, ofSize, Nat.zero_add]

/-- **What stands at a span can be cut out.** -/
theorem Holds.slice?_eq {s : Span} {text piece : String}
    (h : s.Holds 0 text.toList piece.toList) : s.slice? text = some piece := by
  obtain ⟨hstart, hstop⟩ := h.isBoundary
  have hle : s.start ≤ s.stop := by
    have hends := h.bounds.2.1
    omega
  obtain ⟨before, after, htext, rfl⟩ := h
  have hsplit : text = String.ofList before ++ (piece ++ String.ofList after) := by
    rw [← String.toList_inj, String.toList_append, String.toList_append, String.toList_ofList,
      String.toList_ofList, htext, List.append_assoc]
  have hbefore : 0 + byteLength before = (String.ofList before).toByteArray.size := by
    rw [Nat.zero_add, String.size_toByteArray, utf8ByteSize_ofList]
  have hpiece : byteLength piece.toList = piece.toByteArray.size := by
    rw [String.size_toByteArray, byteLength_toList]
  rw [slice?, dif_pos ⟨hstart, hstop, hle⟩, Option.some_inj, ← String.toByteArray_inj,
    String.toByteArray_extract]
  simp only [ofSize, hbefore, hpiece]
  rw [hsplit, String.toByteArray_append, String.toByteArray_append, extract_middle]

/-- Cutting at a boundary to the end gives all characters behind it. -/
theorem slice?_to_end {text : String} {before rest : List Char}
    (h : text.toList = before ++ rest) :
    slice? ⟨byteLength before, text.utf8ByteSize⟩ text = some (String.ofList rest) := by
  refine Holds.slice?_eq ⟨before, [], ?_, ?_⟩
  · rw [String.toList_ofList, List.append_nil, h]
  · rw [ofSize, String.toList_ofList, Nat.zero_add, ← byteLength_append, ← h, byteLength_toList]

/-- The first character takes two bytes, and cannot be cut in the middle. -/
example : slice? ⟨0, 1⟩ "é1" = none ∧ slice? ⟨2, 3⟩ "é1" = some "1" := by
  decide

end Span

end Keypad
