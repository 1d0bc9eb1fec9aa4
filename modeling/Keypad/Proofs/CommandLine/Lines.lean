import Keypad.CommandLine.Lines

/-!
# Inputs in pieces and texts as input

An input that ends where a line ends is a piece of its own: more input only adds lines behind
it. And a text is as many lines as it seems to have, for in UTF-8 no character but the line
feed has the byte of a line feed in it.

## Main results

* `splitLines_append`: the lines of an input that comes in two pieces.
* `lineFeed_not_mem_bytes`: a text without a line feed is one line.
* `splitLines_bytes_append`: the first line of a text.
-/

namespace Keypad.CommandLine

/-! ### Inputs in pieces -/

/-- An input with a line feed in it has a line. -/
theorem splitLines_concat_ne_nil (bytes : List UInt8) : splitLines (bytes ++ [lineFeed]) ≠ [] := by
  cases bytes with
  | nil => simp [splitLines]
  | cons byte bytes =>
      rw [List.cons_append, splitLines]
      split
      · simp
      · split
        · simp
        · simp

/-- What follows a line feed begins with a line of its own. -/
theorem splitLines_append_cons (bytes more : List UInt8) :
    splitLines (bytes ++ lineFeed :: more) =
      splitLines (bytes ++ [lineFeed]) ++ splitLines more := by
  induction bytes with
  | nil => simp [splitLines]
  | cons byte bytes ih =>
      rw [List.cons_append, List.cons_append, splitLines, splitLines, ih]
      by_cases hfeed : byte = lineFeed
      · rw [if_pos hfeed, if_pos hfeed, List.cons_append]
      · rw [if_neg hfeed, if_neg hfeed]
        cases hlines : splitLines (bytes ++ [lineFeed]) with
        | nil => exact absurd hlines (splitLines_concat_ne_nil bytes)
        | cons line lines => rfl

/-- **The lines of an input that comes in two pieces**, if the first piece is empty or ends
with a line feed. -/
theorem splitLines_append {bytes : List UInt8} (h : bytes = [] ∨ bytes.getLast? = some lineFeed)
    (more : List UInt8) : splitLines (bytes ++ more) = splitLines bytes ++ splitLines more := by
  rcases h with rfl | hlast
  · rfl
  · obtain ⟨front, rfl⟩ := List.getLast?_eq_some_iff.mp hlast
    rw [List.append_assoc]
    exact splitLines_append_cons front more

/-! ### Texts as input -/

/-- The bytes of a text in UTF-8. -/
def bytes (text : String) : List UInt8 :=
  text.toUTF8.data.toList

/-- The bytes of a text are those of its characters. -/
theorem bytes_eq_flatMap (text : String) :
    bytes text = text.toList.flatMap String.utf8EncodeChar := by
  rw [bytes, String.toUTF8_eq_toByteArray, ← String.utf8Encode_toList, List.utf8Encode,
    List.data_toByteArray, List.toList_toArray]

/-- Texts in a row have their bytes in a row. -/
theorem bytes_append (text more : String) : bytes (text ++ more) = bytes text ++ bytes more := by
  rw [bytes_eq_flatMap, String.toList_append, List.flatMap_append, ← bytes_eq_flatMap,
    ← bytes_eq_flatMap]

/-- Only the line feed has the byte of a line feed in it. The bytes of a character behind
ASCII are all above it. -/
theorem eq_of_lineFeed_mem {c : Char} (h : lineFeed ∈ String.utf8EncodeChar c) : c = '\n' := by
  have hfeed : lineFeed.toNat = 10 := rfl
  revert h
  fun_cases String.utf8EncodeChar c with
  | case1 v hascii =>
      intro h
      have hval : c.val.toNat = 10 := by
        simp only [List.mem_singleton, ← UInt8.toNat_inj, UInt8.toNat_ofNat', hfeed] at h
        omega
      exact Char.ext (UInt32.toNat_inj.mp hval)
  | case2 v | case3 v | case4 v =>
      intro h
      simp only [List.mem_cons, List.not_mem_nil, or_false, ← UInt8.toNat_inj,
        UInt8.toNat_ofNat', hfeed] at h
      omega

/-- **A text without a line feed is one line.** -/
theorem lineFeed_not_mem_bytes {text : String} (h : '\n' ∉ text.toList) :
    lineFeed ∉ bytes text := by
  rw [bytes_eq_flatMap, List.mem_flatMap]
  rintro ⟨c, hc, hfeed⟩
  rw [eq_of_lineFeed_mem hfeed] at hc
  exact h hc

/-- **The first line of a text**, and what follows it. -/
theorem splitLines_bytes_append {line : String} (h : '\n' ∉ line.toList) (more : String) :
    splitLines (bytes (line ++ "\n" ++ more)) = bytes line :: splitLines (bytes more) := by
  have hfeed : bytes "\n" = [lineFeed] := by decide
  rw [bytes_append, bytes_append, hfeed, List.append_assoc, List.singleton_append]
  exact splitLines_append_lineFeed _ _ (lineFeed_not_mem_bytes h)

/-- The bytes of a text are decoded to that text. -/
theorem decodeLine?_bytes (text : String) : decodeLine? (bytes text) = some text :=
  decodeLine?_toUTF8 text

end Keypad.CommandLine
