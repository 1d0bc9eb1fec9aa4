/-!
# Lines of input

Standard input is bytes. It is cut into lines at line feeds first and each line is decoded
on its own, so that a line which is not UTF-8 does no harm to the lines before it.

## Main definitions

* `splitLines` — the lines of an input, without their line feeds;
* `decodeLine?` — the text of a line, if its bytes are UTF-8.
-/

namespace Keypad.CommandLine

/-- The byte that ends a line. -/
def lineFeed : UInt8 := 0x0A

/-- The lines of an input, without their line feeds. Bytes after the last line feed are a
line of their own if there are any. -/
def splitLines : List UInt8 → List (List UInt8)
  | [] => []
  | byte :: bytes =>
      if byte = lineFeed then [] :: splitLines bytes
      else match splitLines bytes with
        | [] => [[byte]]
        | line :: lines => (byte :: line) :: lines

/-- An input ends where a line ends, so more input only adds lines. -/
theorem splitLines_append_lineFeed (line bytes : List UInt8) (h : lineFeed ∉ line) :
    splitLines (line ++ lineFeed :: bytes) = line :: splitLines bytes := by
  induction line with
  | nil => simp [splitLines]
  | cons byte line ih =>
    have hb : byte ≠ lineFeed := fun e => h (by simp [e])
    have hl : lineFeed ∉ line := fun e => h (by simp [e])
    simp [splitLines, hb, ih hl]

/-- The text of a line, if its bytes are UTF-8. -/
def decodeLine? (line : List UInt8) : Option String :=
  String.fromUTF8? line.toByteArray

/-- The bytes of a text are decoded to that text. -/
theorem decodeLine?_toUTF8 (text : String) : decodeLine? text.toUTF8.data.toList = some text := by
  have hbytes : text.toUTF8.data.toList.toByteArray = text.toUTF8 := by
    apply ByteArray.ext
    rw [List.data_toByteArray, Array.toArray_toList]
  rw [decodeLine?, hbytes, String.fromUTF8?, String.toUTF8_eq_toByteArray,
    dif_pos text.isValidUTF8]
  rfl

end Keypad.CommandLine
