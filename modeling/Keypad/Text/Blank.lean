/-!
# Blanks

Which characters separate words, and how a line is freed of them at both ends. The set is
Unicode's `White_Space` property, 25 code points in ten ranges, so a line may be padded
with an ideographic space or a no-break space as well as with ASCII blanks.

## Main definitions

* `isBlank` — membership in the ranges of `blankRanges`;
* `trim` — a text without the blanks at its start and end.
-/

namespace Keypad

/-- The code points with the property `White_Space`, as inclusive ranges. -/
def blankRanges : List (Nat × Nat) :=
  [(0x09, 0x0D), (0x20, 0x20), (0x85, 0x85), (0xA0, 0xA0), (0x1680, 0x1680),
    (0x2000, 0x200A), (0x2028, 0x2029), (0x202F, 0x202F), (0x205F, 0x205F),
    (0x3000, 0x3000)]

/-- Whether the character is a blank: a member of one of `blankRanges`. -/
def isBlank (c : Char) : Bool :=
  blankRanges.any fun (first, last) => first ≤ c.toNat && c.toNat ≤ last

/-- The characters without the blanks in front. -/
def trimStart (cs : List Char) : List Char :=
  cs.dropWhile isBlank

/-- The characters without the blanks at the end. -/
def trimEnd (cs : List Char) : List Char :=
  (cs.reverse.dropWhile isBlank).reverse

/-- The text without the blanks at its start and end. -/
def trim (text : String) : String :=
  String.ofList (trimEnd (trimStart text.toList))

end Keypad
