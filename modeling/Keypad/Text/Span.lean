/-!
# Places in a text

A place in a text is a half-open range of byte offsets of its UTF-8 form. Offsets count
bytes and not characters, so that a place can be cut out of the text without decoding it.

## Main definitions

* `byteLength` — the UTF-8 length of a list of characters;
* `Span` — a half-open byte range;
* `Site` — a text together with the part of it that is meant.
-/

namespace Keypad

/-- How many bytes the characters take in UTF-8. -/
def byteLength (cs : List Char) : Nat :=
  cs.foldr (fun c length => c.utf8Size + length) 0

@[simp] theorem byteLength_nil : byteLength [] = 0 := rfl

@[simp] theorem byteLength_cons (c : Char) (cs : List Char) :
    byteLength (c :: cs) = c.utf8Size + byteLength cs := rfl

@[simp] theorem byteLength_append (cs ds : List Char) :
    byteLength (cs ++ ds) = byteLength cs + byteLength ds := by
  induction cs with
  | nil => rw [List.nil_append, byteLength_nil, Nat.zero_add]
  | cons c cs ih => rw [List.cons_append, byteLength_cons, ih, byteLength_cons, Nat.add_assoc]

/-- The bytes of a text are those of its characters. -/
theorem byteLength_toList (text : String) : byteLength text.toList = text.utf8ByteSize := by
  have hofList (cs : List Char) : byteLength cs = (String.ofList cs).utf8ByteSize := by
    induction cs with
    | nil => simp [String.ofList_nil]
    | cons c cs ih =>
      have hsplit : String.ofList (c :: cs) = String.singleton c ++ String.ofList cs := by
        rw [String.singleton_eq_ofList, ← String.ofList_append]
        rfl
      rw [byteLength_cons, ih, hsplit, String.utf8ByteSize_append, String.utf8ByteSize_singleton]
  rw [hofList, String.ofList_toList]

/-- The bytes from `start` up to, but not including, `stop`. -/
structure Span where
  /-- The offset of the first byte. -/
  start : Nat
  /-- The offset just past the last byte. -/
  stop : Nat
  deriving DecidableEq, Repr, Inhabited

namespace Span

/-- The span of `size` bytes from `start` on. -/
def ofSize (start size : Nat) : Span :=
  ⟨start, start + size⟩

/-- How many bytes the span covers. -/
def size (s : Span) : Nat :=
  s.stop - s.start

@[simp] theorem size_ofSize (start size : Nat) : (ofSize start size).size = size := by
  simp [ofSize, Span.size]

end Span

/-- A marked place: a text and the part of it that is meant. -/
structure Site where
  /-- The whole text. -/
  source : String
  /-- The part of it that is meant. -/
  span : Span
  deriving DecidableEq, Repr, Inhabited

end Keypad
