import Keypad.Proofs.Token.Stream

/-!
# What a text spells

A token without its place is a **lexeme**: a run of digits and points, or an operator. This
module relates the characters of a text to the lexemes that a lexer finds in it, for both
modes.

In strict mode a text spells its lexemes one after another, with blanks in front of them,
between them and behind them (`Spelled`). In permissive mode everything but digits, points
and operators is dropped first, and what is left spells the lexemes without any blank.

## Main results

* `Lexer.lexemes_permissive`: permissive reading is strict reading of what is left.
* `Lexer.spelledAfter_of_says`: a text spells the lexemes that strict reading finds.
* `Lexer.says_of_spelled`: strict reading finds the lexemes that a text spells, as long
  as no two numbers stand side by side.
-/

namespace Keypad

/-! ### Lexemes -/

/-- A token without its place. -/
inductive Lexeme
  | number (literal : List Char)
  | operator (op : Operator)
  deriving DecidableEq, Repr

/-- The characters of a lexeme. -/
def Lexeme.chars : Lexeme → List Char
  | number literal => literal
  | operator op => [op.symbol]

/-- What a token says. -/
def Token.lexeme : Token → Lexeme
  | number n => .number n.literal.toList
  | operator op _ => .operator op

/-- What an item says; a fault says nothing. -/
def Item.lexeme? : Item → Option Lexeme
  | .ok token => some token.lexeme
  | .error _ => none

/-- The items say the lexemes, without a fault among them. -/
def Says (items : List Item) (ls : List Lexeme) : Prop :=
  items.map Item.lexeme? = ls.map some

/-- The text is the lexemes one after another, with blanks in front of them, between them
and behind them. -/
inductive Spelled : List Lexeme → List Char → Prop
  | nil {w : List Char} : (∀ c ∈ w, isBlank c = true) → Spelled [] w
  | cons {w : List Char} {l : Lexeme} {ls : List Lexeme} {cs : List Char} :
      (∀ c ∈ w, isBlank c = true) → Spelled ls cs → Spelled (l :: ls) (w ++ l.chars ++ cs)

namespace Says

@[simp] theorem nil_iff {ls : List Lexeme} : Says [] ls ↔ ls = [] := by
  cases ls <;> simp [Says]

/-- The first item says the first lexeme. -/
theorem cons_iff {item : Item} {items : List Item} {ls : List Lexeme} :
    Says (item :: items) ls ↔
      ∃ l ls', ls = l :: ls' ∧ item.lexeme? = some l ∧ Says items ls' := by
  cases ls with
  | nil => simp [Says]
  | cons l ls => simp [Says, and_assoc]

/-- The first lexeme is said by the first item. -/
theorem iff_cons {items : List Item} {l : Lexeme} {ls : List Lexeme} :
    Says items (l :: ls) ↔
      ∃ item items', items = item :: items' ∧ item.lexeme? = some l ∧ Says items' ls := by
  cases items with
  | nil => simp [Says]
  | cons item items => simp [Says, and_assoc]

/-- Items in a row say their lexemes in a row. -/
theorem append {items items' : List Item} {ls ls' : List Lexeme} (h : Says items ls)
    (h' : Says items' ls') : Says (items ++ items') (ls ++ ls') := by
  rw [Says, List.map_append, List.map_append, h, h']

/-- A fault says nothing, so nothing is said where there is one. -/
theorem not_error {fault : Fault} {items : List Item} {ls : List Lexeme} :
    ¬ Says (.error fault :: items) ls := by
  rw [cons_iff]
  rintro ⟨l, ls', -, h, -⟩
  exact nomatch h

end Says

namespace Spelled

/-- A further blank in front changes nothing. -/
theorem blank_cons {c : Char} {ls : List Lexeme} {cs : List Char} (hc : isBlank c = true)
    (h : Spelled ls cs) : Spelled ls (c :: cs) := by
  cases h with
  | nil hw => exact .nil (List.forall_mem_cons.mpr ⟨hc, hw⟩)
  | cons hw h =>
      rw [List.append_assoc, ← List.cons_append, ← List.append_assoc]
      exact .cons (List.forall_mem_cons.mpr ⟨hc, hw⟩) h

/-- A lexeme in front, without a blank. -/
theorem chars_append {ls : List Lexeme} {cs : List Char} (l : Lexeme) (h : Spelled ls cs) :
    Spelled (l :: ls) (l.chars ++ cs) :=
  .cons (w := []) (by simp) h

/-- The characters of the lexemes spell them. -/
theorem flatMap_chars (ls : List Lexeme) : Spelled ls (ls.flatMap Lexeme.chars) := by
  induction ls with
  | nil => exact .nil (by simp)
  | cons l ls ih => exact .chars_append l ih

/-- A text without blanks spells lexemes only if it is their characters. -/
theorem eq_flatMap_chars {ls : List Lexeme} {cs : List Char} (h : Spelled ls cs)
    (hcs : ∀ c ∈ cs, isBlank c = false) : cs = ls.flatMap Lexeme.chars := by
  have hnone {w : List Char} (hw : ∀ c ∈ w, isBlank c = true)
      (hw' : ∀ c ∈ w, isBlank c = false) : w = [] := by
    cases w with
    | nil => rfl
    | cons c w =>
        have h1 := hw c (by simp)
        rw [hw' c (by simp)] at h1
        exact nomatch h1
  induction h with
  | nil hw => exact hnone hw hcs
  | @cons w l ls cs hw _ ih =>
      have hempty : w = [] := hnone hw fun c hc => hcs c (by simp [hc])
      rw [hempty, List.nil_append, List.flatMap_cons, ih fun c hc => hcs c (by simp [hc])]

end Spelled

/-! ### Permissive reading -/

namespace Lexer

/-- What is left of a text when all that a keypad cannot type is dropped. -/
def typed (cs : List Char) : List Char :=
  cs.filter isKeypadChar

/-- Nothing that is left is a blank. -/
theorem isBlank_of_mem_typed {cs : List Char} {c : Char} (h : c ∈ typed cs) :
    isBlank c = false :=
  isBlank_of_isKeypadChar (List.mem_filter.mp h).2

/-- What a number that ends says depends on its literal only. -/
theorem map_lexeme?_flush {p q : Option Numeral}
    (h : p.map Numeral.literal = q.map Numeral.literal) :
    (flush p).map Item.lexeme? = (flush q).map Item.lexeme? := by
  cases p <;> cases q <;> simp_all [flush, Item.lexeme?, Token.lexeme]

/-- Numbers with the same literal stay so with one more character. -/
theorem literal_extend {p q : Option Numeral}
    (h : p.map Numeral.literal = q.map Numeral.literal) (c : Char) (o o' : Nat) :
    (some (Numeral.extend p c o)).map Numeral.literal =
      (some (Numeral.extend q c o')).map Numeral.literal := by
  cases p <;> cases q <;> simp_all [Numeral.extend, Numeral.single, Numeral.push]

/-- **Permissive reading is strict reading of what is left**: the same lexemes, from
whatever offsets the characters are counted. -/
theorem lexemes_permissive (source source' : String) (cs : List Char) (p q : Option Numeral)
    (h : p.map Numeral.literal = q.map Numeral.literal) (o o' : Nat) :
    (stream source .permissive p o cs).map Item.lexeme? =
      (stream source' .strict q o' (typed cs)).map Item.lexeme? := by
  induction cs generalizing p q o o' with
  | nil => exact map_lexeme?_flush h
  | cons c rest ih =>
      by_cases hkey : isKeypadChar c = true
      · rw [typed, List.filter_cons_of_pos hkey]
        rcases isKeypadChar_iff_glyph.mp hkey with hglyph | ⟨op, hglyph⟩
        · rw [stream_numeric _ _ _ _ _ hglyph, stream_numeric _ _ _ _ _ hglyph]
          exact ih _ _ (literal_extend h c o o') _ _
        · rw [stream_operator _ _ _ _ _ hglyph, stream_operator _ _ _ _ _ hglyph,
            List.map_append, List.map_append, map_lexeme?_flush h, List.map_cons, List.map_cons]
          exact congrArg _ (congrArg _ (ih none none rfl _ _))
      · rw [typed, List.filter_cons_of_neg hkey]
        have hdrop : stream source .permissive p o (c :: rest) =
            stream source .permissive p (o + c.utf8Size) rest := by
          cases hglyph : Glyph.ofChar c with
          | numeric => exact absurd (isKeypadChar_iff_glyph.mpr (.inl hglyph)) hkey
          | operator op => exact absurd (isKeypadChar_iff_glyph.mpr (.inr ⟨op, hglyph⟩)) hkey
          | blank => exact stream_skip _ _ _ _ (.inl hglyph)
          | foreign => exact stream_skip _ _ _ _ (.inr hglyph)
        rw [hdrop]
        exact ih p q h _ _

/-! ### Strict reading -/

/-- What a text spells when a part of a number has been read already: that number is
completed first. -/
def SpelledAfter : Option Numeral → List Lexeme → List Char → Prop
  | none, ls, cs => Spelled ls cs
  | some n, ls, cs =>
      ∃ more rest ls', ls = .number (n.literal.toList ++ more) :: ls' ∧ cs = more ++ rest ∧
        Spelled ls' rest

/-- **A text spells the lexemes that strict reading finds**, if it finds no fault. -/
theorem spelledAfter_of_says {source : String} {cs : List Char} {p : Option Numeral}
    {o : Nat} {ls : List Lexeme} (h : Says (stream source .strict p o cs) ls) :
    SpelledAfter p ls cs := by
  -- the number read so far ends here, and the lexemes after it spell the characters
  have hend {n : Numeral} {items : List Item} {ls : List Lexeme} {cs : List Char}
      (hitems : ∀ {ls}, Says items ls → Spelled ls cs)
      (h : Says (flush (some n) ++ items) ls) : SpelledAfter (some n) ls cs := by
    obtain ⟨l, ls', rfl, hl, hrest⟩ := Says.cons_iff.mp h
    obtain rfl := Option.some.inj hl
    exact ⟨[], cs, ls', by simp [Token.lexeme], rfl, hitems hrest⟩
  induction cs generalizing p o ls with
  | nil =>
      have hnil {ls : List Lexeme} (h : Says [] ls) : Spelled ls [] := by
        rw [Says.nil_iff.mp h]
        exact .nil (by simp)
      cases p with
      | none => exact hnil h
      | some n => exact hend hnil h
  | cons c rest ih =>
      cases hglyph : Glyph.ofChar c with
      | numeric =>
          rw [stream_numeric _ _ _ _ _ hglyph] at h
          obtain ⟨more, rest', ls', rfl, rfl, hrest⟩ := ih h
          cases p with
          | none =>
              simp only [Numeral.extend, Numeral.single, String.toList_singleton]
              exact .chars_append (.number (c :: more)) hrest
          | some n =>
              refine ⟨c :: more, rest', ls', ?_, rfl, hrest⟩
              simp [Numeral.extend, Numeral.push]
      | operator op =>
          have hspec := Glyph.ofChar_spec c
          rw [hglyph] at hspec
          have hitems {ls : List Lexeme} (h : Says (.ok (.operator op o) ::
              stream source .strict none (o + c.utf8Size) rest) ls) :
              Spelled ls (c :: rest) := by
            obtain ⟨l, ls', rfl, hl, hrest⟩ := Says.cons_iff.mp h
            obtain rfl := Option.some.inj hl
            rw [hspec]
            exact .chars_append (.operator op) (ih hrest)
          rw [stream_operator _ _ _ _ _ hglyph] at h
          cases p with
          | none => exact hitems h
          | some n => exact hend hitems h
      | blank =>
          have hspec := Glyph.ofChar_spec c
          rw [hglyph] at hspec
          have hitems {ls : List Lexeme}
              (h : Says (stream source .strict none (o + c.utf8Size) rest) ls) :
              Spelled ls (c :: rest) := .blank_cons hspec (ih h)
          rw [stream_blank _ _ _ _ hglyph] at h
          cases p with
          | none => exact hitems h
          | some n => exact hend hitems h
      | foreign =>
          rw [stream_foreign _ _ _ _ hglyph] at h
          exact absurd h Says.not_error

/-- Blanks in front of a text are skipped. -/
theorem exists_stream_blanks (source : String) {w : List Char}
    (hw : ∀ c ∈ w, isBlank c = true) (o : Nat) (cs : List Char) :
    ∃ o', stream source .strict none o (w ++ cs) = stream source .strict none o' cs := by
  induction w generalizing o with
  | nil => exact ⟨o, rfl⟩
  | cons c w ih =>
      obtain ⟨hc, hw⟩ := List.forall_mem_cons.mp hw
      obtain ⟨o', h⟩ := ih hw (o + c.utf8Size)
      refine ⟨o', ?_⟩
      rw [List.cons_append, stream_blank _ _ _ _ (Glyph.ofChar_of_isBlank hc)]
      exact h

/-- Digits and points in front of a text go into the number that is being read. -/
theorem exists_stream_numeric (source : String) (mode : Mode) {ds : List Char}
    (hds : ∀ c ∈ ds, isNumeric c = true) (n : Numeral) (o : Nat) (cs : List Char) :
    ∃ n' o', n'.literal.toList = n.literal.toList ++ ds ∧
      stream source mode (some n) o (ds ++ cs) = stream source mode (some n') o' cs := by
  induction ds generalizing n o with
  | nil => exact ⟨n, o, by simp, rfl⟩
  | cons c ds ih =>
      obtain ⟨hc, hds⟩ := List.forall_mem_cons.mp hds
      obtain ⟨n', o', hlit, h⟩ := ih hds (n.push c o) (o + c.utf8Size)
      refine ⟨n', o', ?_, ?_⟩
      · rw [hlit]
        simp [Numeral.push]
      · rw [List.cons_append, stream_numeric _ _ _ _ _ (Glyph.ofChar_of_isNumeric hc)]
        exact h

/-- A number ends where something else is spelled. -/
theorem stream_number_end {source : String} {ls : List Lexeme} {cs : List Char}
    (h : Spelled ls cs) (hls : ∀ literal, ls.head? ≠ some (.number literal)) (n : Numeral)
    (o : Nat) :
    stream source .strict (some n) o cs =
      .ok (.number n) :: stream source .strict none o cs := by
  have hblank {c : Char} {cs : List Char} (hc : isBlank c = true) :
      stream source .strict (some n) o (c :: cs) =
        .ok (.number n) :: stream source .strict none o (c :: cs) := by
    have hglyph := Glyph.ofChar_of_isBlank hc
    rw [stream_blank _ _ _ _ hglyph, stream_blank _ _ _ _ hglyph]
    rfl
  cases h with
  | nil hw =>
      cases cs with
      | nil => rfl
      | cons c w => exact hblank (hw c (by simp))
  | @cons w l ls cs hw hrest =>
      obtain _ | ⟨c, w⟩ := w
      · cases l with
        | number literal => exact absurd rfl (hls literal)
        | operator op =>
            have hglyph := Glyph.ofChar_symbol op
            rw [Lexeme.chars, List.nil_append, List.singleton_append,
              stream_operator _ _ _ _ _ hglyph, stream_operator _ _ _ _ _ hglyph]
            rfl
      · exact hblank (hw c (by simp))

/-- Lexemes that strict reading finds again: every number is a run of digits and points,
and no two numbers stand side by side. -/
def Separate : List Lexeme → Prop
  | [] => True
  | .operator _ :: ls => Separate ls
  | .number literal :: ls =>
      literal ≠ [] ∧ (∀ c ∈ literal, isNumeric c = true) ∧
        (∀ next, ls.head? ≠ some (.number next)) ∧ Separate ls

/-- A keypad can type the characters of separate lexemes. -/
theorem typed_flatMap_chars {ls : List Lexeme} (hls : Separate ls) :
    typed (ls.flatMap Lexeme.chars) = ls.flatMap Lexeme.chars := by
  induction ls with
  | nil => rfl
  | cons l ls ih =>
      cases l with
      | operator op =>
          have hkey : isKeypadChar op.symbol = true :=
            isKeypadChar_iff_glyph.mpr (.inr ⟨op, Glyph.ofChar_symbol op⟩)
          rw [List.flatMap_cons, Lexeme.chars, List.singleton_append, typed,
            List.filter_cons_of_pos hkey, ← typed, ih hls]
      | number literal =>
          obtain ⟨-, hnumeric, -, hls⟩ := hls
          have hkey : typed literal = literal := by
            refine List.filter_eq_self.mpr ?_
            intro c hc
            rw [isKeypadChar, hnumeric c hc, Bool.true_or]
          rw [List.flatMap_cons, Lexeme.chars, typed, List.filter_append, ← typed, ← typed,
            hkey, ih hls]

/-- **Strict reading finds the lexemes that a text spells**, if they are separate. -/
theorem says_of_spelled (source : String) {ls : List Lexeme} {cs : List Char}
    (h : Spelled ls cs) (hls : Separate ls) (o : Nat) :
    Says (stream source .strict none o cs) ls := by
  induction h generalizing o with
  | nil hw =>
      obtain ⟨o', hskip⟩ := exists_stream_blanks source hw o []
      rw [List.append_nil] at hskip
      rw [hskip]
      exact Says.nil_iff.mpr rfl
  | @cons w l ls cs hw hrest ih =>
      obtain ⟨o₁, hskip⟩ := exists_stream_blanks source hw o (l.chars ++ cs)
      rw [List.append_assoc, hskip]
      cases l with
      | operator op =>
          rw [Lexeme.chars, List.singleton_append,
            stream_operator _ _ _ _ _ (Glyph.ofChar_symbol op)]
          exact Says.cons_iff.mpr ⟨_, ls, rfl, rfl, ih hls _⟩
      | number literal =>
          obtain ⟨hne, hnumeric, hnext, hls⟩ := hls
          obtain ⟨c, ds, rfl⟩ := List.exists_cons_of_ne_nil hne
          obtain ⟨hc, hds⟩ := List.forall_mem_cons.mp hnumeric
          obtain ⟨n, o₂, hlit, hread⟩ := exists_stream_numeric source .strict hds
            (Numeral.single c o₁) (o₁ + c.utf8Size) cs
          rw [Lexeme.chars, List.cons_append,
            stream_numeric _ _ _ _ _ (Glyph.ofChar_of_isNumeric hc), Numeral.extend, hread,
            stream_number_end hrest hnext]
          refine Says.cons_iff.mpr ⟨_, ls, rfl, ?_, ih hls _⟩
          simp [Item.lexeme?, Token.lexeme, hlit, Numeral.single]

end Lexer

end Keypad
