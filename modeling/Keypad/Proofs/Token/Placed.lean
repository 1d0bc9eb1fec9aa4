import Keypad.Proofs.Token.Cut

/-!
# The text between the items

A layout says of every token where it stands. For the place of a fault it also matters what
stands **in front of a token and behind it**: which characters the lexer skipped to come to
it, and that a number goes on as far as it can. This module relates a text to all of its
items at once, the fault included, so that nothing of the text is left out: a text is its
items one after another, and what is skipped in front of them, between them and behind them.

In permissive mode anything that a keypad cannot type is skipped, and in strict mode blanks
are; behind a fault the text is not looked at.

## Main definitions

* `NumberAt`: the characters that a number was read from.
* `Placed`: the items of a text in their places.

## Main results

* `Placed.items_ofText`: the items of a text are placed in it.
* `Placed.drop`: some items on, the others are placed in the text that is left.
* `Placed.of_operator`, `Placed.of_number`, `Placed.of_fault`: what stands at the first item.
-/

namespace Keypad

/-- Whether a character belongs to no token. -/
def Mode.skips : Mode → Char → Bool
  | .permissive, c => !isKeypadChar c
  | .strict, c => isBlank c

namespace Mode

variable {mode : Mode} {c : Char}

/-- No keypad can type what is skipped. -/
theorem isKeypadChar_of_skips (h : mode.skips c = true) : isKeypadChar c = false := by
  cases mode with
  | permissive => exact Bool.not_eq_true' _ ▸ h
  | strict =>
      refine Bool.eq_false_iff.mpr fun hkey => ?_
      rw [isKeypadChar_iff_glyph, Glyph.ofChar_of_isBlank h] at hkey
      rcases hkey with hglyph | ⟨op, hglyph⟩
      · exact nomatch hglyph
      · exact nomatch hglyph

/-- What stands in a stretch and is no digit or point is skipped. -/
theorem skips_of_continues (h : mode.continues c = true) (hc : isNumeric c = false) :
    mode.skips c = true := by
  cases mode with
  | permissive =>
      have hop : Operator.ofChar? c = none := ofChar?_of_continues h
      rw [skips, isKeypadChar, hc, hop]
      rfl
  | strict =>
      rw [continues, hc] at h
      cases h

/-- A separator is no digit or point. -/
theorem isNumeric_of_separates (h : mode.separates c = true) : isNumeric c = false := by
  refine Bool.eq_false_iff.mpr fun hc => ?_
  rcases glyph_of_separates h with ⟨op, hglyph⟩ | ⟨-, hglyph⟩
  · exact nomatch (Glyph.ofChar_of_isNumeric hc).symm.trans hglyph
  · exact nomatch (Glyph.ofChar_of_isNumeric hc).symm.trans hglyph

end Mode

/-- The symbol of an operator takes one byte. -/
@[simp] theorem Operator.utf8Size_symbol (op : Operator) : op.symbol.utf8Size = 1 := by
  cases op <;> rfl

/-! ### Items in their places -/

/-- The number was read from the characters `inside`, which begin at `start`: its literal is
the digits and points among them, and it begins and ends with one. -/
structure NumberAt (mode : Mode) (start : Nat) (inside : List Char) (n : Numeral) : Prop where
  span : n.span = .ofSize start (byteLength inside)
  literal : n.literal.toList = inside.filter isNumeric
  continues : ∀ c ∈ inside, mode.continues c = true
  first : ∃ c cs, inside = c :: cs ∧ isNumeric c = true
  last : ∃ cs c, inside = cs ++ [c] ∧ isNumeric c = true

/-- The characters do not begin with a digit or point. -/
def NumberEnds (cs : List Char) : Prop :=
  ∀ c, cs.head? = some c → isNumeric c = false

/-- The items stand in the characters, which begin at `start`, in order and with nothing but
skipped characters around them. -/
inductive Placed (source : String) (mode : Mode) : Nat → List Char → List Item → Prop
  | done (start : Nat) : Placed source mode start [] []
  | skip {start : Nat} {c : Char} {cs : List Char} {items : List Item} :
      mode.skips c = true → Placed source mode (start + c.utf8Size) cs items →
      Placed source mode start (c :: cs) items
  | operator {start : Nat} {cs : List Char} {items : List Item} (op : Operator) :
      Placed source mode (start + 1) cs items →
      Placed source mode start (op.symbol :: cs) (.ok (.operator op start) :: items)
  | number {start : Nat} {inside cs : List Char} {n : Numeral} {items : List Item} :
      NumberAt mode start inside n → NumberEnds cs →
      Placed source mode (start + byteLength inside) cs items →
      Placed source mode start (inside ++ cs) (.ok (.number n) :: items)
  /-- The digits and points in front of a foreign character are given up. -/
  | fault {start : Nat} {run cs : List Char} {c : Char} :
      (∀ d ∈ run, isNumeric d = true) → isForeign c = true →
      Placed source mode start (run ++ c :: cs)
        [.error (.unexpectedCharacter c ⟨source, .ofSize (start + byteLength run) c.utf8Size⟩)]

namespace Placed

variable {source : String} {mode : Mode} {start : Nat} {cs : List Char} {items : List Item}

/-! ### The items of a text -/

/-- A gap in front of the items is skipped. -/
theorem skip_all {gap : List Char} (hgap : ∀ c ∈ gap, mode.skips c = true)
    (h : Placed source mode (start + byteLength gap) cs items) :
    Placed source mode start (gap ++ cs) items := by
  induction gap generalizing start with
  | nil => exact h
  | cons c gap ih =>
      obtain ⟨hc, hgap⟩ := List.forall_mem_cons.mp hgap
      rw [byteLength_cons, ← Nat.add_assoc] at h
      exact .skip hc (ih hgap h)

/-- A stretch in front of the items is the place of its number, if it makes one. -/
theorem stretch {stretch : List Char} (hstretch : ∀ c ∈ stretch, mode.continues c = true)
    (hends : NumberEnds cs) (h : Placed source mode (start + byteLength stretch) cs items) :
    Placed source mode start (stretch ++ cs)
      (Lexer.flush (Numeral.ofStretch? start stretch) ++ items) := by
  have hskips {part : List Char} (hpart : ∀ c ∈ part, c ∈ stretch)
      (hnone : ∀ c ∈ part, isNumeric c = false) : ∀ c ∈ part, mode.skips c = true :=
    fun c hc => Mode.skips_of_continues (hstretch c (hpart c hc)) (hnone c hc)
  by_cases hnone : stretch.filter isNumeric = []
  · rw [Numeral.ofStretch?_of_filter_eq_nil hnone]
    refine skip_all (hskips (fun c hc => hc) ?_) h
    intro c hc
    exact Bool.eq_false_iff.mpr (List.filter_eq_nil_iff.mp hnone c hc)
  · obtain ⟨front, inside, back, rfl, hcore⟩ := Numeral.exists_core hnone
    rw [Numeral.ofStretch?_of_core hcore, List.append_assoc, List.append_assoc]
    refine skip_all (hskips (by simp +contextual) hcore.front) ?_
    refine .number ⟨rfl, String.toList_ofList, ?_, hcore.first, hcore.last⟩ ?_ ?_
    · intro c hc
      exact hstretch c (by simp [hc])
    · -- behind the number stands the rest of the stretch, or what ends it
      intro c hc
      cases hback : back with
      | nil =>
          rw [hback] at hc
          exact hends c hc
      | cons d back' =>
          rw [hback] at hc
          obtain rfl := Option.some.inj hc
          exact hcore.back d (by simp [hback])
    · refine skip_all (hskips (by simp +contextual) hcore.back) ?_
      rw [byteLength_append, byteLength_append, ← Nat.add_assoc, ← Nat.add_assoc] at h
      exact h

/-- A separator is skipped, or it is the place of its operator. -/
theorem separator (c : Separator mode)
    (h : Placed source mode (start + c.1.utf8Size) cs items) :
    Placed source mode start (c.1 :: cs) ((Token.ofSeparator start c.1).map .ok ++ items) := by
  obtain ⟨c, hc⟩ := c
  rcases Mode.glyph_of_separates hc with ⟨op, hglyph⟩ | ⟨rfl, hglyph⟩
  · have hop : Operator.ofChar? c = some op := Glyph.ofChar_eq_operator_iff.mp hglyph
    obtain rfl := Operator.ofChar?_eq_some_iff.mp hop
    rw [Operator.utf8Size_symbol] at h
    rw [Token.ofSeparator, hop]
    exact .operator op h
  · have hop : Operator.ofChar? c = none := Glyph.ofChar_ne_operator_iff.mp (by simp [hglyph])
    have hspec := Glyph.ofChar_spec c
    rw [hglyph] at hspec
    rw [Token.ofSeparator, hop]
    exact .skip hspec h

/-- **What the lexer hands out is placed in what it reads**, with a part of a stretch read
already. -/
theorem stream {read : List Char} (hread : ∀ c ∈ read, mode.continues c = true) :
    Placed source mode start (read ++ cs)
      (Lexer.stream source mode (Numeral.ofStretch? start read) (start + byteLength read)
        cs) := by
  induction cs generalizing start read with
  | nil =>
      have hplaced : Placed source mode start (read ++ [])
          (Lexer.flush (Numeral.ofStretch? start read) ++ []) := by
        refine .stretch hread ?_ (.done _)
        rintro d ⟨⟩
      rw [List.append_nil, List.append_nil] at hplaced
      rw [Lexer.stream, List.append_nil]
      exact hplaced
  | cons c cs ih =>
      rcases Mode.continues_or_separates mode c with hc | hc | ⟨rfl, hc⟩
      · -- the character joins what is read already
        have hc' : ∀ d ∈ [c], mode.continues d = true := List.forall_mem_singleton.mpr hc
        have hplaced := @ih start _ (List.forall_mem_append.mpr ⟨hread, hc'⟩)
        rw [← Lexer.stream_stretch source hc' start read cs, List.append_assoc] at hplaced
        exact hplaced
      · -- the stretch ends, and the next one begins behind the character
        have hnext := @ih (start + byteLength read + c.utf8Size) [] (List.forall_mem_nil _)
        rw [Lexer.stream_separator source ⟨c, hc⟩, List.append_assoc]
        refine Placed.stretch hread ?_ (.separator ⟨c, hc⟩ hnext)
        rintro d ⟨⟩
        exact Mode.isNumeric_of_separates hc
      · rw [Lexer.stream_foreign _ _ _ _ (Glyph.ofChar_eq_foreign_iff.mpr hc)]
        exact .fault hread hc

/-- **The items of a text are placed in it.** -/
theorem items_ofText (mode : Mode) (text : String) :
    Placed text mode 0 text.toList (Lexer.ofText mode text).items := by
  rw [Lexer.items_ofText]
  exact @stream _ _ _ _ [] (List.forall_mem_nil _)

/-! ### What stands at an item -/

/-- Where there is no item, everything is skipped. -/
theorem skips_of_nil (h : Placed source mode start cs []) : ∀ c ∈ cs, mode.skips c = true := by
  generalize hitems : ([] : List Item) = items at h
  induction h with
  | done => exact List.forall_mem_nil _
  | skip hc _ ih => exact List.forall_mem_cons.mpr ⟨hc, ih hitems⟩
  | operator | number | fault => exact nomatch hitems

/-- **Some items on**, the others are placed in the text that is left. -/
theorem drop {front : List Item} (h : Placed source mode start cs (front ++ items)) :
    ∃ before after, cs = before ++ after ∧
      Placed source mode (start + byteLength before) after items := by
  generalize hall : front ++ items = all at h
  induction h generalizing front with
  | done start =>
      obtain ⟨-, rfl⟩ := List.append_eq_nil_iff.mp hall
      exact ⟨[], [], rfl, .done _⟩
  | @skip start c cs _ hc _ ih =>
      obtain ⟨before, after, rfl, hafter⟩ := ih hall
      rw [Nat.add_assoc, ← byteLength_cons] at hafter
      exact ⟨c :: before, after, rfl, hafter⟩
  | @operator start cs _ op hrest ih =>
      cases front with
      | nil =>
          rw [List.nil_append] at hall
          exact ⟨[], _, rfl, hall ▸ .operator op hrest⟩
      | cons item front =>
          obtain ⟨before, after, rfl, hafter⟩ := ih (List.cons.inj hall).2
          rw [Nat.add_assoc, ← op.utf8Size_symbol, ← byteLength_cons] at hafter
          exact ⟨op.symbol :: before, after, rfl, hafter⟩
  | @number start inside cs n _ hnumber hends hrest ih =>
      cases front with
      | nil =>
          rw [List.nil_append] at hall
          exact ⟨[], _, rfl, hall ▸ .number hnumber hends hrest⟩
      | cons item front =>
          obtain ⟨before, after, rfl, hafter⟩ := ih (List.cons.inj hall).2
          rw [Nat.add_assoc, ← byteLength_append] at hafter
          exact ⟨inside ++ before, after, by simp, hafter⟩
  | @fault start run cs c hrun hc =>
      cases front with
      | nil =>
          rw [List.nil_append] at hall
          exact ⟨[], _, rfl, hall ▸ .fault hrun hc⟩
      | cons item front =>
          obtain ⟨-, rfl⟩ := List.append_eq_nil_iff.mp (List.cons.inj hall).2
          exact ⟨run ++ c :: cs, [], by simp, .done _⟩

/-- What stands at an operator that comes first. -/
theorem of_operator {op : Operator} {offset : Nat}
    (h : Placed source mode start cs (.ok (.operator op offset) :: items)) :
    ∃ gap after, (∀ c ∈ gap, mode.skips c = true) ∧ cs = gap ++ op.symbol :: after ∧
      offset = start + byteLength gap ∧ Placed source mode (offset + 1) after items := by
  generalize hall : .ok (.operator op offset) :: items = all at h
  induction h with
  | @skip start c cs _ hc _ ih =>
      obtain ⟨gap, after, hgap, rfl, rfl, hafter⟩ := ih hall
      exact ⟨c :: gap, after, List.forall_mem_cons.mpr ⟨hc, hgap⟩, rfl,
        by rw [byteLength_cons, Nat.add_assoc], hafter⟩
  | operator op' hrest =>
      obtain ⟨hitem, rfl⟩ := List.cons.inj hall
      obtain ⟨rfl, rfl⟩ := Token.operator.inj (Except.ok.inj hitem)
      exact ⟨[], _, List.forall_mem_nil _, rfl, rfl, hrest⟩
  | done | number | fault => simp at hall

/-- What stands at a number that comes first. -/
theorem of_number {n : Numeral}
    (h : Placed source mode start cs (.ok (.number n) :: items)) :
    ∃ gap inside after, (∀ c ∈ gap, mode.skips c = true) ∧ cs = gap ++ inside ++ after ∧
      NumberAt mode (start + byteLength gap) inside n ∧ NumberEnds after ∧
      Placed source mode (start + byteLength gap + byteLength inside) after items := by
  generalize hall : .ok (.number n) :: items = all at h
  induction h with
  | @skip start c cs _ hc _ ih =>
      obtain ⟨gap, inside, after, hgap, rfl, hnumber, hends, hafter⟩ := ih hall
      rw [Nat.add_assoc start, ← byteLength_cons] at hnumber hafter
      exact ⟨c :: gap, inside, after, List.forall_mem_cons.mpr ⟨hc, hgap⟩, rfl, hnumber,
        hends, hafter⟩
  | @number start inside cs n' _ hnumber hends hrest =>
      obtain ⟨hitem, rfl⟩ := List.cons.inj hall
      obtain rfl := Token.number.inj (Except.ok.inj hitem)
      exact ⟨[], inside, cs, List.forall_mem_nil _, rfl, hnumber, hends, hrest⟩
  | done | operator | fault => simp at hall

/-- What stands at a fault that comes first. -/
theorem of_fault {fault : Fault} (h : Placed source mode start cs (.error fault :: items)) :
    ∃ before c after, cs = before ++ c :: after ∧ isForeign c = true ∧
      fault = .unexpectedCharacter c
        ⟨source, .ofSize (start + byteLength before) c.utf8Size⟩ := by
  generalize hall : .error fault :: items = all at h
  induction h with
  | @skip start c cs _ _ _ ih =>
      obtain ⟨before, d, after, rfl, hd, rfl⟩ := ih hall
      exact ⟨c :: before, d, after, rfl, hd, by rw [byteLength_cons, Nat.add_assoc]⟩
  | @fault start run cs c hrun hc =>
      obtain rfl := Except.error.inj (List.cons.inj hall).1
      exact ⟨run, c, cs, rfl, hc, rfl⟩
  | done | operator | number => simp at hall

end Placed

end Keypad
