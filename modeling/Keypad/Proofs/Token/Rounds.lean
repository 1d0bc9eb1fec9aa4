import Keypad.Proofs.Text.Slice
import Keypad.Proofs.Token.Calls
import Keypad.Proofs.Token.Placed

/-!
# Round by round through a text

A call of the lexer is a loop over characters. This module looks into the loop: one round
reads one character, and either goes on or ends the call in one of four ways. At every round
of every call **the parts of the state agree with the text**: what is left is the part of the
text from the offset on, a queued operator stands just in front of the offset, and the number
read so far lies between two boundaries of the text.

Within a call the number read so far is that of all characters read by the call, whatever
was skipped among them. From this one equation everything else about the number follows; in
particular its literal could as well be cut out of the text, and no such cut would fail.

A call that hands something out takes a token from the queue or characters from the text. An
operator is only queued behind a number, so the characters of a text are at least as many as
its items.

## Main definitions

* `Lexer.Reading`: the state of the loop between two rounds.
* `Lexer.Reaches`: the states that a call of a lexer comes through.
* `Lexer.InPlace`, `Lexer.Reading.InPlace`: the state agrees with the text.
* `Numeral.cutExtend?`: one more character, with the literal cut out of the text.

## Main results

* `Lexer.comesTo_round`: what a round can come to.
* `Lexer.Since.goOn`, `Lexer.Since.exists_left`: what a round keeps, and what the end of the
  loop leaves.
* `Lexer.takes_of_next`: a call that hands something out takes something.
* `Lexer.calls_in_place`: **every call and every round**, in every text.
-/

namespace Keypad

namespace Lexer

/-! ### One round -/

/-- What a round can come to: it goes on in two ways, and ends the call in four. -/
inductive ComesTo (source : String) : Option Numeral → Nat → Char → Round → Prop
  | extend {pending : Option Numeral} {offset : Nat} {c : Char} :
      isNumeric c = true →
      ComesTo source pending offset c (.goOn (some (Numeral.extend pending c offset)))
  | skip {pending : Option Numeral} {offset : Nat} {c : Char} :
      isNumeric c = false → ComesTo source pending offset c (.goOn pending)
  | operatorBehind {n : Numeral} {offset : Nat} {op : Operator} :
      ComesTo source (some n) offset op.symbol
        (.handOut (.number n) (some (.operator op offset)))
  | operator {offset : Nat} {op : Operator} :
      ComesTo source none offset op.symbol (.handOut (.operator op offset) none)
  | blankBehind {n : Numeral} {offset : Nat} {c : Char} :
      ComesTo source (some n) offset c (.handOut (.number n) none)
  | foreign {pending : Option Numeral} {offset : Nat} {c : Char} :
      ComesTo source pending offset c
        (.giveUp (.unexpectedCharacter c ⟨source, .ofSize offset c.utf8Size⟩))

/-- **Every round comes to one of these.** -/
theorem comesTo_round (source : String) (mode : Mode) (pending : Option Numeral) (offset : Nat)
    (c : Char) : ComesTo source pending offset c (round source mode pending offset c) := by
  have hspec := Glyph.ofChar_spec c
  have hskip (hglyph : Glyph.ofChar c ≠ .numeric) : isNumeric c = false :=
    Bool.eq_false_iff.mpr fun hc => hglyph (Glyph.ofChar_of_isNumeric hc)
  cases hglyph : Glyph.ofChar c with
  | numeric =>
      rw [hglyph] at hspec
      simp only [round, hglyph]
      exact .extend hspec
  | operator op =>
      rw [hglyph] at hspec
      obtain rfl := hspec
      cases pending with
      | none => simp only [round, hglyph]; exact .operator
      | some n => simp only [round, hglyph]; exact .operatorBehind
  | blank =>
      have hc : isNumeric c = false := hskip (by rw [hglyph]; decide)
      cases mode with
      | permissive => simp only [round, hglyph]; exact .skip hc
      | strict =>
          cases pending with
          | none => simp only [round, hglyph]; exact .skip hc
          | some n => simp only [round, hglyph]; exact .blankBehind
  | foreign =>
      have hc : isNumeric c = false := hskip (by rw [hglyph]; decide)
      cases mode with
      | permissive => simp only [round, hglyph]; exact .skip hc
      | strict => simp only [round, hglyph]; exact .foreign

/-- The loop of a call between two rounds. -/
structure Reading where
  /-- The number read so far. -/
  pending : Option Numeral
  /-- The byte offset at which the characters that are left begin. -/
  offset : Nat
  /-- The characters that are left. -/
  rest : List Char

variable {l l' : Lexer} {r : Reading} {source text : String} {mode : Mode} {c : Char}
  {pending pending' : Option Numeral} {offset : Nat} {item : Option Item}
  {read before rest : List Char}

/-- **A round that goes on** extends the number by its character, or skips it. -/
theorem pending_of_goOn (h : round source mode pending offset c = .goOn pending') :
    isNumeric c = true ∧ pending' = some (Numeral.extend pending c offset) ∨
      isNumeric c = false ∧ pending' = pending := by
  have hcomes := comesTo_round source mode pending offset c
  rw [h] at hcomes
  cases hcomes with
  | extend hc => exact .inl ⟨hc, rfl⟩
  | skip hc => exact .inr ⟨hc, rfl⟩

/-- **A round that hands out a token** has read it. It queues a token only behind a number, and
then the operator that it has read. -/
theorem queued_of_handOut {token : Token} {queued : Option Token}
    (h : round source mode pending offset c = .handOut token queued) :
    ∀ next, queued = some next →
      pending ≠ none ∧ ∃ op : Operator, c = op.symbol ∧ next = .operator op offset := by
  have hcomes := comesTo_round source mode pending offset c
  rw [h] at hcomes
  cases hcomes with
  | operatorBehind =>
      rintro next ⟨⟩
      exact ⟨nofun, _, rfl, rfl⟩
  | operator => exact nofun
  | blankBehind => exact nofun

/-- What the end of the loop leaves, when its last round reads the characters `last`. -/
structure Left (r : Reading) (item : Option Item) (l : Lexer) (last : List Char) : Prop where
  rest : r.rest = last ++ l.rest
  offset : l.offset = r.offset + byteLength last
  /-- Only an operator is queued, and only behind a number. -/
  queued : ∀ token, l.queued = some token →
    r.pending ≠ none ∧ ∃ op, last = [op.symbol] ∧ token = .operator op r.offset
  /-- What is handed out has been read. -/
  moved : item ≠ none → r.pending ≠ none ∨ last ≠ []

/-! ### The rounds of a call -/

/-- Within one call the loop has come from the lexer to this state by reading the characters
`read`. The number read so far is that of all of them, whatever was skipped. -/
structure Since (l : Lexer) (r : Reading) (read : List Char) : Prop where
  rest : l.rest = read ++ r.rest
  offset : r.offset = l.offset + byteLength read
  pending : r.pending = Numeral.ofStretch? l.offset read

/-- A call begins with nothing read. -/
theorem Since.start (l : Lexer) : Since l ⟨none, l.offset, l.rest⟩ [] :=
  ⟨rfl, rfl, rfl⟩

/-- **The next round** has read one character more. -/
theorem Since.goOn (h : Since l ⟨pending, offset, c :: rest⟩ read)
    (hround : round source mode pending offset c = .goOn pending') :
    Since l ⟨pending', offset + c.utf8Size, rest⟩ (read ++ [c]) := by
  obtain ⟨hrest, hoffset, hpending⟩ := h
  dsimp only at hrest hoffset hpending
  refine ⟨?_, ?_, ?_⟩
  · rw [hrest, List.append_assoc]
    rfl
  · rw [hoffset, byteLength_append, byteLength_cons, byteLength_nil, Nat.add_zero,
      Nat.add_assoc]
  · rcases pending_of_goOn hround with ⟨hc, rfl⟩ | ⟨hc, rfl⟩
    · rw [Numeral.ofStretch?_concat hc, ← hpending, ← hoffset]
    · rw [Numeral.ofStretch?_concat_of_not hc, ← hpending]

/-- The states of the loop that the next call of a lexer comes through. -/
inductive Reaches (l : Lexer) : Reading → Prop
  /-- With nothing queued, the call begins the loop. -/
  | start : l.queued = none → Reaches l ⟨none, l.offset, l.rest⟩
  | round {pending pending' : Option Numeral} {offset : Nat} {c : Char} {rest : List Char} :
      Reaches l ⟨pending, offset, c :: rest⟩ →
      Lexer.round l.source l.mode pending offset c = .goOn pending' →
      Reaches l ⟨pending', offset + c.utf8Size, rest⟩

/-- **What a call comes through** follows from where it began. -/
theorem Reaches.exists_since (h : Reaches l r) : ∃ read, Since l r read := by
  induction h with
  | start => exact ⟨[], Since.start l⟩
  | round _ hround ih =>
      obtain ⟨read, hsince⟩ := ih
      exact ⟨_, hsince.goOn hround⟩

/-- There is no number before a character is read. -/
theorem Since.read_ne_nil (h : Since l r read) (hpending : r.pending ≠ none) : read ≠ [] := by
  rintro rfl
  exact hpending h.pending

/-- **The end of the loop**, after rounds that go on. -/
theorem Since.exists_left {cs : List Char} (h : Since l ⟨pending, offset, cs⟩ read)
    (hscan : scan source mode pending offset cs = (item, l')) :
    ∃ r read last, Since l r read ∧ Left r item l' last := by
  induction cs generalizing pending offset read with
  | nil =>
      obtain ⟨rfl, rfl⟩ := Prod.mk.inj hscan
      refine ⟨_, read, [], h, rfl, rfl, fun _ hnext => absurd hnext.symm (Option.some_ne_none _),
        fun hitem => .inl ?_⟩
      rintro rfl
      exact hitem rfl
  | cons c rest ih =>
      rw [scan] at hscan
      cases hround : round source mode pending offset c with
      | goOn pending' =>
          rw [hround] at hscan
          exact ih (h.goOn hround) hscan
      | handOut token queued =>
          rw [hround] at hscan
          obtain ⟨rfl, rfl⟩ := Prod.mk.inj hscan
          refine ⟨_, read, [c], h, rfl, rfl, ?_, fun _ => .inr (List.cons_ne_nil _ _)⟩
          intro next hnext
          obtain ⟨hpending, op, rfl, rfl⟩ := queued_of_handOut hround next hnext
          exact ⟨hpending, op, rfl, rfl⟩
      | giveUp fault =>
          rw [hround] at hscan
          obtain ⟨rfl, rfl⟩ := Prod.mk.inj hscan
          refine ⟨_, read, c :: rest, h, (List.append_nil _).symm, ?_,
            fun _ hnext => absurd hnext.symm (Option.some_ne_none _),
            fun _ => .inr (List.cons_ne_nil _ _)⟩
          rw [byteLength_cons, Nat.add_assoc]

/-! ### A call -/

/-- **A call** takes the queued token, or it runs the loop. -/
theorem cases_next (h : l.next = (item, l')) :
    (∃ token, l.queued = some token ∧ item = some (.ok token) ∧ l' = { l with queued := none }) ∨
      l.queued = none ∧ ∃ r read last, Since l r read ∧ Left r item l' last := by
  rw [next] at h
  split at h
  · next token hqueued =>
      obtain ⟨rfl, rfl⟩ := Prod.mk.inj h
      exact .inl ⟨token, hqueued, rfl, rfl⟩
  · next hqueued => exact .inr ⟨hqueued, (Since.start l).exists_left h⟩

/-- How many tokens are queued. -/
def queuedCount (l : Lexer) : Nat :=
  if l.queued.isSome then 1 else 0

/-- **A call that hands something out takes something**: the queued token, or more characters
of the text than it puts tokens in the queue. -/
theorem takes_of_next {item : Item} (h : l.next = (some item, l')) :
    (l.queuedCount = 1 ∧ l'.rest = l.rest ∧ l'.queuedCount = 0) ∨
      ∃ taken, l.rest = taken ++ l'.rest ∧ l.queuedCount = 0 ∧
        l'.queuedCount < taken.length := by
  rcases cases_next h with ⟨token, hqueued, -, rfl⟩ | ⟨hqueued, r, read, last, hsince, hleft⟩
  · exact .inl ⟨by rw [queuedCount, hqueued]; rfl, rfl, rfl⟩
  · refine .inr ⟨read ++ last, ?_, by rw [queuedCount, hqueued]; rfl, ?_⟩
    · rw [hsince.rest, hleft.rest, List.append_assoc]
    · rw [queuedCount, List.length_append]
      cases hnext : l'.queued with
      | some token =>
          obtain ⟨hpending, op, hlast, -⟩ := hleft.queued token hnext
          have hread := List.length_pos_iff.mpr (hsince.read_ne_nil hpending)
          rw [hlast, List.length_singleton, Option.isSome_some, if_pos rfl]
          omega
      | none =>
          rw [Option.isSome_none, if_neg Bool.false_ne_true]
          rcases hleft.moved nofun with hpending | hlast
          · have hread := List.length_pos_iff.mpr (hsince.read_ne_nil hpending)
            omega
          · have hlast := List.length_pos_iff.mpr hlast
            omega

/-- How much is left to do, with what is left of the text counted in bytes. -/
def byteWeight (l : Lexer) : Nat :=
  2 * byteLength l.rest + l.queuedCount

/-- **A call that hands something out leaves fewer bytes to do.** -/
theorem byteWeight_lt_of_next {item : Item} (h : l.next = (some item, l')) :
    l'.byteWeight < l.byteWeight := by
  rw [byteWeight, byteWeight]
  rcases takes_of_next h with ⟨hcount, hrest, hcount'⟩ | ⟨taken, hrest, hcount, hcount'⟩
  · rw [hcount, hrest, hcount']
    omega
  · have hbytes : taken.length ≤ byteLength taken := length_le_byteLength taken
    rw [hrest, byteLength_append, hcount]
    omega

/-- **Every item has characters of its own**, or it is queued. -/
theorem length_items_le (l : Lexer) : l.items.length ≤ l.rest.length + l.queuedCount := by
  fun_induction items l with
  | case1 => exact Nat.zero_le _
  | case2 l item l' hnext ih =>
      rw [List.length_cons]
      rcases takes_of_next hnext with ⟨hcount, hrest, hcount'⟩ | ⟨taken, hrest, hcount, hcount'⟩
      · rw [hrest, hcount'] at ih
        omega
      · rw [hrest, List.length_append, hcount]
        omega

/-! ### Places in the text -/

/-- The lexer has come to the characters behind `before`. -/
structure Stands (text : String) (l : Lexer) (before : List Char) : Prop where
  source : l.source = text
  chars : text.toList = before ++ l.rest
  offset : l.offset = byteLength before
  queued : ∀ token, l.queued = some token →
    ∃ front op, before = front ++ [op.symbol] ∧ token = .operator op (byteLength front)

/-- At first nothing is in front. -/
theorem Stands.ofText (mode : Mode) (text : String) : Stands text (ofText mode text) [] :=
  ⟨rfl, rfl, rfl, nofun⟩

/-- **A call moves on in the text.** -/
theorem Stands.next (h : Stands text l before) (hnext : l.next = (item, l')) :
    ∃ before', Stands text l' before' := by
  have hsource : l'.source = text := by
    rw [← h.source, ← source_next l, hnext]
  rcases cases_next hnext with ⟨token, -, -, rfl⟩ | ⟨-, r, read, last, hsince, hleft⟩
  · exact ⟨before, hsource, h.chars, h.offset, nofun⟩
  · have hoffset : r.offset = byteLength (before ++ read) := by
      rw [hsince.offset, h.offset, byteLength_append]
    refine ⟨before ++ read ++ last, hsource, ?_, ?_, ?_⟩
    · rw [h.chars, hsince.rest, hleft.rest, List.append_assoc, List.append_assoc]
    · rw [hleft.offset, hoffset, ← byteLength_append]
    · intro token hqueued
      obtain ⟨-, op, rfl, rfl⟩ := hleft.queued token hqueued
      exact ⟨before ++ read, op, rfl, by rw [hoffset]⟩

/-- So does every number of calls. -/
theorem exists_stands_after (mode : Mode) (text : String) (n : Nat) :
    ∃ before, Stands text ((ofText mode text).after n) before := by
  induction n with
  | zero => exact ⟨[], Stands.ofText mode text⟩
  | succ n ih =>
      obtain ⟨before, h⟩ := ih
      rw [after_succ]
      exact h.next rfl

/-- The lexer agrees with the text: what is left is the part of the text from the offset on,
and a queued operator stands in front of the offset. -/
structure InPlace (text : String) (l : Lexer) : Prop where
  source : l.source = text
  boundary : IsBoundary text l.offset
  rest : Span.slice? ⟨l.offset, text.utf8ByteSize⟩ text = some (String.ofList l.rest)
  queued : ∀ token, l.queued = some token →
    ∃ op, token = .operator op (l.offset - 1) ∧
      Span.slice? ⟨l.offset - 1, l.offset⟩ text = some (String.singleton op.symbol)

/-- **Where it stands, the lexer agrees with the text.** -/
theorem Stands.inPlace (h : Stands text l before) : l.InPlace text where
  source := h.source
  boundary := isBoundary_iff.mpr ⟨before, l.rest, h.chars, h.offset⟩
  rest := by
    rw [h.offset]
    exact Span.slice?_to_end h.chars
  queued := by
    intro token hqueued
    obtain ⟨front, op, rfl, rfl⟩ := h.queued token hqueued
    have hoffset : l.offset = byteLength front + 1 := by
      rw [h.offset, byteLength_append, byteLength_cons, Operator.utf8Size_symbol]
      rfl
    rw [hoffset, Nat.add_sub_cancel]
    refine ⟨op, rfl, Span.Holds.slice?_eq ⟨front, l.rest, ?_, ?_⟩⟩
    · rw [h.chars, String.toList_singleton]
    · rw [String.toList_singleton, byteLength_cons, Operator.utf8Size_symbol, Nat.zero_add]
      rfl

/-- The loop agrees with the text: what is left is the part of the text from the offset on,
and the number read so far lies between two boundaries in front of it. As long as there is no
gap, its literal is what stands between them. -/
structure Reading.InPlace (text : String) (r : Reading) : Prop where
  boundary : IsBoundary text r.offset
  rest : Span.slice? ⟨r.offset, text.utf8ByteSize⟩ text = some (String.ofList r.rest)
  pending : ∀ n, r.pending = some n →
    IsBoundary text n.span.start ∧ IsBoundary text n.span.stop ∧
      n.span.start < n.span.stop ∧ n.span.stop ≤ r.offset ∧
      (n.gapped = false → n.span.slice? text = some n.literal)

/-- **Where it has come to, the loop agrees with the text.** -/
theorem Stands.inPlace_of_reaches (h : Stands text l before) (hr : l.Reaches r) :
    r.InPlace text := by
  obtain ⟨read, hsince⟩ := hr.exists_since
  have hchars : text.toList = before ++ read ++ r.rest := by
    rw [h.chars, hsince.rest, List.append_assoc]
  have hoffset : r.offset = byteLength (before ++ read) := by
    rw [hsince.offset, h.offset, byteLength_append]
  refine ⟨isBoundary_iff.mpr ⟨before ++ read, r.rest, hchars, hoffset⟩, ?_, ?_⟩
  · rw [hoffset]
    exact Span.slice?_to_end hchars
  · intro n hn
    obtain ⟨inside, hne, hread, hliteral⟩ :=
      Numeral.holds_of_ofStretch? (hsince.pending.symm.trans hn)
    have htext : n.span.Holds 0 text.toList inside := by
      have hrest : n.span.Holds l.offset l.rest inside := by
        rw [hsince.rest]
        exact hread.append_left r.rest
      rw [h.chars]
      refine Span.Holds.append_right ?_
      rw [Nat.zero_add, ← h.offset]
      exact hrest
    have hsize : byteLength inside ≠ 0 := mt byteLength_eq_zero_iff.mp hne
    obtain ⟨-, hstop, hend⟩ := hread.bounds
    refine ⟨htext.isBoundary.1, htext.isBoundary.2, by omega, ?_, ?_⟩
    · rw [hsince.offset]
      exact hend
    · intro hgap
      refine Span.Holds.slice?_eq ?_
      rw [hliteral hgap, String.toList_ofList]
      exact htext

end Lexer

/-! ### Literals that are cut out -/

/-- The number read so far, if any, with one more character, when literals are cut out of the
text: as long as there is no gap, the literal is what stands between the ends of the number.
The cut may fail. -/
def Numeral.cutExtend? (text : String) (pending : Option Numeral) (c : Char) (offset : Nat) :
    Option Numeral :=
  let stop := offset + c.utf8Size
  match pending with
  | none =>
      (Span.slice? ⟨offset, stop⟩ text).map fun literal => ⟨literal, ⟨offset, stop⟩, false⟩
  | some n =>
      let span : Span := ⟨n.span.start, stop⟩
      if n.gapped = false ∧ n.span.stop = offset then
        (span.slice? text).map fun literal => ⟨literal, span, false⟩
      else some ⟨n.literal.push c, span, true⟩

/-- Where the literal stands in the text, it can as well be cut out. -/
theorem Numeral.cutExtend?_eq {text : String} {pending : Option Numeral} {c : Char}
    {offset : Nat}
    (h : (extend pending c offset).gapped = false →
      (extend pending c offset).span.slice? text = some (extend pending c offset).literal) :
    cutExtend? text pending c offset = some (extend pending c offset) := by
  cases pending with
  | none =>
      have hslice : Span.slice? ⟨offset, offset + c.utf8Size⟩ text = some (.singleton c) := h rfl
      rw [cutExtend?, hslice]
      rfl
  | some n =>
      rw [cutExtend?, extend, push]
      by_cases hgap : n.gapped = false ∧ n.span.stop = offset
      · have hwhole : (n.gapped || n.span.stop != offset) = false := by
          rw [hgap.1, hgap.2, Bool.false_or, bne_self_eq_false]
        have hslice := h hwhole
        simp only [extend, push] at hslice
        rw [if_pos hgap, hslice, hwhole]
        rfl
      · have hgapped : (n.gapped || n.span.stop != offset) = true := by
          rw [← Bool.not_eq_false, Bool.or_eq_false_iff, bne_eq_false_iff_eq]
          exact hgap
        rw [if_neg hgap, hgapped]

namespace Lexer

/-- **Every call and every round**, in every text and mode. Between two calls what is left is
the part of the text from the offset on, and a queued token is the operator in front of the
offset; between two rounds the number read so far lies between two boundaries, and cutting
its literal out of the text never fails. A call that hands something out leaves less to do,
in characters and in bytes, also if it only hands out what is queued. One that hands out
nothing has come to the end of the text, and so have all calls after it. In this way a text
has no more items than characters. -/
theorem calls_in_place (mode : Mode) (text : String) :
    let lexer (n : Nat) := (ofText mode text).after n
    (∀ n, (lexer n).InPlace text) ∧
      (∀ n r, (lexer n).Reaches r → r.InPlace text ∧
        ∀ c rest, r.rest = c :: rest → isNumeric c = true →
          Numeral.cutExtend? text r.pending c r.offset =
            some (Numeral.extend r.pending c r.offset)) ∧
      (∀ n, (lexer n).next.1 ≠ none →
        (lexer (n + 1)).weight < (lexer n).weight ∧
          (lexer (n + 1)).byteWeight < (lexer n).byteWeight) ∧
      (∀ n, (lexer n).next.1 = none →
        (lexer n).queued = none ∧ (lexer (n + 1)).rest = [] ∧
          (lexer (n + 1)).queued = none ∧ ∀ m, n ≤ m → (lexer m).next.1 = none) ∧
      ∃ items, (ofText mode text).Yields items ∧ items.length ≤ text.length := by
  intro lexer
  refine ⟨?_, ?_, ?_, ?_, (ofText mode text).items, yields_iff.mpr rfl, ?_⟩
  · intro n
    obtain ⟨before, hstands⟩ := exists_stands_after mode text n
    exact hstands.inPlace
  · intro n r hr
    obtain ⟨before, hstands⟩ := exists_stands_after mode text n
    refine ⟨hstands.inPlace_of_reaches hr, ?_⟩
    intro c rest hrest hc
    -- the number with the character is the one of the next round
    obtain ⟨pending, offset, cs⟩ := r
    obtain rfl : cs = c :: rest := hrest
    have hround : round (lexer n).source (lexer n).mode pending offset c =
        .goOn (some (Numeral.extend pending c offset)) := by
      simp only [round, Glyph.ofChar_of_isNumeric hc]
    have hnext := hstands.inPlace_of_reaches (hr.round hround)
    obtain ⟨-, -, -, -, hslice⟩ := hnext.pending _ rfl
    exact Numeral.cutExtend?_eq hslice
  · intro n hitem
    obtain ⟨item, hitem⟩ := Option.ne_none_iff_exists'.mp hitem
    have hnext : (lexer n).next = (some item, lexer (n + 1)) :=
      Prod.ext hitem (after_succ _ n).symm
    exact ⟨next_weight_lt hnext, byteWeight_lt_of_next hnext⟩
  · intro n hitem
    have hnext : (lexer n).next = (none, lexer (n + 1)) := Prod.ext hitem (after_succ _ n).symm
    obtain ⟨hqueued, hrest, hqueued'⟩ := ended_of_next hnext
    refine ⟨hqueued, hrest, hqueued', ?_⟩
    intro m hm
    rw [next_after, List.getElem?_eq_none_iff] at hitem ⊢
    exact Nat.le_trans hitem hm
  · have hlength := length_items_le (ofText mode text)
    have hcount : (ofText mode text).queuedCount = 0 := rfl
    rw [hcount, Nat.add_zero] at hlength
    exact hlength.trans_eq String.length_toList

end Lexer

end Keypad
