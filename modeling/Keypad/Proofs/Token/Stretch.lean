import Keypad.Proofs.Text.Place
import Keypad.Proofs.Token.Stream
import Mathlib.Data.List.DropRight

/-!
# The number in a stretch of text

Between two operators at most one number is read, and in permissive mode anything may stand
around its digits. This module says which number a stretch of text makes as a whole, without
a reader that goes along it: **all digits and points of the stretch**, from the first of
them to just past the last.

The place of the number holds more than its literal when something else stands between its
digits. The number is gapped exactly then, and then its literal is shorter than its place.

## Main results

* `Numeral.ofStretch?_concat`: a stretch with one more character, as the lexer sees it.
* `Numeral.ofStretch?_of_core`: the number of a stretch that is taken apart at its first and
  its last digit or point.
* `Numeral.holds_of_ofStretch?`: where the number of a stretch stands.
-/

namespace Keypad

namespace Numeral

/-- The number that a stretch of text makes, if it has any digit or point. The stretch
begins at the offset `start`. -/
def ofStretch? (start : Nat) (stretch : List Char) : Option Numeral :=
  let literal := stretch.filter isNumeric
  let front := stretch.takeWhile fun c => !isNumeric c
  let inside := (stretch.dropWhile fun c => !isNumeric c).rdropWhile fun c => !isNumeric c
  if literal = [] then none
  else some ⟨String.ofList literal, .ofSize (start + byteLength front) (byteLength inside),
    decide (byteLength literal < byteLength inside)⟩

/-- A stretch taken apart at its first and its last digit or point. -/
structure Core (front inside back : List Char) : Prop where
  front : ∀ c ∈ front, isNumeric c = false
  back : ∀ c ∈ back, isNumeric c = false
  first : ∃ c cs, inside = c :: cs ∧ isNumeric c = true
  last : ∃ cs c, inside = cs ++ [c] ∧ isNumeric c = true

namespace Core

variable {front inside back : List Char}

/-- All digits and points are inside. -/
theorem filter_eq (h : Core front inside back) :
    (front ++ inside ++ back).filter isNumeric = inside.filter isNumeric := by
  have hnone {cs : List Char} (hcs : ∀ c ∈ cs, isNumeric c = false) :
      cs.filter isNumeric = [] := by
    refine List.filter_eq_nil_iff.mpr ?_
    intro c hc
    rw [hcs c hc]
    decide
  rw [List.filter_append, List.filter_append, hnone h.front, hnone h.back, List.nil_append,
    List.append_nil]

/-- There is a digit or point inside. -/
theorem filter_ne_nil (h : Core front inside back) : inside.filter isNumeric ≠ [] := by
  obtain ⟨c, cs, rfl, hc⟩ := h.first
  rw [List.filter_cons_of_pos hc]
  exact List.cons_ne_nil _ _

/-- The front is what stands before the first digit or point. -/
theorem takeWhile_eq (h : Core front inside back) :
    ((front ++ inside ++ back).takeWhile fun c => !isNumeric c) = front := by
  obtain ⟨c, cs, rfl, hc⟩ := h.first
  have hfront : ∀ d ∈ front, (!isNumeric d) = true := fun d hd => by rw [h.front d hd]; rfl
  rw [List.append_assoc, List.takeWhile_append_of_pos hfront, List.cons_append,
    List.takeWhile_cons_of_neg (by rw [hc]; decide), List.append_nil]

/-- The inside is left when what is no digit or point is dropped at both ends. -/
theorem rdropWhile_eq (h : Core front inside back) :
    (((front ++ inside ++ back).dropWhile fun c => !isNumeric c).rdropWhile
      fun c => !isNumeric c) = inside := by
  obtain ⟨c, cs, hfirst, hc⟩ := h.first
  have hfront : ∀ d ∈ front, (!isNumeric d) = true := fun d hd => by rw [h.front d hd]; rfl
  have hback : ∀ d ∈ back.reverse, (!isNumeric d) = true := by
    intro d hd
    rw [h.back d (List.mem_reverse.mp hd)]
    rfl
  have hdrop : ((front ++ inside ++ back).dropWhile fun c => !isNumeric c) =
      inside ++ back := by
    rw [List.append_assoc, List.dropWhile_append_of_pos hfront, hfirst, List.cons_append,
      List.dropWhile_cons_of_neg (by rw [hc]; decide)]
  obtain ⟨ds, d, hlast, hd⟩ := h.last
  rw [hdrop, List.rdropWhile, List.reverse_append, List.dropWhile_append_of_pos hback, hlast,
    List.reverse_concat, List.dropWhile_cons_of_neg (by rw [hd]; decide), List.reverse_cons,
    List.reverse_reverse]

/-- The first digit or point is all of the inside. -/
theorem single {read : List Char} (hread : read.filter isNumeric = []) {c : Char}
    (hc : isNumeric c = true) : Core read [c] [] where
  front d hd := Bool.eq_false_iff.mpr (List.filter_eq_nil_iff.mp hread d hd)
  back := nofun
  first := ⟨c, [], rfl, hc⟩
  last := ⟨[], c, rfl, hc⟩

/-- One more digit or point: the inside goes on to it. -/
theorem concat (h : Core front inside back) {c : Char} (hc : isNumeric c = true) :
    Core front (inside ++ back ++ [c]) [] where
  front := h.front
  back := nofun
  first := by
    obtain ⟨d, ds, hfirst, hd⟩ := h.first
    exact ⟨d, ds ++ back ++ [c], by rw [hfirst]; rfl, hd⟩
  last := ⟨inside ++ back, c, rfl, hc⟩

/-- Between the inside and one more digit or point there are no others. -/
theorem filter_concat (h : Core front inside back) {c : Char} (hc : isNumeric c = true) :
    (inside ++ back ++ [c]).filter isNumeric = inside.filter isNumeric ++ [c] := by
  have hinside : Core [] inside back := ⟨nofun, h.back, h.first, h.last⟩
  rw [List.filter_append, ← List.nil_append inside, hinside.filter_eq, List.nil_append,
    List.filter_cons_of_pos hc, List.filter_nil]

/-- One more character that is no digit or point: the back goes on to it. -/
theorem concat_of_not (h : Core front inside back) {c : Char} (hc : isNumeric c = false) :
    Core front inside (back ++ [c]) where
  front := h.front
  back := List.forall_mem_append.mpr ⟨h.back, List.forall_mem_singleton.mpr hc⟩
  first := h.first
  last := h.last

end Core

/-- **A stretch with a digit or point can be taken apart** at the first and the last of
them. -/
theorem exists_core {stretch : List Char} (h : stretch.filter isNumeric ≠ []) :
    ∃ front inside back, stretch = front ++ inside ++ back ∧ Core front inside back := by
  induction stretch using List.reverseRecOn with
  | nil => exact absurd rfl h
  | append_singleton read c ih =>
      by_cases hc : isNumeric c = true
      · by_cases hread : read.filter isNumeric = []
        · exact ⟨read, [c], [], by simp, .single hread hc⟩
        · obtain ⟨front, inside, back, rfl, hcore⟩ := ih hread
          exact ⟨front, inside ++ back ++ [c], [], by simp, hcore.concat hc⟩
      · have hread : read.filter isNumeric ≠ [] := by
          rwa [List.filter_append, List.filter_cons_of_neg hc, List.filter_nil,
            List.append_nil] at h
        obtain ⟨front, inside, back, rfl, hcore⟩ := ih hread
        have hcore' := hcore.concat_of_not (Bool.eq_false_iff.mpr hc)
        exact ⟨front, inside, back ++ [c], by simp, hcore'⟩

/-- **The number of a stretch that is taken apart.** -/
theorem ofStretch?_of_core {front inside back : List Char} (h : Core front inside back)
    (start : Nat) :
    ofStretch? start (front ++ inside ++ back) =
      some ⟨String.ofList (inside.filter isNumeric),
        .ofSize (start + byteLength front) (byteLength inside),
        decide (byteLength (inside.filter isNumeric) < byteLength inside)⟩ := by
  simp only [ofStretch?, h.filter_eq, h.takeWhile_eq, h.rdropWhile_eq, if_neg h.filter_ne_nil]

/-- A stretch without digits and points makes no number. -/
theorem ofStretch?_of_filter_eq_nil {stretch : List Char} (h : stretch.filter isNumeric = [])
    (start : Nat) : ofStretch? start stretch = none := by
  rw [ofStretch?, h]
  exact if_pos rfl

/-- **Where the number of a stretch stands**: from its first digit or point to its last. If
there is no gap, its literal is what stands there. -/
theorem holds_of_ofStretch? {start : Nat} {stretch : List Char} {n : Numeral}
    (h : ofStretch? start stretch = some n) :
    ∃ inside, inside ≠ [] ∧ n.span.Holds start stretch inside ∧
      (n.gapped = false → n.literal = String.ofList inside) := by
  have hnumeric : stretch.filter isNumeric ≠ [] := by
    intro hnone
    rw [ofStretch?_of_filter_eq_nil hnone] at h
    exact nomatch h
  obtain ⟨front, inside, back, rfl, hcore⟩ := exists_core hnumeric
  rw [ofStretch?_of_core hcore] at h
  obtain rfl := Option.some.inj h
  refine ⟨inside, ?_, ⟨front, back, rfl, rfl⟩, ?_⟩
  · obtain ⟨c, cs, rfl, -⟩ := hcore.first
    exact List.cons_ne_nil c cs
  · intro hgap
    have hall : inside.filter isNumeric = inside :=
      (byteLength_filter_lt_or_eq isNumeric inside).resolve_left (of_decide_eq_false hgap)
    rw [hall]

/-! ### One more character -/

/-- A character that is no digit or point leaves the number as it is. -/
theorem ofStretch?_concat_of_not {c : Char} (hc : isNumeric c = false) (start : Nat)
    (read : List Char) : ofStretch? start (read ++ [c]) = ofStretch? start read := by
  by_cases hread : read.filter isNumeric = []
  · have hconcat : (read ++ [c]).filter isNumeric = [] := by
      rw [List.filter_append, hread, List.filter_cons_of_neg (by rw [hc]; decide)]
      rfl
    rw [ofStretch?_of_filter_eq_nil hread, ofStretch?_of_filter_eq_nil hconcat]
  · obtain ⟨front, inside, back, rfl, hcore⟩ := exists_core hread
    rw [List.append_assoc _ back, ofStretch?_of_core hcore,
      ofStretch?_of_core (hcore.concat_of_not hc)]

/-- A digit or point extends the number, or begins it. -/
theorem ofStretch?_concat {c : Char} (hc : isNumeric c = true) (start : Nat)
    (read : List Char) :
    ofStretch? start (read ++ [c]) =
      some (extend (ofStretch? start read) c (start + byteLength read)) := by
  by_cases hread : read.filter isNumeric = []
  · have hnumber := ofStretch?_of_core (.single hread hc) start
    rw [List.append_nil, List.filter_cons_of_pos hc, List.filter_nil] at hnumber
    rw [hnumber, ofStretch?_of_filter_eq_nil hread, extend, single, byteLength_cons,
      byteLength_nil, Nat.add_zero, decide_eq_false (Nat.lt_irrefl _),
      String.singleton_eq_ofList]
  · obtain ⟨front, inside, back, rfl, hcore⟩ := exists_core hread
    have hnumber := ofStretch?_of_core (hcore.concat hc) start
    have hle := byteLength_filter_le isNumeric inside
    have hpush : (String.ofList (inside.filter isNumeric)).push c =
        String.ofList (inside.filter isNumeric ++ [c]) := by
      rw [← String.toList_inj, String.toList_push, String.toList_ofList, String.toList_ofList]
    rw [List.append_nil, hcore.filter_concat hc, ← List.append_assoc,
      ← List.append_assoc] at hnumber
    rw [hnumber, ofStretch?_of_core hcore, extend, push, hpush]
    simp only [Span.ofSize, byteLength_append, byteLength_cons, byteLength_nil, Nat.add_zero,
      Option.some.injEq, Numeral.mk.injEq, Span.mk.injEq, true_and]
    refine ⟨by omega, ?_⟩
    -- the gap is either there already, or between the number so far and the character
    rw [Bool.eq_iff_iff, Bool.or_eq_true, decide_eq_true_iff, decide_eq_true_iff, bne_iff_ne]
    omega

end Numeral

end Keypad
