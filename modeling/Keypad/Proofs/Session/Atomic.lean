import Keypad.Proofs.Session.Press

/-!
# A press does all of its work or none

A session has two parts that keys work on: the expression with the display that shows it,
and the memory. A key that does its work touches **one of the two parts only**, and the
mode never. A key that cannot do its work touches nothing, since its tests come before its
change; only a failed `=` drops the expression and says so on the display.

What a key **reads** is as little: a key that works on the expression reads the expression and
its value, and of the keys among them only `MR` looks into the memory.

## Main results

* `Session.frame_of_effect`: what an effect leaves alone.
* `Session.effect_withSettings`: what an effect does not read.
* `Session.current_bind_remember`: a value that is not finite is not put into memory.
* `Session.press_atomic`: **a press does all of its work or none.**
-/

namespace Keypad

/-- The keys that work on the memory. All others work on the expression. -/
def Key.worksOnMemory : Key → Bool
  | memoryClear | memoryAdd | memorySubtract => true
  | input _ | backspace | clear | memoryRecall | function _ | equals => false

namespace Key

/-- Which keys work on the memory. -/
theorem eq_of_worksOnMemory {key : Key} (h : key.worksOnMemory = true) :
    key = memoryClear ∨ key = memoryAdd ∨ key = memorySubtract := by
  cases key with
  | memoryClear => exact .inl rfl
  | memoryAdd => exact .inr (.inl rfl)
  | memorySubtract => exact .inr (.inr rfl)
  | input | backspace | clear | memoryRecall | function | equals => exact nomatch h

/-- Which keys work on the expression. -/
theorem eq_of_not_worksOnMemory {key : Key} (h : key.worksOnMemory = false) :
    (∃ c, key = input c) ∨ key = backspace ∨ key = clear ∨ key = memoryRecall ∨
      (∃ f, key = function f) ∨ key = equals := by
  cases key with
  | input c => exact .inl ⟨c, rfl⟩
  | backspace => exact .inr (.inl rfl)
  | clear => exact .inr (.inr (.inl rfl))
  | memoryRecall => exact .inr (.inr (.inr (.inl rfl)))
  | function f => exact .inr (.inr (.inr (.inr (.inl ⟨f, rfl⟩))))
  | equals => exact .inr (.inr (.inr (.inr (.inr rfl))))
  | memoryClear | memoryAdd | memorySubtract => exact nomatch h

end Key

/-- A value that is not finite is refused. -/
theorem requireFinite_of_isFinite_eq_false {x : Float} (h : x.isFinite = false) :
    requireFinite x = .error .nonFiniteResult := by
  rw [requireFinite, if_neg (by rw [h]; decide)]

namespace Session

variable {s next : Session}

/-! ### Keys that do their work -/

/-- Taking back a character touches the expression and the display. -/
theorem takeBack_frame (s : Session) :
    s.takeBack =
      { s with expression := s.takeBack.expression, display := s.takeBack.display } := by
  rw [takeBack]
  split
  · rfl
  · rfl
  · rfl

/-- **What an effect leaves alone**: the keys that work on the memory touch nothing else,
and the other keys touch the expression and the display only. -/
theorem frame_of_effect {key : Key} (h : s.effect key = .ok next) :
    key.worksOnMemory = true ∧ next = { s with memory := next.memory } ∨
      key.worksOnMemory = false ∧
        next = { s with expression := next.expression, display := next.display } := by
  cases key with
  | input c =>
      obtain ⟨-, rfl⟩ := effect_input_eq_ok_iff.mp h
      exact .inr ⟨rfl, rfl⟩
  | backspace =>
      obtain rfl := Except.ok.inj h
      exact .inr ⟨rfl, s.takeBack_frame⟩
  | clear | memoryRecall =>
      obtain rfl := Except.ok.inj h
      exact .inr ⟨rfl, rfl⟩
  | memoryClear =>
      obtain rfl := Except.ok.inj h
      exact .inl ⟨rfl, rfl⟩
  | memoryAdd =>
      obtain ⟨x, -, -, rfl⟩ := effect_memoryAdd_eq_ok_iff.mp h
      exact .inl ⟨rfl, rfl⟩
  | memorySubtract =>
      obtain ⟨x, -, -, rfl⟩ := effect_memorySubtract_eq_ok_iff.mp h
      exact .inl ⟨rfl, rfl⟩
  | function f =>
      obtain ⟨x, y, -, -, rfl⟩ := effect_function_eq_ok_iff.mp h
      exact .inr ⟨rfl, rfl⟩
  | equals =>
      obtain ⟨x, -, rfl⟩ := effect_equals_eq_ok_iff.mp h
      exact .inr ⟨rfl, rfl⟩

/-- No effect touches the mode. -/
theorem mode_of_effect {key : Key} (h : s.effect key = .ok next) : next.mode = s.mode := by
  rcases frame_of_effect h with ⟨-, hframe⟩ | ⟨-, hframe⟩
  · rw [hframe]
  · rw [hframe]

/-! ### What an effect reads -/

/-- The same session with another value in memory, and in another mode. -/
def withSettings (s : Session) (m : Float) (mode : Mode) : Session :=
  { s with memory := m, mode := mode }

section WithSettings

variable (s : Session) (m : Float) (mode : Mode)

/-- Taking back a character reads the expression only. -/
theorem takeBack_withSettings :
    (s.withSettings m mode).takeBack = s.takeBack.withSettings m mode := by
  have hexpression : (s.withSettings m mode).expression = s.expression := rfl
  rw [takeBack, takeBack, hexpression]
  rcases s.expression.toList with _ | ⟨c, _ | ⟨c', cs⟩⟩
  · rfl
  · rfl
  · rfl

/-- Typing a character reads the expression only. -/
theorem effect_input_withSettings (c : Char) :
    (s.withSettings m mode).effect (.input c) =
      (s.effect (.input c)).map (·.withSettings m mode) := by
  rw [effect_input, effect_input]
  split
  · rfl
  · rfl

/-- **What an effect does not read**: a key that works on the expression has the same effect
with another memory and in another mode, as long as the expression has the same value there.
The one exception is `MR`, which types what is remembered. -/
theorem effect_withSettings {key : Key}
    (hcurrent : (s.withSettings m mode).current = s.current)
    (hworks : key.worksOnMemory = false) (hrecall : key ≠ .memoryRecall) :
    (s.withSettings m mode).effect key = (s.effect key).map (·.withSettings m mode) := by
  cases key with
  | input c => exact s.effect_input_withSettings m mode c
  | backspace => exact congrArg Except.ok (s.takeBack_withSettings m mode)
  | clear => rfl
  | memoryRecall => exact absurd rfl hrecall
  | memoryClear | memoryAdd | memorySubtract => exact nomatch hworks
  | function f =>
      rw [effect_function, effect_function, hcurrent]
      cases s.current with
      | error fault => rfl
      | ok x =>
          change (f.apply x >>= _) = Except.map _ (f.apply x >>= _)
          cases f.apply x with
          | error fault => rfl
          | ok y => rfl
  | equals =>
      rw [effect_equals, effect_equals, hcurrent]
      cases s.current with
      | error fault => rfl
      | ok x => rfl

end WithSettings

/-! ### Keys that cannot -/

/-- A value that is not finite is not put into memory, if the expression has a value. -/
theorem current_bind_remember {x : Float} {f : Float → Float}
    (hvalue : evaluate s.mode s.expression = .ok x) (hsum : (f x).isFinite = false) :
    (s.current >>= fun x => s.remember (f x)) = .error .nonFiniteResult := by
  cases hx : x.isFinite with
  | true =>
      rw [current_eq_ok_iff.mpr ⟨hvalue, hx⟩]
      change s.remember (f x) = _
      rw [remember, requireFinite_of_isFinite_eq_false hsum]
      rfl
  | false =>
      rw [current, hvalue]
      change requireFinite x >>= _ = _
      rw [requireFinite_of_isFinite_eq_false hx]
      rfl

/-! ### Every press -/

/-- **A press does all of its work or none**, in every session. After a fault the session
is what it was; only a failed `=` drops the expression and shows `Error`, and keeps memory
and mode. Without a fault, the memory can change only by a key that works on it, and the
expression and the display only by one that does not. Four keys never fail, and a sum that
is not finite leaves the memory as it was. -/
theorem press_atomic (s : Session) (key : Key) :
    (∀ fault, (s.press key).2 = some fault →
      (key ≠ .equals → (s.press key).1 = s) ∧
        (key = .equals → (s.press key).1 = ⟨"", "Error", s.memory, s.mode⟩)) ∧
      ((s.press key).2 = none →
        let next := (s.press key).1
        next.mode = s.mode ∧
          (next.memory ≠ s.memory →
            key = .memoryClear ∨ key = .memoryAdd ∨ key = .memorySubtract) ∧
          (next.expression ≠ s.expression ∨ next.display ≠ s.display →
            (∃ c, key = .input c) ∨ key = .backspace ∨ key = .clear ∨ key = .memoryRecall ∨
              (∃ f, key = .function f) ∨ key = .equals)) ∧
      (key = .backspace ∨ key = .clear ∨ key = .memoryClear ∨ key = .memoryRecall →
        (s.press key).2 = none) ∧
      ∀ x, evaluate s.mode s.expression = .ok x →
        ((s.memory + x).isFinite = false →
          s.press .memoryAdd = (s, some .nonFiniteResult)) ∧
          ((s.memory - x).isFinite = false →
            s.press .memorySubtract = (s, some .nonFiniteResult)) := by
  refine ⟨?_, ?_, ?_, ?_⟩
  · intro fault hfault
    rw [press_of_error (effect_of_press_eq_some hfault)]
    refine ⟨afterFault_of_ne_equals, ?_⟩
    rintro rfl
    rfl
  · intro hnone next
    have heffect : s.effect key = .ok next := press_eq_none_iff.mp (Prod.ext rfl hnone)
    refine ⟨mode_of_effect heffect, ?_, ?_⟩
    · intro hmemory
      rcases frame_of_effect heffect with ⟨hworks, -⟩ | ⟨-, hframe⟩
      · exact Key.eq_of_worksOnMemory hworks
      · rw [hframe] at hmemory
        exact absurd rfl hmemory
    · intro htext
      rcases frame_of_effect heffect with ⟨-, hframe⟩ | ⟨hworks, -⟩
      · rw [hframe] at htext
        rcases htext with hne | hne
        · exact absurd rfl hne
        · exact absurd rfl hne
      · exact Key.eq_of_not_worksOnMemory hworks
  · rintro (rfl | rfl | rfl | rfl)
    · rfl
    · rfl
    · rfl
    · rfl
  · intro x hvalue
    refine ⟨?_, ?_⟩
    · intro hsum
      have hfault := current_bind_remember (f := fun x => s.memory + x) hvalue hsum
      exact press_of_error (s.effect_memoryAdd.trans hfault)
    · intro hsum
      have hfault := current_bind_remember (f := fun x => s.memory - x) hvalue hsum
      exact press_of_error (s.effect_memorySubtract.trans hfault)

end Session

end Keypad
