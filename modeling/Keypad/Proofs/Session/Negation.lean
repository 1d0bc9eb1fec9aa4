import Keypad.Proofs.Display.Canonical
import Keypad.Proofs.Session.Atomic
import Keypad.Proofs.Session.FixedPoint

/-!
# Negating twice

The `±` key shows the negated value, so a second press reads that back from the display,
with a sign in front or without. What comes back is rounded to the digits of the display,
and zero has no sign there; neither is to be seen after the second press, because **the
display rounds alike on both sides of zero** and shows what it has rounded in the same way
again. Two presses of `±` are one press of `=`, in every session.

## Main results

* `Session.press_negate_of_current`, `Session.press_function_of_error`: one press of `±`,
  with a value and without.
* `Session.press_negate_negate`: two presses of `±` are one of `=`.
-/

namespace Keypad

/-- A finite value has a negative. -/
theorem FunctionKey.apply_negate {x : Float} (h : x.isFinite = true) :
    FunctionKey.negate.apply x = .ok (-x) :=
  requireFinite_eq_ok_iff.mpr ⟨Binary64.isFinite_neg h, rfl⟩

namespace Session

variable {s : Session}

/-- `±` shows the negative of the value of the expression. -/
theorem press_negate_of_current {x : Float} (h : s.current = .ok x) :
    s.press (.function .negate) = (s.showValue (-x), none) := by
  have happly := FunctionKey.apply_negate (current_eq_ok_iff.mp h).2
  exact press_eq_none_iff.mpr (effect_function_eq_ok_iff.mpr ⟨x, -x, h, happly, rfl⟩)

/-- Without a value of the expression, a function key changes nothing. -/
theorem press_function_of_error {f : FunctionKey} {fault : Fault}
    (h : s.current = .error fault) : s.press (.function f) = (s, some fault) :=
  press_of_error (by rw [effect_function, h]; rfl)

/-- `=` fails for want of a value of the expression, and for no other reason. -/
theorem current_of_press_equals_eq_some {fault : Fault}
    (h : (s.press .equals).2 = some fault) : s.current = .error fault := by
  have heffect := effect_of_press_eq_some h
  rw [effect_equals] at heffect
  rcases bind_eq_error_iff.mp heffect with hcurrent | ⟨x, -, hshow⟩
  · exact hcurrent
  · exact nomatch hshow

/-- **Negating twice is the same as `=`**, in every session. Where `=` succeeds, both presses
of `±` do, and they end in the session that `=` leaves. Where `=` fails, both presses fail
with the same fault and change nothing. -/
theorem press_negate_negate (s : Session) :
    (∀ next, s.press .equals = (next, none) →
      ∃ between, s.press (.function .negate) = (between, none) ∧
        between.press (.function .negate) = (next, none)) ∧
      ∀ fault, (s.press .equals).2 = some fault →
        let first := s.press (.function .negate)
        let second := first.1.press (.function .negate)
        first = (s, some fault) ∧ second = (s, some fault) := by
  constructor
  · intro next h
    obtain ⟨x, hx, rfl⟩ := effect_equals_eq_ok_iff.mp (press_eq_none_iff.mp h)
    have hfinite : x.isFinite = true := (current_eq_ok_iff.mp hx).2
    have hback : (s.showValue (-x)).current = .ok (readBack (-x)) :=
      s.current_showValue (Binary64.isFinite_neg hfinite)
    refine ⟨s.showValue (-x), press_negate_of_current hx, ?_⟩
    rw [press_negate_of_current hback, showValue, display_neg_readBack hfinite]
    rfl
  · intro fault h first second
    have hfirst : first = (s, some fault) :=
      press_function_of_error (current_of_press_equals_eq_some h)
    have hsecond : second = first.1.press (.function .negate) := rfl
    rw [hfirst] at hsecond
    exact ⟨hfirst, hsecond.trans hfirst⟩

/-- An exact half below zero, which is rounded up to the even digit and then negated twice,
and an expression that has no value. -/
theorem press_negate_negate_half :
    ((run .strict [.type "-1/512"]).press .equals =
        (⟨"-0.00195312", "-0.00195312", 0.0, .strict⟩, none) ∧
      ∃ between, (run .strict [.type "-1/512"]).press (.function .negate) = (between, none) ∧
        between.press (.function .negate) =
          (⟨"-0.00195312", "-0.00195312", 0.0, .strict⟩, none)) ∧
      ((run .strict [.type "1+"]).press .equals).2 =
          some (.trailingOperator ⟨"1+", ⟨1, 2⟩⟩) ∧
        (run .strict [.type "1+"]).press (.function .negate) =
          (run .strict [.type "1+"], some (.trailingOperator ⟨"1+", ⟨1, 2⟩⟩)) := by
  have hvalue : (run .strict [.type "-1/512"]).press .equals =
      (⟨"-0.00195312", "-0.00195312", 0.0, .strict⟩, none) := by
    decide +kernel
  have hfault : ((run .strict [.type "1+"]).press .equals).2 =
      some (.trailingOperator ⟨"1+", ⟨1, 2⟩⟩) := by
    decide +kernel
  exact ⟨⟨hvalue, (press_negate_negate _).1 _ hvalue⟩, hfault,
    ((press_negate_negate _).2 _ hfault).1⟩

end Session

end Keypad
