import Keypad.Proofs.Display.RoundTrip
import Keypad.Proofs.Session.Run

/-!
# What is shown is a fixed point of `=`

After a key that shows a value, pressing `=` reads the display back and shows what it read.
The value may have changed on the way, for the display rounds, but the text does not: a
session that shows a finite value is **settled**.

The keys that show a value only show finite ones, and the memory is finite after every run,
so every result that a run comes to is settled.

## Main results

* `Session.settled_showValue`: a session that shows a finite value is settled.
* `Session.settled_run`: so is every session that a run leaves with a result.
-/

namespace Keypad

namespace Session

/-- Pressing `=` succeeds and changes nothing. -/
def Settled (s : Session) : Prop :=
  s.press .equals = (s, none)

/-- The value of an expression that shows a finite value is what is read back. -/
theorem current_showValue (s : Session) {x : Float} (h : x.isFinite = true) :
    (s.showValue x).current = .ok (readBack x) :=
  current_eq_ok_iff.mpr ⟨evaluate_display s.mode h, (isNearest_readBack h).finite⟩

/-- **A session that shows a finite value is settled.** -/
theorem settled_showValue (s : Session) {x : Float} (h : x.isFinite = true) :
    (s.showValue x).Settled := by
  have hcurrent : (s.showValue x).current = .ok (readBack x) := s.current_showValue h
  refine press_eq_none_iff.mpr (effect_equals_eq_ok_iff.mpr ⟨readBack x, hcurrent, ?_⟩)
  rw [showValue, showValue, display_readBack h]
  rfl

/-- `=` leaves a settled session, if it succeeds. -/
theorem settled_of_press_equals {s next : Session} (h : s.press .equals = (next, none)) :
    next.Settled := by
  obtain ⟨x, hx, rfl⟩ := effect_equals_eq_ok_iff.mp (press_eq_none_iff.mp h)
  exact s.settled_showValue (current_eq_ok_iff.mp hx).2

/-- A function key leaves a settled session, if it succeeds. -/
theorem settled_of_press_function {s next : Session} {f : FunctionKey}
    (h : s.press (.function f) = (next, none)) : next.Settled := by
  obtain ⟨x, y, -, hy, rfl⟩ := effect_function_eq_ok_iff.mp (press_eq_none_iff.mp h)
  exact s.settled_showValue (FunctionKey.isFinite_of_apply hy)

/-- Recalling the memory into an empty expression shows it. -/
theorem press_memoryRecall_of_empty {s : Session} (h : s.expression = "") :
    s.press .memoryRecall = (s.showValue s.memory, none) := by
  have hpress : s.press .memoryRecall =
      (s.setExpression (s.expression ++ Keypad.display s.memory), none) := rfl
  rw [hpress, h, String.empty_append]
  rfl

/-- **A displayed result is a fixed point of `=`.** After any run, in either mode: when `=`
or a function key succeeds, or when the memory is recalled into an empty expression, `=`
then succeeds and changes nothing. In particular `C`, `MR` and `=` in a row always succeed,
and show the memory. -/
theorem settled_run (mode : Mode) (actions : List Action) :
    let s := run mode actions
    (∀ next, s.press .equals = (next, none) → next.press .equals = (next, none)) ∧
      (∀ f next, s.press (.function f) = (next, none) →
        next.press .equals = (next, none)) ∧
      (s.expression = "" → ∃ next, s.press .memoryRecall = (next, none) ∧
        next.press .equals = (next, none)) ∧
      (∃ cleared recalled shown, s.press .clear = (cleared, none) ∧
        cleared.press .memoryRecall = (recalled, none) ∧
        recalled.press .equals = (shown, none) ∧
        shown.display = Keypad.display s.memory) := by
  intro s
  have hmemory : s.memory.isFinite = true := memory_isFinite_run mode actions
  refine ⟨?_, ?_, ?_, ?_⟩
  · intro next h
    exact settled_of_press_equals h
  · intro f next h
    exact settled_of_press_function h
  · intro h
    exact ⟨_, press_memoryRecall_of_empty h, s.settled_showValue hmemory⟩
  · let cleared : Session := { s with expression := "", display := "0" }
    have hcleared : cleared.memory.isFinite = true := hmemory
    exact ⟨cleared, _, _, rfl, press_memoryRecall_of_empty rfl,
      cleared.settled_showValue hcleared, rfl⟩

/-- A third is shown with eight digits. Reading them gives another value, which is shown
with the same eight. -/
theorem settled_run_third :
    ∃ next, (run .permissive [.type "1/3"]).press .equals = (next, none) ∧
      next.display = "0.33333333" ∧ next.press .equals = (next, none) := by
  have hpress : (run .permissive [.type "1/3"]).press .equals =
      (⟨"0.33333333", "0.33333333", 0.0, .permissive⟩, none) := by
    decide +kernel
  exact ⟨_, hpress, rfl, (settled_run .permissive [.type "1/3"]).1 _ hpress⟩

end Session

end Keypad
