import Keypad.Proofs.Display.RoundTrip
import Keypad.Proofs.Expression.Modes
import Keypad.Proofs.Session.Atomic
import Keypad.Proofs.Session.Run

/-!
# Keys alone do not tell the modes apart

The mode says how blanks and foreign characters are read, and no key brings one of them into
a session: what is typed is refused unless a keypad can type it, what is taken back leaves a
shorter text, and what is recalled or shown is a finite number. So as long as nobody types
over the display, every text that is evaluated is one that **a keypad can type**, and such a
text has one value in both modes.

Two sessions that differ in their mode only then stay that way, and meet the same faults.

## Main results

* `Session.typed_press`: no key brings in a character that no keypad has.
* `Session.press_withMode`: one press has the same effect in every mode.
* `Session.press_run_strict_permissive`: **so have the presses from the start on**, with the
  faults that can come of them.
-/

namespace Keypad

/-- A finite value is shown with characters that a keypad can type. -/
theorem isKeypadChar_of_mem_display {x : Float} (h : x.isFinite = true) {c : Char}
    (hc : c ∈ (display x).toList) : isKeypadChar c = true := by
  rw [display_of_finite h, String.toList_ofList, List.mem_append] at hc
  rcases hc with hsign | hdigits
  · split at hsign
    · obtain rfl := List.mem_singleton.mp hsign
      decide
    · exact absurd hsign List.not_mem_nil
  · rw [isKeypadChar, (shownDecimal x).isLiteral_toList.isNumeric c hdigits, Bool.true_or]

namespace Session

/-! ### What a keypad can type -/

/-- What keys leave: an expression that a keypad can type, and a finite memory, for its
value can be typed by recalling it. -/
structure Typed (s : Session) : Prop where
  expression : ∀ c ∈ s.expression.toList, isKeypadChar c = true
  memory : s.memory.isFinite = true

section Typed

variable {s : Session}

/-- Taking back a character of a typed expression leaves a typed expression. -/
theorem typed_expression_takeBack (h : s.Typed) :
    ∀ c ∈ s.takeBack.expression.toList, isKeypadChar c = true := by
  rw [takeBack]
  split
  · exact h.expression
  · exact List.forall_mem_nil _
  · intro c hc
    rw [setExpression, String.toList_ofList] at hc
    exact h.expression c (List.mem_of_mem_dropLast hc)

/-- The expression that a key leaves is one that a keypad can type. -/
theorem typed_expression_of_effect {next : Session} {key : Key} (h : s.Typed)
    (heffect : s.effect key = .ok next) :
    ∀ c ∈ next.expression.toList, isKeypadChar c = true := by
  cases key with
  | input c =>
      obtain ⟨hc, rfl⟩ := effect_input_eq_ok_iff.mp heffect
      rw [setExpression, String.toList_push, List.forall_mem_append]
      exact ⟨h.expression, List.forall_mem_singleton.mpr hc⟩
  | backspace =>
      obtain rfl := Except.ok.inj heffect
      exact typed_expression_takeBack h
  | clear =>
      obtain rfl := Except.ok.inj heffect
      exact List.forall_mem_nil _
  | memoryClear =>
      obtain rfl := Except.ok.inj heffect
      exact h.expression
  | memoryRecall =>
      obtain rfl := Except.ok.inj heffect
      change ∀ c ∈ (s.expression ++ Keypad.display s.memory).toList, isKeypadChar c = true
      rw [String.toList_append, List.forall_mem_append]
      exact ⟨h.expression, fun c hc => isKeypadChar_of_mem_display h.memory hc⟩
  | memoryAdd =>
      obtain ⟨x, -, -, rfl⟩ := effect_memoryAdd_eq_ok_iff.mp heffect
      exact h.expression
  | memorySubtract =>
      obtain ⟨x, -, -, rfl⟩ := effect_memorySubtract_eq_ok_iff.mp heffect
      exact h.expression
  | function f =>
      obtain ⟨x, y, -, hy, rfl⟩ := effect_function_eq_ok_iff.mp heffect
      exact fun c hc => isKeypadChar_of_mem_display (FunctionKey.isFinite_of_apply hy) hc
  | equals =>
      obtain ⟨x, hx, rfl⟩ := effect_equals_eq_ok_iff.mp heffect
      exact fun c hc => isKeypadChar_of_mem_display (current_eq_ok_iff.mp hx).2 hc

/-- What an effect leaves is typed. -/
theorem typed_of_effect {next : Session} {key : Key} (h : s.Typed)
    (heffect : s.effect key = .ok next) : next.Typed := by
  refine ⟨typed_expression_of_effect h heffect, ?_⟩
  rcases memory_of_effect heffect with hsame | hfinite
  · rw [hsame]
    exact h.memory
  · exact hfinite

/-- A key that cannot do its work leaves the expression as it was, or none. -/
theorem typed_afterFault (h : s.Typed) (key : Key) : (s.afterFault key).Typed := by
  cases key with
  | equals => exact ⟨List.forall_mem_nil _, h.memory⟩
  | input | backspace | clear | memoryClear | memoryRecall | memoryAdd | memorySubtract
  | function => exact h

/-- **No key brings in a character that no keypad has.** -/
theorem typed_press (h : s.Typed) (key : Key) : (s.press key).1.Typed := by
  rw [press_eq]
  cases heffect : s.effect key with
  | error fault => exact typed_afterFault h key
  | ok next => exact typed_of_effect h heffect

end Typed

/-- Nothing is typed at first. -/
theorem typed_start (mode : Mode) : (start mode).Typed :=
  ⟨List.forall_mem_nil _, isFinite_zero⟩

/-! ### The same session in another mode -/

/-- The same session in another mode. -/
def withMode (s : Session) (mode : Mode) : Session := { s with mode := mode }

section WithMode

variable (s : Session) (mode : Mode)

/-- Putting a value into memory is the same in every mode. -/
theorem remember_withMode (x : Float) :
    (s.withMode mode).remember x = (s.remember x).map (·.withMode mode) := by
  rw [remember, remember]
  cases requireFinite x with
  | error fault => rfl
  | ok y => rfl

/-- The value of a typed expression is the same in every mode. -/
theorem current_withMode (h : s.Typed) : (s.withMode mode).current = s.current := by
  rw [current, current, withMode, evaluate_of_typed mode s.mode h.expression]

/-- A key that works on the expression, and does not read the memory, has the same effect in
every mode, if the expression is typed. -/
theorem effect_withMode_of_not_worksOnMemory (h : s.Typed) {key : Key}
    (hworks : key.worksOnMemory = false) (hrecall : key ≠ .memoryRecall) :
    (s.withMode mode).effect key = (s.effect key).map (·.withMode mode) := by
  refine (s.effect_withSettings s.memory mode (s.current_withMode mode h) hworks hrecall).trans ?_
  cases heffect : s.effect key with
  | error fault => rfl
  | ok next =>
      rcases frame_of_effect heffect with ⟨hmemory, -⟩ | ⟨-, hframe⟩
      · exact nomatch hmemory.symm.trans hworks
      · rw [hframe]
        rfl

/-- A key has the same effect in every mode, if the expression is typed. -/
theorem effect_withMode (h : s.Typed) (key : Key) :
    (s.withMode mode).effect key = (s.effect key).map (·.withMode mode) := by
  have hcurrent := s.current_withMode mode h
  cases key with
  | memoryClear | memoryRecall => rfl
  | memoryAdd =>
      rw [effect_memoryAdd, effect_memoryAdd, hcurrent]
      cases s.current with
      | error fault => rfl
      | ok x => exact s.remember_withMode mode _
  | memorySubtract =>
      rw [effect_memorySubtract, effect_memorySubtract, hcurrent]
      cases s.current with
      | error fault => rfl
      | ok x => exact s.remember_withMode mode _
  | input | backspace | clear | function | equals =>
      exact s.effect_withMode_of_not_worksOnMemory mode h rfl (by simp)

/-- **One press is the same in every mode**, if the expression is typed. -/
theorem press_withMode (h : s.Typed) (key : Key) :
    (s.withMode mode).press key = ((s.press key).1.withMode mode, (s.press key).2) := by
  rw [press_eq, press_eq, s.effect_withMode mode h]
  cases s.effect key with
  | error fault => cases key <;> rfl
  | ok next => rfl

end WithMode

/-! ### Presses from the start -/

/-- Presses from the start leave a typed session, and the same one in every mode. -/
theorem run_withMode (mode mode' : Mode) (keys : List Key) :
    (run mode (keys.map .press)).Typed ∧
      run mode' (keys.map .press) = (run mode (keys.map .press)).withMode mode' := by
  refine List.foldl_rel (r := fun s s' : Session => s.Typed ∧ s' = s.withMode mode')
    ⟨typed_start mode, rfl⟩ ?_
  rintro action haction s s' ⟨h, rfl⟩
  obtain ⟨key, -, rfl⟩ := List.mem_map.mp haction
  exact ⟨typed_press h key, congrArg Prod.fst (s.press_withMode mode' h key)⟩

/-- The faults of a press on a typed session. -/
theorem fault_of_press_typed {s : Session} {key : Key} {fault : Fault} (h : s.Typed)
    (hfault : (s.press key).2 = some fault) :
    fault ≠ .emptyExpression ∧ (∀ site, fault ≠ .expectedOperator site) ∧
      ∀ c site, fault = .unexpectedCharacter c site → key = .input c ∧ isKeypadChar c = false := by
  rcases fault_of_effect (effect_of_press_eq_some hfault) with
    ⟨c, rfl, hc, rfl⟩ | hvalue | rfl | rfl
  · refine ⟨nofun, nofun, ?_⟩
    intro c' site hsame
    obtain ⟨rfl, -⟩ := Fault.unexpectedCharacter.inj hsame
    exact ⟨rfl, hc⟩
  · rcases fault_of_evaluate_typed h.expression hvalue with hmisses | ⟨site, rfl⟩
    · cases fault with
      | expectedNumber | trailingOperator | invalidNumber => exact ⟨nofun, nofun, nofun⟩
      | divisionByZero | reciprocalOfZero | nonFiniteResult | emptyExpression
      | expectedOperator | unexpectedCharacter => exact nomatch hmisses
    · exact ⟨nofun, nofun, nofun⟩
  · exact ⟨nofun, nofun, nofun⟩
  · exact ⟨nofun, nofun, nofun⟩

/-- **Keys alone do not tell the modes apart.** After any presses from the start, a strict
and a permissive session have the same expression, display and memory, and the next press
meets the same fault in both, or none. The expression is one that a keypad can type. So no
press finds an empty expression or a missing operator, and none finds an unexpected
character but a key that types one. -/
theorem press_run_strict_permissive (keys : List Key) :
    let s := run .strict (keys.map .press)
    let p := run .permissive (keys.map .press)
    (p.expression = s.expression ∧ p.display = s.display ∧ p.memory = s.memory) ∧
      (∀ key, (p.press key).2 = (s.press key).2) ∧
      (∀ c ∈ s.expression.toList, isKeypadChar c = true) ∧
      ∀ key fault, (s.press key).2 = some fault →
        fault ≠ .emptyExpression ∧ (∀ site, fault ≠ .expectedOperator site) ∧
          ∀ c site, fault = .unexpectedCharacter c site →
            key = .input c ∧ isKeypadChar c = false := by
  intro s p
  obtain ⟨htyped, hsame⟩ := run_withMode .strict .permissive keys
  have hp : p = s.withMode .permissive := hsame
  refine ⟨?_, ?_, htyped.expression, ?_⟩
  · rw [hp]
    exact ⟨rfl, rfl, rfl⟩
  · intro key
    rw [hp, s.press_withMode .permissive htyped]
  · intro key fault hfault
    exact fault_of_press_typed htyped hfault

end Session

end Keypad
