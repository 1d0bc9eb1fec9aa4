import Keypad.Proofs.Session.Press

/-!
# Runs of a session

A front end does two things to a session: it presses keys, and it types over the whole
display. A run is any row of such actions from the start. What holds at the start and
survives every action holds after every run; in this way the memory is always **a finite
number**.

## Main results

* `Session.run_induction`: what every action preserves holds after every run.
* `Session.memory_isFinite_act`, `Session.memory_isFinite_run`: the memory is finite.
-/

namespace Keypad

/-- What a front end does to a session. -/
inductive Action
  /-- Presses a key, whether or not the key can do its work. -/
  | press (key : Key)
  /-- Types over the whole display. -/
  | type (text : String)
  deriving DecidableEq, Repr

namespace Session

/-- The session after an action. -/
def act (s : Session) : Action → Session
  | .press key => (s.press key).1
  | .type text => s.setExpression text

/-- The session after a row of actions. -/
def run (mode : Mode) (actions : List Action) : Session :=
  actions.foldl act (start mode)

/-- **What every action preserves holds after every run.** -/
theorem run_induction {mode : Mode} {P : Session → Prop} (hstart : P (start mode))
    (hact : ∀ s action, P s → P (s.act action)) (actions : List Action) :
    P (run mode actions) := by
  have hfold (s : Session) (hs : P s) : P (actions.foldl act s) := by
    induction actions generalizing s with
    | nil => exact hs
    | cons action actions ih => exact ih (s.act action) (hact s action hs)
  exact hfold (start mode) hstart

/-! ### The memory -/

/-- Zero is finite. -/
theorem isFinite_zero : (0.0 : Float).isFinite = true := by
  decide

/-- Taking back a character leaves the memory as it was. -/
theorem memory_takeBack (s : Session) : s.takeBack.memory = s.memory := by
  rw [takeBack]
  split
  · rfl
  · rfl
  · rfl

/-- A key leaves the memory as it was, or puts a finite value there. -/
theorem memory_of_effect {s next : Session} {key : Key} (h : s.effect key = .ok next) :
    next.memory = s.memory ∨ next.memory.isFinite = true := by
  cases key with
  | input c =>
      obtain ⟨-, rfl⟩ := effect_input_eq_ok_iff.mp h
      exact .inl rfl
  | backspace =>
      obtain rfl := Except.ok.inj h
      exact .inl s.memory_takeBack
  | clear =>
      obtain rfl := Except.ok.inj h
      exact .inl rfl
  | memoryClear =>
      obtain rfl := Except.ok.inj h
      exact .inr isFinite_zero
  | memoryRecall =>
      obtain rfl := Except.ok.inj h
      exact .inl rfl
  | memoryAdd =>
      obtain ⟨x, -, hfinite, rfl⟩ := effect_memoryAdd_eq_ok_iff.mp h
      exact .inr hfinite
  | memorySubtract =>
      obtain ⟨x, -, hfinite, rfl⟩ := effect_memorySubtract_eq_ok_iff.mp h
      exact .inr hfinite
  | function f =>
      obtain ⟨x, y, -, -, rfl⟩ := effect_function_eq_ok_iff.mp h
      exact .inl rfl
  | equals =>
      obtain ⟨x, -, rfl⟩ := effect_equals_eq_ok_iff.mp h
      exact .inl rfl

/-- A key that cannot do its work leaves the memory as it was. -/
theorem memory_afterFault (s : Session) (key : Key) : (s.afterFault key).memory = s.memory := by
  cases key <;> rfl

/-- **One action keeps the memory finite.** -/
theorem memory_isFinite_act {s : Session} (action : Action) (h : s.memory.isFinite = true) :
    (s.act action).memory.isFinite = true := by
  cases action with
  | type text => exact h
  | press key =>
      change (s.press key).1.memory.isFinite = true
      rw [press_eq]
      cases heffect : s.effect key with
      | error fault =>
          rw [← s.memory_afterFault key] at h
          exact h
      | ok next =>
          rcases memory_of_effect heffect with hsame | hfinite
          · rw [← hsame] at h
            exact h
          · exact hfinite

/-- **The memory is finite after every run.** -/
theorem memory_isFinite_run (mode : Mode) (actions : List Action) :
    (run mode actions).memory.isFinite = true := by
  have hact (s : Session) (action : Action) (h : s.memory.isFinite = true) :
      (s.act action).memory.isFinite = true := memory_isFinite_act action h
  exact run_induction (P := fun s => s.memory.isFinite = true) isFinite_zero hact actions

end Session

end Keypad
