import Keypad.Proofs.Session.Work

/-!
# What one press can do

A press leaves a session, and possibly a fault. **A fault means that nothing has been done**,
unless the key is `=`; so a press is said by its effect, which is the session or the fault and
never both. The effect of every key is one equation, and is then read backwards: from a press
that succeeded to what it found and what it left. Later statements about sessions use these
equations and not the work of the keys, so a key that changes is a matter for this module.

Typing, taking back, clearing and recalling never evaluate anything; the effects of the
other keys begin with the value of the expression, which has to be finite.

## Main definitions

* `Session.effect`: the session after a key that does its work, or why it cannot.
* `Session.afterFault`: the session after a key that cannot.

## Main results

* `Session.press_eq`: **a press is its effect**, or leaves what a fault leaves.
* `Session.effect_input`, `Session.effect_memoryAdd`, `Session.effect_memorySubtract`,
  `Session.effect_function`, `Session.effect_equals`: the effects of the keys that can fail.
* `Session.current_eq_ok_iff`: the value of the expression, if it is finite.
* `Session.effect_equals_eq_ok_iff`, `Session.effect_function_eq_ok_iff`: the keys that show
  a value, which is finite.
* `Session.effect_memoryAdd_eq_ok_iff`, `Session.effect_memorySubtract_eq_ok_iff`: the keys
  that put a finite value into memory.
* `Session.fault_of_effect`: why a key cannot do its work.
-/

namespace Keypad

/-- A computation in two parts succeeds when both parts do. -/
theorem bind_eq_ok_iff {α β : Type} {x : Except Fault α} {f : α → Except Fault β} {b : β} :
    x >>= f = .ok b ↔ ∃ a, x = .ok a ∧ f a = .ok b := by
  cases x with
  | error fault =>
      constructor
      · intro h
        exact nomatch h
      · rintro ⟨a, h, -⟩
        exact nomatch h
  | ok a =>
      constructor
      · intro h
        exact ⟨a, rfl, h⟩
      · rintro ⟨a', h, hf⟩
        obtain rfl := Except.ok.inj h
        exact hf

/-- A computation in two parts fails when the first part does, or the second. -/
theorem bind_eq_error_iff {α β : Type} {x : Except Fault α} {f : α → Except Fault β}
    {fault : Fault} :
    x >>= f = .error fault ↔ x = .error fault ∨ ∃ a, x = .ok a ∧ f a = .error fault := by
  cases x with
  | error fault' =>
      constructor
      · intro h
        exact .inl (congrArg _ (Except.error.inj h))
      · rintro (h | ⟨a, h, -⟩)
        · exact congrArg _ (Except.error.inj h)
        · exact nomatch h
  | ok a =>
      constructor
      · intro h
        exact .inr ⟨a, rfl, h⟩
      · rintro (h | ⟨a', h, hf⟩)
        · exact nomatch h
        · obtain rfl := Except.ok.inj h
          exact hf

/-- A value is refused because it is not finite. -/
theorem fault_of_requireFinite {x : Float} {fault : Fault}
    (h : requireFinite x = .error fault) : fault = .nonFiniteResult := by
  rw [requireFinite] at h
  split at h
  · cases h
  · exact (Except.error.inj h).symm

/-- A function key gives a finite value. -/
theorem FunctionKey.isFinite_of_apply {f : FunctionKey} {x y : Float}
    (h : f.apply x = .ok y) : y.isFinite = true := by
  obtain ⟨raw, -, hraw⟩ := bind_eq_ok_iff.mp h
  obtain ⟨hfinite, rfl⟩ := requireFinite_eq_ok_iff.mp hraw
  exact hfinite

/-- A function key has no value at zero, if it is the reciprocal, or none that is finite. -/
theorem FunctionKey.fault_of_apply {f : FunctionKey} {x : Float} {fault : Fault}
    (h : f.apply x = .error fault) : fault = .reciprocalOfZero ∨ fault = .nonFiniteResult := by
  rcases bind_eq_error_iff.mp h with hraw | ⟨y, -, hfinite⟩
  · cases f with
    | sin | cos | tan | sqrt | square | percent | negate => exact nomatch hraw
    | reciprocal =>
        rw [rawValue] at hraw
        split at hraw
        · exact .inl (Except.error.inj hraw).symm
        · exact nomatch hraw
  · exact .inr (fault_of_requireFinite hfinite)

namespace Session

variable {s next : Session}

/-! ### A press and its effect -/

/-- The session after a key that does its work, or why it cannot. -/
def effect (s : Session) (key : Key) : Except Fault Session :=
  match (perform key).outcome s with
  | (.ok _, next) => .ok next
  | (.error fault, _) => .error fault

/-- The session after a key that could not do its work: after `=` the display shows the
error and the expression is gone, and after any other key nothing has changed. -/
def afterFault (s : Session) : Key → Session
  | .equals => { s with expression := "", display := errorText }
  | _ => s

/-- Only a failed `=` leaves a trace. -/
theorem afterFault_of_ne_equals {key : Key} (h : key ≠ .equals) : s.afterFault key = s := by
  cases key with
  | equals => exact absurd rfl h
  | input | backspace | clear | memoryClear | memoryRecall | memoryAdd | memorySubtract
  | function => rfl

/-- The work of `=`, when the expression has a value and when it has none. -/
theorem outcome_equals (s : Session) :
    (perform .equals).outcome s =
      match s.current with
      | .ok x => (.ok (), s.showValue x)
      | .error fault => (.error fault, s.afterFault .equals) := by
  rw [perform, Work.ReadsOnly.get.outcome_bind]
  change Work.outcome (match s.current with | .ok x => _ | .error fault => _) s = _
  cases s.current with
  | ok x => rfl
  | error fault => rfl

/-- **What a failed key leaves.** -/
theorem outcome_of_error {key : Key} {fault : Fault}
    (h : ((perform key).outcome s).1 = .error fault) :
    ((perform key).outcome s).2 = s.afterFault key := by
  by_cases hkey : key = .equals
  · subst hkey
    rw [outcome_equals] at h ⊢
    cases hcurrent : s.current with
    | ok x =>
        rw [hcurrent] at h
        exact nomatch h
    | error fault => rfl
  · rw [afterFault_of_ne_equals hkey]
    exact atomic_perform hkey s fault h

/-- **A press is its effect**, or leaves what a fault leaves. -/
theorem press_eq (s : Session) (key : Key) :
    s.press key =
      match s.effect key with
      | .ok next => (next, none)
      | .error fault => (s.afterFault key, some fault) := by
  rw [press, effect]
  cases houtcome : (perform key).outcome s with
  | mk result next =>
      cases result with
      | ok _ => rfl
      | error fault =>
          have hnext : ((perform key).outcome s).2 = s.afterFault key :=
            outcome_of_error (by rw [houtcome])
          rw [houtcome] at hnext
          rw [← hnext]

/-- A press without a fault leaves what the effect of the key leaves. -/
theorem press_eq_none_iff {key : Key} :
    s.press key = (next, none) ↔ s.effect key = .ok next := by
  rw [press_eq]
  cases s.effect key with
  | error fault =>
      constructor
      · intro h
        exact nomatch (Prod.mk.inj h).2
      · intro h
        exact nomatch h
  | ok t =>
      constructor
      · intro h
        rw [(Prod.mk.inj h).1]
      · intro h
        rw [Except.ok.inj h]

/-- The fault of a press is the one that its key meets. -/
theorem effect_of_press_eq_some {key : Key} {fault : Fault}
    (h : (s.press key).2 = some fault) : s.effect key = .error fault := by
  rw [press_eq] at h
  cases heffect : s.effect key with
  | error fault' =>
      rw [heffect] at h
      rw [Option.some.inj h]
  | ok t =>
      rw [heffect] at h
      exact nomatch h

/-- **What a press with a fault leaves.** -/
theorem press_of_error {key : Key} {fault : Fault} (h : s.effect key = .error fault) :
    s.press key = (s.afterFault key, some fault) := by
  rw [press_eq, h]

/-! ### The effect of each key -/

/-- The value of the expression is there if it evaluates to a finite value. -/
theorem current_eq_ok_iff {x : Float} :
    s.current = .ok x ↔ evaluate s.mode s.expression = .ok x ∧ x.isFinite = true := by
  rw [current, bind_eq_ok_iff]
  constructor
  · rintro ⟨y, hy, hx⟩
    obtain ⟨hfinite, rfl⟩ := requireFinite_eq_ok_iff.mp hx
    exact ⟨hy, hfinite⟩
  · rintro ⟨hx, hfinite⟩
    exact ⟨x, hx, requireFinite_eq_ok_iff.mpr ⟨hfinite, rfl⟩⟩

/-- The session with a value in memory, which has to be finite. -/
def remember (s : Session) (x : Float) : Except Fault Session := do
  return { s with memory := ← requireFinite x }

/-- A character is appended, if a keypad can type it. -/
theorem effect_input (s : Session) (c : Char) :
    s.effect (.input c) =
      if isKeypadChar c then .ok (s.setExpression (s.expression.push c))
      else .error (.unexpectedCharacter c ⟨String.singleton c, .ofSize 0 c.utf8Size⟩) := by
  rw [effect, perform]
  by_cases hkey : isKeypadChar c = true
  · rw [if_pos hkey, if_pos hkey]
    rfl
  · rw [if_neg hkey, if_neg hkey]
    rfl

/-- A key that puts something into memory does so if the value of the expression is there, and
what it makes of it is finite. -/
theorem effect_of_accumulate {key : Key} {operation : Float → Float → Float}
    (h : perform key = accumulate operation) (s : Session) :
    s.effect key = s.current >>= fun x => s.remember (operation s.memory x) := by
  rw [effect, h, accumulate, readsOnly_value.outcome_bind]
  simp only [outcome_value, Work.outcome_bind, Work.outcome_get, Work.outcome_lift]
  cases s.current with
  | error fault => rfl
  | ok x =>
      change _ = s.remember (operation s.memory x)
      dsimp only
      rw [remember]
      cases requireFinite (operation s.memory x) with
      | error fault => rfl
      | ok y => rfl

/-- `M+` puts the sum into memory. -/
theorem effect_memoryAdd (s : Session) :
    s.effect .memoryAdd = s.current >>= fun x => s.remember (s.memory + x) :=
  effect_of_accumulate rfl s

/-- `M-` puts the difference into memory. -/
theorem effect_memorySubtract (s : Session) :
    s.effect .memorySubtract = s.current >>= fun x => s.remember (s.memory - x) :=
  effect_of_accumulate rfl s

/-- A function key shows its value at the value of the expression. -/
theorem effect_function (s : Session) (f : FunctionKey) :
    s.effect (.function f) =
      s.current >>= fun x => f.apply x >>= fun y => .ok (s.showValue y) := by
  rw [effect, perform, readsOnly_value.outcome_bind]
  simp only [outcome_value, Work.outcome_bind, Work.outcome_lift]
  cases s.current with
  | error fault => rfl
  | ok x =>
      change _ = f.apply x >>= fun y => .ok (s.showValue y)
      dsimp only
      cases f.apply x with
      | error fault => rfl
      | ok y => rfl

/-- `=` shows the value of the expression. -/
theorem effect_equals (s : Session) :
    s.effect .equals = s.current >>= fun x => .ok (s.showValue x) := by
  rw [effect, outcome_equals]
  cases s.current with
  | error fault => rfl
  | ok x => rfl

/-! ### Keys that do their work -/

/-- A character that is appended is one that a keypad can type. -/
theorem effect_input_eq_ok_iff {c : Char} :
    s.effect (.input c) = .ok next ↔
      isKeypadChar c = true ∧ next = s.setExpression (s.expression.push c) := by
  rw [effect_input]
  split
  · next hkey => exact ⟨fun h => ⟨hkey, (Except.ok.inj h).symm⟩, fun h => by rw [h.2]⟩
  · next hkey => exact ⟨fun h => (nomatch h), fun h => absurd h.1 hkey⟩

/-- Only a finite value is put into memory. -/
theorem remember_eq_ok_iff {x : Float} :
    s.remember x = .ok next ↔ x.isFinite = true ∧ next = { s with memory := x } := by
  rw [remember, bind_eq_ok_iff]
  constructor
  · rintro ⟨y, hy, hnext⟩
    obtain ⟨hfinite, rfl⟩ := requireFinite_eq_ok_iff.mp hy
    exact ⟨hfinite, (Except.ok.inj hnext).symm⟩
  · rintro ⟨hfinite, rfl⟩
    exact ⟨x, requireFinite_eq_ok_iff.mpr ⟨hfinite, rfl⟩, rfl⟩

/-- `=` shows the value of the expression. -/
theorem effect_equals_eq_ok_iff :
    s.effect .equals = .ok next ↔ ∃ x, s.current = .ok x ∧ next = s.showValue x := by
  rw [effect_equals, bind_eq_ok_iff]
  constructor
  · rintro ⟨x, hx, hnext⟩
    exact ⟨x, hx, (Except.ok.inj hnext).symm⟩
  · rintro ⟨x, hx, rfl⟩
    exact ⟨x, hx, rfl⟩

/-- A function key shows its value at the value of the expression. -/
theorem effect_function_eq_ok_iff {f : FunctionKey} :
    s.effect (.function f) = .ok next ↔
      ∃ x y, s.current = .ok x ∧ f.apply x = .ok y ∧ next = s.showValue y := by
  rw [effect_function, bind_eq_ok_iff]
  constructor
  · rintro ⟨x, hx, h⟩
    obtain ⟨y, hy, hnext⟩ := bind_eq_ok_iff.mp h
    exact ⟨x, y, hx, hy, (Except.ok.inj hnext).symm⟩
  · rintro ⟨x, y, hx, hy, rfl⟩
    exact ⟨x, hx, bind_eq_ok_iff.mpr ⟨y, hy, rfl⟩⟩

/-- `M+` puts a finite sum into memory. -/
theorem effect_memoryAdd_eq_ok_iff :
    s.effect .memoryAdd = .ok next ↔ ∃ x, s.current = .ok x ∧
      (s.memory + x).isFinite = true ∧ next = { s with memory := s.memory + x } := by
  rw [effect_memoryAdd, bind_eq_ok_iff]
  exact exists_congr fun x => and_congr_right fun _ => remember_eq_ok_iff

/-- `M-` puts a finite difference into memory. -/
theorem effect_memorySubtract_eq_ok_iff :
    s.effect .memorySubtract = .ok next ↔ ∃ x, s.current = .ok x ∧
      (s.memory - x).isFinite = true ∧ next = { s with memory := s.memory - x } := by
  rw [effect_memorySubtract, bind_eq_ok_iff]
  exact exists_congr fun x => and_congr_right fun _ => remember_eq_ok_iff

/-! ### Keys that cannot do their work -/

/-- There is no value of the expression if it does not evaluate, or not to a finite one. -/
theorem fault_of_current {fault : Fault} (h : s.current = .error fault) :
    evaluate s.mode s.expression = .error fault ∨ fault = .nonFiniteResult := by
  rcases bind_eq_error_iff.mp h with hvalue | ⟨x, -, hfinite⟩
  · exact .inl hvalue
  · exact .inr (fault_of_requireFinite hfinite)

/-- Only a value that is not finite is kept from the memory. -/
theorem fault_of_remember {x : Float} {fault : Fault} (h : s.remember x = .error fault) :
    fault = .nonFiniteResult := by
  rcases bind_eq_error_iff.mp h with hfinite | ⟨y, -, hpure⟩
  · exact fault_of_requireFinite hfinite
  · exact nomatch hpure

/-- Only a character that no keypad has is refused. -/
theorem fault_of_effect_input {c : Char} {fault : Fault}
    (h : s.effect (.input c) = .error fault) :
    isKeypadChar c = false ∧
      fault = .unexpectedCharacter c ⟨String.singleton c, .ofSize 0 c.utf8Size⟩ := by
  rw [effect_input] at h
  split at h
  · exact nomatch h
  · next hkey => exact ⟨Bool.eq_false_iff.mpr hkey, (Except.error.inj h).symm⟩

/-- A key that needs the value of the expression fails for want of it, or by what it does
with it. -/
theorem fault_of_current_bind {α : Type} {f : Float → Except Fault α} {fault : Fault}
    (h : s.current >>= f = .error fault)
    (hf : ∀ x, f x = .error fault → fault = .nonFiniteResult ∨ fault = .reciprocalOfZero) :
    evaluate s.mode s.expression = .error fault ∨ fault = .nonFiniteResult ∨
      fault = .reciprocalOfZero := by
  rcases bind_eq_error_iff.mp h with hcurrent | ⟨x, -, hx⟩
  · rcases fault_of_current hcurrent with hvalue | hfinite
    · exact .inl hvalue
    · exact .inr (.inl hfinite)
  · exact .inr (hf x hx)

/-- **Why a key cannot do its work**: it types a character that no keypad has, or the
expression does not evaluate, or a value is not finite, or it is the reciprocal of zero. -/
theorem fault_of_effect {key : Key} {fault : Fault} (h : s.effect key = .error fault) :
    (∃ c, key = .input c ∧ isKeypadChar c = false ∧
        fault = .unexpectedCharacter c ⟨String.singleton c, .ofSize 0 c.utf8Size⟩) ∨
      evaluate s.mode s.expression = .error fault ∨ fault = .nonFiniteResult ∨
      fault = .reciprocalOfZero := by
  cases key with
  | input c => exact .inl ⟨c, rfl, fault_of_effect_input h⟩
  | backspace | clear | memoryClear | memoryRecall => exact nomatch h
  | memoryAdd =>
      rw [effect_memoryAdd] at h
      exact .inr (fault_of_current_bind h fun x hx => .inl (fault_of_remember hx))
  | memorySubtract =>
      rw [effect_memorySubtract] at h
      exact .inr (fault_of_current_bind h fun x hx => .inl (fault_of_remember hx))
  | function f =>
      rw [effect_function] at h
      refine .inr (fault_of_current_bind h fun x hx => ?_)
      rcases bind_eq_error_iff.mp hx with happly | ⟨y, -, hpure⟩
      · exact (FunctionKey.fault_of_apply happly).symm
      · exact nomatch hpure
  | equals =>
      rw [effect_equals] at h
      exact .inr (fault_of_current_bind h fun x hx => nomatch hx)

end Session

end Keypad
