import Keypad.Proofs.Session.Atomic
import Keypad.Proofs.Session.Run
import Mathlib.Data.List.Induction

/-!
# What a session owes to its history

Two things hold after every run: the memory is a finite number, and the display shows the
expression, or, when there is no expression, a zero or the error that a failed `=` left.

Whether the error is still shown is a matter of the **history** of the run, that is of the
actions in order, each with the session that it met. The error is shown exactly when some
`=` has failed and everything after the latest such failure left the display alone: keys
that fail, keys that work on the memory, and `X`, which finds nothing to take back.

The history grows at its end, so the proof goes from one action to the next: an action and
one more entry of the history change the two sides in the same way.

## Main results

* `Session.display_of_effect`: what an effect leaves on the display.
* `Session.consistent_act`: one action keeps the display consistent.
* `Session.showsError_act`, `latestFailure_concat`: what one action does to the error, and
  what one more entry does to the history.
* `Session.run_history`: **memory, display and error after every run.**
-/

namespace Keypad

/-! ### Histories -/

/-- One entry of a history: an action, and the session that it met. -/
structure Step where
  /-- The session before the action. -/
  session : Session
  /-- The action. -/
  action : Action

/-- The history of a row of actions from a session on. -/
def Session.history (s : Session) : List Action → List Step
  | [] => []
  | action :: actions => ⟨s, action⟩ :: (s.act action).history actions

/-- The keys that leave an error on the display when they do their work. -/
def Key.sparesError : Key → Bool
  | backspace | memoryClear | memoryAdd | memorySubtract => true
  | input _ | clear | memoryRecall | function _ | equals => false

namespace Step

/-- The action is an `=` that fails. -/
def FailsEquals (t : Step) : Prop :=
  t.action = .press .equals ∧ ∃ fault, (t.session.press .equals).2 = some fault

/-- The action is a press that leaves an error on the display: of a key that spares it, or
of a key that cannot do its work. -/
def SparesError (t : Step) : Prop :=
  ∃ key, t.action = .press key ∧
    (key.sparesError = true ∨ ∃ fault, (t.session.press key).2 = some fault)

/-- The action brings the error up, or spares the one that was `shown` before it. -/
def LeavesError (t : Step) (shown : Prop) : Prop :=
  t.FailsEquals ∨ shown ∧ ¬ t.FailsEquals ∧ t.SparesError

end Step

/-- Some `=` has failed, and every action after the latest failure spared the error. -/
def LatestFailure (history : List Step) : Prop :=
  ∃ earlier failure later, history = earlier ++ failure :: later ∧ failure.FailsEquals ∧
    ∀ t ∈ later, ¬ t.FailsEquals ∧ t.SparesError

/-- The history of one more action has one more entry. -/
theorem Session.history_concat (s : Session) (actions : List Action) (action : Action) :
    s.history (actions ++ [action]) =
      s.history actions ++ [⟨actions.foldl act s, action⟩] := by
  induction actions generalizing s with
  | nil => rfl
  | cons a actions ih => rw [List.cons_append, history, history, ih]; rfl

/-- **One more entry of a history**: it is the latest failure itself, or it spares the error
that was there. -/
theorem latestFailure_concat (history : List Step) (t : Step) :
    LatestFailure (history ++ [t]) ↔ t.LeavesError (LatestFailure history) := by
  constructor
  · rintro ⟨earlier, failure, later, hsplit, hfails, hlater⟩
    rcases List.eq_nil_or_concat later with rfl | ⟨later, u, rfl⟩
    · obtain ⟨-, hlast⟩ := List.append_inj' hsplit rfl
      obtain rfl := List.singleton_inj.mp hlast
      exact .inl hfails
    · rw [List.concat_eq_append] at hsplit hlater
      rw [← List.cons_append, ← List.append_assoc] at hsplit
      obtain ⟨hfront, hlast⟩ := List.append_inj' hsplit rfl
      obtain rfl := List.singleton_inj.mp hlast
      obtain ⟨hlater, hu⟩ := List.forall_mem_append.mp hlater
      exact .inr ⟨⟨earlier, failure, later, hfront, hfails, hlater⟩, hu t (by simp)⟩
  · rintro (hfails | ⟨⟨earlier, failure, later, rfl, hfails, hlater⟩, ht⟩)
    · exact ⟨history, t, [], rfl, hfails, List.forall_mem_nil _⟩
    · refine ⟨earlier, failure, later ++ [t], by simp, hfails, ?_⟩
      exact List.forall_mem_append.mpr ⟨hlater, List.forall_mem_singleton.mpr ht⟩

namespace Session

variable {s next : Session}

/-! ### The display -/

/-- The display shows the expression, or, when there is none, a zero or an error. -/
def Consistent (s : Session) : Prop :=
  s.display = s.expression ∨ s.expression = "" ∧ (s.display = "0" ∨ s.display = "Error")

/-- Taking back a character keeps the display consistent. -/
theorem consistent_takeBack (h : s.Consistent) : s.takeBack.Consistent := by
  rw [takeBack]
  split
  · exact h
  · exact .inr ⟨rfl, .inl rfl⟩
  · exact .inl rfl

/-- **What an effect leaves on the display**: the text that was there, if the key works on
the memory; what taking back a character leaves; and otherwise the new expression, or a zero
if that was cleared. -/
theorem display_of_effect {key : Key} (h : s.effect key = .ok next) :
    key.sparesError = true ∧ next.expression = s.expression ∧ next.display = s.display ∨
      key = .backspace ∧ next = s.takeBack ∨
      key.sparesError = false ∧
        (next.display = next.expression ∨ next.expression = "" ∧ next.display = "0") := by
  cases key with
  | input c =>
      obtain ⟨-, rfl⟩ := effect_input_eq_ok_iff.mp h
      exact .inr (.inr ⟨rfl, .inl rfl⟩)
  | backspace =>
      obtain rfl := Except.ok.inj h
      exact .inr (.inl ⟨rfl, rfl⟩)
  | clear =>
      obtain rfl := Except.ok.inj h
      exact .inr (.inr ⟨rfl, .inr ⟨rfl, rfl⟩⟩)
  | memoryRecall =>
      obtain rfl := Except.ok.inj h
      exact .inr (.inr ⟨rfl, .inl rfl⟩)
  | memoryClear =>
      obtain rfl := Except.ok.inj h
      exact .inl ⟨rfl, rfl, rfl⟩
  | memoryAdd =>
      obtain ⟨x, -, -, rfl⟩ := effect_memoryAdd_eq_ok_iff.mp h
      exact .inl ⟨rfl, rfl, rfl⟩
  | memorySubtract =>
      obtain ⟨x, -, -, rfl⟩ := effect_memorySubtract_eq_ok_iff.mp h
      exact .inl ⟨rfl, rfl, rfl⟩
  | function f =>
      obtain ⟨x, y, -, -, rfl⟩ := effect_function_eq_ok_iff.mp h
      exact .inr (.inr ⟨rfl, .inl rfl⟩)
  | equals =>
      obtain ⟨x, -, rfl⟩ := effect_equals_eq_ok_iff.mp h
      exact .inr (.inr ⟨rfl, .inl rfl⟩)

/-- An effect keeps the display consistent. -/
theorem consistent_of_effect {key : Key} (h : s.Consistent)
    (heffect : s.effect key = .ok next) : next.Consistent := by
  rcases display_of_effect heffect with
    ⟨-, hexpression, hdisplay⟩ | ⟨-, rfl⟩ | ⟨-, hsame | ⟨hempty, hzero⟩⟩
  · rw [Consistent, hexpression, hdisplay]
    exact h
  · exact consistent_takeBack h
  · exact .inl hsame
  · exact .inr ⟨hempty, .inl hzero⟩

/-- A key that cannot do its work keeps the display consistent. -/
theorem consistent_afterFault (h : s.Consistent) (key : Key) :
    (s.afterFault key).Consistent := by
  by_cases hkey : key = .equals
  · subst hkey
    exact .inr ⟨rfl, .inr rfl⟩
  · rw [afterFault_of_ne_equals hkey]
    exact h

/-- **One action keeps the display consistent.** -/
theorem consistent_act (s : Session) (action : Action) (h : s.Consistent) :
    (s.act action).Consistent := by
  cases action with
  | type text => exact .inl rfl
  | press key =>
      rw [act]
      cases heffect : s.effect key with
      | error fault =>
          rw [press_of_error heffect]
          exact consistent_afterFault h key
      | ok next =>
          rw [press_eq_none_iff.mpr heffect]
          exact consistent_of_effect h heffect

/-! ### The error on the display -/

/-- There is no expression, and the display shows the error. -/
def ShowsError (s : Session) : Prop :=
  s.expression = "" ∧ s.display = "Error"

/-- A display that shows the expression shows no error. -/
theorem not_showsError_of_same (h : s.display = s.expression) : ¬ s.ShowsError := by
  rintro ⟨hempty, herror⟩
  rw [h, hempty] at herror
  exact absurd herror (by decide)

/-- A display that shows a zero shows no error. -/
theorem not_showsError_of_zero (h : s.display = "0") : ¬ s.ShowsError := by
  rintro ⟨-, herror⟩
  rw [h] at herror
  exact absurd herror (by decide)

/-- Taking back a character changes nothing when there is none, and shows no error when
there was one. -/
theorem showsError_takeBack_iff : s.takeBack.ShowsError ↔ s.ShowsError := by
  rw [takeBack]
  split
  · rfl
  · next c hc =>
      constructor
      · intro h
        exact absurd h (not_showsError_of_zero rfl)
      · rintro ⟨hempty, -⟩
        rw [hempty] at hc
        cases hc
  · next hnil _ =>
      constructor
      · intro h
        exact absurd h (not_showsError_of_same rfl)
      · rintro ⟨hempty, -⟩
        exact absurd (String.toList_eq_nil_iff.mpr hempty) hnil

/-- An effect leaves an error on the display exactly if it found one there and its key
spares it. -/
theorem showsError_of_effect {key : Key} (h : s.effect key = .ok next) :
    next.ShowsError ↔ s.ShowsError ∧ key.sparesError = true := by
  rcases display_of_effect h with
    ⟨hkey, hexpression, hdisplay⟩ | ⟨rfl, rfl⟩ | ⟨hkey, hshown⟩
  · rw [ShowsError, ShowsError, hexpression, hdisplay]
    exact (and_iff_left hkey).symm
  · exact showsError_takeBack_iff.trans (and_iff_left rfl).symm
  · have hnone : ¬ next.ShowsError := by
      rcases hshown with hsame | ⟨-, hzero⟩
      · exact not_showsError_of_same hsame
      · exact not_showsError_of_zero hzero
    rw [hkey]
    exact ⟨fun hnext => absurd hnext hnone, fun hs => nomatch hs.2⟩

/-- A press with a fault brings the error up, if it is of `=`, and otherwise spares it. -/
theorem showsError_act_of_error {key : Key} {fault : Fault} (h : s.effect key = .error fault) :
    (s.act (.press key)).ShowsError ↔ Step.LeavesError ⟨s, .press key⟩ s.ShowsError := by
  have hpress : s.press key = (s.afterFault key, some fault) := press_of_error h
  have hspares : Step.SparesError ⟨s, .press key⟩ := ⟨key, rfl, .inr ⟨fault, by rw [hpress]⟩⟩
  rw [act, hpress]
  by_cases hkey : key = .equals
  · subst hkey
    exact ⟨fun _ => .inl ⟨rfl, fault, by rw [hpress]⟩, fun _ => ⟨rfl, rfl⟩⟩
  · have hnot : ¬ Step.FailsEquals ⟨s, .press key⟩ :=
      fun hfails => hkey (Action.press.inj hfails.1)
    rw [afterFault_of_ne_equals hkey]
    exact ⟨fun hs => .inr ⟨hs, hnot, hspares⟩, fun hs => (hs.resolve_left hnot).1⟩

/-- A press without a fault leaves the error that it found, if its key spares it. -/
theorem showsError_act_of_ok {key : Key} (h : s.effect key = .ok next) :
    (s.act (.press key)).ShowsError ↔ Step.LeavesError ⟨s, .press key⟩ s.ShowsError := by
  have hpress : s.press key = (next, none) := press_eq_none_iff.mpr h
  have hnone (fault : Fault) : (s.press key).2 ≠ some fault := by
    rw [hpress]
    exact nofun
  have hnot : ¬ Step.FailsEquals ⟨s, .press key⟩ := by
    rintro ⟨haction, fault, hfault⟩
    obtain rfl := Action.press.inj haction
    exact hnone fault hfault
  rw [act, hpress, showsError_of_effect h]
  constructor
  · rintro ⟨hs, hkey⟩
    exact .inr ⟨hs, hnot, key, rfl, .inl hkey⟩
  · intro hright
    obtain ⟨hs, -, key', haction, hspares⟩ := hright.resolve_left hnot
    obtain rfl := Action.press.inj haction
    refine ⟨hs, hspares.resolve_right ?_⟩
    rintro ⟨fault, hfault⟩
    exact hnone fault hfault

/-- **What one action does to the error**: a failed `=` brings it up, and it stays as long
as the actions spare it. -/
theorem showsError_act (s : Session) (action : Action) :
    (s.act action).ShowsError ↔ Step.LeavesError ⟨s, action⟩ s.ShowsError := by
  cases action with
  | type text =>
      constructor
      · intro h
        exact absurd h (not_showsError_of_same rfl)
      · rintro (⟨haction, -⟩ | ⟨-, -, key, haction, -⟩)
        · cases haction
        · cases haction
  | press key =>
      cases heffect : s.effect key with
      | error fault => exact showsError_act_of_error heffect
      | ok next => exact showsError_act_of_ok heffect

/-! ### After every run -/

/-- The error is shown exactly when the history says so. -/
theorem showsError_run_iff (mode : Mode) (actions : List Action) :
    (run mode actions).ShowsError ↔ LatestFailure ((start mode).history actions) := by
  induction actions using List.reverseRecOn with
  | nil =>
      constructor
      · intro h
        exact absurd h (not_showsError_of_zero rfl)
      · rintro ⟨earlier, failure, later, hsplit, -⟩
        exact absurd hsplit (by simp [history])
  | append_singleton actions action ih =>
      have hrun : run mode (actions ++ [action]) = (run mode actions).act action := by
        rw [run, List.foldl_append]
        rfl
      rw [hrun, showsError_act, ih, history_concat, latestFailure_concat]
      rfl

/-- **Memory, display and error after every run**, in either mode. The memory is a finite
number. The display shows the expression, or there is no expression and the display shows a
zero or an error. It shows the error exactly when some `=` has failed and every action after
the latest such failure was `X`, `MC`, `M+` or `M-`, or a press that failed. -/
theorem run_history (mode : Mode) (actions : List Action) :
    let s := run mode actions
    s.memory.isFinite = true ∧
      (s.display = s.expression ∨
        s.expression = "" ∧ (s.display = "0" ∨ s.display = "Error")) ∧
      (s.expression = "" ∧ s.display = "Error" ↔
        ∃ earlier failure later, (start mode).history actions = earlier ++ failure :: later ∧
          failure.FailsEquals ∧ ∀ t ∈ later, ¬ t.FailsEquals ∧ t.SparesError) := by
  intro s
  have hstart : (start mode).Consistent := .inr ⟨rfl, .inl rfl⟩
  exact ⟨memory_isFinite_run mode actions, run_induction hstart consistent_act actions,
    showsError_run_iff mode actions⟩

end Session

end Keypad
