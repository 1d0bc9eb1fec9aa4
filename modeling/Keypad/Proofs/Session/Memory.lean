import Keypad.Proofs.Display.RoundTrip
import Keypad.Proofs.Session.Atomic
import Keypad.Proofs.Session.Run

/-!
# The memory is seen through `MR` only

Two sessions that **look alike** have the same expression, the same display and the same mode,
and may remember different values. Only two parts of a session read the memory: `MR`, which
types it, and the sums of `M+` and `M-`, which stay in the memory. So as long as nobody presses
`MR`, sessions that look alike go on looking alike.

What the memory can still change is whether a sum is finite. One session may then report that
its sum is not, and the other nothing, and this report is all: a sum that fails touches neither
the expression nor the display.

## Main results

* `Session.looksLike_act`: one action keeps sessions looking alike, unless it is `MR`.
* `Session.result_of_sum`: what `M+` and `M-` can report.
* `Session.memory_unseen`: **sessions that look alike go on looking alike**, and what their
  presses report differs for a sum only.
-/

namespace Keypad

namespace Session

/-! ### Sessions that look alike -/

/-- The two sessions have the same expression, display and mode. -/
structure LooksLike (s t : Session) : Prop where
  expression : s.expression = t.expression
  display : s.display = t.display
  mode : s.mode = t.mode

namespace LooksLike

variable {s t u : Session}

theorem symm (h : s.LooksLike t) : t.LooksLike s :=
  ⟨h.expression.symm, h.display.symm, h.mode.symm⟩

theorem trans (h : s.LooksLike t) (h' : t.LooksLike u) : s.LooksLike u :=
  ⟨h.expression.trans h'.expression, h.display.trans h'.display, h.mode.trans h'.mode⟩

/-- Sessions that look alike differ in their memory at most. -/
theorem eq_withSettings (h : s.LooksLike t) : t = s.withSettings t.memory s.mode := by
  rw [withSettings, h.expression, h.display, h.mode]

/-- The value of the expression does not depend on the memory. -/
theorem current_eq (h : s.LooksLike t) : t.current = s.current := by
  rw [current, current, h.expression, h.mode]

end LooksLike

/-! ### One action -/

variable {s t : Session}

/-- A key that works on the memory does not show. -/
theorem looksLike_press {key : Key} (hworks : key.worksOnMemory = true) :
    s.LooksLike (s.press key).1 := by
  cases heffect : s.effect key with
  | error fault =>
      have hkey : key ≠ .equals := by
        rintro rfl
        exact nomatch hworks
      rw [press_of_error heffect, afterFault_of_ne_equals hkey]
      exact ⟨rfl, rfl, rfl⟩
  | ok next =>
      rw [press_eq_none_iff.mpr heffect]
      rcases frame_of_effect heffect with ⟨-, hframe⟩ | ⟨hexpression, -⟩
      · rw [hframe]
        exact ⟨rfl, rfl, rfl⟩
      · exact nomatch hworks.symm.trans hexpression

/-- **A key that works on the expression, and is not `MR`, never looks at the memory**: it
leaves sessions that look alike, and reports the same in both. -/
theorem press_of_looksLike (h : s.LooksLike t) {key : Key} (hworks : key.worksOnMemory = false)
    (hrecall : key ≠ .memoryRecall) :
    t.press key = ((s.press key).1.withSettings t.memory s.mode, (s.press key).2) := by
  have hcurrent : (s.withSettings t.memory s.mode).current = s.current := rfl
  rw [h.eq_withSettings, press_eq, press_eq, s.effect_withSettings _ _ hcurrent hworks hrecall]
  cases s.effect key with
  | error fault => cases key <;> rfl
  | ok next => rfl

/-- No press touches the mode. -/
theorem mode_press (s : Session) (key : Key) : (s.press key).1.mode = s.mode := by
  cases heffect : s.effect key with
  | error fault =>
      rw [press_of_error heffect]
      cases key <;> rfl
  | ok next =>
      rw [press_eq_none_iff.mpr heffect]
      exact mode_of_effect heffect

/-- **One action keeps sessions looking alike**, unless it is a press of `MR`. -/
theorem looksLike_act (h : s.LooksLike t) {action : Action}
    (hrecall : action ≠ .press .memoryRecall) : (s.act action).LooksLike (t.act action) := by
  cases action with
  | type text => exact ⟨rfl, rfl, h.mode⟩
  | press key =>
      cases hworks : key.worksOnMemory with
      | true => exact ((looksLike_press hworks).symm.trans h).trans (looksLike_press hworks)
      | false =>
          have hkey : key ≠ .memoryRecall := by
            rintro rfl
            exact hrecall rfl
          rw [act, act, press_of_looksLike h hworks hkey]
          exact ⟨rfl, rfl, s.mode_press key⟩

/-- Actions without `MR` keep sessions looking alike. -/
theorem looksLike_foldl_act (h : s.LooksLike t) {actions : List Action}
    (hrecall : .press .memoryRecall ∉ actions) :
    (actions.foldl act s).LooksLike (actions.foldl act t) := by
  refine List.foldl_rel h ?_
  intro action haction s t hst
  refine looksLike_act hst ?_
  rintro rfl
  exact hrecall haction

/-! ### What a press reports -/

/-- **What a sum can report**: the fault of the expression, and, if that has a value, at most
that the sum is not finite. -/
theorem result_of_sum {key : Key} (hkey : key = .memoryAdd ∨ key = .memorySubtract) :
    (∀ fault, s.current = .error fault → (s.press key).2 = some fault) ∧
      ∀ x, s.current = .ok x →
        (s.press key).2 = none ∨ (s.press key).2 = some .nonFiniteResult := by
  obtain ⟨f, hf⟩ : ∃ f : Float → Float,
      s.effect key = s.current >>= fun x => s.remember (f x) := by
    rcases hkey with rfl | rfl
    · exact ⟨fun x => s.memory + x, s.effect_memoryAdd⟩
    · exact ⟨fun x => s.memory - x, s.effect_memorySubtract⟩
  refine ⟨?_, ?_⟩
  · intro fault hfault
    rw [hfault] at hf
    rw [press_of_error hf]
  · intro x hx
    rw [hx] at hf
    cases hsum : s.remember (f x) with
    | error fault =>
        obtain rfl := fault_of_remember hsum
        exact .inr (by rw [press_of_error (hf.trans hsum)])
    | ok next => exact .inl (by rw [press_eq_none_iff.mpr (hf.trans hsum)])

/-- A sum reports the same in sessions that look alike, or it is finite in only one of them. -/
theorem result_of_sum_of_looksLike (h : s.LooksLike t) {key : Key}
    (hkey : key = .memoryAdd ∨ key = .memorySubtract) :
    (s.press key).2 = (t.press key).2 ∨
      (s.press key).2 = none ∧ (t.press key).2 = some .nonFiniteResult ∨
      (s.press key).2 = some .nonFiniteResult ∧ (t.press key).2 = none := by
  obtain ⟨hfault, hvalue⟩ := result_of_sum (s := s) hkey
  obtain ⟨hfault', hvalue'⟩ := result_of_sum (s := t) hkey
  rw [h.current_eq] at hfault' hvalue'
  cases hcurrent : s.current with
  | error fault => exact .inl ((hfault fault hcurrent).trans (hfault' fault hcurrent).symm)
  | ok x =>
      rcases hvalue x hcurrent with hs | hs
      · rcases hvalue' x hcurrent with ht | ht
        · exact .inl (hs.trans ht.symm)
        · exact .inr (.inl ⟨hs, ht⟩)
      · rcases hvalue' x hcurrent with ht | ht
        · exact .inr (.inr ⟨hs, ht⟩)
        · exact .inl (hs.trans ht.symm)

/-- Every other press reports the same in sessions that look alike. -/
theorem result_of_looksLike (h : s.LooksLike t) {key : Key} (hadd : key ≠ .memoryAdd)
    (hsubtract : key ≠ .memorySubtract) : (s.press key).2 = (t.press key).2 := by
  cases hworks : key.worksOnMemory with
  | true =>
      rcases Key.eq_of_worksOnMemory hworks with rfl | rfl | rfl
      · rfl
      · exact absurd rfl hadd
      · exact absurd rfl hsubtract
  | false =>
      by_cases hrecall : key = .memoryRecall
      · subst hrecall
        rfl
      · rw [press_of_looksLike h hworks hrecall]

/-! ### Rows of actions -/

/-- **The memory is seen through `MR` only.** Two sessions that have the same expression,
display and mode go through the same actions, and `MR` is not among them. After each of the
actions the two still have the same expression and display. Every press but `M+` and `M-`
reports the same in both, and these two report the same or succeed in one session and come to
no finite sum in the other. -/
theorem memory_unseen {s t : Session} (h : s.LooksLike t) {actions : List Action}
    (hrecall : .press .memoryRecall ∉ actions) :
    ∀ done ahead, actions = done ++ ahead →
      let s' := done.foldl act s
      let t' := done.foldl act t
      (s'.expression = t'.expression ∧ s'.display = t'.display) ∧
        ∀ key later, ahead = .press key :: later →
          (key ≠ .memoryAdd ∧ key ≠ .memorySubtract → (s'.press key).2 = (t'.press key).2) ∧
            (key = .memoryAdd ∨ key = .memorySubtract →
              (s'.press key).2 = (t'.press key).2 ∨
                (s'.press key).2 = none ∧ (t'.press key).2 = some .nonFiniteResult ∨
                (s'.press key).2 = some .nonFiniteResult ∧ (t'.press key).2 = none) := by
  intro done ahead hsplit s' t'
  have hdone : .press .memoryRecall ∉ done := by
    intro hmem
    rw [hsplit] at hrecall
    exact hrecall (List.mem_append_left _ hmem)
  have hlike : s'.LooksLike t' := looksLike_foldl_act h hdone
  refine ⟨⟨hlike.expression, hlike.display⟩, ?_⟩
  intro key later _
  refine ⟨?_, ?_⟩
  · rintro ⟨hadd, hsubtract⟩
    exact result_of_looksLike hlike hadd hsubtract
  · intro hkey
    exact result_of_sum_of_looksLike hlike hkey

/-- A sum that is finite in one session only: `M+` of `10 ^ 308` succeeds where nothing is
remembered, and fails where as much is remembered already. After `=` the two sessions show the
same. -/
theorem memory_unseen_overflow :
    let text := String.ofList (Decimal.toList ⟨Nat.pow 10 308, 0⟩)
    let s := start .permissive
    let t := s.withSettings 1e308 .permissive
    let actions := [Action.type text, .press .memoryAdd, .press .equals]
    s.LooksLike t ∧ .press .memoryRecall ∉ actions ∧
      (actions.foldl act s).display = (actions.foldl act t).display ∧
      ((s.act (.type text)).press .memoryAdd).2 = none ∧
      ((t.act (.type text)).press .memoryAdd).2 = some .nonFiniteResult := by
  intro text s t actions
  have hlike : s.LooksLike t := ⟨rfl, rfl, rfl⟩
  have hrecall : .press .memoryRecall ∉ actions := by simp [actions]
  obtain ⟨x, hvalue, hfinite, hsum, hoverflow⟩ : ∃ x, evaluate .permissive text = .ok x ∧
      x.isFinite = true ∧ (0.0 + x).isFinite = true ∧ (1e308 + x).isFinite = false :=
    ⟨_, evaluate_decimal .permissive _, by decide +kernel, by decide +kernel, by decide +kernel⟩
  have hlike' : (s.act (.type text)).LooksLike (t.act (.type text)) :=
    looksLike_act hlike (by simp)
  have hcurrent : (s.act (.type text)).current = .ok x :=
    current_eq_ok_iff.mpr ⟨hvalue, hfinite⟩
  have hnone : ((s.act (.type text)).press .memoryAdd).2 = none := by
    rw [press_eq_none_iff.mpr (effect_memoryAdd_eq_ok_iff.mpr ⟨x, hcurrent, hsum, rfl⟩)]
  have hsome : ((t.act (.type text)).press .memoryAdd).2 ≠ none := by
    intro hnone'
    obtain ⟨y, hy, hfinite', -⟩ := effect_memoryAdd_eq_ok_iff.mp
      (press_eq_none_iff.mp (Prod.ext rfl hnone'))
    rw [hlike'.current_eq, hcurrent] at hy
    obtain rfl := Except.ok.inj hy
    exact nomatch hoverflow.symm.trans hfinite'
  obtain ⟨⟨-, hshown⟩, -⟩ := memory_unseen hlike hrecall actions [] rfl
  obtain ⟨-, hreports⟩ := memory_unseen hlike hrecall [.type text] _ rfl
  refine ⟨hlike, hrecall, hshown, hnone, ?_⟩
  rcases (hreports _ _ rfl).2 (.inl rfl) with hsame | ⟨-, hfails⟩ | ⟨-, hother⟩
  · exact absurd (hsame.symm.trans hnone) hsome
  · exact hfails
  · exact absurd hother hsome

end Session

end Keypad
