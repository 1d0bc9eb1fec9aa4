import Keypad.Session

/-!
# Work that tests before it changes

A fault breaks work off and undoes nothing, so that a key which fails leaves nothing behind is
a matter of the order of its work. Work that **only reads** can fail anywhere. Work is
**atomic** if it has changed nothing whenever it fails: a single change is, since it does not
fail, and so is everything that only reads and then goes on with atomic work. All keys but
`=` are made in this way.

## Main definitions

* `Work.ReadsOnly`: work that never changes the session.
* `Work.Atomic`: work that has changed nothing when it fails.

## Main results

* `Work.ReadsOnly.bind_atomic`: tests may be put in front of atomic work.
* `atomic_perform`: **a key that fails has changed nothing**, unless it is `=`.
-/

namespace Keypad.Session

namespace Work

variable {α β : Type} {work : Work α} {f : α → Work β}

/-- Work in two parts: the second part goes on where the first one ended, unless that was
broken off. -/
theorem outcome_bind (work : Work α) (f : α → Work β) (s : Session) :
    (work >>= f).outcome s =
      match work.outcome s with
      | (.ok a, t) => (f a).outcome t
      | (.error fault, t) => (.error fault, t) := by
  rw [outcome, outcome, ExceptT.run_bind, StateT.run_bind, Id.run_bind]
  obtain ⟨result, t⟩ := (work.run.run s).run
  cases result with
  | ok a => rfl
  | error fault => rfl

/-- Looking at the session gives it. -/
theorem outcome_get (s : Session) : outcome get s = (.ok s, s) :=
  rfl

/-- A test gives what it finds, or its fault. -/
theorem outcome_lift (x : Except Fault α) (s : Session) : outcome (liftM x) s = (x, s) :=
  rfl

/-- The work changes nothing, whether it fails or not. -/
def ReadsOnly (work : Work α) : Prop :=
  ∀ s, (work.outcome s).2 = s

/-- When the work fails, it has changed nothing. -/
def Atomic (work : Work α) : Prop :=
  ∀ s fault, (work.outcome s).1 = .error fault → (work.outcome s).2 = s

namespace ReadsOnly

/-- Looking at the session changes nothing. -/
theorem get : ReadsOnly (get : Work Session) :=
  fun _ => rfl

/-- A test changes nothing. -/
theorem lift (x : Except Fault α) : ReadsOnly (liftM x : Work α) :=
  fun _ => rfl

/-- Failing changes nothing. -/
theorem throw (fault : Fault) : ReadsOnly (throw fault : Work α) :=
  fun _ => rfl

/-- The outcome of work that only reads, with work behind it. -/
theorem outcome_bind (h : ReadsOnly work) (f : α → Work β) (s : Session) :
    (work >>= f).outcome s =
      match (work.outcome s).1 with
      | .ok a => (f a).outcome s
      | .error fault => (.error fault, s) := by
  have hsame := h s
  rw [Work.outcome_bind]
  cases hwork : work.outcome s with
  | mk result t =>
      rw [hwork] at hsame
      obtain rfl : t = s := hsame
      cases result with
      | ok a => rfl
      | error fault => rfl

/-- One reading after another changes nothing. -/
theorem bind (h : ReadsOnly work) (hf : ∀ a, ReadsOnly (f a)) : ReadsOnly (work >>= f) := by
  intro s
  rw [h.outcome_bind]
  split
  · next a _ => exact hf a s
  · rfl

/-- **Tests may be put in front of atomic work.** -/
theorem bind_atomic (h : ReadsOnly work) (hf : ∀ a, Atomic (f a)) : Atomic (work >>= f) := by
  intro s fault
  rw [h.outcome_bind]
  split
  · next a _ => exact hf a s fault
  · exact fun _ => rfl

end ReadsOnly

/-- A single change does not fail. -/
theorem Atomic.modify (change : Session → Session) : Atomic (modify change : Work Unit) := by
  intro s fault hfault
  exact nomatch hfault

end Work

open Work

/-- The value of the expression, or why there is none. -/
theorem outcome_value (s : Session) : value.outcome s = (s.current, s) :=
  rfl

/-- The value of the expression is only read. -/
theorem readsOnly_value : ReadsOnly value :=
  .bind .get fun s => .lift s.current

/-- The change of the memory comes behind all tests. -/
theorem atomic_accumulate (operation : Float → Float → Float) : Atomic (accumulate operation) := by
  refine readsOnly_value.bind_atomic fun x => ?_
  refine ReadsOnly.get.bind_atomic fun s => ?_
  exact (ReadsOnly.lift _).bind_atomic fun y => .modify _

/-- **A key that fails has changed nothing**, unless it is `=`: its change comes behind all of
its tests. -/
theorem atomic_perform {key : Key} (h : key ≠ .equals) : Atomic (perform key) := by
  cases key with
  | input c =>
      rw [perform]
      split
      · exact .modify _
      · exact ReadsOnly.bind_atomic (.throw _) fun _ => .modify _
  | backspace | clear | memoryClear | memoryRecall => exact .modify _
  | memoryAdd | memorySubtract => exact atomic_accumulate _
  | function f =>
      refine readsOnly_value.bind_atomic fun x => ?_
      exact (ReadsOnly.lift _).bind_atomic fun y => .modify _
  | equals => exact absurd rfl h

end Keypad.Session
