import Mathlib.Data.Fintype.Card

/-!
# Waiting at a condition variable

Consumers wait at a condition variable while no item is ready. A producer adds an item first and
notifies later; a notification takes one thread out of the wait, if there is one, and a spurious
wake-up takes one out as well. A thread that is out of the wait looks at the items again when it
runs. `NoneLost` is the invariant that no wake-up is lost; there is one rule for each event.
-/

namespace CondVar

/-- Where a thread is. -/
inductive Phase where
  | running
  /-- Blocked in the wait. -/
  | waiting
  /-- Out of the wait after a notification, and has not run since. -/
  | notified
  /-- Out of the wait without a notification, and has not run since. -/
  | woken
  /-- Has added an item and is about to notify. -/
  | notifying
  deriving DecidableEq, Repr

variable {Thread : Type*} [Fintype Thread] [DecidableEq Thread] {phases : Thread → Phase}
  {phase phase' : Phase} {thread other : Thread} {ready : Nat}

/-- The number of threads in a phase. -/
def count (phases : Thread → Phase) (phase : Phase) : Nat :=
  (Finset.univ.filter fun thread => phases thread = phase).card

/-- While a thread is blocked, each item that is ready has a notified thread that has not run, or a
notification that is still to come. -/
def NoneLost (ready : Nat) (phases : Thread → Phase) : Prop :=
  (∃ thread, phases thread = .waiting) → ready ≤ count phases .notified + count phases .notifying

theorem mem_filter_update : other ∈ (Finset.univ.filter fun thread' =>
    Function.update phases thread phase thread' = phase') ↔
      (other = thread ∧ phase = phase') ∨ (other ≠ thread ∧ phases other = phase') := by
  by_cases h : other = thread
  · subst h
    simp
  · simp [h]

/-- A thread enters a phase. -/
theorem count_enter (h : phases thread ≠ phase) :
    count (Function.update phases thread phase) phase = count phases phase + 1 := by
  have hinsert : (Finset.univ.filter fun thread' =>
      Function.update phases thread phase thread' = phase) =
      insert thread (Finset.univ.filter fun thread' => phases thread' = phase) := by
    ext other
    rw [mem_filter_update, Finset.mem_insert, Finset.mem_filter]
    by_cases heq : other = thread
    · simp [heq]
    · simp [heq]
  unfold count
  rw [hinsert, Finset.card_insert_of_notMem (by simpa using h)]

/-- A thread leaves a phase. -/
theorem count_leave (h : phases thread = phase) (hne : phase' ≠ phase) :
    count (Function.update phases thread phase') phase + 1 = count phases phase := by
  have herase : (Finset.univ.filter fun thread' =>
      Function.update phases thread phase' thread' = phase) =
      (Finset.univ.filter fun thread' => phases thread' = phase).erase thread := by
    ext other
    rw [mem_filter_update, Finset.mem_erase, Finset.mem_filter]
    simp [hne]
  unfold count
  rw [herase]
  exact Finset.card_erase_add_one (by simpa using h)

/-- A thread neither leaves the phase nor enters it. -/
theorem count_other (h : phases thread ≠ phase) (hne : phase' ≠ phase) :
    count (Function.update phases thread phase') phase = count phases phase := by
  unfold count
  congr 1
  ext other
  rw [mem_filter_update, Finset.mem_filter]
  by_cases heq : other = thread
  · simp [heq, h, hne]
  · simp [heq]

omit [Fintype Thread] in
/-- A thread that changes its phase and does not block leaves the other blocked threads. -/
theorem waiting_of_update (hne : phase ≠ .waiting)
    (h : ∃ other, Function.update phases thread phase other = .waiting) :
    ∃ other, phases other = .waiting := by
  obtain ⟨other, hwaiting⟩ := h
  by_cases heq : other = thread
  · rw [heq, Function.update_self] at hwaiting
    exact absurd hwaiting hne
  · rw [Function.update_of_ne heq] at hwaiting
    exact ⟨other, hwaiting⟩

namespace NoneLost

omit [DecidableEq Thread] in
/-- Without items a thread may block. -/
theorem zero : NoneLost 0 phases := fun _ => Nat.zero_le _

/-- A thread takes an item, after a wait or without one. -/
theorem take (h : NoneLost (ready + 1) phases) (hnotifying : phases thread ≠ .notifying) :
    NoneLost ready (Function.update phases thread .running) := by
  intro hwaiting
  have hle := h (waiting_of_update (by simp) hwaiting)
  rw [count_other hnotifying (by simp)]
  by_cases hnotified : phases thread = .notified
  · have hleft : count (Function.update phases thread .running) .notified + 1 =
        count phases .notified := count_leave hnotified (by simp)
    omega
  · rw [count_other hnotified (by simp)]
    omega

/-- A thread adds an item; its notification is still to come. -/
theorem put (h : NoneLost ready phases) (hrunning : phases thread = .running) :
    NoneLost (ready + 1) (Function.update phases thread .notifying) := by
  intro hwaiting
  have hle := h (waiting_of_update (by simp) hwaiting)
  rw [count_enter (by simp [hrunning]), count_other (by simp [hrunning]) (by simp)]
  omega

/-- A notification takes a thread out of the wait. -/
theorem notify (h : NoneLost ready phases) (hnotifying : phases thread = .notifying)
    (hother : phases other = .waiting) :
    NoneLost ready (Function.update (Function.update phases thread .running) other .notified) := by
  intro hwaiting
  have hne : other ≠ thread := by
    rintro rfl
    exact absurd (hother.symm.trans hnotifying) (by simp)
  have hle := h (waiting_of_update (by simp) (waiting_of_update (by simp) hwaiting))
  have hother' : Function.update phases thread .running other = .waiting := by
    rw [Function.update_of_ne hne, hother]
  have hentered : count (Function.update (Function.update phases thread .running) other .notified)
      .notified = count phases .notified + 1 := by
    rw [count_enter (by simp [hother']), count_other (by simp [hnotifying]) (by simp)]
  have hleft : count (Function.update (Function.update phases thread .running) other .notified)
      .notifying + 1 = count phases .notifying := by
    rw [count_other (by simp [hother']) (by simp)]
    exact count_leave hnotifying (by simp)
  omega

/-- A notification finds no thread in the wait. -/
theorem notify_none (hnone : ∀ other, phases other ≠ .waiting) :
    NoneLost ready (Function.update phases thread .running) := by
  intro hwaiting
  obtain ⟨other, hother⟩ := waiting_of_update (by simp) hwaiting
  exact absurd hother (hnone other)

/-- A spurious wake-up. -/
theorem wake (h : NoneLost ready phases) (hwaiting : phases thread = .waiting) :
    NoneLost ready (Function.update phases thread .woken) := by
  intro hstill
  have hle := h (waiting_of_update (by simp) hstill)
  rw [count_other (by simp [hwaiting]) (by simp), count_other (by simp [hwaiting]) (by simp)]
  exact hle

end NoneLost

end CondVar
