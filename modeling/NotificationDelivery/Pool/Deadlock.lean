import NotificationDelivery.Pool.ConnectionPool
import Mathlib.Data.Fintype.Card

/-!
# The deadlock boundary of the connection pool

Only `insertWithOutbox` acquires a session while it holds one, so a thread that waits in
`acquire` holds at most one session, and none if it is a worker. `deadlock_reachable_iff`
draws the boundary: the pool can deadlock exactly when there are at least as many HTTP
threads as sessions.
-/

namespace NotificationDelivery

open EventMachine

/-- Running the operations from `held` handles, every `acquire` happens with at most `limit`. -/
def acquiresWithin (limit : Nat) : Nat → List PoolOp → Bool
  | _, [] => true
  | held, .acquire :: rest => held ≤ limit && acquiresWithin limit (held + 1) rest
  | held, .release :: rest => acquiresWithin limit (held - 1) rest
  | held, _ :: rest => acquiresWithin limit held rest

/-- The handles a thread may hold when it acquires: the nested call of `insertWithOutbox` runs on
HTTP threads only. -/
def ThreadId.nesting : ThreadId → Nat
  | .http _ => 1
  | .worker _ _ => 0

theorem acquires_within_releases (limit held count : Nat) :
    acquiresWithin limit held (List.replicate count .release) = true := by
  induction count generalizing held with
  | zero => rfl
  | succ count ih => exact ih (held - 1)

/-- The number of handles left after the operations. -/
def heldAfter : Nat → List PoolOp → Nat
  | held, [] => held
  | held, .acquire :: rest => heldAfter (held + 1) rest
  | held, .release :: rest => heldAfter (held - 1) rest
  | held, _ :: rest => heldAfter held rest

theorem held_after_releases (count : Nat) :
    heldAfter count (List.replicate count .release) = 0 := by
  induction count with
  | zero => rfl
  | succ count ih => exact ih

theorem HttpRequest.well_nested (request : HttpRequest) :
    acquiresWithin 1 0 request.ops = true ∧ heldAfter 0 request.ops = 0 := by
  cases request with
  | post existing => cases existing <;> decide
  | detail found => cases found <;> decide
  | list => decide
  | withoutDatabase => decide

theorem Delivery.well_nested (delivery : Delivery) :
    acquiresWithin 0 0 delivery.ops = true ∧ heldAfter 0 delivery.ops = 0 := by
  cases delivery <;> decide

/-- Every job of a thread, started without handles, nests its handles within the bound and ends
without handles. -/
theorem ThreadId.Runs.well_nested {thread : ThreadId} {ops : List PoolOp} (h : thread.Runs ops) :
    acquiresWithin thread.nesting 0 ops = true ∧ heldAfter 0 ops = 0 := by
  cases thread with
  | http =>
      obtain ⟨request, rfl⟩ := h
      exact request.well_nested
  | worker =>
      obtain ⟨delivery, rfl⟩ := h
      exact delivery.well_nested

namespace PoolState

/-- The rest of the job of every thread nests its handles within the bound of the thread, and
gives all of them back. -/
def Nested (s : PoolState) : Prop :=
  ∀ thread : ThreadId,
    acquiresWithin thread.nesting (s.threads thread).held.length (s.threads thread).code = true ∧
      heldAfter (s.threads thread).held.length (s.threads thread).code = 0

variable {config : Config} {s t : PoolState}

theorem nested_initial (config : Config) : (initial config).Nested :=
  fun _ => ⟨rfl, rfl⟩

theorem Nested.set_thread (h : s.Nested) {thread : ThreadId} {value : PoolThread}
    {available : List Nat}
    (hwithin : acquiresWithin thread.nesting value.held.length value.code = true)
    (hafter : heldAfter value.held.length value.code = 0) :
    ({ s with available }.setThread thread value).Nested := by
  intro other
  by_cases heq : other = thread
  · subst heq
    rw [set_thread_same]
    exact ⟨hwithin, hafter⟩
  · rw [set_thread_other heq]
    exact h other

/-- The step lemma: acquiring, releasing, throwing and starting a job keep the nesting. -/
theorem Nested.step (h : s.Nested) {event : PoolEvent} (hstep : s.step config event = some t) :
    t.Nested := by
  cases step_cases hstep with
  | started thread ops _ hruns hcode =>
      have hheld : (s.threads thread).held.length = 0 := by
        simpa [hcode, heldAfter] using (h thread).2
      obtain ⟨hwithin, hafter⟩ := hruns.well_nested
      exact h.set_thread (hheld ▸ hwithin) (by simpa only [hheld] using hafter)
  | acquired thread rest session available hcode _ =>
      have hthread := h thread
      simp only [hcode, acquiresWithin, heldAfter, Bool.and_eq_true] at hthread
      exact h.set_thread hthread.1.2 hthread.2
  | executed thread op rest hop hcode =>
      have hthread := h thread
      rw [hcode] at hthread
      rcases hop with rfl | rfl <;> exact h.set_thread hthread.1 hthread.2
  | threw thread code hcode =>
      rcases hcode with rfl | rfl <;>
        exact h.set_thread (acquires_within_releases _ _ _) (held_after_releases _)
  | released thread rest session held hcode hheld =>
      have hthread := h thread
      simp only [hcode, hheld, acquiresWithin, heldAfter, List.length_cons,
        Nat.add_sub_cancel] at hthread
      exact h.set_thread hthread.1 hthread.2

/-- A thread that waits for a session while it holds one is an HTTP thread with one session. -/
theorem Nested.waiting (h : s.Nested) {thread : ThreadId} {session : Nat}
    (hheld : session ∈ (s.threads thread).held) (hwaits : s.Acquiring thread) :
    ∃ index, thread = .http index ∧ (s.threads thread).held = [session] := by
  obtain ⟨rest, hcode⟩ := hwaits
  have hwithin := (h thread).1
  simp only [hcode, acquiresWithin, Bool.and_eq_true, decide_eq_true_eq] at hwithin
  have hpos := List.length_pos_of_mem hheld
  cases thread with
  | worker => exact absurd hwithin.1 (by simp only [ThreadId.nesting]; omega)
  | http index =>
      refine ⟨index, rfl, ?_⟩
      obtain ⟨only, honly⟩ := List.length_eq_one_iff.mp (Nat.le_antisymm hwithin.1 hpos)
      rw [honly] at hheld ⊢
      rw [List.mem_singleton.mp hheld]

/-- A deadlock needs a different HTTP thread for every session. -/
theorem Nested.le_of_deadlocked (h : s.Nested) (hdead : s.Deadlocked config)
    (hpool : 1 ≤ config.dbPoolSize) :
    config.dbPoolSize ≤ config.httpThreads := by
  have hholder : ∀ session : Fin config.dbPoolSize.toNat, ∃ index : Nat,
      (index : Int) < config.httpThreads ∧ (s.threads (.http index)).held = [session.val] := by
    intro session
    obtain ⟨thread, hcreated, hheld, hwaits⟩ := hdead.2 session.val session.isLt
    obtain ⟨index, rfl, hone⟩ := h.waiting hheld hwaits
    exact ⟨index, hcreated, hone⟩
  choose holder hcreated hone using hholder
  let toThread : Fin config.dbPoolSize.toNat → Fin config.httpThreads.toNat := fun session =>
    ⟨holder session, by have := hcreated session; omega⟩
  have hinj : Function.Injective toThread := by
    intro first second heq
    have hsame : holder first = holder second := by simpa [toThread] using heq
    have hheld := (hone first).symm.trans (hsame ▸ hone second)
    exact Fin.ext (by simpa using hheld)
  have hcard := Fintype.card_le_of_injective toThread hinj
  simp only [Fintype.card_fin] at hcard
  omega

/-- The first `count` HTTP threads hold one session each and are about to look up the key. -/
structure Submitting (config : Config) (count : Nat) (s : PoolState) : Prop where
  available : s.available = List.range' count (config.dbPoolSize.toNat - count)
  waiting : ∀ index, index < count → (s.threads (.http index)).held = [index] ∧
    s.Acquiring (.http index)
  idle : ∀ index, count ≤ index → s.threads (.http index) = {}

theorem submitting_initial (config : Config) : Submitting config 0 (initial config) where
  available := by simp [initial, List.range_eq_range']
  waiting := by simp
  idle := fun _ _ => rfl

/-- One more HTTP thread receives a POST and takes its first session. -/
theorem Submitting.next {count : Nat} (h : Submitting config count s)
    (hpool : (count : Int) < config.dbPoolSize) (hthreads : (count : Int) < config.httpThreads) :
    ∃ t, Reaches (PoolState.step config) (fun _ _ => True) s t ∧
      Submitting config (count + 1) t := by
  have hidle := h.idle count (Nat.le_refl _)
  have havailable : s.available =
      count :: List.range' (count + 1) (config.dbPoolSize.toNat - (count + 1)) := by
    rw [h.available, show config.dbPoolSize.toNat - count =
      (config.dbPoolSize.toNat - (count + 1)) + 1 by omega, List.range'_succ]
  let begun := s.setThread (.http count) { code := insertWithOutboxOps false }
  have hbegin : s.step config (.request (.http count) (.post false)) = some begun := by
    simp [PoolState.step, start, ThreadId.created, hthreads, hidle, HttpRequest.ops, begun]
  let taken := { begun with
      available := List.range' (count + 1) (config.dbPoolSize.toNat - (count + 1)) }.setThread
    (.http count) { code := (insertWithOutboxOps false).tail, held := [count] }
  have htake : begun.step config (.acquire (.http count)) = some taken := by
    have hcode : (begun.threads (.http count)).code =
        .acquire :: (insertWithOutboxOps false).tail := by
      simp [begun, insertWithOutboxOps]
    have hheld : (begun.threads (.http count)).held = [] := by simp [begun]
    have hsessions : begun.available = _ := havailable
    simp [PoolState.step, hcode, hheld, hsessions, taken]
  refine ⟨taken, (Reaches.single trivial hbegin).tail trivial htake, rfl, ?_, ?_⟩
  · intro index hindex
    rcases Nat.lt_succ_iff_lt_or_eq.mp hindex with hlt | rfl
    · have hother : taken.threads (.http index) = s.threads (.http index) := by
        have hne : ThreadId.http index ≠ .http count := by simp; omega
        rw [set_thread_other hne]
        exact set_thread_other hne
      unfold Acquiring
      rw [hother]
      exact h.waiting index hlt
    · unfold Acquiring
      rw [show taken.threads (.http index) = _ from set_thread_same _ _ _]
      exact ⟨rfl, _, rfl⟩
  · intro index hindex
    have hne : ThreadId.http index ≠ .http count := by simp; omega
    rw [show taken.threads (.http index) = begun.threads (.http index) from set_thread_other hne,
      show begun.threads (.http index) = s.threads (.http index) from set_thread_other hne]
    exact h.idle index (by omega)

/-- Any number of submissions up to the sizes of the pool and of the HTTP server. -/
theorem submitting_reachable (config : Config) (count : Nat)
    (hpool : (count : Int) ≤ config.dbPoolSize) (hthreads : (count : Int) ≤ config.httpThreads) :
    ∃ s, Reaches (PoolState.step config) (fun _ _ => True) (initial config) s ∧
      Submitting config count s := by
  induction count with
  | zero => exact ⟨_, .refl _, submitting_initial config⟩
  | succ count ih =>
      obtain ⟨s, hreach, hsubmitting⟩ := ih (by omega) (by omega)
      obtain ⟨t, hstep, hnext⟩ := hsubmitting.next (by omega) (by omega)
      exact ⟨t, hreach.trans hstep, hnext⟩

/-- For every pool size and number of threads: a state in which the pool is empty and every session
is held by a thread that waits for another one is reachable if and only if there are at least
as many HTTP threads as sessions. -/
theorem deadlock_reachable_iff (config : Config) (hpool : 1 ≤ config.dbPoolSize) :
    (∃ s, Reaches (PoolState.step config) (fun _ _ => True) (initial config) s ∧
      s.Deadlocked config) ↔ config.dbPoolSize ≤ config.httpThreads := by
  constructor
  · intro h
    obtain ⟨s, hreach, hdead⟩ := h
    have hnested : s.Nested :=
      hreach.invariant (fun _ _ _ hs _ hstep => hs.step hstep) (nested_initial config)
    exact hnested.le_of_deadlocked hdead hpool
  · intro hle
    obtain ⟨s, hreach, hsubmitting⟩ :=
      submitting_reachable config config.dbPoolSize.toNat (by omega) (by omega)
    refine ⟨s, hreach, ?_, ?_⟩
    · simpa using hsubmitting.available
    · intro session hsession
      obtain ⟨hheld, hwaits⟩ := hsubmitting.waiting session hsession
      refine ⟨.http session, ?_, by simp [hheld], hwaits⟩
      simp only [ThreadId.created]
      omega

/-- The shipped sizes, eight sessions and four HTTP threads, are on the safe side. -/
theorem deadlock_reachable_iff_shipped :
    ¬ ∃ s, Reaches (PoolState.step {}) (fun _ _ => True) (initial {}) s ∧ s.Deadlocked {} := by
  intro hdead
  exact absurd ((deadlock_reachable_iff {} (by decide)).mp hdead) (by decide)

end PoolState

end NotificationDelivery
