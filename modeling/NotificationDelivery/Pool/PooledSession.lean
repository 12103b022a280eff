import NotificationDelivery.Library.ConditionVariable
import NotificationDelivery.Library.Registry
import NotificationDelivery.Library.Runs

/-!
# The sessions of the pool

`ConnectionPool` and `PooledSession` (`src/Database.cpp`, `Database.hpp`) with their objects: the
queue of free sessions, the handles and the waits of `acquire`. What happens under the mutex is one
step: the check of the queue with the `pop` or the start of the wait, and the `push` of `release`.
The `notify_one` after it is a step of its own, and so is each return from the wait. Any number of
threads take part. The main theorem is `sessions_kept`.
-/

namespace NotificationDelivery

open EventMachine

/-- A `PooledSession` in the scope of a thread; one that was moved from has no session. -/
structure PooledSession (Thread : Type) where
  owner : Thread
  session : Option Nat
  deriving DecidableEq, Repr

/-- The pool, the live handles, and where the threads are. -/
structure ConnectionPool (Thread : Type) where
  available : List Nat
  handles : Registry (PooledSession Thread)
  phases : Thread → CondVar.Phase

inductive SessionEvent (Thread : Type) where
  /-- A thread calls `acquire`. -/
  | acquire (thread : Thread)
  /-- A thread that is out of its wait holds the mutex again. -/
  | resume (thread : Thread)
  /-- A wait ends without a notification. -/
  | wake (thread : Thread)
  /-- A thread moves one of its handles into a new one in the scope of a thread. -/
  | move (thread : Thread) (h : Nat) (target : Thread)
  /-- A handle goes out of scope, at the end of its block or while an exception unwinds. -/
  | destroy (thread : Thread) (h : Nat)
  /-- `notify_one` takes the given thread out of its wait. -/
  | notify (thread : Thread) (waiter : Option Thread)
  deriving DecidableEq, Repr

namespace ConnectionPool

variable {Thread : Type} [DecidableEq Thread]

/-- The pool as constructed with `size` sessions. -/
def initial (size : Nat) : ConnectionPool Thread where
  available := List.range size
  handles := Registry.empty
  phases := fun _ => .running

def setPhase (s : ConnectionPool Thread) (thread : Thread) (phase : CondVar.Phase) :
    ConnectionPool Thread :=
  { s with phases := Function.update s.phases thread phase }

/-- The check of the wait: a thread gets the front session in a new handle, or blocks. -/
def take (s : ConnectionPool Thread) (thread : Thread) : ConnectionPool Thread :=
  match s.available with
  | session :: available =>
      { s.setPhase thread .running with
        available
        handles := s.handles.insert ⟨thread, some session⟩ }
  | [] => s.setPhase thread .waiting

/-- The destructor: a handle without a session does nothing, any other one calls `release`, which is
left to notify. -/
def drop (s : ConnectionPool Thread) (thread : Thread) (h : Nat) (handle : PooledSession Thread) :
    ConnectionPool Thread :=
  match handle.session with
  | none => { s with handles := s.handles.set h none }
  | some session =>
      { s.setPhase thread .notifying with
        available := s.available ++ [session]
        handles := s.handles.set h none }

/-- The move constructor leaves no session behind. -/
def moved (s : ConnectionPool Thread) (h : Nat) (handle : PooledSession Thread) (target : Thread) :
    ConnectionPool Thread :=
  { s with
    handles := (s.handles.set h (some { handle with session := none })).insert
      ⟨target, handle.session⟩ }

/-- One event; a blocked thread does nothing itself. -/
def step [Fintype Thread] (s : ConnectionPool Thread) :
    SessionEvent Thread → Option (ConnectionPool Thread)
  | .acquire thread => if s.phases thread = .running then some (s.take thread) else none
  | .resume thread =>
      if s.phases thread = .notified ∨ s.phases thread = .woken then some (s.take thread) else none
  | .wake thread => if s.phases thread = .waiting then some (s.setPhase thread .woken) else none
  | .move thread h target => do
      let handle ← s.handles.get h
      if s.phases thread = .running ∧ handle.owner = thread then some (s.moved h handle target)
      else none
  | .destroy thread h => do
      let handle ← s.handles.get h
      if s.phases thread = .running ∧ handle.owner = thread then some (s.drop thread h handle)
      else none
  | .notify thread (some waiter) =>
      if s.phases thread = .notifying ∧ s.phases waiter = .waiting then
        some ((s.setPhase thread .running).setPhase waiter .notified)
      else none
  | .notify thread none =>
      if s.phases thread = .notifying ∧ ∀ other, s.phases other ≠ .waiting then
        some (s.setPhase thread .running)
      else none

/-- The sessions of the live handles that were not moved from. -/
def owned (s : ConnectionPool Thread) : List Nat := s.handles.collect PooledSession.session

/-- Every session that the constructor created is available or owned, once. -/
def Complete (size : Nat) (s : ConnectionPool Thread) : Prop :=
  (s.available ++ s.owned).Perm (List.range size)

variable {s t : ConnectionPool Thread} {size h : Nat} {thread target : Thread}
  {handle : PooledSession Thread} {event : SessionEvent Thread}

omit [DecidableEq Thread] in
theorem complete_initial (size : Nat) : (initial size : ConnectionPool Thread).Complete size := by
  show (List.range size ++ []).Perm (List.range size)
  rw [List.append_nil]

/-- A session goes from the queue into a new handle, or nothing moves. -/
theorem Complete.take (hs : s.Complete size) : (s.take thread).Complete size := by
  unfold ConnectionPool.take
  split
  · rename_i session available heq
    unfold Complete owned at hs ⊢
    rw [heq] at hs
    refine List.Perm.trans ?_ hs
    -- the session at the front is the one of the new handle
    show (available ++ Registry.collect (s.handles.insert _) _).Perm _
    rw [Registry.collect_insert, ← List.append_assoc]
    exact List.perm_append_comm.trans (by simp)
  · exact hs

/-- A handle gives its session back, if it has one. -/
theorem Complete.drop (hs : s.Complete size) (hget : s.handles.get h = some handle) :
    (s.drop thread h handle).Complete size := by
  have hset : (handle.session.toList ++
      (s.handles.set h none).collect PooledSession.session).Perm s.owned := by
    exact Registry.collect_set hget
  unfold ConnectionPool.drop
  split
  · rename_i hnone
    rw [hnone] at hset
    exact (hset.append_left s.available).trans hs
  · rename_i session hsession
    rw [hsession] at hset
    unfold Complete owned
    show (s.available ++ [session] ++ _).Perm _
    rw [List.append_assoc]
    exact (hset.append_left s.available).trans hs

omit [DecidableEq Thread] in
/-- A move leaves each session in one handle. -/
theorem Complete.moved (hs : s.Complete size) (hget : s.handles.get h = some handle) :
    (s.moved h handle target).Complete size := by
  have hset :
      (handle.session.toList ++ (s.handles.set h (some { handle with session := none })).collect
      PooledSession.session).Perm s.owned := by
    exact Registry.collect_set hget
  refine List.Perm.trans (List.Perm.append_left s.available ?_) hs
  show (Registry.collect (Registry.insert _ _) _).Perm _
  rw [Registry.collect_insert]
  exact List.perm_append_comm.trans hset

section Threads

variable [Fintype Thread]

/-- Everything a step can do. -/
inductive Stepped (s : ConnectionPool Thread) :
    SessionEvent Thread → ConnectionPool Thread → Prop where
  | entered (thread : Thread) : s.phases thread = .running →
      Stepped s (.acquire thread) (s.take thread)
  | resumed (thread : Thread) : s.phases thread = .notified ∨ s.phases thread = .woken →
      Stepped s (.resume thread) (s.take thread)
  | woke (thread : Thread) : s.phases thread = .waiting →
      Stepped s (.wake thread) (s.setPhase thread .woken)
  | moved (thread : Thread) (h : Nat) (target : Thread) (handle : PooledSession Thread) :
      s.handles.get h = some handle → s.phases thread = .running → handle.owner = thread →
      Stepped s (.move thread h target) (s.moved h handle target)
  | destroyed (thread : Thread) (h : Nat) (handle : PooledSession Thread) :
      s.handles.get h = some handle → s.phases thread = .running → handle.owner = thread →
      Stepped s (.destroy thread h) (s.drop thread h handle)
  | notified (thread waiter : Thread) : s.phases thread = .notifying → s.phases waiter = .waiting →
      Stepped s (.notify thread (some waiter))
        ((s.setPhase thread .running).setPhase waiter .notified)
  | notifiedNone (thread : Thread) : s.phases thread = .notifying →
      (∀ other, s.phases other ≠ .waiting) →
      Stepped s (.notify thread none) (s.setPhase thread .running)

/-- The step function does what `Stepped` says. -/
theorem step_cases (hstep : s.step event = some t) : s.Stepped event t := by
  cases event with
  | acquire thread =>
      obtain ⟨hrunning, hnext⟩ := Option.ite_none_right_eq_some.mp hstep
      obtain rfl := Option.some.inj hnext
      exact .entered thread hrunning
  | resume thread =>
      obtain ⟨hout, hnext⟩ := Option.ite_none_right_eq_some.mp hstep
      obtain rfl := Option.some.inj hnext
      exact .resumed thread hout
  | wake thread =>
      obtain ⟨hwaiting, hnext⟩ := Option.ite_none_right_eq_some.mp hstep
      obtain rfl := Option.some.inj hnext
      exact .woke thread hwaiting
  | move thread h target =>
      obtain ⟨handle, hget, hrest⟩ := Option.bind_eq_some_iff.mp hstep
      obtain ⟨⟨hrunning, howner⟩, hnext⟩ := Option.ite_none_right_eq_some.mp hrest
      obtain rfl := Option.some.inj hnext
      exact .moved thread h target handle hget hrunning howner
  | destroy thread h =>
      obtain ⟨handle, hget, hrest⟩ := Option.bind_eq_some_iff.mp hstep
      obtain ⟨⟨hrunning, howner⟩, hnext⟩ := Option.ite_none_right_eq_some.mp hrest
      obtain rfl := Option.some.inj hnext
      exact .destroyed thread h handle hget hrunning howner
  | notify thread waiter =>
      cases waiter with
      | none =>
          obtain ⟨⟨hnotifying, hnone⟩, hnext⟩ := Option.ite_none_right_eq_some.mp hstep
          obtain rfl := Option.some.inj hnext
          exact .notifiedNone thread hnotifying hnone
      | some waiter =>
          obtain ⟨⟨hnotifying, hwaiting⟩, hnext⟩ := Option.ite_none_right_eq_some.mp hstep
          obtain rfl := Option.some.inj hnext
          exact .notified thread waiter hnotifying hwaiting

/-- The step lemma for the sessions. -/
theorem Complete.step (hs : s.Complete size) (hstep : s.step event = some t) : t.Complete size := by
  cases step_cases hstep with
  | entered | resumed => exact hs.take
  | moved thread h target handle hget => exact hs.moved hget
  | destroyed thread h handle hget => exact hs.drop hget
  | woke | notified | notifiedNone => exact hs

/-- No wake-up is lost. -/
def NoneLost (s : ConnectionPool Thread) : Prop := CondVar.NoneLost s.available.length s.phases

/-- The check of the wait: an item is taken, or there is none. -/
theorem NoneLost.take (hs : s.NoneLost) (hnotifying : s.phases thread ≠ .notifying) :
    (s.take thread).NoneLost := by
  unfold ConnectionPool.take
  unfold NoneLost at hs
  split
  · rename_i session available heq
    rw [heq] at hs
    -- one item less, and one notified thread less at most
    exact CondVar.NoneLost.take hs hnotifying
  · rename_i heq
    unfold NoneLost
    show CondVar.NoneLost s.available.length _
    rw [heq]
    exact .zero

/-- The destructor: the session is back, and its notification is still to come. -/
theorem NoneLost.drop (hs : s.NoneLost) (hrunning : s.phases thread = .running) :
    (s.drop thread h handle).NoneLost := by
  unfold ConnectionPool.drop
  split
  · exact hs
  · unfold NoneLost
    show CondVar.NoneLost (s.available ++ [_]).length _
    rw [List.length_append]
    exact CondVar.NoneLost.put hs hrunning

/-- The step lemma for the wake-ups. -/
theorem NoneLost.step (hs : s.NoneLost) (hstep : s.step event = some t) : t.NoneLost := by
  cases step_cases hstep with
  | entered thread hrunning => exact hs.take (by simp [hrunning])
  | resumed thread hout =>
      refine hs.take ?_
      rcases hout with hnotified | hwoken
      · simp [hnotified]
      · simp [hwoken]
  | woke thread hwaiting => exact CondVar.NoneLost.wake hs hwaiting
  | moved => exact hs
  | destroyed thread h handle hget hrunning => exact hs.drop hrunning
  | notified thread waiter hnotifying hwaiting =>
      exact CondVar.NoneLost.notify hs hnotifying hwaiting
  | notifiedNone thread hnotifying hnone => exact CondVar.NoneLost.notify_none hnone

/-- For any size of the pool, any number of threads and any interleaving: the available sessions and
those of the live handles are the sessions that were created, each once; so no session has two
handles, and what a handle releases is not in the queue. While a thread is blocked, the
available sessions are at most the notified threads that have not run and the notifications to
come. -/
theorem sessions_kept (size : Nat) (s : ConnectionPool Thread)
    (hreach : Reaches step (fun _ _ => True) (initial size) s) :
    (s.available ++ s.owned).Perm (List.range size) ∧
    (∀ i j first second session, s.handles.get i = some first → s.handles.get j = some second →
      first.session = some session → second.session = some session → i = j) ∧
    (∀ h handle session, s.handles.get h = some handle → handle.session = some session →
      session ∉ s.available) ∧
    ((∃ thread, s.phases thread = .waiting) → s.available.length ≤
      CondVar.count s.phases .notified + CondVar.count s.phases .notifying) := by
  let kept (s : ConnectionPool Thread) : Prop := s.Complete size ∧ s.NoneLost
  have hkeep : ∀ (s : ConnectionPool Thread) event t, kept s → True → s.step event = some t →
      kept t :=
    fun s event t hs _ hstep => ⟨hs.1.step hstep, hs.2.step hstep⟩
  have hstart : kept (initial size) := by
    refine ⟨complete_initial size, fun hwaiting => ?_⟩
    obtain ⟨thread, hwaiting⟩ := hwaiting
    exact absurd hwaiting (by simp [initial])
  obtain ⟨hcomplete, hlost⟩ : kept s := hreach.invariant hkeep hstart
  have hnodup : (s.available ++ s.owned).Nodup := hcomplete.nodup_iff.mpr List.nodup_range
  obtain ⟨-, howned, hdisjoint⟩ := List.nodup_append'.mp hnodup
  refine ⟨hcomplete, fun i j first second session hi hj hfirst hsecond => ?_,
    fun h handle session hget hsession havailable => ?_, hlost⟩
  · exact Registry.eq_of_collect_nodup howned hi hfirst hj hsecond
  · exact hdisjoint havailable (Registry.mem_collect.mpr ⟨h, handle, hget, hsession⟩)

end Threads

/-- Two threads wait for the only session, one of them wakes up early; its holder moves the handle
and destroys both. -/
def releasesMoved : List (SessionEvent (Fin 3)) :=
  [.acquire 0, .acquire 1, .acquire 2, .wake 2, .move 0 0 0, .destroy 0 0, .destroy 0 1]

theorem sessions_kept_moved : ∃ s, run step (initial 1) releasesMoved = some s ∧
    s.phases 1 = .waiting ∧ (s.available ++ s.owned).Perm [0] ∧
      s.available.length ≤
        CondVar.count s.phases .notified + CondVar.count s.phases .notifying := by
  have hphase : (run step (initial 1) releasesMoved).map (fun s => s.phases 1) = some .waiting := by
    decide +kernel
  obtain ⟨s, hrun, hwaiting⟩ := Option.map_eq_some_iff.mp hphase
  obtain ⟨hperm, -, -, hlost⟩ := sessions_kept 1 s (Reaches.of_run (fun _ _ _ => trivial) hrun)
  exact ⟨s, hrun, hwaiting, hperm, hlost ⟨1, hwaiting⟩⟩

end ConnectionPool

end NotificationDelivery
