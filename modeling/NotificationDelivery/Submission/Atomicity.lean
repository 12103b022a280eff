import NotificationDelivery.Submission.Sessions

/-!
# The outbox write is atomic

In every run of concurrent calls, whichever statements throw, the notifications and the outbox
rows are committed in pairs. A call that a statement before `COMMIT` has ended leaves the
tables alone, and no session goes back to the pool with an open transaction.
-/

namespace NotificationDelivery

open EventMachine

/-- The outbox rows are those of the notifications, one for each and in their order: each names the
notification that it was written with and carries its id. Ids are not repeated. -/
structure Database.Paired (db : Database) : Prop where
  outbox : List.Forall₂ (fun (n : Notification) (e : OutboxEvent) =>
    e = n.outbox ∧ e.notificationId = n.id ∧ e.payload = n.id) db.notifications db.outboxEvents
  ids : (db.notifications.map Notification.id).Nodup

/-- The statement of the call that has thrown. -/
def InsertPc.thrownBy : InsertPc → Option InsertStatement
  | .releaseLookup (some (.threw statement)) | .rollback statement | .release (.threw statement)
  | .ended (.threw statement) => some statement
  | _ => none

/-- The call is past its `COMMIT`, or has found a row and commits nothing. -/
def InsertPc.decided : InsertPc → Bool
  | .releaseLookup (some (.returned _)) | .release (.returned _) | .ended (.returned _) => true
  | pc => pc.thrownBy = some .commit

/-- A call that has decided was ended by nothing before `COMMIT`. -/
theorem InsertPc.commit_of_decided {pc : InsertPc} {statement : InsertStatement}
    (hdecided : pc.decided = true) (hthrown : pc.thrownBy = some statement) :
    statement = .commit := by
  unfold decided at hdecided
  split at hdecided
  · exact absurd hthrown (by simp [thrownBy])
  · exact absurd hthrown (by simp [thrownBy])
  · exact absurd hthrown (by simp [thrownBy])
  · rw [hthrown] at hdecided
    simpa using hdecided

/-- The call that an event belongs to. -/
def SubmissionEvent.caller : SubmissionEvent → Option Nat
  | .call _ _ => none
  | .work c | .throw c | .throwApplied c => some c

namespace Submissions

/-- Rows collide neither with each other nor with the rows of open transactions. -/
structure Matched (collate : String → String) (s : Submissions) : Prop where
  outbox : s.db.outboxEvents = s.db.notifications.map Notification.outbox
  apart : s.db.notifications.Pairwise fun n m => ¬ n.Collides collate m
  free : ∀ c call, s.calls.get c = some call → call.Inserted →
    ∀ n ∈ s.db.notifications, ¬ call.row.Collides collate n
  distinct : ∀ c call c' call', s.calls.get c = some call → s.calls.get c' = some call' →
    call.Inserted → call'.Inserted → call.row.Collides collate call'.row → c = c'

variable {collate : String → String} {s t : Submissions} {event : SubmissionEvent} {c : Nat}
  {call : InsertCall} {pc : InsertPc} {size : Nat}

theorem matched_initial (collate : String → String) (size : Nat) :
    (initial size).Matched collate where
  outbox := rfl
  apart := List.Pairwise.nil
  free := by simp [initial]
  distinct := by simp [initial]

/-- The ids of rows that do not collide are different. -/
theorem Matched.paired (hmatched : s.Matched collate) : s.db.Paired where
  outbox := by
    rw [hmatched.outbox, List.forall₂_map_right_iff, List.forall₂_same]
    exact fun n _ => ⟨rfl, rfl, rfl⟩
  ids := by
    refine List.pairwise_map.mpr (hmatched.apart.imp fun hapart hid => hapart ?_)
    exact .inl hid

/-- Only the tables and the rows in open transactions matter. -/
theorem Matched.of_inserted (hmatched : s.Matched collate) (hdb : t.db = s.db)
    (hold : ∀ c call, t.calls.get c = some call → call.Inserted →
      ∃ old, s.calls.get c = some old ∧ old.Inserted ∧ call.row = old.row) : t.Matched collate where
  outbox := by rw [hdb]; exact hmatched.outbox
  apart := by rw [hdb]; exact hmatched.apart
  free := by
    intro c call hget hinserted n hn
    obtain ⟨old, hgetold, hold, hrow⟩ := hold c call hget hinserted
    rw [hrow]
    exact hmatched.free c old hgetold hold n (hdb ▸ hn)
  distinct := by
    intro c call c' call' hget hget' hinserted hinserted' hcollides
    obtain ⟨old, hgetold, hold₁, hrow⟩ := hold c call hget hinserted
    obtain ⟨old', hgetold', hold₂, hrow'⟩ := hold c' call' hget' hinserted'
    exact hmatched.distinct c old c' old' hgetold hgetold' hold₁ hold₂ (by rwa [← hrow, ← hrow'])

/-- The `COMMIT` of a call appends its row to the tables. -/
theorem Matched.commit (hmatched : s.Matched collate) (hget : s.calls.get c = some call)
    (hcall : call.pc = .commit) {handles : List Nat}
    (hcalls : t.calls.get = Function.update s.calls.get c (some { call with handles, pc }))
    (hpc : ¬ { call with handles, pc }.Inserted) (hdb : t.db = s.db.commitInsert call.row) :
    t.Matched collate := by
  have hinserted : call.Inserted := .inr hcall
  have hothers : ∀ c' call', t.calls.get c' = some call' → call'.Inserted →
      c' ≠ c ∧ s.calls.get c' = some call' := by
    intro c' call' hget' hinserted'
    rw [hcalls] at hget'
    rcases Registry.update_eq_some.mp hget' with ⟨_, heq⟩ | hold
    · obtain rfl := Option.some.inj heq
      exact absurd hinserted' hpc
    · exact hold
  refine ⟨?_, ?_, fun c' call' hget' hinserted' n hn => ?_,
    fun c₁ call₁ c₂ call₂ h₁ h₂ hi₁ hi₂ => ?_⟩
  · rw [hdb]
    show s.db.outboxEvents ++ [call.row.outbox] = (s.db.notifications ++ [call.row]).map _
    rw [hmatched.outbox, List.map_append, List.map_singleton]
  · rw [hdb]
    refine List.pairwise_append.mpr ⟨hmatched.apart, List.pairwise_singleton _ _, ?_⟩
    intro n hn m hm hcollides
    rw [List.mem_singleton] at hm
    subst hm
    exact hmatched.free c call hget hinserted n hn hcollides.symm
  · obtain ⟨hne, hgetold⟩ := hothers c' call' hget' hinserted'
    rw [hdb] at hn
    rcases List.mem_append.mp hn with hn | hn
    · exact hmatched.free c' call' hgetold hinserted' n hn
    · rw [List.mem_singleton] at hn
      subst hn
      exact fun hcollides =>
        hne (hmatched.distinct c' call' c call hgetold hget hinserted' hinserted
        hcollides)
  · exact hmatched.distinct c₁ call₁ c₂ call₂ (hothers c₁ call₁ h₁ hi₁).2
      (hothers c₂ call₂ h₂ hi₂).2
      hi₁ hi₂

/-- The `INSERT` of a call puts a row in a transaction that collides with no other. -/
theorem Matched.insert (hmatched : s.Matched collate)
    (hfree : ∀ n ∈ s.db.notifications, ¬ call.row.Collides collate n)
    (hothers : ∀ c' other, s.calls.get c' = some other → c' ≠ c → other.Inserted →
      ¬ call.row.Collides collate other.row) {handles : List Nat}
    (hcalls : t.calls.get = Function.update s.calls.get c (some { call with handles, pc }))
    (hdb : t.db = s.db) : t.Matched collate := by
  refine ⟨by rw [hdb]; exact hmatched.outbox, by rw [hdb]; exact hmatched.apart,
    fun c' call' hget' hinserted' n hn => ?_, fun c₁ call₁ c₂ call₂ h₁ h₂ hi₁ hi₂ hcollides => ?_⟩
  · rw [hcalls] at hget'
    rw [hdb] at hn
    rcases Registry.update_eq_some.mp hget' with ⟨_, heq⟩ | ⟨_, hget'⟩
    · obtain rfl := Option.some.inj heq
      exact hfree n hn
    · exact hmatched.free c' call' hget' hinserted' n hn
  · rw [hcalls] at h₁ h₂
    rcases Registry.update_eq_some.mp h₁ with ⟨hc₁, heq₁⟩ | ⟨hne₁, hold₁⟩ <;>
      rcases Registry.update_eq_some.mp h₂ with ⟨hc₂, heq₂⟩ | ⟨hne₂, hold₂⟩
    · exact hc₁.trans hc₂.symm
    · obtain rfl := Option.some.inj heq₁
      exact absurd hcollides (hothers c₂ call₂ hold₂ hne₂ hi₂)
    · obtain rfl := Option.some.inj heq₂
      exact absurd hcollides.symm (hothers c₁ call₁ hold₁ hne₁ hi₁)
    · exact hmatched.distinct c₁ call₁ c₂ call₂ hold₁ hold₂ hi₁ hi₂ hcollides

/-- The step lemma: rows are committed together, and only after the check of the keys. -/
theorem Matched.step (hmatched : s.Matched collate) (h : Effect collate s event t) :
    t.Matched collate := by
  cases h with
  | called input uuid _ hdb hcalls =>
      refine hmatched.of_inserted hdb fun c call hget hinserted => ?_
      rw [hcalls] at hget
      rcases Registry.update_eq_some.mp hget with ⟨_, heq⟩ | ⟨_, hget⟩
      · obtain rfl := Option.some.inj heq
        simp [InsertCall.Inserted] at hinserted
      · exact ⟨call, hget, hinserted, rfl⟩
  | moved c call pc handles _ _ hget hmoved hcalls =>
      have hquiet : t.db = s.db → ({ call with handles, pc }.Inserted → call.Inserted) →
          t.Matched collate := by
        intro hdb hpc
        refine hmatched.of_inserted hdb fun c' call' hget' hinserted => ?_
        rw [hcalls] at hget'
        rcases Registry.update_eq_some.mp hget' with ⟨rfl, heq⟩ | ⟨_, hget'⟩
        · obtain rfl := Option.some.inj heq
          exact ⟨call, hget, hpc hinserted, rfl⟩
        · exact ⟨call', hget', hinserted, rfl⟩
      generalize hdb : t.db = db at hmoved
      cases hmoved with
      | inserted hcall hfree hothers => exact hmatched.insert hfree hothers hcalls hdb
      | committed hcall =>
          exact hmatched.commit hget hcall hcalls (by simp [InsertCall.Inserted]) hdb
      | threwApplied hcall =>
          exact hmatched.commit hget hcall hcalls (by simp [InsertCall.Inserted]) hdb
      | outboxInserted hcall => exact hquiet hdb fun _ => .inl hcall
      | found | missed | started | duplicate | rolledBack =>
          exact hquiet hdb (by simp [InsertCall.Inserted])
      | acquired pc hpc =>
          rcases InsertPc.acquired_cases hpc with ⟨_, rfl⟩ | ⟨_, rfl⟩ <;>
            exact hquiet hdb (by simp [InsertCall.Inserted])
      | released pc hpc =>
          rcases InsertPc.released_cases hpc with ⟨_, rfl⟩ | ⟨_, _, rfl⟩ | ⟨_, _, rfl⟩ <;>
            exact hquiet hdb (by simp [InsertCall.Inserted])
      | threw pc hpc =>
          rcases InsertPc.thrown_cases hpc with ⟨_, rfl⟩ | ⟨_, rfl⟩ | ⟨_, rfl⟩ | ⟨_, rfl⟩ |
              ⟨_, rfl⟩ <;>
            exact hquiet hdb (by simp [InsertCall.Inserted])

/-- In every state of every run the rows match. -/
theorem reachable_matched {allowed : Submissions → SubmissionEvent → Prop}
    (hreach : Reaches (Submissions.step collate) allowed (initial size) s) : s.Matched collate :=
  effect_invariant hreach (well_formed_initial size) (matched_initial collate size)
    fun _ _ _ hmatched _ heffect => hmatched.step heffect

/-- Only the call takes the step. -/
theorem Moved.caller_eq {db : Database} (h : Moved collate s c call event db pc) :
    event.caller = some c := by
  cases h <;> rfl

/-- A step of a call leaves the tables alone, or adds the row of the call and decides. A decision
stands. -/
theorem Moved.decided {db : Database} (h : Moved collate s c call event db pc) :
    (db = s.db ∨ (db = s.db.commitInsert call.row ∧ pc.decided = true)) ∧
      (call.pc.decided = true → pc.decided = true) := by
  cases h with
  | acquired pc hpc =>
      rcases InsertPc.acquired_cases hpc with ⟨hcall, rfl⟩ | ⟨hcall, rfl⟩ <;>
        exact ⟨.inl rfl, by simp [hcall, InsertPc.decided, InsertPc.thrownBy]⟩
  | released pc hpc =>
      rcases InsertPc.released_cases hpc with ⟨hcall, rfl⟩ | ⟨result, hcall, rfl⟩ |
          ⟨result, hcall, rfl⟩
      · exact ⟨.inl rfl, by simp [hcall, InsertPc.decided, InsertPc.thrownBy]⟩
      · exact ⟨.inl rfl, by cases result <;> simp [hcall, InsertPc.decided, InsertPc.thrownBy]⟩
      · exact ⟨.inl rfl, by cases result <;> simp [hcall, InsertPc.decided, InsertPc.thrownBy]⟩
  | threw pc hpc =>
      rcases InsertPc.thrown_cases hpc with ⟨hcall, rfl⟩ | ⟨hcall, rfl⟩ | ⟨hcall, rfl⟩ |
          ⟨hcall, rfl⟩ | ⟨hcall, rfl⟩ <;>
        exact ⟨.inl rfl, by simp [hcall, InsertPc.decided, InsertPc.thrownBy]⟩
  | committed hcall => exact ⟨.inr ⟨rfl, rfl⟩, fun _ => rfl⟩
  | threwApplied hcall => exact ⟨.inr ⟨rfl, rfl⟩, fun _ => rfl⟩
  | found n hcall | missed hcall | started hcall | duplicate n hcall | inserted hcall
  | outboxInserted hcall =>
      exact ⟨.inl rfl, by simp [hcall, InsertPc.decided, InsertPc.thrownBy]⟩
  | rolledBack statement hcall =>
      exact ⟨.inl rfl, by simp [hcall, InsertPc.decided, InsertPc.thrownBy]⟩

/-- A decision stands in every step of the calls. -/
theorem Effect.decided (h : Effect collate s event t) (hget : s.calls.get c = some call)
    (hdecided : call.pc.decided = true) :
    ∃ call', t.calls.get c = some call' ∧ call'.pc.decided = true := by
  cases h with
  | called input uuid _ hdb hcalls =>
      refine ⟨call, ?_, hdecided⟩
      rw [hcalls]
      exact (Function.update_of_ne (Nat.ne_of_lt (Registry.lt_next hget)) _ _).trans hget
  | moved c' old pc handles _ _ hget' hmoved hcalls =>
      by_cases hc : c = c'
      · subst hc
        obtain rfl := Option.some.inj (hget.symm.trans hget')
        exact ⟨_, by rw [hcalls, Function.update_self], hmoved.decided.2 hdecided⟩
      · exact ⟨call, by rw [hcalls, Function.update_of_ne hc, hget], hdecided⟩

/-- A step of a call that does not decide leaves the tables alone. -/
theorem Effect.db_eq (h : Effect collate s event t) (hcaller : event.caller = some c) :
    t.db = s.db ∨ ∃ call, t.calls.get c = some call ∧ call.pc.decided = true := by
  cases h with
  | called => exact absurd hcaller (by simp [SubmissionEvent.caller])
  | moved c' call pc handles _ _ hget hmoved hcalls =>
      obtain rfl := Option.some.inj (hmoved.caller_eq.symm.trans hcaller)
      rcases hmoved.decided.1 with hdb | ⟨_, hdecided⟩
      · exact .inl hdb
      · exact .inr ⟨_, by rw [hcalls, Function.update_self], hdecided⟩

/-- A call that a statement before `COMMIT` has ended has not changed the tables. -/
theorem tables_kept {events : List SubmissionEvent} {statement : InsertStatement}
    (hrun : run (Submissions.step collate) (initial size) events = some s)
    (hget : s.calls.get c = some call) (hthrew : call.pc.thrownBy = some statement)
    (hstatement : statement ≠ .commit) {state next : Submissions}
    (hperforms : Performs (Submissions.step collate) (initial size) events state event)
    (hcaller : event.caller = some c) (hstep : Submissions.step collate state event = some next) :
    next.db = state.db := by
  obtain ⟨before, hpre, hbefore⟩ := hperforms.visits
  have hreached : Reaches (Submissions.step collate) (fun _ _ => True) (initial size) state :=
    Reaches.of_run (by simp) hbefore
  have hwell : state.WellFormed := reachable_well_formed hreached
  obtain ⟨hnext, heffect⟩ := hwell.step hstep
  rcases heffect.db_eq hcaller with hdb | hdecided
  · exact hdb
  · -- A call that has decided would still have decided at the end of the run.
    obtain ⟨after, hafter⟩ := hperforms.exists_rest hrun hstep
    have hreach : Reaches (Submissions.step collate) (fun _ _ => True) next s :=
      Reaches.of_run (by simp) hafter
    have hstands : ∀ state event next,
        (∃ call, state.calls.get c = some call ∧ call.pc.decided = true) → True →
        Effect collate state event next →
        ∃ call, next.calls.get c = some call ∧ call.pc.decided = true := by
      intro state event next hinv _ heffect
      obtain ⟨call, hget, hdecided⟩ := hinv
      exact heffect.decided hget hdecided
    obtain ⟨call', hget', hdecided'⟩ := effect_invariant hreach hnext hdecided hstands
    obtain rfl := Option.some.inj (hget.symm.trans hget')
    exact absurd (InsertPc.commit_of_decided hdecided' hthrew) hstatement

/-- In every run of any number of calls on any number of sessions the notifications and the outbox
rows correspond, a call that throws before `COMMIT` leaves the tables as they were, and no available
session has an open transaction. -/
theorem outbox_write_atomic (collate : String → String) (size : Nat) (events : List SubmissionEvent)
    (s : Submissions) (hrun : run (Submissions.step collate) (initial size) events = some s) :
    s.db.Paired ∧
      (∀ c call statement, s.calls.get c = some call → call.pc.thrownBy = some statement →
        statement ≠ .commit → ∀ state event next,
          Performs (Submissions.step collate) (initial size) events state event →
          event.caller = some c → Submissions.step collate state event = some next →
          next.db = state.db) ∧
      ∀ session ∈ s.available, s.transactions session = none := by
  have hreach : Reaches (Submissions.step collate) (fun _ _ => True) (initial size) s :=
    Reaches.of_run (by simp) hrun
  refine ⟨(reachable_matched hreach).paired, ?_, ?_⟩
  · intro c call statement hget hthrew hstatement state event next hperforms hcaller hstep
    exact tables_kept hrun hget hthrew hstatement hperforms hcaller hstep
  · intro session hsession
    have hwell := reachable_well_formed hreach
    refine hwell.idle session fun c call hget hheld => ?_
    exact ((hwell.handles c call hget).2.2 session hheld).2 hsession

/-- A request body as the API decodes it. -/
def order : Notification :=
  { idempotencyKey := "order-1", channel := .email, recipient := "a@b.c", subject := ""
    body := "hi" }

/-- The second call throws at its `COMMIT`, which has taken effect; the third throws before. -/
def failures : List SubmissionEvent :=
  [.call order "a", .work 0, .work 0, .throw 0, .work 0, .work 0,
   .call order "b", .work 1, .work 1, .work 1, .work 1, .work 1, .work 1, .work 1, .throwApplied 1,
   .work 1, .work 1,
   .call { order with idempotencyKey := "order-2" } "c", .work 2, .work 2, .work 2, .work 2,
     .work 2, .work 2, .throw 2, .work 2, .work 2]

theorem outbox_write_atomic_failures :
    ∃ s, run (Submissions.step id) (initial 2) failures = some s ∧ s.db.Paired ∧
      s.db.notifications.length = 1 ∧ ∀ session ∈ s.available, s.transactions session = none := by
  have hlast : (run (Submissions.step id) (initial 2) failures).map
      (fun s => s.db.notifications.length) = some 1 := by decide +kernel
  obtain ⟨s, hrun, hlength⟩ := Option.map_eq_some_iff.mp hlast
  obtain ⟨hpaired, _, hidle⟩ := outbox_write_atomic id 2 failures s hrun
  exact ⟨s, hrun, hpaired, hlength, hidle⟩

end Submissions

end NotificationDelivery
