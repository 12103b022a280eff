import NotificationDelivery.Service.Duplicates
import NotificationDelivery.Service.StatusAgreement

/-!
# Where the rows come from

Nothing in the tables is invented. A row of `delivery_attempts` reports how some router call for
its notification ended; SENT needs a call that the provider accepted, and DEAD_LETTERED one that
failed; and `attempt_count` never exceeds the number of calls that ended. This holds whatever
overlaps, dies or is put back.
-/

namespace NotificationDelivery

open EventMachine

/-- The row reports the outcome of a call. -/
def DeliveryAttempt.Reports (a : DeliveryAttempt) : ProviderOutcome → Prop
  | .result providerRef =>
      a.status = .success ∧ a.providerRef = some providerRef ∧ a.errorMessage = none
  | .failure what isTransient =>
      a.status = (if isTransient then .transientFailure else .permanentFailure) ∧
        a.providerRef = none ∧ a.errorMessage = some what

/-- What a delivery is about to write comes from one of the calls. -/
def HandlerPc.Explained (calls : List ProviderOutcome) : HandlerPc → Prop
  | .recordSuccess providerRef => .result providerRef ∈ calls
  | .markSent => ∃ outcome ∈ calls, outcome.isResult = true
  | .incrementFailure what isTransient | .recordDead what isTransient =>
      .failure what isTransient ∈ calls
  | .recordRetry what => .failure what true ∈ calls
  | .publishDlq | .markDeadLettered => ∃ outcome ∈ calls, outcome.isResult = false
  | .findById | .markProcessing _ | .send _ | .incrementSuccess | .publishRetry | .ack => True

/-- More calls explain as much. -/
theorem HandlerPc.Explained.mono {calls later : List ProviderOutcome} {pc : HandlerPc}
    (h : pc.Explained calls) (hsubset : calls ⊆ later) : pc.Explained later := by
  cases pc with
  | recordSuccess | incrementFailure | recordDead | recordRetry => exact hsubset h
  | markSent | publishDlq | markDeadLettered =>
      obtain ⟨outcome, hmem, hresult⟩ := h
      exact ⟨outcome, hsubset hmem, hresult⟩
  | _ => trivial

namespace View

/-- What the tables hold about a notification, and what its deliveries are about to write, comes
from router calls that have ended. -/
structure Explained (v : View) : Prop where
  handler : ∀ h w, v.handlers h = some w → w.pc.Explained v.sends
  attempt : ∀ k a, v.attempts k = some a → ∃ outcome ∈ v.sends, a.Reports outcome
  sent : ∀ row, v.row = some row → row.status = .sent →
    ∃ outcome ∈ v.sends, outcome.isResult = true
  dead : ∀ row, v.row = some row → row.status = .deadLettered →
    ∃ outcome ∈ v.sends, outcome.isResult = false

variable {env : Env} {config : Config} {n : String} {known : Prop} {v next u : View} {h : Nat}
  {w : Handler} {pc : HandlerPc} {event : Event}

theorem explained_empty : empty.Explained where
  handler := by simp [empty]
  attempt := by simp [empty]
  sent := by simp [empty]
  dead := by simp [empty]

namespace Explained

/-- Only the deliveries, the row and the attempts need an explanation. -/
theorem of_eq (hv : v.Explained) (hsends : next.sends = v.sends)
    (hhandlers : ∀ h w, next.handlers h = some w → w.pc.Explained v.sends)
    (hattempts : next.attempts = v.attempts) (hrow : next.row = v.row) : next.Explained where
  handler := by simpa only [hsends] using hhandlers
  attempt := by simpa only [hsends, hattempts] using hv.attempt
  sent := by simpa only [hsends, hrow] using hv.sent
  dead := by simpa only [hsends, hrow] using hv.dead

/-- A delivery moves on to a statement that is explained. -/
theorem advance (hv : v.Explained) (hpc : pc.Explained v.sends) :
    (v.advance h w pc).Explained := by
  refine hv.of_eq rfl (fun h' w' hget => ?_) rfl rfl
  rcases Registry.update_eq_some.mp hget with ⟨_, heq⟩ | ⟨_, hget⟩
  · obtain rfl := Option.some.inj heq
    exact hpc
  · exact hv.handler h' w' hget

/-- A delivery leaves. -/
theorem remove (hv : v.Explained) (h : Nat) :
    { v with handlers := Function.update v.handlers h none }.Explained := by
  refine hv.of_eq rfl (fun h' w' hget => ?_) rfl rfl
  rcases Registry.update_eq_some.mp hget with ⟨_, heq⟩ | ⟨_, hget⟩
  · exact absurd heq (by simp)
  · exact hv.handler h' w' hget

/-- A call ends. -/
theorem extend (hv : v.Explained) (outcome : ProviderOutcome) :
    { v with sends := v.sends ++ [outcome] }.Explained := by
  have hsubset : v.sends ⊆ v.sends ++ [outcome] := List.subset_append_left _ _
  refine ⟨fun h w hget => (hv.handler h w hget).mono hsubset, fun k a ha => ?_, ?_, ?_⟩
  · obtain ⟨old, hmem, hreports⟩ := hv.attempt k a ha
    exact ⟨old, hsubset hmem, hreports⟩
  · intro row hrow hstatus
    obtain ⟨old, hmem, hresult⟩ := hv.sent row hrow hstatus
    exact ⟨old, hsubset hmem, hresult⟩
  · intro row hrow hstatus
    obtain ⟨old, hmem, hresult⟩ := hv.dead row hrow hstatus
    exact ⟨old, hsubset hmem, hresult⟩

/-- An explained row is written over an older one or beside it. -/
theorem record (hv : v.Explained) {attempt : DeliveryAttempt} {outcome : ProviderOutcome}
    (hmem : outcome ∈ v.sends) (hreports : attempt.Reports outcome) :
    (v.record attempt).Explained where
  handler := hv.handler
  attempt := by
    intro k a ha
    rw [attempts_record] at ha
    split at ha
    · refine ⟨outcome, hmem, ?_⟩
      cases hold : v.attempts k with
      | none =>
          rw [hold] at ha
          obtain rfl := Option.some.inj ha
          exact hreports
      | some old =>
          rw [hold] at ha
          obtain rfl := Option.some.inj ha
          cases outcome <;> exact hreports
    · exact hv.attempt k a ha
  sent := hv.sent
  dead := hv.dead

/-- The status is set to one that is explained. -/
theorem set_status (hv : v.Explained) {status : NotificationStatus}
    (hsent : status = .sent → ∃ outcome ∈ v.sends, outcome.isResult = true)
    (hdead : status = .deadLettered → ∃ outcome ∈ v.sends, outcome.isResult = false) :
    (v.setStatus status).Explained where
  handler := hv.handler
  attempt := hv.attempt
  sent := by
    intro row hrow hstatus
    obtain ⟨old, -, rfl⟩ := Option.map_eq_some_iff.mp hrow
    exact hsent hstatus
  dead := by
    intro row hrow hstatus
    obtain ⟨old, -, rfl⟩ := Option.map_eq_some_iff.mp hrow
    exact hdead hstatus

theorem increment (hv : v.Explained) : v.increment.Explained where
  handler := hv.handler
  attempt := hv.attempt
  sent := by
    intro row hrow hstatus
    obtain ⟨old, hold, rfl⟩ := Option.map_eq_some_iff.mp hrow
    exact hv.sent old hold hstatus
  dead := by
    intro row hrow hstatus
    obtain ⟨old, hold, rfl⟩ := Option.map_eq_some_iff.mp hrow
    exact hv.dead old hold hstatus

theorem worked (hv : v.Explained) (hget : v.handlers h = some w)
    (hworked : v.Worked config h w next) : next.Explained := by
  have hpc := hv.handler h w hget
  cases hworked with
  | missed | skipped | found => exact hv.advance trivial
  | markedProcessing row =>
      have hset : (v.setStatus .processing).Explained := hv.set_status (by simp) (by simp)
      exact hset.advance trivial
  | recordedSuccess providerRef hat =>
      rw [hat] at hpc
      have hreports : (w.successAttempt providerRef).Reports (.result providerRef) :=
        ⟨rfl, rfl, rfl⟩
      exact (hv.record hpc hreports).advance ⟨_, hpc, rfl⟩
  | markedSent hat =>
      rw [hat] at hpc
      have hset : (v.setStatus .sent).Explained := hv.set_status (fun _ => hpc) (by simp)
      exact hset.advance trivial
  | incrementedSuccess => exact hv.increment.advance trivial
  | incrementedRetry what isTransient hat hretries =>
      rw [hat] at hpc
      simp only [Received.retries, Bool.and_eq_true] at hretries
      obtain ⟨rfl, -⟩ := hretries
      exact hv.increment.advance hpc
  | incrementedDead what isTransient hat =>
      rw [hat] at hpc
      exact hv.increment.advance hpc
  | recordedRetry what hat =>
      rw [hat] at hpc
      have hreports : (w.failureAttempt what true).Reports (.failure what true) := ⟨rfl, rfl, rfl⟩
      exact (hv.record hpc hreports).advance trivial
  | publishedRetry i =>
      have hput : (v.setMessage i (some (.queue (Topology.retryQueue w.channel
          w.message.attemptNumber), w.message.attemptNumber + 1))).Explained :=
        hv.of_eq rfl hv.handler rfl rfl
      exact hput.advance trivial
  | droppedRetry => exact hv.advance trivial
  | recordedDead what isTransient hat =>
      rw [hat] at hpc
      have hreports : (w.failureAttempt what isTransient).Reports (.failure what isTransient) :=
        ⟨rfl, rfl, rfl⟩
      exact (hv.record hpc hreports).advance ⟨_, hpc, rfl⟩
  | publishedDlq i hat =>
      rw [hat] at hpc
      have hput : (v.setMessage i (some (.queue (Topology.dlq w.channel),
          w.message.attemptNumber))).Explained :=
        hv.of_eq rfl hv.handler rfl rfl
      exact hput.advance hpc
  | markedDeadLettered hat =>
      rw [hat] at hpc
      have hset : (v.setStatus .deadLettered).Explained := hv.set_status (by simp) fun _ => hpc
      exact hset.advance trivial
  | acked =>
      have htaken : (v.setMessage w.deliveryTag none).Explained := hv.of_eq rfl hv.handler rfl rfl
      exact htaken.remove h
  | ackedLate => exact hv.remove h

/-- The step lemma. -/
theorem step (hv : v.Explained) (hstep : View.Step env n known v event next) :
    next.Explained := by
  cases hstep with
  | unrelated => exact hv
  | found | published | aborted | expired | requeued => exact hv.of_eq rfl hv.handler rfl rfl
  | committed p saved hnone _ _ hstatus =>
      refine ⟨hv.handler, hv.attempt, fun row hrow hsent => ?_, fun row hrow hdead => ?_⟩
      · obtain rfl := Option.some.inj hrow
        exact absurd (hstatus.symm.trans hsent) (by simp)
      · obtain rfl := Option.some.inj hrow
        exact absurd (hstatus.symm.trans hdead) (by simp)
  | delivered c i h w _ _ _ _ _ hpc =>
      refine hv.of_eq rfl (fun h' w' hget => ?_) rfl rfl
      rcases Registry.update_eq_some.mp hget with ⟨_, heq⟩ | ⟨_, hget⟩
      · obtain rfl := Option.some.inj heq
        rw [hpc]
        trivial
      · exact hv.handler h' w' hget
  | worked h w next hget _ hworked => exact hv.worked hget hworked
  | sent h w row outcome hget =>
      have hpc : (Handler.afterSend outcome).Explained (v.sends ++ [outcome]) := by
        cases outcome <;> exact List.mem_append_right _ (List.mem_singleton.mpr rfl)
      exact (hv.extend outcome).advance hpc
  | crashed h w => exact hv.remove h

end Explained

end View

/-- The attempts that the row of the notification counts. -/
def Database.attemptCount (db : Database) (n : String) : Nat :=
  (db.findById n).elim 0 Notification.attemptCount

/-- The router calls of the delivery that have ended and are not counted yet. -/
def Handler.uncounted (w : Handler) : Nat :=
  match w.pc with
  | .recordSuccess _ | .markSent | .incrementSuccess | .incrementFailure _ _ => 1
  | .findById | .markProcessing _ | .send _ | .recordRetry _ | .publishRetry | .recordDead _ _
  | .publishDlq | .markDeadLettered | .ack => 0

/-- The router calls for the notification that are not counted yet. -/
def Handler.owes (n : String) : Handler → Nat := amountFor n uncounted

section AttemptCount

variable {config : Config} {db next : Database} {n id : String}

@[simp] theorem Database.attempt_count_set_status (status : NotificationStatus) :
    (db.setStatus status id).attemptCount n = db.attemptCount n := by
  unfold attemptCount
  rw [find_by_id_set_status]
  split
  · cases db.findById n <;> rfl
  · rfl

/-- A count of nothing stays nothing. -/
theorem Database.attempt_count_increment_le :
    (db.incrementAttemptCount id).attemptCount n ≤
      db.attemptCount n + if id = n then 1 else 0 := by
  unfold attemptCount
  rw [find_by_id_increment]
  by_cases hid : n = id
  · subst hid
    rw [if_pos rfl, if_pos rfl]
    cases db.findById n with
    | none => exact Nat.zero_le _
    | some row => exact Nat.le_refl _
  · rw [if_neg hid]
    exact Nat.le_add_right _ _

/-- A new notification has no attempts. -/
theorem Database.attempt_count_commit {row : Notification} (hrow : row.attemptCount = 0) :
    (db.commitInsert row).attemptCount n = db.attemptCount n := by
  unfold attemptCount
  rw [find_by_id_commit]
  cases db.findById n with
  | some old => rfl
  | none =>
      rw [Option.none_or]
      split
      · exact hrow
      · rfl

/-- A statement of a delivery counts an attempt only if its call has ended. -/
theorem Handler.worked_owes {broker broker' : Broker} {h : Nat} {w : Handler}
    {pc : Option HandlerPc} (hworked : w.Worked config db broker h next broker' pc) :
    next.attemptCount n + ((pc.map w.goto).map (owes n)).getD 0 ≤
      db.attemptCount n + w.owes n := by
  cases hworked with
  | missed hpc | skipped _ hpc | found _ hpc | publishedRetry hpc | publishedDlq hpc =>
      refine Nat.add_le_add_left (amount_for_goto_le ?_) _
      simp [uncounted, hpc]
  | acked => exact Nat.add_le_add_left (Nat.zero_le _) _
  | recordedSuccess _ hpc | recordedRetry _ hpc | recordedDead _ _ hpc =>
      show db.attemptCount n + _ ≤ _
      refine Nat.add_le_add_left (amount_for_goto_le ?_) _
      simp [uncounted, hpc]
  | markedProcessing _ hpc | markedSent hpc | markedDeadLettered hpc =>
      simp only [Database.markProcessing, Database.markSent, Database.markDeadLettered,
        Database.attempt_count_set_status]
      refine Nat.add_le_add_left (amount_for_goto_le ?_) _
      simp [uncounted, hpc]
  | incrementedSuccess hpc | incrementedRetry _ _ hpc | incrementedDead _ _ hpc =>
      refine Nat.le_trans (Nat.add_le_add_right Database.attempt_count_increment_le _) ?_
      have howes : w.owes n = if w.notificationId = n then 1 else 0 := by
        simp only [owes, amountFor, uncounted, hpc]
      rw [howes, Option.map_some, Option.map_some, Option.getD_some, owes,
        amount_for_eq_zero rfl]
      exact Nat.le_refl _

end AttemptCount

namespace System

variable {env : Env} {s t : System} {event : Event} {n : String}

/-- The count of the row and the calls that are not counted yet are at most the calls that have
ended. -/
def Tallied (n : String) (s : System) : Prop :=
  s.db.attemptCount n + s.handlers.weigh (Handler.owes n) ≤ s.endedCalls n

/-- The step lemma. -/
theorem Tallied.step (h : s.Tallied n) (hstep : s.step env event = some t) : t.Tallied n := by
  unfold Tallied at h ⊢
  cases step_cases hstep with
  | requested | aborted | dropped | expired | requeued => exact h
  | posted p post db broker pc hget hworked =>
      cases hworked with
      | committed =>
          show (s.db.commitInsert post.row).attemptCount n + _ ≤ _
          rw [Database.attempt_count_commit rfl]
          exact h
      | _ => exact h
  | delivered c i m w hget hplace hchannel htag hbody hpc =>
      have howes : w.owes n = 0 := Handler.amount_for_eq_zero (by simp [Handler.uncounted, hpc])
      show s.db.attemptCount n + (s.handlers.insert w).weigh _ ≤ _
      rw [Registry.weigh_insert, howes]
      exact h
  | worked i w db broker pc hget hworked =>
      have howes := Handler.worked_owes (n := n) hworked
      have hset := Registry.weigh_set (Handler.owes n) (pc.map w.goto) hget
      show db.attemptCount n + (s.handlers.set i _).weigh _ ≤ s.endedCalls n
      omega
  | sent i w row outcome hget hpc =>
      have hset := Registry.weigh_set (Handler.owes n)
        (some (w.goto (Handler.afterSend outcome))) hget
      have hended : ({ s with sends := s.sends ++ [(w.notificationId, outcome)] } :
          System).endedCalls n = s.endedCalls n + if w.notificationId = n then 1 else 0 := by
        by_cases hn : w.notificationId = n <;> simp [endedCalls, hn]
      have howes : (w.goto (Handler.afterSend outcome)).owes n =
          if w.notificationId = n then 1 else 0 := by
        cases outcome <;> rfl
      simp only [Option.map_some, Option.getD_some, howes] at hset
      show s.db.attemptCount n + (s.handlers.set i _).weigh _ ≤
        ({ s with sends := s.sends ++ [(w.notificationId, outcome)] } : System).endedCalls n
      omega
  | crashed i w hget =>
      have hset := Registry.weigh_set (Handler.owes n) none hget
      simp only [Option.map_none, Option.getD_none] at hset
      show s.db.attemptCount n + (s.handlers.set i none).weigh _ ≤ s.endedCalls n
      omega

theorem reachable_tallied {allowed : System → Event → Prop}
    (hreach : Reaches (System.step env) allowed initial s) (n : String) : s.Tallied n := by
  have hkeep : ∀ u event next, Tallied n u → allowed u event → u.step env event = some next →
      Tallied n next :=
    fun _ _ _ h _ hstep => h.step hstep
  exact hreach.invariant hkeep (Nat.le_refl 0)

theorem reachable_explained {allowed : System → Event → Prop}
    (hreach : Reaches (System.step env) allowed initial s) (n : String) : (s.view n).Explained :=
  view_invariant hreach View.explained_empty fun _ _ _ _ _ hview hstep => hview.step hstep

/-- The calls that a view shows are calls for its notification. -/
theorem mem_sends_of_view {outcome : ProviderOutcome} (h : outcome ∈ (s.view n).sends) :
    (n, outcome) ∈ s.sends := by
  obtain ⟨call, hcall, rfl⟩ := List.mem_map.mp h
  obtain ⟨hmem, hn⟩ := List.mem_filter.mp hcall
  obtain rfl : call.1 = n := by simpa using hn
  exact hmem

/-- An attempt reports a call. -/
theorem attempt_explained {allowed : System → Event → Prop}
    (hreach : Reaches (System.step env) allowed initial s) {a : DeliveryAttempt}
    (ha : a ∈ s.db.findByNotificationId n) :
    ∃ outcome, (n, outcome) ∈ s.sends ∧ a.Reports outcome := by
  have hfind := (Database.find_attempt_iff (reachable_attempt_keys hreach)).mpr ⟨ha, rfl⟩
  obtain ⟨outcome, hcall, hreports⟩ := (reachable_explained hreach n).attempt _ a hfind
  exact ⟨outcome, mem_sends_of_view hcall, hreports⟩

/-- SENT and DEAD_LETTERED report a call. -/
theorem status_explained {allowed : System → Event → Prop}
    (hreach : Reaches (System.step env) allowed initial s) {row : Notification}
    (hrow : s.db.findById n = some row) :
    (row.status = .sent → ∃ providerRef, (n, .result providerRef) ∈ s.sends) ∧
      (row.status = .deadLettered →
        ∃ what isTransient, (n, .failure what isTransient) ∈ s.sends) := by
  have hview := reachable_explained hreach n
  refine ⟨fun hsent => ?_, fun hdead => ?_⟩
  · obtain ⟨outcome, hcall, hresult⟩ := hview.sent row hrow hsent
    cases outcome with
    | result providerRef => exact ⟨providerRef, mem_sends_of_view hcall⟩
    | failure => exact absurd hresult (by simp [ProviderOutcome.isResult])
  · obtain ⟨outcome, hcall, hresult⟩ := hview.dead row hrow hdead
    cases outcome with
    | result => exact absurd hresult (by simp [ProviderOutcome.isResult])
    | failure what isTransient => exact ⟨what, isTransient, mem_sends_of_view hcall⟩

/-- Any number of requests, any interleaving of deliveries, and deliveries that die or whose
messages are put back at any statement: every row of `delivery_attempts` reports how a router call
for its notification ended, a SENT notification was accepted by some call and a DEAD_LETTERED one
refused by some call, and `attempt_count` is at most the number of calls that ended. -/
theorem rows_explained (env : Env) (s : System) (allowed : System → Event → Prop)
    (hreach : Reaches (System.step env) allowed initial s) (n : String) :
    (∀ a ∈ s.db.findByNotificationId n, ∃ outcome, (n, outcome) ∈ s.sends ∧ a.Reports outcome) ∧
      ∀ row, s.db.findById n = some row →
        (row.status = .sent → ∃ providerRef, (n, .result providerRef) ∈ s.sends) ∧
        (row.status = .deadLettered →
          ∃ what isTransient, (n, .failure what isTransient) ∈ s.sends) ∧
        row.attemptCount ≤ s.endedCalls n := by
  refine ⟨fun a ha => attempt_explained hreach ha, fun row hrow => ?_⟩
  obtain ⟨hsent, hdead⟩ := status_explained hreach hrow
  have htallied := reachable_tallied hreach n
  unfold Tallied at htallied
  rw [Database.attemptCount, hrow] at htallied
  exact ⟨hsent, hdead, Nat.le_trans (Nat.le_add_right _ _) htallied⟩

/-- The second delivery records what the provider answered to it. -/
theorem rows_explained_accepted_twice : ∃ s row a,
    run (System.step shipped) initial (acceptedTwice ++ List.replicate 3 (.work 1)) = some s ∧
      s.db.findById "id" = some row ∧ row.status = .sent ∧
      (∃ providerRef, ("id", .result providerRef) ∈ s.sends) ∧
      a ∈ s.db.findByNotificationId "id" ∧ (∃ outcome, ("id", outcome) ∈ s.sends ∧
        a.Reports outcome) ∧ row.attemptCount ≤ s.endedCalls "id" := by
  have hlast : (run (System.step shipped) initial
      (acceptedTwice ++ List.replicate 3 (.work 1))).map (fun s =>
        ((s.db.findById "id").map Notification.status, s.db.findByNotificationId "id")) =
      some (some .sent, [⟨"id", 1, .email, .success, some "ref", none⟩]) := by
    decide +kernel
  obtain ⟨s, hrun, hs⟩ := Option.map_eq_some_iff.mp hlast
  obtain ⟨hstatus, hattempts⟩ := Prod.mk.inj hs
  obtain ⟨row, hrow, hsent⟩ := Option.map_eq_some_iff.mp hstatus
  have hreach : Reaches (System.step shipped) (fun _ _ => True) initial s :=
    .of_run (fun _ _ _ => trivial) hrun
  obtain ⟨hreported, hrows⟩ := rows_explained shipped s (fun _ _ => True) hreach "id"
  have ha : ⟨"id", 1, .email, .success, some "ref", none⟩ ∈ s.db.findByNotificationId "id" := by
    rw [hattempts]
    exact List.mem_singleton_self _
  exact ⟨s, row, _, hrun, hrow, hsent, (hrows row hrow).1 hsent, ha, hreported _ ha,
    (hrows row hrow).2.2⟩

end System

end NotificationDelivery
