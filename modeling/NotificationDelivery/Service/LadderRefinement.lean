import NotificationDelivery.Service.Ladder
import NotificationDelivery.Service.Traffic

/-!
# The service refines the retry ladder

`View.Refines` relates the view of a notification to a phase of the ladder and to the outcomes
of the attempts that are over. `Refines.step` is the simulation: while nothing is disturbed,
every step of the view stays in its phase or is a step of the ladder. An attempt is over,
with all its rows and messages in place, when its delivery has only the ack left.
-/

namespace NotificationDelivery

open Ladder

/-- The row of `delivery_attempts` for attempt `k`. -/
def attemptRow (n : String) (c : Channel) (k : Int) : ProviderOutcome → DeliveryAttempt
  | .result providerRef =>
      { notificationId := n, attemptNumber := k, channel := c, status := .success,
        providerRef := some providerRef }
  | .failure what isTransient =>
      { notificationId := n, attemptNumber := k, channel := c,
        status := if isTransient then .transientFailure else .permanentFailure
        errorMessage := some what }

/-- One row for each outcome, numbered from one. -/
def attemptRows (n : String) (c : Channel) (outcomes : List ProviderOutcome) (k : Int) :
    Option DeliveryAttempt :=
  if 1 ≤ k then outcomes[(k - 1).toNat]?.map (attemptRow n c k) else none

theorem attempt_rows_next (n : String) (c : Channel) (outcomes : List ProviderOutcome) :
    attemptRows n c outcomes (outcomes.length + 1) = none := by
  simp [attemptRows]

/-- Recording one more outcome adds the row with the next number. -/
theorem attempt_rows_append (n : String) (c : Channel) (outcomes : List ProviderOutcome)
    (outcome : ProviderOutcome) :
    Function.update (attemptRows n c outcomes) (outcomes.length + 1)
      (some (attemptRow n c (outcomes.length + 1) outcome)) =
        attemptRows n c (outcomes ++ [outcome]) := by
  funext k
  by_cases hk : k = outcomes.length + 1
  · subst hk
    simp [attemptRows]
  · rw [Function.update_of_ne hk]
    unfold attemptRows
    split
    · rename_i hone
      rcases lt_or_ge (k - 1).toNat outcomes.length with hlt | hge
      · rw [List.getElem?_append_left hlt]
      · rw [List.getElem?_eq_none hge, List.getElem?_eq_none]
        simp only [List.length_append, List.length_singleton]
        omega
    · rfl

/-- A delivery records the row of its attempt. -/
theorem Received.success_attempt_eq {n : String} {c : Channel} {k : Int} {w : Handler}
    (hid : w.notificationId = n) (hchannel : w.channel = c) (hk : w.message.attemptNumber = k)
    (providerRef : String) :
    w.successAttempt providerRef = attemptRow n c k (.result providerRef) := by
  subst hid hchannel hk
  rfl

theorem Received.failure_attempt_eq {n : String} {c : Channel} {k : Int} {w : Handler}
    (hid : w.notificationId = n) (hchannel : w.channel = c) (hk : w.message.attemptNumber = k)
    (what : String) (isTransient : Bool) :
    w.failureAttempt what isTransient = attemptRow n c k (.failure what isTransient) := by
  subst hid hchannel hk
  rfl

namespace View

/-- The rows of the notification: one attempt for each outcome in `recorded`, and the router calls
`calls`. -/
structure Books (n : String) (v : View) (row : Notification)
    (recorded calls : List ProviderOutcome) : Prop where
  stored : v.row = some row
  attempts : v.attempts = attemptRows n row.channel recorded
  sends : v.sends = calls

/-- How far the delivery of the next attempt is, by its next statement: the status, the attempt
count, the recorded outcomes and the router calls. -/
inductive Progress (maxRetries : Int) (outcomes : List ProviderOutcome) :
    HandlerPc → NotificationStatus → Nat → List ProviderOutcome → List ProviderOutcome → Prop where
  | findById (status : NotificationStatus) : status.skipped = false →
      Progress maxRetries outcomes .findById status outcomes.length outcomes outcomes
  | markProcessing (row : Notification) (status : NotificationStatus) :
      Progress maxRetries outcomes (.markProcessing row) status outcomes.length outcomes outcomes
  | send (row : Notification) :
      Progress maxRetries outcomes (.send row) .processing outcomes.length outcomes outcomes
  | recordSuccess (providerRef : String) :
      Progress maxRetries outcomes (.recordSuccess providerRef) .processing outcomes.length outcomes
        (outcomes ++ [.result providerRef])
  | markSent (providerRef : String) :
      Progress maxRetries outcomes .markSent .processing outcomes.length
        (outcomes ++ [.result providerRef]) (outcomes ++ [.result providerRef])
  | incrementSuccess (providerRef : String) :
      Progress maxRetries outcomes .incrementSuccess .sent outcomes.length
        (outcomes ++ [.result providerRef]) (outcomes ++ [.result providerRef])
  | incrementFailure (what : String) (isTransient : Bool) :
      Progress maxRetries outcomes (.incrementFailure what isTransient) .processing outcomes.length
        outcomes (outcomes ++ [.failure what isTransient])
  | recordRetry (what : String) :
      after maxRetries (outcomes.length + 1) (.failure what true) = .waiting (outcomes.length + 1) →
      Progress maxRetries outcomes (.recordRetry what) .processing (outcomes.length + 1) outcomes
        (outcomes ++ [.failure what true])
  | publishRetry (what : String) :
      after maxRetries (outcomes.length + 1) (.failure what true) = .waiting (outcomes.length + 1) →
      Progress maxRetries outcomes .publishRetry .processing (outcomes.length + 1)
        (outcomes ++ [.failure what true]) (outcomes ++ [.failure what true])
  | recordDead (what : String) (isTransient : Bool) :
      after maxRetries (outcomes.length + 1) (.failure what isTransient) =
        .dead (outcomes.length + 1) →
      Progress maxRetries outcomes (.recordDead what isTransient) .processing (outcomes.length + 1)
        outcomes (outcomes ++ [.failure what isTransient])
  | publishDlq (what : String) (isTransient : Bool) :
      after maxRetries (outcomes.length + 1) (.failure what isTransient) =
        .dead (outcomes.length + 1) →
      Progress maxRetries outcomes .publishDlq .processing (outcomes.length + 1)
        (outcomes ++ [.failure what isTransient]) (outcomes ++ [.failure what isTransient])
  | markDeadLettered (what : String) (isTransient : Bool) :
      after maxRetries (outcomes.length + 1) (.failure what isTransient) =
        .dead (outcomes.length + 1) →
      Progress maxRetries outcomes .markDeadLettered .processing (outcomes.length + 1)
        (outcomes ++ [.failure what isTransient]) (outcomes ++ [.failure what isTransient])

/-- The message that no delivery holds while an attempt is handled: between its publish and
`markDeadLettered` the copy on the dead-letter queue. -/
def parked (c : Channel) (k : Int) (pc : HandlerPc) : Option (Place × Int) :=
  if pc = .markDeadLettered then some (.queue (Topology.dlq c), k) else none

/-- Delivery `h` handles the attempt after `outcomes`. -/
structure Attempting (maxRetries : Int) (n : String) (v : View) (outcomes : List ProviderOutcome)
    (h : Nat) (w : Handler) (row : Notification) (recorded calls : List ProviderOutcome) :
    Prop where
  handler : v.handlers h = some w
  books : v.Books n row recorded calls
  progress : Progress maxRetries outcomes w.pc row.status row.attemptCount recorded calls
  quiet : ∀ p, v.publishing p = none
  traffic : v.Traffic row.channel (parked row.channel (outcomes.length + 1) w.pc) (some h)
    outcomes.length

/-- All attempts are over: the rows say so, and no request or delivery is about to change them. -/
structure AtRest (n : String) (v : View) (outcomes : List ProviderOutcome) (row : Notification)
    (slot : Option (Place × Int)) : Prop where
  books : v.Books n row outcomes outcomes
  count : row.attemptCount = outcomes.length
  quiet : ∀ p, v.publishing p = none
  traffic : v.Traffic row.channel slot none outcomes.length

/-- What the service holds about a notification in each phase of the ladder. -/
inductive Refines (maxRetries : Int) (n : String) (v : View) :
    Option Phase → List ProviderOutcome → Prop where
  | absent : v = .empty → Refines maxRetries n v none []
  | accepted (p : Nat) (saved row : Notification) : v.Books n row [] [] → row.status = .pending →
      row.attemptCount = 0 → v.publishing p = some saved → (∀ q ≠ p, v.publishing q = none) →
      v.Traffic row.channel none none 0 → Refines maxRetries n v (some .accepted) []
  | queued (outcomes : List ProviderOutcome) (row : Notification) :
      v.AtRest n outcomes row
        (some (.queue (Topology.mainQueue row.channel), outcomes.length + 1)) →
      row.status.skipped = false →
      Refines maxRetries n v (some (.queued (outcomes.length + 1))) outcomes
  | handling (outcomes : List ProviderOutcome) (h : Nat) (w : Handler) (row : Notification)
      (recorded calls : List ProviderOutcome) :
      v.Attempting maxRetries n outcomes h w row recorded calls →
      Refines maxRetries n v (some (.handling (outcomes.length + 1))) outcomes
  | waiting (outcomes : List ProviderOutcome) (row : Notification) :
      v.AtRest n outcomes row
        (some (.queue (Topology.retryQueue row.channel outcomes.length), outcomes.length + 1)) →
      row.status = .processing →
      Refines maxRetries n v (some (.waiting outcomes.length)) outcomes
  | sent (outcomes : List ProviderOutcome) (row : Notification) :
      v.AtRest n outcomes row none → row.status = .sent →
      Refines maxRetries n v (some (.sent outcomes.length)) outcomes
  | dead (outcomes : List ProviderOutcome) (row : Notification) :
      v.AtRest n outcomes row (some (.queue (Topology.dlq row.channel), outcomes.length)) →
      row.status = .deadLettered →
      Refines maxRetries n v (some (.dead outcomes.length)) outcomes

/-- The retry of the last attempt went to a queue that is not declared, and the broker has dropped
its message: the notification waits for ever. -/
structure Stranded (config : Config) (n : String) (v : View) (phase : Option Phase)
    (outcomes : List ProviderOutcome) : Prop where
  waiting : phase = some (.waiting outcomes.length)
  rest : ∃ row, v.AtRest n outcomes row none ∧ row.status = .processing
  undeclared : (config.retryDelaysMs.length : Int) < outcomes.length ∧
    (outcomes.length : Int) ≤ config.maxRetries

/-- What the service holds about a notification in each phase, also of a ladder that has retries
without a declared queue. -/
def Tracks (config : Config) (n : String) (v : View) (phase : Option Phase)
    (outcomes : List ProviderOutcome) : Prop :=
  v.Refines config.maxRetries n phase outcomes ∨ v.Stranded config n phase outcomes

variable {config : Config} {env : Env} {n : String} {known : Prop} {v next u : View} {h i j : Nat}
  {w : Handler} {row : Notification} {recorded calls outcomes : List ProviderOutcome}
  {maxRetries : Int} {phase : Option Phase} {event : Event}

namespace Books

theorem set_status (hbooks : v.Books n row recorded calls) (status : NotificationStatus) :
    (v.setStatus status).Books n { row with status } recorded calls where
  stored := by simp [setStatus, hbooks.stored]
  attempts := hbooks.attempts
  sends := hbooks.sends

theorem increment (hbooks : v.Books n row recorded calls) :
    v.increment.Books n { row with attemptCount := row.attemptCount + 1 } recorded calls where
  stored := by simp [View.increment, hbooks.stored]
  attempts := hbooks.attempts
  sends := hbooks.sends

/-- The outcome of the next attempt is recorded under its number. -/
theorem record (hbooks : v.Books n row recorded calls) {outcome : ProviderOutcome}
    {attempt : DeliveryAttempt}
    (hattempt : attempt = attemptRow n row.channel (recorded.length + 1) outcome) :
    (v.record attempt).Books n row (recorded ++ [outcome]) calls where
  stored := hbooks.stored
  attempts := by
    have hnumber : attempt.attemptNumber = recorded.length + 1 := by
      rw [hattempt]
      cases outcome <;> rfl
    have hfree : v.attempts (recorded.length + 1) = none := by
      rw [hbooks.attempts]
      exact attempt_rows_next n row.channel recorded
    show Function.update v.attempts attempt.attemptNumber _ = _
    rw [hnumber, hfree, Option.elim_none, hattempt, hbooks.attempts, attempt_rows_append]
  sends := hbooks.sends

/-- Messages, deliveries and requests are not in the books. -/
theorem of_eq (hbooks : v.Books n row recorded calls) (hrow : next.row = v.row)
    (hattempts : next.attempts = v.attempts) (hsends : next.sends = v.sends) :
    next.Books n row recorded calls where
  stored := hrow.trans hbooks.stored
  attempts := hattempts.trans hbooks.attempts
  sends := hsends.trans hbooks.sends

theorem set_message (hbooks : v.Books n row recorded calls) (i : Nat)
    (message : Option (Place × Int)) : (v.setMessage i message).Books n row recorded calls :=
  hbooks.of_eq rfl rfl rfl

end Books

/-- No retry is lost while every retry has a declared queue. -/
theorem Tracks.refines (htracks : v.Tracks config n phase outcomes)
    (hladder : config.maxRetries ≤ config.retryDelaysMs.length) :
    v.Refines config.maxRetries n phase outcomes := by
  rcases htracks with hrefines | hstranded
  · exact hrefines
  · obtain ⟨hlt, hle⟩ := hstranded.undeclared
    exact absurd (hle.trans hladder) (by omega)

/-- A delivery that has only its ack left leaves. -/
theorem AtRest.leave {slot : Option (Place × Int)} (hrest : v.AtRest n outcomes row slot)
    (hget : v.handlers h = some w) :
    { v.setMessage w.deliveryTag none with
      handlers := Function.update v.handlers h none }.AtRest n outcomes row slot where
  books := hrest.books.of_eq rfl rfl rfl
  count := hrest.count
  quiet := hrest.quiet
  traffic := hrest.traffic.leave hget (by simp)

/-- At most one router call belongs to an attempt that is not over. -/
theorem Progress.calls_cases {pc : HandlerPc} {status : NotificationStatus} {count : Nat}
    (h : Progress maxRetries outcomes pc status count recorded calls) :
    calls = outcomes ∨ ∃ outcome, calls = outcomes ++ [outcome] := by
  cases h with
  | findById | markProcessing | send => exact .inl rfl
  | recordSuccess | markSent | incrementSuccess | incrementFailure | recordRetry | publishRetry
  | recordDead | publishDlq | markDeadLettered => exact .inr ⟨_, rfl⟩

namespace Attempting

/-- The busy delivery goes to its next statement. The other arguments say what the statement does to
the rows, the messages and the requests. -/
theorem advance (hatt : v.Attempting maxRetries n outcomes h w row recorded calls)
    {row' : Notification} {recorded' calls' : List ProviderOutcome} {pc : HandlerPc}
    (hbooks : u.Books n row' recorded' calls') (hchannel : row'.channel = row.channel)
    (hprogress : Progress maxRetries outcomes pc row'.status row'.attemptCount recorded' calls')
    (hquiet : ∀ p, u.publishing p = none) (hhandlers : u.handlers = v.handlers)
    (htraffic : u.Traffic row.channel (parked row.channel (outcomes.length + 1) pc) (some h)
      outcomes.length) :
    (u.advance h w pc).Attempting maxRetries n outcomes h (w.goto pc) row' recorded' calls' where
  handler := Function.update_self _ _ _
  books := hbooks.of_eq rfl rfl rfl
  progress := hprogress
  quiet := hquiet
  traffic := by
    rw [hchannel]
    exact htraffic.advance (hhandlers ▸ hatt.handler) pc

/-- The attempt is over: the busy delivery has only its ack left. -/
theorem finish (hatt : v.Attempting maxRetries n outcomes h w row recorded calls)
    {row' : Notification} {outcome : ProviderOutcome} {slot : Option (Place × Int)}
    (hbooks : u.Books n row' (outcomes ++ [outcome]) (outcomes ++ [outcome]))
    (hchannel : row'.channel = row.channel) (hcount : row'.attemptCount = outcomes.length + 1)
    (hquiet : ∀ p, u.publishing p = none) (hhandlers : u.handlers = v.handlers)
    (htraffic : u.Traffic row.channel slot (some h) outcomes.length) :
    (u.advance h w .ack).AtRest n (outcomes ++ [outcome]) row' slot where
  books := hbooks.of_eq rfl rfl rfl
  count := by simpa using hcount
  quiet := hquiet
  traffic := by
    rw [hchannel, List.length_append, List.length_singleton]
    exact htraffic.release (hhandlers ▸ hatt.handler)

theorem attempt_number (hatt : v.Attempting maxRetries n outcomes h w row recorded calls) :
    w.message.attemptNumber = outcomes.length + 1 :=
  hatt.traffic.current h w hatt.handler rfl

/-- The message of the delivery, its place and its number are those of the attempt. -/
theorem channel_eq (hatt : v.Attempting maxRetries n outcomes h w row recorded calls)
    (hplaced : v.Placed config) : w.channel = row.channel := by
  have hrow := (hplaced.handler h w hatt.handler).1
  simpa [channel, hatt.books.stored] using hrow.symm

/-! ### The statements that end an attempt -/

theorem incremented_success (hatt : v.Attempting maxRetries n outcomes h w row recorded calls)
    (hpc : w.pc = .incrementSuccess) : ∃ outcome,
      after maxRetries (outcomes.length + 1) outcome = .sent (outcomes ++ [outcome]).length ∧
      (v.increment.advance h w .ack).Refines maxRetries n
        (some (.sent (outcomes ++ [outcome]).length)) (outcomes ++ [outcome]) := by
  have hbooks := hatt.books
  have hprogress := hatt.progress
  have htraffic := hatt.traffic
  rw [hpc] at hprogress htraffic
  generalize hstatus : row.status = status at hprogress
  generalize hcount : row.attemptCount = count at hprogress
  cases hprogress with
  | incrementSuccess providerRef =>
      have hrest := hatt.finish hbooks.increment rfl (by simp [hcount]) hatt.quiet rfl
        (htraffic.of_eq rfl rfl)
      refine ⟨.result providerRef, ?_, .sent _ _ hrest hstatus⟩
      rw [List.length_append]
      rfl

/-- The retry is published on the rung of the attempt. -/
theorem published_retry (hatt : v.Attempting maxRetries n outcomes h w row recorded calls)
    (hpc : w.pc = .publishRetry) (hfree : v.messages i = none) : ∃ outcome,
      after maxRetries (outcomes.length + 1) outcome = .waiting (outcomes ++ [outcome]).length ∧
      ((v.setMessage i (some (.queue (Topology.retryQueue row.channel (outcomes.length + 1)),
        outcomes.length + 1 + 1))).advance h w .ack).Refines maxRetries n
          (some (.waiting (outcomes ++ [outcome]).length)) (outcomes ++ [outcome]) := by
  have hbooks := hatt.books
  have hprogress := hatt.progress
  have htraffic := hatt.traffic
  rw [hpc] at hprogress htraffic
  generalize hstatus : row.status = status at hprogress
  generalize hcount : row.attemptCount = count at hprogress
  cases hprogress with
  | publishRetry what hafter =>
      have hover : (outcomes ++ [ProviderOutcome.failure what true]).length = outcomes.length + 1 :=
        List.length_append
      have hput := htraffic.put hfree (Topology.retryQueue row.channel (outcomes.length + 1))
        (outcomes.length + 1 + 1)
      have hrest := hatt.finish (hbooks.set_message _ _) rfl hcount hatt.quiet rfl hput
      refine ⟨.failure what true, hover ▸ hafter, .waiting _ row ?_ hstatus⟩
      rw [hover]
      exact_mod_cast hrest

/-- No queue is bound for the rung, and the broker drops the retry. -/
theorem dropped_retry (hatt : v.Attempting config.maxRetries n outcomes h w row recorded calls)
    (hpc : w.pc = .publishRetry)
    (hundeclared : ¬ (1 ≤ (outcomes.length : Int) + 1 ∧
      (outcomes.length : Int) + 1 ≤ config.retryDelaysMs.length)) : ∃ outcome,
      after config.maxRetries (outcomes.length + 1) outcome =
        .waiting (outcomes ++ [outcome]).length ∧
      (v.advance h w .ack).Stranded config n (some (.waiting (outcomes ++ [outcome]).length))
        (outcomes ++ [outcome]) := by
  have hbooks := hatt.books
  have hprogress := hatt.progress
  have htraffic := hatt.traffic
  rw [hpc] at hprogress htraffic
  generalize hstatus : row.status = status at hprogress
  generalize hcount : row.attemptCount = count at hprogress
  cases hprogress with
  | publishRetry what hafter =>
      have hover : (outcomes ++ [ProviderOutcome.failure what true]).length = outcomes.length + 1 :=
        List.length_append
      have hrest := hatt.finish hbooks rfl hcount hatt.quiet rfl htraffic
      obtain ⟨-, hle⟩ := after_failure_waiting.mp hafter
      refine ⟨.failure what true, hover ▸ hafter, rfl, ⟨row, hrest, hstatus⟩, ?_⟩
      rw [hover]
      push_cast at hle ⊢
      omega

/-- The message is on the dead-letter queue since the statement before. -/
theorem marked_dead_lettered (hatt : v.Attempting maxRetries n outcomes h w row recorded calls)
    (hpc : w.pc = .markDeadLettered) : ∃ outcome,
      after maxRetries (outcomes.length + 1) outcome = .dead (outcomes ++ [outcome]).length ∧
      ((v.setStatus .deadLettered).advance h w .ack).Refines maxRetries n
        (some (.dead (outcomes ++ [outcome]).length)) (outcomes ++ [outcome]) := by
  have hbooks := hatt.books
  have hprogress := hatt.progress
  have htraffic := hatt.traffic
  rw [hpc] at hprogress htraffic
  generalize hstatus : row.status = status at hprogress
  generalize hcount : row.attemptCount = count at hprogress
  cases hprogress with
  | markDeadLettered what isTransient hafter =>
      have hover : (outcomes ++ [ProviderOutcome.failure what isTransient]).length =
          outcomes.length + 1 := List.length_append
      have hrest := hatt.finish (hbooks.set_status .deadLettered) rfl hcount hatt.quiet rfl
        (htraffic.of_eq rfl rfl)
      refine ⟨.failure what isTransient, hover ▸ hafter,
        .dead _ { row with status := .deadLettered } ?_ rfl⟩
      rw [hover]
      exact hrest

/-! ### All statements -/

/-- A statement of the busy delivery handles the attempt further, ends it, or loses its retry. -/
theorem worked_tracks (hatt : v.Attempting config.maxRetries n outcomes h w row recorded calls)
    (hplaced : v.Placed config) (hid : w.notificationId = n) (hworked : v.Worked config h w next) :
    ∃ phase' outcomes', Moves config.maxRetries (some (.handling (outcomes.length + 1)), outcomes)
      (phase', outcomes') ∧ next.Tracks config n phase' outcomes' := by
  have hstays : ∀ {next : View} {w row recorded calls},
      next.Attempting config.maxRetries n outcomes h w row recorded calls →
      ∃ phase' outcomes', Moves config.maxRetries (some (.handling (outcomes.length + 1)), outcomes)
        (phase', outcomes') ∧ next.Tracks config n phase' outcomes' :=
    fun hnext => ⟨_, _, .stays _ _, .inl (.handling _ _ _ _ _ _ hnext)⟩
  have hends : ∀ {next : View} {outcome phase'},
      after config.maxRetries (outcomes.length + 1) outcome = phase' →
      next.Tracks config n (some phase') (outcomes ++ [outcome]) →
      ∃ phase' outcomes', Moves config.maxRetries (some (.handling (outcomes.length + 1)), outcomes)
        (phase', outcomes') ∧ next.Tracks config n phase' outcomes' := by
    intro next outcome phase' hafter hnext
    subst hafter
    exact ⟨_, _, .steps (.finish _ outcome) rfl, hnext⟩
  have hbooks := hatt.books
  have hprogress := hatt.progress
  have htraffic := hatt.traffic
  have hnumber := hatt.attempt_number
  have hchannel := hatt.channel_eq hplaced
  have hretries : ∀ what isTransient,
      (after config.maxRetries (outcomes.length + 1) (.failure what isTransient) =
        .waiting (outcomes.length + 1) ↔ w.retries config isTransient = true) := by
    intro what isTransient
    rw [after_failure_waiting]
    simp [Received.retries, Received.exhausted, hnumber]
  generalize hstatus : row.status = status at hprogress
  generalize hcount : row.attemptCount = count at hprogress
  cases hworked with
  | missed hpc hrow => exact absurd (hrow.symm.trans hbooks.stored) (by simp)
  | skipped row' hpc hrow hskipped =>
      rw [hpc] at hprogress
      obtain rfl := Option.some.inj (hbooks.stored.symm.trans hrow)
      cases hprogress with
      | findById _ hopen => simp [hstatus, hopen] at hskipped
  | found row' hpc hrow hopen =>
      rw [hpc] at hprogress htraffic
      cases hprogress with
      | findById =>
          refine hstays (hatt.advance hbooks rfl ?_ hatt.quiet rfl htraffic)
          rw [hstatus, hcount]
          exact .markProcessing _ _
  | markedProcessing row' hpc =>
      rw [hpc] at hprogress htraffic
      cases hprogress with
      | markProcessing =>
          refine hstays (hatt.advance (hbooks.set_status .processing) rfl ?_ hatt.quiet rfl
            (htraffic.of_eq rfl rfl))
          show Progress _ _ _ .processing row.attemptCount _ _
          rw [hcount]
          exact .send _
  | recordedSuccess providerRef hpc =>
      rw [hpc] at hprogress htraffic
      cases hprogress with
      | recordSuccess =>
          have hattempt := Received.success_attempt_eq hid hchannel hnumber providerRef
          refine hstays (hatt.advance (hbooks.record hattempt) rfl ?_ hatt.quiet rfl
            (htraffic.of_eq rfl rfl))
          rw [hstatus, hcount]
          exact .markSent _
  | markedSent hpc =>
      rw [hpc] at hprogress htraffic
      cases hprogress with
      | markSent =>
          refine hstays (hatt.advance (hbooks.set_status .sent) rfl ?_ hatt.quiet rfl
            (htraffic.of_eq rfl rfl))
          show Progress _ _ _ .sent row.attemptCount _ _
          rw [hcount]
          exact .incrementSuccess _
  | incrementedSuccess hpc =>
      obtain ⟨outcome, hafter, hnext⟩ := hatt.incremented_success hpc
      exact hends hafter (.inl hnext)
  | incrementedRetry what isTransient hpc hretry =>
      rw [hpc] at hprogress htraffic
      cases hprogress with
      | incrementFailure =>
          obtain rfl : isTransient = true := by
            simp only [Received.retries, Bool.and_eq_true] at hretry
            exact hretry.1
          refine hstays
            (hatt.advance hbooks.increment rfl ?_ hatt.quiet rfl (htraffic.of_eq rfl rfl))
          show Progress _ _ _ row.status (row.attemptCount + 1) _ _
          rw [hstatus, hcount]
          exact .recordRetry what ((hretries what true).mpr hretry)
  | incrementedDead what isTransient hpc hretry =>
      rw [hpc] at hprogress htraffic
      cases hprogress with
      | incrementFailure =>
          refine hstays
            (hatt.advance hbooks.increment rfl ?_ hatt.quiet rfl (htraffic.of_eq rfl rfl))
          show Progress _ _ _ row.status (row.attemptCount + 1) _ _
          rw [hstatus, hcount]
          refine .recordDead what isTransient (after_failure_dead.mpr fun hmay => ?_)
          have hyes := (hretries what isTransient).mp (after_failure_waiting.mpr hmay)
          exact absurd (hyes.symm.trans hretry) (by simp)
  | recordedRetry what hpc =>
      rw [hpc] at hprogress htraffic
      cases hprogress with
      | recordRetry _ hafter =>
          have hattempt := Received.failure_attempt_eq hid hchannel hnumber what true
          refine hstays (hatt.advance (hbooks.record hattempt) rfl ?_ hatt.quiet rfl
            (htraffic.of_eq rfl rfl))
          rw [hstatus, hcount]
          exact .publishRetry what hafter
  | recordedDead what isTransient hpc =>
      rw [hpc] at hprogress htraffic
      cases hprogress with
      | recordDead _ _ hafter =>
          have hattempt := Received.failure_attempt_eq hid hchannel hnumber what isTransient
          refine hstays (hatt.advance (hbooks.record hattempt) rfl ?_ hatt.quiet rfl
            (htraffic.of_eq rfl rfl))
          rw [hstatus, hcount]
          exact .publishDlq what isTransient hafter
  | publishedRetry i hpc hfree =>
      obtain ⟨outcome, hafter, hnext⟩ := hatt.published_retry hpc hfree
      rw [hchannel, hnumber]
      exact hends hafter (.inl hnext)
  | droppedRetry hpc hundeclared =>
      rw [hnumber] at hundeclared
      obtain ⟨outcome, hafter, hnext⟩ := hatt.dropped_retry hpc hundeclared
      exact hends hafter (.inr hnext)
  | publishedDlq i hpc hfree =>
      rw [hpc] at hprogress htraffic
      cases hprogress with
      | publishDlq what isTransient hafter =>
          have hput := htraffic.put hfree (Topology.dlq row.channel) (outcomes.length + 1)
          rw [hchannel, hnumber]
          refine hstays (hatt.advance (hbooks.set_message _ _) rfl ?_ hatt.quiet rfl hput)
          rw [hstatus, hcount]
          exact .markDeadLettered what isTransient hafter
  | markedDeadLettered hpc =>
      obtain ⟨outcome, hafter, hnext⟩ := hatt.marked_dead_lettered hpc
      exact hends hafter (.inl hnext)
  | acked hpc | ackedLate hpc =>
      rw [hpc] at hprogress
      cases hprogress

/-- A statement of the busy delivery handles the attempt further or ends it. -/
theorem worked (hatt : v.Attempting config.maxRetries n outcomes h w row recorded calls)
    (hplaced : v.Placed config) (hid : w.notificationId = n)
    (hladder : config.maxRetries ≤ config.retryDelaysMs.length)
    (hworked : v.Worked config h w next) : ∃ phase' outcomes',
      Moves config.maxRetries (some (.handling (outcomes.length + 1)), outcomes)
        (phase', outcomes') ∧ next.Refines config.maxRetries n phase' outcomes' := by
  obtain ⟨phase', outcomes', hmoves, htracks⟩ := hatt.worked_tracks hplaced hid hworked
  exact ⟨phase', outcomes', hmoves, htracks.refines hladder⟩

/-- The router call of the busy delivery ends. -/
theorem sent (hatt : v.Attempting maxRetries n outcomes h w row recorded calls)
    {row' : Notification} (hpc : w.pc = .send row') (outcome : ProviderOutcome) :
    { v.advance h w (Handler.afterSend outcome) with sends := v.sends ++ [outcome] }.Attempting
      maxRetries n outcomes h (w.goto (Handler.afterSend outcome)) row recorded
      (calls ++ [outcome]) where
  handler := Function.update_self _ _ _
  books := by
    refine ⟨hatt.books.stored, hatt.books.attempts, ?_⟩
    show v.sends ++ [outcome] = _
    rw [hatt.books.sends]
  progress := by
    have hprogress := hatt.progress
    rw [hpc] at hprogress
    -- the stage of the progress is fixed by the statement
    generalize row.status = status at hprogress ⊢
    generalize row.attemptCount = count at hprogress ⊢
    cases hprogress with
    | send =>
        cases outcome with
        | result providerRef => exact .recordSuccess providerRef
        | failure what isTransient => exact .incrementFailure what isTransient
  quiet := hatt.quiet
  traffic := by
    have htraffic := hatt.traffic
    rw [hpc] at htraffic
    have hnext := htraffic.advance hatt.handler (Handler.afterSend outcome)
    cases outcome <;> exact hnext.of_eq rfl rfl

end Attempting

namespace Refines

/-- A delivery is at its ack or handles the next attempt. -/
theorem attempting (hrefines : v.Refines maxRetries n phase outcomes) (hget : v.handlers h = some w)
    (hpc : w.pc ≠ .ack) : phase = some (.handling (outcomes.length + 1)) ∧
      ∃ row recorded calls, v.Attempting maxRetries n outcomes h w row recorded calls := by
  -- outside an attempt every delivery is at its ack
  have hidle : ∀ {c slot done}, ¬ v.Traffic c slot none done :=
    fun htraffic => hpc (htraffic.acking h w hget (by simp)).1
  cases hrefines with
  | absent hempty =>
      rw [hempty] at hget
      exact absurd hget (by simp [empty])
  | accepted p saved row hbooks hstatus hcount hp hothers htraffic => exact absurd htraffic hidle
  | queued _ row hrest | waiting _ row hrest | sent _ row hrest | dead _ row hrest =>
      exact absurd hrest.traffic hidle
  | handling _ h' w' row recorded calls hatt =>
      by_cases hh : h = h'
      · subst hh
        obtain rfl := Option.some.inj (hget.symm.trans hatt.handler)
        exact ⟨rfl, row, recorded, calls, hatt⟩
      · refine absurd (hatt.traffic.acking h w hget ?_).1 hpc
        simpa using Ne.symm hh

/-- A delivery acks: its attempt is over, and the phase stays. -/
theorem leave (hrefines : v.Refines maxRetries n phase outcomes) (hget : v.handlers h = some w)
    (hpc : w.pc = .ack) :
    { v.setMessage w.deliveryTag none with
      handlers := Function.update v.handlers h none }.Refines maxRetries n phase outcomes := by
  cases hrefines with
  | absent hempty =>
      rw [hempty] at hget
      exact absurd hget (by simp [empty])
  | accepted p saved row hbooks hstatus hcount hp hothers htraffic =>
      exact .accepted p saved row (hbooks.of_eq rfl rfl rfl) hstatus hcount hp hothers
        (htraffic.leave hget (by simp))
  | queued _ row hrest hstatus => exact .queued _ row (hrest.leave hget) hstatus
  | waiting _ row hrest hstatus => exact .waiting _ row (hrest.leave hget) hstatus
  | sent _ row hrest hstatus => exact .sent _ row (hrest.leave hget) hstatus
  | dead _ row hrest hstatus => exact .dead _ row (hrest.leave hget) hstatus
  | handling _ h' w' row recorded calls hatt =>
      -- the busy delivery is not at its ack, so another one leaves
      have hne : h' ≠ h := by
        rintro rfl
        obtain rfl := Option.some.inj (hget.symm.trans hatt.handler)
        have hprogress := hatt.progress
        rw [hpc] at hprogress
        cases hprogress
      refine .handling _ h' w' row recorded calls ⟨?_, hatt.books.of_eq rfl rfl rfl, hatt.progress,
        hatt.quiet, hatt.traffic.leave hget (by simpa using hne)⟩
      exact (Function.update_of_ne hne _ _).trans hatt.handler

/-- A delivery that is at its ack holds its message. -/
theorem holds (hrefines : v.Refines maxRetries n phase outcomes) (hget : v.handlers h = some w) :
    v.Holds h w := by
  have htraffic : ∃ c slot busy done, v.Traffic c slot busy done := by
    cases hrefines with
    | absent hempty => exact ⟨.email, none, none, 0, hempty ▸ traffic_empty _⟩
    | accepted p saved row hbooks hstatus hcount hp hothers htraffic => exact ⟨_, _, _, _, htraffic⟩
    | queued _ row hrest | waiting _ row hrest | sent _ row hrest | dead _ row hrest =>
        exact ⟨_, _, _, _, hrest.traffic⟩
    | handling _ h' w' row recorded calls hatt => exact ⟨_, _, _, _, hatt.traffic⟩
  obtain ⟨c, slot, busy, done, htraffic⟩ := htraffic
  exact ⟨_, _, htraffic.holds h w hget⟩

/-- A request announces the notification: only an accepted one, for its first attempt. -/
theorem published (hrefines : v.Refines maxRetries n phase outcomes) (hplaced : v.Placed config)
    {p : Nat} {saved : Notification} (hsaved : v.publishing p = some saved)
    (hfree : v.messages i = none) :
    Moves maxRetries (phase, outcomes) (some (.queued 1), []) ∧
      { (v.setMessage i (some (.queue (Topology.mainQueue saved.channel), 1))).setPublishing p none
        with announced := true }.Refines maxRetries n (some (.queued 1)) [] := by
  cases hrefines with
  | absent hempty =>
      rw [hempty] at hsaved
      exact absurd hsaved (by simp [empty])
  | queued _ row hrest | waiting _ row hrest | sent _ row hrest | dead _ row hrest =>
      exact absurd (hsaved.symm.trans (hrest.quiet p)) (by simp)
  | handling _ h' w' row recorded calls hatt =>
      exact absurd (hsaved.symm.trans (hatt.quiet p)) (by simp)
  | accepted q saved' row hbooks hstatus hcount hq hothers htraffic =>
      have hp : p = q := by
        by_contra hne
        exact absurd (hsaved.symm.trans (hothers p hne)) (by simp)
      have hchannel : saved.channel = row.channel := by
        have hrow := hplaced.publishing p saved hsaved
        simpa [channel, hbooks.stored] using hrow.symm
      have hput := htraffic.put hfree (Topology.mainQueue row.channel) 1
      refine ⟨.steps .publish rfl, ?_⟩
      rw [hchannel]
      refine .queued [] row ⟨hbooks.of_eq rfl rfl rfl, hcount, ?_, hput.of_eq rfl rfl⟩ ?_
      · intro p'
        by_cases hp' : p' = p
        · subst hp'
          exact Function.update_self _ _ _
        · exact (Function.update_of_ne hp' _ _).trans (hothers p' (hp ▸ hp'))
      · simp [hstatus, NotificationStatus.skipped]

/-- A worker receives a message: only of a queued notification. -/
theorem delivered (hrefines : v.Refines maxRetries n phase outcomes) {c : Channel}
    (hmessage : v.messages i = some (.queue (Topology.mainQueue c), w.message.attemptNumber))
    (hfree : v.handlers h = none) (htag : w.deliveryTag = i) (hpc : w.pc = .findById) :
    Moves maxRetries (phase, outcomes) (some (.handling (outcomes.length + 1)), outcomes) ∧
      { v.setMessage i (some (.unacked (Topology.mainQueue c) h, w.message.attemptNumber)) with
        handlers := Function.update v.handlers h (some w) }.Refines maxRetries n
          (some (.handling (outcomes.length + 1))) outcomes := by
  cases hrefines with
  | absent hempty =>
      rw [hempty] at hmessage
      exact absurd hmessage (by simp [empty])
  | accepted p saved row hbooks hstatus hcount hp hothers htraffic =>
      exact absurd (htraffic.slot_of_queue hmessage) (by simp)
  | waiting _ row hrest | sent _ row hrest | dead _ row hrest =>
      exact absurd (hrest.traffic.slot_of_queue hmessage) (by simp)
  | handling _ h' w' row recorded calls hatt =>
      have hslot := hatt.traffic.slot_of_queue hmessage
      unfold parked at hslot
      split at hslot <;> simp at hslot
  | queued _ row hrest hstatus =>
      have hslot := hrest.traffic.slot_of_queue hmessage
      simp only [Option.some.injEq, Prod.mk.injEq, Place.queue.injEq, Topology.main_queue_inj]
        at hslot
      obtain ⟨rfl, hnumber⟩ := hslot
      rw [← hnumber] at hmessage
      have hnext := hrest.traffic.deliver hmessage hfree hnumber.symm htag
      refine ⟨.steps (.receive _) (by simp), .handling outcomes h w row outcomes outcomes ?_⟩
      refine ⟨Function.update_self _ _ _, hrest.books.of_eq rfl rfl rfl, ?_, hrest.quiet, ?_⟩
      · rw [hpc, hrest.count]
        exact .findById _ hstatus
      · rw [hpc]
        exact hnext

/-- The time to live of a message passes: only of a waiting notification. -/
theorem expired (hrefines : v.Refines maxRetries n phase outcomes) {c : Channel} {rung k : Int}
    (hmessage : v.messages i = some (.queue (Topology.retryQueue c rung), k))
    (hfree : v.messages j = none) :
    Moves maxRetries (phase, outcomes) (some (.queued (outcomes.length + 1)), outcomes) ∧
      ((v.setMessage i none).setMessage j (some (.queue (Topology.mainQueue c), k))).Refines
        maxRetries n (some (.queued (outcomes.length + 1))) outcomes := by
  cases hrefines with
  | absent hempty =>
      rw [hempty] at hmessage
      exact absurd hmessage (by simp [empty])
  | accepted p saved row hbooks hstatus hcount hp hothers htraffic =>
      exact absurd (htraffic.slot_of_queue hmessage) (by simp)
  | queued _ row hrest | sent _ row hrest | dead _ row hrest =>
      exact absurd (hrest.traffic.slot_of_queue hmessage) (by simp)
  | handling _ h' w' row recorded calls hatt =>
      have hslot := hatt.traffic.slot_of_queue hmessage
      unfold parked at hslot
      split at hslot <;> simp at hslot
  | waiting _ row hrest hstatus =>
      have hslot := hrest.traffic.slot_of_queue hmessage
      simp only [Option.some.injEq, Prod.mk.injEq, Place.queue.injEq, Topology.retry_queue_inj]
        at hslot
      obtain ⟨⟨rfl, rfl⟩, rfl⟩ := hslot
      have hnext := hrest.traffic.expire hmessage hfree (Topology.mainQueue row.channel)
        (outcomes.length + 1)
      refine ⟨.steps (.expire _) (by simp), .queued outcomes row ⟨hrest.books.of_eq rfl rfl rfl,
        hrest.count, hrest.quiet, hnext⟩ ?_⟩
      simp [hstatus, NotificationStatus.skipped]

/-- The simulation: every step of the view of an undisturbed notification with a key of its own
stays in its phase or is a step of the ladder, with or without the message of a retry. -/
theorem step_tracks (hrefines : v.Refines env.config.maxRetries n phase outcomes)
    (hplaced : v.Placed env.config) (hknown : ¬ known) (hcalm : event.disturbs = false)
    (hstep : View.Step env n known v event next) :
    ∃ phase' outcomes', Moves env.config.maxRetries (phase, outcomes) (phase', outcomes') ∧
      next.Tracks env.config n phase' outcomes' := by
  have hmoves : ∀ {phase' outcomes'},
      Moves env.config.maxRetries (phase, outcomes) (phase', outcomes') ∧
      next.Refines env.config.maxRetries n phase' outcomes' →
      ∃ phase' outcomes', Moves env.config.maxRetries (phase, outcomes) (phase', outcomes') ∧
        next.Tracks env.config n phase' outcomes' :=
    fun hnext => ⟨_, _, hnext.1, .inl hnext.2⟩
  cases hstep with
  | unrelated => exact hmoves ⟨.stays _ _, hrefines⟩
  | found p existing hk => exact absurd hk hknown
  | aborted | crashed | requeued => exact absurd hcalm (by simp [Event.disturbs])
  | committed p saved hnone hquiet hid hstatus hcount =>
      cases hrefines with
      | absent hempty =>
          subst hempty
          have hrows : (fun _ => none) = attemptRows n saved.channel [] := by
            funext k
            simp [attemptRows]
          refine hmoves ⟨.created, .accepted p saved saved ⟨rfl, hrows, rfl⟩ hstatus hcount
            (Function.update_self _ _ _) ?_ ((traffic_empty _).of_eq rfl rfl)⟩
          intro q hne
          exact Function.update_of_ne hne _ _
      | accepted _ _ row hbooks => exact absurd (hnone.symm.trans hbooks.stored) (by simp)
      | queued _ row hrest | waiting _ row hrest | sent _ row hrest | dead _ row hrest =>
          exact absurd (hnone.symm.trans hrest.books.stored) (by simp)
      | handling _ h w row recorded calls hatt =>
          exact absurd (hnone.symm.trans hatt.books.stored) (by simp)
  | published p saved i hsaved hfree => exact hmoves (hrefines.published hplaced hsaved hfree)
  | delivered c i h w hmessage hfree hc htag hid hpc =>
      exact hmoves (hrefines.delivered hmessage hfree htag hpc)
  | expired i j c rung k hmessage hfree => exact hmoves (hrefines.expired hmessage hfree)
  | sent h w row outcome hget hid hpc =>
      obtain ⟨rfl, row', recorded, calls, hatt⟩ := hrefines.attempting hget (by simp [hpc])
      exact hmoves ⟨.stays _ _, .handling _ _ _ _ _ _ (hatt.sent hpc outcome)⟩
  | worked h w next hget hid hworked =>
      by_cases hpc : w.pc = .ack
      · have hstays : Moves env.config.maxRetries (phase, outcomes) (phase, outcomes) := .stays _ _
        cases hworked with
        | acked => exact hmoves ⟨hstays, hrefines.leave hget hpc⟩
        | ackedLate _ hlost => exact absurd (hrefines.holds hget) hlost
        | _ => simp_all
      · obtain ⟨rfl, row, recorded, calls, hatt⟩ := hrefines.attempting hget hpc
        exact hatt.worked_tracks hplaced hid hworked

/-- The simulation: every step of the view of an undisturbed notification with a key of its own
stays in its phase or is a step of the ladder. -/
theorem step (hrefines : v.Refines env.config.maxRetries n phase outcomes)
    (hplaced : v.Placed env.config)
    (hladder : env.config.maxRetries ≤ env.config.retryDelaysMs.length)
    (hknown : ¬ known) (hcalm : event.disturbs = false)
    (hstep : View.Step env n known v event next) :
    ∃ phase' outcomes', Moves env.config.maxRetries (phase, outcomes) (phase', outcomes') ∧
      next.Refines env.config.maxRetries n phase' outcomes' := by
  obtain ⟨phase', outcomes', hmoves, htracks⟩ := hrefines.step_tracks hplaced hknown hcalm hstep
  exact ⟨phase', outcomes', hmoves, htracks.refines hladder⟩

end Refines

/-- A delivery at its ack holds its message. -/
theorem AtRest.acked {slot : Option (Place × Int)} (hrest : v.AtRest n outcomes row slot)
    (hget : v.handlers h = some w) : w.pc = .ack ∧ v.Holds h w :=
  ⟨(hrest.traffic.acking h w hget (by simp)).1, _, _, hrest.traffic.holds h w hget⟩

/-- A stranded notification stays so: only the acks of its deliveries are left. -/
theorem Stranded.step (hstranded : v.Stranded env.config n phase outcomes) (hknown : ¬ known)
    (hcalm : event.disturbs = false) (hstep : View.Step env n known v event next) :
    next.Stranded env.config n phase outcomes := by
  obtain ⟨hwaiting, ⟨row, hrest, hstatus⟩, hundeclared⟩ := hstranded
  cases hstep with
  | unrelated => exact ⟨hwaiting, ⟨row, hrest, hstatus⟩, hundeclared⟩
  | found p existing hk => exact absurd hk hknown
  | aborted | crashed | requeued => exact absurd hcalm (by simp [Event.disturbs])
  | committed p saved hnone => exact absurd (hnone.symm.trans hrest.books.stored) (by simp)
  | published p saved i hsaved => exact absurd (hsaved.symm.trans (hrest.quiet p)) (by simp)
  | delivered c i h w hmessage | expired i j c rung k hmessage =>
      exact absurd (hrest.traffic.slot_of_queue hmessage) (by simp)
  | sent h w row' outcome hget hid hpc =>
      exact absurd ((hrest.acked hget).1.symm.trans hpc) (by simp)
  | worked h w next hget hid hworked =>
      obtain ⟨hpc, hholds⟩ := hrest.acked hget
      cases hworked with
      | acked => exact ⟨hwaiting, ⟨row, hrest.leave hget, hstatus⟩, hundeclared⟩
      | ackedLate _ hlost => exact absurd hholds hlost
      | _ => simp_all

/-- The simulation for a ladder with any number of rungs. -/
theorem Tracks.step (htracks : v.Tracks env.config n phase outcomes) (hplaced : v.Placed env.config)
    (hknown : ¬ known) (hcalm : event.disturbs = false)
    (hstep : View.Step env n known v event next) :
    ∃ phase' outcomes', Moves env.config.maxRetries (phase, outcomes) (phase', outcomes') ∧
      next.Tracks env.config n phase' outcomes' := by
  rcases htracks with hrefines | hstranded
  · exact hrefines.step_tracks hplaced hknown hcalm hstep
  · exact ⟨phase, outcomes, .stays _ _, .inr (hstranded.step hknown hcalm hstep)⟩

end View

end NotificationDelivery
