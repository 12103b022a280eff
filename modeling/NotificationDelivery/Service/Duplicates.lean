import NotificationDelivery.Service.BoundedWork
import NotificationDelivery.Service.Idempotency

/-!
# At least once, and how often at most

A delivery may reach the provider again: a request with a known key announces the notification
again, a worker that dies leaves its message to the broker, and a message may be put back while
its delivery runs. These are the only reasons. A message that arrives on a main queue by an
announcement or because it is put back leads to at most one accepted delivery and to at most
`maxRetries + 1` calls of the provider, however the deliveries interleave.
-/

namespace NotificationDelivery

open EventMachine

/-- A count of ended router calls, with the most that a message of attempt `k` can add to it. -/
structure CallBudget (config : Config) where
  count : ProviderOutcome → Nat
  value : Int → Nat
  count_le : ∀ outcome k, count outcome ≤ value k
  retry_le : ∀ what k, k ≤ config.maxRetries → count (.failure what true) + value (k + 1) ≤ value k
  value_le : ∀ k, 1 ≤ k → value k ≤ value 1

/-- A message leads to one accepted delivery. -/
def CallBudget.accepted (config : Config) : CallBudget config where
  count := fun outcome => if outcome.isResult then 1 else 0
  value := fun _ => 1
  count_le := by
    intro outcome k
    split <;> omega
  retry_le := by simp [ProviderOutcome.isResult]
  value_le := by simp

/-- Each attempt that is left calls the provider once. -/
def CallBudget.ended (config : Config) : CallBudget config where
  count := fun _ => 1
  value := fun k => config.retriesAfter k + 1
  count_le := by simp
  retry_le := by
    intro what k hk
    unfold Config.retriesAfter
    omega
  value_le := by
    intro k hk
    unfold Config.retriesAfter
    omega

section Amounts

variable {n : String} {amount : Handler → Nat} {w : Handler} {pc : HandlerPc}

/-- An amount of the deliveries of the notification `n`: other deliveries have none. -/
def Handler.amountFor (n : String) (amount : Handler → Nat) (w : Handler) : Nat :=
  if w.notificationId = n then amount w else 0

theorem Handler.amount_for_eq_zero (h : amount w = 0) : w.amountFor n amount = 0 := by
  unfold amountFor
  split
  · exact h
  · rfl

/-- A delivery moves on and has no more than before. -/
theorem Handler.amount_for_goto_le (h : amount (w.goto pc) ≤ amount w) :
    (w.goto pc).amountFor n amount ≤ w.amountFor n amount := by
  unfold amountFor
  rw [goto_to_received]
  split
  · exact h
  · exact Nat.le_refl _

end Amounts

section Worth

variable {config : Config} (budget : CallBudget config) (n : String)

/-- What a delivery of the envelope can add for the notification `n`. -/
def Envelope.worth (envelope : Envelope) : Nat :=
  match MessageBody.fromJson envelope.body with
  | .ok body => if body.notificationId = n then budget.value body.attemptNumber else 0
  | .error _ => 0

/-- What a message can add. An unacked message adds nothing unless it is put back, and no worker
reads a dead-letter queue. -/
def Message.worth (m : Message) : Nat :=
  match m.place with
  | .unacked _ _ => 0
  | .queue name =>
    if name ∈ Topology.channels.map Topology.dlq then 0 else m.envelope.worth budget n

/-- What a delivery can still add, by itself or through the retry that it publishes. -/
def Handler.left (w : Handler) : Nat :=
  match w.pc with
  | .findById | .markProcessing _ | .send _ => budget.value w.message.attemptNumber
  | .incrementFailure _ isTransient =>
      if w.retries config isTransient then budget.value (w.message.attemptNumber + 1) else 0
  | .recordRetry _ | .publishRetry => budget.value (w.message.attemptNumber + 1)
  | .recordSuccess _ | .markSent | .incrementSuccess | .recordDead _ _ | .publishDlq
  | .markDeadLettered | .ack => 0

/-- What a delivery can add for the notification `n`. -/
def Handler.worth : Handler → Nat := Handler.amountFor n (Handler.left budget)

variable {budget n} {envelope : Envelope} {body : MessageBody} {c : Channel} {k : Int}

theorem Envelope.worth_of_body (h : MessageBody.fromJson envelope.body = .ok body) :
    envelope.worth budget n =
      if body.notificationId = n then budget.value body.attemptNumber else 0 := by
  simp only [worth, h]

/-- The worth of a message of the service is that of its body. -/
@[simp] theorem Envelope.worth_to_json (body : MessageBody) (priority : UInt8) :
    Envelope.worth budget n { body := body.toJson, priority } =
      if body.notificationId = n then budget.value body.attemptNumber else 0 :=
  worth_of_body (MessageBody.from_json_to_json body)

@[simp] theorem Message.worth_unacked (name : String) (consumer : Nat) :
    Message.worth budget n ⟨.unacked name consumer, envelope⟩ = 0 := rfl

@[simp] theorem Message.worth_main :
    Message.worth budget n ⟨.queue (Topology.mainQueue c), envelope⟩ =
      envelope.worth budget n := by
  simp [worth]

/-- A copy on a dead-letter queue is worth nothing. -/
@[simp] theorem Message.worth_dlq :
    Message.worth budget n ⟨.queue (Topology.dlq c), envelope⟩ = 0 := by
  simp [worth]

@[simp] theorem Message.worth_retry :
    Message.worth budget n ⟨.queue (Topology.retryQueue c k), envelope⟩ =
      envelope.worth budget n := by
  simp [worth]

variable (budget) (n) in
/-- An ended router call pays for what it adds to the count. -/
theorem Handler.sent_worth (w : Handler) (outcome : ProviderOutcome) {row : Notification}
    (hpc : w.pc = .send row) :
    (if w.notificationId = n then budget.count outcome else 0) +
      (w.goto (afterSend outcome)).worth budget n ≤ w.worth budget n := by
  unfold worth amountFor
  rw [goto_to_received]
  split
  · cases outcome with
    | result providerRef =>
        have hcount := budget.count_le (.result providerRef) w.message.attemptNumber
        simpa [left, afterSend, hpc] using hcount
    | failure what isTransient =>
        by_cases hretries : w.retries config isTransient = true
        · have hlimit := hretries
          simp only [Received.retries, Received.exhausted, Bool.and_eq_true, Bool.not_eq_true',
            decide_eq_false_iff_not] at hlimit
          obtain rfl := hlimit.1
          have hretry := budget.retry_le what w.message.attemptNumber (by omega)
          simpa [left, afterSend, hpc, hretries] using hretry
        · have hcount := budget.count_le (.failure what isTransient) w.message.attemptNumber
          simpa [left, afterSend, hpc, hretries] using hcount
  · exact Nat.le_refl _

theorem Broker.weigh_worth_ack (b : Broker) (consumer i : Nat) :
    (b.ack consumer i).weigh (Message.worth budget n) = b.weigh (Message.worth budget n) := by
  rcases b.ack_cases consumer i with ⟨name, envelope, hget, hack⟩ | ⟨_, hack⟩ <;> rw [hack]
  have hset := Registry.weigh_set (Message.worth budget n) none hget
  simpa using hset

variable (budget) (n) in
/-- A retry passes on what the delivery has left. -/
theorem Handler.weigh_worth_retry (w : Handler) (b : Broker) :
    (b.publish (.declareAll config) "" (Topology.retryQueue w.channel w.message.attemptNumber)
      { body := w.retryBody.toJson, priority := w.message.priority }).weigh
        (Message.worth budget n) ≤ b.weigh (Message.worth budget n) +
          if w.notificationId = n then budget.value (w.message.attemptNumber + 1) else 0 := by
  rw [Broker.publish_retry]
  split
  · rw [Broker.enqueue, Registry.weigh_insert, Message.worth_retry, Envelope.worth_to_json]
    exact Nat.le_refl _
  · exact Nat.le_add_right _ _

end Worth

namespace System

variable {env : Env} {config : Config} {budget : CallBudget config} {s t : System} {event : Event}
  {n : String}

/-- A message about the notification arrives on a main queue: a request announces it, or the broker
puts it back. -/
def arrives (n : String) (s : System) : Event → Bool
  | .post p => ((s.posts.get p).bind (Post.publishing n)).isSome
  | .requeue i => (s.broker.about n i).isSome
  | _ => false

/-- The ended router calls for the notification, by the count of the budget. -/
def counted (budget : CallBudget config) (n : String) (s : System) : Nat :=
  ((s.sends.filter fun call => call.1 = n).map fun call => budget.count call.2).sum

/-- What has been counted, and what the messages and the deliveries can still add. -/
def worth (budget : CallBudget config) (n : String) (s : System) : Nat :=
  s.counted budget n + s.broker.weigh (Message.worth budget n) +
    s.handlers.weigh (Handler.worth budget n)

/-- The router calls for the notification that have ended. -/
def endedCalls (s : System) (n : String) : Nat := (s.sends.filter fun call => call.1 = n).length

theorem counted_accepted (s : System) (n : String) :
    s.counted (.accepted config) n = s.successes n := by
  have hcount : ∀ calls : List (String × ProviderOutcome),
      ((calls.filter fun call => call.1 = n).map fun call =>
        if call.2.isResult then 1 else 0).sum =
          (calls.filter fun call => call.1 = n ∧ call.2.isResult).length := by
    intro calls
    induction calls with
    | nil => rfl
    | cons call rest ih =>
        by_cases hn : call.1 = n
        · cases hresult : call.2.isResult <;> simp_all [Nat.add_comm]
        · simp_all
  exact hcount s.sends

theorem counted_ended (s : System) (n : String) :
    s.counted (.ended config) n = s.endedCalls n := by
  simp [counted, CallBudget.ended, endedCalls]

variable (budget) (n) in
/-- A statement of a delivery adds nothing. -/
theorem worked_worth {db next : Database} {broker broker' : Broker} {h : Nat} {w : Handler}
    {pc : Option HandlerPc} (hworked : w.Worked config db broker h next broker' pc) :
    broker'.weigh (Message.worth budget n) +
        ((pc.map w.goto).map (Handler.worth budget n)).getD 0 ≤
      broker.weigh (Message.worth budget n) + w.worth budget n := by
  cases hworked with
  | missed hpc | skipped _ hpc | found _ hpc | markedProcessing _ hpc | recordedSuccess _ hpc
  | markedSent hpc | incrementedSuccess hpc | incrementedDead _ _ hpc | recordedRetry _ hpc
  | recordedDead _ _ hpc | markedDeadLettered hpc =>
      refine Nat.add_le_add_left (Handler.amount_for_goto_le ?_) _
      simp [Handler.left, hpc]
  | incrementedRetry _ _ hpc hretries =>
      exact Nat.add_le_add_left
        (Handler.amount_for_goto_le (by simp [Handler.left, hpc, hretries])) _
  | publishedRetry hpc =>
      have hweigh := w.weigh_worth_retry budget n broker
      have hdone : (w.goto .ack).worth budget n = 0 := Handler.amount_for_eq_zero rfl
      have hbefore : w.worth budget n =
          if w.notificationId = n then budget.value (w.message.attemptNumber + 1) else 0 := by
        simp only [Handler.worth, Handler.amountFor, Handler.left, hpc]
      simp only [Option.map_some, Option.getD_some, hdone, hbefore]
      omega
  | publishedDlq hpc =>
      rw [Broker.publish_dlq, Broker.enqueue, Registry.weigh_insert, Message.worth_dlq]
      exact Nat.add_le_add_left (Handler.amount_for_goto_le (by simp [Handler.left])) _
  | acked hpc =>
      rw [Broker.weigh_worth_ack]
      simp only [Option.map_none, Option.getD_none]
      omega

/-- A message that is put back is for a main queue and not about an attempt before the first. -/
theorem requeue_worth_le (budget : CallBudget env.config) (n : String)
    (hreach : Reaches (System.step env) (fun _ _ => True) initial s) {i : Nat} {name : String}
    {consumer : Nat} {envelope : Envelope}
    (hget : s.broker.get i = some ⟨.unacked name consumer, envelope⟩) :
    Message.worth budget n ⟨.queue name, envelope⟩ ≤
      if s.arrives n (.requeue i) then budget.value 1 else 0 := by
  obtain ⟨body, hbody⟩ := exists_body hreach hget
  have hmessage := view_message_of_body hget hbody
  obtain ⟨hone, c, -, hproper⟩ :=
    (reachable_placed hreach body.notificationId).message i _ _ hmessage
  cases hproper with
  | unacked =>
      rw [Message.worth_main, Envelope.worth_of_body hbody]
      by_cases hn : body.notificationId = n
      · subst hn
        have harrives : s.arrives body.notificationId (.requeue i) = true :=
          Option.isSome_iff_exists.mpr ⟨_, hmessage⟩
        rw [if_pos rfl, if_pos harrives]
        exact budget.value_le _ hone
      · rw [if_neg hn]
        exact Nat.zero_le _

/-- The step lemma: only an arrival adds something, and at most what a first attempt can add. -/
theorem step_worth (budget : CallBudget env.config) (n : String)
    (hreach : Reaches (System.step env) (fun _ _ => True) initial s)
    (hstep : s.step env event = some t) :
    t.worth budget n ≤ s.worth budget n + if s.arrives n event then budget.value 1 else 0 := by
  unfold worth
  cases step_cases hstep with
  | requested => exact Nat.le_refl _
  | posted p post db broker pc hget hworked =>
      cases hworked with
      | published saved hpc =>
          have harrives : s.arrives n (.post p) = decide (saved.id = n) := by
            simp only [arrives, hget, Option.bind_some, Post.publishing, hpc]
            split <;> simp_all
          show s.counted budget n + (s.broker.announce env.config saved).weigh _ + _ ≤ _
          rw [Broker.announce_eq, Broker.enqueue, Registry.weigh_insert, Message.worth_main,
            Envelope.worth_to_json, harrives]
          have hbody : saved.announcement.notificationId = saved.id := rfl
          have hfirst : saved.announcement.attemptNumber = 1 := rfl
          rw [hbody, hfirst]
          simp only [decide_eq_true_eq]
          omega
      | _ => exact Nat.le_add_right _ _
  | aborted p post hget => exact Nat.le_refl _
  | delivered c i m w hget hplace hchannel htag hbody hpc =>
      obtain ⟨place, envelope⟩ := m
      obtain rfl : place = _ := hplace
      have hread : MessageBody.fromJson envelope.body = .ok w.message := hbody ▸ w.decoded
      have hset := Registry.weigh_set (Message.worth budget n)
        (some ⟨.unacked (Topology.mainQueue c) s.handlers.next, envelope⟩) hget
      have hhandler : w.worth budget n = envelope.worth budget n := by
        rw [Envelope.worth_of_body hread]
        simp only [Handler.worth, Handler.amountFor, Handler.left, hpc]
        rfl
      simp only [Option.map_some, Option.getD_some, Message.worth_unacked,
        Message.worth_main] at hset
      show s.counted budget n + (s.broker.set i (some
        ⟨.unacked (Topology.mainQueue c) s.handlers.next, envelope⟩)).weigh _ +
          (s.handlers.insert w).weigh _ ≤ _
      rw [Registry.weigh_insert, hhandler]
      omega
  | dropped c i m e hget hbody =>
      have hset := Registry.weigh_set (Message.worth budget n) none hget
      simp only [Option.map_none, Option.getD_none] at hset
      show s.counted budget n + (s.broker.set i none).weigh _ + s.handlers.weigh _ ≤ _
      omega
  | worked h w db broker pc hget hworked =>
      have hadds := worked_worth budget n hworked
      have hset := Registry.weigh_set (Handler.worth budget n) (pc.map w.goto) hget
      show s.counted budget n + broker.weigh _ + (s.handlers.set h _).weigh _ ≤ _
      omega
  | sent h w row outcome hget hpc =>
      have hset := Registry.weigh_set (Handler.worth budget n)
        (some (w.goto (Handler.afterSend outcome))) hget
      have hcounted : ({ s with sends := s.sends ++ [(w.notificationId, outcome)] } :
          System).counted budget n = s.counted budget n +
            if w.notificationId = n then budget.count outcome else 0 := by
        by_cases hn : w.notificationId = n <;> simp [counted, hn]
      have hpays := w.sent_worth budget n outcome hpc
      simp only [Option.map_some, Option.getD_some] at hset
      show ({ s with sends := s.sends ++ [(w.notificationId, outcome)] } :
        System).counted budget n + s.broker.weigh _ + (s.handlers.set h _).weigh _ ≤ _
      omega
  | crashed h w hget =>
      have hset := Registry.weigh_set (Handler.worth budget n) none hget
      simp only [Option.map_none, Option.getD_none] at hset
      show s.counted budget n + s.broker.weigh _ + (s.handlers.set h _).weigh _ ≤ _
      omega
  | expired i broker hexpire =>
      obtain ⟨c, k, envelope, hget, rfl⟩ := Broker.expire_cases hexpire
      have hset := Registry.weigh_set (Message.worth budget n) none hget
      simp only [Option.map_none, Option.getD_none, Message.worth_retry] at hset
      show s.counted budget n + (Broker.enqueue (s.broker.set i none) _ _).weigh _ +
        s.handlers.weigh _ ≤ _
      rw [Broker.enqueue, Registry.weigh_insert, Message.worth_main]
      omega
  | requeued i broker hrequeue =>
      obtain ⟨name, consumer, envelope, hget, rfl⟩ := Broker.requeue_cases hrequeue
      have hset := Registry.weigh_set (Message.worth budget n)
        (some ⟨.queue name, envelope⟩) hget
      have hput := requeue_worth_le budget n hreach hget
      simp only [Option.map_some, Option.getD_some, Message.worth_unacked] at hset
      show s.counted budget n + (s.broker.set i _).weigh _ + s.handlers.weigh _ ≤ _
      omega

/-- The run lemma: what a run counts is paid for by the arrivals. -/
theorem run_counted (budget : CallBudget env.config) (n : String) {events : List Event}
    (hrun : run (System.step env) initial events = some s) :
    s.counted budget n ≤
      budget.value 1 * occurrences (System.step env) (arrives n) initial events := by
  let reachable (u : System) : Prop := Reaches (System.step env) (fun _ _ => True) initial u
  have hkeep : ∀ u event t, reachable u → System.step env u event = some t → reachable t :=
    fun _ _ _ => reaches_step
  have hworth := run_occurrences (worth budget n) (arrives n) (budget.value 1) hkeep
    (fun _ _ _ => step_worth budget n) hrun (.refl _)
  have hempty : initial.worth budget n = 0 := rfl
  rw [hempty, Nat.zero_add] at hworth
  unfold worth at hworth
  omega

/-- Any number of requests, any interleaving of deliveries, and deliveries that die or whose
messages are put back at any statement: the provider accepts a notification at most once for each
arrival of a message about it, and at most `maxRetries + 1` router calls for it end for each
arrival. -/
theorem duplicates_bounded (env : Env) (events : List Event) (s : System)
    (hrun : run (System.step env) initial events = some s) (n : String) :
    s.successes n ≤ occurrences (System.step env) (arrives n) initial events ∧
      s.endedCalls n ≤ (env.config.maxRetries.toNat + 1) *
        occurrences (System.step env) (arrives n) initial events := by
  constructor
  · have haccepted := run_counted (.accepted env.config) n hrun
    rw [counted_accepted] at haccepted
    have hone : (CallBudget.accepted env.config).value 1 = 1 := rfl
    rwa [hone, Nat.one_mul] at haccepted
  · have hended := run_counted (.ended env.config) n hrun
    rw [counted_ended] at hended
    have hfirst : (CallBudget.ended env.config).value 1 = env.config.maxRetries.toNat + 1 := by
      show (env.config.maxRetries + 1 - 1).toNat + 1 = _
      rw [Int.add_sub_cancel]
    rwa [hfirst] at hended

/-- A delivery dies after the provider has accepted, and the next one delivers again. -/
def acceptedTwice : List Event :=
  (submission sample "id").append [.deliver .email 0, .work 0, .work 0, .send 0 (.result "ref"),
    .crash 0, .requeue 0, .deliver .email 0, .work 1, .work 1, .send 1 (.result "ref")]

/-- One announcement and one message that is put back: the provider accepts twice, as often as the
bound allows. -/
theorem duplicates_bounded_accepted_twice :
    ∃ s, run (System.step shipped) initial acceptedTwice = some s ∧ s.successes "id" = 2 ∧
      s.successes "id" ≤ 2 ∧ s.endedCalls "id" ≤ 4 * 2 := by
  have hlast : (run (System.step shipped) initial acceptedTwice).map (fun s =>
      s.successes "id") = some 2 := by decide +kernel
  have harrivals : occurrences (System.step shipped) (arrives "id") initial acceptedTwice = 2 := by
    decide +kernel
  obtain ⟨s, hrun, hs⟩ := Option.map_eq_some_iff.mp hlast
  have hbound := duplicates_bounded shipped acceptedTwice s hrun "id"
  rw [harrivals] at hbound
  exact ⟨s, hrun, hs, hbound⟩

end System

end NotificationDelivery
