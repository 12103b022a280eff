import NotificationDelivery.Library.Potential
import NotificationDelivery.Service.MessageContents
import NotificationDelivery.Service.NoLoss

/-!
# The work that a request causes

Nothing in the service runs for ever by itself. `System.stepsLeft` bounds the steps that the
open requests, the messages and the deliveries can still cause: a message of attempt `k` causes
at most nine steps and then one message of attempt `k + 1`, and there are at most `maxRetries`
retries. Only a new request and a message that the broker puts back add to it, so the work of a
whole run is bounded by their numbers, and a service that is left alone comes to rest. At rest
every announced notification is settled.
-/

namespace NotificationDelivery

open EventMachine

/-- The retries that may still follow attempt `k`. -/
def Config.retriesAfter (config : Config) (k : Int) : Nat := (config.maxRetries + 1 - k).toNat

/-- The steps that a message of attempt `k` on a main queue can cause: each attempt takes one
delivery, at most seven statements and one expiry or publish. -/
def Config.deliverySteps (config : Config) (k : Int) : Nat := 9 * (config.retriesAfter k + 1)

/-- A retry within the limit uses up one of the retries that are left. -/
theorem Config.delivery_steps_succ (config : Config) {k : Int} (h : k ≤ config.maxRetries) :
    config.deliverySteps k = config.deliverySteps (k + 1) + 9 := by
  unfold deliverySteps retriesAfter
  omega

/-- The first attempt can cause the most. -/
theorem Config.delivery_steps_le {config : Config} {k : Int} (h : 1 ≤ k) :
    config.deliverySteps k ≤ config.deliverySteps 1 := by
  unfold deliverySteps retriesAfter
  omega

theorem Config.nine_le_delivery_steps (config : Config) (k : Int) :
    9 ≤ config.deliverySteps k := by
  unfold deliverySteps
  omega

/-- The steps that a delivery of the envelope can cause. -/
def Envelope.steps (config : Config) (envelope : Envelope) : Nat :=
  match MessageBody.fromJson envelope.body with
  | .ok body => config.deliverySteps body.attemptNumber
  | .error _ => 1

/-- The steps that a message can cause where it is. A message on a rung of the ladder expires first;
no worker reads a dead-letter queue. -/
def Message.steps (config : Config) (m : Message) : Nat :=
  match m.place with
  | .unacked _ _ => 0
  | .queue name =>
      if name ∈ Topology.channels.map Topology.dlq then 0
      else if name ∈ Topology.channels.map Topology.mainQueue then m.envelope.steps config
      else m.envelope.steps config + 1

/-- The steps that a delivery can still take or cause. -/
def Handler.steps (config : Config) (w : Handler) : Nat :=
  let k := w.message.attemptNumber
  match w.pc with
  | .findById => config.deliverySteps k - 1
  | .markProcessing _ => config.deliverySteps k - 2
  | .send _ => config.deliverySteps k - 3
  | .recordSuccess _ => 4
  | .markSent => 3
  | .incrementSuccess => 2
  | .incrementFailure _ _ => config.deliverySteps k - 4
  | .recordRetry _ => config.deliverySteps (k + 1) + 4
  | .publishRetry => config.deliverySteps (k + 1) + 3
  | .recordDead _ _ => 4
  | .publishDlq => 3
  | .markDeadLettered => 2
  | .ack => 1

/-- The steps that a request can still take or cause. -/
def Post.steps (config : Config) (post : Post) : Nat :=
  match post.pc with
  | .findByIdempotencyKey => config.deliverySteps 1 + 6
  | .startTransaction => config.deliverySteps 1 + 5
  | .insertNotification => config.deliverySteps 1 + 4
  | .insertOutbox => config.deliverySteps 1 + 3
  | .commit => config.deliverySteps 1 + 2
  | .publish _ => config.deliverySteps 1 + 1
  | .done => 0

/-- The steps that the service can still take. -/
def System.stepsLeft (config : Config) (s : System) : Nat :=
  s.posts.weigh (Post.steps config) + s.broker.weigh (Message.steps config) +
    s.handlers.weigh (Handler.steps config)

/-- The event is a step that the service takes by itself, or the death of a delivery. -/
def Event.spends : Event → Bool
  | .request _ _ | .abort _ | .requeue _ => false
  | _ => true

def Event.isRequest : Event → Bool
  | .request _ _ => true
  | _ => false

def Event.isRequeue : Event → Bool
  | .requeue _ => true
  | _ => false

/-- What an event brings: a request all that its notification can cause, and a message that is put
back what its delivery can cause. -/
def Event.credit (config : Config) : Event → Nat
  | .request _ _ => config.deliverySteps 1 + 6
  | .requeue _ => config.deliverySteps 1
  | _ => 0

section Weights

variable {config : Config} {envelope : Envelope} {body : MessageBody} {c : Channel} {k : Int}

theorem Envelope.steps_of_body (config : Config)
    (h : MessageBody.fromJson envelope.body = .ok body) :
    envelope.steps config = config.deliverySteps body.attemptNumber := by
  simp only [steps, h]

/-- What the service puts on a queue can be read. -/
theorem Envelope.steps_to_json (config : Config) (body : MessageBody) (priority : UInt8) :
    Envelope.steps config { body := body.toJson, priority } =
      config.deliverySteps body.attemptNumber :=
  steps_of_body config (MessageBody.from_json_to_json body)

@[simp] theorem Message.steps_unacked (name : String) (consumer : Nat) :
    Message.steps config ⟨.unacked name consumer, envelope⟩ = 0 := rfl

@[simp] theorem Message.steps_main :
    Message.steps config ⟨.queue (Topology.mainQueue c), envelope⟩ = envelope.steps config := by
  simp [steps]

@[simp] theorem Message.steps_dlq :
    Message.steps config ⟨.queue (Topology.dlq c), envelope⟩ = 0 := by
  simp [steps]

@[simp] theorem Message.steps_retry :
    Message.steps config ⟨.queue (Topology.retryQueue c k), envelope⟩ =
      envelope.steps config + 1 := by
  simp [steps]

/-- A delivery that has not acked has a step left. -/
theorem Handler.one_le_steps (config : Config) (w : Handler) : 1 ≤ w.steps config := by
  have hnine := config.nine_le_delivery_steps w.message.attemptNumber
  unfold steps
  cases w.pc <;> simp only <;> omega

end Weights

namespace Broker

variable {config : Config} {b : Broker} {envelope : Envelope} {m : Message} {i : Nat}

theorem weigh_enqueue (name : String) :
    (b.enqueue name envelope).weigh (Message.steps config) =
      b.weigh (Message.steps config) + Message.steps config ⟨.queue name, envelope⟩ :=
  Registry.weigh_insert

/-- An ack causes nothing. -/
theorem weigh_ack (consumer : Nat) :
    (b.ack consumer i).weigh (Message.steps config) = b.weigh (Message.steps config) := by
  rcases b.ack_cases consumer i with ⟨name, envelope, hget, hack⟩ | ⟨_, hack⟩ <;> rw [hack]
  have hset := Registry.weigh_set (Message.steps config) none hget
  simpa using hset

/-- A retry causes its expiry and what its delivery causes, or nothing if no rung is declared. -/
theorem weigh_publish_retry (config : Config) (b : Broker) (c : Channel) (k : Int)
    (envelope : Envelope) :
    (publish (.declareAll config) b "" (Topology.retryQueue c k) envelope).weigh
      (Message.steps config) ≤ b.weigh (Message.steps config) + envelope.steps config + 1 := by
  rw [publish_retry]
  split
  · rw [weigh_enqueue, Message.steps_retry]
    omega
  · omega

end Broker

namespace System

variable {env : Env} {s t : System} {event : Event}

/-- A statement of a delivery pays for itself. -/
theorem worked_pays {config : Config} {db next : Database} {broker broker' : Broker} {h : Nat}
    {w : Handler} {pc : Option HandlerPc}
    (hworked : w.Worked config db broker h next broker' pc) :
    broker'.weigh (Message.steps config) + ((pc.map w.goto).map (Handler.steps config)).getD 0 +
      1 ≤ broker.weigh (Message.steps config) + w.steps config := by
  have hnine := config.nine_le_delivery_steps w.message.attemptNumber
  cases hworked with
  | missed hpc | skipped _ hpc | found _ hpc | markedProcessing _ hpc | recordedSuccess _ hpc
  | markedSent hpc | incrementedSuccess hpc | incrementedDead _ _ hpc | recordedRetry _ hpc
  | recordedDead _ _ hpc | markedDeadLettered hpc =>
      simp only [Option.map_some, Option.getD_some, Handler.steps, hpc, Handler.goto_pc,
        Handler.goto_to_received]
      omega
  | incrementedRetry _ _ hpc hretries =>
      simp only [Received.retries, Received.exhausted, Bool.and_eq_true, Bool.not_eq_true',
        decide_eq_false_iff_not] at hretries
      have hsucc := config.delivery_steps_succ (k := w.message.attemptNumber) (by omega)
      simp only [Option.map_some, Option.getD_some, Handler.steps, hpc, Handler.goto_pc,
        Handler.goto_to_received]
      omega
  | publishedRetry hpc =>
      have hbody : Envelope.steps config
          { body := w.retryBody.toJson, priority := w.message.priority } =
            config.deliverySteps (w.message.attemptNumber + 1) :=
        Envelope.steps_to_json config w.retryBody _
      have hweigh := Broker.weigh_publish_retry config broker w.channel w.message.attemptNumber
        { body := w.retryBody.toJson, priority := w.message.priority }
      simp only [Option.map_some, Option.getD_some, Handler.steps, hpc, Handler.goto_pc]
      omega
  | publishedDlq hpc =>
      rw [Broker.publish_dlq, Broker.weigh_enqueue, Message.steps_dlq]
      simp only [Option.map_some, Option.getD_some, Handler.steps, hpc, Handler.goto_pc]
      omega
  | acked hpc =>
      rw [Broker.weigh_ack]
      simp only [Option.map_none, Option.getD_none, Handler.steps, hpc]
      omega

/-- A statement of a request pays for itself. -/
theorem posted_pays {config : Config} {collate : String → String} {db next : Database}
    {broker broker' : Broker} {locked : Bool} {post : Post} {pc : PostPc}
    (hworked : post.Worked config collate db broker locked next broker' pc) :
    broker'.weigh (Message.steps config) + Post.steps config { post with pc } + 1 ≤
      broker.weigh (Message.steps config) + post.steps config := by
  cases hworked with
  | known _ hpc | unknown hpc | started hpc | duplicate hpc | inserted hpc | outboxInserted hpc
  | committed hpc =>
      simp only [Post.steps, hpc]
      omega
  | published saved hpc =>
      have hbody : Envelope.steps config
          { body := saved.announcement.toJson, priority := saved.priority.weight } =
            config.deliverySteps 1 :=
        Envelope.steps_to_json config saved.announcement _
      rw [Broker.announce_eq, Broker.weigh_enqueue, Message.steps_main, hbody]
      simp only [Post.steps, hpc]
      omega

/-- A message that is put back can be read, is for a main queue, and is not about an attempt before
the first. -/
theorem requeue_steps_le (hreach : Reaches (System.step env) (fun _ _ => True) initial s)
    {i : Nat} {name : String} {consumer : Nat} {envelope : Envelope}
    (hget : s.broker.get i = some ⟨.unacked name consumer, envelope⟩) :
    Message.steps env.config ⟨.queue name, envelope⟩ ≤ env.config.deliverySteps 1 := by
  obtain ⟨body, hbody⟩ := exists_body hreach hget
  have hmessage := view_message_of_body hget hbody
  obtain ⟨hone, c, -, hproper⟩ :=
    (reachable_placed hreach body.notificationId).message i _ _ hmessage
  cases hproper with
  | unacked =>
      rw [Message.steps_main, Envelope.steps_of_body env.config hbody]
      exact Config.delivery_steps_le hone

/-- The step lemma: what the service does by itself is paid for by the steps that were left. -/
theorem step_pays (hreach : Reaches (System.step env) (fun _ _ => True) initial s)
    (hstep : s.step env event = some t) :
    t.stepsLeft env.config + (if event.spends then 1 else 0) ≤
      s.stepsLeft env.config + event.credit env.config := by
  unfold stepsLeft
  cases step_cases hstep with
  | requested input uuid =>
      have hsteps : Post.steps env.config { input, uuid, pc := .findByIdempotencyKey } =
          env.config.deliverySteps 1 + 6 := rfl
      show (s.posts.insert _).weigh _ + s.broker.weigh _ + s.handlers.weigh _ + 0 ≤
        _ + (env.config.deliverySteps 1 + 6)
      rw [Registry.weigh_insert, hsteps]
      omega
  | posted p post db broker pc hget hworked =>
      have hpays := posted_pays hworked
      have hset := Registry.weigh_set (Post.steps env.config) (some { post with pc }) hget
      simp only [Option.map_some, Option.getD_some] at hset
      show (s.posts.set p _).weigh _ + broker.weigh _ + s.handlers.weigh _ + 1 ≤ _ + 0
      omega
  | aborted p post hget =>
      have hset := Registry.weigh_set (Post.steps env.config) (some { post with pc := .done })
        hget
      have hdone : Post.steps env.config { post with pc := .done } = 0 := rfl
      simp only [Option.map_some, Option.getD_some, hdone] at hset
      show (s.posts.set p _).weigh _ + s.broker.weigh _ + s.handlers.weigh _ + 0 ≤ _ + 0
      omega
  | delivered c i m w hget hplace hchannel htag hbody hpc =>
      obtain ⟨place, envelope⟩ := m
      obtain rfl : place = _ := hplace
      have hread : MessageBody.fromJson envelope.body = .ok w.message := hbody ▸ w.decoded
      have hsteps := Envelope.steps_of_body env.config hread
      have hset := Registry.weigh_set (Message.steps env.config)
        (some ⟨.unacked (Topology.mainQueue c) s.handlers.next, envelope⟩) hget
      have hnine := env.config.nine_le_delivery_steps w.message.attemptNumber
      have hhandler : w.steps env.config =
          env.config.deliverySteps w.message.attemptNumber - 1 := by
        simp only [Handler.steps, hpc]
      simp only [Option.map_some, Option.getD_some, Message.steps_unacked,
        Message.steps_main] at hset
      show s.posts.weigh _ + (s.broker.set i (some
        ⟨.unacked (Topology.mainQueue c) s.handlers.next, envelope⟩)).weigh _ +
          (s.handlers.insert w).weigh _ + 1 ≤ _ + 0
      rw [Registry.weigh_insert]
      omega
  | dropped c i m e hget hbody =>
      obtain ⟨body, hread⟩ := exists_body hreach hget
      exact absurd (hbody.symm.trans hread) (by simp)
  | worked h w db broker pc hget hworked =>
      have hpays := worked_pays hworked
      have hset := Registry.weigh_set (Handler.steps env.config) (pc.map w.goto) hget
      show s.posts.weigh _ + broker.weigh _ + (s.handlers.set h _).weigh _ + 1 ≤ _ + 0
      omega
  | sent h w n outcome hget hpc =>
      have hset := Registry.weigh_set (Handler.steps env.config)
        (some (w.goto (Handler.afterSend outcome))) hget
      have hnine := env.config.nine_le_delivery_steps w.message.attemptNumber
      have hbefore : w.steps env.config =
          env.config.deliverySteps w.message.attemptNumber - 3 := by
        simp only [Handler.steps, hpc]
      have hafter : (w.goto (Handler.afterSend outcome)).steps env.config ≤
          env.config.deliverySteps w.message.attemptNumber - 4 := by
        cases outcome <;>
          simp only [Handler.steps, Handler.afterSend, Handler.goto_pc,
            Handler.goto_to_received] <;>
          omega
      simp only [Option.map_some, Option.getD_some] at hset
      show s.posts.weigh _ + s.broker.weigh _ + (s.handlers.set h _).weigh _ + 1 ≤ _ + 0
      omega
  | crashed h w hget =>
      have hset := Registry.weigh_set (Handler.steps env.config) none hget
      have hone := w.one_le_steps env.config
      simp only [Option.map_none, Option.getD_none] at hset
      show s.posts.weigh _ + s.broker.weigh _ + (s.handlers.set h _).weigh _ + 1 ≤ _ + 0
      omega
  | expired i broker hexpire =>
      obtain ⟨c, k, envelope, hget, rfl⟩ := Broker.expire_cases hexpire
      have hset := Registry.weigh_set (Message.steps env.config) none hget
      simp only [Option.map_none, Option.getD_none, Message.steps_retry] at hset
      show s.posts.weigh _ + (Broker.enqueue (s.broker.set i none) _ _).weigh _ +
        s.handlers.weigh _ + 1 ≤ _ + 0
      rw [Broker.weigh_enqueue, Message.steps_main]
      omega
  | requeued i broker hrequeue =>
      obtain ⟨name, consumer, envelope, hget, rfl⟩ := Broker.requeue_cases hrequeue
      have hle := requeue_steps_le hreach hget
      have hset := Registry.weigh_set (Message.steps env.config) (some ⟨.queue name, envelope⟩)
        hget
      simp only [Option.map_some, Option.getD_some, Message.steps_unacked] at hset
      show s.posts.weigh _ + (s.broker.set i _).weigh _ + s.handlers.weigh _ + 0 ≤
        _ + env.config.deliverySteps 1
      omega

/-- The credit of a run depends on its requests and on the messages that are put back. -/
theorem total_credit (config : Config) (events : List Event) :
    total (Event.credit config) events =
      (config.deliverySteps 1 + 6) * events.countP Event.isRequest +
        config.deliverySteps 1 * events.countP Event.isRequeue := by
  have hsplit : Event.credit config = fun event =>
      (if event.isRequest then config.deliverySteps 1 + 6 else 0) +
        (if event.isRequeue then config.deliverySteps 1 else 0) := by
    funext event
    cases event <;> simp [Event.credit, Event.isRequest, Event.isRequeue]
  rw [hsplit, total_add, total_countP, total_countP]

theorem reaches_step (hreach : Reaches (System.step env) (fun _ _ => True) initial s)
    (hstep : s.step env event = some t) :
    Reaches (System.step env) (fun _ _ => True) initial t :=
  .tail hreach trivial hstep

/-- Any number of requests and deliveries that end or die at any statement, and messages that are
put back at any time: in every run the service takes at most `9 * (maxRetries + 1) + 6` steps for
each request and `9 * (maxRetries + 1)` for each message that is put back, and what it has not
used of them is an upper bound of what it can still do by itself. -/
theorem work_bounded (env : Env) (events : List Event) (s : System)
    (hrun : run (System.step env) initial events = some s) :
    events.countP Event.spends + s.stepsLeft env.config ≤
      (9 * (env.config.maxRetries.toNat + 1) + 6) * events.countP Event.isRequest +
        9 * (env.config.maxRetries.toNat + 1) * events.countP Event.isRequeue := by
  have hfirst : env.config.deliverySteps 1 = 9 * (env.config.maxRetries.toNat + 1) := by
    unfold Config.deliverySteps Config.retriesAfter
    omega
  have hcost := total_countP Event.spends 1 events
  let reachable (u : System) : Prop := Reaches (System.step env) (fun _ _ => True) initial u
  have hkeep : ∀ u event t, reachable u → System.step env u event = some t → reachable t :=
    fun _ _ _ => reaches_step
  have hpays := run_potential (stepsLeft env.config) hkeep (fun _ _ _ => step_pays) hrun (.refl _)
  have hempty : initial.stepsLeft env.config = 0 := rfl
  rw [total_credit, hfirst, hempty, hcost] at hpays
  omega

theorem work_bounded_put_back_early :
    ∃ s, run (System.step shipped) initial putBackEarly = some s ∧
      putBackEarly.countP Event.spends + s.stepsLeft shipped.config ≤ 42 * 1 + 36 * 1 := by
  have hsome : (run (System.step shipped) initial putBackEarly).isSome = true := by
    decide +kernel
  obtain ⟨s, hrun⟩ := Option.isSome_iff_exists.mp hsome
  have hbound := work_bounded shipped putBackEarly s hrun
  exact ⟨s, hrun, hbound⟩

end System

end NotificationDelivery
