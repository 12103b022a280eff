import NotificationDelivery.Library.Registry
import NotificationDelivery.Service.Topology

/-!
# Messages and the broker

The messages that the service publishes and what the broker does with them. A message waits in
a queue or is unacked at a consumer; the broker loses none. It removes a message when the
consumer that holds it acks it, moves it through the dead-letter exchange of its queue when
its time to live has passed, and may put an unacked message back at any time.
-/

namespace NotificationDelivery

/-- The fields of a message body. -/
structure MessageBody where
  notificationId : String
  attemptNumber : Int
  priority : UInt8
  deriving DecidableEq, Repr

namespace MessageBody

/-- The JSON object that `handleConnection` and the retry branch of `onMessage` build. -/
def toJson (m : MessageBody) : Json :=
  .obj [("notificationId", .str m.notificationId), ("attemptNumber", .int m.attemptNumber),
    ("priority", .int m.priority.toNat)]

/-- The first `try` block of `onMessage`, with numbers that are read by `number`. -/
def readWith (number : Json → Except Exn Int) (j : Json) : Except Exn MessageBody := do
  let notificationId ← j.at' "notificationId" >>= Json.getString
  let attemptNumber ← j.value number "attemptNumber" 1
  let priority ← j.value number "priority" 3
  pure { notificationId, attemptNumber, priority := UInt8.ofInt priority }

/-- The first `try` block of `onMessage`; both numbers are read as an `int`. -/
def read : Json → Except Exn MessageBody := readWith Json.getInt

/-- The same without the reduction to an `int`. The service writes only numbers that an `int`
holds into its own messages, and there the two agree. -/
def fromJson : Json → Except Exn MessageBody := readWith Json.getNumber

/-- A byte that was widened to an `int` narrows back. -/
theorem ofInt_toNat (priority : UInt8) : UInt8.ofInt (priority.toNat : Int) = priority := by
  have hlt : priority.toNat < 2 ^ 8 := priority.toNat_lt
  rw [UInt8.ofInt, Int.emod_eq_of_lt (by omega) (by omega), Int.toNat_natCast, UInt8.ofNat_toNat]

/-- A worker reads what was published. -/
@[simp] theorem from_json_to_json (m : MessageBody) : fromJson m.toJson = .ok m := by
  have hpriority := ofInt_toNat m.priority
  simp [fromJson, readWith, toJson, Json.at', Json.value, Json.find_cons, Json.getString,
    Json.getNumber, bind, Except.bind, pure, Except.pure, hpriority]

/-- The number of a message arrives reduced to an `int`. -/
theorem read_to_json (m : MessageBody) :
    read m.toJson = .ok { m with attemptNumber := m.attemptNumber.bmod (2 ^ 32) } := by
  have hpriority := ofInt_toNat m.priority
  have hlt : m.priority.toNat < 2 ^ 8 := m.priority.toNat_lt
  have hweight : Json.toInt (.int m.priority.toNat) m.priority.toNat = m.priority.toNat :=
    Json.to_int_eq _ ⟨by omega, by omega⟩
  have hattempt : Json.toInt (.int m.attemptNumber) m.attemptNumber =
      m.attemptNumber.bmod (2 ^ 32) := rfl
  simp [read, readWith, toJson, Json.at', Json.value, Json.find_cons, Json.getString, Json.getInt,
    Json.getNumber, bind, Except.bind, pure, Except.pure, Except.map, hpriority, hattempt, hweight]

/-- A number that an `int` holds arrives as it was published. -/
theorem read_of_is_int {m : MessageBody} (h : Json.IsInt m.attemptNumber) :
    read m.toJson = .ok m := by
  obtain ⟨hlow, hhigh⟩ := h
  rw [read_to_json, Int.bmod_eq_of_le (by omega) (by omega)]

/-- The number of a message that a worker reads is an `int`, whatever the message says. -/
theorem is_int_of_read {j : Json} {m : MessageBody} (h : read j = .ok m) :
    Json.IsInt m.attemptNumber := by
  simp only [read, readWith, Exn.bind_eq_ok] at h
  obtain ⟨_, -, k, hk, _, -, hm⟩ := h
  obtain rfl := Except.ok.inj hm
  exact Json.is_int_of_value (by decide) hk

end MessageBody

/-- `AMQP::Envelope`; every publish of the service is persistent. -/
structure Envelope where
  body : Json
  priority : UInt8 := 0
  persistent : Bool := true

/-- Where a message is; an unacked message comes from a queue and is held by a consumer. -/
inductive Place where
  | queue (name : String)
  | unacked (queue : String) (consumer : Nat)
  deriving DecidableEq, Repr

structure Message where
  place : Place
  envelope : Envelope

/-- The messages that the broker has not removed, by delivery number. -/
abbrev Broker := Registry Message

namespace Broker

def enqueue (b : Broker) (name : String) (envelope : Envelope) : Broker :=
  b.insert ⟨.queue name, envelope⟩

/-- `AMQP::Channel::publish`: one copy for each queue the message is routed to. -/
def publish (t : Topology) (b : Broker) (exchange key : String) (envelope : Envelope) : Broker :=
  (t.route exchange key).foldl (fun b name => b.enqueue name envelope) b

/-- The broker hands a message to a consumer. -/
def deliver (b : Broker) (i : Nat) (m : Message) (name : String) (consumer : Nat) : Broker :=
  b.set i (some { m with place := .unacked name consumer })

/-- `AMQP::Channel::ack`; an ack of a delivery that the broker has taken back does nothing. -/
def ack (b : Broker) (consumer i : Nat) : Broker :=
  match b.get i with
  | some ⟨.unacked _ holder, _⟩ => if holder = consumer then b.set i none else b
  | _ => b

/-- An unacked message goes back to its queue. -/
def requeue (b : Broker) (i : Nat) : Option Broker :=
  match b.get i with
  | some ⟨.unacked name _, envelope⟩ => some (b.set i (some ⟨.queue name, envelope⟩))
  | _ => none

/-- The time to live of a message passes. -/
def expire (t : Topology) (b : Broker) (i : Nat) : Option Broker :=
  match b.get i with
  | some ⟨.queue name, envelope⟩ =>
      match t.find name with
      | some decl =>
          match decl.messageTtl, decl.deadLetterExchange, decl.deadLetterRoutingKey with
          | some _, some exchange, some key =>
              some (publish t (b.set i none) exchange key envelope)
          | _, _, _ => none
      | none => none
  | _ => none

variable {t : Topology} {b next : Broker} {config : Config} {envelope : Envelope} {c : Channel}
  {i consumer : Nat} {k : Int}

/-- A publish under the key of a channel reaches its main queue. -/
@[simp] theorem publish_exchange : publish (.declareAll config) b Topology.exchangeName
    (Topology.routingKey c) envelope = b.enqueue (Topology.mainQueue c) envelope := by
  simp [publish]

/-- A publish under the name of a dead-letter queue reaches it. -/
@[simp] theorem publish_dlq : publish (.declareAll config) b "" (Topology.dlq c) envelope =
    b.enqueue (Topology.dlq c) envelope := by
  simp [publish]

/-- A retry is kept exactly if its rung is declared. -/
theorem publish_retry : publish (.declareAll config) b "" (Topology.retryQueue c k) envelope =
    if 1 ≤ k ∧ k ≤ config.retryDelaysMs.length then b.enqueue (Topology.retryQueue c k) envelope
    else b := by
  simp only [publish, Topology.route_default, Topology.retry_queue_declared]
  split <;> rfl

/-- The effect of an ack, by whether the consumer still holds the message. -/
theorem ack_cases (b : Broker) (consumer i : Nat) :
    (∃ name envelope, b.get i = some ⟨.unacked name consumer, envelope⟩ ∧
      b.ack consumer i = b.set i none) ∨
    ((∀ name envelope, b.get i ≠ some ⟨.unacked name consumer, envelope⟩) ∧
      b.ack consumer i = b) := by
  unfold ack
  split
  · rename_i name holder envelope hget
    split
    · rename_i hholder
      exact .inl ⟨name, envelope, hholder ▸ hget, rfl⟩
    · rename_i hholder
      refine .inr ⟨fun name' envelope' h => hholder ?_, rfl⟩
      simp_all
  · rename_i hget
    exact .inr ⟨fun name envelope h => hget name consumer envelope h, rfl⟩

/-- Only an unacked message goes back, and to the queue that it came from. -/
theorem requeue_cases (h : b.requeue i = some next) : ∃ name consumer envelope,
    b.get i = some ⟨.unacked name consumer, envelope⟩ ∧
      next = b.set i (some ⟨.queue name, envelope⟩) := by
  unfold requeue at h
  split at h
  · rename_i name consumer envelope hget
    exact ⟨name, consumer, envelope, hget, (Option.some.inj h).symm⟩
  · exact absurd h (by simp)

/-- Only a message on a rung of the ladder expires, and it goes to the main queue of the channel
of the rung. -/
theorem expire_cases (h : b.expire (.declareAll config) i = some next) : ∃ c k envelope,
    b.get i = some ⟨.queue (Topology.retryQueue c k), envelope⟩ ∧
      next = enqueue (b.set i none) (Topology.mainQueue c) envelope := by
  unfold expire at h
  split at h
  · rename_i name envelope hget
    split at h
    · rename_i decl hfind
      split at h
      · rename_i ttl exchange key httl hexchange hkey
        obtain ⟨c, k, rfl, hdle, hdlrk⟩ := Topology.expiring_queue hfind (by simp [httl])
        obtain rfl := Option.some.inj (hexchange.symm.trans hdle)
        obtain rfl := Option.some.inj (hkey.symm.trans hdlrk)
        rw [publish_exchange] at h
        exact ⟨c, k, envelope, hget, (Option.some.inj h).symm⟩
      · exact absurd h (by simp)
    · exact absurd h (by simp)
  · exact absurd h (by simp)

/-- `b.Keeps next` says that `next` holds every message that it shares with `b` under the number and
with the envelope it has in `b`. -/
def Keeps (b next : Broker) : Prop :=
  b.next ≤ next.next ∧ ∀ i < b.next, ∀ m, next.get i = some m →
    ∃ old, b.get i = some old ∧ m.envelope = old.envelope

/-- Nothing happens. -/
theorem Keeps.refl (b : Broker) : b.Keeps b :=
  ⟨Nat.le_refl _, fun _ _ m h => ⟨m, h, rfl⟩⟩

/-- Two steps in a row. -/
theorem Keeps.trans {last : Broker} (h : b.Keeps next) (hnext : next.Keeps last) :
    b.Keeps last := by
  refine ⟨h.1.trans hnext.1, fun i hi m hm => ?_⟩
  obtain ⟨middle, hmiddle, heq⟩ := hnext.2 i (Nat.lt_of_lt_of_le hi h.1) m hm
  obtain ⟨old, hold, heq'⟩ := h.2 i hi middle hmiddle
  exact ⟨old, hold, heq.trans heq'⟩

/-- A new message gets a new number. -/
theorem keeps_enqueue (b : Broker) (name : String) (envelope : Envelope) :
    b.Keeps (b.enqueue name envelope) := by
  refine ⟨Nat.le_succ _, fun i hi m hm => ?_⟩
  simp only [enqueue, Registry.get_insert, Function.update_of_ne (Nat.ne_of_lt hi)] at hm
  exact ⟨m, hm, rfl⟩

/-- So do the copies of a published one. -/
theorem keeps_publish (t : Topology) (b : Broker) (exchange key : String) (envelope : Envelope) :
    b.Keeps (publish t b exchange key envelope) := by
  unfold publish
  induction t.route exchange key generalizing b with
  | nil => exact .refl b
  | cons name rest ih => exact (keeps_enqueue b name envelope).trans (ih _)

/-- Removing a message or changing its place keeps the others. -/
theorem keeps_set {m : Message} (hget : b.get i = some m) {value : Option Message}
    (hvalue : ∀ m' ∈ value, m'.envelope = m.envelope) : b.Keeps (b.set i value) := by
  refine ⟨Nat.le_refl _, fun j _ m' hm' => ?_⟩
  rw [Registry.get_set hget] at hm'
  by_cases hj : j = i
  · subst hj
    exact ⟨m, hget, hvalue m' (by simpa using hm')⟩
  · rw [Function.update_of_ne hj] at hm'
    exact ⟨m', hm', rfl⟩

/-- An ack removes a message. -/
theorem keeps_ack (b : Broker) (consumer i : Nat) : b.Keeps (b.ack consumer i) := by
  rcases b.ack_cases consumer i with ⟨name, envelope, hget, hack⟩ | ⟨_, hack⟩ <;> rw [hack]
  · exact keeps_set hget (by simp)
  · exact .refl b

/-- A message that goes back is the same message. -/
theorem keeps_requeue (h : b.requeue i = some next) : b.Keeps next := by
  obtain ⟨name, consumer, envelope, hget, rfl⟩ := requeue_cases h
  exact keeps_set hget (by simp)

/-- An expired message comes back under a new number. -/
theorem keeps_expire (h : b.expire (.declareAll config) i = some next) : b.Keeps next := by
  obtain ⟨c, k, envelope, hget, rfl⟩ := expire_cases h
  exact (keeps_set hget (by simp)).trans (keeps_enqueue _ _ _)

/-- A declared rung lets its messages expire. -/
theorem expire_retry (hget : b.get i = some ⟨.queue (Topology.retryQueue c k), envelope⟩)
    (hk : 1 ≤ k ∧ k ≤ config.retryDelaysMs.length) :
    b.expire (.declareAll config) i =
      some (enqueue (b.set i none) (Topology.mainQueue c) envelope) := by
  have hsome := Topology.isSome_find.mpr (Topology.retry_queue_declared (c := c).mpr hk)
  obtain ⟨decl, hfind⟩ := Option.isSome_iff_exists.mp hsome
  obtain ⟨httl, hdle, hdlrk⟩ := Topology.find_retry_queue hfind
  obtain ⟨ttl, httl⟩ := Option.isSome_iff_exists.mp httl
  simp [expire, hget, hfind, httl, hdle, hdlrk]

end Broker

end NotificationDelivery
