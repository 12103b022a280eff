import NotificationDelivery.Config
import NotificationDelivery.Models
import Mathlib

/-!
# Exchange, queues and bindings

After `src/RabbitMQTopology.cpp`. `declareAll` is the list of its declarations, and `route`
says to which queues the broker puts a message that is published to an exchange: the topic
exchange follows its bindings, which have no wildcards here, and the default exchange routes
by queue name. A message that reaches no queue is dropped, as no publish of the service is
mandatory.
-/

namespace NotificationDelivery

/-- The arguments of one `declareQueue`. -/
structure QueueDecl where
  name : String
  maxPriority : Option Int := none
  messageTtl : Option Int := none
  deadLetterExchange : Option String := none
  deadLetterRoutingKey : Option String := none
  deriving DecidableEq, Repr

/-- One `bindQueue`. -/
structure Binding where
  exchange : String
  queue : String
  routingKey : String
  deriving DecidableEq, Repr

structure Topology where
  exchanges : List String
  queues : List QueueDecl
  bindings : List Binding
  deriving DecidableEq, Repr

namespace Topology

def exchangeName : String := "notifications.exchange"

def routingKey : Channel → String
  | .email => "notification.email"
  | .sms => "notification.sms"
  | .push => "notification.push"

def channelSlug : Channel → String
  | .email => "email"
  | .sms => "sms"
  | .push => "push"

def mainQueue (c : Channel) : String := "q." ++ channelSlug c

def retryQueue (c : Channel) (attemptNumber : Int) : String :=
  "q." ++ channelSlug c ++ ".retry." ++ toString attemptNumber

def dlq (c : Channel) : String := "q." ++ channelSlug c ++ ".dlq"

/-- The channels in the order of the loops over them. -/
def channels : List Channel := [.email, .sms, .push]

/-- The rung of the retry ladder declared for the entry `i` of `retryDelaysMs`. -/
def retryDecl (c : Channel) (i : Nat) (delay : Int) : QueueDecl where
  name := retryQueue c (i + 1)
  messageTtl := some delay
  deadLetterExchange := some exchangeName
  deadLetterRoutingKey := some (routingKey c)

/-- The queues that one turn of the loop over the channels declares. -/
def channelQueues (config : Config) (c : Channel) : List QueueDecl :=
  { name := mainQueue c, maxPriority := some 5 } ::
    config.retryDelaysMs.mapIdx (retryDecl c) ++ [{ name := dlq c }]

def declareAll (config : Config) : Topology where
  exchanges := [exchangeName]
  queues := channels.flatMap (channelQueues config)
  bindings := channels.map fun c => ⟨exchangeName, mainQueue c, routingKey c⟩

/-- The declaration of a queue. -/
def find (t : Topology) (name : String) : Option QueueDecl :=
  t.queues.find? fun decl => decl.name = name

/-- The queues that receive a message published to an exchange. -/
def route (t : Topology) (exchange key : String) : List String :=
  if exchange = "" then if (t.find key).isSome then [key] else []
  else (t.bindings.filter fun b => b.exchange = exchange ∧ b.routingKey = key).map Binding.queue

@[simp] theorem main_queue_inj {c d : Channel} : mainQueue c = mainQueue d ↔ c = d := by
  cases c <;> cases d <;> decide

@[simp] theorem dlq_inj {c d : Channel} : dlq c = dlq d ↔ c = d := by
  cases c <;> cases d <;> decide

@[simp] theorem main_queue_ne_dlq (c d : Channel) : mainQueue c ≠ dlq d := by
  cases c <;> cases d <;> decide

@[simp] theorem dlq_ne_main (c d : Channel) : dlq c ≠ mainQueue d :=
  (main_queue_ne_dlq d c).symm

/-- A queue name determines its channel and its rung. -/
@[simp] theorem retry_queue_inj {c d : Channel} {k j : Int} :
    retryQueue c k = retryQueue d j ↔ c = d ∧ k = j := by
  constructor
  · intro h
    have hchars := congrArg String.toList h
    revert hchars
    cases c <;> cases d <;>
      simp [retryQueue, channelSlug, String.toList_append, String.toList_inj]
  · intro h
    obtain ⟨rfl, rfl⟩ := h
    rfl

@[simp] theorem retry_queue_ne_main (c d : Channel) (k : Int) : retryQueue c k ≠ mainQueue d := by
  intro h
  have hchars := congrArg String.toList h
  revert hchars
  cases c <;> cases d <;> simp [retryQueue, mainQueue, channelSlug, String.toList_append]

@[simp] theorem retry_queue_ne_dlq (c d : Channel) (k : Int) : retryQueue c k ≠ dlq d := by
  intro h
  have hchars := congrArg String.toList h
  revert hchars
  cases c <;> cases d <;> simp [retryQueue, dlq, channelSlug, String.toList_append]

@[simp] theorem main_queue_ne_retry (c d : Channel) (k : Int) : mainQueue c ≠ retryQueue d k :=
  (retry_queue_ne_main d c k).symm

@[simp] theorem dlq_ne_retry (c d : Channel) (k : Int) : dlq c ≠ retryQueue d k :=
  (retry_queue_ne_dlq d c k).symm

@[simp] theorem mem_channels (c : Channel) : c ∈ channels := by
  cases c <;> decide

variable {config : Config} {decl : QueueDecl} {name : String} {c : Channel} {k : Int}

/-- What `declareAll` declares. -/
theorem mem_queues : decl ∈ (declareAll config).queues ↔ ∃ c,
    decl = { name := mainQueue c, maxPriority := some 5 } ∨ decl = { name := dlq c } ∨
      ∃ (i : Nat) (h : i < config.retryDelaysMs.length),
        decl = retryDecl c i config.retryDelaysMs[i] := by
  simp only [declareAll, channelQueues, List.mem_flatMap, mem_channels, true_and,
    List.mem_append, List.mem_cons, List.mem_mapIdx, List.not_mem_nil, or_false]
  constructor
  · intro h
    obtain ⟨c, (h | ⟨i, hi, rfl⟩) | h⟩ := h
    · exact ⟨c, .inl h⟩
    · exact ⟨c, .inr (.inr ⟨i, hi, rfl⟩)⟩
    · exact ⟨c, .inr (.inl h)⟩
  · intro h
    obtain ⟨c, h | h | ⟨i, hi, rfl⟩⟩ := h
    · exact ⟨c, .inl (.inl h)⟩
    · exact ⟨c, .inr h⟩
    · exact ⟨c, .inl (.inr ⟨i, hi, rfl⟩)⟩

theorem mem_of_find {t : Topology} (h : t.find name = some decl) :
    decl ∈ t.queues ∧ decl.name = name :=
  ⟨List.mem_of_find?_eq_some h, by simpa using List.find?_some h⟩

theorem isSome_find {t : Topology} : (t.find name).isSome ↔ name ∈ t.queues.map QueueDecl.name := by
  simp [find]

theorem dlq_declared (config : Config) (c : Channel) :
    dlq c ∈ (declareAll config).queues.map QueueDecl.name :=
  List.mem_map.mpr ⟨_, mem_queues.mpr ⟨c, .inr (.inl rfl)⟩, rfl⟩

/-- The rungs of the ladder are numbered from one, one for each delay. -/
theorem retry_queue_declared :
    retryQueue c k ∈ (declareAll config).queues.map QueueDecl.name ↔
      1 ≤ k ∧ k ≤ config.retryDelaysMs.length := by
  rw [List.mem_map]
  constructor
  · intro h
    obtain ⟨decl, hmem, hname⟩ := h
    obtain ⟨d, rfl | rfl | ⟨i, hi, rfl⟩⟩ := mem_queues.mp hmem
    · exact absurd hname.symm (retry_queue_ne_main c d k)
    · exact absurd hname.symm (retry_queue_ne_dlq c d k)
    · have hk : (i : Int) + 1 = k := (retry_queue_inj.mp hname).2
      omega
  · intro h
    obtain ⟨hone, hlen⟩ := h
    refine ⟨_, mem_queues.mpr ⟨c, .inr (.inr ⟨(k - 1).toNat, by omega, rfl⟩)⟩, ?_⟩
    rw [retryDecl, retry_queue_inj]
    exact ⟨rfl, by omega⟩

/-- Only the rungs of the ladder have a time to live, and their messages are dead-lettered to the
exchange under the key of their channel. -/
theorem expiring_queue (h : (declareAll config).find name = some decl)
    (httl : decl.messageTtl.isSome) :
    ∃ c k, name = retryQueue c k ∧ decl.deadLetterExchange = some exchangeName ∧
      decl.deadLetterRoutingKey = some (routingKey c) := by
  obtain ⟨hmem, rfl⟩ := mem_of_find h
  obtain ⟨d, rfl | rfl | ⟨i, hi, rfl⟩⟩ := mem_queues.mp hmem
  · simp at httl
  · simp at httl
  · exact ⟨d, i + 1, rfl, rfl, rfl⟩

/-- A declared rung has a time to live and leads back to the exchange. -/
theorem find_retry_queue (h : (declareAll config).find (retryQueue c k) = some decl) :
    decl.messageTtl.isSome ∧ decl.deadLetterExchange = some exchangeName ∧
      decl.deadLetterRoutingKey = some (routingKey c) := by
  obtain ⟨hmem, hname⟩ := mem_of_find h
  obtain ⟨d, rfl | rfl | ⟨i, hi, rfl⟩⟩ := mem_queues.mp hmem
  · exact absurd hname.symm (retry_queue_ne_main c d k)
  · exact absurd hname.symm (retry_queue_ne_dlq c d k)
  · obtain rfl := (retry_queue_inj.mp hname).1
    exact ⟨rfl, rfl, rfl⟩

/-- The time to live on a rung is the delay with the number of the rung. -/
theorem ttl_retry_queue (h : (declareAll config).find (retryQueue c k) = some decl) :
    ∃ delay, config.retryDelaysMs[(k - 1).toNat]? = some delay ∧
      decl.messageTtl = some delay := by
  obtain ⟨hmem, hname⟩ := mem_of_find h
  obtain ⟨d, rfl | rfl | ⟨i, hi, rfl⟩⟩ := mem_queues.mp hmem
  · exact absurd hname.symm (retry_queue_ne_main c d k)
  · exact absurd hname.symm (retry_queue_ne_dlq c d k)
  · obtain rfl := (retry_queue_inj.mp hname).2
    exact ⟨config.retryDelaysMs[i], by simp, rfl⟩

/-- The exchange routes the key of a channel to its main queue alone. -/
@[simp] theorem route_exchange (config : Config) (c : Channel) :
    (declareAll config).route exchangeName (routingKey c) = [mainQueue c] := by
  cases c <;> rfl

/-- The default exchange delivers to a declared queue and drops everything else. -/
theorem route_default (t : Topology) (name : String) :
    t.route "" name = if name ∈ t.queues.map QueueDecl.name then [name] else [] := by
  simp only [route, if_true, isSome_find]

@[simp] theorem route_dlq (config : Config) (c : Channel) :
    (declareAll config).route "" (dlq c) = [dlq c] := by
  rw [route_default, if_pos (dlq_declared config c)]

end Topology

end NotificationDelivery
