import NotificationDelivery.Library.Runs
import NotificationDelivery.Service.HttpServer
import NotificationDelivery.Service.Worker

/-!
# The running service

Any number of requests and of deliveries share the tables and the broker, and execute their
statements in any order. A delivery may die at any statement (`crash`) and a request may end
early at any statement (`abort`), because its process dies or a statement throws; an open
transaction is then rolled back. The broker may put an unacked message back at any time.
-/

namespace NotificationDelivery

/-- The configuration and the collation of the keys. -/
structure Env where
  config : Config
  collate : String → String

/-- The tables, the broker, the requests and the deliveries. Two fields are histories that no
statement reads: `sends` lists the calls of `ProviderRouter::send` that have ended, and
`announced` the notifications that the API has put a message on a queue for. -/
structure System where
  db : Database
  broker : Broker
  posts : Registry Post
  handlers : Registry Handler
  sends : List (String × ProviderOutcome)
  announced : List String

inductive Event where
  /-- A POST request with a readable body arrives. -/
  | request (input : Notification) (uuid : String)
  /-- A request executes its next statement. -/
  | post (p : Nat)
  /-- A request ends before its next statement. -/
  | abort (p : Nat)
  /-- A worker of a channel receives a message. -/
  | deliver (c : Channel) (i : Nat)
  /-- A delivery executes its next statement. -/
  | work (h : Nat)
  /-- `ProviderRouter::send` returns or throws in a delivery. -/
  | send (h : Nat) (outcome : ProviderOutcome)
  /-- A delivery dies before its next statement. -/
  | crash (h : Nat)
  /-- The time to live of a message passes. -/
  | expire (i : Nat)
  /-- The broker puts an unacked message back. -/
  | requeue (i : Nat)
  deriving DecidableEq, Repr

/-- A request or a delivery ends early, or a message is put back. -/
def Event.disturbs : Event → Bool
  | .abort _ | .crash _ | .requeue _ => true
  | _ => false

namespace System

def initial : System where
  db := {}
  broker := .empty
  posts := .empty
  handlers := .empty
  sends := []
  announced := []

/-- The open transaction of a request other than `p` has inserted a row with a key of `n`. -/
def locked (env : Env) (s : System) (p : Nat) (n : Notification) : Bool :=
  (List.range s.posts.next).any fun q => q ≠ p &&
    ((s.posts.get q).bind Post.uncommitted).any fun m => n.Collides env.collate m

/-- A worker receives message `i` from the main queue of its channel. A body that cannot be read
is acked at once. -/
def receive (s : System) (c : Channel) (i : Nat) (m : Message) : System :=
  match hbody : MessageBody.fromJson m.envelope.body with
  | .ok message =>
      { s with
        broker := s.broker.deliver i m (Topology.mainQueue c) s.handlers.next
        handlers := s.handlers.insert
          { channel := c, deliveryTag := i, body := m.envelope.body, message, decoded := hbody,
            pc := .findById } }
  | .error _ => { s with broker := s.broker.set i none }

/-- The history of announcements after a request executes its next statement. -/
def announce (s : System) (post : Post) : List String :=
  match post.pc with
  | .publish saved => s.announced ++ [saved.id]
  | _ => s.announced

/-- One step of the service. -/
def step (env : Env) (s : System) : Event → Option System
  | .request input uuid =>
      some { s with posts := s.posts.insert { input, uuid, pc := .findByIdempotencyKey } }
  | .post p => do
      let post ← s.posts.get p
      let (db, broker, pc) ←
        post.work env.config env.collate s.db s.broker (s.locked env p post.row)
      pure { s with
        db, broker
        posts := s.posts.set p (some { post with pc })
        announced := s.announce post }
  | .abort p => do
      let post ← s.posts.get p
      pure { s with posts := s.posts.set p (some { post with pc := .done }) }
  | .deliver c i => do
      let m ← s.broker.get i
      if m.place = .queue (Topology.mainQueue c) then pure (s.receive c i m) else none
  | .work h => do
      let w ← s.handlers.get h
      let (db, broker, pc) ← w.work env.config s.db s.broker h
      pure { s with db, broker, handlers := s.handlers.set h (pc.map w.goto) }
  | .send h outcome => do
      let w ← s.handlers.get h
      match w.pc with
      | .send _ =>
          pure { s with
            handlers := s.handlers.set h (some (w.goto (Handler.afterSend outcome)))
            sends := s.sends ++ [(w.notificationId, outcome)] }
      | _ => none
  | .crash h => do
      let _ ← s.handlers.get h
      pure { s with handlers := s.handlers.set h none }
  | .expire i => do
      let broker ← s.broker.expire (.declareAll env.config) i
      pure { s with broker }
  | .requeue i => do
      let broker ← s.broker.requeue i
      pure { s with broker }

variable {env : Env} {s t : System}

/-- Everything a step can do, one case for each event and one for a body that cannot be read. -/
inductive Stepped (env : Env) (s : System) : Event → System → Prop where
  | requested (input : Notification) (uuid : String) :
      Stepped env s (.request input uuid)
        { s with posts := s.posts.insert { input, uuid, pc := .findByIdempotencyKey } }
  | posted (p : Nat) (post : Post) (db : Database) (broker : Broker) (pc : PostPc) :
      s.posts.get p = some post →
      post.Worked env.config env.collate s.db s.broker (s.locked env p post.row) db broker pc →
      Stepped env s (.post p)
        { s with
          db, broker
          posts := s.posts.set p (some { post with pc })
          announced := s.announce post }
  | aborted (p : Nat) (post : Post) : s.posts.get p = some post →
      Stepped env s (.abort p) { s with posts := s.posts.set p (some { post with pc := .done }) }
  | delivered (c : Channel) (i : Nat) (m : Message) (w : Handler) : s.broker.get i = some m →
      m.place = .queue (Topology.mainQueue c) → w.channel = c → w.deliveryTag = i →
      w.body = m.envelope.body → w.pc = .findById →
      Stepped env s (.deliver c i)
        { s with
          broker := s.broker.deliver i m (Topology.mainQueue c) s.handlers.next
          handlers := s.handlers.insert w }
  | dropped (c : Channel) (i : Nat) (m : Message) (e : Exn) : s.broker.get i = some m →
      MessageBody.fromJson m.envelope.body = .error e →
      Stepped env s (.deliver c i) { s with broker := s.broker.set i none }
  | worked (h : Nat) (w : Handler) (db : Database) (broker : Broker) (pc : Option HandlerPc) :
      s.handlers.get h = some w → w.Worked env.config s.db s.broker h db broker pc →
      Stepped env s (.work h)
        { s with db, broker, handlers := s.handlers.set h (pc.map w.goto) }
  | sent (h : Nat) (w : Handler) (n : Notification) (outcome : ProviderOutcome) :
      s.handlers.get h = some w → w.pc = .send n →
      Stepped env s (.send h outcome)
        { s with
          handlers := s.handlers.set h (some (w.goto (Handler.afterSend outcome)))
          sends := s.sends ++ [(w.notificationId, outcome)] }
  | crashed (h : Nat) (w : Handler) : s.handlers.get h = some w →
      Stepped env s (.crash h) { s with handlers := s.handlers.set h none }
  | expired (i : Nat) (broker : Broker) : s.broker.expire (.declareAll env.config) i = some broker →
      Stepped env s (.expire i) { s with broker }
  | requeued (i : Nat) (broker : Broker) : s.broker.requeue i = some broker →
      Stepped env s (.requeue i) { s with broker }

/-- The step function does what `Stepped` says. -/
theorem step_cases {event : Event} (h : s.step env event = some t) : Stepped env s event t := by
  cases event with
  | request input uuid =>
      cases h
      exact .requested input uuid
  | post p =>
      simp only [step, bind, Option.bind_eq_some_iff] at h
      obtain ⟨post, hget, ⟨db, broker, pc⟩, hwork, h⟩ := h
      cases h
      exact .posted p post db broker pc hget (Post.work_cases hwork)
  | abort p =>
      simp only [step, bind, Option.bind_eq_some_iff] at h
      obtain ⟨post, hget, h⟩ := h
      cases h
      exact .aborted p post hget
  | deliver c i =>
      simp only [step, bind, Option.bind_eq_some_iff] at h
      obtain ⟨m, hget, h⟩ := h
      split at h
      · rename_i hplace
        cases h
        unfold receive
        split
        · exact .delivered c i m _ hget hplace rfl rfl rfl rfl
        · rename_i e hbody
          exact .dropped c i m e hget hbody
      · exact absurd h (by simp)
  | work h' =>
      simp only [step, bind, Option.bind_eq_some_iff] at h
      obtain ⟨w, hget, ⟨db, broker, pc⟩, hwork, h⟩ := h
      cases h
      exact .worked h' w db broker pc hget (Handler.work_cases hwork)
  | send h' outcome =>
      simp only [step, bind, Option.bind_eq_some_iff] at h
      obtain ⟨w, hget, h⟩ := h
      split at h
      · rename_i n hpc
        cases h
        exact .sent h' w n outcome hget hpc
      · exact absurd h (by simp)
  | crash h' =>
      simp only [step, bind, Option.bind_eq_some_iff] at h
      obtain ⟨w, hget, h⟩ := h
      cases h
      exact .crashed h' w hget
  | expire i =>
      simp only [step, bind, Option.bind_eq_some_iff] at h
      obtain ⟨broker, hexpire, h⟩ := h
      cases h
      exact .expired i broker hexpire
  | requeue i =>
      simp only [step, bind, Option.bind_eq_some_iff] at h
      obtain ⟨broker, hrequeue, h⟩ := h
      cases h
      exact .requeued i broker hrequeue

end System

end NotificationDelivery
