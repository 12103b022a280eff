import NotificationDelivery.Service.WellFormed

/-!
# The service as one notification sees it

`System.view n` keeps what the tables, the broker, the requests and the deliveries hold about
the notification `n`, and `View.Step` is a step relation on views. Invariants of one
notification are proved on its view.
-/

namespace NotificationDelivery

/-- A message about a notification: its place and its attempt number. -/
def Message.about (n : String) (m : Message) : Option (Place × Int) :=
  match MessageBody.fromJson m.envelope.body with
  | .ok body => if body.notificationId = n then some (m.place, body.attemptNumber) else none
  | .error _ => none

def Handler.about (n : String) (w : Handler) : Option Handler :=
  if w.notificationId = n then some w else none

/-- The notification that a request is about to announce. -/
def Post.publishing (n : String) (post : Post) : Option Notification :=
  match post.pc with
  | .publish saved => if saved.id = n then some saved else none
  | _ => none

/-- What the service holds about one notification. `sends` lists the outcomes of its router calls,
oldest first. -/
@[ext] structure View where
  row : Option Notification
  attempts : Int → Option DeliveryAttempt
  messages : Nat → Option (Place × Int)
  handlers : Nat → Option Handler
  publishing : Nat → Option Notification
  sends : List ProviderOutcome
  announced : Bool

namespace View

def empty : View where
  row := none
  attempts := fun _ => none
  messages := fun _ => none
  handlers := fun _ => none
  publishing := fun _ => none
  sends := []
  announced := false

/-- A handler moves to another program point. -/
def advance (v : View) (h : Nat) (w : Handler) (pc : HandlerPc) : View :=
  { v with handlers := Function.update v.handlers h (some (w.goto pc)) }

def setMessage (v : View) (i : Nat) (message : Option (Place × Int)) : View :=
  { v with messages := Function.update v.messages i message }

def setPublishing (v : View) (p : Nat) (saved : Option Notification) : View :=
  { v with publishing := Function.update v.publishing p saved }

def setStatus (v : View) (status : NotificationStatus) : View :=
  { v with row := v.row.map ({ · with status }) }

def increment (v : View) : View :=
  { v with row := v.row.map fun n => { n with attemptCount := n.attemptCount + 1 } }

/-- The attempt is recorded, over an older outcome if there is one. -/
def record (v : View) (attempt : DeliveryAttempt) : View :=
  { v with
    attempts := Function.update v.attempts attempt.attemptNumber
      (some ((v.attempts attempt.attemptNumber).elim attempt fun row => { row with
        status := attempt.status
        providerRef := attempt.providerRef
        errorMessage := attempt.errorMessage })) }

/-- The handler still holds its message. -/
def Holds (v : View) (h : Nat) (w : Handler) : Prop :=
  ∃ name k, v.messages w.deliveryTag = some (.unacked name h, k)

def Sent (v : View) : Prop := ∃ row, v.row = some row ∧ row.status = .sent

@[simp] theorem sent_increment {v : View} : v.increment.Sent ↔ v.Sent := by
  constructor
  · intro h
    obtain ⟨row, hrow, hstatus⟩ := h
    obtain ⟨old, hold, rfl⟩ := Option.map_eq_some_iff.mp hrow
    exact ⟨old, hold, hstatus⟩
  · intro h
    obtain ⟨row, hrow, hstatus⟩ := h
    exact ⟨{ row with attemptCount := row.attemptCount + 1 }, by simp [increment, hrow], hstatus⟩

theorem not_sent_set_status {v : View} {status : NotificationStatus} (hstatus : status ≠ .sent) :
    ¬ (v.setStatus status).Sent := by
  intro h
  obtain ⟨row, hrow, hsent⟩ := h
  obtain ⟨old, hold, rfl⟩ := Option.map_eq_some_iff.mp hrow
  exact hstatus hsent

/-- A stored notification is SENT after it is marked so. -/
theorem sent_set_status {v : View} (hrow : v.row ≠ none) : (v.setStatus .sent).Sent := by
  obtain ⟨row, hrow⟩ := Option.ne_none_iff_exists'.mp hrow
  exact ⟨{ row with status := .sent }, by simp [setStatus, hrow], rfl⟩

/-- What the next statement of a handler does to the view of its notification. -/
inductive Worked (config : Config) (v : View) (h : Nat) (w : Handler) : View → Prop where
  | missed : w.pc = .findById → v.row = none → Worked config v h w (v.advance h w .ack)
  | skipped (row : Notification) : w.pc = .findById → v.row = some row →
      row.status.skipped = true → Worked config v h w (v.advance h w .ack)
  | found (row : Notification) : w.pc = .findById → v.row = some row →
      row.status.skipped = false → Worked config v h w (v.advance h w (.markProcessing row))
  | markedProcessing (row : Notification) : w.pc = .markProcessing row →
      Worked config v h w ((v.setStatus .processing).advance h w (.send row))
  | recordedSuccess (providerRef : String) : w.pc = .recordSuccess providerRef →
      Worked config v h w ((v.record (w.successAttempt providerRef)).advance h w .markSent)
  | markedSent : w.pc = .markSent →
      Worked config v h w ((v.setStatus .sent).advance h w .incrementSuccess)
  | incrementedSuccess : w.pc = .incrementSuccess →
      Worked config v h w (v.increment.advance h w .ack)
  | incrementedRetry (what : String) (isTransient : Bool) :
      w.pc = .incrementFailure what isTransient →
      w.retries config isTransient = true →
      Worked config v h w (v.increment.advance h w (.recordRetry what))
  | incrementedDead (what : String) (isTransient : Bool) :
      w.pc = .incrementFailure what isTransient →
      w.retries config isTransient = false →
      Worked config v h w (v.increment.advance h w (.recordDead what isTransient))
  | recordedRetry (what : String) : w.pc = .recordRetry what →
      Worked config v h w ((v.record (w.failureAttempt what true)).advance h w .publishRetry)
  | publishedRetry (i : Nat) : w.pc = .publishRetry → v.messages i = none →
      1 ≤ w.message.attemptNumber ∧ w.message.attemptNumber ≤ config.retryDelaysMs.length →
      Worked config v h w ((v.setMessage i (some (.queue (Topology.retryQueue w.channel
        w.message.attemptNumber), w.message.attemptNumber + 1))).advance h w .ack)
  | droppedRetry : w.pc = .publishRetry →
      ¬ (1 ≤ w.message.attemptNumber ∧ w.message.attemptNumber ≤ config.retryDelaysMs.length) →
      Worked config v h w (v.advance h w .ack)
  | recordedDead (what : String) (isTransient : Bool) : w.pc = .recordDead what isTransient →
      Worked config v h w ((v.record (w.failureAttempt what isTransient)).advance h w .publishDlq)
  | publishedDlq (i : Nat) : w.pc = .publishDlq → v.messages i = none →
      Worked config v h w ((v.setMessage i (some (.queue (Topology.dlq w.channel),
        w.message.attemptNumber))).advance h w .markDeadLettered)
  | markedDeadLettered : w.pc = .markDeadLettered →
      Worked config v h w ((v.setStatus .deadLettered).advance h w .ack)
  | acked : w.pc = .ack → v.Holds h w →
      Worked config v h w
        { v.setMessage w.deliveryTag none with handlers := Function.update v.handlers h none }
  | ackedLate : w.pc = .ack → ¬ v.Holds h w →
      Worked config v h w { v with handlers := Function.update v.handlers h none }

/-- The steps of the view of `n`. `known` says whether a lookup may find a row under its key. -/
inductive Step (env : Env) (n : String) (known : Prop) (v : View) : Event → View → Prop where
  | unrelated (event : Event) : Step env n known v event v
  | found (p : Nat) (existing : Notification) : known → v.row = some existing →
      v.publishing p = none → Step env n known v (.post p) (v.setPublishing p (some existing))
  | committed (p : Nat) (saved : Notification) : v.row = none → v.publishing p = none →
      saved.id = n → saved.status = .pending → saved.attemptCount = 0 →
      Step env n known v (.post p) { v.setPublishing p (some saved) with row := some saved }
  | published (p : Nat) (saved : Notification) (i : Nat) : v.publishing p = some saved →
      v.messages i = none →
      Step env n known v (.post p)
        { (v.setMessage i (some (.queue (Topology.mainQueue saved.channel), 1))).setPublishing p
          none with announced := true }
  | aborted (p : Nat) : Step env n known v (.abort p) (v.setPublishing p none)
  | delivered (c : Channel) (i h : Nat) (w : Handler) :
      v.messages i = some (.queue (Topology.mainQueue c), w.message.attemptNumber) →
      v.handlers h = none → w.channel = c → w.deliveryTag = i → w.notificationId = n →
      w.pc = .findById →
      Step env n known v (.deliver c i)
        { v.setMessage i (some (.unacked (Topology.mainQueue c) h, w.message.attemptNumber)) with
          handlers := Function.update v.handlers h (some w) }
  | worked (h : Nat) (w : Handler) (next : View) : v.handlers h = some w →
      w.notificationId = n → v.Worked env.config h w next → Step env n known v (.work h) next
  | sent (h : Nat) (w : Handler) (row : Notification) (outcome : ProviderOutcome) :
      v.handlers h = some w → w.notificationId = n → w.pc = .send row →
      Step env n known v (.send h outcome)
        { v.advance h w (Handler.afterSend outcome) with sends := v.sends ++ [outcome] }
  | crashed (h : Nat) (w : Handler) : v.handlers h = some w → w.notificationId = n →
      Step env n known v (.crash h) { v with handlers := Function.update v.handlers h none }
  | expired (i j : Nat) (c : Channel) (rung k : Int) :
      v.messages i = some (.queue (Topology.retryQueue c rung), k) → v.messages j = none →
      Step env n known v (.expire i)
        ((v.setMessage i none).setMessage j (some (.queue (Topology.mainQueue c), k)))
  | requeued (i : Nat) (name : String) (consumer : Nat) (k : Int) :
      v.messages i = some (.unacked name consumer, k) →
      Step env n known v (.requeue i) (v.setMessage i (some (.queue name, k)))

/-- A step that does not show. -/
theorem Step.of_eq {env : Env} {n : String} {known : Prop} {v next : View} {event : Event}
    (h : next = v) : Step env n known v event next := by
  rw [h]
  exact .unrelated event

/-- What a lookup may find only matters where it finds the row. -/
theorem Step.mono {env : Env} {n : String} {known known' : Prop} {v next : View} {event : Event}
    (hstep : Step env n known v event next) (hknown : known → known') :
    Step env n known' v event next := by
  cases hstep with
  | unrelated => exact .unrelated _
  | found p existing hk hrow hfree => exact .found p existing (hknown hk) hrow hfree
  | committed p saved hrow hfree hid hstatus hcount =>
      exact .committed p saved hrow hfree hid hstatus hcount
  | published p saved i hsaved hfree => exact .published p saved i hsaved hfree
  | aborted p => exact .aborted p
  | delivered c i h w hmessage hfree hchannel htag hid hpc =>
      exact .delivered c i h w hmessage hfree hchannel htag hid hpc
  | worked h w next hget hid hworked => exact .worked h w next hget hid hworked
  | sent h w row outcome hget hid hpc => exact .sent h w row outcome hget hid hpc
  | crashed h w hget hid => exact .crashed h w hget hid
  | expired i j c rung k hmessage hfree => exact .expired i j c rung k hmessage hfree
  | requeued i name consumer k hmessage => exact .requeued i name consumer k hmessage

end View

/-- The messages about a notification. -/
def Broker.about (n : String) (b : Broker) (i : Nat) : Option (Place × Int) :=
  (b.get i).bind (Message.about n)

namespace System

/-- What the service holds about the notification `n`. -/
def view (n : String) (s : System) : View where
  row := s.db.findById n
  attempts := s.db.findAttempt n
  messages := s.broker.about n
  handlers := fun h => (s.handlers.get h).bind (Handler.about n)
  publishing := fun p => (s.posts.get p).bind (Post.publishing n)
  sends := (s.sends.filter fun call => call.1 = n).map Prod.snd
  announced := s.announced.contains n

/-- The request asks for a key that some row has. -/
def MeetsKnownKey (env : Env) (s : System) : Event → Prop
  | .post p => ∃ post existing, s.posts.get p = some post ∧ post.pc = .findByIdempotencyKey ∧
      s.db.findByIdempotencyKey env.collate post.input.idempotencyKey = some existing
  | _ => False

/-- The request asks for the key of the notification `n`. -/
def MeetsRow (env : Env) (n : String) (s : System) : Event → Prop
  | .post p => ∃ post existing, s.posts.get p = some post ∧ post.pc = .findByIdempotencyKey ∧
      s.db.findByIdempotencyKey env.collate post.input.idempotencyKey = some existing ∧
        existing.id = n
  | _ => False

theorem MeetsRow.meets_known_key {env : Env} {n : String} {s : System} {event : Event}
    (h : s.MeetsRow env n event) : s.MeetsKnownKey env event := by
  cases event with
  | post p =>
      obtain ⟨post, existing, hget, hpc, hfind, -⟩ := h
      exact ⟨post, existing, hget, hpc, hfind⟩
  | _ => exact h

end System

end NotificationDelivery
