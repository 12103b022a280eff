import NotificationDelivery.Service.Broker
import NotificationDelivery.Service.Database

/-!
# One delivery

`WorkerThread::onMessage` (`src/Worker.cpp`) as a machine that executes one statement of the
database or of the broker at a time. What happens between two statements touches local
variables only and belongs to the statement before it.
-/

namespace NotificationDelivery

/-- The statement that a handler executes next, with the local variables that it still needs.
`send` is the call of `ProviderRouter::send`; the statements from `recordSuccess` on end the
delivery after a result, those from `incrementFailure` on after a `ProviderException`. -/
inductive HandlerPc where
  | findById
  | markProcessing (n : Notification)
  | send (n : Notification)
  | recordSuccess (providerRef : String)
  | markSent
  | incrementSuccess
  | incrementFailure (what : String) (isTransient : Bool)
  | recordRetry (what : String)
  | publishRetry
  | recordDead (what : String) (isTransient : Bool)
  | publishDlq
  | markDeadLettered
  | ack
  deriving DecidableEq, Repr

/-- The locals of `onMessage` once a body was read. -/
structure Received where
  channel : Channel
  deliveryTag : Nat
  body : Json
  message : MessageBody

namespace Received

/-- The notification that the message is about. -/
def notificationId (d : Received) : String := d.message.notificationId

/-- `exhausted` in the source. -/
def exhausted (config : Config) (d : Received) : Bool :=
  d.message.attemptNumber > config.maxRetries

/-- The row of `delivery_attempts` that the delivery writes. -/
def attempt (d : Received) (status : AttemptStatus) (providerRef errorMessage : Option String) :
    DeliveryAttempt where
  notificationId := d.notificationId
  attemptNumber := d.message.attemptNumber
  channel := d.channel
  status := status
  providerRef := providerRef
  errorMessage := errorMessage

/-- The attempt recorded after a result. -/
def successAttempt (d : Received) (providerRef : String) : DeliveryAttempt :=
  d.attempt .success (some providerRef) none

/-- The attempt recorded after a `ProviderException`. -/
def failureAttempt (d : Received) (what : String) (isTransient : Bool) : DeliveryAttempt :=
  d.attempt (if isTransient then .transientFailure else .permanentFailure) none (some what)

/-- The message that schedules the next attempt. -/
def retryBody (d : Received) : MessageBody :=
  { d.message with attemptNumber := d.message.attemptNumber + 1 }

/-- Whether the failure leads to the retry branch. -/
def retries (config : Config) (d : Received) (isTransient : Bool) : Bool :=
  isTransient && !d.exhausted config

end Received

/-- An execution of `onMessage` on a message of the service. -/
structure Handler extends Received where
  decoded : MessageBody.fromJson body = .ok message
  pc : HandlerPc

namespace Handler

/-- The delivery with another program point. -/
def goto (w : Handler) (pc : HandlerPc) : Handler := { w with pc }

/-- Where `send` continues. -/
def afterSend : ProviderOutcome → HandlerPc
  | .result providerRef => .recordSuccess providerRef
  | .failure what isTransient => .incrementFailure what isTransient

/-- Executes the next statement of the handler with the given number; the result has no program
point when the handler is done. The end of `send` is not up to the handler. -/
def work (config : Config) (db : Database) (broker : Broker) (number : Nat) (w : Handler) :
    Option (Database × Broker × Option HandlerPc) :=
  match w.pc with
  | .findById =>
      match db.findById w.notificationId with
      | none => some (db, broker, some .ack)
      | some n => some (db, broker, some (if n.status.skipped then .ack else .markProcessing n))
  | .markProcessing n => some (db.markProcessing w.notificationId, broker, some (.send n))
  | .send _ => none
  -- the attempt, the status and the count are three statements without a transaction
  | .recordSuccess providerRef =>
      some (db.record (w.successAttempt providerRef), broker, some .markSent)
  | .markSent => some (db.markSent w.notificationId, broker, some .incrementSuccess)
  | .incrementSuccess => some (db.incrementAttemptCount w.notificationId, broker, some .ack)
  | .incrementFailure what isTransient =>
      some (db.incrementAttemptCount w.notificationId, broker,
        some (if w.retries config isTransient then .recordRetry what
          else .recordDead what isTransient))
  | .recordRetry what => some (db.record (w.failureAttempt what true), broker, some .publishRetry)
  | .publishRetry =>
      some (db, broker.publish (.declareAll config) ""
        (Topology.retryQueue w.channel w.message.attemptNumber)
        { body := w.retryBody.toJson, priority := w.message.priority }, some .ack)
  | .recordDead what isTransient =>
      some (db.record (w.failureAttempt what isTransient), broker, some .publishDlq)
  | .publishDlq =>
      some (db, broker.publish (.declareAll config) "" (Topology.dlq w.channel) { body := w.body },
        some .markDeadLettered)
  | .markDeadLettered => some (db.markDeadLettered w.notificationId, broker, some .ack)
  | .ack => some (db, broker.ack number w.deliveryTag, none)

section Goto

variable (w : Handler) (pc other : HandlerPc)

@[simp] theorem goto_pc : (w.goto pc).pc = pc := rfl
/-- The locals stay. -/
@[simp] theorem goto_to_received : (w.goto pc).toReceived = w.toReceived := rfl
@[simp] theorem goto_goto : (w.goto pc).goto other = w.goto other := rfl

end Goto

variable {config : Config} {db next : Database} {broker published : Broker} {number : Nat}
  {w : Handler} {pc : Option HandlerPc}

/-- Everything a delivery can do in one step, apart from the end of `send`. -/
inductive Worked (config : Config) (db : Database) (broker : Broker) (number : Nat) (w : Handler) :
    Database → Broker → Option HandlerPc → Prop where
  | missed : w.pc = .findById → db.findById w.notificationId = none →
      Worked config db broker number w db broker (some .ack)
  | skipped (n : Notification) : w.pc = .findById → db.findById w.notificationId = some n →
      n.status.skipped = true → Worked config db broker number w db broker (some .ack)
  | found (n : Notification) : w.pc = .findById → db.findById w.notificationId = some n →
      n.status.skipped = false →
        Worked config db broker number w db broker (some (.markProcessing n))
  | markedProcessing (n : Notification) : w.pc = .markProcessing n →
      Worked config db broker number w (db.markProcessing w.notificationId) broker (some (.send n))
  | recordedSuccess (providerRef : String) : w.pc = .recordSuccess providerRef →
      Worked config db broker number w (db.record (w.successAttempt providerRef)) broker
        (some .markSent)
  | markedSent : w.pc = .markSent →
      Worked config db broker number w (db.markSent w.notificationId) broker
        (some .incrementSuccess)
  | incrementedSuccess : w.pc = .incrementSuccess →
      Worked config db broker number w (db.incrementAttemptCount w.notificationId) broker
        (some .ack)
  | incrementedRetry (what : String) (isTransient : Bool) :
      w.pc = .incrementFailure what isTransient →
      w.retries config isTransient = true →
      Worked config db broker number w (db.incrementAttemptCount w.notificationId) broker
        (some (.recordRetry what))
  | incrementedDead (what : String) (isTransient : Bool) :
      w.pc = .incrementFailure what isTransient →
      w.retries config isTransient = false →
      Worked config db broker number w (db.incrementAttemptCount w.notificationId) broker
        (some (.recordDead what isTransient))
  | recordedRetry (what : String) : w.pc = .recordRetry what →
      Worked config db broker number w (db.record (w.failureAttempt what true)) broker
        (some .publishRetry)
  | publishedRetry : w.pc = .publishRetry →
      Worked config db broker number w db
        (broker.publish (.declareAll config) ""
          (Topology.retryQueue w.channel w.message.attemptNumber)
          { body := w.retryBody.toJson, priority := w.message.priority }) (some .ack)
  | recordedDead (what : String) (isTransient : Bool) : w.pc = .recordDead what isTransient →
      Worked config db broker number w (db.record (w.failureAttempt what isTransient)) broker
        (some .publishDlq)
  | publishedDlq : w.pc = .publishDlq →
      Worked config db broker number w db
        (broker.publish (.declareAll config) "" (Topology.dlq w.channel) { body := w.body })
        (some .markDeadLettered)
  | markedDeadLettered : w.pc = .markDeadLettered →
      Worked config db broker number w (db.markDeadLettered w.notificationId) broker (some .ack)
  | acked : w.pc = .ack →
      Worked config db broker number w db (broker.ack number w.deliveryTag) none

/-- The next statement does what `Worked` says. -/
theorem work_cases (h : w.work config db broker number = some (next, published, pc)) :
    Worked config db broker number w next published pc := by
  unfold work at h
  cases hpc : w.pc with
  | findById =>
      simp only [hpc] at h
      split at h
      · rename_i hfind
        cases h
        exact .missed hpc hfind
      · rename_i n hfind
        split at h <;> (rename_i hskipped; cases h)
        · exact .skipped n hpc hfind hskipped
        · exact .found n hpc hfind (by simpa using hskipped)
  | incrementFailure what isTransient =>
      simp only [hpc] at h
      split at h <;> (rename_i hretries; cases h)
      · exact .incrementedRetry what isTransient hpc hretries
      · exact .incrementedDead what isTransient hpc (by simpa using hretries)
  | markProcessing n =>
      simp only [hpc] at h
      cases h
      exact .markedProcessing n hpc
  | send n =>
      simp only [hpc] at h
      exact absurd h (by simp)
  | recordSuccess providerRef =>
      simp only [hpc] at h
      cases h
      exact .recordedSuccess providerRef hpc
  | markSent =>
      simp only [hpc] at h
      cases h
      exact .markedSent hpc
  | incrementSuccess =>
      simp only [hpc] at h
      cases h
      exact .incrementedSuccess hpc
  | recordRetry what =>
      simp only [hpc] at h
      cases h
      exact .recordedRetry what hpc
  | publishRetry =>
      simp only [hpc] at h
      cases h
      exact .publishedRetry hpc
  | recordDead what isTransient =>
      simp only [hpc] at h
      cases h
      exact .recordedDead what isTransient hpc
  | publishDlq =>
      simp only [hpc] at h
      cases h
      exact .publishedDlq hpc
  | markDeadLettered =>
      simp only [hpc] at h
      cases h
      exact .markedDeadLettered hpc
  | ack =>
      simp only [hpc] at h
      cases h
      exact .acked hpc

end Handler

end NotificationDelivery
