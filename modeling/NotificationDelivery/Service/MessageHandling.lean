import NotificationDelivery.Library.Exceptions
import NotificationDelivery.Service.Worker

/-!
# The handler of a message as a whole

`WorkerThread::onMessage` (`src/Worker.cpp`) from the bytes of a message to its end, with the
outcome of every call into the database and of the provider as an input. Only a
`ProviderException` is caught; any other exception leaves `onMessage` and ends the process.
`Handler.work` executes the same code statement by statement when no call throws;
`handler_work_handles` says that the two agree.
-/

namespace NotificationDelivery

open Throwing

/-- What is thrown in `onMessage`. -/
inductive Thrown where
  | provider (what : String) (isTransient : Bool)
  | other (ex : Exn)

/-- How the calls of one delivery end. -/
structure DeliveryCalls where
  findById : Except Exn Unit := .ok ()
  markProcessing : Except Exn Unit := .ok ()
  send : ProviderOutcome
  record : Except Exn Unit := .ok ()
  markSent : Except Exn Unit := .ok ()
  incrementAttemptCount : Except Exn Unit := .ok ()
  markDeadLettered : Except Exn Unit := .ok ()

/-- What a delivery does to the tables and the queues. -/
inductive DeliveryEffect where
  | markedProcessing
  | recorded (attempt : DeliveryAttempt)
  | markedSent
  | incrementedAttemptCount
  | published (queue : String) (envelope : Envelope)
  | markedDeadLettered
  | acked

/-- The tables, the queues and what the delivery has done so far. -/
structure Handling where
  database : Database
  broker : Broker
  effects : List DeliveryEffect := []

namespace Handling

/-- A statement takes effect. -/
def perform (s : Handling) (change : Database → Database) (effect : DeliveryEffect) : Handling :=
  { s with database := change s.database, effects := s.effects ++ [effect] }

/-- A publish to the default exchange. -/
def publish (s : Handling) (config : Config) (queue : String) (envelope : Envelope) : Handling :=
  { s with
    broker := s.broker.publish (.declareAll config) "" queue envelope
    effects := s.effects ++ [.published queue envelope] }

def ack (s : Handling) (consumer deliveryTag : Nat) : Handling :=
  { s with
    broker := s.broker.ack consumer deliveryTag
    effects := s.effects ++ [.acked] }

end Handling

/-- Code of the worker; what it did before it threw remains. -/
abbrev Handles := ExceptT Thrown (StateM Handling)

/-- A column of `limit` characters admits the text; spaces at its end are cut off. -/
def FitsColumn (limit : Nat) (text : String) : Prop :=
  (text.toList.rdropWhile (· = ' ')).length ≤ limit

instance (limit : Nat) (text : String) : Decidable (FitsColumn limit text) :=
  inferInstanceAs (Decidable (_ ≤ _))

/-- The columns of `delivery_attempts` admit the values: `CHAR(36)`, `INT UNSIGNED`,
`VARCHAR(255)` and `VARCHAR(1024)`. -/
def DeliveryAttempt.Fits (attempt : DeliveryAttempt) : Prop :=
  FitsColumn 36 attempt.notificationId ∧
    (0 ≤ attempt.attemptNumber ∧ attempt.attemptNumber < 2 ^ 32) ∧
    (∀ providerRef ∈ attempt.providerRef, FitsColumn 255 providerRef) ∧
    ∀ errorMessage ∈ attempt.errorMessage, FitsColumn 1024 errorMessage

instance (attempt : DeliveryAttempt) : Decidable attempt.Fits := by
  unfold DeliveryAttempt.Fits
  infer_instance

namespace WorkerThread

/-- A statement of a repository throws and does nothing, or takes effect. -/
def statement (outcome : Except Exn Unit) (change : Database → Database) (effect : DeliveryEffect) :
    Handles Unit := do
  liftM (outcome.mapError Thrown.other)
  modify fun s => s.perform change effect

/-- `DeliveryAttemptRepository::record`; the server refuses values that the columns do not admit. -/
def record (collate : String → String) (columnError : Exn) (calls : DeliveryCalls)
    (attempt : DeliveryAttempt) : Handles Unit :=
  statement (if attempt.Fits then calls.record else .error columnError)
    (·.recordUnder collate attempt) (.recorded attempt)

def publish (config : Config) (queue : String) (envelope : Envelope) : Handles Unit :=
  modify fun s => s.publish config queue envelope

def ack (consumer deliveryTag : Nat) : Handles Unit :=
  modify fun s => s.ack consumer deliveryTag

/-- `ProviderRouter::send`. -/
def send : ProviderOutcome → Handles String
  | .result providerRef => pure providerRef
  | .failure what isTransient => throw (.provider what isTransient)

variable (config : Config) (collate : String → String) (columnError : Exn) (calls : DeliveryCalls)
  (consumer : Nat) (w : Received)

/-- The second `try` block. -/
def tryDelivery : Handles Unit := do
  let providerRef ← send calls.send
  record collate columnError calls (w.successAttempt providerRef)
  statement calls.markSent (·.markSentUnder collate w.notificationId) .markedSent
  statement calls.incrementAttemptCount (·.incrementAttemptCountUnder collate w.notificationId)
    .incrementedAttemptCount
  ack consumer w.deliveryTag

/-- The retry branch of the handler of a `ProviderException`. -/
def scheduleRetry (what : String) : Handles Unit := do
  record collate columnError calls (w.failureAttempt what true)
  publish config (Topology.retryQueue w.channel w.message.attemptNumber)
    { body := w.retryBody.toJson, priority := w.message.priority }

/-- Its other branch. -/
def deadLetter (what : String) (isTransient : Bool) : Handles Unit := do
  record collate columnError calls (w.failureAttempt what isTransient)
  publish config (Topology.dlq w.channel) { body := w.body }
  statement calls.markDeadLettered (·.markDeadLetteredUnder collate w.notificationId)
    .markedDeadLettered

/-- The handler of a `ProviderException`; any other exception goes on. -/
def catchProvider : Thrown → Handles Unit
  | .provider what isTransient => do
      statement calls.incrementAttemptCount (·.incrementAttemptCountUnder collate w.notificationId)
        .incrementedAttemptCount
      if w.retries config isTransient then scheduleRetry config collate columnError calls w what
      else deadLetter config collate columnError calls w what isTransient
      ack consumer w.deliveryTag
  | .other ex => throw (.other ex)

/-- `onMessage` after the row was read. -/
def handleRow : Option Notification → Handles Unit
  | none => ack consumer w.deliveryTag
  | some n =>
      if n.status.skipped then ack consumer w.deliveryTag
      else do
        statement calls.markProcessing (·.markProcessingUnder collate w.notificationId)
          .markedProcessing
        tryCatch (tryDelivery collate columnError calls consumer w)
          (catchProvider config collate columnError calls consumer w)

/-- `onMessage` after the body was read. -/
def handleMessage : Handles Unit := do
  liftM (calls.findById.mapError Thrown.other)
  let s ← get
  handleRow config collate columnError calls consumer w
    (s.database.findByIdUnder collate w.notificationId)

/-- `onMessage` for consumer `consumer` of a channel. -/
def onMessage (channel : Channel) (parse : List UInt8 → Except Exn Json) (deliveryTag : Nat)
    (body : List UInt8) : Handles Unit :=
  match parse body with
  | .error _ => ack consumer deliveryTag
  | .ok j =>
      match MessageBody.read j with
      | .error _ => ack consumer deliveryTag
      | .ok message =>
          handleMessage config collate columnError calls consumer
            { channel, deliveryTag, body := j, message }

variable {config collate columnError calls consumer w} {s next : Handling} {error : Thrown}
  {outcome : Except Exn Unit} {change : Database → Database} {effect : DeliveryEffect}
  {attempt : DeliveryAttempt} {queue : String} {envelope : Envelope} {deliveryTag : Nat}
  {providerRef : String}

@[simp] theorem ends_statement {value : Unit} :
    Ends (statement outcome change effect) s value next ↔
    outcome = .ok () ∧ next = s.perform change effect := by
  unfold statement
  simp only [ends_bind, ends_lift, ends_modify]
  cases outcome with
  | error ex => simp [Except.mapError]
  | ok _ => simp [Except.mapError, eq_comm]

@[simp] theorem fails_statement : Fails (statement outcome change effect) s error next ↔
    ∃ ex, outcome = .error ex ∧ error = .other ex ∧ next = s := by
  unfold statement
  simp only [fails_bind, fails_lift, fails_modify, and_false, exists_false, or_false]
  cases outcome with
  | error ex => simp [Except.mapError, eq_comm]
  | ok _ => simp [Except.mapError]

@[simp] theorem ends_record {value : Unit} :
    Ends (record collate columnError calls attempt) s value next ↔
      (attempt.Fits ∧ calls.record = .ok ()) ∧
      next = s.perform (·.recordUnder collate attempt) (.recorded attempt) := by
  unfold record
  rw [ends_statement]
  split <;> simp_all

@[simp] theorem ends_publish {value : Unit} : Ends (publish config queue envelope) s value next ↔
    next = s.publish config queue envelope := by
  unfold publish
  rw [ends_modify, eq_comm]

@[simp] theorem fails_publish : ¬ Fails (publish config queue envelope) s error next := fails_modify

@[simp] theorem ends_ack {value : Unit} : Ends (ack consumer deliveryTag) s value next ↔
    next = s.ack consumer deliveryTag := by
  unfold ack
  rw [ends_modify, eq_comm]

@[simp] theorem fails_ack : ¬ Fails (ack consumer deliveryTag) s error next := fails_modify

@[simp] theorem ends_send {result : ProviderOutcome} : Ends (send result) s providerRef next ↔
    result = .result providerRef ∧ next = s := by
  cases result <;> simp [send, eq_comm]

@[simp] theorem fails_send {result : ProviderOutcome} : Fails (send result) s error next ↔
    ∃ what isTransient, result = .failure what isTransient ∧ error = .provider what isTransient ∧
      next = s := by
  cases result with
  | result providerRef => simp [send]
  | failure what isTransient =>
      simp only [send, fails_throw, ProviderOutcome.failure.injEq]
      constructor
      · intro h
        obtain ⟨rfl, rfl⟩ := h
        exact ⟨what, isTransient, ⟨rfl, rfl⟩, rfl, rfl⟩
      · intro h
        obtain ⟨_, _, ⟨rfl, rfl⟩, rfl, rfl⟩ := h
        exact ⟨rfl, rfl⟩

section States

variable (config : Config) (collate : String → String) (consumer : Nat) (w : Received)

/-- The state in which the provider is called. -/
def afterMark (s : Handling) : Handling :=
  s.perform (·.markProcessingUnder collate w.notificationId) .markedProcessing

/-- The state after a delivery whose provider call returned. -/
def afterResult (providerRef : String) (s : Handling) : Handling :=
  (((s.perform (·.recordUnder collate (w.successAttempt providerRef))
    (.recorded (w.successAttempt providerRef))).perform
    (·.markSentUnder collate w.notificationId) .markedSent).perform
    (·.incrementAttemptCountUnder collate w.notificationId) .incrementedAttemptCount).ack consumer
      w.deliveryTag

/-- The state after a failure was recorded. -/
def afterFailure (what : String) (isTransient : Bool) (s : Handling) : Handling :=
  (s.perform (·.incrementAttemptCountUnder collate w.notificationId)
    .incrementedAttemptCount).perform
    (·.recordUnder collate (w.failureAttempt what isTransient))
    (.recorded (w.failureAttempt what isTransient))

/-- The state after a failure that is tried again. -/
def afterRetry (what : String) (isTransient : Bool) (s : Handling) : Handling :=
  ((afterFailure collate w what isTransient s).publish config
    (Topology.retryQueue w.channel w.message.attemptNumber)
    { body := w.retryBody.toJson, priority := w.message.priority }).ack consumer w.deliveryTag

/-- The state after the last failure. -/
def afterDeadLetter (what : String) (isTransient : Bool) (s : Handling) : Handling :=
  (((afterFailure collate w what isTransient s).publish config (Topology.dlq w.channel)
    { body := w.body }).perform (·.markDeadLetteredUnder collate w.notificationId)
    .markedDeadLettered).ack consumer w.deliveryTag

end States

/-- The `try` block returns when the provider does and no statement throws. -/
theorem ends_try_delivery {value : Unit} :
    Ends (tryDelivery collate columnError calls consumer w) s value next ↔
      ∃ providerRef, calls.send = .result providerRef ∧ (w.successAttempt providerRef).Fits ∧
        calls.record = .ok () ∧ calls.markSent = .ok () ∧ calls.incrementAttemptCount = .ok () ∧
        next = afterResult collate consumer w providerRef s := by
  simp only [tryDelivery, ends_bind, ends_send, ends_record, ends_statement, ends_ack, afterResult]
  constructor
  · intro h
    obtain ⟨providerRef, _, ⟨hsend, rfl⟩, _, _, ⟨⟨hfits, hrecord⟩, rfl⟩, _, _, ⟨hsent, rfl⟩, _, _,
      ⟨hincrement, rfl⟩, rfl⟩ := h
    exact ⟨providerRef, hsend, hfits, hrecord, hsent, hincrement, rfl⟩
  · intro h
    obtain ⟨providerRef, hsend, hfits, hrecord, hsent, hincrement, rfl⟩ := h
    exact ⟨providerRef, s, ⟨hsend, rfl⟩, (), _, ⟨⟨hfits, hrecord⟩, rfl⟩, (), _, ⟨hsent, rfl⟩, (), _,
      ⟨hincrement, rfl⟩, rfl⟩

/-- Only the provider throws a `ProviderException`. -/
theorem fails_try_delivery {what : String} {isTransient : Bool} :
    Fails (tryDelivery collate columnError calls consumer w) s (.provider what isTransient) next ↔
      calls.send = .failure what isTransient ∧ next = s := by
  constructor
  · intro h
    simp only [tryDelivery, record, fails_bind, fails_send, fails_statement,
      fails_ack, and_false, exists_false, or_false] at h
    rcases h with ⟨_, _, hsend, heq, rfl⟩ | ⟨_, _, _, h⟩
    · cases heq
      exact ⟨hsend, rfl⟩
    · -- The exceptions of the statements are of another kind.
      rcases h with ⟨ex, _, heq, _⟩ | ⟨_, _, _, ⟨ex, _, heq, _⟩ | ⟨_, _, _, ex, _, heq, _⟩⟩ <;>
        cases heq
  · intro h
    obtain ⟨hsend, rfl⟩ := h
    exact fails_bind.mpr (.inl (fails_send.mpr ⟨what, isTransient, hsend, rfl, rfl⟩))

/-- How the handler of a `ProviderException` returns. -/
theorem ends_catch_provider {value : Unit} {what : String} {isTransient : Bool} :
    Ends (catchProvider config collate columnError calls consumer w (.provider what isTransient)) s
      value next ↔
      calls.incrementAttemptCount = .ok () ∧ (w.failureAttempt what isTransient).Fits ∧
        calls.record = .ok () ∧
        ((w.retries config isTransient = true ∧
            next = afterRetry config collate consumer w what isTransient s) ∨
          (w.retries config isTransient = false ∧ calls.markDeadLettered = .ok () ∧
            next = afterDeadLetter config collate consumer w what isTransient s)) := by
  cases hretries : w.retries config isTransient with
  | true =>
      have htransient : isTransient = true := by
        simp only [Received.retries, Bool.and_eq_true] at hretries
        exact hretries.1
      subst htransient
      simp only [catchProvider, hretries, if_true, scheduleRetry, ends_bind, ends_statement,
        ends_record, ends_publish, ends_ack, afterRetry, afterFailure]
      constructor
      · intro h
        obtain ⟨_, _, ⟨hincrement, rfl⟩, _, _, ⟨_, _, ⟨⟨hfits, hrecord⟩, rfl⟩, rfl⟩, rfl⟩ := h
        exact ⟨hincrement, hfits, hrecord, .inl ⟨trivial, rfl⟩⟩
      · intro h
        obtain ⟨hincrement, hfits, hrecord, ⟨_, rfl⟩ | ⟨hfalse, _⟩⟩ := h
        · exact ⟨(), _, ⟨hincrement, rfl⟩, (), _, ⟨(), _, ⟨⟨hfits, hrecord⟩, rfl⟩, rfl⟩, rfl⟩
        · exact absurd hfalse (by simp)
  | false =>
      simp only [catchProvider, hretries, Bool.false_eq_true, if_false, deadLetter, ends_bind,
        ends_statement, ends_record, ends_publish, ends_ack, afterDeadLetter, afterFailure]
      constructor
      · intro h
        obtain ⟨_, _, ⟨hincrement, rfl⟩, _, _,
          ⟨_, _, ⟨⟨hfits, hrecord⟩, rfl⟩, _, _, rfl, hdead, rfl⟩, rfl⟩ := h
        exact ⟨hincrement, hfits, hrecord, .inr ⟨trivial, hdead, rfl⟩⟩
      · intro h
        obtain ⟨hincrement, hfits, hrecord, ⟨hfalse, _⟩ | ⟨_, hdead, rfl⟩⟩ := h
        · exact absurd hfalse (by simp)
        · exact ⟨(), _, ⟨hincrement, rfl⟩, (), _,
            ⟨(), _, ⟨⟨hfits, hrecord⟩, rfl⟩, (), _, rfl, hdead, rfl⟩, rfl⟩

/-- No call of the delivery after `findById` throws. -/
inductive Handled (config : Config) (collate : String → String) (calls : DeliveryCalls)
    (consumer : Nat) (w : Received) (s : Handling) : Option Notification → Handling → Prop where
  | unknown : Handled config collate calls consumer w s none (s.ack consumer w.deliveryTag)
  | finished (n : Notification) : n.status.skipped = true →
      Handled config collate calls consumer w s (some n) (s.ack consumer w.deliveryTag)
  | delivered (n : Notification) (providerRef : String) : n.status.skipped = false →
      calls.markProcessing = .ok () → calls.send = .result providerRef →
      (w.successAttempt providerRef).Fits → calls.record = .ok () → calls.markSent = .ok () →
      calls.incrementAttemptCount = .ok () →
      Handled config collate calls consumer w s (some n)
        (afterResult collate consumer w providerRef (afterMark collate w s))
  | retried (n : Notification) (what : String) (isTransient : Bool) : n.status.skipped = false →
      calls.markProcessing = .ok () → calls.send = .failure what isTransient →
      calls.incrementAttemptCount = .ok () → (w.failureAttempt what isTransient).Fits →
      calls.record = .ok () → w.retries config isTransient = true →
      Handled config collate calls consumer w s (some n)
        (afterRetry config collate consumer w what isTransient (afterMark collate w s))
  | deadLettered (n : Notification) (what : String) (isTransient : Bool) :
      n.status.skipped = false →
      calls.markProcessing = .ok () → calls.send = .failure what isTransient →
      calls.incrementAttemptCount = .ok () → (w.failureAttempt what isTransient).Fits →
      calls.record = .ok () → w.retries config isTransient = false →
      calls.markDeadLettered = .ok () →
      Handled config collate calls consumer w s (some n)
        (afterDeadLetter config collate consumer w what isTransient (afterMark collate w s))

/-- How `onMessage` returns after the row was read. -/
theorem ends_handle_row {row : Option Notification} {value : Unit} :
    Ends (handleRow config collate columnError calls consumer w row) s value next ↔
      Handled config collate calls consumer w s row next := by
  cases row with
  | none =>
      simp only [handleRow, ends_ack]
      constructor
      · rintro rfl
        exact .unknown
      · intro h
        cases h
        rfl
  | some n =>
      cases hskipped : n.status.skipped with
      | true =>
          simp only [handleRow, hskipped, if_true, ends_ack]
          constructor
          · rintro rfl
            exact .finished n hskipped
          · intro h
            cases h <;> simp_all
      | false =>
          simp only [handleRow, hskipped, Bool.false_eq_true, if_false, ends_bind, ends_statement,
            ends_try, ends_try_delivery]
          constructor
          · intro h
            obtain ⟨_, _, ⟨hmark, rfl⟩,
              ⟨providerRef, hsend, hfits, hrecord, hsent, hincrement, rfl⟩ |
              ⟨error, middle, hfails, hends⟩⟩ := h
            · exact .delivered n providerRef hskipped hmark hsend hfits hrecord hsent hincrement
            · cases error with
              | other ex => exact absurd hends ends_throw
              | provider what isTransient =>
                  obtain ⟨hsend, rfl⟩ := fails_try_delivery.mp hfails
                  obtain ⟨hincrement, hfits, hrecord, ⟨hretries, rfl⟩ | ⟨hretries, hdead, rfl⟩⟩ :=
                    ends_catch_provider.mp hends
                  · exact .retried n what isTransient hskipped hmark hsend hincrement hfits hrecord
                      hretries
                  · exact .deadLettered n what isTransient hskipped hmark hsend hincrement hfits
                      hrecord hretries hdead
          · intro h
            cases h with
            | finished _ hfinal => exact absurd hfinal (by simp [hskipped])
            | delivered _ providerRef _ hmark hsend hfits hrecord hsent hincrement =>
                exact ⟨(), _, ⟨hmark, rfl⟩,
                  .inl ⟨providerRef, hsend, hfits, hrecord, hsent, hincrement, rfl⟩⟩
            | retried _ what isTransient _ hmark hsend hincrement hfits hrecord hretries =>
                exact ⟨(), _, ⟨hmark, rfl⟩, .inr ⟨_, _, fails_try_delivery.mpr ⟨hsend, rfl⟩,
                  ends_catch_provider.mpr ⟨hincrement, hfits, hrecord, .inl ⟨hretries, rfl⟩⟩⟩⟩
            | deadLettered _ what isTransient _ hmark hsend hincrement hfits hrecord hretries
                hdead =>
                exact ⟨(), _, ⟨hmark, rfl⟩, .inr ⟨_, _, fails_try_delivery.mpr ⟨hsend, rfl⟩,
                  ends_catch_provider.mpr
                    ⟨hincrement, hfits, hrecord, .inr ⟨hretries, hdead, rfl⟩⟩⟩⟩

/-- `onMessage` reads the message of `w`. -/
structure Reads (channel : Channel) (parse : List UInt8 → Except Exn Json) (deliveryTag : Nat)
    (body : List UInt8) (w : Received) : Prop where
  parsed : parse body = .ok w.body
  decoded : MessageBody.read w.body = .ok w.message
  channel : w.channel = channel
  deliveryTag : w.deliveryTag = deliveryTag

variable {channel : Channel} {parse : List UInt8 → Except Exn Json} {body : List UInt8}

/-- A body is read in one way. -/
theorem Reads.unique {other : Received} (h : Reads channel parse deliveryTag body w)
    (h' : Reads channel parse deliveryTag body other) : other = w := by
  obtain ⟨c, tag, j, message⟩ := w
  obtain ⟨c', tag', j', message'⟩ := other
  have hj : j' = j := Except.ok.inj (h'.parsed.symm.trans h.parsed)
  subst hj
  have hmessage : message' = message := Except.ok.inj (h'.decoded.symm.trans h.decoded)
  have hchannel : c' = c := h'.channel.trans h.channel.symm
  have htag : tag' = tag := h'.deliveryTag.trans h.deliveryTag.symm
  rw [hmessage, hchannel, htag]

/-- A body is dropped, or it is read and handled. -/
theorem on_message_cases (config : Config) (collate : String → String) (columnError : Exn)
    (calls : DeliveryCalls) (consumer : Nat) (channel : Channel)
    (parse : List UInt8 → Except Exn Json) (deliveryTag : Nat) (body : List UInt8) :
    ((∀ w, ¬ Reads channel parse deliveryTag body w) ∧
      onMessage config collate columnError calls consumer channel parse deliveryTag body =
        ack consumer deliveryTag) ∨
    ∃ w, Reads channel parse deliveryTag body w ∧
      onMessage config collate columnError calls consumer channel parse deliveryTag body =
        handleMessage config collate columnError calls consumer w := by
  unfold onMessage
  split
  · rename_i ex hparse
    refine .inl ⟨fun w h => ?_, rfl⟩
    exact absurd (hparse.symm.trans h.parsed) (by simp)
  · rename_i j hparse
    split
    · rename_i ex hbody
      refine .inl ⟨fun w h => ?_, rfl⟩
      obtain rfl := Except.ok.inj (hparse.symm.trans h.parsed)
      exact absurd (hbody.symm.trans h.decoded) (by simp)
    · rename_i message hbody
      exact .inr ⟨{ channel, deliveryTag, body := j, message }, ⟨hparse, hbody, rfl, rfl⟩, rfl⟩

/-- None of the calls that the delivery makes throws; `row` is the row that it reads. -/
def Returns (config : Config) (calls : DeliveryCalls) (w : Received) (row : Option Notification) :
    Prop :=
  calls.findById = .ok () ∧ ∀ n, row = some n → n.status.skipped = false →
    calls.markProcessing = .ok () ∧ calls.incrementAttemptCount = .ok () ∧
    calls.record = .ok () ∧
    match calls.send with
    | .result providerRef => (w.successAttempt providerRef).Fits ∧ calls.markSent = .ok ()
    | .failure what isTransient => (w.failureAttempt what isTransient).Fits ∧
        (w.retries config isTransient = true ∨ calls.markDeadLettered = .ok ())

/-- A delivery that no exception leaves is one whose calls do not throw. -/
theorem exists_handled {row : Option Notification} :
    (calls.findById = .ok () ∧ ∃ next, Handled config collate calls consumer w s row next) ↔
      Returns config calls w row := by
  unfold Returns
  refine and_congr_right fun _ => ?_
  constructor
  · intro h n hrow hskipped
    obtain ⟨next, h⟩ := h
    cases h with
    | unknown => cases hrow
    | finished m hfinal =>
        cases hrow
        exact absurd hfinal (by simp [hskipped])
    | delivered m providerRef _ hmark hsend hfits hrecord hsent hincrement =>
        rw [hsend]
        exact ⟨hmark, hincrement, hrecord, hfits, hsent⟩
    | retried m what isTransient _ hmark hsend hincrement hfits hrecord hretries =>
        rw [hsend]
        exact ⟨hmark, hincrement, hrecord, hfits, .inl hretries⟩
    | deadLettered m what isTransient _ hmark hsend hincrement hfits hrecord hretries hdead =>
        rw [hsend]
        exact ⟨hmark, hincrement, hrecord, hfits, .inr hdead⟩
  · intro h
    cases row with
    | none => exact ⟨_, .unknown⟩
    | some n =>
        cases hskipped : n.status.skipped with
        | true => exact ⟨_, .finished n hskipped⟩
        | false =>
            obtain ⟨hmark, hincrement, hrecord, hrest⟩ := h n rfl hskipped
            cases hsend : calls.send with
            | result providerRef =>
                rw [hsend] at hrest
                exact ⟨_, .delivered n providerRef hskipped hmark hsend hrest.1 hrecord hrest.2
                  hincrement⟩
            | failure what isTransient =>
                rw [hsend] at hrest
                obtain ⟨hfits, hlast⟩ := hrest
                cases hretries : w.retries config isTransient with
                | true => exact ⟨_,
                    .retried n what isTransient hskipped hmark hsend hincrement hfits hrecord
                    hretries⟩
                | false =>
                    have hdead : calls.markDeadLettered = .ok () := by simpa [hretries] using hlast
                    exact ⟨_, .deadLettered n what isTransient hskipped hmark hsend hincrement hfits
                      hrecord hretries hdead⟩

end WorkerThread

/-- The outcome of a delivery is recorded, and its status update or follow-up message is issued. -/
inductive Concluded (calls : DeliveryCalls) (w : Received) (effects : List DeliveryEffect) :
    Prop where
  | sent (providerRef : String) : calls.send = .result providerRef →
      .recorded (w.successAttempt providerRef) ∈ effects → .markedSent ∈ effects →
      Concluded calls w effects
  | retried (what : String) (isTransient : Bool) : calls.send = .failure what isTransient →
      .recorded (w.failureAttempt what isTransient) ∈ effects →
      .published (Topology.retryQueue w.channel w.message.attemptNumber)
        { body := w.retryBody.toJson, priority := w.message.priority } ∈ effects →
      Concluded calls w effects
  | deadLettered (what : String) (isTransient : Bool) : calls.send = .failure what isTransient →
      .recorded (w.failureAttempt what isTransient) ∈ effects →
      .published (Topology.dlq w.channel) { body := w.body } ∈ effects →
      .markedDeadLettered ∈ effects → Concluded calls w effects

def DeliveryEffect.isAck : DeliveryEffect → Bool
  | .acked => true
  | _ => false

/-- What `onMessage` promises: no exception leaves it, the message is acked at most once, and only
if it was dropped as malformed, unknown or already finished, or its outcome is concluded. -/
structure DeliverySound (collate : String → String) (calls : DeliveryCalls)
    (reads : Received → Prop) (before : Database) (result : Except Thrown Unit × Handling) :
    Prop where
  returns : result.1 = .ok ()
  once : (result.2.effects.filter DeliveryEffect.isAck).length ≤ 1
  justified : ∀ effects rest, result.2.effects = effects ++ .acked :: rest →
    ∀ w, reads w → ∀ n, before.findByIdUnder collate w.notificationId = some n →
      n.status.skipped = false → Concluded calls w effects

namespace WorkerThread

variable {config : Config} {collate : String → String} {columnError : Exn} {calls : DeliveryCalls}
  {consumer deliveryTag : Nat} {w : Received} {channel : Channel}
  {parse : List UInt8 → Except Exn Json} {body : List UInt8}
  {database : Database} {broker : Broker} {next : Handling} {row : Option Notification}

/-- If the only ack comes last, everything else comes before it. -/
theorem of_append_ack {effects rest done : List DeliveryEffect}
    (hnone : ∀ effect ∈ done, effect.isAck = false)
    (h : done ++ [.acked] = effects ++ .acked :: rest) :
    effects = done := by
  rcases List.append_eq_append_iff.mp h with ⟨middle, rfl, hrest⟩ | ⟨middle, rfl, hrest⟩
  · cases middle with
    | nil => simp
    | cons effect middle => simp at hrest
  · cases middle with
    | nil => simp
    | cons effect middle =>
        obtain ⟨rfl, _⟩ := List.cons.inj hrest
        exact absurd (hnone .acked (by simp)) (by simp [DeliveryEffect.isAck])

/-- What a delivery has done when it acks. -/
theorem Handled.effects
    (h : Handled config collate calls consumer w ⟨database, broker, []⟩ row next) :
    ∃ done, next.effects = done ++ [.acked] ∧ (∀ effect ∈ done, effect.isAck = false) ∧
      ∀ n, row = some n → n.status.skipped = false → Concluded calls w done := by
  cases h with
  | unknown => exact ⟨[], rfl, by simp, by simp⟩
  | finished n hfinal =>
      refine ⟨[], rfl, by simp, fun m hm hskipped => ?_⟩
      cases hm
      exact absurd hfinal (by simp [hskipped])
  | delivered n providerRef _ _ hsend =>
      refine ⟨[.markedProcessing, .recorded (w.successAttempt providerRef), .markedSent,
        .incrementedAttemptCount], rfl, by simp [DeliveryEffect.isAck], fun _ _ _ => ?_⟩
      exact .sent providerRef hsend (by simp) (by simp)
  | retried n what isTransient _ _ hsend =>
      refine ⟨[.markedProcessing, .incrementedAttemptCount,
        .recorded (w.failureAttempt what isTransient),
        .published (Topology.retryQueue w.channel w.message.attemptNumber)
          { body := w.retryBody.toJson, priority := w.message.priority }], rfl,
        by simp [DeliveryEffect.isAck], fun _ _ _ => ?_⟩
      exact .retried what isTransient hsend (by simp) (by simp)
  | deadLettered n what isTransient _ _ hsend =>
      refine ⟨[.markedProcessing, .incrementedAttemptCount,
        .recorded (w.failureAttempt what isTransient),
        .published (Topology.dlq w.channel) { body := w.body }, .markedDeadLettered], rfl,
        by simp [DeliveryEffect.isAck], fun _ _ _ => ?_⟩
      exact .deadLettered what isTransient hsend (by simp) (by simp) (by simp)

/-- How the delivery of a body that was read returns. -/
theorem ends_handle_message {s : Handling} {value : Unit} :
    Ends (handleMessage config collate columnError calls consumer w) s value next ↔
      calls.findById = .ok () ∧
        Handled config collate calls consumer w s
          (s.database.findByIdUnder collate w.notificationId) next := by
  simp only [handleMessage, ends_bind, ends_lift, ends_get, ends_handle_row]
  constructor
  · intro h
    obtain ⟨_, _, ⟨hfind, rfl⟩, _, _, ⟨rfl, rfl⟩, h⟩ := h
    refine ⟨?_, h⟩
    cases hcall : calls.findById with
    | ok _ => rfl
    | error ex => simp [hcall, Except.mapError] at hfind
  · intro h
    obtain ⟨hfind, h⟩ := h
    exact ⟨(), s, ⟨by simp [hfind, Except.mapError], rfl⟩, s, s, ⟨rfl, rfl⟩, h⟩

/-- Nothing is acked so far. -/
def Unacked (s : Handling) : Prop := ∀ effect ∈ s.effects, effect.isAck = false

theorem keeps_statement {outcome : Except Exn Unit} {change : Database → Database}
    {effect : DeliveryEffect} (heffect : effect.isAck = false) :
    Keeps Unacked (statement outcome change effect) := by
  refine .of_cases (fun s value next hunacked hends => ?_) fun s error next hunacked hfails => ?_
  · obtain ⟨_, rfl⟩ := ends_statement.mp hends
    intro other hother
    rcases List.mem_append.mp hother with hother | hother
    · exact hunacked other hother
    · obtain rfl := List.mem_singleton.mp hother
      exact heffect
  · obtain ⟨_, _, _, rfl⟩ := fails_statement.mp hfails
    exact hunacked

theorem keeps_failing_ack : KeepsFailing Unacked (ack consumer deliveryTag) :=
  fun _ _ _ _ hfails => absurd hfails fails_ack

theorem keeps_publish {queue : String} {envelope : Envelope} :
    Keeps Unacked (publish config queue envelope) := by
  refine .of_cases (fun s value next hunacked hends => ?_)
    fun s error next _ hfails => absurd hfails fails_publish
  obtain rfl := ends_publish.mp hends
  intro other hother
  rcases List.mem_append.mp hother with hother | hother
  · exact hunacked other hother
  · obtain rfl := List.mem_singleton.mp hother
    rfl

theorem keeps_failing_try_delivery :
    KeepsFailing Unacked (tryDelivery collate columnError calls consumer w) := by
  refine keeps_failing_bind (.of_cases (fun _ _ _ hunacked hends => ?_)
    fun _ _ _ hunacked hfails => ?_) fun providerRef => ?_
  · obtain ⟨_, rfl⟩ := ends_send.mp hends
    exact hunacked
  · obtain ⟨_, _, _, _, rfl⟩ := fails_send.mp hfails
    exact hunacked
  · exact keeps_failing_bind (keeps_statement rfl) fun _ => keeps_failing_bind (keeps_statement rfl)
      fun _ => keeps_failing_bind (keeps_statement rfl) fun _ => keeps_failing_ack

theorem keeps_failing_catch_provider (error : Thrown) :
    KeepsFailing Unacked (catchProvider config collate columnError calls consumer w error) := by
  cases error with
  | other ex =>
      intro s error next hunacked hfails
      obtain ⟨_, rfl⟩ := fails_throw.mp hfails
      exact hunacked
  | provider what isTransient =>
      have hretry : Keeps Unacked (scheduleRetry config collate columnError calls w what) :=
        keeps_bind (keeps_statement rfl) fun _ => keeps_publish
      have hdead : Keeps Unacked (deadLetter config collate columnError calls w what isTransient) :=
        keeps_bind (keeps_statement rfl) fun _ => keeps_bind keeps_publish
          fun _ => keeps_statement rfl
      refine keeps_failing_bind (keeps_statement rfl) fun _ => ?_
      show KeepsFailing Unacked (if w.retries config isTransient then _ else _)
      split
      · exact keeps_failing_bind hretry fun _ => keeps_failing_ack
      · exact keeps_failing_bind hdead fun _ => keeps_failing_ack

/-- A delivery that an exception leaves has not acked its message. -/
theorem unacked_of_fails {error : Thrown} (hfails : Fails
    (onMessage config collate columnError calls consumer channel parse deliveryTag body)
      ⟨database, broker, []⟩ error next) : Unacked next := by
  have hkeeps : KeepsFailing Unacked
      (onMessage config collate columnError calls consumer channel parse deliveryTag body) := by
    rcases on_message_cases config collate columnError calls consumer channel parse deliveryTag
      body with ⟨_, honMessage⟩ | ⟨w, _, honMessage⟩ <;> rw [honMessage]
    · exact keeps_failing_ack
    · refine keeps_failing_bind keeps_lift fun _ => keeps_failing_bind keeps_get fun s => ?_
      cases s.database.findByIdUnder collate w.notificationId with
      | none => exact keeps_failing_ack
      | some n =>
          show KeepsFailing Unacked (if n.status.skipped then _ else _)
          split
          · exact keeps_failing_ack
          · have hmark : Keeps Unacked (statement calls.markProcessing
                (·.markProcessingUnder collate w.notificationId) .markedProcessing) :=
              keeps_statement rfl
            exact keeps_failing_bind hmark fun _ =>
              keeps_failing_try keeps_failing_try_delivery keeps_failing_catch_provider
  exact hkeeps _ _ _ (by simp [Unacked]) hfails

/-- A delivery that returns is sound if it acks last and has concluded what it has to. -/
theorem sound_of_ends {reads : Received → Prop} {action : Handles Unit} {s : Handling}
    (done : List DeliveryEffect) (hends : Ends action s () next)
    (heffects : next.effects = done ++ [.acked])
    (hnone : ∀ effect ∈ done, effect.isAck = false)
    (hdone : ∀ w, reads w → ∀ n, database.findByIdUnder collate w.notificationId = some n →
      n.status.skipped = false → Concluded calls w done) :
    DeliverySound collate calls reads database (outcome action s) := by
  rw [show outcome action s = (.ok (), next) from hends]
  refine ⟨rfl, ?_, fun effects rest hsplit w hreads n hfind hskipped => ?_⟩
  · have hfilter : done.filter DeliveryEffect.isAck = [] := by
      simpa [List.filter_eq_nil_iff] using hnone
    rw [heffects, List.filter_append, hfilter]
    show 1 ≤ 1
    omega
  · obtain rfl := of_append_ack hnone (heffects.symm.trans hsplit)
    exact hdone w hreads n hfind hskipped

/-- For every body, every state of the stores, every provider outcome and every choice of the calls
that throw, the delivery is sound if and only if none of the calls that it makes throws. -/
theorem delivery_sound_iff (config : Config) (collate : String → String) (columnError : Exn)
    (calls : DeliveryCalls) (consumer : Nat) (channel : Channel)
    (parse : List UInt8 → Except Exn Json) (deliveryTag : Nat) (body : List UInt8)
    (database : Database) (broker : Broker) :
    DeliverySound collate calls (Reads channel parse deliveryTag body) database
        (outcome (onMessage config collate columnError calls consumer channel parse deliveryTag
          body) ⟨database, broker, []⟩) ↔
      ∀ w, Reads channel parse deliveryTag body w →
        Returns config calls w (database.findByIdUnder collate w.notificationId) := by
  rcases on_message_cases config collate columnError calls consumer channel parse deliveryTag
    body with ⟨hdropped, honMessage⟩ | ⟨w, hreads, honMessage⟩ <;> rw [honMessage]
  · refine iff_of_true ?_ fun w h => absurd h (hdropped w)
    exact sound_of_ends [] (ends_ack.mpr rfl) rfl (by simp) fun w h => absurd h (hdropped w)
  · constructor
    · intro hsound other hother
      obtain rfl := hreads.unique hother
      have hends : Ends (handleMessage config collate columnError calls consumer other)
          ⟨database, broker, []⟩ () _ := Prod.ext hsound.returns rfl
      obtain ⟨hfind, h⟩ := ends_handle_message.mp hends
      exact exists_handled.mp ⟨hfind, _, h⟩
    · intro hreturns
      obtain ⟨hfind, next, h⟩ := exists_handled.mpr (hreturns w hreads)
      obtain ⟨done, heffects, hnone, hdone⟩ := Handled.effects h
      refine sound_of_ends done (ends_handle_message.mpr ⟨hfind, h⟩) heffects hnone
        fun other hother => ?_
      obtain rfl := hreads.unique hother
      exact fun n hrow hskipped => hdone n hrow hskipped

/-- The message of an attempt and the row it is about. -/
def attemptJson (attemptNumber : Int) : Json :=
  MessageBody.toJson { notificationId := "id", attemptNumber, priority := 3 }

def attemptRow : Notification where
  id := "id"
  idempotencyKey := "order-123-welcome"
  channel := .email
  recipient := "user@example.com"
  subject := "Welcome"
  body := "Your account is ready."

/-- The delivery of the message of an attempt. -/
def attemptDelivery (calls : DeliveryCalls) (attemptNumber : Int) : Except Thrown Unit × Handling :=
  outcome (onMessage {} id (.ofText "Out of range value for column 'attempt_number'") calls 0 .email
    (fun _ => .ok (attemptJson attemptNumber)) 1 []) ⟨{ notifications := [attemptRow] }, .empty, []⟩

def AttemptSound (calls : DeliveryCalls) (attemptNumber : Int) : Prop :=
  DeliverySound id calls (Reads .email (fun _ => .ok (attemptJson attemptNumber)) 1 [])
    { notifications := [attemptRow] } (attemptDelivery calls attemptNumber)

/-- An exception of `markSent` ends the process, and so does every delivery of a message whose
number the attempts table refuses: nothing is acked, and the message comes again. The number
2147483648 is such a number, since it is read as -2147483648. -/
theorem delivery_not_sound :
    (¬ AttemptSound
        { send := .result "ref", markSent := .error (.ofText "server has gone away") } 1 ∧
      ¬ AttemptSound { send := .result "ref" } (-1) ∧
      ¬ AttemptSound { send := .failure "timeout" true } (-1) ∧
      ¬ AttemptSound { send := .result "ref" } 2147483648) ∧
    (attemptDelivery { send := .result "ref" } (-1)).2.broker = .empty := by
  refine ⟨⟨fun hsound => ?_, fun hsound => ?_, fun hsound => ?_, fun hsound => ?_⟩, rfl⟩
  · exact nomatch hsound.returns
  · exact nomatch hsound.returns
  · exact nomatch hsound.returns
  · exact nomatch hsound.returns

example : MessageBody.read (attemptJson 4294967297) =
    .ok { notificationId := "id", attemptNumber := 1, priority := 3 } := by
  rw [attemptJson, MessageBody.read_to_json]
  rfl

end WorkerThread

end NotificationDelivery
