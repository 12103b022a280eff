import NotificationDelivery.Library.Stepping
import NotificationDelivery.Service.MessageHandling

/-!
# A delivery, one statement at a time

`onMessage` as a whole and the statements of `Handler.work` do the same. Where the collation tells
the id of the message apart, the statements of a delivery that no other one disturbs lead to where
`onMessage` returns, with the delivery at its end, and to where it throws, with the delivery still
under way (`executes_handle_message`).
-/

namespace NotificationDelivery

open Throwing

namespace WorkerThread

/-- One step of a delivery that no other one disturbs. -/
inductive Alone (config : Config) (calls : DeliveryCalls) (consumer : Nat) (w : Handler) :
    Database × Broker × Option HandlerPc → Database × Broker × Option HandlerPc → Prop where
  | work {db db' : Database} {broker broker' : Broker} {pc : HandlerPc} {pc' : Option HandlerPc} :
      (w.goto pc).work config db broker consumer = some (db', broker', pc') →
      Alone config calls consumer w (db, broker, some pc) (db', broker', pc')
  | send {db : Database} {broker : Broker} (n : Notification) :
      Alone config calls consumer w (db, broker, some (.send n))
        (db, broker, some (Handler.afterSend calls.send))

/-- What the statements of a delivery see. -/
def shown (s : Handling) (pc : Option HandlerPc) : Database × Broker × Option HandlerPc :=
  (s.database, s.broker, pc)

/-- The delivery is at `pc`, and the collation tells its id apart. -/
def At (collate : String → String) (w : Handler) (pc : HandlerPc) (s : Handling)
    (current : Option HandlerPc) : Prop :=
  s.database.ToldApart collate w.notificationId ∧ current = some pc

/-- The delivery has returned. -/
def Over (_ : Unit) (_ : Handling) (current : Option HandlerPc) : Prop := current = none

/-- The delivery is under way. -/
def UnderWay (_ : Thrown) (_ : Handling) (current : Option HandlerPc) : Prop :=
  current.isSome = true

/-- What the handler of a `ProviderException` meets: a `ProviderException` was thrown by `send`. -/
def SendFailed (collate : String → String) (w : Handler) :
    Thrown → Handling → Option HandlerPc → Prop
  | .provider what isTransient => At collate w (.incrementFailure what isTransient)
  | .other _ => fun _ current => current.isSome = true

variable {config : Config} {collate : String → String} {columnError : Exn} {calls : DeliveryCalls}
  {consumer : Nat} {w : Handler} {pc pc' : HandlerPc}

/-- A statement of a repository. `plain` compares ids by their characters. -/
theorem executes_statement {outcome : Except Exn Unit} {change : Database → Database}
    {effect : DeliveryEffect} {fails : Thrown → Handling → Option HandlerPc → Prop}
    (plain : Database → Database)
    (hplain : ∀ db : Database, db.ToldApart collate w.notificationId →
      change db = plain db ∧ (plain db).ToldApart collate w.notificationId)
    (hwork : ∀ db broker, (w.goto pc).work config db broker consumer =
      some (plain db, broker, some pc'))
    (hfails : ∀ ex s current, At collate w pc s current → fails (.other ex) s current) :
    Executes (Alone config calls consumer w) shown (At collate w pc)
      (statement outcome change effect) (fun _ => At collate w pc') fails := by
  have hcall : Executes (Alone config calls consumer w) shown (At collate w pc)
      (liftM (outcome.mapError Thrown.other)) (fun _ => At collate w pc) fails := by
    refine executes_unseen fun error s current hcall hat => ?_
    cases outcome with
    | ok _ => exact absurd hcall (by simp [Except.mapError])
    | error ex =>
        obtain rfl : Thrown.other ex = error := by simpa [Except.mapError] using hcall
        exact hfails ex s current hat
  refine executes_bind hcall fun _ => executes_modify fun s current hat => ?_
  obtain ⟨hapart, rfl⟩ := hat
  obtain ⟨hchange, hkept⟩ := hplain s.database hapart
  refine ⟨some pc', ?_, ?_, rfl⟩
  · refine .single ?_
    show Alone config calls consumer w (s.database, s.broker, some pc)
      (change s.database, s.broker, some pc')
    rw [hchange]
    exact .work (hwork _ _)
  · show (change s.database).ToldApart collate w.notificationId
    rw [hchange]
    exact hkept

/-- `DeliveryAttemptRepository::record` for an attempt of the message. -/
theorem executes_record {attempt : DeliveryAttempt}
    {fails : Thrown → Handling → Option HandlerPc → Prop}
    (hattempt : attempt.notificationId = w.notificationId)
    (hwork : ∀ db broker, (w.goto pc).work config db broker consumer =
      some (db.record attempt, broker, some pc'))
    (hfails : ∀ ex s current, At collate w pc s current → fails (.other ex) s current) :
    Executes (Alone config calls consumer w) shown (At collate w pc)
      (record collate columnError calls attempt) (fun _ => At collate w pc') fails := by
  refine executes_statement (·.record attempt) (fun db hapart => ?_) hwork hfails
  rw [← hattempt] at hapart ⊢
  exact ⟨hapart.record, hapart.of_record⟩

/-- A status update. -/
theorem executes_mark {outcome : Except Exn Unit} {effect : DeliveryEffect}
    {fails : Thrown → Handling → Option HandlerPc → Prop} (status : NotificationStatus)
    (hwork : ∀ db broker, (w.goto pc).work config db broker consumer =
      some (db.setStatus status w.notificationId, broker, some pc'))
    (hfails : ∀ ex s current, At collate w pc s current → fails (.other ex) s current) :
    Executes (Alone config calls consumer w) shown (At collate w pc)
      (statement outcome (·.setStatusUnder collate status w.notificationId) effect)
      (fun _ => At collate w pc') fails :=
  executes_statement (·.setStatus status w.notificationId)
    (fun _ hapart => ⟨hapart.set_status status, hapart.of_set_status status⟩) hwork hfails

/-- `NotificationRepository::incrementAttemptCount`. -/
theorem executes_increment {fails : Thrown → Handling → Option HandlerPc → Prop}
    (hwork : ∀ db broker, (w.goto pc).work config db broker consumer =
      some (db.incrementAttemptCount w.notificationId, broker, some pc'))
    (hfails : ∀ ex s current, At collate w pc s current → fails (.other ex) s current) :
    Executes (Alone config calls consumer w) shown (At collate w pc)
      (statement calls.incrementAttemptCount
        (·.incrementAttemptCountUnder collate w.notificationId) .incrementedAttemptCount)
      (fun _ => At collate w pc') fails :=
  executes_statement (·.incrementAttemptCount w.notificationId)
    (fun _ hapart => ⟨hapart.increment, hapart.of_increment⟩) hwork hfails

/-- A publish on the channel of the worker. -/
theorem executes_publish {queue : String} {envelope : Envelope}
    {fails : Thrown → Handling → Option HandlerPc → Prop}
    (hwork : ∀ db broker, (w.goto pc).work config db broker consumer =
      some (db, broker.publish (.declareAll config) "" queue envelope, some pc')) :
    Executes (Alone config calls consumer w) shown (At collate w pc)
      (publish config queue envelope) (fun _ => At collate w pc') fails := by
  refine executes_modify fun s current hat => ?_
  obtain ⟨hapart, rfl⟩ := hat
  exact ⟨some pc', .single (.work (hwork _ _)), hapart, rfl⟩

/-- The ack ends the delivery. -/
theorem executes_ack {fails : Thrown → Handling → Option HandlerPc → Prop} :
    Executes (Alone config calls consumer w) shown (At collate w .ack)
      (ack consumer w.deliveryTag) Over fails := by
  refine executes_modify fun s current hat => ?_
  obtain ⟨-, rfl⟩ := hat
  exact ⟨none, .single (.work rfl), rfl⟩

/-- `ProviderRouter::send`. -/
theorem executes_send {n : Notification} :
    Executes (Alone config calls consumer w) shown (At collate w (.send n)) (send calls.send)
      (fun providerRef => At collate w (.recordSuccess providerRef)) (SendFailed collate w) := by
  intro s current hat
  obtain ⟨hapart, rfl⟩ := hat
  have hsend : Alone config calls consumer w (shown s (some (.send n)))
      (shown s (some (Handler.afterSend calls.send))) := .send n
  refine ⟨fun providerRef next h => ?_, fun error next h => ?_⟩
  · obtain ⟨hresult, rfl⟩ := ends_send.mp h
    rw [hresult] at hsend
    exact ⟨_, .single hsend, hapart, rfl⟩
  · obtain ⟨what, isTransient, hfailure, rfl, rfl⟩ := fails_send.mp h
    rw [hfailure] at hsend
    exact ⟨_, .single hsend, hapart, rfl⟩

/-- At a program point the delivery is under way. -/
theorem At.under_way {s : Handling} {current : Option HandlerPc} (h : At collate w pc s current) :
    current.isSome = true := by
  rw [h.2]
  rfl

/-- The second `try` block. -/
theorem executes_try_delivery {n : Notification} :
    Executes (Alone config calls consumer w) shown (At collate w (.send n))
      (tryDelivery collate columnError calls consumer w.toReceived) Over
      (SendFailed collate w) := by
  have hother : ∀ pc ex s current, At collate w pc s current →
      SendFailed collate w (.other ex) s current := fun _ _ _ _ hat => hat.under_way
  refine executes_bind executes_send fun providerRef => ?_
  refine executes_bind (executes_record rfl (fun _ _ => rfl) (hother _)) fun _ => ?_
  refine executes_bind (executes_mark .sent (fun _ _ => rfl) (hother _)) fun _ => ?_
  refine executes_bind (executes_increment (fun _ _ => rfl) (hother _)) fun _ => ?_
  exact executes_ack

/-- The retry branch. -/
theorem executes_schedule_retry {what : String} :
    Executes (Alone config calls consumer w) shown (At collate w (.recordRetry what))
      (scheduleRetry config collate columnError calls w.toReceived what)
      (fun _ => At collate w .ack) UnderWay := by
  refine executes_bind (executes_record rfl (fun _ _ => rfl) fun _ _ _ => At.under_way) fun _ => ?_
  exact executes_publish fun _ _ => rfl

/-- The other branch. -/
theorem executes_dead_letter {what : String} {isTransient : Bool} :
    Executes (Alone config calls consumer w) shown (At collate w (.recordDead what isTransient))
      (deadLetter config collate columnError calls w.toReceived what isTransient)
      (fun _ => At collate w .ack) UnderWay := by
  refine executes_bind (executes_record rfl (fun _ _ => rfl) fun _ _ _ => At.under_way) fun _ => ?_
  refine executes_bind (executes_publish fun _ _ => rfl) fun _ => ?_
  exact executes_mark .deadLettered (fun _ _ => rfl) fun _ _ _ => At.under_way

/-- The handler of a `ProviderException`, in the branch that the machine takes as well. -/
theorem executes_catch_provider (error : Thrown) :
    Executes (Alone config calls consumer w) shown (SendFailed collate w error)
      (catchProvider config collate columnError calls consumer w.toReceived error) Over
      UnderWay := by
  cases error with
  | other ex => exact executes_throw fun _ _ h => h
  | provider what isTransient =>
      have hincrement : ∀ db broker,
          (w.goto (.incrementFailure what isTransient)).work config db broker consumer =
            some (db.incrementAttemptCount w.notificationId, broker,
              some (if w.retries config isTransient then .recordRetry what
                else .recordDead what isTransient)) := fun _ _ => rfl
      refine executes_bind (executes_increment hincrement fun _ _ _ => At.under_way) fun _ => ?_
      by_cases hretries : w.retries config isTransient = true
      · simp only [hretries, if_true]
        exact executes_bind executes_schedule_retry fun _ => executes_ack
      · simp only [hretries]
        exact executes_bind executes_dead_letter fun _ => executes_ack

/-- `onMessage` after the row was read. -/
theorem executes_handle_row {row : Option Notification} {s : Handling}
    (hrow : s.database.findById w.notificationId = row) :
    Executes (Alone config calls consumer w) shown
      (fun start current => s = start ∧ At collate w .findById start current)
      (handleRow config collate columnError calls consumer w.toReceived row) Over UnderWay := by
  have hreads : ∀ pc, (w.goto .findById).work config s.database s.broker consumer =
      some (s.database, s.broker, some pc) → ∀ start current,
        s = start ∧ At collate w .findById start current →
        ∃ q, Relation.ReflTransGen (Alone config calls consumer w) (shown start current)
          (shown start q) ∧ At collate w pc start q := by
    intro pc hwork start current hat
    obtain ⟨rfl, hapart, rfl⟩ := hat
    exact ⟨some pc, .single (.work hwork), hapart, rfl⟩
  cases row with
  | none =>
      refine executes_of_moves (hreads .ack ?_) executes_ack
      simp [Handler.work, hrow]
  | some n =>
      show Executes _ _ _ (if n.status.skipped then _ else _) _ _
      split
      · rename_i hskipped
        refine executes_of_moves (hreads .ack ?_) executes_ack
        simp [Handler.work, hrow, hskipped]
      · rename_i hskipped
        refine executes_of_moves (hreads (.markProcessing n) ?_) ?_
        · simp [Handler.work, hrow, hskipped]
        · refine executes_bind
            (executes_mark .processing (fun _ _ => rfl) fun _ _ _ => At.under_way) fun _ => ?_
          exact executes_try executes_try_delivery executes_catch_provider

/-- The statements of a delivery execute `onMessage` after the body was read. -/
theorem executes_handle_message :
    Executes (Alone config calls consumer w) shown (At collate w .findById)
      (handleMessage config collate columnError calls consumer w.toReceived) Over UnderWay := by
  have hcall : Executes (Alone config calls consumer w) shown (At collate w .findById)
      (liftM (calls.findById.mapError Thrown.other)) (fun _ => At collate w .findById) UnderWay :=
    executes_unseen fun _ _ _ _ hat => hat.under_way
  refine executes_bind hcall fun _ => executes_bind executes_get fun s => ?_
  intro start current hat
  obtain ⟨rfl, hat⟩ := hat
  rw [hat.1.find_by_id]
  exact executes_handle_row rfl start current ⟨rfl, hat⟩

end WorkerThread

end NotificationDelivery
