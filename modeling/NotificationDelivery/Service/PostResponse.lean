import NotificationDelivery.Service.HttpServer

/-!
# The answer to a POST request

The same branch of `HttpServer::handleConnection` taken as a whole, with the outcome of every
call into the database and the broker as an input. The main theorem, `response_truthful_iff`, says
for which requests the status of the answer is right.
-/

namespace NotificationDelivery

/-- How the calls of one request end: normally or with an exception. A publish that ends
normally returns whether the channel took the message. -/
structure CallOutcomes where
  findByIdempotencyKey : Except Exn Unit := .ok ()
  startTransaction : Except Exn Unit := .ok ()
  insertNotification : Except Exn Unit := .ok ()
  insertOutbox : Except Exn Unit := .ok ()
  commit : Except Exn Unit := .ok ()
  rollback : Except Exn Unit := .ok ()
  publish : Except Exn Bool := .ok true

/-- The committed tables and the queues. -/
structure Stores where
  database : Database := {}
  broker : Broker := Registry.empty

structure Response where
  status : Nat
  body : Json

/-- Code that may throw; what it did to the stores before it threw remains. -/
abbrev Action := ExceptT Exn (StateM Stores)

namespace Action

variable {Value Result : Type} {first : Action Value} {rest : Value → Action Result}
  {value : Value} {ex : Exn} {s next : Stores}

/-- A call that only returns or throws. -/
theorem run_call (outcome : Except Exn Value) (s : Stores) :
    (liftM outcome : Action Value).run s = (outcome, s) := by
  cases outcome <;> rfl

theorem run_bind_ok (h : first.run s = (.ok value, next)) :
    (first >>= rest).run s = (rest value).run next := by
  show (match first.run s with
    | (outcome, next) => ExceptT.bindCont rest outcome next) = _
  rw [h]
  rfl

/-- An exception skips the rest. -/
theorem run_bind_error (h : first.run s = (.error ex, next)) :
    (first >>= rest).run s = (.error ex, next) := by
  show (match first.run s with
    | (outcome, next) => ExceptT.bindCont rest outcome next) = _
  rw [h]
  rfl

end Action

/-- `notificationToJson`. -/
def Notification.toJson (n : Notification) : Json :=
  .obj [("id", .str n.id), ("idempotencyKey", .str n.idempotencyKey),
    ("channel", .str n.channel.toString), ("priority", .str n.priority.toString),
    ("recipient", .str n.recipient), ("subject", .str n.subject),
    ("status", .str n.status.toString), ("attemptCount", .int n.attemptCount)]

/-- The transaction of `insertWithOutbox`. The rows that it inserts reach the tables at its
commit. -/
def insertTransaction (calls : CallOutcomes) (n : Notification) : Action Unit := do
  calls.startTransaction
  try
    calls.insertNotification
    calls.insertOutbox
    calls.commit
    modify fun s => { s with database := s.database.commitInsert n }
  catch ex =>
    calls.rollback
    throw ex

/-- `NotificationRepository::insertWithOutbox`. -/
def insertWithOutbox (collate : String → String) (calls : CallOutcomes) (uuid : String)
    (input : Notification) : Action Notification := do
  calls.findByIdempotencyKey
  match (← get).database.findByIdempotencyKey collate input.idempotencyKey with
  | some existing => return existing
  | none =>
      insertTransaction calls (input.inserted uuid)
      return input.inserted uuid

/-- `RabbitMQPublisher::publishToExchange`, which drops what `publish` returns. -/
def publishToExchange (config : Config) (calls : CallOutcomes) (saved : Notification) :
    Action Unit := do
  let accepted ← calls.publish
  if accepted then
    modify fun s => { s with broker := s.broker.announce config saved }

/-- The answer of the `catch` block; `dump` throws on a text that is not UTF-8, and then there is
no answer. -/
def errorResponse (ex : Exn) : Option Response :=
  (String.fromUTF8? ⟨ex.what.toArray⟩).map fun text =>
    { status := 400, body := .obj [("error", .str text)] }

/-- The `try` block of the handler. `keyUuid` and `uuid` are the ids it draws. -/
def acceptNotification (config : Config) (collate : String → String)
    (parse : List UInt8 → Except Exn Json) (keyUuid uuid : String) (calls : CallOutcomes)
    (reqBody : List UInt8) : Action Notification := do
  let j ← parse reqBody
  let n ← decodeRequest keyUuid j
  let saved ← insertWithOutbox collate calls uuid n
  publishToExchange config calls saved
  return saved

/-- `handleConnection` for `POST /api/notifications`: the answer and what is stored after it. -/
def handleConnection (config : Config) (collate : String → String)
    (parse : List UInt8 → Except Exn Json) (keyUuid uuid : String) (calls : CallOutcomes)
    (reqBody : List UInt8) (s : Stores) : Option Response × Stores :=
  match (acceptNotification config collate parse keyUuid uuid calls reqBody).run s with
  | (.ok saved, after) => (some { status := 202, body := saved.toJson }, after)
  | (.error ex, after) => (errorResponse ex, after)

/-- A text of characters is answered. -/
theorem error_response_of_text (text : String) :
    errorResponse (.ofText text) = some { status := 400, body := .obj [("error", .str text)] } := by
  have hvalid : ByteArray.IsValidUTF8 ⟨text.toUTF8.data⟩ := text.isValidUTF8
  unfold errorResponse Exn.ofText String.fromUTF8?
  simp only [Array.toArray_toList]
  split
  · rfl
  · contradiction

variable {config : Config} {collate : String → String} {parse : List UInt8 → Except Exn Json}
  {keyUuid uuid : String} {calls : CallOutcomes} {reqBody : List UInt8} {s next : Stores}
  {input saved : Notification}

/-- No statement of the transaction throws. -/
def CallOutcomes.Commits (calls : CallOutcomes) : Prop :=
  calls.startTransaction = .ok () ∧ calls.insertNotification = .ok () ∧
    calls.insertOutbox = .ok () ∧ calls.commit = .ok ()

/-- The transaction commits both rows or throws and stores nothing. -/
theorem insert_transaction_cases (calls : CallOutcomes) (n : Notification) (s : Stores) :
    (calls.Commits ∧ (insertTransaction calls n).run s =
      (.ok (), { s with database := s.database.commitInsert n })) ∨
    (¬ calls.Commits ∧ ∃ ex, (insertTransaction calls n).run s = (.error ex, s)) := by
  obtain ⟨find, start, insertNotification, insertOutbox, commit, rollback, publish⟩ := calls
  cases start with
  | error ex => exact .inr ⟨by simp [CallOutcomes.Commits], ex, rfl⟩
  | ok _ =>
      cases insertNotification with
      | error ex =>
          refine .inr ⟨by simp [CallOutcomes.Commits], ?_⟩
          cases rollback <;> exact ⟨_, rfl⟩
      | ok _ =>
          cases insertOutbox with
          | error ex =>
              refine .inr ⟨by simp [CallOutcomes.Commits], ?_⟩
              cases rollback <;> exact ⟨_, rfl⟩
          | ok _ =>
              cases commit with
              | error ex =>
                  refine .inr ⟨by simp [CallOutcomes.Commits], ?_⟩
                  cases rollback <;> exact ⟨_, rfl⟩
              | ok _ => exact .inl ⟨⟨rfl, rfl, rfl, rfl⟩, rfl⟩

/-- What `insertWithOutbox` returns and stores when it returns. -/
inductive Saves (collate : String → String) (calls : CallOutcomes) (uuid : String)
    (input : Notification) (s : Stores) : Notification → Stores → Prop where
  | known (existing : Notification) : calls.findByIdempotencyKey = .ok () →
      s.database.findByIdempotencyKey collate input.idempotencyKey = some existing →
      Saves collate calls uuid input s existing s
  | inserted : calls.findByIdempotencyKey = .ok () →
      s.database.findByIdempotencyKey collate input.idempotencyKey = none → calls.Commits →
      Saves collate calls uuid input s (input.inserted uuid)
        { s with database := s.database.commitInsert (input.inserted uuid) }

/-- There is one way to save the notification. -/
theorem Saves.unique {saved' : Notification} {next' : Stores}
    (h : Saves collate calls uuid input s saved next)
    (h' : Saves collate calls uuid input s saved' next') : saved = saved' ∧ next = next' := by
  cases h with
  | known _ _ hrow =>
      cases h' with
      | known _ _ hrow' => exact ⟨Option.some.inj (hrow.symm.trans hrow'), rfl⟩
      | inserted _ hrow' => exact absurd (hrow.symm.trans hrow') (by simp)
  | inserted _ hrow =>
      cases h' with
      | known _ _ hrow' => exact absurd (hrow.symm.trans hrow') (by simp)
      | inserted => exact ⟨rfl, rfl⟩

/-- `insertWithOutbox` returns with its row stored or throws and stores nothing. -/
theorem insert_with_outbox_cases (collate : String → String) (calls : CallOutcomes) (uuid : String)
    (input : Notification) (s : Stores) :
    (∃ saved next, Saves collate calls uuid input s saved next ∧
      (insertWithOutbox collate calls uuid input).run s = (.ok saved, next)) ∨
    ((∀ saved next, ¬ Saves collate calls uuid input s saved next) ∧
      ∃ ex, (insertWithOutbox collate calls uuid input).run s = (.error ex, s)) := by
  cases hfind : calls.findByIdempotencyKey with
  | error ex =>
      refine .inr ⟨?_, ex, by simp only [insertWithOutbox, hfind]; rfl⟩
      intro saved next h
      cases h <;> simp_all
  | ok _ =>
      have hrun : (insertWithOutbox collate calls uuid input).run s =
          ExceptT.run (match s.database.findByIdempotencyKey collate input.idempotencyKey with
            | some existing => pure existing
            | none => do
                insertTransaction calls (input.inserted uuid)
                pure (input.inserted uuid) : Action Notification) s := by
        simp only [insertWithOutbox, hfind]
        rfl
      cases hrow : s.database.findByIdempotencyKey collate input.idempotencyKey with
      | some existing =>
          rw [hrow] at hrun
          exact .inl ⟨existing, s, .known existing hfind hrow, hrun⟩
      | none =>
          simp only [hrow] at hrun
          rcases insert_transaction_cases calls (input.inserted uuid) s with
            ⟨hcommits, hinsert⟩ | ⟨hthrows, ex, hinsert⟩
          · refine .inl ⟨_, _, .inserted hfind hrow hcommits, ?_⟩
            rw [hrun, Action.run_bind_ok hinsert]
            rfl
          · refine .inr ⟨?_, ex, hrun.trans (Action.run_bind_error hinsert)⟩
            intro saved next h
            cases h with
            | known existing _ hknown => simp [hrow] at hknown
            | inserted _ _ hcommits => exact hthrows hcommits

/-- What the handler does with the answer of `publish`: it is not looked at. -/
theorem publish_to_exchange_ok {accepted : Bool} (h : calls.publish = .ok accepted) :
    (publishToExchange config calls saved).run s = (.ok (),
      if accepted then { s with broker := s.broker.announce config saved } else s) := by
  simp only [publishToExchange, h]
  cases accepted <;> rfl

theorem publish_to_exchange_error {ex : Exn} (h : calls.publish = .error ex) :
    (publishToExchange config calls saved).run s = (.error ex, s) := by
  simp only [publishToExchange, h]
  rfl

/-- The notification that the request body asks for. -/
def Requests (parse : List UInt8 → Except Exn Json) (keyUuid : String) (reqBody : List UInt8)
    (input : Notification) : Prop :=
  ∃ j, parse reqBody = .ok j ∧ decodeRequest keyUuid j = .ok input

/-- Everything a request can do. -/
inductive Answered (config : Config) (collate : String → String)
    (parse : List UInt8 → Except Exn Json) (keyUuid uuid : String) (calls : CallOutcomes)
    (reqBody : List UInt8) (s : Stores) : Option Response × Stores → Prop where
  | failed (ex : Exn) : (∀ input, Requests parse keyUuid reqBody input →
      ∀ saved next, ¬ Saves collate calls uuid input s saved next) →
      Answered config collate parse keyUuid uuid calls reqBody s (errorResponse ex, s)
  | unpublished (input saved : Notification) (next : Stores) (ex : Exn) :
      Requests parse keyUuid reqBody input → Saves collate calls uuid input s saved next →
      calls.publish = .error ex →
      Answered config collate parse keyUuid uuid calls reqBody s (errorResponse ex, next)
  | accepted (input saved : Notification) (next : Stores) (taken : Bool) :
      Requests parse keyUuid reqBody input → Saves collate calls uuid input s saved next →
      calls.publish = .ok taken →
      Answered config collate parse keyUuid uuid calls reqBody s
        (some { status := 202, body := saved.toJson },
          if taken then { next with broker := next.broker.announce config saved } else next)

theorem handle_connection_cases (config : Config) (collate : String → String)
    (parse : List UInt8 → Except Exn Json) (keyUuid uuid : String) (calls : CallOutcomes)
    (reqBody : List UInt8) (s : Stores) :
    Answered config collate parse keyUuid uuid calls reqBody s
      (handleConnection config collate parse keyUuid uuid calls reqBody s) := by
  unfold handleConnection acceptNotification
  cases hparse : parse reqBody with
  | error ex =>
      rw [Action.run_bind_error (Action.run_call _ s)]
      refine .failed ex ?_
      rintro input ⟨j, hj, _⟩
      simp [hparse] at hj
  | ok j =>
      rw [Action.run_bind_ok (Action.run_call _ s)]
      cases hdecode : decodeRequest keyUuid j with
      | error ex =>
          rw [Action.run_bind_error (Action.run_call _ s)]
          refine .failed ex ?_
          rintro input ⟨j', hj, hinput⟩
          obtain rfl := Except.ok.inj (hparse.symm.trans hj)
          simp [hdecode] at hinput
      | ok input =>
          rw [Action.run_bind_ok (Action.run_call _ s)]
          have hrequest : Requests parse keyUuid reqBody input := ⟨j, hparse, hdecode⟩
          rcases insert_with_outbox_cases collate calls uuid input s with
            ⟨saved, next, hsaves, hinsert⟩ | ⟨hnot, ex, hinsert⟩
          · rw [Action.run_bind_ok hinsert]
            cases hpublish : calls.publish with
            | error ex =>
                rw [Action.run_bind_error (publish_to_exchange_error hpublish)]
                exact .unpublished input saved next ex hrequest hsaves hpublish
            | ok taken =>
                rw [Action.run_bind_ok (publish_to_exchange_ok hpublish)]
                exact .accepted input saved next taken hrequest hsaves hpublish
          · rw [Action.run_bind_error hinsert]
            refine .failed ex ?_
            rintro input' ⟨j', hj, hinput⟩ saved next
            obtain rfl := Except.ok.inj (hparse.symm.trans hj)
            obtain rfl := Except.ok.inj (hdecode.symm.trans hinput)
            exact hnot saved next

theorem Requests.unique {other : Notification} (h : Requests parse keyUuid reqBody input)
    (hother : Requests parse keyUuid reqBody other) : other = input := by
  obtain ⟨j, hj, hinput⟩ := h
  obtain ⟨j', hj', hother⟩ := hother
  obtain rfl := Except.ok.inj (hj.symm.trans hj')
  exact Except.ok.inj (hother.symm.trans hinput)

/-- The status of an answer says what the request did: 202 that the notification it names is
stored with its outbox row and announced, and an error that nothing changed. -/
structure Truthful (collate : String → String) (parse : List UInt8 → Except Exn Json)
    (keyUuid : String) (reqBody : List UInt8) (before after : Stores) (response : Response) :
    Prop where
  accepted : response.status = 202 → ∃ input saved, Requests parse keyUuid reqBody input ∧
    response.body = saved.toJson ∧
    collate saved.idempotencyKey = collate input.idempotencyKey ∧
    saved ∈ after.database.notifications ∧
    (∃ event ∈ after.database.outboxEvents, event.notificationId = saved.id) ∧
    ∃ envelope message, MessageBody.fromJson envelope.body = .ok message ∧
      message.notificationId = saved.id ∧
      after.broker = before.broker.enqueue (Topology.mainQueue saved.channel) envelope
  refused : 400 ≤ response.status → after = before

/-- The requests that are answered wrongly: the channel does not take the message of a
notification that is stored, or throws after a new one is committed, or takes the message of a
known one that has no outbox row. -/
inductive Misreports (collate : String → String) (parse : List UInt8 → Except Exn Json)
    (keyUuid : String) (calls : CallOutcomes) (reqBody : List UInt8) (s : Stores) : Prop where
  | known (input existing : Notification) : Requests parse keyUuid reqBody input →
      calls.findByIdempotencyKey = .ok () →
      s.database.findByIdempotencyKey collate input.idempotencyKey = some existing →
      (calls.publish = .ok false ∨
        calls.publish = .ok true ∧
          ∀ event ∈ s.database.outboxEvents, event.notificationId ≠ existing.id) →
      Misreports collate parse keyUuid calls reqBody s
  | inserted (input : Notification) : Requests parse keyUuid reqBody input →
      calls.findByIdempotencyKey = .ok () →
      s.database.findByIdempotencyKey collate input.idempotencyKey = none → calls.Commits →
      (calls.publish = .ok false ∨
        ∃ ex, calls.publish = .error ex ∧ (errorResponse ex).isSome) →
      Misreports collate parse keyUuid calls reqBody s

/-- An error is right exactly if nothing changed. -/
theorem error_truthful_iff {ex : Exn} {after : Stores} {response : Response}
    (hresponse : response ∈ errorResponse ex) :
    Truthful collate parse keyUuid reqBody s after response ↔ after = s := by
  obtain ⟨text, _, rfl⟩ := Option.map_eq_some_iff.mp hresponse
  constructor
  · intro h
    exact h.refused (Nat.le_refl 400)
  · intro hafter
    refine ⟨fun hstatus => ?_, fun _ => hafter⟩
    exact absurd hstatus (by simp)

namespace Saves

/-- The row that was found or inserted has the requested key and is stored. -/
theorem stored (h : Saves collate calls uuid input s saved next) :
    collate saved.idempotencyKey = collate input.idempotencyKey ∧
      saved ∈ next.database.notifications ∧ next.broker = s.broker := by
  cases h with
  | known _ _ hknown =>
      obtain ⟨hmem, hkey⟩ := Database.mem_of_find_key hknown
      exact ⟨hkey, hmem, rfl⟩
  | inserted => exact ⟨rfl, by simp [Database.commitInsert], rfl⟩

/-- Which requests that save their notification are answered wrongly, by how the publish ends. -/
theorem misreports_iff (h : Saves collate calls uuid input s saved next)
    (hrequest : Requests parse keyUuid reqBody input) :
    Misreports collate parse keyUuid calls reqBody s ↔
      calls.publish = .ok false ∨
      (calls.publish = .ok true ∧
        ∀ event ∈ next.database.outboxEvents, event.notificationId ≠ saved.id) ∨
      ∃ ex, calls.publish = .error ex ∧ (errorResponse ex).isSome ∧ next ≠ s := by
  cases h with
  | known _ hfind hknown =>
      constructor
      · intro hmis
        cases hmis with
        | known other existing hother _ hrow hpublish =>
            obtain rfl := hrequest.unique hother
            obtain rfl := Option.some.inj (hknown.symm.trans hrow)
            exact hpublish.imp_right .inl
        | inserted other hother _ hrow =>
            obtain rfl := hrequest.unique hother
            simp [hknown] at hrow
      · intro h
        rcases h with hrefused | hunrecorded | ⟨_, _, _, hchanged⟩
        · exact .known input saved hrequest hfind hknown (.inl hrefused)
        · exact .known input saved hrequest hfind hknown (.inr hunrecorded)
        · exact absurd rfl hchanged
  | inserted hfind hknown hcommits =>
      have houtbox : ∃ event ∈ (s.database.commitInsert (input.inserted uuid)).outboxEvents,
          event.notificationId = (input.inserted uuid).id :=
        ⟨(input.inserted uuid).outbox, by simp [Database.commitInsert], rfl⟩
      have hchanged :
          ({ s with database := s.database.commitInsert (input.inserted uuid) } : Stores)
          ≠ s := by
        intro hsame
        have hlength := congrArg (fun s => s.database.notifications.length) hsame
        simp [Database.commitInsert] at hlength
      constructor
      · intro hmis
        cases hmis with
        | known other existing hother _ hrow =>
            obtain rfl := hrequest.unique hother
            simp [hknown] at hrow
        | inserted _ _ _ _ _ hpublish =>
            rcases hpublish with hrefused | ⟨ex, hthrows, hsome⟩
            · exact .inl hrefused
            · exact .inr (.inr ⟨ex, hthrows, hsome, hchanged⟩)
      · intro h
        rcases h with hrefused | ⟨_, hunrecorded⟩ | ⟨ex, hthrows, hsome, _⟩
        · exact .inserted input hrequest hfind hknown hcommits (.inl hrefused)
        · obtain ⟨event, hmem, hid⟩ := houtbox
          exact absurd hid (hunrecorded event hmem)
        · exact .inserted input hrequest hfind hknown hcommits (.inr ⟨ex, hthrows, hsome⟩)

/-- 202 is right exactly if the channel took the message and the row has its outbox row. -/
theorem accepted_truthful_iff (h : Saves collate calls uuid input s saved next)
    (hrequest : Requests parse keyUuid reqBody input) (taken : Bool) :
    Truthful collate parse keyUuid reqBody s
        (if taken then { next with broker := next.broker.announce config saved } else next)
        { status := 202, body := saved.toJson } ↔
      taken = true ∧ ∃ event ∈ next.database.outboxEvents, event.notificationId = saved.id := by
  obtain ⟨hkey, hmem, hbroker⟩ := h.stored
  constructor
  · intro htruthful
    obtain ⟨_, other, _, hbody, _, _, houtbox, envelope, _, _, _, henqueued⟩ :=
      htruthful.accepted rfl
    have hid : saved.id = other.id := by
      simp only [Notification.toJson, Json.obj.injEq, List.cons.injEq, Prod.mk.injEq,
        Json.str.injEq] at hbody
      exact hbody.1.2
    cases taken with
    | false =>
        -- an enqueue takes a delivery number, and nothing was enqueued
        have hnext : next.broker.next = s.broker.next + 1 := congrArg Registry.next henqueued
        rw [hbroker] at hnext
        omega
    | true => exact ⟨rfl, hid ▸ houtbox⟩
  · intro h
    obtain ⟨rfl, houtbox⟩ := h
    refine ⟨fun _ => ?_, fun hstatus => absurd hstatus (by simp)⟩
    refine ⟨input, saved, hrequest, rfl, hkey, hmem, houtbox,
      { body := saved.announcement.toJson, priority := saved.priority.weight },
      saved.announcement, MessageBody.from_json_to_json _, rfl, ?_⟩
    show next.broker.announce config saved = _
    rw [hbroker, Broker.announce_eq]

end Saves

/-- For every request body, every state of the stores and every outcome of the calls, the status
of the answer is right exactly if the request is not one of `Misreports`. -/
theorem response_truthful_iff (config : Config) (collate : String → String)
    (parse : List UInt8 → Except Exn Json) (keyUuid uuid : String) (calls : CallOutcomes)
    (reqBody : List UInt8) (s : Stores) :
    (∀ response ∈ (handleConnection config collate parse keyUuid uuid calls reqBody s).1,
      Truthful collate parse keyUuid reqBody s
        (handleConnection config collate parse keyUuid uuid calls reqBody s).2 response) ↔
      ¬ Misreports collate parse keyUuid calls reqBody s := by
  have hcases := handle_connection_cases config collate parse keyUuid uuid calls reqBody s
  generalize handleConnection config collate parse keyUuid uuid calls reqBody s = result at hcases
  cases hcases with
  | failed ex hnot =>
      refine iff_of_true (fun response hresponse => (error_truthful_iff hresponse).mpr rfl) ?_
      intro hmis
      cases hmis with
      | known input existing hrequest hfind hrow =>
          exact hnot input hrequest _ _ (.known _ hfind hrow)
      | inserted input hrequest hfind hrow hcommits =>
          exact hnot input hrequest _ _ (.inserted hfind hrow hcommits)
  | unpublished input saved next ex hrequest hsaves hpublish =>
      rw [hsaves.misreports_iff hrequest]
      simp only [hpublish, reduceCtorEq, false_and, false_or, Except.error.injEq, exists_eq_left']
      constructor
      · rintro htruthful ⟨hsome, hchanged⟩
        obtain ⟨response, hresponse⟩ := Option.isSome_iff_exists.mp hsome
        exact hchanged ((error_truthful_iff hresponse).mp (htruthful response hresponse))
      · intro hnot response hresponse
        have hsome := Option.isSome_iff_exists.mpr ⟨response, hresponse⟩
        exact (error_truthful_iff hresponse).mpr (not_not.mp fun hchanged => hnot ⟨hsome, hchanged⟩)
  | accepted input saved next taken hrequest hsaves hpublish =>
      rw [hsaves.misreports_iff hrequest]
      simp only [Option.mem_def, Option.some.injEq, forall_eq',
        hsaves.accepted_truthful_iff hrequest, hpublish]
      cases taken <;> simp

/-- A request without an idempotency key, as it is sent and as it is parsed. -/
def requestText : String :=
  "\x7b\"channel\":\"EMAIL\",\"recipient\":\"user@example.com\",\"body\":\"Ready.\"\x7d"

def requestJson : Json :=
  .obj [("channel", .str "EMAIL"), ("recipient", .str "user@example.com"), ("body", .str "Ready.")]

/-- The answer to `requestText` on empty stores, with the given outcome of the publish. -/
def answerTo (publish : Except Exn Bool) : Option Response × Stores :=
  handleConnection {} id (fun _ => .ok requestJson) "key" "id" { publish }
    requestText.toUTF8.data.toList {}

/-- The answer is right. -/
def AnswersTruthfully (publish : Except Exn Bool) : Prop :=
  ∀ response ∈ (answerTo publish).1, Truthful id (fun _ => .ok requestJson) "key"
    requestText.toUTF8.data.toList {} (answerTo publish).2 response

/-- A message that the channel refuses is answered with 202, and a publish that throws after the
commit with 400. -/
theorem response_not_truthful :
    ¬ AnswersTruthfully (.ok false) ∧ ¬ AnswersTruthfully (.error (.ofText "channel closed")) := by
  constructor
  · intro htruthful
    obtain ⟨_, _, _, _, _, _, _, _, _, _, _, henqueued⟩ := (htruthful _ rfl).accepted rfl
    have hnext : 0 = 0 + 1 := congrArg Registry.next henqueued
    exact absurd hnext (by decide)
  · intro htruthful
    have hsame := (htruthful _ (error_response_of_text "channel closed")).refused (Nat.le_refl 400)
    have hlength := congrArg (fun s => s.database.notifications.length) hsame
    exact absurd hlength (by decide)

end NotificationDelivery
