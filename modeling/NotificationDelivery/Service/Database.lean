import NotificationDelivery.Library.Table
import NotificationDelivery.Models

/-!
# The tables

After `sql/schema.sql` and the statements of `src/NotificationRepository.cpp` and
`src/DeliveryAttemptRepository.cpp`. A `Database` holds the committed rows. The rows that an
open transaction has inserted belong to the session that holds it until it commits, and no
other session reads them. Ids and idempotency keys are compared under the collation of the
schema, which is a parameter `collate` that sends each text to its sort key.
-/

namespace NotificationDelivery

inductive OutboxStatus where
  | pending
  | published
  | failed
  deriving DecidableEq, Repr

/-- A row of `outbox_events`, without its surrogate id and time stamps. -/
structure OutboxEvent where
  notificationId : String
  eventType : String := "NOTIFICATION_CREATED"
  payload : String
  status : OutboxStatus := .pending
  deriving DecidableEq, Repr

structure Database where
  notifications : List Notification := []
  deliveryAttempts : List DeliveryAttempt := []
  outboxEvents : List OutboxEvent := []
  deriving DecidableEq, Repr

/-- The unique key of `delivery_attempts`, as the collation compares it. -/
def DeliveryAttempt.keyUnder (collate : String → String) (attempt : DeliveryAttempt) :
    String × Int :=
  (collate attempt.notificationId, attempt.attemptNumber)

def DeliveryAttempt.key : DeliveryAttempt → String × Int := keyUnder fun id => id

/-- The row that the `INSERT` of `insertWithOutbox` writes for `in`. -/
def Notification.inserted (input : Notification) (id : String) : Notification :=
  { input with id, status := .pending, attemptCount := 0 }

/-- The outbox row written in the same transaction. -/
def Notification.outbox (n : Notification) : OutboxEvent where
  notificationId := n.id
  payload := n.id

/-- The primary key or the unique key of two rows collide. -/
def Notification.Collides (collate : String → String) (n m : Notification) : Prop :=
  n.id = m.id ∨ collate n.idempotencyKey = collate m.idempotencyKey

instance (collate : String → String) (n m : Notification) : Decidable (n.Collides collate m) :=
  inferInstanceAs (Decidable (_ ∨ _))

/-- Two rows collide in either order. -/
theorem Notification.Collides.symm {collate : String → String} {n m : Notification}
    (h : n.Collides collate m) : m.Collides collate n :=
  h.imp Eq.symm Eq.symm

namespace Database

/-- The commit of the transaction of `insertWithOutbox`, which inserted one notification and one
outbox row. -/
def commitInsert (db : Database) (n : Notification) : Database :=
  { db with
    notifications := db.notifications ++ [n]
    outboxEvents := db.outboxEvents ++ [n.outbox] }

section Statements

variable (collate : String → String)

def findByIdempotencyKey (db : Database) (key : String) : Option Notification :=
  Table.find (fun n => collate n.idempotencyKey) (collate key) db.notifications

/-- `NotificationRepository::findById`. -/
def findByIdUnder (db : Database) (id : String) : Option Notification :=
  Table.find (fun n => collate n.id) (collate id) db.notifications

/-- `UPDATE notifications SET status=? WHERE id=?`. -/
def setStatusUnder (status : NotificationStatus) (db : Database) (id : String) : Database :=
  { db with
    notifications :=
      Table.modify (fun n => collate n.id) (collate id) ({ · with status }) db.notifications }

def markProcessingUnder : Database → String → Database := setStatusUnder collate .processing

def markSentUnder : Database → String → Database := setStatusUnder collate .sent

def markDeadLetteredUnder : Database → String → Database := setStatusUnder collate .deadLettered

/-- `NotificationRepository::incrementAttemptCount`. -/
def incrementAttemptCountUnder (db : Database) (id : String) : Database :=
  { db with
    notifications := Table.modify (fun n => collate n.id) (collate id)
      (fun n => { n with attemptCount := n.attemptCount + 1 }) db.notifications }

/-- `DeliveryAttemptRepository::record`. -/
def recordUnder (db : Database) (attempt : DeliveryAttempt) : Database :=
  { db with
    deliveryAttempts := Table.upsert (DeliveryAttempt.keyUnder collate) attempt
      (fun row => { row with
        status := attempt.status
        providerRef := attempt.providerRef
        errorMessage := attempt.errorMessage }) db.deliveryAttempts }

/-- `DeliveryAttemptRepository::findByNotificationId`, in ascending order of the number. -/
def findByNotificationIdUnder (db : Database) (id : String) : List DeliveryAttempt :=
  (db.deliveryAttempts.filter fun attempt => collate attempt.notificationId = collate id).mergeSort
    fun a b => a.attemptNumber ≤ b.attemptNumber

end Statements

/-! The same statements for ids that the service has drawn, which are compared by their
characters: where the collation tells them apart, `ToldApart` below, the two agree. -/

def findById : Database → String → Option Notification := findByIdUnder fun id => id

def setStatus : NotificationStatus → Database → String → Database := setStatusUnder fun id => id

def markProcessing : Database → String → Database := setStatus .processing

def markSent : Database → String → Database := setStatus .sent

def markFailed : Database → String → Database := setStatus .failed

def markDeadLettered : Database → String → Database := setStatus .deadLettered

def incrementAttemptCount : Database → String → Database := incrementAttemptCountUnder fun id => id

def record : Database → DeliveryAttempt → Database := recordUnder fun id => id

/-- The row of `delivery_attempts` with the given number. -/
def findAttempt (db : Database) (id : String) (attemptNumber : Int) : Option DeliveryAttempt :=
  Table.find DeliveryAttempt.key (id, attemptNumber) db.deliveryAttempts

def findByNotificationId : Database → String → List DeliveryAttempt :=
  findByNotificationIdUnder fun id => id

variable {db : Database} {id other : String} {n : Notification}

@[simp] theorem find_by_id_empty (id : String) : ({} : Database).findById id = none := rfl

@[simp] theorem find_attempt_empty (id : String) (k : Int) :
    ({} : Database).findAttempt id k = none := rfl

/-- A row that is found by a key is stored and has the key. -/
theorem mem_of_find_key {collate : String → String} {key : String}
    (h : db.findByIdempotencyKey collate key = some n) :
    n ∈ db.notifications ∧ collate n.idempotencyKey = collate key := by
  unfold findByIdempotencyKey at h
  have hkey := Table.key_of_find h
  exact ⟨Table.mem_of_find h, hkey⟩

/-- No row has a key that is not found. -/
theorem key_free_of_find {collate : String → String} {key : String}
    (h : db.findByIdempotencyKey collate key = none) :
    ∀ n ∈ db.notifications, collate n.idempotencyKey ≠ collate key := by
  unfold findByIdempotencyKey at h
  exact Table.find_eq_none.mp h

/-- A status update is seen by the lookups of its id. -/
@[simp] theorem find_by_id_set_status (status : NotificationStatus) :
    (db.setStatus status other).findById id =
      if id = other then (db.findById id).map ({ · with status }) else db.findById id :=
  Table.find_modify fun _ => rfl

/-- So is an increment. -/
@[simp] theorem find_by_id_increment : (db.incrementAttemptCount other).findById id =
    if id = other then
      (db.findById id).map fun n => { n with attemptCount := n.attemptCount + 1 }
    else db.findById id :=
  Table.find_modify fun _ => rfl

/-- An attempt changes no notification. -/
@[simp] theorem find_by_id_record (attempt : DeliveryAttempt) :
    (db.record attempt).findById id = db.findById id := rfl

/-- A committed row is found under its id, unless an older row has it. -/
@[simp] theorem find_by_id_commit : (db.commitInsert n).findById id =
    (db.findById id).or (if n.id = id then some n else none) :=
  Table.find_append

/-- A status update changes no attempt. -/
@[simp] theorem find_attempt_set_status (status : NotificationStatus) (k : Int) :
    (db.setStatus status other).findAttempt id k = db.findAttempt id k := rfl

/-- Neither does an increment. -/
@[simp] theorem find_attempt_increment (k : Int) :
    (db.incrementAttemptCount other).findAttempt id k = db.findAttempt id k := rfl

/-- Nor a new row of `notifications`. -/
@[simp] theorem find_attempt_commit (k : Int) :
    (db.commitInsert n).findAttempt id k = db.findAttempt id k := rfl

/-- `record` writes the outcome of one attempt, over an older outcome if there is one. -/
theorem find_attempt_record (attempt : DeliveryAttempt) (k : Int) :
    (db.record attempt).findAttempt id k =
      if (id, k) = attempt.key then
        some ((db.findAttempt id k).elim attempt fun row => { row with
          status := attempt.status
          providerRef := attempt.providerRef
          errorMessage := attempt.errorMessage })
      else db.findAttempt id k :=
  Table.find_upsert fun _ => rfl

/-- The collation tells `id` apart from every other id in the tables. -/
structure ToldApart (collate : String → String) (db : Database) (id : String) : Prop where
  notifications : ∀ n ∈ db.notifications, collate n.id = collate id → n.id = id
  deliveryAttempts : ∀ a ∈ db.deliveryAttempts, collate a.notificationId = collate id →
    a.notificationId = id

namespace ToldApart

variable {collate : String → String} {attempt : DeliveryAttempt}

/-- The collation singles out the row with the id. -/
theorem key_iff (h : db.ToldApart collate id) :
    ∀ n ∈ db.notifications, collate n.id = collate id ↔ n.id = id :=
  fun n hn => ⟨h.notifications n hn, congrArg collate⟩

/-- A lookup finds the row with the id. -/
theorem find_by_id (h : db.ToldApart collate id) :
    db.findByIdUnder collate id = db.findById id :=
  Table.find_congr h.key_iff

/-- A status update reaches the row with the id. -/
theorem set_status (h : db.ToldApart collate id) (status : NotificationStatus) :
    db.setStatusUnder collate status id = db.setStatus status id := by
  unfold setStatus setStatusUnder
  rw [Table.modify_congr h.key_iff]

/-- So does an increment. -/
theorem increment (h : db.ToldApart collate id) :
    db.incrementAttemptCountUnder collate id = db.incrementAttemptCount id := by
  unfold incrementAttemptCount incrementAttemptCountUnder
  rw [Table.modify_congr h.key_iff]

/-- An attempt is recorded over the row with its own key. -/
theorem record (h : db.ToldApart collate attempt.notificationId) :
    db.recordUnder collate attempt = db.record attempt := by
  have hkey : ∀ a ∈ db.deliveryAttempts, a.keyUnder collate = attempt.keyUnder collate ↔
      a.key = attempt.key := by
    intro a ha
    simp only [DeliveryAttempt.key, DeliveryAttempt.keyUnder, Prod.mk.injEq]
    exact and_congr_left fun _ => ⟨h.deliveryAttempts a ha, congrArg collate⟩
  unfold Database.record recordUnder
  rw [Table.upsert_congr hkey]
  rfl

/-- A change of other columns gives the tables no new id. -/
theorem of_set_status (h : db.ToldApart collate id) (status : NotificationStatus) :
    (db.setStatus status other).ToldApart collate id where
  notifications n hn := by
    obtain ⟨old, hold, heq⟩ := Table.exists_of_mem_modify Notification.id hn fun _ => rfl
    exact heq ▸ h.notifications old hold
  deliveryAttempts := h.deliveryAttempts

/-- Neither does an increment. -/
theorem of_increment (h : db.ToldApart collate id) :
    (db.incrementAttemptCount other).ToldApart collate id where
  notifications n hn := by
    obtain ⟨old, hold, heq⟩ := Table.exists_of_mem_modify Notification.id hn fun _ => rfl
    exact heq ▸ h.notifications old hold
  deliveryAttempts := h.deliveryAttempts

/-- An attempt of the same notification brings no other id. -/
theorem of_record (h : db.ToldApart collate attempt.notificationId) :
    (db.record attempt).ToldApart collate attempt.notificationId where
  notifications := h.notifications
  deliveryAttempts a ha := by
    rcases Table.exists_of_mem_upsert DeliveryAttempt.notificationId ha fun _ => rfl with
      heq | ⟨old, hold, heq⟩
    · exact fun _ => heq
    · exact heq ▸ h.deliveryAttempts old hold

end ToldApart

end Database

end NotificationDelivery
