import Mathlib.Data.UInt

/-!
# Enumerations and records

After `include/notification/Enums.hpp`, `Models.hpp` and `Provider.hpp`. The time stamps of
`Notification` and `DeliveryAttempt` are left out: no statement of the service reads them.
-/

namespace NotificationDelivery

inductive Channel where
  | email
  | sms
  | push
  deriving DecidableEq, Repr

inductive Priority where
  | low
  | normal
  | high
  deriving DecidableEq, Repr

inductive NotificationStatus where
  | pending
  | processing
  | sent
  | failed
  | deadLettered
  | cancelled
  deriving DecidableEq, Repr

inductive AttemptStatus where
  | success
  | transientFailure
  | permanentFailure
  deriving DecidableEq, Repr

namespace Channel

def toString : Channel → String
  | .email => "EMAIL"
  | .sms => "SMS"
  | .push => "PUSH"

/-- `channelFromString`; the error is the text of the `std::invalid_argument`. -/
def fromString (s : String) : Except String Channel :=
  if s = "EMAIL" then .ok .email
  else if s = "SMS" then .ok .sms
  else if s = "PUSH" then .ok .push
  else .error ("unknown channel: " ++ s)

/-- A stored channel name reads back as the channel. -/
@[simp] theorem from_string_to_string (c : Channel) : fromString c.toString = .ok c := by
  cases c <;> decide

end Channel

namespace Priority

def toString : Priority → String
  | .low => "LOW"
  | .normal => "NORMAL"
  | .high => "HIGH"

/-- `priorityFromString`: every unknown name is `Normal`. -/
def fromString (s : String) : Priority :=
  if s = "LOW" then .low
  else if s = "HIGH" then .high
  else .normal

/-- `priorityWeight`; the main queues are declared with `x-max-priority` 5. -/
def weight : Priority → UInt8
  | .low => 1
  | .normal => 3
  | .high => 5

/-- A stored priority name reads back as the priority. -/
@[simp] theorem from_string_to_string (p : Priority) : fromString p.toString = p := by
  cases p <;> decide

end Priority

namespace NotificationStatus

def toString : NotificationStatus → String
  | .pending => "PENDING"
  | .processing => "PROCESSING"
  | .sent => "SENT"
  | .failed => "FAILED"
  | .deadLettered => "DEAD_LETTERED"
  | .cancelled => "CANCELLED"

/-- The status column as `rowToNotification` reads it. -/
def fromString (s : String) : NotificationStatus :=
  if s = "PENDING" then .pending
  else if s = "PROCESSING" then .processing
  else if s = "SENT" then .sent
  else if s = "FAILED" then .failed
  else if s = "DEAD_LETTERED" then .deadLettered
  else .cancelled

/-- A stored status name reads back as the status. -/
@[simp] theorem from_string_to_string (status : NotificationStatus) :
    fromString status.toString = status := by
  cases status <;> decide

/-- The statuses for which `onMessage` skips the delivery. -/
def skipped (status : NotificationStatus) : Bool :=
  status = .cancelled || status = .sent

end NotificationStatus

/-- A row of `notifications`. -/
structure Notification where
  id : String := ""
  idempotencyKey : String
  channel : Channel
  priority : Priority := .normal
  recipient : String
  subject : String
  body : String
  status : NotificationStatus := .pending
  attemptCount : Nat := 0
  deriving DecidableEq, Repr

/-- A row of `delivery_attempts`, without its surrogate id. -/
structure DeliveryAttempt where
  notificationId : String
  attemptNumber : Int
  channel : Channel
  status : AttemptStatus
  providerRef : Option String := none
  errorMessage : Option String := none
  deriving DecidableEq, Repr

/-- How a provider call ends: with a `ProviderResult`, or with a `ProviderException` that
carries its text and whether it is transient. -/
inductive ProviderOutcome where
  | result (providerRef : String)
  | failure (what : String) (isTransient : Bool)
  deriving DecidableEq, Repr

def ProviderOutcome.isResult : ProviderOutcome → Bool
  | .result _ => true
  | .failure _ _ => false

end NotificationDelivery
