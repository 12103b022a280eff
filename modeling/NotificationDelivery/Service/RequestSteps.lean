import NotificationDelivery.Library.Stepping
import NotificationDelivery.Service.Connection

/-!
# A POST request, one statement at a time

`acceptNotification` as a whole and the statements of `Post.work` do the same. The statements of a
request that no other open request holds up lead to where `acceptNotification` returns and to where
it throws; what the tables and the queues hold is in both cases what it leaves behind.
-/

namespace NotificationDelivery

open Throwing

namespace Post

/-- One step of a request that no other one holds up. -/
inductive Alone (config : Config) (collate : String → String) :
    Database × Broker × Post → Database × Broker × Post → Prop where
  | step {db db' : Database} {broker broker' : Broker} {post : Post} {pc : PostPc} :
      post.work config collate db broker false = some (db', broker', pc) →
      Alone config collate (db, broker, post) (db', broker', { post with pc })

/-- What the statements of a request see. -/
def shown (input : Notification) (uuid : String) (s : Stores) (pc : PostPc) :
    Database × Broker × Post :=
  (s.database, s.broker, ⟨input, uuid, pc⟩)

/-- The request is at `pc`, and its row collides with no stored row. -/
def Free (collate : String → String) (input : Notification) (uuid : String) (pc : PostPc)
    (s : Stores) (current : PostPc) : Prop :=
  current = pc ∧ ∀ n ∈ s.database.notifications, ¬ (input.inserted uuid).Collides collate n

/-- The request has saved its row and is about to announce it. -/
def Saved (saved : Notification) (_ : Stores) (current : PostPc) : Prop :=
  current = .publish saved

/-- An exception may leave the request at any point. -/
def Anywhere (_ : Exn) (_ : Stores) (_ : PostPc) : Prop := True

variable {config : Config} {collate : String → String} {calls : CallOutcomes}
  {input : Notification} {uuid : String}

/-- The announcement. A publish that throws or is not taken leaves the request before it. -/
theorem executes_publish {saved : Notification} :
    Executes (Alone config collate) (shown input uuid) (Saved saved)
      (publishToExchange config calls saved)
      (fun _ _ current => current = .done ∨ current = .publish saved) Anywhere := by
  refine executes_bind (executes_unseen fun _ _ _ _ _ => trivial) fun accepted => ?_
  cases accepted with
  | false => exact executes_pure fun _ _ hsaved => .inr hsaved
  | true =>
      refine executes_modify fun s current hsaved => ?_
      obtain rfl : current = .publish saved := hsaved
      exact ⟨.done, .single (.step rfl), .inl rfl⟩

end Post

end NotificationDelivery
