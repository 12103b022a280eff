import NotificationDelivery.Service.Broker
import NotificationDelivery.Service.Database

/-!
# One POST request

The branch of `HttpServer::handleConnection` (`src/HttpServer.cpp`) that accepts notifications,
with `insertWithOutbox` (`src/NotificationRepository.cpp`), as a machine that executes one
statement at a time.
-/

namespace NotificationDelivery

/-- The local variable `n` as the JSON body of the request gives it. `uuid` is the value that is
drawn for a missing idempotency key. -/
def decodeRequest (uuid : String) (j : Json) : Except Exn Notification := do
  let idempotencyKey ← j.value Json.getString "idempotencyKey" uuid
  let channel ← j.at' "channel" >>= Json.getString
  let channel ← (Channel.fromString channel).mapError Exn.ofText
  let priority ← j.value Json.getString "priority" "NORMAL"
  let recipient ← j.at' "recipient" >>= Json.getString
  let subject ← j.value Json.getString "subject" ""
  let body ← j.at' "body" >>= Json.getString
  pure { idempotencyKey, channel, priority := .fromString priority, recipient, subject, body }

/-- The message that announces a notification. -/
def Notification.announcement (saved : Notification) : MessageBody where
  notificationId := saved.id
  attemptNumber := 1
  priority := saved.priority.weight

/-- `publishToExchange` as the handler calls it for a saved notification. -/
def Broker.announce (config : Config) (b : Broker) (saved : Notification) : Broker :=
  b.publish (.declareAll config) Topology.exchangeName (Topology.routingKey saved.channel)
    { body := saved.announcement.toJson, priority := saved.priority.weight }

/-- An announcement reaches the main queue of its channel. -/
@[simp] theorem Broker.announce_eq (config : Config) (b : Broker) (saved : Notification) :
    b.announce config saved = b.enqueue (Topology.mainQueue saved.channel)
      { body := saved.announcement.toJson, priority := saved.priority.weight } :=
  publish_exchange

/-- The statement that a request executes next. -/
inductive PostPc where
  | findByIdempotencyKey
  | startTransaction
  | insertNotification
  | insertOutbox
  | commit
  | publish (saved : Notification)
  | done
  deriving DecidableEq, Repr

/-- A POST request whose body was read. `uuid` is the id it gives to a new notification. -/
structure Post where
  input : Notification
  uuid : String
  pc : PostPc
  deriving DecidableEq, Repr

namespace Post

/-- The row that the request inserts unless its key is known. -/
def row (post : Post) : Notification := post.input.inserted post.uuid

/-- The row that the open transaction of the request has inserted. -/
def uncommitted (post : Post) : Option Notification :=
  match post.pc with
  | .insertOutbox | .commit => some post.row
  | _ => none

/-- Executes the next statement of a request. An `INSERT` fails on a key that a committed row has,
which ends the request with a rollback, and waits while an open transaction has inserted a row
with the key (`locked`). -/
def work (config : Config) (collate : String → String) (db : Database) (broker : Broker)
    (locked : Bool) (post : Post) : Option (Database × Broker × PostPc) :=
  match post.pc with
  | .findByIdempotencyKey =>
      match db.findByIdempotencyKey collate post.input.idempotencyKey with
      -- a known key is announced again, whatever the status of its row
      | some existing => some (db, broker, .publish existing)
      | none => some (db, broker, .startTransaction)
  | .startTransaction => some (db, broker, .insertNotification)
  | .insertNotification =>
      if ∃ n ∈ db.notifications, post.row.Collides collate n then some (db, broker, .done)
      else if locked then none
      else some (db, broker, .insertOutbox)
  | .insertOutbox => some (db, broker, .commit)
  | .commit => some (db.commitInsert post.row, broker, .publish post.row)
  | .publish saved => some (db, broker.announce config saved, .done)
  | .done => none

variable {config : Config} {collate : String → String} {db next : Database}
  {broker published : Broker} {locked : Bool} {post : Post} {pc : PostPc}

/-- Everything a request can do in one step. -/
inductive Worked (config : Config) (collate : String → String) (db : Database) (broker : Broker)
    (locked : Bool) (post : Post) : Database → Broker → PostPc → Prop where
  | known (existing : Notification) : post.pc = .findByIdempotencyKey →
      db.findByIdempotencyKey collate post.input.idempotencyKey = some existing →
      Worked config collate db broker locked post db broker (.publish existing)
  | unknown : post.pc = .findByIdempotencyKey →
      db.findByIdempotencyKey collate post.input.idempotencyKey = none →
      Worked config collate db broker locked post db broker .startTransaction
  | started : post.pc = .startTransaction →
      Worked config collate db broker locked post db broker .insertNotification
  | duplicate : post.pc = .insertNotification →
      Worked config collate db broker locked post db broker .done
  | inserted : post.pc = .insertNotification →
      (∀ n ∈ db.notifications, ¬ post.row.Collides collate n) → locked = false →
      Worked config collate db broker locked post db broker .insertOutbox
  | outboxInserted : post.pc = .insertOutbox →
      Worked config collate db broker locked post db broker .commit
  | committed : post.pc = .commit →
      Worked config collate db broker locked post (db.commitInsert post.row) broker
        (.publish post.row)
  | published (saved : Notification) : post.pc = .publish saved →
      Worked config collate db broker locked post db (broker.announce config saved) .done

/-- The next statement does what `Worked` says. -/
theorem work_cases (h : post.work config collate db broker locked = some (next, published, pc)) :
    Worked config collate db broker locked post next published pc := by
  unfold work at h
  split at h
  · rename_i hpc
    split at h <;> (rename_i hfind; cases h)
    · exact .known _ hpc hfind
    · exact .unknown hpc hfind
  · rename_i hpc
    cases h
    exact .started hpc
  · rename_i hpc
    split at h
    · cases h
      exact .duplicate hpc
    · rename_i hfree
      split at h
      · exact absurd h (by simp)
      · rename_i hlocked
        cases h
        exact .inserted hpc (fun n hn hcollides => hfree ⟨n, hn, hcollides⟩)
          (by simpa using hlocked)
  · rename_i hpc
    cases h
    exact .outboxInserted hpc
  · rename_i hpc
    cases h
    exact .committed hpc
  · rename_i saved hpc
    cases h
    exact .published saved hpc
  · exact absurd h (by simp)

end Post

end NotificationDelivery
