import NotificationDelivery.Service.AttemptRange
import NotificationDelivery.Service.NoLoss

/-!
# What the messages say

Messages are encoded by the API and by the retry branch of a worker, and decoded by
`onMessage`, which has defaults for missing fields. `messages_understood` says that every
message on a main or retry queue, or unacked from one, is read as it was meant, names a stored
notification of its channel and carries its priority, and that the rows of `delivery_attempts`
fit their notifications.
-/

namespace NotificationDelivery

open EventMachine

/-- The queue that a message is on or was taken from. -/
def Place.name : Place → String
  | .queue name => name
  | .unacked name _ => name

/-- The priority of a stored notification. -/
def Database.priorityOf (db : Database) (id : String) : Option Priority :=
  (db.findById id).map Notification.priority

namespace System

/-- The requests, the deliveries and the messages have the priority of their notification, and the
messages are written as `toJson` writes them. Copies on a dead-letter queue have no priority. -/
structure Prioritized (s : System) : Prop where
  publishing : ∀ p post saved, s.posts.get p = some post → post.pc = .publish saved →
    s.db.priorityOf saved.id = some saved.priority
  handler : ∀ h w, s.handlers.get h = some w → w.body = w.message.toJson ∧
    ∃ priority, s.db.priorityOf w.notificationId = some priority ∧
      w.message.priority = priority.weight
  message : ∀ i m, s.broker.get i = some m →
    ∃ (body : MessageBody) (priority : Priority), m.envelope.body = body.toJson ∧
      s.db.priorityOf body.notificationId = some priority ∧ body.priority = priority.weight ∧
      ((∀ c, m.place ≠ .queue (Topology.dlq c)) → m.envelope.priority = priority.weight)

variable {env : Env} {s t : System} {event : Event} {h i : Nat} {w : Handler} {db : Database}
  {broker : Broker}

theorem prioritized_initial : initial.Prioritized where
  publishing := by simp [initial]
  handler := by simp [initial]
  message := by simp [initial]

namespace Prioritized

/-- The rows keep their priorities, and new rows may come. -/
theorem of_database (hprior : s.Prioritized)
    (hdb : ∀ id priority, s.db.priorityOf id = some priority → db.priorityOf id = some priority) :
    { s with db }.Prioritized where
  publishing := fun p post saved hget hpc => hdb _ _ (hprior.publishing p post saved hget hpc)
  handler := by
    intro h w hget
    obtain ⟨hwritten, priority, hrow, hweight⟩ := hprior.handler h w hget
    exact ⟨hwritten, priority, hdb _ _ hrow, hweight⟩
  message := by
    intro i m hget
    obtain ⟨body, priority, hbody, hrow, hrest⟩ := hprior.message i m hget
    exact ⟨body, priority, hbody, hdb _ _ hrow, hrest⟩

/-- A message is put on a queue. -/
theorem enqueue (hprior : s.Prioritized) {name : String} {envelope : Envelope} {body : MessageBody}
    {priority : Priority} (hbody : envelope.body = body.toJson)
    (hrow : s.db.priorityOf body.notificationId = some priority)
    (hweight : body.priority = priority.weight)
    (henvelope : (∀ c, name ≠ Topology.dlq c) → envelope.priority = priority.weight) :
    { s with broker := s.broker.enqueue name envelope }.Prioritized where
  publishing := hprior.publishing
  handler := hprior.handler
  message := by
    intro i m hget
    rcases Registry.update_eq_some.mp hget with ⟨_, heq⟩ | ⟨_, hget⟩
    · obtain rfl := Option.some.inj heq
      refine ⟨body, priority, hbody, hrow, hweight, fun hplace => henvelope fun c hname => ?_⟩
      exact hplace c (congrArg Place.queue hname)
    · exact hprior.message i m hget

/-- A message is removed or changes its place; on a queue it must keep the priority. -/
theorem set (hprior : s.Prioritized) {m : Message} (hget : s.broker.get i = some m)
    {value : Option Message}
    (hvalue : ∀ m' ∈ value, m'.envelope = m.envelope ∧ ∀ c, m.place ≠ .queue (Topology.dlq c)) :
    { s with broker := s.broker.set i value }.Prioritized where
  publishing := hprior.publishing
  handler := hprior.handler
  message := by
    intro j m' hget'
    change (s.broker.set i value).get j = some m' at hget'
    rw [Registry.get_set hget] at hget'
    rcases Registry.update_eq_some.mp hget' with ⟨_, heq⟩ | ⟨_, hget'⟩
    · obtain ⟨henvelope, hplace⟩ := hvalue m' heq
      obtain ⟨body, priority, hbody, hrow, hweight, hpriority⟩ := hprior.message i m hget
      rw [henvelope]
      exact ⟨body, priority, hbody, hrow, hweight, fun _ => hpriority hplace⟩
    · exact hprior.message j m' hget'

/-- The deliveries after a step have the message of a delivery before it. -/
theorem of_handlers (hprior : s.Prioritized) {handlers : Registry Handler}
    (hhandlers : ∀ h w, handlers.get h = some w → ∃ h' old, s.handlers.get h' = some old ∧
      old.toReceived = w.toReceived) : { s with handlers }.Prioritized where
  publishing := hprior.publishing
  handler := by
    intro h w hget
    obtain ⟨h', old, hold, hsame⟩ := hhandlers h w hget
    exact hsame ▸ hprior.handler h' old hold
  message := hprior.message

/-- A request moves on; the row that it is about to announce is stored. -/
theorem of_post (hprior : s.Prioritized) {p : Nat} {post next : Post}
    (hget : s.posts.get p = some post)
    (hnext : ∀ saved, next.pc = .publish saved → s.db.priorityOf saved.id = some saved.priority) :
    { s with posts := s.posts.set p (some next) }.Prioritized where
  publishing := by
    intro q other saved hget' hpc
    change (s.posts.set p (some next)).get q = some other at hget'
    rw [Registry.get_set hget] at hget'
    rcases Registry.update_eq_some.mp hget' with ⟨_, heq⟩ | ⟨_, hget'⟩
    · obtain rfl := Option.some.inj heq
      exact hnext saved hpc
    · exact hprior.publishing q other saved hget' hpc
  handler := hprior.handler
  message := hprior.message

end Prioritized

/-- The statements of a delivery change no priority. -/
theorem worked_priority {config : Config} {next : Database} {broker' : Broker}
    {pc : Option HandlerPc} (hworked : w.Worked config db broker h next broker' pc) (id : String) :
    next.priorityOf id = db.priorityOf id := by
  have hstatus : ∀ status other, (db.setStatus status other).priorityOf id = db.priorityOf id := by
    intro status other
    unfold Database.priorityOf
    rw [Database.find_by_id_set_status]
    split
    · rw [Option.map_map]
      rfl
    · rfl
  have hincrement : ∀ other, (db.incrementAttemptCount other).priorityOf id = db.priorityOf id := by
    intro other
    unfold Database.priorityOf
    rw [Database.find_by_id_increment]
    split
    · rw [Option.map_map]
      rfl
    · rfl
  cases hworked with
  | markedProcessing | markedSent | markedDeadLettered => exact hstatus _ _
  | incrementedSuccess | incrementedRetry | incrementedDead => exact hincrement _
  | _ => rfl

/-- The statements of a request. -/
theorem Prioritized.posted (hprior : s.Prioritized) (hwell : s.WellFormed) {p : Nat} {post : Post}
    {pc : PostPc} (hget : s.posts.get p = some post)
    (hworked : post.Worked env.config env.collate s.db s.broker (s.locked env p post.row)
      db broker pc) :
    { s with
      db, broker
      posts := s.posts.set p (some { post with pc })
      announced := s.announce post }.Prioritized := by
  have hrest : ∀ {u : System}, u.Prioritized →
      { u with announced := s.announce post }.Prioritized :=
    fun hu => ⟨hu.publishing, hu.handler, hu.message⟩
  cases hworked with
  | known existing hpc hfind =>
      refine hrest (hprior.of_post hget fun saved hsaved => ?_)
      obtain rfl := PostPc.publish.inj hsaved
      have hrow : s.db.findById existing.id = some existing :=
        hwell.unique existing (Table.mem_of_find hfind)
      simp [Database.priorityOf, hrow]
  | unknown | started | duplicate | inserted | outboxInserted =>
      exact hrest (hprior.of_post hget (by simp))
  | committed hpc =>
      have hopen : post.uncommitted = some post.row := by simp [Post.uncommitted, hpc]
      have habsent := hwell.reserved.absent p post _ hget hopen
      have hkeeps : ∀ id priority, s.db.priorityOf id = some priority →
          (s.db.commitInsert post.row).priorityOf id = some priority := by
        intro id priority h
        obtain ⟨row, hrow, rfl⟩ := Option.map_eq_some_iff.mp h
        simp [Database.priorityOf, hrow]
      refine hrest ((hprior.of_database hkeeps).of_post hget fun saved hsaved => ?_)
      obtain rfl := PostPc.publish.inj hsaved
      simp [Database.priorityOf, habsent]
  | published saved hpc =>
      have hrow := hprior.publishing p post saved hget hpc
      rw [Broker.announce_eq]
      let envelope : Envelope :=
        { body := saved.announcement.toJson, priority := saved.priority.weight }
      have hput :
          { s with
            broker := s.broker.enqueue (Topology.mainQueue saved.channel) envelope }.Prioritized :=
        hprior.enqueue rfl hrow rfl fun _ => rfl
      exact hrest (hput.of_post hget (by simp))

/-- The statements of a delivery. -/
theorem Prioritized.worked (hprior : s.Prioritized) {pc : Option HandlerPc}
    (hget : s.handlers.get h = some w)
    (hworked : w.Worked env.config s.db s.broker h db broker pc) :
    { s with db, broker, handlers := s.handlers.set h (pc.map w.goto) }.Prioritized := by
  obtain ⟨hwritten, priority, hrow, hweight⟩ := hprior.handler h w hget
  have hdb : { s with db }.Prioritized :=
    hprior.of_database fun id _ hold => (worked_priority hworked id).trans hold
  have hbroker : { s with db, broker }.Prioritized := by
    have hrow' : db.priorityOf w.notificationId = some priority :=
      (worked_priority hworked _).trans hrow
    cases hworked with
    | publishedRetry hpc =>
        rw [Broker.publish_retry]
        split
        · exact hdb.enqueue rfl hrow' hweight fun _ => hweight
        · exact hdb
    | publishedDlq hpc =>
        rw [Broker.publish_dlq]
        exact hdb.enqueue hwritten hrow' hweight fun hname => absurd rfl (hname w.channel)
    | acked hpc =>
        rcases s.broker.ack_cases h w.deliveryTag with ⟨name, envelope, hm, hack⟩ | ⟨_, hack⟩ <;>
          rw [hack]
        · exact hdb.set hm (by simp)
        · exact hdb
    | _ => exact hdb
  refine hbroker.of_handlers fun h' w' hget' => ?_
  rw [Registry.get_set hget] at hget'
  rcases Registry.update_eq_some.mp hget' with ⟨_, heq⟩ | ⟨_, hget'⟩
  · obtain ⟨pc', _, rfl⟩ := Option.map_eq_some_iff.mp heq
    exact ⟨h, w, hget, rfl⟩
  · exact ⟨h', w', hget', rfl⟩

/-- The step lemma. -/
theorem Prioritized.step (hprior : s.Prioritized) (hwell : s.WellFormed)
    (hstep : s.step env event = some t) : t.Prioritized := by
  cases step_cases hstep with
  | requested input uuid =>
      refine ⟨fun p post saved hget hpc => ?_, hprior.handler, hprior.message⟩
      rcases Registry.update_eq_some.mp hget with ⟨_, heq⟩ | ⟨_, hget⟩
      · obtain rfl := Option.some.inj heq
        exact absurd hpc (by simp)
      · exact hprior.publishing p post saved hget hpc
  | posted p post db broker pc hget hworked => exact hprior.posted hwell hget hworked
  | aborted p post hget => exact hprior.of_post hget (by simp)
  | delivered c i m w hget hplace hchannel htag hbody hpc =>
      have hbroker :
          { s with
            broker := s.broker.deliver i m (Topology.mainQueue c) s.handlers.next }.Prioritized :=
        hprior.set hget (by simp [hplace])
      refine ⟨hbroker.publishing, fun h w' hget' => ?_, hbroker.message⟩
      rcases Registry.update_eq_some.mp hget' with ⟨_, heq⟩ | ⟨_, hget'⟩
      · obtain rfl := Option.some.inj heq
        obtain ⟨body, priority, hwritten, hrow, hweight, _⟩ := hprior.message i m hget
        obtain rfl : w.message = body := by
          have hread := w.decoded
          rw [hbody, hwritten, MessageBody.from_json_to_json] at hread
          exact (Except.ok.inj hread).symm
        exact ⟨hbody.trans hwritten, priority, hrow, hweight⟩
      · exact hprior.handler h w' hget'
  | dropped c i m e hget => exact hprior.set hget (by simp)
  | worked h w db broker pc hget hworked => exact hprior.worked hget hworked
  | sent h w n outcome hget hpc =>
      have hnext : { s with
          handlers :=
            s.handlers.set h (some (w.goto (Handler.afterSend outcome))) }.Prioritized := by
        refine hprior.of_handlers fun h' w' hget' => ?_
        rw [Registry.get_set hget] at hget'
        rcases Registry.update_eq_some.mp hget' with ⟨_, heq⟩ | ⟨_, hget'⟩
        · obtain rfl := Option.some.inj heq
          exact ⟨h, w, hget, rfl⟩
        · exact ⟨h', w', hget', rfl⟩
      exact ⟨hnext.publishing, hnext.handler, hnext.message⟩
  | crashed h w hget =>
      refine hprior.of_handlers fun h' w' hget' => ?_
      rw [Registry.get_set hget] at hget'
      rcases Registry.update_eq_some.mp hget' with ⟨_, heq⟩ | ⟨_, hget'⟩
      · exact absurd heq (by simp)
      · exact ⟨h', w', hget', rfl⟩
  | expired i broker hexpire =>
      obtain ⟨c, rung, envelope, hget, rfl⟩ := Broker.expire_cases hexpire
      obtain ⟨body, priority, hbody, hrow, hweight, hpriority⟩ := hprior.message i _ hget
      have htaken : { s with broker := s.broker.set i none }.Prioritized :=
        hprior.set hget (by simp)
      exact htaken.enqueue hbody hrow hweight fun _ => hpriority (by simp)
  | requeued i broker hrequeue =>
      obtain ⟨name, consumer, envelope, hget, rfl⟩ := Broker.requeue_cases hrequeue
      exact hprior.set hget (by simp)

theorem reachable_prioritized {allowed : System → Event → Prop}
    (hreach : Reaches (System.step env) allowed initial s) : s.Prioritized := by
  let invariant (s : System) : Prop := s.WellFormed ∧ s.Prioritized
  have hkeep : ∀ s event t, invariant s → allowed s event → s.step env event = some t →
      invariant t := fun s event t hs _ hstep => ⟨hs.1.step hstep, hs.2.step hs.1 hstep⟩
  have hlast : invariant s := hreach.invariant hkeep ⟨well_formed_initial, prioritized_initial⟩
  exact hlast.2

/-- Every message can be read. -/
theorem exists_body {allowed : System → Event → Prop} {m : Message}
    (hreach : Reaches (System.step env) allowed initial s) (hget : s.broker.get i = some m) :
    ∃ body, MessageBody.fromJson m.envelope.body = .ok body := by
  obtain ⟨body, -, hwritten, -⟩ := (reachable_prioritized hreach).message i m hget
  exact ⟨body, by rw [hwritten, MessageBody.from_json_to_json]⟩

/-- Every row of `delivery_attempts` fits its notification. -/
theorem attempt_fits {allowed : System → Event → Prop} {a : DeliveryAttempt}
    (hreach : Reaches (System.step env) allowed initial s) (ha : a ∈ s.db.deliveryAttempts) :
    ∃ row, s.db.findById a.notificationId = some row ∧ a.channel = row.channel ∧
      1 ≤ a.attemptNumber ∧ a.attemptNumber ≤ env.config.lastAttempt := by
  obtain ⟨_, hranged⟩ := reachable_ranged hreach a.notificationId
  have hattempt : (s.view a.notificationId).attempts a.attemptNumber = some a :=
    (Database.find_attempt_iff (reachable_attempt_keys hreach)).mpr
      ⟨Database.mem_find_by_notification_id.mpr ⟨ha, rfl⟩, rfl⟩
  obtain ⟨hone, hle, hchannel⟩ := hranged.attempt _ a hattempt
  obtain ⟨row, hrow, hsame⟩ := Option.map_eq_some_iff.mp hchannel
  exact ⟨row, hrow, hsame.symm, hone, hle⟩

/-- `onMessage` of channel `c` understands the message: it is neither malformed nor about an unknown
notification, and it is what the service means by a message at this place. -/
structure Understood (config : Config) (s : System) (c : Channel) (m : Message) (body : MessageBody)
    (row : Notification) : Prop where
  decoded : MessageBody.fromJson m.envelope.body = .ok body
  found : s.db.findById body.notificationId = some row
  channel : row.channel = c
  positive : 1 ≤ body.attemptNumber
  limit : body.attemptNumber ≤ config.lastAttempt
  rung : ∀ k, m.place = .queue (Topology.retryQueue c k) → body.attemptNumber = k + 1
  bodyPriority : body.priority = row.priority.weight
  envelopePriority : m.envelope.priority = row.priority.weight

/-- In every state of every run, every message on a main or retry queue of a channel or unacked from
one is understood there, and every row of `delivery_attempts` has the channel of its notification
and a number in the same range. -/
theorem messages_understood (env : Env) (s : System)
    (hreach : Reaches (System.step env) (fun _ _ => True) initial s) :
    (∀ i m c, s.broker.get i = some m →
      (m.place.name = Topology.mainQueue c ∨ ∃ k, m.place.name = Topology.retryQueue c k) →
      ∃ body row, Understood env.config s c m body row) ∧
    ∀ a ∈ s.db.deliveryAttempts, ∃ row, s.db.findById a.notificationId = some row ∧
      a.channel = row.channel ∧ 1 ≤ a.attemptNumber ∧ a.attemptNumber ≤ env.config.lastAttempt := by
  have hprior := reachable_prioritized hreach
  constructor
  · intro i m c hget hname
    obtain ⟨body, priority, hwritten, hrow, hweight, hpriority⟩ := hprior.message i m hget
    have hbody : MessageBody.fromJson m.envelope.body = .ok body := by
      rw [hwritten, MessageBody.from_json_to_json]
    obtain ⟨row, hfind, rfl⟩ := Option.map_eq_some_iff.mp hrow
    obtain ⟨hplaced, hranged⟩ := reachable_ranged hreach body.notificationId
    have hmessage : (s.view body.notificationId).messages i =
        some (m.place, body.attemptNumber) := by
      show (s.broker.get i).bind (Message.about body.notificationId) = _
      rw [hget, Option.bind_some, Message.about_of_body hbody, if_pos rfl]
    obtain ⟨hone, d, hd, hproper⟩ := hplaced.message i _ _ hmessage
    have hchannel : row.channel = d := by
      simpa [View.channel, view, hfind] using hd
    have hnodlq : ∀ e, m.place ≠ .queue (Topology.dlq e) := by
      intro e he
      rcases hname with hname | ⟨k, hname⟩ <;> simp [Place.name, he] at hname
    have hcd : d = c := by
      generalize m.place = place at hname hproper
      cases hproper with
      | dlq => rcases hname with hname | ⟨k, hname⟩ <;> simp [Place.name] at hname
      | main | unacked =>
          rcases hname with hname | ⟨k, hname⟩
          · simpa [Place.name] using hname
          · simp [Place.name] at hname
      | retry j =>
          rcases hname with hname | ⟨k, hname⟩
          · simp [Place.name] at hname
          · have hsame : d = c ∧ j = k := by simpa [Place.name] using hname
            exact hsame.1
    refine ⟨body, row, hbody, hfind, hchannel.trans hcd, hone, hranged.message i _ _ hmessage,
      fun k hplace => ?_, hweight, hpriority hnodlq⟩
    exact hranged.waiting i c k _ (hplace ▸ hmessage)
  · intro a ha
    exact attempt_fits hreach ha

/-- A first attempt fails, and the retry is published. -/
def retriesOnce : List Event :=
  (submission sample "id").append [.deliver .email 0, .work 0, .work 0,
    .send 0 (.failure "timeout" true), .work 0, .work 0, .work 0]

theorem messages_understood_retries_once :
    ∃ s m body row, run (System.step shipped) initial retriesOnce = some s ∧
      s.broker.get 1 = some m ∧ m.place = .queue (Topology.retryQueue .email 1) ∧
      Understood shipped.config s .email m body row := by
  have hlast : ∃ s m, run (System.step shipped) initial retriesOnce = some s ∧
      s.broker.get 1 = some m ∧ m.place = .queue (Topology.retryQueue .email 1) :=
    ⟨_, _, rfl, rfl, rfl⟩
  obtain ⟨s, m, hrun, hget, hplace⟩ := hlast
  have hreach : Reaches (System.step shipped) (fun _ _ => True) initial s :=
    Reaches.of_run (fun _ _ _ => trivial) hrun
  obtain ⟨body, row, hunderstood⟩ := (messages_understood shipped s hreach).1 1 m .email hget
    (.inr ⟨1, by rw [hplace, Place.name]⟩)
  exact ⟨s, m, body, row, hrun, hget, hplace, hunderstood⟩

end System

end NotificationDelivery
