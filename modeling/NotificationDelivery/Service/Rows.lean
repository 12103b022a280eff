import NotificationDelivery.Library.Growth
import NotificationDelivery.Service.MessageContents

/-!
# The tables over a run

The schema declares keys and references, and the statements of the service keep them: in every
state of every run the notifications have different ids and different keys, each has one
outbox row, and every attempt belongs to a notification. Committed rows are never removed, and
of a notification only the status and the count change.
-/

namespace NotificationDelivery

open EventMachine

/-- The row of a notification as an `UPDATE` may leave it: the status is changed, and the attempts
are counted. -/
def Notification.Evolves (old new : Notification) : Prop :=
  new = { old with status := new.status, attemptCount := new.attemptCount } ∧
    old.attemptCount ≤ new.attemptCount

/-- The row of an attempt as a second record of the attempt may leave it. -/
def DeliveryAttempt.Evolves (old new : DeliveryAttempt) : Prop :=
  new.key = old.key ∧ new.channel = old.channel

/-- No row of a table is removed, and each row keeps what identifies it. -/
structure Database.Grows (db next : Database) : Prop where
  notifications : Table.Grows Notification.Evolves db.notifications next.notifications
  deliveryAttempts : Table.Grows DeliveryAttempt.Evolves db.deliveryAttempts next.deliveryAttempts
  outboxEvents : db.outboxEvents <+: next.outboxEvents

namespace Notification.Evolves

variable {a b c : Notification}

/-- A row that is not touched. -/
protected theorem refl (n : Notification) : n.Evolves n := ⟨rfl, Nat.le_refl _⟩

/-- Two updates in a row. -/
protected theorem trans (hfirst : a.Evolves b) (hsecond : b.Evolves c) : a.Evolves c := by
  obtain ⟨hb, hab⟩ := hfirst
  obtain ⟨hc, hbc⟩ := hsecond
  rw [hb] at hc
  exact ⟨hc, hab.trans hbc⟩

/-- A status update. -/
theorem set_status (n : Notification) (status : NotificationStatus) :
    n.Evolves { n with status } := ⟨rfl, Nat.le_refl _⟩

/-- The count goes up. -/
theorem increment (n : Notification) :
    n.Evolves { n with attemptCount := n.attemptCount + 1 } := ⟨rfl, Nat.le_succ _⟩

end Notification.Evolves

namespace Database

variable {db next last : Database}

/-- Tables that are not touched. -/
theorem Grows.refl (db : Database) : db.Grows db :=
  ⟨.refl .refl _, .refl (fun _ => ⟨rfl, rfl⟩) _, List.prefix_refl _⟩

/-- Two steps in a row. -/
theorem Grows.trans (hfirst : db.Grows next) (hsecond : next.Grows last) : db.Grows last where
  notifications := hfirst.notifications.trans (fun _ _ _ => .trans) hsecond.notifications
  deliveryAttempts := hfirst.deliveryAttempts.trans
    (fun _ _ _ hab hbc => ⟨hbc.1.trans hab.1, hbc.2.trans hab.2⟩) hsecond.deliveryAttempts
  outboxEvents := hfirst.outboxEvents.trans hsecond.outboxEvents

/-- A status update removes no row. -/
theorem grows_set_status (db : Database) (status : NotificationStatus) (id : String) :
    db.Grows (db.setStatus status id) :=
  ⟨.modify .refl (.set_status · status) _ _, (Grows.refl db).deliveryAttempts,
    List.prefix_refl _⟩

/-- Neither does an increment. -/
theorem grows_increment (db : Database) (id : String) : db.Grows (db.incrementAttemptCount id) :=
  ⟨.modify .refl .increment _ _, (Grows.refl db).deliveryAttempts, List.prefix_refl _⟩

/-- An attempt that is recorded again keeps the channel of its first record. -/
theorem grows_record (db : Database) (attempt : DeliveryAttempt) : db.Grows (db.record attempt) :=
  ⟨(Grows.refl db).notifications, .upsert (fun _ => ⟨rfl, rfl⟩) (fun _ => ⟨rfl, rfl⟩) _ _,
    List.prefix_refl _⟩

/-- A commit only adds rows. -/
theorem grows_commit (db : Database) (n : Notification) : db.Grows (db.commitInsert n) :=
  ⟨.append .refl _ _, (Grows.refl db).deliveryAttempts, List.prefix_append _ _⟩

/-- A row that is found is found again. -/
theorem Grows.find_by_id {id : String} (h : db.Grows next) (hrow : (db.findById id).isSome = true) :
    (next.findById id).isSome = true := by
  obtain ⟨row, hrow⟩ := Option.isSome_iff_exists.mp hrow
  obtain ⟨new, hnew, hevolves, -⟩ := h.notifications.exists_of_mem (Table.mem_of_find hrow)
  have hid : row.id = id := Table.key_of_find hrow
  have hsame : new.id = row.id := by rw [hevolves]
  rw [Option.isSome_iff_ne_none]
  intro hnone
  exact Table.find_eq_none.mp hnone new hnew (hsame.trans hid)

end Database

namespace System

variable {env : Env} {s t : System} {event : Event}

/-- The step lemma. -/
theorem db_grows (hstep : s.step env event = some t) : s.db.Grows t.db := by
  cases step_cases hstep with
  | posted p post db broker pc hget hworked =>
      cases hworked with
      | committed => exact s.db.grows_commit _
      | _ => exact .refl _
  | worked h w db broker pc hget hworked =>
      cases hworked with
      | markedProcessing | markedSent | markedDeadLettered => exact s.db.grows_set_status _ _
      | recordedSuccess | recordedRetry | recordedDead => exact s.db.grows_record _
      | incrementedSuccess | incrementedRetry | incrementedDead => exact s.db.grows_increment _
      | _ => exact .refl _
  | _ => exact .refl _

/-- The run lemma: no committed row is removed. -/
theorem grows_of_reaches {allowed : System → Event → Prop}
    (hreach : Reaches (System.step env) allowed s t) : s.db.Grows t.db := by
  let grown (u : System) : Prop := s.db.Grows u.db
  have hkeep : ∀ u event next, grown u → allowed u event → u.step env event = some next →
      grown next :=
    fun _ _ _ hgrows _ hstep => hgrows.trans (db_grows hstep)
  have hgrown : grown t := hreach.invariant hkeep (.refl _)
  exact hgrown

end System

/-- No two committed rows collide, and no row of an open transaction collides with a committed row
or with the row of another open transaction. -/
structure Keyed (collate : String → String) (db : Database) (posts : Nat → Option Post) : Prop where
  apart : db.notifications.Pairwise fun n m => ¬ n.Collides collate m
  absent : ∀ p post n, posts p = some post → post.uncommitted = some n →
    ∀ m ∈ db.notifications, ¬ n.Collides collate m
  distinct : ∀ p post n q post' n', posts p = some post → post.uncommitted = some n →
    posts q = some post' → post'.uncommitted = some n' → p ≠ q → ¬ n.Collides collate n'

namespace Keyed

variable {collate : String → String} {db next : Database} {posts : Nat → Option Post} {p : Nat}
  {value post : Post} {n : Notification}

/-- Updates that keep ids and keys. -/
theorem modify (h : Keyed collate db posts) (change : Notification → Notification)
    {id : String} (hid : ∀ n, (change n).id = n.id)
    (hkey : ∀ n, (change n).idempotencyKey = n.idempotencyKey)
    (hnext : next.notifications = Table.modify Notification.id id change db.notifications) :
    Keyed collate next posts where
  apart := by
    rw [hnext, Table.modify, List.pairwise_map]
    refine h.apart.imp fun {a b} hab => ?_
    have hsame : ∀ row : Notification, (if row.id = id then change row else row).id = row.id ∧
        (if row.id = id then change row else row).idempotencyKey = row.idempotencyKey := by
      intro row
      split
      · exact ⟨hid row, hkey row⟩
      · exact ⟨rfl, rfl⟩
    obtain ⟨ha, hka⟩ := hsame a
    obtain ⟨hb, hkb⟩ := hsame b
    simpa only [Notification.Collides, ha, hka, hb, hkb] using hab
  absent := by
    intro q post n hget hopen m hm
    rw [hnext] at hm
    obtain ⟨old, hold, hcolumn⟩ := Table.exists_of_mem_modify
      (fun n : Notification => (n.id, n.idempotencyKey)) hm fun n => by simp [hid, hkey]
    obtain ⟨hid', hkey'⟩ := Prod.mk.inj hcolumn
    simpa only [Notification.Collides, hid', hkey'] using h.absent q post n hget hopen old hold
  distinct := h.distinct

/-- A status update touches no key. -/
theorem set_status (h : Keyed collate db posts) (status : NotificationStatus) (id : String) :
    Keyed collate (db.setStatus status id) posts :=
  h.modify ({ · with status }) (fun _ => rfl) (fun _ => rfl) rfl

/-- An increment touches no key. -/
theorem increment (h : Keyed collate db posts) (id : String) :
    Keyed collate (db.incrementAttemptCount id) posts :=
  h.modify (fun n => { n with attemptCount := n.attemptCount + 1 }) (fun _ => rfl)
    (fun _ => rfl) rfl

/-- A request moves on. The row that its transaction holds afterwards, if any, must be new. -/
theorem update (h : Keyed collate db posts)
    (habsent : ∀ n, value.uncommitted = some n → ∀ m ∈ db.notifications, ¬ n.Collides collate m)
    (hdistinct : ∀ n q post n', value.uncommitted = some n → q ≠ p → posts q = some post →
      post.uncommitted = some n' → ¬ n.Collides collate n') :
    Keyed collate db (Function.update posts p (some value)) where
  apart := h.apart
  absent := by
    intro q post n hget hopen
    rcases Registry.update_eq_some.mp hget with ⟨_, heq⟩ | ⟨_, hget⟩
    · obtain rfl := Option.some.inj heq
      exact habsent n hopen
    · exact h.absent q post n hget hopen
  distinct := by
    intro q post n r post' n' hget hopen hget' hopen' hne
    rcases Registry.update_eq_some.mp hget with ⟨hq, heq⟩ | ⟨hq, hget⟩ <;>
      rcases Registry.update_eq_some.mp hget' with ⟨hr, heq'⟩ | ⟨hr, hget'⟩
    · exact absurd (hq.trans hr.symm) hne
    · obtain rfl := Option.some.inj heq
      exact hdistinct n r post' n' hopen hr hget' hopen'
    · obtain rfl := Option.some.inj heq'
      exact fun hcollides => hdistinct n' q post n hopen' hq hget hopen hcollides.symm
    · exact h.distinct q post n r post' n' hget hopen hget' hopen' hne

/-- The transaction of a request ends without a commit, or has not begun. -/
theorem close (h : Keyed collate db posts) (hclosed : value.uncommitted = none) :
    Keyed collate db (Function.update posts p (some value)) :=
  h.update (by simp [hclosed]) (by simp [hclosed])

/-- A transaction commits the row that it holds. -/
theorem commit (h : Keyed collate db posts) (hget : posts p = some post)
    (hopen : post.uncommitted = some n) (hclosed : value.uncommitted = none) :
    Keyed collate (db.commitInsert n) (Function.update posts p (some value)) where
  apart := by
    refine List.pairwise_append.mpr ⟨h.apart, by simp, fun m hm n' hn' hcollides => ?_⟩
    obtain rfl := List.mem_singleton.mp hn'
    exact h.absent p post n' hget hopen m hm hcollides.symm
  absent := by
    intro q post' n' hget' hopen' m hm
    rcases Registry.update_eq_some.mp hget' with ⟨_, heq⟩ | ⟨hq, hget'⟩
    · obtain rfl := Option.some.inj heq
      exact absurd (hclosed.symm.trans hopen') (by simp)
    · rcases List.mem_append.mp hm with hm | hm
      · exact h.absent q post' n' hget' hopen' m hm
      · obtain rfl := List.mem_singleton.mp hm
        exact h.distinct q post' n' p post m hget' hopen' hget hopen hq
  distinct := (h.close (p := p) hclosed).distinct

/-- A statement of a request. -/
theorem posted {env : Env} {s : System} {broker : Broker} {pc : PostPc}
    (h : Keyed env.collate s.db s.posts.get) (hget : s.posts.get p = some post)
    (hworked : post.Worked env.config env.collate s.db s.broker (s.locked env p post.row) next
      broker pc) : Keyed env.collate next (s.posts.set p (some { post with pc })).get := by
  rw [Registry.get_set hget]
  cases hworked with
  | known | unknown | started | duplicate | published => exact h.close rfl
  | inserted hpc hfree hlocked =>
      refine h.update (fun n hn => ?_) fun n q other n' hn hq hother hopen' => ?_
      · obtain rfl : post.row = n := Option.some.inj hn
        exact fun m hm hcollides => hfree m hm hcollides
      · obtain rfl : post.row = n := Option.some.inj hn
        exact System.not_collides_of_unlocked hlocked hq hother hopen'
  | outboxInserted hpc =>
      have hrow : post.uncommitted = some post.row := by simp [Post.uncommitted, hpc]
      refine h.update (fun n hn => ?_) fun n q other n' hn hq hother hopen' => ?_
      · obtain rfl : post.row = n := Option.some.inj hn
        exact h.absent p post _ hget hrow
      · obtain rfl : post.row = n := Option.some.inj hn
        exact h.distinct p post _ q other n' hget hrow hother hopen' (Ne.symm hq)
  | committed hpc =>
      have hrow : post.uncommitted = some post.row := by simp [Post.uncommitted, hpc]
      exact h.commit hget hrow rfl

/-- The step lemma. -/
theorem step {env : Env} {s t : System} {event : Event}
    (h : Keyed env.collate s.db s.posts.get) (hstep : s.step env event = some t) :
    Keyed env.collate t.db t.posts.get := by
  cases System.step_cases hstep with
  | requested input uuid => exact h.close rfl
  | posted p post db broker pc hget hworked => exact h.posted hget hworked
  | aborted p post hget =>
      show Keyed _ _ (s.posts.set p _).get
      rw [Registry.get_set hget]
      exact h.close rfl
  | worked i w db broker pc hget hworked =>
      cases hworked with
      | markedProcessing | markedSent | markedDeadLettered =>
          exact h.set_status _ _
      | incrementedSuccess | incrementedRetry | incrementedDead =>
          exact h.increment _
      | recordedSuccess | recordedRetry | recordedDead => exact ⟨h.apart, h.absent, h.distinct⟩
      | _ => exact h
  | _ => exact h

end Keyed

/-- What the schema and the service promise about the tables. -/
structure Database.Integral (collate : String → String) (db : Database) : Prop where
  /-- No two notifications share their id or, under the collation, their key. -/
  apart : db.notifications.Pairwise fun n m => ¬ n.Collides collate m
  /-- Every notification has its outbox row, and no other outbox rows exist; nothing publishes
  them. -/
  outbox : db.outboxEvents = db.notifications.map Notification.outbox
  /-- FAILED and CANCELLED are never written. -/
  statuses : ∀ n ∈ db.notifications, n.status ≠ .failed ∧ n.status ≠ .cancelled
  /-- A notification has one row for each attempt number. -/
  attemptKeys : db.AttemptKeys
  /-- An attempt belongs to a notification. -/
  references : ∀ a ∈ db.deliveryAttempts, ∃ n ∈ db.notifications, n.id = a.notificationId ∧
    n.channel = a.channel ∧ 1 ≤ a.attemptNumber

namespace System

variable {env : Env} {s t : System} {event : Event}

/-- The outbox is written with the notification, and what is written as a status is one of four. -/
def Mirrored (db : Database) : Prop :=
  db.outboxEvents = db.notifications.map Notification.outbox ∧
    ∀ n ∈ db.notifications, n.status ≠ .failed ∧ n.status ≠ .cancelled

/-- An update that keeps the ids and writes one of the four statuses. -/
theorem Mirrored.modify {db next : Database} (h : Mirrored db)
    (change : Notification → Notification) {id : String}
    (hid : ∀ n, (change n).id = n.id)
    (hstatus : ∀ n, n.status ≠ .failed ∧ n.status ≠ .cancelled →
      (change n).status ≠ .failed ∧ (change n).status ≠ .cancelled)
    (hnext : next.notifications = Table.modify Notification.id id change db.notifications)
    (houtbox : next.outboxEvents = db.outboxEvents) : Mirrored next := by
  refine ⟨?_, fun n hn => ?_⟩
  · have hmap : ∀ rows : List Notification,
        rows.map Notification.outbox = (rows.map Notification.id).map fun id =>
          { notificationId := id, payload := id } := by
      intro rows
      rw [List.map_map]
      rfl
    rw [houtbox, h.1, hnext, hmap, hmap, Table.map_key_modify hid]
  · rw [hnext] at hn
    obtain ⟨old, hold, rfl⟩ := List.mem_map.mp hn
    split
    · exact hstatus old (h.2 old hold)
    · exact h.2 old hold

/-- A status update to one of the four. -/
theorem Mirrored.set_status {db : Database} (h : Mirrored db) {status : NotificationStatus}
    (hfailed : status ≠ .failed) (hcancelled : status ≠ .cancelled) (id : String) :
    Mirrored (db.setStatus status id) :=
  h.modify ({ · with status }) (fun _ => rfl) (fun _ _ => ⟨hfailed, hcancelled⟩) rfl rfl

/-- The step lemma. -/
theorem Mirrored.step (h : Mirrored s.db) (hstep : s.step env event = some t) :
    Mirrored t.db := by
  cases step_cases hstep with
  | posted p post db broker pc hget hworked =>
      cases hworked with
      | committed =>
          refine ⟨?_, fun n hn => ?_⟩
          · show s.db.outboxEvents ++ [_] = (s.db.notifications ++ [_]).map _
            rw [List.map_append, h.1]
            rfl
          · rcases List.mem_append.mp hn with hn | hn
            · exact h.2 n hn
            · obtain rfl := List.mem_singleton.mp hn
              exact ⟨by simp [Post.row, Notification.inserted],
                by simp [Post.row, Notification.inserted]⟩
      | _ => exact h
  | worked i w db broker pc hget hworked =>
      cases hworked with
      | markedProcessing | markedSent | markedDeadLettered =>
          exact h.set_status (by simp) (by simp) _
      | incrementedSuccess | incrementedRetry | incrementedDead =>
          exact h.modify (fun n => { n with attemptCount := n.attemptCount + 1 })
            (fun _ => rfl) (fun _ hn => hn) rfl rfl
      | _ => exact h
  | _ => exact h

/-- The run lemma. -/
theorem reachable_mirrored {allowed : System → Event → Prop}
    (hreach : Reaches (System.step env) allowed initial s) : Mirrored s.db := by
  let mirrored (u : System) : Prop := Mirrored u.db
  have hkeep : ∀ u event t, mirrored u → allowed u event → u.step env event = some t →
      mirrored t :=
    fun _ _ _ h _ hstep => h.step hstep
  have hmirrored : mirrored s := hreach.invariant hkeep ⟨rfl, by simp [initial]⟩
  exact hmirrored

/-- The invariants together. -/
theorem integral_of_reaches {allowed : System → Event → Prop}
    (hreach : Reaches (System.step env) allowed initial s) : s.db.Integral env.collate := by
  let keyed (u : System) : Prop := Keyed env.collate u.db u.posts.get
  have hkeep : ∀ u event t, keyed u → allowed u event → u.step env event = some t → keyed t :=
    fun _ _ _ h _ hstep => h.step hstep
  have hkeyed : keyed s :=
    hreach.invariant hkeep ⟨.nil, by simp [initial], by simp [initial]⟩
  obtain ⟨houtbox, hstatuses⟩ := reachable_mirrored hreach
  have hkeys := reachable_attempt_keys hreach
  refine ⟨hkeyed.apart, houtbox, hstatuses, hkeys, fun a ha => ?_⟩
  obtain ⟨n, hn, hchannel, hone, -⟩ := attempt_fits hreach ha
  exact ⟨n, Table.mem_of_find hn, Table.key_of_find hn, hchannel.symm, hone⟩

/-- Whatever is submitted at the same time, and wherever requests and deliveries die: the tables
keep what the schema declares, and from any state on no committed row is removed. A notification
keeps everything but its status and its count, and the count never falls; attempts keep their
number and their channel, and outbox rows are never changed. -/
theorem schema_preserved (env : Env) (s t : System) (allowed : System → Event → Prop)
    (hreach : Reaches (System.step env) allowed initial s)
    (hlater : Reaches (System.step env) allowed s t) :
    s.db.Integral env.collate ∧ t.db.Integral env.collate ∧ s.db.Grows t.db :=
  ⟨integral_of_reaches hreach, integral_of_reaches (hreach.trans hlater),
    grows_of_reaches hlater⟩

theorem schema_preserved_put_back_late : ∃ s t,
    run (System.step shipped) initial (submission sample "id") = some s ∧
      run (System.step shipped) s (putBackLate.drop 7) = some t ∧
      s.db.Integral id ∧ t.db.Integral id ∧ s.db.Grows t.db := by
  have hsome : (run (System.step shipped) initial (submission sample "id") >>= fun s =>
      run (System.step shipped) s (putBackLate.drop 7)).isSome = true := by decide +kernel
  obtain ⟨t, hboth⟩ := Option.isSome_iff_exists.mp hsome
  obtain ⟨s, hfirst, hsecond⟩ := Option.bind_eq_some_iff.mp hboth
  exact ⟨s, t, hfirst, hsecond, schema_preserved shipped s t (fun _ _ => True)
    (Reaches.of_run (fun _ _ _ => trivial) hfirst)
    (Reaches.of_run (fun _ _ _ => trivial) hsecond)⟩

end System

end NotificationDelivery
