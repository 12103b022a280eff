import NotificationDelivery.Service.System

/-!
# What holds in every state of the service

The ids of the committed rows are unique, also after every open transaction commits, and a
delivery works on the body of the message that it holds. `reachable_well_formed` says so of
every state that any run reaches.
-/

namespace NotificationDelivery

open EventMachine

namespace System

variable {env : Env} {s t : System}

/-- The ids of the rows of open transactions are unused and pairwise different. -/
structure Reserved (db : Database) (posts : Nat → Option Post) : Prop where
  absent : ∀ p post n, posts p = some post → post.uncommitted = some n → db.findById n.id = none
  distinct : ∀ p post n q post' n', posts p = some post → post.uncommitted = some n →
    posts q = some post' → post'.uncommitted = some n' → n.id = n'.id → p = q

/-- Ids are unique among the committed rows and the rows of open transactions, and the delivery
number of a handler belongs to the message with its body. -/
structure WellFormed (s : System) : Prop where
  unique : Table.Unique Notification.id s.db.notifications
  reserved : Reserved s.db s.posts.get
  held : ∀ h w, s.handlers.get h = some w → w.deliveryTag < s.broker.next ∧
    ∀ m, s.broker.get w.deliveryTag = some m → m.envelope.body = w.body

theorem well_formed_initial : initial.WellFormed where
  unique := Table.unique_nil
  reserved := ⟨by simp [initial], by simp [initial]⟩
  held := by simp [initial]

/-- A request moves on. The row that its transaction holds afterwards, if any, must be new. -/
theorem Reserved.update {db : Database} {posts : Nat → Option Post} (h : Reserved db posts)
    {p : Nat} {value : Post} (habsent : ∀ n, value.uncommitted = some n → db.findById n.id = none)
    (hdistinct : ∀ n q post n', value.uncommitted = some n → q ≠ p → posts q = some post →
      post.uncommitted = some n' → n.id ≠ n'.id) :
    Reserved db (Function.update posts p (some value)) where
  absent := by
    intro q post n hget hopen
    by_cases hq : q = p
    · subst hq
      obtain rfl : value = post := by simpa using hget
      exact habsent n hopen
    · rw [Function.update_of_ne hq] at hget
      exact h.absent q post n hget hopen
  distinct := by
    intro q post n r post' n' hget hopen hget' hopen' hid
    by_cases hq : q = p <;> by_cases hr : r = p
    · exact hq.trans hr.symm
    · subst hq
      obtain rfl : value = post := by simpa using hget
      rw [Function.update_of_ne hr] at hget'
      exact absurd hid (hdistinct n r post' n' hopen hr hget' hopen')
    · subst hr
      obtain rfl : value = post' := by simpa using hget'
      rw [Function.update_of_ne hq] at hget
      exact absurd hid.symm (hdistinct n' q post n hopen' hq hget hopen)
    · rw [Function.update_of_ne hq] at hget
      rw [Function.update_of_ne hr] at hget'
      exact h.distinct q post n r post' n' hget hopen hget' hopen' hid

/-- The transaction of a request ends without a commit, or has not begun. -/
theorem Reserved.close {db : Database} {posts : Nat → Option Post} (h : Reserved db posts) {p : Nat}
    {value : Post} (hclosed : value.uncommitted = none) :
    Reserved db (Function.update posts p (some value)) :=
  h.update (by simp [hclosed]) (by simp [hclosed])

/-- An unlocked row collides with no row of another open transaction. -/
theorem not_collides_of_unlocked {p q : Nat} {n m : Notification} {post : Post}
    (h : s.locked env p n = false) (hq : q ≠ p) (hget : s.posts.get q = some post)
    (hopen : post.uncommitted = some m) : ¬ n.Collides env.collate m := by
  intro hcollides
  have hmem : q ∈ List.range s.posts.next := List.mem_range.mpr (Registry.lt_next hget)
  have hfree := List.any_eq_false.mp h q hmem
  simp [hq, hget, hopen, hcollides] at hfree

/-- The messages that deliveries hold stay theirs while the broker keeps its messages. -/
theorem WellFormed.held_of_keeps (hwell : s.WellFormed) {broker : Broker}
    (hkeeps : s.broker.Keeps broker) {h : Nat} {w : Handler} (hget : s.handlers.get h = some w) :
    w.deliveryTag < broker.next ∧
      ∀ m, broker.get w.deliveryTag = some m → m.envelope.body = w.body := by
  obtain ⟨hlt, hbody⟩ := hwell.held h w hget
  refine ⟨Nat.lt_of_lt_of_le hlt hkeeps.1, fun m hm => ?_⟩
  obtain ⟨old, hold, heq⟩ := hkeeps.2 _ hlt m hm
  rw [heq]
  exact hbody old hold

/-- A statement of a delivery keeps the messages, the unique ids and the set of known ids. -/
theorem worked_keeps {config : Config} {db next : Database} {broker broker' : Broker} {h : Nat}
    {w : Handler} {pc : Option HandlerPc} (hworked : w.Worked config db broker h next broker' pc) :
    broker.Keeps broker' ∧ (∀ id, db.findById id = none → next.findById id = none) ∧
      (Table.Unique Notification.id db.notifications →
        Table.Unique Notification.id next.notifications) := by
  have hsame : broker.Keeps broker ∧ (∀ id, db.findById id = none → db.findById id = none) ∧
      (Table.Unique Notification.id db.notifications →
        Table.Unique Notification.id db.notifications) := ⟨.refl _, fun _ => id, id⟩
  have hstatus : ∀ status id, broker.Keeps broker ∧
      (∀ other, db.findById other = none → (db.setStatus status id).findById other = none) ∧
      (Table.Unique Notification.id db.notifications →
        Table.Unique Notification.id (db.setStatus status id).notifications) := by
    intro status id
    refine ⟨.refl _, fun other hnone => ?_, fun hunique => hunique.modify fun _ => rfl⟩
    rw [Database.find_by_id_set_status, hnone]
    split <;> rfl
  have hincrement : ∀ id, broker.Keeps broker ∧
      (∀ other, db.findById other = none →
        (db.incrementAttemptCount id).findById other = none) ∧
      (Table.Unique Notification.id db.notifications →
        Table.Unique Notification.id (db.incrementAttemptCount id).notifications) := by
    intro id
    refine ⟨.refl _, fun other hnone => ?_, fun hunique => hunique.modify fun _ => rfl⟩
    rw [Database.find_by_id_increment, hnone]
    split <;> rfl
  cases hworked with
  | missed | skipped | found => exact hsame
  | recordedSuccess | recordedRetry | recordedDead => exact hsame
  | markedProcessing | markedSent | markedDeadLettered => exact hstatus _ _
  | incrementedSuccess | incrementedRetry | incrementedDead => exact hincrement _
  | publishedRetry | publishedDlq => exact ⟨Broker.keeps_publish _ _ _ _ _, hsame.2⟩
  | acked => exact ⟨Broker.keeps_ack _ _ _, hsame.2⟩

/-- The requests stay reserved over a step of one of them. -/
theorem WellFormed.reserved_of_worked (hwell : s.WellFormed) {p : Nat} {post : Post} {db : Database}
    {broker : Broker} {pc : PostPc} (hget : s.posts.get p = some post)
    (hworked : post.Worked env.config env.collate s.db s.broker (s.locked env p post.row)
      db broker pc) :
    Reserved db (Function.update s.posts.get p (some { post with pc })) := by
  have hreserved := hwell.reserved
  cases hworked with
  | known | unknown | started | duplicate | published => exact hreserved.close rfl
  | inserted hpc hfree hlocked =>
      refine hreserved.update (fun n hopen => ?_) fun n q post' n' hopen hq hget' hopen' => ?_
      · obtain rfl := Option.some.inj hopen
        exact Table.find_eq_none.mpr fun m hm hid => hfree m hm (.inl hid.symm)
      · obtain rfl := Option.some.inj hopen
        exact fun hid => not_collides_of_unlocked hlocked hq hget' hopen' (.inl hid)
  | outboxInserted hpc =>
      have hopen : post.uncommitted = some post.row := by simp [Post.uncommitted, hpc]
      refine hreserved.update (fun n hn => ?_) fun n q post' n' hn hq hget' hopen' hid => ?_
      · obtain rfl := Option.some.inj hn
        exact hreserved.absent p post _ hget hopen
      · obtain rfl := Option.some.inj hn
        exact hq (hreserved.distinct p post _ q post' n' hget hopen hget' hopen' hid).symm
  | committed hpc =>
      have hopen : post.uncommitted = some post.row := by simp [Post.uncommitted, hpc]
      have hothers : Reserved s.db (Function.update s.posts.get p
          (some { post with pc := .publish post.row })) := hreserved.close rfl
      refine ⟨fun q post' n hget' hopen' => ?_, hothers.distinct⟩
      have hq : q ≠ p := by
        rintro rfl
        obtain rfl : _ = post' := by simpa using hget'
        exact absurd hopen' (by simp [Post.uncommitted])
      have hid : post.row.id ≠ n.id := by
        intro hid
        rw [Function.update_of_ne hq] at hget'
        exact hq (hreserved.distinct p post _ q post' n hget hopen hget' hopen' hid).symm
      simp [hothers.absent q post' n hget' hopen', hid]

/-- A request keeps the messages and the unique ids. -/
theorem WellFormed.post_keeps (hwell : s.WellFormed) {p : Nat} {post : Post} {db : Database}
    {broker : Broker} {pc : PostPc} (hget : s.posts.get p = some post)
    (hworked : post.Worked env.config env.collate s.db s.broker (s.locked env p post.row)
      db broker pc) :
    s.broker.Keeps broker ∧ Table.Unique Notification.id db.notifications := by
  cases hworked with
  | known | unknown | started | duplicate | inserted | outboxInserted =>
      exact ⟨.refl _, hwell.unique⟩
  | published => exact ⟨Broker.keeps_publish _ _ _ _ _, hwell.unique⟩
  | committed hpc =>
      have hopen : post.uncommitted = some post.row := by simp [Post.uncommitted, hpc]
      exact ⟨.refl _, hwell.unique.append (hwell.reserved.absent p post _ hget hopen)⟩

/-- The step lemma. -/
theorem WellFormed.step (hwell : s.WellFormed) {event : Event} (hstep : s.step env event = some t) :
    t.WellFormed := by
  cases step_cases hstep with
  | requested input uuid =>
      exact ⟨hwell.unique, hwell.reserved.close rfl, hwell.held⟩
  | posted p post db broker pc hget hworked =>
      obtain ⟨hkeeps, hunique⟩ := hwell.post_keeps hget hworked
      refine ⟨hunique, ?_, fun h w hw => hwell.held_of_keeps hkeeps hw⟩
      simpa only [Registry.get_set hget] using hwell.reserved_of_worked hget hworked
  | aborted p post hget =>
      refine ⟨hwell.unique, ?_, hwell.held⟩
      simpa only [Registry.get_set hget] using hwell.reserved.close rfl
  | delivered c i m w hget hplace hchannel htag hbody hpc =>
      have hkeeps : s.broker.Keeps (s.broker.deliver i m (Topology.mainQueue c) s.handlers.next) :=
        Broker.keeps_set hget (by simp)
      refine ⟨hwell.unique, hwell.reserved, fun h w' hw => ?_⟩
      simp only [Registry.get_insert] at hw
      by_cases hh : h = s.handlers.next
      · subst hh
        obtain rfl : w = w' := by simpa using hw
        subst htag
        have hlt : w.deliveryTag < s.broker.next := Registry.lt_next hget
        refine ⟨hlt, fun m' hm' => ?_⟩
        rw [Broker.deliver, Registry.get_set hget] at hm'
        simp only [Function.update_self, Option.some.injEq] at hm'
        rw [← hm', hbody]
      · rw [Function.update_of_ne hh] at hw
        exact hwell.held_of_keeps hkeeps hw
  | dropped c i m e hget hbody =>
      exact ⟨hwell.unique, hwell.reserved,
        fun h w hw => hwell.held_of_keeps (Broker.keeps_set hget (by simp)) hw⟩
  | worked h w db broker pc hget hworked =>
      obtain ⟨hkeeps, hnone, hunique⟩ := worked_keeps hworked
      refine ⟨hunique hwell.unique, ⟨fun q post n hq hopen => ?_, hwell.reserved.distinct⟩, ?_⟩
      · exact hnone _ (hwell.reserved.absent q post n hq hopen)
      · intro h' w' hw'
        simp only [Registry.get_set hget] at hw'
        by_cases hh : h' = h
        · subst hh
          obtain ⟨pc', rfl, rfl⟩ : ∃ pc', pc = some pc' ∧ w.goto pc' = w' := by
            simpa [Option.map_eq_some_iff] using hw'
          obtain ⟨hlt, hbody⟩ := hwell.held_of_keeps hkeeps hget
          exact ⟨hlt, hbody⟩
        · rw [Function.update_of_ne hh] at hw'
          exact hwell.held_of_keeps hkeeps hw'
  | sent h w n outcome hget hpc =>
      refine ⟨hwell.unique, hwell.reserved, fun h' w' hw' => ?_⟩
      simp only [Registry.get_set hget] at hw'
      by_cases hh : h' = h
      · subst hh
        obtain rfl : _ = w' := by simpa using hw'
        exact hwell.held h' w hget
      · rw [Function.update_of_ne hh] at hw'
        exact hwell.held h' w' hw'
  | crashed h w hget =>
      refine ⟨hwell.unique, hwell.reserved, fun h' w' hw' => ?_⟩
      simp only [Registry.get_set hget] at hw'
      by_cases hh : h' = h
      · subst hh
        exact absurd hw' (by simp)
      · rw [Function.update_of_ne hh] at hw'
        exact hwell.held h' w' hw'
  | expired i broker hexpire =>
      exact ⟨hwell.unique, hwell.reserved,
        fun h w hw => hwell.held_of_keeps (Broker.keeps_expire hexpire) hw⟩
  | requeued i broker hrequeue =>
      exact ⟨hwell.unique, hwell.reserved,
        fun h w hw => hwell.held_of_keeps (Broker.keeps_requeue hrequeue) hw⟩

/-- Every state of every run is well formed. -/
theorem reachable_well_formed {allowed : System → Event → Prop}
    (hreach : Reaches (System.step env) allowed initial s) : s.WellFormed :=
  hreach.invariant (fun _ _ _ hwell _ hstep => hwell.step hstep) well_formed_initial

end System

end NotificationDelivery
