import NotificationDelivery.Service.View

/-!
# The service refines its views

Every step of the service is a step of the view of every notification (`step_view`):
statements about other notifications change nothing. `view_invariant` turns an invariant of
the steps of a view into an invariant of the runs of the service.
-/

namespace NotificationDelivery

variable {env : Env} {n : String}

section Broker

variable {b : Broker} {i : Nat} {m : Message}

theorem Message.about_of_body {body : MessageBody}
    (h : MessageBody.fromJson m.envelope.body = .ok body) :
    m.about n = if body.notificationId = n then some (m.place, body.attemptNumber) else none := by
  simp only [about, h]

/-- Whether an envelope shows in a view does not depend on its place. -/
theorem Message.about_cases (n : String) (envelope : Envelope) :
    (∀ place, Message.about n ⟨place, envelope⟩ = none) ∨
      ∃ k, ∀ place, Message.about n ⟨place, envelope⟩ = some (place, k) := by
  cases hbody : MessageBody.fromJson envelope.body with
  | error => exact .inl fun place => by simp only [about, hbody]
  | ok body =>
      by_cases hid : body.notificationId = n
      · exact .inr ⟨body.attemptNumber, fun place => by simp only [about, hbody, hid, if_true]⟩
      · exact .inl fun place => by simp only [about, hbody, hid, if_false]

/-- The place that a view shows. -/
theorem Message.place_of_about {place : Place} {k : Int} (h : m.about n = some (place, k)) :
    m.place = place := by
  rcases Message.about_cases n m.envelope with hnone | ⟨k', hsome⟩
  · exact absurd (h.symm.trans (hnone m.place)) (by simp)
  · exact (Prod.mk.inj (Option.some.inj ((hsome m.place).symm.trans h))).1

theorem Broker.about_set (hget : b.get i = some m) (value : Option Message) :
    Broker.about n (b.set i value) =
      Function.update (b.about n) i (value.bind (Message.about n)) := by
  unfold about
  rw [Registry.get_set hget, Registry.bind_update]

theorem Broker.about_enqueue (b : Broker) (name : String) (envelope : Envelope) :
    Broker.about n (b.enqueue name envelope) =
      Function.update (b.about n) b.next (Message.about n ⟨.queue name, envelope⟩) := by
  unfold about enqueue
  rw [Registry.get_insert, Registry.bind_update]
  rfl

@[simp] theorem Broker.about_next (b : Broker) : b.about n b.next = none := by
  simp [about]

/-- A copy put on a queue shows in the view of its notification. -/
theorem Broker.about_enqueue_body {body : MessageBody} {envelope : Envelope} (name : String)
    (h : MessageBody.fromJson envelope.body = .ok body) (hid : body.notificationId = n) :
    Broker.about n (b.enqueue name envelope) =
      Function.update (b.about n) b.next (some (.queue name, body.attemptNumber)) := by
  rw [about_enqueue, Message.about_of_body h, if_pos hid]

/-- A copy put on a queue shows in no other view. -/
theorem Broker.about_enqueue_other {body : MessageBody} {envelope : Envelope} (name : String)
    (h : MessageBody.fromJson envelope.body = .ok body) (hid : body.notificationId ≠ n) :
    Broker.about n (b.enqueue name envelope) = b.about n := by
  rw [about_enqueue, Message.about_of_body h, if_neg hid]
  exact Function.update_eq_self_iff.mpr (about_next b).symm

end Broker

section Handlers

variable {s : System} {h : Nat} {w : Handler} {db : Database} {broker : Broker}
  {pc : Option HandlerPc}

/-- A handler of another notification does not show. -/
theorem Handler.about_other (hid : w.notificationId ≠ n) : w.about n = none := if_neg hid

theorem Handler.about_self (hid : w.notificationId = n) : w.about n = some w := if_pos hid

theorem System.view_message {i : Nat} {m : Message} (hget : s.broker.get i = some m) :
    (s.view n).messages i = m.about n := by
  simp only [view, Broker.about, hget, Option.bind_some]

/-- A message shows in the view of the notification that its body names. -/
theorem System.view_message_of_body {i : Nat} {m : Message} {body : MessageBody}
    (hget : s.broker.get i = some m) (hbody : MessageBody.fromJson m.envelope.body = .ok body) :
    (s.view body.notificationId).messages i = some (m.place, body.attemptNumber) := by
  rw [System.view_message hget, Message.about_of_body hbody, if_pos rfl]

theorem System.view_handler (hget : s.handlers.get h = some w) :
    (s.view n).handlers h = w.about n := by
  simp only [view, hget, Option.bind_some]

/-- A handler takes a step or ends. -/
theorem System.view_handlers_set (hget : s.handlers.get h = some w) (value : Option Handler) :
    (fun i => ((s.handlers.set h value).get i).bind (Handler.about n)) =
      Function.update (s.view n).handlers h (value.bind (Handler.about n)) := by
  rw [Registry.get_set hget, Registry.bind_update]
  rfl

/-- What a handler of another notification does, does not show. -/
theorem System.view_handlers_other (hget : s.handlers.get h = some w) (hid : w.notificationId ≠ n)
    {value : Option Handler} (hvalue : ∀ w', value = some w' → w'.notificationId ≠ n) :
    (fun i => ((s.handlers.set h value).get i).bind (Handler.about n)) = (s.view n).handlers := by
  rw [System.view_handlers_set hget]
  refine Function.update_eq_self_iff.mpr ?_
  rw [System.view_handler hget, Handler.about_other hid]
  cases value with
  | none => rfl
  | some w' => exact Handler.about_other (hvalue w' rfl)

/-- The deliveries in a view are those of its notification. -/
theorem System.view_handlers :
    (s.view n).handlers h = some w ↔ s.handlers.get h = some w ∧ w.notificationId = n := by
  simp only [view, Option.bind_eq_some_iff]
  constructor
  · intro h
    obtain ⟨w', hget, habout⟩ := h
    have hid : w'.notificationId = n := by
      by_contra hid
      exact absurd (habout.symm.trans (Handler.about_other hid)) (by simp)
    obtain rfl : w' = w := Option.some.inj ((Handler.about_self hid).symm.trans habout)
    exact ⟨hget, hid⟩
  · intro h
    obtain ⟨hget, hid⟩ := h
    exact ⟨w, hget, Handler.about_self hid⟩

/-- The effect on the rows and the attempts of another notification. -/
theorem Handler.Worked.tables_other {config : Config} {db' : Database} {broker' : Broker}
    (hworked : w.Worked config db broker h db' broker' pc) (hid : w.notificationId ≠ n) :
    db'.findById n = db.findById n ∧ ∀ k, db'.findAttempt n k = db.findAttempt n k := by
  have hrecord : ∀ status providerRef errorMessage k,
      (db.record (w.attempt status providerRef errorMessage)).findAttempt n k =
        db.findAttempt n k := by
    intro status providerRef errorMessage k
    have hkey : (n, k) ≠ (w.attempt status providerRef errorMessage).key := by
      intro heq
      exact hid (congrArg Prod.fst heq).symm
    rw [Database.find_attempt_record, if_neg hkey]
  cases hworked with
  | missed | skipped | found | publishedRetry | publishedDlq | acked => exact ⟨rfl, fun _ => rfl⟩
  | recordedSuccess | recordedRetry | recordedDead => exact ⟨rfl, hrecord _ _ _⟩
  | markedProcessing | markedSent | markedDeadLettered =>
      exact ⟨by simp [Database.markProcessing, Database.markSent, Database.markDeadLettered,
        Ne.symm hid], fun _ => rfl⟩
  | incrementedSuccess | incrementedRetry | incrementedDead =>
      exact ⟨by simp [Ne.symm hid], fun _ => rfl⟩

/-- The body of a retry names the notification of its handler. -/
@[simp] theorem Handler.notification_id_retry_body :
    w.retryBody.notificationId = w.notificationId :=
  rfl

/-- The message that a handler holds is about its notification. -/
theorem System.WellFormed.about_held (hwell : s.WellFormed) (hget : s.handlers.get h = some w)
    {m : Message} (hm : s.broker.get w.deliveryTag = some m) :
    m.about n = if w.notificationId = n then some (m.place, w.message.attemptNumber) else none := by
  have hbody : MessageBody.fromJson m.envelope.body = .ok w.message := by
    rw [(hwell.held h w hget).2 m hm]
    exact w.decoded
  exact Message.about_of_body hbody

/-- A handler that holds its message does so in the view of its notification. -/
theorem System.WellFormed.view_holds (hwell : s.WellFormed) (hget : s.handlers.get h = some w)
    (hid : w.notificationId = n) {name : String} {envelope : Envelope}
    (hm : s.broker.get w.deliveryTag = some ⟨.unacked name h, envelope⟩) :
    (s.view n).Holds h w := by
  refine ⟨name, w.message.attemptNumber, ?_⟩
  simp only [view, Broker.about, hm, Option.bind_some, hwell.about_held hget hm, if_pos hid]

/-- The effect on the messages of another notification. -/
theorem System.WellFormed.messages_other (hwell : s.WellFormed) (hget : s.handlers.get h = some w)
    (hworked : w.Worked env.config s.db s.broker h db broker pc) (hid : w.notificationId ≠ n) :
    broker.about n = s.broker.about n := by
  cases hworked with
  | publishedRetry hpc =>
      rw [Broker.publish_retry]
      split
      · exact Broker.about_enqueue_other _ (MessageBody.from_json_to_json _) hid
      · rfl
  | publishedDlq hpc =>
      rw [Broker.publish_dlq]
      exact Broker.about_enqueue_other _ w.decoded hid
  | acked hpc =>
      rcases s.broker.ack_cases h w.deliveryTag with ⟨name, envelope, hm, hack⟩ | ⟨_, hack⟩
      · rw [hack, Broker.about_set hm]
        refine Function.update_eq_self_iff.mpr ?_
        rw [Broker.about, hm, Option.bind_some, hwell.about_held hget hm, if_neg hid]
        rfl
      · rw [hack]
  | missed | skipped | found | markedProcessing | recordedSuccess | markedSent
  | incrementedSuccess | incrementedRetry | incrementedDead | recordedRetry | recordedDead
  | markedDeadLettered => rfl

/-- A statement of a delivery does not show in the view of another notification. -/
theorem System.WellFormed.view_worked_other (hwell : s.WellFormed)
    (hget : s.handlers.get h = some w)
    (hworked : w.Worked env.config s.db s.broker h db broker pc) (hid : w.notificationId ≠ n) :
    { s with db, broker, handlers := s.handlers.set h (pc.map w.goto) }.view n =
      s.view n := by
  obtain ⟨hrow, hattempts⟩ := hworked.tables_other (n := n) hid
  have hhandlers : (fun i => ((s.handlers.set h (pc.map w.goto)).get i).bind
      (Handler.about n)) = (s.view n).handlers := by
    refine System.view_handlers_other hget hid fun w' hgoto => ?_
    obtain ⟨pc', -, rfl⟩ := Option.map_eq_some_iff.mp hgoto
    exact hid
  exact View.ext hrow (funext hattempts) (hwell.messages_other hget hworked hid) hhandlers rfl
    rfl rfl

/-- The handler of a view moves with the handler of the service. -/
theorem System.handlers_set (hget : s.handlers.get h = some w) (hid : w.notificationId = n)
    (pc : HandlerPc) :
    (fun i => ((s.handlers.set h (some (w.goto pc))).get i).bind (Handler.about n)) =
      Function.update (s.view n).handlers h (some (w.goto pc)) := by
  rw [System.view_handlers_set hget, Option.bind_some]
  exact congrArg _ (Handler.about_self (w := w.goto pc) hid)

theorem System.view_advance (hget : s.handlers.get h = some w) (hid : w.notificationId = n)
    (pc : HandlerPc) :
    { s with db, broker, handlers := s.handlers.set h (some (w.goto pc)) }.view n =
      { row := db.findById n
        attempts := db.findAttempt n
        messages := broker.about n
        handlers := Function.update (s.view n).handlers h (some (w.goto pc))
        publishing := (s.view n).publishing
        sends := (s.view n).sends
        announced := (s.view n).announced } := by
  exact View.ext rfl rfl rfl (System.handlers_set hget hid pc) rfl rfl rfl

/-- The attempt that a handler records shows in the view of its notification. -/
theorem System.find_attempt_record (hid : w.notificationId = n) (status : AttemptStatus)
    (providerRef errorMessage : Option String) :
    (s.db.record (w.attempt status providerRef errorMessage)).findAttempt n =
      ((s.view n).record (w.attempt status providerRef errorMessage)).attempts := by
  funext k
  subst hid
  rw [Database.find_attempt_record]
  by_cases hk : k = w.message.attemptNumber
  · simp [hk, DeliveryAttempt.key, DeliveryAttempt.keyUnder, Received.attempt, View.record, view]
  · simp [hk, DeliveryAttempt.key, DeliveryAttempt.keyUnder, Received.attempt, View.record, view]

/-- A statement of a delivery is a step of the view of its notification. -/
theorem System.WellFormed.view_worked (hwell : s.WellFormed) (hget : s.handlers.get h = some w)
    (hworked : w.Worked env.config s.db s.broker h db broker pc) (hid : w.notificationId = n) :
    (s.view n).Worked env.config h w
      ({ s with db, broker, handlers := s.handlers.set h (pc.map w.goto) }.view n) := by
  have hfree : (s.view n).messages s.broker.next = none := Broker.about_next s.broker
  have hstatus : ∀ status, (s.db.setStatus status w.notificationId).findById n =
      ((s.view n).setStatus status).row := by
    intro status
    rw [Database.find_by_id_set_status, if_pos hid.symm]
    rfl
  have hincrement : (s.db.incrementAttemptCount w.notificationId).findById n =
      (s.view n).increment.row := by
    rw [Database.find_by_id_increment, if_pos hid.symm]
    rfl
  cases hworked with
  | missed hpc hfind =>
      rw [Option.map_some, System.view_advance hget hid]
      exact .missed hpc (hid ▸ hfind)
  | skipped row hpc hfind hskipped =>
      rw [Option.map_some, System.view_advance hget hid]
      exact .skipped row hpc (hid ▸ hfind) hskipped
  | found row hpc hfind hskipped =>
      rw [Option.map_some, System.view_advance hget hid]
      exact .found row hpc (hid ▸ hfind) hskipped
  | markedProcessing row hpc =>
      rw [Option.map_some, System.view_advance hget hid, Database.markProcessing, hstatus]
      exact .markedProcessing row hpc
  | recordedSuccess providerRef hpc =>
      rw [Option.map_some, System.view_advance hget hid, Received.successAttempt,
        System.find_attempt_record hid]
      exact .recordedSuccess providerRef hpc
  | markedSent hpc =>
      rw [Option.map_some, System.view_advance hget hid, Database.markSent, hstatus]
      exact .markedSent hpc
  | incrementedSuccess hpc =>
      rw [Option.map_some, System.view_advance hget hid, hincrement]
      exact .incrementedSuccess hpc
  | incrementedRetry what isTransient hpc hretries =>
      rw [Option.map_some, System.view_advance hget hid, hincrement]
      exact .incrementedRetry what isTransient hpc hretries
  | incrementedDead what isTransient hpc hretries =>
      rw [Option.map_some, System.view_advance hget hid, hincrement]
      exact .incrementedDead what isTransient hpc hretries
  | recordedRetry what hpc =>
      rw [Option.map_some, System.view_advance hget hid, Received.failureAttempt,
        System.find_attempt_record hid]
      exact .recordedRetry what hpc
  | publishedRetry hpc =>
      rw [Option.map_some, System.view_advance hget hid, Broker.publish_retry]
      split
      · rename_i hdeclared
        have hretry : w.retryBody.notificationId = n := hid
        rw [Broker.about_enqueue_body _ (MessageBody.from_json_to_json _) hretry]
        exact .publishedRetry s.broker.next hpc hfree hdeclared
      · rename_i hundeclared
        exact .droppedRetry hpc hundeclared
  | recordedDead what isTransient hpc =>
      rw [Option.map_some, System.view_advance hget hid, Received.failureAttempt,
        System.find_attempt_record hid]
      exact .recordedDead what isTransient hpc
  | publishedDlq hpc =>
      rw [Option.map_some, System.view_advance hget hid, Broker.publish_dlq,
        Broker.about_enqueue_body _ w.decoded hid]
      exact .publishedDlq s.broker.next hpc hfree
  | markedDeadLettered hpc =>
      rw [Option.map_some, System.view_advance hget hid, Database.markDeadLettered, hstatus]
      exact .markedDeadLettered hpc
  | acked hpc =>
      have hhandlers : (fun i => ((s.handlers.set h none).get i).bind (Handler.about n)) =
          Function.update (s.view n).handlers h none := by
        rw [Registry.get_set hget, Registry.bind_update]
        rfl
      rcases s.broker.ack_cases h w.deliveryTag with ⟨name, envelope, hm, hack⟩ | ⟨hlost, hack⟩
      · have hmessages : Broker.about n (s.broker.set w.deliveryTag none) =
            ((s.view n).setMessage w.deliveryTag none).messages := by
          rw [Broker.about_set hm]
          rfl
        have hholds := hwell.view_holds hget hid hm
        rw [hack]
        convert View.Worked.acked hpc hholds using 1
        exact View.ext rfl rfl hmessages hhandlers rfl rfl rfl
      · have hholds : ¬ (s.view n).Holds h w := by
          intro h
          obtain ⟨name, k, hmessage⟩ := h
          simp only [view, Broker.about, Option.bind_eq_some_iff] at hmessage
          obtain ⟨m, hm, habout⟩ := hmessage
          rw [hwell.about_held hget hm, if_pos hid, Option.some.injEq, Prod.mk.injEq] at habout
          obtain ⟨place, envelope⟩ := m
          obtain rfl : place = _ := habout.1
          exact hlost name envelope hm
        rw [hack]
        convert View.Worked.ackedLate hpc hholds using 1
        exact View.ext rfl rfl rfl hhandlers rfl rfl rfl

end Handlers

section Step

variable {s t : System}

/-- A request moves on. -/
theorem System.publishing_set {p : Nat} {post : Post} (hget : s.posts.get p = some post)
    (pc : PostPc) :
    (fun q => ((s.posts.set p (some { post with pc })).get q).bind (Post.publishing n)) =
      Function.update (s.view n).publishing p (Post.publishing n { post with pc }) := by
  rw [Registry.get_set hget, Registry.bind_update]
  rfl

/-- A request that announces nothing, before and after, does not show. -/
theorem System.publishing_quiet {p : Nat} {post : Post} (hget : s.posts.get p = some post)
    {pc : PostPc}
    (hbefore : post.publishing n = none) (hafter : Post.publishing n { post with pc } = none) :
    (fun q => ((s.posts.set p (some { post with pc })).get q).bind (Post.publishing n)) =
      (s.view n).publishing := by
  rw [System.publishing_set hget, hafter]
  refine Function.update_eq_self_iff.mpr ?_
  simp only [view, hget, Option.bind_some, hbefore]

/-- A statement of a request is a step of every view. -/
theorem System.WellFormed.view_posted_own (hwell : s.WellFormed) {p : Nat} {post : Post}
    {db : Database} {broker : Broker} {pc : PostPc} (hget : s.posts.get p = some post)
    (hworked : post.Worked env.config env.collate s.db s.broker (s.locked env p post.row)
      db broker pc) :
    View.Step env n (s.MeetsRow env n (.post p)) (s.view n) (.post p)
      ({ s with
          db, broker
          posts := s.posts.set p (some { post with pc })
          announced := s.announce post }.view n) := by
  have hpublishing : (s.view n).publishing p = post.publishing n := by
    simp only [view, hget, Option.bind_some]
  have hquiet : ∀ pc', (∀ saved, post.pc ≠ .publish saved) →
      Post.publishing n { post with pc := pc' } = none →
      { s with
        posts := s.posts.set p (some { post with pc := pc' }), announced := s.announce post }.view n
        = s.view n := by
    intro pc' hpc hafter
    have hbefore : post.publishing n = none := by
      unfold Post.publishing
      split
      · rename_i saved hpc'
        exact absurd hpc' (hpc saved)
      · rfl
    have hannounce : s.announce post = s.announced := by
      unfold announce
      split
      · rename_i saved hpc'
        exact absurd hpc' (hpc saved)
      · rfl
    refine View.ext rfl rfl rfl rfl (System.publishing_quiet hget hbefore hafter) rfl ?_
    simp only [view, hannounce]
  -- a row that is found or committed shows only in the view of its own id
  cases hworked with
  | known existing hpc hfind =>
      by_cases hid : existing.id = n
      · have hrow : (s.view n).row = some existing :=
          hid ▸ hwell.unique existing (Table.mem_of_find hfind)
        have hnone : (s.view n).publishing p = none := by
          rw [hpublishing]
          simp only [Post.publishing, hpc]
        have hmeets : s.MeetsRow env n (.post p) := ⟨post, existing, hget, hpc, hfind, hid⟩
        convert View.Step.found p existing hmeets hrow hnone using 1
        refine View.ext rfl rfl rfl rfl ?_ rfl ?_
        · refine (System.publishing_set hget _).trans ?_
          simp only [Post.publishing, hid, if_true]
          rfl
        · simp only [view, announce, hpc, View.setPublishing]
      · exact .of_eq (hquiet _ (by simp [hpc]) (by simp [Post.publishing, hid]))
  | unknown hpc | started hpc | duplicate hpc | inserted hpc | outboxInserted hpc =>
      exact .of_eq (hquiet _ (by simp [hpc]) rfl)
  | committed hpc =>
      have hopen : post.uncommitted = some post.row := by simp [Post.uncommitted, hpc]
      have habsent := hwell.reserved.absent p post _ hget hopen
      by_cases hid : post.row.id = n
      · have hrow : (s.view n).row = none := hid ▸ habsent
        have hnone : (s.view n).publishing p = none := by
          rw [hpublishing]
          simp only [Post.publishing, hpc]
        convert View.Step.committed p post.row hrow hnone hid rfl rfl using 1
        refine View.ext ?_ rfl rfl rfl ?_ rfl ?_
        · simp only [view, Database.find_by_id_commit]
          simp only [view] at hrow
          simp [hrow, hid]
        · refine (System.publishing_set hget _).trans ?_
          simp only [Post.publishing, hid, if_true]
          rfl
        · simp only [view, announce, hpc, View.setPublishing]
      · have hsame := hquiet (.publish post.row) (by simp [hpc]) (by simp [Post.publishing, hid])
        refine .of_eq (Eq.trans ?_ hsame)
        refine View.ext ?_ rfl rfl rfl rfl rfl rfl
        simp [view, hid]
  | published saved hpc =>
      have hbody : MessageBody.fromJson saved.announcement.toJson = .ok saved.announcement :=
        MessageBody.from_json_to_json _
      have hannounced : saved.announcement.notificationId = saved.id := rfl
      rw [Broker.announce_eq]
      by_cases hid : saved.id = n
      · have hsaved : (s.view n).publishing p = some saved := by
          rw [hpublishing]
          simp only [Post.publishing, hpc, hid, if_true]
        convert View.Step.published p saved s.broker.next hsaved
          (Broker.about_next s.broker) using 1
        refine View.ext rfl rfl ?_ rfl ?_ rfl ?_
        · exact Broker.about_enqueue_body _ hbody (hannounced.trans hid)
        · exact System.publishing_set hget _
        · simp [view, announce, hpc, hid]
      · have hbefore : post.publishing n = none := by simp [Post.publishing, hpc, hid]
        refine .of_eq (View.ext rfl rfl (Broker.about_enqueue_other _ hbody hid) rfl
          (System.publishing_quiet hget hbefore rfl) rfl ?_)
        simp [view, announce, hpc, Ne.symm hid]

/-- The refinement of the service by its views: a step of the service is a step of the view of
every notification, and a lookup of a request shows only if it finds the notification. -/
theorem System.WellFormed.step_view_own (hwell : s.WellFormed) {event : Event}
    (hstep : s.step env event = some t) :
    View.Step env n (s.MeetsRow env n event) (s.view n) event (t.view n) := by
  -- a step shows in the view of the notification it is about and in no other
  cases System.step_cases hstep with
  | requested input uuid =>
      refine .of_eq (View.ext rfl rfl rfl rfl ?_ rfl rfl)
      simp only [view]
      rw [Registry.get_insert, Registry.bind_update]
      exact Function.update_eq_self_iff.mpr (by simp [Post.publishing])
  | posted p post db broker pc hget hworked => exact hwell.view_posted_own hget hworked
  | aborted p post hget =>
      convert View.Step.aborted p using 1
      exact View.ext rfl rfl rfl rfl (System.publishing_set hget _) rfl rfl
  | delivered c i m w hget hplace hchannel htag hbody hpc =>
      have hmessage : MessageBody.fromJson m.envelope.body = .ok w.message := hbody ▸ w.decoded
      have habout : m.about n =
          if w.notificationId = n then some (m.place, w.message.attemptNumber) else none :=
        Message.about_of_body hmessage
      have hmessages :
          Broker.about n (s.broker.deliver i m (Topology.mainQueue c) s.handlers.next) =
          Function.update (s.view n).messages i (if w.notificationId = n then
            some (.unacked (Topology.mainQueue c) s.handlers.next, w.message.attemptNumber)
          else none) := by
        rw [Broker.deliver, Broker.about_set hget, Option.bind_some]
        exact congrArg _ (Message.about_of_body hmessage)
      have hhandlers : (fun h => ((s.handlers.insert w).get h).bind (Handler.about n)) =
          Function.update (s.view n).handlers s.handlers.next (w.about n) := by
        rw [Registry.get_insert, Registry.bind_update]
        rfl
      have hold : (s.view n).messages i = m.about n := System.view_message hget
      have hfree : (s.view n).handlers s.handlers.next = none := by simp [view]
      by_cases hid : w.notificationId = n
      · rw [if_pos hid] at hmessages
        rw [habout, if_pos hid, hplace] at hold
        convert View.Step.delivered c i s.handlers.next w hold hfree hchannel htag hid hpc using 1
        refine View.ext rfl rfl hmessages ?_ rfl rfl rfl
        exact hhandlers.trans (by rw [Handler.about_self hid])
      · rw [if_neg hid] at hmessages
        rw [habout, if_neg hid] at hold
        refine .of_eq (View.ext rfl rfl ?_ ?_ rfl rfl rfl)
        · exact hmessages.trans (Function.update_eq_self_iff.mpr hold.symm)
        · refine hhandlers.trans (Function.update_eq_self_iff.mpr ?_)
          rw [hfree, Handler.about_other hid]
  | dropped c i m e hget hbody =>
      refine .of_eq (View.ext rfl rfl ?_ rfl rfl rfl rfl)
      refine (Broker.about_set hget none).trans (Function.update_eq_self_iff.mpr ?_)
      simp [Broker.about, hget, Message.about, hbody]
  | worked h w db broker pc hget hworked =>
      by_cases hid : w.notificationId = n
      · have hhandler : (s.view n).handlers h = some w := System.view_handlers.mpr ⟨hget, hid⟩
        exact .worked h w _ hhandler hid (hwell.view_worked hget hworked hid)
      · exact .of_eq (hwell.view_worked_other hget hworked hid)
  | sent h w row outcome hget hpc =>
      by_cases hid : w.notificationId = n
      · have hhandler : (s.view n).handlers h = some w := System.view_handlers.mpr ⟨hget, hid⟩
        convert View.Step.sent h w row outcome hhandler hid hpc using 1
        refine View.ext rfl rfl rfl (System.handlers_set hget hid _) rfl ?_ rfl
        simp [view, hid]
      · refine .of_eq (View.ext rfl rfl rfl (System.view_handlers_other hget hid ?_) rfl ?_ rfl)
        · rintro w' ⟨⟩
          exact hid
        · simp [view, hid]
  | crashed h w hget =>
      by_cases hid : w.notificationId = n
      · have hhandler : (s.view n).handlers h = some w := System.view_handlers.mpr ⟨hget, hid⟩
        convert View.Step.crashed h w hhandler hid using 1
        exact View.ext rfl rfl rfl (System.view_handlers_set hget none) rfl rfl rfl
      · exact .of_eq
          (View.ext rfl rfl rfl (System.view_handlers_other hget hid (by simp)) rfl rfl rfl)
  | expired i broker hexpire =>
      obtain ⟨c, rung, envelope, hget, rfl⟩ := Broker.expire_cases hexpire
      have hold := System.view_message (n := n) hget
      have hmessages : Broker.about n
          (Broker.enqueue (s.broker.set i none) (Topology.mainQueue c) envelope) =
          Function.update (Function.update (s.view n).messages i none) s.broker.next
            (Message.about n ⟨.queue (Topology.mainQueue c), envelope⟩) := by
        rw [Broker.about_enqueue, Broker.about_set hget]
        rfl
      have hfree : (s.view n).messages s.broker.next = none := Broker.about_next s.broker
      rcases Message.about_cases n envelope with habout | ⟨k, habout⟩
      · refine .of_eq (View.ext rfl rfl (hmessages.trans ?_) rfl rfl rfl rfl)
        rw [habout] at hold ⊢
        have hsame : Function.update (s.view n).messages i none = (s.view n).messages :=
          Function.update_eq_self_iff.mpr hold.symm
        rw [hsame]
        exact Function.update_eq_self_iff.mpr hfree.symm
      · rw [habout] at hold hmessages
        convert View.Step.expired i s.broker.next c rung k hold hfree using 1
        exact View.ext rfl rfl hmessages rfl rfl rfl rfl
  | requeued i broker hrequeue =>
      obtain ⟨name, consumer, envelope, hget, rfl⟩ := Broker.requeue_cases hrequeue
      have hold := System.view_message (n := n) hget
      have hmessages : Broker.about n (s.broker.set i (some ⟨.queue name, envelope⟩)) =
          Function.update (s.view n).messages i (Message.about n ⟨.queue name, envelope⟩) := by
        rw [Broker.about_set hget]
        rfl
      rcases Message.about_cases n envelope with habout | ⟨k, habout⟩
      · refine .of_eq (View.ext rfl rfl (hmessages.trans ?_) rfl rfl rfl rfl)
        rw [habout] at hold ⊢
        exact Function.update_eq_self_iff.mpr hold.symm
      · rw [habout] at hold hmessages
        convert View.Step.requeued i name consumer k hold using 1
        exact View.ext rfl rfl hmessages rfl rfl rfl rfl

/-- The refinement with every known key: a step of the service is a step of the view of every
notification. -/
theorem System.WellFormed.step_view (hwell : s.WellFormed) {event : Event}
    (hstep : s.step env event = some t) :
    View.Step env n (s.MeetsKnownKey env event) (s.view n) event (t.view n) :=
  (hwell.step_view_own hstep).mono MeetsRow.meets_known_key

theorem System.view_initial (n : String) : System.initial.view n = View.empty := rfl

/-- The invariant rule for one notification: what holds of the empty view and is kept by the steps
of the view holds of the view in every state reached. -/
theorem System.view_invariant {allowed : System → Event → Prop} {property : View → Prop}
    (hreach : EventMachine.Reaches (System.step env) allowed .initial s)
    (hempty : property .empty)
    (hkeep : ∀ s event next, s.WellFormed → allowed s event → property (s.view n) →
      View.Step env n (s.MeetsKnownKey env event) (s.view n) event next → property next) :
    property (s.view n) := by
  let both (s : System) : Prop := s.WellFormed ∧ property (s.view n)
  have hstart : both .initial :=
    ⟨System.well_formed_initial, (System.view_initial n).symm ▸ hempty⟩
  have hstep : ∀ s event next, both s → allowed s event → s.step env event = some next →
      both next := by
    intro s event next hs hallowed hstep
    exact ⟨hs.1.step hstep, hkeep s event _ hs.1 hallowed hs.2 (hs.1.step_view hstep)⟩
  exact (hreach.invariant hstep hstart).2

end Step

end NotificationDelivery
