import NotificationDelivery.Service.NoLoss

/-!
# When SENT is absorbing

`onMessage` reads the status once, and its updates are unconditional. So a notification that
`markSent` has marked stays SENT exactly if no other delivery of it stands behind the status
check with a write or a publish before it: `sent_absorbing_iff`.
-/

namespace NotificationDelivery

open EventMachine

/-- The rung for the retry of the delivery is declared. -/
def Handler.HasRung (config : Config) (w : Handler) : Prop :=
  1 ≤ w.message.attemptNumber ∧ w.message.attemptNumber ≤ config.retryDelaysMs.length

/-- The delivery has passed the status check, and what is left of it may set PROCESSING or
DEAD_LETTERED or put a message on a rung or on the dead-letter queue. -/
def Handler.Threatens (config : Config) (w : Handler) : Prop :=
  match w.pc with
  | .markProcessing _ | .send _ | .recordDead _ _ | .publishDlq | .markDeadLettered => True
  | .incrementFailure _ isTransient => w.retries config isTransient = true → w.HasRung config
  | .recordRetry _ | .publishRetry => w.HasRung config
  | .findById | .recordSuccess _ | .markSent | .incrementSuccess | .ack => False

namespace View

/-- The step sets the notification to PROCESSING or DEAD_LETTERED, or puts a message for it on a
retry queue or on a dead-letter queue. -/
def Regresses (v next : View) : Prop :=
  (∃ row, next.row = some row ∧ (row.status = .processing ∨ row.status = .deadLettered)) ∨
  ∃ i name k, v.messages i = none ∧ next.messages i = some (.queue name, k) ∧
    ((∃ c rung, name = Topology.retryQueue c rung) ∨ ∃ c, name = Topology.dlq c)

/-- The notification is SENT and no delivery threatens it. -/
structure Settled (config : Config) (v : View) : Prop where
  sent : ∃ row, v.row = some row ∧ row.status = .sent
  harmless : ∀ h w, v.handlers h = some w → ¬ w.Threatens config

variable {env : Env} {config : Config} {n : String} {known : Prop} {v next : View} {h : Nat}
  {w : Handler} {event : Event}

namespace Settled

/-- A delivery moves on without becoming a threat. -/
theorem advance (hsettled : v.Settled config) {u : View} {pc : HandlerPc}
    (hrow : ∃ row, u.row = some row ∧ row.status = .sent) (hhandlers : u.handlers = v.handlers)
    (hpc : ¬ (w.goto pc).Threatens config) : (u.advance h w pc).Settled config where
  sent := hrow
  harmless := by
    intro h' w' hget
    rcases Registry.update_eq_some.mp hget with ⟨_, heq⟩ | ⟨_, hget⟩
    · obtain rfl := Option.some.inj heq
      exact hpc
    · exact hsettled.harmless h' w' (hhandlers ▸ hget)

/-- A delivery leaves. -/
theorem remove (hsettled : v.Settled config) {u : View} (hrow : u.row = v.row) (h : Nat)
    (hhandlers : u.handlers = Function.update v.handlers h none) : u.Settled config where
  sent := hrow ▸ hsettled.sent
  harmless := by
    intro h' w' hget
    rw [hhandlers] at hget
    rcases Registry.update_eq_some.mp hget with ⟨_, heq⟩ | ⟨_, hget⟩
    · exact absurd heq (by simp)
    · exact hsettled.harmless h' w' hget

theorem sent_increment (hsettled : v.Settled config) :
    ∃ row, v.increment.row = some row ∧ row.status = .sent := by
  obtain ⟨row, hrow, hstatus⟩ := hsettled.sent
  exact ⟨{ row with attemptCount := row.attemptCount + 1 }, by simp [increment, hrow], hstatus⟩

theorem sent_mark (hsettled : v.Settled config) :
    ∃ row, (v.setStatus .sent).row = some row ∧ row.status = .sent := by
  obtain ⟨row, hrow, -⟩ := hsettled.sent
  exact ⟨{ row with status := .sent }, by simp [setStatus, hrow], rfl⟩

/-- The statements of the deliveries leave a settled notification settled. -/
theorem worked (hsettled : v.Settled config) (hget : v.handlers h = some w)
    (hworked : v.Worked config h w next) : next.Settled config ∧
      ∀ i, v.messages i = none → next.messages i = none := by
  have hharmless := hsettled.harmless h w hget
  obtain ⟨row, hrow, hsent⟩ := hsettled.sent
  cases hworked with
  | missed hpc hnone => exact absurd (hrow.symm.trans hnone) (by simp)
  | skipped =>
      exact ⟨hsettled.advance hsettled.sent rfl (by simp [Handler.Threatens]), fun _ hi => hi⟩
  | found row' hpc hrow' hstatus =>
      obtain rfl := Option.some.inj (hrow.symm.trans hrow')
      simp [hsent, NotificationStatus.skipped] at hstatus
  | markedProcessing row' hpc => simp [Handler.Threatens, hpc] at hharmless
  | recordedSuccess =>
      exact ⟨hsettled.advance hsettled.sent rfl (by simp [Handler.Threatens]), fun _ hi => hi⟩
  | markedSent =>
      exact ⟨hsettled.advance hsettled.sent_mark rfl (by simp [Handler.Threatens]), fun _ hi => hi⟩
  | incrementedSuccess =>
      exact ⟨hsettled.advance hsettled.sent_increment rfl (by simp [Handler.Threatens]),
        fun _ hi => hi⟩
  | incrementedRetry what isTransient hpc hretries =>
      have hrung : ¬ w.HasRung config := by simpa [Handler.Threatens, hpc, hretries] using hharmless
      exact ⟨hsettled.advance hsettled.sent_increment rfl hrung, fun _ hi => hi⟩
  | incrementedDead what isTransient hpc hretries =>
      simp [Handler.Threatens, hpc, hretries] at hharmless
  | recordedRetry what hpc =>
      have hrung : ¬ w.HasRung config := by simpa [Handler.Threatens, hpc] using hharmless
      exact ⟨hsettled.advance hsettled.sent rfl hrung, fun _ hi => hi⟩
  | publishedRetry i hpc hfree hdeclared =>
      have hrung : ¬ w.HasRung config := by simpa [Handler.Threatens, hpc] using hharmless
      exact absurd hdeclared hrung
  | droppedRetry =>
      exact ⟨hsettled.advance hsettled.sent rfl (by simp [Handler.Threatens]), fun _ hi => hi⟩
  | recordedDead what isTransient hpc => simp [Handler.Threatens, hpc] at hharmless
  | publishedDlq i hpc => simp [Handler.Threatens, hpc] at hharmless
  | markedDeadLettered hpc => simp [Handler.Threatens, hpc] at hharmless
  | acked hpc hholds =>
      refine ⟨hsettled.remove (u := { v.setMessage w.deliveryTag none with
        handlers := Function.update v.handlers h none }) rfl h rfl, fun i hi => ?_⟩
      by_cases htag : i = w.deliveryTag
      · subst htag
        exact Function.update_self _ _ _
      · exact (Function.update_of_ne htag _ _).trans hi
  | ackedLate => exact ⟨hsettled.remove rfl h rfl, fun _ hi => hi⟩

/-- A settled notification does not regress in a step that puts new messages on the main queue
only. -/
theorem not_regresses (hnext : next.Settled config)
    (hnew : ∀ i name k, v.messages i = none → next.messages i = some (.queue name, k) →
      ∃ c, name = Topology.mainQueue c) : ¬ v.Regresses next := by
  obtain ⟨row, hrow, hsent⟩ := hnext.sent
  intro h
  rcases h with ⟨row', hrow', hstatus⟩ | ⟨i, name, k, hfree, hget, hname⟩
  · obtain rfl := Option.some.inj (hrow.symm.trans hrow')
    simp [hsent] at hstatus
  · obtain ⟨c, rfl⟩ := hnew i name k hfree hget
    simp at hname

/-- The step lemma. -/
theorem step (hsettled : v.Settled env.config) (hstep : View.Step env n known v event next) :
    next.Settled env.config ∧ ¬ v.Regresses next := by
  obtain ⟨row, hrow, -⟩ := hsettled.sent
  -- a change of one message adds nothing to the retry queues and the dead-letter queues
  have hchange : ∀ j (message : Option (Place × Int)),
      (∀ place k, message = some (place, k) → v.messages j ≠ none ∨
        ∃ c, place = .queue (Topology.mainQueue c)) →
      ∀ i name k, v.messages i = none →
        Function.update v.messages j message i = some (.queue name, k) →
        ∃ c, name = Topology.mainQueue c := by
    intro j message hmessage i name k hfree hget
    rcases Registry.update_eq_some.mp hget with ⟨rfl, heq⟩ | ⟨_, hget⟩
    · rcases hmessage _ k heq with hused | ⟨c, hc⟩
      · exact absurd hfree hused
      · exact ⟨c, by simpa using hc⟩
    · exact absurd (hfree.symm.trans hget) (by simp)
  have hsame : ∀ i name k, v.messages i = none → v.messages i = some (.queue name, k) →
      ∃ c, name = Topology.mainQueue c := by
    intro i name k hfree hget
    exact absurd (hfree.symm.trans hget) (by simp)
  cases hstep with
  | unrelated => exact ⟨hsettled, not_regresses hsettled hsame⟩
  | found | aborted =>
      have hnext : ∀ p saved, (v.setPublishing p saved).Settled env.config :=
        fun _ _ => ⟨hsettled.sent, hsettled.harmless⟩
      exact ⟨hnext _ _, not_regresses (hnext _ _) hsame⟩
  | committed p saved hnone => exact absurd (hrow.symm.trans hnone) (by simp)
  | published p saved i =>
      have hnext : View.Settled env.config
          { (v.setMessage i (some (.queue (Topology.mainQueue saved.channel), 1))).setPublishing p
            none with announced := true } := ⟨hsettled.sent, hsettled.harmless⟩
      refine ⟨hnext, not_regresses hnext (hchange i _ ?_)⟩
      rintro _ _ ⟨⟩
      exact .inr ⟨_, rfl⟩
  | delivered c i h w hmessage hfree hc htag hid hpc =>
      have hnext : View.Settled env.config
          { v.setMessage i (some (.unacked (Topology.mainQueue c) h, w.message.attemptNumber)) with
            handlers := Function.update v.handlers h (some w) } := by
        refine ⟨hsettled.sent, fun h' w' hget => ?_⟩
        rcases Registry.update_eq_some.mp hget with ⟨_, heq⟩ | ⟨_, hget⟩
        · cases heq
          simp [Handler.Threatens, hpc]
        · exact hsettled.harmless h' w' hget
      refine ⟨hnext, not_regresses hnext (hchange i _ fun _ _ _ => .inl ?_)⟩
      simp [hmessage]
  | worked h w next hget hid hworked =>
      obtain ⟨hnext, hmessages⟩ := hsettled.worked hget hworked
      refine ⟨hnext, not_regresses hnext fun i name k hfree hi => ?_⟩
      exact absurd ((hmessages i hfree).symm.trans hi) (by simp)
  | sent h w row' outcome hget hid hpc =>
      have hharmless := hsettled.harmless h w hget
      simp [Handler.Threatens, hpc] at hharmless
  | crashed h w =>
      have hnext := hsettled.remove (u := { v with handlers := Function.update v.handlers h none })
        rfl h rfl
      exact ⟨hnext, not_regresses hnext hsame⟩
  | expired i j c rung k hmessage hfree =>
      have hnext : View.Settled env.config
          ((v.setMessage i none).setMessage j (some (.queue (Topology.mainQueue c), k))) :=
        ⟨hsettled.sent, hsettled.harmless⟩
      refine ⟨hnext, not_regresses hnext fun i' name k' hfree' hget => ?_⟩
      rcases Registry.update_eq_some.mp hget with ⟨rfl, heq⟩ | ⟨_, hget⟩
      · cases heq
        exact ⟨c, rfl⟩
      · exact hchange i none (by simp) i' name k' hfree' hget
  | requeued i name consumer k hmessage =>
      have hnext : (v.setMessage i (some (.queue name, k))).Settled env.config :=
        ⟨hsettled.sent, hsettled.harmless⟩
      refine ⟨hnext, not_regresses hnext (hchange i _ fun _ _ _ => .inl ?_)⟩
      simp [hmessage]

end Settled

end View

namespace System

variable {env : Env} {s t : System} {n : String} {h : Nat} {w : Handler} {event : Event}

/-- A settled notification stays settled. -/
theorem WellFormed.stays_settled (hwell : s.WellFormed) (hsettled : (s.view n).Settled env.config)
    (hreach : Continues env s t) :
    t.WellFormed ∧ (t.view n).Settled env.config := by
  let invariant (u : System) : Prop := u.WellFormed ∧ (u.view n).Settled env.config
  have hkeep : ∀ u event next, invariant u → True → u.step env event = some next →
      invariant next := by
    intro u event next hu _ hstep
    exact ⟨hu.1.step hstep, (hu.2.step (hu.1.step_view hstep)).1⟩
  have hlast : invariant t := hreach.invariant hkeep ⟨hwell, hsettled⟩
  exact hlast

/-- Some continuation makes the notification regress. -/
def CanRegress (env : Env) (n : String) (s : System) : Prop :=
  ∃ u event next, Continues env s u ∧ u.step env event = some next ∧
    (u.view n).Regresses (next.view n)

theorem CanRegress.of_step (hstep : s.step env event = some t) (h : CanRegress env n t) :
    CanRegress env n s := by
  obtain ⟨u, last, next, hreach, hlast, hregress⟩ := h
  exact ⟨u, last, next, (Reaches.single trivial hstep).trans hreach, hlast, hregress⟩

/-- Setting the status of an existing row to PROCESSING or DEAD_LETTERED is a regression. -/
theorem canRegress_of_status {row : Notification} {status : NotificationStatus} {pc : HandlerPc}
    (hget : s.handlers.get h = some w) (hrow : s.db.findById w.notificationId = some row)
    (hwork : w.work env.config s.db s.broker h =
      some (s.db.setStatus status w.notificationId, s.broker, some pc))
    (hstatus : status = .processing ∨ status = .deadLettered) :
    CanRegress env w.notificationId s := by
  obtain ⟨t, hstep, -, hdb, -⟩ := exists_work env hget hwork
  refine ⟨s, _, t, .refl s, hstep, .inl ⟨{ row with status }, ?_, hstatus⟩⟩
  simp [view, hdb, hrow]

/-- Publishing a message for the notification to a retry queue or a dead-letter queue is a
regression. -/
theorem canRegress_of_publish {name : String} {envelope : Envelope} {body : MessageBody}
    {pc : HandlerPc} (hget : s.handlers.get h = some w)
    (hwork : w.work env.config s.db s.broker h =
      some (s.db, s.broker.enqueue name envelope, some pc))
    (hbody : MessageBody.fromJson envelope.body = .ok body)
    (hid : body.notificationId = w.notificationId)
    (hname : (∃ c rung, name = Topology.retryQueue c rung) ∨ ∃ c, name = Topology.dlq c) :
    CanRegress env w.notificationId s := by
  obtain ⟨t, hstep, -, -, hbroker⟩ := exists_work env hget hwork
  refine ⟨s, _, t, .refl s, hstep, .inr ⟨s.broker.next, name, body.attemptNumber, ?_, ?_, hname⟩⟩
  · exact Broker.about_next s.broker
  · simp only [view, hbroker, Broker.about_enqueue_body name hbody hid, Function.update_self]

theorem canRegress_publishDlq (hget : s.handlers.get h = some w) (hpc : w.pc = .publishDlq) :
    CanRegress env w.notificationId s := by
  have hwork : w.work env.config s.db s.broker h =
      some (s.db, s.broker.enqueue (Topology.dlq w.channel) { body := w.body },
        some .markDeadLettered) := by
    simp only [Handler.work, hpc, Broker.publish_dlq]
  exact canRegress_of_publish hget hwork w.decoded rfl (.inr ⟨_, rfl⟩)

theorem canRegress_recordDead {what : String} {isTransient : Bool}
    (hget : s.handlers.get h = some w) (hpc : w.pc = .recordDead what isTransient) :
    CanRegress env w.notificationId s := by
  have hwork : w.work env.config s.db s.broker h =
      some (s.db.record (w.failureAttempt what isTransient), s.broker, some .publishDlq) := by
    simp only [Handler.work, hpc]
  obtain ⟨t, hstep, hget', -, -⟩ := exists_work env hget hwork
  have hnext : CanRegress env (w.goto .publishDlq).notificationId t :=
    canRegress_publishDlq hget' rfl
  exact hnext.of_step hstep

theorem canRegress_publishRetry (hget : s.handlers.get h = some w) (hpc : w.pc = .publishRetry)
    (hrung : w.HasRung env.config) : CanRegress env w.notificationId s := by
  have hwork : w.work env.config s.db s.broker h =
      some (s.db, s.broker.enqueue (Topology.retryQueue w.channel w.message.attemptNumber)
        { body := w.retryBody.toJson, priority := w.message.priority }, some .ack) := by
    simp only [Handler.work, hpc, Broker.publish_retry, hrung.1, hrung.2, and_self, if_true]
  exact canRegress_of_publish hget hwork (MessageBody.from_json_to_json _) rfl (.inl ⟨_, _, rfl⟩)

theorem canRegress_recordRetry {what : String} (hget : s.handlers.get h = some w)
    (hpc : w.pc = .recordRetry what) (hrung : w.HasRung env.config) :
    CanRegress env w.notificationId s := by
  have hwork : w.work env.config s.db s.broker h =
      some (s.db.record (w.failureAttempt what true), s.broker, some .publishRetry) := by
    simp only [Handler.work, hpc]
  obtain ⟨t, hstep, hget', -, -⟩ := exists_work env hget hwork
  have hnext : CanRegress env (w.goto .publishRetry).notificationId t :=
    canRegress_publishRetry hget' rfl hrung
  exact hnext.of_step hstep

theorem canRegress_incrementFailure {what : String} {isTransient : Bool}
    (hget : s.handlers.get h = some w) (hpc : w.pc = .incrementFailure what isTransient)
    (hrung : w.retries env.config isTransient = true → w.HasRung env.config) :
    CanRegress env w.notificationId s := by
  cases hretries : w.retries env.config isTransient with
  | true =>
      have hwork : w.work env.config s.db s.broker h =
          some
            (s.db.incrementAttemptCount w.notificationId, s.broker, some (.recordRetry what)) := by
        simp [Handler.work, hpc, hretries]
      obtain ⟨t, hstep, hget', -, -⟩ := exists_work env hget hwork
      have hnext : CanRegress env (w.goto (.recordRetry what)).notificationId t :=
        canRegress_recordRetry hget' rfl (hrung hretries)
      exact hnext.of_step hstep
  | false =>
      have hwork : w.work env.config s.db s.broker h =
          some (s.db.incrementAttemptCount w.notificationId, s.broker,
            some (.recordDead what isTransient)) := by
        simp [Handler.work, hpc, hretries]
      obtain ⟨t, hstep, hget', -, -⟩ := exists_work env hget hwork
      have hnext : CanRegress env (w.goto (.recordDead what isTransient)).notificationId t :=
        canRegress_recordDead hget' rfl
      exact hnext.of_step hstep

/-- A delivery that threatens its notification can carry the threat out. -/
theorem canRegress_of_threat {row : Notification} (hget : s.handlers.get h = some w)
    (hrow : s.db.findById w.notificationId = some row) (hthreat : w.Threatens env.config) :
    CanRegress env w.notificationId s := by
  unfold Handler.Threatens at hthreat
  cases hpc : w.pc with
  | findById | recordSuccess | markSent | incrementSuccess | ack => simp [hpc] at hthreat
  | markProcessing row' =>
      have hwork : w.work env.config s.db s.broker h =
          some (s.db.setStatus .processing w.notificationId, s.broker, some (.send row')) := by
        simp only [Handler.work, hpc, Database.markProcessing]
      exact canRegress_of_status hget hrow hwork (.inl rfl)
  | send row' =>
      obtain ⟨t, hstep, hget', -, -⟩ := exists_send env hget hpc (.failure "rejected" false)
      have hnext : CanRegress env (w.goto (.incrementFailure "rejected" false)).notificationId t :=
        canRegress_incrementFailure hget' rfl (by simp [Received.retries])
      exact hnext.of_step hstep
  | incrementFailure what isTransient =>
      exact canRegress_incrementFailure hget hpc (by simpa [hpc] using hthreat)
  | recordRetry what => exact canRegress_recordRetry hget hpc (by simpa [hpc] using hthreat)
  | publishRetry => exact canRegress_publishRetry hget hpc (by simpa [hpc] using hthreat)
  | recordDead what isTransient => exact canRegress_recordDead hget hpc
  | publishDlq => exact canRegress_publishDlq hget hpc
  | markDeadLettered =>
      have hwork : w.work env.config s.db s.broker h =
          some (s.db.setStatus .deadLettered w.notificationId, s.broker, some .ack) := by
        simp only [Handler.work, hpc, Database.markDeadLettered]
      exact canRegress_of_status hget hrow hwork (.inr rfl)

/-- What `markSent` leaves behind. -/
theorem markSent_effect (hget : s.handlers.get h = some w) (hpc : w.pc = .markSent)
    (hstep : s.step env (.work h) = some t) :
    t = { s with
      db := s.db.markSent w.notificationId
      handlers := s.handlers.set h (some (w.goto .incrementSuccess)) } := by
  simp [step, hget, Handler.work, hpc] at hstep
  exact hstep.symm

/-- Take any reachable state and a delivery that executes `markSent` in it. No later step of any run
sets the notification to PROCESSING or DEAD_LETTERED, schedules a retry of it or puts a copy on
the dead-letter queue, if and only if no other delivery of the notification threatens it. -/
theorem sent_absorbing_iff (env : Env) (s t : System) (h : Nat) (w : Handler)
    (hreach : Continues env initial s) (hget : s.handlers.get h = some w) (hpc : w.pc = .markSent)
    (hstep : s.step env (.work h) = some t) :
    (∀ u event next, Continues env t u → u.step env event = some next →
      ¬ (u.view w.notificationId).Regresses (next.view w.notificationId)) ↔
    ∀ h' w', h' ≠ h → s.handlers.get h' = some w' → w'.notificationId = w.notificationId →
      ¬ w'.Threatens env.config := by
  have hwell := reachable_well_formed hreach
  have hplaced := reachable_placed hreach w.notificationId
  obtain ⟨row, hrow, -⟩ := Option.map_eq_some_iff.mp
    (hplaced.handler h w (view_handlers.mpr ⟨hget, rfl⟩)).1
  have hrow' : s.db.findById w.notificationId = some row := hrow
  have heffect := markSent_effect hget hpc hstep
  have hhandlers : t.handlers.get =
      Function.update s.handlers.get h (some (w.goto .incrementSuccess)) := by
    rw [heffect, Registry.get_set hget]
  have hsent : t.db.findById w.notificationId = some { row with status := .sent } := by
    rw [heffect]
    simp [Database.markSent, hrow']
  constructor
  · intro hnever h' w' hne hget' hid hthreat
    have ht : t.handlers.get h' = some w' := by rw [hhandlers, Function.update_of_ne hne, hget']
    obtain ⟨u, event, next, hcontinues, hlast, hregress⟩ :=
      canRegress_of_threat ht (hid.symm ▸ hsent) hthreat
    exact hnever u event next hcontinues hlast (hid ▸ hregress)
  · intro hharmless u event next hcontinues hlast
    have hsettled : (t.view w.notificationId).Settled env.config := by
      refine ⟨⟨_, hsent, rfl⟩, fun h' w' hview => ?_⟩
      obtain ⟨hget', hid⟩ := view_handlers.mp hview
      rw [hhandlers] at hget'
      rcases Registry.update_eq_some.mp hget' with ⟨_, heq⟩ | ⟨hne, hget'⟩
      · obtain rfl := Option.some.inj heq
        simp [Handler.Threatens]
      · exact hharmless h' w' hne hget' hid
    obtain ⟨hwell', hsettled'⟩ := (hwell.step hstep).stays_settled hsettled hcontinues
    exact (hsettled'.step (hwell'.step_view hlast)).2

/-- A first attempt that succeeds, up to `markSent`. -/
def firstSuccess : List Event :=
  (submission sample "id").append [.deliver .email 0, .work 0, .work 0, .send 0 (.result "ref"),
    .work 0]

/-- With a single delivery SENT is absorbing. -/
theorem sent_absorbing_iff_single :
    ∃ s t, run (System.step shipped) initial firstSuccess = some s ∧
      s.step shipped (.work 0) = some t ∧
      ∀ u event next, Continues shipped t u → u.step shipped event = some next →
        ¬ (u.view "id").Regresses (next.view "id") := by
  have hlast : ∃ s t w, run (System.step shipped) initial firstSuccess = some s ∧
      s.step shipped (.work 0) = some t ∧ s.handlers.get 0 = some w ∧ w.pc = .markSent ∧
      w.notificationId = "id" ∧ s.handlers.next = 1 := ⟨_, _, _, rfl, rfl, rfl, rfl, rfl, rfl⟩
  obtain ⟨s, t, w, hrun, hstep, hget, hpc, hid, hnext⟩ := hlast
  have hreach : Continues shipped initial s := Reaches.of_run (fun _ _ _ => trivial) hrun
  refine ⟨s, t, hrun, hstep, ?_⟩
  rw [← hid]
  refine (sent_absorbing_iff shipped s t 0 w hreach hget hpc hstep).mpr ?_
  intro h' w' hne hget' _
  have hfree : s.handlers.get h' = none := s.handlers.fresh h' (by omega)
  exact absurd (hget'.symm.trans hfree) (by simp)

/-- The message of a first delivery is put back after the status check, and a second delivery comes
to `markSent`. -/
def overtaken : List Event :=
  (submission sample "id").append [.deliver .email 0, .work 0, .requeue 0, .deliver .email 0,
    .work 1, .work 1, .send 1 (.result "ref"), .work 1]

/-- The first delivery then sets the delivered notification to PROCESSING. -/
theorem sent_not_absorbing :
    ∃ s w t next, run (System.step shipped) initial overtaken = some s ∧
      s.handlers.get 1 = some w ∧ w.pc = .markSent ∧ w.notificationId = "id" ∧
      s.step shipped (.work 1) = some t ∧ t.step shipped (.work 0) = some next ∧
      (t.view "id").row.map Notification.status = some .sent ∧
      (t.view "id").Regresses (next.view "id") :=
  ⟨_, _, _, _, rfl, rfl, rfl, rfl, rfl, rfl, rfl, .inl ⟨_, rfl, .inl rfl⟩⟩

end System

end NotificationDelivery
