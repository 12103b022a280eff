import NotificationDelivery.Service.RetryLadder

/-!
# No accepted notification is lost

A notification that the API has announced is delivered, parked on the dead-letter queue, or has
a message. The plain statement is not inductive: a message may be unacked at a delivery that
has already decided to ack it. `View.Safe` asks for a message that no delivery is about to
ack. It is kept by every statement except one: a delivery whose message the broker has put
back may set a delivered notification to PROCESSING (`View.OverwritesFinal`).
-/

namespace NotificationDelivery

open EventMachine

/-- The delivery has done everything but the ack, apart from counting a successful attempt. -/
def Handler.Spent (w : Handler) : Prop := w.pc = .incrementSuccess ∨ w.pc = .ack

namespace View

/-- The message is not about to be acked: it waits on a queue, or the delivery that holds it has
died or still has to decide. -/
def SafeAt (v : View) (i : Nat) (place : Place) : Prop :=
  ∀ name h w, place = .unacked name h → v.handlers h = some w → w.deliveryTag = i → ¬ w.Spent

/-- Some message is not about to be acked. -/
def Safe (v : View) : Prop := ∃ i place k, v.messages i = some (place, k) ∧ v.SafeAt i place

/-- The status for which deliveries are skipped. -/
def Final (v : View) : Prop := ∃ row, v.row = some row ∧ row.status.skipped = true

/-- A delivery sets the notification to PROCESSING over a final status, although the broker has put
its message back. -/
def OverwritesFinal (v : View) (event : Event) : Prop :=
  ∃ h w row, event = .work h ∧ v.handlers h = some w ∧ w.pc = .markProcessing row ∧ v.Final ∧
    ¬ v.Holds h w

/-- The notification is delivered or cancelled, a copy of its message is on the dead-letter queue of
its channel, or a message for it waits on the main queue, waits on a declared rung, or is
unacked. -/
def Accounted (config : Config) (v : View) : Prop :=
  ∃ row, v.row = some row ∧ (row.status = .sent ∨ row.status = .cancelled ∨
    (∃ i k, v.messages i = some (.queue (Topology.dlq row.channel), k)) ∨
    ∃ i place k, v.messages i = some (place, k) ∧
      (place = .queue (Topology.mainQueue row.channel) ∨
        (∃ rung, place = .queue (Topology.retryQueue row.channel rung) ∧
          Topology.retryQueue row.channel rung ∈
            (Topology.declareAll config).queues.map QueueDecl.name) ∨
        ∃ name consumer, place = .unacked name consumer))

/-- What an announced notification keeps. -/
structure Kept (v : View) : Prop where
  kept : v.announced = true → v.Final ∨ v.Safe
  parked : ∀ h w, v.handlers h = some w → w.pc = .markDeadLettered →
    ∃ i c k, v.messages i = some (.queue (Topology.dlq c), k)

variable {env : Env} {config : Config} {n : String} {known : Prop} {v next : View} {h i j : Nat}
  {w : Handler} {k : Int} {place : Place} {event : Event}

theorem safe_of_queue {name : String} (hget : v.messages i = some (.queue name, k)) : v.Safe :=
  ⟨i, _, k, hget, by simp [SafeAt]⟩

namespace Safe

/-- Only the messages and the deliveries matter. -/
theorem of_eq (hsafe : v.Safe) (hmessages : next.messages = v.messages)
    (hhandlers : next.handlers = v.handlers) : next.Safe := by
  obtain ⟨i, place, k, hget, hat⟩ := hsafe
  exact ⟨i, place, k, hmessages ▸ hget, fun name h w hplace hw =>
    hat name h w hplace (hhandlers ▸ hw)⟩

/-- A delivery moves on without deciding to ack. -/
theorem advance (hsafe : v.Safe) (hget : v.handlers h = some w) {pc : HandlerPc}
    (hspent : (w.goto pc).Spent → w.Spent) : (v.advance h w pc).Safe := by
  obtain ⟨i, place, k, hmessage, hat⟩ := hsafe
  refine ⟨i, place, k, hmessage, fun name h' w' hplace hw' htag => ?_⟩
  rcases Registry.update_eq_some.mp hw' with ⟨rfl, heq⟩ | ⟨_, hw'⟩
  · obtain rfl := Option.some.inj heq
    exact fun hs => hat name h' w hplace hget htag (hspent hs)
  · exact hat name h' w' hplace hw' htag

/-- A delivery leaves. -/
theorem remove (hsafe : v.Safe) (h : Nat) :
    { v with handlers := Function.update v.handlers h none }.Safe := by
  obtain ⟨i, place, k, hmessage, hat⟩ := hsafe
  refine ⟨i, place, k, hmessage, fun name h' w' hplace hw' htag => ?_⟩
  rcases Registry.update_eq_some.mp hw' with ⟨_, heq⟩ | ⟨_, hw'⟩
  · exact absurd heq (by simp)
  · exact hat name h' w' hplace hw' htag

/-- The ack of a delivery that has decided to ack takes no other message. -/
theorem ack (hsafe : v.Safe) (hget : v.handlers h = some w) (hspent : w.Spent)
    (hholds : v.Holds h w) :
    { v.setMessage w.deliveryTag none with
      handlers := Function.update v.handlers h none }.Safe := by
  obtain ⟨i, place, k, hmessage, hat⟩ := hsafe
  obtain ⟨name, k', hheld⟩ := hholds
  have hi : i ≠ w.deliveryTag := by
    rintro rfl
    rw [hheld] at hmessage
    cases hmessage
    exact hat name h w rfl hget rfl hspent
  have hrest : (v.setMessage w.deliveryTag none).Safe :=
    ⟨i, place, k, Registry.update_eq_some.mpr (.inr ⟨hi, hmessage⟩), hat⟩
  exact hrest.remove h

end Safe

/-- A delivery that holds its message and has not decided to ack keeps it. -/
theorem Holds.safe_advance (hholds : v.Holds h w) {pc : HandlerPc} (hspent : ¬ (w.goto pc).Spent) :
    (v.advance h w pc).Safe := by
  obtain ⟨name, k, hheld⟩ := hholds
  refine ⟨w.deliveryTag, _, k, hheld, fun name' h' w' hplace hw' htag => ?_⟩
  cases hplace
  rcases Registry.update_eq_some.mp hw' with ⟨_, heq⟩ | ⟨hne, _⟩
  · obtain rfl := Option.some.inj heq
    exact hspent
  · exact absurd rfl hne

/-- A notification whose status is final stays so while its row is left alone. -/
theorem Final.of_eq (hfinal : v.Final) (hrow : next.row = v.row) : next.Final := by
  obtain ⟨row, hget, hstatus⟩ := hfinal
  exact ⟨row, hrow ▸ hget, hstatus⟩

theorem Final.increment (hfinal : v.Final) : v.increment.Final := by
  obtain ⟨row, hget, hstatus⟩ := hfinal
  exact ⟨{ row with attemptCount := row.attemptCount + 1 }, by simp [View.increment, hget], hstatus⟩

theorem kept_empty : empty.Kept where
  kept := by simp [empty]
  parked := by simp [empty]

namespace Kept

/-- The statement of a delivery, if it is not the overwriting one, keeps the notification. -/
theorem worked_kept (hkept : v.Kept) (hplaced : v.Placed config)
    (hladder : config.maxRetries ≤ config.retryDelaysMs.length) (hannounced : v.announced = true)
    (hget : v.handlers h = some w) (hguard : ¬ v.OverwritesFinal (.work h))
    (hworked : v.Worked config h w next) : next.Final ∨ next.Safe := by
  obtain ⟨hchannel, hone⟩ := hplaced.handler h w hget
  have hquiet : ∀ {u : View} {pc}, u.messages = v.messages → u.handlers = v.handlers →
      ((w.goto pc).Spent → w.Spent) → (v.Final → (u.advance h w pc).Final) →
      (u.advance h w pc).Final ∨ (u.advance h w pc).Safe := by
    intro u pc hmessages hhandlers hspent hrow
    rcases hkept.kept hannounced with hfinal | hsafe
    · exact .inl (hrow hfinal)
    · exact .inr ((hsafe.of_eq hmessages hhandlers).advance (hhandlers ▸ hget) hspent)
  cases hworked with
  | missed hpc hrow => exact absurd hrow (hplaced.stored hget)
  | skipped row hpc hrow hstatus => exact .inl ⟨row, hrow, hstatus⟩
  | found | recordedSuccess | recordedRetry | recordedDead =>
      exact hquiet rfl rfl (by simp [Handler.Spent]) fun hfinal => hfinal.of_eq rfl
  | markedProcessing row hpc =>
      by_cases hholds : v.Holds h w
      · exact .inr
          (Holds.safe_advance (v := v.setStatus .processing) hholds (by simp [Handler.Spent]))
      · refine hquiet rfl rfl (by simp [Handler.Spent]) fun hfinal => ?_
        exact absurd ⟨h, w, row, rfl, hget, hpc, hfinal, hholds⟩ hguard
  | markedSent hpc =>
      obtain ⟨row, hrow, -⟩ := Option.map_eq_some_iff.mp hchannel
      exact .inl ⟨{ row with status := .sent }, by simp [advance, setStatus, hrow], rfl⟩
  | incrementedSuccess hpc =>
      exact hquiet rfl rfl (fun _ => .inl hpc) fun hfinal => hfinal.increment.of_eq rfl
  | incrementedRetry | incrementedDead =>
      exact hquiet rfl rfl (by simp [Handler.Spent]) fun hfinal => hfinal.increment.of_eq rfl
  | publishedRetry i hpc hfree hdeclared =>
      exact .inr (safe_of_queue (i := i) (Function.update_self _ _ _))
  | droppedRetry hpc hundeclared =>
      have hlimit := hplaced.retrying h w hget (.inr hpc)
      exact absurd ⟨hone, by omega⟩ hundeclared
  | publishedDlq i hpc hfree =>
      exact .inr (safe_of_queue (i := i) (Function.update_self _ _ _))
  | markedDeadLettered hpc =>
      obtain ⟨i, c, k, hmessage⟩ := hkept.parked h w hget hpc
      exact .inr (safe_of_queue (i := i) hmessage)
  | acked hpc hholds =>
      rcases hkept.kept hannounced with hfinal | hsafe
      · exact .inl (hfinal.of_eq rfl)
      · exact .inr (hsafe.ack hget (.inr hpc) hholds)
  | ackedLate hpc hholds =>
      rcases hkept.kept hannounced with hfinal | hsafe
      · exact .inl (hfinal.of_eq rfl)
      · exact .inr (hsafe.remove h)

end Kept

/-- A message on the dead-letter queue stays there. -/
theorem Step.dlq_stays (hstep : View.Step env n known v event next) {c : Channel}
    (hget : v.messages i = some (.queue (Topology.dlq c), k)) :
    next.messages i = some (.queue (Topology.dlq c), k) := by
  have hset : ∀ j m, v.messages j ≠ some (.queue (Topology.dlq c), k) →
      Function.update v.messages j m i = some (.queue (Topology.dlq c), k) := by
    intro j m hne
    rw [Function.update_of_ne (by rintro rfl; exact hne hget), hget]
  cases hstep with
  | unrelated | found | committed | aborted | sent | crashed => exact hget
  | published p saved j hsaved hfree => exact hset j _ (by simp [hfree])
  | delivered c' j h w hmessage => exact hset j _ (by simp [hmessage])
  | requeued j name consumer k' hmessage => exact hset j _ (by simp [hmessage])
  | expired j j' c' rung k' hmessage hfree =>
      have htaken : (v.setMessage j none).messages i = some (.queue (Topology.dlq c), k) :=
        hset j _ (by simp [hmessage])
      refine Registry.update_eq_some.mpr (.inr ⟨?_, htaken⟩)
      rintro rfl
      exact absurd (hget.symm.trans hfree) (by simp)
  | worked h w next hhandler hid hworked =>
      cases hworked with
      | publishedRetry j hpc hfree => exact hset j _ (by simp [hfree])
      | publishedDlq j hpc hfree => exact hset j _ (by simp [hfree])
      | acked hpc hholds =>
          obtain ⟨name, k', hheld⟩ := hholds
          exact hset w.deliveryTag _ (by simp [hheld])
      | _ => exact hget

/-- Who is about to mark the notification DEAD_LETTERED has put a copy on the dead-letter queue. -/
theorem Kept.step_parked (hkept : v.Kept) (hstep : View.Step env n known v event next)
    (hget : next.handlers h = some w) (hpc : w.pc = .markDeadLettered) :
    ∃ i c k, next.messages i = some (.queue (Topology.dlq c), k) := by
  have hold : v.handlers h = some w → ∃ i c k,
      next.messages i = some (.queue (Topology.dlq c), k) := by
    intro hv
    obtain ⟨i, c, k, hmessage⟩ := hkept.parked h w hv hpc
    exact ⟨i, c, k, hstep.dlq_stays hmessage⟩
  have hmoved : ∀ h' (value : Option Handler), next.handlers = Function.update v.handlers h' value →
      (∀ w' ∈ value, w'.pc ≠ .markDeadLettered) →
      ∃ i c k, next.messages i = some (.queue (Topology.dlq c), k) := by
    intro h' value hnext hvalue
    rw [hnext] at hget
    rcases Registry.update_eq_some.mp hget with ⟨_, heq⟩ | ⟨_, hv⟩
    · exact absurd hpc (hvalue w heq)
    · exact hold hv
  cases hstep with
  | unrelated | found | committed | published | aborted | expired | requeued => exact hold hget
  | delivered c i h' w' hmessage hfree hc htag hid hpc' =>
      exact hmoved h' _ rfl (by simp [hpc'])
  | sent h' w' row outcome => exact hmoved h' _ rfl (by cases outcome <;> simp [Handler.afterSend])
  | crashed h' w' => exact hmoved h' _ rfl (by simp)
  | worked h' w' next hhandler hid hworked =>
      cases hworked with
      | publishedDlq j hpc' hfree => exact ⟨j, _, _, Function.update_self _ _ _⟩
      | _ => exact hmoved h' _ rfl (by simp)

/-- The step lemma: only the overwriting statement can lose a notification. -/
theorem Kept.step (hkept : v.Kept) (hplaced : v.Placed env.config)
    (hladder : env.config.maxRetries ≤ env.config.retryDelaysMs.length)
    (hguard : ¬ v.OverwritesFinal event) (hstep : View.Step env n known v event next) :
    next.Kept := by
  refine ⟨fun hannounced => ?_, fun h w hget hpc => hkept.step_parked hstep hget hpc⟩
  have hsame : ∀ {u : View}, v.announced = true → u.row = v.row → u.messages = v.messages →
      u.handlers = v.handlers → u.Final ∨ u.Safe := by
    intro u hv hrow hmessages hhandlers
    rcases hkept.kept hv with hfinal | hsafe
    · exact .inl (hfinal.of_eq hrow)
    · exact .inr (hsafe.of_eq hmessages hhandlers)
  cases hstep with
  | unrelated => exact hkept.kept hannounced
  | found | aborted => exact hsame hannounced rfl rfl rfl
  | committed p saved hrow =>
      rcases hkept.kept hannounced with ⟨row, hget, _⟩ | hsafe
      · exact absurd (hget.symm.trans hrow) (by simp)
      · exact .inr (hsafe.of_eq rfl rfl)
  | published p saved i =>
      exact .inr (safe_of_queue (i := i) (Function.update_self _ _ _))
  | delivered c i h w hmessage hfree hc htag hid hpc =>
      refine .inr ⟨i, _, _, Function.update_self _ _ _, fun name h' w' hplace hw' _ => ?_⟩
      cases hplace
      obtain rfl : w = w' := by simpa using hw'
      simp [Handler.Spent, hpc]
  | worked h w next hget hid hworked =>
      have hv : v.announced = true := by cases hworked <;> exact hannounced
      exact hkept.worked_kept hplaced hladder hv hget hguard hworked
  | sent h w row outcome hget hid hpc =>
      have hspent : ¬ (w.goto (Handler.afterSend outcome)).Spent := by
        cases outcome <;> simp [Handler.Spent, Handler.afterSend]
      rcases hkept.kept hannounced with hfinal | hsafe
      · exact .inl (hfinal.of_eq rfl)
      · exact .inr ((hsafe.advance hget fun hs => absurd hs hspent).of_eq rfl rfl)
  | crashed h w =>
      rcases hkept.kept hannounced with hfinal | hsafe
      · exact .inl (hfinal.of_eq rfl)
      · exact .inr (hsafe.remove h)
  | expired i j => exact .inr (safe_of_queue (i := j) (Function.update_self _ _ _))
  | requeued i => exact .inr (safe_of_queue (i := i) (Function.update_self _ _ _))

/-- What the invariant says in terms of queues. -/
theorem Kept.accounted (hkept : v.Kept) (hplaced : v.Placed config)
    (hannounced : v.announced = true) : v.Accounted config := by
  rcases hkept.kept hannounced with ⟨row, hrow, hstatus⟩ | ⟨i, place, k, hget, -⟩
  · refine ⟨row, hrow, ?_⟩
    cases hs : row.status <;> simp [hs, NotificationStatus.skipped] at hstatus ⊢
  · obtain ⟨-, c, hchannel, hproper⟩ := hplaced.message i place k hget
    obtain ⟨row, hrow, rfl⟩ := Option.map_eq_some_iff.mp hchannel
    refine ⟨row, hrow, .inr (.inr ?_)⟩
    cases hproper with
    | main => exact .inr ⟨i, _, k, hget, .inl rfl⟩
    | retry rung hone hlen =>
        exact .inr ⟨i, _, k, hget, .inr (.inl ⟨rung, rfl,
          Topology.retry_queue_declared.mpr ⟨hone, hlen⟩⟩)⟩
    | dlq => exact .inl ⟨i, k, hget⟩
    | unacked consumer => exact .inr ⟨i, _, k, hget, .inr (.inr ⟨_, consumer, rfl⟩)⟩

end View

namespace System

/-- The broker has put back the message that handler `h` was given. -/
def putBack (s : System) (h : Nat) (w : Handler) : Bool :=
  match s.broker.get w.deliveryTag with
  | some ⟨.unacked _ consumer, _⟩ => consumer ≠ h
  | _ => true

/-- The event sets a notification from SENT or CANCELLED to PROCESSING, by a delivery whose message
the broker has put back. -/
def overwritesFinal (s : System) : Event → Bool
  | .work h =>
      (s.handlers.get h).any fun w =>
        (match w.pc with
          | .markProcessing _ => true
          | _ => false) &&
        (s.db.findById w.notificationId).any (fun row => row.status.skipped) && s.putBack h w
  | _ => false

variable {env : Env} {s : System} {n : String} {event : Event}

/-- The view shows no such event unless the service performs it. -/
theorem WellFormed.overwrites_final (hwell : s.WellFormed)
    (hover : (s.view n).OverwritesFinal event) : s.overwritesFinal event = true := by
  obtain ⟨h, w, row, rfl, hview, hpc, ⟨current, hcurrent, hstatus⟩, hholds⟩ := hover
  obtain ⟨hget, rfl⟩ := view_handlers.mp hview
  have hfind : s.db.findById w.notificationId = some current := hcurrent
  have hputBack : s.putBack h w = true := by
    unfold putBack
    split
    · rename_i name consumer envelope hm
      simp only [ne_eq, decide_not, Bool.not_eq_true', decide_eq_false_iff_not]
      rintro rfl
      exact hholds (hwell.view_holds hget rfl hm)
    · rfl
  simp [overwritesFinal, hget, hpc, hfind, hstatus, hputBack]

/-- Take a ladder with a rung for every retry, any number of requests and deliveries that die at any
statement, and a broker that puts messages back at any time. As long as no delivery whose
message was put back sets a delivered notification to PROCESSING, every notification that
the API has announced is accounted for, in every state of every run. -/
theorem announced_accounted (env : Env)
    (hladder : env.config.maxRetries ≤ env.config.retryDelaysMs.length) (s : System) (n : String)
    (hreach : Reaches (System.step env) (fun s event => s.overwritesFinal event = false) initial s)
    (hannounced : n ∈ s.announced) : (s.view n).Accounted env.config := by
  let invariant (v : View) : Prop := v.Placed env.config ∧ v.Kept
  have hkept : invariant (s.view n) := by
    refine view_invariant hreach ⟨View.placed_empty _, View.kept_empty⟩ ?_
    intro s event next hwell hallowed hview hstep
    refine ⟨hview.1.step hstep, hview.2.step hview.1 hladder (fun hover => ?_) hstep⟩
    rw [hwell.overwrites_final hover] at hallowed
    exact absurd hallowed (by simp)
  exact hkept.2.accounted hkept.1 (by simpa [view] using hannounced)

/-- The shipped configuration; keys are compared by their characters. -/
def shipped : Env := ⟨{}, fun key => key⟩

/-- A message is put back while its first delivery runs, and a second delivery completes; the first
one marks PROCESSING early enough. -/
def putBackEarly : List Event :=
  (submission sample "id").append [.deliver .email 0, .work 0, .work 0, .requeue 0,
    .deliver .email 0,
    .work 1, .work 1, .send 1 (.result "ref"), .work 1, .work 1, .work 1, .work 1]

theorem announced_accounted_put_back_early :
    ∃ s, run (System.step shipped) initial putBackEarly = some s ∧
      (s.view "id").Accounted shipped.config := by
  have hlast : (run (guarded (System.step shipped) fun s event => !s.overwritesFinal event) initial
      putBackEarly).map System.announced = some ["id"] := by decide +kernel
  obtain ⟨s, hrun, hs⟩ := Option.map_eq_some_iff.mp hlast
  have hannounced : "id" ∈ s.announced := by simp [hs]
  exact ⟨s, run_of_guarded hrun, announced_accounted shipped (by decide) s "id"
    (Reaches.of_guarded_run (by simp) hrun) hannounced⟩

/-- The same run, but the first delivery reaches `markProcessing` after the second has acked. -/
def putBackLate : List Event :=
  (submission sample "id").append [.deliver .email 0, .work 0, .requeue 0, .deliver .email 0,
    .work 1, .work 1, .send 1 (.result "ref"), .work 1, .work 1, .work 1, .work 1, .work 0]

/-- The accepted and delivered notification is PROCESSING and no message for it exists. -/
theorem announced_not_accounted :
    ∃ s, run (System.step shipped) initial putBackLate = some s ∧ "id" ∈ s.announced ∧
      ¬ (s.view "id").Accounted shipped.config := by
  have hlast : (run (System.step shipped) initial putBackLate).map (fun s =>
      (s.announced, (s.view "id").row.map Notification.status, s.broker.next,
        (s.broker.get 0).isNone)) = some (["id"], some .processing, 1, true) := by decide +kernel
  obtain ⟨s, hrun, hs⟩ := Option.map_eq_some_iff.mp hlast
  simp only [Prod.mk.injEq, Option.isNone_iff_eq_none] at hs
  obtain ⟨hids, hstatus, hnext, hnone⟩ := hs
  have hannounced : "id" ∈ s.announced := by simp [hids]
  have hmessages : ∀ i, (s.view "id").messages i = none := by
    intro i
    have hget : s.broker.get i = none := by
      cases i with
      | zero => exact hnone
      | succ i => exact s.broker.fresh _ (by omega)
    simp only [view, Broker.about, hget, Option.bind_none]
  refine ⟨s, hrun, hannounced, ?_⟩
  intro h
  obtain ⟨row, hrow, h⟩ := h
  rw [hrow, Option.map_some, Option.some.injEq] at hstatus
  simp [hstatus, hmessages] at h

end System

end NotificationDelivery
