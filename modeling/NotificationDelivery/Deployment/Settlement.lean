import NotificationDelivery.Deployment.Guarantees

/-!
# Every accepted notification is settled

In the process a delivery holds its message until it acks, so the status of an accepted
notification is never left behind: while it is PENDING or PROCESSING some message for it is on
the main queue, on the retry ladder, or unacked at a delivery that has still to set the status or
that died with its process. The invariant is `View.Safe` of the view without the dead-letter
queues. A DEAD_LETTERED notification has a message there.
-/

namespace NotificationDelivery

open EventMachine

/-- The place is a dead-letter queue. -/
def Place.parked : Place → Bool
  | .queue name => name ∈ Topology.channels.map Topology.dlq
  | .unacked _ _ => false

/-- The delivery of the notification has begun or will, and its outcome is not known. -/
def NotificationStatus.unsettled : NotificationStatus → Bool
  | .pending | .processing => true
  | .sent | .failed | .deadLettered | .cancelled => false

namespace View

/-- The view without the dead-letter queues. -/
def live (v : View) : View :=
  { v with messages := fun i => (v.messages i).filter fun m => !m.1.parked }

/-- A message is on a dead-letter queue. -/
def Parked (v : View) : Prop := ∃ i c k, v.messages i = some (.queue (Topology.dlq c), k)

/-- What an announced notification keeps in the process. -/
structure Tracked (v : View) : Prop where
  stored : v.announced = true → v.row ≠ none
  tracked : v.announced = true → ∀ row, v.row = some row → row.status.unsettled = true →
    v.live.Safe
  parked : ∀ row, v.row = some row → row.status = .deadLettered → v.Parked

variable {env : Env} {config : Config} {n : String} {known : Prop} {v next u : View} {h i : Nat}
  {w : Handler} {k : Int} {place : Place} {pc : HandlerPc} {event : Event}

theorem live_message (hget : v.messages i = some (place, k)) (hplace : place.parked = false) :
    v.live.messages i = some (place, k) := by
  simp [live, hget, hplace]

theorem live_set_message (i : Nat) (m : Option (Place × Int)) :
    (v.setMessage i m).live = v.live.setMessage i (m.filter fun m => !m.1.parked) := by
  refine View.ext rfl rfl ?_ rfl rfl rfl rfl
  funext j
  show (Function.update v.messages i m j).filter _ = Function.update v.live.messages i _ j
  by_cases hj : j = i
  · subst hj
    simp
  · rw [Function.update_of_ne hj, Function.update_of_ne hj]
    rfl

theorem Holds.live (hholds : v.Holds h w) : v.live.Holds h w := by
  obtain ⟨name, k, hget⟩ := hholds
  exact ⟨name, k, live_message hget rfl⟩

/-- A message that waits for a delivery is safe. -/
theorem live_safe_of_queue {name : String} (hget : v.messages i = some (.queue name, k))
    (hname : (Place.queue name).parked = false) : v.live.Safe :=
  safe_of_queue (live_message hget hname)

@[simp] theorem parked_main (c : Channel) :
    (Place.queue (Topology.mainQueue c)).parked = false := by
  simp [Place.parked]

@[simp] theorem parked_retry (c : Channel) (k : Int) :
    (Place.queue (Topology.retryQueue c k)).parked = false := by
  simp [Place.parked]

/-- A new message of other deliveries does no harm. -/
theorem Safe.put {m : Place × Int} (hsafe : v.live.Safe) (hfree : v.messages i = none) :
    (v.setMessage i (some m)).live.Safe := by
  obtain ⟨j, place, k, hget, hat⟩ := hsafe
  have hj : j ≠ i := by
    rintro rfl
    simp [live, hfree] at hget
  refine ⟨j, place, k, ?_, hat⟩
  rw [live_set_message]
  exact (Function.update_of_ne hj _ _).trans hget

namespace Tracked

theorem step_stored (htracked : v.Tracked) (hplaced : v.Placed env.config)
    (hstep : View.Step env n known v event next) (hannounced : next.announced = true) :
    next.row ≠ none := by
  cases hstep with
  | unrelated | found | aborted | delivered | sent | crashed | expired | requeued =>
      exact htracked.stored hannounced
  | committed => exact Option.some_ne_none _
  | published p saved i hsaved =>
      obtain ⟨row, hrow, -⟩ := Option.map_eq_some_iff.mp (hplaced.publishing p saved hsaved)
      exact Option.ne_none_iff_exists'.mpr ⟨row, hrow⟩
  | worked h w next hget _ hworked =>
      have hrow : v.row ≠ none := by
        cases hworked <;> exact htracked.stored hannounced
      obtain ⟨row, hrow⟩ := Option.ne_none_iff_exists'.mp hrow
      cases hworked <;> simp [advance, setStatus, increment, record, setMessage, hrow]

theorem step_parked (htracked : v.Tracked) (hkept : v.Kept)
    (hstep : View.Step env n known v event next) {row : Notification} (hrow : next.row = some row)
    (hdead : row.status = .deadLettered) : next.Parked := by
  have hstays : v.Parked → next.Parked := fun ⟨i, c, k, hget⟩ => ⟨i, c, k, hstep.dlq_stays hget⟩
  cases hstep with
  | unrelated | found | published | aborted | delivered | sent | crashed | expired | requeued =>
      exact hstays (htracked.parked row hrow hdead)
  | committed p saved _ _ _ hstatus =>
      obtain rfl := Option.some.inj hrow
      exact absurd (hstatus.symm.trans hdead) (by simp)
  | worked h w next hget _ hworked =>
      cases hworked with
      | markedProcessing | markedSent =>
          obtain ⟨old, -, rfl⟩ := Option.map_eq_some_iff.mp hrow
          exact absurd hdead (by simp)
      | markedDeadLettered hpc => exact hstays (hkept.parked h w hget hpc)
      | incrementedSuccess | incrementedRetry | incrementedDead =>
          obtain ⟨old, hold, rfl⟩ := Option.map_eq_some_iff.mp hrow
          exact hstays (htracked.parked old hold hdead)
      | _ => exact hstays (htracked.parked row hrow hdead)

/-- A statement of a delivery leaves no unsettled notification behind. -/
theorem worked_tracked (htracked : v.Tracked) (hplaced : v.Placed config)
    (hladder : config.maxRetries ≤ config.retryDelaysMs.length) (hholds : v.Holds h w)
    (hget : v.handlers h = some w) (hworked : v.Worked config h w next)
    (hannounced : v.announced = true) {row : Notification} (hrow : next.row = some row)
    (hopen : row.status.unsettled = true) : next.live.Safe := by
  obtain ⟨-, hone⟩ := hplaced.handler h w hget
  have hquiet : ∀ {u : View} {pc : HandlerPc} {old : Notification}, v.row = some old →
      old.status = row.status → u.messages = v.messages → u.handlers = v.handlers →
      ((w.goto pc).Spent → w.Spent) → (u.advance h w pc).live.Safe := by
    intro u pc old hold hstatus hmessages hhandlers hspent
    have hsafe := htracked.tracked hannounced old hold (hstatus ▸ hopen)
    have hlive : u.live.messages = v.live.messages := by
      simp only [live, hmessages]
    have hmoved : u.live.Safe := hsafe.of_eq hlive hhandlers
    have hhandler : u.live.handlers h = some w := (congrFun hhandlers h).trans hget
    exact hmoved.advance hhandler hspent
  cases hworked with
  | missed hpc hnone => exact absurd (hrow.symm.trans hnone) (by simp)
  | skipped old hpc hold hskipped =>
      obtain rfl := Option.some.inj (hold.symm.trans hrow)
      cases hstatus : old.status <;> simp_all [NotificationStatus.skipped,
        NotificationStatus.unsettled]
  | found | recordedSuccess | recordedRetry | recordedDead =>
      exact hquiet hrow rfl rfl rfl (by simp [Handler.Spent])
  | markedProcessing row' hpc =>
      have hlive : (v.setStatus .processing).live.Holds h w := Holds.live hholds
      exact hlive.safe_advance (by simp [Handler.Spent])
  | markedSent | markedDeadLettered =>
      obtain ⟨old, -, rfl⟩ := Option.map_eq_some_iff.mp hrow
      exact absurd hopen (by simp [NotificationStatus.unsettled])
  | incrementedSuccess hpc =>
      obtain ⟨old, hold, rfl⟩ := Option.map_eq_some_iff.mp hrow
      exact hquiet hold rfl rfl rfl fun _ => .inl hpc
  | incrementedRetry | incrementedDead =>
      obtain ⟨old, hold, rfl⟩ := Option.map_eq_some_iff.mp hrow
      exact hquiet hold rfl rfl rfl (by simp [Handler.Spent])
  | publishedRetry i hpc hfree =>
      exact live_safe_of_queue (Function.update_self _ _ _) (parked_retry _ _)
  | droppedRetry hpc hundeclared =>
      have hlimit := hplaced.retrying h w hget (.inr hpc)
      exact absurd ⟨hone, by omega⟩ hundeclared
  | publishedDlq i hpc hfree =>
      have hsafe := htracked.tracked hannounced row hrow hopen
      have hlive : (v.setMessage i (some (.queue (Topology.dlq w.channel),
          w.message.attemptNumber))).live.handlers h = some w := hget
      exact (hsafe.put hfree).advance hlive (by simp [Handler.Spent])
  | acked hpc =>
      have hsafe := htracked.tracked hannounced row hrow hopen
      have hacked := hsafe.ack hget (.inr hpc) (Holds.live hholds)
      have hmessages : (v.setMessage w.deliveryTag none).live.messages =
          (v.live.setMessage w.deliveryTag none).messages :=
        congrArg View.messages (live_set_message w.deliveryTag none)
      exact hacked.of_eq hmessages rfl
  | ackedLate hpc hnot => exact absurd hholds hnot

/-- The step lemma. -/
theorem step (htracked : v.Tracked) (hplaced : v.Placed env.config) (hkept : v.Kept)
    (hladder : env.config.maxRetries ≤ env.config.retryDelaysMs.length)
    (hholds : ∀ h w, v.handlers h = some w → v.Holds h w)
    (hstep : View.Step env n known v event next) : next.Tracked := by
  refine ⟨htracked.step_stored hplaced hstep, fun hannounced row hrow hopen => ?_,
    fun row hrow hdead => htracked.step_parked hkept hstep hrow hdead⟩
  cases hstep with
  | unrelated => exact htracked.tracked hannounced row hrow hopen
  | found | aborted => exact (htracked.tracked hannounced row hrow hopen).of_eq rfl rfl
  | committed p saved hnone => exact absurd hnone (htracked.stored hannounced)
  | published p saved i =>
      exact live_safe_of_queue (i := i) (Function.update_self _ _ _) (parked_main _)
  | delivered c i h w _ _ _ _ _ hpc =>
      refine ⟨i, _, _, live_message (Function.update_self _ _ _) rfl, ?_⟩
      intro name h' w' hplace hw' _
      cases hplace
      rcases Registry.update_eq_some.mp hw' with ⟨_, heq⟩ | ⟨hne, _⟩
      · obtain rfl := Option.some.inj heq
        simp [Handler.Spent, hpc]
      · exact absurd rfl hne
  | worked h w next hget _ hworked =>
      refine htracked.worked_tracked hplaced hladder (hholds h w hget) hget hworked ?_ hrow hopen
      cases hworked <;> exact hannounced
  | sent h w row' outcome hget =>
      have hsafe := htracked.tracked hannounced row hrow hopen
      have hmoved : (v.live.advance h w (Handler.afterSend outcome)).Safe :=
        hsafe.advance hget (by cases outcome <;> simp [Handler.Spent, Handler.afterSend])
      exact hmoved.of_eq rfl rfl
  | crashed h w => exact (htracked.tracked hannounced row hrow hopen).remove h
  | expired i j c rung k =>
      exact live_safe_of_queue (i := j) (Function.update_self _ _ _) (parked_main _)
  | requeued i name consumer k hmessage =>
      obtain ⟨-, c, -, hproper⟩ := hplaced.message i _ _ hmessage
      cases hproper with
      | unacked => exact live_safe_of_queue (i := i) (Function.update_self _ _ _) (parked_main _)

end Tracked

end View

namespace Deployment

variable {env : Env} {d : Deployment}

end Deployment

end NotificationDelivery
