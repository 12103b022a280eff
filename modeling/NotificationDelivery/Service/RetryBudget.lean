import NotificationDelivery.Service.AttemptRange
import NotificationDelivery.Service.NoLoss
import NotificationDelivery.Service.OneHandler

/-!
# The retry budget of a notification

The attempt number is in the message, so a second first attempt starts a second chain with a
budget of its own. `retry_budget` says that the budget is that of one chain as long as no first
attempt passes the status check after the status has left PENDING: `View.Chain` says where the
chain is.
-/

namespace NotificationDelivery

open EventMachine

/-- A delivery dies, or a message is put back. -/
def Event.redelivers : Event → Bool
  | .crash _ | .requeue _ => true
  | _ => false

namespace Handler

/-- The delivery will not call the provider unless it starts a chain. -/
def Resting (w : Handler) : Prop :=
  w.pc = .findById ∧ w.message.attemptNumber = 1 ∨ w.pc = .incrementSuccess ∨ w.pc = .ack

/-- The delivery is on its way to the provider; a first attempt only after the status check. -/
def Approaching (w : Handler) : Prop :=
  w.pc = .findById ∧ w.message.attemptNumber ≠ 1 ∨ (∃ n, w.pc = .markProcessing n) ∨
    ∃ n, w.pc = .send n

/-- The provider call of the delivery has ended, and its outcome is not settled. -/
def Settling (w : Handler) : Prop :=
  match w.pc with
  | .recordSuccess _ | .markSent | .incrementFailure _ _ | .recordRetry _ | .publishRetry
  | .recordDead _ _ | .publishDlq | .markDeadLettered => True
  | .findById | .markProcessing _ | .send _ | .incrementSuccess | .ack => False

/-- The delivery calls the provider. -/
def calling (w : Handler) : Bool :=
  match w.pc with
  | .send _ => true
  | _ => false

variable {w : Handler}

theorem resting_or (w : Handler) : w.Resting ∨ w.Approaching ∨ w.Settling := by
  unfold Resting Approaching Settling
  by_cases hone : w.message.attemptNumber = 1 <;> cases w.pc <;> simp [hone]

theorem Approaching.not_resting (h : w.Approaching) : ¬ w.Resting := by
  rcases h with ⟨hpc, hne⟩ | ⟨n, hpc⟩ | ⟨n, hpc⟩ <;> simp_all [Resting]

theorem Settling.not_resting (h : w.Settling) : ¬ w.Resting := by
  unfold Settling at h
  unfold Resting
  split at h <;> simp_all

end Handler

namespace View

def status (v : View) : Option NotificationStatus := v.row.map Notification.status

/-- A message of a later attempt is on a queue of its channel. -/
def Waits (v : View) (i : Nat) (k : Int) : Prop :=
  ∃ name, v.messages i = some (.queue name, k) ∧ k ≠ 1 ∧ ∀ c, name ≠ Topology.dlq c

/-- Before the first delivery has marked PROCESSING nothing is sent, and there are first attempts
only. Then the chain is at one place: a later attempt waits, a delivery approaches the provider with
the next number or settles the last one, or the chain is over. -/
structure Chain (config : Config) (v : View) : Prop where
  fresh : v.status = none ∨ v.status = some .pending →
    v.sends = [] ∧ (∀ i k, ¬ v.Waits i k) ∧ ∀ h w, v.handlers h = some w →
      w.message.attemptNumber = 1 ∧ (w.pc = .findById ∨ ∃ n, w.pc = .markProcessing n)
  waits : ∀ i k, v.Waits i k → k = v.sends.length + 1 ∧ v.status = some .processing ∧
    ∀ h w, v.handlers h = some w → w.Resting
  single : ∀ i j k k', v.Waits i k → v.Waits j k' → i = j
  approaching : ∀ h w, v.handlers h = some w → w.Approaching →
    w.message.attemptNumber = v.sends.length + 1 ∧
      (v.status = some .pending ∨ v.status = some .processing)
  settling : ∀ h w, v.handlers h = some w → w.Settling →
    w.message.attemptNumber = v.sends.length ∧ v.status = some .processing
  bounded : (v.sends.length : Int) ≤ config.lastAttempt

/-- A first attempt passes the status check although the status is not PENDING any more. -/
def Restarts (v : View) (event : Event) : Prop :=
  ∃ h w row, event = .work h ∧ v.handlers h = some w ∧ w.pc = .findById ∧
    w.message.attemptNumber = 1 ∧ v.row = some row ∧ row.status.skipped = false ∧
    row.status ≠ .pending

variable {env : Env} {config : Config} {n : String} {known : Prop} {v next u : View}
  {h h' i j : Nat} {w w' : Handler} {pc : HandlerPc} {event : Event} {k : Int}

theorem chain_empty (config : Config) : empty.Chain config where
  fresh := by simp [empty, Waits]
  waits := by simp [empty, Waits]
  single := by simp [empty, Waits]
  approaching := by simp [empty]
  settling := by simp [empty]
  bounded := by
    have hone := config.one_le_last_attempt
    show (0 : Int) ≤ config.lastAttempt
    omega

@[simp] theorem status_increment : v.increment.status = v.status := by
  simp [status, increment, Function.comp_def]

/-- The status of a stored notification after it is set. -/
theorem status_set_status (status : NotificationStatus) (hstored : v.row ≠ none) :
    (v.setStatus status).status = some status := by
  obtain ⟨row, hrow⟩ := Option.ne_none_iff_exists'.mp hstored
  simp [View.status, setStatus, hrow]

/-- What waits after a message is put or taken waited before, or is the message. -/
theorem waits_set_message {value : Option (Place × Int)}
    (hwaits : (v.setMessage i value).Waits j k) :
    (j = i ∧ ∃ name, value = some (.queue name, k) ∧ k ≠ 1 ∧ ∀ c, name ≠ Topology.dlq c) ∨
      (j ≠ i ∧ v.Waits j k) := by
  obtain ⟨name, hmessage, hlater⟩ := hwaits
  rcases Registry.update_eq_some.mp hmessage with ⟨hj, hvalue⟩ | ⟨hj, hmessage⟩
  · exact .inl ⟨hj, name, hvalue, hlater⟩
  · exact .inr ⟨hj, name, hmessage, hlater⟩

namespace Chain

/-- Nobody waits while a delivery is on its way. -/
theorem none_waits (hchain : v.Chain config) (hget : v.handlers h = some w) (hbusy : ¬ w.Resting)
    (i : Nat) (k : Int) : ¬ v.Waits i k :=
  fun hwaits => hbusy ((hchain.waits i k hwaits).2.2 h w hget)

/-- Only the status, the router calls, the deliveries and the waiting messages matter. -/
theorem of_waits (hchain : v.Chain config) (hstatus : next.status = v.status)
    (hsends : next.sends = v.sends) (hhandlers : next.handlers = v.handlers)
    (hwaits : ∀ i k, next.Waits i k → ∃ j, v.Waits j k)
    (hsingle : ∀ i j k k', next.Waits i k → next.Waits j k' → i = j) : next.Chain config where
  fresh := by
    intro hnew
    rw [hstatus] at hnew
    obtain ⟨hnone, hquiet, hfirst⟩ := hchain.fresh hnew
    refine ⟨hsends.trans hnone, fun i k hw => ?_, hhandlers ▸ hfirst⟩
    obtain ⟨j, hj⟩ := hwaits i k hw
    exact hquiet j k hj
  waits := by
    intro i k hw
    obtain ⟨j, hj⟩ := hwaits i k hw
    rw [hstatus, hsends, hhandlers]
    exact hchain.waits j k hj
  single := hsingle
  approaching := by
    rw [hstatus, hsends, hhandlers]
    exact hchain.approaching
  settling := by
    rw [hstatus, hsends, hhandlers]
    exact hchain.settling
  bounded := hsends ▸ hchain.bounded

theorem of_eq (hchain : v.Chain config) (hstatus : next.status = v.status)
    (hsends : next.sends = v.sends) (hhandlers : next.handlers = v.handlers)
    (hwaits : ∀ i k, next.Waits i k → v.Waits i k) : next.Chain config :=
  hchain.of_waits hstatus hsends hhandlers (fun i k hw => ⟨i, hwaits i k hw⟩)
    fun i j k k' hi hj => hchain.single i j k k' (hwaits i k hi) (hwaits j k' hj)

/-- A delivery that is on its way moves on, in a started chain. -/
theorem advance_busy (hsolo : v.Solo) (hget : v.handlers h = some w)
    (hhandlers : u.handlers = v.handlers) (hnone : ∀ i k, ¬ u.Waits i k)
    (hstarted : u.status ≠ none ∧ u.status ≠ some .pending)
    (happroaching : (w.goto pc).Approaching → w.message.attemptNumber = u.sends.length + 1 ∧
      u.status = some .processing)
    (hsettling : (w.goto pc).Settling → w.message.attemptNumber = u.sends.length ∧
      u.status = some .processing)
    (hbounded : (u.sends.length : Int) ≤ config.lastAttempt) : (u.advance h w pc).Chain config where
  fresh := fun hnew => absurd hnew (not_or.mpr hstarted)
  waits := fun i k hw => absurd hw (hnone i k)
  single := fun i j k k' hi _ => absurd hi (hnone i k)
  approaching := by
    intro h' w' hget' ha
    obtain ⟨_, rfl⟩ := hsolo.advanced hget hhandlers hget'
    exact ⟨(happroaching ha).1, .inr (happroaching ha).2⟩
  settling := by
    intro h' w' hget' hs
    obtain ⟨_, rfl⟩ := hsolo.advanced hget hhandlers hget'
    exact hsettling hs
  bounded := hbounded

/-- A delivery comes to rest. -/
theorem advance_rest (hchain : v.Chain config) (hsolo : v.Solo) (hget : v.handlers h = some w)
    (hstarted : v.status ≠ none ∧ v.status ≠ some .pending) (hrest : (w.goto pc).Resting) :
    (v.advance h w pc).Chain config where
  fresh := fun hnew => absurd hnew (not_or.mpr hstarted)
  waits := by
    intro i k hw
    obtain ⟨hk, hstatus, _⟩ := hchain.waits i k hw
    refine ⟨hk, hstatus, fun h' w' hget' => ?_⟩
    obtain ⟨_, rfl⟩ := hsolo.advanced hget rfl hget'
    exact hrest
  single := hchain.single
  approaching := by
    intro h' w' hget' ha
    obtain ⟨_, rfl⟩ := hsolo.advanced hget rfl hget'
    exact absurd hrest ha.not_resting
  settling := by
    intro h' w' hget' hs
    obtain ⟨_, rfl⟩ := hsolo.advanced hget rfl hget'
    exact absurd hrest hs.not_resting
  bounded := hchain.bounded

/-- A delivery leaves. -/
theorem remove (hchain : v.Chain config) (hsolo : v.Solo) (hget : v.handlers h = some w)
    (hstatus : next.status = v.status) (hsends : next.sends = v.sends)
    (hhandlers : next.handlers = Function.update v.handlers h none)
    (hwaits : ∀ i k, next.Waits i k → v.Waits i k) : next.Chain config := by
  have hnone : ∀ h', next.handlers h' = none := by
    intro h'
    rw [hhandlers]
    exact hsolo.removed hget
  refine ⟨fun hnew => ?_, fun i k hw => ?_, fun i j k k' hi hj => ?_, by simp [hnone],
    by simp [hnone], hsends ▸ hchain.bounded⟩
  · rw [hstatus] at hnew
    obtain ⟨hempty, hquiet, _⟩ := hchain.fresh hnew
    exact ⟨hsends.trans hempty, fun i k hw => hquiet i k (hwaits i k hw), by simp [hnone]⟩
  · obtain ⟨hk, hs, _⟩ := hchain.waits i k (hwaits i k hw)
    exact ⟨hsends ▸ hk, hstatus.trans hs, by simp [hnone]⟩
  · exact hchain.single i j k k' (hwaits i k hi) (hwaits j k' hj)

/-- A delivery that is not one of a first attempt before its check runs in a started chain. -/
theorem started (hchain : v.Chain config) (hget : v.handlers h = some w)
    (hpc : w.pc ≠ .findById ∧ ∀ n, w.pc ≠ .markProcessing n) :
    v.status ≠ none ∧ v.status ≠ some .pending := by
  rw [← not_or]
  intro hnew
  rcases ((hchain.fresh hnew).2.2 h w hget).2 with hfind | ⟨n, hmark⟩
  · exact hpc.1 hfind
  · exact hpc.2 n hmark

/-- A delivery whose provider call has ended moves on and leaves the status and the messages. -/
theorem advance_settling (hchain : v.Chain config) (hsolo : v.Solo) (hget : v.handlers h = some w)
    (hsettling : w.Settling) (hhandlers : u.handlers = v.handlers)
    (hmessages : u.messages = v.messages)
    (hsends : u.sends = v.sends) (hstatus : u.status = v.status) (hpc : ¬ (w.goto pc).Approaching) :
    (u.advance h w pc).Chain config := by
  obtain ⟨hnumber, hprocessing⟩ := hchain.settling h w hget hsettling
  have hnone : ∀ i k, ¬ u.Waits i k := by
    intro i k
    simpa only [Waits, hmessages] using hchain.none_waits hget hsettling.not_resting i k
  refine advance_busy hsolo hget hhandlers hnone ?_ (fun ha => absurd ha hpc) (fun _ => ?_)
    (hsends ▸ hchain.bounded)
  · rw [hstatus, hprocessing]
    simp
  · rw [hstatus, hsends]
    exact ⟨hnumber, hprocessing⟩

/-- A first attempt passes the status check while the notification is PENDING. -/
theorem start (hchain : v.Chain config) (hsolo : v.Solo) (hget : v.handlers h = some w)
    {row : Notification} (hpending : v.status = some .pending)
    (hfirst : w.message.attemptNumber = 1) :
    (v.advance h w (.markProcessing row)).Chain config := by
  obtain ⟨hsends, hquiet, _⟩ := hchain.fresh (.inr hpending)
  have honly : ∀ h' w', (v.advance h w (.markProcessing row)).handlers h' = some w' →
      w' = w.goto (.markProcessing row) :=
    fun h' w' hget' => (hsolo.advanced hget rfl hget').2
  refine ⟨fun _ => ⟨hsends, hquiet, fun h' w' hget' => ?_⟩, fun i k hw => absurd hw (hquiet i k),
    hchain.single, fun h' w' hget' _ => ?_, fun h' w' hget' hs => ?_, hchain.bounded⟩
  · obtain rfl := honly h' w' hget'
    exact ⟨hfirst, .inr ⟨row, rfl⟩⟩
  · obtain rfl := honly h' w' hget'
    refine ⟨?_, .inl hpending⟩
    show w.message.attemptNumber = (v.sends.length : Int) + 1
    simp [hfirst, hsends]
  · obtain rfl := honly h' w' hget'
    exact hs.elim

/-- A delivery whose provider call has ended sets the last status of the chain. -/
theorem finish (hchain : v.Chain config) (hsolo : v.Solo) (hplaced : v.Placed config)
    (hget : v.handlers h = some w) (hsettling : w.Settling) {status : NotificationStatus}
    (hstatus : status ≠ .pending) (hpc : (w.goto pc).Resting) :
    ((v.setStatus status).advance h w pc).Chain config := by
  have hset := status_set_status status (hplaced.stored hget)
  refine advance_busy hsolo hget rfl (hchain.none_waits hget hsettling.not_resting) ?_
    (fun ha => absurd hpc ha.not_resting) (fun hs => absurd hpc hs.not_resting) hchain.bounded
  simp [hset, hstatus]

/-- The retry is published: the next number waits, and the delivery rests. -/
theorem retry (hchain : v.Chain config) (hsolo : v.Solo) (hget : v.handlers h = some w)
    (hsettling : w.Settling) {name : String} (hpc : (w.goto pc).Resting) :
    ((v.setMessage i (some (.queue name, w.message.attemptNumber + 1))).advance h w pc).Chain
      config := by
  obtain ⟨hnumber, hprocessing⟩ := hchain.settling h w hget hsettling
  have hquiet := hchain.none_waits hget hsettling.not_resting
  -- only the new message waits
  have hnew : ∀ j k, (v.setMessage i (some (.queue name, w.message.attemptNumber + 1))).Waits j k →
      j = i ∧ k = w.message.attemptNumber + 1 := by
    intro j k hw
    rcases waits_set_message hw with ⟨hj, _, hvalue, _⟩ | ⟨_, hold⟩
    · cases hvalue
      exact ⟨hj, rfl⟩
    · exact absurd hold (hquiet j k)
  have honly : ∀ h' w', Function.update v.handlers h (some (w.goto pc)) h' = some w' →
      w' = w.goto pc :=
    fun h' w' hget' => (hsolo.advanced (u := v) hget rfl hget').2
  refine ⟨fun hfresh => ?_, fun j k hw => ?_, fun j j' k k' hj hj' => ?_, fun h' w' hget' ha => ?_,
    fun h' w' hget' hs => ?_, hchain.bounded⟩
  · have hold : v.status = none ∨ v.status = some .pending := hfresh
    simp [hprocessing] at hold
  · obtain ⟨rfl, rfl⟩ := hnew j k hw
    refine ⟨congrArg (· + 1) hnumber, hprocessing, fun h' w' hget' => ?_⟩
    obtain rfl := honly h' w' hget'
    exact hpc
  · exact (hnew j k hj).1.trans (hnew j' k' hj').1.symm
  · obtain rfl := honly h' w' hget'
    exact absurd hpc ha.not_resting
  · obtain rfl := honly h' w' hget'
    exact absurd hpc hs.not_resting

theorem worked (hchain : v.Chain config) (hsolo : v.Solo) (hplaced : v.Placed config)
    (hget : v.handlers h = some w) (hguard : ¬ v.Restarts (.work h))
    (hworked : v.Worked config h w next) : next.Chain config := by
  have hstored := hplaced.stored hget
  cases hworked with
  | missed hpc hrow => exact absurd hrow hstored
  | skipped row hpc hrow hskipped =>
      refine hchain.advance_rest hsolo hget ?_ (.inr (.inr rfl))
      constructor <;> simp only [status, hrow, Option.map_some]
      · simp
      · intro hpending
        simp [Option.some.inj hpending, NotificationStatus.skipped] at hskipped
  | found row hpc hrow hskipped =>
      have hstatus : v.status = some row.status := by simp [status, hrow]
      by_cases hfirst : w.message.attemptNumber = 1
      · -- a first attempt that passes the check starts the chain
        have hpending : row.status = .pending := by
          by_contra hne
          exact hguard ⟨h, w, row, rfl, hget, hpc, hfirst, hrow, hskipped, hne⟩
        exact hchain.start hsolo hget (hstatus.trans (congrArg some hpending)) hfirst
      · have happroaching : w.Approaching := .inl ⟨hpc, hfirst⟩
        obtain ⟨hnumber, hpending | hprocessing⟩ := hchain.approaching h w hget happroaching
        · exact absurd ((hchain.fresh (.inr hpending)).2.2 h w hget).1 hfirst
        · exact advance_busy hsolo hget rfl (hchain.none_waits hget happroaching.not_resting)
            (by simp [hprocessing]) (fun _ => ⟨hnumber, hprocessing⟩)
            (fun hs => hs.elim) hchain.bounded
  | markedProcessing row hpc =>
      have happroaching : w.Approaching := .inr (.inl ⟨row, hpc⟩)
      have hprocessing := status_set_status .processing hstored
      exact advance_busy (u := v.setStatus .processing) hsolo hget rfl
        (hchain.none_waits hget happroaching.not_resting) (by simp [hprocessing])
        (fun _ => ⟨(hchain.approaching h w hget happroaching).1, hprocessing⟩) (fun hs => hs.elim)
        hchain.bounded
  | recordedSuccess providerRef hpc =>
      exact hchain.advance_settling hsolo hget (by simp [Handler.Settling, hpc]) rfl rfl rfl rfl
        (by simp [Handler.Approaching])
  | markedSent hpc =>
      exact hchain.finish hsolo hplaced hget (by simp [Handler.Settling, hpc]) (by simp)
        (.inr (.inl rfl))
  | incrementedSuccess hpc =>
      have hstarted := hchain.started hget (by simp [hpc])
      have hincrement : v.increment.Chain config :=
        hchain.of_eq status_increment rfl rfl fun _ _ => id
      exact hincrement.advance_rest (hsolo.of_eq rfl rfl) hget (by simpa using hstarted)
        (.inr (.inr rfl))
  | incrementedRetry what isTransient hpc =>
      exact hchain.advance_settling hsolo hget (by simp [Handler.Settling, hpc]) rfl rfl rfl
        status_increment (by simp [Handler.Approaching])
  | incrementedDead what isTransient hpc =>
      exact hchain.advance_settling hsolo hget (by simp [Handler.Settling, hpc]) rfl rfl rfl
        status_increment (by simp [Handler.Approaching])
  | recordedRetry what hpc =>
      exact hchain.advance_settling hsolo hget (by simp [Handler.Settling, hpc]) rfl rfl rfl rfl
        (by simp [Handler.Approaching])
  | publishedRetry i hpc hfree =>
      exact hchain.retry hsolo hget (by simp [Handler.Settling, hpc]) (.inr (.inr rfl))
  | droppedRetry hpc =>
      exact hchain.advance_settling hsolo hget (by simp [Handler.Settling, hpc]) rfl rfl rfl rfl
        (by simp [Handler.Approaching])
  | recordedDead what isTransient hpc =>
      exact hchain.advance_settling hsolo hget (by simp [Handler.Settling, hpc]) rfl rfl rfl rfl
        (by simp [Handler.Approaching])
  | publishedDlq i hpc hfree =>
      have hsettling : w.Settling := by simp [Handler.Settling, hpc]
      obtain ⟨hnumber, hprocessing⟩ := hchain.settling h w hget hsettling
      have hquiet := hchain.none_waits hget hsettling.not_resting
      refine advance_busy (u := v.setMessage i _) hsolo hget rfl (fun j k hw => ?_)
        (hchain.started hget (by simp [hpc])) (fun ha => by simp [Handler.Approaching] at ha)
        (fun _ => ⟨hnumber, hprocessing⟩) hchain.bounded
      rcases waits_set_message hw with ⟨_, name, hvalue, _, hdlq⟩ | ⟨_, hold⟩
      · cases hvalue
        exact hdlq w.channel rfl
      · exact hquiet j k hold
  | markedDeadLettered hpc =>
      exact hchain.finish hsolo hplaced hget (by simp [Handler.Settling, hpc]) (by simp)
        (.inr (.inr rfl))
  | acked hpc hholds =>
      refine hchain.remove hsolo hget rfl rfl rfl fun i k hw => ?_
      rcases waits_set_message hw with ⟨_, _, hvalue, _⟩ | ⟨_, hold⟩
      · exact absurd hvalue (by simp)
      · exact hold
  | ackedLate hpc hholds => exact hchain.remove hsolo hget rfl rfl rfl fun _ _ => id

/-- A worker receives an attempt: it is the first one, or the one that waited. -/
theorem receive (hchain : v.Chain config) {c : Channel} (hcrowds : ¬ v.Crowds (.deliver c i))
    (hmessage : v.messages i = some (.queue (Topology.mainQueue c), w.message.attemptNumber))
    (hpc : w.pc = .findById) :
    View.Chain config { v.setMessage i (some (.unacked (Topology.mainQueue c) h,
      w.message.attemptNumber)) with handlers := Function.update v.handlers h (some w) } := by
  have honly : ∀ h' w', Function.update v.handlers h (some w) h' = some w' → w' = w :=
    fun h' w' hget' => (Solo.received hcrowds hmessage hget').2
  -- a later attempt that is received was the one that waited
  have hlater : w.message.attemptNumber ≠ 1 → v.Waits i w.message.attemptNumber :=
    fun hne => ⟨_, hmessage, hne, by simp⟩
  have hrest : ∀ j k, View.Waits { v.setMessage i (some (.unacked (Topology.mainQueue c) h,
      w.message.attemptNumber)) with handlers := Function.update v.handlers h (some w) } j k →
      j ≠ i ∧ v.Waits j k := by
    intro j k hw
    rcases waits_set_message hw with ⟨_, _, hvalue, _⟩ | hold
    · exact absurd hvalue (by simp)
    · exact hold
  refine ⟨fun hnew => ?_, fun j k hw => ?_, fun j j' k k' hj hj' => ?_, fun h' w' hget' ha => ?_,
    fun h' w' hget' hs => ?_, hchain.bounded⟩
  · -- before the first call nothing waits, so the attempt is the first one
    obtain ⟨hsends, hquiet, _⟩ := hchain.fresh hnew
    refine ⟨hsends, fun j k hw => hquiet j k (hrest j k hw).2, fun h' w' hget' => ?_⟩
    obtain rfl := honly h' w' hget'
    refine ⟨?_, .inl hpc⟩
    by_contra hne
    exact hquiet i _ (hlater hne)
  · obtain ⟨hne, hold⟩ := hrest j k hw
    obtain ⟨hk, hstatus, _⟩ := hchain.waits j k hold
    refine ⟨hk, hstatus, fun h' w' hget' => ?_⟩
    obtain rfl := honly h' w' hget'
    refine .inl ⟨hpc, ?_⟩
    by_contra hfirst
    exact hne (hchain.single j i k _ hold (hlater hfirst))
  · exact hchain.single j j' k k' (hrest j k hj).2 (hrest j' k' hj').2
  · obtain rfl := honly h' w' hget'
    have hfirst : w'.message.attemptNumber ≠ 1 := by
      intro hone
      simp [Handler.Approaching, hpc, hone] at ha
    obtain ⟨hk, hstatus, _⟩ := hchain.waits i _ (hlater hfirst)
    exact ⟨hk, .inr hstatus⟩
  · obtain rfl := honly h' w' hget'
    simp [Handler.Settling, hpc] at hs

/-- The later attempt that waited goes on waiting under another number. -/
theorem expire (hchain : v.Chain config) {c : Channel} {j : Nat} {rung k : Int}
    (hmessage : v.messages i = some (.queue (Topology.retryQueue c rung), k)) :
    ((v.setMessage i none).setMessage j (some (.queue (Topology.mainQueue c), k))).Chain
    config := by
  have hmoved : ∀ i' k', ((v.setMessage i none).setMessage j
      (some (.queue (Topology.mainQueue c), k))).Waits i' k' →
      i' = j ∧ v.Waits i k' ∨ i' ≠ i ∧ v.Waits i' k' := by
    intro i' k' hw
    rcases waits_set_message hw with ⟨hi, _, hvalue, hk, _⟩ | ⟨_, hw⟩
    · cases hvalue
      exact .inl ⟨hi, _, hmessage, hk, by simp⟩
    · rcases waits_set_message hw with ⟨_, _, hvalue, _⟩ | hold
      · exact absurd hvalue (by simp)
      · exact .inr hold
  refine hchain.of_waits rfl rfl rfl (fun i' k' hw => ?_) fun i₁ i₂ k₁ k₂ h₁ h₂ => ?_
  · rcases hmoved i' k' hw with ⟨_, hw⟩ | ⟨_, hw⟩
    · exact ⟨i, hw⟩
    · exact ⟨i', hw⟩
  · rcases hmoved i₁ k₁ h₁ with ⟨rfl, hold₁⟩ | ⟨hne₁, hold₁⟩ <;>
      rcases hmoved i₂ k₂ h₂ with ⟨rfl, hold₂⟩ | ⟨hne₂, hold₂⟩
    · rfl
    · exact absurd (hchain.single i i₂ k₁ k₂ hold₁ hold₂).symm hne₂
    · exact absurd (hchain.single i₁ i k₁ k₂ hold₁ hold₂) hne₁
    · exact hchain.single i₁ i₂ k₁ k₂ hold₁ hold₂

/-- The step lemma: without crashes and redeliveries the chain goes on. -/
theorem step (hchain : v.Chain env.config) (hsolo : v.Solo) (hplaced : v.Placed env.config)
    (hranged : v.Ranged env.config) (hcrowds : ¬ v.Crowds event)
    (hredelivers : event.redelivers = false) (hguard : ¬ v.Restarts event)
    (hstep : View.Step env n known v event next) : next.Chain env.config := by
  cases hstep with
  | unrelated => exact hchain
  | found | aborted => exact hchain.of_eq rfl rfl rfl fun _ _ => id
  | committed p saved hnone hfree hid hstatus =>
      obtain ⟨hsends, hquiet, hfirst⟩ := hchain.fresh (.inl (by simp [status, hnone]))
      have hidle := hplaced.idle_of_absent hnone
      exact ⟨fun _ => ⟨hsends, hquiet, hfirst⟩, fun i k hw => absurd hw (hquiet i k), hchain.single,
        by simp [setPublishing, hidle], by simp [setPublishing, hidle], hchain.bounded⟩
  | published p saved i hsaved hfree =>
      refine hchain.of_eq rfl rfl rfl fun j k hw => ?_
      rcases waits_set_message hw with ⟨_, _, hvalue, hk, _⟩ | ⟨_, hold⟩
      · cases hvalue
        exact absurd rfl hk
      · exact hold
  | delivered c i h w hmessage hfree hc htag hid hpc => exact hchain.receive hcrowds hmessage hpc
  | worked h w next hget _ hworked => exact hchain.worked hsolo hplaced hget hguard hworked
  | sent h w row outcome hget hid hpc =>
      -- the number of the attempt bounds the calls before this one
      have happroaching : w.Approaching := .inr (.inr ⟨row, hpc⟩)
      obtain ⟨hnumber, hstatus⟩ := hchain.approaching h w hget happroaching
      have hstarted := hchain.started hget (by simp [hpc])
      have hprocessing := hstatus.resolve_left hstarted.2
      have hle := hranged.handler h w hget
      refine advance_busy (u := { v with sends := v.sends ++ [outcome] }) hsolo hget rfl
        (hchain.none_waits hget happroaching.not_resting) hstarted (fun ha => ?_) (fun _ => ?_) ?_
      · cases outcome <;> simp [Handler.Approaching, Handler.afterSend] at ha
      · refine ⟨?_, hprocessing⟩
        simpa using hnumber
      · show ((v.sends ++ [outcome]).length : Int) ≤ env.config.lastAttempt
        rw [List.length_append, List.length_singleton]
        push_cast
        omega
  | crashed h => simp [Event.redelivers] at hredelivers
  | requeued i => simp [Event.redelivers] at hredelivers
  | expired i j c rung k hmessage => exact hchain.expire hmessage

/-- While the notification is DEAD_LETTERED its deliveries rest. -/
theorem resting_of_dead (hchain : v.Chain config) (hdead : v.status = some .deadLettered)
    (hget : v.handlers h = some w) : w.Resting := by
  rcases w.resting_or with hrest | happroaching | hsettling
  · exact hrest
  · obtain ⟨_, hstatus | hstatus⟩ := hchain.approaching h w hget happroaching <;>
      simp [hdead] at hstatus
  · exact absurd (hchain.settling h w hget hsettling).2 (by simp [hdead])

theorem quiet_of_dead (hchain : v.Chain config) (hdead : v.status = some .deadLettered) (h : Nat)
    (w : Handler) (hget : v.handlers h = some w) : w.calling = false := by
  have hrest := hchain.resting_of_dead hdead hget
  unfold Handler.calling
  split
  · rename_i row hpc
    simp [Handler.Resting, hpc] at hrest
  · rfl

/-- A notification that is DEAD_LETTERED stays so and is not sent any more. -/
theorem dead_lettered_stays (hchain : v.Chain env.config) (hdead : v.status = some .deadLettered)
    (hstep : View.Step env n known v event next) :
    next.status = some .deadLettered ∧ next.sends = v.sends := by
  have hresting : ∀ h w, v.handlers h = some w → w.Resting :=
    fun h w hget => hchain.resting_of_dead hdead hget
  cases hstep with
  | committed p saved hnone => simp [status, hnone] at hdead
  | worked h w next hget hid hworked =>
      have hrest := hresting h w hget
      cases hworked with
      | incrementedSuccess => exact ⟨status_increment.trans hdead, rfl⟩
      | markedProcessing row hpc => simp [Handler.Resting, hpc] at hrest
      | markedSent hpc => simp [Handler.Resting, hpc] at hrest
      | markedDeadLettered hpc => simp [Handler.Resting, hpc] at hrest
      | incrementedRetry what isTransient hpc => simp [Handler.Resting, hpc] at hrest
      | incrementedDead what isTransient hpc => simp [Handler.Resting, hpc] at hrest
      | _ => exact ⟨hdead, rfl⟩
  | sent h w row outcome hget hid hpc =>
      have hrest := hresting h w hget
      simp [Handler.Resting, hpc] at hrest
  | _ => exact ⟨hdead, rfl⟩

end Chain

end View

namespace System

/-- A first attempt of `n` passes the status check although the status is not PENDING any more. -/
def restarts (n : String) (s : System) : Event → Bool
  | .work h =>
      (s.handlers.get h).any fun w =>
        w.notificationId = n && w.pc = .findById && w.message.attemptNumber = 1 &&
        (s.db.findById n).any fun row => !row.status.skipped && row.status ≠ .pending
  | _ => false

/-- The calls of `ProviderRouter::send` for `n`: those that have ended and those that have not. -/
def routerCalls (n : String) (s : System) : Nat :=
  (s.sends.filter fun call => call.1 = n).length +
    ((List.range s.handlers.next).filter fun h =>
      (s.handlers.get h).any fun w => w.notificationId = n && w.calling).length

/-- A step without crash or redelivery that lets no deliveries of `n` overlap and starts no second
chain for `n`. -/
def singleChain (n : String) (s : System) (event : Event) : Bool :=
  !event.redelivers && !s.crowds n event && !s.restarts n event

variable {env : Env} {s : System} {n : String} {event : Event}

theorem restarts_of_view (hrestarts : (s.view n).Restarts event) : s.restarts n event = true := by
  obtain ⟨h, w, row, rfl, hview, hpc, hfirst, hrow, hskipped, hpending⟩ := hrestarts
  obtain ⟨hget, hid⟩ := view_handlers.mp hview
  have hfind : s.db.findById n = some row := hrow
  simp [restarts, hget, hid, hpc, hfirst, hfind, hskipped, hpending]

/-- What holds of a notification with a single chain. -/
structure Budgeted (env : Env) (v : View) : Prop where
  placed : v.Placed env.config
  ranged : v.Ranged env.config
  solo : v.Solo
  chain : v.Chain env.config

theorem Budgeted.step {v next : View} {known : Prop} (h : Budgeted env v)
    (hcrowds : ¬ v.Crowds event)
    (hredelivers : event.redelivers = false) (hguard : ¬ v.Restarts event)
    (hstep : View.Step env n known v event next) : Budgeted env next :=
  ⟨h.placed.step hstep, h.ranged.step h.placed hstep, h.solo.step hcrowds hstep,
    h.chain.step h.solo h.placed h.ranged hcrowds hredelivers hguard hstep⟩

/-- What a step with a single chain does not do. -/
theorem of_single_chain (hsingle : s.singleChain n event = true) :
    ¬ (s.view n).Crowds event ∧ event.redelivers = false ∧ ¬ (s.view n).Restarts event := by
  simp only [singleChain, Bool.and_eq_true, Bool.not_eq_true'] at hsingle
  obtain ⟨⟨hredelivers, hcrowds⟩, hrestarts⟩ := hsingle
  refine ⟨fun h => ?_, hredelivers, fun h => ?_⟩
  · exact absurd (crowds_of_view h) (by simp [hcrowds])
  · exact absurd (restarts_of_view h) (by simp [hrestarts])

/-- The run lemma. -/
theorem reachable_budgeted
    (hreach : Reaches (System.step env) (fun s event => s.singleChain n event = true) initial s) :
    Budgeted env (s.view n) := by
  refine view_invariant hreach ⟨View.placed_empty _, View.ranged_empty _, View.solo_empty,
    View.chain_empty _⟩ ?_
  intro s event next _ hallowed hview hstep
  obtain ⟨hcrowds, hredelivers, hguard⟩ := of_single_chain hallowed
  exact hview.step hcrowds hredelivers hguard hstep

/-- If no delivery calls the provider, all calls have ended. -/
theorem router_calls_of_quiet
    (hquiet : ∀ h w, (s.view n).handlers h = some w → w.calling = false) :
    s.routerCalls n = (s.view n).sends.length := by
  have hnone : ((List.range s.handlers.next).filter fun h =>
      (s.handlers.get h).any fun w => w.notificationId = n && w.calling) = [] := by
    refine List.filter_eq_nil_iff.mpr fun h _ hcalling => ?_
    obtain ⟨w, hget, hw⟩ := (Option.any_eq_true _ _).mp hcalling
    simp only [Bool.and_eq_true, decide_eq_true_eq] at hw
    exact absurd hw.2 (by simp [hquiet h w (view_handlers.mpr ⟨hget, hw.1⟩)])
  rw [routerCalls, hnone]
  simp [view]

/-- A single delivery makes at most one call that has not ended. -/
theorem router_calls_le (hsolo : (s.view n).Solo) :
    s.routerCalls n ≤ (s.view n).sends.length + 1 := by
  have hone : ((List.range s.handlers.next).filter fun h =>
      (s.handlers.get h).any fun w => w.notificationId = n && w.calling).length ≤ 1 := by
    rw [← List.toFinset_card_of_nodup (List.nodup_range.filter _), Finset.card_le_one]
    intro a ha b hb
    rw [List.mem_toFinset] at ha hb
    obtain ⟨w, hget, hw⟩ := (Option.any_eq_true _ _).mp (List.mem_filter.mp ha).2
    obtain ⟨w', hget', hw'⟩ := (Option.any_eq_true _ _).mp (List.mem_filter.mp hb).2
    simp only [Bool.and_eq_true, decide_eq_true_eq] at hw hw'
    exact hsolo.alone b w' a w (view_handlers.mpr ⟨hget', hw'.1⟩) (view_handlers.mpr ⟨hget, hw.1⟩)
  have hsends : (s.view n).sends.length = (s.sends.filter fun call => call.1 = n).length := by
    simp [view]
  rw [routerCalls, hsends]
  omega

/-- Any number of requests for a notification, in runs without crashes and redeliveries in which its
deliveries do not overlap and no first attempt passes the status check after the status has left
PENDING: the provider is called at most once more than the retry limit, and not at all once the
notification is DEAD_LETTERED. -/
theorem retry_budget (env : Env) (s : System) (n : String)
    (hreach : Reaches (System.step env) (fun s event => s.singleChain n event = true) initial s) :
    (s.routerCalls n : Int) ≤ max env.config.maxRetries 0 + 1 ∧
    ∀ row t, s.db.findById n = some row → row.status = .deadLettered →
      Reaches (System.step env) (fun s event => s.singleChain n event = true) s t →
      t.routerCalls n = s.routerCalls n := by
  have hbudgeted := reachable_budgeted hreach
  constructor
  · by_cases hcalling : ∃ h w, (s.view n).handlers h = some w ∧ w.calling = true
    · -- the call that has not ended is that of the next number
      obtain ⟨h, w, hget, hcalling⟩ := hcalling
      have happroaching : w.Approaching := by
        unfold Handler.calling at hcalling
        split at hcalling
        · rename_i row hpc
          exact .inr (.inr ⟨row, hpc⟩)
        · exact absurd hcalling (by simp)
      have hnumber := (hbudgeted.chain.approaching h w hget happroaching).1
      have hlimit := hbudgeted.ranged.handler h w hget
      have hcalls := router_calls_le hbudgeted.solo
      unfold Config.lastAttempt at hlimit
      omega
    · have hquiet : ∀ h w, (s.view n).handlers h = some w → w.calling = false := by
        intro h w hget
        by_contra hw
        exact hcalling ⟨h, w, hget, by simpa using hw⟩
      rw [router_calls_of_quiet hquiet]
      exact hbudgeted.chain.bounded
  · intro row t hrow hstatus hnext
    have hdead : (s.view n).status = some .deadLettered := by
      simp [View.status, view, hrow, hstatus]
    let invariant (u : System) : Prop := u.WellFormed ∧ Budgeted env (u.view n) ∧
      (u.view n).status = some .deadLettered ∧ (u.view n).sends = (s.view n).sends
    have hkeep : ∀ u event next, invariant u → u.singleChain n event = true →
        u.step env event = some next → invariant next := by
      intro u event next hu hallowed hstep
      obtain ⟨hwell, hb, hd, hsends⟩ := hu
      obtain ⟨hcrowds, hredelivers, hguard⟩ := of_single_chain hallowed
      have hview := hwell.step_view (n := n) hstep
      obtain ⟨hd', hsends'⟩ := hb.chain.dead_lettered_stays hd hview
      exact ⟨hwell.step hstep, hb.step hcrowds hredelivers hguard hview, hd', hsends'.trans hsends⟩
    have hlast : invariant t :=
      hnext.invariant hkeep ⟨reachable_well_formed hreach, hbudgeted, hdead, rfl⟩
    obtain ⟨_, hb, hd, hsends⟩ := hlast
    rw [router_calls_of_quiet (hb.chain.quiet_of_dead hd), hsends,
      router_calls_of_quiet (hbudgeted.chain.quiet_of_dead hdead)]

/-- The first attempt fails for good, and the client sends its request again. -/
def deadLetters : List Event :=
  (submission sample "id").append [.deliver .email 0, .work 0, .work 0,
    .send 0 (.failure "rejected" false), .work 0, .work 0, .work 0, .work 0, .work 0]

def submitsAgain : List Event := [.request sample "id'", .post 1, .post 1]

theorem retry_budget_submits_again :
    ∃ s t, run (System.step shipped) initial deadLetters = some s ∧
      run (System.step shipped) s submitsAgain = some t ∧
      (s.routerCalls "id" : Int) ≤ max shipped.config.maxRetries 0 + 1 ∧
      t.routerCalls "id" = s.routerCalls "id" := by
  have hlast : ((run (guarded (System.step shipped) (singleChain "id")) initial deadLetters).bind
      fun s => (run (guarded (System.step shipped) (singleChain "id")) s submitsAgain).map fun _ =>
        (s.db.findById "id").map Notification.status) = some (some .deadLettered) := by
          decide +kernel
  obtain ⟨s, hrun, hs⟩ := Option.bind_eq_some_iff.mp hlast
  obtain ⟨t, hnext, hstatus⟩ := Option.map_eq_some_iff.mp hs
  obtain ⟨row, hrow, hdead⟩ := Option.map_eq_some_iff.mp hstatus
  have hbudget := retry_budget shipped s "id" (Reaches.of_guarded_run (fun _ _ h => h) hrun)
  exact ⟨s, t, run_of_guarded hrun, run_of_guarded hnext, hbudget.1,
    hbudget.2 row t hrow hdead (Reaches.of_guarded_run (fun _ _ h => h) hnext)⟩

/-- No retries. -/
def singleAttempt : Env := ⟨{ maxRetries := 0 }, fun key => key⟩

/-- Without crashes, redeliveries and overlapping deliveries, the second request revives the
notification and its provider is called again. -/
theorem retry_budget_exceeded :
    ∃ s t, run (guarded (System.step singleAttempt) fun s event =>
        !event.redelivers && !s.crowds "id" event) initial deadLetters = some s ∧
      run (guarded (System.step singleAttempt) fun s event =>
        !event.redelivers && !s.crowds "id" event) s
          (submitsAgain.append [.deliver .email 2, .work 1, .work 1, .send 1 (.result "ref")]) =
          some t ∧
      (s.db.findById "id").map Notification.status = some .deadLettered ∧
      s.routerCalls "id" = 1 ∧ t.routerCalls "id" = 2 :=
  ⟨_, _, rfl, rfl, rfl, rfl, rfl⟩

end System

end NotificationDelivery
