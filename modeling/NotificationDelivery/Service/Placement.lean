import NotificationDelivery.Service.Projection

/-!
# Where the messages of a notification are

Everything that exists about a notification belongs to its channel: its messages are on the main
queue, on a declared rung of the retry ladder, on the dead-letter queue, or unacked at a
worker of the channel. Attempt numbers start at one, and a delivery is in the retry branch
only below the retry limit.
-/

namespace NotificationDelivery

/-- The places of the messages of a channel. -/
inductive Place.Proper (config : Config) (c : Channel) : Place → Prop where
  | main : Proper config c (.queue (Topology.mainQueue c))
  | retry (k : Int) : 1 ≤ k → k ≤ config.retryDelaysMs.length →
      Proper config c (.queue (Topology.retryQueue c k))
  | dlq : Proper config c (.queue (Topology.dlq c))
  | unacked (consumer : Nat) : Proper config c (.unacked (Topology.mainQueue c) consumer)

/-- The delivery is in the retry branch and has not published the retry. -/
def Handler.Retrying (w : Handler) : Prop :=
  (∃ what, w.pc = .recordRetry what) ∨ w.pc = .publishRetry

namespace View

def channel (v : View) : Option Channel := v.row.map Notification.channel

/-- The requests, the deliveries and the messages of a notification belong to its channel. -/
structure Placed (config : Config) (v : View) : Prop where
  publishing : ∀ p saved, v.publishing p = some saved → v.channel = some saved.channel
  handler : ∀ h w, v.handlers h = some w →
    v.channel = some w.channel ∧ 1 ≤ w.message.attemptNumber
  retrying : ∀ h w, v.handlers h = some w → w.Retrying →
    w.message.attemptNumber ≤ config.maxRetries
  message : ∀ i place k, v.messages i = some (place, k) →
    1 ≤ k ∧ ∃ c, v.channel = some c ∧ place.Proper config c

variable {config : Config} {env : Env} {n : String} {known : Prop} {v next : View} {h i p : Nat}
  {w : Handler} {k : Int} {c : Channel} {place : Place}

@[simp] theorem channel_set_status (status : NotificationStatus) :
    (v.setStatus status).channel = v.channel := by
  simp [channel, setStatus, Function.comp_def]

@[simp] theorem channel_increment : v.increment.channel = v.channel := by
  simp [channel, increment, Function.comp_def]

theorem placed_empty (config : Config) : empty.Placed config where
  publishing := by simp [empty]
  handler := by simp [empty]
  retrying := by simp [empty]
  message := by simp [empty]

namespace Placed

/-- A notification that a delivery works on is stored. -/
theorem stored (hplaced : v.Placed config) (hget : v.handlers h = some w) : v.row ≠ none := by
  intro hnone
  have hchannel := (hplaced.handler h w hget).1
  simp [channel, hnone] at hchannel

/-- No delivery works on a notification that is not stored. -/
theorem idle_of_absent (hplaced : v.Placed config) (hnone : v.row = none) (h : Nat) :
    v.handlers h = none := by
  by_contra hne
  obtain ⟨w, hget⟩ := Option.ne_none_iff_exists'.mp hne
  exact hplaced.stored hget hnone

/-- There is no message for a notification that is not stored. -/
theorem no_message_of_absent (hplaced : v.Placed config) (hnone : v.row = none) (i : Nat) :
    v.messages i = none := by
  by_contra hne
  obtain ⟨⟨place, k⟩, hmessage⟩ := Option.ne_none_iff_exists'.mp hne
  obtain ⟨_, c, hchannel, _⟩ := hplaced.message i place k hmessage
  simp [channel, hnone] at hchannel

/-- Changing the row inside its channel, or the attempts, keeps the places. -/
theorem of_row (hplaced : v.Placed config) {row : Option Notification}
    {attempts : Int → Option DeliveryAttempt}
    (hchannel : row.map Notification.channel = v.channel) :
    { v with row, attempts }.Placed config where
  publishing := fun p saved hp => hchannel.trans (hplaced.publishing p saved hp)
  handler := fun h w hw => ⟨hchannel.trans (hplaced.handler h w hw).1, (hplaced.handler h w hw).2⟩
  retrying := hplaced.retrying
  message := by
    intro i place k hm
    obtain ⟨hk, c, hc, hproper⟩ := hplaced.message i place k hm
    exact ⟨hk, c, hchannel.trans hc, hproper⟩

theorem set_status (hplaced : v.Placed config) (status : NotificationStatus) :
    (v.setStatus status).Placed config :=
  hplaced.of_row (channel_set_status status)

theorem increment (hplaced : v.Placed config) : v.increment.Placed config :=
  hplaced.of_row channel_increment

theorem record (hplaced : v.Placed config) (attempt : DeliveryAttempt) :
    (v.record attempt).Placed config :=
  hplaced.of_row rfl

/-- A delivery moves on; to enter the retry branch it must be below the limit. -/
theorem advance (hplaced : v.Placed config) (hget : v.handlers h = some w) {pc : HandlerPc}
    (hretrying : (w.goto pc).Retrying → w.message.attemptNumber ≤ config.maxRetries) :
    (v.advance h w pc).Placed config where
  publishing := hplaced.publishing
  handler := by
    intro h' w' hw'
    rcases Registry.update_eq_some.mp hw' with ⟨rfl, heq⟩ | ⟨_, hw'⟩
    · obtain rfl := Option.some.inj heq
      exact hplaced.handler h' w hget
    · exact hplaced.handler h' w' hw'
  retrying := by
    intro h' w' hw' hr
    rcases Registry.update_eq_some.mp hw' with ⟨rfl, heq⟩ | ⟨_, hw'⟩
    · obtain rfl := Option.some.inj heq
      exact hretrying hr
    · exact hplaced.retrying h' w' hw' hr
  message := hplaced.message

/-- A delivery leaves. -/
theorem remove (hplaced : v.Placed config) (h : Nat) :
    { v with handlers := Function.update v.handlers h none }.Placed config where
  publishing := hplaced.publishing
  handler := by
    intro h' w' hw'
    rcases Registry.update_eq_some.mp hw' with ⟨_, heq⟩ | ⟨_, hw'⟩
    · exact absurd heq (by simp)
    · exact hplaced.handler h' w' hw'
  retrying := by
    intro h' w' hw' hr
    rcases Registry.update_eq_some.mp hw' with ⟨_, heq⟩ | ⟨_, hw'⟩
    · exact absurd heq (by simp)
    · exact hplaced.retrying h' w' hw' hr
  message := hplaced.message

/-- A message is put on a place of the channel. -/
theorem put (hplaced : v.Placed config) (hk : 1 ≤ k) (hc : v.channel = some c)
    (hproper : place.Proper config c) : (v.setMessage i (some (place, k))).Placed config where
  publishing := hplaced.publishing
  handler := hplaced.handler
  retrying := hplaced.retrying
  message := by
    intro j place' k' hm
    rcases Registry.update_eq_some.mp hm with ⟨_, heq⟩ | ⟨_, hm⟩
    · cases heq
      exact ⟨hk, c, hc, hproper⟩
    · exact hplaced.message j place' k' hm

/-- A message is removed. -/
theorem take (hplaced : v.Placed config) (i : Nat) : (v.setMessage i none).Placed config where
  publishing := hplaced.publishing
  handler := hplaced.handler
  retrying := hplaced.retrying
  message := by
    intro j place' k' hm
    rcases Registry.update_eq_some.mp hm with ⟨_, heq⟩ | ⟨_, hm⟩
    · exact absurd heq (by simp)
    · exact hplaced.message j place' k' hm

/-- A request announces the notification next, or does not. -/
theorem set_publishing (hplaced : v.Placed config) {value : Option Notification}
    (hvalue : ∀ saved ∈ value, v.channel = some saved.channel) :
    (v.setPublishing p value).Placed config where
  publishing := by
    intro q saved hq
    rcases Registry.update_eq_some.mp hq with ⟨_, heq⟩ | ⟨_, hq⟩
    · exact hvalue saved heq
    · exact hplaced.publishing q saved hq
  handler := hplaced.handler
  retrying := hplaced.retrying
  message := hplaced.message

/-- The notification is created. -/
theorem create (hplaced : v.Placed config) {saved : Notification} (hnone : v.row = none) :
    { v.setPublishing p (some saved) with row := some saved }.Placed config := by
  refine ⟨fun q other hq => ?_, fun h w hw => ?_, fun h w hw => ?_, fun i place k hm => ?_⟩
  · rcases Registry.update_eq_some.mp hq with ⟨_, heq⟩ | ⟨_, hq⟩
    · cases heq
      rfl
    · have hchannel := hplaced.publishing q other hq
      simp [channel, hnone] at hchannel
  · exact absurd hnone (hplaced.stored hw)
  · exact absurd hnone (hplaced.stored hw)
  · exact absurd hm (by simp [setPublishing, hplaced.no_message_of_absent hnone])

/-- The statements of a delivery keep the places. -/
theorem worked (hplaced : v.Placed config) (hget : v.handlers h = some w)
    (hworked : v.Worked config h w next) : next.Placed config := by
  obtain ⟨hchannel, hone⟩ := hplaced.handler h w hget
  cases hworked with
  | missed | skipped | found | droppedRetry =>
      exact hplaced.advance hget (by simp [Handler.Retrying])
  | markedProcessing | markedSent | markedDeadLettered =>
      exact (hplaced.set_status _).advance hget (by simp [Handler.Retrying])
  | recordedSuccess | recordedDead =>
      exact (hplaced.record _).advance hget (by simp [Handler.Retrying])
  | recordedRetry what hpc =>
      exact (hplaced.record _).advance hget
        fun _ => hplaced.retrying h w hget (.inl ⟨what, hpc⟩)
  | incrementedSuccess | incrementedDead =>
      exact hplaced.increment.advance hget (by simp [Handler.Retrying])
  | incrementedRetry what isTransient hpc hretries =>
      refine hplaced.increment.advance hget fun _ => ?_
      simp only [Received.retries, Received.exhausted, Bool.and_eq_true, Bool.not_eq_true',
        decide_eq_false_iff_not] at hretries
      omega
  | publishedRetry i hpc hfree hdeclared =>
      exact (hplaced.put (by omega) hchannel (.retry _ hdeclared.1 hdeclared.2)).advance hget
        (by simp [Handler.Retrying])
  | publishedDlq i hpc hfree =>
      exact (hplaced.put hone hchannel .dlq).advance hget (by simp [Handler.Retrying])
  | acked => exact (hplaced.take _).remove h
  | ackedLate => exact hplaced.remove h

/-- The step lemma. -/
theorem step (hplaced : v.Placed env.config) {event : Event}
    (hstep : View.Step env n known v event next) : next.Placed env.config := by
  cases hstep with
  | unrelated => exact hplaced
  | found p existing _ hrow _ =>
      exact hplaced.set_publishing (by simp [channel, hrow])
  | committed p saved hrow => exact hplaced.create hrow
  | published p saved i hsaved hfree =>
      have hchannel := hplaced.publishing p saved hsaved
      have hnext :
          ((v.setMessage i (some (.queue (Topology.mainQueue saved.channel), 1))).setPublishing
          p none).Placed env.config :=
        (hplaced.put (Int.le_refl 1) hchannel .main).set_publishing (by simp)
      exact ⟨hnext.publishing, hnext.handler, hnext.retrying, hnext.message⟩
  | aborted p => exact hplaced.set_publishing (by simp)
  | delivered c i h w hmessage hfree hc htag hid hpc =>
      obtain ⟨hk, d, hd, hproper⟩ := hplaced.message i _ _ hmessage
      have hcd : c = d := by
        generalize hplace : Place.queue (Topology.mainQueue c) = place at hproper
        cases hproper <;> simp_all
      subst hcd hc
      have hnext := hplaced.put (i := i) hk hd (.unacked h)
      refine ⟨hnext.publishing, fun h' w' hw' => ?_, fun h' w' hw' => ?_, hnext.message⟩
      · rcases Registry.update_eq_some.mp hw' with ⟨_, heq⟩ | ⟨_, hw'⟩
        · cases heq
          exact ⟨hd, hk⟩
        · exact hplaced.handler h' w' hw'
      · rcases Registry.update_eq_some.mp hw' with ⟨_, heq⟩ | ⟨_, hw'⟩
        · cases heq
          simp [Handler.Retrying, hpc]
        · exact hplaced.retrying h' w' hw'
  | worked h w next hget _ hworked => exact hplaced.worked hget hworked
  | sent h w row outcome hget _ hpc =>
      have hnext : (v.advance h w (Handler.afterSend outcome)).Placed env.config :=
        hplaced.advance hget (by cases outcome <;> simp [Handler.Retrying, Handler.afterSend])
      exact ⟨hnext.publishing, hnext.handler, hnext.retrying, hnext.message⟩
  | crashed h w => exact hplaced.remove h
  | expired i j c rung k hmessage hfree =>
      obtain ⟨hk, d, hd, hproper⟩ := hplaced.message i _ _ hmessage
      have hcd : c = d := by
        generalize hplace : Place.queue (Topology.retryQueue c rung) = place at hproper
        cases hproper <;> simp_all
      subst hcd
      exact (hplaced.take i).put hk hd .main
  | requeued i name consumer k hmessage =>
      obtain ⟨hk, d, hd, hproper⟩ := hplaced.message i _ _ hmessage
      cases hproper with
      | unacked => exact hplaced.put hk hd .main

end Placed

end View

/-- Everything about a notification is on its channel in every state of every run. -/
theorem System.reachable_placed {env : Env} {s : System} {allowed : System → Event → Prop}
    (hreach : EventMachine.Reaches (System.step env) allowed .initial s) (n : String) :
    (s.view n).Placed env.config :=
  System.view_invariant hreach (View.placed_empty _)
    fun _ _ _ _ _ hplaced hstep => hplaced.step hstep

end NotificationDelivery
