import NotificationDelivery.Service.Attempts
import NotificationDelivery.Service.Placement

/-!
# The range of the attempt numbers

Whatever happens, no message, delivery or row of `delivery_attempts` has a number above one more
than the retry limit, and the message that waits on rung `k` is that of attempt `k + 1`.
-/

namespace NotificationDelivery

/-- The number of the last attempt: a negative limit allows no retry. -/
def Config.lastAttempt (config : Config) : Int := max config.maxRetries 0 + 1

theorem Config.one_le_last_attempt (config : Config) : 1 ≤ config.lastAttempt := by
  unfold lastAttempt
  omega

/-- A delivery in the retry branch has a successor in the range. -/
theorem Config.lt_last_attempt {config : Config} {k : Int} (h : k ≤ config.maxRetries) :
    k + 1 ≤ config.lastAttempt := by
  unfold lastAttempt
  omega

namespace View

structure Ranged (config : Config) (v : View) : Prop where
  message : ∀ i place k, v.messages i = some (place, k) → k ≤ config.lastAttempt
  waiting : ∀ i c rung k, v.messages i = some (.queue (Topology.retryQueue c rung), k) →
    k = rung + 1
  handler : ∀ h w, v.handlers h = some w → w.message.attemptNumber ≤ config.lastAttempt
  attempt : ∀ k a, v.attempts k = some a →
    1 ≤ k ∧ k ≤ config.lastAttempt ∧ v.channel = some a.channel

variable {env : Env} {config : Config} {n : String} {known : Prop} {v next u : View} {h i : Nat}
  {w : Handler} {k : Int} {place : Place}

theorem ranged_empty (config : Config) : empty.Ranged config where
  message := by simp [empty]
  waiting := by simp [empty]
  handler := by simp [empty]
  attempt := by simp [empty]

namespace Ranged

/-- The channel, the attempts, the messages and the numbers of the deliveries matter. -/
theorem of_eq (hranged : v.Ranged config) (hchannel : next.channel = v.channel)
    (hattempts : next.attempts = v.attempts) (hmessages : next.messages = v.messages)
    (hhandlers : ∀ h w, next.handlers h = some w → w.message.attemptNumber ≤ config.lastAttempt) :
    next.Ranged config where
  message := by simpa only [hmessages] using hranged.message
  waiting := by simpa only [hmessages] using hranged.waiting
  handler := hhandlers
  attempt := by simpa only [hattempts, hchannel] using hranged.attempt

/-- A message is put on a place. -/
theorem put (hranged : v.Ranged config) (hk : k ≤ config.lastAttempt)
    (hrung : ∀ c rung, place = .queue (Topology.retryQueue c rung) → k = rung + 1) :
    (v.setMessage i (some (place, k))).Ranged config where
  message := by
    intro j place' k' hm
    rcases Registry.update_eq_some.mp hm with ⟨_, heq⟩ | ⟨_, hm⟩
    · cases heq
      exact hk
    · exact hranged.message j place' k' hm
  waiting := by
    intro j c rung k' hm
    rcases Registry.update_eq_some.mp hm with ⟨_, heq⟩ | ⟨_, hm⟩
    · cases heq
      exact hrung c rung rfl
    · exact hranged.waiting j c rung k' hm
  handler := hranged.handler
  attempt := hranged.attempt

/-- A message is removed. -/
theorem take (hranged : v.Ranged config) (i : Nat) : (v.setMessage i none).Ranged config where
  message := by
    intro j place k hm
    rcases Registry.update_eq_some.mp hm with ⟨_, heq⟩ | ⟨_, hm⟩
    · exact absurd heq (by simp)
    · exact hranged.message j place k hm
  waiting := by
    intro j c rung k hm
    rcases Registry.update_eq_some.mp hm with ⟨_, heq⟩ | ⟨_, hm⟩
    · exact absurd heq (by simp)
    · exact hranged.waiting j c rung k hm
  handler := hranged.handler
  attempt := hranged.attempt

/-- A delivery moves on. -/
theorem advance (hranged : v.Ranged config) (hget : v.handlers h = some w) {pc : HandlerPc} :
    (v.advance h w pc).Ranged config := by
  refine hranged.of_eq rfl rfl rfl fun h' w' hget' => ?_
  rcases Registry.update_eq_some.mp hget' with ⟨_, heq⟩ | ⟨_, hget'⟩
  · obtain rfl := Option.some.inj heq
    exact hranged.handler h w hget
  · exact hranged.handler h' w' hget'

/-- A delivery leaves. -/
theorem remove (hranged : v.Ranged config) (h : Nat) :
    { v with handlers := Function.update v.handlers h none }.Ranged config := by
  refine hranged.of_eq rfl rfl rfl fun h' w' hget' => ?_
  rcases Registry.update_eq_some.mp hget' with ⟨_, heq⟩ | ⟨_, hget'⟩
  · exact absurd heq (by simp)
  · exact hranged.handler h' w' hget'

/-- A delivery writes the row of its attempt. -/
theorem record (hranged : v.Ranged config) (hplaced : v.Placed config)
    (hget : v.handlers h = some w)
    {attempt : DeliveryAttempt} (hnumber : attempt.attemptNumber = w.message.attemptNumber)
    (hchannel : attempt.channel = w.channel) : (v.record attempt).Ranged config where
  message := hranged.message
  waiting := hranged.waiting
  handler := hranged.handler
  attempt := by
    intro k a ha
    rw [attempts_record] at ha
    split at ha
    · rename_i hk
      obtain ⟨hplace, hone⟩ := hplaced.handler h w hget
      have hle := hranged.handler h w hget
      refine ⟨by omega, by omega, ?_⟩
      cases hold : v.attempts k with
      | none =>
          rw [hold] at ha
          obtain rfl := Option.some.inj ha
          exact hplace.trans (congrArg some hchannel.symm)
      | some old =>
          rw [hold] at ha
          obtain rfl := Option.some.inj ha
          exact (hranged.attempt k old hold).2.2
    · exact hranged.attempt k a ha

theorem worked (hranged : v.Ranged config) (hplaced : v.Placed config)
    (hget : v.handlers h = some w) (hworked : v.Worked config h w next) : next.Ranged config := by
  have hle := hranged.handler h w hget
  have hrow : ∀ {u : View}, u.channel = v.channel → u.attempts = v.attempts →
      u.messages = v.messages → u.handlers = v.handlers → u.Ranged config := by
    intro u hchannel hattempts hmessages hhandlers
    exact hranged.of_eq hchannel hattempts hmessages (hhandlers ▸ hranged.handler)
  cases hworked with
  | missed | skipped | found | droppedRetry => exact hranged.advance hget
  | markedProcessing | markedSent | markedDeadLettered =>
      exact (hrow (channel_set_status _) rfl rfl rfl).advance hget
  | incrementedSuccess | incrementedRetry | incrementedDead =>
      exact (hrow channel_increment rfl rfl rfl).advance hget
  | recordedSuccess | recordedRetry | recordedDead =>
      exact (hranged.record hplaced hget rfl rfl).advance hget
  | publishedRetry i hpc hfree =>
      have hlimit := Config.lt_last_attempt (hplaced.retrying h w hget (.inr hpc))
      refine (hranged.put hlimit fun c rung hplace => ?_).advance hget
      obtain ⟨_, rfl⟩ : w.channel = c ∧ w.message.attemptNumber = rung := by simpa using hplace
      rfl
  | publishedDlq i hpc hfree => exact (hranged.put hle (by simp)).advance hget
  | acked => exact (hranged.take _).remove h
  | ackedLate => exact hranged.remove h

/-- The step lemma. -/
theorem step (hranged : v.Ranged env.config) (hplaced : v.Placed env.config) {event : Event}
    (hstep : View.Step env n known v event next) : next.Ranged env.config := by
  cases hstep with
  | unrelated => exact hranged
  | found | aborted => exact hranged.of_eq rfl rfl rfl hranged.handler
  | committed p saved hnone =>
      have hempty : v.channel = none := by simp [channel, hnone]
      refine ⟨hranged.message, hranged.waiting, hranged.handler, fun k a ha => ?_⟩
      exact absurd (hranged.attempt k a ha).2.2 (by simp [hempty])
  | published p saved i hsaved hfree =>
      exact (hranged.put (i := i) (Config.one_le_last_attempt _) (by simp)).of_eq rfl rfl rfl
        hranged.handler
  | delivered c i h w hmessage =>
      have hk := hranged.message i _ _ hmessage
      refine (hranged.put (i := i) hk (by simp)).of_eq rfl rfl rfl fun h' w' hget' => ?_
      rcases Registry.update_eq_some.mp hget' with ⟨_, heq⟩ | ⟨_, hget'⟩
      · obtain rfl := Option.some.inj heq
        exact hk
      · exact hranged.handler h' w' hget'
  | worked h w next hget _ hworked => exact hranged.worked hplaced hget hworked
  | sent h w row outcome hget =>
      have hadvance : (v.advance h w (Handler.afterSend outcome)).Ranged env.config :=
        hranged.advance hget
      exact hadvance.of_eq rfl rfl rfl hadvance.handler
  | crashed h w => exact hranged.remove h
  | expired i j c rung k hmessage =>
      exact (hranged.take i).put (hranged.message i _ _ hmessage) (by simp)
  | requeued i name consumer k hmessage =>
      obtain ⟨_, c, _, hproper⟩ := hplaced.message i _ _ hmessage
      cases hproper with
      | unacked => exact hranged.put (hranged.message i _ _ hmessage) (by simp)

end Ranged

end View

/-- The numbers are in range in every state of every run. -/
theorem System.reachable_ranged {env : Env} {s : System} {allowed : System → Event → Prop}
    (hreach : EventMachine.Reaches (System.step env) allowed .initial s) (n : String) :
    (s.view n).Placed env.config ∧ (s.view n).Ranged env.config := by
  let invariant (v : View) : Prop := v.Placed env.config ∧ v.Ranged env.config
  have hview : invariant (s.view n) :=
    view_invariant hreach ⟨View.placed_empty _, View.ranged_empty _⟩
      fun _ _ _ _ _ hview hstep => ⟨hview.1.step hstep, hview.2.step hview.1 hstep⟩
  exact hview

end NotificationDelivery
