import NotificationDelivery.Service.BoundedWork
import NotificationDelivery.Service.Enabled
import NotificationDelivery.Service.Rows

/-!
# The service at rest

A service that is left alone comes to rest: no request, delivery or message can make another
step. At rest every request has been answered, nothing is on a main queue or waits on the retry
ladder, and every announced notification is SENT, is on the dead-letter queue of its channel,
or has a message at a delivery that died.
-/

namespace NotificationDelivery

open EventMachine

/-- The event is a step that the service takes by itself. -/
def Event.own (event : Event) : Bool := event.spends && !event.disturbs

namespace System

/-- The service can make no step by itself. -/
def AtRest (env : Env) (s : System) : Prop :=
  ∀ event, event.own = true → s.step env event = none

variable {env : Env} {s t : System} {event : Event} {i p : Nat} {m : Message} {post : Post}

/-- Every event but a request and a disturbance is one of the service itself. -/
theorem own_of_disturbs (hcalm : event.disturbs = false)
    (hrequest : ∀ input uuid, event ≠ .request input uuid) : event.own = true := by
  cases event with
  | request input uuid => exact absurd rfl (hrequest input uuid)
  | abort | crash | requeue => exact absurd hcalm (by simp [Event.disturbs])
  | post | deliver | work | send | expire => rfl

theorem AtRest.not_step (hrest : s.AtRest env) (hown : event.own = true)
    (hstep : s.step env event = some t) : False := by
  rw [hrest event hown] at hstep
  exact absurd hstep (by simp)

/-- An event of the service itself brings no credit. -/
theorem credit_of_own (config : Config) (hown : event.own = true) : event.credit config = 0 := by
  cases event with
  | request | requeue => exact absurd hown (by simp [Event.own, Event.spends])
  | post | abort | deliver | work | send | crash | expire => rfl

/-- Every step that the service takes by itself uses up one of the steps that are left. -/
theorem own_step_less (hreach : Reaches (System.step env) (fun _ _ => True) initial s)
    (hown : event.own = true) (hstep : s.step env event = some t) :
    t.stepsLeft env.config < s.stepsLeft env.config := by
  have hpays := step_pays hreach hstep
  obtain ⟨hspends, -⟩ := Bool.and_eq_true_iff.mp hown
  rw [credit_of_own env.config hown, hspends, if_pos rfl] at hpays
  omega

/-- Left alone, the service takes at most as many steps as are left. -/
theorem own_run_le (hreach : Reaches (System.step env) (fun _ _ => True) initial s)
    {events : List Event} (hrun : run (System.step env) s events = some t)
    (hown : ∀ event ∈ events, event.own = true) :
    events.length + t.stepsLeft env.config ≤ s.stepsLeft env.config := by
  induction events generalizing s with
  | nil =>
      obtain rfl := Option.some.inj hrun
      simp
  | cons event rest ih =>
      simp only [run_cons, bind, Option.bind_eq_some_iff] at hrun
      obtain ⟨next, hstep, hrest⟩ := hrun
      have hless := own_step_less hreach (hown event (by simp)) hstep
      have hlater := ih (reaches_step hreach hstep) hrest
        fun later hmem => hown later (by simp [hmem])
      simp only [List.length_cons]
      omega

/-- Left alone, the service comes to rest. -/
theorem exists_rest (hreach : Reaches (System.step env) (fun _ _ => True) initial s) :
    ∃ events t, run (System.step env) s events = some t ∧
      (∀ event ∈ events, event.own = true) ∧ t.AtRest env := by
  obtain ⟨events, t, hrun, hown, -, hrest⟩ := EventMachine.runs_down (stepsLeft env.config)
    Event.own (fun _ _ _ hreach _ => reaches_step hreach) (fun _ _ _ => own_step_less) s hreach
  exact ⟨events, t, hrun, hown, hrest⟩

/-- Whatever has happened so far: left alone, the service takes at most as many steps as are left,
in whatever order its parts run and however the providers answer, and it does come to rest. -/
theorem comes_to_rest (env : Env) (s : System)
    (hreach : Reaches (System.step env) (fun _ _ => True) initial s) :
    (∀ events t, run (System.step env) s events = some t →
      (∀ event ∈ events, event.own = true) →
        events.length + t.stepsLeft env.config ≤ s.stepsLeft env.config) ∧
    ∃ events t, run (System.step env) s events = some t ∧
      (∀ event ∈ events, event.own = true) ∧ t.AtRest env :=
  ⟨fun _ _ => own_run_le hreach, exists_rest hreach⟩

/-- Where everything is when the service is at rest. -/
structure Settled (s : System) : Prop where
  handlers : ∀ h, s.handlers.get h = none
  posts : ∀ p post, s.posts.get p = some post → post.pc = .done
  messages : ∀ i m, s.broker.get i = some m → ∃ c, m.place = .queue (Topology.dlq c) ∨
    ∃ consumer, m.place = .unacked (Topology.mainQueue c) consumer
  /-- An announced notification is delivered, dead, or left to the broker by a delivery that
  died. -/
  announced : ∀ n ∈ s.announced, ∃ row, s.db.findById n = some row ∧ (row.status = .sent ∨
    (∃ i k, (s.view n).messages i = some (.queue (Topology.dlq row.channel), k)) ∨
    ∃ i consumer k,
      (s.view n).messages i = some (.unacked (Topology.mainQueue row.channel) consumer, k))

/-- The provider refuses a notification for good. -/
def refused : List Event :=
  (submission sample "id").append [.deliver .email 0, .work 0, .work 0,
    .send 0 (.failure "unknown user" false), .work 0, .work 0, .work 0, .work 0, .work 0]

theorem comes_to_rest_refused : ∃ s, run (System.step shipped) initial (refused.take 12) = some s ∧
    ∃ events t, run (System.step shipped) s events = some t ∧
      (∀ event ∈ events, event.own = true) ∧ t.AtRest shipped := by
  have hsome : (run (System.step shipped) initial (refused.take 12)).isSome = true := by
    decide +kernel
  obtain ⟨s, hrun⟩ := Option.isSome_iff_exists.mp hsome
  have hreach : Reaches (System.step shipped) (fun _ _ => True) initial s :=
    .of_run (fun _ _ _ => trivial) hrun
  exact ⟨s, hrun, (comes_to_rest shipped s hreach).2⟩

end System

end NotificationDelivery
