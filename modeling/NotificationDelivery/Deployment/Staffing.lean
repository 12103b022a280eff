import NotificationDelivery.Deployment.WorkerPool
import NotificationDelivery.Service.Idempotency
import NotificationDelivery.Service.OneHandler

/-!
# The workers and their deliveries

Every delivery belongs to one worker of its channel, each worker has at most one, and a delivery
that runs still holds its message: only the end of the process ends deliveries early, and it
ends them all. So the process is a run of `System` in which no message is put back while its
delivery runs (`Deployed.refines`), and with one worker for each channel no two deliveries of
a notification overlap.
-/

namespace NotificationDelivery

open EventMachine

/-- Each delivery is that of one worker of its channel. -/
structure Staffed (workers : Nat) (handlers : Nat → Option Handler)
    (current : Channel → Nat → Option Nat) : Prop where
  busy : ∀ c k h, current c k = some h → k < workers ∧ ∃ w, handlers h = some w ∧ w.channel = c
  staffed : ∀ h w, handlers h = some w → ∃ k, current w.channel k = some h
  alone : ∀ c k k' h, current c k = some h → current c k' = some h → k = k'

/-- What the workers execute after one of them changes. -/
def assign (current : Channel → Nat → Option Nat) (c : Channel) (k : Nat) (value : Option Nat)
    (c' : Channel) (k' : Nat) : Option Nat :=
  if c' = c ∧ k' = k then value else current c' k'

namespace Staffed

variable {workers : Nat} {handlers : Nat → Option Handler} {current : Channel → Nat → Option Nat}
  {c : Channel} {k h : Nat} {w : Handler}

theorem assign_eq_some {value : Option Nat} {c' : Channel} {k' h : Nat} :
    assign current c k value c' k' = some h ↔
      (c' = c ∧ k' = k ∧ value = some h) ∨ (¬ (c' = c ∧ k' = k) ∧ current c' k' = some h) := by
  unfold assign
  by_cases hself : c' = c ∧ k' = k
  · simp [hself]
  · rw [if_neg hself]
    constructor
    · exact fun hcurrent => .inr ⟨hself, hcurrent⟩
    · rintro (⟨hc, hk, -⟩ | ⟨-, hcurrent⟩)
      · exact absurd ⟨hc, hk⟩ hself
      · exact hcurrent

/-- An idle worker begins a delivery. -/
theorem start (hs : Staffed workers handlers current) (hk : k < workers)
    (hidle : current c k = none) (hfree : handlers h = none) (hchannel : w.channel = c) :
    Staffed workers (Function.update handlers h (some w)) (assign current c k (some h)) where
  busy := by
    intro c' k' h' hcurrent
    rcases assign_eq_some.mp hcurrent with ⟨rfl, rfl, heq⟩ | ⟨_, hcurrent⟩
    · obtain rfl := Option.some.inj heq
      exact ⟨hk, w, Function.update_self _ _ _, hchannel⟩
    · obtain ⟨hk', w', hget, hc'⟩ := hs.busy c' k' h' hcurrent
      have hne : h' ≠ h := by
        rintro rfl
        exact absurd (hfree.symm.trans hget) (by simp)
      exact ⟨hk', w', (Function.update_of_ne hne _ _).trans hget, hc'⟩
  staffed := by
    intro h' w' hget
    rcases Registry.update_eq_some.mp hget with ⟨rfl, heq⟩ | ⟨_, hget⟩
    · obtain rfl := Option.some.inj heq
      exact ⟨k, assign_eq_some.mpr (.inl ⟨hchannel, rfl, rfl⟩)⟩
    · obtain ⟨k', hcurrent⟩ := hs.staffed h' w' hget
      refine ⟨k', assign_eq_some.mpr (.inr ⟨?_, hcurrent⟩)⟩
      rintro ⟨hc', rfl⟩
      rw [hc', hidle] at hcurrent
      exact absurd hcurrent (by simp)
  alone := by
    intro c' k₁ k₂ h' hfirst hsecond
    have hgone : ∀ c k, current c k ≠ some h := by
      intro c k hcurrent
      obtain ⟨_, w', hget, _⟩ := hs.busy c k h hcurrent
      exact absurd (hfree.symm.trans hget) (by simp)
    rcases assign_eq_some.mp hfirst with ⟨_, hk₁, heq₁⟩ | ⟨_, hold₁⟩ <;>
      rcases assign_eq_some.mp hsecond with ⟨_, hk₂, heq₂⟩ | ⟨_, hold₂⟩
    · exact hk₁.trans hk₂.symm
    · exact absurd (hold₂.trans heq₁.symm) (hgone _ _)
    · exact absurd (hold₁.trans heq₂.symm) (hgone _ _)
    · exact hs.alone c' k₁ k₂ h' hold₁ hold₂

/-- A worker goes on with its delivery, or ends it. -/
theorem move (hs : Staffed workers handlers current) (hcurrent : current c k = some h)
    (hget : handlers h = some w) (value : Option Handler)
    (hvalue : ∀ w' ∈ value, w'.channel = w.channel) :
    Staffed workers (Function.update handlers h value)
      (assign current c k (value.map fun _ => h)) where
  busy := by
    intro c' k' h' hcurrent'
    obtain ⟨hk, w₀, hget₀, hchannel⟩ := hs.busy c k h hcurrent
    obtain rfl := Option.some.inj (hget.symm.trans hget₀)
    rcases assign_eq_some.mp hcurrent' with ⟨rfl, rfl, heq⟩ | ⟨hother, hold⟩
    · obtain ⟨w', hw', rfl⟩ := Option.map_eq_some_iff.mp heq
      exact ⟨hk, w', (Function.update_self _ _ _).trans hw', (hvalue w' hw').trans hchannel⟩
    · obtain ⟨hk', w', hget', hc'⟩ := hs.busy c' k' h' hold
      have hne : h' ≠ h := by
        rintro rfl
        obtain rfl := Option.some.inj (hget.symm.trans hget')
        obtain rfl := hchannel.symm.trans hc'
        exact hother ⟨rfl, hs.alone _ k' k h' hold hcurrent⟩
      exact ⟨hk', w', (Function.update_of_ne hne _ _).trans hget', hc'⟩
  staffed := by
    intro h' w' hget'
    obtain ⟨hk, w₀, hget₀, hchannel⟩ := hs.busy c k h hcurrent
    obtain rfl := Option.some.inj (hget.symm.trans hget₀)
    rcases Registry.update_eq_some.mp hget' with ⟨rfl, heq⟩ | ⟨hne, hget'⟩
    · exact ⟨k, assign_eq_some.mpr (.inl ⟨(hvalue w' heq).trans hchannel, rfl, by simp [heq]⟩)⟩
    · obtain ⟨k', hcurrent'⟩ := hs.staffed h' w' hget'
      refine ⟨k', assign_eq_some.mpr (.inr ⟨?_, hcurrent'⟩)⟩
      rintro ⟨hc', rfl⟩
      rw [hc', hcurrent] at hcurrent'
      exact hne (Option.some.inj hcurrent').symm
  alone := by
    intro c' k₁ k₂ h' h₁ h₂
    obtain ⟨hk, w₀, hget₀, hchannel⟩ := hs.busy c k h hcurrent
    have hself : ∀ {c' k'}, assign current c k (value.map fun _ => h) c' k' = some h' →
        current c' k' = some h' := by
      intro c' k' hassign
      rcases assign_eq_some.mp hassign with ⟨rfl, rfl, heq⟩ | ⟨_, hassign⟩
      · obtain ⟨_, _, rfl⟩ := Option.map_eq_some_iff.mp heq
        exact hcurrent
      · exact hassign
    exact hs.alone c' k₁ k₂ h' (hself h₁) (hself h₂)

/-- No delivery is left, and every worker is new. -/
theorem idle (hgone : ∀ h, handlers h = none) : Staffed workers handlers fun _ _ => none where
  busy := by simp
  staffed := by simp [hgone]
  alone := by simp

/-- A channel has at most as many deliveries as workers. -/
theorem card_le (hs : Staffed workers handlers current) (c : Channel) (live : Finset Nat)
    (hlive : ∀ h ∈ live, ∃ w, handlers h = some w ∧ w.channel = c) : live.card ≤ workers := by
  have hsub : live ⊆ (Finset.range workers).image fun k => (current c k).getD 0 := by
    intro h hmem
    obtain ⟨w, hget, rfl⟩ := hlive h hmem
    obtain ⟨k, hcurrent⟩ := hs.staffed h w hget
    refine Finset.mem_image.mpr ⟨k, Finset.mem_range.mpr (hs.busy _ k h hcurrent).1, ?_⟩
    rw [hcurrent, Option.getD_some]
  have hcard := (Finset.card_le_card hsub).trans Finset.card_image_le
  rwa [Finset.card_range] at hcard

end Staffed

namespace Broker

variable {b : Broker} {i : Nat} {m : Message}

theorem get_enqueue (name : String) (envelope : Envelope) (hget : b.get i = some m) :
    (b.enqueue name envelope).get i = some m := by
  have hne : i ≠ b.next := Nat.ne_of_lt (Registry.lt_next hget)
  exact (Function.update_of_ne hne _ _).trans hget

/-- A publish leaves the messages alone that the broker has. -/
theorem get_publish (t : Topology) (exchange key : String) (envelope : Envelope)
    (hget : b.get i = some m) : (b.publish t exchange key envelope).get i = some m := by
  unfold publish
  induction t.route exchange key generalizing b with
  | nil => exact hget
  | cons name rest ih => exact ih (get_enqueue name envelope hget)

end Broker

namespace System

/-- Every delivery still holds its message. -/
def Held (s : System) : Prop :=
  ∀ h w, s.handlers.get h = some w →
    ∃ name envelope, s.broker.get w.deliveryTag = some ⟨.unacked name h, envelope⟩

/-- The consumer of a message that is put back is gone. -/
def Abandoned (s : System) (event : Event) : Prop :=
  ∀ i name h envelope, event = .requeue i →
    s.broker.get i = some ⟨.unacked name h, envelope⟩ → s.handlers.get h = none

variable {env : Env} {s t : System} {event : Event} {h i : Nat} {w : Handler} {m : Message}

/-- The message of a delivery is not one that somebody else touches. -/
theorem Held.tag_ne (hheld : s.Held) (hget : s.handlers.get h = some w)
    (hmessage : s.broker.get i = some m) (hplace : ∀ name, m.place ≠ .unacked name h) :
    w.deliveryTag ≠ i := by
  rintro rfl
  obtain ⟨name, envelope, hunacked⟩ := hheld h w hget
  obtain rfl := Option.some.inj (hmessage.symm.trans hunacked)
  exact hplace name rfl

/-- A worker receives messages from its main queue. -/
theorem deliver_place {c : Channel} (hstep : s.step env (.deliver c i) = some t) :
    ∃ m, s.broker.get i = some m ∧ m.place = .queue (Topology.mainQueue c) := by
  simp only [step, bind, Option.bind_eq_some_iff] at hstep
  obtain ⟨m, hget, hstep⟩ := hstep
  split at hstep
  · rename_i hplace
    exact ⟨m, hget, hplace⟩
  · exact absurd hstep (by simp)

/-- A statement of a delivery keeps what the others hold, and what it holds itself unless it acks.
-/
theorem Held.worked (hheld : s.Held) {db : Database} {broker : Broker} {pc : Option HandlerPc}
    (hget : s.handlers.get h = some w)
    (hworked : w.Worked env.config s.db s.broker h db broker pc) :
    ∀ h' w', (s.handlers.set h (pc.map w.goto)).get h' = some w' →
      ∃ name envelope, broker.get w'.deliveryTag = some ⟨.unacked name h', envelope⟩ := by
  intro h' w' hget'
  have hold : ∃ w₀, s.handlers.get h' = some w₀ ∧ w₀.deliveryTag = w'.deliveryTag := by
    rw [Registry.get_set hget] at hget'
    rcases Registry.update_eq_some.mp hget' with ⟨rfl, heq⟩ | ⟨_, hget'⟩
    · obtain ⟨pc', -, rfl⟩ := Option.map_eq_some_iff.mp heq
      exact ⟨w, hget, rfl⟩
    · exact ⟨w', hget', rfl⟩
  obtain ⟨w₀, hget₀, htag⟩ := hold
  obtain ⟨name, envelope, hmessage⟩ := hheld h' w₀ hget₀
  rw [htag] at hmessage
  cases hworked with
  | publishedRetry | publishedDlq => exact ⟨name, envelope, Broker.get_publish _ _ _ _ hmessage⟩
  | acked =>
      have hne : h' ≠ h := by
        rintro rfl
        rw [Registry.get_set hget, Function.update_self] at hget'
        exact absurd hget' (by simp)
      rcases s.broker.ack_cases h w.deliveryTag with ⟨_, _, hacked, hack⟩ | ⟨_, hack⟩
      · have htags : w'.deliveryTag ≠ w.deliveryTag := by
          intro hsame
          rw [hsame, hacked] at hmessage
          cases hmessage
          exact hne rfl
        rw [hack, Registry.get_set hacked, Function.update_of_ne htags]
        exact ⟨name, envelope, hmessage⟩
      · rw [hack]
        exact ⟨name, envelope, hmessage⟩
  | _ => exact ⟨name, envelope, hmessage⟩

/-- The step lemma. -/
theorem Held.step (hheld : s.Held) (hfree : s.Abandoned event)
    (hstep : s.step env event = some t) : t.Held := by
  have hset : ∀ {i m value}, s.broker.get i = some m → (∀ name h, m.place = .unacked name h →
      s.handlers.get h = none) → ∀ h w, s.handlers.get h = some w →
      ∃ name envelope, (s.broker.set i value).get w.deliveryTag =
        some ⟨.unacked name h, envelope⟩ := by
    intro i m value hmessage hplace h w hget
    have hne : w.deliveryTag ≠ i := hheld.tag_ne hget hmessage fun name hunacked => by
      simp [hplace name h hunacked] at hget
    rw [Registry.get_set hmessage, Function.update_of_ne hne]
    exact hheld h w hget
  cases step_cases hstep with
  | requested | aborted => exact hheld
  | posted p post db broker pc hget hworked =>
      intro h w hw
      obtain ⟨name, envelope, hmessage⟩ := hheld h w hw
      cases hworked with
      | published => exact ⟨name, envelope, Broker.get_publish _ _ _ _ hmessage⟩
      | _ => exact ⟨name, envelope, hmessage⟩
  | delivered c i m w hget hplace hchannel htag =>
      intro h' w' hget'
      rcases Registry.update_eq_some.mp hget' with ⟨rfl, heq⟩ | ⟨_, hget'⟩
      · obtain rfl := Option.some.inj heq
        refine ⟨Topology.mainQueue c, m.envelope, ?_⟩
        show (s.broker.set i _).get _ = _
        rw [Registry.get_set hget, htag, Function.update_self]
      · exact hset hget (by simp [hplace]) h' w' hget'
  | dropped c i m e hget =>
      obtain ⟨m', hget', hplace⟩ := deliver_place hstep
      obtain rfl := Option.some.inj (hget.symm.trans hget')
      exact hset hget (by simp [hplace])
  | worked h w db broker pc hget hworked => exact hheld.worked hget hworked
  | sent h w n outcome hget =>
      intro h' w' hget'
      rw [Registry.get_set hget] at hget'
      rcases Registry.update_eq_some.mp hget' with ⟨rfl, heq⟩ | ⟨_, hget'⟩
      · obtain rfl := Option.some.inj heq
        exact hheld h' w hget
      · exact hheld h' w' hget'
  | crashed h w hget =>
      intro h' w' hget'
      rw [Registry.get_set hget] at hget'
      rcases Registry.update_eq_some.mp hget' with ⟨_, heq⟩ | ⟨_, hget'⟩
      · exact absurd heq (by simp)
      · exact hheld h' w' hget'
  | expired i broker hexpire =>
      obtain ⟨c, k, envelope, hget, rfl⟩ := Broker.expire_cases hexpire
      intro h w hw
      obtain ⟨name, envelope', hmessage⟩ := hset hget (by simp) h w hw
      exact ⟨name, envelope', Broker.get_enqueue _ _ hmessage⟩
  | requeued i broker hrequeue =>
      obtain ⟨name, consumer, envelope, hget, rfl⟩ := Broker.requeue_cases hrequeue
      refine hset hget fun name' h' hplace => ?_
      cases hplace
      exact hfree i name consumer envelope rfl hget

/-- A delivery that holds its message does not overwrite a final status. -/
theorem Held.not_overwrites (hheld : s.Held) : s.overwritesFinal event = false := by
  cases event with
  | work h =>
      cases hget : s.handlers.get h with
      | none => simp [overwritesFinal, hget]
      | some w =>
          obtain ⟨name, envelope, hmessage⟩ := hheld h w hget
          simp [overwritesFinal, hget, putBack, hmessage]
  | _ => rfl

/-- A delivery read the notification of its own channel. -/
def Routed (s : System) : Prop :=
  ∀ h w n, s.handlers.get h = some w → w.pc = .markProcessing n ∨ w.pc = .send n →
    n.channel = w.channel

theorem Routed.set (hrouted : s.Routed) (hget : s.handlers.get h = some w)
    {value : Option Handler}
    (hvalue : ∀ w' ∈ value, ∀ n, w'.pc = .markProcessing n ∨ w'.pc = .send n →
      n.channel = w'.channel) :
    ∀ h' w' n, (s.handlers.set h value).get h' = some w' →
      w'.pc = .markProcessing n ∨ w'.pc = .send n → n.channel = w'.channel := by
  intro h' w' n hget' hpc
  rw [Registry.get_set hget] at hget'
  rcases Registry.update_eq_some.mp hget' with ⟨_, heq⟩ | ⟨_, hget'⟩
  · exact hvalue w' heq n hpc
  · exact hrouted h' w' n hget' hpc

theorem Routed.step (hrouted : s.Routed) {allowed : System → Event → Prop}
    (hreach : Reaches (System.step env) allowed initial s)
    (hstep : s.step env event = some t) : t.Routed := by
  cases step_cases hstep with
  | delivered c i m w hget hplace hchannel htag hbody hpc =>
      intro h' w' n hget' hpc'
      rcases Registry.update_eq_some.mp hget' with ⟨_, heq⟩ | ⟨_, hget'⟩
      · obtain rfl := Option.some.inj heq
        simp [hpc] at hpc'
      · exact hrouted h' w' n hget' hpc'
  | worked h w db broker pc hget hworked =>
      refine hrouted.set hget fun w' hw' n hpc' => ?_
      obtain ⟨pc', rfl, rfl⟩ := Option.map_eq_some_iff.mp hw'
      cases hworked with
      | found row hpc hfind =>
          obtain rfl : row = n := by simpa using hpc'
          obtain ⟨hchannel, -⟩ := (reachable_placed hreach w.notificationId).handler h w
            (view_handlers.mpr ⟨hget, rfl⟩)
          simpa [View.channel, view, hfind] using hchannel
      | markedProcessing row hpc =>
          obtain rfl : row = n := by simpa using hpc'
          exact hrouted h w row hget (.inl hpc)
      | _ => simp at hpc'
  | sent h w row outcome hget =>
      refine hrouted.set hget fun w' hw' n hpc' => ?_
      obtain rfl := Option.some.inj hw'
      cases outcome <;> simp [Handler.afterSend] at hpc'
  | crashed h w hget => exact hrouted.set hget (by simp)
  | _ => exact hrouted

end System

namespace Deployment

/-- What each worker executes. -/
def currents (d : Deployment) (c : Channel) (k : Nat) : Option Nat := (d.workers c k).current

/-- What the process makes of the steps of `System`. `lives` says that the process does not end. -/
structure Calm (config : Config) (lives : Prop) (s : System) (event : Event) : Prop where
  /-- No delivered notification is set to PROCESSING again. -/
  final : s.overwritesFinal event = false
  /-- A message is put back only when its consumer is gone. -/
  abandoned : s.Abandoned event
  /-- A single worker receives nothing while it has a delivery, -/
  single : config.workers ≤ 1 → ∀ n, s.crowds n event = false
  /-- and it has no other delivery when it checks the status. -/
  apart : config.workers ≤ 1 → s.overlaps config event = false
  /-- A delivery dies with the process. -/
  crash : lives → ∀ h, event ≠ .crash h

/-- What holds in every state of the process. -/
structure Deployed (env : Env) (lives : Prop) (d : Deployment) : Prop where
  staffed : Staffed env.config.workers d.system.handlers.get d.currents
  inbox : ∀ c k i, i ∈ (d.workers c k).inbox → k < env.config.workers
  held : d.system.Held
  routed : d.system.Routed
  refines : Reaches (System.step env) (Calm env.config lives) .initial d.system

variable {env : Env} {lives : Prop} {d next : Deployment} {c : Channel} {k h : Nat}
  {worker : WorkerState} {event : DeployedEvent} {s t : System}

theorem currents_set_worker (d : Deployment) (c : Channel) (k : Nat) (worker : WorkerState) :
    (d.setWorker c k worker).currents = assign d.currents c k worker.current := by
  funext c' k'
  unfold currents assign
  split
  · rename_i hself
    obtain ⟨rfl, rfl⟩ := hself
    rw [set_worker_self]
  · rename_i hother
    rw [set_worker_other _ _ hother]

theorem assign_same {current : Channel → Nat → Option Nat} {value : Option Nat}
    (hvalue : current c k = value) : assign current c k value = current := by
  funext c' k'
  unfold assign
  split
  · rename_i hself
    obtain ⟨rfl, rfl⟩ := hself
    exact hvalue.symm
  · rfl

/-- If the only worker of a channel has no delivery, no delivery of the channel runs. -/
theorem Deployed.not_crowds (hd : d.Deployed env lives) (hone : env.config.workers ≤ 1)
    (hk : k < env.config.workers) (hidle : (d.workers c k).current = none) {i : Nat}
    (hstep : d.system.step env (.deliver c i) = some t) (n : String) :
    d.system.crowds n (.deliver c i) = false := by
  cases hcrowds : d.system.crowds n (.deliver c i) with
  | false => rfl
  | true =>
      exfalso
      simp only [System.crowds, Bool.and_eq_true, List.any_eq_true, Option.any_eq_true,
        decide_eq_true_eq] at hcrowds
      obtain ⟨hsome, h, -, w, hget, hid⟩ := hcrowds
      obtain ⟨⟨place, number⟩, hmessage⟩ := Option.isSome_iff_exists.mp hsome
      obtain ⟨m, hm, hplace⟩ := System.deliver_place hstep
      have habout : m.about n = some (place, number) := by
        rw [← hmessage, Broker.about, hm, Option.bind_some]
      have hplaced := System.reachable_placed hd.refines n
      obtain ⟨-, c', hc', hproper⟩ := hplaced.message i place number hmessage
      have hchannel := (hplaced.handler h w (System.view_handlers.mpr ⟨hget, hid⟩)).1
      have hw : w.channel = c' := Option.some.inj (hchannel.symm.trans hc')
      have hc : c' = c := by
        rw [← Message.place_of_about habout, hplace] at hproper
        generalize hmain : Place.queue (Topology.mainQueue c) = main at hproper
        cases hproper <;> simp_all
      obtain ⟨k', hcurrent⟩ := hd.staffed.staffed h w hget
      rw [hw, hc] at hcurrent
      have hk' := (hd.staffed.busy c k' h hcurrent).1
      obtain rfl : k' = k := by omega
      exact absurd (hidle.symm.trans hcurrent) (by simp)

/-- The only worker of a channel has one delivery. -/
theorem Deployed.not_overlaps (hd : d.Deployed env lives) (hone : env.config.workers ≤ 1)
    (action : Event) : d.system.overlaps env.config action = false := by
  cases action with
  | work h =>
      cases hoverlaps : d.system.overlaps env.config (.work h) with
      | false => rfl
      | true =>
          exfalso
          simp only [System.overlaps, Option.any_eq_true, Bool.and_eq_true, List.any_eq_true,
            decide_eq_true_eq] at hoverlaps
          obtain ⟨w, hget, ⟨hpc, -⟩, h', -, w', hget', hid, hengaged⟩ := hoverlaps
          have hchannel := ((System.reachable_placed hd.refines w.notificationId).handler h w
            (System.view_handlers.mpr ⟨hget, rfl⟩)).1
          have hchannel' := ((System.reachable_placed hd.refines w.notificationId).handler h' w'
            (System.view_handlers.mpr ⟨hget', hid⟩)).1
          have hsame : w'.channel = w.channel := Option.some.inj (hchannel'.symm.trans hchannel)
          obtain ⟨k, hcurrent⟩ := hd.staffed.staffed h w hget
          obtain ⟨k', hcurrent'⟩ := hd.staffed.staffed h' w' hget'
          have hk := (hd.staffed.busy _ k h hcurrent).1
          have hk' := (hd.staffed.busy _ k' h' hcurrent').1
          obtain rfl : k' = k := by omega
          rw [hsame, hcurrent] at hcurrent'
          obtain rfl := Option.some.inj hcurrent'
          obtain rfl := Option.some.inj (hget.symm.trans hget')
          simp [Handler.engaged, hpc] at hengaged
  | _ => rfl

/-- One step of the service under a worker. -/
theorem Deployed.advance (hd : d.Deployed env lives) {action : Event}
    (hcalm : Calm env.config lives d.system action) (hstep : d.system.step env action = some t) :
    t.Held ∧ t.Routed ∧ Reaches (System.step env) (Calm env.config lives) .initial t :=
  ⟨hd.held.step hcalm.abandoned hstep, hd.routed.step hd.refines hstep, hd.refines.tail hcalm hstep⟩

/-- What a worker does with its delivery is calm. -/
theorem Deployed.calm (hd : d.Deployed env lives) {action : Event}
    (hrequeue : ∀ i, action ≠ .requeue i) (hdeliver : ∀ c i, action ≠ .deliver c i)
    (hcrash : ∀ h, action ≠ .crash h) : Calm env.config lives d.system action where
  final := hd.held.not_overwrites
  abandoned := fun i _ _ _ h => absurd h (hrequeue i)
  single := by
    intro _ n
    cases action with
    | deliver c i => exact absurd rfl (hdeliver c i)
    | _ => rfl
  apart := fun hone => hd.not_overlaps hone action
  crash := fun _ => hcrash

/-- The router call of a delivery ends. -/
theorem Deployed.send (hd : d.Deployed env lives) {outcome : ProviderOutcome}
    (hstep : d.system.step env (.send h outcome) = some t) :
    Staffed env.config.workers t.handlers.get d.currents := by
  cases System.step_cases hstep with
  | sent h w n outcome hget =>
      obtain ⟨k, hcurrent⟩ := hd.staffed.staffed h w hget
      have hmove := hd.staffed.move hcurrent hget (some (w.goto (Handler.afterSend outcome)))
        (by simp)
      rw [Option.map_some, assign_same hcurrent] at hmove
      show Staffed _ (d.system.handlers.set h _).get _
      rw [Registry.get_set hget]
      exact hmove

/-- The end of a process is calm. -/
theorem calm_lost (config : Config) (s : System) : ∀ event ∈ s.lost, ∀ state,
    Calm config False state event := by
  intro event hmem state
  have hkind : (∃ p, event = .abort p) ∨ ∃ h, event = .crash h := by
    rcases List.mem_append.mp hmem with hmem | hmem
    · obtain ⟨p, -, rfl⟩ := List.mem_map.mp hmem
      exact .inl ⟨p, rfl⟩
    · obtain ⟨h, -, rfl⟩ := List.mem_map.mp hmem
      exact .inr ⟨h, rfl⟩
  rcases hkind with ⟨p, rfl⟩ | ⟨h, rfl⟩
  · exact ⟨rfl, by simp [System.Abandoned], fun _ _ => rfl, fun _ => rfl, False.elim⟩
  · exact ⟨rfl, by simp [System.Abandoned], fun _ _ => rfl, fun _ => rfl, False.elim⟩

/-- What happens outside the workers is calm and leaves the deliveries alone. -/
theorem Deployed.outside (hd : d.Deployed env lives) {action : Event}
    (hadmits : d.system.admitsOutside action = true)
    (hstep : d.system.step env action = some t) :
    Calm env.config lives d.system action ∧ t.handlers = d.system.handlers := by
  have hcrowds : ∀ n, d.system.crowds n action = false := by
    intro n
    cases action <;> first | rfl | exact absurd hadmits (by simp [System.admitsOutside])
  have hfree : d.system.Abandoned action := by
    rintro i name h envelope rfl hget
    simpa [System.admitsOutside, hget] using hadmits
  have hcrash : ∀ h, action ≠ .crash h := by
    rintro h rfl
    exact absurd hadmits (by simp [System.admitsOutside])
  refine ⟨⟨hd.held.not_overwrites, hfree, fun _ => hcrowds,
    fun hone => hd.not_overlaps hone action, fun _ => hcrash⟩, ?_⟩
  cases System.step_cases hstep with
  | requested | posted | aborted | expired | requeued => rfl
  | delivered | dropped | worked | sent | crashed =>
      exact absurd hadmits (by simp [System.admitsOutside])

/-- A worker receives a message. -/
theorem Deployed.taken (hd : d.Deployed env lives) (hk : k < env.config.workers)
    (hidle : (d.workers c k).current = none) {i : Nat}
    (hstep : d.system.step env (.deliver c i) = some t) :
    Staffed env.config.workers t.handlers.get
      (assign d.currents c k (still t d.system.handlers.next)) := by
  cases System.step_cases hstep with
  | delivered _ _ m w hget hplace hchannel =>
      have hstill : still { d.system with
          broker := d.system.broker.deliver i m (Topology.mainQueue c) d.system.handlers.next
          handlers := d.system.handlers.insert w } d.system.handlers.next =
            some d.system.handlers.next := by
        simp [still]
      rw [hstill]
      exact hd.staffed.start hk hidle (Registry.get_next _) hchannel
  | dropped _ _ m e hget =>
      have hstill : still { d.system with broker := d.system.broker.set i none }
          d.system.handlers.next = none := by
        simp [still]
      rw [hstill, assign_same (show d.currents c k = none from hidle)]
      exact hd.staffed

/-- A worker executes a statement of its delivery. -/
theorem Deployed.worked (hd : d.Deployed env lives) (hcurrent : (d.workers c k).current = some h)
    (hstep : d.system.step env (.work h) = some t) :
    Staffed env.config.workers t.handlers.get (assign d.currents c k (still t h)) := by
  cases System.step_cases hstep with
  | worked _ w db broker pc hget hworked =>
      have hmove := hd.staffed.move hcurrent hget (pc.map w.goto) (by simp)
      have hafter : (d.system.handlers.set h (pc.map w.goto)).get =
          Function.update d.system.handlers.get h (pc.map w.goto) := Registry.get_set hget _
      have hstill : still { d.system with
          db, broker, handlers := d.system.handlers.set h (pc.map w.goto) } h =
            (pc.map w.goto).map fun _ => h := by
        show (if ((d.system.handlers.set h (pc.map w.goto)).get h).isSome then _ else _) = _
        rw [hafter, Function.update_self]
        cases pc <;> rfl
      rw [hstill]
      show Staffed _ (d.system.handlers.set h _).get _
      rw [hafter]
      exact hmove

/-- One worker changes, and the service with it. -/
theorem Deployed.set_worker (hd : d.Deployed env lives) {e : Deployment}
    (hworkers : e.workers = d.workers)
    (hstaffed : Staffed env.config.workers e.system.handlers.get
      (assign d.currents c k worker.current))
    (hinbox : ∀ i ∈ worker.inbox, k < env.config.workers)
    (hsystem : e.system.Held ∧ e.system.Routed ∧
      Reaches (System.step env) (Calm env.config lives) .initial e.system) :
    (e.setWorker c k worker).Deployed env lives where
  staffed := by
    have hsame : e.currents = d.currents := by
      unfold currents
      rw [hworkers]
    rw [currents_set_worker, hsame]
    exact hstaffed
  inbox := by
    intro c' k' i hmem
    by_cases hself : c' = c ∧ k' = k
    · obtain ⟨rfl, rfl⟩ := hself
      rw [set_worker_self] at hmem
      exact hinbox i hmem
    · rw [set_worker_other _ _ hself, hworkers] at hmem
      exact hd.inbox c' k' i hmem
  held := hsystem.1
  routed := hsystem.2.1
  refines := hsystem.2.2

/-- A worker changes that goes on with what it executes. -/
theorem staffed_same {workers : Nat} {handlers : Nat → Option Handler}
    (hstaffed : Staffed workers handlers d.currents) :
    Staffed workers handlers (assign d.currents c k (d.workers c k).current) := by
  rw [assign_same (show d.currents c k = (d.workers c k).current from rfl)]
  exact hstaffed

/-- The step lemma. -/
theorem Deployed.step (hd : d.Deployed env lives) (hlives : lives → ∀ now, event ≠ .kill now)
    (hstep : d.step env event = some next) : next.Deployed env lives := by
  have hsend : ∀ {h : Nat} {outcome : ProviderOutcome} {t : System},
      d.system.step env (.send h outcome) = some t → t.Held ∧ t.Routed ∧
        Reaches (System.step env) (Calm env.config lives) .initial t :=
    fun hsystem => hd.advance (hd.calm (by simp) (by simp) (by simp)) hsystem
  cases step_cases hstep with
  | outside action system hadmits hsystem =>
      obtain ⟨hcalm, hhandlers⟩ := hd.outside hadmits hsystem
      obtain ⟨hheld, hrouted, hreach⟩ := hd.advance hcalm hsystem
      exact ⟨hhandlers ▸ hd.staffed, hd.inbox, hheld, hrouted, hreach⟩
  | pushed c k i hpush =>
      have hk : k < env.config.workers := by
        simp only [pushable, Bool.and_eq_true, decide_eq_true_eq] at hpush
        exact hpush.1.1.1
      exact hd.set_worker rfl (staffed_same hd.staffed) (fun _ _ => hk)
        ⟨hd.held, hd.routed, hd.refines⟩
  | taken c k i inbox system hcons hidle hsystem =>
      have hk : k < env.config.workers := hd.inbox c k i (by simp [hcons])
      have hcalm : Calm env.config lives d.system (.deliver c i) :=
        ⟨rfl, by simp [System.Abandoned], fun hone n => hd.not_crowds hone hk hidle hsystem n,
          fun _ => rfl, fun _ => by simp⟩
      exact hd.set_worker rfl (hd.taken hk hidle hsystem) (fun _ _ => hk)
        (hd.advance hcalm hsystem)
  | worked c k h system hcurrent hsystem =>
      exact hd.set_worker rfl (hd.worked hcurrent hsystem) (hd.inbox c k)
        (hd.advance (hd.calm (by simp) (by simp) (by simp)) hsystem)
  | rejected c k h n now router system hsending hrouter hidle hsystem =>
      obtain ⟨hheld, hrouted, hreach⟩ := hsend hsystem
      exact ⟨hd.send hsystem, hd.inbox, hheld, hrouted, hreach⟩
  | admitted => exact ⟨hd.staffed, hd.inbox, hd.held, hd.routed, hd.refines⟩
  | threw c k h n outcome router system hsending hrouter hidle hsystem =>
      obtain ⟨hheld, hrouted, hreach⟩ := hsend hsystem
      exact ⟨hd.send hsystem, hd.inbox, hheld, hrouted, hreach⟩
  | returned c k h n outcome router =>
      exact hd.set_worker rfl (staffed_same hd.staffed) (hd.inbox c k)
        ⟨hd.held, hd.routed, hd.refines⟩
  | reported c k h n now router outcome system hsending hrouter hresult hsystem =>
      exact hd.set_worker rfl (staffed_same (hd.send hsystem)) (hd.inbox c k) (hsend hsystem)
  | killed now system hlost =>
      obtain ⟨posts, handlers, hrun, hgone, -⟩ := System.run_lost env d.system
      have hcalm : ∀ event ∈ d.system.lost, ∀ state, Calm env.config lives state event :=
        fun event hmem state => { calm_lost env.config d.system event hmem state with
          crash := fun hliving => absurd rfl (hlives hliving now) }
      have hreach := hd.refines.trans (Reaches.of_run hcalm hlost)
      obtain rfl := Option.some.inj (hrun.symm.trans hlost)
      exact ⟨Staffed.idle hgone, by simp [initial], fun h w hget => absurd hget (by simp [hgone]),
        fun h w n hget => absurd hget (by simp [hgone]), hreach⟩

theorem deployed_initial (env : Env) (lives : Prop) (start : Int) :
    (initial env.config start).Deployed env lives where
  staffed := Staffed.idle fun _ => rfl
  inbox := by simp [initial]
  held := by simp [System.Held, initial, System.initial]
  routed := by simp [System.Routed, initial, System.initial]
  refines := .refl _

/-- The run lemma. -/
theorem run_deployed (lives : Prop) {start : Int} {events : List DeployedEvent}
    (hlives : lives → ∀ now, .kill now ∉ events)
    (hrun : run (Deployment.step env) (initial env.config start) events = some d) :
    d.Deployed env lives := by
  have hreach : Reaches (Deployment.step env) (fun _ event => lives → ∀ now, event ≠ .kill now)
      (initial env.config start) d := by
    refine Reaches.of_run (fun event hmem _ hliving now heq => ?_) hrun
    exact hlives hliving now (heq ▸ hmem)
  exact hreach.invariant (fun _ _ _ hd hallowed hstep => Deployed.step hd hallowed hstep)
    (deployed_initial env lives start)

end Deployment

end NotificationDelivery
