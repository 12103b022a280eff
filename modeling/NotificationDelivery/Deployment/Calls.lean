import NotificationDelivery.Breaker.Outage
import NotificationDelivery.Deployment.Staffing
import NotificationDelivery.Service.AtRest

/-!
# The workers and their breakers

The calls in `ProviderRouter::send` are those of the workers whose delivery is at the router
call. So in one life of the process the breaker of a channel sees a run of the router by
`workersPerChannel` threads, and what holds of every such run holds in the process. No worker
waits for another one: whatever the others are doing, it can finish its delivery alone.
-/

namespace NotificationDelivery

open EventMachine

/-- What the process does to the breaker of a channel. -/
def DeployedEvent.routed (c : Channel) : DeployedEvent → Option RouterEvent
  | .allowRequest c' k now => if c' = c then some (.allowRequest k now) else none
  | .finish c' k outcome => if c' = c then some (.finish k outcome) else none
  | .report c' k now => if c' = c then some (.report k now) else none
  | .outside _ | .push _ _ _ | .take _ _ | .work _ _ | .kill _ => none

/-- A worker has one delivery of one channel. -/
theorem Staffed.same_worker {workers : Nat} {handlers : Nat → Option Handler}
    {current : Channel → Nat → Option Nat} {c c' : Channel} {k k' h : Nat}
    (hs : Staffed workers handlers current) (hcurrent : current c k = some h)
    (hcurrent' : current c' k' = some h) : c' = c ∧ k' = k := by
  obtain ⟨-, w, hget, hc⟩ := hs.busy c k h hcurrent
  obtain ⟨-, w', hget', hc'⟩ := hs.busy c' k' h hcurrent'
  obtain rfl := Option.some.inj (hget.symm.trans hget')
  obtain rfl : c' = c := hc'.symm.trans hc
  exact ⟨rfl, hs.alone _ k' k h hcurrent' hcurrent⟩

namespace System

variable {env : Env} {s t : System} {h h' : Nat} {outcome : ProviderOutcome}

/-- A statement of a delivery leaves the other deliveries alone. -/
theorem work_keeps (hstep : s.step env (.work h) = some t) (hne : h' ≠ h) :
    t.handlers.get h' = s.handlers.get h' := by
  cases step_cases hstep with
  | worked _ w db broker pc hget =>
      show (s.handlers.set h _).get h' = _
      rw [Registry.get_set hget, Function.update_of_ne hne]

/-- The end of a router call leaves the other deliveries alone. -/
theorem send_keeps (hstep : s.step env (.send h outcome) = some t) (hne : h' ≠ h) :
    t.handlers.get h' = s.handlers.get h' := by
  cases step_cases hstep with
  | sent _ w n _ hget =>
      show (s.handlers.set h _).get h' = _
      rw [Registry.get_set hget, Function.update_of_ne hne]

/-- A new delivery leaves the other ones alone. -/
theorem deliver_keeps {c : Channel} {i : Nat} (hstep : s.step env (.deliver c i) = some t)
    (hne : h' ≠ s.handlers.next) : t.handlers.get h' = s.handlers.get h' := by
  cases step_cases hstep with
  | delivered => exact Function.update_of_ne hne _ _
  | dropped => rfl

/-- A delivery at the router call executes no statement. -/
theorem work_not_sending {w : Handler} {n : Notification} (hget : s.handlers.get h = some w)
    (hpc : w.pc = .send n) : s.step env (.work h) = none := by
  simp [step, hget, Handler.work, hpc]

end System

namespace Deployment

/-- A worker in `send` is at the router call of its delivery, and an outcome that it has to report
is the one that it keeps. -/
structure CallHeld (d : Deployment) (c : Channel) (k : Nat) : Prop where
  sending : (d.routers c).calls k ≠ .idle → (d.sending c k).isSome = true
  result : ∀ epoch success, (d.routers c).calls k = .reporting epoch success →
    ∃ outcome, (d.workers c k).result = some outcome ∧ outcome.isResult = success

variable {env : Env} {lives : Prop} {d e next : Deployment} {c : Channel} {k h : Nat}
  {n : Notification} {event : DeployedEvent} {router : RouterState} {call : RouterEvent}

/-- A worker that goes on with the same delivery is at the same statement if the delivery is. -/
theorem sending_congr (hcurrent : (e.workers c k).current = (d.workers c k).current)
    (hget : ∀ h, (d.workers c k).current = some h →
      e.system.handlers.get h = d.system.handlers.get h) : e.sending c k = d.sending c k := by
  unfold sending
  rw [hcurrent]
  cases hcase : (d.workers c k).current with
  | none => rfl
  | some h =>
      simp only [bind, Option.bind_some]
      rw [hget h hcase]

namespace CallHeld

theorem of_idle (hidle : (d.routers c).calls k = .idle) : d.CallHeld c k where
  sending := fun hbusy => absurd hidle hbusy
  result := fun epoch success hcall => absurd (hidle.symm.trans hcall) (by simp)

theorem congr (hheld : d.CallHeld c k) (hcalls : (e.routers c).calls k = (d.routers c).calls k)
    (hresult : (e.workers c k).result = (d.workers c k).result)
    (hsending : e.sending c k = d.sending c k) : e.CallHeld c k where
  sending := by simpa only [hcalls, hsending] using hheld.sending
  result := by simpa only [hcalls, hresult] using hheld.result

/-- A worker that is not at the router call is outside `send`. -/
theorem idle (hheld : d.CallHeld c k) (hsending : d.sending c k = none) :
    (d.routers c).calls k = .idle := by
  by_contra hbusy
  have hsome := hheld.sending hbusy
  simp [hsending] at hsome

end CallHeld

/-- A worker at the router call is one of the workers of the channel, and the breaker that it asks
is that of its channel. -/
theorem Deployed.at_router (hd : d.Deployed env lives) (hsending : d.sending c k = some (h, n)) :
    k < env.config.workers ∧ n.channel = c := by
  obtain ⟨w, hcurrent, hget, hpc⟩ := sending_eq_some.mp hsending
  obtain ⟨hk, w', hget', hchannel⟩ := hd.staffed.busy c k h hcurrent
  obtain rfl := Option.some.inj (hget.symm.trans hget')
  exact ⟨hk, (hd.routed h w n hget (.inr hpc)).trans hchannel⟩

/-- A step of one worker in a router leaves the calls of the other workers alone. -/
theorem set_router_calls (hrouter : (d.routers c).step call = some router) {c' : Channel} {k' : Nat}
    (hother : ¬ (c' = c ∧ k' = call.thread)) :
    ((d.setRouter c router).routers c').calls k' = (d.routers c').calls k' := by
  by_cases hc : c' = c
  · subst hc
    have hk : k' ≠ call.thread := fun hk => hother ⟨rfl, hk⟩
    show (Function.update d.routers c' router c').calls k' = _
    rw [Function.update_self]
    exact RouterState.step_calls_other hrouter hk
  · show (Function.update d.routers c router c').calls k' = _
    rw [Function.update_of_ne hc]

@[simp] theorem set_router_self : (d.setRouter c router).routers c = router := by
  simp [setRouter]

/-- The other deliveries stay where they are when the delivery of a worker moves. -/
theorem Deployed.sending_other (hd : d.Deployed env lives)
    (hcurrent : (d.workers c k).current = some h)
    (hkeeps : ∀ h', h' ≠ h → e.system.handlers.get h' = d.system.handlers.get h') {c' : Channel}
    {k' : Nat} (hother : ¬ (c' = c ∧ k' = k))
    (hsame : (e.workers c' k').current = (d.workers c' k').current) :
    e.sending c' k' = d.sending c' k' := by
  refine sending_congr hsame fun h' hcurrent' => hkeeps h' ?_
  rintro rfl
  exact hother (hd.staffed.same_worker hcurrent hcurrent')

namespace CallHeld

/-- One worker changes, and the others keep their calls. -/
theorem set_worker {worker : WorkerState}
    (hother : ∀ c' k', ¬ (c' = c ∧ k' = k) → e.CallHeld c' k')
    (hself : (e.setWorker c k worker).CallHeld c k) (c' : Channel) (k' : Nat) :
    (e.setWorker c k worker).CallHeld c' k' := by
  by_cases hsame : c' = c ∧ k' = k
  · obtain ⟨rfl, rfl⟩ := hsame
    exact hself
  · have hworker := set_worker_other e worker hsame
    exact (hother c' k' hsame).congr rfl (congrArg _ hworker)
      (sending_congr (congrArg _ hworker) fun _ _ => rfl)

/-- A worker leaves `send`. -/
theorem ended (hheld : ∀ c k, d.CallHeld c k) (hd : d.Deployed env lives) {system : System}
    {outcome : ProviderOutcome} (hsending : d.sending c call.thread = some (h, n))
    (hrouter : (d.routers c).step call = some router) (hidle : router.calls call.thread = .idle)
    (hsystem : d.system.step env (.send h outcome) = some system) (c' : Channel) (k' : Nat) :
    ({ d with system }.setRouter c router).CallHeld c' k' := by
  by_cases hself : c' = c ∧ k' = call.thread
  · obtain ⟨rfl, rfl⟩ := hself
    refine of_idle ?_
    rw [set_router_self]
    exact hidle
  · obtain ⟨w, hcurrent, -⟩ := sending_eq_some.mp hsending
    exact (hheld c' k').congr (set_router_calls hrouter hself) rfl
      (hd.sending_other hcurrent (fun _ => System.send_keeps hsystem) hself rfl)

/-- The step lemma. -/
theorem step (hheld : ∀ c k, d.CallHeld c k) (hd : d.Deployed env lives)
    (hstep : d.step env event = some next) (c' : Channel) (k' : Nat) : next.CallHeld c' k' := by
  cases step_cases hstep with
  | outside action system hadmits hsystem =>
      obtain ⟨-, hhandlers⟩ := hd.outside hadmits hsystem
      exact (hheld c' k').congr rfl rfl (sending_congr rfl fun _ _ => by rw [hhandlers])
  | pushed c k i hpush =>
      refine set_worker (fun c' k' _ => hheld c' k') ((hheld c k).congr rfl ?_ ?_) c' k'
      · rw [set_worker_self]
      · exact sending_congr (by rw [set_worker_self]) fun _ _ => rfl
  | taken c k i inbox system hcons hidle hsystem =>
      refine set_worker (fun c' k' _ => ?_) (of_idle ?_) c' k'
      · refine (hheld c' k').congr rfl rfl (sending_congr rfl fun h hcurrent => ?_)
        obtain ⟨-, w, hget, -⟩ := hd.staffed.busy c' k' h hcurrent
        refine System.deliver_keeps hsystem ?_
        rintro rfl
        exact absurd hget (by simp)
      · refine (hheld c k).idle ?_
        simp [Deployment.sending, hidle]
  | worked c k h system hcurrent hsystem =>
      refine set_worker (fun c' k' hother => ?_) (of_idle ?_) c' k'
      · exact (hheld c' k').congr rfl rfl
          (hd.sending_other hcurrent (fun _ => System.work_keeps hsystem) hother rfl)
      · refine (hheld c k).idle (Option.eq_none_iff_forall_ne_some.mpr fun call hsending => ?_)
        obtain ⟨w, hcurrent', hget, hpc⟩ := sending_eq_some.mp hsending
        obtain rfl := Option.some.inj (hcurrent.symm.trans hcurrent')
        rw [System.work_not_sending hget hpc] at hsystem
        exact absurd hsystem (by simp)
  | rejected c k h n now router system hsending hrouter hidle hsystem =>
      obtain ⟨-, rfl⟩ := hd.at_router hsending
      exact ended hheld hd hsending hrouter hidle hsystem c' k'
  | admitted c k h n now router hsending hrouter hbusy =>
      obtain ⟨-, rfl⟩ := hd.at_router hsending
      by_cases hself : c' = n.channel ∧ k' = k
      · obtain ⟨rfl, rfl⟩ := hself
        refine ⟨fun _ => ?_, fun epoch success hcall => ?_⟩
        · exact Option.isSome_iff_exists.mpr ⟨_, hsending⟩
        · rw [set_router_self] at hcall
          cases RouterState.step_cases hrouter with
          | admitted => exact absurd hcall (by simp)
          | rejected _ _ hidle => exact absurd hidle hbusy
      · exact (hheld c' k').congr (set_router_calls hrouter hself) rfl rfl
  | threw c k h n outcome router system hsending hrouter hidle hsystem =>
      obtain ⟨-, rfl⟩ := hd.at_router hsending
      exact ended hheld hd hsending hrouter hidle hsystem c' k'
  | returned c k h n outcome router hsending hrouter hbusy =>
      obtain ⟨-, rfl⟩ := hd.at_router hsending
      refine set_worker (fun c' k' hother => ?_) ⟨fun _ => ?_, fun epoch success hcall => ?_⟩ c' k'
      · exact (hheld c' k').congr (set_router_calls hrouter hother) rfl rfl
      · refine Option.isSome_iff_exists.mpr ⟨(h, n), ?_⟩
        rw [← hsending]
        exact sending_congr (by rw [set_worker_self]) fun _ _ => rfl
      · rw [set_worker_self]
        refine ⟨outcome, rfl, ?_⟩
        rw [set_worker_routers, set_router_self] at hcall
        cases RouterState.step_cases hrouter with
        | returned | threwTransient => simp_all [ProviderOutcome.isResult]
        | threwPermanent => exact absurd hcall (by simp)
  | reported c k h n now router outcome system hsending hrouter hresult hsystem =>
      obtain ⟨-, rfl⟩ := hd.at_router hsending
      have hidle : router.calls k = .idle := by
        cases RouterState.step_cases hrouter <;> exact RouterState.set_call_same _
      have hended := ended hheld hd hsending hrouter hidle hsystem
      refine set_worker (fun c' k' _ => hended c' k') (of_idle ?_) c' k'
      rw [set_worker_routers, set_router_self]
      exact hidle
  | killed now system => exact of_idle rfl

end CallHeld

/-- What a step of the process does to the breaker of a channel. -/
def RouterMoves (workers : Nat) (c : Channel) (d : Deployment) (event : DeployedEvent)
    (next : Deployment) : Prop :=
  (event.routed c = none ∧ next.routers c = d.routers c) ∨
    ∃ call, event.routed c = some call ∧ call.thread < workers ∧
      (d.routers c).step call = some (next.routers c)

/-- A worker at the router call takes a step in `send`. -/
theorem router_moves {c' : Channel} (hd : d.Deployed env lives)
    (hsending : d.sending c' call.thread = some (h, n))
    (hrouter : (d.routers c').step call = some router)
    (hrouted : event.routed c = if c' = c then some call else none)
    (hnext : next.routers = (d.setRouter c' router).routers) :
    RouterMoves env.config.workers c d event next := by
  by_cases hc : c' = c
  · subst hc
    refine .inr ⟨call, by rw [hrouted, if_pos rfl], (hd.at_router hsending).1, ?_⟩
    rw [hnext, set_router_self]
    exact hrouter
  · refine .inl ⟨by rw [hrouted, if_neg hc], ?_⟩
    rw [hnext]
    exact Function.update_of_ne (fun h => hc h.symm) _ _

/-- The step lemma: while the process lives, the breaker of a channel takes the steps of the router,
each by one of the workers of the channel. -/
theorem routers_step (hd : d.Deployed env lives) (hlive : ∀ now, event ≠ .kill now)
    (hstep : d.step env event = some next) (c : Channel) :
    RouterMoves env.config.workers c d event next := by
  cases step_cases hstep with
  | outside | pushed | taken | worked => exact .inl ⟨rfl, rfl⟩
  | rejected c' k h n now router system hsending hrouter =>
      obtain ⟨-, rfl⟩ := hd.at_router hsending
      exact router_moves hd hsending hrouter rfl rfl
  | admitted c' k h n now router hsending hrouter =>
      obtain ⟨-, rfl⟩ := hd.at_router hsending
      exact router_moves hd hsending hrouter rfl rfl
  | threw c' k h n outcome router system hsending hrouter =>
      obtain ⟨-, rfl⟩ := hd.at_router hsending
      exact router_moves hd hsending hrouter rfl rfl
  | returned c' k h n outcome router hsending hrouter =>
      obtain ⟨-, rfl⟩ := hd.at_router hsending
      exact router_moves hd hsending hrouter rfl rfl
  | reported c' k h n now router outcome system hsending hrouter =>
      obtain ⟨-, rfl⟩ := hd.at_router hsending
      exact router_moves hd hsending hrouter rfl rfl
  | killed now => exact absurd rfl (hlive now)

/-- The run lemma: the breaker of a channel sees a run of the router by the workers of the
channel. -/
theorem run_routers {events : List DeployedEvent} (hd : d.Deployed env lives)
    (hlive : ∀ now, .kill now ∉ events)
    (hrun : run (Deployment.step env) d events = some next) (c : Channel) :
    run RouterState.step (d.routers c) (events.filterMap (DeployedEvent.routed c)) =
      some (next.routers c) ∧
    ∀ call ∈ events.filterMap (DeployedEvent.routed c), call.thread < env.config.workers := by
  induction events generalizing d with
  | nil =>
      obtain rfl := Option.some.inj hrun
      exact ⟨rfl, by simp⟩
  | cons event rest ih =>
      simp only [run_cons, bind, Option.bind_eq_some_iff] at hrun
      obtain ⟨middle, hstep, hrest⟩ := hrun
      have hevent : ∀ now, event ≠ .kill now := fun now heq => hlive now (by simp [heq])
      obtain ⟨hlater, hthreads⟩ := ih (hd.step (fun _ => hevent) hstep)
        (fun now hmem => hlive now (by simp [hmem])) hrest
      rcases routers_step hd hevent hstep c with ⟨hnone, hsame⟩ | ⟨call, hcall, hthread, hmove⟩
      · rw [List.filterMap_cons_none hnone, ← hsame]
        exact ⟨hlater, hthreads⟩
      · rw [List.filterMap_cons_some hcall]
        refine ⟨?_, ?_⟩
        · rw [run_cons, hmove]
          exact hlater
        · intro later hmem
          rcases List.mem_cons.mp hmem with rfl | hmem
          · exact hthread
          · exact hthreads later hmem

/-- The provider of a channel is down. Whatever the requests, the other channels and the broker
do: until the open duration has passed since the failure that completes the threshold is reported,
the process calls the provider less often than the threshold and the workers of the channel add up
to. -/
theorem outage_contained (env : Env) (start : Int) (events : List DeployedEvent) (d : Deployment)
    (hlive : ∀ now, .kill now ∉ events)
    (hrun : run (Deployment.step env) (initial env.config start) events = some d) (c : Channel)
    (hdown : ∀ k outcome, .finish c k outcome ∈ events → ∃ what, outcome = .failure what true)
    (report : Report)
    (hreport : ((newRouters env.config start c).reports
        (events.filterMap (DeployedEvent.routed c)))[
          RouterState.period env.config.cbFailureThreshold - 1]? = some report) :
    ((newRouters env.config start c).providerCalls
      (events.filterMap (DeployedEvent.routed c))).countP
        (· < report.time + env.config.cbOpenDurationMs) ≤
      RouterState.period env.config.cbFailureThreshold + env.config.workers - 1 := by
  have hd := deployed_initial env False start
  obtain ⟨hrouter, hthreads⟩ := run_routers hd hlive hrun c
  have hfails : ∀ call ∈ events.filterMap (DeployedEvent.routed c),
      RouterState.FailsTransiently env.config.workers call := by
    intro call hmem
    refine ⟨hthreads call hmem, fun thread outcome heq => ?_⟩
    obtain ⟨event, hevent, hrouted⟩ := List.mem_filterMap.mp hmem
    subst heq
    cases event with
    | finish c' k outcome' =>
        simp only [DeployedEvent.routed] at hrouted
        split at hrouted
        · rename_i hc
          cases hrouted
          exact hdown thread outcome (hc ▸ hevent)
        · exact absurd hrouted (by simp)
    | allowRequest | report => simp [DeployedEvent.routed] at hrouted
    | outside | push | take | work | kill => exact absurd hrouted (by simp [DeployedEvent.routed])
  obtain ⟨-, hcounting | ⟨first, hfirst, htripped⟩⟩ :=
    RouterState.outage_run env.config.cbFailureThreshold env.config.cbOpenDurationMs start
      env.config.workers hfails hrouter
  · obtain ⟨hlt, -⟩ := List.getElem?_eq_some_iff.mp hreport
    have hbelow : ((newRouters env.config start c).reports
        (events.filterMap (DeployedEvent.routed c))).length <
          RouterState.period env.config.cbFailureThreshold := hcounting.below
    omega
  · obtain rfl := Option.some.inj (hfirst.symm.trans hreport)
    exact htripped.starts

def twoWorkers : Env :=
  ⟨{ workersPerChannel := 2, cbFailureThreshold := 1 }, fun key => key⟩

/-- Two workers call the provider before the first of them reports its failure. -/
def timedOut : List DeployedEvent :=
  ((System.submission System.sample "id").map DeployedEvent.outside).append
    ((.outside (.request { System.sample with idempotencyKey := "order-124-welcome" } "id'") ::
      List.replicate 6 (.outside (.post 1))).append
    [.push .email 0 0, .push .email 1 1, .take .email 0, .take .email 1, .work .email 0,
      .work .email 1, .work .email 0, .work .email 1, .allowRequest .email 0 5,
      .allowRequest .email 1 5, .finish .email 1 (.failure "timed out" true), .report .email 1 6,
      .finish .email 0 (.failure "timed out" true), .report .email 0 7])

/-- The provider is called as often as the bound allows. -/
theorem outage_contained_timed_out :
    (run (Deployment.step twoWorkers) (initial twoWorkers.config 0) timedOut).isSome = true ∧
      ((newRouters twoWorkers.config 0 .email).providerCalls
        (timedOut.filterMap (DeployedEvent.routed .email))).length = 2 ∧
      ((newRouters twoWorkers.config 0 .email).providerCalls
        (timedOut.filterMap (DeployedEvent.routed .email))).countP (· < 6 + 30000) ≤ 2 := by
  have hsome : (run (Deployment.step twoWorkers) (initial twoWorkers.config 0)
      timedOut).isSome = true := by decide +kernel
  obtain ⟨d, hrun⟩ := Option.isSome_iff_exists.mp hsome
  have hlive : ∀ now, .kill now ∉ timedOut := by
    simp [timedOut, System.submission]
  have hdown : ∀ k outcome, .finish .email k outcome ∈ timedOut →
      ∃ what, outcome = .failure what true := by
    intro k outcome hmem
    refine ⟨"timed out", ?_⟩
    simp only [timedOut, System.submission, List.append_eq, List.mem_append, List.mem_cons,
      List.mem_map, List.mem_replicate] at hmem
    have hcases : (k = 1 ∧ outcome = .failure "timed out" true) ∨
        (k = 0 ∧ outcome = .failure "timed out" true) := by simpa using hmem
    rcases hcases with ⟨-, houtcome⟩ | ⟨-, houtcome⟩ <;> exact houtcome
  have hbound := outage_contained twoWorkers 0 timedOut d hlive hrun .email hdown ⟨false, 6⟩
    (by decide +kernel)
  exact ⟨hsome, by decide +kernel, hbound⟩

end Deployment

end NotificationDelivery
