import NotificationDelivery.Breaker.SequentialCalls
import NotificationDelivery.Service.NoLoss

/-!
# One process of the service

The service as `src/main.cpp` runs it: `WorkerPool` (`src/Worker.cpp`) starts `workersPerChannel`
threads for each channel, each with a consumer of its own, and all of them share one
`ProviderRouter` with a breaker for each channel. A worker holds at most ten messages that it
has not acked (`setQos(10)`), executes `onMessage` on one of them at a time, and calls
`ProviderRouter::send` in it. An exception that `onMessage` does not catch ends the whole
process, as the signal that kills it does: a delivery never dies alone. The connections of the
workers hold as long as the process lives, so the broker puts a message back only after the
process of its consumer has ended.
-/

namespace NotificationDelivery

open EventMachine

/-- A `WorkerThread`: the messages that the broker has sent to it and that it has not looked at, the
execution of `onMessage` under its number, and the outcome of the provider call until the
breaker is told. -/
structure WorkerState where
  inbox : List Nat := []
  current : Option Nat := none
  result : Option ProviderOutcome := none

/-- The workers of a channel are numbered; `routers` are the breakers of `ProviderRouter::entries_`
with the calls of the workers of the channel. -/
structure Deployment where
  system : System
  workers : Channel → Nat → WorkerState
  routers : Channel → RouterState

inductive DeployedEvent where
  /-- A request, the broker, or the time to live of a message. -/
  | outside (event : Event)
  /-- The broker sends message `i` to a worker. -/
  | push (c : Channel) (k i : Nat)
  /-- A worker enters `onMessage` with its next message. -/
  | take (c : Channel) (k : Nat)
  /-- A worker executes the next statement of `onMessage`. -/
  | work (c : Channel) (k : Nat)
  /-- A worker enters `ProviderRouter::send` and asks the breaker. -/
  | allowRequest (c : Channel) (k : Nat) (now : Int)
  /-- The provider call of a worker returns or throws. -/
  | finish (c : Channel) (k : Nat) (outcome : ProviderOutcome)
  /-- A worker tells the breaker how its provider call ended and leaves `send`. -/
  | report (c : Channel) (k : Nat) (now : Int)
  /-- The process ends and is started again. -/
  | kill (now : Int)

/-- The number of workers of a channel: the loop of `WorkerPool` makes none for a negative
number. -/
def Config.workers (config : Config) : Nat := config.workersPerChannel.toNat

namespace System

/-- What can happen outside the workers. The consumer of a message that is put back is gone. -/
def admitsOutside (s : System) : Event → Bool
  | .request _ _ | .post _ | .abort _ | .expire _ => true
  | .requeue i =>
      match s.broker.get i with
      | some ⟨.unacked _ h, _⟩ => (s.handlers.get h).isNone
      | _ => false
  | .deliver _ _ | .work _ | .send _ _ | .crash _ => false

/-- The requests and the deliveries that end with the process. -/
def lost (s : System) : List Event :=
  ((List.range s.posts.next).filter fun p => (s.posts.get p).isSome).map Event.abort ++
    ((List.range s.handlers.next).filter fun h => (s.handlers.get h).isSome).map Event.crash

end System

namespace Deployment

/-- The prefetch count of a worker. -/
def prefetch : Nat := 10

/-- The outcome of `send` when the breaker of the channel is open. -/
def rejection (c : Channel) : ProviderOutcome :=
  .failure ("circuit breaker open for channel " ++ c.toString) true

def newRouters (config : Config) (start : Int) (_ : Channel) : RouterState :=
  .initial config.cbFailureThreshold config.cbOpenDurationMs start

/-- The process as it starts. -/
def initial (config : Config) (start : Int) : Deployment where
  system := .initial
  workers := fun _ _ => {}
  routers := newRouters config start

def setWorker (d : Deployment) (c : Channel) (k : Nat) (worker : WorkerState) : Deployment :=
  { d with workers := Function.update d.workers c (Function.update (d.workers c) k worker) }

def setRouter (d : Deployment) (c : Channel) (router : RouterState) : Deployment :=
  { d with routers := Function.update d.routers c router }

/-- The broker may send message `i` to a worker: it waits on the main queue of the channel, no
worker has it, and the worker holds fewer messages than its prefetch count. -/
def pushable (d : Deployment) (config : Config) (c : Channel) (k i : Nat) : Bool :=
  k < config.workers &&
    ((d.system.broker.get i).any fun m => m.place = .queue (Topology.mainQueue c)) &&
    ((List.range config.workers).all fun other => i ∉ (d.workers c other).inbox) &&
    (d.workers c k).inbox.length + (d.workers c k).current.toList.length < prefetch

/-- The delivery of a worker that is at the router call, with the notification it read. -/
def sending (d : Deployment) (c : Channel) (k : Nat) : Option (Nat × Notification) := do
  let h ← (d.workers c k).current
  let w ← d.system.handlers.get h
  match w.pc with
  | .send n => some (h, n)
  | _ => none

/-- The delivery under the number `h`, if it is still there. -/
def still (s : System) (h : Nat) : Option Nat :=
  if (s.handlers.get h).isSome then some h else none

/-- One step of the process. -/
def step (env : Env) (d : Deployment) : DeployedEvent → Option Deployment
  | .outside event =>
      if d.system.admitsOutside event then
        (d.system.step env event).map fun system => { d with system }
      else none
  | .push c k i =>
      if d.pushable env.config c k i then
        some (d.setWorker c k
          { d.workers c k with inbox := (d.workers c k).inbox ++ [i] })
      else none
  | .take c k =>
      match (d.workers c k).inbox, (d.workers c k).current with
      | i :: inbox, none =>
          -- a body that cannot be read is acked at once, and the worker stays idle
          (d.system.step env (.deliver c i)).map fun system =>
            { d with system }.setWorker c k
              { inbox, current := still system d.system.handlers.next }
      | _, _ => none
  | .work c k => do
      let h ← (d.workers c k).current
      let system ← d.system.step env (.work h)
      some ({ d with system }.setWorker c k { d.workers c k with current := still system h })
  | .allowRequest c k now => do
      let (h, n) ← d.sending c k
      let router ← (d.routers n.channel).step (.allowRequest k now)
      if router.calls k = .idle then
        (d.system.step env (.send h (rejection n.channel))).map fun system =>
          { d with system }.setRouter n.channel router
      else some (d.setRouter n.channel router)
  | .finish c k outcome => do
      let (h, n) ← d.sending c k
      let router ← (d.routers n.channel).step (.finish k outcome)
      if router.calls k = .idle then
        (d.system.step env (.send h outcome)).map fun system =>
          { d with system }.setRouter n.channel router
      else
        some ((d.setRouter n.channel router).setWorker c k
          { d.workers c k with result := some outcome })
  | .report c k now => do
      let (h, n) ← d.sending c k
      let router ← (d.routers n.channel).step (.report k now)
      let outcome ← (d.workers c k).result
      let system ← d.system.step env (.send h outcome)
      some (({ d with system }.setRouter n.channel router).setWorker c k
        { d.workers c k with result := none })
  | .kill now =>
      (run (System.step env) d.system d.system.lost).map fun system =>
        { initial env.config now with system }

variable {env : Env} {d next : Deployment} {c : Channel} {k h : Nat} {n : Notification}

/-- Everything a step of the process can do. -/
inductive Stepped (env : Env) (d : Deployment) : DeployedEvent → Deployment → Prop where
  | outside (event : Event) (system : System) : d.system.admitsOutside event = true →
      d.system.step env event = some system → Stepped env d (.outside event) { d with system }
  | pushed (c : Channel) (k i : Nat) : d.pushable env.config c k i = true →
      Stepped env d (.push c k i)
        (d.setWorker c k { d.workers c k with inbox := (d.workers c k).inbox ++ [i] })
  | taken (c : Channel) (k i : Nat) (inbox : List Nat) (system : System) :
      (d.workers c k).inbox = i :: inbox → (d.workers c k).current = none →
      d.system.step env (.deliver c i) = some system →
      Stepped env d (.take c k) ({ d with system }.setWorker c k
        { inbox, current := still system d.system.handlers.next })
  | worked (c : Channel) (k h : Nat) (system : System) : (d.workers c k).current = some h →
      d.system.step env (.work h) = some system →
      Stepped env d (.work c k) ({ d with system }.setWorker c k
        { d.workers c k with current := still system h })
  | rejected (c : Channel) (k h : Nat) (n : Notification) (now : Int) (router : RouterState)
      (system : System) : d.sending c k = some (h, n) →
      (d.routers n.channel).step (.allowRequest k now) = some router → router.calls k = .idle →
      d.system.step env (.send h (rejection n.channel)) = some system →
      Stepped env d (.allowRequest c k now) ({ d with system }.setRouter n.channel router)
  | admitted (c : Channel) (k h : Nat) (n : Notification) (now : Int) (router : RouterState) :
      d.sending c k = some (h, n) →
      (d.routers n.channel).step (.allowRequest k now) = some router → router.calls k ≠ .idle →
      Stepped env d (.allowRequest c k now) (d.setRouter n.channel router)
  | threw (c : Channel) (k h : Nat) (n : Notification) (outcome : ProviderOutcome)
      (router : RouterState) (system : System) : d.sending c k = some (h, n) →
      (d.routers n.channel).step (.finish k outcome) = some router → router.calls k = .idle →
      d.system.step env (.send h outcome) = some system →
      Stepped env d (.finish c k outcome) ({ d with system }.setRouter n.channel router)
  | returned (c : Channel) (k h : Nat) (n : Notification) (outcome : ProviderOutcome)
      (router : RouterState) : d.sending c k = some (h, n) →
      (d.routers n.channel).step (.finish k outcome) = some router → router.calls k ≠ .idle →
      Stepped env d (.finish c k outcome) ((d.setRouter n.channel router).setWorker c k
        { d.workers c k with result := some outcome })
  | reported (c : Channel) (k h : Nat) (n : Notification) (now : Int) (router : RouterState)
      (outcome : ProviderOutcome) (system : System) : d.sending c k = some (h, n) →
      (d.routers n.channel).step (.report k now) = some router →
      (d.workers c k).result = some outcome →
      d.system.step env (.send h outcome) = some system →
      Stepped env d (.report c k now) (({ d with system }.setRouter n.channel router).setWorker c k
        { d.workers c k with result := none })
  | killed (now : Int) (system : System) : run (System.step env) d.system d.system.lost =
      some system → Stepped env d (.kill now) { initial env.config now with system }

/-- The step function does what `Stepped` says. -/
theorem step_cases {event : DeployedEvent} (hstep : d.step env event = some next) :
    Stepped env d event next := by
  cases event with
  | outside event =>
      simp only [step] at hstep
      split at hstep
      · rename_i hadmits
        obtain ⟨system, hsystem, rfl⟩ := Option.map_eq_some_iff.mp hstep
        exact .outside event system hadmits hsystem
      · exact absurd hstep (by simp)
  | push c k i =>
      simp only [step] at hstep
      split at hstep
      · rename_i hpush
        cases hstep
        exact .pushed c k i hpush
      · exact absurd hstep (by simp)
  | take c k =>
      simp only [step] at hstep
      split at hstep
      · rename_i i inbox hinbox hcurrent
        obtain ⟨system, hsystem, rfl⟩ := Option.map_eq_some_iff.mp hstep
        exact .taken c k i inbox system hinbox hcurrent hsystem
      · exact absurd hstep (by simp)
  | work c k =>
      simp only [step, bind, Option.bind_eq_some_iff] at hstep
      obtain ⟨h, hcurrent, system, hsystem, hnext⟩ := hstep
      cases hnext
      exact .worked c k h system hcurrent hsystem
  | allowRequest c k now =>
      simp only [step, bind, Option.bind_eq_some_iff] at hstep
      obtain ⟨⟨h, n⟩, hsending, router, hrouter, hnext⟩ := hstep
      split at hnext
      · rename_i hidle
        obtain ⟨system, hsystem, rfl⟩ := Option.map_eq_some_iff.mp hnext
        exact .rejected c k h n now router system hsending hrouter hidle hsystem
      · rename_i hbusy
        cases hnext
        exact .admitted c k h n now router hsending hrouter hbusy
  | finish c k outcome =>
      simp only [step, bind, Option.bind_eq_some_iff] at hstep
      obtain ⟨⟨h, n⟩, hsending, router, hrouter, hnext⟩ := hstep
      split at hnext
      · rename_i hidle
        obtain ⟨system, hsystem, rfl⟩ := Option.map_eq_some_iff.mp hnext
        exact .threw c k h n outcome router system hsending hrouter hidle hsystem
      · rename_i hbusy
        cases hnext
        exact .returned c k h n outcome router hsending hrouter hbusy
  | report c k now =>
      simp only [step, bind, Option.bind_eq_some_iff] at hstep
      obtain ⟨⟨h, n⟩, hsending, router, hrouter, outcome, hresult, system, hsystem, hnext⟩ := hstep
      cases hnext
      exact .reported c k h n now router outcome system hsending hrouter hresult hsystem
  | kill now =>
      simp only [step] at hstep
      obtain ⟨system, hsystem, rfl⟩ := Option.map_eq_some_iff.mp hstep
      exact .killed now system hsystem

/-- A worker at the router call executes `onMessage` at that statement. -/
theorem sending_eq_some : d.sending c k = some (h, n) ↔ ∃ w,
    (d.workers c k).current = some h ∧ d.system.handlers.get h = some w ∧ w.pc = .send n := by
  simp only [sending, bind, Option.bind_eq_some_iff]
  constructor
  · intro hsending
    obtain ⟨h', hcurrent, w, hget, hpc⟩ := hsending
    split at hpc
    · rename_i n' hsend
      cases hpc
      exact ⟨w, hcurrent, hget, hsend⟩
    · exact absurd hpc (by simp)
  · intro hsending
    obtain ⟨w, hcurrent, hget, hpc⟩ := hsending
    exact ⟨h, hcurrent, w, hget, by rw [hpc]⟩

section Updates

variable (d) (worker : WorkerState) (router : RouterState)

@[simp] theorem set_worker_system : (d.setWorker c k worker).system = d.system := rfl

@[simp] theorem set_worker_routers : (d.setWorker c k worker).routers = d.routers := rfl

@[simp] theorem set_router_system : (d.setRouter c router).system = d.system := rfl

@[simp] theorem set_router_workers : (d.setRouter c router).workers = d.workers := rfl

@[simp] theorem set_worker_self : (d.setWorker c k worker).workers c k = worker := by
  simp [setWorker]

theorem set_worker_other {c' : Channel} {k' : Nat} (hne : ¬ (c' = c ∧ k' = k)) :
    (d.setWorker c k worker).workers c' k' = d.workers c' k' := by
  by_cases hc : c' = c
  · subst hc
    have hk : k' ≠ k := fun hk => hne ⟨rfl, hk⟩
    simp [setWorker, hk]
  · simp [setWorker, hc]

end Updates

end Deployment

namespace System

variable {env : Env} {s t : System}

/-- Requests that end early change nothing else. -/
theorem run_aborts (env : Env) {posts : List Nat}
    (hall : ∀ p ∈ posts, (s.posts.get p).isSome = true) :
    ∃ posts', run (System.step env) s (posts.map Event.abort) =
      some { s with posts := posts' } ∧ posts'.next = s.posts.next ∧
      (∀ p ∈ posts, ∀ post, posts'.get p = some post → post.pc = .done) ∧
      ∀ p, p ∉ posts → posts'.get p = s.posts.get p := by
  induction posts generalizing s with
  | nil => exact ⟨s.posts, rfl, rfl, by simp, by simp⟩
  | cons p rest ih =>
      obtain ⟨post, hget⟩ := Option.isSome_iff_exists.mp (hall p (by simp))
      let aborted : System := { s with posts := s.posts.set p (some { post with pc := .done }) }
      have hstep : s.step env (.abort p) = some aborted := by simp [step, hget, aborted]
      have hrest : ∀ q ∈ rest, (aborted.posts.get q).isSome = true := by
        intro q hq
        show ((s.posts.set p _).get q).isSome = true
        rw [Registry.get_set hget]
        by_cases hqp : q = p
        · subst hqp
          simp
        · rw [Function.update_of_ne hqp]
          exact hall q (by simp [hq])
      obtain ⟨posts', hrun, hnext, hdone, hother⟩ := ih hrest
      have hat : ∀ q, q ∉ rest → posts'.get q =
          Function.update s.posts.get p (some { post with pc := .done }) q := by
        intro q hq
        rw [hother q hq]
        show (s.posts.set p _).get q = _
        rw [Registry.get_set hget]
      refine ⟨posts', ?_, hnext, fun q hq post' hpost' => ?_, fun q hq => ?_⟩
      · rw [List.map_cons, run_cons, hstep]
        exact hrun
      · by_cases hqr : q ∈ rest
        · exact hdone q hqr post' hpost'
        · obtain rfl : q = p := by simpa [hqr] using hq
          rw [hat q hqr, Function.update_self] at hpost'
          rw [← Option.some.inj hpost']
      · obtain ⟨hqp, hqr⟩ : q ≠ p ∧ q ∉ rest := by simpa using hq
        rw [hat q hqr, Function.update_of_ne hqp]

/-- Deliveries that die change nothing else. -/
theorem run_crashes (env : Env) {handlers : List Nat} (hnodup : handlers.Nodup)
    (hall : ∀ h ∈ handlers, (s.handlers.get h).isSome = true) :
    ∃ handlers', run (System.step env) s (handlers.map Event.crash) =
      some { s with handlers := handlers' } ∧ (∀ h ∈ handlers, handlers'.get h = none) ∧
      ∀ h, h ∉ handlers → handlers'.get h = s.handlers.get h := by
  induction handlers generalizing s with
  | nil => exact ⟨s.handlers, rfl, by simp, by simp⟩
  | cons h rest ih =>
      obtain ⟨hfresh, hnodup⟩ := List.nodup_cons.mp hnodup
      obtain ⟨w, hget⟩ := Option.isSome_iff_exists.mp (hall h (by simp))
      let crashed : System := { s with handlers := s.handlers.set h none }
      have hstep : s.step env (.crash h) = some crashed := by simp [step, hget, crashed]
      have hat : ∀ j, crashed.handlers.get j = Function.update s.handlers.get h none j := by
        intro j
        show (s.handlers.set h none).get j = _
        rw [Registry.get_set hget]
      have hrest : ∀ j ∈ rest, (crashed.handlers.get j).isSome = true := by
        intro j hj
        have hne : j ≠ h := fun hjh => hfresh (hjh ▸ hj)
        rw [hat, Function.update_of_ne hne]
        exact hall j (by simp [hj])
      obtain ⟨handlers', hrun, hgone, hother⟩ := ih hnodup hrest
      refine ⟨handlers', ?_, fun j hj => ?_, fun j hj => ?_⟩
      · rw [List.map_cons, run_cons, hstep]
        exact hrun
      · by_cases hjr : j ∈ rest
        · exact hgone j hjr
        · obtain rfl : j = h := by simpa [hjr] using hj
          rw [hother j hjr, hat, Function.update_self]
      · obtain ⟨hjh, hjr⟩ : j ≠ h ∧ j ∉ rest := by simpa using hj
        rw [hother j hjr, hat, Function.update_of_ne hjh]

/-- The process can always end. No request and no delivery is left, and the tables and the broker
stay as they are. -/
theorem run_lost (env : Env) (s : System) : ∃ posts handlers,
    run (System.step env) s s.lost = some { s with posts, handlers } ∧
      (∀ h, handlers.get h = none) ∧ ∀ p post, posts.get p = some post → post.pc = .done := by
  have hposts : ∀ p ∈ (List.range s.posts.next).filter (fun p => (s.posts.get p).isSome),
      (s.posts.get p).isSome = true := fun p hp => (List.mem_filter.mp hp).2
  obtain ⟨posts, hfirst, hnext, hdone, hother⟩ := run_aborts env hposts
  have hhandlers : ∀ h ∈ (List.range s.handlers.next).filter (fun h => (s.handlers.get h).isSome),
      (s.handlers.get h).isSome = true := fun h hh => (List.mem_filter.mp hh).2
  obtain ⟨handlers, hsecond, hgone, hrest⟩ := run_crashes env
    (s := { s with posts }) (List.nodup_range.filter _) hhandlers
  refine ⟨posts, handlers, ?_, fun h => ?_, fun p post hpost => ?_⟩
  · rw [lost, run_append, hfirst]
    exact hsecond
  · by_cases hlive : h ∈ (List.range s.handlers.next).filter (fun h => (s.handlers.get h).isSome)
    · exact hgone h hlive
    · rw [hrest h hlive]
      cases hget : s.handlers.get h with
      | none => rfl
      | some w => exact absurd (List.mem_filter.mpr
          ⟨List.mem_range.mpr (Registry.lt_next hget), by simp [hget]⟩) hlive
  · by_cases hlive : p ∈ (List.range s.posts.next).filter (fun p => (s.posts.get p).isSome)
    · exact hdone p hlive post hpost
    · rw [hother p hlive] at hpost
      exact absurd (List.mem_filter.mpr
        ⟨List.mem_range.mpr (Registry.lt_next hpost), by simp [hpost]⟩) hlive

end System

end NotificationDelivery
