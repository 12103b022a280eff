import NotificationDelivery.Breaker.CircuitBreaker
import NotificationDelivery.Library.Runs
import NotificationDelivery.Models
import Mathlib.Logic.Function.Basic

/-!
# Threads sharing one breaker

`ProviderRouter::send` (`src/ProviderRouter.cpp`) on one channel, as its steps interleave
when several workers call it: `allowRequest`, the end of the provider call, and the report
to the breaker. A permanent `ProviderException` is rethrown without a report, so such a call
ends with the provider call. Clock readings never decrease.
-/

namespace NotificationDelivery

/-- Where a thread stands in `ProviderRouter::send`. `epoch` is the number of trips of the
breaker when the request was admitted. -/
inductive Call where
  | idle
  | calling (epoch : Nat)
  | reporting (epoch : Nat) (success : Bool)
  deriving DecidableEq, Repr

/-- A breaker, the calls of the threads that share it, the last clock reading, and the
breaker's history of trips. -/
structure RouterState where
  breaker : CircuitBreaker
  calls : Nat → Call
  clock : Int
  trips : Nat
  lastTrip : Option Int

inductive RouterEvent where
  /-- A thread enters `send` and asks the breaker. -/
  | allowRequest (thread : Nat) (now : Int)
  /-- The provider call of a thread returns or throws. -/
  | finish (thread : Nat) (outcome : ProviderOutcome)
  /-- A thread calls `onSuccess` or `onFailure` and leaves `send`. -/
  | report (thread : Nat) (now : Int)
  deriving DecidableEq, Repr

/-- The thread that takes the step. -/
def RouterEvent.thread : RouterEvent → Nat
  | .allowRequest thread _ => thread
  | .finish thread _ => thread
  | .report thread _ => thread

namespace RouterState

/-- The router as constructed, with every thread outside `send`. -/
def initial (failureThreshold openDuration start : Int) : RouterState where
  breaker := { failureThreshold, openDuration }
  calls := fun _ => .idle
  clock := start
  trips := 0
  lastTrip := none

def setCall (s : RouterState) (thread : Nat) (call : Call) : RouterState :=
  { s with calls := Function.update s.calls thread call }

/-- The provider call of a thread ends; only a permanent failure leaves `send` at once. -/
def finishCall (s : RouterState) (thread epoch : Nat) : ProviderOutcome → RouterState
  | .result _ => s.setCall thread (.reporting epoch true)
  | .failure _ true => s.setCall thread (.reporting epoch false)
  | .failure _ false => s.setCall thread .idle

/-- `onFailure`, with the trip it may cause noted in the history. -/
def reportFailure (s : RouterState) (now : Int) : RouterState :=
  { s with
    breaker := s.breaker.onFailure now
    trips := if s.breaker.failureTrips then s.trips + 1 else s.trips
    lastTrip := if s.breaker.failureTrips then some now else s.lastTrip }

/-- One step of one thread. -/
def step (s : RouterState) : RouterEvent → Option RouterState
  | .allowRequest thread now =>
      if s.calls thread = .idle ∧ s.clock ≤ now then
        let (admitted, breaker) := s.breaker.allowRequest now
        let s := { s with breaker, clock := now }
        some (if admitted then s.setCall thread (.calling s.trips) else s)
      else none
  | .finish thread outcome =>
      match s.calls thread with
      | .calling epoch => some (s.finishCall thread epoch outcome)
      | _ => none
  | .report thread now =>
      match s.calls thread with
      | .reporting _ success =>
          if s.clock ≤ now then
            let s := { s.setCall thread .idle with clock := now }
            some (if success then { s with breaker := s.breaker.onSuccess }
              else s.reportFailure now)
          else none
      | _ => none

/-- Some admitted call has not left `send` yet. -/
def InFlight (s : RouterState) (thread : Nat) : Prop :=
  s.calls thread ≠ .idle

/-- The thread runs the provider call of a request admitted since the most recent trip. -/
def Probing (s : RouterState) (thread : Nat) : Prop :=
  s.calls thread = .calling s.trips

variable {s t : RouterState} {thread : Nat} {now : Int}

@[simp] theorem set_call_same (call : Call) : (s.setCall thread call).calls thread = call := by
  simp [setCall]

theorem set_call_other {call : Call} {other : Nat} (h : other ≠ thread) :
    (s.setCall thread call).calls other = s.calls other := by
  simp [setCall, h]

@[simp] theorem set_call_breaker (call : Call) : (s.setCall thread call).breaker = s.breaker := rfl

@[simp] theorem set_call_trips (call : Call) : (s.setCall thread call).trips = s.trips := rfl

@[simp] theorem set_call_last_trip (call : Call) :
    (s.setCall thread call).lastTrip = s.lastTrip := rfl

@[simp] theorem set_call_clock (call : Call) : (s.setCall thread call).clock = s.clock := rfl

/-- Everything a step can do, one case for each branch of the code. -/
inductive Stepped (s : RouterState) : RouterEvent → RouterState → Prop where
  | admitted (thread : Nat) (now : Int) (breaker : CircuitBreaker) : s.calls thread = .idle →
      s.clock ≤ now → s.breaker.allowRequest now = (true, breaker) →
      Stepped s (.allowRequest thread now)
        ({ s with breaker, clock := now }.setCall thread (.calling s.trips))
  | rejected (thread : Nat) (now : Int) : s.calls thread = .idle → s.clock ≤ now →
      s.breaker.allowRequest now = (false, s.breaker) →
      Stepped s (.allowRequest thread now) { s with clock := now }
  | returned (thread epoch : Nat) (providerRef : String) : s.calls thread = .calling epoch →
      Stepped s (.finish thread (.result providerRef)) (s.setCall thread (.reporting epoch true))
  | threwTransient (thread epoch : Nat) (what : String) : s.calls thread = .calling epoch →
      Stepped s (.finish thread (.failure what true)) (s.setCall thread (.reporting epoch false))
  | threwPermanent (thread epoch : Nat) (what : String) : s.calls thread = .calling epoch →
      Stepped s (.finish thread (.failure what false)) (s.setCall thread .idle)
  | succeeded (thread epoch : Nat) (now : Int) : s.calls thread = .reporting epoch true →
      s.clock ≤ now →
      Stepped s (.report thread now)
        { s.setCall thread .idle with clock := now, breaker := s.breaker.onSuccess }
  | tripped (thread epoch : Nat) (now : Int) : s.calls thread = .reporting epoch false →
      s.clock ≤ now → s.breaker.failureTrips = true →
      Stepped s (.report thread now)
        { s.setCall thread .idle with
          clock := now, breaker := s.breaker.onFailure now
          trips := s.trips + 1, lastTrip := some now }
  | counted (thread epoch : Nat) (now : Int) : s.calls thread = .reporting epoch false →
      s.clock ≤ now → s.breaker.failureTrips = false →
      Stepped s (.report thread now)
        { s.setCall thread .idle with clock := now, breaker := s.breaker.onFailure now }

/-- The step function does what `Stepped` says. -/
theorem step_cases {event : RouterEvent} (h : s.step event = some t) : Stepped s event t := by
  cases event with
  | allowRequest thread now =>
      simp only [step] at h
      split at h
      · rename_i hguard
        obtain ⟨hidle, hclock⟩ := hguard
        rcases s.breaker.allow_request_cases now with
          ⟨_, hreq⟩ | ⟨_, _, hreq⟩ | ⟨_, _, hreq⟩ | ⟨_, _, hreq⟩ | ⟨_, _, hreq⟩ <;>
          rw [hreq] at h <;> obtain rfl := Option.some.inj h
        · exact .admitted thread now _ hidle hclock hreq
        · exact .admitted thread now _ hidle hclock hreq
        · exact .rejected thread now hidle hclock hreq
        · exact .rejected thread now hidle hclock hreq
        · exact .admitted thread now _ hidle hclock hreq
      · exact absurd h (by simp)
  | finish thread outcome =>
      simp only [step] at h
      split at h
      · rename_i epoch hcall
        obtain rfl := Option.some.inj h
        rcases outcome with providerRef | ⟨what, _ | _⟩
        · exact .returned thread epoch providerRef hcall
        · exact .threwPermanent thread epoch what hcall
        · exact .threwTransient thread epoch what hcall
      · exact absurd h (by simp)
  | report thread now =>
      simp only [step] at h
      split at h
      · rename_i epoch success hcall
        split at h
        · rename_i hclock
          obtain rfl := Option.some.inj h
          cases success with
          | true => exact .succeeded thread epoch now hcall hclock
          | false =>
              cases htrips : s.breaker.failureTrips with
              | true =>
                  have hstep := Stepped.tripped thread epoch now hcall hclock htrips
                  simpa [reportFailure, htrips] using hstep
              | false =>
                  have hstep := Stepped.counted thread epoch now hcall hclock htrips
                  simpa [reportFailure, htrips] using hstep
        · exact absurd h (by simp)
      · exact absurd h (by simp)

/-- A step moves the call of its own thread only. -/
theorem step_calls_other {event : RouterEvent} {other : Nat} (h : s.step event = some t)
    (hne : other ≠ event.thread) : t.calls other = s.calls other := by
  cases step_cases h with
  | rejected => rfl
  | admitted | returned | threwTransient | threwPermanent => exact set_call_other hne
  | succeeded | tripped | counted => exact set_call_other hne

/-- A run leaves alone the threads that take no step in it. -/
theorem run_calls_other {events : List RouterEvent} {other : Nat}
    (hrun : EventMachine.run step s events = some t)
    (hne : ∀ event ∈ events, other ≠ event.thread) : t.calls other = s.calls other := by
  induction events generalizing s with
  | nil =>
      obtain rfl := Option.some.inj hrun
      rfl
  | cons event rest ih =>
      simp only [EventMachine.run_cons, bind, Option.bind_eq_some_iff] at hrun
      obtain ⟨next, hstep, hrest⟩ := hrun
      rw [ih hrest (fun e he => hne e (by simp [he])), step_calls_other hstep (hne event (by simp))]

/-- A reporting thread can always report at a clock reading that is not in the past. -/
theorem step_report {epoch : Nat} {success : Bool}
    (hcall : s.calls thread = .reporting epoch success) (hclock : s.clock ≤ now) :
    s.step (.report thread now) =
      some (if success then
        { s.setCall thread .idle with clock := now, breaker := s.breaker.onSuccess }
      else { s.setCall thread .idle with clock := now }.reportFailure now) := by
  simp only [step, hcall]
  exact if_pos hclock

/-- An idle thread can always ask the breaker. -/
theorem step_allow_request (hidle : s.calls thread = .idle) (hclock : s.clock ≤ now) :
    s.step (.allowRequest thread now) =
      some (if (s.breaker.allowRequest now).1 then
        { s with breaker := (s.breaker.allowRequest now).2, clock := now }.setCall thread
          (.calling s.trips)
      else { s with breaker := (s.breaker.allowRequest now).2, clock := now }) := by
  simp [step, hidle, hclock]

end RouterState

end NotificationDelivery
