import NotificationDelivery.Breaker.ProviderRouter

/-!
# Calls that do not overlap

`ProviderRouter::send` as one thread uses it: no other call asks the breaker or reports to it
before the call has ended. `Textbook` is the circuit breaker one has in mind, with two states
and no probe flag. `sequential_calls_textbook` says that the breaker decides like it, and
`send_all_runs` that such calls are runs of the threads that share the breaker.
-/

namespace NotificationDelivery

open EventMachine

/-- A call of `send`: when it asks the breaker, how the provider ends if it is invoked, and when
the breaker is told. -/
structure SendCall where
  start : Int
  outcome : ProviderOutcome
  report : Int
  deriving DecidableEq, Repr

/-- Whether `send` invoked the provider, and how `send` ended. -/
structure SendResult where
  invoked : Bool
  outcome : ProviderOutcome
  deriving DecidableEq, Repr

/-- The outcome is a success or a transient failure. -/
def SendCall.Reports (call : SendCall) : Prop :=
  ∀ what, call.outcome ≠ .failure what false

namespace ProviderRouter

/-- `ProviderRouter::send`, with the breaker of its channel. -/
def send (channel : Channel) (breaker : CircuitBreaker) (call : SendCall) :
    SendResult × CircuitBreaker :=
  match breaker.allowRequest call.start with
  | (false, breaker) =>
      (⟨false, .failure ("circuit breaker open for channel " ++ channel.toString) true⟩, breaker)
  | (true, breaker) =>
      (⟨true, call.outcome⟩,
        match call.outcome with
        | .result _ => breaker.onSuccess
        | .failure _ true => breaker.onFailure call.report
        | .failure _ false => breaker)

/-- One call after the other. -/
def sendAll (channel : Channel) (breaker : CircuitBreaker) :
    List SendCall → List SendResult × CircuitBreaker
  | [] => ([], breaker)
  | call :: rest =>
      let (result, breaker) := send channel breaker call
      let (results, breaker) := sendAll channel breaker rest
      (result :: results, breaker)

/-- A rejected call leaves the breaker unchanged. -/
theorem send_rejected {channel : Channel} {breaker : CircuitBreaker} {call : SendCall}
    (hrejected : (send channel breaker call).1.invoked = false) :
    (send channel breaker call).2 = breaker := by
  unfold send at hrejected ⊢
  rcases breaker.allow_request_cases call.start with
    ⟨_, hcase⟩ | ⟨_, _, hcase⟩ | ⟨_, _, hcase⟩ | ⟨_, _, hcase⟩ | ⟨_, _, hcase⟩ <;>
    rw [hcase] at hrejected ⊢
  · exact absurd hrejected (by simp)
  · exact absurd hrejected (by simp)
  · exact absurd hrejected (by simp)

end ProviderRouter

/-- The reference machine: closed, with the number of consecutive failures, or open since some
time. -/
inductive Textbook where
  | closed (run : Nat)
  | opened (since : Int)
  deriving DecidableEq, Repr

namespace Textbook

/-- Whether a call at this time is admitted; an open machine admits it as a probe. -/
def admits (openDuration : Int) (reference : Textbook) (now : Int) : Bool :=
  match reference with
  | .closed _ => true
  | .opened since => since + openDuration ≤ now

/-- The machine after a call that was admitted and has ended, with success or not. -/
def reported (failureThreshold : Int) (reference : Textbook) (success : Bool) (now : Int) :
    Textbook :=
  match success, reference with
  | true, _ => .closed 0
  | false, .closed run =>
      if max failureThreshold 1 ≤ (run : Int) + 1 then .opened now else .closed (run + 1)
  | false, .opened _ => .opened now

/-- The decision about a call, and the machine after it. -/
def send (failureThreshold openDuration : Int) (reference : Textbook) (call : SendCall) :
    Bool × Textbook :=
  if reference.admits openDuration call.start then
    (true, reference.reported failureThreshold call.outcome.isResult call.report)
  else (false, reference)

/-- One call after the other. -/
def sendAll (failureThreshold openDuration : Int) (reference : Textbook) :
    List SendCall → List Bool × Textbook
  | [] => ([], reference)
  | call :: rest =>
      let (admitted, reference) := send failureThreshold openDuration reference call
      let (others, reference) := sendAll failureThreshold openDuration reference rest
      (admitted :: others, reference)

/-- The breaker between two calls is in a canonical state for the reference machine: the probe flag
is down, and an open breaker has a counter of zero. -/
def Represents (failureThreshold openDuration : Int) (reference : Textbook)
    (breaker : CircuitBreaker) : Prop :=
  match reference with
  | .closed run => (run : Int) < max failureThreshold 1 ∧ ∃ openedAt,
      breaker = { failureThreshold, openDuration, failureCount := run, openedAt }
  | .opened since =>
      breaker = { failureThreshold, openDuration, state := .opened, openedAt := since }

variable {failureThreshold openDuration : Int} {reference : Textbook} {breaker : CircuitBreaker}
  {channel : Channel} {call : SendCall}

theorem represents_constructed (failureThreshold openDuration : Int) :
    (closed 0).Represents failureThreshold openDuration { failureThreshold, openDuration } := by
  refine ⟨?_, 0, rfl⟩
  push_cast
  omega

theorem Represents.state_ne (h : reference.Represents failureThreshold openDuration breaker) :
    breaker.state ≠ .halfOpen := by
  cases reference with
  | closed run =>
      obtain ⟨_, openedAt, rfl⟩ := h
      simp
  | opened since =>
      obtain rfl := h
      simp

/-- A call that the machine does not admit is rejected. -/
theorem Represents.rejects (h : reference.Represents failureThreshold openDuration breaker)
    {now : Int} (hadmits : reference.admits openDuration now = false) :
    breaker.allowRequest now = (false, breaker) := by
  cases reference with
  | closed run => exact absurd hadmits (by simp [admits])
  | opened since =>
      obtain rfl := h
      have hearly : ¬ openDuration ≤ now - since := by
        simp only [admits, decide_eq_false_iff_not] at hadmits
        omega
      simp [CircuitBreaker.allowRequest, hearly]

/-- A call that the machine admits is admitted, and its report leads to the next state of the
machine. -/
theorem Represents.admits (h : reference.Represents failureThreshold openDuration breaker)
    {now : Int} (hadmits : reference.admits openDuration now = true) (report : Int) :
    ∃ admitted, breaker.allowRequest now = (true, admitted) ∧
      (closed 0).Represents failureThreshold openDuration admitted.onSuccess ∧
      (reference.reported failureThreshold false report).Represents failureThreshold openDuration
        (admitted.onFailure report) := by
  cases reference with
  | closed run =>
      obtain ⟨hrun, openedAt, rfl⟩ := h
      refine ⟨_, rfl, ⟨?_, openedAt, rfl⟩, ?_⟩
      · push_cast
        omega
      · -- the failure is counted, or it completes the threshold
        by_cases hfull : max failureThreshold 1 ≤ (run : Int) + 1
        · have htrips : failureThreshold ≤ (run : Int) + 1 := by omega
          simp [CircuitBreaker.onFailure, CircuitBreaker.trip, reported, hfull, htrips, Represents]
        · have htrips : ¬ failureThreshold ≤ (run : Int) + 1 := by omega
          have hbelow : (run : Int) + 1 < failureThreshold ∨ (run : Int) < 0 := by omega
          simp [CircuitBreaker.onFailure, reported, hfull, htrips, hbelow, Represents]
  | opened since =>
      obtain rfl := h
      -- the probe is admitted to a half-open breaker whose flag is down
      have hlate : openDuration ≤ now - since := by
        simp only [Textbook.admits, decide_eq_true_eq] at hadmits
        omega
      refine ⟨{ failureThreshold, openDuration, state := .halfOpen, openedAt := since }, ?_,
        ⟨?_, since, rfl⟩, rfl⟩
      · simp [CircuitBreaker.allowRequest, hlate]
      · push_cast
        omega

/-- The step lemma: a call that reports gets the decision of the reference machine, and the breaker
represents the machine again. -/
theorem Represents.send (h : reference.Represents failureThreshold openDuration breaker)
    (channel : Channel) (hreports : call.Reports) :
    (ProviderRouter.send channel breaker call).1.invoked =
        (reference.send failureThreshold openDuration call).1 ∧
      (reference.send failureThreshold openDuration call).2.Represents failureThreshold openDuration
        (ProviderRouter.send channel breaker call).2 := by
  unfold ProviderRouter.send Textbook.send
  cases hadmits : reference.admits openDuration call.start with
  | false =>
      rw [h.rejects hadmits]
      exact ⟨rfl, h⟩
  | true =>
      obtain ⟨admitted, hrequest, hsuccess, hfailure⟩ := h.admits hadmits call.report
      rw [hrequest]
      rcases houtcome : call.outcome with providerRef | ⟨what, _ | _⟩
      · exact ⟨rfl, hsuccess⟩
      · exact absurd houtcome (hreports what)
      · exact ⟨rfl, hfailure⟩

/-- The run lemma. -/
theorem Represents.send_all {calls : List SendCall}
    (h : reference.Represents failureThreshold openDuration breaker) (channel : Channel)
    (hreports : ∀ call ∈ calls, call.Reports) :
    (ProviderRouter.sendAll channel breaker calls).1.map SendResult.invoked =
        (reference.sendAll failureThreshold openDuration calls).1 ∧
      (reference.sendAll failureThreshold openDuration calls).2.Represents failureThreshold
        openDuration (ProviderRouter.sendAll channel breaker calls).2 := by
  induction calls generalizing breaker reference with
  | nil => exact ⟨rfl, h⟩
  | cons call rest ih =>
      obtain ⟨hdecision, hnext⟩ := h.send channel (hreports call (by simp))
      obtain ⟨hdecisions, hlast⟩ := ih hnext fun other hmem => hreports other (by simp [hmem])
      refine ⟨?_, hlast⟩
      simp only [ProviderRouter.sendAll, sendAll, List.map_cons, hdecision, hdecisions]

end Textbook

namespace RouterState

/-- What a thread does in one call of `send`, if no other call overlaps it. -/
def sendEvents (thread : Nat) (breaker : CircuitBreaker) (call : SendCall) : List RouterEvent :=
  if (breaker.allowRequest call.start).1 then
    match call.outcome with
    | .failure _ false => [.allowRequest thread call.start, .finish thread call.outcome]
    | _ =>
        [.allowRequest thread call.start, .finish thread call.outcome, .report thread call.report]
  else [.allowRequest thread call.start]

def sendAllEvents (channel : Channel) (thread : Nat) (breaker : CircuitBreaker) :
    List SendCall → List RouterEvent
  | [] => []
  | call :: rest => sendEvents thread breaker call ++
      sendAllEvents channel thread (ProviderRouter.send channel breaker call).2 rest

/-- No call starts before the call before it has reported. -/
def InOrder : Int → List SendCall → Prop
  | _, [] => True
  | clock, call :: rest =>
      clock ≤ call.start ∧ call.start ≤ call.report ∧ InOrder call.report rest

variable {s : RouterState} {thread : Nat} {channel : Channel} {call : SendCall}

theorem send_runs (channel : Channel) (hidle : s.calls thread = .idle)
    (hstart : s.clock ≤ call.start) (hreport : call.start ≤ call.report) :
    ∃ t, run step s (sendEvents thread s.breaker call) = some t ∧
      t.breaker = (ProviderRouter.send channel s.breaker call).2 ∧ t.calls thread = .idle ∧
      t.clock ≤ call.report := by
  obtain ⟨start, outcome, report⟩ := call
  unfold sendEvents ProviderRouter.send
  rcases hrequest : s.breaker.allowRequest start with ⟨_ | _, breaker⟩
  · refine ⟨{ s with breaker, clock := start }, ?_, rfl, hidle, hreport⟩
    have hask : s.step (.allowRequest thread start) = some { s with breaker, clock := start } := by
      simpa [step, hidle, hrequest] using hstart
    simp [run, hask]
  · -- the call that was admitted ends, and reports unless it failed for good
    let asked := { s with breaker, clock := start }.setCall thread (.calling s.trips)
    have hask : s.step (.allowRequest thread start) = some asked := by
      rw [step_allow_request hidle hstart, hrequest]
      rfl
    have hcall : asked.calls thread = .calling s.trips := set_call_same _
    have hfinish : asked.step (.finish thread outcome) =
        some (asked.finishCall thread s.trips outcome) := by
      simp [step, hcall]
    rcases outcome with providerRef | ⟨what, _ | _⟩
    · refine ⟨{ (asked.setCall thread (.reporting s.trips true)).setCall thread .idle with
        clock := report, breaker := asked.breaker.onSuccess }, ?_, rfl, set_call_same _, le_refl _⟩
      have hreported := step_report (s := asked.setCall thread (.reporting s.trips true))
        (set_call_same _) hreport
      simp [run, hask, hfinish, finishCall, hreported]
    · refine ⟨asked.setCall thread .idle, ?_, rfl, set_call_same _, hreport⟩
      simp [run, hask, hfinish, finishCall]
    · refine ⟨{ (asked.setCall thread (.reporting s.trips false)).setCall thread .idle with
        clock := report }.reportFailure report, ?_, rfl, set_call_same _, le_refl _⟩
      have hreported := step_report (s := asked.setCall thread (.reporting s.trips false))
        (set_call_same _) hreport
      simp [run, hask, hfinish, finishCall, hreported]

/-- Calls that follow one another are a run of the threads that share the breaker. -/
theorem send_all_runs (channel : Channel) {calls : List SendCall} (hidle : s.calls thread = .idle)
    (horder : InOrder s.clock calls) :
    ∃ t, run step s (sendAllEvents channel thread s.breaker calls) = some t ∧
      t.breaker = (ProviderRouter.sendAll channel s.breaker calls).2 ∧ t.calls thread = .idle := by
  induction calls generalizing s with
  | nil => exact ⟨s, rfl, rfl, hidle⟩
  | cons call rest ih =>
      obtain ⟨hstart, hreport, hrest⟩ := horder
      obtain ⟨middle, hrun, hbreaker, hidle', hclock⟩ := send_runs channel hidle hstart hreport
      have hlater : InOrder middle.clock rest := by
        cases rest with
        | nil => trivial
        | cons next others => exact ⟨hclock.trans hrest.1, hrest.2⟩
      obtain ⟨t, hruns, hlast, hidle''⟩ := ih hidle' hlater
      refine ⟨t, ?_, ?_, hidle''⟩
      · rw [sendAllEvents, run_append, hrun, ← hbreaker]
        exact hruns
      · rw [hlast, hbreaker]
        rfl

end RouterState

namespace ProviderRouter

/-- For every threshold, open duration and sequence of calls that do not overlap, at any start and
report times, whose outcomes are successes and transient failures: `send` invokes the provider
exactly when the reference machine admits the call, the breaker is not half-open after the calls,
and it stays as it is when it rejects one more. -/
theorem sequential_calls_textbook (failureThreshold openDuration : Int) (channel : Channel)
    (calls : List SendCall) (hreports : ∀ call ∈ calls, call.Reports) :
    (sendAll channel { failureThreshold, openDuration } calls).1.map SendResult.invoked =
        ((Textbook.closed 0).sendAll failureThreshold openDuration calls).1 ∧
      (sendAll channel { failureThreshold, openDuration } calls).2.state ≠ .halfOpen ∧
      ∀ call, (send channel (sendAll channel { failureThreshold, openDuration } calls).2
          call).1.invoked = false →
        (send channel (sendAll channel { failureThreshold, openDuration } calls).2 call).2 =
          (sendAll channel { failureThreshold, openDuration } calls).2 := by
  have hconstructed := Textbook.represents_constructed failureThreshold openDuration
  obtain ⟨hdecisions, hlast⟩ := hconstructed.send_all channel hreports
  exact ⟨hdecisions, hlast.state_ne, fun call => send_rejected⟩

/-- Threshold 1, open duration 10: a failure trips the breaker, a call inside the window is
rejected, and the probe after it succeeds. -/
def tripAndProbe : List SendCall :=
  [⟨0, .failure "timed out" true, 1⟩, ⟨10, .result "email-1", 10⟩, ⟨11, .result "email-2", 12⟩]

theorem sequential_calls_textbook_probe :
    (sendAll .email { failureThreshold := 1, openDuration := 10 } tripAndProbe).1.map
        SendResult.invoked = [true, false, true] ∧
      (sendAll .email { failureThreshold := 1, openDuration := 10 } tripAndProbe).2.state ≠
        .halfOpen := by
  have hreports : ∀ call ∈ tripAndProbe, call.Reports := by
    simp [tripAndProbe, SendCall.Reports]
  obtain ⟨hdecisions, hstate, _⟩ := sequential_calls_textbook 1 10 .email tripAndProbe hreports
  refine ⟨hdecisions.trans ?_, hstate⟩
  decide

end ProviderRouter

end NotificationDelivery
