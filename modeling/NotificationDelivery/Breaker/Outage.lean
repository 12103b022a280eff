import NotificationDelivery.Breaker.OpenWindow
import Mathlib.Data.Finset.Card

/-!
# One outage, many workers

While the provider is down every call that reaches it fails transiently. The workers of a
channel share a breaker, so the calls that were under way when it opened are all that exceeds
the threshold: failures that they report late may trip the breaker again, which only moves the
end of the window. `outage_bounded` counts the calls.
-/

namespace NotificationDelivery

open EventMachine

namespace RouterState

/-- The time at which an event starts a provider call, if it does. -/
def started (s : RouterState) : RouterEvent → List Int
  | .allowRequest _ now => if (s.breaker.allowRequest now).1 then [now] else []
  | _ => []

/-- The times at which the provider calls of a run start, oldest first. -/
def providerCalls (s : RouterState) (events : List RouterEvent) : List Int :=
  trace step started s events

/-- The workers below `workers` that are in `send` with an admitted call. -/
def underWay (s : RouterState) (workers : Nat) : Finset Nat :=
  (Finset.range workers).filter fun thread => s.calls thread ≠ .idle

/-- The event is of one of the workers, and a provider call ends with a transient failure. -/
def FailsTransiently (workers : Nat) (event : RouterEvent) : Prop :=
  event.thread < workers ∧
    ∀ thread outcome, event = .finish thread outcome → ∃ what, outcome = .failure what true

variable {s t : RouterState} {workers thread : Nat} {now opened : Int} {call : Call}
  {history : List Report} {starts : List Int} {parameters : CircuitBreaker} {event : RouterEvent}

theorem card_under_way_le (s : RouterState) (workers : Nat) :
    (s.underWay workers).card ≤ workers := by
  have hle := Finset.card_filter_le (Finset.range workers) fun thread => s.calls thread ≠ .idle
  rwa [Finset.card_range] at hle

theorem mem_under_way : thread ∈ s.underWay workers ↔ thread < workers ∧
    s.calls thread ≠ .idle := by
  simp [underWay]

/-- An idle worker is admitted. -/
theorem card_under_way_admitted (hworker : thread < workers) (hidle : s.calls thread = .idle)
    (hcall : call ≠ .idle) :
    ((s.setCall thread call).underWay workers).card = (s.underWay workers).card + 1 := by
  have hinsert : (s.setCall thread call).underWay workers = insert thread (s.underWay workers) := by
    ext other
    rw [Finset.mem_insert, mem_under_way, mem_under_way]
    by_cases heq : other = thread
    · subst heq
      simp [hworker, hcall]
    · simp [set_call_other heq, heq]
  rw [hinsert, Finset.card_insert_of_notMem (by simp [mem_under_way, hidle])]

/-- A call that is under way goes on. -/
theorem under_way_continues (hbusy : s.calls thread ≠ .idle) (hcall : call ≠ .idle) :
    (s.setCall thread call).underWay workers = s.underWay workers := by
  ext other
  rw [mem_under_way, mem_under_way]
  by_cases heq : other = thread
  · subst heq
    simp [hbusy, hcall]
  · rw [set_call_other heq]

/-- A call that is under way ends. -/
theorem card_under_way_ended (hworker : thread < workers) (hbusy : s.calls thread ≠ .idle) :
    ((s.setCall thread .idle).underWay workers).card + 1 = (s.underWay workers).card := by
  have herase : (s.setCall thread .idle).underWay workers = (s.underWay workers).erase thread := by
    ext other
    rw [Finset.mem_erase, mem_under_way, mem_under_way]
    by_cases heq : other = thread
    · subst heq
      simp
    · simp [set_call_other heq, heq]
  rw [herase]
  exact Finset.card_erase_add_one (mem_under_way.mpr ⟨hworker, hbusy⟩)

/-- Every call that will report has failed. -/
def OnlyFailures (s : RouterState) : Prop :=
  ∀ thread epoch success, s.calls thread = .reporting epoch success → success = false

theorem OnlyFailures.set_call (h : s.OnlyFailures)
    (hcall : ∀ epoch success, call = .reporting epoch success → success = false) :
    (s.setCall thread call).OnlyFailures := by
  intro other epoch success hother
  by_cases heq : other = thread
  · subst heq
    rw [set_call_same] at hother
    exact hcall epoch success hother
  · rw [set_call_other heq] at hother
    exact h other epoch success hother

/-- In an outage nothing but failures is reported. -/
theorem OnlyFailures.step (h : s.OnlyFailures) (hfails : FailsTransiently workers event)
    (hstep : s.step event = some t) : t.OnlyFailures := by
  cases step_cases hstep with
  | admitted => exact OnlyFailures.set_call (s := { s with .. }) h (by simp)
  | rejected => exact h
  | returned thread epoch providerRef =>
      obtain ⟨what, hwhat⟩ := hfails.2 _ _ rfl
      exact absurd hwhat (by simp)
  | threwTransient | threwPermanent => exact h.set_call (by simp)
  | succeeded | tripped | counted => exact h.set_call (by simp)

/-- Before the threshold is reached the breaker is closed and has counted the failures, and every
call that has started has reported its failure or is under way. -/
structure Counting (parameters : CircuitBreaker) (workers : Nat) (history : List Report)
    (starts : List Int) (s : RouterState) : Prop where
  threshold : s.breaker.failureThreshold = parameters.failureThreshold
  duration : s.breaker.openDuration = parameters.openDuration
  closed : s.breaker.state = .closed
  count : s.breaker.failureCount = history.length
  below : history.length < period parameters.failureThreshold
  starts : starts.length = history.length + (s.underWay workers).card

/-- After the breaker has opened, calls that start before the end of the first window started
before it opened. The window has ended, or the breaker is open since then or later. -/
structure Tripped (parameters : CircuitBreaker) (workers : Nat) (opened : Int) (starts : List Int)
    (s : RouterState) : Prop where
  duration : s.breaker.openDuration = parameters.openDuration
  clock : opened ≤ s.clock
  window : opened + parameters.openDuration ≤ s.clock ∨
    s.breaker.state = .opened ∧ opened ≤ s.breaker.openedAt
  starts : starts.countP (· < opened + parameters.openDuration) ≤
    period parameters.failureThreshold + workers - 1

/-- What an outage has done so far. -/
def Outage (parameters : CircuitBreaker) (workers : Nat) (history : List Report)
    (starts : List Int) (s : RouterState) : Prop :=
  Counting parameters workers history starts s ∨
    ∃ report, history[period parameters.failureThreshold - 1]? = some report ∧
      Tripped parameters workers report.time starts s

/-- Before the threshold is reached a failure trips the breaker if and only if it is the last one of
the threshold. -/
theorem Counting.trips_iff (h : Counting parameters workers history starts s) :
    s.breaker.failureTrips = true ↔ history.length + 1 = period parameters.failureThreshold := by
  have hbelow := h.below
  simp only [CircuitBreaker.failureTrips, h.closed, h.threshold, h.count, reduceCtorEq,
    decide_false, Bool.false_or, decide_eq_true_eq]
  unfold period at *
  omega

/-- A step before the threshold is reached. -/
theorem Counting.step (h : Counting parameters workers history starts s) (honly : s.OnlyFailures)
    (hfails : FailsTransiently workers event) (hstep : s.step event = some t) :
    Outage parameters workers (history ++ s.reported event) (starts ++ s.started event) t := by
  have hstarts := h.starts
  cases step_cases hstep with
  | admitted thread now breaker hidle hclock hreq =>
      -- a closed breaker admits without a change
      have hsame : breaker = s.breaker := by
        have hclosed : s.breaker.allowRequest now = (true, s.breaker) := by
          simp [CircuitBreaker.allowRequest, h.closed]
        exact (Prod.mk.inj (hreq.symm.trans hclosed)).2
      subst hsame
      refine .inl ⟨h.threshold, h.duration, h.closed, ?_, ?_, ?_⟩
      · simpa [reported] using h.count
      · simpa [reported] using h.below
      · have hworker : thread < workers := hfails.1
        have hcard : ((({ s with clock := now } : RouterState).setCall thread
            (.calling s.trips)).underWay workers).card = (s.underWay workers).card + 1 :=
          card_under_way_admitted hworker hidle (by simp)
        simp only [started, hreq, if_true, reported, List.append_nil, List.length_append,
          List.length_singleton, hcard]
        omega
  | rejected thread now hidle hclock hreq =>
      simp [CircuitBreaker.allowRequest, h.closed] at hreq
  | returned thread epoch providerRef =>
      obtain ⟨what, hwhat⟩ := hfails.2 _ _ rfl
      exact absurd hwhat (by simp)
  | threwTransient thread epoch what hcall =>
      refine .inl ⟨h.threshold, h.duration, h.closed, ?_, ?_, ?_⟩
      · simpa [reported] using h.count
      · simpa [reported] using h.below
      · rw [under_way_continues (by simp [hcall]) (by simp)]
        simpa [reported, started] using hstarts
  | threwPermanent thread epoch what =>
      obtain ⟨_, hwhat⟩ := hfails.2 _ _ rfl
      exact absurd hwhat (by simp)
  | succeeded thread epoch now hcall => exact absurd (honly thread epoch true hcall) (by simp)
  | tripped thread epoch now hcall hclock htrips =>
      have hlast := h.trips_iff.mp htrips
      have hcard := card_under_way_le s workers
      refine .inr ⟨⟨false, now⟩, ?_, ?_, le_refl _, .inr ⟨?_, ?_⟩, ?_⟩
      · rw [← hlast, Nat.add_sub_cancel]
        simp [reported, hcall]
      · exact CircuitBreaker.on_failure_parameters.2.trans h.duration
      · simp [CircuitBreaker.on_failure_of_trips htrips]
      · simp [CircuitBreaker.on_failure_of_trips htrips]
      · -- the reporting call is one of those under way
        refine List.countP_le_length.trans ?_
        simp only [started, List.append_nil]
        omega
  | counted thread epoch now hcall hclock htrips =>
      obtain ⟨hbreaker, _, _⟩ := CircuitBreaker.on_failure_of_not_trips now htrips
      have hbelow := h.below
      have hmore : history.length + 1 ≠ period parameters.failureThreshold := by
        intro hlast
        rw [h.trips_iff.mpr hlast] at htrips
        exact absurd htrips (by simp)
      have hcard : ((s.setCall thread .idle).underWay workers).card + 1 =
          (s.underWay workers).card := card_under_way_ended hfails.1 (by simp [hcall])
      refine .inl ⟨?_, ?_, ?_, ?_, ?_, ?_⟩
      · exact CircuitBreaker.on_failure_parameters.1.trans h.threshold
      · exact CircuitBreaker.on_failure_parameters.2.trans h.duration
      · simp [hbreaker, h.closed]
      · simp [hbreaker, h.count, reported, hcall]
      · simp only [reported, hcall, List.length_append, List.length_singleton]
        omega
      · simp only [started, reported, hcall, List.append_nil, List.length_append,
          List.length_singleton]
        have hsame : ({ s.setCall thread .idle with
          clock := now, breaker := s.breaker.onFailure now } : RouterState).underWay workers =
            (s.setCall thread .idle).underWay workers := rfl
        rw [hsame]
        omega

/-- A step after the breaker has opened. -/
theorem Tripped.step (h : Tripped parameters workers opened starts s) (honly : s.OnlyFailures)
    (hfails : FailsTransiently workers event) (hstep : s.step event = some t) :
    Tripped parameters workers opened (starts ++ s.started event) t := by
  have hopened := h.clock
  have hduration := h.duration
  cases step_cases hstep with
  | admitted thread now breaker hidle hclock hreq =>
      -- a closed window admits nobody before its end, wherever late failures have moved it
      have hlate : opened + parameters.openDuration ≤ now := by
        rcases h.window with hended | ⟨hstate, hsince⟩
        · exact hended.trans hclock
        · rcases s.breaker.allow_request_cases now with
            ⟨hother, _⟩ | ⟨_, helapsed, _⟩ | ⟨_, _, hcase⟩ | ⟨hother, _⟩ | ⟨hother, _⟩
          · simp [hstate] at hother
          · omega
          · simp [hreq] at hcase
          · simp [hstate] at hother
          · simp [hstate] at hother
      refine ⟨?_, hopened.trans hclock, .inl hlate, ?_⟩
      · have hsame : (s.breaker.allowRequest now).2.openDuration = s.breaker.openDuration :=
          CircuitBreaker.allow_request_parameters.2
        rw [hreq] at hsame
        exact hsame.trans hduration
      · have hnot : ¬ now < opened + parameters.openDuration := not_lt.mpr hlate
        simpa [started, hreq, hnot] using h.starts
  | rejected thread now hidle hclock hreq =>
      refine ⟨hduration, hopened.trans hclock, h.window.imp_left fun hended =>
        hended.trans hclock, ?_⟩
      simpa [started, hreq] using h.starts
  | returned thread | threwTransient thread | threwPermanent thread =>
      exact ⟨hduration, hopened, h.window, by simpa [started] using h.starts⟩
  | succeeded thread epoch now hcall => exact absurd (honly thread epoch true hcall) (by simp)
  | tripped thread epoch now hcall hclock htrips =>
      refine ⟨CircuitBreaker.on_failure_parameters.2.trans hduration, hopened.trans hclock, .inr ?_,
        by simpa [started] using h.starts⟩
      simp only [CircuitBreaker.on_failure_of_trips htrips, true_and]
      exact hopened.trans hclock
  | counted thread epoch now hcall hclock htrips =>
      obtain ⟨hbreaker, _, _⟩ := CircuitBreaker.on_failure_of_not_trips now htrips
      refine ⟨CircuitBreaker.on_failure_parameters.2.trans hduration, hopened.trans hclock, ?_,
        by simpa [started] using h.starts⟩
      rw [hbreaker]
      exact h.window.imp_left fun hended => hended.trans hclock

/-- The step lemma. -/
theorem Outage.step (h : Outage parameters workers history starts s) (honly : s.OnlyFailures)
    (hfails : FailsTransiently workers event) (hstep : s.step event = some t) :
    Outage parameters workers (history ++ s.reported event) (starts ++ s.started event) t := by
  rcases h with hcounting | ⟨report, hreport, htripped⟩
  · exact hcounting.step honly hfails hstep
  · -- the report that opened the breaker stays where it is in the history
    refine .inr ⟨report, ?_, htripped.step honly hfails hstep⟩
    obtain ⟨hlength, _⟩ := List.getElem?_eq_some_iff.mp hreport
    rw [List.getElem?_append_left hlength]
    exact hreport

/-- The run lemma. -/
theorem outage_run (failureThreshold openDuration start : Int) (workers : Nat)
    {events : List RouterEvent} (hfails : ∀ event ∈ events, FailsTransiently workers event)
    (hrun : run step (initial failureThreshold openDuration start) events = some s) :
    s.OnlyFailures ∧ Outage { failureThreshold, openDuration } workers
      ((initial failureThreshold openDuration start).reports events)
      ((initial failureThreshold openDuration start).providerCalls events) s := by
  induction events using List.reverseRecOn generalizing s with
  | nil =>
      obtain rfl := Option.some.inj hrun
      refine ⟨by simp [OnlyFailures, initial], .inl ⟨rfl, rfl, rfl, rfl, period_pos _, ?_⟩⟩
      simp [providerCalls, trace, reports, underWay, initial]
  | append_singleton rest event ih =>
      obtain ⟨middle, hrest, hstep⟩ := run_concat.mp hrun
      obtain ⟨honly, houtage⟩ := ih (fun e he => hfails e (by simp [he])) hrest
      have hevent := hfails event (by simp)
      rw [reports_concat hrest, providerCalls, trace_concat hrest]
      exact ⟨honly.step hevent hstep, houtage.step honly hevent hstep⟩

/-- For every number of workers, threshold, open duration and interleaving of their calls while
every provider call fails transiently: the breaker is closed until the failure that completes the
threshold is reported, which opens it, and at most one call less than the threshold and the workers
together starts before the end of the window that this report opens. -/
theorem outage_bounded (failureThreshold openDuration start : Int) (workers : Nat)
    (events : List RouterEvent) (finish : RouterState)
    (hfails : ∀ event ∈ events, FailsTransiently workers event)
    (hrun : run step (initial failureThreshold openDuration start) events = some finish) :
    (∀ before s, before <+: events →
      run step (initial failureThreshold openDuration start) before = some s →
      ((initial failureThreshold openDuration start).reports before).length <
        period failureThreshold → s.breaker.state = .closed) ∧
    (∀ before thread now s t, before ++ [.report thread now] <+: events →
      run step (initial failureThreshold openDuration start) before = some s →
      s.step (.report thread now) = some t →
      ((initial failureThreshold openDuration start).reports before).length + 1 =
        period failureThreshold → t.breaker.state = .opened ∧ t.breaker.openedAt = now) ∧
    ∀ report, ((initial failureThreshold openDuration start).reports events)[
        period failureThreshold - 1]? = some report →
      ((initial failureThreshold openDuration start).providerCalls events).countP
        (· < report.time + openDuration) ≤ period failureThreshold + workers - 1 := by
  have hcounting : ∀ before s, before <+: events →
      run step (initial failureThreshold openDuration start) before = some s →
      ((initial failureThreshold openDuration start).reports before).length <
        period failureThreshold →
      s.OnlyFailures ∧ Counting { failureThreshold, openDuration } workers
        ((initial failureThreshold openDuration start).reports before)
        ((initial failureThreshold openDuration start).providerCalls before) s := by
    intro before s hpre hbefore hlength
    obtain ⟨honly, hcounting | ⟨report, hreport, _⟩⟩ :=
      outage_run failureThreshold openDuration start workers
        (fun event hmem => hfails event (hpre.subset hmem)) hbefore
    · exact ⟨honly, hcounting⟩
    · obtain ⟨hlt, _⟩ := List.getElem?_eq_some_iff.mp hreport
      exact absurd hlt (by show ¬ period failureThreshold - 1 < _; omega)
  refine ⟨fun before s hpre hbefore hlength => (hcounting before s hpre hbefore hlength).2.closed,
    fun before thread now s t hpre hbefore hstep hlast => ?_, fun report hreport => ?_⟩
  · obtain ⟨honly, hcount⟩ := hcounting before s ((List.prefix_append _ _).trans hpre) hbefore
      (by omega)
    have htrips := hcount.trips_iff.mpr hlast
    cases step_cases hstep with
    | succeeded _ epoch _ hcall => exact absurd (honly thread epoch true hcall) (by simp)
    | tripped => simp [CircuitBreaker.on_failure_of_trips htrips]
    | counted _ _ _ _ _ hother => simp [htrips] at hother
  · obtain ⟨_, hcounting | ⟨first, hfirst, htripped⟩⟩ :=
      outage_run failureThreshold openDuration start workers hfails hrun
    · obtain ⟨hlt, _⟩ := List.getElem?_eq_some_iff.mp hreport
      have hbelow : _ < period failureThreshold := hcounting.below
      omega
    · obtain rfl := Option.some.inj (hfirst.symm.trans hreport)
      exact htripped.starts

/-- Threshold 1, open duration 10, three workers: the first failure opens the breaker at time 1, and
the failures of the other two calls trip it again. -/
def threeWorkers : List RouterEvent :=
  [.allowRequest 0 0, .allowRequest 1 0, .allowRequest 2 0,
    .finish 0 (.failure "timed out" true), .report 0 1,
    .finish 1 (.failure "timed out" true), .report 1 2,
    .finish 2 (.failure "timed out" true), .report 2 3, .allowRequest 0 11, .allowRequest 1 13]

theorem outage_bounded_three_workers :
    (run step (initial 1 10 0) threeWorkers).isSome = true ∧
      ((initial 1 10 0).providerCalls threeWorkers).countP (· < 1 + 10) ≤ 3 := by
  have hfails : ∀ event ∈ threeWorkers, FailsTransiently 3 event := by
    simp [threeWorkers, FailsTransiently, RouterEvent.thread]
  obtain ⟨finish, hrun⟩ : ∃ finish, run step (initial 1 10 0) threeWorkers = some finish := ⟨_, rfl⟩
  refine ⟨by rw [hrun]; rfl, ?_⟩
  obtain ⟨_, _, hbound⟩ := outage_bounded 1 10 0 3 threeWorkers finish hfails hrun
  exact hbound ⟨false, 1⟩ (by decide)

end RouterState

end NotificationDelivery
