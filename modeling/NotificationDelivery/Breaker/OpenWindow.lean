import NotificationDelivery.Breaker.ProviderRouter
import NotificationDelivery.Library.Streak

/-!
# The length of an open window

After a trip the breaker is meant to reject for exactly `openDuration`. Calls admitted before
the trip still report: a late `onSuccess` closes the breaker, and late `onFailure`s are
counted while it is open and trip it again. `reports` lists the late reports of a run,
`Reopened` and `windowStart` say what they do in terms of that list alone, and
`exact_window_iff` says exactly which runs keep the window.
-/

namespace NotificationDelivery

open EventMachine Streak

/-- A report to the breaker: success or failure, and when. -/
structure Report where
  success : Bool
  time : Int
  deriving DecidableEq, Repr

namespace RouterState

/-- The report that an event makes, if any. -/
def reported (s : RouterState) : RouterEvent → List Report
  | .report thread now =>
      match s.calls thread with
      | .reporting _ success => [⟨success, now⟩]
      | _ => []
  | _ => []

/-- The reports made in a run, oldest first. -/
def reports (s : RouterState) : List RouterEvent → List Report
  | [] => []
  | event :: rest =>
      s.reported event ++
        match s.step event with
        | some next => next.reports rest
        | none => []

/-- The number of failures at which the breaker trips. -/
def period (failureThreshold : Int) : Nat := (max failureThreshold 1).toNat

/-- The reports since the trip have closed the breaker: one of them is a success, and fewer
failures than the threshold came after the last one. -/
def Reopened (failureThreshold : Int) (history : List Report) : Prop :=
  hasReset Report.success history = true ∧
    (streak Report.success history).length < period failureThreshold

/-- The time of the last report that tripped the breaker: every full period of failures since
the trip, or since the last success, trips it again. -/
def windowStart (failureThreshold opened : Int) (history : List Report) : Int :=
  ((streak Report.success history).map Report.time).getD
    ((streak Report.success history).length % period failureThreshold) opened

/-- Every request before the end of the window is rejected, and the first one at or after its
end is admitted. -/
def ExactWindow (start : RouterState) (opened : Int) (events : List RouterEvent) : Prop :=
  ∀ before thread now s, before ++ [.allowRequest thread now] <+: events →
    run step start before = some s →
    (now < opened + start.breaker.openDuration → (s.breaker.allowRequest now).1 = false) ∧
    (opened + start.breaker.openDuration ≤ now →
      (∀ other time, .allowRequest other time ∈ before →
        time < opened + start.breaker.openDuration) →
      (s.breaker.allowRequest now).1 = true)

/-- No request inside the window finds the breaker closed by the late reports, and the first
request at or after its end comes `openDuration` after the last trip by a late report, unless
they have closed the breaker. -/
def HarmlessReports (start : RouterState) (opened : Int) (events : List RouterEvent) : Prop :=
  ∀ before thread now, before ++ [.allowRequest thread now] <+: events →
    (now < opened + start.breaker.openDuration →
      ¬ Reopened start.breaker.failureThreshold (start.reports before)) ∧
    (opened + start.breaker.openDuration ≤ now →
      (∀ other time, .allowRequest other time ∈ before →
        time < opened + start.breaker.openDuration) →
      Reopened start.breaker.failureThreshold (start.reports before) ∨
        windowStart start.breaker.failureThreshold opened (start.reports before) +
          start.breaker.openDuration ≤ now)

theorem reports_eq_trace (s : RouterState) (events : List RouterEvent) :
    s.reports events = trace step reported s events := by
  induction events generalizing s with
  | nil => rfl
  | cons event rest ih =>
      simp only [reports, trace]
      cases s.step event with
      | none => rfl
      | some next => exact congrArg (s.reported event ++ ·) (ih next)

theorem reports_concat {s t : RouterState} {events : List RouterEvent} {event : RouterEvent}
    (hrun : run step s events = some t) :
    s.reports (events ++ [event]) = s.reports events ++ t.reported event := by
  rw [reports_eq_trace, reports_eq_trace, trace_concat hrun]

theorem period_pos (failureThreshold : Int) : 0 < period failureThreshold := by
  unfold period
  omega

/-- The breaker during the window is determined by the trip and the reports since. -/
structure InWindow (parameters : CircuitBreaker) (opened : Int) (history : List Report)
    (s : RouterState) : Prop where
  threshold : s.breaker.failureThreshold = parameters.failureThreshold
  duration : s.breaker.openDuration = parameters.openDuration
  count : s.breaker.failureCount =
    ((streak Report.success history).length % period parameters.failureThreshold : Nat)
  closed_iff : s.breaker.state = .closed ↔ Reopened parameters.failureThreshold history
  half_open : s.breaker.state ≠ .halfOpen
  opened_at : s.breaker.state = .opened →
    s.breaker.openedAt = windowStart parameters.failureThreshold opened history
  after_trip : s.breaker.state = .opened → opened ≤ s.breaker.openedAt
  clock : opened ≤ s.clock

namespace InWindow

variable {parameters : CircuitBreaker} {opened : Int} {history : List Report} {s : RouterState}

/-- The trip itself. -/
theorem trip {s : RouterState} {now : Int} (htrips : s.breaker.failureTrips = true)
    (t : RouterState) (hbreaker : t.breaker = s.breaker.onFailure now) (hclock : t.clock = now) :
    InWindow t.breaker now [] t := by
  rw [CircuitBreaker.on_failure_of_trips htrips] at hbreaker
  refine ⟨rfl, rfl, ?_, ?_, ?_, ?_, ?_, ?_⟩
  · simp [hbreaker, streak_nil]
  · simp [hbreaker, Reopened, has_reset_nil]
  · simp [hbreaker]
  · simp [hbreaker, windowStart, streak_nil]
  · simp [hbreaker]
  · simp [hclock]

/-- A change of the calls and of the clock leaves the window as it is. -/
theorem congr (h : InWindow parameters opened history s) {t : RouterState}
    (hbreaker : t.breaker = s.breaker) (hclock : s.clock ≤ t.clock) :
    InWindow parameters opened history t := by
  obtain ⟨h1, h2, h3, h4, h5, h6, h7, h8⟩ := h
  constructor <;> simp_all
  omega

theorem success (h : InWindow parameters opened history s) {t : RouterState} {now : Int}
    (hbreaker : t.breaker = s.breaker.onSuccess) (hclock : s.clock ≤ t.clock) :
    InWindow parameters opened (history ++ [⟨true, now⟩]) t := by
  have hstreak : streak Report.success (history ++ [⟨true, now⟩]) = [] := streak_concat_reset rfl
  refine ⟨by simp [hbreaker, CircuitBreaker.onSuccess, h.threshold],
    by simp [hbreaker, CircuitBreaker.onSuccess, h.duration], ?_, ?_, ?_, ?_, ?_, ?_⟩
  · simp [hbreaker, hstreak]
  · simp [hbreaker, Reopened, hstreak, has_reset_concat, period_pos]
  · simp [hbreaker]
  · simp [hbreaker]
  · simp [hbreaker]
  · exact h.clock.trans hclock

/-- A late failure that completes a period opens a new window. -/
theorem failure_trips (h : InWindow parameters opened history s) {t : RouterState} {now : Int}
    (htrips : s.breaker.failureTrips = true) (hbreaker : t.breaker = s.breaker.onFailure now)
    (hnow : s.clock ≤ now) (hclock : t.clock = now) :
    InWindow parameters opened (history ++ [⟨false, now⟩]) t := by
  have hstreak : streak Report.success (history ++ [⟨false, now⟩]) =
      ⟨false, now⟩ :: streak Report.success history := streak_concat rfl
  have hfull : period parameters.failureThreshold ≤
      (streak Report.success history).length % period parameters.failureThreshold + 1 := by
    have hcount := h.count
    have hthreshold := h.threshold
    simp only [CircuitBreaker.failureTrips, Bool.or_eq_true, decide_eq_true_eq, h.half_open,
      false_or] at htrips
    unfold period at *
    omega
  have hzero := counter_restarts (period_pos _) hfull
  rw [CircuitBreaker.on_failure_of_trips htrips] at hbreaker
  have hopened := h.clock
  refine ⟨by simp [hbreaker, h.threshold], by simp [hbreaker, h.duration], ?_, ?_, ?_, ?_, ?_, ?_⟩
  · simp [hbreaker, hstreak, hzero]
  · have := period_le_of_mod_eq_zero hzero
    simp only [hbreaker, reduceCtorEq, Reopened, hstreak, List.length_cons, false_iff, not_and]
    omega
  · simp [hbreaker]
  · simp [hbreaker, windowStart, hstreak, hzero]
  · simp only [hbreaker]
    omega
  · omega

/-- A late failure inside a period is counted only. -/
theorem failure_counted (h : InWindow parameters opened history s) {t : RouterState} {now : Int}
    (htrips : s.breaker.failureTrips = false) (hbreaker : t.breaker = s.breaker.onFailure now)
    (hnow : s.clock ≤ now) (hclock : t.clock = now) :
    InWindow parameters opened (history ++ [⟨false, now⟩]) t := by
  have hstreak : streak Report.success (history ++ [⟨false, now⟩]) =
      ⟨false, now⟩ :: streak Report.success history := streak_concat rfl
  obtain ⟨hfailure, _, hcount⟩ := CircuitBreaker.on_failure_of_not_trips now htrips
  rw [hfailure] at hbreaker
  have hbelow : (streak Report.success history).length % period parameters.failureThreshold + 1 <
      period parameters.failureThreshold := by
    have := h.count
    have := h.threshold
    unfold period at *
    omega
  have hnext := counter_advances hbelow
  have hopened := h.clock
  refine ⟨by simp [hbreaker, h.threshold], by simp [hbreaker, h.duration], ?_, ?_, ?_, ?_, ?_, ?_⟩
  · simp [hbreaker, hstreak, hnext, h.count]
  · have hclosed := h.closed_iff
    simp only [hbreaker, hclosed, Reopened, hstreak, has_reset_concat, List.length_cons,
      Bool.or_false, and_congr_right_iff]
    intro _
    constructor
    · intro hlt
      rw [Nat.mod_eq_of_lt hlt] at hbelow
      exact hbelow
    · omega
  · simp [hbreaker, h.half_open]
  · intro hstate
    simp only [hbreaker] at hstate ⊢
    rw [h.opened_at hstate]
    simp [windowStart, hstreak, hnext]
  · intro hstate
    simp only [hbreaker] at hstate ⊢
    exact h.after_trip hstate
  · omega

/-- A request inside the window leaves the breaker as it is. -/
theorem allow_request (h : InWindow parameters opened history s) {now : Int}
    (hinside : now < opened + parameters.openDuration) :
    (s.breaker.allowRequest now).2 = s.breaker := by
  rcases s.breaker.allow_request_cases now with
    ⟨_, hcase⟩ | ⟨hstate, hlate, _⟩ | ⟨_, _, hcase⟩ | ⟨_, _, hcase⟩ | ⟨hstate, _, _⟩
  · rw [hcase]
  · have := h.after_trip hstate
    have := h.duration
    omega
  · rw [hcase]
  · rw [hcase]
  · exact absurd hstate h.half_open

/-- The step lemma: reports and requests inside the window keep the breaker determined. -/
theorem step (h : InWindow parameters opened history s) {event : RouterEvent} {t : RouterState}
    (hinside : ∀ thread now, event = .allowRequest thread now →
      now < opened + parameters.openDuration)
    (hstep : s.step event = some t) :
    InWindow parameters opened (history ++ s.reported event) t := by
  cases step_cases hstep with
  | admitted thread now breaker hidle hclock hreq =>
      have hsame := h.allow_request (hinside thread now rfl)
      rw [hreq] at hsame
      simpa [reported] using h.congr (t := { s with breaker, clock := now }.setCall thread _)
        hsame hclock
  | rejected thread now hidle hclock =>
      simpa [reported] using h.congr (t := { s with clock := now }) rfl hclock
  | returned thread | threwTransient thread | threwPermanent thread =>
      simpa [reported] using h.congr (t := s.setCall thread _) rfl (le_refl _)
  | succeeded thread epoch now hcall hclock =>
      simpa [reported, hcall] using h.success (t := { s.setCall thread .idle with
        clock := now, breaker := s.breaker.onSuccess }) rfl hclock
  | tripped thread epoch now hcall hclock htrips =>
      simpa [reported, hcall] using h.failure_trips (t := { s.setCall thread .idle with
        clock := now, breaker := s.breaker.onFailure now
        trips := s.trips + 1, lastTrip := some now }) htrips rfl hclock rfl
  | counted thread epoch now hcall hclock htrips =>
      simpa [reported, hcall] using h.failure_counted (t := { s.setCall thread .idle with
        clock := now, breaker := s.breaker.onFailure now }) htrips rfl hclock rfl

/-- The run lemma: until the first request after the window, the breaker is determined by the
reports of the run. -/
theorem run {start : RouterState} (h : InWindow start.breaker opened [] start)
    {events : List RouterEvent}
    (hinside : ∀ thread now, .allowRequest thread now ∈ events →
      now < opened + start.breaker.openDuration)
    (hrun : EventMachine.run RouterState.step start events = some s) :
    InWindow start.breaker opened (start.reports events) s := by
  induction events using List.reverseRecOn generalizing s with
  | nil =>
      obtain rfl := Option.some.inj hrun
      exact h
  | append_singleton rest event ih =>
      obtain ⟨middle, hrest, hstep⟩ := run_concat.mp hrun
      rw [reports_concat hrest]
      refine (ih (fun thread now hmem => hinside thread now (by simp [hmem])) hrest).step ?_ hstep
      rintro thread now rfl
      exact hinside thread now (by simp)

/-- The answer to a request is determined by the reports as well. -/
theorem admitted_iff (h : InWindow parameters opened history s) (now : Int) :
    (s.breaker.allowRequest now).1 = true ↔
      Reopened parameters.failureThreshold history ∨
        windowStart parameters.failureThreshold opened history + parameters.openDuration ≤ now := by
  have hclosed := h.closed_iff
  have hduration := h.duration
  rcases s.breaker.allow_request_cases now with
    ⟨hstate, hcase⟩ | ⟨hstate, hlate, hcase⟩ | ⟨hstate, hearly, hcase⟩ | ⟨hstate, _, _⟩ |
      ⟨hstate, _, _⟩
  · simp [hcase, ← hclosed, hstate]
  · have := h.opened_at hstate
    simp only [hcase, true_iff]
    right
    omega
  · have := h.opened_at hstate
    simp only [hcase, ← hclosed, hstate, reduceCtorEq, false_or, Bool.false_eq_true, false_iff]
    omega
  · exact absurd hstate h.half_open
  · exact absurd hstate h.half_open

/-- Late reports never move the start of the window before the trip. -/
theorem le_window_start (h : InWindow parameters opened history s)
    (hnot : ¬ Reopened parameters.failureThreshold history) :
    opened ≤ windowStart parameters.failureThreshold opened history := by
  have hstate : s.breaker.state = .opened := by
    cases hcase : s.breaker.state with
    | closed => exact absurd (h.closed_iff.mp hcase) hnot
    | opened => rfl
    | halfOpen => exact absurd hcase h.half_open
  rw [← h.opened_at hstate]
  exact h.after_trip hstate

end InWindow

theorem step_clock {s t : RouterState} {event : RouterEvent} (h : s.step event = some t) :
    s.clock ≤ t.clock ∧
      ∀ thread now, event = .allowRequest thread now → s.clock ≤ now ∧ now ≤ t.clock := by
  cases step_cases h with
  | admitted thread now breaker hidle hclock | rejected thread now hidle hclock =>
      refine ⟨hclock, ?_⟩
      intro _ _ heq
      obtain ⟨rfl, rfl⟩ := RouterEvent.allowRequest.inj heq
      exact ⟨hclock, le_refl _⟩
  | returned | threwTransient | threwPermanent => exact ⟨le_refl _, by simp⟩
  | succeeded _ _ _ _ hclock | tripped _ _ _ _ hclock | counted _ _ _ _ hclock =>
      exact ⟨hclock, by simp⟩

/-- The clock of the last state of a run is past all its requests. -/
theorem request_le_clock {start s : RouterState} {events : List RouterEvent} {thread : Nat}
    {now : Int} (hrun : EventMachine.run step start events = some s)
    (hmem : .allowRequest thread now ∈ events) : now ≤ s.clock := by
  induction events using List.reverseRecOn generalizing s with
  | nil => simp at hmem
  | append_singleton rest event ih =>
      obtain ⟨middle, hrest, hstep⟩ := run_concat.mp hrun
      obtain ⟨hmono, htime⟩ := step_clock hstep
      rcases List.mem_append.mp hmem with hold | hlast
      · exact (ih hrest hold).trans hmono
      · exact (htime thread now (List.mem_singleton.mp hlast).symm).2

/-- For every state in which a failure trips the breaker, at time `opened`, and every later run of
requests and reports: the window lasts exactly `openDuration` if and only if the late reports
are harmless. -/
theorem exact_window_iff (s start finish : RouterState) (thread epoch : Nat) (opened : Int)
    (events : List RouterEvent) (hcall : s.calls thread = .reporting epoch false)
    (htrips : s.breaker.failureTrips = true) (htrip : s.step (.report thread opened) = some start)
    (hrun : EventMachine.run step start events = some finish) :
    ExactWindow start opened events ↔ HarmlessReports start opened events := by
  have hstart : InWindow start.breaker opened [] start := by
    cases step_cases htrip with
    | succeeded _ _ _ hother => simp [hcall] at hother
    | counted _ _ _ _ _ hother => simp [htrips] at hother
    | tripped => exact .trip htrips _ rfl rfl
  constructor
  · intro hexact before other now hpre
    obtain ⟨t, ht⟩ := run_prefix hrun hpre
    obtain ⟨middle, hbefore, hstep⟩ := run_concat.mp ht
    obtain ⟨hinside, hfirst⟩ := hexact before other now middle hpre hbefore
    have hclock := ((step_clock hstep).2 other now rfl).1
    constructor
    · intro hearly hreopened
      have hwindow := hstart.run (fun _ _ hmem =>
        lt_of_le_of_lt ((request_le_clock hbefore hmem).trans hclock) hearly) hbefore
      have hadmits := (hwindow.admitted_iff now).mpr (Or.inl hreopened)
      simp [hinside hearly] at hadmits
    · intro hlate hold
      exact ((hstart.run hold hbefore).admitted_iff now).mp (hfirst hlate hold)
  · intro hharmless before other now middle hpre hbefore
    obtain ⟨hinside, hfirst⟩ := hharmless before other now hpre
    obtain ⟨t, ht⟩ := run_prefix hrun hpre
    obtain ⟨_, hbefore', hstep⟩ := run_concat.mp ht
    obtain rfl := Option.some.inj (hbefore.symm.trans hbefore')
    have hclock := ((step_clock hstep).2 other now rfl).1
    constructor
    · intro hearly
      have hwindow := hstart.run (fun _ _ hmem =>
        lt_of_le_of_lt ((request_le_clock hbefore hmem).trans hclock) hearly) hbefore
      have hlater := hwindow.le_window_start (hinside hearly)
      rw [Bool.eq_false_iff]
      intro hadmits
      rcases (hwindow.admitted_iff now).mp hadmits with hreopened | hwait
      · exact hinside hearly hreopened
      · omega
    · intro hlate hold
      exact ((hstart.run hold hbefore).admitted_iff now).mpr (hfirst hlate hold)

/-- Threshold 1, open duration 10: two calls are admitted, and the first one fails. -/
def beforeTrip : List RouterEvent :=
  [.allowRequest 0 0, .allowRequest 1 0, .finish 0 (.failure "timed out" true)]

/-- The state in which the failure of the first call is about to be reported. -/
def failing : RouterState :=
  (EventMachine.run step (initial 1 10 0) beforeTrip).getD (initial 1 10 0)

/-- The state after the trip that the report causes at time 0. -/
def opened : RouterState :=
  (failing.step (.report 0 0)).getD failing

/-- The other call succeeds late and a request follows inside the window. -/
def lateSuccess : List RouterEvent :=
  [.finish 1 (.result "email-1"), .report 1 5, .allowRequest 2 6]

/-- The other call fails late and the first request after the window follows. -/
def lateFailure : List RouterEvent :=
  [.finish 1 (.failure "timed out" true), .report 1 5, .allowRequest 2 10]

theorem exact_window_iff_late_success :
    ∃ finish, EventMachine.run step opened lateSuccess = some finish ∧
      (ExactWindow opened 0 lateSuccess ↔ HarmlessReports opened 0 lateSuccess) :=
  ⟨_, rfl, exact_window_iff failing opened _ 0 0 0 lateSuccess rfl rfl rfl rfl⟩

/-- A late success ends the window early, and a late failure makes it longer. -/
theorem open_window_not_exact :
    EventMachine.run step (initial 1 10 0) beforeTrip = some failing ∧
      failing.breaker.failureTrips = true ∧ failing.step (.report 0 0) = some opened ∧
      ¬ ExactWindow opened 0 lateSuccess ∧ ¬ ExactWindow opened 0 lateFailure := by
  refine ⟨rfl, rfl, rfl, ?_, ?_⟩
  · intro hexact
    have h := (hexact [.finish 1 (.result "email-1"), .report 1 5] 2 6 _
      (List.prefix_refl _) rfl).1 (by decide)
    exact absurd h (by decide)
  · intro hexact
    have h := (hexact [.finish 1 (.failure "timed out" true), .report 1 5] 2 10 _
      (List.prefix_refl _) rfl).2 (by decide) (by simp)
    exact absurd h (by decide)

end RouterState

end NotificationDelivery
