import NotificationDelivery.Breaker.ProviderRouter

/-!
# Recovery of an idle breaker

The probe flag of a half-open breaker is cleared by a report only, and a permanent
`ProviderException` is not reported. `recovers_iff` says exactly which runs can always
recover, and `idle_breaker_wedged` ends in an idle breaker that rejects every request.
-/

namespace NotificationDelivery

open EventMachine

namespace RouterState

/-- A thread that calls `send` at this time reaches the provider. -/
def Admits (s : RouterState) (thread : Nat) (now : Int) : Prop :=
  ∃ t, s.step (.allowRequest thread now) = some t ∧ t.calls thread = .calling s.trips

/-- Without a call in flight, every request made at least `openDuration` after the most recent
trip is admitted, and so some future request is. -/
def Recovers (s : RouterState) : Prop :=
  (∀ thread, ¬ s.InFlight thread) →
    (∀ thread now, s.clock ≤ now →
      (∀ trip, s.lastTrip = some trip → trip + s.breaker.openDuration ≤ now) →
      s.Admits thread now) ∧
    ∃ thread now, s.clock ≤ now ∧ s.Admits thread now

/-- A call that fails permanently at a half-open breaker with the probe flag set leaves another
call in flight. -/
def ProbeReported (s : RouterState) : RouterEvent → Prop
  | .finish thread (.failure _ false) =>
      s.breaker.state = .halfOpen → s.breaker.probeInFlight = true →
        ∃ other, other ≠ thread ∧ s.InFlight other
  | _ => True

/-- The probe flag is held only while some call will still report, and an open breaker was
opened by the most recent trip. -/
structure FlagHeld (s : RouterState) : Prop where
  in_flight : s.breaker.state = .halfOpen → s.breaker.probeInFlight = true →
    ∃ thread, s.InFlight thread
  last_trip : s.breaker.state = .opened → s.lastTrip = some s.breaker.openedAt

variable {s t : RouterState}

/-- An idle breaker that holds no probe flag admits a request after the open window. -/
theorem FlagHeld.admits (h : s.FlagHeld) (hidle : ∀ thread, ¬ s.InFlight thread) (thread : Nat)
    {now : Int} (hclock : s.clock ≤ now)
    (htrip : ∀ trip, s.lastTrip = some trip → trip + s.breaker.openDuration ≤ now) :
    s.Admits thread now := by
  have hcall : s.calls thread = .idle := not_not.mp (hidle thread)
  have hadmits : (s.breaker.allowRequest now).1 = true := by
    rcases s.breaker.allow_request_cases now with
      ⟨_, hcase⟩ | ⟨_, _, hcase⟩ | ⟨hstate, hearly, _⟩ | ⟨hstate, hprobe, _⟩ | ⟨_, _, hcase⟩
    · simp [hcase]
    · simp [hcase]
    · have := htrip _ (h.last_trip hstate)
      omega
    · obtain ⟨other, hother⟩ := h.in_flight hstate hprobe
      exact absurd hother (hidle other)
    · simp [hcase]
  refine ⟨_, step_allow_request hcall hclock, ?_⟩
  simp [hadmits]

theorem FlagHeld.recovers (h : s.FlagHeld) : s.Recovers := by
  intro hidle
  refine ⟨fun thread now hclock htrip => h.admits hidle thread hclock htrip, 0, ?_⟩
  refine ⟨max s.clock ((s.lastTrip.getD 0) + s.breaker.openDuration), le_max_left _ _, ?_⟩
  refine h.admits hidle 0 (le_max_left _ _) ?_
  intro trip htrip
  simp [htrip]

theorem flag_held_initial (failureThreshold openDuration start : Int) :
    (initial failureThreshold openDuration start).FlagHeld where
  in_flight := by simp [initial]
  last_trip := by simp [initial]

theorem in_flight_set_call {thread : Nat} {call : Call} (h : call ≠ .idle) :
    (s.setCall thread call).InFlight thread := by
  simp [InFlight, h]

/-- A step after which some call can still clear the flag keeps the flag held. -/
theorem FlagHeld.step (h : s.FlagHeld) {event : RouterEvent} (hreported : s.ProbeReported event)
    (hstep : s.step event = some t) : t.FlagHeld := by
  cases step_cases hstep with
  | admitted thread now breaker hidle hclock hreq =>
      refine ⟨fun _ _ => ⟨thread, in_flight_set_call (by simp)⟩, ?_⟩
      intro hopened
      rcases s.breaker.allow_request_cases now with
        ⟨hstate, hcase⟩ | ⟨_, _, hcase⟩ | ⟨_, _, hcase⟩ | ⟨_, _, hcase⟩ | ⟨hstate, _, hcase⟩ <;>
        simp only [hreq, Prod.mk.injEq, reduceCtorEq, false_and, true_and] at hcase <;>
        subst hcase <;> simp_all
  | rejected => exact ⟨h.in_flight, h.last_trip⟩
  | returned thread => exact ⟨fun _ _ => ⟨thread, in_flight_set_call (by simp)⟩, h.last_trip⟩
  | threwTransient thread => exact ⟨fun _ _ => ⟨thread, in_flight_set_call (by simp)⟩, h.last_trip⟩
  | threwPermanent thread epoch what hcall =>
      refine ⟨?_, h.last_trip⟩
      intro hstate hprobe
      obtain ⟨other, hne, hother⟩ := hreported hstate hprobe
      refine ⟨other, ?_⟩
      unfold InFlight
      rwa [set_call_other hne]
  | succeeded => exact ⟨by simp, by simp⟩
  | tripped thread epoch now hcall hclock htrips =>
      exact ⟨by simp, by simp [CircuitBreaker.on_failure_of_trips htrips]⟩
  | counted thread epoch now hcall hclock htrips =>
      obtain ⟨hbreaker, _, _⟩ := CircuitBreaker.on_failure_of_not_trips now htrips
      exact ⟨by simp, by simpa [hbreaker] using h.last_trip⟩

/-- A permanent failure of the last call in flight leaves the flag of a half-open breaker set. -/
theorem recovers_broken {event : RouterEvent} (hnot : ¬ s.ProbeReported event)
    (hstep : s.step event = some t) : ¬ t.Recovers := by
  cases step_cases hstep with
  | admitted => exact absurd trivial hnot
  | rejected => exact absurd trivial hnot
  | returned => exact absurd trivial hnot
  | threwTransient => exact absurd trivial hnot
  | succeeded => exact absurd trivial hnot
  | tripped => exact absurd trivial hnot
  | counted => exact absurd trivial hnot
  | threwPermanent thread epoch what hcall =>
      simp only [ProbeReported, not_forall, not_exists, not_and] at hnot
      obtain ⟨hstate, hprobe, hothers⟩ := hnot
      intro hrecovers
      have hidle : ∀ other, ¬ (s.setCall thread .idle).InFlight other := by
        intro other hother
        by_cases heq : other = thread
        · subst heq
          exact hother (set_call_same _)
        · unfold InFlight at hother
          rw [set_call_other heq] at hother
          exact hothers other heq hother
      obtain ⟨_, other, now, hclock, u, hu, hcalling⟩ := hrecovers hidle
      have hother : (s.setCall thread .idle).calls other = .idle := not_not.mp (hidle other)
      rw [step_allow_request hother hclock] at hu
      obtain rfl := Option.some.inj hu
      simp [CircuitBreaker.allowRequest, hstate, hprobe, hother] at hcalling

/-- For every threshold, open duration and interleaving, a run recovers in all its idle states
exactly when none of its calls fails permanently, as the last call in flight, at a half-open
breaker with the probe flag set. -/
theorem recovers_iff (failureThreshold openDuration start : Int) (events : List RouterEvent)
    (finish : RouterState)
    (hrun : run step (initial failureThreshold openDuration start) events = some finish) :
    (∀ s, Visits step (initial failureThreshold openDuration start) events s → s.Recovers) ↔
      ∀ s event, Performs step (initial failureThreshold openDuration start) events s event →
        s.ProbeReported event := by
  constructor
  · intro hrecovers s event hperforms
    by_contra hnot
    obtain ⟨next, hstep⟩ := hperforms.exists_next hrun
    exact recovers_broken hnot hstep (hrecovers next (hperforms.visits_next hstep))
  · intro hreported s hvisits
    refine (visits_invariant FlagHeld (flag_held_initial _ _ _) ?_ hvisits).recovers
    intro state event next hperforms hheld hstep
    exact hheld.step (hreported state event hperforms) hstep

/-- Threshold 1, open duration 10: a trip at time 0, then two calls after the window that the
provider rejects permanently, one after the other. -/
def twoRejections : List RouterEvent :=
  [.allowRequest 0 0, .finish 0 (.failure "timed out" true), .report 0 0,
    .allowRequest 0 10, .finish 0 (.failure "rejected recipient" false),
    .allowRequest 0 20, .finish 0 (.failure "rejected recipient" false)]

theorem recovers_iff_two_rejections :
    ∃ finish, run step (initial 1 10 0) twoRejections = some finish ∧
      ((∀ s, Visits step (initial 1 10 0) twoRejections s → s.Recovers) ↔
        ∀ s event, Performs step (initial 1 10 0) twoRejections s event →
          s.ProbeReported event) :=
  ⟨_, rfl, recovers_iff 1 10 0 twoRejections _ rfl⟩

/-- After `twoRejections` no call is in flight, and the breaker admits no request at any later
time. -/
theorem idle_breaker_wedged :
    ∃ finish, run step (initial 1 10 0) twoRejections = some finish ∧
      (∀ thread, ¬ finish.InFlight thread) ∧
      (∀ thread now, finish.clock ≤ now → ¬ finish.Admits thread now) ∧ ¬ finish.Recovers := by
  obtain ⟨finish, hrun⟩ : ∃ finish, run step (initial 1 10 0) twoRejections = some finish :=
    ⟨_, rfl⟩
  have hfields : (run step (initial 1 10 0) twoRejections).map
      (fun s => (s.calls 0, s.breaker.state, s.breaker.probeInFlight)) =
        some (.idle, .halfOpen, true) := by decide
  simp only [hrun, Option.map_some, Option.some.injEq, Prod.mk.injEq] at hfields
  obtain ⟨hzero, hstate, hprobe⟩ := hfields
  have hcalls : ∀ thread, finish.calls thread = .idle := by
    intro thread
    by_cases heq : thread = 0
    · rw [heq, hzero]
    · exact run_calls_other hrun (by simpa [twoRejections, RouterEvent.thread] using heq)
  have hrejects : ∀ thread now, finish.clock ≤ now → ¬ finish.Admits thread now := by
    rintro thread now hclock ⟨t, hstep, hcalling⟩
    rw [step_allow_request (hcalls thread) hclock] at hstep
    obtain rfl := Option.some.inj hstep
    simp [CircuitBreaker.allowRequest, hstate, hprobe, hcalls] at hcalling
  have hidle : ∀ thread, ¬ finish.InFlight thread := fun thread h => h (hcalls thread)
  refine ⟨finish, hrun, hidle, hrejects, ?_⟩
  intro hrecovers
  obtain ⟨_, thread, now, hclock, hadmits⟩ := hrecovers hidle
  exact hrejects thread now hclock hadmits

end RouterState

end NotificationDelivery
