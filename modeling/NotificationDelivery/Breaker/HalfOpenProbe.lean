import NotificationDelivery.Breaker.ProviderRouter

/-!
# Probes of a half-open breaker

`allowRequest` admits a request to a half-open breaker on two paths: the one that moves the
breaker from Open to HalfOpen, and the HalfOpen branch. Only the second one sets
`probeInFlight`. `probe_unique_iff` says exactly which runs keep the promise of one probe at
a time, and `two_probes_admitted` runs two probes at once.
-/

namespace NotificationDelivery

open EventMachine

namespace RouterState

/-- While the breaker is half-open, at most one request admitted since the most recent trip
is in its provider call. -/
def ProbeUnique (s : RouterState) : Prop :=
  s.breaker.state = .halfOpen → ∀ first second, s.Probing first → s.Probing second → first = second

/-- No request arrives at a half-open breaker with the probe flag unset while a request admitted
since the most recent trip is in its provider call. -/
def ProbeFinished (s : RouterState) : RouterEvent → Prop
  | .allowRequest _ _ =>
      s.breaker.state = .halfOpen → s.breaker.probeInFlight = false → ∀ thread, ¬ s.Probing thread
  | _ => True

/-- What the runs with one probe at a time keep: admissions belong to past trips, an open
breaker has no probe, and a half-open one has at most one. -/
structure OneProbe (s : RouterState) : Prop where
  epoch_le : ∀ thread epoch, s.calls thread = .calling epoch → epoch ≤ s.trips
  opened : s.breaker.state = .opened → ∀ thread, ¬ s.Probing thread
  unique : s.ProbeUnique

theorem one_probe_initial (failureThreshold openDuration start : Int) :
    (initial failureThreshold openDuration start).OneProbe where
  epoch_le := by simp [initial]
  opened := by simp [initial]
  unique := by simp [ProbeUnique, initial]

variable {s t : RouterState}

/-- A thread that leaves its provider call is not a probe any more, and nobody becomes one. -/
theorem OneProbe.set_call (h : s.OneProbe) {thread : Nat} {call : Call}
    (hcall : ∀ epoch, call ≠ .calling epoch) : (s.setCall thread call).OneProbe := by
  have hback : ∀ other epoch, (s.setCall thread call).calls other = .calling epoch →
      s.calls other = .calling epoch := by
    intro other epoch hother
    by_cases heq : other = thread
    · subst heq
      rw [set_call_same] at hother
      exact absurd hother (hcall epoch)
    · rwa [set_call_other heq] at hother
  refine ⟨?_, ?_, ?_⟩
  · intro other epoch hother
    exact h.epoch_le other epoch (hback other epoch hother)
  · intro hstate other hother
    exact h.opened hstate other (hback other _ hother)
  · intro hstate first second hfirst hsecond
    exact h.unique hstate first second (hback first _ hfirst) (hback second _ hsecond)

/-- A breaker that is neither open nor half-open constrains no request. -/
theorem OneProbe.of_closed
    (hepoch : ∀ thread epoch, s.calls thread = .calling epoch → epoch ≤ s.trips)
    (hstate : s.breaker.state = .closed) : s.OneProbe where
  epoch_le := hepoch
  opened := by simp [hstate]
  unique := by simp [ProbeUnique, hstate]

theorem epoch_le_admission (h : s.OneProbe) (thread : Nat) (now : Int) (breaker : CircuitBreaker)
    (other epoch : Nat)
    (hother : ({ s with breaker, clock := now }.setCall thread (.calling s.trips)).calls other =
      .calling epoch) : epoch ≤ s.trips := by
  by_cases heq : other = thread
  · subst heq
    rw [set_call_same] at hother
    cases hother
    exact Nat.le_refl _
  · rw [set_call_other heq] at hother
    exact h.epoch_le other epoch hother

/-- Admitting the only probe leaves one probe. -/
theorem OneProbe.admission (h : s.OneProbe) (hnone : ∀ thread, ¬ s.Probing thread) (thread : Nat)
    (now : Int) {breaker : CircuitBreaker} (hstate : breaker.state ≠ .opened) :
    ({ s with breaker, clock := now }.setCall thread (.calling s.trips)).OneProbe := by
  refine ⟨epoch_le_admission h thread now breaker, fun hopened => absurd hopened hstate, ?_⟩
  have honly : ∀ other,
      ({ s with breaker, clock := now }.setCall thread (.calling s.trips)).Probing other →
        other = thread := by
    intro other hother
    by_contra hne
    refine hnone other ?_
    unfold Probing at hother
    rwa [set_call_other hne] at hother
  intro _ first second hfirst hsecond
  rw [honly first hfirst, honly second hsecond]

/-- A step that waits for the running probe keeps one probe at a time. -/
theorem OneProbe.step (h : s.OneProbe) {event : RouterEvent} (hfinished : s.ProbeFinished event)
    (hstep : s.step event = some t) : t.OneProbe := by
  cases step_cases hstep with
  | admitted thread now breaker hidle hclock hreq =>
      rcases s.breaker.allow_request_cases now with
        ⟨hstate, hcase⟩ | ⟨hstate, _, hcase⟩ | ⟨_, _, hcase⟩ | ⟨_, _, hcase⟩ |
          ⟨hstate, hprobe, hcase⟩
      · obtain rfl : s.breaker = breaker := by simpa [hreq] using hcase.symm
        exact .of_closed (epoch_le_admission h thread now _) hstate
      · obtain rfl : _ = breaker := by simpa [hreq] using hcase.symm
        exact h.admission (h.opened hstate) thread now (by simp)
      · simp [hreq] at hcase
      · simp [hreq] at hcase
      · obtain rfl : _ = breaker := by simpa [hreq] using hcase.symm
        exact h.admission (hfinished hstate hprobe) thread now (by simp [hstate])
  | rejected => exact ⟨h.epoch_le, h.opened, h.unique⟩
  | returned => exact h.set_call (by simp)
  | threwTransient => exact h.set_call (by simp)
  | threwPermanent => exact h.set_call (by simp)
  | succeeded => exact .of_closed (h.set_call (by simp)).epoch_le rfl
  | tripped thread epoch now hcall hclock htrips =>
      have hset : (s.setCall thread .idle).OneProbe := h.set_call (by simp)
      have hepoch := hset.epoch_le
      have hstate : (s.breaker.onFailure now).state = .opened := by
        rw [CircuitBreaker.on_failure_of_trips htrips]
      refine ⟨fun other e he => Nat.le_succ_of_le (hepoch other e he), ?_, ?_⟩
      · intro _ other hother
        -- admissions of this epoch would be numbered past the trips seen so far
        exact absurd (hepoch other _ hother) (Nat.not_succ_le_self _)
      · intro hhalf
        simp [hstate] at hhalf
  | counted thread epoch now hcall hclock htrips =>
      obtain ⟨hbreaker, hhalf, _⟩ := CircuitBreaker.on_failure_of_not_trips now htrips
      have hset : (s.setCall thread .idle).OneProbe := h.set_call (by simp)
      refine ⟨hset.epoch_le, ?_, ?_⟩
      · intro hopened
        exact hset.opened (by simpa [hbreaker] using hopened)
      · intro hstate
        simp [hbreaker, hhalf] at hstate

/-- A request that does not wait for the running probe becomes a second one. -/
theorem probe_unique_broken {event : RouterEvent} (hnot : ¬ s.ProbeFinished event)
    (hstep : s.step event = some t) : ¬ t.ProbeUnique := by
  cases event with
  | finish => exact absurd trivial hnot
  | report => exact absurd trivial hnot
  | allowRequest thread now =>
      simp only [ProbeFinished, not_forall, not_not] at hnot
      obtain ⟨hstate, hprobe, other, hother⟩ := hnot
      cases step_cases hstep with
      | rejected _ _ _ _ hreq => simp [CircuitBreaker.allowRequest, hstate, hprobe] at hreq
      | admitted _ _ breaker hidle _ hreq =>
          have hne : other ≠ thread := by
            rintro rfl
            simp [Probing, hidle] at hother
          have hhalf : breaker.state = .halfOpen := by
            simp only [CircuitBreaker.allowRequest, hstate, hprobe] at hreq
            obtain ⟨_, rfl⟩ := Prod.mk.inj hreq
            rfl
          intro hunique
          refine hne (hunique hhalf other thread ?_ (set_call_same _))
          unfold Probing
          rwa [set_call_other hne]

/-- For every number of threads and every interleaving, a run admits one probe at a time in all
its states exactly when each of its requests at a half-open breaker with the flag unset waits
until the request that opened the half-open window has finished its provider call. -/
theorem probe_unique_iff (failureThreshold openDuration start : Int) (events : List RouterEvent)
    (finish : RouterState)
    (hrun : run step (initial failureThreshold openDuration start) events = some finish) :
    (∀ s, Visits step (initial failureThreshold openDuration start) events s → s.ProbeUnique) ↔
      ∀ s event, Performs step (initial failureThreshold openDuration start) events s event →
        s.ProbeFinished event := by
  constructor
  · intro hunique s event hperforms
    by_contra hnot
    obtain ⟨next, hstep⟩ := hperforms.exists_next hrun
    exact probe_unique_broken hnot hstep (hunique next (hperforms.visits_next hstep))
  · intro hfinished s hvisits
    refine (visits_invariant OneProbe (one_probe_initial _ _ _) ?_ hvisits).unique
    intro state event next hperforms hone hstep
    exact hone.step (hfinished state event hperforms) hstep

/-- Threshold 1, open duration 10: the call of thread 0 trips the breaker at time 0, thread 1
opens the half-open window at time 10 and thread 2 follows it before it returns. -/
def twoProbes : List RouterEvent :=
  [.allowRequest 0 0, .finish 0 (.failure "timed out" true), .report 0 0,
    .allowRequest 1 10, .allowRequest 2 11]

theorem probe_unique_iff_two_probes :
    ∃ finish, run step (initial 1 10 0) twoProbes = some finish ∧
      ((∀ s, Visits step (initial 1 10 0) twoProbes s → s.ProbeUnique) ↔
        ∀ s event, Performs step (initial 1 10 0) twoProbes s event → s.ProbeFinished event) :=
  ⟨_, rfl, probe_unique_iff 1 10 0 twoProbes _ rfl⟩

/-- After `twoProbes` the breaker is half-open with two probes in their provider calls. -/
theorem two_probes_admitted :
    ∃ finish, run step (initial 1 10 0) twoProbes = some finish ∧
      finish.breaker.state = .halfOpen ∧ finish.Probing 1 ∧ finish.Probing 2 ∧
      ¬ finish.ProbeUnique := by
  refine ⟨_, rfl, by decide, rfl, rfl, ?_⟩
  intro hunique
  exact absurd (hunique (by decide) 1 2 rfl rfl) (by decide)

end RouterState

end NotificationDelivery
