import Mathlib.Algebra.Order.Ring.Int

/-!
# The circuit breaker of one provider

After `include/notification/CircuitBreaker.hpp`. Every method runs under the breaker's
mutex, so a call is one function on the breaker; the steady clock it reads is the argument
`now`, and `openDuration` is counted in the same ticks.
-/

namespace NotificationDelivery

/-- `CircuitBreaker::State`. -/
inductive BreakerState where
  | closed
  | opened
  | halfOpen
  deriving DecidableEq, Repr

/-- The fields of `CircuitBreaker`, with the initializers of the class as defaults. -/
structure CircuitBreaker where
  failureThreshold : Int
  openDuration : Int
  state : BreakerState := .closed
  failureCount : Int := 0
  probeInFlight : Bool := false
  openedAt : Int := 0
  deriving DecidableEq, Repr

namespace CircuitBreaker

/-- Whether the caller may invoke the provider, and the breaker after the question. -/
def allowRequest (breaker : CircuitBreaker) (now : Int) : Bool × CircuitBreaker :=
  match breaker.state with
  | .closed => (true, breaker)
  | .opened =>
      if breaker.openDuration ≤ now - breaker.openedAt then
        -- the flag stays down, so the half-open breaker admits the next request as well
        (true, { breaker with state := .halfOpen })
      else (false, breaker)
  | .halfOpen =>
      if breaker.probeInFlight then (false, breaker)
      else (true, { breaker with probeInFlight := true })

def onSuccess (breaker : CircuitBreaker) : CircuitBreaker :=
  { breaker with failureCount := 0, probeInFlight := false, state := .closed }

def trip (breaker : CircuitBreaker) (now : Int) : CircuitBreaker :=
  { breaker with state := .opened, openedAt := now, failureCount := 0 }

def onFailure (breaker : CircuitBreaker) (now : Int) : CircuitBreaker :=
  let breaker := { breaker with probeInFlight := false }
  -- a late failure of a call that was admitted earlier also ends the half-open state
  if breaker.state = .halfOpen then breaker.trip now
  else
    let breaker := { breaker with failureCount := breaker.failureCount + 1 }
    if breaker.failureThreshold ≤ breaker.failureCount then breaker.trip now else breaker

def isOpen (breaker : CircuitBreaker) : Bool :=
  breaker.state = .opened

/-- The condition under which `onFailure` calls `trip`. -/
def failureTrips (breaker : CircuitBreaker) : Bool :=
  breaker.state = .halfOpen || breaker.failureThreshold ≤ breaker.failureCount + 1

variable {breaker : CircuitBreaker} {now : Int}

/-! ## What one call changes -/

/-- A success closes the breaker in every state. -/
@[simp] theorem on_success_state : breaker.onSuccess.state = .closed := rfl

/-- A success ends the probe. -/
@[simp] theorem on_success_probe : breaker.onSuccess.probeInFlight = false := rfl

/-- A success clears the count. -/
@[simp] theorem on_success_count : breaker.onSuccess.failureCount = 0 := rfl

/-- A failure that trips opens the breaker and starts the count again. -/
theorem on_failure_of_trips (h : breaker.failureTrips = true) :
    breaker.onFailure now = { breaker with
      state := .opened, openedAt := now, failureCount := 0, probeInFlight := false } := by
  unfold failureTrips at h
  unfold onFailure trip
  by_cases hhalf : breaker.state = .halfOpen
  · simp [hhalf]
  · have hcount : breaker.failureThreshold ≤ breaker.failureCount + 1 := by
      simpa [hhalf] using h
    simp [hhalf, hcount]

/-- Any other failure only counts. -/
theorem on_failure_of_not_trips (now : Int) (h : breaker.failureTrips = false) :
    breaker.onFailure now = { breaker with
      failureCount := breaker.failureCount + 1, probeInFlight := false } ∧
    breaker.state ≠ .halfOpen ∧ breaker.failureCount + 1 < breaker.failureThreshold := by
  unfold failureTrips at h
  simp only [Bool.or_eq_false_iff, decide_eq_false_iff_not, not_le] at h
  obtain ⟨hhalf, hcount⟩ := h
  refine ⟨?_, hhalf, hcount⟩
  unfold onFailure
  simp [hhalf, not_le.mpr hcount]

/-- A failure ends the probe. -/
@[simp] theorem on_failure_probe : (breaker.onFailure now).probeInFlight = false := by
  cases h : breaker.failureTrips with
  | true => simp [on_failure_of_trips h]
  | false => simp [(on_failure_of_not_trips now h).1]

/-- The threshold and the open duration are fixed at construction. -/
theorem on_failure_parameters :
    (breaker.onFailure now).failureThreshold = breaker.failureThreshold ∧
      (breaker.onFailure now).openDuration = breaker.openDuration := by
  cases h : breaker.failureTrips with
  | true => simp [on_failure_of_trips h]
  | false => simp [(on_failure_of_not_trips now h).1]

/-- A request does not change the threshold or the open duration. -/
theorem allow_request_parameters :
    (breaker.allowRequest now).2.failureThreshold = breaker.failureThreshold ∧
      (breaker.allowRequest now).2.openDuration = breaker.openDuration := by
  unfold allowRequest
  cases breaker.state <;> dsimp only <;> try split
  all_goals exact ⟨rfl, rfl⟩

/-- Every way a request can be admitted or rejected. -/
theorem allow_request_cases (breaker : CircuitBreaker) (now : Int) :
    (breaker.state = .closed ∧ breaker.allowRequest now = (true, breaker)) ∨
    (breaker.state = .opened ∧ breaker.openDuration ≤ now - breaker.openedAt ∧
      breaker.allowRequest now = (true, { breaker with state := .halfOpen })) ∨
    (breaker.state = .opened ∧ now - breaker.openedAt < breaker.openDuration ∧
      breaker.allowRequest now = (false, breaker)) ∨
    (breaker.state = .halfOpen ∧ breaker.probeInFlight = true ∧
      breaker.allowRequest now = (false, breaker)) ∨
    (breaker.state = .halfOpen ∧ breaker.probeInFlight = false ∧
      breaker.allowRequest now = (true, { breaker with probeInFlight := true })) := by
  unfold allowRequest
  cases hstate : breaker.state with
  | closed => simp
  | opened =>
      by_cases hopen : breaker.openDuration ≤ now - breaker.openedAt
      · simp [hopen]
      · simp [hopen, not_le.mp hopen]
  | halfOpen => cases breaker.probeInFlight <;> simp

end CircuitBreaker

end NotificationDelivery
