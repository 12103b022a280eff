import NotificationDelivery.Breaker.CircuitBreaker
import NotificationDelivery.Library.Streak
import Mathlib.Data.List.Induction

/-!
# When the breaker is closed

The methods of one breaker, called in any order: a report need not belong to an admitted
request. Whether the breaker is closed is determined by the failures reported since the last
success, although the counter restarts at every trip and is not used while the breaker is
half-open.
-/

namespace NotificationDelivery

open Streak

/-- A call of a method of the breaker. `now` is the reading of the clock, if the method takes
one. -/
inductive BreakerCall where
  | allowRequest (now : Int)
  | onSuccess
  | onFailure (now : Int)
  deriving DecidableEq, Repr

namespace BreakerCall

def isSuccess : BreakerCall → Bool
  | .onSuccess => true
  | _ => false

def isFailure : BreakerCall → Bool
  | .onFailure _ => true
  | _ => false

/-- The number of `onFailure` calls since the last `onSuccess`, or since construction. -/
def failures (calls : List BreakerCall) : Nat :=
  (streak isSuccess calls).countP isFailure

variable {calls : List BreakerCall} {now : Int}

/-- A request is no failure. -/
@[simp] theorem failures_allow_request :
    failures (calls ++ [.allowRequest now]) = failures calls := by
  unfold failures
  rw [streak_concat rfl, List.countP_cons_of_neg (by simp [isFailure])]

/-- A success starts the count again. -/
@[simp] theorem failures_on_success : failures (calls ++ [.onSuccess]) = 0 := by
  unfold failures
  rw [streak_concat_reset rfl]
  rfl

/-- A failure counts. -/
@[simp] theorem failures_on_failure :
    failures (calls ++ [.onFailure now]) = failures calls + 1 := by
  unfold failures
  rw [streak_concat rfl, List.countP_cons_of_pos rfl]

end BreakerCall

namespace CircuitBreaker

/-- The breaker after a call; what `allowRequest` answers is left to the caller. -/
def called (breaker : CircuitBreaker) : BreakerCall → CircuitBreaker
  | .allowRequest now => (breaker.allowRequest now).2
  | .onSuccess => breaker.onSuccess
  | .onFailure now => breaker.onFailure now

/-- The breaker after its construction and these calls. -/
def after (failureThreshold openDuration : Int) (calls : List BreakerCall) : CircuitBreaker :=
  calls.foldl called { failureThreshold, openDuration }

theorem after_concat (failureThreshold openDuration : Int) (calls : List BreakerCall)
    (call : BreakerCall) : after failureThreshold openDuration (calls ++ [call]) =
      (after failureThreshold openDuration calls).called call := by
  unfold after
  rw [List.foldl_append, List.foldl_cons, List.foldl_nil]

/-- How the state and the counter belong to the failures since the last success. A breaker that
is not closed has seen a full threshold of them, and keeps a counter of its own. -/
structure Counts (failureThreshold : Int) (failures : Nat) (breaker : CircuitBreaker) : Prop where
  threshold : breaker.failureThreshold = failureThreshold
  closed_iff : breaker.state = .closed ↔ (failures : Int) < max failureThreshold 1
  count : breaker.state = .closed → breaker.failureCount = failures
  nonneg : 0 ≤ breaker.failureCount
  below : breaker.failureCount < max failureThreshold 1

namespace Counts

variable {failureThreshold : Int} {failures : Nat} {breaker : CircuitBreaker} {now : Int}

theorem constructed (failureThreshold openDuration : Int) :
    Counts failureThreshold 0 { failureThreshold, openDuration } where
  threshold := rfl
  closed_iff := by
    refine iff_of_true rfl ?_
    omega
  count := fun _ => rfl
  nonneg := le_refl 0
  below := by
    show (0 : Int) < max failureThreshold 1
    omega

/-- A breaker that is not closed may become half-open. -/
theorem half_open (h : Counts failureThreshold failures breaker) (hstate : breaker.state ≠ .closed)
    (probeInFlight : Bool) :
    Counts failureThreshold failures { breaker with state := .halfOpen, probeInFlight } where
  threshold := h.threshold
  closed_iff := iff_of_false (by simp) fun hlt => hstate (h.closed_iff.mpr hlt)
  count := by simp
  nonneg := h.nonneg
  below := h.below

theorem allow_request (h : Counts failureThreshold failures breaker) :
    Counts failureThreshold failures (breaker.allowRequest now).2 := by
  rcases breaker.allow_request_cases now with
    ⟨_, hcase⟩ | ⟨hstate, _, hcase⟩ | ⟨_, _, hcase⟩ | ⟨_, _, hcase⟩ | ⟨hstate, _, hcase⟩ <;>
      rw [hcase]
  · exact h
  · exact h.half_open (by simp [hstate]) breaker.probeInFlight
  · exact h
  · exact h
  · have hsame := h.half_open (by simp [hstate]) true
    rwa [← hstate] at hsame

theorem on_success (h : Counts failureThreshold failures breaker) :
    Counts failureThreshold 0 breaker.onSuccess where
  threshold := h.threshold
  closed_iff := by
    refine iff_of_true rfl ?_
    omega
  count := fun _ => rfl
  nonneg := le_refl 0
  below := by
    show (0 : Int) < max failureThreshold 1
    omega

theorem on_failure (h : Counts failureThreshold failures breaker) :
    Counts failureThreshold (failures + 1) (breaker.onFailure now) := by
  have hclosed := h.closed_iff
  have hthreshold := h.threshold
  cases htrips : breaker.failureTrips with
  | true =>
      -- the failure is the last one of the threshold, unless the breaker was not closed before
      have hfull : max failureThreshold 1 ≤ (failures : Int) + 1 := by
        by_cases hstate : breaker.state = .closed
        · have hcount := h.count hstate
          simp only [failureTrips, hstate, reduceCtorEq, decide_false, Bool.false_or,
            decide_eq_true_eq] at htrips
          omega
        · rw [hclosed] at hstate
          omega
      rw [on_failure_of_trips htrips]
      refine ⟨hthreshold, iff_of_false (by simp) ?_, by simp, le_refl 0, ?_⟩
      · push_cast
        omega
      · show (0 : Int) < max failureThreshold 1
        omega
  | false =>
      obtain ⟨hcase, hhalf, hbelow⟩ := on_failure_of_not_trips now htrips
      have hnonneg := h.nonneg
      rw [hcase]
      refine ⟨hthreshold, ?_, fun hstate => ?_, ?_, ?_⟩
      · -- a failure that trips nothing was counted by a closed breaker
        show breaker.state = .closed ↔ ((failures + 1 : Nat) : Int) < max failureThreshold 1
        constructor
        · intro hstate
          have hcount := h.count hstate
          push_cast
          omega
        · intro hlt
          refine hclosed.mpr ?_
          push_cast at hlt
          omega
      · show breaker.failureCount + 1 = ((failures + 1 : Nat) : Int)
        rw [h.count hstate]
        rfl
      · show 0 ≤ breaker.failureCount + 1
        omega
      · show breaker.failureCount + 1 < max failureThreshold 1
        omega

/-- The step lemma. -/
theorem called {calls : List BreakerCall}
    (h : Counts failureThreshold (BreakerCall.failures calls) breaker) (call : BreakerCall) :
    Counts failureThreshold (BreakerCall.failures (calls ++ [call])) (breaker.called call) := by
  cases call with
  | allowRequest now =>
      rw [BreakerCall.failures_allow_request]
      exact h.allow_request
  | onSuccess =>
      rw [BreakerCall.failures_on_success]
      exact h.on_success
  | onFailure now =>
      rw [BreakerCall.failures_on_failure]
      exact h.on_failure

/-- The run lemma. -/
theorem after (failureThreshold openDuration : Int) (calls : List BreakerCall) :
    Counts failureThreshold (BreakerCall.failures calls)
      (CircuitBreaker.after failureThreshold openDuration calls) := by
  induction calls using List.reverseRecOn with
  | nil => exact constructed failureThreshold openDuration
  | append_singleton calls call ih =>
      rw [after_concat]
      exact ih.called call

end Counts

/-- For every threshold, open duration and sequence of calls, at any clock readings: the breaker is
closed exactly while fewer failures than the threshold, which counts as at least one, were reported
since the last success. A closed breaker has counted them, and the counter never reaches the
threshold. -/
theorem closed_iff_failures (failureThreshold openDuration : Int) (calls : List BreakerCall) :
    ((after failureThreshold openDuration calls).state = .closed ↔
      (BreakerCall.failures calls : Int) < max failureThreshold 1) ∧
    ((after failureThreshold openDuration calls).state = .closed →
      (after failureThreshold openDuration calls).failureCount = BreakerCall.failures calls) ∧
    0 ≤ (after failureThreshold openDuration calls).failureCount ∧
    (after failureThreshold openDuration calls).failureCount < max failureThreshold 1 := by
  have hcounts := Counts.after failureThreshold openDuration calls
  exact ⟨hcounts.closed_iff, hcounts.count, hcounts.nonneg, hcounts.below⟩

end CircuitBreaker

end NotificationDelivery
