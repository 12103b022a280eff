import NotificationDelivery.Models

/-!
# The retry ladder

What the delivery of one notification is for, without queues, tables and workers. An accepted
notification is queued for its first attempt. Attempt `k` ends with the outcome of one router
call: a result makes the notification sent, a transient failure at most at the retry limit
makes it wait on rung `k` for attempt `k + 1`, and any other failure makes it dead.
`Run.consistent` says what the outcomes of a run look like.
-/

namespace NotificationDelivery

/-- The failure leaves room for another attempt. -/
def ProviderOutcome.Transient (outcome : ProviderOutcome) : Prop :=
  ∃ what, outcome = .failure what true

namespace Ladder

inductive Phase where
  | accepted
  | queued (k : Nat)
  | handling (k : Nat)
  | waiting (k : Nat)
  | sent (k : Nat)
  | dead (k : Nat)
  deriving DecidableEq, Repr

/-- Where attempt `k` leads. -/
def after (maxRetries : Int) (k : Nat) : ProviderOutcome → Phase
  | .result _ => .sent k
  | .failure _ isTransient =>
      if isTransient = true ∧ (k : Int) ≤ maxRetries then .waiting k else .dead k

/-- One step; the end of an attempt is labelled with its outcome. -/
inductive Step (maxRetries : Int) : Phase → Option ProviderOutcome → Phase → Prop where
  | publish : Step maxRetries .accepted none (.queued 1)
  | receive (k : Nat) : Step maxRetries (.queued k) none (.handling k)
  | finish (k : Nat) (outcome : ProviderOutcome) :
      Step maxRetries (.handling k) (some outcome) (after maxRetries k outcome)
  | expire (k : Nat) : Step maxRetries (.waiting k) none (.queued (k + 1))

/-- `Run maxRetries outcomes phase` says that attempts with these outcomes lead to `phase`. -/
inductive Run (maxRetries : Int) : List ProviderOutcome → Phase → Prop where
  | start : Run maxRetries [] .accepted
  | step {outcomes : List ProviderOutcome} {phase next : Phase} {label : Option ProviderOutcome} :
      Run maxRetries outcomes phase → Step maxRetries phase label next →
      Run maxRetries (outcomes ++ label.toList) next

/-- The outcomes of the attempts before a phase. -/
def Consistent (maxRetries : Int) (outcomes : List ProviderOutcome) : Phase → Prop
  | .accepted => outcomes = []
  | .queued k | .handling k =>
      k = outcomes.length + 1 ∧ (∀ outcome ∈ outcomes, outcome.Transient) ∧
        (outcomes.length : Int) ≤ max maxRetries 0
  | .waiting k =>
      k = outcomes.length ∧ (∀ outcome ∈ outcomes, outcome.Transient) ∧
        1 ≤ outcomes.length ∧ (outcomes.length : Int) ≤ maxRetries
  | .sent k =>
      k = outcomes.length ∧ ∃ retried providerRef, outcomes = retried ++ [.result providerRef] ∧
        (∀ outcome ∈ retried, outcome.Transient) ∧ (retried.length : Int) ≤ max maxRetries 0
  | .dead k =>
      k = outcomes.length ∧ ∃ retried what isTransient,
        outcomes = retried ++ [.failure what isTransient] ∧
        (∀ outcome ∈ retried, outcome.Transient) ∧ (retried.length : Int) ≤ max maxRetries 0 ∧
        ¬ (isTransient = true ∧ (k : Int) ≤ maxRetries)

/-- A step of the ladder or none; a notification starts as accepted. -/
inductive Moves (maxRetries : Int) : Option Phase × List ProviderOutcome →
    Option Phase × List ProviderOutcome → Prop where
  | stays (phase : Option Phase) (outcomes : List ProviderOutcome) :
      Moves maxRetries (phase, outcomes) (phase, outcomes)
  | created : Moves maxRetries (none, []) (some .accepted, [])
  | steps {phase next : Phase} {label : Option ProviderOutcome}
      {outcomes outcomes' : List ProviderOutcome} : Step maxRetries phase label next →
      outcomes' = outcomes ++ label.toList →
      Moves maxRetries (some phase, outcomes) (some next, outcomes')

/-- The phase is reached with these outcomes; a notification without a phase has none. -/
def Follows (maxRetries : Int) : Option Phase × List ProviderOutcome → Prop
  | (none, outcomes) => outcomes = []
  | (some phase, outcomes) => Run maxRetries outcomes phase

variable {maxRetries : Int} {outcomes : List ProviderOutcome} {phase next : Phase} {k : Nat}
  {what : String} {isTransient : Bool}

theorem Follows.moves {state state' : Option Phase × List ProviderOutcome}
    (h : Follows maxRetries state) (hmoves : Moves maxRetries state state') :
    Follows maxRetries state' := by
  cases hmoves with
  | stays => exact h
  | created => exact .start
  | steps hstep hlabel =>
      rw [hlabel]
      exact .step h hstep

/-- The outcomes only grow. -/
theorem Moves.length_le {phase phase' : Option Phase} {outcomes' : List ProviderOutcome}
    (hmoves : Moves maxRetries (phase, outcomes) (phase', outcomes')) :
    outcomes.length ≤ outcomes'.length := by
  cases hmoves with
  | stays | created => exact Nat.le_refl _
  | steps hstep hlabel =>
      rw [hlabel, List.length_append]
      omega

/-- A failed attempt waits exactly if it was transient and within the limit. -/
theorem after_failure_waiting :
    after maxRetries k (.failure what isTransient) = .waiting k ↔
      isTransient = true ∧ (k : Int) ≤ maxRetries := by
  unfold after
  split <;> simp_all

theorem after_failure_dead :
    after maxRetries k (.failure what isTransient) = .dead k ↔
      ¬ (isTransient = true ∧ (k : Int) ≤ maxRetries) := by
  unfold after
  split <;> simp_all

/-- The end of an attempt keeps the outcomes consistent. -/
theorem Consistent.finish (h : Consistent maxRetries outcomes (.handling k))
    (outcome : ProviderOutcome) :
    Consistent maxRetries (outcomes ++ [outcome]) (after maxRetries k outcome) := by
  obtain ⟨rfl, htransient, hlimit⟩ := h
  cases outcome with
  | result providerRef =>
      exact ⟨by simp, outcomes, providerRef, rfl, htransient, hlimit⟩
  | failure what isTransient =>
      by_cases hretries : isTransient = true ∧ ((outcomes.length + 1 : Nat) : Int) ≤ maxRetries
      · rw [after_failure_waiting.mpr hretries]
        obtain ⟨rfl, hle⟩ := hretries
        refine ⟨by simp, fun outcome hmem => ?_, by simp, by simpa using hle⟩
        rcases List.mem_append.mp hmem with hmem | hmem
        · exact htransient outcome hmem
        · exact ⟨what, by simpa using hmem⟩
      · rw [after_failure_dead.mpr hretries]
        exact ⟨by simp, outcomes, what, isTransient, rfl, htransient, hlimit, hretries⟩

theorem Consistent.step (h : Consistent maxRetries outcomes phase) {label : Option ProviderOutcome}
    (hstep : Step maxRetries phase label next) :
    Consistent maxRetries (outcomes ++ label.toList) next := by
  cases hstep with
  | publish =>
      obtain rfl : outcomes = [] := h
      exact ⟨rfl, by simp, by simp⟩
  | receive k => simpa [Consistent] using h
  | finish k outcome => exact h.finish outcome
  | expire k =>
      obtain ⟨rfl, htransient, -, hle⟩ := h
      have hlimit : (outcomes.length : Int) ≤ max maxRetries 0 := hle.trans (le_max_left _ _)
      simpa [Consistent] using ⟨htransient, by simpa using hlimit⟩

/-- In a run all attempts but the last one fail transiently, and the phase tells how many there
were and how the last one ended. -/
theorem Run.consistent (hrun : Run maxRetries outcomes phase) :
    Consistent maxRetries outcomes phase := by
  induction hrun with
  | start => rfl
  | step _ hstep ih => exact ih.step hstep

/-- A run makes at most `maxRetries` attempts after the first one. -/
theorem Run.length_le (hrun : Run maxRetries outcomes phase) :
    (outcomes.length : Int) ≤ max maxRetries 0 + 1 := by
  have hconsistent := hrun.consistent
  cases phase with
  | accepted =>
      obtain rfl : outcomes = [] := hconsistent
      simp only [List.length_nil]
      omega
  | queued k | handling k =>
      obtain ⟨-, -, hlimit⟩ := hconsistent
      omega
  | waiting k =>
      obtain ⟨-, -, -, hle⟩ := hconsistent
      omega
  | sent k =>
      obtain ⟨-, retried, providerRef, rfl, -, hlimit⟩ := hconsistent
      simp only [List.length_append, List.length_singleton]
      omega
  | dead k =>
      obtain ⟨-, retried, what, isTransient, rfl, -, hlimit, -⟩ := hconsistent
      simp only [List.length_append, List.length_singleton]
      omega

end Ladder

end NotificationDelivery
