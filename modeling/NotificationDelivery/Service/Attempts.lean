import NotificationDelivery.Service.Projection

/-!
# The rows of the attempts

What a step does to the rows of `delivery_attempts` of one notification: only the `record` of a
delivery writes them, and it writes the row of its own attempt.
-/

namespace NotificationDelivery

namespace Received

variable (d : Received) (providerRef what : String) (isTransient : Bool)

/-- The recorded row has the number of the message. -/
@[simp] theorem success_attempt_number :
    (d.successAttempt providerRef).attemptNumber = d.message.attemptNumber := rfl

/-- A result is recorded as SUCCESS. -/
@[simp] theorem success_attempt_status : (d.successAttempt providerRef).status = .success := rfl

@[simp] theorem failure_attempt_number :
    (d.failureAttempt what isTransient).attemptNumber = d.message.attemptNumber := rfl

/-- A failure is not recorded as SUCCESS. -/
@[simp] theorem failure_attempt_status : (d.failureAttempt what isTransient).status ≠ .success := by
  cases isTransient <;> simp [failureAttempt, attempt]

end Received

namespace View

/-- The row of attempt `k` holds SUCCESS. -/
def Succeeded (v : View) (k : Int) : Prop := ∃ a, v.attempts k = some a ∧ a.status = .success

/-- The row of attempt `k` holds a failure. -/
def Failed (v : View) (k : Int) : Prop := ∃ a, v.attempts k = some a ∧ a.status ≠ .success

/-- The row of attempt `k` holds SUCCESS and a provider reference. -/
def Delivered (v : View) (k : Int) : Prop :=
  ∃ a, v.attempts k = some a ∧ a.status = .success ∧ a.providerRef.isSome

/-- The rows after a step: those before it, or with the row of one attempt written. -/
inductive Records (v : View) (event : Event) : (Int → Option DeliveryAttempt) → Prop where
  | kept : Records v event v.attempts
  | success (h : Nat) (w : Handler) (providerRef : String) : event = .work h →
      v.handlers h = some w → w.pc = .recordSuccess providerRef →
      Records v event (v.record (w.successAttempt providerRef)).attempts
  | failure (h : Nat) (w : Handler) (what : String) (isTransient : Bool) : event = .work h →
      v.handlers h = some w →
      (w.pc = .recordRetry what ∧ isTransient = true ∨ w.pc = .recordDead what isTransient) →
      Records v event (v.record (w.failureAttempt what isTransient)).attempts

variable {env : Env} {n : String} {known : Prop} {v next : View} {event : Event} {k : Int}
  {attempt : DeliveryAttempt}

/-- A step writes at most one row of the attempts. -/
theorem Step.records (hstep : View.Step env n known v event next) :
    v.Records event next.attempts := by
  cases hstep with
  | worked h w next hget hid hworked =>
      cases hworked with
      | recordedSuccess providerRef hpc => exact .success h w providerRef rfl hget hpc
      | recordedRetry what hpc => exact .failure h w what true rfl hget (.inl ⟨hpc, rfl⟩)
      | recordedDead what isTransient hpc =>
          exact .failure h w what isTransient rfl hget (.inr hpc)
      | _ => exact .kept
  | _ => exact .kept

/-- The row of an attempt after a `record`. -/
theorem attempts_record : (v.record attempt).attempts k =
    if k = attempt.attemptNumber then
      some ((v.attempts k).elim attempt fun row => { row with
        status := attempt.status
        providerRef := attempt.providerRef
        errorMessage := attempt.errorMessage })
    else v.attempts k := by
  by_cases hk : k = attempt.attemptNumber
  · subst hk
    simp [record]
  · simp [record, hk]

/-- What `record` writes over an older row is what it writes without one. -/
theorem exists_attempts_record (v : View) (attempt : DeliveryAttempt) :
    ∃ a, (v.record attempt).attempts attempt.attemptNumber = some a ∧
      a.status = attempt.status ∧ a.providerRef = attempt.providerRef := by
  rw [attempts_record, if_pos rfl]
  cases v.attempts attempt.attemptNumber with
  | none => exact ⟨_, rfl, rfl, rfl⟩
  | some row => exact ⟨_, rfl, rfl, rfl⟩

/-- The recorded attempt holds SUCCESS if that was recorded, the others as before. -/
@[simp] theorem succeeded_record : (v.record attempt).Succeeded k ↔
    if k = attempt.attemptNumber then attempt.status = .success else v.Succeeded k := by
  split
  · rename_i hk
    obtain ⟨a, ha, hstatus, -⟩ := exists_attempts_record v attempt
    subst hk
    simp [Succeeded, ha, hstatus]
  · rename_i hk
    simp [Succeeded, attempts_record, hk]

/-- The recorded attempt holds a failure if that was recorded, the others as before. -/
@[simp] theorem failed_record : (v.record attempt).Failed k ↔
    if k = attempt.attemptNumber then attempt.status ≠ .success else v.Failed k := by
  split
  · rename_i hk
    obtain ⟨a, ha, hstatus, -⟩ := exists_attempts_record v attempt
    subst hk
    simp [Failed, ha, hstatus]
  · rename_i hk
    simp [Failed, attempts_record, hk]

/-- An attempt without a row has no outcome, every other one has one. -/
theorem attempts_ne_none : v.attempts k ≠ none ↔ v.Succeeded k ∨ v.Failed k := by
  cases hk : v.attempts k with
  | none => simp [Succeeded, Failed, hk]
  | some a => simp [Succeeded, Failed, hk, Classical.em]

/-- SUCCESS is recorded with its provider reference. -/
structure Referenced (v : View) : Prop where
  refs : ∀ k, v.Succeeded k → v.Delivered k

/-- Without attempts there is nothing to show. -/
theorem referenced_empty : empty.Referenced where
  refs := by simp [empty, Succeeded]

/-- A row that holds SUCCESS after a `record` holds what was written or what it held before. -/
theorem Referenced.record (href : v.Referenced)
    (hattempt : attempt.status = .success → attempt.providerRef.isSome) :
    (v.record attempt).Referenced where
  refs := by
    intro k hk
    rw [succeeded_record] at hk
    by_cases hnumber : k = attempt.attemptNumber
    · rw [if_pos hnumber] at hk
      obtain ⟨a, ha, hstatus, hrefs⟩ := exists_attempts_record v attempt
      rw [← hnumber] at ha
      exact ⟨a, ha, hstatus.trans hk, hrefs ▸ hattempt hk⟩
    · rw [if_neg hnumber] at hk
      obtain ⟨a, ha, hrest⟩ := href.refs k hk
      exact ⟨a, by rw [attempts_record, if_neg hnumber, ha], hrest⟩

/-- The step lemma. -/
theorem Referenced.step (href : v.Referenced) (hstep : View.Step env n known v event next) :
    next.Referenced := by
  have hrecords := hstep.records
  have hcopy : ∀ u : View, u.Referenced → next.attempts = u.attempts → next.Referenced := by
    intro u hu hattempts
    refine ⟨fun k hk => ?_⟩
    simp only [Succeeded, Delivered, hattempts] at hk ⊢
    exact hu.refs k hk
  generalize hrows : next.attempts = rows at hrecords
  cases hrecords with
  | kept => exact hcopy v href hrows
  | success h w providerRef => exact hcopy _ (href.record fun _ => rfl) hrows
  | failure h w what isTransient =>
      exact hcopy _ (href.record fun hsuccess => absurd hsuccess (by simp)) hrows

end View

section Keys

variable {env : Env} {s t : System} {n : String} {k : Int} {a : DeliveryAttempt} {db : Database}

/-- The rows of `delivery_attempts` have different keys. -/
def Database.AttemptKeys (db : Database) : Prop :=
  (db.deliveryAttempts.map DeliveryAttempt.key).Nodup

/-- The step lemma: `record` writes over the row of its key. -/
theorem System.attempt_keys_step {event : Event} (h : s.db.AttemptKeys)
    (hstep : s.step env event = some t) : t.db.AttemptKeys := by
  cases System.step_cases hstep with
  | posted p post db broker pc hget hworked => cases hworked <;> exact h
  | worked i w db broker pc hget hworked =>
      cases hworked with
      | recordedSuccess | recordedRetry | recordedDead => exact Table.nodup_upsert h fun _ => rfl
      | _ => exact h
  | _ => exact h

/-- The run lemma. -/
theorem System.reachable_attempt_keys {allowed : System → Event → Prop}
    (hreach : EventMachine.Reaches (System.step env) allowed .initial s) : s.db.AttemptKeys := by
  let property (s : System) : Prop := s.db.AttemptKeys
  have hkeep : ∀ s event t, property s → allowed s event → s.step env event = some t →
      property t := fun s event t h _ hstep => attempt_keys_step h hstep
  have hlast : property s := hreach.invariant hkeep List.nodup_nil
  exact hlast

/-- The query lists the rows of the notification. -/
theorem Database.mem_find_by_notification_id :
    a ∈ db.findByNotificationId n ↔ a ∈ db.deliveryAttempts ∧ a.notificationId = n := by
  simp [findByNotificationId, findByNotificationIdUnder, List.mem_mergeSort]

/-- The rows of a notification are the rows of its attempts. -/
theorem Database.find_attempt_iff (hkeys : db.AttemptKeys) :
    db.findAttempt n k = some a ↔ a ∈ db.findByNotificationId n ∧ a.attemptNumber = k := by
  rw [mem_find_by_notification_id]
  constructor
  · intro h
    have hkey : a.key = (n, k) := Table.key_of_find h
    exact ⟨⟨Table.mem_of_find h, congrArg Prod.fst hkey⟩, congrArg Prod.snd hkey⟩
  · intro h
    obtain ⟨⟨hmem, rfl⟩, rfl⟩ := h
    exact Table.unique_of_nodup hkeys a hmem

end Keys

end NotificationDelivery
