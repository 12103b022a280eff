import NotificationDelivery.Service.StatusAgreement

/-!
# A recorded delivery

`record` writes over the row of its attempt whatever it holds. A row that holds SUCCESS is lost
if the attempt is made again and fails, or if another delivery of the same attempt has failed
and records that later. `success_kept` says that nothing else erases it.
-/

namespace NotificationDelivery

open EventMachine

/-- The provider has failed, and the delivery has not recorded it. -/
def Handler.failing (w : Handler) : Bool :=
  match w.pc with
  | .incrementFailure _ _ | .recordRetry _ | .recordDead _ _ => true
  | _ => false

namespace View

/-- The provider fails for attempt `k` although its row holds SUCCESS, or SUCCESS is recorded while
another delivery of the attempt has a failure to record. -/
def Endangers (k : Int) (v : View) (event : Event) : Prop :=
  (∃ h w row what isTransient, event = .send h (.failure what isTransient) ∧
    v.handlers h = some w ∧ w.pc = .send row ∧ w.message.attemptNumber = k ∧ v.Succeeded k) ∨
  ∃ h w providerRef h' w', event = .work h ∧ v.handlers h = some w ∧
    w.pc = .recordSuccess providerRef ∧ w.message.attemptNumber = k ∧
    v.handlers h' = some w' ∧ w'.message.attemptNumber = k ∧ w'.failing = true

/-- While the row of attempt `k` holds SUCCESS, no delivery has a failure of the attempt to
record. -/
def Guarded (k : Int) (v : View) : Prop :=
  v.Succeeded k → ∀ h w, v.handlers h = some w → w.message.attemptNumber = k → w.failing = false

variable {env : Env} {config : Config} {n : String} {known : Prop} {v next : View} {h h' : Nat}
  {w w' : Handler} {event : Event} {k : Int}

/-- After a step a failure is to be recorded only by who had it to record before, or by the delivery
that the provider has just failed. -/
theorem Step.failing (hstep : View.Step env n known v event next) (hget : next.handlers h = some w)
    (hfailing : w.failing = true) :
    (∃ old, v.handlers h = some old ∧ old.message = w.message ∧ old.failing = true) ∨
    ∃ old row what isTransient, event = .send h (.failure what isTransient) ∧
      v.handlers h = some old ∧ old.message = w.message ∧ old.pc = .send row := by
  have hsame : v.handlers h = some w →
      ∃ old, v.handlers h = some old ∧ old.message = w.message ∧ old.failing = true :=
    fun hold => ⟨w, hold, rfl, hfailing⟩
  -- a delivery that moves on has a failure to record only if it had one before
  have hmoved : ∀ {h₀ w₀ pc}, v.handlers h₀ = some w₀ →
      ((w₀.goto pc).failing = true → w₀.failing = true) →
      Function.update v.handlers h₀ (some (w₀.goto pc)) h = some w →
      ∃ old, v.handlers h = some old ∧ old.message = w.message ∧ old.failing = true := by
    intro h₀ w₀ pc hget₀ hkeeps hget
    rcases Registry.update_eq_some.mp hget with ⟨rfl, heq⟩ | ⟨_, hold⟩
    · obtain rfl := Option.some.inj heq
      exact ⟨w₀, hget₀, rfl, hkeeps hfailing⟩
    · exact hsame hold
  have hremoved : ∀ {h₀}, Function.update v.handlers h₀ none h = some w →
      v.handlers h = some w := by
    intro h₀ hget
    rcases Registry.update_eq_some.mp hget with ⟨_, heq⟩ | ⟨_, hold⟩
    · exact absurd heq (by simp)
    · exact hold
  cases hstep with
  | unrelated | found | committed | published | aborted | expired | requeued =>
      exact .inl (hsame hget)
  | delivered c i h₀ w₀ hmessage hfree hc htag hid hpc =>
      rcases Registry.update_eq_some.mp hget with ⟨_, heq⟩ | ⟨_, hold⟩
      · obtain rfl := Option.some.inj heq
        simp [Handler.failing, hpc] at hfailing
      · exact .inl (hsame hold)
  | crashed h₀ w₀ => exact .inl (hsame (hremoved hget))
  | sent h₀ w₀ row outcome hget₀ hid hpc =>
      rcases Registry.update_eq_some.mp hget with ⟨rfl, heq⟩ | ⟨_, hold⟩
      · obtain rfl := Option.some.inj heq
        cases outcome with
        | result providerRef => simp [Handler.failing, Handler.afterSend] at hfailing
        | failure what isTransient => exact .inr ⟨w₀, row, what, isTransient, rfl, hget₀, rfl, hpc⟩
      · exact .inl (hsame hold)
  | worked h₀ w₀ next hget₀ hid hworked =>
      cases hworked with
      | acked | ackedLate => exact .inl (hsame (hremoved hget))
      | incrementedRetry what isTransient hpc =>
          exact .inl (hmoved hget₀ (fun _ => by simp [Handler.failing, hpc]) hget)
      | incrementedDead what isTransient hpc =>
          exact .inl (hmoved hget₀ (fun _ => by simp [Handler.failing, hpc]) hget)
      | _ => exact .inl (hmoved hget₀ (fun hf => by simp [Handler.failing] at hf) hget)

/-- The step lemma: if no step endangers the attempt, no failure of it is to be recorded over
SUCCESS. -/
theorem Guarded.step (hguarded : v.Guarded k) (hsafe : ¬ v.Endangers k event)
    (hstep : View.Step env n known v event next) : next.Guarded k := by
  intro hsucceeded h w hget hnumber
  by_contra hfailing
  have hfailing : w.failing = true := by simpa using hfailing
  have hrecords := hstep.records
  -- whoever has the failure to record had it before, or the provider has just failed
  rcases hstep.failing hget hfailing with ⟨old, hold, hmessage, hof⟩ |
    ⟨old, row, what, isTransient, rfl, hold, hmessage, hpc⟩
  · have hk : old.message.attemptNumber = k := hmessage ▸ hnumber
    generalize hrows : next.attempts = rows at hrecords
    cases hrecords with
    | kept =>
        have hbefore : v.Succeeded k := by simpa only [Succeeded, hrows] using hsucceeded
        exact absurd (hguarded hbefore h old hold hk) (by simp [hof])
    | success h' w' providerRef hevent hget' hpc' =>
        by_cases hk' : w'.message.attemptNumber = k
        · exact hsafe (.inr ⟨h', w', providerRef, h, old, hevent, hget', hpc', hk', hold, hk, hof⟩)
        · have hrecord : (v.record (w'.successAttempt providerRef)).Succeeded k := by
            simpa only [Succeeded, hrows] using hsucceeded
          rw [succeeded_record, if_neg (fun heq => hk' heq.symm)] at hrecord
          exact absurd (hguarded hrecord h old hold hk) (by simp [hof])
    | failure h' w' what isTransient hevent hget' hpc' =>
        have hrecord : (v.record (w'.failureAttempt what isTransient)).Succeeded k := by
          simpa only [Succeeded, hrows] using hsucceeded
        rw [succeeded_record] at hrecord
        split at hrecord
        · exact absurd hrecord (by simp)
        · exact absurd (hguarded hrecord h old hold hk) (by simp [hof])
  · -- the provider fails and writes nothing
    have hk : old.message.attemptNumber = k := hmessage ▸ hnumber
    have hbefore : v.Succeeded k := by
      cases hstep with
      | unrelated => exact hsucceeded
      | sent => exact hsucceeded
    exact hsafe (.inl ⟨h, old, row, what, isTransient, rfl, hold, hpc, hk, hbefore⟩)

/-- SUCCESS and a provider reference stay in the row of a guarded attempt. -/
theorem Guarded.kept (hguarded : v.Guarded k) (hstep : View.Step env n known v event next)
    (hdelivered : v.Delivered k) : next.Delivered k := by
  have hsucceeded : v.Succeeded k := by
    obtain ⟨a, ha, hstatus, _⟩ := hdelivered
    exact ⟨a, ha, hstatus⟩
  have hcopy : ∀ u : View, u.Delivered k → next.attempts = u.attempts → next.Delivered k := by
    intro u hu hattempts
    simpa only [Delivered, hattempts] using hu
  have hother : ∀ attempt : DeliveryAttempt, k ≠ attempt.attemptNumber →
      (v.record attempt).Delivered k := by
    intro attempt hne
    obtain ⟨a, ha, hrest⟩ := hdelivered
    exact ⟨a, by rw [attempts_record, if_neg hne, ha], hrest⟩
  have hrecords := hstep.records
  generalize hrows : next.attempts = rows at hrecords
  cases hrecords with
  | kept => exact hcopy v hdelivered hrows
  | success h w providerRef =>
      by_cases hk : k = w.message.attemptNumber
      · obtain ⟨a, ha, hstatus, href⟩ := exists_attempts_record v (w.successAttempt providerRef)
        refine hcopy _ ⟨a, hk ▸ ha, hstatus, ?_⟩ hrows
        rw [href]
        rfl
      · exact hcopy _ (hother _ hk) hrows
  | failure h w what isTransient hevent hget hpc =>
      have hfailing : w.failing = true := by
        rcases hpc with ⟨hpc, _⟩ | hpc <;> simp [Handler.failing, hpc]
      have hk : k ≠ w.message.attemptNumber := by
        intro hk
        exact absurd (hguarded hsucceeded h w hget hk.symm) (by simp [hfailing])
      exact hcopy _ (hother _ hk) hrows

end View

namespace System

/-- The provider fails for attempt `k` of `n` although its row holds SUCCESS, or SUCCESS is recorded
while another delivery of the attempt has a failure to record. -/
def endangers (n : String) (k : Int) (s : System) : Event → Bool
  | .send h (.failure _ _) =>
      (s.handlers.get h).any fun w =>
        w.notificationId = n && w.message.attemptNumber = k &&
        (s.db.findAttempt n k).any fun a => a.status = .success
  | .work h =>
      (s.handlers.get h).any fun w =>
        w.notificationId = n && w.message.attemptNumber = k &&
        (match w.pc with
          | .recordSuccess _ => true
          | _ => false) &&
        (List.range s.handlers.next).any fun h' => (s.handlers.get h').any fun w' =>
          w'.notificationId = n && w'.message.attemptNumber = k && w'.failing
  | _ => false

variable {env : Env} {s t : System} {n : String} {k : Int} {event : Event}

theorem endangers_of_view (hendangers : (s.view n).Endangers k event) :
    s.endangers n k event = true := by
  rcases hendangers with ⟨h, w, row, what, isTransient, rfl, hview, hpc, hk, a, ha, hstatus⟩ |
    ⟨h, w, providerRef, h', w', rfl, hview, hpc, hk, hview', hk', hfailing⟩
  · obtain ⟨hget, hid⟩ := view_handlers.mp hview
    have hattempt : s.db.findAttempt n k = some a := ha
    simp [endangers, hget, hid, hk, hattempt, hstatus]
  · obtain ⟨hget, hid⟩ := view_handlers.mp hview
    obtain ⟨hget', hid'⟩ := view_handlers.mp hview'
    have hother : ((List.range s.handlers.next).any fun h' => (s.handlers.get h').any fun w' =>
        w'.notificationId = n && w'.message.attemptNumber = k && w'.failing) = true := by
      refine List.any_eq_true.mpr ⟨h', List.mem_range.mpr (Registry.lt_next hget'), ?_⟩
      simp [hget', hid', hk', hfailing]
    simp only [endangers, hget, Option.any_some, hid, hk, hpc, hother, decide_true, Bool.and_self]

/-- Any number of requests, crashes and redeliveries: in every run without a step that endangers
attempt `k`, its row holds SUCCESS and a provider reference from the first time on. -/
theorem success_kept (env : Env) (s t : System) (n : String) (k : Int)
    (hreach : Reaches (System.step env) (fun s event => s.endangers n k event = false) initial s)
    (hnext : Reaches (System.step env) (fun s event => s.endangers n k event = false) s t)
    (a : DeliveryAttempt) (ha : s.db.findAttempt n k = some a) (hstatus : a.status = .success)
    (href : a.providerRef.isSome) :
    ∃ b, t.db.findAttempt n k = some b ∧ b.status = .success ∧ b.providerRef.isSome := by
  have hsafe : ∀ {s : System} {event}, s.endangers n k event = false →
      ¬ (s.view n).Endangers k event := by
    intro s event hfalse hendangers
    simp [endangers_of_view hendangers] at hfalse
  have hguarded : (s.view n).Guarded k :=
    view_invariant hreach (fun hsucceeded => by simp [View.Succeeded, View.empty] at hsucceeded)
      fun s event next _ hallowed hview hstep => hview.step (hsafe hallowed) hstep
  let invariant (s : System) : Prop :=
    s.WellFormed ∧ (s.view n).Guarded k ∧ (s.view n).Delivered k
  have hkeep : ∀ s event next, invariant s → s.endangers n k event = false →
      s.step env event = some next → invariant next := by
    intro s event next hs hallowed hstep
    have hview := hs.1.step_view (n := n) hstep
    exact ⟨hs.1.step hstep, hs.2.1.step (hsafe hallowed) hview, hs.2.1.kept hview hs.2.2⟩
  have hlast : invariant t :=
    hnext.invariant hkeep ⟨reachable_well_formed hreach, hguarded, a, ha, hstatus, href⟩
  exact hlast.2.2

/-- The attempt that was recorded before the crash is made again, with the same result. -/
def deliversAgain : List Event :=
  [.send 1 (.result "ref'"), .work 1, .work 1, .work 1, .work 1]

theorem success_kept_delivers_again :
    ∃ s t, run (System.step shipped) initial diesAfterRecord = some s ∧
      run (System.step shipped) s deliversAgain = some t ∧
      ∃ b, t.db.findAttempt "id" 1 = some b ∧ b.status = .success ∧ b.providerRef.isSome := by
  have hlast :
      ((run (guarded (System.step shipped) fun s event => !s.endangers "id" 1 event) initial
      diesAfterRecord).bind fun s => (run (guarded (System.step shipped) fun s event =>
        !s.endangers "id" 1 event) s deliversAgain).map fun _ =>
          (s.db.findAttempt "id" 1).map fun a => (a.status, a.providerRef.isSome)) =
      some (some (.success, true)) := by decide +kernel
  obtain ⟨s, hrun, hs⟩ := Option.bind_eq_some_iff.mp hlast
  obtain ⟨t, hnext, hattempt⟩ := Option.map_eq_some_iff.mp hs
  obtain ⟨a, ha, hrow⟩ := Option.map_eq_some_iff.mp hattempt
  have hallowed : ∀ (s : System) (event : Event), (!s.endangers "id" 1 event) = true →
      s.endangers "id" 1 event = false := fun _ _ h => by simpa using h
  exact ⟨s, t, run_of_guarded hrun, run_of_guarded hnext,
    success_kept shipped s t "id" 1 (Reaches.of_guarded_run hallowed hrun)
      (Reaches.of_guarded_run hallowed hnext) a ha (congrArg Prod.fst hrow)
      (congrArg Prod.snd hrow)⟩

/-- The attempt is made again and the provider fails: SUCCESS and the reference are gone. -/
theorem success_erased :
    ∃ s t a b, run (System.step shipped) initial diesAfterRecord = some s ∧
      run (System.step shipped) s [.send 1 (.failure "timeout" true), .work 1, .work 1] = some t ∧
      s.db.findAttempt "id" 1 = some a ∧ a.status = .success ∧ a.providerRef = some "ref" ∧
      t.db.findAttempt "id" 1 = some b ∧ b.status = .transientFailure ∧ b.providerRef = none :=
  ⟨_, _, _, _, rfl, rfl, rfl, rfl, rfl, rfl, rfl, rfl⟩

end System

end NotificationDelivery
