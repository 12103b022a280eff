import NotificationDelivery.Dashboard.App

/-!
# The send lock

`submit` releases the lock `sending` and never takes it; `openDetail` takes it and never releases
it. So the lock follows the submissions in the runs without either, and in no others
(`send_lock_iff`). After a detail has been opened while nothing is submitted, the Send button stays
disabled for ever (`open_detail_disables`).
-/

namespace NotificationDelivery

open EventMachine

/-- A request that a call of `submit` awaits. -/
def ApiRequest.ofSubmission : ApiRequest → Bool
  | .list submission => submission
  | .post _ => true
  | .health | .detail _ => false

/-- The events of the two handlers. -/
def AppEvent.submits : AppEvent → Bool
  | .submit _ _ => true
  | _ => false

def AppEvent.opensDetail : AppEvent → Bool
  | .openDetail _ => true
  | _ => false

/-- Only the form submits. -/
theorem AppEvent.eq_submit {event : AppEvent} (h : event.submits = true) :
    ∃ form uuid, event = .submit form uuid := by
  cases event with
  | submit form uuid => exact ⟨form, uuid, rfl⟩
  | _ => exact absurd h (by simp [submits])

/-- Only a click on a row opens a detail. -/
theorem AppEvent.eq_open_detail {event : AppEvent} (h : event.opensDetail = true) :
    ∃ id, event = .openDetail id := by
  cases event with
  | openDetail id => exact ⟨id, rfl⟩
  | _ => exact absurd h (by simp [opensDetail])

namespace App

/-- A POST of `submit` is outstanding. -/
def Posting (s : App) : Prop := ∃ r body, s.requests.get r = some (.post body)

/-- A call of `submit` has not ended. -/
def Submitting (s : App) : Prop := ∃ r req, s.requests.get r = some req ∧ req.ofSubmission = true

/-- The lock is held exactly while a POST is outstanding, so there is one POST at most, and the lock
does not disable the button without a submission. -/
structure LockFollows (s : App) : Prop where
  follows : s.sending = true ↔ s.Posting
  single : ∀ r r' body body', s.requests.get r = some (.post body) →
    s.requests.get r' = some (.post body') → r = r'

variable {s t u : App} {event : AppEvent} {req : ApiRequest} {r : Nat}

/-- A POST belongs to its submission. -/
theorem Posting.submitting (h : s.Posting) : s.Submitting := by
  obtain ⟨r, body, hget⟩ := h
  exact ⟨r, _, hget, rfl⟩

/-- A request that belongs to no submission starts none. -/
theorem not_submitting_insert (h : ¬ s.Submitting) (hreq : req.ofSubmission = false)
    (hnext : t.requests = s.requests.insert req) : ¬ t.Submitting := by
  intro hsubmitting
  obtain ⟨r, req', hget, hof⟩ := hsubmitting
  rw [hnext] at hget
  rcases Registry.update_eq_some.mp hget with ⟨_, heq⟩ | ⟨_, hget⟩
  · obtain rfl := Option.some.inj heq
    exact absurd (hreq.symm.trans hof) (by simp)
  · exact h ⟨r, req', hget, hof⟩

/-- A response starts no submission. -/
theorem not_submitting_remove (h : ¬ s.Submitting) (hget : s.requests.get r = some req)
    (hnext : t.requests = s.requests.set r none) : ¬ t.Submitting := by
  intro hsubmitting
  obtain ⟨r', req', hget', hof⟩ := hsubmitting
  rw [hnext, Registry.get_set hget] at hget'
  rcases Registry.update_eq_some.mp hget' with ⟨_, heq⟩ | ⟨_, hget'⟩
  · exact absurd heq (by simp)
  · exact h ⟨r', req', hget', hof⟩

theorem not_submitting_of_eq (h : ¬ s.Submitting) (hnext : t.requests = s.requests) :
    ¬ t.Submitting := by
  unfold Submitting at h ⊢
  rwa [hnext]

/-- While no submission goes on, only `submit` starts one, and only `openDetail` changes the
lock. -/
theorem not_submitting_step (h : ¬ s.Submitting) (hsubmit : event.submits = false)
    (hstep : s.step event = some t) :
    ¬ t.Submitting ∧ (event.opensDetail = false → t.sending = s.sending) := by
  have hawaited : ∀ {r req}, s.requests.get r = some req → req.ofSubmission = false := by
    intro r req hget
    by_contra hof
    exact h ⟨r, req, hget, by simpa using hof⟩
  cases step_cases hstep with
  | mounted =>
      have hload : ¬ (s.loadNotifications false).Submitting := not_submitting_insert h rfl rfl
      exact ⟨not_submitting_insert hload rfl rfl, fun _ => rfl⟩
  | checkedHealth | refreshed => exact ⟨not_submitting_insert h rfl rfl, fun _ => rfl⟩
  | shown event t hevent hrequests hsending =>
      exact ⟨not_submitting_of_eq h hrequests, fun _ => hsending⟩
  | openedDetail id =>
      refine ⟨not_submitting_insert h rfl rfl, fun hopens => ?_⟩
      exact absurd hopens (by simp [AppEvent.opensDetail])
  | closedDetail => exact ⟨not_submitting_of_eq h rfl, fun _ => rfl⟩
  | submitted => exact absurd hsubmit (by simp [AppEvent.submits])
  | healthKnown r outcome health hget => exact ⟨not_submitting_remove h hget rfl, fun _ => rfl⟩
  | listed r submission notifications hget =>
      obtain rfl : submission = false := hawaited hget
      exact ⟨not_submitting_remove h hget rfl, fun _ => rfl⟩
  | listFailed r submission what hget =>
      obtain rfl : submission = false := hawaited hget
      exact ⟨not_submitting_remove h hget rfl, fun _ => rfl⟩
  | detailed r id detail hget | detailFailed r id what hget =>
      exact ⟨not_submitting_remove h hget rfl, fun _ => rfl⟩
  | posted r body n hget | postFailed r body what hget =>
      exact absurd (hawaited hget) (by simp [ApiRequest.ofSubmission])

/-- Nothing is submitted and the button is free. -/
structure Free (s : App) : Prop where
  unlocked : s.sending = false
  idle : ¬ s.Submitting

/-- The page starts free. -/
theorem free_initial : initial.Free where
  unlocked := rfl
  idle := by simp [Submitting, initial]

/-- Nothing is locked, and nothing is submitted. -/
theorem Free.lock_follows (h : s.Free) : s.LockFollows where
  follows := by
    have hposting : ¬ s.Posting := fun hposting => h.idle hposting.submitting
    simp [h.unlocked, hposting]
  single := by
    intro r r' body body' hget _
    exact absurd (Posting.submitting ⟨r, body, hget⟩) h.idle

/-- A step that uses neither handler keeps the page free. -/
theorem Free.step (h : s.Free) (hsubmit : event.submits = false)
    (hopen : event.opensDetail = false) (hstep : s.step event = some t) : t.Free := by
  obtain ⟨hidle, hsending⟩ := not_submitting_step h.idle hsubmit hstep
  exact ⟨(hsending hopen).trans h.unlocked, hidle⟩

/-- `submit` starts only with a free button, and then its POST is outstanding. -/
theorem submit_step {form : ComposerForm} {uuid : String}
    (hstep : s.step (.submit form uuid) = some t) :
    s.sending = false ∧ t.sending = false ∧ t.Posting := by
  cases step_cases hstep with
  | refreshed _ hevent | shown _ _ hevent => exact absurd hevent (by simp)
  | submitted form uuid hsending =>
      exact ⟨hsending, hsending, s.requests.next, form.toJson uuid, Function.update_self _ _ _⟩

/-- `openDetail` disables the button and submits nothing. -/
theorem open_detail_step {id : String} (hidle : ¬ s.Submitting)
    (hstep : s.step (.openDetail id) = some t) : t.sending = true ∧ ¬ t.Submitting := by
  cases step_cases hstep with
  | refreshed _ hevent | shown _ _ hevent => exact absurd hevent (by simp)
  | openedDetail id => exact ⟨rfl, not_submitting_insert hidle rfl rfl⟩

/-- Each of the two handlers breaks the lock at once. -/
theorem Free.not_lock_follows (h : s.Free)
    (hevent : event.submits = true ∨ event.opensDetail = true)
    (hstep : s.step event = some t) : ¬ t.LockFollows := by
  intro hfollows
  rcases hevent with hsubmit | hopen
  · obtain ⟨form, uuid, rfl⟩ := AppEvent.eq_submit hsubmit
    obtain ⟨-, hsending, hposting⟩ := submit_step hstep
    exact absurd (hsending.symm.trans (hfollows.follows.mpr hposting)) (by simp)
  · obtain ⟨id, rfl⟩ := AppEvent.eq_open_detail hopen
    obtain ⟨hsending, hidle⟩ := open_detail_step h.idle hstep
    exact hidle (hfollows.follows.mp hsending).submitting

/-- If the lock follows the submissions in all states of a run from a free state, the run uses
neither handler. -/
theorem Free.calm_of_follows {events : List AppEvent} {s finish : App} (hfree : s.Free)
    (hrun : run App.step s events = some finish)
    (hfollows : ∀ u, Visits App.step s events u → u.LockFollows) :
    ∀ event ∈ events, event.submits = false ∧ event.opensDetail = false := by
  induction events generalizing s with
  | nil => simp
  | cons first rest ih =>
      simp only [run_cons, bind, Option.bind_eq_some_iff] at hrun
      obtain ⟨next, hstep, hrest⟩ := hrun
      have hnext : next.LockFollows :=
        hfollows next (.cons hstep ⟨[], List.nil_prefix, rfl⟩)
      have hfirst : first.submits = false ∧ first.opensDetail = false := by
        -- the first event that uses a handler leaves a state in which the lock does not follow
        by_contra hevent
        refine hfree.not_lock_follows ?_ hstep hnext
        cases hsubmit : first.submits with
        | true => exact .inl rfl
        | false => exact .inr (by simpa [hsubmit] using hevent)
      have hlater := ih (hfree.step hfirst.1 hfirst.2 hstep) hrest
        fun u hvisits => hfollows u (.cons hstep hvisits)
      intro event hmem
      rcases List.mem_cons.mp hmem with rfl | hmem
      · exact hfirst
      · exact hlater event hmem

/-- In every run, in any order of events and responses: the lock follows the submissions in all
states of the run if and only if nothing is submitted and no detail is opened. -/
theorem send_lock_iff (events : List AppEvent) (s : App) (hrun : run step initial events = some s) :
    (∀ u, Visits step initial events u → u.LockFollows) ↔
      ∀ event ∈ events, event.submits = false ∧ event.opensDetail = false := by
  constructor
  · exact free_initial.calm_of_follows hrun
  · intro hcalm u hvisits
    have hfree : u.Free := by
      refine visits_invariant App.Free free_initial ?_ hvisits
      intro s event t hperforms hfree hstep
      obtain ⟨hsubmit, hopen⟩ := hcalm event hperforms.mem
      exact hfree.step hsubmit hopen hstep
    exact hfree.lock_follows

/-- The page loads and is refreshed; one refresh fails. -/
def refreshes : List AppEvent :=
  [.mount, .refresh, .response 0 (.ok (.notifications [])), .openComposer,
    .response 2 (.error "Failed to fetch"), .tick, .response 1 (.ok .health), .closeComposer]

theorem send_lock_iff_refreshes : ∃ s, run step initial refreshes = some s ∧
    ∀ u, Visits step initial refreshes u → u.LockFollows := by
  have hsome : (run step initial refreshes).isSome = true := by decide +kernel
  obtain ⟨s, hrun⟩ := Option.isSome_iff_exists.mp hsome
  refine ⟨s, hrun, (send_lock_iff refreshes s hrun).mpr ?_⟩
  decide +kernel

/-! ## What goes wrong -/

/-- While the lock is held without a submission, it stays so: the disabled button cannot submit. -/
theorem locked_step (hidle : ¬ s.Submitting) (hsending : s.sending = true)
    (hstep : s.step event = some t) : ¬ t.Submitting ∧ t.sending = true := by
  cases hsubmit : event.submits with
  | true =>
      obtain ⟨form, uuid, rfl⟩ := AppEvent.eq_submit hsubmit
      exact absurd ((submit_step hstep).1.symm.trans hsending) (by simp)
  | false =>
      obtain ⟨hidle', hsame⟩ := not_submitting_step hidle hsubmit hstep
      refine ⟨hidle', ?_⟩
      cases hopen : event.opensDetail with
      | true =>
          obtain ⟨id, rfl⟩ := AppEvent.eq_open_detail hopen
          exact (open_detail_step hidle hstep).1
      | false => exact (hsame hopen).trans hsending

/-- A detail that is opened while nothing is submitted disables the Send button for the rest of
every run. -/
theorem open_detail_disables {id : String} (hidle : ¬ s.Submitting)
    (hstep : s.step (.openDetail id) = some t) (hreach : Reaches step (fun _ _ => True) t u) :
    u.sendDisabled = true := by
  let locked (s : App) : Prop := ¬ s.Submitting ∧ s.sending = true
  have hstart : locked t := by
    obtain ⟨hsending, hidle'⟩ := open_detail_step hidle hstep
    exact ⟨hidle', hsending⟩
  have hkeep : ∀ s event t, locked s → True → s.step event = some t → locked t :=
    fun s event t h _ hstep => locked_step h.1 h.2 hstep
  have hlocked : locked u := hreach.invariant hkeep hstart
  simp [sendDisabled, hlocked.2]

/-- A composer filled in. -/
def sampleForm : ComposerForm where
  channel := "EMAIL"
  priority := "HIGH"
  recipient := "user@example.com"
  subject := "Welcome"
  body := "Your account is ready."

/-- The form is sent twice before the first POST is answered. -/
def sentTwice : List AppEvent :=
  [.mount, .openComposer, .submit sampleForm "key-1", .submit sampleForm "key-2"]

def sampleRow : Notification where
  id := "id"
  idempotencyKey := "order-123-welcome"
  channel := .email
  recipient := "user@example.com"
  subject := "Welcome"
  body := "Your account is ready."

/-- A detail is opened, and every request is answered. -/
def detailShown : List AppEvent :=
  [.mount, .response 0 (.ok (.notifications [sampleRow])), .response 1 (.ok .health),
    .openDetail "id", .response 2 (.ok (.detail ⟨sampleRow, []⟩)), .closeDetail, .openComposer]

/-- One form has two POSTs outstanding with different keys, and a button that sends nothing is
disabled. -/
theorem send_lock_fails :
    (∃ s, run step initial sentTwice = some s ∧ s.sending = false ∧
      s.requests.get 2 = some (.post (sampleForm.toJson "key-1")) ∧
      s.requests.get 3 = some (.post (sampleForm.toJson "key-2")) ∧ ¬ s.LockFollows) ∧
    ∃ s, run step initial detailShown = some s ∧ s.sendDisabled = true ∧ ¬ s.Submitting ∧
      ¬ s.LockFollows := by
  constructor
  · refine ⟨_, rfl, rfl, rfl, rfl, fun hfollows => ?_⟩
    exact absurd (hfollows.single 2 3 _ _ rfl rfl) (by simp)
  · have hanswered : ∃ s, run step initial detailShown = some s ∧ s.sending = true ∧
        ((List.range s.requests.next).all fun r => (s.requests.get r).isNone) = true :=
      ⟨_, rfl, rfl, rfl⟩
    obtain ⟨s, hrun, hsending, hnone⟩ := hanswered
    have hidle : ¬ s.Submitting := by
      intro hsubmitting
      obtain ⟨r, req, hget, -⟩ := hsubmitting
      exact absurd ((Registry.eq_none_of_all hnone r).symm.trans hget) (by simp)
    exact ⟨s, hrun, by simp [sendDisabled, hsending], hidle,
      fun h => hidle (h.follows.mp hsending).submitting⟩

end App

end NotificationDelivery
