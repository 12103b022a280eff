import NotificationDelivery.Json
import NotificationDelivery.Library.Registry
import NotificationDelivery.Library.Runs
import NotificationDelivery.Models

/-!
# The dashboard

The component `App` of `frontend/src/App.tsx` as an event machine. The state is the React state of
the component, without `lastUpdated`, together with the requests that have not completed. An event
is something that the user, a timer or the network does. A handler runs from one `await` to the
next without interruption, so an event is one step; the completion of a request is an event that
runs the waiting handler up to its next `await`. Requests are numbered in the order in which they
are issued.
-/

namespace NotificationDelivery

inductive Health where
  | online
  | offline
  deriving DecidableEq, Repr

/-- The answer to a detail request as the dashboard keeps it. -/
structure NotificationDetail extends Notification where
  deliveryAttempts : List DeliveryAttempt
  deriving DecidableEq, Repr

/-- The fields of the composer. -/
structure ComposerForm where
  channel : String
  priority : String
  recipient : String
  subject : String
  body : String
  deriving DecidableEq, Repr

/-- The body of the POST request of `submit`. -/
def ComposerForm.toJson (form : ComposerForm) (idempotencyKey : String) : Json :=
  .obj [("channel", .str form.channel), ("priority", .str form.priority),
    ("recipient", .str form.recipient), ("subject", .str form.subject), ("body", .str form.body),
    ("idempotencyKey", .str idempotencyKey)]

/-- A call of `api` that has not completed, by the handler that awaits it. A list request may be the
one that `submit` awaits after its POST. -/
inductive ApiRequest where
  | health
  | list (submission : Bool)
  | detail (id : String)
  | post (body : Json)
  deriving Repr

/-- What `api` returns. -/
inductive ApiData where
  | health
  | notifications (notifications : List Notification)
  | detail (detail : NotificationDetail)
  | saved (n : Notification)
  deriving DecidableEq, Repr

structure App where
  notifications : List Notification := []
  selected : Option NotificationDetail := none
  health : Health := .offline
  showComposer : Bool := false
  loading : Bool := true
  error : String := ""
  autoRefresh : Bool := true
  sending : Bool := false
  submitError : String := ""
  submitSuccess : Bool := false
  /-- The calls of `api` that have not completed. -/
  requests : Registry ApiRequest := Registry.empty
  /-- The time-outs of `submit` that have not fired. -/
  closeTimers : Nat := 0

inductive AppEvent where
  /-- The first effect runs. -/
  | mount
  | checkHealth
  /-- The refresh timer fires. -/
  | tick
  | refresh
  | toggleAutoRefresh
  | dismissError
  | openComposer
  | closeComposer
  /-- A time-out of `submit` fires. -/
  | closeTimer
  | openDetail (id : String)
  | closeDetail
  | submit (form : ComposerForm) (uuid : String)
  /-- A call of `api` returns, or throws an error with this message. -/
  | response (r : Nat) (outcome : Except String ApiData)

namespace App

/-- The attribute `disabled` of the Send button. -/
def sendDisabled (s : App) : Bool := s.sending || s.submitSuccess

/-- `loadNotifications` up to its `await`. -/
def loadNotifications (submission : Bool) (s : App) : App :=
  { s with loading := true, requests := s.requests.insert (.list submission) }

/-- The end of `loadNotifications`, and of the call of `submit` that awaits it. -/
def loaded (submission : Bool) (s : App) : App :=
  if submission then
    { s with
      loading := false
      submitSuccess := true
      closeTimers := s.closeTimers + 1
      sending := false }
  else { s with loading := false }

def startHealthCheck (s : App) : App := { s with requests := s.requests.insert .health }

/-- `openDetail` up to its `await`. -/
def openDetail (id : String) (s : App) : App :=
  { s with
    sending := true
    submitError := ""
    submitSuccess := false
    requests := s.requests.insert (.detail id) }

/-- `submit` up to its first `await`. -/
def submit (form : ComposerForm) (uuid : String) (s : App) : App :=
  { s with requests := s.requests.insert (.post (form.toJson uuid)) }

/-- The handler that awaits a request goes on. -/
def resume (s : App) : ApiRequest → Except String ApiData → Option App
  | .health, .ok .health => some { s with health := .online }
  | .health, .error _ => some { s with health := .offline }
  | .list submission, .ok (.notifications notifications) =>
      some ({ s with notifications, error := "" }.loaded submission)
  | .list submission, .error what =>
      some ({ s with health := .offline, error := what }.loaded submission)
  -- neither branch of `openDetail` resets the lock
  | .detail _, .ok (.detail detail) => some { s with selected := some detail }
  | .detail _, .error what => some { s with error := what }
  | .post _, .ok (.saved _) => some (s.loadNotifications true)
  | .post _, .error what => some { s with submitError := what, sending := false }
  | _, _ => none

/-- One event; `none` where the page offers no such event. -/
def step (s : App) : AppEvent → Option App
  | .mount => some (s.loadNotifications false).startHealthCheck
  | .checkHealth => some s.startHealthCheck
  | .tick => if s.autoRefresh then some (s.loadNotifications false) else none
  | .refresh => some (s.loadNotifications false)
  | .toggleAutoRefresh => some { s with autoRefresh := !s.autoRefresh }
  | .dismissError => some { s with error := "" }
  | .openComposer => some { s with submitError := "", submitSuccess := false, showComposer := true }
  | .closeComposer => if s.showComposer then some { s with showComposer := false } else none
  | .closeTimer =>
      if 0 < s.closeTimers then
        some { s with closeTimers := s.closeTimers - 1, showComposer := false }
      else none
  | .openDetail id =>
      if s.loading = false ∧ id ∈ s.notifications.map (·.id) then some (s.openDetail id) else none
  | .closeDetail => if s.selected.isSome then some { s with selected := none } else none
  | .submit form uuid =>
      if s.showComposer = true ∧ s.sendDisabled = false then some (s.submit form uuid) else none
  | .response r outcome => do
      let req ← s.requests.get r
      { s with requests := s.requests.set r none }.resume req outcome

/-- The page before its first effect. -/
def initial : App := {}

/-- What an event does to the requests, to the lock and to what is displayed. -/
inductive Stepped (s : App) : AppEvent → App → Prop where
  | mounted : Stepped s .mount (s.loadNotifications false).startHealthCheck
  | checkedHealth : Stepped s .checkHealth s.startHealthCheck
  | refreshed (event : AppEvent) : event = .tick ∨ event = .refresh →
      Stepped s event (s.loadNotifications false)
  | shown (event : AppEvent) (t : App) :
      event ∈ [.toggleAutoRefresh, .dismissError, .openComposer, .closeComposer, .closeTimer] →
      t.requests = s.requests → t.sending = s.sending → t.notifications = s.notifications →
      t.selected = s.selected → Stepped s event t
  | openedDetail (id : String) : Stepped s (.openDetail id) (s.openDetail id)
  | closedDetail : Stepped s .closeDetail { s with selected := none }
  | submitted (form : ComposerForm) (uuid : String) : s.sending = false →
      Stepped s (.submit form uuid) (s.submit form uuid)
  | healthKnown (r : Nat) (outcome : Except String ApiData) (health : Health) :
      s.requests.get r = some .health → outcome = .ok .health ∨ (∃ what, outcome = .error what) →
      Stepped s (.response r outcome) { s with requests := s.requests.set r none, health }
  | listed (r : Nat) (submission : Bool) (notifications : List Notification) :
      s.requests.get r = some (.list submission) →
      Stepped s (.response r (.ok (.notifications notifications)))
        ({ s with requests := s.requests.set r none, notifications, error := "" }.loaded submission)
  | listFailed (r : Nat) (submission : Bool) (what : String) :
      s.requests.get r = some (.list submission) →
      Stepped s (.response r (.error what))
        ({ s with requests := s.requests.set r none, health := .offline, error := what }.loaded
          submission)
  | detailed (r : Nat) (id : String) (detail : NotificationDetail) :
      s.requests.get r = some (.detail id) →
      Stepped s (.response r (.ok (.detail detail)))
        { s with requests := s.requests.set r none, selected := some detail }
  | detailFailed (r : Nat) (id what : String) : s.requests.get r = some (.detail id) →
      Stepped s (.response r (.error what))
        { s with requests := s.requests.set r none, error := what }
  | posted (r : Nat) (body : Json) (n : Notification) : s.requests.get r = some (.post body) →
      Stepped s (.response r (.ok (.saved n)))
        ({ s with requests := s.requests.set r none }.loadNotifications true)
  | postFailed (r : Nat) (body : Json) (what : String) : s.requests.get r = some (.post body) →
      Stepped s (.response r (.error what))
        { s with requests := s.requests.set r none, submitError := what, sending := false }

variable {s t : App} {event : AppEvent}

section Loaded

variable (submission : Bool)

@[simp] theorem loaded_notifications : (s.loaded submission).notifications = s.notifications := by
  cases submission <;> rfl

@[simp] theorem loaded_selected : (s.loaded submission).selected = s.selected := by
  cases submission <;> rfl

end Loaded

/-- Everything that an event can do. -/
theorem step_cases (hstep : s.step event = some t) : s.Stepped event t := by
  cases event with
  | mount =>
      obtain rfl := Option.some.inj hstep
      exact .mounted
  | checkHealth =>
      obtain rfl := Option.some.inj hstep
      exact .checkedHealth
  | tick =>
      obtain ⟨-, hnext⟩ := Option.ite_none_right_eq_some.mp hstep
      obtain rfl := Option.some.inj hnext
      exact .refreshed _ (.inl rfl)
  | refresh =>
      obtain rfl := Option.some.inj hstep
      exact .refreshed _ (.inr rfl)
  | toggleAutoRefresh | dismissError | openComposer =>
      obtain rfl := Option.some.inj hstep
      exact .shown _ _ (by simp) rfl rfl rfl rfl
  | closeComposer | closeTimer =>
      obtain ⟨-, hnext⟩ := Option.ite_none_right_eq_some.mp hstep
      obtain rfl := Option.some.inj hnext
      exact .shown _ _ (by simp) rfl rfl rfl rfl
  | openDetail id =>
      obtain ⟨-, hnext⟩ := Option.ite_none_right_eq_some.mp hstep
      obtain rfl := Option.some.inj hnext
      exact .openedDetail id
  | closeDetail =>
      obtain ⟨-, hnext⟩ := Option.ite_none_right_eq_some.mp hstep
      obtain rfl := Option.some.inj hnext
      exact .closedDetail
  | submit form uuid =>
      obtain ⟨⟨-, henabled⟩, hnext⟩ := Option.ite_none_right_eq_some.mp hstep
      obtain rfl := Option.some.inj hnext
      simp only [sendDisabled, Bool.or_eq_false_iff] at henabled
      exact .submitted form uuid henabled.1
  | response r outcome =>
      obtain ⟨req, hget, hresume⟩ := Option.bind_eq_some_iff.mp hstep
      unfold resume at hresume
      split at hresume
      · obtain rfl := Option.some.inj hresume
        exact .healthKnown r _ .online hget (.inl rfl)
      · obtain rfl := Option.some.inj hresume
        exact .healthKnown r _ .offline hget (.inr ⟨_, rfl⟩)
      · obtain rfl := Option.some.inj hresume
        exact .listed r _ _ hget
      · obtain rfl := Option.some.inj hresume
        exact .listFailed r _ _ hget
      · obtain rfl := Option.some.inj hresume
        exact .detailed r _ _ hget
      · obtain rfl := Option.some.inj hresume
        exact .detailFailed r _ _ hget
      · obtain rfl := Option.some.inj hresume
        exact .posted r _ _ hget
      · obtain rfl := Option.some.inj hresume
        exact .postFailed r _ _ hget
      · exact absurd hresume (by simp)

end App

end NotificationDelivery
