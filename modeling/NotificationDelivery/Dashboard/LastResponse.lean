import NotificationDelivery.Dashboard.SendLock

/-!
# What the dashboard displays

Requests carry no number and are never cancelled: each response overwrites the state. So the
dashboard displays the response that arrived last (`last_response_displayed`), which is the one of
the request issued last if the responses keep the order of the requests, and an older one
otherwise (`goes_back`).
-/

namespace NotificationDelivery

open EventMachine

/-- A change of the displayed detail: the response to request `r` arrives, or the detail is
closed. -/
inductive DetailChange where
  | shown (r : Nat) (detail : NotificationDetail)
  | closed
  deriving DecidableEq, Repr

namespace DetailChange

def displayed : DetailChange → Option NotificationDetail
  | .shown _ detail => some detail
  | .closed => none

def arrival : DetailChange → Option (Nat × NotificationDetail)
  | .shown r detail => some (r, detail)
  | .closed => none

end DetailChange

/-- Of the requests whose responses arrived, `r` was issued last. -/
def Newest {Data : Type} (arrivals : List (Nat × Data)) (r : Nat) (data : Data) : Prop :=
  (r, data) ∈ arrivals ∧ ∀ arrival ∈ arrivals, arrival.1 ≤ r

/-- The list of notifications that arrives with an event, and the number of its request. -/
def AppEvent.listArrival : AppEvent → Option (Nat × List Notification)
  | .response r (.ok (.notifications notifications)) => some (r, notifications)
  | _ => none

def AppEvent.detailChange : AppEvent → Option DetailChange
  | .response r (.ok (.detail detail)) => some (.shown r detail)
  | .closeDetail => some .closed
  | _ => none

namespace App

/-- The successful list responses, in the order in which they arrive. -/
def listArrivals (events : List AppEvent) : List (Nat × List Notification) :=
  events.filterMap AppEvent.listArrival

def detailChanges (events : List AppEvent) : List DetailChange :=
  events.filterMap AppEvent.detailChange

/-- The successful detail responses, in the order in which they arrive. -/
def detailArrivals (events : List AppEvent) : List (Nat × NotificationDetail) :=
  (detailChanges events).filterMap DetailChange.arrival

/-- The detail was closed after the response to request `r` had arrived. -/
def ClosedSince (events : List AppEvent) (r : Nat) (detail : NotificationDetail) : Prop :=
  ∃ before after, detailChanges events = before ++ .shown r detail :: after ∧
    DetailChange.closed ∈ after

/-- The displayed notifications are those of the list request issued last, and the displayed detail,
if it was not closed since, is the one opened last, among the requests that succeeded. -/
structure UpToDate (events : List AppEvent) (s : App) : Prop where
  list : ∀ r notifications, Newest (listArrivals events) r notifications →
    s.notifications = notifications
  detail : ∀ r detail, Newest (detailArrivals events) r detail →
    s.selected = some detail ∨ ClosedSince events r detail

variable {s t : App} {event : AppEvent} {events : List AppEvent}

/-- A list response replaces the displayed notifications, and nothing else does. -/
theorem notifications_step (hstep : s.step event = some t) :
    t.notifications = (event.listArrival.map Prod.snd).getD s.notifications := by
  cases step_cases hstep with
  | listed | listFailed => simp [AppEvent.listArrival]
  | shown event t hmem _ _ hsame =>
      simp only [List.mem_cons, List.not_mem_nil, or_false] at hmem
      rcases hmem with rfl | rfl | rfl | rfl | rfl <;> exact hsame
  | refreshed event hrefresh => rcases hrefresh with rfl | rfl <;> rfl
  | healthKnown r outcome health _ houtcome => rcases houtcome with rfl | ⟨what, rfl⟩ <;> rfl
  | _ => rfl

/-- A detail response replaces the displayed detail, closing removes it, and nothing else changes
it. -/
theorem selected_step (hstep : s.step event = some t) :
    t.selected = (event.detailChange.map DetailChange.displayed).getD s.selected := by
  cases step_cases hstep with
  | listed | listFailed => simp [AppEvent.detailChange]
  | shown event t hmem _ _ _ hsame =>
      simp only [List.mem_cons, List.not_mem_nil, or_false] at hmem
      rcases hmem with rfl | rfl | rfl | rfl | rfl <;> exact hsame
  | refreshed event hrefresh => rcases hrefresh with rfl | rfl <;> rfl
  | healthKnown r outcome health _ houtcome => rcases houtcome with rfl | ⟨what, rfl⟩ <;> rfl
  | _ => rfl

/-- If the response to the request issued last arrives last, it is displayed unless it was
closed. -/
theorem detail_of_last {r : Nat} {detail : NotificationDetail}
    (hlast : (detailArrivals events).getLast? = some (r, detail)) :
    (detailChanges events).getLast? = some (.shown r detail) ∨ ClosedSince events r detail := by
  unfold ClosedSince
  unfold detailArrivals at hlast
  generalize detailChanges events = changes at hlast ⊢
  -- on the changes, since a close after the response hides it
  induction changes using List.reverseRecOn with
  | nil => exact absurd hlast (by simp)
  | append_singleton init change ih =>
      cases change with
      | shown r' detail' =>
          simp only [List.filterMap_append, List.filterMap_cons, DetailChange.arrival,
            List.filterMap_nil, List.getLast?_concat, Option.some.injEq, Prod.mk.injEq] at hlast
          obtain ⟨rfl, rfl⟩ := hlast
          exact .inl List.getLast?_concat
      | closed =>
          simp only [List.filterMap_append, List.filterMap_cons, DetailChange.arrival,
            List.filterMap_nil, List.append_nil] at hlast
          right
          rcases ih hlast with hshown | ⟨before, after, heq, hclosed⟩
          · obtain ⟨before, heq⟩ := List.getLast?_eq_some_iff.mp hshown
            exact ⟨before, [.closed], by simp [heq], List.mem_singleton_self _⟩
          · exact ⟨before, after ++ [.closed], by simp [heq], by simp⟩

/-- In every run, in any order of events and responses: the displayed notifications are those of the
list response that arrived last, and the displayed detail, if it was not closed since, is that
of the detail response that arrived last. They are those of the requests issued last if the
responses to these arrive last. -/
theorem last_response_displayed (events : List AppEvent) (s : App)
    (hrun : run step initial events = some s) :
    s.notifications = ((listArrivals events).getLast?.map Prod.snd).getD [] ∧
    s.selected = (detailChanges events).getLast?.bind DetailChange.displayed ∧
    ((∀ r notifications, Newest (listArrivals events) r notifications →
        (listArrivals events).getLast? = some (r, notifications)) →
      (∀ r detail, Newest (detailArrivals events) r detail →
        (detailArrivals events).getLast? = some (r, detail)) → s.UpToDate events) := by
  have hlist : s.notifications = ((listArrivals events).getLast?.map Prod.snd).getD [] :=
    run_last (fun _ _ _ hstep => notifications_step hstep) hrun
  have hdetail : s.selected = (detailChanges events).getLast?.bind DetailChange.displayed := by
    have hselected : s.selected =
        ((detailChanges events).getLast?.map DetailChange.displayed).getD none :=
      run_last (fun _ _ _ hstep => selected_step hstep) hrun
    rw [hselected]
    cases (detailChanges events).getLast? <;> rfl
  refine ⟨hlist, hdetail, fun hlists hdetails => ⟨fun r notifications hnewest => ?_, ?_⟩⟩
  · rw [hlist, hlists r notifications hnewest]
    rfl
  · intro r detail hnewest
    rcases detail_of_last (hdetails r detail hnewest) with hshown | hclosed
    · rw [hdetail, hshown]
      exact .inl rfl
    · exact .inr hclosed

/-- The page loads, and a detail is opened. -/
def responsesInOrder : List AppEvent :=
  [.mount, .response 1 (.ok .health), .response 0 (.ok (.notifications [sampleRow])),
    .openDetail "id", .response 2 (.ok (.detail ⟨sampleRow, []⟩))]

theorem last_response_displayed_in_order : ∃ s, run step initial responsesInOrder = some s ∧
    s.notifications = [sampleRow] ∧ s.selected = some ⟨sampleRow, []⟩ ∧
      s.UpToDate responsesInOrder := by
  have hsome : (run step initial responsesInOrder).isSome = true := by decide +kernel
  obtain ⟨s, hrun⟩ := Option.isSome_iff_exists.mp hsome
  obtain ⟨hlist, hdetail, horder⟩ := last_response_displayed responsesInOrder s hrun
  refine ⟨s, hrun, hlist, hdetail, horder ?_ ?_⟩
  · intro r notifications hnewest
    obtain ⟨rfl, rfl⟩ : 0 = r ∧ [sampleRow] = notifications := by
      simpa [listArrivals, responsesInOrder, AppEvent.listArrival] using hnewest.1
    rfl
  · intro r detail hnewest
    obtain ⟨rfl, rfl⟩ : 2 = r ∧ ⟨sampleRow, []⟩ = detail := by
      simpa [detailArrivals, detailChanges, responsesInOrder, AppEvent.detailChange,
        DetailChange.arrival] using hnewest.1
    rfl

/-- Another notification. -/
def otherRow : Notification := { sampleRow with id := "other" }

/-- What the second list request returns. -/
def delivered : List Notification := [{ sampleRow with status := .sent }, otherRow]

/-- Two list requests and two detail requests overlap, and the earlier ones are answered later. -/
def outOfOrder : List AppEvent :=
  [.mount, .refresh, .response 2 (.ok (.notifications delivered)),
    .response 0 (.ok (.notifications [sampleRow, otherRow])), .response 1 (.ok .health),
    .openDetail "id", .openDetail "other", .response 4 (.ok (.detail ⟨otherRow, []⟩)),
    .response 3 (.ok (.detail ⟨sampleRow, []⟩))]

/-- All requests are answered; a delivered notification is displayed as pending, and the detail is
the one opened first. -/
theorem goes_back : ∃ s, run step initial outOfOrder = some s ∧ (∀ r, s.requests.get r = none) ∧
    Newest (listArrivals outOfOrder) 2 delivered ∧ s.notifications = [sampleRow, otherRow] ∧
    Newest (detailArrivals outOfOrder) 4 ⟨otherRow, []⟩ ∧ s.selected = some ⟨sampleRow, []⟩ ∧
    ¬ s.UpToDate outOfOrder := by
  have hrun : ∃ s, run step initial outOfOrder = some s ∧
      ((List.range s.requests.next).all fun r => (s.requests.get r).isNone) = true ∧
        s.notifications = [sampleRow, otherRow] ∧ s.selected = some ⟨sampleRow, []⟩ :=
    ⟨_, rfl, rfl, rfl, rfl⟩
  obtain ⟨s, hrun, hnone, hlist, hdetail⟩ := hrun
  have hnewest : Newest (listArrivals outOfOrder) 2 delivered := by
    unfold Newest
    decide +kernel
  have hnewest' : Newest (detailArrivals outOfOrder) 4 ⟨otherRow, []⟩ := by
    unfold Newest
    decide +kernel
  refine ⟨s, hrun, Registry.eq_none_of_all hnone, hnewest, hlist, hnewest', hdetail, fun h => ?_⟩
  have hsame := hlist.symm.trans (h.list 2 delivered hnewest)
  exact absurd hsame (by decide +kernel)

end App

end NotificationDelivery
