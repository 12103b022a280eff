import NotificationDelivery.Service.AtRest
import NotificationDelivery.Service.LadderRefinement
import NotificationDelivery.Service.OwnKeys

/-!
# Delivery follows the ladder

What the refinement says about runs: an undisturbed notification has at most one live message
apart from the time between a publish and the ack of the same delivery, it never stops before
it has ended, and when it has ended its rows tell the outcome of every attempt. The main
theorem is `follows_ladder`.
-/

namespace NotificationDelivery

open EventMachine Ladder

namespace View

/-- A message that is not on a dead-letter queue. -/
def Live (v : View) (i : Nat) : Prop :=
  ∃ place k, v.messages i = some (place, k) ∧ ∀ c, place ≠ .queue (Topology.dlq c)

/-- The delivery has published its retry or its copy for the dead-letter queue, and has not
acked. -/
def Republished (v : View) (w : Handler) : Prop :=
  w.pc = .markDeadLettered ∨ w.pc = .ack ∧ ∃ what isTransient,
    v.sends[(w.message.attemptNumber - 1).toNat]? = some (.failure what isTransient)

/-- Nothing is left to do for the notification. -/
structure Ended (v : View) : Prop where
  row : v.row.isSome = true
  quiet : ∀ p, v.publishing p = none
  idle : ∀ i, ¬ v.Live i

/-- There were some attempts, at most `maxRetries` after the first; all but the last one failed
transiently; each has its row and is counted; and the notification is SENT after a result, and
DEAD_LETTERED with one copy on its dead-letter queue after a failure. -/
def Completed (maxRetries : Int) (n : String) (v : View) : Prop :=
  ∃ row retried last, v.row = some row ∧ v.sends = retried ++ [last] ∧
    (∀ outcome ∈ retried, outcome.Transient) ∧ (retried.length : Int) ≤ max maxRetries 0 ∧
    row.attemptCount = retried.length + 1 ∧
    v.attempts = attemptRows n row.channel (retried ++ [last]) ∧
    ((last.isResult = true ∧ row.status = .sent ∧ ∀ i, v.messages i = none) ∨
      (last.isResult = false ∧ row.status = .deadLettered ∧ ∃ i,
        v.messages i = some (.queue (Topology.dlq row.channel), (retried.length : Int) + 1) ∧
          ∀ j ≠ i, v.messages j = none))

variable {n : String} {v : View} {config : Config} {maxRetries : Int} {phase : Option Phase}
  {outcomes : List ProviderOutcome} {c : Channel} {slot : Option (Place × Int)} {busy : Option Nat}
  {done i j h : Nat} {w : Handler} {m : Place × Int} {name : String} {k : Int}

/-- If one delivery at most exists, and none beside a waiting message, there is one message. -/
theorem Traffic.unique (ht : v.Traffic c slot busy done)
    (hone : ∀ h w h' w', v.handlers h = some w → v.handlers h' = some w' → h = h')
    (hslot : slot = none ∨ ∀ h, v.handlers h = none) {m' : Place × Int}
    (hi : v.messages i = some m) (hj : v.messages j = some m') : i = j := by
  rcases ht.held i m hi with ⟨h, w, hw, rfl⟩ | hm
  · rcases ht.held j m' hj with ⟨h', w', hw', rfl⟩ | hm'
    · obtain rfl := hone h w h' w' hw hw'
      obtain rfl := Option.some.inj (hw.symm.trans hw')
      rfl
    · rcases hslot with hnone | hnone
      · exact absurd (hnone.symm.trans hm') (by simp)
      · exact absurd (hw.symm.trans (hnone h)) (by simp)
  · rcases ht.held j m' hj with ⟨h', w', hw', rfl⟩ | hm'
    · rcases hslot with hnone | hnone
      · exact absurd (hnone.symm.trans hm) (by simp)
      · exact absurd (hw'.symm.trans (hnone h')) (by simp)
    · obtain rfl := Option.some.inj (hm.symm.trans hm')
      exact ht.single i j m hm hi hj

/-- A delivery of an attempt that is over and that has published nothing had a result. -/
theorem Traffic.result_of_not_republished (ht : v.Traffic c slot busy done)
    (hplaced : v.Placed config)
    (hw : v.handlers h = some w) (hidle : busy ≠ some h) (hnot : ¬ v.Republished w)
    (hsends : done ≤ v.sends.length) : ∃ providerRef,
      v.sends[(w.message.attemptNumber - 1).toNat]? = some (.result providerRef) ∧
        (w.message.attemptNumber - 1).toNat < done := by
  obtain ⟨hpc, hle⟩ := ht.acking h w hw hidle
  have hone := (hplaced.handler h w hw).2
  have hlt : (w.message.attemptNumber - 1).toNat < done := by omega
  obtain ⟨outcome, hget⟩ : ∃ outcome, v.sends[(w.message.attemptNumber - 1).toNat]? =
      some outcome :=
    ⟨_, List.getElem?_eq_getElem (Nat.lt_of_lt_of_le hlt hsends)⟩
  cases outcome with
  | result providerRef => exact ⟨providerRef, hget, hlt⟩
  | failure what isTransient => exact absurd (.inr ⟨hpc, what, isTransient, hget⟩) hnot

/-- While no attempt had a result, every delivery that has only its ack left has published. -/
theorem Traffic.busy_of_not_republished (ht : v.Traffic c slot busy done)
    (hplaced : v.Placed config)
    (hw : v.handlers h = some w) (hnot : ¬ v.Republished w) (hdone : done = outcomes.length)
    (hinit : outcomes <+: v.sends) (hfailed : ∀ outcome ∈ outcomes, outcome.isResult = false) :
    busy = some h := by
  -- an idle delivery that has not published has seen a result
  by_contra hidle
  obtain ⟨rest, hsends⟩ := hinit
  obtain ⟨providerRef, hget, hlt⟩ := ht.result_of_not_republished hplaced hw hidle hnot
    (by simp [← hsends, hdone])
  rw [← hsends, List.getElem?_append_left (hdone ▸ hlt)] at hget
  exact absurd (hfailed _ (List.mem_of_getElem? hget)) (by simp [ProviderOutcome.isResult])

/-- While no attempt had a result and no delivery has published, at most the busy delivery
exists. -/
theorem Traffic.handlers_eq (ht : v.Traffic c slot busy outcomes.length) (hplaced : v.Placed config)
    (hnot : ∀ h w, v.handlers h = some w → ¬ v.Republished w) (hinit : outcomes <+: v.sends)
    (hfailed : ∀ outcome ∈ outcomes, outcome.isResult = false) (h : Nat) (w : Handler)
    (hw : v.handlers h = some w) : busy = some h :=
  ht.busy_of_not_republished hplaced hw (hnot h w hw) rfl hinit hfailed

namespace Refines

/-- There is at most one live message, unless a delivery is between its publish and its ack. -/
theorem live_unique (hrefines : v.Refines maxRetries n phase outcomes) (hplaced : v.Placed config)
    (hfollows : Follows maxRetries (phase, outcomes))
    (hnot : ∀ h w, v.handlers h = some w → ¬ v.Republished w) (hi : v.Live i) (hj : v.Live j) :
    i = j := by
  obtain ⟨place, k, hi, hnotdlq⟩ := hi
  obtain ⟨place', k', hj, -⟩ := hj
  -- without results no delivery but the busy one is left
  have hnone : ∀ {c slot}, v.Traffic c slot none outcomes.length → outcomes <+: v.sends →
      (∀ outcome ∈ outcomes, outcome.isResult = false) → i = j := by
    intro c slot ht hinit hfailed
    have hempty : ∀ h, v.handlers h = none := by
      intro h
      by_contra hsome
      obtain ⟨w, hw⟩ := Option.ne_none_iff_exists'.mp hsome
      exact absurd (ht.handlers_eq hplaced hnot hinit hfailed h w hw) (by simp)
    exact ht.unique (fun h w _ _ hw => absurd (hw.symm.trans (hempty h)) (by simp))
      (.inr hempty) hi hj
  have hretried : (∀ outcome ∈ outcomes, outcome.Transient) →
      ∀ outcome ∈ outcomes, outcome.isResult = false := by
    intro htransient outcome hmem
    obtain ⟨what, rfl⟩ := htransient outcome hmem
    rfl
  cases hrefines with
  | absent hempty =>
      rw [hempty] at hi
      exact absurd hi (by simp [empty])
  | accepted p saved row hbooks hstatus hcount hp hothers ht =>
      exact hnone ht List.nil_prefix (by simp)
  | queued _ row hrest =>
      obtain ⟨-, htransient, -⟩ := hfollows.consistent
      exact hnone hrest.traffic (hrest.books.sends ▸ List.prefix_refl _) (hretried htransient)
  | waiting _ row hrest =>
      obtain ⟨-, htransient, -⟩ := hfollows.consistent
      exact hnone hrest.traffic (hrest.books.sends ▸ List.prefix_refl _) (hretried htransient)
  | dead _ row hrest =>
      obtain ⟨-, retried, what, isTransient, rfl, htransient, -⟩ := hfollows.consistent
      refine hnone hrest.traffic (hrest.books.sends ▸ List.prefix_refl _) ?_
      intro outcome hmem
      rcases List.mem_append.mp hmem with hmem | hmem
      · obtain ⟨what, rfl⟩ := htransient outcome hmem
        rfl
      · obtain rfl := List.mem_singleton.mp hmem
        rfl
  | handling _ h w row recorded calls hatt =>
      obtain ⟨-, htransient, -⟩ := hfollows.consistent
      have hinit : outcomes <+: v.sends := by
        rw [hatt.books.sends]
        rcases hatt.progress.calls_cases with hcalls | ⟨outcome, hcalls⟩ <;> rw [hcalls]
        exact List.prefix_append _ _
      have hbusy := hatt.traffic.handlers_eq hplaced hnot hinit (hretried htransient)
      refine hatt.traffic.unique (fun h₁ w₁ h₂ w₂ hw₁ hw₂ => ?_) (.inl ?_) hi hj
      · exact Option.some.inj ((hbusy h₁ w₁ hw₁).symm.trans (hbusy h₂ w₂ hw₂))
      · unfold parked
        rw [if_neg]
        exact fun hpc => hnot h w hatt.handler (.inl hpc)
  | sent _ row hrest =>
      obtain ⟨-, retried, providerRef, hsplit, htransient, -⟩ := hfollows.consistent
      have hsends := hrest.books.sends
      -- only the last attempt had a result, so the deliveries left belong to it
      have hlast : ∀ h w, v.handlers h = some w → w.message.attemptNumber = outcomes.length := by
        intro h w hw
        obtain ⟨ref, hget, hlt⟩ := hrest.traffic.result_of_not_republished hplaced hw (by simp)
          (hnot h w hw) (by rw [hsends])
        have hone := (hplaced.handler h w hw).2
        rw [hsends, hsplit] at hget
        rw [hsplit] at hlt ⊢
        simp only [List.length_append, List.length_singleton] at hlt ⊢
        by_contra hne
        rw [List.getElem?_append_left (by omega)] at hget
        obtain ⟨what, hfailure⟩ := htransient _ (List.mem_of_getElem? hget)
        exact absurd hfailure (by simp)
      refine hrest.traffic.unique (fun h w h' w' hw hw' => ?_) (.inl rfl) hi hj
      exact hrest.traffic.distinct h w h' w' hw hw' ((hlast h w hw).trans (hlast h' w' hw').symm)

/-- At most `maxRetries` router calls after the first one. -/
theorem calls_le (hrefines : v.Refines maxRetries n phase outcomes)
    (hfollows : Follows maxRetries (phase, outcomes)) :
    (v.sends.length : Int) ≤ max maxRetries 0 + 1 := by
  cases hrefines with
  | absent hempty =>
      rw [hempty]
      show (0 : Int) ≤ _
      omega
  | accepted p saved row hbooks =>
      rw [hbooks.sends]
      exact hfollows.length_le
  | queued _ row hrest | waiting _ row hrest | sent _ row hrest | dead _ row hrest =>
      rw [hrest.books.sends]
      exact hfollows.length_le
  | handling _ h w row recorded calls hatt =>
      obtain ⟨-, -, hlimit⟩ := hfollows.consistent
      rw [hatt.books.sends]
      rcases hatt.progress.calls_cases with rfl | ⟨outcome, rfl⟩
      · omega
      · simp only [List.length_append, List.length_singleton]
        omega

/-- Nothing is held when no message is live. -/
theorem no_handlers (hrefines : v.Refines maxRetries n phase outcomes) (hidle : ∀ i, ¬ v.Live i)
    (h : Nat) : v.handlers h = none := by
  by_contra hsome
  obtain ⟨w, hw⟩ := Option.ne_none_iff_exists'.mp hsome
  obtain ⟨name, k, hm⟩ := hrefines.holds hw
  exact hidle w.deliveryTag ⟨_, k, hm, by simp⟩

/-- A message that waits on another queue than the dead-letter queue is live. -/
theorem not_idle_of_slot (ht : v.Traffic c (some (.queue name, k)) busy done)
    (hname : ∀ c, name ≠ Topology.dlq c) (hidle : ∀ i, ¬ v.Live i) : False := by
  obtain ⟨-, i, hm⟩ := ht.waits _ rfl
  exact hidle i ⟨_, k, hm, by simpa using hname⟩

/-- A notification that has ended is completed. -/
theorem completed (hrefines : v.Refines maxRetries n phase outcomes)
    (hfollows : Follows maxRetries (phase, outcomes)) (hended : v.Ended) :
    v.Completed maxRetries n := by
  have hempty := hrefines.no_handlers hended.idle
  cases hrefines with
  | absent hempty =>
      have hrow := hended.row
      rw [hempty] at hrow
      exact absurd hrow (by simp [empty])
  | accepted p saved row hbooks hstatus hcount hp =>
      exact absurd (hp.symm.trans (hended.quiet p)) (by simp)
  | queued _ row hrest =>
      exact (not_idle_of_slot hrest.traffic (by simp) hended.idle).elim
  | waiting _ row hrest =>
      exact (not_idle_of_slot hrest.traffic (by simp) hended.idle).elim
  | handling _ h w row recorded calls hatt =>
      exact absurd (hatt.handler.symm.trans (hempty h)) (by simp)
  | sent _ row hrest hstatus =>
      obtain ⟨-, retried, providerRef, rfl, htransient, hlimit⟩ := hfollows.consistent
      refine ⟨row, retried, _, hrest.books.stored, hrest.books.sends, htransient, hlimit,
        by simpa using hrest.count, hrest.books.attempts, .inl ⟨rfl, hstatus, fun i => ?_⟩⟩
      by_contra hsome
      obtain ⟨m, hm⟩ := Option.ne_none_iff_exists'.mp hsome
      rcases hrest.traffic.held i m hm with ⟨h, w, hw, -⟩ | hslot
      · exact absurd (hw.symm.trans (hempty h)) (by simp)
      · exact absurd hslot (by simp)
  | dead _ row hrest hstatus =>
      obtain ⟨-, retried, what, isTransient, rfl, htransient, hlimit, -⟩ := hfollows.consistent
      obtain ⟨-, i, hm⟩ := hrest.traffic.waits _ rfl
      refine ⟨row, retried, _, hrest.books.stored, hrest.books.sends, htransient, hlimit,
        by simpa using hrest.count, hrest.books.attempts,
        .inr ⟨rfl, hstatus, i, by simpa using hm, fun j hne => ?_⟩⟩
      by_contra hsome
      obtain ⟨m, hm'⟩ := Option.ne_none_iff_exists'.mp hsome
      exact hne
        (hrest.traffic.unique (fun h w _ _ hw => absurd (hw.symm.trans (hempty h)) (by simp))
        (.inr hempty) hm' hm)

end Refines

end View

namespace System

variable {env : Env} {s t : System} {n : String} {phase : Option Phase}
  {outcomes : List ProviderOutcome} {event : Event}

/-- What an undisturbed run keeps about the notification `n`. -/
structure OnLadder (env : Env) (n : String) (s : System) (phase : Option Phase)
    (outcomes : List ProviderOutcome) : Prop where
  well_formed : s.WellFormed
  own_keys : s.OwnKeys env
  placed : (s.view n).Placed env.config
  refines : (s.view n).Refines env.config.maxRetries n phase outcomes

theorem on_ladder_initial (env : Env) (n : String) : initial.OnLadder env n none [] where
  well_formed := well_formed_initial
  own_keys := own_keys_initial env
  placed := View.placed_empty _
  refines := .absent rfl

/-- The step lemma. -/
theorem OnLadder.step (h : s.OnLadder env n phase outcomes)
    (hladder : env.config.maxRetries ≤ env.config.retryDelaysMs.length)
    (hcalm : s.undisturbed env event = true) (hstep : s.step env event = some t) :
    ∃ phase' outcomes', Moves env.config.maxRetries (phase, outcomes) (phase', outcomes') ∧
      t.OnLadder env n phase' outcomes' := by
  have hview := h.well_formed.step_view (n := n) hstep
  obtain ⟨phase', outcomes', hmoves, hrefines⟩ := h.refines.step h.placed hladder
    h.own_keys.not_meets_known_key (disturbs_of_undisturbed hcalm) hview
  exact ⟨phase', outcomes', hmoves, h.well_formed.step hstep, h.own_keys.step hcalm hstep,
    h.placed.step hview, hrefines⟩

/-- The run lemma: every state of an undisturbed run is on the ladder, in a phase that the ladder
reaches with the outcomes so far. -/
theorem Undisturbed.on_ladder (hreach : Undisturbed env s)
    (hladder : env.config.maxRetries ≤ env.config.retryDelaysMs.length) (n : String) :
    ∃ phase outcomes, s.OnLadder env n phase outcomes ∧
      Follows env.config.maxRetries (phase, outcomes) := by
  let related (s : System) (state : Option Phase × List ProviderOutcome) : Prop :=
    s.OnLadder env n state.1 state.2
  have hstart : related initial (none, []) := on_ladder_initial env n
  obtain ⟨⟨phase, outcomes⟩, hmoves, hrelated⟩ := hreach.simulation
    (fun s event t state hs hcalm hstep => by
      obtain ⟨phase', outcomes', hmoves, ht⟩ := hs.step hladder hcalm hstep
      exact ⟨(phase', outcomes'), .single hmoves, ht⟩) hstart
  refine ⟨phase, outcomes, hrelated, ?_⟩
  have hfollows : ∀ state, Relation.ReflTransGen (Moves env.config.maxRetries) (none, []) state →
      Follows env.config.maxRetries state := by
    intro state hmoves
    induction hmoves with
    | refl => rfl
    | tail _ hmove ih => exact ih.moves hmove
  exact hfollows _ hmoves

/-- A message in the view is a readable message of the broker. -/
theorem message_of_view {i : Nat} {place : Place} {k : Int}
    (hm : (s.view n).messages i = some (place, k)) :
    ∃ m body, s.broker.get i = some m ∧ m.place = place ∧
      MessageBody.fromJson m.envelope.body = .ok body ∧ body.notificationId = n := by
  obtain ⟨m, hget, habout⟩ := Option.bind_eq_some_iff.mp hm
  refine ⟨m, ?_⟩
  unfold Message.about at habout
  split at habout
  · rename_i body hbody
    split at habout
    · rename_i hid
      exact ⟨body, hget, congrArg Prod.fst (Option.some.inj habout), hbody, hid⟩
    · exact absurd habout (by simp)
  · exact absurd habout (by simp)

theorem undisturbed_of_own {event : Event} (hown : event.own = true) :
    s.undisturbed env event = true := by
  cases event with
  | request | abort | crash | requeue =>
      exact absurd hown (by simp [Event.own, Event.spends, Event.disturbs])
  | post | deliver | work | send | expire => rfl

/-- A delivery of the notification can make a step that shows in its view. -/
theorem exists_handler_progress (env : Env) {h : Nat} {w : Handler}
    (hw : (s.view n).handlers h = some w) : ∃ event t, event.own = true ∧
      s.step env event = some t ∧ t.view n ≠ s.view n := by
  obtain ⟨hget, hid⟩ := view_handlers.mp hw
  obtain ⟨event, t, hcalm, hrequest, hstep, hmoved⟩ := exists_move env hget
  refine ⟨event, t, own_of_disturbs hcalm hrequest, hstep, fun hsame => ?_⟩
  rw [← hsame] at hw
  exact hmoved (view_handlers.mp hw).1

/-- A notification that has not ended can always go on. -/
theorem OnLadder.progress (h : s.OnLadder env n phase outcomes)
    (hfollows : Follows env.config.maxRetries (phase, outcomes))
    (hladder : env.config.maxRetries ≤ env.config.retryDelaysMs.length)
    (hrow : (s.view n).row.isSome = true) (hnot : ¬ (s.view n).Ended) :
    ∃ event t, event.own = true ∧ s.step env event = some t ∧
      t.view n ≠ s.view n := by
  -- in a final phase only the acks are left
  have hfinal : ∀ {row slot}, (s.view n).AtRest n outcomes row slot →
      (∀ m, slot = some m → m.1 = .queue (Topology.dlq row.channel)) →
      ∃ event t, event.own = true ∧ s.step env event = some t ∧
        t.view n ≠ s.view n := by
    intro row slot hrest hslot
    obtain ⟨i, place, k, hm, hplace⟩ : ∃ i, (s.view n).Live i := by
      by_contra hidle
      exact hnot ⟨hrow, hrest.quiet, fun i hlive => hidle ⟨i, hlive⟩⟩
    rcases hrest.traffic.held i _ hm with ⟨h, w, hw, -⟩ | hslot'
    · exact exists_handler_progress env hw
    · exact absurd (hslot _ hslot') (hplace _)
  cases h.refines with
  | absent hempty =>
      rw [hempty] at hrow
      exact absurd hrow (by simp [View.empty])
  | accepted p saved row hbooks hstatus hcount hp =>
      obtain ⟨post, hget, hpublishing⟩ := Option.bind_eq_some_iff.mp hp
      have hpc : ∃ saved, post.pc = .publish saved := by
        unfold Post.publishing at hpublishing
        split at hpublishing
        · rename_i saved hpc
          exact ⟨saved, hpc⟩
        · exact absurd hpublishing (by simp)
      obtain ⟨saved, hpc⟩ := hpc
      refine ⟨.post p, { s with
          broker := s.broker.announce env.config saved
          posts := s.posts.set p (some { post with pc := .done })
          announced := s.announce post }, rfl, by simp [System.step, hget, Post.work, hpc], ?_⟩
      intro hsame
      have hgone := congrFun (System.publishing_set (n := n) hget .done) p
      have hstill := congrFun (congrArg View.publishing hsame) p
      rw [hp] at hstill
      simp [view, Post.publishing, Registry.get_set hget] at hstill
  | queued _ row hrest =>
      obtain ⟨-, i, hm⟩ := hrest.traffic.waits _ rfl
      obtain ⟨m, body, hget, hplace, hbody, hid⟩ := message_of_view hm
      obtain ⟨t, w, hstep, hw, -, hmessage, -, -⟩ := exists_deliver env hget hplace hbody
      refine ⟨_, t, rfl, hstep, fun hsame => ?_⟩
      have hview : (t.view n).handlers s.handlers.next = some w :=
        view_handlers.mpr ⟨hw, (congrArg MessageBody.notificationId hmessage).trans hid⟩
      rw [hsame] at hview
      exact absurd (view_handlers.mp hview).1 (by simp)
  | waiting _ row hrest =>
      obtain ⟨-, -, hone, hle⟩ := hfollows.consistent
      obtain ⟨-, i, hm⟩ := hrest.traffic.waits _ rfl
      obtain ⟨m, body, hget, hplace, hbody, hid⟩ := message_of_view hm
      obtain ⟨t, j, hstep, hj, -⟩ := exists_expire env hget hplace ⟨by omega, by omega⟩
      refine ⟨_, t, rfl, hstep, fun hsame => ?_⟩
      have hview : (t.view n).messages j =
          some (.queue (Topology.mainQueue row.channel), body.attemptNumber) := by
        simp only [view, Broker.about, hj, Option.bind_some]
        simp only [Message.about, hbody, hid, if_true]
      rw [hsame] at hview
      exact absurd (hrest.traffic.slot_of_queue hview) (by simp)
  | handling _ h w row recorded calls hatt => exact exists_handler_progress env hatt.handler
  | sent _ row hrest => exact hfinal hrest (by simp)
  | dead _ row hrest =>
      refine hfinal hrest ?_
      rintro m ⟨⟩
      rfl

/-- Delivery of the notification `n` refines the ladder in every undisturbed run. -/
structure FollowsLadder (env : Env) (n : String) : Prop where
  /-- The relation holds in the first state. -/
  start : (initial.view n).Refines env.config.maxRetries n none []
  /-- A step stays in its phase or is a step of the ladder. -/
  step : ∀ s event t phase outcomes, Undisturbed env s → s.undisturbed env event = true →
    s.step env event = some t → (s.view n).Refines env.config.maxRetries n phase outcomes →
    ∃ phase' outcomes', Moves env.config.maxRetries (phase, outcomes) (phase', outcomes') ∧
      (t.view n).Refines env.config.maxRetries n phase' outcomes'
  /-- Every state is in a phase that the ladder reaches with the outcomes so far. -/
  run : ∀ s, Undisturbed env s → ∃ phase outcomes,
    (s.view n).Refines env.config.maxRetries n phase outcomes ∧
      Follows env.config.maxRetries (phase, outcomes)
  /-- Apart from the time between a publish and the ack of the same delivery, at most one message is
  live. -/
  live : ∀ s, Undisturbed env s →
    (∀ h w, (s.view n).handlers h = some w → ¬ (s.view n).Republished w) →
    ∀ i j, (s.view n).Live i → (s.view n).Live j → i = j
  /-- The provider is called at most `maxRetries` times after the first call. -/
  calls : ∀ s, Undisturbed env s → ((s.view n).sends.length : Int) ≤ max env.config.maxRetries 0 + 1
  /-- The notification can go on until it has ended. -/
  progress : ∀ s, Undisturbed env s → (s.view n).row.isSome = true → ¬ (s.view n).Ended →
    ∃ event t, s.undisturbed env event = true ∧ s.step env event = some t ∧ t.view n ≠ s.view n
  /-- Left alone, the service makes at most as many steps as are left, and it comes to rest. -/
  bounded : ∀ s, Undisturbed env s →
    (∀ events t, EventMachine.run (System.step env) s events = some t →
      (∀ event ∈ events, event.own = true) → events.length ≤ s.stepsLeft env.config) ∧
    ∃ events t, EventMachine.run (System.step env) s events = some t ∧
      (∀ event ∈ events, event.own = true) ∧ t.AtRest env
  /-- When it has come to rest, the notification has ended. -/
  ends : ∀ s, Undisturbed env s → (s.view n).row.isSome = true → ∀ events t,
    EventMachine.run (System.step env) s events = some t →
      (∀ event ∈ events, event.own = true) → t.AtRest env →
      (t.view n).Ended ∧ (t.view n).Completed env.config.maxRetries n
  /-- When it has ended, its rows and messages say how. -/
  ended : ∀ s, Undisturbed env s → (s.view n).Ended → (s.view n).Completed env.config.maxRetries n

/-- For every configuration whose ladder has a rung for each retry, any number of requests with keys
of their own, any number of deliveries and every outcome of each router call: delivery
refines the ladder. -/
theorem follows_ladder (env : Env) (n : String)
    (hladder : env.config.maxRetries ≤ env.config.retryDelaysMs.length) : FollowsLadder env n where
  start := .absent rfl
  step := by
    intro s event t phase outcomes hreach hcalm hstep hrefines
    obtain ⟨_, _, hs, -⟩ := hreach.on_ladder hladder n
    have hnow : s.OnLadder env n phase outcomes :=
      ⟨hs.well_formed, hs.own_keys, hs.placed, hrefines⟩
    obtain ⟨phase', outcomes', hmoves, ht⟩ := hnow.step hladder hcalm hstep
    exact ⟨phase', outcomes', hmoves, ht.refines⟩
  run := by
    intro s hreach
    obtain ⟨phase, outcomes, hs, hfollows⟩ := hreach.on_ladder hladder n
    exact ⟨phase, outcomes, hs.refines, hfollows⟩
  live := by
    intro s hreach hnot i j hi hj
    obtain ⟨phase, outcomes, hs, hfollows⟩ := hreach.on_ladder hladder n
    exact hs.refines.live_unique hs.placed hfollows hnot hi hj
  calls := by
    intro s hreach
    obtain ⟨phase, outcomes, hs, hfollows⟩ := hreach.on_ladder hladder n
    exact hs.refines.calls_le hfollows
  progress := by
    intro s hreach hrow hnot
    obtain ⟨phase, outcomes, hs, hfollows⟩ := hreach.on_ladder hladder n
    obtain ⟨event, t, hown, hstep, hmoved⟩ := hs.progress hfollows hladder hrow hnot
    exact ⟨event, t, undisturbed_of_own hown, hstep, hmoved⟩
  bounded := by
    intro s hreach
    have hfree : Reaches (System.step env) (fun _ _ => True) initial s :=
      hreach.mono fun _ _ _ => trivial
    refine ⟨fun events t hrun hown => ?_, exists_rest hfree⟩
    have hle := own_run_le hfree hrun hown
    omega
  ends := by
    intro s hreach hrow events t hrun hown hrest
    have hlater : Reaches (System.step env) (fun s event => s.undisturbed env event = true) s t :=
      Reaches.of_run (fun event hmem _ => undisturbed_of_own (hown event hmem)) hrun
    have hstored : (t.view n).row.isSome = true := (grows_of_reaches hlater).find_by_id hrow
    have hlast : Undisturbed env t := hreach.trans hlater
    obtain ⟨phase, outcomes, ht, hfollows⟩ := hlast.on_ladder hladder n
    have hended : (t.view n).Ended := by
      by_contra hnot
      obtain ⟨event, u, hown, hstep, -⟩ := ht.progress hfollows hladder hstored hnot
      exact hrest.not_step hown hstep
    exact ⟨hended, ht.refines.completed hfollows hended⟩
  ended := by
    intro s hreach hended
    obtain ⟨phase, outcomes, hs, hfollows⟩ := hreach.on_ladder hladder n
    exact hs.refines.completed hfollows hended

/-- The first attempt fails transiently, the second one is delivered. -/
def secondAttempt : List Event :=
  (submission sample "id").append [.deliver .email 0, .work 0, .work 0,
    .send 0 (.failure "timeout" true), .work 0, .work 0, .work 0, .work 0, .expire 1,
    .deliver .email 2, .work 1, .work 1, .send 1 (.result "ref"), .work 1, .work 1, .work 1,
      .work 1]

theorem follows_ladder_second_attempt : FollowsLadder shipped "id" ∧
    ∃ s, run (System.step shipped) initial secondAttempt = some s ∧
      (s.view "id").row.map (fun row => (row.status, row.attemptCount)) = some (.sent, 2) ∧
      (s.view "id").Completed shipped.config.maxRetries "id" := by
  have hfollows := follows_ladder shipped "id" (by decide)
  have hlast : (run (guarded (System.step shipped) (undisturbed shipped)) initial secondAttempt).map
      (fun s => ((s.view "id").row.map fun row => (row.status, row.attemptCount),
        (List.range s.posts.next).all fun p => ((s.view "id").publishing p).isNone,
        (List.range s.broker.next).all fun i => ((s.view "id").messages i).isNone)) =
      some (some (.sent, 2), true, true) := by
    decide +kernel
  obtain ⟨s, hrun, hs⟩ := Option.map_eq_some_iff.mp hlast
  simp only [Prod.mk.injEq, List.all_eq_true, List.mem_range, Option.isNone_iff_eq_none] at hs
  obtain ⟨hrow, hquiet, hmessages⟩ := hs
  refine ⟨hfollows, s, run_of_guarded hrun, hrow, ?_⟩
  refine hfollows.ended s (Reaches.of_guarded_run (fun _ _ h => h) hrun) ⟨?_, fun p => ?_, ?_⟩
  · obtain ⟨row, hsome, -⟩ := Option.map_eq_some_iff.mp hrow
    simp [hsome]
  · rcases Nat.lt_or_ge p s.posts.next with hlt | hge
    · exact hquiet p hlt
    · simp [view, s.posts.fresh p hge]
  · rintro i ⟨place, k, hm, -⟩
    rcases Nat.lt_or_ge i s.broker.next with hlt | hge
    · exact absurd (hm.symm.trans (hmessages i hlt)) (by simp)
    · simp [view, Broker.about, s.broker.fresh i hge] at hm

end System

end NotificationDelivery
