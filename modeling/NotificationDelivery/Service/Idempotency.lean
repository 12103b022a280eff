import NotificationDelivery.Service.SentAbsorbing

/-!
# One delivery for one notification

Every request with a known key announces the notification again, so several deliveries of one
notification may run. `delivered_once` says what keeps the provider from delivering twice:
no delivery passes the status check while another one, past its own check, may still call the
provider or write the status.
-/

namespace NotificationDelivery

open EventMachine

namespace Handler

/-- The delivery has passed the status check and may still call the provider or write the status. A
delivery in the retry branch does neither. -/
def engaged (config : Config) (w : Handler) : Bool :=
  match w.pc with
  | .markProcessing _ | .send _ | .recordSuccess _ | .markSent | .recordDead _ _ | .publishDlq
  | .markDeadLettered => true
  | .incrementFailure _ isTransient => !w.retries config isTransient
  | .findById | .incrementSuccess | .recordRetry _ | .publishRetry | .ack => false

/-- The provider has delivered, and the delivery is on its way to `markSent`. -/
def Delivering (w : Handler) : Prop :=
  (∃ providerRef, w.pc = .recordSuccess providerRef) ∨ w.pc = .markSent

theorem Delivering.engaged (config : Config) {w : Handler} (h : w.Delivering) :
    w.engaged config = true := by
  rcases h with ⟨providerRef, hpc⟩ | hpc <;> simp [Handler.engaged, hpc]

end Handler

namespace View

/-- The router calls that returned a result. -/
def successes (v : View) : Nat := (v.sends.filter ProviderOutcome.isResult).length

/-- At most one delivery is engaged. Once the provider has delivered, either it is on its way to
`markSent`, or the notification is SENT and nobody is engaged. -/
structure Once (config : Config) (v : View) : Prop where
  alone : ∀ h w h' w', v.handlers h = some w → v.handlers h' = some w' →
    w.engaged config = true → w'.engaged config = true → h = h'
  count : v.successes = 0 ∨ (v.successes = 1 ∧
    ((∃ h w, v.handlers h = some w ∧ w.Delivering) ∨
      (v.Sent ∧ ∀ h w, v.handlers h = some w → w.engaged config = false)))

/-- A delivery passes the status check although another one is engaged. -/
def Overlaps (config : Config) (v : View) (event : Event) : Prop :=
  ∃ h w row h' w', event = .work h ∧ v.handlers h = some w ∧ w.pc = .findById ∧ v.row = some row ∧
    row.status.skipped = false ∧ v.handlers h' = some w' ∧ w'.engaged config = true

variable {env : Env} {config : Config} {n : String} {known : Prop} {v next u : View} {h : Nat}
  {w : Handler} {pc : HandlerPc} {event : Event}

theorem once_empty (config : Config) : empty.Once config where
  alone := by simp [empty]
  count := .inl rfl

namespace Once

/-- Only the deliveries, the status and the router calls matter. -/
theorem of_eq (honce : v.Once config) (hhandlers : next.handlers = v.handlers)
    (hsends : next.sends = v.sends) (hsent : v.Sent → next.Sent) : next.Once config where
  alone := hhandlers ▸ honce.alone
  count := by
    have hcount := honce.count
    simp only [successes, hsends, hhandlers] at hcount ⊢
    rcases hcount with hzero | ⟨hone, hdelivering | ⟨hs, hidle⟩⟩
    · exact .inl hzero
    · exact .inr ⟨hone, .inl hdelivering⟩
    · exact .inr ⟨hone, .inr ⟨hsent hs, hidle⟩⟩

/-- While a delivery is engaged that is not on its way to `markSent`, nothing is delivered. -/
theorem none_delivered (honce : v.Once config) (hget : v.handlers h = some w)
    (hengaged : w.engaged config = true) (hdelivering : ¬ w.Delivering) : v.successes = 0 := by
  rcases honce.count with hzero | ⟨-, ⟨h', w', hget', hd⟩ | ⟨-, hidle⟩⟩
  · exact hzero
  · obtain rfl := honce.alone h w h' w' hget hget' hengaged (hd.engaged config)
    obtain rfl := Option.some.inj (hget.symm.trans hget')
    exact absurd hd hdelivering
  · exact absurd hengaged (by simp [hidle h w hget])

/-- A delivery that is not engaged, before and after, moves on. -/
theorem quiet (honce : v.Once config) (hget : v.handlers h = some w)
    (hbefore : w.engaged config = false) (hafter : (w.goto pc).engaged config = false) :
    (v.advance h w pc).Once config where
  alone := by
    intro h₁ w₁ h₂ w₂ hget₁ hget₂ he₁ he₂
    rcases Registry.update_eq_some.mp hget₁ with ⟨_, heq⟩ | ⟨_, hget₁⟩
    · cases heq
      simp [hafter] at he₁
    · rcases Registry.update_eq_some.mp hget₂ with ⟨_, heq⟩ | ⟨_, hget₂⟩
      · cases heq
        simp [hafter] at he₂
      · exact honce.alone h₁ w₁ h₂ w₂ hget₁ hget₂ he₁ he₂
  count := by
    rcases honce.count with hzero | ⟨hone, ⟨h', w', hget', hd⟩ | ⟨hs, hidle⟩⟩
    · exact .inl hzero
    · refine .inr ⟨hone, .inl ⟨h', w', Registry.update_eq_some.mpr (.inr ⟨?_, hget'⟩), hd⟩⟩
      rintro rfl
      obtain rfl := Option.some.inj (hget.symm.trans hget')
      exact absurd (hd.engaged config) (by simp [hbefore])
    · refine .inr ⟨hone, .inr ⟨hs, fun h' w' hget' => ?_⟩⟩
      rcases Registry.update_eq_some.mp hget' with ⟨_, heq⟩ | ⟨_, hget'⟩
      · cases heq
        exact hafter
      · exact hidle h' w' hget'

/-- The engaged delivery moves on and stays the only one. -/
theorem alone_advance (honce : v.Once config) (hget : v.handlers h = some w)
    (hbefore : w.engaged config = true) (h₁ : Nat) (w₁ : Handler)
    (hget₁ : (v.advance h w pc).handlers h₁ = some w₁) (he₁ : w₁.engaged config = true) :
    h₁ = h := by
  rcases Registry.update_eq_some.mp hget₁ with ⟨heq, _⟩ | ⟨_, hget₁⟩
  · exact heq
  · exact honce.alone h₁ w₁ h w hget₁ hget he₁ hbefore

/-- The engaged delivery moves on before the provider has delivered. -/
theorem busy (honce : v.Once config) (hget : v.handlers h = some w)
    (hbefore : w.engaged config = true) (hdelivering : ¬ w.Delivering) :
    (v.advance h w pc).Once config where
  alone := by
    intro h₁ w₁ h₂ w₂ hget₁ hget₂ he₁ he₂
    exact (honce.alone_advance hget hbefore h₁ w₁ hget₁ he₁).trans
      (honce.alone_advance hget hbefore h₂ w₂ hget₂ he₂).symm
  count := .inl (honce.none_delivered hget hbefore hdelivering)

/-- A delivery that is not engaged leaves. -/
theorem remove (honce : v.Once config) (hget : v.handlers h = some w)
    (hbefore : w.engaged config = false) :
    { v with handlers := Function.update v.handlers h none }.Once config where
  alone := by
    intro h₁ w₁ h₂ w₂ hget₁ hget₂
    rcases Registry.update_eq_some.mp hget₁ with ⟨_, heq⟩ | ⟨_, hget₁⟩
    · exact absurd heq (by simp)
    · rcases Registry.update_eq_some.mp hget₂ with ⟨_, heq⟩ | ⟨_, hget₂⟩
      · exact absurd heq (by simp)
      · exact honce.alone h₁ w₁ h₂ w₂ hget₁ hget₂
  count := by
    rcases honce.count with hzero | ⟨hone, ⟨h', w', hget', hd⟩ | ⟨hs, hidle⟩⟩
    · exact .inl hzero
    · refine .inr ⟨hone, .inl ⟨h', w', Registry.update_eq_some.mpr (.inr ⟨?_, hget'⟩), hd⟩⟩
      rintro rfl
      obtain rfl := Option.some.inj (hget.symm.trans hget')
      exact absurd (hd.engaged config) (by simp [hbefore])
    · refine .inr ⟨hone, .inr ⟨hs, fun h' w' hget' => ?_⟩⟩
      rcases Registry.update_eq_some.mp hget' with ⟨_, heq⟩ | ⟨_, hget'⟩
      · exact absurd heq (by simp)
      · exact hidle h' w' hget'

/-- A delivery that has seen the provider deliver moves on to `markSent`. -/
theorem deliver (honce : v.Once config) (hget : v.handlers h = some w)
    (hbefore : w.engaged config = true) (hafter : (w.goto pc).Delivering)
    (hcount : v.successes ≤ 1) : (v.advance h w pc).Once config where
  alone := by
    intro h₁ w₁ h₂ w₂ hget₁ hget₂ he₁ he₂
    exact (honce.alone_advance hget hbefore h₁ w₁ hget₁ he₁).trans
      (honce.alone_advance hget hbefore h₂ w₂ hget₂ he₂).symm
  count := by
    rcases Nat.le_one_iff_eq_zero_or_eq_one.mp hcount with hzero | hone
    · exact .inl hzero
    · exact .inr ⟨hone, .inl ⟨h, w.goto pc, Function.update_self _ _ _, hafter⟩⟩

theorem successes_le (honce : v.Once config) : v.successes ≤ 1 := by
  rcases honce.count with hzero | ⟨hone, -⟩ <;> omega

/-- The statements of the deliveries. -/
theorem worked (honce : v.Once config) (hplaced : v.Placed config) (hget : v.handlers h = some w)
    (hguard : ¬ v.Overlaps config (.work h)) (hworked : v.Worked config h w next) :
    next.Once config := by
  have hincrement : v.increment.Once config := honce.of_eq rfl rfl sent_increment.mpr
  have hrecord : ∀ attempt, (v.record attempt).Once config := fun _ => honce.of_eq rfl rfl id
  have hput : ∀ i message, (v.setMessage i message).Once config := fun _ _ => honce.of_eq rfl rfl id
  cases hworked with
  | missed hpc | skipped row hpc =>
      exact honce.quiet hget (by simp [Handler.engaged, hpc]) (by simp [Handler.engaged])
  | found row hpc hrow hstatus =>
      have hidle : ∀ h' w', v.handlers h' = some w' → w'.engaged config = false := by
        intro h' w' hget'
        by_contra hengaged
        exact hguard
          ⟨h, w, row, h', w', rfl, hget, hpc, hrow, hstatus, hget', by simpa using hengaged⟩
      have honly : ∀ h₁ w₁, (v.advance h w (.markProcessing row)).handlers h₁ = some w₁ →
          w₁.engaged config = true → h₁ = h := by
        intro h₁ w₁ hget₁ he₁
        rcases Registry.update_eq_some.mp hget₁ with ⟨heq, _⟩ | ⟨_, hget₁⟩
        · exact heq
        · exact absurd he₁ (by simp [hidle h₁ w₁ hget₁])
      refine ⟨fun h₁ w₁ h₂ w₂ hget₁ hget₂ he₁ he₂ => ?_, .inl ?_⟩
      · exact (honly h₁ w₁ hget₁ he₁).trans (honly h₂ w₂ hget₂ he₂).symm
      · rcases honce.count with hzero | ⟨-, ⟨h', w', hget', hd⟩ | ⟨⟨row', hrow', hsent⟩, -⟩⟩
        · exact hzero
        · exact absurd (hd.engaged config) (by simp [hidle h' w' hget'])
        · obtain rfl := Option.some.inj (hrow.symm.trans hrow')
          simp [hsent, NotificationStatus.skipped] at hstatus
  | markedProcessing row hpc =>
      have hengaged : w.engaged config = true := by simp [Handler.engaged, hpc]
      have hdelivering : ¬ w.Delivering := by simp [Handler.Delivering, hpc]
      have hzero := honce.none_delivered hget hengaged hdelivering
      have hstatus : (v.setStatus .processing).Once config := ⟨honce.alone, .inl hzero⟩
      exact hstatus.busy hget hengaged hdelivering
  | recordedSuccess providerRef hpc =>
      exact (hrecord _).deliver hget (by simp [Handler.engaged, hpc]) (.inr rfl) honce.successes_le
  | markedSent hpc =>
      have hengaged : w.engaged config = true := by simp [Handler.engaged, hpc]
      have hidle : ∀ h₁ w₁,
          ((v.setStatus .sent).advance h w .incrementSuccess).handlers h₁ = some w₁ →
          w₁.engaged config = false := by
        intro h₁ w₁ hget₁
        rcases Registry.update_eq_some.mp hget₁ with ⟨_, heq⟩ | ⟨hne, hget₁⟩
        · cases heq
          simp [Handler.engaged]
        · by_contra he₁
          exact hne (honce.alone h₁ w₁ h w hget₁ hget (by simpa using he₁) hengaged)
      obtain ⟨row, hrow, -⟩ := Option.map_eq_some_iff.mp (hplaced.handler h w hget).1
      have hsent : ((v.setStatus .sent).advance h w .incrementSuccess).Sent :=
        ⟨{ row with status := .sent }, by simp [advance, setStatus, hrow], rfl⟩
      refine ⟨fun h₁ w₁ _ _ hget₁ _ he₁ _ => ?_, ?_⟩
      · exact absurd he₁ (by simp [hidle h₁ w₁ hget₁])
      · rcases honce.count with hzero | ⟨hone, -⟩
        · exact .inl hzero
        · exact .inr ⟨hone, .inr ⟨hsent, hidle⟩⟩
  | incrementedSuccess hpc =>
      exact hincrement.quiet hget (by simp [Handler.engaged, hpc]) (by simp [Handler.engaged])
  | incrementedRetry what isTransient hpc hretries =>
      exact hincrement.quiet hget (by simp [Handler.engaged, hpc, hretries])
        (by simp [Handler.engaged])
  | incrementedDead what isTransient hpc hretries =>
      exact hincrement.busy hget (by simp [Handler.engaged, hpc, hretries])
        (by simp [Handler.Delivering, hpc])
  | recordedRetry what hpc =>
      exact (hrecord _).quiet hget (by simp [Handler.engaged, hpc]) (by simp [Handler.engaged])
  | publishedRetry i hpc =>
      exact (hput i _).quiet hget (by simp [Handler.engaged, hpc]) (by simp [Handler.engaged])
  | droppedRetry hpc =>
      exact honce.quiet hget (by simp [Handler.engaged, hpc]) (by simp [Handler.engaged])
  | recordedDead what isTransient hpc =>
      exact (hrecord _).busy hget (by simp [Handler.engaged, hpc])
        (by simp [Handler.Delivering, hpc])
  | publishedDlq i hpc =>
      exact (hput i _).busy hget (by simp [Handler.engaged, hpc])
        (by simp [Handler.Delivering, hpc])
  | markedDeadLettered hpc =>
      have hengaged : w.engaged config = true := by simp [Handler.engaged, hpc]
      have hdelivering : ¬ w.Delivering := by simp [Handler.Delivering, hpc]
      have hzero := honce.none_delivered hget hengaged hdelivering
      have hstatus : (v.setStatus .deadLettered).Once config := ⟨honce.alone, .inl hzero⟩
      exact hstatus.busy hget hengaged hdelivering
  | acked hpc => exact (hput _ _).remove hget (by simp [Handler.engaged, hpc])
  | ackedLate hpc => exact honce.remove hget (by simp [Handler.engaged, hpc])

/-- The step lemma: without crashes and overlaps the provider delivers once. -/
theorem step (honce : v.Once env.config) (hplaced : v.Placed env.config)
    (hcrash : ∀ h, event ≠ .crash h) (hguard : ¬ v.Overlaps env.config event)
    (hstep : View.Step env n known v event next) : next.Once env.config := by
  cases hstep with
  | unrelated => exact honce
  | found | published | aborted | expired | requeued => exact honce.of_eq rfl rfl id
  | committed p saved hnone =>
      refine honce.of_eq rfl rfl ?_
      intro h
      obtain ⟨row, hrow, -⟩ := h
      exact absurd (hrow.symm.trans hnone) (by simp)
  | delivered c i h w hmessage hfree hc htag hid hpc =>
      have hidle : w.engaged env.config = false := by simp [Handler.engaged, hpc]
      -- the new delivery is not engaged before its status check
      refine ⟨fun h₁ w₁ h₂ w₂ hget₁ hget₂ he₁ he₂ => ?_, ?_⟩
      · rcases Registry.update_eq_some.mp hget₁ with ⟨_, heq⟩ | ⟨_, hget₁⟩
        · cases heq
          simp [hidle] at he₁
        · rcases Registry.update_eq_some.mp hget₂ with ⟨_, heq⟩ | ⟨_, hget₂⟩
          · cases heq
            simp [hidle] at he₂
          · exact honce.alone h₁ w₁ h₂ w₂ hget₁ hget₂ he₁ he₂
      · rcases honce.count with hzero | ⟨hone, ⟨h', w', hget', hd⟩ | ⟨hs, hall⟩⟩
        · exact .inl hzero
        · refine .inr ⟨hone, .inl ⟨h', w', Registry.update_eq_some.mpr (.inr ⟨?_, hget'⟩), hd⟩⟩
          rintro rfl
          exact absurd (hfree.symm.trans hget') (by simp)
        · refine .inr ⟨hone, .inr ⟨hs, fun h' w' hget' => ?_⟩⟩
          rcases Registry.update_eq_some.mp hget' with ⟨_, heq⟩ | ⟨_, hget'⟩
          · cases heq
            exact hidle
          · exact hall h' w' hget'
  | worked h w next hget hid hworked => exact honce.worked hplaced hget hguard hworked
  | sent h w row outcome hget hid hpc =>
      have hengaged : w.engaged env.config = true := by simp [Handler.engaged, hpc]
      have hdelivering : ¬ w.Delivering := by simp [Handler.Delivering, hpc]
      have hzero := honce.none_delivered hget hengaged hdelivering
      cases outcome with
      | result providerRef =>
          have hone : { v with
              sends := v.sends ++ [ProviderOutcome.result providerRef] }.successes = 1 := by
            simp only [successes, List.filter_append, List.length_append] at hzero ⊢
            rw [hzero]
            rfl
          refine ⟨fun h₁ w₁ h₂ w₂ hget₁ hget₂ he₁ he₂ => ?_, .inr ⟨hone, .inl ?_⟩⟩
          · exact (honce.alone_advance hget hengaged h₁ w₁ hget₁ he₁).trans
              (honce.alone_advance hget hengaged h₂ w₂ hget₂ he₂).symm
          · exact ⟨h, _, Function.update_self _ _ _, .inl ⟨providerRef, rfl⟩⟩
      | failure what isTransient =>
          have hnone : { v with
              sends := v.sends ++ [ProviderOutcome.failure what isTransient] }.successes = 0 := by
            simp only [successes, List.filter_append, List.length_append] at hzero ⊢
            rw [hzero]
            rfl
          refine ⟨fun h₁ w₁ h₂ w₂ hget₁ hget₂ he₁ he₂ => ?_, .inl hnone⟩
          exact (honce.alone_advance hget hengaged h₁ w₁ hget₁ he₁).trans
            (honce.alone_advance hget hengaged h₂ w₂ hget₂ he₂).symm
  | crashed h => exact absurd rfl (hcrash h)

end Once

end View

namespace System

/-- A delivery passes the status check of `onMessage` while another delivery of the notification is
engaged. -/
def overlaps (config : Config) (s : System) : Event → Bool
  | .work h =>
      (s.handlers.get h).any fun w =>
        w.pc = .findById &&
        (s.db.findById w.notificationId).any (fun row => !row.status.skipped) &&
        (List.range s.handlers.next).any fun h' => (s.handlers.get h').any fun w' =>
          w'.notificationId = w.notificationId && w'.engaged config
  | _ => false

/-- A step that neither kills a delivery nor lets two deliveries overlap. -/
def orderly (config : Config) (s : System) (event : Event) : Bool :=
  (match event with
    | .crash _ => false
    | _ => true) && !s.overlaps config event

/-- The calls of `NotificationProvider::send` for a notification that returned. -/
def successes (s : System) (n : String) : Nat :=
  (s.sends.filter fun call => call.1 = n ∧ call.2.isResult).length

variable {env : Env} {s : System} {n : String} {event : Event}

/-- The view shows no overlap unless there is one. -/
theorem overlaps_of_view (hover : (s.view n).Overlaps env.config event) :
    s.overlaps env.config event = true := by
  obtain ⟨h, w, row, h', w', rfl, hview, hpc, hrow, hstatus, hview', hengaged⟩ := hover
  obtain ⟨hget, rfl⟩ := view_handlers.mp hview
  obtain ⟨hget', hid⟩ := view_handlers.mp hview'
  have hfind : s.db.findById w.notificationId = some row := hrow
  have hother : ((List.range s.handlers.next).any fun h' => (s.handlers.get h').any fun w' =>
      w'.notificationId = w.notificationId && w'.engaged env.config) = true := by
    refine List.any_eq_true.mpr ⟨h', List.mem_range.mpr (Registry.lt_next hget'), ?_⟩
    simp [hget', hid, hengaged]
  simp only [overlaps, hget, Option.any_some, hpc, hfind, hstatus, hother]
  rfl

theorem successes_view (s : System) (n : String) : (s.view n).successes = s.successes n := by
  simp only [View.successes, view, successes, List.filter_map, List.length_map, List.filter_filter]
  congr 2
  funext call
  simp [Bool.and_comm]

/-- Any number of requests with any keys, any number of deliveries, a broker that may put messages
back, requests that may end early: in every run without crashes of deliveries in which no
delivery passes the status check while another one of the notification is engaged, the
provider delivers a notification at most once. -/
theorem delivered_once (env : Env) (s : System) (n : String)
    (hreach : Reaches (System.step env) (fun s event => s.orderly env.config event = true)
      initial s) : s.successes n ≤ 1 := by
  let invariant (v : View) : Prop := v.Placed env.config ∧ v.Once env.config
  have honce : invariant (s.view n) := by
    refine view_invariant hreach ⟨View.placed_empty _, View.once_empty _⟩ ?_
    intro s event next _ hallowed hview hstep
    simp only [orderly, Bool.and_eq_true, Bool.not_eq_true'] at hallowed
    refine ⟨hview.1.step hstep, hview.2.step hview.1 (fun h heq => ?_) (fun hover => ?_) hstep⟩
    · simp [heq] at hallowed
    · rw [overlaps_of_view hover] at hallowed
      exact absurd hallowed.2 (by simp)
  rw [← successes_view]
  exact honce.2.successes_le

/-- A client sends the same request twice; the second one finds the key. -/
def submissions : List Event :=
  [.request sample "id", .request sample "id'", .post 0, .post 0, .post 0, .post 0, .post 0,
    .post 0, .post 1, .post 1]

/-- The two deliveries come one after the other. -/
def repeated : List Event :=
  submissions.append [.deliver .email 0, .work 0, .work 0, .send 0 (.result "ref"), .work 0,
    .work 0, .work 0, .work 0, .deliver .email 1, .work 1, .work 1]

theorem delivered_once_repeated :
    ∃ s, run (System.step shipped) initial repeated = some s ∧ s.successes "id" ≤ 1 := by
  have hsome : (run (guarded (System.step shipped) (orderly shipped.config)) initial
      repeated).isSome = true := by decide +kernel
  obtain ⟨s, hrun⟩ := Option.isSome_iff_exists.mp hsome
  exact ⟨s, run_of_guarded hrun,
    delivered_once shipped s "id" (Reaches.of_guarded_run (fun _ _ h => h) hrun)⟩

/-- Both messages are delivered before the provider has answered. -/
def concurrent : List Event :=
  submissions.append [.deliver .email 0, .deliver .email 1, .work 0, .work 1, .work 0, .work 1,
    .send 0 (.result "ref"), .send 1 (.result "ref'")]

/-- No crash, no redelivery, no failing statement, one key, one notification, two deliveries. -/
theorem delivered_twice :
    ∃ s, run (System.step shipped) initial concurrent = some s ∧
      s.db.notifications.map Notification.id = ["id"] ∧ s.successes "id" = 2 := by
  have hlast : (run (System.step shipped) initial concurrent).map (fun s =>
      (s.db.notifications.map Notification.id, s.successes "id")) = some (["id"], 2) := by
    decide +kernel
  obtain ⟨s, hrun, hs⟩ := Option.map_eq_some_iff.mp hlast
  exact ⟨s, hrun, congrArg Prod.fst hs, congrArg Prod.snd hs⟩

end System

end NotificationDelivery
