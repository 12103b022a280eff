import NotificationDelivery.Service.Placement

/-!
# One delivery at a time

Runs in which a worker receives a message of a notification only while no other delivery of the
notification runs, as with one worker for each channel. A message may still be there more than
once, and deliveries may die and messages be put back at any time.
-/

namespace NotificationDelivery

/-- The message is queued, waiting or unacked. A message on a dead-letter queue is not. -/
inductive Place.Live : Place → Prop where
  | queued (c : Channel) : Live (.queue (Topology.mainQueue c))
  | waiting (c : Channel) (rung : Int) : Live (.queue (Topology.retryQueue c rung))
  | unacked (name : String) (consumer : Nat) : Live (.unacked name consumer)

namespace View

/-- Some message for the notification is live. -/
def Alive (v : View) : Prop := ∃ i place k, v.messages i = some (place, k) ∧ place.Live

/-- A worker receives a message of the notification while a delivery of it runs. -/
def Crowds (v : View) (event : Event) : Prop :=
  ∃ c i m h w, event = .deliver c i ∧ v.messages i = some m ∧ v.handlers h = some w

/-- At most one delivery runs. Its message is unacked at it, or was put back and waits until the
delivery has ended. -/
structure Solo (v : View) : Prop where
  alone : ∀ h w h' w', v.handlers h = some w → v.handlers h' = some w' → h' = h
  held : ∀ h w, v.handlers h = some w → ∃ place,
    v.messages w.deliveryTag = some (place, w.message.attemptNumber) ∧
      (place = .queue (Topology.mainQueue w.channel) ∨
        place = .unacked (Topology.mainQueue w.channel) h)

variable {env : Env} {config : Config} {n : String} {known : Prop} {v next u : View}
  {h h' i j : Nat} {w w' : Handler} {pc : HandlerPc} {event : Event} {m : Place × Int}

theorem solo_empty : empty.Solo where
  alone := by simp [empty]
  held := by simp [empty]

namespace Solo

theorem unique (hsolo : v.Solo) (hget : v.handlers h = some w) (hget' : v.handlers h' = some w') :
    h' = h ∧ w' = w := by
  obtain rfl := hsolo.alone h w h' w' hget hget'
  exact ⟨rfl, Option.some.inj (hget'.symm.trans hget)⟩

/-- After a statement the delivery is still the only one. -/
theorem advanced (hsolo : v.Solo) (hget : v.handlers h = some w) (hu : u.handlers = v.handlers)
    (hget' : (u.advance h w pc).handlers h' = some w') : h' = h ∧ w' = w.goto pc := by
  rcases Registry.update_eq_some.mp hget' with ⟨rfl, heq⟩ | ⟨hne, hget'⟩
  · exact ⟨rfl, (Option.some.inj heq).symm⟩
  · rw [hu] at hget'
    exact absurd (hsolo.unique hget hget').1 hne

/-- After the delivery ends no other one runs. -/
theorem removed (hsolo : v.Solo) (hget : v.handlers h = some w) :
    Function.update v.handlers h none h' = none := by
  by_contra hne
  obtain ⟨w', hget'⟩ := Option.ne_none_iff_exists'.mp hne
  rcases Registry.update_eq_some.mp hget' with ⟨_, heq⟩ | ⟨hother, hget'⟩
  · exact absurd heq (by simp)
  · exact hother (hsolo.unique hget hget').1

/-- A worker receives a message of the notification only if no delivery of it runs. -/
theorem idle_of_deliver {c : Channel} (hguard : ¬ v.Crowds (.deliver c i))
    (hmessage : v.messages i = some m) (h : Nat) : v.handlers h = none := by
  by_contra hne
  obtain ⟨w, hget⟩ := Option.ne_none_iff_exists'.mp hne
  exact hguard ⟨c, i, m, h, w, rfl, hmessage, hget⟩

/-- A delivery that starts while no other one runs is the only one. -/
theorem received {c : Channel} (hguard : ¬ v.Crowds (.deliver c i))
    (hmessage : v.messages i = some m)
    (hget' : Function.update v.handlers h (some w) h' = some w') : h' = h ∧ w' = w := by
  rcases Registry.update_eq_some.mp hget' with ⟨rfl, heq⟩ | ⟨_, hget'⟩
  · exact ⟨rfl, (Option.some.inj heq).symm⟩
  · exact absurd hget' (by simp [idle_of_deliver hguard hmessage])

/-- Only the messages and the deliveries matter. -/
theorem of_eq (hsolo : v.Solo) (hmessages : next.messages = v.messages)
    (hhandlers : next.handlers = v.handlers) : next.Solo where
  alone := hhandlers ▸ hsolo.alone
  held := by
    rw [hmessages, hhandlers]
    exact hsolo.held

theorem advance (hsolo : v.Solo) (hget : v.handlers h = some w) : (v.advance h w pc).Solo where
  alone := by
    intro h₁ w₁ h₂ w₂ hget₁ hget₂
    exact (hsolo.advanced hget rfl hget₂).1.trans (hsolo.advanced hget rfl hget₁).1.symm
  held := by
    intro h' w' hget'
    obtain ⟨rfl, rfl⟩ := hsolo.advanced hget rfl hget'
    exact hsolo.held h' w hget

theorem remove (hsolo : v.Solo) (hget : v.handlers h = some w)
    (hnext : next.handlers = Function.update v.handlers h none) : next.Solo where
  alone := by
    intro h₁ w₁ h₂ w₂ hget₁
    rw [hnext, hsolo.removed hget] at hget₁
    exact absurd hget₁ (by simp)
  held := by
    intro h₁ w₁ hget₁
    rw [hnext, hsolo.removed hget] at hget₁
    exact absurd hget₁ (by simp)

/-- A message that no delivery works on is changed. -/
theorem put (hsolo : v.Solo) (hfree : ∀ h w, v.handlers h = some w → w.deliveryTag ≠ i)
    (value : Option (Place × Int)) : (v.setMessage i value).Solo where
  alone := hsolo.alone
  held := by
    intro h w hget
    obtain ⟨place, hmessage, hplace⟩ := hsolo.held h w hget
    exact ⟨place, (Function.update_of_ne (hfree h w hget) _ _).trans hmessage, hplace⟩

/-- The delivery number of a delivery is in use. -/
theorem tag_ne_of_free (hsolo : v.Solo) (hfree : v.messages i = none) (h : Nat) (w : Handler)
    (hget : v.handlers h = some w) : w.deliveryTag ≠ i := by
  rintro rfl
  obtain ⟨place, hmessage, _⟩ := hsolo.held h w hget
  exact absurd (hfree.symm.trans hmessage) (by simp)

theorem worked (hsolo : v.Solo) (hget : v.handlers h = some w)
    (hworked : v.Worked config h w next) :
    next.Solo := by
  have hquiet : ∀ {u : View} {pc : HandlerPc}, u.messages = v.messages → u.handlers = v.handlers →
      (u.advance h w pc).Solo := by
    intro u pc hmessages hhandlers
    exact (hsolo.of_eq hmessages hhandlers).advance (hhandlers ▸ hget)
  cases hworked with
  | publishedRetry i _ hfree =>
      exact (hsolo.put (hsolo.tag_ne_of_free hfree) _).advance hget
  | publishedDlq i _ hfree => exact (hsolo.put (hsolo.tag_ne_of_free hfree) _).advance hget
  | acked | ackedLate => exact hsolo.remove hget rfl
  | _ => exact hquiet rfl rfl

/-- The step lemma. -/
theorem step (hsolo : v.Solo) (hguard : ¬ v.Crowds event)
    (hstep : View.Step env n known v event next) : next.Solo := by
  cases hstep with
  | unrelated => exact hsolo
  | found | committed | aborted => exact hsolo.of_eq rfl rfl
  | published p saved i _ hfree =>
      exact (hsolo.put (hsolo.tag_ne_of_free hfree) _).of_eq rfl rfl
  | delivered c i h w hmessage hfree hc htag =>
      refine ⟨fun h₁ w₁ h₂ w₂ hget₁ hget₂ => ?_, fun h₁ w₁ hget₁ => ?_⟩
      · obtain ⟨rfl, _⟩ := received hguard hmessage hget₁
        exact (received hguard hmessage hget₂).1
      · obtain ⟨rfl, rfl⟩ := received hguard hmessage hget₁
        subst hc htag
        exact ⟨_, Function.update_self _ _ _, .inr rfl⟩
  | worked h w next hget _ hworked => exact hsolo.worked hget hworked
  | sent h w row outcome hget =>
      have hadvance : (v.advance h w (Handler.afterSend outcome)).Solo := hsolo.advance hget
      exact hadvance.of_eq rfl rfl
  | crashed h w hget => exact hsolo.remove hget rfl
  | expired i j c rung k hmessage hfree =>
      have htaken : (v.setMessage i none).Solo := by
        refine hsolo.put (fun h w hget => ?_) none
        rintro rfl
        obtain ⟨place, hheld, rfl | rfl⟩ := hsolo.held h w hget <;> simp [hheld] at hmessage
      refine htaken.put (fun h w hget => hsolo.tag_ne_of_free hfree h w hget) _
  | requeued i name consumer k hmessage =>
      refine ⟨hsolo.alone, fun h w hget => ?_⟩
      obtain ⟨place, hheld, hplace⟩ := hsolo.held h w hget
      by_cases htag : w.deliveryTag = i
      · -- the message goes back to the queue that it came from
        rw [htag] at hheld ⊢
        have hsame := hheld.symm.trans hmessage
        rcases hplace with rfl | rfl
        · simp at hsame
        · cases hsame
          exact ⟨_, Function.update_self _ _ _, .inl rfl⟩
      · exact ⟨place, (Function.update_of_ne htag _ _).trans hheld, hplace⟩

end Solo

end View

namespace System

/-- A worker receives a message of `n` while a delivery of `n` runs. -/
def crowds (n : String) (s : System) : Event → Bool
  | .deliver _ i => (s.broker.about n i).isSome &&
      (List.range s.handlers.next).any fun h =>
        (s.handlers.get h).any fun w => w.notificationId = n
  | _ => false

/-- Some message for `n` is live. -/
def Alive (s : System) (n : String) : Prop :=
  ∃ i m body, s.broker.get i = some m ∧ MessageBody.fromJson m.envelope.body = .ok body ∧
    body.notificationId = n ∧ m.place.Live

variable {env : Env} {s : System} {n : String} {event : Event}

theorem crowds_of_view (hcrowds : (s.view n).Crowds event) : s.crowds n event = true := by
  obtain ⟨c, i, m, h, w, rfl, hmessage, hview⟩ := hcrowds
  obtain ⟨hget, rfl⟩ := view_handlers.mp hview
  have hsome : (s.broker.about w.notificationId i).isSome = true := by
    show ((s.view w.notificationId).messages i).isSome = true
    simp [hmessage]
  have hrunning : ((List.range s.handlers.next).any fun h' =>
      (s.handlers.get h').any fun w' => w'.notificationId = w.notificationId) = true := by
    refine List.any_eq_true.mpr ⟨h, List.mem_range.mpr (Registry.lt_next hget), ?_⟩
    simp [hget]
  simp only [crowds, hsome, hrunning, Bool.and_self]

theorem alive_view : (s.view n).Alive ↔ s.Alive n := by
  constructor
  · intro h
    obtain ⟨i, place, k, hmessage, hlive⟩ := h
    obtain ⟨m, hget, habout⟩ := Option.bind_eq_some_iff.mp hmessage
    cases hbody : MessageBody.fromJson m.envelope.body with
    | error e => simp [Message.about, hbody] at habout
    | ok body =>
        rw [Message.about_of_body hbody] at habout
        split at habout
        · rename_i hid
          cases habout
          exact ⟨i, m, body, hget, hbody, hid, hlive⟩
        · exact absurd habout (by simp)
  · intro h
    obtain ⟨i, m, body, hget, hbody, hid, hlive⟩ := h
    refine ⟨i, m.place, body.attemptNumber, ?_, hlive⟩
    show (s.broker.get i).bind (Message.about n) = _
    rw [hget, Option.bind_some, Message.about_of_body hbody, if_pos hid]

end System

end NotificationDelivery
