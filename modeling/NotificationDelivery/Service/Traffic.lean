import NotificationDelivery.Service.Placement

/-!
# The messages of an undisturbed notification

While no delivery dies and no message is put back, every delivery of a notification holds its own
message, at most one delivery is busy, the others have only their ack left, and at most one
further message exists. `View.Traffic` says so; each lemma is about one thing that a step of
the view does to the messages and the deliveries.
-/

namespace NotificationDelivery

namespace View

/-- `done` attempts are over. Their deliveries have only the ack left, `busy` is the delivery of the
next attempt, and `slot` is the message that no delivery holds. -/
structure Traffic (c : Channel) (slot : Option (Place × Int)) (busy : Option Nat) (done : Nat)
    (v : View) : Prop where
  holds : ∀ h w, v.handlers h = some w → v.messages w.deliveryTag =
    some (.unacked (Topology.mainQueue c) h, w.message.attemptNumber)
  acking : ∀ h w, v.handlers h = some w → busy ≠ some h →
    w.pc = .ack ∧ w.message.attemptNumber ≤ done
  current : ∀ h w, v.handlers h = some w → busy = some h → w.message.attemptNumber = done + 1
  distinct : ∀ h w h' w', v.handlers h = some w → v.handlers h' = some w' →
    w.message.attemptNumber = w'.message.attemptNumber → h = h'
  waits : ∀ m, slot = some m → (∃ name, m.1 = .queue name) ∧ ∃ i, v.messages i = some m
  held : ∀ i m, v.messages i = some m →
    (∃ h w, v.handlers h = some w ∧ w.deliveryTag = i) ∨ slot = some m
  single : ∀ i j m, slot = some m → v.messages i = some m → v.messages j = some m → i = j

variable {c : Channel} {slot : Option (Place × Int)} {busy : Option Nat} {done : Nat}
    {v next : View} {h i j : Nat} {w : Handler} {m m' : Place × Int} {k : Int} {name : String}

theorem traffic_empty (c : Channel) : Traffic c none none 0 empty where
  holds := by simp [empty]
  acking := by simp [empty]
  current := by simp [empty]
  distinct := by simp [empty]
  waits := by simp
  held := by simp [empty]
  single := by simp

namespace Traffic

/-- Only the messages and the deliveries matter. -/
theorem of_eq (ht : Traffic c slot busy done v) (hmessages : next.messages = v.messages)
    (hhandlers : next.handlers = v.handlers) : Traffic c slot busy done next where
  holds := by simpa only [hmessages, hhandlers] using ht.holds
  acking := by simpa only [hhandlers] using ht.acking
  current := by simpa only [hhandlers] using ht.current
  distinct := by simpa only [hhandlers] using ht.distinct
  waits := by simpa only [hmessages] using ht.waits
  held := by simpa only [hmessages, hhandlers] using ht.held
  single := by simpa only [hmessages] using ht.single

/-- A message on a queue is held by nobody. -/
theorem slot_of_queue (ht : Traffic c slot busy done v)
    (hm : v.messages i = some (.queue name, k)) :
    slot = some (.queue name, k) := by
  rcases ht.held i _ hm with ⟨h, w, hw, rfl⟩ | hslot
  · exact absurd (hm.symm.trans (ht.holds h w hw)) (by simp)
  · exact hslot

/-- A delivery moves to another statement, and the deliveries that are not busy stay at their
ack. -/
theorem goto (ht : Traffic c slot busy done v) (hw : v.handlers h = some w) {pc : HandlerPc}
    {busy' : Option Nat} {done' : Nat} (hdone : done ≤ done')
    (hbusy : ∀ h', h' ≠ h → (busy' = some h' ↔ busy = some h'))
    (hacking : busy' ≠ some h → pc = .ack ∧ w.message.attemptNumber ≤ done')
    (hcurrent : ∀ h', busy' = some h' → h' = h ∧ w.message.attemptNumber = done' + 1) :
    Traffic c slot busy' done' (v.advance h w pc) where
  holds := by
    intro h' w' hw'
    rcases Registry.update_eq_some.mp hw' with ⟨rfl, heq⟩ | ⟨_, hw'⟩
    · obtain rfl := Option.some.inj heq
      exact ht.holds h' w hw
    · exact ht.holds h' w' hw'
  acking := by
    intro h' w' hw' hidle
    rcases Registry.update_eq_some.mp hw' with ⟨rfl, heq⟩ | ⟨hne, hw'⟩
    · obtain rfl := Option.some.inj heq
      exact hacking hidle
    · obtain ⟨hpc, hle⟩ := ht.acking h' w' hw' (fun hb => hidle ((hbusy h' hne).mpr hb))
      exact ⟨hpc, by omega⟩
  current := by
    intro h' w' hw' hb
    obtain ⟨rfl, hk⟩ := hcurrent h' hb
    rcases Registry.update_eq_some.mp hw' with ⟨_, heq⟩ | ⟨hne, _⟩
    · obtain rfl := Option.some.inj heq
      exact hk
    · exact absurd rfl hne
  distinct := by
    intro h₁ w₁ h₂ w₂ hw₁ hw₂ hk
    rcases Registry.update_eq_some.mp hw₁ with ⟨rfl, heq₁⟩ | ⟨_, hold₁⟩ <;>
      rcases Registry.update_eq_some.mp hw₂ with ⟨rfl, heq₂⟩ | ⟨_, hold₂⟩
    · rfl
    · obtain rfl := Option.some.inj heq₁
      exact ht.distinct h₁ w h₂ w₂ hw hold₂ hk
    · obtain rfl := Option.some.inj heq₂
      exact ht.distinct h₁ w₁ h₂ w hold₁ hw hk
    · exact ht.distinct h₁ w₁ h₂ w₂ hold₁ hold₂ hk
  waits := ht.waits
  held := by
    intro j m hm
    rcases ht.held j m hm with ⟨h', w', hw', htag⟩ | hslot
    · by_cases hh : h' = h
      · subst hh
        obtain rfl := Option.some.inj (hw'.symm.trans hw)
        exact .inl ⟨h', _, Function.update_self _ _ _, htag⟩
      · exact .inl ⟨h', w', Registry.update_eq_some.mpr (.inr ⟨hh, hw'⟩), htag⟩
    · exact .inr hslot
  single := ht.single

/-- The busy delivery moves on. -/
theorem advance (ht : Traffic c slot (some h) done v) (hw : v.handlers h = some w)
    (pc : HandlerPc) : Traffic c slot (some h) done (v.advance h w pc) := by
  refine ht.goto hw (Nat.le_refl _) (fun _ _ => Iff.rfl) (fun hne => absurd rfl hne) ?_
  intro h' hb
  exact ⟨(Option.some.inj hb).symm, ht.current h w hw rfl⟩

/-- The busy delivery has only its ack left. -/
theorem release (ht : Traffic c slot (some h) done v) (hw : v.handlers h = some w) :
    Traffic c slot none (done + 1) (v.advance h w .ack) := by
  refine ht.goto hw (Nat.le_succ _) ?_ (fun _ => ⟨rfl, ?_⟩) (by simp)
  · intro h' hne
    simpa using Ne.symm hne
  · have hk := ht.current h w hw rfl
    push_cast
    omega

/-- A message is put on a queue while none waits. -/
theorem put (ht : Traffic c none busy done v) (hfree : v.messages i = none) (name : String)
    (k : Int) :
    Traffic c (some (.queue name, k)) busy done (v.setMessage i (some (.queue name, k))) where
  holds := by
    intro h w hw
    have hheld := ht.holds h w hw
    have hne : w.deliveryTag ≠ i := by
      rintro rfl
      exact absurd (hheld.symm.trans hfree) (by simp)
    exact (Function.update_of_ne hne _ _).trans hheld
  acking := ht.acking
  current := ht.current
  distinct := ht.distinct
  waits := by
    rintro m ⟨⟩
    exact ⟨⟨name, rfl⟩, i, Function.update_self _ _ _⟩
  held := by
    intro j m hm
    rcases Registry.update_eq_some.mp hm with ⟨_, heq⟩ | ⟨_, hm⟩
    · exact .inr heq
    · rcases ht.held j m hm with hheld | hslot
      · exact .inl hheld
      · exact absurd hslot (by simp)
  single := by
    -- the messages that were there are held, so they are unacked
    have honly : ∀ j, (v.setMessage i (some (.queue name, k))).messages j = some (.queue name, k) →
        j = i := by
      intro j hm
      rcases Registry.update_eq_some.mp hm with ⟨hj, _⟩ | ⟨_, hm⟩
      · exact hj
      · exact absurd (ht.slot_of_queue hm) (by simp)
    rintro i' j' m ⟨⟩ hi hj
    exact (honly i' hi).trans (honly j' hj).symm

/-- The waiting message is taken off its queue. -/
theorem take (ht : Traffic c (some m) busy done v) (hm : v.messages i = some m) :
    Traffic c none busy done (v.setMessage i none) where
  holds := by
    intro h w hw
    have hheld := ht.holds h w hw
    have hne : w.deliveryTag ≠ i := by
      -- what waits is on a queue, and what a delivery holds is not
      rintro rfl
      obtain ⟨⟨name, hname⟩, _⟩ := ht.waits m rfl
      obtain rfl := Option.some.inj (hheld.symm.trans hm)
      exact absurd hname (by simp)
    exact (Function.update_of_ne hne _ _).trans hheld
  acking := ht.acking
  current := ht.current
  distinct := ht.distinct
  waits := by simp
  held := by
    intro j m' hm'
    rcases Registry.update_eq_some.mp hm' with ⟨_, heq⟩ | ⟨hne, hm'⟩
    · exact absurd heq (by simp)
    · rcases ht.held j m' hm' with hheld | hslot
      · exact .inl hheld
      · obtain rfl := Option.some.inj hslot
        exact absurd (ht.single j i m rfl hm' hm) hne
  single := by simp

/-- A worker receives the waiting message. -/
theorem deliver (ht : Traffic c (some m) none done v) (hm : v.messages i = some m)
    (hfree : v.handlers h = none) (hk : w.message.attemptNumber = done + 1)
    (htag : w.deliveryTag = i) :
    Traffic c none (some h) done
      { v.setMessage i (some (.unacked (Topology.mainQueue c) h, w.message.attemptNumber)) with
        handlers := Function.update v.handlers h (some w) } where
  holds := by
    intro h' w' hw'
    rcases Registry.update_eq_some.mp hw' with ⟨rfl, heq⟩ | ⟨_, hw'⟩
    · obtain rfl := Option.some.inj heq
      rw [htag]
      exact Function.update_self _ _ _
    · have hheld := (ht.take hm).holds h' w' hw'
      have hne : w'.deliveryTag ≠ i := by
        rintro rfl
        exact absurd (hheld.symm.trans (Function.update_self _ _ _)) (by simp)
      exact (Function.update_of_ne hne _ _).trans ((Function.update_of_ne hne _ _).symm.trans hheld)
  acking := by
    intro h' w' hw' hidle
    rcases Registry.update_eq_some.mp hw' with ⟨rfl, _⟩ | ⟨_, hw'⟩
    · exact absurd rfl hidle
    · exact ht.acking h' w' hw' (by simp)
  current := by
    intro h' w' hw' hb
    obtain rfl := Option.some.inj hb
    obtain rfl : w = w' := by simpa using hw'
    exact hk
  distinct := by
    -- the earlier attempts have smaller numbers
    have hearlier : ∀ h' w', v.handlers h' = some w' →
        w'.message.attemptNumber ≠ w.message.attemptNumber := by
      intro h' w' hw' hsame
      have hle := (ht.acking h' w' hw' (by simp)).2
      omega
    intro h₁ w₁ h₂ w₂ hw₁ hw₂ hsame
    rcases Registry.update_eq_some.mp hw₁ with ⟨rfl, heq₁⟩ | ⟨_, hold₁⟩ <;>
      rcases Registry.update_eq_some.mp hw₂ with ⟨rfl, heq₂⟩ | ⟨_, hold₂⟩
    · rfl
    · obtain rfl := Option.some.inj heq₁
      exact absurd hsame.symm (hearlier h₂ w₂ hold₂)
    · obtain rfl := Option.some.inj heq₂
      exact absurd hsame (hearlier h₁ w₁ hold₁)
    · exact ht.distinct h₁ w₁ h₂ w₂ hold₁ hold₂ hsame
  waits := by simp
  held := by
    intro j m' hm'
    rcases Registry.update_eq_some.mp hm' with ⟨rfl, _⟩ | ⟨hne, hm'⟩
    · exact .inl ⟨h, w, Function.update_self _ _ _, htag⟩
    · rcases ht.held j m' hm' with ⟨h', w', hw', htag'⟩ | hslot
      · have hh : h' ≠ h := by
          rintro rfl
          exact absurd (hw'.symm.trans hfree) (by simp)
        exact .inl ⟨h', w', Registry.update_eq_some.mpr (.inr ⟨hh, hw'⟩), htag'⟩
      · obtain rfl := Option.some.inj hslot
        exact absurd (ht.single j i m rfl hm' hm) hne
  single := by simp

/-- A delivery acks its message and ends. -/
theorem leave (ht : Traffic c slot busy done v) (hw : v.handlers h = some w)
    (hidle : busy ≠ some h) :
    Traffic c slot busy done
      { v.setMessage w.deliveryTag none with handlers := Function.update v.handlers h none } where
  holds := by
    intro h' w' hw'
    rcases Registry.update_eq_some.mp hw' with ⟨_, heq⟩ | ⟨hne, hw'⟩
    · exact absurd heq (by simp)
    · have hheld := ht.holds h' w' hw'
      -- a message is unacked for one consumer
      have htag : w'.deliveryTag ≠ w.deliveryTag := by
        intro htag
        rw [htag] at hheld
        have hsame := hheld.symm.trans (ht.holds h w hw)
        simp only [Option.some.injEq, Prod.mk.injEq, Place.unacked.injEq] at hsame
        exact hne hsame.1.2
      exact (Function.update_of_ne htag _ _).trans hheld
  acking := by
    intro h' w' hw'
    rcases Registry.update_eq_some.mp hw' with ⟨_, heq⟩ | ⟨_, hw'⟩
    · exact absurd heq (by simp)
    · exact ht.acking h' w' hw'
  current := by
    intro h' w' hw'
    rcases Registry.update_eq_some.mp hw' with ⟨_, heq⟩ | ⟨_, hw'⟩
    · exact absurd heq (by simp)
    · exact ht.current h' w' hw'
  distinct := by
    intro h₁ w₁ h₂ w₂ hw₁ hw₂
    rcases Registry.update_eq_some.mp hw₁ with ⟨_, heq⟩ | ⟨_, hw₁⟩
    · exact absurd heq (by simp)
    · rcases Registry.update_eq_some.mp hw₂ with ⟨_, heq⟩ | ⟨_, hw₂⟩
      · exact absurd heq (by simp)
      · exact ht.distinct h₁ w₁ h₂ w₂ hw₁ hw₂
  waits := by
    intro m hslot
    obtain ⟨hqueue, i, hm⟩ := ht.waits m hslot
    have hne : i ≠ w.deliveryTag := by
      rintro rfl
      obtain ⟨name, hname⟩ := hqueue
      obtain rfl := Option.some.inj (hm.symm.trans (ht.holds h w hw))
      exact absurd hname (by simp)
    exact ⟨hqueue, i, (Function.update_of_ne hne _ _).trans hm⟩
  held := by
    intro j m hm
    rcases Registry.update_eq_some.mp hm with ⟨_, heq⟩ | ⟨hne, hm⟩
    · exact absurd heq (by simp)
    · rcases ht.held j m hm with ⟨h', w', hw', htag⟩ | hslot
      · have hh : h' ≠ h := by
          rintro rfl
          obtain rfl := Option.some.inj (hw'.symm.trans hw)
          exact hne htag.symm
        exact .inl ⟨h', w', Registry.update_eq_some.mpr (.inr ⟨hh, hw'⟩), htag⟩
      · exact .inr hslot
  single := by
    intro i j m hslot hi hj
    rcases Registry.update_eq_some.mp hi with ⟨_, heq⟩ | ⟨_, hi⟩
    · exact absurd heq (by simp)
    · rcases Registry.update_eq_some.mp hj with ⟨_, heq⟩ | ⟨_, hj⟩
      · exact absurd heq (by simp)
      · exact ht.single i j m hslot hi hj

/-- The waiting message expires into another queue. -/
theorem expire (ht : Traffic c (some m) busy done v) (hm : v.messages i = some m)
    (hfree : v.messages j = none) (name : String) (k : Int) :
    Traffic c (some (.queue name, k)) busy done
      ((v.setMessage i none).setMessage j (some (.queue name, k))) := by
  have hne : j ≠ i := by
    rintro rfl
    exact absurd (hm.symm.trans hfree) (by simp)
  exact (ht.take hm).put ((Function.update_of_ne hne _ _).trans hfree) name k

end Traffic

end View

end NotificationDelivery
