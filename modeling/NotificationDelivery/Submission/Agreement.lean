import NotificationDelivery.Submission.Atomicity

/-!
# Concurrent submissions under one key

Calls with one idempotency key, among any other calls, when nothing fails but an `INSERT` on a
key that is taken. The lookup of a call runs outside its transaction. `agrees_iff` says when the
calls nevertheless agree on one notification: no lookup finds nothing while another call has
found nothing and has not committed.
-/

namespace NotificationDelivery

open EventMachine

namespace InsertPc

/-- The lookup has found nothing, and the new row is not committed. -/
def pending : InsertPc → Bool
  | .releaseLookup none | .startTransaction | .insertNotification | .insertOutbox | .commit => true
  | _ => false

theorem pending_of_decided {pc : InsertPc} (h : pc.decided = true) : pc.pending = false := by
  unfold pending
  split
  · simp [decided, thrownBy] at h
  · simp [decided, thrownBy] at h
  · simp [decided, thrownBy] at h
  · simp [decided, thrownBy] at h
  · simp [decided, thrownBy] at h
  · rfl

/-- The result that the call has on hand. -/
def result : InsertPc → Option InsertResult
  | .releaseLookup result => result
  | .release result | .ended result => some result
  | _ => none

end InsertPc

/-- The key of the call is `key` for the tables. -/
def InsertCall.Under (collate : String → String) (key : String) (call : InsertCall) : Prop :=
  collate call.input.idempotencyKey = collate key

namespace Submissions

/-- No statement throws on its own, and a new call draws an id of its own. -/
def calm (s : Submissions) : SubmissionEvent → Bool
  | .call _ uuid => (List.range s.calls.next).all fun c => (s.calls.get c).all (·.uuid ≠ uuid)
  | .work _ => true
  | .throw _ | .throwApplied _ => false

/-- The steps when nothing fails for another reason than its key. -/
abbrev calmStep (collate : String → String) : Submissions → SubmissionEvent → Option Submissions :=
  guarded (step collate) calm

/-- A lookup under the key finds nothing while another call is between its lookup and its
`COMMIT`. -/
def Overlaps (collate : String → String) (key : String) (s : Submissions)
    (event : SubmissionEvent) :
    Prop :=
  ∃ c call c' other, event = .work c ∧ s.calls.get c = some call ∧ call.Under collate key ∧
    call.pc = .findByIdempotencyKey ∧
    s.db.findByIdempotencyKey collate call.input.idempotencyKey = none ∧
    s.calls.get c' = some other ∧ other.Under collate key ∧ other.pc.pending = true

/-- The key has one row and one outbox row, and every call under the key has returned it. -/
def Agrees (collate : String → String) (key : String) (s : Submissions) : Prop :=
  ∃ n, (s.db.notifications.filter fun m => collate m.idempotencyKey = collate key) = [n] ∧
    (s.db.outboxEvents.filter fun row => row.notificationId = n.id) = [n.outbox] ∧
    ∀ c call, s.calls.get c = some call → call.Under collate key →
      ∃ m, call.pc = .ended (.returned m) ∧ m.id = n.id

/-- Ids are not shared, and every row is that of a call which has committed it. -/
structure OwnIds (s : Submissions) : Prop where
  distinct : ∀ c call c' call', s.calls.get c = some call → s.calls.get c' = some call' →
    call.uuid = call'.uuid → c = c'
  rows : ∀ n ∈ s.db.notifications, ∃ c call, s.calls.get c = some call ∧ n = call.row ∧
    call.pc.decided = true

/-- At most one call under the key is pending, none of them fails, and what they have found is the
row of the key. -/
structure Agreeing (collate : String → String) (key : String) (s : Submissions) : Prop where
  alone : ∀ c call c' call', s.calls.get c = some call → s.calls.get c' = some call' →
    call.Under collate key → call'.Under collate key → call.pc.pending = true →
    call'.pc.pending = true → c = c'
  absent : ∀ c call, s.calls.get c = some call → call.Under collate key → call.pc.pending = true →
    ∀ n ∈ s.db.notifications, collate n.idempotencyKey ≠ collate key
  stored : ∀ c call n, s.calls.get c = some call → call.Under collate key →
    call.pc.result = some (.returned n) →
    n ∈ s.db.notifications ∧ collate n.idempotencyKey = collate key
  clean : ∀ c call, s.calls.get c = some call → call.Under collate key → call.pc.thrownBy = none

variable {collate : String → String} {key : String} {s t : Submissions} {event : SubmissionEvent}
  {c : Nat} {call : InsertCall} {pc : InsertPc} {size : Nat}

theorem own_ids_initial (size : Nat) : (initial size).OwnIds where
  distinct := by simp [initial]
  rows := by simp [initial]

theorem agreeing_initial (collate : String → String) (key : String) (size : Nat) :
    (initial size).Agreeing collate key where
  alone := by simp [initial]
  absent := by simp [initial]
  stored := by simp [initial]
  clean := by simp [initial]

/-- A new call draws an id that no earlier call has. -/
theorem uuid_fresh {input : Notification} {uuid : String}
    (hcalm : s.calm (.call input uuid) = true) (hget : s.calls.get c = some call) :
    call.uuid ≠ uuid := by
  simp only [calm, List.all_eq_true, List.mem_range] at hcalm
  simpa [hget] using hcalm c (Registry.lt_next hget)

/-- The step lemma for the ids. -/
theorem OwnIds.step (hown : s.OwnIds) (hcalm : s.calm event = true)
    (h : Effect collate s event t) : t.OwnIds := by
  cases h with
  | called input uuid _ hdb hcalls =>
      refine ⟨fun c₁ call₁ c₂ call₂ h₁ h₂ hid => ?_, fun n hn => ?_⟩
      · rw [hcalls] at h₁ h₂
        rcases Registry.update_eq_some.mp h₁ with ⟨hc₁, heq₁⟩ | ⟨_, hold₁⟩ <;>
          rcases Registry.update_eq_some.mp h₂ with ⟨hc₂, heq₂⟩ | ⟨_, hold₂⟩
        · exact hc₁.trans hc₂.symm
        · obtain rfl := Option.some.inj heq₁
          exact absurd hid.symm (uuid_fresh hcalm hold₂)
        · obtain rfl := Option.some.inj heq₂
          exact absurd hid (uuid_fresh hcalm hold₁)
        · exact hown.distinct c₁ call₁ c₂ call₂ hold₁ hold₂ hid
      · rw [hdb] at hn
        obtain ⟨c, call, hget, hrow, hdecided⟩ := hown.rows n hn
        refine ⟨c, call, ?_, hrow, hdecided⟩
        rw [hcalls]
        exact (Function.update_of_ne (Nat.ne_of_lt (Registry.lt_next hget)) _ _).trans hget
  | moved c call pc handles _ _ hget hmoved hcalls =>
      have hold : ∀ c' call', t.calls.get c' = some call' →
          ∃ old, s.calls.get c' = some old ∧ call'.uuid = old.uuid := by
        intro c' call' hget'
        rw [hcalls] at hget'
        rcases Registry.update_eq_some.mp hget' with ⟨rfl, heq⟩ | ⟨_, hget'⟩
        · obtain rfl := Option.some.inj heq
          exact ⟨call, hget, rfl⟩
        · exact ⟨call', hget', rfl⟩
      refine ⟨fun c₁ call₁ c₂ call₂ h₁ h₂ hid => ?_, fun n hn => ?_⟩
      · obtain ⟨old₁, hold₁, huuid₁⟩ := hold c₁ call₁ h₁
        obtain ⟨old₂, hold₂, huuid₂⟩ := hold c₂ call₂ h₂
        exact hown.distinct c₁ old₁ c₂ old₂ hold₁ hold₂ (by rw [← huuid₁, ← huuid₂, hid])
      · have hrow : n ∈ s.db.notifications ∨ (n = call.row ∧ pc.decided = true) := by
          rcases hmoved.decided.1 with hdb | ⟨hdb, hdecided⟩ <;> rw [hdb] at hn
          · exact .inl hn
          · rcases List.mem_append.mp hn with hn | hn
            · exact .inl hn
            · exact .inr ⟨List.mem_singleton.mp hn, hdecided⟩
        rcases hrow with hn | ⟨rfl, hdecided⟩
        · obtain ⟨c', call', hget', rfl, hdecided⟩ := hown.rows n hn
          by_cases hc : c' = c
          · subst hc
            obtain rfl := Option.some.inj (hget.symm.trans hget')
            exact ⟨c', { call with handles, pc }, by rw [hcalls, Function.update_self], rfl,
              hmoved.decided.2 hdecided⟩
          · exact ⟨c', call', by rw [hcalls, Function.update_of_ne hc, hget'], rfl, hdecided⟩
        · exact ⟨c, { call with handles, pc }, by rw [hcalls, Function.update_self], rfl, hdecided⟩

namespace Agreeing

/-- A step that leaves the tables alone. -/
theorem quiet (h : s.Agreeing collate key) {handles : List Nat}
    (hcalls : t.calls.get = Function.update s.calls.get c (some { call with handles, pc }))
    (hdb : t.db = s.db)
    (hpending : call.Under collate key → pc.pending = true →
      (∀ c' call', c' ≠ c → s.calls.get c' = some call' → call'.Under collate key →
        call'.pc.pending = false) ∧
      ∀ n ∈ s.db.notifications, collate n.idempotencyKey ≠ collate key)
    (hresult : ∀ n, call.Under collate key → pc.result = some (.returned n) →
      n ∈ s.db.notifications ∧ collate n.idempotencyKey = collate key)
    (hclean : call.Under collate key → pc.thrownBy = none) : t.Agreeing collate key := by
  have hold : ∀ c' call', t.calls.get c' = some call' →
      (c' = c ∧ call' = { call with handles, pc }) ∨ (c' ≠ c ∧ s.calls.get c' = some call') := by
    intro c' call' hget'
    rw [hcalls] at hget'
    rcases Registry.update_eq_some.mp hget' with ⟨hc, heq⟩ | hold
    · exact .inl ⟨hc, (Option.some.inj heq).symm⟩
    · exact .inr hold
  refine ⟨fun c₁ call₁ c₂ call₂ h₁ h₂ hu₁ hu₂ hp₁ hp₂ => ?_,
    fun c' call' hget' hunder hp n hn => ?_,
    fun c' call' n hget' hunder hr => ?_, fun c' call' hget' hunder => ?_⟩
  · rcases hold c₁ call₁ h₁ with ⟨hc₁, rfl⟩ | ⟨hne₁, hold₁⟩ <;>
      rcases hold c₂ call₂ h₂ with ⟨hc₂, rfl⟩ | ⟨hne₂, hold₂⟩
    · exact hc₁.trans hc₂.symm
    · exact absurd hp₂ (by simp [(hpending hu₁ hp₁).1 c₂ call₂ hne₂ hold₂ hu₂])
    · exact absurd hp₁ (by simp [(hpending hu₂ hp₂).1 c₁ call₁ hne₁ hold₁ hu₁])
    · exact h.alone c₁ call₁ c₂ call₂ hold₁ hold₂ hu₁ hu₂ hp₁ hp₂
  · rw [hdb] at hn
    rcases hold c' call' hget' with ⟨_, rfl⟩ | ⟨_, hgetold⟩
    · exact (hpending hunder hp).2 n hn
    · exact h.absent c' call' hgetold hunder hp n hn
  · rw [hdb]
    rcases hold c' call' hget' with ⟨_, rfl⟩ | ⟨_, hgetold⟩
    · exact hresult n hunder hr
    · exact h.stored c' call' n hgetold hunder hr
  · rcases hold c' call' hget' with ⟨_, rfl⟩ | ⟨_, hgetold⟩
    · exact hclean hunder
    · exact h.clean c' call' hgetold hunder

/-- A pending call stays the only one. -/
theorem alone_of_pending (h : s.Agreeing collate key) (hget : s.calls.get c = some call)
    (hunder : call.Under collate key) (hpending : call.pc.pending = true) :
    (∀ c' call', c' ≠ c → s.calls.get c' = some call' → call'.Under collate key →
      call'.pc.pending = false) ∧
      ∀ n ∈ s.db.notifications, collate n.idempotencyKey ≠ collate key := by
  refine ⟨fun c' call' hne hget' hunder' => ?_, h.absent c call hget hunder hpending⟩
  by_contra hp
  exact hne (h.alone c' call' c call hget' hget hunder' hunder (by simpa using hp) hpending)

/-- A new call has found nothing and inserted nothing. -/
theorem called (h : s.Agreeing collate key) {input : Notification} {uuid : String}
    (hcalls : t.calls = s.calls.insert { input, uuid }) (hdb : t.db = s.db) :
    t.Agreeing collate key := by
  have hold : ∀ c call, t.calls.get c = some call →
      call = { input, uuid } ∨ s.calls.get c = some call := by
    intro c call hget
    rw [hcalls] at hget
    rcases Registry.update_eq_some.mp hget with ⟨_, heq⟩ | ⟨_, hold⟩
    · exact .inl (Option.some.inj heq).symm
    · exact .inr hold
  refine ⟨fun c₁ call₁ c₂ call₂ h₁ h₂ hu₁ hu₂ hp₁ hp₂ => ?_,
    fun c' call' hget' hunder hp n hn => ?_,
    fun c' call' n hget' hunder hr => ?_, fun c' call' hget' hunder => ?_⟩
  · rcases hold c₁ call₁ h₁ with rfl | hold₁
    · simp [InsertPc.pending] at hp₁
    · rcases hold c₂ call₂ h₂ with rfl | hold₂
      · simp [InsertPc.pending] at hp₂
      · exact h.alone c₁ call₁ c₂ call₂ hold₁ hold₂ hu₁ hu₂ hp₁ hp₂
  · rcases hold c' call' hget' with rfl | hgetold
    · simp [InsertPc.pending] at hp
    · exact h.absent c' call' hgetold hunder hp n (hdb ▸ hn)
  · rcases hold c' call' hget' with rfl | hgetold
    · simp [InsertPc.result] at hr
    · rw [hdb]
      exact h.stored c' call' n hgetold hunder hr
  · rcases hold c' call' hget' with rfl | hgetold
    · rfl
    · exact h.clean c' call' hgetold hunder

/-- The `COMMIT` of the pending call under the key, or of a call under another key. -/
theorem commit (h : s.Agreeing collate key) (hget : s.calls.get c = some call)
    (hcall : call.pc = .commit) {handles : List Nat}
    (hcalls : t.calls.get = Function.update s.calls.get c
      (some { call with handles, pc := .release (.returned call.row) }))
    (hdb : t.db = s.db.commitInsert call.row) : t.Agreeing collate key := by
  have hold : ∀ c' call', t.calls.get c' = some call' →
      (c' = c ∧ call' = { call with handles, pc := .release (.returned call.row) }) ∨
        (c' ≠ c ∧ s.calls.get c' = some call') := by
    intro c' call' hget'
    rw [hcalls] at hget'
    rcases Registry.update_eq_some.mp hget' with ⟨hc, heq⟩ | hold
    · exact .inl ⟨hc, (Option.some.inj heq).symm⟩
    · exact .inr hold
  have hmem : ∀ n, n ∈ t.db.notifications ↔ n ∈ s.db.notifications ∨ n = call.row := by
    intro n
    rw [hdb]
    show n ∈ s.db.notifications ++ [call.row] ↔ _
    rw [List.mem_append, List.mem_singleton]
  have hpending : call.pc.pending = true := by rw [hcall]; rfl
  refine ⟨fun c₁ call₁ c₂ call₂ h₁ h₂ hu₁ hu₂ hp₁ hp₂ => ?_,
    fun c' call' hget' hunder hp n hn => ?_,
    fun c' call' n hget' hunder hr => ?_, fun c' call' hget' hunder => ?_⟩
  · rcases hold c₁ call₁ h₁ with ⟨_, rfl⟩ | ⟨_, hold₁⟩
    · simp [InsertPc.pending] at hp₁
    · rcases hold c₂ call₂ h₂ with ⟨_, rfl⟩ | ⟨_, hold₂⟩
      · simp [InsertPc.pending] at hp₂
      · exact h.alone c₁ call₁ c₂ call₂ hold₁ hold₂ hu₁ hu₂ hp₁ hp₂
  · rcases hold c' call' hget' with ⟨_, rfl⟩ | ⟨hne, hgetold⟩
    · simp [InsertPc.pending] at hp
    · rcases (hmem n).mp hn with hn | rfl
      · exact h.absent c' call' hgetold hunder hp n hn
      · -- Two pending calls would both be under the key.
        exact fun hkey => hne (h.alone c' call' c call hgetold hget hunder hkey hp hpending)
  · rcases hold c' call' hget' with ⟨_, rfl⟩ | ⟨_, hgetold⟩
    · cases hr
      exact ⟨(hmem _).mpr (.inr rfl), hunder⟩
    · obtain ⟨hn, hkey⟩ := h.stored c' call' n hgetold hunder hr
      exact ⟨(hmem n).mpr (.inl hn), hkey⟩
  · rcases hold c' call' hget' with ⟨_, rfl⟩ | ⟨_, hgetold⟩
    · rfl
    · exact h.clean c' call' hgetold hunder

/-- The `INSERT` of a pending call under the key finds its keys free. -/
theorem not_duplicate (h : s.Agreeing collate key) (hown : s.OwnIds)
    (hget : s.calls.get c = some call) (hunder : call.Under collate key)
    (hpending : call.pc.pending = true) {n : Notification} (hn : n ∈ s.db.notifications) :
    ¬ call.row.Collides collate n := by
  intro hcollides
  rcases hcollides with hid | hkey
  · obtain ⟨c', call', hget', rfl, hdecided⟩ := hown.rows n hn
    obtain rfl := hown.distinct c call c' call' hget hget' hid
    obtain rfl := Option.some.inj (hget.symm.trans hget')
    exact absurd hpending (by simp [InsertPc.pending_of_decided hdecided])
  · exact h.absent c call hget hunder hpending n hn (hkey.symm.trans hunder)

/-- The step lemma: without an overlap the calls keep agreeing. -/
theorem step (h : s.Agreeing collate key) (hown : s.OwnIds) (hcalm : s.calm event = true)
    (hguard : ¬ s.Overlaps collate key event) (heffect : Effect collate s event t) :
    t.Agreeing collate key := by
  cases heffect with
  | called input uuid _ hdb hcalls => exact h.called hcalls hdb
  | moved c call pc handles _ _ hget hmoved hcalls =>
      have hclean := h.clean c call hget
      have halone := fun hunder hpending => h.alone_of_pending hget hunder hpending
      generalize hdb : t.db = db at hmoved
      cases hmoved with
      | acquired pc hpc =>
          rcases InsertPc.acquired_cases hpc with ⟨_, rfl⟩ | ⟨_, rfl⟩ <;>
            exact h.quiet hcalls hdb (by simp [InsertPc.pending]) (by simp [InsertPc.result])
              fun _ => rfl
      | released pc hpc =>
          rcases InsertPc.released_cases hpc with ⟨hcall, rfl⟩ | ⟨result, hcall, rfl⟩ |
            ⟨result, hcall, rfl⟩
          · exact h.quiet hcalls hdb (fun hunder _ => halone hunder (by rw [hcall]; rfl))
              (by simp [InsertPc.result]) fun _ => rfl
          · refine h.quiet hcalls hdb (by simp [InsertPc.pending])
              (fun n hunder hn => h.stored c call n hget hunder (by rw [hcall]; exact hn))
              fun hunder => ?_
            have hnone := hclean hunder
            rw [hcall] at hnone
            cases result <;> simp_all [InsertPc.thrownBy]
          · refine h.quiet hcalls hdb (by simp [InsertPc.pending])
              (fun n hunder hn => h.stored c call n hget hunder (by rw [hcall]; exact hn))
              fun hunder => ?_
            have hnone := hclean hunder
            rw [hcall] at hnone
            cases result <;> simp_all [InsertPc.thrownBy]
      | found n hcall hfind =>
          obtain ⟨hn, hkey⟩ := Database.mem_of_find_key hfind
          refine h.quiet hcalls hdb (by simp [InsertPc.pending]) (fun m hunder hm => ?_)
            fun _ => rfl
          cases hm
          exact ⟨hn, hkey.trans hunder⟩
      | missed hcall hfind =>
          refine h.quiet hcalls hdb (fun hunder _ => ⟨fun c' other hne hget' hunder' => ?_, ?_⟩)
            (by simp [InsertPc.result]) fun _ => rfl
          · by_contra hp
            exact hguard ⟨c, call, c', other, rfl, hget, hunder, hcall, hfind, hget', hunder',
              by simpa using hp⟩
          · intro n hn
            rw [← hunder]
            exact Database.key_free_of_find hfind n hn
      | started hcall | inserted hcall | outboxInserted hcall =>
          exact h.quiet hcalls hdb (fun hunder _ => halone hunder (by rw [hcall]; rfl))
            (by simp [InsertPc.result]) fun _ => rfl
      | duplicate n hcall hn hcollides =>
          refine h.quiet hcalls hdb (by simp [InsertPc.pending]) (by simp [InsertPc.result])
            fun hunder => ?_
          exact absurd hcollides (h.not_duplicate hown hget hunder (by rw [hcall]; rfl) hn)
      | committed hcall => exact h.commit hget hcall hcalls hdb
      | rolledBack statement hcall =>
          refine h.quiet hcalls hdb (by simp [InsertPc.pending]) (by simp [InsertPc.result])
            fun hunder => ?_
          exact absurd (hclean hunder) (by simp [hcall, InsertPc.thrownBy])
      | threw => exact absurd hcalm (by simp [calm])
      | threwApplied => exact absurd hcalm (by simp [calm])

end Agreeing

/-- The `INSERT` of a pending call under the key never waits. -/
theorem not_locked (hwell : s.WellFormed) (hown : s.OwnIds) (hagreeing : s.Agreeing collate key)
    (hget : s.calls.get c = some call) (hunder : call.Under collate key)
    (hpending : call.pc.pending = true) {session : Nat}
    (hhead : call.handles.head? = some session) :
    s.locked collate session call.row = false := by
  by_contra hlocked
  simp only [locked, Bool.not_eq_false, List.any_eq_true, List.mem_range, Bool.and_eq_true,
    decide_eq_true_eq, Option.any_eq_true] at hlocked
  obtain ⟨other, hlt, hdifferent, rows, hrows, m, hm, hcollides⟩ := hlocked
  -- The row that is waited for belongs to a call with the other session.
  obtain ⟨c', call', hget', hheld⟩ : ∃ c' call', s.calls.get c' = some call' ∧
      other ∈ call'.handles := by
    by_contra hnone
    have hidle := hwell.idle other fun c' call' hget' hx => hnone ⟨c', call', hget', hx⟩
    exact absurd (hidle.symm.trans hrows) (by simp)
  obtain rfl := hwell.own c' call' other rows hget' hheld hrows m hm
  -- It is another call, because a call has a transaction on its only session.
  have hne : c ≠ c' := by
    rintro rfl
    obtain rfl := Option.some.inj (hget.symm.trans hget')
    have hopened : call.opened = some rows := by
      refine (hwell.opened c call other hget hheld fun statement hpc => ?_).symm.trans hrows
      exact absurd hpending (by simp [hpc, InsertPc.pending])
    have hdepth : call.pc.depth = 1 := by
      cases hpc : call.pc <;> simp [InsertCall.opened, hpc] at hopened <;> rfl
    rw [hwell.handles_of_head hget hhead hdepth, List.mem_singleton] at hheld
    exact hdifferent hheld
  rcases hcollides with hid | hkey
  · exact hne (hown.distinct c call c' call' hget hget' hid)
  · have hunder' : call'.Under collate key := hkey.symm.trans hunder
    have hopened : call'.opened = some rows := by
      refine (hwell.opened c' call' other hget' hheld fun statement hpc => ?_).symm.trans hrows
      exact absurd (hagreeing.clean c' call' hget' hunder') (by simp [hpc, InsertPc.thrownBy])
    have hpending' : call'.pc.pending = true := by
      cases hpc : call'.pc <;> simp [InsertCall.opened, hpc] at hopened <;> rfl
    exact hne (hagreeing.alone c call c' call' hget hget' hunder hunder' hpending hpending')

/-- While a session is available, only a call that has ended can do nothing. -/
theorem ended_of_stuck (hwell : s.WellFormed) (hown : s.OwnIds) (hagreeing : s.Agreeing collate key)
    (hfree : s.available ≠ []) (hget : s.calls.get c = some call) (hunder : call.Under collate key)
    (hstuck : s.step collate (.work c) = none) : ∃ result, call.pc = .ended result := by
  obtain ⟨_, hlength, _⟩ := hwell.handles c call hget
  have hwork : s.work collate c call = none := by
    simpa [Submissions.step, hget] using hstuck
  have hhandles : 0 < call.pc.depth → ∃ session rest, call.handles = session :: rest := by
    intro hdepth
    exact List.exists_cons_of_length_pos (by rw [hlength]; exact hdepth)
  obtain ⟨_, _, havailable⟩ := List.exists_cons_of_ne_nil hfree
  have hexecute : ∀ session rest, call.handles = session :: rest → call.pc.acquired = none →
      call.pc.released = none → s.execute collate session call = none := by
    intro session rest hsession hacquired hreleased
    cases hresult : s.execute collate session call with
    | none => rfl
    | some next => simp [work, hacquired, hreleased, hsession, hresult] at hwork
  cases hcall : call.pc with
  | ended result => exact ⟨result, rfl⟩
  | acquire | acquireLookup => simp [work, hcall, InsertPc.acquired, acquire, havailable] at hwork
  | releaseLookup result =>
      obtain ⟨session, rest, hsession⟩ := hhandles (by simp [hcall, InsertPc.depth])
      cases result <;>
        simp [work, hcall, InsertPc.acquired, InsertPc.released, release, hsession] at hwork
  | release result =>
      obtain ⟨session, rest, hsession⟩ := hhandles (by simp [hcall, InsertPc.depth])
      simp [work, hcall, InsertPc.acquired, InsertPc.released, release, hsession] at hwork
  | insertNotification =>
      obtain ⟨session, rest, hsession⟩ := hhandles (by simp [hcall, InsertPc.depth])
      have hnone := hexecute session rest hsession (by simp [hcall, InsertPc.acquired])
        (by simp [hcall, InsertPc.released])
      have hunlocked := not_locked hwell hown hagreeing hget hunder (by rw [hcall]; rfl)
        (by rw [hsession]; rfl)
      simp only [execute, hcall, hunlocked] at hnone
      split at hnone <;> simp at hnone
  | findByIdempotencyKey | startTransaction | insertOutbox | commit | rollback =>
      obtain ⟨session, rest, hsession⟩ := hhandles (by simp [hcall, InsertPc.depth])
      have hnone := hexecute session rest hsession (by simp [hcall, InsertPc.acquired])
        (by simp [hcall, InsertPc.released])
      simp [execute, hcall] at hnone

/-- Calls that keep agreeing agree at the end. -/
theorem agrees_of_agreeing (hwell : s.WellFormed) (hmatched : s.Matched collate) (hown : s.OwnIds)
    (hagreeing : s.Agreeing collate key) (hfree : s.available ≠ [])
    (hget : s.calls.get c = some call) (hunder : call.Under collate key)
    (hstuck : ∀ c call, s.calls.get c = some call → call.Under collate key →
      s.step collate (.work c) = none) : s.Agrees collate key := by
  have hended : ∀ c call, s.calls.get c = some call → call.Under collate key →
      ∃ n, call.pc = .ended (.returned n) ∧ n ∈ s.db.notifications ∧
        collate n.idempotencyKey = collate key := by
    intro c call hget hunder
    obtain ⟨result, hpc⟩ := ended_of_stuck hwell hown hagreeing hfree hget hunder
      (hstuck c call hget hunder)
    cases result with
    | returned n => exact ⟨n, hpc, hagreeing.stored c call n hget hunder (by rw [hpc]; rfl)⟩
    | threw statement =>
        exact absurd (hagreeing.clean c call hget hunder) (by simp [hpc, InsertPc.thrownBy])
  obtain ⟨n, _, hn, hkey⟩ := hended c call hget hunder
  have hrow : (s.db.notifications.filter fun m => collate m.idempotencyKey = collate key) =
      [n] := by
    refine Table.filter_eq_singleton hmatched.apart hn (by simpa using hkey) fun a b ha hb => ?_
    simp only [decide_eq_true_eq] at ha hb
    exact .inr (ha.trans hb.symm)
  refine ⟨n, hrow, ?_, fun c' call' hget' hunder' => ?_⟩
  · have hid : (s.db.notifications.filter fun m => m.id = n.id) = [n] := by
      refine Table.filter_eq_singleton hmatched.apart hn (by simp) fun a b ha hb => ?_
      simp only [decide_eq_true_eq] at ha hb
      exact .inl (ha.trans hb.symm)
    rw [hmatched.outbox, List.filter_map]
    exact congrArg (List.map Notification.outbox) hid
  · obtain ⟨m, hpc, hm, hkeym⟩ := hended c' call' hget' hunder'
    have hmem : m ∈ s.db.notifications.filter fun m => collate m.idempotencyKey = collate key :=
      List.mem_filter.mpr ⟨hm, by simpa using hkeym⟩
    rw [hrow, List.mem_singleton] at hmem
    exact ⟨m, hpc, congrArg Notification.id hmem⟩

/-- The lookup of the call has found nothing, so the call can only return its own row. -/
theorem Moved.own_row {db : Database} (h : Moved collate s c call event db pc)
    (hown : call.pc.pending = true ∨ call.pc.thrownBy ≠ none ∨
      call.pc.result = some (.returned call.row)) :
    pc.pending = true ∨ pc.thrownBy ≠ none ∨ pc.result = some (.returned call.row) := by
  have hthrew : ∀ statement, pc.thrownBy = some statement → pc.thrownBy ≠ none := by simp_all
  cases h with
  | acquired pc hpc =>
      rcases InsertPc.acquired_cases hpc with ⟨hcall, _⟩ | ⟨hcall, _⟩ <;>
        simp [hcall, InsertPc.pending, InsertPc.thrownBy, InsertPc.result] at hown
  | found n hcall | missed hcall =>
      simp [hcall, InsertPc.pending, InsertPc.thrownBy, InsertPc.result] at hown
  | released pc hpc =>
      rcases InsertPc.released_cases hpc with ⟨_, rfl⟩ | ⟨result, hcall, rfl⟩ | ⟨result, hcall, rfl⟩
      · exact .inl rfl
      · rw [hcall] at hown
        cases result <;> simp_all [InsertPc.pending, InsertPc.thrownBy, InsertPc.result]
      · rw [hcall] at hown
        cases result <;> simp_all [InsertPc.pending, InsertPc.thrownBy, InsertPc.result]
  | started | inserted | outboxInserted => exact .inl rfl
  | committed => exact .inr (.inr rfl)
  | duplicate | rolledBack | threwApplied => exact .inr (.inl (hthrew _ rfl))
  | threw pc hpc =>
      rcases InsertPc.thrown_cases hpc with ⟨_, rfl⟩ | ⟨_, rfl⟩ | ⟨_, rfl⟩ | ⟨_, rfl⟩ | ⟨_, rfl⟩ <;>
        exact .inr (.inl (hthrew _ rfl))

/-- The lookup of the call has found nothing under the key. -/
def OwnRow (collate : String → String) (key : String) (s : Submissions) (c : Nat) : Prop :=
  ∃ call, s.calls.get c = some call ∧ call.Under collate key ∧
    (call.pc.pending = true ∨ call.pc.thrownBy ≠ none ∨
      call.pc.result = some (.returned call.row))

/-- A call that has found nothing goes on to its own row. -/
theorem Effect.own_row (h : Effect collate s event t) (hown : s.OwnRow collate key c) :
    t.OwnRow collate key c := by
  obtain ⟨call, hget, hunder, hrow⟩ := hown
  cases h with
  | called input uuid _ hdb hcalls =>
      refine ⟨call, ?_, hunder, hrow⟩
      rw [hcalls]
      exact (Function.update_of_ne (Nat.ne_of_lt (Registry.lt_next hget)) _ _).trans hget
  | moved c' old pc handles _ _ hget' hmoved hcalls =>
      by_cases hc : c = c'
      · subst hc
        obtain rfl := Option.some.inj (hget.symm.trans hget')
        exact ⟨{ call with handles, pc }, by rw [hcalls, Function.update_self], hunder,
          hmoved.own_row hrow⟩
      · exact ⟨call, by rw [hcalls, Function.update_of_ne hc, hget], hunder, hrow⟩

/-- A lookup that finds nothing. -/
theorem Effect.missed (h : Effect collate s (.work c) t) (hget : s.calls.get c = some call)
    (hunder : call.Under collate key) (hcall : call.pc = .findByIdempotencyKey)
    (hfind : s.db.findByIdempotencyKey collate call.input.idempotencyKey = none) :
    t.OwnRow collate key c := by
  cases h with
  | moved c' old pc handles _ _ hget' hmoved hcalls =>
      obtain rfl : c = c' := Option.some.inj hmoved.caller_eq
      obtain rfl := Option.some.inj (hget.symm.trans hget')
      refine ⟨{ call with handles, pc }, by rw [hcalls, Function.update_self], hunder, .inl ?_⟩
      generalize t.db = db at hmoved
      cases hmoved with
      | missed => rfl
      | found n _ hfound => exact absurd (hfound.symm.trans hfind) (by simp)
      | acquired pc hpc => simp [hcall, InsertPc.acquired] at hpc
      | released pc hpc => simp [hcall, InsertPc.released] at hpc
      | _ => simp_all

/-- After an overlap two calls can only return different ids. -/
theorem OwnIds.not_agrees (hown : s.OwnIds) {c' : Nat} (hne : c ≠ c')
    (hrow : s.OwnRow collate key c) (hrow' : s.OwnRow collate key c') : ¬ s.Agrees collate key := by
  intro hagrees
  obtain ⟨n, _, _, hall⟩ := hagrees
  have hid : ∀ c, s.OwnRow collate key c → ∃ call, s.calls.get c = some call ∧
      call.uuid = n.id := by
    intro c hrow
    obtain ⟨call, hget, hunder, hcall⟩ := hrow
    obtain ⟨m, hpc, hm⟩ := hall c call hget hunder
    rw [hpc] at hcall
    rcases hcall with hpending | hthrew | hresult
    · exact absurd hpending (by simp [InsertPc.pending])
    · exact absurd rfl hthrew
    · cases hresult
      exact ⟨call, hget, hm⟩
  obtain ⟨call, hget, hcall⟩ := hid c hrow
  obtain ⟨call', hget', hcall'⟩ := hid c' hrow'
  exact hne (hown.distinct c call c' call' hget hget' (hcall.trans hcall'.symm))

/-- The invariant rule for runs in which nothing fails for another reason than its key. -/
theorem calm_invariant {allowed : Submissions → SubmissionEvent → Prop}
    {property : Submissions → Prop} {start : Submissions}
    (hreach : Reaches (calmStep collate) allowed start s) (hwell : start.WellFormed)
    (hstart : property start)
    (hkeep : ∀ state event next, property state → state.calm event = true → allowed state event →
      Effect collate state event next → property next) : property s :=
  effect_invariant hreach.of_guarded hwell hstart
    fun state event next hinv hallowed => hkeep state event next hinv hallowed.1 hallowed.2

/-- What calm runs keep. -/
theorem reachable_calm {allowed : Submissions → SubmissionEvent → Prop}
    (hreach : Reaches (calmStep collate) allowed (initial size) s) :
    s.WellFormed ∧ s.Matched collate ∧ s.OwnIds :=
  ⟨reachable_well_formed hreach.of_guarded, reachable_matched hreach.of_guarded,
    calm_invariant hreach (well_formed_initial size) (own_ids_initial size)
      fun _ _ _ hown hcalm _ heffect => hown.step hcalm heffect⟩

/-- Without an overlap the calls keep agreeing. -/
theorem reachable_agreeing
    (hreach : Reaches (calmStep collate) (fun state event => ¬ state.Overlaps collate key event)
      (initial size) s) : s.Agreeing collate key := by
  have hboth : ∀ state event next, state.OwnIds ∧ state.Agreeing collate key →
      state.calm event = true → ¬ state.Overlaps collate key event →
      Effect collate state event next → next.OwnIds ∧ next.Agreeing collate key := by
    intro state event next hinv hcalm hguard heffect
    exact ⟨hinv.1.step hcalm heffect, hinv.2.step hinv.1 hcalm hguard heffect⟩
  exact (calm_invariant hreach (well_formed_initial size)
    ⟨own_ids_initial size, agreeing_initial collate key size⟩ hboth).2

/-- The calls under a key agree on one notification if and only if no lookup under the key finds
nothing while another call is between its lookup and its `COMMIT`. The run ends when no call under
the key can do anything and a session is left. -/
theorem agrees_iff (collate : String → String) (key : String) (size : Nat)
    (events : List SubmissionEvent) (s : Submissions)
    (hrun : run (calmStep collate) (initial size) events = some s) (hfree : s.available ≠ [])
    (hcall : ∃ c call, s.calls.get c = some call ∧ call.Under collate key)
    (hstuck : ∀ c call, s.calls.get c = some call → call.Under collate key →
      s.step collate (.work c) = none) :
    s.Agrees collate key ↔
      ∀ state event, Performs (calmStep collate) (initial size) events state event →
        ¬ state.Overlaps collate key event := by
  have hreach : Reaches (calmStep collate) (fun _ _ => True) (initial size) s :=
    Reaches.of_run (by simp) hrun
  obtain ⟨hwell, hmatched, hown⟩ := reachable_calm hreach
  constructor
  · intro hagrees state event hperforms hoverlap
    obtain ⟨c, call, c', other, rfl, hget, hunder, hpc, hfind, hget', hunder', hpending⟩ := hoverlap
    have hne : c ≠ c' := by
      rintro rfl
      obtain rfl := Option.some.inj (hget.symm.trans hget')
      simp [hpc, InsertPc.pending] at hpending
    -- Both calls have found nothing after the lookup, and it stays so up to the end.
    obtain ⟨next, hstep⟩ := hperforms.exists_next hrun
    obtain ⟨after, hafter⟩ := hperforms.exists_rest hrun hstep
    obtain ⟨before, _, hbefore⟩ := hperforms.visits
    have hstate : Reaches (calmStep collate) (fun _ _ => True) (initial size) state :=
      Reaches.of_run (by simp) hbefore
    obtain ⟨hnext, heffect⟩ := (reachable_calm hstate).1.step (guarded_eq_some.mp hstep).2
    have hrest : Reaches (calmStep collate) (fun _ _ => True) next s :=
      Reaches.of_run (by simp) hafter
    have hend : ∀ c, next.OwnRow collate key c → s.OwnRow collate key c := fun c hrow =>
      calm_invariant hrest hnext hrow fun _ _ _ hrow _ _ heffect => heffect.own_row hrow
    exact hown.not_agrees hne (hend c (heffect.missed hget hunder hpc hfind))
      (hend c' (heffect.own_row ⟨other, hget', hunder', .inl hpending⟩)) hagrees
  · intro hguard
    obtain ⟨c, call, hget, hunder⟩ := hcall
    have hagreeing := reachable_agreeing (Reaches.of_performs hguard hrun)
    exact agrees_of_agreeing hwell hmatched hown hagreeing hfree hget hunder hstuck

/-- A call that has ended does nothing. -/
theorem stuck_of_ended {result : InsertResult} (hget : s.calls.get c = some call)
    (hpc : call.pc = .ended result) : s.step collate (.work c) = none := by
  simp [Submissions.step, hget, work, hpc, InsertPc.acquired, InsertPc.released, execute]

/-- The calls of a run with two calls. -/
theorem call_of_two {first second : InsertCall} (hnext : s.calls.next = 2)
    (hfirst : s.calls.get 0 = some first) (hsecond : s.calls.get 1 = some second)
    (hget : s.calls.get c = some call) : call = first ∨ call = second := by
  have hlt : c < 2 := hnext ▸ Registry.lt_next hget
  obtain rfl | rfl : c = 0 ∨ c = 1 := by omega
  · exact .inl (Option.some.inj (hget.symm.trans hfirst))
  · exact .inr (Option.some.inj (hget.symm.trans hsecond))

/-- The second call starts after the first one has returned. -/
def retry : List SubmissionEvent :=
  .call order "a" :: List.replicate 9 (.work 0) ++ .call order "b" :: List.replicate 5 (.work 1)

theorem agrees_iff_retry :
    ∃ s, run (calmStep id) (initial 4) retry = some s ∧ s.Agrees id order.idempotencyKey ∧
      ∀ state event, Performs (calmStep id) (initial 4) retry state event →
        ¬ state.Overlaps id order.idempotencyKey event := by
  have hlast : (run (calmStep id) (initial 4) retry).map (fun s =>
      (s.calls.next, s.calls.get 0, s.calls.get 1, s.db, s.available)) =
      some (2,
        some { input := order, uuid := "a", pc := .ended (.returned (order.inserted "a")) },
        some { input := order, uuid := "b", pc := .ended (.returned (order.inserted "a")) },
        ({} : Database).commitInsert (order.inserted "a"), [1, 0, 3, 2]) := by decide +kernel
  obtain ⟨s, hrun, hs⟩ := Option.map_eq_some_iff.mp hlast
  simp only [Prod.mk.injEq] at hs
  obtain ⟨hnext, hfirst, hsecond, hdb, havailable⟩ := hs
  have hended : ∀ c call, s.calls.get c = some call →
      call.pc = .ended (.returned (order.inserted "a")) := by
    intro c call hget
    rcases call_of_two hnext hfirst hsecond hget with rfl | rfl <;> rfl
  have hagrees : s.Agrees id order.idempotencyKey :=
    ⟨order.inserted "a", by rw [hdb]; rfl, by rw [hdb]; rfl,
      fun c call hget _ => ⟨_, hended c call hget, rfl⟩⟩
  have hiff := agrees_iff id order.idempotencyKey 4 retry s hrun (by simp [havailable])
    ⟨0, _, hfirst, rfl⟩ fun c call hget _ => stuck_of_ended hget (hended c call hget)
  exact ⟨s, hrun, hagrees, hiff.mp hagrees⟩

/-- Both calls look the key up before one of them inserts its row. -/
def race : List SubmissionEvent :=
  [.call order "a", .call order "b", .work 0, .work 0, .work 0, .work 0, .work 1, .work 1, .work 1,
   .work 1, .work 0, .work 0, .work 0, .work 0, .work 0, .work 1, .work 1, .work 1, .work 1]

/-- The slower call throws: its `INSERT` meets the row of the faster one. -/
theorem racing_submissions_disagree :
    ∃ s, run (calmStep id) (initial 4) race = some s ∧ s.available ≠ [] ∧
      (∀ c call, s.calls.get c = some call → s.step id (.work c) = none) ∧
      (∃ call, s.calls.get 1 = some call ∧ call.pc = .ended (.threw .insertNotification)) ∧
      ¬ s.Agrees id order.idempotencyKey := by
  have hlast : (run (calmStep id) (initial 4) race).map (fun s =>
      (s.calls.next, s.calls.get 0, s.calls.get 1, s.available)) =
      some (2,
        some { input := order, uuid := "a", pc := .ended (.returned (order.inserted "a")) },
        some { input := order, uuid := "b", pc := .ended (.threw .insertNotification) },
        [1, 3, 0, 2]) := by decide +kernel
  obtain ⟨s, hrun, hs⟩ := Option.map_eq_some_iff.mp hlast
  simp only [Prod.mk.injEq] at hs
  obtain ⟨hnext, hfirst, hsecond, havailable⟩ := hs
  refine ⟨s, hrun, by simp [havailable], fun c call hget => ?_, ⟨_, hsecond, rfl⟩,
    fun hagrees => ?_⟩
  · rcases call_of_two hnext hfirst hsecond hget with rfl | rfl <;> exact stuck_of_ended hget rfl
  · obtain ⟨n, _, _, hall⟩ := hagrees
    obtain ⟨m, hm, _⟩ := hall 1 _ hsecond rfl
    exact absurd hm (by simp)

end Submissions

end NotificationDelivery
