import NotificationDelivery.Service.Attempts
import NotificationDelivery.Service.NoLoss
import NotificationDelivery.Service.OneHandler

/-!
# Status and attempts agree

While at most one delivery of a notification runs, SENT means that some attempt holds SUCCESS, and
an attempt that holds SUCCESS means SENT or a live message. `View.Agreeing` ties each SUCCESS of a
notification that is not SENT to a message with the number of the attempt, which no delivery is
about to ack: the delivery that takes it up confirms the row or writes it anew.
-/

namespace NotificationDelivery

open EventMachine

namespace Handler

/-- The delivery has not passed the status check, or writes the status no more. -/
def Quiet (w : Handler) : Prop := w.pc = .findById ∨ w.pc = .incrementSuccess ∨ w.pc = .ack

/-- The delivery still has to confirm the row of its attempt or to write it. -/
def Open (w : Handler) : Prop :=
  match w.pc with
  | .findById | .markProcessing _ | .send _ | .recordSuccess _ | .markSent
  | .incrementFailure _ _ | .recordRetry _ | .recordDead _ _ => True
  | .incrementSuccess | .publishRetry | .publishDlq | .markDeadLettered | .ack => False

end Handler

namespace View

/-- A live message has the number of attempt `k`, and no delivery is about to ack it. -/
def Confirmable (v : View) (k : Int) : Prop :=
  ∃ i place, v.messages i = some (place, k) ∧ place.Live ∧
    ∀ h w, v.handlers h = some w → w.deliveryTag = i → w.Open

structure Agreeing (v : View) : Prop where
  status : ∀ row, v.row = some row → row.status ≠ .cancelled
  quiet : v.Sent → ∀ h w, v.handlers h = some w → w.Quiet
  recorded : ∀ h w, v.handlers h = some w → w.pc = .markSent → v.Succeeded w.message.attemptNumber
  sent : v.Sent → ∃ k, v.Succeeded k
  pending : ∀ k, v.Succeeded k → v.Sent ∨ v.Confirmable k

variable {env : Env} {config : Config} {n : String} {known : Prop} {v next u : View}
  {h h' i j : Nat} {w w' : Handler} {pc : HandlerPc} {event : Event} {k : Int}

theorem agreeing_empty : empty.Agreeing where
  status := by simp [empty]
  quiet := by simp [Sent, empty]
  recorded := by simp [empty]
  sent := by simp [Sent, empty]
  pending := by simp [Succeeded, empty]

theorem Confirmable.alive (h : v.Confirmable k) : v.Alive := by
  obtain ⟨i, place, hmessage, hlive, _⟩ := h
  exact ⟨i, place, k, hmessage, hlive⟩

/-- The messages stay, and each delivery stays open, opens, or works on another attempt. -/
theorem Confirmable.mono (hconf : v.Confirmable k)
    (hmessages : ∀ i m, v.messages i = some m → next.messages i = some m)
    (hhandlers : ∀ h w, next.handlers h = some w →
      (∃ old, v.handlers h = some old ∧ old.deliveryTag = w.deliveryTag ∧ (old.Open → w.Open)) ∨
      ∀ place, v.messages w.deliveryTag ≠ some (place, k)) : next.Confirmable k := by
  obtain ⟨i, place, hmessage, hlive, hopen⟩ := hconf
  refine ⟨i, place, hmessages i _ hmessage, hlive, fun h w hget htag => ?_⟩
  rcases hhandlers h w hget with ⟨old, hold, hsame, hw⟩ | hother
  · exact hw (hopen h old hold (hsame.trans htag))
  · exact absurd (htag ▸ hmessage) (hother place)

/-- Messages of a notification stay where no message is when a new one is put there. -/
theorem messages_put {m : Place × Int} (hfree : v.messages i = none) (value : Option (Place × Int))
    (hm : v.messages j = some m) : (v.setMessage i value).messages j = some m := by
  refine Registry.update_eq_some.mpr (.inr ⟨?_, hm⟩)
  rintro rfl
  exact absurd (hfree.symm.trans hm) (by simp)

namespace Agreeing

/-- A delivery that is not quiet runs only while the notification is not SENT. -/
theorem not_sent (hagree : v.Agreeing) (hget : v.handlers h = some w) (hquiet : ¬ w.Quiet) :
    ¬ v.Sent :=
  fun hsent => hquiet (hagree.quiet hsent h w hget)

/-- Only the messages and the requests are changed. -/
theorem of_rows (hagree : v.Agreeing) (hrow : next.row = v.row)
    (hattempts : next.attempts = v.attempts) (hhandlers : next.handlers = v.handlers)
    (hconf : ∀ k, v.Confirmable k → next.Confirmable k) : next.Agreeing := by
  have hsent : next.Sent ↔ v.Sent := by simp only [Sent, hrow]
  have hsucceeded : ∀ k, next.Succeeded k ↔ v.Succeeded k := by simp [Succeeded, hattempts]
  refine ⟨hrow ▸ hagree.status, ?_, ?_, ?_, fun k hk => ?_⟩
  · rw [hsent, hhandlers]
    exact hagree.quiet
  · intro h w hget hpc
    rw [hhandlers] at hget
    exact (hsucceeded _).mpr (hagree.recorded h w hget hpc)
  · intro h
    obtain ⟨k, hk⟩ := hagree.sent (hsent.mp h)
    exact ⟨k, (hsucceeded k).mpr hk⟩
  · exact (hagree.pending k ((hsucceeded k).mp hk)).imp hsent.mpr (hconf k)

theorem of_eq (hagree : v.Agreeing) (hrow : next.row = v.row)
    (hattempts : next.attempts = v.attempts)
    (hhandlers : next.handlers = v.handlers) (hmessages : next.messages = v.messages) :
    next.Agreeing := by
  refine hagree.of_rows hrow hattempts hhandlers fun k hk => ?_
  unfold Confirmable at hk ⊢
  rwa [hmessages, hhandlers]

/-- The delivery moves on without writing its attempt. -/
theorem advance (hagree : v.Agreeing) (hsolo : v.Solo) (hget : v.handlers h = some w)
    (hhandlers : u.handlers = v.handlers) (hattempts : u.attempts = v.attempts)
    (hmessages : ∀ i m, v.messages i = some m → u.messages i = some m)
    (hstatus : ∀ row, u.row = some row → row.status ≠ .cancelled) (hsent : u.Sent ↔ v.Sent)
    (hmark : pc ≠ .markSent) (hquiet : v.Sent → (w.goto pc).Quiet)
    (hopen : w.Open → v.Sent ∨ (w.goto pc).Open) : (u.advance h w pc).Agreeing := by
  have hsucceeded : ∀ k, (u.advance h w pc).Succeeded k ↔ v.Succeeded k := by
    simp [Succeeded, View.advance, hattempts]
  refine ⟨hstatus, fun hs h' w' hget' => ?_, fun h' w' hget' hpc => ?_, fun hs => ?_,
    fun k hk => ?_⟩
  · obtain ⟨_, rfl⟩ := hsolo.advanced hget hhandlers hget'
    exact hquiet (hsent.mp hs)
  · obtain ⟨_, rfl⟩ := hsolo.advanced hget hhandlers hget'
    exact absurd hpc hmark
  · obtain ⟨k, hk⟩ := hagree.sent (hsent.mp hs)
    exact ⟨k, (hsucceeded k).mpr hk⟩
  · rcases hagree.pending k ((hsucceeded k).mp hk) with hs | hconf
    · exact .inl (hsent.mpr hs)
    · by_cases hs : v.Sent
      · exact .inl (hsent.mpr hs)
      · refine .inr (hconf.mono hmessages fun h' w' hget' => ?_)
        obtain ⟨rfl, rfl⟩ := hsolo.advanced hget hhandlers hget'
        exact .inl ⟨w, hget, rfl, fun hw => (hopen hw).resolve_left hs⟩

/-- The delivery writes the row of its attempt. -/
theorem record (hagree : v.Agreeing) (hsolo : v.Solo) (hget : v.handlers h = some w)
    (hquiet : ¬ w.Quiet) {attempt : DeliveryAttempt}
    (hnumber : attempt.attemptNumber = w.message.attemptNumber)
    (hsuccess : attempt.status = .success ↔ pc = .markSent) :
    ((v.record attempt).advance h w pc).Agreeing := by
  have hns : ¬ v.Sent := hagree.not_sent hget hquiet
  obtain ⟨place, hmessage, hplace⟩ := hsolo.held h w hget
  have hlive : place.Live := by
    rcases hplace with rfl | rfl
    · exact .queued _
    · exact .unacked _ _
  have hsucceeded : ∀ k, ((v.record attempt).advance h w pc).Succeeded k ↔
      if k = attempt.attemptNumber then attempt.status = .success else v.Succeeded k :=
    fun _ => succeeded_record
  refine ⟨hagree.status, fun hs => absurd hs hns, fun h' w' hget' hpc => ?_, fun hs =>
    absurd hs hns, fun k hk => .inr ?_⟩
  · obtain ⟨rfl, rfl⟩ := hsolo.advanced hget rfl hget'
    exact (hsucceeded _).mpr ((if_pos hnumber.symm).mpr (hsuccess.mpr hpc))
  · rw [hsucceeded] at hk
    by_cases hk' : k = attempt.attemptNumber
    · -- the message of the delivery itself confirms the row
      rw [if_pos hk'] at hk
      subst hk'
      refine ⟨w.deliveryTag, place, hnumber ▸ hmessage, hlive, fun h' w' hget' _ => ?_⟩
      obtain ⟨rfl, rfl⟩ := hsolo.advanced hget rfl hget'
      obtain rfl := hsuccess.mp hk
      trivial
    · rw [if_neg hk'] at hk
      have hconf := (hagree.pending k hk).resolve_left hns
      refine hconf.mono (fun _ _ hm => hm) fun h' w' hget' => .inr fun place' hm => ?_
      obtain ⟨rfl, rfl⟩ := hsolo.advanced hget rfl hget'
      have hsame := hmessage.symm.trans hm
      simp only [Option.some.injEq, Prod.mk.injEq] at hsame
      exact hk' (hsame.2.symm.trans hnumber.symm)

/-- The delivery ends. Its message may go with it only if it does not confirm an attempt any
more. -/
theorem remove (hagree : v.Agreeing) (hsolo : v.Solo) (hget : v.handlers h = some w)
    (hrow : next.row = v.row) (hattempts : next.attempts = v.attempts)
    (hhandlers : next.handlers = Function.update v.handlers h none)
    (hmessages : ∀ i m, v.messages i = some m → next.messages i = some m ∨
      i = w.deliveryTag ∧ ¬ w.Open) : next.Agreeing := by
  have hsent : next.Sent ↔ v.Sent := by simp only [Sent, hrow]
  have hnone : ∀ h', next.handlers h' = none := by
    intro h'
    rw [hhandlers]
    exact hsolo.removed hget
  have hsucceeded : ∀ k, next.Succeeded k ↔ v.Succeeded k := by simp [Succeeded, hattempts]
  refine ⟨hrow ▸ hagree.status, by simp [hnone], by simp [hnone], fun hs => ?_, fun k hk => ?_⟩
  · obtain ⟨k, hk⟩ := hagree.sent (hsent.mp hs)
    exact ⟨k, (hsucceeded k).mpr hk⟩
  · refine (hagree.pending k ((hsucceeded k).mp hk)).imp hsent.mpr fun hconf => ?_
    obtain ⟨i, place, hmessage, hlive, hopen⟩ := hconf
    rcases hmessages i _ hmessage with hm | ⟨rfl, hclosed⟩
    · exact ⟨i, place, hm, hlive, by simp [hnone]⟩
    · exact absurd (hopen h w hget rfl) hclosed

theorem worked (hagree : v.Agreeing) (hsolo : v.Solo) (hplaced : v.Placed config)
    (hget : v.handlers h = some w) (hworked : v.Worked config h w next) : next.Agreeing := by
  have hstored := hplaced.stored hget
  -- a delivery that is not quiet runs while the notification is not SENT
  have hbusy : ¬ w.Quiet → ∀ {p : Prop}, v.Sent → p :=
    fun hquiet _ hs => absurd hs (hagree.not_sent hget hquiet)
  have hsame : ∀ i m, v.messages i = some m → v.messages i = some m := fun _ _ hm => hm
  have hincrement : ∀ row, v.increment.row = some row → row.status ≠ .cancelled := by
    intro row hrow
    obtain ⟨old, hold, rfl⟩ := Option.map_eq_some_iff.mp hrow
    exact hagree.status old hold
  have hset : ∀ status, status ≠ NotificationStatus.cancelled →
      ∀ row, (v.setStatus status).row = some row → row.status ≠ .cancelled := by
    intro status hne row hrow
    obtain ⟨old, _, rfl⟩ := Option.map_eq_some_iff.mp hrow
    exact hne
  cases hworked with
  | missed hpc hrow => exact absurd hrow hstored
  | skipped row hpc hrow hskipped =>
      have hs : v.Sent := by
        refine ⟨row, hrow, ?_⟩
        simpa [NotificationStatus.skipped, hagree.status row hrow] using hskipped
      exact hagree.advance hsolo hget rfl rfl hsame hagree.status Iff.rfl (by simp)
        (fun _ => .inr (.inr rfl)) fun _ => .inl hs
  | found row hpc hrow hskipped =>
      have hns : ¬ v.Sent := by
        intro hs
        obtain ⟨row', hrow', hstatus⟩ := hs
        obtain rfl := Option.some.inj (hrow.symm.trans hrow')
        simp [NotificationStatus.skipped, hstatus] at hskipped
      exact hagree.advance hsolo hget rfl rfl hsame hagree.status Iff.rfl (by simp)
        (fun hs => absurd hs hns) fun _ => .inr trivial
  | markedProcessing row hpc =>
      have hquiet : ¬ w.Quiet := by simp [Handler.Quiet, hpc]
      exact hagree.advance hsolo hget rfl rfl hsame (hset _ (by simp))
        (iff_of_false (not_sent_set_status (by simp)) (hagree.not_sent hget hquiet)) (by simp)
        (hbusy hquiet) fun _ => .inr trivial
  | recordedSuccess providerRef hpc =>
      exact hagree.record hsolo hget (by simp [Handler.Quiet, hpc]) rfl (by simp)
  | markedSent hpc =>
      have hs : ((v.setStatus .sent).advance h w .incrementSuccess).Sent := sent_set_status hstored
      refine ⟨hset _ (by simp), fun _ h' w' hget' => ?_, fun h' w' hget' hmark => ?_,
        fun _ => ⟨_, hagree.recorded h w hget hpc⟩, fun _ _ => .inl hs⟩
      · obtain ⟨_, rfl⟩ := hsolo.advanced (u := v.setStatus .sent) hget rfl hget'
        exact .inr (.inl rfl)
      · obtain ⟨_, rfl⟩ := hsolo.advanced (u := v.setStatus .sent) hget rfl hget'
        exact absurd hmark (by simp)
  | incrementedSuccess hpc =>
      exact hagree.advance hsolo hget rfl rfl hsame hincrement sent_increment (by simp)
        (fun _ => .inr (.inr rfl)) fun hopen => by simp [Handler.Open, hpc] at hopen
  | incrementedRetry what isTransient hpc =>
      exact hagree.advance hsolo hget rfl rfl hsame hincrement sent_increment (by simp)
        (hbusy (by simp [Handler.Quiet, hpc])) fun _ => .inr trivial
  | incrementedDead what isTransient hpc =>
      exact hagree.advance hsolo hget rfl rfl hsame hincrement sent_increment (by simp)
        (hbusy (by simp [Handler.Quiet, hpc])) fun _ => .inr trivial
  | recordedRetry what hpc =>
      exact hagree.record hsolo hget (by simp [Handler.Quiet, hpc]) rfl (by simp)
  | publishedRetry i hpc hfree =>
      exact hagree.advance hsolo hget rfl rfl (fun _ _ hm => messages_put hfree _ hm)
        hagree.status Iff.rfl (by simp) (fun _ => .inr (.inr rfl)) fun hopen => by
          simp [Handler.Open, hpc] at hopen
  | droppedRetry hpc =>
      exact hagree.advance hsolo hget rfl rfl hsame hagree.status Iff.rfl (by simp)
        (fun _ => .inr (.inr rfl)) fun hopen => by simp [Handler.Open, hpc] at hopen
  | recordedDead what isTransient hpc =>
      exact hagree.record hsolo hget (by simp [Handler.Quiet, hpc]) rfl (by simp)
  | publishedDlq i hpc hfree =>
      exact hagree.advance hsolo hget rfl rfl (fun _ _ hm => messages_put hfree _ hm)
        hagree.status Iff.rfl (by simp) (hbusy (by simp [Handler.Quiet, hpc]))
        fun hopen => by simp [Handler.Open, hpc] at hopen
  | markedDeadLettered hpc =>
      have hquiet : ¬ w.Quiet := by simp [Handler.Quiet, hpc]
      exact hagree.advance hsolo hget rfl rfl hsame (hset _ (by simp))
        (iff_of_false (not_sent_set_status (by simp)) (hagree.not_sent hget hquiet)) (by simp)
        (hbusy hquiet) fun hopen => by simp [Handler.Open, hpc] at hopen
  | acked hpc hholds =>
      refine hagree.remove hsolo hget rfl rfl rfl fun i m hm => ?_
      by_cases hi : i = w.deliveryTag
      · exact .inr ⟨hi, by simp [Handler.Open, hpc]⟩
      · exact .inl (Registry.update_eq_some.mpr (.inr ⟨hi, hm⟩))
  | ackedLate hpc hholds =>
      exact hagree.remove hsolo hget rfl rfl rfl fun i m hm => .inl hm

/-- The step lemma. -/
theorem step (hagree : v.Agreeing) (hsolo : v.Solo) (hplaced : v.Placed env.config)
    (hguard : ¬ v.Crowds event) (hstep : View.Step env n known v event next) : next.Agreeing := by
  cases hstep with
  | unrelated => exact hagree
  | found | aborted => exact hagree.of_eq rfl rfl rfl rfl
  | committed p saved hnone hfree hid hstatus =>
      have hns : ¬ v.Sent := by simp [Sent, hnone]
      -- nothing exists about a notification that is not stored
      have hfailed : ∀ k, ¬ v.Succeeded k := by
        intro k hk
        rcases hagree.pending k hk with hs | ⟨i, place, hmessage, _⟩
        · exact hns hs
        · exact absurd hmessage (by simp [hplaced.no_message_of_absent hnone])
      have hidle : ∀ h w, v.handlers h ≠ some w := by
        intro h w hget
        exact hplaced.stored hget hnone
      refine ⟨fun row hrow => ?_, fun _ h w hget => absurd hget (hidle h w),
        fun h w hget => absurd hget (hidle h w), fun hs => ?_, fun k hk => absurd hk (hfailed k)⟩
      · obtain rfl := Option.some.inj hrow
        simp [hstatus]
      · obtain ⟨row, hrow, hsent⟩ := hs
        obtain rfl := Option.some.inj hrow
        simp [hstatus] at hsent
  | published p saved i hsaved hfree =>
      refine hagree.of_rows rfl rfl rfl fun k hconf => ?_
      exact hconf.mono (fun _ _ hm => messages_put hfree _ hm) fun h w hget =>
        .inl ⟨w, hget, rfl, id⟩
  | delivered c i h w hmessage hfree hc htag hid hpc =>
      have honly : ∀ h' w', Function.update v.handlers h (some w) h' = some w' → w' = w :=
        fun h' w' hget' => (Solo.received hguard hmessage hget').2
      refine ⟨hagree.status, fun _ h' w' hget' => ?_, fun h' w' hget' hmark => ?_, hagree.sent,
        fun k hk => (hagree.pending k hk).imp_right fun hconf => ?_⟩
      · obtain rfl := honly h' w' hget'
        exact .inl hpc
      · obtain rfl := honly h' w' hget'
        exact absurd hmark (by simp [hpc])
      · obtain ⟨i', place, hm, hlive, _⟩ := hconf
        have hopen : ∀ h' w', Function.update v.handlers h (some w) h' = some w' →
            w'.deliveryTag = i' → w'.Open := by
          intro h' w' hget' _
          obtain rfl := honly h' w' hget'
          simp [Handler.Open, hpc]
        by_cases hi : i' = i
        · subst hi
          obtain ⟨_, rfl⟩ := Prod.mk.inj (Option.some.inj (hmessage.symm.trans hm))
          exact ⟨i', _, Function.update_self _ _ _, .unacked _ _, hopen⟩
        · exact ⟨i', place, (Function.update_of_ne hi _ _).trans hm, hlive, hopen⟩
  | worked h w next hget _ hworked => exact hagree.worked hsolo hplaced hget hworked
  | sent h w row outcome hget hid hpc =>
      have hadvance : (v.advance h w (Handler.afterSend outcome)).Agreeing := by
        have hquiet : ¬ w.Quiet := by simp [Handler.Quiet, hpc]
        refine hagree.advance hsolo hget rfl rfl (fun _ _ hm => hm) hagree.status Iff.rfl
          (by cases outcome <;> simp [Handler.afterSend])
          (fun hs => absurd hs (hagree.not_sent hget hquiet)) fun _ => .inr ?_
        cases outcome <;> trivial
      exact hadvance.of_eq rfl rfl rfl rfl
  | crashed h w hget => exact hagree.remove hsolo hget rfl rfl rfl fun i m hm => .inl hm
  | expired i j c rung k hmessage hfree =>
      refine hagree.of_rows rfl rfl rfl fun k' hconf => ?_
      obtain ⟨i', place, hm, hlive, hopen⟩ := hconf
      by_cases hi : i' = i
      · subst hi
        obtain ⟨_, rfl⟩ := Prod.mk.inj (Option.some.inj (hmessage.symm.trans hm))
        refine ⟨j, _, Function.update_self _ _ _, .queued c, fun h w hget htag => ?_⟩
        exact absurd htag (hsolo.tag_ne_of_free hfree h w hget)
      · have htaken : (v.setMessage i none).messages i' = some (place, k') :=
          (Function.update_of_ne hi _ _).trans hm
        refine ⟨i', place, Registry.update_eq_some.mpr (.inr ⟨?_, htaken⟩), hlive, hopen⟩
        rintro rfl
        exact absurd (hfree.symm.trans hm) (by simp)
  | requeued i name consumer k hmessage =>
      refine hagree.of_rows rfl rfl rfl fun k' hconf => ?_
      obtain ⟨i', place, hm, hlive, hopen⟩ := hconf
      by_cases hi : i' = i
      · subst hi
        obtain ⟨rfl, rfl⟩ := Prod.mk.inj (Option.some.inj (hmessage.symm.trans hm))
        obtain ⟨_, c, _, hproper⟩ := hplaced.message i' _ _ hmessage
        cases hproper with
        | unacked => exact ⟨i', _, Function.update_self _ _ _, .queued c, hopen⟩
      · exact ⟨i', place, (Function.update_of_ne hi _ _).trans hm, hlive, hopen⟩

end Agreeing

end View

namespace System

variable {env : Env} {s : System}

/-- What holds of a notification whose deliveries do not overlap. -/
structure Agrees (env : Env) (v : View) : Prop where
  placed : v.Placed env.config
  solo : v.Solo
  referenced : v.Referenced
  agreeing : v.Agreeing

theorem agrees_empty (env : Env) : Agrees env .empty :=
  ⟨View.placed_empty _, View.solo_empty, View.referenced_empty, View.agreeing_empty⟩

/-- The step lemma. -/
theorem Agrees.step {v next : View} {n : String} {known : Prop} {event : Event} (h : Agrees env v)
    (hguard : ¬ v.Crowds event) (hstep : View.Step env n known v event next) : Agrees env next :=
  ⟨h.placed.step hstep, h.solo.step hguard hstep, h.referenced.step hstep,
    h.agreeing.step h.solo h.placed hguard hstep⟩

/-- The run lemma. -/
theorem reachable_agrees (n : String)
    (hreach : Reaches (System.step env) (fun s event => s.crowds n event = false) initial s) :
    Agrees env (s.view n) := by
  refine view_invariant hreach (agrees_empty env) ?_
  intro s event next _ hallowed hview hstep
  refine hview.step (fun hcrowds => ?_) hstep
  simp [crowds_of_view hcrowds] at hallowed

/-- Any number of requests, deliveries that may die at any statement, messages that may be put back
at any time: while no two deliveries of a notification overlap, SENT means that an attempt holds
SUCCESS with a provider reference, and an attempt that holds SUCCESS means SENT or a live
message. -/
theorem status_agrees (env : Env) (s : System) (n : String)
    (hreach : Reaches (System.step env) (fun s event => s.crowds n event = false) initial s) :
    (∀ row, s.db.findById n = some row → row.status = .sent →
      ∃ a ∈ s.db.findByNotificationId n, a.status = .success ∧ a.providerRef.isSome) ∧
    ∀ a ∈ s.db.findByNotificationId n, a.status = .success →
      (∃ row, s.db.findById n = some row ∧ row.status = .sent) ∨ s.Alive n := by
  have hview := reachable_agrees n hreach
  have hkeys := reachable_attempt_keys hreach
  constructor
  · intro row hrow hstatus
    obtain ⟨k, hk⟩ := hview.agreeing.sent ⟨row, hrow, hstatus⟩
    obtain ⟨a, ha, hsuccess, href⟩ := hview.referenced.refs k hk
    exact ⟨a, ((Database.find_attempt_iff hkeys).mp ha).1, hsuccess, href⟩
  · intro a ha hsuccess
    have hk : (s.view n).Succeeded a.attemptNumber :=
      ⟨a, (Database.find_attempt_iff hkeys).mpr ⟨ha, rfl⟩, hsuccess⟩
    exact (hview.agreeing.pending _ hk).imp_right fun hconf => alive_view.mp hconf.alive

/-- A delivery dies after it has recorded the result, and its message comes again. -/
def diesAfterRecord : List Event :=
  (submission sample "id").append [.deliver .email 0, .work 0, .work 0, .send 0 (.result "ref"),
    .work 0, .crash 0, .requeue 0, .deliver .email 0, .work 1, .work 1]

/-- The second delivery marks SENT. -/
def sentAfterAll : List Event :=
  diesAfterRecord.append [.send 1 (.result "ref"), .work 1, .work 1]

theorem status_agrees_dies_after_record :
    (∃ s, run (System.step shipped) initial diesAfterRecord = some s ∧
      (∃ a ∈ s.db.findByNotificationId "id", a.status = .success) ∧ s.Alive "id") ∧
    ∃ s, run (System.step shipped) initial sentAfterAll = some s ∧
      (s.db.findById "id").map Notification.status = some .sent ∧
      ∃ a ∈ s.db.findByNotificationId "id", a.status = .success ∧ a.providerRef.isSome := by
  have hreach : ∀ {events s}, run (guarded (System.step shipped) fun s event =>
      !s.crowds "id" event) initial events = some s →
      Reaches (System.step shipped) (fun s event => s.crowds "id" event = false) initial s :=
    fun hrun => Reaches.of_guarded_run (fun _ _ h => by simpa using h) hrun
  constructor
  · have hlast : (run (guarded (System.step shipped) fun s event => !s.crowds "id" event) initial
        diesAfterRecord).map (fun s => ((s.db.findById "id").map Notification.status,
          (s.db.findByNotificationId "id").map DeliveryAttempt.status)) =
        some (some .processing, [.success]) := by decide +kernel
    obtain ⟨s, hrun, hs⟩ := Option.map_eq_some_iff.mp hlast
    obtain ⟨hstatus, hattempts⟩ := Prod.mk.inj hs
    obtain ⟨a, ha, hsuccess⟩ := List.mem_map.mp (hattempts ▸ List.mem_singleton.mpr rfl)
    refine ⟨s, run_of_guarded hrun, ⟨a, ha, hsuccess⟩, ?_⟩
    rcases (status_agrees shipped s "id" (hreach hrun)).2 a ha hsuccess with ⟨row, hrow, hsent⟩ | h
    · rw [hrow, Option.map_some, hsent] at hstatus
      exact absurd hstatus (by simp)
    · exact h
  · have hlast : (run (guarded (System.step shipped) fun s event => !s.crowds "id" event) initial
        sentAfterAll).map (fun s => (s.db.findById "id").map Notification.status) =
        some (some .sent) := by decide +kernel
    obtain ⟨s, hrun, hstatus⟩ := Option.map_eq_some_iff.mp hlast
    obtain ⟨row, hrow, hsent⟩ := Option.map_eq_some_iff.mp hstatus
    exact ⟨s, run_of_guarded hrun, hstatus,
      (status_agrees shipped s "id" (hreach hrun)).1 row hrow hsent⟩

end System

end NotificationDelivery
