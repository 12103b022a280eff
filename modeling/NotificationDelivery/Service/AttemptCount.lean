import Mathlib.Data.Int.Interval
import NotificationDelivery.Service.StatusAgreement

/-!
# The attempt count

`onMessage` counts an attempt and records it in two statements, in one order after a result and in
the other after a failure. `View.Ledger` says what the count is while at most one delivery runs:
it is off only between the two statements of the delivery. A delivery that dies there, or one
that makes an attempt again whose failure is recorded, spoils it for good.
-/

namespace NotificationDelivery

open EventMachine

/-- The count when nothing is left to count, after `failures` recorded failures. -/
def settledCount (failures : Nat) (status : NotificationStatus) : Nat :=
  if status = .sent then failures + 1 else failures

namespace Handler

/-- The delivery makes an attempt, from the status check to the last statement that records it. -/
def Attempting (w : Handler) : Prop :=
  match w.pc with
  | .markProcessing _ | .send _ | .recordSuccess _ | .markSent | .incrementFailure _ _
  | .recordRetry _ | .recordDead _ _ => True
  | .findById | .incrementSuccess | .publishRetry | .publishDlq | .markDeadLettered | .ack => False

/-- The delivery has counted an attempt that it has still to record, or marked SENT without having
counted the attempt. -/
def unbalanced (w : Handler) : Bool :=
  match w.pc with
  | .incrementSuccess | .recordRetry _ | .recordDead _ _ => true
  | _ => false

/-- The count while the delivery runs. -/
def dueCount (w : Handler) (failures : Nat) (status : NotificationStatus) : Nat :=
  match w.pc with
  | .recordRetry _ | .recordDead _ _ => failures + 1
  | .incrementSuccess => failures
  | _ => settledCount failures status

theorem due_count_of_balanced {w : Handler} (h : w.unbalanced = false) (failures : Nat)
    (status : NotificationStatus) : w.dueCount failures status = settledCount failures status := by
  unfold unbalanced at h
  unfold dueCount
  split at h <;> simp_all

end Handler

namespace View

/-- The attempts up to `failures` have failed, the next one may have succeeded, and there are no
others. Every message is about one of them, and the count is what the delivery that runs says. -/
structure Ledger (failures : Nat) (v : View) : Prop where
  failed : ∀ k, v.Failed k ↔ 1 ≤ k ∧ k ≤ failures
  succeeded : ∀ k, v.Succeeded k → k = failures + 1
  numbers : ∀ i place k, v.messages i = some (place, k) → k ≤ failures + 1
  attempting : ∀ h w, v.handlers h = some w → w.Attempting → w.message.attemptNumber = failures + 1
  retried : ∀ h w, v.handlers h = some w → w.pc = .publishRetry → w.message.attemptNumber ≤ failures
  marked : ∀ h w, v.handlers h = some w → w.pc = .incrementSuccess → v.Sent
  fresh : v.row = none → failures = 0
  due : ∀ h w row, v.handlers h = some w → v.row = some row →
    row.attemptCount = w.dueCount failures row.status
  settled : ∀ row, v.row = some row → (∀ h, v.handlers h = none) →
    row.attemptCount = settledCount failures row.status

/-- A delivery dies before it has settled the count, or passes the status check for an attempt whose
failure is recorded. -/
def Miscounts (v : View) (event : Event) : Prop :=
  (∃ h w, event = .crash h ∧ v.handlers h = some w ∧ w.unbalanced = true) ∨
  ∃ h w row, event = .work h ∧ v.handlers h = some w ∧ w.pc = .findById ∧ v.row = some row ∧
    row.status.skipped = false ∧ v.Failed w.message.attemptNumber

variable {env : Env} {config : Config} {n : String} {known : Prop} {v next u : View}
  {h h' i j : Nat} {w w' : Handler} {pc : HandlerPc} {event : Event} {k : Int} {failures : Nat}

theorem ledger_empty : empty.Ledger 0 where
  failed := by
    intro k
    exact iff_of_false (by simp [empty, Failed]) (by push_cast; omega)
  succeeded := by simp [empty, Succeeded]
  numbers := by simp [empty]
  attempting := by simp [empty]
  retried := by simp [empty]
  marked := by simp [empty]
  fresh := by simp
  due := by simp [empty]
  settled := by simp [empty]

namespace Ledger

/-- Only the messages and the requests are changed. -/
theorem of_rows (hledger : v.Ledger failures) (hrow : next.row = v.row)
    (hattempts : next.attempts = v.attempts) (hhandlers : next.handlers = v.handlers)
    (hnumbers : ∀ i place k, next.messages i = some (place, k) → k ≤ failures + 1) :
    next.Ledger failures where
  failed := by simpa only [Failed, hattempts] using hledger.failed
  succeeded := by simpa only [Succeeded, hattempts] using hledger.succeeded
  numbers := hnumbers
  attempting := by simpa only [hhandlers] using hledger.attempting
  retried := by simpa only [hhandlers] using hledger.retried
  marked := by simpa only [hhandlers, Sent, hrow] using hledger.marked
  fresh := by simpa only [hrow] using hledger.fresh
  due := by simpa only [hhandlers, hrow] using hledger.due
  settled := by simpa only [hhandlers, hrow] using hledger.settled

/-- A message of an attempt that the ledger knows is put somewhere. -/
theorem numbers_put (hledger : v.Ledger failures) {m : Place × Int} (hm : m.2 ≤ failures + 1)
    (place : Place) (k : Int) (hget : (v.setMessage i (some m)).messages j = some (place, k)) :
    k ≤ failures + 1 := by
  rcases Registry.update_eq_some.mp hget with ⟨_, heq⟩ | ⟨_, hget⟩
  · cases heq
    exact hm
  · exact hledger.numbers j place k hget

/-- The delivery moves on; `failures` is the number of failures afterwards. -/
theorem advance (hsolo : v.Solo) (hget : v.handlers h = some w)
    (hhandlers : u.handlers = v.handlers) (hrow : u.row ≠ none)
    (hfailed : ∀ k, u.Failed k ↔ 1 ≤ k ∧ k ≤ failures)
    (hsucceeded : ∀ k, u.Succeeded k → k = failures + 1)
    (hnumbers : ∀ i place k, u.messages i = some (place, k) → k ≤ failures + 1)
    (hattempting : (w.goto pc).Attempting → w.message.attemptNumber = failures + 1)
    (hretried : pc = .publishRetry → w.message.attemptNumber ≤ failures)
    (hmarked : pc = .incrementSuccess → u.Sent)
    (hdue : ∀ row, u.row = some row → row.attemptCount = (w.goto pc).dueCount failures row.status) :
    (u.advance h w pc).Ledger failures where
  failed := hfailed
  succeeded := hsucceeded
  numbers := hnumbers
  attempting := by
    intro h' w' hget' ha
    obtain ⟨_, rfl⟩ := hsolo.advanced hget hhandlers hget'
    exact hattempting ha
  retried := by
    intro h' w' hget' hpc
    obtain ⟨_, rfl⟩ := hsolo.advanced hget hhandlers hget'
    exact hretried hpc
  marked := by
    intro h' w' hget' hpc
    obtain ⟨_, rfl⟩ := hsolo.advanced hget hhandlers hget'
    exact hmarked hpc
  fresh := fun hnone => absurd hnone hrow
  due := by
    intro h' w' row hget' hr
    obtain ⟨_, rfl⟩ := hsolo.advanced hget hhandlers hget'
    exact hdue row hr
  settled := by
    intro row _ hidle
    have hself : (u.advance h w pc).handlers h = some (w.goto pc) := Function.update_self _ _ _
    exact absurd (hidle h) (by simp [hself])

/-- The delivery ends with the count settled. -/
theorem remove (hledger : v.Ledger failures) (hsolo : v.Solo) (hget : v.handlers h = some w)
    (hbalanced : w.unbalanced = false) (hrow : next.row = v.row)
    (hattempts : next.attempts = v.attempts)
    (hhandlers : next.handlers = Function.update v.handlers h none)
    (hmessages : ∀ i m, next.messages i = some m → v.messages i = some m) :
    next.Ledger failures := by
  have hnone : ∀ h', next.handlers h' = none := by
    intro h'
    rw [hhandlers]
    exact hsolo.removed hget
  refine ⟨?_, ?_, fun i place k hm => hledger.numbers i place k (hmessages i _ hm), by simp [hnone],
    by simp [hnone], by simp [hnone], hrow ▸ hledger.fresh, by simp [hnone], fun row hr _ => ?_⟩
  · simpa only [Failed, hattempts] using hledger.failed
  · simpa only [Succeeded, hattempts] using hledger.succeeded
  · rw [hrow] at hr
    rw [hledger.due h w row hget hr, Handler.due_count_of_balanced hbalanced]

/-- The delivery moves on and writes no attempt. -/
theorem move (hledger : v.Ledger failures) (hsolo : v.Solo) (hplaced : v.Placed config)
    (hget : v.handlers h = some w) (hhandlers : u.handlers = v.handlers)
    (hchannel : u.channel = v.channel) (hattempts : u.attempts = v.attempts)
    (hnumbers : ∀ i place k, u.messages i = some (place, k) → k ≤ failures + 1)
    (hattempting : (w.goto pc).Attempting → w.message.attemptNumber = failures + 1)
    (hretried : pc = .publishRetry → w.message.attemptNumber ≤ failures)
    (hmarked : pc = .incrementSuccess → u.Sent)
    (hdue : ∀ row, u.row = some row → row.attemptCount = (w.goto pc).dueCount failures row.status) :
    (u.advance h w pc).Ledger failures := by
  have hrow : u.row ≠ none := by
    intro hnone
    have hsome := hchannel.trans (hplaced.handler h w hget).1
    simp [channel, hnone] at hsome
  refine advance hsolo hget hhandlers hrow ?_ ?_ hnumbers hattempting hretried hmarked hdue
  · simpa only [Failed, hattempts] using hledger.failed
  · simpa only [Succeeded, hattempts] using hledger.succeeded

/-- Before the attempt is counted, the count is the number of failures. -/
theorem count_eq (hledger : v.Ledger failures) (hagree : v.Agreeing) (hget : v.handlers h = some w)
    (hquiet : ¬ w.Quiet) (hbalanced : w.unbalanced = false) {row : Notification}
    (hrow : v.row = some row) : row.attemptCount = failures := by
  have hstatus : row.status ≠ .sent := fun hs => hagree.not_sent hget hquiet ⟨row, hrow, hs⟩
  rw [hledger.due h w row hget hrow, Handler.due_count_of_balanced hbalanced, settledCount,
    if_neg hstatus]

/-- The status is set before the attempt is counted, or after a failure is. -/
theorem set_status (hledger : v.Ledger failures) (hsolo : v.Solo) (hagree : v.Agreeing)
    (hplaced : v.Placed config) (hget : v.handlers h = some w) (hquiet : ¬ w.Quiet)
    (hbalanced : w.unbalanced = false) {status : NotificationStatus}
    (hattempting : (w.goto pc).Attempting → w.Attempting) (hretried : pc ≠ .publishRetry)
    (hmarked : pc = .incrementSuccess → status = .sent)
    (hdue : (w.goto pc).dueCount failures status = failures) :
    ((v.setStatus status).advance h w pc).Ledger failures := by
  refine hledger.move hsolo hplaced hget rfl (channel_set_status _) rfl hledger.numbers
    (fun ha => hledger.attempting h w hget (hattempting ha)) (fun hpc => absurd hpc hretried)
    (fun hpc => ?_) fun row hrow => ?_
  · obtain rfl := hmarked hpc
    exact sent_set_status (hplaced.stored hget)
  · obtain ⟨old, hold, rfl⟩ := Option.map_eq_some_iff.mp hrow
    exact (hledger.count_eq hagree hget hquiet hbalanced hold).trans hdue.symm

/-- A failure is counted before it is recorded. -/
theorem count_failure (hledger : v.Ledger failures) (hsolo : v.Solo) (hagree : v.Agreeing)
    (hplaced : v.Placed config) (hget : v.handlers h = some w) (hquiet : ¬ w.Quiet)
    (hbalanced : w.unbalanced = false) (hattempting : w.Attempting)
    (hpc : (∃ what, pc = .recordRetry what) ∨ ∃ what isTransient,
      pc = .recordDead what isTransient) :
    (v.increment.advance h w pc).Ledger failures := by
  refine hledger.move hsolo hplaced hget rfl channel_increment rfl hledger.numbers
    (fun _ => hledger.attempting h w hget hattempting) ?_ ?_ fun row hrow => ?_
  · rcases hpc with ⟨what, rfl⟩ | ⟨what, isTransient, rfl⟩ <;> simp
  · rcases hpc with ⟨what, rfl⟩ | ⟨what, isTransient, rfl⟩ <;> simp
  · obtain ⟨old, hold, rfl⟩ := Option.map_eq_some_iff.mp hrow
    have hcount := hledger.count_eq hagree hget hquiet hbalanced hold
    rcases hpc with ⟨what, rfl⟩ | ⟨what, isTransient, rfl⟩ <;> exact congrArg (· + 1) hcount

/-- A successful call is recorded under the number after the failures. -/
theorem record_success (hledger : v.Ledger failures) (hsolo : v.Solo) (hplaced : v.Placed config)
    (hget : v.handlers h = some w) {providerRef : String}
    (hpc : w.pc = .recordSuccess providerRef) :
    ((v.record (w.successAttempt providerRef)).advance h w .markSent).Ledger failures := by
  have hnumber := hledger.attempting h w hget (by simp [Handler.Attempting, hpc])
  refine advance hsolo hget rfl (hplaced.stored hget) (fun k => ?_) (fun k hk => ?_) hledger.numbers
    (fun _ => hnumber) (by simp) (by simp) fun row hrow => ?_
  · rw [failed_record, Received.success_attempt_number, hnumber]
    split
    · rename_i hk
      subst hk
      exact iff_of_false (by simp) (by omega)
    · exact hledger.failed k
  · rw [succeeded_record, Received.success_attempt_number, hnumber] at hk
    split at hk
    · assumption
    · exact hledger.succeeded k hk
  · have hdue := hledger.due h w row hget hrow
    simpa [Handler.dueCount, hpc] using hdue

/-- A failure is recorded as the next one. -/
theorem record_failure (hledger : v.Ledger failures) (hsolo : v.Solo) (hagree : v.Agreeing)
    (hplaced : v.Placed config) (hget : v.handlers h = some w) (hquiet : ¬ w.Quiet)
    (hnumber : w.message.attemptNumber = failures + 1)
    (hdue : ∀ status, w.dueCount failures status = failures + 1) {what : String}
    {isTransient : Bool} (hpc : pc = .publishRetry ∨ pc = .publishDlq) :
    ((v.record (w.failureAttempt what isTransient)).advance h w pc).Ledger (failures + 1) := by
  have hns : ¬ v.Sent := hagree.not_sent hget hquiet
  refine advance hsolo hget rfl (hplaced.stored hget) (fun k => ?_) (fun k hk => ?_)
    (fun i place k hm => ?_) (fun ha => ?_) (fun _ => ?_) (fun hmark => ?_) fun row hr => ?_
  · rw [failed_record, Received.failure_attempt_number, hnumber]
    split
    · rename_i hk
      subst hk
      exact iff_of_true (by simp) (by omega)
    · rename_i hk
      rw [hledger.failed k]
      push_cast
      omega
  · rw [succeeded_record, Received.failure_attempt_number, hnumber] at hk
    split at hk
    · exact absurd hk (by simp)
    · rename_i hne
      exact absurd (hledger.succeeded k hk) hne
  · have hle := hledger.numbers i place k hm
    push_cast
    omega
  · rcases hpc with rfl | rfl <;> exact ha.elim
  · push_cast
    omega
  · rcases hpc with rfl | rfl <;> exact absurd hmark (by simp)
  · have hcount := hledger.due h w row hget hr
    rw [hdue] at hcount
    have hstatus : row.status ≠ .sent := fun hs => hns ⟨row, hr, hs⟩
    rcases hpc with rfl | rfl <;>
      simp only [Handler.dueCount, Handler.goto_pc, settledCount, if_neg hstatus, hcount]

theorem worked (hledger : v.Ledger failures) (hsolo : v.Solo) (hagree : v.Agreeing)
    (hplaced : v.Placed config) (hget : v.handlers h = some w)
    (hguard : ¬ v.Miscounts (.work h)) (hworked : v.Worked config h w next) :
    ∃ failures, next.Ledger failures := by
  obtain ⟨place, hmessage, -⟩ := hsolo.held h w hget
  have hle := hledger.numbers _ _ _ hmessage
  have hsame := hledger.numbers
  have hdue : ∀ row, v.row = some row → row.attemptCount = w.dueCount failures row.status :=
    fun row hr => hledger.due h w row hget hr
  have hattempt : w.Attempting → w.message.attemptNumber = failures + 1 :=
    hledger.attempting h w hget
  cases hworked with
  | missed hpc hrow => exact absurd hrow (hplaced.stored hget)
  | skipped row hpc hrow hskipped =>
      refine ⟨failures, hledger.move hsolo hplaced hget rfl rfl rfl hsame (fun ha => ha.elim)
        (by simp) (by simp) fun row hr => ?_⟩
      simpa [Handler.dueCount, hpc] using hdue row hr
  | found row hpc hrow hskipped =>
      refine ⟨failures, hledger.move hsolo hplaced hget rfl rfl rfl hsame (fun _ => ?_)
        (by simp) (by simp) fun row hr => ?_⟩
      · -- the failures are recorded, so this is the attempt after them
        have hnew : ¬ v.Failed w.message.attemptNumber :=
          fun hf => hguard (.inr ⟨h, w, row, rfl, hget, hpc, hrow, hskipped, hf⟩)
        have hone := (hplaced.handler h w hget).2
        rw [hledger.failed] at hnew
        omega
      · simpa [Handler.dueCount, hpc] using hdue row hr
  | markedProcessing row hpc =>
      exact ⟨failures, hledger.set_status hsolo hagree hplaced hget (by simp [Handler.Quiet, hpc])
        (by simp [Handler.unbalanced, hpc]) (by simp [Handler.Attempting, hpc]) (by simp)
        (by simp) rfl⟩
  | recordedSuccess providerRef hpc =>
      exact ⟨failures, hledger.record_success hsolo hplaced hget hpc⟩
  | markedSent hpc =>
      exact ⟨failures, hledger.set_status hsolo hagree hplaced hget (by simp [Handler.Quiet, hpc])
        (by simp [Handler.unbalanced, hpc]) (fun ha => ha.elim) (by simp) (fun _ => rfl) rfl⟩
  | incrementedSuccess hpc =>
      obtain ⟨row, hrow, hstatus⟩ := hledger.marked h w hget hpc
      refine ⟨failures, hledger.move hsolo hplaced hget rfl channel_increment rfl hsame
        (fun ha => ha.elim) (by simp) (by simp) fun row' hr => ?_⟩
      obtain ⟨old, hold, rfl⟩ := Option.map_eq_some_iff.mp hr
      obtain rfl := Option.some.inj (hrow.symm.trans hold)
      have hold := hdue row hrow
      simp only [Handler.dueCount, hpc] at hold
      simp [Handler.dueCount, settledCount, hstatus, hold]
  | incrementedRetry what isTransient hpc =>
      exact ⟨failures, hledger.count_failure hsolo hagree hplaced hget
        (by simp [Handler.Quiet, hpc])
        (by simp [Handler.unbalanced, hpc]) (by simp [Handler.Attempting, hpc]) (.inl ⟨_, rfl⟩)⟩
  | incrementedDead what isTransient hpc =>
      exact ⟨failures, hledger.count_failure hsolo hagree hplaced hget
        (by simp [Handler.Quiet, hpc])
        (by simp [Handler.unbalanced, hpc]) (by simp [Handler.Attempting, hpc]) (.inr ⟨_, _, rfl⟩)⟩
  | recordedRetry what hpc =>
      exact ⟨_, hledger.record_failure hsolo hagree hplaced hget (by simp [Handler.Quiet, hpc])
        (hattempt (by simp [Handler.Attempting, hpc])) (by simp [Handler.dueCount, hpc]) (.inl rfl)⟩
  | publishedRetry i hpc hfree =>
      have hretried := hledger.retried h w hget hpc
      refine ⟨failures, hledger.move hsolo hplaced hget rfl rfl rfl
        (fun j place k hm => hledger.numbers_put ?_ place k hm) (fun ha => ha.elim) (by simp)
        (by simp) fun row hr => ?_⟩
      · show w.message.attemptNumber + 1 ≤ failures + 1
        omega
      · simpa [Handler.dueCount, hpc] using hdue row hr
  | droppedRetry hpc =>
      refine ⟨failures, hledger.move hsolo hplaced hget rfl rfl rfl hsame (fun ha => ha.elim)
        (by simp) (by simp) fun row hr => ?_⟩
      simpa [Handler.dueCount, hpc] using hdue row hr
  | recordedDead what isTransient hpc =>
      exact ⟨_, hledger.record_failure hsolo hagree hplaced hget (by simp [Handler.Quiet, hpc])
        (hattempt (by simp [Handler.Attempting, hpc])) (by simp [Handler.dueCount, hpc]) (.inr rfl)⟩
  | publishedDlq i hpc hfree =>
      refine ⟨failures, hledger.move hsolo hplaced hget rfl rfl rfl
        (fun j place k hm => hledger.numbers_put hle place k hm) (fun ha => ha.elim) (by simp)
        (by simp) fun row hr => ?_⟩
      simpa [Handler.dueCount, hpc] using hdue row hr
  | markedDeadLettered hpc =>
      exact ⟨failures, hledger.set_status hsolo hagree hplaced hget (by simp [Handler.Quiet, hpc])
        (by simp [Handler.unbalanced, hpc]) (fun ha => ha.elim) (by simp) (by simp) rfl⟩
  | acked hpc hholds =>
      refine ⟨failures, hledger.remove hsolo hget (by simp [Handler.unbalanced, hpc]) rfl rfl rfl
        fun i m hm => ?_⟩
      rcases Registry.update_eq_some.mp hm with ⟨_, heq⟩ | ⟨_, hm⟩
      · exact absurd heq (by simp)
      · exact hm
  | ackedLate hpc hholds =>
      exact ⟨failures, hledger.remove hsolo hget (by simp [Handler.unbalanced, hpc]) rfl rfl rfl
        fun i m hm => hm⟩

/-- The step lemma: while no step miscounts, the count is that of a ledger. -/
theorem step (hledger : v.Ledger failures) (hsolo : v.Solo) (hagree : v.Agreeing)
    (hplaced : v.Placed env.config) (hcrowds : ¬ v.Crowds event) (hguard : ¬ v.Miscounts event)
    (hstep : View.Step env n known v event next) : ∃ failures, next.Ledger failures := by
  cases hstep with
  | unrelated => exact ⟨failures, hledger⟩
  | found | aborted => exact ⟨failures, hledger.of_rows rfl rfl rfl hledger.numbers⟩
  | committed p saved hnone hfree hid hstatus hcount =>
      have hidle := hplaced.idle_of_absent hnone
      have hzero := hledger.fresh hnone
      refine ⟨failures, hledger.failed, hledger.succeeded, hledger.numbers, hledger.attempting,
        hledger.retried, ?_, by simp, ?_, fun row hr _ => ?_⟩
      · simp [setPublishing, hidle]
      · simp [setPublishing, hidle]
      · obtain rfl := Option.some.inj hr
        simp [settledCount, hstatus, hcount, hzero]
  | published p saved i hsaved hfree =>
      refine ⟨failures, hledger.of_rows rfl rfl rfl fun j place k hm => ?_⟩
      refine hledger.numbers_put ?_ place k hm
      show (1 : Int) ≤ failures + 1
      omega
  | delivered c i h w hmessage hfree hc htag hid hpc =>
      have hidle := Solo.idle_of_deliver hcrowds hmessage
      have honly : ∀ h' w', Function.update v.handlers h (some w) h' = some w' → w' = w :=
        fun h' w' hget' => (Solo.received hcrowds hmessage hget').2
      refine ⟨failures, hledger.failed, hledger.succeeded, ?_, ?_, ?_, ?_, hledger.fresh, ?_, ?_⟩
      · exact fun j place k hm => hledger.numbers_put (hledger.numbers i _ _ hmessage) place k hm
      · intro h' w' hget' ha
        obtain rfl := honly h' w' hget'
        simp [Handler.Attempting, hpc] at ha
      · intro h' w' hget' hretry
        obtain rfl := honly h' w' hget'
        simp [hpc] at hretry
      · intro h' w' hget' hmark
        obtain rfl := honly h' w' hget'
        simp [hpc] at hmark
      · intro h' w' row hget' hr
        obtain rfl := honly h' w' hget'
        rw [Handler.due_count_of_balanced (by simp [Handler.unbalanced, hpc])]
        exact hledger.settled row hr hidle
      · intro row _ hnone
        exact absurd (hnone h) (by simp)
  | worked h w next hget _ hworked => exact hledger.worked hsolo hagree hplaced hget hguard hworked
  | sent h w row outcome hget hid hpc =>
      have hnumber := hledger.attempting h w hget (by simp [Handler.Attempting, hpc])
      have hadvance : (v.advance h w (Handler.afterSend outcome)).Ledger failures := by
        refine hledger.move hsolo hplaced hget rfl rfl rfl hledger.numbers (fun _ => hnumber)
          (by cases outcome <;> simp [Handler.afterSend])
          (by cases outcome <;> simp [Handler.afterSend]) fun row hr => ?_
        have hdue := hledger.due h w row hget hr
        cases outcome <;> simpa [Handler.dueCount, Handler.afterSend, hpc] using hdue
      exact ⟨failures, hadvance.of_rows rfl rfl rfl hadvance.numbers⟩
  | crashed h w hget =>
      have hbalanced : w.unbalanced = false := by
        by_contra hun
        exact hguard (.inl ⟨h, w, rfl, hget, by simpa using hun⟩)
      exact ⟨failures, hledger.remove hsolo hget hbalanced rfl rfl rfl fun i m hm => hm⟩
  | expired i j c rung k hmessage hfree =>
      have hk := hledger.numbers i _ _ hmessage
      refine ⟨failures, hledger.of_rows rfl rfl rfl fun i' place k' hm => ?_⟩
      rcases Registry.update_eq_some.mp hm with ⟨_, heq⟩ | ⟨_, hm⟩
      · cases heq
        exact hk
      · rcases Registry.update_eq_some.mp hm with ⟨_, heq⟩ | ⟨_, hm⟩
        · exact absurd heq (by simp)
        · exact hledger.numbers i' place k' hm
  | requeued i name consumer k hmessage =>
      have hk := hledger.numbers i _ _ hmessage
      exact ⟨failures, hledger.of_rows rfl rfl rfl
        fun j place k' hm => hledger.numbers_put hk place k' hm⟩

/-- Without live messages the count is the number of attempts that have a row. -/
theorem exists_attempts (hledger : v.Ledger failures) (hsolo : v.Solo) (hagree : v.Agreeing)
    (hdead : ¬ v.Alive) {row : Notification} (hrow : v.row = some row) :
    ∀ k, v.attempts k ≠ none ↔ 1 ≤ k ∧ k ≤ row.attemptCount := by
  have hidle : ∀ h, v.handlers h = none := by
    intro h
    by_contra hne
    obtain ⟨w, hget⟩ := Option.ne_none_iff_exists'.mp hne
    obtain ⟨place, hmessage, rfl | rfl⟩ := hsolo.held h w hget
    · exact hdead ⟨_, _, _, hmessage, .queued _⟩
    · exact hdead ⟨_, _, _, hmessage, .unacked _ _⟩
  have hcount := hledger.settled row hrow hidle
  intro k
  rw [attempts_ne_none, hledger.failed k]
  by_cases hstatus : row.status = .sent
  · obtain ⟨k', hk'⟩ := hagree.sent ⟨row, hrow, hstatus⟩
    obtain rfl := hledger.succeeded k' hk'
    rw [settledCount, if_pos hstatus] at hcount
    rw [hcount]
    constructor
    · intro h
      rcases h with hk | hk
      · have hk := hledger.succeeded k hk
        push_cast
        omega
      · push_cast
        omega
    · intro h
      push_cast at h
      by_cases hlast : k = failures + 1
      · exact .inl (hlast ▸ hk')
      · exact .inr (by omega)
  · rw [settledCount, if_neg hstatus] at hcount
    rw [hcount]
    have hnone : ¬ v.Succeeded k := by
      intro hk
      rcases hagree.pending k hk with hs | hconf
      · obtain ⟨row', hrow', hsent⟩ := hs
        obtain rfl := Option.some.inj (hrow.symm.trans hrow')
        exact hstatus hsent
      · exact hdead hconf.alive
    exact or_iff_right hnone

end Ledger

end View

/-- The rows of a notification are as many as their numbers. -/
theorem Database.length_find_by_notification_id {db : Database} {n : String}
    (hkeys : db.AttemptKeys) (count : Nat)
    (hrows : ∀ k, db.findAttempt n k ≠ none ↔ 1 ≤ k ∧ k ≤ count) :
    (db.findByNotificationId n).length = count := by
  have hperm := List.mergeSort_perm
    (db.deliveryAttempts.filter fun attempt => attempt.notificationId = n)
    fun a b => decide (a.attemptNumber ≤ b.attemptNumber)
  have hnodup : ((db.findByNotificationId n).map DeliveryAttempt.attemptNumber).Nodup := by
    refine List.Nodup.map_on (fun a ha b hb hsame => ?_) ?_
    · have ha' := (find_attempt_iff hkeys).mpr ⟨ha, rfl⟩
      have hb' := (find_attempt_iff hkeys).mpr ⟨hb, hsame.symm⟩
      exact Option.some.inj (ha'.symm.trans hb')
    · exact hperm.nodup_iff.mpr (List.Nodup.filter _ (List.Nodup.of_map _ hkeys))
  have hnumbers : ((db.findByNotificationId n).map DeliveryAttempt.attemptNumber).toFinset =
      Finset.Icc 1 (count : Int) := by
    ext k
    rw [List.mem_toFinset, Finset.mem_Icc, ← hrows k, Option.ne_none_iff_exists', List.mem_map]
    simp only [find_attempt_iff hkeys]
  have hcard := List.toFinset_card_of_nodup hnodup
  rw [hnumbers, Int.card_Icc, List.length_map] at hcard
  omega

namespace System

/-- A delivery of `n` dies before it has settled the count, or passes the status check for an
attempt whose failure is recorded. -/
def miscounts (n : String) (s : System) : Event → Bool
  | .crash h => (s.handlers.get h).any fun w => w.notificationId = n && w.unbalanced
  | .work h =>
      (s.handlers.get h).any fun w =>
        w.notificationId = n && w.pc = .findById &&
        (s.db.findById n).any (fun row => !row.status.skipped) &&
        (s.db.findAttempt n w.message.attemptNumber).any fun a => a.status ≠ .success
  | _ => false

variable {env : Env} {s : System} {n : String} {event : Event}

theorem miscounts_of_view (hmiscounts : (s.view n).Miscounts event) :
    s.miscounts n event = true := by
  rcases hmiscounts with ⟨h, w, rfl, hview, hun⟩ |
    ⟨h, w, row, rfl, hview, hpc, hrow, hskipped, a, ha, hfailed⟩
  · obtain ⟨hget, hid⟩ := view_handlers.mp hview
    simp [miscounts, hget, hid, hun]
  · obtain ⟨hget, hid⟩ := view_handlers.mp hview
    have hfind : s.db.findById n = some row := hrow
    have hattempt : s.db.findAttempt n w.message.attemptNumber = some a := ha
    simp [miscounts, hget, hid, hpc, hfind, hskipped, hattempt, hfailed]

/-- Any number of requests, deliveries that do not overlap and may die, messages that may be put
back: in every run in which no delivery dies before it has settled the count and none makes an
attempt again whose failure is recorded, a notification without live messages has as many attempts
as its `attempt_count` says. -/
theorem attempt_count_agrees (env : Env) (s : System) (n : String)
    (hreach : Reaches (System.step env)
      (fun s event => s.crowds n event = false ∧ s.miscounts n event = false) initial s)
    (hdead : ¬ s.Alive n) (row : Notification) (hrow : s.db.findById n = some row) :
    row.attemptCount = (s.db.findByNotificationId n).length := by
  let invariant (v : View) : Prop := Agrees env v ∧ ∃ failures, v.Ledger failures
  have hview : invariant (s.view n) := by
    refine view_invariant hreach ⟨agrees_empty env, 0, View.ledger_empty⟩ ?_
    intro s event next _ hallowed hview hstep
    obtain ⟨hagrees, failures, hledger⟩ := hview
    have hcrowds : ¬ (s.view n).Crowds event := by
      intro hcrowds
      simp [crowds_of_view hcrowds] at hallowed
    have hmiscounts : ¬ (s.view n).Miscounts event := by
      intro hmiscounts
      simp [miscounts_of_view hmiscounts] at hallowed
    exact ⟨hagrees.step hcrowds hstep, hledger.step hagrees.solo hagrees.agreeing hagrees.placed
      hcrowds hmiscounts hstep⟩
  obtain ⟨hagrees, failures, hledger⟩ := hview
  have hrows := hledger.exists_attempts hagrees.solo hagrees.agreeing
    (fun halive => hdead (alive_view.mp halive)) hrow
  exact (Database.length_find_by_notification_id (reachable_attempt_keys hreach) _ hrows).symm

/-- A delivery dies before `markSent`, a second one fails, and the retry succeeds. -/
def diesThenRetries : List Event :=
  diesAfterRecord.append [.send 1 (.failure "timeout" true), .work 1, .work 1, .work 1, .work 1,
    .expire 1, .deliver .email 2, .work 2, .work 2, .send 2 (.result "ref"), .work 2, .work 2,
    .work 2, .work 2]

/-- Nothing is left in the broker. -/
def quietBroker (s : System) : Bool :=
  (List.range s.broker.next).all fun i => (s.broker.get i).isNone

theorem not_alive_of_quiet (hquiet : s.quietBroker = true) (n : String) : ¬ s.Alive n := by
  intro halive
  obtain ⟨i, m, body, hget, -⟩ := halive
  have hnone := List.all_eq_true.mp hquiet i (List.mem_range.mpr (Registry.lt_next hget))
  simp [hget] at hnone

theorem attempt_count_agrees_dies_then_retries :
    ∃ s, run (System.step shipped) initial diesThenRetries = some s ∧
      ∃ row, s.db.findById "id" = some row ∧
        row.attemptCount = (s.db.findByNotificationId "id").length := by
  have hlast : (run (guarded (System.step shipped) fun s event =>
      !s.crowds "id" event && !s.miscounts "id" event) initial diesThenRetries).map (fun s =>
        (s.quietBroker, (s.db.findById "id").isSome)) = some (true, true) := by decide +kernel
  obtain ⟨s, hrun, hs⟩ := Option.map_eq_some_iff.mp hlast
  have hreach : Reaches (System.step shipped) (fun s event => s.crowds "id" event = false ∧
      s.miscounts "id" event = false) initial s :=
    Reaches.of_guarded_run (fun _ _ h => by simpa using h) hrun
  obtain ⟨row, hrow⟩ := Option.isSome_iff_exists.mp (congrArg Prod.snd hs)
  have hdead := not_alive_of_quiet (congrArg Prod.fst hs) "id"
  exact ⟨s, run_of_guarded hrun, row, hrow,
    attempt_count_agrees shipped s "id" hreach hdead row hrow⟩

/-- A delivery dies between `markSent` and `incrementAttemptCount`; the next one skips. -/
def diesBeforeCount : List Event :=
  (submission sample "id").append [.deliver .email 0, .work 0, .work 0, .send 0 (.result "ref"),
    .work 0, .work 0, .crash 0, .requeue 0, .deliver .email 0, .work 1, .work 1]

/-- A delivery dies between counting a failure and recording it; the next one counts again. -/
def diesBeforeRecord : List Event :=
  (submission sample "id").append [.deliver .email 0, .work 0, .work 0,
    .send 0 (.failure "timeout" true), .work 0, .crash 0, .requeue 0, .deliver .email 0, .work 1,
    .work 1, .send 1 (.result "ref"), .work 1, .work 1, .work 1, .work 1]

/-- One request and deliveries that do not overlap: no attempt is counted for one row, and two are
counted for one row. -/
theorem attempt_count_off :
    (∃ s, run (guarded (System.step shipped) fun s event => !s.crowds "id" event) initial
        diesBeforeCount = some s ∧ ¬ s.Alive "id" ∧
      (s.db.findById "id").map Notification.attemptCount = some 0 ∧
      (s.db.findByNotificationId "id").length = 1) ∧
    ∃ s, run (guarded (System.step shipped) fun s event => !s.crowds "id" event) initial
        diesBeforeRecord = some s ∧ ¬ s.Alive "id" ∧
      (s.db.findById "id").map Notification.attemptCount = some 2 ∧
      (s.db.findByNotificationId "id").length = 1 := by
  constructor
  · have hlast : (run (guarded (System.step shipped) fun s event => !s.crowds "id" event) initial
        diesBeforeCount).map (fun s => (s.quietBroker,
          (s.db.findById "id").map Notification.attemptCount,
          (s.db.findByNotificationId "id").length)) =
        some (true, some 0, 1) := by decide +kernel
    obtain ⟨s, hrun, hs⟩ := Option.map_eq_some_iff.mp hlast
    obtain ⟨hquiet, hcount, hrows⟩ : _ ∧ _ ∧ _ := by simpa only [Prod.mk.injEq] using hs
    exact ⟨s, hrun, not_alive_of_quiet hquiet "id", hcount, hrows⟩
  · have hlast : (run (guarded (System.step shipped) fun s event => !s.crowds "id" event) initial
        diesBeforeRecord).map (fun s => (s.quietBroker,
          (s.db.findById "id").map Notification.attemptCount,
          (s.db.findByNotificationId "id").length)) =
        some (true, some 2, 1) := by decide +kernel
    obtain ⟨s, hrun, hs⟩ := Option.map_eq_some_iff.mp hlast
    obtain ⟨hquiet, hcount, hrows⟩ : _ ∧ _ ∧ _ := by simpa only [Prod.mk.injEq] using hs
    exact ⟨s, hrun, not_alive_of_quiet hquiet "id", hcount, hrows⟩

end System

end NotificationDelivery
