import NotificationDelivery.Service.Attempts
import NotificationDelivery.Service.Connection
import NotificationDelivery.Service.LadderRefinement
import NotificationDelivery.Service.NoLoss
import NotificationDelivery.Service.OwnKeys

/-!
# What a detail response says

`GET /api/notifications/{id}` reads the row of the notification and then, in a query of its own, the
rows of its attempts. Between the two the deliveries go on. `Foreseen` is what a row that was read
says about every later moment, and `detail_consistent` is the main result.
-/

namespace NotificationDelivery

open EventMachine Ladder

/-! ## The rows of the attempts as a list -/

/-- One row for each outcome, in ascending order. -/
def attemptList (n : String) (c : Channel) (outcomes : List ProviderOutcome) :
    List DeliveryAttempt :=
  outcomes.mapIdx fun i outcome => attemptRow n c (i + 1) outcome

section AttemptList

variable {n : String} {c : Channel} {outcomes : List ProviderOutcome} {outcome : ProviderOutcome}
  {k : Int} {a : DeliveryAttempt} {db : Database}

@[simp] theorem attempt_row_number : (attemptRow n c k outcome).attemptNumber = k := by
  cases outcome <;> rfl

theorem attempt_row_transient (h : outcome.Transient) :
    (attemptRow n c k outcome).status = .transientFailure := by
  obtain ⟨what, rfl⟩ := h
  rfl

@[simp] theorem attempt_row_failure (what : String) (isTransient : Bool) :
    (attemptRow n c k (.failure what isTransient)).status ≠ .success := by
  cases isTransient <;> simp [attemptRow]

@[simp] theorem length_attempt_list : (attemptList n c outcomes).length = outcomes.length := by
  simp [attemptList]

theorem attempt_list_append : attemptList n c (outcomes ++ [outcome]) =
    attemptList n c outcomes ++ [attemptRow n c (outcomes.length + 1) outcome] := by
  simp [attemptList]

/-- The rows of transient failures say so. -/
theorem attempt_list_transient (h : ∀ outcome ∈ outcomes, outcome.Transient) :
    ∀ a ∈ attemptList n c outcomes, a.status = .transientFailure := by
  intro a ha
  obtain ⟨i, hi, rfl⟩ := List.mem_mapIdx.mp ha
  exact attempt_row_transient (h _ (List.getElem_mem hi))

/-- The numbers are one, two, and so on. -/
theorem attempt_list_numbers : (attemptList n c outcomes).map (·.attemptNumber) =
    (List.range outcomes.length).map fun i : Nat => (i : Int) + 1 := by
  refine List.ext_getElem (by simp) fun i hi hi' => ?_
  simp [attemptList]

theorem attempt_list_sorted :
    (attemptList n c outcomes).Pairwise fun a b => a.attemptNumber < b.attemptNumber := by
  rw [← List.pairwise_map, attempt_list_numbers, List.pairwise_map]
  refine List.pairwise_lt_range.imp fun h => ?_
  omega

/-- The list holds the rows under their numbers. -/
theorem mem_attempt_list : a ∈ attemptList n c outcomes ↔
    attemptRows n c outcomes a.attemptNumber = some a := by
  constructor
  · intro ha
    obtain ⟨i, hi, rfl⟩ := List.mem_mapIdx.mp ha
    have hone : (1 : Int) ≤ i + 1 := by omega
    simp [attemptRows, hone, hi]
  · intro ha
    unfold attemptRows at ha
    split at ha
    · rename_i hone
      obtain ⟨outcome, hget, hrow⟩ := Option.map_eq_some_iff.mp ha
      obtain ⟨hi, rfl⟩ := List.getElem?_eq_some_iff.mp hget
      refine List.mem_mapIdx.mpr ⟨_, hi, ?_⟩
      have hnumber : ((a.attemptNumber - 1).toNat : Int) + 1 = a.attemptNumber := by omega
      rw [hnumber]
      exact hrow
    · exact absurd ha (by simp)

/-- The query for the attempts returns their rows in ascending order. -/
theorem Database.find_eq_attempt_list (hkeys : db.AttemptKeys)
    (hrows : db.findAttempt n = attemptRows n c outcomes) :
    db.findByNotificationId n = attemptList n c outcomes := by
  have hmem : ∀ a, a ∈ db.findByNotificationId n ↔ a ∈ attemptList n c outcomes := by
    intro a
    rw [mem_attempt_list, ← hrows, Database.find_attempt_iff hkeys]
    simp
  have hfound : (db.findByNotificationId n).Nodup := by
    have hrows := List.Nodup.of_map DeliveryAttempt.key hkeys
    exact (List.mergeSort_perm _ _).nodup_iff.mpr (hrows.filter _)
  have hlisted : (attemptList n c outcomes).Nodup := by
    refine attempt_list_sorted.imp ?_
    intro a b hlt heq
    rw [heq] at hlt
    exact lt_irrefl _ hlt
  have hsorted : (db.findByNotificationId n).Pairwise
      fun a b => a.attemptNumber ≤ b.attemptNumber := by
    have hsort : (db.findByNotificationId n).Pairwise
        fun a b => decide (a.attemptNumber ≤ b.attemptNumber) = true := by
      refine List.pairwise_mergeSort ?_ ?_ _
      · intro a b c hab hbc
        simp only [decide_eq_true_eq] at hab hbc ⊢
        omega
      · intro a b
        simp only [Bool.or_eq_true, decide_eq_true_eq]
        omega
    exact hsort.imp fun h => of_decide_eq_true h
  refine List.Perm.eq_of_pairwise ?_ hsorted (attempt_list_sorted.imp fun h => h.le)
    ((List.perm_ext_iff_of_nodup hfound hlisted).mpr hmem)
  -- two rows of the notification with one number are the same
  intro a b ha hb hab hba
  have hnumber : a.attemptNumber = b.attemptNumber := by omega
  have hrow := mem_attempt_list.mp ((hmem a).mp ha)
  rw [hnumber, mem_attempt_list.mp hb] at hrow
  exact (Option.some.inj hrow).symm

end AttemptList

/-! ## What stays true after the first query -/

namespace View

/-- The row says that the delivery is over. -/
def Over (v : View) : Prop :=
  ∃ row, v.row = some row ∧ (row.status = .sent ∨ row.status = .deadLettered)

/-- Nothing is left that records an attempt or sets the status. -/
structure Idle (v : View) : Prop where
  handlers : ∀ h w, v.handlers h = some w → w.pc = .incrementSuccess ∨ w.pc = .ack
  queued : ∀ i c k, v.messages i ≠ some (.queue (Topology.mainQueue c), k)
  waiting : ∀ i c rung k, v.messages i ≠ some (.queue (Topology.retryQueue c rung), k)
  publishing : ∀ p, v.publishing p = none

/-- What a row that was read says about a later state, in which `outcomes` are the outcomes of the
attempts that are over. -/
structure Foreseen (n : String) (v : View) (outcomes : List ProviderOutcome) (row : Notification) :
    Prop where
  counted : row.attemptCount ≤ outcomes.length + 1
  final : row.status = .sent ∨ row.status = .deadLettered → v.Over ∧ ∃ c retried last,
    v.attempts = attemptRows n c (retried ++ [last]) ∧
      (∀ outcome ∈ retried, outcome.Transient) ∧ (last.isResult = true ↔ row.status = .sent)

variable {env : Env} {config : Config} {n : String} {known : Prop} {v next : View} {event : Event}
  {phase : Option Phase} {outcomes : List ProviderOutcome} {h h' : Nat} {w w' : Handler}
  {row : Notification}

theorem not_over_empty : ¬ empty.Over := by
  simp [Over, empty]

/-- While the delivery is over and nothing is left, it stays so, and no attempt is recorded. -/
theorem Idle.step (hidle : v.Idle) (hover : v.Over) (hknown : ¬ known)
    (hcalm : event.disturbs = false) (hstep : View.Step env n known v event next) :
    next.Over ∧ next.Idle ∧ next.attempts = v.attempts := by
  have hhandlers : ∀ {h₀ value}, (∀ w', value = some w' → w'.pc = .ack) →
      ∀ h w, Function.update v.handlers h₀ value h = some w → w.pc = .incrementSuccess ∨
        w.pc = .ack := by
    intro h₀ value hvalue h w hget
    rcases Registry.update_eq_some.mp hget with ⟨_, heq⟩ | ⟨_, hget⟩
    · exact .inr (hvalue w heq)
    · exact hidle.handlers h w hget
  -- no message is left to deliver, so only the remaining deliveries move
  cases hstep with
  | unrelated => exact ⟨hover, hidle, rfl⟩
  | found p existing hk => exact absurd hk hknown
  | aborted | crashed | requeued => exact absurd hcalm (by simp [Event.disturbs])
  | committed p saved hnone =>
      obtain ⟨row, hrow, -⟩ := hover
      exact absurd (hnone.symm.trans hrow) (by simp)
  | published p saved i hsaved => exact absurd (hsaved.symm.trans (hidle.publishing p)) (by simp)
  | delivered c i h w hmessage => exact absurd hmessage (hidle.queued _ _ _)
  | expired i j c rung k hmessage => exact absurd hmessage (hidle.waiting _ _ _ _)
  | sent h w row outcome hget hid hpc =>
      have hat := hidle.handlers h w hget
      simp [hpc] at hat
  | worked h w next hget hid hworked =>
      have hat := hidle.handlers h w hget
      cases hworked with
      | incrementedSuccess =>
          refine ⟨?_, ⟨hhandlers (by simp), hidle.queued, hidle.waiting, hidle.publishing⟩, rfl⟩
          obtain ⟨row, hrow, hstatus⟩ := hover
          exact ⟨{ row with attemptCount := row.attemptCount + 1 },
            by simp [increment, advance, hrow], hstatus⟩
      | acked =>
          have hmessages : ∀ i name k, v.messages i ≠ some (.queue name, k) →
              (v.setMessage w.deliveryTag none).messages i ≠ some (.queue name, k) := by
            intro i name k hne hget
            rcases Registry.update_eq_some.mp hget with ⟨_, heq⟩ | ⟨_, hget⟩
            · exact absurd heq (by simp)
            · exact hne hget
          exact ⟨hover, ⟨hhandlers (by simp), fun i c k => hmessages i _ k (hidle.queued i c k),
            fun i c rung k => hmessages i _ k (hidle.waiting i c rung k), hidle.publishing⟩, rfl⟩
      | ackedLate =>
          exact ⟨hover, ⟨hhandlers (by simp), hidle.queued, hidle.waiting, hidle.publishing⟩, rfl⟩
      | _ => simp_all

/-- Every delivery but the busy one has only its ack left. -/
theorem Tracks.attempting (htracks : v.Tracks config n phase outcomes)
    (hget : v.handlers h = some w)
    (hpc : w.pc ≠ .ack) : phase = some (.handling (outcomes.length + 1)) ∧
      ∃ row recorded calls, v.Attempting config.maxRetries n outcomes h w row recorded calls := by
  rcases htracks with hrefines | ⟨-, ⟨row, hrest, -⟩, -⟩
  · exact hrefines.attempting hget hpc
  · exact absurd (hrest.acked hget).1 hpc

/-- The delivery that sets the status to a final one leaves nothing else to do. -/
theorem Attempting.idle {recorded calls : List ProviderOutcome}
    (hatt : v.Attempting config.maxRetries n outcomes h w row recorded calls)
    {status : NotificationStatus} {pc : HandlerPc} (hpc : pc = .incrementSuccess ∨ pc = .ack) :
    ((v.setStatus status).advance h w pc).Idle := by
  -- the only message on a queue is the one that has just gone to the dead-letter queue
  have hslot : ∀ i name k, v.messages i = some (.queue name, k) → ∃ c, name = Topology.dlq c := by
    intro i name k hmessage
    have hslot := hatt.traffic.slot_of_queue hmessage
    unfold parked at hslot
    split at hslot
    · simp only [Option.some.injEq, Prod.mk.injEq, Place.queue.injEq] at hslot
      exact ⟨_, hslot.1.symm⟩
    · exact absurd hslot (by simp)
  refine ⟨fun h' w' hget => ?_, fun i c k hmessage => ?_, fun i c rung k hmessage => ?_, hatt.quiet⟩
  · rcases Registry.update_eq_some.mp hget with ⟨_, heq⟩ | ⟨hne, hget⟩
    · obtain rfl := Option.some.inj heq
      exact hpc
    · exact .inr (hatt.traffic.acking h' w' hget (by simpa using Ne.symm hne)).1
  · obtain ⟨c', hname⟩ := hslot i _ k hmessage
    exact absurd hname (by simp)
  · obtain ⟨c', hname⟩ := hslot i _ k hmessage
    exact absurd hname (by simp)

/-- The step lemma: once the delivery is over, nothing is left. -/
theorem Tracks.idle_step (htracks : v.Tracks env.config n phase outcomes) (hidle : v.Over → v.Idle)
    (hknown : ¬ known) (hcalm : event.disturbs = false) (hstep : View.Step env n known v event next)
    (hnext : next.Over) : next.Idle := by
  by_cases hover : v.Over
  · exact ((hidle hover).step hover hknown hcalm hstep).2.1
  -- the step that ends the delivery is one that changes the status
  have hsame : next.row = v.row → next.Idle := by
    intro hrow
    obtain ⟨row, hget, hstatus⟩ := hnext
    exact absurd ⟨row, hrow ▸ hget, hstatus⟩ hover
  have hcount : next.row = v.increment.row → next.Idle := by
    intro hrow
    obtain ⟨row, hget, hstatus⟩ := hnext
    obtain ⟨old, hold, rfl⟩ := Option.map_eq_some_iff.mp (hrow ▸ hget : v.increment.row = some row)
    exact absurd ⟨old, hold, hstatus⟩ hover
  cases hstep with
  | committed p saved hnone hfree hid hstatus =>
      obtain ⟨row, hrow, hover⟩ := hnext
      obtain rfl := Option.some.inj hrow
      simp [hstatus] at hover
  | worked h w next hget hid hworked =>
      cases hworked with
      | markedProcessing row' =>
          obtain ⟨row, hrow, hstatus⟩ := hnext
          obtain ⟨old, hold, rfl⟩ := Option.map_eq_some_iff.mp hrow
          simp at hstatus
      | markedSent hpc =>
          obtain ⟨-, row, recorded, calls, hatt⟩ := htracks.attempting hget (by simp [hpc])
          exact hatt.idle (.inl rfl)
      | markedDeadLettered hpc =>
          obtain ⟨-, row, recorded, calls, hatt⟩ := htracks.attempting hget (by simp [hpc])
          exact hatt.idle (.inr rfl)
      | incrementedSuccess | incrementedRetry | incrementedDead => exact hcount rfl
      | _ => exact hsame rfl
  | _ => exact hsame rfl

/-- The rows of the attempts are those of the attempts that are over and perhaps of one more. -/
theorem Tracks.attempts_eq (htracks : v.Tracks config n phase outcomes) :
    ∃ c recorded, v.attempts = attemptRows n c recorded ∧ outcomes.length ≤ recorded.length := by
  rcases htracks with hrefines | ⟨-, ⟨row, hrest, -⟩, -⟩
  · cases hrefines with
    | absent hempty =>
        refine ⟨.email, [], ?_, Nat.le_refl _⟩
        rw [hempty]
        funext k
        simp [empty, attemptRows]
    | accepted p saved row hbooks => exact ⟨row.channel, [], hbooks.attempts, Nat.le_refl _⟩
    | queued _ row hrest | waiting _ row hrest | sent _ row hrest | dead _ row hrest =>
        exact ⟨row.channel, outcomes, hrest.books.attempts, Nat.le_refl _⟩
    | handling _ h w row recorded calls hatt =>
        refine ⟨row.channel, recorded, hatt.books.attempts, ?_⟩
        have hprogress := hatt.progress
        generalize w.pc = pc at hprogress
        generalize row.status = status at hprogress
        generalize row.attemptCount = count at hprogress
        cases hprogress <;> simp
  · exact ⟨row.channel, outcomes, hrest.books.attempts, Nat.le_refl _⟩

/-- What a row says at the moment it is read. -/
theorem Tracks.foreseen (htracks : v.Tracks config n phase outcomes)
    (hfollows : Follows config.maxRetries (phase, outcomes)) (hidle : v.Over → v.Idle)
    (hrow : v.row = some row) : v.Foreseen n outcomes row := by
  have hunfinished : row.attemptCount ≤ outcomes.length + 1 →
      ¬ (row.status = .sent ∨ row.status = .deadLettered) → v.Foreseen n outcomes row :=
    fun hcount hnot => ⟨hcount, fun hstatus => absurd hstatus hnot⟩
  have hover : row.status = .sent ∨ row.status = .deadLettered → v.Over :=
    fun hstatus => ⟨row, hrow, hstatus⟩
  rcases htracks with hrefines | ⟨-, ⟨row', hrest, hstatus⟩, -⟩
  · cases hrefines with
    | absent hempty =>
        rw [hempty] at hrow
        exact absurd hrow (by simp [empty])
    | accepted p saved row' hbooks hstatus hcount =>
        obtain rfl := Option.some.inj (hbooks.stored.symm.trans hrow)
        exact hunfinished (by omega) (by simp [hstatus])
    | queued _ row' hrest =>
        obtain rfl := Option.some.inj (hrest.books.stored.symm.trans hrow)
        refine hunfinished (by rw [hrest.count]; omega) fun hstatus => ?_
        -- the message that waits contradicts a final status
        obtain ⟨-, i, hmessage⟩ := hrest.traffic.waits _ rfl
        exact (hidle (hover hstatus)).queued _ _ _ hmessage
    | waiting _ row' hrest hstatus =>
        obtain rfl := Option.some.inj (hrest.books.stored.symm.trans hrow)
        exact hunfinished (by rw [hrest.count]; omega) (by simp [hstatus])
    | sent _ row' hrest hstatus =>
        obtain rfl := Option.some.inj (hrest.books.stored.symm.trans hrow)
        obtain ⟨-, retried, providerRef, rfl, htransient, -⟩ := hfollows.consistent
        exact ⟨by rw [hrest.count]; omega, fun hfinal => ⟨hover hfinal, row'.channel, retried, _,
          hrest.books.attempts, htransient, by simp [hstatus, ProviderOutcome.isResult]⟩⟩
    | dead _ row' hrest hstatus =>
        obtain rfl := Option.some.inj (hrest.books.stored.symm.trans hrow)
        obtain ⟨-, retried, what, isTransient, rfl, htransient, -⟩ := hfollows.consistent
        exact ⟨by rw [hrest.count]; omega, fun hfinal => ⟨hover hfinal, row'.channel, retried, _,
          hrest.books.attempts, htransient, by simp [hstatus, ProviderOutcome.isResult]⟩⟩
    | handling _ h w row' recorded calls hatt =>
        obtain rfl := Option.some.inj (hatt.books.stored.symm.trans hrow)
        obtain ⟨-, htransient, -⟩ := hfollows.consistent
        have hbooks := hatt.books.attempts
        have hprogress := hatt.progress
        -- a busy delivery whose notification is over has recorded its success
        have hlast : row'.status = .sent ∨ row'.status = .deadLettered →
            w.pc = .incrementSuccess := by
          intro hstatus
          rcases (hidle (hover hstatus)).handlers h w hatt.handler with hpc | hpc
          · exact hpc
          · rw [hpc] at hprogress
            cases hprogress
        have hcount : row'.attemptCount ≤ outcomes.length + 1 := by
          generalize row'.attemptCount = count at hprogress
          generalize row'.status = status at hprogress
          generalize w.pc = pc at hprogress
          cases hprogress <;> omega
        refine ⟨hcount, fun hfinal => ?_⟩
        rw [hlast hfinal] at hprogress
        generalize row'.attemptCount = count at hprogress
        generalize hstatus : row'.status = status at hprogress hfinal ⊢
        cases hprogress with
        | incrementSuccess providerRef =>
            exact ⟨hover (.inl hstatus), row'.channel, outcomes, _, hbooks, htransient,
              by simp [ProviderOutcome.isResult]⟩
  · obtain rfl := Option.some.inj (hrest.books.stored.symm.trans hrow)
    exact hunfinished (by rw [hrest.count]; omega) (by simp [hstatus])

/-- What a row says stays true while the deliveries go on. -/
theorem Foreseen.step (hforeseen : v.Foreseen n outcomes row) (hidle : v.Over → v.Idle)
    (hknown : ¬ known) (hcalm : event.disturbs = false) (hstep : View.Step env n known v event next)
    {outcomes' : List ProviderOutcome} (hlength : outcomes.length ≤ outcomes'.length) :
    next.Foreseen n outcomes' row where
  counted := hforeseen.counted.trans (by omega)
  final := by
    intro hstatus
    obtain ⟨hover, c, retried, last, hattempts, hrest⟩ := hforeseen.final hstatus
    obtain ⟨hover', -, hsame⟩ := (hidle hover).step hover hknown hcalm hstep
    exact ⟨hover', c, retried, last, hsame.trans hattempts, hrest⟩

end View

/-! ## The requests -/

/-- What the answer to a detail request says. -/
structure Detail where
  notification : Notification
  attempts : List DeliveryAttempt
  deriving DecidableEq, Repr

namespace Detail

/-- The answer; without a row it is `not found`. -/
def response : Option Detail → Response
  | none => { status := 404, body := .obj [("error", .str "not found")] }
  | some d => { status := 200, body := detailJson d.notification d.attempts }

/-- The attempts are numbered from one without a gap, their outcomes explain the status, and at most
one counted attempt is missing. -/
structure Consistent (d : Detail) : Prop where
  numbers : d.attempts.map (·.attemptNumber) =
    (List.range d.attempts.length).map fun i : Nat => (i : Int) + 1
  sent : d.notification.status = .sent → ∃ earlier last, d.attempts = earlier ++ [last] ∧
    last.status = .success ∧ ∀ a ∈ earlier, a.status = .transientFailure
  dead : d.notification.status = .deadLettered → ∃ earlier last, d.attempts = earlier ++ [last] ∧
    ∀ a ∈ d.attempts, a.status ≠ .success
  counted : d.notification.attemptCount ≤ d.attempts.length + 1

end Detail

/-- The next query of the handler of a detail request, or its answer. -/
inductive DetailPc where
  | findById
  | findByNotificationId (n : Notification)
  | answer (detail : Option Detail)
  deriving DecidableEq, Repr

/-- `GET /api/notifications/{id}` for an id that the collation tells apart. -/
structure DetailRequest where
  id : String
  pc : DetailPc
  deriving DecidableEq, Repr

/-- The handler makes its next query. -/
def DetailRequest.work (db : Database) (req : DetailRequest) : Option DetailPc :=
  match req.pc with
  | .findById => some ((db.findById req.id).elim (.answer none) .findByNotificationId)
  | .findByNotificationId n => some (.answer (some ⟨n, db.findByNotificationId req.id⟩))
  | .answer _ => none

/-- What the request has been answered with. -/
def DetailRequest.answered (req : DetailRequest) : Option Detail :=
  match req.pc with
  | .answer detail => detail
  | _ => none

/-- The service and the detail requests that it handles. -/
structure Observed where
  system : System
  requests : Registry DetailRequest

inductive ObservedEvent where
  | service (event : Event)
  | get (id : String)
  | query (g : Nat)

namespace Observed

def initial : Observed := ⟨.initial, .empty⟩

def step (env : Env) (s : Observed) : ObservedEvent → Option Observed
  | .service event => do
      let system ← s.system.step env event
      pure { s with system }
  | .get id => some { s with requests := s.requests.insert ⟨id, .findById⟩ }
  | .query g => do
      let req ← s.requests.get g
      let pc ← req.work s.system.db
      pure { s with requests := s.requests.set g (some { req with pc }) }

/-- The events of the service leave `n` posted once and undisturbed; detail requests are free. -/
def postedOnce (env : Env) (n : String) (s : Observed) : ObservedEvent → Bool
  | .service event => s.system.postedOnce env n event
  | .get _ | .query _ => true

end Observed

/-! ## Every interleaving -/

/-- What every run keeps about a notification that is posted once. -/
structure System.OnTrack (env : Env) (n : String) (s : System) (phase : Option Phase)
    (outcomes : List ProviderOutcome) : Prop where
  well_formed : s.WellFormed
  keys : s.KeysOwned env (· = n)
  attempt_keys : s.db.AttemptKeys
  placed : (s.view n).Placed env.config
  tracks : (s.view n).Tracks env.config n phase outcomes
  follows : Follows env.config.maxRetries (phase, outcomes)
  idle : (s.view n).Over → (s.view n).Idle

/-- What a detail request for `n` has found out. -/
def DetailPc.Sound (n : String) (v : View) (outcomes : List ProviderOutcome) : DetailPc → Prop
  | .findById => True
  | .findByNotificationId row => v.Foreseen n outcomes row
  | .answer detail => ∀ d, detail = some d → d.Consistent

/-- The invariant. -/
def Observed.Sound (env : Env) (n : String) (s : Observed) : Prop :=
  ∃ phase outcomes, s.system.OnTrack env n phase outcomes ∧
    ∀ g req, s.requests.get g = some req → req.id = n → req.pc.Sound n (s.system.view n) outcomes

section Runs

variable {env : Env} {n : String} {s t : System} {phase : Option Phase}
  {outcomes : List ProviderOutcome} {event : Event} {row : Notification}

theorem System.on_track_initial (env : Env) (n : String) :
    System.initial.OnTrack env n none [] where
  well_formed := System.well_formed_initial
  keys := System.keys_owned_initial env _
  attempt_keys := List.nodup_nil
  placed := View.placed_empty _
  tracks := .inl (.absent rfl)
  follows := rfl
  idle := fun hover => absurd hover View.not_over_empty

/-- A step of the service keeps the track, and with it what the requests have read. -/
theorem System.OnTrack.step (h : s.OnTrack env n phase outcomes)
    (hcalm : s.postedOnce env n event = true) (hstep : s.step env event = some t) :
    ∃ phase' outcomes', t.OnTrack env n phase' outcomes' ∧
      ∀ row, (s.view n).Foreseen n outcomes row → (t.view n).Foreseen n outcomes' row := by
  have hknown : ¬ s.MeetsRow env n event := h.keys.not_meets_row rfl
  have hundisturbed := System.disturbs_of_posted_once hcalm
  have hview := h.well_formed.step_view_own (n := n) hstep
  obtain ⟨phase', outcomes', hmoves, htracks⟩ := h.tracks.step h.placed hknown hundisturbed hview
  refine ⟨phase', outcomes', ⟨h.well_formed.step hstep, h.keys.step_posted_once hcalm hstep,
    System.attempt_keys_step h.attempt_keys hstep, h.placed.step hview, htracks,
    h.follows.moves hmoves, h.tracks.idle_step h.idle hknown hundisturbed hview⟩, ?_⟩
  intro row hforeseen
  exact hforeseen.step h.idle hknown hundisturbed hview hmoves.length_le

/-- The row that the first query reads says what is to come. -/
theorem System.OnTrack.foreseen (h : s.OnTrack env n phase outcomes)
    (hrow : s.db.findById n = some row) : (s.view n).Foreseen n outcomes row :=
  h.tracks.foreseen h.follows h.idle hrow

/-- The rows that the second query reads agree with the row that the first one read. -/
theorem System.OnTrack.consistent (h : s.OnTrack env n phase outcomes)
    (hforeseen : (s.view n).Foreseen n outcomes row) :
    Detail.Consistent ⟨row, s.db.findByNotificationId n⟩ := by
  have hlist : ∀ {c recorded}, (s.view n).attempts = attemptRows n c recorded →
      s.db.findByNotificationId n = attemptList n c recorded :=
    fun hrows => Database.find_eq_attempt_list h.attempt_keys hrows
  obtain ⟨c, recorded, hrows, hlength⟩ := h.tracks.attempts_eq
  refine ⟨?_, fun hsent => ?_, fun hdead => ?_, ?_⟩
  · show (s.db.findByNotificationId n).map _ = _
    rw [hlist hrows, attempt_list_numbers, length_attempt_list]
  · obtain ⟨-, c, retried, last, hrows, htransient, hresult⟩ := hforeseen.final (.inl hsent)
    have hlast : last.isResult = true := hresult.mpr hsent
    refine ⟨_, _, (hlist hrows).trans attempt_list_append, ?_, attempt_list_transient htransient⟩
    cases last with
    | result providerRef => rfl
    | failure => exact absurd hlast (by simp [ProviderOutcome.isResult])
  · obtain ⟨-, c, retried, last, hrows, htransient, hresult⟩ := hforeseen.final (.inr hdead)
    refine ⟨_, _, (hlist hrows).trans attempt_list_append, ?_⟩
    show ∀ a ∈ s.db.findByNotificationId n, _
    rw [hlist hrows, attempt_list_append]
    intro a ha
    rcases List.mem_append.mp ha with ha | ha
    · simp [attempt_list_transient htransient a ha]
    · obtain rfl := List.mem_singleton.mp ha
      cases last with
      | result providerRef =>
          have hsent := hresult.mp rfl
          exact absurd (hsent.symm.trans hdead) (by simp)
      | failure what isTransient => simp
  · show row.attemptCount ≤ (s.db.findByNotificationId n).length + 1
    rw [hlist hrows, length_attempt_list]
    exact hforeseen.counted.trans (by omega)

/-- The step lemma. -/
theorem Observed.Sound.step {s t : Observed} (h : s.Sound env n) {event : ObservedEvent}
    (hcalm : s.postedOnce env n event = true) (hstep : s.step env event = some t) :
    t.Sound env n := by
  obtain ⟨phase, outcomes, htrack, hrequests⟩ := h
  cases event with
  | service event =>
      obtain ⟨system, hsystem, hnext⟩ := Option.bind_eq_some_iff.mp hstep
      obtain rfl := Option.some.inj hnext
      obtain ⟨phase', outcomes', htrack', hforeseen⟩ := htrack.step hcalm hsystem
      refine ⟨phase', outcomes', htrack', fun g req hget hid => ?_⟩
      have hsound := hrequests g req hget hid
      cases hpc : req.pc with
      | findById => trivial
      | findByNotificationId row =>
          rw [hpc] at hsound
          exact hforeseen row hsound
      | answer detail =>
          rw [hpc] at hsound
          exact hsound
  | get id =>
      obtain rfl := Option.some.inj hstep
      refine ⟨phase, outcomes, htrack, fun g req hget hid => ?_⟩
      rcases Registry.update_eq_some.mp hget with ⟨_, heq⟩ | ⟨_, hget⟩
      · obtain rfl := Option.some.inj heq
        trivial
      · exact hrequests g req hget hid
  | query g =>
      obtain ⟨req, hget, hrest⟩ := Option.bind_eq_some_iff.mp hstep
      obtain ⟨pc, hwork, hnext⟩ := Option.bind_eq_some_iff.mp hrest
      obtain rfl := Option.some.inj hnext
      refine ⟨phase, outcomes, htrack, fun g' req' hget' hid => ?_⟩
      simp only [Registry.get_set hget] at hget'
      rcases Registry.update_eq_some.mp hget' with ⟨_, heq⟩ | ⟨_, hget'⟩
      · obtain rfl := Option.some.inj heq
        have hsound := hrequests g req hget hid
        obtain rfl : req.id = n := hid
        unfold DetailRequest.work at hwork
        split at hwork
        · obtain rfl := Option.some.inj hwork
          cases hrow : s.system.db.findById req.id with
          | none =>
              intro d hd
              exact absurd hd (by simp)
          | some row => exact htrack.foreseen hrow
        · rename_i row hpc
          obtain rfl := Option.some.inj hwork
          rw [hpc] at hsound
          rintro d ⟨⟩
          exact htrack.consistent hsound
        · exact absurd hwork (by simp)
      · exact hrequests g' req' hget' hid

/-- For a notification that is posted once, in runs without crashes and redelivery, with any
configuration and any number of detail requests whose queries fall anywhere between the steps
of the service: every answer about it is consistent. -/
theorem Observed.detail_consistent (env : Env) (n : String) (s : Observed)
    (hreach : Reaches (Observed.step env)
      (fun s event => s.postedOnce env n event = true) initial s)
    (g : Nat) (req : DetailRequest) (hget : s.requests.get g = some req) (hid : req.id = n)
    (d : Detail) (hanswer : req.answered = some d) : d.Consistent := by
  have hkeep : ∀ s event t, Observed.Sound env n s → s.postedOnce env n event = true →
      s.step env event = some t → Observed.Sound env n t :=
    fun s event t hs hcalm hstep => hs.step hcalm hstep
  have hstart : Observed.Sound env n initial :=
    ⟨none, [], System.on_track_initial env n, fun g req hget => absurd hget (by simp [initial])⟩
  obtain ⟨phase, outcomes, -, hrequests⟩ := hreach.invariant hkeep hstart
  have hsound := hrequests g req hget hid
  unfold DetailRequest.answered at hanswer
  split at hanswer
  · rename_i detail hpc
    rw [hpc] at hsound
    exact hsound d hanswer
  · exact absurd hanswer (by simp)

end Runs

/-- A first attempt fails and a second one succeeds. The row is read between `markSent` and
`incrementAttemptCount`, the attempts after the ack. -/
def readsAcross : List ObservedEvent :=
  ((System.submission System.sample "id").append [.deliver .email 0, .work 0, .work 0,
    .send 0 (.failure "timeout" true), .work 0, .work 0, .work 0, .work 0, .expire 1,
    .deliver .email 2, .work 1, .work 1, .send 1 (.result "ref"), .work 1, .work 1]).map .service ++
  [.get "id", .query 0, .service (.work 1), .service (.work 1), .query 0]

theorem Observed.detail_consistent_across : ∃ s req d,
    run (Observed.step System.shipped) initial readsAcross = some s ∧
      s.requests.get 0 = some req ∧ req.answered = some d ∧ d.notification.status = .sent ∧
        d.Consistent := by
  have hanswer : (((run (guarded (Observed.step System.shipped)
      (Observed.postedOnce System.shipped "id")) initial readsAcross).bind
        fun s => s.requests.get 0).bind fun req => req.answered.map fun d =>
          (req.id, d.notification.status)) = some ("id", .sent) := by decide +kernel
  obtain ⟨req, hreq, hmap⟩ := Option.bind_eq_some_iff.mp hanswer
  obtain ⟨s, hrun, hget⟩ := Option.bind_eq_some_iff.mp hreq
  obtain ⟨d, hd, hsent⟩ := Option.map_eq_some_iff.mp hmap
  obtain ⟨hid, hstatus⟩ := Prod.mk.inj hsent
  exact ⟨s, req, d, run_of_guarded hrun, hget, hd, hstatus,
    Observed.detail_consistent System.shipped "id" s
      (Reaches.of_guarded_run (fun _ _ h => h) hrun) 0 req hget hid d hd⟩

end NotificationDelivery
