import NotificationDelivery.Submission.InsertWithOutbox

/-!
# Sessions and their transactions

Every session is in `available_` or belongs to one handle of one call, and has the transaction
that the call has opened on it and no other. So no statement works in a transaction of somebody
else, and each step of a call is one of `Moved`, which speaks of the tables only.
-/

namespace NotificationDelivery

open EventMachine

/-- The number of live handles. -/
def InsertPc.depth : InsertPc → Nat
  | .acquire | .ended _ => 0
  | .findByIdempotencyKey | .releaseLookup _ => 2
  | .acquireLookup | .startTransaction | .insertNotification | .insertOutbox | .commit
  | .rollback _ | .release _ => 1

namespace InsertCall

/-- What the call has inserted in its open transaction. -/
def opened (call : InsertCall) : Option Transaction :=
  match call.pc with
  | .insertNotification => some {}
  | .insertOutbox => some { notifications := [call.row] }
  | .commit => some { notifications := [call.row], outboxEvents := [call.row.outbox] }
  | _ => none

/-- The row of the call is in an open transaction. -/
def Inserted (call : InsertCall) : Prop := call.pc = .insertOutbox ∨ call.pc = .commit

end InsertCall

namespace Submissions

structure WellFormed (s : Submissions) : Prop where
  nodup : s.available.Nodup
  below : ∀ x ∈ s.available, x < s.size
  handles : ∀ c call, s.calls.get c = some call → call.handles.Nodup ∧
    call.handles.length = call.pc.depth ∧ ∀ x ∈ call.handles, x < s.size ∧ x ∉ s.available
  apart : ∀ c call c' call' x, s.calls.get c = some call → s.calls.get c' = some call' →
    x ∈ call.handles → x ∈ call'.handles → c = c'
  opened : ∀ c call x, s.calls.get c = some call → x ∈ call.handles →
    (∀ statement, call.pc ≠ .rollback statement) → s.transactions x = call.opened
  own : ∀ c call x rows, s.calls.get c = some call → x ∈ call.handles →
    s.transactions x = some rows →
    ∀ n ∈ rows.notifications, n = call.row
  idle : ∀ x, (∀ c call, s.calls.get c = some call → x ∉ call.handles) → s.transactions x = none

/-- What one step of a call does to the tables, and where the call goes. -/
inductive Moved (collate : String → String) (s : Submissions) (c : Nat) (call : InsertCall) :
    SubmissionEvent → Database → InsertPc → Prop where
  | acquired (pc : InsertPc) : call.pc.acquired = some pc → Moved collate s c call (.work c) s.db pc
  | released (pc : InsertPc) : call.pc.released = some pc → Moved collate s c call (.work c) s.db pc
  | found (n : Notification) : call.pc = .findByIdempotencyKey →
      s.db.findByIdempotencyKey collate call.input.idempotencyKey = some n →
      Moved collate s c call (.work c) s.db (.releaseLookup (some (.returned n)))
  | missed : call.pc = .findByIdempotencyKey →
      s.db.findByIdempotencyKey collate call.input.idempotencyKey = none →
      Moved collate s c call (.work c) s.db (.releaseLookup none)
  | started : call.pc = .startTransaction →
      Moved collate s c call (.work c) s.db .insertNotification
  | duplicate (n : Notification) : call.pc = .insertNotification → n ∈ s.db.notifications →
      call.row.Collides collate n →
      Moved collate s c call (.work c) s.db (.rollback .insertNotification)
  | inserted : call.pc = .insertNotification →
      (∀ n ∈ s.db.notifications, ¬ call.row.Collides collate n) →
      (∀ c' other, s.calls.get c' = some other → c' ≠ c → other.Inserted →
        ¬ call.row.Collides collate other.row) →
      Moved collate s c call (.work c) s.db .insertOutbox
  | outboxInserted : call.pc = .insertOutbox → Moved collate s c call (.work c) s.db .commit
  | committed : call.pc = .commit →
      Moved collate s c call (.work c) (s.db.commitInsert call.row) (.release (.returned call.row))
  | rolledBack (thrownBy : InsertStatement) : call.pc = .rollback thrownBy →
      Moved collate s c call (.work c) s.db (.release (.threw thrownBy))
  | threw (pc : InsertPc) : call.pc.thrown = some pc → Moved collate s c call (.throw c) s.db pc
  | threwApplied : call.pc = .commit →
      Moved collate s c call (.throwApplied c) (s.db.commitInsert call.row) (.rollback .commit)

/-- A step as the tables and the calls see it. -/
inductive Effect (collate : String → String) (s : Submissions) :
    SubmissionEvent → Submissions → Prop
    where
  | called (input : Notification) (uuid : String) (t : Submissions) : t.db = s.db →
      t.calls = s.calls.insert { input, uuid } → Effect collate s (.call input uuid) t
  | moved (c : Nat) (call : InsertCall) (pc : InsertPc) (handles : List Nat)
      (event : SubmissionEvent)
      (t : Submissions) : s.calls.get c = some call → Moved collate s c call event t.db pc →
      t.calls.get = Function.update s.calls.get c (some { call with handles, pc }) →
      Effect collate s event t

variable {collate : String → String} {s t : Submissions} {event : SubmissionEvent} {c session : Nat}
  {call : InsertCall} {pc : InsertPc}

theorem well_formed_initial (size : Nat) : (initial size).WellFormed where
  nodup := List.nodup_range
  below := by simp [initial]
  handles := by simp [initial]
  apart := by simp [initial]
  opened := by simp [initial]
  own := by simp [initial]
  idle := by simp [initial]

namespace WellFormed

/-- A statement of a call changes the transactions of its own sessions only. -/
theorem statement (hwell : s.WellFormed) (hget : s.calls.get c = some call) (db : Database)
    {transactions : Nat → Option Transaction} (hdepth : pc.depth = call.pc.depth)
    (hframe : ∀ x, x ∉ call.handles → transactions x = s.transactions x)
    (hopen : (∀ statement, pc ≠ .rollback statement) →
      ∀ x ∈ call.handles, transactions x = { call with pc }.opened)
    (hown : ∀ x ∈ call.handles, ∀ rows, transactions x = some rows →
      ∀ n ∈ rows.notifications, n = call.row) :
    ({ s with db, transactions }.goto c call pc).WellFormed := by
  have hcalls : ({ s with db, transactions }.goto c call pc).calls.get =
      Function.update s.calls.get c (some { call with pc }) := Registry.get_set hget _
  -- The handles of all calls are as before.
  have hold : ∀ c' call', ({ s with db, transactions }.goto c call pc).calls.get c' = some call' →
      ∃ old, s.calls.get c' = some old ∧ call'.handles = old.handles ∧
        ((c' = c ∧ call' = { call with pc }) ∨ (c' ≠ c ∧ call' = old)) := by
    intro c' call' hget'
    rw [hcalls] at hget'
    rcases Registry.update_eq_some.mp hget' with ⟨rfl, heq⟩ | ⟨hne, hget'⟩
    · obtain rfl := Option.some.inj heq
      exact ⟨call, hget, rfl, .inl ⟨rfl, rfl⟩⟩
    · exact ⟨call', hget', rfl, .inr ⟨hne, rfl⟩⟩
  refine ⟨hwell.nodup, hwell.below, fun c' call' hget' => ?_,
    fun c₁ call₁ c₂ call₂ x h₁ h₂ hx₁ hx₂ => ?_,
    fun c' call' x hget' hx hpc => ?_, fun c' call' x rows hget' hx hrows => ?_, fun x hfree => ?_⟩
  · obtain ⟨old, hgetold, hhandles, ⟨rfl, rfl⟩ | ⟨_, rfl⟩⟩ := hold c' call' hget'
    · obtain ⟨hnodup, hlength, hheld⟩ := hwell.handles c' call hget
      exact ⟨hnodup, hlength.trans hdepth.symm, hheld⟩
    · exact hwell.handles c' call' hgetold
  · obtain ⟨old₁, hget₁, hhandles₁, _⟩ := hold c₁ call₁ h₁
    obtain ⟨old₂, hget₂, hhandles₂, _⟩ := hold c₂ call₂ h₂
    exact hwell.apart c₁ old₁ c₂ old₂ x hget₁ hget₂ (hhandles₁ ▸ hx₁) (hhandles₂ ▸ hx₂)
  · obtain ⟨old, hgetold, hhandles, ⟨rfl, rfl⟩ | ⟨hne, rfl⟩⟩ := hold c' call' hget'
    · exact hopen hpc x hx
    · have hother : x ∉ call.handles :=
        fun h => hne (hwell.apart c' call' c call x hgetold hget hx h)
      exact (hframe x hother).trans (hwell.opened c' call' x hgetold hx hpc)
  · obtain ⟨old, hgetold, hhandles, ⟨rfl, rfl⟩ | ⟨hne, rfl⟩⟩ := hold c' call' hget'
    · exact hown x hx rows hrows
    · have hother : x ∉ call.handles :=
        fun h => hne (hwell.apart c' call' c call x hgetold hget hx h)
      exact hwell.own c' call' x rows hgetold hx ((hframe x hother).symm.trans hrows)
  · have hfree' : ∀ c' old, s.calls.get c' = some old → x ∉ old.handles := by
      intro c' old hgetold
      by_cases hc : c' = c
      · subst hc
        obtain rfl := Option.some.inj (hget.symm.trans hgetold)
        exact hfree c' { call with pc } (by rw [hcalls, Function.update_self])
      · exact hfree c' old (by rw [hcalls, Function.update_of_ne hc, hgetold])
    exact (hframe x (hfree' c call hget)).trans (hwell.idle x hfree')

/-- A statement that leaves the transactions alone. -/
theorem keep (hwell : s.WellFormed) (hget : s.calls.get c = some call)
    (hdepth : pc.depth = call.pc.depth)
    (hopen : (∀ statement, pc ≠ .rollback statement) →
      (∀ statement, call.pc ≠ .rollback statement) ∧ call.opened = { call with pc }.opened) :
    (s.goto c call pc).WellFormed :=
  hwell.statement hget s.db hdepth (fun _ _ => rfl)
    (fun hpc x hx => (hwell.opened c call x hget hx (hopen hpc).1).trans (hopen hpc).2)
    fun x hx rows hrows => hwell.own c call x rows hget hx hrows

/-- A new call has no handle. -/
theorem called (hwell : s.WellFormed) (input : Notification) (uuid : String) :
    ({ s with calls := s.calls.insert { input, uuid } } : Submissions).WellFormed := by
  have hold : ∀ c' call', (s.calls.insert { input, uuid }).get c' = some call' →
      s.calls.get c' = some call' ∨ call' = { input, uuid } := by
    intro c' call' hget'
    rcases Registry.update_eq_some.mp hget' with ⟨_, heq⟩ | ⟨_, hget'⟩
    · exact .inr (Option.some.inj heq).symm
    · exact .inl hget'
  refine ⟨hwell.nodup, hwell.below, fun c' call' hget' => ?_,
    fun c₁ call₁ c₂ call₂ x h₁ h₂ hx₁ hx₂ => ?_,
    fun c' call' x hget' hx hpc => ?_, fun c' call' x rows hget' hx hrows => ?_, fun x hfree => ?_⟩
  · rcases hold c' call' hget' with hget' | rfl
    · exact hwell.handles c' call' hget'
    · exact ⟨List.nodup_nil, rfl, by simp⟩
  · rcases hold c₁ call₁ h₁ with h₁ | rfl
    · rcases hold c₂ call₂ h₂ with h₂ | rfl
      · exact hwell.apart c₁ call₁ c₂ call₂ x h₁ h₂ hx₁ hx₂
      · exact absurd hx₂ (by simp)
    · exact absurd hx₁ (by simp)
  · rcases hold c' call' hget' with hget' | rfl
    · exact hwell.opened c' call' x hget' hx hpc
    · exact absurd hx (by simp)
  · rcases hold c' call' hget' with hget' | rfl
    · exact hwell.own c' call' x rows hget' hx hrows
    · exact absurd hx (by simp)
  · refine hwell.idle x fun c' call' hget' => hfree c' call' ?_
    have hne : c' ≠ s.calls.next := Nat.ne_of_lt (Registry.lt_next hget')
    exact (Function.update_of_ne hne _ _).trans hget'

/-- The sessions of a call and of the pool are all different. -/
theorem nodup_append (hwell : s.WellFormed) (hget : s.calls.get c = some call) :
    (call.handles ++ s.available).Nodup := by
  obtain ⟨hnodup, _, hheld⟩ := hwell.handles c call hget
  exact List.nodup_append.mpr ⟨hnodup, hwell.nodup, fun x hx y hy heq => (hheld x hx).2 (heq ▸ hy)⟩

/-- A call that has no transaction open shifts sessions between its handles and the pool. -/
theorem handover (hwell : s.WellFormed) (hget : s.calls.get c = some call)
    {available handles : List Nat}
    (hperm : (handles ++ available).Perm (call.handles ++ s.available))
    (hdepth : handles.length = pc.depth) (hpc : ∀ statement, call.pc ≠ .rollback statement)
    (hclosed : call.opened = none) (hopen : { call with handles, pc }.opened = none) :
    ({ s with available }.goto c { call with handles } pc).WellFormed := by
  have hcalls : ({ s with available }.goto c { call with handles } pc).calls.get =
      Function.update s.calls.get c (some { call with handles, pc }) := Registry.get_set hget _
  obtain ⟨_, _, hheld⟩ := hwell.handles c call hget
  have hnodup := List.nodup_append.mp (hperm.nodup_iff.mpr (hwell.nodup_append hget))
  have hmem : ∀ x, x ∈ handles ∨ x ∈ available ↔ x ∈ call.handles ∨ x ∈ s.available := by
    intro x
    simpa only [List.mem_append] using hperm.mem_iff (a := x)
  have hbelow : ∀ x, x ∈ handles ∨ x ∈ available → x < s.size := by
    intro x hx
    rcases (hmem x).mp hx with hx | hx
    · exact (hheld x hx).1
    · exact hwell.below x hx
  -- No session that changes hands has a transaction.
  have hnone : ∀ x, x ∈ handles ∨ x ∈ available → s.transactions x = none := by
    intro x hx
    rcases (hmem x).mp hx with hx | hx
    · exact (hwell.opened c call x hget hx hpc).trans hclosed
    · exact hwell.idle x fun c' call' hget' hx' => ((hwell.handles c' call' hget').2.2 x hx').2 hx
  have hother : ∀ c' call' x, c' ≠ c → s.calls.get c' = some call' → x ∈ call'.handles →
      ¬ (x ∈ handles ∨ x ∈ available) := by
    intro c' call' x hne hget' hx' hx
    rcases (hmem x).mp hx with hx | hx
    · exact hne (hwell.apart c' call' c call x hget' hget hx' hx)
    · exact ((hwell.handles c' call' hget').2.2 x hx').2 hx
  refine ⟨hnodup.2.1, fun x hx => hbelow x (.inr hx), fun c' call' hget' => ?_,
    fun c₁ call₁ c₂ call₂ x h₁ h₂ hx₁ hx₂ => ?_, fun c' call' x hget' hx hpc' => ?_,
    fun c' call' x rows hget' hx hrows => ?_, fun x hfree => ?_⟩
  · rw [hcalls] at hget'
    rcases Registry.update_eq_some.mp hget' with ⟨rfl, heq⟩ | ⟨hne, hget'⟩
    · obtain rfl := Option.some.inj heq
      exact ⟨hnodup.1, hdepth,
        fun x hx => ⟨hbelow x (.inl hx), fun hx' => hnodup.2.2 x hx x hx' rfl⟩⟩
    · obtain ⟨hn, hlength, hheld'⟩ := hwell.handles c' call' hget'
      exact ⟨hn, hlength, fun x hx =>
        ⟨(hheld' x hx).1, fun hx' => hother c' call' x hne hget' hx (.inr hx')⟩⟩
  · rw [hcalls] at h₁ h₂
    rcases Registry.update_eq_some.mp h₁ with ⟨rfl, heq₁⟩ | ⟨hne₁, hold₁⟩ <;>
      rcases Registry.update_eq_some.mp h₂ with ⟨rfl, heq₂⟩ | ⟨hne₂, hold₂⟩
    · rfl
    · obtain rfl := Option.some.inj heq₁
      exact absurd (.inl hx₁) (hother c₂ call₂ x hne₂ hold₂ hx₂)
    · obtain rfl := Option.some.inj heq₂
      exact absurd (.inl hx₂) (hother c₁ call₁ x hne₁ hold₁ hx₁)
    · exact hwell.apart c₁ call₁ c₂ call₂ x hold₁ hold₂ hx₁ hx₂
  · rw [hcalls] at hget'
    rcases Registry.update_eq_some.mp hget' with ⟨rfl, heq⟩ | ⟨hne, hget'⟩
    · obtain rfl := Option.some.inj heq
      exact (hnone x (.inl hx)).trans hopen.symm
    · exact hwell.opened c' call' x hget' hx hpc'
  · rw [hcalls] at hget'
    rcases Registry.update_eq_some.mp hget' with ⟨rfl, heq⟩ | ⟨hne, hget'⟩
    · obtain rfl := Option.some.inj heq
      exact absurd ((hnone x (.inl hx)).symm.trans hrows) (by simp)
    · exact hwell.own c' call' x rows hget' hx hrows
  · by_cases hx : x ∈ handles ∨ x ∈ available
    · exact hnone x hx
    · refine hwell.idle x fun c' call' hget' hx' => ?_
      by_cases hc : c' = c
      · subst hc
        obtain rfl := Option.some.inj (hget.symm.trans hget')
        exact hx ((hmem x).mpr (.inl hx'))
      · exact hfree c' call' (by rw [hcalls, Function.update_of_ne hc, hget']) hx'

/-- While the call works on one session, that session has its transaction. -/
theorem transaction_of_head (hwell : s.WellFormed) (hget : s.calls.get c = some call)
    (hhead : call.handles.head? = some session) (hpc : ∀ statement, call.pc ≠ .rollback statement) :
    s.transactions session = call.opened :=
  hwell.opened c call session hget (List.mem_of_mem_head? hhead) hpc

/-- Whose row is in an open transaction is seen by the `INSERT`s on other sessions. -/
theorem not_collides_of_unlocked (hwell : s.WellFormed) (hget : s.calls.get c = some call)
    (hhead : call.handles.head? = some session)
    (hlocked : s.locked collate session call.row = false) {c' : Nat} {other : InsertCall}
    (hget' : s.calls.get c' = some other) (hne : c' ≠ c) (hinserted : other.Inserted) :
    ¬ call.row.Collides collate other.row := by
  intro hcollides
  -- The other call holds one session, and its transaction there has inserted the row.
  obtain ⟨hnodup, hlength, hheld⟩ := hwell.handles c' other hget'
  obtain ⟨x, hx⟩ : ∃ x, other.handles = [x] := by
    refine List.length_eq_one_iff.mp (hlength.trans ?_)
    rcases hinserted with hpc | hpc <;> simp [hpc, InsertPc.depth]
  have hmem : x ∈ other.handles := by simp [hx]
  have hdifferent : x ≠ session := by
    rintro rfl
    exact hne (hwell.apart c' other c call x hget' hget hmem (List.mem_of_mem_head? hhead))
  obtain ⟨rows, hrows, hrow⟩ : ∃ rows, other.opened = some rows ∧
      other.row ∈ rows.notifications := by
    rcases hinserted with hpc | hpc <;> simp [InsertCall.opened, hpc]
  have hopen : s.transactions x = some rows :=
    (hwell.opened c' other x hget' hmem (by rcases hinserted with hpc | hpc <;> simp [hpc])).trans
      hrows
  have hsees : s.locked collate session call.row = true :=
    List.any_eq_true.mpr ⟨x, List.mem_range.mpr (hheld x hmem).1, by
      simp only [Bool.and_eq_true, decide_eq_true_eq, hopen, Option.any_some, List.any_eq_true]
      exact ⟨hdifferent, other.row, hrow, hcollides⟩⟩
  exact absurd hsees (by simp [hlocked])

/-- What a statement reads is committed, while the call has inserted nothing itself. -/
theorem read_committed (hwell : s.WellFormed) (hget : s.calls.get c = some call)
    (hhead : call.handles.head? = some session) (hpc : ∀ statement, call.pc ≠ .rollback statement)
    (hnothing : ∀ rows ∈ call.opened, rows = {}) : s.read session = s.db := by
  have hopen := hwell.transaction_of_head hget hhead hpc
  unfold read
  cases hrows : s.transactions session with
  | none => rfl
  | some rows =>
      obtain rfl := hnothing rows (by rw [← hopen, hrows, Option.mem_some])
      simp [Database.apply]

/-- A call with one handle works on its session. -/
theorem handles_of_head (hwell : s.WellFormed) (hget : s.calls.get c = some call)
    (hhead : call.handles.head? = some session) (hdepth : call.pc.depth = 1) :
    call.handles = [session] := by
  obtain ⟨_, hlength, _⟩ := hwell.handles c call hget
  obtain ⟨x, hx⟩ := List.length_eq_one_iff.mp (hlength.trans hdepth)
  rw [hx] at hhead ⊢
  obtain rfl := Option.some.inj hhead
  rfl

/-- At its commit a call sees the rows that it is about to commit. -/
theorem read_inserted (hwell : s.WellFormed) (hget : s.calls.get c = some call)
    (hhead : call.handles.head? = some session) (hpc : call.pc = .commit) :
    s.read session = s.db.commitInsert call.row := by
  have hopen := hwell.transaction_of_head hget hhead (by simp [hpc])
  simp only [InsertCall.opened, hpc] at hopen
  simp only [read, hopen, Option.elim_some]
  rfl

/-- A statement on one session sets the transaction of that session. -/
theorem statement_on (hwell : s.WellFormed) (pc : InsertPc) (hget : s.calls.get c = some call)
    (hhead : call.handles.head? = some session) (hdepth : call.pc.depth = 1) (hnext : pc.depth = 1)
    (db : Database) (value : Option Transaction)
    (hopen : (∀ statement, pc ≠ .rollback statement) → value = { call with pc }.opened)
    (hown : ∀ rows ∈ value, ∀ n ∈ rows.notifications, n = call.row) :
    ({ s with db, transactions := Function.update s.transactions session value }.goto
      c call pc).WellFormed := by
  have hhandles := hwell.handles_of_head hget hhead hdepth
  refine hwell.statement hget db (hnext.trans hdepth.symm) (fun x hx => ?_) (fun hpc x hx => ?_)
    fun x hx rows hrows => ?_
  · rw [hhandles, List.mem_singleton] at hx
    exact Function.update_of_ne hx _ _
  · rw [hhandles, List.mem_singleton] at hx
    rw [hx, Function.update_self]
    exact hopen hpc
  · rw [hhandles, List.mem_singleton] at hx
    rw [hx, Function.update_self] at hrows
    exact hown rows hrows

/-- In an open transaction nothing reaches the tables. -/
theorem insert_open {rows transaction : Transaction}
    (hopen : s.transactions session = some transaction) :
    s.insert session rows = s.setTransaction session (some {
      notifications := transaction.notifications ++ rows.notifications
      outboxEvents := transaction.outboxEvents ++ rows.outboxEvents }) := by
  simp only [insert, hopen]

/-- A statement keeps the sessions in order and has one of the effects of `Moved`. -/
theorem executed {next : Submissions} (hwell : s.WellFormed) (hget : s.calls.get c = some call)
    (hhead : call.handles.head? = some session) (h : Executed collate s session call next pc) :
    (next.goto c call pc).WellFormed ∧ next.calls = s.calls ∧
      Moved collate s c call (.work c) next.db pc := by
  have hon := fun hdepth hnext => hwell.statement_on pc hget hhead hdepth hnext
  cases h with
  | found n hpc hfind =>
      rw [hwell.read_committed hget hhead (by simp [hpc]) (by simp [InsertCall.opened, hpc])]
        at hfind
      exact ⟨hwell.keep hget (by simp [hpc, InsertPc.depth])
        fun _ => ⟨by simp [hpc], by simp [InsertCall.opened, hpc]⟩, rfl, .found n hpc hfind⟩
  | missed hpc hfind =>
      rw [hwell.read_committed hget hhead (by simp [hpc]) (by simp [InsertCall.opened, hpc])]
        at hfind
      exact ⟨hwell.keep hget (by simp [hpc, InsertPc.depth])
        fun _ => ⟨by simp [hpc], by simp [InsertCall.opened, hpc]⟩, rfl, .missed hpc hfind⟩
  | started hpc =>
      have hread : s.read session = s.db :=
        hwell.read_committed hget hhead (by simp [hpc]) (by simp [InsertCall.opened, hpc])
      have hnext := hon (by simp [hpc, InsertPc.depth]) rfl (s.read session) (some {})
        (fun _ => rfl) (by simp)
      refine ⟨?_, rfl, ?_⟩
      · simpa only [commit, setTransaction, Function.update_idem] using hnext
      · show Moved collate s c call (.work c) (s.read session) _
        rw [hread]
        exact .started hpc
  | duplicate n hpc hn hcollides =>
      have hread : s.read session = s.db :=
        hwell.read_committed hget hhead (by simp [hpc]) (by simp [InsertCall.opened, hpc])
      rw [hread] at hn
      exact ⟨hwell.keep hget (by simp [hpc, InsertPc.depth]) fun h => absurd rfl (h _), rfl,
        .duplicate n hpc hn hcollides⟩
  | inserted hpc hfree hlocked =>
      have hread : s.read session = s.db :=
        hwell.read_committed hget hhead (by simp [hpc]) (by simp [InsertCall.opened, hpc])
      have hopen : s.transactions session = some {} :=
        (hwell.transaction_of_head hget hhead (by simp [hpc])).trans
          (by simp [InsertCall.opened, hpc])
      rw [hread] at hfree
      rw [insert_open hopen]
      exact ⟨hon (by simp [hpc, InsertPc.depth]) rfl s.db _ (fun _ => rfl) (by simp), rfl,
        .inserted hpc hfree
          fun c' other hget' hne => hwell.not_collides_of_unlocked hget hhead hlocked hget' hne⟩
  | outboxInserted hpc =>
      have hopen : s.transactions session = some { notifications := [call.row] } :=
        (hwell.transaction_of_head hget hhead (by simp [hpc])).trans
          (by simp [InsertCall.opened, hpc])
      rw [insert_open hopen]
      exact ⟨hon (by simp [hpc, InsertPc.depth]) rfl s.db _ (fun _ => rfl) (by simp), rfl,
        .outboxInserted hpc⟩
  | committed hpc =>
      refine ⟨hon (by simp [hpc, InsertPc.depth]) rfl _ none (fun _ => rfl) (by simp), rfl, ?_⟩
      show Moved collate s c call (.work c) (s.read session) _
      rw [hwell.read_inserted hget hhead hpc]
      exact .committed hpc
  | rolledBack thrownBy hpc =>
      exact ⟨hon (by simp [hpc, InsertPc.depth]) rfl s.db none (fun _ => rfl) (by simp), rfl,
        .rolledBack thrownBy hpc⟩

/-- `acquire` takes the first available session. -/
theorem acquired (hwell : s.WellFormed) (hget : s.calls.get c = some call) {available : List Nat}
    (havailable : s.available = session :: available) (hpc : call.pc.acquired = some pc) :
    ({ s with available }.goto c { call with handles := session :: call.handles }
      pc).WellFormed := by
  obtain ⟨_, hlength, _⟩ := hwell.handles c call hget
  have hperm : ((session :: call.handles) ++ available).Perm (call.handles ++ s.available) := by
    rw [havailable]
    exact List.perm_middle.symm
  rcases InsertPc.acquired_cases hpc with ⟨hcall, rfl⟩ | ⟨hcall, rfl⟩ <;>
    exact hwell.handover hget hperm (by simp [hlength, hcall, InsertPc.depth]) (by simp [hcall])
      (by simp [InsertCall.opened, hcall]) rfl

/-- The latest handle puts its session back. -/
theorem released (hwell : s.WellFormed) (hget : s.calls.get c = some call) {handles : List Nat}
    (hhandles : call.handles = session :: handles) (hpc : call.pc.released = some pc) :
    ({ s with available := s.available ++ [session] }.goto c { call with handles }
      pc).WellFormed := by
  obtain ⟨_, hlength, _⟩ := hwell.handles c call hget
  have hperm : (handles ++ (s.available ++ [session])).Perm (call.handles ++ s.available) := by
    rw [hhandles, ← List.append_assoc, List.cons_append]
    exact List.perm_append_singleton session (handles ++ s.available)
  have hdepth : handles.length + 1 = call.pc.depth := by rw [← hlength, hhandles, List.length_cons]
  rcases InsertPc.released_cases hpc with ⟨hcall, rfl⟩ | ⟨result, hcall, rfl⟩ |
      ⟨result, hcall, rfl⟩ <;>
    (rw [hcall] at hdepth
     exact hwell.handover hget hperm (Nat.succ.inj hdepth) (by simp [hcall])
       (by simp [InsertCall.opened, hcall]) rfl)

/-- A statement that throws leaves the sessions alone. -/
theorem threw (hwell : s.WellFormed) (hget : s.calls.get c = some call)
    (hpc : call.pc.thrown = some pc) : (s.goto c call pc).WellFormed := by
  -- Outside the `try` block no transaction is open; its handler rolls back.
  rcases InsertPc.thrown_cases hpc with ⟨hcall, rfl⟩ | ⟨hcall, rfl⟩ | ⟨hcall, rfl⟩ | ⟨hcall, rfl⟩ |
    ⟨hcall, rfl⟩
  · exact hwell.keep hget (by simp [hcall, InsertPc.depth])
      fun _ => ⟨by simp [hcall], by simp [InsertCall.opened, hcall]⟩
  · exact hwell.keep hget (by simp [hcall, InsertPc.depth])
      fun _ => ⟨by simp [hcall], by simp [InsertCall.opened, hcall]⟩
  · exact hwell.keep hget (by simp [hcall, InsertPc.depth]) fun h => absurd rfl (h _)
  · exact hwell.keep hget (by simp [hcall, InsertPc.depth]) fun h => absurd rfl (h _)
  · exact hwell.keep hget (by simp [hcall, InsertPc.depth]) fun h => absurd rfl (h _)

/-- The step lemma. -/
theorem step (hwell : s.WellFormed) (hstep : s.step collate event = some t) :
    t.WellFormed ∧ Effect collate s event t := by
  cases step_cases hstep with
  | called input uuid => exact ⟨hwell.called input uuid, .called input uuid _ rfl rfl⟩
  | acquired c call session available pc hget havailable hpc =>
      exact ⟨hwell.acquired hget havailable hpc, .moved c call pc (session :: call.handles) _ _ hget
        (.acquired pc hpc) (Registry.get_set hget _)⟩
  | released c call session handles pc hget hhandles hpc =>
      exact ⟨hwell.released hget hhandles hpc, .moved c call pc handles _ _ hget
        (.released pc hpc) (Registry.get_set hget _)⟩
  | executed c call session next pc hget hhead hexecuted =>
      obtain ⟨hnext, hcalls, hmoved⟩ := hwell.executed hget hhead hexecuted
      refine ⟨hnext, .moved c call pc call.handles _ _ hget hmoved ?_⟩
      show (next.calls.set c _).get = _
      rw [hcalls]
      exact Registry.get_set hget _
  | threw c call pc hget hpc =>
      exact ⟨hwell.threw hget hpc, .moved c call pc call.handles _ _ hget (.threw pc hpc)
        (Registry.get_set hget _)⟩
  | threwApplied c call session hget hhead hpc =>
      refine ⟨hwell.statement_on _ hget hhead (by simp [hpc, InsertPc.depth]) rfl _ none
        (fun h => absurd rfl (h _)) (by simp),
        .moved c call _ call.handles _ _ hget ?_ (Registry.get_set hget _)⟩
      show Moved collate s c call (.throwApplied c) (s.read session) _
      rw [hwell.read_inserted hget hhead hpc]
      exact .threwApplied hpc

end WellFormed

/-- Every state of every run is well formed. -/
theorem reachable_well_formed {allowed : Submissions → SubmissionEvent → Prop} {size : Nat}
    (hreach : Reaches (step collate) allowed (initial size) s) : s.WellFormed :=
  hreach.invariant (fun _ _ _ hwell _ hstep => (hwell.step hstep).1) (well_formed_initial size)

/-- The invariant rule: only the effects on the tables and the calls have to be looked at. -/
theorem effect_invariant {allowed : Submissions → SubmissionEvent → Prop}
    {property : Submissions → Prop} {start : Submissions}
    (hreach : Reaches (step collate) allowed start s) (hwell : start.WellFormed)
    (hstart : property start)
    (hkeep : ∀ state event next, property state → allowed state event →
      Effect collate state event next → property next) : property s := by
  have hboth : ∀ state event next, state.WellFormed ∧ property state → allowed state event →
      step collate state event = some next → next.WellFormed ∧ property next := by
    intro state event next hinv hallowed hstep
    obtain ⟨hnext, heffect⟩ := hinv.1.step hstep
    exact ⟨hnext, hkeep state event next hinv.2 hallowed heffect⟩
  exact (hreach.invariant hboth ⟨hwell, hstart⟩).2

end Submissions

end NotificationDelivery
