import NotificationDelivery.Library.Registry
import NotificationDelivery.Library.Runs
import NotificationDelivery.Service.Database

/-!
# Concurrent submissions on pooled sessions

Any number of calls of `insertWithOutbox` (`src/NotificationRepository.cpp`) share the tables and
the sessions of the `ConnectionPool` (`src/Database.cpp`). A transaction belongs to the session
that it was started on, and stays open when the session goes back to the pool: whoever
borrows the session next would work in it, and the next `START TRANSACTION` would commit it.
A handle is released when it goes out of scope, the latest first.
-/

namespace NotificationDelivery

/-- The rows that an open transaction has inserted. -/
structure Transaction where
  notifications : List Notification := []
  outboxEvents : List OutboxEvent := []
  deriving DecidableEq, Repr

/-- The inserted rows reach the tables. -/
def Database.apply (db : Database) (rows : Transaction) : Database :=
  { db with
    notifications := db.notifications ++ rows.notifications
    outboxEvents := db.outboxEvents ++ rows.outboxEvents }

inductive InsertStatement where
  | findByIdempotencyKey
  | startTransaction
  | insertNotification
  | insertOutbox
  | commit
  deriving DecidableEq, Repr

/-- How a call ends: it returns a notification, or a statement of it has thrown. -/
inductive InsertResult where
  | returned (n : Notification)
  | threw (statement : InsertStatement)
  deriving DecidableEq, Repr

/-- What a call does next. The argument of `releaseLookup` is missing when the lookup has found
nothing, and `rollback` is in the `catch` block. -/
inductive InsertPc where
  | acquire
  | acquireLookup
  | findByIdempotencyKey
  | releaseLookup (result : Option InsertResult)
  | startTransaction
  | insertNotification
  | insertOutbox
  | commit
  | rollback (thrownBy : InsertStatement)
  | release (result : InsertResult)
  | ended (result : InsertResult)
  deriving DecidableEq, Repr

namespace InsertPc

/-- Where a call goes on after `acquire`. -/
def acquired : InsertPc → Option InsertPc
  | .acquire => some .acquireLookup
  | .acquireLookup => some .findByIdempotencyKey
  | _ => none

/-- Where a call goes on after a handle went out of scope. -/
def released : InsertPc → Option InsertPc
  | .releaseLookup none => some .startTransaction
  | .releaseLookup (some result) => some (.release result)
  | .release result => some (.ended result)
  | _ => none

/-- Where a call goes on when its next statement throws. `startTransaction` is not in the `try`
block. -/
def thrown : InsertPc → Option InsertPc
  | .findByIdempotencyKey => some (.releaseLookup (some (.threw .findByIdempotencyKey)))
  | .startTransaction => some (.release (.threw .startTransaction))
  | .insertNotification => some (.rollback .insertNotification)
  | .insertOutbox => some (.rollback .insertOutbox)
  | .commit => some (.rollback .commit)
  | _ => none

variable {pc next : InsertPc}

theorem acquired_cases (h : pc.acquired = some next) :
    (pc = .acquire ∧ next = .acquireLookup) ∨
    (pc = .acquireLookup ∧ next = .findByIdempotencyKey) := by
  cases pc <;> simp_all [acquired]

theorem released_cases (h : pc.released = some next) :
    (pc = .releaseLookup none ∧ next = .startTransaction) ∨
      (∃ result, pc = .releaseLookup (some result) ∧ next = .release result) ∨
      ∃ result, pc = .release result ∧ next = .ended result := by
  unfold released at h
  split at h <;> simp_all

theorem thrown_cases (h : pc.thrown = some next) :
    (pc = .findByIdempotencyKey ∧ next = .releaseLookup (some (.threw .findByIdempotencyKey))) ∨
      (pc = .startTransaction ∧ next = .release (.threw .startTransaction)) ∨
      (pc = .insertNotification ∧ next = .rollback .insertNotification) ∨
      (pc = .insertOutbox ∧ next = .rollback .insertOutbox) ∨
      (pc = .commit ∧ next = .rollback .commit) := by
  cases pc <;> simp_all [thrown]

end InsertPc

/-- A call of `insertWithOutbox`. `uuid` is the id it gives to a new notification, and `handles` are
the sessions of its live handles, the latest first. -/
structure InsertCall where
  input : Notification
  uuid : String
  handles : List Nat := []
  pc : InsertPc := .acquire
  deriving DecidableEq, Repr

/-- The row that the call inserts unless its key is known. -/
def InsertCall.row (call : InsertCall) : Notification := call.input.inserted call.uuid

/-- The committed tables, the queue `available_`, the open transactions of the sessions, which are
numbered below `size`, and the calls. -/
structure Submissions where
  db : Database
  size : Nat
  available : List Nat
  transactions : Nat → Option Transaction
  calls : Registry InsertCall

inductive SubmissionEvent where
  /-- A thread calls `insertWithOutbox`. -/
  | call (input : Notification) (uuid : String)
  /-- A call executes its next statement. -/
  | work (c : Nat)
  /-- The next statement of a call throws and has no effect. -/
  | throw (c : Nat)
  /-- `COMMIT` throws although it has committed the transaction. -/
  | throwApplied (c : Nat)
  deriving DecidableEq, Repr

namespace Submissions

/-- The pool as constructed with `size` sessions, and empty tables. -/
def initial (size : Nat) : Submissions where
  db := {}
  size := size
  available := List.range size
  transactions := fun _ => none
  calls := .empty

/-- The call moves on. -/
def goto (s : Submissions) (c : Nat) (call : InsertCall) (pc : InsertPc) : Submissions :=
  { s with calls := s.calls.set c (some { call with pc }) }

def setTransaction (s : Submissions) (session : Nat) (transaction : Option Transaction) :
    Submissions :=
  { s with transactions := Function.update s.transactions session transaction }

/-- What a statement on the session reads: the committed rows and those of its own transaction. -/
def read (s : Submissions) (session : Nat) : Database :=
  (s.transactions session).elim s.db s.db.apply

/-- The open transaction of another session has inserted a row with a key of `n`. -/
def locked (collate : String → String) (s : Submissions) (session : Nat) (n : Notification) :
    Bool :=
  (List.range s.size).any fun other => other ≠ session &&
    (s.transactions other).any fun rows => rows.notifications.any fun m => n.Collides collate m

/-- Rows are inserted in the open transaction of the session; without one they are committed at
once. -/
def insert (s : Submissions) (session : Nat) (rows : Transaction) : Submissions :=
  match s.transactions session with
  | some transaction => s.setTransaction session (some {
      notifications := transaction.notifications ++ rows.notifications
      outboxEvents := transaction.outboxEvents ++ rows.outboxEvents })
  | none => { s with db := s.db.apply rows }

/-- `COMMIT`. -/
def commit (s : Submissions) (session : Nat) : Submissions :=
  { s.setTransaction session none with db := s.read session }

/-- `ConnectionPool::acquire`, which waits while no session is available. -/
def acquire (s : Submissions) (c : Nat) (call : InsertCall) (pc : InsertPc) : Option Submissions :=
  match s.available with
  | session :: available =>
      some ({ s with available }.goto c { call with handles := session :: call.handles } pc)
  | [] => none

/-- The latest handle of the call goes out of scope. -/
def release (s : Submissions) (c : Nat) (call : InsertCall) (pc : InsertPc) : Option Submissions :=
  match call.handles with
  | session :: handles =>
      some ({ s with available := s.available ++ [session] }.goto c { call with handles } pc)
  | [] => none

/-- A call executes its next statement on a session. An `INSERT` fails on a key that it sees in
another row, and waits while another open transaction has inserted one. -/
def execute (collate : String → String) (s : Submissions) (session : Nat) (call : InsertCall) :
    Option (Submissions × InsertPc) :=
  match call.pc with
  | .findByIdempotencyKey =>
      let existing := (s.read session).findByIdempotencyKey collate call.input.idempotencyKey
      some (s, .releaseLookup (existing.map .returned))
  | .startTransaction =>
      -- the statement commits what the session has left open
      some ((s.commit session).setTransaction session (some {}), .insertNotification)
  | .insertNotification =>
      if ∃ n ∈ (s.read session).notifications, call.row.Collides collate n then
        some (s, .rollback .insertNotification)
      else if s.locked collate session call.row then none
      else some (s.insert session { notifications := [call.row] }, .insertOutbox)
  | .insertOutbox => some (s.insert session { outboxEvents := [call.row.outbox] }, .commit)
  | .commit => some (s.commit session, .release (.returned call.row))
  | .rollback thrownBy => some (s.setTransaction session none, .release (.threw thrownBy))
  | _ => none

/-- A call goes on: it acquires a session, releases one or executes a statement on the session of
its latest handle. -/
def work (collate : String → String) (s : Submissions) (c : Nat) (call : InsertCall) :
    Option Submissions :=
  match call.pc.acquired, call.pc.released with
  | some pc, _ => s.acquire c call pc
  | none, some pc => s.release c call pc
  | none, none => do
      let session ← call.handles.head?
      let (next, pc) ← s.execute collate session call
      pure (next.goto c call pc)

/-- `COMMIT` throws after it has taken effect. -/
def throwApplied (s : Submissions) (c : Nat) (call : InsertCall) : Option Submissions :=
  match call.pc, call.handles.head? with
  | .commit, some session => some ((s.commit session).goto c call (.rollback .commit))
  | _, _ => none

/-- One step of one call. -/
def step (collate : String → String) (s : Submissions) : SubmissionEvent → Option Submissions
  | .call input uuid => some { s with calls := s.calls.insert { input, uuid } }
  | .work c => do
      let call ← s.calls.get c
      s.work collate c call
  | .throw c => do
      let call ← s.calls.get c
      let pc ← call.pc.thrown
      pure (s.goto c call pc)
  | .throwApplied c => do
      let call ← s.calls.get c
      s.throwApplied c call

/-- What a statement on a session can do. -/
inductive Executed (collate : String → String) (s : Submissions) (session : Nat)
    (call : InsertCall) : Submissions → InsertPc → Prop where
  | found (n : Notification) : call.pc = .findByIdempotencyKey →
      (s.read session).findByIdempotencyKey collate call.input.idempotencyKey = some n →
      Executed collate s session call s (.releaseLookup (some (.returned n)))
  | missed : call.pc = .findByIdempotencyKey →
      (s.read session).findByIdempotencyKey collate call.input.idempotencyKey = none →
      Executed collate s session call s (.releaseLookup none)
  | started : call.pc = .startTransaction →
      Executed collate s session call ((s.commit session).setTransaction session (some {}))
        .insertNotification
  | duplicate (n : Notification) : call.pc = .insertNotification →
      n ∈ (s.read session).notifications → call.row.Collides collate n →
      Executed collate s session call s (.rollback .insertNotification)
  | inserted : call.pc = .insertNotification →
      (∀ n ∈ (s.read session).notifications, ¬ call.row.Collides collate n) →
      s.locked collate session call.row = false →
      Executed collate s session call (s.insert session { notifications := [call.row] })
        .insertOutbox
  | outboxInserted : call.pc = .insertOutbox →
      Executed collate s session call (s.insert session { outboxEvents := [call.row.outbox] })
        .commit
  | committed : call.pc = .commit →
      Executed collate s session call (s.commit session) (.release (.returned call.row))
  | rolledBack (thrownBy : InsertStatement) : call.pc = .rollback thrownBy →
      Executed collate s session call (s.setTransaction session none) (.release (.threw thrownBy))

/-- Everything a step can do. -/
inductive Stepped (collate : String → String) (s : Submissions) :
    SubmissionEvent → Submissions → Prop where
  | called (input : Notification) (uuid : String) :
      Stepped collate s (.call input uuid) { s with calls := s.calls.insert { input, uuid } }
  | acquired (c : Nat) (call : InsertCall) (session : Nat) (available : List Nat) (pc : InsertPc) :
      s.calls.get c = some call → s.available = session :: available → call.pc.acquired = some pc →
      Stepped collate s (.work c)
        ({ s with available }.goto c { call with handles := session :: call.handles } pc)
  | released (c : Nat) (call : InsertCall) (session : Nat) (handles : List Nat) (pc : InsertPc) :
      s.calls.get c = some call → call.handles = session :: handles → call.pc.released = some pc →
      Stepped collate s (.work c)
        ({ s with available := s.available ++ [session] }.goto c { call with handles } pc)
  | executed (c : Nat) (call : InsertCall) (session : Nat) (next : Submissions) (pc : InsertPc) :
      s.calls.get c = some call → call.handles.head? = some session →
      Executed collate s session call next pc → Stepped collate s (.work c) (next.goto c call pc)
  | threw (c : Nat) (call : InsertCall) (pc : InsertPc) : s.calls.get c = some call →
      call.pc.thrown = some pc → Stepped collate s (.throw c) (s.goto c call pc)
  | threwApplied (c : Nat) (call : InsertCall) (session : Nat) :
      s.calls.get c = some call → call.handles.head? = some session → call.pc = .commit →
      Stepped collate s (.throwApplied c) ((s.commit session).goto c call (.rollback .commit))

variable {collate : String → String} {s t : Submissions} {event : SubmissionEvent}

/-- A statement that does not throw does what `Executed` says. -/
theorem execute_cases {session : Nat} {call : InsertCall} {pc : InsertPc}
    (h : s.execute collate session call = some (t, pc)) : Executed collate s session call t pc := by
  unfold execute at h
  split at h
  · rename_i hpc
    cases hfind : (s.read session).findByIdempotencyKey collate call.input.idempotencyKey with
    | none =>
        simp only [hfind, Option.map_none] at h
        cases h
        exact .missed hpc hfind
    | some n =>
        simp only [hfind, Option.map_some] at h
        cases h
        exact .found n hpc hfind
  · rename_i hpc
    cases h
    exact .started hpc
  · rename_i hpc
    split at h
    · rename_i hduplicate
      cases h
      obtain ⟨n, hn, hcollides⟩ := hduplicate
      exact .duplicate n hpc hn hcollides
    · rename_i hfree
      split at h
      · exact absurd h (by simp)
      · rename_i hlocked
        cases h
        exact .inserted hpc (fun n hn hcollides => hfree ⟨n, hn, hcollides⟩)
          (by simpa using hlocked)
  · rename_i hpc
    cases h
    exact .outboxInserted hpc
  · rename_i hpc
    cases h
    exact .committed hpc
  · rename_i thrownBy hpc
    cases h
    exact .rolledBack thrownBy hpc
  · exact absurd h (by simp)

/-- The next statement of a call is one of the steps in `Stepped`. -/
theorem work_cases {c : Nat} {call : InsertCall} (hget : s.calls.get c = some call)
    (h : s.work collate c call = some t) : Stepped collate s (.work c) t := by
  unfold work at h
  split at h
  · rename_i pc hpc
    unfold acquire at h
    split at h
    · rename_i session available havailable
      obtain rfl := Option.some.inj h
      exact .acquired c call session available pc hget havailable hpc
    · exact absurd h (by simp)
  · rename_i pc _ hpc
    unfold release at h
    split at h
    · rename_i session handles hhandles
      obtain rfl := Option.some.inj h
      exact .released c call session handles pc hget hhandles hpc
    · exact absurd h (by simp)
  · simp only [bind, Option.bind_eq_some_iff] at h
    obtain ⟨session, hhead, ⟨next, pc⟩, hexecute, h⟩ := h
    obtain rfl := Option.some.inj h
    exact .executed c call session next pc hget hhead (execute_cases hexecute)

/-- The step function does what `Stepped` says. -/
theorem step_cases (h : s.step collate event = some t) : Stepped collate s event t := by
  cases event with
  | call input uuid =>
      cases h
      exact .called input uuid
  | work c =>
      simp only [step, bind, Option.bind_eq_some_iff] at h
      obtain ⟨call, hget, h⟩ := h
      exact work_cases hget h
  | throw c =>
      simp only [step, bind, Option.bind_eq_some_iff] at h
      obtain ⟨call, hget, pc, hpc, h⟩ := h
      obtain rfl := Option.some.inj h
      exact .threw c call pc hget hpc
  | throwApplied c =>
      simp only [step, bind, Option.bind_eq_some_iff] at h
      obtain ⟨call, hget, h⟩ := h
      unfold throwApplied at h
      split at h
      · rename_i session hpc hhead
        obtain rfl := Option.some.inj h
        exact .threwApplied c call session hget hhead hpc
      · exact absurd h (by simp)

end Submissions

end NotificationDelivery
