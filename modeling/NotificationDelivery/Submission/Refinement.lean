import NotificationDelivery.Service.Rows
import NotificationDelivery.Submission.Sessions

/-!
# The service on pooled sessions

`System` executes `insertWithOutbox` on the tables, with a row of an open transaction held by the
request that inserted it. Here each such call runs on sessions of the `ConnectionPool`, and any
of its statements may throw. Forgetting the sessions makes every step of a call a step of the
service, or none: `Submissions.service` is the service that a state on the pool stands for. So
what holds of the tables in every run of the service holds on the pool.
-/

namespace NotificationDelivery

open EventMachine

/-- Where the request goes on after the call. -/
def InsertResult.post : InsertResult → PostPc
  | .returned n => .publish n
  | .threw _ => .done

/-- The statement of the request that the call is at. -/
def InsertPc.post : InsertPc → PostPc
  | .acquire | .acquireLookup | .findByIdempotencyKey => .findByIdempotencyKey
  | .releaseLookup none | .startTransaction => .startTransaction
  | .insertNotification => .insertNotification
  | .insertOutbox => .insertOutbox
  | .commit => .commit
  | .releaseLookup (some result) | .release result | .ended result => result.post
  | .rollback _ => .done

/-- A request holds its row exactly while the call has inserted it. -/
theorem InsertPc.post_inserted {pc : InsertPc}
    (h : pc.post = .insertOutbox ∨ pc.post = .commit) : pc = .insertOutbox ∨ pc = .commit := by
  cases pc with
  | releaseLookup result =>
      rcases result with _ | _ | _ <;> simp [post, InsertResult.post] at h
  | release result | ended result => cases result <;> simp [post, InsertResult.post] at h
  | insertOutbox => exact .inl rfl
  | commit => exact .inr rfl
  | acquire | acquireLookup | findByIdempotencyKey | startTransaction | insertNotification
  | rollback => simp [post] at h

/-- The request that makes the call. -/
def InsertCall.post (call : InsertCall) : Post where
  input := call.input
  uuid := call.uuid
  pc := call.pc.post

theorem InsertCall.of_uncommitted {call : InsertCall} {n : Notification}
    (h : call.post.uncommitted = some n) : call.Inserted ∧ n = call.row := by
  unfold Post.uncommitted at h
  split at h
  · rename_i hpc
    exact ⟨InsertPc.post_inserted (.inl hpc), (Option.some.inj h).symm⟩
  · rename_i hpc
    exact ⟨InsertPc.post_inserted (.inr hpc), (Option.some.inj h).symm⟩
  · exact absurd h (by simp)

/-- The event is a step of a request. -/
def Event.ofRequest : Event → Bool
  | .request _ _ | .post _ | .abort _ => true
  | .deliver _ _ | .work _ | .send _ _ | .crash _ | .expire _ | .requeue _ => false

namespace Submissions

/-- The service without the sessions. -/
def service (u : Submissions) : System :=
  { System.initial with db := u.db, posts := u.calls.map InsertCall.post }

variable {env : Env} {u t : Submissions} {event : SubmissionEvent} {c : Nat} {call : InsertCall}
  {pc : InsertPc}

@[simp] theorem service_db (u : Submissions) : u.service.db = u.db := rfl

theorem service_get (hget : u.calls.get c = some call) :
    u.service.posts.get c = some call.post :=
  Registry.get_map hget

/-- The numbers of the calls are used up by new calls only. -/
theorem calls_set (hwell : u.WellFormed) (hstep : u.step env.collate event = some t) :
    (∃ input uuid, event = .call input uuid ∧ t.db = u.db ∧
      t.calls = u.calls.insert { input, uuid }) ∨
    ∃ c call pc handles, u.calls.get c = some call ∧ Moved env.collate u c call event t.db pc ∧
      t.calls = u.calls.set c (some { call with handles, pc }) := by
  have hnext : (∃ input uuid, event = .call input uuid) ∨ t.calls.next = u.calls.next := by
    cases step_cases hstep with
    | called input uuid => exact .inl ⟨input, uuid, rfl⟩
    | acquired | released | threw | threwApplied => exact .inr rfl
    | executed c call session next pc hget hhead hexecuted =>
        obtain ⟨-, hcalls, -⟩ := hwell.executed hget hhead hexecuted
        refine .inr ?_
        show next.calls.next = _
        rw [hcalls]
  cases (hwell.step hstep).2 with
  | called input uuid _ hdb hcalls => exact .inl ⟨input, uuid, rfl, hdb, hcalls⟩
  | moved c call pc handles _ _ hget hmoved hcalls =>
      refine .inr ⟨c, call, pc, handles, hget, hmoved, Registry.ext_of ?_ ?_⟩
      · rw [hcalls, Registry.get_set hget]
      · rcases hnext with ⟨input, uuid, rfl⟩ | hnext
        · cases hmoved
        · exact hnext

/-- The calls after one of them has moved, as the service sees them. -/
theorem service_moved {handles : List Nat} (hget : u.calls.get c = some call)
    (hcalls : t.calls = u.calls.set c (some { call with handles, pc })) :
    t.service = { u.service with
      db := t.db, posts := u.service.posts.set c (some { call.post with pc := pc.post }) } := by
  unfold service
  rw [hcalls, Registry.map_set hget]
  rfl

/-- A step that the service does not see. -/
theorem service_same {handles : List Nat} (hget : u.calls.get c = some call) (hdb : t.db = u.db)
    (hcalls : t.calls = u.calls.set c (some { call with handles, pc }))
    (hpc : pc.post = call.pc.post) : t.service = u.service := by
  rw [service_moved hget hcalls, hdb, hpc]
  show { u.service with posts := u.service.posts.set c (some call.post) } = u.service
  rw [Registry.set_self (service_get hget)]

/-- A statement of the call is the statement of the request. -/
theorem service_post {handles : List Nat} {db : Database} (hget : u.calls.get c = some call)
    (hcalls : t.calls = u.calls.set c (some { call with handles, pc })) (hdb : t.db = db)
    (hannounce : ∀ saved, call.pc.post ≠ .publish saved)
    (hwork : call.post.work env.config env.collate u.db .empty
      (u.service.locked env c call.post.row) = some (db, .empty, pc.post)) :
    u.service.step env (.post c) = some t.service := by
  have hsame : u.service.announce call.post = [] := by
    unfold System.announce
    split
    · rename_i saved hsaved
      exact absurd hsaved (hannounce saved)
    · rfl
  have hbroker : u.service.broker = .empty := rfl
  rw [service_moved hget hcalls, hdb]
  simp only [System.step, service_get hget, bind, Option.bind_some, hbroker, service_db, hwork,
    hsame]
  rfl

/-- The request ends early. -/
theorem service_abort {handles : List Nat} (hget : u.calls.get c = some call)
    (hcalls : t.calls = u.calls.set c (some { call with handles, pc })) (hdb : t.db = u.db)
    (hpc : pc.post = .done) : u.service.step env (.abort c) = some t.service := by
  rw [service_moved hget hcalls, hdb, hpc]
  simp only [System.step, service_get hget, bind, Option.bind_some]
  rfl

/-- The row of a call is held by its request as long as it is inserted. -/
theorem service_unlocked (hfree : ∀ c' other, u.calls.get c' = some other → c' ≠ c →
    other.Inserted → ¬ call.row.Collides env.collate other.row) :
    u.service.locked env c call.post.row = false := by
  rw [Bool.eq_false_iff]
  intro hlocked
  simp only [System.locked, List.any_eq_true, Bool.and_eq_true, decide_eq_true_eq,
    Option.any_eq_true, Option.bind_eq_some_iff] at hlocked
  obtain ⟨q, -, hne, row, ⟨post, hpost, hopen⟩, hcollides⟩ := hlocked
  obtain ⟨other, hother, rfl⟩ := Option.map_eq_some_iff.mp hpost
  obtain ⟨hinserted, rfl⟩ := InsertCall.of_uncommitted hopen
  exact hfree q other hother hne hinserted hcollides

/-- The step lemma: a step on the pool is at most two steps of a request. `COMMIT` that throws
after it has taken effect is a commit of the request and its end. -/
theorem service_step (hwell : u.WellFormed) (hstep : u.step env.collate event = some t) :
    ∃ events, run (System.step env) u.service events = some t.service ∧
      ∀ event ∈ events, event.ofRequest = true := by
  rcases calls_set hwell hstep with ⟨input, uuid, rfl, hdb, hcalls⟩ |
    ⟨c, call, pc, handles, hget, hmoved, hcalls⟩
  · refine ⟨[.request input uuid], ?_, by simp [Event.ofRequest]⟩
    have hservice : t.service = { u.service with
        posts := u.service.posts.insert { input, uuid, pc := .findByIdempotencyKey } } := by
      unfold service
      rw [hcalls, Registry.map_insert, hdb]
      rfl
    rw [hservice]
    rfl
  have hsilent : t.db = u.db → pc.post = call.pc.post → ∃ events,
      run (System.step env) u.service events = some t.service ∧
        ∀ event ∈ events, event.ofRequest = true := by
    intro hdb hpc
    exact ⟨[], by rw [run_nil, service_same hget hdb hcalls hpc], by simp⟩
  have hpost : ∀ db, t.db = db → (∀ saved, call.pc.post ≠ .publish saved) →
      call.post.work env.config env.collate u.db .empty
        (u.service.locked env c call.post.row) = some (db, .empty, pc.post) → ∃ events,
      run (System.step env) u.service events = some t.service ∧
        ∀ event ∈ events, event.ofRequest = true := by
    intro db hdb hannounce hwork
    refine ⟨[.post c], ?_, by simp [Event.ofRequest]⟩
    rw [run_cons, service_post hget hcalls hdb hannounce hwork]
    rfl
  have habort : t.db = u.db → pc.post = .done → ∃ events,
      run (System.step env) u.service events = some t.service ∧
        ∀ event ∈ events, event.ofRequest = true := by
    intro hdb hpc
    refine ⟨[.abort c], ?_, by simp [Event.ofRequest]⟩
    rw [run_cons, service_abort hget hcalls hdb hpc]
    rfl
  generalize hdb : t.db = db at hmoved
  cases hmoved with
  | acquired _ hpc =>
      rcases InsertPc.acquired_cases hpc with ⟨hcall, rfl⟩ | ⟨hcall, rfl⟩ <;>
        exact hsilent hdb (by rw [hcall]; rfl)
  | released _ hpc =>
      rcases InsertPc.released_cases hpc with ⟨hcall, rfl⟩ | ⟨result, hcall, rfl⟩ |
          ⟨result, hcall, rfl⟩ <;>
        exact hsilent hdb (by rw [hcall]; rfl)
  | rolledBack thrownBy hcall => exact hsilent hdb (by rw [hcall]; rfl)
  | found n hcall hfind =>
      refine hpost u.db hdb (by simp [hcall, InsertPc.post]) ?_
      simp [Post.work, InsertCall.post, hcall, InsertPc.post, InsertResult.post, hfind]
  | missed hcall hfind =>
      refine hpost u.db hdb (by simp [hcall, InsertPc.post]) ?_
      simp [Post.work, InsertCall.post, hcall, InsertPc.post, hfind]
  | started hcall =>
      refine hpost u.db hdb (by simp [hcall, InsertPc.post]) ?_
      simp [Post.work, InsertCall.post, hcall, InsertPc.post]
  | duplicate n hcall hn hcollides =>
      refine hpost u.db hdb (by simp [hcall, InsertPc.post]) ?_
      have hexists : ∃ n ∈ u.db.notifications, call.post.row.Collides env.collate n :=
        ⟨n, hn, hcollides⟩
      unfold Post.work
      simp only [InsertCall.post, hcall, InsertPc.post]
      exact if_pos hexists
  | inserted hcall hfree hapart =>
      refine hpost u.db hdb (by simp [hcall, InsertPc.post]) ?_
      have hnone : ¬ ∃ n ∈ u.db.notifications, call.post.row.Collides env.collate n :=
        fun ⟨n, hn, hcollides⟩ => hfree n hn hcollides
      rw [service_unlocked hapart]
      unfold Post.work
      simp only [InsertCall.post, hcall, InsertPc.post]
      exact (if_neg hnone).trans (if_neg (by simp))
  | outboxInserted hcall =>
      refine hpost u.db hdb (by simp [hcall, InsertPc.post]) ?_
      simp [Post.work, InsertCall.post, hcall, InsertPc.post]
  | committed hcall =>
      refine hpost (u.db.commitInsert call.row) hdb (by simp [hcall, InsertPc.post]) ?_
      simp only [Post.work, InsertCall.post, hcall, InsertPc.post, InsertResult.post]
      rfl
  | threw _ hpc =>
      rcases InsertPc.thrown_cases hpc with ⟨-, rfl⟩ | ⟨-, rfl⟩ | ⟨-, rfl⟩ | ⟨-, rfl⟩ | ⟨-, rfl⟩ <;>
        exact habort hdb rfl
  | threwApplied hcall =>
      -- the request commits, and ends before it has announced anything
      let committed : Submissions := { u with
        db := u.db.commitInsert call.row
        calls := u.calls.set c (some { call with pc := .release (.returned call.row) }) }
      have hcommit : u.service.step env (.post c) = some committed.service := by
        refine service_post hget rfl rfl (by simp [hcall, InsertPc.post]) ?_
        simp only [Post.work, InsertCall.post, hcall, InsertPc.post, InsertResult.post]
        rfl
      have hgetnext : committed.calls.get c =
          some { call with pc := .release (.returned call.row) } := by
        show (u.calls.set c _).get c = _
        rw [Registry.get_set hget, Function.update_self]
      have hend : committed.service.step env (.abort c) = some t.service := by
        have hlast : t.calls = committed.calls.set c
            (some { call with handles, pc := .rollback .commit }) :=
          hcalls.trans (Registry.set_set hget _ _).symm
        exact service_abort hgetnext hlast hdb rfl
      refine ⟨[.post c, .abort c], ?_, by simp [Event.ofRequest]⟩
      rw [run_cons, hcommit]
      show (run (System.step env) committed.service [.abort c]) = _
      rw [run_cons, hend]
      rfl

/-- Every run of concurrent `insertWithOutbox` calls on a pool, whatever their number, the size of
the pool, the order of their statements and the statements that throw, is a run of the requests of
the service with the same tables. So the tables keep what the schema declares. -/
theorem submissions_refine (env : Env) (size : Nat) (events : List SubmissionEvent)
    (u : Submissions) (hrun : run (Submissions.step env.collate) (initial size) events = some u) :
    (∃ requests, run (System.step env) System.initial requests = some u.service ∧
      ∀ event ∈ requests, event.ofRequest = true) ∧ u.db.Integral env.collate := by
  have hreach : Reaches (Submissions.step env.collate) (fun _ _ => True) (initial size) u :=
    .of_run (fun _ _ _ => trivial) hrun
  let refined (u : Submissions) : Prop := u.WellFormed ∧ ∃ requests,
    run (System.step env) System.initial requests = some u.service ∧
      ∀ event ∈ requests, event.ofRequest = true
  have hkeep : ∀ u event t, refined u → True →
      Submissions.step env.collate u event = some t → refined t := by
    intro u event t hu _ hstep
    obtain ⟨hwell, requests, hrequests, hall⟩ := hu
    obtain ⟨more, hmore, hallmore⟩ := service_step hwell hstep
    refine ⟨(hwell.step hstep).1, requests ++ more, ?_, fun event hmem => ?_⟩
    · rw [run_append, hrequests]
      exact hmore
    · exact (List.mem_append.mp hmem).elim (hall event) (hallmore event)
  have hrefined : refined u :=
    hreach.invariant hkeep ⟨well_formed_initial size, [], rfl, by simp⟩
  obtain ⟨requests, hrequests, hall⟩ := hrefined.2
  refine ⟨⟨requests, hrequests, hall⟩, ?_⟩
  have hservice : Reaches (System.step env) (fun _ _ => True) System.initial u.service :=
    .of_run (fun _ _ _ => trivial) hrequests
  exact System.integral_of_reaches hservice

/-- The lookup of one call finds nothing, its `COMMIT` throws after it has taken effect, and a
second call with the key finds the row. -/
def commitThrows : List SubmissionEvent :=
  [.call System.sample "id", .work 0, .work 0, .work 0, .work 0, .work 0, .work 0, .work 0,
    .throwApplied 0, .work 0, .work 0, .call System.sample "id'", .work 1, .work 1, .work 1,
    .work 1, .work 1]

theorem submissions_refine_commit_throws :
    ∃ u, run (Submissions.step System.shipped.collate) (initial 2) commitThrows = some u ∧
      ∃ requests, run (System.step System.shipped) System.initial requests = some u.service ∧
        ∀ event ∈ requests, event.ofRequest = true := by
  have hsome : (run (Submissions.step System.shipped.collate) (initial 2) commitThrows).isSome =
      true := by decide +kernel
  obtain ⟨u, hrun⟩ := Option.isSome_iff_exists.mp hsome
  exact ⟨u, hrun, (submissions_refine System.shipped 2 commitThrows u hrun).1⟩

end Submissions

end NotificationDelivery
