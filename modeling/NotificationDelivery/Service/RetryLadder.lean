import NotificationDelivery.Service.Enabled
import NotificationDelivery.Service.Placement

/-!
# The rungs that retries are published to

`onMessage` bounds the attempts by `maxRetries`, `declareAll` declares one rung for each entry
of `retryDelaysMs`, and nothing compares the two. `retry_rung_declared_iff` says for which
configurations every retry finds its rung. For the others a run climbs past the last rung,
where the broker drops the retry.
-/

namespace NotificationDelivery

open EventMachine

namespace System

variable {s t : System} {id : String} {c : Channel} {k : Int}

/-- A message of attempt `k` waits on the main queue, and its notification is to be delivered. -/
def Queued (id : String) (c : Channel) (k : Int) (s : System) : Prop :=
  ∃ i m body row, s.broker.get i = some m ∧ m.place = .queue (Topology.mainQueue c) ∧
    MessageBody.fromJson m.envelope.body = .ok body ∧ body.notificationId = id ∧
    body.attemptNumber = k ∧ s.db.findById id = some row ∧ row.status.skipped = false

/-- A delivery of attempt `k` is about to publish a retry. -/
def PublishesRetry (id : String) (c : Channel) (k : Int) (s : System) : Prop :=
  ∃ h w row, s.handlers.get h = some w ∧ w.pc = .publishRetry ∧ w.notificationId = id ∧
    w.channel = c ∧ w.message.attemptNumber = k ∧ s.db.findById id = some row ∧
    row.status.skipped = false

/-- Any sequence of steps. -/
abbrev Continues (env : Env) : System → System → Prop :=
  Reaches (System.step env) fun _ _ => True

/-- A delivery that has found its notification can fail transiently and come to its retry. -/
theorem exists_retry (env : Env) {h : Nat} {w : Handler} {row : Notification}
    (hget : s.handlers.get h = some w)
    (hpc : w.pc = .findById) (hrow : s.db.findById w.notificationId = some row)
    (hstatus : row.status.skipped = false) (hk : w.message.attemptNumber ≤ env.config.maxRetries) :
    ∃ t, Continues env s t ∧
      t.PublishesRetry w.notificationId w.channel w.message.attemptNumber := by
  have hretries : w.retries env.config true = true := by
    simp [Received.retries, Received.exhausted, hk]
  have hfound : w.work env.config s.db s.broker h =
      some (s.db, s.broker, some (.markProcessing row)) := by
    simp [Handler.work, hpc, hrow, hstatus]
  obtain ⟨s₁, hstep₁, hget₁, hdb₁, -⟩ := exists_work env hget hfound
  obtain ⟨s₂, hstep₂, hget₂, hdb₂, -⟩ := exists_work env hget₁ rfl
  obtain ⟨s₃, hstep₃, hget₃, hdb₃, -⟩ := exists_send env hget₂ rfl (.failure "timeout" true)
  have hfailed : (w.goto (.incrementFailure "timeout" true)).work env.config s₃.db s₃.broker h =
      some (s₃.db.incrementAttemptCount w.notificationId, s₃.broker,
        some (.recordRetry "timeout")) := by
    simp [Handler.work, hretries]
  obtain ⟨s₄, hstep₄, hget₄, hdb₄, -⟩ := exists_work env hget₃ hfailed
  obtain ⟨s₅, hstep₅, hget₅, hdb₅, -⟩ := exists_work env hget₄ rfl
  have hrow₅ : s₅.db.findById w.notificationId =
      some { row with status := .processing, attemptCount := row.attemptCount + 1 } := by
    rw [hdb₅, hdb₄, hdb₃, hdb₂, hdb₁]
    simp [Database.markProcessing, hrow]
  refine ⟨s₅, ?_, h, _, _, hget₅, rfl, rfl, rfl, rfl, hrow₅, rfl⟩
  exact ((((Reaches.single trivial hstep₁).tail trivial hstep₂).tail trivial hstep₃).tail trivial
    hstep₄).tail trivial hstep₅

/-- A waiting attempt below the limit can fail and come to its retry. -/
theorem Queued.publishesRetry (env : Env) (hqueued : s.Queued id c k)
    (hk : k ≤ env.config.maxRetries) :
    ∃ t, Continues env s t ∧ t.PublishesRetry id c k := by
  obtain ⟨i, m, body, row, hget, hplace, hbody, rfl, rfl, hrow, hstatus⟩ := hqueued
  obtain ⟨s₁, w, hstep, hget₁, rfl, rfl, hpc, hdb⟩ := exists_deliver env hget hplace hbody
  have hrow₁ : s₁.db.findById w.notificationId = some row := hdb ▸ hrow
  obtain ⟨t, hreach, hretry⟩ := exists_retry env hget₁ hpc hrow₁ hstatus hk
  exact ⟨t, (Reaches.single trivial hstep).trans hreach, hretry⟩

/-- A retry on a declared rung comes back as the next attempt. -/
theorem PublishesRetry.queued (env : Env) (hretry : s.PublishesRetry id c k) (hone : 1 ≤ k)
    (hk : k ≤ env.config.retryDelaysMs.length) :
    ∃ t, Continues env s t ∧ t.Queued id c (k + 1) := by
  obtain ⟨h, w, row, hget, hpc, rfl, rfl, rfl, hrow, hstatus⟩ := hretry
  obtain ⟨s₁, hstep₁, -, hdb₁, hbroker₁⟩ := exists_work env hget
    (by simp only [Handler.work, hpc]; rfl)
  rw [Broker.publish_retry, if_pos ⟨hone, hk⟩] at hbroker₁
  obtain ⟨s₂, j, hstep₂, hget₂, hdb₂⟩ := exists_expire env (i := s.broker.next)
    (by rw [hbroker₁]; exact Function.update_self _ _ _) rfl ⟨hone, hk⟩
  refine ⟨s₂, (Reaches.single trivial hstep₁).tail trivial hstep₂, j, _, w.retryBody, row, hget₂,
    rfl, MessageBody.from_json_to_json _, rfl, rfl, ?_, hstatus⟩
  rw [hdb₂, hdb₁]
  exact hrow

/-- What a client submits in the runs below. -/
def sample : Notification where
  idempotencyKey := "order-123-welcome"
  channel := .email
  recipient := "user@example.com"
  subject := "Welcome"
  body := "Your account is ready."

/-- A request that is accepted: six statements from the key lookup to the publish. -/
def submission (input : Notification) (uuid : String) : List Event :=
  .request input uuid :: List.replicate 6 (.post 0)

/-- A first attempt waits after a submission. -/
theorem exists_queued (env : Env) : ∃ t, Continues env initial t ∧ t.Queued "id" .email 1 := by
  have hrun : ∃ t, run (System.step env) initial (submission sample "id") = some t ∧
      t.Queued "id" .email 1 := by
    refine ⟨_, rfl, 0, _, _, _, rfl, rfl, MessageBody.from_json_to_json _, rfl, rfl, rfl, rfl⟩
  obtain ⟨t, hrun, hqueued⟩ := hrun
  exact ⟨t, Reaches.of_run (fun _ _ _ => trivial) hrun, hqueued⟩

/-- The attempts climb the ladder while the limit allows a retry. -/
theorem exists_climb (env : Env) (rung : Nat) (hlimit : (rung : Int) ≤ env.config.maxRetries)
    (hladder : rung ≤ env.config.retryDelaysMs.length) :
    ∃ t, Continues env initial t ∧ t.Queued "id" .email (rung + 1) := by
  induction rung with
  | zero => exact exists_queued env
  | succ rung ih =>
      obtain ⟨s, hreach, hqueued⟩ := ih (by omega) (by omega)
      obtain ⟨t, hfail, hretry⟩ := hqueued.publishesRetry env (by omega)
      obtain ⟨u, hexpire, hnext⟩ := hretry.queued env (by omega) (by omega)
      exact ⟨u, (hreach.trans hfail).trans hexpire, by simpa using hnext⟩

/-- For every configuration: every retry that any run publishes, whatever the providers answer, goes
to a declared rung if and only if the ladder has at least `maxRetries` rungs. -/
theorem retry_rung_declared_iff (env : Env) :
    (∀ s h w, Continues env initial s → s.handlers.get h = some w → w.pc = .publishRetry →
      Topology.retryQueue w.channel w.message.attemptNumber ∈
        (Topology.declareAll env.config).queues.map QueueDecl.name) ↔
    env.config.maxRetries ≤ env.config.retryDelaysMs.length := by
  constructor
  · intro hdeclared
    by_contra hlimit
    obtain ⟨s, hreach, hqueued⟩ :=
      exists_climb env env.config.retryDelaysMs.length (by omega) (Nat.le_refl _)
    obtain ⟨t, hfail, h, w, row, hget, hpc, -, -, hk, -, -⟩ :=
      hqueued.publishesRetry env (by omega)
    have hrung := Topology.retry_queue_declared.mp (hdeclared t h w (hreach.trans hfail) hget hpc)
    omega
  · intro hladder s h w hreach hget hpc
    have hplaced := reachable_placed hreach w.notificationId
    have hview : (s.view w.notificationId).handlers h = some w := view_handlers.mpr ⟨hget, rfl⟩
    have hone := (hplaced.handler h w hview).2
    have hlimit := hplaced.retrying h w hview (.inr hpc)
    exact Topology.retry_queue_declared.mpr ⟨hone, by omega⟩

/-- A configuration file that allows one retry and gives no delays. -/
def withoutRungs : Json := .obj [("maxRetries", .int 1), ("retryDelaysMs", .arr [])]

/-- A first attempt that fails transiently, up to the publish of its retry. -/
def firstRetry : List Event :=
  (submission sample "id").append [.deliver .email 0, .work 0, .work 0,
    .send 0 (.failure "timeout" true), .work 0, .work 0]

/-- The file is accepted, and the first retry is published to a queue that nobody declared. -/
theorem retry_rung_undeclared :
    ∃ config, Config.loadFromFile "config.json" (some (.ok withoutRungs)) = .ok config ∧
      ∃ s h w, run (System.step ⟨config, fun key => key⟩) initial firstRetry = some s ∧
        s.handlers.get h = some w ∧ w.pc = .publishRetry ∧
        Topology.retryQueue w.channel w.message.attemptNumber ∉
          (Topology.declareAll config).queues.map QueueDecl.name :=
  ⟨_, rfl, _, 0, _, rfl, rfl, rfl, by decide⟩

end System

end NotificationDelivery
