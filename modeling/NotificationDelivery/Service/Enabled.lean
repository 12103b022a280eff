import NotificationDelivery.Service.System

/-!
# Steps that can be taken

A delivery can always execute its next statement, a waiting message can be delivered, and a
retry on a declared rung can expire. Each lemma gives the parts of the next state that the
following steps of the same delivery need.
-/

namespace NotificationDelivery

namespace System

variable (env : Env) {s : System} {h i : Nat} {w : Handler} {m : Message} {c : Channel}

/-- A delivery executes a statement that does not end it. -/
theorem exists_work {db : Database} {broker : Broker} {pc : HandlerPc}
    (hget : s.handlers.get h = some w)
    (hwork : w.work env.config s.db s.broker h = some (db, broker, some pc)) :
    ∃ t, s.step env (.work h) = some t ∧ t.handlers.get h = some (w.goto pc) ∧ t.db = db ∧
      t.broker = broker := by
  refine ⟨{ s with db, broker, handlers := s.handlers.set h (some (w.goto pc)) }, ?_, ?_, rfl, rfl⟩
  · simp [step, hget, hwork]
  · simp [Registry.get_set hget]

/-- The router call of a delivery ends. -/
theorem exists_send {n : Notification} (hget : s.handlers.get h = some w) (hpc : w.pc = .send n)
    (outcome : ProviderOutcome) :
    ∃ t, s.step env (.send h outcome) = some t ∧
      t.handlers.get h = some (w.goto (Handler.afterSend outcome)) ∧ t.db = s.db ∧
      t.broker = s.broker := by
  refine ⟨{ s with
      handlers := s.handlers.set h (some (w.goto (Handler.afterSend outcome)))
      sends := s.sends ++ [(w.notificationId, outcome)] }, ?_, ?_, rfl, rfl⟩
  · simp [step, hget, hpc]
  · simp [Registry.get_set hget]

/-- Every statement of a delivery other than the router call can be executed, and it leads to
another statement or ends the delivery. -/
theorem exists_statement (config : Config) (db : Database) (broker : Broker) (number : Nat)
    (hpc : ∀ n, w.pc ≠ .send n) : ∃ db' broker' pc,
      w.work config db broker number = some (db', broker', pc) ∧ pc ≠ some w.pc := by
  unfold Handler.work
  cases hw : w.pc with
  | send n => exact absurd hw (hpc n)
  | findById =>
      dsimp only
      split
      · exact ⟨_, _, _, rfl, by simp⟩
      · refine ⟨_, _, _, rfl, ?_⟩
        split <;> simp
  | incrementFailure what isTransient =>
      refine ⟨_, _, _, rfl, ?_⟩
      split <;> simp
  | markProcessing | recordSuccess | markSent | incrementSuccess | recordRetry | publishRetry
  | recordDead | publishDlq | markDeadLettered | ack => exact ⟨_, _, _, rfl, by simp⟩

/-- A delivery is never stuck: some step moves it. -/
theorem exists_move (hget : s.handlers.get h = some w) : ∃ event t, event.disturbs = false ∧
    (∀ input uuid, event ≠ .request input uuid) ∧ s.step env event = some t ∧
      t.handlers.get h ≠ some w := by
  by_cases hsend : ∃ n, w.pc = .send n
  · obtain ⟨n, hpc⟩ := hsend
    obtain ⟨t, hstep, ht, -, -⟩ := exists_send env hget hpc (.failure "timeout" true)
    refine ⟨_, t, rfl, by simp, hstep, ?_⟩
    intro hsame
    have hmoved := congrArg Handler.pc (Option.some.inj (ht.symm.trans hsame))
    simp [hpc, Handler.afterSend] at hmoved
  · have hpc : ∀ n, w.pc ≠ .send n := fun n hpc => hsend ⟨n, hpc⟩
    obtain ⟨db, broker, pc, hwork, hne⟩ := exists_statement env.config s.db s.broker h hpc
    refine ⟨.work h, { s with db, broker, handlers := s.handlers.set h (pc.map w.goto) }, rfl,
      by simp, by simp [step, hget, hwork], ?_⟩
    intro hsame
    simp only [Registry.get_set hget, Function.update_self, Option.map_eq_some_iff] at hsame
    obtain ⟨pc', rfl, hgoto⟩ := hsame
    exact hne (congrArg (fun w => some (Handler.pc w)) hgoto)

/-- A worker receives a message from the main queue of its channel. -/
theorem exists_deliver {body : MessageBody} (hget : s.broker.get i = some m)
    (hplace : m.place = .queue (Topology.mainQueue c))
    (hbody : MessageBody.fromJson m.envelope.body = .ok body) :
    ∃ t w, s.step env (.deliver c i) = some t ∧ t.handlers.get s.handlers.next = some w ∧
      w.channel = c ∧ w.message = body ∧ w.pc = .findById ∧ t.db = s.db := by
  refine ⟨s.receive c i m, ⟨⟨c, i, m.envelope.body, body⟩, hbody, .findById⟩, ?_, ?_, rfl, rfl,
    rfl, ?_⟩
  · simp [step, hget, hplace]
  · unfold receive
    split
    · rename_i body' hbody'
      obtain rfl : body = body' := Except.ok.inj (hbody.symm.trans hbody')
      simp
    · rename_i e herror
      exact absurd (hbody.symm.trans herror) (by simp)
  · unfold receive
    split <;> rfl

/-- A retry on a declared rung expires into the main queue of its channel. -/
theorem exists_expire {k : Int} (hget : s.broker.get i = some m)
    (hplace : m.place = .queue (Topology.retryQueue c k))
    (hk : 1 ≤ k ∧ k ≤ env.config.retryDelaysMs.length) :
    ∃ t j, s.step env (.expire i) = some t ∧
      t.broker.get j = some ⟨.queue (Topology.mainQueue c), m.envelope⟩ ∧ t.db = s.db := by
  obtain ⟨place, envelope⟩ := m
  obtain rfl : place = _ := hplace
  have hexpire := Broker.expire_retry hget hk
  refine ⟨{ s with broker := Broker.enqueue (s.broker.set i none) (Topology.mainQueue c) envelope },
    s.broker.next, ?_, ?_, rfl⟩
  · simp [step, hexpire]
  · exact Function.update_self _ _ _

end System

end NotificationDelivery
