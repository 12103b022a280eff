import NotificationDelivery.Service.DeliverySteps
import NotificationDelivery.Service.MessageContents

/-!
# The deliveries of the running service

The running service reads the numbers of its messages without a reduction to an `int`, and it
compares ids by their characters. In a reachable state neither makes a difference: an `int` holds
the numbers that the service itself writes, and the ids in its messages are those of stored rows,
which the collation tells apart because `id` is the primary key. So the running service can do what
`onMessage` does, when it returns (`on_message_simulated`) and when an exception leaves it
(`on_message_dies_simulated`).
-/

namespace NotificationDelivery

open EventMachine Throwing

/-- The primary key of `notifications`: the collation tells the stored ids apart. -/
def Database.IdsApart (collate : String → String) (db : Database) : Prop :=
  ∀ n ∈ db.notifications, ∀ m ∈ db.notifications, collate n.id = collate m.id → n.id = m.id

namespace System

variable {env : Env} {s : System} {allowed : System → Event → Prop} {h i : Nat} {w : Handler}
  {m : Message} {calls : DeliveryCalls}

/-- Every message on the broker is read as it was written. -/
theorem read_message (hreach : Reaches (System.step env) allowed initial s)
    (hint : Json.IsInt env.config.lastAttempt) (hget : s.broker.get i = some m) :
    MessageBody.read m.envelope.body = MessageBody.fromJson m.envelope.body := by
  obtain ⟨body, _, hwritten, -⟩ := (reachable_prioritized hreach).message i m hget
  have hread : MessageBody.fromJson m.envelope.body = .ok body := by
    rw [hwritten, MessageBody.from_json_to_json]
  obtain ⟨hplaced, hranged⟩ := reachable_ranged hreach body.notificationId
  have hmessage := view_message_of_body hget hread
  have hone := (hplaced.message i _ _ hmessage).1
  have hlast := hranged.message i _ _ hmessage
  rw [hread, hwritten]
  exact MessageBody.read_of_is_int ⟨by omega, lt_of_le_of_lt hlast hint.2⟩

/-- So is the message of every delivery. -/
theorem read_handler (hreach : Reaches (System.step env) allowed initial s)
    (hint : Json.IsInt env.config.lastAttempt) (hget : s.handlers.get h = some w) :
    MessageBody.read w.body = .ok w.message := by
  obtain ⟨hplaced, hranged⟩ := reachable_ranged hreach w.notificationId
  have hview : (s.view w.notificationId).handlers h = some w := view_handlers.mpr ⟨hget, rfl⟩
  have hone := (hplaced.handler h w hview).2
  have hlast := hranged.handler h w hview
  rw [((reachable_prioritized hreach).handler h w hget).1]
  exact MessageBody.read_of_is_int ⟨by omega, lt_of_le_of_lt hlast hint.2⟩

/-- The id in the message of a delivery is that of a stored row, and no other row has an id that
the collation takes for it. -/
theorem told_apart (hreach : Reaches (System.step env) allowed initial s)
    (hapart : s.db.IdsApart env.collate) (hget : s.handlers.get h = some w) :
    s.db.ToldApart env.collate w.notificationId := by
  obtain ⟨-, _, hpriority, -⟩ := (reachable_prioritized hreach).handler h w hget
  obtain ⟨row, hrow, -⟩ := Option.map_eq_some_iff.mp hpriority
  have hstored : row ∈ s.db.notifications := Table.mem_of_find hrow
  have hid : row.id = w.notificationId := Table.key_of_find hrow
  refine ⟨fun n hn hsame => ?_, fun a ha hsame => ?_⟩
  · exact hid ▸ hapart n hn row hstored (hid ▸ hsame)
  · obtain ⟨other, hother, -⟩ := attempt_fits hreach ha
    have hkey : other.id = a.notificationId := Table.key_of_find hother
    rw [← hkey] at hsame ⊢
    exact hid ▸ hapart other (Table.mem_of_find hother) row hstored (hid ▸ hsame)

/-- The service shows the tables, the broker and the program point of delivery `h`. -/
structure Shows (s : System) (h : Nat) (w : Handler)
    (state : Database × Broker × Option HandlerPc) : Prop where
  db : s.db = state.1
  broker : s.broker = state.2.1
  handler : s.handlers.get h = state.2.2.map w.goto

/-- The service after some steps of delivery `h`: everything else is as before. -/
structure After (s : System) (h : Nat) (w : Handler) (state : Database × Broker × Option HandlerPc)
    (t : System) : Prop extends t.Shows h w state where
  posts : t.posts = s.posts
  others : ∀ h' ≠ h, t.handlers.get h' = s.handlers.get h'

variable {before after : Database × Broker × Option HandlerPc}

/-- A statement of a delivery alone is a step of the service. -/
theorem Shows.stepped (env : Env) (hshows : s.Shows h w before)
    (hstep : WorkerThread.Alone env.config calls h w before after) :
    ∃ event t, (event = .work h ∨ event = .send h calls.send) ∧ s.step env event = some t ∧
      s.After h w after t := by
  obtain ⟨hdb, hbroker, hhandler⟩ := hshows
  cases hstep with
  | @work db next broker published pc pc' hwork =>
      have hget : s.handlers.get h = some (w.goto pc) := hhandler
      subst hdb hbroker
      refine ⟨.work h, { s with
        db := next
        broker := published
        handlers := s.handlers.set h (pc'.map (w.goto pc).goto) }, .inl rfl, ?_, ?_⟩
      · simp [step, hget, hwork]
      · refine ⟨⟨rfl, rfl, ?_⟩, rfl, fun h' hne => ?_⟩
        · show (s.handlers.set h _).get h = pc'.map w.goto
          rw [Registry.get_set hget, Function.update_self]
          rfl
        · show (s.handlers.set h _).get h' = _
          rw [Registry.get_set hget, Function.update_of_ne hne]
  | @send db broker n =>
      have hget : s.handlers.get h = some (w.goto (.send n)) := hhandler
      subst hdb hbroker
      refine ⟨.send h calls.send, { s with
        handlers := s.handlers.set h (some (w.goto (Handler.afterSend calls.send)))
        sends := s.sends ++ [(w.notificationId, calls.send)] }, .inr rfl, ?_, ?_⟩
      · simp only [step, hget]
        rfl
      · refine ⟨⟨rfl, rfl, ?_⟩, rfl, fun h' hne => ?_⟩
        · show (s.handlers.set h _).get h = _
          rw [Registry.get_set hget, Function.update_self]
          rfl
        · show (s.handlers.set h _).get h' = _
          rw [Registry.get_set hget, Function.update_of_ne hne]

/-- So are several of them. -/
theorem Shows.ran (hshows : s.Shows h w before)
    (hsteps : Relation.ReflTransGen (WorkerThread.Alone env.config calls h w) before after) :
    ∃ events t, run (System.step env) s events = some t ∧
      (∀ event ∈ events, event = .work h ∨ event = .send h calls.send) ∧ s.After h w after t := by
  induction hsteps using Relation.ReflTransGen.head_induction_on generalizing s with
  | refl => exact ⟨[], s, rfl, by simp, hshows, rfl, fun _ _ => rfl⟩
  | head hstep _ ih =>
      obtain ⟨event, middle, hevent, hmiddle, hafter⟩ := hshows.stepped env hstep
      obtain ⟨events, t, hrun, hevents, hlast⟩ := ih hafter.toShows
      refine ⟨event :: events, t, ?_, ?_, hlast.toShows, hlast.posts.trans hafter.posts,
        fun h' hne => (hlast.others h' hne).trans (hafter.others h' hne)⟩
      · rw [run_cons, hmiddle]
        exact hrun
      · intro other hother
        rcases List.mem_cons.mp hother with rfl | hother
        · exact hevent
        · exact hevents other hother

/-- `onMessage` on the message of a delivery is executed by the statements of that delivery. -/
theorem on_message_executed (config : Config) {collate : String → String} (columnError : Exn)
    (calls : DeliveryCalls) (h : Nat) {parse : List UInt8 → Except Exn Json} {body : List UInt8}
    (hparse : parse body = .ok w.body) (hread : MessageBody.read w.body = .ok w.message) :
    Executes (WorkerThread.Alone config calls h w) WorkerThread.shown
      (WorkerThread.At collate w .findById)
      (WorkerThread.onMessage config collate columnError calls h w.channel parse w.deliveryTag body)
      WorkerThread.Over WorkerThread.UnderWay := by
  have hreads : WorkerThread.Reads w.channel parse w.deliveryTag body w.toReceived :=
    ⟨hparse, hread, rfl, rfl⟩
  rcases WorkerThread.on_message_cases config collate columnError calls h w.channel parse
    w.deliveryTag body with ⟨hdropped, -⟩ | ⟨d, hd, honMessage⟩
  · exact absurd hreads (hdropped w.toReceived)
  · obtain rfl := hd.unique hreads
    rw [honMessage]
    exact WorkerThread.executes_handle_message

/-- A delivery that is about to begin shows its state before `onMessage`. -/
theorem Shows.begins (hget : s.handlers.get h = some w) (hpc : w.pc = .findById) :
    s.Shows h w (s.db, s.broker, some .findById) := by
  refine ⟨rfl, rfl, hget.trans ?_⟩
  rw [← hpc]
  rfl

/-- In a reachable state of a service whose retry limit an `int` holds with room for one more: if
`onMessage` returns on the message of a delivery that is about to begin, then the statements of
that delivery, with nothing between them, leave the tables and the broker as `onMessage` does. -/
theorem on_message_simulated (env : Env) (s : System) (allowed : System → Event → Prop)
    (hreach : Reaches (System.step env) allowed initial s)
    (hint : Json.IsInt env.config.lastAttempt) (hapart : s.db.IdsApart env.collate)
    (h : Nat) (w : Handler) (hget : s.handlers.get h = some w) (hpc : w.pc = .findById)
    (columnError : Exn) (calls : DeliveryCalls) (parse : List UInt8 → Except Exn Json)
    (body : List UInt8) (hparse : parse body = .ok w.body) (next : Handling)
    (hends : Ends (WorkerThread.onMessage env.config env.collate columnError calls h w.channel parse
      w.deliveryTag body) ⟨s.db, s.broker, []⟩ () next) :
    ∃ events t, run (System.step env) s events = some t ∧
      (∀ event ∈ events, event = .work h ∨ event = .send h calls.send) ∧
      s.After h w (next.database, next.broker, none) t := by
  have hexecuted := on_message_executed env.config columnError calls h hparse
    (read_handler hreach hint hget) ⟨s.db, s.broker, []⟩ _ ⟨told_apart hreach hapart hget, rfl⟩
  obtain ⟨_, hsteps, rfl⟩ := hexecuted.1 () next hends
  exact (Shows.begins hget hpc).ran hsteps

/-- A first attempt, delivered as a whole. -/
theorem on_message_simulated_first_attempt : ∃ (s : System) (w : Handler) (next : Handling),
    run (System.step shipped) initial ((submission sample "id").append [.deliver .email 0]) =
      some s ∧ (next.database.findById "id").map Notification.status = some .sent ∧
    ∃ events t, run (System.step shipped) s events = some t ∧
      (∀ event ∈ events, event = .work 0 ∨ event = .send 0 (.result "ref")) ∧
      s.After 0 w (next.database, next.broker, none) t := by
  have hdelivered : ∃ s w, run (System.step shipped) initial
      ((submission sample "id").append [.deliver .email 0]) = some s ∧
        s.handlers.get 0 = some w ∧ w.pc = .findById ∧
        s.db.IdsApart shipped.collate ∧
        ∃ next, Ends (WorkerThread.onMessage shipped.config shipped.collate (.ofText "")
          { send := .result "ref" } 0 w.channel (fun _ => .ok w.body) w.deliveryTag [])
            ⟨s.db, s.broker, []⟩ () next ∧
          (next.database.findById "id").map Notification.status = some .sent :=
    ⟨_, _, rfl, rfl, rfl, fun _ _ _ _ h => h, _, rfl, rfl⟩
  obtain ⟨s, w, hrun, hget, hpc, hapart, next, hends, hsent⟩ := hdelivered
  have hreach : Reaches (System.step shipped) (fun _ _ => True) initial s :=
    Reaches.of_run (fun _ _ _ => trivial) hrun
  exact ⟨s, w, next, hrun, hsent, on_message_simulated shipped s _ hreach (by decide) hapart 0 w
    hget hpc (.ofText "") { send := .result "ref" } (fun _ => .ok w.body) [] rfl next hends⟩

/-- If an exception leaves `onMessage` there, then the statements before it lead to the tables and
the broker that `onMessage` leaves behind, and the delivery dies where it is. -/
theorem on_message_dies_simulated (env : Env) (s : System) (allowed : System → Event → Prop)
    (hreach : Reaches (System.step env) allowed initial s)
    (hint : Json.IsInt env.config.lastAttempt) (hapart : s.db.IdsApart env.collate)
    (h : Nat) (w : Handler) (hget : s.handlers.get h = some w) (hpc : w.pc = .findById)
    (columnError : Exn) (calls : DeliveryCalls) (parse : List UInt8 → Except Exn Json)
    (body : List UInt8) (hparse : parse body = .ok w.body) (error : Thrown) (next : Handling)
    (hfails : Fails (WorkerThread.onMessage env.config env.collate columnError calls h w.channel
      parse w.deliveryTag body) ⟨s.db, s.broker, []⟩ error next) :
    ∃ events t, run (System.step env) s (events ++ [.crash h]) = some t ∧
      (∀ event ∈ events, event = .work h ∨ event = .send h calls.send) ∧
      s.After h w (next.database, next.broker, none) t := by
  have hexecuted := on_message_executed env.config columnError calls h hparse
    (read_handler hreach hint hget) ⟨s.db, s.broker, []⟩ _ ⟨told_apart hreach hapart hget, rfl⟩
  obtain ⟨pc, hsteps, hunder⟩ := hexecuted.2 error next hfails
  obtain ⟨events, t, hrun, hevents, hafter⟩ := (Shows.begins hget hpc).ran hsteps
  obtain ⟨pc, rfl⟩ := Option.isSome_iff_exists.mp hunder
  have hdying : t.handlers.get h = some (w.goto pc) := hafter.handler
  refine ⟨events, { t with handlers := t.handlers.set h none }, ?_, hevents, ?_⟩
  · refine run_concat.mpr ⟨t, hrun, ?_⟩
    simp [step, hdying]
  · refine ⟨⟨hafter.db, hafter.broker, ?_⟩, hafter.posts, fun other hne => ?_⟩
    · show (t.handlers.set h none).get h = none
      rw [Registry.get_set hdying, Function.update_self]
    · show (t.handlers.set h none).get other = s.handlers.get other
      rw [Registry.get_set hdying, Function.update_of_ne hne]
      exact hafter.others other hne

/-- `markSent` throws in a first attempt: the attempt is recorded and the status is not. -/
theorem on_message_dies_simulated_mark_sent : ∃ (s : System) (w : Handler) (next : Handling),
    run (System.step shipped) initial ((submission sample "id").append [.deliver .email 0]) =
      some s ∧ (next.database.findById "id").map Notification.status = some .processing ∧
    next.database.deliveryAttempts.map DeliveryAttempt.status = [.success] ∧
    ∃ events t, run (System.step shipped) s (events ++ [.crash 0]) = some t ∧
      (∀ event ∈ events, event = .work 0 ∨ event = .send 0 (.result "ref")) ∧
      s.After 0 w (next.database, next.broker, none) t := by
  have hdelivered : ∃ s w, run (System.step shipped) initial
      ((submission sample "id").append [.deliver .email 0]) = some s ∧
        s.handlers.get 0 = some w ∧ w.pc = .findById ∧
        s.db.IdsApart shipped.collate ∧
        ∃ error next, Fails (WorkerThread.onMessage shipped.config shipped.collate (.ofText "")
          { send := .result "ref", markSent := .error (.ofText "server has gone away") } 0 w.channel
            (fun _ => .ok w.body) w.deliveryTag []) ⟨s.db, s.broker, []⟩ error next ∧
          (next.database.findById "id").map Notification.status = some .processing ∧
          next.database.deliveryAttempts.map DeliveryAttempt.status = [.success] :=
    ⟨_, _, rfl, rfl, rfl, fun _ _ _ _ h => h, _, _, rfl, rfl, rfl⟩
  obtain ⟨s, w, hrun, hget, hpc, hapart, error, next, hfails, hstatus, hattempts⟩ := hdelivered
  have hreach : Reaches (System.step shipped) (fun _ _ => True) initial s :=
    Reaches.of_run (fun _ _ _ => trivial) hrun
  exact ⟨s, w, next, hrun, hstatus, hattempts, on_message_dies_simulated shipped s _ hreach
    (by decide) hapart 0 w hget hpc (.ofText "") _ (fun _ => .ok w.body) [] rfl error next hfails⟩

end System

end NotificationDelivery
