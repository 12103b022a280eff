import NotificationDelivery.Service.MessageContents
import NotificationDelivery.Service.NoLoss

/-!
# The delays between the attempts

The service with a clock: a message leaves a rung of the retry ladder no earlier than its time
to live after it was put there, and may stay longer. Everything else happens at any time. A
history of the router calls says when each of them began and ended. `backoff_respected` is
the result: a call for a later attempt begins only after the previous attempt has failed
transiently and its delay has passed.
-/

namespace NotificationDelivery

open EventMachine

/-- What the history of router calls notes. -/
inductive CallRecord where
  | began (notificationId : String) (attemptNumber : Int)
  | ended (notificationId : String) (attemptNumber : Int) (outcome : ProviderOutcome)
  deriving DecidableEq, Repr

/-- The service, the time in milliseconds, the times at which the messages were published under
their numbers, and the history of the router calls with their times. -/
structure TimedSystem where
  system : System
  now : Nat
  since : Nat → Nat
  calls : List (CallRecord × Nat)

inductive TimedEvent where
  | wait (elapsed : Nat)
  | act (event : Event)

/-- The step of the service in an event. -/
def TimedEvent.action : TimedEvent → Option Event
  | .wait _ => none
  | .act event => some event

/-- The time to live of a message on its queue. -/
def Broker.ttl (t : Topology) (b : Broker) (i : Nat) : Option Int :=
  match b.get i with
  | some ⟨.queue name, _⟩ => (t.find name).bind QueueDecl.messageTtl
  | _ => none

/-- `markProcessing` is the statement before the router call. -/
def Handler.begins (w : Handler) : List CallRecord :=
  match w.pc with
  | .markProcessing _ => [.began w.notificationId w.message.attemptNumber]
  | _ => []

/-- What an event shows of the router calls. -/
def System.calls (s : System) : Event → List CallRecord
  | .work h => (s.handlers.get h).elim [] Handler.begins
  | .send h outcome => (s.handlers.get h).elim [] fun w =>
      [.ended w.notificationId w.message.attemptNumber outcome]
  | _ => []

namespace TimedSystem

def initial : TimedSystem where
  system := .initial
  now := 0
  since := fun _ => 0
  calls := []

/-- The broker lets a message expire only when its time to live has passed. -/
def ripe (config : Config) (ts : TimedSystem) : Event → Bool
  | .expire i =>
      (ts.system.broker.ttl (.declareAll config) i).all fun ttl => (ts.since i : Int) + ttl ≤ ts.now
  | _ => true

/-- The time of publication of each message after a step: new messages were published now. -/
def published (since : Nat → Nat) (b : Broker) (now : Nat) (i : Nat) : Nat :=
  if i < b.next then since i else now

/-- One step of the service, or time passes. -/
def step (env : Env) (ts : TimedSystem) : TimedEvent → Option TimedSystem
  | .wait elapsed => some { ts with now := ts.now + elapsed }
  | .act event =>
      if ts.ripe env.config event then
        (ts.system.step env event).map fun system =>
          { ts with
            system
            since := published ts.since ts.system.broker ts.now
            calls := ts.calls ++ (ts.system.calls event).map (·, ts.now) }
      else none

end TimedSystem

/-- Attempt `k` of the notification has failed transiently by the given time. -/
def FailedBy (calls : List (CallRecord × Nat)) (n : String) (k : Int) (time : Nat) : Prop :=
  ∃ what t, (.ended n k (.failure what true), t) ∈ calls ∧ t ≤ time

/-- If attempt `k` is not the first one, the attempt before it has failed transiently, and its delay
has passed since. -/
def DueBy (config : Config) (calls : List (CallRecord × Nat)) (n : String) (k : Int) (time : Nat) :
    Prop :=
  2 ≤ k → ∃ what t delay, (.ended n (k - 1) (.failure what true), t) ∈ calls ∧
    config.retryDelaysMs[(k - 2).toNat]? = some delay ∧ (t : Int) + delay ≤ time

/-- What the history says about a delivery. -/
structure Handler.Paced (config : Config) (calls : List (CallRecord × Nat)) (now : Nat)
    (w : Handler) : Prop where
  due : DueBy config calls w.notificationId w.message.attemptNumber now
  sending : ∀ row, w.pc = .send row →
    ∃ t, (.began w.notificationId w.message.attemptNumber, t) ∈ calls ∧ t ≤ now
  failing : ∀ what, w.pc = .incrementFailure what true →
    FailedBy calls w.notificationId w.message.attemptNumber now
  retrying : w.Retrying → FailedBy calls w.notificationId w.message.attemptNumber now

/-- What the history says about a message: on a rung it waits since its attempt has failed, and
elsewhere its attempt is due. -/
structure Message.Paced (config : Config) (calls : List (CallRecord × Nat)) (now since : Nat)
    (m : Message) : Prop where
  waiting : ∀ body c rung, MessageBody.fromJson m.envelope.body = .ok body →
    m.place = .queue (Topology.retryQueue c rung) → FailedBy calls body.notificationId rung since
  due : ∀ body, MessageBody.fromJson m.envelope.body = .ok body →
    (∀ c rung, m.place ≠ .queue (Topology.retryQueue c rung)) →
    DueBy config calls body.notificationId body.attemptNumber now

/-- What the history says about itself. -/
structure CallsPaced (config : Config) (calls : List (CallRecord × Nat)) : Prop where
  began : ∀ n k t, (.began n k, t) ∈ calls → DueBy config calls n k t
  ended : ∀ n k outcome t, (.ended n k outcome, t) ∈ calls →
    ∃ t', (.began n k, t') ∈ calls ∧ t' ≤ t

def Broker.Paced (config : Config) (calls : List (CallRecord × Nat)) (now : Nat) (since : Nat → Nat)
    (b : Broker) : Prop :=
  ∀ i m, b.get i = some m → m.Paced config calls now (since i)

section Monotone

variable {config : Config} {calls later : List (CallRecord × Nat)} {n : String} {k : Int}
  {now time since : Nat} {w : Handler} {m : Message}

theorem FailedBy.mono (h : FailedBy calls n k now) (hcalls : calls ⊆ later) (htime : now ≤ time) :
    FailedBy later n k time := by
  obtain ⟨what, t, hmem, hle⟩ := h
  exact ⟨what, t, hcalls hmem, hle.trans htime⟩

theorem DueBy.mono (h : DueBy config calls n k now) (hcalls : calls ⊆ later)
    (htime : now ≤ time) : DueBy config later n k time := by
  intro hk
  obtain ⟨what, t, delay, hmem, hdelay, hle⟩ := h hk
  exact ⟨what, t, delay, hcalls hmem, hdelay, by omega⟩

/-- The first attempt is always due. -/
theorem due_by_first (config : Config) (calls : List (CallRecord × Nat)) (n : String) (time : Nat) :
    DueBy config calls n 1 time := fun hk => absurd hk (by decide)

theorem Handler.Paced.mono (h : w.Paced config calls now) (hcalls : calls ⊆ later)
    (htime : now ≤ time) : w.Paced config later time where
  due := h.due.mono hcalls htime
  sending := fun row hpc =>
    let ⟨t, hmem, hle⟩ := h.sending row hpc
    ⟨t, hcalls hmem, hle.trans htime⟩
  failing := fun what hpc => (h.failing what hpc).mono hcalls htime
  retrying := fun hr => (h.retrying hr).mono hcalls htime

theorem Message.Paced.mono (h : m.Paced config calls now since) (hcalls : calls ⊆ later)
    (htime : now ≤ time) : m.Paced config later time since where
  waiting := fun body c rung hbody hplace =>
    (h.waiting body c rung hbody hplace).mono hcalls (Nat.le_refl _)
  due := fun body hbody hplace => (h.due body hbody hplace).mono hcalls htime

/-- A delivery at a program point about which the history says nothing. -/
theorem Handler.Paced.goto (h : w.Paced config calls now) {pc : HandlerPc}
    (hsend : ∀ row, pc ≠ .send row) (hfail : ∀ what, pc ≠ .incrementFailure what true)
    (hretry : (w.goto pc).Retrying → w.Retrying) : (w.goto pc).Paced config calls now where
  due := h.due
  sending := fun row hpc => absurd hpc (hsend row)
  failing := fun what hpc => absurd hpc (hfail what)
  retrying := fun hr => h.retrying (hretry hr)

end Monotone

namespace Broker.Paced

variable {config : Config} {calls : List (CallRecord × Nat)} {now i : Nat} {since : Nat → Nat}
  {b : Broker} {m : Message} {name : String} {envelope : Envelope}

/-- Nothing is published. -/
theorem keep (h : b.Paced config calls now since) :
    b.Paced config calls now (TimedSystem.published since b now) := by
  intro i m hget
  rw [TimedSystem.published, if_pos (Registry.lt_next hget)]
  exact h i m hget

/-- A message is published. -/
theorem enqueue (h : b.Paced config calls now since)
    (hnew : Message.Paced config calls now now ⟨.queue name, envelope⟩) :
    (b.enqueue name envelope).Paced config calls now (TimedSystem.published since b now) := by
  intro i m hget
  rcases Registry.update_eq_some.mp hget with ⟨rfl, heq⟩ | ⟨_, hget⟩
  · obtain rfl := Option.some.inj heq
    rw [TimedSystem.published, if_neg (Nat.lt_irrefl _)]
    exact hnew
  · exact h.keep i m hget

/-- A message changes its place or is removed. -/
theorem set (h : b.Paced config calls now since) (hget : b.get i = some m)
    {value : Option Message}
    (hvalue : ∀ m' ∈ value, m'.Paced config calls now (since i)) :
    Broker.Paced config calls now since (b.set i value) := by
  intro j m' hget'
  rw [Registry.get_set hget] at hget'
  rcases Registry.update_eq_some.mp hget' with ⟨rfl, heq⟩ | ⟨_, hget'⟩
  · exact hvalue m' heq
  · exact h j m' hget'

/-- An ack removes a message or does nothing. -/
theorem ack (h : b.Paced config calls now since) (consumer : Nat) :
    (b.ack consumer i).Paced config calls now since := by
  rcases b.ack_cases consumer i with ⟨name, envelope, hget, hack⟩ | ⟨_, hack⟩ <;> rw [hack]
  · exact h.set hget (by simp)
  · exact h

end Broker.Paced

namespace CallsPaced

variable {config : Config} {calls : List (CallRecord × Nat)} {n : String} {k : Int} {now : Nat}

/-- A call begins. -/
theorem begin (h : CallsPaced config calls) (hdue : DueBy config calls n k now) :
    CallsPaced config (calls ++ [(.began n k, now)]) where
  began := by
    intro n' k' t hmem
    rcases List.mem_append.mp hmem with hmem | hmem
    · exact (h.began n' k' t hmem).mono (by simp) (Nat.le_refl _)
    · obtain ⟨⟨rfl, rfl⟩, rfl⟩ : (n' = n ∧ k' = k) ∧ t = now := by simpa using hmem
      exact hdue.mono (by simp) (Nat.le_refl _)
  ended := by
    intro n' k' outcome t hmem
    rcases List.mem_append.mp hmem with hmem | hmem
    · obtain ⟨t', hmem', hle⟩ := h.ended n' k' outcome t hmem
      exact ⟨t', List.mem_append_left _ hmem', hle⟩
    · simp at hmem

/-- A call ends. -/
theorem finish (h : CallsPaced config calls) (outcome : ProviderOutcome)
    (hbegan : ∃ t, (.began n k, t) ∈ calls ∧ t ≤ now) :
    CallsPaced config (calls ++ [(.ended n k outcome, now)]) where
  began := by
    intro n' k' t hmem
    rcases List.mem_append.mp hmem with hmem | hmem
    · exact (h.began n' k' t hmem).mono (by simp) (Nat.le_refl _)
    · simp at hmem
  ended := by
    intro n' k' outcome' t hmem
    rcases List.mem_append.mp hmem with hmem | hmem
    · obtain ⟨t', hmem', hle⟩ := h.ended n' k' outcome' t hmem
      exact ⟨t', List.mem_append_left _ hmem', hle⟩
    · obtain ⟨⟨rfl, rfl, -⟩, rfl⟩ : (n' = n ∧ k' = k ∧ outcome' = outcome) ∧ t = now := by
        simpa using hmem
      obtain ⟨t', hmem', hle⟩ := hbegan
      exact ⟨t', List.mem_append_left _ hmem', hle⟩

/-- A call for attempt `k + 1` begins at least the first `k` delays after a first call has begun. -/
theorem total_delay (h : CallsPaced config calls) (k time : Nat)
    (hbegan : (.began n (k + 1), time) ∈ calls) : k ≤ config.retryDelaysMs.length ∧
      ∃ t, (.began n 1, t) ∈ calls ∧ (t : Int) + (config.retryDelaysMs.take k).sum ≤ time := by
  induction k generalizing time with
  | zero => exact ⟨Nat.zero_le _, time, by simpa using hbegan, by simp⟩
  | succ k ih =>
      obtain ⟨what, t, delay, hended, hdelay, hle⟩ := h.began _ _ _ hbegan (by omega)
      have hprevious : ((k + 1 : Nat) : Int) + 1 - 1 = k + 1 := by omega
      have hindex : (((k + 1 : Nat) : Int) + 1 - 2).toNat = k := by omega
      rw [hprevious] at hended
      rw [hindex] at hdelay
      obtain ⟨t', hbegan', hle'⟩ := h.ended _ _ _ _ hended
      obtain ⟨-, first, hfirst, hsum⟩ := ih t' hbegan'
      obtain ⟨hlt, hget⟩ := List.getElem?_eq_some_iff.mp hdelay
      refine ⟨hlt, first, hfirst, ?_⟩
      rw [List.take_add_one, hdelay, List.sum_append]
      simp only [Option.toList_some, List.sum_singleton]
      omega

end CallsPaced

section Worked

variable {config : Config} {calls : List (CallRecord × Nat)} {db next : Database}
  {broker broker' : Broker} {number now : Nat} {since : Nat → Nat} {w : Handler}

/-- The next program point of a delivery agrees with the history. -/
theorem Handler.Worked.paced {pc : HandlerPc} (h : w.Paced config calls now)
    (hworked : w.Worked config db broker number next broker' (some pc)) :
    (w.goto pc).Paced config (calls ++ w.begins.map (·, now)) now := by
  have hlater := h.mono (List.subset_append_left calls (w.begins.map (·, now))) (Nat.le_refl now)
  cases hworked with
  | markedProcessing n hpc =>
      refine ⟨hlater.due, fun row _ => ⟨now, ?_, Nat.le_refl now⟩, by simp, by simp [Retrying]⟩
      simp [begins, hpc]
  | incrementedRetry what isTransient hpc hretries =>
      obtain ⟨rfl, -⟩ := Bool.and_eq_true_iff.mp hretries
      exact ⟨hlater.due, by simp, by simp, fun _ => hlater.failing what hpc⟩
  | recordedRetry what hpc =>
      exact hlater.goto (by simp) (by simp) fun _ => .inl ⟨what, hpc⟩
  | missed | skipped | found | recordedSuccess | markedSent | incrementedSuccess | incrementedDead
  | publishedRetry | recordedDead | publishedDlq | markedDeadLettered =>
      exact hlater.goto (by simp) (by simp) (by simp [Retrying])

/-- What a delivery publishes agrees with the history. -/
theorem Handler.Worked.broker_paced {pc : Option HandlerPc} (h : w.Paced config calls now)
    (hbroker : broker.Paced config calls now since)
    (hworked : w.Worked config db broker number next broker' pc) :
    broker'.Paced config calls now (TimedSystem.published since broker now) := by
  cases hworked with
  | publishedRetry hpc =>
      rw [Broker.publish_retry]
      split
      · refine hbroker.enqueue ⟨fun body c rung hbody hplace => ?_, fun body _ hplace => ?_⟩
        · obtain rfl := Except.ok.inj ((MessageBody.from_json_to_json _).symm.trans hbody)
          obtain ⟨-, rfl⟩ := Topology.retry_queue_inj.mp (Place.queue.inj hplace)
          exact h.retrying (.inr hpc)
        · exact absurd rfl (hplace _ _)
      · exact hbroker.keep
  | publishedDlq hpc =>
      rw [Broker.publish_dlq]
      refine hbroker.enqueue ⟨fun body c rung _ hplace => ?_, fun body hbody _ => ?_⟩
      · simp at hplace
      · obtain rfl := Except.ok.inj (w.decoded.symm.trans hbody)
        exact h.due
  | acked hpc =>
      intro i m hget
      have hnext : (broker.ack number w.deliveryTag).next = broker.next := by
        rcases broker.ack_cases number w.deliveryTag with ⟨_, _, _, hack⟩ | ⟨_, hack⟩ <;>
          exact (congrArg Registry.next hack).trans rfl
      rw [TimedSystem.published, if_pos (hnext ▸ Registry.lt_next hget)]
      exact hbroker.ack number i m hget
  | _ => exact hbroker.keep

end Worked

namespace TimedSystem

/-- The history agrees with itself, with the deliveries and with the messages. -/
structure Paced (config : Config) (ts : TimedSystem) : Prop where
  calls : CallsPaced config ts.calls
  handlers : ∀ h w, ts.system.handlers.get h = some w → w.Paced config ts.calls ts.now
  messages : ts.system.broker.Paced config ts.calls ts.now ts.since

/-- The state after a step of the service. -/
def after (ts : TimedSystem) (event : Event) (system : System) : TimedSystem where
  system := system
  now := ts.now
  since := published ts.since ts.system.broker ts.now
  calls := ts.calls ++ (ts.system.calls event).map (·, ts.now)

variable {env : Env} {ts next : TimedSystem} {t : System} {event : Event} {i : Nat}

/-- A step that shows nothing of a router call. -/
theorem Paced.quiet (h : ts.Paced env.config) (hcalls : ts.system.calls event = [])
    (hhandlers : ∀ h w, t.handlers.get h = some w → w.Paced env.config ts.calls ts.now)
    (hbroker : t.broker.Paced env.config ts.calls ts.now
      (published ts.since ts.system.broker ts.now)) : (ts.after event t).Paced env.config := by
  have hsame : (ts.after event t).calls = ts.calls := by simp [after, hcalls]
  exact ⟨hsame ▸ h.calls, hsame ▸ hhandlers, hsame ▸ hbroker⟩

/-- A message whose time to live has passed is due. -/
theorem Paced.due_of_ripe (h : ts.Paced env.config)
    (hreach : Reaches (System.step env) (fun _ _ => True) .initial ts.system)
    (hripe : ts.ripe env.config (.expire i) = true) {c : Channel} {k : Int} {envelope : Envelope}
    (hget : ts.system.broker.get i = some ⟨.queue (Topology.retryQueue c k), envelope⟩)
    {body : MessageBody} (hbody : MessageBody.fromJson envelope.body = .ok body) :
    DueBy env.config ts.calls body.notificationId body.attemptNumber ts.now := by
  have hmessage := System.view_message_of_body hget hbody
  obtain ⟨hplaced, hranged⟩ := System.reachable_ranged hreach body.notificationId
  have hk := hranged.waiting i c k _ hmessage
  obtain ⟨-, d, -, hproper⟩ := hplaced.message i _ _ hmessage
  have hdeclared : 1 ≤ k ∧ k ≤ env.config.retryDelaysMs.length := by
    generalize hplace : Place.queue (Topology.retryQueue c k) = place at hproper
    cases hproper with
    | retry rung hone hlen =>
        obtain ⟨-, rfl⟩ := Topology.retry_queue_inj.mp (Place.queue.inj hplace)
        exact ⟨hone, hlen⟩
    | main | dlq | unacked => simp at hplace
  have hsome := Topology.isSome_find.mpr (Topology.retry_queue_declared (c := c).mpr hdeclared)
  obtain ⟨decl, hfind⟩ := Option.isSome_iff_exists.mp hsome
  obtain ⟨delay, hdelay, httl⟩ := Topology.ttl_retry_queue hfind
  have hpassed : (ts.since i : Int) + delay ≤ ts.now := by
    simpa [ripe, Broker.ttl, hget, hfind, httl] using hripe
  obtain ⟨what, time, hmem, hle⟩ := (h.messages i _ hget).waiting body c k hbody rfl
  intro _
  have hprevious : body.attemptNumber - 1 = k := by omega
  have hindex : body.attemptNumber - 2 = k - 1 := by omega
  exact ⟨what, time, delay, hprevious ▸ hmem, hindex ▸ hdelay, by omega⟩

/-- A delivery moves on. -/
theorem Paced.handlers_set (h : ts.Paced env.config) {number : Nat} {w : Handler}
    {value : Option Handler} {calls : List (CallRecord × Nat)} (hcalls : ts.calls ⊆ calls)
    (hget : ts.system.handlers.get number = some w)
    (hvalue : ∀ w' ∈ value, w'.Paced env.config calls ts.now) :
    ∀ h w, (ts.system.handlers.set number value).get h = some w →
      w.Paced env.config calls ts.now := by
  intro other w' hget'
  rw [Registry.get_set hget] at hget'
  rcases Registry.update_eq_some.mp hget' with ⟨_, heq⟩ | ⟨_, hget'⟩
  · exact hvalue w' heq
  · exact (h.handlers other w' hget').mono hcalls (Nat.le_refl _)

/-- A statement of a delivery. -/
theorem Paced.worked (h : ts.Paced env.config) {number : Nat} {w : Handler} {db : Database}
    {broker : Broker} {pc : Option HandlerPc} (hget : ts.system.handlers.get number = some w)
    (hworked : w.Worked env.config ts.system.db ts.system.broker number db broker pc) :
    (ts.after (.work number) { ts.system with
      db, broker, handlers := ts.system.handlers.set number (pc.map w.goto) }).Paced
        env.config := by
  have hpaced := h.handlers number w hget
  have hbegins : ts.system.calls (.work number) = w.begins := by simp [System.calls, hget]
  have hcalls : CallsPaced env.config (ts.calls ++ w.begins.map (·, ts.now)) := by
    unfold Handler.begins
    split
    · exact h.calls.begin hpaced.due
    · simpa using h.calls
  have hsub := List.subset_append_left ts.calls (w.begins.map (·, ts.now))
  have hlater : (ts.after (.work number) { ts.system with
      db, broker, handlers := ts.system.handlers.set number (pc.map w.goto) }).calls =
        ts.calls ++ w.begins.map (·, ts.now) := by rw [← hbegins]; rfl
  refine ⟨hlater ▸ hcalls, hlater ▸ h.handlers_set hsub hget fun w' hw' => ?_, hlater ▸ ?_⟩
  · obtain ⟨pc', rfl, rfl⟩ := Option.map_eq_some_iff.mp hw'
    exact Handler.Worked.paced hpaced hworked
  · intro i m hm
    exact (Handler.Worked.broker_paced hpaced h.messages hworked i m hm).mono hsub
      (Nat.le_refl _)

/-- The step lemma for the steps of the service. -/
theorem Paced.act (h : ts.Paced env.config)
    (hreach : Reaches (System.step env) (fun _ _ => True) .initial ts.system)
    (hripe : ts.ripe env.config event = true) (hstep : ts.system.step env event = some t) :
    (ts.after event t).Paced env.config := by
  cases System.step_cases hstep with
  | requested | aborted => exact h.quiet rfl h.handlers h.messages.keep
  | posted p post db broker pc hget hworked =>
      refine h.quiet rfl h.handlers ?_
      cases hworked with
      | published saved hpc =>
          show (ts.system.broker.announce env.config saved).Paced _ _ _ _
          rw [Broker.announce_eq]
          refine h.messages.enqueue ⟨fun body c rung _ hplace => ?_, fun body hbody _ => ?_⟩
          · simp at hplace
          · obtain rfl := Except.ok.inj ((MessageBody.from_json_to_json _).symm.trans hbody)
            exact due_by_first _ _ _ _
      | _ => exact h.messages.keep
  | delivered c i m w hget hplace hchannel htag hbody hpc =>
      have hmain : ∀ d rung, m.place ≠ .queue (Topology.retryQueue d rung) := by
        simp [hplace]
      have hdue := (h.messages i m hget).due
      refine h.quiet rfl (fun number w' hget' => ?_) (Broker.Paced.keep (h.messages.set hget ?_))
      · rcases Registry.update_eq_some.mp hget' with ⟨_, heq⟩ | ⟨_, hget'⟩
        · obtain rfl := Option.some.inj heq
          exact ⟨hdue _ (hbody ▸ w.decoded) hmain, by simp [hpc], by simp [hpc],
            by simp [Handler.Retrying, hpc]⟩
        · exact h.handlers number w' hget'
      · intro m' hm'
        obtain rfl := Option.some.inj hm'
        exact ⟨by simp, fun body hread _ => hdue body hread hmain⟩
  | dropped c i m e hget hbody =>
      exact h.quiet rfl h.handlers (Broker.Paced.keep (h.messages.set hget (by simp)))
  | worked number w db broker pc hget hworked => exact h.worked hget hworked
  | sent number w row outcome hget hpc =>
      have hpaced := h.handlers number w hget
      have hcalls := h.calls.finish outcome (hpaced.sending row hpc)
      have hsub := List.subset_append_left ts.calls
        [(CallRecord.ended w.notificationId w.message.attemptNumber outcome, ts.now)]
      have hends : ts.system.calls (.send number outcome) =
          [.ended w.notificationId w.message.attemptNumber outcome] := by
        simp [System.calls, hget]
      refine ⟨?_, ?_, ?_⟩
      · simpa [after, hends] using hcalls
      · simp only [after, hends, List.map_singleton]
        refine h.handlers_set hsub hget fun w' hw' => ?_
        obtain rfl := Option.some.inj hw'
        refine ⟨hpaced.due.mono hsub (Nat.le_refl _), ?_, fun what hfail => ?_, ?_⟩
        · cases outcome <;> simp [Handler.afterSend]
        · refine ⟨what, ts.now, ?_, Nat.le_refl _⟩
          cases outcome with
          | result => simp [Handler.afterSend] at hfail
          | failure what' isTransient =>
              obtain ⟨rfl, rfl⟩ : what' = what ∧ isTransient = true := by
                simpa [Handler.afterSend] using hfail
              simp
        · cases outcome <;> simp [Handler.Retrying, Handler.afterSend]
      · intro i m hm
        simp only [after, hends, List.map_singleton]
        exact (h.messages.keep i m hm).mono hsub (Nat.le_refl _)
  | crashed number w hget =>
      exact h.quiet rfl (h.handlers_set (List.Subset.refl _) hget (by simp)) h.messages.keep
  | expired i broker hexpire =>
      obtain ⟨c, k, envelope, hget, rfl⟩ := Broker.expire_cases hexpire
      refine h.quiet rfl h.handlers (Broker.Paced.enqueue (h.messages.set hget (by simp))
        ⟨by simp, fun body hbody _ => ?_⟩)
      exact h.due_of_ripe hreach hripe hget hbody
  | requeued i broker hrequeue =>
      obtain ⟨name, consumer, envelope, hget, rfl⟩ := Broker.requeue_cases hrequeue
      refine h.quiet rfl h.handlers (Broker.Paced.keep (h.messages.set hget fun m' hm' => ?_))
      obtain rfl := Option.some.inj hm'
      refine ⟨fun body c rung hbody hplace => ?_, fun body hbody _ => ?_⟩
      · have hmessage := System.view_message_of_body hget hbody
        obtain ⟨-, d, -, hproper⟩ :=
          (System.reachable_placed hreach body.notificationId).message i _ _ hmessage
        cases hproper with
        | unacked => simp at hplace
      · exact (h.messages i _ hget).due body hbody (by simp)

/-- A step with the clock is a step of the service, or time passes. -/
theorem step_cases {event : TimedEvent} (hstep : ts.step env event = some next) :
    (∃ elapsed, event = .wait elapsed ∧ next = { ts with now := ts.now + elapsed }) ∨
      ∃ action t, event = .act action ∧ ts.ripe env.config action = true ∧
        ts.system.step env action = some t ∧ next = ts.after action t := by
  cases event with
  | wait elapsed =>
      cases hstep
      exact .inl ⟨elapsed, rfl, rfl⟩
  | act action =>
      simp only [step] at hstep
      split at hstep
      · rename_i hripe
        obtain ⟨t, ht, rfl⟩ := Option.map_eq_some_iff.mp hstep
        exact .inr ⟨action, t, rfl, hripe, ht, rfl⟩
      · exact absurd hstep (by simp)

/-- A run with the clock is a run of the service. -/
theorem run_erases {events : List TimedEvent} (hrun : run (step env) ts events = some next) :
    run (System.step env) ts.system (events.filterMap TimedEvent.action) = some next.system := by
  induction events generalizing ts with
  | nil =>
      obtain rfl := Option.some.inj hrun
      rfl
  | cons event rest ih =>
      simp only [run_cons, bind, Option.bind_eq_some_iff] at hrun
      obtain ⟨middle, hstep, hrest⟩ := hrun
      rcases step_cases hstep with ⟨elapsed, rfl, rfl⟩ | ⟨action, t, rfl, -, ht, rfl⟩
      · have hlater := ih hrest
        exact hlater
      · have hlater := ih hrest
        simp only [List.filterMap_cons, TimedEvent.action, run_cons, ht, bind, Option.bind_some]
        exact hlater

/-- The clock excludes no run: if time passes before an expiry, every run of the service can
happen. -/
theorem exists_timed_run {events : List Event}
    (hrun : run (System.step env) ts.system events = some t) :
    ∃ timed next, run (step env) ts timed = some next ∧ next.system = t ∧
      timed.filterMap TimedEvent.action = events := by
  induction events generalizing ts with
  | nil =>
      obtain rfl := Option.some.inj hrun
      exact ⟨[], ts, rfl, rfl, rfl⟩
  | cons event rest ih =>
      simp only [run_cons, bind, Option.bind_eq_some_iff] at hrun
      obtain ⟨middle, hstep, hrest⟩ := hrun
      have hripe : ∃ elapsed, ({ ts with now := ts.now + elapsed } : TimedSystem).ripe env.config
          event = true := by
        cases event with
        | expire i =>
            cases httl : ts.system.broker.ttl (.declareAll env.config) i with
            | none => exact ⟨0, by simp [ripe, httl]⟩
            | some ttl =>
                refine ⟨(ts.since i + ttl).toNat, ?_⟩
                simp only [ripe, httl, Option.all_some, decide_eq_true_eq]
                omega
        | _ => exact ⟨0, rfl⟩
      obtain ⟨elapsed, hripe⟩ := hripe
      let waited : TimedSystem := { ts with now := ts.now + elapsed }
      have hact : waited.step env (.act event) = some (waited.after event middle) := by
        have hmiddle : waited.system.step env event = some middle := hstep
        show (if waited.ripe env.config event then (waited.system.step env event).map _ else none) =
          some (waited.after event middle)
        rw [if_pos hripe, hmiddle]
        rfl
      have hrest : run (System.step env) (waited.after event middle).system rest = some t := hrest
      obtain ⟨timed, next, htimed, hnext, hactions⟩ := ih hrest
      refine ⟨.wait elapsed :: .act event :: timed, next, ?_, hnext, ?_⟩
      · rw [run_cons]
        show (run (step env) waited (.act event :: timed)) = some next
        rw [run_cons, hact]
        exact htimed
      · simp only [List.filterMap_cons, TimedEvent.action, hactions]

theorem paced_initial (config : Config) : initial.Paced config where
  calls := ⟨by simp [initial], by simp [initial]⟩
  handlers := by simp [initial, System.initial]
  messages := by simp [Broker.Paced, initial, System.initial]

/-- The run lemma. -/
theorem run_paced {events : List TimedEvent} (hrun : run (step env) initial events = some next) :
    next.Paced env.config ∧ Reaches (System.step env) (fun _ _ => True) .initial next.system := by
  induction events using List.reverseRecOn generalizing next with
  | nil =>
      obtain rfl := Option.some.inj hrun
      exact ⟨paced_initial _, .refl _⟩
  | append_singleton before event ih =>
      obtain ⟨middle, hmiddle, hstep⟩ := run_concat.mp hrun
      obtain ⟨hpaced, hreach⟩ := ih hmiddle
      rcases step_cases hstep with ⟨elapsed, rfl, rfl⟩ | ⟨action, t, rfl, hripe, ht, rfl⟩
      · have htime := Nat.le_add_right middle.now elapsed
        exact ⟨⟨hpaced.calls, fun h w hget => (hpaced.handlers h w hget).mono (by simp) htime,
          fun i m hget => (hpaced.messages i m hget).mono (by simp) htime⟩, hreach⟩
      · exact ⟨hpaced.act hreach hripe ht, .tail hreach trivial ht⟩

/-- Whatever is submitted, redelivered or dies: every router call for a later attempt begins only
after the attempt before it has failed transiently and the configured delay has passed since
that failure, and so at least the sum of the delays after the first call for the
notification. -/
theorem backoff_respected (env : Env) (events : List TimedEvent) (ts : TimedSystem)
    (hrun : run (step env) initial events = some ts) :
    (∀ n k time, (.began n k, time) ∈ ts.calls → 2 ≤ k →
      ∃ what t delay, (.ended n (k - 1) (.failure what true), t) ∈ ts.calls ∧
        env.config.retryDelaysMs[(k - 2).toNat]? = some delay ∧ (t : Int) + delay ≤ time) ∧
    ∀ n (k time : Nat), (.began n (k + 1), time) ∈ ts.calls →
      ∃ t, (.began n 1, t) ∈ ts.calls ∧
        (t : Int) + (env.config.retryDelaysMs.take k).sum ≤ time := by
  obtain ⟨hpaced, -⟩ := run_paced hrun
  refine ⟨hpaced.calls.began, fun n k time hbegan => ?_⟩
  exact (hpaced.calls.total_delay k time hbegan).2

/-- The first attempt fails at once, and its retry comes after the first delay. -/
def retriedOnce : List TimedEvent :=
  ((System.submission System.sample "id").append [.deliver .email 0, .work 0, .work 0,
    .send 0 (.failure "timeout" true), .work 0, .work 0, .work 0, .work 0]).map .act ++
      [.wait 5000, .act (.expire 1), .act (.deliver .email 2), .act (.work 1), .act (.work 1)]

theorem backoff_respected_retried_once :
    ∃ ts, run (step System.shipped) initial retriedOnce = some ts ∧
      (.began "id" 2, 5000) ∈ ts.calls ∧
      ∃ t, (.began "id" 1, t) ∈ ts.calls ∧ (t : Int) + [(5000 : Int)].sum ≤ (5000 : Nat) := by
  have hlast : (run (step System.shipped) initial retriedOnce).map (fun ts =>
      decide ((.began "id" 2, 5000) ∈ ts.calls)) = some true := by decide +kernel
  obtain ⟨ts, hrun, hbegan⟩ := Option.map_eq_some_iff.mp hlast
  have hbegan : (.began "id" 2, 5000) ∈ ts.calls := of_decide_eq_true hbegan
  exact ⟨ts, hrun, hbegan,
    (backoff_respected System.shipped retriedOnce ts hrun).2 "id" 1 5000 hbegan⟩

end TimedSystem

end NotificationDelivery
