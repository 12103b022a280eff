import NotificationDelivery.Service.Rows

/-!
# Where the notifications come from

Every row of `notifications` was inserted by a request and holds what the request asked for, a
request announces the row that is stored under its key, and a delivery hands to the router what it
has read of such a row (`deliveries_requested`).
-/

namespace NotificationDelivery

open EventMachine

/-- The notification that a delivery has read and not yet handed over. -/
def HandlerPc.reading : HandlerPc → Option Notification
  | .markProcessing n | .send n => some n
  | _ => none

namespace System

variable {env : Env} {s t : System} {event : Event} {p : Nat} {post : Post}

/-- A request that moves on keeps what it asked for, and the others stay as they are. -/
theorem kept_goto {posts : Registry Post} {q : Nat} {other : Post} (pc : PostPc)
    (hother : posts.get q = some other) (hget : posts.get p = some post) :
    ∃ later, (posts.set q (some { other with pc })).get p = some later ∧
      later.input = post.input ∧ later.uuid = post.uuid := by
  rw [Registry.get_set hother]
  by_cases hp : p = q
  · subst hp
    obtain rfl := Option.some.inj (hget.symm.trans hother)
    exact ⟨_, Function.update_self .., rfl, rfl⟩
  · exact ⟨post, by rw [Function.update_of_ne hp, hget], rfl, rfl⟩

/-- A request keeps what it asked for. -/
theorem posts_kept (hstep : s.step env event = some t) (hget : s.posts.get p = some post) :
    ∃ later, t.posts.get p = some later ∧ later.input = post.input ∧ later.uuid = post.uuid := by
  cases step_cases hstep with
  | requested input uuid =>
      refine ⟨post, ?_, rfl, rfl⟩
      show Function.update s.posts.get s.posts.next _ p = _
      rw [Function.update_of_ne (Nat.ne_of_lt (Registry.lt_next hget)), hget]
  | posted q other db broker pc hother hworked => exact kept_goto pc hother hget
  | aborted q other hother => exact kept_goto .done hother hget
  | _ => exact ⟨post, hget, rfl, rfl⟩

/-- A request asked for the notification. Its status and its count may have changed since. -/
def Requested (s : System) (n : Notification) : Prop :=
  ∃ p post, s.posts.get p = some post ∧ post.row.Evolves n

/-- What was requested stays so. -/
theorem Requested.step {n : Notification} (h : s.Requested n) (hstep : s.step env event = some t) :
    t.Requested n := by
  obtain ⟨p, post, hget, hevolves⟩ := h
  obtain ⟨later, hlater, hinput, huuid⟩ := posts_kept hstep hget
  refine ⟨p, later, hlater, ?_⟩
  rw [Post.row, hinput, huuid]
  exact hevolves

/-- An update of what was requested. -/
theorem Requested.evolves {n m : Notification} (h : s.Requested n) (hevolves : n.Evolves m) :
    s.Requested m := by
  obtain ⟨p, post, hget, hfirst⟩ := h
  exact ⟨p, post, hget, hfirst.trans hevolves⟩

/-- A request announces the stored row `id`, which it found or inserted under its key. -/
def Asked (env : Env) (s : System) (p : Nat) (id : String) : Prop :=
  ∃ post row, s.posts.get p = some post ∧ row ∈ s.db.notifications ∧ row.id = id ∧
    env.collate row.idempotencyKey = env.collate post.input.idempotencyKey

/-- It stays stored under that key. -/
theorem Asked.step {id : String} (h : s.Asked env p id) (hstep : s.step env event = some t) :
    t.Asked env p id := by
  obtain ⟨post, row, hget, hrow, hid, hkey⟩ := h
  obtain ⟨later, hlater, hinput, -⟩ := posts_kept hstep hget
  obtain ⟨new, hnew, hevolves, -⟩ := (db_grows hstep).notifications.exists_of_mem hrow
  refine ⟨later, new, hlater, hnew, ?_, ?_⟩
  · rw [hevolves]
    exact hid
  · rw [hevolves, hinput]
    exact hkey

/-- Rows, and the notifications that deliveries hold, were requested; a request that has its row
found or inserted it under its key, and so did one that has announced it; and the router was called
about stored rows only. -/
structure Sourced (env : Env) (s : System) : Prop where
  rows : ∀ row ∈ s.db.notifications, s.Requested row
  reading : ∀ h w n, s.handlers.get h = some w → w.pc.reading = some n →
    s.Requested n ∧ n.id = w.notificationId ∧ n.channel = w.channel
  saved : ∀ p post saved, s.posts.get p = some post → post.pc = .publish saved →
    s.Asked env p saved.id
  announced : ∀ id ∈ s.announced, ∃ p, s.Asked env p id
  sends : ∀ id outcome, (id, outcome) ∈ s.sends → ∃ row ∈ s.db.notifications, row.id = id

theorem sourced_initial (env : Env) : initial.Sourced env where
  rows := by simp [initial]
  reading := by simp [initial]
  saved := by simp [initial]
  announced := by simp [initial]
  sends := by simp [initial]

/-- The rows that a step leaves are those before it, evolved, and the row that a request commits. -/
theorem row_cases (hstep : s.step env event = some t) {row : Notification}
    (hrow : row ∈ t.db.notifications) : (∃ old ∈ s.db.notifications, old.Evolves row) ∨
      ∃ p post, s.posts.get p = some post ∧ row = post.row := by
  have hmodify : ∀ {id : String} {change : Notification → Notification},
      (∀ n : Notification, n.Evolves (change n)) →
      row ∈ Table.modify Notification.id id change s.db.notifications →
      ∃ old ∈ s.db.notifications, old.Evolves row := by
    intro id change hchange hmem
    obtain ⟨old, hold, rfl⟩ := List.mem_map.mp hmem
    refine ⟨old, hold, ?_⟩
    split
    · exact hchange old
    · exact .refl old
  cases step_cases hstep with
  | posted p post db broker pc hget hworked =>
      cases hworked with
      | committed =>
          rcases List.mem_append.mp hrow with hrow | hrow
          · exact .inl ⟨row, hrow, .refl row⟩
          · exact .inr ⟨p, post, hget, List.mem_singleton.mp hrow⟩
      | _ => exact .inl ⟨row, hrow, .refl row⟩
  | worked i w db broker pc hget hworked =>
      cases hworked with
      | markedProcessing | markedSent | markedDeadLettered =>
          exact .inl (hmodify (fun n => .set_status n _) hrow)
      | incrementedSuccess | incrementedRetry | incrementedDead =>
          exact .inl (hmodify .increment hrow)
      | _ => exact .inl ⟨row, hrow, .refl row⟩
  | _ => exact .inl ⟨row, hrow, .refl row⟩

/-- What a request is about to announce was saved before the step, or by it. -/
theorem publish_cases (hstep : s.step env event = some t) {saved : Notification}
    (hget : t.posts.get p = some post) (hpc : post.pc = .publish saved) :
    s.posts.get p = some post ∨
      ∃ before, s.posts.get p = some before ∧ before.input = post.input ∧
        ((saved ∈ s.db.notifications ∧
            env.collate saved.idempotencyKey = env.collate post.input.idempotencyKey) ∨
          (saved = before.row ∧ saved ∈ t.db.notifications)) := by
  cases step_cases hstep with
  | requested input uuid =>
      rcases Registry.update_eq_some.mp hget with ⟨_, heq⟩ | ⟨_, hget⟩
      · obtain rfl := Option.some.inj heq
        exact absurd hpc (by simp)
      · exact .inl hget
  | posted q other db broker pc hother hworked =>
      rw [show (_ : System).posts.get p = _ from rfl, Registry.get_set hother] at hget
      rcases Registry.update_eq_some.mp hget with ⟨rfl, heq⟩ | ⟨_, hget⟩
      · obtain rfl := Option.some.inj heq
        obtain rfl : pc = .publish saved := hpc
        refine .inr ⟨other, hother, rfl, ?_⟩
        cases hworked with
        | known _ _ hknown =>
            obtain ⟨hmem, hkey⟩ := Database.mem_of_find_key hknown
            exact .inl ⟨hmem, hkey⟩
        | committed => exact .inr ⟨rfl, by simp [Database.commitInsert]⟩
      · exact .inl hget
  | aborted q other hother =>
      rw [show (_ : System).posts.get p = _ from rfl, Registry.get_set hother] at hget
      rcases Registry.update_eq_some.mp hget with ⟨rfl, heq⟩ | ⟨_, hget⟩
      · obtain rfl := Option.some.inj heq
        exact absurd hpc (by simp)
      · exact .inl hget
  | _ => exact .inl hget

/-- A delivery that holds a notification has held it before the step, or reads it. -/
theorem reading_cases (hstep : s.step env event = some t) {h : Nat} {w : Handler}
    {n : Notification} (hget : t.handlers.get h = some w) (hreads : w.pc.reading = some n) :
    ∃ old, s.handlers.get h = some old ∧ old.toReceived = w.toReceived ∧
      (old.pc.reading = some n ∨ s.db.findById w.notificationId = some n) := by
  have hgoto : ∀ i old (pc : Option HandlerPc), s.handlers.get i = some old →
      (∀ m, (pc.bind HandlerPc.reading) = some m → old.pc.reading = some m ∨
        s.db.findById old.notificationId = some m) →
      (s.handlers.set i (pc.map old.goto)).get h = some w →
      ∃ old, s.handlers.get h = some old ∧ old.toReceived = w.toReceived ∧
        (old.pc.reading = some n ∨ s.db.findById w.notificationId = some n) := by
    intro i old pc hold hread hget
    rw [Registry.get_set hold] at hget
    rcases Registry.update_eq_some.mp hget with ⟨rfl, hmoved⟩ | ⟨-, hget⟩
    · obtain ⟨next, rfl, rfl⟩ := Option.map_eq_some_iff.mp hmoved
      exact ⟨old, hold, rfl, hread n hreads⟩
    · exact ⟨w, hget, rfl, .inl hreads⟩
  cases step_cases hstep with
  | delivered c i m fresh hm hplace hchannel htag hbody hpc =>
      rcases Registry.update_eq_some.mp hget with ⟨-, heq⟩ | ⟨-, hget⟩
      · obtain rfl := Option.some.inj heq
        rw [hpc] at hreads
        exact absurd hreads (by simp [HandlerPc.reading])
      · exact ⟨w, hget, rfl, .inl hreads⟩
  | worked i old db broker pc hold hworked =>
      refine hgoto i old pc hold (fun m hm => ?_) hget
      cases hworked with
      | found row hpc hfind hskipped =>
          obtain rfl : row = m := by simpa [HandlerPc.reading] using hm
          exact .inr hfind
      | markedProcessing row hpc =>
          obtain rfl : row = m := by simpa [HandlerPc.reading] using hm
          exact .inl (by rw [hpc]; rfl)
      | _ => exact absurd hm (by simp [HandlerPc.reading])
  | sent i old row outcome hold hpc =>
      refine hgoto i old (some (Handler.afterSend outcome)) hold (fun m hm => ?_) hget
      cases outcome <;> exact absurd hm (by simp [Handler.afterSend, HandlerPc.reading])
  | crashed i old hold => exact hgoto i old none hold (by simp) hget
  | _ => exact ⟨w, hget, rfl, .inl hreads⟩

/-- A call of the router that has ended was remembered, or a delivery ends it. -/
theorem sends_cases (hstep : s.step env event = some t) {id : String} {outcome : ProviderOutcome}
    (hmem : (id, outcome) ∈ t.sends) : (id, outcome) ∈ s.sends ∨
      ∃ h w n, s.handlers.get h = some w ∧ w.pc = .send n ∧ w.notificationId = id := by
  cases step_cases hstep with
  | sent h w n ended hget hpc =>
      rcases List.mem_append.mp hmem with hmem | hmem
      · exact .inl hmem
      · obtain ⟨rfl, -⟩ := Prod.mk.inj (List.mem_singleton.mp hmem)
        exact .inr ⟨h, w, n, hget, hpc, rfl⟩
  | _ => exact .inl hmem

/-- A notification was announced before the step, or a request announces it. -/
theorem announced_cases (hstep : s.step env event = some t) {id : String}
    (hmem : id ∈ t.announced) : id ∈ s.announced ∨
      ∃ p post saved, s.posts.get p = some post ∧ post.pc = .publish saved ∧ saved.id = id := by
  cases step_cases hstep with
  | posted p post db broker pc hget hworked =>
      change id ∈ s.announce post at hmem
      unfold announce at hmem
      split at hmem
      · rename_i saved hpc
        rcases List.mem_append.mp hmem with hmem | hmem
        · exact .inl hmem
        · exact .inr ⟨p, post, saved, hget, hpc, (List.mem_singleton.mp hmem).symm⟩
      · exact .inl hmem
  | _ => exact .inl hmem

/-- The step lemma. A delivery that reads a row finds one of its channel. -/
theorem Sourced.step (h : s.Sourced env) (hplaced : ∀ n, (s.view n).Placed env.config)
    (hstep : s.step env event = some t) : t.Sourced env where
  rows := by
    intro row hrow
    rcases row_cases hstep hrow with ⟨old, hold, hevolves⟩ | ⟨p, post, hget, rfl⟩
    · exact ((h.rows old hold).evolves hevolves).step hstep
    · have hrequested : s.Requested post.row := ⟨p, post, hget, .refl _⟩
      exact hrequested.step hstep
  reading := by
    intro i w n hget hreads
    obtain ⟨old, hold, hsame, hbefore⟩ := reading_cases hstep hget hreads
    have hid : old.notificationId = w.notificationId := by rw [hsame]
    have hchannel : old.channel = w.channel := by rw [hsame]
    rcases hbefore with hreads | hfind
    · obtain ⟨hrequested, hown, hright⟩ := h.reading i old n hold hreads
      exact ⟨hrequested.step hstep, hown.trans hid, hright.trans hchannel⟩
    · have hview : (s.view w.notificationId).handlers i = some old :=
        view_handlers.mpr ⟨hold, hid⟩
      have hplace := ((hplaced w.notificationId).handler i old hview).1
      have hright : n.channel = old.channel := by
        simpa [View.channel, view, hfind] using hplace
      exact ⟨(h.rows n (Table.mem_of_find hfind)).step hstep, Table.key_of_find hfind,
        hright.trans hchannel⟩
  saved := by
    intro p post saved hget hpc
    rcases publish_cases hstep hget hpc with hbefore | ⟨before, hbefore, hinput, hsaved⟩
    · exact (h.saved p post saved hbefore hpc).step hstep
    · rcases hsaved with ⟨hmem, hkey⟩ | ⟨rfl, hmem⟩
      · have hasked : s.Asked env p saved.id :=
          ⟨before, saved, hbefore, hmem, rfl, by rw [hinput]; exact hkey⟩
        exact hasked.step hstep
      · exact ⟨post, before.row, hget, hmem, rfl, by rw [← hinput]; rfl⟩
  announced := by
    intro id hmem
    rcases announced_cases hstep hmem with hmem | ⟨p, post, saved, hget, hpc, rfl⟩
    · obtain ⟨p, hasked⟩ := h.announced id hmem
      exact ⟨p, hasked.step hstep⟩
    · exact ⟨p, (h.saved p post saved hget hpc).step hstep⟩
  sends := by
    intro id outcome hmem
    have hstored : ∃ row ∈ s.db.notifications, row.id = id := by
      rcases sends_cases hstep hmem with hmem | ⟨i, w, n, hget, hpc, rfl⟩
      · exact h.sends id outcome hmem
      · have hview : (s.view w.notificationId).handlers i = some w :=
          view_handlers.mpr ⟨hget, rfl⟩
        obtain ⟨row, hrow, -⟩ :=
          Option.map_eq_some_iff.mp ((hplaced w.notificationId).handler i w hview).1
        exact ⟨row, Table.mem_of_find hrow, Table.key_of_find hrow⟩
    obtain ⟨row, hrow, rfl⟩ := hstored
    obtain ⟨new, hnew, hevolves, -⟩ := (db_grows hstep).notifications.exists_of_mem hrow
    exact ⟨new, hnew, by rw [hevolves]⟩

theorem reachable_sourced {allowed : System → Event → Prop}
    (hreach : Reaches (System.step env) allowed initial s) : s.Sourced env := by
  have hreached : Reaches (System.step env) allowed initial s ∧ s.Sourced env := by
    induction hreach with
    | refl => exact ⟨.refl _, sourced_initial env⟩
    | tail hbefore hallowed hstep ih =>
        exact ⟨hbefore.tail hallowed hstep, ih.2.step (reachable_placed hbefore) hstep⟩
  exact hreached.2

/-- Whatever the requests, the deliveries and the broker do: every row holds what a request asked
for, but for the status and the count; what a delivery hands to the router is such a notification,
of the channel of the delivery; the router is called about stored notifications only; and a
notification is announced only by a request with its key. -/
theorem deliveries_requested (env : Env) (s : System) (allowed : System → Event → Prop)
    (hreach : Reaches (System.step env) allowed initial s) :
    (∀ row ∈ s.db.notifications, s.Requested row) ∧
    (∀ h w n, s.handlers.get h = some w → w.pc = .send n →
      s.Requested n ∧ n.id = w.notificationId ∧ n.channel = w.channel) ∧
    (∀ id outcome, (id, outcome) ∈ s.sends → ∃ row ∈ s.db.notifications, row.id = id) ∧
    ∀ id ∈ s.announced, ∃ p, s.Asked env p id := by
  have hsourced := reachable_sourced hreach
  refine ⟨hsourced.rows, fun h w n hget hpc => ?_, hsourced.sends, hsourced.announced⟩
  exact hsourced.reading h w n hget (by rw [hpc]; rfl)

/-- A second request with the key is announced under the first id, and a worker of the channel is
about to hand the row of the first one to the router. -/
def sameKeyTwice : List Event :=
  (submission sample "id").append [.request { sample with body := "Again." } "id'", .post 1,
    .post 1, .deliver .email 0, .work 0, .work 0]

theorem deliveries_requested_same_key : ∃ s w n,
    run (System.step shipped) initial sameKeyTwice = some s ∧ s.announced = ["id", "id"] ∧
      s.handlers.get 0 = some w ∧ w.pc = .send n ∧ s.Requested n ∧ n.channel = .email ∧
      ∃ p, s.Asked shipped p "id" := by
  have hlast : ∃ s w n, run (System.step shipped) initial sameKeyTwice = some s ∧
      s.announced = ["id", "id"] ∧ s.handlers.get 0 = some w ∧ w.pc = .send n ∧
      w.channel = .email := ⟨_, _, _, rfl, rfl, rfl, rfl, rfl⟩
  obtain ⟨s, w, n, hrun, hannounced, hget, hpc, hemail⟩ := hlast
  have hreach : Reaches (System.step shipped) (fun _ _ => True) initial s :=
    .of_run (fun _ _ _ => trivial) hrun
  obtain ⟨-, hsends, -, hasked⟩ := deliveries_requested shipped s _ hreach
  obtain ⟨hrequested, -, hchannel⟩ := hsends 0 w n hget hpc
  exact ⟨s, w, n, hrun, hannounced, hget, hpc, hrequested, hchannel.trans hemail,
    hasked "id" (by simp [hannounced])⟩

end System

end NotificationDelivery
