import NotificationDelivery.Service.Projection

/-!
# Runs without disturbance

Every request has a key that the tables treat as different from the keys of the earlier requests,
nothing ends early, and no message is put back. In such runs no request finds its key taken,
so every notification is announced by one request only.
-/

namespace NotificationDelivery

open EventMachine

namespace System

/-- The event is not a disturbance, and a new request brings a key of its own. -/
def undisturbed (env : Env) (s : System) : Event → Bool
  | .request input _ =>
      (List.range s.posts.next).all fun p => (s.posts.get p).all fun post =>
        env.collate post.input.idempotencyKey ≠ env.collate input.idempotencyKey
  | event => !event.disturbs

/-- The event is not a disturbance, and no two requests share a key of which one draws the id
`n`. -/
def postedOnce (env : Env) (n : String) (s : System) : Event → Bool
  | .request input uuid =>
      (List.range s.posts.next).all fun p => (s.posts.get p).all fun post =>
        (uuid ≠ n ∧ post.uuid ≠ n) ∨
          env.collate post.input.idempotencyKey ≠ env.collate input.idempotencyKey
  | event => !event.disturbs

/-- The states of undisturbed runs. -/
abbrev Undisturbed (env : Env) : System → Prop :=
  Reaches (System.step env) (fun s event => s.undisturbed env event = true) initial

/-- The requests have different keys, and every row has the key of a request that is past its
lookup. -/
structure OwnKeys (env : Env) (s : System) : Prop where
  distinct : ∀ p q post post', s.posts.get p = some post → s.posts.get q = some post' →
    env.collate post.input.idempotencyKey = env.collate post'.input.idempotencyKey → p = q
  owned : ∀ n ∈ s.db.notifications, ∃ p post, s.posts.get p = some post ∧
    env.collate post.input.idempotencyKey = env.collate n.idempotencyKey ∧
      post.pc ≠ .findByIdempotencyKey

/-- The requests that draw an id in `mine` share their keys with no other request, and every row
with such an id has the key of such a request that is past its lookup. -/
structure KeysOwned (env : Env) (mine : String → Prop) (s : System) : Prop where
  distinct : ∀ p q post post', s.posts.get p = some post → s.posts.get q = some post' →
    mine post.uuid →
    env.collate post.input.idempotencyKey = env.collate post'.input.idempotencyKey → p = q
  owned : ∀ n ∈ s.db.notifications, mine n.id → ∃ p post, s.posts.get p = some post ∧
    mine post.uuid ∧ env.collate post.input.idempotencyKey = env.collate n.idempotencyKey ∧
      post.pc ≠ .findByIdempotencyKey

variable {env : Env} {s t : System} {event : Event} {mine : String → Prop} {n : String}

theorem keys_owned_initial (env : Env) (mine : String → Prop) : initial.KeysOwned env mine where
  distinct := by simp [initial]
  owned := by simp [initial]

/-- All requests own their keys. -/
theorem own_keys_iff : s.OwnKeys env ↔ s.KeysOwned env fun _ => True := by
  constructor
  · intro h
    refine ⟨fun p q post post' hp hq _ hkey => h.distinct p q post post' hp hq hkey, ?_⟩
    intro n hn _
    obtain ⟨p, post, hget, hkey, hpc⟩ := h.owned n hn
    exact ⟨p, post, hget, trivial, hkey, hpc⟩
  · intro h
    refine ⟨fun p q post post' hp hq hkey => h.distinct p q post post' hp hq trivial hkey, ?_⟩
    intro n hn
    obtain ⟨p, post, hget, -, hkey, hpc⟩ := h.owned n hn trivial
    exact ⟨p, post, hget, hkey, hpc⟩

theorem own_keys_initial (env : Env) : initial.OwnKeys env :=
  own_keys_iff.mpr (keys_owned_initial env _)

/-- An undisturbed event disturbs nothing. -/
theorem disturbs_of_undisturbed (h : s.undisturbed env event = true) : event.disturbs = false := by
  cases event <;> simp_all [undisturbed, Event.disturbs]

/-- A request finds no row with an id in `mine` under its key. -/
theorem KeysOwned.not_meets_row (hown : s.KeysOwned env mine) (hmine : mine n) :
    ¬ s.MeetsRow env n event := by
  cases event with
  | post p =>
      intro h
      obtain ⟨post, existing, hget, hpc, hfind, hid⟩ := h
      obtain ⟨hmem, hkey⟩ := Database.mem_of_find_key hfind
      obtain ⟨q, post', hget', hmine', hkey', hpc'⟩ := hown.owned existing hmem (hid ▸ hmine)
      obtain rfl := hown.distinct q p post' post hget' hget hmine' (hkey'.trans hkey)
      obtain rfl := Option.some.inj (hget.symm.trans hget')
      exact hpc' hpc
  | _ => exact id

/-- A request finds no row under its key. -/
theorem OwnKeys.not_meets_known_key (hown : s.OwnKeys env) : ¬ s.MeetsKnownKey env event := by
  cases event with
  | post p =>
      intro h
      obtain ⟨post, existing, hget, hpc, hfind⟩ := h
      have hmeets : s.MeetsRow env existing.id (.post p) :=
        ⟨post, existing, hget, hpc, hfind, rfl⟩
      exact (own_keys_iff.mp hown).not_meets_row trivial hmeets
  | _ => exact id

/-- A delivery changes no id and no key. -/
theorem worked_keys {config : Config} {db next : Database} {broker broker' : Broker} {h : Nat}
    {w : Handler} {pc : Option HandlerPc} (hworked : w.Worked config db broker h next broker' pc) :
    ∀ n ∈ next.notifications, ∃ m ∈ db.notifications, (m.id, m.idempotencyKey) =
      (n.id, n.idempotencyKey) := by
  have hstatus : ∀ status id, ∀ n ∈ (db.setStatus status id).notifications,
      ∃ m ∈ db.notifications, (m.id, m.idempotencyKey) = (n.id, n.idempotencyKey) := by
    intro status id n hn
    unfold Database.setStatus at hn
    exact Table.exists_of_mem_modify (fun n : Notification => (n.id, n.idempotencyKey)) hn
      fun _ => rfl
  have hincrement : ∀ id, ∀ n ∈ (db.incrementAttemptCount id).notifications,
      ∃ m ∈ db.notifications, (m.id, m.idempotencyKey) = (n.id, n.idempotencyKey) := by
    intro id n hn
    unfold Database.incrementAttemptCount at hn
    exact Table.exists_of_mem_modify (fun n : Notification => (n.id, n.idempotencyKey)) hn
      fun _ => rfl
  intro n hn
  cases hworked with
  | missed | skipped | found | recordedSuccess | recordedRetry | recordedDead | publishedRetry
  | publishedDlq | acked => exact ⟨n, hn, rfl⟩
  | markedProcessing | markedSent | markedDeadLettered => exact hstatus _ _ n hn
  | incrementedSuccess | incrementedRetry | incrementedDead => exact hincrement _ n hn

/-- A request that is past its lookup keeps the keys that are owned. -/
theorem KeysOwned.set_post (hown : s.KeysOwned env mine) {p : Nat} {post : Post}
    (hget : s.posts.get p = some post) {pc : PostPc} (hpc : pc ≠ .findByIdempotencyKey)
    {db : Database} (hrows : ∀ n ∈ db.notifications, n ∈ s.db.notifications ∨
      n.id = post.uuid ∧ n.idempotencyKey = post.input.idempotencyKey)
    (broker : Broker) (announced : List String) :
    { s with db, broker, posts := s.posts.set p (some { post with pc }), announced }.KeysOwned env
      mine where
  distinct := by
    have hinput : ∀ q post', (s.posts.set p (some { post with pc })).get q = some post' →
        ∃ old, s.posts.get q = some old ∧ old.input = post'.input ∧ old.uuid = post'.uuid := by
      intro q post' hq
      rw [Registry.get_set hget] at hq
      rcases Registry.update_eq_some.mp hq with ⟨rfl, heq⟩ | ⟨_, hq⟩
      · obtain rfl := Option.some.inj heq
        exact ⟨post, hget, rfl, rfl⟩
      · exact ⟨post', hq, rfl, rfl⟩
    intro q r post₁ post₂ hq hr hmine hkey
    obtain ⟨old₁, hold₁, hinput₁, huuid₁⟩ := hinput q post₁ hq
    obtain ⟨old₂, hold₂, hinput₂, -⟩ := hinput r post₂ hr
    exact hown.distinct q r old₁ old₂ hold₁ hold₂ (huuid₁ ▸ hmine) (by rw [hinput₁, hinput₂, hkey])
  owned := by
    intro n hn hmine
    simp only [Registry.get_set hget]
    rcases hrows n hn with hn | ⟨hid, hkey⟩
    · obtain ⟨q, post', hq, hmine', hkey, hpc'⟩ := hown.owned n hn hmine
      by_cases heq : q = p
      · subst heq
        obtain rfl := Option.some.inj (hget.symm.trans hq)
        exact ⟨q, _, Function.update_self _ _ _, hmine', hkey, hpc⟩
      · exact ⟨q, post', (Function.update_of_ne heq _ _).trans hq, hmine', hkey, hpc'⟩
    · exact ⟨p, _, Function.update_self _ _ _, hid ▸ hmine, by rw [hkey], hpc⟩

/-- The step lemma. A new request with an id in `mine`, or whose key such a request has, brings a
key of its own. -/
theorem KeysOwned.step (hown : s.KeysOwned env mine)
    (hfresh : ∀ input uuid p post, event = .request input uuid → s.posts.get p = some post →
      mine uuid ∨ mine post.uuid →
      env.collate post.input.idempotencyKey ≠ env.collate input.idempotencyKey)
    (hstep : s.step env event = some t) : t.KeysOwned env mine := by
  cases step_cases hstep with
  | requested input uuid =>
      refine ⟨fun p q post post' hp hq hmine hkey => ?_, fun n hn hmine => ?_⟩
      · rcases Registry.update_eq_some.mp hp with ⟨rfl, heq⟩ | ⟨_, hp⟩
        · rcases Registry.update_eq_some.mp hq with ⟨rfl, _⟩ | ⟨_, hq⟩
          · rfl
          · obtain rfl := Option.some.inj heq
            exact absurd hkey.symm (hfresh input uuid q post' rfl hq (.inl hmine))
        · rcases Registry.update_eq_some.mp hq with ⟨_, heq⟩ | ⟨_, hq⟩
          · obtain rfl := Option.some.inj heq
            exact absurd hkey (hfresh input uuid p post rfl hp (.inr hmine))
          · exact hown.distinct p q post post' hp hq hmine hkey
      · obtain ⟨p, post, hget, hmine', hkey, hpc⟩ := hown.owned n hn hmine
        have hne : p ≠ s.posts.next := Nat.ne_of_lt (Registry.lt_next hget)
        exact ⟨p, post, (Function.update_of_ne hne _ _).trans hget, hmine', hkey, hpc⟩
  | posted p post db broker pc hget hworked =>
      cases hworked with
      | known | unknown | started | duplicate | inserted | outboxInserted | published =>
          exact hown.set_post hget (by simp) (fun n hn => .inl hn) _ _
      | committed hpc =>
          refine hown.set_post hget (by simp) (fun n hn => ?_) _ _
          rcases List.mem_append.mp hn with hn | hn
          · exact .inl hn
          · obtain rfl := List.mem_singleton.mp hn
            exact .inr ⟨rfl, rfl⟩
  | aborted p post hget => exact hown.set_post hget (by simp) (fun n hn => .inl hn) _ _
  | worked h w db broker pc hget hworked =>
      refine ⟨hown.distinct, fun n hn hmine => ?_⟩
      obtain ⟨m, hm, hsame⟩ := worked_keys hworked n hn
      obtain ⟨hid, hkey⟩ := Prod.mk.inj hsame
      rw [← hkey]
      exact hown.owned m hm (hid ▸ hmine)
  | delivered | dropped | sent | crashed | expired | requeued => exact ⟨hown.distinct, hown.owned⟩

theorem OwnKeys.step (hown : s.OwnKeys env) (hcalm : s.undisturbed env event = true)
    (hstep : s.step env event = some t) : t.OwnKeys env := by
  refine own_keys_iff.mpr ((own_keys_iff.mp hown).step ?_ hstep)
  intro input uuid p post hevent hget _
  subst hevent
  simp only [undisturbed, List.all_eq_true, List.mem_range] at hcalm
  simpa [hget] using hcalm p (Registry.lt_next hget)

/-- While `n` is posted once, no other request has the key of its request. -/
theorem KeysOwned.step_posted_once (hown : s.KeysOwned env (· = n))
    (hcalm : s.postedOnce env n event = true) (hstep : s.step env event = some t) :
    t.KeysOwned env (· = n) := by
  refine hown.step ?_ hstep
  intro input uuid p post hevent hget hmine hkey
  subst hevent
  simp only [postedOnce, List.all_eq_true, List.mem_range] at hcalm
  have hpost := hcalm p (Registry.lt_next hget)
  rw [hget] at hpost
  rcases (by simpa using hpost : (uuid ≠ n ∧ post.uuid ≠ n) ∨ _) with ⟨huuid, hpost⟩ | hne
  · exact hmine.elim huuid hpost
  · exact hne hkey

theorem disturbs_of_posted_once (h : s.postedOnce env n event = true) : event.disturbs = false := by
  cases event <;> simp_all [postedOnce, Event.disturbs]

end System

end NotificationDelivery
