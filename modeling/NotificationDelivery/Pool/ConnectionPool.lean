import NotificationDelivery.Config
import NotificationDelivery.Library.Runs
import NotificationDelivery.Models
import Mathlib.Logic.Function.Basic

/-!
# Threads sharing the connection pool

`ConnectionPool::acquire` and `release` (`src/Database.cpp`) and the order in which the HTTP
threads and the workers call them. `acquire` waits while `available_` is empty; a handle that
goes out of scope releases its session, also when a statement throws. Each repository method
is the list of what it does to the pool.
-/

namespace NotificationDelivery

/-- What a thread does to the pool. A `guarded` statement stands in the `try` block of
`insertWithOutbox`, whose handler rolls back before it rethrows. -/
inductive PoolOp where
  | acquire
  | statement
  | guarded
  | release
  deriving DecidableEq, Repr

/-- The methods that hold one session for one statement: `findById`, `findByIdempotencyKey`,
`list`, `markProcessing`, `markSent`, `markDeadLettered`, `incrementAttemptCount`, `record`
and `findByNotificationId`. -/
def singleStatement : List PoolOp := [.acquire, .statement, .release]

/-- `insertWithOutbox`: `findByIdempotencyKey` runs while `handle` is alive. -/
def insertWithOutboxOps (existing : Bool) : List PoolOp :=
  [.acquire] ++ singleStatement ++
    (if existing then [] else [.statement, .guarded, .guarded, .guarded]) ++ [.release]

/-- The requests that `handleConnection` tells apart, by their use of the pool. -/
inductive HttpRequest where
  | post (existing : Bool)
  | detail (found : Bool)
  | list
  | withoutDatabase
  deriving DecidableEq, Repr

def HttpRequest.ops : HttpRequest → List PoolOp
  | .post existing => insertWithOutboxOps existing
  | .detail found => singleStatement ++ (if found then singleStatement else [])
  | .list => singleStatement
  | .withoutDatabase => []

/-- The paths through `onMessage`, by their use of the pool. -/
inductive Delivery where
  | malformed
  | skipped
  | sent
  | retried
  | deadLettered
  deriving DecidableEq, Repr

def Delivery.ops : Delivery → List PoolOp
  | .malformed => []
  | .skipped => singleStatement
  | .sent =>
      singleStatement ++ singleStatement ++ singleStatement ++ singleStatement ++ singleStatement
  | .retried => singleStatement ++ singleStatement ++ singleStatement ++ singleStatement
  | .deadLettered =>
      singleStatement ++ singleStatement ++ singleStatement ++ singleStatement ++ singleStatement

/-- The threads of `HttpServer` and of `WorkerPool`. -/
inductive ThreadId where
  | http (index : Nat)
  | worker (channel : Channel) (index : Nat)
  deriving DecidableEq, Repr

/-- The threads that `HttpServer::start` and the constructor of `WorkerPool` create. -/
def ThreadId.created (config : Config) : ThreadId → Prop
  | .http index => (index : Int) < config.httpThreads
  | .worker _ index => (index : Int) < config.workersPerChannel

instance (config : Config) (thread : ThreadId) : Decidable (thread.created config) := by
  cases thread <;> unfold ThreadId.created <;> infer_instance

/-- The jobs of a thread, as operations on the pool. -/
def ThreadId.Runs : ThreadId → List PoolOp → Prop
  | .http _, ops => ∃ request : HttpRequest, ops = request.ops
  | .worker _ _, ops => ∃ delivery : Delivery, ops = delivery.ops

/-- What is left of the current job of a thread, and the sessions of its handles, the latest
first. -/
structure PoolThread where
  code : List PoolOp := []
  held : List Nat := []
  deriving DecidableEq, Repr

structure PoolState where
  available : List Nat
  threads : ThreadId → PoolThread

inductive PoolEvent where
  | request (thread : ThreadId) (request : HttpRequest)
  | delivery (thread : ThreadId) (delivery : Delivery)
  | acquire (thread : ThreadId)
  | statement (thread : ThreadId)
  | throw (thread : ThreadId)
  | release (thread : ThreadId)
  deriving DecidableEq, Repr

namespace PoolState

/-- The pool as constructed, and no job running. -/
def initial (config : Config) : PoolState where
  available := List.range config.dbPoolSize.toNat
  threads := fun _ => {}

def setThread (s : PoolState) (thread : ThreadId) (value : PoolThread) : PoolState :=
  { s with threads := Function.update s.threads thread value }

/-- The handles of a thread go out of scope, the latest first. -/
def unwinding (held : List Nat) : List PoolOp :=
  List.replicate held.length .release

/-- An idle thread starts its next job. -/
def start (config : Config) (s : PoolState) (thread : ThreadId) (ops : List PoolOp) :
    Option PoolState :=
  if thread.created config ∧ (s.threads thread).code = [] then
    some (s.setThread thread { s.threads thread with code := ops })
  else none

/-- One step of one thread. -/
def step (config : Config) (s : PoolState) : PoolEvent → Option PoolState
  | .request (.http index) request => s.start config (.http index) request.ops
  | .request (.worker _ _) _ => none
  | .delivery (.worker channel index) delivery =>
      s.start config (.worker channel index) delivery.ops
  | .delivery (.http _) _ => none
  | .acquire thread =>
      match (s.threads thread).code, s.available with
      | .acquire :: rest, session :: available =>
          some ({ s with available }.setThread thread
            { code := rest, held := session :: (s.threads thread).held })
      | _, _ => none
  | .statement thread =>
      match (s.threads thread).code with
      | .statement :: rest => some (s.setThread thread { s.threads thread with code := rest })
      | .guarded :: rest => some (s.setThread thread { s.threads thread with code := rest })
      | _ => none
  | .throw thread =>
      let unwind := unwinding (s.threads thread).held
      match (s.threads thread).code with
      | .statement :: _ => some (s.setThread thread { s.threads thread with code := unwind })
      | .guarded :: _ =>
          some (s.setThread thread { s.threads thread with code := .statement :: unwind })
      | _ => none
  | .release thread =>
      match (s.threads thread).code, (s.threads thread).held with
      | .release :: rest, session :: held =>
          some ({ s with available := s.available ++ [session] }.setThread thread
            { code := rest, held })
      | _, _ => none

/-- The thread waits in `acquire` if the pool is empty. -/
def Acquiring (s : PoolState) (thread : ThreadId) : Prop :=
  ∃ rest, (s.threads thread).code = .acquire :: rest

/-- The pool is empty and every session is held by a thread that waits in `acquire`. -/
def Deadlocked (config : Config) (s : PoolState) : Prop :=
  s.available = [] ∧ ∀ session, session < config.dbPoolSize.toNat →
    ∃ thread : ThreadId, thread.created config ∧ session ∈ (s.threads thread).held ∧
      s.Acquiring thread

@[simp] theorem set_thread_same (s : PoolState) (thread : ThreadId) (value : PoolThread) :
    (s.setThread thread value).threads thread = value := by
  simp [setThread]

theorem set_thread_other {s : PoolState} {thread other : ThreadId} {value : PoolThread}
    (h : other ≠ thread) : (s.setThread thread value).threads other = s.threads other := by
  simp [setThread, h]

/-- Everything a step can do. -/
inductive Stepped (config : Config) (s : PoolState) : PoolState → Prop where
  | started (thread : ThreadId) (ops : List PoolOp) : thread.created config → thread.Runs ops →
      (s.threads thread).code = [] →
      Stepped config s (s.setThread thread { s.threads thread with code := ops })
  | acquired (thread : ThreadId) (rest : List PoolOp) (session : Nat) (available : List Nat) :
      (s.threads thread).code = .acquire :: rest → s.available = session :: available →
      Stepped config s ({ s with available }.setThread thread
        { code := rest, held := session :: (s.threads thread).held })
  | executed (thread : ThreadId) (op : PoolOp) (rest : List PoolOp) :
      op = .statement ∨ op = .guarded → (s.threads thread).code = op :: rest →
      Stepped config s (s.setThread thread { s.threads thread with code := rest })
  | threw (thread : ThreadId) (code : List PoolOp) :
      code = unwinding (s.threads thread).held ∨
        code = .statement :: unwinding (s.threads thread).held →
      Stepped config s (s.setThread thread { s.threads thread with code })
  | released (thread : ThreadId) (rest : List PoolOp) (session : Nat) (held : List Nat) :
      (s.threads thread).code = .release :: rest → (s.threads thread).held = session :: held →
      Stepped config s ({ s with available := s.available ++ [session] }.setThread thread
        { code := rest, held })

/-- The step function does what `Stepped` says. -/
theorem step_cases {config : Config} {s t : PoolState} {event : PoolEvent}
    (h : s.step config event = some t) : Stepped config s t := by
  have hstart : ∀ (thread : ThreadId) ops, thread.Runs ops → s.start config thread ops = some t →
      Stepped config s t := by
    intro thread ops hruns hs
    simp only [start] at hs
    split at hs
    · rename_i hguard
      obtain rfl := Option.some.inj hs
      exact .started thread ops hguard.1 hruns hguard.2
    · exact absurd hs (by simp)
  cases event with
  | request thread request =>
      cases thread with
      | http index => exact hstart (.http index) request.ops ⟨request, rfl⟩ h
      | worker => exact absurd h (by simp [step])
  | delivery thread delivery =>
      cases thread with
      | http => exact absurd h (by simp [step])
      | worker channel index =>
          exact hstart (.worker channel index) delivery.ops ⟨delivery, rfl⟩ h
  | acquire thread =>
      simp only [step] at h
      split at h
      · rename_i hcode havailable
        obtain rfl := Option.some.inj h
        exact .acquired thread _ _ _ hcode havailable
      · exact absurd h (by simp)
  | statement thread =>
      simp only [step] at h
      split at h
      · rename_i rest hcode
        obtain rfl := Option.some.inj h
        exact .executed thread .statement rest (Or.inl rfl) hcode
      · rename_i rest hcode
        obtain rfl := Option.some.inj h
        exact .executed thread .guarded rest (Or.inr rfl) hcode
      · exact absurd h (by simp)
  | throw thread =>
      simp only [step] at h
      split at h
      · obtain rfl := Option.some.inj h
        exact .threw thread _ (Or.inl rfl)
      · obtain rfl := Option.some.inj h
        exact .threw thread _ (Or.inr rfl)
      · exact absurd h (by simp)
  | release thread =>
      simp only [step] at h
      split at h
      · rename_i hcode hheld
        obtain rfl := Option.some.inj h
        exact .released thread _ _ _ hcode hheld
      · exact absurd h (by simp)

end PoolState

end NotificationDelivery
