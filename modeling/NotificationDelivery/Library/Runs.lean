import Mathlib.Data.List.Induction
import Mathlib.Logic.Relation

/-!
# Runs of an event machine

A system is an executable function `step : State → Event → Option State`: the event carries
every choice the environment makes, and `none` says that the event cannot happen in that
state. `run` performs a list of events, `Reaches` is reachability by events that a
predicate allows in the state before them, and `Visits` and `Performs` name the states
and the steps of one run. Read `Reaches.invariant` and `visits_invariant` first.
-/

namespace EventMachine

variable {State Event : Type*} (step : State → Event → Option State)

/-- Perform the events in order; the run stops at the first event that cannot happen. -/
def run : State → List Event → Option State
  | state, [] => some state
  | state, event :: rest => step state event >>= fun next => run next rest

/-- Restrict a machine to the events that a guard admits in the current state. -/
def guarded (guard : State → Event → Bool) (state : State) (event : Event) : Option State :=
  if guard state event then step state event else none

/-- `Reaches step allowed s t` says that `t` is reached from `s` by events that `allowed`
admits in the state they happen in. -/
inductive Reaches (allowed : State → Event → Prop) : State → State → Prop where
  | refl (state) : Reaches allowed state state
  | tail {start middle finish : State} {event : Event} :
      Reaches allowed start middle → allowed middle event → step middle event = some finish →
      Reaches allowed start finish

/-- The run `events` from `start` passes through `state`. -/
def Visits (start : State) (events : List Event) (state : State) : Prop :=
  ∃ before, before <+: events ∧ run step start before = some state

/-- The run `events` from `start` performs `event` in `state`. -/
def Performs (start : State) (events : List Event) (state : State) (event : Event) : Prop :=
  ∃ before, before ++ [event] <+: events ∧ run step start before = some state

/-- What the events of a run show, oldest first; `observe` says what an event shows in the state
before it. -/
def trace {Observation : Type*} (observe : State → Event → List Observation) :
    State → List Event → List Observation
  | _, [] => []
  | state, event :: rest =>
      observe state event ++
        match step state event with
        | some next => trace observe next rest
        | none => []

variable {step}

@[simp] theorem run_nil (state : State) : run step state [] = some state := rfl

theorem run_cons (state : State) (event : Event) (rest : List Event) :
    run step state (event :: rest) = step state event >>= fun next => run step next rest := rfl

/-- A run over two lists is a run over the first and then over the second. -/
theorem run_append (state : State) (first second : List Event) :
    run step state (first ++ second) = run step state first >>= fun next =>
      run step next second := by
  induction first generalizing state with
  | nil => rfl
  | cons event rest ih =>
      simp only [List.cons_append, run_cons]
      cases step state event with
      | none => rfl
      | some next => exact ih next

/-- Splits off the last event of a completed run. -/
theorem run_concat {start finish : State} {events : List Event} {event : Event} :
    run step start (events ++ [event]) = some finish ↔
      ∃ state, run step start events = some state ∧ step state event = some finish := by
  simp only [run_append, run_cons, run_nil, bind, Option.bind_eq_some_iff, Option.some.injEq,
    exists_eq_right]

/-- One more event shows one thing more. -/
theorem trace_concat {Observation : Type*} {observe : State → Event → List Observation}
    {start finish : State} {events : List Event} {event : Event}
    (hrun : run step start events = some finish) :
    trace step observe start (events ++ [event]) =
      trace step observe start events ++ observe finish event := by
  induction events generalizing start with
  | nil =>
      obtain rfl := Option.some.inj hrun
      simp only [List.nil_append, trace]
      cases step start event <;> simp
  | cons first rest ih =>
      simp only [run_cons, bind, Option.bind_eq_some_iff] at hrun
      obtain ⟨next, hstep, hrest⟩ := hrun
      simp [trace, hstep, ih hrest]

/-- If an event sets a part of the state to the value that it carries, and the other events keep it,
then that part holds the last value that was carried. -/
theorem run_last {Carried Value : Type*} {carried : Event → Option Carried} {part : State → Value}
    {value : Carried → Value}
    (hset : ∀ state event next, step state event = some next →
      part next = ((carried event).map value).getD (part state))
    {start finish : State} {events : List Event} (hrun : run step start events = some finish) :
    part finish = ((events.filterMap carried).getLast?.map value).getD (part start) := by
  induction events using List.reverseRecOn generalizing finish with
  | nil =>
      obtain rfl := Option.some.inj hrun
      rfl
  | append_singleton init event ih =>
      obtain ⟨middle, hmiddle, hstep⟩ := run_concat.mp hrun
      rw [hset _ _ _ hstep, ih hmiddle, List.filterMap_append, List.getLast?_append]
      cases hcarried : carried event with
      | none => simp [hcarried]
      | some carried => simp [hcarried]

/-- Every prefix of a completed run is completed. -/
theorem run_prefix {start finish : State} {before events : List Event}
    (hrun : run step start events = some finish) (hpre : before <+: events) :
    ∃ state, run step start before = some state := by
  obtain ⟨after, rfl⟩ := hpre
  rw [run_append] at hrun
  cases h : run step start before with
  | none => simp [h] at hrun
  | some state => exact ⟨state, rfl⟩

/-- A completed run of a guarded machine is a run of the machine. -/
theorem run_of_guarded {guard : State → Event → Bool} {start finish : State} {events : List Event}
    (hrun : run (guarded step guard) start events = some finish) :
    run step start events = some finish := by
  induction events generalizing start with
  | nil => exact hrun
  | cons event rest ih =>
      simp only [run_cons, bind, Option.bind_eq_some_iff, guarded] at hrun ⊢
      obtain ⟨next, hstep, hrest⟩ := hrun
      split at hstep
      · exact ⟨next, hstep, ih hrest⟩
      · exact absurd hstep (by simp)

/-- A step of a guarded machine is a step that the guard admits. -/
theorem guarded_eq_some {guard : State → Event → Bool} {state next : State} {event : Event} :
    guarded step guard state event = some next ↔
      guard state event = true ∧ step state event = some next := by
  unfold guarded
  split <;> simp_all

namespace Reaches

variable {allowed other : State → Event → Prop} {start middle finish : State}

/-- A single allowed step. -/
theorem single {event : Event} (hallowed : allowed start event)
    (hstep : step start event = some finish) : Reaches step allowed start finish :=
  .tail (.refl _) hallowed hstep

theorem trans (hfirst : Reaches step allowed start middle)
    (hsecond : Reaches step allowed middle finish) : Reaches step allowed start finish := by
  induction hsecond with
  | refl => exact hfirst
  | tail _ hallowed hstep ih => exact .tail ih hallowed hstep

/-- What is reached by events of one kind is reached by events of a wider kind. -/
theorem mono (hmono : ∀ state event, allowed state event → other state event)
    (h : Reaches step allowed start finish) : Reaches step other start finish := by
  induction h with
  | refl => exact .refl _
  | tail _ hallowed hstep ih => exact .tail ih (hmono _ _ hallowed) hstep

/-- A property that every allowed step preserves holds in every state reached. -/
theorem invariant {property : State → Prop}
    (hkeep : ∀ state event next, property state → allowed state event →
      step state event = some next → property next)
    (h : Reaches step allowed start finish) (hstart : property start) : property finish := by
  induction h with
  | refl => exact hstart
  | tail _ hallowed hstep ih => exact hkeep _ _ _ ih hallowed hstep

/-- The simulation rule: if every allowed step between related states is matched by steps of an
abstract relation, every state reached is related to one that the abstract relation reaches. -/
theorem simulation {Abstract : Type*} {moves : Abstract → Abstract → Prop}
    {related : State → Abstract → Prop}
    (hkeep : ∀ state event next abstract, related state abstract → allowed state event →
      step state event = some next →
      ∃ abstract', Relation.ReflTransGen moves abstract abstract' ∧ related next abstract')
    (h : Reaches step allowed start finish) {abstract : Abstract}
      (hstart : related start abstract) :
    ∃ abstract', Relation.ReflTransGen moves abstract abstract' ∧ related finish abstract' := by
  induction h with
  | refl => exact ⟨abstract, .refl, hstart⟩
  | tail _ hallowed hstep ih =>
      obtain ⟨middle, hmoves, hrelated⟩ := ih
      obtain ⟨abstract', hmore, hnext⟩ := hkeep _ _ _ _ hrelated hallowed hstep
      exact ⟨abstract', hmoves.trans hmore, hnext⟩

/-- A completed run whose events are allowed everywhere reaches its last state. -/
theorem of_run {events : List Event} (hallowed : ∀ event ∈ events, ∀ state, allowed state event)
    (hrun : run step start events = some finish) : Reaches step allowed start finish := by
  induction events generalizing start with
  | nil =>
      obtain rfl := Option.some.inj hrun
      exact .refl _
  | cons event rest ih =>
      simp only [run_cons, bind, Option.bind_eq_some_iff] at hrun
      obtain ⟨next, hstep, hrest⟩ := hrun
      exact (single (hallowed event (by simp) start) hstep).trans
        (ih (fun e he => hallowed e (by simp [he])) hrest)

/-- A completed run of the guarded machine reaches its last state by admitted events. -/
theorem of_guarded_run {guard : State → Event → Bool} {events : List Event}
    (hguard : ∀ state event, guard state event = true → allowed state event)
    (hrun : run (guarded step guard) start events = some finish) :
    Reaches step allowed start finish := by
  induction events generalizing start with
  | nil =>
      obtain rfl := Option.some.inj hrun
      exact .refl _
  | cons event rest ih =>
      simp only [run_cons, bind, Option.bind_eq_some_iff] at hrun
      obtain ⟨next, hstep, hrest⟩ := hrun
      unfold guarded at hstep
      split at hstep
      · rename_i hok
        exact (single (hguard _ _ hok) hstep).trans (ih hrest)
      · exact absurd hstep (by simp)

/-- What a guarded machine reaches is reached by admitted events. -/
theorem of_guarded {guard : State → Event → Bool}
    (h : Reaches (guarded step guard) allowed start finish) :
    Reaches step (fun state event => guard state event = true ∧ allowed state event) start
      finish := by
  induction h with
  | refl => exact .refl _
  | tail _ hallowed hstep ih =>
      obtain ⟨hguard, hstep⟩ := guarded_eq_some.mp hstep
      exact .tail ih ⟨hguard, hallowed⟩ hstep

end Reaches

section OneRun

variable {start : State} {events : List Event}

/-- A step of a run leads to a state of the run. -/
theorem Performs.visits_next {state next : State} {event : Event}
    (h : Performs step start events state event) (hstep : step state event = some next) :
    Visits step start events next := by
  obtain ⟨before, hpre, hrun⟩ := h
  exact ⟨before ++ [event], hpre, run_concat.mpr ⟨state, hrun, hstep⟩⟩

/-- A step of a run starts in a state of the run. -/
theorem Performs.visits {state : State} {event : Event}
    (h : Performs step start events state event) : Visits step start events state := by
  obtain ⟨before, hpre, hrun⟩ := h
  exact ⟨before, (List.prefix_append before [event]).trans hpre, hrun⟩

/-- A run performs events of its list. -/
theorem Performs.mem {state : State} {event : Event}
    (h : Performs step start events state event) : event ∈ events := by
  obtain ⟨before, hpre, -⟩ := h
  exact hpre.subset (by simp)

/-- The states of a run after its first step. -/
theorem Visits.cons {next state : State} {event : Event} (hstep : step start event = some next)
    (h : Visits step next events state) : Visits step start (event :: events) state := by
  obtain ⟨before, hpre, hrun⟩ := h
  refine ⟨event :: before, List.cons_prefix_cons.mpr ⟨rfl, hpre⟩, ?_⟩
  rw [run_cons, hstep]
  exact hrun

/-- Every step of a completed run leads somewhere. -/
theorem Performs.exists_next {finish state : State} {event : Event}
    (hrun : run step start events = some finish) (h : Performs step start events state event) :
    ∃ next, step state event = some next := by
  obtain ⟨before, hpre, hbefore⟩ := h
  obtain ⟨next, hnext⟩ := run_prefix hrun hpre
  obtain ⟨other, hother, hstep⟩ := run_concat.mp hnext
  obtain rfl := Option.some.inj (hbefore.symm.trans hother)
  exact ⟨next, hstep⟩

/-- After a step of a completed run the rest of the run is completed. -/
theorem Performs.exists_rest {finish state next : State} {event : Event}
    (hrun : run step start events = some finish) (h : Performs step start events state event)
    (hstep : step state event = some next) : ∃ after, run step next after = some finish := by
  obtain ⟨before, ⟨after, rfl⟩, hbefore⟩ := h
  refine ⟨after, ?_⟩
  rw [run_append, run_concat.mpr ⟨state, hbefore, hstep⟩] at hrun
  exact hrun

/-- The last state of a completed run is reached by the steps that the run performs. -/
theorem Reaches.of_performs {allowed : State → Event → Prop} {finish : State}
    (hallowed : ∀ state event, Performs step start events state event → allowed state event)
    (hrun : run step start events = some finish) : Reaches step allowed start finish := by
  induction events using List.reverseRecOn generalizing finish with
  | nil =>
      obtain rfl := Option.some.inj hrun
      exact .refl _
  | append_singleton init event ih =>
      obtain ⟨middle, hmiddle, hstep⟩ := run_concat.mp hrun
      refine .tail (ih (fun state e h => hallowed state e ?_) hmiddle) ?_ hstep
      · obtain ⟨before, hpre, hbefore⟩ := h
        exact ⟨before, hpre.trans (List.prefix_append init [event]), hbefore⟩
      · exact hallowed middle event ⟨init, List.prefix_refl _, hmiddle⟩

/-- A property of the first state that every step of this run preserves holds in every state
of this run. -/
theorem visits_invariant (property : State → Prop) (hstart : property start)
    (hkeep : ∀ state event next, Performs step start events state event → property state →
      step state event = some next → property next)
    {state : State} (h : Visits step start events state) : property state := by
  obtain ⟨before, hpre, hrun⟩ := h
  induction before using List.reverseRecOn generalizing state with
  | nil =>
      obtain rfl := Option.some.inj hrun
      exact hstart
  | append_singleton init event ih =>
      obtain ⟨middle, hmiddle, hstep⟩ := run_concat.mp hrun
      exact hkeep middle event state ⟨init, hpre, hmiddle⟩
        (ih ((List.prefix_append init [event]).trans hpre) hmiddle) hstep

end OneRun

end EventMachine
