import NotificationDelivery.Library.Registry
import NotificationDelivery.Library.Runs

/-!
# Potentials

A potential bounds the work that a machine has left: every event pays its cost out of the
potential, and some events bring credit. `run_potential` adds this up over a run. The
potential of a registry is the sum of the weights of its entries, and `weigh_insert` and
`weigh_set` say how the two operations change it.
-/

namespace EventMachine

variable {State Event : Type*} {step : State → Event → Option State}

/-- What the events of a list amount to together. -/
def total (amount : Event → Nat) : List Event → Nat
  | [] => 0
  | event :: rest => amount event + total amount rest

variable {amount : Event → Nat} {event : Event} {events rest : List Event}

@[simp] theorem total_nil : total amount [] = 0 := rfl

@[simp] theorem total_cons : total amount (event :: rest) = amount event + total amount rest :=
  rfl

@[simp] theorem total_append :
    total amount (events ++ rest) = total amount events + total amount rest := by
  induction events with
  | nil => simp
  | cons event events ih =>
      rw [List.cons_append, total_cons, total_cons, ih]
      omega

/-- The order does not matter. -/
theorem total_perm (h : events.Perm rest) : total amount events = total amount rest := by
  induction h with
  | nil => rfl
  | cons event _ ih => rw [total_cons, total_cons, ih]
  | swap first second events =>
      simp only [total_cons]
      omega
  | trans _ _ hfirst hsecond => exact hfirst.trans hsecond

/-- If the events that are counted have one amount, they are what the total is made of. -/
theorem total_countP (counted : Event → Bool) (each : Nat) (events : List Event) :
    total (fun event => if counted event then each else 0) events =
      each * events.countP counted := by
  induction events with
  | nil => rfl
  | cons event rest ih =>
      rw [total_cons, ih, List.countP_cons]
      cases counted event with
      | false => simp
      | true => simp [Nat.mul_add, Nat.add_comm]

/-- The amounts of two kinds of events add up. -/
theorem total_add (first second : Event → Nat) (events : List Event) :
    total (fun event => first event + second event) events =
      total first events + total second events := by
  induction events with
  | nil => rfl
  | cons event rest ih =>
      simp only [total_cons, ih]
      omega

/-- How often an event happens in a run in a state in which it counts. -/
def occurrences (step : State → Event → Option State) (counted : State → Event → Bool) :
    State → List Event → Nat
  | _, [] => 0
  | state, event :: rest => (if counted state event then 1 else 0) +
      match step state event with
      | some next => occurrences step counted next rest
      | none => 0

/-- If a step raises a potential by at most `price` if its event counts, and not at all if it does
not, then a run raises it by at most `price` for each occurrence. -/
theorem run_occurrences (potential : State → Nat) (counted : State → Event → Bool) (price : Nat)
    {invariant : State → Prop}
    (hkeep : ∀ state event next, invariant state → step state event = some next → invariant next)
    (hraise : ∀ state event next, invariant state → step state event = some next →
      potential next ≤ potential state + if counted state event then price else 0)
    {start finish : State} (hrun : run step start events = some finish)
    (hstart : invariant start) :
    potential finish ≤ potential start + price * occurrences step counted start events := by
  induction events generalizing start with
  | nil =>
      obtain rfl := Option.some.inj hrun
      exact Nat.le_add_right _ _
  | cons event rest ih =>
      simp only [run_cons, bind, Option.bind_eq_some_iff] at hrun
      obtain ⟨next, hstep, hrest⟩ := hrun
      have hhead := hraise start event next hstart hstep
      have htail := ih hrest (hkeep start event next hstart hstep)
      simp only [occurrences, hstep, Nat.mul_add]
      split at hhead
      · simp only [*, if_true, Nat.mul_one]
        omega
      · simp only [*, Bool.false_eq_true, if_false, Nat.mul_zero]
        omega

/-- If every step from a state with the invariant pays its cost out of the potential before it and
the credit of its event, then a run costs at most the potential it starts with and the
credits of its events. -/
theorem run_potential (potential : State → Nat) {cost credit : Event → Nat}
    {invariant : State → Prop}
    (hkeep : ∀ state event next, invariant state → step state event = some next → invariant next)
    (hpay : ∀ state event next, invariant state → step state event = some next →
      potential next + cost event ≤ potential state + credit event)
    {start finish : State} (hrun : run step start events = some finish)
    (hstart : invariant start) :
    potential finish + total cost events ≤ potential start + total credit events := by
  induction events generalizing start with
  | nil =>
      obtain rfl := Option.some.inj hrun
      exact Nat.le_refl _
  | cons event rest ih =>
      simp only [run_cons, bind, Option.bind_eq_some_iff] at hrun
      obtain ⟨next, hstep, hrest⟩ := hrun
      have hhead := hpay start event next hstart hstep
      have htail := ih hrest (hkeep start event next hstart hstep)
      simp only [total_cons]
      omega

/-- A machine whose admitted steps lower a potential comes to rest: from every state it reaches one
in which no admitted event can happen, in at most as many steps as the potential says. -/
theorem runs_down (potential : State → Nat) (admitted : Event → Bool) {invariant : State → Prop}
    (hkeep : ∀ state event next, invariant state → admitted event = true →
      step state event = some next → invariant next)
    (hpay : ∀ state event next, invariant state → admitted event = true →
      step state event = some next → potential next < potential state)
    (start : State) (hstart : invariant start) : ∃ events finish,
      run step start events = some finish ∧ (∀ event ∈ events, admitted event = true) ∧
        events.length ≤ potential start ∧
        ∀ event, admitted event = true → step finish event = none := by
  induction hpotential : potential start using Nat.strong_induction_on generalizing start with
  | _ fuel ih =>
      subst hpotential
      by_cases hmove : ∃ event next, admitted event = true ∧ step start event = some next
      · obtain ⟨event, next, hadmitted, hstep⟩ := hmove
        have hless := hpay start event next hstart hadmitted hstep
        obtain ⟨events, finish, hrun, hall, hlength, hrest⟩ :=
          ih _ hless next (hkeep start event next hstart hadmitted hstep) rfl
        refine ⟨event :: events, finish, ?_, ?_, ?_, hrest⟩
        · rw [run_cons, hstep]
          exact hrun
        · simpa [hadmitted] using hall
        · simp only [List.length_cons]
          omega
      · refine ⟨[], start, rfl, by simp, Nat.zero_le _, fun event hadmitted => ?_⟩
        by_contra hne
        obtain ⟨next, hstep⟩ := Option.ne_none_iff_exists'.mp hne
        exact hmove ⟨event, next, hadmitted, hstep⟩

end EventMachine

namespace Registry

variable {Entry : Type*} {r : Registry Entry} {number : Nat} {entry : Entry}
  {value : Option Entry} {weight : Entry → Nat}

/-- The weights of all entries together. -/
def weigh (r : Registry Entry) (weight : Entry → Nat) : Nat :=
  EventMachine.total id (r.collect fun entry => some (weight entry))

@[simp] theorem weigh_empty : (empty : Registry Entry).weigh weight = 0 := rfl

@[simp] theorem weigh_insert : (r.insert entry).weigh weight = r.weigh weight + weight entry := by
  simp [weigh, collect_insert]

/-- The weight of the old entry makes way for the weight of the new one. -/
theorem weigh_set (weight : Entry → Nat) (value : Option Entry) (h : r.get number = some entry) :
    (r.set number value).weigh weight + weight entry =
      r.weigh weight + (value.map weight).getD 0 := by
  let part (entry : Entry) : Option Nat := some (weight entry)
  have hperm : ((part entry).toList ++ (r.set number value).collect part).Perm
      ((value.bind part).toList ++ r.collect part) := collect_set h
  have hsum : EventMachine.total id _ = EventMachine.total id _ := EventMachine.total_perm hperm
  dsimp only [part] at hsum
  cases value with
  | none =>
      simp only [Option.toList_some, EventMachine.total_append, EventMachine.total_cons,
        EventMachine.total_nil, Option.bind_none, Option.toList_none, List.nil_append, id] at hsum
      simp only [weigh, Option.map_none, Option.getD_none]
      omega
  | some new =>
      simp only [Option.toList_some, EventMachine.total_append, EventMachine.total_cons,
        EventMachine.total_nil, Option.bind_some, id] at hsum
      simp only [weigh, Option.map_some, Option.getD_some]
      omega

end Registry
