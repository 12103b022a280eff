import Mathlib.Logic.Relation
import NotificationDelivery.Library.Exceptions

/-!
# Machines that execute an action

A machine with program points takes the parts of an action one at a time. `Executes` is a triple for
it: from a point before the action, the machine gets by its own steps to the state in which the
action returns or throws, at a point after it. Each combinator has one rule.
-/

namespace Throwing

variable {Error State Value Result Point Config : Type}

/-- From a point that `before` admits, the machine gets to where the action returns, at a point that
`ends` admits, and to where it throws, at a point that `fails` admits. `shown` is what the machine
sees of a state. -/
def Executes (moves : Config → Config → Prop) (shown : State → Point → Config)
    (before : State → Point → Prop) (action : ExceptT Error (StateM State) Value)
    (ends : Value → State → Point → Prop) (fails : Error → State → Point → Prop) : Prop :=
  ∀ s p, before s p →
    (∀ value next, Ends action s value next →
      ∃ q, Relation.ReflTransGen moves (shown s p) (shown next q) ∧ ends value next q) ∧
    ∀ error next, Fails action s error next →
      ∃ q, Relation.ReflTransGen moves (shown s p) (shown next q) ∧ fails error next q

variable {moves : Config → Config → Prop} {shown : State → Point → Config}
  {before middle : State → Point → Prop} {action first : ExceptT Error (StateM State) Value}
  {rest : Value → ExceptT Error (StateM State) Result}
  {handler : Error → ExceptT Error (StateM State) Value}
  {ends after : Value → State → Point → Prop} {result : Result → State → Point → Prop}
  {fails caught : Error → State → Point → Prop}

/-- The machine may move before the action begins. -/
theorem executes_of_moves (hmoves : ∀ s p, before s p →
      ∃ q, Relation.ReflTransGen moves (shown s p) (shown s q) ∧ middle s q)
    (h : Executes moves shown middle action ends fails) :
    Executes moves shown before action ends fails := by
  intro s p hp
  obtain ⟨q, hsteps, hq⟩ := hmoves s p hp
  refine ⟨fun value next hends => ?_, fun error next hfails => ?_⟩
  · obtain ⟨r, hmore, hr⟩ := (h s q hq).1 value next hends
    exact ⟨r, hsteps.trans hmore, hr⟩
  · obtain ⟨r, hmore, hr⟩ := (h s q hq).2 error next hfails
    exact ⟨r, hsteps.trans hmore, hr⟩

/-- The machine moves on where a call returns, and stays where it throws. -/
theorem executes_lift {call : Except Error Value}
    (hends : ∀ value s p, call = .ok value → before s p →
      ∃ q, Relation.ReflTransGen moves (shown s p) (shown s q) ∧ ends value s q)
    (hfails : ∀ error s p, call = .error error → before s p → fails error s p) :
    Executes moves shown before (liftM call : ExceptT Error (StateM State) Value) ends fails := by
  intro s p hp
  refine ⟨fun value next h => ?_, fun error next h => ?_⟩
  · obtain ⟨hcall, rfl⟩ := ends_lift.mp h
    exact hends value s p hcall hp
  · obtain ⟨hcall, rfl⟩ := fails_lift.mp h
    exact ⟨p, .refl, hfails error s p hcall hp⟩

/-- A call that the machine has no step for. -/
theorem executes_unseen {call : Except Error Value}
    (hfails : ∀ error s p, call = .error error → before s p → fails error s p) :
    Executes moves shown before (liftM call : ExceptT Error (StateM State) Value)
      (fun _ => before) fails :=
  executes_lift (fun _ _ p _ hp => ⟨p, .refl, hp⟩) hfails

/-- Returning a value needs no step. -/
theorem executes_pure {value : Value} (hends : ∀ s p, before s p → ends value s p) :
    Executes moves shown before (pure value : ExceptT Error (StateM State) Value) ends fails := by
  intro s p hp
  refine ⟨fun other next h => ?_, fun error next h => absurd h fails_pure⟩
  obtain ⟨rfl, rfl⟩ := ends_pure.mp h
  exact ⟨p, .refl, hends s p hp⟩

/-- Reading the state needs no step. -/
theorem executes_get : Executes moves shown before (get : ExceptT Error (StateM State) State)
    (fun read s p => s = read ∧ before s p) fails := by
  intro s p hp
  refine ⟨fun read next h => ?_, fun error next h => absurd h fails_get⟩
  obtain ⟨hread, rfl⟩ := ends_get.mp h
  exact ⟨p, .refl, hread, hp⟩

/-- Throwing needs no step. -/
theorem executes_throw {error : Error} (hfails : ∀ s p, before s p → fails error s p) :
    Executes moves shown before (throw error : ExceptT Error (StateM State) Value) ends fails := by
  intro s p hp
  refine ⟨fun value next h => absurd h ends_throw, fun other next h => ?_⟩
  obtain ⟨rfl, rfl⟩ := fails_throw.mp h
  exact ⟨p, .refl, hfails s p hp⟩

/-- The machine changes the state as the action does. -/
theorem executes_modify {change : State → State} {done : PUnit → State → Point → Prop}
    (hmoves : ∀ s p, before s p →
      ∃ q, Relation.ReflTransGen moves (shown s p) (shown (change s) q) ∧ done ⟨⟩ (change s) q) :
    Executes moves shown before (modify change : ExceptT Error (StateM State) PUnit) done fails := by
  intro s p hp
  refine ⟨fun value next h => ?_, fun error next h => absurd h fails_modify⟩
  obtain rfl := ends_modify.mp h
  exact hmoves s p hp

/-- The parts of a sequence are executed one after the other. -/
theorem executes_bind (hfirst : Executes moves shown before first after fails)
    (hrest : ∀ value, Executes moves shown (after value) (rest value) result fails) :
    Executes moves shown before (first >>= rest) result fails := by
  intro s p hp
  refine ⟨fun value next h => ?_, fun error next h => ?_⟩
  · obtain ⟨between, state, hbetween, hends⟩ := ends_bind.mp h
    obtain ⟨q, hsteps, hq⟩ := (hfirst s p hp).1 between state hbetween
    obtain ⟨r, hmore, hr⟩ := (hrest between state q hq).1 value next hends
    exact ⟨r, hsteps.trans hmore, hr⟩
  · rcases fails_bind.mp h with h | ⟨between, state, hbetween, hfails⟩
    · exact (hfirst s p hp).2 error next h
    · obtain ⟨q, hsteps, hq⟩ := (hfirst s p hp).1 between state hbetween
      obtain ⟨r, hmore, hr⟩ := (hrest between state q hq).2 error next hfails
      exact ⟨r, hsteps.trans hmore, hr⟩

/-- The handler is executed from where the body threw. -/
theorem executes_try (haction : Executes moves shown before action ends caught)
    (hhandler : ∀ error, Executes moves shown (caught error) (handler error) ends fails) :
    Executes moves shown before (tryCatch action handler) ends fails := by
  intro s p hp
  refine ⟨fun value next h => ?_, fun error next h => ?_⟩
  · rcases ends_try.mp h with h | ⟨error, state, hcaught, hends⟩
    · exact (haction s p hp).1 value next h
    · obtain ⟨q, hsteps, hq⟩ := (haction s p hp).2 error state hcaught
      obtain ⟨r, hmore, hr⟩ := (hhandler error state q hq).1 value next hends
      exact ⟨r, hsteps.trans hmore, hr⟩
  · obtain ⟨between, state, hcaught, hfails⟩ := fails_try.mp h
    obtain ⟨q, hsteps, hq⟩ := (haction s p hp).2 between state hcaught
    obtain ⟨r, hmore, hr⟩ := (hhandler between state q hq).2 error next hfails
    exact ⟨r, hsteps.trans hmore, hr⟩

end Throwing
