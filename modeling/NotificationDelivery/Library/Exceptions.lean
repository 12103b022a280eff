import Mathlib.Logic.Basic

/-!
# Exceptions over a state

Code that may throw and keeps what it did to the state before it threw. `Ends` and `Fails` say
how an action ends, and each combinator has one rule for either: the rules rewrite a statement
about a whole action to one about its calls.
-/

namespace Throwing

variable {Error State Value Result : Type}

/-- The outcome of an action and the state after it. -/
def outcome (action : ExceptT Error (StateM State) Value) (s : State) :
    Except Error Value × State :=
  action.run s

/-- The action returns a value. -/
def Ends (action : ExceptT Error (StateM State) Value) (s : State) (value : Value) (next : State) :
    Prop :=
  outcome action s = (.ok value, next)

/-- The action throws. -/
def Fails (action : ExceptT Error (StateM State) Value) (s : State) (error : Error) (next : State) :
    Prop :=
  outcome action s = (.error error, next)

variable {action first : ExceptT Error (StateM State) Value}
  {rest : Value → ExceptT Error (StateM State) Result}
  {handler : Error → ExceptT Error (StateM State) Value} {s next : State} {value : Value}
  {result : Result} {error : Error}

/-- Every action returns or throws. -/
theorem ends_or_fails (action : ExceptT Error (StateM State) Value) (s : State) :
    (∃ value next, Ends action s value next) ∨ ∃ error next, Fails action s error next := by
  cases h : outcome action s with
  | mk outcome next =>
      cases outcome with
      | ok value => exact .inl ⟨value, next, h⟩
      | error error => exact .inr ⟨error, next, h⟩

/-- An action ends in one way. -/
theorem Ends.unique {value' : Value} {next' : State} (h : Ends action s value next)
    (h' : Ends action s value' next') : value = value' ∧ next = next' := by
  have hsame := h.symm.trans h'
  simpa using hsame

/-- An action throws in one way. -/
theorem Fails.unique {error' : Error} {next' : State} (h : Fails action s error next)
    (h' : Fails action s error' next') : error = error' ∧ next = next' := by
  have hsame := h.symm.trans h'
  simpa using hsame

/-- An action that returns does not throw. -/
theorem Ends.not_fails (h : Ends action s value next) {next' : State} :
    ¬ Fails action s error next' := by
  intro h'
  have hsame := h.symm.trans h'
  simp at hsame

/-- `pure` returns its value and changes nothing. -/
@[simp] theorem ends_pure {value : Value} :
    Ends (pure value : ExceptT Error (StateM State) Value) s value' next ↔
      value = value' ∧ s = next := by
  show (Except.ok value, s) = (Except.ok value', next) ↔ _
  simp

/-- `pure` does not throw. -/
@[simp] theorem fails_pure :
    ¬ Fails (pure value : ExceptT Error (StateM State) Value) s error next := by
  intro h
  cases h

/-- `throw` does not return. -/
@[simp] theorem ends_throw :
    ¬ Ends (throw error : ExceptT Error (StateM State) Value) s value next := by
  intro h
  cases h

/-- `throw` throws its error and changes nothing. -/
@[simp] theorem fails_throw {error' : Error} :
    Fails (throw error : ExceptT Error (StateM State) Value) s error' next ↔
      error = error' ∧ s = next := by
  show (Except.error error, s) = (Except.error error', next) ↔ _
  simp

/-- A call whose outcome is given. -/
@[simp] theorem ends_lift {call : Except Error Value} :
    Ends (liftM call : ExceptT Error (StateM State) Value) s value next ↔
      call = .ok value ∧ s = next := by
  show (call, s) = (Except.ok value, next) ↔ _
  simp

/-- A call throws what its outcome says. -/
@[simp] theorem fails_lift {call : Except Error Value} :
    Fails (liftM call : ExceptT Error (StateM State) Value) s error next ↔
      call = .error error ∧ s = next := by
  show (call, s) = (Except.error error, next) ↔ _
  simp

/-- `get` returns the state. -/
@[simp] theorem ends_get {read : State} :
    Ends (get : ExceptT Error (StateM State) State) s read next ↔ s = read ∧ s = next := by
  show (Except.ok s, s) = (Except.ok read, next) ↔ _
  simp

/-- `get` does not throw. -/
@[simp] theorem fails_get : ¬ Fails (get : ExceptT Error (StateM State) State) s error next := by
  intro h
  cases h

/-- `modify` changes the state. -/
@[simp] theorem ends_modify {change : State → State} {value : PUnit} :
    Ends (modify change : ExceptT Error (StateM State) PUnit) s value next ↔ change s = next := by
  show (Except.ok PUnit.unit, change s) = (Except.ok value, next) ↔ _
  simp

/-- `modify` does not throw. -/
@[simp] theorem fails_modify {change : State → State} :
    ¬ Fails (modify change : ExceptT Error (StateM State) PUnit) s error next := by
  intro h
  cases h

/-- A sequence returns if both parts do. -/
theorem ends_bind : Ends (first >>= rest) s result next ↔
    ∃ value middle, Ends first s value middle ∧ Ends (rest value) middle result next := by
  have hrun : outcome (first >>= rest) s =
      ExceptT.bindCont rest (outcome first s).1 (outcome first s).2 := rfl
  rcases ends_or_fails first s with ⟨value, middle, hfirst⟩ | ⟨error, middle, hfirst⟩
  · have hends : Ends (first >>= rest) s result next ↔ Ends (rest value) middle result next := by
      unfold Ends
      rw [hrun, hfirst]
      rfl
    constructor
    · intro h
      exact ⟨value, middle, hfirst, hends.mp h⟩
    · intro h
      obtain ⟨value', middle', hfirst', hrest⟩ := h
      obtain ⟨rfl, rfl⟩ := hfirst.unique hfirst'
      exact hends.mpr hrest
  · constructor
    · intro h
      unfold Ends at h
      rw [hrun, hfirst] at h
      cases h
    · intro h
      obtain ⟨value', middle', hfirst', -⟩ := h
      exact absurd hfirst hfirst'.not_fails

/-- A sequence throws if its first part does, or if that returns and the second part throws. -/
theorem fails_bind : Fails (first >>= rest) s error next ↔ Fails first s error next ∨
    ∃ value middle, Ends first s value middle ∧ Fails (rest value) middle error next := by
  have hrun : outcome (first >>= rest) s =
      ExceptT.bindCont rest (outcome first s).1 (outcome first s).2 := rfl
  rcases ends_or_fails first s with ⟨value, middle, hfirst⟩ | ⟨error', middle, hfirst⟩
  · have hfails : Fails (first >>= rest) s error next ↔ Fails (rest value) middle error next := by
      unfold Fails
      rw [hrun, hfirst]
      rfl
    constructor
    · intro h
      exact .inr ⟨value, middle, hfirst, hfails.mp h⟩
    · intro h
      rcases h with hfirst' | ⟨value', middle', hfirst', hrest⟩
      · exact absurd hfirst' hfirst.not_fails
      · obtain ⟨rfl, rfl⟩ := hfirst.unique hfirst'
        exact hfails.mpr hrest
  · have hfails : Fails (first >>= rest) s error next ↔ Fails first s error next := by
      unfold Fails
      rw [hrun, hfirst]
      show (Except.error error', middle) = (Except.error error, next) ↔ _
      simp
    constructor
    · intro h
      exact .inl (hfails.mp h)
    · intro h
      rcases h with hfirst' | ⟨value', middle', hfirst', -⟩
      · exact hfails.mpr hfirst'
      · exact absurd hfirst hfirst'.not_fails

/-- The handler is not run if the body returns. -/
theorem try_of_ends (handler : Error → ExceptT Error (StateM State) Value)
    (haction : Ends action s value next) :
    outcome (tryCatch action handler) s = (.ok value, next) := by
  show (match outcome action s with
    | (caught, next) => (match caught with
      | .ok value => (pure (.ok value) : StateM State (Except Error Value))
      | .error error => handler error) next) = _
  rw [haction]
  rfl

/-- The handler goes on in the state in which the body threw. -/
theorem try_of_fails (handler : Error → ExceptT Error (StateM State) Value)
    (haction : Fails action s error next) :
    outcome (tryCatch action handler) s = outcome (handler error) next := by
  show (match outcome action s with
    | (caught, next) => (match caught with
      | .ok value => (pure (.ok value) : StateM State (Except Error Value))
      | .error error => handler error) next) = _
  rw [haction]
  rfl

/-- A `try` returns what its body returns, or what the handler returns. -/
theorem ends_try : Ends (tryCatch action handler) s value next ↔ Ends action s value next ∨
    ∃ error middle, Fails action s error middle ∧ Ends (handler error) middle value next := by
  rcases ends_or_fails action s with ⟨value', middle, haction⟩ | ⟨error, middle, haction⟩
  · have hsame := try_of_ends handler haction
    constructor
    · intro h
      obtain ⟨rfl, rfl⟩ := Ends.unique hsame h
      exact .inl haction
    · intro h
      rcases h with h | ⟨error, middle', hfails, -⟩
      · obtain ⟨rfl, rfl⟩ := haction.unique h
        exact hsame
      · exact absurd hfails haction.not_fails
  · have hsame := try_of_fails handler haction
    constructor
    · intro h
      exact .inr ⟨error, middle, haction, hsame.symm.trans h⟩
    · intro h
      rcases h with h | ⟨error', middle', hfails, h⟩
      · exact absurd haction h.not_fails
      · obtain ⟨rfl, rfl⟩ := haction.unique hfails
        exact hsame.trans h

/-- A `try` throws what its handler throws. -/
theorem fails_try : Fails (tryCatch action handler) s error next ↔
    ∃ caught middle, Fails action s caught middle ∧ Fails (handler caught) middle error next := by
  rcases ends_or_fails action s with ⟨value', middle, haction⟩ | ⟨caught, middle, haction⟩
  · have hsame := try_of_ends handler haction
    constructor
    · intro h
      exact absurd h (Ends.not_fails hsame)
    · intro h
      obtain ⟨caught, middle', hfails, -⟩ := h
      exact absurd hfails haction.not_fails
  · have hsame := try_of_fails handler haction
    constructor
    · intro h
      exact ⟨caught, middle, haction, hsame.symm.trans h⟩
    · intro h
      obtain ⟨caught', middle', hfails, h⟩ := h
      obtain ⟨rfl, rfl⟩ := haction.unique hfails
      exact hsame.trans h

/-- The action keeps `property`, also when it throws. -/
def Keeps (property : State → Prop) (action : ExceptT Error (StateM State) Value) : Prop :=
  ∀ s, property s → property (outcome action s).2

/-- If the action throws, `property` still holds. -/
def KeepsFailing (property : State → Prop) (action : ExceptT Error (StateM State) Value) : Prop :=
  ∀ s error next, property s → Fails action s error next → property next

variable {property : State → Prop}

/-- A property is kept if it is when the action returns and when it throws. -/
theorem Keeps.of_cases
    (hends : ∀ s value next, property s → Ends action s value next → property next)
    (hfails : ∀ s error next, property s → Fails action s error next → property next) :
    Keeps property action := by
  intro s hs
  rcases ends_or_fails action s with ⟨value, next, h⟩ | ⟨error, next, h⟩
  · rw [show outcome action s = _ from h]
    exact hends s value next hs h
  · rw [show outcome action s = _ from h]
    exact hfails s error next hs h

/-- What is kept holds after the action has returned. -/
theorem Keeps.ends (h : Keeps property action) (hs : property s)
    (hends : Ends action s value next) :
    property next := by
  have hnext := h s hs
  rwa [show outcome action s = _ from hends] at hnext

/-- What is kept is kept when the action throws. -/
theorem Keeps.fails (h : Keeps property action) : KeepsFailing property action := by
  intro s error next hs hfails
  have hnext := h s hs
  rwa [show outcome action s = _ from hfails] at hnext

/-- A call whose outcome is given changes nothing. -/
theorem keeps_lift {call : Except Error Value} :
    Keeps property (liftM call : ExceptT Error (StateM State) Value) := fun _ hs => hs

/-- Reading the state changes nothing. -/
theorem keeps_get : Keeps property (get : ExceptT Error (StateM State) State) := fun _ hs => hs

/-- A sequence keeps what both parts keep. -/
theorem keeps_bind (hfirst : Keeps property first) (hrest : ∀ value, Keeps property (rest value)) :
    Keeps property (first >>= rest) := by
  refine .of_cases (fun s value next hs hends => ?_) fun s error next hs hfails => ?_
  · obtain ⟨_, middle, hmiddle, hends⟩ := ends_bind.mp hends
    exact (hrest _).ends (hfirst.ends hs hmiddle) hends
  · rcases fails_bind.mp hfails with hfails | ⟨_, middle, hmiddle, hfails⟩
    · exact hfirst.fails s error next hs hfails
    · exact (hrest _).fails middle error next (hfirst.ends hs hmiddle) hfails

/-- What comes before the last part has to keep the property, the last part only if it throws. -/
theorem keeps_failing_bind (hfirst : Keeps property first)
    (hrest : ∀ value, KeepsFailing property (rest value)) :
    KeepsFailing property (first >>= rest) := by
  intro s error next hs hfails
  rcases fails_bind.mp hfails with hfails | ⟨_, middle, hmiddle, hfails⟩
  · exact hfirst.fails s error next hs hfails
  · exact hrest _ middle error next (hfirst.ends hs hmiddle) hfails

/-- A `try` keeps what its body and its handler keep when they throw. -/
theorem keeps_failing_try (haction : KeepsFailing property action)
    (hhandler : ∀ error, KeepsFailing property (handler error)) :
    KeepsFailing property (tryCatch action handler) := by
  intro s error next hs hfails
  obtain ⟨caught, middle, hcaught, hfails⟩ := fails_try.mp hfails
  exact hhandler caught middle error next (haction s caught middle hs hcaught) hfails

end Throwing
