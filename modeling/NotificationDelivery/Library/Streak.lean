import Mathlib.Data.List.TakeWhile

/-!
# The streak at the end of a history

A history is a list, oldest entry first; some entries reset it. `streak` is what came after
the last reset, newest entry first. A counter that restarts whenever it reaches `period`
stands at the length of the streak modulo `period`.
-/

namespace Streak

variable {Entry : Type*} (resets : Entry → Bool)

/-- The entries after the last reset, newest first. -/
def streak (history : List Entry) : List Entry :=
  history.reverse.takeWhile (fun entry => !resets entry)

/-- Some entry of the history is a reset. -/
def hasReset (history : List Entry) : Bool :=
  history.any resets

variable {resets}

/-- Nothing has happened yet. -/
theorem streak_nil : streak resets [] = [] := rfl

theorem has_reset_nil : hasReset resets [] = false := rfl

/-- A reset ends the streak. -/
theorem streak_concat_reset {history : List Entry} {entry : Entry} (h : resets entry = true) :
    streak resets (history ++ [entry]) = [] := by
  simp [streak, h]

/-- Any other entry makes the streak longer. -/
theorem streak_concat {history : List Entry} {entry : Entry} (h : resets entry = false) :
    streak resets (history ++ [entry]) = entry :: streak resets history := by
  simp [streak, h]

/-- A reset in a longer history is an old one or the last entry. -/
theorem has_reset_concat {history : List Entry} {entry : Entry} :
    hasReset resets (history ++ [entry]) = (hasReset resets history || resets entry) := by
  simp [hasReset]

/-- A counter that restarts at `period` restarts exactly when the streak fills a period. -/
theorem counter_restarts {period length : Nat} (hperiod : 0 < period)
    (h : period ≤ length % period + 1) : (length + 1) % period = 0 := by
  have hlt := Nat.mod_lt length hperiod
  have hsplit : length + 1 = period * (length / period) + period := by
    have := Nat.div_add_mod length period
    omega
  rw [hsplit, Nat.mul_add_mod, Nat.mod_self]

/-- Inside a period the counter is the length of the streak modulo the period. -/
theorem counter_advances {period length : Nat} (h : length % period + 1 < period) :
    (length + 1) % period = length % period + 1 := by
  rw [Nat.add_mod, Nat.mod_eq_of_lt (show 1 < period by omega), Nat.mod_eq_of_lt h]

/-- A streak whose length is a positive multiple of the period is not shorter than the period. -/
theorem period_le_of_mod_eq_zero {period length : Nat} (h : (length + 1) % period = 0) :
    period ≤ length + 1 :=
  Nat.le_of_dvd (Nat.succ_pos _) (Nat.dvd_of_mod_eq_zero h)

end Streak
