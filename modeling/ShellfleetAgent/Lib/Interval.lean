import Mathlib.Data.Nat.ModEq

/-!
# Intervals

A `tokio::time::interval` whose missed ticks are skipped: a tick is due at every multiple
of the period, and one that is served late is followed by the first multiple that is
still to come. Times are natural numbers of one unit.
-/

namespace ShellfleetAgent.Lib

structure Interval where
  period : Nat
  due : Nat
  positive : 0 < period

namespace Interval

variable {i i' : Interval} {now : Nat}

/-- `tick`, once it is due. -/
def tick (i : Interval) (now : Nat) : Option Interval :=
  if i.due ≤ now then
    some { i with due := i.due + i.period * ((now - i.due) / i.period + 1) }
  else none

theorem tick_due (h : i.tick now = some i') : i.due ≤ now := by
  unfold tick at h
  split at h
  · assumption
  · cases h

theorem tick_period (h : i.tick now = some i') : i'.period = i.period := by
  unfold tick at h
  split at h
  · cases h
    rfl
  · cases h

/-- The next tick is still to come, and within one period. -/
theorem tick_next (h : i.tick now = some i') : now < i'.due ∧ i'.due ≤ now + i.period := by
  have hdue := tick_due h
  rw [tick, if_pos hdue, Option.some.injEq] at h
  subst h
  have hdiv := Nat.div_add_mod (now - i.due) i.period
  have hmod := Nat.mod_lt (now - i.due) i.positive
  have hnext : i.period * ((now - i.due) / i.period + 1) =
      i.period * ((now - i.due) / i.period) + i.period := Nat.mul_succ ..
  show now < i.due + i.period * ((now - i.due) / i.period + 1) ∧
    i.due + i.period * ((now - i.due) / i.period + 1) ≤ now + i.period
  omega

end Interval

end ShellfleetAgent.Lib
