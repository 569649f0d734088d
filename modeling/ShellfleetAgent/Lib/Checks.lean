import Mathlib.Data.List.Basic

/-!
# Checks

A function that checks what it is given stops at the first check that fails.
If it came to an end, every check passed: one lemma for each way the checks are
put together.
-/

namespace ShellfleetAgent.Lib.Checks

variable {ε α β : Type}

theorem bind_ok {m : Except ε α} {f : α → Except ε β} {b : β} (h : m >>= f = .ok b) :
    ∃ a, m = .ok a ∧ f a = .ok b := by
  cases hm : m with
  | error e =>
      rw [hm] at h
      cases h
  | ok a =>
      rw [hm] at h
      exact ⟨a, rfl, h⟩

/-- A check, and then the rest. -/
theorem both_ok {check : Except ε Unit} {rest : Except ε β} {b : β}
    (h : (do check; rest) = .ok b) : check = .ok () ∧ rest = .ok b := by
  obtain ⟨_, hcheck, hrest⟩ := bind_ok h
  exact ⟨hcheck, hrest⟩

theorem forM_ok {f : α → Except ε Unit} {xs : List α} (h : xs.forM f = .ok ()) :
    ∀ x ∈ xs, f x = .ok () := by
  induction xs with
  | nil => nofun
  | cons x xs ih =>
      obtain ⟨hx, hxs⟩ := both_ok h
      intro y hy
      rcases List.mem_cons.mp hy with rfl | hy
      · exact hx
      · exact ih hxs y hy

theorem mapError_ok {ε' : Type} {m : Except ε α} {f : ε → ε'} {a : α}
    (h : m.mapError f = .ok a) : m = .ok a := by
  cases m with
  | error e => cases h
  | ok b =>
      cases h
      rfl

end ShellfleetAgent.Lib.Checks
