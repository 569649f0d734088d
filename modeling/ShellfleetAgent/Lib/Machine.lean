import Mathlib.Logic.Basic

/-!
# Guarded transition machines

A machine is an executable, guarded step function: `step s i` is `some s'`
when the label `i` is enabled in `s`. Every choice the world makes is in the
label, so a concrete run can be replayed by evaluation and a claim about every
run is a claim about every list of labels.

`Reach ok` is reachability along steps that all meet `ok`. The unguarded
notion is `ok := fun _ _ => True`, and a result about "every run whose steps
meet a condition" is a result about `Reach` at that condition, so one
induction serves both.
-/

namespace ShellfleetAgent.Lib

/-- Initial states and a guarded step function. -/
structure Machine (σ ι : Type) where
  init : σ → Prop
  step : σ → ι → Option σ

namespace Machine

variable {σ ι : Type} {M : Machine σ ι} {ok ok' : σ → ι → Prop}

/-- The states reached along steps that all meet `ok`. -/
inductive Reach (M : Machine σ ι) (ok : σ → ι → Prop) : σ → Prop
  | init {s : σ} (h : M.init s) : Reach M ok s
  | step {s s' : σ} {i : ι} (hr : Reach M ok s) (hok : ok s i)
      (hs : M.step s i = some s') : Reach M ok s'

/-- The states reached along any steps at all. -/
abbrev Reachable (M : Machine σ ι) : σ → Prop := M.Reach fun _ _ => True

theorem Reach.mono {s : σ} (hr : M.Reach ok s) (h : ∀ s i, ok s i → ok' s i) :
    M.Reach ok' s := by
  induction hr with
  | init h0 => exact .init h0
  | step _ hok hs ih => exact .step ih (h _ _ hok) hs

theorem Reach.reachable {s : σ} (hr : M.Reach ok s) : M.Reachable s :=
  hr.mono fun _ _ _ => trivial

theorem Reach.mono_reachable {s : σ} (hr : M.Reach ok s)
    (h : ∀ s i, M.Reachable s → ok s i → ok' s i) : M.Reach ok' s := by
  induction hr with
  | init h0 => exact .init h0
  | step hr hok hs ih => exact .step ih (h _ _ hr.reachable hok) hs

/-- The induction every safety result here is an instance of. The step premise
may use that the state before the step was itself reached. -/
theorem Reach.invariant {I : σ → Prop} (h0 : ∀ s, M.init s → I s)
    (hstep : ∀ s i s', M.Reach ok s → I s → ok s i → M.step s i = some s' → I s')
    {s : σ} (hr : M.Reach ok s) : I s := by
  induction hr with
  | init h => exact h0 _ h
  | step hr hok hs ih => exact hstep _ _ _ hr ih hok hs

/-- What every step keeps as long as a flag that stays up is down. -/
theorem Reach.invariant_until {I : σ → Prop} {f : σ → Bool} (h0 : ∀ s, M.init s → I s)
    (hstays : ∀ s i s', M.step s i = some s' → f s = true → f s' = true)
    (hstep : ∀ s i s', f s = false → I s → ok s i → M.step s i = some s' → I s')
    {s : σ} (hr : M.Reach ok s) : f s = true ∨ I s := by
  refine hr.invariant (I := fun s => f s = true ∨ I s) (fun s h => .inr (h0 s h)) ?_
  intro s i s' _ hI hok hs
  cases hflag : f s with
  | true => exact .inl (hstays s i s' hs hflag)
  | false =>
      rcases hI with h | h
      · rw [hflag] at h
        cases h
      · exact .inr (hstep s i s' hflag h hok hs)

/-! ## Replaying a list of labels -/

/-- Replay, stopping at the first label that is not enabled. -/
def run (M : Machine σ ι) (s : σ) : List ι → Option σ
  | [] => some s
  | i :: is => (M.step s i).bind fun s' => M.run s' is

theorem run_append {s : σ} {is js : List ι} :
    M.run s (is ++ js) = (M.run s is).bind fun s' => M.run s' js := by
  induction is generalizing s with
  | nil => rfl
  | cons i is ih =>
      rw [List.cons_append]
      simp only [Machine.run]
      cases M.step s i with
      | none => rfl
      | some s₁ => exact ih

/-- Replay, stopping also at the first step that does not meet `ok`. -/
def runWithin (M : Machine σ ι) (ok : σ → ι → Prop)
    [∀ s i, Decidable (ok s i)] (s : σ) : List ι → Option σ
  | [] => some s
  | i :: is =>
      if ok s i then (M.step s i).bind fun s' => M.runWithin ok s' is else none

/-- A replay may be checked against less than what its steps are to meet. -/
theorem Reach.runWithin_mono [∀ s i, Decidable (ok' s i)] {s s' : σ} (hr : M.Reach ok s)
    (hok : ∀ s i, ok' s i → ok s i) {is : List ι} (h : M.runWithin ok' s is = some s') :
    M.Reach ok s' := by
  induction is generalizing s with
  | nil =>
      simp only [Machine.runWithin, Option.some.injEq] at h
      exact h ▸ hr
  | cons i is ih =>
      simp only [Machine.runWithin] at h
      split at h
      · next hok' =>
          cases hs : M.step s i with
          | none => simp [hs] at h
          | some s₁ =>
              rw [hs, Option.bind_some] at h
              exact ih (.step hr (hok s i hok') hs) h
      · cases h

theorem Reach.runWithin [∀ s i, Decidable (ok s i)] {s s' : σ} (hr : M.Reach ok s)
    {is : List ι} (h : M.runWithin ok s is = some s') : M.Reach ok s' :=
  hr.runWithin_mono (fun _ _ hok => hok) h

theorem Reach.run {s s' : σ} (hr : M.Reachable s) {is : List ι}
    (h : M.run s is = some s') : M.Reachable s' := by
  induction is generalizing s with
  | nil =>
      simp only [Machine.run, Option.some.injEq] at h
      exact h ▸ hr
  | cons i is ih =>
      simp only [Machine.run] at h
      cases hs : M.step s i with
      | none => simp [hs] at h
      | some s₁ =>
          rw [hs, Option.bind_some] at h
          exact ih (.step hr trivial hs) h

section Seen

/-! What was seen of the state a replay ends in, twice, and of the state after
one more step. -/

variable {α β γ : Type} {f : σ → α} {g : σ → β} {k : σ → γ} {a : α} {b : β} {c : γ}
  {s₀ : σ} {is : List ι} {next : σ → Option σ}

theorem seen_inv {replay : Option σ}
    (h : (replay.bind fun s => (next s).map fun s' => (f s, g s, k s')) = some (a, b, c)) :
    ∃ s s', replay = some s ∧ next s = some s' ∧ f s = a ∧ g s = b ∧ k s' = c := by
  obtain ⟨s, hs, h⟩ := Option.bind_eq_some_iff.mp h
  obtain ⟨s', hs', hseen⟩ := Option.map_eq_some_iff.mp h
  obtain ⟨hf, hseen⟩ := Prod.mk.inj hseen
  obtain ⟨hg, hk⟩ := Prod.mk.inj hseen
  exact ⟨s, s', hs, hs', hf, hg, hk⟩

theorem run_seen (h : ((M.run s₀ is).bind fun s =>
      (next s).map fun s' => (f s, g s, k s')) = some (a, b, c)) (hr : M.Reachable s₀) :
    ∃ s s', M.Reachable s ∧ next s = some s' ∧ f s = a ∧ g s = b ∧ k s' = c := by
  obtain ⟨s, s', hs, hseen⟩ := seen_inv h
  exact ⟨s, s', hr.run hs, hseen⟩

theorem runWithin_seen [∀ s i, Decidable (ok s i)] (h : ((M.runWithin ok s₀ is).bind fun s =>
      (next s).map fun s' => (f s, g s, k s')) = some (a, b, c)) (hr : M.Reach ok s₀) :
    ∃ s s', M.Reach ok s ∧ next s = some s' ∧ f s = a ∧ g s = b ∧ k s' = c := by
  obtain ⟨s, s', hs, hseen⟩ := seen_inv h
  exact ⟨s, s', hr.runWithin hs, hseen⟩

end Seen

/-- A two-state relation kept by every step out of a reached state is kept by
every run out of one. -/
theorem Reach.run_rel {R : σ → σ → Prop} (hrefl : ∀ s, R s s)
    (htrans : ∀ s₁ s₂ s₃, R s₁ s₂ → R s₂ s₃ → R s₁ s₃)
    (hstep : ∀ s i s', M.Reachable s → M.step s i = some s' → R s s') {s s' : σ}
    (hr : M.Reachable s) {is : List ι} (h : M.run s is = some s') : R s s' := by
  induction is generalizing s with
  | nil =>
      simp only [Machine.run, Option.some.injEq] at h
      exact h ▸ hrefl s
  | cons i is ih =>
      simp only [Machine.run] at h
      cases hs : M.step s i with
      | none => simp [hs] at h
      | some s₁ =>
          rw [hs, Option.bind_some] at h
          exact htrans _ _ _ (hstep _ _ _ hr hs) (ih (.step hr trivial hs) h)

/-- What is so at the end of a replay was so at its start, or comes from one of its labels. -/
theorem run_origin {P : σ → Prop} {E : ι → Prop}
    (hstep : ∀ s i s', M.step s i = some s' → P s' → P s ∨ E i) {s s' : σ} {is : List ι}
    (h : M.run s is = some s') (hP : P s') : P s ∨ ∃ i ∈ is, E i := by
  induction is generalizing s with
  | nil =>
      simp only [Machine.run, Option.some.injEq] at h
      exact .inl (h ▸ hP)
  | cons i is ih =>
      simp only [Machine.run] at h
      cases hs : M.step s i with
      | none => simp [hs] at h
      | some s₁ =>
          rw [hs, Option.bind_some] at h
          cases ih h with
          | inl hP₁ =>
              exact (hstep _ _ _ hs hP₁).imp id fun hi => ⟨i, List.mem_cons_self .., hi⟩
          | inr hlater =>
              obtain ⟨j, hj, hE⟩ := hlater
              exact .inr ⟨j, List.mem_cons_of_mem _ hj, hE⟩

/-- What is so of the labels so far and the state they led to, kept label by label. -/
theorem run_history {I : List ι → σ → Prop}
    (hstep : ∀ is s i s', I is s → M.step s i = some s' → I (is ++ [i]) s') {before : List ι}
    {s s' : σ} {is : List ι} (hI : I before s) (h : M.run s is = some s') :
    I (before ++ is) s' := by
  induction is generalizing before s with
  | nil =>
      simp only [Machine.run, Option.some.injEq] at h
      rw [List.append_nil]
      exact h ▸ hI
  | cons i is ih =>
      simp only [Machine.run] at h
      cases hs : M.step s i with
      | none => simp [hs] at h
      | some s₁ =>
          rw [hs, Option.bind_some] at h
          rw [List.append_cons]
          exact ih (hstep _ _ _ _ hI hs) h

/-- A replay is no longer than the work `W` that each of its steps takes away from. -/
theorem run_length_le {W : σ → Nat} (hstep : ∀ s i s', M.step s i = some s' → W s' < W s)
    {s s' : σ} {is : List ι} (h : M.run s is = some s') : is.length ≤ W s := by
  induction is generalizing s with
  | nil => exact Nat.zero_le _
  | cons i is ih =>
      simp only [Machine.run] at h
      cases hs : M.step s i with
      | none => simp [hs] at h
      | some s₁ =>
          rw [hs, Option.bind_some] at h
          have hless := hstep _ _ _ hs
          have hle := ih h
          rw [List.length_cons]
          omega

/-! ## What was seen on the way -/

/-- The machine beside a log of what its steps show. -/
def observed {α : Type} (M : Machine σ ι) (events : σ → ι → List α) :
    Machine (σ × List α) ι where
  init s := M.init s.1 ∧ s.2 = []
  step s i := (M.step s.1 i).map fun s' => (s', s.2 ++ events s.1 i)

theorem observed_step {α : Type} {events : σ → ι → List α} {s s' : σ × List α} {i : ι}
    (h : (M.observed events).step s i = some s') :
    M.step s.1 i = some s'.1 ∧ s'.2 = s.2 ++ events s.1 i := by
  obtain ⟨next, hs, heq⟩ := Option.map_eq_some_iff.mp h
  subst heq
  exact ⟨hs, rfl⟩

/-! ## Refinement -/

/-- A machine whose steps, seen through `f`, are none or one of another's refines it. -/
theorem Reach.simulates {τ κ : Type} {N : Machine τ κ} {f : σ → τ}
    (h0 : ∀ s, M.init s → N.init (f s))
    (hstep : ∀ s i s', M.Reachable s → M.step s i = some s' →
      f s' = f s ∨ ∃ k, N.step (f s) k = some (f s'))
    {s : σ} (hr : M.Reachable s) : N.Reachable (f s) := by
  induction hr with
  | init h => exact .init (h0 _ h)
  | step hr _ hs ih =>
      cases hstep _ _ _ hr hs with
      | inl heq => exact heq ▸ ih
      | inr hk =>
          obtain ⟨k, hk⟩ := hk
          exact .step ih trivial hk

end Machine

end ShellfleetAgent.Lib
