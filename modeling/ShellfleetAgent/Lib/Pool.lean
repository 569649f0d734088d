import Mathlib.Logic.Function.Basic
import ShellfleetAgent.Lib.Machine
import ShellfleetAgent.Lib.Prog

/-!
# Pools of interaction programs over one world

Any number of threads run their programs against a shared world, one call at a
time, in any order. A thread is started by the environment, may be killed at
any point before it has finished, and may loop: a round that returns a loop
state goes on with the next round. What a call does to the world, and which
answers the world may give, is the host's `exec`; everything nondeterministic
about it is the `Choice` the label carries.

`Outline` is the per-thread half of a proof (a contract, a loop invariant and a
postcondition, checked on the code alone); `Outline.invariant` is the shared
half. An invariant of the pool sees the world and each thread's call and
history, never the code that is left to run: what the code may do next is
already in its contract.
-/

namespace ShellfleetAgent.Lib

/-! ## A map that changes in one place -/

section Update

variable {κ α : Type} [DecidableEq κ] {v : κ → Option α} {t u : κ} {x y : α} {z : Option α}

theorem update_cases (h : Function.update v t z u = some x) :
    (u = t ∧ z = some x) ∨ (u ≠ t ∧ v u = some x) := by
  by_cases hut : u = t
  · subst hut
    rw [Function.update_self] at h
    exact .inl ⟨rfl, h⟩
  · rw [Function.update_of_ne hut] at h
    exact .inr ⟨hut, h⟩

theorem update_some (h : Function.update v t (some y) u = some x) :
    (u = t ∧ x = y) ∨ (u ≠ t ∧ v u = some x) :=
  (update_cases h).imp_left fun ⟨hut, hxy⟩ => ⟨hut, (Option.some.inj hxy).symm⟩

theorem update_none (h : Function.update v t none u = some x) : u ≠ t ∧ v u = some x := by
  rcases update_cases h with ⟨_, h⟩ | h
  · cases h
  · exact h

/-- What was elsewhere stays. -/
theorem update_kept (hu : v u = some x) (ht : v t ≠ some x) :
    Function.update v t z u = some x := by
  have hut : u ≠ t := by
    intro heq
    subst heq
    exact ht hu
  rw [Function.update_of_ne hut, hu]

/-- What is said of all that was there and of what is put there holds after the change. -/
theorem forall_update {R : κ → α → Prop} (hv : ∀ u x, u ≠ t → v u = some x → R u x)
    (hz : ∀ x, z = some x → R t x) : ∀ u x, Function.update v t z u = some x → R u x := by
  intro u x hu
  rcases update_cases hu with ⟨rfl, hx⟩ | ⟨hut, hx⟩
  · exact hz x hx
  · exact hv u x hut hx

end Update

/-! ## Threads and their world -/

variable {Op : Type} {Resp : Op → Type} {Call Loop Res World Choice Env : Type}

/-- What a thread runs: its first round, and the round after a loop state. -/
structure Code (Op : Type) (Resp : Op → Type) (Call Loop Res : Type) where
  start : Call → Prog Op Resp (Loop ⊕ Res)
  again : Loop → Prog Op Resp (Loop ⊕ Res)

/-- The world the threads share. -/
structure Host (Op : Type) (Resp : Op → Type) (Call World Choice Env : Type) where
  init : World → Prop
  exec : World → Nat → (o : Op) → Choice → Option (World × Resp o)
  spawn : World → Nat → Call → Option World
  kill : World → Nat → World
  env : World → Env → Option World

/-- What there is to see of a thread: what it was called with, what it has done,
and whether it was killed. -/
structure Trace (Op : Type) (Resp : Op → Type) (Call : Type) where
  call : Call
  hist : History Op Resp
  live : Bool

/-- A thread and the program it has left to run. A killed thread stays, with
all it has done. -/
structure Thread (Op : Type) (Resp : Op → Type) (Call Loop Res : Type)
    extends Trace Op Resp Call where
  prog : Prog Op Resp (Loop ⊕ Res)

namespace Pool

structure State (Op : Type) (Resp : Op → Type) (Call Loop Res World : Type) where
  world : World
  threads : Nat → Option (Thread Op Resp Call Loop Res)

/-- The threads as an invariant sees them. -/
def State.view (s : State Op Resp Call Loop Res World) : Nat → Option (Trace Op Resp Call) :=
  fun t => (s.threads t).map Thread.toTrace

/-- What thread `t` is about to call. -/
def State.next (s : State Op Resp Call Loop Res World) (t : Nat) : Option Op :=
  match s.threads t with
  | some ⟨_, .call o _⟩ => some o
  | _ => none

/-- The world moves to `w` and thread `t` to `th`. -/
def State.set (s : State Op Resp Call Loop Res World) (w : World) (t : Nat)
    (th : Thread Op Resp Call Loop Res) : State Op Resp Call Loop Res World where
  world := w
  threads := Function.update s.threads t (some th)

inductive Label (Call Choice Env : Type)
  | spawn (t : Nat) (c : Call)
  | act (t : Nat) (ch : Choice)
  | again (t : Nat)
  | kill (t : Nat)
  | env (e : Env)

def step (code : Code Op Resp Call Loop Res) (host : Host Op Resp Call World Choice Env)
    (s : State Op Resp Call Loop Res World) :
    Label Call Choice Env → Option (State Op Resp Call Loop Res World)
  | .spawn t c =>
      match s.threads t with
      | some _ => none
      | none => (host.spawn s.world t c).map fun w => s.set w t ⟨⟨c, [], true⟩, code.start c⟩
  | .act t ch =>
      match s.threads t with
      | some ⟨⟨c, h, true⟩, .call o k⟩ => (host.exec s.world t o ch).map fun (w, r) =>
          s.set w t ⟨⟨c, h ++ [⟨o, r⟩], true⟩, k r⟩
      | _ => none
  | .again t =>
      match s.threads t with
      | some ⟨⟨c, h, true⟩, .ret (.inl l)⟩ =>
          some (s.set s.world t ⟨⟨c, h, true⟩, code.again l⟩)
      | _ => none
  | .kill t =>
      match s.threads t with
      | some ⟨⟨_, _, true⟩, .ret (.inr _)⟩ => none
      | some ⟨⟨c, h, true⟩, p⟩ => some (s.set (host.kill s.world t) t ⟨⟨c, h, false⟩, p⟩)
      | _ => none
  | .env e => (host.env s.world e).map fun w => { s with world := w }

end Pool

/-- The pool as a machine: it starts with no threads in an initial world. -/
def pool (code : Code Op Resp Call Loop Res) (host : Host Op Resp Call World Choice Env) :
    Machine (Pool.State Op Resp Call Loop Res World) (Pool.Label Call Choice Env) where
  init s := host.init s.world ∧ ∀ t, s.threads t = none
  step := Pool.step code host

namespace Pool

variable {code : Code Op Resp Call Loop Res} {host : Host Op Resp Call World Choice Env}

theorem State.view_eq {s : State Op Resp Call Loop Res World} {t : Nat}
    {th : Thread Op Resp Call Loop Res} (ht : s.threads t = some th) :
    s.view t = some th.toTrace := by
  simp [State.view, ht]

theorem State.view_set {s : State Op Resp Call Loop Res World} {w : World} {t : Nat}
    {th : Thread Op Resp Call Loop Res} :
    (s.set w t th).view = Function.update s.view t (some th.toTrace) := by
  funext u
  by_cases hu : u = t
  · subst hu; simp [State.view, State.set]
  · simp [State.view, State.set, Function.update_of_ne hu]

/-- What one step of a pool can be. -/
theorem step_cases {s s' : State Op Resp Call Loop Res World} {i : Label Call Choice Env}
    (h : (pool code host).step s i = some s') :
    (∃ t c w, i = .spawn t c ∧ s.threads t = none ∧ host.spawn s.world t c = some w ∧
      s' = s.set w t ⟨⟨c, [], true⟩, code.start c⟩) ∨
    (∃ t ch c o k hist w r, i = .act t ch ∧
      s.threads t = some ⟨⟨c, hist, true⟩, .call o k⟩ ∧
      host.exec s.world t o ch = some (w, r) ∧
      s' = s.set w t ⟨⟨c, hist ++ [⟨o, r⟩], true⟩, k r⟩) ∨
    (∃ t c l hist, i = .again t ∧ s.threads t = some ⟨⟨c, hist, true⟩, .ret (.inl l)⟩ ∧
      s' = s.set s.world t ⟨⟨c, hist, true⟩, code.again l⟩) ∨
    (∃ t c p hist, i = .kill t ∧ s.threads t = some ⟨⟨c, hist, true⟩, p⟩ ∧
      (∀ res, p ≠ .ret (.inr res)) ∧
      s' = s.set (host.kill s.world t) t ⟨⟨c, hist, false⟩, p⟩) ∨
    (∃ e w, i = .env e ∧ host.env s.world e = some w ∧ s' = { s with world := w }) := by
  cases i with
  | spawn t c =>
      simp only [pool, step] at h
      split at h
      · cases h
      · next hn =>
          obtain ⟨w, hw, rfl⟩ := Option.map_eq_some_iff.mp h
          exact .inl ⟨t, c, w, rfl, hn, hw, rfl⟩
  | act t ch =>
      simp only [pool, step] at h
      split at h
      · next c hist o k ht =>
          obtain ⟨⟨w, r⟩, hw, rfl⟩ := Option.map_eq_some_iff.mp h
          exact .inr (.inl ⟨t, ch, c, o, k, hist, w, r, rfl, ht, hw, rfl⟩)
      · cases h
  | again t =>
      simp only [pool, step] at h
      split at h
      · next c hist l ht =>
          cases h
          exact .inr (.inr (.inl ⟨t, c, l, hist, rfl, ht, rfl⟩))
      · cases h
  | kill t =>
      simp only [pool, step] at h
      split at h
      · cases h
      · next c hist p hp ht =>
          cases h
          refine .inr (.inr (.inr (.inl ⟨t, c, p, hist, rfl, ht, ?_, rfl⟩)))
          intro res hres
          exact hp res hres
      · cases h
  | env e =>
      obtain ⟨w, hw, rfl⟩ := Option.map_eq_some_iff.mp h
      exact .inr (.inr (.inr (.inr ⟨e, w, rfl, hw, rfl⟩)))

/-- The step of one thread's next operation. -/
theorem act_cases {s s' : State Op Resp Call Loop Res World} {t : Nat} {ch : Choice}
    (h : (pool code host).step s (.act t ch) = some s') :
    ∃ c o k hist w r, s.threads t = some ⟨⟨c, hist, true⟩, .call o k⟩ ∧
      host.exec s.world t o ch = some (w, r) ∧
      s' = s.set w t ⟨⟨c, hist ++ [⟨o, r⟩], true⟩, k r⟩ := by
  rcases step_cases h with ⟨_, _, _, hi, _⟩ | ⟨u, ch, c, o, k, hist, w, r, hi, hrest⟩ |
    ⟨_, _, _, _, hi, _⟩ | ⟨_, _, _, _, hi, _⟩ | ⟨_, _, hi, _⟩
  · cases hi
  · cases hi
    exact ⟨c, o, k, hist, w, r, hrest⟩
  · cases hi
  · cases hi
  · cases hi

/-- A trace only grows: what a thread has done stays done, killed or not. -/
theorem trace_grows {s s' : State Op Resp Call Loop Res World}
    (hr : (pool code host).Reachable s) {is : List (Label Call Choice Env)}
    (h : (pool code host).run s is = some s') {t : Nat} {tr : Trace Op Resp Call}
    (ht : s.view t = some tr) :
    ∃ tr', s'.view t = some tr' ∧ tr'.call = tr.call ∧ tr.hist <+: tr'.hist := by
  refine Machine.Reach.run_rel (R := fun s s' => ∀ tr, s.view t = some tr →
    ∃ tr', s'.view t = some tr' ∧ tr'.call = tr.call ∧ tr.hist <+: tr'.hist) ?_ ?_ ?_ hr h tr ht
  · exact fun s tr ht => ⟨tr, ht, rfl, List.prefix_rfl⟩
  · intro s₁ s₂ s₃ h₁ h₂ tr ht
    obtain ⟨tr₂, ht₂, hc₂, hp₂⟩ := h₁ tr ht
    obtain ⟨tr₃, ht₃, hc₃, hp₃⟩ := h₂ tr₂ ht₂
    exact ⟨tr₃, ht₃, hc₃.trans hc₂, hp₂.trans hp₃⟩
  · intro s i s' _ hs tr ht
    have hset : ∀ w u c h h' l l' p p', s.threads u = some ⟨⟨c, h, l⟩, p⟩ → h <+: h' →
        ∃ tr', (s.set w u ⟨⟨c, h', l'⟩, p'⟩).view t = some tr' ∧ tr'.call = tr.call ∧
          tr.hist <+: tr'.hist := by
      intro w u c h h' l l' p p' hu hp
      rw [State.view_set]
      by_cases htu : t = u
      · subst htu
        rw [State.view_eq hu] at ht
        cases ht
        exact ⟨_, Function.update_self .., rfl, hp⟩
      · rw [Function.update_of_ne htu]
        exact ⟨tr, ht, rfl, List.prefix_rfl⟩
    rcases step_cases hs with ⟨u, c, w, rfl, hn, hw, rfl⟩ |
      ⟨u, ch, c, o, k, hist, w, r, rfl, hu, hw, rfl⟩ | ⟨u, c, l, hist, rfl, hu, rfl⟩ |
      ⟨u, c, p, hist, rfl, hu, _, rfl⟩ | ⟨e, w, rfl, hw, rfl⟩
    · have htu : t ≠ u := by
        rintro rfl
        simp [State.view, hn] at ht
      rw [State.view_set, Function.update_of_ne htu]
      exact ⟨tr, ht, rfl, List.prefix_rfl⟩
    · exact hset _ _ _ _ _ _ _ _ _ hu (List.prefix_append _ _)
    · exact hset _ _ _ _ _ _ _ _ _ hu List.prefix_rfl
    · exact hset _ _ _ _ _ _ _ _ _ hu List.prefix_rfl
    · exact ⟨tr, ht, rfl, List.prefix_rfl⟩

end Pool

/-- The per-thread half of a pool proof. -/
structure Outline (code : Code Op Resp Call Loop Res) where
  contract : Call → Contract Op Resp
  loopInv : Call → History Op Resp → Loop → Prop
  post : Call → History Op Resp → Res → Prop

namespace Outline

variable {code : Code Op Resp Call Loop Res} {host : Host Op Resp Call World Choice Env}

/-- What a round may end with. -/
def roundPost (P : Outline code) (c : Call) (h : History Op Resp) : Loop ⊕ Res → Prop
  | .inl l => P.loopInv c h l
  | .inr r => P.post c h r

/-- The code keeps to the outline, on its first round and on every later one. -/
structure Holds (P : Outline code) : Prop where
  start : ∀ c, (P.contract c).wp (code.start c) (P.roundPost c) []
  again : ∀ c h l, P.loopInv c h l → (P.contract c).wp (code.again l) (P.roundPost c) h

/-- Every thread still keeps to its contract from where it stands. -/
def Kept (P : Outline code) (s : Pool.State Op Resp Call Loop Res World) : Prop :=
  ∀ t th, s.threads t = some th →
    (P.contract th.call).wp th.prog (P.roundPost th.call) th.hist

/-- The shared half: what each kind of step must keep of an invariant `J` on the
world and the threads' traces. A call must also give an answer its thread relies
on. -/
structure Sound (P : Outline code) (host : Host Op Resp Call World Choice Env)
    (ok : Pool.State Op Resp Call Loop Res World → Pool.Label Call Choice Env → Prop)
    (J : World → (Nat → Option (Trace Op Resp Call)) → Prop) : Prop where
  init : ∀ w, host.init w → J w fun _ => none
  spawn : ∀ w v t c w', J w v → v t = none → host.spawn w t c = some w' →
    J w' (Function.update v t (some ⟨c, [], true⟩))
  act : ∀ (s : Pool.State Op Resp Call Loop Res World) t ch c o k h w' r,
    J s.world s.view → s.threads t = some ⟨⟨c, h, true⟩, .call o k⟩ →
    (P.contract c).may h o → ok s (.act t ch) → host.exec s.world t o ch = some (w', r) →
    (P.contract c).answer h o r ∧
      J w' (Function.update s.view t (some ⟨c, h ++ [⟨o, r⟩], true⟩))
  kill : ∀ w v t c h, J w v → v t = some ⟨c, h, true⟩ →
    J (host.kill w t) (Function.update v t (some ⟨c, h, false⟩))
  env : ∀ w v e w', J w v → host.env w e = some w' → J w' v

variable {P : Outline code}
  {ok : Pool.State Op Resp Call Loop Res World → Pool.Label Call Choice Env → Prop}
  {J : World → (Nat → Option (Trace Op Resp Call)) → Prop}

theorem Kept.update {s : Pool.State Op Resp Call Loop Res World} {w : World} {t : Nat}
    {th : Thread Op Resp Call Loop Res} (hk : P.Kept s)
    (hth : (P.contract th.call).wp th.prog (P.roundPost th.call) th.hist) :
    P.Kept (s.set w t th) := by
  intro u th' hu
  rcases update_some hu with ⟨rfl, rfl⟩ | ⟨_, hu⟩
  · exact hth
  · exact hk u th' hu

/-- Every state a pool reaches satisfies the shared invariant, and every thread
in it still keeps to its contract. -/
theorem invariant (hP : P.Holds) (hS : P.Sound host ok J)
    {s : Pool.State Op Resp Call Loop Res World} (hr : (pool code host).Reach ok s) :
    J s.world s.view ∧ P.Kept s := by
  refine hr.invariant (I := fun s => J s.world s.view ∧ P.Kept s) ?_ ?_
  · rintro s ⟨hw, ht⟩
    refine ⟨?_, fun t th h => by simp [ht t] at h⟩
    have hv : s.view = fun _ => none := by
      funext t; simp [Pool.State.view, ht t]
    exact hv ▸ hS.init _ hw
  · rintro s i s' _ ⟨hJ, hK⟩ hok hs
    rcases Pool.step_cases hs with ⟨t, c, w, rfl, hn, hw, rfl⟩ |
      ⟨t, ch, c, o, k, h, w, r, rfl, ht, hw, rfl⟩ | ⟨t, c, l, h, rfl, ht, rfl⟩ |
      ⟨t, c, p, h, rfl, ht, _, rfl⟩ | ⟨e, w, rfl, hw, rfl⟩
    · refine ⟨?_, hK.update (hP.start c)⟩
      rw [Pool.State.view_set]
      exact hS.spawn _ _ t c w hJ (by simp [Pool.State.view, hn]) hw
    · obtain ⟨hmay, hk⟩ := hK t _ ht
      obtain ⟨hans, hJ'⟩ := hS.act s t ch c o k h w r hJ ht hmay hok hw
      refine ⟨?_, hK.update (hk r hans)⟩
      rw [Pool.State.view_set]
      exact hJ'
    · have hl : P.loopInv c h l := hK t _ ht
      refine ⟨?_, hK.update (hP.again c h l hl)⟩
      have hv : Function.update s.view t (some ⟨c, h, true⟩) = s.view := by
        rw [← Pool.State.view_eq ht, Function.update_eq_self]
      rw [Pool.State.view_set]
      exact hv.symm ▸ hJ
    · have hp : (P.contract c).wp p (P.roundPost c) h := hK t _ ht
      refine ⟨?_, hK.update hp⟩
      rw [Pool.State.view_set]
      exact hS.kill _ _ t c h hJ (Pool.State.view_eq ht)
    · exact ⟨hS.env _ _ e w hJ hw, hK⟩

end Outline

end ShellfleetAgent.Lib
