import ShellfleetAgent.Lib.Pool

/-!
# Threads seen by their stage

A thread's history matters to the others only through the stage it has led to:
what the thread may call next, and what it stands for meanwhile. A `Staged`
proof gives the stages as an automaton over answered calls, shows once that the
code keeps to it, and is then left with an invariant on the world and the stages
of the threads that are still at work. A thread that has returned, or was killed,
is at no stage.
-/

namespace ShellfleetAgent.Lib

variable {Op : Type} {Resp : Op → Type} {Call Loop Res World Choice Env σ : Type}

/-- The stages of a thread, what it may call and rely on at each, what its loop
states know, and where it may return. -/
structure Staged (code : Code Op Resp Call Loop Res) (σ : Type) where
  first : Call → σ
  next : σ → Event Op Resp → σ
  may : σ → Op → Prop
  answer : σ → (o : Op) → Resp o → Prop
  loop : σ → Loop → Prop
  done : σ → Prop

namespace Staged

variable {code : Code Op Resp Call Loop Res} {host : Host Op Resp Call World Choice Env}
  (S : Staged code σ)

/-- The stage a history has led to. -/
def reached (c : Call) (h : History Op Resp) : σ := h.foldl S.next (S.first c)

@[simp] theorem reached_nil (c : Call) : S.reached c [] = S.first c := rfl

@[simp] theorem reached_snoc (c : Call) (h : History Op Resp) (e : Event Op Resp) :
    S.reached c (h ++ [e]) = S.next (S.reached c h) e := by
  rw [reached, List.foldl_append]
  rfl

/-- From stage `x` the program calls only what each stage allows, and ends at one
that satisfies `Q`. -/
def wp {α : Type} : Prog Op Resp α → (σ → α → Prop) → σ → Prop
  | .ret a, Q, x => Q x a
  | .call o k, Q, x => S.may x o ∧ ∀ r, S.answer x o r → wp (k r) Q (S.next x ⟨o, r⟩)

variable {S}

@[simp] theorem wp_ret {α : Type} {a : α} {Q : σ → α → Prop} {x : σ} :
    S.wp (.ret a) Q x ↔ Q x a := Iff.rfl

theorem wp_call {α : Type} {o : Op} {k : Resp o → Prog Op Resp α} {Q : σ → α → Prop} {x : σ} :
    S.wp (.call o k) Q x ↔
      S.may x o ∧ ∀ r, S.answer x o r → S.wp (k r) Q (S.next x ⟨o, r⟩) := Iff.rfl

theorem wp_perform {o : Op} {Q : σ → Resp o → Prop} {x : σ} :
    S.wp (.perform o) Q x ↔ S.may x o ∧ ∀ r, S.answer x o r → Q (S.next x ⟨o, r⟩) r := Iff.rfl

theorem wp_bind {α β : Type} {p : Prog Op Resp α} {f : α → Prog Op Resp β} {Q : σ → β → Prop}
    {x : σ} : S.wp (p.bind f) Q x ↔ S.wp p (fun y a => S.wp (f a) Q y) x := by
  induction p generalizing x with
  | ret a => exact Iff.rfl
  | call o k ih =>
      simp only [Prog.bind_call, wp_call]
      exact and_congr_right fun _ => forall_congr' fun r => imp_congr_right fun _ => ih r

theorem wp_mono {α : Type} {p : Prog Op Resp α} {Q Q' : σ → α → Prop} {x : σ}
    (hp : S.wp p Q x) (hQ : ∀ y a, Q y a → Q' y a) : S.wp p Q' x := by
  induction p generalizing x with
  | ret a => exact hQ x a hp
  | call o k ih => exact ⟨hp.1, fun r hr => ih r (hp.2 r hr)⟩

/-- A stage that nothing the program calls leads out of. -/
theorem wp_stay {α : Type} {T : Op → Prop} {p : Prog Op Resp α} {x : σ} (hp : p.Only T)
    (hmay : ∀ o, T o → S.may x o) (hstay : ∀ o r, T o → S.answer x o r → S.next x ⟨o, r⟩ = x)
    {Q : σ → α → Prop} (hQ : ∀ a, Q x a) : S.wp p Q x := by
  induction p with
  | ret a => exact hQ a
  | call o k ih =>
      refine ⟨hmay o hp.1, fun r hr => ?_⟩
      rw [hstay o r hp.1 hr]
      exact ih r (hp.2 r)

/-- `?` at a stage. -/
theorem wp_run_bind {ε α β : Type} {m : ExceptT ε (Prog Op Resp) α}
    {f : α → ExceptT ε (Prog Op Resp) β} {Q : σ → Except ε β → Prop} {x : σ}
    (hm : S.wp m.run (fun y r => match r with
      | .ok a => S.wp (f a).run Q y
      | .error e => Q y (.error e)) x) : S.wp (m >>= f).run Q x := by
  show S.wp (Prog.bind m.run (ExceptT.bindCont f)) Q x
  rw [wp_bind]
  refine wp_mono hm fun y r hr => ?_
  cases r with
  | ok a => exact hr
  | error e => exact hr

variable (S)

/-- A round ends for good, or with a loop state that knows the stage. -/
def roundPost (x : σ) : Loop ⊕ Res → Prop
  | .inl l => S.loop x l
  | .inr _ => S.done x

/-- The code keeps to the stages, on its first round and on every later one. -/
structure Holds : Prop where
  start : ∀ c, S.wp (code.start c) S.roundPost (S.first c)
  again : ∀ x l, S.loop x l → S.wp (code.again l) S.roundPost x

/-- Nothing is left to do. -/
def returned : Prog Op Resp (Loop ⊕ Res) → Bool
  | .ret (.inr _) => true
  | _ => false

/-- The stage of a thread that is still at work. -/
def ofThread (th : Thread Op Resp Call Loop Res) : Option σ :=
  if th.live && !returned th.prog then some (S.reached th.call th.hist) else none

/-- The stages of the threads that are still at work. -/
def stages (s : Pool.State Op Resp Call Loop Res World) : Nat → Option σ :=
  fun t => (s.threads t).bind S.ofThread

/-- Every thread that was not killed keeps to the stages from where it stands. -/
def Kept (s : Pool.State Op Resp Call Loop Res World) : Prop :=
  ∀ t th, s.threads t = some th → th.live = true →
    S.wp th.prog S.roundPost (S.reached th.call th.hist)

/-- What each kind of step must keep of an invariant on the world and the stages. -/
structure Sound (host : Host Op Resp Call World Choice Env)
    (ok : Pool.State Op Resp Call Loop Res World → Pool.Label Call Choice Env → Prop)
    (J : World → (Nat → Option σ) → Prop) : Prop where
  init : ∀ w, host.init w → J w fun _ => none
  spawn : ∀ (s : Pool.State Op Resp Call Loop Res World) t c w', J s.world (S.stages s) →
    S.stages s t = none → ok s (.spawn t c) → host.spawn s.world t c = some w' →
    J w' (Function.update (S.stages s) t (some (S.first c)))
  act : ∀ (s : Pool.State Op Resp Call Loop Res World) t ch o x w' r,
    J s.world (S.stages s) → S.stages s t = some x → s.next t = some o → S.may x o →
    ok s (.act t ch) → host.exec s.world t o ch = some (w', r) →
    S.answer x o r ∧ J w' (Function.update (S.stages s) t (some (S.next x ⟨o, r⟩)))
  ended : ∀ w v t x, J w v → v t = some x → S.done x → J w (Function.update v t none)
  kill : ∀ (s : Pool.State Op Resp Call Loop Res World) t x, J s.world (S.stages s) →
    S.stages s t = some x → ok s (.kill t) →
    J (host.kill s.world t) (Function.update (S.stages s) t none)
  env : ∀ (s : Pool.State Op Resp Call Loop Res World) e w', J s.world (S.stages s) →
    ok s (.env e) → host.env s.world e = some w' → J w' (S.stages s)

variable {S} {ok : Pool.State Op Resp Call Loop Res World → Pool.Label Call Choice Env → Prop}
  {J : World → (Nat → Option σ) → Prop}

theorem stages_set {s : Pool.State Op Resp Call Loop Res World} {w : World} {t : Nat}
    {th : Thread Op Resp Call Loop Res} :
    S.stages (s.set w t th) = Function.update (S.stages s) t (S.ofThread th) := by
  funext u
  by_cases hu : u = t
  · subst hu
    simp [stages, Pool.State.set]
  · simp [stages, Pool.State.set, Function.update_of_ne hu]

theorem Kept.set {s : Pool.State Op Resp Call Loop Res World} {w : World} {t : Nat}
    {th : Thread Op Resp Call Loop Res} (hK : S.Kept s)
    (hth : th.live = true → S.wp th.prog S.roundPost (S.reached th.call th.hist)) :
    S.Kept (s.set w t th) := by
  intro u th' hu hlive
  rcases update_some hu with ⟨rfl, rfl⟩ | ⟨_, hu⟩
  · exact hth hlive
  · exact hK u th' hu hlive

/-- A thread goes on, or has returned where it may. -/
theorem Sound.set (hS : S.Sound host ok J) {s : Pool.State Op Resp Call Loop Res World}
    {w : World} {t : Nat} {th : Thread Op Resp Call Loop Res} (hlive : th.live = true)
    (hwp : S.wp th.prog S.roundPost (S.reached th.call th.hist))
    (hJ : J w (Function.update (S.stages s) t (some (S.reached th.call th.hist)))) :
    J w (S.stages (s.set w t th)) := by
  rw [stages_set, ofThread, hlive]
  cases hret : returned th.prog with
  | false => exact hJ
  | true =>
      have hdone : S.done (S.reached th.call th.hist) := by
        unfold returned at hret
        split at hret
        · next hprog =>
            rw [hprog] at hwp
            exact hwp
        · cases hret
      have hended := hS.ended _ _ t _ hJ (Function.update_self ..) hdone
      rw [Function.update_idem] at hended
      exact hended

/-- Every state a pool reaches satisfies the invariant. -/
theorem invariant (hH : S.Holds) (hS : S.Sound host ok J)
    {s : Pool.State Op Resp Call Loop Res World} (hr : (pool code host).Reach ok s) :
    J s.world (S.stages s) ∧ S.Kept s := by
  refine hr.invariant (I := fun s => J s.world (S.stages s) ∧ S.Kept s) ?_ ?_
  · intro s hs
    have hstages : S.stages s = fun _ => none := by
      funext t
      simp [stages, hs.2 t]
    refine ⟨?_, fun t th ht => ?_⟩
    · rw [hstages]
      exact hS.init _ hs.1
    · rw [hs.2 t] at ht
      cases ht
  · intro s i s' _ hI hok hs
    obtain ⟨hJ, hK⟩ := hI
    rcases Pool.step_cases hs with ⟨t, c, w, rfl, hn, hw, rfl⟩ |
      ⟨t, ch, c, o, k, h, w, r, rfl, ht, hw, rfl⟩ | ⟨t, c, l, h, rfl, ht, rfl⟩ |
      ⟨t, c, p, h, rfl, ht, hp, rfl⟩ | ⟨e, w, rfl, hw, rfl⟩
    · have hnone : S.stages s t = none := by simp [stages, hn]
      exact ⟨hS.set rfl (hH.start c) (hS.spawn s t c w hJ hnone hok hw),
        hK.set fun _ => hH.start c⟩
    · have hstage : S.stages s t = some (S.reached c h) := by
        rw [stages, ht]
        rfl
      have hnext : s.next t = some o := by rw [Pool.State.next, ht]
      obtain ⟨hmay, hk⟩ := hK t _ ht rfl
      obtain ⟨hanswer, hJ'⟩ := hS.act s t ch o _ w r hJ hstage hnext hmay hok hw
      rw [← reached_snoc] at hJ'
      have hwp := hk r hanswer
      rw [← reached_snoc] at hwp
      exact ⟨hS.set rfl hwp hJ', hK.set fun _ => hwp⟩
    · have hstage : S.stages s t = some (S.reached c h) := by
        rw [stages, ht]
        rfl
      have hwp := hH.again _ l (hK t _ ht rfl)
      refine ⟨hS.set rfl hwp ?_, hK.set fun _ => hwp⟩
      rw [← hstage, Function.update_eq_self]
      exact hJ
    · have hstage : S.stages s t = some (S.reached c h) := by
        have hret : returned p = false := by
          cases p with
          | call o k => rfl
          | ret a =>
              cases a with
              | inl l => rfl
              | inr res => exact absurd rfl (hp res)
        rw [stages, ht, Option.bind_some, ofThread, hret]
        rfl
      refine ⟨?_, hK.set fun hlive => absurd hlive Bool.false_ne_true⟩
      rw [stages_set]
      exact hS.kill s t _ hJ hstage hok
    · exact ⟨hS.env s e w hJ hok hw, hK⟩

end Staged

end ShellfleetAgent.Lib
