import Mathlib.Logic.Basic

/-!
# Interaction programs

A program that talks to the world is a tree of calls: each node names an
operation, and the program continues from whatever the world answers. The tree
says nothing about the world, so one definition of a function serves every
environment it may run in, and interleaving several programs needs no second
definition of any of them.

`Contract.wp` is the program logic. A contract says which operation may be
called after a given history, and which answers may be relied on; the weakest
precondition of a program is computed along its tree. Everything a program may
do, on every path the world can steer it down, is then one application of the
bind rule per statement.
-/

namespace ShellfleetAgent.Lib

/-- A program over operations `Op`, where `o` is answered by a `Resp o`. -/
inductive Prog (Op : Type) (Resp : Op → Type) (α : Type) : Type
  | ret (a : α)
  | call (o : Op) (k : Resp o → Prog Op Resp α)

namespace Prog

variable {Op : Type} {Resp : Op → Type} {α β : Type}

def bind : Prog Op Resp α → (α → Prog Op Resp β) → Prog Op Resp β
  | .ret a, f => f a
  | .call o k, f => .call o fun r => (k r).bind f

instance : Monad (Prog Op Resp) where
  pure := .ret
  bind := bind

theorem bind_bind {γ : Type} (p : Prog Op Resp α) (f : α → Prog Op Resp β)
    (g : β → Prog Op Resp γ) : (p.bind f).bind g = p.bind fun a => (f a).bind g := by
  induction p with
  | ret a => rfl
  | call o k ih =>
      simp only [bind, ih]

/-- The program of one operation. -/
def perform (o : Op) : Prog Op Resp (Resp o) := .call o .ret

@[simp] theorem pure_eq (a : α) : (pure a : Prog Op Resp α) = .ret a := rfl

@[simp] theorem bind_eq (p : Prog Op Resp α) (f : α → Prog Op Resp β) :
    p >>= f = p.bind f := rfl

@[simp] theorem bind_ret (a : α) (f : α → Prog Op Resp β) :
    (Prog.ret a).bind f = f a := rfl

@[simp] theorem bind_call (o : Op) (k : Resp o → Prog Op Resp α)
    (f : α → Prog Op Resp β) :
    (Prog.call o k).bind f = .call o fun r => (k r).bind f := rfl

/-- Every operation the program may ever call is in `S`. -/
def Only (S : Op → Prop) : Prog Op Resp α → Prop
  | .ret _ => True
  | .call o k => S o ∧ ∀ r, (k r).Only S

variable {S : Op → Prop}

@[simp] theorem only_ret {a : α} : (.ret a : Prog Op Resp α).Only S ↔ True := Iff.rfl

@[simp] theorem only_perform {o : Op} : (perform o : Prog Op Resp (Resp o)).Only S ↔ S o :=
  ⟨fun h => h.1, fun h => ⟨h, fun _ => trivial⟩⟩

theorem Only.bind {p : Prog Op Resp α} {f : α → Prog Op Resp β} (hp : p.Only S)
    (hf : ∀ a, (f a).Only S) : (p.bind f).Only S := by
  induction p with
  | ret a => exact hf a
  | call o k ih => exact ⟨hp.1, fun r => ih r (hp.2 r)⟩

theorem Only.mono {S' : Op → Prop} {p : Prog Op Resp α} (hp : p.Only S)
    (h : ∀ o, S o → S' o) : p.Only S' := by
  induction p with
  | ret a => trivial
  | call o k ih => exact ⟨h o hp.1, fun r => ih r (hp.2 r)⟩

theorem Only.run_bind {ε : Type} {x : ExceptT ε (Prog Op Resp) α}
    {f : α → ExceptT ε (Prog Op Resp) β} (hx : x.run.Only S) (hf : ∀ a, (f a).run.Only S) :
    (x >>= f).run.Only S := by
  refine Only.bind hx fun r => ?_
  cases r with
  | ok a => exact hf a
  | error e => trivial

/-! ## Programs in terms of other programs -/

section Via

variable {Op' Op'' : Type} {Resp' : Op' → Type} {Resp'' : Op'' → Type}

/-- The program with each operation carried out as a program over others. -/
def via (f : (o : Op) → Prog Op' Resp' (Resp o)) : Prog Op Resp α → Prog Op' Resp' α
  | .ret a => .ret a
  | .call o k => (f o).bind fun r => (k r).via f

variable (f : (o : Op) → Prog Op' Resp' (Resp o)) (g : (o : Op') → Prog Op'' Resp'' (Resp' o))

@[simp] theorem via_ret (a : α) : (.ret a : Prog Op Resp α).via f = .ret a := rfl

theorem via_bind (p : Prog Op Resp α) (k : α → Prog Op Resp β) :
    (p.bind k).via f = (p.via f).bind fun a => (k a).via f := by
  induction p with
  | ret a => rfl
  | call o r ih =>
      simp only [bind_call, via, ih]
      exact (bind_bind (f o) _ _).symm

theorem via_via (p : Prog Op Resp α) : (p.via f).via g = p.via fun o => (f o).via g := by
  induction p with
  | ret a => rfl
  | call o r ih =>
      rw [via, via_bind]
      simp only [ih, via]

theorem via_perform (p : Prog Op Resp α) : p.via perform = p := by
  induction p with
  | ret a => rfl
  | call o r ih =>
      simp only [via, perform, bind_call, bind_ret, ih]

/-- `?` goes through. -/
theorem via_run_bind {ε : Type} (m : ExceptT ε (Prog Op Resp) α)
    (k : α → ExceptT ε (Prog Op Resp) β) :
    (m >>= k).run.via f = (ExceptT.mk (m.run.via f) >>= fun a =>
      ExceptT.mk ((k a).run.via f) : ExceptT ε (Prog Op' Resp') β).run := by
  show (Prog.bind m.run (ExceptT.bindCont k)).via f = _
  rw [via_bind]
  show _ = Prog.bind (m.run.via f) (ExceptT.bindCont _)
  congr
  funext r
  cases r with
  | ok a => rfl
  | error e => rfl

end Via

end Prog

/-- One operation together with its answer. -/
structure Event (Op : Type) (Resp : Op → Type) where
  op : Op
  resp : Resp op

/-- What a program has done so far, oldest first. -/
abbrev History (Op : Type) (Resp : Op → Type) := List (Event Op Resp)

/-- `Returns p h a`: answered as in `h`, the program `p` runs to its end and
returns `a`. -/
inductive Returns {Op : Type} {Resp : Op → Type} {α : Type} :
    Prog Op Resp α → History Op Resp → α → Prop
  | ret (a : α) : Returns (.ret a) [] a
  | call {o : Op} {k : Resp o → Prog Op Resp α} {h : History Op Resp} {a : α}
      (r : Resp o) (hr : Returns (k r) h a) : Returns (.call o k) (⟨o, r⟩ :: h) a

namespace Returns

variable {Op : Type} {Resp : Op → Type} {α β : Type} {h : History Op Resp}

theorem ret_inv {a b : α} (hr : Returns (.ret a : Prog Op Resp α) h b) : h = [] ∧ b = a := by
  cases hr
  exact ⟨rfl, rfl⟩

theorem perform_inv {o : Op} {r : Resp o} (hr : Returns (Prog.perform o) h r) :
    h = [⟨o, r⟩] := by
  cases hr with
  | call r' hr' =>
      obtain ⟨rfl, rfl⟩ := hr'.ret_inv
      rfl

theorem bind_inv {p : Prog Op Resp α} {f : α → Prog Op Resp β} {b : β}
    (hr : Returns (p.bind f) h b) :
    ∃ h₁ h₂ a, h = h₁ ++ h₂ ∧ Returns p h₁ a ∧ Returns (f a) h₂ b := by
  induction p generalizing h with
  | ret a => exact ⟨[], h, a, rfl, .ret a, hr⟩
  | call o k ih =>
      cases hr with
      | call r hr' =>
          obtain ⟨h₁, h₂, a, rfl, hp, hf⟩ := ih r hr'
          exact ⟨⟨o, r⟩ :: h₁, h₂, a, rfl, .call r hp, hf⟩

/-- A fallible program that succeeds has succeeded at every `?`. -/
theorem run_bind_inv {ε : Type} {x : ExceptT ε (Prog Op Resp) α}
    {f : α → ExceptT ε (Prog Op Resp) β} {b : β} (hr : Returns (x >>= f).run h (.ok b)) :
    ∃ h₁ h₂ a, h = h₁ ++ h₂ ∧ Returns x.run h₁ (.ok a) ∧ Returns (f a).run h₂ (.ok b) := by
  obtain ⟨h₁, h₂, r, rfl, hx, hf⟩ := bind_inv hr
  cases r with
  | ok a => exact ⟨h₁, h₂, a, rfl, hx, hf⟩
  | error e => cases hf.ret_inv.2

end Returns

namespace Prog

variable {Op : Type} {Resp : Op → Type} {α β : Type} (f : (o : Op) → Resp o)

/-- The run in which every operation is answered by `f`. -/
def answered : Prog Op Resp α → History Op Resp × α
  | .ret a => ([], a)
  | .call o k => (⟨o, f o⟩ :: ((k (f o)).answered).1, ((k (f o)).answered).2)

@[simp] theorem answered_ret (a : α) : (.ret a : Prog Op Resp α).answered f = ([], a) := rfl

theorem answered_bind (p : Prog Op Resp α) (k : α → Prog Op Resp β) :
    (p.bind k).answered f =
      ((p.answered f).1 ++ ((k (p.answered f).2).answered f).1,
        ((k (p.answered f).2).answered f).2) := by
  induction p with
  | ret a => rfl
  | call o r ih =>
      simp only [bind_call, answered, ih]
      rfl

/-- `?` goes on after a success. -/
theorem answered_ok {ε : Type} {x : ExceptT ε (Prog Op Resp) α}
    {k : α → ExceptT ε (Prog Op Resp) β} {h : History Op Resp} {a : α}
    (hx : x.run.answered f = (h, .ok a)) :
    (x >>= k).run.answered f =
      (h ++ ((k a).run.answered f).1, ((k a).run.answered f).2) := by
  show (Prog.bind x.run (ExceptT.bindCont k)).answered f = _
  rw [answered_bind, hx]
  rfl

/-- And not after an error. -/
theorem answered_error {ε : Type} {x : ExceptT ε (Prog Op Resp) α}
    {k : α → ExceptT ε (Prog Op Resp) β} {h : History Op Resp} {e : ε}
    (hx : x.run.answered f = (h, .error e)) :
    (x >>= k).run.answered f = (h, .error e) := by
  show (Prog.bind x.run (ExceptT.bindCont k)).answered f = _
  rw [answered_bind, hx]
  show (h ++ [], _) = _
  rw [List.append_nil]
  rfl

/-! ## A program in a world that changes -/

section Changing

variable (g : Nat → (o : Op) → Resp o)

/-- The run in which the `n`-th operation is answered by `g n`, counted on from some number. -/
def answeredFrom : Prog Op Resp α → Nat → History Op Resp × α
  | .ret a, _ => ([], a)
  | .call o k, n =>
      (⟨o, g n o⟩ :: ((k (g n o)).answeredFrom (n + 1)).1, ((k (g n o)).answeredFrom (n + 1)).2)

theorem answeredFrom_bind {p : Prog Op Resp α} {k : α → Prog Op Resp β} {n : Nat}
    {h : History Op Resp} {a : α} (hp : p.answeredFrom g n = (h, a)) :
    (p.bind k).answeredFrom g n =
      (h ++ ((k a).answeredFrom g (n + h.length)).1,
        ((k a).answeredFrom g (n + h.length)).2) := by
  induction p generalizing n h with
  | ret a =>
      cases hp
      rfl
  | call o r ih =>
      obtain ⟨rfl, rfl⟩ := Prod.mk.inj hp
      have hrest := ih (g n o) (n := n + 1) rfl
      have hlength : n + (((r (g n o)).answeredFrom g (n + 1)).1.length + 1) =
          n + 1 + ((r (g n o)).answeredFrom g (n + 1)).1.length := by omega
      rw [bind_call, answeredFrom, hrest, List.length_cons, hlength]
      rfl

end Changing

/-! ## A program that has the world to itself -/

section Alone

variable {W Ch : Type} (exec : W → (o : Op) → Ch → W × Resp o) (ch : Op → Ch)

/-- The world a program leaves, and what it returns, if no one else acts. -/
def alone : Prog Op Resp α → W → W × α
  | .ret a, w => (w, a)
  | .call o k, w => (k (exec w o (ch o)).2).alone (exec w o (ch o)).1

@[simp] theorem alone_ret (a : α) (w : W) :
    (.ret a : Prog Op Resp α).alone exec ch w = (w, a) := rfl

theorem alone_bind (p : Prog Op Resp α) (k : α → Prog Op Resp β) (w : W) :
    (p.bind k).alone exec ch w =
      (k (p.alone exec ch w).2).alone exec ch (p.alone exec ch w).1 := by
  induction p generalizing w with
  | ret a => rfl
  | call o r ih => exact ih _ _

variable {exec ch} {ε : Type} {x : ExceptT ε (Prog Op Resp) α}
  {k : α → ExceptT ε (Prog Op Resp) β} {w w' : W}

theorem alone_ok {a : α} (hx : x.run.alone exec ch w = (w', .ok a)) :
    (x >>= k).run.alone exec ch w = (k a).run.alone exec ch w' := by
  show (Prog.bind x.run (ExceptT.bindCont k)).alone exec ch w = _
  rw [alone_bind, hx]
  rfl

theorem alone_error {e : ε} (hx : x.run.alone exec ch w = (w', .error e)) :
    (x >>= k).run.alone exec ch w = (w', .error e) := by
  show (Prog.bind x.run (ExceptT.bindCont k)).alone exec ch w = _
  rw [alone_bind, hx]
  rfl

/-- A success is one at every `?`. -/
theorem alone_ok_inv {b : β} (h : (x >>= k).run.alone exec ch w = (w', .ok b)) :
    ∃ w₁ a, x.run.alone exec ch w = (w₁, .ok a) ∧ (k a).run.alone exec ch w₁ = (w', .ok b) := by
  cases hx : x.run.alone exec ch w with
  | mk w₁ r =>
      cases r with
      | ok a =>
          rw [alone_ok hx] at h
          exact ⟨w₁, a, rfl, h⟩
      | error e =>
          rw [alone_error hx] at h
          cases h

/-- An error comes from the first part, or from the second after it. -/
theorem alone_error_inv {e : ε} (h : (x >>= k).run.alone exec ch w = (w', .error e)) :
    x.run.alone exec ch w = (w', .error e) ∨ ∃ w₁ a, x.run.alone exec ch w = (w₁, .ok a) ∧
      (k a).run.alone exec ch w₁ = (w', .error e) := by
  cases hx : x.run.alone exec ch w with
  | mk w₁ r =>
      cases r with
      | ok a =>
          rw [alone_ok hx] at h
          exact .inr ⟨w₁, a, rfl, h⟩
      | error e' =>
          rw [alone_error hx] at h
          cases h
          exact .inl rfl

theorem alone_lift {p : Prog Op Resp α} {a : α} (hp : p.alone exec ch w = (w', a)) :
    (ExceptT.lift p : ExceptT ε (Prog Op Resp) α).run.alone exec ch w = (w', .ok a) := by
  show (Prog.bind p _).alone exec ch w = _
  rw [alone_bind, hp]
  rfl

end Alone

end Prog

/-- What a program may call after a history, and which answers it may rely on
there. -/
structure Contract (Op : Type) (Resp : Op → Type) where
  may : History Op Resp → Op → Prop
  answer : History Op Resp → (o : Op) → Resp o → Prop

namespace Contract

variable {Op : Type} {Resp : Op → Type} {α β : Type} (C : Contract Op Resp)

/-- After history `h`, the program calls only what `C` allows, and whatever it
returns satisfies `Q` together with the history at that point. -/
def wp : Prog Op Resp α → (History Op Resp → α → Prop) → History Op Resp → Prop
  | .ret a, Q, h => Q h a
  | .call o k, Q, h =>
      C.may h o ∧ ∀ r, C.answer h o r → wp (k r) Q (h ++ [⟨o, r⟩])

variable {C}

@[simp] theorem wp_ret {a : α} {Q : History Op Resp → α → Prop}
    {h : History Op Resp} : C.wp (.ret a) Q h ↔ Q h a := Iff.rfl

theorem wp_call {o : Op} {k : Resp o → Prog Op Resp α}
    {Q : History Op Resp → α → Prop} {h : History Op Resp} :
    C.wp (.call o k) Q h ↔
      C.may h o ∧ ∀ r, C.answer h o r → C.wp (k r) Q (h ++ [⟨o, r⟩]) := Iff.rfl

theorem wp_perform {o : Op} {Q : History Op Resp → Resp o → Prop}
    {h : History Op Resp} :
    C.wp (.perform o) Q h ↔
      C.may h o ∧ ∀ r, C.answer h o r → Q (h ++ [⟨o, r⟩]) r := Iff.rfl

theorem wp_bind {p : Prog Op Resp α} {f : α → Prog Op Resp β}
    {Q : History Op Resp → β → Prop} {h : History Op Resp} :
    C.wp (p.bind f) Q h ↔ C.wp p (fun h' a => C.wp (f a) Q h') h := by
  induction p generalizing h with
  | ret a => exact Iff.rfl
  | call o k ih =>
      simp only [Prog.bind_call, wp_call]
      exact and_congr_right fun _ => forall_congr' fun r =>
        imp_congr_right fun _ => ih r

theorem wp_mono {p : Prog Op Resp α} {Q Q' : History Op Resp → α → Prop}
    {h : History Op Resp} (hp : C.wp p Q h) (hQ : ∀ h' a, Q h' a → Q' h' a) :
    C.wp p Q' h := by
  induction p generalizing h with
  | ret a => exact hQ _ _ hp
  | call o k ih => exact ⟨hp.1, fun r hr => ih r (hp.2 r hr)⟩

/-- The strongest thing a postcondition may know: the program's own part of the
history, and that it returns this value along it. -/
theorem wp_returns {p : Prog Op Resp α} {Q : History Op Resp → α → Prop}
    {h : History Op Resp} (hp : C.wp p Q h) :
    C.wp p (fun h' a => Q h' a ∧ ∃ e, h' = h ++ e ∧ Returns p e a) h := by
  induction p generalizing h with
  | ret a => exact ⟨hp, [], (List.append_nil h).symm, .ret a⟩
  | call o k ih =>
      refine ⟨hp.1, fun r hr => wp_mono (ih r (hp.2 r hr)) ?_⟩
      rintro h' a ⟨hq, e, rfl, he⟩
      exact ⟨hq, ⟨o, r⟩ :: e, by simp, .call r he⟩

/-- A property of histories that every operation in `S` keeps, and that allows
it, is kept by a program that calls nothing else. -/
theorem wp_of_only {S : Op → Prop} {I : History Op Resp → Prop} {p : Prog Op Resp α}
    (hp : p.Only S)
    (hI : ∀ h o, I h → S o → C.may h o ∧ ∀ r, C.answer h o r → I (h ++ [⟨o, r⟩]))
    {h : History Op Resp} (h0 : I h) : C.wp p (fun h' _ => I h') h := by
  induction p generalizing h with
  | ret a => exact h0
  | call o k ih =>
      obtain ⟨hmay, hstep⟩ := hI h o h0 hp.1
      exact ⟨hmay, fun r hr => ih r (hp.2 r) (hstep r hr)⟩

/-- A program keeps to its contract when it is carried out by others: each
operation it may call keeps to the other contract, and adds itself to what the
first history reads off the second. -/
theorem wp_via {Op' : Type} {Resp' : Op' → Type} {C' : Contract Op' Resp'}
    (f : (o : Op) → Prog Op' Resp' (Resp o)) (read : History Op' Resp' → History Op Resp)
    (I : History Op' Resp' → Prop)
    (hf : ∀ h o, I h → C.may (read h) o → C'.wp (f o) (fun h' r =>
      C.answer (read h) o r ∧ read h' = read h ++ [⟨o, r⟩] ∧ I h') h)
    {p : Prog Op Resp α} {Q : History Op Resp → α → Prop} {h : History Op' Resp'} (hI : I h)
    (hp : C.wp p Q (read h)) : C'.wp (p.via f) (fun h' a => Q (read h') a ∧ I h') h := by
  induction p generalizing h with
  | ret a => exact ⟨hp, hI⟩
  | call o k ih =>
      obtain ⟨hmay, hk⟩ := hp
      refine wp_bind.mpr (wp_mono (hf h o hI hmay) ?_)
      rintro h' r ⟨hr, hread, hI'⟩
      have hkr := hk r hr
      rw [← hread] at hkr
      exact ih r hI' hkr

/-! ## Fallible programs

`?` is the bind of `ExceptT`: an error skips the rest. -/

theorem wp_run_bind {ε : Type} {x : ExceptT ε (Prog Op Resp) α}
    {f : α → ExceptT ε (Prog Op Resp) β}
    {Q : History Op Resp → Except ε β → Prop} {h : History Op Resp} :
    C.wp (x >>= f).run Q h ↔
      C.wp x.run (fun h' r => match r with
        | .ok a => C.wp (f a).run Q h'
        | .error e => Q h' (.error e)) h := by
  show C.wp (Prog.bind x.run (ExceptT.bindCont f)) Q h ↔ _
  rw [wp_bind]
  have hk : ∀ (h' : History Op Resp) (r : Except ε α),
      C.wp (ExceptT.bindCont f r) Q h' ↔
        (match r with
          | .ok a => C.wp (f a).run Q h'
          | .error e => Q h' (.error e)) := by
    intro h' r
    cases r <;> exact Iff.rfl
  exact ⟨fun hp => wp_mono hp fun h' r => (hk h' r).1,
    fun hp => wp_mono hp fun h' r => (hk h' r).2⟩

@[simp] theorem wp_run_pure {ε : Type} {a : α}
    {Q : History Op Resp → Except ε α → Prop} {h : History Op Resp} :
    C.wp (pure a : ExceptT ε (Prog Op Resp) α).run Q h ↔ Q h (.ok a) := Iff.rfl

@[simp] theorem wp_run_throw {ε : Type} {e : ε}
    {Q : History Op Resp → Except ε α → Prop} {h : History Op Resp} :
    C.wp (throw e : ExceptT ε (Prog Op Resp) α).run Q h ↔ Q h (.error e) := Iff.rfl

end Contract

end ShellfleetAgent.Lib
