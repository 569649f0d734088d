import ShellfleetAgent.Lib.Pool

/-!
# What a trace has obeyed

A thread that keeps to its contract from where it stands has kept to it all along: each
call in its trace was allowed by what stands before it, and was answered as the contract
says. An outline that holds says so of every trace in every run.
-/

namespace ShellfleetAgent.Lib

variable {Op : Type} {Resp : Op → Type} {Call Loop Res World Choice Env : Type}

namespace Contract

variable {C : Contract Op Resp} {h : History Op Resp}

/-- Every event was allowed by those before it, and answered as may be relied on. -/
def Obeyed (C : Contract Op Resp) (h : History Op Resp) : Prop :=
  ∀ before e after, h = before ++ e :: after → C.may before e.op ∧ C.answer before e.op e.resp

theorem obeyed_nil : C.Obeyed [] := by
  intro before e after heq
  cases before <;> cases heq

theorem Obeyed.snoc (ho : C.Obeyed h) {o : Op} {r : Resp o} (hmay : C.may h o)
    (hans : C.answer h o r) : C.Obeyed (h ++ [⟨o, r⟩]) := by
  intro before e after heq
  rcases List.eq_nil_or_concat after with rfl | ⟨front, last, rfl⟩
  · obtain ⟨rfl, hlast⟩ := List.append_inj' heq rfl
    obtain rfl := List.singleton_inj.mp hlast
    exact ⟨hmay, hans⟩
  · rw [List.concat_eq_append, ← List.cons_append, ← List.append_assoc] at heq
    exact ho before e front (List.append_inj' heq rfl).1

end Contract

namespace Outline

variable {code : Code Op Resp Call Loop Res} {host : Host Op Resp Call World Choice Env}
  {P : Outline code}
  {ok : Pool.State Op Resp Call Loop Res World → Pool.Label Call Choice Env → Prop}
  {J : World → (Nat → Option (Trace Op Resp Call)) → Prop}

theorem obeyed (hP : P.Holds) (hS : P.Sound host ok J)
    {s : Pool.State Op Resp Call Loop Res World} (hr : (pool code host).Reach ok s) {t : Nat}
    {tr : Trace Op Resp Call} (ht : s.view t = some tr) : (P.contract tr.call).Obeyed tr.hist := by
  refine hr.invariant
    (I := fun s => ∀ t tr, s.view t = some tr → (P.contract tr.call).Obeyed tr.hist) ?_ ?_ t tr ht
  · intro s hs t tr ht
    simp [Pool.State.view, hs.2 t] at ht
  · intro s i s' hr hI hok hs t tr ht
    obtain ⟨hJ, hK⟩ := invariant hP hS hr
    have hset : ∀ w u (th : Thread Op Resp Call Loop Res),
        (P.contract th.call).Obeyed th.hist → (s.set w u th).view t = some tr →
          (P.contract tr.call).Obeyed tr.hist := by
      intro w u th hth hview
      rw [Pool.State.view_set] at hview
      rcases update_some hview with ⟨_, rfl⟩ | ⟨_, hview⟩
      · exact hth
      · exact hI t tr hview
    rcases Pool.step_cases hs with ⟨u, c, w, rfl, hn, hw, rfl⟩ |
      ⟨u, ch, c, o, k, h, w, r, rfl, hu, hw, rfl⟩ | ⟨u, c, l, h, rfl, hu, rfl⟩ |
      ⟨u, c, p, h, rfl, hu, _, rfl⟩ | ⟨e, w, rfl, hw, rfl⟩
    · exact hset _ _ ⟨⟨c, [], true⟩, code.start c⟩ Contract.obeyed_nil ht
    · obtain ⟨hmay, _⟩ := hK u _ hu
      obtain ⟨hans, _⟩ := hS.act s u ch c o k h w r hJ hu hmay hok hw
      have hbefore := hI u _ (Pool.State.view_eq hu)
      exact hset _ _ ⟨⟨c, h ++ [⟨o, r⟩], true⟩, k r⟩ (hbefore.snoc hmay hans) ht
    · have hbefore := hI u _ (Pool.State.view_eq hu)
      exact hset _ _ ⟨⟨c, h, true⟩, code.again l⟩ hbefore ht
    · have hbefore := hI u _ (Pool.State.view_eq hu)
      exact hset _ _ ⟨⟨c, h, false⟩, p⟩ hbefore ht
    · exact hI t tr ht

end Outline

end ShellfleetAgent.Lib
