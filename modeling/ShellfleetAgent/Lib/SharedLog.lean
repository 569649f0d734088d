import Mathlib.Data.List.Induction
import ShellfleetAgent.Lib.Obeyed

/-!
# Logs that threads share

A log in the world of a pool, to which some of the calls add an entry. Whatever the
interleaving, each entry can be signed by a thread such that what a thread has signed is
what its own history has entered, in order: the log is an interleaving of the threads' own
ones, with nothing lost and nothing made up.

A host says once which calls record what (`Host.Records`); the rest is the same for every
pool (`Pool.interleaves`), and needs nothing of the code. What the code adds is a bound on
each thread's own entries, by its contract (`Contract.Obeyed.once`).
-/

namespace ShellfleetAgent.Lib

variable {Op : Type} {Resp : Op → Type} {Call Loop Res World Choice Env β : Type}

/-- Only calls add to the log, and each adds what its event stands for. -/
structure Host.Records (host : Host Op Resp Call World Choice Env) (log : World → List β)
    (entry : Event Op Resp → Option β) : Prop where
  init : ∀ w, host.init w → log w = []
  spawn : ∀ w t c w', host.spawn w t c = some w' → log w' = log w
  exec : ∀ w t o ch w' r, host.exec w t o ch = some (w', r) →
    log w' = log w ++ (entry ⟨o, r⟩).toList
  kill : ∀ w t, log (host.kill w t) = log w
  env : ∀ w e w', host.env w e = some w' → log w' = log w

/-- What a thread has entered so far. -/
def entriesOf (entry : Event Op Resp → Option β) : Option (Trace Op Resp Call) → List β
  | some tr => tr.hist.filterMap entry
  | none => []

def signedBy (t : Nat) (signed : List (Nat × β)) : List β :=
  signed.filterMap fun e => if e.1 = t then some e.2 else none

/-- The log is an interleaving of what the threads have entered. -/
def Interleaves (entry : Event Op Resp → Option β) (log : List β)
    (v : Nat → Option (Trace Op Resp Call)) : Prop :=
  ∃ signed : List (Nat × β), signed.map Prod.snd = log ∧
    ∀ t, signedBy t signed = entriesOf entry (v t)

section Interleaves

variable {entry : Event Op Resp → Option β} {log : List β} {t u : Nat} {bs : List β}
  {v v' : Nat → Option (Trace Op Resp Call)} {tr : Trace Op Resp Call} {b : β}

theorem signedBy_self : signedBy t (bs.map (Prod.mk t)) = bs := by
  rw [signedBy, List.filterMap_map]
  have hall : ((fun e : Nat × β => if e.1 = t then some e.2 else none) ∘ Prod.mk t) = some :=
    funext fun b => if_pos rfl
  rw [hall, List.filterMap_some]

theorem signedBy_other (h : u ≠ t) : signedBy u (bs.map (Prod.mk t)) = [] := by
  rw [signedBy, List.filterMap_map]
  exact List.filterMap_eq_nil_iff.mpr fun b _ => if_neg h.symm

/-- A thread enters something more, or nothing. -/
theorem Interleaves.enter (h : Interleaves entry log v)
    (ht : entriesOf entry (v' t) = entriesOf entry (v t) ++ bs)
    (hframe : ∀ u, u ≠ t → v' u = v u) : Interleaves entry (log ++ bs) v' := by
  obtain ⟨signed, rfl, hsigned⟩ := h
  refine ⟨signed ++ bs.map (Prod.mk t), ?_, fun u => ?_⟩
  · rw [List.map_append, List.map_map]
    exact congrArg _ (List.map_id' bs)
  have happend : signedBy u (signed ++ bs.map (Prod.mk t)) =
      signedBy u signed ++ signedBy u (bs.map (Prod.mk t)) := List.filterMap_append
  rw [happend, hsigned]
  by_cases hut : u = t
  · subst hut
    rw [signedBy_self, ht]
  · rw [signedBy_other hut, hframe u hut, List.append_nil]

/-- What a thread has entered is in the log. -/
theorem Interleaves.entered (h : Interleaves entry log v) (hv : v t = some tr)
    (hb : b ∈ tr.hist.filterMap entry) : b ∈ log := by
  obtain ⟨signed, rfl, hsigned⟩ := h
  have hmem : b ∈ signedBy t signed := by
    rw [hsigned t, hv]
    exact hb
  obtain ⟨e, he, hsome⟩ := List.mem_filterMap.mp hmem
  split at hsome
  · cases hsome
    exact List.mem_map_of_mem he
  · cases hsome

/-- What is in the log, a thread has entered. -/
theorem Interleaves.enteredBy (h : Interleaves entry log v) (hb : b ∈ log) :
    ∃ t tr, v t = some tr ∧ b ∈ tr.hist.filterMap entry := by
  obtain ⟨signed, rfl, hsigned⟩ := h
  obtain ⟨⟨t, b⟩, he, rfl⟩ := List.mem_map.mp hb
  have hmem : b ∈ entriesOf entry (v t) := by
    rw [← hsigned t]
    exact List.mem_filterMap.mpr ⟨_, he, if_pos rfl⟩
  cases hv : v t with
  | none =>
      rw [hv] at hmem
      cases hmem
  | some tr =>
      rw [hv] at hmem
      exact ⟨t, tr, hv, hmem⟩

end Interleaves

/-- A contract under which a thread may enter `b` if it has entered nothing yet. -/
theorem Contract.Obeyed.once {C : Contract Op Resp} {entry : Event Op Resp → Option β}
    {b : Option β} (hmay : ∀ h o r, C.may h o → ∀ b', entry ⟨o, r⟩ = some b' →
      h.filterMap entry = [] ∧ b = some b') {h : History Op Resp} (ho : C.Obeyed h) :
    h.filterMap entry <+: b.toList := by
  induction h using List.reverseRecOn with
  | nil => exact List.nil_prefix
  | append_singleton h e ih =>
      have hbefore : C.Obeyed h := by
        intro before e' after heq
        refine ho before e' (after ++ [e]) ?_
        rw [heq, List.append_assoc]
        rfl
      rw [List.filterMap_append]
      cases hentry : entry e with
      | none =>
          rw [List.filterMap_cons_none hentry, List.filterMap_nil, List.append_nil]
          exact ih hbefore
      | some b' =>
          obtain ⟨hnone, hb⟩ := hmay h e.op e.resp (ho h e [] rfl).1 b' hentry
          rw [hnone, hb, List.filterMap_cons_some hentry]
          exact List.prefix_rfl

/-- An outline that relies on no answer needs nothing of the world. -/
theorem Outline.sound_trivial {code : Code Op Resp Call Loop Res}
    {host : Host Op Resp Call World Choice Env} {P : Outline code}
    {ok : Pool.State Op Resp Call Loop Res World → Pool.Label Call Choice Env → Prop}
    (hanswer : ∀ c h o r, (P.contract c).answer h o r) :
    P.Sound host ok fun _ _ => True where
  init _ _ := trivial
  spawn _ _ _ _ _ _ _ _ := trivial
  act _ _ _ _ _ _ _ _ _ _ _ _ _ _ := ⟨hanswer _ _ _ _, trivial⟩
  kill _ _ _ _ _ _ _ := trivial
  env _ _ _ _ _ _ := trivial

namespace Pool

variable {code : Code Op Resp Call Loop Res} {host : Host Op Resp Call World Choice Env}
  {log : World → List β} {entry : Event Op Resp → Option β}
  {ok : State Op Resp Call Loop Res World → Label Call Choice Env → Prop}
  {s : State Op Resp Call Loop Res World}

/-- Every step of a thread enters what its event stands for. -/
theorem interleaves_set {w : World} {t : Nat} {c : Call} {h : History Op Resp} {l : Bool}
    {p : Prog Op Resp (Loop ⊕ Res)} (bs : List β) (hI : Interleaves entry (log s.world) s.view)
    (ht : h.filterMap entry = entriesOf entry (s.view t) ++ bs)
    (hw : log w = log s.world ++ bs) :
    Interleaves entry (log (s.set w t ⟨⟨c, h, l⟩, p⟩).world)
      (s.set w t ⟨⟨c, h, l⟩, p⟩).view := by
  have hlog : log (s.set w t ⟨⟨c, h, l⟩, p⟩).world = log s.world ++ bs := hw
  rw [hlog, State.view_set]
  refine hI.enter (t := t) ?_ fun u hut => Function.update_of_ne hut ..
  rw [Function.update_self]
  exact ht

theorem interleaves (hrec : host.Records log entry) (hr : (pool code host).Reach ok s) :
    Interleaves entry (log s.world) s.view := by
  refine hr.invariant (I := fun s => Interleaves entry (log s.world) s.view) ?_ ?_
  · rintro s ⟨hw, ht⟩
    refine ⟨[], (hrec.init _ hw).symm, fun t => ?_⟩
    have hnone : s.view t = none := by simp [State.view, ht t]
    rw [hnone]
    rfl
  intro s i s' _ hI _ hs
  rcases step_cases hs with ⟨t, c, w, rfl, hn, hw, rfl⟩ |
    ⟨t, ch, c, o, k, h, w, r, rfl, ht, hw, rfl⟩ | ⟨t, c, l, h, rfl, ht, rfl⟩ |
    ⟨t, c, p, h, rfl, ht, _, rfl⟩ | ⟨e, w, rfl, hw, rfl⟩
  · refine interleaves_set [] hI ?_ ?_
    · have hnone : s.view t = none := by simp [State.view, hn]
      rw [hnone]
      rfl
    · rw [hrec.spawn _ _ _ _ hw, List.append_nil]
  · refine interleaves_set _ hI ?_ (hrec.exec _ _ _ _ _ _ hw)
    rw [State.view_eq ht, List.filterMap_append]
    cases hentry : entry ⟨o, r⟩ with
    | none => simp [entriesOf, hentry]
    | some b => simp [entriesOf, hentry]
  · refine interleaves_set [] hI ?_ (List.append_nil _).symm
    rw [State.view_eq ht, List.append_nil]
    rfl
  · refine interleaves_set [] hI ?_ ?_
    · rw [State.view_eq ht, List.append_nil]
      rfl
    · rw [hrec.kill, List.append_nil]
  · have hlog : log w = log s.world := hrec.env _ _ _ hw
    show Interleaves entry (log w) s.view
    rw [hlog]
    exact hI

end Pool

end ShellfleetAgent.Lib
