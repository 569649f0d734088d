import ShellfleetAgent.Proofs.AptStages

/-!
# Whose result a task reads

A result file goes by its run's id, the second and the process in which the run was started.
As long as a start takes an id only where everything that bears it is about the same package,
a result file is one package's (`SourceInv`), and what a task reads in the file of the run it
watches was written for that run's package.
-/

namespace ShellfleetAgent.Agent.Apt

open ShellfleetAgent.Lib

/-- The task watches the result file `path`, or is about to, for an upgrade of `p`. -/
def Stage.holds : Stage → Str → Option Str → Prop
  | .preparing p now pid _ _, path, q => path = resultPath (runId now pid) ∧ p = q
  | .watching st, path, q => st.resultPath = some path ∧ st.package = q
  | _, _, _ => False

/-- Something on the host, or a task, has to do with the result file for an upgrade of `p`. -/
def Borne (a : Attributed) (v : Nat → Option Stage) (path : Str) (p : Option Str) : Prop :=
  a.Bears path p ∨ ∃ t x, v t = some x ∧ x.holds path p

/-- Each result file is one package's, also with the tasks. -/
structure SourceInv (a : Attributed) (v : Nat → Option Stage) : Prop where
  named : a.Named
  distinct : ∀ path p q, Borne a v path p → Borne a v path q → p = q

/-- A request finds no run of another package, and a start takes no id that something bears
for another package. -/
def UnmixedCall (a : Attributed) (v : Nat → Option Stage) (ch : AptChoice) : Stage → AptOp → Prop
  | .asked p, .readState =>
      ch.isGood = true → ∀ found ∈ a.world.stateFile.parsed, found.package = p
  | .starting p (some now), .processId =>
      ∀ q, Borne a v (resultPath (runId now a.world.pid)) q → q = p
  | _, _ => True

def Unmixed (s : AttributedState) : AgentLabel → Prop
  | .act t ch => ∀ x o, agentStaged.stages s t = some x → s.next t = some o →
      UnmixedCall s.world (agentStaged.stages s) ch x o
  | _ => True

theorem scriptPath_injective {run run' : Str} (h : scriptPath run = scriptPath run') :
    run = run' := by
  unfold scriptPath stateFile at h
  have hname := List.append_cancel_right (List.append_cancel_left h)
  exact List.append_cancel_left hname

section Inv

variable {a a' : Attributed} {v v' : Nat → Option Stage} {t : Nat} {x : Stage} {o : AptOp}
  {ch : AptChoice}

/-- What the host and the tasks bear after a step they have borne before. -/
theorem SourceInv.of_borne (hI : SourceInv a v) (hnamed : a'.Named)
    (hborne : ∀ path p, Borne a' v' path p → Borne a v path p) : SourceInv a' v' where
  named := hnamed
  distinct path p q hp hq := hI.distinct path p q (hborne path p hp) (hborne path q hq)

theorem Attributed.Bears.of_same {clock pid : Nat} {path : Str} {p : Option Str}
    (h : Attributed.Bears { a with world := { a.world with clock := clock, pid := pid } } path p) :
    a.Bears path p := by
  cases h with
  | unit hu hpending hscript hpath hpackage => exact .unit hu hpending hscript hpath hpackage
  | result htext hauthor => exact .result htext hauthor
  | state hst hpath hpackage => exact .state hst hpath hpackage

/-- A task that changes its stage holds what it, or the host, has held before. -/
theorem borne_update {y : Option Stage} (hhost : ∀ path p, a'.Bears path p → Borne a v path p)
    (hy : ∀ z ∈ y, ∀ path p, z.holds path p → Borne a v path p) (path : Str) (p : Option Str)
    (h : Borne a' (Function.update v t y) path p) : Borne a v path p := by
  rcases h with hbears | ⟨u, z, hu, hz⟩
  · exact hhost path p hbears
  · rcases update_cases hu with ⟨_, rfl⟩ | ⟨_, hu⟩
    · exact hy z rfl path p hz
    · exact .inr ⟨u, z, hu, hz⟩

/-- A call starts a unit, creates a wrapper or writes the state only where that is its
operation, and no call creates a result. -/
theorem exec_changes (w : AptWorld) (o : AptOp) (ch : AptChoice) :
    (∀ unit u, (w.exec o ch).1.units unit = some u → w.units unit = some u ∨
      ∃ script mode package, o = .systemdRun unit script mode package ∧
        u = ⟨script, mode, package, none, .queued⟩) ∧
    (∀ path s, (w.exec o ch).1.scripts path = some (some s) →
      w.scripts path = some (some s) ∨ o = .writeScript path s) ∧
    (∀ path text, (w.exec o ch).1.results path = some text → w.results path = some text) ∧
    ∀ st, (w.exec o ch).1.stateFile.parsed = some st →
      w.stateFile.parsed = some st ∨ o = .writeState st := by
  have hsame : (∀ unit u, w.units unit = some u → w.units unit = some u ∨
      ∃ script mode package, o = .systemdRun unit script mode package ∧
        u = ⟨script, mode, package, none, .queued⟩) ∧
    (∀ path s, w.scripts path = some (some s) →
      w.scripts path = some (some s) ∨ o = .writeScript path s) ∧
    (∀ path text, w.results path = some text → w.results path = some text) ∧
    ∀ st, w.stateFile.parsed = some st → w.stateFile.parsed = some st ∨ o = .writeState st :=
    ⟨fun _ _ => .inl, fun _ _ => .inl, fun _ _ => id, fun _ => .inl⟩
  obtain ⟨hunits, hscripts, hresults, hstate⟩ := hsame
  cases o with
  | readState | readLog path | readResult path | unitStatus unit | nowUnix | processId =>
      exact ⟨hunits, hscripts, hresults, hstate⟩
  | createStateDir | chmodScript path => cases ch <;> exact ⟨hunits, hscripts, hresults, hstate⟩
  | openState | clearState =>
      cases ch with
      | good => exact ⟨hunits, hscripts, hresults, nofun⟩
      | bad e touched => exact ⟨hunits, hscripts, hresults, hstate⟩
  | writeState st =>
      refine ⟨hunits, hscripts, hresults, fun st' hst => ?_⟩
      cases ch with
      | good => exact .inr (congrArg AptOp.writeState (Option.some.inj hst))
      | bad e touched => cases hst
  | removeFile path =>
      cases ch with
      | bad e touched => exact ⟨hunits, hscripts, hresults, hstate⟩
      | good =>
          exact ⟨hunits, fun p s hs => .inl (update_none hs).2,
            fun p text htext => (update_none htext).2, hstate⟩
  | writeScript path script =>
      cases ch with
      | good =>
          refine ⟨hunits, fun p s hs => ?_, hresults, hstate⟩
          rcases update_some hs with ⟨rfl, heq⟩ | ⟨_, hs⟩
          · exact .inr (by rw [Option.some.inj heq])
          · exact .inl hs
      | bad e touched =>
          cases touched with
          | false => exact ⟨hunits, hscripts, hresults, hstate⟩
          | true =>
              refine ⟨hunits, fun p s hs => ?_, hresults, hstate⟩
              rcases update_some hs with ⟨_, hs⟩ | ⟨_, hs⟩
              · cases hs
              · exact .inl hs
  | systemdRun unit script mode package =>
      cases ch with
      | bad e touched => cases touched <;> exact ⟨hunits, hscripts, hresults, hstate⟩
      | good =>
          unfold AptWorld.exec AptWorld.execSystemdRun
          dsimp only
          split
          · exact ⟨hunits, hscripts, hresults, hstate⟩
          · refine ⟨fun name u hu => ?_, hscripts, hresults, hstate⟩
            rcases update_some hu with ⟨rfl, rfl⟩ | ⟨_, hu⟩
            · exact .inr ⟨script, mode, package, rfl, rfl⟩
            · exact .inl hu

/-- What a call leaves on the host has been there, or is in the hands of its task. -/
theorem exec_bears (hmay : x.may o) {sources : Nat → Option (Option Str)} (path : Str)
    (p : Option Str) (h : Attributed.Bears ⟨(a.world.exec o ch).1, a.authors, sources⟩ path p) :
    a.Bears path p ∨ x.holds path p := by
  obtain ⟨hunits, _, hresults, hstate⟩ := exec_changes a.world o ch
  cases h with
  | result htext hauthor => exact .inl (.result (hresults _ _ htext) hauthor)
  | @unit unit run u hu hpending hscript hpath hpackage =>
      rcases hunits _ _ hu with hu | ⟨script, mode, package, rfl, rfl⟩
      · exact .inl (.unit hu hpending hscript hpath hpackage)
      · right
        cases x with
        | preparing q now pid scripted written =>
            obtain ⟨_, rfl, rfl, _⟩ := hmay
            obtain rfl : runId now pid = run := scriptPath_injective hscript
            exact ⟨hpath, hpackage⟩
        | starting q now => cases now <;> cases hmay
        | _ => cases hmay
  | @state st hst hpath hpackage =>
      rcases hstate _ hst with hst | rfl
      · exact .inl (.state hst hpath hpackage)
      · right
        cases x with
        | preparing q now pid scripted written =>
            obtain rfl : st = newState q now pid := hmay
            exact ⟨(Option.some.inj hpath).symm, hpackage⟩
        | watching st' =>
            have hsame : SameRun st' st := hmay
            exact ⟨hsame.resultPath.symm.trans hpath, hsame.package.symm.trans hpackage⟩
        | starting q now => cases now <;> cases hmay
        | _ => cases hmay

/-- A call creates what its run is to have. -/
theorem exec_named (hmay : x.may o) {sources : Nat → Option (Option Str)} (h : a.Named) :
    Attributed.Named ⟨(a.world.exec o ch).1, a.authors, sources⟩ := by
  obtain ⟨hunits, hscripts, hresults, _⟩ := exec_changes a.world o ch
  refine ⟨fun unit u hu => ?_, fun path s hs => ?_, fun path text htext => ?_⟩
  · rcases hunits unit u hu with hu | ⟨script, mode, package, rfl, rfl⟩
    · exact h.units unit u hu
    · cases x with
      | preparing q now pid scripted written =>
          obtain ⟨_, rfl, _⟩ := hmay
          exact ⟨runId now pid, rfl, nofun⟩
      | starting q now => cases now <;> cases hmay
      | _ => cases hmay
  · rcases hscripts path s hs with hs | rfl
    · exact h.scripts path s hs
    · cases x with
      | preparing q now pid scripted written =>
          obtain ⟨rfl, rfl, _⟩ := hmay
          exact ⟨runId now pid, rfl, rfl⟩
      | starting q now => cases now <;> cases hmay
      | _ => cases hmay
  · exact h.results path text (hresults path text htext)

/-- A task gets hold of a result file by reading the state file or by taking an id. -/
theorem next_holds (hmay : x.may o) (path : Str) (p : Option Str)
    (h : (x.next ⟨o, (a.world.exec o ch).2⟩).holds path p) :
    x.holds path p ∨ a.Bears path p ∨ ∃ now, x = .starting p (some now) ∧ o = .processId ∧
      path = resultPath (runId now a.world.pid) := by
  have hmoved := Stage.moved (r := (a.world.exec o ch).2) hmay
  generalize x.next ⟨o, (a.world.exec o ch).2⟩ = y at h hmoved
  cases hmoved with
  | joins hx he =>
      obtain rfl : o = .readState := congrArg Event.op he
      have hst := eq_of_heq (Event.mk.inj he).2
      cases ch with
      | good => exact .inr (.inl (.state hst h.1 h.2))
      | bad e touched => cases hst
  | names hx he =>
      obtain rfl : o = .processId := congrArg Event.op he
      obtain rfl := eq_of_heq (Event.mk.inj he).2
      obtain ⟨rfl, rfl⟩ := h
      exact .inr (.inr ⟨_, hx, rfl, rfl⟩)
  | prepares hx =>
      rw [hx]
      exact .inl h
  | starts hx =>
      rw [hx]
      exact .inl ⟨(Option.some.inj h.1).symm, h.2⟩
  | watches hx =>
      rw [hx]
      exact .inl h
  | begins | clocks | waits => cases h
  | clears hy => rcases hy with rfl | rfl | rfl <;> cases h

/-- A call keeps each result file one package's. -/
theorem SourceInv.act (hI : SourceInv a v) (ht : v t = some x) (hmay : x.may o)
    (hok : UnmixedCall a v ch x o) {sources : Nat → Option (Option Str)} :
    SourceInv ⟨(a.world.exec o ch).1, a.authors, sources⟩
      (Function.update v t (some (x.next ⟨o, (a.world.exec o ch).2⟩))) := by
  refine ⟨exec_named hmay hI.named, ?_⟩
  have hheld : ∀ path p, x.holds path p → Borne a v path p := fun path p h => .inr ⟨t, x, ht, h⟩
  have hborne : ∀ path p, Borne ⟨(a.world.exec o ch).1, a.authors, sources⟩
      (Function.update v t (some (x.next ⟨o, (a.world.exec o ch).2⟩))) path p →
      Borne a v path p ∨ ∃ now, x = .starting p (some now) ∧ o = .processId ∧
        path = resultPath (runId now a.world.pid) := by
    intro path p h
    rcases h with hbears | ⟨u, z, hu, hz⟩
    · exact .inl ((exec_bears hmay path p hbears).elim .inl (hheld path p))
    · rcases update_some hu with ⟨_, rfl⟩ | ⟨_, hu⟩
      · rcases next_holds hmay path p hz with hx | hbears | htaken
        · exact .inl (hheld path p hx)
        · exact .inl (.inl hbears)
        · exact .inr htaken
      · exact .inl (.inr ⟨u, z, hu, hz⟩)
  intro path p q hp hq
  rcases hborne path p hp with hp' | ⟨now, rfl, rfl, rfl⟩
  · rcases hborne path q hq with hq' | ⟨now, rfl, rfl, rfl⟩
    · exact hI.distinct path p q hp' hq'
    · exact hok p hp'
  · rcases hborne _ q hq with hq' | ⟨now', heq, _⟩
    · exact (hok q hq').symm
    · cases heq
      rfl

/-- A unit stays the same run's, and writes no result that it has not been able to. -/
theorem UnitMove.keeps {w : AptWorld} {u u' : SystemdUnit} {st : UnitStep}
    {results : Str → Option Str} (h : UnitMove w u st u' results) :
    u'.script = u.script ∧ u'.package = u.package ∧
      (u'.phase.pending = true → u.phase.pending = true) ∧
      (u'.wrapper = u.wrapper ∨ ∃ s, w.scripts u.script = some (some s) ∧ u'.wrapper = some s) := by
  cases h with
  | start hphase hs => exact ⟨rfl, rfl, fun _ => by rw [hphase]; rfl, .inr ⟨_, hs, rfl⟩⟩
  | print text => exact ⟨rfl, rfl, id, .inl rfl⟩
  | runApt apt dpkg fix hphase | openResult _ hphase =>
      exact ⟨rfl, rfl, fun _ => by rw [hphase]; rfl, .inl rfl⟩
  | failed | writeResult | exit | unload => exact ⟨rfl, rfl, nofun, .inl rfl⟩

/-- A result that is there after a step of a unit has been there before, or has been created
by the unit. -/
theorem results_authors {unit : Str} {u u' : SystemdUnit} {st : UnitStep}
    {results : Str → Option Str} (hnamed : a.Named) (hu : a.world.units unit = some u)
    (h : UnitMove a.world u st u' results) (path text : Str) (htext : results path = some text) :
    ((∃ text', a.world.results path = some text') ∧
      a.authorsAfter unit st path = a.authors path) ∨
    ∃ run, u.phase.pending = true ∧ u.script = scriptPath run ∧ path = resultPath run ∧
      a.authorsAfter unit st path = some u.package := by
  cases h with
  | start | failed | print | runApt | exit | unload => exact .inl ⟨⟨text, htext⟩, rfl⟩
  | @writeResult s rc hs hphase =>
      left
      refine ⟨?_, rfl⟩
      rcases update_cases htext with ⟨rfl, hmap⟩ | ⟨_, hkept⟩
      · obtain ⟨text', htext', _⟩ := Option.map_eq_some_iff.mp hmap
        exact ⟨text', htext'⟩
      · exact ⟨text, hkept⟩
  | @openResult s rc hs hphase =>
      have hauthors : a.authorsAfter unit .openResult =
          Function.update a.authors s.resultPath (some u.package) := by
        obtain ⟨script, mode, package, wrapper, phase⟩ := u
        obtain rfl : wrapper = some s := hs
        rw [Attributed.authorsAfter, hu]
      rw [hauthors]
      rcases update_cases htext with ⟨rfl, _⟩ | ⟨hne, hkept⟩
      · obtain ⟨run, hrun, hnames⟩ := hnamed.units unit u hu
        refine .inr ⟨run, by rw [hphase]; rfl, hrun, by rw [hnames s hs], ?_⟩
        exact Function.update_self ..
      · exact .inl ⟨⟨text, hkept⟩, Function.update_of_ne hne ..⟩

/-- A unit writes to the result file of its run. -/
theorem SourceInv.unit {unit : Str} {u : SystemdUnit} {st : UnitStep} {w' : AptWorld}
    (hI : SourceInv a v) (hu : a.world.units unit = some u)
    (hs : a.world.unitStep unit u st = some w') :
    SourceInv { a with world := w', authors := a.authorsAfter unit st } v := by
  obtain ⟨u', logs, results, hmove, rfl⟩ := unitStep_move hu hs
  obtain ⟨hscript, hpackage, hpending, hwrapper⟩ := hmove.keeps
  have hresults := results_authors hI.named hu hmove
  refine hI.of_borne ⟨fun name z hz => ?_, hI.named.scripts, fun path text htext => ?_⟩ ?_
  · rcases update_some hz with ⟨rfl, rfl⟩ | ⟨_, hz⟩
    · obtain ⟨run, hrun, hnames⟩ := hI.named.units name u hu
      rcases hwrapper with hsame | ⟨s, hs, hsome⟩
      · refine ⟨run, hscript.trans hrun, fun s hs => hnames s (hsame.symm.trans hs)⟩
      · obtain ⟨run', hrun', rfl⟩ := hI.named.scripts _ s hs
        refine ⟨run', hscript.trans hrun', fun s' hs' => ?_⟩
        exact (Option.some.inj (hsome.symm.trans hs')).symm
    · exact hI.named.units name z hz
  · rcases hresults path text htext with ⟨⟨text', htext'⟩, hauthor⟩ | ⟨_, _, _, _, hauthor⟩
    · exact fun hnone => hI.named.results path text' htext' (hauthor.symm.trans hnone)
    · exact fun hnone => Option.some_ne_none _ (hauthor.symm.trans hnone)
  · rintro path p (hbears | htask)
    · left
      cases hbears with
      | state hst hpath hp => exact .state hst hpath hp
      | unit hz hz' hrun hpath hp =>
          rcases update_some hz with ⟨rfl, rfl⟩ | ⟨_, hz⟩
          · exact .unit hu (hpending hz') (hscript.symm.trans hrun) hpath (hpackage.symm.trans hp)
          · exact .unit hz hz' hrun hpath hp
      | result htext hp =>
          rcases hresults path _ htext with ⟨⟨text', htext'⟩, hauthor⟩ |
            ⟨run, hopen, hrun, hpath, hauthor⟩
          · exact .result htext' (hauthor.symm.trans hp)
          · exact .unit hu hopen hrun hpath (Option.some.inj (hauthor.symm.trans hp))
    · exact .inr htask

theorem agentStaged_sources : agentStaged.Sound attributedHost Unmixed SourceInv where
  init a ha := by
    refine ⟨ha.1, fun path p q hp hq => ?_⟩
    rcases hp with hp | ⟨_, _, hnone, _⟩
    · rcases hq with hq | ⟨_, _, hnone, _⟩
      · exact ha.2 path p q hp hq
      · cases hnone
    · cases hnone
  spawn s t c a hI ht _ ha := by
    cases ha
    refine hI.of_borne hI.named (borne_update (fun _ _ => .inl) fun z hz path p hholds => ?_)
    cases hz
    cases c <;> cases hholds
  act s t ch o x a r hI ht hnext hmay hok ha := by
    obtain ⟨rfl, rfl⟩ := Prod.mk.inj (Option.some.inj ha)
    exact ⟨trivial, hI.act ht hmay (hok x o ht hnext)⟩
  ended a v t x hI _ _ :=
    hI.of_borne hI.named (borne_update (fun _ _ => .inl) nofun)
  kill s t x hI _ _ :=
    hI.of_borne hI.named (borne_update (fun _ _ => .inl) nofun)
  env s e a hI _ ha := by
    cases e with
    | unit unit step =>
        obtain ⟨w, hw, rfl⟩ := Option.map_eq_some_iff.mp ha
        obtain ⟨u, hu, hs⟩ := Option.bind_eq_some_iff.mp hw
        exact hI.unit hu hs
    | setClock now =>
        cases ha
        refine hI.of_borne ⟨hI.named.units, hI.named.scripts, hI.named.results⟩ ?_
        exact fun path p h => h.imp_left Attributed.Bears.of_same
    | setPid pid =>
        cases ha
        refine hI.of_borne ⟨hI.named.units, hI.named.scripts, hI.named.results⟩ ?_
        exact fun path p h => h.imp_left Attributed.Bears.of_same

end Inv

/-! ## What a request has read -/

/-- A request for `p` at that stage has to do with runs for `p` only. -/
def Stage.isFor (p : Option Str) : Stage → Prop
  | .asked q | .starting q _ | .preparing q _ _ _ _ => q = p
  | .watching st => st.package = p
  | .pending _ => False
  | .refused | .ending | .finished => True

/-- All that a request for `p` has found was for `p`; and once it has read a result, which is
the last it watches, that was for `p` too. -/
structure Sourced (source : Option (Option Str)) (p : Option Str) (x : Stage) (h : AptHistory) :
    Prop where
  own : x.isFor p
  found : ∀ st, gotState (some st) ∈ h → st.package = p
  told : ∀ path text, gotResult path text ∈ h → x = .ending ∧ source = some p

section Requests

variable {a : Attributed} {v : Nat → Option Stage} {t : Nat} {x : Stage} {o : AptOp}
  {ch : AptChoice} {p : Option Str} {h : AptHistory}

theorem sourcesAfter_of_ne {u : Nat} (hu : u ≠ t) (r : AptResp o) :
    a.sourcesAfter t o r u = a.sources u := by
  unfold Attributed.sourcesAfter
  split
  · exact Function.update_of_ne hu ..
  · rfl

theorem isFor_next (hx : x.isFor p) (hmay : x.may o)
    (hok : UnmixedCall a v ch x o) : (x.next ⟨o, (a.world.exec o ch).2⟩).isFor p := by
  have hmoved := Stage.moved (r := (a.world.exec o ch).2) hmay
  generalize x.next ⟨o, (a.world.exec o ch).2⟩ = y at hmoved ⊢
  cases hmoved with
  | @joins st hasked he =>
      obtain rfl : o = .readState := congrArg Event.op he
      have hst := eq_of_heq (Event.mk.inj he).2
      rcases hasked with ⟨q, rfl⟩ | rfl
      · obtain rfl : q = p := hx
        cases ch with
        | good => exact hok rfl st hst
        | bad e touched => cases hst
      · exact hx.elim
  | begins heq | clocks heq | names heq | prepares heq | starts heq | watches heq =>
      subst heq
      exact hx
  | waits heq =>
      subst heq
      exact hx.elim
  | clears hy => rcases hy with rfl | rfl | rfl <;> trivial

/-- A task's own call keeps this. -/
theorem Sourced.act (hS : Sourced (a.sources t) p x h) (hI : SourceInv a v) (ht : v t = some x)
    (hmay : x.may o) (hok : UnmixedCall a v ch x o) :
    Sourced (a.sourcesAfter t o (a.world.exec o ch).2 t) p
      (x.next ⟨o, (a.world.exec o ch).2⟩) (h ++ [⟨o, (a.world.exec o ch).2⟩]) where
  own := isFor_next hS.own hmay hok
  found st hst := by
    rcases List.mem_append.mp hst with hst | hst
    · exact hS.found st hst
    · have hevent := List.mem_singleton.mp hst
      obtain rfl : AptOp.readState = o := congrArg Event.op hevent
      have hread : (a.world.exec .readState ch).2 = some st := by
        simpa [gotState, eq_comm] using hevent
      have hnext := isFor_next hS.own hmay hok
      cases x with
      | asked q =>
          rw [hread] at hnext
          exact hnext
      | pending found => exact hS.own.elim
      | starting q now => cases now <;> cases hmay
      | _ => cases hmay
  told path text htext := by
    rcases List.mem_append.mp htext with htext | htext
    · obtain ⟨rfl, hsource⟩ := hS.told path text htext
      cases o with
      | removeFile path' | clearState => exact ⟨rfl, hsource⟩
      | _ => cases hmay
    · have hevent := List.mem_singleton.mp htext
      obtain rfl : AptOp.readResult path = o := congrArg Event.op hevent
      have hread : (a.world.exec (.readResult path) ch).2 = some text := by
        simpa [gotResult, eq_comm] using hevent
      cases x with
      | watching st =>
          rw [hread]
          refine ⟨rfl, ?_⟩
          have hthere : a.world.results path = some text := by
            cases ch with
            | good => exact hread
            | bad e touched => cases hread
          obtain ⟨q, hauthor⟩ := Option.ne_none_iff_exists'.mp
            (hI.named.results path text hthere)
          have hq : q = st.package := hI.distinct path q st.package
            (.inl (.result hthere hauthor)) (.inr ⟨t, _, ht, hmay, rfl⟩)
          have hown : st.package = p := hS.own
          rw [Attributed.sourcesAfter, Function.update_self, hauthor, hq, hown]
      | starting q now => cases now <;> cases hmay
      | _ => cases hmay

/-- In a run whose steps meet the condition, requests have read their own package's state and
result only. -/
theorem sourced_reach {s : AttributedState} (hr : attributedPool.Reach Unmixed s) :
    ∀ t tr, s.view t = some tr → ∀ p, tr.call = .request p →
      Sourced (s.world.sources t) p (agentStaged.reached tr.call tr.hist) tr.hist := by
  refine hr.invariant (I := fun s => ∀ t tr, s.view t = some tr → ∀ p, tr.call = .request p →
    Sourced (s.world.sources t) p (agentStaged.reached tr.call tr.hist) tr.hist) ?_ ?_
  · intro s hs t tr ht
    rw [Pool.State.view, hs.2 t] at ht
    cases ht
  · intro s i s' hr hS hok hs
    obtain ⟨hI, hK⟩ := Staged.invariant agentStaged_holds agentStaged_sources hr
    rcases Pool.step_cases hs with ⟨t, c, w, rfl, hn, hw, rfl⟩ |
      ⟨t, ch, c, o, k, hist, w, r, rfl, ht, hw, rfl⟩ | ⟨t, c, l, hist, rfl, ht, rfl⟩ |
      ⟨t, c, q, hist, rfl, ht, hq, rfl⟩ | ⟨e, w, rfl, hw, rfl⟩
    · cases hw
      rw [Pool.State.view_set]
      refine forall_update (fun u x _ hu => hS u x hu) fun x hx p hp => ?_
      cases hx
      obtain rfl : c = .request p := hp
      refine ⟨rfl, fun st hst => ?_, fun path text htext => ?_⟩
      · cases hst
      · cases htext
    · obtain ⟨rfl, rfl⟩ := Prod.mk.inj (Option.some.inj hw)
      have hstage : agentStaged.stages s t = some (agentStaged.reached c hist) := by
        rw [Staged.stages, ht]
        rfl
      have hnext : s.next t = some o := by
        rw [Pool.State.next, ht]
      obtain ⟨hmay, _⟩ := hK t _ ht rfl
      rw [Pool.State.view_set]
      refine forall_update (fun u x hu hx p hp => ?_) fun x hx p hp => ?_
      · have hkept := hS u x hx p hp
        rw [← sourcesAfter_of_ne hu (s.world.world.exec o ch).2] at hkept
        exact hkept
      · cases hx
        have hbefore := hS t _ (Pool.State.view_eq ht) p hp
        show Sourced _ p (agentStaged.reached c (hist ++ [_])) (hist ++ [_])
        rw [Staged.reached_snoc]
        exact hbefore.act hI hstage hmay (hok _ _ hstage hnext)
    · rw [Pool.State.view_set]
      refine forall_update (fun u x _ hu => hS u x hu) fun x hx p hp => ?_
      cases hx
      exact hS t _ (Pool.State.view_eq ht) p hp
    · rw [Pool.State.view_set]
      refine forall_update (fun u x _ hu => hS u x hu) fun x hx p hp => ?_
      cases hx
      exact hS t _ (Pool.State.view_eq ht) p hp
    · intro t tr ht p hp
      have hkept := hS t tr ht p hp
      cases e with
      | unit unit step =>
          obtain ⟨w', _, rfl⟩ := Option.map_eq_some_iff.mp hw
          exact hkept
      | setClock now =>
          cases hw
          exact hkept
      | setPid pid =>
          cases hw
          exact hkept

end Requests

end ShellfleetAgent.Agent.Apt
