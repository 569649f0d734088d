import ShellfleetAgent.Agent.AptWorld

/-!
# What the watchers of an upgrade report

A watcher decides by one of two sightings: a result file, or a unit that has
ended. What it returns rests on nothing else (`watchRound_wp`), and that is all
its code contributes. The rest is about the host: when each sighting can be
made, and what it means for the wrapper's `rc`. Two of them mislead, the result
file between its truncation and the line that is written to it, and a unit that
is gone because it has finished; whoever makes neither is right.
-/

namespace ShellfleetAgent.Agent.Apt

open ShellfleetAgent.Lib

/-! ## Sightings -/

abbrev AptEvent := Event AptOp AptResp

def gotResult (path text : Str) : AptEvent := ⟨.readResult path, some text⟩

def gotStatus (unit : Str) (u : UnitStatus) : AptEvent := ⟨.unitStatus unit, some u⟩

def gotState (found : Option AptRunState) : AptEvent := ⟨.readState, found⟩

/-- What a watcher calls. -/
def AptOp.watches : AptOp → Prop
  | .readState | .nowUnix | .processId | .writeScript .. | .chmodScript _ | .systemdRun .. => False
  | _ => True

/-- Two states of one run; only the log has moved. -/
structure SameRun (a b : AptRunState) : Prop where
  package : b.package = a.package
  unitName : b.unitName = a.unitName
  logPath : b.logPath = a.logPath
  resultPath : b.resultPath = a.resultPath
  scriptPath : b.scriptPath = a.scriptPath

theorem SameRun.refl (a : AptRunState) : SameRun a a := ⟨rfl, rfl, rfl, rfl, rfl⟩

theorem SameRun.trans {a b c : AptRunState} (hab : SameRun a b) (hbc : SameRun b c) :
    SameRun a c where
  package := hbc.package.trans hab.package
  unitName := hbc.unitName.trans hab.unitName
  logPath := hbc.logPath.trans hab.logPath
  resultPath := hbc.resultPath.trans hab.resultPath
  scriptPath := hbc.scriptPath.trans hab.scriptPath

/-- The sighting that the end of a watch rests on. -/
def RestsOn (state : AptRunState) (path : Str) (h : AptHistory) : Ended → Prop
  | .returned success _ _ =>
      (∃ text, gotResult path text ∈ h ∧
        (success = true ↔ Text.trim text = "success".toList)) ∨
      (success = false ∧ ∃ unit u, state.unitName = some unit ∧ gotStatus unit u ∈ h ∧
        u.ended = true)
  | .panicked => True

theorem RestsOn.same {a b : AptRunState} {path : Str} {h : AptHistory} {e : Ended}
    (hab : SameRun a b) (he : RestsOn b path h e) : RestsOn a path h e := by
  cases e with
  | panicked => trivial
  | returned success log error =>
      rcases he with he | ⟨hs, unit, u, hunit, hu⟩
      · exact .inl he
      · exact .inr ⟨hs, unit, u, hab.unitName.symm.trans hunit, hu⟩

section Watch

variable {C : Contract AptOp AptResp} {h : AptHistory}

/-- A program of calls that are all allowed may be answered anything. -/
theorem wp_only {S : AptOp → Prop} (hC : ∀ h o, S o → C.may h o) {α : Type} {p : AptM α}
    (hp : p.Only S) {Q : AptHistory → α → Prop} (hQ : ∀ e a, Q (h ++ e) a) : C.wp p Q h := by
  have htrue : C.wp p (fun _ _ => True) h :=
    Contract.wp_of_only hp (I := fun _ => True) (fun h o _ ho => ⟨hC h o ho, fun _ _ => trivial⟩)
      trivial
  refine Contract.wp_mono (Contract.wp_returns htrue) ?_
  rintro h' a ⟨_, e, rfl, _⟩
  exact hQ e a

theorem only_removeFile (path : Option Str) : (removeFile path).Only AptOp.watches := by
  cases path with
  | none => trivial
  | some path => exact Prog.only_perform.mpr trivial

theorem only_cleanupRunFiles (state : AptRunState) :
    (cleanupRunFiles state).Only AptOp.watches :=
  (only_removeFile _).bind fun _ => (only_removeFile _).bind fun _ => only_removeFile _

theorem only_writeState (state : AptRunState) : (writeState state).Only AptOp.watches := by
  refine Prog.Only.bind (Prog.only_perform.mpr trivial) fun _ => ?_
  refine Prog.Only.bind (Prog.only_perform.mpr trivial) fun opened => ?_
  split
  · exact Prog.only_perform.mpr trivial
  · trivial

variable (hC : ∀ h o, o.watches → C.may h o)

include hC

theorem refreshLog_wp (state : AptRunState) :
    C.wp (refreshLog state) (fun h' r => h <+: h' ∧ ∀ st ∈ r, SameRun state st) h := by
  unfold refreshLog
  split
  · refine ⟨List.prefix_rfl, fun st hst => ?_⟩
    cases hst
    exact .refl _
  · next path _ =>
      refine ⟨hC _ _ trivial, fun r _ => ?_⟩
      have hkeep : h <+: h ++ [⟨.readLog path, r⟩] := List.prefix_append _ _
      dsimp only [Prog.bind]
      cases r with
      | none =>
          refine ⟨hkeep, fun st hst => ?_⟩
          cases hst
          exact .refl _
      | some bytes =>
          dsimp only
          split
          · exact ⟨hkeep, fun st hst => by cases hst⟩
          · rw [Prog.bind_eq, Contract.wp_bind]
            refine wp_only hC (only_writeState _) fun e _ => ?_
            refine ⟨hkeep.trans (List.prefix_append _ _), fun st hst => ?_⟩
            cases hst
            exact ⟨rfl, rfl, rfl, rfl, rfl⟩

theorem finish_wp (state : AptRunState) (result : Str) :
    C.wp (finish state result) (fun h' e => h <+: h' ∧ ∃ success log error,
      e = .returned success log error ∧
        (success = true ↔ Text.trim result = "success".toList)) h := by
  unfold finish
  simp only [Prog.bind_eq, Contract.wp_bind]
  refine wp_only hC (only_cleanupRunFiles _) fun e _ => ?_
  refine ⟨hC _ _ trivial, fun r _ => ⟨?_, _, _, _, rfl, decide_eq_true_iff⟩⟩
  rw [List.append_assoc]
  exact List.prefix_append _ _

theorem giveUp_wp (state : AptRunState) (u : UnitStatus) :
    C.wp (giveUp state u) (fun h' e => h <+: h' ∧ ∃ log error,
      e = .returned false log error) h := by
  unfold giveUp
  simp only [Prog.bind_eq, Contract.wp_bind]
  refine wp_only hC (only_cleanupRunFiles _) fun e _ => ?_
  refine ⟨hC _ _ trivial, fun r _ => ⟨?_, _, _, rfl⟩⟩
  rw [List.append_assoc]
  exact List.prefix_append _ _

/-- A round goes on with the same run, or ends on a sighting. -/
theorem watchRound_wp (path : Str) (state : AptRunState) :
    C.wp (watchRound path state) (fun h' r => h <+: h' ∧ match r with
      | .inl l => SameRun state l.1 ∧ l.2 = path
      | .inr e => RestsOn state path h' e) h := by
  unfold watchRound
  rw [Prog.bind_eq, Contract.wp_bind]
  refine Contract.wp_mono (refreshLog_wp hC state) ?_
  rintro h₁ r ⟨hpre, hsame⟩
  cases r with
  | none => exact ⟨hpre, trivial⟩
  | some st =>
      have hst := hsame st rfl
      refine ⟨hC _ _ trivial, fun r _ => ?_⟩
      have hpre₂ : h <+: h₁ ++ [⟨.readResult path, r⟩] := hpre.trans (List.prefix_append _ _)
      dsimp only [Prog.bind]
      cases r with
      | some text =>
          dsimp only
          rw [Prog.bind_eq, Contract.wp_bind]
          refine Contract.wp_mono (finish_wp hC st text) ?_
          rintro h₃ e ⟨hpre₃, success, log, error, rfl, hsuccess⟩
          refine ⟨hpre₂.trans hpre₃, .inl ⟨text, hpre₃.subset ?_, hsuccess⟩⟩
          exact List.mem_append_right _ (List.mem_singleton_self _)
      | none =>
          dsimp only
          split
          · exact ⟨hpre₂, hst, rfl⟩
          · next unit hunit =>
              refine ⟨hC _ _ trivial, fun r _ => ?_⟩
              have hpre₃ := hpre₂.trans (List.prefix_append _ [⟨.unitStatus unit, r⟩])
              dsimp only [Prog.bind]
              cases r with
              | none => exact ⟨hpre₃, hst, rfl⟩
              | some u =>
                  dsimp only
                  split
                  · next hended =>
                      rw [Prog.bind_eq, Contract.wp_bind]
                      refine Contract.wp_mono (giveUp_wp hC st u) ?_
                      rintro h₄ e ⟨hpre₄, log, error, rfl⟩
                      refine ⟨hpre₃.trans hpre₄, .inr ⟨rfl, unit, u, ?_, ?_, hended⟩⟩
                      · exact hst.unitName.symm.trans hunit
                      · refine hpre₄.subset ?_
                        exact List.mem_append_right _ (List.mem_singleton_self _)
                  · exact ⟨hpre₃, hst, rfl⟩

end Watch

/-! ## One run -/

/-- What a step makes of a unit and of the results. -/
inductive UnitMove (w : AptWorld) (u : SystemdUnit) :
    UnitStep → SystemdUnit → (Str → Option Str) → Prop
  | start {s : Script} (hphase : u.phase = .queued) (hs : w.scripts u.script = some (some s)) :
      UnitMove w u .start { u with wrapper := some s, phase := .running } w.results
  | failed {rc : Nat} (hphase : u.phase = .queued) (hrc : rc ≠ 0) :
      UnitMove w u .start { u with phase := .exited rc } w.results
  | print (text : Bytes) : UnitMove w u (.print text) u w.results
  | runApt (apt dpkg fix : Nat) (hphase : u.phase = .running) :
      UnitMove w u (.runApt apt dpkg fix) { u with phase := .decided (scriptRc apt dpkg fix) }
        w.results
  | openResult {s : Script} {rc : Nat} (hs : u.wrapper = some s) (hphase : u.phase = .decided rc) :
      UnitMove w u .openResult { u with phase := .opened rc }
        (Function.update w.results s.resultPath (some []))
  | writeResult {s : Script} {rc : Nat} (hs : u.wrapper = some s) (hphase : u.phase = .opened rc) :
      UnitMove w u .writeResult { u with phase := .written rc }
        (Function.update w.results s.resultPath
          ((w.results s.resultPath).map fun _ => resultLine rc))
  | exit {rc : Nat} (hphase : u.phase = .written rc) :
      UnitMove w u .exit { u with phase := .exited rc } w.results
  | unload {rc : Nat} (hphase : u.phase = .exited rc) :
      UnitMove w u .unload { u with phase := .unloaded rc } w.results

/-- What one step of a unit can be. Apart from the unit and the results it changes a log at
most. -/
theorem unitStep_move {w w' : AptWorld} {unit : Str} {u : SystemdUnit} {st : UnitStep}
    (hu : w.units unit = some u) (h : w.unitStep unit u st = some w') :
    ∃ u' logs results, UnitMove w u st u' results ∧
      w' = { w with
        logs := logs, results := results, units := Function.update w.units unit (some u') } := by
  have hsame : w.units = Function.update w.units unit (some u) := by
    rw [← hu, Function.update_eq_self]
  unfold AptWorld.unitStep at h
  cases st with
  | start =>
      dsimp only at h
      split at h
      · next hphase =>
          cases h
          unfold AptWorld.startUnit
          split
          · next s hs => exact ⟨_, _, _, .start hphase hs, rfl⟩
          · exact ⟨_, _, _, .failed hphase (by decide : 2 ≠ 0), rfl⟩
          · exact ⟨_, _, _, .failed hphase (by decide : 127 ≠ 0), rfl⟩
      · cases h
  | print text =>
      dsimp only at h
      split at h
      · split at h
        · cases h
          exact ⟨u, Function.update w.logs _ _, _, .print text, by rw [← hsame]⟩
        · cases h
      · cases h
  | runApt apt dpkg fix =>
      dsimp only at h
      split at h
      · next hphase =>
          cases h
          exact ⟨_, _, _, .runApt apt dpkg fix hphase, rfl⟩
      · cases h
  | openResult =>
      dsimp only at h
      split at h
      · next s rc hs hphase =>
          cases h
          exact ⟨_, _, _, .openResult hs hphase, rfl⟩
      · cases h
  | writeResult =>
      dsimp only at h
      split at h
      · next s rc hs hphase =>
          cases h
          exact ⟨_, _, _, .writeResult hs hphase, rfl⟩
      · cases h
  | exit =>
      dsimp only at h
      split at h
      · next rc hphase =>
          cases h
          exact ⟨_, _, _, .exit hphase, rfl⟩
      · cases h
  | unload =>
      dsimp only at h
      split at h
      · next rc hphase =>
          cases h
          exact ⟨_, _, _, .unload hphase, rfl⟩
      · cases h

/-- What a step is to the files and to an `rc` that is known. -/
theorem unitStep_cases {w w' : AptWorld} {unit : Str} {u : SystemdUnit} {st : UnitStep}
    (hu : w.units unit = some u) (h : w.unitStep unit u st = some w') :
    w'.scripts = w.scripts ∧
      ∃ u', w'.units = Function.update w.units unit (some u') ∧ u'.script = u.script ∧
        (u'.wrapper = u.wrapper ∨ ∃ s, w.scripts u.script = some (some s) ∧ u'.wrapper = some s) ∧
        ((w'.results = w.results ∧ (u.phase.rc = none ∨ u'.phase.rc = u.phase.rc)) ∨
          ∃ s rc text, u.wrapper = some s ∧ u.phase.rc = some rc ∧ u'.phase.rc = some rc ∧
            w'.results = Function.update w.results s.resultPath text ∧
            (text = none ∨ text = some [] ∨ text = some (resultLine rc))) := by
  obtain ⟨u', logs, results, hmove, rfl⟩ := unitStep_move hu h
  refine ⟨rfl, u', rfl, ?_⟩
  cases hmove with
  | start hphase hs =>
      exact ⟨rfl, .inr ⟨_, hs, rfl⟩, .inl ⟨rfl, .inl (by rw [hphase]; rfl)⟩⟩
  | failed hphase => exact ⟨rfl, .inl rfl, .inl ⟨rfl, .inl (by rw [hphase]; rfl)⟩⟩
  | print text => exact ⟨rfl, .inl rfl, .inl ⟨rfl, .inr rfl⟩⟩
  | runApt apt dpkg fix hphase =>
      exact ⟨rfl, .inl rfl, .inl ⟨rfl, .inl (by rw [hphase]; rfl)⟩⟩
  | @openResult s rc hs hphase =>
      have hrc : u.phase.rc = some rc := by
        rw [hphase]
        rfl
      exact ⟨rfl, .inl rfl, .inr ⟨s, rc, _, hs, hrc, rfl, rfl, .inr (.inl rfl)⟩⟩
  | @writeResult s rc hs hphase =>
      have hrc : u.phase.rc = some rc := by
        rw [hphase]
        rfl
      refine ⟨rfl, .inl rfl, .inr ⟨s, rc, _, hs, hrc, rfl, rfl, ?_⟩⟩
      cases w.results s.resultPath with
      | none => exact .inl rfl
      | some text => exact .inr (.inr rfl)
  | exit hphase => exact ⟨rfl, .inl rfl, .inl ⟨rfl, .inr (by rw [hphase]; rfl)⟩⟩
  | unload hphase => exact ⟨rfl, .inl rfl, .inl ⟨rfl, .inr (by rw [hphase]; rfl)⟩⟩

/-- A call of a watcher touches no unit, starts no script, and writes no result. -/
theorem exec_watches (w : AptWorld) {o : AptOp} (ch : AptChoice) (ho : o.watches) :
    (w.exec o ch).1.units = w.units ∧
      ∀ path, ((w.exec o ch).1.scripts path = w.scripts path ∨
          (w.exec o ch).1.scripts path = none) ∧
        ((w.exec o ch).1.results path = w.results path ∨
          (w.exec o ch).1.results path = none) := by
  have hsame : ∀ w' : AptWorld, w'.units = w.units → w'.scripts = w.scripts →
      w'.results = w.results → w'.units = w.units ∧
        ∀ path, (w'.scripts path = w.scripts path ∨ w'.scripts path = none) ∧
          (w'.results path = w.results path ∨ w'.results path = none) := by
    intro w' hu hs hr
    exact ⟨hu, fun path => ⟨.inl (by rw [hs]), .inl (by rw [hr])⟩⟩
  cases o with
  | readState => cases ho
  | nowUnix => cases ho
  | processId => cases ho
  | writeScript path script => cases ho
  | chmodScript path => cases ho
  | systemdRun unit script mode package => cases ho
  | readLog path => exact hsame _ rfl rfl rfl
  | readResult path => exact hsame _ rfl rfl rfl
  | unitStatus unit => exact hsame _ rfl rfl rfl
  | writeState state => exact hsame _ rfl rfl rfl
  | createStateDir => cases ch <;> exact hsame _ rfl rfl rfl
  | openState => cases ch <;> exact hsame _ rfl rfl rfl
  | clearState => cases ch <;> exact hsame _ rfl rfl rfl
  | removeFile path =>
      cases ch with
      | bad e touched => exact hsame _ rfl rfl rfl
      | good =>
          have hremove : ∀ {β : Type} (f : Str → Option β) (p : Str),
              Function.update f path none p = f p ∨ Function.update f path none p = none := by
            intro β f p
            by_cases hp : p = path
            · exact .inr (by rw [hp, Function.update_self])
            · exact .inl (Function.update_of_ne hp _ _)
          exact ⟨rfl, fun p => ⟨hremove w.scripts p, hremove w.results p⟩⟩

section Run

variable {run : Str} {w w' : AptWorld}

/-- What a run keeps, from `Underway` on. -/
structure RunInv (run : Str) (w : AptWorld) : Prop where
  only : ∀ unit, unit ≠ unitName run → w.units unit = none
  unit : ∀ u, w.units (unitName run) = some u → u.script = scriptPath run ∧
    ∀ s, u.wrapper = some s → s = ⟨logPath run, resultPath run⟩
  script : ∀ s, w.scripts (scriptPath run) = some (some s) → s = ⟨logPath run, resultPath run⟩
  result : ∀ text, w.results (resultPath run) = some text →
    ∃ rc, w.finalRc (unitName run) = some rc ∧ (text = [] ∨ text = resultLine rc)

theorem RunInv.start (h : Underway run w) : RunInv run w where
  only := h.only
  unit u hu := by
    obtain ⟨hscript, hphase⟩ := h.unit u hu
    refine ⟨hscript, fun s hs => ?_⟩
    rcases hphase with ⟨_, hnone⟩ | ⟨_, hsome⟩
    · rw [hnone] at hs
      cases hs
    · rw [hsome] at hs
      exact (Option.some.inj hs).symm
  script := h.script
  result text htext := by
    rw [h.noResult] at htext
    cases htext

theorem RunInv.call {o : AptOp} {ch : AptChoice} (h : RunInv run w) (ho : o.watches) :
    RunInv run (w.exec o ch).1 := by
  obtain ⟨hunits, hfiles⟩ := exec_watches w ch ho
  refine ⟨fun unit hne => ?_, ?_, fun s hs => ?_, fun text htext => ?_⟩
  · rw [hunits]
    exact h.only unit hne
  · rw [hunits]
    exact h.unit
  · rcases (hfiles (scriptPath run)).1 with hsame | hnone
    · exact h.script s (hsame.symm.trans hs)
    · rw [hnone] at hs
      cases hs
  · rw [AptWorld.finalRc, hunits]
    rcases (hfiles (resultPath run)).2 with hsame | hnone
    · exact h.result text (hsame.symm.trans htext)
    · rw [hnone] at htext
      cases htext

theorem finalRc_eq {unit : Str} {u : SystemdUnit} (hu : w.units unit = some u) :
    w.finalRc unit = u.phase.rc := by
  rw [AptWorld.finalRc, hu]
  rfl

/-- A unit's step keeps the run's invariant, and an `rc` that is known. -/
theorem RunInv.step {unit : Str} {u : SystemdUnit} {st : UnitStep} (h : RunInv run w)
    (hu : w.units unit = some u) (hs : w.unitStep unit u st = some w') :
    RunInv run w' ∧ ∀ rc, w.finalRc (unitName run) = some rc →
      w'.finalRc (unitName run) = some rc := by
  obtain rfl : unit = unitName run := by
    by_contra hne
    rw [h.only unit hne] at hu
    cases hu
  obtain ⟨hscripts, u', hunits, hscript, hwrapper, hresults⟩ := unitStep_cases hu hs
  obtain ⟨hscript₀, hwrapper₀⟩ := h.unit u hu
  have hu' : w'.units (unitName run) = some u' := by
    rw [hunits, Function.update_self]
  refine ⟨⟨fun unit hne => ?_, fun v hv => ?_, fun s hs => ?_, fun text htext => ?_⟩,
    fun rc hrc => ?_⟩
  · rw [hunits, Function.update_of_ne hne]
    exact h.only unit hne
  · obtain rfl : u' = v := Option.some.inj (hu'.symm.trans hv)
    refine ⟨hscript.trans hscript₀, fun s hs => ?_⟩
    rcases hwrapper with hsame | ⟨s', hs', hsome⟩
    · exact hwrapper₀ s (hsame.symm.trans hs)
    · obtain rfl : s' = s := Option.some.inj (hsome.symm.trans hs)
      rw [hscript₀] at hs'
      exact h.script s' hs'
  · rw [hscripts] at hs
    exact h.script s hs
  · rw [finalRc_eq hu']
    rcases hresults with ⟨hsame, hrc⟩ | ⟨s, rc, text', hs, _, hrc, hresults, htext'⟩
    · rw [hsame] at htext
      obtain ⟨rc, hknown, hcontent⟩ := h.result text htext
      rw [finalRc_eq hu] at hknown
      rcases hrc with hnone | hsame
      · rw [hnone] at hknown
        cases hknown
      · exact ⟨rc, hsame.trans hknown, hcontent⟩
    · rw [hwrapper₀ s hs] at hresults
      rw [hresults, Function.update_self] at htext
      refine ⟨rc, hrc, ?_⟩
      rcases htext' with hnone | hempty | hline
      · rw [hnone] at htext
        cases htext
      · exact .inl (Option.some.inj (hempty.symm.trans htext)).symm
      · exact .inr (Option.some.inj (hline.symm.trans htext)).symm
  · rw [finalRc_eq hu] at hrc
    rw [finalRc_eq hu']
    rcases hresults with ⟨_, hnone | hsame⟩ | ⟨s, rc', _, _, hknown, hrc', _⟩
    · rw [hnone] at hrc
      cases hrc
    · exact hsame.trans hrc
    · exact hrc'.trans (hknown.symm.trans hrc)

/-- What is left of the start keeps the run's invariant: there is no unit yet. -/
theorem RunInv.starter {o : AptOp} {ch : AptChoice} (h : RunInv run w)
    (hnone : w.units (unitName run) = none) (ho : o.startsRun run = true) :
    RunInv run (w.exec o ch).1 := by
  cases o with
  | readState | openState | writeState state | readLog path | readResult path | unitStatus unit
  | nowUnix | processId | createStateDir | writeScript path script | chmodScript path =>
      cases ho
  | clearState => exact h.call trivial
  | removeFile path => exact h.call trivial
  | systemdRun unit script mode package =>
      obtain ⟨rfl, rfl⟩ := of_decide_eq_true ho
      cases ch with
      | bad e touched => cases touched <;> exact h
      | good =>
          unfold AptWorld.exec AptWorld.execSystemdRun
          dsimp only
          split
          · exact h
          · refine ⟨fun unit hne => ?_, fun u hu => ?_, h.script, fun text htext => ?_⟩
            · exact (Function.update_of_ne hne _ _).trans (h.only unit hne)
            · have hself : (w.setUnit (unitName run) ⟨scriptPath run, mode, package, none,
                  .queued⟩).units (unitName run) = some _ := Function.update_self _ _ _
              obtain rfl := Option.some.inj (hself.symm.trans hu)
              exact ⟨rfl, nofun⟩
            · obtain ⟨rc, hrc, _⟩ := h.result text htext
              rw [AptWorld.finalRc, hnone] at hrc
              cases hrc

/-- What moves beside the watchers keeps the run's invariant, and an `rc` that is known. -/
theorem RunInv.env {e : RunEnv} (h : RunInv run w) (hw : (watchHost run).env w e = some w') :
    RunInv run w' ∧ ∀ rc, w.finalRc (unitName run) = some rc →
      w'.finalRc (unitName run) = some rc := by
  cases e with
  | starter o ch =>
      obtain ⟨hleft, heq⟩ := Option.ite_none_right_eq_some.mp hw
      cases heq
      obtain ⟨hnone, ho⟩ := Bool.and_eq_true_iff.mp hleft
      have hnone := Option.isNone_iff_eq_none.mp hnone
      refine ⟨h.starter hnone ho, fun rc hrc => ?_⟩
      rw [AptWorld.finalRc, hnone] at hrc
      cases hrc
  | host e =>
      cases e with
      | setClock now =>
          cases hw
          exact ⟨⟨h.only, h.unit, h.script, h.result⟩, fun _ hrc => hrc⟩
      | setPid pid =>
          cases hw
          exact ⟨⟨h.only, h.unit, h.script, h.result⟩, fun _ hrc => hrc⟩
      | unit unit st =>
          obtain ⟨u, hu, hs⟩ := Option.bind_eq_some_iff.mp hw
          exact h.step hu hs

/-- What a sighting of the run tells: a result is the line for its `rc`, and a
failure is one. -/
structure Truthful (run : Str) (w : AptWorld) (e : AptEvent) : Prop where
  result : ∀ text, e = gotResult (resultPath run) text →
    ∃ rc, w.finalRc (unitName run) = some rc ∧ (text = resultLine rc ∨ (text = [] ∧ rc ≠ 0))
  status : ∀ u, e = gotStatus (unitName run) u → u.ended = true →
    ∃ rc, w.finalRc (unitName run) = some rc ∧ rc ≠ 0

theorem Truthful.mono {e : AptEvent} (h : Truthful run w e)
    (hrc : ∀ rc, w.finalRc (unitName run) = some rc → w'.finalRc (unitName run) = some rc) :
    Truthful run w' e where
  result text he := by
    obtain ⟨rc, hknown, htext⟩ := h.result text he
    exact ⟨rc, hrc rc hknown, htext⟩
  status u he hended := by
    obtain ⟨rc, hknown, hne⟩ := h.status u he hended
    exact ⟨rc, hrc rc hknown, hne⟩

/-- A unit that has ended is not there, or failed with its wrapper. -/
theorem status_ended {unit : Str} (h : (w.status unit).ended = true) :
    (w.status unit).load = "not-found".toList ∨ ∃ rc, w.finalRc unit = some rc ∧ rc ≠ 0 := by
  cases hu : w.units unit with
  | none =>
      left
      rw [AptWorld.status, hu]
  | some u =>
      rw [finalRc_eq hu]
      rw [AptWorld.status, hu] at h ⊢
      dsimp only at h ⊢
      cases hphase : u.phase with
      | queued => rw [hphase] at h; exact absurd h Bool.false_ne_true
      | running => rw [hphase] at h; exact absurd h Bool.false_ne_true
      | decided rc => rw [hphase] at h; exact absurd h Bool.false_ne_true
      | opened rc => rw [hphase] at h; exact absurd h Bool.false_ne_true
      | written rc => rw [hphase] at h; exact absurd h Bool.false_ne_true
      | unloaded rc => exact .inl rfl
      | exited rc =>
          cases rc with
          | zero => rw [hphase] at h; exact absurd h Bool.false_ne_true
          | succ rc => exact .inr ⟨rc + 1, rfl, Nat.succ_ne_zero rc⟩

/-- The step is no sighting that misleads: it does not read the result file while that is
empty although `rc` is 0, and it does not ask for the unit where there is none, unless that
has ended with another `rc`. -/
def Undeceived (run : Str) (s : WatchState run) : WatchLabel run → Prop
  | .act t .good =>
      (s.next t = some (.readResult (resultPath run)) →
        s.world.results (resultPath run) = some [] →
          s.world.finalRc (unitName run) ≠ some 0) ∧
      (s.next t = some (.unitStatus (unitName run)) →
        (s.world.status (unitName run)).load = "not-found".toList →
          s.world.finalRc (unitName run) ≠ none ∧ s.world.finalRc (unitName run) ≠ some 0)
  | _ => True

/-- An undeceived call sees the truth. -/
theorem truthful_call {s : WatchState run} {t : Nat} {ch : AptChoice} {o : AptOp}
    (hI : RunInv run s.world) (hnext : s.next t = some o) (hok : Undeceived run s (.act t ch)) :
    Truthful run s.world ⟨o, (s.world.exec o ch).2⟩ where
  result text he := by
    obtain rfl : o = .readResult (resultPath run) := congrArg Event.op he
    have hanswer : (s.world.exec (.readResult (resultPath run)) ch).2 = some text := by
      simpa [gotResult] using he
    cases ch with
    | bad e touched => cases hanswer
    | good =>
        have htext : s.world.results (resultPath run) = some text := hanswer
        obtain ⟨rc, hrc, rfl | hline⟩ := hI.result text htext
        · refine ⟨rc, hrc, .inr ⟨rfl, fun hzero => ?_⟩⟩
          exact hok.1 hnext htext (hzero ▸ hrc)
        · exact ⟨rc, hrc, .inl hline⟩
  status u he hended := by
    obtain rfl : o = .unitStatus (unitName run) := congrArg Event.op he
    have hanswer : (s.world.exec (.unitStatus (unitName run)) ch).2 = some u := by
      simpa [gotStatus] using he
    cases ch with
    | bad e touched => cases hanswer
    | good =>
        obtain rfl : s.world.status (unitName run) = u := Option.some.inj hanswer
        rcases status_ended hended with hgone | hfailed
        · obtain ⟨hknown, hne⟩ := hok.2 hnext hgone
          obtain ⟨rc, hrc⟩ := Option.ne_none_iff_exists'.mp hknown
          exact ⟨rc, hrc, fun hzero => hne (hzero ▸ hrc)⟩
        · exact hfailed

def watchOutline (run : Str) : Outline (watchCode run) where
  contract _ := ⟨fun _ o => o.watches, fun _ _ _ => True⟩
  loopInv c _ l := SameRun c.state l.1 ∧ l.2 = resultPath run
  post c h e := RestsOn c.state (resultPath run) h e

theorem watchOutline_holds (run : Str) : (watchOutline run).Holds where
  start c := by
    show Contract.wp _ (watchSystemdRun c.state) _ _
    rw [watchSystemdRun, c.resultPath]
    refine Contract.wp_mono (watchRound_wp (fun _ _ ho => ho) (resultPath run) c.state) ?_
    rintro h' (l | e) ⟨_, hr⟩
    · exact hr
    · exact hr
  again c h l hl := by
    obtain ⟨state, path⟩ := l
    obtain ⟨hsame, rfl⟩ := hl
    refine Contract.wp_mono (watchRound_wp (fun _ _ ho => ho) (resultPath run) state) ?_
    rintro h' (l | e) ⟨_, hr⟩
    · exact ⟨hsame.trans hr.1, hr.2⟩
    · exact RestsOn.same hsame hr

/-- All that the watchers of a run have seen of it has `T`. -/
def Seen (run : Str) (T : AptWorld → AptEvent → Prop) (w : AptWorld)
    (v : Nat → Option (Trace AptOp AptResp (RunState run))) : Prop :=
  RunInv run w ∧ ∀ t tr, v t = some tr → ∀ e ∈ tr.hist, T w e

/-- All that the watchers of a run have seen of it is true. -/
def WatchInv (run : Str) (w : AptWorld) (v : Nat → Option (Trace AptOp AptResp (RunState run))) :
    Prop :=
  RunInv run w ∧ ∀ t tr, v t = some tr → ∀ e ∈ tr.hist, Truthful run w e

theorem Seen.update {T : AptWorld → AptEvent → Prop}
    {v : Nat → Option (Trace AptOp AptResp (RunState run))} {t : Nat}
    {tr : Trace AptOp AptResp (RunState run)} (hI : RunInv run w)
    (hv : ∀ t tr, v t = some tr → ∀ e ∈ tr.hist, T w e) (htr : ∀ e ∈ tr.hist, T w e) :
    Seen run T w (Function.update v t (some tr)) := by
  refine ⟨hI, fun u tr' hu => ?_⟩
  rcases update_some hu with ⟨rfl, rfl⟩ | ⟨_, hu⟩
  · exact htr
  · exact hv u tr' hu

/-- What every call of a watcher sees, and what an `rc` that gets known leaves as it is, is
so of all that the watchers have seen. -/
theorem seen_sound (run : Str) {T : AptWorld → AptEvent → Prop}
    {ok : WatchState run → WatchLabel run → Prop}
    (hmono : ∀ w w' e, T w e → (∀ rc, w.finalRc (unitName run) = some rc →
      w'.finalRc (unitName run) = some rc) → T w' e)
    (hcall : ∀ (s : WatchState run) t ch o, RunInv run s.world → s.next t = some o →
      ok s (.act t ch) → T s.world ⟨o, (s.world.exec o ch).2⟩) :
    (watchOutline run).Sound (watchHost run) ok (Seen run T) where
  init w hw := ⟨.start hw, fun t tr ht => by cases ht⟩
  spawn w v t c w' hI ht hw := by
    cases hw
    exact .update hI.1 hI.2 nofun
  act s t ch c o k h w' r hI ht hmay hok hx := by
    refine ⟨trivial, ?_⟩
    have hexec : s.world.exec o ch = (w', r) := Option.some.inj hx
    obtain rfl : (s.world.exec o ch).1 = w' := by rw [hexec]
    obtain rfl : (s.world.exec o ch).2 = r := by rw [hexec]
    have hnext : s.next t = some o := by
      rw [Pool.State.next, ht]
    have hunits := (exec_watches s.world ch hmay).1
    have hrc : ∀ rc, s.world.finalRc (unitName run) = some rc →
        (s.world.exec o ch).1.finalRc (unitName run) = some rc := by
      intro rc hknown
      rwa [AptWorld.finalRc, hunits]
    refine .update (hI.1.call hmay) (fun u tr hu e he => hmono _ _ _ (hI.2 u tr hu e he) hrc) ?_
    intro e he
    rcases List.mem_append.mp he with he | he
    · exact hmono _ _ _ (hI.2 t _ (Pool.State.view_eq ht) e he) hrc
    · obtain rfl := List.mem_singleton.mp he
      exact hmono _ _ _ (hcall s t ch o hI.1 hnext hok) hrc
  kill w v t c h hI ht := .update hI.1 hI.2 fun e he => hI.2 t _ ht e he
  env w v e w' hI hw := by
    obtain ⟨hI', hrc⟩ := hI.1.env hw
    exact ⟨hI', fun t tr ht e he => hmono _ _ _ (hI.2 t tr ht e he) hrc⟩

theorem watchOutline_sound (run : Str) :
    (watchOutline run).Sound (watchHost run) (Undeceived run) (WatchInv run) :=
  seen_sound run (fun _ _ _ h => h.mono) fun _ _ _ _ => truthful_call

theorem trim_resultLine {rc : Nat} :
    Text.trim (resultLine rc) = "success".toList ↔ rc = 0 := by
  by_cases hrc : rc = 0
  · subst hrc
    decide
  · refine iff_of_false (fun h => ?_) hrc
    have hstart : ("failed:".toList ++ Text.decimal rc ++ ['\n']).dropWhile Text.isWhitespace =
        "failed:".toList ++ Text.decimal rc ++ ['\n'] := rfl
    rw [resultLine, if_neg hrc, Text.trim, hstart] at h
    have hpre := Text.trimEndMatches_prefix Text.isWhitespace
      ("failed:".toList ++ Text.decimal rc ++ ['\n'])
    rw [h] at hpre
    have hhead : 's' = 'f' := (List.cons_prefix_cons.mp hpre).1
    exact absurd hhead (by decide)

/-- In a run without misleading sightings every watcher that returns reports
success exactly if the wrapper's final `rc` is 0. -/
theorem watchers_report_rc {s : WatchState run} (hr : (watchPool run).Reach (Undeceived run) s)
    {t : Nat} {tr : Trace AptOp AptResp (RunState run)} {success : Bool} {log : Str}
    {error : Option Str} (ht : s.threads t = some ⟨tr, .ret (.inr (.returned success log error))⟩) :
    ∃ rc, s.world.finalRc (unitName run) = some rc ∧ (success = true ↔ rc = 0) := by
  obtain ⟨hI, hK⟩ := Outline.invariant (watchOutline_holds run) (watchOutline_sound run) hr
  have hseen := hI.2 t tr (Pool.State.view_eq ht)
  have hrests : RestsOn tr.call.state (resultPath run) tr.hist (.returned success log error) :=
    hK t _ ht
  rcases hrests with ⟨text, hmem, hsuccess⟩ | ⟨rfl, unit, u, hunit, hmem, hended⟩
  · obtain ⟨rc, hrc, rfl | ⟨rfl, hne⟩⟩ := (hseen _ hmem).result text rfl
    · exact ⟨rc, hrc, hsuccess.trans trim_resultLine⟩
    · refine ⟨rc, hrc, hsuccess.trans (iff_of_false ?_ hne)⟩
      decide
  · obtain rfl : unitName run = unit := Option.some.inj (tr.call.unitName.symm.trans hunit)
    obtain ⟨rc, hrc, hne⟩ := (hseen _ hmem).status u rfl hended
    exact ⟨rc, hrc, iff_of_false Bool.false_ne_true hne⟩

instance (s : WatchState run) (i : WatchLabel run) :
    Decidable (Undeceived run s i) :=
  match i with
  | .act _ .good => inferInstanceAs (Decidable (_ ∧ _))
  | .act _ (.bad _ _) | .spawn _ _ | .again _ | .kill _ | .env _ => .isTrue trivial

end Run

/-! A run of `apt-get install --only-upgrade curl`. -/

def curlRun : Str := runId 7 1

def curlState : RunState curlRun where
  state := startingState (some "curl".toList) 7 curlRun
  unitName := rfl
  logPath := rfl
  resultPath := rfl
  scriptPath := rfl

/-- Its wrapper and its state file are written. -/
def curlStart : WatchState curlRun where
  world :=
    { clock := 7
      pid := 1
      stateFile := .holds curlState.state
      logs := fun _ => none
      results := fun _ => none
      scripts := fun path =>
        if path = scriptPath curlRun then some (some ⟨logPath curlRun, resultPath curlRun⟩)
        else none
      units := fun _ => none }
  threads _ := none

theorem curlStart_init : (watchPool curlRun).init curlStart := by
  have hscript : curlStart.world.scripts (scriptPath curlRun) =
      some (some ⟨logPath curlRun, resultPath curlRun⟩) := by
    simp [curlStart]
  refine ⟨⟨fun _ _ => rfl, nofun, fun s hs => ?_, rfl⟩, fun _ => rfl⟩
  rw [hscript] at hs
  exact (Option.some.inj (Option.some.inj hs)).symm

/-- `systemd-run` is called for it. -/
def curlQueued : WatchLabel curlRun :=
  .env (.starter (.systemdRun (unitName curlRun) (scriptPath curlRun) "package".toList
    (some "curl".toList)) .good)

def curlUnit (steps : List UnitStep) : List (WatchLabel curlRun) :=
  steps.map fun step => .env (.host (.unit (unitName curlRun) step))

def acts (t n : Nat) : List (WatchLabel curlRun) := List.replicate n (.act t .good)

/-- What a watcher has reported, and the final `rc`. -/
def reported (s : WatchState curlRun) (t : Nat) : Option Bool :=
  match s.threads t with
  | some ⟨_, .ret (.inr (.returned success _ _))⟩ => some success
  | _ => none

theorem reported_eq_some {s : WatchState curlRun} {t : Nat} {success : Bool}
    (h : reported s t = some success) :
    ∃ tr log error, s.threads t = some ⟨tr, .ret (.inr (.returned success log error))⟩ := by
  unfold reported at h
  split at h
  · next tr success' log error ht =>
      cases h
      exact ⟨tr, log, error, ht⟩
  · cases h

/-- Two watchers that both read the result before either removes it. The first has looked
for it when there was no unit yet. -/
theorem watchers_report_rc_both : ∃ s : WatchState curlRun,
    reported s 0 = some true ∧ reported s 1 = some true ∧
      s.world.finalRc (unitName curlRun) = some 0 := by
  have hrun : ((watchPool curlRun).runWithin (Undeceived curlRun) curlStart
      ([Pool.Label.spawn 0 curlState] ++ acts 0 2 ++ [curlQueued, .spawn 1 curlState] ++
        acts 0 1 ++ [Pool.Label.again 0] ++
        curlUnit [.start, .runApt 0 0 0, .openResult, .writeResult] ++ acts 1 5 ++ acts 0 5 ++
        acts 1 4 ++ acts 0 4 ++ curlUnit [.exit, .unload])).map
          (fun s => (reported s 0, reported s 1)) = some (some true, some true) := by
    decide
  obtain ⟨s, hs, hreported⟩ := Option.map_eq_some_iff.mp hrun
  obtain ⟨h₀, h₁⟩ := Prod.mk.inj hreported
  obtain ⟨tr, log, error, ht⟩ := reported_eq_some h₀
  have hr := Machine.Reach.runWithin (.init curlStart_init) hs
  obtain ⟨rc, hrc, hsuccess⟩ := watchers_report_rc hr ht
  exact ⟨s, h₀, h₁, hsuccess.mp rfl ▸ hrc⟩

/-- One watcher reads the result while it is empty and removes it, the other
then finds nothing until the unit is gone; the wrapper has written success. Or one asks for
the unit before that is started. -/
theorem watchers_deceived :
    (∃ s : WatchState curlRun, (watchPool curlRun).Reachable s ∧
      s.world.finalRc (unitName curlRun) = some 0 ∧
        reported s 0 = some false ∧ reported s 1 = some false) ∧
    ∃ s : WatchState curlRun, (watchPool curlRun).Reachable s ∧
      s.world.finalRc (unitName curlRun) = some 0 ∧ reported s 0 = some false := by
  constructor
  · have hrun : ((watchPool curlRun).run curlStart
        ([curlQueued, .spawn 0 curlState, .spawn 1 curlState] ++
          curlUnit [.start, .runApt 0 0 0, .openResult] ++ acts 0 5 ++ curlUnit [.writeResult] ++
          acts 0 4 ++ curlUnit [.exit, .unload] ++ acts 1 7)).map
            (fun s => (s.world.finalRc (unitName curlRun), reported s 0, reported s 1)) =
        some (some 0, some false, some false) := by
      decide
    obtain ⟨s, hs, hreported⟩ := Option.map_eq_some_iff.mp hrun
    obtain ⟨hrc, hreported⟩ := Prod.mk.inj hreported
    obtain ⟨h₀, h₁⟩ := Prod.mk.inj hreported
    exact ⟨s, Machine.Reach.run (.init curlStart_init) hs, hrc, h₀, h₁⟩
  · have hrun : ((watchPool curlRun).run curlStart
        ([Pool.Label.spawn 0 curlState] ++ acts 0 3 ++ [curlQueued] ++ curlUnit [.start] ++
          acts 0 4 ++ curlUnit [.runApt 0 0 0, .openResult, .writeResult, .exit, .unload])).map
            (fun s => (s.world.finalRc (unitName curlRun), reported s 0)) =
        some (some 0, some false) := by
      decide
    obtain ⟨s, hs, hreported⟩ := Option.map_eq_some_iff.mp hrun
    obtain ⟨hrc, h₀⟩ := Prod.mk.inj hreported
    exact ⟨s, Machine.Reach.run (.init curlStart_init) hs, hrc, h₀⟩

end ShellfleetAgent.Agent.Apt
