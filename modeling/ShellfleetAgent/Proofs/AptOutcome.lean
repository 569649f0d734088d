import ShellfleetAgent.Proofs.Apt

/-!
# What a reported success means

A watcher reports success only for a result file that says so, and the wrapper writes that
only with an `rc` of 0. Where this comes from is one step of the run, that of `apt-get` and
of the repair after it.
-/

namespace ShellfleetAgent.Agent.Apt

open ShellfleetAgent.Lib

variable {run : Str} {w w' : AptWorld}

/-! ## From the report to the `rc` -/

/-- A result that is read is that of the wrapper, or empty yet. -/
def Told (run : Str) (w : AptWorld) (e : AptEvent) : Prop :=
  ∀ text, e = gotResult (resultPath run) text →
    ∃ rc, w.finalRc (unitName run) = some rc ∧ (text = [] ∨ text = resultLine rc)

theorem told_call (hI : RunInv run w) (o : AptOp) (ch : AptChoice) :
    Told run w ⟨o, (w.exec o ch).2⟩ := by
  intro text he
  obtain rfl : o = .readResult (resultPath run) := congrArg Event.op he
  have hanswer : (w.exec (.readResult (resultPath run)) ch).2 = some text := by
    simpa [gotResult] using he
  cases ch with
  | bad e touched => cases hanswer
  | good => exact hI.result text hanswer

theorem told_sound (run : Str) :
    (watchOutline run).Sound (watchHost run) (fun _ _ => True) (Seen run (Told run)) := by
  refine seen_sound run (fun w w' e htold hrc text he => ?_) fun s t ch o hI _ _ =>
    told_call hI o ch
  obtain ⟨rc, hknown, htext⟩ := htold text he
  exact ⟨rc, hrc rc hknown, htext⟩

/-- In any run, a watcher that reports success has the wrapper's final `rc` at 0. -/
theorem success_rc {s : WatchState run} (hr : (watchPool run).Reachable s) {t : Nat}
    {tr : Trace AptOp AptResp (RunState run)} {log : Str} {error : Option Str}
    (ht : s.threads t = some ⟨tr, .ret (.inr (.returned true log error))⟩) :
    s.world.finalRc (unitName run) = some 0 := by
  obtain ⟨hI, hK⟩ := Outline.invariant (watchOutline_holds run) (told_sound run) hr
  have hrests : RestsOn tr.call.state (resultPath run) tr.hist (.returned true log error) :=
    hK t _ ht
  cases hrests with
  | inr hstatus => cases hstatus.1
  | inl hresult =>
      obtain ⟨text, hmem, hsuccess⟩ := hresult
      have htrim := hsuccess.mp rfl
      obtain ⟨rc, hrc, htext⟩ := hI.2 t tr (Pool.State.view_eq ht) _ hmem text rfl
      cases htext with
      | inl hempty =>
          subst hempty
          exact absurd htrim (by decide)
      | inr hline =>
          subst hline
          rw [hrc, trim_resultLine.mp htrim]

/-! ## From the `rc` to the commands -/

/-- The commands of a unit have ended so that the wrapper's `rc` is 0. -/
def Succeeds (unit : Str) : WatchLabel run → Prop
  | .env (.host (.unit target (.runApt apt dpkg fix))) => target = unit ∧ scriptRc apt dpkg fix = 0
  | _ => False

theorem scriptRc_zero {apt dpkg fix : Nat} (h : scriptRc apt dpkg fix = 0) :
    apt = 0 ∨ dpkg = 0 ∧ fix = 0 := by
  unfold scriptRc at h
  split at h
  · next hfixed => exact .inr hfixed.2
  · exact .inl h

theorem finalRc_update {unit name : Str} {u : SystemdUnit}
    (hunits : w'.units = Function.update w.units name (some u))
    (h : w'.finalRc unit = some 0) :
    w.finalRc unit = some 0 ∨ (unit = name ∧ u.phase.rc = some 0) := by
  by_cases hname : unit = name
  · subst hname
    rw [finalRc_eq (by rw [hunits, Function.update_self])] at h
    exact .inr ⟨rfl, h⟩
  · rw [AptWorld.finalRc, hunits, Function.update_of_ne hname] at h
    exact .inl h

/-- No call starts a unit with an `rc`. -/
theorem exec_finalRc {o : AptOp} {ch : AptChoice} {unit : Str}
    (h : (w.exec o ch).1.finalRc unit = some 0) : w.finalRc unit = some 0 := by
  cases o with
  | systemdRun name script mode package =>
      cases ch with
      | bad e touched => cases touched <;> exact h
      | good =>
          unfold AptWorld.exec AptWorld.execSystemdRun at h
          dsimp only at h
          split at h
          · exact h
          · cases finalRc_update rfl h with
            | inl hbefore => exact hbefore
            | inr hqueued => cases hqueued.2
  | readState | openState | writeState state | clearState | readLog path | readResult path
  | removeFile path | unitStatus unit | nowUnix | processId | createStateDir
  | writeScript path script | chmodScript path =>
      cases ch with
      | good => exact h
      | bad e touched => cases touched <;> exact h

/-- A step gives a unit an `rc` of 0 only where its commands end so. -/
theorem unitStep_rc {unit : Str} {u : SystemdUnit} {st : UnitStep} (hu : w.units unit = some u)
    (hs : w.unitStep unit u st = some w') :
    ∃ u', w'.units = Function.update w.units unit (some u') ∧
      (u'.phase.rc = some 0 → u.phase.rc = some 0 ∨
        ∃ apt dpkg fix, st = .runApt apt dpkg fix ∧ scriptRc apt dpkg fix = 0) := by
  obtain ⟨u', logs, results, hmove, rfl⟩ := unitStep_move hu hs
  refine ⟨u', rfl, fun hrc => ?_⟩
  cases hmove with
  | start => cases hrc
  | failed _ hne => exact absurd (Option.some.inj hrc) hne
  | print text => exact .inl hrc
  | runApt apt dpkg fix => exact .inr ⟨apt, dpkg, fix, rfl, Option.some.inj hrc⟩
  | openResult _ hphase | writeResult _ hphase | exit hphase | unload hphase =>
      left
      rw [hphase]
      exact hrc

theorem step_finalRc {s s' : WatchState run} {i : WatchLabel run} {unit : Str}
    (hs : (watchPool run).step s i = some s')
    (h : s'.world.finalRc unit = some 0) : s.world.finalRc unit = some 0 ∨ Succeeds unit i := by
  rcases Pool.step_cases hs with ⟨t, c, w, hi, _, hw, heq⟩ |
    ⟨t, ch, c, o, k, hist, w, r, hi, _, hw, heq⟩ | ⟨t, c, l, hist, hi, _, heq⟩ |
    ⟨t, c, p, hist, hi, _, _, heq⟩ | ⟨e, w, hi, hw, heq⟩
  · subst heq
    cases hw
    exact .inl h
  · subst heq
    have hexec : s.world.exec o ch = (w, r) := Option.some.inj hw
    have hworld : (s.world.exec o ch).1 = w := by rw [hexec]
    subst hworld
    exact .inl (exec_finalRc h)
  · subst heq
    exact .inl h
  · subst heq
    exact .inl h
  · subst heq
    cases e with
    | starter o ch =>
        obtain ⟨_, heq⟩ := Option.ite_none_right_eq_some.mp hw
        cases heq
        exact .inl (exec_finalRc h)
    | host e =>
      cases e with
      | setClock now =>
          cases hw
          exact .inl h
      | setPid pid =>
          cases hw
          exact .inl h
      | unit name st =>
          obtain ⟨u, hu, hstep⟩ := Option.bind_eq_some_iff.mp hw
          obtain ⟨u', hunits, hrc⟩ := unitStep_rc hu hstep
          cases finalRc_update hunits h with
          | inl hbefore => exact .inl hbefore
          | inr hnow =>
              obtain ⟨hname, hzero⟩ := hnow
              subst hname
              cases hrc hzero with
              | inl hbefore => exact .inl ((finalRc_eq hu).trans hbefore)
              | inr hapt =>
                  obtain ⟨apt, dpkg, fix, hst, hzero⟩ := hapt
                  subst hst hi
                  exact .inr ⟨rfl, hzero⟩

/-- A success is reported only where the command that was asked for succeeded, or where it
failed and both repairs succeeded. -/
theorem reported_success {s₀ s : WatchState run}
    {labels : List (WatchLabel run)}
    (hinit : (watchPool run).init s₀) (hrun : (watchPool run).run s₀ labels = some s) {t : Nat}
    {tr : Trace AptOp AptResp (RunState run)} {log : Str} {error : Option Str}
    (ht : s.threads t = some ⟨tr, .ret (.inr (.returned true log error))⟩) :
    ∃ apt dpkg fix, .env (.host (.unit (unitName run) (.runApt apt dpkg fix))) ∈ labels ∧
      (apt = 0 ∨ dpkg = 0 ∧ fix = 0) := by
  have hrc := success_rc (Machine.Reach.run (.init hinit) hrun) ht
  have horigin := Machine.run_origin (fun _ _ _ => step_finalRc) hrun hrc
  cases horigin with
  | inl hbefore =>
      obtain ⟨u, hu, _⟩ := Option.bind_eq_some_iff.mp hbefore
      obtain ⟨_, hphase⟩ := hinit.1.unit u hu
      rw [finalRc_eq hu] at hbefore
      cases hphase with
      | inl hqueued => rw [hqueued.1] at hbefore; cases hbefore
      | inr hrunning => rw [hrunning.1] at hbefore; cases hbefore
  | inr hlabel =>
      obtain ⟨i, hmem, hsucceeds⟩ := hlabel
      unfold Succeeds at hsucceeds
      split at hsucceeds
      · next target apt dpkg fix =>
          obtain ⟨htarget, hzero⟩ := hsucceeds
          subst htarget
          exact ⟨apt, dpkg, fix, hmem, scriptRc_zero hzero⟩
      · cases hsucceeds

/-! A watched run of `apt-get install --only-upgrade curl`, with the given ends of `apt-get`
and of the two repairs. -/

def watchedRun (apt dpkg fix : Nat) : List (WatchLabel curlRun) :=
  [curlQueued, .spawn 0 curlState] ++
    curlUnit [.start, .runApt apt dpkg fix, .openResult, .writeResult] ++ acts 0 9

theorem reported_success_clean :
    ∃ apt dpkg fix,
      .env (.host (.unit (unitName curlRun) (.runApt apt dpkg fix))) ∈ watchedRun 0 0 0 ∧
      (apt = 0 ∨ dpkg = 0 ∧ fix = 0) := by
  have hrun : ((watchPool curlRun).run curlStart (watchedRun 0 0 0)).map (reported · 0) =
      some (some true) := by
    decide
  obtain ⟨s, hs, hreported⟩ := Option.map_eq_some_iff.mp hrun
  obtain ⟨tr, log, error, ht⟩ := reported_eq_some hreported
  exact reported_success curlStart_init hs ht

/-- `apt-get` exits 100, the two repairs exit 0, and a success is reported. -/
theorem repair_reported : ∃ s, (watchPool curlRun).run curlStart (watchedRun 100 0 0) = some s ∧
    reported s 0 = some true ∧
      ∀ apt dpkg fix, .env (.host (.unit (unitName curlRun) (.runApt apt dpkg fix))) ∈
        watchedRun 100 0 0 → apt ≠ 0 := by
  have hrun : ((watchPool curlRun).run curlStart (watchedRun 100 0 0)).map (reported · 0) =
      some (some true) := by
    decide
  obtain ⟨s, hs, hreported⟩ := Option.map_eq_some_iff.mp hrun
  refine ⟨s, hs, hreported, fun apt dpkg fix hmem => ?_⟩
  simp [watchedRun, curlQueued, curlUnit, acts, List.replicate] at hmem
  omega

end ShellfleetAgent.Agent.Apt
