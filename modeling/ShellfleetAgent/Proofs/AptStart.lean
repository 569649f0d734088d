import ShellfleetAgent.Agent.AptWorld

/-!
# What a start that fails leaves behind

A run's files come into being one after the other: the script, its mode, the state file,
the unit. Only the refusal of the unit takes back what was made before.
-/

namespace ShellfleetAgent.Agent.Apt

open ShellfleetAgent.Lib

variable {w w' : AptWorld} {ch : AptOp → AptChoice} {package : Option Str} {run : Str}

/-- No state file, and no files of the run. -/
structure Clean (run : Str) (w : AptWorld) : Prop where
  state : w.stateFile = .absent
  log : w.logs (logPath run) = none
  result : w.results (resultPath run) = none
  script : w.scripts (scriptPath run) = none

/-- Calls on the state directory and the files in it go well. The write of a script is
left open. -/
structure Writable (ch : AptOp → AptChoice) : Prop where
  createStateDir : ch .createStateDir = .good
  openState : ch .openState = .good
  writeState : ∀ state, ch (.writeState state) = .good
  clearState : ch .clearState = .good
  removeFile : ∀ path, ch (.removeFile path) = .good

/-- The run that a start would be now. -/
def AptWorld.nextRun (w : AptWorld) : Str := runId w.clock w.pid

/-- `start_systemd_run` with the host to itself. -/
def started (w : AptWorld) (ch : AptOp → AptChoice) (package : Option Str) :
    AptWorld × Except Str AptRunState :=
  (startSystemdRun package).run.alone AptWorld.exec ch w

/-- The call of `systemd-run` in a start of `run`. -/
def systemdRunOp (run : Str) (package : Option Str) : AptOp :=
  .systemdRun (unitName run) (scriptPath run)
    (if package.isSome then "package".toList else "all".toList) package

/-- How far a start of `run` gets, if it fails: not to a file, or all the way to a
`systemd-run` that says no. -/
def BeforeOrAfter (run : Str) (ch : AptOp → AptChoice) (package : Option Str) : Prop :=
  match package.elim (.ok ()) validatePackageArg with
  | .error _ => True
  | .ok () =>
    match ch (.writeScript (scriptPath run) ⟨logPath run, resultPath run⟩) with
    | .bad _ touched => touched = false
    | .good =>
      (ch (.chmodScript (scriptPath run))).isGood = true ∧
        ∀ e, ch (systemdRunOp run package) ≠ .bad e false

/-! ## Step by step -/

theorem attempt_alone {α : Type} {heading : String} {p : AptM (Except Str α)}
    {answer : Except Str α} (hp : p.alone AptWorld.exec ch w = (w', answer)) :
    (attempt heading p).run.alone AptWorld.exec ch w =
      (w', answer.mapError (heading.toList ++ ·)) := by
  show (Prog.bind p _).alone AptWorld.exec ch w = _
  rw [Prog.alone_bind, hp]
  cases answer <;> rfl

theorem writeState_alone (hch : Writable ch) (state : AptRunState) :
    (writeState state).alone AptWorld.exec ch w = ({ w with stateFile := .holds state }, ()) := by
  show ((ask .createStateDir).bind _).alone AptWorld.exec ch w = _
  simp only [ask, Prog.perform, Prog.bind_eq, Prog.bind_call, Prog.bind_ret,
    Prog.alone, AptWorld.exec, hch.createStateDir, hch.openState, hch.writeState,
    AptChoice.isGood, if_true, AptWorld.execWriteState]

theorem writeUpgradeScript_alone (hch : Writable ch) (script log result : Str) :
    (writeUpgradeScript script log result).run.alone AptWorld.exec ch w =
      match ch (.writeScript script ⟨log, result⟩), ch (.chmodScript script) with
      | .good, .good =>
        ({ w with scripts := Function.update w.scripts script (some (some ⟨log, result⟩)) }, .ok ())
      | .good, .bad e _ =>
        ({ w with scripts := Function.update w.scripts script (some (some ⟨log, result⟩)) },
          .error ("chmod apt wrapper: ".toList ++ e))
      | .bad e true, _ =>
        ({ w with scripts := Function.update w.scripts script (some none) },
          .error ("write apt wrapper: ".toList ++ e))
      | .bad e false, _ => (w, .error ("write apt wrapper: ".toList ++ e)) := by
  have hcreate : (ask .createStateDir).alone AptWorld.exec ch w = (w, .ok ()) := by
    simp only [ask, Prog.perform, Prog.alone, AptWorld.exec, hch.createStateDir]
  rw [writeUpgradeScript, Prog.alone_ok (attempt_alone hcreate)]
  have hwrite : ∀ {choice}, ch (.writeScript script ⟨log, result⟩) = choice →
      (ask (.writeScript script ⟨log, result⟩)).alone AptWorld.exec ch w =
        w.execWriteScript script ⟨log, result⟩ choice := by
    intro choice hchoice
    subst hchoice
    rfl
  have hchmod : ∀ {choice} (w : AptWorld), ch (.chmodScript script) = choice →
      (ask (.chmodScript script)).alone AptWorld.exec ch w =
        w.exec (.chmodScript script) choice := by
    intro choice w hchoice
    subst hchoice
    rfl
  split
  · next hscript hmode =>
      rw [Prog.alone_ok (attempt_alone (hwrite hscript))]
      exact attempt_alone (hchmod _ hmode)
  · next hscript hmode =>
      rw [Prog.alone_ok (attempt_alone (hwrite hscript))]
      exact attempt_alone (hchmod _ hmode)
  · next hscript => exact Prog.alone_error (attempt_alone (hwrite hscript))
  · next hscript => exact Prog.alone_error (attempt_alone (hwrite hscript))

theorem cleanupRunFiles_alone (hch : Writable ch) (startedAt : Nat) :
    (cleanupRunFiles (startingState package startedAt run)).alone AptWorld.exec ch w =
      (((w.remove (logPath run)).remove (scriptPath run)).remove (resultPath run), ()) := by
  show (Prog.bind (ask (.removeFile (logPath run))) _).alone AptWorld.exec ch w = _
  simp only [startingState, removeFile, ask, Prog.perform, Prog.bind_eq, Prog.bind_call,
    Prog.bind_ret, Prog.alone, AptWorld.exec, hch.removeFile, AptChoice.isGood, if_true]

theorem update_none_none {β : Type} {f : Str → Option β} {path : Str} (other : Str)
    (h : f path = none) : Function.update f other none path = none := by
  by_cases heq : path = other
  · subst heq
    exact Function.update_self ..
  · rw [Function.update_of_ne heq, h]

/-- All that the refusal of a unit leaves. -/
theorem clean_removed (w : AptWorld) (run : Str) :
    Clean run { ((w.remove (logPath run)).remove (scriptPath run)).remove (resultPath run) with
      stateFile := .absent } where
  state := rfl
  log := update_none_none _ (update_none_none _ (Function.update_self ..))
  result := Function.update_self ..
  script := update_none_none _ (Function.update_self ..)

/-- The end of a start whose unit was refused. -/
theorem refused_alone (hch : Writable ch) (startedAt : Nat) (output : Output) :
    Clean run ((do
      ExceptT.lift (cleanupRunFiles (startingState package startedAt run))
      ExceptT.lift (ask .clearState)
      throw (systemdRunError output) : ExceptT Str AptM AptRunState).run.alone
        AptWorld.exec ch w).1 := by
  have hclear : ∀ w : AptWorld, (ask .clearState).alone AptWorld.exec ch w =
      ({ w with stateFile := .absent }, ()) := by
    intro w
    simp only [ask, Prog.perform, Prog.alone, AptWorld.exec, hch.clearState, AptChoice.isGood,
      if_true]
  rw [Prog.alone_ok (Prog.alone_lift (cleanupRunFiles_alone hch startedAt)),
    Prog.alone_ok (Prog.alone_lift (hclear _))]
  exact clean_removed w run

/-- The end of a start, from its call of `systemd-run` on. -/
def startUnit (package : Option Str) (startedAt : Nat) (run : Str) :
    ExceptT Str AptM AptRunState := do
  let output ← attempt "systemd-run spawn: " (ask (systemdRunOp run package))
  if output.success then return startingState package startedAt run
  else
    ExceptT.lift (cleanupRunFiles (startingState package startedAt run))
    ExceptT.lift (ask .clearState)
    throw (systemdRunError output)

/-- With a state written down, only a `systemd-run` that was spawned takes it back. -/
theorem startUnit_clean_iff (hch : Writable ch) {startedAt : Nat} {state : AptRunState}
    (hstate : w.stateFile = .holds state) {e : Str}
    (hfails : ((startUnit package startedAt run).run.alone AptWorld.exec ch w).2 = .error e) :
    Clean run ((startUnit package startedAt run).run.alone AptWorld.exec ch w).1 ↔
      ∀ e, ch (systemdRunOp run package) ≠ .bad e false := by
  have hrefused : ∀ {err : Str},
      (ask (systemdRunOp run package)).alone AptWorld.exec ch w = (w, .ok (refusal err)) →
      Clean run ((startUnit package startedAt run).run.alone AptWorld.exec ch w).1 := by
    intro err hspawn
    have hno : (refusal err).success = false := rfl
    rw [startUnit, Prog.alone_ok (attempt_alone hspawn), if_neg (by rw [hno]; exact nofun)]
    exact refused_alone hch startedAt (refusal err)
  cases hunit : ch (systemdRunOp run package) with
  | bad err ran =>
      have hspawn : (ask (systemdRunOp run package)).alone AptWorld.exec ch w =
          w.exec (systemdRunOp run package) (.bad err ran) := by
        rw [← hunit]
        rfl
      cases ran with
      | false =>
          refine iff_of_false (fun hclean => ?_) fun hspawned => hspawned err rfl
          rw [startUnit, Prog.alone_error (attempt_alone hspawn)] at hclean
          cases hstate.symm.trans hclean.state
      | true => exact iff_of_true (hrefused hspawn) nofun
  | good =>
      have hspawn : (ask (systemdRunOp run package)).alone AptWorld.exec ch w =
          w.exec (systemdRunOp run package) .good := by
        rw [← hunit]
        rfl
      refine iff_of_true ?_ nofun
      by_cases hloaded : w.loaded (unitName run) = true
      · have hloaded' : w.exec (systemdRunOp run package) .good = (w, .ok (refusal _)) :=
          if_pos hloaded
        exact hrefused (hspawn.trans hloaded')
      · have hstarted : w.exec (systemdRunOp run package) .good =
            (_, .ok ⟨some 0, [], []⟩) := if_neg hloaded
        rw [startUnit, Prog.alone_ok (attempt_alone (hspawn.trans hstarted))] at hfails
        cases hfails

/-! ## Failed starts -/

/-- A start that fails leaves nothing behind exactly if it fails before its first file or at
the refusal of its unit. -/
theorem failed_start_clean_iff (hch : Writable ch) (hclean : Clean w.nextRun w) {e : Str}
    (hfails : (started w ch package).2 = .error e) :
    Clean w.nextRun (started w ch package).1 ↔ BeforeOrAfter w.nextRun ch package := by
  have hscript : ∀ script, ¬ Clean w.nextRun { w with
      scripts := Function.update w.scripts (scriptPath w.nextRun) (some script) } := by
    intro script hclean'
    have hnone := hclean'.script
    dsimp only at hnone
    rw [Function.update_self] at hnone
    cases hnone
  have hclock : (ask .nowUnix).alone AptWorld.exec ch w = (w, w.clock) := rfl
  have hpid : (ask .processId).alone AptWorld.exec ch w = (w, w.pid) := rfl
  have hrun : runId w.clock w.pid = w.nextRun := rfl
  unfold started at hfails ⊢
  unfold BeforeOrAfter
  unfold startSystemdRun at hfails ⊢
  cases hname : package.elim (.ok ()) validatePackageArg with
  | error refused =>
      have hrefused : (ExceptT.mk (Prog.ret (.error refused)) : ExceptT Str AptM Unit).run.alone
          AptWorld.exec ch w = (w, .error refused) := rfl
      rw [Prog.alone_error hrefused]
      exact iff_of_true hclean trivial
  | ok valid =>
      rw [hname] at hfails
      have hvalid : (ExceptT.mk (Prog.ret (.ok valid)) : ExceptT Str AptM Unit).run.alone
          AptWorld.exec ch w = (w, .ok valid) := rfl
      rw [Prog.alone_ok hvalid, Prog.alone_ok (Prog.alone_lift hclock),
        Prog.alone_ok (Prog.alone_lift hpid)] at hfails ⊢
      dsimp only at hfails ⊢
      rw [hrun] at hfails ⊢
      have hwritten := writeUpgradeScript_alone (w := w) hch (scriptPath w.nextRun)
        (logPath w.nextRun) (resultPath w.nextRun)
      cases hwrite : ch (.writeScript (scriptPath w.nextRun)
          ⟨logPath w.nextRun, resultPath w.nextRun⟩) with
      | bad err touched =>
          rw [hwrite] at hwritten
          cases touched with
          | true =>
              rw [Prog.alone_error hwritten]
              exact iff_of_false (hscript _) nofun
          | false =>
              rw [Prog.alone_error hwritten]
              exact iff_of_true hclean rfl
      | good =>
          cases hmode : ch (.chmodScript (scriptPath w.nextRun)) with
          | bad err touched =>
              rw [hwrite, hmode] at hwritten
              rw [Prog.alone_error hwritten]
              exact iff_of_false (hscript _) fun hgood => nomatch hgood.1
          | good =>
              rw [hwrite, hmode] at hwritten
              rw [Prog.alone_ok hwritten, Prog.alone_ok (Prog.alone_lift (writeState_alone hch _))]
                at hfails ⊢
              refine (startUnit_clean_iff hch rfl hfails).trans ?_
              exact ⟨fun hspawned => ⟨rfl, hspawned⟩, fun hgood => hgood.2⟩

/-! A start of an upgrade of curl on a host without any run. -/

def freshHost : AptWorld where
  clock := 7
  pid := 1
  stateFile := .absent
  logs := fun _ => none
  results := fun _ => none
  scripts := fun _ => none
  units := fun _ => none

/-- Only `systemd-run` goes wrong; `ran` is whether it was spawned. -/
def unitFails (ran : Bool) : AptOp → AptChoice
  | .systemdRun .. => .bad "no".toList ran
  | _ => .good

theorem unitFails_writable (ran : Bool) : Writable (unitFails ran) :=
  ⟨rfl, rfl, fun _ => rfl, rfl, fun _ => rfl⟩

theorem freshHost_clean (run : Str) : Clean run freshHost := ⟨rfl, rfl, rfl, rfl⟩

theorem failed_start_clean_refused :
    Clean freshHost.nextRun (started freshHost (unitFails true) (some "curl".toList)).1 := by
  refine (failed_start_clean_iff (e := "systemd-run failed: no".toList) (unitFails_writable true)
    (freshHost_clean _) (by decide)).mpr ?_
  exact ⟨rfl, nofun⟩

/-- `systemd-run` is not there: the state stays, and the next request joins it. -/
theorem unspawned_start_left :
    (started freshHost (unitFails false) (some "curl".toList)).2 =
      .error "systemd-run spawn: no".toList ∧
    ¬ Clean freshHost.nextRun (started freshHost (unitFails false) (some "curl".toList)).1 ∧
    (started freshHost (unitFails false) (some "curl".toList)).1.stateFile.parsed =
      some (startingState (some "curl".toList) 7 freshHost.nextRun) := by
  refine ⟨by decide, fun hclean => ?_, by decide⟩
  have hparsed : (started freshHost (unitFails false) (some "curl".toList)).1.stateFile.parsed =
      some (startingState (some "curl".toList) 7 freshHost.nextRun) := by
    decide
  rw [hclean.state] at hparsed
  cases hparsed

end ShellfleetAgent.Agent.Apt
