import ShellfleetAgent.Lib.Stage
import ShellfleetAgent.Proofs.Apt

/-!
# The stages of an upgrade

What a task of the agent may still call, as far as the other tasks can tell: it waits
until it has read the state file, then either starts a run, step by step, or watches
the one it found, and clears up after it once it has seen the end.
-/

namespace ShellfleetAgent.Agent.Apt

open ShellfleetAgent.Lib

/-- Where a task is: a request that has not read the state file, the resuming task
before its first or its second reading, a call that has found no run and is starting
one, up to the answer of `systemd-run`, with its script and its state file (or an attempt at
it) done or not; then what it is to clear up or to watch. -/
inductive Stage
  | asked (package : Option Str)
  | pending (found : Bool)
  | starting (package : Option Str) (now : Option Nat)
  | preparing (package : Option Str) (now pid : Nat) (scripted written : Bool)
  | refused
  | watching (st : AptRunState)
  | ending
  | finished

/-- The state of the run that a call is starting. -/
abbrev newState (package : Option Str) (now pid : Nat) : AptRunState :=
  startingState package now (runId now pid)

/-- The run that is watched. -/
def Stage.watched : Stage → Option AptRunState
  | .watching st => some st
  | _ => none

theorem Stage.watched_eq_some {x : Stage} {st : AptRunState} :
    x.watched = some st ↔ x = .watching st := by
  cases x <;> simp [Stage.watched]

def Stage.next : Stage → AptEvent → Stage
  | .asked p, ⟨.readState, none⟩ => .starting p none
  | .asked _, ⟨.readState, some st⟩ => .watching st
  | .pending _, ⟨.readState, none⟩ => .finished
  | .pending false, ⟨.readState, some _⟩ => .pending true
  | .pending true, ⟨.readState, some st⟩ => .watching st
  | .starting p none, ⟨.nowUnix, now⟩ => .starting p (some now)
  | .starting p (some now), ⟨.processId, pid⟩ => .preparing p now pid false false
  | .preparing p now pid _ written, ⟨.writeScript .., .ok ()⟩ =>
      .preparing p now pid true written
  | .preparing p now pid scripted _, ⟨.openState, false⟩ => .preparing p now pid scripted true
  | .preparing p now pid scripted _, ⟨.writeState _, ()⟩ => .preparing p now pid scripted true
  | .preparing p now pid _ _, ⟨.systemdRun .., .ok out⟩ =>
      if out.success then .watching (newState p now pid) else .refused
  | .preparing .., ⟨.systemdRun .., .error _⟩ => .finished
  | .watching _, ⟨.readResult _, some _⟩ => .ending
  | .watching st, ⟨.unitStatus _, some u⟩ => if u.ended then .ending else .watching st
  | x, _ => x

def Stage.may : Stage → AptOp → Prop
  | .asked _, .readState | .pending _, .readState => True
  | .starting _ none, .nowUnix | .starting _ (some _), .processId => True
  | .preparing .., .createStateDir | .preparing .., .chmodScript _ => True
  | .preparing _ _ _ _ written, .openState => written = false
  | .preparing _ now pid scripted _, .writeScript path script =>
      path = scriptPath (runId now pid) ∧
        script = ⟨logPath (runId now pid), resultPath (runId now pid)⟩ ∧ scripted = false
  | .preparing p now pid _ _, .writeState st => st = newState p now pid
  | .preparing p now pid scripted written, .systemdRun unit script _ package =>
      unit = unitName (runId now pid) ∧ script = scriptPath (runId now pid) ∧ package = p ∧
        scripted = true ∧ written = true
  | .watching _, .readLog _ | .watching _, .createStateDir | .watching _, .openState => True
  | .watching st, .writeState st' => SameRun st st'
  | .watching st, .readResult path => st.resultPath = some path
  | .watching st, .unitStatus unit => st.unitName = some unit
  | .watching st, .clearState => st.resultPath = none
  | .refused, .removeFile _ | .refused, .clearState => True
  | .ending, .removeFile _ | .ending, .clearState => True
  | _, _ => False

/-- What a call makes of the stage of its task. -/
inductive Stage.Moved (x : Stage) (e : AptEvent) : Stage → Prop
  | joins {st : AptRunState} (hx : (∃ p, x = .asked p) ∨ x = .pending true)
      (he : e = ⟨.readState, some st⟩) : Moved x e (.watching st)
  | begins {p : Option Str} (hx : x = .asked p) : Moved x e (.starting p none)
  | clocks {p : Option Str} {now : Nat} (hx : x = .starting p none) :
      Moved x e (.starting p (some now))
  | names {p : Option Str} {now pid : Nat} (hx : x = .starting p (some now))
      (he : e = ⟨.processId, pid⟩) : Moved x e (.preparing p now pid false false)
  | prepares {p : Option Str} {now pid : Nat} {scripted written scripted' written' : Bool}
      (hx : x = .preparing p now pid scripted written) :
      Moved x e (.preparing p now pid scripted' written')
  | starts {p : Option Str} {now pid : Nat} {scripted written : Bool}
      (hx : x = .preparing p now pid scripted written) : Moved x e (.watching (newState p now pid))
  | watches {st : AptRunState} (hx : x = .watching st) : Moved x e (.watching st)
  | waits {found : Bool} (hx : x = .pending found) : Moved x e (.pending true)
  | clears {y : Stage} (hy : y = .refused ∨ y = .ending ∨ y = .finished) : Moved x e y

theorem Stage.moved {x : Stage} {o : AptOp} {r : AptResp o} (hmay : x.may o) :
    x.Moved ⟨o, r⟩ (x.next ⟨o, r⟩) := by
  cases x with
  | asked p =>
      cases o with
      | readState =>
          cases r with
          | none => exact .begins rfl
          | some st => exact .joins (.inl ⟨p, rfl⟩) rfl
      | _ => cases hmay
  | pending found =>
      cases o with
      | readState =>
          cases r with
          | none => exact .clears (.inr (.inr (by cases found <;> rfl)))
          | some st =>
              cases found with
              | false => exact .waits rfl
              | true => exact .joins (.inr rfl) rfl
      | _ => cases hmay
  | starting p now =>
      cases now with
      | none =>
          cases o with
          | nowUnix => exact .clocks rfl
          | _ => cases hmay
      | some now =>
          cases o with
          | processId => exact .names rfl rfl
          | _ => cases hmay
  | preparing p now pid scripted written =>
      cases o with
      | createStateDir | chmodScript path | writeState st => exact .prepares rfl
      | openState => cases r <;> exact .prepares rfl
      | writeScript path script => cases r <;> exact .prepares rfl
      | systemdRun unit script mode package =>
          cases r with
          | error e => exact .clears (.inr (.inr rfl))
          | ok out =>
              dsimp only [Stage.next]
              split
              · exact .starts rfl
              · exact .clears (.inl rfl)
      | _ => cases hmay
  | watching st =>
      cases o with
      | readLog path | createStateDir | openState | writeState st' | clearState =>
          exact .watches rfl
      | readResult path =>
          cases r with
          | none => exact .watches rfl
          | some text => exact .clears (.inr (.inl rfl))
      | unitStatus unit =>
          cases r with
          | none => exact .watches rfl
          | some u =>
              dsimp only [Stage.next]
              split
              · exact .clears (.inr (.inl rfl))
              · exact .watches rfl
      | _ => cases hmay
  | refused | ending =>
      cases o with
      | removeFile path | clearState => exact .clears (by simp [Stage.next])
      | _ => cases hmay
  | finished => cases hmay

def agentStaged : Staged agentCode Stage where
  first
    | .request p => .asked p
    | .resume => .pending false
  next := Stage.next
  may := Stage.may
  answer _ _ _ := True
  loop x l := ∃ st, x = .watching st ∧ SameRun st l.2.1 ∧ l.2.1.resultPath = some l.2.2
  done _ := True

section Tasks

variable {α : Type} {Q : Stage → α → Prop} {st st' : AptRunState} {p : Option Str}

theorem cleanupRunFiles_only (state : AptRunState) :
    (cleanupRunFiles state).Only fun o => ∃ path, o = .removeFile path := by
  have hremove : ∀ path, (removeFile path).Only fun o => ∃ path, o = .removeFile path := by
    intro path
    cases path with
    | none => trivial
    | some path => exact Prog.only_perform.mpr ⟨path, rfl⟩
  exact (hremove _).bind fun _ => (hremove _).bind fun _ => hremove _

theorem cleanupRunFiles_stage {x : Stage} {Q : Stage → Unit → Prop}
    (hx : x = .refused ∨ x = .ending) (hQ : Q x ()) :
    agentStaged.wp (cleanupRunFiles st) Q x := by
  refine Staged.wp_stay (cleanupRunFiles_only st) ?_ ?_ fun _ => hQ
  · intro o ho
    obtain ⟨path, rfl⟩ := ho
    rcases hx with rfl | rfl <;> trivial
  · intro o r ho _
    obtain ⟨path, rfl⟩ := ho
    rcases hx with rfl | rfl <;> rfl

/-- A watcher rewrites the file with a state of the run it watches. -/
theorem writeState_watching {Q : Stage → Unit → Prop} (hs : SameRun st st')
    (hQ : Q (.watching st) ()) : agentStaged.wp (writeState st') Q (.watching st) := by
  unfold writeState
  refine ⟨trivial, fun _ _ => ⟨trivial, fun opened _ => ?_⟩⟩
  cases opened with
  | true => exact ⟨hs, fun _ _ => hQ⟩
  | false => exact hQ

theorem refreshLog_watching {Q : Stage → Option AptRunState → Prop} (hs : SameRun st st')
    (hQ : ∀ found, (∀ st'' ∈ found, SameRun st st'') → Q (.watching st) found) :
    agentStaged.wp (refreshLog st') Q (.watching st) := by
  have hsame : Q (.watching st) (some st') := by
    refine hQ _ fun st'' hst => ?_
    cases hst
    exact hs
  unfold refreshLog
  split
  · exact hsame
  · refine ⟨trivial, fun bytes _ => ?_⟩
    cases bytes with
    | none => exact hsame
    | some bytes =>
        dsimp only [Prog.bind]
        split
        · exact hQ none nofun
        · next log _ =>
            have hnew : SameRun st { st' with log := log, bytesWritten := Text.utf8Len log } :=
              hs.trans ⟨rfl, rfl, rfl, rfl, rfl⟩
            rw [Prog.bind_eq]
            refine Staged.wp_bind.mpr (writeState_watching hnew ?_)
            refine hQ _ fun st'' hst => ?_
            cases hst
            exact hnew

/-- A round that goes on with the response of an end does what the stages ask. -/
theorem ending_respond {m : AptM Ended} {x : Stage}
    (hm : agentStaged.wp m (fun _ _ => True) x) :
    agentStaged.wp ((m.bind fun e => .ret (.inr e)).bind fun r => .ret (respond p r))
      agentStaged.roundPost x := by
  rw [Staged.wp_bind, Staged.wp_bind]
  refine Staged.wp_mono hm fun y e _ => ?_
  cases e <;> trivial

theorem finish_ending (st : AptRunState) (result : Str) :
    agentStaged.wp (finish st result) (fun _ _ => True) .ending := by
  unfold finish
  simp only [Prog.bind_eq, Staged.wp_bind]
  exact cleanupRunFiles_stage (.inr rfl) ⟨trivial, fun _ _ => trivial⟩

theorem giveUp_ending (st : AptRunState) (u : UnitStatus) :
    agentStaged.wp (giveUp st u) (fun _ _ => True) .ending := by
  unfold giveUp
  simp only [Prog.bind_eq, Staged.wp_bind]
  exact cleanupRunFiles_stage (.inr rfl) ⟨trivial, fun _ _ => trivial⟩

theorem watchRound_watching {path : Str} (hs : SameRun st st')
    (hpath : st'.resultPath = some path) :
    agentStaged.wp ((watchRound path st').bind fun r => .ret (respond p r))
      agentStaged.roundPost (.watching st) := by
  unfold watchRound
  rw [Prog.bind_eq, Staged.wp_bind, Staged.wp_bind]
  refine refreshLog_watching hs fun found hfound => ?_
  cases found with
  | none => trivial
  | some st'' =>
      have hsame := hfound st'' rfl
      have hpath' : st''.resultPath = some path := by
        rw [hsame.resultPath, ← hs.resultPath, hpath]
      have hgo : ∃ z, Stage.watching st = .watching z ∧ SameRun z st'' ∧
          st''.resultPath = some path := ⟨st, rfl, hsame, hpath'⟩
      dsimp only
      rw [← Staged.wp_bind]
      refine ⟨?_, fun result _ => ?_⟩
      · show st.resultPath = some path
        rw [← hs.resultPath, hpath]
      · cases result with
        | some result => exact ending_respond (finish_ending st'' result)
        | none =>
            dsimp only [Prog.bind]
            split
            · exact hgo
            · next unit hunit =>
                refine ⟨?_, fun answer _ => ?_⟩
                · show st.unitName = some unit
                  rw [← hsame.unitName, hunit]
                · cases answer with
                  | none => exact hgo
                  | some u =>
                      dsimp only [Prog.bind, agentStaged, Stage.next]
                      cases hended : u.ended with
                      | true => exact ending_respond (giveUp_ending st'' u)
                      | false => exact hgo

theorem watchSystemdRun_watching (st : AptRunState) :
    agentStaged.wp ((watchSystemdRun st).bind fun r => .ret (respond p r))
      agentStaged.roundPost (.watching st) := by
  unfold watchSystemdRun
  split
  · next hnone =>
      refine ending_respond ?_
      unfold olderAgent
      exact ⟨hnone, fun _ _ => trivial⟩
  · next path hpath => exact watchRound_watching (.refl st) hpath

/-! ## Starting -/

/-- A starting call tries to write the state of its run. -/
theorem writeState_preparing {now pid : Nat} {scripted : Bool}
    {Q : Stage → Except Str Unit → Prop} (hQ : Q (.preparing p now pid scripted true) (.ok ())) :
    agentStaged.wp (ExceptT.lift (writeState (newState p now pid)) : ExceptT Str AptM Unit).run Q
      (.preparing p now pid scripted false) := by
  refine ⟨trivial, fun _ _ => ⟨rfl, fun opened _ => ?_⟩⟩
  cases opened with
  | true => exact ⟨rfl, fun _ _ => hQ⟩
  | false => exact hQ

/-- What is left of a start once its script is written, up to the answer of
`systemd-run`. -/
theorem startSystemdRun_starting (p : Option Str) :
    agentStaged.wp (startSystemdRun p).run
      (fun y r => ∀ st, r = .ok st → y = .watching st) (.starting p none) := by
  unfold startSystemdRun
  refine Staged.wp_run_bind ?_
  cases p.elim (.ok ()) validatePackageArg with
  | error e => exact nofun
  | ok u =>
      refine ⟨trivial, fun now _ => ⟨trivial, fun pid _ => ?_⟩⟩
      dsimp only [agentStaged, Stage.next]
      refine Staged.wp_run_bind ?_
      unfold writeUpgradeScript
      refine Staged.wp_run_bind ⟨trivial, fun made _ => ?_⟩
      cases made with
      | error e => exact nofun
      | ok _ =>
          refine Staged.wp_run_bind ⟨⟨rfl, rfl, rfl⟩, fun scripted _ => ?_⟩
          cases scripted with
          | error e => exact nofun
          | ok _ =>
              refine ⟨trivial, fun changed _ => ?_⟩
              cases changed with
              | error e => exact nofun
              | ok _ =>
                  refine Staged.wp_run_bind (writeState_preparing ?_)
                  refine ⟨⟨rfl, rfl, rfl, rfl, rfl⟩, fun out _ => ?_⟩
                  cases out with
                  | error e => exact nofun
                  | ok out =>
                      dsimp only [Prog.bind, ExceptT.bindCont, agentStaged, Stage.next]
                      cases out.success with
                      | true =>
                          intro st hst
                          cases hst
                          rfl
                      | false =>
                          refine Staged.wp_run_bind ?_
                          refine Staged.wp_bind.mpr (cleanupRunFiles_stage (.inl rfl) ?_)
                          refine ⟨trivial, fun _ _ => nofun⟩

theorem upgrade_asked (p : Option Str) :
    agentStaged.wp ((upgrade p).bind fun r => .ret (respond p r)) agentStaged.roundPost
      (.asked p) := by
  unfold upgrade
  refine ⟨trivial, fun found _ => ?_⟩
  dsimp only [Prog.bind, agentStaged, Stage.next]
  cases found with
  | some existing => exact watchSystemdRun_watching existing
  | none =>
      rw [Prog.bind_eq, Staged.wp_bind, Staged.wp_bind]
      refine Staged.wp_mono (startSystemdRun_starting p) fun y r hr => ?_
      cases r with
      | error e => trivial
      | ok st =>
          obtain rfl := hr st rfl
          rw [← Staged.wp_bind]
          exact watchSystemdRun_watching st

theorem agentStaged_holds : agentStaged.Holds where
  start c := by
    cases c with
    | request p => exact upgrade_asked p
    | resume =>
        refine ⟨trivial, fun found _ => ?_⟩
        cases found with
        | none => trivial
        | some _ =>
            refine ⟨trivial, fun found _ => ?_⟩
            cases found with
            | none => trivial
            | some st => exact watchSystemdRun_watching st
  again x l hl := by
    obtain ⟨p, state, path⟩ := l
    obtain ⟨st, rfl, hs, hpath⟩ := hl
    exact watchRound_watching hs hpath

end Tasks

end ShellfleetAgent.Agent.Apt
