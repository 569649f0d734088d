import ShellfleetAgent.Agent.Apt

/-!
# The host of an upgrade

The files under `/var/lib/shellfleet`, systemd's transient units, and the
wrapper script each of them runs, step by step as the shell takes them. Threads
and units move independently; all they share is here.

Log, result and script files are kept apart by what is in them. Their names
never coincide.
-/

namespace ShellfleetAgent.Agent.Apt

open ShellfleetAgent.Lib

/-- `apt-run.json`: between its truncation and the write it does not parse. -/
inductive StateFile
  | absent
  | torn
  | holds (state : AptRunState)

def StateFile.parsed : StateFile → Option AptRunState
  | .holds state => some state
  | _ => none

/-- How far a unit is. From `decided` on the wrapper's final `rc` is known. -/
inductive Phase
  | queued
  | running
  | decided (rc : Nat)
  | opened (rc : Nat)
  | written (rc : Nat)
  | exited (rc : Nat)
  | unloaded (rc : Nat)
  deriving DecidableEq

def Phase.rc : Phase → Option Nat
  | .queued | .running => none
  | .decided rc | .opened rc | .written rc | .exited rc | .unloaded rc => some rc

/-- The wrapper is at work. -/
def Phase.executing : Phase → Bool
  | .running | .decided _ | .opened _ | .written _ => true
  | .queued | .exited _ | .unloaded _ => false

/-- `systemctl show`. A unit that has exited cleanly is soon unloaded, one that
failed stays. -/
def Phase.status : Phase → UnitStatus
  | .queued => ⟨"loaded".toList, "inactive".toList, "success".toList⟩
  | .running | .decided _ | .opened _ | .written _ =>
      ⟨"loaded".toList, "active".toList, "success".toList⟩
  | .exited 0 => ⟨"loaded".toList, "inactive".toList, "success".toList⟩
  | .exited _ => ⟨"loaded".toList, "failed".toList, "exit-code".toList⟩
  | .unloaded _ => ⟨"not-found".toList, "inactive".toList, "success".toList⟩

/-- A unit with the arguments of its `systemd-run`; `wrapper` is the script it
has started. -/
structure SystemdUnit where
  script : Str
  mode : Str
  package : Option Str
  wrapper : Option Script
  phase : Phase

structure AptWorld where
  clock : Nat
  pid : Nat
  stateFile : StateFile
  logs : Str → Option Bytes
  results : Str → Option Str
  /-- A script that was cut off while it was written is `none`. -/
  scripts : Str → Option (Option Script)
  units : Str → Option SystemdUnit

namespace AptWorld

def status (w : AptWorld) (unit : Str) : UnitStatus :=
  match w.units unit with
  | some u => u.phase.status
  | none => ⟨"not-found".toList, "inactive".toList, "success".toList⟩

def loaded (w : AptWorld) (unit : Str) : Bool := (w.status unit).load = "loaded".toList

/-- The final `rc` of the wrapper a unit runs. -/
def finalRc (w : AptWorld) (unit : Str) : Option Nat := (w.units unit).bind (·.phase.rc)

def setUnit (w : AptWorld) (unit : Str) (u : SystemdUnit) : AptWorld :=
  { w with units := Function.update w.units unit (some u) }

def remove (w : AptWorld) (path : Str) : AptWorld :=
  { w with
    logs := Function.update w.logs path none
    results := Function.update w.results path none
    scripts := Function.update w.scripts path none }

end AptWorld

/-! ## Calls -/

/-- How a call goes: well, or not; `touched` is how far it got before it failed. -/
inductive AptChoice
  | good
  | bad (e : Str) (touched : Bool)

def AptChoice.isGood : AptChoice → Bool
  | .good => true
  | .bad .. => false

/-- What `systemd-run` says. -/
def refusal (e : Str) : Output := ⟨some 1, [], Text.toUtf8 e⟩

namespace AptWorld

/-- A write that goes wrong leaves less than a state, or its text over a part of
another call's. -/
def execWriteState (w : AptWorld) (state : AptRunState) (ch : AptChoice) : AptWorld :=
  { w with stateFile := if ch.isGood then .holds state else .torn }

def execWriteScript (w : AptWorld) (path : Str) (script : Script) :
    AptChoice → AptWorld × Except Str Unit
  | .good => ({ w with scripts := Function.update w.scripts path (some (some script)) }, .ok ())
  | .bad e true => ({ w with scripts := Function.update w.scripts path (some none) }, .error e)
  | .bad e false => (w, .error e)

/-- A unit of a loaded name cannot be started again. -/
def execSystemdRun (w : AptWorld) (unit script mode : Str) (package : Option Str) :
    AptChoice → AptWorld × Except Str Output
  | .good =>
      if w.loaded unit then
        (w, .ok (refusal ("Failed to start transient service unit: Unit ".toList ++ unit ++
          " was already loaded.".toList)))
      else
        (w.setUnit unit ⟨script, mode, package, none, .queued⟩, .ok ⟨some 0, [], []⟩)
  | .bad e true => (w, .ok (refusal e))
  | .bad e false => (w, .error e)

def exec (w : AptWorld) : (o : AptOp) → AptChoice → AptWorld × AptResp o
  | .readState, ch => (w, if ch.isGood then w.stateFile.parsed else none)
  | .openState, ch => if ch.isGood then ({ w with stateFile := .torn }, true) else (w, false)
  | .writeState state, ch => (w.execWriteState state ch, ())
  | .clearState, ch => (if ch.isGood then { w with stateFile := .absent } else w, ())
  | .readLog path, ch => (w, if ch.isGood then w.logs path else none)
  | .readResult path, ch => (w, if ch.isGood then w.results path else none)
  | .removeFile path, ch => (if ch.isGood then w.remove path else w, ())
  | .unitStatus unit, ch => (w, if ch.isGood then some (w.status unit) else none)
  | .nowUnix, _ => (w, w.clock)
  | .processId, _ => (w, w.pid)
  | .createStateDir, .good => (w, .ok ())
  | .createStateDir, .bad e _ => (w, .error e)
  | .writeScript path script, ch => w.execWriteScript path script ch
  | .chmodScript _, .good => (w, .ok ())
  | .chmodScript _, .bad e _ => (w, .error e)
  | .systemdRun unit script mode package, ch => w.execSystemdRun unit script mode package ch

end AptWorld

/-! ## The wrapper -/

/-- The wrapper's `rc`: that of `apt-get`, or 0 if the repair after it went well. -/
def scriptRc (apt dpkg fix : Nat) : Nat :=
  if apt ≠ 0 ∧ dpkg = 0 ∧ fix = 0 then 0 else apt

def resultLine (rc : Nat) : Str :=
  if rc = 0 then "success\n".toList else "failed:".toList ++ Text.decimal rc ++ ['\n']

inductive UnitStep
  | start
  | print (text : Bytes)
  | runApt (apt dpkg fix : Nat)
  | openResult
  | writeResult
  | exit
  | unload

namespace AptWorld

/-- `/bin/sh` finds the wrapper and opens its log, or fails. -/
def startUnit (w : AptWorld) (unit : Str) (u : SystemdUnit) : AptWorld :=
  match w.scripts u.script with
  | some (some s) =>
    { w with logs := Function.update w.logs s.logPath (some []) }.setUnit unit
      { u with wrapper := some s, phase := .running }
  | some none => w.setUnit unit { u with phase := .exited 2 }
  | none => w.setUnit unit { u with phase := .exited 127 }

/-- The wrapper writes to the files it has opened, which nobody may find any
more. -/
def unitStep (w : AptWorld) (unit : Str) (u : SystemdUnit) : UnitStep → Option AptWorld
  | .start => if u.phase = .queued then some (w.startUnit unit u) else none
  | .print text =>
      match u.wrapper with
      | some s =>
        if u.phase.executing then
          some { w with
            logs := Function.update w.logs s.logPath ((w.logs s.logPath).map (· ++ text)) }
        else none
      | none => none
  | .runApt apt dpkg fix =>
      if u.phase = .running then
        some (w.setUnit unit { u with phase := .decided (scriptRc apt dpkg fix) })
      else none
  | .openResult =>
      match u.wrapper, u.phase with
      | some s, .decided rc =>
        some ({ w with results := Function.update w.results s.resultPath (some []) }.setUnit unit
          { u with phase := .opened rc })
      | _, _ => none
  | .writeResult =>
      match u.wrapper, u.phase with
      | some s, .opened rc =>
        some ({ w with
          results := Function.update w.results s.resultPath
            ((w.results s.resultPath).map fun _ => resultLine rc) }.setUnit unit
          { u with phase := .written rc })
      | _, _ => none
  | .exit =>
      match u.phase with
      | .written rc => some (w.setUnit unit { u with phase := .exited rc })
      | _ => none
  | .unload =>
      match u.phase with
      | .exited rc => some (w.setUnit unit { u with phase := .unloaded rc })
      | _ => none

end AptWorld

/-! ## Pools -/

inductive AptEnv
  | unit (unit : Str) (step : UnitStep)
  | setClock (now : Nat)
  | setPid (pid : Nat)

def aptHost {C : Type} (init : AptWorld → Prop) :
    Host AptOp AptResp C AptWorld AptChoice AptEnv where
  init := init
  exec w _ o ch := some (w.exec o ch)
  spawn w _ _ := some w
  kill w _ := w
  env w
    | .unit unit step => (w.units unit).bind fun u => w.unitStep unit u step
    | .setClock now => some { w with clock := now }
    | .setPid pid => some { w with pid := pid }

abbrev AgentState :=
  Pool.State AptOp AptResp AptCall (Option Str × Watching) (Option AptUpgradeResponse) AptWorld

abbrev AgentLabel := Pool.Label AptCall AptChoice AptEnv

/-- The host with a record that nobody reads: whose upgrade has created each result file,
the package of its unit, and whose the result was that a task has read. -/
structure Attributed where
  world : AptWorld
  authors : Str → Option (Option Str)
  sources : Nat → Option (Option Str)

namespace Attributed

def sourcesAfter (a : Attributed) (t : Nat) : (o : AptOp) → AptResp o → Nat → Option (Option Str)
  | .readResult path, some _ => Function.update a.sources t (a.authors path)
  | _, _ => a.sources

def authorsAfter (a : Attributed) (unit : Str) : UnitStep → Str → Option (Option Str)
  | .openResult =>
      match a.world.units unit with
      | some ⟨_, _, package, some s, _⟩ => Function.update a.authors s.resultPath (some package)
      | _ => a.authors
  | _ => a.authors

/-- The wrappers and units there are bear the names that runs give them. -/
structure Named (a : Attributed) : Prop where
  units : ∀ unit u, a.world.units unit = some u → ∃ run, u.script = scriptPath run ∧
    ∀ s, u.wrapper = some s → s = ⟨logPath run, resultPath run⟩
  scripts : ∀ path s, a.world.scripts path = some (some s) →
    ∃ run, path = scriptPath run ∧ s = ⟨logPath run, resultPath run⟩
  results : ∀ path text, a.world.results path = some text → a.authors path ≠ none

end Attributed

/-- The wrapper may still write to its result file. -/
def Phase.pending : Phase → Bool
  | .queued | .running | .decided _ | .opened _ => true
  | .written _ | .exited _ | .unloaded _ => false

/-- Something on the host has to do with the result file `path` and is about an upgrade of
`p`: a unit that may write to it, the result that is in it, or the run in the state file. -/
inductive Attributed.Bears (a : Attributed) (path : Str) (p : Option Str) : Prop
  | unit {unit run : Str} {u : SystemdUnit} (hu : a.world.units unit = some u)
      (hpending : u.phase.pending = true) (hscript : u.script = scriptPath run)
      (hpath : path = resultPath run) (hpackage : u.package = p)
  | result {text : Str} (htext : a.world.results path = some text)
      (hauthor : a.authors path = some p)
  | state {st : AptRunState} (hst : a.world.stateFile.parsed = some st)
      (hpath : st.resultPath = some path) (hpackage : st.package = p)

/-- Each result file is one package's. -/
def Attributed.Distinct (a : Attributed) : Prop :=
  ∀ path p q, a.Bears path p → a.Bears path q → p = q

def attributedHost : Host AptOp AptResp AptCall Attributed AptChoice AptEnv where
  init a := a.Named ∧ a.Distinct
  exec a t o ch :=
    let answered := a.world.exec o ch
    some (⟨answered.1, a.authors, a.sourcesAfter t o answered.2⟩, answered.2)
  spawn a _ _ := some a
  kill a _ := a
  env a
    | .unit unit step => ((a.world.units unit).bind fun u => a.world.unitStep unit u step).map
        fun w => { a with world := w, authors := a.authorsAfter unit step }
    | .setClock now => some { a with world := { a.world with clock := now } }
    | .setPid pid => some { a with world := { a.world with pid := pid } }

abbrev AttributedState :=
  Pool.State AptOp AptResp AptCall (Option Str × Watching) (Option AptUpgradeResponse) Attributed

/-- The agent: requests at any time, on a host where each result file that earlier runs have
left is one package's. A restart kills the tasks there are and starts one that resumes. -/
abbrev attributedPool : Machine AttributedState AgentLabel := pool agentCode attributedHost

/-- A state of the run `run`, with whatever of the log it has. -/
structure RunState (run : Str) where
  state : AptRunState
  unitName : state.unitName = some (unitName run)
  logPath : state.logPath = some (logPath run)
  resultPath : state.resultPath = some (resultPath run)
  scriptPath : state.scriptPath = some (scriptPath run)

/-- `watch_systemd_run` on states of one run. -/
def watchCode (run : Str) : Code AptOp AptResp (RunState run) Watching Ended where
  start c := watchSystemdRun c.state
  again | (state, path) => watchRound path state

/-- One run has its state file, and has not got to its result: its unit is yet to be
started, or it is queued or at work. -/
structure Underway (run : Str) (w : AptWorld) : Prop where
  only : ∀ unit, unit ≠ unitName run → w.units unit = none
  unit : ∀ u, w.units (unitName run) = some u → u.script = scriptPath run ∧
    ((u.phase = .queued ∧ u.wrapper = none) ∨
      (u.phase = .running ∧ u.wrapper = some ⟨logPath run, resultPath run⟩))
  script : ∀ s, w.scripts (scriptPath run) = some (some s) → s = ⟨logPath run, resultPath run⟩
  noResult : w.results (resultPath run) = none

/-- What moves beside the watchers: the host, and the request that starts the run. -/
inductive RunEnv
  | host (e : AptEnv)
  | starter (o : AptOp) (ch : AptChoice)

/-- What is left of `start_systemd_run` when the state file is written: `systemd-run`, and
the cleaning up if that fails. -/
def AptOp.startsRun (run : Str) : AptOp → Bool
  | .systemdRun unit script _ _ => unit = unitName run ∧ script = scriptPath run
  | .removeFile path => path = logPath run ∨ path = scriptPath run ∨ path = resultPath run
  | .clearState => true
  | _ => false

/-- The host of one run. There is something left to start as long as there is no unit. -/
def watchHost (run : Str) : Host AptOp AptResp (RunState run) AptWorld AptChoice RunEnv where
  init := Underway run
  exec w _ o ch := some (w.exec o ch)
  spawn w _ _ := some w
  kill w _ := w
  env w
    | .host e => (aptHost (C := RunState run) fun _ => True).env w e
    | .starter o ch =>
        if (w.units (unitName run)).isNone && o.startsRun run then some (w.exec o ch).1 else none

abbrev WatchState (run : Str) :=
  Pool.State AptOp AptResp (RunState run) Watching Ended AptWorld

abbrev WatchLabel (run : Str) := Pool.Label (RunState run) AptChoice RunEnv

/-- Any number of watchers of one run, from the state file on. -/
abbrev watchPool (run : Str) : Machine (WatchState run) (WatchLabel run) :=
  pool (watchCode run) (watchHost run)

end ShellfleetAgent.Agent.Apt
