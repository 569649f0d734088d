import ShellfleetAgent.Lib.Host
import ShellfleetAgent.Lib.Pool
import ShellfleetAgent.Lib.Text

/-!
# Upgrades

`apt.rs`: an upgrade runs in a transient systemd unit, so that it survives the
agent it may be upgrading. The agent writes down what it has started in a state
file and polls for the result; a request that finds a state file joins the run
that is in it, and so does an agent that starts up.

The delays of the polling loop are left out: any number of other steps may come
between any two of its calls.
-/

namespace ShellfleetAgent.Agent.Apt

open ShellfleetAgent.Lib

structure AptRunState where
  package : Option Str
  startedAt : Nat
  log : Str
  bytesWritten : Nat
  unitName : Option Str
  logPath : Option Str
  resultPath : Option Str
  scriptPath : Option Str
  deriving DecidableEq

def aptLogCap : Nat := 16000

/-- What of the generated wrapper is not the same for every run. -/
structure Script where
  logPath : Str
  resultPath : Str
  deriving DecidableEq

/-- `LoadState`, `ActiveState` and `Result` of a unit. -/
structure UnitStatus where
  load : Str
  active : Str
  result : Str
  deriving DecidableEq

inductive AptOp
  | readState
  | openState
  | writeState (state : AptRunState)
  | clearState
  | readLog (path : Str)
  | readResult (path : Str)
  | removeFile (path : Str)
  | unitStatus (unit : Str)
  | nowUnix
  | processId
  | createStateDir
  | writeScript (path : Str) (script : Script)
  | chmodScript (path : Str)
  | systemdRun (unit script mode : Str) (package : Option Str)
  deriving DecidableEq

/-- A state that is not there and one that does not parse read the same. -/
abbrev AptResp : AptOp → Type
  | .readState => Option AptRunState
  | .openState => Bool
  | .writeState _ => Unit
  | .clearState => Unit
  | .readLog _ => Option Bytes
  | .readResult _ => Option Str
  | .removeFile _ => Unit
  | .unitStatus _ => Option UnitStatus
  | .nowUnix => Nat
  | .processId => Nat
  | .createStateDir => Except Str Unit
  | .writeScript .. => Except Str Unit
  | .chmodScript _ => Except Str Unit
  | .systemdRun .. => Except Str Output

abbrev AptM := Prog AptOp AptResp

abbrev AptHistory := History AptOp AptResp

def ask (o : AptOp) : AptM (AptResp o) := .perform o

/-! ## State and files -/

def writeState (state : AptRunState) : AptM Unit := do
  let _ ← ask .createStateDir
  let opened ← ask .openState
  if opened then ask (.writeState state) else return ()

def truncateLog (buf : Bytes) (limit : Nat) : Option Str :=
  Text.keepTail (Text.fromUtf8Lossy buf) limit

def removeFile : Option Str → AptM Unit
  | some path => ask (.removeFile path)
  | none => return ()

def cleanupRunFiles (state : AptRunState) : AptM Unit := do
  removeFile state.logPath
  removeFile state.scriptPath
  removeFile state.resultPath

def stateFile (name : Str) : Str := "/var/lib/shellfleet/".toList ++ name

def runId (startedAt pid : Nat) : Str := Text.decimal startedAt ++ ['-'] ++ Text.decimal pid

def unitName (run : Str) : Str := "shellfleet-apt-".toList ++ run ++ ".service".toList

def logPath (run : Str) : Str := stateFile ("apt-run-".toList ++ run ++ ".log".toList)

def resultPath (run : Str) : Str := stateFile ("apt-run-".toList ++ run ++ ".result".toList)

def scriptPath (run : Str) : Str := stateFile ("apt-run-".toList ++ run ++ ".sh".toList)

/-! ## Watching a run -/

/-- How a call of `upgrade` ends; the last is a panic in `truncate_log`. -/
inductive Ended
  | returned (success : Bool) (log : Str) (error : Option Str)
  | panicked
  deriving DecidableEq

/-- The unit is gone, or has failed without telling. -/
def UnitStatus.ended (u : UnitStatus) : Bool :=
  u.load = "not-found".toList || (u.active = "failed".toList && u.result ≠ "success".toList)

/-- The state with the log as it is now; nothing is a panic. -/
def refreshLog (state : AptRunState) : AptM (Option AptRunState) :=
  match state.logPath with
  | none => return some state
  | some path => do
    match ← ask (.readLog path) with
    | none => return some state
    | some bytes =>
      match truncateLog bytes aptLogCap with
      | none => return none
      | some log =>
        let state := { state with log, bytesWritten := Text.utf8Len log }
        writeState state
        return some state

/-- A result file settles it, whatever is in it. -/
def finish (state : AptRunState) (result : Str) : AptM Ended := do
  let trimmed := Text.trim result
  let success : Bool := trimmed = "success".toList
  let error := if success then none else some ("apt unit ".toList ++ trimmed)
  let log :=
    if state.log = [] then "[shellfleet] apt unit completed with no captured log\n".toList
    else state.log
  cleanupRunFiles state
  ask .clearState
  return .returned success log error

def giveUp (state : AptRunState) (u : UnitStatus) : AptM Ended := do
  let log := state.log ++ "\n[shellfleet] apt transient unit ended unexpectedly: load=".toList ++
    u.load ++ " active=".toList ++ u.active ++ " result=".toList ++ u.result ++ ['\n']
  cleanupRunFiles state
  ask .clearState
  return .returned false log (some "apt transient unit ended before writing a result".toList)

/-- What a watcher goes on with: its state, and the result file it waits for. -/
abbrev Watching := AptRunState × Str

/-- One round of the loop in `watch_systemd_run`. -/
def watchRound (path : Str) (state : AptRunState) : AptM (Watching ⊕ Ended) := do
  match ← refreshLog state with
  | none => return .inr .panicked
  | some state =>
    match ← ask (.readResult path) with
    | some result => return .inr (← finish state result)
    | none =>
      match state.unitName with
      | none => return .inl (state, path)
      | some unit =>
        match ← ask (.unitStatus unit) with
        | none => return .inl (state, path)
        | some u =>
          if u.ended then return .inr (← giveUp state u) else return .inl (state, path)

def olderAgent (state : AptRunState) : AptM Ended := do
  let log :=
    if state.log = [] then
      "[shellfleet] older agent left an apt run marker without a detached unit\n".toList
    else state.log
  ask .clearState
  return .returned false log
    (some "older agent interrupted apt before detached execution was available".toList)

/-- `watch_systemd_run`, up to the end of the first round. -/
def watchSystemdRun (state : AptRunState) : AptM (Watching ⊕ Ended) := do
  match state.resultPath with
  | none => return .inr (← olderAgent state)
  | some path => watchRound path state

/-! ## Starting a run -/

/-- `char::is_ascii_alphanumeric`, or one of five. -/
def packageChar (c : Char) : Bool := c.isAlphanum || c ∈ ['.', '+', '-', ':', '~']

def validatePackageArg (package : Str) : Except Str Unit :=
  if package = [] then .error "empty package name".toList
  else if package.head? = some '-' ∨ package.getLast? = some '-' then
    .error "package name must not start or end with '-'".toList
  else if package.all packageChar then .ok ()
  else .error "package name contains unsupported characters".toList

/-- An operation whose error is the caller's, under a heading. -/
def attempt {α : Type} (heading : String) (p : AptM (Except Str α)) : ExceptT Str AptM α :=
  ExceptT.mk (p.bind fun
    | .ok a => .ret (.ok a)
    | .error e => .ret (.error (heading.toList ++ e)))

def writeUpgradeScript (script log result : Str) : ExceptT Str AptM Unit := do
  attempt "create state dir: " (ask .createStateDir)
  attempt "write apt wrapper: " (ask (.writeScript script ⟨log, result⟩))
  attempt "chmod apt wrapper: " (ask (.chmodScript script))

/-- The state of a run as it is first written down. -/
def startingState (package : Option Str) (startedAt : Nat) (run : Str) : AptRunState :=
  let log := "[shellfleet] starting apt in detached systemd unit ".toList ++ unitName run ++ ['\n']
  { package, startedAt, log
    bytesWritten := Text.utf8Len log
    unitName := some (unitName run)
    logPath := some (logPath run)
    resultPath := some (resultPath run)
    scriptPath := some (scriptPath run) }

def systemdRunError (output : Output) : Str :=
  let err := Text.trim (Text.fromUtf8Lossy output.stderr)
  let err := if err = [] then Text.trim (Text.fromUtf8Lossy output.stdout) else err
  "systemd-run failed: ".toList ++ err

def startSystemdRun (package : Option Str) : ExceptT Str AptM AptRunState := do
  ExceptT.mk (.ret (package.elim (.ok ()) validatePackageArg))
  let startedAt ← ExceptT.lift (ask .nowUnix)
  let pid ← ExceptT.lift (ask .processId)
  let run := runId startedAt pid
  writeUpgradeScript (scriptPath run) (logPath run) (resultPath run)
  let state := startingState package startedAt run
  ExceptT.lift (writeState state)
  let mode := if package.isSome then "package".toList else "all".toList
  let output ← attempt "systemd-run spawn: "
    (ask (.systemdRun (unitName run) (scriptPath run) mode package))
  if output.success then return state
  else
    ExceptT.lift (cleanupRunFiles state)
    ExceptT.lift (ask .clearState)
    throw (systemdRunError output)

/-! ## Requests and restarts -/

def upgrade (package : Option Str) : AptM (Watching ⊕ Ended) := do
  match ← ask .readState with
  | some existing => watchSystemdRun existing
  | none =>
    match ← (startSystemdRun package).run with
    | .error e => return .inr (.returned false [] (some e))
    | .ok state => watchSystemdRun state

structure AptUpgradeResponse where
  package : Option Str
  success : Bool
  log : Str
  error : Option Str

/-- The tasks of the agent: one for each request, one for a run found at start-up. -/
inductive AptCall
  | request (package : Option Str)
  | resume

def AptCall.requested : AptCall → Option (Option Str)
  | .request package => some package
  | .resume => none

/-- The response is about `package`, whatever was watched. A panic sends none. -/
def respond (package : Option Str) :
    Watching ⊕ Ended → (Option Str × Watching) ⊕ Option AptUpgradeResponse
  | .inl l => .inl (package, l)
  | .inr (.returned success log error) => .inr (some ⟨package, success, log, error⟩)
  | .inr .panicked => .inr none

def resumePendingUpgrade : AptM ((Option Str × Watching) ⊕ Option AptUpgradeResponse) := do
  match ← ask .readState with
  | none => return .inr none
  | some state => return respond state.package (← watchSystemdRun state)

/-- `main`: a task for each request, and one at start-up if a run is pending. -/
def agentCode : Code AptOp AptResp AptCall (Option Str × Watching) (Option AptUpgradeResponse)
    where
  start
    | .request package => do return respond package (← upgrade package)
    | .resume => do
      match ← ask .readState with
      | none => return .inr none
      | some _ => resumePendingUpgrade
  again | (package, state, path) => do return respond package (← watchRound path state)

end ShellfleetAgent.Agent.Apt
