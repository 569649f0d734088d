import ShellfleetAgent.Agent.Outgoing
import ShellfleetAgent.Lib.Pool

/-!
# Log streams and health probes

`logs.rs`, `journal.rs`, `journal_stream.rs`, `health.rs`, and their dispatch in
`main.rs`: each control message is handled in a task of its own, and the tasks meet
at the mutex of the manager they are for. A manager of streams keeps the `JoinHandle`
of one task for each key; a handle that is dropped leaves its task running.

A mutex guard lives to the end of its statement, so the statements under one are one
call: the removal with the `abort`, the insertion, and all of `HealthProbes::sync`.
-/

namespace ShellfleetAgent.Agent.Streams

open ShellfleetAgent.Lib

/-- The three managers of streams. -/
inductive Manager
  | logs
  | journal
  | journalStream
  deriving DecidableEq

/-- A key of a manager's map. -/
structure Slot where
  manager : Manager
  key : Str
  deriving DecidableEq

structure StreamArgs where
  streamId : Str
  units : List Str
  priority : Option Str
  since : Option Str
  grep : Option Str
  identifier : Option Str
  lines : Nat
  follow : Bool
  deriving DecidableEq

/-- The three functions `run_stream`, with their arguments. -/
inductive RunStream
  | logs (containerId : Str) (tail : Nat) (follow : Bool)
  | journal (unit : Str) (lines : Nat) (follow : Bool)
  | journalStream (args : StreamArgs)
  deriving DecidableEq

def RunStream.slot : RunStream → Slot
  | .logs containerId _ _ => ⟨.logs, containerId⟩
  | .journal unit _ _ => ⟨.journal, unit⟩
  | .journalStream args => ⟨.journalStream, args.streamId⟩

inductive HealthProbeKind
  | http
  | tcp
  | exec
  deriving DecidableEq

structure HealthProbeSpec where
  id : Str
  kind : HealthProbeKind
  target : Str
  intervalSecs : Nat
  timeoutSecs : Nat
  expectStatus : Option Nat
  expectBody : Option Str
  env : List Str
  deriving DecidableEq

/-! ## Tasks -/

inductive Body
  | stream (run : RunStream)
  | probe (spec : HealthProbeSpec)
  deriving DecidableEq

/-- A spawned task: whether it has been polled, been aborted, or come to its end. -/
structure Task where
  body : Body
  polled : Bool
  aborted : Bool
  finished : Bool
  deriving DecidableEq

/-- Neither finished nor aborted. -/
def Task.live (task : Task) : Bool := !task.aborted && !task.finished

/-- `tokio::spawn`; the handle is the task's number. -/
def spawn (tasks : List Task) (body : Body) : List Task := tasks ++ [⟨body, false, false, false⟩]

/-- `JoinHandle::abort`. -/
def abort (tasks : List Task) (handle : Nat) : List Task :=
  tasks.modify handle fun task => { task with aborted := true }

/-! ## Probes -/

/-- `Inner::tasks`: id, signature and handle. -/
abbrev ProbeMap := List (Str × Str × Nat)

/-- The loop body of `HealthProbes::sync`. -/
def syncOne (serialize : HealthProbeSpec → Option Str) (state : ProbeMap × List Task)
    (p : HealthProbeSpec) : ProbeMap × List Task :=
  match serialize p with
  | none => state
  | some sig =>
    let inserted (tasks : List Task) :=
      ((p.id, sig, tasks.length) :: state.1.filter (·.1 ≠ p.id), spawn tasks (.probe p))
    match state.1.lookup p.id with
    | none => inserted state.2
    | some (existingSig, handle) =>
      if existingSig = sig then state else inserted (abort state.2 handle)

/-- The ids that `sync` keeps. -/
def kept (serialize : HealthProbeSpec → Option Str) (probes : List HealthProbeSpec) : List Str :=
  (probes.filter fun p => (serialize p).isSome).map (·.id)

def sync (serialize : HealthProbeSpec → Option Str) (probes : List HealthProbeSpec)
    (state : ProbeMap × List Task) : ProbeMap × List Task :=
  let (map, tasks) := probes.foldl (syncOne serialize) state
  let keep := kept serialize probes
  (map.filter (·.1 ∈ keep),
    (map.filter (·.1 ∉ keep)).foldl (fun tasks entry => abort tasks entry.2.2) tasks)

/-! ## Calls -/

inductive StreamOp
  | remove (slot : Slot)
  | spawn (run : RunStream)
  | insert (slot : Slot) (handle : Nat)
  | send (message : Message)
  | sync (probes : List HealthProbeSpec)
  deriving DecidableEq

abbrev StreamResp : StreamOp → Type
  | .remove _ => Unit
  | .spawn _ => Nat
  | .insert .. => Unit
  | .send _ => Except OutgoingSendError Unit
  | .sync _ => Unit

abbrev StreamM := Prog StreamOp StreamResp

def ask (o : StreamOp) : StreamM (StreamResp o) := .perform o

/-- `stop` of any manager. -/
def stop (slot : Slot) : StreamM Unit := ask (.remove slot)

/-- What every `start` does with arguments it accepts. -/
def start (run : RunStream) : StreamM Unit := do
  stop run.slot
  let handle ← ask (.spawn run)
  ask (.insert run.slot handle)

def maxDockerTail : Nat := 10000

def maxJournalLines : Nat := 10000

def validContainerId (s : Str) : Bool :=
  s ≠ [] && s.head? ≠ some '-' && Text.utf8Len s ≤ 256 &&
    s.all fun c => c.isAlphanum || c ∈ ['_', '.', '-']

def validUnitName (s : Str) : Bool :=
  if s = [] ∨ s.head? = some '-' ∨ 256 < Text.utf8Len s then false
  else s.all fun c => c.isAlphanum || c ∈ ['.', '_', '-', '@', ':', '\\']

namespace LogStreams

def start (containerId : Str) (tail : Nat) (follow : Bool) : StreamM Unit :=
  if validContainerId containerId then
    Streams.start (.logs containerId (min tail maxDockerTail) follow)
  else do
    let _ ← ask (.send (.dockerLogsEnd containerId (some "invalid container id".toList)))
    return ()

def stop (containerId : Str) : StreamM Unit := Streams.stop ⟨.logs, containerId⟩

end LogStreams

namespace Journal.JournalStreams

def start (unit : Str) (lines : Nat) (follow : Bool) : StreamM Unit :=
  if validUnitName unit then Streams.start (.journal unit (min lines maxJournalLines) follow)
  else do
    let _ ← ask (.send (.journalLogsEnd unit (some "invalid unit name".toList)))
    return ()

def stop (unit : Str) : StreamM Unit := Streams.stop ⟨.journal, unit⟩

end Journal.JournalStreams

namespace JournalStream.JournalStreams

def start (args : StreamArgs) : StreamM Unit := Streams.start (.journalStream args)

def stop (streamId : Str) : StreamM Unit := Streams.stop ⟨.journalStream, streamId⟩

end JournalStream.JournalStreams

/-! ## Dispatch -/

inductive ControlMessage
  | dockerLogsRequest (containerId : Str) (tail : Nat) (follow : Bool)
  | dockerLogsStop (containerId : Str)
  | journalLogsRequest (unit : Str) (lines : Nat) (follow : Bool)
  | journalLogsStop (unit : Str)
  | journalStreamRequest (args : StreamArgs)
  | journalStreamStop (streamId : Str)
  | healthProbeSyncRequest (probes : List HealthProbeSpec)
  deriving DecidableEq

/-- The task that `main` spawns for a message. -/
def handle : ControlMessage → StreamM Unit
  | .dockerLogsRequest containerId tail follow => LogStreams.start containerId tail follow
  | .dockerLogsStop containerId => LogStreams.stop containerId
  | .journalLogsRequest unit lines follow => Journal.JournalStreams.start unit lines follow
  | .journalLogsStop unit => Journal.JournalStreams.stop unit
  | .journalStreamRequest args => JournalStream.JournalStreams.start args
  | .journalStreamStop streamId => JournalStream.JournalStreams.stop streamId
  | .healthProbeSyncRequest probes => ask (.sync probes)

def handlerCode : Code StreamOp StreamResp ControlMessage Empty Unit where
  start message := (handle message).bind fun _ => .ret (.inr ())
  again l := l.elim

/-- The managers' maps, the tasks there are, and all messages received so far. -/
structure StreamWorld where
  held : Slot → Option Nat
  probes : ProbeMap
  tasks : List Task
  received : List ControlMessage

namespace StreamWorld

def exec (serialize : HealthProbeSpec → Option Str) (w : StreamWorld) :
    (o : StreamOp) → Except OutgoingSendError Unit → StreamWorld × StreamResp o
  | .remove slot, _ =>
      match w.held slot with
      | some handle =>
        ({ w with held := Function.update w.held slot none, tasks := abort w.tasks handle }, ())
      | none => (w, ())
  | .spawn run, _ => ({ w with tasks := spawn w.tasks (.stream run) }, w.tasks.length)
  | .insert slot handle, _ => ({ w with held := Function.update w.held slot (some handle) }, ())
  | .send _, sent => (w, sent)
  | .sync probes, _ =>
      let (map, tasks) := sync serialize probes (w.probes, w.tasks)
      ({ w with probes := map, tasks }, ())

end StreamWorld

/-- What tasks do on their own account: be polled, and, for a stream, come to an end. -/
inductive TaskEnv
  | poll (handle : Nat)
  | finish (handle : Nat)

def TaskEnv.run (tasks : List Task) : TaskEnv → Option (List Task)
  | .poll handle => do
      let task ← tasks[handle]?
      if task.live then
        some (tasks.modify handle fun task => { task with polled := true })
      else none
  | .finish handle => do
      let task ← tasks[handle]?
      match task.body with
      | .stream _ =>
        if task.live && task.polled then
          some (tasks.modify handle fun task => { task with finished := true })
        else none
      | .probe _ => none

/-- The handlers' tasks are numbered as their messages arrive. -/
def streamHost (serialize : HealthProbeSpec → Option Str) :
    Host StreamOp StreamResp ControlMessage StreamWorld (Except OutgoingSendError Unit)
      TaskEnv where
  init w := w = ⟨fun _ => none, [], [], []⟩
  exec w _ o ch := some (w.exec serialize o ch)
  spawn w t message :=
    if t = w.received.length then some { w with received := w.received ++ [message] } else none
  kill w _ := w
  env w e := (e.run w.tasks).map fun tasks => { w with tasks }

abbrev StreamState := Pool.State StreamOp StreamResp ControlMessage Empty Unit StreamWorld

abbrev StreamLabel := Pool.Label ControlMessage (Except OutgoingSendError Unit) TaskEnv

abbrev streamPool (serialize : HealthProbeSpec → Option Str) : Machine StreamState StreamLabel :=
  pool handlerCode (streamHost serialize)

/-! ## Probes by themselves -/

inductive ProbeLabel
  | sync (probes : List HealthProbeSpec)
  | env (e : TaskEnv)

/-- The calls of `HealthProbes::sync`, one after another, with what the tasks do between
them. -/
def healthProbes (serialize : HealthProbeSpec → Option Str) :
    Machine (ProbeMap × List Task) ProbeLabel where
  init s := s = ([], [])
  step s
    | .sync probes => some (sync serialize probes s)
    | .env e => (e.run s.2).map fun tasks => (s.1, tasks)

end ShellfleetAgent.Agent.Streams
