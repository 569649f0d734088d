import ShellfleetAgent.Agent.Docker
import ShellfleetAgent.Lib.Machine

/-!
# Terminals

`terminal.rs`, `k8s_exec.rs`, and the part of the main loop that keeps their sessions: a
table of host shells and one of pod shells by session id, and one `docker exec`, which
has no id. The main loop handles one message after the other; each session has threads
or tasks of its own, which run on in any order and all send to one queue.

A session is a handle on the threads' input channels. To drop it closes these, and
nothing else: the thread that reads the terminal stops when the terminal does.
-/

namespace ShellfleetAgent.Agent.Terminals

open ShellfleetAgent.Lib

/-- A thread or task that pumps from one end to another. -/
inductive Pump
  | running
  | ended
  deriving DecidableEq

/-- A channel from the main loop, and whether its sender is still there. -/
structure Channel (α : Type) where
  items : List α
  senderAlive : Bool
  deriving DecidableEq

/-- `recv`: an item, or the end; nothing while it has to wait. -/
def Channel.recv {α : Type} (channel : Channel α) : Option (Option α × Channel α) :=
  match channel.items with
  | item :: items => some (some item, { channel with items })
  | [] => if channel.senderAlive then none else some (none, channel)

def Channel.send {α : Type} (channel : Channel α) (item : α) : Channel α :=
  { channel with items := channel.items ++ [item] }

def Channel.dropSender {α : Type} (channel : Channel α) : Channel α :=
  { channel with senderAlive := false }

def Channel.new {α : Type} : Channel α := ⟨[], true⟩

/-! ## PTYs -/

/-- `holding` is between `reader.read` and `tx_msg.send`. -/
inductive ReadThread
  | reading
  | holding (data : Bytes)
  | reaping
  | returned
  deriving DecidableEq

/-- What `spawn_pty` sets up. `output` is what was written to the terminal and not read,
and `hungUp` is when no process has the terminal open any more. -/
structure Pty where
  sessionId : Str
  output : Bytes
  hungUp : Bool
  running : Bool
  reader : ReadThread
  input : Channel Bytes
  writer : Pump
  sizes : Channel (Nat × Nat)
  resizer : Pump
  typed : List Bytes
  size : Nat × Nat
  deriving DecidableEq

def spawnPty (sessionId : Str) : Pty where
  sessionId := sessionId
  output := []
  hungUp := false
  running := true
  reader := .reading
  input := .new
  writer := .running
  sizes := .new
  resizer := .running
  typed := []
  size := (80, 24)

/-- The `TerminalSession` is dropped. -/
def Pty.dropSession (pty : Pty) : Pty :=
  { pty with input := pty.input.dropSender, sizes := pty.sizes.dropSender }

inductive PtyLabel
  | print (data : Bytes)
  | exit
  | hangUp
  | read (n : Nat)
  | send
  | readEnd
  | reap
  | write
  | resize

/-- A step of a session, with the message that it sends. A read that ends the loop finds
the end of the output, or an error. -/
def Pty.step (pty : Pty) : PtyLabel → Option (Pty × Option Message)
  | .print data =>
      if pty.hungUp then none else some ({ pty with output := pty.output ++ data }, none)
  | .exit => if pty.running then some ({ pty with running := false }, none) else none
  | .hangUp => some ({ pty with hungUp := true }, none)
  | .read n =>
      if pty.reader = .reading ∧ 0 < n ∧ n ≤ min 1024 pty.output.length then
        some ({ pty with
          output := pty.output.drop n
          reader := .holding (pty.output.take n) }, none)
      else none
  | .send =>
      match pty.reader with
      | .holding data =>
          some ({ pty with reader := .reading }, some (.terminalData pty.sessionId data))
      | _ => none
  | .readEnd =>
      if pty.reader = .reading then some ({ pty with reader := .reaping }, none) else none
  | .reap =>
      if pty.reader = .reaping ∧ !pty.running then some ({ pty with reader := .returned }, none)
      else none
  | .write =>
      if pty.writer = .running then
        match pty.input.recv with
        | some (some data, input) => some ({ pty with input, typed := pty.typed ++ [data] }, none)
        | some (none, _) => some ({ pty with writer := .ended }, none)
        | none => none
      else none
  | .resize =>
      if pty.resizer = .running then
        match pty.sizes.recv with
        | some (some size, sizes) => some ({ pty with sizes, size }, none)
        | some (none, _) => some ({ pty with resizer := .ended }, none)
        | none => none
      else none

/-! ## Pods -/

inductive Supervisor
  | waiting
  | joining
  | returned
  deriving DecidableEq

/-- What `spawn_exec` sets up: three pumps, and the supervisor that owns their handles
and the `AttachedProcess`. `stdout` is what has arrived and was not read; `late` is what
was put into the queue after the abort. -/
structure PodExec where
  sessionId : Str
  stdout : Bytes
  closed : Bool
  reader : Pump
  input : Channel Bytes
  writer : Pump
  sizes : Channel (Nat × Nat)
  resizer : Pump
  supervisor : Supervisor
  stdin : List Bytes
  size : Option (Nat × Nat)
  aborted : Bool
  late : List Message
  deriving DecidableEq

def spawnExec (sessionId : Str) : PodExec where
  sessionId := sessionId
  stdout := []
  closed := false
  reader := .running
  input := .new
  writer := .running
  sizes := .new
  resizer := .running
  supervisor := .waiting
  stdin := []
  size := none
  aborted := false
  late := []

/-- `K8sExecSession::abort`, which takes the session: the supervisor's future is dropped,
if it has not returned, and so are the senders. -/
def PodExec.abort (pod : PodExec) : PodExec :=
  { pod with
    supervisor := .returned
    input := pod.input.dropSender
    sizes := pod.sizes.dropSender
    aborted := true }

inductive PodLabel
  | arrive (data : Bytes)
  | close
  | read (n : Nat)
  | readEnd
  | write (ok : Bool)
  | resize (ok : Bool)
  | supervise
  | join (result : Except Str Unit)

def banner : Except Str Unit → Bytes
  | .ok () => Text.toUtf8 "\r\n\x1b[2m[ session ended ]\x1b[0m\r\n".toList
  | .error e => Text.toUtf8 ("\r\n\x1b[31m[ exec failed: ".toList ++ e ++ " ]\x1b[0m\r\n".toList)

/-- A step of one of the tasks, with the message that it sends and what becomes of it. A
chunk that is refused ends the pump. -/
def PodExec.step (pod : PodExec) (send : Message → Except OutgoingSendError Unit) :
    PodLabel → Option (PodExec × Option Message)
  | .arrive data =>
      if pod.closed then none else some ({ pod with stdout := pod.stdout ++ data }, none)
  | .close => some ({ pod with closed := true }, none)
  | .read n =>
      if pod.reader = .running ∧ 0 < n ∧ n ≤ min 4096 pod.stdout.length then
        let message := .terminalData pod.sessionId (pod.stdout.take n)
        let reader := match send message with
          | .ok () => .running
          | .error _ => .ended
        some ({ pod with stdout := pod.stdout.drop n, reader }, some message)
      else none
  | .readEnd => if pod.reader = .running then some ({ pod with reader := .ended }, none) else none
  | .write ok =>
      if pod.writer = .running then
        match pod.input.recv with
        | some (some data, input) =>
            if ok then some ({ pod with input, stdin := pod.stdin ++ [data] }, none)
            else some ({ pod with input, writer := .ended }, none)
        | some (none, _) => some ({ pod with writer := .ended }, none)
        | none => none
      else none
  | .resize ok =>
      if pod.resizer = .running then
        match pod.sizes.recv with
        | some (some size, sizes) =>
            if ok then some ({ pod with sizes, size := some size }, none)
            else some ({ pod with sizes, resizer := .ended }, none)
        | some (none, _) => some ({ pod with resizer := .ended }, none)
        | none => none
      else none
  | .supervise =>
      if pod.supervisor = .waiting ∧ pod.reader = .ended then
        some ({ pod with writer := .ended, resizer := .ended, supervisor := .joining }, none)
      else none
  | .join result =>
      if pod.supervisor = .joining then
        some ({ pod with supervisor := .returned },
          some (.terminalData pod.sessionId (banner result)))
      else none

/-! ## The main loop -/

inductive ControlMessage
  | startTerminalRequest (sessionId : Str)
  | stopTerminalRequest (sessionId : Str)
  | terminalData (sessionId : Str) (data : Bytes)
  | terminalResize (sessionId : Str) (cols rows : Nat)
  | dockerExecStartRequest (containerId shell : Str)
  | dockerExecStopRequest
  | k8sExecRequest (sessionId namespaceName podName : Str) (container : Option Str)
      (command : List Str)
  deriving DecidableEq

/-- Whether the loop waits for a message, for `spawn_exec`, or is about to answer. -/
inductive Main
  | idle
  | connecting (sessionId : Str)
  | responding (message : Message)
  deriving DecidableEq

/-- Who has put a message into the queue. -/
inductive Origin
  | main
  | pty (handle : Nat)
  | pod (handle : Nat)
  | other
  deriving DecidableEq

/-- The messages that were accepted, and the `docker exec` sessions that were stored. -/
inductive Event
  | started (handle : Nat) (containerId : Str)
  | sent (origin : Origin) (message : Message)
  deriving DecidableEq

structure State where
  queue : Outgoing
  ptys : List Pty
  pods : List PodExec
  termSessions : Str → Option Nat
  execSession : Option Nat
  k8sExecSessions : Str → Option Nat
  main : Main
  log : List Event

namespace State

/-- `Outgoing::send`, on record. -/
def send (s : State) (origin : Origin) (message : Message) : State :=
  let (queue, sent) := s.queue.send message
  match sent with
  | .ok () => { s with queue, log := s.log ++ [Event.sent origin message] }
  | .error _ => { s with queue }

def dropPty (s : State) : Option Nat → State
  | some handle => { s with ptys := s.ptys.modify handle Pty.dropSession }
  | none => s

def abortPod (s : State) : Option Nat → State
  | some handle => { s with pods := s.pods.modify handle PodExec.abort }
  | none => s

/-- The session that a `TerminalData` or a `TerminalResize` is for. -/
def session (s : State) (sessionId : Str) : Option (Nat ⊕ Nat) :=
  if sessionId = [] then s.execSession.map .inl
  else
    match s.termSessions sessionId with
    | some handle => some (.inl handle)
    | none => (s.k8sExecSessions sessionId).map .inr

/-- A send fails where the receiver is gone; what it was is lost then. -/
def sendInput (s : State) (data : Bytes) : Option (Nat ⊕ Nat) → State
  | some (.inl handle) =>
      { s with ptys := s.ptys.modify handle fun pty =>
          { pty with input := pty.input.send data } }
  | some (.inr handle) =>
      { s with pods := s.pods.modify handle fun pod =>
          { pod with input := pod.input.send data } }
  | none => s

def sendSize (s : State) (size : Nat × Nat) : Option (Nat ⊕ Nat) → State
  | some (.inl handle) =>
      { s with ptys := s.ptys.modify handle fun pty =>
          { pty with sizes := pty.sizes.send size } }
  | some (.inr handle) =>
      { s with pods := s.pods.modify handle fun pod =>
          { pod with sizes := pod.sizes.send size } }
  | none => s

def startTerminal (s : State) (sessionId : Str) (spawned : Except Str Unit) : State :=
  if sessionId = [] then s
  else
    match s.termSessions sessionId, spawned with
    | some _, _ => s
    | none, .error _ => s
    | none, .ok () =>
        { s with
          ptys := s.ptys ++ [spawnPty sessionId]
          termSessions := Function.update s.termSessions sessionId (some s.ptys.length) }

def stopTerminal (s : State) (sessionId : Str) : State :=
  let s := { s.dropPty (s.termSessions sessionId) with
    termSessions := Function.update s.termSessions sessionId none }
  { s.abortPod (s.k8sExecSessions sessionId) with
    k8sExecSessions := Function.update s.k8sExecSessions sessionId none }

/-- The session before is dropped in any case. -/
def startDockerExec (s : State) (containerId shell : Str) (spawned : Except Str Unit) : State :=
  let s := { s.dropPty s.execSession with execSession := none }
  let failed (e : Str) : State :=
    { s with main := .responding (.dockerExecStartResponse containerId false (some e)) }
  match Docker.spawnDockerExec containerId shell, spawned with
  | .error e, _ => failed e.toList
  | .ok _, .error e => failed e
  | .ok _, .ok () =>
      { s with
        ptys := s.ptys ++ [spawnPty []]
        execSession := some s.ptys.length
        main := .responding (.dockerExecStartResponse containerId true none)
        log := s.log ++ [Event.started s.ptys.length containerId] }

def stopDockerExec (s : State) : State := { s.dropPty s.execSession with execSession := none }

/-- The pod's shell with this id is superseded before `spawn_exec` is awaited. -/
def startK8sExec (s : State) (sessionId : Str) : State :=
  { s.abortPod (s.k8sExecSessions sessionId) with
    k8sExecSessions := Function.update s.k8sExecSessions sessionId none
    main := .connecting sessionId }

def connected (s : State) (sessionId : Str) : Except Str Unit → State
  | .ok () =>
      { s with
        pods := s.pods ++ [spawnExec sessionId]
        k8sExecSessions := Function.update s.k8sExecSessions sessionId (some s.pods.length)
        main := .responding (.k8sExecResponse sessionId true none) }
  | .error e => { s with main := .responding (.k8sExecResponse sessionId false (some e)) }

def handle (s : State) (message : ControlMessage) (spawned : Except Str Unit) : State :=
  match message with
  | .startTerminalRequest sessionId => s.startTerminal sessionId spawned
  | .stopTerminalRequest sessionId => s.stopTerminal sessionId
  | .terminalData sessionId data => s.sendInput data (s.session sessionId)
  | .terminalResize sessionId cols rows => s.sendSize (cols, rows) (s.session sessionId)
  | .dockerExecStartRequest containerId shell => s.startDockerExec containerId shell spawned
  | .dockerExecStopRequest => s.stopDockerExec
  | .k8sExecRequest sessionId _ _ _ _ => s.startK8sExec sessionId

end State

inductive Label
  | message (message : ControlMessage) (spawned : Except Str Unit)
  | connected (result : Except Str Unit)
  | respond
  | pty (handle : Nat) (label : PtyLabel)
  | pod (handle : Nat) (label : PodLabel)
  | queue (e : QueueEnv)

namespace State

def sends (s : State) (origin : Origin) : Option Message → State
  | some message => s.send origin message
  | none => s

def stepPty (s : State) (handle : Nat) (label : PtyLabel) : Option State :=
  match s.ptys[handle]? with
  | none => none
  | some pty => (pty.step label).map fun (pty, message) =>
      { s with ptys := s.ptys.set handle pty }.sends (.pty handle) message

/-- What a pod's tasks send after the abort is kept apart. -/
def stepPod (s : State) (handle : Nat) (label : PodLabel) : Option State :=
  match s.pods[handle]? with
  | none => none
  | some pod => (pod.step (fun message => (s.queue.send message).2) label).map
      fun (pod, message) =>
        let accepted := message.toList.filter fun message =>
          (s.queue.send message).2.toOption.isSome
        let late := if pod.aborted then pod.late ++ accepted else pod.late
        { s with pods := s.pods.set handle { pod with late } }.sends (.pod handle) message

/-- Nothing else in the agent sends terminal data. -/
def stepQueue (s : State) : QueueEnv → Option State
  | .send (.terminalData _ _) => none
  | .send message => some (s.send .other message)
  | .take => s.queue.take.map fun queue => { s with queue }
  | .close => some { s with queue := s.queue.close }

def step (s : State) : Label → Option State
  | .message message spawned =>
      if s.main = .idle then some (s.handle message spawned) else none
  | .connected result =>
      match s.main with
      | .connecting sessionId => some (s.connected sessionId result)
      | _ => none
  | .respond =>
      match s.main with
      | .responding message => some { s.send .main message with main := .idle }
      | _ => none
  | .pty handle label => s.stepPty handle label
  | .pod handle label => s.stepPod handle label
  | .queue e => s.stepQueue e

end State

def terminals : Machine State Label where
  init s := s.ptys = [] ∧ s.pods = [] ∧ s.termSessions = (fun _ => none) ∧
    s.execSession = none ∧ s.k8sExecSessions = (fun _ => none) ∧ s.main = .idle ∧ s.log = []
  step := State.step

end ShellfleetAgent.Agent.Terminals
