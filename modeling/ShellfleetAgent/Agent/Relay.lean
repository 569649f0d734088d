import Mathlib.Logic.Function.Basic
import ShellfleetAgent.Agent.Outgoing
import ShellfleetAgent.Lib.Machine
import ShellfleetAgent.Privileged.Framing

/-!
# The relay of trusted operations

`main.rs` handles one `TrustedOperationClient` after the other, and keeps a
`RelaySession` for each request id with a connection to the gate. `client.rs` gives
each connection two tasks: one writes what the session sends to the gate, the other
hands what the gate writes to the queue. `main` waits for nothing but `connect`.

The connections there have been are kept with what was read and written; `log` is
which requests were accepted and what was announced about them.
-/

namespace ShellfleetAgent.Agent.Relay

open ShellfleetAgent.Lib ShellfleetAgent.Privileged

/-- The relay also looks into what the gate writes. -/
structure RelayCodec extends Codec where
  decodeHost : Bytes → Except String TrustedHostFrame

/-- `Message::TrustedOperationClient`. -/
structure ClientMessage where
  requestId : String
  start : Bool
  close : Bool
  payload : Bytes
  deriving DecidableEq

/-- A payload with the request id of its envelope. -/
structure Sent where
  envelope : String
  payload : Bytes
  deriving DecidableEq

structure Connection where
  requestId : String
  /-- `RelaySession::sender` is alive. -/
  session : Bool
  channel : List Sent
  writing : Bool
  written : List Sent
  reading : Bool
  /-- Frames of the gate, and those of them that the queue has accepted. -/
  read : List Bytes
  forwarded : List Bytes
  deriving DecidableEq

/-- What `main` is doing: it waits for a message, or for the gate's socket. -/
inductive Main
  | idle
  | connecting (requestId : String) (firstPayload : Bytes)
  deriving DecidableEq

inductive Event
  | accepted (requestId : String)
  | host (requestId : String) (complete : Bool)
  deriving DecidableEq

structure State where
  queue : Outgoing
  trustedSessions : String → Option Nat
  connections : List Connection
  main : Main
  log : List Event

inductive Label
  | receive (message : ClientMessage)
  | connected (result : Except String Unit)
  | write (connection : Nat) (ok : Bool)
  | read (connection : Nat) (result : Except String Bytes)
  | queue (e : QueueEnv)

variable (x : RelayCodec)

/-- The frame in the payload is what the envelope says. -/
def innerMatches (message : ClientMessage) : Bool :=
  match x.decodeClient message.payload with
  | .ok (.start inner _ _) => message.start && !message.close && inner == message.requestId
  | .ok (.approve signedManifest _ _) =>
      !message.start && !message.close && signedManifest.manifest.requestId == message.requestId
  | .ok .close => !message.start && message.close
  | .ok (.ciphertext _ _) | .ok (.resize _ _) => !message.start && !message.close
  | .error _ => false

/-- `encode_host(Error { message }).unwrap_or_default()`. -/
def errorPayload (message : String) : Bytes :=
  match x.encodeHost (.error message) with
  | .ok payload => payload
  | .error _ => []

/-- `RelaySession::send`. -/
def Connection.send (c : Connection) (envelope : String) (payload : Bytes) :
    Except String Connection :=
  if payload.isEmpty || payload.length > x.maxTrustedFrameBytes then
    .error "trusted relay payload size is invalid"
  else if c.writing then .ok { c with channel := c.channel ++ [⟨envelope, payload⟩] }
  else .error "trusted host broker disconnected"

/-- Both tasks have been spawned. -/
def Connection.open (requestId : String) : Connection where
  requestId := requestId
  session := true
  channel := []
  writing := true
  written := []
  reading := true
  read := []
  forwarded := []

namespace State

/-- A `TrustedOperationHost` is handed to the queue. -/
def announce (s : State) (requestId : String) (complete : Bool) (payload : Bytes) : State :=
  { s with queue := (s.queue.send (.trustedOperationHost requestId complete payload)).1,
           log := s.log ++ [Event.host requestId complete] }

/-- `main` answers with an error. -/
def fail (s : State) (requestId message : String) : State :=
  s.announce requestId true (errorPayload x message)

/-- `trusted_sessions.remove`, on a close. -/
def closeIf (s : State) (close : Bool) (requestId : String) (n : Nat) : State :=
  if close then
    { s with trustedSessions := Function.update s.trustedSessions requestId none,
             connections := s.connections.modify n fun c => { c with session := false } }
  else s

def receive (s : State) (message : ClientMessage) : Option State :=
  let requestId := message.requestId
  if !innerMatches x message then some (s.fail x requestId "trusted relay envelope mismatch")
  else if message.start then
    match s.trustedSessions requestId with
    | some _ => some (s.fail x requestId "trusted request id is already active")
    | none => some { s with main := .connecting requestId message.payload }
  else
    match s.trustedSessions requestId with
    | some n => do
        let c ← s.connections[n]?
        let sent :=
          match c.send x requestId message.payload with
          | .ok c => { s with connections := s.connections.set n c }
          | .error error => s.fail x requestId error
        return sent.closeIf message.close requestId n
    | none => some (s.fail x requestId "trusted request is not active")

/-- The rest of `connect`, and what `main` makes of its result. -/
def connected (s : State) (requestId : String) (firstPayload : Bytes) : Except String Unit → State
  | .error error => { s with main := .idle }.fail x requestId s!"connect approval gate: {error}"
  | .ok () =>
      match (Connection.open requestId).send x requestId firstPayload with
      | .ok c =>
          { s with main := .idle, connections := s.connections ++ [c],
                   trustedSessions :=
                     Function.update s.trustedSessions requestId (some s.connections.length),
                   log := s.log ++ [Event.accepted requestId] }
      | .error error =>
          let c := { Connection.open requestId with session := false }
          { s with main := .idle, connections := s.connections ++ [c] }.fail x requestId error

/-- A round of the writing task. -/
def write (s : State) (n : Nat) (ok : Bool) (c : Connection) : Option State :=
  match c.channel with
  | sent :: channel =>
      let c :=
        if ok ∧ Framable x.toCodec sent.payload then
          { c with channel, written := c.written ++ [sent] }
        else { c with channel, writing := false }
      some { s with connections := s.connections.set n c }
  | [] =>
      if c.session then none
      else some { s with connections := s.connections.set n { c with writing := false } }

/-- Nothing comes after `Closed` or `Error`. -/
def completes (payload : Bytes) : Bool :=
  match x.decodeHost payload with
  | .ok .closed | .ok (.error _) => true
  | _ => false

/-- A round of the reading task. -/
def read (s : State) (n : Nat) (c : Connection) : Except String Bytes → State
  | .ok payload =>
      let complete := completes x payload
      let taken := s.queue.refusal.isNone
      let c := { c with reading := !complete, read := c.read ++ [payload],
                        forwarded := if taken then c.forwarded ++ [payload] else c.forwarded }
      { s with connections := s.connections.set n c }.announce c.requestId complete payload
  | .error error =>
      let connections := s.connections.set n { c with reading := false }
      { s with connections }.announce c.requestId true (errorPayload x error)

def step (s : State) : Label → Option State
  | .receive message =>
      match s.main with
      | .idle => s.receive x message
      | .connecting _ _ => none
  | .connected result =>
      match s.main with
      | .idle => none
      | .connecting requestId firstPayload => some (s.connected x requestId firstPayload result)
  | .write n ok => do
      let c ← s.connections[n]?
      if c.writing then s.write x n ok c else none
  | .read n result => do
      let c ← s.connections[n]?
      if c.reading then some (s.read x n c result) else none
  | .queue e => (e.run s.queue).map fun queue => { s with queue }

end State

def machine : Machine State Label where
  init s := s.trustedSessions = (fun _ => none) ∧ s.connections = [] ∧ s.main = .idle ∧ s.log = []
  step := State.step x

end ShellfleetAgent.Agent.Relay
