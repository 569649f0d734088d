import ShellfleetAgent.Agent.Outgoing
import ShellfleetAgent.Lib.Interval
import ShellfleetAgent.Lib.Machine

/-!
# The session with the control plane

The main loop of `main.rs`, as far as it decides how long a connection lives. It takes
whatever is ready: a frame of the WebSocket, a message of the queue, the heartbeat, or the
watchdog. What a text frame asks for is dispatched elsewhere; how long that keeps the loop
busy is part of the time that elapses before it takes the next thing. Times are in
milliseconds.
-/

namespace ShellfleetAgent.Agent.MainLoop

open ShellfleetAgent.Lib

def outgoingQueueCapacity : Nat := 256

def idleTimeout : Nat := 75000

def watchdogPeriod : Nat := 15000

def heartbeatPeriod : Nat := 20000

inductive SessionMessage
  | ping
  | other (message : Message)
  deriving DecidableEq

/-- `tungstenite::Message`. -/
inductive WsMessage
  | text
  | binary
  | ping
  | pong
  | close
  deriving DecidableEq

/-- The ways out of the loop. -/
inductive Ending
  | readError
  | serverClosed
  | writeFailed
  | idle (secs : Nat)
  deriving DecidableEq

/-- The locals of the loop and its queue. With them go the time of the handshake, and when
a text was read and when a `Ping` was queued. -/
structure Session where
  now : Nat
  lastRead : Nat
  heartbeat : Interval
  watchdog : Interval
  queue : List SessionMessage
  started : Nat
  texts : List Nat
  pings : List Nat
  ended : Option Ending

/-- The first tick of the watchdog is taken before the loop, that of the heartbeat in it. -/
def start (now : Nat) (queue : List SessionMessage) : Session where
  now := now
  lastRead := now
  heartbeat := ⟨heartbeatPeriod, now, by decide⟩
  watchdog := ⟨watchdogPeriod, now + watchdogPeriod, by decide⟩
  queue := queue
  started := now
  texts := []
  pings := []
  ended := none

inductive WriteResult
  | written
  | failed
  /-- `serde_json` refuses the message. -/
  | notSerialized

/-- Time passes, a task sends, and the branches of the `select!`. -/
inductive Label
  | elapse (ms : Nat)
  | send (message : Message)
  | read (frame : Option (Except Unit WsMessage))
  | write (result : WriteResult)
  | heartbeat
  | watchdog

namespace Session

def room (s : Session) : Bool := s.queue.length < outgoingQueueCapacity

/-- `tx.send`, without waiting. -/
def enqueue (s : Session) (message : SessionMessage) : Session :=
  if s.room then { s with queue := s.queue ++ [message] } else s

def readFrame (s : Session) : Option (Except Unit WsMessage) → Session
  | none => { s with ended := some .serverClosed }
  | some (.error ()) => { s with ended := some .readError }
  | some (.ok .text) => { s with lastRead := s.now, texts := s.texts ++ [s.now] }
  | some (.ok _) => s

def writeNext (s : Session) (result : WriteResult) : Option Session :=
  match s.queue with
  | [] => none
  | _ :: queue =>
    some { s with
      queue
      ended := match result with
        | .failed => some .writeFailed
        | .written | .notSerialized => none }

def beat (s : Session) : Option Session :=
  (s.heartbeat.tick s.now).map fun heartbeat =>
    { s.enqueue .ping with
      heartbeat
      pings := if s.room then s.pings ++ [s.now] else s.pings }

def watch (s : Session) : Option Session :=
  (s.watchdog.tick s.now).map fun watchdog =>
    { s with
      watchdog
      ended :=
        if idleTimeout < s.now - s.lastRead then some (.idle ((s.now - s.lastRead) / 1000))
        else none }

def step (s : Session) (label : Label) : Option Session :=
  if s.ended.isSome then none
  else
    match label with
    | .elapse ms => some { s with now := s.now + ms }
    | .send message => some (s.enqueue (.other message))
    | .read frame => some (s.readFrame frame)
    | .write result => s.writeNext result
    | .heartbeat => s.beat
    | .watchdog => s.watch

end Session

def session : Machine Session Label where
  init s := ∃ now queue, queue.length ≤ outgoingQueueCapacity ∧ s = start now queue
  step := Session.step

/-! ## What is relied on -/

/-- The loop comes round to a watchdog that is due within `late`. -/
def Prompt (late : Nat) (s : Session) : Label → Prop
  | .elapse ms => s.now + ms ≤ s.watchdog.due + late
  | _ => True

/-- The heartbeat is served within `late`, finds room in the queue, and within `reply` of a
`Ping` that was queued some text is read. -/
def Answered (late reply : Nat) (s : Session) : Label → Prop
  | .elapse ms => s.now + ms ≤ s.heartbeat.due + late ∧
      ∀ sent ∈ s.pings, s.lastRead < sent → s.now + ms ≤ sent + reply
  | .heartbeat => s.room = true
  | _ => True

instance (late : Nat) : ∀ s label, Decidable (Prompt late s label)
  | s, .elapse ms => inferInstanceAs (Decidable (s.now + ms ≤ s.watchdog.due + late))
  | _, .send _ | _, .read _ | _, .write _ | _, .heartbeat | _, .watchdog =>
    inferInstanceAs (Decidable True)

instance (late reply : Nat) : ∀ s label, Decidable (Answered late reply s label)
  | s, .elapse ms => inferInstanceAs (Decidable (s.now + ms ≤ s.heartbeat.due + late ∧
      ∀ sent ∈ s.pings, s.lastRead < sent → s.now + ms ≤ sent + reply))
  | s, .heartbeat => inferInstanceAs (Decidable (s.room = true))
  | _, .send _ | _, .read _ | _, .write _ | _, .watchdog => inferInstanceAs (Decidable True)

end ShellfleetAgent.Agent.MainLoop
