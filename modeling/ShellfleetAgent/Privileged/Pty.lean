import ShellfleetAgent.Lib.Machine
import ShellfleetAgent.Privileged.Gate

/-!
# A root PTY session

`run_pty`, from `openpty` to its return, one step of a machine for each thing
that can happen next. The `select!` loop is written out: its three branches are
the timer, the shell's output and the pending `read_frame`, the branch that wins
is in the label, and the future of a branch that lost is dropped with whatever
it held. The relay writes frames meanwhile, and how many of the bytes are there
at a poll is the label's choice too.
-/

namespace ShellfleetAgent.Privileged

open ShellfleetAgent.Lib

/-- Where `run_pty` stands. -/
inductive PtyStage
  | openpty
  | spawnCommand
  | tryCloneReader
  | takeWriter
  | select
  | kill
  | wait
  | sendExit
  | returned (result : Except String Unit)
  deriving DecidableEq

/-- What has been done to the shell's process. -/
inductive ChildCall
  | spawned
  | killed
  | waited
  deriving DecidableEq

structure PtyState where
  stage : PtyStage
  transport : Transport
  /-- Written by the relay and not yet taken off the socket. -/
  stream : Bytes
  /-- The `read_frame` of the current `select!`. -/
  incoming : ReadFrame
  /-- The frames the relay has written, and the payloads `read_frame` has
  yielded to the loop. -/
  written : List Bytes
  yielded : List Bytes
  calls : List ChildCall

/-- How the I/O of one loop iteration turns out. -/
structure PtyIo where
  writeAll : Except String Unit := .ok ()
  flush : Except String Unit := .ok ()
  resize : Except String Unit := .ok ()
  /-- `write_frame` towards the relay. -/
  send : Except String Unit := .ok ()

inductive PtyLabel
  /-- The relay's `write_frame`. -/
  | write (body : Bytes)
  /-- What the call of the current stage returns. -/
  | answer (result : Except String Unit)
  | deadline
  | output (data : Option Bytes) (io : PtyIo)
  /-- `read_frame` is polled and finds `n` bytes. -/
  | poll (n : Nat) (io : PtyIo)
  | readError

/-- What a branch of the loop ends in. -/
inductive LoopExit
  | next (transport : Transport)
  | stop
  | fail (error : String)

variable (x : Externals)

/-- `send_encrypted`, with the outcome of its write given. -/
def sendEncryptedPty (transport : Transport) (plaintext : TrustedPlaintext)
    (sent : Except String Unit) : Except String Transport := do
  let (transport, frame) ← sealPlaintext x transport plaintext
  let encoded ← x.encodeHost frame
  if Framable x.toCodec encoded then
    sent
    return transport
  else throw "invalid trusted frame length"

/-- The body of the output branch. -/
def onOutput (transport : Transport) (data : Option Bytes) (io : PtyIo) : LoopExit :=
  match data with
  | none => .stop
  | some data =>
    match sendEncryptedPty x transport (.output "pty" data) io.send with
    | .ok transport => .next transport
    | .error error => .fail error

/-- The body of the incoming branch, for a payload that was read. -/
def onFrame (transport : Transport) (payload : Bytes) (io : PtyIo) : LoopExit :=
  match x.decodeClient payload with
  | .error error => .fail error
  | .ok (.ciphertext counter data) =>
    match transport.decrypt x.toSuite counter data with
    | (_, .error error) => .fail error
    | (transport, .ok _) =>
      match io.writeAll, io.flush with
      | .ok (), .ok () => .next transport
      | .error error, _ => .fail error
      | .ok (), .error error => .fail error
  | .ok (.resize _ _) =>
    match io.resize with
    | .ok () => .next transport
    | .error error => .fail error
  | .ok .close => .stop
  | .ok _ => .fail "unexpected frame in active root PTY"

namespace PtyState

/-- `break`, `return Err`, or round again with fresh futures. -/
def leave (s : PtyState) : LoopExit → PtyState
  | .next transport => { s with transport, incoming := .fresh, stage := .select }
  | .stop => { s with incoming := .fresh, stage := .kill }
  | .fail error => { s with incoming := .fresh, stage := .returned (.error error) }

/-- A call of the setup: `?` on its error. -/
def setup (s : PtyState) (result : Except String Unit) (next : PtyStage) : PtyState :=
  match result with
  | .ok () => { s with stage := next }
  | .error error => { s with stage := .returned (.error error) }

/-- The call the current stage waits for returns. -/
def answer (s : PtyState) (result : Except String Unit) : Option PtyState :=
  match s.stage with
  | .openpty => some (s.setup result .spawnCommand)
  | .spawnCommand =>
      match result with
      | .ok () => some { s with stage := .tryCloneReader, calls := s.calls ++ [ChildCall.spawned] }
      | .error error => some { s with stage := .returned (.error error) }
  | .tryCloneReader => some (s.setup result .takeWriter)
  | .takeWriter => some (s.setup result .select)
  | .kill => some { s with stage := .wait, calls := s.calls ++ [ChildCall.killed] }
  | .wait => some { s with stage := .sendExit, calls := s.calls ++ [ChildCall.waited] }
  | .sendExit =>
      let sent := sendEncryptedPty x s.transport (.exit 0 "root PTY closed") result
      some { s with stage := .returned (sent.map fun _ => ()) }
  | .select | .returned _ => none

/-- One poll of the pending `read_frame`. -/
def poll (s : PtyState) (n : Nat) (io : PtyIo) : PtyState :=
  let rest := { s with stream := s.stream.drop n }
  match s.incoming.feed x.toCodec (s.stream.take n) with
  | .pending future => { rest with incoming := future }
  | .ready (.error _) => rest.leave .stop
  | .ready (.ok payload) =>
      let read := { rest with yielded := s.yielded ++ [payload] }
      read.leave (onFrame x s.transport payload io)

def step (s : PtyState) : PtyLabel → Option PtyState
  | .write body =>
      if Framable x.toCodec body then
        some { s with stream := s.stream ++ frameBytes body, written := s.written ++ [body] }
      else none
  | .answer result => s.answer x result
  | .deadline => if s.stage = .select then some (s.leave .stop) else none
  | .output data io =>
      if s.stage = .select then some (s.leave (onOutput x s.transport data io)) else none
  | .poll n io =>
      if s.stage = .select ∧ 0 < n ∧ n ≤ s.stream.length ∧ n ≤ s.incoming.wants then
        some (s.poll x n io)
      else none
  | .readError => if s.stage = .select then some (s.leave .stop) else none

end PtyState

/-- A session starts at a frame boundary and without a shell. The relay may
write at any time from then on. -/
def ptyMachine : Machine PtyState PtyLabel where
  init s := s.stage = .openpty ∧ s.incoming = .fresh ∧ s.yielded = [] ∧ s.calls = [] ∧
    s.written = [] ∧ s.stream = []
  step := PtyState.step x

end ShellfleetAgent.Privileged
