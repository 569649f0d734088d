import ShellfleetAgent.Agent.LogSources

/-!
# The managers with their streams

The handlers of `Streams` over the streams themselves: `spawn` starts a `run_stream` of
`LogSources`, all of them send to one queue, and `JoinHandle::abort` drops the future of
the one. The readers and the batcher it has spawned are tasks of their own, whose
handles are dropped with it: they go on. The child is killed, but what it has written is
in its pipes.

Probes are left out: `sync` changes nothing here.
-/

namespace ShellfleetAgent.Agent.Streams

open ShellfleetAgent.Lib
open LogSources

/-! ## Streams -/

/-- A `run_stream` with the tasks that it spawns. -/
inductive Producer
  | unbatched (stream : Unbatched) (readers : Readers) (runner : Runner)
  | batched (args : StreamArgs) (readers : Readers) (lines : List Str) (batcher : Batcher)
      (runner : Runner)

namespace Producer

/-- The future that is spawned. -/
def ofRun : RunStream → Producer
  | .logs containerId _ _ => .unbatched (Logs.runStream containerId) idleReaders .starting
  | .journal unit _ _ => .unbatched (Journal.runStream unit) idleReaders .starting
  | .journalStream args => .batched args idleReaders [] .unspawned .starting

/-- A step of one of its tasks, of its child or of its pipes. -/
def step (queue : Outgoing) (label : ChildLabel) : Producer → Option (Outgoing × Producer)
  | .unbatched stream readers runner =>
      (stream.step ⟨queue, readers, runner⟩ label).map fun s =>
        (s.queue, .unbatched stream s.readers s.runner)
  | .batched args readers lines batcher runner =>
      (JournalStream.step args ⟨queue, readers, lines, batcher, runner⟩ label).map fun s =>
        (s.queue, .batched args s.readers s.lines s.batcher s.runner)

/-- The future of `run_stream` is dropped, if it has not returned before. -/
def abort : Producer → Producer
  | .unbatched stream readers _ => .unbatched stream readers .returned
  | .batched args readers lines batcher _ => .batched args readers lines batcher .returned

end Producer

/-- A stream is dropped when its manager takes its handle out of the map, or puts another
in its place. -/
structure Stream where
  producer : Producer
  dropped : Bool

/-- A message that a stream has put into the queue, and whether the stream had been
dropped by then. -/
structure Sent where
  handle : Nat
  message : Message
  dropped : Bool
  deriving DecidableEq

def isChunk : Message → Bool
  | .dockerLogsChunk .. | .journalLogsChunk .. | .journalStreamChunk .. => true
  | _ => false

/-! ## The host -/

/-- The managers' maps, all streams that were spawned, and the queue they send to. -/
structure OutputWorld where
  held : Slot → Option Nat
  streams : List Stream
  queue : Outgoing
  received : List ControlMessage
  sent : List Sent

namespace OutputWorld

def exec (w : OutputWorld) : (o : StreamOp) → OutputWorld × StreamResp o
  | .remove slot =>
      match w.held slot with
      | some handle =>
        ({ w with
            held := Function.update w.held slot none
            streams := w.streams.modify handle fun stream => ⟨stream.producer.abort, true⟩ }, ())
      | none => (w, ())
  | .spawn run =>
      ({ w with streams := w.streams ++ [⟨Producer.ofRun run, false⟩] }, w.streams.length)
  | .insert slot handle =>
      -- A handle that is overwritten is dropped, and its task goes on.
      let streams := match w.held slot with
        | some before => w.streams.modify before fun stream => { stream with dropped := true }
        | none => w.streams
      ({ w with held := Function.update w.held slot (some handle), streams }, ())
  | .send message =>
      let (queue, sent) := w.queue.send message
      ({ w with queue }, sent)
  | .sync _ => (w, ())

/-- What was accepted between two states of the queue. -/
def accepted (queue queue' : Outgoing) : List Message :=
  queue'.accepted.drop queue.accepted.length

def advance (w : OutputWorld) (handle : Nat) (label : ChildLabel) : Option OutputWorld :=
  match w.streams[handle]? with
  | none => none
  | some stream =>
      (stream.producer.step w.queue label).map fun (queue, producer) =>
        { w with
          queue
          streams := w.streams.set handle { stream with producer }
          sent := w.sent ++ (accepted w.queue queue).map (⟨handle, ·, stream.dropped⟩) }

end OutputWorld

inductive OutputEnv
  | stream (handle : Nat) (label : ChildLabel)
  | queue (e : QueueEnv)

/-- A stream is aborted by its manager only, and the queue is not its own. -/
def OutputEnv.run (w : OutputWorld) : OutputEnv → Option OutputWorld
  | .stream _ .abort => none
  | .stream _ (.queue _) => none
  | .stream handle label => w.advance handle label
  | .queue e => (e.run w.queue).map fun queue => { w with queue }

def outputHost : Host StreamOp StreamResp ControlMessage OutputWorld Unit OutputEnv where
  init w := w.held = (fun _ => none) ∧ w.streams = [] ∧ w.received = [] ∧ w.sent = []
  exec w _ o _ := some (w.exec o)
  spawn w t message :=
    if t = w.received.length then some { w with received := w.received ++ [message] } else none
  kill w _ := w
  env w e := e.run w

abbrev OutputState := Pool.State StreamOp StreamResp ControlMessage Empty Unit OutputWorld

abbrev OutputLabel := Pool.Label ControlMessage Unit OutputEnv

abbrev outputPool : Machine OutputState OutputLabel := pool handlerCode outputHost

end ShellfleetAgent.Agent.Streams
