import ShellfleetAgent.Agent.StreamOutput

/-!
# The streams of pod logs

`K8sLogStreams` of `k8s_logs.rs`, with the arms of `main.rs` for its messages. The main
loop awaits `start` and `stop` itself, where the other managers' handlers are spawned: so
there is one call at a time, and its statements are steps between which the streams go on.
Each stream is a `run_stream` of `LogSources`, and all of them send to one queue. An abort
asks the runtime to drop the task, which it does between two polls: a task that is being
polled at that moment goes on until it waits.
-/

namespace ShellfleetAgent.Agent.K8sLogStreams

open ShellfleetAgent.Lib
open LogSources
open Streams.OutputWorld (accepted)

/-- A spawned `run_stream`. -/
structure PodStream where
  streamId : Str
  source : LogSources.Pipe
  pump : K8sLogs.Pump
  aborted : Bool

/-- The task by itself, with the queue as it is now. -/
def PodStream.state (stream : PodStream) (queue : Outgoing) : K8sLogs.State :=
  ⟨queue, stream.source, stream.pump⟩

/-- `JoinHandle::abort`. -/
def PodStream.abort (stream : PodStream) : PodStream := { stream with aborted := true }

/-- Where the main loop is in `start`. -/
inductive MainAt
  | idle
  | spawning (streamId : Str)
  | inserting (streamId : Str) (handle : Nat)
  deriving DecidableEq

/-- The manager's map is `held`; with the queue goes which stream has sent what. -/
structure PodLogs where
  main : MainAt
  held : Str → Option Nat
  streams : List PodStream
  queue : Outgoing
  sent : List (Nat × Message)

namespace PodLogs

/-- `K8sLogStreams::stop`. -/
def stop (s : PodLogs) (streamId : Str) : PodLogs :=
  match s.held streamId with
  | some handle =>
    { s with
        held := Function.update s.held streamId none
        streams := s.streams.modify handle PodStream.abort }
  | none => s

/-- A step of one of the streams, or of what it reads from. -/
def advance (s : PodLogs) (handle : Nat) (label : K8sLogs.Label) : Option PodLogs := do
  let stream ← s.streams[handle]?
  let r ← K8sLogs.step stream.streamId (stream.state s.queue) label
  return { s with
    streams := s.streams.set handle { stream with source := r.source, pump := r.pump }
    queue := r.queue
    sent := s.sent ++ (accepted s.queue r.queue).map (handle, ·) }

/-- The runtime drops a task that was aborted. -/
def drop (s : PodLogs) (handle : Nat) : Option PodLogs := do
  let stream ← s.streams[handle]?
  if stream.aborted then s.advance handle .abort else none

inductive Label
  | request (streamId : Str)
  | spawn
  | insert
  | stopRequest (streamId : Str)
  | stream (handle : Nat) (label : K8sLogs.Label)
  | drop (handle : Nat)
  | queue (e : QueueEnv)

/-- A stream is dropped by the runtime only, and the queue is not its own. -/
def step (s : PodLogs) : Label → Option PodLogs
  | .request streamId =>
      match s.main with
      | .idle => some { s.stop streamId with main := .spawning streamId }
      | _ => none
  | .spawn =>
      match s.main with
      | .spawning streamId =>
        some { s with
          main := .inserting streamId s.streams.length
          streams := s.streams ++ [⟨streamId, idlePipe, .connecting, false⟩] }
      | _ => none
  | .insert =>
      match s.main with
      | .inserting streamId handle =>
        some { s with main := .idle, held := Function.update s.held streamId (some handle) }
      | _ => none
  | .stopRequest streamId =>
      match s.main with
      | .idle => some (s.stop streamId)
      | _ => none
  | .stream _ .abort => none
  | .stream _ (.queue _) => none
  | .stream handle label => s.advance handle label
  | .drop handle => s.drop handle
  | .queue e => (e.run s.queue).map fun queue => { s with queue }

end PodLogs

def podLogs : Machine PodLogs PodLogs.Label where
  init s := s.main = .idle ∧ s.held = (fun _ => none) ∧ s.streams = [] ∧ s.sent = []
  step := PodLogs.step

end ShellfleetAgent.Agent.K8sLogStreams
