import ShellfleetAgent.Agent.Streams
import ShellfleetAgent.Lib.Machine

/-!
# The producers of log lines

`run_stream` of `logs.rs`, `journal.rs`, `journal_stream.rs` and `k8s_logs.rs`, with
the tasks each of them spawns. A child writes to its two pipes and exits when it
likes; each pipe has a reader, which hands its lines to the queue or, in
`journal_stream.rs`, to a batcher. A task runs from one `await` to the next in one
step, and two sends in a row are two steps: the queue may change between them.

The tasks that `run_stream` has spawned are joined at its end. When it is aborted
before, they go on without it.
-/

namespace ShellfleetAgent.Agent.LogSources

open ShellfleetAgent.Lib
open Streams

/-! ## Pipes and their readers -/

/-- What a source writes next: a line, or something that cannot be read as one. -/
inductive Item
  | line (text : Str)
  | unreadable (error : Str)
  deriving DecidableEq

structure Pipe where
  produced : List Item
  read : Nat
  closed : Bool
  deriving DecidableEq

namespace Pipe

/-- What is to be read now, when there is something: an item, or the end. -/
def next (pipe : Pipe) : Option (Option Item) :=
  match pipe.produced[pipe.read]? with
  | some item => some (some item)
  | none => if pipe.closed then some none else none

def advance (pipe : Pipe) : Pipe := { pipe with read := pipe.read + 1 }

def write (pipe : Pipe) (item : Item) : Option Pipe :=
  if pipe.closed then none else some { pipe with produced := pipe.produced ++ [item] }

def close (pipe : Pipe) : Pipe := { pipe with closed := true }

end Pipe

inductive TaskStatus
  | unspawned
  | running
  | ended
  deriving DecidableEq

/-- A pipe and the task that reads it. -/
structure Reader where
  pipe : Pipe
  status : TaskStatus
  deriving DecidableEq

namespace Reader

/-- `reader.next_line().await`, with the line when there is one; else the loop ends. -/
def nextLine (reader : Reader) : Option (Reader × Option Str) :=
  if reader.status = .running then
    match reader.pipe.next with
    | some (some (.line text)) => some ({ reader with pipe := reader.pipe.advance }, some text)
    | some (some (.unreadable _)) => some (⟨reader.pipe.advance, .ended⟩, none)
    | some none => some ({ reader with status := .ended }, none)
    | none => none
  else none

/-- The loop is left where a line was refused. -/
def stop (reader : Reader) : Reader := { reader with status := .ended }

end Reader

inductive Side
  | stdout
  | stderr
  deriving DecidableEq

structure Readers where
  stdout : Reader
  stderr : Reader
  deriving DecidableEq

namespace Readers

def get (readers : Readers) : Side → Reader
  | .stdout => readers.stdout
  | .stderr => readers.stderr

def set (readers : Readers) (side : Side) (reader : Reader) : Readers :=
  match side with
  | .stdout => { readers with stdout := reader }
  | .stderr => { readers with stderr := reader }

def spawn (readers : Readers) : Readers :=
  ⟨{ readers.stdout with status := .running }, { readers.stderr with status := .running }⟩

/-- Both readers have let go of what they send to. -/
def ended (readers : Readers) : Bool :=
  readers.stdout.status = .ended && readers.stderr.status = .ended

/-- The child writes to a pipe. -/
def write (readers : Readers) (side : Side) (item : Item) : Option Readers := do
  let pipe ← (readers.get side).pipe.write item
  return readers.set side { readers.get side with pipe }

/-- Nothing has a pipe open for writing any more. -/
def close (readers : Readers) (side : Side) : Readers :=
  readers.set side { readers.get side with pipe := (readers.get side).pipe.close }

end Readers

/-! ## The child and the queue -/

inductive ExitStatus
  | exited (code : Option Int)
  | waitFailed (e : Str)
  deriving DecidableEq

/-- `{:?}` of an exit code. -/
def debugCode : Option Int → Str
  | some code => "Some(".toList ++ (toString code).toList ++ ")".toList
  | none => "None".toList

/-- The error of the end message. -/
def ExitStatus.error (name : Str) : ExitStatus → Option Str
  | .exited code =>
      if code = some 0 then none else some (name ++ " exited with ".toList ++ debugCode code)
  | .waitFailed e => some (name ++ " wait failed: ".toList ++ e)

/-- Where `run_stream` itself is. -/
inductive Runner
  | starting
  | waiting
  | joinStdout (status : ExitStatus)
  | joinStderr (status : ExitStatus)
  | joinBatch (status : ExitStatus)
  | returned
  deriving DecidableEq

inductive ChildLabel
  | spawn (result : Except Str Unit)
  | write (side : Side) (item : Item)
  | close (side : Side)
  | read (side : Side)
  | recv
  | tick
  | exit (status : ExitStatus)
  | proceed
  | abort
  | queue (e : QueueEnv)

/-! ## Readers that send line by line -/

/-- The messages of a stream, and the names in its errors. -/
structure Unbatched where
  chunk : Str → Message
  finished : Option Str → Message
  command : Str
  name : Str

structure UnbatchedState where
  queue : Outgoing
  readers : Readers
  runner : Runner
  deriving DecidableEq

namespace Unbatched

def step (stream : Unbatched) (s : UnbatchedState) : ChildLabel → Option UnbatchedState
  | .spawn result =>
      match s.runner, result with
      | .starting, .ok () => some { s with readers := s.readers.spawn, runner := .waiting }
      | .starting, .error e =>
          let error := stream.command ++ " spawn: ".toList ++ e
          some { s with queue := (s.queue.send (stream.finished (some error))).1,
                        runner := .returned }
      | _, _ => none
  | .write side item => (s.readers.write side item).map fun readers => { s with readers }
  | .close side => some { s with readers := s.readers.close side }
  | .read side =>
      match (s.readers.get side).nextLine with
      | some (reader, some text) =>
          match s.queue.send (stream.chunk text) with
          | (queue, .ok ()) => some { s with queue, readers := s.readers.set side reader }
          | (_, .error _) => some { s with readers := s.readers.set side reader.stop }
      | some (reader, none) => some { s with readers := s.readers.set side reader }
      | none => none
  | .exit status =>
      if s.runner = .waiting then some { s with runner := .joinStdout status } else none
  | .proceed =>
      match s.runner with
      | .joinStdout status =>
          if s.readers.stdout.status = .ended then some { s with runner := .joinStderr status }
          else none
      | .joinStderr status =>
          if s.readers.stderr.status = .ended then
            let message := stream.finished (status.error stream.name)
            some { s with queue := (s.queue.send message).1, runner := .returned }
          else none
      | _ => none
  | .abort => if s.runner = .returned then none else some { s with runner := .returned }
  | .queue e => (e.run s.queue).map fun queue => { s with queue }
  | .recv => none
  | .tick => none

end Unbatched

def idlePipe : Pipe := ⟨[], 0, false⟩

def idleReaders : Readers := ⟨⟨idlePipe, .unspawned⟩, ⟨idlePipe, .unspawned⟩⟩

def Unbatched.machine (stream : Unbatched) : Machine UnbatchedState ChildLabel where
  init s := s.readers = idleReaders ∧ s.runner = .starting
  step := stream.step

namespace Logs

def runStream (containerId : Str) : Unbatched where
  chunk := .dockerLogsChunk containerId
  finished := .dockerLogsEnd containerId
  command := "docker".toList
  name := "docker logs".toList

end Logs

namespace Journal

def runStream (unit : Str) : Unbatched where
  chunk := .journalLogsChunk unit
  finished := .journalLogsEnd unit
  command := "journalctl".toList
  name := "journalctl".toList

end Journal

/-! ## Batches -/

def maxLinesPerChunk : Nat := 100

/-- A line goes into the buffer, which is drained when it is full. -/
def push (buf : List Str) (line : Str) : List Str × Option (List Str) :=
  let buf := buf ++ [line]
  if maxLinesPerChunk ≤ buf.length then ([], some buf) else (buf, none)

/-- What is drained at a tick, or at the end. -/
def flush (buf : List Str) : Option (List Str) := if buf = [] then none else some buf

/-- The batcher, with its buffer. -/
inductive Batcher
  | unspawned
  | batching (buf : List Str)
  | returned
  deriving DecidableEq

/-- The batcher goes on with an empty buffer where its chunk was accepted, and is done
where it was refused. -/
def Batcher.after (sent : Except OutgoingSendError Unit) : Batcher :=
  match sent with
  | .ok () => .batching []
  | .error _ => .returned

namespace JournalStream

def allowedPriorities : List Str :=
  ["emerg", "alert", "crit", "err", "warning", "notice", "info", "debug"].map String.toList

def isSafeToken (s : Str) : Bool :=
  if s = [] ∨ s.head? = some '-' ∨ 256 < Text.utf8Len s then false
  else s.all fun c => c.isAlphanum || c ∈ ['.', '_', '-', '@', ':', '\\']

def isSafeSince (s : Str) : Bool :=
  if s = [] ∨ s.head? = some '-' ∨ 64 < Text.utf8Len s then false
  else s.all fun c => c.isAlphanum || c ∈ [' ', ':', '+', ',', '.', '-']

/-- An option and its value, if the value is there and passes. -/
def optionArg (option : String) (ok : Str → Bool) (error : Str → Str) :
    Option Str → Except Str (List Str)
  | none => .ok []
  | some value => if ok value then .ok [option.toList, value] else .error (error value)

def buildArgv (args : StreamArgs) : Except Str (List Str) := do
  let argv := ["--no-pager".toList, "--output=short-iso".toList]
  let follow := if args.follow then ["--follow".toList] else []
  let lines := "--lines=".toList ++ Text.decimal (min args.lines 10000)
  let units ← args.units.mapM fun unit =>
    optionArg "-u" isSafeToken ("invalid unit name: ".toList ++ ·) (some unit)
  let priority ← optionArg "-p" allowedPriorities.contains
    ("invalid priority: ".toList ++ ·) args.priority
  let identifier ← optionArg "-t" isSafeToken ("invalid identifier: ".toList ++ ·) args.identifier
  let since ← optionArg "--since" isSafeSince ("invalid since value: ".toList ++ ·) args.since
  let grep ← optionArg "-g" (fun g => !(g = [] || 256 < Text.utf8Len g || g.head? = some '-'))
    (fun _ => "invalid grep pattern".toList) args.grep
  return argv ++ follow ++ [lines] ++ units.flatten ++ priority ++ identifier ++ since ++ grep

/-- `lines` is what is in the channel between the readers and the batcher. -/
structure State where
  queue : Outgoing
  readers : Readers
  lines : List Str
  batcher : Batcher
  runner : Runner
  deriving DecidableEq

def command : Str := "journalctl".toList

def step (args : StreamArgs) (s : State) : ChildLabel → Option State
  | .spawn result =>
      let finish (error : Str) :=
        { s with queue := (s.queue.send (.journalStreamEnd args.streamId (some error))).1,
                 runner := .returned }
      match s.runner, buildArgv args, result with
      | .starting, .error e, _ => some (finish e)
      | .starting, .ok _, .error e => some (finish (command ++ " spawn: ".toList ++ e))
      | .starting, .ok _, .ok () =>
          some { s with readers := s.readers.spawn, batcher := .batching [], runner := .waiting }
      | _, _, _ => none
  | .write side item => (s.readers.write side item).map fun readers => { s with readers }
  | .close side => some { s with readers := s.readers.close side }
  | .read side =>
      match (s.readers.get side).nextLine with
      | some (reader, some text) =>
          -- The receiver is dropped when the batcher returns.
          if s.batcher = .returned then
            some { s with readers := s.readers.set side reader.stop }
          else
            some { s with readers := s.readers.set side reader, lines := s.lines ++ [text] }
      | some (reader, none) => some { s with readers := s.readers.set side reader }
      | none => none
  | .recv =>
      match s.batcher, s.lines with
      | .batching buf, line :: lines =>
          match push buf line with
          | (_, some drained) =>
              let (queue, sent) := s.queue.send (.journalStreamChunk args.streamId drained)
              some { s with queue, lines, batcher := .after sent }
          | (buf, none) => some { s with lines, batcher := .batching buf }
      | .batching buf, [] =>
          if s.readers.ended then
            match flush buf with
            | some drained =>
                let (queue, _) := s.queue.send (.journalStreamChunk args.streamId drained)
                some { s with queue, batcher := .returned }
            | none => some { s with batcher := .returned }
          else none
      | _, _ => none
  | .tick =>
      match s.batcher with
      | .batching buf =>
          match flush buf with
          | some drained =>
              let (queue, sent) := s.queue.send (.journalStreamChunk args.streamId drained)
              some { s with queue, batcher := .after sent }
          | none => some s
      | _ => none
  | .exit status =>
      if s.runner = .waiting then some { s with runner := .joinStdout status } else none
  | .proceed =>
      match s.runner with
      | .joinStdout status =>
          if s.readers.stdout.status = .ended then some { s with runner := .joinStderr status }
          else none
      | .joinStderr status =>
          if s.readers.stderr.status = .ended then some { s with runner := .joinBatch status }
          else none
      | .joinBatch status =>
          if s.batcher = .returned then
            let message := .journalStreamEnd args.streamId (status.error command)
            some { s with queue := (s.queue.send message).1, runner := .returned }
          else none
      | _ => none
  | .abort => if s.runner = .returned then none else some { s with runner := .returned }
  | .queue e => (e.run s.queue).map fun queue => { s with queue }

def machine (args : StreamArgs) : Machine State ChildLabel where
  init s := s.readers = idleReaders ∧ s.lines = [] ∧ s.batcher = .unspawned ∧ s.runner = .starting
  step := step args

end JournalStream

/-! ## Pods -/

namespace K8sLogs

/-- Where the one task is. Between the flush at the end of the stream and the end
message the queue may change. -/
inductive Pump
  | connecting
  | opening
  | streaming (buf : List Str)
  | finishing (error : Option Str)
  | returned
  deriving DecidableEq

structure State where
  queue : Outgoing
  source : Pipe
  pump : Pump
  deriving DecidableEq

inductive Label
  | connect (result : Except Str Unit)
  | opened (result : Except Str Unit)
  | write (item : Item)
  | close
  | next
  | tick
  | finish
  | abort
  | queue (e : QueueEnv)

/-- A chunk that is refused ends the task. -/
def Pump.after (sent : Except OutgoingSendError Unit) : Pump :=
  match sent with
  | .ok () => .streaming []
  | .error _ => .returned

/-- The last chunk, accepted or not. -/
def lastChunk (streamId : Str) (queue : Outgoing) (buf : List Str) : Outgoing :=
  match flush buf with
  | some drained => (queue.send (.k8sLogsChunk streamId drained)).1
  | none => queue

def step (streamId : Str) (s : State) : Label → Option State
  | .connect result =>
      match s.pump, result with
      | .connecting, .ok () => some { s with pump := .opening }
      | .connecting, .error e =>
          let message := .k8sLogsEnd streamId (some ("kube client: ".toList ++ e))
          some { s with queue := (s.queue.send message).1, pump := .returned }
      | _, _ => none
  | .opened result =>
      match s.pump, result with
      | .opening, .ok () => some { s with pump := .streaming [] }
      | .opening, .error e =>
          let message := .k8sLogsEnd streamId (some ("log_stream: ".toList ++ e))
          some { s with queue := (s.queue.send message).1, pump := .returned }
      | _, _ => none
  | .write item => (s.source.write item).map fun source => { s with source }
  | .close => some { s with source := s.source.close }
  | .next =>
      match s.pump, s.source.next with
      | .streaming buf, some (some (.line text)) =>
          let source := s.source.advance
          match push buf text with
          | (_, some drained) =>
              let (queue, sent) := s.queue.send (.k8sLogsChunk streamId drained)
              some { queue, source, pump := .after sent }
          | (buf, none) => some { s with source, pump := .streaming buf }
      | .streaming buf, some (some (.unreadable e)) =>
          some { queue := lastChunk streamId s.queue buf, source := s.source.advance,
                 pump := .finishing (some ("stream: ".toList ++ e)) }
      | .streaming buf, some none =>
          some { s with queue := lastChunk streamId s.queue buf, pump := .finishing none }
      | _, _ => none
  | .tick =>
      match s.pump with
      | .streaming buf =>
          match flush buf with
          | some drained =>
              let (queue, sent) := s.queue.send (.k8sLogsChunk streamId drained)
              some { s with queue, pump := .after sent }
          | none => some s
      | _ => none
  | .finish =>
      match s.pump with
      | .finishing error =>
          some { s with queue := (s.queue.send (.k8sLogsEnd streamId error)).1, pump := .returned }
      | _ => none
  | .abort =>
      match s.pump with
      | .finishing _ | .returned => none
      | _ => some { s with pump := .returned }
  | .queue e => (e.run s.queue).map fun queue => { s with queue }

def machine (streamId : Str) : Machine State Label where
  init s := s.source = idlePipe ∧ s.pump = .connecting
  step := step streamId

end K8sLogs

end ShellfleetAgent.Agent.LogSources
