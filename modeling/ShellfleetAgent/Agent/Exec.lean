import ShellfleetAgent.Agent.LogSources
import ShellfleetAgent.Lib.Bytes

/-!
# One-shot commands

`exec.rs`: a command that is on the allow-list runs under `sh -c`. A task for each of its
streams reads it to the end, out of one budget of bytes for both; where that runs out the
command is killed. What the tasks have sent by the time they are joined, or aborted, is
the output.
-/

namespace ShellfleetAgent.Agent.Exec

open ShellfleetAgent.Lib LogSources

/-- `MAX_OUTPUT_BYTES`, of the shared crate. -/
def maxOutputBytes : Nat := 1048576

structure ExecResult where
  exitCode : Int
  stdout : Str
  stderr : Str
  error : Option Str
  truncated : Bool
  timedOut : Bool
  durationMs : Nat
  deriving DecidableEq

def execAllowlistEnv : Str := "SHELLFLEET_EXEC_ALLOW_JSON".toList

/-- `fromStr` is `serde_json::from_str`. -/
def parseCommandAllowlist (fromStr : Str → Except Str (List Str)) (raw : Option Str) :
    Except Str (List Str) :=
  match raw.filter (Text.trim · ≠ []) with
  | none => .error (execAllowlistEnv ++ " is not configured".toList)
  | some raw =>
    match fromStr raw with
    | .error e => .error (execAllowlistEnv ++ " must be a JSON array of strings: ".toList ++ e)
    | .ok entries =>
      let entries := (entries.map Text.trim).filter (· ≠ [])
      if entries = [] then
        .error (execAllowlistEnv ++ " must contain at least one command".toList)
      else .ok entries

def commandAllowed (command : Str) (allowlist : List Str) : Bool :=
  let command := Text.trim command
  command ≠ [] && allowlist.any (command == ·)

def blockedResult (error : Str) : ExecResult := ⟨-1, [], [], some error, false, false, 0⟩

/-- The program that `run` spawns, with its arguments, if it comes so far. -/
def spawns (fromStr : Str → Except Str (List Str)) (raw : Option Str) (command : Str) :
    Option (List Str) :=
  match parseCommandAllowlist fromStr raw with
  | .error _ => none
  | .ok allowlist =>
    if commandAllowed command allowlist then some ["/bin/sh".toList, "-c".toList, command]
    else none

/-! ## The readers -/

inductive ReaderTask
  | reading
  | returned (result : Except Str Unit)
  | joined (result : Except Str Unit)
  | aborted
  deriving DecidableEq

/-- A stream, with what is in the pipe, and what its reader has sent. -/
structure Reader where
  pipe : Bytes
  closed : Bool
  sent : List Bytes
  task : ReaderTask
  deriving DecidableEq

/-- What `concatenate` makes of the chunks, before they are decoded. -/
def concatenated (chunks : List Bytes) : Bytes :=
  go [] chunks
where
  go (buf : Bytes) : List Bytes → Bytes
    | [] => buf
    | chunk :: chunks =>
      if maxOutputBytes < buf.length + chunk.length then
        buf ++ chunk.take (maxOutputBytes - buf.length)
      else go (buf ++ chunk) chunks

def concatenate (chunks : List Bytes) : Str := Text.fromUtf8Lossy (concatenated chunks)

/-! ## A run -/

/-- Where `run` is: it waits for the first of three events, for the command it has
killed, or for the readers. -/
inductive Phase
  | waiting
  | reaping
  | joining
  | finished (result : ExecResult)
  deriving DecidableEq

structure State where
  budget : Nat
  limited : Bool
  readers : Side → Reader
  exitCode : Int
  timedOut : Bool
  phase : Phase

def spawned : State where
  budget := maxOutputBytes
  limited := false
  readers := fun _ => ⟨[], false, [], .reading⟩
  exitCode := -1
  timedOut := false
  phase := .waiting

/-- What `run` does up to the spawn, where it gives up or goes on. `raw` is the value of the
variable. -/
def start (fromStr : Str → Except Str (List Str)) (raw : Option Str) (command : Str)
    (spawn : Except Str Unit) (ms : Nat) : ExecResult ⊕ State :=
  match parseCommandAllowlist fromStr raw with
  | .error error => .inl (blockedResult error)
  | .ok allowlist =>
    if commandAllowed command allowlist then
      match spawn with
      | .error e => .inl ⟨-1, [], [], some ("spawn failed: ".toList ++ e), false, false, ms⟩
      | .ok () => .inr spawned
    else .inl (blockedResult "command blocked by agent execution allow-list".toList)

inductive Label
  | write (side : Side) (data : Bytes)
  | close (side : Side)
  | read (side : Side) (n : Nat)
  | readEnd (side : Side)
  | readError (side : Side) (e : Str)
  | exited (code : Option Int)
  | deadline
  | limit
  | reaped
  | join (side : Side)
  | finish (ms : Nat)

namespace State

def setReader (s : State) (side : Side) (reader : Reader) : State :=
  { s with readers := Function.update s.readers side reader }

/-- A read of `n` bytes, of which `reserved` are within the budget. -/
def read (s : State) (side : Side) (n : Nat) : State :=
  let reader := s.readers side
  let buf := reader.pipe.take n
  let reserved := min n s.budget
  let pipe := reader.pipe.drop n
  let s := { s with budget := s.budget - reserved }
  if reserved < n then
    { s.setReader side { reader with
        pipe, sent := reader.sent ++ [buf.take reserved], task := .returned (.ok ()) } with
      limited := true }
  else s.setReader side { reader with pipe, sent := reader.sent ++ [buf] }

def readerError (s : State) (side : Side) : Option Str :=
  match (s.readers side).task with
  | .joined (.error e) => some ("reader: ".toList ++ e)
  | _ => none

def joined (s : State) (side : Side) : Bool :=
  match (s.readers side).task with
  | .joined _ => true
  | _ => false

def abortReader (reader : Reader) : Reader :=
  match reader.task with
  | .joined _ => reader
  | _ => { reader with task := .aborted }

/-- Both readers are joined, or the time for it is over and the others are aborted. -/
def result (s : State) (ms : Nat) : ExecResult :=
  let stdoutErr := s.readerError .stdout
  let stderrErr := s.readerError .stderr
  let readersAborted := !s.joined .stdout || !s.joined .stderr
  { exitCode := s.exitCode
    stdout := concatenate (s.readers .stdout).sent
    stderr := concatenate (s.readers .stderr).sent
    error := match stdoutErr, stderrErr with
      | some e₁, some e₂ => some ("stdout: ".toList ++ e₁ ++ ", stderr: ".toList ++ e₂)
      | some e, none => some e
      | none, some e => some e
      | none, none => none
    truncated := s.limited || readersAborted || (stdoutErr.isSome || stderrErr.isSome)
    timedOut := s.timedOut
    durationMs := ms }

/-- A read gets 8192 bytes at most, and nothing where the pipe is closed. A command that
was not waited for in the first place has no exit code. -/
def step (s : State) : Label → Option State
  | .write side data =>
      let reader := s.readers side
      if reader.closed then none
      else some (s.setReader side { reader with pipe := reader.pipe ++ data })
  | .close side => some (s.setReader side { s.readers side with closed := true })
  | .read side n =>
      if (s.readers side).task = .reading ∧ 0 < n ∧ n ≤ min 8192 (s.readers side).pipe.length
      then some (s.read side n)
      else none
  | .readEnd side =>
      if (s.readers side).task = .reading ∧ (s.readers side).closed ∧ (s.readers side).pipe = []
      then some (s.setReader side { s.readers side with task := .returned (.ok ()) })
      else none
  | .readError side e =>
      if (s.readers side).task = .reading then
        some (s.setReader side { s.readers side with task := .returned (.error e) })
      else none
  | .exited code =>
      if s.phase = .waiting then
        some { s with exitCode := code.getD (-1), phase := .joining }
      else none
  | .deadline =>
      if s.phase = .waiting then some { s with timedOut := true, phase := .reaping } else none
  | .limit =>
      if s.phase = .waiting ∧ s.limited then some { s with phase := .reaping } else none
  | .reaped => if s.phase = .reaping then some { s with phase := .joining } else none
  | .join side =>
      match s.phase, (s.readers side).task with
      | .joining, .returned result =>
          some (s.setReader side { s.readers side with task := .joined result })
      | _, _ => none
  | .finish ms =>
      if s.phase = .joining then
        some { s with readers := fun side => abortReader (s.readers side)
                      phase := .finished (s.result ms) }
      else none

end State

/-- The runs of the commands that were spawned. -/
def exec : Machine State Label where
  init s := ∃ fromStr raw command spawn ms, start fromStr raw command spawn ms = .inr s
  step := State.step

end ShellfleetAgent.Agent.Exec
