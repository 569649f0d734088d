import ShellfleetAgent.Agent.Backup
import ShellfleetAgent.Agent.LogSources
import ShellfleetAgent.Lib.Machine
import ShellfleetAgent.Lib.Pipe

/-!
# A restore and its `tar`

The end of `restore` for an archive in a bucket: the body of the object is pumped into
the stdin of a `tar` that runs beside it. Between the two are three pipes. `tar` is any
process: it reads, writes to its two streams and exits as it likes, but a write returns
only when all of it is in the pipe.
-/

namespace ShellfleetAgent.Agent.Backup.Restoring

open ShellfleetAgent.Lib
open LogSources (Side)

/-- Where `restore` is: in the loop, where it waits for the body or for `tar`'s stdin, or
after it. -/
inductive Pump
  | pulling
  | writing (chunk rest : Bytes)
  | closing (pipeErr : Option BackupError)
  | killing (e : BackupError)
  | waiting
  | returned (report : Option RestoreReport)

inductive Tar
  | running
  | writing (stream : Side) (rest : Bytes)
  | exited (code : Option Int)
  deriving DecidableEq

/-- `object` is the body as it was at the start. -/
structure State where
  object : List (Except Str Bytes)
  body : List (Except Str Bytes)
  totalBytes : Nat
  pump : Pump
  piped : List Bytes
  stdin : Pipe
  streams : Side → Pipe
  tar : Tar
  collected : Side → Bytes

/-- `restore` once `tar` is spawned. -/
def spawned (body : List (Except Str Bytes)) (stdin : Nat) (streams : Side → Nat) : State where
  object := body
  body := body
  totalBytes := 0
  pump := .pulling
  piped := []
  stdin := .empty stdin
  streams := fun stream => .empty (streams stream)
  tar := .running
  collected := fun _ => []

inductive Label
  | next
  | put (n : Nat)
  | written
  | writeFails (e : Str)
  | shutdown
  | kill
  | drain (stream : Side) (n : Nat)
  | waitFails (e : Str)
  | report
  | tarReads (n : Nat)
  | tarWrites (stream : Side) (data : Bytes)
  | tarPuts (n : Nat)
  | tarResumes
  | tarExits (code : Option Int)
  deriving DecidableEq

variable (maxBytes : Nat) (uri dest : Str)

namespace State

/-- `body.try_next`, and what is made of the item. -/
def next (s : State) : State :=
  match s.body with
  | [] => { s with pump := .closing none }
  | .error e :: body => { s with body, pump := .closing (some (.s3Body e)) }
  | .ok chunk :: body =>
      let totalBytes := min (s.totalBytes + chunk.length) (UInt64.size - 1)
      let s := { s with body, totalBytes }
      if totalBytes > maxBytes then { s with pump := .closing (some (.bodyTooLong maxBytes)) }
      else { s with pump := .writing chunk chunk }

/-- What `wait_with_output` returns, once `tar` has exited and its streams are read. -/
def output (s : State) (code : Option Int) : Output :=
  ⟨code, s.collected .stdout, s.collected .stderr⟩

/-- The streams of `tar` are read only from `wait_with_output` on. The kernel moves as many
bytes of a write as there is room for. -/
def step (s : State) : Label → Option State
  | .next =>
      match s.pump with
      | .pulling => some (s.next maxBytes)
      | _ => none
  | .put n =>
      match s.pump with
      | .writing chunk rest =>
          if 0 < n ∧ n ≤ rest.length then
            (s.stdin.put (rest.take n)).map fun stdin =>
              { s with stdin, pump := .writing chunk (rest.drop n) }
          else none
      | _ => none
  | .written =>
      match s.pump with
      | .writing chunk [] => some { s with piped := s.piped ++ [chunk], pump := .pulling }
      | _ => none
  | .writeFails e =>
      match s.pump with
      | .writing _ _ => some { s with pump := .closing (some (.tarStdin e)) }
      | _ => none
  | .shutdown =>
      match s.pump with
      | .closing (some e) => some { s with pump := .killing e }
      | .closing none => some { s with pump := .waiting }
      | _ => none
  | .kill =>
      match s.pump with
      | .killing e =>
          some { s with tar := .exited none, pump := .returned (restoreFailed [] e) }
      | _ => none
  | .drain stream n =>
      match s.pump with
      | .waiting =>
          let collected := s.collected stream ++ (s.streams stream).content.take n
          some { s with
            streams := Function.update s.streams stream ((s.streams stream).drop n)
            collected := Function.update s.collected stream collected }
      | _ => none
  | .waitFails e =>
      match s.pump with
      | .waiting => some { s with pump := .returned (restoreFailed [] (.tarWait e)) }
      | _ => none
  | .report =>
      match s.pump, s.tar with
      | .waiting, .exited code =>
          if (s.streams .stdout).content = [] ∧ (s.streams .stderr).content = [] then
            some { s with
              pump := .returned (reportRestored uri dest [] (s.output code)) }
          else none
      | _, _ => none
  | .tarReads n =>
      match s.tar with
      | .running => some { s with stdin := s.stdin.drop n }
      | _ => none
  | .tarWrites stream data =>
      match s.tar with
      | .running => some { s with tar := .writing stream data }
      | _ => none
  | .tarPuts n =>
      match s.tar with
      | .writing stream rest =>
          if 0 < n ∧ n ≤ rest.length then
            ((s.streams stream).put (rest.take n)).map fun pipe =>
              { s with
                streams := Function.update s.streams stream pipe
                tar := .writing stream (rest.drop n) }
          else none
      | _ => none
  | .tarResumes =>
      match s.tar with
      | .writing _ [] => some { s with tar := .running }
      | _ => none
  | .tarExits code =>
      match s.tar with
      | .exited _ => none
      | _ => some { s with tar := .exited code }

/-- `write_all` waits for room in `tar`'s stdin. -/
def PumpBlocked (s : State) : Prop :=
  match s.pump with
  | .writing _ rest => rest ≠ [] ∧ s.stdin.room = 0
  | _ => False

/-- `tar` waits for room in one of its streams. -/
def TarBlocked (s : State) : Prop :=
  match s.tar with
  | .writing stream rest => rest ≠ [] ∧ (s.streams stream).room = 0
  | _ => False

end State

/-- The restores of every object, over pipes of every capacity. -/
def restoring : Machine State Label where
  init s := ∃ body stdin streams, 0 < stdin ∧ (∀ stream, 0 < streams stream) ∧
    s = spawned body stdin streams
  step := State.step maxBytes uri dest

end ShellfleetAgent.Agent.Backup.Restoring
