import ShellfleetAgent.Agent.Exec

/-!
# The readers of a command, racing

`read_to_limit` step by step: between a read and the send of what it got, a reader loads
the budget and exchanges it for what is left, over and over until no one was faster. The
runs of `exec` have all of that as one step.
-/

namespace ShellfleetAgent.Agent.Exec.ReadToLimit

open ShellfleetAgent.Lib LogSources

/-- Where a reader is in its loops. -/
inductive Place
  | reading
  | loading (buf : Bytes)
  | exchanging (buf : Bytes) (cur : Nat)
  | reserved (buf : Bytes) (reserved : Nat)
  | limiting
  | signalling
  | returned (result : Except Str Unit)
  deriving DecidableEq

/-- A reader, with its pipe and with all that the command has written to it. -/
structure Reader where
  stream : Bytes
  pipe : Bytes
  closed : Bool
  sent : List Bytes
  place : Place
  deriving DecidableEq

/-- What a reader has sent, in all. -/
def Reader.kept (reader : Reader) : Bytes := reader.sent.flatten

structure State where
  budget : Nat
  limited : Bool
  signal : Bool
  readers : Side → Reader

/-- Both readers as they are spawned. -/
def spawned : State where
  budget := maxOutputBytes
  limited := false
  signal := false
  readers := fun _ => ⟨[], [], false, [], .reading⟩

inductive Label
  | write (side : Side) (data : Bytes)
  | close (side : Side)
  | read (side : Side) (n : Nat)
  | readEnd (side : Side)
  | readError (side : Side) (e : Str)
  | load (side : Side)
  | exchange (side : Side)
  | exchangeFails (side : Side)
  | send (side : Side)
  | store (side : Side)
  | trySend (side : Side)

namespace State

def setReader (s : State) (side : Side) (reader : Reader) : State :=
  { s with readers := Function.update s.readers side reader }

/-- Puts a reader elsewhere. -/
def goTo (s : State) (side : Side) (place : Place) : State :=
  s.setReader side { s.readers side with place }

/-- `budget.load` of a reader that has read `buf`: there is an exchange to make only
where there is something to take. -/
def load (s : State) (side : Side) (buf : Bytes) : State :=
  if min buf.length s.budget = 0 then s.goTo side (.reserved buf 0)
  else s.goTo side (.exchanging buf s.budget)

/-- `budget.compare_exchange_weak` where it succeeds. -/
def exchange (s : State) (side : Side) (buf : Bytes) (cur : Nat) : State :=
  { s.goTo side (.reserved buf (min buf.length cur)) with
    budget := cur - min buf.length cur }

/-- `tx.send` of the bytes that are reserved: all that was read, or the last ones. -/
def send (s : State) (side : Side) (buf : Bytes) (reserved : Nat) : State :=
  s.setReader side { s.readers side with
    sent := (s.readers side).sent ++ [buf.take reserved]
    place := if reserved < buf.length then .limiting else .reading }

/-- An exchange may fail at any time, and succeeds only where the budget is still the one
that was loaded. -/
def step (s : State) : Label → Option State
  | .write side data =>
      let reader := s.readers side
      if reader.closed then none
      else some (s.setReader side { reader with
        stream := reader.stream ++ data, pipe := reader.pipe ++ data })
  | .close side => some (s.setReader side { s.readers side with closed := true })
  | .read side n =>
      let reader := s.readers side
      if reader.place = .reading ∧ 0 < n ∧ n ≤ min 8192 reader.pipe.length then
        some (s.setReader side { reader with
          pipe := reader.pipe.drop n, place := .loading (reader.pipe.take n) })
      else none
  | .readEnd side =>
      let reader := s.readers side
      if reader.place = .reading ∧ reader.closed ∧ reader.pipe = [] then
        some (s.goTo side (.returned (.ok ())))
      else none
  | .readError side e =>
      if (s.readers side).place = .reading then some (s.goTo side (.returned (.error e)))
      else none
  | .load side =>
      match (s.readers side).place with
      | .loading buf => some (s.load side buf)
      | _ => none
  | .exchange side =>
      match (s.readers side).place with
      | .exchanging buf cur =>
          if s.budget = cur then some (s.exchange side buf cur) else none
      | _ => none
  | .exchangeFails side =>
      match (s.readers side).place with
      | .exchanging buf _ => some (s.goTo side (.loading buf))
      | _ => none
  | .send side =>
      match (s.readers side).place with
      | .reserved buf reserved => some (s.send side buf reserved)
      | _ => none
  | .store side =>
      match (s.readers side).place with
      | .limiting => some { s.goTo side .signalling with limited := true }
      | _ => none
  | .trySend side =>
      match (s.readers side).place with
      | .signalling => some { s.goTo side (.returned (.ok ())) with signal := true }
      | _ => none

end State

/-- The two tasks of `run`, in any interleaving, and a command that writes what it likes. -/
def readToLimit : Machine State Label where
  init s := s = spawned
  step := State.step

end ShellfleetAgent.Agent.Exec.ReadToLimit
