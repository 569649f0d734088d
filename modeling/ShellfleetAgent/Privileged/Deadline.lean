import ShellfleetAgent.Privileged.Pty

/-!
# The deadline of a root PTY session

The loop of `run_pty` with its timer. The timer goes off by itself, but the loop
learns of it only in a `select!`, and only if that branch is the one taken. The body
of another branch is at work from the moment its branch is taken until its write
returns: the write of a frame waits for the relay, and the writes to the shell block.
-/

namespace ShellfleetAgent.Privileged

open ShellfleetAgent.Lib

/-- A branch that `select!` may take beside the timer's. -/
inductive Branch
  | output (data : Option Bytes)
  | incoming (n : Nat)
  deriving DecidableEq

/-- What a body does on behalf of the session. -/
inductive Action
  | relayed (output : Bytes)
  | wroteShell (input : Bytes)
  | resized (cols rows : UInt16)
  deriving DecidableEq

/-- The session, whether its timer has gone off, and the branch whose body is at
work. With each action goes whether the timer had gone off before it was over. -/
structure TimedPty where
  pty : PtyState
  fired : Bool
  body : Option Branch
  actions : List (Action × Bool)

inductive TimedLabel
  | fire
  | enter (branch : Branch)
  | leave (io : PtyIo)
  /-- All the rest: the relay's writes, the calls before and after the loop, the
  timer's branch and a read that fails. -/
  | pty (label : PtyLabel)

def Branch.label (io : PtyIo) : Branch → PtyLabel
  | .output data => .output data io
  | .incoming n => .poll n io

variable (x : Externals)

/-- The action in the body for a payload that was read. -/
def frameAction (transport : Transport) (payload : Bytes) : Option Action :=
  match x.decodeClient payload with
  | .ok (.ciphertext counter data) =>
    match (transport.decrypt x.toSuite counter data).2 with
    | .ok plaintext => some (.wroteShell plaintext)
    | .error _ => none
  | .ok (.resize cols rows) => some (.resized cols rows)
  | _ => none

/-- The action in a branch's body, whatever comes of it. -/
def Branch.action (s : PtyState) : Branch → Option Action
  | .output none => none
  | .output (some data) =>
    match sendEncryptedPty x s.transport (.output "pty" data) (.ok ()) with
    | .ok _ => some (.relayed data)
    | .error _ => none
  | .incoming n =>
    match s.incoming.feed x.toCodec (s.stream.take n) with
    | .ready (.ok payload) => frameAction x s.transport payload
    | _ => none

/-- Whether the branch can be taken. -/
def Branch.ready (s : PtyState) : Branch → Prop
  | .output _ => True
  | .incoming n => 0 < n ∧ n ≤ s.stream.length ∧ n ≤ s.incoming.wants

instance (s : PtyState) (branch : Branch) : Decidable (branch.ready s) := by
  cases branch <;> unfold Branch.ready <;> infer_instance

namespace TimedPty

/-- The loop is at its `select!`. -/
def Selecting (s : TimedPty) : Prop := s.pty.stage = .select ∧ s.body = none

instance (s : TimedPty) : Decidable s.Selecting := inferInstanceAs (Decidable (_ ∧ _))

def step (s : TimedPty) : TimedLabel → Option TimedPty
  | .fire => if s.pty.stage = .select then some { s with fired := true } else none
  | .enter branch =>
      if s.Selecting ∧ branch.ready s.pty then some { s with body := some branch } else none
  | .leave io =>
      match s.body with
      | none => none
      | some branch =>
        (s.pty.step x (branch.label io)).map fun pty =>
          { s with
            pty
            body := none
            actions := s.actions ++ ((branch.action x s.pty).map (·, s.fired)).toList }
  | .pty (.write body) => (s.pty.step x (.write body)).map fun pty => { s with pty }
  | .pty (.answer result) => (s.pty.step x (.answer result)).map fun pty => { s with pty }
  | .pty .deadline =>
      if s.Selecting ∧ s.fired then
        (s.pty.step x .deadline).map fun pty => { s with pty }
      else none
  | .pty .readError =>
      if s.Selecting then (s.pty.step x .readError).map fun pty => { s with pty } else none
  | .pty (.output _ _) | .pty (.poll _ _) => none

/-- No action was over only after the deadline. -/
def InTime (s : TimedPty) : Prop := ∀ entry ∈ s.actions, entry.2 = false

end TimedPty

def timedPtyMachine : Machine TimedPty TimedLabel where
  init s := (ptyMachine x).init s.pty ∧ s.fired = false ∧ s.body = none ∧ s.actions = []
  step := TimedPty.step x

end ShellfleetAgent.Privileged
