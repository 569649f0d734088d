import ShellfleetAgent.Privileged.Link
import ShellfleetAgent.Privileged.Pty

/-!
# A root PTY session from end to end

`run_pty` with the client at the far end of its transport, and all there is between them:
the relay, the server and the network, none of which is trusted. What is on the gate's
socket is whatever they put there, in frames or not, and what the client receives is
whatever they hand it. As in `Link`, they cannot break the cipher.
-/

namespace ShellfleetAgent.Privileged

open ShellfleetAgent.Lib

structure RootSession where
  gate : PtyState
  client : Transport
  /-- The sealing calls of both ends. -/
  sealed : List Sealed
  /-- What the client has encrypted, and what the gate has handed to the shell's PTY. -/
  typed : List Bytes
  shell : List Bytes
  /-- What `send_encrypted` was called with, and what the client has decrypted. -/
  printed : List TrustedPlaintext
  shown : List Bytes

inductive RootLabel
  /-- A step of `run_pty`, or a frame on its socket. -/
  | gate (label : PtyLabel)
  /-- Bytes on its socket that need not be a frame. -/
  | inject (bytes : Bytes)
  | typing (plaintext : Bytes)
  | deliver (counter : UInt64) (ciphertext : Bytes)

variable (x : Externals)

namespace PtyState

/-- The frame that `decrypt` is called with in this step. -/
def decrypts (s : PtyState) : PtyLabel → Option (UInt64 × Bytes)
  | .poll n _ =>
      match s.incoming.feed x.toCodec (s.stream.take n) with
      | .ready (.ok payload) =>
          match x.decodeClient payload with
          | .ok (.ciphertext counter data) => some (counter, data)
          | _ => none
      | _ => none
  | _ => none

/-- What `send_encrypted` is called with in this step. -/
def encrypts (s : PtyState) : PtyLabel → Option TrustedPlaintext
  | .output (some data) _ => some (.output "pty" data)
  | .answer _ => if s.stage = .sendExit then some (.exit 0 "root PTY closed") else none
  | _ => none

end PtyState

namespace RootSession

/-- The frame would open, and neither end has sealed it. -/
def forges (s : RootSession) (label : PtyLabel) : Bool :=
  match s.gate.decrypts x label with
  | some (counter, data) => Link.Forged x.toSuite s.sealed s.gate.transport counter data
  | none => false

/-- What is decrypted is written to the PTY, whatever comes of the write. -/
def handed (s : RootSession) (label : PtyLabel) : List Bytes :=
  match s.gate.decrypts x label with
  | some (counter, data) => (s.gate.transport.decrypt x.toSuite counter data).2.toOption.toList
  | none => []

def sealing (s : RootSession) (label : PtyLabel) : List Sealed :=
  match s.gate.encrypts label with
  | some plaintext =>
      match x.encodePlaintext plaintext with
      | .ok encoded => Link.logSealed x.toSuite s.gate.transport encoded s.sealed
      | .error _ => s.sealed
  | none => s.sealed

def step (s : RootSession) : RootLabel → Option RootSession
  | .gate label =>
      if s.forges x label then none
      else (s.gate.step x label).map fun gate =>
        { s with
          gate
          sealed := s.sealing x label
          shell := s.shell ++ s.handed x label
          printed := s.printed ++ (s.gate.encrypts label).toList }
  | .inject bytes => some { s with gate := { s.gate with stream := s.gate.stream ++ bytes } }
  | .typing plaintext =>
      let sealed := Link.logSealed x.toSuite s.client plaintext s.sealed
      match s.client.encrypt x.toSuite plaintext with
      | (client, .ok _) => some { s with client, sealed, typed := s.typed ++ [plaintext] }
      | (client, .error _) => some { s with client, sealed }
  | .deliver counter ciphertext =>
      if Link.Forged x.toSuite s.sealed s.client counter ciphertext then none
      else
        match s.client.decrypt x.toSuite counter ciphertext with
        | (client, .ok plaintext) => some { s with client, shown := s.shown ++ [plaintext] }
        | (client, .error _) => some { s with client }

end RootSession

/-- `run_pty` is called with the broker's end of a session whose other end the client has. -/
def rootSession (broker client : Transport) : Machine RootSession RootLabel where
  init s := (ptyMachine x).init s.gate ∧ s.gate.transport = broker ∧ s.client = client ∧
    s.sealed = [] ∧ s.typed = [] ∧ s.shell = [] ∧ s.printed = [] ∧ s.shown = []
  step := RootSession.step x

end ShellfleetAgent.Privileged
