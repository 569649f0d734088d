import Mathlib.Logic.Function.Basic
import ShellfleetAgent.Lib.Machine
import ShellfleetAgent.Privileged.Crypto

/-!
# Two ends and the relay between them

The broker's transport and the client's transport exchange frames through a
relay neither of them trusts. The relay may hand either end any counter and any
bytes at any time; that covers dropping, duplicating, reordering, reflecting,
altering and injecting, because nothing ties a delivery to a frame that was
sent.

The one thing the relay cannot do is break the cipher. `sealed` records every
sealing call the two ends ever made, and a delivery that would open without
such a call is a forgery, which is no step.
-/

namespace ShellfleetAgent.Privileged

open ShellfleetAgent.Lib

inductive Side
  | broker
  | client
  deriving DecidableEq

def Side.peer : Side → Side
  | .broker => .client
  | .client => .broker

/-- One sealing call and its result. -/
structure Sealed where
  key : Key
  nonce : Bytes
  aad : Bytes
  plaintext : Bytes
  ciphertext : Bytes
  deriving DecidableEq

structure Link where
  ends : Side → Transport
  /-- What `encrypt` returned at each end, and the plaintexts it was given. -/
  frames : Side → List (UInt64 × Bytes)
  sent : Side → List Bytes
  /-- What `decrypt` returned at each end. -/
  got : Side → List Bytes
  sealed : List Sealed

inductive LinkAct
  | encrypt (side : Side) (plaintext : Bytes)
  | deliver (side : Side) (counter : UInt64) (ciphertext : Bytes)

namespace Link

variable (x : Suite)

/-- The log after one more sealing call at `t`. -/
def logSealed (t : Transport) (p : Bytes) (log : List Sealed) : List Sealed :=
  let nonce := Transport.nonce t.sendCounter
  match x.encrypt t.send nonce (asBytes t.requestId) p with
  | none => log
  | some c => log ++ [⟨t.send, nonce, asBytes t.requestId, p, c⟩]

/-- The bytes open under the receiver's key, and nobody ever sealed them. -/
def Forged (log : List Sealed) (t : Transport) (counter : UInt64) (c : Bytes) : Prop :=
  (x.decrypt t.receive (Transport.nonce counter) (asBytes t.requestId) c).isSome ∧
    ∀ e ∈ log, ¬(e.key = t.receive ∧ e.nonce = Transport.nonce counter ∧
      e.aad = asBytes t.requestId ∧ e.ciphertext = c)

instance (log : List Sealed) (t : Transport) (counter : UInt64) (c : Bytes) :
    Decidable (Forged x log t counter c) := inferInstanceAs (Decidable (_ ∧ _))

def step (s : Link) : LinkAct → Option Link
  | .encrypt side p =>
      let sealed := logSealed x (s.ends side) p s.sealed
      match (s.ends side).encrypt x p with
      | (t, .ok frame) => some
          { s with
            ends := Function.update s.ends side t
            frames := Function.update s.frames side (s.frames side ++ [frame])
            sent := Function.update s.sent side (s.sent side ++ [p])
            sealed }
      | (t, .error _) => some { s with ends := Function.update s.ends side t, sealed }
  | .deliver side counter c =>
      if Forged x s.sealed (s.ends side) counter c then none
      else
        match (s.ends side).decrypt x counter c with
        | (t, .ok p) => some
            { s with
              ends := Function.update s.ends side t
              got := Function.update s.got side (s.got side ++ [p]) }
        | (t, .error _) => some { s with ends := Function.update s.ends side t }

end Link

/-- A fresh pair of ends. -/
def link (x : Suite) (broker client : Transport) : Machine Link LinkAct where
  init s := s =
    { ends := fun | .broker => broker | .client => client
      frames := fun _ => [], sent := fun _ => [], got := fun _ => [], sealed := [] }
  step := Link.step x

end ShellfleetAgent.Privileged
