import ShellfleetAgent.Lib.Bytes
import ShellfleetAgent.Lib.Text

/-!
# The queue to the control plane

`lib.rs`: producers hand their messages to a bounded queue without waiting. The
WebSocket writer takes them out at its own pace, and closes the queue when it stops.

A queue is what it has accepted since it was made, and how many of these the writer
has taken.
-/

namespace ShellfleetAgent.Agent

open ShellfleetAgent.Lib

inductive HealthProbeState
  | green
  | red
  deriving DecidableEq

structure HealthProbeResult where
  id : Str
  state : HealthProbeState
  latencyMs : Nat
  detail : Str
  /-- `at`. -/
  sampledAt : Int
  deriving DecidableEq

/-- The messages of the log streams, the reporters, the terminals and the trusted
relay. -/
inductive Message
  | register (hostname : Str) (protocolVersion : Nat) (capabilities : List Str)
      (metadata : List (Str × Str))
  | capabilitiesUpdate (capabilities : List Str)
  | healthProbeReport (results : List HealthProbeResult)
  | terminalData (sessionId : Str) (data : Bytes)
  | k8sExecResponse (sessionId : Str) (success : Bool) (error : Option Str)
  | dockerExecStartResponse (containerId : Str) (success : Bool) (error : Option Str)
  | dockerLogsChunk (containerId data : Str)
  | dockerLogsEnd (containerId : Str) (error : Option Str)
  | journalLogsChunk (unit data : Str)
  | journalLogsEnd (unit : Str) (error : Option Str)
  | journalStreamChunk (streamId : Str) (lines : List Str)
  | journalStreamEnd (streamId : Str) (error : Option Str)
  | k8sLogsChunk (streamId : Str) (lines : List Str)
  | k8sLogsEnd (streamId : Str) (error : Option Str)
  | trustedOperationHost (requestId : String) (complete : Bool) (payload : Bytes)
  deriving DecidableEq

inductive OutgoingSendError
  | full
  | closed
  deriving DecidableEq

structure Outgoing where
  capacity : Nat
  accepted : List Message
  taken : Nat
  closed : Bool
  deriving DecidableEq

namespace Outgoing

/-- Why a message would not be accepted now. -/
def refusal (q : Outgoing) : Option OutgoingSendError :=
  if q.closed then some .closed
  else if q.capacity ≤ q.accepted.length - q.taken then some .full
  else none

/-- `Outgoing::send`, a `try_send`. -/
def send (q : Outgoing) (message : Message) : Outgoing × Except OutgoingSendError Unit :=
  match q.refusal with
  | some e => (q, .error e)
  | none => ({ q with accepted := q.accepted ++ [message] }, .ok ())

/-- The writer takes a message. -/
def take (q : Outgoing) : Option Outgoing :=
  if q.taken < q.accepted.length then some { q with taken := q.taken + 1 } else none

def close (q : Outgoing) : Outgoing := { q with closed := true }

variable {q q' : Outgoing} {message : Message}

theorem send_refused {e : OutgoingSendError} (h : q.refusal = some e) :
    q.send message = (q, .error e) := by
  rw [send, h]

theorem send_accepted (h : q.refusal = none) :
    q.send message = ({ q with accepted := q.accepted ++ [message] }, .ok ()) := by
  rw [send, h]

/-- More may have been accepted, and closed is for good. -/
structure Grows (q q' : Outgoing) : Prop where
  accepted : q.accepted <+: q'.accepted
  closed : q.closed = true → q'.closed = true

theorem Grows.refl (q : Outgoing) : Grows q q := ⟨List.prefix_rfl, id⟩

theorem grows_send (q : Outgoing) (message : Message) : Grows q (q.send message).1 := by
  cases hq : q.refusal with
  | none =>
      rw [send_accepted hq]
      exact ⟨List.prefix_append _ _, id⟩
  | some e =>
      rw [send_refused hq]
      exact .refl q

/-- A queue that is not full takes the message, unless it is closed. -/
theorem open_of_not_full (h : q.refusal ≠ some .full) : q.closed = true ∨ q.refusal = none := by
  unfold refusal at h ⊢
  cases hc : q.closed with
  | true => exact .inl rfl
  | false =>
      rw [hc] at h
      refine .inr ?_
      by_cases hfull : q.capacity ≤ q.accepted.length - q.taken
      · simp [hfull] at h
      · simp [hfull]

/-- `message` has been accepted, after `before`. -/
def Accepts (q q' : Outgoing) (before : List Message) (message : Message) : Prop :=
  q.accepted <+: before ∧ q'.accepted = before ++ [message]

variable {before : List Message} {message' : Message}

theorem not_accepts (h : q'.accepted = q.accepted) : ¬Accepts q q' before message := by
  intro ⟨hpre, hacc⟩
  have hlen := hpre.length_le
  rw [← h, hacc, List.length_append, List.length_singleton] at hlen
  omega

/-- What a send has accepted is its message, and the queue was open. -/
theorem Accepts.of_send (h : Accepts q (q.send message').1 before message) :
    message' = message ∧ before = q.accepted ∧ q.refusal = none := by
  cases hq : q.refusal with
  | some e =>
      rw [send_refused hq] at h
      exact absurd h (not_accepts rfl)
  | none =>
      rw [send_accepted hq] at h
      obtain ⟨hbefore, hmessage⟩ := List.append_inj' h.2 rfl
      exact ⟨List.singleton_inj.mp hmessage, hbefore.symm, rfl⟩

theorem room_iff (h : q.closed = false) :
    q.refusal = none ↔ q.accepted.length - q.taken < q.capacity := by
  rw [refusal, h, if_neg Bool.false_ne_true]
  by_cases hfull : q.capacity ≤ q.accepted.length - q.taken
  · rw [if_pos hfull]
    exact iff_of_false nofun (by omega)
  · rw [if_neg hfull]
    exact iff_of_true rfl (by omega)

theorem closed_of_refusal (h : q.refusal = none) : q.closed = false := by
  unfold refusal at h
  cases hc : q.closed with
  | false => rfl
  | true => simp [hc] at h

end Outgoing

/-- What the writer of the queue and its other producers do. -/
inductive QueueEnv
  | take
  | close
  | send (message : Message)

def QueueEnv.run (queue : Outgoing) : QueueEnv → Option Outgoing
  | .take => queue.take
  | .close => some queue.close
  | .send message => some (queue.send message).1

theorem QueueEnv.grows {e : QueueEnv} {q q' : Outgoing} (h : e.run q = some q') : q.Grows q' := by
  cases e with
  | take =>
      simp only [QueueEnv.run, Outgoing.take] at h
      split at h
      · cases h
        exact ⟨List.prefix_rfl, id⟩
      · cases h
  | close =>
      cases h
      exact ⟨List.prefix_rfl, fun _ => rfl⟩
  | send message =>
      cases h
      exact Outgoing.grows_send _ _

end ShellfleetAgent.Agent
