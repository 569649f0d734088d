import ShellfleetAgent.Agent.Outgoing
import ShellfleetAgent.Agent.Streams
import ShellfleetAgent.Lib.Machine
import ShellfleetAgent.Lib.Reports

/-!
# The reporters

`run_probe` of `health.rs`, and in `main.rs` the loop that looks for changed
capabilities. Both wake up, observe, and send a report if what they see is not what
they saw before; neither looks at what `send` answers. How long they sleep is left
out: the rounds come when they come.
-/

namespace ShellfleetAgent.Agent.Reporters

open ShellfleetAgent.Lib

/-- A loop with locals `σ` that observes an `ω` each round and compares its `κ`. -/
structure Reporter (σ ω κ : Type) where
  start : σ
  value : ω → κ
  last : σ → Option κ
  report : σ → ω → Message
  /-- The locals after a report was sent, and after none was needed. -/
  reported : σ → ω → σ
  idle : σ → σ
  /-- The value that a report carries. -/
  carried : Message → Option κ
  last_start : last start = none
  last_reported : ∀ l o, last (reported l o) = some (value o)
  last_idle : ∀ l, last (idle l) = last l
  carried_report : ∀ l o, carried (report l o) = some (value o)

/-! ## `run_probe` -/

/-- One run of the probe, and the two readings of the clock around it. -/
structure Sample where
  state : HealthProbeState
  detail : Str
  elapsedMs : Nat
  now : Int

def carriedState : Message → Option HealthProbeState
  | .healthProbeReport [result] => some result.state
  | _ => none

def healthProbeReport (spec : Streams.HealthProbeSpec) (sample : Sample) : Message :=
  .healthProbeReport [{
    id := spec.id
    state := sample.state
    latencyMs := min sample.elapsedMs (UInt32.size - 1)
    detail := sample.detail
    sampledAt := sample.now }]

/-- The local is `last_state`. -/
def runProbe (spec : Streams.HealthProbeSpec) :
    Reporter (Option HealthProbeState) Sample HealthProbeState where
  start := none
  value sample := sample.state
  last lastState := lastState
  report _ sample := healthProbeReport spec sample
  reported _ sample := some sample.state
  idle lastState := lastState
  carried := carriedState
  last_start := rfl
  last_reported _ _ := rfl
  last_idle _ := rfl
  carried_report _ _ := rfl

/-! ## Capabilities -/

inductive SwarmRole
  | manager
  | worker
  | notInSwarm
  deriving DecidableEq

/-- What is found of each subsystem. -/
structure Subsystems where
  execEnabled : Bool
  pathExists : Str → Bool
  /-- `SHELLFLEET_GATE_SOCKET`. -/
  gateSocket : Option Str
  systemdAvailable : Bool
  dockerAvailable : Bool
  swarmRole : SwarmRole
  k8sAvailable : Bool

def defaultGateSocket : Str := "/run/shellfleet/approval-gate.sock".toList

def trustedRoot (x : Subsystems) : Bool :=
  x.pathExists defaultGateSocket || x.gateSocket.any x.pathExists

/-- The features that are advertised; `kube` is the build's feature. -/
def capabilities (kube : Bool) (x : Subsystems) : List Str :=
  let exec := if x.execEnabled then ["exec".toList] else []
  let trusted := if trustedRoot x then ["trusted-root".toList] else []
  let systemd := if x.systemdAvailable then ["systemd".toList] else []
  let docker :=
    if x.dockerAvailable then
      "docker".toList ::
        (match x.swarmRole with
          | .manager | .worker => ["swarm".toList]
          | .notInSwarm => [])
    else []
  let k8s := if kube && x.k8sAvailable then ["k8s".toList] else []
  exec ++ trusted ++ systemd ++ docker ++ k8s

/-- What the agent registers with. -/
structure Registration where
  hostname : Str
  protocolVersion : Nat

/-- How often to look, in seconds. -/
inductive Delay
  | fast
  | slow
  deriving DecidableEq

def Delay.seconds : Delay → Nat
  | .fast => 30
  | .slow => 300

def settleRounds : Nat := 6

/-- The locals of the loop; there is no `current` before the agent has registered. -/
structure CapabilityLoop where
  current : Option (List Str)
  delay : Delay
  idleRounds : Nat

namespace CapabilityLoop

def changed (fresh : List Str) : CapabilityLoop := ⟨some fresh, .fast, 0⟩

def unchanged (l : CapabilityLoop) : CapabilityLoop :=
  let idleRounds := min (l.idleRounds + 1) (UInt32.size - 1)
  { l with
    idleRounds
    delay := if settleRounds ≤ idleRounds then .slow else l.delay }

/-- The first report is the registration. -/
def report (registration : Registration) (l : CapabilityLoop) (fresh : List Str) : Message :=
  match l.current with
  | none => .register registration.hostname registration.protocolVersion fresh []
  | some _ => .capabilitiesUpdate fresh

end CapabilityLoop

def carriedCapabilities : Message → Option (List Str)
  | .register _ _ capabilities _ => some capabilities
  | .capabilitiesUpdate capabilities => some capabilities
  | _ => none

def capabilityLoop (kube : Bool) (registration : Registration) :
    Reporter CapabilityLoop Subsystems (List Str) where
  start := ⟨none, .fast, 0⟩
  value := capabilities kube
  last l := l.current
  report l x := l.report registration (capabilities kube x)
  reported _ x := .changed (capabilities kube x)
  idle := CapabilityLoop.unchanged
  carried := carriedCapabilities
  last_start := rfl
  last_reported _ _ := rfl
  last_idle _ := rfl
  carried_report l x := by
    unfold CapabilityLoop.report
    cases l.current <;> rfl

/-! ## The loop -/

variable {σ ω κ : Type} [DecidableEq κ]

/-- With the queue go all rounds so far, and the reports among its messages. -/
structure ReporterState (σ κ : Type) where
  locals : σ
  queue : Outgoing
  rounds : List (Round κ)
  sent : List Message

inductive ReporterLabel (ω : Type)
  | round (observed : ω)
  | queue (e : QueueEnv)

namespace ReporterState

/-- One iteration of the loop. -/
def round (R : Reporter σ ω κ) (s : ReporterState σ κ) (observed : ω) : ReporterState σ κ :=
  let rounds := s.rounds ++ [⟨R.value observed, s.queue.refusal = none⟩]
  if R.last s.locals = some (R.value observed) then
    { s with locals := R.idle s.locals, rounds }
  else
    { locals := R.reported s.locals observed
      queue := (s.queue.send (R.report s.locals observed)).1
      rounds
      sent :=
        if s.queue.refusal = none then s.sent ++ [R.report s.locals observed] else s.sent }

def step (R : Reporter σ ω κ) (s : ReporterState σ κ) :
    ReporterLabel ω → Option (ReporterState σ κ)
  | .round observed => some (s.round R observed)
  | .queue e => (e.run s.queue).map fun queue => { s with queue }

/-- What the control plane was told last. -/
def lastReport (R : Reporter σ ω κ) (s : ReporterState σ κ) : Option κ :=
  s.sent.getLast?.bind R.carried

end ReporterState

/-- A reporter starts with any queue. -/
def machine (R : Reporter σ ω κ) : Machine (ReporterState σ κ) (ReporterLabel ω) where
  init s := s.locals = R.start ∧ s.rounds = [] ∧ s.sent = []
  step := ReporterState.step R

end ShellfleetAgent.Agent.Reporters
