import ShellfleetAgent.Privileged.GateWorld
import ShellfleetAgent.Privileged.Pty

/-!
# The gate's sessions with their transports in view

To `gateCode` a transport is a value the connection keeps to itself, and a root
PTY is one operation. Here the same connections run with every derivation of a
transport and every sealing as an operation of its own, and with the PTY they
have entered in the world, where it takes its steps until `run_pty` returns.

`derived` and `sealed` are there for the record only: what the transports of
the run were derived from, and every ciphertext `Transport::encrypt` has
returned, with the key and the counter it was made under.
-/

namespace ShellfleetAgent.Privileged

open ShellfleetAgent.Lib

inductive SessionOp
  | gate (o : GateOp)
  | broker (secret clientPublic : Key) (manifest : Bytes) (requestId : String)
  | encrypt (transport : Transport) (plaintext : TrustedPlaintext)
  /-- `run_pty` is called with this transport. -/
  | openPty (transport : Transport)

abbrev SessionResp : SessionOp → Type
  | .gate o => GateResp o
  | .broker .. => Except String Transport
  | .encrypt .. => Except String (Transport × TrustedHostFrame)
  | .openPty _ => Unit

abbrev SessionM := ExceptT String (Prog SessionOp SessionResp)

abbrev SessionEvent := Event SessionOp SessionResp
abbrev SessionHistory := History SessionOp SessionResp
abbrev SessionTrace := Trace SessionOp SessionResp GateCall

/-! ## The connections -/

namespace Session

def ask (o : SessionOp) : Prog SessionOp SessionResp (SessionResp o) := .perform o

/-- Gate code as it is. -/
def gate {α : Type} (m : GateM α) : SessionM α := ExceptT.mk (m.run.via fun o => ask (.gate o))

def broker (secret clientPublic : Key) (manifest : Bytes) (requestId : String) :
    SessionM Transport := ExceptT.mk (ask (.broker secret clientPublic manifest requestId))
def sealPlaintext (transport : Transport) (plaintext : TrustedPlaintext) :
    SessionM (Transport × TrustedHostFrame) := ExceptT.mk (ask (.encrypt transport plaintext))
def openPty (transport : Transport) : SessionM Unit := ExceptT.lift (ask (.openPty transport))

variable (x : Externals)

def sendEncrypted (transport : Transport) (plaintext : TrustedPlaintext) :
    SessionM Transport := do
  let (transport, frame) ← sealPlaintext transport plaintext
  gate (sendHost x frame)
  return transport

def sendOutput (transport : Transport) (stream : String) (data : Bytes) : SessionM Transport :=
  if data.isEmpty then return transport
  else sendEncrypted x transport (.output stream data)

def runCommand (transport : Transport) (program : String) (args : List String)
    (timeoutSecs : UInt32) : SessionM Unit := do
  let output ← gate (commandOutput program args timeoutSecs)
  let stdout := output.stdout.take maxOutput
  let stderr := output.stderr.take (maxOutput - stdout.length)
  let transport ← sendOutput x transport "stdout" stdout
  let transport ← sendOutput x transport "stderr" stderr
  let _ ← sendEncrypted x transport (.exit (output.code.getD (-1)) "root command complete")
  return ()

def runOperation (transport : Transport) : TrustedOperation → SessionM Unit
  | .rootCommand program args timeoutSecs => runCommand x transport program args timeoutSecs
  | .rootPty shell ttlSecs cols rows => do
      openPty transport
      gate (ptySession shell ttlSecs cols rows)

def serveApproval (g : GateState) (challenge : SignedTrustedManifest)
    (signedManifest : SignedTrustedManifest) (approverPublic : Key)
    (approverSignature : Bytes) : SessionM Unit := do
  if signedManifest ≠ challenge then
    gate (do
      sendError x "approved manifest differs from broker challenge"
      throw "approved manifest differs from broker challenge")
  else
    let now ← gate nowUnix
    let manifest ← gate (GateState.approve x g signedManifest approverPublic approverSignature now)
    let canonical ← gate (hoist (x.canonicalBytes manifest))
    let transport ← broker g.transportSecret manifest.clientEphemeralPublic canonical
      manifest.requestId
    runOperation x transport manifest.operation
    gate (sendHost x .closed)

def handle (g : GateState) : SessionM Unit := do
  let uid ← gate peerUid
  let expected ← gate configuredAgentUid
  if uid ≠ expected then
    throw s!"approval-gate peer uid {uid} is not agent uid {expected}"
  else
    let first ← gate (readFrame x.toCodec)
    let start ← gate (hoist (x.decodeClient first))
    let now ← gate nowUnix
    let challenge ← gate (GateState.challenge x g start now)
    gate (sendHost x (.challenge challenge))
    let approval ← gate (readFrame x.toCodec)
    match ← gate (hoist (x.decodeClient approval)) with
    | .approve signedManifest approverPublic approverSignature =>
        serveApproval x g challenge signedManifest approverPublic approverSignature
    | _ =>
        gate (do
          sendError x "expected signed approval"
          throw "expected signed approval")

/-- The operations that are only in view here, carried out where they stand. -/
def inPlace : (o : SessionOp) → Prog GateOp GateResp (SessionResp o)
  | .gate o => .perform o
  | .broker secret clientPublic manifest requestId =>
      .ret (Transport.broker x.toSuite secret clientPublic manifest requestId)
  | .encrypt transport plaintext => .ret (Privileged.sealPlaintext x transport plaintext)
  | .openPty _ => .ret ()

end Session

def sessionCode (x : Externals) : Code SessionOp SessionResp GateCall Empty GateResult where
  start
    | .connection g => (Session.handle x g).run.bind fun r => .ret (.inr (.handled r))
    | .challenge g start now =>
        (Session.gate (g.challenge x start now)).run.bind fun r => .ret (.inr (.challenged r))
    | .approve g signed approverPublic approverSignature now =>
        (Session.gate (g.approve x signed approverPublic approverSignature now)).run.bind fun r =>
          .ret (.inr (.approved r))
  again := nofun

/-! ## The world -/

/-- A transport, and what it was derived from. -/
structure Derivation where
  thread : Nat
  shared : Key
  manifest : Bytes
  transport : Transport

/-- A ciphertext that `encrypt` returned, and what it was made under. -/
structure Sealing where
  thread : Nat
  key : Key
  counter : UInt64
  data : Bytes
  deriving DecidableEq

/-- The nonce of the sealing. -/
def Sealing.nonce (e : Sealing) : Bytes := Transport.nonce e.counter

structure SessionWorld extends GateWorld where
  ptys : Nat → Option PtyState
  derived : List Derivation
  sealed : List Sealing

inductive SessionEnv
  | gate (e : GateEnv)
  /-- A step of the PTY that this thread has entered. -/
  | pty (t : Nat) (l : PtyLabel)

variable (x : Externals)

/-- What `encrypt` returns to `sealPlaintext`, if it returns a ciphertext. -/
def sealings (t : Nat) (transport : Transport) (plaintext : TrustedPlaintext) : List Sealing :=
  match x.encodePlaintext plaintext with
  | .error _ => []
  | .ok encoded =>
    match (transport.encrypt x.toSuite encoded).2 with
    | .error _ => []
    | .ok (counter, data) => [{ thread := t, key := transport.send, counter, data }]

namespace PtyState

/-- `run_pty` at its start. -/
def enter (transport : Transport) : PtyState where
  stage := .openpty
  transport
  stream := []
  incoming := .fresh
  written := []
  yielded := []
  calls := []

/-- What `encrypt` returns to `run_pty` in this step. -/
def sealings (t : Nat) (s : PtyState) : PtyLabel → List Sealing
  | .output (some data) _ => Privileged.sealings x t s.transport (.output "pty" data)
  | .answer _ =>
      if s.stage = .sendExit then
        Privileged.sealings x t s.transport (.exit 0 "root PTY closed")
      else []
  | _ => []

/-- What `run_pty` has returned. -/
def result (s : PtyState) : Option (Except String Unit) :=
  match s.stage with
  | .returned r => some r
  | _ => none

end PtyState

namespace SessionWorld

def derive (w : SessionWorld) (t : Nat) (secret clientPublic : Key) (manifest : Bytes) :
    Except String Transport → SessionWorld
  | .ok transport =>
      let shared := x.diffieHellman secret clientPublic
      { w with derived := w.derived ++ [{ thread := t, shared, manifest, transport }] }
  | .error _ => w

def exec (w : SessionWorld) (t : Nat) :
    (o : SessionOp) → GateChoice → Option (SessionWorld × SessionResp o)
  | .gate (.ptySession ..), _ =>
      ((w.ptys t).bind PtyState.result).map fun r =>
        ({ w with ptys := Function.update w.ptys t none }, r)
  | .gate o, ch =>
      (w.toGateWorld.exec t o ch).map fun (g, r) => ({ w with toGateWorld := g }, r)
  | .broker secret clientPublic manifest requestId, .ok =>
      let made := Transport.broker x.toSuite secret clientPublic manifest requestId
      some (w.derive x t secret clientPublic manifest made, made)
  | .encrypt transport plaintext, .ok =>
      some ({ w with sealed := w.sealed ++ sealings x t transport plaintext },
        sealPlaintext x transport plaintext)
  | .openPty transport, .ok =>
      some ({ w with ptys := Function.update w.ptys t (some (PtyState.enter transport)) }, ())
  | _, _ => none

/-- A thread that is killed takes its PTY with it. -/
def kill (w : SessionWorld) (t : Nat) : SessionWorld :=
  { w with toGateWorld := w.toGateWorld.discard t, ptys := Function.update w.ptys t none }

def env (w : SessionWorld) : SessionEnv → Option SessionWorld
  | .gate (.setApprovers file) => some { w with approvers := file }
  | .gate (.setClock now) => some { w with clock := now }
  | .pty t l =>
      (w.ptys t).bind fun s => (s.step x l).map fun s' =>
        { w with
          ptys := Function.update w.ptys t (some s')
          sealed := w.sealed ++ s.sealings x t l }

end SessionWorld

/-- As in `gateHost`, any rows may be there; the record starts empty. -/
def sessionHost : Host SessionOp SessionResp GateCall SessionWorld GateChoice SessionEnv where
  init w := w.pending = none ∧ (∀ t, w.ptys t = none) ∧ w.derived = [] ∧ w.sealed = []
  exec := SessionWorld.exec x
  spawn w _ _ := some w
  kill := SessionWorld.kill
  env := SessionWorld.env x

abbrev SessionPoolState := Pool.State SessionOp SessionResp GateCall Empty GateResult SessionWorld

abbrev sessionPool :
    Machine SessionPoolState (Pool.Label GateCall GateChoice SessionEnv) :=
  pool (sessionCode x) (sessionHost x)

end ShellfleetAgent.Privileged
