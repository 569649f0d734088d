import ShellfleetAgent.Agent.Relay
import ShellfleetAgent.Privileged.Gate

/-!
# The output of a root command on its way

What a finished command has written goes through four limits before the client has
it: the gate cuts it at `MAX_COMMAND_OUTPUT`, `write_frame` and `read_frame` refuse
what is longer than `MAX_TRUSTED_FRAME_BYTES`, and the relay's text messages are held
to `MAX_WS_MESSAGE_BYTES`. In between it is encoded three times, and at last it is handed
to a queue that others fill as well.
-/

namespace ShellfleetAgent.Privileged

open ShellfleetAgent.Lib ShellfleetAgent.Agent

def maxWsMessageBytes : Nat := 2 * 1048576

/-- The other side of the codec, and `serde_json::to_string` for messages. -/
structure Wire extends Externals where
  decodeHost : Bytes → Except String TrustedHostFrame
  encodeMessage : Message → Except String Bytes

def Wire.relay (x : Wire) : Relay.RelayCodec := { x.toCodec with decodeHost := x.decodeHost }

/-! ## The gate's side -/

/-- The command finishes with `output`, and nothing is wrong with the socket. -/
def obliging (output : Output) : (o : GateOp) → GateResp o
  | .commandOutput .. => .ok output
  | .peerUid => .ok 0
  | .agentUidVar => none
  | .readPasswd => .ok ""
  | .readExact n => .ok (List.replicate n 0)
  | .writeAll _ => .ok ()
  | .flush => .ok ()
  | .now => 0
  | .fillNonce => Vector.replicate 32 0
  | .policyVersionVar => none
  | .readApprovers _ => .ok ""
  | .openDb => .ok ()
  | .insertPending .. => .ok ()
  | .begin => .ok ()
  | .selectRequest _ => .ok none
  | .updateConsumed .. => .ok 0
  | .commit => .ok ()
  | .rollback => ()
  | .ptySession .. => .ok ()

variable (x : Wire)

/-- From the approved command on, `serveApproval` to its end. -/
def serveCommand (transport : Transport) (program : String) (args : List String)
    (timeoutSecs : UInt32) : GateM Unit := do
  runOperation x.toExternals transport (.rootCommand program args timeoutSecs)
  sendHost x.toExternals .closed

/-- The bytes that a run has written to the socket. -/
def written (h : GateHistory) : Bytes :=
  h.flatMap fun event =>
    match event.op with
    | .writeAll bytes => bytes
    | _ => []

/-! ## The relay's side -/

/-- What the reading task makes of a frame. -/
def relayMessage (requestId : String) (payload : Bytes) : Message :=
  .trustedOperationHost requestId (Relay.State.completes x.relay payload) payload

/-- The messages for the frames that it reads: it stops after the first complete one. -/
def relayed (requestId : String) : List Bytes → List Message
  | [] => []
  | payload :: rest =>
    relayMessage x requestId payload ::
      if Relay.State.completes x.relay payload then [] else relayed requestId rest

/-- The reading task with what it still has to hand over, and what the queue has made of
the rest. -/
structure Handing where
  queue : Outgoing
  waiting : List Message
  accepted : List Message
  refused : List Message

inductive HandLabel
  | hand
  | queue (e : QueueEnv)

/-- `outgoing.send`, whose result nobody looks at. -/
def Handing.hand (s : Handing) (message : Message) (waiting : List Message) : Handing :=
  if s.queue.refusal = none then
    { queue := (s.queue.send message).1, waiting := waiting,
      accepted := s.accepted ++ [message], refused := s.refused }
  else { s with waiting := waiting, refused := s.refused ++ [message] }

def Handing.step (s : Handing) : HandLabel → Option Handing
  | .hand =>
    match s.waiting with
    | [] => none
    | message :: waiting => some (s.hand message waiting)
  | .queue e => (e.run s.queue).map fun queue => { s with queue }

/-- It reads the frames that the gate has written, on whatever queue. -/
def handing (requestId : String) (bytes : Bytes) : Machine Handing HandLabel where
  init s := ∃ payloads, bytes = payloads.flatMap frameBytes ∧
    (∀ payload ∈ payloads, Framable x.toCodec payload) ∧
    s.waiting = relayed x requestId payloads ∧ s.accepted = [] ∧ s.refused = []
  step := Handing.step

/-- The queue has room whenever something is handed to it. -/
def Room (s : Handing) : HandLabel → Prop
  | .hand => s.queue.refusal = none
  | .queue _ => True

instance (s : Handing) (l : HandLabel) : Decidable (Room s l) := by
  cases l <;> unfold Room <;> infer_instance

/-! ## What has to go through -/

/-- What `run_command` has to say about a finished command. -/
def pieces (output : Output) : List TrustedPlaintext :=
  let stdout := output.stdout.take maxOutput
  let stderr := output.stderr.take (maxOutput - stdout.length)
  (if stdout.isEmpty then [] else [.output "stdout" stdout]) ++
    (if stderr.isEmpty then [] else [.output "stderr" stderr]) ++
    [TrustedPlaintext.exit (output.code.getD (-1)) "root command complete"]

/-- The frames for them, one after the other under the transport's counter. -/
def sealAll (x : Externals) : Transport → List TrustedPlaintext →
    Except String (List TrustedHostFrame)
  | _, [] => .ok []
  | transport, piece :: rest => do
    let (transport, frame) ← sealPlaintext x transport piece
    let frames ← sealAll x transport rest
    return frame :: frames

/-- The approved command, run by the gate. -/
def gateRun (transport : Transport) (program : String) (args : List String)
    (timeoutSecs : UInt32) (output : Output) : GateHistory × Except String Unit :=
  (serveCommand x transport program args timeoutSecs).run.answered (obliging output)

/-- The command's whole output, its exit and the end have gone from the gate into the queue
as they were sealed, in text messages that are not too long. -/
def Delivered (transport : Transport) (program : String) (args : List String)
    (timeoutSecs : UInt32) (requestId : String) (output : Output) (s : Handing) : Prop :=
  let run := gateRun x transport program args timeoutSecs output
  run.2 = .ok () ∧
  ∃ payloads frames, written run.1 = payloads.flatMap frameBytes ∧
    (∀ payload ∈ payloads, Framable x.toCodec payload) ∧
    sealAll x.toExternals transport (pieces output) = .ok frames ∧
    List.Forall₂ (fun frame payload => x.encodeHost frame = .ok payload)
      (frames ++ [TrustedHostFrame.closed]) payloads ∧
    s.accepted = payloads.map (relayMessage x requestId) ∧
    ∀ message ∈ s.accepted, ∃ text,
      x.encodeMessage message = .ok text ∧ text.length ≤ maxWsMessageBytes

/-! ## Sizes

How long an encoding is, or may be, by the length of what it encodes. -/

structure Sizes where
  output : Nat → Nat
  exit : Int → Nat
  cipher : Nat → Nat
  frame : Nat → Nat
  closed : Nat
  message : Nat → Nat
  cipher_mono : Monotone cipher
  frame_mono : Monotone frame
  message_mono : Monotone message

namespace Sizes

variable (e : Sizes)

def plaintext : TrustedPlaintext → Nat
  | .output _ data => e.output data.length
  | .exit code _ => e.exit code

/-- The frames of a command that has written `stdout` and `stderr` bytes. -/
def payloads (stdout stderr : Nat) (code : Int) : List Nat :=
  let stdout := min maxOutput stdout
  let stderr := min (maxOutput - stdout) stderr
  ((if stdout = 0 then [] else [e.output stdout]) ++
    (if stderr = 0 then [] else [e.output stderr]) ++ [e.exit code]).map
    (e.frame ∘ e.cipher) ++
    [e.closed]

/-- They are within both limits. -/
def Fit (maxTrustedFrameBytes : Nat) (output : Output) : Prop :=
  ∀ size ∈ e.payloads output.stdout.length output.stderr.length (output.code.getD (-1)),
    size ≤ maxTrustedFrameBytes ∧ e.message size ≤ maxWsMessageBytes

/-- No encoding is shorter than what it encodes. -/
def same : Sizes where
  output n := n
  exit _ := 0
  cipher n := n
  frame n := n
  closed := 0
  message n := n
  cipher_mono _ _ h := h
  frame_mono _ _ h := h
  message_mono _ _ h := h

end Sizes

/-- What `run_command` may say of a command. -/
def Said : TrustedPlaintext → Prop
  | .output stream _ => stream = "stdout" ∨ stream = "stderr"
  | .exit _ message => message = "root command complete"

/-- Everything can be encoded, to something and to no more than so many bytes. -/
structure Wire.AtMost (e : Sizes) (requestId : String) : Prop where
  plaintext : ∀ piece, Said piece → ∃ encoded, x.encodePlaintext piece = .ok encoded ∧
    encoded.length ≤ e.plaintext piece
  cipher : ∀ key nonce aad plaintext, ∃ data, x.encrypt key nonce aad plaintext = some data ∧
    data.length ≤ e.cipher plaintext.length
  frame : ∀ counter data, ∃ payload, x.encodeHost (.ciphertext counter data) = .ok payload ∧
    payload ≠ [] ∧ payload.length ≤ e.frame data.length
  closed : ∃ payload, x.encodeHost .closed = .ok payload ∧ payload ≠ [] ∧
    payload.length ≤ e.closed
  message : ∀ complete payload, ∃ text,
    x.encodeMessage (.trustedOperationHost requestId complete payload) = .ok text ∧
      text.length ≤ e.message payload.length

/-- What can be encoded takes at least so many bytes. -/
structure Wire.AtLeast (e : Sizes) (requestId : String) : Prop where
  plaintext : ∀ piece encoded, Said piece → x.encodePlaintext piece = .ok encoded →
    e.plaintext piece ≤ encoded.length
  cipher : ∀ key nonce aad plaintext data, x.encrypt key nonce aad plaintext = some data →
    e.cipher plaintext.length ≤ data.length
  frame : ∀ counter data payload, x.encodeHost (.ciphertext counter data) = .ok payload →
    e.frame data.length ≤ payload.length
  closed : ∀ payload, x.encodeHost .closed = .ok payload → e.closed ≤ payload.length
  message : ∀ complete payload text,
    x.encodeMessage (.trustedOperationHost requestId complete payload) = .ok text →
      e.message payload.length ≤ text.length

/-- The counter has as many values left as there are pieces. -/
def CounterLeft (transport : Transport) (output : Output) : Prop :=
  transport.sendCounter.toNat + (pieces output).length < 2 ^ 64

end ShellfleetAgent.Privileged
