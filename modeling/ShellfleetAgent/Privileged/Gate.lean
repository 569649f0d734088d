import ShellfleetAgent.Privileged.Approval
import ShellfleetAgent.Privileged.Framing

/-!
# One connection to the gate

`handle` serves one connection: a start frame, a challenge, an approval of that
very challenge, and then the operation.
-/

namespace ShellfleetAgent.Privileged

open ShellfleetAgent.Lib

def maxOutput : Nat := 8 * 1024 * 1024

/-- `str::parse::<u32>`: an optional plus sign and decimal digits. -/
def parseU32 (s : String) : Option UInt32 :=
  let digits := match s.toList with
    | '+' :: rest => rest
    | cs => cs
  if digits.isEmpty || !digits.all Char.isDigit then none
  else
    let n := digits.foldl (fun acc c => acc * 10 + (c.toNat - '0'.toNat)) 0
    if n < 2 ^ 32 then some (UInt32.ofNat n) else none

/-- `str::lines`: a carriage return goes with the line feed after it. -/
def lines (text : List Char) : List (List Char) :=
  let pieces := text.splitOn '\n'
  pieces.dropLast.map (fun l => if l.getLast? = some '\r' then l.dropLast else l) ++
    (pieces.getLast?.filter (!·.isEmpty)).toList

/-- The uid field of a passwd line for the service user. -/
def serviceUid (line : List Char) : Option UInt32 :=
  match line.splitOn ':' with
  | name :: _ :: uid :: _ =>
      if name = "shellfleet".toList then parseU32 (String.ofList uid) else none
  | _ => none

def configuredAgentUid : GateM UInt32 := do
  match ← agentUidVar with
  | some raw =>
      match parseU32 raw with
      | some uid => return uid
      | none => throw "invalid SHELLFLEET_AGENT_UID"
  | none =>
      let passwd ← readPasswd
      match (lines passwd.toList).findSome? serviceUid with
      | some uid => return uid
      | none => throw "shellfleet service user does not exist"

variable (x : Externals)

def sendHost (frame : TrustedHostFrame) : GateM Unit := do
  let encoded ← hoist (x.encodeHost frame)
  writeFrame x.toCodec encoded

def sendError (message : String) : GateM Unit := sendHost x (.error message)

/-- The frame a plaintext travels in, and the transport that goes on from there. -/
def sealPlaintext (transport : Transport) (plaintext : TrustedPlaintext) :
    Except String (Transport × TrustedHostFrame) := do
  let encoded ← x.encodePlaintext plaintext
  let sealed := transport.encrypt x.toSuite encoded
  let (counter, data) ← sealed.2
  return (sealed.1, .ciphertext counter data)

def sendEncrypted (transport : Transport) (plaintext : TrustedPlaintext) : GateM Transport := do
  let (transport, frame) ← hoist (sealPlaintext x transport plaintext)
  sendHost x frame
  return transport

def sendOutput (transport : Transport) (stream : String) (data : Bytes) : GateM Transport :=
  if data.isEmpty then return transport
  else sendEncrypted x transport (.output stream data)

def runCommand (transport : Transport) (program : String) (args : List String)
    (timeoutSecs : UInt32) : GateM Unit := do
  let output ← commandOutput program args timeoutSecs
  let stdout := output.stdout.take maxOutput
  let stderr := output.stderr.take (maxOutput - stdout.length)
  let transport ← sendOutput x transport "stdout" stdout
  let transport ← sendOutput x transport "stderr" stderr
  let _ ← sendEncrypted x transport (.exit (output.code.getD (-1)) "root command complete")
  return ()

/-- The approved operation, once the row is consumed and the keys derived. -/
def runOperation (transport : Transport) : TrustedOperation → GateM Unit
  | .rootCommand program args timeoutSecs => runCommand x transport program args timeoutSecs
  | .rootPty shell ttlSecs cols rows => ptySession shell ttlSecs cols rows

/-- From the approval on. -/
def serveApproval (g : GateState) (challenge : SignedTrustedManifest)
    (signedManifest : SignedTrustedManifest) (approverPublic : Key)
    (approverSignature : Bytes) : GateM Unit := do
  if signedManifest ≠ challenge then
    sendError x "approved manifest differs from broker challenge"
    throw "approved manifest differs from broker challenge"
  else
    let now ← nowUnix
    let manifest ← GateState.approve x g signedManifest approverPublic approverSignature now
    let canonical ← hoist (x.canonicalBytes manifest)
    let transport ← hoist (Transport.broker x.toSuite g.transportSecret
      manifest.clientEphemeralPublic canonical manifest.requestId)
    runOperation x transport manifest.operation
    sendHost x .closed

def handle (g : GateState) : GateM Unit := do
  let uid ← peerUid
  let expected ← configuredAgentUid
  if uid ≠ expected then
    throw s!"approval-gate peer uid {uid} is not agent uid {expected}"
  else
    let first ← readFrame x.toCodec
    let start ← hoist (x.decodeClient first)
    let now ← nowUnix
    let challenge ← GateState.challenge x g start now
    sendHost x (.challenge challenge)
    let approval ← readFrame x.toCodec
    match ← hoist (x.decodeClient approval) with
    | .approve signedManifest approverPublic approverSignature =>
        serveApproval x g challenge signedManifest approverPublic approverSignature
    | _ =>
        sendError x "expected signed approval"
        throw "expected signed approval"

end ShellfleetAgent.Privileged
