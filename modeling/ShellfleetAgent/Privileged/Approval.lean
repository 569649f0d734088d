import ShellfleetAgent.Privileged.Effects
import ShellfleetAgent.Privileged.Policy

/-!
# Challenges and approvals

`challenge` records a request as pending and signs its manifest; `approve`
checks a returned manifest, the approver's signature and the recorded row, and
consumes the row. Both are written statement by statement as the source has
them, database calls included, so that any two of them can be interleaved
between statements.
-/

namespace ShellfleetAgent.Privileged

open ShellfleetAgent.Lib

/-- What the gate takes from third-party crates besides the transport's
primitives: Ed25519, base64, and JSON string maps. -/
structure Externals extends Codec, Suite where
  /-- `SigningKey::verifying_key().to_bytes()`. -/
  verifyingKey : Key → Key
  sign : Key → Bytes → Bytes
  /-- `Signature::from_slice` and `VerifyingKey::from_bytes` succeed. -/
  wellFormedSignature : Bytes → Bool
  wellFormedKey : Key → Bool
  verify : Key → Bytes → Bytes → Bool
  decodeBase64 : String → Option Bytes
  parseStringMap : String → Option (List (String × String))

structure GateState where
  hostSigning : Key
  transportSecret : Key
  hostId : String
  approversPath : String

namespace GateState

def isIdChar (c : Char) : Bool := c.isAlphanum || c == '.' || c == '_' || c == '-'

def validateRequestId (id : String) : Except String Unit :=
  if (8 ≤ id.utf8ByteSize ∧ id.utf8ByteSize ≤ 128) ∧ id.toList.all isIdChar then .ok ()
  else .error "invalid trusted request id"

/-- `i64::clamp(60, 3600)`. -/
def clampTtl (ttl : Int) : Int := max 60 (min ttl 3600)

def requestedTtl : TrustedOperation → Int
  | .rootCommand _ _ timeoutSecs => timeoutSecs.toNat + 60
  | .rootPty _ ttlSecs _ _ => ttlSecs.toNat

/-- `try_into::<[u8; 32]>`. -/
def toKey (bytes : Bytes) : Option Key :=
  if h : bytes.toArray.size = 32 then some ⟨bytes.toArray, h⟩ else none

variable (x : Externals)

def decodeApprover (entry : String × String) : Except String (String × Key) :=
  match x.decodeBase64 entry.2 with
  | none => .error "invalid approver key encoding"
  | some decoded =>
    match toKey decoded with
    | none => .error "approver public keys must be 32 bytes"
    | some key => .ok (entry.1, key)

/-- The keyring a file's text stands for. -/
def parseApprovers (raw : String) : Except String (List (String × Key)) :=
  match x.parseStringMap raw with
  | none => .error "invalid approver keyring JSON"
  | some encoded =>
    if encoded.isEmpty then .error "approver keyring is empty"
    else encoded.mapM (decodeApprover x)

def loadApprovers (path : String) : GateM (List (String × Key)) := do
  let raw ← mapErr (fun error => s!"read approver keyring {path}: {error}") (readApprovers path)
  hoist (parseApprovers x raw)

def challenge (g : GateState) (start : TrustedClientFrame) (now : Int) :
    GateM SignedTrustedManifest :=
  match start with
  | .start requestId operation clientEphemeralPublic => do
      hoist (validateRequestId requestId)
      let _ ← hoist (classify operation)
      let nonce ← fillNonce
      let policy ← policyVersion
      let manifest : TrustedManifest :=
        { version := x.trustedProtocolVersion
          requestId
          hostId := g.hostId
          operation
          clientEphemeralPublic
          brokerTransportPublic := x.publicKey g.transportSecret
          nonce
          createdAt := now
          expiresAt := now + clampTtl (requestedTtl operation)
          policyVersion := policy }
      let canonical ← hoist (x.canonicalBytes manifest)
      let signature := x.sign g.hostSigning canonical
      openDb
      mapErr (fun _ => "request id already exists or approval database failed")
        (insertPending requestId canonical manifest.expiresAt)
      return { manifest, hostIdentityPublic := x.verifyingKey g.hostSigning, signature }
  | _ => throw "first trusted frame must be Start"

/-- A transaction that is dropped before it has committed is rolled back. -/
def inTransaction {α : Type} (body : GateM α) : GateM α := do
  begin
  match ← always body.run with
  | .ok a => return a
  | .error e => do
      rollback
      throw e

/-- The part of `approve` that runs inside its transaction. -/
def consume (canonical : Bytes) (requestId : String) (now : Int) : GateM Unit := do
  match ← selectRequest requestId with
  | none => throw "trusted request is unknown"
  | some (storedManifest, status, expiresAt) =>
      if storedManifest ≠ canonical ∨ status ≠ "pending" ∨ expiresAt < now then
        throw "trusted approval was altered, expired, or already consumed"
      else
        let changed ← updateConsumed requestId now
        if changed ≠ 1 then throw "trusted approval was already consumed"
        else commit

/-- `approve`'s checks on the manifest and on both signatures, which touch the
keyring file but not the database. -/
def checkApproval (g : GateState) (signed : SignedTrustedManifest) (approverPublic : Key)
    (approverSignature : Bytes) (now : Int) : GateM Bytes := do
  let policy ← policyVersion
  if signed.manifest.version ≠ x.trustedProtocolVersion ∨
      signed.manifest.hostId ≠ g.hostId ∨
      signed.hostIdentityPublic ≠ x.verifyingKey g.hostSigning ∨
      signed.manifest.expiresAt < now ∨
      signed.manifest.policyVersion ≠ policy then
    throw "trusted manifest is stale or belongs to another host/policy"
  else
    let _ ← hoist (classify signed.manifest.operation)
    let canonical ← hoist (x.canonicalBytes signed.manifest)
    if !x.wellFormedSignature signed.signature ||
        !x.verify (x.verifyingKey g.hostSigning) canonical signed.signature then
      throw "invalid host manifest signature"
    else
      let approvers ← loadApprovers x g.approversPath
      if !approvers.any (fun entry => entry.2 == approverPublic) then
        throw "approver key is not enrolled on this host"
      else if !x.wellFormedKey approverPublic then throw "invalid approver public key"
      else if !x.wellFormedSignature approverSignature ||
          !x.verify approverPublic canonical approverSignature then
        throw "invalid approver signature"
      else return canonical

def approve (g : GateState) (signed : SignedTrustedManifest) (approverPublic : Key)
    (approverSignature : Bytes) (now : Int) : GateM TrustedManifest := do
  let canonical ← checkApproval x g signed approverPublic approverSignature now
  openDb
  inTransaction (consume canonical signed.manifest.requestId now)
  return signed.manifest

end GateState

end ShellfleetAgent.Privileged
