import ShellfleetAgent.Lib.Bytes

/-!
# The trusted-operation frames

The frame types come from the `shared` crate, which is not part of this
repository; they are written down here with exactly the variants and fields the
gate and the relay construct, match on and compare. How a frame is encoded is
the `shared` crate's business too, so the codec is a parameter of everything
that needs one.
-/

namespace ShellfleetAgent.Privileged

open ShellfleetAgent.Lib

/-- A `[u8; 32]`: every key, and the manifest nonce. -/
abbrev Key := Vector UInt8 32

inductive TrustedOperation
  | rootCommand (program : String) (args : List String) (timeoutSecs : UInt32)
  | rootPty (shell : String) (ttlSecs : UInt32) (cols rows : UInt16)
  deriving DecidableEq, Repr

structure TrustedManifest where
  version : Nat
  requestId : String
  hostId : String
  operation : TrustedOperation
  clientEphemeralPublic : Key
  brokerTransportPublic : Key
  nonce : Key
  createdAt : Int
  expiresAt : Int
  policyVersion : String
  deriving DecidableEq, Repr

structure SignedTrustedManifest where
  manifest : TrustedManifest
  hostIdentityPublic : Key
  signature : Bytes
  deriving DecidableEq, Repr

inductive TrustedClientFrame
  | start (requestId : String) (operation : TrustedOperation) (clientEphemeralPublic : Key)
  | approve (signedManifest : SignedTrustedManifest) (approverPublic : Key)
      (approverSignature : Bytes)
  | ciphertext (counter : UInt64) (data : Bytes)
  | resize (cols rows : UInt16)
  | close
  deriving DecidableEq, Repr

inductive TrustedHostFrame
  | challenge (signed : SignedTrustedManifest)
  | ciphertext (counter : UInt64) (data : Bytes)
  | closed
  | error (message : String)
  deriving DecidableEq, Repr

inductive TrustedPlaintext
  | output (stream : String) (data : Bytes)
  | exit (code : Int) (message : String)
  deriving DecidableEq, Repr

/-- `shared::trusted`'s functions and constants, and `serde_json::to_vec` for
the plaintexts. -/
structure Codec where
  decodeClient : Bytes → Except String TrustedClientFrame
  encodeHost : TrustedHostFrame → Except String Bytes
  encodePlaintext : TrustedPlaintext → Except String Bytes
  canonicalBytes : TrustedManifest → Except String Bytes
  maxTrustedFrameBytes : Nat
  trustedProtocolVersion : Nat

end ShellfleetAgent.Privileged
