import ShellfleetAgent.Lib.Host
import ShellfleetAgent.Lib.Prog
import ShellfleetAgent.Privileged.Crypto

/-!
# What the gate asks of the world

Everything `shellfleet-approval-gate` does besides computing: the socket, the
clock and the random source, two environment variables and two files, the
statements it runs on the approval database, and the operations themselves.

A whole PTY session is one operation here: the gate only enters it. What goes
on inside `run_pty` has a model of its own.
-/

namespace ShellfleetAgent.Privileged

open ShellfleetAgent.Lib

/-- The columns `approve` selects: manifest, status, expiry. -/
abbrev Selected := Bytes × String × Int

inductive GateOp
  | peerUid
  | agentUidVar
  | readPasswd
  | readExact (n : Nat)
  | writeAll (bytes : Bytes)
  | flush
  | now
  | fillNonce
  | policyVersionVar
  | readApprovers (path : String)
  | openDb
  | insertPending (requestId : String) (manifest : Bytes) (expiresAt : Int)
  | begin
  | selectRequest (requestId : String)
  | updateConsumed (requestId : String) (now : Int)
  | commit
  | rollback
  | commandOutput (program : String) (args : List String) (timeoutSecs : UInt32)
  | ptySession (shell : String) (ttlSecs : UInt32) (cols rows : UInt16)

abbrev GateResp : GateOp → Type
  | .peerUid => Except String UInt32
  | .agentUidVar => Option String
  | .readPasswd => Except String String
  | .readExact _ => Except String Bytes
  | .writeAll _ => Except String Unit
  | .flush => Except String Unit
  | .now => Int
  | .fillNonce => Key
  | .policyVersionVar => Option String
  | .readApprovers _ => Except String String
  | .openDb => Except String Unit
  | .insertPending .. => Except String Unit
  | .begin => Except String Unit
  | .selectRequest _ => Except String (Option Selected)
  | .updateConsumed .. => Except String Nat
  | .commit => Except String Unit
  | .rollback => Unit
  | .commandOutput .. => Except String Output
  | .ptySession .. => Except String Unit

/-- Gate code: interaction with `?`. -/
abbrev GateM := ExceptT String (Prog GateOp GateResp)

abbrev GateHistory := History GateOp GateResp

def ask (o : GateOp) : Prog GateOp GateResp (GateResp o) := .perform o

/-- An operation whose error is the caller's. -/
abbrev attempt {α : Type} (p : Prog GateOp GateResp (Except String α)) : GateM α :=
  ExceptT.mk p

/-- An operation that cannot fail. -/
abbrev always {α : Type} (p : Prog GateOp GateResp α) : GateM α := ExceptT.lift p

/-- A computed result. -/
def hoist {α : Type} (r : Except String α) : GateM α := ExceptT.mk (.ret r)

def mapErr {α : Type} (f : String → String) (x : GateM α) : GateM α :=
  ExceptT.mk (x.run.bind fun
    | .ok a => .ret (.ok a)
    | .error e => .ret (.error (f e)))

def peerUid : GateM UInt32 := attempt (ask .peerUid)
def agentUidVar : GateM (Option String) := always (ask .agentUidVar)
def readPasswd : GateM String := attempt (ask .readPasswd)
def readExact (n : Nat) : GateM Bytes := attempt (ask (.readExact n))
def writeAll (bytes : Bytes) : GateM Unit := attempt (ask (.writeAll bytes))
def flush : GateM Unit := attempt (ask .flush)
def nowUnix : GateM Int := always (ask .now)
def fillNonce : GateM Key := always (ask .fillNonce)
def readApprovers (path : String) : GateM String := attempt (ask (.readApprovers path))
def openDb : GateM Unit := attempt (ask .openDb)
def insertPending (requestId : String) (manifest : Bytes) (expiresAt : Int) : GateM Unit :=
  attempt (ask (.insertPending requestId manifest expiresAt))
def begin : GateM Unit := attempt (ask .begin)
def selectRequest (requestId : String) : GateM (Option Selected) :=
  attempt (ask (.selectRequest requestId))
def updateConsumed (requestId : String) (now : Int) : GateM Nat :=
  attempt (ask (.updateConsumed requestId now))
def commit : GateM Unit := attempt (ask .commit)
def rollback : GateM Unit := always (ask .rollback)
def commandOutput (program : String) (args : List String) (timeoutSecs : UInt32) :
    GateM Output := attempt (ask (.commandOutput program args timeoutSecs))
def ptySession (shell : String) (ttlSecs : UInt32) (cols rows : UInt16) : GateM Unit :=
  attempt (ask (.ptySession shell ttlSecs cols rows))

/-- `SHELLFLEET_PRIVILEGED_POLICY_VERSION`, or the built-in name. -/
def policyVersion : GateM String := do
  return (← always (ask .policyVersionVar)).getD "builtin-v1"

end ShellfleetAgent.Privileged
