import ShellfleetAgent.Lib.Path
import ShellfleetAgent.Lib.Pool
import ShellfleetAgent.Privileged.Approval

/-!
# The gate's own keys

`GateState::load_or_create`: what the gate does before it serves anyone, and what
`--print-host-fingerprint` does beside it. A key is read from its file, or made up and
written to a file that must not be there yet. Any number of starts may run at once, and any
of them may be killed at any point.
-/

namespace ShellfleetAgent.Privileged.HostKeys

open ShellfleetAgent.Lib GateState

/-- A `write` is asked again by `write_all` while it is interrupted. -/
inductive KeyOp
  | createDirAll (path : OsStr)
  | setMode (path : OsStr) (mode : Nat)
  | read (path : OsStr)
  | fillBytes
  | createNew (path : OsStr) (mode : Nat)
  | write (path : OsStr) (buf : Bytes)
  | openDb (path : OsStr)
  | executeBatch (path : OsStr)

abbrev KeyResp : KeyOp → Type
  | .createDirAll _ => Except String Unit
  | .setMode .. => Except String Unit
  | .read _ => Except String Bytes
  | .fillBytes => Key
  | .createNew .. => Except String Unit
  | .write .. => Except String Nat
  | .openDb _ => Except String Unit
  | .executeBatch _ => Except String Unit

abbrev KeyM := ExceptT String (Prog KeyOp KeyResp)

abbrev KeyHistory := History KeyOp KeyResp

def createDirAll (path : OsStr) : KeyM Unit := ExceptT.mk (Prog.perform (KeyOp.createDirAll path))
def setMode (path : OsStr) (mode : Nat) : KeyM Unit :=
  ExceptT.mk (Prog.perform (KeyOp.setMode path mode))
def readFile (path : OsStr) : KeyM (Except String Bytes) :=
  ExceptT.lift (Prog.perform (KeyOp.read path))
def fillBytes : KeyM Key := ExceptT.lift (Prog.perform KeyOp.fillBytes)
def createNew (path : OsStr) (mode : Nat) : KeyM Unit :=
  ExceptT.mk (Prog.perform (KeyOp.createNew path mode))
def write (path : OsStr) (buf : Bytes) : KeyM Nat :=
  ExceptT.mk (Prog.perform (KeyOp.write path buf))
def openDb (path : OsStr) : KeyM Unit := ExceptT.mk (Prog.perform (KeyOp.openDb path))
def executeBatch (path : OsStr) : KeyM Unit := ExceptT.mk (Prog.perform (KeyOp.executeBatch path))

/-- `write_all`: every turn but the last writes something, so there are at most `turns`. -/
def writeAll (path : OsStr) : Nat → Bytes → KeyM Unit
  | 0, _ => pure ()
  | turns + 1, buf =>
    if buf.isEmpty then pure ()
    else do
      let n ← write path buf
      if n = 0 then throw "failed to write whole buffer"
      else writeAll path turns (buf.drop n)

/-- A file that cannot be read counts as one that is not there. -/
def loadOrCreateKey (path : OsStr) : KeyM Key := do
  match ← readFile path with
  | .ok bytes =>
    match toKey bytes with
    | some key => return key
    | none => throw (String.ofList (OsStr.display path) ++ " must contain exactly 32 bytes")
  | .error _ =>
    let key ← fillBytes
    createNew path 0o600
    writeAll path key.toList.length key.toList
    return key

def hexDigit (n : Nat) : Char := if n < 10 then Char.ofNat (48 + n) else Char.ofNat (87 + n)

/-- Two lower-case digits a byte. -/
def hex (bytes : Bytes) : String :=
  String.ofList (bytes.flatMap fun byte => [hexDigit (byte.toNat / 16), hexDigit (byte.toNat % 16)])

def signingPath (stateDir : OsStr) : OsStr := Path.join stateDir (os "host-ed25519.key")

def transportPath (stateDir : OsStr) : OsStr := Path.join stateDir (os "host-x25519.key")

def dbPath (stateDir : OsStr) : OsStr := Path.join stateDir (os "approvals.sqlite3")

def hostIdOf (x : Externals) (signing : Key) : String :=
  hex ((x.verifyingKey signing).toList.take 16)

def loadOrCreate (x : Externals) (stateDir approversPath : OsStr) : KeyM GateState := do
  createDirAll stateDir
  setMode stateDir 0o700
  let hostSigning ← loadOrCreateKey (signingPath stateDir)
  let transportSecret ← loadOrCreateKey (transportPath stateDir)
  openDb (dbPath stateDir)
  executeBatch (dbPath stateDir)
  setMode (dbPath stateDir) 0o600
  return {
    hostSigning
    transportSecret
    hostId := hostIdOf x hostSigning
    approversPath := String.ofList (OsStr.display approversPath) }

/-! ## Any number of starts -/

/-- What reading gives, by path. Nothing but starts of the gate changes a key file. -/
structure KeyHost where
  files : OsStr → Option Bytes

inductive KeyChoice
  | good
  | key (k : Key)
  | wrote (n : Nat)
  | bad (error : String)

namespace KeyHost

def noEntry : String := "No such file or directory (os error 2)"

def fileExists : String := "File exists (os error 17)"

def put (w : KeyHost) (path : OsStr) (content : Bytes) : KeyHost where
  files := Function.update w.files path (some content)

/-- A file is created only where there is none, and grows only by what is written. A read
ends at the end of the file as it is then. -/
def exec (w : KeyHost) : (o : KeyOp) → KeyChoice → Option (KeyHost × KeyResp o)
  | .createDirAll _, .good => some (w, .ok ())
  | .createDirAll _, .bad e => some (w, .error e)
  | .setMode .., .good => some (w, .ok ())
  | .setMode .., .bad e => some (w, .error e)
  | .read path, .good =>
      match w.files path with
      | some bytes => some (w, .ok bytes)
      | none => some (w, .error noEntry)
  | .read _, .bad e => some (w, .error e)
  | .fillBytes, .key k => some (w, k)
  | .createNew path _, .good =>
      match w.files path with
      | none => some (w.put path [], .ok ())
      | some _ => some (w, .error fileExists)
  | .createNew .., .bad e => some (w, .error e)
  | .write path buf, .wrote n =>
      match w.files path with
      | some bytes =>
          if n ≤ buf.length then some (w.put path (bytes ++ buf.take n), .ok n) else none
      | none => none
  | .write .., .bad e => some (w, .error e)
  | .openDb _, .good => some (w, .ok ())
  | .openDb _, .bad e => some (w, .error e)
  | .executeBatch _, .good => some (w, .ok ())
  | .executeBatch _, .bad e => some (w, .error e)
  | _, _ => none

end KeyHost

/-- The arguments of a start. -/
structure Start where
  stateDir : OsStr
  approversPath : OsStr

def startCode (x : Externals) : Code KeyOp KeyResp Start Empty (Except String GateState) where
  start c := (loadOrCreate x c.stateDir c.approversPath).run.bind fun r => .ret (.inr r)
  again := nofun

def keyHost : Host KeyOp KeyResp Start KeyHost KeyChoice Empty where
  init _ := True
  exec w _ := w.exec
  spawn w _ _ := some w
  kill w _ := w
  env := nofun

abbrev KeyPoolState := Pool.State KeyOp KeyResp Start Empty (Except String GateState) KeyHost

/-- Starts of the gate, as many as one likes, on one host. -/
abbrev startPool (x : Externals) : Machine KeyPoolState (Pool.Label Start KeyChoice Empty) :=
  pool (startCode x) keyHost

/-- The start `c` has returned `g`. -/
def Started (s : KeyPoolState) (t : Nat) (c : Start) (g : GateState) : Prop :=
  ∃ h, s.threads t = some ⟨⟨c, h, true⟩, .ret (.inr (.ok g))⟩

end ShellfleetAgent.Privileged.HostKeys
