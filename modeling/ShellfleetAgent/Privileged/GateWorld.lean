import ShellfleetAgent.Lib.Pool
import ShellfleetAgent.Privileged.Gate

/-!
# The world the gate's connections share

The approval database, the keyring file and the clock, and what each operation
may do to them. Of the database only what SQLite guarantees is used: a
statement happens at once or not at all, `request_id` is a primary key, one
transaction at a time holds the write lock, and what a transaction has not
committed is gone when it is dropped. A statement may fail at any time; a
commit may fail having taken effect or not.

Calls to `challenge` and `approve` and whole connections run side by side. A
gate restart kills every thread there is; the threads started after it may
belong to a gate with other keys.
-/

namespace ShellfleetAgent.Privileged

open ShellfleetAgent.Lib

/-- A row of `trusted_requests`, without its key. -/
structure Row where
  manifest : Bytes
  status : String
  expiresAt : Int
  consumedAt : Option Int
  deriving DecidableEq

/-- An uncommitted update: who holds the write lock, and the row it writes. -/
structure PendingWrite where
  thread : Nat
  requestId : String
  row : Row

structure GateWorld where
  rows : String → Option Row
  pending : Option PendingWrite
  approvers : Except String String
  clock : Int

inductive GateChoice
  | ok
  | uid (u : UInt32)
  | var (v : Option String)
  | text (t : String)
  | bytes (b : Bytes)
  | key (k : Key)
  | output (o : Output)
  | fail (message : String)
  | failCommitted (message : String)

inductive GateEnv
  | setApprovers (file : Except String String)
  | setClock (now : Int)

namespace GateWorld

/-- Drop whatever `t` has written and not committed. -/
def discard (w : GateWorld) (t : Nat) : GateWorld :=
  match w.pending with
  | some p => if p.thread = t then { w with pending := none } else w
  | none => w

/-- Make what `t` has written permanent. -/
def settle (w : GateWorld) (t : Nat) : GateWorld :=
  match w.pending with
  | some p =>
      if p.thread = t then
        { w with rows := Function.update w.rows p.requestId p.row, pending := none }
      else w
  | none => w

/-- `INSERT INTO trusted_requests`: refused on a taken key, and while another
connection holds the write lock. -/
def insert (w : GateWorld) (requestId : String) (manifest : Bytes) (expiresAt : Int) :
    Option GateWorld :=
  match w.pending, w.rows requestId with
  | none, none =>
      let row := { manifest, status := "pending", expiresAt, consumedAt := none }
      some { w with rows := Function.update w.rows requestId (some row) }
  | _, _ => none

/-- `UPDATE trusted_requests SET status='consumed' WHERE ... status='pending'`,
and the number of rows it changed. -/
def update (w : GateWorld) (t : Nat) (requestId : String) (now : Int) :
    Option (GateWorld × Nat) :=
  match w.pending with
  | some _ => none
  | none =>
    match w.rows requestId with
    | none => some (w, 0)
    | some row =>
        if row.status = "pending" then
          let row := { row with status := "consumed", consumedAt := some now }
          some ({ w with pending := some { thread := t, requestId, row } }, 1)
        else some (w, 0)

def exec (w : GateWorld) (t : Nat) : (o : GateOp) → GateChoice → Option (GateWorld × GateResp o)
  | .peerUid, .uid u => some (w, .ok u)
  | .peerUid, .fail e => some (w, .error e)
  | .agentUidVar, .var v => some (w, v)
  | .readPasswd, .text s => some (w, .ok s)
  | .readPasswd, .fail e => some (w, .error e)
  | .readExact n, .bytes b => if b.length = n then some (w, .ok b) else none
  | .readExact _, .fail e => some (w, .error e)
  | .writeAll _, .ok => some (w, .ok ())
  | .writeAll _, .fail e => some (w, .error e)
  | .flush, .ok => some (w, .ok ())
  | .flush, .fail e => some (w, .error e)
  | .now, .ok => some (w, w.clock)
  | .fillNonce, .key k => some (w, k)
  | .policyVersionVar, .var v => some (w, v)
  | .readApprovers _, .ok => some (w, w.approvers)
  | .openDb, .ok => some (w, .ok ())
  | .openDb, .fail e => some (w, .error e)
  | .insertPending id m e, .ok => (w.insert id m e).map fun w' => (w', .ok ())
  | .insertPending .., .fail e => some (w, .error e)
  | .begin, .ok => some (w, .ok ())
  | .begin, .fail e => some (w, .error e)
  | .selectRequest id, .ok =>
      some (w, .ok ((w.rows id).map fun r => (r.manifest, r.status, r.expiresAt)))
  | .selectRequest _, .fail e => some (w, .error e)
  | .updateConsumed id now, .ok => (w.update t id now).map fun (w', n) => (w', .ok n)
  | .updateConsumed .., .fail e => some (w, .error e)
  | .commit, .ok => some (w.settle t, .ok ())
  | .commit, .fail e => some (w, .error e)
  | .commit, .failCommitted e => some (w.settle t, .error e)
  | .rollback, .ok => some (w.discard t, ())
  | .commandOutput .., .output r => some (w, .ok r)
  | .commandOutput .., .fail e => some (w, .error e)
  | .ptySession .., .ok => some (w, .ok ())
  | .ptySession .., .fail e => some (w, .error e)
  | _, _ => none

end GateWorld

/-- What may be started: a connection, or one call on its own. -/
inductive GateCall
  | connection (g : GateState)
  | challenge (g : GateState) (start : TrustedClientFrame) (now : Int)
  | approve (g : GateState) (signed : SignedTrustedManifest) (approverPublic : Key)
      (approverSignature : Bytes) (now : Int)

inductive GateResult
  | handled (r : Except String Unit)
  | challenged (r : Except String SignedTrustedManifest)
  | approved (r : Except String TrustedManifest)

def gateCode (x : Externals) : Code GateOp GateResp GateCall Empty GateResult where
  start
    | .connection g => (handle x g).run.bind fun r => .ret (.inr (.handled r))
    | .challenge g start now =>
        (g.challenge x start now).run.bind fun r => .ret (.inr (.challenged r))
    | .approve g signed approverPublic approverSignature now =>
        (g.approve x signed approverPublic approverSignature now).run.bind fun r =>
          .ret (.inr (.approved r))
  again := nofun

/-- Any rows may be there from earlier gates; no transaction is open yet. -/
def gateHost : Host GateOp GateResp GateCall GateWorld GateChoice GateEnv where
  init w := w.pending = none
  exec := GateWorld.exec
  spawn w _ _ := some w
  kill := GateWorld.discard
  env w
    | .setApprovers file => some { w with approvers := file }
    | .setClock now => some { w with clock := now }

abbrev GatePoolState := Pool.State GateOp GateResp GateCall Empty GateResult GateWorld

abbrev gatePool (x : Externals) :
    Machine GatePoolState (Pool.Label GateCall GateChoice GateEnv) :=
  pool (gateCode x) gateHost

end ShellfleetAgent.Privileged
