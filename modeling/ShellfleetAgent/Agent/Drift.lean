import ShellfleetAgent.Agent.ConfigStore
import ShellfleetAgent.Agent.Docker
import ShellfleetAgent.Lib.Columns
import ShellfleetAgent.Lib.JsonText
import ShellfleetAgent.Lib.Lines
import ShellfleetAgent.Lib.Words

/-!
# Drift snapshots

The arm of `main.rs` for `DriftSnapshotRequest`, with `drift_config_fingerprint`: the packages,
services and containers that the host's tools print, and a fingerprint of each config file that
is asked for. The digest of a file (SHA-256) is a parameter.
-/

namespace ShellfleetAgent.Agent.Drift

open ShellfleetAgent.Lib
open Docker (CommandLine)
open Config (PathError checkRead)

structure DriftPackage where
  name : Str
  version : Str
  status : Str
  deriving DecidableEq

structure DriftService where
  name : Str
  active : Str
  enabled : Str
  deriving DecidableEq

structure DriftContainer where
  name : Str
  image : Str
  state : Str
  deriving DecidableEq

structure DriftConfigFile where
  path : Str
  hash : Str
  size : Nat
  mtime : Int64
  deriving DecidableEq

structure DriftSnapshotResponse where
  snapshotId : Str
  packages : List DriftPackage
  services : List DriftService
  containers : List DriftContainer
  configs : List DriftConfigFile
  error : Option Str
  deriving DecidableEq

/-- What `metadata` says of a file. There is no time if the file system has none, or one
before the epoch. -/
structure Metadata where
  len : Nat
  modified : Option UInt64

/-! ## Calls -/

inductive DriftCall
  | dpkgQuery (args : List String)
  | systemctl (args : List String)
  | docker (cmd : CommandLine)
  | checkRead (path : Str)
  | metadata (p : OsStr)
  | read (p : OsStr)
  | send (response : DriftSnapshotResponse)

def DriftCall.Answer : DriftCall → Type
  | .dpkgQuery _ | .systemctl _ | .docker _ => Except Str Output
  | .checkRead _ => Except PathError OsStr
  | .metadata _ => Option Metadata
  | .read _ => Option Bytes
  | .send _ => Except OutgoingSendError Unit

abbrev DriftM := Prog DriftCall DriftCall.Answer

def ask (c : DriftCall) : DriftM c.Answer := Prog.perform c

/-! ## Rows -/

def packageRow (line : Str) : Option DriftPackage :=
  match Text.splitn (· = '\t') 3 line with
  | name :: version :: rest => some ⟨name, version, rest.headD []⟩
  | _ => none

def serviceRow (line : Str) : Option DriftService :=
  match Text.splitWhitespace line with
  | name :: _ :: active :: enabled :: _ => some ⟨name, active, enabled⟩
  | _ => none

def containerRow (line : Str) : Option DriftContainer :=
  match Text.splitn (· = '\t') 3 line with
  | name :: image :: state :: _ => some ⟨name, image, state⟩
  | _ => none

/-- The rows among the lines of a process, however it has ended. -/
def rows {ρ : Type} (row : Str → Option ρ) : Except Str Output → List ρ
  | .ok output => (Text.lines (Text.fromUtf8Lossy output.stdout)).filterMap row
  | .error _ => []

def dpkgArgs : List String :=
  ["-W", "-f", "$\x7bPackage\x7d\t$\x7bVersion\x7d\t$\x7bStatus\x7d\n"]

def systemctlArgs : List String :=
  ["list-units", "--type=service", "--no-pager", "--no-legend", "--plain"]

/-! ## The snapshot -/

section Snapshot

variable (digest : Bytes → Bytes)

/-- `format!("\x7b:x\x7d")` of a digest. -/
def hexText (bytes : Bytes) : Str :=
  bytes.flatMap fun byte =>
    [JsonText.hexDigit (byte.toNat / 16), JsonText.hexDigit (byte.toNat % 16)]

/-- The file is looked at twice, for its metadata and for its bytes. -/
def configFile (path : Str) (stat : Metadata) (content : Bytes) : DriftConfigFile where
  path := path
  hash := hexText (digest content)
  size := stat.len
  mtime := (stat.modified.map UInt64.toInt64).getD 0

def driftConfigFingerprint (path : Str) : DriftM (Option DriftConfigFile) := do
  match ← ask (.checkRead path) with
  | .error _ => return none
  | .ok safePath =>
    match ← ask (.metadata safePath) with
    | none => return none
    | some stat =>
      match ← ask (.read safePath) with
      | none => return none
      | some content => return some (configFile digest path stat content)

def fingerprints : List Str → DriftM (List DriftConfigFile)
  | [] => return []
  | path :: paths => do
    let config ← driftConfigFingerprint digest path
    let configs ← fingerprints paths
    return config.toList ++ configs

/-- No category stands for all of them. -/
def Asked (categories : List Str) (category : String) : Prop :=
  categories = [] ∨ category.toList ∈ categories

instance (categories : List Str) (category : String) : Decidable (Asked categories category) :=
  inferInstanceAs (Decidable (_ ∨ _))

/-- What is gathered for a category that is asked for. -/
def gathered {ρ : Type} (categories : List Str) (category : String) (gather : DriftM (List ρ)) :
    DriftM (List ρ) :=
  if Asked categories category then gather else return []

/-- The task of a `DriftSnapshotRequest`. -/
def snapshot (snapshotId : Str) (categories configPaths : List Str) : DriftM Unit := do
  let packages ← gathered categories "packages" do
    return rows packageRow (← ask (.dpkgQuery dpkgArgs))
  let services ← gathered categories "services" do
    return rows serviceRow (← ask (.systemctl systemctlArgs))
  let containers ← gathered categories "containers" do
    return rows containerRow (← ask (.docker Docker.driftContainers))
  let configs ← gathered categories "configs" (fingerprints digest configPaths)
  let _ ← ask (.send ⟨snapshotId, packages, services, containers, configs, none⟩)

end Snapshot

/-! ## The host -/

/-- What a call of a snapshot finds: the host at one moment. The system keeps times of
modification and permissions beside what the files hold. -/
structure DriftHost where
  disk : Disk
  dirLen : List OsStr → Nat
  modified : List OsStr → Option UInt64
  readable : List OsStr → Bool
  dpkgQuery : List String → Except Str Output
  systemctl : List String → Except Str Output
  docker : CommandLine → Except Str Output
  sent : Except OutgoingSendError Unit

/-- `metadata`, which follows links. -/
def DriftHost.metadata (h : DriftHost) (p : OsStr) : Option Metadata :=
  match h.disk.canonicalize p with
  | none => none
  | some loc =>
    match h.disk.fs.node loc with
    | some .file => some ⟨(h.disk.content loc).length, h.modified loc⟩
    | some .dir => some ⟨h.dirLen loc, h.modified loc⟩
    | _ => none

/-- `read`, which follows links too, and reads no directory. -/
def DriftHost.read (h : DriftHost) (p : OsStr) : Option Bytes :=
  match h.disk.canonicalize p with
  | none => none
  | some loc => if h.readable loc then h.disk.file loc else none

def DriftHost.answer (h : DriftHost) : (c : DriftCall) → c.Answer
  | .dpkgQuery args => h.dpkgQuery args
  | .systemctl args => h.systemctl args
  | .docker cmd => h.docker cmd
  | .checkRead path => checkRead h.disk.toHostFiles path
  | .metadata p => h.metadata p
  | .read p => h.read p
  | .send _ => h.sent

/-- The responses that a run has sent. -/
def responses (h : History DriftCall DriftCall.Answer) : List DriftSnapshotResponse :=
  h.filterMap fun e =>
    match e.op with
    | .send response => some response
    | _ => none

end ShellfleetAgent.Agent.Drift
