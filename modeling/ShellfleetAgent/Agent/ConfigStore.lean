import ShellfleetAgent.Agent.Responses
import ShellfleetAgent.Lib.Disk

/-!
# Reading and writing config files

The arms of `main.rs` for `ReadConfigRequest` and `WriteConfigRequest` on a host whose files
have contents. Both requests are handled in the main loop itself, one after the other.
`put` and `readBack` say what they come to for someone who thinks of the host as a map from
places to contents.
-/

namespace ShellfleetAgent.Agent.Config

open ShellfleetAgent.Lib Responses

/-- How the system calls of a write go: `open` may be refused, and the disk may be full
after some of the bytes. The errors are the host's. -/
inductive WriteChoice
  | good
  | openFails (error : Str)
  | writeFails (kept : Nat) (error : Str)

/-- What is in an opened file afterwards, and the result of `write_all`. -/
def WriteChoice.left (ch : WriteChoice) (content : Bytes) : Except Str (Bytes × Except Str Unit) :=
  match ch with
  | .good => .ok (content, .ok ())
  | .openFails error => .error error
  | .writeFails kept error => .ok (content.take kept, .error error)

variable (osError : Str)

/-- `write_no_follow`. -/
def writeNoFollow (d : Disk) (ch : WriteChoice) (parent fileName : OsStr) (content : Bytes) :
    Disk × Except Str Unit :=
  match ch.left content with
  | .error error => (d, .error error)
  | .ok (left, result) =>
    match d.entry (writeTarget parent fileName) with
    | none => (d, .error osError)
    | some (dir, name) =>
      match d.writeAt dir name left with
      | none => (d, .error osError)
      | some d' => (d', result)

structure WriteConfigResponse where
  path : Str
  success : Bool
  error : Option Str
  deriving DecidableEq

/-- `WriteConfigRequest`. -/
def handleWriteConfig (d : Disk) (ch : WriteChoice) (path content : Str) :
    Disk × WriteConfigResponse :=
  match checkWrite d.toHostFiles path with
  | .error e => (d, ⟨path, false, some (e.text osError)⟩)
  | .ok (parent, name) =>
    match writeNoFollow osError d ch parent name (Text.toUtf8 content) with
    | (d', .ok ()) => (d', ⟨path, true, none⟩)
    | (d', .error e) => (d', ⟨path, false, some e⟩)

/-- What `read_no_follow` finds. -/
def opened (d : Disk) (p : OsStr) : Except Str ConfigFile :=
  match d.entry p with
  | none => .error osError
  | some (dir, name) =>
    match d.fs.node (dir ++ [name]) with
    | some .file => .ok ⟨.ok true, .ok (d.content (dir ++ [name]))⟩
    | some .dir => .ok ⟨.ok false, .error osError⟩
    | _ => .error osError

variable (utf8Error : Bytes → Str)

/-- `ReadConfigRequest`. -/
def readConfig (d : Disk) (path : Str) : Response :=
  handleReadConfig d.toHostFiles osError utf8Error (opened osError d) path

inductive ConfigRequest
  | read (path : Str)
  | write (path content : Str) (ch : WriteChoice)

/-- What a request does to the host. -/
def handleConfig (d : Disk) : ConfigRequest → Disk
  | .read _ => d
  | .write path content ch => (handleWriteConfig osError d ch path content).1

/-- The host after some requests. -/
def afterRequests (d : Disk) (rs : List ConfigRequest) : Disk :=
  rs.foldl (handleConfig osError) d

/-! ## As a map -/

/-- Where a path is written. -/
def place (d : Disk) (path : Str) : Option (List OsStr) :=
  match checkWrite d.toHostFiles path with
  | .error _ => none
  | .ok (parent, name) => (d.entry (writeTarget parent name)).map fun e => e.1 ++ [e.2]

/-- A place that can be written: there is a file, or nothing. -/
def writable (d : Disk) (loc : List OsStr) : Bool :=
  d.fs.node loc = none || d.fs.node loc = some .file

/-- A request on the map of the files. Where it goes is settled by the host as it was at
first. -/
def put (d : Disk) (files : List OsStr → Option Bytes) : ConfigRequest → List OsStr → Option Bytes
  | .read _ => files
  | .write path content ch =>
    match place d path, ch.left (Text.toUtf8 content) with
    | some loc, .ok (left, _) =>
        if writable d loc then d.replace loc left files else files
    | _, _ => files

end ShellfleetAgent.Agent.Config
