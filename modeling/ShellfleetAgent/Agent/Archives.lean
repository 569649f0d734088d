import Mathlib.Data.List.Sort
import ShellfleetAgent.Agent.Backup

/-!
# Archives at a destination

`backup.rs`: `list_archives`. Beside it stands what the two other functions do with
a destination: the file or the object that a backup fills, and the one that a
restore reads.
-/

namespace ShellfleetAgent.Agent.Backup

open ShellfleetAgent.Lib

structure BackupArchive where
  name : Str
  uri : Str
  bytes : Nat
  mtime : Int

inductive ListError
  | dest (e : BackupError)
  | readDir (e : Str)
  | listObjectsV2 (e : Str)

structure ListReport where
  success : Bool
  archives : List BackupArchive
  error : Option ListError

/-! ## The host -/

/-- `std::fs::Metadata`: when the file was last changed is in seconds since 1970, if
it is known and not before. -/
structure Metadata where
  len : Nat
  modified : Option UInt64

structure S3Object where
  key : Option Str
  size : Option Int
  lastModified : Option Int

structure Page where
  contents : List S3Object
  isTruncated : Option Bool
  nextContinuationToken : Option Str

/-- The token with which the listing goes on, if it does. -/
def Page.next (page : Page) : Option Str :=
  if page.isTruncated.getD false then page.nextContinuationToken else none

/-- What answers a listing, page by page. -/
inductive Serves (send : Option Str → Except Str Page) : Option Str → List Page → Prop
  | last {token : Option Str} {page : Page} (hpage : send token = .ok page)
      (hnext : page.next = none) : Serves send token [page]
  | more {token : Option Str} {page : Page} {next : Str} {pages : List Page}
      (hpage : send token = .ok page) (hnext : page.next = some next)
      (hrest : Serves send (some next) pages) : Serves send token (page :: pages)

/-- All that a listing asks of its host. An entry of a directory that cannot be read is
nothing; the others are the names in it. The pages of a listing hold all keys that begin
as was asked. -/
structure ArchiveHost where
  files : HostFiles
  readDir : OsStr → Except Str (List (Option OsStr))
  metadata : OsStr → Option Metadata
  objects : Str → List Str
  listObjectsV2 : Str → Option Str → Option Str → Except Str Page
  entries : ∀ dir loc, files.canonicalize dir = some loc → files.fs.node loc = some .dir →
    ∃ names, readDir dir = .ok names ∧
      ∀ n, some n ∈ names ↔ Path.IsName n ∧ (files.fs.node (loc ++ [n])).isSome
  found : ∀ p, (metadata p).isSome = files.pathExists p
  listed : ∀ bucket keyPrefix, objects bucket ≠ [] →
    ∃ pages, Serves (listObjectsV2 bucket keyPrefix) none pages ∧
      ∀ key ∈ objects bucket, keyPrefix.getD [] <+: key →
        ∃ page ∈ pages, ∃ o ∈ page.contents, o.key = some key

/-! ## `list_archives` -/

def tarGz : Str := ".tar.gz".toList

/-- `sort_by(|a, b| b.mtime.cmp(&a.mtime))`, which is stable. -/
def newestFirst (archives : List BackupArchive) : List BackupArchive :=
  archives.insertionSort fun a b => b.mtime ≤ a.mtime

section Listing

variable (host : ArchiveHost)

/-- What becomes of one entry of the directory. -/
def localArchive (dir name : OsStr) : Option BackupArchive :=
  let path := Path.join dir name
  if ((Path.fileName path).bind OsStr.toChars).any (Text.endsWith · tarGz) then
    (host.metadata path).map fun m =>
      { name := OsStr.display ((Path.fileName path).getD [])
        uri := OsStr.display path
        bytes := m.len
        mtime := (m.modified.map fun t => t.toInt64.toInt).getD 0 }
  else none

def listLocal (dir : OsStr) : ListReport :=
  if !host.files.isDir dir then ⟨true, [], none⟩
  else
    match host.readDir dir with
    | .error e => ⟨false, [], some (.readDir e)⟩
    | .ok entries =>
      ⟨true, newestFirst ((entries.filterMap id).filterMap (localArchive host dir)), none⟩

def s3Uri (bucket key : Str) : Str := "s3://".toList ++ bucket ++ ['/'] ++ key

def s3Archive (bucket : Str) (obj : S3Object) : Option BackupArchive :=
  match obj.key with
  | none => none
  | some key =>
    if !Text.endsWith key tarGz then none
    else
      some
        { name := (key.splitOn '/').getLast?.getD key
          uri := s3Uri bucket key
          bytes := (max (obj.size.getD 0) 0).toNat
          mtime := obj.lastModified.getD 0 }

/-- The pages from `token` on. A listing that never ends runs out of fuel. -/
def listPages (bucket : Str) (keyPrefix : Option Str) :
    Nat → Option Str → List BackupArchive → Option (Except Str (List BackupArchive))
  | 0, _, _ => none
  | fuel + 1, token, out =>
    match host.listObjectsV2 bucket keyPrefix token with
    | .error e => some (.error e)
    | .ok page =>
      let out := out ++ page.contents.filterMap (s3Archive bucket)
      match page.next with
      | none => some (.ok out)
      | some next => listPages bucket keyPrefix fuel (some next) out

def listArchives (fuel : Nat) (dest : Str) : Option ListReport :=
  match parseDest dest with
  | .error e => some ⟨false, [], some (.dest e)⟩
  | .ok (.localDir dir) => some (listLocal host dir)
  | .ok (.s3 bucket keyPrefix) =>
    let asked := if keyPrefix = [] then none else some (keyPrefix ++ ['/'])
    match listPages host bucket asked fuel none [] with
    | none => none
    | some (.error e) => some ⟨false, [], some (.listObjectsV2 e)⟩
    | some (.ok out) => some ⟨true, newestFirst out, none⟩

end Listing

/-! ## What is written and what is read -/

inductive Source
  | file (path : OsStr)
  | object (bucket key : Str)
  deriving DecidableEq

/-- What a backup of this name fills at a destination. -/
def target (host : BackupHost) (name : Str) : Dest → Source
  | .localDir dir => .file (Path.join dir (OsStr.ofChars (archiveName host name)))
  | .s3 bucket keyPrefix =>
    .object bucket
      (if keyPrefix = [] then archiveName host name
        else keyPrefix ++ ['/'] ++ archiveName host name)

/-- What a restore reads: nothing if it stops before. -/
def restoreReads (host : BackupHost) (archiveUri destRoot : Str) : List Source :=
  let dest := Text.trim destRoot
  if dest = [] then []
  else if !destAllowed host dest then []
  else
    match host.createDirAll (OsStr.ofChars dest) with
    | .error _ => []
    | .ok after =>
      match Text.stripStart "s3://".toList archiveUri with
      | some rest =>
        let (bucket, key) := Text.splitTwo '/' rest
        if bucket = [] ∨ key = [] then [] else [.object bucket key]
      | none =>
        let archive := (Text.stripStart "file://".toList archiveUri).getD archiveUri
        if !after.isFile (OsStr.ofChars archive) then [] else [.file (OsStr.ofChars archive)]

end ShellfleetAgent.Agent.Backup
