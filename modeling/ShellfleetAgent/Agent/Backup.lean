import ShellfleetAgent.Lib.Host
import ShellfleetAgent.Lib.Text

/-!
# Backups

`backup.rs`: archiving paths into a local directory or a bucket, and restoring
an archive. What both leave on this host is in their result. The `writes` of a
backup are the local paths handed to `create_dir_all` and `tar`, those of a restore
the directories that `create_dir_all` makes one by one and the one that `tar` extracts
into, each with the files as they were at that moment.
-/

namespace ShellfleetAgent.Agent.Backup

open ShellfleetAgent.Lib

def logCap : Nat := 8000

def multipartThreshold : Nat := 64 * 1024 * 1024

def multipartChunk : Nat := 16 * 1024 * 1024

def s3RestoreMaxBytesDefault : Nat := 50 * 1024 * 1024 * 1024

def defaultBackupRoots : List Str :=
  ["/var/lib/shellfleet", "/var/backups/shellfleet"].map String.toList

inductive BackupMode
  | tar
  | restic
  deriving DecidableEq

/-- The error texts, by their format and what is put into it. -/
inductive BackupError
  | destEmpty
  | s3WithoutBucket
  | unsupportedScheme (dest : Str)
  | resticNotImplemented
  | pathsEmpty
  | noPathsExist
  | pathsOutside (bad : List Str)
  | mkdir (dir : OsStr) (e : Str)
  | spawnTar (e : Str)
  | tarExit (code : Option Int)
  | tempfile (e : Str)
  | upload (e : Str)
  | destRootEmpty
  | destRootOutside (dest : Str)
  | malformedUri (rest : Str)
  | getObject (e : Str)
  | bodyTooLong (maxBytes : Nat)
  | tarStdin (e : Str)
  | s3Body (e : Str)
  | tarWait (e : Str)
  | archiveNotFound (path : Str)
  deriving DecidableEq

/-! ## Destinations and roots -/

inductive Dest
  | localDir (dir : OsStr)
  | s3 (bucket keyPrefix : Str)
  deriving DecidableEq

def parseDest (dest : Str) : Except BackupError Dest :=
  let trimmed := Text.trim dest
  if trimmed = [] then .error .destEmpty
  else
    match Text.stripStart "s3://".toList trimmed with
    | some rest =>
      let (bucket, key) := Text.splitTwo '/' rest
      if bucket = [] then .error .s3WithoutBucket
      else .ok (.s3 bucket (Text.trimEndMatches (· = '/') key))
    | none =>
      match Text.stripStart "file://".toList trimmed with
      | some rest => .ok (.localDir (OsStr.ofChars rest))
      | none =>
        if Text.contains trimmed "://".toList then .error (.unsupportedScheme trimmed)
        else .ok (.localDir (OsStr.ofChars trimmed))

/-- The environment variables that are set, and to text. -/
structure Vars where
  backupRoots : Option Str
  allowUnrestrictedBackups : Option Str
  s3RestoreMaxBytes : Option Str

def configuredBackupRoots (raw : Option Str) : List OsStr :=
  let roots := (raw.map fun raw =>
    ((raw.splitOn ':').map Text.trim).filter (· ≠ [])).filter (· ≠ [])
  (roots.getD defaultBackupRoots).map OsStr.ofChars

def backupRoots (vars : Vars) : Option (List OsStr) :=
  if vars.allowUnrestrictedBackups = some ['1'] then none
  else some (configuredBackupRoots vars.backupRoots)

def s3RestoreMaxBytes (vars : Vars) : Nat :=
  (vars.s3RestoreMaxBytes.bind Text.parseU64).getD s3RestoreMaxBytesDefault

/-! ## Containment

A `PathBuf` that is only ever compared is its components. -/

/-- `PathBuf::pop`, which leaves a root and an empty path alone. -/
def pop (out : List Component) : List Component :=
  match out.getLast? with
  | none | some .rootDir => out
  | some _ => out.dropLast

def normalizeStep (out : List Component) : Component → List Component
  | .parentDir => pop out
  | .curDir => out
  | .rootDir => [.rootDir]
  | .normal name => out ++ [Component.normal name]

def normalizeLexical (p : OsStr) : List Component := (Path.components p).foldl normalizeStep []

/-- The components of a resolved path. -/
def canonical (loc : List OsStr) : List Component := .rootDir :: loc.map .normal

def lexicallyWithin (p : OsStr) (roots : List OsStr) : Bool :=
  roots.any fun r => (normalizeLexical r).isPrefixOf (normalizeLexical p)

def canonicalRoot (h : HostFiles) (r : OsStr) : List Component :=
  match h.canonicalize r with
  | some loc => canonical loc
  | none => normalizeLexical r

def withinRoots (h : HostFiles) (p : OsStr) (roots : List OsStr) : Bool :=
  if !lexicallyWithin p roots then false
  else
    match h.canonicalize p with
    | some loc => roots.any fun r => (canonicalRoot h r).isPrefixOf (canonical loc)
    | none => true

/-! ## The host -/

/-- A `tar` that reads its archive from a pipe: how each write to it ends, and
how it ends itself. -/
structure TarChild where
  write : Nat → Option Str
  wait : Except Str Output

/-- All that a backup or a restore asks of its host. A `mkdir` makes one directory where
there is nothing, and finds something missing only on the way to a path that is. -/
structure BackupHost where
  vars : Vars
  files : HostFiles
  timestamp : Nat
  mkdir : HostFiles → OsStr → Except HostFiles.MkdirError HostFiles
  made : ∀ h p h', mkdir h p = .ok h' → h.Makes p h'
  missing : ∀ h p e, mkdir h p = .error e → e.notFound = true → h.canonicalize p = none
  tar : List OsStr → Except Str Output
  tarPiped : List OsStr → Except Str TarChild
  metadataLen : OsStr → Option Nat
  tempfile : Except Str OsStr
  s3PutObject : Str → Str → OsStr → Except Str Nat
  s3MultipartUpload : Str → Str → OsStr → Except Str Nat
  s3GetObject : Str → Str → Except Str (List (Except Str Bytes))

/-- A local path that was handed out to be written, and the files at the time. -/
structure Write where
  files : HostFiles
  path : OsStr

/-! ## `create_dir_all` -/

section Create

variable (mkdir : HostFiles → OsStr → Except HostFiles.MkdirError HostFiles)

/-- `mkdir` of the first of these paths, or else of the others and then of it. What was
made comes with the files as they are in the end. -/
def makeAll (h : HostFiles) : List OsStr → List Write × Except Str HostFiles
  | [] => ([], .error "failed to create whole tree".toList)
  | p :: up =>
    if p = [] then ([], .ok h)
    else
      match mkdir h p with
      | .ok h' => ([⟨h, p⟩], .ok h')
      | .error e =>
        if !e.notFound then ([], if h.isDir p then .ok h else .error e.text)
        else
          match makeAll h up with
          | (made, .error e) => (made, .error e)
          | (made, .ok h') =>
            match mkdir h' p with
            | .ok h'' => (made ++ [⟨h', p⟩], .ok h'')
            | .error e => (made, if h'.isDir p then .ok h' else .error e.text)

end Create

/-- `std::fs::create_dir_all`: what it makes, one directory after the other. -/
def BackupHost.dirsMade (host : BackupHost) (dir : OsStr) : List Write :=
  (makeAll host.mkdir host.files (Path.ancestors dir)).1

/-- How `std::fs::create_dir_all` ends. -/
def BackupHost.createDirAll (host : BackupHost) (dir : OsStr) : Except Str HostFiles :=
  (makeAll host.mkdir host.files (Path.ancestors dir)).2

/-! ## Logs -/

def truncate (s : Str) (cap : Nat) : Option Str := Text.keepTail s cap

def logStdout (log : Str) (out : Output) : Str := log ++ Text.fromUtf8Lossy out.stdout

def logStderr (log header : Str) (out : Output) : Str :=
  if out.stderr = [] then log else log ++ header ++ Text.fromUtf8Lossy out.stderr

def tarStderr : Str := "--- tar stderr ---\n".toList

/-! ## `run_backup` -/

structure BackupReport where
  success : Bool
  archiveUri : Str
  bytes : Nat
  log : Str
  error : Option BackupError

/-- A run that panics reports nothing. The S3 branch's tempfile is `scratch`. -/
structure BackupRun where
  writes : List Write
  scratch : Option OsStr
  report : Option BackupReport

def failed (log : Str) (e : BackupError) : Option BackupReport := some ⟨false, [], 0, log, some e⟩

def refused (e : BackupError) : BackupRun := ⟨[], none, failed [] e⟩

variable (host : BackupHost)

/-- The sources that exist but are outside the allow-list, when there is one. -/
def outsideSources (existing : List Str) : List Str :=
  match backupRoots host.vars with
  | none => []
  | some roots => existing.filter fun p => !withinRoots host.files (OsStr.ofChars p) roots

def skippedLog (paths : List Str) : Str :=
  let missing := paths.filter fun p => !host.files.pathExists (OsStr.ofChars p)
  if missing = [] then []
  else "WARN: skipping missing path(s): ".toList ++ (missing.map (· ++ [' '])).flatten ++ ['\n']

def archiveName (name : Str) : Str :=
  name ++ ['-'] ++ Text.decimal host.timestamp ++ ".tar.gz".toList

def tarCreateArgs (archive : OsStr) (existing : List Str) : List OsStr :=
  ["--ignore-failed-read", "-czf"].map (OsStr.ofChars ∘ String.toList) ++ [archive] ++
    [OsStr.ofChars "--".toList] ++ existing.map OsStr.ofChars

/-- The end of a local backup, once `tar` has run. -/
def reportLocal (archive : OsStr) (log : Str) (out : Output) : Option BackupReport :=
  match truncate (logStderr (logStdout log out) "--- stderr ---\n".toList out) logCap with
  | none => none
  | some log =>
    if !out.success then failed log (.tarExit out.code)
    else
      let bytes := (host.metadataLen archive).getD 0
      let shown := OsStr.display archive
      let line := "wrote ".toList ++ shown ++ " (".toList ++ Text.decimal bytes ++
        " bytes)\n".toList
      (truncate (log ++ line) logCap).map fun log => ⟨true, shown, bytes, log, none⟩

def backupLocal (dir : OsStr) (archive : Str) (existing : List Str) (log : Str) : BackupRun :=
  match host.createDirAll dir with
  | .error e => ⟨[⟨host.files, dir⟩], none, failed log (.mkdir dir e)⟩
  | .ok after =>
    let path := Path.join dir (OsStr.ofChars archive)
    let report :=
      match host.tar (tarCreateArgs path existing) with
      | .error e => failed log (.spawnTar e)
      | .ok out => reportLocal host path log out
    ⟨[⟨host.files, dir⟩, ⟨after, path⟩], none, report⟩

/-- The upload, once `tar` has filled the tempfile. -/
def reportS3 (bucket key : Str) (tmp : OsStr) (log : Str) (out : Output) :
    Option BackupReport :=
  match truncate (logStderr log tarStderr out) logCap with
  | none => none
  | some log =>
    if !out.success then failed log (.tarExit out.code)
    else
      let uri := "s3://".toList ++ bucket ++ ['/'] ++ key
      let localBytes := (host.metadataLen tmp).getD 0
      let (line, upload) :=
        if localBytes ≥ multipartThreshold then
          ("uploading ".toList ++ Text.decimal localBytes ++ " bytes via multipart (".toList ++
            Text.decimal multipartChunk ++ "-byte chunks)\n".toList,
            host.s3MultipartUpload bucket key tmp)
        else
          ("uploading ".toList ++ Text.decimal localBytes ++ " bytes via PutObject\n".toList,
            host.s3PutObject bucket key tmp)
      match upload with
      | .ok uploaded =>
        let line' := "wrote ".toList ++ uri ++ " (".toList ++ Text.decimal uploaded ++
          " bytes)\n".toList
        (truncate (log ++ line ++ line') logCap).map fun log => ⟨true, uri, uploaded, log, none⟩
      | .error e => (truncate (log ++ line) logCap).bind fun log => failed log (.upload e)

def backupS3 (bucket keyPrefix archive : Str) (existing : List Str) (log : Str) : BackupRun :=
  let key := if keyPrefix = [] then archive else keyPrefix ++ ['/'] ++ archive
  match host.tempfile with
  | .error e => ⟨[], none, failed log (.tempfile e)⟩
  | .ok tmp =>
    let report :=
      match host.tar (tarCreateArgs tmp existing) with
      | .error e => failed log (.spawnTar e)
      | .ok out => reportS3 host bucket key tmp log out
    ⟨[], some tmp, report⟩

def runBackup (name : Str) (paths : List Str) (dest : Str) (mode : BackupMode) : BackupRun :=
  if mode = .restic then refused .resticNotImplemented
  else
    match parseDest dest with
    | .error e => refused e
    | .ok parsed =>
      if paths = [] then refused .pathsEmpty
      else
        let existing := paths.filter fun p => host.files.pathExists (OsStr.ofChars p)
        if existing = [] then refused .noPathsExist
        else
          let bad := outsideSources host existing
          if bad ≠ [] then refused (.pathsOutside bad)
          else
            let log := skippedLog host paths
            match parsed with
            | .localDir dir => backupLocal host dir (archiveName host name) existing log
            | .s3 bucket keyPrefix =>
              backupS3 host bucket keyPrefix (archiveName host name) existing log

/-! ## `restore` -/

structure RestoreReport where
  success : Bool
  log : Str
  error : Option BackupError

/-- `piped` is what was fully written to `tar`, chunk by chunk. -/
structure RestoreRun where
  writes : List Write
  piped : List Bytes
  killed : Bool
  report : Option RestoreReport

def restoreFailed (log : Str) (e : BackupError) : Option RestoreReport := some ⟨false, log, some e⟩

def tarExtractArgs (archive : OsStr) (dest : Str) : List OsStr :=
  [OsStr.ofChars "-xzf".toList, archive, OsStr.ofChars "-C".toList, OsStr.ofChars dest] ++
    ["--no-absolute-names", "--exclude=../*", "--exclude=*/../*", "--no-same-owner",
      "--no-same-permissions"].map (OsStr.ofChars ∘ String.toList)

/-- The body of the object into `tar`, from chunk number `i` on and with `total`
bytes already seen. -/
def pump (maxBytes : Nat) (write : Nat → Option Str) :
    Nat → Nat → List (Except Str Bytes) → List Bytes × Option BackupError
  | _, _, [] => ([], none)
  | _, _, .error e :: _ => ([], some (.s3Body e))
  | i, total, .ok chunk :: body =>
      let total := min (total + chunk.length) (UInt64.size - 1)
      if total > maxBytes then ([], some (.bodyTooLong maxBytes))
      else
        match write i with
        | some e => ([], some (.tarStdin e))
        | none =>
          let (piped, e) := pump maxBytes write (i + 1) total body
          (chunk :: piped, e)

def reportRestored (restored dest log : Str) (out : Output) : Option RestoreReport :=
  match truncate (logStderr log tarStderr out) logCap with
  | none => none
  | some log =>
    if !out.success then restoreFailed log (.tarExit out.code)
    else
      let line := "restored ".toList ++ restored ++ " into ".toList ++ dest ++ ['\n']
      (truncate (log ++ line) logCap).map fun log => ⟨true, log, none⟩

def restoreS3 (after : HostFiles) (rest dest : Str) : RestoreRun :=
  let made := host.dirsMade (OsStr.ofChars dest)
  let (bucket, key) := Text.splitTwo '/' rest
  if bucket = [] ∨ key = [] then ⟨made, [], false, restoreFailed [] (.malformedUri rest)⟩
  else
    match host.s3GetObject bucket key with
    | .error e => ⟨made, [], false, restoreFailed [] (.getObject e)⟩
    | .ok body =>
      let writes := made ++ [⟨after, OsStr.ofChars dest⟩]
      match host.tarPiped (tarExtractArgs (OsStr.ofChars ['-']) dest) with
      | .error e => ⟨writes, [], false, restoreFailed [] (.spawnTar e)⟩
      | .ok child =>
        match pump (s3RestoreMaxBytes host.vars) child.write 0 0 body with
        | (piped, some e) => ⟨writes, piped, true, restoreFailed [] e⟩
        | (piped, none) =>
          match child.wait with
          | .error e => ⟨writes, piped, false, restoreFailed [] (.tarWait e)⟩
          | .ok out =>
            let uri := "s3://".toList ++ bucket ++ ['/'] ++ key
            ⟨writes, piped, false, reportRestored uri dest [] out⟩

def restoreLocal (after : HostFiles) (archiveUri dest : Str) : RestoreRun :=
  let made := host.dirsMade (OsStr.ofChars dest)
  let archive := (Text.stripStart "file://".toList archiveUri).getD archiveUri
  if !after.isFile (OsStr.ofChars archive) then
    ⟨made, [], false, restoreFailed [] (.archiveNotFound archive)⟩
  else
    let report :=
      match host.tar (tarExtractArgs (OsStr.ofChars archive) dest) with
      | .error e => restoreFailed [] (.spawnTar e)
      | .ok out => reportRestored archive dest (logStdout [] out) out
    ⟨made ++ [⟨after, OsStr.ofChars dest⟩], [], false, report⟩

/-- Whether the allow-list, if there is one, lets a restore into `dest` through. -/
def destAllowed (dest : Str) : Bool :=
  match backupRoots host.vars with
  | none => true
  | some roots => withinRoots host.files (OsStr.ofChars dest) roots

def restore (archiveUri destRoot : Str) : RestoreRun :=
  let dest := Text.trim destRoot
  if dest = [] then ⟨[], [], false, restoreFailed [] .destRootEmpty⟩
  else if !destAllowed host dest then ⟨[], [], false, restoreFailed [] (.destRootOutside dest)⟩
  else
    match host.createDirAll (OsStr.ofChars dest) with
    | .error e =>
      ⟨host.dirsMade (OsStr.ofChars dest), [], false,
        restoreFailed [] (.mkdir (OsStr.ofChars dest) e)⟩
    | .ok after =>
      match Text.stripStart "s3://".toList archiveUri with
      | some rest => restoreS3 host after rest dest
      | none => restoreLocal host after archiveUri dest

end ShellfleetAgent.Agent.Backup
