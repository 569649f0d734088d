import ShellfleetAgent.Lib.Host
import ShellfleetAgent.Lib.Text

/-!
# The config-file guard

`config.rs`: which paths the agent reads and writes for the server. `check` is
lexical, on strings; `check_read` and `check_write` resolve links through the
host's file tree and look again. `read_no_follow` reads what `check_read` has let pass,
up to a limit.
-/

namespace ShellfleetAgent.Agent.Config

open ShellfleetAgent.Lib

def allowPrefixes : List Str :=
  ["/etc/", "/opt/", "/usr/local/etc/", "/srv/", "/home/", "/var/log/"].map String.toList

def denyPrefixes : List Str :=
  ["/etc/shadow", "/etc/gshadow", "/etc/sudoers", "/etc/ssh/", "/etc/letsencrypt/",
    "/etc/ssl/private/", "/etc/kubernetes/", "/etc/shellfleet/agent-token", "/root/",
    "/home/.ssh/", "/proc/", "/sys/", "/dev/"].map String.toList

def credentialDirs : List Str := [".ssh", ".aws", ".kube", ".gnupg"].map String.toList

def dockerConfig : Str := "/.docker/config.json".toList

/-- `str::to_ascii_lowercase`. -/
def lowercase (s : Str) : Str := s.map Char.toLower

/-- Why a path is denied, if it is. -/
def deniedPath (path : Str) : Option Str :=
  match denyPrefixes.find? (·.isPrefixOf path) with
  | some deny => some deny
  | none =>
    match (path.splitOn '/').find? (credentialDirs.contains ·) with
    | some component => some ("any ".toList ++ component ++ " directory".toList)
    | none =>
      if (path.splitOn '/').contains ".netrc".toList then some "any .netrc file".toList
      else if dockerConfig.isSuffixOf path then some "any .docker/config.json file".toList
      else none

def allowed (path : Str) : Bool := allowPrefixes.any (·.isPrefixOf path)

inductive PathError
  | notAbsolute
  | blockedByDenyList (reason : Str)
  | outsideAllowList
  | invalidUtf8
  | empty
  | resolveFailed
  deriving DecidableEq

/-- The text of an error; `osError` is the host's, where the path was not found. -/
def PathError.text (osError : Str) : PathError → Str
  | .notAbsolute => "path must be absolute".toList
  | .blockedByDenyList reason => "path matches deny-list: ".toList ++ reason
  | .outsideAllowList =>
      ("path is outside the allowed config-file locations " ++
        "(/etc, /opt, /usr/local/etc, /srv, /home, /var/log)").toList
  | .invalidUtf8 => "path is not valid UTF-8".toList
  | .empty => "path is empty".toList
  | .resolveFailed => "path resolve failed: ".toList ++ osError

/-- The segments of a path with `.` dropped and `..` applied to its spelling. -/
def normalSegments (path : Str) : List Str :=
  ((path.splitOn '/').filter fun s => s ≠ [] ∧ s ≠ ['.']).foldl
    (fun stack s => if s = ['.', '.'] then stack.dropLast else stack ++ [s]) []

/-- The normalised string; a slash at the end stays. -/
def normalPath (path : Str) : Str :=
  let stack := normalSegments path
  ['/'] ++ ['/'].intercalate stack ++
    (if path.getLast? = some '/' ∧ stack ≠ [] then ['/'] else [])

def check (path : Str) : Except PathError Str :=
  if path = [] then .error .empty
  else if path.head? ≠ some '/' then .error .notAbsolute
  else if Char.ofNat 0 ∈ path then .error .invalidUtf8
  else
    let s := normalPath path
    let lower := lowercase s
    match deniedPath lower with
    | some reason => .error (.blockedByDenyList reason)
    | none => if allowed lower then .ok s else .error .outsideAllowList

/-- The policy once more, on what the file tree made of the path. -/
def recheck (canonical note : Str) : Except PathError Unit :=
  match deniedPath canonical with
  | some reason => .error (.blockedByDenyList (reason ++ note))
  | none => if allowed canonical then .ok () else .error .outsideAllowList

variable (h : HostFiles)

def checkRead (path : Str) : Except PathError OsStr :=
  match check path with
  | .error e => .error e
  | .ok lex =>
    match h.canonicalize (OsStr.ofChars lex) with
    | none => .error .resolveFailed
    | some loc =>
      let canonical := Path.ofLocation loc
      match OsStr.toChars canonical with
      | none => .error .invalidUtf8
      | some s =>
        match recheck (lowercase s) (" (resolved from ".toList ++ path ++ ")".toList) with
        | .error e => .error e
        | .ok () => .ok canonical

/-- The resolved parent directory as the policy sees it. -/
def parentString (s : Str) : Str :=
  let lower := lowercase s
  if lower.getLast? = some '/' then lower else lower ++ ['/']

/-- The canonical parent directory and the name to open in it. -/
def checkWrite (path : Str) : Except PathError (OsStr × OsStr) :=
  match check path with
  | .error e => .error e
  | .ok lex =>
    match Path.parent (OsStr.ofChars lex), Path.fileName (OsStr.ofChars lex) with
    | some parent, some fileName =>
      match h.canonicalize parent with
      | none => .error .resolveFailed
      | some loc =>
        let canonical := Path.ofLocation loc
        match OsStr.toChars canonical with
        | none => .error .invalidUtf8
        | some s =>
          match recheck (parentString s)
              (" (parent resolved from ".toList ++ path ++ ")".toList) with
          | .error e => .error e
          | .ok () => .ok (canonical, fileName)
    | _, _ => .error .outsideAllowList

/-! ## The read -/

/-- What opening the path without following a link gives: whether it is a regular file,
and what reading it gives. The errors are the host's. -/
structure ConfigFile where
  isFile : Except Str Bool
  content : Except Str Bytes

/-- One byte more than the limit is read, to see whether there is one. `utf8Error` is
the text of a `FromUtf8Error`. -/
def readNoFollow (utf8Error : Bytes → Str) (opened : Except Str ConfigFile) (maxBytes : Nat) :
    Except Str Str := do
  let file ← opened
  let isFile ← file.isFile
  if !isFile then throw "config path is not a regular file".toList
  let content ← file.content
  let bytes := content.take (maxBytes + 1)
  if maxBytes < bytes.length then
    throw ("config exceeds ".toList ++ Text.decimal maxBytes ++ "-byte response limit".toList)
  match Text.fromUtf8 bytes with
  | some value => return value
  | none => throw (utf8Error bytes)

/-- What `write_no_follow` opens. -/
def writeTarget (parent fileName : OsStr) : OsStr := Path.join parent fileName

end ShellfleetAgent.Agent.Config
