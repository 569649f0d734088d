import ShellfleetAgent.Lib.Bytes
import ShellfleetAgent.Lib.Text

/-!
# Credentials

`main.rs` from the device pairing to the WebSocket: three files, one for the access
token, one for the refresh token and one for the access token's expiry, and who
presents which token to the server. What the host and the server answer is given,
call by call, in `StartAnswers`.

Every token goes with its origin, which no decision looks at.
-/

namespace ShellfleetAgent.Agent.Credentials

open ShellfleetAgent.Lib

/-- Whether a token was on disk before the start, or stems from its pairing. -/
inductive Origin
  | stored
  | paired
  deriving DecidableEq

structure Token where
  text : Str
  origin : Origin
  deriving DecidableEq

/-! ## The files -/

inductive SecretPath
  | token
  | refreshToken
  | tokenExpiry
  deriving DecidableEq

/-- What is at a path. A link, and whatever is not a regular file, is `refused`. -/
inductive SecretFile
  | missing
  | refused
  | regular (contents : Bytes)
  deriving DecidableEq

structure Stored where
  file : SecretFile
  origin : Origin

abbrev Disk := SecretPath → Stored

def secretFileCap : Nat := 16 * 1024

def readSecretFile : SecretFile → Option Str
  | .regular contents => Text.fromUtf8 (contents.take secretFileCap)
  | .missing | .refused => none

/-- What `read_token` and `read_refresh_token` do. -/
def readTrimmed (stored : Stored) : Option Token :=
  ((readSecretFile stored.file).map Text.trim).filter (· ≠ []) |>.map (⟨·, stored.origin⟩)

def readToken (disk : Disk) : Option Token := readTrimmed (disk .token)

def readRefreshToken (disk : Disk) : Option Token := readTrimmed (disk .refreshToken)

def readTokenExpiry (disk : Disk) : Option Int :=
  (readSecretFile (disk .tokenExpiry).file).bind fun s => Text.parseI64 (Text.trim s)

/-- How far a write gets: `open` may fail, and of the contents the first `n` bytes
may have been written when `write_all` does. -/
inductive WriteOutcome
  | notOpened
  | opened (n : Nat)
  deriving DecidableEq

def writeSecretFile (stored : Stored) (contents : Str) (origin : Origin) :
    WriteOutcome → Stored
  | .notOpened => stored
  | .opened n =>
      match stored.file with
      | .refused => stored
      | .missing | .regular _ => ⟨.regular ((Text.toUtf8 contents).take n), origin⟩

/-! ## The server -/

/-- `DeviceTokenResponse::Token`. -/
structure DeviceToken where
  accessToken : Str
  refreshToken : Option Str
  expiresIn : Option Int
  deriving DecidableEq

inductive DeviceTokenResponse
  | token (t : DeviceToken)
  | error (error : Str)
  deriving DecidableEq

/-- How the three writes go, and the clock at the third. -/
structure PersistAnswers where
  token : WriteOutcome
  refreshToken : WriteOutcome
  now : Int
  tokenExpiry : WriteOutcome

def persistTokenTriple (disk : Disk) (x : PersistAnswers) (t : DeviceToken) (origin : Origin) :
    Disk :=
  fun
  | .token => writeSecretFile (disk .token) t.accessToken origin x.token
  | .refreshToken =>
      match t.refreshToken with
      | some refresh => writeSecretFile (disk .refreshToken) refresh origin x.refreshToken
      | none => disk .refreshToken
  | .tokenExpiry =>
      match t.expiresIn with
      | some expiresIn =>
        let expiry := Text.saturateI64 (x.now + expiresIn)
        writeSecretFile (disk .tokenExpiry) (Text.decimalInt expiry) origin x.tokenExpiry
      | none => disk .tokenExpiry

/-- The loop of `pair`: nothing for a poll that brings no response. -/
inductive Pairing
  | authorized (t : DeviceToken)
  | failed (error : Str)
  | pending
  deriving DecidableEq

def pair : List (Option DeviceTokenResponse) → Pairing
  | [] => .pending
  | none :: polls => pair polls
  | some (.token t) :: _ => .authorized t
  | some (.error error) :: polls =>
      if error ≠ "authorization_pending".toList then .failed error else pair polls

/-- What the agent presents to the server. -/
inductive Presented
  | refresh (token : Token)
  | bearer (token : Token)
  deriving DecidableEq

def Presented.token : Presented → Token
  | .refresh token => token
  | .bearer token => token

structure World where
  disk : Disk
  presented : List Presented

/-- Nothing is left of a reply that is not a response, or not a success. -/
structure RefreshAnswers where
  reply : Option DeviceTokenResponse
  persist : PersistAnswers

/-- What a refresh brings stems from what the refresh token does. -/
def refreshTokenPair (w : World) (x : RefreshAnswers) (refresh : Token) :
    World × Option Token :=
  let presented := w.presented ++ [Presented.refresh refresh]
  match x.reply with
  | some (.token t) =>
    (⟨persistTokenTriple w.disk x.persist t refresh.origin, presented⟩,
      some ⟨t.accessToken, refresh.origin⟩)
  | some (.error _) | none => (⟨w.disk, presented⟩, none)

/-! ## `main` -/

def refreshProactiveSecs : Int := 300

/-- The subtraction wraps. -/
def stale (disk : Disk) (now : Int) : Bool :=
  match readTokenExpiry disk with
  | none => true
  | some e => (e - now).bmod (2 ^ 64) < refreshProactiveSecs

inductive Handshake
  | connected
  | failed
  | timedOut
  deriving DecidableEq

structure StartAnswers where
  polls : List (Option DeviceTokenResponse)
  paired : PersistAnswers
  now : Int
  proactive : RefreshAnswers
  /-- `into_client_request` takes the URL, and a header the bearer token. -/
  requestBuilt : Bool
  bearerEncodes : Str → Bool
  first : Handshake
  reactive : RefreshAnswers
  second : Handshake

variable (x : StartAnswers)

/-- The refresh before the first connect. -/
def refreshProactively (w : World) (token : Token) : World × Token :=
  match readRefreshToken w.disk with
  | none => (w, token)
  | some refresh =>
    if stale w.disk x.now then
      let (w, newToken) := refreshTokenPair w x.proactive refresh
      (w, newToken.getD token)
    else (w, token)

/-- One handshake; nothing if `main` exits before it. -/
def attempt (w : World) (token : Token) (answer : Handshake) : World × Option Handshake :=
  if x.requestBuilt && x.bearerEncodes token.text then
    (⟨w.disk, w.presented ++ [Presented.bearer token]⟩, some answer)
  else (w, none)

/-- The `'connect` loop; nothing if `main` exits. -/
def connect (w : World) (token : Token) : World × Option Token :=
  match attempt x w token x.first with
  | (w, some .connected) => (w, some token)
  | (w, some .timedOut) => (w, none)
  | (w, none) => (w, none)
  | (w, some .failed) =>
    match readRefreshToken w.disk with
    | none => (w, none)
    | some refresh =>
      match refreshTokenPair w x.reactive refresh with
      | (w, none) => (w, none)
      | (w, some newToken) =>
        match attempt x w newToken x.second with
        | (w, some .connected) => (w, some newToken)
        | (w, _) => (w, none)

/-- From the token on. -/
def run (disk : Disk) (token : Token) : World × Option Token :=
  let (w, token) := refreshProactively x ⟨disk, []⟩ token
  connect x w token

/-- The disk as the first start finds it. -/
def found (files : SecretPath → SecretFile) : Disk := fun path => ⟨files path, .stored⟩

/-- What pairing leaves on the disk. -/
def afterPairing (disk : Disk) (t : DeviceToken) : Disk :=
  persistTokenTriple disk x.paired t .paired

/-- A start, with `--pair` or without. -/
def start (disk : Disk) (isPair : Bool) : World × Option Token :=
  if isPair then
    match pair x.polls with
    | .authorized t => run x (afterPairing x disk t) ⟨t.accessToken, .paired⟩
    | .failed _ | .pending => (⟨disk, []⟩, none)
  else
    match readToken disk with
    | some token => run x disk token
    | none => (⟨disk, []⟩, none)

/-- Starts without `--pair`, one after the other, and all that is presented in them. -/
def restarts (disk : Disk) : List StartAnswers → World
  | [] => ⟨disk, []⟩
  | y :: ys =>
    let w := (start y disk false).1
    let later := restarts w.disk ys
    ⟨later.disk, w.presented ++ later.presented⟩

end ShellfleetAgent.Agent.Credentials
