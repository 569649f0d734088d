import Mathlib.Data.Char
import Mathlib.Data.List.Lex
import ShellfleetAgent.Agent.K8sApply
import ShellfleetAgent.Agent.Reporters
import ShellfleetAgent.Lib.BTreeMap
import ShellfleetAgent.Lib.Host
import ShellfleetAgent.Lib.Lines
import ShellfleetAgent.Lib.Pool

/-!
# What a probe does

`health.rs` below `HealthProbes::sync`: the task of a probe with its calls of the network,
of the file system and of the clock. `Agent/Reporters` has the same loop with the outcome of
a run as its input; here the outcome comes from the calls. A body is read chunk by chunk,
and each chunk is a turn of the loop.
-/

namespace ShellfleetAgent.Agent.ProbeRuns

open ShellfleetAgent.Lib
open Reporters (Sample carriedState healthProbeReport)
open Streams (HealthProbeKind HealthProbeSpec)

def httpBodyCap : Nat := 1048576

def appendBodyChunk (body chunk : Bytes) : Except Unit Bytes :=
  if httpBodyCap < body.length + chunk.length then .error () else .ok (body ++ chunk)

def probesDir : OsStr := os "/etc/shellfleet/probes.d"

/-! ## Calls -/

/-- A child with nothing of the agent's environment. -/
structure ProbeProcess where
  program : OsStr
  env : BTreeMap Str Str

inductive GetError
  | build (e : Str)
  | connect (e : Str)

/-- How something ended that was given a time limit. -/
inductive Timed (α : Type)
  | done (a : α)
  | failed (e : Str)
  | timeout

/-- The client of `get` follows no redirect, and its timeout is for the body as well. -/
inductive ProbeCall
  | sleep (millis : Nat)
  | get (target : Str) (timeoutSecs : Nat)
  | nextChunk
  | connect (target : Str) (timeoutSecs : Nat)
  | isFile (path : OsStr)
  | spawn (process : ProbeProcess)
  | waitWithOutput (timeoutSecs : Nat)
  | elapsed
  | nowUnix
  | send (message : Message)

/-- The answer to `get` is the status, the end of a body is no chunk. -/
abbrev ProbeCall.Answer : ProbeCall → Type
  | .sleep _ => Unit
  | .get .. => Except GetError Nat
  | .nextChunk => Option (Except Str Bytes)
  | .connect .. => Timed Unit
  | .isFile _ => Bool
  | .spawn _ => Except Str Unit
  | .waitWithOutput _ => Timed Output
  | .elapsed => Nat
  | .nowUnix => Int
  | .send _ => Except OutgoingSendError Unit

abbrev ProbeM := Prog ProbeCall ProbeCall.Answer

def ask (c : ProbeCall) : ProbeM c.Answer := Prog.perform c

abbrev Verdict := HealthProbeState × Str

def red (detail : Str) : Verdict := (.red, detail)

def green (detail : Str) : Verdict := (.green, detail)

/-- `{:?}`. -/
def debug (s : Str) : Str := (K8sApply.debug (String.ofList s)).toList

/-! ## HTTP -/

/-- The timeout in seconds. -/
def timeout (spec : HealthProbeSpec) : Nat := max spec.timeoutSecs 1

def statusOk (spec : HealthProbeSpec) (status : Nat) : Bool :=
  match spec.expectStatus with
  | some want => status = want
  | none => 200 ≤ status ∧ status < 300

def okStatus (status : Nat) : Verdict := green ("ok (".toList ++ Text.decimal status ++ [')'])

/-- `probe_http` before it reads a body: the status and what the body should have in it, if
it is to be read. -/
def probeHttp (spec : HealthProbeSpec) : ProbeM ((Nat × Str) ⊕ Verdict) := do
  match ← ask (.get spec.target (timeout spec)) with
  | .error (.build e) => return .inr (red ("client build: ".toList ++ e))
  | .error (.connect e) => return .inr (red ("connect: ".toList ++ e))
  | .ok status =>
    if statusOk spec status then
      match spec.expectBody with
      | some wantBody => return .inl (status, wantBody)
      | none => return .inr (okStatus status)
    else return .inr (red ("unexpected status ".toList ++ Text.decimal status))

/-- What is said of a body once it is there. -/
def judgeBody (status : Nat) (wantBody : Str) (bytes : Bytes) : Verdict :=
  if Text.contains (Text.fromUtf8Lossy bytes) wantBody then okStatus status
  else red ("body missing ".toList ++ debug wantBody ++ " (status ".toList ++
    Text.decimal status ++ [')'])

/-- One turn of the loop that reads it. -/
def readChunk (status : Nat) (wantBody : Str) (bytes : Bytes) : ProbeM (Bytes ⊕ Verdict) := do
  match ← ask .nextChunk with
  | none => return .inr (judgeBody status wantBody bytes)
  | some (.error e) => return .inr (red ("read body: ".toList ++ e))
  | some (.ok chunk) =>
    match appendBodyChunk bytes chunk with
    | .ok bytes => return .inl bytes
    | .error () => return .inr (red ("response body exceeds ".toList ++
        Text.decimal httpBodyCap ++ " bytes".toList))

/-! ## TCP -/

def timedOut (spec : HealthProbeSpec) : Verdict :=
  red ("timeout after ".toList ++ Text.decimal (timeout spec) ++ ['s'])

def probeTcp (spec : HealthProbeSpec) : ProbeM Verdict := do
  match ← ask (.connect spec.target (timeout spec)) with
  | .done _ => return green "ok".toList
  | .failed e => return red ("connect: ".toList ++ e)
  | .timeout => return timedOut spec

/-! ## Scripts -/

def blockedEnvKeys : List Str :=
  ["PATH", "BASH_ENV", "ENV", "CDPATH", "GLOBIGNORE", "SHELLOPTS", "BASHOPTS", "PYTHONHOME",
    "PYTHONPATH", "PYTHONSTARTUP", "PERL5LIB", "PERL5OPT", "RUBYLIB", "RUBYOPT",
    "NODE_OPTIONS", "JAVA_TOOL_OPTIONS", "JDK_JAVA_OPTIONS"].map String.toList

/-- Of letters, digits and underscores, and with no digit in front. -/
def envKeyChars (key : Str) : Bool :=
  key ≠ [] && key.zipIdx.all fun (c, i) =>
    (c = '_' || c.isAlphanum) && (i ≠ 0 || c = '_' || c.isAlpha)

def isSafeProbeEnvKey (key : Str) : Bool :=
  envKeyChars key && !blockedEnvKeys.elem key && !"LD_".toList.isPrefixOf key &&
    !"DYLD_".toList.isPrefixOf key

def probePath : Str := "/usr/local/sbin:/usr/local/bin:/usr/sbin:/usr/bin:/sbin:/bin".toList

/-- `split_once('=')`. -/
def splitEnv (kv : Str) : Option (Str × Str) :=
  if kv.elem '=' then some (Text.splitTwo '=' kv) else none

/-- The variables that are passed on. -/
def probeEnv (env : List Str) : BTreeMap Str Str :=
  (BTreeMap.empty.insert "PATH".toList probePath).extend
    ((env.filterMap splitEnv).filter fun e => isSafeProbeEnvKey e.1)

/-- Something that would be no file name. -/
def invalidTarget (target : Str) : Bool :=
  target = [] || target.elem '/' || target.elem '\\' || Text.contains target "..".toList

def firstLine (stdout : Str) : Str :=
  (((Text.lines stdout).find? fun l => Text.trim l ≠ []).getD []).take 200

/-- The exit code, `-1` if there is none. -/
def exitText (out : Output) (line : Str) : Str :=
  "exit ".toList ++ Text.decimalInt (out.code.getD (-1)) ++ [' '] ++ line

def judgeExit (out : Output) : Verdict :=
  let first := firstLine (Text.fromUtf8Lossy out.stdout)
  if out.success then green (if first = [] then "ok".toList else first)
  else if first ≠ [] then red (exitText out first)
  else
    let line := ((Text.lines (Text.fromUtf8Lossy out.stderr)).head?).getD []
    red (exitText out (line.take 200))

def probeExec (spec : HealthProbeSpec) : ProbeM Verdict := do
  let target := Text.trim spec.target
  if invalidTarget target then
    return red ("invalid exec target ".toList ++ debug target ++
      " (must be a filename in /etc/shellfleet/probes.d/)".toList)
  else
    let path := Path.join probesDir (OsStr.ofChars target)
    match ← ask (.isFile path) with
    | false => return red ("script not found: ".toList ++ OsStr.display path)
    | true =>
      match ← ask (.spawn ⟨path, probeEnv spec.env⟩) with
      | .error e => return red ("spawn: ".toList ++ e)
      | .ok () =>
        match ← ask (.waitWithOutput (timeout spec)) with
        | .done out => return judgeExit out
        | .failed e => return red ("wait: ".toList ++ e)
        | .timeout => return timedOut spec

/-! ## The task -/

/-- A run of the probe, up to a body that is to be read. -/
def probeOnce (spec : HealthProbeSpec) : ProbeM ((Nat × Str) ⊕ Verdict) :=
  match spec.kind with
  | .http => probeHttp spec
  | .tcp => do return .inr (← probeTcp spec)
  | .exec => do return .inr (← probeExec spec)

/-- Where the loop is: before a run, or reading a body. -/
inductive ProbeLoop
  | round (spec : HealthProbeSpec) (lastState : Option HealthProbeState)
  | body (spec : HealthProbeSpec) (lastState : Option HealthProbeState) (status : Nat)
      (wantBody : Str) (bytes : Bytes)

/-- The delay before the first run, in milliseconds. -/
def jitter (id : Str) : Nat :=
  (Text.toUtf8 id).foldl (fun a b => (a + b.toNat) % UInt64.size) 0 % 5000

/-- The delay between runs. -/
def interval (spec : HealthProbeSpec) : Nat := 1000 * max spec.intervalSecs 1

/-- A report is sent when the state has changed, and first of all. -/
def tell (spec : HealthProbeSpec) (lastState : Option HealthProbeState) (verdict : Verdict)
    (elapsedMs : Nat) : ProbeM Unit :=
  if lastState = some verdict.1 then return ()
  else do
    let now ← ask .nowUnix
    let _ ← ask (.send (healthProbeReport spec ⟨verdict.1, verdict.2, elapsedMs, now⟩))
    return ()

/-- What follows a run. -/
def conclude (spec : HealthProbeSpec) (lastState : Option HealthProbeState)
    (verdict : Verdict) : ProbeM ProbeLoop := do
  let elapsedMs ← ask .elapsed
  tell spec lastState verdict elapsedMs
  ask (.sleep (interval spec))
  return .round spec (some verdict.1)

def runProbe : Code ProbeCall ProbeCall.Answer HealthProbeSpec ProbeLoop Empty where
  start spec := do
    ask (.sleep (jitter spec.id))
    return .inl (.round spec none)
  again
    | .round spec lastState => do
      match ← probeOnce spec with
      | .inl (status, wantBody) => return .inl (.body spec lastState status wantBody [])
      | .inr verdict => return .inl (← conclude spec lastState verdict)
    | .body spec lastState status wantBody bytes => do
      match ← readChunk status wantBody bytes with
      | .inl bytes => return .inl (.body spec lastState status wantBody bytes)
      | .inr verdict => return .inl (← conclude spec lastState verdict)

/-! ## The host -/

/-- The file tree, and all that it has been before. -/
structure ProbeHost where
  files : HostFiles
  earlier : List HostFiles

def ProbeHost.Had (w : ProbeHost) (files : HostFiles) : Prop :=
  files = w.files ∨ files ∈ w.earlier

/-- The tree answers for its files; the rest of the world answers as it likes, and changes
the tree as it likes. -/
def probeHost : Host ProbeCall ProbeCall.Answer HealthProbeSpec ProbeHost
    ((c : ProbeCall) → c.Answer) HostFiles where
  init w := w.earlier = []
  exec w _ c ch :=
    match c with
    | .isFile path => some (w, w.files.isFile path)
    | c => some (w, ch c)
  spawn w _ _ := some w
  kill w _ := w
  env w files := some ⟨files, w.files :: w.earlier⟩

abbrev ProbeState :=
  Pool.State ProbeCall ProbeCall.Answer HealthProbeSpec ProbeLoop Empty ProbeHost

/-- Any number of probe tasks, started and aborted at any time. -/
abbrev probePool : Machine ProbeState
    (Pool.Label HealthProbeSpec ((c : ProbeCall) → c.Answer) HostFiles) :=
  pool runProbe probeHost

end ShellfleetAgent.Agent.ProbeRuns
