import ShellfleetAgent.Agent.Config
import ShellfleetAgent.Agent.Docker
import ShellfleetAgent.Agent.Exec
import ShellfleetAgent.Lib.JsonText
import ShellfleetAgent.Privileged.Delivery

/-!
# Responses with a payload

The three responses of `main.rs` that carry what was read under the cap of
`MAX_OUTPUT_BYTES`: the output of a command, a config file, and a docker network. Each
goes out as one WebSocket message, as the JSON that `serde` derives for it.
-/

namespace ShellfleetAgent.Agent.Responses

open ShellfleetAgent.Lib Exec Privileged

inductive Response
  | runCommand (requestId : Str) (result : ExecResult)
  | readConfig (path content : Str) (error : Option Str)
  | dockerNetworkInspect (id : Str) (success : Bool) (json : Str) (error : Option Str)
  deriving DecidableEq

/-! ## Where they come from -/

variable (h : HostFiles) (osError : Str) (utf8Error : Bytes → Str)
  (opened : OsStr → Except Str Config.ConfigFile)

/-- `ReadConfigRequest`. -/
def handleReadConfig (path : Str) : Response :=
  match Config.checkRead h path with
  | .error e => .readConfig path [] (some (e.text osError))
  | .ok safePath =>
    match Config.readNoFollow utf8Error (opened safePath) maxOutputBytes with
    | .ok content => .readConfig path content none
    | .error e => .readConfig path [] (some e)

/-- `docker::inspect_network`, with the output of the process that it spawns. -/
def inspectNetwork (id : Str) (output : Except Str Output) : Bool × Str × Option Str :=
  match Docker.inspectNetwork id, output with
  | .error error, _ => (false, [], some error.toList)
  | .ok _, .error e => (false, [], some ("spawn: ".toList ++ e))
  | .ok _, .ok output =>
    let stdout := Text.fromUtf8Lossy output.stdout
    let stderr := Text.trim (Text.fromUtf8Lossy output.stderr)
    if output.success ∧ maxOutputBytes < Text.utf8Len stdout then
      (false, [], some ("network inspect response exceeds ".toList ++
        Text.decimal maxOutputBytes ++ "-byte limit".toList))
    else if output.success then (true, stdout, none)
    else (false, stdout, some stderr)

/-- `DockerNetworkInspectRequest`. -/
def handleDockerNetworkInspect (id : Str) (output : Except Str Output) : Response :=
  let (success, json, error) := inspectNetwork id output
  .dockerNetworkInspect id success json error

/-! ## Their JSON -/

namespace Response

inductive Kind
  | runCommand
  | readConfig
  | dockerNetworkInspect
  deriving DecidableEq

def kind : Response → Kind
  | .runCommand .. => .runCommand
  | .readConfig .. => .readConfig
  | .dockerNetworkInspect .. => .dockerNetworkInspect

def error : Response → Option Str
  | .runCommand _ result => result.error
  | .readConfig _ _ error => error
  | .dockerNetworkInspect _ _ _ error => error

/-- The strings that carry what was read. -/
def payload : Response → List Str
  | .runCommand _ result => [result.stdout, result.stderr]
  | .readConfig _ content _ => [content]
  | .dockerNetworkInspect _ _ json _ => [json]

/-- The values of the other fields, as they are written. -/
def metadata : Response → List Str
  | .runCommand requestId result =>
      [JsonText.quote requestId, Text.decimalInt result.exitCode, JsonText.bool result.truncated,
        JsonText.bool result.timedOut, Text.decimal result.durationMs] ++
        result.error.toList.map JsonText.quote
  | .readConfig path _ error => JsonText.quote path :: error.toList.map JsonText.quote
  | .dockerNetworkInspect id success _ error =>
      [JsonText.quote id, JsonText.bool success] ++ error.toList.map JsonText.quote

def metadataSize (r : Response) : Nat := (r.metadata.map Text.utf8Len).sum

end Response

/-- What is known of `serde_json::to_string` on `shared::Message`, which is not part of
this repository: every field is written once, and what is around the fields depends on
the variant, and on whether there is an error. -/
structure Derived (toString : Response → Str) (around : Response.Kind → Bool → Nat) : Prop where
  size : ∀ r, Text.utf8Len (toString r) = around r.kind r.error.isSome + r.metadataSize +
    (r.payload.map fun s => Text.utf8Len (JsonText.quote s)).sum

/-- The JSON of a response that carries the bytes of `payload` would fit into a message.
A string takes its quotes, the bytes, and what decoding and escaping add to them. -/
def Fits (around : Response.Kind → Bool → Nat) (r : Response) (payload : List Bytes) : Prop :=
  around r.kind r.error.isSome + r.metadataSize +
    (payload.map fun bytes => 2 + JsonText.decodedSize bytes).sum ≤ maxWsMessageBytes

/-- The responses to what was accepted under the cap, with the bytes that they carry. -/
inductive Carries : Response → List Bytes → Prop
  | runCommand (requestId : Str) {s : State} {result : ExecResult} (hr : exec.Reachable s)
      (hfinished : s.phase = .finished result) :
      Carries (.runCommand requestId result)
        [(s.readers .stdout).sent.flatten, (s.readers .stderr).sent.flatten]
  | readConfig {path content : Str} {safePath : OsStr} {file : Config.ConfigFile} {bytes : Bytes}
      (hpath : Config.checkRead h path = .ok safePath) (hopened : opened safePath = .ok file)
      (hbytes : file.content = .ok bytes)
      (hresponse : handleReadConfig h osError utf8Error opened path =
        .readConfig path content none) :
      Carries (.readConfig path content none) [bytes]
  | dockerNetworkInspect {id json : Str} {output : Output}
      (hresponse : handleDockerNetworkInspect id (.ok output) =
        .dockerNetworkInspect id true json none) :
      Carries (.dockerNetworkInspect id true json none) [output.stdout]

end ShellfleetAgent.Agent.Responses
