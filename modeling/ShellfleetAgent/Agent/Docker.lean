import ShellfleetAgent.Agent.Streams
import ShellfleetAgent.Lib.Host
import ShellfleetAgent.Lib.Options

/-!
# The docker command lines

Every `docker` process the agent starts, with the arguments it starts it with:
`docker.rs`, `deploy.rs`, the exec session of `terminal.rs`, `docker logs` of
`logs.rs` and the drift snapshot. A function returns what it spawns, or the
error it gives up with before it spawns anything. What a process has written goes into
a response as `combine_stdout_stderr` makes it.
-/

namespace ShellfleetAgent.Agent.Docker

open ShellfleetAgent.Lib ShellfleetAgent.Lib.Options ShellfleetAgent.Agent.Streams

/-- The command words, the arguments after them, and what is piped in. -/
structure CommandLine where
  words : List String
  args : List Token
  stdin : Option Str := none
deriving DecidableEq

/-! ## `docker.rs` -/

/-- The checks on a reference: its length in bytes, its first character, and all
of them. -/
def validateRef (longest : Nat) (first each : Char → Bool) (badLength invalid : String)
    (value : Str) : Except String Unit :=
  if value = [] ∨ longest < Text.utf8Len value then .error badLength
  else if !value.head?.any first || !value.all each then .error invalid
  else .ok ()

def validateObjectRef : Str → Except String Unit :=
  validateRef 255 Char.isAlphanum (fun c => c.isAlphanum || c ∈ ['.', '_', '-', ':'])
    "docker object reference must be 1..=255 characters" "invalid docker object reference"

def validateImageRef : Str → Except String Unit :=
  validateRef 512 Char.isAlphanum
    (fun c => c.isAlphanum || c ∈ ['.', '_', '-', ':', '/', '@', '+'])
    "docker image reference must be 1..=512 characters" "invalid docker image reference"

def validateNetworkDriver (value : Str) : Except String Unit :=
  (validateObjectRef value).mapError fun _ => "invalid docker network driver"

def isHexDigit (c : Char) : Bool :=
  c.isDigit || ('a' ≤ c && c ≤ 'f') || ('A' ≤ c && c ≤ 'F')

def validateSubnet : Str → Except String Unit :=
  validateRef 128 isHexDigit (fun c => isHexDigit c || c ∈ ['.', ':', '/'])
    "invalid docker network subnet" "invalid docker network subnet"

def jsonFormat : String := "\x7b\x7bjson .\x7d\x7d"

def dockerAvailable : CommandLine :=
  { words := ["version"], args := [own "--format", own "\x7b\x7b.Server.Version\x7d\x7d"] }

def swarmRole : CommandLine := { words := ["info"], args := [own "--format", own jsonFormat] }

def listContainers : CommandLine :=
  { words := ["ps"], args := [own "-a", own "--format", own jsonFormat, own "--no-trunc"] }

def listSwarmServices : CommandLine :=
  { words := ["service", "ls"], args := [own "--format", own jsonFormat] }

inductive DockerContainerAction
  | start
  | stop
  | restart
  | remove

def runContainerAction (id : Str) (action : DockerContainerAction) :
    Except String CommandLine := do
  validateObjectRef id
  return match action with
    | .start => { words := ["start"], args := [given id] }
    | .stop => { words := ["stop"], args := [given id] }
    | .restart => { words := ["restart"], args := [given id] }
    | .remove => { words := ["rm"], args := [own "-f", given id] }

inductive SwarmAction
  | scale (n : Nat)
  | forceUpdate
  | remove

def runSwarmAction (name : Str) (action : SwarmAction) : Except String CommandLine := do
  validateObjectRef name
  return match action with
    | .scale n => { words := ["service", "scale"], args := [given (name ++ '=' :: Text.decimal n)] }
    | .forceUpdate => { words := ["service", "update"], args := [own "--force", given name] }
    | .remove => { words := ["service", "rm"], args := [given name] }

def servicePs (name : Str) : Except String CommandLine := do
  validateObjectRef name
  return { words := ["service", "ps"],
           args := [given name, own "--format", own jsonFormat, own "--no-trunc"] }

def serviceInspect (name : Str) : Except String CommandLine := do
  validateObjectRef name
  return { words := ["service", "inspect"], args := [given name] }

def stackDeploy (stackName composeYaml : Str) (prune : Bool) : Except String CommandLine := do
  validateObjectRef stackName
  return { words := ["stack", "deploy"],
           args := [own "--compose-file", own "-", own "--with-registry-auth"] ++
             (if prune then [own "--prune"] else []) ++ [given stackName],
           stdin := some composeYaml }

def listSwarmNodes : CommandLine :=
  { words := ["node", "ls"], args := [own "--format", own jsonFormat] }

def listImages : CommandLine :=
  { words := ["images"], args := [own "--no-trunc", own "--format", own jsonFormat] }

def removeImage (id : Str) (force : Bool) : Except String CommandLine := do
  validateImageRef id
  return { words := ["rmi"], args := (if force then [own "--force"] else []) ++ [given id] }

def pullImage (reference : Str) : Except String CommandLine := do
  validateImageRef reference
  return { words := ["pull"], args := [given reference] }

def listNetworks : CommandLine :=
  { words := ["network", "ls"], args := [own "--no-trunc", own "--format", own jsonFormat] }

def inspectNetwork (id : Str) : Except String CommandLine := do
  validateObjectRef id
  return { words := ["network", "inspect"], args := [given id] }

def createNetwork (name driver : Str) (subnet : Option Str) (attachable internal : Bool) :
    Except String CommandLine := do
  let subnet := subnet.filter (· ≠ [])
  validateObjectRef name
  validateNetworkDriver driver
  subnet.toList.forM validateSubnet
  return { words := ["network", "create"],
           args := [own "--driver", given driver] ++
             subnet.toList.flatMap (fun s => [own "--subnet", given s]) ++
             (if attachable then [own "--attachable"] else []) ++
             (if internal then [own "--internal"] else []) ++ [given name] }

def removeNetwork (id : Str) : Except String CommandLine := do
  validateObjectRef id
  return { words := ["network", "rm"], args := [given id] }

def listVolumes : CommandLine :=
  { words := ["volume", "ls"], args := [own "--format", own jsonFormat] }

def inspectVolume (name : Str) : Except String CommandLine := do
  validateObjectRef name
  return { words := ["volume", "inspect"], args := [given name] }

def removeVolume (name : Str) (force : Bool) : Except String CommandLine := do
  validateObjectRef name
  return { words := ["volume", "rm"],
           args := (if force then [own "--force"] else []) ++ [given name] }

def pruneVolumes : CommandLine := { words := ["volume", "prune"], args := [own "--force"] }

def listStacks : CommandLine :=
  { words := ["stack", "ls"], args := [own "--format", own jsonFormat] }

def stackServices (name : Str) : Except String CommandLine := do
  validateObjectRef name
  return { words := ["stack", "services"],
           args := [own "--format", own jsonFormat, given name] }

def stackTasks (name : Str) : Except String CommandLine := do
  validateObjectRef name
  return { words := ["stack", "ps"],
           args := [own "--no-trunc", own "--format", own jsonFormat, given name] }

def systemPrunePreview : CommandLine :=
  { words := ["system", "df"], args := [own "-v", own "--format", own jsonFormat] }

def systemPruneApply (pruneVolumes : Bool) : CommandLine :=
  { words := ["system", "prune"],
    args := own "-af" :: if pruneVolumes then [own "--volumes"] else [] }

def containerStats : CommandLine :=
  { words := ["stats"], args := [own "--no-stream", own "--format", own jsonFormat] }

def removeStack (name : Str) : Except String CommandLine := do
  validateObjectRef name
  return { words := ["stack", "rm"], args := [given name] }

/-! ## `deploy.rs` -/

structure ContainerSpec where
  image : Str
  name : Option Str
  ports : List Str
  env : List Str
  volumes : List Str
  restartPolicy : Option Str
  network : Option Str
  pull : Bool
  detached : Bool
  command : Option Str

structure ServiceSpec where
  name : Str
  image : Str
  mode : Option Str
  replicas : Option Nat
  ports : List Str
  env : List Str
  mounts : List Str
  constraints : List Str
  networks : List Str
  restartCondition : Option Str
  command : Option Str

def doubleQuote : Char := Char.ofNat 0x22

def singleQuote : Char := Char.ofNat 0x27

/-- `split_command` between two characters. -/
structure Splitter where
  out : List Str
  cur : Str
  quote : Option Char
  escaped : Bool

def Splitter.push (s : Splitter) (c : Char) : Splitter := { s with cur := s.cur ++ [c] }

def Splitter.step (s : Splitter) (c : Char) : Splitter :=
  if s.escaped then { s.push c with escaped := false }
  else if c = '\\' then { s with escaped := true }
  else
    match s.quote with
    | some q => if q = c then { s with quote := none } else s.push c
    | none =>
        if c = doubleQuote ∨ c = singleQuote then { s with quote := some c }
        else if Text.isWhitespace c then
          if s.cur = [] then s else { s with out := s.out ++ [s.cur], cur := [] }
        else s.push c

def splitCommand (cmd : Str) : List Str :=
  let s := cmd.foldl Splitter.step { out := [], cur := [], quote := none, escaped := false }
  if s.cur = [] then s.out else s.out ++ [s.cur]

/-- What is left of a text field, if it is not blank. -/
def filled (s : Str) : Option Str := if Text.trim s = [] then none else some (Text.trim s)

/-- `cmd.arg(flag).arg(value)` for every value. -/
def withOption (flag : String) (values : List Str) : List Token :=
  values.flatMap fun value => [own flag, given value]

/-- The image, and after it the container's command. -/
def imageAndCommand (image : Str) (command : Option Str) : List Token :=
  given image ::
    command.toList.flatMap fun command => own "--" :: (splitCommand command).map given

def createContainer (spec : ContainerSpec) : Except String CommandLine :=
  if Text.trim spec.image = [] then .error "image is required"
  else .ok
    { words := ["run"]
      args := (if spec.detached then [own "-d"] else []) ++
        withOption "--name" (spec.name.bind filled).toList ++
        withOption "-p" (spec.ports.filterMap filled) ++
        withOption "-e" (spec.env.filterMap filled) ++
        withOption "-v" (spec.volumes.filterMap filled) ++
        withOption "--restart"
          ((spec.restartPolicy.bind filled).filter (· ≠ "no".toList)).toList ++
        withOption "--network" (spec.network.bind filled).toList ++
        (if spec.pull then [own "--pull", own "always"] else []) ++
        imageAndCommand spec.image spec.command }

def createService (spec : ServiceSpec) : Except String CommandLine :=
  if Text.trim spec.image = [] then .error "image is required"
  else if Text.trim spec.name = [] then .error "name is required"
  else .ok
    { words := ["service", "create"]
      args := own "--detach=true" :: withOption "--name" [Text.trim spec.name] ++
        withOption "--mode" (spec.mode.bind filled).toList ++
        (if spec.mode = some "global".toList then []
          else withOption "--replicas" (spec.replicas.map Text.decimal).toList) ++
        withOption "--publish" (spec.ports.filterMap filled) ++
        withOption "--env" (spec.env.filterMap filled) ++
        withOption "--mount" (spec.mounts.filterMap filled) ++
        withOption "--constraint" (spec.constraints.filterMap filled) ++
        withOption "--network" (spec.networks.filterMap filled) ++
        withOption "--restart-condition" (spec.restartCondition.bind filled).toList ++
        imageAndCommand spec.image spec.command }

/-! ## Exec sessions, logs, and the drift snapshot -/

def spawnDockerExec (containerId shell : Str) : Except String CommandLine :=
  if containerId = [] ∨ containerId.head? = some '-' ∨ 256 < Text.utf8Len containerId then
    .error "invalid container id"
  else if !containerId.all (fun c => c.isAlphanum || c ∈ ['_', '.', '-']) then
    .error "container id has disallowed characters"
  else
    let shell := if shell = [] then own "sh" else given shell
    if shell.text.head? = some '-' ∨
        ¬shell.text.all (fun c => c.isAlphanum || c ∈ ['/', '_', '-', '.']) then
      .error "invalid shell"
    else .ok { words := ["exec"], args := [own "-it", given containerId, shell] }

/-- `LogStreams::start` and the `run_stream` it spawns. -/
def dockerLogs (containerId : Str) (tail : Nat) (follow : Bool) : Except String CommandLine :=
  if validContainerId containerId then
    let tail := Text.decimal (min tail maxDockerTail)
    .ok
      { words := ["logs"]
        args := (if follow then [own "--follow"] else []) ++
          [⟨"--tail=".toList ++ tail, true⟩, given containerId] }
  else .error "invalid container id"

def driftContainers : CommandLine :=
  { words := ["ps"]
    args := [own "-a", own "--format",
      own "\x7b\x7b.Names\x7d\x7d\t\x7b\x7b.Image\x7d\x7d\t\x7b\x7b.State\x7d\x7d"] }

/-- What the agent does with docker, and what the server says about it. -/
inductive DockerOp
  | available
  | swarmRole
  | listContainers
  | listSwarmServices
  | containerAction (id : Str) (action : DockerContainerAction)
  | swarmAction (name : Str) (action : SwarmAction)
  | servicePs (name : Str)
  | serviceInspect (name : Str)
  | stackDeploy (stackName composeYaml : Str) (prune : Bool)
  | listSwarmNodes
  | listImages
  | removeImage (id : Str) (force : Bool)
  | pullImage (reference : Str)
  | listNetworks
  | inspectNetwork (id : Str)
  | createNetwork (name driver : Str) (subnet : Option Str) (attachable internal : Bool)
  | removeNetwork (id : Str)
  | listVolumes
  | inspectVolume (name : Str)
  | removeVolume (name : Str) (force : Bool)
  | pruneVolumes
  | listStacks
  | stackServices (name : Str)
  | stackTasks (name : Str)
  | systemPrunePreview
  | systemPruneApply (volumes : Bool)
  | containerStats
  | removeStack (name : Str)
  | createContainer (spec : ContainerSpec)
  | createService (spec : ServiceSpec)
  | exec (containerId shell : Str)
  | logs (containerId : Str) (tail : Nat) (follow : Bool)
  | driftContainers

def DockerOp.spawn : DockerOp → Except String CommandLine
  | .available => .ok dockerAvailable
  | .swarmRole => .ok Docker.swarmRole
  | .listContainers => .ok Docker.listContainers
  | .listSwarmServices => .ok Docker.listSwarmServices
  | .containerAction id action => runContainerAction id action
  | .swarmAction name action => runSwarmAction name action
  | .servicePs name => Docker.servicePs name
  | .serviceInspect name => Docker.serviceInspect name
  | .stackDeploy stackName composeYaml prune => Docker.stackDeploy stackName composeYaml prune
  | .listSwarmNodes => .ok Docker.listSwarmNodes
  | .listImages => .ok Docker.listImages
  | .removeImage id force => Docker.removeImage id force
  | .pullImage reference => Docker.pullImage reference
  | .listNetworks => .ok Docker.listNetworks
  | .inspectNetwork id => Docker.inspectNetwork id
  | .createNetwork name driver subnet attachable internal =>
      Docker.createNetwork name driver subnet attachable internal
  | .removeNetwork id => Docker.removeNetwork id
  | .listVolumes => .ok Docker.listVolumes
  | .inspectVolume name => Docker.inspectVolume name
  | .removeVolume name force => Docker.removeVolume name force
  | .pruneVolumes => .ok Docker.pruneVolumes
  | .listStacks => .ok Docker.listStacks
  | .stackServices name => Docker.stackServices name
  | .stackTasks name => Docker.stackTasks name
  | .systemPrunePreview => .ok Docker.systemPrunePreview
  | .systemPruneApply volumes => .ok (Docker.systemPruneApply volumes)
  | .containerStats => .ok Docker.containerStats
  | .removeStack name => Docker.removeStack name
  | .createContainer spec => Docker.createContainer spec
  | .createService spec => Docker.createService spec
  | .exec containerId shell => spawnDockerExec containerId shell
  | .logs containerId tail follow => dockerLogs containerId tail follow
  | .driftContainers => .ok Docker.driftContainers

/-! ## Their output -/

/-- What a process has written, as it goes into a response if it is short enough. -/
def combinedText (output : Output) : Str :=
  let s := if output.stdout = [] then [] else Text.fromUtf8Lossy output.stdout
  if output.stderr = [] then s
  else
    let s := if s = [] then s else s ++ "\n--- stderr ---\n".toList
    s ++ Text.fromUtf8Lossy output.stderr

/-- Nothing is a panic. -/
def combineStdoutStderr (output : Output) : Option Str := Text.keepTail (combinedText output) 8000

end ShellfleetAgent.Agent.Docker
