import ShellfleetAgent.Agent.Exec
import ShellfleetAgent.Agent.Prune
import ShellfleetAgent.Agent.Reporters
import ShellfleetAgent.Lib.Json

/-!
# What docker answers

The functions of `docker.rs` and `deploy.rs` from the process that they start to the value
that they return. Each of them is a program over the calls that a request makes of its
host. `serde_json` on a row, the type of a count and sizes in floating point are
parameters, as is the rounding of a size; what an `unwrap` or a slice would stop at is a
panic, which ends the task.
-/

namespace ShellfleetAgent.Agent.DockerRequests

open ShellfleetAgent.Lib
open Docker (CommandLine ContainerSpec ServiceSpec DockerContainerAction SwarmAction)
open LogSources (debugCode)
open Prune (PruneOutcome PrunedVolumes)
open Reporters (SwarmRole)

/-! ## Data -/

structure DockerInfoSwarm where
  localNodeState : Str
  controlAvailable : Bool
  deriving DecidableEq

structure DockerInfo where
  swarm : Option DockerInfoSwarm
  deriving DecidableEq

/-- Also `DockerPsRow`. -/
structure DockerContainer where
  id : Str
  names : Str
  image : Str
  state : Str
  status : Str
  ports : Str
  deriving DecidableEq

/-- Also `SvcRow`, and the row of `stack_services`. -/
structure SwarmService where
  id : Str
  name : Str
  mode : Str
  replicas : Str
  image : Str
  ports : Str
  deriving DecidableEq

/-- Also `NodeRow`. -/
structure SwarmNode where
  id : Str
  hostname : Str
  status : Str
  availability : Str
  managerStatus : Str
  engineVersion : Str
  deriving DecidableEq

/-- Also `ServicePsRow`, and the row of `stack_tasks`. -/
structure SwarmTask where
  id : Str
  name : Str
  node : Str
  desiredState : Str
  currentState : Str
  error : Str
  image : Str
  deriving DecidableEq

structure ImageRow where
  id : Str
  repository : Str
  tag : Str
  size : Str
  createdSince : Str
  createdAt : Str

structure DockerImage where
  id : Str
  repository : Str
  tag : Str
  sizeBytes : Nat
  created : Str
  deriving DecidableEq

structure NetworkRow where
  id : Str
  name : Str
  driver : Str
  scope : Str
  createdAt : Str
  ipv6 : Str
  internal : Str
  attachable : Str

structure DockerNetwork where
  id : Str
  name : Str
  driver : Str
  scope : Str
  created : Str
  ipv6 : Bool
  internal : Bool
  attachable : Bool
  deriving DecidableEq

structure VolumeRow where
  name : Str
  driver : Str
  mountpoint : Str
  size : Str
  labels : Str

structure DockerVolume where
  name : Str
  driver : Str
  mountpoint : Str
  sizeBytes : Nat
  created : Str
  labels : Str
  deriving DecidableEq

structure StackRow where
  name : Str
  services : Str
  orchestrator : Str

structure SwarmStack where
  name : Str
  services : Nat
  orchestrator : Str
  deriving DecidableEq

structure SwarmServiceSpecSummary where
  image : Str
  imageDigest : Str
  mode : Str
  replicas : Option Nat
  createdAt : Str
  updatedAt : Str
  env : List Str
  mounts : List Str
  networks : List Str
  constraints : List Str
  publishedPorts : List Str
  deriving DecidableEq

structure DfImage where
  id : Str
  containers : Str
  size : Str

structure DfContainer where
  id : Str
  state : Str
  size : Str

structure DfVolume where
  name : Str
  links : Str
  size : Str

structure Df where
  images : List DfImage
  containers : List DfContainer
  volumes : List DfVolume

/-- `serde_json::from_str` at each type, and how texts are read as numbers. -/
structure Reader where
  info : Str → Option DockerInfo
  container : Str → Option DockerContainer
  service : Str → Option SwarmService
  node : Str → Option SwarmNode
  task : Str → Option SwarmTask
  image : Str → Option ImageRow
  network : Str → Option NetworkRow
  volume : Str → Option VolumeRow
  stack : Str → Option StackRow
  stackService : Str → Option SwarmService
  stackTask : Str → Option SwarmTask
  df : Str → Option Df
  value : Str → Except Str Json
  count : Str → Option Nat
  parseDockerSize : Str → Nat

/-! ## Calls -/

inductive DeployError
  | spawn (e : Str)
  | stdin (e : Str)
  | wait (e : Str)

/-- A response, with the id or name that its request came with. -/
inductive DockerResponse
  | imageList (available : Bool) (images : List DockerImage) (error : Option Str)
  | imageRemove (id : Str) (success : Bool) (log : Str) (error : Option Str)
  | imagePull (reference : Str) (success : Bool) (log : Str) (error : Option Str)
  | networkList (available : Bool) (networks : List DockerNetwork) (error : Option Str)
  | networkInspect (id : Str) (success : Bool) (json : Str) (error : Option Str)
  | networkCreate (name : Str) (success : Bool) (id : Option Str) (log : Str)
      (error : Option Str)
  | networkRemove (id : Str) (success : Bool) (log : Str) (error : Option Str)
  | volumeList (available : Bool) (volumes : List DockerVolume) (error : Option Str)
  | volumeInspect (name : Str) (success : Bool) (json : Str) (error : Option Str)
  | volumeRemove (name : Str) (success : Bool) (log : Str) (error : Option Str)
  | volumePrune (outcome : PrunedVolumes)
  | stackList (available isManager : Bool) (found : List SwarmStack) (error : Option Str)
  | stackInspect (name : Str) (success : Bool) (services : List SwarmService)
      (tasks : List SwarmTask) (log : Str) (error : Option Str)
  | stackRemove (name : Str) (success : Bool) (log : Str) (error : Option Str)
  | stackDeploy (stackName : Str) (success : Bool) (log : Str) (error : Option Str)
  | containerList (available : Bool) (swarmRole : SwarmRole)
      (containers : List DockerContainer) (error : Option Str)
  | containerAction (id : Str) (success : Bool) (log : Str) (error : Option Str)
  | serviceAction (name : Str) (success : Bool) (log : Str) (error : Option Str)
  | serviceInspect (name : Str) (success : Bool) (tasks : List SwarmTask)
      (spec : Option SwarmServiceSpecSummary) (log : Str) (error : Option Str)
  | createContainer (success : Bool) (containerId : Option Str) (log : Str)
      (error : Option Str)
  | createService (success : Bool) (serviceId : Option Str) (log : Str) (error : Option Str)
  | swarmList (available isManager : Bool) (services : List SwarmService)
      (nodes : List SwarmNode) (error : Option Str)
  | systemPrune (dryRun : Bool) (outcome : PruneOutcome)
  deriving DecidableEq

/-- What a request asks of its host: a process, one that also reads its input, and the
queue. -/
inductive HostCall
  | output (cmd : CommandLine)
  | deploy (cmd : CommandLine)
  | send (response : DockerResponse)

def HostCall.Answer : HostCall → Type
  | .output _ => Except Str Output
  | .deploy _ => Except DeployError Output
  | .send _ => Except OutgoingSendError Unit

inductive Panic
  | panicked

abbrev TaskM := ExceptT Panic (Prog HostCall HostCall.Answer)

def call (c : HostCall) : TaskM c.Answer :=
  ExceptT.lift (Prog.perform c : Prog HostCall HostCall.Answer c.Answer)

def output (cmd : CommandLine) : TaskM (Except Str Output) := call (.output cmd)

def deployed (cmd : CommandLine) : TaskM (Except DeployError Output) := call (.deploy cmd)

/-- What `send` says is not looked at. -/
def send (response : DockerResponse) : TaskM Unit := do
  let _ ← call (.send response)

/-- A text that is cut inside a character is a panic. -/
def orPanic {α : Type} : Option α → TaskM α
  | some a => pure a
  | none => throw .panicked

/-! ## Listings -/

/-- The rows among the lines of a listing. A line is read as `cut` leaves it; what is no
row is passed over. -/
def rows {ρ : Type} (cut : Str → Str) (parse : Str → Option ρ) (stdout : Str) : List ρ :=
  (Text.lines stdout).filterMap fun line =>
    if Text.trim line = [] then none else parse (cut line)

def stderrText (out : Output) : Str := Text.trim (Text.fromUtf8Lossy out.stderr)

/-- What a listing makes of the process, in whichever words it says that there is none. -/
def listing {α : Type} (spawnError : String) (cmd : CommandLine) (read : Str → Except Str α) :
    TaskM (Except Str α) := do
  match ← output cmd with
  | .error e => return .error (spawnError.toList ++ e)
  | .ok out =>
    if out.success then return read (Text.fromUtf8Lossy out.stdout)
    else return .error (stderrText out)

/-- After the check of an argument. -/
def checked {α : Type} (cmd : Except String CommandLine)
    (run : CommandLine → TaskM (Except Str α)) : TaskM (Except Str α) :=
  match cmd with
  | .error error => return .error error.toList
  | .ok cmd => run cmd

section Listings

variable (x : Reader)

def dockerAvailable : TaskM Bool := do
  match ← output Docker.dockerAvailable with
  | .ok out => return out.success
  | .error _ => return false

def roleOf (info : DockerInfo) : SwarmRole :=
  match info.swarm with
  | none => .notInSwarm
  | some s =>
    if s.localNodeState ≠ "active".toList then .notInSwarm
    else if s.controlAvailable then .manager
    else .worker

def swarmRole : TaskM SwarmRole := do
  if ← dockerAvailable then
    match ← output Docker.swarmRole with
    | .error _ => return .notInSwarm
    | .ok out =>
      if out.success then
        match x.info (Text.fromUtf8Lossy out.stdout) with
        | none => return .notInSwarm
        | some info => return roleOf info
      else return .notInSwarm
  else return .notInSwarm

def listContainers : TaskM (Except Str (List DockerContainer)) :=
  listing "docker spawn: " Docker.listContainers fun stdout =>
    .ok ((rows Text.trim x.container stdout).map fun row => { row with id := row.id.take 12 })

def listSwarmServices : TaskM (Except Str (List SwarmService)) :=
  listing "docker spawn: " Docker.listSwarmServices fun stdout =>
    .ok (rows Text.trim x.service stdout)

def servicePs (name : Str) : TaskM (Except Str (List SwarmTask)) :=
  checked (Docker.servicePs name) fun cmd =>
    listing "docker spawn: " cmd fun stdout => .ok (rows Text.trim x.task stdout)

def listSwarmNodes : TaskM (Except Str (List SwarmNode)) :=
  listing "docker spawn: " Docker.listSwarmNodes fun stdout =>
    .ok (rows Text.trim x.node stdout)

def ImageRow.image (row : ImageRow) : DockerImage where
  id := (Text.stripStart "sha256:".toList row.id).getD row.id
  repository := row.repository
  tag := row.tag
  sizeBytes := x.parseDockerSize row.size
  created := if row.createdSince = [] then row.createdAt else row.createdSince

def listImages : TaskM (Except Str (List DockerImage)) :=
  listing "spawn: " Docker.listImages fun stdout =>
    .ok ((rows Text.trim x.image stdout).map (ImageRow.image x))

/-- The spellings of `true`. -/
def isTrue (s : Str) : Bool :=
  s = "true".toList || s = "True".toList || s = "1".toList

def NetworkRow.network (row : NetworkRow) : DockerNetwork where
  id := row.id
  name := row.name
  driver := row.driver
  scope := row.scope
  created := row.createdAt
  ipv6 := isTrue row.ipv6
  internal := isTrue row.internal
  attachable := isTrue row.attachable

def listNetworks : TaskM (Except Str (List DockerNetwork)) :=
  listing "spawn: " Docker.listNetworks fun stdout =>
    .ok ((rows id x.network stdout).map NetworkRow.network)

def VolumeRow.volume (row : VolumeRow) : DockerVolume where
  name := row.name
  driver := row.driver
  mountpoint := row.mountpoint
  sizeBytes := x.parseDockerSize row.size
  created := []
  labels := row.labels

def listVolumes : TaskM (Except Str (List DockerVolume)) :=
  listing "spawn: " Docker.listVolumes fun stdout =>
    .ok ((rows id x.volume stdout).map (VolumeRow.volume x))

def StackRow.stack (row : StackRow) : SwarmStack where
  name := row.name
  services := (x.count row.services).getD 0
  orchestrator := row.orchestrator

def listStacks : TaskM (Except Str (List SwarmStack)) :=
  listing "spawn: " Docker.listStacks fun stdout =>
    .ok ((rows id x.stack stdout).map (StackRow.stack x))

def stackServices (name : Str) : TaskM (Except Str (List SwarmService)) :=
  checked (Docker.stackServices name) fun cmd =>
    listing "spawn: " cmd fun stdout => .ok (rows id x.stackService stdout)

def stackTasks (name : Str) : TaskM (Except Str (List SwarmTask)) :=
  checked (Docker.stackTasks name) fun cmd =>
    listing "spawn: " cmd fun stdout => .ok (rows id x.stackTask stdout)

end Listings

/-! ## One service -/

/-- `&value[key]`. -/
def index (v : Json) (key : String) : Json := (v.get key).getD .null

def text (v : Json) (default : String) : Str := (v.asStr.getD default).toList

def texts (v : Json) : List Str := (v.asArray.getD []).filterMap fun e => e.asStr.map (·.toList)

/-- `str::split_once`. -/
def splitOnce (piece : Str) : Str → Option (Str × Str)
  | [] => if piece = [] then some ([], []) else none
  | c :: s =>
    match Text.stripStart piece (c :: s) with
    | some rest => some ([], rest)
    | none => (splitOnce piece s).map fun (front, back) => (c :: front, back)

def imageAndDigest (image : Str) : Str × Str :=
  match splitOnce "@sha256:".toList image with
  | some (tag, digest) => (tag, "sha256:".toList ++ digest)
  | none => (image, [])

def modeAndReplicas (mode : Json) : Str × Option Nat :=
  match mode.get "Replicated" with
  | some replicated =>
    ("replicated".toList, (index replicated "Replicas").asU64.map fun v => v.toNat % 2 ^ 32)
  | none =>
    if (mode.get "Global").isSome then ("global".toList, none) else ("unknown".toList, none)

def mountText (m : Json) : Str :=
  "type=".toList ++ text (index m "Type") "?" ++ ",source=".toList ++
    text (index m "Source") "" ++ ",target=".toList ++ text (index m "Target") ""

def portText (p : Json) : Str :=
  Text.decimal ((index p "PublishedPort").asU64.getD 0).toNat ++ ':' ::
    Text.decimal ((index p "TargetPort").asU64.getD 0).toNat ++ '/' ::
    text (index p "Protocol") "tcp"

def summary (inspect : Json) : SwarmServiceSpecSummary :=
  let spec := index inspect "Spec"
  let taskTemplate := index spec "TaskTemplate"
  let containerSpec := index taskTemplate "ContainerSpec"
  let image := imageAndDigest (text (index containerSpec "Image") "")
  let mode := modeAndReplicas (index spec "Mode")
  { image := image.1
    imageDigest := image.2
    mode := mode.1
    replicas := mode.2
    createdAt := text (index inspect "CreatedAt") ""
    updatedAt := text (index inspect "UpdatedAt") ""
    env := texts (index containerSpec "Env")
    mounts := ((index containerSpec "Mounts").asArray.getD []).map mountText
    networks := ((index taskTemplate "Networks").asArray.getD []).filterMap fun n =>
      (index n "Target").asStr.map (·.toList)
    constraints := texts (index (index taskTemplate "Placement") "Constraints")
    publishedPorts := ((index (index spec "EndpointSpec") "Ports").asArray.getD []).map portText }

/-- `serde_json::from_str` is the reader's. -/
def readInspect (x : Reader) (stdout : Str) : Except Str SwarmServiceSpecSummary :=
  match x.value stdout with
  | .error e => .error ("parse inspect json: ".toList ++ e)
  | .ok value =>
    match value.asArray.bind (·.head?) with
    | none => .error "empty inspect array".toList
    | some inspect => .ok (summary inspect)

def serviceInspect (x : Reader) (name : Str) : TaskM (Except Str SwarmServiceSpecSummary) :=
  checked (Docker.serviceInspect name) fun cmd => listing "docker spawn: " cmd (readInspect x)

/-! ## Actions -/

/-- `success`, `log` and `error`. -/
abbrev Logged := Bool × Str × Option Str

/-- Also what `run_container_action`, `run_swarm_action` and `stack_deploy` write out. -/
def collectLog (out : Output) : Str :=
  let s := Text.fromUtf8Lossy out.stdout
  let err := Text.fromUtf8Lossy out.stderr
  if err = [] then s else (if s = [] then s else s ++ ['\n']) ++ err

/-- The error of a process that has failed. -/
def exitError (what : String) (out : Output) : Option Str :=
  if out.success then none else some (what.toList ++ debugCode out.code)

def plainlyLogged (out : Output) : Logged :=
  (out.success, collectLog out, exitError "exit code " out)

def plainly (cmd : Except String CommandLine) : TaskM Logged :=
  match cmd with
  | .error error => return (false, [], some error.toList)
  | .ok cmd => do
    match ← output cmd with
    | .error e => return (false, [], some ("docker spawn: ".toList ++ e))
    | .ok out => return plainlyLogged out

def runContainerAction (id : Str) (action : DockerContainerAction) : TaskM Logged :=
  plainly (Docker.runContainerAction id action)

def runSwarmAction (name : Str) (action : SwarmAction) : TaskM Logged :=
  plainly (Docker.runSwarmAction name action)

def stackDeploy (stackName composeYaml : Str) (prune : Bool) : TaskM Logged :=
  match Docker.stackDeploy stackName composeYaml prune with
  | .error error => return (false, [], some error.toList)
  | .ok cmd => do
    match ← deployed cmd with
    | .error (.spawn e) => return (false, [], some ("docker spawn: ".toList ++ e))
    | .error (.stdin e) => return (false, [], some ("write stdin: ".toList ++ e))
    | .error (.wait e) => return (false, [], some ("docker wait: ".toList ++ e))
    | .ok out => return plainlyLogged out

/-- An action whose log is cut to what fits a response. -/
def combined (what : String) (cmd : Except String CommandLine) : TaskM Logged :=
  match cmd with
  | .error error => return (false, [], some error.toList)
  | .ok cmd => do
    match ← output cmd with
    | .error e => return (false, [], some ("spawn: ".toList ++ e))
    | .ok out => do
      let log ← orPanic (Docker.combineStdoutStderr out)
      return (out.success, log, exitError what out)

def removeImage (id : Str) (force : Bool) : TaskM Logged :=
  combined "docker rmi exit " (Docker.removeImage id force)

def pullImage (reference : Str) : TaskM Logged :=
  combined "docker pull exit " (Docker.pullImage reference)

def removeNetwork (id : Str) : TaskM Logged :=
  combined "docker network rm exit " (Docker.removeNetwork id)

def removeVolume (name : Str) (force : Bool) : TaskM Logged :=
  combined "docker volume rm exit " (Docker.removeVolume name force)

def removeStack (name : Str) : TaskM Logged :=
  combined "docker stack rm exit " (Docker.removeStack name)

def createNetwork (name driver : Str) (subnet : Option Str) (attachable internal : Bool) :
    TaskM (Bool × Option Str × Str × Option Str) :=
  match Docker.createNetwork name driver subnet attachable internal with
  | .error error => return (false, none, [], some error.toList)
  | .ok cmd => do
    match ← output cmd with
    | .error e => return (false, none, [], some ("spawn: ".toList ++ e))
    | .ok out => do
      let log ← orPanic (Docker.combineStdoutStderr out)
      if out.success then
        return (true, some (Text.trim (Text.fromUtf8Lossy out.stdout)), log, none)
      else return (false, none, log, exitError "docker network create exit " out)

/-- An inspection: what it prints, and what its errors say if it fails. -/
def inspected (cmd : Except String CommandLine) (limit : Option Nat) : TaskM Logged :=
  match cmd with
  | .error error => return (false, [], some error.toList)
  | .ok cmd => do
    match ← output cmd with
    | .error e => return (false, [], some ("spawn: ".toList ++ e))
    | .ok out =>
      let stdout := Text.fromUtf8Lossy out.stdout
      if out.success && limit.any (· < Text.utf8Len stdout) then
        return (false, [], some ("network inspect response exceeds ".toList ++
          Text.decimal Exec.maxOutputBytes ++ "-byte limit".toList))
      else if out.success then return (true, stdout, none)
      else return (false, stdout, some (stderrText out))

def inspectNetwork (id : Str) : TaskM Logged :=
  inspected (Docker.inspectNetwork id) (some Exec.maxOutputBytes)

def inspectVolume (name : Str) : TaskM Logged := inspected (Docker.inspectVolume name) none

/-- What a creation returns; `idOf` picks the id out of the lines it has printed. -/
def created (cmd : Except String CommandLine) (idOf : List Str → Option Str) :
    TaskM (Bool × Option Str × Str × Option Str) :=
  match cmd with
  | .error error => return (false, none, [], some error.toList)
  | .ok cmd => do
    match ← output cmd with
    | .error e => return (false, none, [], some ("docker spawn: ".toList ++ e))
    | .ok out =>
      let id :=
        if out.success then
          some (Text.trim ((idOf (Text.lines (Text.fromUtf8Lossy out.stdout))).getD []))
            |>.filter (· ≠ [])
        else none
      return (out.success, id, collectLog out, exitError "exit code " out)

def createContainer (spec : ContainerSpec) : TaskM (Bool × Option Str × Str × Option Str) :=
  created (Docker.createContainer spec) (·.getLast?)

def createService (spec : ServiceSpec) : TaskM (Bool × Option Str × Str × Option Str) :=
  created (Docker.createService spec) (·.find? fun l => Text.trim l ≠ [])

/-! ## Prunes -/

def pruneVolumes (x : Reader) : TaskM PrunedVolumes := do
  let run ← output Docker.pruneVolumes
  orPanic (Prune.pruneVolumes x.parseDockerSize fun _ => run)

def systemPruneApply (x : Reader) (volumes : Bool) : TaskM PruneOutcome := do
  let run ← output (Docker.systemPruneApply volumes)
  orPanic (Prune.systemPruneApply x.parseDockerSize (fun _ => run) volumes)

/-- A count that is no number counts as 0. -/
def unused (count : Str) : Bool := (Text.parseI64 count).getD 0 = 0

def stopped (state : Str) : Bool :=
  state = "exited".toList || state = "created".toList || state = "dead".toList

/-- What a prune would take, after a `system df`. The sum is a `u64`, and wraps. -/
def preview (x : Reader) (df : Df) (volumes : Bool) : PruneOutcome :=
  let images := df.images.filter fun img => unused img.containers
  let containers := df.containers.filter fun c => stopped c.state
  let links := if volumes then df.volumes.filter fun v => unused v.links else []
  let reclaimed := ((images.map (·.size) ++ containers.map (·.size) ++ links.map (·.size)).foldl
    (fun sum size => (sum + x.parseDockerSize size) % 2 ^ 64) 0)
  { success := true
    reclaimedBytes := reclaimed
    imagesRemoved := images.map (·.id)
    containersRemoved := containers.map (·.id)
    volumesRemoved := links.map (·.name)
    log := "preview: ".toList ++ Text.decimal containers.length ++ " container(s), ".toList ++
      Text.decimal images.length ++ " image(s), ".toList ++ Text.decimal links.length ++
      " volume(s) — ~".toList ++ Text.decimal reclaimed ++ " bytes\n".toList }

def systemPrunePreview (x : Reader) (volumes : Bool) : TaskM PruneOutcome := do
  match ← output Docker.systemPrunePreview with
  | .error e => return { error := some ("spawn: ".toList ++ e) }
  | .ok out =>
    if out.success then
      return preview x ((x.df (Text.fromUtf8Lossy out.stdout)).getD ⟨[], [], []⟩) volumes
    else return { error := some (stderrText out) }

end ShellfleetAgent.Agent.DockerRequests
