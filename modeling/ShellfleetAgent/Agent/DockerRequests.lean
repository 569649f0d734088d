import ShellfleetAgent.Agent.DockerAnswers
import ShellfleetAgent.Lib.Pool

/-!
# The requests about docker

The arms of `main.rs` for docker and for swarms. Each request is handled in a task of its
own, which has docker do what was asked for and sends one response. Any number of them run
at a time, over one queue; docker answers as it likes.
-/

namespace ShellfleetAgent.Agent.DockerRequests

open ShellfleetAgent.Lib
open Docker (CommandLine ContainerSpec ServiceSpec DockerContainerAction SwarmAction)
open Reporters (SwarmRole)

inductive DockerRequest
  | imageList
  | imageRemove (id : Str) (force : Bool)
  | imagePull (reference : Str)
  | networkList
  | networkInspect (id : Str)
  | networkCreate (name driver : Str) (subnet : Option Str) (attachable internal : Bool)
  | networkRemove (id : Str)
  | volumeList
  | volumeInspect (name : Str)
  | volumeRemove (name : Str) (force : Bool)
  | volumePrune
  | stackList
  | stackInspect (name : Str)
  | stackRemove (name : Str)
  | stackDeploy (stackName composeYaml : Str) (prune : Bool)
  | containerList
  | containerAction (id : Str) (action : DockerContainerAction)
  | serviceAction (name : Str) (action : SwarmAction)
  | serviceInspect (name : Str)
  | createContainer (spec : ContainerSpec)
  | createService (spec : ServiceSpec)
  | swarmList
  | systemPrune (dryRun pruneVolumes : Bool)

def notManager : Option Str := some "not a swarm manager".toList

/-- The value of a listing that may have failed, and the error if it has. -/
def orDefault {α : Type} (default : α) : Except Str α → α × Option Str
  | .ok a => (a, none)
  | .error e => (default, some e)

variable (x : Reader)

/-- The arms of the dispatch. -/
def handle : DockerRequest → TaskM Unit
  | .imageList => do
    let (images, error) := orDefault [] (← listImages x)
    send (.imageList error.isNone images error)
  | .imageRemove id force => do
    let (success, log, error) ← removeImage id force
    send (.imageRemove id success log error)
  | .imagePull reference => do
    let (success, log, error) ← pullImage reference
    send (.imagePull reference success log error)
  | .networkList => do
    let (networks, error) := orDefault [] (← listNetworks x)
    send (.networkList error.isNone networks error)
  | .networkInspect id => do
    let (success, json, error) ← inspectNetwork id
    send (.networkInspect id success json error)
  | .networkCreate name driver subnet attachable internal => do
    let (success, id, log, error) ← createNetwork name driver subnet attachable internal
    send (.networkCreate name success id log error)
  | .networkRemove id => do
    let (success, log, error) ← removeNetwork id
    send (.networkRemove id success log error)
  | .volumeList => do
    let (volumes, error) := orDefault [] (← listVolumes x)
    send (.volumeList error.isNone volumes error)
  | .volumeInspect name => do
    let (success, json, error) ← inspectVolume name
    send (.volumeInspect name success json error)
  | .volumeRemove name force => do
    let (success, log, error) ← removeVolume name force
    send (.volumeRemove name success log error)
  | .volumePrune => do
    let outcome ← pruneVolumes x
    send (.volumePrune outcome)
  | .stackList => do
    let role ← swarmRole x
    if role ≠ .manager then send (.stackList false false [] none)
    else
      let (found, error) := orDefault [] (← listStacks x)
      send (.stackList error.isNone true found error)
  | .stackInspect name => do
    let role ← swarmRole x
    if role ≠ .manager then send (.stackInspect name false [] [] [] notManager)
    else
      let (services, _) := orDefault [] (← stackServices x name)
      let (tasks, error) := orDefault [] (← stackTasks x name)
      send (.stackInspect name error.isNone services tasks [] error)
  | .stackRemove name => do
    let role ← swarmRole x
    if role ≠ .manager then send (.stackRemove name false [] notManager)
    else
      let (success, log, error) ← removeStack name
      send (.stackRemove name success log error)
  | .stackDeploy stackName composeYaml prune => do
    let role ← swarmRole x
    if role ≠ .manager then send (.stackDeploy stackName false [] notManager)
    else
      let (success, log, error) ← stackDeploy stackName composeYaml prune
      send (.stackDeploy stackName success log error)
  | .containerList => do
    let role ← swarmRole x
    let (containers, error) := orDefault [] (← listContainers x)
    send (.containerList error.isNone role containers error)
  | .containerAction id action => do
    let (success, log, error) ← runContainerAction id action
    send (.containerAction id success log error)
  | .serviceAction name action => do
    let role ← swarmRole x
    if role ≠ .manager then send (.serviceAction name false [] notManager)
    else
      let (success, log, error) ← runSwarmAction name action
      send (.serviceAction name success log error)
  | .serviceInspect name => do
    let role ← swarmRole x
    if role ≠ .manager then send (.serviceInspect name false [] none [] notManager)
    else
      let (tasks, _) := orDefault [] (← servicePs x name)
      let (spec, error) := orDefault none ((← serviceInspect x name).map some)
      send (.serviceInspect name error.isNone tasks spec [] error)
  | .createContainer spec => do
    let (success, containerId, log, error) ← createContainer spec
    send (.createContainer success containerId log error)
  | .createService spec => do
    let role ← swarmRole x
    if role ≠ .manager then send (.createService false none [] notManager)
    else
      let (success, serviceId, log, error) ← createService spec
      send (.createService success serviceId log error)
  | .swarmList => do
    let role ← swarmRole x
    if role ≠ .manager then send (.swarmList false false [] [] none)
    else
      let (services, svcErr) := orDefault [] (← listSwarmServices x)
      let (nodes, nodeErr) := orDefault [] (← listSwarmNodes x)
      send (.swarmList true true services nodes (svcErr.or nodeErr))
  | .systemPrune dryRun volumes => do
    let outcome ← if dryRun then systemPrunePreview x volumes else systemPruneApply x volumes
    send (.systemPrune dryRun outcome)

/-! ## All of them at once -/

/-- The bounded queue, as far as these tasks see it: what it has accepted, how much of it
the writer has taken, and whether the session is over. -/
structure ResponseQueue where
  capacity : Nat
  accepted : List DockerResponse
  taken : Nat
  closed : Bool

def ResponseQueue.refusal (q : ResponseQueue) : Option OutgoingSendError :=
  if q.closed then some .closed
  else if q.capacity ≤ q.accepted.length - q.taken then some .full
  else none

/-- What docker and the operating system answer. -/
inductive HostChoice
  | output (result : Except Str Output)
  | deploy (result : Except DeployError Output)
  | send

inductive ResponseEnv
  | take
  | close

namespace ResponseQueue

def exec (q : ResponseQueue) : (c : HostCall) → HostChoice → Option (ResponseQueue × c.Answer)
  | .output _, .output result => some (q, result)
  | .deploy _, .deploy result => some (q, result)
  | .send response, .send =>
    match q.refusal with
    | some e => some (q, .error e)
    | none => some ({ q with accepted := q.accepted ++ [response] }, .ok ())
  | _, _ => none

def env (q : ResponseQueue) : ResponseEnv → Option ResponseQueue
  | .take => if q.taken < q.accepted.length then some { q with taken := q.taken + 1 } else none
  | .close => some { q with closed := true }

end ResponseQueue

def requestCode : Code HostCall HostCall.Answer DockerRequest Empty (Except Panic Unit) where
  start request := (handle x request).run.bind fun r => .ret (.inr r)
  again l := l.elim

def requestHost : Host HostCall HostCall.Answer DockerRequest ResponseQueue HostChoice
    ResponseEnv where
  init q := q.accepted = [] ∧ q.taken = 0 ∧ q.closed = false
  exec q _ := q.exec
  spawn q _ _ := some q
  kill q _ := q
  env := ResponseQueue.env

abbrev RequestState :=
  Pool.State HostCall HostCall.Answer DockerRequest Empty (Except Panic Unit) ResponseQueue

/-- The tasks for any requests, in any order and at any pace. -/
abbrev requestPool : Machine RequestState (Pool.Label DockerRequest HostChoice ResponseEnv) :=
  pool (requestCode x) requestHost

/-! ## What their traces show -/

abbrev TaskHistory := History HostCall HostCall.Answer

/-- The response is of the request's kind, and carries its id or name. -/
def Answers : DockerRequest → DockerResponse → Prop
  | .imageList, .imageList .. => True
  | .imageRemove id _, .imageRemove id' .. => id' = id
  | .imagePull reference, .imagePull reference' .. => reference' = reference
  | .networkList, .networkList .. => True
  | .networkInspect id, .networkInspect id' .. => id' = id
  | .networkCreate name .., .networkCreate name' .. => name' = name
  | .networkRemove id, .networkRemove id' .. => id' = id
  | .volumeList, .volumeList .. => True
  | .volumeInspect name, .volumeInspect name' .. => name' = name
  | .volumeRemove name _, .volumeRemove name' .. => name' = name
  | .volumePrune, .volumePrune _ => True
  | .stackList, .stackList .. => True
  | .stackInspect name, .stackInspect name' .. => name' = name
  | .stackRemove name, .stackRemove name' .. => name' = name
  | .stackDeploy stackName .., .stackDeploy stackName' .. => stackName' = stackName
  | .containerList, .containerList .. => True
  | .containerAction id _, .containerAction id' .. => id' = id
  | .serviceAction name _, .serviceAction name' .. => name' = name
  | .serviceInspect name, .serviceInspect name' .. => name' = name
  | .createContainer _, .createContainer .. => True
  | .createService _, .createService .. => True
  | .swarmList, .swarmList .. => True
  | .systemPrune dryRun _, .systemPrune dryRun' _ => dryRun' = dryRun
  | _, _ => False

/-- The response that an event is the sending of. -/
def sentBy (e : Event HostCall HostCall.Answer) : Option DockerResponse :=
  match e.op with
  | .send response => some response
  | _ => none

def responses (h : TaskHistory) : List DockerResponse := h.filterMap sentBy

/-- The command that a call spawns. -/
def spawnedBy : HostCall → Option CommandLine
  | .output cmd => some cmd
  | .deploy cmd => some cmd
  | .send _ => none

/-- `docker service`, `docker stack` and `docker node`, which only a manager answers. -/
def swarmCommand (cmd : CommandLine) : Bool :=
  match cmd.words.head? with
  | some word => word == "service" || word == "stack" || word == "node"
  | none => false

/-- Docker was there, and its `info` was that of an active manager. -/
def ManagerSeen (h : TaskHistory) : Prop :=
  (∃ out, ⟨.output Docker.dockerAvailable, .ok out⟩ ∈ h ∧ out.success = true) ∧
    ∃ out info, ⟨.output Docker.swarmRole, .ok out⟩ ∈ h ∧ out.success = true ∧
      x.info (Text.fromUtf8Lossy out.stdout) = some info ∧ roleOf info = .manager

/-- Docker has written so much that the cut falls inside a character. -/
def CutInside (h : TaskHistory) : Prop :=
  ∃ cmd out, ⟨.output cmd, .ok out⟩ ∈ h ∧ Docker.combineStdoutStderr out = none

end ShellfleetAgent.Agent.DockerRequests
