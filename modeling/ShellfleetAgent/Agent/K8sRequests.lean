import ShellfleetAgent.Agent.Exec
import ShellfleetAgent.Agent.Outgoing
import ShellfleetAgent.Lib.SharedLog

/-!
# The requests about kubernetes

The arms of `main.rs` that change one object of a cluster or show one, over `scale`,
`delete_pod` and `describe` of `k8s.rs`. Each request is handled in a task of its own, with
a client of its own; any number of them run at a time. What the apiserver answers is
anything, and so is whether the queue takes a response. An agent that is built without the
feature `kube` has no cluster to talk to.
-/

namespace ShellfleetAgent.Agent.K8sRequests

open ShellfleetAgent.Lib
open Exec (maxOutputBytes)

/-! ## Data -/

/-- The kinds that `scale` patches. -/
inductive Scalable
  | deployment
  | statefulset
  | replicaset
  deriving DecidableEq

/-- The kinds that `describe` gets. -/
inductive Describable
  | pod
  | deployment
  | service
  | ingress
  | pvc
  | event
  deriving DecidableEq

/-- What the apiserver is asked to change: `patch_scale` with the merge patch that sets
`spec.replicas`, and `delete` of a pod. -/
inductive Mutation
  | patchScale (resource : Scalable) (ns name : Str) (replicas : Int32)
  | deletePod (ns name : Str) (gracePeriod : Option UInt32)
  deriving DecidableEq

inductive K8sRequest
  | scale (kind ns name : Str) (replicas : Int32)
  | deletePod (ns name : Str) (gracePeriodSecs : Option Int64)
  | describe (kind : Str) (ns : Option Str) (name : Str)

inductive K8sResponse
  | scale (kind ns name : Str) (success : Bool) (error : Option Str)
  | deletePod (ns name : Str) (success : Bool) (error : Option Str)
  | describe (kind : Str) (ns : Option Str) (name yaml : Str) (error : Option Str)
  deriving DecidableEq

/-- The libraries: `str::to_lowercase`, an object with its `managed_fields` set to `None`,
and `serde_yaml::to_string`. -/
structure Libraries (Obj : Type) where
  toLowercase : Str → Str
  unmanaged : Obj → Obj
  toYaml : Obj → Except Str Str

inductive K8sCall
  | tryDefault
  | mutate (m : Mutation)
  | get (resource : Describable) (ns name : Str)
  | send (response : K8sResponse)

def K8sCall.Answer (Obj : Type) : K8sCall → Type
  | .tryDefault | .mutate _ => Except Str Unit
  | .get .. => Except Str Obj
  | .send _ => Except OutgoingSendError Unit

variable {Obj : Type}

abbrev K8sM (Obj : Type) := ExceptT Str (Prog K8sCall (K8sCall.Answer Obj))

def ask (c : K8sCall) : Prog K8sCall (K8sCall.Answer Obj) (c.Answer Obj) := Prog.perform c

/-! ## `k8s.rs` -/

/-- `map_err` with a text in front, and `?`. -/
def orFail {α : Type} (context : String) (p : Prog K8sCall (K8sCall.Answer Obj) (Except Str α)) :
    K8sM Obj α :=
  ExceptT.mk (p.bind fun r => .ret (r.mapError fun e => context.toList ++ e))

def client : K8sM Obj Unit := orFail "kube client: " (ask .tryDefault)

def scaleKinds : List (String × Scalable) :=
  [("deployment", .deployment), ("deploy", .deployment), ("deployments", .deployment),
    ("statefulset", .statefulset), ("sts", .statefulset), ("statefulsets", .statefulset),
    ("replicaset", .replicaset), ("rs", .replicaset), ("replicasets", .replicaset)]

def scalable (kind : Str) : Option Scalable :=
  (scaleKinds.find? fun e => e.1.toList = kind).map Prod.snd

def Scalable.word : Scalable → String
  | .deployment => "deployment"
  | .statefulset => "statefulset"
  | .replicaset => "replicaset"

def describeKinds : List (String × Describable) :=
  [("pod", .pod), ("deployment", .deployment), ("service", .service), ("ingress", .ingress),
    ("pvc", .pvc), ("event", .event)]

def describable (kind : Str) : Option Describable :=
  (describeKinds.find? fun e => e.1.toList = kind).map Prod.snd

/-- `g.max(0) as u32`, which keeps the low 32 bits. -/
def graceSeconds (g : Int64) : UInt32 := UInt32.ofNat g.toInt.toNat

section Functions

variable (lib : Libraries Obj)

/-- The client comes first, also for a kind that there is not. -/
def scale (kind ns name : Str) (replicas : Int32) : K8sM Obj Unit := do
  client
  match scalable (lib.toLowercase kind) with
  | some resource =>
    orFail s!"scale {resource.word}: "
      (ask (.mutate (.patchScale resource ns name replicas)))
  | none => throw ("unsupported scale kind: ".toList ++ lib.toLowercase kind)

def deletePod (ns name : Str) (gracePeriodSecs : Option Int64) : K8sM Obj Unit := do
  client
  orFail "delete pod: "
    (ask (.mutate (.deletePod ns name (gracePeriodSecs.map graceSeconds))))

def describeOne (resource : Describable) (ns : Option Str) (name : Str) : K8sM Obj Str :=
  match ns with
  | none => throw "namespaced kind needs a namespace".toList
  | some ns => do
    let obj ← orFail "get: " (ask (.get resource ns name))
    orFail "yaml: " (.ret (lib.toYaml (lib.unmanaged obj)))

/-- The kind is matched as it is written. -/
def describe (kind : Str) (ns : Option Str) (name : Str) : K8sM Obj Str := do
  client
  match describable kind with
  | some resource =>
    let yaml ← describeOne lib resource ns name
    if maxOutputBytes < Text.utf8Len yaml then
      throw s!"describe response exceeds {maxOutputBytes}-byte limit".toList
    else return yaml
  | none => throw ("unsupported kind: ".toList ++ kind)

/-! ## The arms -/

variable (kube : Bool)

def ifBuilt {α : Type} (x : K8sM Obj α) : K8sM Obj α :=
  if kube then x else throw "agent built without k8s support".toList

def errorOf {α : Type} : Except Str α → Option Str
  | .ok _ => none
  | .error e => some e

/-- What `send` says is not looked at. -/
def send (response : K8sResponse) : Prog K8sCall (K8sCall.Answer Obj) Unit :=
  (ask (.send response)).bind fun _ => .ret ()

def handle : K8sRequest → Prog K8sCall (K8sCall.Answer Obj) Unit
  | .scale kind ns name replicas =>
    (ifBuilt kube (scale lib kind ns name replicas)).run.bind fun r =>
      send (.scale kind ns name (errorOf r).isNone (errorOf r))
  | .deletePod ns name gracePeriodSecs =>
    (ifBuilt kube (deletePod ns name gracePeriodSecs)).run.bind fun r =>
      send (.deletePod ns name (errorOf r).isNone (errorOf r))
  | .describe kind ns name =>
    (ifBuilt kube (describe lib kind ns name)).run.bind fun r =>
      send (.describe kind ns name (r.toOption.getD []) (errorOf r))

end Functions

/-! ## All of them at once -/

/-- What the apiserver has been asked to change, and what the queue has accepted. -/
structure K8sWorld where
  asked : List Mutation
  accepted : List K8sResponse
  deriving DecidableEq

/-- What the apiserver answers, and what the queue does. -/
inductive K8sChoice (Obj : Type)
  | unit (result : Except Str Unit)
  | object (result : Except Str Obj)
  | queue (result : Except OutgoingSendError Unit)

/-- A change that has been asked for may have been made whatever the answer is: an error may
also mean that the answer is lost. -/
def K8sWorld.exec (w : K8sWorld) :
    (c : K8sCall) → K8sChoice Obj → Option (K8sWorld × c.Answer Obj)
  | .tryDefault, .unit result => some (w, result)
  | .mutate m, .unit result => some ({ w with asked := w.asked ++ [m] }, result)
  | .get .., .object result => some (w, result)
  | .send response, .queue (.ok ()) =>
    some ({ w with accepted := w.accepted ++ [response] }, .ok ())
  | .send _, .queue (.error e) => some (w, .error e)
  | _, _ => none

variable (lib : Libraries Obj) (kube : Bool)

def k8sCode : Code K8sCall (K8sCall.Answer Obj) K8sRequest Empty Unit where
  start request := (handle lib kube request).bind fun r => .ret (.inr r)
  again l := l.elim

def k8sHost : Host K8sCall (K8sCall.Answer Obj) K8sRequest K8sWorld (K8sChoice Obj) Empty where
  init w := w = ⟨[], []⟩
  exec w _ := w.exec
  spawn w _ _ := some w
  kill w _ := w
  env _ e := e.elim

abbrev K8sState (Obj : Type) :=
  Pool.State K8sCall (K8sCall.Answer Obj) K8sRequest Empty Unit K8sWorld

/-- The tasks for any requests, in any order and at any pace. -/
abbrev k8sPool : Machine (K8sState Obj) (Pool.Label K8sRequest (K8sChoice Obj) Empty) :=
  pool (k8sCode lib kube) k8sHost

/-! ## What their traces show -/

abbrev K8sHistory (Obj : Type) := History K8sCall (K8sCall.Answer Obj)

/-- What a request asks to have changed. -/
def K8sRequest.mutation : K8sRequest → Option Mutation
  | .scale kind ns name replicas =>
    (scalable (lib.toLowercase kind)).map fun resource => .patchScale resource ns name replicas
  | .deletePod ns name gracePeriodSecs =>
    some (.deletePod ns name (gracePeriodSecs.map graceSeconds))
  | .describe .. => none

def askedBy (e : Event K8sCall (K8sCall.Answer Obj)) : Option Mutation :=
  match e.op with
  | .mutate m => some m
  | _ => none

def sentBy (e : Event K8sCall (K8sCall.Answer Obj)) : Option K8sResponse :=
  match e.op with
  | .send response => some response
  | _ => none

def acceptedBy : Event K8sCall (K8sCall.Answer Obj) → Option K8sResponse
  | ⟨.send response, .ok _⟩ => some response
  | _ => none

/-- The agent has the feature, and a client was made. -/
def Connected (h : K8sHistory Obj) : Prop := kube = true ∧ ⟨.tryDefault, .ok ()⟩ ∈ h

/-- The apiserver has confirmed a change. -/
def Confirmed (h : K8sHistory Obj) : Prop := ∃ m, ⟨.mutate m, .ok ()⟩ ∈ h

/-- The text is that of the object which the apiserver has given for the request, without its
managed fields. -/
def Shows (kind : Str) (ns : Option Str) (name yaml : Str) (h : K8sHistory Obj) : Prop :=
  ∃ resource ns₀ obj, describable kind = some resource ∧ ns = some ns₀ ∧
    ⟨.get resource ns₀ name, .ok obj⟩ ∈ h ∧ lib.toYaml (lib.unmanaged obj) = .ok yaml ∧
    Text.utf8Len yaml ≤ maxOutputBytes

/-- The response is to this request, and says what has come of it. -/
def Tells (h : K8sHistory Obj) : K8sRequest → K8sResponse → Prop
  | .scale kind ns name _, .scale kind' ns' name' success error =>
    (kind' = kind ∧ ns' = ns ∧ name' = name) ∧ success = error.isNone ∧
      (success = true ↔ Confirmed h)
  | .deletePod ns name _, .deletePod ns' name' success error =>
    (ns' = ns ∧ name' = name) ∧ success = error.isNone ∧ (success = true ↔ Confirmed h)
  | .describe kind ns name, .describe kind' ns' name' yaml error =>
    (kind' = kind ∧ ns' = ns ∧ name' = name) ∧
      (error = none ∧ Shows lib kind ns name yaml h ∨ error ≠ none ∧ yaml = [])
  | _, _ => False

end ShellfleetAgent.Agent.K8sRequests
