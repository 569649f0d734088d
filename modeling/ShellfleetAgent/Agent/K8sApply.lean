import ShellfleetAgent.Lib.Json

/-!
# The policy for Kubernetes manifests

`k8s.rs`: what a manifest must be for the agent to hand it to the apiserver.
Every check is made on the document as it is written, field by field.
-/

namespace ShellfleetAgent.Agent.K8sApply

open ShellfleetAgent.Lib

def allowedApplyResources : List (String × String) :=
  [("v1", "Pod"), ("v1", "Service"), ("v1", "ConfigMap"), ("v1", "Secret"),
    ("v1", "PersistentVolumeClaim"), ("apps/v1", "Deployment"), ("apps/v1", "StatefulSet"),
    ("apps/v1", "DaemonSet"), ("apps/v1", "ReplicaSet"), ("batch/v1", "Job"),
    ("batch/v1", "CronJob"), ("networking.k8s.io/v1", "Ingress"),
    ("autoscaling/v2", "HorizontalPodAutoscaler")]

/-- `str::eq_ignore_ascii_case`; `Char.toLower` changes ASCII letters only. -/
def eqIgnoreAsciiCase (s t : String) : Bool :=
  s.toList.map Char.toLower == t.toList.map Char.toLower

/-- `return Err` if the check fails. -/
def refuse (bad : Bool) (error : String) : Except String Unit :=
  if bad then .error error else .ok ()

def isTrue (v : Option Json) : Bool := v.bind Json.asBool == some true

def isMode (v : Option Json) (mode : String) : Bool :=
  (v.bind Json.asStr).any (eqIgnoreAsciiCase · mode)

def hostFields : List String := ["hostNetwork", "hostPID", "hostIPC"]

def containerFields : List String := ["containers", "initContainers", "ephemeralContainers"]

def validateVolume (volume : Json) : Except String Unit := do
  refuse (volume.get "hostPath").isSome "pod spec may not mount hostPath volumes"
  refuse ((Json.elements (volume.pointer ["projected", "sources"])).any
      fun source => (source.get "serviceAccountToken").isSome)
    "pod spec may not project service-account tokens"

/-- The body of the loop over one of the three container lists. -/
def validateContainer (containerField : String) (container : Json) : Except String Unit := do
  let security := container.get "securityContext"
  refuse (isTrue (security.bind (·.get "privileged")))
    s!"{containerField} may not run privileged"
  refuse (isTrue (security.bind (·.get "allowPrivilegeEscalation")))
    s!"{containerField} may not allow privilege escalation"
  refuse (!(Json.elements (security.bind (·.pointer ["capabilities", "add"]))).isEmpty)
    s!"{containerField} may not add Linux capabilities"
  refuse (isMode (security.bind (·.get "procMount")) "Unmasked")
    s!"{containerField} may not use an unmasked /proc"
  refuse (isMode (security.bind (·.pointer ["seccompProfile", "type"])) "Unconfined")
    s!"{containerField} may not disable seccomp"
  refuse (isTrue (security.bind (·.pointer ["windowsOptions", "hostProcess"])))
    s!"{containerField} may not use Windows HostProcess"
  refuse ((Json.elements (container.get "ports")).any
      fun port => ((port.get "hostPort").bind Json.asU64).any (0 < ·))
    s!"{containerField} may not expose host ports"

def validatePodSpec (spec : Json) : Except String Unit := do
  hostFields.forM fun field => refuse (isTrue (spec.get field)) s!"pod spec may not enable {field}"
  refuse ((spec.get "automountServiceAccountToken").bind Json.asBool != some false)
    "pod spec must set automountServiceAccountToken: false to prevent service-account impersonation"
  (Json.elements (spec.get "volumes")).forM validateVolume
  containerFields.forM fun containerField =>
    (Json.elements (spec.get containerField)).forM (validateContainer containerField)

/-- Where a kind carries its pod spec, if it carries one. -/
def podSpecPointer (kind : String) : Option (List String) :=
  if kind = "Pod" then some ["spec"]
  else if kind ∈ ["Deployment", "StatefulSet", "DaemonSet", "ReplicaSet", "Job"] then
    some ["spec", "template", "spec"]
  else if kind = "CronJob" then some ["spec", "jobTemplate", "spec", "template", "spec"]
  else none

def orError {α : Type} (v : Option α) (error : String) : Except String α :=
  match v with
  | some a => .ok a
  | none => .error error

def quote : Char := Char.ofNat 0x22

def backslash : Char := Char.ofNat 0x5C

/-- `{:?}` of a string, for what needs no Unicode table. -/
def debug (s : String) : String :=
  let escape (c : Char) : List Char :=
    if c = quote ∨ c = backslash then [backslash, c]
    else if c = '\n' then [backslash, 'n']
    else if c = '\r' then [backslash, 'r']
    else if c = '\t' then [backslash, 't']
    else if c.toNat = 0 then [backslash, '0']
    else if c.toNat < 0x20 ∨ c.toNat = 0x7F then
      [backslash, 'u', Char.ofNat 0x7B] ++ Nat.toDigits 16 c.toNat ++ [Char.ofNat 0x7D]
    else [c]
  String.ofList (quote :: s.toList.flatMap escape ++ [quote])

def validateApplyDocument (document : Json) (allowedNamespaces : List String) (force : Bool) :
    Except String Unit := do
  refuse force "forced server-side apply is disabled because it can seize field ownership"
  let apiVersion ← orError ((document.get "apiVersion").bind Json.asStr)
    "manifest is missing apiVersion"
  let kind ← orError ((document.get "kind").bind Json.asStr) "manifest is missing kind"
  refuse (!allowedApplyResources.contains (apiVersion, kind))
    (s!"apply of {apiVersion} {kind} is not allowed; " ++
      "cluster-scoped, RBAC, and custom resources are denied")
  let ns ← orError
    (((document.pointer ["metadata", "namespace"]).bind Json.asStr).filter (!·.isEmpty))
    "manifest must set metadata.namespace"
  refuse (!allowedNamespaces.contains ns)
    s!"apply to namespace {debug ns} is not allowed"
  match podSpecPointer kind with
  | some tokens => do
      let spec ← orError (document.pointer tokens) s!"{kind} manifest is missing its pod spec"
      validatePodSpec spec
  | none => return ()

end ShellfleetAgent.Agent.K8sApply
