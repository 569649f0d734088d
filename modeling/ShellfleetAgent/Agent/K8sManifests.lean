import ShellfleetAgent.Agent.K8sApply
import ShellfleetAgent.Lib.Text

/-!
# Applying Kubernetes manifests

`k8s::apply`: the documents of a request go through parsing, the policy, discovery and the
apiserver one after the other, each all the way before the next. The parser, the objects
it makes and the apiserver are parameters.
-/

namespace ShellfleetAgent.Agent.K8sApply

open ShellfleetAgent.Lib

def applyFieldManager : String := "shellfleet"

def applyNamespacesEnv : String := "SHELLFLEET_K8S_APPLY_NAMESPACES"

/-- `raw` is the value of the variable. -/
def configuredApplyNamespaces (raw : Option String) : Except String (List String) := do
  let raw ← orError raw
    (s!"Kubernetes apply is disabled: set {applyNamespacesEnv} to a comma-separated " ++
      "namespace allow-list")
  let namespaces := ((raw.toList.splitOn ',').map Text.trim).filter (· ≠ [])
  let namespaces := namespaces.map String.ofList
  refuse namespaces.isEmpty
    s!"Kubernetes apply is disabled: {applyNamespacesEnv} contains no namespaces"
  refuse (namespaces.contains "*")
    s!"Kubernetes apply refuses wildcard namespaces in {applyNamespacesEnv}"
  return namespaces

structure TypeMeta where
  apiVersion : String
  kind : String

structure GroupVersionKind where
  group : String
  version : String
  kind : String

structure ApiResource where
  group : String
  version : String
  plural : String

inductive Scope
  | cluster
  | namespaced
  deriving DecidableEq

/-- A server-side apply on its way to the apiserver, to the resource in one namespace or
in none. -/
structure Patch (Obj : Type) where
  resource : ApiResource
  ns : Option String
  name : String
  fieldManager : String
  dryRun : Bool
  obj : Obj

/-- The libraries and the cluster. What the apiserver answers may be another thing for each
document. -/
structure Cluster (Obj : Type) where
  tryDefault : Except String Unit
  fromStr : Str → Except String Obj
  toValue : Obj → Except String Json
  types : Obj → Option TypeMeta
  ns : Obj → Option String
  nameAny : Obj → String
  tryFrom : TypeMeta → Except String GroupVersionKind
  pinnedKind : Nat → GroupVersionKind → Except String (ApiResource × Scope)
  patch : Nat → Patch Obj → Except String Obj

/-- What was sent, in order, and what `apply` returns. -/
structure Applied (Obj : Type) where
  sent : List (Patch Obj)
  result : Except String String

variable {Obj : Type} (cluster : Cluster Obj)

/-- Document number `i` up to the policy. -/
def checkDocument (allowedNamespaces : List String) (force : Bool) (i : Nat) (raw : Str) :
    Except String Obj := do
  let obj ← (cluster.fromStr raw).mapError fun e => s!"doc {i}: parse: {e}"
  let document ← (cluster.toValue obj).mapError fun e => s!"doc {i}: normalize manifest: {e}"
  (validateApplyDocument document allowedNamespaces force).mapError fun e =>
    s!"doc {i}: policy: {e}"
  return obj

/-- There is no default namespace: the manifest has to name one. -/
def targetNamespace (i : Nat) (gvk : GroupVersionKind) (scope : Scope) (obj : Obj) :
    Except String (Option String) :=
  match scope with
  | .cluster => .ok none
  | .namespaced =>
    match cluster.ns obj with
    | some ns => .ok (some ns)
    | none => .error <|
        s!"doc {i} ({gvk.kind} {cluster.nameAny obj}): missing metadata.namespace; specify it " ++
          "in the manifest (namespaced kind, no default fallback)"

/-- Where an object goes, once the policy has let it through. -/
def patchFor (dryRun : Bool) (i : Nat) (obj : Obj) :
    Except String (GroupVersionKind × Patch Obj) := do
  let types ← orError (cluster.types obj) s!"doc {i}: missing apiVersion/kind"
  let gvk ← (cluster.tryFrom types).mapError fun e => s!"doc {i}: gvk: {e}"
  let (ar, scope) ← (cluster.pinnedKind i gvk).mapError fun e => s!"doc {i}: discovery: {e}"
  let ns ← targetNamespace cluster i gvk scope obj
  return (gvk, ⟨ar, ns, cluster.nameAny obj, applyFieldManager, dryRun, obj⟩)

def appliedLine (dryRun : Bool) (kind ns name : String) : String :=
  let verb := if dryRun then "(dry-run)" else "applied"
  s!"{verb} {kind}/{ns} {name}\n"

/-- The loop, from document number `i` on. An error drops `out`. -/
def applyDocuments (allowedNamespaces : List String) (dryRun force : Bool) :
    Nat → String → List Str → Applied Obj
  | _, out, [] => ⟨[], .ok out⟩
  | i, out, raw :: documents =>
      let raw := Text.trim raw
      if raw = [] then applyDocuments allowedNamespaces dryRun force (i + 1) out documents
      else
        match checkDocument cluster allowedNamespaces force i raw with
        | .error e => ⟨[], .error e⟩
        | .ok obj =>
          match patchFor cluster dryRun i obj with
          | .error e => ⟨[], .error e⟩
          | .ok (gvk, patch) =>
            let ns := (cluster.ns obj).getD "-"
            match cluster.patch i patch with
            | .error e => ⟨[patch], .error s!"doc {i} ({gvk.kind} {ns}/{patch.name}): {e}"⟩
            | .ok applied =>
              let line := appliedLine dryRun gvk.kind ns (cluster.nameAny applied)
              let rest := applyDocuments allowedNamespaces dryRun force (i + 1) (out ++ line)
                documents
              ⟨patch :: rest.sent, rest.result⟩

def documents (yaml : Str) : List Str := Text.splitStr "\n---\n".toList yaml

/-- `raw` is the value of the namespace variable. -/
def apply (raw : Option String) (yaml : Str) (dryRun force : Bool) : Applied Obj :=
  match configuredApplyNamespaces raw with
  | .error e => ⟨[], .error e⟩
  | .ok allowedNamespaces =>
    match cluster.tryDefault with
    | .error e => ⟨[], .error s!"kube client: {e}"⟩
    | .ok () => applyDocuments cluster allowedNamespaces dryRun force 0 "" (documents yaml)

end ShellfleetAgent.Agent.K8sApply
