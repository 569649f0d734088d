import ShellfleetAgent.Agent.K8sManifests
import ShellfleetAgent.Lib.Checks

/-!
# What a request to apply sends

Each document is checked only when its turn comes, and by then those before it are with
the apiserver. So a document that is refused stops itself and everything after it, and
nothing before.
-/

namespace ShellfleetAgent.Agent.K8sApply

open ShellfleetAgent.Lib Checks

variable {Obj : Type} {cluster : Cluster Obj} {raw : Option String} {force : Bool}

/-- A document that parses, to an object that the policy lets through. -/
def Vetted (cluster : Cluster Obj) (raw : Option String) (force : Bool) (text : Str)
    (obj : Obj) : Prop :=
  cluster.fromStr text = .ok obj ∧ ∃ document allowedNamespaces,
    cluster.toValue obj = .ok document ∧
      configuredApplyNamespaces raw = .ok allowedNamespaces ∧
      validateApplyDocument document allowedNamespaces force = .ok ()

theorem checkDocument_ok {allowedNamespaces : List String}
    (hraw : configuredApplyNamespaces raw = .ok allowedNamespaces) {i : Nat} {text : Str}
    {obj : Obj} (h : checkDocument cluster allowedNamespaces force i text = .ok obj) :
    Vetted cluster raw force text obj := by
  obtain ⟨parsed, hparse, h⟩ := bind_ok h
  obtain ⟨document, hvalue, h⟩ := bind_ok h
  obtain ⟨_, hpolicy, h⟩ := bind_ok h
  cases h
  exact ⟨mapError_ok hparse, document, allowedNamespaces, mapError_ok hvalue, hraw,
    mapError_ok hpolicy⟩

theorem patchFor_obj {dryRun : Bool} {i : Nat} {obj : Obj} {gvk : GroupVersionKind}
    {patch : Patch Obj} (h : patchFor cluster dryRun i obj = .ok (gvk, patch)) :
    patch.obj = obj := by
  obtain ⟨types, _, h⟩ := bind_ok h
  obtain ⟨gvk', _, h⟩ := bind_ok h
  obtain ⟨found, _, h⟩ := bind_ok h
  obtain ⟨ns, _, h⟩ := bind_ok h
  cases h
  rfl

/-- What was sent is of an initial run of `texts`, each of which is vetted; and the request
fails. -/
def StopsWithin (cluster : Cluster Obj) (raw : Option String) (force : Bool)
    (texts : List Str) (applied : Applied Obj) : Prop :=
  ∃ sent, sent <+: texts ∧
    List.Forall₂ (fun text patch => Vetted cluster raw force text patch.obj) sent applied.sent ∧
    ∃ e, applied.result = .error e

theorem StopsWithin.refused (texts : List Str) (e : String) :
    StopsWithin cluster raw force texts ⟨[], .error e⟩ :=
  ⟨[], List.nil_prefix, .nil, e, rfl⟩

theorem StopsWithin.cons {text : Str} {texts : List Str} {patch : Patch Obj}
    {applied : Applied Obj} (h : StopsWithin cluster raw force texts applied)
    (hvetted : Vetted cluster raw force text patch.obj) :
    StopsWithin cluster raw force (text :: texts)
      ⟨patch :: applied.sent, applied.result⟩ := by
  obtain ⟨sent, hprefix, hall, herror⟩ := h
  exact ⟨text :: sent, (List.prefix_cons_inj text).mpr hprefix, .cons hvetted hall, herror⟩

/-- The documents before one that is refused, without the empty ones. -/
theorem applyDocuments_stops {allowedNamespaces : List String} {dryRun : Bool}
    (hraw : configuredApplyNamespaces raw = .ok allowedNamespaces) {bad : Str}
    (hsome : bad ≠ []) (hbad : ∀ obj, ¬ Vetted cluster raw force bad obj) {after : List Str}
    (docs : List Str) : ∀ (i : Nat) (out : String) (before : List Str),
      docs.map Text.trim = before ++ bad :: after →
        StopsWithin cluster raw force (before.filter (· ≠ []))
          (applyDocuments cluster allowedNamespaces dryRun force i out docs) := by
  induction docs with
  | nil =>
      intro i out before hdocs
      cases before <;> cases hdocs
  | cons text docs ih =>
      intro i out before hdocs
      rw [applyDocuments]
      dsimp only
      by_cases hempty : Text.trim text = []
      · rw [if_pos hempty]
        cases before with
        | nil => exact absurd ((List.cons.inj hdocs).1.symm.trans hempty) hsome
        | cons first before =>
            obtain ⟨hfirst, hdocs⟩ := List.cons.inj hdocs
            rw [List.filter_cons_of_neg (by rw [← hfirst, hempty]; decide)]
            exact ih (i + 1) out before hdocs
      · rw [if_neg hempty]
        split
        · exact .refused _ _
        · next obj hcheck =>
            have hvetted := checkDocument_ok hraw hcheck
            cases before with
            | nil =>
                rw [(List.cons.inj hdocs).1] at hvetted
                exact absurd hvetted (hbad obj)
            | cons first before =>
                obtain ⟨hfirst, hdocs⟩ := List.cons.inj hdocs
                rw [List.filter_cons_of_pos (by rw [← hfirst]; exact decide_eq_true hempty)]
                rw [hfirst] at hvetted
                split
                · exact .refused _ _
                · next gvk patch hpatch =>
                    rw [← patchFor_obj hpatch] at hvetted
                    split
                    · exact (StopsWithin.refused _ _).cons hvetted
                    · exact (ih (i + 1) _ before hdocs).cons hvetted

/-- Where a document fails to parse or is against the policy, what is sent is of an initial
run of the documents before it, and the request fails. -/
theorem refused_not_sent {yaml : Str} {dryRun : Bool} {before after : List Str} {bad : Str}
    (hdocs : (documents yaml).map Text.trim = before ++ bad :: after) (hsome : bad ≠ [])
    (hbad : ∀ obj, ¬ Vetted cluster raw force bad obj) :
    ∃ sent, sent <+: before.filter (· ≠ []) ∧
      List.Forall₂ (fun text patch => Vetted cluster raw force text patch.obj) sent
        (apply cluster raw yaml dryRun force).sent ∧
      ∃ e, (apply cluster raw yaml dryRun force).result = .error e := by
  show StopsWithin cluster raw force _ _
  unfold apply
  split
  · exact .refused _ _
  · next allowedNamespaces hraw =>
      split
      · exact .refused _ _
      · exact applyDocuments_stops hraw hsome hbad _ _ _ _ hdocs

/-! A config map, and a cluster role that the policy denies after it. -/

def configMapText : Str :=
  "apiVersion: v1\nkind: ConfigMap\nmetadata:\n  name: motd\n  namespace: web".toList

def clusterRoleText : Str :=
  "apiVersion: rbac.authorization.k8s.io/v1\nkind: ClusterRole\nmetadata:\n  name: all".toList

def mapAndRole : Str := configMapText ++ "\n---\n".toList ++ clusterRoleText

def configMap : Json :=
  .object [("apiVersion", .string "v1"), ("kind", .string "ConfigMap"),
    ("metadata", .object [("name", .string "motd"), ("namespace", .string "web")])]

def clusterRole : Json :=
  .object [("apiVersion", .string "rbac.authorization.k8s.io/v1"), ("kind", .string "ClusterRole"),
    ("metadata", .object [("name", .string "all")])]

/-- An apiserver that knows config maps and takes what it is sent. -/
def mapCluster : Cluster Json where
  tryDefault := .ok ()
  fromStr text :=
    if text = configMapText then .ok configMap
    else if text = clusterRoleText then .ok clusterRole
    else .error "unknown"
  toValue := .ok
  types obj := do
    let apiVersion ← (obj.get "apiVersion").bind Json.asStr
    let kind ← (obj.get "kind").bind Json.asStr
    return ⟨apiVersion, kind⟩
  ns obj := (obj.pointer ["metadata", "namespace"]).bind Json.asStr
  nameAny obj := ((obj.pointer ["metadata", "name"]).bind Json.asStr).getD ""
  tryFrom types := .ok ⟨"", types.apiVersion, types.kind⟩
  pinnedKind _ gvk :=
    if gvk.kind = "ConfigMap" then .ok (⟨"", "v1", "configmaps"⟩, .namespaced)
    else .error "not found"
  patch _ patch := .ok patch.obj

theorem mapAndRole_documents :
    (documents mapAndRole).map Text.trim = [configMapText] ++ clusterRoleText :: [] := by
  decide +kernel

theorem clusterRole_refused (obj : Json) :
    ¬ Vetted mapCluster (some "web") false clusterRoleText obj := by
  intro h
  obtain ⟨hparse, document, allowedNamespaces, hvalue, _, hpolicy⟩ := h
  cases show Except.ok clusterRole = Except.ok obj from hparse
  cases hvalue
  cases show Except.error _ = Except.ok () from hpolicy

theorem refused_not_sent_mapAndRole :
    ∃ sent, sent <+: [configMapText].filter (· ≠ []) ∧
      List.Forall₂ (fun text patch => Vetted mapCluster (some "web") false text patch.obj) sent
        (apply mapCluster (some "web") mapAndRole false false).sent ∧
      ∃ e, (apply mapCluster (some "web") mapAndRole false false).result = .error e :=
  refused_not_sent mapAndRole_documents (by decide) clusterRole_refused

/-- The request fails for its second document, and the first is applied. -/
theorem applied_before_refused :
    (∃ bad ∈ (documents mapAndRole).map Text.trim,
      bad ≠ [] ∧ ∀ obj, ¬ Vetted mapCluster (some "web") false bad obj) ∧
    (apply mapCluster (some "web") mapAndRole false false).sent.map (·.name) = ["motd"] ∧
    (apply mapCluster (some "web") mapAndRole false false).result =
      .error ("doc 1: policy: apply of rbac.authorization.k8s.io/v1 ClusterRole is not " ++
        "allowed; cluster-scoped, RBAC, and custom resources are denied") := by
  refine ⟨⟨clusterRoleText, ?_, by decide, clusterRole_refused⟩, rfl, rfl⟩
  rw [mapAndRole_documents]
  exact List.mem_cons_of_mem _ (List.mem_singleton.mpr rfl)

end ShellfleetAgent.Agent.K8sApply
