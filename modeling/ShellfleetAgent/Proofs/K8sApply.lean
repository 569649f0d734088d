import ShellfleetAgent.Agent.K8sApply
import ShellfleetAgent.Lib.Checks

/-!
# What an accepted manifest grants

`SafePod` is what the policy is after, said of the settings Kubernetes would
apply: most are what the manifest has in one place, and two are a container's
own or, where it has none, the pod's. The policy reads the container's own
only, and that is where it and `SafePod` part. They also part over a host port
that is written as a float, which the policy does not read as a port.
-/

namespace ShellfleetAgent.Agent.K8sApply

open ShellfleetAgent.Lib ShellfleetAgent.Lib.Checks

/-! ## What Kubernetes applies -/

/-- A profile of the container's own replaces the pod's. -/
def seccompType (spec container : Json) : Option Json :=
  match container.setting ["securityContext", "seccompProfile"] with
  | some profile => profile.get "type"
  | none => (spec.setting ["securityContext", "seccompProfile"]).bind (·.get "type")

/-- Of the Windows options the container's own replace the pod's one by one. -/
def hostProcess (spec container : Json) : Option Json :=
  let tokens := ["securityContext", "windowsOptions", "hostProcess"]
  (container.setting tokens).or (spec.setting tokens)

structure SafeContainer (spec container : Json) : Prop where
  privileged : container.setting ["securityContext", "privileged"] ≠ some (.bool true)
  escalation : container.setting ["securityContext", "allowPrivilegeEscalation"] ≠
    some (.bool true)
  capabilities : Json.elements (container.setting ["securityContext", "capabilities", "add"]) = []
  procMount : container.setting ["securityContext", "procMount"] ≠ some (.string "Unmasked")
  hostPort : ∀ port ∈ Json.elements (container.get "ports"), ∀ n p,
    port.get "hostPort" = some (.number n) → n.whole = some p → p = 0
  seccomp : seccompType spec container ≠ some (.string "Unconfined")
  windows : hostProcess spec container ≠ some (.bool true)

structure SafePod (spec : Json) : Prop where
  host : ∀ field ∈ hostFields, spec.setting [field] ≠ some (.bool true)
  automount : spec.setting ["automountServiceAccountToken"] = some (.bool false)
  hostPath : ∀ volume ∈ Json.elements (spec.get "volumes"), volume.setting ["hostPath"] = none
  projected : ∀ volume ∈ Json.elements (spec.get "volumes"),
    ∀ source ∈ Json.elements (volume.pointer ["projected", "sources"]),
      source.setting ["serviceAccountToken"] = none
  containers : ∀ field ∈ containerFields, ∀ container ∈ Json.elements (spec.get field),
    SafeContainer spec container

/-- The pod spec of a document whose kind carries one. -/
def podSpec (document : Json) : Option Json :=
  (((document.get "kind").bind Json.asStr).bind podSpecPointer).bind document.pointer

/-! ## What the policy has seen -/

theorem refuse_ok {bad : Bool} {error : String} (h : refuse bad error = .ok ()) : bad = false := by
  unfold refuse at h
  split at h
  · cases h
  · next hbad => exact Bool.eq_false_iff.mpr hbad

theorem not_true {v : Option Json} (h : isTrue v = false) : v ≠ some (.bool true) := by
  rintro rfl
  cases h

theorem not_mode {v : Option Json} {mode : String} (h : isMode v mode = false) :
    v ≠ some (.string mode) := by
  rintro rfl
  simp [isMode, Json.asStr, eqIgnoreAsciiCase] at h

/-- What is set is what is there. -/
theorem setting_ne {v w : Json} {tokens : List String} (h : v.pointer tokens ≠ some w) :
    v.setting tokens ≠ some w := fun hs => h (Json.setting_eq_some.mp hs).1

/-- A container as the policy leaves it: its own settings are in order. -/
structure Checked (container : Json) : Prop where
  privileged : container.pointer ["securityContext", "privileged"] ≠ some (.bool true)
  escalation : container.pointer ["securityContext", "allowPrivilegeEscalation"] ≠
    some (.bool true)
  capabilities : Json.elements (container.pointer ["securityContext", "capabilities", "add"]) = []
  procMount : container.pointer ["securityContext", "procMount"] ≠ some (.string "Unmasked")
  seccomp : container.pointer ["securityContext", "seccompProfile", "type"] ≠
    some (.string "Unconfined")
  windows : container.pointer ["securityContext", "windowsOptions", "hostProcess"] ≠
    some (.bool true)
  hostPort : ∀ port ∈ Json.elements (container.get "ports"), ∀ n,
    port.get "hostPort" = some (.number (.posInt n)) → n.toNat = 0

theorem validateContainer_ok {field : String} {container : Json}
    (h : validateContainer field container = .ok ()) : Checked container := by
  obtain ⟨hprivileged, h⟩ := both_ok h
  obtain ⟨hescalation, h⟩ := both_ok h
  obtain ⟨hcapabilities, h⟩ := both_ok h
  obtain ⟨hprocMount, h⟩ := both_ok h
  obtain ⟨hseccomp, h⟩ := both_ok h
  obtain ⟨hwindows, hports⟩ := both_ok h
  have hport := List.any_eq_false.mp (refuse_ok hports)
  exact
    { privileged := by rw [Json.pointer_pair]; exact not_true (refuse_ok hprivileged)
      escalation := by rw [Json.pointer_pair]; exact not_true (refuse_ok hescalation)
      capabilities := by rw [Json.pointer_cons]; simpa using refuse_ok hcapabilities
      procMount := by rw [Json.pointer_pair]; exact not_mode (refuse_ok hprocMount)
      seccomp := not_mode (refuse_ok hseccomp)
      windows := not_true (refuse_ok hwindows)
      hostPort := fun port hmem n hn => by
        have hzero := hport port hmem
        rw [hn] at hzero
        simpa [Json.asU64, UInt64.lt_iff_toNat_lt] using hzero }

structure CheckedPod (spec : Json) : Prop where
  host : ∀ field ∈ hostFields, spec.get field ≠ some (.bool true)
  automount : spec.get "automountServiceAccountToken" = some (.bool false)
  hostPath : ∀ volume ∈ Json.elements (spec.get "volumes"), volume.get "hostPath" = none
  projected : ∀ volume ∈ Json.elements (spec.get "volumes"),
    ∀ source ∈ Json.elements (volume.pointer ["projected", "sources"]),
      source.get "serviceAccountToken" = none
  containers : ∀ field ∈ containerFields, ∀ container ∈ Json.elements (spec.get field),
    Checked container

theorem validatePodSpec_ok {spec : Json} (h : validatePodSpec spec = .ok ()) :
    CheckedPod spec := by
  obtain ⟨hhost, h⟩ := both_ok h
  obtain ⟨hautomount, h⟩ := both_ok h
  obtain ⟨hvolumes, hcontainers⟩ := both_ok h
  have hvolume : ∀ volume ∈ Json.elements (spec.get "volumes"), volume.get "hostPath" = none ∧
      ∀ source ∈ Json.elements (volume.pointer ["projected", "sources"]),
        source.get "serviceAccountToken" = none := by
    intro volume hmem
    obtain ⟨hpath, hsources⟩ := both_ok (forM_ok hvolumes volume hmem)
    refine ⟨Option.not_isSome_iff_eq_none.mp ?_, fun source hsource => ?_⟩
    · rw [refuse_ok hpath]
      exact Bool.false_ne_true
    · have hnot := List.any_eq_false.mp (refuse_ok hsources) source hsource
      exact Option.not_isSome_iff_eq_none.mp hnot
  exact
    { host := fun field hfield => not_true (refuse_ok (forM_ok hhost field hfield))
      automount := Json.asBool_eq_some.mp (bne_eq_false_iff_eq.mp (refuse_ok hautomount))
      hostPath := fun volume hmem => (hvolume volume hmem).1
      projected := fun volume hmem => (hvolume volume hmem).2
      containers := fun field hfield container hmem =>
        validateContainer_ok (forM_ok (forM_ok hcontainers field hfield) container hmem) }

theorem orError_ok {α : Type} {v : Option α} {error : String} {a : α}
    (h : orError v error = .ok a) : v = some a := by
  cases v with
  | none => cases h
  | some b =>
      cases h
      rfl

/-- An accepted document of a kind that carries a pod spec has one, and it was checked. -/
theorem validateApplyDocument_ok {document : Json} {allowed : List String} {force : Bool}
    (h : validateApplyDocument document allowed force = .ok ()) {kind : String}
    (hkind : document.get "kind" = some (.string kind)) {tokens : List String}
    (htokens : podSpecPointer kind = some tokens) :
    ∃ spec, document.pointer tokens = some spec ∧ CheckedPod spec := by
  obtain ⟨_, h⟩ := both_ok h
  obtain ⟨apiVersion, _, h⟩ := bind_ok h
  obtain ⟨kind', hkind', h⟩ := bind_ok h
  obtain ⟨_, h⟩ := both_ok h
  obtain ⟨ns, _, h⟩ := bind_ok h
  obtain ⟨_, h⟩ := both_ok h
  have hsame := Json.asStr_eq_some.mp (orError_ok hkind')
  rw [hkind] at hsame
  cases hsame
  rw [htokens] at h
  obtain ⟨spec, hspec, hvalid⟩ := bind_ok h
  exact ⟨spec, orError_ok hspec, validatePodSpec_ok hvalid⟩

/-! ## What it has not seen -/

/-- A container that takes nothing forbidden from the pod, and no host port
that is not written as an integer. -/
structure Covered (spec container : Json) : Prop where
  seccomp : spec.pointer ["securityContext", "seccompProfile", "type"] =
    some (.string "Unconfined") →
      (container.setting ["securityContext", "seccompProfile"]).isSome
  windows : spec.pointer ["securityContext", "windowsOptions", "hostProcess"] =
    some (.bool true) →
      (container.setting ["securityContext", "windowsOptions", "hostProcess"]).isSome
  hostPort : ∀ port ∈ Json.elements (container.get "ports"), ∀ q p,
    port.get "hostPort" = some (.number (.float q)) → (Number.float q).whole = some p → p = 0

theorem Checked.safe {spec container : Json} (hc : Checked container)
    (hcovered : Covered spec container) : SafeContainer spec container where
  privileged := setting_ne hc.privileged
  escalation := setting_ne hc.escalation
  capabilities := by
    rw [Json.elements_setting]
    exact hc.capabilities
  procMount := setting_ne hc.procMount
  hostPort port hport n p hn hp := by
    cases n with
    | posInt n =>
        cases hp
        exact hc.hostPort port hport n hn
    | negInt n => cases hp
    | float q => exact hcovered.hostPort port hport q p hn hp
  seccomp := by
    unfold seccompType
    cases hown : container.setting ["securityContext", "seccompProfile"] with
    | some profile =>
        intro htype
        refine hc.seccomp ?_
        have hpointer := (Json.setting_eq_some.mp hown).1
        show container.pointer (["securityContext", "seccompProfile"] ++ ["type"]) = _
        rw [Json.pointer_append, hpointer, Option.bind_some, Json.pointer_singleton]
        exact htype
    | none =>
        -- The pod's profile: if that is unconfined, the container has one of its own.
        intro htype
        obtain ⟨profile, hprofile, htype⟩ := Option.bind_eq_some_iff.mp htype
        have hpointer := (Json.setting_eq_some.mp hprofile).1
        have hpod : spec.pointer (["securityContext", "seccompProfile"] ++ ["type"]) =
            some (.string "Unconfined") := by
          rw [Json.pointer_append, hpointer, Option.bind_some, Json.pointer_singleton]
          exact htype
        have hsome := hcovered.seccomp hpod
        rw [hown] at hsome
        cases hsome
  windows := by
    intro hprocess
    rcases Option.or_eq_some_iff.mp hprocess with hown | ⟨hown, hpod⟩
    · exact setting_ne hc.windows hown
    · have hsome := hcovered.windows (Json.setting_eq_some.mp hpod).1
      rw [hown] at hsome
      cases hsome

theorem SafeContainer.covered {spec container : Json} (hs : SafeContainer spec container) :
    Covered spec container where
  seccomp hpod := by
    cases hown : container.setting ["securityContext", "seccompProfile"] with
    | some profile => rfl
    | none =>
        obtain ⟨profile, hprofile, htype⟩ :=
          Json.get_setting ["securityContext", "seccompProfile"] hpod
        refine absurd ?_ hs.seccomp
        rw [seccompType, hown, hprofile]
        exact htype
  windows hpod := by
    cases hown : container.setting ["securityContext", "windowsOptions", "hostProcess"] with
    | some w => rfl
    | none =>
        refine absurd ?_ hs.windows
        rw [hostProcess, hown]
        exact Json.setting_of_pointer hpod rfl
  hostPort port hport q p hq hp := hs.hostPort port hport _ p hq hp

/-- An accepted manifest is safe exactly if each of its containers is covered. -/
theorem accepted_safe_iff {document spec : Json} {allowed : List String} {force : Bool}
    (h : validateApplyDocument document allowed force = .ok ())
    (hspec : podSpec document = some spec) :
    SafePod spec ↔ ∀ field ∈ containerFields, ∀ container ∈ Json.elements (spec.get field),
      Covered spec container := by
  obtain ⟨tokens, htokens, hpointer⟩ := Option.bind_eq_some_iff.mp hspec
  obtain ⟨kind, hkind, hcarried⟩ := Option.bind_eq_some_iff.mp htokens
  obtain ⟨spec', hspec', hchecked⟩ :=
    validateApplyDocument_ok h (Json.asStr_eq_some.mp hkind) hcarried
  rw [hpointer] at hspec'
  cases hspec'
  constructor
  · intro hs field hfield container hmem
    exact (hs.containers field hfield container hmem).covered
  · intro hcovered
    have hset : ∀ v : Json, ∀ key w, v.get key ≠ some w → v.setting [key] ≠ some w := by
      intro v key w hne
      refine setting_ne ?_
      rw [Json.pointer_singleton]
      exact hne
    have hnone : ∀ v : Json, ∀ key, v.get key = none → v.setting [key] = none := by
      intro v key hnone
      rw [Json.setting, Json.pointer_singleton, hnone]
      rfl
    exact
      { host := fun field hfield => hset spec field _ (hchecked.host field hfield)
        automount := Json.setting_of_pointer (by
          rw [Json.pointer_singleton]
          exact hchecked.automount) rfl
        hostPath := fun volume hmem => hnone volume _ (hchecked.hostPath volume hmem)
        projected := fun volume hmem source hsource =>
          hnone source _ (hchecked.projected volume hmem source hsource)
        containers := fun field hfield container hmem =>
          (hchecked.containers field hfield container hmem).safe
            (hcovered field hfield container hmem) }

def safeDeployment : Json :=
  .object [("apiVersion", .string "apps/v1"), ("kind", .string "Deployment"),
    ("metadata", .object [("name", .string "web"), ("namespace", .string "ops")]),
    ("spec", .object [
      ("selector", .object [("matchLabels", .object [("app", .string "web")])]),
      ("template", .object [
        ("metadata", .object [("labels", .object [("app", .string "web")])]),
        ("spec", .object [
          ("containers", .array [.object [("name", .string "web"),
            ("image", .string "nginx:1.27"),
            ("securityContext", .object [("allowPrivilegeEscalation", .bool false)])]]),
          ("automountServiceAccountToken", .bool false)])])])]

theorem accepted_safe_iff_deployment : ∃ spec, podSpec safeDeployment = some spec ∧
    SafePod spec := by
  have haccepted : validateApplyDocument safeDeployment ["ops"] false = .ok () := rfl
  refine ⟨_, rfl, (accepted_safe_iff haccepted rfl).mpr fun field hfield container hmem => ?_⟩
  have hports : Json.elements (container.get "ports") = [] := by
    simp only [containerFields, List.mem_cons, List.not_mem_nil, or_false] at hfield
    rcases hfield with rfl | rfl | rfl
    · cases List.mem_singleton.mp hmem
      rfl
    · cases hmem
    · cases hmem
  refine ⟨nofun, nofun, fun port hport => ?_⟩
  rw [hports] at hport
  cases hport

/-- A pod that turns seccomp off for all its containers, from above them. -/
def unconfinedPod : Json :=
  .object [("apiVersion", .string "v1"), ("kind", .string "Pod"),
    ("metadata", .object [("name", .string "web"), ("namespace", .string "ops")]),
    ("spec", .object [("automountServiceAccountToken", .bool false),
      ("securityContext", .object [
        ("seccompProfile", .object [("type", .string "Unconfined")])]),
      ("containers", .array [.object [("name", .string "web"), ("image", .string "nginx:1.27")]])])]

theorem unconfined_accepted : ¬∀ document allowed force spec,
    validateApplyDocument document allowed force = .ok () → podSpec document = some spec →
      SafePod spec := by
  intro hall
  have hsafe := hall unconfinedPod ["ops"] false _ rfl rfl
  have hcontainer := hsafe.containers "containers" (List.mem_cons_self ..) _ (List.mem_cons_self ..)
  exact hcontainer.seccomp rfl

end ShellfleetAgent.Agent.K8sApply
