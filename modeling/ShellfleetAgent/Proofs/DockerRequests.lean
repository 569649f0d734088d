import Mathlib.Data.List.Forall2
import ShellfleetAgent.Agent.DockerRequests
import ShellfleetAgent.Lib.Obeyed

/-!
# One response to a request

Until its one `send`, a task has only had docker run; and it has had docker run a command
for managers only after docker has said that it is one. This is the contract of a task.
Every function below the dispatch keeps to it on its own, and the arms follow by the rule
for `?`. A task that ends without its response has panicked over a log.
-/

namespace ShellfleetAgent.Agent.DockerRequests

open ShellfleetAgent.Lib
open Docker (CommandLine)
open Reporters (SwarmRole)

variable {x : Reader} {request : DockerRequest} {h h' : TaskHistory} {cmd : CommandLine}

/-! ## Histories -/

theorem responses_snoc (e : Event HostCall HostCall.Answer) :
    responses (h ++ [e]) = responses h ++ (sentBy e).toList := by
  rw [responses, responses, List.filterMap_append]
  rw [List.filterMap_cons]
  cases sentBy e with
  | none => rfl
  | some response => rfl

theorem ManagerSeen.mono (hm : ManagerSeen x h) (hp : h <+: h') : ManagerSeen x h' := by
  obtain ⟨⟨out, hout, hsuccess⟩, out', info, hinfo, hrest⟩ := hm
  exact ⟨⟨out, hp.subset hout, hsuccess⟩, out', info, hp.subset hinfo, hrest⟩

/-- A task may spawn `cmd`. -/
def Allowed (x : Reader) (h : TaskHistory) (cmd : CommandLine) : Prop :=
  swarmCommand cmd = true → ManagerSeen x h

theorem Allowed.mono (ha : Allowed x h cmd) (hp : h <+: h') : Allowed x h' cmd :=
  fun hswarm => (ha hswarm).mono hp

theorem allowed_of_not_swarm (hcmd : swarmCommand cmd = false) : Allowed x h cmd := by
  intro hswarm
  rw [hcmd] at hswarm
  cases hswarm

/-! ## The contract -/

def taskContract (x : Reader) (request : DockerRequest) :
    Contract HostCall HostCall.Answer where
  may h c := responses h = [] ∧
    match c with
    | .send response => Answers request response
    | .output cmd | .deploy cmd => Allowed x h cmd
  answer _ _ _ := True

/-- The program keeps to the contract and ends as `Q` says, or in a panic over a log. -/
abbrev Keeps {α : Type} (x : Reader) (request : DockerRequest) (m : TaskM α)
    (Q : TaskHistory → α → Prop) (h : TaskHistory) : Prop :=
  (taskContract x request).wp m.run
    (fun h' r => match r with
      | .ok a => Q h' a
      | .error _ => responses h' = [] ∧ CutInside h') h

/-- Nothing has been sent yet, and what was done before still is. -/
structure Past (h h' : TaskHistory) : Prop where
  silent : responses h' = []
  grown : h <+: h'

theorem Past.refl (hq : responses h = []) : Past h h := ⟨hq, List.prefix_rfl⟩

section Keeps

variable {α β : Type} {m : TaskM α} {Q Q' : TaskHistory → α → Prop}

theorem Keeps.bind {f : α → TaskM β} {R : TaskHistory → β → Prop}
    (hm : Keeps x request m Q h) (hf : ∀ h' a, Q h' a → Keeps x request (f a) R h') :
    Keeps x request (m >>= f) R h := by
  refine Contract.wp_run_bind.mpr (Contract.wp_mono hm fun h' r hr => ?_)
  cases r with
  | ok a => exact hf h' a hr
  | error e => exact hr

theorem Keeps.pure {a : α} (hq : Q h a) : Keeps x request (Pure.pure a) Q h := hq

theorem Keeps.mono (hm : Keeps x request m Q h) (hQ : ∀ h' a, Q h' a → Q' h' a) :
    Keeps x request m Q' h := by
  refine Contract.wp_mono hm fun h' r hr => ?_
  cases r with
  | ok a => exact hQ h' a hr
  | error e => exact hr

end Keeps

/-- One response has been sent, and it is the request's. -/
def Answered (request : DockerRequest) (h : TaskHistory) : Prop :=
  ∃ response, responses h = [response] ∧ Answers request response

/-- The task's last step. -/
theorem keeps_send {response : DockerResponse} (hq : responses h = [])
    (ha : Answers request response) :
    Keeps x request (send response) (fun h' _ => Answered request h') h := by
  refine ⟨⟨hq, ha⟩, fun r _ => ⟨response, ?_, ha⟩⟩
  rw [responses_snoc, hq]
  rfl

/-! ## Docker runs -/

theorem keeps_output (hq : responses h = []) (ha : Allowed x h cmd) :
    Keeps x request (output cmd) (fun h' r => Past h h' ∧ ⟨.output cmd, r⟩ ∈ h') h := by
  refine ⟨⟨hq, ha⟩, fun r _ => ⟨⟨?_, List.prefix_append ..⟩, ?_⟩⟩
  · rw [responses_snoc, hq]
    rfl
  · exact List.mem_append_right _ (List.mem_singleton_self _)

theorem keeps_deployed (hq : responses h = []) (ha : Allowed x h cmd) :
    Keeps x request (deployed cmd) (fun h' _ => Past h h') h := by
  refine ⟨⟨hq, ha⟩, fun r _ => ⟨?_, List.prefix_append ..⟩⟩
  show responses (h ++ [⟨.deploy cmd, r⟩]) = []
  rw [responses_snoc, hq]
  rfl

section Functions

variable {α : Type} {cmd? : Except String CommandLine}

theorem keeps_listing {spawnError : String} {read : Str → Except Str α}
    (hq : responses h = []) (ha : Allowed x h cmd) :
    Keeps x request (listing spawnError cmd read) (fun h' _ => Past h h') h := by
  refine Keeps.bind (keeps_output hq ha) fun h₁ r ⟨hp, _⟩ => ?_
  cases r with
  | error e => exact .pure hp
  | ok out =>
      dsimp only
      split
      · exact .pure hp
      · exact .pure hp

theorem keeps_checked {run : CommandLine → TaskM (Except Str α)} (hq : responses h = [])
    (hrun : ∀ cmd, cmd? = .ok cmd → Keeps x request (run cmd) (fun h' _ => Past h h') h) :
    Keeps x request (checked cmd? run) (fun h' _ => Past h h') h := by
  cases cmd? with
  | error error => exact .pure (.refl hq)
  | ok cmd => exact hrun cmd rfl

theorem keeps_plainly (hq : responses h = []) (ha : ∀ cmd, cmd? = .ok cmd → Allowed x h cmd) :
    Keeps x request (plainly cmd?) (fun h' _ => Past h h') h := by
  cases cmd? with
  | error error => exact .pure (.refl hq)
  | ok cmd =>
      refine Keeps.bind (keeps_output hq (ha cmd rfl)) fun h₁ r ⟨hp, _⟩ => ?_
      cases r with
      | error e => exact .pure hp
      | ok out => exact .pure hp

/-- The log is the last thing before the value. -/
theorem keeps_orPanic {a? : Option α} {out : Output} (hp : Past h h')
    (hout : ⟨.output cmd, .ok out⟩ ∈ h')
    (hcut : a? = none → Docker.combineStdoutStderr out = none) :
    Keeps x request (orPanic a?) (fun h'' _ => Past h h'') h' := by
  cases a? with
  | some a => exact .pure hp
  | none => exact ⟨hp.silent, cmd, out, hout, hcut rfl⟩

theorem keeps_combined {what : String} (hq : responses h = [])
    (ha : ∀ cmd, cmd? = .ok cmd → Allowed x h cmd) :
    Keeps x request (combined what cmd?) (fun h' _ => Past h h') h := by
  cases cmd? with
  | error error => exact .pure (.refl hq)
  | ok cmd =>
      refine Keeps.bind (keeps_output hq (ha cmd rfl)) fun h₁ r ⟨hp, hr⟩ => ?_
      cases r with
      | error e => exact .pure hp
      | ok out => exact Keeps.bind (keeps_orPanic hp hr id) fun h₂ log hp => .pure hp

theorem keeps_inspected {limit : Option Nat} (hq : responses h = [])
    (ha : ∀ cmd, cmd? = .ok cmd → Allowed x h cmd) :
    Keeps x request (inspected cmd? limit) (fun h' _ => Past h h') h := by
  cases cmd? with
  | error error => exact .pure (.refl hq)
  | ok cmd =>
      refine Keeps.bind (keeps_output hq (ha cmd rfl)) fun h₁ r ⟨hp, _⟩ => ?_
      cases r with
      | error e => exact .pure hp
      | ok out =>
          dsimp only
          split
          · exact .pure hp
          · split
            · exact .pure hp
            · exact .pure hp

theorem keeps_created {idOf : List Str → Option Str} (hq : responses h = [])
    (ha : ∀ cmd, cmd? = .ok cmd → Allowed x h cmd) :
    Keeps x request (created cmd? idOf) (fun h' _ => Past h h') h := by
  cases cmd? with
  | error error => exact .pure (.refl hq)
  | ok cmd =>
      refine Keeps.bind (keeps_output hq (ha cmd rfl)) fun h₁ r ⟨hp, _⟩ => ?_
      cases r with
      | error e => exact .pure hp
      | ok out => exact .pure hp

end Functions

theorem keeps_stackDeploy {stackName composeYaml : Str} {prune : Bool} (hq : responses h = [])
    (hm : ManagerSeen x h) :
    Keeps x request (stackDeploy stackName composeYaml prune) (fun h' _ => Past h h') h := by
  unfold stackDeploy
  split
  · exact .pure (.refl hq)
  · refine Keeps.bind (keeps_deployed hq fun _ => hm) fun h₁ r hp => ?_
    cases r with
    | ok out => exact .pure hp
    | error e =>
        cases e with
        | spawn e => exact .pure hp
        | stdin e => exact .pure hp
        | wait e => exact .pure hp

/-- A role of manager is docker's word. -/
theorem keeps_swarmRole (hq : responses h = []) :
    Keeps x request (swarmRole x)
      (fun h' role => Past h h' ∧ (role = .manager → ManagerSeen x h')) h := by
  refine Keeps.bind (Q := fun h' available => Past h h' ∧ (available = true →
    ∃ out, ⟨.output Docker.dockerAvailable, .ok out⟩ ∈ h' ∧ out.success = true))
    (Keeps.bind (keeps_output hq (allowed_of_not_swarm rfl)) fun h₁ r ⟨hp, hr⟩ => ?_)
    fun h₁ available ⟨hp, hthere⟩ => ?_
  · cases r with
    | error e => exact .pure ⟨hp, fun h => by cases h⟩
    | ok out => exact .pure ⟨hp, fun hsuccess => ⟨out, hr, hsuccess⟩⟩
  cases available with
  | false => exact .pure ⟨hp, fun h => by cases h⟩
  | true =>
      refine Keeps.bind (keeps_output hp.silent (allowed_of_not_swarm rfl))
        fun h₂ r ⟨hp', hr⟩ => ?_
      have hpast : Past h h₂ := ⟨hp'.silent, hp.grown.trans hp'.grown⟩
      cases r with
      | error e => exact .pure ⟨hpast, fun h => by cases h⟩
      | ok out =>
          dsimp only
          split
          · next hsuccess =>
              split
              · exact .pure ⟨hpast, fun h => by cases h⟩
              · next info hinfo =>
                  obtain ⟨version, hversion, hok⟩ := hthere rfl
                  exact .pure ⟨hpast, fun hrole => ⟨⟨version, hp'.grown.subset hversion, hok⟩,
                    out, info, hr, hsuccess, hinfo, hrole⟩⟩
          · exact .pure ⟨hpast, fun h => by cases h⟩

/-! ## Commands that need no manager -/

/-- What a checked command is. -/
theorem eq_of_checked {check : Except String Unit} {c : CommandLine}
    (hcmd : (do check; return c) = Except.ok cmd) : cmd = c := by
  cases check with
  | error e => cases hcmd
  | ok u =>
      cases hcmd
      rfl

theorem allowed_runContainerAction {id : Str} {action : Docker.DockerContainerAction}
    (hcmd : Docker.runContainerAction id action = .ok cmd) : Allowed x h cmd := by
  rw [eq_of_checked hcmd]
  cases action with
  | start => exact allowed_of_not_swarm rfl
  | stop => exact allowed_of_not_swarm rfl
  | restart => exact allowed_of_not_swarm rfl
  | remove => exact allowed_of_not_swarm rfl

theorem allowed_removeImage {id : Str} {force : Bool}
    (hcmd : Docker.removeImage id force = .ok cmd) : Allowed x h cmd := by
  rw [eq_of_checked hcmd]
  exact allowed_of_not_swarm rfl

theorem allowed_pullImage {reference : Str} (hcmd : Docker.pullImage reference = .ok cmd) :
    Allowed x h cmd := by
  rw [eq_of_checked hcmd]
  exact allowed_of_not_swarm rfl

theorem allowed_inspectNetwork {id : Str} (hcmd : Docker.inspectNetwork id = .ok cmd) :
    Allowed x h cmd := by
  rw [eq_of_checked hcmd]
  exact allowed_of_not_swarm rfl

theorem allowed_removeNetwork {id : Str} (hcmd : Docker.removeNetwork id = .ok cmd) :
    Allowed x h cmd := by
  rw [eq_of_checked hcmd]
  exact allowed_of_not_swarm rfl

theorem allowed_inspectVolume {name : Str} (hcmd : Docker.inspectVolume name = .ok cmd) :
    Allowed x h cmd := by
  rw [eq_of_checked hcmd]
  exact allowed_of_not_swarm rfl

theorem allowed_removeVolume {name : Str} {force : Bool}
    (hcmd : Docker.removeVolume name force = .ok cmd) : Allowed x h cmd := by
  rw [eq_of_checked hcmd]
  exact allowed_of_not_swarm rfl

theorem allowed_createNetwork {name driver : Str} {subnet : Option Str}
    {attachable internal : Bool}
    (hcmd : Docker.createNetwork name driver subnet attachable internal = .ok cmd) :
    Allowed x h cmd := by
  unfold Docker.createNetwork at hcmd
  cases hname : Docker.validateObjectRef name with
  | error e =>
      rw [hname] at hcmd
      cases hcmd
  | ok u =>
      rw [hname] at hcmd
      cases hdriver : Docker.validateNetworkDriver driver with
      | error e =>
          rw [hdriver] at hcmd
          cases hcmd
      | ok u =>
          rw [hdriver] at hcmd
          rw [eq_of_checked hcmd]
          exact allowed_of_not_swarm rfl

theorem allowed_createContainer {spec : Docker.ContainerSpec}
    (hcmd : Docker.createContainer spec = .ok cmd) : Allowed x h cmd := by
  unfold Docker.createContainer at hcmd
  split at hcmd
  · cases hcmd
  · cases hcmd
    exact allowed_of_not_swarm rfl

theorem keeps_createNetwork {name driver : Str} {subnet : Option Str}
    {attachable internal : Bool} (hq : responses h = []) :
    Keeps x request (createNetwork name driver subnet attachable internal)
      (fun h' _ => Past h h') h := by
  unfold createNetwork
  split
  · exact .pure (.refl hq)
  · next cmd hcmd =>
      refine Keeps.bind (keeps_output hq (allowed_createNetwork hcmd)) fun h₁ r ⟨hp, hr⟩ => ?_
      cases r with
      | error e => exact .pure hp
      | ok out =>
          refine Keeps.bind (keeps_orPanic hp hr id) fun h₂ log hp => ?_
          split
          · exact .pure hp
          · exact .pure hp

theorem keeps_pruneVolumes (hq : responses h = []) :
    Keeps x request (pruneVolumes x) (fun h' _ => Past h h') h := by
  refine Keeps.bind (keeps_output hq (allowed_of_not_swarm rfl)) fun h₁ r ⟨hp, hr⟩ => ?_
  cases r with
  | error e => exact .pure hp
  | ok out =>
      refine keeps_orPanic hp hr fun hnone => ?_
      cases hlog : Docker.combineStdoutStderr out with
      | none => rfl
      | some log =>
          rw [Prune.pruneVolumes] at hnone
          dsimp only at hnone
          rw [hlog, Option.bind_eq_bind, Option.bind_some] at hnone
          split at hnone
          · cases hnone
          · cases hnone

theorem keeps_systemPruneApply {volumes : Bool} (hq : responses h = []) :
    Keeps x request (systemPruneApply x volumes) (fun h' _ => Past h h') h := by
  have hcmd : swarmCommand (Docker.systemPruneApply volumes) = false := rfl
  refine Keeps.bind (keeps_output hq (allowed_of_not_swarm hcmd)) fun h₁ r ⟨hp, hr⟩ => ?_
  cases r with
  | error e => exact .pure hp
  | ok out =>
      refine keeps_orPanic hp hr fun hnone => ?_
      cases hlog : Docker.combineStdoutStderr out with
      | none => rfl
      | some log =>
          rw [Prune.systemPruneApply] at hnone
          dsimp only at hnone
          rw [hlog, Option.bind_eq_bind, Option.bind_some] at hnone
          cases hnone

theorem keeps_systemPrunePreview {volumes : Bool} (hq : responses h = []) :
    Keeps x request (systemPrunePreview x volumes) (fun h' _ => Past h h') h := by
  refine Keeps.bind (keeps_output hq (allowed_of_not_swarm rfl)) fun h₁ r ⟨hp, _⟩ => ?_
  cases r with
  | error e => exact .pure hp
  | ok out =>
      dsimp only
      split
      · exact .pure hp
      · exact .pure hp

/-! ## The arms -/

/-- An arm that is for managers. -/
theorem keeps_gated {refused granted : TaskM Unit} (hq : responses h = [])
    (hrefused : ∀ h', responses h' = [] →
      Keeps x request refused (fun h' _ => Answered request h') h')
    (hgranted : ∀ h', responses h' = [] → ManagerSeen x h' →
      Keeps x request granted (fun h' _ => Answered request h') h') :
    Keeps x request
      (do
        let role ← swarmRole x
        if role ≠ .manager then refused else granted)
      (fun h' _ => Answered request h') h := by
  refine Keeps.bind (keeps_swarmRole hq) fun h₁ role ⟨hp, hrole⟩ => ?_
  split
  · exact hrefused h₁ hp.silent
  · next hnot => exact hgranted h₁ hp.silent (hrole (not_not.mp hnot))

theorem keeps_handle (request : DockerRequest) :
    Keeps x request (handle x request) (fun h' _ => Answered request h') [] := by
  have hq : responses [] = [] := rfl
  cases request with
  | imageList =>
      refine Keeps.bind (keeps_listing hq (allowed_of_not_swarm rfl)) fun h₁ images hp => ?_
      exact keeps_send hp.silent trivial
  | imageRemove id force =>
      refine Keeps.bind (keeps_combined hq fun _ => allowed_removeImage) fun h₁ r hp => ?_
      exact keeps_send hp.silent rfl
  | imagePull reference =>
      refine Keeps.bind (keeps_combined hq fun _ => allowed_pullImage) fun h₁ r hp => ?_
      exact keeps_send hp.silent rfl
  | networkList =>
      refine Keeps.bind (keeps_listing hq (allowed_of_not_swarm rfl)) fun h₁ networks hp => ?_
      exact keeps_send hp.silent trivial
  | networkInspect id =>
      refine Keeps.bind (keeps_inspected hq fun _ => allowed_inspectNetwork) fun h₁ r hp => ?_
      exact keeps_send hp.silent rfl
  | networkCreate name driver subnet attachable internal =>
      refine Keeps.bind (keeps_createNetwork hq) fun h₁ r hp => ?_
      exact keeps_send hp.silent rfl
  | networkRemove id =>
      refine Keeps.bind (keeps_combined hq fun _ => allowed_removeNetwork) fun h₁ r hp => ?_
      exact keeps_send hp.silent rfl
  | volumeList =>
      refine Keeps.bind (keeps_listing hq (allowed_of_not_swarm rfl)) fun h₁ volumes hp => ?_
      exact keeps_send hp.silent trivial
  | volumeInspect name =>
      refine Keeps.bind (keeps_inspected hq fun _ => allowed_inspectVolume) fun h₁ r hp => ?_
      exact keeps_send hp.silent rfl
  | volumeRemove name force =>
      refine Keeps.bind (keeps_combined hq fun _ => allowed_removeVolume) fun h₁ r hp => ?_
      exact keeps_send hp.silent rfl
  | volumePrune =>
      refine Keeps.bind (keeps_pruneVolumes hq) fun h₁ outcome hp => ?_
      exact keeps_send hp.silent trivial
  | stackList =>
      refine keeps_gated hq (fun h₁ hq => keeps_send hq trivial) fun h₁ hq hm => ?_
      refine Keeps.bind (keeps_listing hq fun _ => hm) fun h₂ found hp => ?_
      exact keeps_send hp.silent trivial
  | stackInspect name =>
      refine keeps_gated hq (fun h₁ hq => keeps_send hq rfl) fun h₁ hq hm => ?_
      refine Keeps.bind (keeps_checked hq fun _ _ => keeps_listing hq fun _ => hm)
        fun h₂ services hp => ?_
      refine Keeps.bind (keeps_checked hp.silent fun _ _ =>
        keeps_listing hp.silent fun _ => hm.mono hp.grown) fun h₃ tasks hp => ?_
      exact keeps_send hp.silent rfl
  | stackRemove name =>
      refine keeps_gated hq (fun h₁ hq => keeps_send hq rfl) fun h₁ hq hm => ?_
      refine Keeps.bind (keeps_combined hq fun _ _ _ => hm) fun h₂ r hp => ?_
      exact keeps_send hp.silent rfl
  | stackDeploy stackName composeYaml prune =>
      refine keeps_gated hq (fun h₁ hq => keeps_send hq rfl) fun h₁ hq hm => ?_
      refine Keeps.bind (keeps_stackDeploy hq hm) fun h₂ r hp => ?_
      exact keeps_send hp.silent rfl
  | containerList =>
      refine Keeps.bind (keeps_swarmRole hq) fun h₁ role ⟨hp, _⟩ => ?_
      refine Keeps.bind (keeps_listing hp.silent (allowed_of_not_swarm rfl))
        fun h₂ containers hp => ?_
      exact keeps_send hp.silent trivial
  | containerAction id action =>
      refine Keeps.bind (keeps_plainly hq fun _ => allowed_runContainerAction)
        fun h₁ r hp => ?_
      exact keeps_send hp.silent rfl
  | serviceAction name action =>
      refine keeps_gated hq (fun h₁ hq => keeps_send hq rfl) fun h₁ hq hm => ?_
      refine Keeps.bind (keeps_plainly hq fun _ _ _ => hm) fun h₂ r hp => ?_
      exact keeps_send hp.silent rfl
  | serviceInspect name =>
      refine keeps_gated hq (fun h₁ hq => keeps_send hq rfl) fun h₁ hq hm => ?_
      refine Keeps.bind (keeps_checked hq fun _ _ => keeps_listing hq fun _ => hm)
        fun h₂ tasks hp => ?_
      refine Keeps.bind (keeps_checked hp.silent fun _ _ =>
        keeps_listing hp.silent fun _ => hm.mono hp.grown) fun h₃ spec hp => ?_
      exact keeps_send hp.silent rfl
  | createContainer spec =>
      refine Keeps.bind (keeps_created hq fun _ => allowed_createContainer) fun h₁ r hp => ?_
      exact keeps_send hp.silent trivial
  | createService spec =>
      refine keeps_gated hq (fun h₁ hq => keeps_send hq trivial) fun h₁ hq hm => ?_
      refine Keeps.bind (keeps_created hq fun _ _ _ => hm) fun h₂ r hp => ?_
      exact keeps_send hp.silent trivial
  | swarmList =>
      refine keeps_gated hq (fun h₁ hq => keeps_send hq trivial) fun h₁ hq hm => ?_
      refine Keeps.bind (keeps_listing hq fun _ => hm) fun h₂ services hp => ?_
      refine Keeps.bind (keeps_listing hp.silent fun _ => hm.mono hp.grown)
        fun h₃ nodes hp => ?_
      exact keeps_send hp.silent trivial
  | systemPrune dryRun volumes =>
      cases dryRun with
      | true =>
          refine Keeps.bind (keeps_systemPrunePreview hq) fun h₁ outcome hp => ?_
          exact keeps_send hp.silent rfl
      | false =>
          refine Keeps.bind (keeps_systemPruneApply hq) fun h₁ outcome hp => ?_
          exact keeps_send hp.silent rfl

/-! ## All of them together -/

def taskOutline (x : Reader) : Outline (requestCode x) where
  contract := taskContract x
  loopInv _ _ l := l.elim
  post request h r :=
    match r with
    | .ok () => Answered request h
    | .error _ => responses h = [] ∧ CutInside h

theorem taskOutline_holds (x : Reader) : (taskOutline x).Holds where
  start request := Contract.wp_bind.mpr (Contract.wp_mono (keeps_handle request)
    fun h' r hr => by
      cases r with
      | ok u => exact hr
      | error e => exact hr)
  again _ _ l := l.elim

/-- Every command was allowed by what had been seen before it. -/
def Gated (x : Reader) (h : TaskHistory) : Prop :=
  ∀ before e after, h = before ++ e :: after →
    ∀ cmd, spawnedBy e.op = some cmd → Allowed x before cmd

theorem Gated.snoc (hg : Gated x h) {c : HostCall} (r : c.Answer)
    (hc : ∀ cmd, spawnedBy c = some cmd → Allowed x h cmd) : Gated x (h ++ [⟨c, r⟩]) := by
  let C : Contract HostCall HostCall.Answer :=
    ⟨fun h c => ∀ cmd, spawnedBy c = some cmd → Allowed x h cmd, fun _ _ _ => True⟩
  have hobeyed : C.Obeyed h := fun before e after heq => ⟨hg before e after heq, trivial⟩
  intro before e after heq
  exact (hobeyed.snoc hc trivial before e after heq).1

abbrev TaskTrace := Trace HostCall HostCall.Answer DockerRequest

/-- The tasks behind the responses that the queue has accepted, and what there is to say
about every task. -/
structure Accounted (x : Reader) (q : ResponseQueue) (v : Nat → Option TaskTrace)
    (owners : List Nat) : Prop where
  nodup : owners.Nodup
  owned : List.Forall₂
    (fun t response => ∃ tr, v t = some tr ∧ responses tr.hist = [response]) owners q.accepted
  gated : ∀ t tr, v t = some tr → Gated x tr.hist
  answered : ∀ t tr, v t = some tr → responses tr.hist = [] ∨ Answered tr.call tr.hist
  delivered : ∀ t tr, v t = some tr → ∀ response,
    ⟨.send response, .ok ()⟩ ∈ tr.hist → response ∈ q.accepted

section Accounted

variable {q q' : ResponseQueue} {v : Nat → Option TaskTrace} {owners : List Nat} {t : Nat}
  {tr tr' : TaskTrace}

theorem not_owner (ha : Accounted x q v owners) (hv : v t = some tr)
    (hsilent : responses tr.hist = []) : t ∉ owners := by
  intro ht
  have hboth : List.Forall₂ (fun u (_ : DockerResponse) =>
      (∃ tr response, v u = some tr ∧ responses tr.hist = [response]) ∧ True)
      owners q.accepted := by
    refine ha.owned.imp fun u response ⟨tr, htr, hone⟩ => ?_
    exact ⟨⟨tr, response, htr, hone⟩, trivial⟩
  have hall := ((List.forall₂_and_left owners q.accepted).mp hboth).1
  obtain ⟨tr', response, hv', hone⟩ := hall t ht
  rw [hv] at hv'
  cases hv'
  rw [hsilent] at hone
  cases hone

/-- The others' responses are theirs still. -/
theorem owned_update (ha : Accounted x q v owners)
    (hsilent : ∀ tr, v t = some tr → responses tr.hist = []) :
    List.Forall₂ (fun u response => ∃ tr, Function.update v t (some tr') u = some tr ∧
      responses tr.hist = [response]) owners q.accepted := by
  refine ha.owned.imp fun u response ⟨tr, htr, hone⟩ => ⟨tr, ?_, hone⟩
  refine update_kept htr fun hv => ?_
  rw [hsilent tr hv] at hone
  cases hone

/-- A task goes on without sending. -/
theorem Accounted.update (ha : Accounted x q v owners)
    (hsilent : ∀ tr, v t = some tr → responses tr.hist = [])
    (hgated : Gated x tr'.hist)
    (hanswered : responses tr'.hist = [] ∨ Answered tr'.call tr'.hist)
    (hdelivered : ∀ response, ⟨.send response, .ok ()⟩ ∈ tr'.hist → response ∈ q.accepted) :
    Accounted x q (Function.update v t (some tr')) owners where
  nodup := ha.nodup
  owned := owned_update ha hsilent
  gated := forall_update (fun u tr _ hu => ha.gated u tr hu) fun tr htr => by
    cases htr
    exact hgated
  answered := forall_update (fun u tr _ hu => ha.answered u tr hu) fun tr htr => by
    cases htr
    exact hanswered
  delivered := forall_update (fun u tr _ hu => ha.delivered u tr hu) fun tr htr => by
    cases htr
    exact hdelivered

/-- The queue has accepted one more response, that of a task which had sent none. -/
theorem Accounted.accept {response : DockerResponse} (ha : Accounted x q v owners)
    (hv : v t = some tr) (hsilent : responses tr.hist = [])
    (hq : q'.accepted = q.accepted ++ [response]) (hgated : Gated x tr'.hist)
    (hsent : responses tr'.hist = [response]) (hans : Answers tr'.call response) :
    Accounted x q' (Function.update v t (some tr')) (owners ++ [t]) where
  nodup := by
    refine List.nodup_append.mpr
      ⟨ha.nodup, List.nodup_cons.mpr ⟨List.not_mem_nil, .nil⟩, fun u hu w hw => ?_⟩
    rw [List.mem_singleton.mp hw]
    rintro rfl
    exact not_owner ha hv hsilent hu
  owned := by
    rw [hq]
    refine List.rel_append (owned_update ha fun tr₂ htr₂ => ?_)
      (.cons ⟨tr', Function.update_self .., hsent⟩ .nil)
    rw [hv] at htr₂
    cases htr₂
    exact hsilent
  gated := forall_update (fun u tr _ hu => ha.gated u tr hu) fun tr htr => by
    cases htr
    exact hgated
  answered := forall_update (fun u tr _ hu => ha.answered u tr hu) fun tr htr => by
    cases htr
    exact .inr ⟨response, hsent, hans⟩
  delivered := by
    rw [hq]
    refine forall_update (fun u tr _ hu response hmem =>
      List.mem_append_left _ (ha.delivered u tr hu response hmem)) fun tr htr response' hmem => ?_
    cases htr
    have hin : response' ∈ responses tr'.hist := List.mem_filterMap.mpr ⟨_, hmem, rfl⟩
    rw [hsent] at hin
    exact List.mem_append_right _ hin

/-- A task that is killed has still done what it has. -/
theorem Accounted.kill (ha : Accounted x q v owners) (hv : v t = some ⟨request, h, true⟩) :
    Accounted x q (Function.update v t (some ⟨request, h, false⟩)) owners where
  nodup := ha.nodup
  owned := by
    refine ha.owned.imp fun u response hu => ?_
    obtain ⟨tr, htr, hone⟩ := hu
    by_cases hut : u = t
    · subst hut
      rw [hv] at htr
      cases htr
      exact ⟨⟨request, h, false⟩, Function.update_self .., hone⟩
    · exact ⟨tr, (Function.update_of_ne hut ..).trans htr, hone⟩
  gated := forall_update (fun u tr _ hu => ha.gated u tr hu) fun tr htr => by
    cases htr
    exact ha.gated t ⟨request, h, true⟩ hv
  answered := forall_update (fun u tr _ hu => ha.answered u tr hu) fun tr htr => by
    cases htr
    exact ha.answered t ⟨request, h, true⟩ hv
  delivered := forall_update (fun u tr _ hu => ha.delivered u tr hu) fun tr htr => by
    cases htr
    exact ha.delivered t ⟨request, h, true⟩ hv

end Accounted

/-- An accepted response is one more; a refused one is only in the task's own trace. -/
theorem accounted_send {q q' : ResponseQueue} {v : Nat → Option TaskTrace} {owners : List Nat}
    {t : Nat} {response : DockerResponse} {ch : HostChoice}
    {r : Except OutgoingSendError Unit} (ha : Accounted x q v owners)
    (hv : v t = some ⟨request, h, true⟩) (hsilent : responses h = [])
    (hans : Answers request response)
    (hx : q.exec (.send response) ch = some (q', r)) :
    ∃ owners', Accounted x q'
      (Function.update v t (some ⟨request, h ++ [⟨.send response, r⟩], true⟩)) owners' := by
  have hgated : Gated x (h ++ [⟨.send response, r⟩]) :=
    Gated.snoc (c := .send response) (ha.gated t _ hv) r fun cmd hcmd => by cases hcmd
  have hsent : responses (h ++ [⟨.send response, r⟩]) = [response] := by
    rw [responses_snoc, hsilent]
    rfl
  have hquiet : ∀ tr, v t = some tr → responses tr.hist = [] := by
    intro tr htr
    rw [hv] at htr
    cases htr
    exact hsilent
  cases ch with
  | output result => cases hx
  | deploy result => cases hx
  | send =>
      simp only [ResponseQueue.exec] at hx
      split at hx
      · cases hx
        refine ⟨owners, ha.update hquiet hgated (.inr ⟨response, hsent, hans⟩) ?_⟩
        intro response' hmem
        rcases List.mem_append.mp hmem with hmem | hmem
        · exact ha.delivered t _ hv response' hmem
        · cases List.mem_singleton.mp hmem
      · cases hx
        exact ⟨owners ++ [t], ha.accept hv hsilent rfl hgated hsent hans⟩

theorem accounted_spawned {q : ResponseQueue} {v : Nat → Option TaskTrace}
    {owners : List Nat} {t : Nat} {c : HostCall} {r : c.Answer}
    (ha : Accounted x q v owners) (hv : v t = some ⟨request, h, true⟩)
    (hsilent : responses h = []) (hcmd : spawnedBy c = some cmd) (hallowed : Allowed x h cmd) :
    Accounted x q (Function.update v t (some ⟨request, h ++ [⟨c, r⟩], true⟩)) owners := by
  have hsent : sentBy ⟨c, r⟩ = none := by
    cases c with
    | output cmd => rfl
    | deploy cmd => rfl
    | send response => cases hcmd
  refine ha.update (fun tr htr => ?_) ((ha.gated t _ hv).snoc r fun cmd' hcmd' => ?_)
    (.inl ?_) fun response hmem => ?_
  · rw [hv] at htr
    cases htr
    exact hsilent
  · rw [hcmd] at hcmd'
    cases hcmd'
    exact hallowed
  · rw [responses_snoc, hsilent, hsent]
    rfl
  · rcases List.mem_append.mp hmem with hmem | hmem
    · exact ha.delivered t _ hv response hmem
    · rw [← List.mem_singleton.mp hmem] at hsent
      cases hsent

theorem taskOutline_sound (x : Reader) :
    (taskOutline x).Sound requestHost (fun _ _ => True)
      fun q v => ∃ owners, Accounted x q v owners where
  init q hq := by
    have hnone : q.accepted = [] := hq.1
    refine ⟨[], .nil, ?_, ?_, ?_, ?_⟩
    · rw [hnone]
      exact .nil
    · intro t tr htr
      cases htr
    · intro t tr htr
      cases htr
    · intro t tr htr
      cases htr
  spawn q v t c q' := by
    rintro ⟨owners, ha⟩ hnone hq
    cases hq
    refine ⟨owners, ha.update (fun tr htr => ?_) ?_ (.inl rfl) fun response hmem => ?_⟩
    · rw [hnone] at htr
      cases htr
    · intro before e after heq
      cases before <;> cases heq
    · cases hmem
  act s t ch c o k h q' r := by
    rintro ⟨owners, ha⟩ ht ⟨hsilent, hmay⟩ _ hx
    have hv : s.view t = some ⟨c, h, true⟩ := Pool.State.view_eq ht
    refine ⟨trivial, ?_⟩
    cases o with
    | send response => exact accounted_send ha hv hsilent hmay hx
    | output cmd =>
        cases ch with
        | output result =>
            cases hx
            exact ⟨owners, accounted_spawned ha hv hsilent rfl hmay⟩
        | deploy result => cases hx
        | send => cases hx
    | deploy cmd =>
        cases ch with
        | deploy result =>
            cases hx
            exact ⟨owners, accounted_spawned ha hv hsilent rfl hmay⟩
        | output result => cases hx
        | send => cases hx
  kill q v t c h := by
    rintro ⟨owners, ha⟩ hv
    exact ⟨owners, ha.kill hv⟩
  env q v e q' := by
    rintro ⟨owners, ha⟩ hq
    have haccepted : q'.accepted = q.accepted := by
      cases e with
      | take =>
          simp only [requestHost, ResponseQueue.env] at hq
          split at hq
          · cases hq
            rfl
          · cases hq
      | close =>
          cases hq
          rfl
    exact ⟨owners, ⟨ha.nodup, haccepted ▸ ha.owned, ha.gated, ha.answered,
      haccepted ▸ ha.delivered⟩⟩

/-- However many requests there are and however their tasks interleave, the accepted
responses belong to different tasks, each to the one whose request it answers. And a task
that has ended has sent its one response, which is in the queue unless the queue has
refused it; or it has sent none, because it panicked over a log that is cut inside a
character. -/
theorem request_answered_once {s : RequestState} (hr : (requestPool x).Reachable s) :
    (∃ owners : List Nat, owners.Nodup ∧
      List.Forall₂ (fun t response => ∃ tr, s.view t = some tr ∧
        responses tr.hist = [response] ∧ Answers tr.call response) owners s.world.accepted) ∧
    ∀ t c h r, s.threads t = some ⟨⟨c, h, true⟩, .ret (.inr r)⟩ →
      (∃ response, responses h = [response] ∧ Answers c response ∧
        (response ∈ s.world.accepted ∨ ∃ e, ⟨.send response, .error e⟩ ∈ h)) ∨
      (responses h = [] ∧ CutInside h) := by
  obtain ⟨⟨owners, ha⟩, hkept⟩ :=
    Outline.invariant (taskOutline_holds x) (taskOutline_sound x) hr
  refine ⟨⟨owners, ha.nodup, ?_⟩, fun t c h r ht => ?_⟩
  · refine ha.owned.imp fun t response hu => ?_
    obtain ⟨tr, htr, hone⟩ := hu
    refine ⟨tr, htr, hone, ?_⟩
    rcases ha.answered t tr htr with hnone | ⟨response', hone', hans⟩
    · rw [hone] at hnone
      cases hnone
    · rw [hone] at hone'
      cases hone'
      exact hans
  have hpost : (taskOutline x).post c h r := hkept t _ ht
  cases r with
  | error e => exact .inr hpost
  | ok u =>
      obtain ⟨response, hone, hans⟩ := hpost
      refine .inl ⟨response, hone, hans, ?_⟩
      have hmem : response ∈ responses h := by
        rw [hone]
        exact List.mem_singleton_self _
      obtain ⟨⟨o, r⟩, he, hsent⟩ := List.mem_filterMap.mp hmem
      cases o with
      | output cmd => cases hsent
      | deploy cmd => cases hsent
      | send response' =>
          cases hsent
          cases r with
          | error e => exact .inr ⟨e, he⟩
          | ok u => exact .inl (ha.delivered t _ (Pool.State.view_eq ht) response he)

/-- A host on which `docker info` is that of an active manager, and which has nothing else. -/
def managerReader : Reader where
  info _ := some ⟨some ⟨"active".toList, true⟩⟩
  container _ := none
  service _ := none
  node _ := none
  task _ := none
  image _ := none
  network _ := none
  volume _ := none
  stack _ := none
  stackService _ := none
  stackTask _ := none
  df _ := none
  value _ := .error "expected value".toList
  count _ := none
  parseDockerSize _ := 0

def printed (text : String) : HostChoice :=
  .output (.ok ⟨some 0, Text.toUtf8 text.toList, []⟩)

def infoText : String :=
  "\x7b\"Swarm\":\x7b\"LocalNodeState\":\"active\",\"ControlAvailable\":true\x7d\x7d"

/-- A listing of stacks and a pull, in turns; the pull is done first. -/
def twoRequests : List (Pool.Label DockerRequest HostChoice ResponseEnv) :=
  [.spawn 0 .stackList, .spawn 1 (.imagePull "nginx".toList), .act 1 (printed ""),
    .act 0 (printed "27.0.3"), .act 0 (printed infoText), .act 1 .send, .act 0 (printed ""),
    .act 0 .send]

def noRequests : RequestState where
  world := ⟨256, [], 0, false⟩
  threads _ := none

theorem noRequests_reachable : (requestPool managerReader).Reachable noRequests :=
  .init ⟨⟨rfl, rfl, rfl⟩, fun _ => rfl⟩

def bothAnswered : RequestState :=
  ((requestPool managerReader).run noRequests twoRequests).get (by decide)

theorem bothAnswered_reachable : (requestPool managerReader).Reachable bothAnswered :=
  noRequests_reachable.run (Option.some_get _).symm

theorem request_answered_once_two :
    bothAnswered.world.accepted =
      [.imagePull "nginx".toList true [] none, .stackList true true [] none] ∧
    ∃ owners : List Nat, owners.Nodup ∧
      List.Forall₂ (fun t response => ∃ tr, bothAnswered.view t = some tr ∧
        responses tr.hist = [response] ∧ Answers tr.call response)
        owners bothAnswered.world.accepted :=
  ⟨by decide, (request_answered_once bothAnswered_reachable).1⟩

/-- Whatever is asked of it, and whatever docker answers, no task spawns a command of
`docker service`, `docker stack` or `docker node` before docker has told that task that it
is an active manager. -/
theorem swarm_commands_gated {s : RequestState} (hr : (requestPool x).Reachable s) {t : Nat}
    {tr : TaskTrace} (htr : s.view t = some tr) {before after : TaskHistory}
    {e : Event HostCall HostCall.Answer} (hhist : tr.hist = before ++ e :: after)
    {cmd : CommandLine} (hcmd : spawnedBy e.op = some cmd) (hswarm : swarmCommand cmd = true) :
    ManagerSeen x before := by
  obtain ⟨⟨owners, ha⟩, _⟩ := Outline.invariant (taskOutline_holds x) (taskOutline_sound x) hr
  exact ha.gated t tr htr before e after hhist cmd hcmd hswarm

/-- What the listing of stacks has done before it lists them. -/
def askedRole : TaskHistory :=
  [⟨.output Docker.dockerAvailable, .ok ⟨some 0, Text.toUtf8 "27.0.3".toList, []⟩⟩,
    ⟨.output Docker.swarmRole, .ok ⟨some 0, Text.toUtf8 infoText.toList, []⟩⟩]

theorem swarm_commands_gated_listing :
    (∃ tr r after, bothAnswered.view 0 = some tr ∧
      tr.hist = askedRole ++ ⟨.output Docker.listStacks, r⟩ :: after) ∧
    ManagerSeen managerReader askedRole := by
  have hview : bothAnswered.view 0 = some ⟨.stackList, askedRole ++
      [⟨.output Docker.listStacks, .ok ⟨some 0, [], []⟩⟩,
        ⟨.send (.stackList true true [] none), .ok ()⟩], true⟩ := rfl
  exact ⟨⟨_, _, _, hview, rfl⟩,
    swarm_commands_gated bothAnswered_reachable hview rfl rfl rfl⟩

end ShellfleetAgent.Agent.DockerRequests
