import ShellfleetAgent.Agent.Docker
import ShellfleetAgent.Lib.Checks

/-!
# What docker reads as its options

Most of what the agent passes to docker has been through a check that lets no
dash through in front, and then it does not matter what docker's grammar is.
`create_container` and `create_service` check nothing but that the image is not
blank. Their other fields are values of options, and the command comes after a
`--`; the image is the one string that stands where docker looks for options,
so it decides.
-/

namespace ShellfleetAgent.Agent.Docker

open ShellfleetAgent.Lib ShellfleetAgent.Lib.Checks ShellfleetAgent.Lib.Options
open ShellfleetAgent.Agent.Streams

/-! ## The checks -/

theorem validateRef_ok {longest : Nat} {first each : Char → Bool} {badLength invalid : String}
    {s : Str} (h : validateRef longest first each badLength invalid s = .ok ())
    (hfirst : first '-' = false) : s ≠ [] ∧ dashed s = false := by
  rw [validateRef] at h
  split at h
  · cases h
  · next hlen =>
      split at h
      · cases h
      · next hchars =>
          cases s with
          | nil => simp at hlen
          | cons c s =>
              have hc : first c = true := by
                by_contra hc
                simp [hc] at hchars
              have hdash : c ≠ '-' := by
                intro heq
                rw [heq, hfirst] at hc
                cases hc
              simpa [dashed] using hdash

theorem validateObjectRef_ok {s : Str} (h : validateObjectRef s = .ok ()) :
    s ≠ [] ∧ dashed s = false := validateRef_ok h (by decide)

theorem validateImageRef_ok {s : Str} (h : validateImageRef s = .ok ()) :
    s ≠ [] ∧ dashed s = false := validateRef_ok h (by decide)

theorem validateSubnet_ok {s : Str} (h : validateSubnet s = .ok ()) :
    s ≠ [] ∧ dashed s = false := validateRef_ok h (by decide)

theorem validateNetworkDriver_ok {s : Str} (h : validateNetworkDriver s = .ok ()) :
    s ≠ [] ∧ dashed s = false := validateObjectRef_ok (mapError_ok h)

theorem validContainerId_undashed {s : Str} (h : validContainerId s = true) :
    dashed s = false := by
  simp only [validContainerId, Bool.and_eq_true, decide_eq_true_eq] at h
  simpa [dashed] using h.1.1.2

/-! ## The lines -/

def CommandLine.Undashed (line : CommandLine) : Prop := ∀ t ∈ line.args, Options.Undashed t

variable {line : CommandLine}

/-- One reference is checked, and the line that was made of it is returned. -/
theorem undashed_of_checked {check : Str → Except String Unit} {s : Str} {made : CommandLine}
    (hcheck : check s = .ok () → s ≠ [] ∧ dashed s = false)
    (h : (do check s; return made) = Except.ok line)
    (hmade : s ≠ [] → dashed s = false → made.Undashed) : line.Undashed := by
  obtain ⟨hs, h⟩ := both_ok h
  obtain ⟨hne, hdash⟩ := hcheck hs
  cases h
  exact hmade hne hdash

theorem runContainerAction_undashed {id : Str} {action : DockerContainerAction}
    (h : runContainerAction id action = .ok line) : line.Undashed := by
  apply undashed_of_checked validateObjectRef_ok h
  intro _ hdash
  cases action <;> simp [CommandLine.Undashed, hdash]

theorem runSwarmAction_undashed {name : Str} {action : SwarmAction}
    (h : runSwarmAction name action = .ok line) : line.Undashed := by
  apply undashed_of_checked validateObjectRef_ok h
  intro hne hdash
  cases action with
  | scale n =>
      have hscale : dashed (name ++ '=' :: Text.decimal n) = false := by
        rw [dashed_append hne, hdash]
      simp [CommandLine.Undashed, hscale]
  | forceUpdate => simp [CommandLine.Undashed, hdash]
  | remove => simp [CommandLine.Undashed, hdash]

theorem createNetwork_undashed {name driver : Str} {subnet : Option Str}
    {attachable internal : Bool}
    (h : createNetwork name driver subnet attachable internal = .ok line) : line.Undashed := by
  rw [createNetwork] at h
  obtain ⟨hname, h⟩ := both_ok h
  obtain ⟨hdriver, h⟩ := both_ok h
  obtain ⟨hsubnet, h⟩ := both_ok h
  cases h
  have hsubnets : ∀ t ∈ (subnet.filter (· ≠ [])).toList.flatMap fun s => [own "--subnet", given s],
      Options.Undashed t := by
    intro t ht
    obtain ⟨s, hs, ht⟩ := List.mem_flatMap.mp ht
    have hdash := (validateSubnet_ok (forM_ok hsubnet s hs)).2
    rcases List.mem_pair.mp ht with rfl | rfl
    · exact undashed_own _
    · exact (undashed_given s).mpr hdash
  have hname := (validateObjectRef_ok hname).2
  have hdriver := (validateNetworkDriver_ok hdriver).2
  rw [CommandLine.Undashed]
  simp only [List.forall_mem_append]
  refine ⟨⟨⟨⟨?_, hsubnets⟩, ?_⟩, ?_⟩, ?_⟩
  · simp [hdriver]
  · cases attachable <;> simp
  · cases internal <;> simp
  · simp [hname]

theorem spawnDockerExec_undashed {containerId shell : Str}
    (h : spawnDockerExec containerId shell = .ok line) : line.Undashed := by
  rw [spawnDockerExec] at h
  split at h
  · cases h
  · next hid =>
      split at h
      · cases h
      · dsimp only at h
        generalize (if shell = [] then own "sh" else given shell) = chosen at h
        split at h
        · cases h
        · next hshell =>
            cases h
            have hcontainer : dashed containerId = false := by
              simp [dashed, (not_or.mp (not_or.mp hid).2).1]
            have hchosen : dashed chosen.text = false := by
              simp [dashed, (not_or.mp hshell).1]
            have hundashed : Options.Undashed chosen := .inr hchosen
            simp [CommandLine.Undashed, hcontainer, hundashed]

theorem dockerLogs_undashed {containerId : Str} {tail : Nat} {follow : Bool}
    (h : dockerLogs containerId tail follow = .ok line) : line.Undashed := by
  rw [dockerLogs] at h
  split at h
  · next hid =>
      have hdash := validContainerId_undashed hid
      cases h
      cases follow <;> simp [CommandLine.Undashed, hdash]
  · cases h

/-! ## Containers and services -/

def runOptions : List String :=
  ["--name", "-p", "-e", "-v", "--restart", "--network", "--pull"]

def serviceOptions : List String :=
  ["--name", "--mode", "--replicas", "--publish", "--env", "--mount", "--constraint",
    "--network", "--restart-condition"]

/-- What docker documents of the options the agent uses with these two. -/
structure Documented (docker : List String → Grammar) : Prop where
  run : ∀ name ∈ runOptions, (docker ["run"]).takesValue name.toList = true
  detached : (docker ["run"]).takesValue "-d".toList = false
  create : ∀ name ∈ serviceOptions,
    (docker ["service", "create"]).takesValue name.toList = true

/-- Written out as an option with its value in the next argument. -/
def Separate (name : String) : Prop :=
  isOption name.toList = true ∧ name.toList ≠ ['-', '-'] ∧ name.toList.contains '=' = false

instance (name : String) : Decidable (Separate name) := by
  unfold Separate
  infer_instance

variable {g : Grammar}

theorem Separate.consumes {name : String} (hname : Separate name)
    (hvalue : g.takesValue name.toList = true) : Options.consumes g name.toList = true := by
  rw [Options.consumes, hvalue, hname.2.2]
  rfl

theorem Separate.stretch {name : String} (hname : Separate name)
    (hvalue : g.takesValue name.toList = true) (t : Token) : Stretch g [own name, t] :=
  Stretch.option hname.1 hname.2.1 (hname.consumes hvalue) t

theorem withOption_stretch {name : String} (hname : Separate name)
    (hvalue : g.takesValue name.toList = true) (values : List Str) :
    Stretch g (withOption name values) :=
  Stretch.flatMap fun value _ => hname.stretch hvalue (given value)

/-- Behind an image that is read as a positional, the options are over before
the container's command. -/
theorem command_safe {image : Str} {command : Option Str} (himage : dashed image = false) :
    Safe g (next g .options (given image))
      (command.toList.flatMap fun command => own "--" :: (splitCommand command).map given) := by
  cases command with
  | none => exact safe_nil
  | some command =>
      have hnot : isOption image = false := by rw [isOption, himage]; rfl
      have hend : image ≠ ['-', '-'] := by
        intro heq
        rw [heq] at himage
        cases himage
      rw [Option.toList_some, List.flatMap_singleton, safe_cons]
      refine ⟨harmless_own rfl _, ?_⟩
      rw [next, given, if_neg hend, hnot]
      cases g.interspersed with
      | true => exact safe_ended
      | false => exact safe_ended

theorem imageAndCommand_safe_iff {ts : List Token} (hts : Stretch g ts) {image : Str}
    {command : Option Str} :
    Safe g .options (ts ++ imageAndCommand image command) ↔ dashed image = false :=
  hts.safe_given command_safe

variable {docker : List String → Grammar}

theorem runOptions_separate : ∀ name ∈ runOptions, Separate name := by decide

theorem serviceOptions_separate : ∀ name ∈ serviceOptions, Separate name := by decide

theorem Documented.option_stretch (hdoc : Documented docker) (name : String)
    (hname : name ∈ runOptions) (values : List Str) :
    Stretch (docker ["run"]) (withOption name values) :=
  withOption_stretch (runOptions_separate name hname) (hdoc.run name hname) values

theorem Documented.detached_stretch (hdoc : Documented docker) (detached : Bool) :
    Stretch (docker ["run"]) (if detached then [own "-d"] else []) := by
  split
  · apply Stretch.flag rfl (by decide) (by decide)
    rw [consumes, own, hdoc.detached]
    rfl
  · exact .nil

theorem pull_separate : Separate "--pull" := by decide

theorem Documented.pull_consumes (hdoc : Documented docker) :
    consumes (docker ["run"]) "--pull".toList = true :=
  pull_separate.consumes (hdoc.run _ (by decide))

theorem Documented.pull_stretch (hdoc : Documented docker) (pull : Bool) :
    Stretch (docker ["run"]) (if pull then [own "--pull", own "always"] else []) := by
  split
  · exact Stretch.option pull_separate.1 pull_separate.2.1 hdoc.pull_consumes _
  · exact .nil

theorem createContainer_safe_iff (hdoc : Documented docker) {spec : ContainerSpec}
    (h : createContainer spec = .ok line) :
    Safe (docker line.words) .options line.args ↔ dashed spec.image = false := by
  have hoption := hdoc.option_stretch
  have hdetached := hdoc.detached_stretch spec.detached
  have hpull := hdoc.pull_stretch spec.pull
  rw [createContainer] at h
  split at h
  · cases h
  · cases h
    apply imageAndCommand_safe_iff
    refine (Stretch.append ?_ (hoption "--network" (by decide) _)).append hpull
    apply Stretch.append ?_ (hoption "--restart" (by decide) _)
    apply Stretch.append ?_ (hoption "-v" (by decide) _)
    apply Stretch.append ?_ (hoption "-e" (by decide) _)
    apply Stretch.append ?_ (hoption "-p" (by decide) _)
    exact hdetached.append (hoption "--name" (by decide) _)

theorem createService_safe_iff (hdoc : Documented docker) {spec : ServiceSpec}
    (h : createService spec = .ok line) :
    Safe (docker line.words) .options line.args ↔ dashed spec.image = false := by
  have hoption : ∀ name ∈ serviceOptions, ∀ values,
      Stretch (docker ["service", "create"]) (withOption name values) := by
    intro name hname
    exact withOption_stretch (serviceOptions_separate name hname) (hdoc.create name hname)
  -- It has its value with it, so nothing hangs on what docker knows of `--detach`.
  have hdetach : Stretch (docker ["service", "create"]) [own "--detach=true"] := by
    apply Stretch.flag rfl (by decide) (by decide)
    rw [consumes]
    exact Bool.and_false _
  have hreplicas : Stretch (docker ["service", "create"])
      (if spec.mode = some "global".toList then []
        else withOption "--replicas" (spec.replicas.map Text.decimal).toList) := by
    split
    · exact .nil
    · exact hoption "--replicas" (by decide) _
  rw [createService] at h
  split at h
  · cases h
  · split at h
    · cases h
    · cases h
      apply imageAndCommand_safe_iff
      apply Stretch.append ?_ (hoption "--restart-condition" (by decide) _)
      apply Stretch.append ?_ (hoption "--network" (by decide) _)
      apply Stretch.append ?_ (hoption "--constraint" (by decide) _)
      apply Stretch.append ?_ (hoption "--mount" (by decide) _)
      apply Stretch.append ?_ (hoption "--env" (by decide) _)
      apply Stretch.append ?_ (hoption "--publish" (by decide) _)
      apply Stretch.append ?_ hreplicas
      apply Stretch.append ?_ (hoption "--mode" (by decide) _)
      exact hdetach.append (hoption "--name" (by decide) _)

/-! ## Every operation -/

/-- Of a container or a service that is to be created, the image has no dash in
front. -/
def DockerOp.PlainImage : DockerOp → Prop
  | .createContainer spec => dashed spec.image = false
  | .createService spec => dashed spec.image = false
  | _ => True

def DockerOp.Creates : DockerOp → Prop
  | .createContainer _ => True
  | .createService _ => True
  | _ => False

theorem spawn_undashed {op : DockerOp} (h : op.spawn = .ok line) (hop : ¬op.Creates) :
    line.Undashed := by
  cases op with
  | available =>
      cases h
      simp [CommandLine.Undashed, dockerAvailable]
  | swarmRole =>
      cases h
      simp [CommandLine.Undashed, swarmRole]
  | listContainers =>
      cases h
      simp [CommandLine.Undashed, listContainers]
  | listSwarmServices =>
      cases h
      simp [CommandLine.Undashed, listSwarmServices]
  | containerAction id action => exact runContainerAction_undashed h
  | swarmAction name action => exact runSwarmAction_undashed h
  | servicePs name =>
      apply undashed_of_checked validateObjectRef_ok h
      intro _ hdash
      simp [CommandLine.Undashed, hdash]
  | serviceInspect name =>
      apply undashed_of_checked validateObjectRef_ok h
      intro _ hdash
      simp [CommandLine.Undashed, hdash]
  | stackDeploy stackName composeYaml prune =>
      apply undashed_of_checked validateObjectRef_ok h
      intro _ hdash
      cases prune <;> simp [CommandLine.Undashed, hdash]
  | listSwarmNodes =>
      cases h
      simp [CommandLine.Undashed, listSwarmNodes]
  | listImages =>
      cases h
      simp [CommandLine.Undashed, listImages]
  | removeImage id force =>
      apply undashed_of_checked validateImageRef_ok h
      intro _ hdash
      cases force <;> simp [CommandLine.Undashed, hdash]
  | pullImage reference =>
      apply undashed_of_checked validateImageRef_ok h
      intro _ hdash
      simp [CommandLine.Undashed, hdash]
  | listNetworks =>
      cases h
      simp [CommandLine.Undashed, listNetworks]
  | inspectNetwork id =>
      apply undashed_of_checked validateObjectRef_ok h
      intro _ hdash
      simp [CommandLine.Undashed, hdash]
  | createNetwork name driver subnet attachable internal => exact createNetwork_undashed h
  | removeNetwork id =>
      apply undashed_of_checked validateObjectRef_ok h
      intro _ hdash
      simp [CommandLine.Undashed, hdash]
  | listVolumes =>
      cases h
      simp [CommandLine.Undashed, listVolumes]
  | inspectVolume name =>
      apply undashed_of_checked validateObjectRef_ok h
      intro _ hdash
      simp [CommandLine.Undashed, hdash]
  | removeVolume name force =>
      apply undashed_of_checked validateObjectRef_ok h
      intro _ hdash
      cases force <;> simp [CommandLine.Undashed, hdash]
  | pruneVolumes =>
      cases h
      simp [CommandLine.Undashed, pruneVolumes]
  | listStacks =>
      cases h
      simp [CommandLine.Undashed, listStacks]
  | stackServices name =>
      apply undashed_of_checked validateObjectRef_ok h
      intro _ hdash
      simp [CommandLine.Undashed, hdash]
  | stackTasks name =>
      apply undashed_of_checked validateObjectRef_ok h
      intro _ hdash
      simp [CommandLine.Undashed, hdash]
  | systemPrunePreview =>
      cases h
      simp [CommandLine.Undashed, systemPrunePreview]
  | systemPruneApply volumes =>
      cases h
      cases volumes <;> simp [CommandLine.Undashed, systemPruneApply]
  | containerStats =>
      cases h
      simp [CommandLine.Undashed, containerStats]
  | removeStack name =>
      apply undashed_of_checked validateObjectRef_ok h
      intro _ hdash
      simp [CommandLine.Undashed, hdash]
  | createContainer spec => exact absurd trivial hop
  | createService spec => exact absurd trivial hop
  | exec containerId shell => exact spawnDockerExec_undashed h
  | logs containerId tail follow => exact dockerLogs_undashed h
  | driftContainers =>
      cases h
      simp [CommandLine.Undashed, driftContainers]

/-- What docker is given by the server it never reads as an option, as long as
the image of a container or a service it creates does not start with a dash. -/
theorem no_option_injected_iff (hdoc : Documented docker) {op : DockerOp}
    (h : op.spawn = .ok line) :
    Safe (docker line.words) .options line.args ↔ op.PlainImage := by
  cases op with
  | createContainer spec => exact createContainer_safe_iff hdoc h
  | createService spec => exact createService_safe_iff hdoc h
  | _ =>
      have hundashed := spawn_undashed h id
      exact iff_of_true (safe_of_undashed hundashed trivial) trivial

/-! ## A container on the command line -/

/-- Docker as far as these options go. -/
def dockerOptions : List String → Grammar
  | ["run"] => { takesValue := (runOptions.map String.toList).contains, interspersed := false }
  | ["service", "create"] =>
      { takesValue := (serviceOptions.map String.toList).contains, interspersed := false }
  | _ => { takesValue := ["--format".toList].contains, interspersed := true }

theorem dockerOptions_documented : Documented dockerOptions where
  run := by decide
  detached := by decide
  create := by decide

/-- A detached container that publishes a port. -/
def webContainer (image command : String) : DockerOp :=
  .createContainer
    { image := image.toList
      name := some "web".toList
      ports := ["8080:80".toList]
      env := []
      volumes := []
      restartPolicy := none
      network := none
      pull := false
      detached := true
      command := some command.toList }

def webContainerLine (image command : String) : CommandLine :=
  { words := ["run"]
    args := [own "-d", own "--name", given "web".toList, own "-p", given "8080:80".toList,
      given image.toList, own "--", given command.toList] }

theorem no_option_injected_iff_web :
    (webContainer "nginx" "sh").spawn = .ok (webContainerLine "nginx" "sh") ∧
      Safe (dockerOptions ["run"]) .options (webContainerLine "nginx" "sh").args := by
  have hspawn : (webContainer "nginx" "sh").spawn = .ok (webContainerLine "nginx" "sh") := by
    decide
  have himage : dashed "nginx".toList = false := by decide
  exact ⟨hspawn, (no_option_injected_iff dockerOptions_documented hspawn).mpr himage⟩

/-- Docker reads the image as `--privileged`, and the command as the image. -/
theorem privileged_image_injected :
    (webContainer "--privileged" "nginx").spawn =
        .ok (webContainerLine "--privileged" "nginx") ∧
      Documented dockerOptions ∧
      ¬Safe (dockerOptions ["run"]) .options (webContainerLine "--privileged" "nginx").args := by
  exact ⟨by decide, dockerOptions_documented, by decide⟩

end ShellfleetAgent.Agent.Docker
