import ShellfleetAgent.Agent.ServiceControl

/-!
# The control of services: proofs

The two checks leave `systemctl` two words that it cannot take for anything else. What one
task does is found along its program, and what all of them do from the logs they share.
-/

namespace ShellfleetAgent.Agent.ServiceControl

open ShellfleetAgent.Lib

variable {request : ControlServiceRequest} {h : ServiceHistory} {name : Str}

/-! ## The words -/

theorem isSafeUnitName_iff :
    isSafeUnitName name = true ↔ (name ≠ [] ∧ name.head? ≠ some '-' ∧ Text.utf8Len name ≤ 256) ∧
      ∀ c ∈ name, (c.isAlphanum || c ∈ ['.', '_', '-', '@', ':', '\\']) = true := by
  rw [isSafeUnitName, LogSources.JournalStream.isSafeToken]
  split
  · next hbad =>
      refine iff_of_false Bool.false_ne_true ?_
      rintro ⟨⟨hne, hdash, hlen⟩, _⟩
      rcases hbad with hbad | hbad | hbad
      · exact hne hbad
      · exact hdash hbad
      · omega
  · next hgood =>
      rw [not_or, not_or] at hgood
      rw [List.all_eq_true]
      exact (and_iff_right ⟨hgood.1, hgood.2.1, Nat.le_of_not_lt hgood.2.2⟩).symm

/-- An action is a word, and none is an option. -/
theorem action_word {action : Str} (h : action ∈ allowedActions) :
    action ≠ [] ∧ action.head? ≠ some '-' := by
  have hall : ∀ action ∈ allowedActions, action ≠ [] ∧ action.head? ≠ some '-' := by decide
  exact hall action h

theorem command_cases {args : List Str} (h : request.command = some args) :
    args = [request.action, request.name] ∧ request.action ∈ allowedActions ∧
      isSafeUnitName request.name = true := by
  rw [ControlServiceRequest.command] at h
  split at h
  · next hboth =>
      cases h
      exact ⟨rfl, List.contains_iff_mem.mp hboth.1, hboth.2⟩
  · cases h

theorem command_oneUnit {args : List Str} (h : request.command = some args) : OneUnit args := by
  obtain ⟨rfl, haction, hname⟩ := command_cases h
  obtain ⟨⟨hne, hdash, hlen⟩, hchars⟩ := isSafeUnitName_iff.mp hname
  refine ⟨request.action, request.name, rfl, haction, ?_, hlen, fun c hc hspecial => ?_⟩
  · intro word hword
    rcases List.mem_cons.mp hword with rfl | hword
    · exact action_word haction
    · rw [List.mem_singleton.mp hword]
      exact ⟨hne, hdash⟩
  · have hnone : (['*', '?', '[', ']', '/', ' '].all fun c =>
        !(c.isAlphanum || c ∈ ['.', '_', '-', '@', ':', '\\'])) = true := by decide
    have hnot := List.all_eq_true.mp hnone c hspecial
    rw [hchars c hc] at hnot
    cases hnot

/-! ## One task -/

/-- A task spawns the process that its request stands for, and only once. -/
def serviceContract (request : ControlServiceRequest) :
    Contract ServiceCall ServiceCall.Answer where
  may h o :=
    match o with
    | .systemctl args => h.filterMap spawnedBy = [] ∧ request.command = some args
    | .send _ => True
  answer _ _ _ := True

/-- What a task has done when `control_service` returns. -/
structure Controlled (request : ControlServiceRequest) (h : ServiceHistory)
    (r : Except Str Unit) : Prop where
  spawned : h.filterMap spawnedBy = request.command.toList
  silent : h.filterMap sentBy = []
  outcome : r.toOption.isSome = true ↔ EndedWell h

theorem controlled_refused {e : Str} (hnone : request.command = none) :
    Controlled request [] (.error e) where
  spawned := by rw [hnone]; rfl
  silent := rfl
  outcome := by
    refine ⟨?_, ?_⟩
    · intro hsome
      cases hsome
    · rintro ⟨args, output, hmem, _⟩
      cases hmem

theorem controlled_ended {args : List Str} {result : Except Str Output} {r : Except Str Unit}
    (hcommand : request.command = some args)
    (hr : r.toOption.isSome = true ↔ ∃ output, result = .ok output ∧ output.success = true) :
    Controlled request [⟨.systemctl args, result⟩] r where
  spawned := by rw [hcommand]; rfl
  silent := rfl
  outcome := by
    rw [hr]
    refine ⟨?_, ?_⟩
    · rintro ⟨output, rfl, hsuccess⟩
      exact ⟨args, output, List.mem_singleton_self _, hsuccess⟩
    · rintro ⟨args', output, hmem, hsuccess⟩
      cases List.mem_singleton.mp hmem
      exact ⟨output, rfl, hsuccess⟩

theorem wp_controlService :
    (serviceContract request).wp (controlService request.name request.action).run
      (Controlled request) [] := by
  rw [controlService]
  by_cases haction : allowedActions.contains request.action = false
  · rw [if_pos haction]
    refine controlled_refused (if_neg fun hboth => ?_)
    rw [haction] at hboth
    cases hboth.1
  rw [if_neg haction]
  by_cases hname : isSafeUnitName request.name = false
  · rw [if_pos hname]
    refine controlled_refused (if_neg fun hboth => ?_)
    rw [hname] at hboth
    cases hboth.2
  rw [if_neg hname]
  have hcommand : request.command = some [request.action, request.name] :=
    if_pos ⟨Bool.not_eq_false _ ▸ haction, Bool.not_eq_false _ ▸ hname⟩
  refine Contract.wp_run_bind.mpr ⟨⟨rfl, hcommand⟩, fun result _ => ?_⟩
  cases result with
  | error e =>
      refine controlled_ended hcommand ⟨fun hsome => ?_, ?_⟩
      · cases hsome
      · rintro ⟨output, heq, _⟩
        cases heq
  | ok output =>
      show Contract.wp _ (ExceptT.run (ite _ _ _)) _ _
      by_cases hsuccess : output.success = false
      · rw [if_pos hsuccess]
        refine controlled_ended hcommand ⟨fun hsome => ?_, ?_⟩
        · cases hsome
        · rintro ⟨output', heq, hsuccess'⟩
          cases heq
          rw [hsuccess] at hsuccess'
          cases hsuccess'
      · rw [if_neg hsuccess]
        rw [Bool.not_eq_false] at hsuccess
        exact controlled_ended hcommand ⟨fun _ => ⟨output, rfl, hsuccess⟩, fun _ => rfl⟩

/-- What a task has done when it ends: what `control_service` has, and the response. -/
structure Ended (request : ControlServiceRequest) (h : ServiceHistory) : Prop where
  spawned : h.filterMap spawnedBy = request.command.toList
  told : ∃ response, h.filterMap sentBy = [response] ∧ response.name = request.name ∧
    (response.success = true ↔ EndedWell h) ∧ (response.success = response.error.isNone)

theorem endedWell_send {response : ControlServiceResponse}
    {r : Except OutgoingSendError Unit} :
    EndedWell (h ++ [⟨.send response, r⟩]) ↔ EndedWell h := by
  refine exists_congr fun args => exists_congr fun output => and_congr_left fun _ => ?_
  refine ⟨fun hmem => ?_, fun hmem => List.mem_append_left _ hmem⟩
  rcases List.mem_append.mp hmem with hmem | hmem
  · exact hmem
  · cases List.mem_singleton.mp hmem

theorem wp_handle :
    (serviceContract request).wp (handle request) (fun h _ => Ended request h) [] := by
  refine Contract.wp_bind.mpr (Contract.wp_mono wp_controlService fun h r hr => ?_)
  refine ⟨trivial, fun sent _ => ⟨?_, ?_⟩⟩
  · rw [List.filterMap_append, hr.spawned]
    exact List.append_nil _
  · refine ⟨⟨request.name, r.toOption.isSome,
      if r.toOption.isSome then none else some "Failed".toList⟩, ?_, rfl,
      hr.outcome.trans endedWell_send.symm, ?_⟩
    · rw [List.filterMap_append, hr.silent]
      rfl
    · cases r with
      | ok u => rfl
      | error e => rfl

/-! ## All of them at once -/

def serviceOutline : Outline serviceCode where
  contract := serviceContract
  loopInv _ _ l := l.elim
  post request h _ := Ended request h

theorem serviceOutline_holds : serviceOutline.Holds where
  start _ := Contract.wp_bind.mpr (Contract.wp_mono wp_handle fun _ _ hended => hended)
  again _ _ l := l.elim

theorem serviceOutline_sound :
    serviceOutline.Sound serviceHost (fun _ _ => True) fun _ _ => True :=
  Outline.sound_trivial fun _ _ _ _ => trivial

/-- Which calls the world records. -/
theorem exec_records {w w' : ServiceWorld} {o : ServiceCall} {ch : ServiceChoice}
    {r : o.Answer} (hx : w.exec o ch = some (w', r)) :
    w'.spawned = w.spawned ++ (spawnedBy ⟨o, r⟩).toList ∧
      w'.accepted = w.accepted ++ (acceptedBy ⟨o, r⟩).toList := by
  cases o with
  | systemctl args =>
      cases ch with
      | output result => cases hx; exact ⟨rfl, (List.append_nil _).symm⟩
      | queue result => cases hx
  | send response =>
      cases ch with
      | output result => cases hx
      | queue result =>
          cases result with
          | ok u => cases hx; exact ⟨(List.append_nil _).symm, rfl⟩
          | error e => cases hx; exact ⟨(List.append_nil _).symm, (List.append_nil _).symm⟩

theorem spawned_recorded : serviceHost.Records ServiceWorld.spawned spawnedBy where
  init _ hw := congrArg ServiceWorld.spawned hw
  spawn _ _ _ _ hw := congrArg ServiceWorld.spawned (Option.some.inj hw).symm
  exec _ _ _ _ _ _ hx := (exec_records hx).1
  kill _ _ := rfl
  env _ e := e.elim

theorem accepted_recorded : serviceHost.Records ServiceWorld.accepted acceptedBy where
  init _ hw := congrArg ServiceWorld.accepted hw
  spawn _ _ _ _ hw := congrArg ServiceWorld.accepted (Option.some.inj hw).symm
  exec _ _ _ _ _ _ hx := (exec_records hx).2
  kill _ _ := rfl
  env _ e := e.elim

variable {s : ServiceState} {t : Nat}
  {tr : Trace ServiceCall ServiceCall.Answer ControlServiceRequest}

/-- A task spawns nothing but what its request stands for. -/
theorem spawned_within (hr : servicePool.Reachable s) (htr : s.view t = some tr) :
    tr.hist.filterMap spawnedBy <+: tr.call.command.toList := by
  refine (Outline.obeyed serviceOutline_holds serviceOutline_sound hr htr).once ?_
  intro h o r hmay args hspawned
  cases o with
  | systemctl args' =>
      cases hspawned
      exact hmay
  | send response => cases hspawned

theorem spawned_requested (hr : servicePool.Reachable s) {args : List Str}
    (hargs : args ∈ s.world.spawned) :
    ∃ t tr, s.view t = some tr ∧ tr.call.command = some args := by
  obtain ⟨t, tr, htr, hentered⟩ := (Pool.interleaves spawned_recorded hr).enteredBy hargs
  exact ⟨t, tr, htr, Option.mem_toList.mp ((spawned_within hr htr).subset hentered)⟩

/-- However many requests there are and however their tasks interleave: each `systemctl` that
is spawned has been asked for, and is given an action and one unit, neither of which is an
option. What is spawned is what the tasks spawn, each at most one and each that one which its
request stands for; what is queued is what they have sent. A task that has ended has spawned
its process if there is one, and has sent one response, which says that the action is done if
and only if the process has ended well. -/
theorem units_controlled_as_asked (hr : servicePool.Reachable s) :
    (∀ args ∈ s.world.spawned, OneUnit args ∧
      ∃ t tr, s.view t = some tr ∧ tr.call.command = some args) ∧
    Interleaves spawnedBy s.world.spawned s.view ∧
    Interleaves acceptedBy s.world.accepted s.view ∧
    (∀ t tr, s.view t = some tr → tr.hist.filterMap spawnedBy <+: tr.call.command.toList) ∧
    ∀ t c h r, s.threads t = some ⟨⟨c, h, true⟩, .ret (.inr r)⟩ →
      h.filterMap spawnedBy = c.command.toList ∧
      ∃ response, h.filterMap sentBy = [response] ∧ response.name = c.name ∧
        (response.success = true ↔ EndedWell h) ∧
        response.success = response.error.isNone := by
  refine ⟨fun args hargs => ?_, Pool.interleaves spawned_recorded hr,
    Pool.interleaves accepted_recorded hr, fun t tr htr => spawned_within hr htr,
    fun t c h r ht => ?_⟩
  · obtain ⟨t, tr, htr, hcommand⟩ := spawned_requested hr hargs
    exact ⟨command_oneUnit hcommand, t, tr, htr, hcommand⟩
  · have hended : Ended c h :=
      (Outline.invariant serviceOutline_holds serviceOutline_sound hr).2 t _ ht
    exact ⟨hended.spawned, hended.told⟩

/-! ## Three requests -/

def noServiceRequests : ServiceState where
  world := ⟨[], []⟩
  threads _ := none

/-- A restart that fails, one of an option, and a start that is done in between. -/
def threeRequests : List (Pool.Label ControlServiceRequest ServiceChoice Empty) :=
  [.spawn 0 ⟨"nginx.service".toList, "restart".toList⟩,
    .spawn 1 ⟨"--all".toList, "stop".toList⟩,
    .spawn 2 ⟨"ssh.service".toList, "start".toList⟩,
    .act 0 (.output (.ok ⟨some 1, [], []⟩)), .act 1 (.queue (.ok ())),
    .act 2 (.output (.ok ⟨some 0, [], []⟩)), .act 2 (.queue (.ok ())),
    .act 0 (.queue (.error .full))]

def threeHandled : ServiceState :=
  (servicePool.run noServiceRequests threeRequests).get (by decide)

theorem noServiceRequests_reachable : servicePool.Reachable noServiceRequests :=
  .init ⟨rfl, fun _ => rfl⟩

theorem threeHandled_reachable : servicePool.Reachable threeHandled :=
  noServiceRequests_reachable.run (Option.some_get _).symm

theorem units_controlled_as_asked_three :
    threeHandled.world =
      ⟨[["restart".toList, "nginx.service".toList], ["start".toList, "ssh.service".toList]],
        [⟨"--all".toList, false, some "Failed".toList⟩, ⟨"ssh.service".toList, true, none⟩]⟩ ∧
    Interleaves spawnedBy threeHandled.world.spawned threeHandled.view :=
  ⟨by decide, (units_controlled_as_asked threeHandled_reachable).2.1⟩

end ShellfleetAgent.Agent.ServiceControl
