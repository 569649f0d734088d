import ShellfleetAgent.Agent.K8sRequests

/-!
# The requests about kubernetes: proofs

What one task does is found along its program: it makes a client, asks for one change at
most, and sends one response. What any number of them do together is then a matter of the
two logs they share.
-/

namespace ShellfleetAgent.Agent.K8sRequests

open ShellfleetAgent.Lib
open Exec (maxOutputBytes)

variable {Obj α : Type} {lib : Libraries Obj} {kube : Bool} {h : K8sHistory Obj}
  {request : K8sRequest} {response response' : K8sResponse}

/-- No seconds are asked for where the period is not positive, and where it wraps around. -/
theorem graceSeconds_eq_zero {g : Int64} :
    graceSeconds g = 0 ↔ g.toInt ≤ 0 ∨ (4294967296 : Int) ∣ g.toInt := by
  have hzero : graceSeconds g = 0 ↔ g.toInt.toNat % 4294967296 = 0 := by
    rw [graceSeconds, ← UInt32.toNat_inj, UInt32.toNat_ofNat']
    rfl
  rw [hzero]
  omega

/-! ## One task -/

/-- A task asks for a change that its request asks for, and only once. -/
def k8sContract (lib : Libraries Obj) (request : K8sRequest) :
    Contract K8sCall (K8sCall.Answer Obj) where
  may h o :=
    match o with
    | .mutate m => h.filterMap askedBy = [] ∧ request.mutation lib = some m
    | _ => True
  answer _ _ _ := True

/-- What has been asked for when a function returns, before the response. -/
structure Asked (lib : Libraries Obj) (kube : Bool) (request : K8sRequest)
    (h : K8sHistory Obj) : Prop where
  connected : Connected kube h → h.filterMap askedBy = (request.mutation lib).toList
  unconnected : ¬ Connected kube h → h.filterMap askedBy = []
  silent : h.filterMap sentBy = []

theorem Asked.unable {e : Str} :
    Asked lib kube request ([⟨.tryDefault, .error e⟩] : K8sHistory Obj) where
  connected hc := by cases List.mem_singleton.mp hc.2
  unconnected _ := rfl
  silent := rfl

theorem Asked.none (hnone : request.mutation lib = none) (hask : h.filterMap askedBy = [])
    (hsilent : h.filterMap sentBy = []) : Asked lib kube request h where
  connected _ := by rw [hask, hnone]; rfl
  unconnected _ := hask
  silent := hsilent

theorem Asked.unbuilt : Asked lib false request ([] : K8sHistory Obj) where
  connected hc := by cases hc.1
  unconnected _ := rfl
  silent := rfl

section Functions

variable {C : Contract K8sCall (K8sCall.Answer Obj)} {context : String}
  {p : Prog K8sCall (K8sCall.Answer Obj) (Except Str α)} {x : K8sM Obj α}
  {Q : K8sHistory Obj → Except Str α → Prop}

theorem wp_orFail
    (hp : C.wp p (fun h' r => Q h' (r.mapError fun e => context.toList ++ e)) h) :
    C.wp (orFail context p).run Q h :=
  Contract.wp_bind.mpr hp

theorem wp_ifBuilt (hx : kube = true → C.wp x.run Q [])
    (hnot : kube = false → ∀ e, Q [] (.error e)) : C.wp (ifBuilt kube x).run Q [] := by
  cases kube with
  | false => exact hnot rfl _
  | true => exact hx rfl

/-- A client, or an error. -/
theorem wp_client {f : Unit → K8sM Obj α}
    (hmay : C.may [] .tryDefault)
    (hfail : ∀ e e', Q [⟨.tryDefault, .error e⟩] (.error e'))
    (hf : C.wp (f ()).run Q [⟨.tryDefault, .ok ()⟩]) : C.wp (client >>= f).run Q [] := by
  refine Contract.wp_run_bind.mpr (wp_orFail ⟨hmay, fun r _ => ?_⟩)
  cases r with
  | error e => exact hfail e _
  | ok u => exact hf

end Functions

/-- A function that asks for a change succeeds if and only if the change is confirmed. -/
def Settled (lib : Libraries Obj) (kube : Bool) (request : K8sRequest) (h : K8sHistory Obj)
    (r : Except Str Unit) : Prop :=
  Asked lib kube request h ∧ (errorOf r = none ↔ Confirmed h)

theorem not_confirmed_client {r : Except Str Unit} :
    ¬ Confirmed ([⟨.tryDefault, r⟩] : K8sHistory Obj) := by
  rintro ⟨m, hm⟩
  cases List.mem_singleton.mp hm

theorem settled_failed {e : Str} (hasked : Asked lib kube request h) (hnot : ¬ Confirmed h) :
    Settled lib kube request h (.error e) := by
  refine ⟨hasked, fun herror => ?_, fun hconfirmed => absurd hconfirmed hnot⟩
  cases herror

/-- The change is asked for after the client is made. -/
theorem wp_mutate {context : String} {m : Mutation} (hm : request.mutation lib = some m) :
    (k8sContract lib request).wp
      (orFail context (ask (.mutate m)) : K8sM Obj Unit).run
      (Settled lib true request) [⟨.tryDefault, .ok ()⟩] := by
  refine wp_orFail ⟨⟨rfl, hm⟩, fun r _ => ⟨⟨?_, ?_, rfl⟩, ?_⟩⟩
  · intro _
    rw [hm]
    rfl
  · intro hnot
    exact absurd ⟨rfl, List.mem_cons_self⟩ hnot
  · cases r with
    | error e =>
        refine ⟨?_, ?_⟩
        · intro herror
          cases herror
        · rintro ⟨m', hm'⟩
          rcases List.mem_cons.mp hm' with heq | hm'
          · cases heq
          · cases List.mem_singleton.mp hm'
    | ok u =>
        refine ⟨fun _ => ⟨m, ?_⟩, fun _ => rfl⟩
        exact List.mem_cons_of_mem _ (List.mem_singleton_self _)

theorem wp_scale {kind ns name : Str} {replicas : Int32} :
    (k8sContract lib (.scale kind ns name replicas)).wp (scale lib kind ns name replicas).run
      (Settled lib true (.scale kind ns name replicas)) [] := by
  refine wp_client trivial (fun e e' => settled_failed .unable not_confirmed_client) ?_
  cases hkind : scalable (lib.toLowercase kind) with
  | some resource =>
      have hm : (K8sRequest.scale kind ns name replicas).mutation lib =
          some (.patchScale resource ns name replicas) := by
        rw [K8sRequest.mutation, hkind]
        rfl
      exact wp_mutate hm
  | none =>
      have hm : (K8sRequest.scale kind ns name replicas).mutation lib = none := by
        rw [K8sRequest.mutation, hkind]
        rfl
      exact settled_failed (.none hm rfl rfl) not_confirmed_client

theorem wp_deletePod {ns name : Str} {gracePeriodSecs : Option Int64} :
    (k8sContract lib (.deletePod ns name gracePeriodSecs)).wp
      (deletePod ns name gracePeriodSecs).run
      (Settled lib true (.deletePod ns name gracePeriodSecs)) [] :=
  wp_client trivial (fun _ _ => settled_failed .unable not_confirmed_client) (wp_mutate rfl)

/-- What `describe` returns is what it has got. -/
def Described (lib : Libraries Obj) (kube : Bool) (kind : Str) (ns : Option Str) (name : Str)
    (h : K8sHistory Obj) (r : Except Str Str) : Prop :=
  Asked lib kube (.describe kind ns name) h ∧
    ∀ yaml, r = .ok yaml → Shows lib kind ns name yaml h

section Describe

variable {kind name : Str} {ns : Option Str}

/-- It asks for no change. -/
theorem described_failed {e : Str} (hask : h.filterMap askedBy = [])
    (hsilent : h.filterMap sentBy = []) : Described lib kube kind ns name h (.error e) := by
  refine ⟨.none rfl hask hsilent, fun yaml heq => ?_⟩
  cases heq

theorem wp_describe :
    (k8sContract lib (.describe kind ns name)).wp (describe lib kind ns name).run
      (Described lib true kind ns name) [] := by
  refine wp_client trivial (fun _ _ => described_failed rfl rfl) ?_
  cases hkind : describable kind with
  | none => exact described_failed rfl rfl
  | some resource =>
      cases ns with
      | none => exact described_failed rfl rfl
      | some ns =>
          refine Contract.wp_run_bind.mpr (Contract.wp_run_bind.mpr
            (wp_orFail ⟨trivial, fun r _ => ?_⟩))
          cases r with
          | error e => exact described_failed rfl rfl
          | ok obj =>
              refine wp_orFail ?_
              cases hyaml : lib.toYaml (lib.unmanaged obj) with
              | error e => exact described_failed rfl rfl
              | ok yaml =>
                  by_cases hlong : maxOutputBytes < Text.utf8Len yaml
                  · show Contract.wp _ (ExceptT.run (ite _ _ _)) _ _
                    rw [if_pos hlong]
                    exact described_failed rfl rfl
                  · show Contract.wp _ (ExceptT.run (ite _ _ _)) _ _
                    rw [if_neg hlong]
                    refine ⟨.none rfl rfl rfl, fun yaml' heq => ?_⟩
                    cases heq
                    exact ⟨resource, ns, obj, hkind, rfl,
                      List.mem_cons_of_mem _ (List.mem_singleton_self _), hyaml,
                      Nat.le_of_not_lt hlong⟩

end Describe

/-- Without the feature nothing is asked for. -/
theorem wp_ifBuilt_settled {C : Contract K8sCall (K8sCall.Answer Obj)} {x : K8sM Obj Unit}
    (hx : C.wp x.run (Settled lib true request) []) :
    C.wp (ifBuilt kube x).run (Settled lib kube request) [] := by
  refine wp_ifBuilt (fun hkube => ?_) fun hkube e => ?_
  · subst hkube
    exact hx
  · subst hkube
    refine settled_failed .unbuilt ?_
    rintro ⟨m, hm⟩
    cases hm

/-! ## Its response -/

section Response

variable {r : Except OutgoingSendError Unit}

theorem mem_send {e : Event K8sCall (K8sCall.Answer Obj)} (hsent : sentBy e = none) :
    e ∈ h ++ [⟨.send response, r⟩] ↔ e ∈ h := by
  refine ⟨fun he => ?_, fun he => List.mem_append_left _ he⟩
  rcases List.mem_append.mp he with he | he
  · exact he
  · rw [List.mem_singleton.mp he] at hsent
    cases hsent

theorem connected_send :
    Connected kube (h ++ [⟨.send response, r⟩]) ↔ Connected kube h :=
  and_congr_right fun _ => mem_send rfl

theorem confirmed_send : Confirmed (h ++ [⟨.send response, r⟩]) ↔ Confirmed h :=
  exists_congr fun _ => mem_send rfl

theorem shows_send {kind name yaml : Str} {ns : Option Str}
    (hshows : Shows lib kind ns name yaml h) :
    Shows lib kind ns name yaml (h ++ [⟨.send response, r⟩] : K8sHistory Obj) := by
  obtain ⟨resource, ns₀, obj, hkind, hns, hget, hyaml⟩ := hshows
  exact ⟨resource, ns₀, obj, hkind, hns, List.mem_append_left _ hget, hyaml⟩

/-- What a task has done when it ends. -/
structure Ended (lib : Libraries Obj) (kube : Bool) (request : K8sRequest)
    (h : K8sHistory Obj) : Prop where
  connected : Connected kube h → h.filterMap askedBy = (request.mutation lib).toList
  unconnected : ¬ Connected kube h → h.filterMap askedBy = []
  told : ∃ response, h.filterMap sentBy = [response] ∧ Tells lib h request response

theorem Asked.ended (hasked : Asked lib kube request h)
    (htells : Tells lib (h ++ [⟨.send response, r⟩]) request response) :
    Ended lib kube request (h ++ [⟨.send response, r⟩]) := by
  have hmutations :
      (h ++ [⟨.send response, r⟩] : K8sHistory Obj).filterMap askedBy = h.filterMap askedBy := by
    rw [List.filterMap_append]
    exact List.append_nil _
  refine ⟨fun hc => ?_, fun hc => ?_, response, ?_, htells⟩
  · rw [hmutations, hasked.connected (connected_send.mp hc)]
  · rw [hmutations, hasked.unconnected fun hc' => hc (connected_send.mpr hc')]
  · rw [List.filterMap_append, hasked.silent]
    rfl

theorem wp_respond {x : K8sM Obj α} {respond : Except Str α → K8sResponse}
    (hx : (k8sContract lib request).wp x.run
      (fun h r => Asked lib kube request h ∧ ∀ sent : Except OutgoingSendError Unit,
        Tells lib (h ++ [⟨.send (respond r), sent⟩]) request (respond r)) []) :
    (k8sContract lib request).wp (x.run.bind fun r => send (respond r))
      (fun h _ => Ended lib kube request h) [] := by
  refine Contract.wp_bind.mpr (Contract.wp_mono hx fun h r hr => ?_)
  exact ⟨trivial, fun sent _ => hr.1.ended (hr.2 sent)⟩

theorem wp_handle :
    (k8sContract lib request).wp (handle lib kube request)
      (fun h _ => Ended lib kube request h) [] := by
  cases request with
  | scale kind ns name replicas =>
      refine wp_respond (Contract.wp_mono (wp_ifBuilt_settled wp_scale) fun h r hr => ?_)
      refine ⟨hr.1, fun sent => ⟨⟨rfl, rfl, rfl⟩, rfl, ?_⟩⟩
      rw [Option.isNone_iff_eq_none, hr.2, confirmed_send]
  | deletePod ns name gracePeriodSecs =>
      refine wp_respond (Contract.wp_mono (wp_ifBuilt_settled wp_deletePod) fun h r hr => ?_)
      refine ⟨hr.1, fun sent => ⟨⟨rfl, rfl⟩, rfl, ?_⟩⟩
      rw [Option.isNone_iff_eq_none, hr.2, confirmed_send]
  | describe kind ns name =>
      refine wp_respond (Contract.wp_mono (Q := Described lib kube kind ns name) ?_
        fun h r hr => ⟨hr.1, fun sent => ⟨⟨rfl, rfl, rfl⟩, ?_⟩⟩)
      · refine wp_ifBuilt (fun hkube => ?_) fun hkube e => ?_
        · subst hkube
          exact wp_describe
        · exact described_failed rfl rfl
      · cases r with
        | error e =>
            refine .inr ⟨fun heq => ?_, rfl⟩
            cases heq
        | ok yaml => exact .inl ⟨rfl, shows_send (hr.2 yaml rfl)⟩

end Response

/-! ## All of them at once -/

def k8sOutline (lib : Libraries Obj) (kube : Bool) : Outline (k8sCode lib kube) where
  contract := k8sContract lib
  loopInv _ _ l := l.elim
  post request h _ := Ended lib kube request h

theorem k8sOutline_holds : (k8sOutline lib kube).Holds where
  start _ := Contract.wp_bind.mpr (Contract.wp_mono wp_handle fun _ _ hended => hended)
  again _ _ l := l.elim

theorem k8sOutline_sound :
    (k8sOutline lib kube).Sound k8sHost (fun _ _ => True) fun _ _ => True :=
  Outline.sound_trivial fun _ _ _ _ => trivial

/-- Which calls the world records. -/
theorem exec_records {w w' : K8sWorld} {o : K8sCall} {ch : K8sChoice Obj} {r : o.Answer Obj}
    (hx : w.exec o ch = some (w', r)) :
    w'.asked = w.asked ++ (askedBy ⟨o, r⟩).toList ∧
      w'.accepted = w.accepted ++ (acceptedBy ⟨o, r⟩).toList := by
  cases o with
  | tryDefault =>
      cases ch with
      | unit result => cases hx; exact ⟨(List.append_nil _).symm, (List.append_nil _).symm⟩
      | object result => cases hx
      | queue result => cases hx
  | mutate m =>
      cases ch with
      | unit result => cases hx; exact ⟨rfl, (List.append_nil _).symm⟩
      | object result => cases hx
      | queue result => cases hx
  | get resource ns name =>
      cases ch with
      | object result => cases hx; exact ⟨(List.append_nil _).symm, (List.append_nil _).symm⟩
      | unit result => cases hx
      | queue result => cases hx
  | send response =>
      cases ch with
      | queue result =>
          cases result with
          | ok u => cases hx; exact ⟨(List.append_nil _).symm, rfl⟩
          | error e => cases hx; exact ⟨(List.append_nil _).symm, (List.append_nil _).symm⟩
      | unit result => cases hx
      | object result => cases hx

theorem asked_recorded :
    Host.Records (k8sHost : Host _ (K8sCall.Answer Obj) _ _ _ _) K8sWorld.asked askedBy where
  init _ hw := congrArg K8sWorld.asked hw
  spawn _ _ _ _ hw := congrArg K8sWorld.asked (Option.some.inj hw).symm
  exec _ _ _ _ _ _ hx := (exec_records hx).1
  kill _ _ := rfl
  env _ e := e.elim

theorem accepted_recorded :
    Host.Records (k8sHost : Host _ (K8sCall.Answer Obj) _ _ _ _) K8sWorld.accepted
      acceptedBy where
  init _ hw := congrArg K8sWorld.accepted hw
  spawn _ _ _ _ hw := congrArg K8sWorld.accepted (Option.some.inj hw).symm
  exec _ _ _ _ _ _ hx := (exec_records hx).2
  kill _ _ := rfl
  env _ e := e.elim

/-- A task asks for nothing but what its request asks for. -/
theorem asked_within {s : K8sState Obj} (hr : (k8sPool lib kube).Reachable s) {t : Nat}
    {tr : Trace K8sCall (K8sCall.Answer Obj) K8sRequest} (htr : s.view t = some tr) :
    tr.hist.filterMap askedBy <+: (tr.call.mutation lib).toList := by
  refine (Outline.obeyed k8sOutline_holds k8sOutline_sound hr htr).once ?_
  intro h o r hmay m hasked
  cases o with
  | mutate m' =>
      cases hasked
      exact hmay
  | tryDefault => cases hasked
  | get resource ns name => cases hasked
  | send response => cases hasked

/-- No change is asked for that no request says. -/
theorem asked_requested {s : K8sState Obj} (hr : (k8sPool lib kube).Reachable s) {m : Mutation}
    (hm : m ∈ s.world.asked) : ∃ t tr, s.view t = some tr ∧ tr.call.mutation lib = some m := by
  obtain ⟨t, tr, htr, hentered⟩ := (Pool.interleaves asked_recorded hr).enteredBy hm
  exact ⟨t, tr, htr, Option.mem_toList.mp ((asked_within hr htr).subset hentered)⟩

/-- The queue has the response of a task unless it has refused it. -/
theorem queued_or_refused {s : K8sState Obj} (hr : (k8sPool lib kube).Reachable s) {t : Nat}
    {tr : Trace K8sCall (K8sCall.Answer Obj) K8sRequest} (htr : s.view t = some tr)
    (hsent : response ∈ tr.hist.filterMap sentBy) :
    response ∈ s.world.accepted ∨ ∃ e, ⟨.send response, .error e⟩ ∈ tr.hist := by
  obtain ⟨⟨o, r⟩, he, hsentBy⟩ := List.mem_filterMap.mp hsent
  cases o with
  | tryDefault => cases hsentBy
  | mutate m => cases hsentBy
  | get resource ns name => cases hsentBy
  | send sent =>
      cases hsentBy
      cases r with
      | error e => exact .inr ⟨e, he⟩
      | ok u =>
          refine .inl ((Pool.interleaves accepted_recorded hr).entered htr ?_)
          exact List.mem_filterMap.mpr ⟨_, he, rfl⟩

/-- However many requests there are and however their tasks interleave, the apiserver is asked
for what the tasks ask for and the queue holds what it has taken from them, each task's in its
own order; and no change is asked for that no request says. A task that has ended has asked
for the change of its request, once, if it had a client, and for nothing if not. It has sent
one response, which claims success if and only if the apiserver has confirmed the change, and
which is in the queue unless the queue has refused it. -/
theorem changes_asked_for {s : K8sState Obj} (hr : (k8sPool lib kube).Reachable s) :
    Interleaves askedBy s.world.asked s.view ∧
    Interleaves acceptedBy s.world.accepted s.view ∧
    (∀ m ∈ s.world.asked, ∃ t tr, s.view t = some tr ∧ tr.call.mutation lib = some m) ∧
    (∀ t tr, s.view t = some tr →
      tr.hist.filterMap askedBy <+: (tr.call.mutation lib).toList) ∧
    ∀ t c h r, s.threads t = some ⟨⟨c, h, true⟩, .ret (.inr r)⟩ →
      (Connected kube h → h.filterMap askedBy = (c.mutation lib).toList) ∧
      (¬ Connected kube h → h.filterMap askedBy = []) ∧
      ∃ response, h.filterMap sentBy = [response] ∧ Tells lib h c response ∧
        (response ∈ s.world.accepted ∨ ∃ e, ⟨.send response, .error e⟩ ∈ h) := by
  refine ⟨Pool.interleaves asked_recorded hr, Pool.interleaves accepted_recorded hr,
    fun m hm => asked_requested hr hm, fun t tr htr => asked_within hr htr, fun t c h r ht => ?_⟩
  have hended : Ended lib kube c h :=
    (Outline.invariant k8sOutline_holds k8sOutline_sound hr).2 t _ ht
  obtain ⟨response, hone, htells⟩ := hended.told
  have hsent : response ∈ h.filterMap sentBy := by
    rw [hone]
    exact List.mem_singleton_self _
  exact ⟨hended.connected, hended.unconnected, response, hone, htells,
    queued_or_refused hr (Pool.State.view_eq ht) hsent⟩

/-! ## Two requests -/

/-- An object is its text. -/
def plainLibraries : Libraries Str where
  toLowercase s := s.map Char.toLower
  unmanaged obj := obj
  toYaml obj := .ok obj

def noK8sRequests : K8sState Str where
  world := ⟨[], []⟩
  threads _ := none

/-- A pod is deleted while a deployment is being scaled, which the apiserver refuses. -/
def scaleAndDelete : List (Pool.Label K8sRequest (K8sChoice Str) Empty) :=
  [.spawn 0 (.scale "Deploy".toList "ops".toList "web".toList 3),
    .spawn 1 (.deletePod "ops".toList "web-1".toList (some (-5))),
    .act 0 (.unit (.ok ())), .act 1 (.unit (.ok ())), .act 1 (.unit (.ok ())),
    .act 0 (.unit (.error "forbidden".toList)), .act 1 (.queue (.ok ())),
    .act 0 (.queue (.ok ()))]

def bothHandled : K8sState Str :=
  ((k8sPool plainLibraries true).run noK8sRequests scaleAndDelete).get (by decide)

theorem noK8sRequests_reachable : (k8sPool plainLibraries true).Reachable noK8sRequests :=
  .init ⟨rfl, fun _ => rfl⟩

theorem bothHandled_reachable : (k8sPool plainLibraries true).Reachable bothHandled :=
  noK8sRequests_reachable.run (Option.some_get _).symm

theorem changes_asked_for_two :
    bothHandled.world =
      ⟨[.deletePod "ops".toList "web-1".toList (some 0),
          .patchScale .deployment "ops".toList "web".toList 3],
        [.deletePod "ops".toList "web-1".toList true none,
          .scale "Deploy".toList "ops".toList "web".toList false
            (some "scale deployment: forbidden".toList)]⟩ ∧
    Interleaves askedBy bothHandled.world.asked bothHandled.view :=
  ⟨by decide, (changes_asked_for bothHandled_reachable).1⟩

end ShellfleetAgent.Agent.K8sRequests
