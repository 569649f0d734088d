import ShellfleetAgent.Proofs.AptSources

/-!
# Whose upgrade a response is about

A response carries the package of the request, and reports on whatever run the
request has watched: its own, if there was no state file, or else the one in the
file. A request reads the file once, first of all, so the two packages are the
same exactly if that reading did not find another's. Whether what it then reads
is the result of that run is a question of the run's id (`SourceInv`).
-/

namespace ShellfleetAgent.Agent.Apt

open ShellfleetAgent.Lib

/-- The run behind a request for `p`: one it found, or one it has started. -/
inductive Watched (p : Option Str) (h : AptHistory) (st : AptRunState) : Prop
  | joined {found : AptRunState} (hfound : gotState (some found) ∈ h) (hsame : SameRun found st)
  | started {unit script mode : Str} {out : Output} (hnone : gotState none ∈ h)
      (hpackage : st.package = p) (hunit : st.unitName = some unit)
      (hrun : (⟨.systemdRun unit script mode p, .ok out⟩ : AptEvent) ∈ h)
      (hok : out.success = true)

/-- The run behind a task's response for `p`. A resumed run is for its own
package. -/
def Behind (p : Option Str) (h : AptHistory) (st : AptRunState) : AptCall → Prop
  | .request q => p = q ∧ Watched q h st
  | .resume => st.package = p ∧ Watched p h st

/-- The run has told success. -/
def ToldSuccess (h : AptHistory) (st : AptRunState) : Prop :=
  ∃ path text, st.resultPath = some path ∧ gotResult path text ∈ h ∧
    Text.trim text = "success".toList

section Behind

variable {p : Option Str} {h h' : AptHistory} {st st' : AptRunState} {c : AptCall}

theorem Watched.mono (hw : Watched p h st) (hh : h <+: h') : Watched p h' st := by
  cases hw with
  | joined hfound hsame => exact .joined (hh.subset hfound) hsame
  | started hnone hpackage hunit hrun hok =>
      exact .started (hh.subset hnone) hpackage hunit (hh.subset hrun) hok

theorem Watched.same (hw : Watched p h st) (hs : SameRun st st') : Watched p h st' := by
  cases hw with
  | joined hfound hsame => exact .joined hfound (hsame.trans hs)
  | started hnone hpackage hunit hrun hok =>
      exact .started hnone (hs.package.trans hpackage) (hs.unitName.trans hunit) hrun hok

theorem Behind.step (hb : Behind p h st c) (hh : h <+: h') (hs : SameRun st st') :
    Behind p h' st' c := by
  cases c with
  | request q => exact ⟨hb.1, (hb.2.mono hh).same hs⟩
  | resume => exact ⟨hs.package.trans hb.1, (hb.2.mono hh).same hs⟩

theorem Behind.package (hb : Behind p h st c) {q : Option Str} (hc : c = .request q) : p = q := by
  subst hc
  exact hb.1

end Behind

/-! ## The tasks -/

def agentOutline : Outline agentCode where
  contract c :=
    { may := fun h o => ∀ p, c = .request p → o = .readState → h = []
      answer := fun _ _ _ => True }
  loopInv c h l := Behind l.1 h l.2.1 c ∧ l.2.1.resultPath = some l.2.2
  post c h response := ∀ r ∈ response, (∀ p, c = .request p → r.package = p) ∧
    (r.success = true → ∃ st, Behind r.package h st c ∧ ToldSuccess h st)

section Tasks

variable {c : AptCall} {p : Option Str} {h : AptHistory} {st : AptRunState}

theorem agent_may {o : AptOp} (ho : o ≠ .readState) : (agentOutline.contract c).may h o :=
  fun _ _ hread => absurd hread ho

theorem agent_watches (h : AptHistory) (o : AptOp) (ho : o.watches) :
    (agentOutline.contract c).may h o := by
  refine agent_may ?_
  rintro rfl
  exact ho

/-- An end that is no success is a response about the task's own package. -/
theorem post_failed {log : Str} {error : Option Str} (hp : ∀ q, c = .request q → p = q) :
    agentOutline.roundPost c h (respond p (.inr (.returned false log error))) := by
  intro r hr
  cases hr
  exact ⟨hp, fun hsuccess => absurd hsuccess Bool.false_ne_true⟩

theorem watchRound_respond {path : Str} (hb : Behind p h st c)
    (hpath : st.resultPath = some path) :
    (agentOutline.contract c).wp ((watchRound path st).bind fun r => .ret (respond p r))
      (agentOutline.roundPost c) h := by
  rw [Contract.wp_bind]
  refine Contract.wp_mono (watchRound_wp agent_watches path st) ?_
  rintro h' (l | e) ⟨hpre, hr⟩
  · obtain ⟨hsame, hl⟩ := hr
    refine ⟨hb.step hpre hsame, ?_⟩
    rw [hsame.resultPath, hpath, hl]
  · cases e with
    | panicked => exact fun r hr => by cases hr
    | returned success log error =>
        rcases hr with ⟨text, hmem, hsuccess⟩ | ⟨rfl, _⟩
        · intro r hr
          cases hr
          refine ⟨fun q hq => hb.package hq, fun htrue => ?_⟩
          exact ⟨st, hb.step hpre (.refl st), path, text, hpath, hmem, hsuccess.mp htrue⟩
        · exact post_failed fun q hq => hb.package hq

theorem watchSystemdRun_respond (hb : Behind p h st c) :
    (agentOutline.contract c).wp ((watchSystemdRun st).bind fun r => .ret (respond p r))
      (agentOutline.roundPost c) h := by
  unfold watchSystemdRun
  split
  · refine ⟨agent_watches _ _ trivial, fun r _ => ?_⟩
    exact post_failed fun q hq => hb.package hq
  · next path hpath => exact watchRound_respond hb hpath

/-- A statement of `start_systemd_run` that may be answered anything. -/
theorem wp_run_only {C : Contract AptOp AptResp} {S : AptOp → Prop}
    (hC : ∀ h o, S o → C.may h o) {α β : Type} {x : ExceptT Str AptM α}
    {f : α → ExceptT Str AptM β} {Q : AptHistory → Except Str β → Prop} (hx : x.run.Only S)
    (hok : ∀ e a, C.wp (f a).run Q (h ++ e)) (herror : ∀ e err, Q (h ++ e) (.error err)) :
    C.wp (x >>= f).run Q h := by
  rw [Contract.wp_run_bind]
  refine wp_only hC hx fun e r => ?_
  cases r with
  | ok a => exact hok e a
  | error err => exact herror e err

theorem only_attempt {S : AptOp → Prop} {α : Type} {heading : String}
    {x : AptM (Except Str α)} (hx : x.Only S) : (attempt heading x).run.Only S := by
  refine hx.bind fun r => ?_
  cases r <;> trivial

theorem only_lift {S : AptOp → Prop} {α : Type} {x : AptM α} (hx : x.Only S) :
    (ExceptT.lift x : ExceptT Str AptM α).run.Only S :=
  hx.bind fun _ => trivial

/-- A run that has been started is for the package it was asked for, and so is its
unit. -/
theorem startSystemdRun_wp {C : Contract AptOp AptResp}
    (hC : ∀ h o, o ≠ .readState → C.may h o) :
    C.wp (startSystemdRun p).run (fun h' r => ∀ st, r = .ok st →
      st.package = p ∧ ∃ unit script mode out, st.unitName = some unit ∧
        (⟨.systemdRun unit script mode p, .ok out⟩ : AptEvent) ∈ h' ∧ out.success = true) h := by
  have hwatch : ∀ o : AptOp, o.watches → o ≠ .readState := by
    rintro o ho rfl
    exact ho
  have hcall : ∀ o : AptOp, o ≠ .readState → (ask o).Only (· ≠ .readState) :=
    fun o ho => Prog.only_perform.mpr ho
  unfold startSystemdRun
  refine wp_run_only hC trivial (fun _ _ => ?_) fun _ _ => nofun
  refine wp_run_only hC (only_lift (hcall _ nofun)) (fun _ startedAt => ?_) fun _ _ => nofun
  refine wp_run_only hC (only_lift (hcall _ nofun)) (fun _ pid => ?_) fun _ _ => nofun
  have hscript : ∀ script log result,
      (writeUpgradeScript script log result).run.Only (· ≠ .readState) := by
    intro script log result
    refine Prog.Only.run_bind (only_attempt (hcall .createStateDir nofun)) fun _ => ?_
    refine Prog.Only.run_bind (only_attempt (hcall (.writeScript script ⟨log, result⟩) nofun)) ?_
    exact fun _ => only_attempt (hcall (.chmodScript script) nofun)
  refine wp_run_only hC (hscript _ _ _) (fun _ _ => ?_) fun _ _ => nofun
  refine wp_run_only hC (only_lift ((only_writeState _).mono hwatch)) (fun e _ => ?_)
    fun _ _ => nofun
  dsimp only
  rw [Contract.wp_run_bind]
  refine ⟨hC _ _ nofun, fun answer _ => ?_⟩
  cases answer with
  | error err => exact nofun
  | ok out =>
      dsimp only [Prog.bind]
      rw [Contract.wp_ret]
      dsimp only
      split
      · next hok =>
          intro st hst
          cases hst
          exact ⟨rfl, _, _, _, out, rfl,
            List.mem_append_right _ (List.mem_singleton_self _), hok⟩
      · refine wp_run_only hC (only_lift ((only_cleanupRunFiles _).mono hwatch)) (fun _ _ => ?_)
          fun _ _ => nofun
        refine wp_run_only hC (only_lift (hcall _ nofun)) (fun _ _ => ?_) fun _ _ => nofun
        exact nofun

/-- One reading of the state file decides what a request will watch. -/
theorem upgrade_respond (p : Option Str) :
    (agentOutline.contract (.request p)).wp ((upgrade p).bind fun r => .ret (respond p r))
      (agentOutline.roundPost (.request p)) [] := by
  unfold upgrade
  refine ⟨fun _ _ _ => rfl, fun found _ => ?_⟩
  dsimp only [Prog.bind]
  cases found with
  | some existing =>
      refine watchSystemdRun_respond ⟨rfl, .joined ?_ (.refl existing)⟩
      exact List.mem_singleton_self _
  | none =>
      rw [Prog.bind_eq, Contract.wp_bind, Contract.wp_bind]
      refine Contract.wp_mono (Contract.wp_returns (startSystemdRun_wp fun h o ho =>
        agent_may ho)) ?_
      rintro h' r ⟨hstarted, e, rfl, _⟩
      cases r with
      | error err => exact post_failed fun q hq => AptCall.request.inj hq
      | ok st =>
          obtain ⟨hpackage, unit, script, mode, out, hunit, hrun, hok⟩ := hstarted st rfl
          rw [← Contract.wp_bind]
          refine watchSystemdRun_respond ⟨rfl, .started ?_ hpackage hunit hrun hok⟩
          exact List.mem_append_left _ (List.mem_singleton_self _)

theorem resumePendingUpgrade_respond (h : AptHistory) :
    (agentOutline.contract .resume).wp resumePendingUpgrade (agentOutline.roundPost .resume)
      h := by
  unfold resumePendingUpgrade
  refine ⟨nofun, fun found _ => ?_⟩
  dsimp only [Prog.bind]
  cases found with
  | none => exact fun r hr => by cases hr
  | some existing =>
      refine watchSystemdRun_respond ⟨rfl, .joined ?_ (.refl existing)⟩
      exact List.mem_append_right _ (List.mem_singleton_self _)

theorem agentOutline_holds : agentOutline.Holds where
  start c := by
    cases c with
    | request p => exact upgrade_respond p
    | resume =>
        refine ⟨nofun, fun found _ => ?_⟩
        cases found with
        | none => exact fun r hr => by cases hr
        | some existing => exact resumePendingUpgrade_respond _
  again c h l hl := by
    obtain ⟨p, state, path⟩ := l
    exact watchRound_respond hl.1 hl.2

end Tasks

/-! ## Responses -/

theorem requested_eq {c : AptCall} {p : Option Str} (h : p ∈ c.requested) : c = .request p := by
  cases c with
  | request q =>
      cases h
      rfl
  | resume => cases h

/-- Whatever a request has found in the state file was its own package's run. -/
def FoundOwn (tr : Trace AptOp AptResp AptCall) : Prop :=
  ∀ p ∈ tr.call.requested, ∀ found, gotState (some found) ∈ tr.hist → found.package = p

/-- A request reads the state file first, and once. -/
def ReadsFirst (v : Nat → Option (Trace AptOp AptResp AptCall)) : Prop :=
  ∀ t tr, v t = some tr → ∀ p, tr.call = .request p → ∀ e ∈ tr.hist.tail, e.op ≠ .readState

theorem ReadsFirst.update {v : Nat → Option (Trace AptOp AptResp AptCall)} {t : Nat}
    {tr : Trace AptOp AptResp AptCall} (hv : ReadsFirst v)
    (htr : ∀ p, tr.call = .request p → ∀ e ∈ tr.hist.tail, e.op ≠ .readState) :
    ReadsFirst (Function.update v t (some tr)) := by
  intro u tr' hu
  rcases update_some hu with ⟨rfl, rfl⟩ | ⟨_, hu⟩
  · exact htr
  · exact hv u tr' hu

theorem agentOutline_sound :
    agentOutline.Sound attributedHost (fun _ _ => True) (fun _ v => ReadsFirst v) where
  init w _ t tr ht := by cases ht
  spawn w v t c w' hv _ _ := hv.update nofun
  act s t ch c o k h w' r hv ht hmay _ _ := by
    refine ⟨trivial, hv.update fun p hp e he hread => ?_⟩
    cases h with
    | nil => cases he
    | cons e₀ h =>
        rcases List.mem_append.mp he with he | he
        · exact hv t _ (Pool.State.view_eq ht) p hp e he hread
        · obtain rfl := List.mem_singleton.mp he
          cases hmay p hp hread
  kill w v t c h hv ht := hv.update fun p hp => hv t ⟨c, h, true⟩ ht p hp
  env w v e w' hv _ := hv

theorem ReadsFirst.unique {v : Nat → Option (Trace AptOp AptResp AptCall)} {t : Nat}
    {tr : Trace AptOp AptResp AptCall} {p : Option Str} (hv : ReadsFirst v) (ht : v t = some tr)
    (hp : tr.call = .request p) {a b : Option AptRunState} (ha : gotState a ∈ tr.hist)
    (hb : gotState b ∈ tr.hist) : a = b := by
  have hfirst : ∀ x, gotState x ∈ tr.hist → tr.hist.head? = some (gotState x) := by
    intro x hx
    have htail := hv t tr ht p hp
    cases hhist : tr.hist with
    | nil =>
        rw [hhist] at hx
        cases hx
    | cons e h =>
        rw [hhist] at hx htail
        rcases List.mem_cons.mp hx with rfl | hx
        · rfl
        · exact absurd rfl (htail _ hx)
  have hsame := Option.some.inj ((hfirst a ha).symm.trans (hfirst b hb))
  simpa [gotState] using hsame

/-- A response of success reports on a run the task has watched; whether that is
a run for the response's package is settled when the state file is read. -/
theorem response_run {s : AttributedState} (hr : attributedPool.Reachable s) {t : Nat}
    {tr : Trace AptOp AptResp AptCall} {r : AptUpgradeResponse}
    (ht : s.threads t = some ⟨tr, .ret (.inr (some r))⟩) (hsuccess : r.success = true) :
    (∀ p ∈ tr.call.requested, r.package = p) ∧
      ∃ st, Watched r.package tr.hist st ∧ ToldSuccess tr.hist st ∧
        (st.package = r.package ↔ FoundOwn tr) := by
  obtain ⟨hv, hK⟩ := Outline.invariant agentOutline_holds agentOutline_sound hr
  have hpost : agentOutline.post tr.call tr.hist (some r) := hK t _ ht
  obtain ⟨hpackage, hrun⟩ := hpost r rfl
  obtain ⟨st, hb, htold⟩ := hrun hsuccess
  have hview := Pool.State.view_eq ht
  cases hcall : tr.call with
  | resume =>
      rw [hcall] at hb
      refine ⟨nofun, st, hb.2, htold, iff_of_true hb.1 ?_⟩
      intro p hp
      rw [hcall] at hp
      cases hp
  | request q =>
      rw [hcall] at hb
      obtain ⟨rfl, hwatched⟩ := hb
      refine ⟨fun p hp => Option.some.inj hp, st, hwatched, htold, ?_⟩
      have hrequested : ∀ p ∈ tr.call.requested, r.package = p := by
        rw [hcall]
        exact fun p hp => Option.some.inj hp
      cases hwatched with
      | joined hfound hsame =>
          constructor
          · intro hst p hp found hmem
            cases hv.unique hview hcall hfound hmem
            rw [← hsame.package, hst]
            exact hrequested p hp
          · intro hown
            rw [hsame.package]
            exact hown _ (by rw [hcall]; rfl) _ hfound
      | started hnone hpackage hunit hrun hok =>
          refine iff_of_true hpackage fun p _ found hmem => ?_
          cases hv.unique hview hcall hnone hmem

/-- Every response of success to a request is about its package, comes from a run for that
package, and rests on a result that a unit for that package has written, in every run of the
agent whose steps are not mixed up; the run is for the package, in any run, exactly if this
request has found no other. -/
theorem response_own_package {s : AttributedState} {t : Nat} {tr : Trace AptOp AptResp AptCall}
    {r : AptUpgradeResponse} (ht : s.threads t = some ⟨tr, .ret (.inr (some r))⟩)
    (hsuccess : r.success = true) :
    (attributedPool.Reach Unmixed s →
      (∀ p ∈ tr.call.requested, r.package = p ∧ s.world.sources t = some p) ∧
      ∃ st, Watched r.package tr.hist st ∧ ToldSuccess tr.hist st ∧ st.package = r.package) ∧
    (attributedPool.Reachable s → (∀ p ∈ tr.call.requested, r.package = p) ∧
      ∃ st, Watched r.package tr.hist st ∧ ToldSuccess tr.hist st ∧
        (st.package = r.package ↔ FoundOwn tr)) := by
  refine ⟨fun hr => ?_, fun hr => response_run hr ht hsuccess⟩
  obtain ⟨hpackage, st, hwatched, htold, hst⟩ := response_run hr.reachable ht hsuccess
  have hsourced := sourced_reach hr t tr (Pool.State.view_eq ht)
  refine ⟨fun p hp => ⟨hpackage p hp, ?_⟩, st, hwatched, htold, hst.mpr fun p hp found hmem => ?_⟩
  · obtain ⟨path, text, _, hread, _⟩ := htold
    exact ((hsourced p (requested_eq hp)).told path text hread).2
  · exact (hsourced p (requested_eq hp)).found found hmem

/-- A host without any runs. -/
def idleAgent : AgentState where
  world :=
    { clock := 7
      pid := 1
      stateFile := .absent
      logs := fun _ => none
      results := fun _ => none
      scripts := fun _ => none
      units := fun _ => none }
  threads _ := none

def agentActs (t n : Nat) : List AgentLabel := List.replicate n (.act t .good)

/-- The unit of the run that starts there, until it has told success. -/
def agentUnit : List AgentLabel :=
  [.start, .runApt 0 0 0, .openResult, .writeResult].map fun step =>
    .env (.unit (unitName curlRun) step)

/-- The packages of the states a task has found. -/
def foundPackages (h : AptHistory) : List (Option (Option Str)) :=
  h.filterMap fun
    | ⟨.readState, found⟩ => some (found.map AptRunState.package)
    | _ => none

theorem mem_foundPackages {h : AptHistory} {found : Option AptRunState}
    (hmem : gotState found ∈ h) : found.map AptRunState.package ∈ foundPackages h :=
  List.mem_filterMap.mpr ⟨gotState found, hmem, rfl⟩

/-- What a task was asked for, what it has found, and what it has answered. -/
structure Answered where
  requested : Option (Option Str)
  found : List (Option (Option Str))
  package : Option Str
  success : Bool
  deriving DecidableEq

def answered (s : AttributedState) (t : Nat) : Option Answered :=
  match s.threads t with
  | some ⟨tr, .ret (.inr (some r))⟩ =>
      some ⟨tr.call.requested, foundPackages tr.hist, r.package, r.success⟩
  | _ => none

theorem answered_eq_some {s : AttributedState} {t : Nat} {a : Answered}
    (h : answered s t = some a) :
    ∃ tr r, s.threads t = some ⟨tr, .ret (.inr (some r))⟩ ∧ tr.call.requested = a.requested ∧
      foundPackages tr.hist = a.found ∧ r.package = a.package ∧ r.success = a.success := by
  unfold answered at h
  split at h
  · next tr r ht =>
      cases h
      exact ⟨tr, r, ht, rfl, rfl, rfl, rfl⟩
  · cases h

/-! ## Three runs -/

def idleHost : AttributedState where
  world := ⟨idleAgent.world, fun _ => none, fun _ => none⟩
  threads _ := none

theorem idleHost_bears (path : Str) (p : Option Str) : ¬idleHost.world.Bears path p := by
  rintro (⟨hu, _⟩ | ⟨htext, _⟩ | ⟨hst, _⟩)
  · cases hu
  · cases htext
  · cases hst

theorem idleHost_init : attributedPool.init idleHost :=
  ⟨⟨⟨nofun, nofun, nofun⟩, fun _ _ _ hp => absurd hp (idleHost_bears _ _)⟩, fun _ => rfl⟩

/-- A step that takes no id, and finds nothing that it may not. -/
def Evident (s : AttributedState) : AgentLabel → Bool
  | .act t _ =>
      match agentStaged.stages s t with
      | some (.asked p) => s.world.world.stateFile.parsed.all (·.package = p)
      | some (.starting _ (some _)) => false
      | _ => true
  | _ => true

theorem Evident.unmixed {s : AttributedState} {i : AgentLabel} (h : Evident s i = true) :
    Unmixed s i := by
  cases i with
  | act t ch =>
      intro x o hx _
      rw [Evident, hx] at h
      cases x with
      | asked p =>
          cases o with
          | readState =>
              intro _ found hfound
              dsimp only at h
              rw [hfound] at h
              exact of_decide_eq_true h
          | _ => trivial
      | starting p now =>
          cases now with
          | none => trivial
          | some now => cases h
      | _ => trivial
  | _ => trivial

/-- A start on a host with nothing on it, with no other task at work, may take any id. -/
theorem unmixed_alone {s : AttributedState} {t : Nat} {ch : AptChoice}
    (hhost : ∀ path p, ¬s.world.Bears path p) (halone : ∀ u, u ≠ t → s.threads u = none)
    {p : Option Str} {now : Nat} (ht : agentStaged.stages s t = some (.starting p (some now))) :
    Unmixed s (.act t ch) := by
  intro x o hx _
  cases ht.symm.trans hx
  cases o with
  | processId =>
      rintro q (hbears | ⟨u, z, hu, hz⟩)
      · exact absurd hbears (hhost _ _)
      · by_cases htu : u = t
        · subst htu
          cases ht.symm.trans hu
          cases hz
        · rw [Staged.stages, halone u htu] at hu
          cases hu
  | _ => trivial

/-- A request for `curl` that has found no run and knows the time. -/
def curlTimed : List AgentLabel := .spawn 0 (.request (some "curl".toList)) :: agentActs 0 2

theorem curlTimed_unmixed {s : AttributedState}
    (hs : attributedPool.runWithin (Evident · ·) idleHost curlTimed = some s) :
    Unmixed s (.act 0 .good) := by
  have hworld : (attributedPool.runWithin (Evident · ·) idleHost curlTimed).map (·.world) =
      some idleHost.world := rfl
  have hthreads : ∃ x y z, (attributedPool.runWithin (Evident · ·) idleHost curlTimed).map
      (·.threads) = some (Function.update (Function.update (Function.update (fun _ => none) 0 x)
        0 y) 0 z) := ⟨_, _, _, rfl⟩
  have hstage : (attributedPool.runWithin (Evident · ·) idleHost curlTimed).bind
      (agentStaged.stages · 0) = some (.starting (some "curl".toList) (some 7)) := rfl
  obtain ⟨x, y, z, hthreads⟩ := hthreads
  rw [hs] at hworld hthreads hstage
  refine unmixed_alone (fun path p => ?_) (fun u hu => ?_) hstage
  · rw [show s.world = idleHost.world from Option.some.inj hworld]
    exact idleHost_bears path p
  · rw [show s.threads = _ from Option.some.inj hthreads, Function.update_of_ne hu,
      Function.update_of_ne hu, Function.update_of_ne hu]

/-- A request that starts a run, and one for the same package that joins it: both read the
result before either removes it. -/
theorem response_own_package_curl : ∃ s : AttributedState,
    (answered s 0).map (·.success) = some true ∧ (answered s 1).map (·.success) = some true ∧
      s.world.sources 0 = some (some "curl".toList) ∧
        s.world.sources 1 = some (some "curl".toList) := by
  have hrun : ((attributedPool.runWithin (Evident · ·) idleHost curlTimed).bind fun s =>
      (attributedPool.step s (.act 0 .good)).bind fun s =>
        attributedPool.runWithin (Evident · ·) s (agentActs 0 7 ++
          [Pool.Label.spawn 1 (.request (some "curl".toList))] ++ agentActs 1 1 ++ agentUnit ++
          agentActs 0 5 ++ agentActs 1 5 ++ agentActs 0 4 ++ agentActs 1 4)).map
        (fun s => (answered s 0, answered s 1)) =
      some (some ⟨some (some "curl".toList), [none], some "curl".toList, true⟩,
        some ⟨some (some "curl".toList), [some (some "curl".toList)], some "curl".toList,
          true⟩) := by
    decide
  obtain ⟨s, hs, hanswered⟩ := Option.map_eq_some_iff.mp hrun
  obtain ⟨s₁, hs₁, hs⟩ := Option.bind_eq_some_iff.mp hs
  obtain ⟨s₂, hs₂, hs⟩ := Option.bind_eq_some_iff.mp hs
  obtain ⟨h₀, h₁⟩ := Prod.mk.inj hanswered
  obtain ⟨tr₀, r₀, ht₀, hrequested₀, _, _, hsuccess₀⟩ := answered_eq_some h₀
  obtain ⟨tr₁, r₁, ht₁, hrequested₁, _, _, hsuccess₁⟩ := answered_eq_some h₁
  have hr₁ := Machine.Reach.runWithin_mono (.init idleHost_init) (fun _ _ => Evident.unmixed) hs₁
  have hr := (hr₁.step (curlTimed_unmixed hs₁) hs₂).runWithin_mono
    (fun _ _ => Evident.unmixed) hs
  have hown₀ := ((response_own_package ht₀ hsuccess₀).1 hr).1 _ hrequested₀
  have hown₁ := ((response_own_package ht₁ hsuccess₁).1 hr).1 _ hrequested₁
  exact ⟨s, by rw [h₀]; rfl, by rw [h₁]; rfl, hown₀.2, hown₁.2⟩

/-- A request for `vim` that arrives while `curl` is upgraded is answered with
success for `vim`. And so is one that starts in the same second and under the same id, when
its unit has not run yet. -/
theorem response_other_package :
    (∃ s tr r, attributedPool.Reachable s ∧
      s.threads 1 = some ⟨tr, .ret (.inr (some r))⟩ ∧
        tr.call.requested = some (some "vim".toList) ∧ r.package = some "vim".toList ∧
          r.success = true ∧
            ∀ st, Watched (some "vim".toList) tr.hist st → st.package = some "curl".toList) ∧
    ∃ s, attributedPool.Reachable s ∧
      answered s 1 = some ⟨some (some "vim".toList), [none], some "vim".toList, true⟩ ∧
        s.world.sources 1 = some (some "curl".toList) ∧
          (s.world.world.units (unitName curlRun)).map (·.phase) = some .queued := by
  constructor
  · have hrun : ((attributedPool.run idleHost
        ([Pool.Label.spawn 0 (.request (some "curl".toList))] ++ agentActs 0 10 ++
          [Pool.Label.spawn 1 (.request (some "vim".toList))] ++ agentActs 1 1 ++ agentUnit ++
          agentActs 1 9)).bind (answered · 1)) =
        some ⟨some (some "vim".toList), [some (some "curl".toList)], some "vim".toList, true⟩ := by
      decide
    obtain ⟨s, hs, hanswered⟩ := Option.bind_eq_some_iff.mp hrun
    obtain ⟨tr, r, ht, hrequested, hfound, hpackage, hsuccess⟩ := answered_eq_some hanswered
    refine ⟨s, tr, r, Machine.Reach.run (.init idleHost_init) hs, ht, hrequested, hpackage,
      hsuccess, fun st hst => ?_⟩
    cases hst with
    | joined hmem hsame =>
        have hmem := mem_foundPackages hmem
        rw [hfound, List.mem_singleton, Option.map_some, Option.some.injEq] at hmem
        exact hsame.package.trans hmem
    | started hmem =>
        have hmem := mem_foundPackages hmem
        rw [hfound, List.mem_singleton] at hmem
        cases hmem
  · have hrun : (attributedPool.run idleHost
        ([Pool.Label.spawn 0 (.request (some "curl".toList)),
            .spawn 1 (.request (some "vim".toList))] ++
          agentActs 0 1 ++ agentActs 1 1 ++ agentActs 0 9 ++ agentUnit ++
          [Pool.Label.env (.unit (unitName curlRun) .exit),
            .env (.unit (unitName curlRun) .unload)] ++
          agentActs 1 18)).map (fun s => (answered s 1, s.world.sources 1,
            (s.world.world.units (unitName curlRun)).map (·.phase))) =
        some (some ⟨some (some "vim".toList), [none], some "vim".toList, true⟩,
          some (some "curl".toList), some .queued) := by
      decide
    obtain ⟨s, hs, hseen⟩ := Option.map_eq_some_iff.mp hrun
    obtain ⟨hanswered, hseen⟩ := Prod.mk.inj hseen
    obtain ⟨hsource, hphase⟩ := Prod.mk.inj hseen
    exact ⟨s, Machine.Reach.run (.init idleHost_init) hs, hanswered, hsource, hphase⟩

end ShellfleetAgent.Agent.Apt
