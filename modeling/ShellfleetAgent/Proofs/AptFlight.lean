import ShellfleetAgent.Proofs.AptRequests
import ShellfleetAgent.Proofs.AptStages

/-!
# One run in flight

`upgrade` has one guard against a second unit: it reads the state file first and
joins the run it finds. The file is a lock that nobody holds: what is read, what is
written and what `systemd-run` starts are steps of their own, and every clean-up
deletes by path. So the guard works as long as calls that start a run do so alone.

The invariant has three modes, and a run of the agent goes round them: no unit is
in flight and no call is starting one; one call is starting one; one unit is in
flight, and all who watch anything watch it (`FlightInv`).
-/

namespace ShellfleetAgent.Agent.Apt

open ShellfleetAgent.Lib

/-- The wrapper has not exited. -/
def Phase.inFlight : Phase → Bool
  | .exited _ | .unloaded _ => false
  | _ => true

/-- The wrapper has created its result file. -/
def Phase.reporting : Phase → Bool
  | .opened _ | .written _ => true
  | _ => false

namespace AptWorld

def Flying (w : AptWorld) (unit : Str) (u : SystemdUnit) : Prop :=
  w.units unit = some u ∧ u.phase.inFlight = true

/-- No unit is in flight. -/
def Quiet (w : AptWorld) : Prop := ∀ unit u, ¬w.Flying unit u

/-- `st` is the state of the unit: its name, package and files are the unit's, and
the files are there, the result from when the wrapper has created it. -/
structure Describes (w : AptWorld) (unit : Str) (u : SystemdUnit) (st : AptRunState) : Prop where
  unitName : st.unitName = some unit
  package : st.package = u.package
  scriptPath : st.scriptPath = some u.script
  files : ∃ script, w.scripts u.script = some (some script) ∧
    st.logPath = some script.logPath ∧ st.resultPath = some script.resultPath ∧
    (∀ s, u.wrapper = some s → s = script) ∧
    (u.phase.reporting = true → w.results script.resultPath ≠ none)

/-- The state file holds a state that satisfies `P`, or, unless `strict`, is just
being rewritten. -/
def StateHolds (w : AptWorld) (strict : Prop) (P : AptRunState → Prop) : Prop :=
  match w.stateFile with
  | .absent => False
  | .torn => ¬strict
  | .holds st => P st

/-- At most one unit is in flight; the state file describes it, and its files are
there. -/
structure OneRun (w : AptWorld) (strict : Prop) : Prop where
  one : ∀ unit u unit' u', w.Flying unit u → w.Flying unit' u' → unit = unit'
  files : ∀ unit u, w.Flying unit u → ∃ st, w.Describes unit u st
  state : ∀ unit u, w.Flying unit u → w.StateHolds strict (w.Describes unit u)

end AptWorld

/-- The agent on a host where at most one run is in flight, and its state is in the
file. -/
abbrev flightPool : Machine AgentState AgentLabel := pool agentCode (aptHost (·.OneRun True))

section Files

variable {w w' : AptWorld} {unit : Str} {u : SystemdUnit} {st st' : AptRunState} {strict : Prop}
  {P Q : AptRunState → Prop}

theorem AptWorld.Describes.same (h : w.Describes unit u st) (hs : SameRun st st') :
    w.Describes unit u st' := by
  obtain ⟨script, hscript, hlog, hresult, hwrapper, hreport⟩ := h.files
  refine ⟨hs.unitName.trans h.unitName, hs.package.trans h.package,
    hs.scriptPath.trans h.scriptPath, script, hscript, hs.logPath.trans hlog,
    hs.resultPath.trans hresult, hwrapper, hreport⟩

/-- Whatever else moves, the two files decide. -/
theorem AptWorld.Describes.of_eq (h : w.Describes unit u st) (hscripts : w'.scripts = w.scripts)
    (hresults : w'.results = w.results) : w'.Describes unit u st := by
  obtain ⟨script, hscript, hlog, hresult, hwrapper, hreport⟩ := h.files
  rw [← hscripts] at hscript
  rw [← hresults] at hreport
  exact ⟨h.unitName, h.package, h.scriptPath, script, hscript, hlog, hresult, hwrapper, hreport⟩

theorem AptWorld.StateHolds.mono (h : w.StateHolds strict P) (hfile : w'.stateFile = w.stateFile)
    (hPQ : ∀ st, P st → Q st) : w'.StateHolds strict Q := by
  unfold AptWorld.StateHolds at h ⊢
  rw [hfile]
  split at h
  · exact h
  · exact h
  · exact hPQ _ h

theorem AptWorld.StateHolds.of_parsed (h : w.StateHolds strict P)
    (hst : w.stateFile.parsed = some st) : P st := by
  unfold AptWorld.StateHolds at h
  split at h
  · exact h.elim
  · next hfile =>
      rw [hfile] at hst
      cases hst
  · next st' hfile =>
      rw [hfile] at hst
      cases hst
      exact h

end Files

/-! ## Units -/

section Units

variable {w w' : AptWorld} {unit : Str} {u : SystemdUnit}

theorem AptWorld.flying_setUnit {u' : SystemdUnit} {name : Str} {v : SystemdUnit}
    (hunits : w'.units = Function.update w.units unit (some u')) (h : w'.Flying name v) :
    (name = unit ∧ v = u' ∧ u'.phase.inFlight = true) ∨ (name ≠ unit ∧ w.Flying name v) := by
  obtain ⟨hv, hflight⟩ := h
  rw [hunits] at hv
  rcases update_some hv with ⟨rfl, rfl⟩ | ⟨hname, hv⟩
  · exact .inl ⟨rfl, rfl, hflight⟩
  · exact .inr ⟨hname, hv, hflight⟩

/-- A step of a unit starts no other and touches neither the state file nor a script;
while it is in flight its state keeps describing it, and afterwards it leaves the
results alone. -/
theorem unitStep_flight {step : UnitStep} (hu : w.units unit = some u)
    (h : w.unitStep unit u step = some w') :
    w'.stateFile = w.stateFile ∧ w'.scripts = w.scripts ∧
      (u.phase.inFlight = false → w'.results = w.results) ∧
      ∃ u', w'.units = Function.update w.units unit (some u') ∧
        (u'.phase.inFlight = true → u.phase.inFlight = true) ∧
        (u'.phase.inFlight = true → ∀ st, w.Describes unit u st → w'.Describes unit u' st) := by
  obtain ⟨u', logs, results, hmove, rfl⟩ := unitStep_move hu h
  refine ⟨rfl, rfl, ?_⟩
  cases hmove with
  | start hphase hs =>
      refine ⟨fun _ => rfl, _, rfl, fun _ => by rw [hphase]; rfl, fun _ st hd => ?_⟩
      obtain ⟨script, hscript, hlog, hresult, _, _⟩ := hd.files
      rw [hs] at hscript
      cases hscript
      refine ⟨hd.unitName, hd.package, hd.scriptPath, _, hs, hlog, hresult, ?_, nofun⟩
      intro s' hs'
      exact (Option.some.inj hs').symm
  | failed hphase => exact ⟨fun _ => rfl, _, rfl, nofun, nofun⟩
  | print text => exact ⟨fun _ => rfl, u, rfl, id, fun _ st hd => hd.of_eq rfl rfl⟩
  | runApt apt dpkg fix hphase =>
      refine ⟨fun _ => rfl, _, rfl, fun _ => by rw [hphase]; rfl, fun _ st hd => ?_⟩
      obtain ⟨script, hscript, hlog, hresult, hwrapper, _⟩ := hd.files
      exact ⟨hd.unitName, hd.package, hd.scriptPath, script, hscript, hlog, hresult, hwrapper,
        nofun⟩
  | @openResult s rc hs hphase =>
      have hfrom : u.phase.inFlight = true := by
        rw [hphase]
        rfl
      refine ⟨fun hnot => absurd (hfrom.symm.trans hnot) Bool.true_eq_false.mp, _, rfl,
        fun _ => hfrom, fun _ st hd => ?_⟩
      obtain ⟨script, hscript, hlog, hresult, hwrapper, _⟩ := hd.files
      obtain rfl := hwrapper s hs
      refine ⟨hd.unitName, hd.package, hd.scriptPath, s, hscript, hlog, hresult, hwrapper,
        fun _ => ?_⟩
      simp
  | @writeResult s rc hs hphase =>
      have hfrom : u.phase.inFlight = true := by
        rw [hphase]
        rfl
      refine ⟨fun hnot => absurd (hfrom.symm.trans hnot) Bool.true_eq_false.mp, _, rfl,
        fun _ => hfrom, fun _ st hd => ?_⟩
      obtain ⟨script, hscript, hlog, hresult, hwrapper, hreport⟩ := hd.files
      obtain rfl := hwrapper s hs
      have hthere : w.results s.resultPath ≠ none := by
        apply hreport
        rw [hphase]
        rfl
      refine ⟨hd.unitName, hd.package, hd.scriptPath, s, hscript, hlog, hresult, hwrapper,
        fun _ => ?_⟩
      simpa using hthere
  | exit hphase => exact ⟨fun _ => rfl, _, rfl, fun _ => by rw [hphase]; rfl, nofun⟩
  | unload hphase => exact ⟨fun _ => rfl, _, rfl, nofun, nofun⟩

end Units

/-! ## Modes -/

/-- A call that has found no run and has not started one yet. -/
def Stage.starts : Stage → Bool
  | .starting .. | .preparing .. => true
  | _ => false

/-- A task that has found no run and is not starting one. -/
def Stage.waits : Stage → Bool
  | .asked _ | .pending _ | .finished => true
  | _ => false

/-- No call is starting a run. -/
def NoStart (v : Nat → Option Stage) : Prop := ∀ t x, v t = some x → x.starts = false

/-- Every task but `t` is yet to find a run. -/
def Alone (v : Nat → Option Stage) (t : Nat) : Prop :=
  ∀ u x, u ≠ t → v u = some x → x.waits = true

/-- A request that finds no run does so alone, with no unit in flight, and the state
file can be read and, by a call that starts a run, written. Nobody reads a result
while a unit is in flight or being started, or hears that a unit has ended while one
is being started. For a file that is never torn while a unit is in flight, nobody
rewrites it then either. -/
def SerialCall (strict : Prop) (w : AptWorld) (v : Nat → Option Stage) (t : Nat)
    (ch : AptChoice) : Stage → AptOp → Prop
  | .asked _, .readState =>
      ch.isGood = true ∧ (w.stateFile.parsed = none → w.Quiet ∧ Alone v t)
  | .preparing .., .openState | .preparing .., .writeState _ => ch.isGood = true
  | .watching _, .readResult path =>
      ch.isGood = true → w.results path ≠ none → w.Quiet ∧ NoStart v
  | .watching _, .unitStatus unit =>
      ch.isGood = true → (w.status unit).ended = true → NoStart v
  | .watching _, .openState | .watching _, .writeState _ => strict → w.Quiet ∧ NoStart v
  | _, _ => True

def Serial (strict : Prop) (s : AgentState) : AgentLabel → Prop
  | .act t ch => ∀ x o, agentStaged.stages s t = some x → s.next t = some o →
      SerialCall strict s.world (agentStaged.stages s) t ch x o
  | _ => True

/-- What the state file may hold while `st` is prepared. -/
structure Prepared (strict : Prop) (w : AptWorld) (written : Bool) (st : AptRunState) :
    Prop where
  before : written = false → w.stateFile.parsed = none
  after : written = true → w.StateHolds strict (SameRun st)

/-- No unit is in flight and no call is starting one; or one call is; or one unit is
in flight, and whoever has found a run has found that unit's. -/
inductive FlightInv (strict : Prop) (w : AptWorld) (v : Nat → Option Stage) : Prop
  | idle (hquiet : w.Quiet) (hnone : NoStart v)
  | starting {t : Nat} {p : Option Str} {now : Option Nat} (hquiet : w.Quiet)
      (ht : v t = some (.starting p now)) (hfile : w.stateFile.parsed = none) (halone : Alone v t)
  | preparing {t : Nat} {p : Option Str} {now pid : Nat} (scripted written : Bool)
      (hquiet : w.Quiet) (ht : v t = some (.preparing p now pid scripted written))
      (hscript : scripted = true → w.scripts (scriptPath (runId now pid)) =
        some (some ⟨logPath (runId now pid), resultPath (runId now pid)⟩))
      (hfile : Prepared strict w written (newState p now pid))
      (hothers : ∀ u x, u ≠ t → v u = some x → x.waits = true ∨
        written = true ∧ ∃ st, x = .watching st ∧ SameRun (newState p now pid) st)
  | flying {unit : Str} {u : SystemdUnit} (hu : w.Flying unit u)
      (hone : ∀ unit' u', w.Flying unit' u' → unit' = unit)
      (hfiles : ∃ st, w.Describes unit u st)
      (hfile : w.StateHolds strict (w.Describes unit u))
      (htasks : ∀ t x, v t = some x →
        x.waits = true ∨ ∃ st, x = .watching st ∧ w.Describes unit u st)

section Modes

variable {strict : Prop} {w : AptWorld} {v : Nat → Option Stage} {t : Nat} {x y : Stage}
  {ch : AptChoice} {o : AptOp} {st : AptRunState} {P : AptRunState → Prop}

theorem Stage.not_starts_of_waits (hx : x.waits = true) : x.starts = false := by
  cases x <;> first | rfl | cases hx

/-- A task that waits reads the state file, and the world stays as it is. -/
theorem waiting_call (hx : x.waits = true) (hmay : x.may o)
    (hok : SerialCall strict w v t ch x o) :
    (w.exec o ch).1 = w ∧
      ((x.next ⟨o, (w.exec o ch).2⟩).waits = true ∨
        (∃ st, w.stateFile.parsed = some st ∧ x.next ⟨o, (w.exec o ch).2⟩ = .watching st) ∨
        ∃ p, w.stateFile.parsed = none ∧ w.Quiet ∧ Alone v t ∧
          x.next ⟨o, (w.exec o ch).2⟩ = .starting p none) := by
  cases x with
  | asked p =>
      cases o with
      | readState =>
          obtain ⟨hgood, halone⟩ := hok
          have hresp : (w.exec .readState ch).2 = w.stateFile.parsed := by
            rw [AptWorld.exec, if_pos hgood]
          refine ⟨rfl, ?_⟩
          rw [hresp]
          cases hparsed : w.stateFile.parsed with
          | some st => exact .inr (.inl ⟨st, rfl, rfl⟩)
          | none =>
              obtain ⟨hquiet, hv⟩ := halone hparsed
              exact .inr (.inr ⟨p, rfl, hquiet, hv, rfl⟩)
      | _ => cases hmay
  | pending found =>
      cases o with
      | readState =>
          refine ⟨rfl, ?_⟩
          cases ch with
          | bad e touched => exact .inl (by cases found <;> rfl)
          | good =>
              have hresp : (w.exec .readState .good).2 = w.stateFile.parsed := rfl
              rw [hresp]
              cases w.stateFile.parsed with
              | none => exact .inl (by cases found <;> rfl)
              | some st =>
                  cases found with
                  | false => exact .inl rfl
                  | true => exact .inr (.inl ⟨st, rfl, rfl⟩)
      | _ => cases hmay
  | finished => cases hmay
  | _ => cases hx

/-- A watcher of the run that is in flight, or being started, only rewrites the state
file: it sees no result and no end. -/
theorem watching_call (hsame : ∀ st', SameRun st st' → P st')
    (hresult : st.resultPath ≠ none) (hbusy : ¬(w.Quiet ∧ NoStart v))
    (hstatus : ∀ unit, st.unitName = some unit → (w.status unit).ended = true → ¬NoStart v)
    (hfile : w.StateHolds strict P) (hmay : (Stage.watching st).may o)
    (hok : SerialCall strict w v t ch (.watching st) o) :
    (Stage.watching st).next ⟨o, (w.exec o ch).2⟩ = .watching st ∧
      (w.exec o ch).1.units = w.units ∧ (w.exec o ch).1.scripts = w.scripts ∧
      (w.exec o ch).1.results = w.results ∧ (w.exec o ch).1.StateHolds strict P := by
  cases o with
  | readLog path => exact ⟨rfl, rfl, rfl, rfl, hfile⟩
  | createStateDir => cases ch <;> exact ⟨rfl, rfl, rfl, rfl, hfile⟩
  | openState =>
      cases ch with
      | bad e touched => exact ⟨rfl, rfl, rfl, rfl, hfile⟩
      | good => exact ⟨rfl, rfl, rfl, rfl, fun hs => hbusy (hok hs)⟩
  | writeState st' =>
      cases ch with
      | bad e touched => exact ⟨rfl, rfl, rfl, rfl, fun hs => hbusy (hok hs)⟩
      | good => exact ⟨rfl, rfl, rfl, rfl, hsame st' hmay⟩
  | readResult path =>
      refine ⟨?_, rfl, rfl, rfl, hfile⟩
      cases ch with
      | bad e touched => rfl
      | good =>
          have hresp : (w.exec (.readResult path) .good).2 = w.results path := rfl
          rw [hresp]
          cases hresults : w.results path with
          | none => rfl
          | some text =>
              have hnone : w.results path ≠ none := by
                rw [hresults]
                exact Option.some_ne_none _
              exact absurd (hok rfl hnone) hbusy
  | unitStatus unit =>
      refine ⟨?_, rfl, rfl, rfl, hfile⟩
      cases ch with
      | bad e touched => rfl
      | good =>
          show (if (w.status unit).ended = true then Stage.ending else .watching st) = _
          rw [if_neg]
          intro hended
          exact hstatus unit hmay hended (hok rfl hended)
  | clearState => exact absurd hmay hresult
  | _ => cases hmay

/-- The unit in flight still is, and its files still describe the same run. -/
theorem FlightInv.flying_of {w' : AptWorld} {unit : Str} {u u' : SystemdUnit}
    (hu : w'.Flying unit u') (hone : ∀ unit' z, w'.Flying unit' z → unit' = unit)
    (hfile : w'.stateFile = w.stateFile)
    (hdesc : ∀ st, w.Describes unit u st → w'.Describes unit u' st)
    (hfiles : ∃ st, w.Describes unit u st) (hholds : w.StateHolds strict (w.Describes unit u))
    (htasks : ∀ t x, v t = some x →
      x.waits = true ∨ ∃ st, x = .watching st ∧ w.Describes unit u st) :
    FlightInv strict w' v := by
  refine .flying hu hone (hfiles.imp hdesc) (hholds.mono hfile hdesc) fun t x hx => ?_
  rcases htasks t x hx with hwaits | ⟨st, rfl, hd⟩
  · exact .inl hwaits
  · exact .inr ⟨st, rfl, hdesc st hd⟩

/-- As long as no unit is in flight, a mode is a matter of the scripts and the state file. -/
theorem FlightInv.frame {w' : AptWorld} (hJ : FlightInv strict w v)
    (hfile : w'.stateFile = w.stateFile) (hscripts : w'.scripts = w.scripts)
    (hquiet : w.Quiet → w'.Quiet)
    (hflying : ∀ unit u, w.Flying unit u → (∀ unit' u', w.Flying unit' u' → unit' = unit) →
      (∃ st, w.Describes unit u st) → w.StateHolds strict (w.Describes unit u) →
      (∀ t x, v t = some x → x.waits = true ∨ ∃ st, x = .watching st ∧ w.Describes unit u st) →
      FlightInv strict w' v) : FlightInv strict w' v := by
  cases hJ with
  | idle hq hnone => exact .idle (hquiet hq) hnone
  | starting hq ht hparsed halone => exact .starting (hquiet hq) ht (hfile ▸ hparsed) halone
  | preparing _ _ hq ht hscript hprepared hothers =>
      refine .preparing _ _ (hquiet hq) ht (hscripts ▸ hscript) ⟨?_, ?_⟩ hothers
      · rw [hfile]
        exact hprepared.before
      · exact fun hwritten => (hprepared.after hwritten).mono hfile fun _ => id
  | @flying unit u hu hone hfiles hholds htasks =>
      exact hflying unit u hu hone hfiles hholds htasks

/-- A mode is a matter of units, scripts, results and the state file. -/
theorem FlightInv.of_eq {w' : AptWorld} (hJ : FlightInv strict w v) (hunits : w'.units = w.units)
    (hfile : w'.stateFile = w.stateFile) (hscripts : w'.scripts = w.scripts)
    (hresults : w'.results = w.results) : FlightInv strict w' v := by
  have hfly : ∀ unit u, w'.Flying unit u ↔ w.Flying unit u := by
    intro unit u
    rw [AptWorld.Flying, AptWorld.Flying, hunits]
  have hquiet : w.Quiet → w'.Quiet := fun hq unit u h => hq unit u ((hfly unit u).mp h)
  refine hJ.frame hfile hscripts hquiet fun unit u hu hone hfiles hholds htasks => ?_
  have hone' : ∀ unit' z, w'.Flying unit' z → unit' = unit :=
    fun unit' z hz => hone unit' z ((hfly unit' z).mp hz)
  exact .flying_of ((hfly unit u).mpr hu) hone' hfile (fun st hd => hd.of_eq hscripts hresults)
    hfiles hholds htasks

/-- A task that is not starting a run ends, or goes on to wait. -/
theorem FlightInv.update_waits (hJ : FlightInv strict w v)
    (hfrom : ∀ x, v t = some x → x.starts = false) {z : Option Stage}
    (hz : ∀ x, z = some x → x.waits = true) : FlightInv strict w (Function.update v t z) := by
  cases hJ with
  | idle hq hnone =>
      refine .idle hq (forall_update (R := fun _ (x : Stage) => x.starts = false) ?_ ?_)
      · exact fun u x _ hx => hnone u x hx
      · exact fun x hx => Stage.not_starts_of_waits (hz x hx)
  | @starting t₀ p now hq ht hparsed halone =>
      have hother : v t ≠ some (.starting p now) := by
        intro heq
        cases hfrom _ heq
      refine .starting hq (update_kept ht hother) hparsed ?_
      intro u x hu hx
      exact forall_update (R := fun u (x : Stage) => u ≠ t₀ → x.waits = true)
        (fun u x _ hx hu => halone u x hu hx) (fun x hx _ => hz x hx) u x hx hu
  | @preparing t₀ p now pid scripted written hq ht hscript hprepared hothers =>
      have hother : v t ≠ some (.preparing p now pid scripted written) := by
        intro heq
        cases hfrom _ heq
      refine .preparing _ _ hq (update_kept ht hother) hscript hprepared ?_
      intro u x hu hx
      exact forall_update (R := fun u (x : Stage) => u ≠ t₀ → x.waits = true ∨
        written = true ∧ ∃ st, x = .watching st ∧ SameRun (newState p now pid) st)
        (fun u x _ hx hu => hothers u x hu hx) (fun x hx _ => .inl (hz x hx)) u x hx hu
  | flying hu hone hfiles hholds htasks =>
      refine .flying hu hone hfiles hholds (forall_update ?_ ?_)
      · exact fun u x _ hx => htasks u x hx
      · exact fun x hx => .inl (hz x hx)

/-- Any task may end. One that was starting a run leaves none behind. -/
theorem FlightInv.ended (hJ : FlightInv strict w v) (t : Nat) :
    FlightInv strict w (Function.update v t none) := by
  by_cases hfrom : ∀ x, v t = some x → x.starts = false
  · exact hJ.update_waits hfrom nofun
  · have hidle : w.Quiet → Alone v t ∨ (∀ u x, u ≠ t → v u = some x → x.starts = false) →
        FlightInv strict w (Function.update v t none) := by
      intro hq hv
      refine .idle hq (forall_update (R := fun _ (x : Stage) => x.starts = false) ?_ nofun)
      intro u x hu hx
      rcases hv with halone | hnone
      · exact Stage.not_starts_of_waits (halone u x hu hx)
      · exact hnone u x hu hx
    cases hJ with
    | idle hq hnone => exact absurd (hnone t) hfrom
    | @starting t₀ p now hq ht hparsed halone =>
        have heq : t = t₀ := by
          by_contra hne
          exact hfrom fun x hx => Stage.not_starts_of_waits (halone t x hne hx)
        exact hidle hq (.inl (heq ▸ halone))
    | @preparing t₀ p now pid scripted written hq ht hscript hprepared hothers =>
        have hnone : ∀ u x, u ≠ t₀ → v u = some x → x.starts = false := by
          intro u x hu hx
          rcases hothers u x hu hx with hwaits | ⟨_, st, rfl, _⟩
          · exact Stage.not_starts_of_waits hwaits
          · rfl
        have heq : t = t₀ := by
          by_contra hne
          exact hfrom fun x hx => hnone t x hne hx
        exact hidle hq (.inr (heq ▸ hnone))
    | flying hu hone hfiles hholds htasks =>
        refine absurd (fun x hx => ?_) hfrom
        rcases htasks t x hx with hwaits | ⟨st, rfl, _⟩
        · exact Stage.not_starts_of_waits hwaits
        · rfl

/-- Only `systemd-run` changes what units there are. -/
theorem exec_units {o : AptOp} (ho : ∀ unit script mode package,
    o ≠ .systemdRun unit script mode package) : (w.exec o ch).1.units = w.units := by
  cases o with
  | systemdRun unit script mode package => exact absurd rfl (ho unit script mode package)
  | writeScript path script =>
      cases ch with
      | good => rfl
      | bad e touched => cases touched <;> rfl
  | createStateDir => cases ch <;> rfl
  | chmodScript path => cases ch <;> rfl
  | openState => cases ch <;> rfl
  | clearState => cases ch <;> rfl
  | removeFile path => cases ch <;> rfl
  | _ => rfl

theorem AptWorld.Quiet.of_units {w' : AptWorld} (hq : w.Quiet) (h : w'.units = w.units) :
    w'.Quiet := by
  intro unit u hu
  rw [AptWorld.Flying, h] at hu
  exact hq unit u hu

/-- A task that waits finds the run there is, if it finds one. -/
theorem FlightInv.waiting_act (hJ : FlightInv strict w v) (ht : v t = some x)
    (hx : x.waits = true) (hmay : x.may o) (hok : SerialCall strict w v t ch x o) :
    FlightInv strict (w.exec o ch).1
      (Function.update v t (some (x.next ⟨o, (w.exec o ch).2⟩))) := by
  obtain ⟨hw, hnext⟩ := waiting_call hx hmay hok
  have hstarts : ∀ y, v t = some y → y.starts = false := by
    intro y hy
    rw [ht] at hy
    cases hy
    exact Stage.not_starts_of_waits hx
  rw [hw]
  rcases hnext with hwaits | ⟨st, hparsed, hst⟩ | ⟨p, hparsed, hquiet, halone, hp⟩
  · refine hJ.update_waits hstarts fun y hy => ?_
    cases hy
    exact hwaits
  · rw [hst]
    cases hJ with
    | idle hq hnone =>
        refine .idle hq (forall_update (R := fun _ (x : Stage) => x.starts = false) ?_ ?_)
        · exact fun u y _ hy => hnone u y hy
        · intro y hy
          cases hy
          rfl
    | starting hq ht₀ hnone halone =>
        rw [hnone] at hparsed
        cases hparsed
    | @preparing t₀ p now pid scripted written hq ht₀ hscript hprepared hothers =>
        have hother : v t ≠ some (.preparing p now pid scripted written) := by
          intro heq
          cases hstarts _ heq
        have hwritten : written = true := by
          cases written with
          | true => rfl
          | false =>
              rw [hprepared.before rfl] at hparsed
              cases hparsed
        have hsame := (hprepared.after hwritten).of_parsed hparsed
        refine .preparing _ _ hq (update_kept ht₀ hother) hscript hprepared ?_
        intro u y hu hy
        refine forall_update (R := fun u (x : Stage) => u ≠ t₀ → x.waits = true ∨
          written = true ∧ ∃ st, x = .watching st ∧ SameRun (newState p now pid) st)
          (fun u x _ hx hu => hothers u x hu hx) (fun x hx _ => ?_) u y hy hu
        cases hx
        exact .inr ⟨hwritten, st, rfl, hsame⟩
    | flying hu hone hfiles hholds htasks =>
        refine .flying hu hone hfiles hholds (forall_update ?_ ?_)
        · exact fun u y _ hy => htasks u y hy
        · intro y hy
          cases hy
          exact .inr ⟨st, rfl, hholds.of_parsed hparsed⟩
  · -- A request that finds no run is alone, so that nothing else is at work.
    rw [hp]
    refine .starting (t := t) hquiet (Function.update_self ..) hparsed ?_
    intro u y hu hy
    rw [Function.update_of_ne hu] at hy
    exact halone u y hu hy

/-- With no unit in flight and none being started, only a request can change that. -/
theorem FlightInv.idle_act (hquiet : w.Quiet) (hnone : NoStart v) (ht : v t = some x)
    (hx : x.waits = false) (hmay : x.may o) :
    FlightInv strict (w.exec o ch).1
      (Function.update v t (some (x.next ⟨o, (w.exec o ch).2⟩))) := by
  have hstarts := hnone t x ht
  have hunits : (w.exec o ch).1.units = w.units := by
    refine exec_units fun unit script mode package ho => ?_
    subst ho
    cases x <;> first | exact False.elim hmay | exact absurd hstarts nofun
  have hnext : (x.next ⟨o, (w.exec o ch).2⟩).starts = false := by
    cases x with
    | refused => cases o <;> rfl
    | ending => cases o <;> rfl
    | watching st =>
        cases o with
        | readResult path =>
            show (Stage.next (.watching st) ⟨.readResult path, _⟩).starts = false
            cases (w.exec (.readResult path) ch).2 <;> rfl
        | unitStatus unit =>
            cases (w.exec (.unitStatus unit) ch).2 with
            | none => rfl
            | some u =>
                show (if u.ended = true then Stage.ending else .watching st).starts = false
                split <;> rfl
        | _ => rfl
    | starting => cases hstarts
    | preparing => cases hstarts
    | _ => cases hx
  refine .idle (hquiet.of_units hunits)
    (forall_update (R := fun _ (x : Stage) => x.starts = false) (fun u y _ hy => hnone u y hy) ?_)
  intro y hy
  cases hy
  exact hnext

/-- What the next call of a starting task leads to. -/
theorem FlightInv.starting_act {p : Option Str} {now : Option Nat} (hquiet : w.Quiet)
    (hfile : w.stateFile.parsed = none) (halone : Alone v t)
    (hmay : (Stage.starting p now).may o) :
    FlightInv strict (w.exec o ch).1
      (Function.update v t (some ((Stage.starting p now).next ⟨o, (w.exec o ch).2⟩))) := by
  have hothers : ∀ (y : Stage) u x, u ≠ t → Function.update v t (some y) u = some x →
      x.waits = true := by
    intro y u x hu hx
    rw [Function.update_of_ne hu] at hx
    exact halone u x hu hx
  cases now with
  | none =>
      cases o with
      | nowUnix => exact .starting hquiet (Function.update_self ..) hfile (hothers _)
      | _ => cases hmay
  | some now =>
      cases o with
      | processId =>
          refine .preparing (t := t) false false hquiet
            (Function.update_self ..) nofun ⟨fun _ => hfile, nofun⟩ ?_
          exact fun u x hu hx => .inl (hothers _ u x hu hx)
      | _ => cases hmay

/-- `systemd-run` of the prepared run: the unit is in flight, with all that was
prepared, or nothing has changed. -/
theorem FlightInv.systemdRun_act {p : Option Str} {now pid : Nat} {mode : Str}
    (hquiet : w.Quiet)
    (hscript : w.scripts (scriptPath (runId now pid)) =
      some (some ⟨logPath (runId now pid), resultPath (runId now pid)⟩))
    (hfile : w.StateHolds strict (SameRun (newState p now pid)))
    (hothers : ∀ u x, u ≠ t → v u = some x → x.waits = true ∨
      ∃ st, x = .watching st ∧ SameRun (newState p now pid) st)
    (ho : o = .systemdRun (unitName (runId now pid)) (scriptPath (runId now pid)) mode p) :
    FlightInv strict (w.exec o ch).1
      (Function.update v t
        (some ((Stage.preparing p now pid true true).next ⟨o, (w.exec o ch).2⟩))) := by
  subst ho
  have hleft : ∀ x : Stage, x.starts = false →
      FlightInv strict w (Function.update v t (some x)) := by
    intro x hx
    refine .idle hquiet (forall_update (R := fun _ (x : Stage) => x.starts = false) ?_ ?_)
    · intro u y hu hy
      rcases hothers u y hu hy with hwaits | ⟨st, rfl, _⟩
      · exact Stage.not_starts_of_waits hwaits
      · rfl
    · intro y hy
      cases hy
      exact hx
  cases ch with
  | bad e touched =>
      cases touched with
      | true => exact hleft .refused rfl
      | false => exact hleft .finished rfl
  | good =>
      show FlightInv strict (w.execSystemdRun (unitName (runId now pid))
        (scriptPath (runId now pid)) mode p .good).1 (Function.update v t (some
          ((Stage.preparing p now pid true true).next ⟨.systemdRun (unitName (runId now pid))
            (scriptPath (runId now pid)) mode p, (w.execSystemdRun (unitName (runId now pid))
              (scriptPath (runId now pid)) mode p .good).2⟩)))
      unfold AptWorld.execSystemdRun
      dsimp only
      split
      · exact hleft .refused rfl
      · generalize hw' : w.setUnit (unitName (runId now pid))
          ⟨scriptPath (runId now pid), mode, p, none, .queued⟩ = w'
        have hunits : w'.units = Function.update w.units (unitName (runId now pid))
            (some ⟨scriptPath (runId now pid), mode, p, none, .queued⟩) := by
          rw [← hw']
          rfl
        have hdesc : ∀ st, SameRun (newState p now pid) st →
            w'.Describes (unitName (runId now pid))
              ⟨scriptPath (runId now pid), mode, p, none, .queued⟩ st := by
          intro st hs
          refine ⟨hs.unitName, hs.package, hs.scriptPath,
            ⟨logPath (runId now pid), resultPath (runId now pid)⟩, ?_, hs.logPath,
            hs.resultPath, nofun, nofun⟩
          rw [← hw']
          exact hscript
        have hown : (Stage.preparing p now pid true true).next
            ⟨.systemdRun (unitName (runId now pid)) (scriptPath (runId now pid)) mode p,
              .ok ⟨some 0, [], []⟩⟩ = .watching (newState p now pid) := rfl
        rw [hown]
        refine .flying ⟨by rw [hunits, Function.update_self], rfl⟩ ?_
          ⟨_, hdesc _ (.refl _)⟩ (hfile.mono (by rw [← hw']; rfl) hdesc) (forall_update ?_ ?_)
        · intro unit' u' hu'
          rcases AptWorld.flying_setUnit hunits hu' with ⟨rfl, _, _⟩ | ⟨_, hu'⟩
          · rfl
          · exact absurd hu' (hquiet unit' u')
        · intro u y hu hy
          rcases hothers u y hu hy with hwaits | ⟨st, rfl, hs⟩
          · exact .inl hwaits
          · exact .inr ⟨st, rfl, hdesc st hs⟩
        · intro y hy
          cases hy
          exact .inr ⟨_, rfl, hdesc _ (.refl _)⟩

theorem AptWorld.scripts_written (w : AptWorld) (path : Str) (script : Script) :
    (w.exec (.writeScript path script) .good).1.scripts path = some (some script) :=
  Function.update_self ..

/-- The call that prepares a run writes its script, then its state, then starts it. -/
theorem FlightInv.preparing_act {p : Option Str} {now pid : Nat} {scripted written : Bool}
    (hquiet : w.Quiet) (ht : v t = some (.preparing p now pid scripted written))
    (hscript : scripted = true → w.scripts (scriptPath (runId now pid)) =
      some (some ⟨logPath (runId now pid), resultPath (runId now pid)⟩))
    (hfile : Prepared strict w written (newState p now pid))
    (hothers : ∀ u x, u ≠ t → v u = some x → x.waits = true ∨
      written = true ∧ ∃ st, x = .watching st ∧ SameRun (newState p now pid) st)
    (hmay : (Stage.preparing p now pid scripted written).may o)
    (hok : SerialCall strict w v t ch (.preparing p now pid scripted written) o) :
    FlightInv strict (w.exec o ch).1 (Function.update v t
      (some ((Stage.preparing p now pid scripted written).next ⟨o, (w.exec o ch).2⟩))) := by
  have hstay : FlightInv strict w
      (Function.update v t (some (.preparing p now pid scripted written))) := by
    rw [← ht, Function.update_eq_self]
    exact .preparing _ _ hquiet ht hscript hfile hothers
  have hrest : ∀ (y : Stage) (written' : Bool), (written = true → written' = true) →
      ∀ u x, u ≠ t → Function.update v t (some y) u = some x → x.waits = true ∨
        written' = true ∧ ∃ st, x = .watching st ∧ SameRun (newState p now pid) st := by
    intro y written' hwritten u x hu hx
    rw [Function.update_of_ne hu] at hx
    exact (hothers u x hu hx).imp_right fun h => ⟨hwritten h.1, h.2⟩
  cases o with
  | createStateDir =>
      cases ch with
      | good => exact hstay
      | bad e touched => exact hstay
  | chmodScript path =>
      cases ch with
      | good => exact hstay
      | bad e touched => exact hstay
  | openState =>
      obtain rfl : written = false := hmay
      cases ch with
      | bad e touched => cases hok
      | good =>
          exact .preparing (t := t) scripted false hquiet
            (Function.update_self ..) hscript ⟨fun _ => rfl, nofun⟩ (hrest _ false nofun)
  | writeState st =>
      obtain rfl : st = newState p now pid := hmay
      cases ch with
      | bad e touched => cases hok
      | good =>
          refine .preparing (t := t) scripted true hquiet
            (Function.update_self ..) hscript ⟨nofun, fun _ => ?_⟩ (hrest _ true fun _ => rfl)
          exact .refl (newState p now pid)
  | writeScript path script =>
      obtain ⟨rfl, rfl, rfl⟩ := hmay
      cases ch with
      | good =>
          refine .preparing (t := t) true written hquiet (Function.update_self ..)
            (fun _ => AptWorld.scripts_written ..) ⟨hfile.before, hfile.after⟩ (hrest _ written id)
      | bad e touched =>
          cases touched with
          | false => exact hstay
          | true =>
              refine .preparing (t := t) false written hquiet
                (Function.update_self ..) nofun ⟨hfile.before, hfile.after⟩ (hrest _ written id)
  | systemdRun unit script mode package =>
      obtain ⟨rfl, rfl, rfl, rfl, rfl⟩ := hmay
      refine .systemdRun_act hquiet (hscript rfl) (hfile.after rfl) ?_ rfl
      intro u x hu hx
      exact (hothers u x hu hx).imp_right fun h => h.2
  | _ => cases hmay

theorem status_flying {unit : Str} {u : SystemdUnit} (hu : w.Flying unit u) :
    (w.status unit).ended = false := by
  obtain ⟨hunit, hflight⟩ := hu
  rw [AptWorld.status, hunit]
  dsimp only
  cases hphase : u.phase with
  | exited rc =>
      rw [hphase] at hflight
      cases hflight
  | unloaded rc =>
      rw [hphase] at hflight
      cases hflight
  | _ => rfl

/-- A watcher of what is in flight or being started leaves all but the file as it is. -/
theorem FlightInv.watching_act (hJ : FlightInv strict w v) (ht : v t = some (.watching st))
    (hbusy : ¬(w.Quiet ∧ NoStart v)) (hmay : (Stage.watching st).may o)
    (hok : SerialCall strict w v t ch (.watching st) o) :
    FlightInv strict (w.exec o ch).1
      (Function.update v t (some ((Stage.watching st).next ⟨o, (w.exec o ch).2⟩))) := by
  cases hJ with
  | idle hq hnone => exact absurd ⟨hq, hnone⟩ hbusy
  | @starting t₀ p now hq ht₀ hfile halone =>
      have hne : t ≠ t₀ := by
        rintro rfl
        rw [ht₀] at ht
        cases ht
      cases halone t _ hne ht
  | @preparing t₀ p now pid scripted written hq ht₀ hscript hfile hothers =>
      have hne : t ≠ t₀ := by
        rintro rfl
        rw [ht₀] at ht
        cases ht
      have hstart : ¬NoStart v := fun hnone => by cases hnone t₀ _ ht₀
      rcases hothers t _ hne ht with hwaits | ⟨rfl, st', hst', hs⟩
      · cases hwaits
      · cases hst'
        have hresult : st.resultPath ≠ none := by
          rw [hs.resultPath]
          exact Option.some_ne_none _
        obtain ⟨hnext, hunits, hscripts, hresults, hholds⟩ :=
          watching_call (fun _ h => hs.trans h) hresult hbusy (fun _ _ _ => hstart)
            (hfile.after rfl) hmay hok
        rw [hnext, ← ht, Function.update_eq_self]
        refine .preparing _ _ (hq.of_units hunits) ht₀ ?_ ⟨nofun, fun _ => hholds⟩ hothers
        rw [hscripts]
        exact hscript
  | @flying unit u hu hone hfiles hfile htasks =>
      rcases htasks t _ ht with hwaits | ⟨st', hst', hd⟩
      · cases hwaits
      · cases hst'
        have hresult : st.resultPath ≠ none := by
          obtain ⟨script, _, _, hresult, _⟩ := hd.files
          rw [hresult]
          exact Option.some_ne_none _
        have hstatus : ∀ unit', st.unitName = some unit' → (w.status unit').ended = true →
            ¬NoStart v := by
          intro unit' hunit' hended
          rw [hd.unitName] at hunit'
          cases hunit'
          rw [status_flying hu] at hended
          cases hended
        obtain ⟨hnext, hunits, hscripts, hresults, hholds⟩ :=
          watching_call (fun _ h => hd.same h) hresult hbusy hstatus hfile hmay hok
        rw [hnext, ← ht, Function.update_eq_self]
        have hmove : ∀ st, w.Describes unit u st → (w.exec o ch).1.Describes unit u st :=
          fun st hst => hst.of_eq hscripts hresults
        refine .flying ⟨hunits ▸ hu.1, hu.2⟩ ?_ (hfiles.imp hmove) (hholds.mono rfl hmove) ?_
        · intro unit' u' hu'
          rw [AptWorld.Flying, hunits] at hu'
          exact hone unit' u' hu'
        · intro t' x hx
          rcases htasks t' x hx with hwaits | ⟨st', rfl, hst'⟩
          · exact .inl hwaits
          · exact .inr ⟨st', rfl, hmove st' hst'⟩

/-- Who may be at work, other than waiting, while a unit is in flight or being
started. -/
theorem FlightInv.busy_cases (hJ : FlightInv strict w v) (hbusy : ¬(w.Quiet ∧ NoStart v))
    (ht : v t = some x) (hx : x.waits = false) :
    (∃ p now, x = .starting p now ∧ w.Quiet ∧ w.stateFile.parsed = none ∧ Alone v t) ∨
    (∃ p now pid scripted written, x = .preparing p now pid scripted written ∧ w.Quiet ∧
      (scripted = true → w.scripts (scriptPath (runId now pid)) =
        some (some ⟨logPath (runId now pid), resultPath (runId now pid)⟩)) ∧
      Prepared strict w written (newState p now pid) ∧
      ∀ u x, u ≠ t → v u = some x → x.waits = true ∨
        written = true ∧ ∃ st, x = .watching st ∧ SameRun (newState p now pid) st) ∨
    ∃ st, x = .watching st := by
  cases hJ with
  | idle hq hnone => exact absurd ⟨hq, hnone⟩ hbusy
  | @starting t₀ p now hq ht₀ hfile halone =>
      by_cases heq : t = t₀
      · subst heq
        rw [ht] at ht₀
        cases ht₀
        exact .inl ⟨p, now, rfl, hq, hfile, halone⟩
      · rw [halone t x heq ht] at hx
        cases hx
  | @preparing t₀ p now pid scripted written hq ht₀ hscript hfile hothers =>
      by_cases heq : t = t₀
      · subst heq
        rw [ht] at ht₀
        cases ht₀
        exact .inr (.inl ⟨p, now, pid, scripted, written, rfl, hq, hscript, hfile, hothers⟩)
      · rcases hothers t x heq ht with hwaits | ⟨_, st, rfl, _⟩
        · rw [hwaits] at hx
          cases hx
        · exact .inr (.inr ⟨st, rfl⟩)
  | flying hu hone hfiles hfile htasks =>
      rcases htasks t x ht with hwaits | ⟨st, rfl, _⟩
      · rw [hwaits] at hx
        cases hx
      · exact .inr (.inr ⟨st, rfl⟩)

theorem FlightInv.act (hJ : FlightInv strict w v) (ht : v t = some x) (hmay : x.may o)
    (hok : SerialCall strict w v t ch x o) :
    FlightInv strict (w.exec o ch).1
      (Function.update v t (some (x.next ⟨o, (w.exec o ch).2⟩))) := by
  cases hwaits : x.waits with
  | true => exact hJ.waiting_act ht hwaits hmay hok
  | false =>
      by_cases hidle : w.Quiet ∧ NoStart v
      · exact .idle_act hidle.1 hidle.2 ht hwaits hmay
      · rcases hJ.busy_cases hidle ht hwaits with ⟨p, now, rfl, hq, hfile, halone⟩ |
          ⟨p, now, pid, scripted, written, rfl, hq, hscript, hfile, hothers⟩ | ⟨st, rfl⟩
        · exact .starting_act hq hfile halone hmay
        · exact FlightInv.preparing_act hq ht hscript hfile hothers hmay hok
        · exact hJ.watching_act ht hidle hmay hok

/-- A step of a unit starts none. -/
theorem FlightInv.unit {unit : Str} {u : SystemdUnit} {step : UnitStep} {w' : AptWorld}
    (hJ : FlightInv strict w v) (hu : w.units unit = some u)
    (hs : w.unitStep unit u step = some w') : FlightInv strict w' v := by
  obtain ⟨hfile, hscripts, hresults, u', hunits, hfrom, hmove⟩ := unitStep_flight hu hs
  have hquiet : w.Quiet → w'.Quiet := by
    intro hq name z hz
    rcases AptWorld.flying_setUnit hunits hz with ⟨rfl, rfl, hflight⟩ | ⟨_, hz⟩
    · exact hq name u ⟨hu, hfrom hflight⟩
    · exact hq name z hz
  refine hJ.frame hfile hscripts hquiet fun name z hz hone hfiles hholds htasks => ?_
  by_cases hname : unit = name
  · subst hname
    obtain rfl : u = z := Option.some.inj (hu.symm.trans hz.1)
    by_cases hflight : u'.phase.inFlight = true
    · have hstill : w'.Flying unit u' := ⟨by rw [hunits, Function.update_self], hflight⟩
      refine .flying_of hstill (fun name' z' hz' => ?_) hfile (hmove hflight) hfiles hholds htasks
      rcases AptWorld.flying_setUnit hunits hz' with ⟨rfl, _, _⟩ | ⟨_, hz'⟩
      · rfl
      · exact hone name' z' hz'
    · -- It has exited: nothing is in flight any more.
      refine .idle (fun name' z' hz' => ?_) fun t x hx => ?_
      · rcases AptWorld.flying_setUnit hunits hz' with ⟨_, _, h⟩ | ⟨hne, hz'⟩
        · exact hflight h
        · exact hne (hone name' z' hz')
      · rcases htasks t x hx with hwaits | ⟨st, rfl, _⟩
        · exact Stage.not_starts_of_waits hwaits
        · rfl
  · have hnot : u.phase.inFlight = false := by
      cases hflight : u.phase.inFlight with
      | false => rfl
      | true => exact absurd (hone unit u ⟨hu, hflight⟩) hname
    have hsame : ∀ st, w.Describes name z st → w'.Describes name z st :=
      fun st hd => hd.of_eq hscripts (hresults hnot)
    have hstill : w'.Flying name z := by
      rw [AptWorld.Flying, hunits, Function.update_of_ne (Ne.symm hname)]
      exact hz
    refine .flying_of hstill (fun name' z' hz' => ?_) hfile hsame hfiles hholds htasks
    rcases AptWorld.flying_setUnit hunits hz' with ⟨_, _, h⟩ | ⟨_, hz'⟩
    · rw [hfrom h] at hnot
      cases hnot
    · exact hone name' z' hz'

theorem FlightInv.start (hw : w.OneRun True) : FlightInv strict w fun _ => none := by
  by_cases hquiet : w.Quiet
  · exact .idle hquiet nofun
  · simp only [AptWorld.Quiet, not_forall, not_not] at hquiet
    obtain ⟨unit, u, hu⟩ := hquiet
    refine .flying hu (fun unit' u' hu' => hw.one _ _ _ _ hu' hu) (hw.files unit u hu) ?_ nofun
    have hstate := hw.state unit u hu
    unfold AptWorld.StateHolds at hstate ⊢
    split at hstate
    · exact hstate
    · exact absurd trivial hstate
    · exact hstate

theorem FlightInv.oneRun (hJ : FlightInv strict w v) : w.OneRun strict := by
  have hnone : w.Quiet → w.OneRun strict := by
    intro hq
    refine ⟨?_, ?_, ?_⟩
    · exact fun unit u _ _ hu _ => absurd hu (hq unit u)
    · exact fun unit u hu => absurd hu (hq unit u)
    · exact fun unit u hu => absurd hu (hq unit u)
  cases hJ with
  | idle hq _ => exact hnone hq
  | starting hq _ _ _ => exact hnone hq
  | preparing _ _ hq _ _ _ _ => exact hnone hq
  | @flying unit u hu hone hfiles hfile htasks =>
      have hsame : ∀ name z, w.Flying name z → name = unit ∧ z = u := by
        intro name z hz
        obtain rfl := hone name z hz
        exact ⟨rfl, Option.some.inj (hz.1.symm.trans hu.1)⟩
      refine ⟨?_, ?_, ?_⟩
      · intro name z name' z' hz hz'
        rw [hone name z hz, hone name' z' hz']
      · intro name z hz
        obtain ⟨rfl, rfl⟩ := hsame name z hz
        exact hfiles
      · intro name z hz
        obtain ⟨rfl, rfl⟩ := hsame name z hz
        exact hfile

end Modes

theorem agentStaged_sound (strict : Prop) :
    agentStaged.Sound (aptHost (·.OneRun True)) (Serial strict) (FlightInv strict) where
  init w hw := .start hw
  spawn s t c w' hJ ht _ hw := by
    cases hw
    refine hJ.update_waits (fun x hx => ?_) fun x hx => ?_
    · rw [ht] at hx
      cases hx
    · cases hx
      cases c <;> rfl
  act s t ch o x w' r hJ ht hnext hmay hok hx := by
    have hexec : s.world.exec o ch = (w', r) := Option.some.inj hx
    obtain rfl : (s.world.exec o ch).1 = w' := by rw [hexec]
    obtain rfl : (s.world.exec o ch).2 = r := by rw [hexec]
    exact ⟨trivial, hJ.act ht hmay (hok x o ht hnext)⟩
  ended w v t x hJ _ _ := hJ.ended t
  kill s t x hJ _ _ := hJ.ended t
  env s e w' hJ _ hw := by
    cases e with
    | setClock now =>
        cases hw
        exact hJ.of_eq rfl rfl rfl rfl
    | setPid pid =>
        cases hw
        exact hJ.of_eq rfl rfl rfl rfl
    | unit unit step =>
        obtain ⟨u, hu, hs⟩ := Option.bind_eq_some_iff.mp hw
        exact hJ.unit hu hs

/-- In a run in which calls start runs one at a time there is one at most, and its
state file and its files are kept; the state file is whole in each of its states if
nobody rewrites it meanwhile, and otherwise whenever it is not just being
rewritten. -/
theorem one_run_in_flight {strict : Prop} {s : AgentState}
    (hr : flightPool.Reach (Serial strict) s) : s.world.OneRun strict :=
  (Staged.invariant agentStaged_holds (agentStaged_sound strict) hr).1.oneRun

theorem idleAgent_quiet : idleAgent.world.Quiet := by
  intro unit u hu
  cases hu.1

theorem idleAgent_flight : flightPool.init idleAgent := by
  refine ⟨⟨?_, ?_, ?_⟩, fun _ => rfl⟩
  · exact fun unit u _ _ hu _ => absurd hu (idleAgent_quiet unit u)
  · exact fun unit u hu => absurd hu (idleAgent_quiet unit u)
  · exact fun unit u hu => absurd hu (idleAgent_quiet unit u)

/-- A step that `Serial` asks nothing of that is about all units or all tasks. -/
def Plain (s : AgentState) : AgentLabel → Bool
  | .act t ch =>
      match agentStaged.stages s t, s.next t with
      | some (.asked _), _ => ch.isGood && s.world.stateFile.parsed.isSome
      | some (.preparing ..), _ => ch.isGood
      | some (.watching _), some (.readResult path) => (s.world.results path).isNone
      | some (.watching _), some (.unitStatus unit) => !(s.world.status unit).ended
      | some (.watching _), some .openState | some (.watching _), some (.writeState _) => false
      | _, _ => true
  | _ => true

theorem Plain.serial {strict : Prop} {s : AgentState} {i : AgentLabel} (h : Plain s i = true) :
    Serial strict s i := by
  cases i with
  | act t ch =>
      intro x o hx ho
      rw [Plain, hx, ho] at h
      cases x with
      | asked p =>
          obtain ⟨hgood, hsome⟩ := Bool.and_eq_true_iff.mp h
          cases o with
          | readState => exact ⟨hgood, fun hnone => absurd hsome (by rw [hnone]; decide)⟩
          | _ => trivial
      | preparing p now pid scripted written =>
          cases o with
          | openState => exact h
          | writeState st => exact h
          | _ => trivial
      | watching st =>
          cases o with
          | openState => cases h
          | writeState st' => cases h
          | readResult path => exact fun _ hne => absurd (Option.isNone_iff_eq_none.mp h) hne
          | unitStatus unit =>
              have hgoes : (!(s.world.status unit).ended) = true := h
              intro _ hended
              rw [hended] at hgoes
              cases hgoes
          | _ => trivial
      | _ => trivial
  | _ => trivial

/-- A request has come in. -/
def curlAsked : AgentState :=
  idleAgent.set idleAgent.world 0
    ⟨⟨.request (some "curl".toList), [], true⟩, agentCode.start (.request (some "curl".toList))⟩

theorem curlAsked_serial {strict : Prop} : Serial strict curlAsked (.act 0 .good) := by
  intro x o hx ho
  have hx' : agentStaged.stages curlAsked 0 = some (.asked (some "curl".toList)) := rfl
  obtain rfl := Option.some.inj (hx'.symm.trans hx)
  have ho' : curlAsked.next 0 = some .readState := rfl
  obtain rfl := Option.some.inj (ho'.symm.trans ho)
  refine ⟨rfl, fun _ => ⟨idleAgent_quiet, fun u x hu hx => ?_⟩⟩
  rw [curlAsked, Staged.stages_set, Function.update_of_ne hu] at hx
  cases hx

/-- A request that starts a unit, and another that joins the run. -/
theorem one_run_in_flight_curl : ∃ (s : AgentState) (u : SystemdUnit) (st : AptRunState),
    s.world.OneRun True ∧ s.world.Flying (unitName curlRun) u ∧ u.phase = .running ∧
      agentStaged.stages s 1 = some (.watching st) ∧
        s.world.StateHolds True (s.world.Describes (unitName curlRun) u) := by
  have hrun : ((flightPool.step curlAsked (.act 0 .good)).bind fun s =>
      (flightPool.runWithin (fun s i => Plain s i = true) s (agentActs 0 9 ++
        [Pool.Label.spawn 1 (.request (some "vim".toList))] ++ agentActs 1 4 ++
        [Pool.Label.again 1, .env (.unit (unitName curlRun) .start)] ++
        agentActs 0 1)).bind fun s =>
          (s.world.units (unitName curlRun)).bind fun u =>
            ((agentStaged.stages s 1).bind Stage.watched).map fun _ => u.phase) =
      some .running := by
    decide
  obtain ⟨s₁, hs₁, hrun⟩ := Option.bind_eq_some_iff.mp hrun
  obtain ⟨s₂, hs₂, hrun⟩ := Option.bind_eq_some_iff.mp hrun
  obtain ⟨u, hu, hphase⟩ := Option.bind_eq_some_iff.mp hrun
  obtain ⟨st, hst, hphase⟩ := Option.map_eq_some_iff.mp hphase
  obtain ⟨x, hstage, hx⟩ := Option.bind_eq_some_iff.mp hst
  obtain rfl := Stage.watched_eq_some.mp hx
  have hspawn : flightPool.step idleAgent (.spawn 0 (.request (some "curl".toList))) =
      some curlAsked := rfl
  have hok : Serial True idleAgent (.spawn 0 (.request (some "curl".toList))) := trivial
  have hr : flightPool.Reach (Serial True) curlAsked :=
    .step (.init idleAgent_flight) hok hspawn
  have hone := one_run_in_flight
    ((hr.step curlAsked_serial hs₁).runWithin_mono (fun _ _ => Plain.serial) hs₂)
  have hfly : s₂.world.Flying (unitName curlRun) u := ⟨hu, by rw [hphase]; rfl⟩
  exact ⟨s₂, u, st, hone, hfly, hphase, hstage, hone.state _ _ hfly⟩

/-- Two requests that both find no state: in different seconds each starts a unit of
its own, and in one second the second call's clean-up takes the first one's state and
script away. -/
theorem upgrades_collide :
    (∃ s unit u unit' u', flightPool.Reachable s ∧ s.world.Flying unit u ∧
      s.world.Flying unit' u' ∧ unit ≠ unit') ∧
    ∃ s unit u, flightPool.Reachable s ∧ s.world.Flying unit u ∧
      s.world.stateFile.parsed = none ∧ s.world.scripts u.script = none := by
  constructor
  · have hrun : ((flightPool.run idleAgent
        ([Pool.Label.spawn 0 (.request (some "curl".toList)),
            .spawn 1 (.request (some "vim".toList))] ++
          agentActs 0 1 ++ agentActs 1 1 ++ agentActs 0 9 ++ [Pool.Label.env (.setClock 8)] ++
          agentActs 1 9)).bind fun s =>
        (s.world.units (unitName (runId 7 1))).bind fun u =>
        (s.world.units (unitName (runId 8 1))).map fun u' => (u.phase, u'.phase)) =
        some (.queued, .queued) := by
      decide
    obtain ⟨s, hs, hrun⟩ := Option.bind_eq_some_iff.mp hrun
    obtain ⟨u, hu, hrun⟩ := Option.bind_eq_some_iff.mp hrun
    obtain ⟨u', hu', hphases⟩ := Option.map_eq_some_iff.mp hrun
    obtain ⟨hphase, hphase'⟩ := Prod.mk.inj hphases
    refine ⟨s, _, u, _, u', Machine.Reach.run (.init idleAgent_flight) hs,
      ⟨hu, by rw [hphase]; rfl⟩, ⟨hu', by rw [hphase']; rfl⟩, ?_⟩
    decide
  · have hrun : ((flightPool.run idleAgent
        ([Pool.Label.spawn 0 (.request (some "curl".toList)),
            .spawn 1 (.request (some "vim".toList))] ++
          agentActs 0 1 ++ agentActs 1 1 ++ agentActs 0 9 ++ agentActs 1 13)).bind fun s =>
        (s.world.units (unitName (runId 7 1))).map fun u =>
          (u.phase, s.world.stateFile.parsed.isNone, (s.world.scripts u.script).isNone)) =
        some (.queued, true, true) := by
      decide
    obtain ⟨s, hs, hrun⟩ := Option.bind_eq_some_iff.mp hrun
    obtain ⟨u, hu, hleft⟩ := Option.map_eq_some_iff.mp hrun
    obtain ⟨hphase, hleft⟩ := Prod.mk.inj hleft
    obtain ⟨hstate, hscript⟩ := Prod.mk.inj hleft
    exact ⟨s, _, u, Machine.Reach.run (.init idleAgent_flight) hs, ⟨hu, by rw [hphase]; rfl⟩,
      Option.isNone_iff_eq_none.mp hstate, Option.isNone_iff_eq_none.mp hscript⟩

end ShellfleetAgent.Agent.Apt
