import ShellfleetAgent.Agent.ProbeRuns
import ShellfleetAgent.Lib.Obeyed

/-!
# What probes run and what they report

The history of a probe's task is a delay and then rounds: the calls of a run of the probe,
the reading of the clock, a report if the state has changed, a delay. Two things are read
off it. A report says `green` exactly if the run before it has seen what it takes, however
the body came in pieces. And what an `exec` probe starts is the one script that its target
names, with the variables that its specification gives and no others.
-/

namespace ShellfleetAgent.Agent.ProbeRuns

open ShellfleetAgent.Lib
open Reporters (Sample carriedState healthProbeReport)
open Streams (HealthProbeKind HealthProbeSpec)

abbrev ProbeHistory := History ProbeCall ProbeCall.Answer

abbrev ProbeTrace := Trace ProbeCall ProbeCall.Answer HealthProbeSpec

variable {spec : HealthProbeSpec} {h h' run : ProbeHistory} {last : Option HealthProbeState}

/-! ## Rounds -/

/-- The calls of a run, as opposed to those between runs. -/
def observes : ProbeCall → Bool
  | .get .. | .nextChunk | .connect .. | .isFile _ | .spawn _ | .waitWithOutput _ => true
  | .sleep _ | .elapsed | .nowUnix | .send _ => false

def Observed (run : ProbeHistory) : Prop := ∀ e ∈ run, observes e.op = true

/-- Chunks that came one after another. -/
def received (chunks : List Bytes) : ProbeHistory :=
  chunks.map fun chunk => ⟨.nextChunk, some (.ok chunk)⟩

/-- The run has seen its target well: the status that is expected and, if one is, the body,
in any number of pieces; a connection; a script that exits with 0 in time. -/
def Healthy (spec : HealthProbeSpec) (run : ProbeHistory) : Prop :=
  match spec.kind with
  | .http => ∃ status, statusOk spec status = true ∧
      match spec.expectBody with
      | none => run = [⟨.get spec.target (timeout spec), .ok status⟩]
      | some wantBody => ∃ chunks : List Bytes, chunks.flatten.length ≤ httpBodyCap ∧
          Text.contains (Text.fromUtf8Lossy chunks.flatten) wantBody = true ∧
          run = ⟨.get spec.target (timeout spec), .ok status⟩ ::
            (received chunks ++ [⟨.nextChunk, none⟩])
  | .tcp => run = [⟨.connect spec.target (timeout spec), .done ()⟩]
  | .exec => ∃ process out, Output.success out = true ∧
      run = [⟨.isFile process.program, true⟩, ⟨.spawn process, .ok ()⟩,
        ⟨.waitWithOutput (timeout spec), .done out⟩]

/-- A history that ends with a whole round, and what has been reported last by then. -/
inductive Rounds (spec : HealthProbeSpec) : ProbeHistory → Option HealthProbeState → Prop
  | start : Rounds spec [⟨.sleep (jitter spec.id), ()⟩] none
  | same {h run : ProbeHistory} {state : HealthProbeState} (elapsedMs : Nat)
      (hrounds : Rounds spec h (some state)) (hrun : Observed run)
      (hstate : state = .green ↔ Healthy spec run) :
      Rounds spec (h ++ run ++ [⟨.elapsed, elapsedMs⟩, ⟨.sleep (interval spec), ()⟩])
        (some state)
  | changed {h run : ProbeHistory} {last : Option HealthProbeState} (sample : Sample)
      (sent : Except OutgoingSendError Unit) (hrounds : Rounds spec h last)
      (hlast : last ≠ some sample.state) (hrun : Observed run)
      (hstate : sample.state = .green ↔ Healthy spec run) :
      Rounds spec (h ++ run ++ [⟨.elapsed, sample.elapsedMs⟩, ⟨.nowUnix, sample.now⟩,
        ⟨.send (healthProbeReport spec sample), sent⟩, ⟨.sleep (interval spec), ()⟩])
        (some sample.state)

/-! ## The contract -/

def scriptProcess (spec : HealthProbeSpec) : ProbeProcess :=
  ⟨Path.join probesDir (OsStr.ofChars (Text.trim spec.target)), probeEnv spec.env⟩

/-- The one process that a probe may start, right after its program was found to be a
file. -/
def MaySpawn (spec : HealthProbeSpec) (h : ProbeHistory) (process : ProbeProcess) : Prop :=
  spec.kind = .exec ∧ invalidTarget (Text.trim spec.target) = false ∧
    process = scriptProcess spec ∧ ∃ before, h = before ++ [⟨.isFile process.program, true⟩]

/-- A report of a change, right after the run that showed it. -/
def MaySend (spec : HealthProbeSpec) (h : ProbeHistory) (message : Message) : Prop :=
  ∃ before last run sample, Rounds spec before last ∧ last ≠ some sample.state ∧
    Observed run ∧ (sample.state = .green ↔ Healthy spec run) ∧
    h = before ++ run ++ [⟨.elapsed, sample.elapsedMs⟩, ⟨.nowUnix, sample.now⟩] ∧
    message = healthProbeReport spec sample

def probeContract (spec : HealthProbeSpec) : Contract ProbeCall ProbeCall.Answer where
  may h
    | .sleep millis => ∃ last, Rounds spec (h ++ [⟨.sleep millis, ()⟩]) last
    | .spawn process => MaySpawn spec h process
    | .send message => MaySend spec h message
    | _ => True
  answer _ _ _ := True

theorem wp_ask {α : Type} {c : ProbeCall} {k : c.Answer → ProbeM α}
    {Q : ProbeHistory → α → Prop} (hmay : (probeContract spec).may h c)
    (hk : ∀ r, (probeContract spec).wp (k r) Q (h ++ [⟨c, r⟩])) :
    (probeContract spec).wp (ask c >>= k) Q h :=
  ⟨hmay, fun r _ => hk r⟩

/-- The verdict is what the run between the two histories has shown. -/
def Judged (spec : HealthProbeSpec) (h h' : ProbeHistory) (verdict : Verdict) : Prop :=
  ∃ run, h' = h ++ run ∧ Observed run ∧ (verdict.1 = .green ↔ Healthy spec run)

theorem judged_red {detail : Str} (hrun : Observed run) (hnot : ¬Healthy spec run) :
    Judged spec h (h ++ run) (red detail) := by
  refine ⟨run, rfl, hrun, ?_⟩
  constructor
  · intro hgreen
    cases hgreen
  · intro hhealthy
    exact absurd hhealthy hnot

theorem judged_green {verdict : Verdict} (hverdict : verdict.1 = .green) (hrun : Observed run)
    (hhealthy : Healthy spec run) : Judged spec h (h ++ run) verdict :=
  ⟨run, rfl, hrun, ⟨fun _ => hhealthy, fun _ => hverdict⟩⟩

theorem healthy_plain (hkind : spec.kind = .http) (hbody : spec.expectBody = none) :
    Healthy spec run ↔ ∃ status, statusOk spec status = true ∧
      run = [⟨.get spec.target (timeout spec), .ok status⟩] := by
  rw [Healthy, hkind, hbody]

theorem healthy_body {wantBody : Str} (hkind : spec.kind = .http)
    (hbody : spec.expectBody = some wantBody) :
    Healthy spec run ↔ ∃ status, statusOk spec status = true ∧ ∃ chunks : List Bytes,
      chunks.flatten.length ≤ httpBodyCap ∧
        Text.contains (Text.fromUtf8Lossy chunks.flatten) wantBody = true ∧
        run = ⟨.get spec.target (timeout spec), .ok status⟩ ::
          (received chunks ++ [⟨.nextChunk, none⟩]) := by
  rw [Healthy, hkind, hbody]

theorem healthy_tcp (hkind : spec.kind = .tcp) :
    Healthy spec run ↔ run = [⟨.connect spec.target (timeout spec), .done ()⟩] := by
  rw [Healthy, hkind]

theorem healthy_exec (hkind : spec.kind = .exec) :
    Healthy spec run ↔ ∃ process out, Output.success out = true ∧
      run = [⟨.isFile process.program, true⟩, ⟨.spawn process, .ok ()⟩,
        ⟨.waitWithOutput (timeout spec), .done out⟩] := by
  rw [Healthy, hkind]

theorem length_of_healthy (hkind : spec.kind = .exec) (hhealthy : Healthy spec run) :
    run.length = 3 := by
  obtain ⟨process, out, _, rfl⟩ := (healthy_exec hkind).mp hhealthy
  rfl

/-- An HTTP run begins with a good status. -/
theorem status_of_healthy (hkind : spec.kind = .http) (hhealthy : Healthy spec run) :
    ∃ status rest, statusOk spec status = true ∧
      run = ⟨.get spec.target (timeout spec), .ok status⟩ :: rest := by
  cases hbody : spec.expectBody with
  | none =>
      obtain ⟨status, hstatus, rfl⟩ := (healthy_plain hkind hbody).mp hhealthy
      exact ⟨status, [], hstatus, rfl⟩
  | some wantBody =>
      obtain ⟨status, hstatus, chunks, _, _, rfl⟩ := (healthy_body hkind hbody).mp hhealthy
      exact ⟨status, _, hstatus, rfl⟩

/-! ## A run -/

theorem wp_probeHttp (hkind : spec.kind = .http) :
    (probeContract spec).wp (probeHttp spec) (fun h' r =>
      match r with
      | .inl (status, wantBody) => statusOk spec status = true ∧
          spec.expectBody = some wantBody ∧
          h' = h ++ [⟨.get spec.target (timeout spec), .ok status⟩]
      | .inr verdict => Judged spec h h' verdict) h := by
  refine wp_ask trivial fun r => ?_
  have hrun : Observed [⟨.get spec.target (timeout spec), r⟩] :=
    List.forall_mem_singleton.mpr rfl
  cases r with
  | error e =>
      have hnot : ¬Healthy spec [⟨.get spec.target (timeout spec), .error e⟩] := by
        intro hhealthy
        obtain ⟨status, rest, _, heq⟩ := status_of_healthy hkind hhealthy
        cases heq
      cases e with
      | build e => exact judged_red hrun hnot
      | connect e => exact judged_red hrun hnot
  | ok status =>
      dsimp only
      split
      · next hstatus =>
          split
          · next wantBody hbody => exact ⟨hstatus, hbody, rfl⟩
          · next hbody =>
              exact judged_green rfl hrun ((healthy_plain hkind hbody).mpr ⟨status, hstatus, rfl⟩)
      · next hstatus =>
          refine judged_red hrun fun hhealthy => ?_
          obtain ⟨status', rest, hstatus', heq⟩ := status_of_healthy hkind hhealthy
          cases heq
          exact hstatus hstatus'

theorem wp_probeTcp (hkind : spec.kind = .tcp) :
    (probeContract spec).wp (probeTcp spec) (Judged spec h) h := by
  refine wp_ask trivial fun r => ?_
  have hrun : Observed [⟨.connect spec.target (timeout spec), r⟩] :=
    List.forall_mem_singleton.mpr rfl
  cases r with
  | done u => exact judged_green rfl hrun ((healthy_tcp hkind).mpr rfl)
  | failed e =>
      refine judged_red hrun fun hhealthy => ?_
      cases (healthy_tcp hkind).mp hhealthy
  | timeout =>
      refine judged_red hrun fun hhealthy => ?_
      cases (healthy_tcp hkind).mp hhealthy

theorem judgeExit_state (out : Output) : (judgeExit out).1 = .green ↔ out.success = true := by
  unfold judgeExit
  cases hsuccess : out.success with
  | true => exact ⟨fun _ => rfl, fun _ => rfl⟩
  | false =>
      constructor
      · intro hgreen
        dsimp only at hgreen
        rw [if_neg Bool.false_ne_true] at hgreen
        split at hgreen
        · cases hgreen
        · cases hgreen
      · intro htrue
        cases htrue

theorem wp_probeExec (hkind : spec.kind = .exec) :
    (probeContract spec).wp (probeExec spec) (Judged spec h) h := by
  unfold probeExec
  dsimp only
  split
  · refine ⟨[], (List.append_nil h).symm, List.forall_mem_nil _, ?_⟩
    constructor
    · intro hgreen
      cases hgreen
    · intro hhealthy
      exact absurd (length_of_healthy hkind hhealthy) (by simp)
  · next htarget =>
      refine wp_ask trivial fun found => ?_
      cases found with
      | false =>
          refine judged_red (List.forall_mem_singleton.mpr rfl) fun hhealthy => ?_
          exact absurd (length_of_healthy hkind hhealthy) (by simp)
      | true =>
          have hspawn : MaySpawn spec (h ++ [⟨.isFile (scriptProcess spec).program, true⟩])
              (scriptProcess spec) :=
            ⟨hkind, Bool.eq_false_iff.mpr htarget, rfl, h, rfl⟩
          refine wp_ask hspawn fun spawned => ?_
          cases spawned with
          | error e =>
              rw [List.append_assoc]
              refine judged_red ?_ fun hhealthy => ?_
              · simp [Observed, observes]
              · exact absurd (length_of_healthy hkind hhealthy) (by simp)
          | ok u =>
              refine wp_ask trivial fun waited => ?_
              rw [List.append_assoc, List.append_assoc]
              have hrun : ∀ waited, Observed ([⟨.isFile (scriptProcess spec).program, true⟩] ++
                  ([⟨.spawn (scriptProcess spec), .ok u⟩] ++
                    [⟨.waitWithOutput (timeout spec), waited⟩])) := by
                intro waited
                simp [Observed, observes]
              cases waited with
              | done out =>
                  refine ⟨_, rfl, hrun _, (judgeExit_state out).trans ?_⟩
                  rw [healthy_exec hkind]
                  constructor
                  · intro hsuccess
                    exact ⟨scriptProcess spec, out, hsuccess, rfl⟩
                  · rintro ⟨process, out', hsuccess, heq⟩
                    have hlast := congrArg List.getLast? heq
                    cases hlast
                    exact hsuccess
              | failed e =>
                  refine judged_red (hrun _) fun hhealthy => ?_
                  obtain ⟨process, out, _, heq⟩ := (healthy_exec hkind).mp hhealthy
                  have hlast := congrArg List.getLast? heq
                  cases hlast
              | timeout =>
                  refine judged_red (hrun _) fun hhealthy => ?_
                  obtain ⟨process, out, _, heq⟩ := (healthy_exec hkind).mp hhealthy
                  have hlast := congrArg List.getLast? heq
                  cases hlast

/-- What a run has done by the time that it ends or turns to a body. -/
def Probed (spec : HealthProbeSpec) (h h' : ProbeHistory) : (Nat × Str) ⊕ Verdict → Prop
  | .inl (status, wantBody) => spec.kind = .http ∧ statusOk spec status = true ∧
      spec.expectBody = some wantBody ∧ h' = h ++ [⟨.get spec.target (timeout spec), .ok status⟩]
  | .inr verdict => Judged spec h h' verdict

theorem wp_probeOnce : (probeContract spec).wp (probeOnce spec) (Probed spec h) h := by
  unfold probeOnce
  split
  · next hkind =>
      refine Contract.wp_mono (wp_probeHttp hkind) fun h' r hr => ?_
      cases r with
      | inl body => exact ⟨hkind, hr⟩
      | inr verdict => exact hr
  · next hkind => exact Contract.wp_bind.mpr (wp_probeTcp hkind)
  · next hkind => exact Contract.wp_bind.mpr (wp_probeExec hkind)

/-! ## A body -/

/-- The run so far: a good status, and chunks that fit. -/
structure Reading (spec : HealthProbeSpec) (h : ProbeHistory) (status : Nat) (wantBody : Str)
    (bytes : Bytes) (h' : ProbeHistory) : Prop where
  kind : spec.kind = .http
  body : spec.expectBody = some wantBody
  good : statusOk spec status = true
  read : ∃ chunks : List Bytes, bytes = chunks.flatten ∧ bytes.length ≤ httpBodyCap ∧
    h' = h ++ ⟨.get spec.target (timeout spec), .ok status⟩ :: received chunks

theorem received_injective : Function.Injective received :=
  List.map_injective_iff.mpr fun _ _ heq =>
    Except.ok.inj (Option.some.inj (eq_of_heq (Event.mk.inj heq).2))

theorem received_append (chunks chunks' : List Bytes) :
    received (chunks ++ chunks') = received chunks ++ received chunks' :=
  List.map_append

theorem observed_reading {status : Nat} {chunks : List Bytes} {r : Option (Except Str Bytes)} :
    Observed (⟨.get spec.target (timeout spec), .ok status⟩ :: received chunks ++
      [⟨.nextChunk, r⟩]) := by
  intro e he
  rcases List.mem_append.mp he with he | he
  · rcases List.mem_cons.mp he with rfl | he
    · rfl
    · obtain ⟨chunk, _, rfl⟩ := List.mem_map.mp he
      rfl
  · rw [List.mem_singleton.mp he]
    rfl

theorem judgeBody_state (status : Nat) (wantBody : Str) (bytes : Bytes) :
    (judgeBody status wantBody bytes).1 = .green ↔
      Text.contains (Text.fromUtf8Lossy bytes) wantBody = true := by
  unfold judgeBody
  split
  · next hfound => exact ⟨fun _ => hfound, fun _ => rfl⟩
  · next hmissing =>
      constructor
      · intro hgreen
        cases hgreen
      · intro hfound
        exact absurd hfound hmissing

theorem wp_readChunk {status : Nat} {wantBody : Str} {bytes : Bytes}
    (hr : Reading spec h status wantBody bytes h') :
    (probeContract spec).wp (readChunk status wantBody bytes) (fun h'' r =>
      match r with
      | .inl bytes => Reading spec h status wantBody bytes h''
      | .inr verdict => Judged spec h h'' verdict) h' := by
  obtain ⟨hkind, hbody, hstatus, chunks, hbytes, hcap, rfl⟩ := hr
  refine wp_ask trivial fun r => ?_
  have hnot : ∀ r : Option (Except Str Bytes), r ≠ none →
      ¬Healthy spec (⟨.get spec.target (timeout spec), .ok status⟩ :: received chunks ++
        [⟨.nextChunk, r⟩]) := by
    intro r hr hhealthy
    obtain ⟨_, _, _, _, _, heq⟩ := (healthy_body hkind hbody).mp hhealthy
    rw [← List.cons_append] at heq
    exact hr (eq_of_heq (Event.mk.inj (List.singleton_inj.mp (List.append_inj' heq rfl).2)).2)
  have hassoc : h ++ ⟨.get spec.target (timeout spec), .ok status⟩ :: received chunks ++
      [⟨.nextChunk, r⟩] = h ++ (⟨.get spec.target (timeout spec), .ok status⟩ ::
        received chunks ++ [⟨.nextChunk, r⟩]) := List.append_assoc ..
  cases r with
  | none =>
      rw [hassoc]
      refine ⟨_, rfl, observed_reading, ?_⟩
      rw [judgeBody_state, healthy_body hkind hbody]
      constructor
      · intro hfound
        rw [hbytes] at hfound hcap
        exact ⟨status, hstatus, chunks, hcap, hfound, rfl⟩
      · rintro ⟨status', _, chunks', _, hfound, heq⟩
        rw [← List.cons_append] at heq
        obtain ⟨hfront, _⟩ := List.append_inj' heq rfl
        rw [hbytes, received_injective (List.cons.inj hfront).2]
        exact hfound
  | some r =>
      cases r with
      | error e =>
          rw [hassoc]
          exact judged_red observed_reading (hnot _ (Option.some_ne_none _))
      | ok chunk =>
          dsimp only
          unfold appendBodyChunk
          split
          · next bytes' happend =>
              split at happend
              · cases happend
              · next hfits =>
                  cases happend
                  refine ⟨hkind, hbody, hstatus, chunks ++ [chunk], ?_, ?_, ?_⟩
                  · rw [hbytes, List.flatten_append, List.flatten_singleton]
                  · rw [List.length_append]
                    omega
                  · rw [hassoc, received_append]
                    rfl
          · rw [hassoc]
            exact judged_red observed_reading (hnot _ (Option.some_ne_none _))

/-! ## The end of a round -/

/-- Between rounds, or within the reading of a body. -/
def loopInv (spec : HealthProbeSpec) (h : ProbeHistory) : ProbeLoop → Prop
  | .round spec' last => spec' = spec ∧ Rounds spec h last
  | .body spec' last status wantBody bytes => spec' = spec ∧
      ∃ before, Rounds spec before last ∧ Reading spec before status wantBody bytes h

theorem wp_conclude {verdict : Verdict} (hrounds : Rounds spec h last)
    (hjudged : Judged spec h h' verdict) :
    (probeContract spec).wp (conclude spec last verdict) (loopInv spec) h' := by
  obtain ⟨run, rfl, hrun, hstate⟩ := hjudged
  refine wp_ask trivial fun elapsedMs => ?_
  refine Contract.wp_bind.mpr ?_
  unfold tell
  split
  · next hlast =>
      rw [hlast] at hrounds
      have hround := Rounds.same elapsedMs hrounds hrun hstate
      refine wp_ask ⟨some verdict.1, ?_⟩ fun u => ⟨rfl, ?_⟩
      · rw [List.append_assoc (h ++ run)]
        exact hround
      · rw [List.append_assoc (h ++ run)]
        exact hround
  · next hlast =>
      refine wp_ask trivial fun now => ?_
      have hround := fun sent => Rounds.changed ⟨verdict.1, verdict.2, elapsedMs, now⟩ sent
        hrounds hlast hrun hstate
      refine wp_ask ⟨h, last, run, ⟨verdict.1, verdict.2, elapsedMs, now⟩, hrounds, hlast, hrun,
        hstate, ?_, rfl⟩ fun sent => ?_
      · rw [List.append_assoc (h ++ run)]
        rfl
      · refine wp_ask ⟨some verdict.1, ?_⟩ fun u => ⟨rfl, ?_⟩
        · rw [List.append_assoc (h ++ run), List.append_assoc (h ++ run),
            List.append_assoc (h ++ run)]
          exact hround sent
        · rw [List.append_assoc (h ++ run), List.append_assoc (h ++ run),
            List.append_assoc (h ++ run)]
          exact hround sent

/-! ## The pool -/

def probeOutline : Outline runProbe where
  contract := probeContract
  loopInv := loopInv
  post _ _ r := r.elim

theorem probeOutline_holds : probeOutline.Holds where
  start spec := wp_ask ⟨none, .start⟩ fun _ => ⟨rfl, .start⟩
  again spec h l hl := by
    cases l with
    | round spec' last =>
        obtain ⟨rfl, hrounds⟩ := hl
        refine Contract.wp_bind.mpr (Contract.wp_mono wp_probeOnce fun h' r hr => ?_)
        cases r with
        | inl body =>
            obtain ⟨hkind, hstatus, hbody, rfl⟩ := hr
            exact ⟨rfl, h, hrounds, hkind, hbody, hstatus, [], rfl, Nat.zero_le _, rfl⟩
        | inr verdict => exact Contract.wp_bind.mpr (wp_conclude hrounds hr)
    | body spec' last status wantBody bytes =>
        obtain ⟨rfl, before, hrounds, hreading⟩ := hl
        refine Contract.wp_bind.mpr (Contract.wp_mono (wp_readChunk hreading) fun h' r hr => ?_)
        cases r with
        | inl bytes => exact ⟨rfl, before, hrounds, hr⟩
        | inr verdict => exact Contract.wp_bind.mpr (wp_conclude hrounds hr)

/-- What was found to be a file was one, in a tree that the host has had. -/
def FilesSeen (w : ProbeHost) (v : Nat → Option ProbeTrace) : Prop :=
  ∀ t tr, v t = some tr → ∀ path, ⟨.isFile path, true⟩ ∈ tr.hist →
    ∃ files, w.Had files ∧ files.isFile path = true

theorem FilesSeen.update {w : ProbeHost} {v : Nat → Option ProbeTrace} {t : Nat}
    {tr : ProbeTrace} (hseen : FilesSeen w v)
    (htr : ∀ path, ⟨.isFile path, true⟩ ∈ tr.hist → ∃ files, w.Had files ∧
      files.isFile path = true) : FilesSeen w (Function.update v t (some tr)) := by
  intro u tr' hu path hmem
  rcases update_some hu with ⟨_, rfl⟩ | ⟨_, hu⟩
  · exact htr path hmem
  · exact hseen u tr' hu path hmem

theorem probeOutline_sound :
    probeOutline.Sound probeHost (fun _ _ => True) FilesSeen where
  init w _ t tr htr := by cases htr
  spawn w v t spec w' hseen _ hw := by
    cases hw
    exact hseen.update fun path hmem => by cases hmem
  act s t ch spec c k h w' r := by
    intro hseen ht _ _ hx
    have hold := hseen t _ (Pool.State.view_eq ht)
    have hkept : w' = s.world := by
      cases c <;> cases hx <;> rfl
    subst hkept
    refine ⟨trivial, hseen.update fun path hmem => ?_⟩
    rcases List.mem_append.mp hmem with hmem | hmem
    · exact hold path hmem
    · cases List.mem_singleton.mp hmem
      have hfound : s.world.files.isFile path = true := by
        injection hx with hx
        exact (Prod.mk.inj hx).2
      exact ⟨s.world.files, .inl rfl, hfound⟩
  kill w v t spec h hseen hv :=
    hseen.update fun path hmem => hseen t ⟨spec, h, true⟩ hv path hmem
  env w v files w' hseen hw := by
    cases hw
    intro t tr htr path hmem
    obtain ⟨files', hhad, hfile⟩ := hseen t tr htr path hmem
    refine ⟨files', .inr ?_, hfile⟩
    rcases hhad with rfl | hhad
    · exact List.mem_cons_self ..
    · exact List.mem_cons_of_mem _ hhad

/-! ## Reports -/

/-- What a report says. -/
def sentState (e : Event ProbeCall ProbeCall.Answer) : Option HealthProbeState :=
  match e.op with
  | .send message => carriedState message
  | _ => none

/-- What the last report has said. -/
def lastSent (h : ProbeHistory) : Option HealthProbeState := (h.filterMap sentState).getLast?

theorem sentState_observed (hrun : Observed run) : run.filterMap sentState = [] := by
  refine List.filterMap_eq_nil_iff.mpr fun e he => ?_
  have hobserves := hrun e he
  obtain ⟨c, r⟩ := e
  cases c with
  | send message => cases hobserves
  | _ => rfl

theorem lastSent_observed (hrun : Observed run) : lastSent (h ++ run) = lastSent h := by
  rw [lastSent, List.filterMap_append, sentState_observed hrun, List.append_nil]
  rfl

theorem Rounds.lastSent (hrounds : Rounds spec h last) : lastSent h = last := by
  induction hrounds with
  | start => rfl
  | same elapsedMs hrounds hrun hstate ih =>
      rw [ProbeRuns.lastSent, List.filterMap_append]
      exact (congrArg List.getLast? (List.append_nil _)).trans
        ((lastSent_observed hrun).trans ih)
  | changed sample sent hrounds hlast hrun hstate ih =>
      rw [ProbeRuns.lastSent, List.filterMap_append]
      exact List.getLast?_concat ..

/-- The calls between a run and the delay. -/
def reports : ProbeCall → Bool
  | .elapsed | .nowUnix | .send _ => true
  | _ => false

/-- The history ends with a delay. -/
def Rested (h : ProbeHistory) : Prop := ∃ front millis, h = front ++ [⟨.sleep millis, ()⟩]

theorem Rounds.rested (hrounds : Rounds spec h last) : Rested h := by
  cases hrounds with
  | start => exact ⟨[], _, rfl⟩
  | same elapsedMs _ _ _ => exact ⟨_, _, (List.append_assoc _ [_] [_]).symm⟩
  | changed sample sent _ _ _ _ => exact ⟨_, _, (List.append_assoc _ [_, _, _] [_]).symm⟩

/-- What there is before a delay that is not the first. -/
theorem Rounds.split {before : ProbeHistory} {millis : Nat}
    (hrounds : Rounds spec (before ++ [⟨.sleep millis, ()⟩]) last) (hne : before ≠ []) :
    ∃ earlier run rest, before = earlier ++ run ++ rest ∧ Rested earlier ∧ Observed run ∧
      (∀ e ∈ rest, reports e.op = true) ∧
      ∃ state, last = some state ∧ (state = .green ↔ Healthy spec run) := by
  generalize hwhole : before ++ [⟨.sleep millis, ()⟩] = whole at hrounds
  cases hrounds with
  | start =>
      have hsplit : before ++ [⟨.sleep millis, ()⟩] =
          [] ++ [⟨.sleep (jitter spec.id), ()⟩] := hwhole
      exact absurd (List.append_inj' hsplit rfl).1 hne
  | @same earlier run state elapsedMs hrounds hrun hstate =>
      have hsplit : before ++ [⟨.sleep millis, ()⟩] =
          earlier ++ run ++ [⟨.elapsed, elapsedMs⟩] ++ [⟨.sleep (interval spec), ()⟩] :=
        hwhole.trans (List.append_assoc _ [_] [_]).symm
      refine ⟨earlier, run, _, (List.append_inj' hsplit rfl).1, hrounds.rested, hrun, ?_,
        state, rfl, hstate⟩
      simp [reports]
  | @changed earlier run last sample sent hrounds hlast hrun hstate =>
      have hsplit : before ++ [⟨.sleep millis, ()⟩] = earlier ++ run ++
          [⟨.elapsed, sample.elapsedMs⟩, ⟨.nowUnix, sample.now⟩,
            ⟨.send (healthProbeReport spec sample), sent⟩] ++ [⟨.sleep (interval spec), ()⟩] :=
        hwhole.trans (List.append_assoc _ [_, _, _] [_]).symm
      refine ⟨earlier, run, _, (List.append_inj' hsplit rfl).1, hrounds.rested, hrun, ?_,
        sample.state, rfl, hstate⟩
      simp [reports]

theorem lastSent_rest (h : ProbeHistory) (millis : Nat) :
    lastSent (h ++ [⟨.sleep millis, ()⟩]) = lastSent h := by
  rw [lastSent, List.filterMap_append]
  exact congrArg List.getLast? (List.append_nil _)

theorem lastSent_clock (h : ProbeHistory) (elapsedMs : Nat) (now : Int) :
    lastSent (h ++ [⟨.elapsed, elapsedMs⟩, ⟨.nowUnix, now⟩]) = lastSent h := by
  rw [lastSent, List.filterMap_append]
  exact congrArg List.getLast? (List.append_nil _)

/-- Whichever probes there are, whenever they are aborted and whatever they meet: a task
sends a report only of a state that it has not reported last; and after each of its runs,
what it has reported last is `green` exactly if that run has seen its target well. -/
theorem reports_truthful {s : ProbeState} (hr : probePool.Reachable s) {t : Nat}
    {tr : ProbeTrace} (htr : s.view t = some tr) :
    (∀ before message sent after, tr.hist = before ++ ⟨.send message, sent⟩ :: after →
      ∃ sample, message = healthProbeReport tr.call sample ∧
        lastSent before ≠ some sample.state) ∧
    ∀ before millis u after, tr.hist = before ++ ⟨.sleep millis, u⟩ :: after → before ≠ [] →
      ∃ earlier run rest, before = earlier ++ run ++ rest ∧ Rested earlier ∧ Observed run ∧
        (∀ e ∈ rest, reports e.op = true) ∧
        ∃ state, lastSent before = some state ∧ (state = .green ↔ Healthy tr.call run) := by
  have hobeyed := Outline.obeyed probeOutline_holds probeOutline_sound hr htr
  constructor
  · intro before message sent after hhist
    obtain ⟨⟨earlier, last, run, sample, hrounds, hlast, hrun, _, rfl, rfl⟩, _⟩ :=
      hobeyed before _ after hhist
    refine ⟨sample, rfl, ?_⟩
    rw [lastSent_clock, lastSent_observed hrun, hrounds.lastSent]
    exact hlast
  · intro before millis u after hhist hne
    obtain ⟨⟨last, hrounds⟩, _⟩ := hobeyed before _ after hhist
    obtain ⟨earlier, run, rest, rfl, hrested, hrun, hrest, state, rfl, hstate⟩ :=
      hrounds.split hne
    refine ⟨earlier, run, rest, rfl, hrested, hrun, hrest, state, ?_, hstate⟩
    rw [← lastSent_rest]
    exact hrounds.lastSent

/-- A host whose answers go well; the next chunk, if there is one, is given. -/
def wellAnswered (chunk : Option Bytes) : (c : ProbeCall) → c.Answer
  | .sleep _ => ()
  | .get .. => .ok 200
  | .nextChunk => chunk.map .ok
  | .connect .. => .done ()
  | .isFile _ => true
  | .spawn _ => .ok ()
  | .waitWithOutput _ => .done ⟨some 0, [], []⟩
  | .elapsed => (7 : Nat)
  | .nowUnix => (1700000000 : Int)
  | .send _ => .ok ()

def scriptFiles : HostFiles where
  fs := .ofEntries [([os "etc"], .dir), ([os "etc", os "shellfleet"], .dir),
    ([os "etc", os "shellfleet", os "probes.d"], .dir),
    ([os "etc", os "shellfleet", os "probes.d", os "disk.sh"], .file)] (by decide)
  cwd := []

def idleProbes : ProbeState := ⟨⟨scriptFiles, []⟩, fun _ => none⟩

theorem idleProbes_reachable : probePool.Reachable idleProbes := .init ⟨rfl, fun _ => rfl⟩

/-- A page that should say `up`. -/
def pageProbe : HealthProbeSpec :=
  ⟨"page".toList, .http, "http://localhost/".toList, 30, 5, none, some "up".toList, []⟩

/-- One round of it, with the body in two pieces. -/
def pageLabels : List (Pool.Label HealthProbeSpec ((c : ProbeCall) → c.Answer) HostFiles) :=
  [.spawn 0 pageProbe, .act 0 (wellAnswered none), .again 0, .act 0 (wellAnswered none),
    .again 0, .act 0 (wellAnswered (some (Text.toUtf8 "u".toList))), .again 0,
    .act 0 (wellAnswered (some (Text.toUtf8 "p".toList))), .again 0,
    .act 0 (wellAnswered none), .act 0 (wellAnswered none), .act 0 (wellAnswered none),
    .act 0 (wellAnswered none), .act 0 (wellAnswered none)]

/-- What there is of that round before the delay. -/
def pageRound : ProbeHistory :=
  [⟨.sleep (jitter "page".toList), ()⟩, ⟨.get "http://localhost/".toList 5, .ok 200⟩,
    ⟨.nextChunk, some (.ok (Text.toUtf8 "u".toList))⟩,
    ⟨.nextChunk, some (.ok (Text.toUtf8 "p".toList))⟩, ⟨.nextChunk, none⟩,
    ⟨.elapsed, (7 : Nat)⟩, ⟨.nowUnix, (1700000000 : Int)⟩,
    ⟨.send (.healthProbeReport [⟨"page".toList, .green, 7, "ok (200)".toList, 1700000000⟩]),
      .ok ()⟩]

theorem reports_truthful_page : lastSent pageRound = some .green ∧
    ∃ earlier run rest, pageRound = earlier ++ run ++ rest ∧ Rested earlier ∧ Observed run ∧
      (∀ e ∈ rest, reports e.op = true) ∧
      ∃ state, lastSent pageRound = some state ∧ (state = .green ↔ Healthy pageProbe run) := by
  have hrun : ((probePool.run idleProbes pageLabels).bind (·.view 0)) =
      some ⟨pageProbe, pageRound ++ [⟨.sleep 30000, ()⟩], true⟩ := rfl
  obtain ⟨s, hs, hview⟩ := Option.bind_eq_some_iff.mp hrun
  exact ⟨rfl, (reports_truthful (idleProbes_reachable.run hs) hview).2 pageRound 30000 () [] rfl
    (List.cons_ne_nil _ _)⟩

/-! ## Scripts -/

/-- The last value that is given for a variable. -/
def lastGiven (env : List Str) (key : Str) : Option Str :=
  (((env.filterMap splitEnv).filter (·.1 = key)).getLast?).map (·.2)

theorem isSafeProbeEnvKey_path : isSafeProbeEnvKey "PATH".toList = false := by decide

theorem get_probeEnv (env : List Str) (key : Str) : (probeEnv env).get key =
    if key = "PATH".toList then some probePath
    else if isSafeProbeEnvKey key then lastGiven env key else none := by
  have hlast := BTreeMap.lookup_reverse (p := fun e : Str × Str => decide (e.1 = key))
    (fun _ => decide_eq_true_iff) (env.filterMap splitEnv)
  rw [probeEnv, BTreeMap.get_extend, ← List.filter_reverse, BTreeMap.lookup_filter, hlast,
    BTreeMap.get_insert]
  by_cases hpath : key = "PATH".toList
  · rw [if_pos hpath, if_pos hpath, hpath, isSafeProbeEnvKey_path, if_neg Bool.false_ne_true]
    rfl
  · rw [if_neg hpath, if_neg hpath]
    exact Option.or_none

theorem isName_target {target : Str} (hvalid : invalidTarget target = false)
    (hdot : OsStr.ofChars target ≠ Path.dot) : Path.IsName (OsStr.ofChars target) := by
  simp only [invalidTarget, Bool.or_eq_false_iff, decide_eq_false_iff_not] at hvalid
  obtain ⟨⟨⟨hne, hslash⟩, _⟩, hdots⟩ := hvalid
  refine ⟨?_, hdot, ?_, ?_⟩
  · intro hnil
    exact hne (List.map_eq_nil_iff.mp hnil)
  · intro hdotDot
    have htarget : target = "..".toList := by
      have hchars := congrArg OsStr.toChars hdotDot
      rw [OsStr.toChars_ofChars] at hchars
      exact Option.some.inj hchars
    rw [htarget] at hdots
    revert hdots
    decide
  · intro hmem
    obtain ⟨c, hc, hcslash⟩ := List.mem_map.mp hmem
    cases hcslash
    rw [List.elem_eq_contains, List.contains_iff_mem.mpr hc] at hslash
    cases hslash

/-- Whichever probes there are and whatever becomes of the file tree: a process that a task
has started is the script that its target names, an entry of the directory for scripts and
found to be a file; and it has been given the fixed `PATH`, and of every other variable
whose name is safe the last value in the specification. -/
theorem probes_confined {s : ProbeState} (hr : probePool.Reachable s) {t : Nat}
    {tr : ProbeTrace} (htr : s.view t = some tr) {before after : ProbeHistory}
    {process : ProbeProcess} {r : Except Str Unit}
    (hhist : tr.hist = before ++ ⟨.spawn process, r⟩ :: after) :
    (∃ name files dir, tr.call.kind = .exec ∧
      name = OsStr.ofChars (Text.trim tr.call.target) ∧ Path.IsName name ∧
      process.program = Path.join probesDir name ∧ s.world.Had files ∧
      files.canonicalize probesDir = some dir ∧ files.fs.node dir = some .dir ∧
      (files.fs.node (dir ++ [name])).isSome ∧ files.isFile process.program = true) ∧
    ∀ key, process.env.get key =
      if key = "PATH".toList then some probePath
      else if isSafeProbeEnvKey key then lastGiven tr.call.env key else none := by
  obtain ⟨⟨hkind, hvalid, rfl, front, rfl⟩, _⟩ :=
    Outline.obeyed probeOutline_holds probeOutline_sound hr htr before _ after hhist
  obtain ⟨hseen, _⟩ := Outline.invariant probeOutline_holds probeOutline_sound hr
  obtain ⟨files, hhad, hfile⟩ := hseen t tr htr (scriptProcess tr.call).program (by
    rw [hhist]
    simp)
  have hdot : OsStr.ofChars (Text.trim tr.call.target) ≠ Path.dot := by
    intro hdot
    rw [scriptProcess, hdot, HostFiles.not_isFile_dot (by decide) (by decide)] at hfile
    cases hfile
  have hname := isName_target hvalid hdot
  obtain ⟨loc, hloc, _⟩ := HostFiles.isFile_iff.mp hfile
  obtain ⟨dir, hdir, hisdir, hentry⟩ := HostFiles.canonicalize_join (by decide) hname hloc
  exact ⟨⟨_, files, dir, hkind, rfl, hname, rfl, hhad, hdir, hisdir, hentry, hfile⟩,
    get_probeEnv tr.call.env⟩

def diskProbe : HealthProbeSpec :=
  ⟨"disk".toList, .exec, " disk.sh ".toList, 30, 5, none, none,
    ["LD_PRELOAD=/tmp/x.so".toList, "LIMIT=80".toList, "LIMIT=90=".toList]⟩

def diskLabels : List (Pool.Label HealthProbeSpec ((c : ProbeCall) → c.Answer) HostFiles) :=
  [.spawn 0 diskProbe, .act 0 (wellAnswered none), .again 0, .act 0 (wellAnswered none),
    .act 0 (wellAnswered none)]

theorem probes_confined_disk :
    (scriptProcess diskProbe).program = os "/etc/shellfleet/probes.d/disk.sh" ∧
      (scriptProcess diskProbe).env.get "LD_PRELOAD".toList = none ∧
      (scriptProcess diskProbe).env.get "LIMIT".toList = some "90=".toList := by
  have hrun : ((probePool.run idleProbes diskLabels).bind (·.view 0)) =
      some ⟨diskProbe, [⟨.sleep (jitter "disk".toList), ()⟩,
        ⟨.isFile (scriptProcess diskProbe).program, true⟩,
        ⟨.spawn (scriptProcess diskProbe), .ok ()⟩], true⟩ := rfl
  obtain ⟨s, hs, hview⟩ := Option.bind_eq_some_iff.mp hrun
  obtain ⟨⟨name, files, dir, _, rfl, _, hprogram, _⟩, henv⟩ :=
    @probes_confined s (idleProbes_reachable.run hs) 0 _ hview [_, _] _ _ _ rfl
  refine ⟨hprogram.trans (by decide), (henv _).trans (by decide), (henv _).trans (by decide)⟩

end ShellfleetAgent.Agent.ProbeRuns
