import ShellfleetAgent.Agent.Reporters

/-!
# What the control plane was told last

A reporter's memory is that of the general one, whatever the queue does in between.
So the last report that the queue accepted carries the value just observed exactly
when the last change that found room was one to it: a change that finds the queue
full is never reported, even when the queue has room again.
-/

namespace ShellfleetAgent.Agent.Reporters

open ShellfleetAgent.Lib

variable {σ ω κ : Type} [DecidableEq κ] {R : Reporter σ ω κ} {s s' : ReporterState σ κ}

/-- The reporter remembers what the general one does, and what it sent is in the queue. -/
structure Tracks (R : Reporter σ ω κ) (s : ReporterState σ κ) : Prop where
  last : R.last s.locals = (Round.remember s.rounds).last
  heard : s.lastReport R = (Round.remember s.rounds).heard
  sent : s.sent.Sublist s.queue.accepted

/-! ## One round -/

section Round

variable {observed : ω}

theorem round_idle (hsame : R.last s.locals = some (R.value observed)) :
    s.round R observed = { s with
      locals := R.idle s.locals
      rounds := s.rounds ++ [⟨R.value observed, s.queue.refusal = none⟩] } := by
  rw [ReporterState.round, if_pos hsame]

theorem round_reported (hchange : R.last s.locals ≠ some (R.value observed))
    (hroom : s.queue.refusal = none) :
    s.round R observed = {
      locals := R.reported s.locals observed
      queue := { s.queue with accepted := s.queue.accepted ++ [R.report s.locals observed] }
      rounds := s.rounds ++ [⟨R.value observed, true⟩]
      sent := s.sent ++ [R.report s.locals observed] } := by
  rw [ReporterState.round, if_neg hchange, Outgoing.send_accepted hroom]
  simp [hroom]

theorem round_refused (hchange : R.last s.locals ≠ some (R.value observed))
    {e : OutgoingSendError} (hfull : s.queue.refusal = some e) :
    s.round R observed = { s with
      locals := R.reported s.locals observed
      rounds := s.rounds ++ [⟨R.value observed, false⟩] } := by
  rw [ReporterState.round, if_neg hchange, Outgoing.send_refused hfull]
  simp [hfull]

theorem round_rounds : (s.round R observed).rounds =
    s.rounds ++ [⟨R.value observed, s.queue.refusal = none⟩] := by
  unfold ReporterState.round
  split <;> rfl

end Round

theorem tracks_round (h : Tracks R s) (observed : ω) : Tracks R (s.round R observed) := by
  by_cases hsame : R.last s.locals = some (R.value observed)
  · have hlast : (Round.remember s.rounds).last = some (R.value observed) := h.last ▸ hsame
    rw [round_idle hsame]
    constructor
    · rw [R.last_idle, Round.remember_concat, Round.observe, if_pos hlast]
      exact h.last
    · rw [Round.remember_concat, Round.observe, if_pos hlast]
      exact h.heard
    · exact h.sent
  · have hlast : (Round.remember s.rounds).last ≠ some (R.value observed) := h.last ▸ hsame
    cases hroom : s.queue.refusal with
    | none =>
        rw [round_reported hsame hroom]
        constructor
        · rw [R.last_reported, Round.remember_concat, Round.observe, if_neg hlast]
        · rw [Round.remember_concat, Round.observe, if_neg hlast, ReporterState.lastReport,
            List.getLast?_concat, Option.bind_some, R.carried_report]
          rfl
        · exact h.sent.append (List.Sublist.refl _)
    | some e =>
        rw [round_refused hsame hroom]
        constructor
        · rw [R.last_reported, Round.remember_concat, Round.observe, if_neg hlast]
        · rw [Round.remember_concat, Round.observe, if_neg hlast]
          exact h.heard
        · exact h.sent

theorem tracks_queue (h : Tracks R s) {e : QueueEnv} {queue : Outgoing}
    (he : e.run s.queue = some queue) : Tracks R { s with queue } :=
  ⟨h.last, h.heard, h.sent.trans (QueueEnv.grows he).accepted.sublist⟩

theorem tracks (hr : (machine R).Reachable s) : Tracks R s := by
  refine hr.invariant ?_ ?_
  · intro s ⟨hlocals, hrounds, hsent⟩
    constructor
    · rw [hlocals, hrounds]
      exact R.last_start
    · rw [ReporterState.lastReport, hrounds, hsent]
      rfl
    · rw [hsent]
      exact List.nil_sublist _
  · intro s label s' _ h _ hs
    cases label with
    | round observed =>
        cases hs
        exact tracks_round h observed
    | queue e =>
        obtain ⟨queue, hqueue, rfl⟩ := Option.map_eq_some_iff.mp hs
        exact tracks_queue h hqueue

/-- After a round, with room or without. -/
theorem lastReport_round (hr : (machine R).Reachable s) {observed : ω}
    (hs : s.step R (.round observed) = some s') (v : κ) :
    s'.lastReport R = some v ↔ Round.LastHeard s'.rounds v := by
  rw [(tracks (hr.step (i := .round observed) trivial hs)).heard]
  exact Round.heard_remember

/-- As long as no change finds the queue full, the control plane is up to date after
every round. -/
theorem lastReport_of_room (hr : (machine R).Reach (fun s label => ∀ observed,
      label = .round observed → R.last s.locals ≠ some (R.value observed) →
        s.queue.refusal = none) s) :
    s.lastReport R = s.rounds.getLast?.map (·.value) := by
  have hall : (∀ before r after, s.rounds = before ++ r :: after →
      Round.Changes before r → r.room = true) ∧ Tracks R s := by
    refine ⟨?_, tracks hr.reachable⟩
    refine hr.invariant (I := fun s => ∀ before r after, s.rounds = before ++ r :: after →
      Round.Changes before r → r.room = true) ?_ ?_
    · intro s ⟨_, hrounds, _⟩ before r after h
      rw [hrounds] at h
      cases before <;> cases h
    · intro s label s' hr h hok hs
      cases label with
      | queue e =>
          obtain ⟨queue, _, rfl⟩ := Option.map_eq_some_iff.mp hs
          exact h
      | round observed =>
          cases hs
          intro before r after hsplit hchange
          rw [round_rounds] at hsplit
          cases concat_split hsplit with
          | inr hold =>
              obtain ⟨_, _, hsplit⟩ := hold
              exact h _ _ _ hsplit hchange
          | inl hnew =>
              obtain ⟨rfl, rfl, _⟩ := hnew
              rw [Round.Changes, ← Round.remember_last, ← (tracks hr.reachable).last] at hchange
              exact decide_eq_true (hok observed rfl hchange)
  rw [hall.2.heard]
  cases hlast : s.rounds.getLast?.map (·.value) with
  | some v => exact Round.heard_remember.mpr (Round.lastHeard_of_heard_all hall.1 hlast)
  | none =>
      rw [Option.map_eq_none_iff, List.getLast?_eq_none_iff] at hlast
      rw [hlast]
      rfl

/-! ## Both loops -/

theorem last_report_is_last_heard (spec : Streams.HealthProbeSpec) (kube : Bool)
    (registration : Registration) :
    (∀ s s' sample, (machine (runProbe spec)).Reachable s →
      s.step (runProbe spec) (.round sample) = some s' → s.queue.refusal = none →
      (s'.lastReport (runProbe spec) = some sample.state ↔
        Round.LastHeard s'.rounds sample.state)) ∧
    ∀ s s' x, (machine (capabilityLoop kube registration)).Reachable s →
      s.step (capabilityLoop kube registration) (.round x) = some s' → s.queue.refusal = none →
      (s'.lastReport (capabilityLoop kube registration) = some (capabilities kube x) ↔
        Round.LastHeard s'.rounds (capabilities kube x)) :=
  ⟨fun _ _ sample hr hs _ => lastReport_round hr hs sample.state,
    fun _ _ x hr hs _ => lastReport_round hr hs (capabilities kube x)⟩

def spareProbe : Streams.HealthProbeSpec :=
  ⟨"web".toList, .tcp, "localhost:80".toList, 30, 5, none, none, []⟩

def bareHost : Subsystems := ⟨false, fun _ => false, none, true, false, .notInSwarm, false⟩

def dockerHost : Subsystems := { bareHost with dockerAvailable := true }

/-- With one place in the queue the second report is refused. In the third round there is room
again, and no change. -/
theorem refused_report_is_not_heard :
    (∃ s' : ReporterState (Option HealthProbeState) HealthProbeState,
      s'.rounds = [⟨.green, true⟩, ⟨.red, false⟩, ⟨.red, true⟩] ∧
      s'.lastReport (runProbe spareProbe) = some .green ∧
      (s'.lastReport (runProbe spareProbe) = some .red ↔
        Round.LastHeard s'.rounds HealthProbeState.red)) ∧
    ∃ s' : ReporterState CapabilityLoop (List Str),
      s'.rounds = [⟨["systemd".toList], true⟩, ⟨["systemd".toList, "docker".toList], false⟩,
        ⟨["systemd".toList, "docker".toList], true⟩] ∧
      s'.lastReport (capabilityLoop false ⟨"host".toList, 1⟩) = some ["systemd".toList] ∧
      (s'.lastReport (capabilityLoop false ⟨"host".toList, 1⟩) =
          some (capabilities false dockerHost) ↔
        Round.LastHeard s'.rounds (capabilities false dockerHost)) := by
  constructor
  · have hrun : ((((machine (runProbe spareProbe)).run ⟨none, ⟨1, [], 0, false⟩, [], []⟩
        [.round ⟨.green, [], 3, 100⟩, .round ⟨.red, [], 9, 130⟩, .queue .take]).bind fun s =>
          (s.step (runProbe spareProbe) (.round ⟨.red, [], 8, 160⟩)).map fun s' =>
            (s.queue.refusal, s.rounds, (s'.rounds, s'.lastReport (runProbe spareProbe))))) =
        some (none, [⟨.green, true⟩, ⟨.red, false⟩],
          ([⟨.green, true⟩, ⟨.red, false⟩, ⟨.red, true⟩], some .green)) := by
      decide
    obtain ⟨s, s', hr, hs, hroom, _, hseen⟩ := Machine.run_seen hrun (.init ⟨rfl, rfl, rfl⟩)
    obtain ⟨hrounds, hlast⟩ := Prod.mk.inj hseen
    exact ⟨s', hrounds, hlast,
      (last_report_is_last_heard spareProbe false ⟨"host".toList, 1⟩).1 s s' _ hr hs hroom⟩
  · have hrun : ((((machine (capabilityLoop false ⟨"host".toList, 1⟩)).run
        ⟨⟨none, .fast, 0⟩, ⟨1, [], 0, false⟩, [], []⟩
        [.round bareHost, .round dockerHost, .queue .take]).bind fun s =>
          (s.step (capabilityLoop false ⟨"host".toList, 1⟩) (.round dockerHost)).map fun s' =>
            (s.queue.refusal, s.rounds,
              (s'.rounds, s'.lastReport (capabilityLoop false ⟨"host".toList, 1⟩))))) =
        some (none, [⟨["systemd".toList], true⟩,
            ⟨["systemd".toList, "docker".toList], false⟩],
          ([⟨["systemd".toList], true⟩, ⟨["systemd".toList, "docker".toList], false⟩,
            ⟨["systemd".toList, "docker".toList], true⟩], some ["systemd".toList])) := by
      rfl
    obtain ⟨s, s', hr, hs, hroom, _, hseen⟩ := Machine.run_seen hrun (.init ⟨rfl, rfl, rfl⟩)
    obtain ⟨hrounds, hlast⟩ := Prod.mk.inj hseen
    exact ⟨s', hrounds, hlast,
      (last_report_is_last_heard spareProbe false ⟨"host".toList, 1⟩).2 s s' _ hr hs hroom⟩

/-! ## A lost change -/

/-- Any reporter loses a change: `a` is reported and takes the last place in the
queue, `b` is refused, and when there is room again `b` is no change any more. -/
theorem loses (R : Reporter σ ω κ) {q : Outgoing} (hopen : q.closed = false)
    (hplace : q.accepted.length + 1 = q.taken + q.capacity) (htaken : q.taken ≤ q.accepted.length)
    {a b : ω} (hne : R.value a ≠ R.value b) :
    ∃ s s', (machine R).Reachable s ∧ s.step R (.round b) = some s' ∧ s.queue.refusal = none ∧
      s'.lastReport R = some (R.value a) := by
  have hroom : q.refusal = none := by
    rw [Outgoing.room_iff hopen]
    omega
  have hfirst : R.last R.start ≠ some (R.value a) := by
    rw [R.last_start]
    nofun
  have hsecond : R.last (R.reported R.start a) ≠ some (R.value b) := by
    rw [R.last_reported]
    exact fun h => hne (Option.some.inj h)
  have h₁ : (machine R).Reachable (ReporterState.round R ⟨R.start, q, [], []⟩ a) :=
    .step (i := .round a) (.init ⟨rfl, rfl, rfl⟩) trivial rfl
  rw [round_reported hfirst hroom] at h₁
  let full : Outgoing := { q with accepted := q.accepted ++ [R.report R.start a] }
  have hlength : full.accepted.length = q.accepted.length + 1 := List.length_append
  obtain ⟨e, hfull⟩ : ∃ e, full.refusal = some e := by
    rw [← Option.ne_none_iff_exists']
    intro h
    have hlt : full.accepted.length - q.taken < q.capacity :=
      (Outgoing.room_iff (q := full) hopen).mp h
    omega
  have h₂ := h₁.step (i := .round b) trivial rfl
  rw [round_refused hsecond hfull] at h₂
  let drained : Outgoing := { full with taken := q.taken + 1 }
  have hdrained : drained.refusal = none := by
    refine (Outgoing.room_iff (q := drained) hopen).mpr ?_
    show full.accepted.length - (q.taken + 1) < q.capacity
    omega
  have htake : full.take = some drained := by
    rw [Outgoing.take, if_pos (by rw [hlength]; show q.taken < _; omega)]
  have h₃ := h₂.step (i := .queue .take) trivial (by
    show (full.take).map _ = _
    rw [htake]
    rfl)
  refine ⟨_, _, h₃, rfl, hdrained, ?_⟩
  rw [round_idle (R.last_reported _ b)]
  exact R.carried_report R.start a

/-- The queue of `main` with one place left. -/
def almostFull : Outgoing :=
  ⟨256, List.replicate 255 (.trustedOperationHost "r" false []), 0, false⟩

theorem refused_change_is_lost :
    (¬∀ s s' sample, (machine (runProbe spareProbe)).Reachable s →
      s.step (runProbe spareProbe) (.round sample) = some s' → s.queue.refusal = none →
      s'.lastReport (runProbe spareProbe) = some sample.state) ∧
    ¬∀ s s' x, (machine (capabilityLoop false ⟨"host".toList, 1⟩)).Reachable s →
      s.step (capabilityLoop false ⟨"host".toList, 1⟩) (.round x) = some s' →
      s.queue.refusal = none →
      s'.lastReport (capabilityLoop false ⟨"host".toList, 1⟩) = some (capabilities false x) := by
  have hlength : almostFull.accepted.length = 255 := List.length_replicate
  have hplace : almostFull.accepted.length + 1 = 0 + 256 := by omega
  constructor
  · intro h
    obtain ⟨s, s', hr, hs, hroom, hlast⟩ := loses (runProbe spareProbe) (q := almostFull) rfl
      hplace (Nat.zero_le _) (a := ⟨.green, [], 3, 100⟩) (b := ⟨.red, [], 3, 130⟩) (by decide)
    have := h s s' _ hr hs hroom
    rw [hlast] at this
    cases this
  · intro h
    obtain ⟨s, s', hr, hs, hroom, hlast⟩ := loses (capabilityLoop false ⟨"host".toList, 1⟩)
      (q := almostFull) rfl hplace (Nat.zero_le _)
      (a := { bareHost with dockerAvailable := true }) (b := bareHost) (by decide)
    have := h s s' _ hr hs hroom
    rw [hlast] at this
    cases this

end ShellfleetAgent.Agent.Reporters
