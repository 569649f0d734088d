import ShellfleetAgent.Privileged.Deadline
import ShellfleetAgent.Proofs.Pty

/-!
# What is done after the deadline

The loop acts for a session whose time is up in two ways: a `select!` that finds the
timer gone off takes another branch all the same, or the timer goes off while another
branch's body is at work. In a run without either, nothing is done after the deadline;
and each of them ends in an action that is over too late, whatever comes of its write.
-/

namespace ShellfleetAgent.Privileged

open ShellfleetAgent.Lib

variable {x : Externals} {s s' : TimedPty}

/-- What a step does to the timer, the body at work and the actions. -/
inductive TimedStep (x : Externals) (s s' : TimedPty) : TimedLabel → Prop
  | fired (h : s' = { s with fired := true }) : TimedStep x s s' .fire
  | entered {branch : Branch} (hselect : s.Selecting) (hready : branch.ready s.pty)
      (h : s' = { s with body := some branch }) : TimedStep x s s' (.enter branch)
  | left {branch : Branch} {io : PtyIo} {pty : PtyState} (hbody : s.body = some branch)
      (hpty : s.pty.step x (branch.label io) = some pty)
      (h : s' = { s with
        pty
        body := none
        actions := s.actions ++ ((branch.action x s.pty).map (·, s.fired)).toList }) :
      TimedStep x s s' (.leave io)
  | wrote {body : Bytes} {pty : PtyState} (hpty : s.pty.step x (.write body) = some pty)
      (h : s' = { s with pty }) : TimedStep x s s' (.pty (.write body))
  | moved {l : PtyLabel} {pty : PtyState} (hpty : s.pty.step x l = some pty)
      (hfree : s.pty.stage = .select → s.body = none) (h : s' = { s with pty }) :
      TimedStep x s s' (.pty l)

theorem answer_not_selecting {result : Except String Unit} {s pty : PtyState}
    (h : s.step x (.answer result) = some pty) : s.stage ≠ .select := by
  intro hstage
  simp [PtyState.step, PtyState.answer, hstage] at h

theorem timed_cases {label : TimedLabel} (hs : s.step x label = some s') :
    TimedStep x s s' label := by
  cases label with
  | fire =>
      simp only [TimedPty.step] at hs
      split at hs
      · exact .fired (Option.some.inj hs).symm
      · cases hs
  | enter branch =>
      simp only [TimedPty.step] at hs
      split at hs
      · next h => exact .entered h.1 h.2 (Option.some.inj hs).symm
      · cases hs
  | leave io =>
      simp only [TimedPty.step] at hs
      split at hs
      · cases hs
      · next branch hbody =>
          obtain ⟨pty, hpty, rfl⟩ := Option.map_eq_some_iff.mp hs
          exact .left hbody hpty rfl
  | pty l =>
      cases l with
      | write body =>
          obtain ⟨pty, hpty, rfl⟩ := Option.map_eq_some_iff.mp hs
          exact .wrote hpty rfl
      | answer result =>
          obtain ⟨pty, hpty, rfl⟩ := Option.map_eq_some_iff.mp hs
          exact .moved hpty (fun hstage => absurd hstage (answer_not_selecting hpty)) rfl
      | deadline =>
          simp only [TimedPty.step] at hs
          split at hs
          · next h =>
              obtain ⟨pty, hpty, rfl⟩ := Option.map_eq_some_iff.mp hs
              exact .moved hpty (fun _ => h.1.2) rfl
          · cases hs
      | readError =>
          simp only [TimedPty.step] at hs
          split at hs
          · next h =>
              obtain ⟨pty, hpty, rfl⟩ := Option.map_eq_some_iff.mp hs
              exact .moved hpty (fun _ => h.2) rfl
          · cases hs
      | output data io => cases hs
      | poll n io => cases hs

/-- Forgetting the timer, a session is one of `ptyMachine`. -/
theorem timed_step {label : TimedLabel} (hs : s.step x label = some s') :
    s'.pty = s.pty ∨ ∃ l, s.pty.step x l = some s'.pty := by
  cases timed_cases hs with
  | fired h =>
      subst h
      exact .inl rfl
  | entered _ _ h =>
      subst h
      exact .inl rfl
  | left _ hpty h =>
      subst h
      exact .inr ⟨_, hpty⟩
  | wrote hpty h =>
      subst h
      exact .inr ⟨_, hpty⟩
  | moved hpty _ h =>
      subst h
      exact .inr ⟨_, hpty⟩

theorem timed_reachable (hr : (timedPtyMachine x).Reachable s) :
    (ptyMachine x).Reachable s.pty := by
  induction hr with
  | init h => exact .init h.1
  | step _ _ hs ih =>
      rcases timed_step hs with heq | ⟨l, hl⟩
      · rw [heq]
        exact ih
      · exact ih.step trivial hl

/-! ## Bodies at work -/

/-- What the relay writes meanwhile makes no difference to a branch that was ready. -/
theorem write_action {branch : Branch} {body : Bytes} {pty : PtyState}
    (hready : branch.ready s.pty) (h : s.pty.step x (.write body) = some pty) :
    branch.ready pty ∧ branch.action x pty = branch.action x s.pty ∧
      pty.stage = s.pty.stage := by
  simp only [PtyState.step] at h
  split at h
  · cases h
    cases branch with
    | output data => exact ⟨trivial, by cases data <;> rfl, rfl⟩
    | incoming n =>
        obtain ⟨hpos, hlen, hwants⟩ := hready
        refine ⟨⟨hpos, ?_, hwants⟩, ?_, rfl⟩
        · show n ≤ (s.pty.stream ++ frameBytes body).length
          rw [List.length_append]
          omega
        · simp only [Branch.action]
          rw [List.take_append_of_le_length hlen]
  · cases h

/-- A branch whose body is at work was ready, and the loop waits for it. -/
def Working (s : TimedPty) : Prop :=
  ∀ branch, s.body = some branch → s.pty.stage = .select ∧ branch.ready s.pty

theorem idle_working (h : s.body = none) : Working s := by
  intro branch hbody
  rw [h] at hbody
  cases hbody

theorem working_step (hw : Working s) {label : TimedLabel} (hs : s.step x label = some s') :
    Working s' := by
  cases timed_cases hs with
  | fired h =>
      subst h
      exact hw
  | entered hselect hready h =>
      subst h
      intro branch hbody
      cases hbody
      exact ⟨hselect.1, hready⟩
  | left _ _ h =>
      subst h
      exact idle_working rfl
  | wrote hpty h =>
      subst h
      intro branch hbody
      obtain ⟨hstage, hready⟩ := hw branch hbody
      obtain ⟨hready', _, hstage'⟩ := write_action hready hpty
      exact ⟨hstage'.trans hstage, hready'⟩
  | moved _ hfree h =>
      subst h
      intro branch hbody
      -- while a body is at work, the loop takes no other branch and awaits no call
      rw [hfree (hw branch hbody).1] at hbody
      cases hbody

theorem working (hr : (timedPtyMachine x).Reachable s) : Working s := by
  refine hr.invariant ?_ ?_
  · intro s h
    exact idle_working h.2.2.1
  · intro s label s' _ hw _ hs
    exact working_step (x := x) hw hs

/-- A body at work comes to its end, with any outcome. -/
theorem leave_enabled (hw : Working s) {branch : Branch} (hbody : s.body = some branch)
    (io : PtyIo) : ∃ s', s.step x (.leave io) = some s' ∧
      s'.actions = s.actions ++ ((branch.action x s.pty).map (·, s.fired)).toList := by
  obtain ⟨hstage, hready⟩ := hw branch hbody
  obtain ⟨pty, hpty⟩ : ∃ pty, s.pty.step x (branch.label io) = some pty := by
    cases branch with
    | output data => exact ⟨_, if_pos hstage⟩
    | incoming n => exact ⟨_, if_pos ⟨hstage, hready⟩⟩
  refine ⟨{ s with
    pty
    body := none
    actions := s.actions ++ ((branch.action x s.pty).map (·, s.fired)).toList }, ?_, rfl⟩
  simp only [TimedPty.step, hbody]
  rw [hpty]
  rfl

/-! ## Timely runs -/

/-- The timer goes off while no body has anything to do for the session, and after
that no branch is taken whose body has. -/
def Timely (x : Externals) (s : TimedPty) : TimedLabel → Prop
  | .fire => ∀ branch, s.body = some branch → branch.action x s.pty = none
  | .enter branch => s.fired = true → branch.action x s.pty = none
  | .leave _ | .pty _ => True

/-- Nothing has been done too late, and nothing is about to be. -/
structure OnTime (x : Externals) (s : TimedPty) : Prop where
  done : s.InTime
  working : Working s
  body : s.fired = true → ∀ branch, s.body = some branch → branch.action x s.pty = none

/-- What a body leaves behind was over in time, if it had nothing to do once the timer had
gone off. -/
theorem inTime_leave (h : OnTime x s) {branch : Branch} (hbody : s.body = some branch) :
    ∀ entry ∈ s.actions ++ ((branch.action x s.pty).map (·, s.fired)).toList,
      entry.2 = false := by
  intro entry hentry
  rcases List.mem_append.mp hentry with hentry | hentry
  · exact h.done entry hentry
  · cases haction : branch.action x s.pty with
    | none =>
        rw [haction] at hentry
        cases hentry
    | some action =>
        rw [haction, Option.map_some, Option.toList_some, List.mem_singleton] at hentry
        rw [hentry, ← Bool.not_eq_true]
        intro hfired
        rw [h.body hfired branch hbody] at haction
        cases haction

theorem onTime_step (h : OnTime x s) {label : TimedLabel} (hok : Timely x s label)
    (hs : s.step x label = some s') : OnTime x s' := by
  have hworking := working_step h.working hs
  cases timed_cases hs with
  | fired heq =>
      subst heq
      exact ⟨h.done, hworking, fun _ => hok⟩
  | entered _ _ heq =>
      subst heq
      refine ⟨h.done, hworking, ?_⟩
      intro hfired branch hbody
      cases hbody
      exact hok hfired
  | left hbody _ heq =>
      subst heq
      exact ⟨inTime_leave h hbody, hworking, nofun⟩
  | wrote hpty heq =>
      subst heq
      refine ⟨h.done, hworking, ?_⟩
      intro hfired branch hbody
      rw [(write_action (h.working branch hbody).2 hpty).2.1]
      exact h.body hfired branch hbody
  | moved _ hfree heq =>
      subst heq
      refine ⟨h.done, hworking, ?_⟩
      intro _ branch hbody
      rw [hfree (h.working branch hbody).1] at hbody
      cases hbody

theorem onTime (hr : (timedPtyMachine x).Reach (Timely x) s) : OnTime x s := by
  refine hr.invariant ?_ ?_
  · intro s ⟨_, _, hbody, hactions⟩
    refine ⟨?_, idle_working hbody, ?_⟩
    · intro entry hentry
      rw [hactions] at hentry
      cases hentry
    · intro _ branch h
      rw [hbody] at h
      cases h
  · intro s label s' _ h hok hs
    exact onTime_step h hok hs

/-- A step that is not timely has its body end in an action that is over too late. -/
theorem untimely {label : TimedLabel} (hw : Working s) (hlate : ¬Timely x s label)
    (hs : s.step x label = some s') (io : PtyIo) :
    ∃ s'', s'.step x (.leave io) = some s'' ∧ ¬s''.InTime := by
  have hworking := working_step hw hs
  obtain ⟨branch, action, hfired, hbody, haction⟩ : ∃ branch action, s'.fired = true ∧
      s'.body = some branch ∧ branch.action x s'.pty = some action := by
    cases timed_cases hs with
    | fired h =>
        subst h
        simp only [Timely, not_forall] at hlate
        obtain ⟨branch, hbody, haction⟩ := hlate
        obtain ⟨action, haction⟩ := Option.ne_none_iff_exists'.mp haction
        exact ⟨branch, action, rfl, hbody, haction⟩
    | entered _ _ h =>
        subst h
        simp only [Timely, not_forall] at hlate
        obtain ⟨hfired, haction⟩ := hlate
        obtain ⟨action, haction⟩ := Option.ne_none_iff_exists'.mp haction
        exact ⟨_, action, hfired, rfl, haction⟩
    | left | wrote | moved => exact absurd trivial hlate
  obtain ⟨s'', hleave, hactions⟩ := leave_enabled hworking hbody io
  refine ⟨s'', hleave, fun hin => ?_⟩
  rw [haction, hfired] at hactions
  have hentry : (action, true) ∈ s''.actions := by
    rw [hactions]
    exact List.mem_append_right _ (List.mem_singleton_self _)
  cases hin _ hentry

/-- In a run whose steps are timely nothing is done after the deadline, and a step
that is not timely leads to something that is. -/
theorem nothing_after_deadline (x : Externals) :
    (∀ s, (timedPtyMachine x).Reach (Timely x) s → s.InTime) ∧
    ∀ s label s', (timedPtyMachine x).Reachable s → s.step x label = some s' →
      ¬Timely x s label → ∀ io, ∃ s'', s'.step x (.leave io) = some s'' ∧ ¬s''.InTime :=
  ⟨fun _ hr => (onTime hr).done,
    fun _ _ _ hr hs hlate io => untimely (working hr) hlate hs io⟩

/-! ## Runs -/

instance (s : TimedPty) : Decidable s.InTime :=
  inferInstanceAs (Decidable (∀ entry ∈ s.actions, entry.2 = false))

instance (x : Externals) (s : TimedPty) : ∀ label, Decidable (Timely x s label)
  | .fire => inferInstanceAs (Decidable (∀ branch ∈ s.body, branch.action x s.pty = none))
  | .enter branch =>
      inferInstanceAs (Decidable (s.fired = true → branch.action x s.pty = none))
  | .leave _ | .pty _ => inferInstanceAs (Decidable True)

def timedStart : TimedPty := ⟨ptyStart, false, none, []⟩

theorem timedStart_init (x : Externals) : (timedPtyMachine x).init timedStart :=
  ⟨ptyStart_init, rfl, rfl, rfl⟩

def timedSetup : List TimedLabel := ptySetup.map .pty

/-- Some output, and then the deadline. -/
theorem timely_session :
    ∃ s, (timedPtyMachine plainExternals).Reach (Timely plainExternals) s ∧
      s.pty.stage = .kill ∧ s.actions = [(.relayed [36], false)] ∧ s.InTime := by
  have hrun : ((timedPtyMachine plainExternals).runWithin (Timely plainExternals) timedStart
      (timedSetup ++ [TimedLabel.enter (.output (some [36])), .leave {}, .fire,
        .pty .deadline])).map
      (fun s => (s.pty.stage, s.actions)) = some (.kill, [(.relayed [36], false)]) := by
    decide
  obtain ⟨s, hs, hseen⟩ := Option.map_eq_some_iff.mp hrun
  have hr := Machine.Reach.runWithin (.init (timedStart_init plainExternals)) hs
  exact ⟨s, hr, congrArg Prod.fst hseen, congrArg Prod.snd hseen,
    (nothing_after_deadline plainExternals).1 s hr⟩

/-- The timer goes off while a frame waits for the relay to read on, and the next
`select!` takes the output branch again. -/
theorem acts_after_deadline :
    ¬∀ s, (timedPtyMachine plainExternals).Reachable s → s.InTime := by
  have hrun : ((timedPtyMachine plainExternals).run timedStart
      (timedSetup ++ [TimedLabel.enter (.output (some [36])), .fire, .leave {},
        .enter (.output (some [37])), .leave {}])).map (fun s => s.actions) =
      some [(.relayed [36], true), (.relayed [37], true)] := by
    decide
  obtain ⟨s, hs, hactions⟩ := Option.map_eq_some_iff.mp hrun
  have hr := Machine.Reach.run (.init (timedStart_init plainExternals)) hs
  intro h
  have hlate := h s hr (.relayed [36], true) (by
    rw [hactions]
    exact List.mem_cons_self ..)
  cases hlate

end ShellfleetAgent.Privileged
