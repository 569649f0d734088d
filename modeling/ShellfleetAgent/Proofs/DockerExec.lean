import ShellfleetAgent.Proofs.Terminals

/-!
# One `docker exec` at a time

A `docker exec` has no id: its output goes out under the empty one, as that of the
session before did and does, until its reader finds the end. So the output under the
empty id is the last session's if there is nothing left to come of the others when the
session is reported to have started; and if there is, it may come.
-/

namespace ShellfleetAgent.Agent.Terminals

open ShellfleetAgent.Lib

variable {s s' : State} {label : Label}

/-! ## What the log says -/

/-- A session, and whether its start was reported. -/
structure ExecRecord where
  handle : Nat
  containerId : Str
  answered : Bool

def ExecRecord.next (current : Option ExecRecord) : Event → Option ExecRecord
  | .started handle containerId => some ⟨handle, containerId, false⟩
  | .sent .main (.dockerExecStartResponse containerId true _) =>
      current.map fun exec =>
        { exec with answered := exec.answered || exec.containerId == containerId }
  | .sent _ _ => current

/-- The session that was started last. -/
def current (log : List Event) : Option ExecRecord := log.foldl ExecRecord.next none

/-- Once a session's start was reported, the output under the empty id is its own, until
the next one is started. -/
def OwnOutput (log : List Event) : Prop :=
  ∀ before origin data after, log = before ++ .sent origin (.terminalData [] data) :: after →
    ∀ exec, current before = some exec → exec.answered = true → origin = .pty exec.handle

theorem current_concat (log : List Event) (e : Event) :
    current (log ++ [e]) = ExecRecord.next (current log) e := by
  rw [current, List.foldl_append]
  rfl

theorem next_sent {origin : Origin} (h : origin ≠ .main) (exec : Option ExecRecord)
    (message : Message) : ExecRecord.next exec (.sent origin message) = exec := by
  unfold ExecRecord.next
  split
  · next heq => cases heq
  · next heq =>
      cases heq
      exact absurd rfl h
  · rfl

theorem OwnOutput.concat {log : List Event} {e : Event} (h : OwnOutput log)
    (he : ∀ origin data, e = .sent origin (.terminalData [] data) →
      ∀ exec, current log = some exec → exec.answered = true → origin = .pty exec.handle) :
    OwnOutput (log ++ [e]) := by
  intro before origin data after heq
  rcases concat_split heq with ⟨rfl, hlast, _⟩ | ⟨after', _, heq⟩
  · exact he origin data hlast.symm
  · exact h before origin data after' heq

/-! ## The condition -/

/-- Its reader is at its end, or has nothing in hand and nothing more to read. -/
def Pty.Spent (pty : Pty) : Prop :=
  pty.reader = .reaping ∨ pty.reader = .returned ∨
    (pty.reader = .reading ∧ pty.output = [] ∧ pty.hungUp = true)
  deriving Decidable

theorem Pty.spent_iff {pty : Pty} : pty.Spent ↔ (∀ data, pty.reader ≠ .holding data) ∧
    (pty.reader = .reading → pty.output = [] ∧ pty.hungUp = true) := by
  rw [Pty.Spent]
  cases pty.reader <;> simp

/-- The other shells without an id are spent when a start is reported, and no pod's shell
is requested without an id. -/
def Alone (s : State) : Label → Prop
  | .respond =>
      match s.main with
      | .responding (.dockerExecStartResponse _ true _) =>
          ∀ h < s.ptys.length, ∀ pty ∈ s.ptys[h]?, pty.sessionId = [] →
            s.execSession ≠ some h → pty.Spent
      | _ => True
  | .message (.k8sExecRequest sessionId _ _ _ _) _ => sessionId ≠ []
  | _ => True

theorem Pty.Spent.step {pty pty' : Pty} {h : Nat} (hspent : pty.Spent)
    (hstep : PtyStep label h pty pty') : pty'.Spent := by
  rw [Pty.spent_iff] at hspent ⊢
  obtain ⟨hhand, hread⟩ := hspent
  rcases hstep with hsame | ⟨l, message, _, hstep⟩
  · rw [hsame.reader, hsame.output, hsame.hungUp]
    exact ⟨hhand, hread⟩
  · cases Pty.step_move hstep with
    | hangUp => exact ⟨hhand, fun hreading => ⟨(hread hreading).1, rfl⟩⟩
    | print hup =>
        refine ⟨hhand, fun hreading => absurd (hread hreading).2 ?_⟩
        rw [hup]
        exact Bool.false_ne_true
    | read hreader hpos hn =>
        rw [(hread hreader).1, List.length_nil] at hn
        omega
    | send hreader => exact absurd hreader (hhand _)
    | readEnd | reap => exact ⟨nofun, nofun⟩
    | exit | write | writeEnd | resize | resizeEnd => exact ⟨hhand, hread⟩

/-! ## What the main loop is about to answer -/

/-- What a step does to the main loop. -/
inductive Turn (s s' : State) (label : Label) : Prop
  | kept (main : s'.main = s.main) (exec : s'.execSession = s.execSession)
      (log : current s'.log = current s.log)
  | idle (main : s'.main = .idle)
  | connecting {x ns pod : Str} {container : Option Str} {command : List Str}
      {spawned : Except Str Unit}
      (hlabel : label = .message (.k8sExecRequest x ns pod container command) spawned)
      (main : s'.main = .connecting x)
  | failed {message : Message} (main : s'.main = .responding message)
      (hdata : ∀ x data, message ≠ .terminalData x data)
      (hexec : ∀ cid e, message ≠ .dockerExecStartResponse cid true e)
  | started {cid : Str} (main : s'.main = .responding (.dockerExecStartResponse cid true none))
      (exec : s'.execSession = some s.ptys.length)
      (log : s'.log = s.log ++ [Event.started s.ptys.length cid])

namespace State

@[simp] theorem dropPty_main (handle : Option Nat) : (s.dropPty handle).main = s.main := by
  cases handle <;> rfl

@[simp] theorem abortPod_main (handle : Option Nat) : (s.abortPod handle).main = s.main := by
  cases handle <;> rfl

@[simp] theorem sendInput_main (data : Bytes) (session : Option (Nat ⊕ Nat)) :
    (s.sendInput data session).main = s.main := by
  unfold sendInput
  split <;> rfl

@[simp] theorem sendSize_main (size : Nat × Nat) (session : Option (Nat ⊕ Nat)) :
    (s.sendSize size session).main = s.main := by
  unfold sendSize
  split <;> rfl

@[simp] theorem startTerminal_main (x : Str) (spawned : Except Str Unit) :
    (s.startTerminal x spawned).main = s.main := by
  unfold startTerminal
  repeat' split
  all_goals rfl

@[simp] theorem stopTerminal_main (x : Str) : (s.stopTerminal x).main = s.main := by
  simp [stopTerminal]

@[simp] theorem stopDockerExec_main : s.stopDockerExec.main = s.main := by
  simp [stopDockerExec]

@[simp] theorem send_main (origin : Origin) (message : Message) :
    (s.send origin message).main = s.main := by
  rcases s.send_cases origin message with ⟨_, _, heq⟩ | ⟨_, heq⟩
  · rw [heq]
  · rw [heq]

@[simp] theorem sends_main (origin : Origin) (message : Option Message) :
    (s.sends origin message).main = s.main := by
  cases message with
  | none => rfl
  | some message => exact send_main origin message

end State

/-- What another than the main loop sends changes nothing of this. -/
theorem current_sends {origin : Origin} (h : origin ≠ .main) (message : Option Message) :
    current (s.sends origin message).log = current s.log := by
  rcases sends_log s origin message with hlog | ⟨m, _, hlog⟩
  · rw [hlog]
  · rw [hlog, current_concat, next_sent h]

theorem Turn.of_sends {t : State} {origin : Origin} (h : origin ≠ .main)
    (message : Option Message) (hmain : t.main = s.main) (hexec : t.execSession = s.execSession)
    (hlog : t.log = s.log) : Turn s (t.sends origin message) label := by
  refine .kept ?_ ?_ ?_
  · rw [State.sends_main, hmain]
  · rw [(t.same_sends origin message).execSession, hexec]
  · rw [current_sends h, hlog]

theorem startDockerExec_turn (cid shell : Str) (spawned : Except Str Unit) :
    Turn s (s.startDockerExec cid shell spawned) label := by
  unfold State.startDockerExec
  split
  · exact .failed rfl nofun nofun
  · exact .failed rfl nofun nofun
  · refine .started rfl ?_ ?_
    · show some (s.dropPty s.execSession).ptys.length = some s.ptys.length
      rw [State.dropPty_length]
    · show (s.dropPty s.execSession).log ++
        [Event.started (s.dropPty s.execSession).ptys.length cid] =
        s.log ++ [Event.started s.ptys.length cid]
      rw [State.dropPty_length, State.dropPty_log]

theorem handle_turn (hidle : s.main = .idle) (message : ControlMessage)
    (spawned : Except Str Unit) :
    Turn s (s.handle message spawned) (.message message spawned) := by
  cases message with
  | startTerminalRequest x => exact .idle ((State.startTerminal_main x spawned).trans hidle)
  | stopTerminalRequest x => exact .idle ((State.stopTerminal_main x).trans hidle)
  | terminalData x data => exact .idle ((State.sendInput_main data _).trans hidle)
  | terminalResize x cols rows => exact .idle ((State.sendSize_main (cols, rows) _).trans hidle)
  | dockerExecStopRequest => exact .idle (State.stopDockerExec_main.trans hidle)
  | k8sExecRequest x ns pod container command => exact .connecting rfl rfl
  | dockerExecStartRequest cid shell =>
      exact startDockerExec_turn cid shell spawned

theorem step_turn (hs : s.step label = some s') : Turn s s' label := by
  cases label with
  | respond =>
      simp only [State.step] at hs
      split at hs
      · cases hs
        exact .idle rfl
      · cases hs
  | connected result =>
      simp only [State.step] at hs
      split at hs
      · cases hs
        cases result with
        | ok | error =>
            refine .failed rfl ?_ ?_
            · intro _ _ hmessage
              cases hmessage
            · intro _ _ hmessage
              cases hmessage
      · cases hs
  | pty h l =>
      simp only [State.step, State.stepPty] at hs
      split at hs
      · cases hs
      · obtain ⟨⟨pty, message⟩, _, rfl⟩ := Option.map_eq_some_iff.mp hs
        refine .of_sends ?_ message rfl rfl rfl
        intro horigin
        cases horigin
  | pod h l =>
      simp only [State.step, State.stepPod] at hs
      split at hs
      · cases hs
      · obtain ⟨⟨pod, message⟩, _, rfl⟩ := Option.map_eq_some_iff.mp hs
        refine .of_sends ?_ message rfl rfl rfl
        intro horigin
        cases horigin
  | queue e =>
      simp only [State.step, State.stepQueue] at hs
      split at hs
      · cases hs
      · next message _ =>
          cases hs
          refine .of_sends ?_ (some message) rfl rfl rfl
          intro horigin
          cases horigin
      · obtain ⟨queue, _, rfl⟩ := Option.map_eq_some_iff.mp hs
        exact .kept rfl rfl rfl
      · cases hs
        exact .kept rfl rfl rfl
  | message message spawned =>
      obtain ⟨hidle, rfl⟩ := message_idle hs
      exact handle_turn hidle message spawned

/-- The answer that the main loop is about to give sends no output; and a success is that
of the session it holds, which was started last. -/
structure Tracked (s : State) : Prop where
  data : ∀ message, s.main = .responding message → ∀ x data, message ≠ .terminalData x data
  exec : ∀ cid e, s.main = .responding (.dockerExecStartResponse cid true e) →
    ∃ exec, current s.log = some exec ∧ exec.containerId = cid ∧
      s.execSession = some exec.handle

theorem Tracked.of_not_responding (h : ∀ message, s.main ≠ .responding message) : Tracked s where
  data message hmain := absurd hmain (h message)
  exec _ _ hmain := absurd hmain (h _)

theorem Tracked.step (hI : Tracked s) (hs : s.step label = some s') : Tracked s' := by
  rcases step_turn hs with ⟨hmain, hexec, hlog⟩ | ⟨hmain⟩ | ⟨_, hmain⟩ | ⟨hmain, hdata, hfail⟩ |
    ⟨hmain, hexec, hlog⟩
  · refine ⟨?_, ?_⟩
    · rw [hmain]
      exact hI.data
    · rw [hmain, hexec, hlog]
      exact hI.exec
  · exact .of_not_responding fun message => by
      rw [hmain]
      exact nofun
  · exact .of_not_responding fun message => by
      rw [hmain]
      exact nofun
  · refine ⟨?_, ?_⟩
    · intro m hm
      rw [hmain] at hm
      cases hm
      exact hdata
    · intro cid e hm
      rw [hmain] at hm
      cases hm
      exact absurd rfl (hfail cid e)
  · refine ⟨?_, ?_⟩
    · intro m hm
      rw [hmain] at hm
      cases hm
      exact nofun
    · intro cid e hm
      rw [hmain] at hm
      cases hm
      refine ⟨⟨s.ptys.length, _, false⟩, ?_, rfl, hexec⟩
      rw [hlog, current_concat]
      rfl

theorem tracked (hr : terminals.Reachable s) : Tracked s := by
  refine hr.invariant ?_ ?_
  · intro s ⟨_, _, _, _, _, hmain, _⟩
    exact .of_not_responding fun message => by
      rw [hmain]
      exact nofun
  · intro s label s' _ hI _ hs
    exact hI.step hs

/-! ## Runs that meet the condition -/

/-- The shells without an id other than the one that was started last. -/
def OthersSpent (s : State) : Prop :=
  ∀ exec, current s.log = some exec → exec.answered = true →
    ∀ (h : Nat) (pty : Pty), s.ptys[h]? = some pty → pty.sessionId = [] → h ≠ exec.handle →
      pty.Spent

structure Alone.Inv (s : State) : Prop where
  pods : ∀ (h : Nat) (pod : PodExec), s.pods[h]? = some pod → pod.sessionId ≠ []
  connecting : ∀ x, s.main = .connecting x → x ≠ []
  others : OthersSpent s
  own : OwnOutput s.log

theorem PodStep.sessionId {h : Nat} {pod pod' : PodExec} (hstep : PodStep s label h pod pod') :
    pod'.sessionId = pod.sessionId := by
  cases hstep with
  | fed hsame => exact hsame.sessionId
  | aborted _ => rfl
  | own _ hs _ => exact (PodExec.step_kept hs).1

/-- What is new on record is a start, or leaves the last one as it is, or reports it. -/
theorem Logged.next_cases {e : Event} (h : Logged s label e) (hI : Tracked s) :
    (∃ handle cid, e = .started handle cid) ∨
      ExecRecord.next (current s.log) e = current s.log ∨
      ∃ (cid : Str) (e' : Option Str) (exec : ExecRecord), label = .respond ∧
        s.main = .responding (.dockerExecStartResponse cid true e') ∧
        s.execSession = some exec.handle ∧
        ExecRecord.next (current s.log) e = some { exec with answered := true } := by
  cases h with
  | started cid shell => exact .inl ⟨_, _, rfl⟩
  | pty _ _ => exact .inr (.inl rfl)
  | pod _ data => exact .inr (.inl rfl)
  | other _ => exact .inr (.inl rfl)
  | @main message hmain =>
      unfold ExecRecord.next
      split
      · next heq => cases heq
      · next cid e' heq =>
          cases heq
          obtain ⟨exec, hcurrent, rfl, hexec⟩ := hI.exec cid e' hmain
          refine .inr (.inr ⟨_, e', exec, rfl, hmain, hexec, ?_⟩)
          rw [hcurrent, Option.map_some, beq_self_eq_true, Bool.or_true]
      · exact .inr (.inl rfl)

/-- A new shell without an id was just started. -/
theorem NewPty.started {pty : Pty} (hnew : NewPty s s' pty) (hid : pty.sessionId = []) :
    ∃ cid, s'.log = s.log ++ [Event.started s.ptys.length cid] := by
  rcases hnew with ⟨x, hx, rfl⟩ | ⟨_, hlog⟩
  · exact absurd hid hx
  · exact hlog

theorem OthersSpent.step (hI : OthersSpent s) (hT : Tracked s) (hok : Alone s label)
    (hs : s.step label = some s') : OthersSpent s' := by
  intro exec hcurrent hanswered h pty' hpty' hid hother
  have hm := step_moves hs
  rcases hm.ptys.origin h pty' hpty' with ⟨pty, hpty, hstep⟩ | ⟨_, hnew⟩
  · rw [hstep.sessionId] at hid
    refine Pty.Spent.step ?_ hstep
    rcases hm.log with hlog | ⟨e, hlogged, hlog⟩
    · rw [hlog] at hcurrent
      exact hI exec hcurrent hanswered h pty hpty hid hother
    · rw [hlog, current_concat] at hcurrent
      rcases hlogged.next_cases hT with ⟨handle, cid, rfl⟩ | hsame |
        ⟨cid, e', exec', rfl, hmain, hexec, hnext⟩
      · cases hcurrent
        cases hanswered
      · rw [hsame] at hcurrent
        exact hI exec hcurrent hanswered h pty hpty hid hother
      · -- The start is reported, and the others were found to be spent.
        rw [hnext] at hcurrent
        cases hcurrent
        simp only [Alone, hmain] at hok
        refine hok h (List.getElem?_eq_some_iff.mp hpty).1 pty hpty hid ?_
        rw [hexec]
        intro heq
        exact hother (Option.some.inj heq).symm
  · obtain ⟨cid, hlog⟩ := hnew.started hid
    rw [hlog, current_concat] at hcurrent
    cases hcurrent
    cases hanswered

theorem Alone.Inv.own_step (hI : Alone.Inv s) (hT : Tracked s) (hs : s.step label = some s') :
    OwnOutput s'.log := by
  rcases (step_moves hs).log with hlog | ⟨e, hlogged, hlog⟩
  · rw [hlog]
    exact hI.own
  · rw [hlog]
    refine hI.own.concat ?_
    intro origin data heq exec hcurrent hanswered
    cases hlogged with
    | started cid shell => cases heq
    | main hmain =>
        cases heq
        exact absurd rfl (hT.data _ hmain [] data)
    | @pty h pty data' hpty hreader =>
        injection heq with horigin hmessage
        injection hmessage with hid _
        by_cases hown : h = exec.handle
        · rw [← horigin, hown]
        · have hspent := hI.others exec hcurrent hanswered h pty hpty hid hown
          exact absurd hreader ((Pty.spent_iff.mp hspent).1 data')
    | pod hpod data' =>
        injection heq with _ hmessage
        injection hmessage with hid _
        exact absurd hid (hI.pods _ _ hpod)
    | other hother =>
        cases heq
        exact absurd rfl (hother [] data)

theorem Alone.Inv.step (hI : Alone.Inv s) (hT : Tracked s) (hok : Alone s label)
    (hs : s.step label = some s') : Alone.Inv s' where
  pods := by
    refine (step_moves hs).pods.invariant hI.pods ?_ ?_
    · intro h pod pod' hstep hid
      rw [hstep.sessionId]
      exact hid
    · rintro _ ⟨x, hmain, rfl⟩
      exact hI.connecting x hmain
  connecting x hx := by
    rcases step_turn hs with ⟨hmain, _, _⟩ | ⟨hmain⟩ | ⟨rfl, hmain⟩ | ⟨hmain, _, _⟩ | ⟨hmain, _, _⟩
    · exact hI.connecting x (hmain ▸ hx)
    · cases hmain.symm.trans hx
    · cases hmain.symm.trans hx
      exact hok
    · cases hmain.symm.trans hx
    · cases hmain.symm.trans hx
  others := hI.others.step hT hok hs
  own := hI.own_step hT hs

theorem alone (hr : terminals.Reach Alone s) : Alone.Inv s := by
  refine hr.invariant ?_ ?_
  · intro s ⟨hptys, hpods, _, _, _, hmain, hlog⟩
    refine ⟨?_, ?_, ?_, ?_⟩
    · intro h pod hpod
      rw [hpods] at hpod
      cases hpod
    · intro x hx
      rw [hmain] at hx
      cases hx
    · intro exec hcurrent
      rw [hlog] at hcurrent
      cases hcurrent
    · intro before origin data after heq
      rw [hlog] at heq
      exact absurd (congrArg List.length heq) (by simp)
  · intro s label s' hr hI hok hs
    exact hI.step (tracked hr.reachable) hok hs

/-! ## A step that does not meet it -/

/-- Another shell without an id, once a start was reported. -/
structure Foreign (s : State) (exec : ExecRecord) (h : Nat) (pty : Pty) : Prop where
  current : current s.log = some exec
  answered : exec.answered = true
  found : s.ptys[h]? = some pty
  id : pty.sessionId = []
  other : h ≠ exec.handle
  room : s.queue.refusal = none

variable {exec : ExecRecord} {h : Nat} {pty : Pty}

/-- What its reader has in hand comes out. -/
theorem Foreign.send (hf : Foreign s exec h pty) {data : Bytes}
    (hreader : pty.reader = .holding data) :
    ∃ s', s.step (.pty h .send) = some s' ∧ ¬OwnOutput s'.log := by
  have hsend : pty.step .send =
      some ({ pty with reader := .reading }, some (.terminalData [] data)) := by
    rw [Pty.step, hreader, hf.id]
  refine ⟨{ s with ptys := s.ptys.set h { pty with reader := .reading } }.send (.pty h)
    (.terminalData [] data), ?_, ?_⟩
  · simp only [State.step, State.stepPty, hf.found, hsend, Option.map_some]
    rfl
  · intro hown
    have heq := hown s.log (.pty h) data [] ?_ exec hf.current hf.answered
    · cases heq
      exact hf.other rfl
    · simp only [State.send, Outgoing.send_accepted hf.room]

/-- A step of it that sends nothing. -/
theorem Foreign.step (hf : Foreign s exec h pty) {l : PtyLabel} {pty' : Pty}
    (hstep : pty.step l = some (pty', none)) (hid : pty'.sessionId = []) :
    ∃ s', s.step (.pty h l) = some s' ∧ Foreign s' exec h pty' := by
  refine ⟨{ s with ptys := s.ptys.set h pty' }, ?_, ?_⟩
  · simp only [State.step, State.stepPty, hf.found, hstep, Option.map_some]
    rfl
  · have hlt := (List.getElem?_eq_some_iff.mp hf.found).1
    exact { hf with found := List.getElem?_set_self hlt, id := hid }

theorem Foreign.read (hf : Foreign s exec h pty) (hreader : pty.reader = .reading)
    (houtput : pty.output ≠ []) :
    ∃ labels s', terminals.run s labels = some s' ∧ ¬OwnOutput s'.log := by
  have hlength : 1 ≤ pty.output.length := List.length_pos_iff.mpr houtput
  have hread : pty.step (.read 1) =
      some ({ pty with
        output := pty.output.drop 1, reader := .holding (pty.output.take 1) }, none) := by
    rw [Pty.step, if_pos ⟨hreader, Nat.one_pos, by omega⟩]
  obtain ⟨s₁, hs₁, hf₁⟩ := hf.step hread hf.id
  obtain ⟨s₂, hs₂, hforeign⟩ := hf₁.send rfl
  refine ⟨[.pty h (.read 1), .pty h .send], s₂, ?_, hforeign⟩
  simp only [Machine.run, terminals, hs₁, hs₂, Option.bind_some]

/-- What the shell has to print comes out. -/
theorem Foreign.output (hf : Foreign s exec h pty) (hspent : ¬pty.Spent) :
    ∃ labels s', terminals.run s labels = some s' ∧ ¬OwnOutput s'.log := by
  cases hreader : pty.reader with
  | reaping => exact absurd (.inl hreader) hspent
  | returned => exact absurd (.inr (.inl hreader)) hspent
  | holding data =>
      obtain ⟨s₁, hs₁, hforeign⟩ := hf.send hreader
      refine ⟨[.pty h .send], s₁, ?_, hforeign⟩
      simp only [Machine.run, terminals, hs₁, Option.bind_some]
  | reading =>
      by_cases houtput : pty.output = []
      · have hup : pty.hungUp = false := by
          rw [← Bool.not_eq_true]
          exact fun hup => hspent (.inr (.inr ⟨hreader, houtput, hup⟩))
        have hprint : pty.step (.print [0]) =
            some ({ pty with output := pty.output ++ [0] }, none) := by
          rw [Pty.step, hup, if_neg Bool.false_ne_true]
        obtain ⟨s₁, hs₁, hf₁⟩ := hf.step hprint hf.id
        obtain ⟨labels, s₂, hrun, hforeign⟩ := hf₁.read hreader (by simp)
        refine ⟨.pty h (.print [0]) :: labels, s₂, ?_, hforeign⟩
        simp only [Machine.run, terminals, hs₁, Option.bind_some]
        exact hrun
      · exact hf.read hreader houtput

/-- Output of another comes, in some run, after the start of the last one is reported. -/
theorem foreign_output (hr : terminals.Reachable s) (hs : s.step .respond = some s')
    (halone : ¬Alone s .respond) (hroom : s'.queue.refusal = none) :
    ∃ labels s'', terminals.run s' labels = some s'' ∧ ¬OwnOutput s''.log := by
  simp only [State.step] at hs
  simp only [Alone] at halone
  split at hs
  · next message hmain =>
      rw [hmain] at halone
      cases hs
      split at halone
      · next cid e heq =>
          cases heq
          obtain ⟨exec, hcurrent, rfl, hexec⟩ := (tracked hr).exec cid e hmain
          simp only [not_forall] at halone
          obtain ⟨h, _, pty, hpty, hid, hother, hspent⟩ := halone
          rcases s.send_cases .main (.dockerExecStartResponse exec.containerId true e) with
            ⟨refused, hrefused, heq⟩ | ⟨_, heq⟩
          · rw [heq] at hroom
            rw [Outgoing.send_accepted hroom] at hrefused
            cases hrefused
          · rw [heq] at hroom ⊢
            have hcurrent' : current (s.log ++ [Event.sent .main
                (.dockerExecStartResponse exec.containerId true e)]) =
                some { exec with answered := true } := by
              rw [current_concat, hcurrent]
              show some { exec with
                answered := exec.answered || exec.containerId == exec.containerId } = _
              rw [beq_self_eq_true, Bool.or_true]
            refine Foreign.output (h := h) ⟨hcurrent', rfl, hpty, hid, ?_, hroom⟩ hspent
            intro heq
            exact hother (by rw [hexec, heq])
      · exact absurd trivial halone
  · cases hs

/-- In a run where the other shells without an id are spent whenever a start is reported,
the output after the report is the session's own; and where one of them is not, there is
a run in which it is not, if the queue takes it. -/
theorem exec_output_own (s : State) :
    (terminals.Reach Alone s → OwnOutput s.log) ∧
    (terminals.Reachable s → ∀ s', s.step .respond = some s' → ¬Alone s .respond →
      s'.queue.refusal = none →
        ∃ labels s'', terminals.run s' labels = some s'' ∧ ¬OwnOutput s''.log) :=
  ⟨fun hr => (alone hr).own, fun hr _ hs halone hroom => foreign_output hr hs halone hroom⟩

instance (s : State) (label : Label) : Decidable (Alone s label) := by
  unfold Alone
  split
  · split
    · infer_instance
    · infer_instance
  · infer_instance
  · infer_instance

def startExec (containerId : String) : Label :=
  .message (.dockerExecStartRequest containerId.toList "sh".toList) (.ok ())

def execStarted (containerId : String) : Message :=
  .dockerExecStartResponse containerId.toList true none

def promptFrom (h : Nat) (prompt : String) : List Label :=
  [.pty h (.print (Text.toUtf8 prompt.toList)), .pty h (.read prompt.length), .pty h .send]

def promptSent (h : Nat) (prompt : String) : Event :=
  .sent (.pty h) (.terminalData [] (Text.toUtf8 prompt.toList))

/-- The shell before has exited, and its output was read, when the next one is reported. -/
theorem ended_exec_own : ∃ s, terminals.Reach Alone s ∧
    s.log = [.started 0 "web".toList, .sent .main (execStarted "web"), promptSent 0 "web$",
      .started 1 "db".toList, .sent .main (execStarted "db"), promptSent 1 "db$"] ∧
    OwnOutput s.log := by
  have hrun : (terminals.runWithin Alone noSessions ([startExec "web", .respond] ++
      promptFrom 0 "web$" ++ [Label.pty 0 .exit, .pty 0 .hangUp, startExec "db", .respond] ++
      promptFrom 1 "db$")).map (·.log) =
      some [.started 0 "web".toList, .sent .main (execStarted "web"), promptSent 0 "web$",
        .started 1 "db".toList, .sent .main (execStarted "db"), promptSent 1 "db$"] := by
    decide
  obtain ⟨s, hs, hlog⟩ := Option.map_eq_some_iff.mp hrun
  have hr := Machine.Reach.runWithin (.init noSessions_init) hs
  exact ⟨s, hr, hlog, (exec_output_own s).1 hr⟩

/-- A session is replaced, and its shell prints into the next one's terminal. -/
theorem replaced_exec_prints : ∃ s, terminals.Reachable s ∧
    s.log = [.started 0 "web".toList, .sent .main (execStarted "web"),
      .started 1 "db".toList, .sent .main (execStarted "db"), promptSent 0 "web$"] ∧
    ¬OwnOutput s.log := by
  have hrun : (terminals.run noSessions ([startExec "web", .respond, startExec "db", .respond] ++
      promptFrom 0 "web$")).map (·.log) =
      some [.started 0 "web".toList, .sent .main (execStarted "web"),
        .started 1 "db".toList, .sent .main (execStarted "db"), promptSent 0 "web$"] := by
    decide
  obtain ⟨s, hs, hlog⟩ := Option.map_eq_some_iff.mp hrun
  refine ⟨s, .run (.init noSessions_init) hs, hlog, fun hown => ?_⟩
  have hforeign := hown [.started 0 "web".toList, .sent .main (execStarted "web"),
    .started 1 "db".toList, .sent .main (execStarted "db")] (.pty 0)
    (Text.toUtf8 "web$".toList) [] hlog ⟨1, "db".toList, true⟩ (by rfl) rfl
  cases hforeign

end ShellfleetAgent.Agent.Terminals
