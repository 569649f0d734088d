import ShellfleetAgent.Agent.Terminals
import ShellfleetAgent.Lib.Lists
import ShellfleetAgent.Lib.Pool

/-!
# Sessions and their shells

What the main loop knows of a session is its entry in a table. The entry of a host shell
stays when the shell exits, and a start for its id finds it: whether there is a shell
behind it depends on what was there before. The entry of a pod's shell is the handle of
its supervisor, and of the four tasks that is the only one that an abort stops.
-/

namespace ShellfleetAgent.Agent.Terminals

open ShellfleetAgent.Lib

variable {s s' : State} {h : Nat} {label : Label}

namespace State

/-! ## What a send leaves alone -/

theorem send_cases (s : State) (origin : Origin) (message : Message) :
    (∃ e, (s.queue.send message).2 = .error e ∧ s.send origin message = s) ∨
      ((s.queue.send message).2 = .ok () ∧ s.send origin message =
        { s with
          queue := (s.queue.send message).1
          log := s.log ++ [Event.sent origin message] }) := by
  rw [State.send]
  cases hq : s.queue.refusal with
  | none => exact .inr (by rw [Outgoing.send_accepted hq]; exact ⟨rfl, rfl⟩)
  | some e => exact .inl ⟨e, by rw [Outgoing.send_refused hq]; exact ⟨rfl, rfl⟩⟩

/-- A send changes the queue and the log, and no session. -/
structure SameSessions (s s' : State) : Prop where
  ptys : s'.ptys = s.ptys
  pods : s'.pods = s.pods
  termSessions : s'.termSessions = s.termSessions
  execSession : s'.execSession = s.execSession
  k8sExecSessions : s'.k8sExecSessions = s.k8sExecSessions

theorem same_send (s : State) (origin : Origin) (message : Message) :
    SameSessions s (s.send origin message) := by
  rcases s.send_cases origin message with ⟨_, _, heq⟩ | ⟨_, heq⟩
  · rw [heq]
    exact ⟨rfl, rfl, rfl, rfl, rfl⟩
  · rw [heq]
    exact ⟨rfl, rfl, rfl, rfl, rfl⟩

theorem same_sends (s : State) (origin : Origin) (message : Option Message) :
    SameSessions s (s.sends origin message) := by
  cases message with
  | none => exact ⟨rfl, rfl, rfl, rfl, rfl⟩
  | some message => exact s.same_send origin message

theorem same_stepQueue {e : QueueEnv} (h : s.stepQueue e = some s') : SameSessions s s' := by
  cases e with
  | take =>
      obtain ⟨queue, _, rfl⟩ := Option.map_eq_some_iff.mp h
      exact ⟨rfl, rfl, rfl, rfl, rfl⟩
  | close =>
      cases h
      exact ⟨rfl, rfl, rfl, rfl, rfl⟩
  | send message =>
      unfold stepQueue at h
      split at h
      · cases h
      · next heq =>
          cases heq
          cases h
          exact s.same_send .other message
      · next heq => cases heq
      · next heq => cases heq

end State

/-! ## What a step does -/

/-- As far as its output goes. -/
structure Pty.SameShell (pty pty' : Pty) : Prop where
  sessionId : pty'.sessionId = pty.sessionId
  output : pty'.output = pty.output
  hungUp : pty'.hungUp = pty.hungUp
  reader : pty'.reader = pty.reader

theorem Pty.SameShell.refl (pty : Pty) : pty.SameShell pty := ⟨rfl, rfl, rfl, rfl⟩

/-- The main loop feeds a shell's channels and closes them; the rest is the shell's own. -/
def PtyStep (label : Label) (h : Nat) (pty pty' : Pty) : Prop :=
  pty.SameShell pty' ∨ ∃ l message, label = .pty h l ∧ pty.step l = some (pty', message)

theorem PtyStep.refl (label : Label) (h : Nat) (pty : Pty) : PtyStep label h pty pty :=
  .inl (.refl pty)

/-- A shell on the host, or one in a container, which is put on record. -/
def NewPty (s s' : State) (pty : Pty) : Prop :=
  (∃ x, x ≠ [] ∧ pty = spawnPty x) ∨
    pty = spawnPty [] ∧ ∃ containerId, s'.log = s.log ++ [Event.started s.ptys.length containerId]

/-- As far as its tasks go. -/
structure PodExec.SameTasks (pod pod' : PodExec) : Prop where
  sessionId : pod'.sessionId = pod.sessionId
  reader : pod'.reader = pod.reader
  writer : pod'.writer = pod.writer
  resizer : pod'.resizer = pod.resizer
  supervisor : pod'.supervisor = pod.supervisor
  aborted : pod'.aborted = pod.aborted
  late : pod'.late = pod.late

theorem PodExec.SameTasks.refl (pod : PodExec) : pod.SameTasks pod :=
  ⟨rfl, rfl, rfl, rfl, rfl, rfl, rfl⟩

/-- The session that a step aborts. -/
def aborts (s : State) : Label → Option Nat
  | .message (.stopTerminalRequest sessionId) _ => s.k8sExecSessions sessionId
  | .message (.k8sExecRequest sessionId _ _ _ _) _ => s.k8sExecSessions sessionId
  | _ => none

/-- The main loop feeds a session's channels and aborts it; the rest is the tasks' own. -/
inductive PodStep (s : State) (label : Label) (h : Nat) (pod : PodExec) : PodExec → Prop
  | fed {pod' : PodExec} (same : pod.SameTasks pod') : PodStep s label h pod pod'
  | aborted (habort : aborts s label = some h) : PodStep s label h pod pod.abort
  | own {l : PodLabel} {send : Message → Except OutgoingSendError Unit} {pod' : PodExec}
      {message : Option Message} {late : List Message} (hlabel : label = .pod h l)
      (hstep : pod.step send l = some (pod', message))
      (hlate : message = none ∨ pod.aborted = false → late = pod.late) :
      PodStep s label h pod { pod' with late }

theorem PodStep.refl (s : State) (label : Label) (h : Nat) (pod : PodExec) :
    PodStep s label h pod pod :=
  .fed (.refl pod)

/-- What a step puts on record. -/
inductive Logged (s : State) : Label → Event → Prop
  | started (containerId shell : Str) :
      Logged s (.message (.dockerExecStartRequest containerId shell) (.ok ()))
        (.started s.ptys.length containerId)
  | main {message : Message} (hmain : s.main = .responding message) :
      Logged s .respond (.sent .main message)
  | pty {h : Nat} {pty : Pty} {data : Bytes} (hpty : s.ptys[h]? = some pty)
      (hreader : pty.reader = .holding data) :
      Logged s (.pty h .send) (.sent (.pty h) (.terminalData pty.sessionId data))
  | pod {h : Nat} {l : PodLabel} {pod : PodExec} (hpod : s.pods[h]? = some pod) (data : Bytes) :
      Logged s (.pod h l) (.sent (.pod h) (.terminalData pod.sessionId data))
  | other {message : Message} (hother : ∀ x data, message ≠ .terminalData x data) :
      Logged s (.queue (.send message)) (.sent .other message)

structure Moves (label : Label) (s s' : State) : Prop where
  ptys : Evolves (PtyStep label) (NewPty s s') s.ptys s'.ptys
  pods : Evolves (PodStep s label) (fun pod => ∃ x, s.main = .connecting x ∧ pod = spawnExec x)
    s.pods s'.pods
  terms : ∀ x h, s'.termSessions x = some h →
    s.termSessions x = some h ∨ s'.ptys[h]? = some (spawnPty x)
  log : s'.log = s.log ∨ ∃ e, Logged s label e ∧ s'.log = s.log ++ [e]

theorem evolves_dropPty {N : Pty → Prop} (s : State) (handle : Option Nat) :
    Evolves (PtyStep label) N s.ptys (s.dropPty handle).ptys := by
  cases handle with
  | none => exact .refl (.refl label) s.ptys
  | some handle => exact .modify (.refl label) (fun pty => .inl ⟨rfl, rfl, rfl, rfl⟩) s.ptys

theorem evolves_abortPod {P : PodExec → Prop} {t : State} {handle : Option Nat}
    (hpods : t.pods = s.pods) (h : aborts s label = handle) :
    Evolves (PodStep s label) P s.pods (t.abortPod handle).pods := by
  rw [← hpods]
  cases handle with
  | none => exact .refl (.refl s label) t.pods
  | some handle => exact .modify (.refl s label) (fun pod => .aborted h) t.pods

namespace State

/-! To drop a session, or to abort one, leaves all else alone. -/

@[simp] theorem dropPty_pods (handle : Option Nat) : (s.dropPty handle).pods = s.pods := by
  cases handle <;> rfl

@[simp] theorem dropPty_termSessions (handle : Option Nat) :
    (s.dropPty handle).termSessions = s.termSessions := by
  cases handle <;> rfl

@[simp] theorem dropPty_k8sExecSessions (handle : Option Nat) :
    (s.dropPty handle).k8sExecSessions = s.k8sExecSessions := by
  cases handle <;> rfl

@[simp] theorem dropPty_log (handle : Option Nat) : (s.dropPty handle).log = s.log := by
  cases handle <;> rfl

@[simp] theorem dropPty_length (handle : Option Nat) :
    (s.dropPty handle).ptys.length = s.ptys.length := by
  cases handle with
  | none => rfl
  | some handle => exact List.length_modify ..

@[simp] theorem abortPod_ptys (handle : Option Nat) : (s.abortPod handle).ptys = s.ptys := by
  cases handle <;> rfl

@[simp] theorem abortPod_termSessions (handle : Option Nat) :
    (s.abortPod handle).termSessions = s.termSessions := by
  cases handle <;> rfl

@[simp] theorem abortPod_log (handle : Option Nat) : (s.abortPod handle).log = s.log := by
  cases handle <;> rfl

end State

namespace Moves

theorem of_same (h : s.SameSessions s')
    (hlog : s'.log = s.log ∨ ∃ e, Logged s label e ∧ s'.log = s.log ++ [e]) :
    Moves label s s' where
  ptys := by
    rw [h.ptys]
    exact .refl (.refl label) s.ptys
  pods := by
    rw [h.pods]
    exact .refl (.refl s label) s.pods
  terms x i hx := by
    rw [h.termSessions] at hx
    exact .inl hx
  log := hlog

theorem feedPty {f : Pty → Pty} (handle : Nat) (hf : ∀ pty : Pty, pty.SameShell (f pty)) :
    Moves label s { s with ptys := s.ptys.modify handle f } where
  ptys := .modify (.refl label) (fun pty => .inl (hf pty)) s.ptys
  pods := .refl (.refl s label) s.pods
  terms _ _ hx := .inl hx
  log := .inl rfl

theorem feedPod {f : PodExec → PodExec} (handle : Nat)
    (hf : ∀ pod : PodExec, pod.SameTasks (f pod)) :
    Moves label s { s with pods := s.pods.modify handle f } where
  ptys := .refl (.refl label) s.ptys
  pods := .modify (.refl s label) (fun pod => .fed (hf pod)) s.pods
  terms _ _ hx := .inl hx
  log := .inl rfl

theorem sendInput (data : Bytes) (session : Option (Nat ⊕ Nat)) :
    Moves label s (s.sendInput data session) := by
  match session with
  | none => exact of_same ⟨rfl, rfl, rfl, rfl, rfl⟩ (.inl rfl)
  | some (.inl handle) => exact feedPty handle fun pty => ⟨rfl, rfl, rfl, rfl⟩
  | some (.inr handle) => exact feedPod handle fun pod => ⟨rfl, rfl, rfl, rfl, rfl, rfl, rfl⟩

theorem sendSize (size : Nat × Nat) (session : Option (Nat ⊕ Nat)) :
    Moves label s (s.sendSize size session) := by
  match session with
  | none => exact of_same ⟨rfl, rfl, rfl, rfl, rfl⟩ (.inl rfl)
  | some (.inl handle) => exact feedPty handle fun pty => ⟨rfl, rfl, rfl, rfl⟩
  | some (.inr handle) => exact feedPod handle fun pod => ⟨rfl, rfl, rfl, rfl, rfl, rfl, rfl⟩

theorem startTerminal (x : Str) (spawned : Except Str Unit) :
    Moves label s (s.startTerminal x spawned) := by
  unfold State.startTerminal
  split
  · exact of_same ⟨rfl, rfl, rfl, rfl, rfl⟩ (.inl rfl)
  · next hx =>
      split
      · exact of_same ⟨rfl, rfl, rfl, rfl, rfl⟩ (.inl rfl)
      · exact of_same ⟨rfl, rfl, rfl, rfl, rfl⟩ (.inl rfl)
      · refine ⟨?_, .refl (.refl s label) s.pods, ?_, .inl rfl⟩
        · exact .concat (.refl (.refl label) s.ptys) (.inl ⟨x, hx, rfl⟩)
        · intro y h hy
          rcases update_some hy with ⟨rfl, rfl⟩ | ⟨_, hy⟩
          · exact .inr List.getElem?_concat_length
          · exact .inl hy

theorem stopTerminal (x : Str) (spawned : Except Str Unit) :
    Moves (.message (.stopTerminalRequest x) spawned) s (s.stopTerminal x) := by
  refine ⟨?_, ?_, ?_, ?_⟩
  · show Evolves _ _ s.ptys (State.abortPod _ _).ptys
    rw [State.abortPod_ptys]
    exact evolves_dropPty s (s.termSessions x)
  · show Evolves _ _ s.pods (State.abortPod _ _).pods
    exact evolves_abortPod (State.dropPty_pods _) (by simp [aborts])
  · intro y h hy
    have hy : Function.update s.termSessions x none y = some h := by
      simpa [State.stopTerminal] using hy
    exact .inl (update_none hy).2
  · simp [State.stopTerminal]

theorem startDockerExec (containerId shell : Str) (spawned : Except Str Unit) :
    Moves (.message (.dockerExecStartRequest containerId shell) spawned) s
      (s.startDockerExec containerId shell spawned) := by
  unfold State.startDockerExec
  have hpods : Evolves (PodStep s (.message (.dockerExecStartRequest containerId shell) spawned))
      (fun pod => ∃ x, s.main = .connecting x ∧ pod = spawnExec x) s.pods
      (s.dropPty s.execSession).pods := by
    rw [State.dropPty_pods]
    exact .refl (.refl s _) s.pods
  have hterms (x : Str) (h : Nat) (hx : (s.dropPty s.execSession).termSessions x = some h) :
      s.termSessions x = some h := by
    rw [State.dropPty_termSessions] at hx
    exact hx
  split
  · exact ⟨evolves_dropPty s _, hpods, fun x h hx => .inl (hterms x h hx),
      .inl (State.dropPty_log _)⟩
  · exact ⟨evolves_dropPty s _, hpods, fun x h hx => .inl (hterms x h hx),
      .inl (State.dropPty_log _)⟩
  · refine ⟨?_, hpods, fun x h hx => .inl (hterms x h hx), ?_⟩
    · exact (evolves_dropPty s _).concat (.inr ⟨rfl, containerId, by simp⟩)
    · exact .inr ⟨.started s.ptys.length containerId, .started containerId shell, by simp⟩

theorem handle (message : ControlMessage) (spawned : Except Str Unit) :
    Moves (.message message spawned) s (s.handle message spawned) := by
  cases message with
  | startTerminalRequest sessionId => exact startTerminal sessionId spawned
  | stopTerminalRequest sessionId => exact stopTerminal sessionId spawned
  | terminalData sessionId data => exact sendInput data _
  | terminalResize sessionId cols rows => exact sendSize (cols, rows) _
  | dockerExecStartRequest containerId shell => exact startDockerExec containerId shell spawned
  | dockerExecStopRequest =>
      refine ⟨evolves_dropPty s _, ?_, fun x h hx => .inl ?_, .inl (State.dropPty_log _)⟩
      · show Evolves _ _ s.pods (s.dropPty s.execSession).pods
        rw [State.dropPty_pods]
        exact .refl (.refl s _) s.pods
      · have hx : (s.dropPty s.execSession).termSessions x = some h := hx
        rw [State.dropPty_termSessions] at hx
        exact hx
  | k8sExecRequest sessionId namespaceName podName container command =>
      refine ⟨?_, evolves_abortPod rfl rfl, fun x h hx => .inl ?_, .inl (State.abortPod_log _)⟩
      · show Evolves _ _ s.ptys (s.abortPod (s.k8sExecSessions sessionId)).ptys
        rw [State.abortPod_ptys]
        exact .refl (.refl _) s.ptys
      · have hx : (s.abortPod (s.k8sExecSessions sessionId)).termSessions x = some h := hx
        rw [State.abortPod_termSessions] at hx
        exact hx

theorem connected {x : Str} (hmain : s.main = .connecting x) (result : Except Str Unit) :
    Moves label s (s.connected x result) := by
  match result with
  | .ok () =>
      refine ⟨.refl (.refl label) s.ptys, ?_, fun x h hx => .inl hx, .inl rfl⟩
      exact .concat (.refl (.refl s label) s.pods) ⟨x, hmain, rfl⟩
  | .error e =>
      exact ⟨.refl (.refl label) s.ptys, .refl (.refl s label) s.pods, fun x h hx => .inl hx,
        .inl rfl⟩

end Moves

/-- What a step of a session does, and the message that it sends. -/
inductive PtyMove (pty : Pty) : PtyLabel → Pty → Option Message → Prop
  | print {data : Bytes} (hup : pty.hungUp = false) :
      PtyMove pty (.print data) { pty with output := pty.output ++ data } none
  | exit : PtyMove pty .exit { pty with running := false } none
  | hangUp : PtyMove pty .hangUp { pty with hungUp := true } none
  | read {n : Nat} (hreader : pty.reader = .reading) (hpos : 0 < n) (hn : n ≤ pty.output.length) :
      PtyMove pty (.read n)
        { pty with output := pty.output.drop n, reader := .holding (pty.output.take n) } none
  | send {data : Bytes} (hreader : pty.reader = .holding data) :
      PtyMove pty .send { pty with reader := .reading }
        (some (.terminalData pty.sessionId data))
  | readEnd : PtyMove pty .readEnd { pty with reader := .reaping } none
  | reap : PtyMove pty .reap { pty with reader := .returned } none
  | write {data : Bytes} {input : Channel Bytes}
      (hrecv : pty.input.recv = some (some data, input)) :
      PtyMove pty .write { pty with input, typed := pty.typed ++ [data] } none
  | writeEnd : PtyMove pty .write { pty with writer := .ended } none
  | resize {size : Nat × Nat} {sizes : Channel (Nat × Nat)} :
      PtyMove pty .resize { pty with sizes, size } none
  | resizeEnd : PtyMove pty .resize { pty with resizer := .ended } none

theorem Pty.step_move {pty pty' : Pty} {l : PtyLabel} {message : Option Message}
    (h : pty.step l = some (pty', message)) : PtyMove pty l pty' message := by
  cases l with
  | print data =>
      obtain ⟨hup, h⟩ := Option.ite_none_left_eq_some.mp h
      cases h
      exact .print (Bool.eq_false_iff.mpr hup)
  | exit =>
      obtain ⟨_, h⟩ := Option.ite_none_right_eq_some.mp h
      cases h
      exact .exit
  | hangUp =>
      cases h
      exact .hangUp
  | read n =>
      obtain ⟨⟨hreader, hpos, hn⟩, h⟩ := Option.ite_none_right_eq_some.mp h
      cases h
      exact .read hreader hpos (Nat.le_min.mp hn).2
  | send =>
      rw [Pty.step] at h
      cases hreader : pty.reader with
      | holding data =>
          rw [hreader] at h
          cases h
          exact .send hreader
      | reading | reaping | returned =>
          rw [hreader] at h
          cases h
  | readEnd =>
      obtain ⟨_, h⟩ := Option.ite_none_right_eq_some.mp h
      cases h
      exact .readEnd
  | reap =>
      obtain ⟨_, h⟩ := Option.ite_none_right_eq_some.mp h
      cases h
      exact .reap
  | write =>
      obtain ⟨_, h⟩ := Option.ite_none_right_eq_some.mp h
      cases hrecv : pty.input.recv with
      | none =>
          rw [hrecv] at h
          cases h
      | some received =>
          obtain ⟨item, input⟩ := received
          rw [hrecv] at h
          cases item with
          | none =>
              cases h
              exact .writeEnd
          | some data =>
              cases h
              exact .write hrecv
  | resize =>
      obtain ⟨_, h⟩ := Option.ite_none_right_eq_some.mp h
      cases hrecv : pty.sizes.recv with
      | none =>
          rw [hrecv] at h
          cases h
      | some received =>
          obtain ⟨item, sizes⟩ := received
          rw [hrecv] at h
          cases item with
          | none =>
              cases h
              exact .resizeEnd
          | some size =>
              cases h
              exact .resize

/-- A step of a shell keeps its id. -/
theorem PtyStep.sessionId {pty pty' : Pty} (hstep : PtyStep label h pty pty') :
    pty'.sessionId = pty.sessionId := by
  rcases hstep with hsame | ⟨l, message, _, hstep⟩
  · exact hsame.sessionId
  · cases Pty.step_move hstep <;> rfl

/-- What is sent was in the reader's hand. -/
theorem Pty.step_message {pty pty' : Pty} {l : PtyLabel} {message : Message}
    (h : pty.step l = some (pty', some message)) :
    ∃ data, l = .send ∧ pty.reader = .holding data ∧
      message = .terminalData pty.sessionId data := by
  cases Pty.step_move h with
  | send hreader => exact ⟨_, rfl, hreader, rfl⟩

/-- A pod's tasks send nothing but its output and the banner. -/
theorem PodExec.step_kept {pod pod' : PodExec} {send : Message → Except OutgoingSendError Unit}
    {l : PodLabel} {message : Option Message} (h : pod.step send l = some (pod', message)) :
    pod'.sessionId = pod.sessionId ∧ pod'.aborted = pod.aborted ∧ pod'.late = pod.late ∧
      ∀ m, message = some m → ∃ data, m = .terminalData pod.sessionId data := by
  cases l with
  | read n =>
      simp only [PodExec.step] at h
      split at h
      · cases h
        exact ⟨rfl, rfl, rfl, fun m hm => ⟨_, (Option.some.inj hm).symm⟩⟩
      · cases h
  | join result =>
      simp only [PodExec.step] at h
      split at h
      · cases h
        exact ⟨rfl, rfl, rfl, fun m hm => ⟨_, (Option.some.inj hm).symm⟩⟩
      · cases h
  | close =>
      cases h
      exact ⟨rfl, rfl, rfl, nofun⟩
  | arrive data | readEnd | supervise | write ok | resize ok =>
      simp only [PodExec.step] at h
      repeat' split at h
      all_goals cases h
      all_goals exact ⟨rfl, rfl, rfl, nofun⟩

theorem sends_log (s : State) (origin : Origin) (message : Option Message) :
    (s.sends origin message).log = s.log ∨ ∃ m, message = some m ∧
      (s.sends origin message).log = s.log ++ [Event.sent origin m] := by
  cases message with
  | none => exact .inl rfl
  | some message =>
      rcases s.send_cases origin message with ⟨_, _, heq⟩ | ⟨_, heq⟩
      · exact .inl (congrArg State.log heq)
      · exact .inr ⟨message, rfl, congrArg State.log heq⟩

theorem moves_pty {l : PtyLabel} (hs : s.stepPty h l = some s') : Moves (.pty h l) s s' := by
  unfold State.stepPty at hs
  split at hs
  · cases hs
  · next pty hpty =>
      obtain ⟨⟨pty', message⟩, hstep, rfl⟩ := Option.map_eq_some_iff.mp hs
      have hsame := State.same_sends { s with ptys := s.ptys.set h pty' } (.pty h) message
      refine ⟨?_, ?_, ?_, ?_⟩
      · rw [hsame.ptys]
        exact .set (.refl _) hpty (.inr ⟨l, message, rfl, hstep⟩)
      · rw [hsame.pods]
        exact .refl (.refl s _) s.pods
      · intro x i hx
        rw [hsame.termSessions] at hx
        exact .inl hx
      · rcases sends_log { s with ptys := s.ptys.set h pty' } (.pty h) message with
          hlog | ⟨m, rfl, hlog⟩
        · exact .inl hlog
        · obtain ⟨data, rfl, hreader, rfl⟩ := Pty.step_message hstep
          exact .inr ⟨_, .pty hpty hreader, hlog⟩

theorem moves_pod {l : PodLabel} (hs : s.stepPod h l = some s') : Moves (.pod h l) s s' := by
  unfold State.stepPod at hs
  split at hs
  · cases hs
  · next pod hpod =>
      obtain ⟨⟨pod', message⟩, hstep, rfl⟩ := Option.map_eq_some_iff.mp hs
      obtain ⟨_, haborted, hlate, hmessage⟩ := PodExec.step_kept hstep
      refine ⟨?_, ?_, ?_, ?_⟩
      · rw [(State.same_sends _ _ message).ptys]
        exact .refl (.refl _) s.ptys
      · rw [(State.same_sends _ _ message).pods]
        refine .set (.refl s _) hpod (.own rfl hstep ?_)
        rintro (rfl | hlive)
        · rw [Option.toList_none, List.filter_nil, List.append_nil, ite_self, hlate]
        · rw [haborted, hlive, if_neg Bool.false_ne_true, hlate]
      · intro x i hx
        rw [(State.same_sends _ _ message).termSessions] at hx
        exact .inl hx
      · rcases sends_log _ (.pod h) message with hlog | ⟨m, hm, hlog⟩
        · exact .inl hlog
        · obtain ⟨data, rfl⟩ := hmessage m hm
          exact .inr ⟨_, .pod hpod data, hlog⟩

theorem moves_queue {e : QueueEnv} (hs : s.stepQueue e = some s') : Moves (.queue e) s s' := by
  refine .of_same (State.same_stepQueue hs) ?_
  unfold State.stepQueue at hs
  split at hs
  · cases hs
  · next message hother =>
      cases hs
      rcases sends_log s .other (some message) with hlog | ⟨m, hm, hlog⟩
      · exact .inl hlog
      · cases hm
        exact .inr ⟨_, .other hother, hlog⟩
  · obtain ⟨queue, _, rfl⟩ := Option.map_eq_some_iff.mp hs
    exact .inl rfl
  · cases hs
    exact .inl rfl

theorem message_idle {message : ControlMessage} {spawned : Except Str Unit}
    (hs : s.step (.message message spawned) = some s') :
    s.main = .idle ∧ s' = s.handle message spawned := by
  simp only [State.step] at hs
  split at hs
  · next hidle => exact ⟨hidle, (Option.some.inj hs).symm⟩
  · cases hs

theorem step_moves (hs : s.step label = some s') : Moves label s s' := by
  cases label with
  | message message spawned =>
      obtain ⟨_, rfl⟩ := message_idle hs
      exact .handle message spawned
  | connected result =>
      simp only [State.step] at hs
      split at hs
      · next x hmain =>
          cases hs
          exact .connected hmain result
      · cases hs
  | respond =>
      simp only [State.step] at hs
      split at hs
      · next message hmain =>
          cases hs
          have hsame := s.same_send .main message
          refine .of_same ⟨hsame.ptys, hsame.pods, hsame.termSessions, hsame.execSession,
            hsame.k8sExecSessions⟩ ?_
          rcases sends_log s .main (some message) with hlog | ⟨m, hm, hlog⟩
          · exact .inl hlog
          · cases hm
            exact .inr ⟨_, .main hmain, hlog⟩
      · cases hs
  | pty handle l => exact moves_pty hs
  | pod handle l => exact moves_pod hs
  | queue e => exact moves_queue hs

/-! ## A start for an id that is known -/

theorem startTerminal_known {x : Str} {spawned : Except Str Unit}
    (hknown : s.termSessions x = some h) : s.startTerminal x spawned = s := by
  unfold State.startTerminal
  split
  · rfl
  · simp only [hknown]

theorem startTerminal_new {x : Str} (hx : x ≠ []) (hnew : s.termSessions x = none) :
    s.startTerminal x (.ok ()) =
      { s with
        ptys := s.ptys ++ [spawnPty x]
        termSessions := Function.update s.termSessions x (some s.ptys.length) } := by
  simp only [State.startTerminal, if_neg hx, hnew]

/-- An entry of the table is a shell with its id. -/
def Known (s : State) : Prop :=
  ∀ x h, s.termSessions x = some h → ∃ pty, s.ptys[h]? = some pty ∧ pty.sessionId = x

theorem known (hr : terminals.Reachable s) : Known s := by
  refine hr.invariant ?_ ?_
  · intro s ⟨_, _, hterms, _⟩ x h hx
    rw [hterms] at hx
    cases hx
  · intro s label s' _ hI _ hs x h hx
    have hm := step_moves hs
    rcases hm.terms x h hx with hx | hnew
    · obtain ⟨pty, hpty, rfl⟩ := hI x h hx
      obtain ⟨pty', hpty', hmoved⟩ := hm.ptys.forward hpty
      exact ⟨pty', hpty', hmoved.sessionId⟩
    · exact ⟨spawnPty x, hnew, rfl⟩

/-- There is a session under the id, and it has a running shell. -/
def HasShell (s : State) (x : Str) : Prop :=
  ∃ h pty, s.termSessions x = some h ∧ s.ptys[h]? = some pty ∧ pty.sessionId = x ∧
    pty.running = true

/-- After a start that no spawn has failed, there is a running shell under the id if and
only if the shell of the session that was there before, if any, had not exited. -/
theorem started_shell_runs_iff (s s' : State) (x : Str) (spawned : Except Str Unit)
    (hr : terminals.Reachable s) (hx : x ≠ [])
    (hspawned : s.termSessions x = none → spawned = .ok ())
    (hs : s.step (.message (.startTerminalRequest x) spawned) = some s') :
    HasShell s' x ↔ ∀ h pty, s.termSessions x = some h → s.ptys[h]? = some pty →
      pty.running = true := by
  obtain ⟨_, rfl⟩ := message_idle hs
  rw [State.handle]
  cases hknown : s.termSessions x with
  | some h =>
      obtain ⟨pty, hpty, hid⟩ := known hr x h hknown
      rw [startTerminal_known hknown]
      constructor
      · intro ⟨h', pty', hterm, hpty', _, hrunning⟩ h'' pty'' hterm' hpty''
        rw [hknown] at hterm
        cases hterm
        cases hterm'
        rw [hpty'] at hpty''
        cases hpty''
        exact hrunning
      · intro hrunning
        exact ⟨h, pty, hknown, hpty, hid, hrunning h pty rfl hpty⟩
  | none =>
      rw [hspawned hknown, startTerminal_new hx hknown]
      refine iff_of_true ⟨s.ptys.length, spawnPty x, ?_, ?_, rfl, rfl⟩ nofun
      · exact Function.update_self ..
      · exact List.getElem?_concat_length

def noSessions : State :=
  ⟨⟨256, [], 0, false⟩, [], [], fun _ => none, none, fun _ => none, .idle, []⟩

theorem noSessions_init : terminals.init noSessions := ⟨rfl, rfl, rfl, rfl, rfl, rfl, rfl⟩

def startShell : Label := .message (.startTerminalRequest "tab".toList) (.ok ())

def stopShell : Label := .message (.stopTerminalRequest "tab".toList) (.ok ())

/-- A shell exits, its session is stopped, and a start for its id opens another. -/
theorem restarted_shell_runs : ∃ s s', terminals.Reachable s ∧
    s.ptys.map (·.running) = [false] ∧ s.step startShell = some s' ∧
    s'.ptys.map (·.running) = [false, true] ∧ HasShell s' "tab".toList := by
  have hrun : ((terminals.run noSessions [startShell, .pty 0 .exit, stopShell]).bind fun s =>
      (s.step startShell).map fun s' =>
        ((s.ptys.map (·.running), s.termSessions "tab".toList), s'.ptys.map (·.running))) =
      some (([false], none), [false, true]) := by
    decide
  obtain ⟨s, hs, hseen⟩ := Option.bind_eq_some_iff.mp hrun
  obtain ⟨s', hs', hseen⟩ := Option.map_eq_some_iff.mp hseen
  obtain ⟨hbefore, hafter⟩ := Prod.mk.inj hseen
  obtain ⟨hrunning, hstopped⟩ := Prod.mk.inj hbefore
  have hr := Machine.Reach.run (.init noSessions_init) hs
  refine ⟨s, s', hr, hrunning, hs', hafter, ?_⟩
  refine (started_shell_runs_iff s s' "tab".toList (.ok ()) hr (by decide) (fun _ => rfl) hs').mpr
    fun h pty hterm => ?_
  rw [hstopped] at hterm
  cases hterm

/-- A shell exits, and a start for its id opens no other. -/
theorem exited_shell_kept : ∃ s s', terminals.Reachable s ∧ s.step startShell = some s' ∧
    s'.termSessions "tab".toList = some 0 ∧ ¬HasShell s' "tab".toList := by
  have hrun : ((terminals.run noSessions [startShell, .pty 0 .exit]).bind fun s =>
      (s.step startShell).map fun s' =>
        (s'.termSessions "tab".toList, s'.ptys.map (·.running))) = some (some 0, [false]) := by
    decide
  obtain ⟨s, hs, hseen⟩ := Option.bind_eq_some_iff.mp hrun
  obtain ⟨s', hs', hseen⟩ := Option.map_eq_some_iff.mp hseen
  obtain ⟨hterm, hptys⟩ := Prod.mk.inj hseen
  refine ⟨s, s', .run (.init noSessions_init) hs, hs', hterm, ?_⟩
  intro ⟨h, pty, hterm', hpty, _, hrunning⟩
  rw [hterm] at hterm'
  cases hterm'
  have hlast := congrArg (·[0]?) hptys
  simp only [List.getElem?_map, hpty, Option.map_some, hrunning] at hlast
  cases hlast

/-! ## An abort -/

/-- None of the three pumps is running. -/
def PodExec.Stopped (pod : PodExec) : Prop :=
  pod.reader = .ended ∧ pod.writer = .ended ∧ pod.resizer = .ended
  deriving Decidable

/-- The session that the step aborts, if there is one, has no pump running any more. -/
def Finished (s : State) (label : Label) : Prop :=
  ∀ handle ∈ aborts s label, ∀ pod ∈ s.pods[handle]?, pod.Stopped

/-- After its abort a session has no pump running and has sent nothing. -/
def Halted (s : State) : Prop :=
  ∀ (h : Nat) (pod : PodExec), s.pods[h]? = some pod → pod.aborted = true →
    pod.Stopped ∧ pod.late = []

/-- What an abort has to find. The supervisor is the task that it does stop. -/
structure PodExec.Settled (pod : PodExec) : Prop where
  late : pod.late = []
  stopped : pod.aborted = true → pod.Stopped
  supervisor : pod.aborted = true → pod.supervisor = .returned

/-- No task is left to take a step, and what arrives is not read. -/
theorem PodExec.Stopped.step {pod pod' : PodExec}
    {send : Message → Except OutgoingSendError Unit} {l : PodLabel} {message : Option Message}
    (hstopped : pod.Stopped) (hreturned : pod.supervisor = .returned)
    (hs : pod.step send l = some (pod', message)) :
    pod'.Stopped ∧ pod'.supervisor = .returned ∧ message = none := by
  obtain ⟨hreader, hwriter, hresizer⟩ := hstopped
  cases l with
  | arrive data =>
      simp only [PodExec.step] at hs
      split at hs
      · cases hs
      · cases hs
        exact ⟨⟨hreader, hwriter, hresizer⟩, hreturned, rfl⟩
  | close =>
      cases hs
      exact ⟨⟨hreader, hwriter, hresizer⟩, hreturned, rfl⟩
  | read n | readEnd => simp [PodExec.step, hreader] at hs
  | write ok => simp [PodExec.step, hwriter] at hs
  | resize ok => simp [PodExec.step, hresizer] at hs
  | supervise | join result => simp [PodExec.step, hreturned] at hs

theorem PodExec.Settled.step {pod pod' : PodExec} (hpod : pod.Settled) (hok : Finished s label)
    (hfound : s.pods[h]? = some pod) (hstep : PodStep s label h pod pod') : pod'.Settled := by
  cases hstep with
  | fed hsame =>
      refine ⟨hsame.late.trans hpod.late, fun haborted => ?_, fun haborted => ?_⟩
      · rw [hsame.aborted] at haborted
        obtain ⟨hreader, hwriter, hresizer⟩ := hpod.stopped haborted
        exact ⟨hsame.reader.trans hreader, hsame.writer.trans hwriter,
          hsame.resizer.trans hresizer⟩
      · rw [hsame.aborted] at haborted
        exact hsame.supervisor.trans (hpod.supervisor haborted)
  | aborted habort =>
      exact ⟨hpod.late, fun _ => hok h habort pod hfound, fun _ => rfl⟩
  | own hlabel hs hlate =>
      obtain ⟨_, haborted', _, _⟩ := PodExec.step_kept hs
      cases haborted : pod.aborted with
      | false =>
          rw [haborted] at haborted'
          refine ⟨(hlate (.inr haborted)).trans hpod.late, ?_, ?_⟩
          · intro h'
            cases haborted'.symm.trans h'
          · intro h'
            cases haborted'.symm.trans h'
      | true =>
          obtain ⟨hstopped, hreturned, hnone⟩ :=
            (hpod.stopped haborted).step (hpod.supervisor haborted) hs
          exact ⟨(hlate (.inl hnone)).trans hpod.late, fun _ => hstopped, fun _ => hreturned⟩

theorem settled (hr : terminals.Reach Finished s) :
    ∀ (h : Nat) (pod : PodExec), s.pods[h]? = some pod → pod.Settled := by
  refine hr.invariant (I := fun s => ∀ (h : Nat) (pod : PodExec), s.pods[h]? = some pod →
    pod.Settled) ?_ ?_
  · intro s ⟨_, hpods, _⟩ h pod hpod
    rw [hpods] at hpod
    cases hpod
  · intro s label s' _ hI hok hs h pod' hpod'
    rcases (step_moves hs).pods.origin h pod' hpod' with ⟨pod, hpod, hstep⟩ | ⟨_, x, _, rfl⟩
    · exact (hI h pod hpod).step hok hpod hstep
    · exact ⟨rfl, nofun, nofun⟩

theorem step_aborts (habort : aborts s label = some h) (hs : s.step label = some s') :
    s'.pods = s.pods.modify h PodExec.abort := by
  unfold aborts at habort
  split at habort
  · next x spawned =>
      obtain ⟨_, rfl⟩ := message_idle hs
      show (State.abortPod _ (State.k8sExecSessions _ x)).pods = _
      have hx : (s.dropPty (s.termSessions x)).k8sExecSessions x = some h := by
        rw [State.dropPty_k8sExecSessions, habort]
      simp only [hx, State.abortPod, State.dropPty_pods]
  · next x _ _ _ _ _ =>
      obtain ⟨_, rfl⟩ := message_idle hs
      show (s.abortPod (s.k8sExecSessions x)).pods = _
      rw [habort]
      rfl
  · cases habort

/-- A pump that is running when its session is aborted goes on. -/
theorem unfinished_abort (hs : s.step label = some s') (hunfinished : ¬Finished s label) :
    ¬Halted s' := by
  simp only [Finished, not_forall] at hunfinished
  obtain ⟨h, habort, pod, hpod, hrunning⟩ := hunfinished
  intro hhalted
  have hpod' : s'.pods[h]? = some pod.abort := by
    rw [step_aborts habort hs, List.getElem?_modify_eq, hpod]
    rfl
  exact hrunning (hhalted h pod.abort hpod' rfl).1

/-- In a run whose aborts all find their session's pumps at an end, a session has no pump
running after its abort and sends nothing; and after an abort that does not, it has. -/
theorem aborted_exec_halted (s : State) :
    (terminals.Reach Finished s → Halted s) ∧
      ∀ label s', s.step label = some s' → ¬Finished s label → ¬Halted s' :=
  ⟨fun hr h pod hpod haborted =>
    ⟨(settled hr h pod hpod).stopped haborted, (settled hr h pod hpod).late⟩,
    fun _ _ hs hunfinished => unfinished_abort hs hunfinished⟩

instance (s : State) (label : Label) : Decidable (Finished s label) :=
  inferInstanceAs (Decidable (∀ handle ∈ aborts s label, ∀ pod ∈ s.pods[handle]?, pod.Stopped))

def execRequest : Label :=
  .message (.k8sExecRequest "pod".toList "default".toList "web-0".toList none []) (.ok ())

def stopExec : Label := .message (.stopTerminalRequest "pod".toList) (.ok ())

def execChunk (text : String) : Message := .terminalData "pod".toList (Text.toUtf8 text.toList)

/-- The pod's shell has ended, and the supervisor was there, before the stop. -/
theorem ended_exec_halted : ∃ s, terminals.Reach Finished s ∧
    s.pods.map (·.aborted) = [true] ∧ Halted s := by
  have hrun : (terminals.runWithin Finished noSessions
      [execRequest, .connected (.ok ()), .respond, .pod 0 .close, .pod 0 .readEnd,
        .pod 0 .supervise, stopExec]).map (fun s => s.pods.map (·.aborted)) = some [true] := by
    decide
  obtain ⟨s, hs, hseen⟩ := Option.map_eq_some_iff.mp hrun
  have hr := Machine.Reach.runWithin (.init noSessions_init) hs
  exact ⟨s, hr, hseen, (aborted_exec_halted s).1 hr⟩

/-- A session is stopped while there is output to be read, which the queue gets. -/
theorem stopped_exec_sends : ∃ s, terminals.Reachable s ∧
    s.log = [.sent .main (.k8sExecResponse "pod".toList true none),
      .sent (.pod 0) (execChunk "$ ")] ∧
    s.k8sExecSessions "pod".toList = none ∧ ¬Halted s := by
  have hrun : (terminals.run noSessions
      [execRequest, .connected (.ok ()), .respond,
        .pod 0 (.arrive (Text.toUtf8 "$ ".toList)), stopExec, .pod 0 (.read 2)]).map
      (fun s => (s.log, s.k8sExecSessions "pod".toList, s.pods.map (·.aborted),
        s.pods.map (·.late))) =
      some ([.sent .main (.k8sExecResponse "pod".toList true none),
        .sent (.pod 0) (execChunk "$ ")], none, [true], [[execChunk "$ "]]) := by
    decide
  obtain ⟨s, hs, hseen⟩ := Option.map_eq_some_iff.mp hrun
  obtain ⟨hlog, hseen⟩ := Prod.mk.inj hseen
  obtain ⟨hsession, hseen⟩ := Prod.mk.inj hseen
  obtain ⟨haborted, hlate⟩ := Prod.mk.inj hseen
  refine ⟨s, .run (.init noSessions_init) hs, hlog, hsession, fun hhalted => ?_⟩
  obtain ⟨pod, hpods, haborted⟩ := List.map_eq_singleton_iff.mp haborted
  have hnone := (hhalted 0 pod (by rw [hpods]; rfl) haborted).2
  rw [hpods, List.map_singleton, hnone] at hlate
  cases hlate

end ShellfleetAgent.Agent.Terminals
