import ShellfleetAgent.Lib.Switchboard
import ShellfleetAgent.Proofs.Terminals

/-!
# What is typed goes to the session it is meant for

`Conversations` is what the messages for terminals ask for: sessions are opened and closed
under their ids, and what is typed is said to an id. It knows nothing of the tables, the
channels and the threads. The main loop with its sessions agrees with it: what a session's
writer has written, and what still waits for it, is what the conversation has heard.
-/

namespace ShellfleetAgent.Agent.Terminals

open ShellfleetAgent.Lib
open Switchboard (Board Call Line spoken isOpen opened)

variable {s s' : State} {h : Nat} {label : Label}

/-- The host's sessions, that of `docker exec` under the empty id, and those of pods;
`asked` is the id of the last pod that was asked for. -/
structure Conversations where
  shells : List (Call Str Bytes)
  pods : List (Call Str Bytes)
  asked : Str

namespace Conversations

def execStarts (containerId shell : Str) (spawned : Except Str Unit) : Bool :=
  match Docker.spawnDockerExec containerId shell, spawned with
  | .ok _, .ok () => true
  | _, _ => false

/-- A host's session takes what is typed under its id, and a pod's only where there is no
such session. -/
def hear (c : Conversations) : Label → Conversations
  | .message (.startTerminalRequest x) (.ok ()) =>
      if x = [] ∨ isOpen x c.shells = true then c
      else { c with shells := c.shells ++ [Call.opens x] }
  | .message (.stopTerminalRequest x) _ =>
      { c with
        shells := if x = [] then c.shells else c.shells ++ [Call.closes x]
        pods := c.pods ++ [Call.closes x] }
  | .message (.terminalData x data) _ =>
      if x = [] ∨ isOpen x c.shells = true then { c with shells := c.shells ++ [Call.tells x data] }
      else { c with pods := c.pods ++ [Call.tells x data] }
  | .message (.dockerExecStartRequest containerId shell) spawned =>
      { c with shells := c.shells ++
          [if execStarts containerId shell spawned then Call.opens [] else Call.closes []] }
  | .message .dockerExecStopRequest _ => { c with shells := c.shells ++ [Call.closes []] }
  | .message (.k8sExecRequest x _ _ _ _) _ =>
      { c with pods := c.pods ++ [Call.closes x], asked := x }
  | .connected (.ok ()) => { c with pods := c.pods ++ [Call.opens c.asked] }
  | _ => c

/-- The conversations of a run. -/
def of (labels : List Label) : Conversations := labels.foldl hear ⟨[], [], []⟩

theorem of_concat (labels : List Label) (label : Label) :
    of (labels ++ [label]) = (of labels).hear label := by
  rw [of, List.foldl_append, List.foldl_cons, List.foldl_nil, ← of]

/-- What is typed under the empty id is for `docker exec`. -/
theorem hear_pods {c : Conversations} {label : Label} {data : Bytes}
    (h : .tells [] data ∈ (c.hear label).pods) : .tells [] data ∈ c.pods := by
  unfold hear at h
  split at h
  · split at h <;> exact h
  · simpa using h
  · split at h
    · exact h
    · next hnone =>
        rcases List.mem_append.mp h with h | h
        · exact h
        · cases List.mem_singleton.mp h
          exact absurd (.inl rfl) hnone
  · exact h
  · exact h
  · simpa using h
  · simpa using h
  · exact h

theorem tells_pods (labels : List Label) (data : Bytes) : .tells [] data ∉ (of labels).pods := by
  induction labels using List.reverseRecOn with
  | nil => exact List.not_mem_nil
  | append_singleton labels label ih =>
      rw [of_concat]
      exact fun h => ih (hear_pods h)

end Conversations

/-! ## What a session has been given -/

def shellLine (pty : Pty) : Line Str Bytes := ⟨pty.sessionId, pty.typed ++ pty.input.items⟩

/-- A pod's writer may fail, and writes nothing from then on. -/
structure PodLine (pod : PodExec) (line : Line Str Bytes) : Prop where
  key : line.key = pod.sessionId
  written : pod.stdin <+: line.heard
  pending : pod.writer = .running → line.heard = pod.stdin ++ pod.input.items

structure Agrees (s : State) (c : Conversations) : Prop where
  shells : (Board.after c.shells).lines = s.ptys.map shellLine
  termSessions : ∀ x, s.termSessions x = if x = [] then none else (Board.after c.shells).live x
  execSession : s.execSession = (Board.after c.shells).live []
  pods : List.Forall₂ PodLine s.pods (Board.after c.pods).lines
  k8sExecSessions : s.k8sExecSessions = (Board.after c.pods).live
  asked : ∀ x, s.main = .connecting x → c.asked = x

/-! ## The sessions -/

section Sessions

variable {pty pty' : Pty} {pod pod' : PodExec} {line : Line Str Bytes} {item : Bytes}
  {channel rest : Channel Bytes}

theorem items_recv (h : channel.recv = some (some item, rest)) :
    channel.items = item :: rest.items := by
  obtain ⟨items, alive⟩ := channel
  cases items with
  | nil =>
      simp only [Channel.recv] at h
      split at h <;> cases h
  | cons item items =>
      cases h
      rfl

theorem shellLine_step {l : PtyLabel} {message : Option Message}
    (hs : pty.step l = some (pty', message)) : shellLine pty' = shellLine pty := by
  cases Pty.step_move hs with
  | write hrecv =>
      simp only [shellLine, items_recv hrecv, List.append_assoc, List.singleton_append]
  | print | exit | hangUp | read | send | readEnd | reap | writeEnd | resize | resizeEnd => rfl

theorem PodLine.step {send : Message → Except OutgoingSendError Unit} {l : PodLabel}
    {message : Option Message} (hline : PodLine pod line)
    (hs : pod.step send l = some (pod', message)) : PodLine pod' line := by
  have hsame : ∀ {p : PodExec}, p.sessionId = pod.sessionId → p.stdin = pod.stdin →
      (p.writer = .running → pod.writer = .running ∧ p.input = pod.input) → PodLine p line := by
    intro p hid hstdin hwriter
    refine ⟨hline.key.trans hid.symm, hstdin ▸ hline.written, fun hrunning => ?_⟩
    obtain ⟨hrunning, hinput⟩ := hwriter hrunning
    rw [hstdin, hinput, hline.pending hrunning]
  cases l with
  | write ok =>
      simp only [PodExec.step] at hs
      split at hs
      · next hrunning =>
          split at hs
          · next data input hrecv =>
              have hheard := hline.pending hrunning
              rw [items_recv hrecv] at hheard
              split at hs
              · cases hs
                refine ⟨hline.key, ⟨input.items, ?_⟩, fun _ => ?_⟩
                · rw [hheard, List.append_assoc, List.singleton_append]
                · rw [hheard, List.append_assoc, List.singleton_append]
              · cases hs
                exact ⟨hline.key, hline.written, fun hrunning => by cases hrunning⟩
          · cases hs
            exact hsame rfl rfl fun hrunning => by cases hrunning
          · cases hs
      · cases hs
  | resize ok =>
      simp only [PodExec.step] at hs
      split at hs
      · split at hs
        · split at hs
          · cases hs
            exact hsame rfl rfl fun hrunning => ⟨hrunning, rfl⟩
          · cases hs
            exact hsame rfl rfl fun hrunning => ⟨hrunning, rfl⟩
        · cases hs
          exact hsame rfl rfl fun hrunning => ⟨hrunning, rfl⟩
        · cases hs
      · cases hs
  | close =>
      cases hs
      exact hsame rfl rfl fun hrunning => ⟨hrunning, rfl⟩
  | supervise =>
      simp only [PodExec.step] at hs
      split at hs
      · cases hs
        exact hsame rfl rfl fun hrunning => by cases hrunning
      · cases hs
  | arrive data =>
      simp only [PodExec.step] at hs
      split at hs
      · cases hs
      · cases hs
        exact hsame rfl rfl fun hrunning => ⟨hrunning, rfl⟩
  | read | readEnd | join =>
      simp only [PodExec.step] at hs
      split at hs
      · cases hs
        exact hsame rfl rfl fun hrunning => ⟨hrunning, rfl⟩
      · cases hs

theorem PodLine.hear (hline : PodLine pod line) (data : Bytes) :
    PodLine { pod with input := pod.input.send data } (line.hear data) where
  key := hline.key
  written := hline.written.trans (List.prefix_append ..)
  pending hrunning := by
    show line.heard ++ [data] = pod.stdin ++ (pod.input.items ++ [data])
    rw [hline.pending hrunning, List.append_assoc]

end Sessions

/-! ## The tables -/

namespace Agrees

variable {c : Conversations}

/-- The rest of a state does not matter. -/
theorem same {t : State} (h : Agrees s c) (hptys : t.ptys.map shellLine = s.ptys.map shellLine)
    (hpods : ∀ lines, List.Forall₂ PodLine s.pods lines → List.Forall₂ PodLine t.pods lines)
    (hterms : t.termSessions = s.termSessions) (hexec : t.execSession = s.execSession)
    (hk8s : t.k8sExecSessions = s.k8sExecSessions)
    (hmain : t.main = s.main ∨ ∀ x, t.main ≠ .connecting x) : Agrees t c where
  shells := h.shells.trans hptys.symm
  termSessions x := hterms ▸ h.termSessions x
  execSession := hexec ▸ h.execSession
  pods := hpods _ h.pods
  k8sExecSessions := hk8s ▸ h.k8sExecSessions
  asked x hx := by
    rcases hmain with hmain | hmain
    · exact h.asked x (hmain ▸ hx)
    · exact absurd hx (hmain x)

theorem send (h : Agrees s c) (origin : Origin) (message : Message) :
    Agrees (s.send origin message) c := by
  rcases s.send_cases origin message with ⟨_, _, heq⟩ | ⟨_, heq⟩
  · rw [heq]
    exact h
  · rw [heq]
    exact h.same rfl (fun _ hpods => hpods) rfl rfl rfl (.inl rfl)

theorem sends (h : Agrees s c) (origin : Origin) (message : Option Message) :
    Agrees (s.sends origin message) c := by
  cases message with
  | none => exact h
  | some message => exact h.send origin message

theorem dropPty (h : Agrees s c) (handle : Option Nat) : Agrees (s.dropPty handle) c := by
  cases handle with
  | none => exact h
  | some i =>
      exact h.same (map_modify_same (f := shellLine) (fun _ => by rfl) s.ptys i)
        (fun _ hpods => hpods) rfl rfl rfl (.inl rfl)

theorem abortPod (h : Agrees s c) (handle : Option Nat) : Agrees (s.abortPod handle) c := by
  cases handle with
  | none => exact h
  | some i =>
      refine h.same rfl (fun _ hpods => forall₂_modify_left hpods ?_ i) rfl rfl rfl (.inl rfl)
      exact fun pod line hline => ⟨hline.key, hline.written, hline.pending⟩

theorem sendSize (h : Agrees s c) (size : Nat × Nat) (session : Option (Nat ⊕ Nat)) :
    Agrees (s.sendSize size session) c := by
  match session with
  | none => exact h
  | some (.inl i) =>
      exact h.same (map_modify_same (f := shellLine) (fun _ => by rfl) s.ptys i)
        (fun _ hpods => hpods) rfl rfl rfl (.inl rfl)
  | some (.inr i) =>
      refine h.same rfl (fun _ hpods => forall₂_modify_left hpods ?_ i) rfl rfl rfl (.inl rfl)
      exact fun pod line hline => ⟨hline.key, hline.written, hline.pending⟩

/-! What is typed -/

theorem tellShell (h : Agrees s c) (x : Str) (data : Bytes) :
    Agrees (s.sendInput data (((Board.after c.shells).live x).map .inl))
      { c with shells := c.shells ++ [Call.tells x data] } := by
  have htake : Board.after (c.shells ++ [Call.tells x data]) =
      (Board.after c.shells).take (.tells x data) := Board.after_concat ..
  cases hlive : (Board.after c.shells).live x with
  | none =>
      have hnow : Board.after (c.shells ++ [Call.tells x data]) = Board.after c.shells := by
        rw [htake]
        simp only [Board.take, hlive]
      exact ⟨hnow ▸ h.shells, fun y => hnow ▸ h.termSessions y, hnow ▸ h.execSession, h.pods,
        h.k8sExecSessions, h.asked⟩
  | some i =>
      have hnow : Board.after (c.shells ++ [Call.tells x data]) = { Board.after c.shells with
          lines := (Board.after c.shells).lines.modify i (Line.hear data) } := by
        rw [htake]
        simp only [Board.take, hlive]
      refine ⟨?_, fun y => ?_, ?_, h.pods, h.k8sExecSessions, h.asked⟩
      · show (Board.after (c.shells ++ [Call.tells x data])).lines = _
        rw [hnow]
        show (Board.after c.shells).lines.modify i (Line.hear data) = _
        rw [h.shells]
        refine (map_modify (fun pty => ?_) s.ptys i).symm
        show Line.mk pty.sessionId (pty.typed ++ (pty.input.items ++ [data])) =
          Line.mk pty.sessionId ((pty.typed ++ pty.input.items) ++ [data])
        rw [List.append_assoc]
      · show s.termSessions y = if y = [] then none else
          (Board.after (c.shells ++ [Call.tells x data])).live y
        rw [hnow]
        exact h.termSessions y
      · show s.execSession = (Board.after (c.shells ++ [Call.tells x data])).live []
        rw [hnow]
        exact h.execSession

theorem tellPod (h : Agrees s c) (x : Str) (data : Bytes) :
    Agrees (s.sendInput data ((s.k8sExecSessions x).map .inr))
      { c with pods := c.pods ++ [Call.tells x data] } := by
  have htake : Board.after (c.pods ++ [Call.tells x data]) =
      (Board.after c.pods).take (.tells x data) := Board.after_concat ..
  rw [h.k8sExecSessions]
  cases hlive : (Board.after c.pods).live x with
  | none =>
      have hnow : Board.after (c.pods ++ [Call.tells x data]) = Board.after c.pods := by
        rw [htake]
        simp only [Board.take, hlive]
      exact ⟨h.shells, h.termSessions, h.execSession, hnow ▸ h.pods, hnow ▸ h.k8sExecSessions,
        h.asked⟩
  | some i =>
      have hnow : Board.after (c.pods ++ [Call.tells x data]) = { Board.after c.pods with
          lines := (Board.after c.pods).lines.modify i (Line.hear data) } := by
        rw [htake]
        simp only [Board.take, hlive]
      refine ⟨h.shells, h.termSessions, h.execSession, ?_, ?_, h.asked⟩
      · show List.Forall₂ PodLine _ (Board.after (c.pods ++ [Call.tells x data])).lines
        rw [hnow]
        exact forall₂_modify h.pods (fun pod line hline => hline.hear data) i
      · show _ = (Board.after (c.pods ++ [Call.tells x data])).live
        rw [hnow]
        exact h.k8sExecSessions

theorem terminalData (h : Agrees s c) (x : Str) (data : Bytes) (spawned : Except Str Unit) :
    Agrees (s.sendInput data (s.session x)) (c.hear (.message (.terminalData x data) spawned)) := by
  show Agrees _ (if x = [] ∨ isOpen x c.shells = true then
    { c with shells := c.shells ++ [Call.tells x data] } else
    { c with pods := c.pods ++ [Call.tells x data] })
  rw [← Board.isSome_live]
  by_cases hx : x = []
  · subst hx
    rw [if_pos (.inl rfl), State.session, if_pos rfl, h.execSession]
    exact h.tellShell [] data
  · have hterm := h.termSessions x
    rw [if_neg hx] at hterm
    cases hlive : (Board.after c.shells).live x with
    | some i =>
        rw [if_pos (.inr rfl), State.session, if_neg hx, hterm, hlive]
        have hshell := h.tellShell x data
        rw [hlive] at hshell
        exact hshell
    | none =>
        rw [if_neg (by simp [hx]), State.session, if_neg hx, hterm, hlive]
        exact h.tellPod x data

/-! What is opened and closed -/

theorem startTerminal (h : Agrees s c) (x : Str) (spawned : Except Str Unit) :
    Agrees (s.startTerminal x spawned) (c.hear (.message (.startTerminalRequest x) spawned)) := by
  cases spawned with
  | error e =>
      have hsame : s.startTerminal x (.error e) = s := by
        unfold State.startTerminal
        split
        · rfl
        · split <;> first | rfl | contradiction
      rw [hsame]
      exact h
  | ok _ =>
      show Agrees _ (if x = [] ∨ isOpen x c.shells = true then c else
        { c with shells := c.shells ++ [Call.opens x] })
      rw [← Board.isSome_live]
      by_cases hx : x = []
      · simp only [if_pos (Or.inl hx), State.startTerminal, if_pos hx]
        exact h
      · have hterm := h.termSessions x
        rw [if_neg hx] at hterm
        cases hlive : (Board.after c.shells).live x with
        | some i =>
            rw [if_pos (.inr rfl), startTerminal_known (hterm.trans hlive)]
            exact h
        | none =>
            rw [if_neg (by simp [hx]), startTerminal_new hx (hterm.trans hlive)]
            have htake : Board.after (c.shells ++ [Call.opens x]) =
                (Board.after c.shells).take (.opens x) := Board.after_concat ..
            have hlen : (Board.after c.shells).lines.length = s.ptys.length := by
              rw [h.shells, List.length_map]
            refine ⟨?_, fun y => ?_, ?_, h.pods, h.k8sExecSessions, h.asked⟩
            · show (Board.after (c.shells ++ [Call.opens x])).lines = _
              rw [htake]
              show (Board.after c.shells).lines ++ _ = _
              rw [h.shells, List.map_append]
              rfl
            · show Function.update s.termSessions x (some s.ptys.length) y =
                if y = [] then none else (Board.after (c.shells ++ [Call.opens x])).live y
              rw [htake]
              show _ = if y = [] then none else
                Function.update (Board.after c.shells).live x (some _) y
              rw [hlen, Function.update_apply, Function.update_apply, h.termSessions y]
              by_cases hy : y = x
              · subst hy
                rw [if_pos rfl, if_pos rfl, if_neg hx]
              · rw [if_neg hy, if_neg hy]
            · show s.execSession = (Board.after (c.shells ++ [Call.opens x])).live []
              rw [htake]
              exact h.execSession.trans (Function.update_of_ne (Ne.symm hx) ..).symm

theorem closeShell (h : Agrees s c) (x : Str) {table : Str → Option Nat}
    (htable : s.termSessions = table) :
    Agrees { s with termSessions := Function.update table x none }
      { c with shells := if x = [] then c.shells else c.shells ++ [Call.closes x] } := by
  subst htable
  by_cases hx : x = []
  · subst hx
    refine ⟨h.shells, fun y => ?_, h.execSession, h.pods, h.k8sExecSessions, h.asked⟩
    show Function.update s.termSessions [] none y = if y = [] then none else
      (Board.after c.shells).live y
    rw [Function.update_apply, h.termSessions y]
    split <;> rfl
  · rw [if_neg hx]
    have htake : Board.after (c.shells ++ [Call.closes x]) = { Board.after c.shells with
        live := Function.update (Board.after c.shells).live x none } := Board.after_concat ..
    refine ⟨?_, fun y => ?_, ?_, h.pods, h.k8sExecSessions, h.asked⟩
    · show (Board.after (c.shells ++ [Call.closes x])).lines = _
      rw [htake]
      exact h.shells
    · show Function.update s.termSessions x none y = if y = [] then none else
        (Board.after (c.shells ++ [Call.closes x])).live y
      rw [htake, Function.update_apply, h.termSessions y]
      show _ = if y = [] then none else Function.update (Board.after c.shells).live x none y
      rw [Function.update_apply]
      by_cases hy : y = x
      · rw [if_pos hy, if_pos hy, ite_self]
      · rw [if_neg hy, if_neg hy]
    · show s.execSession = (Board.after (c.shells ++ [Call.closes x])).live []
      rw [htake]
      exact h.execSession.trans (Function.update_of_ne (Ne.symm hx) ..).symm

theorem closePod (h : Agrees s c) (x : Str) {table : Str → Option Nat}
    (htable : s.k8sExecSessions = table) :
    Agrees { s with k8sExecSessions := Function.update table x none }
      { c with pods := c.pods ++ [Call.closes x] } := by
  subst htable
  have htake : Board.after (c.pods ++ [Call.closes x]) = { Board.after c.pods with
      live := Function.update (Board.after c.pods).live x none } := Board.after_concat ..
  refine ⟨h.shells, h.termSessions, h.execSession, ?_, ?_, h.asked⟩
  · show List.Forall₂ PodLine _ (Board.after (c.pods ++ [Call.closes x])).lines
    rw [htake]
    exact h.pods
  · show Function.update s.k8sExecSessions x none = (Board.after (c.pods ++ [Call.closes x])).live
    rw [htake, h.k8sExecSessions]

theorem closeExec (h : Agrees s c) :
    Agrees { s with execSession := none } { c with shells := c.shells ++ [Call.closes []] } := by
  have htake : Board.after (c.shells ++ [Call.closes []]) = { Board.after c.shells with
      live := Function.update (Board.after c.shells).live [] none } := Board.after_concat ..
  refine ⟨?_, fun y => ?_, ?_, h.pods, h.k8sExecSessions, h.asked⟩
  · show (Board.after (c.shells ++ [Call.closes []])).lines = _
    rw [htake]
    exact h.shells
  · show s.termSessions y = if y = [] then none else
      (Board.after (c.shells ++ [Call.closes []])).live y
    rw [htake, h.termSessions y]
    by_cases hy : y = []
    · rw [if_pos hy, if_pos hy]
    · rw [if_neg hy, if_neg hy]
      exact (Function.update_of_ne hy ..).symm
  · show none = (Board.after (c.shells ++ [Call.closes []])).live []
    rw [htake]
    exact (Function.update_self [] none (Board.after c.shells).live).symm

theorem openExec (h : Agrees s c) {main : Main} (hmain : ∀ x, main ≠ .connecting x)
    (log : List Event) :
    Agrees { s with
        ptys := s.ptys ++ [spawnPty []], execSession := some s.ptys.length, main, log }
      { c with shells := c.shells ++ [Call.opens []] } := by
  have htake : Board.after (c.shells ++ [Call.opens []]) =
      (Board.after c.shells).take (.opens []) := Board.after_concat ..
  have hlen : (Board.after c.shells).lines.length = s.ptys.length := by
    rw [h.shells, List.length_map]
  refine ⟨?_, fun y => ?_, ?_, h.pods, h.k8sExecSessions, fun x hx => absurd hx (hmain x)⟩
  · show (Board.after (c.shells ++ [Call.opens []])).lines = _
    rw [htake]
    show (Board.after c.shells).lines ++ _ = _
    rw [h.shells, List.map_append]
    rfl
  · show s.termSessions y = if y = [] then none else
      (Board.after (c.shells ++ [Call.opens []])).live y
    rw [htake, h.termSessions y]
    by_cases hy : y = []
    · rw [if_pos hy, if_pos hy]
    · rw [if_neg hy, if_neg hy]
      exact (Function.update_of_ne hy ..).symm
  · show some s.ptys.length = (Board.after (c.shells ++ [Call.opens []])).live []
    rw [htake, ← hlen]
    exact (Function.update_self [] (some _) (Board.after c.shells).live).symm

theorem abortPod_k8sExecSessions {t : State} (handle : Option Nat) :
    (t.abortPod handle).k8sExecSessions = t.k8sExecSessions := by
  cases handle <;> rfl

theorem stopTerminal (h : Agrees s c) (x : Str) (spawned : Except Str Unit) :
    Agrees (s.stopTerminal x) (c.hear (.message (.stopTerminalRequest x) spawned)) :=
  have hdrop := (h.dropPty (s.termSessions x)).closeShell x (State.dropPty_termSessions _)
  (hdrop.abortPod _).closePod x (abortPod_k8sExecSessions _)

theorem startDockerExec (h : Agrees s c) (containerId shell : Str) (spawned : Except Str Unit) :
    Agrees (s.startDockerExec containerId shell spawned)
      (c.hear (.message (.dockerExecStartRequest containerId shell) spawned)) := by
  have hdrop := h.dropPty s.execSession
  have hfailed : ∀ main, (∀ x, main ≠ Main.connecting x) →
      Agrees { s.dropPty s.execSession with execSession := none, main }
        { c with shells := c.shells ++ [Call.closes []] } := fun main hmain =>
    hdrop.closeExec.same rfl (fun _ hpods => hpods) rfl rfl rfl (.inr hmain)
  show Agrees _ { c with shells := c.shells ++
    [if Conversations.execStarts containerId shell spawned = true then Call.opens []
      else Call.closes []] }
  unfold State.startDockerExec Conversations.execStarts
  cases hcheck : Docker.spawnDockerExec containerId shell with
  | error e => exact hfailed _ (by intro x hx; cases hx)
  | ok argv =>
      cases spawned with
      | error e => exact hfailed _ (by intro x hx; cases hx)
      | ok _ => exact hdrop.openExec (by intro x hx; cases hx) _

theorem startK8sExec (h : Agrees s c) (x namespaceName podName : Str) (container : Option Str)
    (command : List Str) (spawned : Except Str Unit) :
    Agrees (s.startK8sExec x)
      (c.hear (.message (.k8sExecRequest x namespaceName podName container command) spawned)) := by
  have hclosed := (h.abortPod (s.k8sExecSessions x)).closePod x (abortPod_k8sExecSessions _)
  refine ⟨hclosed.shells, hclosed.termSessions, hclosed.execSession, hclosed.pods,
    hclosed.k8sExecSessions, fun y hy => ?_⟩
  cases hy
  rfl

theorem connected (h : Agrees s c) {x : Str} (hmain : s.main = .connecting x)
    (result : Except Str Unit) : Agrees (s.connected x result) (c.hear (.connected result)) := by
  cases result with
  | error e =>
      refine h.same rfl (fun _ hpods => hpods) rfl rfl rfl (.inr ?_)
      intro x hx
      cases hx
  | ok _ =>
      have hasked := h.asked x hmain
      have htake : Board.after (c.pods ++ [Call.opens c.asked]) =
          (Board.after c.pods).take (.opens c.asked) := Board.after_concat ..
      refine ⟨h.shells, h.termSessions, h.execSession, ?_, ?_, fun y hy => by cases hy⟩
      · show List.Forall₂ PodLine (s.pods ++ [spawnExec x])
          (Board.after (c.pods ++ [Call.opens c.asked])).lines
        rw [htake, hasked]
        refine List.rel_append h.pods (.cons ⟨rfl, List.prefix_rfl, fun _ => rfl⟩ .nil)
      · show Function.update s.k8sExecSessions x (some s.pods.length) =
          (Board.after (c.pods ++ [Call.opens c.asked])).live
        rw [htake, hasked, h.k8sExecSessions, h.pods.length_eq]
        rfl

/-! Every step -/

theorem handle (h : Agrees s c) (message : ControlMessage) (spawned : Except Str Unit) :
    Agrees (s.handle message spawned) (c.hear (.message message spawned)) := by
  cases message with
  | startTerminalRequest x => exact h.startTerminal x spawned
  | stopTerminalRequest x => exact h.stopTerminal x spawned
  | terminalData x data => exact h.terminalData x data spawned
  | terminalResize x cols rows => exact h.sendSize (cols, rows) (s.session x)
  | dockerExecStartRequest containerId shell => exact h.startDockerExec containerId shell spawned
  | dockerExecStopRequest => exact (h.dropPty s.execSession).closeExec
  | k8sExecRequest x namespaceName podName container command =>
      exact h.startK8sExec x namespaceName podName container command spawned

theorem stepPty (h : Agrees s c) {i : Nat} {l : PtyLabel} (hs : s.stepPty i l = some s') :
    Agrees s' c := by
  unfold State.stepPty at hs
  split at hs
  · cases hs
  · next pty hpty =>
      obtain ⟨⟨pty', message⟩, hstep, rfl⟩ := Option.map_eq_some_iff.mp hs
      refine Agrees.sends ?_ _ _
      exact h.same (map_set_same hpty (shellLine_step hstep)) (fun _ hpods => hpods) rfl rfl rfl
        (.inl rfl)

theorem stepPod (h : Agrees s c) {i : Nat} {l : PodLabel} (hs : s.stepPod i l = some s') :
    Agrees s' c := by
  unfold State.stepPod at hs
  split at hs
  · cases hs
  · next pod hpod =>
      obtain ⟨⟨pod', message⟩, hstep, rfl⟩ := Option.map_eq_some_iff.mp hs
      refine Agrees.sends ?_ _ _
      refine h.same rfl (fun _ hpods => forall₂_set hpods hpod ?_) rfl rfl rfl (.inl rfl)
      intro line hline
      have hline' := hline.step hstep
      exact ⟨hline'.key, hline'.written, hline'.pending⟩

theorem stepQueue (h : Agrees s c) {e : QueueEnv} (hs : s.stepQueue e = some s') :
    Agrees s' c := by
  cases e with
  | take =>
      obtain ⟨queue, _, rfl⟩ := Option.map_eq_some_iff.mp hs
      exact h.same rfl (fun _ hpods => hpods) rfl rfl rfl (.inl rfl)
  | close =>
      cases hs
      exact h.same rfl (fun _ hpods => hpods) rfl rfl rfl (.inl rfl)
  | send message =>
      cases message with
      | terminalData => cases hs
      | _ =>
          cases hs
          exact h.send _ _

theorem step (h : Agrees s c) (hs : s.step label = some s') : Agrees s' (c.hear label) := by
  cases label with
  | message message spawned =>
      obtain ⟨_, rfl⟩ := message_idle hs
      exact h.handle message spawned
  | connected result =>
      simp only [State.step] at hs
      split at hs
      · next x hmain =>
          cases hs
          exact h.connected hmain result
      · cases hs
  | respond =>
      simp only [State.step] at hs
      split at hs
      · next message _ =>
          cases hs
          refine (h.send .main message).same rfl (fun _ hpods => hpods) rfl rfl rfl (.inr ?_)
          intro x hx
          cases hx
      · cases hs
  | pty i l => exact h.stepPty hs
  | pod i l => exact h.stepPod hs
  | queue e => exact h.stepQueue hs

end Agrees

/-- A run's tables and channels agree with its conversations. -/
theorem agrees {s₀ : State} {labels : List Label} (h0 : terminals.init s₀)
    (hrun : terminals.run s₀ labels = some s) : Agrees s (Conversations.of labels) := by
  induction labels using List.reverseRecOn generalizing s with
  | nil =>
      cases hrun
      obtain ⟨hptys, hpods, hterms, hexec, hk8s, hmain, _⟩ := h0
      refine ⟨?_, fun x => ?_, hexec, hpods ▸ .nil, hk8s, fun x hx => ?_⟩
      · rw [hptys]
        rfl
      · rw [hterms]
        exact (ite_self none).symm
      · rw [hmain] at hx
        cases hx
  | append_singleton labels label ih =>
      rw [Machine.run_append] at hrun
      obtain ⟨t, ht, hrun⟩ := Option.bind_eq_some_iff.mp hrun
      obtain ⟨_, hs, hdone⟩ := Option.bind_eq_some_iff.mp hrun
      cases hdone
      rw [Conversations.of_concat]
      exact (ih ht).step hs

/-- In every run, whatever is asked for and however the sessions' threads take turns, each
conversation has its session, in the order of opening, and what a host's session has been
given to write, and still waits for its writer, is what was typed under its id while the
conversation lasted: all of it, in order, and nothing else. The same holds of a pod's
session while its writer is running; when that has failed or come to its end, the beginning
is what was written. A pod's session under the empty id is given nothing. -/
theorem typed_as_meant {s₀ : State} {labels : List Label} (h0 : terminals.init s₀)
    (hrun : terminals.run s₀ labels = some s) :
    (s.ptys.length = opened (Conversations.of labels).shells ∧
      ∀ (i : Nat) pty, s.ptys[i]? = some pty → ∃ before rest,
        (Conversations.of labels).shells = before ++ .opens pty.sessionId :: rest ∧
          opened before = i ∧ pty.typed ++ pty.input.items = spoken pty.sessionId rest) ∧
    (s.pods.length = opened (Conversations.of labels).pods ∧
      ∀ (i : Nat) pod, s.pods[i]? = some pod → ∃ before rest,
        (Conversations.of labels).pods = before ++ .opens pod.sessionId :: rest ∧
          opened before = i ∧ pod.stdin <+: spoken pod.sessionId rest ∧
          (pod.writer = .running →
            pod.stdin ++ pod.input.items = spoken pod.sessionId rest) ∧
          (pod.sessionId = [] → pod.stdin = [])) := by
  have h := agrees h0 hrun
  refine ⟨⟨?_, ?_⟩, ?_, ?_⟩
  · rw [← Board.length_lines, h.shells, List.length_map]
  · intro i pty hpty
    have hline : (Board.after (Conversations.of labels).shells).lines[i]? =
        some (shellLine pty) := by
      rw [h.shells, List.getElem?_map, hpty]
      rfl
    exact Board.line_spoken hline
  · rw [← Board.length_lines, h.pods.length_eq]
  · intro i pod hpod
    obtain ⟨line, hline, hheard⟩ := forall₂_at h.pods hpod
    obtain ⟨before, rest, hcalls, hcount, hspoken⟩ := Board.line_spoken hline
    rw [hheard.key] at hcalls hspoken
    refine ⟨before, rest, hcalls, hcount, hspoken ▸ hheard.written, fun hrunning => ?_,
      fun hid => ?_⟩
    · rw [← hspoken, hheard.pending hrunning]
    · have hnone : spoken pod.sessionId rest = [] := by
        refine Switchboard.spoken_eq_nil fun data hmem => ?_
        refine Conversations.tells_pods labels data ?_
        rw [hcalls, ← hid]
        exact List.mem_append_right _ (List.mem_cons_of_mem _ hmem)
      have hwritten := hheard.written
      rw [hspoken, hnone] at hwritten
      exact List.prefix_nil.mp hwritten

/-- Two shells, a pod under the first one's id, and a shell that is stopped and started again. -/
def typing : List Label :=
  [startShell, .message (.startTerminalRequest "two".toList) (.ok ()),
    .message (.k8sExecRequest "tab".toList [] [] none []) (.ok ()), .connected (.ok ()), .respond,
    .message (.terminalData "tab".toList [1]) (.ok ()),
    .message (.terminalData "two".toList [2]) (.ok ()), .pty 0 .write,
    .message (.terminalData "tab".toList [3]) (.ok ()),
    .message (.stopTerminalRequest "two".toList) (.ok ()), startShell,
    .message (.startTerminalRequest "two".toList) (.ok ()),
    .message (.terminalData "two".toList [4]) (.ok ())]

theorem typed_as_meant_two : ∃ s, terminals.run noSessions typing = some s ∧
    (s.ptys.map fun pty => (pty.typed, pty.input.items)) =
      [([[1]], [[3]]), ([], [[2]]), ([], [[4]])] ∧
    s.ptys.length = opened (Conversations.of typing).shells := by
  have hrun : (terminals.run noSessions typing).map
      (fun s => s.ptys.map fun pty => (pty.typed, pty.input.items)) =
        some [([[1]], [[3]]), ([], [[2]]), ([], [[4]])] := by
    decide
  obtain ⟨s, hs, hseen⟩ := Option.map_eq_some_iff.mp hrun
  exact ⟨s, hs, hseen, (typed_as_meant noSessions_init hs).1.1⟩

end ShellfleetAgent.Agent.Terminals
