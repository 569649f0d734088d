import ShellfleetAgent.Privileged.RootSession
import ShellfleetAgent.Proofs.Pty
import ShellfleetAgent.Proofs.Transport

/-!
# What is typed at the client is what the root shell gets

A root session does to its transport what the two ends of a `Link` can do, one call at a
time. So what holds of every link holds of it, however the frames fare on the way: bytes
of the socket may be lost with a dropped read, or be an attacker's own.
-/

namespace ShellfleetAgent.Privileged

open ShellfleetAgent.Lib

variable {x : Externals}

/-! ## What a link does at one end -/

namespace Link

variable {y : Suite} {t : Link} {side : Side}

theorem step_deliver_eq {counter : UInt64} {data : Bytes}
    (hf : ¬Forged y t.sealed (t.ends side) counter data) :
    ∃ t', t.step y (.deliver side counter data) = some t' ∧
      t'.ends = Function.update t.ends side ((t.ends side).decrypt y counter data).1 ∧
      t'.got = Function.update t.got side
        (t.got side ++ ((t.ends side).decrypt y counter data).2.toOption.toList) ∧
      t'.sent = t.sent ∧ t'.sealed = t.sealed := by
  simp only [step, if_neg hf]
  obtain ⟨transport, result⟩ := (t.ends side).decrypt y counter data
  cases result with
  | ok plaintext => exact ⟨_, rfl, rfl, rfl, rfl, rfl⟩
  | error e =>
      refine ⟨_, rfl, rfl, ?_, rfl, rfl⟩
      show t.got = Function.update t.got side (t.got side ++ [])
      rw [List.append_nil, Function.update_eq_self]

theorem step_encrypt_eq (t : Link) (side : Side) (plaintext : Bytes) :
    ∃ t', t.step y (.encrypt side plaintext) = some t' ∧
      t'.ends = Function.update t.ends side ((t.ends side).encrypt y plaintext).1 ∧
      t'.sent = Function.update t.sent side (t.sent side ++
        ((t.ends side).encrypt y plaintext).2.toOption.toList.map fun _ => plaintext) ∧
      t'.got = t.got ∧ t'.sealed = logSealed y (t.ends side) plaintext t.sealed := by
  simp only [step]
  obtain ⟨transport, result⟩ := (t.ends side).encrypt y plaintext
  cases result with
  | ok frame => exact ⟨_, rfl, rfl, rfl, rfl, rfl⟩
  | error e =>
      refine ⟨_, rfl, rfl, ?_, rfl, rfl⟩
      show t.sent = Function.update t.sent side (t.sent side ++ [])
      rw [List.append_nil, Function.update_eq_self]

end Link

/-! ## What the loop does to its transport -/

namespace PtyState

variable {s s' : PtyState} {label : PtyLabel}

def Returned (s : PtyState) : Prop := ∃ r, s.stage = .returned r

/-- What a step of the loop comes to, for the transport. -/
inductive Uses (x : Externals) (s : PtyState) (label : PtyLabel) (s' : PtyState) : Prop
  | nothing (hd : s.decrypts x label = none) (he : s.encrypts label = none)
      (hsame : s'.transport = s.transport)
  | decrypt (counter : UInt64) (data : Bytes) (hlive : ¬s.Returned)
      (hd : s.decrypts x label = some (counter, data)) (he : s.encrypts label = none)
      (hnext : s'.Returned ∨ s'.transport = (s.transport.decrypt x.toSuite counter data).1)
  | encrypt (plaintext : TrustedPlaintext) (hlive : ¬s.Returned)
      (hd : s.decrypts x label = none) (he : s.encrypts label = some plaintext)
      (hnext : s'.Returned ∨ ∃ frame,
        sealPlaintext x s.transport plaintext = .ok (s'.transport, frame))

theorem not_returned (hstage : s.stage = .select ∨ s.stage = .sendExit) : ¬s.Returned := by
  rintro ⟨r, hr⟩
  rcases hstage with hstage | hstage
  · rw [hstage] at hr
    cases hr
  · rw [hstage] at hr
    cases hr

theorem sendEncryptedPty_ok {transport transport' : Transport} {plaintext : TrustedPlaintext}
    {sent : Except String Unit}
    (h : sendEncryptedPty x transport plaintext sent = .ok transport') :
    ∃ frame, sealPlaintext x transport plaintext = .ok (transport', frame) := by
  unfold sendEncryptedPty at h
  cases hseal : sealPlaintext x transport plaintext with
  | error e =>
      rw [hseal] at h
      cases h
  | ok r =>
      obtain ⟨next, frame⟩ := r
      rw [hseal] at h
      change (do
        let encoded ← x.encodeHost frame
        if Framable x.toCodec encoded then
          sent
          return next
        else throw "invalid trusted frame length") = Except.ok transport' at h
      cases hencode : x.encodeHost frame with
      | error e =>
          rw [hencode] at h
          cases h
      | ok encoded =>
          rw [hencode] at h
          change (if Framable x.toCodec encoded then (do
              sent
              return next)
            else throw "invalid trusted frame length") = Except.ok transport' at h
          split at h
          · cases sent with
            | error e => cases h
            | ok _ =>
                cases h
                exact ⟨frame, rfl⟩
          · cases h

theorem uses_answer {result : Except String Unit} (h : s.answer x result = some s') :
    Uses x s (.answer result) s' := by
  unfold answer at h
  have hsetup : ∀ next, (s.setup result next).transport = s.transport := by
    intro next
    cases result <;> rfl
  cases hstage : s.stage with
  | openpty =>
      rw [hstage] at h
      cases h
      exact .nothing rfl (if_neg (by rw [hstage]; nofun)) (hsetup _)
  | spawnCommand =>
      rw [hstage] at h
      refine .nothing rfl (if_neg (by rw [hstage]; nofun)) ?_
      cases result with
      | ok _ =>
          cases h
          rfl
      | error e =>
          cases h
          rfl
  | tryCloneReader =>
      rw [hstage] at h
      cases h
      exact .nothing rfl (if_neg (by rw [hstage]; nofun)) (hsetup _)
  | takeWriter =>
      rw [hstage] at h
      cases h
      exact .nothing rfl (if_neg (by rw [hstage]; nofun)) (hsetup _)
  | kill =>
      rw [hstage] at h
      cases h
      exact .nothing rfl (if_neg (by rw [hstage]; nofun)) rfl
  | wait =>
      rw [hstage] at h
      cases h
      exact .nothing rfl (if_neg (by rw [hstage]; nofun)) rfl
  | sendExit =>
      rw [hstage] at h
      cases h
      exact .encrypt _ (not_returned (.inr hstage)) rfl (if_pos hstage) (.inl ⟨_, rfl⟩)
  | select | returned =>
      rw [hstage] at h
      cases h

theorem uses_output {data : Option Bytes} {io : PtyIo} (hstage : s.stage = .select) :
    Uses x s (.output data io) (s.leave (onOutput x s.transport data io)) := by
  cases data with
  | none => exact .nothing rfl rfl rfl
  | some data =>
      refine .encrypt (.output "pty" data) (not_returned (.inl hstage)) rfl rfl ?_
      simp only [onOutput]
      cases hsend : sendEncryptedPty x s.transport (.output "pty" data) io.send with
      | ok transport => exact .inr (sendEncryptedPty_ok hsend)
      | error e => exact .inl ⟨_, rfl⟩

theorem uses_poll {n : Nat} {io : PtyIo} (hstage : s.stage = .select) :
    Uses x s (.poll n io) (s.poll x n io) := by
  have hlive := not_returned (.inl hstage)
  cases hfeed : s.incoming.feed x.toCodec (s.stream.take n) with
  | pending future =>
      refine .nothing ?_ rfl ?_
      · simp only [decrypts, hfeed]
      · simp only [poll, hfeed]
  | ready result =>
      cases result with
      | error e =>
          refine .nothing ?_ rfl ?_
          · simp only [decrypts, hfeed]
          · simp only [poll, hfeed, leave]
      | ok payload =>
          have hpoll : s.poll x n io = { s with
              stream := s.stream.drop n, yielded := s.yielded ++ [payload] }.leave
                (onFrame x s.transport payload io) := by
            simp only [poll, hfeed]
          rw [hpoll]
          cases hframe : x.decodeClient payload with
          | error e =>
              refine .nothing ?_ rfl ?_
              · simp only [decrypts, hfeed, hframe]
              · simp only [onFrame, hframe, leave]
          | ok frame =>
              cases frame with
              | ciphertext counter data =>
                  refine .decrypt counter data hlive ?_ rfl ?_
                  · simp only [decrypts, hfeed, hframe]
                  · simp only [onFrame, hframe]
                    obtain ⟨transport, plaintext⟩ := s.transport.decrypt x.toSuite counter data
                    cases plaintext with
                    | error e => exact .inl ⟨_, rfl⟩
                    | ok plaintext =>
                        dsimp only
                        split
                        · exact .inr rfl
                        · exact .inl ⟨_, rfl⟩
                        · exact .inl ⟨_, rfl⟩
              | resize cols rows =>
                  refine .nothing ?_ rfl ?_
                  · simp only [decrypts, hfeed, hframe]
                  · simp only [onFrame, hframe]
                    split <;> rfl
              | close | start | approve =>
                  refine .nothing ?_ rfl ?_
                  · simp only [decrypts, hfeed, hframe]
                  · simp only [onFrame, hframe, leave]

theorem step_uses (h : s.step x label = some s') : Uses x s label s' := by
  cases label with
  | write body =>
      obtain ⟨_, hs⟩ := Option.ite_none_right_eq_some.mp h
      cases hs
      exact .nothing rfl rfl rfl
  | answer result => exact uses_answer h
  | deadline =>
      obtain ⟨_, hs⟩ := Option.ite_none_right_eq_some.mp h
      cases hs
      exact .nothing rfl rfl rfl
  | readError =>
      obtain ⟨_, hs⟩ := Option.ite_none_right_eq_some.mp h
      cases hs
      exact .nothing rfl rfl rfl
  | output data io =>
      obtain ⟨hstage, hs⟩ := Option.ite_none_right_eq_some.mp h
      cases hs
      exact uses_output hstage
  | poll n io =>
      obtain ⟨⟨hstage, _⟩, hs⟩ := Option.ite_none_right_eq_some.mp h
      cases hs
      exact uses_poll hstage

theorem Returned.step (hr : s.Returned) (h : s.step x label = some s') : s'.Returned := by
  obtain ⟨r, hr⟩ := hr
  exact ⟨r, (returned_step hr h).1.trans hr⟩

end PtyState

/-! ## The session as a link -/

namespace RootSession

variable {s s' : RootSession} {t : Link} {label : RootLabel}

/-- The link has the session's ends and its records. The gate's end of a session that has
returned is of no use any more, and what was to be sent last may not have been. -/
structure Simulates (x : Externals) (s : RootSession) (t : Link) : Prop where
  client : t.ends .client = s.client
  broker : ¬s.gate.Returned → t.ends .broker = s.gate.transport
  sealed : t.sealed = s.sealed
  typed : t.sent .client = s.typed
  shell : t.got .broker = s.shell
  shown : t.got .client = s.shown
  printed : (t.sent .broker).map .ok <+: s.printed.map x.encodePlaintext
  printing : ¬s.gate.Returned → (t.sent .broker).map .ok = s.printed.map x.encodePlaintext

theorem sealPlaintext_ok {transport transport' : Transport} {plaintext : TrustedPlaintext}
    {frame : TrustedHostFrame} (h : sealPlaintext x transport plaintext = .ok (transport', frame)) :
    ∃ encoded sent, x.encodePlaintext plaintext = .ok encoded ∧
      transport.encrypt x.toSuite encoded = (transport', .ok sent) := by
  unfold sealPlaintext at h
  cases hencode : x.encodePlaintext plaintext with
  | error e =>
      rw [hencode] at h
      cases h
  | ok encoded =>
      rw [hencode] at h
      change ((transport.encrypt x.toSuite encoded).2 >>= fun sent => Except.ok
        ((transport.encrypt x.toSuite encoded).1,
          TrustedHostFrame.ciphertext sent.1 sent.2)) = Except.ok (transport', frame) at h
      cases hencrypt : transport.encrypt x.toSuite encoded with
      | mk next result =>
          rw [hencrypt] at h
          cases result with
          | error e => cases h
          | ok sent =>
              cases h
              exact ⟨encoded, sent, rfl, hencrypt⟩

theorem Simulates.gate_nothing (h : Simulates x s t) {label : PtyLabel} {gate : PtyState}
    (hs : s.gate.step x label = some gate) (hd : s.gate.decrypts x label = none)
    (he : s.gate.encrypts label = none) (hsame : gate.transport = s.gate.transport) :
    Simulates x { s with
      gate
      sealed := s.sealing x label
      shell := s.shell ++ s.handed x label
      printed := s.printed ++ (s.gate.encrypts label).toList } t := by
  have hlive : ¬gate.Returned → ¬s.gate.Returned := fun hlive hreturned =>
    hlive (hreturned.step hs)
  simp only [sealing, handed, hd, he, Option.toList_none, List.append_nil]
  exact ⟨h.client, fun hl => (h.broker (hlive hl)).trans hsame.symm, h.sealed, h.typed, h.shell,
    h.shown, h.printed, fun hl => h.printing (hlive hl)⟩

theorem Simulates.gate_decrypt (h : Simulates x s t) {label : PtyLabel} {gate : PtyState}
    {counter : UInt64} {data : Bytes} (hforges : s.forges x label = false)
    (hlive : ¬s.gate.Returned) (hd : s.gate.decrypts x label = some (counter, data))
    (he : s.gate.encrypts label = none)
    (hnext : gate.Returned ∨
      gate.transport = (s.gate.transport.decrypt x.toSuite counter data).1) :
    ∃ t', t.step x.toSuite (.deliver .broker counter data) = some t' ∧
      Simulates x { s with
        gate
        sealed := s.sealing x label
        shell := s.shell ++ s.handed x label
        printed := s.printed ++ (s.gate.encrypts label).toList } t' := by
  simp only [forges, hd, decide_eq_false_iff_not] at hforges
  rw [← h.broker hlive, ← h.sealed] at hforges
  obtain ⟨t', hstep, hends, hgot, hsent, hsealed⟩ := Link.step_deliver_eq hforges
  refine ⟨t', hstep, ?_⟩
  simp only [sealing, handed, hd, he, Option.toList_none, List.append_nil]
  refine ⟨?_, fun hl => ?_, hsealed.trans h.sealed, ?_, ?_, ?_, ?_, fun _ => ?_⟩
  · rw [hends]
    exact h.client
  · rw [hends, Function.update_self, h.broker hlive]
    rcases hnext with hreturned | hnext
    · exact absurd hreturned hl
    · exact hnext.symm
  · rw [hsent]
    exact h.typed
  · rw [hgot, Function.update_self, h.shell, h.broker hlive]
  · rw [hgot]
    exact h.shown
  · rw [hsent]
    exact h.printed
  · rw [hsent]
    exact h.printing hlive

theorem Simulates.gate_encrypt (h : Simulates x s t) {label : PtyLabel} {gate : PtyState}
    {plaintext : TrustedPlaintext} (hlive : ¬s.gate.Returned)
    (hd : s.gate.decrypts x label = none) (he : s.gate.encrypts label = some plaintext)
    (hnext : gate.Returned ∨ ∃ frame,
      sealPlaintext x s.gate.transport plaintext = .ok (gate.transport, frame)) :
    ∃ t', (t' = t ∨ ∃ encoded, t.step x.toSuite (.encrypt .broker encoded) = some t') ∧
      Simulates x { s with
        gate
        sealed := s.sealing x label
        shell := s.shell ++ s.handed x label
        printed := s.printed ++ (s.gate.encrypts label).toList } t' := by
  simp only [sealing, handed, hd, he, Option.toList_some, List.append_nil]
  cases hencode : x.encodePlaintext plaintext with
  | error e =>
      have hreturned : gate.Returned := by
        rcases hnext with hreturned | ⟨frame, hseal⟩
        · exact hreturned
        · obtain ⟨encoded, _, hok, _⟩ := sealPlaintext_ok hseal
          rw [hencode] at hok
          cases hok
      refine ⟨t, .inl rfl, h.client, fun hl => absurd hreturned hl, h.sealed, h.typed, h.shell,
        h.shown, ?_, fun hl => absurd hreturned hl⟩
      show _ <+: (s.printed ++ [plaintext]).map x.encodePlaintext
      rw [List.map_append, ← h.printing hlive]
      exact List.prefix_append ..
  | ok encoded =>
      obtain ⟨t', hstep, hends, hsent, hgot, hsealed⟩ :=
        Link.step_encrypt_eq (y := x.toSuite) t .broker encoded
      refine ⟨t', .inr ⟨encoded, hstep⟩, ?_⟩
      rw [h.broker hlive] at hends hsent hsealed
      have hsentHere : (t'.sent .broker).map Except.ok =
          s.printed.map x.encodePlaintext ++
            ((s.gate.transport.encrypt x.toSuite encoded).2.toOption.toList.map
              fun _ => Except.ok encoded) := by
        rw [hsent, Function.update_self, List.map_append, h.printing hlive, List.map_map]
        rfl
      have hall : (s.printed ++ [plaintext]).map x.encodePlaintext =
          s.printed.map x.encodePlaintext ++ [Except.ok encoded] := by
        rw [List.map_append, List.map_singleton, hencode]
      refine ⟨?_, fun hl => ?_, hsealed.trans (by rw [h.sealed]), ?_, ?_, ?_, ?_, fun hl => ?_⟩
      · rw [hends]
        exact h.client
      · rcases hnext with hreturned | ⟨frame, hseal⟩
        · exact absurd hreturned hl
        · obtain ⟨encoded', sent, hok, hencrypt⟩ := sealPlaintext_ok hseal
          cases hencode.symm.trans hok
          rw [hends, Function.update_self, hencrypt]
      · rw [hsent]
        exact h.typed
      · rw [hgot]
        exact h.shell
      · rw [hgot]
        exact h.shown
      · show (t'.sent .broker).map Except.ok <+: (s.printed ++ [plaintext]).map x.encodePlaintext
        rw [hsentHere, hall]
        refine List.prefix_append_right_inj _ |>.mpr ?_
        cases (s.gate.transport.encrypt x.toSuite encoded).2 with
        | ok sent => exact List.prefix_rfl
        | error e => exact List.nil_prefix
      · show (t'.sent .broker).map Except.ok = (s.printed ++ [plaintext]).map x.encodePlaintext
        rw [hsentHere, hall]
        rcases hnext with hreturned | ⟨frame, hseal⟩
        · exact absurd hreturned hl
        · obtain ⟨encoded', sent, hok, hencrypt⟩ := sealPlaintext_ok hseal
          cases hencode.symm.trans hok
          rw [hencrypt]
          rfl

theorem step_typing (plaintext : Bytes) : s.step x (.typing plaintext) = some { s with
    client := (s.client.encrypt x.toSuite plaintext).1
    sealed := Link.logSealed x.toSuite s.client plaintext s.sealed
    typed := s.typed ++ (s.client.encrypt x.toSuite plaintext).2.toOption.toList.map
      fun _ => plaintext } := by
  cases hencrypt : s.client.encrypt x.toSuite plaintext with
  | mk client result =>
      cases result with
      | ok frame =>
          simp only [step, hencrypt]
          rfl
      | error e =>
          simp only [step, hencrypt, Except.toOption, Option.toList_none, List.map_nil,
            List.append_nil]

theorem step_deliver_inv {counter : UInt64} {data : Bytes}
    (hs : s.step x (.deliver counter data) = some s') :
    ¬Link.Forged x.toSuite s.sealed s.client counter data ∧ s' = { s with
      client := (s.client.decrypt x.toSuite counter data).1
      shown := s.shown ++ (s.client.decrypt x.toSuite counter data).2.toOption.toList } := by
  simp only [step] at hs
  split at hs
  · cases hs
  · next hforged =>
      refine ⟨hforged, ?_⟩
      cases hdecrypt : s.client.decrypt x.toSuite counter data with
      | mk client result =>
          rw [hdecrypt] at hs
          cases result with
          | ok plaintext => exact (Option.some.inj hs).symm
          | error e =>
              rw [← Option.some.inj hs]
              simp only [Except.toOption, Option.toList_none, List.append_nil]

/-- A step of the session is at most one call on the link. -/
theorem Simulates.step (h : Simulates x s t) (hs : s.step x label = some s') :
    ∃ t', (t' = t ∨ ∃ act, t.step x.toSuite act = some t') ∧ Simulates x s' t' := by
  cases label with
  | gate label =>
      simp only [RootSession.step] at hs
      split at hs
      · cases hs
      · next hforges =>
          obtain ⟨gate, hgate, rfl⟩ := Option.map_eq_some_iff.mp hs
          cases PtyState.step_uses hgate with
          | nothing hd he hsame => exact ⟨t, .inl rfl, h.gate_nothing hgate hd he hsame⟩
          | decrypt counter data hlive hd he hnext =>
              obtain ⟨t', hstep, h'⟩ :=
                h.gate_decrypt (Bool.eq_false_iff.mpr hforges) hlive hd he hnext
              exact ⟨t', .inr ⟨_, hstep⟩, h'⟩
          | encrypt plaintext hlive hd he hnext =>
              obtain ⟨t', hstep, h'⟩ := h.gate_encrypt hlive hd he hnext
              refine ⟨t', ?_, h'⟩
              rcases hstep with hsame | ⟨encoded, hstep⟩
              · exact .inl hsame
              · exact .inr ⟨_, hstep⟩
  | inject bytes =>
      cases hs
      exact ⟨t, .inl rfl, h.client, h.broker, h.sealed, h.typed, h.shell, h.shown, h.printed,
        h.printing⟩
  | typing plaintext =>
      rw [step_typing] at hs
      cases hs
      obtain ⟨t', hstep, hends, hsent, hgot, hsealed⟩ :=
        Link.step_encrypt_eq (y := x.toSuite) t .client plaintext
      refine ⟨t', .inr ⟨_, hstep⟩, ?_⟩
      rw [h.client] at hends hsent hsealed
      rw [h.sealed] at hsealed
      refine ⟨?_, ?_, hsealed, ?_, hgot ▸ h.shell, hgot ▸ h.shown, ?_, ?_⟩
      · rw [hends, Function.update_self]
      · rw [hends]
        exact h.broker
      · rw [hsent, Function.update_self, h.typed]
      · rw [hsent]
        exact h.printed
      · rw [hsent]
        exact h.printing
  | deliver counter ciphertext =>
      obtain ⟨hforged, rfl⟩ := step_deliver_inv hs
      rw [← h.sealed, ← h.client] at hforged
      obtain ⟨t', hstep, hends, hgot, hsent, hsealed⟩ := Link.step_deliver_eq hforged
      refine ⟨t', .inr ⟨_, hstep⟩, ?_⟩
      rw [h.client] at hends hgot
      refine ⟨?_, ?_, hsealed.trans h.sealed, hsent ▸ h.typed, ?_, ?_, hsent ▸ h.printed,
        hsent ▸ h.printing⟩
      · rw [hends, Function.update_self]
      · rw [hends]
        exact h.broker
      · rw [hgot]
        exact h.shell
      · rw [hgot, Function.update_self, h.shown]

theorem simulated {broker client : Transport} (hr : (rootSession x broker client).Reachable s) :
    ∃ t, (link x.toSuite broker client).Reachable t ∧ Simulates x s t := by
  refine hr.invariant (I := fun s => ∃ t, (link x.toSuite broker client).Reachable t ∧
    Simulates x s t) ?_ ?_
  · rintro s ⟨_, hbroker, hclient, hsealed, htyped, hshell, hprinted, hshown⟩
    refine ⟨_, .init rfl, hclient.symm, fun _ => hbroker.symm, hsealed.symm, htyped.symm,
      hshell.symm, hshown.symm, ?_, fun _ => ?_⟩
    · exact List.nil_prefix
    · rw [hprinted]
      rfl
  · rintro s label s' _ ⟨t, hreach, hsim⟩ _ hs
    obtain ⟨t', hstep, hsim'⟩ := hsim.step hs
    refine ⟨t', ?_, hsim'⟩
    rcases hstep with rfl | ⟨act, hstep⟩
    · exact hreach
    · exact .step hreach trivial hstep

end RootSession

/-- Whatever the relay, the server and the network do to the frames, and whatever of the
socket's bytes a dropped read takes with it: what has been written to the root shell's PTY
is a prefix of what the client has typed, unaltered and in order, and what the client has
been shown is a prefix of what the gate had to send. -/
theorem root_session_in_order (hx : x.toSuite.Ideal) {broker client : Transport}
    (hsess : Link.Session x.toSuite broker client) {s : RootSession}
    (hr : (rootSession x broker client).Reachable s) :
    s.shell <+: s.typed ∧ s.shown.map .ok <+: s.printed.map x.encodePlaintext := by
  obtain ⟨t, hreach, hsim⟩ := RootSession.simulated hr
  have hi := Link.inv_reachable hx hsess hreach
  constructor
  · rw [← hsim.shell, ← hsim.typed, (hi.received .broker).2]
    exact List.take_prefix _ _
  · rw [← hsim.shown, (hi.received .client).2]
    exact ((List.take_prefix _ _).map _).trans hsim.printed

/-- A ciphertext that was sealed at counter zero, behind a tag. -/
def taggedExternals : Externals :=
  { plainExternals with
    toSuite := plainSuite
    decodeClient := fun
      | 7 :: data => .ok (.ciphertext 0 data)
      | _ => .error "malformed" }

def sealedBytes (transport : Transport) (plaintext : Bytes) : Bytes :=
  transport.send.toList ++ Transport.nonce 0 ++ asBytes transport.requestId ++ plaintext

def keystroke : Bytes := 7 :: sealedBytes plainClient [108]

def rootStart : RootSession :=
  ⟨{ ptyStart with transport := plainBroker }, plainClient, [], [], [], [], []⟩

/-- Two keystrokes are typed, the first of them is delivered, and delivered again; the shell
prints a prompt in between. -/
def keystrokes : List RootLabel :=
  ptySetup.map .gate ++ [RootLabel.typing [108], .typing [115], .gate (.write keystroke),
    .gate (.poll 4 {}), .gate (.poll keystroke.length {}), .gate (.output (some [36]) {}),
    .deliver 0 (sealedBytes plainBroker [0]), .gate (.write keystroke), .gate (.poll 4 {}),
    .gate (.poll keystroke.length {})]

/-- The replayed keystroke ends the session, and the shell has seen it once. -/
theorem root_session_in_order_replayed :
    ∃ s, (rootSession taggedExternals plainBroker plainClient).Reachable s ∧
      s.typed = [[108], [115]] ∧ s.shell = [[108]] ∧ s.shown = [[0]] ∧ s.shell <+: s.typed := by
  have hrun : ((rootSession taggedExternals plainBroker plainClient).run rootStart
      keystrokes).map (fun s => (s.typed, s.shell, s.shown)) =
        some ([[108], [115]], [[108]], [[0]]) := by
    decide +kernel
  obtain ⟨s, hs, hseen⟩ := Option.map_eq_some_iff.mp hrun
  obtain ⟨htyped, hseen⟩ := Prod.mk.inj hseen
  obtain ⟨hshell, hshown⟩ := Prod.mk.inj hseen
  have hinit : (rootSession taggedExternals plainBroker plainClient).init rootStart :=
    ⟨⟨rfl, rfl, rfl, rfl, rfl, rfl⟩, rfl, rfl, rfl, rfl, rfl, rfl, rfl⟩
  have hr := Machine.Reach.run (.init hinit) hs
  exact ⟨s, hr, htyped, hshell, hshown, (root_session_in_order plainSuite_ideal plain_session hr).1⟩

end ShellfleetAgent.Privileged
