import ShellfleetAgent.Lib.Checks
import ShellfleetAgent.Privileged.Sessions
import ShellfleetAgent.Proofs.Gate

/-!
# The sessions are the gate's

Carried out where they stand, the operations of `Sessions.lean` give `handle`
back, so what is in view there is what the gate does anyway. The rest of this
file says what a sealing does to the transport it is made with: it leaves the
key alone, and it gives out the counter before it raises it. A root PTY is
walked through step by step for that; a command gets it from `send_encrypted`.
-/

namespace ShellfleetAgent.Privileged

open ShellfleetAgent.Lib

namespace Session

variable (x : Externals) {α β : Type}

/-- A session's code with its operations carried out in place. -/
def placed (m : SessionM α) : GateM α := ExceptT.mk (m.run.via (inPlace x))

variable {x}

theorem placed_bind (m : SessionM α) (k : α → SessionM β) :
    placed x (m >>= k) = placed x m >>= fun a => placed x (k a) := Prog.via_run_bind _ m k

theorem placed_gate (m : GateM α) : placed x (gate m) = m := by
  show ExceptT.mk ((m.run.via fun o => ask (.gate o)).via (inPlace x)) = m
  rw [Prog.via_via]
  exact Prog.via_perform m.run

theorem placed_sendEncrypted (t : Transport) (p : TrustedPlaintext) :
    placed x (sendEncrypted x t p) = Privileged.sendEncrypted x t p := by
  simp only [sendEncrypted, placed_bind, placed_gate]
  rfl

theorem placed_sendOutput (t : Transport) (stream : String) (data : Bytes) :
    placed x (sendOutput x t stream data) = Privileged.sendOutput x t stream data := by
  unfold sendOutput Privileged.sendOutput
  split
  · rfl
  · exact placed_sendEncrypted ..

theorem placed_runOperation (t : Transport) (op : TrustedOperation) :
    placed x (runOperation x t op) = Privileged.runOperation x t op := by
  cases op with
  | rootCommand program args timeoutSecs =>
      simp only [runOperation, runCommand, placed_bind, placed_gate, placed_sendOutput,
        placed_sendEncrypted]
      rfl
  | rootPty shell ttlSecs cols rows =>
      simp only [runOperation, placed_bind, placed_gate]
      rfl

theorem placed_serveApproval (g : GateState) (challenge signed : SignedTrustedManifest)
    (approver : Key) (signature : Bytes) :
    placed x (serveApproval x g challenge signed approver signature) =
      Privileged.serveApproval x g challenge signed approver signature := by
  unfold serveApproval Privileged.serveApproval
  split
  · rw [placed_gate]
  · simp only [placed_bind, placed_gate, placed_runOperation]
    rfl

theorem placed_handle (g : GateState) : placed x (handle x g) = Privileged.handle x g := by
  unfold handle Privileged.handle
  simp only [placed_bind, placed_gate]
  refine bind_congr fun uid => bind_congr fun expected => ?_
  split
  · rfl
  · simp only [placed_bind, placed_gate]
    refine bind_congr fun first => bind_congr fun start => bind_congr fun now => ?_
    refine bind_congr fun challenge => bind_congr fun _ => bind_congr fun approval => ?_
    refine bind_congr fun frame => ?_
    cases frame with
    | approve signed approver signature => exact placed_serveApproval ..
    | _ => exact placed_gate _

end Session

variable {x : Externals}

/-- Carried out in place, the calls are the gate's own. -/
theorem placed_start (c : GateCall) :
    ((sessionCode x).start c).via (Session.inPlace x) = (gateCode x).start c := by
  cases c with
  | connection g =>
      show (Prog.bind _ _).via _ = _
      rw [Prog.via_bind]
      exact congrArg (fun m : GateM Unit => m.run.bind _) (Session.placed_handle g)
  | challenge g start now =>
      show (Prog.bind _ _).via _ = _
      rw [Prog.via_bind]
      exact congrArg (fun m : GateM _ => m.run.bind _)
        (Session.placed_gate (g.challenge x start now))
  | approve g signed approver signature now =>
      show (Prog.bind _ _).via _ = _
      rw [Prog.via_bind]
      exact congrArg (fun m : GateM _ => m.run.bind _)
        (Session.placed_gate (g.approve x signed approver signature now))

/-! ## What is sealed, and what becomes of the transport -/

/-- From `T` to `T'`, `encrypt` returned what is in `made`. -/
structure Seals (t : Nat) (T : Transport) (made : List Sealing) (T' : Transport) : Prop where
  send : T'.send = T.send
  counted : (made = [] ∧ T'.sendCounter = T.sendCounter) ∨
    ∃ data, made = [⟨t, T.send, T.sendCounter, data⟩] ∧
      checkedSucc T.sendCounter = some T'.sendCounter

theorem Seals.none {t : Nat} {T : Transport} : Seals t T [] T := ⟨rfl, .inl ⟨rfl, rfl⟩⟩

theorem sealPlaintext_seals (x : Externals) (t : Nat) (T : Transport) (p : TrustedPlaintext) :
    (∃ e, sealPlaintext x T p = .error e ∧ sealings x t T p = []) ∨
    ∃ T' frame, sealPlaintext x T p = .ok (T', frame) ∧ Seals t T (sealings x t T p) T' := by
  unfold sealings
  cases hp : x.encodePlaintext p with
  | error e =>
      refine .inl ⟨e, ?_, rfl⟩
      rw [sealPlaintext, hp]
      rfl
  | ok encoded =>
      have hseal : sealPlaintext x T p = (T.encrypt x.toSuite encoded).2.map fun sealed =>
          ((T.encrypt x.toSuite encoded).1, .ciphertext sealed.1 sealed.2) := by
        rw [sealPlaintext, hp]
        rfl
      rw [hseal]
      rcases Transport.encrypt_cases x.toSuite T encoded with ⟨_, he⟩ | ⟨c, _, _, he⟩ |
        ⟨c, next, _, hs, he⟩
      · exact .inl ⟨_, by rw [he]; rfl, by simp only [he]⟩
      · exact .inl ⟨_, by rw [he]; rfl, by simp only [he]⟩
      · refine .inr ⟨{ T with sendCounter := next }, .ciphertext T.sendCounter c, ?_, rfl, .inr ?_⟩
        · rw [he]
          rfl
        · exact ⟨c, by simp only [he], hs⟩

/-- There is a transport for `encrypt` to leave, whether the plaintext was sealed or not. -/
theorem exists_seals (x : Externals) (t : Nat) (T : Transport) (p : TrustedPlaintext) :
    ∃ T', Seals t T (sealings x t T p) T' ∧
      ∀ T₁ frame, sealPlaintext x T p = .ok (T₁, frame) → T₁ = T' := by
  rcases sealPlaintext_seals x t T p with ⟨e, he, hnone⟩ | ⟨T', frame, hok, hseals⟩
  · refine ⟨T, hnone ▸ .none, fun T₁ frame hok => ?_⟩
    rw [he] at hok
    cases hok
  · refine ⟨T', hseals, fun T₁ frame₁ hok₁ => ?_⟩
    rw [hok] at hok₁
    cases hok₁
    rfl

theorem sendEncryptedPty_ok {T T' : Transport} {p : TrustedPlaintext} {sent : Except String Unit}
    (h : sendEncryptedPty x T p sent = .ok T') :
    ∃ frame, sealPlaintext x T p = .ok (T', frame) := by
  obtain ⟨⟨T₁, frame⟩, hmade, h⟩ := Checks.bind_ok h
  obtain ⟨encoded, _, h⟩ := Checks.bind_ok h
  split at h
  · obtain ⟨_, h⟩ := Checks.both_ok h
    cases h
    exact ⟨frame, hmade⟩
  · cases h

/-- Receiving does not touch the sending side. -/
theorem onFrame_next {T T' : Transport} {payload : Bytes} {io : PtyIo}
    (h : onFrame x T payload io = .next T') :
    T'.send = T.send ∧ T'.sendCounter = T.sendCounter := by
  unfold onFrame at h
  cases hframe : x.decodeClient payload with
  | error e =>
      rw [hframe] at h
      cases h
  | ok frame =>
      rw [hframe] at h
      cases frame with
      | ciphertext counter data =>
          dsimp only at h
          split at h
          · cases h
          · next t p hd =>
              obtain ⟨_, _, next, _, rfl⟩ := Transport.decrypt_ok.mp hd
              split at h
              · cases h
                exact ⟨rfl, rfl⟩
              · cases h
              · cases h
      | resize cols rows =>
          dsimp only at h
          split at h
          · cases h
            exact ⟨rfl, rfl⟩
          · cases h
      | _ => cases h

namespace PtyState

variable {s s' : PtyState}

theorem poll_seals {n : Nat} {io : PtyIo} (t : Nat) :
    ∃ T', Seals t s.transport [] T' ∧ ((s.poll x n io).result = none →
      (s.poll x n io).transport = T') := by
  unfold poll
  dsimp only
  split
  · exact ⟨_, .none, fun _ => rfl⟩
  · exact ⟨_, .none, fun _ => rfl⟩
  · next payload _ =>
      cases hf : onFrame x s.transport payload io with
      | next T' =>
          obtain ⟨hsend, hcounter⟩ := onFrame_next hf
          exact ⟨T', ⟨hsend, .inl ⟨rfl, hcounter⟩⟩, fun _ => rfl⟩
      | stop => exact ⟨_, .none, fun _ => rfl⟩
      | fail error => exact ⟨_, .none, nofun⟩

theorem output_seals {data : Option Bytes} {io : PtyIo} (t : Nat) :
    ∃ T', Seals t s.transport (s.sealings x t (.output data io)) T' ∧
      ((s.leave (onOutput x s.transport data io)).result = none →
        (s.leave (onOutput x s.transport data io)).transport = T') := by
  cases data with
  | none => exact ⟨_, .none, fun _ => rfl⟩
  | some data =>
      obtain ⟨T', hseals, hT'⟩ := exists_seals x t s.transport (.output "pty" data)
      refine ⟨T', hseals, fun hgoes => ?_⟩
      simp only [onOutput] at hgoes ⊢
      cases hsent : sendEncryptedPty x s.transport (.output "pty" data) io.send with
      | ok T₁ =>
          obtain ⟨frame, hok⟩ := sendEncryptedPty_ok hsent
          exact hT' T₁ frame hok
      | error e =>
          rw [hsent] at hgoes
          cases hgoes

theorem answer_seals {result : Except String Unit} (t : Nat)
    (h : s.answer x result = some s') :
    ∃ T', Seals t s.transport (s.sealings x t (.answer result)) T' ∧
      (s'.result = none → s'.transport = T') := by
  have hsetup : ∀ next, (s.setup result next).transport = s.transport := by
    intro next
    cases result <;> rfl
  by_cases hexit : s.stage = .sendExit
  · obtain ⟨T', hseals, -⟩ := exists_seals x t s.transport (.exit 0 "root PTY closed")
    refine ⟨T', by rw [sealings, if_pos hexit]; exact hseals, fun hgoes => ?_⟩
    simp only [answer, hexit] at h
    cases h
    cases hgoes
  · refine ⟨s.transport, by rw [sealings, if_neg hexit]; exact .none, fun _ => ?_⟩
    unfold answer at h
    split at h
    · cases h
      exact hsetup _
    · cases result <;> cases h <;> rfl
    · cases h
      exact hsetup _
    · cases h
      exact hsetup _
    · cases h
      rfl
    · cases h
      rfl
    · next hstage => exact absurd hstage hexit
    · cases h
    · cases h

/-- The PTY makes at most one sealing in a step, and if it goes on, then with
the transport that sealing leaves. -/
theorem step_seals {l : PtyLabel} (t : Nat) (h : s.step x l = some s') :
    ∃ T', Seals t s.transport (s.sealings x t l) T' ∧ (s'.result = none → s'.transport = T') := by
  cases l with
  | answer result => exact answer_seals t h
  | output data io =>
      simp only [step] at h
      split at h
      · cases h
        exact output_seals t
      · cases h
  | poll n io =>
      simp only [step] at h
      split at h
      · cases h
        exact poll_seals t
      · cases h
  | write body =>
      simp only [step] at h
      split at h <;> cases h
      exact ⟨_, .none, fun _ => rfl⟩
  | deadline =>
      simp only [step] at h
      split at h <;> cases h
      exact ⟨_, .none, fun _ => rfl⟩
  | readError =>
      simp only [step] at h
      split at h <;> cases h
      exact ⟨_, .none, fun _ => rfl⟩

/-- What has returned stays returned, and seals nothing. -/
theorem step_returned {l : PtyLabel} (t : Nat) {r : Except String Unit}
    (hr : s.result = some r) (h : s.step x l = some s') :
    s'.result = some r ∧ s.sealings x t l = [] := by
  have hstage : s.stage = .returned r := by
    unfold result at hr
    split at hr
    · next hs =>
        cases hr
        exact hs
    · cases hr
  cases l with
  | write body =>
      simp only [step] at h
      split at h <;> cases h
      exact ⟨hr, rfl⟩
  | _ => simp [step, answer, hstage] at h

end PtyState

end ShellfleetAgent.Privileged
