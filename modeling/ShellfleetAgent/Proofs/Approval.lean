import ShellfleetAgent.Proofs.Ledger

/-!
# `challenge` and `approve`, one program at a time

Two kinds of fact about the gate's programs. Read backwards, a run that
succeeded has passed every check on the way: `checkApproval_returns` and
`approve_returns` say what a returned `Ok` means for the history behind it.
Read forwards, a program started outside a transaction ends outside one, on
every path: `Idle` is kept by each statement, and most statements keep it for
the dull reason that they do not touch the database.
-/

namespace ShellfleetAgent.Privileged

open ShellfleetAgent.Lib

/-- The operation that a call to the world starts, if it starts one. -/
def GateOp.entered : GateOp → Option TrustedOperation
  | .commandOutput program args timeoutSecs => some (.rootCommand program args timeoutSecs)
  | .ptySession shell ttlSecs cols rows => some (.rootPty shell ttlSecs cols rows)
  | _ => none

/-- Only `challenge` inserts, so a bare `approve` never does. -/
def GateCall.mayInsert : GateCall → Prop
  | .approve .. => False
  | _ => True

/-- Operations that leave the ledger alone and start nothing. -/
def Quiet (c : GateCall) : GateOp → Prop
  | .insertPending .. => c.mayInsert
  | .updateConsumed .. | .commit | .rollback | .commandOutput .. | .ptySession .. => False
  | _ => True

/-- A call keeps to its transaction, and starts an operation only where `entry`
allows it. -/
def gateContract (entry : GateCall → GateHistory → TrustedOperation → Prop) (c : GateCall) :
    Contract GateOp GateResp where
  may h o := (ledger h).txn.allows o ∧
    (∀ id m e, o = .insertPending id m e → c.mayInsert) ∧
    ∀ op, o.entered = some op → entry c h op
  answer _ _ _ := True

/-- No update of this thread is waiting to be committed. -/
def Idle (h : GateHistory) : Prop := (ledger h).txn = .idle

variable {α β : Type} {S : GateOp → Prop} {x : Externals} {g : GateState} {c : GateCall}
  {entry : GateCall → GateHistory → TrustedOperation → Prop} {h : GateHistory}

/-! ## Operations, one at a time -/

theorem only_ask (o : GateOp) (ho : S o) : (ask o).Only S := Prog.only_perform.mpr ho

theorem only_always {p : Prog GateOp GateResp α} (hp : p.Only S) : (always p).run.Only S :=
  Prog.Only.bind hp fun _ => trivial

theorem only_mapErr {f : String → String} {m : GateM α} (hm : m.run.Only S) :
    (mapErr f m).run.Only S :=
  Prog.Only.bind hm fun r => by cases r <;> trivial

theorem hoist_returns {r : Except String α} {a : α} (hr : Returns (hoist r).run h (.ok a)) :
    h = [] ∧ r = .ok a :=
  ⟨hr.ret_inv.1, hr.ret_inv.2.symm⟩

theorem ask_returns {o : GateOp} {r : GateResp o} (hr : Returns (ask o) h r) : h = [⟨o, r⟩] :=
  hr.perform_inv

theorem always_returns {p : Prog GateOp GateResp α} {a : α}
    (hr : Returns (always p).run h (.ok a)) : Returns p h a := by
  obtain ⟨h₁, h₂, b, rfl, hp, hk⟩ := Returns.bind_inv hr
  obtain ⟨rfl, heq⟩ := hk.ret_inv
  cases heq
  rwa [List.append_nil]

theorem mapErr_returns {f : String → String} {m : GateM α} {a : α}
    (hr : Returns (mapErr f m).run h (.ok a)) : Returns m.run h (.ok a) := by
  obtain ⟨h₁, h₂, r, rfl, hm, hk⟩ := Returns.bind_inv hr
  cases r with
  | ok b =>
      obtain ⟨rfl, heq⟩ := hk.ret_inv
      cases heq
      rwa [List.append_nil]
  | error e => cases hk.ret_inv.2

/-! ## Programs that leave the ledger alone -/

theorem quiet_readFrame {y : Codec} : (readFrame y).run.Only (Quiet c) := by
  refine .run_bind (only_mapErr (only_ask (.readExact 4) trivial)) fun head => ?_
  dsimp only
  split
  · trivial
  · exact only_mapErr (only_ask (.readExact _) trivial)

theorem quiet_writeFrame {y : Codec} {body : Bytes} : (writeFrame y body).run.Only (Quiet c) := by
  unfold writeFrame
  split
  · trivial
  · refine .run_bind (only_mapErr (only_ask (.writeAll _) trivial)) fun _ => ?_
    refine .run_bind (only_mapErr (only_ask (.writeAll _) trivial)) fun _ => ?_
    exact only_mapErr (only_ask .flush trivial)

theorem quiet_sendHost {frame : TrustedHostFrame} : (sendHost x frame).run.Only (Quiet c) :=
  .run_bind trivial fun _ => quiet_writeFrame

theorem quiet_sendEncrypted {t : Transport} {p : TrustedPlaintext} :
    (sendEncrypted x t p).run.Only (Quiet c) := by
  refine .run_bind trivial fun sealed => ?_
  exact .run_bind quiet_sendHost fun _ => trivial

theorem quiet_sendOutput {t : Transport} {stream : String} {data : Bytes} :
    (sendOutput x t stream data).run.Only (Quiet c) := by
  unfold sendOutput
  split
  · trivial
  · exact quiet_sendEncrypted

theorem quiet_configuredAgentUid : configuredAgentUid.run.Only (Quiet c) := by
  refine .run_bind (only_always (only_ask .agentUidVar trivial)) fun raw => ?_
  cases raw with
  | some raw =>
      dsimp only
      split <;> trivial
  | none =>
      refine .run_bind (only_ask .readPasswd trivial) fun passwd => ?_
      split <;> trivial

theorem quiet_policyVersion : policyVersion.run.Only (Quiet c) :=
  .run_bind (only_always (only_ask .policyVersionVar trivial)) fun _ => trivial

theorem quiet_challenge {start : TrustedClientFrame} {now : Int} (hc : c.mayInsert) :
    (g.challenge x start now).run.Only (Quiet c) := by
  unfold GateState.challenge
  split
  · refine .run_bind trivial fun _ => .run_bind trivial fun _ => ?_
    refine .run_bind (only_always (only_ask .fillNonce trivial)) fun nonce => ?_
    refine .run_bind quiet_policyVersion fun policy => .run_bind trivial fun canonical => ?_
    refine .run_bind (only_ask .openDb trivial) fun _ => ?_
    exact .run_bind (only_mapErr (only_ask (.insertPending ..) hc)) fun _ => trivial
  · trivial

theorem quiet_loadApprovers {path : String} :
    (GateState.loadApprovers x path).run.Only (Quiet c) :=
  .run_bind (only_mapErr (only_ask (.readApprovers path) trivial)) fun _ => trivial

theorem quiet_checkApproval {signed : SignedTrustedManifest} {key : Key} {signature : Bytes}
    {now : Int} : (g.checkApproval x signed key signature now).run.Only (Quiet c) := by
  refine .run_bind quiet_policyVersion fun policy => ?_
  split
  · trivial
  · refine .run_bind trivial fun _ => .run_bind trivial fun canonical => ?_
    split
    · trivial
    · refine .run_bind quiet_loadApprovers fun approvers => ?_
      repeat' split
      all_goals trivial

/-! ## What a returned `Ok` means -/

theorem consume_returns {canonical : Bytes} {id : String} {now : Int}
    (hr : Returns (GateState.consume canonical id now).run h (.ok ())) :
    ∃ e status,
      h = [⟨.selectRequest id, .ok (some (canonical, status, e))⟩,
        ⟨.updateConsumed id now, .ok 1⟩, ⟨.commit, .ok ()⟩] := by
  obtain ⟨h₁, h₂, selected, rfl, hs, hr₁⟩ := Returns.run_bind_inv hr
  cases ask_returns hs
  cases selected with
  | none => cases hr₁.ret_inv.2
  | some row =>
      obtain ⟨stored, status, e⟩ := row
      dsimp only at hr₁
      split at hr₁
      · cases hr₁.ret_inv.2
      · next hchecks =>
          obtain ⟨h₁, h₃, changed, rfl, hu, hr₂⟩ := Returns.run_bind_inv hr₁
          cases ask_returns hu
          split at hr₂
          · cases hr₂.ret_inv.2
          · next hchanged =>
              cases ask_returns hr₂
              obtain rfl : changed = 1 := by simpa using hchanged
              obtain ⟨rfl, -, -⟩ : stored = canonical ∧ status = "pending" ∧ now ≤ e := by
                simpa using hchecks
              exact ⟨e, status, rfl⟩

theorem inTransaction_returns {body : GateM α} {a : α}
    (hr : Returns (GateState.inTransaction body).run h (.ok a)) :
    ∃ h', h = ⟨.begin, .ok ()⟩ :: h' ∧ Returns body.run h' (.ok a) := by
  obtain ⟨h₁, h₂, _, rfl, hb, hr₁⟩ := Returns.run_bind_inv hr
  cases ask_returns hb
  obtain ⟨h₁, h₃, r, rfl, hbody, hr₂⟩ := Returns.run_bind_inv hr₁
  have hbody := always_returns hbody
  cases r with
  | ok b =>
      obtain ⟨rfl, heq⟩ := hr₂.ret_inv
      cases heq
      exact ⟨h₁, by simp, hbody⟩
  | error e =>
      obtain ⟨_, _, _, _, _, hr₃⟩ := Returns.run_bind_inv hr₂
      cases hr₃.ret_inv.2

theorem policyVersion_returns {policy : String} (hr : Returns policyVersion.run h (.ok policy)) :
    ∃ v, h = [⟨.policyVersionVar, v⟩] ∧ policy = v.getD "builtin-v1" := by
  obtain ⟨h₁, h₂, v, rfl, hv, hr₁⟩ := Returns.run_bind_inv hr
  cases ask_returns (always_returns hv)
  obtain ⟨rfl, heq⟩ := hr₁.ret_inv
  cases heq
  exact ⟨v, rfl, rfl⟩

theorem loadApprovers_returns {path : String} {keys : List (String × Key)}
    (hr : Returns (GateState.loadApprovers x path).run h (.ok keys)) :
    ∃ raw, h = [⟨.readApprovers path, .ok raw⟩] ∧
      GateState.parseApprovers x raw = .ok keys := by
  obtain ⟨h₁, h₂, raw, rfl, hraw, hr₁⟩ := Returns.run_bind_inv hr
  cases ask_returns (mapErr_returns hraw)
  obtain ⟨rfl, hkeys⟩ := hoist_returns hr₁
  exact ⟨raw, rfl, hkeys⟩

/-- Everything `approve` has verified before it touches the database. -/
structure Checked (x : Externals) (g : GateState) (signed : SignedTrustedManifest)
    (approver : Key) (signature : Bytes) (now : Int) (canonical : Bytes)
    (keyring : List (String × Key)) : Prop where
  version : signed.manifest.version = x.trustedProtocolVersion
  hostId : signed.manifest.hostId = g.hostId
  hostIdentity : signed.hostIdentityPublic = x.verifyingKey g.hostSigning
  unexpired : now ≤ signed.manifest.expiresAt
  classified : ∃ tier, classify signed.manifest.operation = .ok tier
  canonical_eq : x.canonicalBytes signed.manifest = .ok canonical
  hostSigned : x.verify (x.verifyingKey g.hostSigning) canonical signed.signature = true
  enrolled : ∃ name, (name, approver) ∈ keyring
  approverKey : x.wellFormedKey approver = true
  approverSigned : x.verify approver canonical signature = true

theorem checkApproval_returns {signed : SignedTrustedManifest} {approver : Key}
    {signature : Bytes} {now : Int} {canonical : Bytes}
    (hr : Returns (g.checkApproval x signed approver signature now).run h (.ok canonical)) :
    ∃ v raw keyring, h = [⟨.policyVersionVar, v⟩, ⟨.readApprovers g.approversPath, .ok raw⟩] ∧
      GateState.parseApprovers x raw = .ok keyring ∧
      Checked x g signed approver signature now canonical keyring := by
  obtain ⟨h₁, h₂, policy, rfl, hp, hr₁⟩ := Returns.run_bind_inv hr
  obtain ⟨v, rfl, hpolicy⟩ := policyVersion_returns hp
  split at hr₁
  · cases hr₁.ret_inv.2
  next hstale =>
  obtain ⟨h₁, h₃, tier, rfl, ht, hr₂⟩ := Returns.run_bind_inv hr₁
  obtain ⟨rfl, htier⟩ := hoist_returns ht
  obtain ⟨h₁, h₂, canon, rfl, hc, hr₃⟩ := Returns.run_bind_inv hr₂
  obtain ⟨rfl, hcanon⟩ := hoist_returns hc
  split at hr₃
  · cases hr₃.ret_inv.2
  next hhost =>
  obtain ⟨h₁, h₃, keyring, rfl, hk, hr₄⟩ := Returns.run_bind_inv hr₃
  obtain ⟨raw, rfl, hkeyring⟩ := loadApprovers_returns hk
  split at hr₄
  · cases hr₄.ret_inv.2
  next hlisted =>
  split at hr₄
  · cases hr₄.ret_inv.2
  next hkey =>
  split at hr₄
  · cases hr₄.ret_inv.2
  next hsig =>
  obtain ⟨rfl, heq⟩ := hr₄.ret_inv
  cases heq
  simp only [ne_eq, not_or, not_not, Int.not_lt] at hstale
  simp only [Bool.or_eq_true, Bool.not_eq_true', not_or, Bool.not_eq_false] at hhost hsig
  simp only [Bool.not_eq_true', Bool.not_eq_false] at hlisted hkey
  obtain ⟨entry, hmem, hentry⟩ := List.any_eq_true.mp hlisted
  have hname : entry = (entry.1, approver) := Prod.ext rfl (by simpa using hentry)
  exact ⟨v, raw, keyring, rfl, hkeyring,
    { version := hstale.1
      hostId := hstale.2.1
      hostIdentity := hstale.2.2.1
      unexpired := hstale.2.2.2.1
      classified := ⟨tier, htier⟩
      canonical_eq := hcanon
      hostSigned := hhost.2
      enrolled := ⟨entry.1, hname ▸ hmem⟩
      approverKey := hkey
      approverSigned := hsig.2 }⟩

/-- A run of `approve` that returned `Ok`. -/
theorem approve_returns {signed : SignedTrustedManifest} {approver : Key} {signature : Bytes}
    {now : Int} {m : TrustedManifest}
    (hr : Returns (g.approve x signed approver signature now).run h (.ok m)) :
    m = signed.manifest ∧ ∃ v raw keyring canonical stored,
      h = [⟨.policyVersionVar, v⟩, ⟨.readApprovers g.approversPath, .ok raw⟩,
        ⟨.openDb, .ok ()⟩, ⟨.begin, .ok ()⟩,
        ⟨.selectRequest m.requestId, .ok stored⟩,
        ⟨.updateConsumed m.requestId now, .ok 1⟩, ⟨.commit, .ok ()⟩] ∧
      GateState.parseApprovers x raw = .ok keyring ∧
      Checked x g signed approver signature now canonical keyring := by
  obtain ⟨h₁, h₂, canonical, rfl, hc, hr₁⟩ := Returns.run_bind_inv hr
  obtain ⟨v, raw, keyring, rfl, hkeyring, hchecked⟩ := checkApproval_returns hc
  obtain ⟨h₁, h₃, _, rfl, ho, hr₂⟩ := Returns.run_bind_inv hr₁
  cases ask_returns ho
  obtain ⟨h₁, h₂, _, rfl, ht, hr₃⟩ := Returns.run_bind_inv hr₂
  obtain ⟨h', rfl, hbody⟩ := inTransaction_returns ht
  obtain ⟨e, status, rfl⟩ := consume_returns hbody
  obtain ⟨rfl, heq⟩ := hr₃.ret_inv
  cases heq
  exact ⟨rfl, v, raw, keyring, canonical, _, rfl, hkeyring, hchecked⟩

/-- Whatever came before it, a successful `approve` wins its request id. -/
theorem approve_won {signed : SignedTrustedManifest} {approver : Key} {signature : Bytes}
    {now : Int} {m : TrustedManifest} (h₀ : GateHistory)
    (hr : Returns (g.approve x signed approver signature now).run h (.ok m)) :
    (ledger (h₀ ++ h)).won = (ledger h₀).won ++ [m.requestId] := by
  obtain ⟨rfl, v, raw, keyring, canonical, stored, rfl, _⟩ := approve_returns hr
  simp [ledger, Ledger.step, Ledger.won_commit]

/-! ## Outside a transaction before and after -/

/-- Started outside a transaction, the program keeps to the contract and ends
outside one. -/
def IdleFrom (entry : GateCall → GateHistory → TrustedOperation → Prop) (c : GateCall)
    (h : GateHistory) (m : GateM α) : Prop :=
  (gateContract entry c).wp m.run (fun h' _ => Idle h') h

theorem Quiet.neutral {o : GateOp} (ho : Quiet c o) (r : GateResp o) (l : Ledger) :
    l.step ⟨o, r⟩ = l := by
  cases o <;> first | rfl | cases ho

theorem Quiet.may {o : GateOp} (ho : Quiet c o) : (gateContract entry c).may h o := by
  cases o with
  | insertPending id m e => exact ⟨trivial, fun _ _ _ _ => ho, nofun⟩
  | updateConsumed | commit | rollback | commandOutput | ptySession => cases ho
  | _ => exact ⟨trivial, nofun, nofun⟩

/-- A history that ends in an operation the ledger does not notice. -/
theorem Idle.snoc {e : GateEvent} (hi : Idle h) (he : (ledger h).step e = ledger h) :
    Idle (h ++ [e]) := by
  rw [Idle, ledger_snoc, he]
  exact hi

theorem IdleFrom.quiet {m : GateM α} (hm : m.run.Only (Quiet c)) (hi : Idle h) :
    IdleFrom entry c h m :=
  Contract.wp_of_only hm
    (fun _ _ hi ho => ⟨Quiet.may ho, fun r _ => hi.snoc (Quiet.neutral ho r _)⟩) hi

theorem IdleFrom.pure {a : α} (hi : Idle h) : IdleFrom entry c h (Pure.pure a : GateM α) := hi

/-- A statement that keeps `Idle`, and then whatever follows once it has
returned. -/
theorem IdleFrom.bind {m : GateM α} {f : α → GateM β} (hm : IdleFrom entry c h m)
    (hf : ∀ e a, Idle (h ++ e) → Returns m.run e (.ok a) → IdleFrom entry c (h ++ e) (f a)) :
    IdleFrom entry c h (m >>= f) := by
  refine Contract.wp_run_bind.mpr (Contract.wp_mono (Contract.wp_returns hm) ?_)
  rintro h' r ⟨hi, e, rfl, hr⟩
  cases r with
  | ok a => exact hf e a hi hr
  | error e => exact hi

/-- A computed value goes by without a trace in the history. -/
theorem IdleFrom.hoist_bind {r : Except String α} {f : α → GateM β} (hi : Idle h)
    (hf : ∀ a, r = .ok a → IdleFrom entry c h (f a)) : IdleFrom entry c h (hoist r >>= f) := by
  cases r with
  | ok a => exact hf a rfl
  | error e => exact hi

/-- An operation that neither inserts a row nor enters anything. -/
theorem may_plain {o : GateOp} (hallowed : (ledger h).txn.allows o)
    (hinsert : ∀ id m e, o ≠ .insertPending id m e) (hentered : o.entered = none) :
    (gateContract entry c).may h o := by
  refine ⟨hallowed, fun id m e heq => absurd heq (hinsert id m e), fun op heq => ?_⟩
  rw [hentered] at heq
  cases heq

/-- The transaction's body ends committed and idle, or with an error that
`inTransaction` rolls back. -/
theorem wp_consume {canonical : Bytes} {id : String} {now : Int} (hi : Idle h) :
    (gateContract entry c).wp (GateState.consume canonical id now).run
      (fun h' r => ∀ a, r = .ok a → Idle h') h := by
  have hfailed : ∀ (e : String) (h' : GateHistory) (a : Unit),
      Except.error e = Except.ok a → Idle h' := by
    intro e h' a heq
    cases heq
  refine Contract.wp_run_bind.mpr ⟨Quiet.may trivial, fun selected _ => ?_⟩
  have hi₁ : Idle (h ++ [⟨.selectRequest id, selected⟩]) := hi.snoc rfl
  cases selected with
  | error e => exact hfailed _ _
  | ok row =>
  cases row with
  | none => exact hfailed _ _
  | some columns =>
      obtain ⟨stored, status, e⟩ := columns
      simp only [Contract.wp_ret]
      split
      · exact hfailed _ _
      · refine Contract.wp_run_bind.mpr ⟨may_plain hi₁ (by simp) rfl, fun changed _ => ?_⟩
        cases changed with
        | error e => exact hfailed _ _
        | ok n =>
            simp only [Contract.wp_ret]
            split
            · exact hfailed _ _
            · next hn =>
                obtain rfl : n = 1 := by simpa using hn
                have htxn : (ledger (h ++ [⟨.selectRequest id, .ok (some (stored, status, e))⟩] ++
                    [⟨.updateConsumed id now, .ok 1⟩])).txn = .updated id := by
                  rw [ledger_snoc]; rfl
                refine ⟨may_plain ⟨id, htxn⟩ (by simp) rfl, fun r _ => ?_⟩
                rintro a rfl
                rw [Idle, ledger_snoc, Ledger.step_commit htxn]

theorem idle_inTransaction {body : GateM α}
    (hbody : ∀ h, Idle h →
      (gateContract entry c).wp body.run (fun h' r => ∀ a, r = .ok a → Idle h') h)
    (hi : Idle h) : IdleFrom entry c h (GateState.inTransaction body) := by
  refine .bind (.quiet (only_ask .begin trivial) hi) fun e _ hi₁ _ => ?_
  refine Contract.wp_run_bind.mpr (Contract.wp_bind.mpr (Contract.wp_mono (hbody _ hi₁) ?_))
  intro h' r hr
  cases r with
  | ok a => exact hr a rfl
  | error e =>
      refine Contract.wp_run_bind.mpr (Contract.wp_bind.mpr ⟨⟨trivial, nofun, nofun⟩, ?_⟩)
      intro _ _
      show Idle _
      rw [Idle, ledger_snoc]
      rfl

theorem idle_approve {signed : SignedTrustedManifest} {approver : Key} {signature : Bytes}
    {now : Int} (hi : Idle h) :
    IdleFrom entry c h (g.approve x signed approver signature now) := by
  refine .bind (.quiet quiet_checkApproval hi) fun e₁ canonical hi₁ _ => ?_
  refine .bind (.quiet (only_ask .openDb trivial) hi₁) fun e₂ _ hi₂ _ => ?_
  refine .bind (idle_inTransaction (fun _ => wp_consume) hi₂) fun e₃ _ hi₃ _ => ?_
  exact .pure hi₃

end ShellfleetAgent.Privileged
