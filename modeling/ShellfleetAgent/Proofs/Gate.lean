import ShellfleetAgent.Proofs.Approval

/-!
# Nothing runs without an approval

`Authorised` lists what a connection must have behind it before it starts an
operation. It is the only thing the contract of a connection asks of the two
operations that start one, so the claim is that `handle` keeps its contract:
`idle_handle` walks `handle` once, statement by statement, and at the one place
an operation is entered the history is exactly the dialogue `Authorised` wants.
The database half (that the consumed row is really there, for everyone) is the
shared invariant of `Ledger.lean`.
-/

namespace ShellfleetAgent.Privileged

open ShellfleetAgent.Lib

/-- The values a connection's dialogue was about. -/
structure Evidence where
  agentUid : UInt32
  start : TrustedClientFrame
  startedAt : Int
  challenge : SignedTrustedManifest
  reply : Bytes
  approver : Key
  signature : Bytes
  now : Int
  keyringFile : String
  keyring : List (String × Key)
  canonical : Bytes

/-- What a connection has behind it when it may start `op`. The history `h` is
the connection's own, so everything in it happened on this connection. -/
structure Authorised (x : Externals) (g : GateState) (h : GateHistory)
    (op : TrustedOperation) (v : Evidence) : Prop where
  /-- The peer's uid is the configured agent's. -/
  peer : ∃ e rest, h = ⟨.peerUid, .ok v.agentUid⟩ :: e ++ rest ∧
    Returns configuredAgentUid.run e (.ok v.agentUid)
  /-- The challenge was made here, then a frame was read, then the clock, and
  then `approve` succeeded with the keyring as it was at that moment. -/
  dialogue : ∃ before eChallenge eSend eReply eApprove,
    h = before ++ eChallenge ++ eSend ++ eReply ++ [⟨.now, v.now⟩] ++ eApprove ∧
    Returns (g.challenge x v.start v.startedAt).run eChallenge (.ok v.challenge) ∧
    Returns (readFrame x.toCodec).run eReply (.ok v.reply) ∧
    Returns (g.approve x v.challenge v.approver v.signature v.now).run eApprove
      (.ok v.challenge.manifest) ∧
    ⟨.readApprovers g.approversPath, .ok v.keyringFile⟩ ∈ eApprove
  operation : v.challenge.manifest.operation = op
  approves : x.decodeClient v.reply = .ok (.approve v.challenge v.approver v.signature)
  keyring_eq : GateState.parseApprovers x v.keyringFile = .ok v.keyring
  checked : Checked x g v.challenge v.approver v.signature v.now v.canonical v.keyring

def gateEntry (x : Externals) (c : GateCall) (h : GateHistory) (op : TrustedOperation) : Prop :=
  ∃ g v, c = .connection g ∧ Authorised x g h op v

variable {x : Externals} {g : GateState} {c : GateCall} {h : GateHistory}
  {entry : GateCall → GateHistory → TrustedOperation → Prop}

/-- The one place where an operation is entered. -/
theorem idle_runOperation {t : Transport} {op : TrustedOperation} (hi : Idle h)
    (hop : entry c h op) : IdleFrom entry c h (runOperation x t op) := by
  cases op with
  | rootCommand program args timeoutSecs =>
      refine Contract.wp_run_bind.mpr ⟨⟨trivial, nofun, fun op h => ?_⟩, fun output _ => ?_⟩
      · cases h; exact hop
      have hi₁ : Idle (h ++ [⟨.commandOutput program args timeoutSecs, output⟩]) := hi.snoc rfl
      cases output with
      | error e => exact hi₁
      | ok output =>
          refine IdleFrom.bind (.quiet quiet_sendOutput hi₁) fun _ _ hi₂ _ => ?_
          refine .bind (.quiet quiet_sendOutput hi₂) fun _ _ hi₃ _ => ?_
          exact .bind (.quiet quiet_sendEncrypted hi₃) fun _ _ hi₄ _ => .pure hi₄
  | rootPty shell ttlSecs cols rows =>
      refine ⟨⟨trivial, nofun, fun op h => ?_⟩, fun r _ => hi.snoc rfl⟩
      cases h; exact hop

theorem idle_refuse {message : String} (hi : Idle h) :
    IdleFrom entry c h (do sendError x message; throw message : GateM Unit) :=
  .bind (.quiet quiet_sendHost hi) fun _ _ hi₁ _ => hi₁

theorem idle_handle : IdleFrom (gateEntry x) (.connection g) [] (handle x g) := by
  have hi : Idle [] := rfl
  refine .bind (.quiet (only_ask .peerUid trivial) hi) fun e₁ uid hi₁ h₁ => ?_
  refine .bind (.quiet quiet_configuredAgentUid hi₁) fun e₂ agent hi₂ h₂ => ?_
  split
  · exact hi₂
  next huid =>
  refine .bind (.quiet quiet_readFrame hi₂) fun e₃ first hi₃ _ => ?_
  refine .hoist_bind hi₃ fun start _ => ?_
  refine .bind (.quiet (only_always (only_ask .now trivial)) hi₃) fun e₄ startedAt hi₄ _ => ?_
  refine .bind (.quiet (quiet_challenge trivial) hi₄) fun e₅ challenge hi₅ h₅ => ?_
  refine .bind (.quiet quiet_sendHost hi₅) fun e₆ _ hi₆ _ => ?_
  refine .bind (.quiet quiet_readFrame hi₆) fun e₇ reply hi₇ h₇ => ?_
  refine .hoist_bind hi₇ fun frame hframe => ?_
  cases frame with
  | approve signed approver signature =>
      dsimp only [serveApproval]
      split
      · exact idle_refuse hi₇
      next hsame =>
      obtain rfl : signed = challenge := by simpa using hsame
      refine .bind (.quiet (only_always (only_ask .now trivial)) hi₇) fun e₈ now hi₈ h₈ => ?_
      refine .bind (idle_approve hi₈) fun e₉ manifest hi₉ h₉ => ?_
      refine .hoist_bind hi₉ fun canonical _ => .hoist_bind hi₉ fun transport _ => ?_
      obtain ⟨rfl, v, raw, keyring, canon, stored, he₉, hkeyring, hchecked⟩ := approve_returns h₉
      refine .bind (idle_runOperation hi₉ ⟨g, ?_, rfl, ?_⟩) fun _ _ hi₁₀ _ => ?_
      · exact { agentUid := uid, start, startedAt, challenge := signed, reply, approver, signature,
                now, keyringFile := raw, keyring, canonical := canon }
      · have hlisted : (⟨.readApprovers g.approversPath, .ok raw⟩ : GateEvent) ∈ e₉ := by
          rw [he₉]; simp
        obtain rfl : uid = agent := by simpa using huid
        cases ask_returns h₁
        cases ask_returns (always_returns h₈)
        exact
          { peer := ⟨e₂, _, by simp only [List.append_assoc, List.nil_append]; rfl, h₂⟩
            dialogue := ⟨_, e₅, e₆, e₇, e₉, rfl, h₅, h₇, h₉, hlisted⟩
            operation := rfl
            approves := hframe
            keyring_eq := hkeyring
            checked := hchecked }
      · exact .quiet quiet_sendHost hi₁₀
  | _ => exact idle_refuse hi₇

/-! ## The shared half -/

/-- A call that returns leaves no update behind. -/
def gateOutline (x : Externals) : Outline (gateCode x) where
  contract := gateContract (gateEntry x)
  loopInv _ _ l := l.elim
  post _ h _ := Idle h

theorem gateOutline_holds (x : Externals) : (gateOutline x).Holds where
  start c := by
    have hi : Idle [] := rfl
    cases c with
    | connection g => exact Contract.wp_bind.mpr (Contract.wp_mono idle_handle fun _ _ hi => hi)
    | challenge g start now =>
        exact Contract.wp_bind.mpr
          (Contract.wp_mono (IdleFrom.quiet (quiet_challenge trivial) hi) fun _ _ hi => hi)
    | approve g signed approver signature now =>
        exact Contract.wp_bind.mpr (Contract.wp_mono (idle_approve hi) fun _ _ hi => hi)
  again _ _ l := l.elim

/-- `GateInv` reads the database only. -/
theorem GateInv.of_db {w w' : GateWorld} {v : Nat → Option GateTrace} (hI : GateInv w v)
    (hrows : w'.rows = w.rows) (hpending : w'.pending = w.pending) : GateInv w' v where
  locked p hp := by
    rw [hpending] at hp
    obtain ⟨howner, hrow⟩ := hI.locked p hp
    exact ⟨howner, hrows ▸ hrow⟩
  kept t tr ht := by
    have hk := hI.kept t tr ht
    exact ⟨fun id hlive htxn => hpending ▸ hk.updated id hlive htxn, hrows ▸ hk.consumed, hk.nodup⟩
  once := hI.once

theorem gateOutline_sound (x : Externals) :
    (gateOutline x).Sound gateHost (fun _ _ => True) GateInv where
  init w hw := by
    refine ⟨fun p hp => ?_, fun t tr ht => ?_, fun t u tr tr' id ht => ?_⟩
    · rw [show w.pending = none from hw] at hp
      cases hp
    · cases ht
    · cases ht
  spawn w v t c w' hI ht hw := by
    cases hw
    exact hI.spawn ht
  act s t ch c o k h w' r hI ht hmay _ hx :=
    ⟨trivial, hI.act (Pool.State.view_eq ht) hmay.1 hx⟩
  kill w v t c h hI ht := hI.discard ht nofun rfl
  env w v e w' hI hw := by
    cases e <;> cases hw <;> exact hI.of_db rfl rfl

theorem gate_invariant {s : GatePoolState} (hr : (gatePool x).Reachable s) :
    GateInv s.world s.view ∧ (gateOutline x).Kept s :=
  Outline.invariant (gateOutline_holds x) (gateOutline_sound x) hr

/-- Wherever an operation is about to be entered, by whatever thread in whatever
interleaving, the thread is a connection that is authorised for exactly this
operation, and the request's row is consumed. -/
theorem operation_authorised {s : GatePoolState} (hr : (gatePool x).Reachable s) {t : Nat}
    {c : GateCall} {h : GateHistory} {live : Bool} {o : GateOp}
    {k : GateResp o → Prog GateOp GateResp (Empty ⊕ GateResult)} {op : TrustedOperation}
    (ht : s.threads t = some ⟨⟨c, h, live⟩, .call o k⟩) (ho : o.entered = some op) :
    ∃ g v, c = .connection g ∧ Authorised x g h op v ∧
      ∃ row, s.world.rows v.challenge.manifest.requestId = some row ∧
        row.status = "consumed" := by
  obtain ⟨hI, hK⟩ := gate_invariant hr
  have hmay : (gateContract (gateEntry x) c).may h o := (hK t _ ht).1
  obtain ⟨g, v, hc, hv⟩ := hmay.2.2 op ho
  refine ⟨g, v, hc, hv, (hI.kept t _ (Pool.State.view_eq ht)).consumed _ ?_⟩
  obtain ⟨before, eChallenge, eSend, eReply, eApprove, hh, _, _, happrove, _⟩ := hv.dialogue
  show _ ∈ (ledger h).won
  rw [hh, approve_won _ happrove]
  exact List.mem_append_right _ (List.mem_singleton_self _)

def plainManifest : TrustedManifest where
  version := 1
  requestId := "request-1"
  hostId := "host"
  operation := .rootCommand "/bin/true" [] 60
  clientEphemeralPublic := Vector.replicate 32 3
  brokerTransportPublic := Vector.replicate 32 4
  nonce := Vector.replicate 32 5
  createdAt := 1000
  expiresAt := 1120
  policyVersion := "builtin-v1"

def plainChallenge : SignedTrustedManifest where
  manifest := plainManifest
  hostIdentityPublic := Vector.replicate 32 6
  signature := [6, 0x6d]

/-- A stand-in for the crates: a signature is the key's first byte and the message. -/
def plainExternals : Externals where
  decodeClient
    | [1] => .ok (.start "request-1" (.rootCommand "/bin/true" [] 60) (Vector.replicate 32 3))
    | [2] => .ok (.approve plainChallenge (Vector.replicate 32 9) [9, 0x6d])
    | _ => .error "malformed"
  encodeHost _ := .ok [0]
  encodePlaintext _ := .ok [0]
  canonicalBytes _ := .ok [0x6d]
  maxTrustedFrameBytes := 1024
  trustedProtocolVersion := 1
  publicKey k := k
  diffieHellman k _ := k
  sha256 m := m
  expand _ k _ := some k
  encrypt _ _ _ m := some m
  decrypt _ _ _ m := some m
  verifyingKey k := k
  sign k m := k[0] :: m
  wellFormedSignature s := !s.isEmpty
  wellFormedKey _ := true
  verify k m s := s == k[0] :: m
  decodeBase64 _ := some (List.replicate 32 9)
  parseStringMap _ := some [("operator", "key")]

def plainGate : GateState where
  hostSigning := Vector.replicate 32 6
  transportSecret := Vector.replicate 32 4
  hostId := "host"
  approversPath := "/etc/shellfleet/approvers.json"

def plainWorld : GatePoolState where
  world := { rows := fun _ => none, pending := none, approvers := .ok "keyring", clock := 1000 }
  threads _ := none

def plainDialogue : List GateChoice :=
  [.uid 7, .var (some "7"), .bytes [0, 0, 0, 1], .bytes [1], .ok, .key (Vector.replicate 32 5),
    .var none, .ok, .ok, .ok, .ok, .ok, .bytes [0, 0, 0, 1], .bytes [2], .ok, .var none, .ok, .ok,
    .ok, .ok, .ok, .ok]

/-- The operation a thread is about to enter. -/
def entering (s : GatePoolState) (t : Nat) : Option TrustedOperation :=
  match s.threads t with
  | some ⟨_, .call o _⟩ => o.entered
  | _ => none

theorem entering_eq_some {s : GatePoolState} {t : Nat} {op : TrustedOperation}
    (h : entering s t = some op) :
    ∃ c hist live o k, s.threads t = some ⟨⟨c, hist, live⟩, .call o k⟩ ∧ o.entered = some op := by
  unfold entering at h
  split at h
  · next tr o k ht => exact ⟨tr.call, tr.hist, tr.live, o, k, ht, h⟩
  · cases h

/-- A full dialogue does reach the operation. -/
theorem operation_authorised_plain :
    ∃ g h v, Authorised plainExternals g h (.rootCommand "/bin/true" [] 60) v := by
  have hrun : ((gatePool plainExternals).run plainWorld
      (.spawn 0 (.connection plainGate) :: plainDialogue.map (.act 0))).map (entering · 0) =
      some (some (.rootCommand "/bin/true" [] 60)) := by
    decide
  obtain ⟨s, hs, hentering⟩ := Option.map_eq_some_iff.mp hrun
  obtain ⟨c, hist, live, o, k, ht, ho⟩ := entering_eq_some hentering
  have hinit : (gatePool plainExternals).init plainWorld := ⟨rfl, fun _ => rfl⟩
  have hr := Machine.Reach.run (.init hinit) hs
  obtain ⟨g, v, _, hv, _⟩ := operation_authorised hr ht ho
  exact ⟨g, hist, v, hv⟩

end ShellfleetAgent.Privileged
