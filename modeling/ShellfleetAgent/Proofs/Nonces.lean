import ShellfleetAgent.Proofs.Sessions

/-!
# No nonce is used twice

The gate's secret is the same in every session and every counter starts at
zero, so two sessions may differ in their manifests only. That is enough: a
transport is made from a manifest its thread has won, a request id is won once,
and from the manifest comes the salt and from the salt the key. Within a
session the counter takes over, which is given out before it is raised and
never comes down.

`Hold` is what a thread's history says about its transport. The code keeps to
`sessionContract`, which lets it seal with the transport of the last sealing
only, and `SealInv` is what the threads' accounts and the PTYs in the world
make of the record. The database's half is `GateInv` again, on what the gate
would see of each history.
-/

namespace ShellfleetAgent.Privileged

open ShellfleetAgent.Lib

/-! ## What a session's history says -/

def gateEvent : SessionEvent → Option GateEvent
  | ⟨.gate o, r⟩ => some ⟨o, r⟩
  | _ => none

/-- The history a gate thread would have. -/
def gateHist (h : SessionHistory) : GateHistory := h.filterMap gateEvent

def gateTrace (tr : SessionTrace) : GateTrace := ⟨tr.call, gateHist tr.hist, tr.live⟩

def gateView (v : Nat → Option SessionTrace) : Nat → Option GateTrace :=
  fun t => (v t).map gateTrace

/-- Where a connection stands with its transport. -/
inductive Hold
  | unbrokered
  | held (transport : Transport)
  /-- `run_pty` has it. -/
  | lent

def Hold.step (a : Hold) : SessionEvent → Hold
  | ⟨.broker .., .ok transport⟩ => .held transport
  | ⟨.encrypt .., .ok (transport, _)⟩ => .held transport
  | ⟨.openPty _, _⟩ => .lent
  | _ => a

def hold (h : SessionHistory) : Hold := h.foldl Hold.step .unbrokered

@[simp] theorem gateHist_snoc (h : SessionHistory) (e : SessionEvent) :
    gateHist (h ++ [e]) = gateHist h ++ (gateEvent e).toList := by
  rw [gateHist, List.filterMap_append]
  rfl

@[simp] theorem hold_snoc (h : SessionHistory) (e : SessionEvent) :
    hold (h ++ [e]) = (hold h).step e := by
  rw [hold, List.foldl_append]
  rfl

/-- A session keeps to the gate's contract, makes one transport from a manifest
it has won, and seals with that one and no other. -/
def sessionContract (x : Externals) (c : GateCall) : Contract SessionOp SessionResp where
  may h
    | .gate o => (gateContract (fun _ _ _ => True) c).may (gateHist h) o
    | .broker _ _ manifest _ => hold h = .unbrokered ∧
        ∃ m, x.canonicalBytes m = .ok manifest ∧ m.requestId ∈ (ledger (gateHist h)).won
    | .encrypt transport _ => hold h = .held transport
    | .openPty transport => hold h = .held transport
  answer _ _ _ := True

/-! ## The code keeps to it -/

variable {x : Externals} {g : GateState} {c : GateCall} {h : SessionHistory} {α β : Type}

/-- Started outside a transaction the program keeps to the contract and ends
outside one, and what it returns satisfies `post`. -/
def SessionFrom (x : Externals) (c : GateCall) (h : SessionHistory) (m : SessionM α)
    (post : SessionHistory → α → Prop) : Prop :=
  (sessionContract x c).wp m.run
    (fun h' r => Idle (gateHist h') ∧ ∀ a, r = .ok a → post h' a) h

theorem SessionFrom.bind {m : SessionM α} {f : α → SessionM β}
    {mid : SessionHistory → α → Prop} {post : SessionHistory → β → Prop}
    (hm : SessionFrom x c h m mid)
    (hf : ∀ h' a, Idle (gateHist h') → mid h' a → SessionFrom x c h' (f a) post) :
    SessionFrom x c h (m >>= f) post := by
  refine Contract.wp_run_bind.mpr (Contract.wp_mono hm ?_)
  rintro h' r ⟨hi, hmid⟩
  cases r with
  | ok a => exact hf h' a hi (hmid a rfl)
  | error e => exact ⟨hi, nofun⟩

theorem SessionFrom.mono {m : SessionM α} {post post' : SessionHistory → α → Prop}
    (hm : SessionFrom x c h m post) (hp : ∀ h' a, post h' a → post' h' a) :
    SessionFrom x c h m post' :=
  Contract.wp_mono hm fun h' _ hr => ⟨hr.1, fun a ha => hp h' a (hr.2 a ha)⟩

/-- Gate code does not touch the transport. -/
theorem SessionFrom.gate {m : GateM α}
    (hm : IdleFrom (fun _ _ _ => True) c (gateHist h) m) :
    SessionFrom x c h (Session.gate m) fun h' a => hold h' = hold h ∧
      ∃ e, gateHist h' = gateHist h ++ e ∧ Returns m.run e (.ok a) := by
  have hvia : (sessionContract x c).wp (Session.gate m).run _ h :=
    Contract.wp_via (fun o => Session.ask (.gate o)) gateHist (hold · = hold h) ?_ rfl
      (Contract.wp_returns hm)
  · refine Contract.wp_mono hvia ?_
    rintro h' r ⟨⟨hi, e, he, hr⟩, hhold⟩
    refine ⟨hi, ?_⟩
    rintro a rfl
    exact ⟨hhold, e, he, hr⟩
  · intro h' o hhold hmay
    refine ⟨hmay, fun r _ => ⟨trivial, ?_, ?_⟩⟩
    · rw [gateHist_snoc]
      rfl
    · rw [hold_snoc]
      exact hhold

theorem session_sealPlaintext {T : Transport} {p : TrustedPlaintext} (hi : Idle (gateHist h))
    (hT : hold h = .held T) :
    SessionFrom x c h (Session.sealPlaintext T p) fun h' sealed => hold h' = .held sealed.1 := by
  refine ⟨hT, fun r _ => ⟨?_, ?_⟩⟩
  · rw [gateHist_snoc]
    simpa [gateEvent] using hi
  · rintro ⟨T', frame⟩ rfl
    rw [hold_snoc]
    rfl

theorem session_openPty {T : Transport} (hi : Idle (gateHist h)) (hT : hold h = .held T) :
    SessionFrom x c h (Session.openPty T) fun _ _ => True := by
  refine ⟨hT, fun r _ => ⟨?_, fun _ _ => trivial⟩⟩
  rw [gateHist_snoc]
  simpa [gateEvent] using hi

theorem session_broker {secret clientPublic : Key} {manifest : Bytes} {id : String}
    {m : TrustedManifest} (hi : Idle (gateHist h)) (hnone : hold h = .unbrokered)
    (hm : x.canonicalBytes m = .ok manifest)
    (hwon : m.requestId ∈ (ledger (gateHist h)).won) :
    SessionFrom x c h (Session.broker secret clientPublic manifest id)
      fun h' T => hold h' = .held T := by
  refine ⟨⟨hnone, m, hm, hwon⟩, fun r _ => ⟨?_, ?_⟩⟩
  · rw [gateHist_snoc]
    simpa [gateEvent] using hi
  · rintro T rfl
    rw [hold_snoc]
    rfl

theorem session_sendEncrypted {T : Transport} {p : TrustedPlaintext} (hi : Idle (gateHist h))
    (hT : hold h = .held T) :
    SessionFrom x c h (Session.sendEncrypted x T p) fun h' T' => hold h' = .held T' := by
  refine .bind (session_sealPlaintext hi hT) fun h₁ sealed hi₁ hT₁ => ?_
  refine .bind (.gate (.quiet quiet_sendHost hi₁)) fun h₂ _ hi₂ hh₂ => ?_
  refine ⟨hi₂, ?_⟩
  rintro T' hT'
  cases hT'
  exact hh₂.1.trans hT₁

theorem session_sendOutput {T : Transport} {stream : String} {data : Bytes}
    (hi : Idle (gateHist h)) (hT : hold h = .held T) :
    SessionFrom x c h (Session.sendOutput x T stream data) fun h' T' => hold h' = .held T' := by
  unfold Session.sendOutput
  split
  · refine ⟨hi, ?_⟩
    rintro T' hT'
    cases hT'
    exact hT
  · exact session_sendEncrypted hi hT

theorem session_runOperation {T : Transport} {op : TrustedOperation} (hi : Idle (gateHist h))
    (hT : hold h = .held T) :
    SessionFrom x c h (Session.runOperation x T op) fun _ _ => True := by
  cases op with
  | rootCommand program args timeoutSecs =>
      have hrun : IdleFrom (fun _ _ _ => True) c (gateHist h)
          (commandOutput program args timeoutSecs) :=
        ⟨⟨trivial, nofun, fun _ _ => trivial⟩, fun _ _ => hi.snoc rfl⟩
      refine .bind (.gate hrun) fun h₁ output hi₁ hh₁ => ?_
      refine .bind (session_sendOutput hi₁ (hh₁.1.trans hT)) fun h₂ T₂ hi₂ hT₂ => ?_
      refine .bind (session_sendOutput hi₂ hT₂) fun h₃ T₃ hi₃ hT₃ => ?_
      refine .bind (session_sendEncrypted hi₃ hT₃) fun h₄ T₄ hi₄ _ => ?_
      exact ⟨hi₄, fun _ _ => trivial⟩
  | rootPty shell ttlSecs cols rows =>
      refine .bind (session_openPty hi hT) fun h₁ _ hi₁ _ => ?_
      have hrun : IdleFrom (fun _ _ _ => True) c (gateHist h₁)
          (ptySession shell ttlSecs cols rows) :=
        ⟨⟨trivial, nofun, fun _ _ => trivial⟩, fun _ _ => hi₁.snoc rfl⟩
      exact (SessionFrom.gate hrun).mono fun _ _ _ => trivial

theorem session_refuse {message : String} (hi : Idle (gateHist h)) :
    SessionFrom x c h (Session.gate (do sendError x message; throw message : GateM Unit))
      fun _ _ => True :=
  (SessionFrom.gate (idle_refuse hi)).mono fun _ _ _ => trivial

theorem session_serveApproval {challenge signed : SignedTrustedManifest} {approver : Key}
    {signature : Bytes} (hi : Idle (gateHist h)) (hnone : hold h = .unbrokered) :
    SessionFrom x c h (Session.serveApproval x g challenge signed approver signature)
      fun _ _ => True := by
  unfold Session.serveApproval
  split
  · exact session_refuse hi
  refine .bind (.gate (.quiet (only_always (only_ask .now trivial)) hi)) fun h₁ now hi₁ hh₁ => ?_
  refine .bind (.gate (idle_approve hi₁)) fun h₂ m hi₂ hh₂ => ?_
  obtain ⟨hhold₂, e, he, happroved⟩ := hh₂
  refine .bind (.gate (.quiet trivial hi₂)) fun h₃ canonical hi₃ hh₃ => ?_
  obtain ⟨hhold₃, e₃, he₃, hreturns⟩ := hh₃
  obtain ⟨rfl, hcanonical⟩ := hoist_returns hreturns
  rw [List.append_nil] at he₃
  have hnone₃ : hold h₃ = .unbrokered := hhold₃.trans (hhold₂.trans (hh₁.1.trans hnone))
  have hwon : m.requestId ∈ (ledger (gateHist h₃)).won := by
    rw [he₃, he, approve_won _ happroved]
    exact List.mem_append_right _ (List.mem_singleton_self _)
  refine .bind (session_broker hi₃ hnone₃ hcanonical hwon) fun h₄ T hi₄ hT => ?_
  refine .bind (session_runOperation hi₄ hT) fun h₅ _ hi₅ _ => ?_
  exact (SessionFrom.gate (.quiet quiet_sendHost hi₅)).mono fun _ _ _ => trivial

theorem session_handle (hc : c.mayInsert) :
    SessionFrom x c [] (Session.handle x g) fun _ _ => True := by
  have hi : Idle (gateHist []) := rfl
  refine .bind (.gate (.quiet (only_ask .peerUid trivial) hi)) fun h₁ uid hi₁ hh₁ => ?_
  refine .bind (.gate (.quiet quiet_configuredAgentUid hi₁)) fun h₂ expected hi₂ hh₂ => ?_
  split
  · exact ⟨hi₂, nofun⟩
  refine .bind (.gate (.quiet quiet_readFrame hi₂)) fun h₃ first hi₃ hh₃ => ?_
  refine .bind (.gate (.quiet trivial hi₃)) fun h₄ start hi₄ hh₄ => ?_
  refine .bind (.gate (.quiet (only_always (only_ask .now trivial)) hi₄)) fun h₅ now hi₅ hh₅ => ?_
  refine .bind (.gate (.quiet (quiet_challenge hc) hi₅)) fun h₆ challenge hi₆ hh₆ => ?_
  refine .bind (.gate (.quiet quiet_sendHost hi₆)) fun h₇ _ hi₇ hh₇ => ?_
  refine .bind (.gate (.quiet quiet_readFrame hi₇)) fun h₈ approval hi₈ hh₈ => ?_
  refine .bind (.gate (.quiet trivial hi₈)) fun h₉ frame hi₉ hh₉ => ?_
  have hnone : hold h₉ = .unbrokered := by
    rw [hh₉.1, hh₈.1, hh₇.1, hh₆.1, hh₅.1, hh₄.1, hh₃.1, hh₂.1, hh₁.1]
    rfl
  cases frame with
  | approve signed approver signature => exact session_serveApproval hi₉ hnone
  | _ => exact session_refuse hi₉

/-! ## The shared half -/

def sessionOutline (x : Externals) : Outline (sessionCode x) where
  contract := sessionContract x
  loopInv _ _ l := l.elim
  post _ _ _ := True

theorem sessionOutline_holds (x : Externals) : (sessionOutline x).Holds where
  start c := by
    have hi : Idle (gateHist []) := rfl
    cases c with
    | connection g =>
        exact Contract.wp_bind.mpr (Contract.wp_mono (session_handle trivial) fun _ _ _ => trivial)
    | challenge g start now =>
        exact Contract.wp_bind.mpr (Contract.wp_mono
          (SessionFrom.gate (.quiet (quiet_challenge trivial) hi)) fun _ _ _ => trivial)
    | approve g signed approver signature now =>
        exact Contract.wp_bind.mpr (Contract.wp_mono
          (SessionFrom.gate (idle_approve hi)) fun _ _ _ => trivial)
  again _ _ l := l.elim

/-- What one answered call does to the world. -/
inductive SessionWorld.Move (x : Externals) (w : SessionWorld) (t : Nat) :
    SessionEvent → SessionWorld → Prop
  | gate {o : GateOp} {ch : GateChoice} {db : GateWorld} {r : GateResp o}
      (hx : w.toGateWorld.exec t o ch = some (db, r)) :
      Move x w t ⟨.gate o, r⟩ { w with toGateWorld := db }
  | returned {shell : String} {ttl : UInt32} {cols rows : UInt16} (r : Except String Unit) :
      Move x w t ⟨.gate (.ptySession shell ttl cols rows), r⟩
        { w with ptys := Function.update w.ptys t none }
  | brokered {secret clientPublic : Key} {manifest : Bytes} {id : String} {T : Transport}
      (hT : Transport.broker x.toSuite secret clientPublic manifest id = .ok T) :
      Move x w t ⟨.broker secret clientPublic manifest id, .ok T⟩
        { w with derived := w.derived ++
          [⟨t, x.diffieHellman secret clientPublic, manifest, T⟩] }
  | unbrokered {secret clientPublic : Key} {manifest : Bytes} {id e : String} :
      Move x w t ⟨.broker secret clientPublic manifest id, .error e⟩ w
  | sealed {T T' : Transport} {p : TrustedPlaintext} {frame : TrustedHostFrame}
      (hs : Seals t T (sealings x t T p) T') :
      Move x w t ⟨.encrypt T p, .ok (T', frame)⟩ { w with sealed := w.sealed ++ sealings x t T p }
  | unsealed {T : Transport} {p : TrustedPlaintext} {e : String} :
      Move x w t ⟨.encrypt T p, .error e⟩ w
  | opened {T : Transport} :
      Move x w t ⟨.openPty T, ()⟩
        { w with ptys := Function.update w.ptys t (some (PtyState.enter T)) }

theorem SessionWorld.exec_move {w w' : SessionWorld} {t : Nat} {o : SessionOp} {ch : GateChoice}
    {r : SessionResp o} (h : w.exec x t o ch = some (w', r)) : Move x w t ⟨o, r⟩ w' := by
  cases o with
  | gate o =>
      cases o with
      | ptySession shell ttl cols rows =>
          obtain ⟨r₁, hr, heq⟩ := Option.map_eq_some_iff.mp h
          cases heq
          exact .returned _
      | _ =>
          obtain ⟨⟨db, r₁⟩, hx, heq⟩ := Option.map_eq_some_iff.mp h
          cases heq
          exact .gate hx
  | broker secret clientPublic manifest id =>
      cases ch with
      | ok =>
          cases h
          cases hT : Transport.broker x.toSuite secret clientPublic manifest id with
          | ok T => exact .brokered hT
          | error e => exact .unbrokered
      | _ => cases h
  | encrypt T p =>
      cases ch with
      | ok =>
          cases h
          rcases sealPlaintext_seals x t T p with ⟨e, he, hnone⟩ | ⟨T', frame, hok, hseals⟩
          · rw [he, hnone, List.append_nil]
            exact .unsealed
          · rw [hok]
            exact .sealed hseals
      | _ => cases h
  | openPty T =>
      cases ch with
      | ok =>
          cases h
          exact .opened
      | _ => cases h

/-! ## The invariant -/

/-- `T` is what thread `t` would seal with next: the connection holds it, or its
PTY does and has not returned. -/
def Current (w : SessionWorld) (v : Nat → Option SessionTrace) (t : Nat) (T : Transport) : Prop :=
  ∃ tr, v t = some tr ∧ (hold tr.hist = .held T ∨
    hold tr.hist = .lent ∧ ∃ s, w.ptys t = some s ∧ s.result = none ∧ s.transport = T)

/-- A transport on record belongs to a thread that has won its manifest, and has
the key the suite derives from it. -/
def OnRecord (x : Externals) (v : Nat → Option SessionTrace) (d : Derivation) : Prop :=
  (∃ tr m, v d.thread = some tr ∧ hold tr.hist ≠ .unbrokered ∧
    x.canonicalBytes m = .ok d.manifest ∧ m.requestId ∈ (ledger (gateHist tr.hist)).won) ∧
  x.expand (x.sha256 d.manifest) d.shared hostToClientInfo = some d.transport.send

structure SealInv (x : Externals) (w : SessionWorld) (v : Nat → Option SessionTrace) : Prop where
  derived : ∀ d ∈ w.derived, OnRecord x v d
  single : ∀ d ∈ w.derived, ∀ d' ∈ w.derived, d.thread = d'.thread → d = d'
  sealed : ∀ e ∈ w.sealed, ∃ d ∈ w.derived, d.thread = e.thread ∧ e.key = d.transport.send
  counted : (w.sealed.map fun e => (e.thread, e.counter)).Nodup
  lent : ∀ t s, w.ptys t = some s → ∃ tr, v t = some tr ∧ hold tr.hist = .lent
  current : ∀ t T, Current w v t T →
    (∃ d ∈ w.derived, d.thread = t ∧ T.send = d.transport.send) ∧
    ∀ e ∈ w.sealed, e.thread = t → e.counter.toNat < T.sendCounter.toNat

/-- What a thread's later trace keeps of an earlier one. -/
def Later (tr tr' : SessionTrace) : Prop :=
  (hold tr.hist ≠ .unbrokered → hold tr'.hist ≠ .unbrokered) ∧
    (ledger (gateHist tr.hist)).won ⊆ (ledger (gateHist tr'.hist)).won

variable {w w' : SessionWorld} {v v' : Nat → Option SessionTrace} {t : Nat}
  {tr tr' : SessionTrace}

/-- A step that the gate would not see. -/
theorem Later.of_hist (hhold : hold tr'.hist ≠ .unbrokered)
    (hsame : gateHist tr'.hist = gateHist tr.hist) : Later tr tr' := by
  refine ⟨fun _ => hhold, ?_⟩
  rw [hsame]
  exact List.Subset.refl _

theorem OnRecord.later {d : Derivation} (hd : OnRecord x v d)
    (hview : ∀ u tr, v u = some tr → ∃ tr', v' u = some tr' ∧ Later tr tr') : OnRecord x v' d := by
  obtain ⟨⟨tr, m, htr, hhold, hm, hwon⟩, hkey⟩ := hd
  obtain ⟨tr', htr', hlater⟩ := hview _ _ htr
  exact ⟨⟨tr', m, htr', hlater.1 hhold, hm, hlater.2 hwon⟩, hkey⟩

theorem later_update (ht : v t = some tr) (hlater : Later tr tr') (u : Nat) (tr₁ : SessionTrace)
    (hu : v u = some tr₁) :
    ∃ tr₂, Function.update v t (some tr') u = some tr₂ ∧ Later tr₁ tr₂ := by
  by_cases hut : u = t
  · subst hut
    rw [ht] at hu
    cases hu
    exact ⟨tr', Function.update_self .., hlater⟩
  · exact ⟨tr₁, by rw [Function.update_of_ne hut]; exact hu, id, List.Subset.refl _⟩

/-- Another thread's transport stays lent. -/
theorem lent_kept (ht : v t = some tr) (hheld : hold tr.hist ≠ .lent) {u : Nat}
    (hu : ∃ tr₁, v u = some tr₁ ∧ hold tr₁.hist = .lent) :
    ∃ tr₁, Function.update v t (some tr') u = some tr₁ ∧ hold tr₁.hist = .lent := by
  obtain ⟨tr₁, htr₁, hlent⟩ := hu
  have hother : v t ≠ some tr₁ := by
    intro heq
    rw [ht] at heq
    cases heq
    exact hheld hlent
  exact ⟨tr₁, update_kept htr₁ hother, hlent⟩

/-- A step that makes no transport. It may seal once with the transport that is
current for a thread, and what is current afterwards goes on from what was. -/
theorem SealInv.step (hI : SealInv x w v) {made : List Sealing}
    (hview : ∀ u tr, v u = some tr → ∃ tr', v' u = some tr' ∧ Later tr tr')
    (hderived : w'.derived = w.derived) (hsealed : w'.sealed = w.sealed ++ made)
    (hmade : made = [] ∨ ∃ t T data, Current w v t T ∧ made = [⟨t, T.send, T.sendCounter, data⟩])
    (hlent : ∀ t s, w'.ptys t = some s → ∃ tr, v' t = some tr ∧ hold tr.hist = .lent)
    (hcurrent : ∀ u T', Current w' v' u T' → ∃ T, Current w v u T ∧ T'.send = T.send ∧
      T.sendCounter.toNat ≤ T'.sendCounter.toNat ∧
      ∀ e ∈ made, e.thread = u → e.counter.toNat < T'.sendCounter.toNat) : SealInv x w' v' where
  derived d hd := (hI.derived d (hderived ▸ hd)).later hview
  single := by
    rw [hderived]
    exact hI.single
  sealed e he := by
    rw [hsealed, List.mem_append] at he
    rw [hderived]
    rcases he with he | he
    · exact hI.sealed e he
    · rcases hmade with rfl | ⟨t, T, data, hT, rfl⟩
      · cases he
      · cases List.mem_singleton.mp he
        obtain ⟨d, hd, hdt, hkey⟩ := (hI.current t T hT).1
        exact ⟨d, hd, hdt, hkey⟩
  counted := by
    rw [hsealed, List.map_append]
    rcases hmade with rfl | ⟨t, T, data, hT, rfl⟩
    · simpa using hI.counted
    · -- The new counter is above all that this thread has used.
      refine List.nodup_append.mpr ⟨hI.counted, by simp, ?_⟩
      rintro a ha b hb rfl
      obtain ⟨e, he, rfl⟩ := List.mem_map.mp ha
      have heq : (e.thread, e.counter) = (t, T.sendCounter) := List.mem_singleton.mp hb
      have hlt := (hI.current t T hT).2 e he (congrArg Prod.fst heq)
      have hcounter : e.counter = T.sendCounter := congrArg Prod.snd heq
      rw [hcounter] at hlt
      exact Nat.lt_irrefl _ hlt
  lent := hlent
  current u T' hT' := by
    obtain ⟨T, hT, hsend, hle, hmade⟩ := hcurrent u T' hT'
    obtain ⟨⟨d, hd, hdt, hkey⟩, hbelow⟩ := hI.current u T hT
    refine ⟨⟨d, hderived ▸ hd, hdt, hsend.trans hkey⟩, fun e he heu => ?_⟩
    rw [hsealed, List.mem_append] at he
    rcases he with he | he
    · exact Nat.lt_of_lt_of_le (hbelow e he heu) hle
    · exact hmade e he heu

/-- A step that seals nothing, gives nobody a transport and at most takes a PTY
away. -/
theorem SealInv.quiet (hI : SealInv x w v) (ht : v t = some tr)
    (hhold : hold tr'.hist = hold tr.hist)
    (hwon : (ledger (gateHist tr.hist)).won ⊆ (ledger (gateHist tr'.hist)).won)
    (hderived : w'.derived = w.derived) (hsealed : w'.sealed = w.sealed)
    (hptys : ∀ u s, w'.ptys u = some s → w.ptys u = some s) :
    SealInv x w' (Function.update v t (some tr')) := by
  have hback : ∀ u tr₂, Function.update v t (some tr') u = some tr₂ →
      ∃ tr₁, v u = some tr₁ ∧ hold tr₂.hist = hold tr₁.hist := by
    intro u tr₂ hu
    rcases update_some hu with ⟨rfl, rfl⟩ | ⟨_, hu⟩
    · exact ⟨tr, ht, hhold⟩
    · exact ⟨tr₂, hu, rfl⟩
  have hlater : Later tr tr' := ⟨fun hne => hhold ▸ hne, hwon⟩
  have hview := later_update ht hlater
  have hadded : w'.sealed = w.sealed ++ [] := by
    rw [hsealed, List.append_nil]
  refine hI.step hview hderived hadded (.inl rfl) ?_ ?_
  · intro u s hs
    obtain ⟨tr₁, htr₁, hlent⟩ := hI.lent u s (hptys u s hs)
    obtain ⟨tr₂, htr₂, _⟩ := hview u tr₁ htr₁
    obtain ⟨tr₃, htr₃, hsame⟩ := hback u tr₂ htr₂
    rw [htr₁] at htr₃
    cases htr₃
    exact ⟨tr₂, htr₂, hsame.trans hlent⟩
  · rintro u T ⟨tr₂, htr₂, hT⟩
    obtain ⟨tr₁, htr₁, hsame⟩ := hback u tr₂ htr₂
    refine ⟨T, ⟨tr₁, htr₁, ?_⟩, rfl, Nat.le_refl _, nofun⟩
    rw [hsame] at hT
    rcases hT with hheld | ⟨hlent, s, hs, hrest⟩
    · exact .inl hheld
    · exact .inr ⟨hlent, s, hptys u s hs, hrest⟩

theorem Seals.made_cases {T T' : Transport} {made : List Sealing} (hs : Seals t T made T') :
    made = [] ∨ ∃ data, made = [⟨t, T.send, T.sendCounter, data⟩] := by
  rcases hs.counted with ⟨hnone, _⟩ | ⟨data, hmade, _⟩
  · exact .inl hnone
  · exact .inr ⟨data, hmade⟩

/-- The counter only rises, past everything that was sealed with it. -/
theorem Seals.rises {T T' : Transport} {made : List Sealing} (hs : Seals t T made T') :
    T.sendCounter.toNat ≤ T'.sendCounter.toNat ∧
      ∀ e ∈ made, e.counter.toNat < T'.sendCounter.toNat := by
  rcases hs.counted with ⟨rfl, hsame⟩ | ⟨data, rfl, hnext⟩
  · rw [hsame]
    exact ⟨Nat.le_refl _, nofun⟩
  · obtain ⟨_, hnext⟩ := checkedSucc_eq_some.mp hnext
    rw [hnext]
    refine ⟨Nat.le_succ _, fun e he => ?_⟩
    rw [List.mem_singleton.mp he]
    exact Nat.lt_succ_self _

/-- Thread `t` seals with its current transport, and has the one that leaves
afterwards if it has any. -/
theorem SealInv.sealing (hI : SealInv x w v) {T T' : Transport} {made : List Sealing}
    (hT : Current w v t T) (hs : Seals t T made T')
    (hview : ∀ u tr, v u = some tr → ∃ tr', v' u = some tr' ∧ Later tr tr')
    (hderived : w'.derived = w.derived) (hsealed : w'.sealed = w.sealed ++ made)
    (hlent : ∀ t s, w'.ptys t = some s → ∃ tr, v' t = some tr ∧ hold tr.hist = .lent)
    (hown : ∀ T₁, Current w' v' t T₁ → T₁ = T')
    (hother : ∀ u, u ≠ t → ∀ T₁, Current w' v' u T₁ → Current w v u T₁) : SealInv x w' v' := by
  obtain ⟨hle, hpast⟩ := hs.rises
  refine hI.step hview hderived hsealed ?_ hlent fun u T₁ hT₁ => ?_
  · rcases hs.made_cases with hnone | ⟨data, hmade⟩
    · exact .inl hnone
    · exact .inr ⟨t, T, data, hT, hmade⟩
  · by_cases hut : u = t
    · subst hut
      rw [hown T₁ hT₁]
      exact ⟨T, hT, hs.send, hle, fun e he _ => hpast e he⟩
    · refine ⟨T₁, hother u hut T₁ hT₁, rfl, Nat.le_refl _, fun e he heu => ?_⟩
      rcases hs.made_cases with hnone | ⟨data, hmade⟩
      · rw [hnone] at he
        cases he
      · rw [hmade] at he
        rw [List.mem_singleton.mp he] at heu
        exact absurd heu.symm hut

/-- The connection makes its transport. -/
theorem SealInv.brokered (hI : SealInv x w v) (ht : v t = some tr)
    (hnone : hold tr.hist = .unbrokered) {secret clientPublic : Key} {manifest : Bytes}
    {id : String} {T : Transport} {m : TrustedManifest}
    (hT : Transport.broker x.toSuite secret clientPublic manifest id = .ok T)
    (hm : x.canonicalBytes m = .ok manifest)
    (hwon : m.requestId ∈ (ledger (gateHist tr.hist)).won)
    (hheld : hold tr'.hist = .held T) (hsame : gateHist tr'.hist = gateHist tr.hist)
    (hderived : w'.derived = w.derived ++ [⟨t, x.diffieHellman secret clientPublic, manifest, T⟩])
    (hsealed : w'.sealed = w.sealed) (hptys : w'.ptys = w.ptys) :
    SealInv x w' (Function.update v t (some tr')) := by
  obtain ⟨c2h, h2c, _, hkey, rfl⟩ := Transport.derive_ok hT
  have hlater : Later tr tr' := .of_hist (by rw [hheld]; nofun) hsame
  have hview := later_update ht hlater
  -- Nothing is on record for this thread yet.
  have hfresh : ∀ d ∈ w.derived, d.thread ≠ t := by
    rintro d hd rfl
    obtain ⟨⟨tr₁, _, htr₁, hne, _⟩, _⟩ := hI.derived d hd
    rw [ht] at htr₁
    cases htr₁
    exact hne hnone
  have hself : Function.update v t (some tr') t = some tr' := Function.update_self ..
  refine ⟨fun d hd => ?_, fun d hd d' hd' heq => ?_, fun e he => ?_, ?_, fun u s hs => ?_, ?_⟩
  · rw [hderived, List.mem_append] at hd
    rcases hd with hd | hd
    · exact (hI.derived d hd).later hview
    · cases List.mem_singleton.mp hd
      exact ⟨⟨tr', m, hself, by rw [hheld]; nofun, hm, hsame ▸ hwon⟩, hkey⟩
  · rw [hderived, List.mem_append] at hd hd'
    rcases hd with hd | hd
    · rcases hd' with hd' | hd'
      · exact hI.single d hd d' hd' heq
      · cases List.mem_singleton.mp hd'
        exact absurd heq (hfresh d hd)
    · cases List.mem_singleton.mp hd
      rcases hd' with hd' | hd'
      · exact absurd heq.symm (hfresh d' hd')
      · exact (List.mem_singleton.mp hd').symm
  · rw [hsealed] at he
    obtain ⟨d, hd, hdt, hkey⟩ := hI.sealed e he
    exact ⟨d, by rw [hderived]; exact List.mem_append_left _ hd, hdt, hkey⟩
  · rw [hsealed]
    exact hI.counted
  · rw [hptys] at hs
    exact lent_kept ht (by rw [hnone]; nofun) (hI.lent u s hs)
  · rintro u T₁ ⟨tr₁, htr₁, hT₁⟩
    by_cases hut : u = t
    · subst hut
      rw [hself] at htr₁
      cases htr₁
      rw [hheld] at hT₁
      rcases hT₁ with hT₁ | ⟨hlent, _⟩
      · cases hT₁
        refine ⟨⟨_, by rw [hderived]; exact List.mem_append_right _ (List.mem_singleton_self _),
          rfl, rfl⟩, fun e he heu => ?_⟩
        rw [hsealed] at he
        obtain ⟨d, hd, hdt, _⟩ := hI.sealed e he
        exact absurd (hdt.trans heu) (hfresh d hd)
      · cases hlent
    · rw [Function.update_of_ne hut] at htr₁
      rw [hptys] at hT₁
      obtain ⟨⟨d, hd, hrest⟩, hbelow⟩ := hI.current u T₁ ⟨tr₁, htr₁, hT₁⟩
      refine ⟨⟨d, by rw [hderived]; exact List.mem_append_left _ hd, hrest⟩, ?_⟩
      rw [hsealed]
      exact hbelow

/-- `run_pty` is handed the transport the connection holds. -/
theorem SealInv.opened (hI : SealInv x w v) (ht : v t = some tr) {T : Transport}
    (hheld : hold tr.hist = .held T) (hlent : hold tr'.hist = .lent)
    (hsame : gateHist tr'.hist = gateHist tr.hist)
    (hptys : w'.ptys = Function.update w.ptys t (some (PtyState.enter T)))
    (hderived : w'.derived = w.derived) (hsealed : w'.sealed = w.sealed) :
    SealInv x w' (Function.update v t (some tr')) := by
  have hT : Current w v t T := ⟨tr, ht, .inl hheld⟩
  have hlater : Later tr tr' := .of_hist (by rw [hlent]; nofun) hsame
  have hadded : w'.sealed = w.sealed ++ [] := by
    rw [hsealed, List.append_nil]
  refine hI.sealing hT .none (later_update ht hlater) hderived hadded ?_ ?_ ?_
  · intro u s hs
    by_cases hut : u = t
    · subst hut
      exact ⟨tr', Function.update_self .., hlent⟩
    · rw [hptys, Function.update_of_ne hut] at hs
      obtain ⟨tr₁, htr₁, hlent₁⟩ := hI.lent u s hs
      exact ⟨tr₁, by rw [Function.update_of_ne hut]; exact htr₁, hlent₁⟩
  · rintro T₁ ⟨tr₁, htr₁, hT₁⟩
    rw [Function.update_self] at htr₁
    cases htr₁
    rw [hlent] at hT₁
    rcases hT₁ with hT₁ | ⟨_, s, hs, _, hT₁⟩
    · cases hT₁
    · rw [hptys, Function.update_self] at hs
      cases hs
      exact hT₁.symm
  · rintro u hut T₁ ⟨tr₁, htr₁, hT₁⟩
    rw [Function.update_of_ne hut] at htr₁
    rw [hptys, Function.update_of_ne hut] at hT₁
    exact ⟨tr₁, htr₁, hT₁⟩

/-- The connection seals with the transport it holds. -/
theorem SealInv.encrypted (hI : SealInv x w v) (ht : v t = some tr) {T T' : Transport}
    {made : List Sealing} (hheld : hold tr.hist = .held T) (hs : Seals t T made T')
    (hheld' : hold tr'.hist = .held T') (hsame : gateHist tr'.hist = gateHist tr.hist) :
    SealInv x { w with sealed := w.sealed ++ made } (Function.update v t (some tr')) := by
  have hT : Current w v t T := ⟨tr, ht, .inl hheld⟩
  have hlater : Later tr tr' := .of_hist (by rw [hheld']; nofun) hsame
  refine hI.sealing hT hs (later_update ht hlater) rfl rfl ?_ ?_ ?_
  · intro u s hs
    exact lent_kept ht (by rw [hheld]; nofun) (hI.lent u s hs)
  · rintro T₁ ⟨tr₁, htr₁, hT₁⟩
    rw [Function.update_self] at htr₁
    cases htr₁
    rw [hheld'] at hT₁
    rcases hT₁ with hT₁ | ⟨hlent, _⟩
    · cases hT₁
      rfl
    · cases hlent
  · rintro u hut T₁ ⟨tr₁, htr₁, hT₁⟩
    rw [Function.update_of_ne hut] at htr₁
    exact ⟨tr₁, htr₁, hT₁⟩

/-- A PTY takes a step. -/
theorem SealInv.pty (hI : SealInv x w v) {s s' : PtyState} {l : PtyLabel}
    (hpty : w.ptys t = some s) (hs : s.step x l = some s')
    (hptys : w'.ptys = Function.update w.ptys t (some s'))
    (hderived : w'.derived = w.derived)
    (hsealed : w'.sealed = w.sealed ++ s.sealings x t l) : SealInv x w' v := by
  have hview : ∀ u tr, v u = some tr → ∃ tr', v u = some tr' ∧ Later tr tr' :=
    fun u tr hu => ⟨tr, hu, id, List.Subset.refl _⟩
  obtain ⟨tr, htr, htlent⟩ := hI.lent t s hpty
  have hlent : ∀ u s₁, w'.ptys u = some s₁ → ∃ tr, v u = some tr ∧ hold tr.hist = .lent := by
    intro u s₁ hs₁
    by_cases hut : u = t
    · subst hut
      exact ⟨tr, htr, htlent⟩
    · rw [hptys, Function.update_of_ne hut] at hs₁
      exact hI.lent u s₁ hs₁
  have hother : ∀ u, u ≠ t → ∀ T₁, Current w' v u T₁ → Current w v u T₁ := by
    rintro u hut T₁ ⟨tr₁, htr₁, hT₁⟩
    rw [hptys, Function.update_of_ne hut] at hT₁
    exact ⟨tr₁, htr₁, hT₁⟩
  have hown : ∀ T₁, Current w' v t T₁ → s'.result = none ∧ s'.transport = T₁ := by
    rintro T₁ ⟨tr₁, htr₁, hT₁⟩
    rw [htr] at htr₁
    cases htr₁
    rw [htlent] at hT₁
    rcases hT₁ with hT₁ | ⟨_, s₁, hs₁, hgoes, hT₁⟩
    · cases hT₁
    · rw [hptys, Function.update_self] at hs₁
      cases hs₁
      exact ⟨hgoes, hT₁⟩
  cases hresult : s.result with
  | none =>
      obtain ⟨T', hseals, hT'⟩ := PtyState.step_seals t hs
      refine hI.sealing ⟨tr, htr, .inr ⟨htlent, s, hpty, hresult, rfl⟩⟩ hseals hview hderived
        hsealed hlent (fun T₁ hT₁ => ?_) hother
      obtain ⟨hgoes, hT₁⟩ := hown T₁ hT₁
      exact hT₁.symm.trans (hT' hgoes)
  | some r =>
      -- What has returned does nothing but wait to be collected.
      obtain ⟨hresult', hnone⟩ := PtyState.step_returned t hresult hs
      rw [hnone] at hsealed
      refine hI.step hview hderived hsealed (.inl rfl) hlent fun u T₁ hT₁ => ?_
      by_cases hut : u = t
      · subst hut
        rw [(hown T₁ hT₁).1] at hresult'
        cases hresult'
      · exact ⟨T₁, hother u hut T₁ hT₁, rfl, Nat.le_refl _, nofun⟩

/-- The gate's part of the world is nothing to the record. -/
theorem SealInv.of_same (hI : SealInv x w v) (hptys : w'.ptys = w.ptys)
    (hderived : w'.derived = w.derived) (hsealed : w'.sealed = w.sealed) : SealInv x w' v where
  derived := by rw [hderived]; exact hI.derived
  single := by rw [hderived]; exact hI.single
  sealed := by rw [hderived, hsealed]; exact hI.sealed
  counted := by rw [hsealed]; exact hI.counted
  lent := by rw [hptys]; exact hI.lent
  current t T hT := by
    rw [hderived, hsealed]
    obtain ⟨tr, htr, hT⟩ := hT
    rw [hptys] at hT
    exact hI.current t T ⟨tr, htr, hT⟩

theorem SealInv.spawn (hI : SealInv x w v) (ht : v t = none) :
    SealInv x w (Function.update v t (some ⟨c, [], true⟩)) := by
  have hne : ∀ u tr, v u = some tr → u ≠ t := by
    rintro u tr hu rfl
    rw [ht] at hu
    cases hu
  have hview : ∀ u tr, v u = some tr →
      Function.update v t (some ⟨c, [], true⟩) u = some tr := by
    intro u tr hu
    rw [Function.update_of_ne (hne u tr hu)]
    exact hu
  refine hI.step (fun u tr hu => ⟨tr, hview u tr hu, id, List.Subset.refl _⟩) rfl
    (List.append_nil _).symm (.inl rfl) ?_ ?_
  · intro u s hs
    obtain ⟨tr, htr, hlent⟩ := hI.lent u s hs
    exact ⟨tr, hview u tr htr, hlent⟩
  · rintro u T ⟨tr, htr, hT⟩
    rcases update_some htr with ⟨_, rfl⟩ | ⟨_, htr⟩
    · rcases hT with hT | ⟨hT, _⟩ <;> cases hT
    · exact ⟨T, ⟨tr, htr, hT⟩, rfl, Nat.le_refl _, nofun⟩

theorem gateView_update (v : Nat → Option SessionTrace) (t : Nat) (tr : SessionTrace) :
    gateView (Function.update v t (some tr)) =
      Function.update (gateView v) t (some (gateTrace tr)) := by
  funext u
  by_cases hut : u = t
  · subst hut
    simp [gateView]
  · simp [gateView, Function.update_of_ne hut]

theorem gateView_eq (ht : v t = some tr) : gateView v t = some (gateTrace tr) := by
  rw [gateView, ht]
  rfl

/-- The database is as the gate's threads account for it, and the record of
transports and sealings as the sessions do. -/
def SessionInv (x : Externals) (w : SessionWorld) (v : Nat → Option SessionTrace) : Prop :=
  GateInv w.toGateWorld (gateView v) ∧ SealInv x w v

theorem SessionInv.act (hI : SessionInv x w v) (ht : v t = some ⟨c, h, true⟩) {o : SessionOp}
    {ch : GateChoice} {r : SessionResp o} (hmay : (sessionContract x c).may h o)
    (hexec : w.exec x t o ch = some (w', r)) :
    SessionInv x w' (Function.update v t (some ⟨c, h ++ [⟨o, r⟩], true⟩)) := by
  obtain ⟨hG, hS⟩ := hI
  have hg := gateView_eq ht
  -- What is only in view is nothing to the gate.
  have hunseen : ∀ e : SessionEvent, gateEvent e = none →
      GateInv w.toGateWorld (gateView (Function.update v t (some ⟨c, h ++ [e], true⟩))) := by
    intro e he
    rw [gateView_update]
    refine hG.neutral hg ?_
    rw [gateHist_snoc, he]
    exact congrArg ledger (List.append_nil _)
  have hsame : ∀ e : SessionEvent, gateEvent e = none → gateHist (h ++ [e]) = gateHist h := by
    intro e he
    rw [gateHist_snoc, he]
    exact List.append_nil _
  cases SessionWorld.exec_move hexec with
  | gate hx =>
      refine ⟨?_, hS.quiet ht (hold_snoc ..) ?_ rfl rfl fun _ _ hs => hs⟩
      · rw [gateView_update]
        show GateInv _ (Function.update _ _ (some ⟨c, gateHist (h ++ [_]), true⟩))
        rw [gateHist_snoc]
        exact hG.act hg hmay.1 hx
      · rw [gateHist_snoc]
        exact (won_append _ _).subset
  | returned r =>
      refine ⟨?_, hS.quiet ht (hold_snoc ..) ?_ rfl rfl fun u s hs => ?_⟩
      · rw [gateView_update]
        refine hG.neutral hg ?_
        simp only [gateHist_snoc]
        exact ledger_snoc _ _
      · rw [gateHist_snoc]
        exact (won_append _ _).subset
      · by_cases hut : u = t
        · subst hut
          simp at hs
        · simpa only [Function.update_of_ne hut] using hs
  | brokered hT =>
      obtain ⟨hnone, m, hm, hwon⟩ := hmay
      refine ⟨hunseen _ rfl, ?_⟩
      exact hS.brokered ht hnone hT hm hwon (hold_snoc ..) (hsame _ rfl) rfl rfl rfl
  | unbrokered =>
      refine ⟨hunseen _ rfl, hS.quiet ht (hold_snoc ..) ?_ rfl rfl fun _ _ hs => hs⟩
      rw [hsame _ rfl]
      exact List.Subset.refl _
  | sealed hs =>
      exact ⟨hunseen _ rfl, hS.encrypted ht hmay hs (hold_snoc ..) (hsame _ rfl)⟩
  | unsealed =>
      refine ⟨hunseen _ rfl, hS.quiet ht (hold_snoc ..) ?_ rfl rfl fun _ _ hs => hs⟩
      rw [hsame _ rfl]
      exact List.Subset.refl _
  | opened =>
      exact ⟨hunseen _ rfl, hS.opened ht hmay (hold_snoc ..) (hsame _ rfl) rfl rfl rfl⟩

theorem sessionOutline_sound (x : Externals) :
    (sessionOutline x).Sound (sessionHost x) (fun _ _ => True) (SessionInv x) where
  init w hw := by
    obtain ⟨hpending, hptys, hderived, hsealed⟩ := hw
    refine ⟨(gateOutline_sound x).init _ hpending, ?_⟩
    refine ⟨?_, ?_, ?_, ?_, fun t s hs => ?_, ?_⟩
    · rw [hderived]
      nofun
    · rw [hderived]
      nofun
    · rw [hsealed]
      nofun
    · rw [hsealed]
      exact List.nodup_nil
    · rw [hptys t] at hs
      cases hs
    · rintro t T ⟨tr, htr, _⟩
      cases htr
  spawn w v t c w' hI ht hw := by
    cases hw
    obtain ⟨hG, hS⟩ := hI
    refine ⟨?_, ?_⟩
    · rw [gateView_update]
      refine hG.spawn ?_
      rw [gateView, ht]
      rfl
    · exact hS.spawn ht
  act s t ch c o k h w' r hI ht hmay _ hx := ⟨trivial, hI.act (Pool.State.view_eq ht) hmay hx⟩
  kill w v t c h hI ht := by
    obtain ⟨hG, hS⟩ := hI
    refine ⟨?_, hS.quiet ht rfl (List.Subset.refl _) rfl rfl fun u s hs => ?_⟩
    · rw [gateView_update]
      exact hG.discard (gateView_eq ht) nofun rfl
    · simp only [sessionHost, SessionWorld.kill] at hs
      exact (update_none hs).2
  env w v e w' hI hw := by
    obtain ⟨hG, hS⟩ := hI
    cases e with
    | gate e =>
        cases e <;> cases hw <;> exact ⟨hG.of_db rfl rfl, hS.of_same rfl rfl rfl⟩
    | pty t l =>
        obtain ⟨s, hs, hw⟩ := Option.bind_eq_some_iff.mp hw
        obtain ⟨s', hstep, rfl⟩ := Option.map_eq_some_iff.mp hw
        exact ⟨hG.of_db rfl rfl, hS.pty hs hstep rfl rfl rfl⟩

/-- What the key derivations of the run come down to: no two of its manifests
have one salt, and no two different derivations one key. -/
structure NoCollision (x : Suite) (made : List Derivation) : Prop where
  salts : ∀ d ∈ made, ∀ d' ∈ made, x.sha256 d.manifest = x.sha256 d'.manifest →
    d.manifest = d'.manifest
  keys : ∀ d ∈ made, ∀ d' ∈ made, ∀ info ∈ [clientToHostInfo, hostToClientInfo],
    ∀ info' ∈ [clientToHostInfo, hostToClientInfo],
    (x.expand (x.sha256 d.manifest) d.shared info).isSome →
    x.expand (x.sha256 d.manifest) d.shared info =
      x.expand (x.sha256 d'.manifest) d'.shared info' →
    x.sha256 d.manifest = x.sha256 d'.manifest ∧ d.shared = d'.shared ∧ info = info'

instance (x : Suite) (made : List Derivation) : Decidable (NoCollision x made) :=
  decidable_of_iff (_ ∧ _) ⟨fun h => ⟨h.1, h.2⟩, fun h => ⟨h.salts, h.keys⟩⟩

/-- No two ciphertexts of a run are made under one key and nonce, however many
sessions there are, whatever the clients send, and whenever the gate restarts. -/
theorem nonce_used_once {s : SessionPoolState} (hr : (sessionPool x).Reachable s)
    (hcanonical : ∀ m m' b, x.canonicalBytes m = .ok b → x.canonicalBytes m' = .ok b → m = m')
    (hmade : NoCollision x.toSuite s.world.derived) :
    (s.world.sealed.map fun e => (e.key, e.nonce)).Nodup := by
  obtain ⟨⟨hG, hS⟩, _⟩ := Outline.invariant (sessionOutline_holds x) (sessionOutline_sound x) hr
  have hthread : ∀ e ∈ s.world.sealed, ∀ e' ∈ s.world.sealed, e.key = e'.key →
      e.thread = e'.thread := by
    intro e he e' he' hkey
    obtain ⟨d, hd, hdt, hdkey⟩ := hS.sealed e he
    obtain ⟨d', hd', hdt', hdkey'⟩ := hS.sealed e' he'
    obtain ⟨⟨tr, m, htr, _, hm, hwon⟩, hk⟩ := hS.derived d hd
    obtain ⟨⟨tr', m', htr', _, hm', hwon'⟩, hk'⟩ := hS.derived d' hd'
    rw [← hdkey', ← hkey, hdkey, ← hk] at hk'
    have hinfo : hostToClientInfo ∈ [clientToHostInfo, hostToClientInfo] := by simp
    obtain ⟨hsalt, _⟩ := hmade.keys d hd d' hd' _ hinfo _ hinfo (by rw [hk]; rfl) hk'.symm
    -- One salt, one manifest, one request, and that was won by one thread only.
    rw [← hmade.salts d hd d' hd' hsalt] at hm'
    obtain rfl := hcanonical m m' _ hm hm'
    rw [← hdt, ← hdt']
    exact hG.once _ _ _ _ _ (gateView_eq htr) (gateView_eq htr') hwon hwon'
  have hpairs := List.pairwise_map.mp hS.counted
  refine List.pairwise_map.mpr (hpairs.imp_of_mem ?_)
  intro e e' he he' hne heq
  have hkey : e.key = e'.key := congrArg Prod.fst heq
  have hcounter : e.counter = e'.counter := Transport.nonce_inj (congrArg Prod.snd heq)
  exact hne (Prod.ext (hthread e he e' he' hkey) hcounter)

def secondManifest : TrustedManifest :=
  { plainManifest with requestId := "request-2", nonce := Vector.replicate 32 8 }

def secondChallenge : SignedTrustedManifest where
  manifest := secondManifest
  hostIdentityPublic := Vector.replicate 32 6
  signature := [6, 2]

def firstChallenge : SignedTrustedManifest := { plainChallenge with signature := [6, 1] }

/-- Two requests from one client key; the salt is told apart by its first byte. -/
def sessionExternals : Externals :=
  { plainExternals with
    decodeClient
      | [1] => .ok (.start "request-1" (.rootCommand "/bin/true" [] 60) (Vector.replicate 32 3))
      | [2] => .ok (.approve firstChallenge (Vector.replicate 32 9) [9, 1])
      | [3] => .ok (.start "request-2" (.rootCommand "/bin/true" [] 60) (Vector.replicate 32 3))
      | [4] => .ok (.approve secondChallenge (Vector.replicate 32 9) [9, 2])
      | _ => .error "malformed"
    canonicalBytes m :=
      if m = plainManifest then .ok [1]
      else if m = secondManifest then .ok [2]
      else .error "not encodable"
    expand salt _ info := some (Vector.replicate 32
      (2 * salt.headD 0 + if info = clientToHostInfo then 0 else 1)) }

def sessionWorld : SessionPoolState where
  world :=
    { plainWorld.world with ptys := fun _ => none, derived := [], sealed := [] }
  threads _ := none

def sessionDialogue (start approve : Bytes) (nonce : UInt8) : List GateChoice :=
  [.uid 7, .var (some "7"), .bytes [0, 0, 0, 1], .bytes start, .ok,
    .key (Vector.replicate 32 nonce), .var none, .ok, .ok, .ok, .ok, .ok, .bytes [0, 0, 0, 1],
    .bytes approve, .ok, .var none, .ok, .ok, .ok, .ok, .ok, .ok, .ok,
    .output { code := some 0, stdout := [1], stderr := [] }, .ok, .ok, .ok, .ok, .ok]

def sessionRun : List (Pool.Label GateCall GateChoice SessionEnv) :=
  .spawn 0 (.connection plainGate) :: (sessionDialogue [1] [2] 5).map (.act 0) ++
    .spawn 1 (.connection plainGate) :: (sessionDialogue [3] [4] 8).map (.act 1)

theorem sessionExternals_canonical (m m' : TrustedManifest) (b : Bytes)
    (hm : sessionExternals.canonicalBytes m = .ok b)
    (hm' : sessionExternals.canonicalBytes m' = .ok b) : m = m' := by
  simp only [sessionExternals] at hm hm'
  split at hm
  · next heq =>
      cases hm
      split at hm'
      · next heq' => exact heq.trans heq'.symm
      · split at hm' <;> cases hm'
  · split at hm
    · next heq =>
        cases hm
        split at hm'
        · cases hm'
        · split at hm'
          · next heq' => exact heq.trans heq'.symm
          · cases hm'
    · cases hm

/-- Two sessions with one shared secret, two ciphertexts each: the counters
repeat and the keys do not. -/
theorem nonce_used_once_shared : ∃ s : SessionPoolState,
    (sessionPool sessionExternals).Reachable s ∧
    (s.world.derived.map fun d => d.shared) =
      [plainGate.transportSecret, plainGate.transportSecret] ∧
    (s.world.sealed.map fun e => (e.thread, e.counter)) = [(0, 0), (0, 1), (1, 0), (1, 1)] ∧
    (s.world.sealed.map fun e => (e.key, e.nonce)).Nodup := by
  have hrun : ((sessionPool sessionExternals).run sessionWorld sessionRun).map (fun s =>
      (decide (NoCollision sessionExternals.toSuite s.world.derived),
        s.world.derived.map fun d => d.shared,
        s.world.sealed.map fun e => (e.thread, e.counter))) =
      some (true, [plainGate.transportSecret, plainGate.transportSecret],
        [(0, 0), (0, 1), (1, 0), (1, 1)]) := by
    decide
  obtain ⟨s, hs, hseen⟩ := Option.map_eq_some_iff.mp hrun
  have hinit : (sessionPool sessionExternals).init sessionWorld :=
    ⟨⟨rfl, fun _ => rfl, rfl, rfl⟩, fun _ => rfl⟩
  have hr := Machine.Reach.run (.init hinit) hs
  obtain ⟨hmade, hrest⟩ := Prod.mk.inj hseen
  obtain ⟨hshared, hcounters⟩ := Prod.mk.inj hrest
  exact ⟨s, hr, hshared, hcounters,
    nonce_used_once hr sessionExternals_canonical (of_decide_eq_true hmade)⟩

end ShellfleetAgent.Privileged
