import Mathlib.Tactic.Common
import ShellfleetAgent.Lib.Lists
import ShellfleetAgent.Privileged.Link

/-!
# The transport delivers a prefix of what was sent

One invariant ties the two ends together. Each direction has its own key, the
sending counter counts the frames sent under it, every sealing call on record
was made by one of the two ends at a counter it had then, and what an end has
accepted is the first `receiveCounter` plaintexts of its peer.

The step that matters is a delivery that opens. It was sealed by somebody under
this very key and nonce; the key says by whom (the peer, since the two keys
differ, so a reflected frame is out) and the nonce says which of its frames it
is (the next one, since the counters agree).
-/

namespace ShellfleetAgent.Privileged

open ShellfleetAgent.Lib

/-- What the transport relies on in the primitives: opening undoes sealing, and
the two directions get different keys. -/
structure Suite.Ideal (x : Suite) : Prop where
  opens : ∀ k n a m c, x.encrypt k n a m = some c → x.decrypt k n a c = some m
  labels : ∀ salt ikm k k', x.expand salt ikm clientToHostInfo = some k →
    x.expand salt ikm hostToClientInfo = some k' → k ≠ k'

namespace Link

@[simp] theorem peer_peer (a : Side) : a.peer.peer = a := by cases a <;> rfl

theorem eq_or_eq_peer (a b : Side) : a = b ∨ a = b.peer := by
  cases a <;> cases b <;> decide

variable {x : Suite}

/-- The part of an end that no step changes. -/
structure Paired (s : Link) : Prop where
  keys : ∀ a, (s.ends a).receive = (s.ends a.peer).send
  distinct : ∀ a, (s.ends a).send ≠ (s.ends a.peer).send
  request : ∀ a, (s.ends a).requestId = (s.ends a.peer).requestId

structure Inv (x : Suite) (s : Link) : Prop extends Paired s where
  sentCount : ∀ a, (s.sent a).length = (s.ends a).sendCounter.toNat
  framedCount : ∀ a, (s.frames a).length = (s.sent a).length
  framed : ∀ a i (frame : UInt64 × Bytes), (s.frames a)[i]? = some frame →
    frame.1.toNat = i ∧ ∃ p, (s.sent a)[i]? = some p ∧
      x.encrypt (s.ends a).send (Transport.nonce frame.1) (asBytes (s.ends a).requestId) p
        = some frame.2 ∧
      ⟨(s.ends a).send, Transport.nonce frame.1, asBytes (s.ends a).requestId, p, frame.2⟩
        ∈ s.sealed
  logged : ∀ e ∈ s.sealed, ∃ a counter,
    e.key = (s.ends a).send ∧ e.nonce = Transport.nonce counter ∧
    x.encrypt e.key e.nonce e.aad e.plaintext = some e.ciphertext ∧
    ((s.sent a)[counter.toNat]? = some e.plaintext ∨ checkedSucc counter = none)
  received : ∀ a, (s.ends a).receiveCounter.toNat ≤ (s.sent a.peer).length ∧
    s.got a = (s.sent a.peer).take (s.ends a).receiveCounter.toNat

/-! ## The outcomes of a step

Sealing can fail, succeed at the last counter, or send a frame; opening can
fail or deliver a plaintext. The three outcomes that change anything are named,
with what they do to each field. -/

/-- The record of the sealing call `a` makes for `p` in `s`. -/
def sealing (s : Link) (a : Side) (p c : Bytes) : Sealed :=
  ⟨(s.ends a).send, Transport.nonce (s.ends a).sendCounter, asBytes (s.ends a).requestId, p, c⟩

def sealAt (s : Link) (a : Side) (p c : Bytes) : Link :=
  { s with sealed := s.sealed ++ [s.sealing a p c] }

def sendAt (s : Link) (a : Side) (next : UInt64) (p c : Bytes) : Link :=
  { s with
    ends := Function.update s.ends a { s.ends a with sendCounter := next }
    frames := Function.update s.frames a (s.frames a ++ [((s.ends a).sendCounter, c)])
    sent := Function.update s.sent a (s.sent a ++ [p])
    sealed := s.sealed ++ [s.sealing a p c] }

def acceptAt (s : Link) (a : Side) (next : UInt64) (p : Bytes) : Link :=
  { s with
    ends := Function.update s.ends a { s.ends a with receiveCounter := next }
    got := Function.update s.got a (s.got a ++ [p]) }

section Fields

variable (s : Link) (a b : Side) (next : UInt64) (p c : Bytes)

@[simp] theorem sendAt_frames : (s.sendAt a next p c).frames =
    Function.update s.frames a (s.frames a ++ [((s.ends a).sendCounter, c)]) := rfl

@[simp] theorem sendAt_sent : (s.sendAt a next p c).sent =
    Function.update s.sent a (s.sent a ++ [p]) := rfl

@[simp] theorem sendAt_got : (s.sendAt a next p c).got = s.got := rfl

@[simp] theorem sendAt_sealed :
    (s.sendAt a next p c).sealed = s.sealed ++ [s.sealing a p c] := rfl

@[simp] theorem sendAt_send : ((s.sendAt a next p c).ends b).send = (s.ends b).send := by
  by_cases hb : b = a
  · subst hb; simp [sendAt]
  · simp [sendAt, Function.update_of_ne hb]

@[simp] theorem sendAt_receive :
    ((s.sendAt a next p c).ends b).receive = (s.ends b).receive := by
  by_cases hb : b = a
  · subst hb; simp [sendAt]
  · simp [sendAt, Function.update_of_ne hb]

@[simp] theorem sendAt_requestId :
    ((s.sendAt a next p c).ends b).requestId = (s.ends b).requestId := by
  by_cases hb : b = a
  · subst hb; simp [sendAt]
  · simp [sendAt, Function.update_of_ne hb]

@[simp] theorem sendAt_receiveCounter :
    ((s.sendAt a next p c).ends b).receiveCounter = (s.ends b).receiveCounter := by
  by_cases hb : b = a
  · subst hb; simp [sendAt]
  · simp [sendAt, Function.update_of_ne hb]

theorem sendAt_sendCounter : ((s.sendAt a next p c).ends b).sendCounter =
    if b = a then next else (s.ends b).sendCounter := by
  by_cases hb : b = a
  · subst hb; simp [sendAt]
  · simp [sendAt, hb]

@[simp] theorem acceptAt_send :
    ((s.acceptAt a next p).ends b).send = (s.ends b).send := by
  by_cases hb : b = a
  · subst hb; simp [acceptAt]
  · simp [acceptAt, Function.update_of_ne hb]

@[simp] theorem acceptAt_receive :
    ((s.acceptAt a next p).ends b).receive = (s.ends b).receive := by
  by_cases hb : b = a
  · subst hb; simp [acceptAt]
  · simp [acceptAt, Function.update_of_ne hb]

@[simp] theorem acceptAt_requestId :
    ((s.acceptAt a next p).ends b).requestId = (s.ends b).requestId := by
  by_cases hb : b = a
  · subst hb; simp [acceptAt]
  · simp [acceptAt, Function.update_of_ne hb]

@[simp] theorem acceptAt_sendCounter :
    ((s.acceptAt a next p).ends b).sendCounter = (s.ends b).sendCounter := by
  by_cases hb : b = a
  · subst hb; simp [acceptAt]
  · simp [acceptAt, Function.update_of_ne hb]

theorem acceptAt_receiveCounter : ((s.acceptAt a next p).ends b).receiveCounter =
    if b = a then next else (s.ends b).receiveCounter := by
  by_cases hb : b = a
  · subst hb; simp [acceptAt]
  · simp [acceptAt, hb]

theorem acceptAt_got : (s.acceptAt a next p).got =
    Function.update s.got a (s.got a ++ [p]) := rfl

@[simp] theorem acceptAt_sent : (s.acceptAt a next p).sent = s.sent := rfl

end Fields

theorem step_encrypt {s s' : Link} {a : Side} {p : Bytes}
    (h : step x s (.encrypt a p) = some s') :
    s' = s ∨
    (∃ c, x.encrypt (s.ends a).send (Transport.nonce (s.ends a).sendCounter)
        (asBytes (s.ends a).requestId) p = some c ∧
      (checkedSucc (s.ends a).sendCounter = none ∧ s' = s.sealAt a p c ∨
      ∃ next, checkedSucc (s.ends a).sendCounter = some next ∧ s' = s.sendAt a next p c)) := by
  rcases Transport.encrypt_cases x (s.ends a) p with ⟨hn, he⟩ | ⟨c, hc, hs, he⟩ |
    ⟨c, next, hc, hs, he⟩
  · left
    simp only [step, he, logSealed, hn, Function.update_eq_self] at h
    exact (Option.some.inj h).symm
  · right
    refine ⟨c, hc, .inl ⟨hs, ?_⟩⟩
    simp only [step, he, logSealed, hc, Function.update_eq_self] at h
    exact (Option.some.inj h).symm
  · right
    refine ⟨c, hc, .inr ⟨next, hs, ?_⟩⟩
    simp only [step, he, logSealed, hc] at h
    exact (Option.some.inj h).symm

theorem step_deliver {s s' : Link} {a : Side} {counter : UInt64} {c : Bytes}
    (h : step x s (.deliver a counter c) = some s') :
    ¬Forged x s.sealed (s.ends a) counter c ∧
    ((∃ e, ((s.ends a).decrypt x counter c).2 = .error e ∧ s' = s) ∨
    ∃ p next, counter = (s.ends a).receiveCounter ∧
      x.decrypt (s.ends a).receive (Transport.nonce counter) (asBytes (s.ends a).requestId) c
        = some p ∧
      checkedSucc (s.ends a).receiveCounter = some next ∧ s' = s.acceptAt a next p) := by
  simp only [step] at h
  split at h
  · cases h
  · next hf =>
      refine ⟨hf, ?_⟩
      split at h
      · next t p hd =>
          obtain ⟨hc, ho, next, hs, rfl⟩ := Transport.decrypt_ok.mp hd
          exact .inr ⟨p, next, hc, ho, hs, (Option.some.inj h).symm⟩
      · next t e hd =>
          have he : ((s.ends a).decrypt x counter c).2 = .error e := by rw [hd]
          have ht : t = s.ends a := by
            have := Transport.decrypt_error he
            rwa [hd] at this
          rw [ht, Function.update_eq_self] at h
          exact .inl ⟨e, he, (Option.some.inj h).symm⟩

/-! ## What one step keeps -/

theorem Paired.sendAt {s : Link} (h : Paired s) (a : Side) (next : UInt64) (p c : Bytes) :
    Paired (s.sendAt a next p c) where
  keys b := by rw [sendAt_receive, sendAt_send]; exact h.keys b
  distinct b := by rw [sendAt_send, sendAt_send]; exact h.distinct b
  request b := by rw [sendAt_requestId, sendAt_requestId]; exact h.request b

theorem Paired.acceptAt {s : Link} (h : Paired s) (a : Side) (next : UInt64) (p : Bytes) :
    Paired (s.acceptAt a next p) where
  keys b := by rw [acceptAt_receive, acceptAt_send]; exact h.keys b
  distinct b := by rw [acceptAt_send, acceptAt_send]; exact h.distinct b
  request b := by rw [acceptAt_requestId, acceptAt_requestId]; exact h.request b

/-- A plaintext on record stays at its index. -/
theorem sendAt_sent_some {s : Link} {a b : Side} {next : UInt64} {p c q : Bytes} {i : Nat}
    (h : (s.sent b)[i]? = some q) : ((s.sendAt a next p c).sent b)[i]? = some q := by
  rw [sendAt_sent]
  by_cases hb : b = a
  · subst hb
    rw [Function.update_self]
    exact getElem?_concat_some h
  · rw [Function.update_of_ne hb]
    exact h

/-- The new plaintext is at the counter its frame was sealed under. -/
theorem sendAt_sent_last {s : Link} (hi : Inv x s) {a : Side} {next : UInt64} {p c : Bytes} :
    ((s.sendAt a next p c).sent a)[(s.ends a).sendCounter.toNat]? = some p := by
  rw [sendAt_sent, Function.update_self, ← hi.sentCount a, List.getElem?_concat_length]

theorem inv_sendAt {s : Link} (hi : Inv x s) {a : Side} {next : UInt64} {p c : Bytes}
    (hc : x.encrypt (s.ends a).send (Transport.nonce (s.ends a).sendCounter)
      (asBytes (s.ends a).requestId) p = some c)
    (hs : checkedSucc (s.ends a).sendCounter = some next) : Inv x (s.sendAt a next p c) := by
  obtain ⟨-, hnext⟩ := checkedSucc_eq_some.mp hs
  refine { toPaired := hi.toPaired.sendAt a next p c, sentCount := ?_, framedCount := ?_,
           framed := ?_, logged := ?_, received := ?_ }
  · intro b
    rw [sendAt_sendCounter, sendAt_sent]
    by_cases hb : b = a
    · subst hb
      rw [if_pos rfl, Function.update_self, List.length_append, hi.sentCount, hnext]
      rfl
    · rw [if_neg hb, Function.update_of_ne hb]
      exact hi.sentCount b
  · intro b
    rw [sendAt_frames, sendAt_sent]
    by_cases hb : b = a
    · subst hb
      rw [Function.update_self, Function.update_self, List.length_append, List.length_append,
        hi.framedCount]
      rfl
    · rw [Function.update_of_ne hb, Function.update_of_ne hb]
      exact hi.framedCount b
  · intro b i frame hf
    rw [sendAt_send, sendAt_requestId, sendAt_sealed]
    rw [sendAt_frames] at hf
    by_cases hold : (s.frames b)[i]? = some frame
    · obtain ⟨hn, q, hq, he, hm⟩ := hi.framed b i frame hold
      exact ⟨hn, q, sendAt_sent_some hq, he, List.mem_append_left _ hm⟩
    · -- the frame this very step produced
      have hb : b = a := by
        by_contra hb
        rw [Function.update_of_ne hb] at hf
        exact hold hf
      subst hb
      rw [Function.update_self] at hf
      have hlen : (s.frames b).length = (s.ends b).sendCounter.toNat := by
        rw [hi.framedCount, hi.sentCount]
      rcases concat_cases hf with ⟨rfl, rfl⟩ | ⟨_, hf⟩
      · exact ⟨hlen.symm, p, by rw [hlen]; exact sendAt_sent_last hi, hc,
          List.mem_append_right _ (List.mem_singleton.mpr rfl)⟩
      · exact absurd hf hold
  · intro e he
    rw [sendAt_sealed] at he
    rcases List.mem_append.mp he with he | he
    · obtain ⟨b, ctr, hk, hn, hx, hor⟩ := hi.logged e he
      exact ⟨b, ctr, by rw [sendAt_send]; exact hk, hn, hx, hor.imp sendAt_sent_some id⟩
    · obtain rfl := List.mem_singleton.mp he
      exact ⟨a, _, by rw [sendAt_send]; rfl, rfl, hc, .inl (sendAt_sent_last hi)⟩
  · intro b
    obtain ⟨hle, hgot⟩ := hi.received b
    rw [sendAt_receiveCounter, sendAt_got, sendAt_sent]
    by_cases hb : b.peer = a
    · subst hb
      rw [Function.update_self, List.length_append, List.take_append_of_le_length hle]
      exact ⟨by omega, hgot⟩
    · rw [Function.update_of_ne hb]
      exact ⟨hle, hgot⟩

theorem inv_encrypt {s s' : Link} (hi : Inv x s) {a : Side} {p : Bytes}
    (h : step x s (.encrypt a p) = some s') : Inv x s' := by
  rcases step_encrypt h with rfl | ⟨c, hc, ⟨hs, rfl⟩ | ⟨next, hs, rfl⟩⟩
  · exact hi
  · -- sealed at the last counter: on record, but never sent
    refine { hi with framed := ?_, logged := ?_ }
    · intro b i frame hf
      obtain ⟨hn, q, hq, he, hm⟩ := hi.framed b i frame hf
      exact ⟨hn, q, hq, he, List.mem_append_left _ hm⟩
    · intro e he
      rcases List.mem_append.mp he with he | he
      · exact hi.logged e he
      · obtain rfl := List.mem_singleton.mp he
        exact ⟨a, _, rfl, rfl, hc, .inr hs⟩
  · exact inv_sendAt hi hc hs

/-- The delivery that opens was sealed by the peer, at this very counter. -/
theorem opened_is_next (hx : x.Ideal) {s : Link} (hi : Inv x s) {a : Side}
    {counter next : UInt64} {c p : Bytes} (hf : ¬Forged x s.sealed (s.ends a) counter c)
    (ho : x.decrypt (s.ends a).receive (Transport.nonce counter) (asBytes (s.ends a).requestId) c
      = some p)
    (hs : checkedSucc counter = some next) : (s.sent a.peer)[counter.toNat]? = some p := by
  have hlog : ∃ e ∈ s.sealed, e.key = (s.ends a).receive ∧ e.nonce = Transport.nonce counter ∧
      e.aad = asBytes (s.ends a).requestId ∧ e.ciphertext = c := by
    by_contra hno
    exact hf ⟨by rw [ho]; rfl, fun e he hm => hno ⟨e, he, hm⟩⟩
  obtain ⟨e, he, hk, hn, ha, hc⟩ := hlog
  obtain ⟨b, ctr, hbk, hbn, hsealed, hor⟩ := hi.logged e he
  have hctr : ctr = counter := Transport.nonce_inj (hbn.symm.trans hn)
  have hb : b = a.peer := by
    rcases eq_or_eq_peer b a with rfl | hb
    · -- a reflected frame: sealed under this end's own sending key
      exfalso
      rw [hi.keys] at hk
      exact hi.distinct b (hbk.symm.trans hk)
    · exact hb
  have hopen := hx.opens _ _ _ _ _ hsealed
  rw [hk, hn, ha, hc, ho, Option.some.injEq] at hopen
  subst hb hctr
  rcases hor with hsent | hlast
  · rw [hopen]; exact hsent
  · rw [hs] at hlast; cases hlast

theorem inv_acceptAt {s : Link} (hi : Inv x s) {a : Side} {next : UInt64} {p : Bytes}
    (hp : (s.sent a.peer)[(s.ends a).receiveCounter.toNat]? = some p)
    (hs : checkedSucc (s.ends a).receiveCounter = some next) : Inv x (s.acceptAt a next p) := by
  obtain ⟨-, hnext⟩ := checkedSucc_eq_some.mp hs
  refine { toPaired := hi.toPaired.acceptAt a next p, sentCount := ?_,
           framedCount := hi.framedCount, framed := ?_, logged := ?_, received := ?_ }
  · intro b
    rw [acceptAt_sendCounter]
    exact hi.sentCount b
  · intro b i frame hfr
    rw [acceptAt_send, acceptAt_requestId]
    exact hi.framed b i frame hfr
  · intro e he
    obtain ⟨b, ctr, hk, hrest⟩ := hi.logged e he
    exact ⟨b, ctr, by rw [acceptAt_send]; exact hk, hrest⟩
  · intro b
    obtain ⟨hle, hgot⟩ := hi.received b
    rw [acceptAt_receiveCounter, acceptAt_got, acceptAt_sent]
    by_cases hb : b = a
    · subst hb
      have hlen : (s.ends b).receiveCounter.toNat < (s.sent b.peer).length := by
        by_contra hge
        rw [List.getElem?_eq_none (by omega)] at hp
        cases hp
      rw [if_pos rfl, Function.update_self, hnext]
      refine ⟨hlen, ?_⟩
      rw [List.take_add_one, hp, hgot]
      rfl
    · rw [if_neg hb, Function.update_of_ne hb]
      exact ⟨hle, hgot⟩

theorem inv_deliver (hx : x.Ideal) {s s' : Link} (hi : Inv x s) {a : Side}
    {counter : UInt64} {c : Bytes} (h : step x s (.deliver a counter c) = some s') :
    Inv x s' := by
  obtain ⟨hf, ⟨e, -, rfl⟩ | ⟨p, next, rfl, ho, hs, rfl⟩⟩ := step_deliver h
  · exact hi
  · exact inv_acceptAt hi (opened_is_next hx hi hf ho hs) hs

/-! ## Whole runs -/

/-- The two fresh ends of one session: derived from the same shared secret, the
same manifest and the same request id, one as broker and one as client. -/
structure Session (x : Suite) (b c : Transport) : Prop where
  derived : ∃ brokerSecret clientSecret brokerPublic clientPublic manifest requestId,
    x.diffieHellman brokerSecret clientPublic = x.diffieHellman clientSecret brokerPublic ∧
    Transport.broker x brokerSecret clientPublic manifest requestId = .ok b ∧
    Transport.client x clientSecret brokerPublic manifest requestId = .ok c

theorem inv_start (hx : x.Ideal) {b c : Transport} (hsess : Session x b c) {s : Link}
    (h : (link x b c).init s) : Inv x s := by
  obtain ⟨bs, cs, bp, cp, manifest, rid, hdh, hb, hc⟩ := hsess.derived
  obtain ⟨k, k', hk, hk', rfl⟩ := Transport.derive_ok hb
  obtain ⟨l, l', hl, hl', rfl⟩ := Transport.derive_ok hc
  rw [hdh] at hk hk'
  obtain rfl : k = l := Option.some.inj (hk.symm.trans hl)
  obtain rfl : k' = l' := Option.some.inj (hk'.symm.trans hl')
  have hne : k ≠ k' := hx.labels _ _ _ _ hk hk'
  obtain rfl := h
  refine { keys := ?_, distinct := ?_, request := ?_, sentCount := ?_, framedCount := ?_,
           framed := ?_, logged := ?_, received := ?_ }
  · intro a; cases a <;> rfl
  · intro a
    cases a
    · exact hne.symm
    · exact hne
  · intro a; cases a <;> rfl
  · intro a; cases a <;> rfl
  · intro a; rfl
  · intro a i frame hf; cases hf
  · intro e he; cases he
  · intro a; cases a <;> exact ⟨Nat.le_refl _, rfl⟩

theorem inv_reachable (hx : x.Ideal) {b c : Transport} (hsess : Session x b c) {s : Link}
    (hr : (link x b c).Reachable s) : Inv x s := by
  refine hr.invariant (fun s h => inv_start hx hsess h) ?_
  intro s i s' _ hi _ hs
  cases i with
  | encrypt a p => exact inv_encrypt hi hs
  | deliver a counter d => exact inv_deliver hx hi hs

theorem got_length {s : Link} (hi : Inv x s) (a : Side) :
    (s.got a).length = (s.ends a).receiveCounter.toNat := by
  obtain ⟨hle, hgot⟩ := hi.received a
  rw [hgot, List.length_take]
  omega

/-- The frame an end is waiting for is accepted whenever it arrives. -/
theorem genuine_accepted (hx : x.Ideal) {s : Link} (hi : Inv x s) {a : Side}
    {frame : UInt64 × Bytes} (hf : (s.frames a.peer)[(s.got a).length]? = some frame) :
    ∃ p s', (s.sent a.peer)[(s.got a).length]? = some p ∧
      step x s (.deliver a frame.1 frame.2) = some s' ∧ s'.got a = s.got a ++ [p] := by
  obtain ⟨hn, p, hp, he, hm⟩ := hi.framed a.peer _ frame hf
  have hcount : frame.1 = (s.ends a).receiveCounter :=
    UInt64.toNat_inj.mp (hn.trans (got_length hi a))
  have hopen := hx.opens _ _ _ _ _ he
  rw [← hi.keys a, ← hi.request a] at hopen
  have hlt : (s.ends a).receiveCounter.toNat + 1 < 2 ^ 64 := by
    have h1 : (s.got a).length < (s.sent a.peer).length := by
      by_contra hge
      rw [List.getElem?_eq_none (by omega)] at hp
      cases hp
    have h2 := hi.sentCount a.peer
    have h3 := (s.ends a.peer).sendCounter.toNat_lt
    rw [got_length hi a] at h1
    omega
  have hs : checkedSucc (s.ends a).receiveCounter = some ((s.ends a).receiveCounter + 1) := by
    unfold checkedSucc
    rw [if_pos hlt]
  have hnot : ¬Forged x s.sealed (s.ends a) frame.1 frame.2 := by
    rintro ⟨-, hno⟩
    exact hno _ hm ⟨(hi.keys a).symm, rfl, by rw [hi.request a], rfl⟩
  have hd := Transport.decrypt_ok.mpr ⟨hcount, hopen, _, hs, rfl⟩
  refine ⟨p, s.acceptAt a ((s.ends a).receiveCounter + 1) p, hp, ?_, ?_⟩
  · simp only [step, if_neg hnot, hd]
    rfl
  · rw [acceptAt_got, Function.update_self]

/-- Deliveries to one end either were all refused and left no trace, or let it
accept something. -/
theorem deliveries {s s' : Link} {b c : Transport} {a : Side} {inj : List (UInt64 × Bytes)}
    (h : (link x b c).run s (inj.map fun f => .deliver a f.1 f.2) = some s') :
    s' = s ∨ (s.got a).length < (s'.got a).length := by
  induction inj generalizing s with
  | nil =>
      simp only [List.map_nil, Machine.run, Option.some.injEq] at h
      exact .inl h.symm
  | cons f inj ih =>
      simp only [List.map_cons, Machine.run] at h
      obtain ⟨s₁, hs₁, hrest⟩ := Option.bind_eq_some_iff.mp h
      rcases step_deliver hs₁ with ⟨-, ⟨e, -, rfl⟩ | ⟨p, next, -, -, -, rfl⟩⟩
      · exact ih hrest
      · right
        have hlen : (s.got a).length < ((s.acceptAt a next p).got a).length := by
          rw [acceptAt_got, Function.update_self, List.length_append]
          exact Nat.lt_succ_self _
        rcases ih hrest with rfl | hlt
        · exact hlen
        · exact Nat.lt_trans hlen hlt

end Link

open Link

/-- Whatever the relay does, each end has at every moment accepted a prefix of
what its peer encrypted; a refused delivery leaves the end as it was, and so
does any number of them, so the frame the end is waiting for is still accepted
when it comes. -/
theorem transport_in_order {x : Suite} (hx : x.Ideal) {b c : Transport}
    (hsess : Session x b c) {s : Link} (hr : (link x b c).Reachable s) :
    (∀ a, s.got a <+: s.sent a.peer) ∧
    (∀ a counter d e, ((s.ends a).decrypt x counter d).2 = .error e →
      ((s.ends a).decrypt x counter d).1 = s.ends a) ∧
    (∀ a (inj : List (UInt64 × Bytes)) s',
      (link x b c).run s (inj.map fun f => .deliver a f.1 f.2) = some s' →
      s'.got a = s.got a → s' = s) ∧
    (∀ a (frame : UInt64 × Bytes), (s.frames a.peer)[(s.got a).length]? = some frame →
      ∃ p s', (s.sent a.peer)[(s.got a).length]? = some p ∧
        (link x b c).step s (.deliver a frame.1 frame.2) = some s' ∧
        s'.got a = s.got a ++ [p]) := by
  have hi := inv_reachable hx hsess hr
  refine ⟨?_, ?_, ?_, ?_⟩
  · intro a
    rw [(hi.received a).2]
    exact List.take_prefix _ _
  · intro a counter d e he
    exact Transport.decrypt_error he
  · intro a inj s' h hgot
    rcases deliveries h with rfl | hlt
    · rfl
    · rw [hgot] at hlt
      exact absurd hlt (Nat.lt_irrefl _)
  · intro a frame hf
    exact genuine_accepted hx hi hf

/-- A stand-in for the primitives: sealing prepends what must be checked. -/
def plainSuite : Suite where
  publicKey k := k
  diffieHellman a b := Vector.ofFn fun i => a[i] + b[i]
  sha256 m := m
  expand _ _ info := some (Vector.replicate 32 (if info = clientToHostInfo then 1 else 2))
  encrypt k n a m := some (k.toList ++ n ++ a ++ m)
  decrypt k n a c :=
    let head := k.toList ++ n ++ a
    if head <+: c then some (c.drop head.length) else none

theorem plainSuite_ideal : plainSuite.Ideal where
  opens := by
    intro k n a m c h
    obtain rfl := Option.some.inj h
    simp only [plainSuite]
    rw [if_pos (List.prefix_append _ _), List.drop_left]
  labels := by
    intro salt ikm k k' hk hk' he
    obtain rfl := Option.some.inj hk
    obtain rfl := Option.some.inj hk'
    revert he
    decide

def plainBroker : Transport where
  send := Vector.replicate 32 2
  receive := Vector.replicate 32 1
  sendCounter := 0
  receiveCounter := 0
  requestId := "request-123"

def plainClient : Transport where
  send := Vector.replicate 32 1
  receive := Vector.replicate 32 2
  sendCounter := 0
  receiveCounter := 0
  requestId := "request-123"

theorem plain_session : Session plainSuite plainBroker plainClient :=
  ⟨Vector.replicate 32 7, Vector.replicate 32 8, Vector.replicate 32 7, Vector.replicate 32 8,
    [0x6d], "request-123", by decide, by rfl, by rfl⟩

def plainLink : Link where
  ends
    | .broker => plainBroker
    | .client => plainClient
  frames _ := []
  sent _ := []
  got _ := []
  sealed := []

/-- The client sends two frames; the relay reflects the first, delivers it,
replays it, injects, and delivers the second. -/
theorem transport_in_order_replayed :
    ∃ s, (link plainSuite plainBroker plainClient).Reachable s ∧
      s.got .broker = [[1, 2], [3]] ∧ s.got .broker <+: s.sent .client := by
  let c0 : Bytes := (Vector.replicate 32 1 : Key).toList ++ Transport.nonce 0 ++
    asBytes "request-123" ++ [1, 2]
  let c1 : Bytes := (Vector.replicate 32 1 : Key).toList ++ Transport.nonce 1 ++
    asBytes "request-123" ++ [3]
  have hrun : ((link plainSuite plainBroker plainClient).run plainLink
      [.encrypt .client [1, 2], .deliver .client 0 c0, .deliver .broker 0 c0,
        .deliver .broker 0 c0, .encrypt .client [3], .deliver .broker 1 [9],
        .deliver .broker 1 c1]).map (fun s => s.got .broker) = some [[1, 2], [3]] := by
    decide
  obtain ⟨s, hs, hgot⟩ := Option.map_eq_some_iff.mp hrun
  have hr := Machine.Reach.run (.init rfl) hs
  exact ⟨s, hr, hgot, (transport_in_order plainSuite_ideal plain_session hr).1 .broker⟩

end ShellfleetAgent.Privileged
