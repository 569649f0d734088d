import ShellfleetAgent.Privileged.Trusted

/-!
# The end-to-end transport

`Transport` is one end of the encrypted session between an approved client and
the gate: a key for each direction, a counter for each direction, and the
request id as associated data. The counter is the nonce, so it may neither
repeat on the sending side nor be taken out of order on the receiving side.

The primitives (X25519, HKDF-SHA256, ChaCha20-Poly1305) come from third-party
crates; they are the fields of `Suite`.
-/

namespace ShellfleetAgent.Privileged

open ShellfleetAgent.Lib

structure Suite where
  publicKey : Key → Key
  diffieHellman : Key → Key → Key
  sha256 : Bytes → Bytes
  /-- `Hkdf::new(Some(salt), ikm).expand(info, [0; 32])`. -/
  expand : Bytes → Key → Bytes → Option Key
  /-- Key, nonce, associated data, plaintext. -/
  encrypt : Key → Bytes → Bytes → Bytes → Option Bytes
  decrypt : Key → Bytes → Bytes → Bytes → Option Bytes

def asBytes (s : String) : Bytes := s.toUTF8.data.toList

def clientToHostInfo : Bytes := asBytes "shellfleet-root-client-to-host-v1"

def hostToClientInfo : Bytes := asBytes "shellfleet-root-host-to-client-v1"

structure Transport where
  send : Key
  receive : Key
  sendCounter : UInt64
  receiveCounter : UInt64
  requestId : String
  deriving DecidableEq

/-- `u64::checked_add(1)`. -/
def checkedSucc (c : UInt64) : Option UInt64 :=
  if c.toNat + 1 < 2 ^ 64 then some (c + 1) else none

theorem checkedSucc_eq_some {c n : UInt64} :
    checkedSucc c = some n ↔ c.toNat + 1 < 2 ^ 64 ∧ n.toNat = c.toNat + 1 := by
  unfold checkedSucc
  split
  · next hlt =>
      have hsucc : (c + 1).toNat = c.toNat + 1 := by
        rw [UInt64.toNat_add]
        exact Nat.mod_eq_of_lt hlt
      rw [Option.some.injEq, ← UInt64.toNat_inj, hsucc]
      exact ⟨fun h => ⟨hlt, h.symm⟩, fun h => h.2.symm⟩
  · next hge => exact iff_of_false (by simp) fun h => hge h.1

namespace Transport

variable (x : Suite)

def derive (shared : Key) (manifest : Bytes) (requestId : String) (client : Bool) :
    Except String Transport :=
  let salt := x.sha256 manifest
  match x.expand salt shared clientToHostInfo with
  | none => .error "transport key derivation failed"
  | some clientToHost =>
    match x.expand salt shared hostToClientInfo with
    | none => .error "transport key derivation failed"
    | some hostToClient =>
      let (send, receive) :=
        if client then (clientToHost, hostToClient) else (hostToClient, clientToHost)
      .ok { send, receive, sendCounter := 0, receiveCounter := 0, requestId }

def broker (secret clientPublic : Key) (manifest : Bytes) (requestId : String) :
    Except String Transport :=
  derive x (x.diffieHellman secret clientPublic) manifest requestId false

def client (secret brokerPublic : Key) (manifest : Bytes) (requestId : String) :
    Except String Transport :=
  derive x (x.diffieHellman secret brokerPublic) manifest requestId true

/-- Four zero bytes, then the counter big-endian. -/
def nonce (counter : UInt64) : Bytes := List.replicate 4 0 ++ beBytes 8 counter.toNat

/-- The sealing call comes before the counter is advanced: at the last counter
the ciphertext exists and is dropped. -/
def encrypt (t : Transport) (plaintext : Bytes) :
    Transport × Except String (UInt64 × Bytes) :=
  let counter := t.sendCounter
  match x.encrypt t.send (nonce counter) (asBytes t.requestId) plaintext with
  | none => (t, .error "root transport encryption failed")
  | some data =>
    match checkedSucc t.sendCounter with
    | none => (t, .error "root transport counter exhausted")
    | some next => ({ t with sendCounter := next }, .ok (counter, data))

def decrypt (t : Transport) (counter : UInt64) (ciphertext : Bytes) :
    Transport × Except String Bytes :=
  if counter ≠ t.receiveCounter then
    (t, .error "root transport frame replay or reordering detected")
  else
    match x.decrypt t.receive (nonce counter) (asBytes t.requestId) ciphertext with
    | none => (t, .error "root transport authentication failed")
    | some plaintext =>
      match checkedSucc t.receiveCounter with
      | none => (t, .error "root transport counter exhausted")
      | some next => ({ t with receiveCounter := next }, .ok plaintext)

/-! ## What the calls can do -/

variable {x}

theorem nonce_inj {c d : UInt64} (h : nonce c = nonce d) : c = d := by
  have hb := List.append_cancel_left h
  have hlt : ∀ e : UInt64, e.toNat < 256 ^ 8 := fun e => e.toNat_lt
  exact UInt64.toNat_inj.mp (beBytes_inj (hlt c) (hlt d) hb)

theorem derive_ok {shared : Key} {manifest : Bytes} {requestId : String} {client : Bool}
    {t : Transport} (h : derive x shared manifest requestId client = .ok t) :
    ∃ clientToHost hostToClient,
      x.expand (x.sha256 manifest) shared clientToHostInfo = some clientToHost ∧
      x.expand (x.sha256 manifest) shared hostToClientInfo = some hostToClient ∧
      t = { send := if client then clientToHost else hostToClient
            receive := if client then hostToClient else clientToHost
            sendCounter := 0, receiveCounter := 0, requestId := requestId } := by
  simp only [derive] at h
  split at h
  · cases h
  · next c2h hc =>
      split at h
      · cases h
      · next h2c hh =>
          refine ⟨c2h, h2c, hc, hh, ?_⟩
          cases client <;> cases h <;> rfl

/-- A decryption that fails, for whichever reason, changes nothing. -/
theorem decrypt_error {t : Transport} {counter : UInt64} {ciphertext : Bytes} {e : String}
    (h : (t.decrypt x counter ciphertext).2 = .error e) :
    (t.decrypt x counter ciphertext).1 = t := by
  unfold decrypt at h ⊢
  split
  · rfl
  · split
    · rfl
    · next hd =>
        split
        · rfl
        · next hs =>
            rw [if_neg (by assumption), hd] at h
            simp only [hs] at h
            cases h

/-- A decryption succeeds on exactly the next counter, on a ciphertext that
opens, and before the counter is exhausted. -/
theorem decrypt_ok {t t' : Transport} {counter : UInt64} {ciphertext p : Bytes} :
    t.decrypt x counter ciphertext = (t', .ok p) ↔
      counter = t.receiveCounter ∧
      x.decrypt t.receive (nonce counter) (asBytes t.requestId) ciphertext = some p ∧
      ∃ next, checkedSucc t.receiveCounter = some next ∧
        t' = { t with receiveCounter := next } := by
  constructor
  · intro h
    unfold decrypt at h
    split at h
    · cases h
    · next hc =>
        split at h
        · cases h
        · next hd =>
            split at h
            · cases h
            · next next hs =>
                cases h
                exact ⟨not_not.mp hc, hd, next, hs, rfl⟩
  · rintro ⟨rfl, hd, next, hs, rfl⟩
    unfold decrypt
    rw [if_neg (by simp), hd]
    simp only [hs]

theorem encrypt_cases (x : Suite) (t : Transport) (p : Bytes) :
    (x.encrypt t.send (nonce t.sendCounter) (asBytes t.requestId) p = none ∧
      t.encrypt x p = (t, .error "root transport encryption failed")) ∨
    (∃ c, x.encrypt t.send (nonce t.sendCounter) (asBytes t.requestId) p = some c ∧
      checkedSucc t.sendCounter = none ∧
      t.encrypt x p = (t, .error "root transport counter exhausted")) ∨
    (∃ c next, x.encrypt t.send (nonce t.sendCounter) (asBytes t.requestId) p = some c ∧
      checkedSucc t.sendCounter = some next ∧
      t.encrypt x p = ({ t with sendCounter := next }, .ok (t.sendCounter, c))) := by
  cases hc : x.encrypt t.send (nonce t.sendCounter) (asBytes t.requestId) p with
  | none => exact .inl ⟨rfl, by simp [encrypt, hc]⟩
  | some c =>
      cases hs : checkedSucc t.sendCounter with
      | none => exact .inr (.inl ⟨c, rfl, rfl, by simp [encrypt, hc, hs]⟩)
      | some next => exact .inr (.inr ⟨c, next, rfl, rfl, by simp [encrypt, hc, hs]⟩)

end Transport

end ShellfleetAgent.Privileged
