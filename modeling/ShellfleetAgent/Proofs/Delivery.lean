import ShellfleetAgent.Lib.Checks
import ShellfleetAgent.Lib.Lists
import ShellfleetAgent.Privileged.Delivery
import ShellfleetAgent.Proofs.Framing
import ShellfleetAgent.Proofs.Gate

/-!
# What fits through all four limits

Run against a command that finishes and a socket that works, the gate writes exactly
the frames it seals if each of them has an encoding that `write_frame` accepts, and
stops at the first that has none. How long these are follows from how much the command
has written and from how much the encodings add. So a command is delivered when that much
fits both limits, the transport's counter lasts, and the queue has room whenever a message
is handed to it. Since no encoding is shorter than what it encodes, none of it gets past
the relay once the output is longer than a text message may be, whatever
`MAX_TRUSTED_FRAME_BYTES` is.
-/

namespace ShellfleetAgent.Privileged

open ShellfleetAgent.Lib ShellfleetAgent.Agent

variable {x : Wire} {output : Output} {transport : Transport}

/-! ## Runs against a working socket -/

/-- The program succeeds and writes these frames. -/
def Writes (output : Output) {α : Type} (p : GateM α) (payloads : List Bytes) (a : α) : Prop :=
  ∃ h, p.run.answered (obliging output) = (h, .ok a) ∧ written h = payloads.flatMap frameBytes

/-- The program does not succeed. -/
def Stops (output : Output) {α : Type} (p : GateM α) : Prop :=
  ∃ h e, p.run.answered (obliging output) = (h, .error e)

section Programs

variable {α β : Type} {p : GateM α} {k : α → GateM β} {payloads payloads' : List Bytes} {a : α}
  {b : β}

theorem Writes.pure (a : α) : Writes output (Pure.pure a : GateM α) [] a := ⟨[], rfl, rfl⟩

theorem Writes.bind (hp : Writes output p payloads a) (hk : Writes output (k a) payloads' b) :
    Writes output (p >>= k) (payloads ++ payloads') b := by
  obtain ⟨h, hrun, hwritten⟩ := hp
  obtain ⟨h', hrun', hwritten'⟩ := hk
  refine ⟨h ++ h', ?_, ?_⟩
  · rw [Prog.answered_ok _ hrun, hrun']
  · rw [written, List.flatMap_append, List.flatMap_append, ← hwritten, ← hwritten']
    rfl

theorem Writes.bind_stops (hp : Writes output p payloads a) (hk : Stops output (k a)) :
    Stops output (p >>= k) := by
  obtain ⟨h, hrun, _⟩ := hp
  obtain ⟨h', e, hrun'⟩ := hk
  exact ⟨h ++ h', e, by rw [Prog.answered_ok _ hrun, hrun']⟩

theorem Stops.bind (hp : Stops output p) : Stops output (p >>= k) := by
  obtain ⟨h, e, hrun⟩ := hp
  exact ⟨h, e, Prog.answered_error _ hrun⟩

theorem writes_hoist (output : Output) (a : α) : Writes output (hoist (.ok a)) [] a :=
  ⟨[], rfl, rfl⟩

theorem stops_hoist (output : Output) (e : String) :
    Stops output (hoist (.error e) : GateM α) :=
  ⟨[], e, rfl⟩

end Programs

theorem writes_writeFrame {y : Codec} {payload : Bytes} (h : Framable y payload) :
    Writes output (writeFrame y payload) [payload] () := by
  rw [writeFrame, if_neg h]
  refine ⟨[⟨.writeAll (beBytes 4 payload.length), .ok ()⟩, ⟨.writeAll payload, .ok ()⟩,
    ⟨.flush, .ok ()⟩], rfl, ?_⟩
  simp [written, frameBytes]

theorem stops_writeFrame {y : Codec} {payload : Bytes} (h : ¬Framable y payload) :
    Stops output (writeFrame y payload) := by
  rw [writeFrame, if_pos (not_not.mp h)]
  exact ⟨[], _, rfl⟩

/-! ## Sealed frames -/

/-- The frame has an encoding that `write_frame` accepts. -/
def Encodes (x : Externals) (frame : TrustedHostFrame) (payload : Bytes) : Prop :=
  x.encodeHost frame = .ok payload ∧ Framable x.toCodec payload

theorem writes_sendHost {frame : TrustedHostFrame} {payload : Bytes}
    (h : Encodes x.toExternals frame payload) :
    Writes output (sendHost x.toExternals frame) [payload] () := by
  rw [sendHost, h.1]
  exact (writes_hoist output payload).bind (writes_writeFrame h.2)

theorem stops_sendHost {frame : TrustedHostFrame}
    (h : ∀ payload, ¬Encodes x.toExternals frame payload) :
    Stops output (sendHost x.toExternals frame) := by
  rw [sendHost]
  cases henc : x.encodeHost frame with
  | error e => exact (stops_hoist output e).bind
  | ok payload =>
      have hstop : Stops output (writeFrame x.toCodec payload) :=
        stops_writeFrame fun hf => h payload ⟨henc, hf⟩
      exact (writes_hoist output payload).bind_stops hstop

/-- What `run_command` sends, piece by piece. -/
def sendPieces (x : Externals) : Transport → List TrustedPlaintext → GateM Unit
  | _, [] => return ()
  | transport, piece :: rest => do
    let transport ← sendEncrypted x transport piece
    sendPieces x transport rest

theorem runCommand_eq (x : Externals) (transport : Transport) (program : String)
    (args : List String) (timeoutSecs : UInt32) :
    runCommand x transport program args timeoutSecs = (do
      let output ← commandOutput program args timeoutSecs
      sendPieces x transport (pieces output)) := by
  rw [runCommand]
  congr
  funext output
  unfold pieces sendOutput
  dsimp only
  cases (output.stdout.take maxOutput).isEmpty with
  | true =>
      cases (output.stderr.take (maxOutput - (output.stdout.take maxOutput).length)).isEmpty with
      | true => rfl
      | false => rfl
  | false =>
      cases (output.stderr.take (maxOutput - (output.stdout.take maxOutput).length)).isEmpty with
      | true => rfl
      | false => rfl

theorem sealAll_cons {y : Externals} {piece : TrustedPlaintext} {rest : List TrustedPlaintext}
    {frames : List TrustedHostFrame} :
    sealAll y transport (piece :: rest) = .ok frames ↔
      ∃ transport' frame frames', sealPlaintext y transport piece = .ok (transport', frame) ∧
        sealAll y transport' rest = .ok frames' ∧ frames = frame :: frames' := by
  rw [sealAll]
  cases hseal : sealPlaintext y transport piece with
  | error e => exact ⟨nofun, nofun⟩
  | ok sealed =>
      obtain ⟨transport', frame⟩ := sealed
      show (sealAll y transport' rest >>= fun frames => _) = _ ↔ _
      constructor
      · intro h
        cases hrest : sealAll y transport' rest with
        | error e =>
            rw [hrest] at h
            cases h
        | ok frames' =>
            rw [hrest] at h
            cases h
            exact ⟨transport', frame, frames', rfl, hrest, rfl⟩
      · intro ⟨transport'', frame', frames', heq, hrest, hframes⟩
        cases heq
        rw [hrest, hframes]
        rfl

/-- All pieces are sealed, and all frames encoded. -/
def SealedAs (x : Externals) (transport : Transport) (ps : List TrustedPlaintext)
    (frames : List TrustedHostFrame) (payloads : List Bytes) : Prop :=
  sealAll x transport ps = .ok frames ∧ List.Forall₂ (Encodes x) frames payloads

/-- What is asked of the first piece, and of the rest. -/
theorem sealedAs_cons {y : Externals} {piece : TrustedPlaintext} {rest : List TrustedPlaintext}
    {frames : List TrustedHostFrame} {payloads : List Bytes}
    (h : SealedAs y transport (piece :: rest) frames payloads) :
    ∃ transport' frame payload frames' payloads',
      sealPlaintext y transport piece = .ok (transport', frame) ∧ Encodes y frame payload ∧
        SealedAs y transport' rest frames' payloads' := by
  obtain ⟨transport', frame, frames', hseal, hrest, rfl⟩ := sealAll_cons.mp h.1
  cases h.2 with
  | cons henc hencs => exact ⟨transport', frame, _, frames', _, hseal, henc, hrest, hencs⟩

theorem writes_sendEncrypted {piece : TrustedPlaintext} {transport' : Transport}
    {frame : TrustedHostFrame} {payload : Bytes}
    (hseal : sealPlaintext x.toExternals transport piece = .ok (transport', frame))
    (henc : Encodes x.toExternals frame payload) :
    Writes output (sendEncrypted x.toExternals transport piece) [payload] transport' := by
  rw [sendEncrypted, hseal]
  exact (writes_hoist output (transport', frame)).bind ((writes_sendHost henc).bind (.pure _))

theorem stops_sendEncrypted {piece : TrustedPlaintext} {transport' : Transport}
    {frame : TrustedHostFrame}
    (hseal : sealPlaintext x.toExternals transport piece = .ok (transport', frame))
    (hnone : ∀ payload, ¬Encodes x.toExternals frame payload) :
    Stops output (sendEncrypted x.toExternals transport piece) := by
  rw [sendEncrypted, hseal]
  exact (writes_hoist output (transport', frame)).bind_stops (stops_sendHost hnone).bind

/-- The gate writes what it seals, or stops. -/
theorem sendPieces_cases (x : Wire) (output : Output) (ps : List TrustedPlaintext)
    (transport : Transport) :
    (∃ frames payloads, SealedAs x.toExternals transport ps frames payloads ∧
        Writes output (sendPieces x.toExternals transport ps) payloads ()) ∨
      (¬∃ frames payloads, SealedAs x.toExternals transport ps frames payloads) ∧
        Stops output (sendPieces x.toExternals transport ps) := by
  induction ps generalizing transport with
  | nil => exact .inl ⟨[], [], ⟨rfl, .nil⟩, .pure ()⟩
  | cons piece rest ih =>
      rw [sendPieces]
      cases hseal : sealPlaintext x.toExternals transport piece with
      | error e =>
          rw [sendEncrypted, hseal]
          refine .inr ⟨?_, (stops_hoist output e).bind.bind⟩
          rintro ⟨_, _, h⟩
          obtain ⟨_, _, _, _, _, hsealed, _⟩ := sealedAs_cons h
          rw [hseal] at hsealed
          cases hsealed
      | ok sealed =>
          obtain ⟨transport', frame⟩ := sealed
          by_cases henc : ∃ payload, Encodes x.toExternals frame payload
          · obtain ⟨payload, henc⟩ := henc
            have hsend : Writes output (sendEncrypted x.toExternals transport piece) [payload]
                transport' := writes_sendEncrypted hseal henc
            rcases ih transport' with ⟨frames, payloads, ⟨hall, hencs⟩, hrest⟩ | ⟨hnone, hrest⟩
            · refine .inl ⟨frame :: frames, payload :: payloads, ⟨?_, hencs.cons henc⟩, ?_⟩
              · exact sealAll_cons.mpr ⟨transport', frame, frames, hseal, hall, rfl⟩
              · exact hsend.bind hrest
            · refine .inr ⟨?_, hsend.bind_stops hrest⟩
              rintro ⟨_, _, h⟩
              obtain ⟨_, _, _, frames, payloads, hsealed, _, hrest⟩ := sealedAs_cons h
              rw [hseal] at hsealed
              cases hsealed
              exact hnone ⟨frames, payloads, hrest⟩
          · have hnone : ∀ payload, ¬Encodes x.toExternals frame payload :=
              fun payload h => henc ⟨payload, h⟩
            refine .inr ⟨?_, (stops_sendEncrypted hseal hnone).bind⟩
            rintro ⟨_, _, h⟩
            obtain ⟨_, _, payload, _, _, hsealed, hpayload, _⟩ := sealedAs_cons h
            rw [hseal] at hsealed
            cases hsealed
            exact hnone payload hpayload

/-- The frame that ends the connection goes out after the command's. -/
theorem serveCommand_cases (x : Wire) (output : Output) (transport : Transport)
    (program : String) (args : List String) (timeoutSecs : UInt32) :
    (∃ frames payloads payload, SealedAs x.toExternals transport (pieces output) frames payloads ∧
        Encodes x.toExternals .closed payload ∧
        Writes output (serveCommand x transport program args timeoutSecs)
          (payloads ++ [payload]) ()) ∨
      ¬∃ frames payloads payload,
        SealedAs x.toExternals transport (pieces output) frames payloads ∧
          Encodes x.toExternals .closed payload := by
  have hfinish : Writes output (commandOutput program args timeoutSecs) [] output :=
    ⟨[⟨.commandOutput program args timeoutSecs, .ok output⟩], rfl, rfl⟩
  rw [serveCommand, runOperation, runCommand_eq]
  rcases sendPieces_cases x output (pieces output) transport with
    ⟨frames, payloads, hsealed, hsend⟩ | ⟨hnone, _⟩
  · have hrun := hfinish.bind
      (k := fun output => sendPieces x.toExternals transport (pieces output)) hsend
    by_cases hclosed : ∃ payload, Encodes x.toExternals .closed payload
    · obtain ⟨payload, hclosed⟩ := hclosed
      exact .inl ⟨frames, payloads, payload, hsealed, hclosed,
        hrun.bind (writes_sendHost hclosed)⟩
    · exact .inr fun ⟨_, _, payload, _, h⟩ => hclosed ⟨payload, h⟩
  · exact .inr fun ⟨frames, payloads, _, h, _⟩ => hnone ⟨frames, payloads, h⟩

/-! ## The relay -/

/-- Sealed pieces travel as ciphertext. -/
theorem sealAll_ciphertext {y : Externals} {ps : List TrustedPlaintext}
    {frames : List TrustedHostFrame} (h : sealAll y transport ps = .ok frames) :
    ∀ frame ∈ frames, ∃ counter data, frame = .ciphertext counter data := by
  induction ps generalizing transport frames with
  | nil =>
      cases h
      nofun
  | cons piece rest ih =>
      obtain ⟨transport', frame, frames', hseal, hrest, rfl⟩ := sealAll_cons.mp h
      intro f hf
      rcases List.mem_cons.mp hf with rfl | hf
      · unfold sealPlaintext at hseal
        obtain ⟨encoded, _, hseal⟩ := Checks.bind_ok hseal
        obtain ⟨⟨counter, data⟩, _, hseal⟩ := Checks.bind_ok hseal
        cases hseal
        exact ⟨counter, data, rfl⟩
      · exact ih hrest f hf

/-- The reading task stops at nothing but the last frame. -/
theorem relayed_all {requestId : String} {payloads : List Bytes} {last : Bytes}
    (h : ∀ payload ∈ payloads, Relay.State.completes x.relay payload = false) :
    relayed x requestId (payloads ++ [last]) =
      (payloads ++ [last]).map (relayMessage x requestId) := by
  induction payloads with
  | nil =>
      rw [List.nil_append, relayed]
      split <;> rfl
  | cons payload payloads ih =>
      have hrest := ih fun p hp => h p (List.mem_cons_of_mem _ hp)
      rw [List.cons_append, relayed, h payload (List.mem_cons_self ..),
        if_neg Bool.false_ne_true, hrest]
      rfl

theorem completes_ciphertext {counter : UInt64} {data payload : Bytes}
    (hdecode : ∀ frame payload, x.encodeHost frame = .ok payload →
      x.decodeHost payload = .ok frame)
    (h : x.encodeHost (.ciphertext counter data) = .ok payload) :
    Relay.State.completes x.relay payload = false := by
  have hframe : x.relay.decodeHost payload = .ok (.ciphertext counter data) := hdecode _ _ h
  rw [Relay.State.completes, hframe]

/-! ## How long the frames are -/

/-- Each piece is sealed into one of the frames. -/
theorem sealAll_mem {y : Externals} {ps : List TrustedPlaintext}
    {frames : List TrustedHostFrame} (h : sealAll y transport ps = .ok frames)
    {piece : TrustedPlaintext} (hpiece : piece ∈ ps) : ∃ transport' transport'' frame,
      frame ∈ frames ∧ sealPlaintext y transport' piece = .ok (transport'', frame) := by
  induction ps generalizing transport frames with
  | nil => cases hpiece
  | cons p rest ih =>
      obtain ⟨transport', frame, frames', hseal, hrest, rfl⟩ := sealAll_cons.mp h
      rcases List.mem_cons.mp hpiece with rfl | hpiece
      · exact ⟨transport, transport', frame, List.mem_cons_self .., hseal⟩
      · obtain ⟨t, t', f, hf, hsealed⟩ := ih hrest hpiece
        exact ⟨t, t', f, List.mem_cons_of_mem _ hf, hsealed⟩


/-- What a sealed piece is made of, and what it costs. -/
theorem sealPlaintext_inv {y : Externals} {piece : TrustedPlaintext} {transport' : Transport}
    {frame : TrustedHostFrame} (h : sealPlaintext y transport piece = .ok (transport', frame)) :
    ∃ encoded data, y.encodePlaintext piece = .ok encoded ∧
      y.encrypt transport.send (Transport.nonce transport.sendCounter) (asBytes transport.requestId)
        encoded = some data ∧
      transport'.sendCounter.toNat = transport.sendCounter.toNat + 1 ∧
      frame = .ciphertext transport.sendCounter data := by
  unfold sealPlaintext at h
  obtain ⟨encoded, hencoded, h⟩ := Checks.bind_ok h
  obtain ⟨⟨counter, ciphertext⟩, hcipher, h⟩ := Checks.bind_ok h
  cases h
  rcases Transport.encrypt_cases y.toSuite transport encoded with
    ⟨_, heq⟩ | ⟨_, _, _, heq⟩ | ⟨data, next, hdata, hnext, heq⟩
  · rw [heq] at hcipher
    cases hcipher
  · rw [heq] at hcipher
    cases hcipher
  · rw [heq] at hcipher ⊢
    cases hcipher
    exact ⟨encoded, _, hencoded, hdata, (checkedSucc_eq_some.mp hnext).2, rfl⟩

/-- Each piece takes one value of the counter. -/
theorem sealAll_counter {y : Externals} {ps : List TrustedPlaintext}
    {frames : List TrustedHostFrame} (h : sealAll y transport ps = .ok frames) :
    transport.sendCounter.toNat + ps.length < 2 ^ 64 := by
  induction ps generalizing transport frames with
  | nil => exact transport.sendCounter.toNat_lt
  | cons piece rest ih =>
      obtain ⟨transport', frame, frames', hseal, hrest, rfl⟩ := sealAll_cons.mp h
      obtain ⟨_, _, _, _, hcounter, _⟩ := sealPlaintext_inv hseal
      have hleft := ih hrest
      rw [List.length_cons]
      omega

section Lengths

variable {e : Sizes} {requestId : String}

/-- The frame for a piece that can be encoded, encrypted and encoded again. -/
theorem exists_sealed_piece (hx : x.AtMost e requestId) (transport : Transport)
    {piece : TrustedPlaintext} (hsaid : Said piece)
    (hleft : transport.sendCounter.toNat + 1 < 2 ^ 64) :
    ∃ transport' frame payload,
      sealPlaintext x.toExternals transport piece = .ok (transport', frame) ∧
      transport'.sendCounter.toNat = transport.sendCounter.toNat + 1 ∧
      x.encodeHost frame = .ok payload ∧ payload ≠ [] ∧
      payload.length ≤ e.frame (e.cipher (e.plaintext piece)) := by
  obtain ⟨encoded, hencoded, hencodedLength⟩ := hx.plaintext piece hsaid
  obtain ⟨data, hdata, hdataLength⟩ :=
    hx.cipher transport.send (Transport.nonce transport.sendCounter)
      (asBytes transport.requestId) encoded
  obtain ⟨payload, hpayload, hne, hlength⟩ := hx.frame transport.sendCounter data
  have hnext : checkedSucc transport.sendCounter = some (transport.sendCounter + 1) :=
    if_pos hleft
  have hcounter := (checkedSucc_eq_some.mp hnext).2
  have hencrypt : transport.encrypt x.toSuite encoded =
      ({ transport with sendCounter := transport.sendCounter + 1 },
        .ok (transport.sendCounter, data)) := by
    rw [Transport.encrypt, hdata, hnext]
  refine ⟨{ transport with sendCounter := transport.sendCounter + 1 },
    .ciphertext transport.sendCounter data, payload, ?_, hcounter, hpayload, hne, ?_⟩
  · unfold sealPlaintext
    rw [hencoded]
    simp only [bind, Except.bind, hencrypt]
    rfl
  · calc payload.length
      _ ≤ e.frame data.length := hlength
      _ ≤ e.frame (e.cipher (e.plaintext piece)) :=
          e.frame_mono (hdataLength.trans (e.cipher_mono hencodedLength))

/-- All pieces can be sealed while the counter lasts. -/
theorem exists_sealed (hx : x.AtMost e requestId) {ps : List TrustedPlaintext}
    (hsaid : ∀ piece ∈ ps, Said piece)
    (hleft : transport.sendCounter.toNat + ps.length < 2 ^ 64) :
    ∃ frames payloads, sealAll x.toExternals transport ps = .ok frames ∧
      List.Forall₂ (fun frame payload => x.encodeHost frame = .ok payload) frames payloads ∧
      List.Forall₂ (fun piece payload => payload ≠ [] ∧
        payload.length ≤ e.frame (e.cipher (e.plaintext piece))) ps payloads := by
  induction ps generalizing transport with
  | nil => exact ⟨[], [], rfl, .nil, .nil⟩
  | cons piece rest ih =>
      rw [List.length_cons] at hleft
      obtain ⟨transport', frame, payload, hseal, hcounter, henc, hlength⟩ :=
        exists_sealed_piece hx transport (hsaid piece (List.mem_cons_self ..)) (by omega)
      have hleft' : transport'.sendCounter.toNat + rest.length < 2 ^ 64 := by omega
      obtain ⟨frames, payloads, hall, hencs, hlengths⟩ :=
        ih (fun piece h => hsaid piece (List.mem_cons_of_mem _ h)) hleft'
      exact ⟨frame :: frames, payload :: payloads,
        sealAll_cons.mpr ⟨transport', frame, frames, hseal, hall, rfl⟩,
        .cons henc hencs, .cons hlength hlengths⟩

/-- No frame for a piece is shorter than the piece makes it. -/
theorem seal_length (hx : x.AtLeast e requestId) {piece : TrustedPlaintext}
    (hsaid : Said piece) {transport' : Transport} {frame : TrustedHostFrame} {payload : Bytes}
    (hseal : sealPlaintext x.toExternals transport piece = .ok (transport', frame))
    (henc : x.encodeHost frame = .ok payload) :
    e.frame (e.cipher (e.plaintext piece)) ≤ payload.length := by
  obtain ⟨encoded, data, hencoded, hdata, _, rfl⟩ := sealPlaintext_inv hseal
  calc e.frame (e.cipher (e.plaintext piece))
    _ ≤ e.frame (e.cipher encoded.length) :=
        e.frame_mono (e.cipher_mono (hx.plaintext _ _ hsaid hencoded))
    _ ≤ e.frame data.length := e.frame_mono (hx.cipher _ _ _ _ _ hdata)
    _ ≤ payload.length := hx.frame _ _ _ henc

end Lengths

/-- What is kept of the two streams. -/
def keptStdout (output : Output) : Bytes := output.stdout.take maxOutput

def keptStderr (output : Output) : Bytes :=
  output.stderr.take (maxOutput - (keptStdout output).length)

theorem pieces_eq (output : Output) : pieces output =
    (if (keptStdout output).length = 0 then [] else [.output "stdout" (keptStdout output)]) ++
      (if (keptStderr output).length = 0 then [] else [.output "stderr" (keptStderr output)]) ++
      [TrustedPlaintext.exit (output.code.getD (-1)) "root command complete"] := by
  unfold pieces
  show (if (keptStdout output).isEmpty then [] else _) ++
    (if (keptStderr output).isEmpty then [] else _) ++ _ = _
  simp only [List.isEmpty_iff, List.length_eq_zero_iff]
  rfl

theorem said_pieces (output : Output) : ∀ piece ∈ pieces output, Said piece := by
  intro piece hpiece
  rw [pieces_eq, List.mem_append, List.mem_append] at hpiece
  rcases hpiece with (hpiece | hpiece) | hpiece
  · split at hpiece
    · cases hpiece
    · rw [List.mem_singleton.mp hpiece]
      exact .inl rfl
  · split at hpiece
    · cases hpiece
    · rw [List.mem_singleton.mp hpiece]
      exact .inr rfl
  · rw [List.mem_singleton.mp hpiece]
    rfl

/-- How long the frames are depends on the lengths of the two streams and on the status. -/
theorem payloads_pieces (e : Sizes) (output : Output) :
    e.payloads output.stdout.length output.stderr.length (output.code.getD (-1)) =
      (pieces output).map (fun piece => e.frame (e.cipher (e.plaintext piece))) ++
        [e.closed] := by
  have hstdout : (keptStdout output).length = min maxOutput output.stdout.length :=
    List.length_take
  have hstderr : (keptStderr output).length =
      min (maxOutput - min maxOutput output.stdout.length) output.stderr.length := by
    rw [← hstdout]
    exact List.length_take
  rw [Sizes.payloads, pieces_eq]
  rw [← hstdout] at hstderr ⊢
  rw [← hstderr]
  split <;> split <;> rfl

/-! ## The hand-over -/

/-- What was written is one list of frames. -/
theorem flatMap_frameBytes_inj {y : Codec} (hmax : y.maxTrustedFrameBytes < 0x100000000)
    {bodies bodies' : List Bytes} (h : ∀ body ∈ bodies, Framable y body)
    (h' : ∀ body ∈ bodies', Framable y body)
    (heq : bodies.flatMap frameBytes = bodies'.flatMap frameBytes) : bodies = bodies' := by
  have hhead : ∀ (body : Bytes) (rest : Bytes), frameBytes body ++ rest ≠ [] := by
    intro body rest hnil
    have hlength := congrArg List.length hnil
    rw [frameBytes, List.length_append, List.length_append, length_beBytes] at hlength
    simp at hlength
  induction bodies generalizing bodies' with
  | nil =>
      cases bodies' with
      | nil => rfl
      | cons body' rest' => exact absurd heq.symm (hhead body' _)
  | cons body rest ih =>
      cases bodies' with
      | nil => exact absurd heq (hhead body _)
      | cons body' rest' =>
          simp only [List.flatMap_cons, frameBytes, List.append_assoc] at heq
          obtain ⟨hlength, heq⟩ := List.append_inj heq (by simp [length_beBytes])
          have hbody := (framable_iff.mp (h body (List.mem_cons_self ..))).2
          have hbody' := (framable_iff.mp (h' body' (List.mem_cons_self ..))).2
          obtain ⟨rfl, hrest⟩ :=
            List.append_inj heq (beBytes_inj (by omega) (by omega) hlength)
          rw [ih (fun b hb => h b (List.mem_cons_of_mem _ hb))
            (fun b hb => h' b (List.mem_cons_of_mem _ hb)) hrest]

theorem relayed_length_le (x : Wire) (requestId : String) (payloads : List Bytes) :
    (relayed x requestId payloads).length ≤ payloads.length := by
  induction payloads with
  | nil => exact Nat.le_refl 0
  | cons payload rest ih =>
      rw [relayed]
      split
      · exact Nat.succ_le_succ (Nat.zero_le _)
      · exact Nat.succ_le_succ ih

/-- All messages are accepted, refused or waiting; until one is refused, in order. -/
structure Handing.Inv (messages : List Message) (s : Handing) : Prop where
  count : s.accepted.length + s.refused.length + s.waiting.length = messages.length
  order : s.refused = [] → s.accepted ++ s.waiting = messages

theorem Handing.Inv.step {messages : List Message} {s s' : Handing} {l : HandLabel}
    (h : s.Inv messages) (hs : s.step l = some s') : s'.Inv messages := by
  cases l with
  | queue e =>
      obtain ⟨queue, _, rfl⟩ := Option.map_eq_some_iff.mp hs
      exact ⟨h.count, h.order⟩
  | hand =>
      rw [Handing.step] at hs
      cases hwaiting : s.waiting with
      | nil =>
          rw [hwaiting] at hs
          cases hs
      | cons message waiting =>
          rw [hwaiting] at hs
          cases hs
          have hcount := h.count
          rw [hwaiting, List.length_cons] at hcount
          unfold Handing.hand
          split
          · refine ⟨?_, fun hrefused => ?_⟩
            · simp only [List.length_append, List.length_singleton]
              omega
            · rw [List.append_assoc, List.singleton_append, ← hwaiting]
              exact h.order hrefused
          · refine ⟨?_, fun hrefused => ?_⟩
            · simp only [List.length_append, List.length_singleton]
              omega
            · exact absurd hrefused (by simp)

theorem Handing.inv {requestId : String} {bytes : Bytes} {payloads : List Bytes}
    (hmax : x.maxTrustedFrameBytes < 0x100000000)
    (hframable : ∀ payload ∈ payloads, Framable x.toCodec payload)
    (hbytes : bytes = payloads.flatMap frameBytes) {s : Handing}
    (hr : (handing x requestId bytes).Reachable s) :
    s.Inv (relayed x requestId payloads) := by
  refine hr.invariant (I := fun s => s.Inv (relayed x requestId payloads)) ?_ ?_
  · intro s ⟨payloads', hbytes', hframable', hwaiting, haccepted, hrefused⟩
    obtain rfl := flatMap_frameBytes_inj hmax hframable hframable' (hbytes.symm.trans hbytes')
    refine ⟨?_, fun _ => ?_⟩
    · rw [haccepted, hrefused, hwaiting, List.length_nil, Nat.zero_add]
    · rw [haccepted, hwaiting, List.nil_append]
  · intro s l s' _ h _ hs
    exact h.step hs

/-- Something is refused only where there is no room. -/
theorem refused_hand {s s' : Handing} {l : HandLabel} (hroom : Room s l)
    (hs : s.step l = some s') : s'.refused = s.refused := by
  cases l with
  | queue e =>
      obtain ⟨queue, _, rfl⟩ := Option.map_eq_some_iff.mp hs
      rfl
  | hand =>
      rw [Handing.step] at hs
      split at hs
      · cases hs
      · cases hs
        unfold Room at hroom
        rw [Handing.hand, if_pos hroom]

theorem refused_of_no_room {s s' : Handing} {l : HandLabel} (hroom : ¬Room s l)
    (hs : s.step l = some s') : s'.refused ≠ [] := by
  cases l with
  | queue e => exact absurd trivial hroom
  | hand =>
      rw [Handing.step] at hs
      split at hs
      · cases hs
      · cases hs
        unfold Room at hroom
        rw [Handing.hand, if_neg hroom]
        simp

/-- What was refused stays refused. -/
theorem refused_stays {s s' : Handing} {l : HandLabel} (hs : s.step l = some s')
    (h : s.refused ≠ []) : s'.refused ≠ [] := by
  by_cases hroom : Room s l
  · rwa [refused_hand hroom hs]
  · exact refused_of_no_room hroom hs

/-- The runs that refuse nothing are those on a queue with room. -/
theorem reach_room_iff {requestId : String} {bytes : Bytes} {s : Handing} :
    (handing x requestId bytes).Reach Room s ↔
      (handing x requestId bytes).Reachable s ∧ s.refused = [] := by
  constructor
  · intro hr
    refine ⟨hr.reachable, ?_⟩
    refine hr.invariant (I := fun s => s.refused = []) (fun s h => ?_) ?_
    · obtain ⟨_, _, _, _, _, hrefused⟩ := h
      exact hrefused
    · intro s l s' _ h hroom hs
      exact (refused_hand hroom hs).trans h
  · rintro ⟨hr, hrefused⟩
    induction hr with
    | init h => exact .init h
    | @step s s' l hr _ hs ih =>
        have hbefore : s.refused = [] := by
          by_contra h
          exact refused_stays hs h hrefused
        have hroom : Room s l := by
          by_contra h
          exact refused_of_no_room h hs hrefused
        exact .step (ih hbefore) hroom hs

/-! ## Delivery -/

section Delivery

variable {program : String} {args : List String} {timeoutSecs : UInt32} {requestId : String}
  {e : Sizes}

/-- With frames for all pieces and for the end the gate writes them and succeeds. -/
theorem gateRun_ok (program : String) (args : List String) (timeoutSecs : UInt32)
    {frames : List TrustedHostFrame} {payloads : List Bytes} {last : Bytes}
    (hsealed : SealedAs x.toExternals transport (pieces output) frames payloads)
    (hclosed : Encodes x.toExternals .closed last) :
    (gateRun x transport program args timeoutSecs output).2 = .ok () ∧
      written (gateRun x transport program args timeoutSecs output).1 =
        (payloads ++ [last]).flatMap frameBytes := by
  have hunique : Relator.RightUnique (Encodes x.toExternals) := by
    intro frame payload payload' h h'
    exact Except.ok.inj (h.1.symm.trans h'.1)
  rcases serveCommand_cases x output transport program args timeoutSecs with
    ⟨frames', payloads', last', ⟨hall', hencodes'⟩, hclosed', h, hrun, hwritten⟩ | hnone
  · obtain rfl := Except.ok.inj (hsealed.1.symm.trans hall')
    obtain rfl := List.right_unique_forall₂' hunique hsealed.2 hencodes'
    obtain rfl := hunique hclosed hclosed'
    rw [gateRun, hrun]
    exact ⟨rfl, hwritten⟩
  · exact absurd ⟨frames, payloads, last, hsealed, hclosed⟩ hnone

/-- A queue with room, a counter that lasts and sizes within the limits are enough. -/
theorem delivered_of_fit (hmax : x.maxTrustedFrameBytes < 0x100000000)
    (hdecode : ∀ frame payload, x.encodeHost frame = .ok payload →
      x.decodeHost payload = .ok frame)
    (hx : x.AtMost e requestId) (hfit : e.Fit x.maxTrustedFrameBytes output)
    (hleft : CounterLeft transport output) {s : Handing}
    (hr : (handing x requestId
      (written (gateRun x transport program args timeoutSecs output).1)).Reach Room s)
    (hdone : s.waiting = []) :
    Delivered x transport program args timeoutSecs requestId output s := by
  have hsize : ∀ piece ∈ pieces output,
      e.frame (e.cipher (e.plaintext piece)) ∈
        e.payloads output.stdout.length output.stderr.length (output.code.getD (-1)) := by
    intro piece hpiece
    rw [payloads_pieces]
    exact List.mem_append_left _ (List.mem_map_of_mem hpiece)
  have hclosedSize :
      e.closed ∈ e.payloads output.stdout.length output.stderr.length (output.code.getD (-1)) := by
    rw [payloads_pieces]
    exact List.mem_append_right _ (List.mem_singleton_self _)
  obtain ⟨frames, payloads, hall, hencs, hlengths⟩ := exists_sealed hx (said_pieces output) hleft
  obtain ⟨last, hlast, hlastNe, hlastLength⟩ := hx.closed
  -- the frames as they are written, each no longer than one of the sizes
  have hbound : ∀ payload ∈ payloads ++ [last], payload ≠ [] ∧ ∃ size,
      size ∈ e.payloads output.stdout.length output.stderr.length (output.code.getD (-1)) ∧
        payload.length ≤ size := by
    intro payload hpayload
    rcases List.mem_append.mp hpayload with hpayload | hpayload
    · obtain ⟨piece, hpiece, hne, hlength⟩ := forall₂_mem_right hlengths hpayload
      exact ⟨hne, _, hsize piece hpiece, hlength⟩
    · rw [List.mem_singleton.mp hpayload]
      exact ⟨hlastNe, _, hclosedSize, hlastLength⟩
  have hframable : ∀ payload ∈ payloads ++ [last], Framable x.toCodec payload := by
    intro payload hpayload
    obtain ⟨hne, size, hmem, hlength⟩ := hbound payload hpayload
    have hpos := List.length_pos_iff.mpr hne
    have hmaxSize := (hfit size hmem).1
    exact framable_iff.mpr ⟨by omega, by omega⟩
  have hencodes : List.Forall₂ (Encodes x.toExternals) frames payloads := by
    refine List.forall₂_iff_get.mpr ⟨hencs.length_eq, fun i hi hi' => ?_⟩
    exact ⟨hencs.get hi hi', hframable _ (List.mem_append_left _ (List.get_mem ..))⟩
  have hclosed : Encodes x.toExternals .closed last :=
    ⟨hlast, hframable last (List.mem_append_right _ (List.mem_singleton_self _))⟩
  obtain ⟨hok, hwritten⟩ := gateRun_ok program args timeoutSecs ⟨hall, hencodes⟩ hclosed
  have hboth : List.Forall₂ (fun frame payload => x.encodeHost frame = .ok payload)
      (frames ++ [TrustedHostFrame.closed]) (payloads ++ [last]) :=
    List.rel_append hencs (.cons hlast .nil)
  have hrelayed : relayed x requestId (payloads ++ [last]) =
      (payloads ++ [last]).map (relayMessage x requestId) := by
    refine relayed_all fun payload hpayload => ?_
    obtain ⟨frame, hframe, henc⟩ := forall₂_mem_right hencs hpayload
    obtain ⟨counter, data, rfl⟩ := sealAll_ciphertext hall frame hframe
    exact completes_ciphertext hdecode henc
  obtain ⟨hr, hrefused⟩ := reach_room_iff.mp hr
  have horder := (Handing.inv hmax hframable hwritten hr).order hrefused
  rw [hdone, List.append_nil, hrelayed] at horder
  refine ⟨hok, payloads ++ [last], frames, hwritten, hframable, hall, hboth, horder, ?_⟩
  intro message hmessage
  rw [horder] at hmessage
  obtain ⟨payload, hpayload, rfl⟩ := List.mem_map.mp hmessage
  obtain ⟨_, size, hmem, hlength⟩ := hbound payload hpayload
  obtain ⟨text, htext, htextLength⟩ :=
    hx.message (Relay.State.completes x.relay payload) payload
  refine ⟨text, htext, ?_⟩
  calc text.length
    _ ≤ e.message payload.length := htextLength
    _ ≤ e.message size := e.message_mono hlength
    _ ≤ maxWsMessageBytes := (hfit size hmem).2

/-- There is no other way to be delivered. -/
theorem fit_of_delivered (hmax : x.maxTrustedFrameBytes < 0x100000000) {s : Handing}
    (hr : (handing x requestId
      (written (gateRun x transport program args timeoutSecs output).1)).Reachable s)
    (h : Delivered x transport program args timeoutSecs requestId output s) :
    (handing x requestId
      (written (gateRun x transport program args timeoutSecs output).1)).Reach Room s ∧
      CounterLeft transport output ∧
      (x.AtLeast e requestId → e.Fit x.maxTrustedFrameBytes output) := by
  obtain ⟨_, payloads, frames, hwritten, hframable, hall, hboth, haccepted, htexts⟩ := h
  refine ⟨?_, sealAll_counter hall, fun hx size hsize => ?_⟩
  · have hcount := (Handing.inv hmax hframable hwritten hr).count
    have hle := relayed_length_le x requestId payloads
    rw [haccepted, List.length_map] at hcount
    exact reach_room_iff.mpr ⟨hr, List.length_eq_zero_iff.mp (by omega)⟩
  · have hlong : ∃ payload ∈ payloads, size ≤ payload.length := by
      rw [payloads_pieces] at hsize
      rcases List.mem_append.mp hsize with hsize | hsize
      · obtain ⟨piece, hpiece, rfl⟩ := List.mem_map.mp hsize
        obtain ⟨_, _, frame, hframe, hseal⟩ := sealAll_mem hall hpiece
        obtain ⟨payload, hpayload, henc⟩ :=
          forall₂_mem_left hboth (List.mem_append_left _ hframe)
        exact ⟨payload, hpayload, seal_length hx (said_pieces output piece hpiece) hseal henc⟩
      · rw [List.mem_singleton.mp hsize]
        obtain ⟨payload, hpayload, henc⟩ :=
          forall₂_mem_left hboth (List.mem_append_right _ (List.mem_singleton_self _))
        exact ⟨payload, hpayload, hx.closed _ henc⟩
    obtain ⟨payload, hpayload, hlength⟩ := hlong
    have hmessage : relayMessage x requestId payload ∈ s.accepted := by
      rw [haccepted]
      exact List.mem_map_of_mem hpayload
    obtain ⟨text, htext, htextLength⟩ := htexts _ hmessage
    refine ⟨hlength.trans (framable_iff.mp (hframable payload hpayload)).2, ?_⟩
    calc e.message size
      _ ≤ e.message payload.length := e.message_mono hlength
      _ ≤ text.length := hx.message _ _ _ htext
      _ ≤ maxWsMessageBytes := htextLength

/-- More than a text message holds is too much for the limits, however little is added. -/
theorem not_fit_of_large {maxTrustedFrameBytes : Nat}
    (hlarge : maxWsMessageBytes < output.stdout.length ∨
      maxWsMessageBytes < min output.stderr.length (maxOutput - output.stdout.length)) :
    ¬Sizes.same.Fit maxTrustedFrameBytes output := by
  intro hfit
  have hws : maxWsMessageBytes = 2097152 := rfl
  have hmax : maxOutput = 8388608 := rfl
  have hlong : ∃ size ∈ Sizes.same.payloads output.stdout.length output.stderr.length
      (output.code.getD (-1)), maxWsMessageBytes < size := by
    rcases hlarge with hlarge | hlarge
    · refine ⟨min maxOutput output.stdout.length, ?_, by omega⟩
      have hne : min maxOutput output.stdout.length ≠ 0 := by omega
      simp [Sizes.payloads, Sizes.same, hne]
    · refine ⟨min (maxOutput - min maxOutput output.stdout.length) output.stderr.length,
        ?_, by omega⟩
      have hne : min (maxOutput - min maxOutput output.stdout.length) output.stderr.length ≠ 0 :=
        by omega
      simp only [Sizes.payloads, if_neg hne]
      simp [Sizes.same]
  obtain ⟨size, hsize, hlong⟩ := hlong
  exact absurd (hfit size hsize).2 (Nat.not_le.mpr hlong)

/-- A finished command is delivered in every run in which the queue has room, if the counter
lasts and the sizes are within both limits, and in no other run: with encodings that never
shrink not for output longer than a text message may be, whatever the limit for frames is. -/
theorem command_delivered_iff (x : Wire) (hmax : x.maxTrustedFrameBytes < 0x100000000)
    (hdecode : ∀ frame payload, x.encodeHost frame = .ok payload →
      x.decodeHost payload = .ok frame)
    (transport : Transport) (program : String) (args : List String) (timeoutSecs : UInt32)
    (requestId : String) (output : Output) (s : Handing)
    (hr : (handing x requestId
      (written (gateRun x transport program args timeoutSecs output).1)).Reachable s)
    (hdone : s.waiting = []) :
    (∀ e : Sizes, x.AtMost e requestId → e.Fit x.maxTrustedFrameBytes output →
      CounterLeft transport output →
      (handing x requestId
        (written (gateRun x transport program args timeoutSecs output).1)).Reach Room s →
      Delivered x transport program args timeoutSecs requestId output s) ∧
    (∀ e : Sizes, x.AtLeast e requestId →
      Delivered x transport program args timeoutSecs requestId output s →
      e.Fit x.maxTrustedFrameBytes output ∧ CounterLeft transport output ∧
        (handing x requestId
          (written (gateRun x transport program args timeoutSecs output).1)).Reach Room s) ∧
    (x.AtLeast .same requestId → (maxWsMessageBytes < output.stdout.length ∨
        maxWsMessageBytes < min output.stderr.length (maxOutput - output.stdout.length)) →
      ¬Delivered x transport program args timeoutSecs requestId output s) := by
  refine ⟨?_, ?_, ?_⟩
  · intro e hx hfit hleft hroom
    exact delivered_of_fit hmax hdecode hx hfit hleft hroom hdone
  · intro e hx h
    obtain ⟨hroom, hleft, hfit⟩ := fit_of_delivered hmax hr h
    exact ⟨hfit hx, hleft, hroom⟩
  · intro hx hlarge h
    obtain ⟨_, _, hfit⟩ := fit_of_delivered hmax hr h
    exact not_fit_of_large hlarge (hfit hx)

end Delivery

/-! ## Two commands -/

def plainDecodeHost : Bytes → Except String TrustedHostFrame
  | 2 :: _ => .ok .closed
  | 1 :: rest => .ok (.ciphertext (UInt64.ofNat (beNat (rest.take 8))) (rest.drop 8))
  | _ => .error "malformed"

/-- A tag, the counter, and the bytes as they are. -/
def plainWire : Wire where
  toExternals := { plainExternals with
    encodePlaintext
      | .output _ data => .ok (0 :: data)
      | .exit _ _ => .ok [1]
    encodeHost
      | .ciphertext counter data => .ok (1 :: (beBytes 8 counter.toNat ++ data))
      | .closed => .ok [2]
      | _ => .error "not used"
    maxTrustedFrameBytes := 16 * 1048576 }
  decodeHost := plainDecodeHost
  encodeMessage
    | .trustedOperationHost _ _ payload => .ok (0x7b :: payload)
    | _ => .error "not used"

/-- What `plainWire` adds. -/
def plainSizes : Sizes where
  output n := n + 1
  exit _ := 1
  cipher n := n
  frame n := n + 9
  closed := 1
  message n := n + 1
  cipher_mono _ _ h := h
  frame_mono _ _ h := Nat.add_le_add_right h 9
  message_mono _ _ h := Nat.add_le_add_right h 1

theorem plainWire_frame_length (counter : UInt64) (data : Bytes) :
    (1 :: (beBytes 8 counter.toNat ++ data)).length = data.length + 9 := by
  rw [List.length_cons, List.length_append, length_beBytes]
  omega

theorem plainWire_atMost (requestId : String) : plainWire.AtMost plainSizes requestId where
  plaintext piece _ := by
    cases piece with
    | output stream data => exact ⟨0 :: data, rfl, Nat.le_refl _⟩
    | exit code message => exact ⟨[1], rfl, Nat.le_refl _⟩
  cipher key nonce aad plaintext := ⟨plaintext, rfl, Nat.le_refl _⟩
  frame counter data :=
    ⟨1 :: (beBytes 8 counter.toNat ++ data), rfl, List.cons_ne_nil _ _,
      Nat.le_of_eq (plainWire_frame_length counter data)⟩
  closed := ⟨[2], rfl, List.cons_ne_nil _ _, Nat.le_refl _⟩
  message complete payload := ⟨0x7b :: payload, rfl, Nat.le_refl _⟩

theorem plainWire_atLeast (requestId : String) : plainWire.AtLeast plainSizes requestId where
  plaintext piece encoded _ h := by
    cases piece with
    | output stream data =>
        cases h
        exact Nat.le_refl _
    | exit code message =>
        cases h
        exact Nat.le_refl _
  cipher key nonce aad plaintext data h := by
    cases h
    exact Nat.le_refl _
  frame counter data payload h := by
    cases h
    exact Nat.le_of_eq (plainWire_frame_length counter data).symm
  closed payload h := by
    cases h
    exact Nat.le_refl _
  message complete payload text h := by
    cases h
    exact Nat.le_refl _

/-- Less is asked of a codec that adds something. -/
theorem Wire.AtLeast.same (h : x.AtLeast plainSizes requestId) : x.AtLeast .same requestId where
  plaintext piece encoded hsaid henc := by
    refine Nat.le_trans ?_ (h.plaintext piece encoded hsaid henc)
    cases piece with
    | output stream data => exact Nat.le_succ _
    | exit code message => exact Nat.zero_le _
  cipher := h.cipher
  frame counter data payload henc :=
    Nat.le_trans (Nat.le_add_right ..) (h.frame counter data payload henc)
  closed payload henc := Nat.zero_le _
  message complete payload text henc :=
    Nat.le_trans (Nat.le_succ _) (h.message complete payload text henc)

theorem plainWire_decode (frame : TrustedHostFrame) (payload : Bytes)
    (h : plainWire.encodeHost frame = .ok payload) : plainWire.decodeHost payload = .ok frame := by
  cases frame with
  | challenge signed => cases h
  | error message => cases h
  | closed =>
      cases h
      rfl
  | ciphertext counter data =>
      cases h
      show plainDecodeHost (1 :: (beBytes 8 counter.toNat ++ data)) = _
      have hlength := length_beBytes 8 counter.toNat
      have hcounter : beNat (beBytes 8 counter.toNat) = counter.toNat :=
        beNat_beBytes counter.toNat_lt
      rw [plainDecodeHost, List.take_left' hlength, List.drop_left' hlength, hcounter,
        UInt64.ofNat_toNat]

def plainTransport : Transport :=
  ⟨Vector.replicate 32 1, Vector.replicate 32 2, 0, 0, "request-1"⟩

def shortOutput : Output := ⟨some 0, [104, 105, 10], []⟩

/-- The frames for `shortOutput`. -/
def shortPayloads : List Bytes :=
  [1 :: (beBytes 8 0 ++ [0, 104, 105, 10]), 1 :: (beBytes 8 1 ++ [1]), [2]]

/-- They wait for a queue of two. -/
def shortHanding : Handing where
  queue := ⟨2, [], 0, false⟩
  waiting := relayed plainWire "request-1" shortPayloads
  accepted := []
  refused := []

theorem shortHanding_init : (handing plainWire "request-1"
    (written (gateRun plainWire plainTransport "/bin/echo" ["hi"] 60 shortOutput).1)).init
      shortHanding :=
  ⟨shortPayloads, by decide, by decide, rfl, rfl, rfl⟩

theorem command_delivered_short :
    ∃ s, (handing plainWire "request-1"
        (written (gateRun plainWire plainTransport "/bin/echo" ["hi"] 60 shortOutput).1)).Reach
          Room s ∧ s.waiting = [] ∧ s.accepted.length = 3 ∧
      Delivered plainWire plainTransport "/bin/echo" ["hi"] 60 "request-1" shortOutput s := by
  obtain ⟨s, hs, hwaiting, haccepted⟩ : ∃ s, (handing plainWire "request-1"
      (written (gateRun plainWire plainTransport "/bin/echo" ["hi"] 60 shortOutput).1)).runWithin
        Room shortHanding [.hand, .hand, .queue .take, .queue (.send (.capabilitiesUpdate [])),
          .queue .take, .hand] = some s ∧ s.waiting = [] ∧ s.accepted.length = 3 :=
    ⟨_, rfl, rfl, rfl⟩
  have hr := Machine.Reach.runWithin (.init shortHanding_init) hs
  refine ⟨s, hr, hwaiting, haccepted, ?_⟩
  exact (command_delivered_iff plainWire (by decide) plainWire_decode plainTransport "/bin/echo"
    ["hi"] 60 "request-1" shortOutput s hr.reachable hwaiting).1 plainSizes (plainWire_atMost _)
      (by unfold Sizes.Fit; decide) (by unfold CounterLeft; decide) hr

/-- One byte more than a text message may have, in frames that may have 16 MiB. -/
def longOutput : Output := ⟨some 0, List.replicate 2097153 0, []⟩

theorem long_output_lost :
    plainWire.AtMost plainSizes "request-1" ∧ plainWire.AtLeast plainSizes "request-1" ∧
    (∀ frame payload, plainWire.encodeHost frame = .ok payload →
      plainWire.decodeHost payload = .ok frame) ∧
    ∀ s, (handing plainWire "request-1"
        (written (gateRun plainWire plainTransport "/bin/cat" ["big"] 60 longOutput).1)).Reachable
          s →
      ¬Delivered plainWire plainTransport "/bin/cat" ["big"] 60 "request-1" longOutput s := by
  refine ⟨plainWire_atMost _, plainWire_atLeast _, plainWire_decode, fun s hr h => ?_⟩
  have hlength : longOutput.stdout.length = 2097153 := List.length_replicate
  have hlarge : maxWsMessageBytes < longOutput.stdout.length := by
    rw [hlength]
    decide
  obtain ⟨_, _, hfit⟩ := fit_of_delivered (by decide) hr h
  exact not_fit_of_large (.inl hlarge) (hfit (plainWire_atLeast _).same)

end ShellfleetAgent.Privileged
