import ShellfleetAgent.Privileged.Pty
import ShellfleetAgent.Proofs.Gate

/-!
# What the `select!` loop loses

Two properties of `run_pty` hold on most runs and not on all. Both proofs are
one invariant over the runs whose steps meet a condition, and the condition is
the claim's exact boundary.

For the frames the invariant is that the future's bytes and the unread bytes
together spell the frames still to come, from a frame boundary on. Everything
keeps it but one thing: dropping a future that holds something. For the shell
it is that the stage determines what has been done to the child process, and
the returns that skip the cleanup are the ones a `?` inside the loop takes.
-/

namespace ShellfleetAgent.Privileged

open ShellfleetAgent.Lib

variable {x : Externals} {s s' : PtyState}

/-! ## One frame at a time -/

/-- What the socket carries for a list of frames. -/
def frameStream (frames : List Bytes) : Bytes := frames.flatMap frameBytes

theorem frameStream_cons (b : Bytes) (bs : List Bytes) :
    frameStream (b :: bs) = beBytes 4 b.length ++ (b ++ frameStream bs) := by
  rw [frameStream, List.flatMap_cons, frameBytes, List.append_assoc]
  rfl

theorem frameStream_snoc (bs : List Bytes) (b : Bytes) :
    frameStream (bs ++ [b]) = frameStream bs ++ frameBytes b := by
  simp [frameStream]

/-- Four bytes at a frame boundary are the length of the first frame. -/
theorem first_frame {frames : List Bytes} {head rest : Bytes} (hhead : head.length = 4)
    (h : frameStream frames = head ++ rest) :
    ∃ b bs, frames = b :: bs ∧ head = beBytes 4 b.length ∧ rest = b ++ frameStream bs := by
  cases frames with
  | nil =>
      have hlen := congrArg List.length h
      simp [frameStream] at hlen
      omega
  | cons b bs =>
      rw [frameStream_cons] at h
      have hlen : (beBytes 4 b.length).length = head.length := by
        rw [length_beBytes, hhead]
      obtain ⟨h₁, h₂⟩ := List.append_inj h hlen
      exact ⟨b, bs, rfl, h₁.symm, h₂.symm⟩

/-- A future as `read_frame` leaves it between two polls. -/
def ReadFrame.Waiting (max : Nat) : ReadFrame → Prop
  | .head got => got.length < 4
  | .body length got => got.length < length ∧ length ≤ max

/-- Fed what it wants of a stream it is in step with, the future stays in step,
and what it yields is the next frame. -/
theorem feed_in_step {y : Codec} (hmax : y.maxTrustedFrameBytes < 2 ^ 32) {frames : List Bytes}
    (hf : ∀ b ∈ frames, Framable y b) {future : ReadFrame} {stream : Bytes} {n : Nat}
    (hw : future.Waiting y.maxTrustedFrameBytes) (hn : n ≤ future.wants)
    (hlen : n ≤ stream.length) (hsync : frameStream frames = future.held ++ stream) :
    match future.feed y (stream.take n) with
    | .pending future' => future'.Waiting y.maxTrustedFrameBytes ∧
        frameStream frames = future'.held ++ stream.drop n
    | .ready result => ∃ b bs, result = .ok b ∧ frames = b :: bs ∧
        frameStream bs = stream.drop n := by
  have hsplit : stream = stream.take n ++ stream.drop n := (List.take_append_drop n stream).symm
  have htake : (stream.take n).length = n := by
    rw [List.length_take]
    omega
  cases future with
  | head got =>
      simp only [ReadFrame.Waiting] at hw
      simp only [ReadFrame.wants] at hn
      have hgot : (got ++ stream.take n).length = got.length + n := by
        rw [List.length_append, htake]
      have hjoin : frameStream frames = (got ++ stream.take n) ++ stream.drop n := by
        rw [hsync, ReadFrame.held, List.append_assoc, ← hsplit]
      by_cases hshort : got.length + n < 4
      · rw [ReadFrame.feed, if_pos (by rw [hgot]; exact hshort)]
        exact ⟨by rw [ReadFrame.Waiting, hgot]; exact hshort, hjoin⟩
      · have hfour : (got ++ stream.take n).length = 4 := by
          rw [hgot]
          omega
        obtain ⟨b, bs, rfl, hhead, hrest⟩ := first_frame hfour hjoin
        have hb : Framable y b := hf b (List.mem_cons_self ..)
        rw [Framable, not_or, List.isEmpty_iff, ← List.length_eq_zero_iff] at hb
        have hnat : beNat (got ++ stream.take n) = b.length := by
          rw [hhead]
          exact beNat_beBytes (by omega)
        have hlong : ¬(got ++ stream.take n).length < 4 := by
          rw [hfour]
          omega
        have hvalid : ¬(b.length = 0 ∨ b.length > y.maxTrustedFrameBytes) := by omega
        rw [ReadFrame.feed, if_neg hlong, hnat, if_neg hvalid]
        refine ⟨⟨?_, ?_⟩, ?_⟩
        · simp only [List.length_nil]
          omega
        · omega
        · rw [frameStream_cons, ReadFrame.held, List.append_nil, hrest]
  | body length got =>
      simp only [ReadFrame.Waiting] at hw
      simp only [ReadFrame.wants] at hn
      have hgot : (got ++ stream.take n).length = got.length + n := by
        rw [List.length_append, htake]
      have hjoin : frameStream frames =
          beBytes 4 length ++ ((got ++ stream.take n) ++ stream.drop n) := by
        rw [hsync, ReadFrame.held, List.append_assoc, List.append_assoc, ← hsplit]
      by_cases hshort : got.length + n < length
      · rw [ReadFrame.feed, if_pos (by rw [hgot]; exact hshort)]
        refine ⟨⟨by rw [hgot]; exact hshort, hw.2⟩, ?_⟩
        rw [hjoin, ReadFrame.held]
        simp only [List.append_assoc]
      · rw [ReadFrame.feed, if_neg (by rw [hgot]; exact hshort)]
        obtain ⟨b, bs, rfl, hhead, hrest⟩ := first_frame (length_beBytes 4 length) hjoin
        have hb : Framable y b := hf b (List.mem_cons_self ..)
        rw [Framable, not_or] at hb
        have hlength : length = b.length := beBytes_inj (by omega) (by omega) hhead
        have hbody : (got ++ stream.take n).length = b.length := by
          rw [hgot]
          omega
        obtain ⟨hb₁, hb₂⟩ := List.append_inj hrest hbody
        exact ⟨b, bs, by rw [hb₁], rfl, hb₂.symm⟩

/-! ## The loop -/

/-- The stages from which the loop may still read. -/
def PtyStage.Reading : PtyStage → Prop
  | .kill | .wait | .sendExit | .returned _ => False
  | _ => True

/-- While the loop may still read, the pending future and the unread bytes spell
the frames not yet yielded. -/
structure InStep (x : Externals) (s : PtyState) : Prop where
  framable : ∀ b ∈ s.written, Framable x.toCodec b
  yielded : s.yielded <+: s.written
  waiting : s.incoming.Waiting x.maxTrustedFrameBytes
  stream : s.stage.Reading → ∃ rest, s.written = s.yielded ++ rest ∧
    frameStream rest = s.incoming.held ++ s.stream

/-- The shell's output does not win while `read_frame` holds bytes of a frame it
has not finished. -/
def Undisturbed (s : PtyState) : PtyLabel → Prop
  | .output (some _) _ => s.incoming.held = []
  | _ => True

theorem waiting_fresh {max : Nat} : ReadFrame.fresh.Waiting max := by
  simp [ReadFrame.fresh, ReadFrame.Waiting]

/-- Leaving the loop body keeps step if the dropped future held nothing, or if
the loop is over. -/
theorem InStep.leave (hi : InStep x s) {exit : LoopExit}
    (h : ∀ transport, exit = .next transport → s.stage.Reading ∧ s.incoming.held = []) :
    InStep x (s.leave exit) := by
  cases exit with
  | next transport =>
      obtain ⟨hread, hheld⟩ := h transport rfl
      refine ⟨hi.framable, hi.yielded, waiting_fresh, fun _ => ?_⟩
      obtain ⟨rest, hrest, hstream⟩ := hi.stream hread
      rw [hheld] at hstream
      exact ⟨rest, hrest, hstream⟩
  | stop => exact ⟨hi.framable, hi.yielded, waiting_fresh, False.elim⟩
  | fail error => exact ⟨hi.framable, hi.yielded, waiting_fresh, False.elim⟩

/-- A stage the loop has not begun or has left changes hands without reading. -/
theorem InStep.restage (hi : InStep x s) {stage : PtyStage} {calls : List ChildCall}
    (h : stage.Reading → s.stage.Reading) : InStep x { s with stage, calls } :=
  ⟨hi.framable, hi.yielded, hi.waiting, fun hread => hi.stream (h hread)⟩

theorem InStep.setup (hi : InStep x s) (hread : s.stage.Reading) {result : Except String Unit}
    {stage : PtyStage} : InStep x (s.setup result stage) := by
  cases result with
  | ok u => exact hi.restage fun _ => hread
  | error error => exact hi.restage False.elim

theorem InStep.answer (hi : InStep x s) {result : Except String Unit}
    (h : s.answer x result = some s') : InStep x s' := by
  unfold PtyState.answer at h
  split at h
  · next hs =>
      cases h
      exact hi.setup (by rw [hs]; trivial)
  · next hs =>
      split at h
      · cases h
        exact hi.restage fun _ => by rw [hs]; trivial
      · cases h
        exact hi.restage False.elim
  · next hs =>
      cases h
      exact hi.setup (by rw [hs]; trivial)
  · next hs =>
      cases h
      exact hi.setup (by rw [hs]; trivial)
  · cases h
    exact hi.restage False.elim
  · cases h
    exact hi.restage False.elim
  · cases h
    exact hi.restage False.elim
  · cases h
  · cases h

theorem InStep.write (hi : InStep x s) {body : Bytes} (hb : Framable x.toCodec body) :
    InStep x { s with stream := s.stream ++ frameBytes body, written := s.written ++ [body] } where
  framable b hmem := by
    rcases List.mem_append.mp hmem with hmem | hmem
    · exact hi.framable b hmem
    · rw [List.mem_singleton.mp hmem]
      exact hb
  yielded := hi.yielded.trans (List.prefix_append _ _)
  waiting := hi.waiting
  stream hread := by
    obtain ⟨rest, hrest, hstream⟩ := hi.stream hread
    refine ⟨rest ++ [body], ?_, ?_⟩
    · rw [hrest, List.append_assoc]
    · rw [frameStream_snoc, hstream, List.append_assoc]

theorem InStep.poll (hmax : x.maxTrustedFrameBytes < 2 ^ 32) (hi : InStep x s)
    (hstage : s.stage = .select) {n : Nat} {io : PtyIo} (hlen : n ≤ s.stream.length)
    (hn : n ≤ s.incoming.wants) : InStep x (s.poll x n io) := by
  obtain ⟨rest, hrest, hstream⟩ := hi.stream (by rw [hstage]; trivial)
  have hframable : ∀ b ∈ rest, Framable x.toCodec b := by
    intro b hb
    exact hi.framable b (by rw [hrest]; exact List.mem_append_right _ hb)
  have hfeed := feed_in_step hmax hframable hi.waiting hn hlen hstream
  unfold PtyState.poll
  split
  · next future hpoll =>
      rw [hpoll] at hfeed
      exact ⟨hi.framable, hi.yielded, hfeed.1, fun _ => ⟨rest, hrest, hfeed.2⟩⟩
  · next error hpoll =>
      rw [hpoll] at hfeed
      obtain ⟨_, _, hresult, _⟩ := hfeed
      cases hresult
  · next payload hpoll =>
      rw [hpoll] at hfeed
      obtain ⟨b, bs, hresult, rfl, hbs⟩ := hfeed
      cases hresult
      -- The frame is complete: nothing of the next one has been taken yet.
      have hyielded : s.yielded ++ [payload] ++ bs = s.written := by
        rw [hrest, List.append_assoc]
        rfl
      have hread : InStep x
          { s with
            stream := s.stream.drop n
            incoming := .fresh
            yielded := s.yielded ++ [payload] } :=
        ⟨hi.framable, ⟨bs, hyielded⟩, waiting_fresh, fun _ => ⟨bs, hyielded.symm, hbs⟩⟩
      have hleave := @InStep.leave _ _ hread (onFrame x s.transport payload io)
        fun _ _ => ⟨by rw [hstage]; trivial, rfl⟩
      revert hleave
      cases onFrame x s.transport payload io <;> exact id

theorem inStep_step (hmax : x.maxTrustedFrameBytes < 2 ^ 32) (hi : InStep x s) {l : PtyLabel}
    (hok : Undisturbed s l) (h : s.step x l = some s') : InStep x s' := by
  cases l with
  | write body =>
      simp only [PtyState.step] at h
      split at h
      · next hb => cases h; exact hi.write hb
      · cases h
  | answer result => exact hi.answer h
  | deadline =>
      simp only [PtyState.step] at h
      split at h
      · cases h; exact hi.leave nofun
      · cases h
  | output data io =>
      simp only [PtyState.step] at h
      split at h
      · next hstage =>
          cases h
          refine hi.leave fun transport hnext => ⟨by rw [hstage]; trivial, ?_⟩
          cases data with
          | none => cases hnext
          | some data => exact hok
      · cases h
  | poll n io =>
      simp only [PtyState.step] at h
      split at h
      · next hpoll =>
          obtain ⟨hstage, _, hlen, hn⟩ := hpoll
          cases h
          exact hi.poll hmax hstage hlen hn
      · cases h
  | readError =>
      simp only [PtyState.step] at h
      split at h
      · cases h; exact hi.leave nofun
      · cases h

/-- In every run in which the shell's output never wins the `select!` over a
`read_frame` that already holds bytes, the loop is given the frames that were
written, in order and none left out. The constant of the `shared` crate must fit
the `u32` a length is sent as. -/
theorem frames_in_order (hmax : x.maxTrustedFrameBytes < 2 ^ 32)
    (hr : (ptyMachine x).Reach Undisturbed s) : s.yielded <+: s.written := by
  have hi : InStep x s := by
    refine hr.invariant ?_ fun s i s' _ hi hok hs => inStep_step hmax hi hok hs
    intro s ⟨_, hincoming, hyielded, _, hwritten, hstream⟩
    refine ⟨by rw [hwritten]; nofun, by rw [hyielded]; exact List.nil_prefix, ?_, fun _ => ?_⟩
    · rw [hincoming]
      exact waiting_fresh
    · exact ⟨[], by rw [hwritten, hyielded]; rfl, by rw [hincoming, hstream]; rfl⟩
  exact hi.yielded

def ptyStart : PtyState where
  stage := .openpty
  transport := ⟨Vector.replicate 32 1, Vector.replicate 32 2, 0, 0, "request-1"⟩
  stream := []
  incoming := .fresh
  written := []
  yielded := []
  calls := []

theorem ptyStart_init : (ptyMachine x).init ptyStart := ⟨rfl, rfl, rfl, rfl, rfl, rfl⟩

/-- The shell is up and the loop begins. -/
def ptySetup : List PtyLabel := List.replicate 4 (.answer (.ok ()))

instance : ∀ (s : PtyState) (l : PtyLabel), Decidable (Undisturbed s l)
  | s, .output (some _) _ => inferInstanceAs (Decidable (s.incoming.held = []))
  | _, .output none _ | _, .write _ | _, .answer _ | _, .deadline | _, .poll .. | _, .readError =>
      inferInstanceAs (Decidable True)

/-- A frame that arrives in three pieces after some output. -/
theorem frames_in_order_pieces :
    ∃ s, (ptyMachine plainExternals).Reach Undisturbed s ∧
      s.yielded = [[0, 0, 0, 1, 7]] ∧ s.yielded <+: s.written := by
  have hrun : ((ptyMachine plainExternals).runWithin Undisturbed ptyStart
      (ptySetup ++ [PtyLabel.write [0, 0, 0, 1, 7], .output (some [36]) {}, .poll 1 {}, .poll 3 {},
        .poll 5 {}])).map (fun s => s.yielded) = some [[0, 0, 0, 1, 7]] := by
    decide
  obtain ⟨s, hs, hyielded⟩ := Option.map_eq_some_iff.mp hrun
  have hr := Machine.Reach.runWithin (.init ptyStart_init) hs
  exact ⟨s, hr, hyielded, frames_in_order (by decide) hr⟩

/-- The length of a five-byte frame has arrived when the shell prints a prompt.
The next `read_frame` takes the frame's own bytes for a length. -/
theorem frames_lost :
    ∃ s, (ptyMachine plainExternals).Reachable s ∧
      s.written = [[0, 0, 0, 1, 7]] ∧ s.yielded = [[7]] ∧ ¬s.yielded <+: s.written := by
  have hrun : ((ptyMachine plainExternals).run ptyStart
      (ptySetup ++ [PtyLabel.write [0, 0, 0, 1, 7], .poll 4 {}, .output (some [36]) {}, .poll 4 {},
        .poll 1 {}])).map (fun s => (s.written, s.yielded)) =
      some ([[0, 0, 0, 1, 7]], [[7]]) := by
    decide
  obtain ⟨s, hs, hseen⟩ := Option.map_eq_some_iff.mp hrun
  have hr := Machine.Reach.run (.init ptyStart_init) hs
  have hwritten : s.written = [[0, 0, 0, 1, 7]] := congrArg Prod.fst hseen
  have hyielded : s.yielded = [[7]] := congrArg Prod.snd hseen
  refine ⟨s, hr, hwritten, hyielded, ?_⟩
  rw [hwritten, hyielded]
  decide

/-! ## The shell's process -/

/-- What has been done to the shell at each stage before the return. -/
def PtyStage.calls : PtyStage → List ChildCall
  | .openpty | .spawnCommand | .returned _ => []
  | .tryCloneReader | .takeWriter | .select | .kill => [.spawned]
  | .wait => [.spawned, .killed]
  | .sendExit => [.spawned, .killed, .waited]

/-- Nothing goes wrong with the frame that was read. -/
def FrameServed (x : Externals) (transport : Transport) (payload : Bytes) (io : PtyIo) : Prop :=
  match x.decodeClient payload with
  | .ok (.ciphertext counter data) =>
      (∃ plaintext, (transport.decrypt x.toSuite counter data).2 = .ok plaintext) ∧
        io.writeAll = .ok () ∧ io.flush = .ok ()
  | .ok (.resize _ _) => io.resize = .ok ()
  | .ok .close => True
  | _ => False

/-- Nothing goes wrong between the spawn of the shell and the cleanup: the two
halves of the PTY are there, output can be sent, and every frame is served. -/
def StepServed (x : Externals) (s : PtyState) : PtyLabel → Prop
  | .answer result => s.stage = .tryCloneReader ∨ s.stage = .takeWriter → result = .ok ()
  | .output (some data) io =>
      ∃ transport, sendEncryptedPty x s.transport (.output "pty" data) io.send = .ok transport
  | .poll n io => ∀ payload,
      s.incoming.feed x.toCodec (s.stream.take n) = .ready (.ok payload) →
        FrameServed x s.transport payload io
  | _ => True

theorem frameServed_iff {transport : Transport} {payload : Bytes} {io : PtyIo} :
    FrameServed x transport payload io ↔
      ∀ error, onFrame x transport payload io ≠ .fail error := by
  unfold FrameServed onFrame
  cases x.decodeClient payload with
  | error error => simp
  | ok frame =>
      cases frame with
      | ciphertext counter data =>
          cases hdecrypt : transport.decrypt x.toSuite counter data with
          | mk transport' plaintext =>
              cases plaintext with
              | error error => simp [hdecrypt]
              | ok plaintext =>
                  cases io.writeAll <;> cases io.flush <;> simp [hdecrypt]
      | resize cols rows => cases io.resize <;> simp
      | close => simp
      | start _ _ _ => simp
      | approve _ _ _ => simp

theorem outputServed_iff {transport : Transport} {data : Bytes} {io : PtyIo} :
    (∃ transport', sendEncryptedPty x transport (.output "pty" data) io.send = .ok transport') ↔
      ∀ error, onOutput x transport (some data) io ≠ .fail error := by
  rw [onOutput]
  cases sendEncryptedPty x transport (.output "pty" data) io.send <;> simp

/-- A shell that was spawned and cleaned up after, in this order. -/
def reaped : List ChildCall := [.spawned, .killed, .waited]

/-- Short of its return, a session's stage says what was done to the shell. -/
def Staged (s : PtyState) : Prop :=
  (∀ r, s.stage ≠ .returned r) → s.calls = s.stage.calls

/-- What one step of a session that has not returned can come to: it goes on, it
returns with no shell or a reaped one, or it goes wrong and returns past the
cleanup. -/
inductive StepEnd (x : Externals) (s : PtyState) (l : PtyLabel) (s' : PtyState) : Prop
  | goesOn (hserved : StepServed x s l) (hstage : ∀ r, s'.stage ≠ .returned r)
      (hcalls : s'.calls = s'.stage.calls)
  | returns (hserved : StepServed x s l) (r : Except String Unit)
      (hstage : s'.stage = .returned r) (hcalls : s'.calls = [] ∨ s'.calls = reaped)
  | goesWrong (hserved : ¬StepServed x s l) (error : String)
      (hstage : s'.stage = .returned (.error error)) (hcalls : s'.calls = [.spawned])

theorem stepEnd_leave {l : PtyLabel} (hcalls : s.calls = [.spawned]) {exit : LoopExit}
    (hserved : StepServed x s l ↔ ∀ error, exit ≠ .fail error) :
    StepEnd x s l (s.leave exit) := by
  cases exit with
  | next transport => exact .goesOn (hserved.mpr nofun) nofun hcalls
  | stop => exact .goesOn (hserved.mpr nofun) nofun hcalls
  | fail error =>
      refine .goesWrong (fun h => ?_) error rfl hcalls
      exact hserved.mp h error rfl

theorem stepEnd_setup {result : Except String Unit} {stage : PtyStage}
    (hcalls : s.calls = [.spawned]) (hstage : s.stage = .tryCloneReader ∨ s.stage = .takeWriter)
    (hnext : (∀ r, stage ≠ .returned r) ∧ stage.calls = [.spawned]) :
    StepEnd x s (.answer result) (s.setup result stage) := by
  cases result with
  | ok u => exact .goesOn (fun _ => rfl) hnext.1 (hcalls.trans hnext.2.symm)
  | error error =>
      refine .goesWrong (fun h => ?_) error rfl hcalls
      cases h hstage

theorem stepEnd_answer (hlive : ∀ r, s.stage ≠ .returned r) (hi : s.calls = s.stage.calls)
    {result : Except String Unit} (h : s.answer x result = some s') :
    StepEnd x s (.answer result) s' := by
  have hserved : s.stage ≠ .tryCloneReader → s.stage ≠ .takeWriter →
      StepServed x s (.answer result) := by
    intro h₁ h₂ h
    rcases h with h | h
    · exact absurd h h₁
    · exact absurd h h₂
  unfold PtyState.answer at h
  cases hstage : s.stage with
  | openpty =>
      rw [hstage] at h hi
      cases h
      have hserved := hserved (by rw [hstage]; nofun) (by rw [hstage]; nofun)
      cases result with
      | ok u => exact .goesOn hserved nofun hi
      | error error => exact .returns hserved _ rfl (.inl hi)
  | spawnCommand =>
      rw [hstage] at h hi
      have hserved := hserved (by rw [hstage]; nofun) (by rw [hstage]; nofun)
      cases result with
      | ok u =>
          cases h
          refine .goesOn hserved nofun ?_
          rw [hi]
          rfl
      | error error =>
          cases h
          exact .returns hserved _ rfl (.inl hi)
  | tryCloneReader =>
      rw [hstage] at h hi
      cases h
      exact stepEnd_setup hi (.inl hstage) ⟨nofun, rfl⟩
  | takeWriter =>
      rw [hstage] at h hi
      cases h
      exact stepEnd_setup hi (.inr hstage) ⟨nofun, rfl⟩
  | kill =>
      rw [hstage] at h hi
      cases h
      refine .goesOn (hserved (by rw [hstage]; nofun) (by rw [hstage]; nofun)) nofun ?_
      rw [hi]
      rfl
  | wait =>
      rw [hstage] at h hi
      cases h
      refine .goesOn (hserved (by rw [hstage]; nofun) (by rw [hstage]; nofun)) nofun ?_
      rw [hi]
      rfl
  | sendExit =>
      rw [hstage] at h hi
      cases h
      exact .returns (hserved (by rw [hstage]; nofun) (by rw [hstage]; nofun)) _ rfl (.inr hi)
  | select =>
      rw [hstage] at h
      cases h
  | returned r => exact absurd hstage (hlive r)

theorem stepEnd_poll (hstage : s.stage = .select) (hcalls : s.calls = [.spawned]) {n : Nat}
    {io : PtyIo} : StepEnd x s (.poll n io) (s.poll x n io) := by
  have hstaged : s.calls = s.stage.calls := by
    rw [hstage]
    exact hcalls
  unfold PtyState.poll
  cases hpoll : s.incoming.feed x.toCodec (s.stream.take n) with
  | pending future =>
      have hserved : StepServed x s (.poll n io) := by
        intro payload h
        rw [hpoll] at h
        cases h
      exact .goesOn hserved (by rw [hstage]; nofun) hstaged
  | ready result =>
      cases result with
      | error error =>
          have hserved : StepServed x s (.poll n io) := by
            intro payload h
            rw [hpoll] at h
            cases h
          exact .goesOn hserved nofun hcalls
      | ok payload =>
          have hserved : StepServed x s (.poll n io) ↔
              ∀ error, onFrame x s.transport payload io ≠ .fail error := by
            rw [← frameServed_iff]
            refine ⟨fun h => h payload hpoll, fun h payload' h' => ?_⟩
            rw [hpoll] at h'
            cases h'
            exact h
          dsimp only
          cases hexit : onFrame x s.transport payload io with
          | next transport => exact .goesOn (hserved.mpr (by rw [hexit]; nofun)) nofun hcalls
          | stop => exact .goesOn (hserved.mpr (by rw [hexit]; nofun)) nofun hcalls
          | fail error =>
              exact .goesWrong (fun h => hserved.mp h error hexit) error rfl hcalls

theorem stepEnd_step (hlive : ∀ r, s.stage ≠ .returned r) (hi : s.calls = s.stage.calls)
    {l : PtyLabel} (h : s.step x l = some s') : StepEnd x s l s' := by
  have hselect : s.stage = .select → s.calls = [.spawned] := by
    intro hstage
    rw [hi, hstage]
    rfl
  cases l with
  | write body =>
      simp only [PtyState.step] at h
      split at h
      · cases h; exact .goesOn trivial hlive hi
      · cases h
  | answer result => exact stepEnd_answer hlive hi h
  | deadline =>
      simp only [PtyState.step] at h
      split at h
      · next hstage =>
          cases h
          exact stepEnd_leave (hselect hstage) ⟨fun _ => nofun, fun _ => trivial⟩
      · cases h
  | output data io =>
      simp only [PtyState.step] at h
      split at h
      · next hstage =>
          cases h
          refine stepEnd_leave (hselect hstage) ?_
          cases data with
          | none => exact ⟨fun _ => nofun, fun _ => trivial⟩
          | some data => exact outputServed_iff
      · cases h
  | poll n io =>
      simp only [PtyState.step] at h
      split at h
      · next hpoll =>
          cases h
          exact stepEnd_poll hpoll.1 (hselect hpoll.1)
      · cases h
  | readError =>
      simp only [PtyState.step] at h
      split at h
      · next hstage =>
          cases h
          exact stepEnd_leave (hselect hstage) ⟨fun _ => nofun, fun _ => trivial⟩
      · cases h

/-- A session that has returned is over; only the relay still writes. -/
theorem returned_step {r : Except String Unit} (hstage : s.stage = .returned r) {l : PtyLabel}
    (h : s.step x l = some s') : s'.stage = s.stage ∧ s'.calls = s.calls := by
  cases l with
  | write body =>
      simp only [PtyState.step] at h
      split at h
      · cases h; exact ⟨rfl, rfl⟩
      · cases h
  | answer result => simp [PtyState.step, PtyState.answer, hstage] at h
  | _ => simp [PtyState.step, hstage] at h

theorem staged_reachable (hr : (ptyMachine x).Reachable s) : Staged s := by
  refine hr.invariant ?_ ?_
  · intro s ⟨hstage, _, _, hcalls, _⟩ _
    rw [hstage, hcalls]
    rfl
  · intro s l s' _ hi _ h hlive'
    by_cases hlive : ∀ r, s.stage ≠ .returned r
    · cases stepEnd_step hlive (hi hlive) h with
      | goesOn _ _ hcalls => exact hcalls
      | returns _ r hstage _ => exact absurd hstage (hlive' r)
      | goesWrong _ error hstage _ => exact absurd hstage (hlive' _)
    · simp only [ne_eq, not_forall, not_not] at hlive
      obtain ⟨r, hstage⟩ := hlive
      exact absurd ((returned_step hstage h).1.trans hstage) (hlive' r)

/-- In a run in which every step is served, `run_pty` returns with no shell or a
reaped one; and in any run at all, the step that returns from a session with a
shell leaves it reaped exactly if that step was served. -/
theorem shell_reaped :
    (∀ s, (ptyMachine x).Reach (StepServed x) s → ∀ r, s.stage = .returned r →
      .spawned ∈ s.calls → s.calls = reaped) ∧
    (∀ s l s' r, (ptyMachine x).Reachable s → (∀ r, s.stage ≠ .returned r) →
      (ptyMachine x).step s l = some s' → s'.stage = .returned r → .spawned ∈ s'.calls →
      (s'.calls = reaped ↔ StepServed x s l)) := by
  constructor
  · intro s hr
    refine hr.invariant (I := fun s => ∀ r, s.stage = .returned r →
      .spawned ∈ s.calls → s.calls = reaped) ?_ ?_
    · intro s ⟨_, _, _, hcalls, _⟩ r _ hspawned
      rw [hcalls] at hspawned
      cases hspawned
    · intro s l s' hr hi hok h r hstage' hspawned
      by_cases hlive : ∀ r, s.stage ≠ .returned r
      · cases stepEnd_step hlive (staged_reachable hr.reachable hlive) h with
        | goesOn _ hlive' _ => exact absurd hstage' (hlive' r)
        | returns _ _ _ hcalls =>
            rcases hcalls with hcalls | hcalls
            · rw [hcalls] at hspawned
              cases hspawned
            · exact hcalls
        | goesWrong hserved _ _ _ => exact absurd hok hserved
      · simp only [ne_eq, not_forall, not_not] at hlive
        obtain ⟨r₀, hstage⟩ := hlive
        obtain ⟨_, hcalls⟩ := returned_step hstage h
        rw [hcalls] at hspawned ⊢
        exact hi r₀ hstage hspawned
  · intro s l s' r hr hlive h hstage' hspawned
    cases stepEnd_step hlive (staged_reachable hr hlive) h with
    | goesOn _ hlive' _ => exact absurd hstage' (hlive' r)
    | returns hserved _ _ hcalls =>
        rcases hcalls with hcalls | hcalls
        · rw [hcalls] at hspawned
          cases hspawned
        · exact ⟨fun _ => hserved, fun _ => hcalls⟩
    | goesWrong hserved _ _ hcalls =>
        rw [hcalls]
        exact ⟨fun h => absurd h (by decide), fun h => absurd h hserved⟩

/-- The frames of a client that resizes its window, types `ls` and closes. -/
def shellExternals : Externals :=
  { plainExternals with
    decodeClient
      | [3] => .ok .close
      | [4] => .ok (.resize 80 24)
      | [5] => .ok (.ciphertext 0 [108, 115, 10])
      | _ => .error "malformed" }

def PtyStage.over : PtyStage → Bool
  | .returned _ => true
  | _ => false

def PtyStage.failed : PtyStage → Bool
  | .returned (.error _) => true
  | _ => false

/-- A step of a session that has not returned, which does not return an error. -/
def quiet (x : Externals) (s : PtyState) (l : PtyLabel) : Bool :=
  !s.stage.over && (s.step x l).any fun s' => !s'.stage.failed

theorem stepServed_of_quiet (hr : (ptyMachine x).Reachable s) {l : PtyLabel}
    (h : quiet x s l = true) : StepServed x s l := by
  obtain ⟨hover, hstep⟩ := Bool.and_eq_true_iff.mp h
  have hlive : ∀ r, s.stage ≠ .returned r := by
    intro r hstage
    rw [hstage] at hover
    cases hover
  cases hs : s.step x l with
  | none =>
      rw [hs] at hstep
      cases hstep
  | some s' =>
      rw [hs, Option.any_some] at hstep
      cases stepEnd_step hlive (staged_reachable hr hlive) hs with
      | goesOn hserved _ _ => exact hserved
      | returns hserved _ _ _ => exact hserved
      | goesWrong _ error hstage _ =>
          rw [hstage] at hstep
          cases hstep

/-- A session with output and input, which the client closes. -/
theorem shell_reaped_closed : ∃ s : PtyState, s.stage = .returned (.ok ()) ∧
    s.yielded = [[4], [5], [3]] ∧ .spawned ∈ s.calls ∧ s.calls = reaped := by
  have hrun : ((ptyMachine shellExternals).runWithin (fun s l => quiet shellExternals s l = true)
      ptyStart (ptySetup ++ [PtyLabel.write [4], .output (some [36]) {}, .write [5], .poll 4 {},
        .poll 1 {}, .poll 4 {}, .poll 1 {}, .output (some [108, 115]) {}, .write [3], .poll 4 {},
        .poll 1 {}] ++ List.replicate 3 (PtyLabel.answer (.ok ())))).map
      (fun s => (s.stage, s.yielded, s.calls)) =
      some (.returned (.ok ()), [[4], [5], [3]], [.spawned, .killed, .waited]) := by
    decide
  obtain ⟨s, hs, hseen⟩ := Option.map_eq_some_iff.mp hrun
  obtain ⟨hstage, hseen⟩ := Prod.mk.inj hseen
  obtain ⟨hyielded, hcalls⟩ := Prod.mk.inj hseen
  have hr : (ptyMachine shellExternals).Reach (StepServed shellExternals) s :=
    (Machine.Reach.runWithin (.init ptyStart_init) hs).mono_reachable
      fun _ _ hreach hquiet => stepServed_of_quiet hreach hquiet
  have hspawned : .spawned ∈ s.calls := by
    rw [hcalls]
    decide
  exact ⟨s, hstage, hyielded, hspawned, shell_reaped.1 s hr (.ok ()) hstage hspawned⟩

/-- One frame that does not decode, and the root shell is left running. -/
theorem shell_left_running :
    ∃ s error, (ptyMachine plainExternals).Reachable s ∧
      s.stage = .returned (.error error) ∧ s.calls = [.spawned] := by
  have hrun : ((ptyMachine plainExternals).run ptyStart
      (ptySetup ++ [PtyLabel.write [7], .poll 4 {}, .poll 1 {}])).map
      (fun s => (s.stage, s.calls)) =
      some (.returned (.error "malformed"), [.spawned]) := by
    decide
  obtain ⟨s, hs, hseen⟩ := Option.map_eq_some_iff.mp hrun
  have hr := Machine.Reach.run (.init ptyStart_init) hs
  exact ⟨s, "malformed", hr, congrArg Prod.fst hseen, congrArg Prod.snd hseen⟩

end ShellfleetAgent.Privileged
